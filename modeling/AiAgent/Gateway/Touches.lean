import AiAgent.Command.Cut
import AiAgent.Gateway.Found

/-!
# What commands do to the places of jobs

A job is found by its record, by the active set and by the pending lists. A command changes them by
a few kinds of touches (`AiAgent.Gateway.Touch`), and what a list of commands leaves is what its
touches leave (`AiAgent.Gateway.samePlaces_execAll`).

A job is taken by the touch that removes it from a pending list or from the active set, or that
changes its record, until a touch puts it into the active set or pushes it to its pending list
(`AiAgent.Gateway.taken`). Where every push to a pending list comes right after the job was saved
as queued (`AiAgent.Gateway.Sound`), what is not taken is found
(`AiAgent.Gateway.Found.after`), and so is what is taken but kept elsewhere; the rest is in hand
(`AiAgent.Gateway.InHand`).
-/

namespace AiAgent

namespace Gateway

open Command

/-! ### What a command does to the places -/

/-- A change of a record, of the active set or of a list. -/
inductive Touch where
  /-- A record is saved. -/
  | save (job : Job)
  /-- An id enters the active set. -/
  | enter (jobId : JobId) (score : ℕ)
  /-- An id leaves the active set. -/
  | leave (jobId : JobId)
  /-- An id is pushed to a list. -/
  | push (queue : Queue) (jobId : JobId)
  /-- An entry is removed from a list. -/
  | pull (queue : Queue) (jobId : JobId)

/-- The list is a pending list. -/
def Queue.isPending : Queue → Bool
  | .pending _ _ => true
  | _ => false

/-- What a write changes. -/
def Write.touch? : Write → Option Touch
  | .set job => some (.save job)
  | .zadd jobId score => some (.enter jobId score)
  | .zrem jobId => some (.leave jobId)
  | .rpush queue jobId => some (.push queue jobId)
  | _ => none

/-- What a command changes, latest change first. -/
def Cmd.touches : Cmd → List Touch
  | .write ws => (ws.filterMap Write.touch?).reverse
  | .lrem queue jobId => [.pull queue jobId]
  | _ => []

/-- What some commands change, latest change first. -/
def touchesOf (cs : List Cmd) : List Touch := cs.foldl (fun ts c => c.touches ++ ts) []

/-- One change. -/
def Redis.touch (s : Redis) : Touch → Redis
  | .save job => s.set job
  | .enter jobId score => s.zadd jobId score
  | .leave jobId => s.zrem jobId
  | .push queue jobId => s.rpush queue jobId
  | .pull queue jobId => s.lrem queue jobId

/-- The state after some changes. -/
def Redis.after (s : Redis) (ts : List Touch) : Redis := ts.foldr (fun t s => s.touch t) s

@[simp] theorem Redis.after_nil (s : Redis) : s.after [] = s := rfl

@[simp] theorem Redis.after_cons (s : Redis) (t : Touch) (ts : List Touch) :
    s.after (t :: ts) = (s.after ts).touch t := rfl

theorem Redis.after_append (s : Redis) (ts ts' : List Touch) :
    s.after (ts ++ ts') = (s.after ts').after ts := List.foldr_append

/-- The states have the same records, the same active set and the same pending lists. -/
structure SamePlaces (s s' : Redis) : Prop where
  /-- The records. -/
  jobs : s'.jobs = s.jobs
  /-- The active set. -/
  active : s'.active = s.active
  /-- The pending lists. -/
  queues : ∀ queue, queue.isPending = true → s'.queues queue = s.queues queue

theorem SamePlaces.refl (s : Redis) : SamePlaces s s := ⟨rfl, rfl, fun _ _ => rfl⟩

theorem SamePlaces.trans {s s' s'' : Redis} (h : SamePlaces s s') (h' : SamePlaces s' s'') :
    SamePlaces s s'' :=
  ⟨h'.jobs.trans h.jobs, h'.active.trans h.active,
    fun q hq => (h'.queues q hq).trans (h.queues q hq)⟩

theorem SamePlaces.touch {s s' : Redis} (h : SamePlaces s s') (t : Touch) :
    SamePlaces (s.touch t) (s'.touch t) := by
  cases t with
  | save job =>
    refine ⟨?_, h.active, h.queues⟩
    show s'.jobs.insert job.id job = s.jobs.insert job.id job
    rw [h.jobs]
  | enter jobId score =>
    refine ⟨h.jobs, ?_, h.queues⟩
    show s'.active.insert jobId score = s.active.insert jobId score
    rw [h.active]
  | leave jobId =>
    refine ⟨h.jobs, ?_, h.queues⟩
    show s'.active.erase jobId = s.active.erase jobId
    rw [h.active]
  | push queue jobId =>
    refine ⟨h.jobs, h.active, fun q hq => ?_⟩
    show Function.update _ _ _ _ = Function.update _ _ _ _
    by_cases hself : q = queue
    · rw [hself] at hq
      rw [hself, Function.update_self, Function.update_self, h.queues queue hq]
    · rw [Function.update_of_ne hself, Function.update_of_ne hself, h.queues q hq]
  | pull queue jobId =>
    refine ⟨h.jobs, h.active, fun q hq => ?_⟩
    show Function.update _ _ _ _ = Function.update _ _ _ _
    by_cases hself : q = queue
    · rw [hself] at hq
      rw [hself, Function.update_self, Function.update_self, h.queues queue hq]
    · rw [Function.update_of_ne hself, Function.update_of_ne hself, h.queues q hq]

theorem SamePlaces.after {s s' : Redis} (h : SamePlaces s s') (ts : List Touch) :
    SamePlaces (s.after ts) (s'.after ts) := by
  induction ts with
  | nil => exact h
  | cons t ts ih => exact ih.touch t

/-- The touches of a transaction: those of the first write come first, so they stand last. -/
theorem touches_cons (w : Write) (ws : List Write) :
    ((w :: ws).filterMap Write.touch?).reverse =
      (ws.filterMap Write.touch?).reverse ++ w.touch?.toList := by
  rw [List.filterMap_cons]
  cases w.touch? <;> simp

/-- A transaction changes what its writes change. -/
theorem samePlaces_writes (s : Redis) (ws : List Write) :
    SamePlaces (s.after (ws.filterMap Write.touch?).reverse) (s.writes ws) := by
  induction ws generalizing s with
  | nil => exact .refl s
  | cons w ws ih =>
    rw [Redis.writes_cons]
    have hfirst : SamePlaces (s.after w.touch?.toList) (s.write w) := by
      cases w with
      | set job => exact .refl _
      | zadd jobId score => exact .refl _
      | zrem jobId => exact .refl _
      | rpush queue jobId => exact .refl _
      | _ => exact ⟨rfl, rfl, fun _ _ => rfl⟩
    rw [touches_cons, Redis.after_append]
    exact (hfirst.after _).trans (ih (s.write w))

/-- The command takes nothing from a pending list to another list. -/
def Cmd.PopsNoPending : Cmd → Prop
  | .brpoplpush source destination => source.isPending = false ∧ destination.isPending = false
  | _ => True

theorem samePlaces_exec (s : Redis) {c : Cmd} (hc : c.PopsNoPending) :
    SamePlaces (s.after c.touches) (soloExec c s).2 := by
  cases c with
  | write ws => exact samePlaces_writes s ws
  | lrem queue jobId => exact .refl _
  | brpoplpush source destination =>
    refine ⟨?_, ?_, fun q hq => ?_⟩
    · obtain ⟨queues, hpop⟩ := s.brpoplpush_eq source destination
      show (s.brpoplpush source destination).2.jobs = s.jobs
      rw [hpop]
    · obtain ⟨queues, hpop⟩ := s.brpoplpush_eq source destination
      show (s.brpoplpush source destination).2.active = s.active
      rw [hpop]
    · have hsource : q ≠ source := fun heq => by rw [heq, hc.1] at hq; cases hq
      have hdestination : q ≠ destination := fun heq => by rw [heq, hc.2] at hq; cases hq
      show (s.brpoplpush source destination).2.queues q = s.queues q
      unfold Redis.brpoplpush
      split
      · rfl
      · dsimp only
        rw [Function.update_of_ne hdestination, Function.update_of_ne hsource]
  | _ => exact .refl _

theorem samePlaces_execAll (s : Redis) {cs : List Cmd} (hcs : ∀ c ∈ cs, c.PopsNoPending)
    (ts : List Touch) {s₁ : Redis} (h : SamePlaces (s.after ts) s₁) :
    SamePlaces (s.after (cs.foldl (fun ts c => c.touches ++ ts) ts))
      (soloStore.execAll 0 cs s₁) := by
  induction cs generalizing ts s₁ with
  | nil => exact h
  | cons c cs ih =>
    refine ih (fun c' hc' => hcs c' (List.mem_cons_of_mem c hc')) (c.touches ++ ts) ?_
    rw [Redis.after_append]
    exact (h.after c.touches).trans (samePlaces_exec s₁ (hcs c List.mem_cons_self))

/-! ### Taken, kept and put back -/

/-- The job was taken away from where it is found, or its record was changed, and it was not put
back since. -/
def taken (k : JobId) : List Touch → Bool
  | [] => false
  | .save job :: ts => decide (job.id = k) || taken k ts
  | .enter jobId _ :: ts => decide (jobId ≠ k) && taken k ts
  | .leave jobId :: ts => decide (jobId = k) || taken k ts
  | .push queue jobId :: ts => !(queue.isPending && decide (jobId = k)) && taken k ts
  | .pull queue jobId :: ts => (queue.isPending && decide (jobId = k)) || taken k ts

/-- The record of a job after some changes. -/
def lastRecord (s : Redis) (k : JobId) : List Touch → Option Job
  | [] => s.job? k
  | .save job :: ts => if k = job.id then some job else lastRecord s k ts
  | _ :: ts => lastRecord s k ts

/-- What is left of a list when nothing is pushed to it. -/
def remaining (s : Redis) (q : Queue) : List Touch → List JobId
  | [] => s.queues q
  | .pull queue jobId :: ts =>
    if queue = q then (remaining s q ts).erase jobId else remaining s q ts
  | _ :: ts => remaining s q ts

/-- The job was in the active set, and was not removed from it. -/
def staysActive (s : Redis) (k : JobId) (ts : List Touch) : Prop :=
  k ∈ s.active ∧ ∀ jobId, Touch.leave jobId ∈ ts → jobId ≠ k

/-- The job was in its pending list, was not removed from it, and is queued. -/
def staysListed (s : Redis) (k : JobId) (ts : List Touch) (job : Job) : Prop :=
  job.status = .queued ∧ k ∈ remaining s job.pendingQueue ts

/-- **The job is in hand**: it was taken and not put back, it is open, and it stayed neither in the
active set nor in its pending list. -/
def InHand (s : Redis) (k : JobId) (ts : List Touch) : Prop :=
  taken k ts = true ∧ ¬staysActive s k ts ∧
    ∃ job, lastRecord s k ts = some job ∧ job.isOpen = true ∧ ¬staysListed s k ts job

/-- The record that was saved last. -/
def lastSaved : List Touch → Option Job
  | [] => none
  | .save job :: _ => some job
  | _ :: ts => lastSaved ts

/-- The id belongs to a job that was saved as queued, and the list is its pending list. -/
def Homes (saved : Option Job) (queue : Queue) (jobId : JobId) : Prop :=
  queue.isPending = true →
    ∃ job, saved = some job ∧ job.id = jobId ∧ job.status = .queued ∧ job.pendingQueue = queue

/-- Every push to a pending list is one of the job that was saved last. -/
def Sound : List Touch → Prop
  | [] => True
  | .push queue jobId :: ts => Homes (lastSaved ts) queue jobId ∧ Sound ts
  | _ :: ts => Sound ts

theorem isPending_pendingQueue (job : Job) : job.pendingQueue.isPending = true := rfl

theorem lastRecord_of_lastSaved (s : Redis) {ts : List Touch} {job : Job}
    (h : lastSaved ts = some job) : lastRecord s job.id ts = some job := by
  induction ts with
  | nil => cases h
  | cons t ts ih =>
    cases t with
    | save saved =>
      obtain rfl := Option.some.inj h
      exact if_pos rfl
    | _ => exact ih h

theorem job?_after (s : Redis) (k : JobId) (ts : List Touch) :
    (s.after ts).job? k = lastRecord s k ts := by
  induction ts with
  | nil => rfl
  | cons t ts ih =>
    cases t with
    | save job =>
      show ((s.after ts).set job).job? k = if k = job.id then some job else lastRecord s k ts
      rw [Redis.job?_set, ih]
    | _ => exact ih

theorem mem_active_after {s : Redis} {k : JobId} {ts : List Touch} (h : staysActive s k ts) :
    k ∈ (s.after ts).active := by
  induction ts with
  | nil => exact h.1
  | cons t ts ih =>
    have hmem := ih ⟨h.1, fun jobId hleave => h.2 jobId (List.mem_cons_of_mem t hleave)⟩
    cases t with
    | enter jobId score => exact ((s.after ts).mem_active_zadd score).mpr (.inr hmem)
    | leave jobId =>
      exact (s.after ts).mem_active_zrem.mpr ⟨(h.2 jobId List.mem_cons_self).symm, hmem⟩
    | _ => exact hmem

/-- Pushes only add to what is left of a list. -/
theorem count_remaining_le (s : Redis) (q : Queue) (k : JobId) (ts : List Touch) :
    (remaining s q ts).count k ≤ ((s.after ts).queues q).count k := by
  induction ts with
  | nil => exact le_refl _
  | cons t ts ih =>
    cases t with
    | push queue jobId =>
      refine ih.trans ?_
      show _ ≤ (((s.after ts).rpush queue jobId).queues q).count k
      rw [Redis.queues_rpush]
      by_cases hself : q = queue
      · rw [hself, Function.update_self, List.count_append]
        omega
      · rw [Function.update_of_ne hself]
    | pull queue jobId =>
      show (if queue = q then _ else _ : List JobId).count k ≤
        (((s.after ts).lrem queue jobId).queues q).count k
      rw [Redis.queues_lrem]
      by_cases hself : queue = q
      · rw [if_pos hself, hself, Function.update_self, List.count_erase, List.count_erase]
        omega
      · rw [if_neg hself, Function.update_of_ne (Ne.symm hself)]
        exact ih
    | _ => exact ih

theorem mem_queues_after {s : Redis} {q : Queue} {k : JobId} {ts : List Touch}
    (h : k ∈ remaining s q ts) : k ∈ (s.after ts).queues q := by
  have hle := count_remaining_le s q k ts
  have hpos := List.count_pos_iff.mpr h
  exact List.count_pos_iff.mp (by omega)

/-! ### What is not in hand is found -/

variable {s : Redis} {k : JobId} {ts : List Touch}

/-- The step: one more change leaves what it does not take where it is found. -/
theorem findable_touch {t : Touch} {job : Job} (hsound : Sound (t :: ts))
    (hrecord : lastRecord s k (t :: ts) = some job) (htaken : taken k (t :: ts) = false)
    (ih : taken k ts = false → lastRecord s k ts = some job → (s.after ts).Findable k job) :
    (s.after (t :: ts)).Findable k job := by
  cases t with
  | save saved =>
    obtain ⟨hne, hrest⟩ : ¬saved.id = k ∧ taken k ts = false := by
      simpa [taken] using htaken
    have hlast : lastRecord s k ts = some job := by
      rwa [lastRecord, if_neg (Ne.symm hne)] at hrecord
    exact ih hrest hlast
  | enter jobId score =>
    rcases eq_or_ne jobId k with rfl | hne
    · exact .inr (((s.after ts).mem_active_zadd score).mpr (.inl rfl))
    · have hrest : taken k ts = false := by simpa [taken, hne] using htaken
      rcases ih hrest hrecord with hlisted | hactive
      · exact .inl hlisted
      · exact .inr (((s.after ts).mem_active_zadd score).mpr (.inr hactive))
  | leave jobId =>
    obtain ⟨hne, hrest⟩ : ¬jobId = k ∧ taken k ts = false := by
      simpa [taken] using htaken
    rcases ih hrest hrecord with hlisted | hactive
    · exact .inl hlisted
    · exact .inr ((s.after ts).mem_active_zrem.mpr ⟨Ne.symm hne, hactive⟩)
  | push queue jobId =>
    by_cases hhome : queue.isPending = true ∧ jobId = k
    · -- It is the job that was saved last, and this is its list.
      obtain ⟨hpending, rfl⟩ := hhome
      obtain ⟨saved, hsaved, rfl, hqueued, rfl⟩ := hsound.1 hpending
      have hlast : some saved = some job := (lastRecord_of_lastSaved s hsaved).symm.trans hrecord
      obtain rfl := Option.some.inj hlast
      refine .inl ⟨hqueued, ?_⟩
      show saved.id ∈ ((s.after ts).rpush saved.pendingQueue saved.id).queues saved.pendingQueue
      rw [Redis.queues_rpush, Function.update_self]
      exact List.mem_append_right _ List.mem_cons_self
    · have hrest : taken k ts = false := by
        have hno : (queue.isPending && decide (jobId = k)) = false := by
          simpa using hhome
        simpa [taken, hno] using htaken
      rcases ih hrest hrecord with ⟨hqueued, hmem⟩ | hactive
      · refine .inl ⟨hqueued, ?_⟩
        show k ∈ ((s.after ts).rpush queue jobId).queues job.pendingQueue
        rw [Redis.queues_rpush]
        by_cases hself : job.pendingQueue = queue
        · rw [hself, Function.update_self, ← hself]
          exact List.mem_append_left _ hmem
        · rwa [Function.update_of_ne hself]
      · exact .inr hactive
  | pull queue jobId =>
    obtain ⟨hkept, hrest⟩ : ¬(queue.isPending = true ∧ jobId = k) ∧ taken k ts = false := by
      simpa [taken] using htaken
    rcases ih hrest hrecord with ⟨hqueued, hmem⟩ | hactive
    · refine .inl ⟨hqueued, ?_⟩
      show k ∈ ((s.after ts).lrem queue jobId).queues job.pendingQueue
      rw [Redis.queues_lrem]
      by_cases hself : job.pendingQueue = queue
      · have hne : k ≠ jobId := by
          rintro rfl
          exact hkept ⟨hself ▸ isPending_pendingQueue job, rfl⟩
        rw [hself, Function.update_self, List.mem_erase_of_ne hne, ← hself]
        exact hmem
      · rwa [Function.update_of_ne hself]
    · exact .inr hactive

/-- What is not taken is found. -/
theorem findable_of_not_taken (h : Found s) (hsound : Sound ts) {job : Job}
    (hrecord : lastRecord s k ts = some job) (hopen : job.isOpen = true)
    (htaken : taken k ts = false) : (s.after ts).Findable k job := by
  induction ts with
  | nil => exact h.findable k job hrecord hopen
  | cons t ts ih =>
    have hrest : Sound ts := by
      cases t with
      | push queue jobId => exact hsound.2
      | _ => exact hsound
    exact findable_touch hsound hrecord htaken fun htaken hrecord => ih hrest hrecord htaken

theorem id_lastRecord (h : Found s) {job : Job} (hrecord : lastRecord s k ts = some job) :
    job.id = k := by
  induction ts with
  | nil => exact h.keyed k job hrecord
  | cons t ts ih =>
    cases t with
    | save saved =>
      rw [lastRecord] at hrecord
      split at hrecord
      · next hself =>
        obtain rfl := Option.some.inj hrecord
        exact hself.symm
      · exact ih hrecord
    | _ => exact ih hrecord

/-- **Where no job is in hand every job is found.** -/
theorem Found.after (h : Found s) (hsound : Sound ts) (hfree : ∀ k, ¬InHand s k ts) :
    Found (s.after ts) := by
  constructor
  · intro k job hjob
    rw [job?_after] at hjob
    exact id_lastRecord h hjob
  · intro k job hjob hopen
    rw [job?_after] at hjob
    cases htaken : taken k ts with
    | false => exact findable_of_not_taken h hsound hjob hopen htaken
    | true =>
      by_cases hactive : staysActive s k ts
      · exact .inr (mem_active_after hactive)
      · by_cases hlisted : staysListed s k ts job
        · exact .inl ⟨hlisted.1, mem_queues_after hlisted.2⟩
        · exact absurd ⟨htaken, hactive, job, hjob, hopen, hlisted⟩ (hfree k)

end Gateway

end AiAgent

import AiAgent.Gateway.Found
import AiAgent.Gateway.Plain
import AiAgent.Worker.Cluster

/-!
# A root that waits on its child is left alone

`mark_job_waiting_on_child` leaves the root's record as running and takes its id out of the active
set, so that the reaper does not find it. The lease loop of the worker renews the leases of a
snapshot of its active jobs, one `renew_job_lease` after the other, and a renewal puts the id of
any running job into the active set.

If no renewal of the root is under way when `mark_job_waiting_on_child` issues its last command,
and none begins later, then the id stays out of the active set for good, and a reaper pass that
begins later does not store the root, unless a child of it has ended
(`AiAgent.Worker.leftAlone_of_unrenewed`). A renewal that comes later brings the id back
(`AiAgent.Worker.not_leftAlone_renewal`).
-/

namespace AiAgent

namespace Worker

open Command Gateway

/-! ### The clients -/

/-- The renewals, the parser's `mark_job_waiting_on_child` and the reaper. -/
def Work.leases : Work → Bool
  | .gateway (.renewJobLease _) | .gateway (.markJobWaitingOnChild ..)
  | .gateway .requeueStaleJobs => true
  | _ => false

/-- The renewals of one job. -/
def Work.renews (root : JobId) : Work → Bool
  | .gateway (.renewJobLease jobId) => jobId = root
  | _ => false

/-- The reaper passes. -/
def Work.reaps : Work → Bool
  | .gateway .requeueStaleJobs => true
  | _ => false

/-- The clients, in any interleaving. -/
def leaseMoves : Rules redisSig Redis Work Outcome where
  starts op := op.leases = true
  guard _ _ := True

/-- The clients, where no renewal of the root begins. -/
def leaseMovesBut (root : JobId) : Rules redisSig Redis Work Outcome where
  starts op := op.leases = true ∧ op.renews root = false
  guard _ _ := True

instance (op : Work) : Decidable (leaseMoves.starts op) := inferInstanceAs (Decidable (_ = true))

instance (w : Plane) (e : Entry redisSig Work Outcome) : Decidable (leaseMoves.guard w e) :=
  inferInstanceAs (Decidable True)

instance (root : JobId) (op : Work) : Decidable ((leaseMovesBut root).starts op) :=
  inferInstanceAs (Decidable (_ ∧ _))

instance (root : JobId) (w : Plane) (e : Entry redisSig Work Outcome) :
    Decidable ((leaseMovesBut root).guard w e) := inferInstanceAs (Decidable True)

/-- The record is that of a child of the root that has ended. -/
def endsChildOf (root : JobId) (job : Job) : Bool :=
  job.rootJobId = some root && job.status.isTerminal

/-- In this part of the history a child of the root was stored as ended. -/
def ChildEnded (root : JobId) (log : List (Entry redisSig Work Outcome)) : Prop :=
  ∃ e ∈ log, ∃ child, jobRecords.savedBy e.act = some child ∧ endsChildOf root child = true

/-- In this part of the history no reaper pass that began in it has stored the root before a child
of the root had ended. -/
def Unreaped (root : JobId) : List (Entry redisSig Work Outcome) → Prop
  | [] => True
  | e :: older =>
    (e.op.reaps = true → ⟨e.client, e.op, .start⟩ ∈ older →
      ∀ job, jobRecords.savedBy e.act = some job → job.id = root → ChildEnded root older) ∧
    Unreaped root older

/-- **The root is left alone** from the world `w` to the later world `w'`: its id is not in the
active set, and no reaper pass that began in between has stored it while its child was alive. -/
structure LeftAlone (root : JobId) (w w' : Plane) : Prop where
  /-- The active set. -/
  inactive : root ∉ w'.shared.active
  /-- The reaper passes. -/
  unreaped : ∀ newer, w'.log = newer ++ w.log → Unreaped root newer

/-- The last command of `mark_job_waiting_on_child`. -/
def isLastOfWaiting (root : JobId) (e : Entry redisSig Work Outcome) : Bool :=
  match e.op, e.act with
  | .gateway (.markJobWaitingOnChild jobId _ _ _ _), .command (.write [.zrem k]) _ =>
    jobId = root && k = root
  | _, _ => false

/-- The return of `mark_job_waiting_on_child`. -/
def isReturnOfWaiting (root : JobId) (e : Entry redisSig Work Outcome) : Bool :=
  match e.op, e.act with
  | .gateway (.markJobWaitingOnChild jobId _ _ _ _), .finish _ => jobId = root
  | _, _ => false

/-! ### The discipline -/

/-- What a client may do to the root. -/
structure Stake where
  /-- It renews the lease of the root. -/
  renews : Bool
  /-- It is a reaper pass that began when the root was not active. -/
  fresh : Bool
  /-- It has stored the end of a child of the root. -/
  ended : Bool

/-- What an operation goes through changes its stake by no more than this. -/
structure Stake.Within (t t' : Stake) : Prop where
  /-- It renews what it renews. -/
  renews : t'.renews = t.renews
  /-- It began when it began. -/
  fresh : t'.fresh = t.fresh
  /-- What has ended has ended. -/
  ended : t.ended = true → t'.ended = true

theorem Stake.Within.rfl {t : Stake} : t.Within t := ⟨.refl _, .refl _, id⟩

theorem Stake.Within.trans {t t' t'' : Stake} (h : t.Within t') (h' : t'.Within t'') :
    t.Within t'' :=
  ⟨h'.renews.trans h.renews, h'.fresh.trans h.fresh, fun he => h'.ended (h.ended he)⟩

/-- The stake after some writes. -/
def Stake.wrote (root : JobId) (t : Stake) (ws : List Write) : Stake :=
  { t with ended := t.ended || (stored ws).any (endsChildOf root) }

theorem Stake.within_wrote (root : JobId) (t : Stake) (ws : List Write) :
    t.Within (t.wrote root ws) :=
  ⟨.refl _, .refl _, fun h => by rw [Stake.wrote, h, Bool.true_or]⟩

/-- **The discipline**: only a renewal of the root puts it into the active set, and a fresh reaper
pass stores it only once it has stored the end of a child. -/
def stakes (root : JobId) : Discipline redisSig Stake where
  may t
    | .write ws => (∀ score, Write.zadd root score ∈ ws → t.renews = true) ∧
      ∀ job, stored ws = some job → job.id = root → t.fresh = true → t.ended = true
    | _ => True
  after t c r t' :=
    match c, r with
    | .get jobId, found => t' = t ∧ ∀ job, found = some job → job.id = jobId
    | .zrangebyscore _, jobIds => t' = t ∧ (t.fresh = true → root ∉ jobIds)
    | .write ws, _ => t' = t.wrote root ws
    | _, _ => t' = t

variable {root : JobId} {t : Stake} {cfg : Settings} {α β : Type}

/-- The program leaves the root to others. -/
abbrev Spares (root : JobId) (t : Stake) (p : Gw α) : Prop :=
  p.Obeys (stakes root) (fun _ t' => t.Within t') t

theorem spares_pure (a : α) : Spares root t (pure a : Gw α) := Stake.Within.rfl

theorem Spares.bind {p : Gw α} {f : α → Gw β} (h : Spares root t p)
    (hf : ∀ a t', t.Within t' → Spares root t' (f a)) : Spares root t (p >>= f) :=
  Program.Obeys.bind h fun a t' ht => (hf a t' ht).mono fun _ _ ht' => ht.trans ht'

/-- Plain writes save no record. -/
theorem stored_plain {E : Event → Prop} {ws : List Write} (h : ∀ w ∈ ws, w.IsPlain E) :
    stored ws = none := by
  refine List.findSome?_eq_none_iff.mpr fun w hw => ?_
  have hplain := h w hw
  cases w
  case set => exact hplain.elim
  all_goals rfl

/-- A plain program leaves the stake as it is. -/
theorem obeys_plain {p : Gw α} (h : Plain (fun _ => True) p) :
    p.Obeys (stakes root) (fun _ t' => t' = t) t := by
  refine h.obeys (fun t c hc => ?_) (fun t c r t' hc hafter => ?_) t
  · cases c with
    | write ws =>
      refine ⟨fun score hmem => (hc _ hmem).elim, fun job hjob => ?_⟩
      rw [stored_plain hc] at hjob
      cases hjob
    | _ => trivial
  · cases c with
    | write ws =>
      have hwrote : t' = t.wrote root ws := hafter
      rw [hwrote, Stake.wrote, stored_plain hc, Option.any_none, Bool.or_false]
    | get jobId => exact hafter.1
    | zrangebyscore max => exact hafter.1
    | _ => exact hafter

theorem Spares.plain {p : Gw α} (h : Plain (fun _ => True) p) : Spares root t p :=
  (obeys_plain h).mono (by rintro a t' rfl; exact .rfl)

theorem plain_then {p : Gw α} {f : α → Gw β} (h : Plain (fun _ => True) p)
    (hf : ∀ a, Spares root t (f a)) : Spares root t (p >>= f) :=
  Program.Obeys.bind (obeys_plain h) (by rintro a t' rfl; exact hf a)

/-- What is read under an id has that id. -/
theorem spares_getJob_bind {jobId : JobId} {f : Option Job → Gw α}
    (hnone : Spares root t (f none))
    (hsome : ∀ job, job.id = jobId → Spares root t (f (some job))) :
    Spares root t (getJob jobId >>= f) := by
  refine ⟨trivial, ?_⟩
  rintro found t' ⟨rfl, hid⟩
  rcases found with - | job
  · exact hnone
  · exact hsome job (hid job rfl)

theorem obeys_saveJob {job : Job} (h : t.fresh = true → job.id = root → t.ended = true) :
    (saveJob job).Obeys (stakes root) (fun _ t' => t' = t.wrote root [.set job]) t := by
  refine ⟨⟨fun score hmem => ?_, ?_⟩, fun _ _ h => h⟩
  · simp at hmem
  · rintro job' hjob hid hfresh
    cases hjob
    exact h hfresh hid

theorem spares_saveJob {job : Job} (h : t.fresh = true → job.id = root → t.ended = true) :
    Spares root t (saveJob job) :=
  (obeys_saveJob h).mono (by rintro a t' rfl; exact t.within_wrote root _)

/-! ### The functions -/

/-- Routing keeps the id. -/
theorem obeys_downgradeJobTargetKindIfNeeded (job : Job) :
    (downgradeJobTargetKindIfNeeded job).Obeys (stakes root)
      (fun job' t' => t' = t ∧ job'.id = job.id) t := by
  unfold downgradeJobTargetKindIfNeeded
  split
  · exact ⟨rfl, rfl⟩
  · refine Program.Obeys.bind (obeys_plain (plain_hasWorkerForTargetKind _ _)) ?_
    rintro found t' rfl
    rcases found with - | -
    · exact ⟨rfl, rfl⟩
    · exact ⟨rfl, rfl⟩

/-! ### Functions that store -/

/-- A root that follows its child follows a child whose end was stored. -/
theorem spares_synthesizeRootTerminalState {childJob : Job} (status : Status)
    (stage : LifecycleStage) (event : Event)
    (hended : childJob.rootJobId = some root → t.ended = true) :
    Spares root t (synthesizeRootTerminalState childJob status stage event) := by
  unfold synthesizeRootTerminalState
  cases hroot : childJob.rootJobId with
  | none => exact spares_pure ()
  | some rootJobId =>
    dsimp only
    split
    · exact spares_pure ()
    refine spares_getJob_bind (spares_pure ()) fun rootJob hid => ?_
    dsimp only
    split
    · exact spares_pure ()
    refine plain_then (plain_ask (c := .time) trivial) fun nowMs => ?_
    refine (spares_saveJob fun _ hself => hended ?_).bind fun _ _ _ =>
      .plain (plain_appendEvent rootJobId trivial)
    rw [hroot, ← hid]
    exact congrArg some hself

theorem spares_finishJob {job : Job} {status : Status} (stage : LifecycleStage) (body : EventBody)
    (workerId : Option WorkerId) (hother : t.fresh = true → job.id ≠ root)
    (hended : job.status.isTerminal = true) :
    Spares root t (finishJob job status stage body workerId) := by
  refine Program.Obeys.bind (obeys_saveJob fun hfresh hid => absurd hid (hother hfresh)) ?_
  rintro _ t' rfl
  refine Program.Obeys.mono (?_ : Spares root (t.wrote root [.set job]) _)
    fun _ _ h => (t.within_wrote root _).trans h
  refine plain_then (plain_appendEvent job.id trivial) fun _ => ?_
  refine (spares_synthesizeRootTerminalState status stage _ fun hroot => ?_).bind fun _ _ _ => ?_
  · simp [Stake.wrote, stored, Write.job?, endsChildOf, hroot, hended]
  · refine plain_then (plain_releaseReservedCapacity job) fun _ => ?_
    exact plain_then (plain_removeFromProcessing _ job.id) fun _ => .plain
      (plain_write (w := .zrem job.id) trivial)

theorem spares_markJobFailedFromRecord (job : Job) (errorText : Text) (workerId : Option WorkerId)
    (hother : t.fresh = true → job.id ≠ root) :
    Spares root t (markJobFailedFromRecord job errorText workerId) :=
  plain_then (plain_ask (c := .time) trivial) fun _ => spares_finishJob _ _ workerId hother rfl

theorem spares_markJobCancelled {jobId : JobId} (workerId : Option WorkerId)
    (hother : t.fresh = true → jobId ≠ root) :
    Spares root t (markJobCancelled jobId workerId) := by
  refine spares_getJob_bind (spares_pure ()) fun job hid => ?_
  dsimp only
  split
  · exact spares_pure ()
  · refine plain_then (plain_ask (c := .time) trivial) fun _ => ?_
    refine spares_finishJob _ _ workerId (fun hfresh => ?_) rfl
    show job.id ≠ root
    rw [hid]
    exact hother hfresh

theorem spares_cancelStaleRequestedJob {job : Job} (hother : t.fresh = true → job.id ≠ root) :
    Spares root t (cancelStaleRequestedJob job) := by
  unfold cancelStaleRequestedJob
  split
  · exact spares_pure _
  · split
    · refine plain_then (plain_ask (c := .lrem _ job.id) trivial) fun _ => ?_
      exact (spares_markJobCancelled _ hother).bind fun _ _ _ => spares_pure _
    · exact (spares_markJobCancelled _ hother).bind fun _ _ _ => spares_pure _
    · exact (spares_markJobCancelled _ hother).bind fun _ _ _ => spares_pure _
    · exact spares_pure _

theorem spares_recoverJob {job : Job} (retryCount : ℕ) (hother : t.fresh = true → job.id ≠ root) :
    Spares root t (recoverJob job retryCount) := by
  refine plain_then (plain_releaseReservedCapacity job) fun _ => ?_
  refine plain_then (plain_removeFromProcessing _ job.id) fun _ => ?_
  refine plain_then (plain_write (w := .zrem job.id) trivial) fun _ => ?_
  refine Program.Obeys.bind (obeys_downgradeJobTargetKindIfNeeded job) ?_
  rintro job' t' ⟨rfl, hid⟩
  refine (spares_saveJob fun hfresh hself => ?_).bind fun _ _ _ => ?_
  · exact absurd (hid.symm.trans hself) (hother hfresh)
  · exact plain_then (plain_write (w := .rpush _ _) trivial) fun _ => .plain
      (plain_emitEvent _ trivial fun _ => trivial)

theorem spares_reapJob (now : ℕ) {jobId : JobId} (hother : t.fresh = true → jobId ≠ root) :
    Spares root t (reapJob cfg now jobId) := by
  refine plain_then (plain_ask (c := .lock (.job jobId)) trivial) fun _ => ?_
  refine Spares.bind ?_ fun recovered _ _ =>
    plain_then (plain_ask (c := .unlock (.job jobId)) trivial) fun _ => spares_pure recovered
  refine spares_getJob_bind (plain_then (plain_write (w := .zrem jobId) trivial) fun _ =>
    spares_pure _) fun job hid => ?_
  have hjob : ∀ t' : Stake, t.Within t' → t'.fresh = true → job.id ≠ root := by
    intro t' ht hfresh
    rw [hid]
    exact hother (ht.fresh.symm.trans hfresh)
  dsimp only
  split
  · exact plain_then (plain_write (w := .zrem jobId) trivial) fun _ => spares_pure _
  split
  · exact spares_pure _
  refine (spares_cancelStaleRequestedJob (hjob t .rfl)).bind fun cancelled t' ht => ?_
  split
  · exact spares_pure _
  split
  · exact (spares_markJobFailedFromRecord _ _ _ (hjob t' ht)).bind fun _ _ _ => spares_pure _
  · split
    · exact (spares_markJobFailedFromRecord { job with retryCount := job.retryCount + 1 } _ _
        (hjob t' ht)).bind fun _ _ _ => spares_pure _
    · exact (spares_recoverJob _ (hjob t' ht)).bind fun _ _ _ => spares_pure _

theorem spares_reapJobs (now : ℕ) {jobIds : List JobId}
    (hother : t.fresh = true → root ∉ jobIds) : Spares root t (reapJobs cfg now jobIds) := by
  induction jobIds generalizing t with
  | nil => exact spares_pure _
  | cons jobId jobIds ih =>
    have hhead : t.fresh = true → jobId ≠ root := by
      rintro hfresh rfl
      exact hother hfresh List.mem_cons_self
    refine (spares_reapJob now hhead).bind fun _ t' ht => ?_
    refine (ih fun hfresh hmem => ?_).bind fun _ _ _ => spares_pure _
    exact hother (ht.fresh.symm.trans hfresh) (List.mem_cons_of_mem jobId hmem)

theorem spares_requeueStaleJobs : Spares root t (requeueStaleJobs cfg) := by
  refine plain_then (plain_ask (c := .time) trivial) fun nowMs => ?_
  refine ⟨trivial, ?_⟩
  rintro jobIds t' ⟨rfl, hother⟩
  exact spares_reapJobs _ hother

theorem spares_renewJobLease (jobId : JobId) (hfresh : t.fresh = false)
    (hrenews : jobId = root → t.renews = true) : Spares root t (renewJobLease cfg jobId) := by
  refine spares_getJob_bind (spares_pure ()) fun job _ => ?_
  dsimp only
  split
  · exact spares_pure ()
  refine plain_then (plain_ask (c := .time) trivial) fun nowMs => ?_
  refine (spares_saveJob fun h => by rw [hfresh] at h; cases h).bind fun _ t' ht => ?_
  refine ⟨⟨fun score hmem => ?_, fun _ h => by cases h⟩, ?_⟩
  · obtain ⟨rfl, -⟩ : root = jobId ∧ _ := by simpa using hmem
    rw [ht.renews]
    exact hrenews rfl
  · rintro r t'' rfl
    exact t'.within_wrote root _

theorem spares_markJobWaitingOnChild (jobId childJobId : JobId) (stage : LifecycleStage)
    (updates : ParserMetadata) (workerId : Option WorkerId) (hfresh : t.fresh = false) :
    Spares root t (markJobWaitingOnChild jobId childJobId stage updates workerId) := by
  refine spares_getJob_bind (spares_pure ()) fun job _ => ?_
  refine (spares_saveJob fun h => by rw [hfresh] at h; cases h).bind fun _ _ _ => ?_
  refine plain_then (plain_releaseReservedCapacity job) fun _ => ?_
  exact plain_then (plain_removeFromProcessing _ jobId) fun _ => .plain
    (plain_write (w := .zrem jobId) trivial)

/-- **Every operation keeps the discipline**, from a stake of its kind. -/
theorem spares_body {op : Work} (hop : op.leases = true) (hrenews : op.renews root = t.renews)
    (hfresh : op.reaps = false → t.fresh = false) : Spares root t (op.body cfg) := by
  cases op with
  | serve => cases hop
  | gateway o =>
    cases o with
    | renewJobLease jobId =>
      refine (spares_renewJobLease jobId (hfresh rfl) fun hself => ?_).bind
        fun _ _ _ => spares_pure _
      rw [← hrenews]
      exact decide_eq_true hself
    | markJobWaitingOnChild jobId childJobId stage updates workerId =>
      exact (spares_markJobWaitingOnChild jobId childJobId stage updates workerId
        (hfresh rfl)).bind fun _ _ _ => spares_pure _
    | requeueStaleJobs => exact spares_requeueStaleJobs.bind fun _ _ _ => spares_pure _
    | _ => cases hop

/-! ### The invariant -/

/-- Every record is found under its own id. -/
def Keyed (s : Redis) : Prop := ∀ j v, s.job? j = some v → v.id = j

theorem Keyed.exec {s : Redis} (h : Keyed s) (i : ℕ) (c : Cmd) :
    Keyed (redisStore.exec i c s).2 := by
  have hwrites : ∀ ws : List Write, Keyed (s.writes ws) := by
    intro ws
    induction ws generalizing s with
    | nil => exact h
    | cons w ws ih =>
      refine ih ?_
      cases w with
      | set job =>
        intro j v hv
        have hset : (s.set job).job? j = some v := hv
        rw [Redis.job?_set] at hset
        split at hset
        · next hj =>
          obtain rfl := Option.some.inj hset
          exact hj.symm
        · exact h j v hset
      | _ => exact h
  cases c with
  | write ws => exact hwrites ws
  | brpoplpush source destination =>
    obtain ⟨queues, hpop⟩ := s.brpoplpush_eq source destination
    intro j v hv
    refine h j v ?_
    have hjob : (s.brpoplpush source destination).2.job? j = some v := hv
    rwa [hpop] at hjob
  | _ => exact h

/-- Nothing but a `ZADD` puts an id into the active set. -/
theorem not_mem_active_exec {s : Redis} (h : root ∉ s.active) (i : ℕ) {c : Cmd}
    (hc : ∀ ws, c = .write ws → ∀ score, Write.zadd root score ∉ ws) :
    root ∉ (redisStore.exec i c s).2.active := by
  have hwrites : ∀ ws : List Write, (∀ score, Write.zadd root score ∉ ws) →
      root ∉ (s.writes ws).active := by
    intro ws hws
    induction ws generalizing s with
    | nil => exact h
    | cons w ws ih =>
      refine ih ?_ fun score hmem => hws score (List.mem_cons_of_mem w hmem)
      cases w with
      | zadd jobId score =>
        have hne : root ≠ jobId := by
          rintro rfl
          exact hws score List.mem_cons_self
        exact fun hmem => ((s.mem_active_zadd score).mp hmem).elim hne h
      | zrem jobId => exact fun hmem => h (s.mem_active_zrem.mp hmem).2
      | _ => exact h
  cases c with
  | write ws => exact hwrites ws (hc ws rfl)
  | brpoplpush source destination =>
    obtain ⟨queues, hpop⟩ := s.brpoplpush_eq source destination
    show root ∉ (s.brpoplpush source destination).2.active
    rw [hpop]
    exact h
  | _ => exact h

/-- Only ids of the active set are stale. -/
theorem mem_active_of_mem_zrangebyscore {s : Redis} {max : ℕ} {j : JobId}
    (h : j ∈ s.zrangebyscore max) : j ∈ s.active := by
  obtain ⟨e, he, rfl⟩ := List.mem_map.mp h
  have hentry := List.mem_of_mem_filter ((List.mem_insertionSort _).mp he)
  exact AList.mem_keys.mpr (List.mem_map_of_mem hentry)

/-- The stake a client begins with; only late reaper passes are fresh. -/
def Stake.start (root : JobId) (late : Bool) (op : Work) : Stake :=
  ⟨op.renews root, late && op.reaps, false⟩

/-- In any world the stakes are those of the operations, and no pass is fresh. -/
structure Staked (root : JobId) (w : Plane) (g : ℕ → Stake) : Prop where
  /-- Every record is found under its own id. -/
  keyed : Keyed w.shared
  /-- Who renews the root. -/
  renews : ∀ i task, w.tasks i = some task → (g i).renews = task.op.renews root
  /-- No pass is fresh. -/
  fresh : ∀ i task, w.tasks i = some task → (g i).fresh = false

/-- From the world `w₀` on: the root is left alone, nobody renews it, and the passes that began
since are fresh. -/
structure Resting (root : JobId) (w₀ w : Plane) (g : ℕ → Stake) : Prop where
  /-- Every record is found under its own id. -/
  keyed : Keyed w.shared
  /-- The root is not active. -/
  inactive : root ∉ w.shared.active
  /-- Nobody renews it. -/
  renews : ∀ i task, w.tasks i = some task → (g i).renews = false
  /-- What happened since. -/
  since : ∃ newer, w.log = newer ++ w₀.log ∧ Unreaped root newer ∧
    (∀ i task, w.tasks i = some task → task.op.reaps = true →
      ⟨i, task.op, .start⟩ ∈ newer → (g i).fresh = true) ∧
    ∀ i task, w.tasks i = some task → (g i).fresh = true → (g i).ended = true →
      ChildEnded root newer

theorem ChildEnded.cons {e : Entry redisSig Work Outcome} {log : List (Entry redisSig Work Outcome)}
    (h : ChildEnded root log) : ChildEnded root (e :: log) := by
  obtain ⟨e', he', h⟩ := h
  exact ⟨e', List.mem_cons_of_mem e he', h⟩

/-- What a command answers is what the discipline relies on. -/
theorem after_exec (root : JobId) {s : Redis} (hkeyed : Keyed s)
    (hactive : t.fresh = true → root ∉ s.active) (i : ℕ) (c : Cmd) :
      ∃ t', (stakes root).after t c (redisStore.exec i c s).1 t' ∧ t.Within t' ∧
      (t'.ended = true → t.ended = true ∨
        ∃ child, jobRecords.saved c = some child ∧ endsChildOf root child = true) := by
  cases c with
  | get jobId => exact ⟨t, ⟨rfl, hkeyed jobId⟩, .rfl, .inl⟩
  | zrangebyscore max =>
    exact ⟨t, ⟨rfl, fun hfresh hmem => hactive hfresh (mem_active_of_mem_zrangebyscore hmem)⟩,
      .rfl, .inl⟩
  | write ws =>
    refine ⟨t.wrote root ws, rfl, t.within_wrote root ws, fun h => ?_⟩
    rw [Stake.wrote, Bool.or_eq_true, Option.any_eq_true] at h
    exact h
  | _ => exact ⟨t, rfl, .rfl, .inl⟩

section Steps

variable {w₀ w : Plane} {g : ℕ → Stake} {i : ℕ} {op : Work}

theorem Staked.record (h : Staked root w g) {a : Act redisSig Outcome} {s : Redis}
    {task : Option (Task redisSig Work Outcome)} {t : Stake} (hkeyed : Keyed s)
    (hself : ∀ task', task = some task' →
      t.renews = task'.op.renews root ∧ t.fresh = false) :
    Staked root (w.record i op a s task) (Function.update g i t) := by
  refine ⟨hkeyed, ?_, ?_⟩
  · intro j task' hj
    rw [World.record_tasks] at hj
    rcases eq_or_ne j i with rfl | hne
    · rw [Function.update_self] at hj ⊢
      exact (hself task' hj).1
    · rw [Function.update_of_ne hne] at hj ⊢
      exact h.renews j task' hj
  · intro j task' hj
    rw [World.record_tasks] at hj
    rcases eq_or_ne j i with rfl | hne
    · rw [Function.update_self] at hj ⊢
      exact (hself task' hj).2
    · rw [Function.update_of_ne hne] at hj ⊢
      exact h.fresh j task' hj

theorem Staked.record_none (h : Staked root w g) {a : Act redisSig Outcome} {s : Redis}
    (hkeyed : Keyed s) : Staked root (w.record i op a s none) g := by
  have hrecord : Staked root (w.record i op a s none) (Function.update g i (g i)) :=
    h.record hkeyed fun task' htask => by cases htask
  rwa [Function.update_eq_self] at hrecord

theorem staked_tied (cfg : Settings) (root : JobId) :
    Tied (cluster cfg) leaseMoves Keyed (stakes root) (Stake.start root false)
      (fun _ _ _ => True) (Staked root) where
  body := fun op hop => (spares_body hop rfl fun _ => rfl).mono fun _ _ _ => trivial
  init := by
    intro s hs
    refine ⟨fun _ => ⟨false, false, false⟩, hs, ?_, ?_⟩
    · intro i task hi
      cases hi
    · intro i task hi
      cases hi
  start := fun w g i op h hi hop => by
    refine h.record h.keyed fun task' htask => ?_
    cases htask
    exact ⟨rfl, rfl⟩
  command := fun w g i op c k h hi hop hmay hready hguard => by
    have hfresh := h.fresh i _ hi
    obtain ⟨t', hafter, hwithin, -⟩ := after_exec root (t := g i) h.keyed
      (fun hself => by rw [hfresh] at hself; cases hself) i c
    refine ⟨t', hafter, h.record (h.keyed.exec i c) fun task' htask => ?_⟩
    obtain rfl := Option.some.inj htask
    exact ⟨hwithin.renews.trans (h.renews i ⟨op, .ask c k⟩ hi), hwithin.fresh.trans hfresh⟩
  finish := fun w g i op a h hi _ => h.record_none h.keyed
  crash := fun w g i op p h hi => h.record_none h.keyed
  outside := by
    rintro w g s h ⟨clockMs, targets, workers, catalog, -, rfl⟩
    exact ⟨h.keyed, h.renews, h.fresh⟩

/-- A step from a world in which the root is left alone: what has to be known of the entry and of
the stake. -/
theorem Resting.record (h : Resting root w₀ w g) {a : Act redisSig Outcome} {s : Redis}
    {task : Option (Task redisSig Work Outcome)} {t : Stake} (hkeyed : Keyed s)
    (hinactive : root ∉ s.active)
    (hentry : ∀ newer, w.log = newer ++ w₀.log → op.reaps = true → ⟨i, op, .start⟩ ∈ newer →
      ∀ job, jobRecords.savedBy a = some job → job.id = root → ChildEnded root newer)
    (hself : ∀ task', task = some task' → task'.op = op ∧ t.renews = false ∧
      ∀ newer, w.log = newer ++ w₀.log →
        (op.reaps = true → ⟨i, op, .start⟩ ∈ (⟨i, op, a⟩ :: newer : List _) → t.fresh = true) ∧
        (t.fresh = true → t.ended = true → ChildEnded root (⟨i, op, a⟩ :: newer))) :
    Resting root w₀ (w.record i op a s task) (Function.update g i t) := by
  obtain ⟨newer, hlog, hunreaped, hfresh, hended⟩ := h.since
  refine ⟨hkeyed, hinactive, ?_, ⟨i, op, a⟩ :: newer, by rw [World.record_log, hlog]; rfl,
    ⟨hentry newer hlog, hunreaped⟩, ?_, ?_⟩
  · intro j task' hj
    rw [World.record_tasks] at hj
    rcases eq_or_ne j i with rfl | hne
    · rw [Function.update_self] at hj ⊢
      exact (hself task' hj).2.1
    · rw [Function.update_of_ne hne] at hj ⊢
      exact h.renews j task' hj
  · intro j task' hj hreaps hstart
    rw [World.record_tasks] at hj
    rcases eq_or_ne j i with rfl | hne
    · rw [Function.update_self] at hj ⊢
      obtain ⟨hop, -, hsince⟩ := hself task' hj
      rw [hop] at hreaps hstart
      exact (hsince newer hlog).1 hreaps hstart
    · rw [Function.update_of_ne hne] at hj ⊢
      refine hfresh j task' hj hreaps ?_
      rcases List.mem_cons.mp hstart with heq | hmem
      · exact absurd (congrArg Entry.client heq) hne
      · exact hmem
  · intro j task' hj hfresh' hended'
    rw [World.record_tasks] at hj
    rcases eq_or_ne j i with rfl | hne
    · rw [Function.update_self] at hj hfresh' hended'
      exact ((hself task' hj).2.2 newer hlog).2 hfresh' hended'
    · rw [Function.update_of_ne hne] at hj hfresh' hended'
      exact (hended j task' hj hfresh' hended').cons

/-- A client is gone. -/
theorem Resting.record_none (h : Resting root w₀ w g) {a : Act redisSig Outcome}
    (hsaved : jobRecords.savedBy a = none) {s : Redis} (hkeyed : Keyed s)
    (hinactive : root ∉ s.active) : Resting root w₀ (w.record i op a s none) g := by
  have hrecord : Resting root w₀ (w.record i op a s none) (Function.update g i (g i)) :=
    h.record hkeyed hinactive (fun _ _ _ _ job hjob => by rw [hsaved] at hjob; cases hjob)
      fun task' htask => by cases htask
  rwa [Function.update_eq_self] at hrecord

theorem resting_tied (cfg : Settings) (root : JobId) (w₀ : Plane) :
    Tied (cluster cfg) (leaseMovesBut root) (fun _ => False) (stakes root)
      (Stake.start root true) (fun _ _ _ => True) (Resting root w₀) where
  body := fun op hop => (spares_body hop.1 rfl fun hreaps => by
    simp [Stake.start, hreaps]).mono fun _ _ _ => trivial
  init := fun s hs => hs.elim
  start := fun w g i op h hi hop => by
    refine h.record h.keyed h.inactive (fun _ _ _ _ job hjob => by cases hjob)
      fun task' htask => ?_
    cases htask
    refine ⟨rfl, hop.2, fun newer _ => ⟨fun hreaps _ => ?_, fun _ hended => by cases hended⟩⟩
    simp [Stake.start, hreaps]
  command := fun w g i op c k h hi hop hmay hready hguard => by
    obtain ⟨t', hafter, hwithin, hended⟩ := after_exec root (t := g i) h.keyed
      (fun _ => h.inactive) i c
    obtain ⟨newer, hlog, -, hfreshOf, hendedOf⟩ := h.since
    have hsame : ∀ newer', w.log = newer' ++ w₀.log → newer' = newer := fun newer' hlog' =>
      List.append_cancel_right (hlog'.symm.trans hlog)
    have hinactive : root ∉ (redisStore.exec i c w.shared).2.active := by
      refine not_mem_active_exec h.inactive i fun ws hws score hmem => ?_
      subst hws
      -- Only a renewal of the root may do that, and there is none.
      have hrenews := hmay.1 score hmem
      rw [h.renews i _ hi] at hrenews
      cases hrenews
    refine ⟨t', hafter, h.record (h.keyed.exec i c) hinactive ?_ fun task' htask => ?_⟩
    · intro newer' hlog' hreaps hstart job hjob hid
      obtain rfl := hsame newer' hlog'
      have hfresh := hfreshOf i _ hi hreaps hstart
      refine hendedOf i _ hi hfresh ?_
      cases c with
      | write ws => exact hmay.2 job hjob hid hfresh
      | _ => cases hjob
    · cases htask
      refine ⟨rfl, hwithin.renews.trans (h.renews i _ hi), fun newer' hlog' => ⟨?_, ?_⟩⟩
      · intro hreaps hstart
        obtain rfl := hsame newer' hlog'
        rw [hwithin.fresh]
        refine hfreshOf i _ hi hreaps ?_
        rcases List.mem_cons.mp hstart with heq | hmem
        · cases congrArg Entry.act heq
        · exact hmem
      · intro hfresh hended'
        obtain rfl := hsame newer' hlog'
        rcases hended hended' with hbefore | ⟨child, hsaved, hchild⟩
        · exact (hendedOf i _ hi (hwithin.fresh.symm.trans hfresh) hbefore).cons
        · exact ⟨_, List.mem_cons_self, child, hsaved, hchild⟩
  finish := fun w g i op a h hi _ => h.record_none rfl h.keyed h.inactive
  crash := fun w g i op p h hi => h.record_none rfl h.keyed h.inactive
  outside := by
    rintro w g s h ⟨clockMs, targets, workers, catalog, -, rfl⟩
    exact ⟨h.keyed, h.inactive, h.renews, h.since⟩

end Steps

/-! ### Every run -/

theorem eq_zrem_of_isLastOfWaiting {i : ℕ} {op : Work} {c : Cmd} {r : c.Reply}
    (h : isLastOfWaiting root ⟨i, op, .command c r⟩ = true) : c = .write [.zrem root] := by
  unfold isLastOfWaiting at h
  split at h
  · next hact =>
    cases hact
    obtain ⟨-, hk⟩ := Bool.and_eq_true_iff.mp h
    rw [of_decide_eq_true hk]
  · cases h

/-- Right after the last command of `mark_job_waiting_on_child` the root is not active. -/
theorem not_mem_active_of_isLastOfWaiting {cfg : Settings} {w : Plane}
    (hw : Reachable (cluster cfg) leaseMoves Keyed w)
    (hlast : w.log.head?.any (isLastOfWaiting root) = true) : root ∉ w.shared.active := by
  have hother : ∀ (i : ℕ) (op : Work) (a : Act redisSig Outcome), (∀ c r, a ≠ .command c r) →
      isLastOfWaiting root ⟨i, op, a⟩ = false := by
    intro i op a ha
    unfold isLastOfWaiting
    split
    · next hact => exact absurd hact (ha _ _)
    · rfl
  induction hw with
  | init hs => cases hlast
  | step _ hs ih =>
    cases hs with
    | start i op hi hop =>
      rw [World.record_log, List.head?_cons, Option.any_some, hother _ _ _ fun _ _ h => by cases h]
        at hlast
      cases hlast
    | command i op c k hi hready hguard =>
      obtain rfl := eq_zrem_of_isLastOfWaiting hlast
      exact fun hmem => ((Redis.mem_active_zrem _).mp hmem).1 rfl
    | finish i op a hi =>
      rw [World.record_log, List.head?_cons, Option.any_some, hother _ _ _ fun _ _ h => by cases h]
        at hlast
      cases hlast
    | crash i op p hi =>
      rw [World.record_log, List.head?_cons, Option.any_some, hother _ _ _ fun _ _ h => by cases h]
        at hlast
      cases hlast
    | outside s hs =>
      obtain ⟨clockMs, targets, workers, catalog, -, rfl⟩ := hs
      exact ih hlast

/-- **Unless it is renewed, a root that waits is left alone**: in every run, from the last command
of `mark_job_waiting_on_child` on, if no renewal of the root is under way then or begins later. -/
theorem leftAlone_of_unrenewed (cfg : Settings) {w w' : Plane}
    (hw : Reachable (cluster cfg) leaseMoves Keyed w)
    (hlast : w.log.head?.any (isLastOfWaiting root) = true)
    (hquiet : ∀ j task, w.tasks j = some task → task.op.renews root = false)
    (hw' : Later (cluster cfg) (leaseMovesBut root) w w') : LeftAlone root w w' := by
  obtain ⟨g, h, hfits⟩ := hw.ghosts (staked_tied cfg root)
  have hresting : Resting root w w g := by
    refine ⟨h.keyed, not_mem_active_of_isLastOfWaiting hw hlast, fun j task hj => ?_, [], rfl,
      trivial, fun j task hj hreaps hstart => ?_, fun j task hj hfresh => ?_⟩
    · rw [h.renews j task hj]
      exact hquiet j task hj
    · cases hstart
    · rw [h.fresh j task hj] at hfresh
      cases hfresh
  obtain ⟨g', h', -⟩ := hw'.ghosts (resting_tied cfg root w) hresting hfits
    fun j task hj => ⟨hw.starts j task hj, hquiet j task hj⟩
  refine ⟨h'.inactive, fun newer hlog => ?_⟩
  obtain ⟨newer', hlog', hunreaped, -⟩ := h'.since
  rwa [List.append_cancel_right (hlog.symm.trans hlog')]

/-- A root that is running, and its child, which is running as well. -/
def childPlane : Redis :=
  { (smallPlane 0).set (runningRecord smallSettings
      (newJob smallSettings (childArgs 1 smallJob smallPrepared 3) 3 ⟨"m", 0⟩ .cpu 0) "w" 0) with
    active := AList.insert 3 30 (smallPlane 0).active }

theorem keyed_childPlane : Keyed childPlane := by
  have hsmall : Keyed (smallPlane 0) := by
    intro j v hv
    obtain ⟨rfl, rfl⟩ := job?_smallPlane hv
    rfl
  exact hsmall.exec 0 (.write [.set _])

/-- The parser marks its root as waiting, and both leases run out. The next reaper pass sends the
child back to its queue and leaves the root alone. -/
theorem leftAlone_of_unrenewed_reaped : ∃ w w' : Plane, w'.shared.clockMs = 31000 ∧
    w'.shared.queues (.pending .chat .p1) = [3] ∧ LeftAlone 1 w w' := by
  obtain ⟨w, w', hw, hw', hp⟩ := World.exists_of_play_outside (Y := cluster smallSettings)
    (R := leaseMovesBut 1) (I := Keyed) keyed_childPlane
    (Turn.whole 0 (.gateway (.markJobWaitingOnChild 1 3 .childEnqueued ⟨none, some 3, none⟩
      (some "w"))) 4)
    (.next 0 :: Turn.whole 1 (.gateway .requeueStaleJobs) 13)
    (f := fun s => { s with clockMs := s.clockMs + 31000 })
    (fun s => ⟨_, s.targets, s.workers, s.catalog, Nat.le_add_right _ _, rfl⟩)
    (p := fun w w' => w.log.head?.any (isLastOfWaiting 1) && w'.shared.clockMs = 31000 &&
      w'.shared.queues (.pending .chat .p1) = [3])
    (by decide +kernel)
  simp only [Bool.and_eq_true, decide_eq_true_eq] at hp
  obtain ⟨⟨hlast, hclock⟩, hqueue⟩ := hp
  have hall : Reachable (cluster smallSettings) leaseMoves Keyed w :=
    Reachable.weaken (R := leaseMovesBut 1) (fun _ hop => hop.1) (fun _ _ _ => trivial) hw
  exact ⟨w, w', hclock, hqueue, leftAlone_of_unrenewed smallSettings hall hlast
    (fun j task hj => (hw.starts j task hj).2) hw'⟩

/-- A root that is running, and its child. -/
def waitPlane : Redis :=
  (smallPlane 0).set (newJob smallSettings (childArgs 1 smallJob smallPrepared 3) 3 ⟨"m", 0⟩ .cpu 0)

/-- The parser marks its root as waiting and returns, and the lease loop comes to the root in its
snapshot: the root is active again. -/
theorem not_leftAlone_renewal : ¬ ∀ w w' : Plane,
    Reachable (cluster smallSettings) leaseMoves (· = waitPlane) w →
    w.log.head?.any (isReturnOfWaiting 1) = true →
    Later (cluster smallSettings) leaseMoves w w' → LeftAlone 1 w w' := by
  intro h
  obtain ⟨w, w', hw, hw', hp⟩ := World.exists_of_play (Y := cluster smallSettings)
    (R := leaseMoves) (I := (· = waitPlane)) rfl
    (Turn.whole 0 (.gateway (.markJobWaitingOnChild 1 3 .childEnqueued ⟨none, some 3, none⟩
      (some "w"))) 5)
    (Turn.whole 1 (.gateway (.renewJobLease 1)) 5)
    (p := fun w w' => w.log.head?.any (isReturnOfWaiting 1) && decide (1 ∈ w'.shared.active))
    (by decide +kernel)
  obtain ⟨hreturned, hactive⟩ := Bool.and_eq_true_iff.mp hp
  exact (h w w' hw hreturned hw').inactive (of_decide_eq_true hactive)

end Worker

end AiAgent

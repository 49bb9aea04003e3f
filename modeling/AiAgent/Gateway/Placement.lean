import AiAgent.Gateway.Moves
import Mathlib.Data.List.Count

/-!
# Every live job is in one place

A job waits in at most one list, its home (`AiAgent.Gateway.Job.home`): queued, in its pending
list; admitted, in the dispatch list of its target. The invariant `AiAgent.Gateway.Placed` counts
how often an id occurs in each list that is looked at: once in its home, and nowhere else. It is
stated for a scope, all waiting lists or the pending lists alone, because what spoils the one need
not spoil the other.

Every operation that moves a job first takes its id out of the lists
(`AiAgent.Gateway.Vacated`), or finds it in none of them, and then writes a record and pushes the
id to the new home if there is one (`AiAgent.Gateway.Placed.settle`). The operations that write a
record without taking the id out are those of which `AiAgent.Gateway.Orderly` asks that the job
was not waiting.
-/

namespace AiAgent

namespace Gateway

open Command

/-! ### The invariant -/

/-- Which lists are looked at. -/
inductive Scope where
  /-- The pending lists. -/
  | pending
  /-- The pending lists and the dispatch lists. -/
  | waiting
  deriving DecidableEq

/-- The lists of a scope. -/
def Scope.covers : Scope → Queue → Bool
  | _, .pending _ _ => true
  | .waiting, .dispatch _ _ => true
  | _, _ => false

theorem Scope.isWaiting_of_covers {P : Scope} {queue : Queue} (h : P.covers queue = true) :
    queue.isWaiting = true := by
  cases queue with
  | processing workerId => cases P <;> cases h
  | _ => rfl

@[simp] theorem Scope.covers_pending (P : Scope) (workloadClass : Workload)
    (priority : Priority) : P.covers (.pending workloadClass priority) = true := by
  cases P <;> rfl

/-- **Every id is in its home and nowhere else**, as far as the scope goes. -/
structure Placed (P : Scope) (s : Redis) : Prop where
  /-- A record is found under its own id. -/
  keyed : ∀ k job, s.job? k = some job → job.id = k
  /-- An id occurs once in the home of its job, and in no other list. -/
  place : ∀ k queue, P.covers queue = true →
    (s.queues queue).count k = if (s.job? k).bind Job.home = some queue then 1 else 0
  /-- Where the dispatch lists are looked at, an admitted job has a home. -/
  held : P = .waiting → ∀ k job, s.job? k = some job → job.status = .admitted → job.home ≠ none
  /-- Where the pending lists alone are looked at, every job belongs in one the scheduler knows. -/
  listed : P = .pending → ∀ k job, s.job? k = some job →
    (job.workloadClass, job.priority) ∈ queueOrder

/-- The job waits in no list of the scope. -/
def Away (P : Scope) (job : Job) : Prop :=
  ∀ queue, job.home = some queue → P.covers queue = false

/-- The state with the id taken out of all lists, and nothing else changed that matters. -/
structure Vacated (P : Scope) (s : Redis) (k : JobId) (s₁ : Redis) : Prop where
  /-- The records are the same. -/
  jobs : s₁.jobs = s.jobs
  /-- The other ids are where they were. -/
  other : ∀ queue, P.covers queue = true → ∀ j, j ≠ k →
    (s₁.queues queue).count j = (s.queues queue).count j
  /-- The id is in no list. -/
  self : ∀ queue, P.covers queue = true → (s₁.queues queue).count k = 0

variable {P : Scope} {s s₁ s' : Redis} {k : JobId} {job old new : Job} {cfg : Settings}

/-- A job that is not admitted need not have a home. -/
theorem held_of_status (h : job.status ≠ .admitted) :
    P = .waiting → job.status = .admitted → job.home ≠ none := fun _ hstatus => absurd hstatus h

theorem Placed.count_of_job (h : Placed P s) (hold : s.job? k = some old) {queue : Queue}
    (hq : P.covers queue = true) :
    (s.queues queue).count k = if old.home = some queue then 1 else 0 := by
  rw [h.place k queue hq, hold]
  rfl

/-- An id that is in a list of the scope belongs to a job whose home that list is. -/
theorem Placed.home_of_mem (h : Placed P s) (queue : Queue) (hq : P.covers queue = true)
    (hmem : k ∈ s.queues queue) : ∃ job, s.job? k = some job ∧ job.home = some queue := by
  have hcount := h.place k queue hq
  have hpos : 0 < (s.queues queue).count k := List.count_pos_iff.mpr hmem
  by_cases hhome : (s.job? k).bind Job.home = some queue
  · exact Option.bind_eq_some_iff.mp hhome
  · rw [if_neg hhome] at hcount
    omega

/-- A job that waits in no list of the scope has vacated them already. -/
theorem Placed.vacated_of_away (h : Placed P s) (hold : s.job? k = some old) (haway : Away P old) :
    Vacated P s k s := by
  refine ⟨rfl, fun _ _ _ _ => rfl, fun queue hq => ?_⟩
  rw [h.count_of_job hold hq, if_neg]
  intro hhome
  rw [haway queue hhome] at hq
  cases hq

/-- An id without a record is in no list. -/
theorem Placed.vacated_of_none (h : Placed P s) (hnone : s.job? k = none) : Vacated P s k s := by
  refine ⟨rfl, fun _ _ _ _ => rfl, fun queue hq => ?_⟩
  rw [h.place k queue hq, hnone]
  rfl

/-- `LREM` on the home of a job vacates it. -/
theorem Placed.vacated_lrem (h : Placed P s) (hold : s.job? k = some old) {home : Queue}
    (hhome : old.home = some home) : Vacated P s k (s.lrem home k) := by
  refine ⟨rfl, fun queue _ j hj => ?_, fun queue hq => ?_⟩
  · by_cases hself : queue = home
    · subst hself
      rw [Redis.queues_lrem, Function.update_self, List.count_erase_of_ne hj]
    · rw [Redis.queues_lrem, Function.update_of_ne hself]
  · have hcount := h.count_of_job hold hq
    by_cases hself : queue = home
    · subst hself
      rw [if_pos hhome] at hcount
      rw [Redis.queues_lrem, Function.update_self, List.count_erase_self, hcount]
    · rw [if_neg fun heq => hself (Option.some.inj (heq.symm.trans hhome))] at hcount
      rw [Redis.queues_lrem, Function.update_of_ne hself, hcount]

/-- A withdrawn job has vacated the lists. -/
theorem Placed.vacated_withdraw (h : Placed P s) (hold : s.job? k = some old) :
    Vacated P s k (s.withdraw old.home k) := by
  cases hhome : old.home with
  | none =>
    refine h.vacated_of_away hold fun queue hqueue => ?_
    rw [hhome] at hqueue
    cases hqueue
  | some home => exact h.vacated_lrem hold hhome

/-- An id whose job has no home may be taken out of the lists. -/
theorem Placed.of_vacated (h : Placed P s) (hv : Vacated P s k s₁)
    (hhome : (s.job? k).bind Job.home = none) : Placed P s₁ := by
  have hjob := Redis.job?_congr hv.jobs
  refine ⟨fun j job hj => h.keyed j job (hjob j ▸ hj), fun j queue hq => ?_, fun hP j job hj =>
    h.held hP j job (hjob j ▸ hj), fun hP j job hj => h.listed hP j job (hjob j ▸ hj)⟩
  rw [hjob]
  by_cases hjk : j = k
  · subst hjk
    rw [hv.self queue hq, hhome]
    rfl
  · rw [hv.other queue hq j hjk, h.place j queue hq]

/-- **Moving a job**: once it has vacated the lists, its new record is written and its id is
pushed to the new home, if it has one. -/
theorem Placed.settle (h : Placed P s) (hv : Vacated P s k s₁) (new : Job) (hid : new.id = k)
    (hheld : P = .waiting → new.status = .admitted → new.home ≠ none)
    (hlisted : P = .pending → (new.workloadClass, new.priority) ∈ queueOrder)
    (hjobs : s'.jobs = s₁.jobs.insert k new)
    (hqueues : ∀ queue, P.covers queue = true → ∀ j, (s'.queues queue).count j =
      (s₁.queues queue).count j + if j = k ∧ new.home = some queue then 1 else 0) :
    Placed P s' := by
  -- Only this record is written anew.
  have hself : s'.job? k = some new := by
    rw [Redis.job?, hjobs, AList.lookup_insert]
  have hother : ∀ j, j ≠ k → s'.job? j = s.job? j := fun j hj => by
    rw [Redis.job?, hjobs, AList.lookup_insert_ne hj, hv.jobs]
    rfl
  refine ⟨fun j job hj => ?_, fun j queue hq => ?_, fun hP j job hj hstatus => ?_,
    fun hP j job hj => ?_⟩
  · by_cases hjk : j = k
    · subst hjk
      rw [hself] at hj
      rw [← Option.some.inj hj, hid]
    · rw [hother j hjk] at hj
      exact h.keyed j job hj
  · rw [hqueues queue hq j]
    by_cases hjk : j = k
    · subst hjk
      rw [hself, hv.self queue hq, Nat.zero_add]
      simp
    · rw [hother j hjk, hv.other queue hq j hjk, h.place j queue hq]
      simp [hjk]
  · by_cases hjk : j = k
    · subst hjk
      rw [hself] at hj
      obtain rfl := Option.some.inj hj
      exact hheld hP hstatus
    · rw [hother j hjk] at hj
      exact h.held hP j job hj hstatus
  · by_cases hjk : j = k
    · subst hjk
      rw [hself] at hj
      obtain rfl := Option.some.inj hj
      exact hlisted hP
    · rw [hother j hjk] at hj
      exact h.listed hP j job hj

/-- A step that touches neither records nor lists keeps every job in its place. -/
theorem Placed.congr (h : Placed P s) (hjobs : s'.jobs = s.jobs)
    (hqueues : ∀ queue, P.covers queue = true → s'.queues queue = s.queues queue) :
    Placed P s' := by
  have hjob := Redis.job?_congr hjobs
  refine ⟨fun k job hk => h.keyed k job (hjob k ▸ hk), fun k queue hq => ?_, fun hP k job hk =>
    h.held hP k job (hjob k ▸ hk), fun hP k job hk => h.listed hP k job (hjob k ▸ hk)⟩
  rw [hqueues queue hq, hjob, h.place k queue hq]

/-- Writing a record with the old home keeps every job in its place. -/
theorem Placed.touch (h : Placed P s) (hold : s.job? k = some old) (new : Job)
    (hspec : new.toJobSpec = old.toJobSpec) (hstatus : new.status = old.status)
    (hhome : new.home = old.home)
    (hjobs : s'.jobs = s.jobs.insert k new)
    (hqueues : ∀ queue, P.covers queue = true → s'.queues queue = s.queues queue) :
    Placed P s' := by
  -- The record has the place it had.
  have hbind : ∀ j, (s'.job? j).bind Job.home = (s.job? j).bind Job.home := fun j => by
    rw [Redis.job?, hjobs]
    by_cases hjk : j = k
    · subst hjk
      rw [AList.lookup_insert, hold]
      exact hhome
    · rw [AList.lookup_insert_ne hjk]
      rfl
  have hfind : ∀ j job, s'.job? j = some job → (j = k ∧ job = new) ∨ s.job? j = some job := by
    intro j job hj
    rw [Redis.job?, hjobs] at hj
    by_cases hjk : j = k
    · subst hjk
      rw [AList.lookup_insert] at hj
      exact .inl ⟨rfl, (Option.some.inj hj).symm⟩
    · rw [AList.lookup_insert_ne hjk] at hj
      exact .inr hj
  refine ⟨fun j job hj => ?_, fun j queue hq => ?_, fun hP j job hj hadmitted => ?_,
    fun hP j job hj => ?_⟩
  · rcases hfind j job hj with ⟨rfl, rfl⟩ | hj
    · exact (congrArg JobSpec.id hspec).trans (h.keyed j old hold)
    · exact h.keyed j job hj
  · rw [hqueues queue hq, hbind, h.place j queue hq]
  · rcases hfind j job hj with ⟨rfl, rfl⟩ | hj
    · rw [hhome]
      exact h.held hP j old hold (hstatus ▸ hadmitted)
    · exact h.held hP j job hj hadmitted
  · rcases hfind j job hj with ⟨rfl, rfl⟩ | hj
    · rw [hspec]
      exact h.listed hP j old hold
    · exact h.listed hP j job hj

/-- A push adds one occurrence of the id to one list. -/
theorem Redis.count_rpush (s : Redis) (home queue : Queue) (k j : JobId) :
    ((s.rpush home k).queues queue).count j =
      (s.queues queue).count j + if j = k ∧ home = queue then 1 else 0 := by
  by_cases hself : queue = home
  · subst hself
    rw [Redis.queues_rpush, Function.update_self, List.count_append, List.count_singleton]
    by_cases hjk : j = k
    · simp [hjk]
    · simp [hjk, Ne.symm hjk]
  · rw [Redis.queues_rpush, Function.update_of_ne hself]
    simp [Ne.symm hself]

/-! ### The end of a job -/

/-- A job that has ended waits nowhere. -/
theorem home_of_ended (h : job.status.isTerminal = true) : job.home = none := by
  unfold Job.home
  cases hstatus : job.status <;> rw [hstatus] at h <;> first | rfl | cases h

theorem not_admitted_of_ended (h : job.status.isTerminal = true) : job.status ≠ .admitted := by
  intro hstatus
  rw [hstatus] at h
  cases h

/-- The root that ends with the job, if there is one, waits in no list of the scope. -/
def RootAway (P : Scope) (s : Redis) (job : Job) : Prop :=
  ∀ rootJob, s.endedRoot job = some rootJob → Away P rootJob

/-- **The end of a job** whose id was taken out of the lists before, if its root waits nowhere. -/
theorem Placed.finish (h : Placed P s) (hv : Vacated P s k s₁) (hold : s.job? k = some old)
    (hroot : RootAway P s old) (hend : EndOf old new) {status : Status}
    (hstatus : status.isTerminal = true) (stage : LifecycleStage) (body : EventBody)
    (workerId : Option WorkerId) : Placed P (s₁.finish new status stage body workerId) := by
  have hid : new.id = k := hend.id.trans (h.keyed k old hold)
  have hhome : new.home = none := home_of_ended hend.ended
  have hjobs := s₁.jobs_finish new status stage body workerId
  have hqueues : ∀ queue, P.covers queue = true →
      (s₁.finish new status stage body workerId).queues queue = s₁.queues queue := fun queue hq =>
    s₁.queues_finish new status stage body workerId (Scope.isWaiting_of_covers hq)
  -- The job itself.
  have hjob : Placed P (s₁.set new) :=
    h.settle hv new hid (held_of_status (not_admitted_of_ended hend.ended))
      (fun hP => hend.spec ▸ h.listed hP k old hold) (by simp [hid])
      fun queue _ j => by simp [hhome]
  rw [hend.endedRoot_eq, Redis.endedRoot_congr hv.jobs] at hjobs
  cases hended : s.endedRoot old with
  | none =>
    rw [hended] at hjobs
    exact hjob.congr hjobs hqueues
  | some rootJob =>
    -- And then its root.
    rw [hended] at hjobs
    obtain ⟨rootJobId, hne, -, hrootJob, -⟩ := Redis.endedRoot_eq_some hended
    have hrootId : rootJob.id = rootJobId := h.keyed rootJobId rootJob hrootJob
    have hrootJob' : (s₁.set new).job? rootJobId = some rootJob := by
      rw [Redis.job?_set, if_neg (by rw [hend.id]; exact hne), Redis.job?, hv.jobs]
      exact hrootJob
    have hrootHome : (rootTerminalRecord rootJob new status stage s₁.clockMs).home = none :=
      home_of_ended hstatus
    refine hjob.settle (hjob.vacated_of_away hrootJob' (hroot rootJob hended))
      (rootTerminalRecord rootJob new status stage s₁.clockMs) hrootId
      (held_of_status (not_admitted_of_ended hstatus))
      (fun hP => h.listed hP rootJobId rootJob hrootJob) ?_ fun queue hq j => ?_
    · rw [← hrootId]
      exact hjobs
    · rw [hqueues queue hq, hrootHome]
      simp

theorem Placed.failFrom (h : Placed P s) (hv : Vacated P s k s₁) (hold : s.job? k = some old)
    (hroot : RootAway P s old) (retryCount : ℕ) (errorText : Text) (workerId : Option WorkerId) :
    Placed P (s₁.failFrom { old with retryCount := retryCount } errorText workerId) :=
  h.finish hv hold hroot (endOf_failedRecord old retryCount errorText s₁.clockMs) rfl _ _ _

/-- `mark_job_cancelled` of a job whose id was taken out of the lists before, unless the job has
ended. -/
theorem Placed.cancel (h : Placed P s) (hjobs : s₁.jobs = s.jobs)
    (hv : ∀ job, s.job? k = some job → job.status.isTerminal = false →
      Vacated P s k s₁ ∧ RootAway P s job)
    (hended : ∀ job, s.job? k = some job → job.status.isTerminal = true → Placed P s₁)
    (hnone : s.job? k = none → Placed P s₁) (workerId : Option WorkerId) :
    Placed P (s₁.cancel k workerId) := by
  unfold Redis.cancel
  rw [Redis.job?_congr hjobs]
  cases hold : s.job? k with
  | none => exact hnone hold
  | some old =>
    cases hlive : old.status.isTerminal with
    | true => simpa [Option.filter, hlive] using hended old hold hlive
    | false =>
      obtain ⟨hvacated, hroot⟩ := hv old hold hlive
      simpa [Option.filter, hlive] using h.finish hvacated hold hroot
        (endOf_cancelledRecord old s₁.clockMs) rfl .childCancelled .cancelled workerId

/-- A waiting job is withdrawn and cancelled. -/
theorem Placed.withdraw_cancel (h : Placed P s) (hold : s.job? k = some old)
    (hroot : RootAway P s old) (workerId : Option WorkerId) :
    Placed P ((s.withdraw old.home k).cancel k workerId) := by
  have hv := h.vacated_withdraw hold
  have hself : ∀ job, s.job? k = some job → job = old := fun job hjob => by
    rw [hold] at hjob
    exact (Option.some.inj hjob).symm
  refine h.cancel hv.jobs (fun job hjob _ => ?_) (fun job hjob hended => ?_) (fun hnone => ?_) _
  · rw [hself job hjob]
    exact ⟨hv, hroot⟩
  · rw [hself job hjob] at hended
    exact h.of_vacated hv (by rw [hold]; exact home_of_ended hended)
  · rw [hold] at hnone
    cases hnone

/-! ### Admission -/

/-- The home of a job on a dispatch list, as far as the scope goes. -/
theorem home_admittedRecord (cfg : Settings) (job : Job) (targetId : TargetId)
    (admission : Admission) (nowMs : ℕ) (hname : P = .waiting → targetId ≠ "") {queue : Queue}
    (hq : P.covers queue = true) :
    (admittedRecord cfg job targetId admission nowMs).home = some queue ↔
      .dispatch job.workerPool targetId = queue := by
  have hhome : (admittedRecord cfg job targetId admission nowMs).home =
      ((some targetId).filter fun t => t ≠ "").map (.dispatch job.workerPool) := rfl
  rw [hhome]
  by_cases htarget : targetId = ""
  · -- An admission to a target without a name, which only the pending lists may be asked about.
    subst htarget
    cases P with
    | waiting => exact absurd rfl (hname rfl)
    | pending =>
      cases queue with
      | pending workloadClass priority => simp [Option.filter]
      | dispatch workerPool targetId => cases hq
      | processing workerId => cases hq
  · simp [Option.filter, htarget]

/-- **An admission** moves a job from its pending list to a dispatch list. -/
theorem Placed.evaluate (h : Placed P s) (hold : s.job? k = some old) (targetKind : TargetKind)
    {target : Target} (hname : P = .waiting → target.targetId ≠ "") {queue : Queue}
    (hqueue : P.covers queue = true) :
    Placed P (s.evaluate cfg { old with targetKind := targetKind } queue target) := by
  obtain rfl := h.keyed k old hold
  unfold Redis.evaluate
  split
  · exact h
  · next admission _ =>
    split
    · next hmem =>
      obtain ⟨job, hjob, hhome⟩ := h.home_of_mem queue hqueue hmem
      rw [hold] at hjob
      obtain rfl := Option.some.inj hjob
      refine h.settle (h.vacated_lrem hold hhome) (admittedRecord cfg
        { old with targetKind := targetKind } target.targetId admission s.clockMs) rfl
        (fun hP _ => ?_) (fun hP => h.listed hP old.id old hold) (by simp [admittedRecord]; rfl)
        fun q hq j => ?_
      · rw [(home_admittedRecord cfg _ target.targetId admission s.clockMs hname
          (by rw [hP]; rfl)).mpr
          rfl]
        exact Option.some_ne_none _
      rw [Redis.queues_admitted, ← Redis.queues_rpush, Redis.count_rpush]
      simp only [home_admittedRecord cfg _ target.targetId admission s.clockMs hname hq]
    · next hmem =>
      refine h.congr rfl fun q _ => ?_
      by_cases hself : q = queue
      · subst hself
        rw [Redis.queues_lrem, Function.update_self, List.erase_of_not_mem hmem]
      · rw [Redis.queues_lrem, Function.update_of_ne hself]

theorem Placed.tryAdmit (h : Placed P s) (k : JobId) {target : Target}
    (hname : P = .waiting → target.targetId ≠ "") {queue : Queue}
    (hqueue : P.covers queue = true) : Placed P (s.tryAdmit cfg k queue target) := by
  unfold Redis.tryAdmit
  cases hfilter : (s.job? k).filter fun job => job.status = .queued with
  | none => exact h
  | some original =>
    obtain ⟨hold, -⟩ := Option.filter_eq_some_iff.mp hfilter
    obtain rfl := h.keyed k original hold
    obtain ⟨targetKind, hkind⟩ := s.downgraded_eq original
    simp only [hkind]
    split
    · -- The downgrade was saved first.
      have hsaved : (s.set { original with targetKind := targetKind }).job? original.id =
          some { original with targetKind := targetKind } := by
        rw [Redis.job?_set, if_pos rfl]
      have hplaced : Placed P (s.set { original with targetKind := targetKind }) :=
        h.touch hold { original with targetKind := targetKind } rfl rfl rfl (by simp) fun _ _ => rfl
      exact hplaced.evaluate hsaved targetKind hname hqueue
    · exact h.evaluate hold targetKind hname hqueue

/-! ### Claims, renewals and returns to a pending list -/

/-- A job that has vacated the lists goes to its pending list. -/
theorem Placed.repend (h : Placed P s) (hv : Vacated P s k s₁) (new : Job) (hid : new.id = k)
    (hstatus : new.status = .queued)
    (hlisted : P = .pending → (new.workloadClass, new.priority) ∈ queueOrder)
    (hjobs : s'.jobs = s₁.jobs.insert k new)
    (hqueues : ∀ queue, P.covers queue = true → s'.queues queue =
      (s₁.rpush (.pending new.workloadClass new.priority) k).queues queue) : Placed P s' := by
  refine h.settle hv new hid (held_of_status (by rw [hstatus]; decide)) hlisted hjobs
    fun queue hq j => ?_
  have hhome : new.home = some (.pending new.workloadClass new.priority) := by
    rw [Job.home, hstatus]
  rw [hqueues queue hq, Redis.count_rpush, hhome]
  simp

theorem Placed.requeue (h : Placed P s) (hv : Vacated P s k s₁) (hold : s.job? k = some old)
    (reason : String) : Placed P (s₁.requeue old reason) := by
  obtain rfl := h.keyed k old hold
  obtain ⟨targetKind, hjobs⟩ := s₁.jobs_requeue old reason
  refine h.repend hv _ ?_ ?_ ?_ hjobs fun queue _ => ?_
  · rfl
  · rfl
  · exact fun hP => h.listed hP old.id old hold
  · rw [s₁.queues_requeue old reason]
    rfl

/-- The claim of a job whose id was popped. -/
theorem Placed.claim (h : Placed P s) (hv : Vacated P s k s₁) (hold : s.job? k = some old)
    (hroot : old.deadlineAt ≠ 0 ∧ old.deadlineAt ≤ s₁.clockMs / 1000 → RootAway P s old)
    (workerId : WorkerId) (targetId : TargetId) (expectedTargetKind : Option Text) :
    Placed P (s₁.claim cfg workerId targetId expectedTargetKind old) := by
  obtain rfl := h.keyed k old hold
  unfold Redis.claim
  split
  · -- Refused: the processing list and the reservation are left, no waiting list is touched.
    refine h.requeue (k := old.id) ⟨?_, fun queue hq j hj => ?_, fun queue hq => ?_⟩ hold _
    · simpa using hv.jobs
    · rw [← hv.other queue hq j hj]
      simp [Redis.queues_lrem_processing _ _ _ (Scope.isWaiting_of_covers hq)]
    · rw [← hv.self queue hq]
      simp [Redis.queues_lrem_processing _ _ _ (Scope.isWaiting_of_covers hq)]
  · split
    · next hdeadline =>
      rw [Redis.job?_congr hv.jobs, hold]
      exact h.failFrom hv hold (hroot hdeadline) old.retryCount _ _
    · refine h.settle hv (runningRecord cfg old workerId s₁.clockMs) rfl
        (held_of_status Status.noConfusion) (fun hP => h.listed hP old.id old hold)
        (by simp [runningRecord]) fun queue _ j => ?_
      have hhome : (runningRecord cfg old workerId s₁.clockMs).home = none := rfl
      simp [hhome]

/-- The pop takes the last id of a dispatch list out of it. -/
theorem Placed.vacated_brpoplpush (h : Placed P s) {source : Queue} {workerId : WorkerId}
    (hlast : (s.queues source).getLast? = some k)
    (hhome : ∀ queue, P.covers queue = true → (s.job? k).bind Job.home = some queue →
      queue = source) :
    Vacated P s k (s.brpoplpush source (.processing workerId)).2 := by
  obtain ⟨rest, hrest⟩ := List.getLast?_eq_some_iff.mp hlast
  have hqueues : ∀ queue, P.covers queue = true →
      (s.brpoplpush source (.processing workerId)).2.queues queue =
        Function.update s.queues source rest queue := by
    intro queue hq
    have hne : queue ≠ .processing workerId := by
      rintro rfl
      have := Scope.isWaiting_of_covers hq
      cases this
    simp [Redis.brpoplpush, hrest, Function.update_of_ne hne]
  obtain ⟨queues, hstate⟩ := s.brpoplpush_eq source (.processing workerId)
  refine ⟨by rw [hstate], fun queue hq j hj => ?_, fun queue hq => ?_⟩
  · rw [hqueues queue hq]
    by_cases hself : queue = source
    · subst hself
      rw [Function.update_self, hrest, List.count_append, List.count_singleton]
      simp [Ne.symm hj]
    · rw [Function.update_of_ne hself]
  · rw [hqueues queue hq]
    have hcount := h.place k queue hq
    by_cases hself : queue = source
    · subst hself
      rw [hrest, List.count_append, List.count_singleton_self] at hcount
      rw [Function.update_self]
      split at hcount <;> omega
    · rw [if_neg fun hh => hself (hhome queue hq hh)] at hcount
      rw [Function.update_of_ne hself, hcount]

theorem Placed.claimed (h : Placed P s) {workerId : WorkerId} {workerPool : WorkerPool}
    {targetId : TargetId} {expectedTargetKind : Option Text}
    (hclaimed : s.Claimed cfg workerId workerPool targetId expectedTargetKind s')
    (hhome : ∀ jobId, (s.queues (.dispatch workerPool targetId)).getLast? = some jobId →
      ∀ queue, P.covers queue = true → (s.job? jobId).bind Job.home = some queue →
        queue = .dispatch workerPool targetId)
    (hroot : ∀ jobId job, (s.queues (.dispatch workerPool targetId)).getLast? = some jobId →
      s.job? jobId = some job → job.deadlineAt ≠ 0 ∧ job.deadlineAt ≤ s.clockMs / 1000 →
        RootAway P s job) :
    Placed P s' := by
  cases hclaimed with
  | same => exact h
  | dropped jobId queues hlast hpop hnone =>
    have hv : Vacated P s jobId { s with queues := queues } :=
      hpop ▸ h.vacated_brpoplpush hlast (hhome jobId hlast)
    exact (h.of_vacated hv (by rw [hnone]; rfl)).congr rfl fun queue hq =>
      Redis.queues_lrem_processing _ workerId jobId (Scope.isWaiting_of_covers hq)
  | found jobId job queues hlast hpop hjob =>
    have hv : Vacated P s jobId { s with queues := queues } :=
      hpop ▸ h.vacated_brpoplpush hlast (hhome jobId hlast)
    exact h.claim hv hjob (hroot jobId job hlast hjob) workerId targetId expectedTargetKind

theorem Placed.renew (h : Placed P s) (k : JobId) : Placed P (s.renew cfg k) := by
  unfold Redis.renew
  split
  · exact h
  · next job hfilter =>
    obtain ⟨hold, -⟩ := Option.filter_eq_some_iff.mp hfilter
    obtain rfl := h.keyed k job hold
    exact h.touch hold { job with leaseUntil := some (s.clockMs / 1000 + cfg.jobLeaseSeconds) } rfl
      rfl rfl (by simp) fun _ _ => rfl

/-- A root that waits on its child is in no dispatch list of the scope before. -/
theorem Placed.wait (h : Placed P s)
    (haway : ∀ job, s.job? k = some job → job.status ≠ .queued → Away P job)
    (childJobId : JobId) (stage : LifecycleStage) (updates : ParserMetadata)
    (workerId : Option WorkerId) : Placed P (s.wait k childJobId stage updates workerId) := by
  unfold Redis.wait
  cases hold : s.job? k with
  | none => exact h
  | some old =>
    obtain rfl := h.keyed k old hold
    let new := waitingRecord old childJobId stage updates
    dsimp only
    by_cases hstatus : old.status = .queued
    · have hhome : new.home = old.home := by
        have hnew : new.status = .queued := hstatus
        rw [Job.home, Job.home, hstatus, hnew]
        rfl
      refine h.touch hold new rfl rfl hhome (by simp [new, waitingRecord]) fun queue hq => ?_
      simp [Redis.queues_leave _ _ _ (Scope.isWaiting_of_covers hq)]
    · have hhome : new.home = none := by
        have hnew : new.status = old.status := rfl
        rw [Job.home, hnew]
        cases h' : old.status <;> first | rfl | exact absurd h' hstatus
      refine h.settle (h.vacated_of_away hold (haway old hold hstatus)) new rfl
        (fun hP hadmitted => ?_) (fun hP => h.listed hP old.id old hold)
        (by simp [new, waitingRecord]) fun queue hq j => ?_
      · -- An admitted job waits in a dispatch list, which is looked at.
        obtain ⟨queue, hqueue⟩ :=
          Option.ne_none_iff_exists'.mp (h.held hP old.id old hold hadmitted)
        have hcovers := haway old hold hstatus queue hqueue
        rw [Job.home, show old.status = .admitted from hadmitted] at hqueue
        obtain ⟨targetId, -, rfl⟩ := Option.map_eq_some_iff.mp hqueue
        rw [hP] at hcovers
        cases hcovers
      rw [hhome]
      simp [Redis.queues_leave _ _ _ (Scope.isWaiting_of_covers hq)]

/-! ### The reaper -/

theorem Placed.recover (h : Placed P s) (hold : s.job? k = some old) (haway : Away P old)
    (retryCount : ℕ) : Placed P (s.recover old retryCount) := by
  obtain rfl := h.keyed k old hold
  obtain ⟨targetKind, hjobs⟩ := s.jobs_recover old retryCount
  refine h.repend (h.vacated_of_away hold haway) _ ?_ ?_ ?_ hjobs fun queue hq => ?_
  · rfl
  · rfl
  · exact fun hP => h.listed hP old.id old hold
  · rw [s.queues_recover old retryCount (Scope.isWaiting_of_covers hq)]
    rfl

/-- What the reaper does to one id, where a job it fails or recovers waits nowhere and the root
of a job it ends waits nowhere. -/
theorem Placed.reaped (h : Placed P s) {now : ℕ} (hreaped : s.Reaped cfg now k s')
    (haway : ∀ job, s.job? k = some job → reapTakes now job = true → cancelsStale job = false →
      Away P job)
    (hroot : ∀ job, s.job? k = some job → reapTakes now job = true →
      cancelsStale job = true ∨ reapFails cfg now job = true → RootAway P s job) :
    Placed P s' := by
  cases hreaped with
  | dropped => exact h.congr rfl fun _ _ => rfl
  | same => exact h
  | cancelled job hjob htakes hstale =>
    obtain rfl := h.keyed k job hjob
    exact h.withdraw_cancel hjob (hroot job hjob htakes (.inl hstale)) _
  | failed job retryCount errorText hjob htakes hstale hfails =>
    exact h.failFrom (h.vacated_of_away hjob (haway job hjob htakes hstale)) hjob
      (hroot job hjob htakes (.inr hfails)) _ _ _
  | recovered job hjob htakes hstale hfails =>
    exact h.recover hjob (haway job hjob htakes hstale) _

/-! ### Cancelling, linking, enqueueing -/

/-- Every id the reaper goes through belongs, when its turn comes, to a job it leaves alone, or to
one that waits nowhere unless it is withdrawn, and whose root waits nowhere if the job ends. -/
def ReapsOrderly (P : Scope) (cfg : Settings) (now : ℕ) : List JobId → Redis → Prop
  | [], _ => True
  | jobId :: jobIds, s =>
    (∀ job, s.job? jobId = some job → reapTakes now job = true →
      (cancelsStale job = false → Away P job) ∧
        (cancelsStale job = true ∨ reapFails cfg now job = true → RootAway P s job)) ∧
      ReapsOrderly P cfg now jobIds (s.reap cfg now jobId)

theorem Placed.reapAll (h : Placed P s) (now : ℕ) (jobIds : List JobId)
    (hreaps : ReapsOrderly P cfg now jobIds s) : Placed P (s.reapAll cfg now jobIds) := by
  induction jobIds generalizing s with
  | nil => exact h
  | cons jobId jobIds ih =>
    refine ih (h.reaped (s.reaped cfg now jobId) (fun job hjob htakes hstale => ?_)
      fun job hjob htakes hends => ?_) hreaps.2
    · exact (hreaps.1 job hjob htakes).1 hstale
    · exact (hreaps.1 job hjob htakes).2 hends

/-! ### Cancelling, linking, enqueueing -/

theorem Placed.stopped (h : Placed P s) (hstopped : s.Stopped k s')
    (hroot : ∀ j job, (s.Below k j ∧ (j = k → job.cancelRequested = false)) →
      s.job? j = some job → job.home ≠ none → RootAway P s job) : Placed P s' := by
  cases hstopped with
  | same => exact h
  | withdrawn j job hbelow hjob hhome =>
    exact h.withdraw_cancel hjob (hroot j job hbelow hjob hhome) _
  | flagged j job hbelow hjob hstatus hhome =>
    obtain rfl := h.keyed j job hjob
    exact h.touch hjob { job with cancelRequested := true } rfl rfl rfl (by simp) fun _ _ => by simp

/-- The arguments ask for a pending list the scheduler knows. -/
def EnqueueArgs.Listed (a : EnqueueArgs) : Prop :=
  (normalizeWorkloadClass a.workloadClass,
    normalizePriority (normalizeWorkloadClass a.workloadClass) a.priority) ∈ queueOrder

instance (a : EnqueueArgs) : Decidable a.Listed := inferInstanceAs (Decidable (_ ∈ _))

/-- The default priority of a class is one the scheduler knows. -/
theorem EnqueueArgs.listed_of_priority {a : EnqueueArgs} (h : a.priority = none) : a.Listed := by
  unfold EnqueueArgs.Listed
  rw [h]
  cases normalizeWorkloadClass a.workloadClass <;> decide

/-- A fresh record is pushed under an id that has none. -/
theorem Placed.push (h : Placed P s) (a : EnqueueArgs) (hnew : s.job? k = none)
    (hlisted : P = .pending → EnqueueArgs.Listed a) (modelInfo : ModelInfo)
    (targetKind : TargetKind) (nowMs : ℕ) :
    Placed P (s.push (newJob cfg a k modelInfo targetKind nowMs)) := by
  exact h.repend (h.vacated_of_none hnew) (newJob cfg a k modelInfo targetKind nowMs)
    rfl rfl hlisted
    rfl fun queue _ => rfl

theorem Placed.link (h : Placed P s) (hold : s.job? k = some old) (childJobId : JobId) :
    Placed P (s.set { old with childJobId := some childJobId }) := by
  obtain rfl := h.keyed k old hold
  exact h.touch hold { old with childJobId := some childJobId } rfl rfl rfl (by simp)
    fun _ _ => rfl

theorem Placed.linked (h : Placed P s) (hlinked : s.Linked s') : Placed P s' := by
  cases hlinked with
  | same => exact h
  | linked rootJob rootJobId childJobId hroot => exact h.link hroot childJobId
  | created cfg a rootJob rootJobId childJobId modelInfo targetKind hroot hchild hpriority =>
    refine (h.push a hchild (fun _ => a.listed_of_priority hpriority) modelInfo targetKind
      s.clockMs).link (k := rootJobId) ?_ childJobId
    have hne : rootJobId ≠ childJobId := by
      rintro rfl
      rw [hroot] at hchild
      cases hchild
    rw [Redis.job?_push, if_neg (by simpa [newJob] using hne), hroot]

theorem Placed.enqueue (h : Placed P s) (a : EnqueueArgs) (uuid : JobId)
    (hnew : a.jobIdOverride = none → s.job? uuid = none)
    (hlisted : P = .pending → a.Listed) : Placed P (alone (enqueueJob cfg a uuid) s).2 := by
  rcases enqueueJob_cases cfg a uuid s hnew with hsame | ⟨k, modelInfo, targetKind, hnone, hpush, -⟩
  · rw [hsame]
    exact h
  · rw [hpush]
    exact h.push a hnone hlisted modelInfo targetKind s.clockMs

/-- The record of a job that waits nowhere may go. -/
theorem Placed.expire (h : Placed P s) (haway : ∀ job, s.job? k = some job → Away P job) :
    Placed P { s with jobs := s.jobs.erase k } := by
  have hself : Redis.job? { s with jobs := s.jobs.erase k } k = none := AList.lookup_erase k s.jobs
  have hother : ∀ j, j ≠ k → Redis.job? { s with jobs := s.jobs.erase k } j = s.job? j :=
    fun j hj => AList.lookup_erase_ne hj
  have hkept : ∀ j job, Redis.job? { s with jobs := s.jobs.erase k } j = some job →
      s.job? j = some job := by
    intro j job hj
    by_cases hjk : j = k
    · rw [hjk, hself] at hj
      cases hj
    · rwa [hother j hjk] at hj
  refine ⟨fun j job hj => h.keyed j job (hkept j job hj), fun j queue hq => ?_,
    fun hP j job hj => h.held hP j job (hkept j job hj),
    fun hP j job hj => h.listed hP j job (hkept j job hj)⟩
  by_cases hjk : j = k
  · subst hjk
    rw [hself]
    cases hold : s.job? j with
    | none => exact (h.vacated_of_none hold).self queue hq
    | some old => exact (h.vacated_of_away hold (haway old hold)).self queue hq
  · rw [hother j hjk]
    exact h.place j queue hq

/-! ### Runs -/

/-- The steps that move a job only once it was taken out of the list it waits in:

* the end of a job is reported for a job that does not wait, and its root, if it ends with it,
  does not wait either;
* only a job that is not admitted is put to wait on a child;
* `requeue_job_for_pending` is called for a job that does not wait;
* the lease of an admitted job does not run out before it is claimed, unless its cancel was
  requested.

An admission takes the job from a list of the scope, to a target with a name; a new id is one no
record has; and a record expires only while the job waits nowhere. Of the scope `pending` two things
more are asked: that a job is enqueued into a list the scheduler knows, and that no claim pops the
id of a queued job, which the scope `waiting` rules out by itself. -/
def Orderly (P : Scope) (cfg : Settings) (s : Redis) : Move → Prop
  | .op (.enqueueJob a uuid) =>
    (a.jobIdOverride = none → s.job? uuid = none) ∧ (P = .pending → a.Listed)
  | .op (.tryAdmitJob _ queue target) =>
    P.covers queue = true ∧ (P = .waiting → target.targetId ≠ "")
  | .op (.claimDispatchJob _ workerPool targetId _) =>
    ∀ jobId job, (s.queues (.dispatch workerPool targetId)).getLast? = some jobId →
      s.job? jobId = some job → (P = .pending → job.status ≠ .queued) ∧
        (job.deadlineAt ≠ 0 ∧ job.deadlineAt ≤ s.clockMs / 1000 → RootAway P s job)
  | .op (.cancelJob jobId username) =>
    ∀ k job, s.Withdraws jobId username k job → RootAway P s job
  | .op (.markJobCompleted jobId _ _) | .op (.markJobFailed jobId _ _) =>
    ∀ job, s.job? jobId = some job → Away P job ∧ RootAway P s job
  | .op (.markJobCancelled jobId _) =>
    ∀ job, s.job? jobId = some job → job.status.isTerminal = false →
      Away P job ∧ RootAway P s job
  | .op (.markJobWaitingOnChild jobId _ _ _ _) =>
    ∀ job, s.job? jobId = some job → job.status ≠ .queued → Away P job
  | .op (.requeueJobForPending jobId _) => ∀ job, s.job? jobId = some job → Away P job
  | .op .requeueStaleJobs => ReapsOrderly P cfg s.now (s.zrangebyscore s.now) s
  | .expire jobId => ∀ job, s.job? jobId = some job → Away P job
  | _ => True

/-- An orderly step keeps every job in its place. -/
theorem Placed.step (h : Placed P s) (m : Move) (hm : Orderly P cfg s m) :
    Placed P (m.apply cfg s) := by
  cases m with
  | tick ms => exact h.congr rfl fun _ _ => rfl
  | report targets workers catalog => exact h.congr rfl fun _ _ => rfl
  | expire jobId => exact h.expire hm
  | op o =>
    cases o with
    | enqueueJob a uuid =>
      rw [apply_enqueueJob]
      exact h.enqueue a uuid hm.1 hm.2
    | enqueueChildJobOnce rootJobId prepared =>
      exact h.linked (linked_apply_enqueueChildJobOnce cfg s rootJobId prepared)
    | getLinkedChildJobId rootJobId =>
      exact h.linked (linked_apply_getLinkedChildJobId cfg s rootJobId)
    | tryAdmitJob jobId queue target =>
      rw [apply_tryAdmitJob]
      exact h.tryAdmit jobId hm.2 hm.1
    | claimDispatchJob workerId workerPool targetId expectedTargetKind =>
      rw [apply_claimDispatchJob]
      refine h.claimed (s.claimed cfg workerId workerPool targetId expectedTargetKind)
        (fun jobId hlast queue hq hhome => ?_) fun jobId job hlast hjob =>
          (hm jobId job hlast hjob).2
      obtain ⟨job, hjob, hqueue⟩ := Option.bind_eq_some_iff.mp hhome
      cases P with
      | pending =>
        -- The one home the scope looks at is a pending list, and the job is not queued.
        have hqueued := (hm jobId job hlast hjob).1 rfl
        unfold Job.home at hqueue
        cases hstatus : job.status with
        | queued => exact absurd hstatus hqueued
        | admitted =>
          rw [hstatus] at hqueue
          obtain ⟨targetId, -, rfl⟩ := Option.map_eq_some_iff.mp hqueue
          cases hq
        | _ => rw [hstatus] at hqueue; cases hqueue
      | waiting =>
        obtain ⟨job', hjob', hhome'⟩ := h.home_of_mem (.dispatch workerPool targetId) rfl
          (List.mem_of_getLast? hlast)
        rw [hjob] at hjob'
        obtain rfl := Option.some.inj hjob'
        exact Option.some.inj (hqueue.symm.trans hhome')
    | renewJobLease jobId =>
      rw [apply_renewJobLease]
      exact h.renew jobId
    | cancelJob jobId username =>
      by_cases hforbids : ∃ root, s.job? jobId = some root ∧ root.Forbids username
      · obtain ⟨root, hroot, hforbidden⟩ := hforbids
        rw [apply_cancelJob_of_forbids cfg s hroot hforbidden]
        exact h
      · push Not at hforbids
        exact h.stopped (stopped_apply_cancelJob cfg s jobId username)
          fun k job hbelow hjob hhome => hm k job ⟨hbelow.1, hjob, hhome, hbelow.2, hforbids⟩
    | markJobCompleted jobId responseText workerId =>
      rw [apply_markJobCompleted]
      cases hold : s.job? jobId with
      | none => exact h
      | some job =>
        obtain ⟨haway, hroot⟩ := hm job hold
        exact h.finish (h.vacated_of_away hold haway) hold hroot (endOf_completedRecord job _ _) rfl
          _ _ _
    | markJobFailed jobId errorText workerId =>
      rw [apply_markJobFailed]
      cases hold : s.job? jobId with
      | none => exact h
      | some job =>
        obtain ⟨haway, hroot⟩ := hm job hold
        exact h.failFrom (h.vacated_of_away hold haway) hold hroot job.retryCount _ _
    | markJobCancelled jobId workerId =>
      rw [apply_markJobCancelled]
      exact h.cancel rfl (fun job hold hlive => ⟨h.vacated_of_away hold (hm job hold hlive).1,
        (hm job hold hlive).2⟩) (fun _ _ _ => h) (fun _ => h) workerId
    | markJobWaitingOnChild jobId childJobId stage updates workerId =>
      rw [apply_markJobWaitingOnChild]
      exact h.wait hm childJobId stage updates workerId
    | requeueJobForPending jobId reason =>
      rw [apply_requeueJobForPending]
      cases hold : s.job? jobId with
      | none => exact h
      | some job => exact h.requeue (h.vacated_of_away hold (hm job hold)) hold reason
    | requeueStaleJobs =>
      rw [apply_requeueStaleJobs]
      exact h.reapAll _ _ hm

theorem Placed.pristine (h : Pristine s) : Placed P s := by
  obtain ⟨targets, workers, catalog, clockMs, rfl⟩ := h
  constructor
  · rintro k job ⟨⟩
  · intro k queue _
    rfl
  · rintro _ k job ⟨⟩
  · rintro _ k job ⟨⟩

theorem placed_of_orderly (h : Run cfg (Orderly P cfg) s) : Placed P s :=
  h.invariant (fun _ => Placed.pristine) fun _ m hs hm => hs.step m hm

/-! ### One place -/

/-- The id occurs once in the list, and in no other pending or dispatch list. -/
def OnlyIn (s : Redis) (k : JobId) (home : Queue) : Prop :=
  ∀ queue, queue.isWaiting = true → (s.queues queue).count k = if queue = home then 1 else 0

/-- The id is in no pending and in no dispatch list. -/
def Nowhere (s : Redis) (k : JobId) : Prop :=
  ∀ queue, queue.isWaiting = true → k ∉ s.queues queue

/-- **Every live job is in exactly one place.** -/
structure InOnePlace (s : Redis) : Prop where
  /-- A queued job is in its pending list. -/
  queued : ∀ k job, s.job? k = some job → job.status = .queued →
    OnlyIn s k (.pending job.workloadClass job.priority)
  /-- An admitted job is in the dispatch list of its target. -/
  admitted : ∀ k job, s.job? k = some job → job.status = .admitted →
    ∃ targetId, job.assignedTargetId = some targetId ∧
      OnlyIn s k (.dispatch job.workerPool targetId)
  /-- A running job waits nowhere. -/
  running : ∀ k job, s.job? k = some job → job.status = .running → Nowhere s k
  /-- A job that has ended waits nowhere. -/
  ended : ∀ k job, s.job? k = some job → job.status.isTerminal = true → Nowhere s k
  /-- What a worker is handed was admitted, so no other worker has it. -/
  handed : ∀ cfg workerId workerPool targetId expectedTargetKind job,
    (alone (claimDispatchJob cfg workerId workerPool targetId expectedTargetKind) s).1 = some job →
      ∃ old, s.job? job.id = some old ∧ old.status = .admitted

theorem Queue.covers_of_isWaiting {queue : Queue} (h : queue.isWaiting = true) :
    Scope.waiting.covers queue = true := by
  cases queue <;> first | rfl | cases h

theorem Placed.onlyIn (h : Placed .waiting s) (hold : s.job? k = some old) {home : Queue}
    (hhome : old.home = some home) : OnlyIn s k home := by
  intro queue hq
  rw [h.count_of_job hold (Queue.covers_of_isWaiting hq), hhome]
  simp [eq_comm]

theorem Placed.nowhere (h : Placed .waiting s) (hold : s.job? k = some old)
    (hhome : old.home = none) : Nowhere s k := by
  intro queue hq
  rw [← List.count_eq_zero, h.count_of_job hold (Queue.covers_of_isWaiting hq), hhome]
  rfl

/-- **In every run of orderly steps every live job is in exactly one place**, in every state. -/
theorem inOnePlace_of_orderly (hrun : Run cfg (Orderly .waiting cfg) s) : InOnePlace s := by
  have h := placed_of_orderly hrun
  refine ⟨fun k job hjob hstatus => ?_, fun k job hjob hstatus => ?_, fun k job hjob hstatus => ?_,
    fun k job hjob hended => h.nowhere hjob (home_of_ended hended), ?_⟩
  · exact h.onlyIn hjob (by rw [Job.home, hstatus])
  · obtain ⟨home, hhome⟩ := Option.ne_none_iff_exists'.mp (h.held rfl k job hjob hstatus)
    have hdispatch := hhome
    rw [Job.home, hstatus] at hdispatch
    obtain ⟨targetId, hholder, rfl⟩ := Option.map_eq_some_iff.mp hdispatch
    exact ⟨targetId, (Option.filter_eq_some_iff.mp hholder).1, h.onlyIn hjob hhome⟩
  · exact h.nowhere hjob (by rw [Job.home, hstatus])
  · intro cfg workerId workerPool targetId expectedTargetKind job hclaimed
    obtain ⟨jobId, old, hlast, hold, rfl⟩ := claimDispatchJob_eq_some hclaimed
    obtain ⟨job, hjob, hhome⟩ := h.home_of_mem (.dispatch workerPool targetId) rfl
      (List.mem_of_getLast? hlast)
    rw [hold] at hjob
    obtain rfl := Option.some.inj hjob
    refine ⟨old, by rw [← hold, ← h.keyed jobId old hold]; rfl, ?_⟩
    unfold Job.home at hhome
    cases hstatus : old.status <;> rw [hstatus] at hhome <;> first | rfl | cases hhome

/-- A job without a root of its own ends no root. -/
theorem rootAway_of_none (h : job.rootJobId = none) : RootAway P s job := by
  intro rootJob hended
  rw [Redis.endedRoot, h] at hended
  cases hended

/-- Enqueued, admitted, claimed and completed: a run of orderly steps. -/
theorem inOnePlace_of_orderly_completed : InOnePlace (smallRun
    [.op (.enqueueJob smallRequest 2), .op (.tryAdmitJob 2 (.pending .chat .p1) smallTarget),
      .op (.claimDispatchJob "w" .chat "t" none), .op (.markJobCompleted 2 "hi".toList none)]) := by
  have enqueued : Run smallSettings (Orderly .waiting smallSettings)
      (smallRun [.op (.enqueueJob smallRequest 2)]) :=
    (Reached.start pristine_smallStore).step (Move.op (.enqueueJob smallRequest 2))
      ⟨fun _ => rfl, fun _ => by decide⟩
  have admitted : Run smallSettings (Orderly .waiting smallSettings)
      (smallRun [.op (.enqueueJob smallRequest 2),
        .op (.tryAdmitJob 2 (.pending .chat .p1) smallTarget)]) :=
    enqueued.step (Move.op (.tryAdmitJob 2 (.pending .chat .p1) smallTarget))
      ⟨rfl, fun _ => by decide⟩
  have claimed : Run smallSettings (Orderly .waiting smallSettings)
      (smallRun [.op (.enqueueJob smallRequest 2),
        .op (.tryAdmitJob 2 (.pending .chat .p1) smallTarget),
        .op (.claimDispatchJob "w" .chat "t" none)]) := by
    refine admitted.step (Move.op (.claimDispatchJob "w" .chat "t" none))
      fun jobId job hlast hjob => ⟨fun hP => Scope.noConfusion hP, fun _ => ?_⟩
    have hid : some 2 = some jobId := Eq.trans (by decide +kernel) hlast
    obtain rfl := Option.some.inj hid
    have hroot := forall_of_all (p := fun job => job.rootJobId = none) (by decide +kernel) job hjob
    exact rootAway_of_none (by simpa using hroot)
  refine inOnePlace_of_orderly (claimed.step (Move.op (.markJobCompleted 2 "hi".toList none))
    fun job hjob => ?_)
  have hfree := forall_of_all (p := fun job => job.home = none ∧ job.rootJobId = none)
    (by decide +kernel) job hjob
  obtain ⟨hhome, hroot⟩ : job.home = none ∧ job.rootJobId = none := by simpa using hfree
  refine ⟨fun queue hqueue => ?_, rootAway_of_none hroot⟩
  rw [hhome] at hqueue
  cases hqueue

/-- A job whose lease runs out before it is claimed is recovered, admitted again and claimed. -/
def admittedTwice : List Move :=
  [.op (.enqueueJob smallRequest 2), .op (.tryAdmitJob 2 (.pending .chat .p1) smallTarget),
    .tick 31000, .op .requeueStaleJobs,
    .op (.tryAdmitJob 2 (.pending .chat .p1) smallTarget),
    .op (.claimDispatchJob "w" .chat "t" none)]

/-- **The reaper leaves the id of an admitted job in its dispatch list**, so a job that runs on
one worker is handed to another. -/
theorem not_inOnePlace_admittedTwice :
    Run smallSettings (fun _ _ => True) (smallRun admittedTwice) ∧
      ((smallRun admittedTwice).job? 2).map Job.status = some .running ∧
      (alone (claimDispatchJob smallSettings "v" .chat "t" none) (smallRun admittedTwice)).1.map
        (fun job => job.id) = some 2 ∧
      ¬InOnePlace (smallRun admittedTwice) := by
  refine ⟨reached_smallRun admittedTwice, by decide +kernel, by decide +kernel, fun h => ?_⟩
  have hrunning := forall_of_all (p := fun job => job.status = .running)
    (by decide +kernel : ((smallRun admittedTwice).job? 2).all _ = true)
  obtain ⟨job, hjob⟩ := Option.isSome_iff_exists.mp
    (by decide +kernel : ((smallRun admittedTwice).job? 2).isSome = true)
  have hstatus : job.status = .running := by simpa using hrunning job hjob
  refine h.running 2 job hjob hstatus (.dispatch .chat "t") rfl ?_
  decide +kernel

end Gateway

end AiAgent

import AiAgent.Gateway.Moves
import AiAgent.Store.Total

/-!
# Capacity is conserved

A target keeps two kinds of counters: the fields of its usage hash and the reference counts of
its models. Each should equal the total, over the jobs that are admitted or running on the
target, of what the job reserved there (`AiAgent.Gateway.Conserved`).

The records say what is due (`AiAgent.Gateway.Job.due`), so every operation is checked against
one equation: writing a record moves the total by the new record's due less the old one's
(`AiAgent.Store.total_insert`), and the counters have to move by as much
(`AiAgent.Gateway.Ledger.write`). The operations that give capacity back rely on the record they
read. A record that has ended keeps its target and its reservation, so whoever releases by it
once more takes another job's share. `AiAgent.Gateway.Clean` names the steps that do not.
-/

namespace AiAgent

namespace Gateway

open Command Store

/-! ### Counters and what is due -/

/-- A counter of a target. -/
inductive Counter where
  /-- A field of the usage hash. -/
  | usage (field : UsageField)
  /-- The reference count of a model. -/
  | model (modelKey : String)

/-- The value of a counter. -/
def Redis.counter (s : Redis) (targetId : TargetId) : Counter → ℤ
  | .usage field => s.usage targetId field
  | .model modelKey => s.models targetId modelKey

/-- What a job adds to a counter of the target it is on. -/
def Job.weight (job : Job) : Counter → ℤ
  | .usage field => job.share field
  | .model modelKey => if modelKey = job.modelKey then 1 else 0

/-- The job is admitted or running on the target. -/
def Job.Holds (job : Job) (targetId : TargetId) : Prop :=
  (job.status = .admitted ∨ job.status = .running) ∧ job.assignedTargetId = some targetId

instance (job : Job) (targetId : TargetId) : Decidable (job.Holds targetId) :=
  inferInstanceAs (Decidable (_ ∧ _))

/-- What is due to a job on a counter of a target. -/
def Job.due (targetId : TargetId) (counter : Counter) (job : Job) : ℤ :=
  if job.Holds targetId then job.weight counter else 0

/-- **Capacity is conserved**: every counter of every target is the total of what is due on it to
the jobs that are admitted or running there. -/
def Conserved (s : Redis) : Prop :=
  ∀ targetId counter, s.counter targetId counter = total (Job.due targetId counter) s.jobs

theorem Job.weight_nonneg (job : Job) (counter : Counter) : 0 ≤ job.weight counter := by
  cases counter with
  | usage field => exact job.share_nonneg field
  | model modelKey =>
    change 0 ≤ if modelKey = job.modelKey then (1 : ℤ) else 0
    split <;> omega

theorem Job.due_nonneg (targetId : TargetId) (counter : Counter) (job : Job) :
    0 ≤ job.due targetId counter := by
  unfold Job.due
  split
  · exact job.weight_nonneg counter
  · exact le_rfl

/-! ### The invariant -/

/-- What every record keeps to: a queued job has no target, and where a target was assigned
neither it nor the model has an empty name. -/
structure Proper (job : Job) : Prop where
  /-- A queued job has no target. -/
  idle : job.status = .queued → job.assignedTargetId = none
  /-- Targets and models have names. -/
  named : ∀ targetId, job.assignedTargetId = some targetId → targetId ≠ "" ∧ job.modelKey ≠ ""

/-- The record has ended and still names a target. -/
def Job.spent (job : Job) : Bool := job.status.isTerminal && job.holder.isSome

/-- The invariant: records are found under their own ids and are proper, and capacity is
conserved. -/
structure Ledger (s : Redis) : Prop where
  /-- A record is found under its own id. -/
  keyed : ∀ k job, s.job? k = some job → job.id = k
  /-- The records are proper. -/
  proper : ∀ k job, s.job? k = some job → Proper job
  /-- Capacity is conserved. -/
  conserved : Conserved s

variable {s s' : Redis} {k : JobId} {job old new : Job} {cfg : Settings}

theorem Proper.holder_eq (h : Proper job) : job.holder = job.assignedTargetId := by
  unfold Job.holder
  cases htarget : job.assignedTargetId with
  | none => rfl
  | some targetId => simp [Option.filter, (h.named targetId htarget).1]

/-- A proper record that is not spent is due what its release gives back. -/
theorem Proper.due_eq (h : Proper job) (hspent : job.spent = false) (targetId : TargetId)
    (counter : Counter) :
    job.due targetId counter = if job.holder = some targetId then job.weight counter else 0 := by
  rw [Job.due, h.holder_eq]
  rw [Job.spent, h.holder_eq] at hspent
  refine if_congr ⟨fun hh => hh.2, fun htarget => ⟨?_, htarget⟩⟩ rfl rfl
  cases hstatus : job.status with
  | queued => rw [h.idle hstatus] at htarget; cases htarget
  | admitted => exact .inl rfl
  | running => exact .inr rfl
  | completed => simp [hstatus, htarget, Status.isTerminal] at hspent
  | failed => simp [hstatus, htarget, Status.isTerminal] at hspent
  | cancelled => simp [hstatus, htarget, Status.isTerminal] at hspent

/-- A record that has ended is due nothing. -/
theorem due_of_ended (h : job.status.isTerminal = true) (targetId : TargetId)
    (counter : Counter) : job.due targetId counter = 0 := by
  refine if_neg fun hh => ?_
  rcases hh.1 with hstatus | hstatus <;> rw [hstatus] at h <;> cases h

/-- A record without a target is due nothing. -/
theorem due_of_target (h : job.assignedTargetId = none) (targetId : TargetId)
    (counter : Counter) : job.due targetId counter = 0 :=
  if_neg fun hh => by simpa [h] using hh.2

/-- **The one equation**: a step that writes one record and moves every counter by the new
record's due less the old one's keeps the ledger. -/
theorem Ledger.write (h : Ledger s) (new : Job) (hid : new.id = k) (hproper : Proper new)
    (hjobs : s'.jobs = s.jobs.insert k new)
    (hcounter : ∀ targetId counter, s'.counter targetId counter = s.counter targetId counter -
      part (Job.due targetId counter) (s.job? k) + new.due targetId counter) : Ledger s' := by
  have hfind : ∀ j job, s'.job? j = some job → (j = k ∧ job = new) ∨ s.job? j = some job := by
    intro j job hj
    rw [Redis.job?, hjobs] at hj
    rcases eq_or_ne j k with rfl | hne
    · rw [AList.lookup_insert] at hj
      exact .inl ⟨rfl, (Option.some.inj hj).symm⟩
    · rw [AList.lookup_insert_ne hne] at hj
      exact .inr hj
  refine ⟨fun j job hj => ?_, fun j job hj => ?_, fun targetId counter => ?_⟩
  · rcases hfind j job hj with ⟨rfl, rfl⟩ | hold
    · exact hid
    · exact h.keyed j job hold
  · rcases hfind j job hj with ⟨rfl, rfl⟩ | hold
    · exact hproper
    · exact h.proper j job hold
  · rw [hcounter, h.conserved targetId counter, hjobs, total_insert]
    rfl

/-- A step that touches neither records nor counters keeps the ledger. -/
theorem Ledger.congr (h : Ledger s) (hjobs : s'.jobs = s.jobs) (husage : s'.usage = s.usage)
    (hmodels : s'.models = s.models) : Ledger s' := by
  have hjob := Redis.job?_congr hjobs
  refine ⟨fun k job hk => h.keyed k job (hjob k ▸ hk), fun k job hk =>
    h.proper k job (hjob k ▸ hk), fun targetId counter => ?_⟩
  have hcounter : s'.counter targetId counter = s.counter targetId counter := by
    cases counter <;> simp [Redis.counter, husage, hmodels]
  rw [hcounter, hjobs, h.conserved]

/-- Writing a record that is due what the old one was keeps the ledger. -/
theorem Ledger.touch (h : Ledger s) (new : Job) (hid : new.id = k) (hproper : Proper new)
    (hdue : ∀ targetId counter,
      new.due targetId counter = part (Job.due targetId counter) (s.job? k))
    (hjobs : s'.jobs = s.jobs.insert k new) (husage : s'.usage = s.usage)
    (hmodels : s'.models = s.models) : Ledger s' := by
  refine h.write new hid hproper hjobs fun targetId counter => ?_
  have hcounter : s'.counter targetId counter = s.counter targetId counter := by
    cases counter <;> simp [Redis.counter, husage, hmodels]
  rw [hcounter, hdue, sub_add_cancel]

/-! ### Giving back -/

/-- What a release does to a counter, where the counter covers what is released. -/
theorem Redis.counter_release (s : Redis) (hkey : job.holder ≠ none → job.modelKey ≠ "")
    (hcover : ∀ targetId, job.holder = some targetId → ∀ counter,
      job.weight counter ≤ s.counter targetId counter)
    (targetId : TargetId) (counter : Counter) :
    (s.release job).counter targetId counter = s.counter targetId counter -
      if job.holder = some targetId then job.weight counter else 0 := by
  cases hholder : job.holder with
  | none => simp [Redis.release, hholder]
  | some holder =>
    have hname : job.modelKey ≠ "" := hkey (by rw [hholder]; exact Option.some_ne_none holder)
    by_cases hself : targetId = holder
    · subst hself
      have hle := hcover targetId hholder counter
      rw [if_pos rfl]
      cases counter with
      | usage field =>
        simp only [Redis.counter, Job.weight, Redis.release, hholder, Function.update_self,
          Usage.less] at hle ⊢
        omega
      | model modelKey =>
        simp only [Redis.counter, Job.weight, Redis.release, hholder, Function.update_self,
          lessModel, hname, if_false] at hle ⊢
        by_cases hmodel : modelKey = job.modelKey
        · subst hmodel
          rw [if_pos rfl] at hle ⊢
          rw [Function.update_self]
          omega
        · rw [if_neg hmodel, Function.update_of_ne hmodel, sub_zero]
    · rw [if_neg fun heq => hself (Option.some.inj heq).symm, sub_zero]
      cases counter <;> simp [Redis.counter, Redis.release, hholder, hself]

/-- What is due to a record that is not spent is covered by the counters. -/
theorem Ledger.counter_release (h : Ledger s) (hold : s.job? k = some old)
    (hspent : old.spent = false) (targetId : TargetId) (counter : Counter) :
    (s.release old).counter targetId counter =
      s.counter targetId counter - old.due targetId counter := by
  have hproper := h.proper k old hold
  rw [hproper.due_eq hspent]
  refine s.counter_release (fun hne => ?_) (fun holder hholder counter => ?_) targetId counter
  · obtain ⟨holder, hholder⟩ := Option.ne_none_iff_exists'.mp hne
    exact (hproper.named holder (hproper.holder_eq ▸ hholder)).2
  · have hdue := hproper.due_eq hspent holder counter
    rw [if_pos hholder] at hdue
    rw [← hdue, h.conserved holder counter]
    have hle := part_le_total (Job.due holder counter) s.jobs (Job.due_nonneg holder counter) k
    rw [show s.jobs.lookup k = some old from hold] at hle
    exact hle

/-- **Giving back**: a record that is not spent is released and one that is due nothing is
written in its place. -/
theorem Ledger.settle (h : Ledger s) (new : Job) (hold : s.job? k = some old)
    (hspent : old.spent = false)
    (hid : new.id = k) (hproper : Proper new)
    (hdue : ∀ targetId counter, new.due targetId counter = 0)
    (hjobs : s'.jobs = s.jobs.insert k new) (husage : s'.usage = (s.release old).usage)
    (hmodels : s'.models = (s.release old).models) : Ledger s' := by
  refine h.write new hid hproper hjobs fun targetId counter => ?_
  have hcounter : s'.counter targetId counter = (s.release old).counter targetId counter := by
    cases counter <;> simp [Redis.counter, husage, hmodels]
  rw [hcounter, h.counter_release hold hspent, hold, hdue, part_some, add_zero]

/-! ### The end of a job -/

/-- The root that ends with the job, if there is one, holds nothing. -/
def RootFree (s : Redis) (job : Job) : Prop :=
  ∀ rootJob, s.endedRoot job = some rootJob → ∀ targetId, ¬rootJob.Holds targetId

/-- **The end of a job** that is not spent keeps the ledger, if its root holds nothing. -/
theorem Ledger.finish (h : Ledger s) (hold : s.job? k = some old) (hspent : old.spent = false)
    (hroot : RootFree s old) (hend : EndOf old new) {status : Status}
    (hstatus : status.isTerminal = true) (stage : LifecycleStage) (body : EventBody)
    (workerId : Option WorkerId) : Ledger (s.finish new status stage body workerId) := by
  have hid : new.id = k := hend.id.trans (h.keyed k old hold)
  have hproper : Proper new := by
    refine ⟨fun hq => ?_, fun targetId ht => ?_⟩
    · have hended := hend.ended
      rw [hq] at hended
      cases hended
    · rw [hend.model]
      exact (h.proper k old hold).named targetId (hend.target ▸ ht)
  have hdue : ∀ targetId counter, new.due targetId counter = 0 := due_of_ended hend.ended
  have hjobs := s.jobs_finish new status stage body workerId
  have husage := s.usage_finish new status stage body workerId
  have hmodels := s.models_finish new status stage body workerId
  rw [hend.endedRoot_eq] at hjobs
  cases hended : s.endedRoot old with
  | none =>
    rw [hended, hid] at hjobs
    exact h.settle new hold hspent hid hproper hdue hjobs (by rw [husage, hend.release_eq])
      (by rw [hmodels, hend.release_eq])
  | some rootJob =>
    rw [hended] at hjobs
    -- First the job itself, then the root, which was due nothing and is due nothing.
    have hmid : Ledger ((s.release old).set new) :=
      h.settle new hold hspent hid hproper hdue (by simp [hid]) rfl rfl
    obtain ⟨rootJobId, hne, -, hrootJob, -⟩ := Redis.endedRoot_eq_some hended
    have hrootId : rootJob.id = rootJobId := h.keyed rootJobId rootJob hrootJob
    have hrootJob' : ((s.release old).set new).job? rootJob.id = some rootJob := by
      rw [Redis.job?_set, if_neg (by rw [hrootId, hend.id]; exact hne), hrootId, Redis.job?,
        Redis.jobs_release]
      exact hrootJob
    have hrootEnded : (rootTerminalRecord rootJob new status stage s.clockMs).status.isTerminal =
        true := hstatus
    have hrootProper : Proper (rootTerminalRecord rootJob new status stage s.clockMs) := by
      refine ⟨fun hq => ?_, (h.proper _ _ hrootJob).named⟩
      rw [hq] at hrootEnded
      cases hrootEnded
    have hrootDue : ∀ targetId counter, rootJob.due targetId counter = 0 :=
      fun targetId counter => if_neg (hroot rootJob hended targetId)
    refine hmid.touch (k := rootJob.id) (rootTerminalRecord rootJob new status stage s.clockMs) rfl
      hrootProper (fun targetId counter => ?_)
      (by simpa using hjobs) (by rw [husage, hend.release_eq]; rfl)
      (by rw [hmodels, hend.release_eq]; rfl)
    rw [hrootJob', part_some, hrootDue]
    exact due_of_ended hrootEnded targetId counter

/-- A job that has not ended is not spent. -/
theorem spent_of_live (h : job.status.isTerminal = false) : job.spent = false := by
  rw [Job.spent, h, Bool.false_and]

theorem Ledger.failFrom (h : Ledger s) (hold : s.job? k = some old) (hspent : old.spent = false)
    (hroot : RootFree s old) (retryCount : ℕ) (errorText : Text) (workerId : Option WorkerId) :
    Ledger (s.failFrom { old with retryCount := retryCount } errorText workerId) :=
  h.finish hold hspent hroot (endOf_failedRecord old retryCount errorText s.clockMs) rfl _ _ _

theorem Ledger.cancel (h : Ledger s)
    (hroot : ∀ job, s.job? k = some job → job.status.isTerminal = false → RootFree s job)
    (workerId : Option WorkerId) : Ledger (s.cancel k workerId) := by
  unfold Redis.cancel
  cases hfilter : (s.job? k).filter fun job => job.status.isTerminal = false with
  | none => exact h
  | some old =>
    obtain ⟨hold, hlive⟩ := Option.filter_eq_some_iff.mp hfilter
    have hlive : old.status.isTerminal = false := by simpa using hlive
    exact h.finish hold (spent_of_live hlive) (hroot old hold hlive)
      (endOf_cancelledRecord old s.clockMs) rfl _ _ _

/-- Taking a job out of the list it waits in touches nothing the ledger is about. -/
theorem Ledger.withdraw (h : Ledger s) (home : Option Queue) (k : JobId) :
    Ledger (s.withdraw home k) := by
  cases home <;> exact h.congr rfl rfl rfl

theorem RootFree.withdraw (h : RootFree s job) (home : Option Queue) (k : JobId) :
    RootFree (s.withdraw home k) job := by
  cases home <;> exact h

theorem Redis.job?_withdraw (s : Redis) (home : Option Queue) (k j : JobId) :
    (s.withdraw home k).job? j = s.job? j := by
  cases home <;> rfl

/-- A withdrawn job is cancelled. -/
theorem Ledger.withdraw_cancel (h : Ledger s)
    (hroot : ∀ job, s.job? k = some job → job.status.isTerminal = false → RootFree s job)
    (home : Option Queue) (workerId : Option WorkerId) :
    Ledger ((s.withdraw home k).cancel k workerId) := by
  refine (h.withdraw home k).cancel (fun job hjob hlive => ?_) workerId
  rw [Redis.job?_withdraw] at hjob
  exact (hroot job hjob hlive).withdraw home k

/-! ### Admission -/

/-- A record with another target kind is due the same. -/
theorem Ledger.retarget (h : Ledger s) (hold : s.job? k = some old) (targetKind : TargetKind) :
    Ledger (s.set { old with targetKind := targetKind }) := by
  have hid := h.keyed k old hold
  have hproper := h.proper k old hold
  refine h.touch { old with targetKind := targetKind } hid ⟨hproper.idle, hproper.named⟩
    (fun targetId counter => ?_) (by simp [hid]) rfl rfl
  rw [hold]
  rfl

/-- **An admission** adds what is due to the admitted job. -/
theorem Ledger.admitted (h : Ledger s) (hold : s.job? k = some old) (hstatus : old.status = .queued)
    (targetKind : TargetKind) {targetId : TargetId} (htarget : targetId ≠ "")
    (hmodel : old.modelKey ≠ "") (admission : Admission) (queue : Queue) :
    Ledger ((s.lrem queue k).admitted cfg { old with targetKind := targetKind } targetId
      admission) := by
  have hid := h.keyed k old hold
  let new := admittedRecord cfg { old with targetKind := targetKind } targetId admission s.clockMs
  have hproper : Proper new := by
    refine ⟨fun hq => Status.noConfusion hq, fun t ht => ?_⟩
    rw [← Option.some.inj ht]
    exact ⟨htarget, hmodel⟩
  refine h.write new hid hproper (by simp [hid, new]; rfl) fun t counter => ?_
  rw [hold, part_some, due_of_target ((h.proper k old hold).idle hstatus), sub_zero]
  by_cases ht : t = targetId
  · subst ht
    rw [Job.due, if_pos ⟨.inl rfl, rfl⟩]
    cases counter with
    | usage field => simp [Redis.counter, Redis.addShare, Job.weight, new]; rfl
    | model modelKey =>
      by_cases hkey : modelKey = old.modelKey
      · subst hkey
        simp [Redis.counter, Redis.hincrbyModel, Job.weight, new, admittedRecord]
      · simp [Redis.counter, Redis.hincrbyModel, Job.weight, new, admittedRecord, hkey]
  · rw [Job.due, if_neg fun hh => ht (Option.some.inj hh.2).symm, add_zero]
    cases counter <;> simp [Redis.counter, Redis.addShare, Redis.hincrbyModel, ht]

theorem Ledger.evaluate (h : Ledger s) (hold : s.job? k = some old) (hstatus : old.status = .queued)
    (targetKind : TargetKind) {target : Target} (htarget : target.targetId ≠ "")
    (hmodel : old.modelKey ≠ "") (queue : Queue) :
    Ledger (s.evaluate cfg { old with targetKind := targetKind } queue target) := by
  obtain rfl := h.keyed k old hold
  unfold Redis.evaluate
  split
  · exact h
  · split
    · exact h.admitted hold hstatus targetKind htarget hmodel _ queue
    · exact h.congr rfl rfl rfl

theorem Ledger.tryAdmit (h : Ledger s) (k : JobId) (queue : Queue) {target : Target}
    (htarget : target.targetId ≠ "") (hmodel : ∀ job, s.job? k = some job → job.modelKey ≠ "") :
    Ledger (s.tryAdmit cfg k queue target) := by
  unfold Redis.tryAdmit
  cases hfilter : (s.job? k).filter fun job => job.status = .queued with
  | none => exact h
  | some original =>
    obtain ⟨hold, hstatus⟩ := Option.filter_eq_some_iff.mp hfilter
    have hstatus : original.status = .queued := by simpa using hstatus
    obtain ⟨targetKind, hkind⟩ := s.downgraded_eq original
    simp only [hkind]
    split
    · -- The downgrade was saved first.
      have hsaved : (s.set { original with targetKind := targetKind }).job? k =
          some { original with targetKind := targetKind } := by
        rw [Redis.job?_set, if_pos (h.keyed k original hold).symm]
      exact (h.retarget hold targetKind).evaluate hsaved hstatus targetKind htarget
        (hmodel original hold) queue
    · exact h.evaluate hold hstatus targetKind htarget (hmodel original hold) queue

/-! ### Claims, renewals and returns to a pending list -/

/-- A record in which nothing is reserved takes the place of one that was released. -/
theorem Ledger.unassign (h : Ledger s) (new : Job) (hold : s.job? k = some old)
    (hspent : old.spent = false)
    (hid : new.id = old.id) (htarget : new.assignedTargetId = none)
    (hjobs : s'.jobs = s.jobs.insert k new) (husage : s'.usage = (s.release old).usage)
    (hmodels : s'.models = (s.release old).models) : Ledger s' := by
  refine h.settle new hold hspent (hid.trans (h.keyed k old hold)) ⟨fun _ => htarget,
    fun t ht => ?_⟩
    (due_of_target htarget) hjobs husage hmodels
  rw [htarget] at ht
  cases ht

/-- Writing a record with the same target, model, status and share keeps the ledger. -/
theorem Ledger.resave (h : Ledger s) (hold : s.job? k = some old) (new : Job)
    (hid : new.id = old.id) (hstatus : new.status = old.status)
    (htarget : new.assignedTargetId = old.assignedTargetId) (hmodel : new.modelKey = old.modelKey)
    (hshare : new.share = old.share) (hjobs : s'.jobs = s.jobs.insert k new)
    (husage : s'.usage = s.usage) (hmodels : s'.models = s.models) : Ledger s' := by
  have hproper := h.proper k old hold
  refine h.touch new (hid.trans (h.keyed k old hold)) ⟨fun hq => ?_, fun t ht => ?_⟩
    (fun targetId counter => ?_) hjobs husage hmodels
  · rw [htarget]
    exact hproper.idle (hstatus ▸ hq)
  · rw [hmodel]
    exact hproper.named t (htarget ▸ ht)
  · have hholds : new.Holds targetId ↔ old.Holds targetId := by
      unfold Job.Holds
      rw [hstatus, htarget]
    have hweight : new.weight counter = old.weight counter := by
      cases counter <;> simp [Job.weight, hshare, hmodel]
    rw [hold, part_some, Job.due, Job.due, hweight]
    exact if_congr hholds rfl rfl

/-- A job that holds nothing goes back to its pending list. -/
theorem Ledger.requeue (h : Ledger s) (hold : s.job? k = some old)
    (hfree : ∀ targetId, ¬old.Holds targetId) (reason : String) :
    Ledger (s.requeue old reason) := by
  obtain rfl := h.keyed k old hold
  obtain ⟨targetKind, hjobs⟩ := s.jobs_requeue old reason
  refine h.touch (k := old.id) (requeuedRecord { old with targetKind := targetKind } s.clockMs) rfl
    ⟨fun _ => rfl, fun t ht => by cases ht⟩ (fun targetId counter => ?_) hjobs (by simp) (by simp)
  rw [hold, part_some, due_of_target rfl, Job.due, if_neg (hfree targetId)]

/-- The claim of a record that is not spent. -/
theorem Ledger.claim (h : Ledger s) (hold : s.job? k = some old) (hspent : old.spent = false)
    (hroot : old.deadlineAt ≠ 0 ∧ old.deadlineAt ≤ s.clockMs / 1000 → RootFree s old)
    (workerId : WorkerId) (targetId : TargetId) (expectedTargetKind : Option Text) :
    Ledger (s.claim cfg workerId targetId expectedTargetKind old) := by
  obtain rfl := h.keyed k old hold
  have hproper := h.proper old.id old hold
  unfold Redis.claim
  split
  · -- Refused: released, and back to the pending list.
    obtain ⟨targetKind, hjobs⟩ := Redis.jobs_requeue
      (((s.lrem (.processing workerId) old.id).release old).zrem old.id) old "target_kind_mismatch"
    rw [Redis.jobs_zrem, Redis.jobs_release, Redis.jobs_lrem] at hjobs
    refine h.unassign _ hold hspent ?_ ?_ hjobs (by simp [Redis.usage_release])
      (by simp [Redis.models_release]) <;> rfl
  · split
    · next hdeadline =>
      rw [hold]
      exact h.failFrom hold hspent (hroot hdeadline) old.retryCount _ _
    · -- Running: a record that is not spent and names a target was admitted or running before.
      let new := runningRecord cfg old workerId s.clockMs
      have hnew : Proper new := ⟨fun hq => Status.noConfusion hq, hproper.named⟩
      refine h.touch (k := old.id) new rfl hnew (fun t counter => ?_) (by simp [new, runningRecord])
        (by simp) (by simp)
      have hholder : new.holder = old.holder := rfl
      have hweight : new.weight counter = old.weight counter := by cases counter <;> rfl
      rw [hold, part_some, hnew.due_eq rfl, hproper.due_eq hspent, hholder, hweight]

theorem Ledger.renew (h : Ledger s) (k : JobId) : Ledger (s.renew cfg k) := by
  unfold Redis.renew
  split
  · exact h
  · next job hfilter =>
    obtain ⟨hold, -⟩ := Option.filter_eq_some_iff.mp hfilter
    obtain rfl := h.keyed k job hold
    exact h.resave hold { job with leaseUntil := some (s.clockMs / 1000 + cfg.jobLeaseSeconds) } rfl
      rfl rfl rfl rfl (by simp) rfl rfl

theorem Ledger.wait (h : Ledger s) (hspent : ∀ job, s.job? k = some job → job.spent = false)
    (childJobId : JobId) (stage : LifecycleStage) (updates : ParserMetadata)
    (workerId : Option WorkerId) : Ledger (s.wait k childJobId stage updates workerId) := by
  unfold Redis.wait
  cases hold : s.job? k with
  | none => exact h
  | some old =>
    obtain rfl := h.keyed k old hold
    exact h.unassign (waitingRecord old childJobId stage updates) hold (hspent old hold) rfl rfl
      (by simp [waitingRecord]) (by simp [Redis.usage_release]) (by simp [Redis.models_release])

/-! ### The reaper -/

theorem Ledger.recover (h : Ledger s) (hold : s.job? k = some old)
    (hlive : old.status.isTerminal = false) (retryCount : ℕ) :
    Ledger (s.recover old retryCount) := by
  obtain rfl := h.keyed k old hold
  obtain ⟨targetKind, hjobs⟩ := s.jobs_recover old retryCount
  refine h.unassign _ hold (spent_of_live hlive) ?_ ?_ hjobs (by simp) (by simp) <;> rfl

theorem live_of_reapTakes {now : ℕ} (h : reapTakes now job = true) :
    job.status.isTerminal = false := by
  cases hstatus : job.status.isTerminal with
  | false => rfl
  | true => rw [reapTakes, hstatus] at h; cases h

/-- The reaper ends the job: it takes it, and cancels it or gives it up. -/
def reapEnds (cfg : Settings) (now : ℕ) (job : Job) : Bool :=
  reapTakes now job && (cancelsStale job || reapFails cfg now job)

theorem Ledger.reaped (h : Ledger s) {now : ℕ} (hreaped : s.Reaped cfg now k s')
    (hroot : ∀ job, s.job? k = some job → reapEnds cfg now job = true → RootFree s job) :
    Ledger s' := by
  cases hreaped with
  | dropped => exact h.congr rfl rfl rfl
  | same => exact h
  | cancelled job hjob htakes hstale =>
    obtain rfl := h.keyed k job hjob
    refine h.withdraw_cancel (fun job' hjob' _ => ?_) _ _
    rw [hjob] at hjob'
    rw [← Option.some.inj hjob']
    exact hroot job hjob (by simp [reapEnds, htakes, hstale])
  | failed job retryCount errorText hjob htakes hstale hfails =>
    exact h.failFrom hjob (spent_of_live (live_of_reapTakes htakes))
      (hroot job hjob (by simp [reapEnds, htakes, hfails])) _ _ _
  | recovered job hjob htakes hstale hfails =>
    exact h.recover hjob (live_of_reapTakes htakes) _

/-- Every id the reaper goes through is, when its turn comes, not the child of a live root that
still holds a reservation, or the reaper does not end it. -/
def ReapsClean (cfg : Settings) (now : ℕ) : List JobId → Redis → Prop
  | [], _ => True
  | jobId :: jobIds, s =>
    (∀ job, s.job? jobId = some job → reapEnds cfg now job = true → RootFree s job) ∧
      ReapsClean cfg now jobIds (s.reap cfg now jobId)

theorem Ledger.reapAll (h : Ledger s) (now : ℕ) (jobIds : List JobId)
    (hclean : ReapsClean cfg now jobIds s) : Ledger (s.reapAll cfg now jobIds) := by
  induction jobIds generalizing s with
  | nil => exact h
  | cons jobId jobIds ih => exact ih (h.reaped (s.reaped cfg now jobId) hclean.1) hclean.2

/-! ### Cancelling, linking, enqueueing -/

theorem Ledger.stopped (h : Ledger s) (hstopped : s.Stopped k s')
    (hroot : ∀ j job, (s.Below k j ∧ (j = k → job.cancelRequested = false)) →
      s.job? j = some job → job.home ≠ none → RootFree s job) : Ledger s' := by
  cases hstopped with
  | same => exact h
  | withdrawn j job hbelow hjob hhome =>
    refine h.withdraw_cancel (fun job' hjob' _ => ?_) _ _
    rw [hjob] at hjob'
    rw [← Option.some.inj hjob']
    exact hroot j job hbelow hjob hhome
  | flagged j job hbelow hjob hstatus hhome =>
    obtain rfl := h.keyed j job hjob
    exact h.resave hjob { job with cancelRequested := true } rfl rfl rfl rfl rfl (by simp)
      (by simp) (by simp)

/-- A fresh record under an id that has none is due nothing. -/
theorem Ledger.push (h : Ledger s) (a : EnqueueArgs) (hnew : s.job? k = none)
    (modelInfo : ModelInfo) (targetKind : TargetKind) (nowMs : ℕ) :
    Ledger (s.push (newJob cfg a k modelInfo targetKind nowMs)) := by
  refine h.touch (k := k) (newJob cfg a k modelInfo targetKind nowMs) rfl
    ⟨fun _ => rfl, fun t ht => by cases ht⟩ (fun targetId counter => ?_) rfl rfl rfl
  rw [hnew, part_none, due_of_target rfl]

theorem Ledger.link (h : Ledger s) (hold : s.job? k = some old) (childJobId : JobId) :
    Ledger (s.set { old with childJobId := some childJobId }) := by
  obtain rfl := h.keyed k old hold
  exact h.resave hold { old with childJobId := some childJobId } rfl rfl rfl rfl rfl (by simp) rfl
    rfl

theorem Ledger.linked (h : Ledger s) (hlinked : s.Linked s') : Ledger s' := by
  cases hlinked with
  | same => exact h
  | linked rootJob rootJobId childJobId hroot => exact h.link hroot childJobId
  | created cfg a rootJob rootJobId childJobId modelInfo targetKind hroot hchild _ =>
    refine (h.push a hchild modelInfo targetKind s.clockMs).link (k := rootJobId) ?_ childJobId
    have hne : rootJobId ≠ childJobId := by
      rintro rfl
      rw [hroot] at hchild
      cases hchild
    rw [Redis.job?_push, if_neg (by simpa [newJob] using hne), hroot]

theorem Ledger.enqueue (h : Ledger s) (a : EnqueueArgs) (uuid : JobId)
    (hnew : a.jobIdOverride = none → s.job? uuid = none) :
    Ledger (alone (enqueueJob cfg a uuid) s).2 := by
  rcases enqueueJob_cases cfg a uuid s hnew with hsame | ⟨k, modelInfo, targetKind, hnone, hpush, -⟩
  · rw [hsame]
    exact h
  · rw [hpush]
    exact h.push a hnone modelInfo targetKind s.clockMs

theorem Ledger.claimed (h : Ledger s) {workerId : WorkerId} {workerPool : WorkerPool}
    {targetId : TargetId} {expectedTargetKind : Option Text}
    (hclaimed : s.Claimed cfg workerId workerPool targetId expectedTargetKind s')
    (hpop : ∀ jobId job, (s.queues (.dispatch workerPool targetId)).getLast? = some jobId →
      s.job? jobId = some job → job.spent = false ∧
        (job.deadlineAt ≠ 0 ∧ job.deadlineAt ≤ s.clockMs / 1000 → RootFree s job)) :
    Ledger s' := by
  cases hclaimed with
  | same => exact h
  | dropped jobId queues hlast _ hnone => exact h.congr rfl rfl rfl
  | found jobId job queues hlast _ hjob =>
    have hpopped : Ledger { s with queues := queues } := h.congr rfl rfl rfl
    obtain ⟨hspent, hroot⟩ := hpop jobId job hlast hjob
    exact hpopped.claim hjob hspent hroot workerId targetId expectedTargetKind

/-! ### Runs -/

/-- The steps that are taken on a record that has not been settled already:

* no end of a job is reported, claimed or put to wait once its record has ended and still names
  the target it was released from;
* no child ends while its root, still live, holds a reservation of its own;
* what is admitted has a model with a name, and goes to a target with a name;
* `requeue_job_for_pending` is called, as `claim_dispatch_job` does it, for a job whose
  reservation was released.

A new id is one no record has, and records do not expire. -/
def Clean (cfg : Settings) (s : Redis) : Move → Prop
  | .op (.enqueueJob a uuid) => a.jobIdOverride = none → s.job? uuid = none
  | .op (.tryAdmitJob jobId _ target) =>
    target.targetId ≠ "" ∧ ∀ job, s.job? jobId = some job → job.modelKey ≠ ""
  | .op (.claimDispatchJob _ workerPool targetId _) =>
    ∀ jobId job, (s.queues (.dispatch workerPool targetId)).getLast? = some jobId →
      s.job? jobId = some job → job.spent = false ∧
        (job.deadlineAt ≠ 0 ∧ job.deadlineAt ≤ s.clockMs / 1000 → RootFree s job)
  | .op (.cancelJob jobId username) => ∀ k job, s.Withdraws jobId username k job → RootFree s job
  | .op (.markJobCompleted jobId _ _) | .op (.markJobFailed jobId _ _) =>
    ∀ job, s.job? jobId = some job → job.spent = false ∧ RootFree s job
  | .op (.markJobCancelled jobId _) =>
    ∀ job, s.job? jobId = some job → job.status.isTerminal = false → RootFree s job
  | .op (.markJobWaitingOnChild jobId _ _ _ _) =>
    ∀ job, s.job? jobId = some job → job.spent = false
  | .op (.requeueJobForPending jobId _) =>
    ∀ job, s.job? jobId = some job → ∀ targetId, ¬job.Holds targetId
  | .op .requeueStaleJobs => ReapsClean cfg s.now (s.zrangebyscore s.now) s
  | .expire _ => False
  | _ => True

/-- A clean step keeps the ledger. -/
theorem Ledger.step (h : Ledger s) (m : Move) (hm : Clean cfg s m) : Ledger (m.apply cfg s) := by
  cases m with
  | tick ms => exact h.congr rfl rfl rfl
  | report targets workers catalog => exact h.congr rfl rfl rfl
  | expire jobId => exact hm.elim
  | op o =>
    cases o with
    | enqueueJob a uuid =>
      rw [apply_enqueueJob]
      exact h.enqueue a uuid hm
    | enqueueChildJobOnce rootJobId prepared =>
      exact h.linked (linked_apply_enqueueChildJobOnce cfg s rootJobId prepared)
    | getLinkedChildJobId rootJobId =>
      exact h.linked (linked_apply_getLinkedChildJobId cfg s rootJobId)
    | tryAdmitJob jobId queue target =>
      rw [apply_tryAdmitJob]
      exact h.tryAdmit jobId queue hm.1 hm.2
    | claimDispatchJob workerId workerPool targetId expectedTargetKind =>
      rw [apply_claimDispatchJob]
      exact h.claimed (s.claimed cfg workerId workerPool targetId expectedTargetKind) hm
    | renewJobLease jobId =>
      rw [apply_renewJobLease]
      exact h.renew jobId
    -- A cancel in a wrong name changes nothing; otherwise the condition is about the jobs below.
    | cancelJob jobId username =>
      by_cases hforbids : ∃ root, s.job? jobId = some root ∧ root.Forbids username
      · obtain ⟨root, hroot, hforbidden⟩ := hforbids
        rw [apply_cancelJob_of_forbids cfg s hroot hforbidden]
        exact h
      · push Not at hforbids
        exact h.stopped (stopped_apply_cancelJob cfg s jobId username)
          fun k job hbelow hjob hhome => hm k job ⟨hbelow.1, hjob, hhome, hbelow.2, hforbids⟩
    | markJobCompleted jobId responseText workerId =>
      rw [apply_markJobCompleted]
      cases hold : s.job? jobId with
      | none => exact h
      | some job =>
        exact h.finish hold (hm job hold).1 (hm job hold).2 (endOf_completedRecord job _ _)
          rfl _ _ _
    | markJobFailed jobId errorText workerId =>
      rw [apply_markJobFailed]
      cases hold : s.job? jobId with
      | none => exact h
      | some job => exact h.failFrom hold (hm job hold).1 (hm job hold).2 job.retryCount _ _
    | markJobCancelled jobId workerId =>
      rw [apply_markJobCancelled]
      exact h.cancel hm workerId
    | markJobWaitingOnChild jobId childJobId stage updates workerId =>
      rw [apply_markJobWaitingOnChild]
      exact h.wait hm childJobId stage updates workerId
    | requeueJobForPending jobId reason =>
      rw [apply_requeueJobForPending]
      cases hold : s.job? jobId with
      | none => exact h
      | some job => exact h.requeue hold (hm job hold) reason
    | requeueStaleJobs =>
      rw [apply_requeueStaleJobs]
      exact h.reapAll _ _ hm

theorem Ledger.pristine (h : Pristine s) : Ledger s := by
  obtain ⟨targets, workers, catalog, clockMs, rfl⟩ := h
  constructor
  · rintro k job ⟨⟩
  · rintro k job ⟨⟩
  · intro targetId counter
    cases counter <;> rfl

/-- **Capacity conservation.** In every run of clean steps every counter of every target is, in
every state, the total of what is due to the jobs that are admitted or running there. -/
theorem conserved_of_clean (h : Run cfg (Clean cfg) s) : Conserved s :=
  (h.invariant (fun _ => Ledger.pristine) fun _ m hs hm => hs.step m hm).conserved

/-- Enqueued, admitted and completed: a run of clean steps. -/
theorem conserved_of_clean_completed : Conserved (smallRun
    [.op (.enqueueJob smallRequest 2), .op (.tryAdmitJob 2 (.pending .chat .p1) smallTarget),
      .op (.markJobCompleted 2 "hi".toList none)]) := by
  have enqueued : Run smallSettings (Clean smallSettings)
      (smallRun [.op (.enqueueJob smallRequest 2)]) :=
    (Reached.start pristine_smallStore).step (Move.op (.enqueueJob smallRequest 2)) fun _ => rfl
  have admitted : Run smallSettings (Clean smallSettings)
      (smallRun [.op (.enqueueJob smallRequest 2),
        .op (.tryAdmitJob 2 (.pending .chat .p1) smallTarget)]) := by
    refine enqueued.step (Move.op (.tryAdmitJob 2 (.pending .chat .p1) smallTarget))
      ⟨by decide, fun job hjob => ?_⟩
    have hmodel := forall_of_all (p := fun job => job.modelKey ≠ "") (by decide +kernel) job hjob
    simpa using hmodel
  refine conserved_of_clean (admitted.step (Move.op (.markJobCompleted 2 "hi".toList none))
    fun job hjob => ?_)
  have hfree := forall_of_all (p := fun job => job.spent = false ∧ job.rootJobId = none)
    (by decide +kernel) job hjob
  obtain ⟨hspent, hroot⟩ : job.spent = false ∧ job.rootJobId = none := by simpa using hfree
  refine ⟨hspent, fun rootJob hended => ?_⟩
  rw [Redis.endedRoot, hroot] at hended
  cases hended

/-- A worker's report of a job the reaper has failed. -/
def lateCompletion : List Move :=
  [.op (.enqueueJob smallRequest 2), .op (.tryAdmitJob 2 (.pending .chat .p1) smallTarget),
    .op (.claimDispatchJob "w" .chat "t" none), .tick 500000,
    .op (.enqueueJob smallRequest 4), .op (.tryAdmitJob 4 (.pending .chat .p1) smallTarget),
    .op .requeueStaleJobs, .op (.markJobCompleted 2 "hi".toList (some "w"))]

/-- **A late report releases what was released before**: after it the target shows no active job
while a job is admitted on it. -/
theorem not_conserved_lateCompletion :
    Run smallSettings (fun _ _ => True) (smallRun lateCompletion) ∧
      ¬Conserved (smallRun lateCompletion) := by
  refine ⟨reached_smallRun lateCompletion, fun h => ?_⟩
  have hactive : (smallRun lateCompletion).counter "t" (.usage .activeJobs) = 0 := by
    decide +kernel
  have hdue : total (Job.due "t" (.usage .activeJobs)) (smallRun lateCompletion).jobs = 1 := by
    decide +kernel
  rw [h, hdue] at hactive
  cases hactive

end Gateway

end AiAgent

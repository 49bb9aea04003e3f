import AiAgent.Command.Atomic
import AiAgent.Gateway.Solo

/-!
# What the operations do as whole steps

For each operation of the gateway that takes a decision, the state it leaves when it is run
alone, in closed form: `AiAgent.Gateway.Redis.admitted`, `claim`, `requeue`, `recover`, `reap`,
`wait`, `stop` (which is `cancel_job`).
-/

namespace AiAgent

namespace Gateway

open Command

/-! ### Admission -/

/-- What `_evaluate_target_admission` answers. -/
def Redis.admission (s : Redis) (cfg : Settings) (job : Job) (target : Target) :
    Option Admission :=
  (alone (evaluateTargetAdmission cfg job target (s.usage target.targetId)) s).1

/-- The decision looks at the target and changes nothing. -/
@[simp] theorem alone_evaluateTargetAdmission (cfg : Settings) (job : Job) (target : Target)
    (s : Redis) :
    alone (evaluateTargetAdmission cfg job target (s.usage target.targetId)) s =
      (s.admission cfg job target, s) := by
  refine Prod.ext rfl ?_
  unfold evaluateTargetAdmission
  dsimp only
  split
  · rfl
  · split
    · rfl
    · rw [alone_bind, alone_hgetModel]
      split <;> rfl

/-- `try_admit_job` from the reservation on. -/
def Redis.admitted (s : Redis) (cfg : Settings) (job : Job) (targetId : TargetId)
    (admission : Admission) : Redis :=
  let admitted := admittedRecord cfg job targetId admission s.clockMs
  (((((s.addShare targetId 1 admitted).hincrbyModel targetId job.modelKey 1).set admitted).zadd
    job.id (s.clockMs / 1000 + cfg.jobLeaseSeconds)).rpush
      (.dispatch job.workerPool targetId) job.id).emit job.id
        (Event.of job.id (.admitted targetId admission.reservedTokens))

/-- One after the other: the reservation, the record, the lease, the dispatch list, the event. -/
@[simp] theorem alone_admitJob (cfg : Settings) (job : Job) (targetId : TargetId)
    (admission : Admission) (s : Redis) :
    alone (admitJob cfg job targetId admission) s =
      ((), s.admitted cfg job targetId admission) := by
  have hwrites := s.writes_reservation targetId 1
    (admittedRecord cfg job targetId admission s.clockMs)
  simp only [admittedRecord] at hwrites
  simp only [admitJob, alone_bind, alone_write, Redis.writes_append, hwrites, alone_time,
    alone_saveJob, alone_emitEvent, Redis.writes_cons, Redis.writes_nil, Redis.write]
  rfl

section Admitted

variable (s : Redis) (cfg : Settings) (job : Job) (targetId : TargetId) (admission : Admission)

/-- Only the record of the admitted job is changed. -/
@[simp] theorem Redis.jobs_admitted : (s.admitted cfg job targetId admission).jobs =
    s.jobs.insert job.id (admittedRecord cfg job targetId admission s.clockMs) := by
  simp [Redis.admitted, admittedRecord, addShare, hincrbyModel]

/-- The id comes to the end of one dispatch list. -/
@[simp] theorem Redis.queues_admitted : (s.admitted cfg job targetId admission).queues =
    Function.update s.queues (.dispatch job.workerPool targetId)
      (s.queues (.dispatch job.workerPool targetId) ++ [job.id]) := by
  simp [Redis.admitted, admittedRecord, rpush, addShare, hincrbyModel]

/-- The target is charged with what the record says is reserved. -/
@[simp] theorem Redis.usage_admitted : (s.admitted cfg job targetId admission).usage =
    (s.addShare targetId 1 (admittedRecord cfg job targetId admission s.clockMs)).usage := by
  simp [Redis.admitted, hincrbyModel]

/-- The model counts one job more on the target. -/
@[simp] theorem Redis.models_admitted : (s.admitted cfg job targetId admission).models =
    (s.hincrbyModel targetId job.modelKey 1).models := by
  simp [Redis.admitted, hincrbyModel, addShare]

end Admitted

/-- `try_admit_job` from the evaluation on. -/
def Redis.evaluate (s : Redis) (cfg : Settings) (job : Job) (queue : Queue) (target : Target) :
    Redis :=
  match s.admission cfg job target with
  | none => s
  | some admission =>
    if job.id ∈ s.queues queue then
      (s.lrem queue job.id).admitted cfg job target.targetId admission
    else s.lrem queue job.id

/-- A job that does not fit, or is not in the queue, changes nothing. -/
theorem alone_evaluateAndAdmit (cfg : Settings) (job : Job) (queue : Queue) (target : Target)
    (s : Redis) :
    (alone (evaluateAndAdmit cfg job queue target) s).2 = s.evaluate cfg job queue target := by
  simp only [evaluateAndAdmit, alone_bind, alone_hgetallUsage, alone_evaluateTargetAdmission,
    Redis.evaluate]
  cases s.admission cfg job target with
  | none => rfl
  | some admission => by_cases hmem : job.id ∈ s.queues queue <;> simp [hmem]

/-- `try_admit_job`. -/
def Redis.tryAdmit (s : Redis) (cfg : Settings) (jobId : JobId) (queue : Queue)
    (target : Target) : Redis :=
  match (s.job? jobId).filter fun job => job.status = .queued with
  | none => s
  | some original =>
    let job := s.downgraded original
    if job.targetKind ≠ original.targetKind then (s.set job).evaluate cfg job queue target
    else s.evaluate cfg job queue target

/-- The lock is given back, so only what is done under it is seen. -/
theorem alone_tryAdmitJob (cfg : Settings) (jobId : JobId) (queue : Queue) (target : Target)
    (s : Redis) :
    (alone (tryAdmitJob cfg jobId queue target) s).2 = s.tryAdmit cfg jobId queue target := by
  simp only [tryAdmitJob, alone_withLock, alone_bind, alone_getJob, Redis.tryAdmit]
  cases hjob : s.job? jobId with
  | none => rfl
  | some original =>
    by_cases hstatus : original.status = .queued
    · by_cases hkind : (s.downgraded original).targetKind = original.targetKind <;>
        simp [hstatus, hkind, Option.filter, alone_evaluateAndAdmit]
    · simp [hstatus, Option.filter]

/-! ### Claiming and renewing -/

/-- `requeue_job_for_pending`. -/
def Redis.requeue (s : Redis) (job : Job) (reason : String) : Redis :=
  ((s.set (requeuedRecord (s.downgraded job) s.clockMs)).rpush
    (.pending (s.downgraded job).workloadClass (s.downgraded job).priority)
      (s.downgraded job).id).emit (s.downgraded job).id
        (Event.of (s.downgraded job).id (.requeued reason))

/-- The record comes before the push. -/
@[simp] theorem alone_requeueJobForPending (job : Job) (reason : String) (s : Redis) :
    alone (requeueJobForPending job reason) s = ((), s.requeue job reason) := by
  simp [requeueJobForPending, Redis.requeue, Redis.write]

section Requeue

variable (s : Redis) (job : Job) (reason : String)

/-- Only the record of the job is changed; it may be downgraded. -/
theorem Redis.jobs_requeue : ∃ targetKind, (s.requeue job reason).jobs =
    s.jobs.insert job.id (requeuedRecord { job with targetKind := targetKind } s.clockMs) := by
  obtain ⟨targetKind, hkind⟩ := s.downgraded_eq job
  refine ⟨targetKind, ?_⟩
  simp [Redis.requeue, hkind, requeuedRecord]

/-- The id comes to the end of the pending list of the job. -/
theorem Redis.queues_requeue : (s.requeue job reason).queues =
    Function.update s.queues (.pending job.workloadClass job.priority)
      (s.queues (.pending job.workloadClass job.priority) ++ [job.id]) := by
  obtain ⟨targetKind, hkind⟩ := s.downgraded_eq job
  simp [Redis.requeue, hkind, rpush]

/-- No reservation is touched by a requeue. -/
@[simp] theorem Redis.usage_requeue : (s.requeue job reason).usage = s.usage := by
  simp [Redis.requeue]

@[simp] theorem Redis.models_requeue : (s.requeue job reason).models = s.models := by
  simp [Redis.requeue]

end Requeue

/-- `claim_dispatch_job` once a record was found for the id. -/
def Redis.claim (s : Redis) (cfg : Settings) (workerId : WorkerId) (targetId : TargetId)
    (expectedTargetKind : Option Text) (job : Job) : Redis :=
  if expectedTargetKind.any (fun kind => job.targetKind ≠ normalizeTargetKind (some kind)) then
    (((s.lrem (.processing workerId) job.id).release job).zrem job.id).requeue job
      "target_kind_mismatch"
  else if job.deadlineAt ≠ 0 ∧ job.deadlineAt ≤ s.clockMs / 1000 then
    match s.job? job.id with
    | none => s
    | some job => s.failFrom job deadlineExceededError (some workerId)
  else
    ((s.set (runningRecord cfg job workerId s.clockMs)).zadd job.id
      (s.clockMs / 1000 + cfg.jobLeaseSeconds)).emit job.id (Event.of job.id (.running targetId))

/-- The three ends of a claim: the job is sent back, failed, or started. -/
theorem alone_claimJob (cfg : Settings) (workerId : WorkerId) (targetId : TargetId)
    (expectedTargetKind : Option Text) (job : Job) (s : Redis) :
    (alone (claimJob cfg workerId targetId expectedTargetKind job) s).2 =
      s.claim cfg workerId targetId expectedTargetKind job := by
  by_cases hkind : expectedTargetKind.any
      (fun kind => decide (job.targetKind ≠ normalizeTargetKind (some kind))) = true
  · simp only [claimJob, Redis.claim, hkind, if_true]
    simp [Redis.write]
  · by_cases hdeadline : job.deadlineAt ≠ 0 ∧ job.deadlineAt ≤ s.clockMs / 1000
    · simp only [claimJob, Redis.claim, hkind, hdeadline, Bool.false_eq_true, if_false,
        alone_bind, alone_time]
      rcases hjob : s.job? job.id with _ | found
      · simp [hdeadline, hjob]
      · simp [hdeadline, hjob]
    · simp only [claimJob, Redis.claim, hkind, hdeadline, Bool.false_eq_true, if_false,
        alone_bind, alone_time]
      simp [Redis.write]

section Pop

variable (s : Redis) (source destination : Queue)

/-- What is popped is the last of the list. -/
theorem Redis.fst_brpoplpush :
    (s.brpoplpush source destination).1 = (s.queues source).getLast? := by
  unfold Redis.brpoplpush
  split <;> simp_all

/-- The pop moves an id between lists and touches nothing else. -/
theorem Redis.brpoplpush_eq :
    ∃ queues, (s.brpoplpush source destination).2 = { s with queues := queues } := by
  unfold Redis.brpoplpush
  split <;> exact ⟨_, rfl⟩

end Pop

/-- `claim_dispatch_job`. -/
def Redis.claimDispatch (s : Redis) (cfg : Settings) (workerId : WorkerId)
    (workerPool : WorkerPool) (targetId : TargetId) (expectedTargetKind : Option Text) : Redis :=
  match s.brpoplpush (.dispatch workerPool targetId) (.processing workerId) with
  | (none, s) => s
  | (some jobId, s) =>
    match s.job? jobId with
    | none => s.lrem (.processing workerId) jobId
    | some job => s.claim cfg workerId targetId expectedTargetKind job

/-- An id without a record leaves the processing list again. -/
theorem alone_claimDispatchJob (cfg : Settings) (workerId : WorkerId) (workerPool : WorkerPool)
    (targetId : TargetId) (expectedTargetKind : Option Text) (s : Redis) :
    (alone (claimDispatchJob cfg workerId workerPool targetId expectedTargetKind) s).2 =
      s.claimDispatch cfg workerId workerPool targetId expectedTargetKind := by
  simp only [claimDispatchJob, alone_bind, alone_brpoplpush, Redis.claimDispatch]
  obtain ⟨popped, s'⟩ := s.brpoplpush (.dispatch workerPool targetId) (.processing workerId)
  cases popped with
  | none => rfl
  | some jobId =>
    simp only [alone_bind, alone_getJob]
    cases s'.job? jobId with
    | none => rfl
    | some job => exact alone_claimJob cfg workerId targetId expectedTargetKind job s'

/-- **What `claim_dispatch_job` can do**: nothing, where the list is empty; drop an id that has no
record; or go on with the record of the id it popped. -/
inductive Redis.Claimed (s : Redis) (cfg : Settings) (workerId : WorkerId)
    (workerPool : WorkerPool) (targetId : TargetId) (expectedTargetKind : Option Text) :
    Redis → Prop
  /-- The list is empty. -/
  | same : Claimed s cfg workerId workerPool targetId expectedTargetKind s
  /-- The id has no record. -/
  | dropped (jobId : JobId) (queues : Queue → List JobId)
      (hlast : (s.queues (.dispatch workerPool targetId)).getLast? = some jobId)
      (hpop : (s.brpoplpush (.dispatch workerPool targetId) (.processing workerId)).2 =
        { s with queues := queues }) (hnone : s.job? jobId = none) :
      Claimed s cfg workerId workerPool targetId expectedTargetKind
        (Redis.lrem { s with queues := queues } (.processing workerId) jobId)
  /-- The id has a record. -/
  | found (jobId : JobId) (job : Job) (queues : Queue → List JobId)
      (hlast : (s.queues (.dispatch workerPool targetId)).getLast? = some jobId)
      (hpop : (s.brpoplpush (.dispatch workerPool targetId) (.processing workerId)).2 =
        { s with queues := queues }) (hjob : s.job? jobId = some job) :
      Claimed s cfg workerId workerPool targetId expectedTargetKind
        (Redis.claim { s with queues := queues } cfg workerId targetId expectedTargetKind job)

/-- What is popped has a record or not; if it has one, it is claimed. -/
theorem Redis.claimed (s : Redis) (cfg : Settings) (workerId : WorkerId) (workerPool : WorkerPool)
    (targetId : TargetId) (expectedTargetKind : Option Text) :
    s.Claimed cfg workerId workerPool targetId expectedTargetKind
      (s.claimDispatch cfg workerId workerPool targetId expectedTargetKind) := by
  have hreply := s.fst_brpoplpush (.dispatch workerPool targetId) (.processing workerId)
  obtain ⟨queues, hpop⟩ := s.brpoplpush_eq (.dispatch workerPool targetId) (.processing workerId)
  unfold Redis.claimDispatch
  rcases hpair : s.brpoplpush (.dispatch workerPool targetId) (.processing workerId) with
    ⟨popped, s₁⟩
  rw [hpair] at hreply
  have hs₁ : s₁ = { s with queues := queues } := by rw [← hpop, hpair]
  dsimp only at hreply ⊢
  cases popped with
  | none =>
    have hsame : s₁ = s := by
      rw [Redis.brpoplpush, ← hreply] at hpair
      exact (congrArg Prod.snd hpair).symm
    rw [hsame]
    exact .same
  | some jobId =>
    rw [hs₁]
    dsimp only
    cases hjob : Redis.job? { s with queues := queues } jobId with
    | none => exact .dropped jobId queues hreply.symm hpop hjob
    | some job => exact .found jobId job queues hreply.symm hpop hjob

/-- **What a claim hands out** is the record of the id it popped, running. -/
theorem claimDispatchJob_eq_some {cfg : Settings} {workerId : WorkerId} {workerPool : WorkerPool}
    {targetId : TargetId} {expectedTargetKind : Option Text} {s : Redis} {job : Job}
    (h : (alone (claimDispatchJob cfg workerId workerPool targetId expectedTargetKind) s).1 =
      some job) :
    ∃ jobId old, (s.queues (.dispatch workerPool targetId)).getLast? = some jobId ∧
      s.job? jobId = some old ∧ job = runningRecord cfg old workerId s.clockMs := by
  have hreply := s.fst_brpoplpush (.dispatch workerPool targetId) (.processing workerId)
  obtain ⟨queues, hstate⟩ :=
    s.brpoplpush_eq (.dispatch workerPool targetId) (.processing workerId)
  simp only [claimDispatchJob, alone_bind, alone_brpoplpush] at h
  rcases hpair : s.brpoplpush (.dispatch workerPool targetId) (.processing workerId) with
    ⟨popped, s₁⟩
  rw [hpair] at h hreply hstate
  dsimp only at h hreply hstate
  subst hstate
  cases popped with
  | none => cases h
  | some jobId =>
    simp only [alone_bind, alone_getJob] at h
    cases hold : Redis.job? { s with queues := queues } jobId with
    | none => rw [hold] at h; cases h
    | some old =>
      rw [hold] at h
      refine ⟨jobId, old, hreply.symm, hold, ?_⟩
      by_cases hkind : expectedTargetKind.any
          (fun kind => decide (old.targetKind ≠ normalizeTargetKind (some kind))) = true
      · simp only [claimJob, hkind, if_true] at h
        simp at h
      · by_cases hdeadline : old.deadlineAt ≠ 0 ∧ old.deadlineAt ≤ s.clockMs / 1000
        · simp only [claimJob, hkind, Bool.false_eq_true, if_false, alone_bind, alone_time,
            hdeadline] at h
          simp [hdeadline] at h
        · simp only [claimJob, hkind, Bool.false_eq_true, if_false, alone_bind, alone_time,
            hdeadline] at h
          simpa [eq_comm] using h

/-- What a claim hands out is what it has stored. -/
theorem job?_claimJob {cfg : Settings} {workerId : WorkerId} {targetId : TargetId}
    {expectedTargetKind : Option Text} {s : Redis} {old job : Job}
    (h : (alone (claimJob cfg workerId targetId expectedTargetKind old) s).1 = some job) :
    (alone (claimJob cfg workerId targetId expectedTargetKind old) s).2.job? job.id = some job := by
  unfold claimJob at h ⊢
  split at h
  · simp at h
  next hkind =>
  rw [if_neg hkind]
  rw [alone_bind] at h ⊢
  by_cases hdeadline : old.deadlineAt ≠ 0 ∧ old.deadlineAt ≤ s.clockMs / 1000
  · rw [alone_time] at h
    dsimp only at h
    rw [if_pos hdeadline] at h
    simp at h
  · rw [alone_time] at h ⊢
    dsimp only at h ⊢
    rw [if_neg hdeadline] at h ⊢
    simp only [alone_bind, alone_saveJob, alone_write, alone_emitEvent, alone_pure,
      Option.some.injEq] at h ⊢
    subst h
    rw [Redis.job?_congr (Redis.jobs_emit _ _ _)]
    exact (Redis.job?_set _ _ _).trans (if_pos rfl)

/-- The record that is handed out is the one in the store. -/
theorem job?_claimDispatchJob {cfg : Settings} {workerId : WorkerId} {workerPool : WorkerPool}
    {targetId : TargetId} {expectedTargetKind : Option Text} {s : Redis} {job : Job}
    (h : (alone (claimDispatchJob cfg workerId workerPool targetId expectedTargetKind) s).1 =
      some job) :
    (alone (claimDispatchJob cfg workerId workerPool targetId expectedTargetKind) s).2.job? job.id =
      some job := by
  unfold claimDispatchJob at h ⊢
  rw [alone_bind] at h ⊢
  generalize
    alone (ask (.brpoplpush (.dispatch workerPool targetId) (.processing workerId))) s = popped
    at h ⊢
  rcases popped with ⟨_ | jobId, s₁⟩
  · cases h
  · dsimp only at h ⊢
    rw [alone_bind, alone_getJob] at h ⊢
    dsimp only at h ⊢
    rcases hold : s₁.job? jobId with _ | old
    · rw [hold] at h
      simp at h
    · rw [hold] at h
      exact job?_claimJob h

/-- `renew_job_lease`. -/
def Redis.renew (s : Redis) (cfg : Settings) (jobId : JobId) : Redis :=
  match (s.job? jobId).filter fun job => job.status = .admitted ∨ job.status = .running with
  | none => s
  | some job =>
    (s.set { job with leaseUntil := some (s.clockMs / 1000 + cfg.jobLeaseSeconds) }).zadd jobId
      (s.clockMs / 1000 + cfg.jobLeaseSeconds)

/-- A job that is not running is not renewed. -/
theorem alone_renewJobLease (cfg : Settings) (jobId : JobId) (s : Redis) :
    (alone (renewJobLease cfg jobId) s).2 = s.renew cfg jobId := by
  simp only [renewJobLease, alone_bind, alone_getJob, Redis.renew]
  cases s.job? jobId with
  | none => rfl
  | some job =>
    by_cases hadmitted : job.status = .admitted
    · simp [hadmitted, Option.filter, Redis.write]
    · by_cases hrunning : job.status = .running <;>
        simp [hadmitted, hrunning, Option.filter, Redis.write]

/-! ### Waiting on a child -/

/-- `mark_job_waiting_on_child`. -/
def Redis.wait (s : Redis) (jobId childJobId : JobId) (stage : LifecycleStage)
    (updates : ParserMetadata) (workerId : Option WorkerId) : Redis :=
  match s.job? jobId with
  | none => s
  | some job =>
    (((s.set (waitingRecord job childJobId stage updates)).release job).leave
      (orWorker workerId job.assignedWorkerId) jobId).zrem jobId

/-- The root gives its reservation back and leaves the processing list and the active set. -/
theorem alone_markJobWaitingOnChild (jobId childJobId : JobId) (stage : LifecycleStage)
    (updates : ParserMetadata) (workerId : Option WorkerId) (s : Redis) :
    (alone (markJobWaitingOnChild jobId childJobId stage updates workerId) s).2 =
      s.wait jobId childJobId stage updates workerId := by
  simp only [markJobWaitingOnChild, alone_bind, alone_getJob, Redis.wait]
  cases s.job? jobId <;> simp [Redis.write]

/-! ### Recovering -/

/-- `requeue_stale_jobs` from the release on. -/
def Redis.recover (s : Redis) (job : Job) (retryCount : ℕ) : Redis :=
  let released := ((s.release job).leave job.assignedWorkerId job.id).zrem job.id
  let job := released.downgraded job
  ((released.set (recoveredRecord job retryCount)).rpush
    (.pending job.workloadClass job.priority) job.id).emit job.id
      (Event.of job.id (.recovered retryCount))

/-- The reservation is given back before the job is pushed. -/
@[simp] theorem alone_recoverJob (job : Job) (retryCount : ℕ) (s : Redis) :
    alone (recoverJob job retryCount) s = ((), s.recover job retryCount) := by
  simp [recoverJob, Redis.recover, Redis.write]

section Recover

variable (s : Redis) (job : Job) (retryCount : ℕ)

/-- Only the record of the job is changed; it may be downgraded. -/
theorem Redis.jobs_recover : ∃ targetKind, (s.recover job retryCount).jobs =
    s.jobs.insert job.id (recoveredRecord { job with targetKind := targetKind } retryCount) := by
  obtain ⟨targetKind, hkind⟩ := Redis.downgraded_eq
    (((s.release job).leave job.assignedWorkerId job.id).zrem job.id) job
  refine ⟨targetKind, ?_⟩
  simp [Redis.recover, hkind, recoveredRecord]

/-- Of the lists a job can wait in only its pending list is changed. -/
theorem Redis.queues_recover {queue : Queue} (h : queue.isWaiting = true) :
    (s.recover job retryCount).queues queue =
      Function.update s.queues (.pending job.workloadClass job.priority)
        (s.queues (.pending job.workloadClass job.priority) ++ [job.id]) queue := by
  obtain ⟨targetKind, hkind⟩ := Redis.downgraded_eq
    (((s.release job).leave job.assignedWorkerId job.id).zrem job.id) job
  by_cases hq : queue = .pending job.workloadClass job.priority
  · subst hq
    simp [Redis.recover, hkind, rpush, Redis.queues_leave, h]
  · simp [Redis.recover, hkind, rpush, Redis.queues_leave, h, hq]

/-- The reservation is given back, and nothing else happens to the targets. -/
@[simp] theorem Redis.usage_recover : (s.recover job retryCount).usage = (s.release job).usage := by
  simp [Redis.recover]

@[simp] theorem Redis.models_recover :
    (s.recover job retryCount).models = (s.release job).models := by
  simp [Redis.recover]

end Recover

/-- The list a job waits in: queued, it is its pending list; admitted, the dispatch list of its
target; otherwise there is none. -/
def Job.home (job : Job) : Option Queue :=
  match job.status with
  | .queued => some (.pending job.workloadClass job.priority)
  | .admitted => job.holder.map (.dispatch job.workerPool)
  | _ => none

/-- The `LREM` that takes an id out of the list it waits in. -/
def Redis.withdraw (s : Redis) (home : Option Queue) (jobId : JobId) : Redis :=
  match home with
  | none => s
  | some queue => s.lrem queue jobId

/-- `_cancel_stale_requested_job` takes the job. -/
def cancelsStale (job : Job) : Bool :=
  isLinkedChildJob job && job.cancelRequested &&
    (job.status = .admitted || job.status = .running)

/-- A job whose cancelling was asked for is withdrawn and cancelled, any other is left alone. -/
theorem alone_cancelStaleRequestedJob (job : Job) (s : Redis) :
    alone (cancelStaleRequestedJob job) s = (cancelsStale job,
      if cancelsStale job then
        (s.withdraw job.home job.id).cancel job.id job.assignedWorkerId else s) := by
  unfold cancelStaleRequestedJob cancelsStale
  by_cases hlinked : isLinkedChildJob job = true
  · by_cases hcancel : job.cancelRequested = true
    · cases hstatus : job.status <;> cases hholder : job.holder <;>
        simp [hlinked, hcancel, hstatus, hholder, Job.home, Redis.withdraw]
    · simp [hcancel]
  · simp [hlinked]

/-- One job of `requeue_stale_jobs`. -/
def Redis.reap (s : Redis) (cfg : Settings) (now : ℕ) (jobId : JobId) : Redis :=
  match s.job? jobId with
  | none => s.zrem jobId
  | some job =>
    if job.status.isTerminal then s.zrem jobId
    else if now < job.leaseUntil.getD 0 then s
    else if cancelsStale job then
      (s.withdraw job.home job.id).cancel job.id job.assignedWorkerId
    else if job.deadlineAt ≠ 0 ∧ job.deadlineAt ≤ now then
      s.failFrom job deadlineExceededError job.assignedWorkerId
    else if retryLimit cfg job < job.retryCount + 1 then
      s.failFrom { job with retryCount := job.retryCount + 1 } genericChatError
        job.assignedWorkerId
    else s.recover job (job.retryCount + 1)

/-- Every way out of a reaper pass over one id. -/
theorem alone_reapJob (cfg : Settings) (now : ℕ) (jobId : JobId) (s : Redis) :
    (alone (reapJob cfg now jobId) s).2 = s.reap cfg now jobId := by
  simp only [reapJob, alone_withLock, alone_bind, alone_getJob, Redis.reap]
  cases s.job? jobId with
  | none => rfl
  | some job =>
    by_cases hterminal : job.status.isTerminal = true
    · simp [hterminal, Redis.write]
    · by_cases hlease : now < job.leaseUntil.getD 0
      · simp [hterminal, hlease]
      · by_cases hstale : cancelsStale job = true
        · simp [hterminal, hlease, hstale, alone_cancelStaleRequestedJob]
        · by_cases hdeadline : job.deadlineAt ≠ 0 ∧ job.deadlineAt ≤ now
          · simp [hterminal, hlease, hstale, hdeadline, alone_cancelStaleRequestedJob]
          · by_cases hretry : retryLimit cfg job < job.retryCount + 1 <;>
              simp [hterminal, hlease, hstale, hdeadline, hretry, alone_cancelStaleRequestedJob]

/-- The reaper takes the job: it has not ended and its lease has. -/
def reapTakes (now : ℕ) (job : Job) : Bool :=
  !job.status.isTerminal && !decide (now < job.leaseUntil.getD 0)

/-- The reaper gives the job up: its deadline has passed, or it was retried often enough. -/
def reapFails (cfg : Settings) (now : ℕ) (job : Job) : Bool :=
  decide (job.deadlineAt ≠ 0 ∧ job.deadlineAt ≤ now) ||
    decide (retryLimit cfg job < job.retryCount + 1)

/-- **What the reaper does to one id**: a dead entry of the active set goes, a job whose lease
lasts is left alone, and a job whose lease has ended is cancelled, failed or recovered. -/
inductive Redis.Reaped (s : Redis) (cfg : Settings) (now : ℕ) (jobId : JobId) : Redis → Prop
  /-- The id leaves the active set. -/
  | dropped : Reaped s cfg now jobId (s.zrem jobId)
  /-- Nothing is written. -/
  | same : Reaped s cfg now jobId s
  /-- The job is withdrawn and cancelled. -/
  | cancelled (job : Job) (hjob : s.job? jobId = some job) (htakes : reapTakes now job = true)
      (hstale : cancelsStale job = true) :
      Reaped s cfg now jobId ((s.withdraw job.home job.id).cancel job.id job.assignedWorkerId)
  /-- The job fails. -/
  | failed (job : Job) (retryCount : ℕ) (errorText : Text) (hjob : s.job? jobId = some job)
      (htakes : reapTakes now job = true) (hstale : cancelsStale job = false)
      (hfails : reapFails cfg now job = true) :
      Reaped s cfg now jobId
        (s.failFrom { job with retryCount := retryCount } errorText job.assignedWorkerId)
  /-- The job goes back to its pending list. -/
  | recovered (job : Job) (hjob : s.job? jobId = some job) (htakes : reapTakes now job = true)
      (hstale : cancelsStale job = false) (hfails : reapFails cfg now job = false) :
      Reaped s cfg now jobId (s.recover job (job.retryCount + 1))

/-- What a reaper pass does to one id depends on the record alone, and on the time. -/
theorem Redis.reaped (s : Redis) (cfg : Settings) (now : ℕ) (jobId : JobId) :
    s.Reaped cfg now jobId (s.reap cfg now jobId) := by
  unfold Redis.reap
  cases hjob : s.job? jobId with
  | none => exact .dropped
  | some job =>
    dsimp only
    by_cases hterminal : job.status.isTerminal = true
    · rw [if_pos hterminal]
      exact .dropped
    rw [if_neg hterminal]
    by_cases hlease : now < job.leaseUntil.getD 0
    · rw [if_pos hlease]
      exact .same
    have htakes : reapTakes now job = true := by simp [reapTakes, hterminal, hlease]
    rw [if_neg hlease]
    by_cases hstale : cancelsStale job = true
    · rw [if_pos hstale]
      exact .cancelled job hjob htakes hstale
    rw [if_neg hstale]
    rw [Bool.not_eq_true] at hstale
    by_cases hdeadline : job.deadlineAt ≠ 0 ∧ job.deadlineAt ≤ now
    · rw [if_pos hdeadline]
      exact .failed job job.retryCount _ hjob htakes hstale (by simp [reapFails, hdeadline])
    rw [if_neg hdeadline]
    by_cases hretry : retryLimit cfg job < job.retryCount + 1
    · rw [if_pos hretry]
      exact .failed job _ _ hjob htakes hstale (by simp [reapFails, hretry])
    · rw [if_neg hretry]
      exact .recovered job hjob htakes hstale (by simp only [reapFails, hdeadline, hretry]; rfl)

/-- The loop of `requeue_stale_jobs`. -/
def Redis.reapAll (s : Redis) (cfg : Settings) (now : ℕ) (jobIds : List JobId) : Redis :=
  jobIds.foldl (fun s jobId => s.reap cfg now jobId) s

/-- By induction on the ids. -/
theorem alone_reapJobs (cfg : Settings) (now : ℕ) (jobIds : List JobId) (s : Redis) :
    (alone (reapJobs cfg now jobIds) s).2 = s.reapAll cfg now jobIds := by
  induction jobIds generalizing s with
  | nil => rfl
  | cons jobId jobIds ih => simp [reapJobs, ih, alone_reapJob, Redis.reapAll]

/-- The stale ids are read once, and then reaped one after the other. -/
theorem alone_requeueStaleJobs (cfg : Settings) (s : Redis) :
    (alone (requeueStaleJobs cfg) s).2 = s.reapAll cfg s.now (s.zrangebyscore s.now) := by
  simp [requeueStaleJobs, alone_reapJobs, Redis.now]

/-! ### Cancelling -/

/-- The jobs a cancel can get to from a job: itself, and, from a job that has not ended, waits
nowhere and is not to be cancelled already, the child it is linked to. -/
inductive Redis.Below (s : Redis) (jobId : JobId) : JobId → Prop
  /-- The job itself. -/
  | self : Below s jobId jobId
  /-- The child of a job below. -/
  | child {parentId childJobId : JobId} {parent : Job} (hparent : Below s jobId parentId)
      (hjob : s.job? parentId = some parent) (hlive : parent.status.isTerminal = false)
      (hhome : parent.home = none) (hasked : parent.cancelRequested = false)
      (hlink : parent.childJobId = some childJobId) : Below s jobId childJobId

/-- What is below a child is below its root. -/
theorem Redis.Below.trans {s : Redis} {a b c : JobId} (hab : s.Below a b) (hbc : s.Below b c) :
    s.Below a c := by
  induction hbc with
  | self => exact hab
  | child _ hjob hlive hhome hasked hlink ih => exact ih.child hjob hlive hhome hasked hlink

/-- **What a cancel of a job can do**: nothing; take a job below it that waits out of its list and
end it; or set the flag of a job below it that has not ended. -/
inductive Redis.Stopped (s : Redis) (jobId : JobId) : Redis → Prop
  /-- Nothing is written. -/
  | same : Stopped s jobId s
  /-- A waiting job is taken out of its list and cancelled. -/
  | withdrawn (k : JobId) (job : Job)
      (hbelow : s.Below jobId k ∧ (k = jobId → job.cancelRequested = false))
      (hjob : s.job? k = some job) (hhome : job.home ≠ none) :
      Stopped s jobId ((s.withdraw job.home k).cancel k none)
  /-- The flag is set. -/
  | flagged (k : JobId) (job : Job) (hbelow : s.Below jobId k) (hjob : s.job? k = some job)
      (hstatus : job.status.isTerminal = false) (hhome : job.home = none) :
      Stopped s jobId ((s.set { job with cancelRequested := true }).emit job.id
        (Event.of job.id .cancelling))

/-- What a cancel of a job below does, a cancel of a job that waits nowhere can do. -/
theorem Redis.Stopped.of_below {s s' : Redis} {jobId k : JobId} {root : Job}
    (hroot : s.job? jobId = some root) (hhome : root.home = none) (hbelow : s.Below jobId k)
    (h : s.Stopped k s') : s.Stopped jobId s' := by
  cases h with
  | same => exact .same
  | withdrawn l job hl hjob hwaits =>
    refine .withdrawn l job ⟨hbelow.trans hl.1, fun heq => ?_⟩ hjob hwaits
    -- The job itself waits nowhere, so it is not the one that is taken out.
    rw [heq, hroot] at hjob
    exact absurd (Option.some.inj hjob ▸ hhome) hwaits
  | flagged l job hl hjob hstatus hhome =>
    exact .flagged l job (hbelow.trans hl) hjob hstatus hhome

/-- The id leaves its list first. -/
theorem alone_cancelWaiting (queue : Queue) (jobId : JobId) (s : Redis) :
    alone (cancelWaiting queue jobId) s = ((), (s.lrem queue jobId).cancel jobId none) := by
  simp [cancelWaiting]

/-- The flag is all that is saved. -/
theorem alone_requestCancel (job : Job) (s : Redis) :
    alone (requestCancel job) s = ((), (s.set { job with cancelRequested := true }).emit job.id
      (Event.of job.id .cancelling)) := by
  simp [requestCancel]

/-- From this state the program does what `cancel_job` can do, and where it answers no it does
nothing. -/
def StopsAt (s : Redis) (jobId : JobId) (p : Gw (Except GatewayError Bool)) : Prop :=
  s.Stopped jobId (alone p s).2 ∧ ((alone p s).1 = .ok false → (alone p s).2 = s)

/-- The child stops what is below it, and so the root that is linked to it. -/
theorem stopsAt_propagateCancelToLinkedChild {cancel : JobId → Gw (Except GatewayError Bool)}
    {s : Redis} (hcancel : ∀ k, StopsAt s k (cancel k)) {rootJobId : JobId} {rootJob : Job}
    (hroot : s.job? rootJobId = some rootJob) (hlive : rootJob.status.isTerminal = false)
    (hhome : rootJob.home = none) (hasked : rootJob.cancelRequested = false) :
    StopsAt s rootJobId (propagateCancelToLinkedChild cancel rootJob) := by
  unfold StopsAt propagateCancelToLinkedChild
  cases hlink : rootJob.childJobId with
  | none => exact ⟨.same, fun _ => rfl⟩
  | some childJobId =>
    simp only [alone_bind, alone_getJob]
    cases hchild : s.job? childJobId with
    | none => exact ⟨.same, fun _ => rfl⟩
    | some childJob =>
      have hbelow := Redis.Below.self.child hroot hlive hhome hasked hlink
      have hwithdrawn : childJob.home ≠ none → s.Stopped rootJobId
          ((s.withdraw childJob.home childJobId).cancel childJobId none) := by
        refine fun hwaits => .withdrawn childJobId childJob ⟨hbelow, fun heq => ?_⟩ hchild hwaits
        rw [heq, hroot] at hchild
        exact absurd (Option.some.inj hchild ▸ hhome) hwaits
      have hsame : s.Stopped rootJobId s := .same
      -- A child that waits is withdrawn, one that runs is cancelled in turn, one that is over is
      -- left alone.
      cases hstatus : childJob.status with
      | queued =>
        refine ⟨?_, ?_⟩
        · simpa [hstatus, Job.home, Redis.withdraw, alone_cancelWaiting] using hwithdrawn
        · simp [hstatus]
      | admitted =>
        cases hholder : childJob.holder with
        | none => simpa [hstatus, hholder] using hsame
        | some targetId =>
          refine ⟨?_, ?_⟩
          · simpa [hstatus, hholder, Job.home, Redis.withdraw, alone_cancelWaiting]
              using hwithdrawn
          · simp [hstatus, hholder]
      | running =>
        obtain ⟨hstopped, hfalse⟩ := hcancel childJobId
        simpa [hstatus] using ⟨hstopped.of_below hroot hhome hbelow, hfalse⟩
      | completed => simpa [hstatus] using hsame
      | failed => simpa [hstatus] using hsame
      | cancelled => simpa [hstatus] using hsame

/-- Where the child takes the request, the root does not get the flag. -/
theorem stopsAt_propagateOrRequest {cancel : JobId → Gw (Except GatewayError Bool)} {s : Redis}
    (hcancel : ∀ k, StopsAt s k (cancel k)) {jobId : JobId} {job : Job}
    (hjob : s.job? jobId = some job) (hstatus : job.status.isTerminal = false)
    (hhome : job.home = none) (hasked : job.cancelRequested = false) :
    StopsAt s jobId (propagateOrRequest cancel job) := by
  obtain ⟨hstopped, hfalse⟩ :=
    stopsAt_propagateCancelToLinkedChild hcancel hjob hstatus hhome hasked
  unfold StopsAt propagateOrRequest
  rw [alone_bind]
  rcases hreply : (alone (propagateCancelToLinkedChild cancel job) s).1 with e | b
  · exact ⟨hstopped, fun h => by cases h⟩
  · cases b with
    | true => exact ⟨hstopped, fun h => by cases h⟩
    | false =>
      -- The propagation did nothing, so the flag is set on the record that was read.
      rw [hfalse hreply]
      refine ⟨?_, ?_⟩
      · simpa [alone_requestCancel] using Redis.Stopped.flagged jobId job .self hjob hstatus hhome
      · simp

/-- **`cancel_job` does one of three things.** -/
theorem stopsAt_cancelJob (depth : ℕ) (jobId : JobId) (username : Option String) (s : Redis) :
    StopsAt s jobId (cancelJob depth jobId username) := by
  -- On the depth of the calls, since a root calls the cancel of its child.
  induction depth generalizing jobId username with
  | zero => exact ⟨.same, fun _ => rfl⟩
  | succ depth ih =>
    unfold cancelJob StopsAt
    simp only [alone_bind, alone_getJob]
    cases hjob : s.job? jobId with
    | none => exact ⟨.same, fun _ => rfl⟩
    | some job =>
      have hsame : s.Stopped jobId s := .same
      by_cases hforbidden : username.any (fun name => decide (name ≠ "" ∧ job.username ≠ name)) =
          true
      · simpa only [hforbidden, if_true] using ⟨hsame, fun h => by cases h⟩
      simp only [hforbidden, Bool.false_eq_true, if_false]
      by_cases hcancel : job.cancelRequested = true
      · by_cases hterminal : job.status.isTerminal = true <;>
          simpa [hterminal, hcancel] using hsame
      have hasked : job.cancelRequested = false := Bool.eq_false_iff.mpr hcancel
      have hwithdrawn := fun hhome =>
        Redis.Stopped.withdrawn jobId job ⟨.self, fun _ => hasked⟩ hjob hhome
      -- A job that waits is withdrawn alone; of one that runs the child is looked after too.
      cases hstatus : job.status with
      | queued =>
        refine ⟨?_, ?_⟩
        · simpa [hcancel, hstatus, Status.isTerminal, Job.home, Redis.withdraw,
            alone_cancelWaiting] using hwithdrawn
        · simp [hcancel, Status.isTerminal]
      | admitted =>
        cases hholder : job.holder with
        | none =>
          have hrest := stopsAt_propagateOrRequest (fun child => ih child none) hjob
            (by rw [hstatus]; rfl) (by simp [Job.home, hstatus, hholder]) hasked
          simpa [hcancel, hstatus, hholder, Status.isTerminal, StopsAt] using hrest
        | some targetId =>
          refine ⟨?_, ?_⟩
          · simpa [hcancel, hstatus, hholder, Status.isTerminal, Job.home,
              Redis.withdraw, alone_cancelWaiting] using hwithdrawn
          · simp [hcancel, Status.isTerminal]
      | running =>
        have hrest := stopsAt_propagateOrRequest (fun child => ih child none) hjob
          (by rw [hstatus]; rfl) (by simp [Job.home, hstatus]) hasked
        simpa [hcancel, hstatus, Status.isTerminal, StopsAt] using hrest
      | completed => simpa [hstatus, Status.isTerminal] using hsame
      | failed => simpa [hstatus, Status.isTerminal] using hsame
      | cancelled => simpa [hstatus, Status.isTerminal] using hsame

/-- The user may not cancel the job. -/
def Job.Forbids (job : Job) (username : Option String) : Prop :=
  username.any (fun name => decide (name ≠ "" ∧ job.username ≠ name)) = true

/-- Of a user who may not cancel it a job is left alone. -/
theorem snd_alone_cancelJob_of_forbids {depth : ℕ} {jobId : JobId} {username : Option String}
    {s : Redis} {job : Job} (hjob : s.job? jobId = some job) (h : job.Forbids username) :
    (alone (cancelJob depth jobId username) s).2 = s := by
  unfold Job.Forbids at h
  cases depth with
  | zero => rfl
  | succ depth =>
    unfold cancelJob
    simp only [alone_bind, alone_getJob, hjob, h, if_true]
    rfl

/-- The job that a cancel takes out of its list: one that waits below the job, which the user may
cancel, and if it is the job itself, is not to be cancelled already. -/
structure Redis.Withdraws (s : Redis) (jobId : JobId) (username : Option String) (k : JobId)
    (job : Job) : Prop where
  below : s.Below jobId k
  found : s.job? k = some job
  waits : job.home ≠ none
  asked : k = jobId → job.cancelRequested = false
  allowed : ∀ root, s.job? jobId = some root → ¬root.Forbids username

/-! ### Linking a child -/

/-- **What the operations on a root and its child can do**: nothing; link the root; or push a
fresh child that had no record and link the root. -/
inductive Redis.Linked (s : Redis) : Redis → Prop
  /-- Nothing is written. -/
  | same : Linked s s
  /-- The root is linked. -/
  | linked (rootJob : Job) (rootJobId childJobId : JobId)
      (hroot : s.job? rootJobId = some rootJob) :
      Linked s (s.set { rootJob with childJobId := some childJobId })
  /-- A child is pushed and the root is linked. -/
  | created (cfg : Settings) (a : EnqueueArgs) (rootJob : Job) (rootJobId childJobId : JobId)
      (modelInfo : ModelInfo) (targetKind : TargetKind)
      (hroot : s.job? rootJobId = some rootJob) (hchild : s.job? childJobId = none)
      (hpriority : a.priority = none) :
      Linked s ((s.push (newJob cfg a childJobId modelInfo targetKind s.clockMs)).set
        { rootJob with childJobId := some childJobId })

/-- A lost link is found again, and no record but that of the root is changed. -/
theorem linked_getLinkedChildJobId (cfg : Settings) (rootJobId : JobId) (s : Redis) :
    s.Linked (alone (getLinkedChildJobId cfg rootJobId) s).2 := by
  unfold getLinkedChildJobId
  simp only [alone_withLock, alone_bind, alone_getJob]
  cases hroot : s.job? rootJobId with
  | none => exact .same
  | some rootJob =>
    cases hlink : rootJob.childJobId with
    | some existingChildId =>
      cases hchild : s.job? existingChildId <;>
        simpa [hlink, hchild] using Redis.Linked.same (s := s)
    | none =>
      cases hchild : s.job? (cfg.derivedChildJobId rootJobId) with
      | none => simpa [hlink, hchild] using Redis.Linked.same (s := s)
      | some childJob =>
        simpa [hlink, hchild] using
          Redis.Linked.linked rootJob rootJobId (cfg.derivedChildJobId rootJobId) hroot

/-- A child is created under a free id, and its root is linked to it. -/
theorem linked_createChild (cfg : Settings) (rootJobId : JobId) (rootJob : Job)
    (prepared : PreparedLlmJob) (childJobId : JobId) (s : Redis)
    (hroot : s.job? rootJobId = some rootJob) (hchild : s.job? childJobId = none) :
    s.Linked (alone (createChild cfg rootJobId rootJob prepared childJobId) s).2 := by
  unfold createChild
  split
  · exact .same
  · have hrun := alone_enqueueNewJob cfg (childArgs rootJobId rootJob prepared childJobId)
      childJobId s
    have henqueue : alone (enqueueJob cfg (childArgs rootJobId rootJob prepared childJobId)
        childJobId) s = alone (enqueueNewJob cfg (childArgs rootJobId rootJob prepared childJobId)
          childJobId) s := by
      simp [enqueueJob, childArgs, hchild]
    rw [alone_bind, henqueue]
    rcases hrun with ⟨e, hrefused⟩ | ⟨modelInfo, targetKind, hpush⟩
    · rw [hrefused]
      exact .same
    · rw [hpush]
      -- The root is another job than the new child, so it is read back as it was.
      have hne : rootJobId ≠ childJobId := by
        rintro rfl
        rw [hroot] at hchild
        cases hchild
      simpa [linkChild, Redis.job?_push, newJob, hne, hroot] using
        Redis.Linked.created cfg (childArgs rootJobId rootJob prepared childJobId) rootJob
          rootJobId childJobId modelInfo targetKind hroot hchild rfl

/-- Whichever of the ways it takes, the root is linked at most. -/
theorem linked_enqueueChildJobOnce (cfg : Settings) (rootJobId : JobId)
    (prepared : PreparedLlmJob) (s : Redis) :
    s.Linked (alone (enqueueChildJobOnce cfg rootJobId prepared) s).2 := by
  unfold enqueueChildJobOnce
  simp only [alone_withLock, alone_bind, alone_getJob]
  cases hroot : s.job? rootJobId with
  | none => exact .same
  | some rootJob =>
    have hsame := Redis.Linked.same (s := s)
    cases hlink : rootJob.childJobId with
    | some existingChildId =>
      cases hchild : s.job? existingChildId <;> simpa [hlink, hchild] using hsame
    | none =>
      simp only [hlink, findOrCreateChild]
      by_cases hended : (rootJob.status.isTerminal || rootJob.cancelRequested) = true
      · rw [if_pos hended]
        exact .same
      rw [if_neg hended]
      simp only [alone_bind, alone_getJob]
      cases hchild : s.job? (cfg.derivedChildJobId rootJobId) with
      | some childJob =>
        simpa [linkChild, hroot] using
          Redis.Linked.linked rootJob rootJobId (cfg.derivedChildJobId rootJobId) hroot
      | none => exact linked_createChild cfg rootJobId rootJob prepared _ s hroot hchild

/-! ### Operations and runs -/

/-- An operation of the gateway. -/
inductive Op where
  /-- `enqueue_job`; `uuid` is the id `uuid4` makes up in this call. -/
  | enqueueJob (a : EnqueueArgs) (uuid : JobId)
  /-- `enqueue_child_job_once`. -/
  | enqueueChildJobOnce (rootJobId : JobId) (prepared : PreparedLlmJob)
  /-- `get_linked_child_job_id`. -/
  | getLinkedChildJobId (rootJobId : JobId)
  /-- `try_admit_job`. -/
  | tryAdmitJob (jobId : JobId) (queue : Queue) (target : Target)
  /-- `claim_dispatch_job`. -/
  | claimDispatchJob (workerId : WorkerId) (workerPool : WorkerPool) (targetId : TargetId)
      (expectedTargetKind : Option Text)
  /-- `renew_job_lease`. -/
  | renewJobLease (jobId : JobId)
  /-- `cancel_job`. -/
  | cancelJob (jobId : JobId) (username : Option String)
  /-- `mark_job_completed`. -/
  | markJobCompleted (jobId : JobId) (responseText : Text) (workerId : Option WorkerId)
  /-- `mark_job_failed`. -/
  | markJobFailed (jobId : JobId) (errorText : Text) (workerId : Option WorkerId)
  /-- `mark_job_cancelled`. -/
  | markJobCancelled (jobId : JobId) (workerId : Option WorkerId)
  /-- `mark_job_waiting_on_child`. -/
  | markJobWaitingOnChild (jobId childJobId : JobId) (stage : LifecycleStage)
      (updates : ParserMetadata) (workerId : Option WorkerId)
  /-- `requeue_job_for_pending`, called with the record of the job. -/
  | requeueJobForPending (jobId : JobId) (reason : String)
  /-- `requeue_stale_jobs`. -/
  | requeueStaleJobs

/-- What an operation returns. -/
inductive Outcome where
  /-- Nothing, or an answer nobody looks at. -/
  | unit
  /-- Whether a cancel was accepted. -/
  | accepted (reply : Except GatewayError Bool)
  /-- The id of an enqueued job. -/
  | enqueued (reply : Except GatewayError JobId)
  /-- The id of a root's child, and whether this call created it. -/
  | child (reply : Except GatewayError (Option JobId × Bool))
  /-- The record of a claimed job. -/
  | claimed (job : Option Job)

/-- The program of an operation. -/
def Op.body (cfg : Settings) : Op → Gw Outcome
  | .enqueueJob a uuid => do return .enqueued (← Gateway.enqueueJob cfg a uuid)
  | .enqueueChildJobOnce rootJobId prepared => do
    match ← Gateway.enqueueChildJobOnce cfg rootJobId prepared with
    | .error e => return .child (.error e)
    | .ok (childJobId, created) => return .child (.ok (some childJobId, created))
  | .getLinkedChildJobId rootJobId => do
    match ← Gateway.getLinkedChildJobId cfg rootJobId with
    | .error e => return .child (.error e)
    | .ok childJobId => return .child (.ok (childJobId, false))
  | .tryAdmitJob jobId queue target => do
    let _ ← Gateway.tryAdmitJob cfg jobId queue target
    return .unit
  | .claimDispatchJob workerId workerPool targetId expectedTargetKind => do
    return .claimed
      (← Gateway.claimDispatchJob cfg workerId workerPool targetId expectedTargetKind)
  | .renewJobLease jobId => do
    Gateway.renewJobLease cfg jobId
    return .unit
  | .cancelJob jobId username => do
    return .accepted (← Gateway.cancelJob cfg.recursionLimit jobId username)
  | .markJobCompleted jobId responseText workerId => do
    Gateway.markJobCompleted jobId responseText workerId
    return .unit
  | .markJobFailed jobId errorText workerId => do
    Gateway.markJobFailed jobId errorText workerId
    return .unit
  | .markJobCancelled jobId workerId => do
    Gateway.markJobCancelled jobId workerId
    return .unit
  | .markJobWaitingOnChild jobId childJobId stage updates workerId => do
    Gateway.markJobWaitingOnChild jobId childJobId stage updates workerId
    return .unit
  | .requeueJobForPending jobId reason => do
    match ← getJob jobId with
    | none => return .unit
    | some job =>
      Gateway.requeueJobForPending job reason
      return .unit
  | .requeueStaleJobs => do
    let _ ← Gateway.requeueStaleJobs cfg
    return .unit

/-- A whole step: an operation, or the world around the store moving on. -/
inductive Move where
  /-- An operation. -/
  | op (o : Op)
  /-- Time passes. -/
  | tick (ms : ℕ)
  /-- Targets and workers report, and the catalog is refreshed. -/
  | report (targets : List Target) (workers : List Worker) (catalog : List (String × ModelInfo))
  /-- The record of a job expires. -/
  | expire (jobId : JobId)

/-- The state a whole step leaves. -/
def Move.apply (cfg : Settings) : Move → Redis → Redis
  | .op o, s => (alone (o.body cfg) s).2
  | .tick ms, s => { s with clockMs := s.clockMs + ms }
  | .report targets workers catalog, s =>
    { s with targets := targets, workers := workers, catalog := catalog }
  | .expire jobId, s => { s with jobs := s.jobs.erase jobId }

section Apply

variable (cfg : Settings) (s : Redis)

/-- What an operation returns does not change the state it leaves. -/
theorem snd_alone_return {α : Type} (p : Gw α) (f : α → Outcome) :
    (alone (p >>= fun a => pure (f a)) s).2 = (alone p s).2 := by
  rw [alone_bind, alone_pure]

/-- The answer is dropped. -/
theorem apply_enqueueJob (a : EnqueueArgs) (uuid : JobId) :
    Move.apply cfg (.op (.enqueueJob a uuid)) s = (alone (enqueueJob cfg a uuid) s).2 :=
  snd_alone_return s (enqueueJob cfg a uuid) _

/-- The move is the operation without its answer. -/
theorem linked_apply_enqueueChildJobOnce (rootJobId : JobId) (prepared : PreparedLlmJob) :
    s.Linked (Move.apply cfg (.op (.enqueueChildJobOnce rootJobId prepared)) s) := by
  have hlinked := linked_enqueueChildJobOnce cfg rootJobId prepared s
  simp only [Move.apply, Op.body, alone_bind]
  split <;> exact hlinked

/-- The move is the operation without its answer. -/
theorem linked_apply_getLinkedChildJobId (rootJobId : JobId) :
    s.Linked (Move.apply cfg (.op (.getLinkedChildJobId rootJobId)) s) := by
  have hlinked := linked_getLinkedChildJobId cfg rootJobId s
  simp only [Move.apply, Op.body, alone_bind]
  split <;> exact hlinked

/-- The move is what the lock protects. -/
theorem apply_tryAdmitJob (jobId : JobId) (queue : Queue) (target : Target) :
    Move.apply cfg (.op (.tryAdmitJob jobId queue target)) s =
      s.tryAdmit cfg jobId queue target := by
  have hbody := snd_alone_return s (tryAdmitJob cfg jobId queue target) fun _ => .unit
  rw [alone_tryAdmitJob] at hbody
  exact hbody

/-- The move is a pop and a claim. -/
theorem apply_claimDispatchJob (workerId : WorkerId) (workerPool : WorkerPool)
    (targetId : TargetId) (expectedTargetKind : Option Text) :
    Move.apply cfg (.op (.claimDispatchJob workerId workerPool targetId expectedTargetKind)) s =
      s.claimDispatch cfg workerId workerPool targetId expectedTargetKind := by
  have hbody := snd_alone_return s
    (claimDispatchJob cfg workerId workerPool targetId expectedTargetKind) .claimed
  rw [alone_claimDispatchJob] at hbody
  exact hbody

/-- The move is a renewal of the record and of the active set. -/
theorem apply_renewJobLease (jobId : JobId) :
    Move.apply cfg (.op (.renewJobLease jobId)) s = s.renew cfg jobId := by
  have hbody := snd_alone_return s (renewJobLease cfg jobId) fun _ => .unit
  rw [alone_renewJobLease] at hbody
  exact hbody

/-- The depth that is allowed is that of the settings. -/
theorem stopped_apply_cancelJob (jobId : JobId) (username : Option String) :
    s.Stopped jobId (Move.apply cfg (.op (.cancelJob jobId username)) s) := by
  have hbody := snd_alone_return s (cancelJob cfg.recursionLimit jobId username) .accepted
  have hstopped := (stopsAt_cancelJob cfg.recursionLimit jobId username s).1
  rw [← hbody] at hstopped
  exact hstopped

/-- A cancel that is forbidden changes nothing. -/
theorem apply_cancelJob_of_forbids {jobId : JobId} {username : Option String} {job : Job}
    (hjob : s.job? jobId = some job) (h : job.Forbids username) :
    Move.apply cfg (.op (.cancelJob jobId username)) s = s := by
  have hbody := snd_alone_return s (cancelJob cfg.recursionLimit jobId username) .accepted
  rw [snd_alone_cancelJob_of_forbids hjob h] at hbody
  exact hbody

/-- A worker reports the end of its job, whatever has become of the record. -/
theorem apply_markJobCompleted (jobId : JobId) (responseText : Text) (workerId : Option WorkerId) :
    Move.apply cfg (.op (.markJobCompleted jobId responseText workerId)) s =
      match s.job? jobId with
      | none => s
      | some job => s.finish (completedRecord job responseText s.clockMs) .completed
          .childCompleted .done workerId := by
  have hbody := snd_alone_return s (markJobCompleted jobId responseText workerId) fun _ => .unit
  rw [alone_markJobCompleted] at hbody
  exact hbody

/-- A failure is reported in the same way. -/
theorem apply_markJobFailed (jobId : JobId) (errorText : Text) (workerId : Option WorkerId) :
    Move.apply cfg (.op (.markJobFailed jobId errorText workerId)) s =
      match s.job? jobId with
      | none => s
      | some job => s.failFrom job errorText workerId := by
  have hbody := snd_alone_return s (markJobFailed jobId errorText workerId) fun _ => .unit
  rw [alone_markJobFailed] at hbody
  exact hbody

/-- Unlike the other two ends, this one leaves a record that has ended as it is. -/
theorem apply_markJobCancelled (jobId : JobId) (workerId : Option WorkerId) :
    Move.apply cfg (.op (.markJobCancelled jobId workerId)) s = s.cancel jobId workerId := by
  have hbody := snd_alone_return s (markJobCancelled jobId workerId) fun _ => .unit
  rw [alone_markJobCancelled] at hbody
  exact hbody

/-- The move is a root that waits. -/
theorem apply_markJobWaitingOnChild (jobId childJobId : JobId) (stage : LifecycleStage)
    (updates : ParserMetadata) (workerId : Option WorkerId) :
    Move.apply cfg (.op (.markJobWaitingOnChild jobId childJobId stage updates workerId)) s =
      s.wait jobId childJobId stage updates workerId := by
  have hbody := snd_alone_return s
    (markJobWaitingOnChild jobId childJobId stage updates workerId) fun _ => .unit
  rw [alone_markJobWaitingOnChild] at hbody
  exact hbody

/-- A job without a record is not sent back. -/
theorem apply_requeueJobForPending (jobId : JobId) (reason : String) :
    Move.apply cfg (.op (.requeueJobForPending jobId reason)) s =
      match s.job? jobId with
      | none => s
      | some job => s.requeue job reason := by
  simp only [Move.apply, Op.body, alone_bind, alone_getJob]
  cases s.job? jobId <;> simp

/-- The move is one reaper pass. -/
theorem apply_requeueStaleJobs :
    Move.apply cfg (.op .requeueStaleJobs) s =
      s.reapAll cfg s.now (s.zrangebyscore s.now) := by
  have hbody := snd_alone_return s (requeueStaleJobs cfg) fun _ => .unit
  rw [alone_requeueStaleJobs] at hbody
  exact hbody

end Apply

/-- A store nobody has used: reports there may be, and the clock may show any time. -/
def Pristine (s : Redis) : Prop :=
  ∃ targets workers catalog clockMs,
    s = { Redis.empty targets workers catalog with clockMs := clockMs }

/-- Nothing is stored. -/
theorem Pristine.job? {s : Redis} (h : Pristine s) (k : JobId) : s.job? k = none := by
  obtain ⟨targets, workers, catalog, clockMs, rfl⟩ := h
  rfl

/-- The states of the store after whole steps that meet `ok`. -/
abbrev Run (cfg : Settings) (ok : Redis → Move → Prop) : Redis → Prop :=
  Reached (Move.apply cfg) Pristine ok

/-! ### A small cluster

One target with one model, for the runs that are worked out below. -/

/-- The settings of the small cluster: the defaults, and a child's id that is odd. -/
def smallSettings : Settings where
  derivedChildJobId := fun rootJobId => 2 * rootJobId + 1

/-- The target of the small cluster. -/
def smallTarget : Target where
  targetId := "t"
  targetKind := none
  baseCapacityTokens := 100
  vramFreeMb := 0
  ramFreeMb := 65536
  cpuCount := 8
  cpuPercent := 0
  loadedModels := []
  pinnedModels := []

/-- The store of the small cluster before anything was written. -/
def smallStore : Redis := Redis.empty [smallTarget] [] [("m", ⟨"m", 0⟩)]

theorem pristine_smallStore : Pristine smallStore := ⟨_, _, _, 0, rfl⟩

/-- A chat request. -/
def smallRequest : EnqueueArgs where
  username := "u"
  modelKey := "m"
  modelName := "m"
  prompt := "hello".toList
  history := []

/-- A file request. -/
def smallUpload : EnqueueArgs :=
  { smallRequest with jobKind := "parse".toList, workloadClass := "parse".toList }

/-- What is prepared for the child. -/
def smallAnswer : PreparedLlmJob where
  jobKind := "file_chat".toList
  modelKey := "m"
  modelName := "m"
  prompt := "hello".toList
  history := []
  threadId := none
  fileChat := none
  workloadClass := []
  stagingId := none

/-- The state of the small cluster after some steps. -/
def smallRun (moves : List Move) : Redis :=
  moves.foldl (fun s m => m.apply smallSettings s) smallStore

/-- Any moves make a run, since nothing is forbidden. -/
theorem reached_smallRun (moves : List Move) :
    Run smallSettings (fun _ _ => True) (smallRun moves) :=
  (Reached.start pristine_smallStore).foldl moves fun _ _ _ => trivial

/-- What can be tested of the record of a job holds of the record. -/
theorem forall_of_all {s : Redis} {k : JobId} {p : Job → Bool} (h : (s.job? k).all p = true) :
    ∀ job, s.job? k = some job → p job = true := by
  intro job hjob
  rw [hjob] at h
  exact h

end Gateway

end AiAgent

import AiAgent.Gateway.Operations

/-!
# What the operations do when run alone

Where operations are whole steps, every lock is free when it is asked for and given back before
anybody else looks, so it may be left out: `AiAgent.Gateway.alone` runs a program on a store that
does not record locks, and `AiAgent.Gateway.run_eq_alone` says that nothing else changes.

The rest of the file computes, function by function, the reply and the state that remain
(`alone_finishJob` and so on). The state is given in closed form by functions on
`AiAgent.Gateway.Redis` named after what they do: `emit`, `synthesize`, `release`, `finish`,
`admit`, `recover`.
-/

namespace AiAgent

namespace Gateway

open Command

variable {α β : Type}

/-! ### Running alone -/

/-- What a command answers and does where locks are not recorded. -/
def soloExec : (c : Cmd) → Redis → c.Reply × Redis
  | .lock _, s => ((), s)
  | .unlock _, s => ((), s)
  | c, s => exec 0 c s

/-- The store without the locks. -/
def soloStore : Store redisSig Redis where
  exec := fun _ => soloExec
  ready := fun _ _ => True
  drop := fun _ s => s

/-- The reply and the state of a program that runs with nobody else around. -/
def alone (p : Gw α) (s : Redis) : α × Redis := p.run soloStore 0 s

@[simp] theorem alone_pure (a : α) (s : Redis) : alone (pure a : Gw α) s = (a, s) := rfl

@[simp] theorem alone_bind (p : Gw α) (f : α → Gw β) (s : Redis) :
    alone (p >>= f) s = alone (f (alone p s).1) (alone p s).2 := Program.run_bind _ _ _ _ _

@[simp] theorem alone_map (f : α → β) (p : Gw α) (s : Redis) :
    alone (f <$> p) s = (f (alone p s).1, (alone p s).2) := by
  rw [map_eq_pure_bind, alone_bind]
  rfl

/-- The state with no lock held. -/
def Redis.unlocked (s : Redis) : Redis := { s with locks := [] }

/-- A write and the locks do not see each other. -/
theorem Redis.unlocked_write (s : Redis) (w : Write) :
    (s.write w).unlocked = s.unlocked.write w := by
  cases w <;> rfl

/-- By induction on the writes. -/
theorem Redis.unlocked_writes (s : Redis) (ws : List Write) :
    (s.writes ws).unlocked = s.unlocked.writes ws := by
  induction ws generalizing s with
  | nil => rfl
  | cons w ws ih => rw [writes_cons, writes_cons, ih, unlocked_write]

/-- A client that is alone sees the same answers as one that has to take locks. -/
theorem soloExec_unlocked (client : ℕ) (c : Cmd) (s : Redis) :
    (exec client c s).1 = (soloExec c s.unlocked).1 ∧
      (exec client c s).2.unlocked = (soloExec c s.unlocked).2 := by
  cases c with
  | write ws => exact ⟨rfl, s.unlocked_writes ws⟩
  | brpoplpush source destination =>
    simp only [exec, soloExec, Redis.brpoplpush, Redis.unlocked]
    cases (s.queues source).getLast? <;> exact ⟨rfl, rfl⟩
  | _ => exact ⟨rfl, rfl⟩

/-- **Leaving the locks out changes nothing else**: the program replies the same and leaves the
same state but for the locks. -/
theorem run_eq_alone (p : Gw α) (client : ℕ) (s : Redis) :
    (p.run redisStore client s).1 = (alone p s.unlocked).1 ∧
      (p.run redisStore client s).2.unlocked = (alone p s.unlocked).2 := by
  induction p generalizing s with
  | done a => exact ⟨rfl, rfl⟩
  | ask c k ih =>
    obtain ⟨hreply, hstate⟩ := soloExec_unlocked client c s
    have hrun : (Program.ask c k).run redisStore client s =
        (k (exec client c s).1).run redisStore client (exec client c s).2 := rfl
    have halone : alone (Program.ask c k) s.unlocked =
        alone (k (soloExec c s.unlocked).1) (soloExec c s.unlocked).2 := rfl
    rw [hrun, halone, ← hreply, ← hstate]
    exact ih (exec client c s).1 (exec client c s).2

/-! ### Commands -/

section Commands

variable (s : Redis)

@[simp] theorem alone_get (jobId : JobId) :
    @alone (Option Job) (ask (.get jobId)) s = (s.job? jobId, s) := rfl

@[simp] theorem alone_write (ws : List Write) :
    @alone Unit (ask (.write ws)) s = ((), s.writes ws) := rfl

@[simp] theorem alone_lrem (queue : Queue) (jobId : JobId) :
    @alone ℕ (ask (.lrem queue jobId)) s =
      ((if jobId ∈ s.queues queue then 1 else 0 : ℕ), s.lrem queue jobId) := rfl

@[simp] theorem alone_brpoplpush (source destination : Queue) :
    @alone (Option JobId) (ask (.brpoplpush source destination)) s =
      s.brpoplpush source destination := rfl

@[simp] theorem alone_lrange (queue : Queue) (stop : ℕ) :
    @alone (List JobId) (ask (.lrange queue stop)) s = ((s.queues queue).take (stop + 1), s) := rfl

@[simp] theorem alone_llen (queue : Queue) :
    @alone ℕ (ask (.llen queue)) s = ((s.queues queue).length, s) := rfl

@[simp] theorem alone_zrangebyscore (max : ℕ) :
    @alone (List JobId) (ask (.zrangebyscore max)) s = (s.zrangebyscore max, s) := rfl

@[simp] theorem alone_hgetallUsage (targetId : TargetId) :
    @alone Usage (ask (.hgetallUsage targetId)) s = (s.usage targetId, s) := rfl

@[simp] theorem alone_hgetModel (targetId : TargetId) (modelKey : String) :
    @alone ℤ (ask (.hgetModel targetId modelKey)) s = (s.models targetId modelKey, s) := rfl

@[simp] theorem alone_lock (l : Lock) : @alone Unit (ask (.lock l)) s = ((), s) := rfl

@[simp] theorem alone_unlock (l : Lock) : @alone Unit (ask (.unlock l)) s = ((), s) := rfl

@[simp] theorem alone_time : @alone ℕ (ask .time) s = (s.clockMs, s) := rfl

@[simp] theorem alone_targets : @alone (List Target) (ask .targets) s = (s.targets, s) := rfl

@[simp] theorem alone_workers : @alone (List Worker) (ask .workers) s = (s.workers, s) := rfl

@[simp] theorem alone_catalog :
    @alone (List (String × ModelInfo)) (ask .catalog) s = (s.catalog, s) := rfl

/-- Alone, a lock makes no difference. -/
@[simp] theorem alone_withLock (l : Lock) (body : Gw α) :
    alone (withLock l body) s = alone body s := by
  simp [withLock]

@[simp] theorem alone_getJob (jobId : JobId) : alone (getJob jobId) s = (s.job? jobId, s) := rfl

@[simp] theorem alone_saveJob (job : Job) : alone (saveJob job) s = ((), s.set job) := rfl

@[simp] theorem alone_appendEvent (jobId : JobId) (event : Event) :
    alone (appendEvent jobId event) s = ((), s.xadd jobId event) := rfl

end Commands

/-! ### Which parts of the state a write touches -/

namespace Redis

variable (s : Redis) (jobId : JobId) (job : Job) (queue : Queue) (event : Event) (score : ℕ)

/-- A record is looked up in the table of records and nowhere else. -/
theorem job?_congr {s s' : Redis} (h : s'.jobs = s.jobs) (k : JobId) : s'.job? k = s.job? k := by
  unfold job?
  rw [h]

/-- A record that is stored is the one that is found under its id. -/
theorem job?_set (k : JobId) : (s.set job).job? k = if k = job.id then some job else s.job? k := by
  by_cases h : k = job.id
  · rw [if_pos h, h]
    exact AList.lookup_insert _
  · rw [if_neg h]
    exact AList.lookup_insert_ne h

@[simp] theorem jobs_set : (s.set job).jobs = s.jobs.insert job.id job := rfl

@[simp] theorem queues_set : (s.set job).queues = s.queues := rfl

@[simp] theorem usage_set : (s.set job).usage = s.usage := rfl

@[simp] theorem models_set : (s.set job).models = s.models := rfl

@[simp] theorem clockMs_set : (s.set job).clockMs = s.clockMs := rfl

@[simp] theorem jobs_xadd : (s.xadd jobId event).jobs = s.jobs := rfl

@[simp] theorem job?_xadd (k : JobId) : (s.xadd jobId event).job? k = s.job? k := rfl

@[simp] theorem queues_xadd : (s.xadd jobId event).queues = s.queues := rfl

@[simp] theorem usage_xadd : (s.xadd jobId event).usage = s.usage := rfl

@[simp] theorem models_xadd : (s.xadd jobId event).models = s.models := rfl

@[simp] theorem clockMs_xadd : (s.xadd jobId event).clockMs = s.clockMs := rfl

@[simp] theorem jobs_zadd : (s.zadd jobId score).jobs = s.jobs := rfl

@[simp] theorem queues_zadd : (s.zadd jobId score).queues = s.queues := rfl

@[simp] theorem usage_zadd : (s.zadd jobId score).usage = s.usage := rfl

@[simp] theorem models_zadd : (s.zadd jobId score).models = s.models := rfl

@[simp] theorem jobs_zrem : (s.zrem jobId).jobs = s.jobs := rfl

@[simp] theorem queues_zrem : (s.zrem jobId).queues = s.queues := rfl

@[simp] theorem usage_zrem : (s.zrem jobId).usage = s.usage := rfl

@[simp] theorem models_zrem : (s.zrem jobId).models = s.models := rfl

/-- The first occurrence is removed. -/
theorem queues_lrem : (s.lrem queue jobId).queues =
    Function.update s.queues queue ((s.queues queue).erase jobId) := rfl

/-- The id comes to the end. -/
theorem queues_rpush : (s.rpush queue jobId).queues =
    Function.update s.queues queue (s.queues queue ++ [jobId]) := rfl

@[simp] theorem jobs_lrem : (s.lrem queue jobId).jobs = s.jobs := rfl

@[simp] theorem job?_lrem (k : JobId) : (s.lrem queue jobId).job? k = s.job? k := rfl

@[simp] theorem usage_lrem : (s.lrem queue jobId).usage = s.usage := rfl

@[simp] theorem models_lrem : (s.lrem queue jobId).models = s.models := rfl

@[simp] theorem jobs_rpush : (s.rpush queue jobId).jobs = s.jobs := rfl

@[simp] theorem job?_rpush (k : JobId) : (s.rpush queue jobId).job? k = s.job? k := rfl

@[simp] theorem usage_rpush : (s.rpush queue jobId).usage = s.usage := rfl

@[simp] theorem models_rpush : (s.rpush queue jobId).models = s.models := rfl

end Redis

/-! ### Events -/

/-- `_get_distinct_root_job_id`: the root a job's events are mirrored to. -/
def Redis.distinctRoot (s : Redis) (jobId : JobId) : Option JobId :=
  (s.job? jobId).bind fun job => job.rootJobId.filter fun rootJobId => rootJobId ≠ jobId

/-- `emit_event`. -/
def Redis.emit (s : Redis) (jobId : JobId) (event : Event) : Redis :=
  if event.isDone then s.xadd jobId event
  else
    match s.distinctRoot jobId with
    | none => s.xadd jobId event
    | some rootJobId =>
      (s.xadd jobId event).xadd rootJobId (buildRootMirroredEvent rootJobId jobId event)

/-- The root of a job, if it is another job. -/
@[simp] theorem alone_getDistinctRootJobId (jobId : JobId) (s : Redis) :
    alone (getDistinctRootJobId jobId) s = (s.distinctRoot jobId, s) := by
  simp only [getDistinctRootJobId, alone_bind, alone_getJob, Redis.distinctRoot]
  cases s.job? jobId with
  | none => rfl
  | some job =>
    cases hroot : job.rootJobId with
    | none => simp [hroot]
    | some rootJobId => by_cases h : rootJobId = jobId <;> simp [hroot, h, Option.filter]

/-- The event goes to the stream of the job and to that of its root. -/
@[simp] theorem alone_emitEvent (jobId : JobId) (event : Event) (s : Redis) :
    alone (emitEvent jobId event) s = ((), s.emit jobId event) := by
  simp only [emitEvent, alone_bind, alone_appendEvent, Redis.emit]
  by_cases hdone : event.isDone = true
  · simp [hdone]
  · have hroot : (s.xadd jobId event).distinctRoot jobId = s.distinctRoot jobId := rfl
    simp only [hdone, Bool.false_eq_true, if_false, alone_bind, alone_getDistinctRootJobId, hroot]
    cases s.distinctRoot jobId <;> rfl

section Emit

variable (s : Redis) (jobId : JobId) (event : Event)

/-- `emit_event` adds to streams and touches nothing else. -/
theorem Redis.emit_eq : ∃ events, s.emit jobId event = { s with events := events } := by
  unfold Redis.emit
  split
  · exact ⟨_, rfl⟩
  · split <;> exact ⟨_, rfl⟩

@[simp] theorem Redis.jobs_emit : (s.emit jobId event).jobs = s.jobs := by
  obtain ⟨events, h⟩ := s.emit_eq jobId event
  rw [h]

@[simp] theorem Redis.queues_emit : (s.emit jobId event).queues = s.queues := by
  obtain ⟨events, h⟩ := s.emit_eq jobId event
  rw [h]

@[simp] theorem Redis.usage_emit : (s.emit jobId event).usage = s.usage := by
  obtain ⟨events, h⟩ := s.emit_eq jobId event
  rw [h]

@[simp] theorem Redis.models_emit : (s.emit jobId event).models = s.models := by
  obtain ⟨events, h⟩ := s.emit_eq jobId event
  rw [h]

end Emit

/-! ### The end of a job -/

/-- The record of the root that ends with a child: there is none where the job is no child, and
where its root has no record or has ended already. -/
def Redis.endedRoot (s : Redis) (childJob : Job) : Option Job :=
  (childJob.rootJobId.filter fun rootJobId => rootJobId ≠ childJob.id).bind fun rootJobId =>
    (s.job? rootJobId).filter fun rootJob => rootJob.status.isTerminal = false

/-- `_synthesize_root_terminal_state`. -/
def Redis.synthesize (s : Redis) (childJob : Job) (status : Status) (stage : LifecycleStage)
    (event : Event) : Redis :=
  match s.endedRoot childJob with
  | none => s
  | some rootJob =>
    (s.set (rootTerminalRecord rootJob childJob status stage s.clockMs)).xadd
      (childJob.rootJobId.getD 0)
      (buildRootMirroredEvent (childJob.rootJobId.getD 0) childJob.id event)

/-- The root is looked up, stored as ended and told. -/
@[simp] theorem alone_synthesizeRootTerminalState (childJob : Job) (status : Status)
    (stage : LifecycleStage) (event : Event) (s : Redis) :
    alone (synthesizeRootTerminalState childJob status stage event) s =
      ((), s.synthesize childJob status stage event) := by
  unfold synthesizeRootTerminalState Redis.synthesize Redis.endedRoot
  cases childJob.rootJobId with
  | none => rfl
  | some rootJobId =>
    by_cases hself : rootJobId = childJob.id
    · simp [hself, Option.filter]
    · cases hroot : s.job? rootJobId with
      | none => simp [hself, Option.filter, hroot]
      | some rootJob =>
        cases hstatus : rootJob.status.isTerminal <;>
          simp [hself, Option.filter, hroot, hstatus]

/-- The job's share of each field of a usage hash. -/
def Job.share (job : Job) : Usage
  | .tokens => job.reservedTokens
  | .tokensOf workloadClass => if workloadClass = job.workloadClass then job.reservedTokens else 0
  | .vram => job.reservedVramMb
  | .ram => job.reservedRamMb
  | .activeJobs => 1

/-- What is reserved is no negative number. -/
theorem Job.share_nonneg (job : Job) (field : UsageField) : 0 ≤ job.share field := by
  cases field with
  | tokensOf workloadClass =>
    change 0 ≤ if workloadClass = job.workloadClass then (job.reservedTokens : ℤ) else 0
    split <;> omega
  | tokens => exact Int.natCast_nonneg _
  | vram => exact Int.natCast_nonneg _
  | ram => exact Int.natCast_nonneg _
  | activeJobs => exact Int.one_nonneg

/-- The state once every field of a target's usage is moved by the job's share of it. -/
def Redis.addShare (s : Redis) (targetId : TargetId) (sign : ℤ) (job : Job) : Redis :=
  { s with
    usage := Function.update s.usage targetId fun field =>
      s.usage targetId field + sign * job.share field }

/-- The writes of a reservation add the share of the job to the target, or take it away. -/
theorem Redis.writes_reservation (s : Redis) (targetId : TargetId) (sign : ℤ) (job : Job) :
    s.writes (reservationWrites targetId job.workloadClass sign job.reservedTokens
      job.reservedVramMb job.reservedRamMb) = s.addShare targetId sign job := by
  simp only [reservationWrites, writes_cons, writes_nil, write, hincrbyUsage, addShare,
    Function.update_self, Function.update_idem]
  congr 2
  funext field
  cases field with
  | tokensOf workloadClass =>
    by_cases h : workloadClass = job.workloadClass <;> simp [Function.update, Job.share, h]
  | _ => simp [Function.update, Job.share]

/-- One list of writes after the other. -/
theorem Redis.writes_append (s : Redis) (ws ws' : List Write) :
    s.writes (ws ++ ws') = (s.writes ws).writes ws' := List.foldl_append

/-- A usage hash once a job's share was taken off it: no field is left below zero. -/
def Usage.less (usage : Usage) (job : Job) : Usage := fun field =>
  max 0 (usage field - job.share field)

/-- The reference counts of a target once a job's model was taken off them: no count is left
below zero, and a model without a name was never counted. -/
def lessModel (models : String → ℤ) (job : Job) : String → ℤ :=
  if job.modelKey = "" then models
  else Function.update models job.modelKey (max 0 (models job.modelKey - 1))

/-- `_release_reserved_capacity`. -/
def Redis.release (s : Redis) (job : Job) : Redis :=
  match job.holder with
  | none => s
  | some targetId =>
    { s with
      usage := Function.update s.usage targetId ((s.usage targetId).less job)
      models := Function.update s.models targetId (lessModel (s.models targetId) job) }

/-- What a job has reserved is taken off its target, and no number falls below zero. -/
@[simp] theorem alone_releaseReservedCapacity (job : Job) (s : Redis) :
    alone (releaseReservedCapacity job) s = ((), s.release job) := by
  unfold releaseReservedCapacity Redis.release
  cases job.holder with
  | none => rfl
  | some targetId =>
    by_cases hkey : job.modelKey = ""
    · simp [hkey, Redis.writes_reservation, Redis.write, Redis.hsetUsage, Redis.addShare,
        lessModel]
      rfl
    · -- Where the model was counted at most once its count is deleted: `max 0` leaves zero.
      by_cases hlast : s.models targetId job.modelKey ≤ 1
      · simp [hkey, Redis.writes_append, Redis.writes_reservation, Redis.write, Redis.hsetUsage,
          Redis.addShare, lessModel, Redis.hincrbyModel, hlast, Redis.hdelModel]
        rfl
      · have hmax : max 0 (s.models targetId job.modelKey - 1) =
            s.models targetId job.modelKey + -1 := by omega
        simp [hkey, Redis.writes_append, Redis.writes_reservation, Redis.write, Redis.hsetUsage,
          Redis.addShare, lessModel, Redis.hincrbyModel, hlast, hmax]
        rfl

/-- `_remove_from_processing`. -/
def Redis.leave (s : Redis) (workerId : Option WorkerId) (jobId : JobId) : Redis :=
  match workerId.filter fun workerId => workerId ≠ "" with
  | none => s
  | some workerId => s.lrem (.processing workerId) jobId

/-- Without a worker there is no list to leave. -/
@[simp] theorem alone_removeFromProcessing (workerId : Option WorkerId) (jobId : JobId)
    (s : Redis) : alone (removeFromProcessing workerId jobId) s = ((), s.leave workerId jobId) := by
  unfold removeFromProcessing Redis.leave
  cases workerId with
  | none => rfl
  | some workerId => by_cases h : workerId = "" <;> simp [h, Option.filter]

/-- What every `mark_job_*` ends with. -/
def Redis.finish (s : Redis) (job : Job) (status : Status) (stage : LifecycleStage)
    (body : EventBody) (workerId : Option WorkerId) : Redis :=
  (((((s.set job).xadd job.id (Event.bare body)).synthesize job status stage
    (Event.bare body)).release job).leave (orWorker workerId job.assignedWorkerId) job.id).zrem
      job.id

/-- One after the other: the record, the event, the root, the reservation, the lists. -/
@[simp] theorem alone_finishJob (job : Job) (status : Status) (stage : LifecycleStage)
    (body : EventBody) (workerId : Option WorkerId) (s : Redis) :
    alone (finishJob job status stage body workerId) s =
      ((), s.finish job status stage body workerId) := by
  simp [finishJob, Redis.finish, Redis.write]

section Parts

variable (s : Redis) (job : Job) (status : Status) (stage : LifecycleStage) (body : EventBody)
  (event : Event) (workerId : Option WorkerId)

@[simp] theorem Redis.queues_synthesize :
    (s.synthesize job status stage event).queues = s.queues := by
  unfold Redis.synthesize
  split <;> rfl

@[simp] theorem Redis.usage_synthesize :
    (s.synthesize job status stage event).usage = s.usage := by
  unfold Redis.synthesize
  split <;> rfl

@[simp] theorem Redis.models_synthesize :
    (s.synthesize job status stage event).models = s.models := by
  unfold Redis.synthesize
  split <;> rfl

@[simp] theorem Redis.jobs_release : (s.release job).jobs = s.jobs := by
  unfold Redis.release
  split <;> rfl

@[simp] theorem Redis.queues_release : (s.release job).queues = s.queues := by
  unfold Redis.release
  split <;> rfl

/-- Only the target that holds the job is changed. -/
theorem Redis.usage_release : (s.release job).usage = match job.holder with
    | none => s.usage
    | some targetId =>
      Function.update s.usage targetId ((s.usage targetId).less job) := by
  unfold Redis.release
  split <;> simp_all

/-- The model counts one job less on that target, and a count that falls to zero is removed. -/
theorem Redis.models_release : (s.release job).models = match job.holder with
    | none => s.models
    | some targetId =>
      Function.update s.models targetId (lessModel (s.models targetId) job) := by
  unfold Redis.release
  split <;> simp_all

@[simp] theorem Redis.jobs_leave (jobId : JobId) : (s.leave workerId jobId).jobs = s.jobs := by
  unfold Redis.leave
  split <;> rfl

@[simp] theorem Redis.usage_leave (jobId : JobId) : (s.leave workerId jobId).usage = s.usage := by
  unfold Redis.leave
  split <;> rfl

@[simp] theorem Redis.models_leave (jobId : JobId) :
    (s.leave workerId jobId).models = s.models := by
  unfold Redis.leave
  split <;> rfl

/-- A pending list or a dispatch list: the lists a job waits in. -/
def Queue.isWaiting : Queue → Bool
  | .processing _ => false
  | _ => true

/-- The processing lists are none of those a job waits in. -/
theorem Redis.queues_lrem_processing (workerId : WorkerId) (jobId : JobId) {queue : Queue}
    (h : queue.isWaiting = true) :
    (s.lrem (.processing workerId) jobId).queues queue = s.queues queue := by
  refine Function.update_of_ne ?_ _ _
  rintro rfl
  cases h

/-- Leaving a processing list touches no list a job waits in. -/
theorem Redis.queues_leave (jobId : JobId) {queue : Queue} (h : queue.isWaiting = true) :
    (s.leave workerId jobId).queues queue = s.queues queue := by
  unfold Redis.leave
  split
  · rfl
  · exact s.queues_lrem_processing _ jobId h

/-- The root that ends with a job is another job, which had not ended. -/
theorem Redis.endedRoot_eq_some {s : Redis} {job rootJob : Job}
    (h : s.endedRoot job = some rootJob) :
    ∃ rootJobId, rootJobId ≠ job.id ∧ job.rootJobId = some rootJobId ∧
      s.job? rootJobId = some rootJob ∧ rootJob.status.isTerminal = false := by
  obtain ⟨rootJobId, hroot, hjob⟩ := Option.bind_eq_some_iff.mp h
  obtain ⟨hroot, hne⟩ := Option.filter_eq_some_iff.mp hroot
  obtain ⟨hjob, hstatus⟩ := Option.filter_eq_some_iff.mp hjob
  exact ⟨rootJobId, by simpa using hne, hroot, hjob, by simpa using hstatus⟩

/-- Which root ends with a job is read off the records. -/
theorem Redis.endedRoot_congr {s s' : Redis} (h : s'.jobs = s.jobs) (job : Job) :
    s'.endedRoot job = s.endedRoot job := by
  unfold Redis.endedRoot
  simp only [Redis.job?_congr h]

/-- Saving the job itself does not change which root ends with it. -/
theorem Redis.endedRoot_set : (s.set job).endedRoot job = s.endedRoot job := by
  unfold Redis.endedRoot
  cases hroot : job.rootJobId with
  | none => rfl
  | some rootJobId =>
    by_cases hself : rootJobId = job.id
    · simp [hself, Option.filter]
    · simp [hself, Option.filter, job?_set]

/-- The records after the end of a job: its own, and its root's if that ends with it. -/
theorem Redis.jobs_finish : (s.finish job status stage body workerId).jobs =
    match s.endedRoot job with
    | none => s.jobs.insert job.id job
    | some rootJob => (s.jobs.insert job.id job).insert rootJob.id
        (rootTerminalRecord rootJob job status stage s.clockMs) := by
  have hroot : ((s.set job).xadd job.id (Event.bare body)).endedRoot job = s.endedRoot job :=
    s.endedRoot_set job
  simp only [Redis.finish, jobs_zrem, jobs_leave, jobs_release, Redis.synthesize, hroot]
  cases s.endedRoot job <;> rfl

/-- The lists a job can wait in stay as they are. -/
theorem Redis.queues_finish {queue : Queue} (h : queue.isWaiting = true) :
    (s.finish job status stage body workerId).queues queue = s.queues queue := by
  simp [Redis.finish, Redis.queues_leave _ _ _ h]

/-- A job that ends gives its reservation back. -/
theorem Redis.usage_finish :
    (s.finish job status stage body workerId).usage = (s.release job).usage := by
  simp [Redis.finish, Redis.usage_release]

/-- So does its model. -/
theorem Redis.models_finish :
    (s.finish job status stage body workerId).models = (s.release job).models := by
  simp [Redis.finish, Redis.models_release]

end Parts

/-- The record of a completed job. -/
def completedRecord (job : Job) (responseText : Text) (nowMs : ℕ) : Job :=
  { job with status := .completed, finishedAtMs := some nowMs, result := some responseText }

/-- The record of a failed job. -/
def failedRecord (job : Job) (errorText : Text) (nowMs : ℕ) : Job :=
  { job with status := .failed, finishedAtMs := some nowMs, error := some errorText }

/-- The record of a cancelled job. -/
def cancelledRecord (job : Job) (nowMs : ℕ) : Job :=
  { job with status := .cancelled, finishedAtMs := some nowMs }

/-- The new record is the old one, ended: what it reserved and where is still there. -/
structure EndOf (old new : Job) : Prop where
  /-- It has ended. -/
  ended : new.status.isTerminal = true
  /-- What was written once is the same. -/
  spec : new.toJobSpec = old.toJobSpec
  /-- The target. -/
  target : new.assignedTargetId = old.assignedTargetId
  /-- The share. -/
  share : new.share = old.share

/-- A record with an answer is an end. -/
theorem endOf_completedRecord (job : Job) (responseText : Text) (nowMs : ℕ) :
    EndOf job (completedRecord job responseText nowMs) := ⟨rfl, rfl, rfl, rfl⟩

/-- A record with an error is an end, whatever the number of retries. -/
theorem endOf_failedRecord (job : Job) (retryCount : ℕ) (errorText : Text) (nowMs : ℕ) :
    EndOf job (failedRecord { job with retryCount := retryCount } errorText nowMs) :=
  ⟨rfl, rfl, rfl, rfl⟩

/-- A record that was cancelled is an end. -/
theorem endOf_cancelledRecord (job : Job) (nowMs : ℕ) : EndOf job (cancelledRecord job nowMs) :=
  ⟨rfl, rfl, rfl, rfl⟩

/-- A job ends under its own id. -/
theorem EndOf.id {old new : Job} (h : EndOf old new) : new.id = old.id :=
  congrArg JobSpec.id h.spec

/-- A job ends with its own model. -/
theorem EndOf.model {old new : Job} (h : EndOf old new) : new.modelKey = old.modelKey :=
  congrArg JobSpec.modelKey h.spec

/-- An ended record releases what the old one did. -/
theorem EndOf.release_eq {old new : Job} (h : EndOf old new) (s : Redis) :
    s.release new = s.release old := by
  have hholder : new.holder = old.holder := by rw [Job.holder, Job.holder, h.target]
  have hless : ∀ usage : Usage, usage.less new = usage.less old := fun usage => by
    funext field
    rw [Usage.less, Usage.less, h.share]
  have hmodel : ∀ models, lessModel models new = lessModel models old := fun models => by
    rw [lessModel, lessModel, h.model]
  simp only [Redis.release, hholder, hless, hmodel]

/-- An ended record ends the root the old one would have ended. -/
theorem EndOf.endedRoot_eq {old new : Job} (h : EndOf old new) (s : Redis) :
    s.endedRoot new = s.endedRoot old := by
  rw [Redis.endedRoot, Redis.endedRoot, congrArg JobSpec.rootJobId h.spec, h.id]

/-- `_mark_job_failed_from_record`. -/
def Redis.failFrom (s : Redis) (job : Job) (errorText : Text) (workerId : Option WorkerId) :
    Redis :=
  s.finish (failedRecord job errorText s.clockMs) .failed .childFailed (.failed errorText) workerId

/-- `mark_job_cancelled`. -/
def Redis.cancel (s : Redis) (jobId : JobId) (workerId : Option WorkerId) : Redis :=
  match (s.job? jobId).filter fun job => job.status.isTerminal = false with
  | none => s
  | some job =>
    s.finish (cancelledRecord job s.clockMs) .cancelled .childCancelled .cancelled workerId

/-- A job without a record is not completed. -/
@[simp] theorem alone_markJobCompleted (jobId : JobId) (responseText : Text)
    (workerId : Option WorkerId) (s : Redis) :
    alone (markJobCompleted jobId responseText workerId) s = ((), match s.job? jobId with
      | none => s
      | some job => s.finish (completedRecord job responseText s.clockMs) .completed
          .childCompleted .done workerId) := by
  simp only [markJobCompleted, alone_bind, alone_getJob]
  cases s.job? jobId with
  | none => rfl
  | some job => simp [completedRecord]

/-- The record that is given counts, not the one in the store. -/
@[simp] theorem alone_markJobFailedFromRecord (job : Job) (errorText : Text)
    (workerId : Option WorkerId) (s : Redis) :
    alone (markJobFailedFromRecord job errorText workerId) s =
      ((), s.failFrom job errorText workerId) := by
  simp [markJobFailedFromRecord, Redis.failFrom, failedRecord]

/-- A job without a record does not fail. -/
@[simp] theorem alone_markJobFailed (jobId : JobId) (errorText : Text)
    (workerId : Option WorkerId) (s : Redis) :
    alone (markJobFailed jobId errorText workerId) s = ((), match s.job? jobId with
      | none => s
      | some job => s.failFrom job errorText workerId) := by
  simp only [markJobFailed, alone_bind, alone_getJob]
  cases s.job? jobId <;> simp

/-- A job that has ended is not cancelled. -/
@[simp] theorem alone_markJobCancelled (jobId : JobId) (workerId : Option WorkerId) (s : Redis) :
    alone (markJobCancelled jobId workerId) s = ((), s.cancel jobId workerId) := by
  simp only [markJobCancelled, alone_bind, alone_getJob, Redis.cancel]
  cases s.job? jobId with
  | none => rfl
  | some job =>
    cases hstatus : job.status.isTerminal <;> simp [hstatus, Option.filter, cancelledRecord]

/-! ### Routing and enqueueing -/

/-- A program that leaves the state as it is. -/
def ReadOnly (p : Gw α) : Prop := ∀ s, (alone p s).2 = s

/-- Workers and targets are looked at. -/
theorem readOnly_hasWorkerForTargetKind (workloadClass : Workload) (targetKind : TargetKind) :
    ReadOnly (hasWorkerForTargetKind workloadClass targetKind) := by
  intro s
  simp only [hasWorkerForTargetKind, alone_bind, alone_workers]
  by_cases hworkers : s.workers.isEmpty = true <;> simp [hworkers]

/-- Where a job is to run is decided by what is read. -/
theorem readOnly_resolveTargetKind (cfg : Settings) (workloadClass : Workload) :
    ReadOnly (resolveTargetKind cfg workloadClass) := by
  intro s
  unfold resolveTargetKind
  split
  · rfl
  · rw [alone_bind]
    split <;> exact readOnly_hasWorkerForTargetKind _ _ s

/-- The record `downgrade_job_target_kind_if_needed` returns. -/
def Redis.downgraded (s : Redis) (job : Job) : Job :=
  (alone (downgradeJobTargetKindIfNeeded job) s).1

/-- The record is changed and not stored. -/
@[simp] theorem alone_downgradeJobTargetKindIfNeeded (job : Job) (s : Redis) :
    alone (downgradeJobTargetKindIfNeeded job) s = (s.downgraded job, s) := by
  refine Prod.ext rfl ?_
  unfold downgradeJobTargetKindIfNeeded
  split
  · rfl
  · rw [alone_bind]
    split <;> exact readOnly_hasWorkerForTargetKind _ _ s

/-- A downgrade changes the target kind and nothing else. -/
theorem Redis.downgraded_eq (s : Redis) (job : Job) :
    ∃ targetKind, s.downgraded job = { job with targetKind := targetKind } := by
  unfold Redis.downgraded downgradeJobTargetKindIfNeeded
  split
  · exact ⟨job.targetKind, rfl⟩
  · rw [alone_bind]
    split
    · exact ⟨job.targetKind, rfl⟩
    · exact ⟨.cpu, rfl⟩

/-- The lengths are added up. -/
@[simp] theorem alone_pendingLength (qs : List (Workload × Priority)) (s : Redis) :
    alone (pendingLength qs) s =
      ((qs.map fun q => (s.queues (.pending q.1 q.2)).length).sum, s) := by
  induction qs with
  | nil => rfl
  | cons q qs ih => simp [pendingLength, ih]

/-- Targets and workers are counted. -/
theorem readOnly_dynamicQueueLimit (cfg : Settings) : ReadOnly (dynamicQueueLimit cfg) := by
  intro s
  simp [dynamicQueueLimit]

/-- What `enqueue_job` writes in one transaction. -/
def Redis.push (s : Redis) (job : Job) : Redis :=
  ((s.set job).rpush (.pending job.workloadClass job.priority) job.id).xadd job.id
    (Event.of job.id .queued)

@[simp] theorem Redis.jobs_push (s : Redis) (job : Job) :
    (s.push job).jobs = s.jobs.insert job.id job := rfl

/-- A job that is pushed is found under its id. -/
theorem Redis.job?_push (s : Redis) (job : Job) (k : JobId) :
    (s.push job).job? k = if k = job.id then some job else s.job? k := job?_set s job k

/-- **What a call of `enqueue_job` for an id does**: it refuses and writes nothing, or it pushes
one fresh record of the arguments. -/
theorem alone_enqueueNewJob (cfg : Settings) (a : EnqueueArgs) (jobId : JobId) (s : Redis) :
    (∃ e, alone (enqueueNewJob cfg a jobId) s = (.error e, s)) ∨
      ∃ modelInfo targetKind,
        alone (enqueueNewJob cfg a jobId) s =
          (.ok jobId, s.push (newJob cfg a jobId modelInfo targetKind s.clockMs)) := by
  have htotal : alone getTotalPendingJobs s = ((alone getTotalPendingJobs s).1, s) := by
    rw [getTotalPendingJobs, alone_pendingLength]
  have hlimit : (alone (dynamicQueueLimit cfg) s).2 = s := readOnly_dynamicQueueLimit cfg s
  have hkind := readOnly_resolveTargetKind cfg (normalizeWorkloadClass a.workloadClass) s
  unfold enqueueNewJob
  rw [alone_bind, htotal, alone_bind, hlimit]
  by_cases hsaturated : (alone (dynamicQueueLimit cfg) s).1 ≤ (alone getTotalPendingJobs s).1
  · exact .inl ⟨_, by rw [if_pos hsaturated]; rfl⟩
  · simp only [hsaturated, if_false, alone_bind, alone_catalog]
    by_cases hempty : s.catalog.isEmpty = true
    · exact .inl ⟨.noModels, by simp [hempty]⟩
    · cases hmodel : catalogModel s.catalog a.modelKey a.modelName with
      | none => exact .inl ⟨_, by simp [hempty]; rfl⟩
      | some modelInfo =>
        refine .inr ⟨modelInfo,
          (alone (resolveTargetKind cfg (normalizeWorkloadClass a.workloadClass)) s).1, ?_⟩
        simp [hempty, hkind, Redis.push, Redis.write]
        rfl

/-- What `enqueue_job` does, where the id it makes up is new: nothing, or the push of one fresh
record under an id that had none. -/
theorem enqueueJob_cases (cfg : Settings) (a : EnqueueArgs) (uuid : JobId) (s : Redis)
    (hnew : a.jobIdOverride = none → s.job? uuid = none) :
    (alone (enqueueJob cfg a uuid) s).2 = s ∨
      ∃ jobId modelInfo targetKind, s.job? jobId = none ∧
        (alone (enqueueJob cfg a uuid) s).2 =
          s.push (newJob cfg a jobId modelInfo targetKind s.clockMs) ∧
        jobId = a.jobIdOverride.getD uuid := by
  have hnewJob : ∀ k, s.job? k = none → (alone (enqueueNewJob cfg a k) s).2 = s ∨
      ∃ jobId modelInfo targetKind, s.job? jobId = none ∧
        (alone (enqueueNewJob cfg a k) s).2 =
          s.push (newJob cfg a jobId modelInfo targetKind s.clockMs) ∧ jobId = k := by
    intro k hnone
    rcases alone_enqueueNewJob cfg a k s with ⟨e, hrun⟩ | ⟨modelInfo, targetKind, hrun⟩
    · exact .inl (by rw [hrun])
    · exact .inr ⟨k, modelInfo, targetKind, hnone, by rw [hrun], rfl⟩
  unfold enqueueJob
  cases hid : a.jobIdOverride with
  | none => exact hnewJob uuid (hnew hid)
  | some requestedJobId =>
    simp only [alone_bind, alone_getJob]
    cases hfound : s.job? requestedJobId with
    | some job => exact .inl rfl
    | none => exact hnewJob requestedJobId hfound

end Gateway

end AiAgent

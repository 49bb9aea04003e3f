import AiAgent.Gateway.Admission

/-!
# The operations of the gateway

`LLMGateway`, operation by operation, as programs on the shared Redis. A program issues its
commands in the order the source does, so that run alone it is the whole operation and run among
others it can be interrupted between any two commands.

An exception ends an operation; the operations that raise return an `Except`. A lock taken by
`async with` is given back on every way out (`AiAgent.Gateway.withLock`).

`save_job` takes the key from the record, so a record is found under its own id. Where the source
goes on with the id an operation was called with or with the one in the record that was found,
the model goes on with the record's.
-/

namespace AiAgent

namespace Gateway

/-- What an operation raises. -/
inductive GatewayError where
  /-- `HTTPException(503, "LLM queue is saturated")`. -/
  | queueSaturated
  /-- `HTTPException(503, "No LLM models available")`. -/
  | noModels
  /-- `HTTPException(404, "LLM model not found: ..")`. -/
  | modelNotFound (model : String)
  /-- `HTTPException(403, "Forbidden")`. -/
  | forbidden
  /-- `RuntimeError("Linked child job is missing")`. -/
  | linkedChildMissing
  /-- `RuntimeError("Parser root job not found")`. -/
  | rootNotFound
  /-- `ParserChildEnqueueCancelled`. -/
  | childEnqueueCancelled
  /-- `RuntimeError("Prepared child job must be file_chat")`. -/
  | childNotFileChat
  /-- `RecursionError`. -/
  | recursion
  deriving DecidableEq, Repr

/-- `str(exc)`. -/
def GatewayError.message : GatewayError → String
  | .queueSaturated => "503: LLM queue is saturated"
  | .noModels => "503: No LLM models available"
  | .modelNotFound model => "404: LLM model not found: " ++ model
  | .forbidden => "403: Forbidden"
  | .linkedChildMissing => "Linked child job is missing"
  | .rootNotFound => "Parser root job not found"
  | .childEnqueueCancelled => "Parser root was cancelled before child enqueue"
  | .childNotFileChat => "Prepared child job must be file_chat"
  | .recursion => "maximum recursion depth exceeded"

/-- `async with lock`. -/
def withLock {α : Type} (l : Lock) (body : Gw α) : Gw α := do
  ask (.lock l)
  let result ← body
  ask (.unlock l)
  return result

/-- `a or b`, for worker ids: an empty id counts as none. -/
def orWorker (a b : Option WorkerId) : Option WorkerId :=
  match a with
  | none => b
  | some workerId => if workerId = "" then b else some workerId

/-! ### Records and events -/

/-- `get_job`. -/
def getJob (jobId : JobId) : Gw (Option Job) := ask (.get jobId)

/-- `save_job`. -/
def saveJob (job : Job) : Gw Unit := ask (.write [.set job])

/-- `_append_event`. -/
def appendEvent (jobId : JobId) (event : Event) : Gw Unit := ask (.write [.xadd jobId event])

/-- `_get_distinct_root_job_id`. -/
def getDistinctRootJobId (jobId : JobId) : Gw (Option JobId) := do
  match ← getJob jobId with
  | none => return none
  | some job =>
    match job.rootJobId with
    | none => return none
    | some rootJobId => return if rootJobId = jobId then none else some rootJobId

/-- `emit_event`: an event that does not end the stream is mirrored to the root. -/
def emitEvent (jobId : JobId) (event : Event) : Gw Unit := do
  appendEvent jobId event
  if event.isDone then return ()
  else
    match ← getDistinctRootJobId jobId with
    | none => return ()
    | some rootJobId => appendEvent rootJobId (buildRootMirroredEvent rootJobId jobId event)

/-- The root's record once its child has ended in `status`. -/
def rootTerminalRecord (rootJob childJob : Job) (status : Status) (stage : LifecycleStage)
    (nowMs : ℕ) : Job :=
  { rootJob with
    status := status
    finishedAtMs := some nowMs
    childJobId := some childJob.id
    lifecycleStage := some stage
    parserMetadata := some
      { phase := some stage
        childJobId := some childJob.id
        rawDeleted := rootJob.parserMetadata.bind ParserMetadata.rawDeleted }
    result := if status = .completed then childJob.result else none
    error :=
      if status = .failed then
        match childJob.error with
        | none => some genericChatError
        | some error => if error = [] then some genericChatError else some error
      else none }

/-- `_synthesize_root_terminal_state`: a child that ends ends its root, unless the root has
ended already. -/
def synthesizeRootTerminalState (childJob : Job) (status : Status) (stage : LifecycleStage)
    (event : Event) : Gw Unit := do
  match childJob.rootJobId with
  | none => return ()
  | some rootJobId =>
    if rootJobId = childJob.id then return ()
    else
      match ← getJob rootJobId with
      | none => return ()
      | some rootJob =>
        if rootJob.status.isTerminal then return ()
        else
          let nowMs ← ask .time
          saveJob (rootTerminalRecord rootJob childJob status stage nowMs)
          appendEvent rootJobId (buildRootMirroredEvent rootJobId childJob.id event)

/-! ### Capacity and processing lists -/

/-- The fields `HINCRBY` moves when a job takes or gives back its share of a target. -/
def reservationWrites (targetId : TargetId) (workloadClass : Workload) (sign : ℤ)
    (tokens vram ram : ℕ) : List Write :=
  [.hincrbyUsage targetId .tokens (sign * tokens),
    .hincrbyUsage targetId (.tokensOf workloadClass) (sign * tokens),
    .hincrbyUsage targetId .vram (sign * vram),
    .hincrbyUsage targetId .ram (sign * ram),
    .hincrbyUsage targetId .activeJobs sign]

/-- `_release_reserved_capacity`: what the record says is reserved is taken off the target, and
a field that went below zero is put back to zero. -/
def releaseReservedCapacity (job : Job) : Gw Unit := do
  match job.holder with
  | none => return ()
  | some targetId =>
    withLock (.target targetId) do
      ask (.write (reservationWrites targetId job.workloadClass (-1) job.reservedTokens
        job.reservedVramMb job.reservedRamMb ++
        if job.modelKey = "" then [] else [.hincrbyModel targetId job.modelKey (-1)]))
      -- What went below zero is put back, so a share that is given back twice leaves no trace of
      -- its own.
      let usage ← ask (.hgetallUsage targetId)
      ask (.write [.hsetUsage targetId fun field => max 0 (usage field)])
      if job.modelKey = "" then return ()
      else
        let remaining ← ask (.hgetModel targetId job.modelKey)
        if remaining ≤ 0 then ask (.write [.hdelModel targetId job.modelKey])
        else return ()

/-- `_remove_from_processing`. -/
def removeFromProcessing (workerId : Option WorkerId) (jobId : JobId) : Gw Unit := do
  match workerId with
  | none => return ()
  | some workerId =>
    if workerId = "" then return ()
    else
      let _ ← ask (.lrem (.processing workerId) jobId)
      return ()

/-- The end that every `mark_job_*` shares: the record is saved, the stream is closed, the root
follows, the capacity goes back and the id leaves the processing list and the active set. -/
def finishJob (job : Job) (status : Status) (stage : LifecycleStage) (body : EventBody)
    (workerId : Option WorkerId) : Gw Unit := do
  saveJob job
  appendEvent job.id (Event.bare body)
  synthesizeRootTerminalState job status stage (Event.bare body)
  releaseReservedCapacity job
  removeFromProcessing (orWorker workerId job.assignedWorkerId) job.id
  ask (.write [.zrem job.id])

/-- `mark_job_completed`. The status of the record is not looked at. -/
def markJobCompleted (jobId : JobId) (responseText : Text) (workerId : Option WorkerId) :
    Gw Unit := do
  match ← getJob jobId with
  | none => return ()
  | some job =>
    let nowMs ← ask .time
    finishJob
      { job with status := .completed, finishedAtMs := some nowMs, result := some responseText }
      .completed .childCompleted .done workerId

/-- `_mark_job_failed_from_record`. -/
def markJobFailedFromRecord (job : Job) (errorText : Text) (workerId : Option WorkerId) :
    Gw Unit := do
  let nowMs ← ask .time
  finishJob { job with status := .failed, finishedAtMs := some nowMs, error := some errorText }
    .failed .childFailed (.failed errorText) workerId

/-- `mark_job_failed`. The status of the record is not looked at. -/
def markJobFailed (jobId : JobId) (errorText : Text) (workerId : Option WorkerId) : Gw Unit := do
  match ← getJob jobId with
  | none => return ()
  | some job => markJobFailedFromRecord job errorText workerId

/-- `mark_job_cancelled`: the one mark that leaves an ended job alone. -/
def markJobCancelled (jobId : JobId) (workerId : Option WorkerId) : Gw Unit := do
  match ← getJob jobId with
  | none => return ()
  | some job =>
    if job.status.isTerminal then return ()
    else
      let nowMs ← ask .time
      finishJob { job with status := .cancelled, finishedAtMs := some nowMs }
        .cancelled .childCancelled .cancelled workerId

/-! ### Routing -/

/-- `has_worker_for_target_kind`. -/
def hasWorkerForTargetKind (workloadClass : Workload) (targetKind : TargetKind) : Gw Bool := do
  let workers ← ask .workers
  if workers.isEmpty then return false
  else
    let targets ← ask .targets
    return workers.any fun worker =>
      worker.workerPool = workerPoolForWorkload workloadClass &&
        match targets.find? fun target => target.targetId = worker.targetId with
        | none => false
        | some target => normalizeTargetKind target.targetKind = targetKind

/-- `resolve_target_kind`. -/
def resolveTargetKind (cfg : Settings) (workloadClass : Workload) : Gw TargetKind := do
  if cfg.gpuEnabled = false then return .cpu
  else if ← hasWorkerForTargetKind workloadClass .gpu then return .gpu
  else return .cpu

/-- `downgrade_job_target_kind_if_needed`. -/
def downgradeJobTargetKindIfNeeded (job : Job) : Gw Job := do
  if job.targetKind ≠ .gpu then return job
  else if ← hasWorkerForTargetKind job.workloadClass .gpu then return job
  else return { job with targetKind := .cpu }

/-! ### Enqueueing -/

/-- The sum of the lengths of some pending queues. -/
def pendingLength : List (Workload × Priority) → Gw ℕ
  | [] => return 0
  | q :: qs => do
    let length ← ask (.llen (.pending q.1 q.2))
    let rest ← pendingLength qs
    return length + rest

/-- `get_total_pending_jobs`. -/
def getTotalPendingJobs : Gw ℕ := pendingLength queueOrder

/-- `_dynamic_queue_limit`. -/
def dynamicQueueLimit (cfg : Settings) : Gw ℕ := do
  let targets ← ask .targets
  let workers ← ask .workers
  let clusterTokens := (targets.map fun target => max 1 target.baseCapacityTokens).sum
  let workerBias := workers.length * cfg.backpressureWorkerWeight
  return max cfg.minQueueDepth (clusterTokens * cfg.queueFactor + workerBias)

/-- `approximate_token_count`. -/
def approximateTokenCount (text : Text) : ℕ :=
  if text.strip = [] then 0 else max 1 ((text.strip.length + 3) / 4)

/-- The arguments of `enqueue_job`. -/
structure EnqueueArgs where
  /-- `username`. -/
  username : String
  /-- `model_key`. -/
  modelKey : String
  /-- `model_name`. -/
  modelName : String
  /-- `prompt`. -/
  prompt : Text
  /-- `history`. -/
  history : List Message
  /-- `thread_id`. -/
  threadId : Option Text := none
  /-- `job_kind`. -/
  jobKind : Text := "chat".toList
  /-- `file_chat`. -/
  fileChat : Option FileChat := none
  /-- `workload_class`. -/
  workloadClass : Text := "chat".toList
  /-- `priority`. -/
  priority : Option Text := none
  /-- `context_tokens`. -/
  contextTokens : ℕ := 0
  /-- `max_output_tokens`. -/
  maxOutputTokens : ℕ := 0
  /-- `root_job_id`. -/
  rootJobId : Option JobId := none
  /-- `parent_job_id`. -/
  parentJobId : Option JobId := none
  /-- `staging_id`. -/
  stagingId : Option String := none
  /-- `parser_metadata`. -/
  parserMetadata : Option ParserMetadata := none
  /-- `lifecycle_stage`. -/
  lifecycleStage : Option LifecycleStage := none
  /-- `child_job_id`. -/
  childJobId : Option JobId := none
  /-- `job_id_override`. -/
  jobIdOverride : Option JobId := none

/-- `AsyncChatStore.normalize_thread_id`. -/
def normalizeThreadId (threadId : Option Text) : Text :=
  let normalized := (threadId.getD []).strip
  if normalized = [] then "default".toList else normalized

/-- The record `enqueue_job` writes. -/
def newJob (cfg : Settings) (a : EnqueueArgs) (jobId : JobId) (modelInfo : ModelInfo)
    (targetKind : TargetKind) (nowMs : ℕ) : Job :=
  let workloadClass := normalizeWorkloadClass a.workloadClass
  { id := jobId
    username := a.username
    threadId := normalizeThreadId a.threadId
    jobKind := normalizeJobKind a.jobKind
    workloadClass := workloadClass
    priority := normalizePriority workloadClass a.priority
    workerPool := workerPoolForWorkload workloadClass
    modelKey := a.modelKey
    modelName := a.modelName
    modelInfo := modelInfo
    prompt := a.prompt
    history := a.history
    promptTokens := approximateTokenCount a.prompt +
      (a.history.map fun message => approximateTokenCount message.content).sum
    contextTokens := if a.contextTokens = 0 then cfg.defaultContextTokens else a.contextTokens
    maxOutputTokens :=
      if a.maxOutputTokens = 0 then cfg.defaultMaxOutputTokens else a.maxOutputTokens
    createdAtMs := nowMs
    deadlineAt := nowMs / 1000 + cfg.jobDeadlineSeconds
    maxRetries := cfg.maxJobRetries
    fileChat := a.fileChat
    rootJobId := a.rootJobId
    parentJobId := a.parentJobId
    stagingId := a.stagingId
    status := .queued
    targetKind := targetKind
    enqueuedAtMs := nowMs
    admittedAtMs := none
    startedAtMs := none
    finishedAtMs := none
    queueWaitMs := 0
    retryCount := 0
    cancelRequested := false
    error := none
    result := none
    assignedTargetId := none
    assignedWorkerId := none
    leaseUntil := none
    reservedTokens := 0
    reservedVramMb := 0
    reservedRamMb := 0
    profile := none
    parserMetadata := a.parserMetadata
    lifecycleStage := a.lifecycleStage
    childJobId := a.childJobId }

/-- `catalog.get(model_key) or catalog.get(model_name)`. -/
def catalogModel (catalog : List (String × ModelInfo)) (modelKey modelName : String) :
    Option ModelInfo :=
  (catalog.lookup modelKey).or (catalog.lookup modelName)

/-- `enqueue_job` once the id is known to be new. -/
def enqueueNewJob (cfg : Settings) (a : EnqueueArgs) (jobId : JobId) :
    Gw (Except GatewayError JobId) := do
  let totalPending ← getTotalPendingJobs
  let limit ← dynamicQueueLimit cfg
  -- The check and the push are two commands, so others may push between them.
  if limit ≤ totalPending then return .error .queueSaturated
  else
    let catalog ← ask .catalog
    if catalog.isEmpty then return .error .noModels
    else
      match catalogModel catalog a.modelKey a.modelName with
      | none =>
        let missing := if a.modelName = "" then a.modelKey else a.modelName
        return .error (.modelNotFound (if missing = "" then "unknown" else missing))
      | some modelInfo =>
        let targetKind ← resolveTargetKind cfg (normalizeWorkloadClass a.workloadClass)
        let nowMs ← ask .time
        let job := newJob cfg a jobId modelInfo targetKind nowMs
        ask (.write [.set job, .rpush (.pending job.workloadClass job.priority) jobId,
          .xadd jobId (Event.of jobId .queued)])
        return .ok jobId

/-- `enqueue_job`; `uuid` is what `uuid4().hex` returns in this call. An id that is asked for and
already has a record is returned as it is. -/
def enqueueJob (cfg : Settings) (a : EnqueueArgs) (uuid : JobId) :
    Gw (Except GatewayError JobId) := do
  match a.jobIdOverride with
  | none => enqueueNewJob cfg a uuid
  | some requestedJobId =>
    match ← getJob requestedJobId with
    | some _ => return .ok requestedJobId
    | none => enqueueNewJob cfg a requestedJobId

/-! ### A parser root and its child -/

/-- `get_linked_child_job_id`. -/
def getLinkedChildJobId (cfg : Settings) (rootJobId : JobId) :
    Gw (Except GatewayError (Option JobId)) :=
  withLock (.job rootJobId) do
    match ← getJob rootJobId with
    | none => return .ok none
    | some rootJob =>
      match rootJob.childJobId with
      | some existingChildId =>
        match ← getJob existingChildId with
        | none => return .error .linkedChildMissing
        | some _ => return .ok (some existingChildId)
      | none =>
        let derivedChildId := cfg.derivedChildJobId rootJobId
        match ← getJob derivedChildId with
        | none => return .ok none
        | some _ =>
          saveJob { rootJob with childJobId := some derivedChildId }
          return .ok (some derivedChildId)

/-- `prepared_llm_job`: what the parser prepared for the child. -/
structure PreparedLlmJob where
  /-- `job_kind`. -/
  jobKind : Text
  /-- `model_key`. -/
  modelKey : String
  /-- `model_name`. -/
  modelName : String
  /-- `prompt`. -/
  prompt : Text
  /-- `history`. -/
  history : List Message
  /-- `thread_id`. -/
  threadId : Option Text
  /-- `file_chat`. -/
  fileChat : Option FileChat
  /-- `workload_class`; an empty one is chat. -/
  workloadClass : Text
  /-- `staging_id`. -/
  stagingId : Option String

/-- What `enqueue_child_job_once` passes to `enqueue_job`. -/
def childArgs (rootJobId : JobId) (rootJob : Job) (prepared : PreparedLlmJob)
    (childJobId : JobId) : EnqueueArgs where
  username := rootJob.username
  modelKey := prepared.modelKey
  modelName := prepared.modelName
  prompt := prepared.prompt
  history := prepared.history
  threadId := prepared.threadId
  jobKind := "file_chat".toList
  fileChat := prepared.fileChat
  workloadClass := if prepared.workloadClass = [] then "chat".toList else prepared.workloadClass
  rootJobId := some rootJobId
  parentJobId := some rootJobId
  stagingId := prepared.stagingId.or rootJob.stagingId
  jobIdOverride := some childJobId

/-- The last two commands of `enqueue_child_job_once`: the root is read again and linked. -/
def linkChild (rootJobId : JobId) (rootJob : Job) (childJobId : JobId) : Gw Unit := do
  let rootJob := (← getJob rootJobId).getD rootJob
  saveJob { rootJob with childJobId := some childJobId }

/-- `enqueue_child_job_once` where no child was found: it is enqueued, and the root is linked. -/
def createChild (cfg : Settings) (rootJobId : JobId) (rootJob : Job) (prepared : PreparedLlmJob)
    (childJobId : JobId) : Gw (Except GatewayError (JobId × Bool)) := do
  if Text.lower prepared.jobKind.strip ≠ "file_chat".toList then
    return .error .childNotFileChat
  else
    match ← enqueueJob cfg (childArgs rootJobId rootJob prepared childJobId) childJobId with
    | .error e => return .error e
    | .ok childJobId =>
      linkChild rootJobId rootJob childJobId
      return .ok (childJobId, true)

/-- `enqueue_child_job_once` for a root that is not linked yet. -/
def findOrCreateChild (cfg : Settings) (rootJobId : JobId) (rootJob : Job)
    (prepared : PreparedLlmJob) : Gw (Except GatewayError (JobId × Bool)) := do
  if rootJob.status.isTerminal || rootJob.cancelRequested then
    return .error .childEnqueueCancelled
  else
    let childJobId := cfg.derivedChildJobId rootJobId
    -- The child may be there from a call that died before it linked the root.
    match ← getJob childJobId with
    | some _ =>
      linkChild rootJobId rootJob childJobId
      return .ok (childJobId, false)
    | none => createChild cfg rootJobId rootJob prepared childJobId

/-- `enqueue_child_job_once`. -/
def enqueueChildJobOnce (cfg : Settings) (rootJobId : JobId) (prepared : PreparedLlmJob) :
    Gw (Except GatewayError (JobId × Bool)) :=
  withLock (.job rootJobId) do
    match ← getJob rootJobId with
    | none => return .error .rootNotFound
    | some rootJob =>
      match rootJob.childJobId with
      | some existingChildId =>
        match ← getJob existingChildId with
        | none => return .error .linkedChildMissing
        | some _ => return .ok (existingChildId, false)
      | none => findOrCreateChild cfg rootJobId rootJob prepared

/-- `merged_parser_metadata`: the updates over what was there. -/
def mergeParserMetadata (old : Option ParserMetadata) (updates : ParserMetadata) :
    ParserMetadata where
  phase := updates.phase.or (old.bind ParserMetadata.phase)
  childJobId := updates.childJobId.or (old.bind ParserMetadata.childJobId)
  rawDeleted := updates.rawDeleted.or (old.bind ParserMetadata.rawDeleted)

/-- The record of a root that waits on its child: the reservation is off the record. -/
def waitingRecord (job : Job) (childJobId : JobId) (stage : LifecycleStage)
    (updates : ParserMetadata) : Job :=
  { job with
    childJobId := some childJobId
    lifecycleStage := some stage
    parserMetadata := some (mergeParserMetadata job.parserMetadata updates)
    assignedTargetId := none
    assignedWorkerId := none
    leaseUntil := none
    reservedTokens := 0
    reservedVramMb := 0
    reservedRamMb := 0
    profile := none }

/-- `mark_job_waiting_on_child`. -/
def markJobWaitingOnChild (jobId childJobId : JobId) (stage : LifecycleStage)
    (updates : ParserMetadata) (workerId : Option WorkerId) : Gw Unit := do
  match ← getJob jobId with
  | none => return ()
  | some job =>
    -- The status stays as it is, so a root that waits is still running.
    saveJob (waitingRecord job childJobId stage updates)
    releaseReservedCapacity job
    removeFromProcessing (orWorker workerId job.assignedWorkerId) jobId
    ask (.write [.zrem jobId])

/-! ### Cancelling -/

/-- `LREM` on the list a queued or admitted job waits in, and then `mark_job_cancelled`. -/
def cancelWaiting (queue : Queue) (jobId : JobId) : Gw Unit := do
  let _ ← ask (.lrem queue jobId)
  markJobCancelled jobId none

/-- `_propagate_cancel_to_linked_child`; `cancel` is `cancel_job`. -/
def propagateCancelToLinkedChild (cancel : JobId → Gw (Except GatewayError Bool))
    (rootJob : Job) : Gw (Except GatewayError Bool) := do
  match rootJob.childJobId with
  | none => return .ok false
  | some childJobId =>
    match ← getJob childJobId with
    | none => return .ok false
    | some childJob =>
      match childJob.status, childJob.holder with
      | .queued, _ =>
        cancelWaiting (.pending childJob.workloadClass childJob.priority) childJobId
        return .ok true
      | .admitted, some targetId =>
        cancelWaiting (.dispatch childJob.workerPool targetId) childJobId
        return .ok true
      | .running, _ => cancel childJobId
      | _, _ => return .ok false

/-- The flag: `cancel_requested` is saved and the stream says so. -/
def requestCancel (job : Job) : Gw Unit := do
  saveJob { job with cancelRequested := true }
  emitEvent job.id (Event.of job.id .cancelling)

/-- The last part of `cancel_job`: the cancel goes to the linked child, or else the flag is
set. -/
def propagateOrRequest (cancel : JobId → Gw (Except GatewayError Bool)) (job : Job) :
    Gw (Except GatewayError Bool) := do
  match ← propagateCancelToLinkedChild cancel job with
  | .error e => return .error e
  | .ok true => return .ok true
  | .ok false =>
    requestCancel job
    return .ok true

/-- `cancel_job`; `depth` is how many calls may still nest. -/
def cancelJob : (depth : ℕ) → JobId → Option String → Gw (Except GatewayError Bool)
  | 0, _, _ => return .error .recursion
  | depth + 1, jobId, username => do
    match ← getJob jobId with
    | none => return .ok false
    | some job =>
      if username.any (fun name => name ≠ "" ∧ job.username ≠ name) then
        return .error .forbidden
      else if job.status.isTerminal then return .ok false
      else if job.cancelRequested then return .ok true
      else
        match job.status, job.holder with
        -- A job that waits is cancelled at once, and a child that is linked to it is not looked at.
        | .queued, _ =>
          cancelWaiting (.pending job.workloadClass job.priority) jobId
          return .ok true
        | .admitted, some targetId =>
          cancelWaiting (.dispatch job.workerPool targetId) jobId
          return .ok true
        | _, _ => propagateOrRequest (fun childJobId => cancelJob depth childJobId none) job

/-- `is_cancel_requested`. -/
def isCancelRequested (jobId : JobId) : Gw Bool := do
  return (← getJob jobId).any Job.cancelRequested

/-- `_cancel_stale_requested_job`: a child whose cancel was requested is cancelled instead of
being recovered. -/
def cancelStaleRequestedJob (job : Job) : Gw Bool := do
  if isLinkedChildJob job = false ∨ job.cancelRequested = false then return false
  else
    match job.status, job.holder with
    | .admitted, some targetId =>
      let _ ← ask (.lrem (.dispatch job.workerPool targetId) job.id)
      markJobCancelled job.id job.assignedWorkerId
      return true
    | .admitted, none =>
      markJobCancelled job.id job.assignedWorkerId
      return true
    | .running, _ =>
      markJobCancelled job.id job.assignedWorkerId
      return true
    | _, _ => return false

/-! ### Scheduling -/

/-- The records of those of the given ids that are queued, each with the queue it was found
in. -/
def queuedOf (queue : Queue) : List JobId → Gw (List (Queue × Job))
  | [] => return []
  | jobId :: jobIds => do
    let found ← getJob jobId
    let rest ← queuedOf queue jobIds
    match found with
    | none => return rest
    | some job => return if job.status = .queued then (queue, job) :: rest else rest

/-- The candidates of some pending queues. -/
def candidatesOf (scanDepth : ℕ) : List (Workload × Priority) → Gw (List (Queue × Job))
  | [] => return []
  | q :: qs => do
    let jobIds ← ask (.lrange (.pending q.1 q.2) (scanDepth - 1))
    let here ← queuedOf (.pending q.1 q.2) jobIds
    let rest ← candidatesOf scanDepth qs
    return here ++ rest

/-- `list_pending_candidates`. -/
def listPendingCandidates (scanDepth : ℕ) : Gw (List (Queue × Job)) :=
  candidatesOf scanDepth queueOrder

/-- The record of a job admitted on a target. -/
def admittedRecord (cfg : Settings) (job : Job) (targetId : TargetId) (admission : Admission)
    (nowMs : ℕ) : Job :=
  { job with
    status := .admitted
    assignedTargetId := some targetId
    admittedAtMs := some nowMs
    leaseUntil := some (nowMs / 1000 + cfg.jobLeaseSeconds)
    reservedTokens := admission.reservedTokens
    reservedVramMb := admission.reservedVramMb
    reservedRamMb := admission.reservedRamMb
    profile := some admission.profile }

/-- `try_admit_job` from the reservation on. -/
def admitJob (cfg : Settings) (job : Job) (targetId : TargetId) (admission : Admission) :
    Gw Unit := do
  ask (.write (reservationWrites targetId job.workloadClass 1 admission.reservedTokens
    admission.reservedVramMb admission.reservedRamMb ++ [.hincrbyModel targetId job.modelKey 1]))
  let nowMs ← ask .time
  let job := admittedRecord cfg job targetId admission nowMs
  saveJob job
  ask (.write [.zadd job.id (nowMs / 1000 + cfg.jobLeaseSeconds)])
  ask (.write [.rpush (.dispatch job.workerPool targetId) job.id])
  emitEvent job.id (Event.of job.id (.admitted targetId admission.reservedTokens))

/-- `try_admit_job` from the evaluation on. -/
def evaluateAndAdmit (cfg : Settings) (job : Job) (queue : Queue) (target : Target) :
    Gw Bool := do
  let usage ← ask (.hgetallUsage target.targetId)
  match ← evaluateTargetAdmission cfg job target usage with
  | none => return false
  | some admission =>
    let removed ← ask (.lrem queue job.id)
    if removed = 0 then return false
    else
      admitJob cfg job target.targetId admission
      return true

/-- `try_admit_job`. -/
def tryAdmitJob (cfg : Settings) (jobId : JobId) (queue : Queue) (target : Target) : Gw Bool :=
  withLock (.target target.targetId) do
    match ← getJob jobId with
    | none => return false
    | some original =>
      if original.status ≠ .queued then return false
      else
        let job ← downgradeJobTargetKindIfNeeded original
        -- The other kind is saved whether or not the job is admitted.
        if job.targetKind ≠ original.targetKind then saveJob job
        evaluateAndAdmit cfg job queue target

/-- The record of a job that goes back to its pending queue after a refused claim. -/
def requeuedRecord (job : Job) (nowMs : ℕ) : Job :=
  { job with
    status := .queued
    assignedTargetId := none
    assignedWorkerId := none
    admittedAtMs := none
    startedAtMs := none
    enqueuedAtMs := nowMs
    queueWaitMs := 0
    leaseUntil := none
    reservedTokens := 0
    reservedVramMb := 0
    reservedRamMb := 0
    profile := none }

/-- `requeue_job_for_pending`. -/
def requeueJobForPending (job : Job) (reason : String) : Gw Unit := do
  let job ← downgradeJobTargetKindIfNeeded job
  let nowMs ← ask .time
  saveJob (requeuedRecord job nowMs)
  ask (.write [.rpush (.pending job.workloadClass job.priority) job.id])
  emitEvent job.id (Event.of job.id (.requeued reason))

/-- The record of a job a worker has claimed. -/
def runningRecord (cfg : Settings) (job : Job) (workerId : WorkerId) (nowMs : ℕ) : Job :=
  let started : Job :=
    { job with
      status := .running
      assignedWorkerId := some workerId
      startedAtMs := some (match job.startedAtMs with
        | none => nowMs
        | some startedAtMs => if startedAtMs = 0 then nowMs else startedAtMs)
      leaseUntil := some (nowMs / 1000 + cfg.jobLeaseSeconds) }
  { started with queueWaitMs := computeQueueWaitMs started }

/-- `claim_dispatch_job` once a record was found for the id. -/
def claimJob (cfg : Settings) (workerId : WorkerId) (targetId : TargetId)
    (expectedTargetKind : Option Text) (job : Job) : Gw (Option Job) := do
  -- A mismatch is not counted as a retry, and the deadline is not looked at.
  if expectedTargetKind.any (fun kind => job.targetKind ≠ normalizeTargetKind (some kind)) then
    let _ ← ask (.lrem (.processing workerId) job.id)
    releaseReservedCapacity job
    ask (.write [.zrem job.id])
    requeueJobForPending job "target_kind_mismatch"
    return none
  else
    let nowMs ← ask .time
    if job.deadlineAt ≠ 0 ∧ job.deadlineAt ≤ nowMs / 1000 then
      markJobFailed job.id deadlineExceededError (some workerId)
      return none
    else
      let running := runningRecord cfg job workerId nowMs
      saveJob running
      ask (.write [.zadd job.id (nowMs / 1000 + cfg.jobLeaseSeconds)])
      emitEvent job.id (Event.of job.id (.running targetId))
      return some running

/-- `claim_dispatch_job`. The status of the record is not looked at. -/
def claimDispatchJob (cfg : Settings) (workerId : WorkerId) (workerPool : WorkerPool)
    (targetId : TargetId) (expectedTargetKind : Option Text) : Gw (Option Job) := do
  match ← ask (.brpoplpush (.dispatch workerPool targetId) (.processing workerId)) with
  | none => return none
  | some jobId =>
    match ← getJob jobId with
    | none =>
      let _ ← ask (.lrem (.processing workerId) jobId)
      return none
    | some job => claimJob cfg workerId targetId expectedTargetKind job

/-- `renew_job_lease`. -/
def renewJobLease (cfg : Settings) (jobId : JobId) : Gw Unit := do
  match ← getJob jobId with
  | none => return ()
  | some job =>
    if job.status ≠ .admitted ∧ job.status ≠ .running then return ()
    else
      let nowMs ← ask .time
      let leaseUntil := nowMs / 1000 + cfg.jobLeaseSeconds
      -- The whole record is written back as it was read.
      saveJob { job with leaseUntil := some leaseUntil }
      ask (.write [.zadd jobId leaseUntil])

/-! ### Recovering -/

/-- The record of a job the reaper sends back to its pending queue. -/
def recoveredRecord (job : Job) (retryCount : ℕ) : Job :=
  { job with
    retryCount := retryCount
    status := .queued
    assignedTargetId := none
    assignedWorkerId := none
    leaseUntil := none
    reservedTokens := 0
    reservedVramMb := 0
    reservedRamMb := 0 }

/-- `requeue_stale_jobs` from the release on: the job is sent back to its pending queue. An id
that is still in a dispatch list stays there. -/
def recoverJob (job : Job) (retryCount : ℕ) : Gw Unit := do
  releaseReservedCapacity job
  removeFromProcessing job.assignedWorkerId job.id
  ask (.write [.zrem job.id])
  let job ← downgradeJobTargetKindIfNeeded job
  saveJob (recoveredRecord job retryCount)
  ask (.write [.rpush (.pending job.workloadClass job.priority) job.id])
  emitEvent job.id (Event.of job.id (.recovered retryCount))

/-- `int(job.get("max_retries") or settings.SCHEDULER_MAX_JOB_RETRIES)`. -/
def retryLimit (cfg : Settings) (job : Job) : ℕ :=
  if job.maxRetries = 0 then cfg.maxJobRetries else job.maxRetries

/-- One job of `requeue_stale_jobs`; `true` when it was recovered. -/
def reapJob (cfg : Settings) (now : ℕ) (jobId : JobId) : Gw Bool :=
  withLock (.job jobId) do
    match ← getJob jobId with
    | none =>
      ask (.write [.zrem jobId])
      return false
    | some job =>
      if job.status.isTerminal then
        ask (.write [.zrem jobId])
        return false
      -- The lease may have been renewed since the ids were listed.
      else if now < job.leaseUntil.getD 0 then return false
      else if ← cancelStaleRequestedJob job then return false
      else if job.deadlineAt ≠ 0 ∧ job.deadlineAt ≤ now then
        markJobFailedFromRecord job deadlineExceededError job.assignedWorkerId
        return false
      else
        let retryCount := job.retryCount + 1
        if retryLimit cfg job < retryCount then
          markJobFailedFromRecord { job with retryCount := retryCount } genericChatError
            job.assignedWorkerId
          return false
        else
          recoverJob job retryCount
          return true

/-- The loop of `requeue_stale_jobs`: how many of the ids were recovered. -/
def reapJobs (cfg : Settings) (now : ℕ) : List JobId → Gw ℕ
  | [] => return 0
  | jobId :: jobIds => do
    let recovered ← reapJob cfg now jobId
    let rest ← reapJobs cfg now jobIds
    return (if recovered then 1 else 0) + rest

/-- `requeue_stale_jobs`. -/
def requeueStaleJobs (cfg : Settings) : Gw ℕ := do
  let nowMs ← ask .time
  let staleJobIds ← ask (.zrangebyscore (nowMs / 1000))
  reapJobs cfg (nowMs / 1000) staleJobIds

end Gateway

end AiAgent

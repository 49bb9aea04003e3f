import AiAgent.Text.Strip
import Mathlib.Algebra.GroupWithZero.Nat
import Mathlib.Algebra.Order.Ring.Rat

/-!
# The job record

The control plane keeps one JSON record per job under `llm:job:<id>`. This file is that record:
the part `enqueue_job` writes once (`AiAgent.Gateway.JobSpec`), the part the later operations
move (`AiAgent.Gateway.Job`), the events of a job's stream, the reports of targets and workers,
and the settings.

A job id is `uuid4().hex` or `uuid5(..).hex`; the model keeps the number the hexadecimal text
stands for. So an id is never blank and never padded, and the `(x or "").strip()` the source
puts around an optional id reads an `Option`.

Fields that only reach a log line or a metric are left out: the list of files and the character
counts inside `parser_metadata`, the flags the admission adds to the profile, and the times in
seconds that are also kept in milliseconds.
-/

namespace AiAgent

namespace Gateway

/-- A job id: the number a uuid's hexadecimal text stands for. -/
abbrev JobId := ℕ

/-- The id of an inference target. -/
abbrev TargetId := String

/-- The id of a worker process. -/
abbrev WorkerId := String

/-! ### Enumerations -/

/-- `JOB_STATUS_*`. -/
inductive Status where
  | queued | admitted | running | completed | failed | cancelled
  deriving DecidableEq, Repr

/-- `TERMINAL_JOB_STATUSES`. -/
def Status.isTerminal : Status → Bool
  | .completed | .failed | .cancelled => true
  | _ => false

/-- `WORKLOAD_*`. -/
inductive Workload where
  | chat | siem | batch | parse
  deriving DecidableEq, Repr

/-- `PRIORITY_*`. -/
inductive Priority where
  | p0 | p1 | p2 | p3
  deriving DecidableEq, Repr

/-- The worker pools: one per workload, the parser's under a name of its own. -/
inductive WorkerPool where
  | chat | siem | batch | parser
  deriving DecidableEq, Repr

/-- `JOB_KIND_*`. -/
inductive JobKind where
  | chat | fileChat | parse
  deriving DecidableEq, Repr

/-- What a target runs on. -/
inductive TargetKind where
  | cpu | gpu
  deriving DecidableEq, Repr

/-- `LIFECYCLE_STAGE_*`. -/
inductive LifecycleStage where
  | parserPrepared | childEnqueued | childCompleted | childFailed | childCancelled
  deriving DecidableEq, Repr

/-- `DEFAULT_PRIORITY_BY_WORKLOAD`. -/
def defaultPriorityByWorkload : Workload → Priority
  | .chat | .parse => .p1
  | .siem => .p2
  | .batch => .p3

/-- `QUEUE_ORDER`: the pending queues, in the order the scheduler looks at them. -/
def queueOrder : List (Workload × Priority) :=
  [(.siem, .p0), (.chat, .p1), (.parse, .p1), (.siem, .p2), (.batch, .p3)]

/-- `normalize_workload_class`: an unknown class is chat. -/
def normalizeWorkloadClass (workloadClass : Text) : Workload :=
  let normalized := (Text.lower workloadClass.strip)
  if normalized = "siem".toList then .siem
  else if normalized = "batch".toList then .batch
  else if normalized = "parse".toList then .parse
  else .chat

/-- `_normalize_priority`: any of the four priorities is kept, whatever the workload. -/
def normalizePriority (workloadClass : Workload) (priority : Option Text) : Priority :=
  let candidate := (Text.lower (priority.getD []).strip)
  if candidate = "p0".toList then .p0
  else if candidate = "p1".toList then .p1
  else if candidate = "p2".toList then .p2
  else if candidate = "p3".toList then .p3
  else defaultPriorityByWorkload workloadClass

/-- `worker_pool_for_workload`. -/
def workerPoolForWorkload : Workload → WorkerPool
  | .chat => .chat
  | .siem => .siem
  | .batch => .batch
  | .parse => .parser

/-- The `job_kind` argument as `enqueue_job` stores it: an unknown kind is chat. -/
def normalizeJobKind (jobKind : Text) : JobKind :=
  let normalized := (Text.lower jobKind.strip)
  if normalized = "file_chat".toList then .fileChat
  else if normalized = "parse".toList then .parse
  else .chat

/-- `normalize_target_kind`: everything but `gpu` is cpu. -/
def normalizeTargetKind (value : Option Text) : TargetKind :=
  if Text.lower (value.getD []).strip = "gpu".toList then .gpu else .cpu

/-- `GENERIC_CHAT_ERROR`. -/
def genericChatError : Text := "Сервис временно недоступен. Попробуйте позже.".toList

/-- `DEADLINE_EXCEEDED_ERROR`. -/
def deadlineExceededError : Text := "Deadline exceeded".toList

/-! ### The record -/

/-- A message of a history: a role and a content. -/
structure Message where
  /-- `role`. -/
  role : Text
  /-- `content`. -/
  content : Text
  deriving DecidableEq, Repr

/-- An entry of the model catalog. -/
structure ModelInfo where
  /-- The name the runtime knows the model by. -/
  name : String
  /-- The size of the weights in bytes, zero where it is not reported. -/
  size : ℕ
  deriving DecidableEq, Repr

/-- `file_chat`: how the answer about files is delivered. -/
structure FileChat where
  /-- The prompt of the second attempt. -/
  retryPrompt : Option Text
  /-- No token events; the answer comes as one result event. -/
  suppressTokenStream : Bool
  deriving DecidableEq, Repr

/-- `parser_metadata`, as far as the gateway writes it. -/
structure ParserMetadata where
  /-- `phase`. -/
  phase : Option LifecycleStage
  /-- `child_job_id`. -/
  childJobId : Option JobId
  /-- `raw_deleted`. -/
  rawDeleted : Option Bool
  deriving DecidableEq, Repr

/-- What `build_model_profile` computes. -/
structure Profile where
  /-- `weights_mb`. -/
  weightsMb : ℕ
  /-- `kv_cache_mb`. -/
  kvCacheMb : ℕ
  /-- `runtime_overhead_mb`. -/
  runtimeOverheadMb : ℕ
  /-- `total_mb`. -/
  totalMb : ℕ
  /-- `token_cost`. -/
  tokenCost : ℕ
  deriving DecidableEq, Repr

/-- The part of a record that is written once, by `enqueue_job`. -/
structure JobSpec where
  /-- `id`. -/
  id : JobId
  /-- `username`. -/
  username : String
  /-- `thread_id`. -/
  threadId : Text
  /-- `job_kind`. -/
  jobKind : JobKind
  /-- `workload_class`. -/
  workloadClass : Workload
  /-- `priority`. -/
  priority : Priority
  /-- `worker_pool`. -/
  workerPool : WorkerPool
  /-- `model_key`. -/
  modelKey : String
  /-- `model_name`. -/
  modelName : String
  /-- `model_info`. -/
  modelInfo : ModelInfo
  /-- `prompt`. -/
  prompt : Text
  /-- `history`. -/
  history : List Message
  /-- `prompt_tokens`: the prompt's and the history's together. -/
  promptTokens : ℕ
  /-- `context_tokens`. -/
  contextTokens : ℕ
  /-- `max_output_tokens`. -/
  maxOutputTokens : ℕ
  /-- `created_at_ms`. -/
  createdAtMs : ℕ
  /-- `deadline_at`, in seconds; zero is no deadline. -/
  deadlineAt : ℕ
  /-- `max_retries`; zero reads as the setting. -/
  maxRetries : ℕ
  /-- `file_chat`. -/
  fileChat : Option FileChat
  /-- `root_job_id`. -/
  rootJobId : Option JobId
  /-- `parent_job_id`. -/
  parentJobId : Option JobId
  /-- `staging_id`. -/
  stagingId : Option String

/-- A job record. -/
structure Job extends JobSpec where
  /-- `status`. -/
  status : Status
  /-- `target_kind`. -/
  targetKind : TargetKind
  /-- `enqueued_at_ms`. -/
  enqueuedAtMs : ℕ
  /-- `admitted_at_ms`. -/
  admittedAtMs : Option ℕ
  /-- `started_at_ms`. -/
  startedAtMs : Option ℕ
  /-- `finished_at_ms`. -/
  finishedAtMs : Option ℕ
  /-- `queue_wait_ms`. -/
  queueWaitMs : ℕ
  /-- `retry_count`. -/
  retryCount : ℕ
  /-- `cancel_requested`. -/
  cancelRequested : Bool
  /-- `error`. -/
  error : Option Text
  /-- `result`. -/
  result : Option Text
  /-- `assigned_target_id`. -/
  assignedTargetId : Option TargetId
  /-- `assigned_worker_id`. -/
  assignedWorkerId : Option WorkerId
  /-- `lease_until`, in seconds. -/
  leaseUntil : Option ℕ
  /-- `reserved_tokens`. -/
  reservedTokens : ℕ
  /-- `reserved_vram_mb`. -/
  reservedVramMb : ℕ
  /-- `reserved_ram_mb`. -/
  reservedRamMb : ℕ
  /-- `profile`. -/
  profile : Option Profile
  /-- `parser_metadata`. -/
  parserMetadata : Option ParserMetadata
  /-- `lifecycle_stage`. -/
  lifecycleStage : Option LifecycleStage
  /-- `child_job_id`. -/
  childJobId : Option JobId

/-- `assigned_target_id` as the source tests it: an empty id counts as none. -/
def Job.holder (job : Job) : Option TargetId :=
  job.assignedTargetId.filter fun targetId => targetId ≠ ""

/-- `compute_queue_wait_ms`. -/
def computeQueueWaitMs (job : Job) : ℕ :=
  let startedAtMs := job.startedAtMs.getD 0
  let enqueuedAtMs := if job.enqueuedAtMs = 0 then job.createdAtMs else job.enqueuedAtMs
  if startedAtMs = 0 ∨ enqueuedAtMs = 0 then 0 else startedAtMs - enqueuedAtMs

/-- `_is_linked_child_job`. -/
def isLinkedChildJob (job : Job) : Bool :=
  match job.rootJobId with
  | some rootJobId => rootJobId != job.id
  | none => false

/-! ### Events -/

/-- What an event of a job's stream says. -/
inductive EventBody where
  /-- `queued`. -/
  | queued
  /-- `admitted`, with the target and the tokens reserved there. -/
  | admitted (targetId : TargetId) (reservedTokens : ℕ)
  /-- `running`, with the target. -/
  | running (targetId : TargetId)
  /-- `requeued` by a claim that was refused, with the reason. -/
  | requeued (reason : String)
  /-- `requeued` by the reaper, with the number of the retry. -/
  | recovered (retryCount : ℕ)
  /-- `cancelling`. -/
  | cancelling
  /-- A `token` of the answer. -/
  | token (text : Text)
  /-- The whole answer. -/
  | result (text : Text)
  /-- `done`. -/
  | done
  /-- `error` and `done`. -/
  | failed (error : Text)
  /-- `cancelled` and `done`. -/
  | cancelled
  deriving DecidableEq, Repr

/-- An event: the `job_id` it carries, if any, the `source_job_id` of a mirrored one, and what
it says. -/
structure Event where
  /-- `job_id`. -/
  jobId : Option JobId
  /-- `source_job_id`. -/
  sourceJobId : Option JobId
  /-- The rest. -/
  body : EventBody
  deriving DecidableEq, Repr

/-- The event carries `done: true`. -/
def Event.isDone (e : Event) : Bool :=
  match e.body with
  | .done | .failed _ | .cancelled => true
  | _ => false

/-- An event of the job itself, with its `job_id`. -/
def Event.of (jobId : JobId) (body : EventBody) : Event := ⟨some jobId, none, body⟩

/-- An event without a `job_id`. -/
def Event.bare (body : EventBody) : Event := ⟨none, none, body⟩

@[simp] theorem Event.isDone_of (jobId : JobId) (body : EventBody) :
    (Event.of jobId body).isDone = (Event.bare body).isDone := rfl

/-- `_build_root_mirrored_event`. -/
def buildRootMirroredEvent (rootJobId childJobId : JobId) (event : Event) : Event :=
  { event with sourceJobId := some childJobId, jobId := event.jobId.map fun _ => rootJobId }

@[simp] theorem isDone_buildRootMirroredEvent (rootJobId childJobId : JobId) (event : Event) :
    (buildRootMirroredEvent rootJobId childJobId event).isDone = event.isDone := rfl

/-! ### Reports and settings -/

/-- The heartbeat of a target. -/
structure Target where
  /-- `target_id`. -/
  targetId : TargetId
  /-- `target_kind`, as reported. -/
  targetKind : Option Text
  /-- `base_capacity_tokens`. -/
  baseCapacityTokens : ℕ
  /-- `vram_free_mb`. -/
  vramFreeMb : ℕ
  /-- `ram_free_mb`. -/
  ramFreeMb : ℕ
  /-- `cpu_count`. -/
  cpuCount : ℕ
  /-- `cpu_percent`. -/
  cpuPercent : ℚ
  /-- `loaded_models`. -/
  loadedModels : List String
  /-- `pinned_models`. -/
  pinnedModels : List String
  deriving DecidableEq, Repr

/-- The heartbeat of a worker. -/
structure Worker where
  /-- `worker_id`. -/
  workerId : WorkerId
  /-- `worker_pool`. -/
  workerPool : WorkerPool
  /-- `target_id`. -/
  targetId : TargetId
  deriving DecidableEq, Repr

/-! ### Settings -/

/-- `n / 2 ^ k`, rounded half to even. -/
def roundHalfEven (n k : ℕ) : ℕ :=
  if 2 ^ k < 2 * (n % 2 ^ k) ∨ 2 ^ k = 2 * (n % 2 ^ k) ∧ n / 2 ^ k % 2 = 1 then n / 2 ^ k + 1
  else n / 2 ^ k

/-- `math.ceil(n * x)` of a whole number and the float `x = significand / 2 ^ exponent`. The
product is rounded to 53 bits before the ceiling is taken of it. -/
def ceilFloatProduct (significand exponent n : ℕ) : ℕ :=
  let product := n * significand
  let dropped := product.log2 - 52
  (roundHalfEven product dropped * 2 ^ dropped + (2 ^ exponent - 1)) / 2 ^ exponent

/-- The floats `1.10` and `1.35` are above the decimal fractions, which 700 MB show. -/
example : ceilFloatProduct 2476979795053773 51 700 = 771 ∧
    ceilFloatProduct 3039929748475085 51 700 = 946 := by decide

/-- The settings the gateway reads. The products with a floating-point factor are kept as
functions of the whole number they are taken of. -/
structure Settings where
  /-- `GPU_ENABLED`. -/
  gpuEnabled : Bool := false
  /-- `LLM_DEFAULT_CONTEXT_TOKENS`. -/
  defaultContextTokens : ℕ := 4096
  /-- `LLM_DEFAULT_MAX_OUTPUT_TOKENS`. -/
  defaultMaxOutputTokens : ℕ := 1024
  /-- `LLM_JOB_DEADLINE_SECONDS`. -/
  jobDeadlineSeconds : ℕ := 420
  /-- `SCHEDULER_JOB_LEASE_SECONDS`. -/
  jobLeaseSeconds : ℕ := 30
  /-- `SCHEDULER_MAX_JOB_RETRIES`. -/
  maxJobRetries : ℕ := 2
  /-- `SCHEDULER_QUEUE_FACTOR`. -/
  queueFactor : ℕ := 4
  /-- `SCHEDULER_MIN_QUEUE_DEPTH`. -/
  minQueueDepth : ℕ := 64
  /-- `SCHEDULER_BACKPRESSURE_WORKER_WEIGHT`. -/
  backpressureWorkerWeight : ℕ := 2
  /-- `SCHEDULER_TOKEN_GRANULARITY_MB`. -/
  tokenGranularityMb : ℕ := 512
  /-- `SCHEDULER_GPU_SAFETY_MARGIN_MB`. -/
  gpuSafetyMarginMb : ℕ := 2048
  /-- `SCHEDULER_GPU_FRAGMENTATION_MARGIN_MB`. -/
  gpuFragmentationMarginMb : ℕ := 1024
  /-- `SCHEDULER_RAM_SAFETY_MARGIN_MB`. -/
  ramSafetyMarginMb : ℕ := 4096
  /-- `SCHEDULER_CPU_LOAD_SHED_THRESHOLD`. -/
  cpuLoadShedThreshold : ℚ := 90
  /-- `LLM_GPU_RUNTIME_OVERHEAD_MB`. -/
  gpuRuntimeOverheadMb : ℕ := 768
  /-- `LLM_CPU_RUNTIME_OVERHEAD_MB`. -/
  cpuRuntimeOverheadMb : ℕ := 512
  /-- `ceil(size_mb * LLM_GPU_WEIGHT_MULTIPLIER)`. -/
  gpuWeightsMb : ℕ → ℕ := ceilFloatProduct 2476979795053773 51
  /-- `ceil(size_mb * LLM_CPU_WEIGHT_MULTIPLIER)`. -/
  cpuWeightsMb : ℕ → ℕ := ceilFloatProduct 3039929748475085 51
  /-- `ceil(kv_tokens / 1000 * LLM_KV_CACHE_MB_PER_1K_TOKENS)`. -/
  kvCacheMb : ℕ → ℕ := fun kvTokens => (kvTokens * 96 + 999) / 1000
  /-- `floor(effective_tokens * SCHEDULER_CHAT_RESERVED_RATIO)`. -/
  chatReserved : ℕ → ℕ := fun tokens => tokens / 2
  /-- `floor(effective_tokens * SCHEDULER_SIEM_RESERVED_RATIO)`. -/
  siemReserved : ℕ → ℕ := fun tokens => tokens / 4
  /-- `derived_child_job_id`: `uuid5` of the root's id. -/
  derivedChildJobId : JobId → JobId
  /-- How deep calls may nest before Python refuses. -/
  recursionLimit : ℕ := 1000

end Gateway

end AiAgent

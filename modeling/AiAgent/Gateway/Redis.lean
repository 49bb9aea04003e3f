import AiAgent.Command.Program
import AiAgent.Gateway.Record
import Mathlib.Data.List.AList
import Mathlib.Data.List.Sort

/-!
# The control plane's Redis

The state every process of the control plane shares, and the commands they issue on it. A key is
one field of `AiAgent.Gateway.Redis`: the records (`llm:job:<id>`), the lists
(`AiAgent.Gateway.Queue`), the sorted set `llm:jobs:active`, the usage hashes, the model
reference hashes, the event streams and the locks. The clock and the reports of targets and
workers are read like keys.

A `pipeline(transaction=True)` is one command, so a command is a list of writes
(`AiAgent.Gateway.Write`), or a read, or one of the few commands that do both.

The key expiry of event streams is not modelled, nor are the metrics hash and the dashboard
keys: no modelled operation reads them.
-/

namespace AiAgent

namespace Gateway

open Command

/-! ### Keys -/

/-- The lists: `pending_queue_key`, `dispatch_queue_key`, `processing_queue_key`. -/
inductive Queue where
  /-- `llm:queue:<workload>:<priority>`. -/
  | pending (workloadClass : Workload) (priority : Priority)
  /-- `llm:dispatch:<pool>:<target>`. -/
  | dispatch (workerPool : WorkerPool) (targetId : TargetId)
  /-- `llm:processing:<worker>`. -/
  | processing (workerId : WorkerId)
  deriving DecidableEq, Repr

/-- The fields of a target's usage hash. -/
inductive UsageField where
  /-- `reserved_tokens`. -/
  | tokens
  /-- `reserved_tokens_<workload>`. -/
  | tokensOf (workloadClass : Workload)
  /-- `reserved_vram_mb`. -/
  | vram
  /-- `reserved_ram_mb`. -/
  | ram
  /-- `active_jobs`. -/
  | activeJobs
  deriving DecidableEq, Repr

/-- A usage hash; a missing field reads as zero. -/
abbrev Usage := UsageField → ℤ

/-- The locks: `job_lock_key` and `target_lock_key`. -/
inductive Lock where
  /-- `llm:job:<id>:lock`. -/
  | job (jobId : JobId)
  /-- `llm:target:<id>:lock`. -/
  | target (targetId : TargetId)
  deriving DecidableEq, Repr

/-! ### State -/

/-- The state of the store. -/
structure Redis where
  /-- `llm:job:<id>`. -/
  jobs : AList fun _ : JobId => Job
  /-- The lists, head first. -/
  queues : Queue → List JobId
  /-- `llm:jobs:active`: ids with the end of their lease. -/
  active : AList fun _ : JobId => ℕ
  /-- `llm:target:<id>:usage`. -/
  usage : TargetId → Usage
  /-- `llm:target:<id>:models`; a missing field reads as zero. -/
  models : TargetId → String → ℤ
  /-- `llm:events:<id>`, oldest first. -/
  events : JobId → List Event
  /-- The locks that are held, each with the client that holds it. -/
  locks : List (Lock × ℕ)
  /-- The time in milliseconds. -/
  clockMs : ℕ
  /-- The targets whose heartbeat is alive. -/
  targets : List Target
  /-- The workers whose heartbeat is alive. -/
  workers : List Worker
  /-- The model catalog. -/
  catalog : List (String × ModelInfo)

namespace Redis

/-- The store before anything was written: no job, no lock. -/
def empty (targets : List Target) (workers : List Worker) (catalog : List (String × ModelInfo)) :
    Redis where
  jobs := ∅
  queues := fun _ => []
  active := ∅
  usage := fun _ _ => 0
  models := fun _ _ => 0
  events := fun _ => []
  locks := []
  clockMs := 0
  targets := targets
  workers := workers
  catalog := catalog

/-- The record of a job. -/
def job? (s : Redis) (jobId : JobId) : Option Job := s.jobs.lookup jobId

/-- The time in seconds, `int(time.time())`. -/
def now (s : Redis) : ℕ := s.clockMs / 1000

end Redis

/-! ### Writes -/

/-- A command that only writes. -/
inductive Write where
  /-- `SET llm:job:<id>`. -/
  | set (job : Job)
  /-- `RPUSH`. -/
  | rpush (queue : Queue) (jobId : JobId)
  /-- `XADD llm:events:<id>`. -/
  | xadd (jobId : JobId) (event : Event)
  /-- `ZADD llm:jobs:active`. -/
  | zadd (jobId : JobId) (score : ℕ)
  /-- `ZREM llm:jobs:active`. -/
  | zrem (jobId : JobId)
  /-- `HINCRBY` on a usage hash. -/
  | hincrbyUsage (targetId : TargetId) (field : UsageField) (amount : ℤ)
  /-- `HSET` of all fields of a usage hash. -/
  | hsetUsage (targetId : TargetId) (usage : Usage)
  /-- `HINCRBY` on a model reference hash. -/
  | hincrbyModel (targetId : TargetId) (modelKey : String) (amount : ℤ)
  /-- `HDEL` on a model reference hash. -/
  | hdelModel (targetId : TargetId) (modelKey : String)

namespace Redis

/-- `SET llm:job:<id>`. -/
def set (s : Redis) (job : Job) : Redis := { s with jobs := s.jobs.insert job.id job }

/-- `RPUSH`. -/
def rpush (s : Redis) (queue : Queue) (jobId : JobId) : Redis :=
  { s with queues := Function.update s.queues queue (s.queues queue ++ [jobId]) }

/-- `LREM key 1 id`: the first occurrence goes. -/
def lrem (s : Redis) (queue : Queue) (jobId : JobId) : Redis :=
  { s with queues := Function.update s.queues queue ((s.queues queue).erase jobId) }

/-- `XADD`. -/
def xadd (s : Redis) (jobId : JobId) (event : Event) : Redis :=
  { s with events := Function.update s.events jobId (s.events jobId ++ [event]) }

/-- `ZADD`. -/
def zadd (s : Redis) (jobId : JobId) (score : ℕ) : Redis :=
  { s with active := s.active.insert jobId score }

/-- `ZREM`. -/
def zrem (s : Redis) (jobId : JobId) : Redis := { s with active := s.active.erase jobId }

/-- `HINCRBY` on a usage hash. -/
def hincrbyUsage (s : Redis) (targetId : TargetId) (field : UsageField) (amount : ℤ) : Redis :=
  { s with
    usage := Function.update s.usage targetId
      (Function.update (s.usage targetId) field (s.usage targetId field + amount)) }

/-- `HSET` of all fields of a usage hash. -/
def hsetUsage (s : Redis) (targetId : TargetId) (usage : Usage) : Redis :=
  { s with usage := Function.update s.usage targetId usage }

/-- `HINCRBY` on a model reference hash. -/
def hincrbyModel (s : Redis) (targetId : TargetId) (modelKey : String) (amount : ℤ) : Redis :=
  { s with
    models := Function.update s.models targetId
      (Function.update (s.models targetId) modelKey (s.models targetId modelKey + amount)) }

/-- `HDEL` on a model reference hash. -/
def hdelModel (s : Redis) (targetId : TargetId) (modelKey : String) : Redis :=
  { s with
    models := Function.update s.models targetId
      (Function.update (s.models targetId) modelKey 0) }

/-- One write. -/
def write (s : Redis) : Write → Redis
  | .set job => s.set job
  | .rpush queue jobId => s.rpush queue jobId
  | .xadd jobId event => s.xadd jobId event
  | .zadd jobId score => s.zadd jobId score
  | .zrem jobId => s.zrem jobId
  | .hincrbyUsage targetId field amount => s.hincrbyUsage targetId field amount
  | .hsetUsage targetId usage => s.hsetUsage targetId usage
  | .hincrbyModel targetId modelKey amount => s.hincrbyModel targetId modelKey amount
  | .hdelModel targetId modelKey => s.hdelModel targetId modelKey

/-- The writes of one pipeline, in order. -/
def writes (s : Redis) (ws : List Write) : Redis := ws.foldl write s

@[simp] theorem writes_nil (s : Redis) : s.writes [] = s := rfl

@[simp] theorem writes_cons (s : Redis) (w : Write) (ws : List Write) :
    s.writes (w :: ws) = (s.write w).writes ws := rfl

/-- `BRPOPLPUSH`: the tail of one list moves to the head of another. -/
def brpoplpush (s : Redis) (source destination : Queue) : Option JobId × Redis :=
  match (s.queues source).getLast? with
  | none => (none, s)
  | some jobId =>
    let rest := Function.update s.queues source (s.queues source).dropLast
    (some jobId,
      { s with queues := Function.update rest destination (jobId :: rest destination) })

/-- `ZRANGEBYSCORE llm:jobs:active 0 max`: by score, and by id where scores agree. -/
def zrangebyscore (s : Redis) (max : ℕ) : List JobId :=
  ((s.active.entries.filter fun e => e.2 ≤ max).insertionSort
    fun a b => a.2 < b.2 ∨ (a.2 = b.2 ∧ a.1 ≤ b.1)).map Sigma.fst

end Redis

/-! ### Commands -/

/-- A command. -/
inductive Cmd where
  /-- `GET llm:job:<id>`. -/
  | get (jobId : JobId)
  /-- A write, or a transaction of them. -/
  | write (ws : List Write)
  /-- `LREM key 1 id`, answered by the number of entries removed. -/
  | lrem (queue : Queue) (jobId : JobId)
  /-- `BRPOPLPUSH`, answered by `none` when it times out. -/
  | brpoplpush (source destination : Queue)
  /-- `LRANGE key 0 stop`. -/
  | lrange (queue : Queue) (stop : ℕ)
  /-- `LLEN`. -/
  | llen (queue : Queue)
  /-- `ZRANGEBYSCORE llm:jobs:active 0 max`. -/
  | zrangebyscore (max : ℕ)
  /-- `HGETALL` of a usage hash. -/
  | hgetallUsage (targetId : TargetId)
  /-- `HGET` of a model reference hash. -/
  | hgetModel (targetId : TargetId) (modelKey : String)
  /-- Taking a lock; it waits while the lock is held. -/
  | lock (l : Lock)
  /-- Giving a lock back. -/
  | unlock (l : Lock)
  /-- The time in milliseconds. -/
  | time
  /-- `list_active_targets`. -/
  | targets
  /-- `list_active_workers`. -/
  | workers
  /-- `get_model_catalog`. -/
  | catalog

/-- What a command is answered by. -/
abbrev Cmd.Reply : Cmd → Type
  | .get _ => Option Job
  | .write _ => Unit
  | .lrem _ _ => ℕ
  | .brpoplpush _ _ => Option JobId
  | .lrange _ _ => List JobId
  | .llen _ => ℕ
  | .zrangebyscore _ => List JobId
  | .hgetallUsage _ => Usage
  | .hgetModel _ _ => ℤ
  | .lock _ => Unit
  | .unlock _ => Unit
  | .time => ℕ
  | .targets => List Target
  | .workers => List Worker
  | .catalog => List (String × ModelInfo)

/-- The commands of the control plane's Redis. -/
abbrev redisSig : Signature := ⟨Cmd, Cmd.Reply⟩

/-- What a command answers and does. -/
def exec (client : ℕ) : (c : Cmd) → Redis → c.Reply × Redis
  | .get jobId, s => (s.job? jobId, s)
  | .write ws, s => ((), s.writes ws)
  | .lrem queue jobId, s => ((if jobId ∈ s.queues queue then 1 else 0 : ℕ), s.lrem queue jobId)
  | .brpoplpush source destination, s => s.brpoplpush source destination
  | .lrange queue stop, s => ((s.queues queue).take (stop + 1), s)
  | .llen queue, s => ((s.queues queue).length, s)
  | .zrangebyscore max, s => (s.zrangebyscore max, s)
  | .hgetallUsage targetId, s => (s.usage targetId, s)
  | .hgetModel targetId modelKey, s => (s.models targetId modelKey, s)
  | .lock l, s => ((), { s with locks := (l, client) :: s.locks })
  | .unlock l, s => ((), { s with locks := s.locks.erase (l, client) })
  | .time, s => (s.clockMs, s)
  | .targets, s => (s.targets, s)
  | .workers, s => (s.workers, s)
  | .catalog, s => (s.catalog, s)

/-- A command waits only for a lock that somebody holds. -/
def ready : Cmd → Redis → Prop
  | .lock l, s => ∀ client, (l, client) ∉ s.locks
  | _, _ => True

/-- The store: the locks of a dead client run out. -/
def redisStore : Store redisSig Redis where
  exec := exec
  ready := ready
  drop := fun client s => { s with locks := s.locks.filter fun l => l.2 ≠ client }

/-- A program on the control plane's Redis. -/
abbrev Gw := Program redisSig

/-- Issue a command. -/
abbrev ask (c : Cmd) : Gw c.Reply := Program.send (S := redisSig) c

end Gateway

end AiAgent

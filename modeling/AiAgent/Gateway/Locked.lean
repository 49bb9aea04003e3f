import AiAgent.Command.Locks
import AiAgent.Gateway.Moves

/-!
# Which locks an operation takes

A job's lock comes before a target's: the operations that take both, the enqueueing of a child and
the reaper, hold the job's lock when they give capacity back. So every operation of the gateway
takes its locks in that order and gives all of them back (`AiAgent.Gateway.balanced_body`). One
lemma for each function, in the order of `AiAgent.Gateway.Operations`: a function that is balanced
at 1 may be called with a job's lock, one that is balanced at every number with any lock.
-/

namespace AiAgent

namespace Gateway

open Command

/-! ### The locks -/

/-- The lock `SET NX` takes. -/
def Cmd.takes : Cmd → Option Lock
  | .lock l => some l
  | _ => none

/-- The lock the release script gives back. -/
def Cmd.gives : Cmd → Option Lock
  | .unlock l => some l
  | _ => none

/-- No write touches a lock. -/
theorem locks_soloWrites (s : Redis) (ws : List Write) : (s.writes ws).locks = s.locks := by
  induction ws generalizing s with
  | nil => rfl
  | cons x ws ih =>
    rw [Redis.writes_cons, ih]
    cases x <;> rfl

/-- The locks of the store. -/
def redisLocks : Locking redisStore Lock where
  held := Redis.locks
  takes := Cmd.takes
  gives := Cmd.gives
  gives_of_takes := by rintro (_ | _) l hl <;> simp_all [Cmd.takes, Cmd.gives]
  ready_iff := by
    intro c s
    cases c with
    | lock l => simp [redisStore, ready, Cmd.takes]
    | _ => simp [redisStore, ready, Cmd.takes]
  held_exec := by
    intro i c s
    cases c with
    | write ws => exact locks_soloWrites s ws
    | brpoplpush source destination =>
      change (s.brpoplpush source destination).2.locks = s.locks
      rw [Redis.brpoplpush]
      rcases (s.queues source).getLast? with - | jobId <;> rfl
    | _ => rfl
  held_drop _ _ := rfl

/-- A job's lock is taken before a target's. -/
def Lock.rank : Lock → ℕ
  | .job _ => 0
  | .target _ => 1

/-! ### Rules -/

variable {α β : Type} {n : ℕ}

/-- Called with locks of rank below `n` only, the program keeps to the order and gives back what
it takes. -/
abbrev Balanced (n : ℕ) (p : Gw α) : Prop := redisLocks.Balanced Lock.rank n p

/-- A program that only returns takes nothing. -/
theorem balanced_pure (a : α) : Balanced n (pure a : Gw α) := Locking.balanced_pure a

/-- One balanced program after the other. -/
theorem Balanced.bind {p : Gw α} {f : α → Gw β} (h : Balanced n p) (hf : ∀ a, Balanced n (f a)) :
    Balanced n (p >>= f) := Locking.Balanced.bind h hf

/-- The command is about no lock. -/
def Cmd.IsFree (c : Cmd) : Prop := c.takes = none ∧ c.gives = none

/-- A command about no lock. -/
theorem balanced_ask {c : Cmd} (hc : c.IsFree) : Balanced n (ask c) :=
  Locking.balanced_send hc.1 hc.2

/-- Both branches are balanced, so it does not matter which one is taken. -/
theorem Balanced.ite {c : Prop} [Decidable c] {p q : Gw α} (hp : Balanced n p)
    (hq : Balanced n q) : Balanced n (if c then p else q) := by
  split
  · exact hp
  · exact hq

/-- A reply that is there or not. -/
theorem Balanced.ofOption {p : Gw (Option α)} {f : Option α → Gw β} (h : Balanced n p)
    (hnone : Balanced n (f none)) (hsome : ∀ a, Balanced n (f (some a))) :
    Balanced n (p >>= f) := by
  refine h.bind fun found => ?_
  rcases found with - | a
  · exact hnone
  · exact hsome a

/-- A lock may be taken where only locks before it are held, and what is done with it may take the
locks after it. -/
theorem Balanced.withLock {l : Lock} {body : Gw α} (hl : n ≤ l.rank)
    (h : Balanced (l.rank + 1) body) : Balanced n (withLock l body) := by
  rw [Gateway.withLock]
  refine Locking.Balanced.locked ?_ ?_ ?_ hl h
  all_goals rfl

/-! ### Events, roots and capacity -/

/-- A transaction takes no lock: it is one command. -/
theorem balanced_write (ws : List Write) : Balanced n (ask (.write ws)) :=
  balanced_ask (c := .write ws) ⟨rfl, rfl⟩

theorem balanced_getJob (jobId : JobId) : Balanced n (getJob jobId) :=
  balanced_ask (c := .get jobId) ⟨rfl, rfl⟩

theorem balanced_lrem (queue : Queue) (jobId : JobId) : Balanced n (ask (.lrem queue jobId)) :=
  balanced_ask (c := .lrem queue jobId) ⟨rfl, rfl⟩

theorem balanced_time : Balanced n (ask .time) := balanced_ask (c := .time) ⟨rfl, rfl⟩

/-- The root of a job is looked up without its lock. -/
theorem balanced_getDistinctRootJobId (jobId : JobId) :
    Balanced n (getDistinctRootJobId jobId) := by
  refine (balanced_getJob jobId).ofOption (balanced_pure none) fun job => ?_
  cases hroot : job.rootJobId with
  | none => simpa [hroot] using balanced_pure none
  | some rootJobId => simpa [hroot] using balanced_pure _

/-- Events are appended without a lock, also those of the root. -/
theorem balanced_emitEvent (jobId : JobId) (event : Event) : Balanced n (emitEvent jobId event) :=
  (balanced_write _).bind fun _ => .ite (balanced_pure ())
    ((balanced_getDistinctRootJobId jobId).ofOption (balanced_pure ()) fun _ => balanced_write _)

/-- The root takes over the status of its child without its own lock being taken. -/
theorem balanced_synthesizeRootTerminalState (childJob : Job) (status : Status)
    (stage : LifecycleStage) (event : Event) :
    Balanced n (synthesizeRootTerminalState childJob status stage event) := by
  unfold synthesizeRootTerminalState
  rcases childJob.rootJobId with - | rootJobId
  · exact balanced_pure ()
  refine .ite (balanced_pure ()) ?_
  refine (balanced_getJob rootJobId).ofOption (balanced_pure ()) fun rootJob => ?_
  refine .ite (balanced_pure ()) (balanced_time.bind fun _ => ?_)
  exact (balanced_write _).bind fun _ => balanced_write _

/-- The target's lock is the last one that is taken. -/
theorem balanced_releaseReservedCapacity (job : Job) :
    Balanced 1 (releaseReservedCapacity job) := by
  unfold releaseReservedCapacity
  rcases job.holder with - | targetId
  · exact balanced_pure ()
  refine Balanced.withLock le_rfl ((balanced_write _).bind fun _ => ?_)
  refine (balanced_ask (c := .hgetallUsage targetId) ⟨rfl, rfl⟩).bind fun _ => ?_
  refine (balanced_write _).bind fun _ => .ite (balanced_pure ()) ?_
  refine (balanced_ask (c := .hgetModel targetId job.modelKey) ⟨rfl, rfl⟩).bind fun remaining => ?_
  split
  · exact balanced_write _
  · exact balanced_pure ()

/-- The processing list of a worker has no lock. -/
theorem balanced_removeFromProcessing (workerId : Option WorkerId) (jobId : JobId) :
    Balanced n (removeFromProcessing workerId jobId) := by
  unfold removeFromProcessing
  rcases workerId with - | workerId
  · exact balanced_pure ()
  · exact .ite (balanced_pure ()) ((balanced_lrem _ jobId).bind fun _ => balanced_pure ())

/-! ### Ends -/

/-- A job that ends gives its capacity back, under the lock of its target. -/
theorem balanced_finishJob (job : Job) (status : Status) (stage : LifecycleStage)
    (body : EventBody) (workerId : Option WorkerId) :
    Balanced 1 (finishJob job status stage body workerId) := by
  refine (balanced_write _).bind fun _ => (balanced_write _).bind fun _ => ?_
  refine (balanced_synthesizeRootTerminalState job status stage _).bind fun _ => ?_
  refine (balanced_releaseReservedCapacity job).bind fun _ => ?_
  exact (balanced_removeFromProcessing _ job.id).bind fun _ => balanced_write _

/-- Only the end takes a lock, that of the target. -/
theorem balanced_markJobCompleted (jobId : JobId) (responseText : Text)
    (workerId : Option WorkerId) : Balanced 1 (markJobCompleted jobId responseText workerId) :=
  (balanced_getJob jobId).ofOption (balanced_pure ()) fun _ =>
    balanced_time.bind fun _ => balanced_finishJob _ _ _ _ workerId

/-- The reaper calls this with the lock of the job. -/
theorem balanced_markJobFailedFromRecord (job : Job) (errorText : Text)
    (workerId : Option WorkerId) : Balanced 1 (markJobFailedFromRecord job errorText workerId) :=
  balanced_time.bind fun _ => balanced_finishJob _ _ _ _ workerId

/-- A worker calls this with no lock. -/
theorem balanced_markJobFailed (jobId : JobId) (errorText : Text) (workerId : Option WorkerId) :
    Balanced 1 (markJobFailed jobId errorText workerId) :=
  (balanced_getJob jobId).ofOption (balanced_pure ()) fun job =>
    balanced_markJobFailedFromRecord job errorText workerId

/-- A worker calls this with no lock, the reaper with that of the job. -/
theorem balanced_markJobCancelled (jobId : JobId) (workerId : Option WorkerId) :
    Balanced 1 (markJobCancelled jobId workerId) :=
  (balanced_getJob jobId).ofOption (balanced_pure ()) fun _ => .ite (balanced_pure ())
    (balanced_time.bind fun _ => balanced_finishJob _ _ _ _ workerId)

/-! ### Routing and enqueueing -/

theorem balanced_hasWorkerForTargetKind (workloadClass : Workload) (targetKind : TargetKind) :
    Balanced n (hasWorkerForTargetKind workloadClass targetKind) :=
  (balanced_ask (c := .workers) ⟨rfl, rfl⟩).bind fun _ => .ite (balanced_pure false)
    ((balanced_ask (c := .targets) ⟨rfl, rfl⟩).bind fun _ => balanced_pure _)

/-- Targets and workers are read without a lock. -/
theorem balanced_resolveTargetKind (cfg : Settings) (workloadClass : Workload) :
    Balanced n (resolveTargetKind cfg workloadClass) :=
  .ite (balanced_pure _) ((balanced_hasWorkerForTargetKind _ _).bind fun _ =>
    .ite (balanced_pure _) (balanced_pure _))

theorem balanced_downgradeJobTargetKindIfNeeded (job : Job) :
    Balanced n (downgradeJobTargetKindIfNeeded job) :=
  .ite (balanced_pure _) ((balanced_hasWorkerForTargetKind _ _).bind fun _ =>
    .ite (balanced_pure _) (balanced_pure _))

/-- By induction on the lists that are counted. -/
theorem balanced_pendingLength (qs : List (Workload × Priority)) :
    Balanced n (pendingLength qs) := by
  induction qs with
  | nil => exact balanced_pure _
  | cons q qs ih =>
    exact (balanced_ask (c := .llen _) ⟨rfl, rfl⟩).bind fun _ => ih.bind fun _ => balanced_pure _

theorem balanced_dynamicQueueLimit (cfg : Settings) : Balanced n (dynamicQueueLimit cfg) :=
  (balanced_ask (c := .targets) ⟨rfl, rfl⟩).bind fun _ =>
    (balanced_ask (c := .workers) ⟨rfl, rfl⟩).bind fun _ => balanced_pure _

/-- A new job is saved and pushed without a lock. -/
theorem balanced_enqueueNewJob (cfg : Settings) (a : EnqueueArgs) (jobId : JobId) :
    Balanced n (enqueueNewJob cfg a jobId) := by
  refine (balanced_pendingLength queueOrder).bind fun _ => ?_
  refine (balanced_dynamicQueueLimit cfg).bind fun _ => .ite (balanced_pure _) ?_
  refine (balanced_ask (c := .catalog) ⟨rfl, rfl⟩).bind fun catalog => .ite (balanced_pure _) ?_
  rcases catalogModel catalog a.modelKey a.modelName with - | modelInfo
  · exact balanced_pure _
  · refine (balanced_resolveTargetKind cfg _).bind fun _ => balanced_time.bind fun _ => ?_
    exact (balanced_write _).bind fun _ => balanced_pure _

/-- So may be called with the lock of the root. -/
theorem balanced_enqueueJob (cfg : Settings) (a : EnqueueArgs) (uuid : JobId) :
    Balanced n (enqueueJob cfg a uuid) := by
  unfold enqueueJob
  rcases a.jobIdOverride with - | requestedJobId
  · exact balanced_enqueueNewJob cfg a uuid
  · exact (balanced_getJob requestedJobId).ofOption (balanced_enqueueNewJob cfg a requestedJobId)
      fun _ => balanced_pure _

/-! ### A parser root and its child -/

/-- The lock of the root is taken, and nothing else. -/
theorem balanced_getLinkedChildJobId (cfg : Settings) (rootJobId : JobId) :
    Balanced 0 (getLinkedChildJobId cfg rootJobId) := by
  refine Balanced.withLock le_rfl ?_
  refine (balanced_getJob rootJobId).ofOption (balanced_pure _) fun rootJob => ?_
  dsimp only
  rcases rootJob.childJobId with - | existingChildId
  · exact (balanced_getJob _).ofOption (balanced_pure _) fun _ =>
      (balanced_write _).bind fun _ => balanced_pure _
  · exact (balanced_getJob existingChildId).ofOption (balanced_pure _) fun _ => balanced_pure _

/-- The caller has the lock of the root. -/
theorem balanced_linkChild (rootJobId : JobId) (rootJob : Job) (childJobId : JobId) :
    Balanced n (linkChild rootJobId rootJob childJobId) :=
  (balanced_getJob rootJobId).bind fun _ => balanced_write _

/-- The caller has the lock of the root, and a new job needs none. -/
theorem balanced_createChild (cfg : Settings) (rootJobId : JobId) (rootJob : Job)
    (prepared : PreparedLlmJob) (childJobId : JobId) :
    Balanced n (createChild cfg rootJobId rootJob prepared childJobId) := by
  refine .ite (balanced_pure _) ((balanced_enqueueJob cfg _ childJobId).bind fun reply => ?_)
  rcases reply with e | newId
  · exact balanced_pure _
  · exact (balanced_linkChild rootJobId rootJob newId).bind fun _ => balanced_pure _

/-- The lock of the root is taken, and the child is created under it. -/
theorem balanced_enqueueChildJobOnce (cfg : Settings) (rootJobId : JobId)
    (prepared : PreparedLlmJob) : Balanced 0 (enqueueChildJobOnce cfg rootJobId prepared) := by
  refine Balanced.withLock le_rfl ?_
  refine (balanced_getJob rootJobId).ofOption (balanced_pure _) fun rootJob => ?_
  dsimp only
  rcases rootJob.childJobId with - | existingChildId
  · refine .ite (balanced_pure _) ?_
    exact (balanced_getJob _).ofOption (balanced_createChild cfg rootJobId rootJob prepared _)
      fun _ => (balanced_linkChild rootJobId rootJob _).bind fun _ => balanced_pure _
  · exact (balanced_getJob existingChildId).ofOption (balanced_pure _) fun _ => balanced_pure _

/-- The root that waits gives its capacity back. -/
theorem balanced_markJobWaitingOnChild (jobId childJobId : JobId) (stage : LifecycleStage)
    (updates : ParserMetadata) (workerId : Option WorkerId) :
    Balanced 1 (markJobWaitingOnChild jobId childJobId stage updates workerId) :=
  (balanced_getJob jobId).ofOption (balanced_pure ()) fun job =>
    (balanced_write _).bind fun _ => (balanced_releaseReservedCapacity job).bind fun _ =>
      (balanced_removeFromProcessing _ jobId).bind fun _ => balanced_write _

/-! ### Cancelling -/

/-- A job that waits is ended, which may give back capacity. -/
theorem balanced_cancelWaiting (queue : Queue) (jobId : JobId) :
    Balanced 1 (cancelWaiting queue jobId) :=
  (balanced_lrem queue jobId).bind fun _ => balanced_markJobCancelled jobId none

/-- As balanced as what cancels the child. -/
theorem balanced_propagateCancelToLinkedChild {cancel : JobId → Gw (Except GatewayError Bool)}
    (hcancel : ∀ jobId, Balanced 1 (cancel jobId)) (rootJob : Job) :
    Balanced 1 (propagateCancelToLinkedChild cancel rootJob) := by
  unfold propagateCancelToLinkedChild
  rcases rootJob.childJobId with - | childJobId
  · exact balanced_pure _
  refine (balanced_getJob childJobId).ofOption (balanced_pure _) fun childJob => ?_
  dsimp only
  split
  · exact (balanced_cancelWaiting _ childJobId).bind fun _ => balanced_pure _
  · exact (balanced_cancelWaiting _ childJobId).bind fun _ => balanced_pure _
  · exact hcancel childJobId
  · exact balanced_pure _

/-- By induction on how deep links are followed; no lock of a job is taken at all. -/
theorem balanced_cancelJob (depth : ℕ) (jobId : JobId) (username : Option String) :
    Balanced 1 (cancelJob depth jobId username) := by
  induction depth generalizing jobId username with
  | zero => exact balanced_pure _
  | succ depth ih =>
    refine (balanced_getJob jobId).ofOption (balanced_pure _) fun job => ?_
    refine .ite (balanced_pure _) (.ite (balanced_pure _) (.ite (balanced_pure _) ?_))
    split
    · exact (balanced_cancelWaiting _ jobId).bind fun _ => balanced_pure _
    · exact (balanced_cancelWaiting _ jobId).bind fun _ => balanced_pure _
    · refine (balanced_propagateCancelToLinkedChild (fun childJobId => ih childJobId none)
        job).bind fun reply => ?_
      rcases reply with e | ⟨- | -⟩
      · exact balanced_pure _
      · exact ((balanced_write _).bind fun _ => balanced_emitEvent job.id _).bind fun _ =>
          balanced_pure _
      · exact balanced_pure _

/-- The reaper calls this with the lock of the job. -/
theorem balanced_cancelStaleRequestedJob (job : Job) :
    Balanced 1 (cancelStaleRequestedJob job) := by
  refine .ite (balanced_pure _) ?_
  split
  · exact (balanced_lrem _ job.id).bind fun _ =>
      (balanced_markJobCancelled job.id _).bind fun _ => balanced_pure _
  · exact (balanced_markJobCancelled job.id _).bind fun _ => balanced_pure _
  · exact (balanced_markJobCancelled job.id _).bind fun _ => balanced_pure _
  · exact balanced_pure _

/-! ### Scheduling -/

theorem balanced_evaluateTargetAdmission (cfg : Settings) (job : Job) (target : Target)
    (usage : Usage) : Balanced n (evaluateTargetAdmission cfg job target usage) := by
  refine .ite (balanced_pure _) (.ite (balanced_pure _) ?_)
  refine (balanced_ask (c := .hgetModel target.targetId job.modelKey) ⟨rfl, rfl⟩).bind fun _ => ?_
  split
  · exact balanced_pure _
  · exact balanced_pure _

/-- The caller has the lock of the target. -/
theorem balanced_admitJob (cfg : Settings) (job : Job) (targetId : TargetId)
    (admission : Admission) : Balanced n (admitJob cfg job targetId admission) :=
  (balanced_write _).bind fun _ => balanced_time.bind fun _ => (balanced_write _).bind fun _ =>
    (balanced_write _).bind fun _ => (balanced_write _).bind fun _ => balanced_emitEvent _ _

/-- The decision and the reservation are made under one lock, that of the caller. -/
theorem balanced_evaluateAndAdmit (cfg : Settings) (job : Job) (queue : Queue)
    (target : Target) : Balanced n (evaluateAndAdmit cfg job queue target) :=
  (balanced_ask (c := .hgetallUsage target.targetId) ⟨rfl, rfl⟩).bind fun usage =>
    (balanced_evaluateTargetAdmission cfg job target usage).ofOption (balanced_pure _)
      fun admission => (balanced_lrem queue job.id).bind fun _ => .ite (balanced_pure _)
        ((balanced_admitJob cfg job target.targetId admission).bind fun _ => balanced_pure _)

/-- The lock of the target is taken, and a job is admitted under it. -/
theorem balanced_tryAdmitJob (cfg : Settings) (jobId : JobId) (queue : Queue) (target : Target) :
    Balanced 1 (tryAdmitJob cfg jobId queue target) := by
  refine Balanced.withLock le_rfl ?_
  refine (balanced_getJob jobId).ofOption (balanced_pure _) fun original => ?_
  refine .ite (balanced_pure _) ?_
  refine (balanced_downgradeJobTargetKindIfNeeded original).bind fun job => ?_
  split
  · exact (balanced_write _).bind fun _ => balanced_evaluateAndAdmit cfg job queue target
  · exact balanced_evaluateAndAdmit cfg job queue target

/-- A job is sent back without a lock. -/
theorem balanced_requeueJobForPending (job : Job) (reason : String) :
    Balanced n (requeueJobForPending job reason) :=
  (balanced_downgradeJobTargetKindIfNeeded job).bind fun _ => balanced_time.bind fun _ =>
    (balanced_write _).bind fun _ => (balanced_write _).bind fun _ => balanced_emitEvent _ _

/-- A job of another target kind, or one that is late, gives its capacity back. -/
theorem balanced_claimJob (cfg : Settings) (workerId : WorkerId) (targetId : TargetId)
    (expectedTargetKind : Option Text) (job : Job) :
    Balanced 1 (claimJob cfg workerId targetId expectedTargetKind job) := by
  refine .ite ?_ (balanced_time.bind fun _ => .ite ?_ ?_)
  · refine (balanced_lrem _ job.id).bind fun _ => ?_
    refine (balanced_releaseReservedCapacity job).bind fun _ => (balanced_write _).bind fun _ => ?_
    exact (balanced_requeueJobForPending job _).bind fun _ => balanced_pure _
  · exact (balanced_markJobFailed job.id _ _).bind fun _ => balanced_pure _
  · exact (balanced_write _).bind fun _ => (balanced_write _).bind fun _ =>
      (balanced_emitEvent _ _).bind fun _ => balanced_pure _

/-- What is popped is claimed, and no lock is taken for the pop. -/
theorem balanced_claimDispatchJob (cfg : Settings) (workerId : WorkerId) (workerPool : WorkerPool)
    (targetId : TargetId) (expectedTargetKind : Option Text) :
    Balanced 1 (claimDispatchJob cfg workerId workerPool targetId expectedTargetKind) := by
  refine (balanced_ask (c := .brpoplpush _ _) ⟨rfl, rfl⟩).ofOption (balanced_pure _)
    fun jobId => ?_
  refine (balanced_getJob jobId).ofOption ?_ fun job => ?_
  · exact (balanced_lrem _ jobId).bind fun _ => balanced_pure _
  · exact balanced_claimJob cfg workerId targetId expectedTargetKind job

/-- A lease is renewed without the lock of the job. -/
theorem balanced_renewJobLease (cfg : Settings) (jobId : JobId) :
    Balanced n (renewJobLease cfg jobId) :=
  (balanced_getJob jobId).ofOption (balanced_pure ()) fun _ => .ite (balanced_pure ())
    (balanced_time.bind fun _ => (balanced_write _).bind fun _ => balanced_write _)

/-! ### Recovering -/

/-- The reaper holds the lock of the job when the capacity is given back. -/
theorem balanced_recoverJob (job : Job) (retryCount : ℕ) :
    Balanced 1 (recoverJob job retryCount) := by
  refine (balanced_releaseReservedCapacity job).bind fun _ => ?_
  refine (balanced_removeFromProcessing _ job.id).bind fun _ => (balanced_write _).bind fun _ => ?_
  refine (balanced_downgradeJobTargetKindIfNeeded job).bind fun _ => ?_
  exact (balanced_write _).bind fun _ => (balanced_write _).bind fun _ => balanced_emitEvent _ _

/-- The reaper holds the job's lock while it gives the capacity back under the target's. -/
theorem balanced_reapJob (cfg : Settings) (now : ℕ) (jobId : JobId) :
    Balanced 0 (reapJob cfg now jobId) := by
  refine Balanced.withLock le_rfl ?_
  refine (balanced_getJob jobId).ofOption ((balanced_write _).bind fun _ => balanced_pure _)
    fun job => ?_
  refine .ite ((balanced_write _).bind fun _ => balanced_pure _) (.ite (balanced_pure _) ?_)
  refine (balanced_cancelStaleRequestedJob job).bind fun _ => .ite (balanced_pure _) ?_
  refine .ite ?_ (.ite ?_ ?_)
  · exact (balanced_markJobFailedFromRecord job _ _).bind fun _ => balanced_pure _
  · exact (balanced_markJobFailedFromRecord _ _ _).bind fun _ => balanced_pure _
  · exact (balanced_recoverJob job _).bind fun _ => balanced_pure _

/-- By induction on the ids that were found stale: each lock is given back before the next one is
taken. -/
theorem balanced_requeueStaleJobs (cfg : Settings) : Balanced 0 (requeueStaleJobs cfg) := by
  have hloop : ∀ now jobIds, Balanced 0 (reapJobs cfg now jobIds) := by
    intro now jobIds
    induction jobIds with
    | nil => exact balanced_pure _
    | cons jobId jobIds ih =>
      exact (balanced_reapJob cfg now jobId).bind fun _ => ih.bind fun _ => balanced_pure _
  exact balanced_time.bind fun _ =>
    (balanced_ask (c := .zrangebyscore _) ⟨rfl, rfl⟩).bind fun _ => hloop _ _

/-! ### Operations -/

/-- What may be called with a job's lock may be called with none. -/
theorem Balanced.outermost {p : Gw α} (h : Balanced 1 p) : Balanced 0 p :=
  fun mine hmine => h mine fun l hl => (hmine l hl).trans Nat.one_pos

/-- **Every operation takes its locks in order and gives them back.** -/
theorem balanced_body (cfg : Settings) (op : Op) : Balanced 0 (op.body cfg) := by
  have hunit : ∀ {p : Gw Unit}, Balanced 1 p → Balanced 0 (p >>= fun _ => pure Outcome.unit) :=
    fun h => h.outermost.bind fun _ => balanced_pure _
  cases op with
  | enqueueJob a uuid => exact (balanced_enqueueJob cfg a uuid).bind fun _ => balanced_pure _
  | enqueueChildJobOnce rootJobId prepared =>
    refine (balanced_enqueueChildJobOnce cfg rootJobId prepared).bind fun reply => ?_
    rcases reply with e | r
    · exact balanced_pure _
    · exact balanced_pure _
  | getLinkedChildJobId rootJobId =>
    refine (balanced_getLinkedChildJobId cfg rootJobId).bind fun reply => ?_
    rcases reply with e | r
    · exact balanced_pure _
    · exact balanced_pure _
  | tryAdmitJob jobId queue target =>
    exact (balanced_tryAdmitJob cfg jobId queue target).outermost.bind fun _ => balanced_pure _
  | claimDispatchJob workerId workerPool targetId expectedTargetKind =>
    exact (balanced_claimDispatchJob cfg workerId workerPool targetId
      expectedTargetKind).outermost.bind fun _ => balanced_pure _
  | renewJobLease jobId => exact hunit (balanced_renewJobLease cfg jobId)
  | cancelJob jobId username =>
    exact (balanced_cancelJob _ jobId username).outermost.bind fun _ => balanced_pure _
  | markJobCompleted jobId responseText workerId =>
    exact hunit (balanced_markJobCompleted jobId responseText workerId)
  | markJobFailed jobId errorText workerId =>
    exact hunit (balanced_markJobFailed jobId errorText workerId)
  | markJobCancelled jobId workerId => exact hunit (balanced_markJobCancelled jobId workerId)
  | markJobWaitingOnChild jobId childJobId stage updates workerId =>
    exact hunit (balanced_markJobWaitingOnChild jobId childJobId stage updates workerId)
  | requeueJobForPending jobId reason =>
    exact (balanced_getJob jobId).ofOption (balanced_pure _) fun job =>
      hunit (balanced_requeueJobForPending job reason)
  | requeueStaleJobs =>
    exact (balanced_requeueStaleJobs cfg).bind fun _ => balanced_pure _

end Gateway

end AiAgent

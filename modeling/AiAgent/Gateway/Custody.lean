import AiAgent.Command.Cut
import AiAgent.Gateway.Touches

/-!
# A push to a pending list comes right after the save

Every operation of the gateway pushes an id to a pending list only after it has saved that job as
queued, with no other save in between, and pops no pending list, whatever the replies
(`AiAgent.Gateway.custody`). One lemma for each function, in the order of
`AiAgent.Gateway.Operations`; what such an operation has done wherever it is cut short is then sound
(`AiAgent.Gateway.sound_issued`).
-/

namespace AiAgent

namespace Gateway

open Command

/-! ### The discipline -/

/-- What one write leaves saved. -/
def Write.savedBy (saved : Option Job) : Write → Option Job
  | .set job => some job
  | _ => saved

/-- The writes of one transaction push to pending lists what was saved last. -/
def Pushes : Option Job → List Write → Prop
  | _, [] => True
  | saved, .rpush queue jobId :: ws => Homes saved queue jobId ∧ Pushes saved ws
  | saved, w :: ws => Pushes (w.savedBy saved) ws

/-- **The discipline**: the ghost is the record that was saved last. -/
def custody : Discipline redisSig (Option Job) where
  may saved
    | .write ws => Pushes saved ws
    | c => c.PopsNoPending
  after saved c _ saved' :=
    match c with
    | .write ws => saved' = ws.foldl Write.savedBy saved
    | _ => saved' = saved

/-- What was saved last, after the writes of a transaction. -/
theorem lastSaved_touches (ws : List Write) (ts : List Touch) :
    lastSaved ((ws.filterMap Write.touch?).reverse ++ ts) =
      ws.foldl Write.savedBy (lastSaved ts) := by
  induction ws generalizing ts with
  | nil => rfl
  | cons w ws ih =>
    rw [touches_cons, List.append_assoc, List.foldl_cons, ih]
    cases w <;> rfl

/-- A transaction that pushes what was saved last leaves a sound history. -/
theorem sound_touches {ws : List Write} {ts : List Touch} (h : Pushes (lastSaved ts) ws)
    (hsound : Sound ts) : Sound ((ws.filterMap Write.touch?).reverse ++ ts) := by
  induction ws generalizing ts with
  | nil => exact hsound
  | cons w ws ih =>
    rw [touches_cons, List.append_assoc]
    cases w with
    | rpush queue jobId => exact ih h.2 ⟨h.1, hsound⟩
    | _ => exact ih h hsound

/-- **Commands that keep the discipline are sound.** -/
theorem sound_of_kept {saved : Option Job} {cs : List redisSig.Cmd} (h : custody.Kept saved cs)
    {ts : List Touch} (hsaved : lastSaved ts = saved) (hsound : Sound ts) :
    Sound (cs.foldl (fun ts c => c.touches ++ ts) ts) ∧ ∀ c ∈ cs, c.PopsNoPending := by
  induction h generalizing ts with
  | nil _ => exact ⟨hsound, fun c hc => by cases hc⟩
  | @cons saved saved' c r cs hmay hafter _ ih =>
    have hstep : lastSaved (c.touches ++ ts) = saved' ∧ Sound (c.touches ++ ts) ∧
        c.PopsNoPending := by
      cases c with
      | write ws =>
        refine ⟨?_, sound_touches (hsaved ▸ hmay) hsound, trivial⟩
        exact (lastSaved_touches ws ts).trans (hsaved ▸ hafter.symm)
      | lrem queue jobId => exact ⟨hsaved.trans hafter.symm, hsound, trivial⟩
      | _ => exact ⟨hsaved.trans hafter.symm, hsound, hmay⟩
    obtain ⟨hlast, hnext, hpops⟩ := hstep
    obtain ⟨hall, hrest⟩ := ih hlast hnext
    exact ⟨hall, List.forall_mem_cons.mpr ⟨hpops, hrest⟩⟩

/-! ### Rules -/

variable {α β : Type}

/-- The program keeps the discipline whatever was saved before. -/
def Tame (p : Gw α) : Prop := ∀ saved, p.Obeys custody (fun _ _ => True) saved

/-- A program that only returns does nothing. -/
theorem tame_pure (a : α) : Tame (pure a : Gw α) := fun _ => trivial

/-- One tame program after the other: what the first one has saved does not matter to the second. -/
theorem Tame.bind {p : Gw α} {f : α → Gw β} (h : Tame p) (hf : ∀ a, Tame (f a)) :
    Tame (p >>= f) := fun saved => Program.Obeys.bind (h saved) fun a saved' _ => hf a saved'

/-- The command pushes nothing to a pending list and pops none. -/
def Cmd.IsTame : Cmd → Prop
  | .write ws => ∀ saved, Pushes saved ws
  | c => c.PopsNoPending

/-- One command that is tame. -/
theorem tame_ask {c : Cmd} (hc : c.IsTame) : Tame (ask c) := by
  intro saved
  refine ⟨?_, fun _ _ _ => trivial⟩
  cases c with
  | write ws => exact hc saved
  | _ => exact hc

/-- Both branches are tame, so it does not matter which one is taken. -/
theorem Tame.ite {c : Prop} [Decidable c] {p q : Gw α} (hp : Tame p) (hq : Tame q) :
    Tame (if c then p else q) := by
  split
  · exact hp
  · exact hq

/-- Locks have nothing to do with pending lists. -/
theorem Tame.withLock {l : Lock} {body : Gw α} (h : Tame body) : Tame (withLock l body) :=
  (tame_ask (c := .lock l) trivial).bind fun _ => h.bind fun a =>
    (tame_ask (c := .unlock l) trivial).bind fun _ => tame_pure a

/-- A job that is queued may be saved and pushed to its pending list, and what comes then is
free. -/
theorem tame_save_push (job : Job) {rest : Gw α} (hqueued : job.status = .queued)
    (h : Tame rest) :
    Tame (saveJob job >>= fun _ =>
      ask (.write [.rpush job.pendingQueue job.id]) >>= fun _ => rest) := by
  intro saved
  refine ⟨trivial, ?_⟩
  rintro - _ rfl
  refine ⟨⟨fun _ => ⟨job, rfl, rfl, hqueued, rfl⟩, trivial⟩, ?_⟩
  rintro - saved' -
  exact h saved'

/-! ### Events, roots and capacity -/

theorem tame_getJob (jobId : JobId) : Tame (getJob jobId) := tame_ask (c := .get jobId) trivial

/-- A record may be saved at any time: only the push that follows has to fit it. -/
theorem tame_saveJob (job : Job) : Tame (saveJob job) :=
  tame_ask (c := .write [.set job]) fun _ => trivial

theorem tame_appendEvent (jobId : JobId) (event : Event) : Tame (appendEvent jobId event) :=
  tame_ask (c := .write [.xadd jobId event]) fun _ => trivial

theorem tame_zrem (jobId : JobId) : Tame (ask (.write [.zrem jobId])) :=
  tame_ask (c := .write [.zrem jobId]) fun _ => trivial

theorem tame_zadd (jobId : JobId) (score : ℕ) : Tame (ask (.write [.zadd jobId score])) :=
  tame_ask (c := .write [.zadd jobId score]) fun _ => trivial

/-- An id may be removed from any list: only a pop would have to say what it took. -/
theorem tame_lrem (queue : Queue) (jobId : JobId) : Tame (ask (.lrem queue jobId)) :=
  tame_ask (c := .lrem queue jobId) trivial

theorem tame_time : Tame (ask .time) := tame_ask (c := .time) trivial

/-- The root of a job is looked up. -/
theorem tame_getDistinctRootJobId (jobId : JobId) : Tame (getDistinctRootJobId jobId) := by
  refine (tame_getJob jobId).bind fun found => ?_
  rcases found with - | job
  · exact tame_pure none
  · cases hroot : job.rootJobId with
    | none => simpa [hroot] using tame_pure none
    | some rootJobId => simpa [hroot] using tame_pure _

/-- Events go to streams, which are no lists. -/
theorem tame_emitEvent (jobId : JobId) (event : Event) : Tame (emitEvent jobId event) := by
  refine (tame_appendEvent jobId event).bind fun _ => .ite (tame_pure ()) ?_
  refine (tame_getDistinctRootJobId jobId).bind fun found => ?_
  rcases found with - | rootJobId
  · exact tame_pure ()
  · exact tame_appendEvent rootJobId _

/-- The root takes over the status of its child, which is no longer queued and pushed nowhere. -/
theorem tame_synthesizeRootTerminalState (childJob : Job) (status : Status)
    (stage : LifecycleStage) (event : Event) :
    Tame (synthesizeRootTerminalState childJob status stage event) := by
  unfold synthesizeRootTerminalState
  rcases childJob.rootJobId with - | rootJobId
  · exact tame_pure ()
  · refine .ite (tame_pure ()) ((tame_getJob rootJobId).bind fun found => ?_)
    rcases found with - | rootJob
    · exact tame_pure ()
    · exact .ite (tame_pure ()) (tame_time.bind fun _ => (tame_saveJob _).bind fun _ =>
        tame_appendEvent rootJobId _)

/-- Writes to the usage of a target push nothing. -/
theorem pushes_reservationWrites (targetId : TargetId) (workloadClass : Workload) (sign : ℤ)
    (tokens vram ram : ℕ) (ws : List Write) (h : ∀ saved, Pushes saved ws) (saved : Option Job) :
    Pushes saved (reservationWrites targetId workloadClass sign tokens vram ram ++ ws) := h saved

/-- What a target has reserved is given back under the lock of the target. -/
theorem tame_releaseReservedCapacity (job : Job) : Tame (releaseReservedCapacity job) := by
  unfold releaseReservedCapacity
  rcases job.holder with - | targetId
  · exact tame_pure ()
  · refine Tame.withLock ((tame_ask (c := .write _) ?_).bind fun _ => ?_)
    · refine pushes_reservationWrites _ _ _ _ _ _ _ fun saved => ?_
      split
      · exact trivial
      · exact trivial
    · refine (tame_ask (c := .hgetallUsage targetId) trivial).bind fun _ => ?_
      refine (tame_ask (c := .write [.hsetUsage targetId _]) fun _ => trivial).bind fun _ => ?_
      refine .ite (tame_pure ()) ?_
      refine (tame_ask (c := .hgetModel targetId job.modelKey) trivial).bind fun remaining => ?_
      split
      · exact tame_ask (c := .write [.hdelModel targetId job.modelKey]) fun _ => trivial
      · exact tame_pure ()

/-- A processing list is no pending list. -/
theorem tame_removeFromProcessing (workerId : Option WorkerId) (jobId : JobId) :
    Tame (removeFromProcessing workerId jobId) := by
  unfold removeFromProcessing
  rcases workerId with - | workerId
  · exact tame_pure ()
  · exact .ite (tame_pure ()) ((tame_lrem _ jobId).bind fun _ => tame_pure ())

/-! ### Ends -/

/-- The end of a job: it is saved, released and removed, and nothing is pushed. -/
theorem tame_finishJob (job : Job) (status : Status) (stage : LifecycleStage) (body : EventBody)
    (workerId : Option WorkerId) : Tame (finishJob job status stage body workerId) :=
  (tame_saveJob job).bind fun _ => (tame_appendEvent job.id _).bind fun _ =>
    (tame_synthesizeRootTerminalState job status stage _).bind fun _ =>
      (tame_releaseReservedCapacity job).bind fun _ =>
        (tame_removeFromProcessing _ job.id).bind fun _ => tame_zrem job.id

theorem tame_markJobCompleted (jobId : JobId) (responseText : Text) (workerId : Option WorkerId) :
    Tame (markJobCompleted jobId responseText workerId) := by
  refine (tame_getJob jobId).bind fun found => ?_
  rcases found with - | job
  · exact tame_pure ()
  · exact tame_time.bind fun _ => tame_finishJob _ _ _ _ workerId

/-- The record is given, so there is nothing to look up. -/
theorem tame_markJobFailedFromRecord (job : Job) (errorText : Text) (workerId : Option WorkerId) :
    Tame (markJobFailedFromRecord job errorText workerId) :=
  tame_time.bind fun _ => tame_finishJob _ _ _ _ workerId

theorem tame_markJobFailed (jobId : JobId) (errorText : Text) (workerId : Option WorkerId) :
    Tame (markJobFailed jobId errorText workerId) := by
  refine (tame_getJob jobId).bind fun found => ?_
  rcases found with - | job
  · exact tame_pure ()
  · exact tame_markJobFailedFromRecord job errorText workerId

/-- A job that has ended is left as it is. -/
theorem tame_markJobCancelled (jobId : JobId) (workerId : Option WorkerId) :
    Tame (markJobCancelled jobId workerId) := by
  refine (tame_getJob jobId).bind fun found => ?_
  rcases found with - | job
  · exact tame_pure ()
  · exact .ite (tame_pure ()) (tame_time.bind fun _ => tame_finishJob _ _ _ _ workerId)

/-! ### Routing and enqueueing -/

/-- Workers and targets are only looked at. -/
theorem tame_hasWorkerForTargetKind (workloadClass : Workload) (targetKind : TargetKind) :
    Tame (hasWorkerForTargetKind workloadClass targetKind) :=
  (tame_ask (c := .workers) trivial).bind fun _ => .ite (tame_pure false)
    ((tame_ask (c := .targets) trivial).bind fun _ => tame_pure _)

/-- Where a job is to run is decided by what is read. -/
theorem tame_resolveTargetKind (cfg : Settings) (workloadClass : Workload) :
    Tame (resolveTargetKind cfg workloadClass) :=
  .ite (tame_pure _) ((tame_hasWorkerForTargetKind _ _).bind fun _ =>
    .ite (tame_pure _) (tame_pure _))

/-- The lengths of the pending lists are read, one list after the other. -/
theorem tame_pendingLength (qs : List (Workload × Priority)) : Tame (pendingLength qs) := by
  induction qs with
  | nil => exact tame_pure _
  | cons q qs ih =>
    exact (tame_ask (c := .llen _) trivial).bind fun _ => ih.bind fun _ => tame_pure _

theorem tame_dynamicQueueLimit (cfg : Settings) : Tame (dynamicQueueLimit cfg) :=
  (tame_ask (c := .targets) trivial).bind fun _ =>
    (tame_ask (c := .workers) trivial).bind fun _ => tame_pure _

/-- A job is created in one transaction: it is saved and pushed. -/
theorem tame_enqueueNewJob (cfg : Settings) (a : EnqueueArgs) (jobId : JobId) :
    Tame (enqueueNewJob cfg a jobId) := by
  refine (tame_pendingLength queueOrder).bind fun _ => (tame_dynamicQueueLimit cfg).bind fun _ =>
    .ite (tame_pure _) ((tame_ask (c := .catalog) trivial).bind fun catalog =>
      .ite (tame_pure _) ?_)
  rcases catalogModel catalog a.modelKey a.modelName with - | modelInfo
  · exact tame_pure _
  · refine (tame_resolveTargetKind cfg _).bind fun targetKind => tame_time.bind fun nowMs => ?_
    refine (tame_ask (c := .write _) fun saved => ?_).bind fun _ => tame_pure _
    exact ⟨fun _ => ⟨newJob cfg a jobId modelInfo targetKind nowMs, rfl, rfl, rfl, rfl⟩, trivial⟩

/-- A job that exists under the requested id is not created again. -/
theorem tame_enqueueJob (cfg : Settings) (a : EnqueueArgs) (uuid : JobId) :
    Tame (enqueueJob cfg a uuid) := by
  unfold enqueueJob
  rcases a.jobIdOverride with - | requestedJobId
  · exact tame_enqueueNewJob cfg a uuid
  · refine (tame_getJob requestedJobId).bind fun found => ?_
    rcases found with - | job
    · exact tame_enqueueNewJob cfg a requestedJobId
    · exact tame_pure _

/-! ### A parser root and its child -/

/-- A link that was lost is saved with the root, and no child is created here. -/
theorem tame_getLinkedChildJobId (cfg : Settings) (rootJobId : JobId) :
    Tame (getLinkedChildJobId cfg rootJobId) := by
  refine Tame.withLock ((tame_getJob rootJobId).bind fun found => ?_)
  rcases found with - | rootJob
  · exact tame_pure _
  dsimp only
  rcases rootJob.childJobId with - | existingChildId
  · refine (tame_getJob _).bind fun child => ?_
    rcases child with - | childJob
    · exact tame_pure _
    · exact (tame_saveJob _).bind fun _ => tame_pure _
  · refine (tame_getJob existingChildId).bind fun child => ?_
    rcases child with - | childJob
    · exact tame_pure _
    · exact tame_pure _

/-- The root is saved with the id of its child. -/
theorem tame_linkChild (rootJobId : JobId) (rootJob : Job) (childJobId : JobId) :
    Tame (linkChild rootJobId rootJob childJobId) :=
  (tame_getJob rootJobId).bind fun _ => tame_saveJob _

/-- The child is created as every other job is, and then linked to its root. -/
theorem tame_createChild (cfg : Settings) (rootJobId : JobId) (rootJob : Job)
    (prepared : PreparedLlmJob) (childJobId : JobId) :
    Tame (createChild cfg rootJobId rootJob prepared childJobId) := by
  refine .ite (tame_pure _) ((tame_enqueueJob cfg _ childJobId).bind fun reply => ?_)
  rcases reply with e | newId
  · exact tame_pure _
  · exact (tame_linkChild rootJobId rootJob newId).bind fun _ => tame_pure _

/-- Under the lock of the root: the child is created, linked, or found. -/
theorem tame_enqueueChildJobOnce (cfg : Settings) (rootJobId : JobId)
    (prepared : PreparedLlmJob) : Tame (enqueueChildJobOnce cfg rootJobId prepared) := by
  refine Tame.withLock ((tame_getJob rootJobId).bind fun found => ?_)
  rcases found with - | rootJob
  · exact tame_pure _
  dsimp only
  rcases rootJob.childJobId with - | existingChildId
  · refine .ite (tame_pure _) ((tame_getJob _).bind fun child => ?_)
    rcases child with - | childJob
    · exact tame_createChild cfg rootJobId rootJob prepared _
    · exact (tame_linkChild rootJobId rootJob _).bind fun _ => tame_pure _
  · refine (tame_getJob existingChildId).bind fun child => ?_
    rcases child with - | childJob
    · exact tame_pure _
    · exact tame_pure _

/-- The root that waits is saved and leaves the lists; it is pushed to none. -/
theorem tame_markJobWaitingOnChild (jobId childJobId : JobId) (stage : LifecycleStage)
    (updates : ParserMetadata) (workerId : Option WorkerId) :
    Tame (markJobWaitingOnChild jobId childJobId stage updates workerId) := by
  refine (tame_getJob jobId).bind fun found => ?_
  rcases found with - | job
  · exact tame_pure ()
  · exact (tame_saveJob _).bind fun _ => (tame_releaseReservedCapacity job).bind fun _ =>
      (tame_removeFromProcessing _ jobId).bind fun _ => tame_zrem jobId

/-! ### Cancelling -/

/-- The id is removed from where it waits before the job is ended. -/
theorem tame_cancelWaiting (queue : Queue) (jobId : JobId) : Tame (cancelWaiting queue jobId) :=
  (tame_lrem queue jobId).bind fun _ => tame_markJobCancelled jobId none

/-- The child is cancelled where it stands; what happens to a child that is running is up to the
caller. -/
theorem tame_propagateCancelToLinkedChild {cancel : JobId → Gw (Except GatewayError Bool)}
    (hcancel : ∀ jobId, Tame (cancel jobId)) (rootJob : Job) :
    Tame (propagateCancelToLinkedChild cancel rootJob) := by
  unfold propagateCancelToLinkedChild
  rcases rootJob.childJobId with - | childJobId
  · exact tame_pure _
  refine (tame_getJob childJobId).bind fun found => ?_
  rcases found with - | childJob
  · exact tame_pure _
  dsimp only
  split
  · exact (tame_cancelWaiting _ childJobId).bind fun _ => tame_pure _
  · exact (tame_cancelWaiting _ childJobId).bind fun _ => tame_pure _
  · exact hcancel childJobId
  · exact tame_pure _

/-- The flag is saved with the record. -/
theorem tame_requestCancel (job : Job) : Tame (requestCancel job) :=
  (tame_saveJob _).bind fun _ => tame_emitEvent job.id _

/-- By induction on how deep links are followed. -/
theorem tame_cancelJob (depth : ℕ) (jobId : JobId) (username : Option String) :
    Tame (cancelJob depth jobId username) := by
  induction depth generalizing jobId username with
  | zero => exact tame_pure _
  | succ depth ih =>
    refine (tame_getJob jobId).bind fun found => ?_
    rcases found with - | job
    · exact tame_pure _
    refine .ite (tame_pure _) (.ite (tame_pure _) (.ite (tame_pure _) ?_))
    split
    · exact (tame_cancelWaiting _ jobId).bind fun _ => tame_pure _
    · exact (tame_cancelWaiting _ jobId).bind fun _ => tame_pure _
    · refine (tame_propagateCancelToLinkedChild (fun childJobId => ih childJobId none) job).bind
        fun reply => ?_
      rcases reply with e | ⟨- | -⟩
      · exact tame_pure _
      · exact (tame_requestCancel job).bind fun _ => tame_pure _
      · exact tame_pure _

/-- A job whose cancelling was asked for is ended and not sent back. -/
theorem tame_cancelStaleRequestedJob (job : Job) : Tame (cancelStaleRequestedJob job) := by
  refine .ite (tame_pure _) ?_
  split
  · exact (tame_lrem _ job.id).bind fun _ =>
      (tame_markJobCancelled job.id _).bind fun _ => tame_pure _
  · exact (tame_markJobCancelled job.id _).bind fun _ => tame_pure _
  · exact (tame_markJobCancelled job.id _).bind fun _ => tame_pure _
  · exact tame_pure _

/-! ### Scheduling -/

/-- The decision itself reads one number of the target. -/
theorem tame_evaluateTargetAdmission (cfg : Settings) (job : Job) (target : Target)
    (usage : Usage) : Tame (evaluateTargetAdmission cfg job target usage) := by
  refine .ite (tame_pure _) (.ite (tame_pure _) ?_)
  refine (tame_ask (c := .hgetModel target.targetId job.modelKey) trivial).bind fun _ => ?_
  split
  · exact tame_pure _
  · exact tame_pure _

/-- A dispatch list is no pending list. -/
theorem tame_admitJob (cfg : Settings) (job : Job) (targetId : TargetId) (admission : Admission) :
    Tame (admitJob cfg job targetId admission) := by
  refine (tame_ask (c := .write _) ?_).bind fun _ => tame_time.bind fun nowMs => ?_
  · exact pushes_reservationWrites _ _ _ _ _ _ _ fun _ => trivial
  · refine (tame_saveJob _).bind fun _ => (tame_zadd _ _).bind fun _ => ?_
    refine (tame_ask (c := .write [.rpush (.dispatch _ targetId) _]) fun _ => ?_).bind fun _ =>
      tame_emitEvent _ _
    exact ⟨fun hpending => Bool.noConfusion hpending, trivial⟩

/-- A job that fits is taken off the pending list before it is admitted. -/
theorem tame_evaluateAndAdmit (cfg : Settings) (job : Job) (queue : Queue) (target : Target) :
    Tame (evaluateAndAdmit cfg job queue target) := by
  refine (tame_ask (c := .hgetallUsage target.targetId) trivial).bind fun usage =>
    (tame_evaluateTargetAdmission cfg job target usage).bind fun found => ?_
  rcases found with - | admission
  · exact tame_pure _
  · exact (tame_lrem queue job.id).bind fun _ => .ite (tame_pure _)
      ((tame_admitJob cfg job target.targetId admission).bind fun _ => tame_pure _)

/-- The record is changed and not saved here. -/
theorem tame_downgradeJobTargetKindIfNeeded (job : Job) :
    Tame (downgradeJobTargetKindIfNeeded job) :=
  .ite (tame_pure _) ((tame_hasWorkerForTargetKind _ _).bind fun _ =>
    .ite (tame_pure _) (tame_pure _))

/-- The record of a job that is downgraded is saved while the job stays in its list. -/
theorem tame_tryAdmitJob (cfg : Settings) (jobId : JobId) (queue : Queue) (target : Target) :
    Tame (tryAdmitJob cfg jobId queue target) := by
  refine Tame.withLock ((tame_getJob jobId).bind fun found => ?_)
  rcases found with - | original
  · exact tame_pure _
  · refine .ite (tame_pure _) ((tame_downgradeJobTargetKindIfNeeded original).bind fun job => ?_)
    exact .ite ((tame_saveJob job).bind fun _ => tame_evaluateAndAdmit cfg job queue target)
      (tame_evaluateAndAdmit cfg job queue target)

/-- The record is saved as queued, and the push comes right after it. -/
theorem tame_requeueJobForPending (job : Job) (reason : String) :
    Tame (requeueJobForPending job reason) :=
  (tame_downgradeJobTargetKindIfNeeded job).bind fun job => tame_time.bind fun nowMs =>
    tame_save_push (requeuedRecord job nowMs) rfl (tame_emitEvent job.id _)

/-- A job of another target kind is sent back, one that is late is failed, and any other is started.
-/
theorem tame_claimJob (cfg : Settings) (workerId : WorkerId) (targetId : TargetId)
    (expectedTargetKind : Option Text) (job : Job) :
    Tame (claimJob cfg workerId targetId expectedTargetKind job) :=
  .ite ((tame_lrem _ job.id).bind fun _ => (tame_releaseReservedCapacity job).bind fun _ =>
      (tame_zrem job.id).bind fun _ => (tame_requeueJobForPending job _).bind fun _ => tame_pure _)
    (tame_time.bind fun _ => .ite
      ((tame_markJobFailed job.id _ _).bind fun _ => tame_pure _)
      ((tame_saveJob _).bind fun _ => (tame_zadd job.id _).bind fun _ =>
        (tame_emitEvent job.id _).bind fun _ => tame_pure _))

/-- What is popped comes from a dispatch list. -/
theorem tame_claimDispatchJob (cfg : Settings) (workerId : WorkerId) (workerPool : WorkerPool)
    (targetId : TargetId) (expectedTargetKind : Option Text) :
    Tame (claimDispatchJob cfg workerId workerPool targetId expectedTargetKind) := by
  refine (tame_ask (c := .brpoplpush (.dispatch workerPool targetId) (.processing workerId))
    ⟨rfl, rfl⟩).bind fun popped => ?_
  rcases popped with - | jobId
  · exact tame_pure _
  · refine (tame_getJob jobId).bind fun found => ?_
    rcases found with - | job
    · exact (tame_lrem _ jobId).bind fun _ => tame_pure _
    · exact tame_claimJob cfg workerId targetId expectedTargetKind job

/-- The lease is written to the record and to the active set. -/
theorem tame_renewJobLease (cfg : Settings) (jobId : JobId) : Tame (renewJobLease cfg jobId) := by
  refine (tame_getJob jobId).bind fun found => ?_
  rcases found with - | job
  · exact tame_pure _
  · exact .ite (tame_pure _) (tame_time.bind fun _ => (tame_saveJob _).bind fun _ =>
      tame_zadd jobId _)

/-! ### Recovering -/

/-- The recovered record is saved as queued, and the push comes right after it. -/
theorem tame_recoverJob (job : Job) (retryCount : ℕ) : Tame (recoverJob job retryCount) :=
  (tame_releaseReservedCapacity job).bind fun _ =>
    (tame_removeFromProcessing _ job.id).bind fun _ => (tame_zrem job.id).bind fun _ =>
      (tame_downgradeJobTargetKindIfNeeded job).bind fun job =>
        tame_save_push (recoveredRecord job retryCount) rfl (tame_emitEvent job.id _)

/-- Under the lock of the job: it is dropped, left alone, ended or recovered. -/
theorem tame_reapJob (cfg : Settings) (now : ℕ) (jobId : JobId) : Tame (reapJob cfg now jobId) := by
  refine Tame.withLock ((tame_getJob jobId).bind fun found => ?_)
  rcases found with - | job
  · exact (tame_zrem jobId).bind fun _ => tame_pure _
  refine .ite ((tame_zrem jobId).bind fun _ => tame_pure _) (.ite (tame_pure _) ?_)
  refine (tame_cancelStaleRequestedJob job).bind fun _ => .ite (tame_pure _) (.ite ?_ (.ite ?_ ?_))
  · exact (tame_markJobFailedFromRecord job _ _).bind fun _ => tame_pure _
  · exact (tame_markJobFailedFromRecord _ _ _).bind fun _ => tame_pure _
  · exact (tame_recoverJob job _).bind fun _ => tame_pure _

/-- By induction on the ids that were found stale. -/
theorem tame_reapJobs (cfg : Settings) (now : ℕ) (jobIds : List JobId) :
    Tame (reapJobs cfg now jobIds) := by
  induction jobIds with
  | nil => exact tame_pure _
  | cons jobId jobIds ih =>
    exact (tame_reapJob cfg now jobId).bind fun _ => ih.bind fun _ => tame_pure _

/-- The active set is read once, at the beginning. -/
theorem tame_requeueStaleJobs (cfg : Settings) : Tame (requeueStaleJobs cfg) :=
  tame_time.bind fun _ => (tame_ask (c := .zrangebyscore _) trivial).bind fun _ =>
    tame_reapJobs cfg _ _

/-! ### Operations -/

/-- **Every operation keeps the discipline.** -/
theorem tame_body (cfg : Settings) (o : Op) : Tame (o.body cfg) := by
  cases o with
  | enqueueJob a uuid => exact (tame_enqueueJob cfg a uuid).bind fun _ => tame_pure _
  | enqueueChildJobOnce rootJobId prepared =>
    refine (tame_enqueueChildJobOnce cfg rootJobId prepared).bind fun reply => ?_
    rcases reply with e | ⟨childJobId, created⟩
    · exact tame_pure _
    · exact tame_pure _
  | getLinkedChildJobId rootJobId =>
    refine (tame_getLinkedChildJobId cfg rootJobId).bind fun reply => ?_
    rcases reply with e | childJobId
    · exact tame_pure _
    · exact tame_pure _
  | tryAdmitJob jobId queue target =>
    exact (tame_tryAdmitJob cfg jobId queue target).bind fun _ => tame_pure _
  | claimDispatchJob workerId workerPool targetId expectedTargetKind =>
    exact (tame_claimDispatchJob cfg workerId workerPool targetId expectedTargetKind).bind
      fun _ => tame_pure _
  | renewJobLease jobId => exact (tame_renewJobLease cfg jobId).bind fun _ => tame_pure _
  | cancelJob jobId username =>
    exact (tame_cancelJob cfg.recursionLimit jobId username).bind fun _ => tame_pure _
  | markJobCompleted jobId responseText workerId =>
    exact (tame_markJobCompleted jobId responseText workerId).bind fun _ => tame_pure _
  | markJobFailed jobId errorText workerId =>
    exact (tame_markJobFailed jobId errorText workerId).bind fun _ => tame_pure _
  | markJobCancelled jobId workerId =>
    exact (tame_markJobCancelled jobId workerId).bind fun _ => tame_pure _
  | markJobWaitingOnChild jobId childJobId stage updates workerId =>
    exact (tame_markJobWaitingOnChild jobId childJobId stage updates workerId).bind
      fun _ => tame_pure _
  | requeueJobForPending jobId reason =>
    refine (tame_getJob jobId).bind fun found => ?_
    rcases found with - | job
    · exact tame_pure _
    · exact (tame_requeueJobForPending job reason).bind fun _ => tame_pure _
  | requeueStaleJobs => exact (tame_requeueStaleJobs cfg).bind fun _ => tame_pure _

/-- **What an operation has done wherever it is cut short is sound**, and it has popped no pending
list. -/
theorem sound_issued (cfg : Settings) (o : Op) (n : ℕ) (s : Redis) :
    Sound (touchesOf ((o.body cfg).issued soloStore 0 n s)) ∧
      ∀ c ∈ (o.body cfg).issued soloStore 0 n s, c.PopsNoPending := by
  have hafter : ∀ saved c (r : redisSig.Reply c), ∃ saved', custody.after saved c r saved' := by
    intro saved c r
    cases c with
    | write ws => exact ⟨_, rfl⟩
    | _ => exact ⟨saved, rfl⟩
  exact sound_of_kept ((tame_body cfg o none).issued hafter n s) rfl trivial

end Gateway

end AiAgent

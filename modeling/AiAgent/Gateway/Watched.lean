import AiAgent.Gateway.Watch

/-!
# Every function of the gateway keeps the discipline

One lemma for each function of `AiAgent.Gateway.Operations`, in the order of that file: from any
view in which the operation has seen what the function goes by, the function keeps the discipline
(`AiAgent.Gateway.Keeps`), and where a caller goes by what it returns, that is in the lemma too.
-/

namespace AiAgent

namespace Gateway

open Command

variable {cfg : Settings} {V : Job → Prop} {N : JobId → Prop} {t : View}

/-! ### Events, roots and capacity -/

/-- A read is only remembered. -/
theorem keeps_getJob (jobId : JobId) : Keeps cfg V N t (getJob jobId) :=
  (obeys_getJob jobId).mono fun _ _ h => by
    rw [h.1]
    exact t.within_look _ _

/-- A function that goes on with the record it reads. -/
theorem keeps_getJob_bind {α : Type} {jobId : JobId} {f : Option Job → Gw α}
    (hnone : ∀ t', t.Within t' → Keeps cfg V N t' (f none))
    (hsome : ∀ t' job, t.Within t' → job.id = jobId → t'.seen job.id (some job) → V job →
      Keeps cfg V N t' (f (some job))) :
    Keeps cfg V N t (getJob jobId >>= f) := by
  refine keeps_bind (obeys_getJob jobId) ?_ ?_
  · rintro found t' ⟨rfl, -⟩
    exact t.within_look _ _
  · rintro found t' ⟨rfl, htold⟩
    cases found with
    | none => exact hnone _ (t.within_look _ _)
    | some job =>
      obtain ⟨hid, hvalid⟩ := htold
      exact hsome _ job (t.within_look _ _) hid (hid ▸ t.seen_look jobId (some job)) hvalid

/-- An event that closes no stream may be appended to that of the job and to that of its root. -/
theorem keeps_emitEvent {jobId : JobId} {event : Event} (h : event.isDone = false) :
    Keeps cfg V N t (emitEvent jobId event) := by
  refine (still_appendEvent h).then fun _ => ?_
  rw [h]
  refine Keeps.bind ?_ fun found t' _ => ?_
  · refine keeps_getJob_bind (fun _ _ => keeps_pure _) fun _ job _ _ _ _ => ?_
    dsimp only
    cases job.rootJobId with
    | none => exact keeps_pure _
    | some rootJobId => exact keeps_pure _
  · cases found with
    | none => exact keeps_pure _
    | some rootJobId =>
      exact Still.keeps (still_appendEvent h : Still cfg V N t' (appendEvent rootJobId
        (buildRootMirroredEvent rootJobId jobId event)))

/-- What was seen of a job lets a record of it be stored. -/
theorem saveOf_save {v job : Job} (hseen : t.seen job.id (some v))
    (hmode : t.mode.Allows v job) (hflag : v.cancelRequested = true → job.cancelRequested = true)
    (hvalid : V job) : t.Saves V job := ⟨⟨v, hseen, hmode, hflag⟩, hvalid⟩

/-- A record that may be stored is stored. -/
theorem keeps_saveJob {job : Job} (h : t.Saves V job) : Keeps cfg V N t (saveJob job) :=
  (obeys_saveJob h).mono (by rintro r t' rfl; exact t.within_save job)

/-- An operation that has just stored the end of a job owes the closing of its stream. -/
theorem View.owes_save {job : Job} (hstatus : job.status.isTerminal = true)
    (hmode : t.mode ≠ .keeping) : (t.save job).owes = some job.id := by
  simp only [View.save, hstatus, hmode, ne_eq, not_false_eq_true, and_self, if_true]

/-- A record that was found live may be stored whatever the mode, unless it only keeps
statuses. -/
theorem Mode.allows_of_live {mode : Mode} (hmode : mode ≠ .keeping) {old : Job} (job : Job)
    (hold : old.status.isTerminal = false) : mode.Allows old job := by
  cases mode with
  | keeping => exact absurd rfl hmode
  | careful => exact hold
  | _ => exact trivial

/-- The root is found live before its end is stored, and then its stream is closed. -/
theorem keeps_synthesizeRootTerminalState (hV : Stable cfg V N) {childJob : Job} {status : Status}
    {stage : LifecycleStage} {event : Event} (hmode : t.mode ≠ .keeping) (hchild : V childJob)
    (hstatus : status.isTerminal = true) (hdone : event.isDone = true) :
    Keeps cfg V N t (synthesizeRootTerminalState childJob status stage event) := by
  unfold synthesizeRootTerminalState
  cases hroot : childJob.rootJobId with
  | none => exact keeps_pure ()
  | some rootJobId =>
    by_cases hself : rootJobId = childJob.id
    · simp only [hself, if_true]
      exact keeps_pure ()
    simp only [hself, if_false]
    refine keeps_getJob_bind (fun _ _ => keeps_pure ()) fun t₁ rootJob ht₁ hid hseen hvalid => ?_
    cases hlive : rootJob.status.isTerminal with
    | true =>
      simp only [hlive, if_true]
      exact keeps_pure ()
    | false =>
      simp only [hlive, Bool.false_eq_true, if_false]
      refine quiet_then trivial fun nowMs => ?_
      have hrecord : V (rootTerminalRecord rootJob childJob status stage nowMs) :=
        hV.congr (hV.child hchild hroot hself rootJob hvalid hid) rfl rfl rfl
      have hmode₁ : t₁.mode ≠ .keeping := by rw [ht₁.mode]; exact hmode
      refine keeps_bind (obeys_saveJob (saveOf_save hseen (Mode.allows_of_live hmode₁ _ hlive) id
        hrecord)) (by rintro r t' rfl; exact t₁.within_save _) ?_
      rintro r t' rfl
      refine keeps_appendEvent_of_owes (by simpa using hdone) ?_
      rw [View.owes_save hstatus hmode₁, ← hid]
      rfl

/-- The lock of a target does not count, since no record is made under it. -/
theorem still_withLock_target {α : Type} {targetId : TargetId} {body : Gw α}
    (h : Still cfg V N t body) : Still cfg V N t (withLock (.target targetId) body) :=
  quiet_then trivial fun _ => h.then fun a =>
    quiet_then trivial fun _ => still_pure a

/-- Only numbers of the target are written. -/
theorem still_releaseReservedCapacity (job : Job) :
    Still cfg V N t (releaseReservedCapacity job) := by
  unfold releaseReservedCapacity
  cases job.holder with
  | none => exact still_pure ()
  | some targetId =>
    refine still_withLock_target ?_
    have hmodel : stored (reservationWrites targetId job.workloadClass (-1) job.reservedTokens
        job.reservedVramMb job.reservedRamMb ++
        if job.modelKey = "" then []
        else [Write.hincrbyModel targetId job.modelKey (-1)]) = none ∧
        (reservationWrites targetId job.workloadClass (-1) job.reservedTokens
        job.reservedVramMb job.reservedRamMb ++
        if job.modelKey = "" then []
        else [Write.hincrbyModel targetId job.modelKey (-1)]).findSome? Write.closes? = none := by
      by_cases h : job.modelKey = ""
      · simp only [h, if_true]
        exact ⟨rfl, rfl⟩
      · simp only [h, if_false]
        exact ⟨rfl, rfl⟩
    refine (still_neutral hmodel.1 hmodel.2).then fun _ => ?_
    refine quiet_then trivial fun usage => ?_
    refine (still_neutral rfl rfl).then fun _ => ?_
    by_cases h : job.modelKey = ""
    · simp only [h, if_true]
      exact still_pure ()
    · simp only [h, if_false]
      refine quiet_then trivial fun (remaining : ℤ) => ?_
      by_cases hr : remaining ≤ 0
      · simp only [hr, if_true]
        exact still_neutral rfl rfl
      · simp only [hr, if_false]
        exact still_pure ()

/-- A list is no record. -/
theorem still_removeFromProcessing (workerId : Option WorkerId) (jobId : JobId) :
    Still cfg V N t (removeFromProcessing workerId jobId) := by
  unfold removeFromProcessing
  cases workerId with
  | none => exact still_pure ()
  | some workerId =>
    by_cases h : workerId = ""
    · simp only [h, if_true]
      exact still_pure ()
    · simp only [h, if_false]
      exact quiet_then trivial fun _ => still_pure ()

/-! ### Ends -/

/-- The end of a job is stored, its stream is closed, and then the same is done for its root. -/
theorem keeps_finishJob (hV : Stable cfg V N) {job : Job} {status : Status}
    {stage : LifecycleStage} {body : EventBody} (workerId : Option WorkerId)
    (hmode : t.mode ≠ .keeping) (hsave : t.Saves V job) (hstatus : job.status = status)
    (hterminal : status.isTerminal = true) (hdone : (Event.bare body).isDone = true) :
    Keeps cfg V N t (finishJob job status stage body workerId) := by
  refine keeps_bind (obeys_saveJob hsave) (by rintro r t' rfl; exact t.within_save job) ?_
  rintro r t' rfl
  have hclose : Keeps cfg V N (t.save job) (appendEvent job.id (Event.bare body)) :=
    keeps_appendEvent_of_owes hdone (View.owes_save (by rw [hstatus]; exact hterminal) hmode)
  refine hclose.bind fun _ t₁ ht₁ => ?_
  have hmode₁ : t₁.mode ≠ .keeping := by
    rw [ht₁.mode]
    exact hmode
  refine (keeps_synthesizeRootTerminalState hV hmode₁ hsave.valid hterminal hdone).bind
    fun _ t₂ _ => ?_
  refine (still_releaseReservedCapacity job).then fun _ => ?_
  refine (still_removeFromProcessing _ job.id).then fun _ => ?_
  exact (still_neutral rfl rfl).keeps

/-- The mode does not look at the status. -/
def Mode.IsBlind : Mode → Prop
  | .careful | .keeping => False
  | _ => True

/-- An operation that does not look may change the status. -/
theorem Mode.IsBlind.not_keeping {mode : Mode} (h : mode.IsBlind) : mode ≠ .keeping := by
  rintro rfl
  exact h

/-- An operation that does not look may store any status. -/
theorem Mode.IsBlind.allows {mode : Mode} (h : mode.IsBlind) (old job : Job) :
    mode.Allows old job := by
  cases mode with
  | careful => exact h.elim
  | keeping => exact h.elim
  | _ => exact trivial

/-- The record may have ended, so the operation must be one that does not look. -/
theorem keeps_markJobCompleted (hV : Stable cfg V N) (jobId : JobId) (responseText : Text)
    (workerId : Option WorkerId) (hmode : t.mode.IsBlind) :
    Keeps cfg V N t (markJobCompleted jobId responseText workerId) := by
  refine keeps_getJob_bind (fun _ _ => keeps_pure ()) fun t₁ job ht₁ _ hseen hvalid => ?_
  refine quiet_then trivial fun nowMs => ?_
  have hmode₁ : t₁.mode.IsBlind := by
    rw [ht₁.mode]
    exact hmode
  exact keeps_finishJob hV workerId hmode₁.not_keeping
    (saveOf_save hseen (hmode₁.allows _ _) id (hV.congr hvalid rfl rfl rfl)) rfl rfl rfl

/-- The record may be one that differs from the one that was seen, as the reaper's does, where
the links and the flag do not. -/
theorem keeps_markJobFailedFromRecord (hV : Stable cfg V N) {old job : Job} (errorText : Text)
    (workerId : Option WorkerId) (hmode : t.mode ≠ .keeping) (hseen : t.seen job.id (some old))
    (hallows : ∀ job', t.mode.Allows old job')
    (hflag : job.cancelRequested = old.cancelRequested) (hvalid : V job) :
    Keeps cfg V N t (markJobFailedFromRecord job errorText workerId) := by
  refine quiet_then trivial fun nowMs => ?_
  exact keeps_finishJob hV workerId hmode
    (saveOf_save hseen (hallows _) (fun h => hflag.trans h) (hV.congr hvalid rfl rfl rfl))
    rfl rfl rfl

/-- The record may have ended here too. -/
theorem keeps_markJobFailed (hV : Stable cfg V N) (jobId : JobId) (errorText : Text)
    (workerId : Option WorkerId) (hmode : t.mode.IsBlind) :
    Keeps cfg V N t (markJobFailed jobId errorText workerId) := by
  refine keeps_getJob_bind (fun _ _ => keeps_pure ()) fun t₁ job ht₁ _ hseen hvalid => ?_
  have hmode₁ : t₁.mode.IsBlind := by
    rw [ht₁.mode]
    exact hmode
  exact keeps_markJobFailedFromRecord hV errorText workerId hmode₁.not_keeping hseen
    (hmode₁.allows _) rfl hvalid

/-- The record is found live, so a careful operation may call this. -/
theorem keeps_markJobCancelled (hV : Stable cfg V N) (jobId : JobId) (workerId : Option WorkerId)
    (hmode : t.mode ≠ .keeping) : Keeps cfg V N t (markJobCancelled jobId workerId) := by
  refine keeps_getJob_bind (fun _ _ => keeps_pure ()) fun t₁ job ht₁ _ hseen hvalid => ?_
  cases hlive : job.status.isTerminal with
  | true =>
    simp only [hlive, if_true]
    exact keeps_pure ()
  | false =>
    simp only [hlive, Bool.false_eq_true, if_false]
    refine quiet_then trivial fun nowMs => ?_
    have hmode₁ : t₁.mode ≠ .keeping := by
      rw [ht₁.mode]
      exact hmode
    exact keeps_finishJob hV workerId hmode₁
      (saveOf_save hseen (Mode.allows_of_live hmode₁ _ hlive) id (hV.congr hvalid rfl rfl rfl))
      rfl rfl rfl

/-! ### Routing and enqueueing -/

/-- Workers and targets are looked at. -/
theorem still_hasWorkerForTargetKind (workloadClass : Workload) (targetKind : TargetKind) :
    Still cfg V N t (hasWorkerForTargetKind workloadClass targetKind) := by
  refine quiet_then trivial fun (workers : List Worker) => ?_
  cases workers.isEmpty with
  | true => exact still_pure false
  | false => exact quiet_then trivial fun _ => still_pure _

/-- Where a job is to run is decided by what is read. -/
theorem still_resolveTargetKind (workloadClass : Workload) :
    Still cfg V N t (resolveTargetKind cfg workloadClass) := by
  unfold resolveTargetKind
  by_cases hgpu : cfg.gpuEnabled = false
  · rw [if_pos hgpu]
    exact still_pure _
  · rw [if_neg hgpu]
    refine (still_hasWorkerForTargetKind workloadClass .gpu).then fun found => ?_
    cases found with
    | true => exact still_pure _
    | false => exact still_pure _

/-- Routing may change the kind of target a job waits for, and nothing else. -/
theorem obeys_downgradeJobTargetKindIfNeeded (job : Job) :
    (downgradeJobTargetKindIfNeeded job).Obeys (watch cfg V N)
      (fun job' t' => t' = t ∧ ∃ targetKind, job' = { job with targetKind := targetKind }) t := by
  unfold downgradeJobTargetKindIfNeeded
  by_cases hgpu : job.targetKind ≠ .gpu
  · rw [if_pos hgpu]
    exact ⟨rfl, job.targetKind, rfl⟩
  · rw [if_neg hgpu]
    refine (still_hasWorkerForTargetKind job.workloadClass .gpu).then fun found => ?_
    cases found with
    | true => exact ⟨rfl, job.targetKind, rfl⟩
    | false => exact ⟨rfl, .cpu, rfl⟩

/-- By induction on the lists that are counted. -/
theorem still_pendingLength (qs : List (Workload × Priority)) :
    Still cfg V N t (pendingLength qs) := by
  induction qs with
  | nil => exact still_pure _
  | cons q qs ih => exact quiet_then trivial fun _ => ih.then fun _ => still_pure _

/-- Targets and workers are counted. -/
theorem still_dynamicQueueLimit : Still cfg V N t (dynamicQueueLimit cfg) :=
  quiet_then trivial fun _ => quiet_then trivial fun _ => still_pure _

/-- A job that may be created is created under the id that was asked for, or refused. -/
theorem obeys_enqueueNewJob {a : EnqueueArgs} {jobId : JobId}
    (hnew : ∀ modelInfo targetKind nowMs,
      t.Creates cfg (newJob cfg a jobId modelInfo targetKind nowMs) ∧
        V (newJob cfg a jobId modelInfo targetKind nowMs)) :
    (enqueueNewJob cfg a jobId).Obeys (watch cfg V N)
      (fun r t' => t.Within t' ∧ ∀ c, r = .ok c → c = jobId) t := by
  unfold enqueueNewJob
  refine (still_pendingLength queueOrder).then fun totalPending => ?_
  refine still_dynamicQueueLimit.then fun limit => ?_
  by_cases hlimit : limit ≤ totalPending
  · simp only [hlimit, if_true]
    exact ⟨.rfl, fun c hc => by cases hc⟩
  simp only [hlimit, if_false]
  refine quiet_then trivial fun (catalog : List (String × ModelInfo)) => ?_
  cases hempty : catalog.isEmpty with
  | true =>
    simp only [if_true]
    exact ⟨.rfl, fun c hc => by cases hc⟩
  | false =>
    simp only [Bool.false_eq_true, if_false]
    cases catalogModel catalog a.modelKey a.modelName with
    | none => exact ⟨.rfl, fun c hc => by cases hc⟩
    | some modelInfo =>
      refine (still_resolveTargetKind _).then fun targetKind => ?_
      refine quiet_then trivial fun nowMs => ?_
      obtain ⟨hcreates, hvalid⟩ := hnew modelInfo targetKind nowMs
      refine ⟨View.May.create rfl rfl hvalid hcreates, ?_⟩
      rintro r t' ⟨-, rfl⟩
      exact ⟨t.within_next (.write _) r, fun c hc => (Except.ok.inj hc).symm⟩

/-- A job that is no child may be created under a new id. -/
theorem keeps_enqueueJob (hV : Stable cfg V N) {a : EnqueueArgs} {uuid : JobId}
    (hmode : t.mode = .enqueueing) (hoverride : a.jobIdOverride = none) (hroot : a.rootJobId = none)
    (hchild : a.childJobId = none) (huuid : N uuid) :
    Keeps cfg V N t (enqueueJob cfg a uuid) := by
  unfold enqueueJob
  rw [hoverride]
  exact (obeys_enqueueNewJob fun modelInfo targetKind nowMs =>
    ⟨.inl ⟨hmode, hroot⟩, hV.new huuid hroot hchild⟩).mono fun _ _ h => h.1

/-! ### A parser root and its child -/

/-- Both operations on a root's child return an id that may be linked to the root. -/
def IsChildOf (V : Job → Prop) (rootJobId c : JobId) : Prop :=
  ∃ v, V v ∧ v.id = rootJobId ∧ v.childJobId = some c

/-- Under the lock of a job the operation knows which root it works for, and after it no more. -/
theorem obeys_withLock_job {α : Type} {jobId : JobId} {body : Gw α} {Q : α → Prop}
    (h : body.Obeys (watch cfg V N) (fun a t' => t.Within t' ∧ Q a)
      { t with root := some jobId, absent := none }) :
    (withLock (.job jobId) body).Obeys (watch cfg V N) (fun a t' => t.Within t' ∧ Q a) t := by
  have hlock : (ask (.lock (.job jobId))).Obeys (watch cfg V N)
      (fun _ t' => t' = { t with root := some jobId, absent := none }) t :=
    ⟨trivial, fun _ _ h => h.2⟩
  refine Program.Obeys.bind hlock ?_
  rintro - _ rfl
  refine Program.Obeys.bind h ?_
  rintro a t₁ ⟨ht, ha⟩
  refine Program.Obeys.bind (keeps_ask (.unlock (.job jobId)) fun _ h => by cases h) ?_
  intro _ t₂ ht₂
  exact ⟨ht.trans ht₂, ha⟩

/-- A child that is found is linked to its root, whether the link was there or is made. -/
theorem obeys_getLinkedChildJobId (hV : Stable cfg V N) (rootJobId : JobId)
    (hmode : t.mode.IsBlind) :
    (getLinkedChildJobId cfg rootJobId).Obeys (watch cfg V N)
      (fun r t' => t.Within t' ∧ ∀ c, r = .ok (some c) → IsChildOf V rootJobId c) t := by
  refine obeys_withLock_job (Q := fun r : Except GatewayError (Option JobId) =>
    ∀ c, r = .ok (some c) → IsChildOf V rootJobId c) ?_
  refine Program.Obeys.bind (obeys_getJob rootJobId) ?_
  rintro found t₁ ⟨ht₁, htold⟩
  have hwithin : t.Within t₁ := by
    rw [ht₁]
    exact ⟨rfl, fun _ _ h => .inl h⟩
  have hseen : t₁.seen rootJobId found := by
    rw [ht₁]
    exact .inr ⟨rfl, rfl⟩
  clear ht₁
  cases found with
  | none => exact ⟨hwithin, fun c hc => by cases hc⟩
  | some rootJob =>
    obtain ⟨rfl, hvalid⟩ := htold
    dsimp only
    cases hlink : rootJob.childJobId with
    | some existingChildId =>
      refine Program.Obeys.bind (keeps_getJob existingChildId) ?_
      intro found t₂ ht₂
      cases found with
      -- Without a link the derived id is tried, and the root is linked if there is a child under
      -- it.
      | none => exact ⟨hwithin.trans ht₂, fun c hc => by cases hc⟩
      | some childJob =>
        refine ⟨hwithin.trans ht₂, ?_⟩
        intro c hc
        cases hc
        exact ⟨rootJob, hvalid, rfl, hlink⟩
    | none =>
      refine Program.Obeys.bind (keeps_getJob (cfg.derivedChildJobId rootJob.id)) ?_
      intro found t₂ ht₂
      cases found with
      | none => exact ⟨hwithin.trans ht₂, fun c hc => by cases hc⟩
      | some childJob =>
        have hlinked := hV.derived hvalid hlink rootJob hvalid rfl
        have hmode₂ : t₂.mode.IsBlind := by
          rw [ht₂.mode, hwithin.mode]
          exact hmode
        refine Program.Obeys.bind (keeps_saveJob (saveOf_save (v := rootJob)
          (ht₂.seen _ _ hseen) (hmode₂.allows _ _) id hlinked)) ?_
        intro _ t₃ ht₃
        refine ⟨(hwithin.trans ht₂).trans ht₃, ?_⟩
        intro c hc
        cases hc
        exact ⟨_, hlinked, rfl, rfl⟩

/-- The root that is linked is the one read last, or the one read first where none is found. -/
theorem keeps_linkChild {rootJobId : JobId} {rootJob : Job} {childJobId : JobId}
    (hmode : t.mode.IsBlind) (hid : rootJob.id = rootJobId)
    (hseen : t.seen rootJobId (some rootJob)) (hvalid : V rootJob)
    (hlink : ∀ job, V job → job.id = rootJobId → V { job with childJobId := some childJobId }) :
    Keeps cfg V N t (linkChild rootJobId rootJob childJobId) := by
  subst hid
  refine keeps_getJob_bind (fun t₁ ht₁ => ?_) fun t₁ job ht₁ hid hseen₁ hvalid₁ => ?_
  · have hmode₁ : t₁.mode.IsBlind := by
      rw [ht₁.mode]
      exact hmode
    exact keeps_saveJob (saveOf_save (v := rootJob) (ht₁.seen _ _ hseen) (hmode₁.allows _ _) id
      (hlink rootJob hvalid rfl))
  · have hmode₁ : t₁.mode.IsBlind := by
      rw [ht₁.mode]
      exact hmode
    exact keeps_saveJob (saveOf_save (v := job) hseen₁ (hmode₁.allows _ _) id
      (hlink job hvalid₁ hid))

/-- The child is created only where it was not found a second time either. -/
theorem obeys_createChild (hV : Stable cfg V N) {rootJobId : JobId} {rootJob : Job}
    (prepared : PreparedLlmJob) (hmode : t.mode = .parsing) (hid : rootJob.id = rootJobId)
    (hseen : t.seen rootJobId (some rootJob)) (hvalid : V rootJob)
    (hlive : rootJob.status.isTerminal = false) (hflag : rootJob.cancelRequested = false)
    (hunlinked : rootJob.childJobId = none) (hroot : t.root = some rootJobId) :
    (createChild cfg rootJobId rootJob prepared (cfg.derivedChildJobId rootJobId)).Obeys
      (watch cfg V N) (fun r t' => t.Within t' ∧
        ∀ c created, r = .ok (c, created) → IsChildOf V rootJobId c) t := by
  subst hid
  have hlink := hV.derived hvalid hunlinked
  unfold createChild
  by_cases hkind : Text.lower prepared.jobKind.strip ≠ "file_chat".toList
  · rw [if_pos hkind]
    exact ⟨.rfl, fun c created hc => by cases hc⟩
  rw [if_neg hkind]
  -- The derived id was just not found, and the lock is held, so the child may be pushed.
  have henqueue : (enqueueJob cfg (childArgs rootJob.id rootJob prepared
      (cfg.derivedChildJobId rootJob.id)) (cfg.derivedChildJobId rootJob.id)).Obeys (watch cfg V N)
      (fun r t' => t.Within t' ∧ ∀ c, r = .ok c → c = cfg.derivedChildJobId rootJob.id) t := by
    refine Program.Obeys.bind (obeys_getJob (cfg.derivedChildJobId rootJob.id)) ?_
    rintro found t₁ ⟨rfl, htold⟩
    cases found with
    | some childJob => exact ⟨t.within_look _ _, fun c hc => (Except.ok.inj hc).symm⟩
    | none =>
      have habsent : (t.look (cfg.derivedChildJobId rootJob.id) none).absent =
          some (cfg.derivedChildJobId rootJob.id) := by
        simp [View.look, hroot]
      refine Program.Obeys.mono (obeys_enqueueNewJob (t := t.look _ none) ?_) ?_
      · intro modelInfo targetKind nowMs
        exact ⟨.inr ⟨hmode, rootJob, hroot, .inl hseen, hlive, hflag, hunlinked, rfl, rfl, habsent,
          t.seen_look _ none⟩, hV.born hvalid hunlinked htold rfl rfl rfl⟩
      · exact fun r t' h => ⟨(t.within_look _ none).trans h.1, h.2⟩
  refine Program.Obeys.bind henqueue ?_
  rintro r t₁ ⟨ht₁, hr⟩
  cases r with
  | error e => exact ⟨ht₁, fun c created hc => by cases hc⟩
  | ok c =>
    obtain rfl := hr c rfl
    have hmode₁ : t₁.mode.IsBlind := by
      rw [ht₁.mode, hmode]
      exact trivial
    refine Program.Obeys.bind (keeps_linkChild hmode₁ rfl (ht₁.seen _ _ hseen) hvalid hlink) ?_
    intro _ t₂ ht₂
    refine ⟨ht₁.trans ht₂, ?_⟩
    intro c created hc
    cases hc
    exact ⟨_, hlink rootJob hvalid rfl, rfl, rfl⟩

/-- The child is looked for under the derived id, and created only where there is none. -/
theorem obeys_findOrCreateChild (hV : Stable cfg V N) {rootJobId : JobId} {rootJob : Job}
    (prepared : PreparedLlmJob) (hmode : t.mode = .parsing) (hid : rootJob.id = rootJobId)
    (hseen : t.seen rootJobId (some rootJob)) (hvalid : V rootJob)
    (hunlinked : rootJob.childJobId = none) (hroot : t.root = some rootJobId) :
    (findOrCreateChild cfg rootJobId rootJob prepared).Obeys (watch cfg V N)
      (fun r t' => t.Within t' ∧ ∀ c created, r = .ok (c, created) → IsChildOf V rootJobId c)
      t := by
  subst hid
  have hlink := hV.derived hvalid hunlinked
  unfold findOrCreateChild
  by_cases hstop : (rootJob.status.isTerminal || rootJob.cancelRequested) = true
  · rw [if_pos hstop]
    exact ⟨.rfl, fun c created hc => by cases hc⟩
  rw [if_neg hstop]
  rw [Bool.not_eq_true, Bool.or_eq_false_iff] at hstop
  refine Program.Obeys.bind (obeys_getJob (cfg.derivedChildJobId rootJob.id)) ?_
  rintro found t₁ ⟨rfl, -⟩
  have hwithin := t.within_look (cfg.derivedChildJobId rootJob.id) found
  cases found with
  | some childJob =>
    have hblind : t.mode.IsBlind := by
      rw [hmode]
      exact trivial
    refine Program.Obeys.bind
      (keeps_linkChild hblind rfl (hwithin.seen _ _ hseen) hvalid hlink) ?_
    intro _ t₂ ht₂
    refine ⟨hwithin.trans ht₂, ?_⟩
    intro c created hc
    cases hc
    exact ⟨_, hlink rootJob hvalid rfl, rfl, rfl⟩
  | none =>
    refine Program.Obeys.mono (obeys_createChild hV prepared hmode rfl (hwithin.seen _ _ hseen)
      hvalid hstop.1 hstop.2 hunlinked hroot) ?_
    exact fun r t' h => ⟨hwithin.trans h.1, h.2⟩

/-- Whatever comes back is a child of the root. -/
theorem obeys_enqueueChildJobOnce (hV : Stable cfg V N) (rootJobId : JobId)
    (prepared : PreparedLlmJob) (hmode : t.mode = .parsing) :
    (enqueueChildJobOnce cfg rootJobId prepared).Obeys (watch cfg V N)
      (fun r t' => t.Within t' ∧ ∀ c created, r = .ok (c, created) → IsChildOf V rootJobId c)
      t := by
  refine obeys_withLock_job (Q := fun r : Except GatewayError (JobId × Bool) =>
    ∀ c created, r = .ok (c, created) → IsChildOf V rootJobId c) ?_
  refine Program.Obeys.bind (obeys_getJob rootJobId) ?_
  rintro found t₁ ⟨ht₁, htold⟩
  have hwithin : t.Within t₁ := by
    rw [ht₁]
    exact ⟨rfl, fun _ _ h => .inl h⟩
  have hroot : t₁.root = some rootJobId := by rw [ht₁]; rfl
  have hseen : t₁.seen rootJobId found := by
    rw [ht₁]
    exact .inr ⟨rfl, rfl⟩
  clear ht₁
  cases found with
  | none => exact ⟨hwithin, fun c created hc => by cases hc⟩
  | some rootJob =>
    obtain ⟨hid, hvalid⟩ := htold
    dsimp only
    cases hlink : rootJob.childJobId with
    | some existingChildId =>
      refine Program.Obeys.bind (keeps_getJob existingChildId) ?_
      intro found t₂ ht₂
      cases found with
      | none => exact ⟨hwithin.trans ht₂, fun c created hc => by cases hc⟩
      | some childJob =>
        refine ⟨hwithin.trans ht₂, ?_⟩
        intro c created hc
        cases hc
        exact ⟨rootJob, hvalid, hid, hlink⟩
    | none =>
      refine Program.Obeys.mono (obeys_findOrCreateChild hV prepared (hwithin.mode.trans hmode) hid
        hseen hvalid hlink hroot) ?_
      exact fun r t' h => ⟨hwithin.trans h.1, h.2⟩

/-- The root keeps its status, and the link it gets is a valid one. -/
theorem keeps_markJobWaitingOnChild (hV : Stable cfg V N) {jobId childJobId : JobId}
    (stage : LifecycleStage) (updates : ParserMetadata) (workerId : Option WorkerId)
    (hmode : t.mode ≠ .careful)
    (hlink : ∀ job, V job → job.id = jobId → V { job with childJobId := some childJobId }) :
    Keeps cfg V N t (markJobWaitingOnChild jobId childJobId stage updates workerId) := by
  refine keeps_getJob_bind (fun _ _ => keeps_pure ()) fun t₁ job ht₁ hid hseen hvalid => ?_
  have hallows : t₁.mode.Allows job (waitingRecord job childJobId stage updates) := by
    rw [ht₁.mode]
    cases hm : t.mode with
    | careful => exact absurd hm hmode
    | keeping => rfl
    | _ => exact trivial
  have hsave : t₁.Saves V (waitingRecord job childJobId stage updates) :=
    saveOf_save hseen hallows id (hV.congr (hlink job hvalid hid) rfl rfl rfl)
  refine (keeps_saveJob hsave).bind fun _ t₂ _ => ?_
  refine (still_releaseReservedCapacity job).then fun _ => ?_
  refine (still_removeFromProcessing _ jobId).then fun _ => ?_
  exact (still_neutral rfl rfl).keeps

/-! ### Cancelling -/

/-- The job is looked at again before it is ended. -/
theorem keeps_cancelWaiting (hV : Stable cfg V N) (queue : Queue) (jobId : JobId)
    (hmode : t.mode ≠ .keeping) : Keeps cfg V N t (cancelWaiting queue jobId) :=
  quiet_then trivial fun _ => keeps_markJobCancelled hV jobId none hmode

/-- The child is withdrawn, or cancelled as the caller does it. -/
theorem keeps_propagateCancelToLinkedChild (hV : Stable cfg V N)
    {cancel : JobId → Gw (Except GatewayError Bool)} (rootJob : Job) (hmode : t.mode ≠ .keeping)
    (hcancel : ∀ t' jobId, t'.mode = t.mode → Keeps cfg V N t' (cancel jobId)) :
    Keeps cfg V N t (propagateCancelToLinkedChild cancel rootJob) := by
  unfold propagateCancelToLinkedChild
  cases rootJob.childJobId with
  | none => exact keeps_pure _
  | some childJobId =>
    refine keeps_getJob_bind (fun _ _ => keeps_pure _) fun t₁ childJob ht₁ _ _ _ => ?_
    have hmode₁ : t₁.mode ≠ .keeping := by
      rw [ht₁.mode]
      exact hmode
    dsimp only
    split
    · exact (keeps_cancelWaiting hV _ _ hmode₁).bind fun _ _ _ => keeps_pure _
    · exact (keeps_cancelWaiting hV _ _ hmode₁).bind fun _ _ _ => keeps_pure _
    · exact hcancel t₁ childJobId ht₁.mode
    · exact keeps_pure _

/-- The flag is set on a record that was found live. -/
theorem keeps_requestCancel (hV : Stable cfg V N) {job : Job} (hmode : t.mode ≠ .keeping)
    (hseen : t.seen job.id (some job)) (hlive : job.status.isTerminal = false) (hvalid : V job) :
    Keeps cfg V N t (requestCancel job) := by
  have hsave : t.Saves V { job with cancelRequested := true } :=
    saveOf_save hseen (Mode.allows_of_live hmode _ hlive) (fun _ => rfl)
      (hV.congr hvalid rfl rfl rfl)
  exact (keeps_saveJob hsave).bind fun _ _ _ => keeps_emitEvent rfl

/-- The record the flag is set on is the one that was read at first. -/
theorem keeps_propagateOrRequest (hV : Stable cfg V N)
    {cancel : JobId → Gw (Except GatewayError Bool)} {job : Job} (hmode : t.mode ≠ .keeping)
    (hcancel : ∀ t' jobId, t'.mode = t.mode → Keeps cfg V N t' (cancel jobId))
    (hseen : t.seen job.id (some job)) (hlive : job.status.isTerminal = false) (hvalid : V job) :
    Keeps cfg V N t (propagateOrRequest cancel job) := by
  refine (keeps_propagateCancelToLinkedChild hV job hmode hcancel).bind fun r t₁ ht₁ => ?_
  have hmode₁ : t₁.mode ≠ .keeping := by
    rw [ht₁.mode]
    exact hmode
  match r with
  | .error e => exact keeps_pure _
  | .ok true => exact keeps_pure _
  | .ok false =>
    exact (keeps_requestCancel hV hmode₁ (ht₁.seen _ _ hseen) hlive hvalid).bind
      fun _ _ _ => keeps_pure _

/-- By induction on how many calls may still nest. -/
theorem keeps_cancelJob (hV : Stable cfg V N) (depth : ℕ) (jobId : JobId)
    (username : Option String) (hmode : t.mode ≠ .keeping) :
    Keeps cfg V N t (cancelJob depth jobId username) := by
  induction depth generalizing jobId username t with
  | zero => exact keeps_pure _
  | succ depth ih =>
    refine keeps_getJob_bind (fun _ _ => keeps_pure _) fun t₁ job ht₁ _ hseen hvalid => ?_
    have hmode₁ : t₁.mode ≠ .keeping := by
      rw [ht₁.mode]
      exact hmode
    dsimp only
    by_cases hforbidden : (username.any fun name => name ≠ "" ∧ job.username ≠ name) = true
    · rw [if_pos hforbidden]
      exact keeps_pure _
    rw [if_neg hforbidden]
    cases hlive : job.status.isTerminal with
    | true =>
      rw [if_pos rfl]
      exact keeps_pure _
    | false =>
      rw [if_neg Bool.false_ne_true]
      by_cases hflag : job.cancelRequested = true
      · rw [if_pos hflag]
        exact keeps_pure _
      rw [if_neg hflag]
      have hrequest : Keeps cfg V N t₁
          (propagateOrRequest (fun childJobId => cancelJob depth childJobId none) job) := by
        refine keeps_propagateOrRequest hV hmode₁ ?_ hseen hlive hvalid
        intro t' childJobId ht'
        exact ih childJobId none (by rw [ht']; exact hmode₁)
      split
      · exact (keeps_cancelWaiting hV _ _ hmode₁).bind fun _ _ _ => keeps_pure _
      · exact (keeps_cancelWaiting hV _ _ hmode₁).bind fun _ _ _ => keeps_pure _
      · exact hrequest

/-- The flag is looked at. -/
theorem keeps_isCancelRequested (jobId : JobId) : Keeps cfg V N t (isCancelRequested jobId) :=
  (keeps_getJob jobId).bind fun _ _ _ => keeps_pure _

/-- The job is looked at again before it is ended. -/
theorem keeps_cancelStaleRequestedJob (hV : Stable cfg V N) (job : Job)
    (hmode : t.mode ≠ .keeping) : Keeps cfg V N t (cancelStaleRequestedJob job) := by
  have hcancel : Keeps cfg V N t (do
      markJobCancelled job.id job.assignedWorkerId
      return true) :=
    (keeps_markJobCancelled hV job.id _ hmode).bind fun _ _ _ => keeps_pure _
  unfold cancelStaleRequestedJob
  by_cases hstays : isLinkedChildJob job = false ∨ job.cancelRequested = false
  · rw [if_pos hstays]
    exact keeps_pure _
  rw [if_neg hstays]
  split
  · exact quiet_then trivial fun _ => hcancel
  · exact hcancel
  · exact hcancel
  · exact keeps_pure _

/-! ### Scheduling -/

/-- The decision reads one number of the target. -/
theorem still_evaluateTargetAdmission (job : Job) (target : Target) (usage : Usage) :
    Still cfg V N t (evaluateTargetAdmission cfg job target usage) := by
  unfold evaluateTargetAdmission
  dsimp only
  split
  · exact still_pure _
  split
  · exact still_pure _
  · refine quiet_then trivial fun modelRef => ?_
    cases normalizeTargetKind target.targetKind with
    | gpu => exact still_pure _
    | cpu => exact still_pure _

/-- A job that was found live is stored as admitted. -/
theorem keeps_admitJob (hV : Stable cfg V N) {job : Job} (targetId : TargetId)
    (admission : Admission) (hmode : t.mode ≠ .keeping) (hseen : t.seen job.id (some job))
    (hlive : job.status.isTerminal = false) (hvalid : V job) :
    Keeps cfg V N t (admitJob cfg job targetId admission) := by
  refine (still_neutral rfl rfl).then fun _ => ?_
  refine quiet_then trivial fun nowMs => ?_
  have hsave : t.Saves V (admittedRecord cfg job targetId admission nowMs) :=
    saveOf_save hseen (Mode.allows_of_live hmode _ hlive) id (hV.congr hvalid rfl rfl rfl)
  refine (keeps_saveJob hsave).bind fun _ t₁ _ => ?_
  refine (still_neutral rfl rfl).then fun _ => ?_
  refine (still_neutral rfl rfl).then fun _ => ?_
  exact keeps_emitEvent rfl

/-- The record that is admitted is the one that was read under the lock of the target. -/
theorem keeps_evaluateAndAdmit (hV : Stable cfg V N) {job : Job} (queue : Queue) (target : Target)
    (hmode : t.mode ≠ .keeping) (hseen : t.seen job.id (some job))
    (hlive : job.status.isTerminal = false) (hvalid : V job) :
    Keeps cfg V N t (evaluateAndAdmit cfg job queue target) := by
  refine quiet_then trivial fun usage => ?_
  refine (still_evaluateTargetAdmission job target usage).then fun found => ?_
  cases found with
  | none => exact keeps_pure _
  | some admission =>
    refine quiet_then trivial fun (removed : ℕ) => ?_
    by_cases hremoved : removed = 0
    · rw [if_pos hremoved]
      exact keeps_pure _
    · rw [if_neg hremoved]
      exact (keeps_admitJob hV _ admission hmode hseen hlive hvalid).bind
        fun _ _ _ => keeps_pure _

/-- A job that is queued has not ended. -/
theorem live_of_queued {job : Job} (h : job.status = .queued) : job.status.isTerminal = false := by
  rw [h]
  rfl

/-- The job is found queued, so both records, that of the downgrade and that of the admission, may
be stored. -/
theorem keeps_tryAdmitJob (hV : Stable cfg V N) (jobId : JobId) (queue : Queue) (target : Target)
    (hmode : t.mode ≠ .keeping) : Keeps cfg V N t (tryAdmitJob cfg jobId queue target) := by
  refine Keeps.withLock fun t₀ ht₀ => ?_
  refine keeps_getJob_bind (fun _ _ => keeps_pure _) fun t₁ original ht₁ _ hseen hvalid => ?_
  have hmode₁ : t₁.mode ≠ .keeping := by
    rw [ht₁.mode, ht₀.mode]
    exact hmode
  dsimp only
  by_cases hstatus : original.status ≠ .queued
  · rw [if_pos hstatus]
    exact keeps_pure _
  rw [if_neg hstatus]
  have hlive := live_of_queued (not_not.mp hstatus)
  refine keeps_bind (obeys_downgradeJobTargetKindIfNeeded original)
    (by rintro job t' ⟨rfl, -⟩; exact .rfl) ?_
  rintro _ t₂ ⟨rfl, targetKind, rfl⟩
  -- The record is stored before the evaluation only where the kind of target has changed.
  by_cases hkind : targetKind = original.targetKind
  · subst hkind
    rw [if_neg (not_not.mpr rfl)]
    exact keeps_evaluateAndAdmit hV queue target hmode₁ hseen hlive hvalid
  · rw [if_pos hkind]
    have hsave : t₂.Saves V { original with targetKind := targetKind } :=
      saveOf_save hseen (Mode.allows_of_live hmode₁ _ hlive) id (hV.congr hvalid rfl rfl rfl)
    refine keeps_bind (obeys_saveJob hsave) (by rintro r t' rfl; exact t₂.within_save _) ?_
    rintro r t' rfl
    exact keeps_evaluateAndAdmit hV queue target hmode₁ (t₂.seen_save _) hlive
      (hV.congr hvalid rfl rfl rfl)

/-- The record that is sent back was seen, but it need not be live. -/
theorem keeps_requeueJobForPending (hV : Stable cfg V N) {job : Job} (reason : String)
    (hseen : t.seen job.id (some job)) (hmode : t.mode.IsBlind) (hvalid : V job) :
    Keeps cfg V N t (requeueJobForPending job reason) := by
  refine keeps_bind (obeys_downgradeJobTargetKindIfNeeded job)
    (by rintro job' t' ⟨rfl, -⟩; exact .rfl) ?_
  rintro _ t ⟨rfl, targetKind, rfl⟩
  refine quiet_then trivial fun nowMs => ?_
  have hsave : t.Saves V (requeuedRecord { job with targetKind := targetKind } nowMs) :=
    saveOf_save hseen (hmode.allows _ _) id (hV.congr hvalid rfl rfl rfl)
  refine (keeps_saveJob hsave).bind fun _ t₁ _ => ?_
  refine (still_neutral rfl rfl).then fun _ => ?_
  exact keeps_emitEvent rfl

/-- A job that is claimed has been seen by the claim. -/
theorem obeys_claimJob (hV : Stable cfg V N) (workerId : WorkerId) (targetId : TargetId)
    (expectedTargetKind : Option Text) {job : Job} (hmode : t.mode.IsBlind)
    (hseen : t.seen job.id (some job)) (hvalid : V job) :
    (claimJob cfg workerId targetId expectedTargetKind job).Obeys (watch cfg V N)
      (fun r t' => t.Within t' ∧ ∀ claimed, r = some claimed →
        t'.seen claimed.id (some claimed) ∧ V claimed) t := by
  unfold claimJob
  by_cases hkind :
      (expectedTargetKind.any fun kind => job.targetKind ≠ normalizeTargetKind (some kind)) = true
  · rw [if_pos hkind]
    refine quiet_then trivial fun _ => ?_
    refine (still_releaseReservedCapacity job).then fun _ => ?_
    refine (still_neutral rfl rfl).then fun _ => ?_
    refine Program.Obeys.bind (keeps_requeueJobForPending hV _ hseen hmode hvalid) ?_
    exact fun _ t₁ ht₁ => ⟨ht₁, fun claimed hclaimed => by cases hclaimed⟩
  rw [if_neg hkind]
  refine quiet_then trivial fun (nowMs : ℕ) => ?_
  by_cases hdeadline : job.deadlineAt ≠ 0 ∧ job.deadlineAt ≤ nowMs / 1000
  · rw [if_pos hdeadline]
    refine Program.Obeys.bind (keeps_markJobFailed hV job.id _ _ hmode) ?_
    exact fun _ t₁ ht₁ => ⟨ht₁, fun claimed hclaimed => by cases hclaimed⟩
  · rw [if_neg hdeadline]
    have hrunning : V (runningRecord cfg job workerId nowMs) := hV.congr hvalid rfl rfl rfl
    have hsave : t.Saves V (runningRecord cfg job workerId nowMs) :=
      saveOf_save hseen (hmode.allows _ _) id hrunning
    refine Program.Obeys.bind (obeys_saveJob hsave) ?_
    rintro _ _ rfl
    refine (still_neutral rfl rfl).then fun _ => ?_
    refine Program.Obeys.bind (keeps_emitEvent rfl) ?_
    intro _ t₁ ht₁
    refine ⟨(t.within_save _).trans ht₁, ?_⟩
    intro claimed hclaimed
    cases hclaimed
    exact ⟨ht₁.seen _ _ (t.seen_save _), hrunning⟩

/-- The record that is handed out was seen. -/
theorem obeys_claimDispatchJob (hV : Stable cfg V N) (workerId : WorkerId)
    (workerPool : WorkerPool) (targetId : TargetId) (expectedTargetKind : Option Text)
    (hmode : t.mode.IsBlind) :
    (claimDispatchJob cfg workerId workerPool targetId expectedTargetKind).Obeys (watch cfg V N)
      (fun r t' => t.Within t' ∧ ∀ claimed, r = some claimed →
        t'.seen claimed.id (some claimed) ∧ V claimed) t := by
  refine quiet_then trivial fun (popped : Option JobId) => ?_
  cases popped with
  | none => exact ⟨.rfl, fun claimed hclaimed => by cases hclaimed⟩
  | some jobId =>
    refine Program.Obeys.bind (obeys_getJob jobId) ?_
    rintro found t₁ ⟨ht₁, htold⟩
    have hwithin : t.Within t₁ := by
      rw [ht₁]
      exact t.within_look _ _
    have hseen : t₁.seen jobId found := by
      rw [ht₁]
      exact t.seen_look _ _
    cases found with
    | none =>
      refine quiet_then trivial fun _ => ?_
      exact ⟨hwithin, fun claimed hclaimed => by cases hclaimed⟩
    | some job =>
      obtain ⟨rfl, hvalid⟩ := htold
      have hmode₁ : t₁.mode.IsBlind := by
        rw [hwithin.mode]
        exact hmode
      refine Program.Obeys.mono
        (obeys_claimJob hV workerId targetId expectedTargetKind hmode₁ hseen hvalid) ?_
      exact fun r t' h => ⟨hwithin.trans h.1, h.2⟩

/-- The record is found running, and is stored with a new lease. -/
theorem keeps_renewJobLease (hV : Stable cfg V N) (jobId : JobId) (hmode : t.mode ≠ .keeping) :
    Keeps cfg V N t (renewJobLease cfg jobId) := by
  refine keeps_getJob_bind (fun _ _ => keeps_pure _) fun t₁ job ht₁ _ hseen hvalid => ?_
  dsimp only
  by_cases hstatus : job.status ≠ .admitted ∧ job.status ≠ .running
  · rw [if_pos hstatus]
    exact keeps_pure _
  rw [if_neg hstatus]
  have hlive : job.status.isTerminal = false := by
    cases hs : job.status <;> simp [hs, Status.isTerminal] at hstatus ⊢
  have hmode₁ : t₁.mode ≠ .keeping := by
    rw [ht₁.mode]
    exact hmode
  refine quiet_then trivial fun (nowMs : ℕ) => ?_
  have hsave : t₁.Saves V { job with leaseUntil := some (nowMs / 1000 + cfg.jobLeaseSeconds) } :=
    saveOf_save hseen (Mode.allows_of_live hmode₁ _ hlive) id (hV.congr hvalid rfl rfl rfl)
  exact (keeps_saveJob hsave).bind fun _ _ _ => (still_neutral rfl rfl).keeps

/-! ### Recovering -/

/-- The record is found live before it is stored as queued. -/
theorem keeps_recoverJob (hV : Stable cfg V N) {job : Job} (retryCount : ℕ)
    (hmode : t.mode ≠ .keeping) (hseen : t.seen job.id (some job))
    (hlive : job.status.isTerminal = false) (hvalid : V job) :
    Keeps cfg V N t (recoverJob job retryCount) := by
  refine (still_releaseReservedCapacity job).then fun _ => ?_
  refine (still_removeFromProcessing _ _).then fun _ => ?_
  refine (still_neutral rfl rfl).then fun _ => ?_
  refine keeps_bind (obeys_downgradeJobTargetKindIfNeeded job)
    (by rintro job' t' ⟨rfl, -⟩; exact .rfl) ?_
  rintro _ t ⟨rfl, targetKind, rfl⟩
  have hsave : t.Saves V (recoveredRecord { job with targetKind := targetKind } retryCount) :=
    saveOf_save hseen (Mode.allows_of_live hmode _ hlive) id (hV.congr hvalid rfl rfl rfl)
  refine (keeps_saveJob hsave).bind fun _ t₁ _ => ?_
  refine (still_neutral rfl rfl).then fun _ => ?_
  exact keeps_emitEvent rfl

/-- A pass over one id goes by one look at the record: what has ended is left alone. -/
theorem keeps_reapJob (hV : Stable cfg V N) (now : ℕ) (jobId : JobId) (hmode : t.mode ≠ .keeping) :
    Keeps cfg V N t (reapJob cfg now jobId) := by
  refine Keeps.withLock fun t₀ ht₀ => ?_
  refine keeps_getJob_bind (fun _ _ => ?_) fun t₁ job ht₁ _ hseen hvalid => ?_
  · exact (still_neutral rfl rfl).then fun _ => keeps_pure _
  have hmode₁ : t₁.mode ≠ .keeping := by
    rw [ht₁.mode, ht₀.mode]
    exact hmode
  dsimp only
  cases hlive : job.status.isTerminal with
  | true =>
    rw [if_pos rfl]
    exact (still_neutral rfl rfl).then fun _ => keeps_pure _
  | false =>
    rw [if_neg Bool.false_ne_true]
    by_cases hlease : now < job.leaseUntil.getD 0
    · rw [if_pos hlease]
      exact keeps_pure _
    rw [if_neg hlease]
    -- In this order: a requested cancel, the deadline, the retries, and else the job is recovered.
    refine (keeps_cancelStaleRequestedJob hV job hmode₁).bind fun cancelled t₂ ht₂ => ?_
    have hmode₂ : t₂.mode ≠ .keeping := by
      rw [ht₂.mode]
      exact hmode₁
    have hfail : ∀ retryCount errorText, Keeps cfg V N t₂
        (markJobFailedFromRecord { job with retryCount := retryCount } errorText
          job.assignedWorkerId) := by
      intro retryCount errorText
      exact keeps_markJobFailedFromRecord hV errorText _ hmode₂ (ht₂.seen _ _ hseen)
        (fun job' => Mode.allows_of_live hmode₂ job' hlive) rfl (hV.congr hvalid rfl rfl rfl)
    cases cancelled with
    | true => exact keeps_pure _
    | false =>
      rw [if_neg Bool.false_ne_true]
      by_cases hdeadline : job.deadlineAt ≠ 0 ∧ job.deadlineAt ≤ now
      · rw [if_pos hdeadline]
        exact (hfail job.retryCount deadlineExceededError).bind fun _ _ _ => keeps_pure _
      rw [if_neg hdeadline]
      by_cases hlimit : retryLimit cfg job < job.retryCount + 1
      · rw [if_pos hlimit]
        exact (hfail _ genericChatError).bind fun _ _ _ => keeps_pure _
      · rw [if_neg hlimit]
        exact (keeps_recoverJob hV _ hmode₂ (ht₂.seen _ _ hseen) hlive hvalid).bind
          fun _ _ _ => keeps_pure _

/-- By induction on the ids. -/
theorem keeps_reapJobs (hV : Stable cfg V N) (now : ℕ) (jobIds : List JobId)
    (hmode : t.mode ≠ .keeping) : Keeps cfg V N t (reapJobs cfg now jobIds) := by
  induction jobIds generalizing t with
  | nil => exact keeps_pure _
  | cons jobId jobIds ih =>
    refine (keeps_reapJob hV now jobId hmode).bind fun recovered t₁ ht₁ => ?_
    exact (ih (by rw [ht₁.mode]; exact hmode)).bind fun _ _ _ => keeps_pure _

/-- The ids are read once. -/
theorem keeps_requeueStaleJobs (hV : Stable cfg V N) (hmode : t.mode ≠ .keeping) :
    Keeps cfg V N t (requeueStaleJobs cfg) :=
  quiet_then trivial fun _ => quiet_then trivial fun _ => keeps_reapJobs hV _ _ hmode

end Gateway

end AiAgent

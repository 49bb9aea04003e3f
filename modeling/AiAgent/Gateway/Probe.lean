import AiAgent.Gateway.Load
import AiAgent.Gateway.Replay

/-!
# The readiness probe

`can_accept_workload` asks whether a small job would be admitted if it came now. It builds such a
job for every model of the catalog, evaluates it on every target that a worker of the pool serves,
and enqueues nothing. What it leaves out of the job is the target kind, which then reads as `cpu`,
while `enqueue_job` writes the kind that `resolve_target_kind` chose.

So the probe says whether the CPU targets have room (`AiAgent.Gateway.canAccept_iff`), and a job is
admitted where the targets of its own kind have room (`AiAgent.Gateway.wouldAdmit_iff`): the two
agree where the routing chooses `cpu`, and by accident where both kinds of targets have room or
neither has.
-/

namespace AiAgent

namespace Gateway

open Command

/-! ### The probe -/

/-- `_model_probe_candidates`: by size, and by key where sizes agree. -/
def modelProbeCandidates (catalog : List (String × ModelInfo)) : List (String × ModelInfo) :=
  catalog.insertionSort fun a b => a.2.size < b.2.size ∨ (a.2.size = b.2.size ∧ a.1 ≤ b.1)

/-- `(worker_pool, target_id) in active_pairs`. -/
def isServed (workers : List Worker) (workerPool : WorkerPool) (target : Target) : Bool :=
  workers.any fun worker =>
    decide (worker.workerPool = workerPool) && decide (worker.targetId = target.targetId)

/-- `probe_job`. The dictionary has an id, the workload, the model and the token counts; what it
does not have is read as nothing, and there is no `target_kind`. -/
def probeJob (cfg : Settings) (workloadClass : Workload) (modelKey : String)
    (modelInfo : ModelInfo) : Job where
  id := 0
  username := ""
  threadId := []
  jobKind := .chat
  workloadClass := workloadClass
  priority := defaultPriorityByWorkload workloadClass
  workerPool := workerPoolForWorkload workloadClass
  modelKey := modelKey
  modelName := modelInfo.name
  modelInfo := modelInfo
  prompt := []
  history := []
  promptTokens := 8
  contextTokens := cfg.defaultContextTokens
  maxOutputTokens := cfg.defaultMaxOutputTokens
  createdAtMs := 0
  deadlineAt := 0
  maxRetries := 0
  fileChat := none
  rootJobId := none
  parentJobId := none
  stagingId := none
  status := .queued
  targetKind := normalizeTargetKind none
  enqueuedAtMs := 0
  admittedAtMs := none
  startedAtMs := none
  finishedAtMs := none
  queueWaitMs := 0
  retryCount := 0
  cancelRequested := false
  error := none
  result := none
  assignedTargetId := none
  assignedWorkerId := none
  leaseUntil := none
  reservedTokens := 0
  reservedVramMb := 0
  reservedRamMb := 0
  profile := none
  parserMetadata := none
  lifecycleStage := none
  childJobId := none

/-- The inner loop of `can_accept_workload`: the models, on one target. -/
def probeModels (cfg : Settings) (workloadClass : Workload) (target : Target) (usage : Usage) :
    List (String × ModelInfo) → Gw Bool
  | [] => return false
  | model :: models => do
    let probe := probeJob cfg workloadClass model.1 model.2
    match ← evaluateTargetAdmission cfg probe target usage with
    | some _ => return true
    | none => probeModels cfg workloadClass target usage models

/-- The outer loop of `can_accept_workload`: the targets. -/
def probeTargets (cfg : Settings) (workloadClass : Workload) (workers : List Worker)
    (candidates : List (String × ModelInfo)) : List Target → Gw Bool
  | [] => return false
  | target :: targets => do
    if isServed workers (workerPoolForWorkload workloadClass) target = false then
      probeTargets cfg workloadClass workers candidates targets
    else
      let usage ← ask (.hgetallUsage target.targetId)
      if ← probeModels cfg workloadClass target usage candidates then return true
      else probeTargets cfg workloadClass workers candidates targets

/-- `can_accept_workload`. -/
def canAcceptWorkload (cfg : Settings) (workloadClass : Workload) : Gw Bool := do
  let targets ← ask .targets
  if targets.isEmpty then return false
  else
    let workers ← ask .workers
    let catalog ← ask .catalog
    let candidates := modelProbeCandidates catalog
    if candidates.isEmpty then return false
    else probeTargets cfg workloadClass workers candidates targets

/-! ### What it answers -/

/-- Some target of the kind that a worker of the pool serves takes a small job of some model. -/
def Redis.HasRoom (s : Redis) (cfg : Settings) (workloadClass : Workload)
    (targetKind : TargetKind) : Prop :=
  ∃ target ∈ s.targets, isServed s.workers (workerPoolForWorkload workloadClass) target = true ∧
    ∃ model ∈ s.catalog,
      (s.admission cfg { probeJob cfg workloadClass model.1 model.2 with targetKind := targetKind }
        target).isSome = true

section Probe

variable {cfg : Settings} {workloadClass : Workload} {s : Redis}

theorem alone_probeModels (target : Target) (models : List (String × ModelInfo)) :
    alone (probeModels cfg workloadClass target (s.usage target.targetId) models) s =
      (models.any fun model =>
        (s.admission cfg (probeJob cfg workloadClass model.1 model.2) target).isSome, s) := by
  induction models with
  | nil => rfl
  | cons model models ih =>
    rw [probeModels, alone_bind, alone_evaluateTargetAdmission, List.any_cons]
    rcases s.admission cfg (probeJob cfg workloadClass model.1 model.2) target with _ | admission
    · exact ih
    · rfl

theorem alone_probeTargets (workers : List Worker) (candidates : List (String × ModelInfo))
    (targets : List Target) :
    alone (probeTargets cfg workloadClass workers candidates targets) s =
      (targets.any fun target =>
        isServed workers (workerPoolForWorkload workloadClass) target &&
          candidates.any fun model =>
            (s.admission cfg (probeJob cfg workloadClass model.1 model.2) target).isSome, s) := by
  induction targets with
  | nil => rfl
  | cons target targets ih =>
    rw [probeTargets, List.any_cons]
    rcases isServed workers (workerPoolForWorkload workloadClass) target with _ | _
    · rw [if_pos rfl, ih]
      rfl
    · rw [if_neg (Bool.noConfusion), alone_bind, alone_hgetallUsage, alone_bind, alone_probeModels,
        Bool.true_and]
      rcases candidates.any _ with _ | _
      · exact ih
      · rfl

/-- **The probe says whether the CPU targets have room.** -/
theorem canAccept_iff :
    (alone (canAcceptWorkload cfg workloadClass) s).1 = true ↔
      s.HasRoom cfg workloadClass .cpu := by
  have hmem : ∀ model, model ∈ modelProbeCandidates s.catalog ↔ model ∈ s.catalog := fun _ =>
    List.mem_insertionSort _
  have hany : (alone (probeTargets cfg workloadClass s.workers (modelProbeCandidates s.catalog)
      s.targets) s).1 = true ↔ s.HasRoom cfg workloadClass .cpu := by
    rw [alone_probeTargets]
    simp only [List.any_eq_true, Bool.and_eq_true, hmem]
    rfl
  rw [canAcceptWorkload, alone_bind, alone_targets]
  rcases htargets : s.targets with _ | ⟨target, targets⟩
  · constructor
    · exact fun h => Bool.noConfusion h
    · rintro ⟨target, hin, -⟩
      rw [htargets] at hin
      exact absurd hin List.not_mem_nil
  · rw [if_neg (Bool.noConfusion), alone_bind, alone_workers, alone_bind, alone_catalog]
    dsimp only
    by_cases hempty : (modelProbeCandidates s.catalog).isEmpty = true
    · rw [if_pos hempty]
      constructor
      · exact fun h => Bool.noConfusion h
      · rintro ⟨-, -, -, model, hmodel, -⟩
        rw [← hmem, List.isEmpty_iff.mp hempty] at hmodel
        exact absurd hmodel List.not_mem_nil
    · rw [if_neg hempty, ← htargets]
      exact hany

end Probe

/-! ### Whether a job is admitted -/

section Admit

variable {cfg : Settings} {s s' : Redis} {job : Job}

/-- The evaluation reads the counters of the target and nothing else of the store. -/
theorem Redis.admission_congr (husage : s'.usage = s.usage) (hmodels : s'.models = s.models)
    (job : Job) (target : Target) : s'.admission cfg job target = s.admission cfg job target := by
  rw [Redis.admission_eq, Redis.admission_eq, husage, hmodels]

theorem Redis.admission_set (saved job : Job) (target : Target) :
    (s.set saved).admission cfg job target = s.admission cfg job target := by
  apply Redis.admission_congr
  · rfl
  · rfl

theorem Redis.admission_push (pushed job : Job) (target : Target) :
    (s.push pushed).admission cfg job target = s.admission cfg job target := by
  apply Redis.admission_congr
  · rfl
  · rfl

theorem fst_hasWorkerForTargetKind (workloadClass : Workload) (targetKind : TargetKind) :
    (alone (hasWorkerForTargetKind workloadClass targetKind) s).1 = s.workers.any fun worker =>
      worker.workerPool = workerPoolForWorkload workloadClass &&
        match s.targets.find? fun target => target.targetId = worker.targetId with
        | none => false
        | some target => normalizeTargetKind target.targetKind = targetKind := by
  rw [hasWorkerForTargetKind, alone_bind, alone_workers]
  dsimp only
  rcases s.workers with _ | ⟨worker, workers⟩
  · rfl
  · rfl

/-- A downgrade reads the heartbeats and nothing else of the store. -/
theorem Redis.downgraded_congr (hworkers : s'.workers = s.workers)
    (htargets : s'.targets = s.targets) (job : Job) : s'.downgraded job = s.downgraded job := by
  rw [Redis.downgraded, Redis.downgraded, downgradeJobTargetKindIfNeeded]
  by_cases hkind : job.targetKind = .gpu
  · rw [if_neg (not_not.mpr hkind), alone_bind, alone_bind, fst_hasWorkerForTargetKind,
      fst_hasWorkerForTargetKind, hworkers, htargets]
    split
    · rfl
    · rfl
  · rw [if_pos hkind]
    rfl

theorem Redis.downgraded_push (pushed job : Job) :
    (s.push pushed).downgraded job = s.downgraded job := by
  apply Redis.downgraded_congr
  · rfl
  · rfl

/-- **What `try_admit_job` answers** for a job that is queued: whether the evaluation admits it,
its target kind downgraded, and whether it is still in the list. -/
theorem fst_tryAdmitJob_queued (hjob : s.job? job.id = some job) (hqueued : job.status = .queued)
    (queue : Queue) (target : Target) : (alone (tryAdmitJob cfg job.id queue target) s).1 =
      ((s.admission cfg (s.downgraded job) target).isSome && decide (job.id ∈ s.queues queue)) := by
  obtain ⟨targetKind, hdown⟩ := s.downgraded_eq job
  rw [tryAdmitJob, alone_withLock, alone_bind, alone_getJob, hjob]
  dsimp only
  rw [if_neg (not_not.mpr hqueued), alone_bind, alone_downgradeJobTargetKindIfNeeded, hdown]
  dsimp only
  by_cases hsame : targetKind = job.targetKind
  · rw [if_neg (not_not.mpr hsame)]
    exact fst_evaluateAndAdmit _ _ _ _ _
  · rw [if_pos hsame, alone_bind, alone_saveJob, fst_evaluateAndAdmit]
    dsimp only
    rw [Redis.admission_set, Redis.queues_set]

/-- The kind that is chosen for a job is not downgraded before anything changes. -/
theorem downgraded_of_resolved {workloadClass : Workload}
    (hkind : job.targetKind = (alone (resolveTargetKind cfg workloadClass) s).1)
    (hclass : job.workloadClass = workloadClass) : s.downgraded job = job := by
  rw [Redis.downgraded, downgradeJobTargetKindIfNeeded]
  by_cases hgpu : job.targetKind = .gpu
  · rw [if_neg (not_not.mpr hgpu), alone_bind, hclass]
    rw [hgpu, resolveTargetKind] at hkind
    by_cases hoff : cfg.gpuEnabled = false
    · rw [if_pos hoff] at hkind
      exact TargetKind.noConfusion hkind
    · rw [if_neg hoff, alone_bind] at hkind
      by_cases hworker : (alone (hasWorkerForTargetKind workloadClass .gpu) s).1 = true
      · rw [if_pos hworker]
        rfl
      · rw [if_neg hworker] at hkind
        exact TargetKind.noConfusion hkind
  · rw [if_pos hgpu]
    rfl

end Admit

/-! ### A small job that comes now -/

/-- The pending queues are full: `enqueue_job` answers 503. -/
def Redis.Saturated (s : Redis) (cfg : Settings) : Prop :=
  (alone (dynamicQueueLimit cfg) s).1 ≤ (alone getTotalPendingJobs s).1

instance (s : Redis) (cfg : Settings) : Decidable (s.Saturated cfg) := Nat.decLe _ _

/-- The target kind `enqueue_job` writes. -/
def Redis.routed (s : Redis) (cfg : Settings) (workloadClass : Workload) : TargetKind :=
  (alone (resolveTargetKind cfg workloadClass) s).1

/-- The arguments of `enqueue_job` that the probe stands for: no history, a prompt of at most
eight tokens, and the token counts of the settings. -/
structure SmallJob (workloadClass : Workload) (a : EnqueueArgs) : Prop where
  /-- The workload. -/
  workloadClass : normalizeWorkloadClass a.workloadClass = workloadClass
  /-- No history. -/
  history : a.history = []
  /-- The prompt. -/
  prompt : approximateTokenCount a.prompt ≤ 8
  /-- `context_tokens` is not given. -/
  contextTokens : a.contextTokens = 0
  /-- `max_output_tokens` is not given. -/
  maxOutputTokens : a.maxOutputTokens = 0
  /-- `job_id_override` is not given. -/
  jobIdOverride : a.jobIdOverride = none

/-- For some model of the catalog the job is enqueued now, and `try_admit_job` admits it on a
target that a worker of the pool serves. -/
def Redis.WouldAdmit (s : Redis) (cfg : Settings) (workloadClass : Workload) (a : EnqueueArgs)
    (uuid : JobId) : Prop :=
  ∃ model ∈ s.catalog, ∃ target ∈ s.targets,
    isServed s.workers (workerPoolForWorkload workloadClass) target = true ∧
      ∃ jobId, (alone (enqueueJob cfg { a with modelKey := model.1 } uuid) s).1 = .ok jobId ∧
        (alone (tryAdmitJob cfg jobId
          (.pending workloadClass (normalizePriority workloadClass a.priority)) target)
          (alone (enqueueJob cfg { a with modelKey := model.1 } uuid) s).2).1 = true

section Small

/-- In a catalog that has every key once, an entry is what its key is looked up as. -/
theorem lookup_of_mem {catalog : List (String × ModelInfo)} (h : (catalog.map Prod.fst).Nodup)
    {model : String × ModelInfo} (hmodel : model ∈ catalog) :
    catalog.lookup model.1 = some model.2 := by
  induction catalog with
  | nil => exact absurd hmodel List.not_mem_nil
  | cons first rest ih =>
    rw [List.map_cons, List.nodup_cons] at h
    rw [List.lookup_cons]
    rcases List.mem_cons.mp hmodel with rfl | hrest
    · rw [beq_self_eq_true]
    · have hne : model.1 ≠ first.1 := fun heq =>
        h.1 (heq ▸ List.mem_map_of_mem (f := Prod.fst) hrest)
      rw [beq_false_of_ne hne]
      exact ih h.2 hrest

variable {cfg : Settings} {workloadClass : Workload} {s : Redis} {a : EnqueueArgs}

/-- `enqueue_job` where the queues are full. -/
theorem enqueueJob_of_saturated (hid : a.jobIdOverride = none) (h : s.Saturated cfg)
    (uuid : JobId) : (alone (enqueueJob cfg a uuid) s).1 = .error .queueSaturated := by
  have htotal : (alone getTotalPendingJobs s).2 = s := by
    rw [getTotalPendingJobs, alone_pendingLength]
  rw [Redis.Saturated] at h
  rw [enqueueJob, hid]
  dsimp only
  rw [enqueueNewJob, alone_bind, htotal, alone_bind, readOnly_dynamicQueueLimit cfg s, if_pos h]
  rfl

/-- `enqueue_job` for a model of the catalog where the queues are not full. -/
theorem enqueueJob_of_open (hid : a.jobIdOverride = none) (h : ¬s.Saturated cfg)
    {modelInfo : ModelInfo} (hmodel : s.catalog.lookup a.modelKey = some modelInfo)
    (uuid : JobId) : alone (enqueueJob cfg a uuid) s =
      (.ok uuid, s.push (newJob cfg a uuid modelInfo
        (s.routed cfg (normalizeWorkloadClass a.workloadClass)) s.clockMs)) := by
  have htotal : (alone getTotalPendingJobs s).2 = s := by
    rw [getTotalPendingJobs, alone_pendingLength]
  have hcatalog : s.catalog.isEmpty = false := by
    by_contra hempty
    rw [List.isEmpty_iff.mp (Bool.eq_true_of_not_eq_false hempty), List.lookup_nil] at hmodel
    exact Option.some_ne_none modelInfo hmodel.symm
  have hfound : catalogModel s.catalog a.modelKey a.modelName = some modelInfo := by
    rw [catalogModel, hmodel, Option.some_or]
  rw [Redis.Saturated] at h
  rw [enqueueJob, hid]
  dsimp only
  rw [enqueueNewJob, alone_bind, htotal, alone_bind, readOnly_dynamicQueueLimit cfg s, if_neg h,
    alone_bind, alone_catalog]
  dsimp only
  rw [if_neg (by rw [hcatalog]; exact Bool.noConfusion), hfound]
  dsimp only
  rw [alone_bind, readOnly_resolveTargetKind]
  rfl

/-- The probe stands for the job in every way the evaluation looks at. -/
theorem admission_newJob (ha : SmallJob workloadClass a) (hdefault : 8 ≤ cfg.defaultContextTokens)
    (modelKey : String) (modelInfo : ModelInfo) (uuid nowMs : ℕ) (targetKind : TargetKind)
    (target : Target) :
    s.admission cfg (newJob cfg { a with modelKey := modelKey } uuid modelInfo targetKind nowMs)
        target =
      s.admission cfg { probeJob cfg workloadClass modelKey modelInfo with
        targetKind := targetKind } target := by
  -- Both prompts are below the context window, so neither counts.
  have hprompt : max (approximateTokenCount a.prompt + 0) cfg.defaultContextTokens =
      max 8 cfg.defaultContextTokens := by
    have := ha.prompt
    omega
  have hne : cfg.defaultContextTokens ≠ 0 := by omega
  have hprofile : ∀ kind, jobProfile cfg
      (newJob cfg { a with modelKey := modelKey } uuid modelInfo targetKind nowMs) kind =
        jobProfile cfg { probeJob cfg workloadClass modelKey modelInfo with
          targetKind := targetKind } kind := fun kind => by
    rw [jobProfile, jobProfile, newJob, probeJob]
    dsimp only
    rw [ha.history, ha.contextTokens, ha.maxOutputTokens, if_pos rfl, if_pos rfl, if_neg hne,
      buildModelProfile.eq_def, buildModelProfile.eq_def, List.map_nil, List.sum_nil, hprompt]
  rw [Redis.admission_eq, Redis.admission_eq, evaluateTarget, evaluateTarget, hprofile]
  have hclass : (newJob cfg { a with modelKey := modelKey } uuid modelInfo targetKind
      nowMs).workloadClass = workloadClass := ha.workloadClass
  rw [hclass]
  rfl

/-- The record of the small job once it is enqueued for a model. -/
def Redis.smallRecord (s : Redis) (cfg : Settings) (workloadClass : Workload) (a : EnqueueArgs)
    (uuid : JobId) (model : String × ModelInfo) : Job :=
  newJob cfg { a with modelKey := model.1 } uuid model.2 (s.routed cfg workloadClass) s.clockMs

/-- What `try_admit_job` answers for it. -/
theorem fst_tryAdmitJob_small (ha : SmallJob workloadClass a)
    (hdefault : 8 ≤ cfg.defaultContextTokens) (uuid : JobId) (model : String × ModelInfo)
    (target : Target) :
    (alone (tryAdmitJob cfg uuid
      (.pending workloadClass (normalizePriority workloadClass a.priority)) target)
        (s.push (s.smallRecord cfg workloadClass a uuid model))).1 =
      (s.admission cfg { probeJob cfg workloadClass model.1 model.2 with
        targetKind := s.routed cfg workloadClass } target).isSome := by
  obtain ⟨job, hrecord⟩ : ∃ job, job = s.smallRecord cfg workloadClass a uuid model := ⟨_, rfl⟩
  have hid : job.id = uuid := by rw [hrecord]; rfl
  have hclass : job.workloadClass = workloadClass := by rw [hrecord]; exact ha.workloadClass
  have hpriority : job.priority = normalizePriority workloadClass a.priority := by
    rw [hrecord, ← ha.workloadClass]
    rfl
  have hqueued : job.status = .queued := by rw [hrecord]; rfl
  have hkind : job.targetKind = s.routed cfg workloadClass := by rw [hrecord]; rfl
  have hjob : (s.push job).job? job.id = some job := by rw [Redis.job?_push, if_pos rfl]
  have hdown : (s.push job).downgraded job = job := by
    rw [Redis.downgraded_push]
    exact downgraded_of_resolved hkind hclass
  have hmem : job.id ∈ (s.push job).queues (.pending job.workloadClass job.priority) := by
    rw [Redis.push, Redis.queues_xadd, Redis.queues_rpush, Function.update_self]
    exact List.mem_append_right _ (List.mem_singleton_self _)
  have hprobe := admission_newJob (s := s) ha hdefault model.1 model.2 uuid s.clockMs
    (s.routed cfg workloadClass) target
  rw [← hrecord, ← hpriority, ← hid, ← hclass, fst_tryAdmitJob_queued hjob hqueued, hdown,
    decide_eq_true hmem, Bool.and_true, Redis.admission_push, hclass, hrecord]
  exact congrArg Option.isSome hprobe

/-- **A small job is admitted where the targets of its kind have room.** -/
theorem wouldAdmit_iff (ha : SmallJob workloadClass a) (hdefault : 8 ≤ cfg.defaultContextTokens)
    (hcatalog : (s.catalog.map Prod.fst).Nodup) (uuid : JobId) :
    s.WouldAdmit cfg workloadClass a uuid ↔
      ¬s.Saturated cfg ∧ s.HasRoom cfg workloadClass (s.routed cfg workloadClass) := by
  by_cases hsaturated : s.Saturated cfg
  · constructor
    · rintro ⟨model, -, target, -, -, jobId, henqueue, -⟩
      have hfull := enqueueJob_of_saturated (a := { a with modelKey := model.1 })
        ha.jobIdOverride hsaturated uuid
      cases hfull.symm.trans henqueue
    · exact fun h => absurd hsaturated h.1
  · have henqueue : ∀ model ∈ s.catalog,
        alone (enqueueJob cfg { a with modelKey := model.1 } uuid) s =
          (.ok uuid, s.push (s.smallRecord cfg workloadClass a uuid model)) := by
      intro model hmodel
      have hopen := enqueueJob_of_open (a := { a with modelKey := model.1 }) ha.jobIdOverride
        hsaturated (lookup_of_mem hcatalog hmodel) uuid
      rw [hopen, Redis.smallRecord, ← ha.workloadClass]
    constructor
    · rintro ⟨model, hmodel, target, htarget, hserved, jobId, hid, hadmitted⟩
      rw [henqueue model hmodel] at hid hadmitted
      obtain rfl : uuid = jobId := Except.ok.inj hid
      rw [fst_tryAdmitJob_small ha hdefault] at hadmitted
      exact ⟨hsaturated, target, htarget, hserved, model, hmodel, hadmitted⟩
    · rintro ⟨-, target, htarget, hserved, model, hmodel, hadmission⟩
      refine ⟨model, hmodel, target, htarget, hserved, uuid, ?_, ?_⟩
      · rw [henqueue model hmodel]
      · rw [henqueue model hmodel, fst_tryAdmitJob_small ha hdefault]
        exact hadmission

/-- **When the probe agrees with the admission**: where the job is routed to CPU targets, or both
kinds of targets have room or neither; and where the queues are full, if CPU targets have none. -/
theorem probeAgrees_iff (cfg : Settings) (workloadClass : Workload) (s : Redis) (a : EnqueueArgs)
    (uuid : JobId) (ha : SmallJob workloadClass a) (hdefault : 8 ≤ cfg.defaultContextTokens)
    (hcatalog : (s.catalog.map Prod.fst).Nodup) :
    ((alone (canAcceptWorkload cfg workloadClass) s).1 = true ↔
        s.WouldAdmit cfg workloadClass a uuid) ↔
      if s.Saturated cfg then ¬s.HasRoom cfg workloadClass .cpu
      else s.routed cfg workloadClass = .cpu ∨
        (s.HasRoom cfg workloadClass .cpu ↔ s.HasRoom cfg workloadClass .gpu) := by
  rw [canAccept_iff, wouldAdmit_iff ha hdefault hcatalog]
  by_cases hsaturated : s.Saturated cfg
  · rw [if_pos hsaturated]
    exact ⟨fun h hroom => (h.mp hroom).1 hsaturated,
      fun h => ⟨fun hroom => absurd hroom h, fun hnot => absurd hsaturated hnot.1⟩⟩
  · rw [if_neg hsaturated, and_iff_right hsaturated]
    rcases hrouted : s.routed cfg workloadClass with _ | _
    · exact ⟨fun _ => .inl rfl, fun _ => Iff.rfl⟩
    · exact ⟨.inr, fun h => h.resolve_left TargetKind.noConfusion⟩

end Small

/-- The small request is such a job. -/
theorem smallJob_smallRequest : SmallJob .chat smallRequest :=
  ⟨by decide +kernel, rfl, by decide +kernel, rfl, rfl, rfl⟩

/-- On the cluster that has a GPU target only, the probe and the admission disagree for it. -/
theorem probeAgrees_iff_gpuOnly :
    ((alone (canAcceptWorkload gpuSettings .chat) gpuStore).1 = true ↔
        gpuStore.WouldAdmit gpuSettings .chat smallRequest 1) ↔
      if gpuStore.Saturated gpuSettings then ¬gpuStore.HasRoom gpuSettings .chat .cpu
      else gpuStore.routed gpuSettings .chat = .cpu ∨
        (gpuStore.HasRoom gpuSettings .chat .cpu ↔ gpuStore.HasRoom gpuSettings .chat .gpu) :=
  probeAgrees_iff gpuSettings .chat gpuStore smallRequest 1 smallJob_smallRequest
    (by decide +kernel) (by decide +kernel)

/-- What the probe says of the cluster that has a GPU target only: that it takes nothing, while
the chat job that comes now is admitted. -/
theorem not_probeAgrees_gpuOnly :
    ¬ ∀ (cfg : Settings) (workloadClass : Workload) (s : Redis) (a : EnqueueArgs) (uuid : JobId),
      SmallJob workloadClass a → 8 ≤ cfg.defaultContextTokens → (s.catalog.map Prod.fst).Nodup →
        ((alone (canAcceptWorkload cfg workloadClass) s).1 = true ↔
          s.WouldAdmit cfg workloadClass a uuid) := by
  intro h
  have hagrees := h gpuSettings .chat gpuStore smallRequest 1 smallJob_smallRequest
    (by decide +kernel) (by decide +kernel)
  have hrefused : (alone (canAcceptWorkload gpuSettings .chat) gpuStore).1 = false := by
    decide +kernel
  have hadmitted : gpuStore.WouldAdmit gpuSettings .chat smallRequest 1 :=
    ⟨("m", ⟨"m", 0⟩), by decide +kernel, gpuTarget, List.mem_singleton_self _, by decide +kernel, 1,
      by decide +kernel, by decide +kernel⟩
  rw [hagrees.mpr hadmitted] at hrefused
  exact Bool.noConfusion hrefused

end Gateway

end AiAgent

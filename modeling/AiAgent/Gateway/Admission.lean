import AiAgent.Gateway.Redis

/-!
# Admission: what a job costs and whether a target takes it

`build_model_profile` estimates what a job needs, and `_evaluate_target_admission` decides
whether a target still has it: first the tokens, where chat and SIEM hold a reserve the other
workloads may not touch, then the memory of the target's kind. The evaluation reads one key, the
reference count of the job's model; everything around that read is a function.
-/

namespace AiAgent

namespace Gateway

/-- `build_model_profile`. -/
def buildModelProfile (cfg : Settings) (modelInfo : ModelInfo)
    (promptTokens contextTokens maxOutputTokens : ℕ) (targetKind : TargetKind) : Profile :=
  let sizeMb := max 256 ((modelInfo.size + (1024 * 1024 - 1)) / (1024 * 1024))
  let kvTokens := max promptTokens contextTokens + maxOutputTokens
  let kvCacheMb := max 64 (cfg.kvCacheMb kvTokens)
  let weightsMb := match targetKind with
    | .gpu => max 256 (cfg.gpuWeightsMb sizeMb)
    | .cpu => max 256 (cfg.cpuWeightsMb sizeMb)
  let runtimeOverheadMb := match targetKind with
    | .gpu => cfg.gpuRuntimeOverheadMb
    | .cpu => cfg.cpuRuntimeOverheadMb
  let totalMb := weightsMb + kvCacheMb + runtimeOverheadMb
  let granularity := max cfg.tokenGranularityMb 1
  { weightsMb, kvCacheMb, runtimeOverheadMb, totalMb,
    tokenCost := max 1 ((totalMb + (granularity - 1)) / granularity) }

/-- What an admission reserves. -/
structure Admission where
  /-- `reserved_tokens`. -/
  reservedTokens : ℕ
  /-- `reserved_vram_mb`. -/
  reservedVramMb : ℕ
  /-- `reserved_ram_mb`. -/
  reservedRamMb : ℕ
  /-- `profile`. -/
  profile : Profile

/-- The profile of a job on a target: a token count of zero reads as the setting. -/
def jobProfile (cfg : Settings) (job : Job) (targetKind : TargetKind) : Profile :=
  buildModelProfile cfg job.modelInfo job.promptTokens
    (if job.contextTokens = 0 then cfg.defaultContextTokens else job.contextTokens)
    (if job.maxOutputTokens = 0 then cfg.defaultMaxOutputTokens else job.maxOutputTokens)
    targetKind

/-- `base_tokens` of a target. -/
def baseTokens (target : Target) : ℕ := max 1 target.baseCapacityTokens

/-- `cpu_single_slot_override`: an idle CPU target takes one job, however large. -/
def cpuSingleSlotOverride (targetKind : TargetKind) (usage : Usage) (tokenCost base : ℕ) : Bool :=
  targetKind = .cpu ∧ usage .activeJobs = 0 ∧ usage .tokens = 0 ∧ base < tokenCost

/-- `effective_tokens`: the capacity the token checks are made against. -/
def effectiveTokens (targetKind : TargetKind) (usage : Usage) (tokenCost base : ℕ) : ℕ :=
  if cpuSingleSlotOverride targetKind usage tokenCost base then tokenCost else base

/-- The token checks of `_evaluate_target_admission`. -/
def tokensAdmit (cfg : Settings) (workloadClass : Workload) (usage : Usage)
    (tokenCost effective : ℕ) : Bool :=
  let chatReservedCap : ℤ := max 1 (cfg.chatReserved effective : ℤ)
  let siemReservedCap : ℤ := max 0 (cfg.siemReserved effective : ℤ)
  let chatUsed := usage (.tokensOf .chat)
  let siemUsed := usage (.tokensOf .siem)
  let totalReserved := usage .tokens
  let protectedUnused := max (chatReservedCap - chatUsed) 0 + max (siemReservedCap - siemUsed) 0
  let availableUnreserved := max 0 (effective - totalReserved - protectedUnused)
  let siemCanUseReserved := siemUsed + tokenCost ≤ siemReservedCap
  let siemCanBorrow :=
    (tokenCost : ℤ) ≤ max 0 (effective - totalReserved - max (chatReservedCap - chatUsed) 0)
  !decide (totalReserved + tokenCost > effective) &&
    !decide (workloadClass = .batch ∧ availableUnreserved < tokenCost) &&
    !decide (workloadClass = .siem ∧ ¬siemCanUseReserved ∧ ¬siemCanBorrow)

/-- The memory a job needs: its cache and overhead, and the weights where they are not warm. -/
def requiredMb (profile : Profile) (modelIsWarm : Bool) : ℕ :=
  profile.kvCacheMb + profile.runtimeOverheadMb + if modelIsWarm then 0 else profile.weightsMb

/-- `avg_parallel_cost`, at least one. -/
def avgParallelCost (cfg : Settings) (profile : Profile) : ℕ :=
  max (max (profile.kvCacheMb + profile.runtimeOverheadMb) cfg.tokenGranularityMb) 1

/-- The memory checks of a GPU target. -/
def gpuAdmission (cfg : Settings) (target : Target) (usage : Usage) (profile : Profile)
    (modelIsWarm : Bool) : Option Admission :=
  let baseFreeVram := target.vramFreeMb - cfg.gpuSafetyMarginMb - cfg.gpuFragmentationMarginMb
  let dynamicParallelLimit := max 1 (baseFreeVram / avgParallelCost cfg profile)
  let requiredVram := requiredMb profile modelIsWarm
  let effectiveVram : ℤ := baseFreeVram - usage .vram
  if usage .activeJobs ≥ dynamicParallelLimit ∨ effectiveVram < requiredVram then none
  else some ⟨profile.tokenCost, requiredVram, 0, profile⟩

/-- The memory checks of a CPU target. -/
def cpuAdmission (cfg : Settings) (workloadClass : Workload) (target : Target) (usage : Usage)
    (profile : Profile) (modelIsWarm : Bool) : Option Admission :=
  let baseFreeRam := target.ramFreeMb - cfg.ramSafetyMarginMb
  let cpuCount := if target.cpuCount = 0 then 1 else target.cpuCount
  let cpuParallelLimit := max 1 (min cpuCount (baseFreeRam / avgParallelCost cfg profile))
  let requiredRam := requiredMb profile modelIsWarm
  let effectiveRam : ℤ := baseFreeRam - usage .ram
  let cpuColdStartRamOverride := workloadClass = .chat ∧ usage .activeJobs = 0 ∧
    usage .tokens = 0 ∧ usage .ram = 0 ∧ modelIsWarm = false ∧ effectiveRam > 0 ∧
    (requiredRam : ℤ) > effectiveRam
  if target.cpuPercent ≥ cfg.cpuLoadShedThreshold ∧ usage .activeJobs > 0 then none
  else if usage .activeJobs ≥ cpuParallelLimit then none
  else if effectiveRam < requiredRam ∧ ¬cpuColdStartRamOverride then none
  else some ⟨profile.tokenCost, 0, requiredRam, profile⟩

/-- `_evaluate_target_admission`; `none` is `{"admit": False}`. -/
def evaluateTargetAdmission (cfg : Settings) (job : Job) (target : Target) (usage : Usage) :
    Gw (Option Admission) :=
  let targetKind := normalizeTargetKind target.targetKind
  let profile := jobProfile cfg job targetKind
  let effective := effectiveTokens targetKind usage profile.tokenCost (baseTokens target)
  if job.targetKind ≠ targetKind then pure none
  else if tokensAdmit cfg job.workloadClass usage profile.tokenCost effective = false then
    pure none
  else do
    let modelRef ← ask (.hgetModel target.targetId job.modelKey)
    let modelIsWarm := decide (job.modelKey ∈ target.loadedModels) ||
      decide (job.modelKey ∈ target.pinnedModels) || decide (modelRef > 0)
    match targetKind with
    | .gpu => pure (gpuAdmission cfg target usage profile modelIsWarm)
    | .cpu => pure (cpuAdmission cfg job.workloadClass target usage profile modelIsWarm)

end Gateway

end AiAgent

import AiAgent.Gateway.Moves
import Mathlib.Logic.Relation

/-!
# The load of one target

What an admission depends on besides the job and the report of the target is the usage hash of the
target and the reference counts of its models. This file takes them out of the store together with
the jobs that are active on the target: `AiAgent.Gateway.Load`. Under the lock of the target the
load moves by two kinds of steps only, an admission and the release of a job that was admitted.

Each counter is the total of what the active jobs took of it (`AiAgent.Gateway.Load.Balanced`), so
that nothing is lost where a release keeps counters from falling below zero. The steps are those of
the store (`AiAgent.Gateway.Load.shows_admitted`, `AiAgent.Gateway.Load.shows_release`).
-/

namespace AiAgent

namespace Gateway

open Command

/-! ### The evaluation as a function -/

/-- The model is warm on the target: it is loaded or pinned there, or a job of it is active. -/
def modelIsWarm (target : Target) (modelKey : String) (modelRef : ℤ) : Bool :=
  decide (modelKey ∈ target.loadedModels) || decide (modelKey ∈ target.pinnedModels) ||
    decide (modelRef > 0)

/-- `_evaluate_target_admission`, given the reference count it reads. -/
def evaluateTarget (cfg : Settings) (job : Job) (target : Target) (usage : Usage)
    (modelRef : ℤ) : Option Admission :=
  let targetKind := normalizeTargetKind target.targetKind
  let profile := jobProfile cfg job targetKind
  let effective := effectiveTokens targetKind usage profile.tokenCost (baseTokens target)
  if job.targetKind ≠ targetKind then none
  else if tokensAdmit cfg job.workloadClass usage profile.tokenCost effective = false then none
  else
    match targetKind with
    | .gpu => gpuAdmission cfg target usage profile (modelIsWarm target job.modelKey modelRef)
    | .cpu => cpuAdmission cfg job.workloadClass target usage profile
        (modelIsWarm target job.modelKey modelRef)

/-- **The evaluation in the store** is this function of the target's counters. -/
theorem Redis.admission_eq (s : Redis) (cfg : Settings) (job : Job) (target : Target) :
    s.admission cfg job target = evaluateTarget cfg job target (s.usage target.targetId)
      (s.models target.targetId job.modelKey) := by
  rw [Redis.admission, evaluateTargetAdmission, evaluateTarget]
  dsimp only
  by_cases hkind : job.targetKind = normalizeTargetKind target.targetKind
  · rw [if_neg (not_not.mpr hkind), if_neg (not_not.mpr hkind)]
    by_cases htokens : tokensAdmit cfg job.workloadClass (s.usage target.targetId)
        (jobProfile cfg job (normalizeTargetKind target.targetKind)).tokenCost
        (effectiveTokens (normalizeTargetKind target.targetKind) (s.usage target.targetId)
          (jobProfile cfg job (normalizeTargetKind target.targetKind)).tokenCost
          (baseTokens target)) = false
    · rw [if_pos htokens, if_pos htokens]
      rfl
    · rw [if_neg htokens, if_neg htokens, alone_bind, alone_hgetModel]
      cases normalizeTargetKind target.targetKind with
      | gpu => rfl
      | cpu => rfl
  · rw [if_pos hkind, if_pos hkind]
    rfl

/-- `cpu_cold_start_ram_override`: an idle CPU target takes one chat job whose model is cold,
however much memory it needs. -/
def cpuColdStartRamOverride (cfg : Settings) (workloadClass : Workload) (target : Target)
    (usage : Usage) (profile : Profile) (warm : Bool) : Bool :=
  workloadClass = .chat ∧ usage .activeJobs = 0 ∧ usage .tokens = 0 ∧ usage .ram = 0 ∧
    warm = false ∧ ((target.ramFreeMb - cfg.ramSafetyMarginMb : ℕ) : ℤ) - usage .ram > 0 ∧
    (requiredMb profile warm : ℤ) >
      ((target.ramFreeMb - cfg.ramSafetyMarginMb : ℕ) : ℤ) - usage .ram

/-! ### The load -/

/-- An active job as it was admitted, and what its profile says of the admission. -/
structure Grant where
  job : Job
  modelIsWarm : Bool
  cpuSingleSlotOverride : Bool
  cpuColdStartRamOverride : Bool

/-- What is reserved on a target, and the jobs it is reserved for. -/
structure Load where
  usage : Usage
  models : String → ℤ
  active : List Grant

/-- The load of a target on which no job is active. -/
def Load.idle : Load where
  usage := fun _ => 0
  models := fun _ => 0
  active := []

/-- What `_evaluate_target_admission` answers under a load. -/
def Load.evaluate (l : Load) (cfg : Settings) (job : Job) (target : Target) : Option Admission :=
  evaluateTarget cfg job target l.usage (l.models job.modelKey)

/-- The job as it is admitted. -/
def Load.grant (l : Load) (cfg : Settings) (job : Job) (target : Target) (admission : Admission)
    (nowMs : ℕ) : Grant :=
  let targetKind := normalizeTargetKind target.targetKind
  let warm := Gateway.modelIsWarm target job.modelKey (l.models job.modelKey)
  { job := admittedRecord cfg job target.targetId admission nowMs
    modelIsWarm := warm
    cpuSingleSlotOverride := Gateway.cpuSingleSlotOverride targetKind l.usage
      admission.profile.tokenCost (baseTokens target)
    cpuColdStartRamOverride := decide (targetKind = .cpu) &&
      Gateway.cpuColdStartRamOverride cfg job.workloadClass target l.usage admission.profile warm }

/-- The load once a job was admitted. -/
def Load.add (l : Load) (g : Grant) : Load where
  usage := fun field => l.usage field + g.job.share field
  models := Function.update l.models g.job.modelKey (l.models g.job.modelKey + 1)
  active := g :: l.active

/-- The load once a job was released and the others stay. -/
def Load.release (l : Load) (g : Grant) (others : List Grant) : Load where
  usage := l.usage.less g.job
  models := lessModel l.models g.job
  active := others

/-- A step of the load under the lock of the target: a job that the evaluation admits, or the
release of an active job. What is asked of the one and of the other is a parameter. -/
inductive Load.Step (cfg : Settings) (admissible : Load → Job → Target → Prop)
    (releasable : Load → Grant → List Grant → Prop) : Load → Load → Prop
  /-- A job is admitted. -/
  | add {l : Load} (job : Job) (target : Target) (admission : Admission) (nowMs : ℕ)
      (hjob : admissible l job target) (heval : l.evaluate cfg job target = some admission) :
      Step cfg admissible releasable l (l.add (l.grant cfg job target admission nowMs))
  /-- An active job is released. -/
  | release {l : Load} (g : Grant) (before after : List Grant)
      (hactive : l.active = before ++ g :: after) (hg : releasable l g (before ++ after)) :
      Step cfg admissible releasable l (l.release g (before ++ after))

/-- The load is reached from an idle target by such steps. -/
def Load.Reachable (cfg : Settings) (admissible : Load → Job → Target → Prop)
    (releasable : Load → Grant → List Grant → Prop) (l : Load) : Prop :=
  Relation.ReflTransGen (Load.Step cfg admissible releasable) Load.idle l

/-! ### The load is that of the store -/

/-- The load is that of a target in the store. -/
def Load.Shows (l : Load) (s : Redis) (targetId : TargetId) : Prop :=
  l.usage = s.usage targetId ∧ l.models = s.models targetId

variable {l : Load} {s : Redis} {cfg : Settings} {targetId : TargetId}

theorem Load.shows_admission {target : Target} (h : l.Shows s target.targetId) (job : Job) :
    s.admission cfg job target = l.evaluate cfg job target := by
  rw [Redis.admission_eq, Load.evaluate, h.1, h.2]

/-- **An admission moves the counters of the target** as it moves the load. -/
theorem Load.shows_admitted {target : Target} (h : l.Shows s target.targetId) (job : Job)
    (admission : Admission) :
    (l.add (l.grant cfg job target admission s.clockMs)).Shows
      (s.admitted cfg job target.targetId admission) target.targetId := by
  constructor
  · rw [Redis.usage_admitted, Redis.addShare, Load.add, h.1]
    dsimp only
    rw [Function.update_self]
    funext field
    rw [one_mul, Load.grant]
  · rw [Redis.models_admitted, Redis.hincrbyModel, Load.add, h.2]
    dsimp only
    rw [Function.update_self]
    rfl

/-- **A release moves the counters of the target** as it moves the load. -/
theorem Load.shows_release (h : l.Shows s targetId) {g : Grant}
    (hholder : g.job.holder = some targetId) (others : List Grant) :
    (l.release g others).Shows (s.release g.job) targetId := by
  rw [Redis.release, hholder, Load.release]
  constructor
  · dsimp only
    rw [Function.update_self, h.1]
  · dsimp only
    rw [Function.update_self, h.2]

/-! ### Every counter is a total -/

/-- What the jobs took of a field of the usage hash. -/
def reservedSum (field : UsageField) (active : List Grant) : ℤ :=
  (active.map fun g => g.job.share field).sum

theorem reservedSum_cons (field : UsageField) (g : Grant) (active : List Grant) :
    reservedSum field (g :: active) = g.job.share field + reservedSum field active := by
  rw [reservedSum, List.map_cons, List.sum_cons, reservedSum]

theorem reservedSum_append (field : UsageField) (before after : List Grant) :
    reservedSum field (before ++ after) = reservedSum field before + reservedSum field after := by
  rw [reservedSum, List.map_append, List.sum_append, reservedSum, reservedSum]

theorem reservedSum_nonneg (field : UsageField) (active : List Grant) :
    0 ≤ reservedSum field active := by
  induction active with
  | nil => exact le_rfl
  | cons g active ih =>
    rw [reservedSum_cons]
    exact add_nonneg (g.job.share_nonneg field) ih

/-- What is taken without one of the jobs. -/
theorem reservedSum_split (field : UsageField) (before : List Grant) (g : Grant)
    (after : List Grant) :
    reservedSum field (before ++ g :: after) =
      g.job.share field + reservedSum field (before ++ after) := by
  rw [reservedSum_append, reservedSum_cons, reservedSum_append]
  omega

/-- How many of the jobs are of a model. -/
def modelCount (modelKey : String) (active : List Grant) : ℕ :=
  active.countP fun g => decide (g.job.modelKey = modelKey)

theorem modelCount_split (modelKey : String) (before : List Grant) (g : Grant)
    (after : List Grant) :
    modelCount modelKey (before ++ g :: after) =
      (if g.job.modelKey = modelKey then 1 else 0) + modelCount modelKey (before ++ after) := by
  simp only [modelCount, List.countP_append, List.countP_cons, decide_eq_true_eq]
  omega

/-- **Every counter is the total of what the active jobs took of it.** -/
structure Load.Balanced (l : Load) : Prop where
  usage : ∀ field, l.usage field = reservedSum field l.active
  models : ∀ modelKey, modelKey ≠ "" → l.models modelKey = modelCount modelKey l.active

theorem Load.balanced_idle : Load.idle.Balanced := ⟨fun _ => rfl, fun _ _ => rfl⟩

theorem Load.Balanced.add (h : l.Balanced) (g : Grant) : (l.add g).Balanced := by
  constructor
  · intro field
    rw [Load.add, reservedSum_cons, ← h.usage]
    exact Int.add_comm _ _
  · intro modelKey hne
    have hcount := modelCount_split modelKey [] g l.active
    rw [List.nil_append, List.nil_append] at hcount
    rw [Load.add, hcount]
    dsimp only
    by_cases heq : g.job.modelKey = modelKey
    · rw [← heq] at hne ⊢
      rw [Function.update_self, h.models _ hne, if_pos rfl]
      omega
    · rw [Function.update_of_ne (Ne.symm heq), h.models _ hne, if_neg heq, Nat.zero_add]

/-- No counter falls below zero, so a release takes off what the job took. -/
theorem Load.Balanced.release (h : l.Balanced) {g : Grant} {before after : List Grant}
    (hactive : l.active = before ++ g :: after) :
    (l.release g (before ++ after)).Balanced := by
  constructor
  · intro field
    have hsplit := reservedSum_split field before g after
    have hrest := reservedSum_nonneg field (before ++ after)
    have husage := h.usage field
    rw [hactive] at husage
    change max 0 (l.usage field - g.job.share field) = reservedSum field (before ++ after)
    omega
  · intro modelKey hne
    have hsplit := modelCount_split modelKey before g after
    have hmodels := h.models modelKey hne
    rw [hactive] at hmodels
    change lessModel l.models g.job modelKey = modelCount modelKey (before ++ after)
    rw [lessModel]
    by_cases hempty : g.job.modelKey = ""
    · rw [if_pos hempty, hmodels, hsplit, if_neg (by rw [hempty]; exact Ne.symm hne),
        Nat.zero_add]
    · rw [if_neg hempty]
      by_cases heq : g.job.modelKey = modelKey
      · rw [if_pos heq] at hsplit
        rw [heq, Function.update_self]
        omega
      · rw [if_neg heq] at hsplit
        rw [Function.update_of_ne (Ne.symm heq)]
        omega

/-- **Every load that is reached is balanced.** -/
theorem Load.Reachable.balanced {admissible : Load → Job → Target → Prop}
    {releasable : Load → Grant → List Grant → Prop}
    (h : Load.Reachable cfg admissible releasable l) : l.Balanced := by
  induction h with
  | refl => exact Load.balanced_idle
  | tail _ hstep ih =>
    cases hstep with
    | add job target admission nowMs => exact ih.add _
    | release g before after hactive => exact ih.release hactive

/-- As many jobs are active as are counted. -/
theorem Load.Balanced.activeJobs (h : l.Balanced) : l.usage .activeJobs = l.active.length := by
  rw [h.usage]
  induction l.active with
  | nil => rfl
  | cons g active ih =>
    rw [reservedSum_cons, ih, List.length_cons]
    change (1 : ℤ) + _ = _
    omega

theorem Load.Balanced.nonneg (h : l.Balanced) (field : UsageField) : 0 ≤ l.usage field := by
  rw [h.usage]
  exact reservedSum_nonneg field l.active

/-! ### What an admission says -/

/-- The memory that a report leaves to a target of a kind. -/
def baseFreeMb (cfg : Settings) (target : Target) : TargetKind → ℕ
  | .gpu => target.vramFreeMb - cfg.gpuSafetyMarginMb - cfg.gpuFragmentationMarginMb
  | .cpu => target.ramFreeMb - cfg.ramSafetyMarginMb

/-- The field of the usage hash that counts the memory of a kind of target. -/
def memoryField : TargetKind → UsageField
  | .gpu => .vram
  | .cpu => .ram

/-- **What an admission says**: the kinds agree, the token checks are passed, the job takes what
its profile costs and the memory it needs, and this memory is there unless a CPU target is cold. -/
structure Admitted (cfg : Settings) (job : Job) (target : Target) (usage : Usage) (warm : Bool)
    (admission : Admission) : Prop where
  kind : job.targetKind = normalizeTargetKind target.targetKind
  profile : admission.profile = jobProfile cfg job (normalizeTargetKind target.targetKind)
  reservedTokens : admission.reservedTokens = admission.profile.tokenCost
  tokens : tokensAdmit cfg job.workloadClass usage admission.profile.tokenCost
    (effectiveTokens (normalizeTargetKind target.targetKind) usage admission.profile.tokenCost
      (baseTokens target)) = true
  reserved : ∀ nowMs, (admittedRecord cfg job target.targetId admission nowMs).share
    (memoryField (normalizeTargetKind target.targetKind)) = requiredMb admission.profile warm
  memory : (requiredMb admission.profile warm : ℤ) ≤
      baseFreeMb cfg target (normalizeTargetKind target.targetKind) -
        usage (memoryField (normalizeTargetKind target.targetKind)) ∨
    (normalizeTargetKind target.targetKind = .cpu ∧ cpuColdStartRamOverride cfg
      job.workloadClass target usage admission.profile warm = true)

theorem gpuAdmission_eq_some {target : Target} {usage : Usage} {profile : Profile} {warm : Bool}
    {admission : Admission} (h : gpuAdmission cfg target usage profile warm = some admission) :
    admission = ⟨profile.tokenCost, requiredMb profile warm, 0, profile⟩ ∧
      (requiredMb profile warm : ℤ) ≤ baseFreeMb cfg target .gpu - usage .vram := by
  rw [gpuAdmission] at h
  obtain ⟨hroom, hsome⟩ := Option.ite_none_left_eq_some.mp h
  rw [not_or] at hroom
  exact ⟨(Option.some.inj hsome).symm, not_lt.mp hroom.2⟩

theorem cpuAdmission_eq_some {workloadClass : Workload} {target : Target} {usage : Usage}
    {profile : Profile} {warm : Bool} {admission : Admission}
    (h : cpuAdmission cfg workloadClass target usage profile warm = some admission) :
    admission = ⟨profile.tokenCost, 0, requiredMb profile warm, profile⟩ ∧
      ((requiredMb profile warm : ℤ) ≤ baseFreeMb cfg target .cpu - usage .ram ∨
        cpuColdStartRamOverride cfg workloadClass target usage profile warm = true) := by
  rw [cpuAdmission] at h
  obtain ⟨-, h⟩ := Option.ite_none_left_eq_some.mp h
  obtain ⟨-, h⟩ := Option.ite_none_left_eq_some.mp h
  obtain ⟨hroom, hsome⟩ := Option.ite_none_left_eq_some.mp h
  refine ⟨(Option.some.inj hsome).symm, ?_⟩
  rw [not_and_or, not_not] at hroom
  rcases hroom with hroom | hcold
  · exact .inl (not_lt.mp hroom)
  · exact .inr (decide_eq_true hcold)

theorem evaluateTarget_eq_some {job : Job} {target : Target} {usage : Usage} {modelRef : ℤ}
    {admission : Admission}
    (h : evaluateTarget cfg job target usage modelRef = some admission) :
    Admitted cfg job target usage (modelIsWarm target job.modelKey modelRef) admission := by
  rw [evaluateTarget] at h
  obtain ⟨hkind, h⟩ := Option.ite_none_left_eq_some.mp h
  obtain ⟨htokens, h⟩ := Option.ite_none_left_eq_some.mp h
  rw [not_not] at hkind
  rw [Bool.not_eq_false] at htokens
  cases htarget : normalizeTargetKind target.targetKind with
  | gpu =>
    rw [htarget] at h hkind htokens
    obtain ⟨rfl, hroom⟩ := gpuAdmission_eq_some h
    constructor
    · rw [htarget, hkind]
    · rw [htarget]
    · rfl
    · rwa [htarget]
    · rw [htarget]
      exact fun _ => rfl
    · rw [htarget]
      exact .inl hroom
  | cpu =>
    rw [htarget] at h hkind htokens
    obtain ⟨rfl, hroom⟩ := cpuAdmission_eq_some h
    constructor
    · rw [htarget, hkind]
    · rw [htarget]
    · rfl
    · rwa [htarget]
    · rw [htarget]
      exact fun _ => rfl
    · rw [htarget]
      rcases hroom with hroom | hcold
      · exact .inl hroom
      · exact .inr ⟨rfl, hcold⟩

end Gateway

end AiAgent

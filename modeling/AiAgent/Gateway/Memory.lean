import AiAgent.Gateway.Reserve
import Mathlib.Algebra.Order.BigOperators.Group.Finset

/-!
# The memory between two reports

Between two reports a target has to have the memory for what is active on it: the cache and the
overhead of every job, and the weights of every model once, unless the report already counts them
(`AiAgent.Gateway.committedMb`).

An admission charges the weights to the first job of a model; later ones find the model warm. As
long as that first job is not released before the others the weights stay charged
(`AiAgent.Gateway.Load.Charged`), and the memory suffices
(`AiAgent.Gateway.committedMb_le_baseFreeMb`). Nothing sees to this: when the first job ends its
weights are given back though the model still runs, and the memory is given away twice
(`AiAgent.Gateway.not_committedMb_le_baseFreeMb`).
-/

namespace AiAgent

namespace Gateway

/-! ### What is committed -/

/-- The memory of a job besides the weights of its model. -/
def cacheMb (job : Job) : ℕ :=
  job.profile.elim 0 fun profile => profile.kvCacheMb + profile.runtimeOverheadMb

/-- The weights of a model of a catalog on a kind of target. -/
def weightsMb (cfg : Settings) (catalog : String → ModelInfo) (targetKind : TargetKind)
    (modelKey : String) : ℕ :=
  (buildModelProfile cfg (catalog modelKey) 0 0 0 targetKind).weightsMb

/-- The models that have an active job and are not in memory according to the report. -/
def newModels (target : Target) (active : List Grant) : Finset String :=
  (active.map fun g => g.job.modelKey).toFinset.filter fun modelKey =>
    modelKey ∉ target.loadedModels ∧ modelKey ∉ target.pinnedModels

/-- The memory that the active jobs need on top of the report. -/
def committedMb (cfg : Settings) (catalog : String → ModelInfo) (target : Target)
    (active : List Grant) : ℕ :=
  (active.map fun g => cacheMb g.job).sum +
    ∑ modelKey ∈ newModels target active,
      weightsMb cfg catalog (normalizeTargetKind target.targetKind) modelKey

/-- A job of a model of the catalog on the target as it was reported, not admitted as an exception
for a cold CPU target. -/
def OnReport (cfg : Settings) (catalog : String → ModelInfo) (report : Target) (l : Load)
    (job : Job) (target : Target) : Prop :=
  target = report ∧ job.modelKey ≠ "" ∧ job.modelInfo = catalog job.modelKey ∧
    ∀ admission, l.evaluate cfg job target = some admission →
      (l.grant cfg job target admission 0).cpuColdStartRamOverride = false

/-- The job to which the weights were charged is released only once no other job of its model is
active. -/
def LastOfModel (_ : Load) (g : Grant) (others : List Grant) : Prop :=
  g.modelIsWarm = false → ∀ f ∈ others, f.job.modelKey ≠ g.job.modelKey

/-! ### The weights stay charged -/

variable {cfg : Settings} {catalog : String → ModelInfo} {report : Target} {l : Load}

/-- The weights that were charged to a job. -/
def chargedMb (cfg : Settings) (catalog : String → ModelInfo) (targetKind : TargetKind)
    (g : Grant) : ℕ :=
  if g.modelIsWarm then 0 else weightsMb cfg catalog targetKind g.job.modelKey

/-- Every model is charged to one of its jobs, unless the report counts it; the jobs hold what they
were charged; and this is within the memory of the report. -/
structure Load.Charged (cfg : Settings) (catalog : String → ModelInfo) (report : Target)
    (l : Load) :
    Prop where
  balanced : l.Balanced
  named : ∀ g ∈ l.active, g.job.modelKey ≠ ""
  charged : ∀ g ∈ l.active, g.job.modelKey ∉ report.loadedModels →
    g.job.modelKey ∉ report.pinnedModels →
    ∃ f ∈ l.active, f.job.modelKey = g.job.modelKey ∧ f.modelIsWarm = false
  holds : ∀ g ∈ l.active,
    g.job.share (memoryField (normalizeTargetKind report.targetKind)) = cacheMb g.job +
      chargedMb cfg catalog (normalizeTargetKind report.targetKind) g
  within : l.usage (memoryField (normalizeTargetKind report.targetKind)) ≤
    baseFreeMb cfg report (normalizeTargetKind report.targetKind)

/-- Summed over distinct models the weights are not more than over all jobs they are charged to. -/
theorem sum_weights_le (weights : String → ℕ) (charged : List String) :
    ∑ modelKey ∈ charged.toFinset, weights modelKey ≤ (charged.map weights).sum := by
  induction charged with
  | nil => exact le_rfl
  | cons modelKey charged ih =>
    rw [List.toFinset_cons, List.map_cons, List.sum_cons]
    by_cases hmem : modelKey ∈ charged.toFinset
    · rw [Finset.insert_eq_of_mem hmem]
      exact ih.trans (Nat.le_add_left _ _)
    · rw [Finset.sum_insert hmem]
      exact Nat.add_le_add_left ih _

theorem sum_charged (targetKind : TargetKind) (active : List Grant) :
    (((active.filter fun g => !g.modelIsWarm).map fun g => g.job.modelKey).map
        (weightsMb cfg catalog targetKind)).sum =
      (active.map (chargedMb cfg catalog targetKind)).sum := by
  induction active with
  | nil => rfl
  | cons g active ih =>
    rw [List.map_cons, List.sum_cons, ← ih, chargedMb]
    cases hwarm : g.modelIsWarm with
    | true => rw [List.filter_cons_of_neg (by simp [hwarm]), if_pos rfl, Nat.zero_add]
    | false =>
      rw [List.filter_cons_of_pos (by simp [hwarm]), List.map_cons, List.map_cons, List.sum_cons]
      rfl

/-- **What is charged covers what is committed.** -/
theorem Load.Charged.committedMb_le (h : l.Charged cfg catalog report) :
    committedMb cfg catalog report l.active ≤
      baseFreeMb cfg report (normalizeTargetKind report.targetKind) := by
  have hcovered : newModels report l.active ⊆
      ((l.active.filter fun g => !g.modelIsWarm).map fun g => g.job.modelKey).toFinset := by
    intro modelKey hmem
    obtain ⟨hactive, hloaded, hpinned⟩ := Finset.mem_filter.mp hmem
    obtain ⟨g, hg, rfl⟩ := List.mem_map.mp (List.mem_toFinset.mp hactive)
    obtain ⟨f, hf, hkey, hcold⟩ := h.charged g hg hloaded hpinned
    refine List.mem_toFinset.mpr (List.mem_map.mpr ⟨f, List.mem_filter.mpr ⟨hf, ?_⟩, hkey⟩)
    rw [hcold]
    rfl
  have hweights := (Finset.sum_le_sum_of_subset hcovered).trans (sum_weights_le
    (weightsMb cfg catalog (normalizeTargetKind report.targetKind)) _)
  rw [sum_charged] at hweights
  -- The jobs hold their caches and what was charged to them.
  have hheld : ∀ active : List Grant, (∀ g ∈ active,
      g.job.share (memoryField (normalizeTargetKind report.targetKind)) = cacheMb g.job +
        chargedMb cfg catalog (normalizeTargetKind report.targetKind) g) →
      reservedSum (memoryField (normalizeTargetKind report.targetKind)) active =
        ((active.map fun g => cacheMb g.job).sum + (active.map
          (chargedMb cfg catalog (normalizeTargetKind report.targetKind))).sum : ℕ) := by
    intro active
    induction active with
    | nil => exact fun _ => rfl
    | cons g active ih =>
      intro hholds
      rw [reservedSum_cons, hholds g List.mem_cons_self,
        ih fun f hf => hholds f (List.mem_cons_of_mem g hf)]
      simp only [List.map_cons, List.sum_cons]
      omega
  have hwithin := h.within
  rw [h.balanced.usage, hheld l.active h.holds] at hwithin
  rw [committedMb]
  omega

/-! ### Admissions and releases -/

theorem Load.charged_idle : Load.idle.Charged cfg catalog report where
  balanced := Load.balanced_idle
  named := fun _ hg => absurd hg List.not_mem_nil
  charged := fun _ hg => absurd hg List.not_mem_nil
  holds := fun _ hg => absurd hg List.not_mem_nil
  within := Int.natCast_nonneg _

/-- A model that is warm though the report does not count it has an active job. -/
theorem exists_of_modelIsWarm (h : l.Balanced) {modelKey : String} (hne : modelKey ≠ "")
    (hwarm : modelIsWarm report modelKey (l.models modelKey) = true)
    (hloaded : modelKey ∉ report.loadedModels) (hpinned : modelKey ∉ report.pinnedModels) :
    ∃ f ∈ l.active, f.job.modelKey = modelKey := by
  rw [modelIsWarm, decide_eq_false hloaded, decide_eq_false hpinned, Bool.false_or, Bool.false_or,
    decide_eq_true_eq, h.models modelKey hne] at hwarm
  have hpos : 0 < modelCount modelKey l.active := by omega
  obtain ⟨f, hf, hkey⟩ := List.countP_pos_iff.mp hpos
  exact ⟨f, hf, of_decide_eq_true hkey⟩

/-- An admission charges the weights where no active job has them. -/
theorem Load.Charged.add (h : l.Charged cfg catalog report) {job : Job} {target : Target}
    (hjob : OnReport cfg catalog report l job target) {admission : Admission}
    (heval : l.evaluate cfg job target = some admission) (nowMs : ℕ) :
    (l.add (l.grant cfg job target admission nowMs)).Charged cfg catalog report := by
  obtain ⟨rfl, hname, hinfo, hcold⟩ := hjob
  have hadmitted := evaluateTarget_eq_some heval
  constructor
  · exact h.balanced.add _
  · intro g hg
    rcases List.mem_cons.mp hg with rfl | hg
    · exact hname
    · exact h.named g hg
  · intro g hg hloaded hpinned
    rcases List.mem_cons.mp hg with rfl | hg
    · cases hwarm : modelIsWarm target job.modelKey (l.models job.modelKey) with
      | false => exact ⟨_, List.mem_cons_self, rfl, hwarm⟩
      -- A warm model that is not on the report was brought by a job, which was charged for it.
      | true =>
        obtain ⟨f, hf, hkey⟩ := exists_of_modelIsWarm h.balanced hname hwarm hloaded hpinned
        obtain ⟨e, he, hekey, hecold⟩ := h.charged f hf (by rwa [hkey]) (by rwa [hkey])
        exact ⟨e, List.mem_cons_of_mem _ he, hekey.trans hkey, hecold⟩
    · obtain ⟨e, he, hekey, hecold⟩ := h.charged g hg hloaded hpinned
      exact ⟨e, List.mem_cons_of_mem _ he, hekey, hecold⟩
  · intro g hg
    rcases List.mem_cons.mp hg with rfl | hg
    · have hweights : admission.profile.weightsMb =
          weightsMb cfg catalog (normalizeTargetKind target.targetKind) job.modelKey := by
        rw [hadmitted.profile, jobProfile, hinfo]
        rfl
      rw [Load.grant, hadmitted.reserved, requiredMb, hweights, chargedMb]
      exact Int.natCast_add _ _
    · exact h.holds g hg
  -- The override for a cold processor is shut out, so what is asked for is free.
  · have hwithin : (requiredMb admission.profile
        (modelIsWarm target job.modelKey (l.models job.modelKey)) : ℤ) ≤
        baseFreeMb cfg target (normalizeTargetKind target.targetKind) -
          l.usage (memoryField (normalizeTargetKind target.targetKind)) := by
      rcases hadmitted.memory with hroom | ⟨hkind, hoverride⟩
      · exact hroom
      · have hnot := hcold admission heval
        rw [Load.grant, hkind] at hnot
        dsimp only at hnot
        rw [hoverride] at hnot
        cases hnot
    rw [Load.add]
    dsimp only
    rw [Load.grant, hadmitted.reserved]
    omega

/-- The release of the last job of a model, or of one that found it warm, keeps the weights
charged. -/
theorem Load.Charged.release (h : l.Charged cfg catalog report) {g : Grant}
    {before after : List Grant} (hactive : l.active = before ++ g :: after)
    (hlast : LastOfModel l g (before ++ after)) :
    (l.release g (before ++ after)).Charged cfg catalog report := by
  have hbalanced := h.balanced.release hactive
  have hsub : ∀ f ∈ before ++ after, f ∈ l.active := by
    intro f hf
    rw [hactive]
    rcases List.mem_append.mp hf with hf | hf
    · exact List.mem_append_left _ hf
    · exact List.mem_append_right _ (List.mem_cons_of_mem g hf)
  constructor
  · exact hbalanced
  · exact fun f hf => h.named f (hsub f hf)
  · intro f hf hloaded hpinned
    obtain ⟨e, he, hkey, hcold⟩ := h.charged f (hsub f hf) hloaded hpinned
    rw [hactive] at he
    rcases List.mem_append.mp he with he | he
    · exact ⟨e, List.mem_append_left _ he, hkey, hcold⟩
    · rcases List.mem_cons.mp he with rfl | he
      · exact absurd hkey.symm (hlast hcold f hf)
      · exact ⟨e, List.mem_append_right _ he, hkey, hcold⟩
  · exact fun f hf => h.holds f (hsub f hf)
  · have husage := h.balanced.usage (memoryField (normalizeTargetKind report.targetKind))
    have hshare := g.job.share_nonneg (memoryField (normalizeTargetKind report.targetKind))
    have hwithin := h.within
    rw [hactive, reservedSum_split] at husage
    rw [hbalanced.usage]
    change reservedSum _ (before ++ after) ≤ _
    omega

/-- **The memory is not over-committed** as long as no job to which the weights of a model were
charged is released before the other jobs of its model. -/
theorem committedMb_le_baseFreeMb
    (h : Load.Reachable cfg (OnReport cfg catalog report) LastOfModel l) :
    committedMb cfg catalog report l.active ≤
      baseFreeMb cfg report (normalizeTargetKind report.targetKind) := by
  have hcharged : l.Charged cfg catalog report := by
    induction h with
    | refl => exact Load.charged_idle
    | tail _ hstep ih =>
      cases hstep with
      | add job target admission nowMs hjob heval => exact ih.add hjob heval nowMs
      | release g before after hactive hlast => exact ih.release hactive hlast
  exact hcharged.committedMb_le

/-! ### Weights that are given back too early -/

/-- The load once the job is admitted, if it is. -/
def Load.tryAdmit (l : Load) (cfg : Settings) (job : Job) (target : Target) : Load :=
  (l.evaluate cfg job target).elim l fun admission => l.add (l.grant cfg job target admission 0)

theorem Load.step_tryAdmit {admissible : Load → Job → Target → Prop}
    {releasable : Load → Grant → List Grant → Prop} {job : Job} {target : Target}
    (hjob : admissible l job target) (h : (l.evaluate cfg job target).isSome = true) :
    Load.Step cfg admissible releasable l (l.tryAdmit cfg job target) := by
  obtain ⟨admission, hadmission⟩ := Option.isSome_iff_exists.mp h
  rw [Load.tryAdmit, hadmission]
  exact .add job target admission 0 hjob hadmission

/-- The load once the oldest job is released. -/
def Load.releaseOldest (l : Load) : Load :=
  l.active.getLast?.elim l fun g => l.release g l.active.dropLast

theorem Load.step_releaseOldest {admissible : Load → Job → Target → Prop}
    {releasable : Load → Grant → List Grant → Prop} (hne : l.active ≠ [])
    (h : ∀ g others, l.active = others ++ [g] → releasable l g others) :
    Load.Step cfg admissible releasable l l.releaseOldest := by
  obtain ⟨others, g, hactive⟩ := (List.eq_nil_or_concat l.active).resolve_left hne
  rw [List.concat_eq_append] at hactive
  have hstep : Load.Step cfg admissible releasable l (l.release g (others ++ [])) :=
    .release g others [] hactive (by rw [List.append_nil]; exact h g others hactive)
  rw [Load.releaseOldest, hactive, List.getLast?_append, List.dropLast_concat]
  rwa [List.append_nil] at hstep

/-- A target on which two jobs of one model fit. -/
def narrowTarget : Target := { smallTarget with ramFreeMb := 6496 }

/-- A job of the given model. -/
def jobOf (modelKey : String) : Job :=
  newJob smallSettings { smallRequest with modelKey := modelKey, modelName := modelKey } 2
    ⟨modelKey, 0⟩ .cpu 0

theorem onReport_jobOf {modelKey : String} (hne : modelKey ≠ "")
    (h : ((l.evaluate smallSettings (jobOf modelKey) narrowTarget).all fun admission =>
      !(l.grant smallSettings (jobOf modelKey) narrowTarget admission 0).cpuColdStartRamOverride) =
        true) :
    OnReport smallSettings (fun modelKey => ⟨modelKey, 0⟩) narrowTarget l (jobOf modelKey)
      narrowTarget := by
  refine ⟨rfl, hne, rfl, fun admission hadmission => ?_⟩
  rw [hadmission] at h
  simpa using h

/-- Two jobs of one model on the narrow target. -/
def pairLoad : Load :=
  (Load.idle.tryAdmit smallSettings (jobOf "m") narrowTarget).tryAdmit smallSettings (jobOf "m")
    narrowTarget

theorem reachable_pairLoad (releasable : Load → Grant → List Grant → Prop) :
    Load.Reachable smallSettings
      (OnReport smallSettings (fun modelKey => ⟨modelKey, 0⟩) narrowTarget) releasable
        pairLoad := by
  refine .tail (.single (Load.step_tryAdmit (onReport_jobOf (by decide) ?_) ?_))
    (Load.step_tryAdmit (onReport_jobOf (by decide) ?_) ?_)
  all_goals decide +kernel

/-- Two jobs of one model are within the memory. -/
theorem committedMb_le_baseFreeMb_pair :
    committedMb smallSettings (fun modelKey => ⟨modelKey, 0⟩) narrowTarget pairLoad.active ≤
      baseFreeMb smallSettings narrowTarget (normalizeTargetKind narrowTarget.targetKind) :=
  committedMb_le_baseFreeMb (reachable_pairLoad LastOfModel)

/-- The load once the first job of the model has ended and a job of another model was admitted. -/
def crossedLoad : Load :=
  pairLoad.releaseOldest.tryAdmit smallSettings (jobOf "n") narrowTarget

/-- **The memory is over-committed** once the first job of a model ends before the second. -/
theorem not_committedMb_le_baseFreeMb : ¬ ∀ (cfg : Settings) (catalog : String → ModelInfo)
    (report : Target) (l : Load), Load.Reachable cfg (OnReport cfg catalog report) Anytime l →
      committedMb cfg catalog report l.active ≤
        baseFreeMb cfg report (normalizeTargetKind report.targetKind) := by
  intro h
  have hreleased : Load.Reachable smallSettings
      (OnReport smallSettings (fun modelKey => ⟨modelKey, 0⟩) narrowTarget) Anytime
      pairLoad.releaseOldest :=
    (reachable_pairLoad Anytime).tail
      (Load.step_releaseOldest (by decide +kernel) fun _ _ _ => trivial)
  have hcrossed : Load.Reachable smallSettings
      (OnReport smallSettings (fun modelKey => ⟨modelKey, 0⟩) narrowTarget) Anytime crossedLoad :=
    hreleased.tail (Load.step_tryAdmit
      (onReport_jobOf (show "n" ≠ "" by decide) (by decide +kernel)) (by decide +kernel))
  exact absurd (h _ _ _ _ hcrossed) (by decide +kernel)

end Gateway

end AiAgent

import AiAgent.Gateway.Backlog
import AiAgent.Gateway.Probe
import Mathlib.Data.Prod.Lex
import Mathlib.Data.String.Basic

/-!
# The scheduler's choice of a target

`schedule_once` goes through the candidates and offers each of them to one target, the one that
`pick_target` ranks first: a warm target before a cold one, then the one with fewer active jobs,
then the one with more free memory. Neither the kind of the target nor what is left of it is looked
at, and a job that the first target refuses is offered to no other.

So a round admits something where some candidate fits the target that ranks first for it
(`AiAgent.Gateway.scheduleOnce_pos_iff`), which is less than fitting some target: in a cluster with
an idle GPU target a job for the CPU is offered to the GPU in every round
(`AiAgent.Gateway.not_workConserving_gpuFirst`).
-/

namespace AiAgent

namespace Gateway

open Command

/-! ### The choice -/

/-- The key `pick_target` sorts by: warm first, then active jobs, free memory and id. -/
abbrev Score := ℕ ×ₗ ℤ ×ₗ ℤ ×ₗ TargetId

/-- `score`. -/
def targetScore (job : Job) (target : Target) (usage : Usage) : Score :=
  let warm := decide (job.modelKey ∈ target.loadedModels) ||
    decide (job.modelKey ∈ target.pinnedModels)
  let freeScore : ℤ := if target.vramFreeMb ≠ 0 then target.vramFreeMb else target.ramFreeMb
  toLex (if warm then 0 else 1, toLex (usage .activeJobs, toLex (-freeScore, target.targetId)))

/-- A report in the dictionary of the targets: it takes the place of another with its id. -/
def putTarget (targets : List Target) (target : Target) : List Target :=
  if targets.any fun known => decide (known.targetId = target.targetId) then
    targets.map fun known => if known.targetId = target.targetId then target else known
  else targets ++ [target]

/-- `{target["target_id"]: target for target in ..}`. -/
def targetsById (targets : List Target) : List Target := targets.foldl putTarget []

/-- `eligible`: the targets that a worker of the job's pool serves, with their scores. -/
def eligibleTargets (job : Job) (workers : List Worker) :
    List Target → Gw (List (Score × Target))
  | [] => return []
  | target :: targets => do
    if isServed workers job.workerPool target = false then eligibleTargets job workers targets
    else
      let usage ← ask (.hgetallUsage target.targetId)
      let rest ← eligibleTargets job workers targets
      return (targetScore job target usage, target) :: rest

/-- `pick_target`. -/
def pickTarget (job : Job) (targets : List Target) (workers : List Worker) :
    Gw (Option Target) := do
  let eligible ← eligibleTargets job workers targets
  return (eligible.insertionSort fun a b => a.1 ≤ b.1).head?.map Prod.snd

/-- The loop of `schedule_once`; the answer is `admitted`. -/
def scheduleEach (cfg : Settings) (targets : List Target) (workers : List Worker) :
    List (Queue × Job) → Gw ℕ
  | [] => return 0
  | candidate :: candidates => do
    match ← pickTarget candidate.2 targets workers with
    | none => scheduleEach cfg targets workers candidates
    | some target =>
      if ← tryAdmitJob cfg candidate.2.id candidate.1 target then
        return (← scheduleEach cfg targets workers candidates) + 1
      else scheduleEach cfg targets workers candidates

/-- `schedule_once`. -/
def scheduleOnce (cfg : Settings) (scanDepth : ℕ) : Gw ℕ := do
  let workers ← ask .workers
  if workers.isEmpty then return 0
  else
    let targets ← ask .targets
    if (targetsById targets).isEmpty then return 0
    else
      let candidates ← listPendingCandidates scanDepth
      scheduleEach cfg (targetsById targets) workers candidates

/-! ### The target that ranks first -/

/-- Every id is in the dictionary once. -/
theorem nodup_targetsById (targets : List Target) :
    ((targetsById targets).map Target.targetId).Nodup := by
  have hput : ∀ known target, (known.map Target.targetId).Nodup →
      ((putTarget known target).map Target.targetId).Nodup := by
    intro known target h
    rw [putTarget]
    by_cases hany : known.any fun t => decide (t.targetId = target.targetId)
    · have hids : (known.map fun t => if t.targetId = target.targetId then target else t).map
          Target.targetId = known.map Target.targetId := by
        rw [List.map_map]
        refine List.map_congr_left fun t _ => ?_
        by_cases heq : t.targetId = target.targetId
        · rw [Function.comp_apply, if_pos heq, heq]
        · rw [Function.comp_apply, if_neg heq]
      rw [if_pos hany, hids]
      exact h
    · rw [if_neg hany, List.map_append]
      refine h.append (List.nodup_singleton _) fun id hid hlast => hany ?_
      obtain ⟨t, ht, rfl⟩ := List.mem_map.mp hid
      exact List.any_eq_true.mpr ⟨t, ht, decide_eq_true (List.mem_singleton.mp hlast)⟩
  have hfold : ∀ known, (known.map Target.targetId).Nodup →
      ((targets.foldl putTarget known).map Target.targetId).Nodup := by
    induction targets with
    | nil => exact fun known h => h
    | cons target targets ih => exact fun known h => ih _ (hput known target h)
  exact hfold [] List.nodup_nil

/-- The head of a sorted list is an element that is below all others. -/
theorem head?_insertionSort_eq_some {α β : Type} [LinearOrder β] (key : α → β) {l : List α} {a : α}
    (h : (l.insertionSort fun a b => key a ≤ key b).head? = some a) :
    a ∈ l ∧ ∀ b ∈ l, key a ≤ key b := by
  have hsorted : (l.insertionSort fun a b => key a ≤ key b).Pairwise fun a b => key a ≤ key b := by
    have : Std.Total fun a b : α => key a ≤ key b := ⟨fun a b => le_total (key a) (key b)⟩
    have : IsTrans α fun a b => key a ≤ key b := ⟨fun a b c => le_trans⟩
    exact List.pairwise_insertionSort _ l
  obtain ⟨rest, hrest⟩ : ∃ rest, (l.insertionSort fun a b => key a ≤ key b) = a :: rest :=
    List.head?_eq_some_iff.mp h
  have hmem : ∀ b, b ∈ l ↔ b ∈ a :: rest := fun b => by
    rw [← hrest]
    exact (List.mem_insertionSort _).symm
  constructor
  · exact (hmem a).mpr List.mem_cons_self
  · intro b hb
    rcases List.mem_cons.mp ((hmem b).mp hb) with rfl | hin
    · exact le_rfl
    · rw [hrest] at hsorted
      exact List.rel_of_pairwise_cons hsorted hin

/-- The target is served for the job, and every other target of the dictionary that is has a
higher score. -/
structure Redis.RanksFirst (s : Redis) (job : Job) (target : Target) : Prop where
  /-- It is in the dictionary. -/
  mem : target ∈ targetsById s.targets
  /-- A worker of the pool serves it. -/
  served : isServed s.workers job.workerPool target = true
  /-- No other outranks it. -/
  first : ∀ other ∈ targetsById s.targets, isServed s.workers job.workerPool other = true →
    targetScore job target (s.usage target.targetId) ≤
      targetScore job other (s.usage other.targetId)

section Rank

variable {s : Redis} {job : Job}

theorem alone_eligibleTargets (workers : List Worker) (targets : List Target) :
    alone (eligibleTargets job workers targets) s =
      ((targets.filter (isServed workers job.workerPool)).map fun target =>
        (targetScore job target (s.usage target.targetId), target), s) := by
  induction targets with
  | nil => rfl
  | cons target targets ih =>
    rw [eligibleTargets]
    by_cases hserved : isServed workers job.workerPool target = true
    · rw [if_neg (by rw [hserved]; exact Bool.noConfusion), List.filter_cons_of_pos hserved,
        alone_bind, alone_hgetallUsage, alone_bind, ih]
      rfl
    · rw [if_pos (Bool.eq_false_of_not_eq_true hserved), List.filter_cons_of_neg hserved, ih]

/-- A target is found by its score among those of the dictionary. -/
theorem eq_of_score_eq {targets : List Target} (h : (targets.map Target.targetId).Nodup)
    {t t' : Target} (ht : t ∈ targets) (ht' : t' ∈ targets) {usage usage' : Usage}
    (heq : targetScore job t usage = targetScore job t' usage') : t = t' := by
  have hid : t.targetId = t'.targetId := congrArg (fun score : Score => score.2.2.2) heq
  exact List.inj_on_of_nodup_map h ht ht' hid

theorem Redis.RanksFirst.unique {t t' : Target} (h : s.RanksFirst job t)
    (h' : s.RanksFirst job t') : t = t' :=
  eq_of_score_eq (nodup_targetsById s.targets) h.mem h'.mem
    (le_antisymm (h.first t' h'.mem h'.served) (h'.first t h.mem h.served))

/-- What `pick_target` takes ranks first. -/
theorem ranksFirst_of_pickTarget {target : Target}
    (h : (alone (pickTarget job (targetsById s.targets) s.workers) s).1 = some target) :
    s.RanksFirst job target := by
  rw [pickTarget, alone_bind, alone_eligibleTargets] at h
  obtain ⟨⟨score, picked⟩, hhead, rfl⟩ := Option.map_eq_some_iff.mp h
  obtain ⟨hmem, hleast⟩ := head?_insertionSort_eq_some Prod.fst hhead
  obtain ⟨t, ht, heq⟩ := List.mem_map.mp hmem
  obtain ⟨rfl, rfl⟩ := Prod.mk.inj heq
  obtain ⟨hin, hserved⟩ := List.mem_filter.mp ht
  refine ⟨hin, hserved, fun other hother hserves => ?_⟩
  exact hleast (targetScore job other (s.usage other.targetId), other)
    (List.mem_map.mpr ⟨other, List.mem_filter.mpr ⟨hother, hserves⟩, rfl⟩)

/-- **`pick_target` takes the target that ranks first.** -/
theorem pickTarget_eq_some_iff (target : Target) :
    (alone (pickTarget job (targetsById s.targets) s.workers) s).1 = some target ↔
      s.RanksFirst job target := by
  constructor
  · exact ranksFirst_of_pickTarget
  · intro h
    -- Something is eligible, so something is taken, and only one target ranks first.
    rcases hpick : (alone (pickTarget job (targetsById s.targets) s.workers) s).1 with _ | picked
    · rw [pickTarget, alone_bind, alone_eligibleTargets] at hpick
      have hnone := List.head?_eq_none_iff.mp (Option.map_eq_none_iff.mp hpick)
      have hmem : (targetScore job target (s.usage target.targetId), target) ∈
          ((targetsById s.targets).filter (isServed s.workers job.workerPool)).map fun target =>
            (targetScore job target (s.usage target.targetId), target) :=
        List.mem_map.mpr ⟨target, List.mem_filter.mpr ⟨h.mem, h.served⟩, rfl⟩
      rw [← List.mem_insertionSort fun a b : Score × Target => a.1 ≤ b.1, hnone] at hmem
      exact absurd hmem List.not_mem_nil
    · rw [(ranksFirst_of_pickTarget hpick).unique h]

/-- The choice changes nothing. -/
theorem readOnly_pickTarget (targets : List Target) (workers : List Worker) :
    ReadOnly (pickTarget job targets workers) := fun s => by
  rw [pickTarget, alone_bind, alone_eligibleTargets]
  rfl

end Rank

/-! ### A round that has admitted nothing yet -/

/-- The store but for the target kinds of some jobs, which were downgraded. -/
structure Redis.Downgrades (s s' : Redis) : Prop where
  /-- The lists. -/
  queues : s'.queues = s.queues
  /-- The usage hashes. -/
  usage : s'.usage = s.usage
  /-- The reference counts. -/
  models : s'.models = s.models
  /-- The targets. -/
  targets : s'.targets = s.targets
  /-- The workers. -/
  workers : s'.workers = s.workers
  /-- The records. -/
  jobs : ∀ job, s.job? job.id = some job →
    s'.job? job.id = some job ∨ s'.job? job.id = some (s.downgraded job)

section Round

variable {cfg : Settings} {s s' : Redis} {job : Job}

theorem Redis.Downgrades.refl (s : Redis) : s.Downgrades s :=
  ⟨rfl, rfl, rfl, rfl, rfl, fun _ => .inl⟩

theorem Redis.Downgrades.admission (h : s.Downgrades s') (job : Job) (target : Target) :
    s'.admission cfg job target = s.admission cfg job target :=
  Redis.admission_congr h.usage h.models job target

theorem Redis.Downgrades.downgraded (h : s.Downgrades s') (job : Job) :
    s'.downgraded job = s.downgraded job := Redis.downgraded_congr h.workers h.targets job

theorem Redis.Downgrades.ranksFirst (h : s.Downgrades s') (target : Target) :
    s'.RanksFirst job target ↔ s.RanksFirst job target := by
  constructor
  · rintro ⟨hmem, hserved, hfirst⟩
    rw [h.targets] at hmem hfirst
    rw [h.workers] at hserved hfirst
    rw [h.usage] at hfirst
    exact ⟨hmem, hserved, hfirst⟩
  · rintro ⟨hmem, hserved, hfirst⟩
    rw [← h.targets] at hmem hfirst
    rw [← h.workers] at hserved hfirst
    rw [← h.usage] at hfirst
    exact ⟨hmem, hserved, hfirst⟩

theorem Redis.id_downgraded (s : Redis) (job : Job) : (s.downgraded job).id = job.id := by
  obtain ⟨targetKind, h⟩ := s.downgraded_eq job
  rw [h]

theorem Redis.status_downgraded (s : Redis) (job : Job) :
    (s.downgraded job).status = job.status := by
  obtain ⟨targetKind, h⟩ := s.downgraded_eq job
  rw [h]

/-- A downgraded job is not downgraded again. -/
theorem Redis.downgraded_downgraded (s : Redis) (job : Job) :
    s.downgraded (s.downgraded job) = s.downgraded job := by
  by_cases hgpu : job.targetKind = .gpu
  · by_cases hworker : (alone (hasWorkerForTargetKind job.workloadClass .gpu) s).1 = true
    · have hsame : s.downgraded job = job := by
        rw [Redis.downgraded, downgradeJobTargetKindIfNeeded, if_neg (not_not.mpr hgpu), alone_bind,
          if_pos hworker]
        rfl
      rw [hsame, hsame]
    · have hcpu : s.downgraded job = { job with targetKind := .cpu } := by
        rw [Redis.downgraded, downgradeJobTargetKindIfNeeded, if_neg (not_not.mpr hgpu), alone_bind,
          if_neg hworker]
        rfl
      rw [hcpu]
      rfl
  · have hsame : s.downgraded job = job := by
      rw [Redis.downgraded, downgradeJobTargetKindIfNeeded, if_pos hgpu]
      rfl
    rw [hsame, hsame]

/-- The record that a round comes to, and what it is downgraded to. -/
theorem Redis.Downgrades.record (h : s.Downgrades s') (hjob : s.job? job.id = some job)
    (hqueued : job.status = .queued) : ∃ found, s'.job? found.id = some found ∧
      found.id = job.id ∧ found.status = .queued ∧ s'.downgraded found = s.downgraded job := by
  rcases h.jobs job hjob with hfound | hfound
  · exact ⟨job, hfound, rfl, hqueued, h.downgraded job⟩
  · have hid := s.id_downgraded job
    refine ⟨s.downgraded job, by rw [hid]; exact hfound, hid,
      (s.status_downgraded job).trans hqueued, ?_⟩
    rw [h.downgraded, s.downgraded_downgraded]

/-- What `try_admit_job` answers in the round. -/
theorem Redis.Downgrades.answer (h : s.Downgrades s') (hjob : s.job? job.id = some job)
    (hqueued : job.status = .queued) {queue : Queue} (hmem : job.id ∈ s.queues queue)
    (target : Target) : (alone (tryAdmitJob cfg job.id queue target) s').1 =
      (s.admission cfg (s.downgraded job) target).isSome := by
  obtain ⟨found, hfound, hid, hstatus, hdown⟩ := h.record hjob hqueued
  have hin : found.id ∈ s'.queues queue := by rw [hid, h.queues]; exact hmem
  rw [← hid, fst_tryAdmitJob_queued hfound hstatus, hdown, h.admission, decide_eq_true hin,
    Bool.and_true]

/-- A refusal leaves the store but for the target kind of the job. -/
theorem Redis.Downgrades.refused (h : s.Downgrades s') (hjob : s.job? job.id = some job)
    (hqueued : job.status = .queued) (queue : Queue) (target : Target)
    (hnone : s.admission cfg (s.downgraded job) target = none) :
    s.Downgrades (alone (tryAdmitJob cfg job.id queue target) s').2 := by
  obtain ⟨found, hfound, hid, hstatus, hdown⟩ := h.record hjob hqueued
  have hfilter : (s'.job? found.id).filter (fun job => job.status = .queued) = some found := by
    rw [hfound, Option.filter_some, if_pos (decide_eq_true hstatus)]
  rw [← hid, alone_tryAdmitJob, Redis.tryAdmit, hfilter]
  dsimp only
  rw [hdown]
  by_cases hkind : (s.downgraded job).targetKind ≠ found.targetKind
  · rw [if_pos hkind, Redis.evaluate, Redis.admission_set, h.admission, hnone]
    dsimp only
    refine ⟨h.queues, h.usage, h.models, h.targets, h.workers, fun other hother => ?_⟩
    rw [Redis.job?_set]
    by_cases hsame : other.id = (s.downgraded job).id
    · rw [if_pos hsame]
      rw [s.id_downgraded] at hsame
      rw [hsame, hjob] at hother
      rw [Option.some.inj hother]
      exact .inr rfl
    · rw [if_neg hsame]
      exact h.jobs other hother
  · rw [if_neg hkind, Redis.evaluate, h.admission, hnone]
    exact h

/-- The candidate as the scheduler was given it is in the store. -/
structure Redis.Pends (s : Redis) (candidate : Queue × Job) : Prop where
  /-- Its record. -/
  record : s.job? candidate.2.id = some candidate.2
  /-- It is queued. -/
  queued : candidate.2.status = .queued
  /-- It is in the list. -/
  mem : candidate.2.id ∈ s.queues candidate.1

/-- **A round admits something where some candidate fits the target that ranks first for it.** -/
theorem scheduleEach_pos_iff (h : s.Downgrades s') (candidates : List (Queue × Job))
    (hpends : ∀ candidate ∈ candidates, s.Pends candidate) :
    0 < (alone (scheduleEach cfg (targetsById s.targets) s.workers candidates) s').1 ↔
      ∃ candidate ∈ candidates, ∃ target, s.RanksFirst candidate.2 target ∧
        (s.admission cfg (s.downgraded candidate.2) target).isSome = true := by
  induction candidates generalizing s' with
  | nil =>
    constructor
    · exact fun hpos => absurd hpos (lt_irrefl 0)
    · rintro ⟨candidate, hmem, -⟩
      exact absurd hmem List.not_mem_nil
  | cons candidate candidates ih =>
    have hhere := hpends candidate List.mem_cons_self
    have hrest : ∀ other ∈ candidates, s.Pends other := fun other hin =>
      hpends other (List.mem_cons_of_mem _ hin)
    -- Where the candidate is not admitted, the others decide.
    have hskip : (∀ target, s.RanksFirst candidate.2 target →
        ¬(s.admission cfg (s.downgraded candidate.2) target).isSome = true) →
        ∀ s'', s.Downgrades s'' →
        (0 < (alone (scheduleEach cfg (targetsById s.targets) s.workers candidates) s'').1 ↔
          ∃ other ∈ candidate :: candidates, ∃ target, s.RanksFirst other.2 target ∧
            (s.admission cfg (s.downgraded other.2) target).isSome = true) := by
      intro hnot s'' h''
      rw [ih h'' hrest]
      constructor
      · rintro ⟨other, hin, hfits⟩
        exact ⟨other, List.mem_cons_of_mem _ hin, hfits⟩
      · rintro ⟨other, hin, target, hfirst, hfits⟩
        rcases List.mem_cons.mp hin with rfl | hin
        · exact absurd hfits (hnot target hfirst)
        · exact ⟨other, hin, target, hfirst, hfits⟩
    have hranks : ∀ target, (alone (pickTarget candidate.2 (targetsById s.targets) s.workers)
        s').1 = some target ↔ s.RanksFirst candidate.2 target := fun target => by
      rw [← h.targets, ← h.workers, pickTarget_eq_some_iff, h.ranksFirst]
    rw [scheduleEach, alone_bind, readOnly_pickTarget]
    rcases hpick : (alone (pickTarget candidate.2 (targetsById s.targets) s.workers) s').1 with
      _ | target
    · refine hskip (fun target hfirst _ => ?_) s' h
      rw [← hranks target, hpick] at hfirst
      exact Option.some_ne_none target hfirst.symm
    · have hfirst := (hranks target).mp hpick
      dsimp only
      rw [alone_bind, h.answer hhere.record hhere.queued hhere.mem]
      by_cases hfits : (s.admission cfg (s.downgraded candidate.2) target).isSome = true
      · rw [if_pos hfits, alone_bind]
        constructor
        · exact fun _ => ⟨candidate, List.mem_cons_self, target, hfirst, hfits⟩
        · exact fun _ => Nat.succ_pos _
      · rw [if_neg hfits]
        refine hskip (fun other hother hadmitted => ?_) _
          (h.refused hhere.record hhere.queued _ target (Option.not_isSome_iff_eq_none.mp hfits))
        rw [hother.unique hfirst] at hadmitted
        exact hfits hadmitted

end Round

/-! ### Work conservation -/

section Conserving

variable {cfg : Settings} {s : Redis}

/-- What `list_pending_candidates` returns is in the store. -/
theorem pends_of_candidate (hkeyed : ∀ k job, s.job? k = some job → job.id = k) {scanDepth : ℕ}
    {candidate : Queue × Job} (h : candidate ∈ (alone (listPendingCandidates scanDepth) s).1) :
    s.Pends candidate := by
  rw [alone_listPendingCandidates] at h
  obtain ⟨q, -, hin⟩ := List.mem_flatMap.mp h
  obtain ⟨k, hk, hjob⟩ := List.mem_filterMap.mp hin
  obtain ⟨job, hfound, rfl⟩ := Option.map_eq_some_iff.mp hjob
  obtain ⟨hrecord, hqueued⟩ := Option.filter_eq_some_iff.mp hfound
  have hid := hkeyed k job hrecord
  refine ⟨?_, of_decide_eq_true hqueued, ?_⟩
  · rw [hid]
    exact hrecord
  · rw [hid]
    exact List.mem_of_mem_take hk

/-- **A round of the scheduler admits something** where some candidate fits the target that ranks
first for it. -/
theorem scheduleOnce_pos_iff (hkeyed : ∀ k job, s.job? k = some job → job.id = k)
    (scanDepth : ℕ) : 0 < (alone (scheduleOnce cfg scanDepth) s).1 ↔
      ∃ candidate ∈ (alone (listPendingCandidates scanDepth) s).1, ∃ target,
        s.RanksFirst candidate.2 target ∧
          (s.admission cfg (s.downgraded candidate.2) target).isSome = true := by
  rw [scheduleOnce, alone_bind, alone_workers]
  dsimp only
  by_cases hworkers : s.workers.isEmpty = true
  · rw [if_pos hworkers]
    constructor
    · exact fun hpos => absurd hpos (lt_irrefl 0)
    · rintro ⟨candidate, -, target, hfirst, -⟩
      have hserved := hfirst.served
      rw [isServed, List.isEmpty_iff.mp hworkers] at hserved
      exact Bool.noConfusion hserved
  · rw [if_neg hworkers, alone_bind, alone_targets]
    dsimp only
    by_cases htargets : (targetsById s.targets).isEmpty = true
    · rw [if_pos htargets]
      constructor
      · exact fun hpos => absurd hpos (lt_irrefl 0)
      · rintro ⟨candidate, -, target, hfirst, -⟩
        have hmem := hfirst.mem
        rw [List.isEmpty_iff.mp htargets] at hmem
        exact absurd hmem List.not_mem_nil
    · have hsame : (alone (listPendingCandidates scanDepth) s).2 = s := by
        rw [alone_listPendingCandidates]
      rw [if_neg htargets, alone_bind, hsame]
      exact scheduleEach_pos_iff (Redis.Downgrades.refl s) _ fun candidate h =>
        pends_of_candidate hkeyed h

/-- The candidate fits the target, and a worker of its pool serves it. -/
def Redis.Fits (s : Redis) (cfg : Settings) (job : Job) (target : Target) : Prop :=
  target ∈ s.targets ∧ isServed s.workers job.workerPool target = true ∧
    (s.admission cfg job target).isSome = true

/-- **When the scheduler is work-conserving**: where no candidate fits any target, or some
candidate fits the target that ranks first for it. -/
theorem workConserving_iff (cfg : Settings) (scanDepth : ℕ) (s : Redis)
    (hkeyed : ∀ k job, s.job? k = some job → job.id = k) :
    ((∃ candidate ∈ (alone (listPendingCandidates scanDepth) s).1, ∃ target,
        s.Fits cfg candidate.2 target) → 0 < (alone (scheduleOnce cfg scanDepth) s).1) ↔
      (∀ candidate ∈ (alone (listPendingCandidates scanDepth) s).1, ∀ target,
        ¬s.Fits cfg candidate.2 target) ∨
      ∃ candidate ∈ (alone (listPendingCandidates scanDepth) s).1, ∃ target,
        s.RanksFirst candidate.2 target ∧
          (s.admission cfg (s.downgraded candidate.2) target).isSome = true := by
  rw [scheduleOnce_pos_iff hkeyed]
  constructor
  · intro h
    by_cases hfits : ∃ candidate ∈ (alone (listPendingCandidates scanDepth) s).1, ∃ target,
        s.Fits cfg candidate.2 target
    · exact .inr (h hfits)
    · exact .inl fun candidate hin target ht => hfits ⟨candidate, hin, target, ht⟩
  · rintro (hnone | hfirst) hfits
    · obtain ⟨candidate, hin, target, ht⟩ := hfits
      exact absurd ht (hnone candidate hin target)
    · exact hfirst

end Conserving

/-- The chat job that waits in the mixed cluster. -/
def waitingJob : Job := newJob smallSettings smallRequest 1 ⟨"m", 0⟩ .cpu 0

/-- A cluster with an idle CPU target and an idle GPU target, both served for chat, where one chat
job for the CPU waits. -/
def mixedStore : Redis :=
  (Redis.empty [smallTarget, { gpuTarget with targetId := "g", vramFreeMb := 81920 }]
    [⟨"w", .chat, "t"⟩, ⟨"x", .chat, "g"⟩] [("m", ⟨"m", 0⟩)]).push waitingJob

theorem keyed_mixedStore : ∀ k job, mixedStore.job? k = some job → job.id = k := by
  intro k job hjob
  rw [mixedStore, Redis.job?_push] at hjob
  by_cases hk : k = waitingJob.id
  · rw [if_pos hk] at hjob
    rw [← Option.some.inj hjob, hk]
  · rw [if_neg hk] at hjob
    cases hjob

/-- In the mixed cluster the condition and the work conservation both fail. -/
theorem workConserving_iff_mixed :
    ((∃ candidate ∈ (alone (listPendingCandidates 8) mixedStore).1, ∃ target,
        mixedStore.Fits smallSettings candidate.2 target) →
          0 < (alone (scheduleOnce smallSettings 8) mixedStore).1) ↔
      (∀ candidate ∈ (alone (listPendingCandidates 8) mixedStore).1, ∀ target,
        ¬mixedStore.Fits smallSettings candidate.2 target) ∨
      ∃ candidate ∈ (alone (listPendingCandidates 8) mixedStore).1, ∃ target,
        mixedStore.RanksFirst candidate.2 target ∧
          (mixedStore.admission smallSettings (mixedStore.downgraded candidate.2)
            target).isSome = true :=
  workConserving_iff smallSettings 8 mixedStore keyed_mixedStore

/-- What the scheduler does in the mixed cluster: the job is offered to the GPU target, which has
more free memory and takes no job for the CPU, and the idle CPU target is not asked. -/
theorem not_workConserving_gpuFirst :
    ¬ ∀ (cfg : Settings) (scanDepth : ℕ) (s : Redis), (∀ k job, s.job? k = some job → job.id = k) →
      (∃ candidate ∈ (alone (listPendingCandidates scanDepth) s).1, ∃ target,
        s.Fits cfg candidate.2 target) → 0 < (alone (scheduleOnce cfg scanDepth) s).1 := by
  intro h
  have hcandidates : (alone (listPendingCandidates 8) mixedStore).1 =
      [(.pending .chat .p1, waitingJob)] := by
    rw [alone_listPendingCandidates]
    rfl
  have hpos := h smallSettings 8 mixedStore keyed_mixedStore
    ⟨(.pending .chat .p1, waitingJob), by rw [hcandidates]; exact List.mem_singleton_self _,
      smallTarget, List.mem_cons_self, by decide +kernel, by decide +kernel⟩
  have hnone : (alone (scheduleOnce smallSettings 8) mixedStore).1 = 0 := by decide +kernel
  omega

end Gateway

end AiAgent

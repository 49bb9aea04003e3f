import AiAgent.Gateway.Change

/-!
# Bounded replay

A job is admitted once for each time it was queued: when it was enqueued, and when the reaper sent
it back, which it does no more often than the record permits. The third way back to a pending list
counts nothing: a claim whose target kind is another than the job's. In a run without such claims
a job is admitted at most `max_retries + 1` times, and a claim that takes it at or after its
deadline leaves it failed (`AiAgent.Gateway.boundedReplay_of_agreeing`).

With a worker that asks for another kind than its target reports a job is admitted over and over
(`AiAgent.Gateway.not_boundedReplay_mismatch`).
-/

namespace AiAgent

namespace Gateway

open Command

/-! ### Counting -/

/-- The step admits the job. -/
def Move.admits (cfg : Settings) (s : Redis) (k : JobId) : Move → Bool
  | .op (.tryAdmitJob jobId queue target) =>
    jobId = k && (alone (tryAdmitJob cfg jobId queue target) s).1
  | _ => false

/-- How often each job was admitted since its record was created. -/
def tally (cfg : Settings) (s : Redis) (m : Move) (n : JobId → ℕ) (k : JobId) : ℕ :=
  if s.job? k = none then 0 else if m.admits cfg s k then n k + 1 else n k

/-- The states after whole steps that meet `ok`, with the admissions counted. -/
abbrev Tallied (cfg : Settings) (ok : Redis → Move → Prop) : Redis × (JobId → ℕ) → Prop :=
  Reached (noted (Move.apply cfg) (tally cfg)) (fun p => Pristine p.1 ∧ p.2 = fun _ => 0)
    fun p m => ok p.1 m

/-- **Bounded replay**: no job was admitted more often than it may be retried, and once more; and
a claim that takes a job at or after its deadline leaves it failed. -/
structure BoundedReplay (cfg : Settings) (ok : Redis → Move → Prop) (s : Redis) (n : JobId → ℕ) :
    Prop where
  /-- The admissions. -/
  admissions : ∀ k job, s.job? k = some job → n k ≤ job.maxRetries + 1
  /-- The deadline. -/
  expired : ∀ workerId workerPool targetId expectedTargetKind,
    ok s (.op (.claimDispatchJob workerId workerPool targetId expectedTargetKind)) →
    ∀ k job, (s.queues (.dispatch workerPool targetId)).getLast? = some k → s.job? k = some job →
      job.deadlineAt ≠ 0 → job.deadlineAt ≤ s.now →
      ((Move.apply cfg (.op (.claimDispatchJob workerId workerPool targetId expectedTargetKind))
        s).job? k).map Job.status = some .failed

/-- The claims ask for the kind of the job they pop, or for none; `requeue_job_for_pending` is
called by refused claims only; and an id that is made up is new. -/
def Agreeing (s : Redis) : Move → Prop
  | .op (.claimDispatchJob _ workerPool targetId expectedTargetKind) =>
    ∀ k job, (s.queues (.dispatch workerPool targetId)).getLast? = some k → s.job? k = some job →
      refuses expectedTargetKind job = false
  | .op (.requeueJobForPending _ _) => False
  | m => m.IsNew s

/-! ### The invariant -/

/-- The admissions of a job against its retries. -/
structure Counted (cfg : Settings) (n : ℕ) (job : Job) : Prop where
  /-- How often it may be retried. -/
  limit : job.maxRetries = cfg.maxJobRetries
  /-- It was admitted no more often, and once more. -/
  bound : n ≤ cfg.maxJobRetries + 1
  /-- It was admitted once more than it was retried, at most. -/
  retried : n ≤ job.retryCount + 1
  /-- If it is queued, the last retry has not been admitted yet. -/
  queued : job.status = .queued → n ≤ job.retryCount ∧ job.retryCount ≤ cfg.maxJobRetries

variable {cfg : Settings} {s : Redis} {n : ℕ} {k : JobId} {job old new : Job}

theorem retryLimit_of_limit (h : job.maxRetries = cfg.maxJobRetries) :
    retryLimit cfg job = cfg.maxJobRetries := by
  unfold retryLimit
  split
  · rfl
  · exact h

/-- Of the ways in which a status is written only a refused claim may spoil the count. -/
theorem Counted.change {P : Deed → Job → Prop} (hP : ∀ job, ¬P .requeue job)
    (hchange : Change cfg P old new) (h : Counted cfg n old) : Counted cfg n new := by
  cases hchange with
  | kept hkept =>
    refine ⟨(congrArg JobSpec.maxRetries hkept.spec).trans h.limit, h.bound, ?_, fun hqueued => ?_⟩
    · rw [hkept.retry]
      exact h.retried
    · rw [hkept.retry]
      exact h.queued (hkept.status.symm.trans hqueued)
  | deed d hmay hwrites hspec hflag hlink =>
    have hlimit : new.maxRetries = cfg.maxJobRetries :=
      (congrArg JobSpec.maxRetries hspec).trans h.limit
    have hretried := h.retried
    cases d with
    | admission =>
      obtain ⟨hstatus, hretry⟩ := hwrites
      refine ⟨hlimit, h.bound, by rwa [hretry], fun hqueued => ?_⟩
      rw [hstatus] at hqueued
      cases hqueued
    | run =>
      obtain ⟨hstatus, hretry⟩ := hwrites
      refine ⟨hlimit, h.bound, by rwa [hretry], fun hqueued => ?_⟩
      rw [hstatus] at hqueued
      cases hqueued
    | requeue => exact absurd hmay (hP old)
    | finish status =>
      obtain ⟨rfl, hended, hretry⟩ := hwrites
      exact ⟨hlimit, h.bound, by omega, fun hqueued => by rw [hqueued] at hended; cases hended⟩
    | recover =>
      obtain ⟨hstatus, hretry, hbelow⟩ := hwrites
      rw [retryLimit_of_limit h.limit] at hbelow
      exact ⟨hlimit, h.bound, by omega, fun _ => ⟨by omega, hbelow⟩⟩

/-- An admission takes a queued job. -/
theorem Counted.admission (h : Counted cfg n old) (hqueued : old.status = .queued)
    (hspec : new.toJobSpec = old.toJobSpec) (hstatus : new.status = .admitted)
    (hretry : new.retryCount = old.retryCount) : Counted cfg (n + 1) new := by
  obtain ⟨hretried, hlimit⟩ := h.queued hqueued
  refine ⟨(congrArg JobSpec.maxRetries hspec).trans h.limit, by omega, by omega, fun hagain => ?_⟩
  rw [hstatus] at hagain
  cases hagain

theorem counted_newJob (cfg : Settings) (a : EnqueueArgs) (k : JobId) (modelInfo : ModelInfo)
    (targetKind : TargetKind) (nowMs : ℕ) :
    Counted cfg 0 (newJob cfg a k modelInfo targetKind nowMs) :=
  ⟨rfl, Nat.zero_le _, Nat.zero_le _, fun _ => ⟨le_refl _, Nat.zero_le _⟩⟩

theorem fst_evaluateAndAdmit (cfg : Settings) (job : Job) (queue : Queue) (target : Target)
    (s : Redis) : (alone (evaluateAndAdmit cfg job queue target) s).1 =
      ((s.admission cfg job target).isSome && decide (job.id ∈ s.queues queue)) := by
  simp only [evaluateAndAdmit, alone_bind, alone_hgetallUsage, alone_evaluateTargetAdmission]
  cases s.admission cfg job target with
  | none => rfl
  | some admission => by_cases hmem : job.id ∈ s.queues queue <;> simp [hmem]

/-- An evaluation that says so has admitted the job. -/
theorem job?_evaluate_of_true {queue : Queue} {target : Target}
    (h : (alone (evaluateAndAdmit cfg job queue target) s).1 = true) :
    ∃ new, (s.evaluate cfg job queue target).job? job.id = some new ∧
      new.toJobSpec = job.toJobSpec ∧ new.status = .admitted ∧
      new.retryCount = job.retryCount := by
  rw [fst_evaluateAndAdmit, Bool.and_eq_true] at h
  obtain ⟨hsome, hmem⟩ := h
  obtain ⟨admission, hadmission⟩ := Option.isSome_iff_exists.mp hsome
  refine ⟨admittedRecord cfg job target.targetId admission s.clockMs, ?_, rfl, rfl, rfl⟩
  rw [Redis.evaluate, hadmission]
  dsimp only
  rw [if_pos (of_decide_eq_true hmem), Redis.job?, Redis.jobs_admitted]
  exact AList.lookup_insert _

/-- What `try_admit_job` evaluates: the queued job, with its target kind downgraded. -/
theorem fst_tryAdmitJob {jobId : JobId} {queue : Queue} {target : Target}
    (h : (alone (tryAdmitJob cfg jobId queue target) s).1 = true) :
    ∃ old targetKind s₁, s.job? jobId = some old ∧ old.status = .queued ∧
      (alone (evaluateAndAdmit cfg { old with targetKind := targetKind } queue target) s₁).1 =
          true ∧
      (alone (tryAdmitJob cfg jobId queue target) s).2 =
        s₁.evaluate cfg { old with targetKind := targetKind } queue target := by
  simp only [tryAdmitJob, alone_withLock, alone_bind, alone_getJob] at h ⊢
  rcases hjob : s.job? jobId with _ | old
  · rw [hjob] at h
    cases h
  · rw [hjob] at h
    dsimp only at h ⊢
    obtain ⟨targetKind, hkind⟩ := s.downgraded_eq old
    by_cases hqueued : old.status = .queued
    · rw [if_neg (not_not.mpr hqueued), alone_bind, alone_downgradeJobTargetKindIfNeeded,
        hkind] at h ⊢
      dsimp only at h ⊢
      by_cases hsame : targetKind = old.targetKind
      · rw [if_neg (not_not.mpr hsame)] at h ⊢
        exact ⟨old, targetKind, s, rfl, hqueued, h, alone_evaluateAndAdmit _ _ _ _ _⟩
      · rw [if_pos hsame, alone_bind, alone_saveJob] at h ⊢
        exact ⟨old, targetKind, _, rfl, hqueued, h, alone_evaluateAndAdmit _ _ _ _ _⟩
    · rw [if_pos hqueued] at h
      cases h

/-- **An admission**: the job was queued, and is admitted. -/
theorem admitted_of_admits {m : Move} (hkeyed : ∀ k job, s.job? k = some job → job.id = k)
    (h : m.admits cfg s k = true) : ∃ old new, s.job? k = some old ∧ old.status = .queued ∧
      (m.apply cfg s).job? k = some new ∧ new.toJobSpec = old.toJobSpec ∧
      new.status = .admitted ∧ new.retryCount = old.retryCount := by
  obtain ⟨jobId, queue, target, rfl⟩ :
      ∃ jobId queue target, m = .op (.tryAdmitJob jobId queue target) := by
    rcases m with o | _ | _ | _
    · rcases o with _ | _ | _ | ⟨jobId, queue, target⟩
      case tryAdmitJob => exact ⟨jobId, queue, target, rfl⟩
      all_goals cases h
    all_goals cases h
  obtain ⟨hid, hadmitted⟩ := Bool.and_eq_true_iff.mp h
  obtain rfl : jobId = k := of_decide_eq_true hid
  obtain ⟨old, targetKind, s₁, hold, hqueued, hevaluated, hafter⟩ := fst_tryAdmitJob hadmitted
  rw [alone_tryAdmitJob] at hafter
  obtain ⟨new, hnew, hspec, hstatus, hretry⟩ := job?_evaluate_of_true hevaluated
  refine ⟨old, new, hold, hqueued, ?_, hspec, hstatus, hretry⟩
  rw [apply_tryAdmitJob, hafter, ← hkeyed jobId old hold]
  exact hnew

/-! ### Runs -/

/-- Without a refused claim no job goes back to its pending list but by the reaper. -/
theorem changed_of_agreeing {m : Move} (hkeyed : ∀ k job, s.job? k = some job → job.id = k)
    (hagree : Agreeing s m) :
    s.Changed cfg (fun d _ => d ≠ .requeue) (m.Born cfg s) (m.apply cfg s) := by
  have hmono : m.IsNew s → (∀ d job, m.May s d job → d ≠ .requeue) →
      s.Changed cfg (fun d _ => d ≠ .requeue) (m.Born cfg s) (m.apply cfg s) :=
    fun hnew hmay => (changed_apply hkeyed m hnew).mono_may hmay
  rcases m with o | _ | _ | _
  · cases o with
    | claimDispatchJob workerId workerPool targetId expectedTargetKind =>
      rw [apply_claimDispatchJob]
      refine changed_claimDispatch hkeyed workerId workerPool targetId expectedTargetKind
        (fun k job hlast hjob => ?_) fun job _ => Deed.noConfusion
      refine ⟨fun hrefuses => ?_, Deed.noConfusion, Deed.noConfusion⟩
      rw [hagree k job hlast hjob] at hrefuses
      cases hrefuses
    | requeueJobForPending jobId reason => exact hagree.elim
    | _ =>
      refine hmono hagree ?_
      rintro d job hmay rfl
      exact hmay
  all_goals
    refine hmono hagree ?_
    rintro d job hmay rfl
    exact hmay

/-- Every record is under its own id, and its admissions are within its retries. -/
structure Counts (cfg : Settings) (s : Redis) (n : JobId → ℕ) : Prop where
  /-- Every record is found under its own id. -/
  keyed : ∀ k job, s.job? k = some job → job.id = k
  /-- The count of every job. -/
  counted : ∀ k job, s.job? k = some job → Counted cfg (n k) job

theorem Counts.apply {n : JobId → ℕ} {m : Move} (h : Counts cfg s n) (hagree : Agreeing s m) :
    Counts cfg (m.apply cfg s) (tally cfg s m n) := by
  have hchanged : s.Changed cfg (fun d _ => d ≠ .requeue) (m.Born cfg s) (m.apply cfg s) :=
    changed_of_agreeing h.keyed hagree
  refine ⟨hchanged.keyed, fun k new hnew => ?_⟩
  rcases hchanged.source k new hnew with
    ⟨old, hold, hchanges⟩ | ⟨hnone, a, modelInfo, targetKind, rfl, -⟩
  · rw [tally, if_neg (by rw [hold]; exact Option.some_ne_none old)]
    by_cases hadmits : m.admits cfg s k = true
    · -- What is admitted was queued, so its last retry had not been admitted.
      rw [if_pos hadmits]
      obtain ⟨old', new', hold', hqueued, hnew', hspec, hstatus, hretry⟩ :=
        admitted_of_admits h.keyed hadmits
      obtain rfl := Option.some.inj (hnew'.symm.trans hnew)
      exact (h.counted k old' hold').admission hqueued hspec hstatus hretry
    · rw [if_neg hadmits]
      exact hchanges.keep (fun _ _ hchange => Counted.change (fun _ => not_not.mpr rfl) hchange)
        (h.counted k old hold)
  · rw [tally, if_pos hnone]
    exact counted_newJob cfg a k modelInfo targetKind s.clockMs

theorem Tallied.counts {p : Redis × (JobId → ℕ)} (h : Tallied cfg Agreeing p) :
    Counts cfg p.1 p.2 := by
  refine Reached.invariant (I := fun q : Redis × (JobId → ℕ) => Counts cfg q.1 q.2) ?_
    (fun q m hq hagree => hq.apply hagree) h
  rintro q ⟨hpristine, -⟩
  have hnone : ∀ k job, q.1.job? k ≠ some job := fun k job hjob => by
    rw [hpristine.job? k] at hjob
    cases hjob
  exact ⟨fun k job hjob => absurd hjob (hnone k job), fun k job hjob => absurd hjob (hnone k job)⟩

/-- A claim that is not refused leaves a job whose deadline has come failed. -/
theorem failed_of_expired (hkeyed : ∀ k job, s.job? k = some job → job.id = k)
    {workerPool : WorkerPool} {targetId : TargetId} {expectedTargetKind : Option Text}
    (hlast : (s.queues (.dispatch workerPool targetId)).getLast? = some k)
    (hjob : s.job? k = some job) (hagree : refuses expectedTargetKind job = false)
    (hdeadline : job.deadlineAt ≠ 0) (hnow : job.deadlineAt ≤ s.now) (workerId : WorkerId) :
    ((s.claimDispatch cfg workerId workerPool targetId expectedTargetKind).job? k).map Job.status =
      some .failed := by
  have hreply := s.fst_brpoplpush (.dispatch workerPool targetId) (.processing workerId)
  obtain ⟨queues, hpop⟩ := s.brpoplpush_eq (.dispatch workerPool targetId) (.processing workerId)
  have hpopped : s.brpoplpush (.dispatch workerPool targetId) (.processing workerId) =
      (some k, { s with queues := queues }) := Prod.ext (hreply.trans hlast) hpop
  have hkeyed' : ∀ k job, Redis.job? { s with queues := queues } k = some job → job.id = k := hkeyed
  have hjob' : Redis.job? { s with queues := queues } k = some job := hjob
  have hid := hkeyed k job hjob
  rw [Redis.claimDispatch, hpopped]
  dsimp only
  rw [hjob']
  dsimp only
  unfold Redis.claim
  unfold refuses at hagree
  rw [hagree, if_neg Bool.false_ne_true, if_pos ⟨hdeadline, hnow⟩, hid, hjob']
  have hfailed := job?_finish_self hkeyed' (failedRecord job deadlineExceededError s.clockMs)
    .failed
    .childFailed (.failed deadlineExceededError) (some workerId)
  rw [show (failedRecord job deadlineExceededError s.clockMs).id = k from hid] at hfailed
  exact congrArg (Option.map Job.status) hfailed

/-- **Bounded replay where no claim is refused.** -/
theorem boundedReplay_of_agreeing (cfg : Settings) {p : Redis × (JobId → ℕ)}
    (h : Tallied cfg Agreeing p) : BoundedReplay cfg Agreeing p.1 p.2 := by
  have hcounts := h.counts
  constructor
  · intro k job hjob
    have hcounted := hcounts.counted k job hjob
    rw [hcounted.limit]
    exact hcounted.bound
  · intro workerId workerPool targetId expectedTargetKind hagree k job hlast hjob hdeadline hnow
    rw [apply_claimDispatchJob]
    exact failed_of_expired hcounts.keyed hlast hjob (hagree k job hlast hjob) hdeadline hnow
      workerId

/-- A worker that asks for the kind `auto`, and a job of the kind that means. -/
theorem boundedReplay_of_agreeing_auto : ∃ p : Redis × (JobId → ℕ), p.2 2 = 1 ∧
    BoundedReplay smallSettings Agreeing p.1 p.2 := by
  let moves : List Move := [.op (.enqueueJob smallRequest 2),
    .op (.tryAdmitJob 2 (.pending .chat .p1) smallTarget)]
  let claim : Move := .op (.claimDispatchJob "w" .chat "t" (some "auto".toList))
  let after : Redis × (JobId → ℕ) := moves.foldl
    (fun p m => noted (Move.apply smallSettings) (tally smallSettings) m p) (smallStore, fun _ => 0)
  have start : Tallied smallSettings Agreeing (smallStore, fun _ => 0) :=
    .start ⟨pristine_smallStore, rfl⟩
  have enqueued := start.step (moves.get ⟨0, by decide⟩) fun _ => rfl
  have admitted : Tallied smallSettings Agreeing after :=
    enqueued.step (moves.get ⟨1, by decide⟩) trivial
  have claimed : Tallied smallSettings Agreeing _ := admitted.step claim fun k job hlast hjob => by
    have hid : (after.1.queues (.dispatch .chat "t")).getLast? = some 2 := by decide +kernel
    obtain rfl : 2 = k := Option.some.inj (hid.symm.trans hlast)
    have hkind := forall_of_all (p := fun job => !refuses (some "auto".toList) job)
      (by decide +kernel) job hjob
    simpa using hkind
  exact ⟨_, by decide +kernel, boundedReplay_of_agreeing smallSettings claimed⟩

/-- The small cluster with a GPU. -/
def gpuSettings : Settings := { smallSettings with gpuEnabled := true }

/-- Its target, as a worker of the kind `auto` reports it. -/
def gpuTarget : Target := { smallTarget with targetKind := some "gpu".toList, vramFreeMb := 65536 }

/-- The store of the cluster before anything was written. -/
def gpuStore : Redis := Redis.empty [gpuTarget] [⟨"w", .chat, "t"⟩] [("m", ⟨"m", 0⟩)]

/-- An admission, and the claim of the worker. -/
def refusal : List Move := [.op (.tryAdmitJob 1 (.pending .chat .p1) gpuTarget),
  .op (.claimDispatchJob "w" .chat "t" (some "auto".toList))]

/-- What a worker whose own kind is `auto` does to a job of its own target: four admissions where
the record permits three, and no end to it. -/
theorem not_boundedReplay_mismatch :
    ¬ ∀ p, Tallied gpuSettings (fun s m => m.IsNew s) p →
      BoundedReplay gpuSettings (fun s m => m.IsNew s) p.1 p.2 := by
  intro h
  let moves : List Move := refusal ++ refusal ++ refusal ++ refusal
  have start : Tallied gpuSettings (fun s m => m.IsNew s) (gpuStore, fun _ => 0) :=
    .start ⟨⟨_, _, _, 0, rfl⟩, rfl⟩
  have enqueued := start.step (Move.op (.enqueueJob smallRequest 1)) fun _ => rfl
  have replayed := enqueued.foldl moves fun m hm s => by
    have hm : m ∈ refusal := by simpa [moves] using hm
    simp only [refusal, List.mem_cons, List.not_mem_nil, or_false] at hm
    rcases hm with rfl | rfl <;> trivial
  generalize hp : moves.foldl _ _ = p at replayed
  have hcount : p.2 1 = 4 ∧ (p.1.job? 1).map (fun job => job.maxRetries) = some 2 := by
    rw [← hp]
    decide +kernel
  obtain ⟨job, hjob, hlimit⟩ := Option.map_eq_some_iff.mp hcount.2
  have hbound := (h p replayed).admissions 1 job hjob
  omega

end Gateway

end AiAgent

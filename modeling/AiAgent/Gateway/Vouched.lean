import AiAgent.Command.Cut
import AiAgent.Gateway.Change
import AiAgent.Gateway.Plain

/-!
# What stands behind a completed record

A record becomes completed by `mark_job_completed` for its job, or as the root of a child that is
completed; nothing else writes that status. So whatever a worker makes sure of before it reports a
job completed holds of every completed record (`AiAgent.Gateway.Redis.Vouched`): the roots of
children are parse jobs, and no worker reports those completed itself.

How the records after a step come out of the records before it is `AiAgent.Gateway.Redis.Grows`. For
whole steps it follows from what they may change (`AiAgent.Gateway.grows_apply`), and for a report
that is cut short anywhere it is shown command by command
(`AiAgent.Gateway.throughout_markJobCompleted` and its siblings).
-/

namespace AiAgent

namespace Gateway

open Command

variable {α : Type} {cfg : Settings} {s s' s₁ : Redis} {k : JobId} {job old new : Job}
  {C : JobId → Text → Prop} {B : JobId → Prop} {A : JobSpec → Text → Prop}

/-! ### Records -/

/-- The records, as their callers leave them. -/
structure Redis.Usual (s : Redis) : Prop where
  /-- Every record is found under its own id. -/
  keyed : ∀ k job, s.job? k = some job → job.id = k
  /-- A job that has a child is a parse job. -/
  root : ∀ k job rootJobId root, s.job? k = some job → job.rootJobId = some rootJobId →
    rootJobId ≠ k → s.job? rootJobId = some root → root.jobKind = .parse
  /-- The answer to a file chat is not told token by token. -/
  fileChat : ∀ k job fileChat, s.job? k = some job → job.fileChat = some fileChat →
    fileChat.suppressTokenStream = true

/-- **Every completed record is vouched for**: it has a result, and `A` holds of it. -/
structure Redis.Vouched (A : JobSpec → Text → Prop) (s : Redis) : Prop extends s.Usual where
  /-- The completed records. -/
  completed : ∀ k job, s.job? k = some job → job.jobKind ≠ .parse → job.status = .completed →
    ∃ text, job.result = some text ∧ A job.toJobSpec text

/-- A record comes out of another: where it is completed it was so before, with the same result, or
`C` permits the result. -/
structure Grown (C : JobId → Text → Prop) (old new : Job) : Prop where
  /-- What was written once is the same. -/
  spec : new.toJobSpec = old.toJobSpec
  /-- Where it is completed. -/
  completed : new.status = .completed → old.jobKind ≠ .parse →
    old.status = .completed ∧ new.result = old.result ∨ ∃ text, new.result = some text ∧
      C old.id text

/-- A record is created, under an id of `B`. -/
structure Redis.Newborn (B : JobId → Prop) (s : Redis) (k : JobId) (new : Job) : Prop where
  /-- The id. -/
  made : B k
  /-- There was none. -/
  none : s.job? k = none
  /-- It is not completed. -/
  status : new.status ≠ .completed
  /-- Its id was nobody's root. -/
  unused : ∀ j job, s.job? j = some job → job.rootJobId ≠ some k
  /-- Its own root is a parse job. -/
  root : ∀ rootJobId, new.rootJobId = some rootJobId →
    ∃ root, s.job? rootJobId = some root ∧ root.jobKind = .parse
  /-- Its answer is not told token by token. -/
  fileChat : ∀ fileChat, new.fileChat = some fileChat → fileChat.suppressTokenStream = true

/-- **How the records of a step come out of those before it.** -/
structure Redis.Grows (C : JobId → Text → Prop) (B : JobId → Prop) (s s' : Redis) : Prop where
  /-- Every record is found under its own id. -/
  keyed : ∀ k new, s'.job? k = some new → new.id = k
  /-- Where it comes from. -/
  source : ∀ k new, s'.job? k = some new →
    (∃ old, s.job? k = some old ∧ Grown C old new) ∨ s.Newborn B k new

theorem vouched_pristine (h : Pristine s) (A : JobSpec → Text → Prop) : s.Vouched A where
  keyed := fun k job hjob => by
    rw [h.job?] at hjob
    cases hjob
  root := fun k job _ _ hjob => by
    rw [h.job?] at hjob
    cases hjob
  fileChat := fun k job _ hjob => by
    rw [h.job?] at hjob
    cases hjob
  completed := fun k job hjob => by
    rw [h.job?] at hjob
    cases hjob

theorem Grown.refl (C : JobId → Text → Prop) (job : Job) : Grown C job job :=
  ⟨rfl, fun hcompleted _ => .inl ⟨hcompleted, rfl⟩⟩

theorem Grown.trans {mid : Job} (h : Grown C old mid) (h' : Grown C mid new) : Grown C old new := by
  refine ⟨h'.spec.trans h.spec, fun hcompleted hkind => ?_⟩
  have hkind' : mid.jobKind ≠ .parse := by rwa [congrArg JobSpec.jobKind h.spec]
  rcases h'.completed hcompleted hkind' with ⟨hmid, hresult⟩ | ⟨text, hresult, hC⟩
  · rw [hresult]
    exact h.completed hmid hkind
  · refine .inr ⟨text, hresult, ?_⟩
    rwa [← congrArg JobSpec.id h.spec]

/-- A record that is not completed comes out of any other. -/
theorem Grown.of_status (hspec : new.toJobSpec = old.toJobSpec)
    (hstatus : new.status ≠ .completed) :
    Grown C old new :=
  ⟨hspec, fun hcompleted => absurd hcompleted hstatus⟩

/-- So does any record of a parse job. -/
theorem Grown.of_parse (hspec : new.toJobSpec = old.toJobSpec) (hkind : old.jobKind = .parse) :
    Grown C old new :=
  ⟨hspec, fun _ hother => absurd hkind hother⟩

/-- The records are the same, or fewer. -/
theorem Redis.Grows.of_sub (hkeyed : ∀ k job, s.job? k = some job → job.id = k)
    (hsub : ∀ k job, s'.job? k = some job → s.job? k = some job) : s.Grows C B s' :=
  ⟨fun k job hjob => hkeyed k job (hsub k job hjob),
    fun k job hjob => .inl ⟨job, hsub k job hjob, .refl C job⟩⟩

theorem Redis.Grows.mono {B' : JobId → Prop} (h : s.Grows C B s') (hB : ∀ k, B k → B' k) :
    s.Grows C B' s' :=
  ⟨h.keyed, fun k new hnew => (h.source k new hnew).imp id fun hborn =>
    ⟨hB k hborn.made, hborn.none, hborn.status, hborn.unused, hborn.root, hborn.fileChat⟩⟩

/-- Only the records matter. -/
theorem Redis.Grows.congr (h : s.Grows C B s₁) (hjobs : s'.jobs = s₁.jobs) : s.Grows C B s' := by
  have hsame : ∀ k, s'.job? k = s₁.job? k := Redis.job?_congr hjobs
  constructor
  · exact fun k new hnew => h.keyed k new ((hsame k).symm.trans hnew)
  · exact fun k new hnew => h.source k new ((hsame k).symm.trans hnew)

/-- One more record is saved, which comes out of the one the step found. -/
theorem Redis.Grows.set (h : s.Grows C B s₁) (hold : s.job? k = some old) (hid : old.id = k)
    (hgrown : Grown C old new) : s.Grows C B (s₁.set new) := by
  have hid' : new.id = k := (congrArg JobSpec.id hgrown.spec).trans hid
  constructor <;> intro j job hjob <;> rw [Redis.job?_set, hid'] at hjob <;> split at hjob
  · next hself =>
    obtain rfl := Option.some.inj hjob
    exact hid'.trans hself.symm
  · exact h.keyed j job hjob
  · next hself =>
    obtain rfl := Option.some.inj hjob
    exact .inl ⟨old, hself ▸ hold, hgrown⟩
  · exact h.source j job hjob

/-- **What stands behind completed records stands behind them after a step**, if it stands behind
the results the step reports. -/
theorem Redis.Vouched.grows (h : s.Vouched A) (hgrows : s.Grows C B s')
    (hC : ∀ job text, s.job? job.id = some job → job.jobKind ≠ .parse → C job.id text →
      A job.toJobSpec text) : s'.Vouched A where
  keyed := hgrows.keyed
  root := by
    intro k new rootJobId root hnew hrootJobId hne hroot
    rcases hgrows.source rootJobId root hroot with ⟨oldRoot, holdRoot, hgrown⟩ | hborn
    · rw [congrArg JobSpec.jobKind hgrown.spec]
      rcases hgrows.source k new hnew with ⟨old, hold, hgrown'⟩ | hborn
      · rw [congrArg JobSpec.rootJobId hgrown'.spec] at hrootJobId
        exact h.root k old rootJobId oldRoot hold hrootJobId hne holdRoot
      · obtain ⟨root', hroot', hkind⟩ := hborn.root rootJobId hrootJobId
        obtain rfl := Option.some.inj (holdRoot.symm.trans hroot')
        exact hkind
    · -- A root that is created is the root of nobody.
      exfalso
      rcases hgrows.source k new hnew with ⟨old, hold, hgrown'⟩ | hborn'
      · rw [congrArg JobSpec.rootJobId hgrown'.spec] at hrootJobId
        exact hborn.unused k old hold hrootJobId
      · obtain ⟨root', hroot', -⟩ := hborn'.root rootJobId hrootJobId
        rw [hborn.none] at hroot'
        cases hroot'
  fileChat := by
    intro k new fileChat hnew hfileChat
    rcases hgrows.source k new hnew with ⟨old, hold, hgrown⟩ | hborn
    · rw [congrArg JobSpec.fileChat hgrown.spec] at hfileChat
      exact h.fileChat k old fileChat hold hfileChat
    · exact hborn.fileChat fileChat hfileChat
  completed := by
    intro k new hnew hkind hstatus
    rcases hgrows.source k new hnew with ⟨old, hold, hgrown⟩ | hborn
    · rw [congrArg JobSpec.jobKind hgrown.spec] at hkind
      rw [hgrown.spec]
      rcases hgrown.completed hstatus hkind with ⟨hcompleted, hresult⟩ | ⟨text, hresult, htext⟩
      · rw [hresult]
        exact h.completed k old hold hkind hcompleted
      · obtain rfl := h.keyed k old hold
        exact ⟨text, hresult, hC old text hold hkind htext⟩
    · exact absurd hstatus hborn.status

/-- More may stand behind them. -/
theorem Redis.Vouched.mono {A' : JobSpec → Text → Prop} (h : s.Vouched A)
    (hA : ∀ job text, s.job? job.id = some job → job.jobKind ≠ .parse → job.status = .completed →
      job.result = some text → A job.toJobSpec text → A' job.toJobSpec text) : s.Vouched A' where
  toUsual := h.toUsual
  completed := by
    intro k job hjob hkind hstatus
    obtain ⟨text, hresult, htext⟩ := h.completed k job hjob hkind hstatus
    obtain rfl := h.keyed k job hjob
    exact ⟨text, hresult, hA job text hjob hkind hstatus hresult htext⟩

/-! ### Whole steps -/

/-- The id names no record, and no record's root. -/
def Redis.isUnused (s : Redis) (jobId : JobId) : Bool :=
  (s.job? jobId).isNone && s.jobs.entries.all fun e => e.2.rootJobId ≠ some jobId

theorem Redis.root_of_isUnused {jobId : JobId} (h : s.isUnused jobId = true) (k : JobId) (job : Job)
    (hjob : s.job? k = some job) : job.rootJobId ≠ some jobId := by
  obtain ⟨-, hroots⟩ := (Bool.and_eq_true _ _).mp h
  have hentry : (⟨k, job⟩ : Sigma fun _ : JobId => Job) ∈ s.jobs.entries :=
    AList.mem_lookup_iff.mp hjob
  exact of_decide_eq_true (List.all_eq_true.mp hroots _ hentry)

theorem Redis.job?_of_isUnused {jobId : JobId} (h : s.isUnused jobId = true) :
    s.job? jobId = none :=
  Option.isNone_iff_eq_none.mp ((Bool.and_eq_true _ _).mp h).1

/-- Changes that complete nothing. -/
theorem Redis.Grows.of_changed {P : Deed → Job → Prop} {B' : JobId → Job → Prop}
    (h : s.Changed cfg P B' s') (hP : ∀ d job, P d job → d ≠ .finish .completed)
    (hB : ∀ k new, s.job? k = none → B' k new → s.Newborn B k new) : s.Grows C B s' := by
  refine ⟨h.keyed, fun k new hnew => ?_⟩
  rcases h.source k new hnew with ⟨old, hold, hchanges⟩ | ⟨hnone, hborn⟩
  · refine .inl ⟨old, hold, hchanges.keep (I := Grown C old) ?_ (.refl C old)⟩
    rintro mid next hchange hmid
    refine hmid.trans ?_
    rcases hchange with hkept | ⟨d, hmay, hwrites, hspec, -, -⟩
    · exact ⟨hkept.spec, fun hcompleted _ => .inl ⟨hkept.status ▸ hcompleted, hkept.result⟩⟩
    · refine .of_status hspec fun hcompleted => ?_
      rcases d with _ | _ | _ | status | _
      case finish =>
        obtain rfl := hwrites.1.symm.trans hcompleted
        exact hP _ mid hmay rfl
      all_goals
        have hstatus := hwrites.1
        rw [hcompleted] at hstatus
        cases hstatus
  · exact .inr (hB k new hnone hborn)

/-- The answer to a file chat, if there is one, is not told token by token. -/
def tellsWhole (fileChat : Option FileChat) : Bool := fileChat.all FileChat.suppressTokenStream

/-- **What the callers of a step see to**: handlers enqueue and workers complete by calls of their
own, and a child is enqueued for a parse job, under an id of its own, and told as a whole. -/
def Move.regular (cfg : Settings) (s : Redis) : Move → Bool
  | .op (.enqueueJob _ _) | .op (.markJobCompleted _ _ _) => false
  | .op (.enqueueChildJobOnce rootJobId prepared) =>
    ((s.job? rootJobId).all fun root => root.jobKind = .parse) &&
      ((s.job? (cfg.derivedChildJobId rootJobId)).isSome ||
        s.isUnused (cfg.derivedChildJobId rootJobId)) && tellsWhole prepared.fileChat
  | _ => true

/-- The id that a step makes up. -/
def Move.madeUp (cfg : Settings) : Move → Option JobId
  | .op (.enqueueJob a uuid) => some (a.jobIdOverride.getD uuid)
  | .op (.enqueueChildJobOnce rootJobId _) => some (cfg.derivedChildJobId rootJobId)
  | _ => none

/-- No other step completes a job. -/
theorem Move.may_of_regular {m : Move} (h : m.regular cfg s = true) {d : Deed}
    (hmay : m.May s d job) :
    d ≠ .finish .completed := by
  rintro rfl
  rcases m with o | _ | _ | _
  · cases o
    case enqueueJob => cases h
    case markJobCompleted => cases h
    all_goals exact hmay.1 rfl
  all_goals exact hmay

/-- **A regular step completes nothing.** -/
theorem grows_apply (h : s.Usual) {m : Move} (hm : m.regular cfg s = true) :
    s.Grows C (fun k => m.madeUp cfg = some k) (m.apply cfg s) := by
  have hnew : m.IsNew s := by
    rcases m with o | _ | _ | _
    · cases o
      case enqueueJob => cases hm
      all_goals exact trivial
    all_goals exact trivial
  refine .of_changed (changed_apply h.keyed m hnew) (fun d job hmay => m.may_of_regular hm hmay) ?_
  rintro k new hnone ⟨a, modelInfo, targetKind, rfl, hbears⟩
  rcases m with o | _ | _ | _
  · cases o
    case enqueueChildJobOnce rootJobId prepared =>
      obtain ⟨rootJob, hroot, -, -, -, rfl, rfl⟩ := hbears
      simp only [Move.regular, Bool.and_eq_true, hroot, hnone, Option.all_some,
        Option.isSome_none, Bool.false_or, decide_eq_true_eq] at hm
      obtain ⟨⟨hkind, hunused⟩, hfileChat⟩ := hm
      refine ⟨rfl, hnone, Status.noConfusion, Redis.root_of_isUnused hunused, ?_,
        (Option.all_eq_true _ _).mp hfileChat⟩
      rintro _ ⟨⟩
      exact ⟨rootJob, hroot, hkind⟩
    case enqueueJob => cases hm
    all_goals exact hbears.elim
  all_goals exact hbears.elim

/-- **A handler that enqueues a job completes nothing.** -/
theorem grows_enqueueJob (h : s.Usual) {a : EnqueueArgs} {uuid : JobId}
    (hown : a.jobIdOverride = none) (hroot : a.rootJobId = none) (hunused : s.isUnused uuid = true)
    (hfileChat : tellsWhole a.fileChat = true) :
    s.Grows C (fun k => k = uuid) (alone (enqueueJob cfg a uuid) s).2 := by
  have hnone := Redis.job?_of_isUnused hunused
  have hchanged : s.Changed cfg (fun _ _ => False) (Move.Born cfg s (.op (.enqueueJob a uuid))) _ :=
    changed_enqueueJob h.keyed a uuid fun _ => hnone
  rw [apply_enqueueJob] at hchanged
  refine .of_changed hchanged (fun _ _ hmay => hmay.elim) ?_
  rintro k new - ⟨b, modelInfo, targetKind, rfl, rfl, rfl⟩
  rw [hown]
  refine ⟨rfl, hnone, Status.noConfusion, Redis.root_of_isUnused hunused, fun rootJobId hsome => ?_,
    ?_⟩
  · rw [show (newJob cfg b _ modelInfo targetKind s.clockMs).rootJobId = b.rootJobId from rfl,
      hroot] at hsome
    cases hsome
  · exact (Option.all_eq_true _ _).mp hfileChat

/-! ### Reports that may be cut short -/

/-- A plain command writes no record. -/
theorem jobs_exec {E : Event → Prop} {c : Cmd} (hc : c.IsPlain E) (s : Redis) :
    (soloExec c s).2.jobs = s.jobs := by
  cases c
  case write ws =>
    have hwrites : ∀ ws : List Write, (∀ w ∈ ws, w.IsPlain E) → ∀ s : Redis,
        (s.writes ws).jobs = s.jobs := by
      intro ws
      induction ws with
      | nil => exact fun _ _ => rfl
      | cons w ws ih =>
        intro hws s
        have hplain := hws w List.mem_cons_self
        refine (ih (fun w' hw' => hws w' (List.mem_cons_of_mem w hw')) (s.write w)).trans ?_
        cases w
        case set => exact hplain.elim
        all_goals rfl
    exact hwrites ws hc s
  case brpoplpush source destination =>
    show (s.brpoplpush source destination).2.jobs = s.jobs
    unfold Redis.brpoplpush
    split <;> rfl
  all_goals rfl

/-- Wherever the program is cut, the records have come out of those before the step. -/
abbrev Grows (C : JobId → Text → Prop) (B : JobId → Prop) (s : Redis) (p : Gw α)
    (s₁ : Redis) : Prop :=
  p.Throughout soloStore 0 (s.Grows C B) s₁

/-- A plain program writes no record. -/
theorem grows_plain {p : Gw α} (h : Plain (fun _ => True) p) (hs : s.Grows C B s₁) :
    Grows C B s p s₁ :=
  h.throughout (fun _ s₂ hc hs₂ => hs₂.congr (jobs_exec hc s₂)) hs

theorem grows_saveJob (hs : s.Grows C B s₁) (hold : s.job? k = some old) (hid : old.id = k)
    (hgrown : Grown C old new) : Grows C B s (saveJob new) s₁ :=
  Program.throughout_send hs (hs.set hold hid hgrown)

/-- The root that ends with its child. -/
theorem grows_synthesizeRootTerminalState (h : s.Usual) {child : Job}
    (hs : s.Grows C B s₁)
    (hsame : ∀ rootJobId, rootJobId ≠ child.id → s₁.job? rootJobId = s.job? rootJobId)
    (hroot : ∀ rootJobId root, child.rootJobId = some rootJobId → rootJobId ≠ child.id →
      s.job? rootJobId = some root → root.jobKind = .parse)
    (status : Status) (stage : LifecycleStage) (event : Event) :
    Grows C B s (synthesizeRootTerminalState child status stage event) s₁ := by
  unfold synthesizeRootTerminalState
  split
  · exact Program.throughout_pure _ hs
  next rootJobId hrootJobId =>
  split
  · exact Program.throughout_pure _ hs
  next hne =>
  refine Program.Throughout.bind (Program.throughout_send hs hs) ?_
  show Grows C B s _ s₁
  have hread : ((getJob rootJobId).run soloStore 0 s₁).1 = s.job? rootJobId := hsame rootJobId hne
  rw [hread]
  rcases hfound : s.job? rootJobId with _ | rootJob
  · exact Program.throughout_pure _ hs
  dsimp only
  split
  · exact Program.throughout_pure _ hs
  refine Program.Throughout.bind (Program.throughout_send hs hs) ?_
  have hgrown : ∀ nowMs, Grown C rootJob (rootTerminalRecord rootJob child status stage nowMs) :=
    fun nowMs => .of_parse rfl (hroot rootJobId rootJob hrootJobId hne hfound)
  have hsave := grows_saveJob hs hfound (h.keyed rootJobId rootJob hfound) (hgrown s₁.clockMs)
  exact hsave.bind (grows_plain (plain_appendEvent rootJobId trivial) hsave.run)

/-- **The end of a job**, cut short anywhere. -/
theorem grows_finishJob (h : s.Usual) (hold : s.job? k = some old) (hgrown : Grown C old new)
    (status : Status) (stage : LifecycleStage) (body : EventBody) (workerId : Option WorkerId) :
    Grows C B s (finishJob new status stage body workerId) s := by
  have hid := h.keyed k old hold
  have hid' : new.id = k := (congrArg JobSpec.id hgrown.spec).trans hid
  have hsave : Grows C B s (saveJob new) s :=
    grows_saveJob (.of_sub h.keyed fun _ _ hjob => hjob) hold hid hgrown
  refine hsave.bind ?_
  have hevent : Grows C B s (appendEvent new.id (Event.bare body)) _ :=
    grows_plain (plain_appendEvent new.id trivial) hsave.run
  refine hevent.bind ?_
  have hroot : Grows C B s (synthesizeRootTerminalState new status stage (Event.bare body)) _ :=
    grows_synthesizeRootTerminalState h hevent.run ?_ ?_ status stage (Event.bare body)
  · refine hroot.bind ?_
    have hrelease := grows_plain (plain_releaseReservedCapacity new) hroot.run
    refine hrelease.bind ?_
    have hleave := grows_plain
      (plain_removeFromProcessing (orWorker workerId new.assignedWorkerId) new.id) hrelease.run
    exact hleave.bind (grows_plain (plain_write (w := .zrem new.id) trivial) hleave.run)
  · intro rootJobId hne
    exact (Redis.job?_set s new rootJobId).trans (if_neg hne)
  · intro rootJobId root hrootJobId hne hfound
    rw [congrArg JobSpec.rootJobId hgrown.spec] at hrootJobId
    rw [hid'] at hne
    exact h.root k old rootJobId root hold hrootJobId hne hfound

theorem grows_markJobCompleted (h : s.Usual) (jobId : JobId) (responseText : Text)
    (workerId : Option WorkerId) :
    Grows (fun k text => k = jobId ∧ text = responseText) B s
      (markJobCompleted jobId responseText workerId) s := by
  have hsame : s.Grows (fun k text => k = jobId ∧ text = responseText) B s :=
    .of_sub h.keyed fun _ _ hjob => hjob
  refine Program.Throughout.bind (Program.throughout_send hsame hsame) ?_
  have hreply : Program.run soloStore 0 (getJob jobId) s = (s.job? jobId, s) := rfl
  rw [hreply]
  rcases hjob : s.job? jobId with _ | job
  · exact Program.throughout_pure _ hsame
  · refine Program.Throughout.bind (Program.throughout_send hsame hsame) ?_
    have hgrown : Grown (fun k text => k = jobId ∧ text = responseText) job
        (completedRecord job responseText s.clockMs) :=
      ⟨rfl, fun _ _ => .inr ⟨responseText, rfl, h.keyed jobId job hjob, rfl⟩⟩
    exact grows_finishJob h hjob hgrown _ _ _ _

theorem grows_markJobFailed (h : s.Usual) (jobId : JobId) (errorText : Text)
    (workerId : Option WorkerId) : Grows C B s (markJobFailed jobId errorText workerId) s := by
  have hsame : s.Grows C B s := .of_sub h.keyed fun _ _ hjob => hjob
  refine Program.Throughout.bind (Program.throughout_send hsame hsame) ?_
  have hreply : Program.run soloStore 0 (getJob jobId) s = (s.job? jobId, s) := rfl
  rw [hreply]
  rcases hjob : s.job? jobId with _ | job
  · exact Program.throughout_pure _ hsame
  · refine Program.Throughout.bind (Program.throughout_send hsame hsame) ?_
    have hgrown : Grown C job (failedRecord job errorText s.clockMs) :=
      .of_status rfl Status.noConfusion
    exact grows_finishJob h hjob hgrown _ _ _ _

theorem grows_markJobCancelled (h : s.Usual) (jobId : JobId) (workerId : Option WorkerId) :
    Grows C B s (markJobCancelled jobId workerId) s := by
  have hsame : s.Grows C B s := .of_sub h.keyed fun _ _ hjob => hjob
  refine Program.Throughout.bind (Program.throughout_send hsame hsame) ?_
  have hreply : Program.run soloStore 0 (getJob jobId) s = (s.job? jobId, s) := rfl
  rw [hreply]
  rcases hjob : s.job? jobId with _ | job
  · exact Program.throughout_pure _ hsame
  dsimp only
  split
  · exact Program.throughout_pure _ hsame
  · refine Program.Throughout.bind (Program.throughout_send hsame hsame) ?_
    have hgrown : Grown C job (cancelledRecord job s.clockMs) := .of_status rfl Status.noConfusion
    exact grows_finishJob h hjob hgrown _ _ _ _

end Gateway

end AiAgent

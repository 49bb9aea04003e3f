import AiAgent.Worker.Child
import AiAgent.Worker.Terminal

/-!
# A cancel that was accepted is kept

`cancel_job` accepts the cancel of a running job by storing its record with `cancel_requested`.
Everybody else stores whole records too, made from what was read before. If those operations are
attentive (`AiAgent.Worker.Attentive`) – the flag was not stored since the client last found the
job live without it, and `claim_dispatch_job` finds no ended job whose cancel was accepted – then
the flag stays until the job has ended, and no child is created for the job any more
(`AiAgent.Worker.cancelKept_of_attentive`). Without that a lease renewal takes the flag back
(`AiAgent.Worker.not_cancelKept_renewal`).

The argument is that of `AiAgent.Command.Sticks` for the mark "cancel requested", where a record
keeps the mark by bearing it or by saying that the job has ended.
-/

namespace AiAgent

namespace Worker

open Command Gateway

/-! ### The operations, and what they are asked -/

/-- The record bears the cancel flag. -/
def isFlagged (job : Job) : Bool := job.cancelRequested

/-- The record bears the flag, or the job has ended. -/
def isOver (job : Job) : Bool := job.cancelRequested || hasEnded job

/-- `cancel_job` and the operations that may be under way when it comes. -/
def Work.meetsCancel : Work → Bool
  | .gateway (.cancelJob ..) | .gateway (.renewJobLease ..) | .gateway (.claimDispatchJob ..)
  | .gateway (.markJobWaitingOnChild ..) | .gateway .requeueStaleJobs | .serve .. => true
  | _ => false

/-- The operations that claim a job. -/
def Work.claims : Work → Bool
  | .gateway (.claimDispatchJob ..) | .serve .. => true
  | _ => false

/-- The operations among them that look at no status are those that claim. -/
theorem mode_of_meetsCancel {op : Work} (h : op.meetsCancel = true) :
    op.mode = .careful ∨ op.mode = .keeping ∨ (op.mode ≠ .enqueueing ∧ op.claims = true) := by
  cases op with
  | serve => simp [Work.mode, Work.claims]
  | gateway o => cases o <;> simp [Work.meetsCancel, Work.mode, Work.claims] at h ⊢

/-- The job has borne the flag, at the start or since. -/
def everFlagged (s₀ : Redis) (w : Plane) (j : JobId) : Bool :=
  (s₀.job? j).any isFlagged || w.log.any fun e => jobRecords.marks isFlagged j e.act

/-- The flag was not stored since the client last found the job live without it. -/
def unflaggedSince (w : Plane) (i : ℕ) (j : JobId) : Bool :=
  jobRecords.undisturbed isFlagged isOver i j w.log

/-- A step is attentive. A client that stores a live record without the flag has not been
overtaken by the flag, and if it claims a job it has found it live, or the cancel of the job never
was accepted. A client that creates a child of a root has not been overtaken by the root's
flag. -/
def Attentive (s₀ : Redis) (w : Plane) (e : Entry redisSig Work Outcome) : Prop :=
  (jobRecords.savedBy e.act).all (fun job =>
    (isOver job || (unflaggedSince w e.client job.id &&
      (!e.op.claims || jobRecords.sighted isOver e.client job.id w.log ||
        !everFlagged s₀ w job.id))) &&
    job.rootJobId.all fun r => !pushesChildOf r e.act || unflaggedSince w e.client r) = true

/-- The operations, in any interleaving. -/
def cancelMoves : Rules redisSig Redis Work Outcome where
  starts op := op.meetsCancel = true
  guard _ _ := True

/-- The operations, in the interleavings whose steps are attentive. -/
def attentiveMoves (s₀ : Redis) : Rules redisSig Redis Work Outcome where
  starts op := op.meetsCancel = true
  guard := Attentive s₀

instance (op : Work) : Decidable (cancelMoves.starts op) :=
  inferInstanceAs (Decidable (_ = true))

instance (w : Plane) (e : Entry redisSig Work Outcome) : Decidable (cancelMoves.guard w e) :=
  inferInstanceAs (Decidable True)

instance (s₀ : Redis) (op : Work) : Decidable ((attentiveMoves s₀).starts op) :=
  inferInstanceAs (Decidable (_ = true))

instance (s₀ : Redis) (w : Plane) (e : Entry redisSig Work Outcome) :
    Decidable ((attentiveMoves s₀).guard w e) := inferInstanceAs (Decidable (_ = true))

/-- **The cancel is kept**, from the world `w` to the later world `w'`. -/
structure CancelKept (w w' : Plane) : Prop where
  /-- Until the job has ended, its record bears the flag. -/
  flag : ∀ j old, w.shared.job? j = some old → old.cancelRequested = true →
    ∀ new, w'.shared.job? j = some new → new.status.isTerminal = false →
      new.cancelRequested = true
  /-- No child is created for it. -/
  childless : ∀ r old, w.shared.job? r = some old → old.cancelRequested = true →
    ∀ newer, w'.log = newer ++ w.log → ∀ e ∈ newer, pushesChildOf r e.act = false

/-! ### The invariant -/

/-- The invariant: the flag sticks, and whenever a child was pushed its root had not borne the
flag until then. -/
structure Heard (s₀ : Redis) (w : Plane) (g : ℕ → View) : Prop where
  /-- The views fit the history. -/
  watching : WatchingJobs s₀ w g
  /-- The flag sticks. -/
  sticks : Sticks jobRecords s₀ isFlagged isOver (fun _ u => isOver u = true) w
  /-- A child is pushed only while its root does not bear the flag. -/
  pushes : ∀ newer e older, w.log = newer ++ e :: older → ∀ r, pushesChildOf r e.act = true →
    ∀ v, jobRecords.Was s₀ older v → v.id = r → isFlagged v = false

theorem isOver_of_isFlagged {job : Job} (h : isFlagged job = true) : isOver job = true := by
  unfold isOver
  rw [show job.cancelRequested = true from h, Bool.true_or]

/-- A job that never bore the flag never bore the flag. -/
theorem not_flagged_of_never {s₀ : Redis} {w : Plane} {j : JobId} {v : Job}
    (h : everFlagged s₀ w j = false) (hv : jobRecords.Was s₀ w.log v) (hid : v.id = j) :
    isFlagged v = false := by
  rw [everFlagged, Bool.or_eq_false_iff] at h
  subst hid
  rcases hv with hv | ⟨e, he, hsaved⟩
  · have hany := h.1
    rw [show s₀.job? v.id = some v from hv, Option.any_some] at hany
    exact hany
  · by_contra hflag
    have hmarks : jobRecords.marks isFlagged v.id e.act = true :=
      Records.marks_iff.mpr ⟨v, hsaved, rfl, by simpa using hflag⟩
    have hany := List.any_eq_false.mp h.2 e he
    exact hany hmarks

namespace Heard

variable {s₀ : Redis} {w : Plane} {g : ℕ → View} {i : ℕ} {op : Work}

/-- A client that has found the job without the flag, with nobody setting the flag since, knows
that it never was set. -/
theorem never (h : Heard s₀ w g) {j : JobId} (hsighted : jobRecords.sighted isOver i j w.log = true)
    (hsince : unflaggedSince w i j = true) {v : Job} (hv : jobRecords.Was s₀ w.log v)
    (hid : v.id = j) : isFlagged v = false :=
  h.sticks.never hsighted hsince hv hid

/-- **The storing step.** Whoever stores a live record without the flag, and claims no ended job,
has found the job live without the flag. -/
theorem sighted_of_save {cfg : Settings} (h : Heard s₀ w g) {c : Cmd} {k : c.Reply → Gw Outcome}
    (hi : w.tasks i = some ⟨op, .ask c k⟩) (hop : op.meetsCancel = true)
    (hmay : (watch cfg (fun _ => True) fun _ => True).may (g i) c) {job : Job}
    (hsaved : jobRecords.saved c = some job) (hlive : isOver job = false)
    (hclaims : op.claims = false) : jobRecords.sighted isOver i job.id w.log = true := by
  have hmode : (g i).mode = op.mode := h.watching.mode i _ hi
  obtain ⟨ws, rfl⟩ : ∃ ws, c = .write ws := by
    cases c with
    | write ws => exact ⟨ws, rfl⟩
    | _ => cases hsaved
  have hstored : stored ws = some job := hsaved
  cases hmay with
  | neutral hnone _ =>
    rw [hnone] at hstored
    cases hstored
  | close _ _ => cases hstored
  | create _ _ _ hcreates =>
    have hcreator : (g i).mode = .enqueueing ∨ (g i).mode = .parsing :=
      hcreates.imp And.left And.left
    rw [hmode] at hcreator
    rcases mode_of_meetsCancel hop with hm | hm | ⟨-, hm⟩
    · simp [hm] at hcreator
    · simp [hm] at hcreator
    · rw [hm] at hclaims
      cases hclaims
  -- The client saves what it has read and may take no mark back, so what it read was not over
  -- either.
  | save hsaves =>
    cases hstored
    obtain ⟨old, hseen, hallows, hflag⟩ := hsaves.seen
    rw [isOver, Bool.or_eq_false_iff] at hlive
    refine h.watching.sighted_of_seen hi hseen ?_
    rw [Option.any_some, isOver, Bool.or_eq_false_iff]
    refine ⟨?_, ?_⟩
    · by_contra hold
      rw [hflag (by simpa using hold)] at hlive
      cases hlive.1
    · rw [hmode] at hallows
      rcases mode_of_meetsCancel hop with hm | hm | ⟨-, hm⟩
      · rw [hm] at hallows
        exact hallows
      · rw [hm] at hallows
        exact (hasEnded_congr hallows).symm.trans hlive.2
      · rw [hm] at hclaims
        cases hclaims

/-- What an attentive step stores keeps the flag. -/
theorem isOver_of_save {cfg : Settings} (h : Heard s₀ w g) {c : Cmd} {k : c.Reply → Gw Outcome}
    {r : c.Reply} (hi : w.tasks i = some ⟨op, .ask c k⟩) (hop : op.meetsCancel = true)
    (hmay : (watch cfg (fun _ => True) fun _ => True).may (g i) c)
    (hg : Attentive s₀ w ⟨i, op, .command c r⟩) {job : Job}
    (hsaved : jobRecords.saved c = some job) {v : Job} (hv : jobRecords.Was s₀ w.log v)
    (hid : v.id = job.id) (hflag : isFlagged v = true) : isOver job = true := by
  by_contra hlive
  rw [Bool.not_eq_true] at hlive
  have hattentive := hg
  rw [Attentive,
    show jobRecords.savedBy (.command c r : Act redisSig Outcome) = some job from hsaved,
    Option.all_some, Bool.and_eq_true, hlive, Bool.false_or, Bool.and_eq_true] at hattentive
  obtain ⟨⟨hsince, hclaim⟩, -⟩ := hattentive
  have hsighted : jobRecords.sighted isOver i job.id w.log = true ∨
      everFlagged s₀ w job.id = false := by
    cases hclaims : op.claims with
    | false => exact .inl (h.sighted_of_save hi hop hmay hsaved hlive hclaims)
    | true =>
      simp only [hclaims, Bool.not_true, Bool.false_or, Bool.or_eq_true, Bool.not_eq_true']
        at hclaim
      exact hclaim
  rcases hsighted with hsighted | hnever
  · rw [h.never hsighted hsince hv hid] at hflag
    cases hflag
  · rw [not_flagged_of_never hnever hv hid] at hflag
    cases hflag

/-- **The creating step.** An attentive step creates a child only for a root that never bore the
flag. -/
theorem not_flagged_of_pushes {cfg : Settings} (h : Heard s₀ w g) {c : Cmd}
    {k : c.Reply → Gw Outcome} {r : c.Reply} (hi : w.tasks i = some ⟨op, .ask c k⟩)
    (hmay : (watch cfg (fun _ => True) fun _ => True).may (g i) c)
    (hg : Attentive s₀ w ⟨i, op, .command c r⟩) {root : JobId}
    (hpushes : pushesChildOf root (.command c r) = true) {v : Job}
    (hv : jobRecords.Was s₀ w.log v) (hid : v.id = root) : isFlagged v = false := by
  obtain ⟨job, rootJob, hsaved, hnames, -, hseen, hlive, hflag, -⟩ :=
    creates_of_pushes hmay hpushes
  have hattentive := hg
  rw [Attentive,
    show jobRecords.savedBy (.command c r : Act redisSig Outcome) = some job from hsaved,
    Option.all_some, Bool.and_eq_true, hnames, Option.all_some, hpushes, Bool.not_true,
    Bool.false_or] at hattentive
  have hsighted : jobRecords.sighted isOver i root w.log = true := by
    refine h.watching.sighted_of_seen hi hseen ?_
    rw [Option.any_some, isOver, hflag, Bool.false_or]
    exact hlive
  exact h.never hsighted hattentive.2 hv hid

theorem fresh (hs₀ : ∀ j v, s₀.job? j = some v → v.id = j) (g : ℕ → View) :
    Heard s₀ (.fresh s₀) g where
  watching := Watching.fresh hs₀ (fun _ _ _ => trivial) (fun _ _ => trivial) g
  sticks := Sticks.fresh fun _ h => isOver_of_isFlagged h
  pushes := by
    intro newer e older hlog
    cases newer with
    | nil => cases hlog
    | cons => cases hlog

/-- The history grows by an entry that pushes no child. -/
theorem pushes_cons (h : Heard s₀ w g) {e₀ : Entry redisSig Work Outcome}
    (h₀ : ∀ r, pushesChildOf r e₀.act = true →
      ∀ v, jobRecords.Was s₀ w.log v → v.id = r → isFlagged v = false) :
    ∀ newer e older, e₀ :: w.log = newer ++ e :: older → ∀ r, pushesChildOf r e.act = true →
      ∀ v, jobRecords.Was s₀ older v → v.id = r → isFlagged v = false := by
  intro newer e older hlog
  cases newer with
  | nil =>
    obtain ⟨rfl, rfl⟩ := List.cons.inj hlog
    exact h₀
  | cons e' newer => exact h.pushes newer e older (List.cons.inj hlog).2

/-- A step of a client that is no command. -/
theorem record_still (h : Heard s₀ w g) {a : Act redisSig Outcome} {s : Redis}
    {task : Option (Task redisSig Work Outcome)} {g' : ℕ → View}
    (hwatching : WatchingJobs s₀ (w.record i op a s task) g')
    (hsaved : jobRecords.savedBy a = none) (hlook : jobRecords.lookOf a = none)
    (hpushes : ∀ r, pushesChildOf r a = false) (hjobs : s.jobs = w.shared.jobs) :
    Heard s₀ (w.record i op a s task) g' := by
  have hmoves : jobRecords.Moves w.shared s a := by
    refine ⟨?_, fun j o ho => ?_⟩
    · rw [hsaved]
      exact funext fun k => Redis.job?_congr hjobs k
    · rw [hlook] at ho
      cases ho
  refine ⟨hwatching, ?_, h.pushes_cons fun r hr => ?_⟩
  · refine h.sticks.record hmoves (fun _ hv => isOver_of_isFlagged hv) (fun _ _ _ hu => hu) ?_
    intro u hu
    rw [hsaved] at hu
    cases hu
  · rw [hpushes r] at hr
    cases hr

theorem command {cfg : Settings} (h : Heard s₀ w g) {c : Cmd} {k : c.Reply → Gw Outcome}
    (hi : w.tasks i = some ⟨op, .ask c k⟩) (hop : op.meetsCancel = true)
    (hmay : (watch cfg (fun _ => True) fun _ => True).may (g i) c)
    (hg : Attentive s₀ w ⟨i, op, .command c (redisStore.exec i c w.shared).1⟩) :
    Heard s₀
      (w.record i op (.command c (redisStore.exec i c w.shared).1)
        (redisStore.exec i c w.shared).2 (some ⟨op, k (redisStore.exec i c w.shared).1⟩))
      (Function.update g i ((g i).next c (redisStore.exec i c w.shared).1)) := by
  have hmoves : jobRecords.Moves w.shared (redisStore.exec i c w.shared).2
      (.command c (redisStore.exec i c w.shared).1 : Act redisSig Outcome) :=
    moves_command (fun ws hws => by subst hws; exact hmay) i
  refine ⟨h.watching.command hi hmay, ?_, ?_⟩
  · refine h.sticks.record hmoves (fun _ hv => isOver_of_isFlagged hv) (fun _ _ _ hu => hu) ?_
    intro u hu v hv hid hflag
    exact h.isOver_of_save hi hop hmay hg hu hv hid hflag
  · exact h.pushes_cons fun r hr v hv hid => h.not_flagged_of_pushes hi hmay hg hr hv hid

end Heard

/-! ### Every run -/

theorem heard_tied (cfg : Settings) {s₀ : Redis} (hs₀ : ∀ j v, s₀.job? j = some v → v.id = j) :
    Tied (cluster cfg) (attentiveMoves s₀) (· = s₀) (watch cfg (fun _ => True) fun _ => True)
      (fun op => View.start op.mode) (fun op a _ => op.Returns (fun _ => True) a)
      (Heard s₀) where
  body := fun op hop => obeys_body (stable_true cfg) op <| by
    cases op with
    | serve => trivial
    | gateway o =>
      cases o with
      | enqueueJob _ _ => cases hop
      | markJobWaitingOnChild _ _ _ _ _ => exact fun _ _ _ => trivial
      | _ => trivial
  init := by
    rintro s rfl
    exact ⟨fun _ => View.start .careful, Heard.fresh hs₀ _⟩
  start := fun _ _ _ _ h _ _ =>
    h.record_still (h.watching.start _) rfl rfl (fun _ => rfl) rfl
  command := fun _ _ i _ c _ h hi hop hmay _ hg =>
    ⟨_, ⟨h.watching.told i c, rfl⟩, h.command hi hop hmay hg⟩
  finish := fun _ _ _ _ a h _ _ =>
    h.record_still (h.watching.finish a) rfl rfl (fun _ => rfl) rfl
  crash := fun _ _ _ _ _ h _ =>
    h.record_still h.watching.crash rfl rfl (fun _ => rfl) rfl
  outside := by
    rintro w g s h ⟨clockMs, targets, workers, catalog, -, rfl⟩
    exact ⟨h.watching.outside rfl, h.sticks.outside rfl, h.pushes⟩

/-- **Attentive operations keep the cancel**: in every run, from any world of it to any later
one. -/
theorem cancelKept_of_attentive (cfg : Settings) {s₀ : Redis}
    (hs₀ : ∀ j v, s₀.job? j = some v → v.id = j) {w w' : Plane}
    (hw : Reachable (cluster cfg) (attentiveMoves s₀) (· = s₀) w)
    (hw' : Later (cluster cfg) (attentiveMoves s₀) w w') : CancelKept w w' := by
  obtain ⟨g, h, -⟩ := hw.ghosts (heard_tied cfg hs₀)
  obtain ⟨g', h', -⟩ := (hw.later hw').ghosts (heard_tied cfg hs₀)
  refine ⟨?_, ?_⟩
  · intro j old hold hflag new hnew hlive
    have hwas := (h.watching.traced.was j old hold).mono hw'.log_suffix
    obtain ⟨u, hu, hover⟩ := h'.sticks.holds old hwas hflag
    rw [show jobRecords.key old = j from h.watching.traced.keyed j old hold] at hu
    obtain rfl : new = u := Option.some.inj (hnew.symm.trans hu)
    rw [isOver, Bool.or_eq_true] at hover
    rcases hover with hover | hover
    · exact hover
    · rw [show hasEnded new = false from hlive] at hover
      cases hover
  · intro r old hold hflag newer hlog e he
    obtain ⟨l₁, l₂, rfl⟩ := List.append_of_mem he
    by_contra hpush
    have hwas := (h.watching.traced.was r old hold).mono (List.suffix_append l₂ w.log)
    have hnot := h'.pushes l₁ e (l₂ ++ w.log) (by rw [hlog]; simp) r (by simpa using hpush) old
      hwas (h.watching.traced.keyed r old hold)
    rw [show isFlagged old = true from hflag] at hnot
    cases hnot

theorem keyed_smallPlane (clockMs : ℕ) :
    ∀ j v, (smallPlane clockMs).job? j = some v → v.id = j := by
  intro j v hv
  obtain ⟨rfl, rfl⟩ := job?_smallPlane hv
  rfl

/-- A worker that renews its lease after the cancel keeps the flag. -/
theorem cancelKept_of_attentive_renewed : ∃ w w' : Plane,
    (w.shared.job? 1).map isFlagged = some true ∧
    Later (cluster smallSettings) (attentiveMoves (smallPlane 0)) w w' ∧ w'.log.length = 11 ∧
    CancelKept w w' := by
  obtain ⟨w, w', hw, hw', hp⟩ := World.exists_of_play (Y := cluster smallSettings)
    (R := attentiveMoves (smallPlane 0)) (I := (· = smallPlane 0)) rfl
    (Turn.whole 1 (.gateway (.cancelJob 1 none)) 5)
    (Turn.whole 0 (.gateway (.renewJobLease 1)) 4)
    (p := fun w w' => (w.shared.job? 1).map isFlagged = some true ∧ w'.log.length = 11)
    (by decide +kernel)
  obtain ⟨hflag, hlength⟩ := of_decide_eq_true hp
  exact ⟨w, w', hflag, hw', hlength,
    cancelKept_of_attentive smallSettings (keyed_smallPlane 0) hw hw'⟩

/-- A worker reads the record to renew its lease, the cancel is accepted, and the worker stores
the record as it read it: the flag is gone. -/
theorem not_cancelKept_renewal : ¬ ∀ w w' : Plane,
    Reachable (cluster smallSettings) cancelMoves (· = smallPlane 0) w →
    Later (cluster smallSettings) cancelMoves w w' → CancelKept w w' := by
  intro h
  obtain ⟨w, w', hw, hw', hp⟩ := World.exists_of_play (Y := cluster smallSettings)
    (R := cancelMoves) (I := (· = smallPlane 0)) rfl
    (Turn.whole 0 (.gateway (.renewJobLease 1)) 1 ++
      Turn.whole 1 (.gateway (.cancelJob 1 none)) 5)
    (List.replicate 2 (.next 0))
    (p := fun w w' => (w.shared.job? 1).any isFlagged &&
      (w'.shared.job? 1).any fun job => job.status = .running && !isFlagged job)
    (by decide +kernel)
  obtain ⟨hflagged, hlost⟩ := Bool.and_eq_true_iff.mp hp
  obtain ⟨old, hold, hflag⟩ := (Option.any_eq_true _ _).mp hflagged
  obtain ⟨new, hnew, hrunning⟩ := (Option.any_eq_true _ _).mp hlost
  obtain ⟨hstatus, hbare⟩ := Bool.and_eq_true_iff.mp hrunning
  have hkept := (h w w' hw hw').flag 1 old hold hflag new hnew
    (by rw [of_decide_eq_true hstatus]; rfl)
  rw [isFlagged, hkept] at hbare
  cases hbare

end Worker

end AiAgent

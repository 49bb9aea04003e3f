import AiAgent.Worker.Cluster

/-!
# The end of a job is final

Nine operations of the gateway store job records, most of them without the job's lock. If each of
them is heedful (`AiAgent.Worker.Heedful`) – nobody has stored the end of the job since the
client last found it live, and `mark_job_completed`, `mark_job_failed` and `claim_dispatch_job`,
which do not look at the status, have found it live at all – then no record that says a job has
ended is ever followed by one with another status, and no stream is closed twice
(`AiAgent.Worker.settled_of_heedful`). Without that both happen
(`AiAgent.Worker.not_settled_lateCompletion`).

The argument is that of `AiAgent.Command.Sticks` for the mark "has ended", with the status for
what is kept. For the streams there is a debt: an operation that has stored the end of a live job
owes the closing of its stream, and no two operations owe the same (`AiAgent.Worker.Final`).
-/

namespace AiAgent

namespace Worker

open Command Gateway

/-! ### The nine operations, and what they are asked -/

/-- The record says the job has ended. -/
def hasEnded (job : Job) : Bool := job.status.isTerminal

/-- How often the stream of a job was closed. -/
def closings (s : Redis) (jobId : JobId) : ℕ := (s.events jobId).countP Event.isDone

/-- The operations that move a job through its life. -/
def Work.movesJobs : Work → Bool
  | .gateway (.tryAdmitJob ..) | .gateway (.claimDispatchJob ..) | .gateway (.renewJobLease ..)
  | .gateway (.cancelJob ..) | .gateway (.markJobCompleted ..) | .gateway (.markJobFailed ..)
  | .gateway (.markJobCancelled ..) | .gateway (.markJobWaitingOnChild ..)
  | .gateway .requeueStaleJobs => true
  | _ => false

/-- The operations among them that store a record without a look at the status. -/
def Work.ignoresStatus : Work → Bool
  | .gateway (.claimDispatchJob ..) | .gateway (.markJobCompleted ..)
  | .gateway (.markJobFailed ..) => true
  | _ => false

/-- None of the nine creates a job, and those that do not look are the three. -/
theorem mode_of_movesJobs {op : Work} (h : op.movesJobs = true) :
    op.mode = .careful ∨ op.mode = .keeping ∨ (op.mode = .blind ∧ op.ignoresStatus = true) := by
  cases op with
  | serve => cases h
  | gateway o => cases o <;> simp [Work.movesJobs, Work.mode, Work.ignoresStatus] at h ⊢

/-- A step that stores a record of a job is heedful: the end of the job was not stored since the
client last found it live; and a client that does not look at the status has found it live. -/
def Heedful (w : Plane) (e : Entry redisSig Work Outcome) : Prop :=
  (jobRecords.savedBy e.act).all (fun job =>
    jobRecords.undisturbed hasEnded hasEnded e.client job.id w.log &&
      (!e.op.ignoresStatus || jobRecords.sighted hasEnded e.client job.id w.log)) = true

instance (w : Plane) (e : Entry redisSig Work Outcome) : Decidable (Heedful w e) :=
  inferInstanceAs (Decidable (_ = true))

theorem heedful_iff {w : Plane} {e : Entry redisSig Work Outcome} :
    Heedful w e ↔ ∀ job, jobRecords.savedBy e.act = some job →
      jobRecords.undisturbed hasEnded hasEnded e.client job.id w.log = true ∧
      (e.op.ignoresStatus = true →
        jobRecords.sighted hasEnded e.client job.id w.log = true) := by
  unfold Heedful
  rw [Option.all_eq_true]
  simp only [Bool.and_eq_true, Bool.or_eq_true, Bool.not_eq_true', ← Bool.not_eq_true,
    Decidable.imp_iff_not_or]

/-- The nine operations, in any interleaving. -/
def jobMoves : Rules redisSig Redis Work Outcome where
  starts op := op.movesJobs = true
  guard _ _ := True

/-- The nine operations, in the interleavings whose steps are heedful. -/
def heedfulMoves : Rules redisSig Redis Work Outcome where
  starts op := op.movesJobs = true
  guard := Heedful

/-- A store a run may start from: records under their own ids, and no stream closed but once, and
that of a job that has ended. -/
structure Consistent (s : Redis) : Prop where
  /-- A record is found under its own id. -/
  keyed : ∀ j v, s.job? j = some v → v.id = j
  /-- A stream that is closed is that of a job that has ended. -/
  closed : ∀ j, closings s j = 0 ∨
    (closings s j = 1 ∧ ∃ v, s.job? j = some v ∧ hasEnded v = true)

/-- **The end is final**, from the world `w` to the later world `w'`. -/
structure Settled (w w' : Plane) : Prop where
  /-- A job that has ended keeps the status it has ended with. -/
  absorbing : ∀ j old, w.shared.job? j = some old → hasEnded old = true →
    ∃ new, w'.shared.job? j = some new ∧ new.status = old.status
  /-- No stream is closed twice. -/
  closedOnce : ∀ j, closings w'.shared j ≤ 1

/-! ### Closing a stream -/

section Closings

variable {cfg : Settings} {V : Job → Prop} {t : View} {s : Redis}

theorem closings_write_of_not_closes {x : Write} (h : x.closes? = none) (j : JobId) :
    closings (s.write x) j = closings s j := by
  cases x with
  | xadd jobId event =>
    have hdone : event.isDone = false := by
      by_contra hdone
      simp [Write.closes?, hdone] at h
    show ((Function.update s.events jobId (s.events jobId ++ [event])) j).countP _ = _
    rcases eq_or_ne j jobId with rfl | hj
    · rw [Function.update_self, List.countP_append]
      simp [closings, hdone]
    · rw [Function.update_of_ne hj]
      rfl
  | _ => rfl

theorem closings_writes_of_not_closes {ws : List Write} (h : ws.findSome? Write.closes? = none)
    (j : JobId) : closings (s.writes ws) j = closings s j := by
  induction ws generalizing s with
  | nil => rfl
  | cons x ws ih =>
    rw [List.findSome?_cons] at h
    cases hx : x.closes? with
    | some jobId =>
      rw [hx] at h
      cases h
    | none =>
      rw [hx] at h
      rw [Redis.writes_cons, ih h, closings_write_of_not_closes hx]

theorem closings_close {jobId : JobId} {event : Event} (hdone : event.isDone = true) (j : JobId) :
    closings (s.writes [.xadd jobId event]) j = closings s j + if j = jobId then 1 else 0 := by
  show ((Function.update s.events jobId (s.events jobId ++ [event])) j).countP _ = _
  rcases eq_or_ne j jobId with rfl | hj
  · rw [Function.update_self, List.countP_append, if_pos rfl]
    simp [closings, hdone]
  · rw [Function.update_of_ne hj, if_neg hj]
    rfl

/-- Only a transaction closes a stream. -/
theorem closings_exec {c : Cmd} (h : ∀ ws, c = .write ws → ws.findSome? Write.closes? = none)
    (i : ℕ) (j : JobId) : closings (redisStore.exec i c s).2 j = closings s j := by
  cases c with
  | write ws => exact closings_writes_of_not_closes (h ws rfl) j
  | brpoplpush source destination =>
    show closings (s.brpoplpush source destination).2 j = closings s j
    unfold Redis.brpoplpush
    cases (s.queues source).getLast? <;> rfl
  | _ => rfl

/-- A permitted command closes no stream, or it is the closing of the stream the operation owes. -/
theorem closes_cases {c : Cmd} (hmay : (watch cfg V fun _ => True).may t c) :
    (∀ ws, c = .write ws → ws.findSome? Write.closes? = none) ∨
    ∃ jobId event, c = .write [.xadd jobId event] ∧ event.isDone = true ∧
      t.owes = some jobId := by
  cases c with
  | write ws =>
    cases hmay with
    | neutral _ hcloses => exact .inl fun ws' h => by cases h; exact hcloses
    | save _ => exact .inl fun ws' h => by cases h; rfl
    | close hdone howes => exact .inr ⟨_, _, rfl, hdone, howes⟩
    | create _ _ _ _ => exact .inl fun ws' h => by cases h; rfl
  | _ => exact .inl fun ws' h => by cases h

/-- What an operation owes after a command that closes no stream. -/
theorem owes_next {c : Cmd} {r : c.Reply}
    (hcloses : ∀ ws, c = .write ws → ws.findSome? Write.closes? = none) {j : JobId}
    (h : (t.next c r).owes = some j) : t.owes = some j ∨
      ∃ v, jobRecords.saved c = some v ∧ v.id = j ∧ hasEnded v = true ∧ t.mode ≠ .keeping := by
  cases c with
  | write ws =>
    simp only [View.next, View.wrote] at h
    cases hstored : stored ws with
    | none =>
      rw [hstored] at h
      simp only [hcloses ws rfl, if_true] at h
      exact .inl h
    | some v =>
      rw [hstored] at h
      simp only [View.save] at h
      by_cases hends : v.status.isTerminal = true ∧ t.mode ≠ .keeping
      · rw [if_pos hends] at h
        cases h
        exact .inr ⟨v, hstored, rfl, hends⟩
      · rw [if_neg hends] at h
        exact .inl h
  | lock l => cases l <;> exact .inl h
  | unlock l => cases l <;> exact .inl h
  | _ => exact .inl h

end Closings

/-! ### The invariant -/

/-- Nothing is asked of the links. -/
abbrev WatchingJobs (s₀ : Redis) (w : Plane) (g : ℕ → View) : Prop :=
  Watching (fun _ => True) (fun _ => True) s₀ w g

/-- The invariant: the end of a job sticks, a stream is closed only once its job has ended, and
what is owed is owed by one client, for a job that has ended and whose stream is open. -/
structure Final (s₀ : Redis) (w : Plane) (g : ℕ → View) : Prop where
  /-- The views fit the history. -/
  watching : WatchingJobs s₀ w g
  /-- The end of a job sticks. -/
  sticks : Sticks jobRecords s₀ hasEnded hasEnded (fun v u => u.status = v.status) w
  /-- A stream is closed once, and after the end of its job. -/
  closed : ∀ j, closings w.shared j = 0 ∨
    (closings w.shared j = 1 ∧ ∃ v, w.shared.job? j = some v ∧ hasEnded v = true)
  /-- A stream that is still to be closed is open, and its job has ended. -/
  owing : ∀ i task, w.tasks i = some task → ∀ j, (g i).owes = some j →
    closings w.shared j = 0 ∧ ∃ v, w.shared.job? j = some v ∧ hasEnded v = true
  /-- Nobody else owes it. -/
  owner : ∀ i task, w.tasks i = some task → ∀ i' task', w.tasks i' = some task' →
    ∀ j, (g i).owes = some j → (g i').owes = some j → i = i'

theorem hasEnded_congr {u v : Job} (h : u.status = v.status) : hasEnded u = hasEnded v := by
  unfold hasEnded
  rw [h]

namespace Final

variable {s₀ : Redis} {w : Plane} {g : ℕ → View} {i : ℕ} {op : Work}

/-- A step that changes neither records nor streams. -/
theorem record_still (h : Final s₀ w g) {a : Act redisSig Outcome} {s : Redis}
    {task : Option (Task redisSig Work Outcome)} {t : View}
    (hsaved : jobRecords.savedBy a = none) (hlook : jobRecords.lookOf a = none)
    (hjobs : s.jobs = w.shared.jobs) (hevents : s.events = w.shared.events)
    (hself : ∀ task', task = some task' → (∀ k o, ¬ t.seen k o) ∧ t.mode = task'.op.mode)
    (howes : task ≠ none → t.owes = none) :
    Final s₀ (w.record i op a s task) (Function.update g i t) := by
  have hcurrent : Redis.job? s = Redis.job? w.shared :=
    funext fun k => Redis.job?_congr hjobs k
  have hclosings : ∀ j, closings s j = closings w.shared j := by
    intro j
    unfold closings
    rw [hevents]
  have hmoves : jobRecords.Moves w.shared s a := by
    refine ⟨?_, fun j o ho => ?_⟩
    · rw [hsaved]
      exact hcurrent
    · rw [hlook] at ho
      cases ho
  -- A client that owes something has owed it before.
  have hold : ∀ j task', (w.record i op a s task).tasks j = some task' →
      ∀ k, (Function.update g i t j).owes = some k →
      (∃ task₀, w.tasks j = some task₀) ∧ (g j).owes = some k := by
    intro j task' htask k hk
    rw [World.record_tasks] at htask
    rcases eq_or_ne j i with rfl | hj
    · rw [Function.update_self] at htask hk
      rw [howes (by rw [htask]; exact nofun)] at hk
      cases hk
    · rw [Function.update_of_ne hj] at htask hk
      exact ⟨⟨task', htask⟩, hk⟩
  refine ⟨h.watching.record_still hsaved hlook hjobs hself, ?_, ?_, ?_, ?_⟩
  · refine h.sticks.record hmoves (fun _ _ => rfl) ?_ ?_
    · intro v u hv hk
      rw [hasEnded_congr hk]
      exact hv
    · intro u hu
      rw [hsaved] at hu
      cases hu
  · intro j
    rw [World.record_shared, hclosings, hcurrent]
    exact h.closed j
  · intro j task' htask k hk
    obtain ⟨⟨task₀, htask₀⟩, hk₀⟩ := hold j task' htask k hk
    rw [World.record_shared, hclosings, hcurrent]
    exact h.owing j task₀ htask₀ k hk₀
  · intro j task' htask j' task'' htask' k hk hk'
    obtain ⟨⟨task₀, htask₀⟩, hk₀⟩ := hold j task' htask k hk
    obtain ⟨⟨task₁, htask₁⟩, hk₁⟩ := hold j' task'' htask' k hk'
    exact h.owner j task₀ htask₀ j' task₁ htask₁ k hk₀ hk₁

theorem fresh (hs₀ : Consistent s₀) (g : ℕ → View) : Final s₀ (.fresh s₀) g where
  watching := Watching.fresh hs₀.keyed (fun _ _ _ => trivial) (fun _ _ => trivial) g
  sticks := Sticks.fresh fun _ _ => rfl
  closed := hs₀.closed
  owing := fun i task hi => by cases hi
  owner := fun i task hi => by cases hi

/-- **The storing step.** Nobody who stores a record heedfully takes the end of a job back. -/
theorem status_of_save {cfg : Settings} (h : Final s₀ w g) {c : Cmd} {k : c.Reply → Gw Outcome}
    {r : c.Reply} (hi : w.tasks i = some ⟨op, .ask c k⟩) (hop : op.movesJobs = true)
    (hmay : (watch cfg (fun _ => True) fun _ => True).may (g i) c)
    (hg : Heedful w ⟨i, op, .command c r⟩) {v : Job} (hsaved : jobRecords.saved c = some v) :
    (∀ u, jobRecords.Was s₀ w.log u → u.id = v.id → hasEnded u = true → v.status = u.status) ∧
    ((g i).mode ≠ .keeping → ∀ u, jobRecords.Was s₀ w.log u → u.id = v.id →
      hasEnded u = false) := by
  obtain ⟨hundisturbed, hsighted⟩ := heedful_iff.mp hg v hsaved
  have hmode := h.watching.mode i _ hi
  have hnever : jobRecords.sighted hasEnded i v.id w.log = true →
      ∀ u, jobRecords.Was s₀ w.log u → u.id = v.id → hasEnded u = false :=
    fun hs u hu hid => h.sticks.never hs hundisturbed hu hid
  obtain ⟨ws, rfl⟩ : ∃ ws, c = .write ws := by
    cases c with
    | write ws => exact ⟨ws, rfl⟩
    | _ => cases hsaved
  have hstored : stored ws = some v := hsaved
  cases hmay with
  | neutral hnone _ =>
    rw [hnone] at hstored
    cases hstored
  | close _ _ => cases hstored
  | create _ _ _ hcreates =>
    -- None of the nine operations creates a record.
    have hcreator : (g i).mode = .enqueueing ∨ (g i).mode = .parsing :=
      hcreates.imp And.left And.left
    rw [hmode] at hcreator
    rcases mode_of_movesJobs hop with hm | hm | ⟨hm, -⟩ <;> simp [hm] at hcreator
  | save hsaves =>
    cases hstored
    obtain ⟨old, hseen, hallows, -⟩ := hsaves.seen
    obtain ⟨hid, hwas⟩ := h.watching.was_of_seen hi hseen
    have hlive : hasEnded old = false →
        ∀ u, jobRecords.Was s₀ w.log u → u.id = v.id → hasEnded u = false :=
      fun hold => hnever (h.watching.sighted_of_seen hi hseen hold)
    by_cases hkeeping : (g i).mode = .keeping
    · rw [hkeeping] at hallows
      refine ⟨?_, fun hne => absurd hkeeping hne⟩
      intro u hu huid hended
      cases hold : hasEnded old with
      | false =>
        rw [hlive hold u hu huid] at hended
        cases hended
      | true =>
        -- Both records have been in force, and the status they ended with is the one in force.
        obtain ⟨c₀, hc₀, hstatus₀⟩ := h.sticks.holds old hwas hold
        obtain ⟨c₁, hc₁, hstatus₁⟩ := h.sticks.holds u hu hended
        have hsame : c₀ = c₁ := by
          have hkey : jobRecords.key old = jobRecords.key u := hid.trans huid.symm
          rw [hkey, hc₁] at hc₀
          exact (Option.some.inj hc₀).symm
        have hkept : v.status = old.status := hallows
        rw [hkept, ← hstatus₀, hsame, hstatus₁]
    · have hall : ∀ u, jobRecords.Was s₀ w.log u → u.id = v.id → hasEnded u = false := by
        rcases mode_of_movesJobs hop with hm | hm | ⟨-, hignores⟩
        · rw [hmode, hm] at hallows
          exact hlive hallows
        · exact absurd (hmode.trans hm) hkeeping
        · exact hnever (hsighted hignores)
      refine ⟨?_, fun _ => hall⟩
      intro u hu huid hended
      rw [hall u hu huid] at hended
      cases hended

/-- What a client owes besides `i`, it has owed before. -/
theorem owed_of_ne {a : Act redisSig Outcome} {s : Redis}
    {task : Option (Task redisSig Work Outcome)} {t : View} {j : ℕ} (hj : j ≠ i)
    {task' : Task redisSig Work Outcome} (htask : (w.record i op a s task).tasks j = some task')
    {k : JobId} (hk : (Function.update g i t j).owes = some k) :
    w.tasks j = some task' ∧ (g j).owes = some k := by
  rw [World.record_tasks, Function.update_of_ne hj] at htask
  rw [Function.update_of_ne hj] at hk
  exact ⟨htask, hk⟩

/-- A step that closes no stream. -/
theorem command_of_not_closes {cfg : Settings} (h : Final s₀ w g) {c : Cmd}
    {k : c.Reply → Gw Outcome} (hi : w.tasks i = some ⟨op, .ask c k⟩)
    (hop : op.movesJobs = true) (hmay : (watch cfg (fun _ => True) fun _ => True).may (g i) c)
    (hg : Heedful w ⟨i, op, .command c (redisStore.exec i c w.shared).1⟩)
    (hsticks : Sticks jobRecords s₀ hasEnded hasEnded (fun v u => u.status = v.status)
      (w.record i op (.command c (redisStore.exec i c w.shared).1)
        (redisStore.exec i c w.shared).2 (some ⟨op, k (redisStore.exec i c w.shared).1⟩)))
    (hcloses : ∀ ws, c = .write ws → ws.findSome? Write.closes? = none) :
    Final s₀
      (w.record i op (.command c (redisStore.exec i c w.shared).1)
        (redisStore.exec i c w.shared).2 (some ⟨op, k (redisStore.exec i c w.shared).1⟩))
      (Function.update g i ((g i).next c (redisStore.exec i c w.shared).1)) := by
  have hclosings := closings_exec (s := w.shared) hcloses i
  have hended : ∀ j v, jobRecords.Was s₀ (⟨i, op, .command c (redisStore.exec i c w.shared).1⟩ ::
      w.log) v → v.id = j → hasEnded v = true →
      ∃ u, (redisStore.exec i c w.shared).2.job? j = some u ∧ hasEnded u = true := by
    rintro j v hv rfl hended
    obtain ⟨u, hu, hstatus⟩ := hsticks.holds v hv hended
    exact ⟨u, hu, by rw [hasEnded_congr hstatus]; exact hended⟩
  have hkept : ∀ j v, w.shared.job? j = some v → hasEnded v = true →
      ∃ u, (redisStore.exec i c w.shared).2.job? j = some u ∧ hasEnded u = true := by
    intro j v hv
    exact hended j v (Records.was_cons.mpr (.inl (h.watching.traced.was j v hv)))
      (h.watching.traced.keyed j v hv)
  -- What the step makes the client owe was owed by nobody, and its stream is open.
  have hnew : ∀ v, jobRecords.saved c = some v → (g i).mode ≠ .keeping →
      ∀ u, w.shared.job? v.id = some u → hasEnded u = false := by
    intro v hsaved hmode u hu
    exact (h.status_of_save hi hop hmay hg hsaved).2 hmode u (h.watching.traced.was _ u hu)
      (h.watching.traced.keyed _ u hu)
  refine ⟨h.watching.command hi hmay, hsticks, ?_, ?_, ?_⟩
  · intro j
    rw [World.record_shared, hclosings]
    rcases h.closed j with hopen | ⟨hone, v, hv, hv'⟩
    · exact .inl hopen
    · exact .inr ⟨hone, hkept j v hv hv'⟩
  · intro j task' htask k' hk
    rw [World.record_shared, hclosings]
    rcases eq_or_ne j i with rfl | hj
    · rw [Function.update_self] at hk
      rcases owes_next hcloses hk with hk | ⟨v, hsaved, rfl, hv, hmode⟩
      · obtain ⟨hopen, v, hv, hv'⟩ := h.owing j _ hi k' hk
        exact ⟨hopen, hkept k' v hv hv'⟩
      · refine ⟨?_, hended v.id v (Records.was_cons.mpr (.inr hsaved)) rfl hv⟩
        rcases h.closed v.id with hopen | ⟨-, u, hu, hu'⟩
        · exact hopen
        · rw [hnew v hsaved hmode u hu] at hu'
          cases hu'
    · obtain ⟨htask₀, hk₀⟩ := owed_of_ne hj htask hk
      obtain ⟨hopen, v, hv, hv'⟩ := h.owing j task' htask₀ k' hk₀
      exact ⟨hopen, hkept k' v hv hv'⟩
  · -- Two clients that owe the same have owed it before, or one of them has just stored the end
    -- of a job that was live, and then the other one did not owe it.
    have hmeets : ∀ j task' k', j ≠ i →
        (w.record i op (.command c (redisStore.exec i c w.shared).1)
          (redisStore.exec i c w.shared).2
          (some ⟨op, k (redisStore.exec i c w.shared).1⟩)).tasks j = some task' →
        (Function.update g i ((g i).next c (redisStore.exec i c w.shared).1) j).owes = some k' →
        ((g i).next c (redisStore.exec i c w.shared).1).owes = some k' → i = j := by
      intro j task' k' hj htask hk hki
      obtain ⟨htask₀, hk₀⟩ := owed_of_ne hj htask hk
      rcases owes_next hcloses hki with hki | ⟨v, hsaved, rfl, -, hmode⟩
      · exact h.owner i _ hi j task' htask₀ k' hki hk₀
      · obtain ⟨-, u, hu, hu'⟩ := h.owing j task' htask₀ v.id hk₀
        rw [hnew v hsaved hmode u hu] at hu'
        cases hu'
    intro j task' htask j' task'' htask' k' hk hk'
    rcases eq_or_ne j i with rfl | hj
    · rcases eq_or_ne j' j with rfl | hj'
      · rfl
      · rw [Function.update_self] at hk
        exact hmeets j' task'' k' hj' htask' hk' hk
    · rcases eq_or_ne j' i with rfl | hj'
      · rw [Function.update_self] at hk'
        exact (hmeets j task' k' hj htask hk hk').symm
      · obtain ⟨htask₀, hk₀⟩ := owed_of_ne hj htask hk
        obtain ⟨htask₁, hk₁⟩ := owed_of_ne hj' htask' hk'
        exact h.owner j task' htask₀ j' task'' htask₁ k' hk₀ hk₁

/-- A step that closes the stream the client owes. -/
theorem command_of_closes {cfg : Settings} (h : Final s₀ w g) {jobId : JobId} {event : Event}
    {k : Unit → Gw Outcome} (hi : w.tasks i = some ⟨op, .ask (.write [.xadd jobId event]) k⟩)
    (hmay : (watch cfg (fun _ => True) fun _ => True).may (g i) (.write [.xadd jobId event]))
    (hdone : event.isDone = true) (howes : (g i).owes = some jobId)
    (hsticks : Sticks jobRecords s₀ hasEnded hasEnded (fun v u => u.status = v.status)
      (w.record i op (.command (.write [.xadd jobId event]) ())
        (w.shared.writes [.xadd jobId event]) (some ⟨op, k ()⟩))) :
    Final s₀
      (w.record i op (.command (.write [.xadd jobId event]) ())
        (w.shared.writes [.xadd jobId event]) (some ⟨op, k ()⟩))
      (Function.update g i ((g i).next (.write [.xadd jobId event]) ())) := by
  -- The client owed this event, and now it owes nothing.
  have hnone : ((g i).next (.write [.xadd jobId event]) ()).owes = none := by
    simp [View.next, View.wrote, stored, Write.job?, Write.closes?, hdone]
  refine ⟨h.watching.command hi hmay, hsticks, ?_, ?_, ?_⟩
  · intro j
    rw [World.record_shared, closings_close hdone]
    rcases eq_or_ne j jobId with rfl | hj
    · obtain ⟨hopen, hended⟩ := h.owing i _ hi j howes
      rw [hopen, if_pos rfl]
      exact .inr ⟨rfl, hended⟩
    · rw [if_neg hj]
      exact h.closed j
  · intro j task' htask k' hk
    rcases eq_or_ne j i with rfl | hj
    · rw [Function.update_self, hnone] at hk
      cases hk
    · obtain ⟨htask₀, hk₀⟩ := owed_of_ne hj htask hk
      have hother : k' ≠ jobId := by
        rintro rfl
        exact hj (h.owner i _ hi j task' htask₀ k' howes hk₀).symm
      rw [World.record_shared, closings_close hdone, if_neg hother]
      exact h.owing j task' htask₀ k' hk₀
  · intro j task' htask j' task'' htask' k' hk hk'
    have hj : j ≠ i := by
      rintro rfl
      rw [Function.update_self, hnone] at hk
      cases hk
    have hj' : j' ≠ i := by
      rintro rfl
      rw [Function.update_self, hnone] at hk'
      cases hk'
    obtain ⟨htask₀, hk₀⟩ := owed_of_ne hj htask hk
    obtain ⟨htask₁, hk₁⟩ := owed_of_ne hj' htask' hk'
    exact h.owner j task' htask₀ j' task'' htask₁ k' hk₀ hk₁

theorem command {cfg : Settings} (h : Final s₀ w g) {c : Cmd} {k : c.Reply → Gw Outcome}
    (hi : w.tasks i = some ⟨op, .ask c k⟩) (hop : op.movesJobs = true)
    (hmay : (watch cfg (fun _ => True) fun _ => True).may (g i) c)
    (hg : Heedful w ⟨i, op, .command c (redisStore.exec i c w.shared).1⟩) :
    Final s₀
      (w.record i op (.command c (redisStore.exec i c w.shared).1)
        (redisStore.exec i c w.shared).2 (some ⟨op, k (redisStore.exec i c w.shared).1⟩))
      (Function.update g i ((g i).next c (redisStore.exec i c w.shared).1)) := by
  have hmoves : jobRecords.Moves w.shared (redisStore.exec i c w.shared).2
      (.command c (redisStore.exec i c w.shared).1 : Act redisSig Outcome) :=
    moves_command (fun ws hws => by subst hws; exact hmay) i
  have hsticks : Sticks jobRecords s₀ hasEnded hasEnded (fun v u => u.status = v.status)
      (w.record i op (.command c (redisStore.exec i c w.shared).1)
        (redisStore.exec i c w.shared).2 (some ⟨op, k (redisStore.exec i c w.shared).1⟩)) :=
    h.sticks.record hmoves (fun _ _ => rfl)
      (fun v u hv hk => by rw [hasEnded_congr hk]; exact hv)
      (fun v hsaved => (h.status_of_save hi hop hmay hg hsaved).1)
  rcases closes_cases hmay with hcloses | ⟨jobId, event, rfl, hdone, howes⟩
  · exact h.command_of_not_closes hi hop hmay hg hsticks hcloses
  · exact h.command_of_closes hi hmay hdone howes hsticks

end Final

/-! ### Every run -/

theorem final_tied (cfg : Settings) {s₀ : Redis} (hs₀ : Consistent s₀) :
    Tied (cluster cfg) heedfulMoves (· = s₀) (watch cfg (fun _ => True) fun _ => True)
      (fun op => View.start op.mode) (fun op a _ => op.Returns (fun _ => True) a)
      (Final s₀) where
  body := fun op hop => obeys_body (stable_true cfg) op <| by
    cases op with
    | serve => trivial
    | gateway o =>
      cases o with
      | enqueueJob _ _ => cases hop
      | markJobWaitingOnChild _ _ _ _ _ => exact fun _ _ _ => trivial
      | _ => trivial
  init := by
    rintro s rfl
    exact ⟨fun _ => View.start .careful, Final.fresh hs₀ _⟩
  start := fun w g i op h _ _ => h.record_still rfl rfl rfl rfl
    (fun task' htask => by cases htask; exact ⟨fun _ _ h => h, rfl⟩) fun _ => rfl
  command := fun w g i op c k h hi hop hmay _ hg =>
    ⟨_, ⟨h.watching.told i c, rfl⟩, h.command hi hop hmay hg⟩
  finish := fun w g i op a h _ _ => by
    have hrecord : Final s₀ (w.record i op (.finish a) w.shared none)
        (Function.update g i (g i)) :=
      h.record_still rfl rfl rfl rfl (fun task' htask => by cases htask)
        (fun hne => absurd rfl hne)
    rwa [Function.update_eq_self] at hrecord
  crash := fun w g i op p h _ => by
    have hrecord : Final s₀ (w.record i op .crash (redisStore.drop i w.shared) none)
        (Function.update g i (g i)) :=
      h.record_still rfl rfl rfl rfl (fun task' htask => by cases htask)
        (fun hne => absurd rfl hne)
    rwa [Function.update_eq_self] at hrecord
  outside := by
    rintro w g s h ⟨clockMs, targets, workers, catalog, -, rfl⟩
    exact ⟨h.watching.outside rfl, h.sticks.outside rfl, h.closed, h.owing, h.owner⟩

/-- **Heedful operations make the end of a job final**: in every run, from any world of it to any
later one. -/
theorem settled_of_heedful (cfg : Settings) {w w' : Plane}
    (hw : Reachable (cluster cfg) heedfulMoves Consistent w)
    (hw' : Later (cluster cfg) heedfulMoves w w') : Settled w w' := by
  obtain ⟨s₀, hs₀, hw⟩ := hw.exists_init
  obtain ⟨g, hfinal, -⟩ := hw.ghosts (final_tied cfg hs₀)
  obtain ⟨g', hfinal', -⟩ := (hw.later hw').ghosts (final_tied cfg hs₀)
  refine ⟨?_, ?_⟩
  · intro j old hold hended
    have hwas := (hfinal.watching.traced.was j old hold).mono hw'.log_suffix
    obtain ⟨new, hnew, hstatus⟩ := hfinal'.sticks.holds old hwas hended
    have hkey : jobRecords.key old = j := hfinal.watching.traced.keyed j old hold
    rw [hkey] at hnew
    exact ⟨new, hnew, hstatus⟩
  · intro j
    rcases hfinal'.closed j with h | ⟨h, -⟩ <;> omega

instance (op : Work) : Decidable (jobMoves.starts op) := inferInstanceAs (Decidable (_ = true))

instance (w : Plane) (e : Entry redisSig Work Outcome) : Decidable (jobMoves.guard w e) :=
  inferInstanceAs (Decidable True)

instance (op : Work) : Decidable (heedfulMoves.starts op) := inferInstanceAs (Decidable (_ = true))

instance (w : Plane) (e : Entry redisSig Work Outcome) : Decidable (heedfulMoves.guard w e) :=
  inferInstanceAs (Decidable (Heedful w e))

theorem consistent_smallPlane (clockMs : ℕ) : Consistent (smallPlane clockMs) where
  keyed := by
    intro j v hv
    obtain ⟨rfl, rfl⟩ := job?_smallPlane hv
    rfl
  closed := fun _ => .inl rfl

/-- A worker completes its job, and a cancel comes too late. -/
theorem settled_of_heedful_lateCancel : ∃ w w' : Plane,
    (w.shared.job? 1).map Job.status = some .completed ∧
    Later (cluster smallSettings) heedfulMoves w w' ∧ w'.log.length = 11 ∧ Settled w w' := by
  obtain ⟨w, w', hw, hw', hp⟩ := World.exists_of_play (Y := cluster smallSettings)
    (R := heedfulMoves) (consistent_smallPlane 500000)
    (Turn.whole 0 (.gateway (.markJobCompleted 1 "answer".toList (some "w"))) 7)
    (Turn.whole 1 (.gateway (.markJobCancelled 1 none)) 2)
    (p := fun w w' => (w.shared.job? 1).map Job.status = some .completed ∧ w'.log.length = 11)
    (by decide +kernel)
  obtain ⟨hstatus, hlength⟩ := of_decide_eq_true hp
  exact ⟨w, w', hstatus, hw', hlength, settled_of_heedful smallSettings hw hw'⟩

/-- The reaper fails a job whose deadline is over, and its worker reports that it is completed:
the status changes, and the stream is closed twice. -/
theorem not_settled_lateCompletion : ¬ ∀ w w' : Plane,
    Reachable (cluster smallSettings) jobMoves Consistent w →
    Later (cluster smallSettings) jobMoves w w' → Settled w w' := by
  intro h
  obtain ⟨w, w', hw, hw', hp⟩ := World.exists_of_play (Y := cluster smallSettings) (R := jobMoves)
    (consistent_smallPlane 500000)
    (Turn.whole 0 (.gateway .requeueStaleJobs) 11)
    (Turn.whole 1 (.gateway (.markJobCompleted 1 "answer".toList (some "w"))) 7)
    (p := fun w w' => (w.shared.job? 1).any (fun job => job.status = .failed) &&
      decide (closings w'.shared 1 = 2))
    (by decide +kernel)
  have hclosed := (h w w' hw hw').closedOnce 1
  rw [(of_decide_eq_true (Bool.and_eq_true_iff.mp hp).2)] at hclosed
  omega

end Worker

end AiAgent

import AiAgent.Command.Records
import AiAgent.Gateway.Operations

/-!
# What an operation does to the records, among others

Between two commands of an operation the other processes may do anything, so what is known of an
operation is only what it has seen and what it may do next. That is a discipline
(`AiAgent.Gateway.watch`), carried by a ghost (`AiAgent.Gateway.View`):

* a record is stored only by an operation that has seen the job, never takes the cancel flag off,
  and – unless the operation does not look at the status – is stored over a live one or keeps the
  status (`AiAgent.Gateway.Mode`);
* a stream is closed only by the operation that has just stored the job's end;
* a record is created only by `enqueue_job`: for a new id, or for the child of a root whose lock
  is held and whose child was not found under that lock.

What the links between records have to be is a parameter (`AiAgent.Gateway.Stable`). That every
function of the gateway keeps the discipline is in `AiAgent.Gateway.Watched`.
-/

namespace AiAgent

namespace Gateway

open Command

/-! ### The discipline -/

/-- What an operation makes of the status of a job whose record it stores. -/
inductive Mode where
  /-- It has found the job live. -/
  | careful
  /-- It stores the status it has found. -/
  | keeping
  /-- It does not look. -/
  | blind
  /-- It does not look, and may create the child of a root. -/
  | parsing
  /-- It does not look, and may create a job that is no child. -/
  | enqueueing
  deriving DecidableEq, Repr

/-- What the mode asks of a record that is stored after `old` was seen. -/
def Mode.Allows : Mode → Job → Job → Prop
  | .careful, old, _ => old.status.isTerminal = false
  | .keeping, old, job => job.status = old.status
  | _, _, _ => True

/-- The ghost of a running operation. -/
structure View where
  /-- What it makes of the status. -/
  mode : Mode
  /-- What it has seen: under which id, and the record, if there was one. -/
  seen : JobId → Option Job → Prop
  /-- The job whose end it has stored and whose stream it has not closed yet. -/
  owes : Option JobId
  /-- The root whose lock it holds. -/
  root : Option JobId
  /-- The id it has not found since it took that lock. -/
  absent : Option JobId

/-- The ghost an operation starts with. -/
def View.start (mode : Mode) : View := ⟨mode, fun _ _ => False, none, none, none⟩

/-- The record a write stores. -/
def Write.job? : Write → Option Job
  | .set job => some job
  | _ => none

/-- The job whose stream a write closes. -/
def Write.closes? : Write → Option JobId
  | .xadd jobId event => if event.isDone then some jobId else none
  | _ => none

/-- The record a transaction stores. -/
def stored (ws : List Write) : Option Job := ws.findSome? Write.job?

/-- The record is a new one the operation may create. -/
def View.Creates (cfg : Settings) (t : View) (job : Job) : Prop :=
  (t.mode = .enqueueing ∧ job.rootJobId = none) ∨
  (t.mode = .parsing ∧ ∃ rootJob, t.root = some rootJob.id ∧ t.seen rootJob.id (some rootJob) ∧
    rootJob.status.isTerminal = false ∧ rootJob.cancelRequested = false ∧
    rootJob.childJobId = none ∧ job.rootJobId = some rootJob.id ∧
    job.id = cfg.derivedChildJobId rootJob.id ∧ t.absent = some job.id ∧ t.seen job.id none)

/-- The operation has seen a record it may store this one after. -/
structure View.Saves (V : Job → Prop) (t : View) (job : Job) : Prop where
  /-- Some record it has seen. -/
  seen : ∃ old, t.seen job.id (some old) ∧ t.mode.Allows old job ∧
    (old.cancelRequested = true → job.cancelRequested = true)
  /-- The links are as they should be. -/
  valid : V job

/-- The transactions an operation may issue. -/
inductive View.May (cfg : Settings) (V : Job → Prop) (t : View) : List Write → Prop
  /-- No record is stored and no stream is closed. -/
  | neutral {ws : List Write} (hstored : stored ws = none)
      (hcloses : ws.findSome? Write.closes? = none) : View.May cfg V t ws
  /-- A record is stored. -/
  | save {job : Job} (h : t.Saves V job) : View.May cfg V t [.set job]
  /-- A stream is closed. -/
  | close {jobId : JobId} {event : Event} (hdone : event.isDone = true)
      (howes : t.owes = some jobId) : View.May cfg V t [.xadd jobId event]
  /-- A record is created, and pushed to its pending list. -/
  | create {job : Job} (hstatus : job.status = .queued) (hflag : job.cancelRequested = false)
      (hvalid : V job) (hcreates : t.Creates cfg job) :
      View.May cfg V t [.set job, .rpush (.pending job.workloadClass job.priority) job.id,
        .xadd job.id (Event.of job.id .queued)]

/-- The ghost after a record was read. -/
def View.look (t : View) (jobId : JobId) (found : Option Job) : View :=
  { t with
    seen := fun k o => t.seen k o ∨ (k = jobId ∧ o = found)
    absent := if found.isNone ∧ t.root.isSome then some jobId else t.absent }

/-- The ghost after a record was stored. -/
def View.save (t : View) (job : Job) : View :=
  { t with
    seen := fun k o => t.seen k o ∨ (k = job.id ∧ o = some job)
    owes := if job.status.isTerminal ∧ t.mode ≠ .keeping then some job.id else t.owes
    absent := none }

/-- The ghost after a transaction. -/
def View.wrote (t : View) (ws : List Write) : View :=
  match stored ws with
  | some job => t.save job
  | none => if ws.findSome? Write.closes? = none then t else { t with owes := none }

/-- The ghost after a command. -/
def View.next (t : View) : (c : Cmd) → c.Reply → View
  | .get jobId, found => t.look jobId found
  | .write ws, _ => t.wrote ws
  | .lock (.job jobId), _ => { t with root := some jobId, absent := none }
  | .unlock (.job _), _ => { t with root := none, absent := none }
  | _, _ => t

/-- What may be relied on when a record is read: it is stored under its own id and its links are
as they should be, and what is not found is new. -/
def Told (V : Job → Prop) (N : JobId → Prop) : (c : Cmd) → c.Reply → Prop
  | .get jobId, some job => job.id = jobId ∧ V job
  | .get jobId, none => N jobId
  | _, _ => True

/-- The discipline. -/
def watch (cfg : Settings) (V : Job → Prop) (N : JobId → Prop) : Discipline redisSig View where
  may t c := match c with
    | .write ws => t.May cfg V ws
    | _ => True
  after t c r t' := Told V N c r ∧ t' = t.next c r

/-- What the operations need of a condition `V` on the links of a record, and a condition `N` on
ids that have no record: the links they make keep `V`. -/
structure Stable (cfg : Settings) (V : Job → Prop) (N : JobId → Prop) : Prop where
  /-- `V` is about the links only. -/
  congr : ∀ {old job : Job}, V old → job.id = old.id → job.childJobId = old.childJobId →
    job.rootJobId = old.rootJobId → V job
  /-- A link that was found may be made again. -/
  linked : ∀ {v : Job} {c : JobId}, V v → v.childJobId = some c →
    ∀ job, V job → job.id = v.id → V { job with childJobId := some c }
  /-- The derived id may be linked to a root without a link. -/
  derived : ∀ {v : Job}, V v → v.childJobId = none →
    ∀ job, V job → job.id = v.id → V { job with childJobId := some (cfg.derivedChildJobId v.id) }
  /-- A child may be linked to its root. -/
  child : ∀ {v : Job} {r : JobId}, V v → v.rootJobId = some r → r ≠ v.id →
    ∀ job, V job → job.id = r → V { job with childJobId := some v.id }
  /-- A child may be created for a root without a link. -/
  born : ∀ {v job : Job}, V v → v.childJobId = none → N job.id →
    job.id = cfg.derivedChildJobId v.id → job.rootJobId = some v.id → job.childJobId = none → V job
  /-- A job that is no child may be created. -/
  new : ∀ {job : Job}, N job.id → job.rootJobId = none → job.childJobId = none → V job

/-- Where nothing is asked of the links. -/
theorem stable_true (cfg : Settings) : Stable cfg (fun _ => True) fun _ => True where
  congr := fun _ _ _ _ => trivial
  linked := fun _ _ _ _ _ => trivial
  derived := fun _ _ _ _ _ => trivial
  child := fun _ _ _ _ _ _ => trivial
  born := fun _ _ _ _ _ _ => trivial
  new := fun _ _ _ => trivial

/-! ### Rules for single commands -/

/-- `t'` has the mode of `t`, and has seen what `t` has seen. -/
structure View.Within (t t' : View) : Prop where
  /-- The mode is the operation's. -/
  mode : t'.mode = t.mode
  /-- What was seen stays seen. -/
  seen : ∀ k o, t.seen k o → t'.seen k o

theorem View.Within.rfl {t : View} : t.Within t := ⟨Eq.refl _, fun _ _ h => h⟩

theorem View.Within.trans {t t' t'' : View} (h : t.Within t') (h' : t'.Within t'') :
    t.Within t'' :=
  ⟨h'.mode.trans h.mode, fun k o hs => h'.seen k o (h.seen k o hs)⟩

theorem View.within_look (t : View) (jobId : JobId) (found : Option Job) :
    t.Within (t.look jobId found) := ⟨Eq.refl _, fun _ _ h => .inl h⟩

theorem View.seen_look (t : View) (jobId : JobId) (found : Option Job) :
    (t.look jobId found).seen jobId found := .inr ⟨Eq.refl _, Eq.refl _⟩

theorem View.within_save (t : View) (job : Job) : t.Within (t.save job) :=
  ⟨Eq.refl _, fun _ _ h => .inl h⟩

theorem View.seen_save (t : View) (job : Job) : (t.save job).seen job.id (some job) :=
  .inr ⟨Eq.refl _, Eq.refl _⟩

theorem View.within_wrote (t : View) (ws : List Write) : t.Within (t.wrote ws) := by
  unfold View.wrote
  cases hstored : stored ws with
  | some job => exact t.within_save job
  | none =>
    by_cases hcloses : ws.findSome? Write.closes? = none
    · simp only [hcloses, if_true]
      exact .rfl
    · simp only [hcloses, if_false]
      exact ⟨Eq.refl _, fun _ _ h => h⟩

theorem View.within_next (t : View) (c : Cmd) (r : c.Reply) : t.Within (t.next c r) := by
  cases c with
  | get jobId => exact t.within_look jobId r
  | write ws => exact t.within_wrote ws
  | lock l => cases l <;> exact ⟨Eq.refl _, fun _ _ h => h⟩
  | unlock l => cases l <;> exact ⟨Eq.refl _, fun _ _ h => h⟩
  | _ => exact .rfl

/-- The commands that tell nothing of a record and change none. -/
def Cmd.IsQuiet : Cmd → Prop
  | .get _ | .write _ | .lock (.job _) | .unlock (.job _) => False
  | _ => True

section Rules

variable {cfg : Settings} {V : Job → Prop} {N : JobId → Prop} {t : View} {α β : Type}

/-- The program keeps the discipline from `t` on. -/
abbrev Keeps (cfg : Settings) (V : Job → Prop) (N : JobId → Prop) (t : View) (p : Gw α) : Prop :=
  p.Obeys (watch cfg V N) (fun _ t' => t.Within t') t

theorem keeps_pure (a : α) : Keeps cfg V N t (pure a) := View.Within.rfl

/-- One function after another. -/
theorem Keeps.bind {p : Gw α} {f : α → Gw β} (h : Keeps cfg V N t p)
    (hf : ∀ a t', t.Within t' → Keeps cfg V N t' (f a)) : Keeps cfg V N t (p >>= f) :=
  Program.Obeys.bind h fun a t' ht => (hf a t' ht).mono fun _ _ ht' => ht.trans ht'

/-- A function of which more is known than that it keeps the discipline. -/
theorem keeps_bind {p : Gw α} {f : α → Gw β} {Q : α → View → Prop}
    (h : p.Obeys (watch cfg V N) Q t) (hQ : ∀ a t', Q a t' → t.Within t')
    (hf : ∀ a t', Q a t' → Keeps cfg V N t' (f a)) : Keeps cfg V N t (p >>= f) :=
  Program.Obeys.bind h fun a t' ha => (hf a t' ha).mono fun _ _ ht' => (hQ a t' ha).trans ht'

/-- The program keeps the discipline and leaves the view as it is. -/
abbrev Still (cfg : Settings) (V : Job → Prop) (N : JobId → Prop) (t : View) (p : Gw α) : Prop :=
  p.Obeys (watch cfg V N) (fun _ t' => t' = t) t

theorem Still.keeps {p : Gw α} (h : Still cfg V N t p) : Keeps cfg V N t p :=
  h.mono (by rintro a t' rfl; exact .rfl)

/-- After a function that leaves the view as it is, another goes on from the same view. -/
theorem Still.then {p : Gw α} {f : α → Gw β} {Q : β → View → Prop} (h : Still cfg V N t p)
    (hf : ∀ a, (f a).Obeys (watch cfg V N) Q t) : (p >>= f).Obeys (watch cfg V N) Q t :=
  Program.Obeys.bind h (by rintro a t' rfl; exact hf a)

theorem still_pure (a : α) : Still cfg V N t (pure a) := rfl

theorem still_quiet {c : Cmd} (hc : c.IsQuiet) : Still cfg V N t (ask c) := by
  rw [Still, ask, Program.obeys_send]
  cases c with
  | get _ => exact hc.elim
  | write _ => exact hc.elim
  | lock l =>
    cases l with
    | job _ => exact hc.elim
    | target _ => exact ⟨trivial, fun _ _ h => h.2⟩
  | unlock l =>
    cases l with
    | job _ => exact hc.elim
    | target _ => exact ⟨trivial, fun _ _ h => h.2⟩
  | _ => exact ⟨trivial, fun _ _ h => h.2⟩

theorem quiet_then {c : Cmd} {f : c.Reply → Gw α} {Q : α → View → Prop} (hc : c.IsQuiet)
    (hf : ∀ r, (f r).Obeys (watch cfg V N) Q t) : (ask c >>= f).Obeys (watch cfg V N) Q t :=
  (still_quiet hc).then hf

theorem still_neutral {ws : List Write} (hstored : stored ws = none)
    (hcloses : ws.findSome? Write.closes? = none) : Still cfg V N t (ask (.write ws)) := by
  rw [Still, ask, Program.obeys_send]
  refine ⟨View.May.neutral hstored hcloses, ?_⟩
  rintro r t' ⟨-, rfl⟩
  simp only [View.next, View.wrote, hstored, hcloses, if_true]

theorem obeys_getJob (jobId : JobId) :
    (getJob jobId).Obeys (watch cfg V N)
      (fun found t' => t' = t.look jobId found ∧ Told V N (.get jobId) found) t :=
  ⟨trivial, fun _ _ h => ⟨h.2, h.1⟩⟩

theorem obeys_saveJob {job : Job} (h : t.Saves V job) :
    (saveJob job).Obeys (watch cfg V N) (fun _ t' => t' = t.save job) t :=
  ⟨.save h, fun _ _ h => h.2⟩

theorem still_appendEvent {jobId : JobId} {event : Event} (h : event.isDone = false) :
    Still cfg V N t (appendEvent jobId event) :=
  still_neutral rfl (by simp [Write.closes?, h])

theorem keeps_appendEvent_of_owes {jobId : JobId} {event : Event} (hdone : event.isDone = true)
    (howes : t.owes = some jobId) : Keeps cfg V N t (appendEvent jobId event) := by
  refine ⟨View.May.close hdone howes, ?_⟩
  rintro r t' ⟨-, rfl⟩
  exact t.within_wrote [.xadd jobId event]

theorem keeps_ask (c : Cmd) (h : ∀ ws, c = .write ws → t.May cfg V ws) :
    Keeps cfg V N t (ask c) := by
  refine ⟨?_, ?_⟩
  · cases c with
    | write ws => exact h ws rfl
    | _ => trivial
  · rintro r t' ⟨-, rfl⟩
    exact t.within_next c r

/-- A lock is taken and given back. -/
theorem Keeps.withLock {l : Lock} {body : Gw α}
    (h : ∀ t', t.Within t' → Keeps cfg V N t' body) : Keeps cfg V N t (withLock l body) :=
  (keeps_ask (.lock l) fun _ h => by cases h).bind fun _ t' ht =>
    (h t' ht).bind fun a t'' _ =>
      (keeps_ask (.unlock l) fun _ h => by cases h).bind fun _ _ _ => keeps_pure a

end Rules

end Gateway

end AiAgent

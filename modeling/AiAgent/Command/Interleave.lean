import AiAgent.Command.Program
import Mathlib.Data.List.Infix
import Mathlib.Logic.Function.Basic
import Mathlib.Logic.Relation

/-!
# Many clients on one store

Any number of clients run programs against one store. A step is one command of one client, so
between two commands of a client the others may do anything; a client may also die between any
two of its commands, and the outside world (a clock, say) may move the state by itself.

The world keeps the whole history of what the clients did
(`AiAgent.Command.World.log`), latest entry first, so a property of runs is a property of the
worlds a run reaches. The one proof rule is
`AiAgent.Command.Reachable.ghosts`: if every program keeps a discipline, then in every world
that is reached the running clients carry ghosts that fit what is left of their programs, and an
invariant tying those ghosts to the store holds – provided each single step keeps it.
-/

namespace AiAgent

namespace Command

variable {S : Signature} {σ ι ρ τ : Type}

/-- What a client can do in one step. -/
inductive Act (S : Signature) (ρ : Type) where
  /-- It begins. -/
  | start : Act S ρ
  /-- A command was issued and answered. -/
  | command (c : S.Cmd) (r : S.Reply c) : Act S ρ
  /-- It returned a result. -/
  | finish (a : ρ) : Act S ρ
  /-- It died. -/
  | crash : Act S ρ

/-- The act is a beginning. -/
def Act.isStart : Act S ρ → Bool
  | .start => true
  | _ => false

/-- An entry of the history: which client, running which operation, did what. -/
structure Entry (S : Signature) (ι ρ : Type) where
  /-- The client. -/
  client : ℕ
  /-- The operation it runs. -/
  op : ι
  /-- What it did. -/
  act : Act S ρ

/-- A running client: its operation, and what is left of it. -/
structure Task (S : Signature) (ι ρ : Type) where
  /-- The operation. -/
  op : ι
  /-- What is left to do. -/
  rest : Program S ρ

/-- The store, the running clients and the history, latest entry first. -/
structure World (S : Signature) (σ ι ρ : Type) where
  /-- The state of the store. -/
  shared : σ
  /-- The running clients. -/
  tasks : ℕ → Option (Task S ι ρ)
  /-- What has happened so far, latest first. -/
  log : List (Entry S ι ρ)

/-- A system: the store, the program of each operation, and how the outside moves the store. -/
structure System (S : Signature) (σ ι ρ : Type) where
  /-- The store. -/
  store : Store S σ
  /-- The program of an operation. -/
  body : ι → Program S ρ
  /-- What the outside world does by itself. -/
  outside : σ → σ → Prop

/-- The world after client `i`, running `op`, did `a`: the store is `s`, and `t` is what is left
of the client. -/
def World.record (w : World S σ ι ρ) (i : ℕ) (op : ι) (a : Act S ρ) (s : σ)
    (t : Option (Task S ι ρ)) : World S σ ι ρ :=
  ⟨s, Function.update w.tasks i t, ⟨i, op, a⟩ :: w.log⟩

@[simp] theorem World.record_shared (w : World S σ ι ρ) (i : ℕ) (op : ι) (a : Act S ρ) (s : σ)
    (t : Option (Task S ι ρ)) : (w.record i op a s t).shared = s := rfl

@[simp] theorem World.record_tasks (w : World S σ ι ρ) (i : ℕ) (op : ι) (a : Act S ρ) (s : σ)
    (t : Option (Task S ι ρ)) :
    (w.record i op a s t).tasks = Function.update w.tasks i t := rfl

@[simp] theorem World.record_log (w : World S σ ι ρ) (i : ℕ) (op : ι) (a : Act S ρ) (s : σ)
    (t : Option (Task S ι ρ)) : (w.record i op a s t).log = ⟨i, op, a⟩ :: w.log := rfl

/-- The clients that are running after one did something: this one, or one that was running
before. -/
theorem World.of_record_tasks {w : World S σ ι ρ} {i j : ℕ} {op : ι} {a : Act S ρ} {s : σ}
    {t : Option (Task S ι ρ)} {task : Task S ι ρ} (h : (w.record i op a s t).tasks j = some task) :
    (j = i ∧ t = some task) ∨ (j ≠ i ∧ w.tasks j = some task) := by
  rw [World.record_tasks] at h
  rcases eq_or_ne j i with rfl | hne
  · rw [Function.update_self] at h
    exact .inl ⟨rfl, h⟩
  · rw [Function.update_of_ne hne] at h
    exact .inr ⟨hne, h⟩

/-! ### Runs -/

/-- The rules a run is played by: which operations clients start, and which steps are taken.
The guard sees the world before the step and the entry the step adds. -/
structure Rules (S : Signature) (σ ι ρ : Type) where
  /-- The operations clients start. -/
  starts : ι → Prop
  /-- The steps that are taken. -/
  guard : World S σ ι ρ → Entry S ι ρ → Prop

/-- One step of the world. -/
inductive Step (Y : System S σ ι ρ) (R : Rules S σ ι ρ) :
    World S σ ι ρ → World S σ ι ρ → Prop
  /-- A client starts an operation. -/
  | start {w : World S σ ι ρ} (i : ℕ) (op : ι) (hi : w.tasks i = none) (hop : R.starts op) :
      Step Y R w (w.record i op .start w.shared (some ⟨op, Y.body op⟩))
  /-- A client issues its next command and gets the reply. -/
  | command {w : World S σ ι ρ} (i : ℕ) (op : ι) (c : S.Cmd) (k : S.Reply c → Program S ρ)
      (hi : w.tasks i = some ⟨op, .ask c k⟩) (hr : Y.store.ready c w.shared)
      (hg : R.guard w ⟨i, op, .command c (Y.store.exec i c w.shared).1⟩) :
      Step Y R w (w.record i op (.command c (Y.store.exec i c w.shared).1)
        (Y.store.exec i c w.shared).2 (some ⟨op, k (Y.store.exec i c w.shared).1⟩))
  /-- A client returns. -/
  | finish {w : World S σ ι ρ} (i : ℕ) (op : ι) (a : ρ) (hi : w.tasks i = some ⟨op, .done a⟩) :
      Step Y R w (w.record i op (.finish a) w.shared none)
  /-- A client dies with some of its program left. -/
  | crash {w : World S σ ι ρ} (i : ℕ) (op : ι) (p : Program S ρ)
      (hi : w.tasks i = some ⟨op, p⟩) :
      Step Y R w (w.record i op .crash (Y.store.drop i w.shared) none)
  /-- The outside moves the store. -/
  | outside {w : World S σ ι ρ} (s : σ) (hs : Y.outside w.shared s) :
      Step Y R w { w with shared := s }

/-- The world a run starts from: the given store, nobody running, nothing done. -/
def World.fresh (s : σ) : World S σ ι ρ := ⟨s, fun _ => none, []⟩

/-- The worlds reached by runs that start from a store in `init`. -/
inductive Reachable (Y : System S σ ι ρ) (R : Rules S σ ι ρ) (init : σ → Prop) :
    World S σ ι ρ → Prop
  /-- The start. -/
  | init {s : σ} (hs : init s) : Reachable Y R init (.fresh s)
  /-- One more step. -/
  | step {w w' : World S σ ι ρ} (hw : Reachable Y R init w) (hs : Step Y R w w') :
      Reachable Y R init w'

/-! ### The proof rule -/

/-- What has to be shown step by step: `I` ties the ghosts of the clients to the world, starts
out true, and every step a client may take moves its ghost so that `I` is kept. `Q` is what an
operation's program ends in. -/
structure Tied (Y : System S σ ι ρ) (R : Rules S σ ι ρ) (init : σ → Prop) (D : Discipline S τ)
    (t₀ : ι → τ) (Q : ι → ρ → τ → Prop) (I : World S σ ι ρ → (ℕ → τ) → Prop) : Prop where
  /-- Every operation that is started keeps the discipline. -/
  body : ∀ op, R.starts op → (Y.body op).Obeys D (Q op) (t₀ op)
  /-- The invariant holds at the start. -/
  init : ∀ s, init s → ∃ g, I (.fresh s) g
  /-- A client starts. -/
  start : ∀ w g i op, I w g → w.tasks i = none → R.starts op →
    I (w.record i op .start w.shared (some ⟨op, Y.body op⟩)) (Function.update g i (t₀ op))
  /-- A client issues a command its ghost permits. -/
  command : ∀ w g i op c k, I w g → w.tasks i = some ⟨op, .ask c k⟩ → R.starts op →
    D.may (g i) c → Y.store.ready c w.shared →
      R.guard w ⟨i, op, .command c (Y.store.exec i c w.shared).1⟩ →
    ∃ t, D.after (g i) c (Y.store.exec i c w.shared).1 t ∧
      I (w.record i op (.command c (Y.store.exec i c w.shared).1) (Y.store.exec i c w.shared).2
        (some ⟨op, k (Y.store.exec i c w.shared).1⟩)) (Function.update g i t)
  /-- A client returns. -/
  finish : ∀ w g i op a, I w g → w.tasks i = some ⟨op, .done a⟩ → Q op a (g i) →
    I (w.record i op (.finish a) w.shared none) g
  /-- A client dies. -/
  crash : ∀ w g i op p, I w g → w.tasks i = some ⟨op, p⟩ →
    I (w.record i op .crash (Y.store.drop i w.shared) none) g
  /-- The outside moves the store. -/
  outside : ∀ w g s, I w g → Y.outside w.shared s → I { w with shared := s } g

/-- The ghosts fit what is left of the programs. -/
def Fits (D : Discipline S τ) (Q : ι → ρ → τ → Prop) (w : World S σ ι ρ) (g : ℕ → τ) : Prop :=
  ∀ i op p, w.tasks i = some ⟨op, p⟩ → p.Obeys D (Q op) (g i)

variable {Y : System S σ ι ρ} {R : Rules S σ ι ρ} {init : σ → Prop} {D : Discipline S τ}
  {t₀ : ι → τ} {Q : ι → ρ → τ → Prop} {I : World S σ ι ρ → (ℕ → τ) → Prop}

theorem Fits.record_some {w : World S σ ι ρ} {g : ℕ → τ} (h : Fits D Q w g) {i : ℕ} {op : ι}
    {a : Act S ρ} {s : σ} {p : Program S ρ} {t : τ} (hp : p.Obeys D (Q op) t) :
    Fits D Q (w.record i op a s (some ⟨op, p⟩)) (Function.update g i t) := by
  intro j op' p' hj
  rcases World.of_record_tasks hj with ⟨rfl, htask⟩ | ⟨hne, htask⟩
  · rw [Function.update_self]
    obtain ⟨rfl, rfl⟩ := Task.mk.inj (Option.some.inj htask)
    exact hp
  · rw [Function.update_of_ne hne]
    exact h j op' p' htask

theorem Fits.record_none {w : World S σ ι ρ} {g : ℕ → τ} (h : Fits D Q w g) {i : ℕ} {op : ι}
    {a : Act S ρ} {s : σ} : Fits D Q (w.record i op a s none) g := by
  intro j op' p' hj
  rcases World.of_record_tasks hj with ⟨-, hj⟩ | ⟨-, hj⟩
  · cases hj
  · exact h j op' p' hj

/-- One step: the ghosts can be moved along. -/
theorem Tied.step (T : Tied Y R init D t₀ Q I) {w w' : World S σ ι ρ} {g : ℕ → τ} (hI : I w g)
    (hf : Fits D Q w g) (hstarts : ∀ i task, w.tasks i = some task → R.starts task.op)
    (hs : Step Y R w w') : ∃ g', I w' g' ∧ Fits D Q w' g' := by
  cases hs with
  | start i op hi hop =>
    exact ⟨_, T.start w g i op hI hi hop, hf.record_some (T.body op hop)⟩
  | command i op c k hi hr hg =>
    have hask : (Program.ask c k).Obeys D (Q op) (g i) := hf i op _ hi
    obtain ⟨t, hafter, hI'⟩ := T.command w g i op c k hI hi (hstarts i _ hi) hask.1 hr hg
    exact ⟨_, hI', hf.record_some (hask.2 _ t hafter)⟩
  | finish i op a hi =>
    have hdone : (Program.done a).Obeys D (Q op) (g i) := hf i op _ hi
    exact ⟨g, T.finish w g i op a hI hi hdone, hf.record_none⟩
  | crash i op p hi => exact ⟨g, T.crash w g i op p hI hi, hf.record_none⟩
  | outside s hs => exact ⟨g, T.outside w g s hI hs, hf⟩

/-- A step leaves only operations under way that may be started. -/
theorem Step.starts {w w' : World S σ ι ρ} (hs : Step Y R w w')
    (hw : ∀ i task, w.tasks i = some task → R.starts task.op) :
    ∀ i task, w'.tasks i = some task → R.starts task.op := by
  have key : ∀ (i : ℕ) (op : ι) (a : Act S ρ) (s : σ) (t : Option (Task S ι ρ)),
      (∀ task, t = some task → R.starts task.op) →
      ∀ j task, (w.record i op a s t).tasks j = some task → R.starts task.op := by
    intro i op a s t ht j task hj
    rcases World.of_record_tasks hj with ⟨-, hj⟩ | ⟨-, hj⟩
    · exact ht task hj
    · exact hw j task hj
  cases hs with
  | start i op hi hop =>
    refine key _ _ _ _ _ ?_
    rintro task h
    cases h
    exact hop
  | command i op c k hi hr hg =>
    refine key _ _ _ _ _ ?_
    rintro task h
    cases h
    exact hw i ⟨op, .ask c k⟩ hi
  | finish i op a hi => exact key _ _ _ _ _ fun task h => by cases h
  | crash i op p hi => exact key _ _ _ _ _ fun task h => by cases h
  | outside s hs => exact hw

/-- Only operations that may be started are under way. -/
theorem Reachable.starts {w : World S σ ι ρ} (hw : Reachable Y R init w) :
    ∀ i task, w.tasks i = some task → R.starts task.op := by
  induction hw with
  | init hs =>
    intro i task hi
    cases hi
  | step _ hs ih => exact hs.starts ih

/-- **The run rule**: in every world that is reached there are ghosts that fit the running
programs and for which the invariant holds. -/
theorem Reachable.ghosts (T : Tied Y R init D t₀ Q I) {w : World S σ ι ρ}
    (hw : Reachable Y R init w) : ∃ g, I w g ∧ Fits D Q w g := by
  induction hw with
  | init hs =>
    obtain ⟨g, hg⟩ := T.init _ hs
    exact ⟨g, hg, fun i op p hi => by cases hi⟩
  | step hw hs ih =>
    obtain ⟨g, hI, hf⟩ := ih
    exact T.step hI hf hw.starts hs

/-- A run that is played by stricter rules is a run. -/
theorem Reachable.weaken {R' : Rules S σ ι ρ} (hstarts : ∀ op, R.starts op → R'.starts op)
    (hguard : ∀ w e, R.guard w e → R'.guard w e) {w : World S σ ι ρ}
    (hw : Reachable Y R init w) : Reachable Y R' init w := by
  induction hw with
  | init hs => exact .init hs
  | step _ hs ih =>
    refine ih.step ?_
    cases hs with
    | start i op hi hop => exact .start i op hi (hstarts op hop)
    | command i op c k hi hr hg => exact .command i op c k hi hr (hguard _ _ hg)
    | finish i op a hi => exact .finish i op a hi
    | crash i op p hi => exact .crash i op p hi
    | outside s hs => exact .outside s hs

/-- Every run starts from one of the stores it may start from. -/
theorem Reachable.exists_init {w : World S σ ι ρ} (hw : Reachable Y R init w) :
    ∃ s₀, init s₀ ∧ Reachable Y R (· = s₀) w := by
  induction hw with
  | init hs => exact ⟨_, hs, .init rfl⟩
  | step _ hs ih =>
    obtain ⟨s₀, hs₀, hw⟩ := ih
    exact ⟨s₀, hs₀, hw.step hs⟩

/-! ### Later worlds -/

/-- The worlds a run passes through after `w`. -/
abbrev Later (Y : System S σ ι ρ) (R : Rules S σ ι ρ) : World S σ ι ρ → World S σ ι ρ → Prop :=
  Relation.ReflTransGen (Step Y R)

theorem Reachable.later {w w' : World S σ ι ρ} (hw : Reachable Y R init w) (h : Later Y R w w') :
    Reachable Y R init w' := by
  induction h with
  | refl => exact hw
  | tail _ hs ih => exact ih.step hs

/-- **The run rule from a world on**: where the ghosts fit once, they can be moved along. -/
theorem Later.ghosts (T : Tied Y R init D t₀ Q I) {w w' : World S σ ι ρ} (h : Later Y R w w')
    {g : ℕ → τ} (hI : I w g) (hf : Fits D Q w g)
    (hstarts : ∀ i task, w.tasks i = some task → R.starts task.op) :
    ∃ g', I w' g' ∧ Fits D Q w' g' := by
  have hall : (∃ g', I w' g' ∧ Fits D Q w' g') ∧
      ∀ i task, w'.tasks i = some task → R.starts task.op := by
    induction h with
    | refl => exact ⟨⟨g, hI, hf⟩, hstarts⟩
    | tail _ hs ih =>
      obtain ⟨⟨g₁, hI₁, hf₁⟩, hstarts₁⟩ := ih
      exact ⟨T.step hI₁ hf₁ hstarts₁ hs, hs.starts hstarts₁⟩
  exact hall.1

/-- The history only grows. -/
theorem Later.log_suffix {w w' : World S σ ι ρ} (h : Later Y R w w') : w.log <:+ w'.log := by
  induction h with
  | refl => exact List.suffix_refl _
  | tail _ hs ih =>
    refine ih.trans ?_
    cases hs with
    | outside s hs => exact List.suffix_refl _
    | _ => exact List.suffix_cons _ _

/-! ### Playing a run

A schedule says who moves next; playing it gives the world it leads to, if every move of it can
be made. -/

/-- One entry of a schedule. -/
inductive Turn (ι : Type) where
  /-- The client starts the operation. -/
  | start (i : ℕ) (op : ι)
  /-- The client takes its next step. -/
  | next (i : ℕ)
  /-- The client dies. -/
  | crash (i : ℕ)

section Play

variable (Y R) [∀ op, Decidable (R.starts op)] [∀ w e, Decidable (R.guard w e)]
  [∀ c s, Decidable (Y.store.ready c s)]

/-- The world after one turn. -/
def World.turn (w : World S σ ι ρ) : Turn ι → Option (World S σ ι ρ)
  | .start i op =>
    match w.tasks i with
    | some _ => none
    | none =>
      if R.starts op then some (w.record i op .start w.shared (some ⟨op, Y.body op⟩)) else none
  | .next i =>
    match w.tasks i with
    | none => none
    | some ⟨op, .done a⟩ => some (w.record i op (.finish a) w.shared none)
    | some ⟨op, .ask c k⟩ =>
      let answer := Y.store.exec i c w.shared
      if Y.store.ready c w.shared ∧ R.guard w ⟨i, op, .command c answer.1⟩ then
        some (w.record i op (.command c answer.1) answer.2 (some ⟨op, k answer.1⟩))
      else none
  | .crash i =>
    (w.tasks i).map fun task => w.record i task.op .crash (Y.store.drop i w.shared) none

/-- The world after a schedule. -/
def World.play (w : World S σ ι ρ) : List (Turn ι) → Option (World S σ ι ρ)
  | [] => some w
  | t :: ts => (w.turn Y R t).bind fun w' => w'.play ts

variable {Y R}

theorem World.step_of_turn {w w' : World S σ ι ρ} {t : Turn ι} (h : w.turn Y R t = some w') :
    Step Y R w w' := by
  cases t with
  | start i op =>
    simp only [World.turn] at h
    cases hi : w.tasks i with
    | some task =>
      rw [hi] at h
      cases h
    | none =>
      rw [hi] at h
      by_cases hop : R.starts op
      · simp only [hop, if_true, Option.some.injEq] at h
        rw [← h]
        exact .start i op hi hop
      · simp only [hop, if_false] at h
        cases h
  | next i =>
    simp only [World.turn] at h
    cases hi : w.tasks i with
    | none =>
      rw [hi] at h
      cases h
    | some task =>
      obtain ⟨op, p⟩ := task
      rw [hi] at h
      cases p with
      | done a =>
        simp only [Option.some.injEq] at h
        rw [← h]
        exact .finish i op a hi
      | ask c k =>
        -- A command is issued where its store is ready for it and the rules let it pass.
        by_cases hok : Y.store.ready c w.shared ∧
            R.guard w ⟨i, op, .command c (Y.store.exec i c w.shared).1⟩
        · simp only [hok, and_self, if_true, Option.some.injEq] at h
          rw [← h]
          exact .command i op c k hi hok.1 hok.2
        · simp only [hok, if_false] at h
          cases h
  | crash i =>
    obtain ⟨⟨op, p⟩, hi, rfl⟩ := Option.map_eq_some_iff.mp h
    exact .crash i op p hi

/-- A schedule that can be played is a run. -/
theorem World.later_of_play {w w' : World S σ ι ρ} {ts : List (Turn ι)}
    (h : w.play Y R ts = some w') : Later Y R w w' := by
  induction ts generalizing w with
  | nil =>
    cases h
    exact .refl
  | cons t ts ih =>
    obtain ⟨w₁, hturn, hplay⟩ := Option.bind_eq_some_iff.mp h
    exact .head (World.step_of_turn hturn) (ih hplay)

/-- Two schedules, one after the other, that can be played and lead to what is tested. -/
theorem World.exists_of_play {I : σ → Prop} {s : σ} (hs : I s) (ts ts' : List (Turn ι))
    {p : World S σ ι ρ → World S σ ι ρ → Bool}
    (h : ((World.fresh s : World S σ ι ρ).play Y R ts).any
      (fun w => (w.play Y R ts').any fun w' => p w w') = true) :
    ∃ w w', Reachable Y R I w ∧ Later Y R w w' ∧ p w w' = true := by
  obtain ⟨w, hw, h⟩ := (Option.any_eq_true _ _).mp h
  obtain ⟨w', hw', h⟩ := (Option.any_eq_true _ _).mp h
  exact ⟨w, w', (Reachable.init hs).later (World.later_of_play hw), World.later_of_play hw', h⟩

/-- The outside moves the store between the two schedules. -/
theorem World.exists_of_play_outside {I : σ → Prop} {s : σ} (hs : I s) (ts ts' : List (Turn ι))
    {f : σ → σ} (hf : ∀ s, Y.outside s (f s))
    {p : World S σ ι ρ → World S σ ι ρ → Bool}
    (h : ((World.fresh s : World S σ ι ρ).play Y R ts).any (fun w =>
      (World.play Y R { w with shared := f w.shared } ts').any fun w' => p w w') = true) :
    ∃ w w', Reachable Y R I w ∧ Later Y R w w' ∧ p w w' = true := by
  obtain ⟨w, hw, h⟩ := (Option.any_eq_true _ _).mp h
  obtain ⟨w', hw', h⟩ := (Option.any_eq_true _ _).mp h
  exact ⟨w, w', (Reachable.init hs).later (World.later_of_play hw),
    .head (.outside _ (hf _)) (World.later_of_play hw'), h⟩

end Play

/-- The schedule of a client that runs an operation in `n` steps with nobody else moving. -/
def Turn.whole (i : ℕ) (op : ι) (n : ℕ) : List (Turn ι) := .start i op :: List.replicate n (.next i)

end Command

end AiAgent

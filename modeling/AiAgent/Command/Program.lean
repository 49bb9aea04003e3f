import Mathlib.Order.Basic

/-!
# Programs that talk to a store by commands

A client of a store does nothing but issue commands and look at the replies. This file gives
such a client a syntax, `AiAgent.Command.Program`, and two readings of it:

* `AiAgent.Command.Program.run` – the client runs alone: every command is executed on the state
  as it stands, and the whole program becomes one state transformer;
* `AiAgent.Command.Program.Obeys` – the client runs among others: a reply may be anything, and
  all that is known is a *ghost* the client carries along. A discipline says which commands the
  ghost permits and how a reply moves it.

Both go through `bind`, so a program is analysed function by function.
-/

namespace AiAgent

namespace Command

/-! ### Syntax -/

/-- The commands of a store, each with the type of its reply. -/
structure Signature where
  /-- What may be asked. -/
  Cmd : Type
  /-- What it is answered by. -/
  Reply : Cmd → Type

/-- A client: it is done, or it issues a command and goes on with the reply. -/
inductive Program (S : Signature) (α : Type) : Type where
  /-- Nothing left to do. -/
  | done (a : α) : Program S α
  /-- Issue `c`, and go on with its reply. -/
  | ask (c : S.Cmd) (next : S.Reply c → Program S α) : Program S α

namespace Program

variable {S : Signature} {α β γ : Type}

/-- One program after another. -/
def bind : Program S α → (α → Program S β) → Program S β
  | .done a, f => f a
  | .ask c k, f => .ask c fun r => (k r).bind f

instance : Monad (Program S) where
  pure := .done
  bind := bind

/-- The program that issues one command and returns its reply. -/
def send (c : S.Cmd) : Program S (S.Reply c) := .ask c .done

theorem pure_def (a : α) : (pure a : Program S α) = .done a := rfl

theorem bind_def (p : Program S α) (f : α → Program S β) : p >>= f = p.bind f := rfl

@[simp] theorem done_bind (a : α) (f : α → Program S β) : (Program.done a).bind f = f a := rfl

@[simp] theorem ask_bind (c : S.Cmd) (k : S.Reply c → Program S α) (f : α → Program S β) :
    (Program.ask c k).bind f = .ask c fun r => (k r).bind f := rfl

theorem bind_done (p : Program S α) : p.bind .done = p := by
  induction p with
  | done a => rfl
  | ask c k ih => exact congrArg (Program.ask c) (funext ih)

theorem bind_assoc (p : Program S α) (f : α → Program S β) (g : β → Program S γ) :
    (p.bind f).bind g = p.bind fun a => (f a).bind g := by
  induction p with
  | done a => rfl
  | ask c k ih => exact congrArg (Program.ask c) (funext ih)

instance : LawfulMonad (Program S) :=
  LawfulMonad.mk' (Program S) bind_done (fun _ _ => rfl) bind_assoc

end Program

/-! ### Running alone -/

/-- A store and its clients, which it knows by a number: what each command answers and does to
the state, when a command has to wait, and what the death of a client does. -/
structure Store (S : Signature) (σ : Type) where
  /-- The reply of a command and the state it leaves. -/
  exec : ℕ → (c : S.Cmd) → σ → S.Reply c × σ
  /-- A command that is not ready waits. -/
  ready : S.Cmd → σ → Prop
  /-- The state once a dead client has been noticed. -/
  drop : ℕ → σ → σ

namespace Program

variable {S : Signature} {σ α β : Type} (M : Store S σ) (i : ℕ)

/-- The program of client `i` run from start to end with nobody else around. -/
def run : Program S α → σ → α × σ
  | .done a, s => (a, s)
  | .ask c k, s => (k (M.exec i c s).1).run (M.exec i c s).2

@[simp] theorem run_pure (a : α) (s : σ) : (pure a : Program S α).run M i s = (a, s) := rfl

@[simp] theorem run_send (c : S.Cmd) (s : σ) : (send c).run M i s = M.exec i c s := rfl

@[simp] theorem run_bind (p : Program S α) (f : α → Program S β) (s : σ) :
    (p >>= f).run M i s = (f (p.run M i s).1).run M i (p.run M i s).2 := by
  rw [bind_def]
  induction p generalizing s with
  | done a => rfl
  | ask c k ih => exact ih (M.exec i c s).1 (M.exec i c s).2

end Program

/-! ### Running among others -/

/-- A discipline on clients: which commands a client with ghost `t` may issue, and which ghosts
it may carry on with once the command is answered. -/
structure Discipline (S : Signature) (τ : Type) where
  /-- The client may issue the command. -/
  may : τ → S.Cmd → Prop
  /-- The ghost after the reply. -/
  after : τ → (c : S.Cmd) → S.Reply c → τ → Prop

namespace Program

variable {S : Signature} {τ α β : Type} (D : Discipline S τ)

/-- **The program keeps the discipline** from ghost `t` on, whatever the replies, and ends in
`Q`. -/
def Obeys : Program S α → (α → τ → Prop) → τ → Prop
  | .done a, Q, t => Q a t
  | .ask c k, Q, t => D.may t c ∧ ∀ r t', D.after t c r t' → (k r).Obeys Q t'

@[simp] theorem obeys_pure (a : α) (Q : α → τ → Prop) (t : τ) :
    (pure a : Program S α).Obeys D Q t ↔ Q a t := Iff.rfl

@[simp] theorem obeys_send (c : S.Cmd) (Q : S.Reply c → τ → Prop) (t : τ) :
    (send c).Obeys D Q t ↔ D.may t c ∧ ∀ r t', D.after t c r t' → Q r t' := Iff.rfl

@[simp] theorem obeys_bind (p : Program S α) (f : α → Program S β) (Q : β → τ → Prop) (t : τ) :
    (p >>= f).Obeys D Q t ↔ p.Obeys D (fun a => (f a).Obeys D Q) t := by
  rw [bind_def]
  induction p generalizing t with
  | done a => exact Iff.rfl
  | ask c k ih =>
    exact and_congr_right fun _ =>
      forall_congr' fun r => forall_congr' fun t' => imp_congr_right fun _ => ih r t'

variable {D}

/-- A discipline kept with one postcondition is kept with a weaker one. -/
theorem Obeys.mono {p : Program S α} {Q Q' : α → τ → Prop} {t : τ} (h : p.Obeys D Q t)
    (hQ : ∀ a t', Q a t' → Q' a t') : p.Obeys D Q' t := by
  induction p generalizing t with
  | done a => exact hQ a t h
  | ask c k ih => exact ⟨h.1, fun r t' hr => ih r (h.2 r t' hr)⟩

/-- The rule for one function after another: the first one's postcondition is what the second
starts from. -/
theorem Obeys.bind {p : Program S α} {f : α → Program S β} {Q : α → τ → Prop}
    {Q' : β → τ → Prop} {t : τ} (h : p.Obeys D Q t) (hf : ∀ a t', Q a t' → (f a).Obeys D Q' t') :
    (p >>= f).Obeys D Q' t := by
  rw [obeys_bind]
  exact h.mono hf

/-! ### What a program may issue at all -/

/-- Every command the program issues meets `P`, whatever the replies. -/
def Only (P : S.Cmd → Prop) : Program S α → Prop
  | .done _ => True
  | .ask c k => P c ∧ ∀ r, (k r).Only P

variable {P : S.Cmd → Prop}

theorem only_pure (a : α) : (pure a : Program S α).Only P := trivial

theorem only_send {c : S.Cmd} (hc : P c) : (send c).Only P := ⟨hc, fun _ => trivial⟩

theorem Only.bind {p : Program S α} {f : α → Program S β} (h : p.Only P) (hf : ∀ a, (f a).Only P) :
    (p >>= f).Only P := by
  rw [bind_def]
  induction p with
  | done a => exact hf a
  | ask c k ih => exact ⟨h.1, fun r => ih r (h.2 r)⟩

theorem Only.mono {P' : S.Cmd → Prop} {p : Program S α} (h : p.Only P) (hP : ∀ c, P c → P' c) :
    p.Only P' := by
  induction p with
  | done a => trivial
  | ask c k ih => exact ⟨hP c h.1, fun r => ih r (h.2 r)⟩

/-- A program whose commands are permitted and leave the ghost as it is keeps the discipline. -/
theorem Only.obeys {p : Program S α} (h : p.Only P) (hmay : ∀ t c, P c → D.may t c)
    (hafter : ∀ t c r t', P c → D.after t c r t' → t' = t) (t : τ) :
    p.Obeys D (fun _ t' => t' = t) t := by
  induction p with
  | done a => rfl
  | ask c k ih =>
    refine ⟨hmay t c h.1, fun r t' hr => ?_⟩
    rw [hafter t c r t' h.1 hr]
    exact ih r (h.2 r)

end Program

end Command

end AiAgent

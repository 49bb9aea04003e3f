import AiAgent.Command.Program

/-!
# Programs that may fail

A client whose commands may be refused stops at the first refusal. Where nobody else is around one
can say that it gets through: `AiAgent.Command.Succeeds` says of a program and a state that the
program returns without an error, and what it returns and leaves. Among others one can say what it
keeps to as long as nothing is refused (`AiAgent.Command.Abides`). Both go through `bind`, so each
function of a client needs to be looked at once.
-/

namespace AiAgent

namespace Command

variable {S : Signature} {σ ε α β : Type} {M : Store S σ} {i : ℕ} {s : σ}

/-- The program returns without an error, with a result and a state that meet `Q`. -/
def Succeeds (M : Store S σ) (i : ℕ) (p : ExceptT ε (Program S) α) (s : σ) (Q : α → σ → Prop) :
    Prop :=
  ∃ a, (p.run.run M i s).1 = .ok a ∧ Q a (p.run.run M i s).2

theorem succeeds_pure {a : α} {Q : α → σ → Prop} (h : Q a s) :
    Succeeds M i (pure a : ExceptT ε (Program S) α) s Q := ⟨a, rfl, h⟩

/-- **One function after another.** -/
theorem Succeeds.bind {p : ExceptT ε (Program S) α} {f : α → ExceptT ε (Program S) β}
    {Q : α → σ → Prop} {Q' : β → σ → Prop} (h : Succeeds M i p s Q)
    (hf : ∀ a s', Q a s' → Succeeds M i (f a) s' Q') : Succeeds M i (p >>= f) s Q' := by
  obtain ⟨a, ha, hQ⟩ := h
  obtain ⟨b, hb, hQ'⟩ := hf a _ hQ
  have hrun : ((p >>= f).run.run M i s) = ((f a).run.run M i (p.run.run M i s).2) := by
    rw [ExceptT.run_bind, Program.run_bind, ha]
  exact ⟨b, by rw [hrun, hb], by rw [hrun]; exact hQ'⟩

theorem Succeeds.mono {p : ExceptT ε (Program S) α} {Q Q' : α → σ → Prop}
    (h : Succeeds M i p s Q) (hQ : ∀ a s', Q a s' → Q' a s') : Succeeds M i p s Q' := by
  obtain ⟨a, ha, hQa⟩ := h
  exact ⟨a, ha, hQ a _ hQa⟩

/-- A program returns once, so what is shown of its return twice holds together. -/
theorem Succeeds.and {p : ExceptT ε (Program S) α} {Q Q' : α → σ → Prop}
    (h : Succeeds M i p s Q) (h' : Succeeds M i p s Q') :
    Succeeds M i p s fun a s' => Q a s' ∧ Q' a s' := by
  obtain ⟨a, ha, hQ⟩ := h
  obtain ⟨a', ha', hQ'⟩ := h'
  obtain rfl : a = a' := Except.ok.inj (ha.symm.trans ha')
  exact ⟨a, ha, hQ, hQ'⟩

/-! ### Among others -/

variable {τ : Type} {D : Discipline S τ} {t : τ}

/-- The program keeps the discipline from a ghost on, and ends in `Q` if it returns without an
error. -/
def Abides (D : Discipline S τ) (p : ExceptT ε (Program S) α) (t : τ) (Q : α → τ → Prop) : Prop :=
  p.run.Obeys D (fun r t' => ∀ a, r = .ok a → Q a t') t

theorem abides_pure {a : α} {Q : α → τ → Prop} (h : Q a t) :
    Abides D (pure a : ExceptT ε (Program S) α) t Q := by
  rintro _ ⟨⟩
  exact h

/-- **One function after another.** -/
theorem Abides.bind {p : ExceptT ε (Program S) α} {f : α → ExceptT ε (Program S) β}
    {Q : α → τ → Prop} {Q' : β → τ → Prop} (h : Abides D p t Q)
    (hf : ∀ a t', Q a t' → Abides D (f a) t' Q') : Abides D (p >>= f) t Q' := by
  unfold Abides
  rw [ExceptT.run_bind]
  refine Program.Obeys.bind h ?_
  rintro (e | a) t' hQ
  · rintro _ ⟨⟩
  · exact hf a t' (hQ a rfl)

theorem Abides.mono {p : ExceptT ε (Program S) α} {Q Q' : α → τ → Prop} (h : Abides D p t Q)
    (hQ : ∀ a t', Q a t' → Q' a t') : Abides D p t Q' :=
  Program.Obeys.mono h fun _ t' hr a ha => hQ a t' (hr a ha)

end Command

end AiAgent

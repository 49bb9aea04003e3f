import AiAgent.Command.Program

/-!
# Programs that are cut short

A client may die between any two of its commands. What it has done then is the list of the
commands it has issued (`AiAgent.Command.Program.issued`), and the state is the one they leave, one
after the other (`AiAgent.Command.Program.cut_eq`).

A program that keeps a discipline whatever the replies (`AiAgent.Command.Program.Obeys`) has kept
it wherever it is cut (`AiAgent.Command.Program.Obeys.issued`). Where the replies matter, because
nobody else writes, `AiAgent.Command.Program.Throughout` goes through the functions of a program
one after the other.
-/

namespace AiAgent

namespace Command

variable {S : Signature} {σ τ α β : Type}

/-- The state after a list of commands of one client. -/
def Store.execAll (M : Store S σ) (i : ℕ) (cs : List S.Cmd) (s : σ) : σ :=
  cs.foldl (fun s c => (M.exec i c s).2) s

@[simp] theorem Store.execAll_nil (M : Store S σ) (i : ℕ) (s : σ) : M.execAll i [] s = s := rfl

@[simp] theorem Store.execAll_cons (M : Store S σ) (i : ℕ) (c : S.Cmd) (cs : List S.Cmd) (s : σ) :
    M.execAll i (c :: cs) s = M.execAll i cs (M.exec i c s).2 := rfl

namespace Program

variable (M : Store S σ) (i : ℕ)

/-- The commands a program has issued when it dies after `n` of them, or after all it has. -/
def issued : ℕ → Program S α → σ → List S.Cmd
  | 0, _, _ => []
  | _ + 1, .done _, _ => []
  | n + 1, .ask c k, s => c :: issued n (k (M.exec i c s).1) (M.exec i c s).2

/-- The state it leaves. -/
def cut : ℕ → Program S α → σ → σ
  | 0, _, s => s
  | _ + 1, .done _, s => s
  | n + 1, .ask c k, s => cut n (k (M.exec i c s).1) (M.exec i c s).2

variable {M i}

/-- **The state is the one the commands leave.** -/
theorem cut_eq (n : ℕ) (p : Program S α) (s : σ) :
    p.cut M i n s = M.execAll i (p.issued M i n s) s := by
  induction n generalizing p s with
  | zero => rfl
  | succ n ih =>
    cases p with
    | done a => rfl
    | ask c k => exact ih (k (M.exec i c s).1) (M.exec i c s).2

/-! ### Wherever it is cut -/

/-- **Wherever the program is cut**, and where it is not, the state it leaves meets `R`. -/
def Throughout (M : Store S σ) (i : ℕ) (R : σ → Prop) (p : Program S α) (s : σ) : Prop :=
  ∀ n, R (p.cut M i n s)

variable {R : σ → Prop} {p : Program S α} {s : σ}

theorem throughout_pure (a : α) (hs : R s) : (pure a : Program S α).Throughout M i R s := by
  rintro (_ | n)
  · exact hs
  · exact hs

theorem throughout_send {c : S.Cmd} (hs : R s) (hafter : R (M.exec i c s).2) :
    (send c).Throughout M i R s := by
  rintro (_ | _ | n)
  · exact hs
  · exact hafter
  · exact hafter

/-- A program that is not cut is cut behind its last command. -/
theorem Throughout.run (h : p.Throughout M i R s) : R (p.run M i s).2 := by
  induction p generalizing s with
  | done a => exact h 0
  | ask c k ih => exact ih _ fun n => h (n + 1)

/-- **One function after another** is cut in the first one or in the second one. -/
theorem Throughout.bind {f : α → Program S β} (h : p.Throughout M i R s)
    (hf : (f (p.run M i s).1).Throughout M i R (p.run M i s).2) :
    (p >>= f).Throughout M i R s := by
  rw [bind_def]
  induction p generalizing s with
  | done a => exact hf
  | ask c k ih =>
    rintro (_ | n)
    · exact h 0
    · exact ih _ (fun m => h (m + 1)) hf n

/-- What every command of the program keeps is kept wherever it is cut. -/
theorem Only.throughout {P : S.Cmd → Prop} (h : p.Only P)
    (hstep : ∀ c s, P c → R s → R (M.exec i c s).2) (hs : R s) : p.Throughout M i R s := by
  induction p generalizing s with
  | done a => exact throughout_pure a hs
  | ask c k ih =>
    rintro (_ | n)
    · exact hs
    · exact ih _ (h.2 _) (hstep c s h.1 hs) n

end Program

/-- The commands keep the discipline from a ghost on that each of them moves. -/
inductive Discipline.Kept (D : Discipline S τ) : τ → List S.Cmd → Prop
  /-- Nothing is left. -/
  | nil (t : τ) : Kept D t []
  /-- A command that is permitted, and more. -/
  | cons {t t' : τ} {c : S.Cmd} {r : S.Reply c} {cs : List S.Cmd} (hmay : D.may t c)
      (hafter : D.after t c r t') (hrest : Kept D t' cs) : Kept D t (c :: cs)

/-- **What obeys a discipline has kept it wherever it is cut**, if every reply leaves some ghost
to go on with. -/
theorem Program.Obeys.issued {D : Discipline S τ} {M : Store S σ} {i : ℕ}
    (hafter : ∀ t c r, ∃ t', D.after t c r t') {p : Program S α} {Q : α → τ → Prop} {t : τ}
    (h : p.Obeys D Q t) (n : ℕ) (s : σ) : D.Kept t (p.issued M i n s) := by
  induction n generalizing p t s with
  | zero => exact .nil t
  | succ n ih =>
    cases p with
    | done a => exact .nil t
    | ask c k =>
      obtain ⟨hmay, hnext⟩ := h
      obtain ⟨t', ht'⟩ := hafter t c (M.exec i c s).1
      exact .cons hmay ht' (ih (hnext _ t' ht') (M.exec i c s).2)

end Command

end AiAgent

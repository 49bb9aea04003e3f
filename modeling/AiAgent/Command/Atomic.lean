import Mathlib.Order.Basic

/-!
# Whole steps one after another

A system that takes one whole step at a time: a step is a label and what it does to the state.
The states reached by steps that each meet a condition in the state before them are
`AiAgent.Command.Reached`, and an invariant of the steps holds in all of them
(`AiAgent.Command.Reached.invariant`). What is to be said about the whole run, and not about its
last state, is noted beside the state (`AiAgent.Command.noted`).
-/

namespace AiAgent

namespace Command

variable {σ μ : Type} {move : μ → σ → σ} {init : σ → Prop} {ok ok' : σ → μ → Prop}

/-- The states reached from `init` by steps that meet `ok` in the state before them. -/
inductive Reached (move : μ → σ → σ) (init : σ → Prop) (ok : σ → μ → Prop) : σ → Prop
  /-- The start. -/
  | start {s : σ} (hs : init s) : Reached move init ok s
  /-- One more step. -/
  | step {s : σ} (hs : Reached move init ok s) (m : μ) (hm : ok s m) :
      Reached move init ok (move m s)

/-- **The run rule**: what holds at the start and is kept by every step that meets the condition
holds in every state that is reached. -/
theorem Reached.invariant {I : σ → Prop} (hinit : ∀ s, init s → I s)
    (hstep : ∀ s m, I s → ok s m → I (move m s)) {s : σ} (hs : Reached move init ok s) : I s := by
  induction hs with
  | start h => exact hinit _ h
  | step _ m hm ih => exact hstep _ m ih hm

/-- A list of steps that are allowed everywhere leads to a state that is reached. -/
theorem Reached.foldl {s : σ} (hs : Reached move init ok s) (ms : List μ)
    (hok : ∀ m ∈ ms, ∀ s, ok s m) : Reached move init ok (ms.foldl (fun s m => move m s) s) := by
  induction ms generalizing s with
  | nil => exact hs
  | cons m ms ih =>
    exact ih (hs.step m (hok m List.mem_cons_self s))
      fun m' hm' => hok m' (List.mem_cons_of_mem m hm')

/-! ### Keeping notes -/

/-- A step together with what is noted of it, seen in the state before it. -/
def noted {γ : Type} (move : μ → σ → σ) (note : σ → μ → γ → γ) (m : μ) (p : σ × γ) : σ × γ :=
  (move m p.1, note p.1 m p.2)

end Command

end AiAgent

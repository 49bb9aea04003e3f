import Mathlib.Logic.Function.Basic
import Mathlib.Order.Lattice

/-!
# Keys that expire

A store in which a key is set for some time. All that is kept of a key is its deadline: it stands
before that moment and is gone from then on. Setting a key again gives it a new deadline, be it
earlier or later (`AiAgent.Deadlines.set`), so a key that is to stand up to some moment has to be
given time enough by whoever sets it last (`AiAgent.Deadlines.Until.set`).
-/

namespace AiAgent

/-- The moment at which each key goes. -/
def Deadlines (κ T : Type) : Type := κ → Option T

namespace Deadlines

variable {κ T : Type}

/-- No key stands. -/
def empty : Deadlines κ T := fun _ => none

section Order

variable [LinearOrder T] {d : Deadlines κ T} {key : κ} {now t : T}

/-- `EXISTS`. -/
def existsAt (d : Deadlines κ T) (now : T) (key : κ) : Bool :=
  (d key).any fun deadline => now < deadline

/-- The key stands up to the moment `t`, if not longer. -/
def Until (d : Deadlines κ T) (key : κ) (t : T) : Prop :=
  ∃ deadline, d key = some deadline ∧ t ≤ deadline

theorem Until.existsAt (h : d.Until key t) (hnow : now < t) : d.existsAt now key = true := by
  obtain ⟨deadline, hdeadline, hle⟩ := h
  rw [Deadlines.existsAt, hdeadline]
  exact decide_eq_true (hnow.trans_le hle)

end Order

variable [DecidableEq κ] [Add T]

/-- `SET`, with a time to live. -/
def set (d : Deadlines κ T) (key : κ) (now ttl : T) : Deadlines κ T :=
  Function.update d key (some (now + ttl))

variable {d : Deadlines κ T} {key key' : κ} {now t ttl : T}

theorem set_self : d.set key now ttl key = some (now + ttl) := Function.update_self _ _ _

theorem set_of_ne (h : key' ≠ key) : d.set key now ttl key' = d key' := Function.update_of_ne h _ _

variable [LinearOrder T]

theorem until_set (h : t ≤ now + ttl) : (d.set key now ttl).Until key t := ⟨_, set_self, h⟩

/-- **A key goes on standing** if whoever sets it again gives it time enough. -/
theorem Until.set (h : d.Until key t) (hset : key' = key → t ≤ now + ttl) :
    (d.set key' now ttl).Until key t := by
  rcases eq_or_ne key' key with rfl | hne
  · exact until_set (hset rfl)
  · obtain ⟨deadline, hdeadline, hle⟩ := h
    exact ⟨deadline, by rw [set_of_ne hne.symm, hdeadline], hle⟩

/-- Once its time is over a key is gone. -/
theorem existsAt_set_of_le (h : now + ttl ≤ t) : (d.set key now ttl).existsAt t key = false := by
  rw [existsAt, set_self]
  exact decide_eq_false (not_lt.mpr h)

end Deadlines

end AiAgent

import Mathlib.Data.List.Destutter
import Mathlib.Data.List.Induction

/-!
# Logs of changes

A value is read time and again, and each reading that is not the one before is logged
(`AiAgent.ChangeLog.changes`). The log can be kept one reading at a time
(`AiAgent.ChangeLog.changes_concat`), and its last entry is what the value is now
(`AiAgent.ChangeLog.getLast?_cons_changes`).

A log of which only the newest entries are kept is the newest entries of the whole log
(`AiAgent.ChangeLog.newest_push`).
-/

namespace AiAgent

namespace ChangeLog

variable {ρ α : Type}

/-! ### Changes -/

section Changes

variable [DecidableEq ρ]

/-- What is logged of the readings that follow `a`. -/
def changes (a : ρ) (readings : List ρ) : List ρ := (readings.destutter' (· ≠ ·) a).tail

@[simp] theorem changes_nil (a : ρ) : changes a [] = [] := rfl

/-- With what was read first, the log is the readings without repetitions. -/
theorem cons_changes (a : ρ) (readings : List ρ) :
    a :: changes a readings = readings.destutter' (· ≠ ·) a := by
  rw [changes]
  induction readings with
  | nil => rfl
  | cons b readings ih =>
    by_cases hab : a ≠ b
    · rw [List.destutter'_cons_pos _ hab, List.tail_cons]
    · rw [List.destutter'_cons_neg _ hab, ih]

theorem changes_cons (a b : ρ) (readings : List ρ) :
    changes a (b :: readings) = if a = b then changes a readings else b :: changes b readings := by
  rw [changes]
  by_cases hab : a = b
  · rw [if_pos hab, List.destutter'_cons_neg _ (not_not_intro hab), changes]
  · rw [if_neg hab, List.destutter'_cons_pos _ hab, List.tail_cons, ← cons_changes]

/-- **One more reading**: it is logged if it is not the one before. -/
theorem changes_concat (a b : ρ) (readings : List ρ) :
    changes a (readings ++ [b]) =
      changes a readings ++ if (a :: readings).getLast? = some b then [] else [b] := by
  induction readings generalizing a with
  | nil => by_cases hab : a = b <;> simp [changes_cons, hab]
  | cons c readings ih =>
    rw [List.cons_append, changes_cons, changes_cons, List.getLast?_cons_cons]
    by_cases hac : a = c
    · rw [if_pos hac, if_pos hac, ih, hac]
    · rw [if_neg hac, if_neg hac, ih, List.cons_append]

/-- **The last entry is the last reading.** -/
theorem getLast?_cons_changes (a : ρ) (readings : List ρ) :
    (a :: changes a readings).getLast? = (a :: readings).getLast? := by
  induction readings using List.reverseRecOn with
  | nil => rfl
  | append_singleton readings b ih =>
    rw [changes_concat, ← List.cons_append, ← List.cons_append, List.getLast?_concat]
    by_cases hlast : (a :: readings).getLast? = some b
    · rw [if_pos hlast, List.append_nil, ih, hlast]
    · rw [if_neg hlast, List.getLast?_concat]

end Changes

/-! ### The newest entries -/

/-- An entry is put in front, and the log is cut to its newest entries. -/
def push (limit : ℕ) (log : List α) (entry : α) : List α := (entry :: log).take limit

/-- **What is kept is the newest of all.** -/
theorem newest_push (limit : ℕ) (log : List α) (entry : α) :
    push limit (log.take limit) entry = (entry :: log).take limit := by
  rw [push]
  rcases limit with - | limit
  · rfl
  · rw [List.take_succ_cons, List.take_succ_cons, List.take_take]
    congr 2
    omega

/-- Several entries, the oldest first. -/
theorem foldl_push (limit : ℕ) (log entries : List α) :
    entries.foldl (push limit) (log.take limit) = (entries.reverse ++ log).take limit := by
  induction entries generalizing log with
  | nil => rfl
  | cons entry entries ih =>
    rw [List.foldl_cons, newest_push, ih, List.reverse_cons, List.append_assoc,
      List.singleton_append]

end ChangeLog

end AiAgent

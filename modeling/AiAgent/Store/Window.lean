import Mathlib.Algebra.Order.Monoid.Defs
import Mathlib.Data.List.Basic
import Mathlib.Order.Lattice

/-!
# Windows that expire

Entries with the moment they were made at, kept under a key as long as they are young. Whenever one
is added those that have become too old are removed, and the key is given time to stand until the
last entry is too old itself; if no entry is added by then all of them go together
(`AiAgent.Window.add`).

Going together removes no entry too early and removing one by one leaves none too long: after any
log of additions in order of time the entries are those of the log that are young, no matter whether
the key has gone in between (`AiAgent.Window.add_ofLog`).
-/

namespace AiAgent

/-- What is kept under a key: entries with their moments, and the moment at which they all go. -/
structure Window (α T : Type) where
  entries : List (α × T)
  goes : T

namespace Window

variable {α T : Type} [LinearOrder T]

/-- The entries that stand at a moment. -/
def standing (now : T) : Option (Window α T) → List (α × T)
  | none => []
  | some w => if now < w.goes then w.entries else []

variable [AddCommMonoid T]

/-- The entries of a log that are younger than the width. -/
def young (width now : T) (log : List (α × T)) : List (α × T) :=
  log.filter fun e => now < e.2 + width

/-- An entry is added, and what is too old is removed. -/
def add (width now : T) (a : α) (kept : Option (Window α T)) : Window α T where
  entries := young width now (standing now kept ++ [(a, now)])
  goes := now + width

/-- What is kept after a log of additions: what is young at the last of them. -/
def ofLog (width : T) (log : List (α × T)) : Option (Window α T) :=
  log.getLast?.map fun last => ⟨young width last.2 log, last.2 + width⟩

theorem ofLog_concat (width : T) (log : List (α × T)) (last : α × T) :
    ofLog width (log ++ [last]) =
      some ⟨young width last.2 (log ++ [last]), last.2 + width⟩ := by
  rw [ofLog, List.getLast?_append, List.getLast?_singleton, Option.some_or, Option.map_some]

variable (width : T) {now : T} {log : List (α × T)}

/-- Nothing stands that was not added. -/
theorem mem_of_mem_standing {e : α × T} (h : e ∈ standing now (ofLog width log)) : e ∈ log := by
  rcases hkept : ofLog width log with _ | w
  · rw [hkept] at h
    cases h
  · rw [hkept, standing] at h
    obtain ⟨last, -, rfl⟩ := Option.map_eq_some_iff.mp hkept
    split at h
    · exact List.mem_of_mem_filter h
    · cases h

/-- What was young is what is young, of entries no older. -/
theorem young_young {before : T} (h : before ≤ now) :
    young width now (young width before log) = young width now log := by
  rw [young, young, young, List.filter_filter]
  refine List.filter_congr fun e _ => ?_
  rw [Bool.eq_iff_iff, Bool.and_eq_true, decide_eq_true_eq, decide_eq_true_eq]
  exact ⟨fun h => h.1, fun hyoung => ⟨hyoung, h.trans_lt hyoung⟩⟩

variable [IsOrderedAddMonoid T]

/-- **Of a log in order of time all stands that is young**, even if the key has gone. -/
theorem young_standing (hlog : log.Pairwise fun e f => e.2 ≤ f.2) (hnow : ∀ e ∈ log, e.2 ≤ now) :
    young width now (standing now (ofLog width log)) = young width now log := by
  rcases List.eq_nil_or_concat log with rfl | ⟨before, last, rfl⟩
  · rfl
  rw [List.concat_eq_append] at hlog hnow ⊢
  have hlast : last.2 ≤ now := hnow last (List.mem_append_right _ (List.mem_singleton.mpr rfl))
  rw [ofLog_concat, standing]
  by_cases hgone : now < last.2 + width
  · rw [if_pos hgone]
    exact young_young width hlast
  · -- The last entry is too old, and so are those before it.
    rw [if_neg hgone, eq_comm]
    refine List.filter_eq_nil_iff.mpr fun e he => ?_
    have hle : e.2 ≤ last.2 := by
      rcases List.mem_append.mp he with he | he
      · exact (List.pairwise_append.mp hlog).2.2 e he last (List.mem_singleton.mpr rfl)
      · exact (congrArg Prod.snd (List.mem_singleton.mp he)).le
    rw [decide_eq_true_eq, not_lt]
    exact (add_le_add_left hle width).trans (not_lt.mp hgone)

/-- **Adding keeps the window of the log.** -/
theorem add_ofLog (hlog : log.Pairwise fun e f => e.2 ≤ f.2) (hnow : ∀ e ∈ log, e.2 ≤ now)
    (a : α) : some (add width now a (ofLog width log)) = ofLog width (log ++ [(a, now)]) := by
  have hstanding := young_standing width hlog hnow
  rw [young] at hstanding
  rw [ofLog_concat, add, young, young, List.filter_append, List.filter_append, hstanding, young]

end Window

end AiAgent

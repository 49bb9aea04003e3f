import Mathlib.Algebra.BigOperators.Group.List.Basic
import Mathlib.Algebra.Order.BigOperators.Group.List
import Mathlib.Tactic.Abel
import Mathlib.Data.List.AList

/-!
# Totals over a key-value store

The total of a quantity over the values of an association list (`AiAgent.Store.total`). What
keeps a running counter honest is `AiAgent.Store.total_insert`: writing one key moves the total
by the new value's part less the old value's.
-/

namespace AiAgent

namespace Store

variable {α β M : Type}

/-- The sum of `g` over the values that are stored. -/
def total [AddCommGroup M] (g : β → M) (m : AList fun _ : α => β) : M :=
  (m.entries.map fun e => g e.2).sum

@[simp] theorem total_empty [AddCommGroup M] (g : β → M) :
    total g (∅ : AList fun _ : α => β) = 0 := rfl

/-- What the value stored under a key adds to the total. -/
def part [AddCommGroup M] (g : β → M) : Option β → M
  | none => 0
  | some v => g v

@[simp] theorem part_none [AddCommGroup M] (g : β → M) : part g none = 0 := rfl

@[simp] theorem part_some [AddCommGroup M] (g : β → M) (v : β) : part g (some v) = g v := rfl

variable [DecidableEq α]

/-- The total is a key's own part and the total of the other keys. -/
theorem total_eq_part_add [AddCommGroup M] (g : β → M) (m : AList fun _ : α => β) (k : α) :
    total g m = part g (m.lookup k) + ((m.entries.kerase k).map fun e => g e.2).sum := by
  by_cases hk : k ∈ m.keys
  · obtain ⟨v, l₁, l₂, -, hm, he⟩ := List.exists_of_kerase hk
    have hmem : (⟨k, v⟩ : Sigma fun _ : α => β) ∈ m.entries := by rw [hm]; simp
    have hlook : m.lookup k = some v := (List.mem_dlookup_iff m.nodupKeys).mpr hmem
    rw [total, hlook, he, hm]
    simp only [List.map_append, List.map_cons, List.sum_append, List.sum_cons, part_some]
    abel
  · have hlook : m.lookup k = none := AList.lookup_eq_none.mpr hk
    rw [total, hlook, List.kerase_of_notMem_keys hk, part_none, zero_add]

/-- **Writing a key moves the total** by the new value's part less the old value's. -/
theorem total_insert [AddCommGroup M] (g : β → M) (m : AList fun _ : α => β) (k : α) (v : β) :
    total g (m.insert k v) = total g m - part g (m.lookup k) + g v := by
  rw [total_eq_part_add g m k, total, AList.entries_insert]
  simp only [List.map_cons, List.sum_cons]
  abel

/-- No part is larger than a total of parts that are not negative. -/
theorem part_le_total (g : β → ℤ) (m : AList fun _ : α => β) (h : ∀ v, 0 ≤ g v) (k : α) :
    part g (m.lookup k) ≤ total g m := by
  rw [total_eq_part_add g m k]
  have hrest : 0 ≤ ((m.entries.kerase k).map fun e => g e.2).sum := by
    refine List.sum_nonneg fun x hx => ?_
    obtain ⟨e, -, rfl⟩ := List.mem_map.mp hx
    exact h e.2
  omega

end Store

end AiAgent

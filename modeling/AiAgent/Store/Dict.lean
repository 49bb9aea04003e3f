import Mathlib.Data.List.Induction
import Mathlib.Data.List.Nodup

/-!
# Dictionaries

Values under keys, in the order in which the keys came (`AiAgent.Dict`). A key that is set again
keeps its place, so no key occurs twice, and a value is under a key precisely if the two are an
entry (`AiAgent.Dict.get?_eq_some_iff`).

A dictionary made of pairs has the keys of the pairs, and each of its entries is one of them
(`AiAgent.Dict.mem_keys_ofPairs`, `AiAgent.Dict.mem_of_mem_ofPairs`).
-/

namespace AiAgent

/-- A dictionary. -/
structure Dict (κ ν : Type) where
  entries : List (κ × ν)
  nodup : (entries.map Prod.fst).Nodup

namespace Dict

variable {κ ν : Type}

/-- The dictionary of no keys. -/
def empty : Dict κ ν := ⟨[], List.nodup_nil⟩

def keys (d : Dict κ ν) : List κ := d.entries.map Prod.fst

def values (d : Dict κ ν) : List ν := d.entries.map Prod.snd

theorem exists_of_mem_values {d : Dict κ ν} {v : ν} (h : v ∈ d.values) :
    ∃ k, (k, v) ∈ d.entries := by
  obtain ⟨e, he, rfl⟩ := List.mem_map.mp h
  exact ⟨e.1, he⟩

theorem mem_values {d : Dict κ ν} {k : κ} {v : ν} (h : (k, v) ∈ d.entries) : v ∈ d.values :=
  List.mem_map_of_mem h

variable [DecidableEq κ]

/-- The value under a key. -/
def get? (d : Dict κ ν) (k : κ) : Option ν := (d.entries.find? fun e => e.1 = k).map Prod.snd

/-- The entries with a value set. -/
def setEntries (k : κ) (v : ν) : List (κ × ν) → List (κ × ν)
  | [] => [(k, v)]
  | e :: entries => if e.1 = k then (k, v) :: entries else e :: setEntries k v entries

theorem map_fst_setEntries (k : κ) (v : ν) (entries : List (κ × ν)) :
    (setEntries k v entries).map Prod.fst =
      if k ∈ entries.map Prod.fst then entries.map Prod.fst else entries.map Prod.fst ++ [k] := by
  induction entries with
  | nil => rfl
  | cons e entries ih =>
    rw [setEntries]
    by_cases hkey : e.1 = k
    · rw [if_pos hkey, List.map_cons, List.map_cons, if_pos (by simp [hkey]), hkey]
    · rw [if_neg hkey, List.map_cons, List.map_cons, ih]
      by_cases hmem : k ∈ entries.map Prod.fst
      · rw [if_pos hmem, if_pos (List.mem_cons_of_mem _ hmem)]
      · have hnew : k ∉ e.1 :: entries.map Prod.fst := by
          rw [List.mem_cons, not_or]
          exact ⟨Ne.symm hkey, hmem⟩
        rw [if_neg hmem, if_neg hnew]
        rfl

/-- A value is set. -/
def set (d : Dict κ ν) (k : κ) (v : ν) : Dict κ ν where
  entries := setEntries k v d.entries
  nodup := by
    rw [map_fst_setEntries]
    by_cases hmem : k ∈ d.entries.map Prod.fst
    · rw [if_pos hmem]
      exact d.nodup
    · rw [if_neg hmem]
      exact List.nodup_append.mpr ⟨d.nodup, List.nodup_singleton k, fun a ha b hb hab =>
        hmem (List.mem_singleton.mp hb ▸ hab ▸ ha)⟩

/-- A value is set under a key that has none. -/
def setDefault (d : Dict κ ν) (k : κ) (v : ν) : Dict κ ν := if k ∈ d.keys then d else d.set k v

/-- The pairs are set one after the other. -/
def ofPairs (pairs : List (κ × ν)) : Dict κ ν := pairs.foldl (fun d e => d.set e.1 e.2) empty

/-- **What is under a key is an entry.** -/
theorem get?_eq_some_iff {d : Dict κ ν} {k : κ} {v : ν} :
    d.get? k = some v ↔ (k, v) ∈ d.entries := by
  obtain ⟨entries, hnodup⟩ := d
  rw [get?]
  dsimp only
  induction entries with
  | nil => simp
  | cons e entries ih =>
    obtain ⟨hnew, hrest⟩ := List.nodup_cons.mp hnodup
    obtain ⟨k', v'⟩ := e
    by_cases hkey : k' = k
    · rw [List.find?_cons_of_pos (by simpa using hkey), Option.map_some, List.mem_cons,
        Option.some_inj, Prod.mk.injEq]
      constructor
      · rintro rfl
        exact .inl ⟨hkey.symm, rfl⟩
      · rintro (⟨-, rfl⟩ | hmem)
        · rfl
        · exact absurd (List.mem_map_of_mem hmem) (hkey ▸ hnew)
    · rw [List.find?_cons_of_neg (by simpa using hkey), ih hrest, List.mem_cons]
      exact ⟨.inr, fun h => h.resolve_left fun heq => hkey (congrArg Prod.fst heq).symm⟩

theorem exists_get?_of_mem_keys {d : Dict κ ν} {k : κ} (h : k ∈ d.keys) :
    ∃ v, d.get? k = some v := by
  obtain ⟨⟨k', v⟩, he, rfl⟩ := List.mem_map.mp h
  exact ⟨v, get?_eq_some_iff.mpr he⟩

theorem mem_keys_of_get? {d : Dict κ ν} {k : κ} {v : ν} (h : d.get? k = some v) : k ∈ d.keys :=
  List.mem_map_of_mem (get?_eq_some_iff.mp h)

theorem mem_keys_set {d : Dict κ ν} {k k' : κ} {v : ν} :
    k' ∈ (d.set k v).keys ↔ k' ∈ d.keys ∨ k' = k := by
  rw [keys, set, map_fst_setEntries]
  by_cases hmem : k ∈ d.entries.map Prod.fst
  · rw [if_pos hmem]
    exact ⟨.inl, fun h => h.elim id fun heq => heq ▸ hmem⟩
  · rw [if_neg hmem, List.mem_append, List.mem_singleton]
    exact Iff.rfl

theorem eq_or_mem_of_mem_setEntries {k : κ} {v : ν} {e : κ × ν} {entries : List (κ × ν)}
    (h : e ∈ setEntries k v entries) : e = (k, v) ∨ e ∈ entries := by
  induction entries with
  | nil => exact .inl (List.mem_singleton.mp h)
  | cons e' entries ih =>
    rw [setEntries] at h
    by_cases hkey : e'.1 = k
    · rw [if_pos hkey] at h
      exact (List.mem_cons.mp h).imp id (List.mem_cons_of_mem _)
    · rw [if_neg hkey] at h
      rcases List.mem_cons.mp h with rfl | h
      · exact .inr List.mem_cons_self
      · exact (ih h).imp id (List.mem_cons_of_mem _)

theorem ofPairs_concat (pairs : List (κ × ν)) (e : κ × ν) :
    ofPairs (pairs ++ [e]) = (ofPairs pairs).set e.1 e.2 := by
  rw [ofPairs, List.foldl_append]
  rfl

/-- **The keys of pairs.** -/
theorem mem_keys_ofPairs {pairs : List (κ × ν)} {k : κ} :
    k ∈ (ofPairs pairs).keys ↔ k ∈ pairs.map Prod.fst := by
  induction pairs using List.reverseRecOn with
  | nil => exact Iff.rfl
  | append_singleton pairs e ih =>
    rw [ofPairs_concat, mem_keys_set, ih, List.map_append, List.mem_append, List.map_singleton,
      List.mem_singleton]

/-- The entries of pairs are among them. -/
theorem mem_of_mem_ofPairs {pairs : List (κ × ν)} {e : κ × ν} (h : e ∈ (ofPairs pairs).entries) :
    e ∈ pairs := by
  induction pairs using List.reverseRecOn with
  | nil => exact h
  | append_singleton pairs e' ih =>
    rw [ofPairs_concat] at h
    rcases eq_or_mem_of_mem_setEntries h with rfl | h
    · exact List.mem_append_right _ (List.mem_singleton.mpr rfl)
    · exact List.mem_append_left _ (ih h)

theorem find?_setEntries (k k' : κ) (v : ν) (entries : List (κ × ν)) :
    (setEntries k v entries).find? (fun e => decide (e.1 = k')) =
      if k = k' then some (k, v) else entries.find? fun e => decide (e.1 = k') := by
  induction entries with
  | nil => by_cases hk : k = k' <;> simp [setEntries, hk]
  | cons e entries ih =>
    rw [setEntries]
    by_cases hkey : e.1 = k
    · by_cases hk : k = k' <;> simp [hkey, hk]
    · rw [if_neg hkey]
      by_cases he : e.1 = k'
      · have hne : k ≠ k' := fun h => hkey (he.trans h.symm)
        simp [he, hne]
      · simp [he, ih]

/-- **What is set is there, and nothing else has changed.** -/
theorem get?_set (d : Dict κ ν) (k k' : κ) (v : ν) :
    (d.set k v).get? k' = if k = k' then some v else d.get? k' := by
  rw [get?, get?, set, find?_setEntries]
  split <;> rfl

/-- Under a key is what was set last. -/
theorem get?_ofPairs (pairs : List (κ × ν)) (k : κ) :
    (ofPairs pairs).get? k = (pairs.filter fun e => e.1 = k).getLast?.map Prod.snd := by
  induction pairs using List.reverseRecOn with
  | nil => rfl
  | append_singleton pairs e ih =>
    rw [ofPairs_concat, get?_set, ih, List.filter_append]
    by_cases hk : e.1 = k <;> simp [hk]

end Dict

end AiAgent

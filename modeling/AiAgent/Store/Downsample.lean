import AiAgent.Store.Dict
import Mathlib.Data.List.Sort
import Mathlib.Order.Interval.Finset.Nat

/-!
# The last of each bucket

A long list is thinned out by sorting its elements into buckets and keeping the last element of each
(`AiAgent.Downsample.lastOfEach`). What is kept stands in the order of the buckets, one element for
each bucket there is (`AiAgent.Downsample.pairwise_lastOfEach`,
`AiAgent.Downsample.exists_mem_lastOfEach`). Of a list that is in the order of its buckets the very
last element is kept, as the last one (`AiAgent.Downsample.getLast?_lastOfEach`).
-/

namespace AiAgent

namespace Downsample

variable {α β : Type} [LinearOrder β] (bucket : α → β)

/-- The last element of each bucket, in the order of the buckets. -/
def lastOfEach (l : List α) : List α :=
  let buckets := Dict.ofPairs (l.map fun a => (bucket a, a))
  (buckets.keys.insertionSort (· ≤ ·)).filterMap buckets.get?

variable {bucket} {l : List α}

theorem get?_buckets (l : List α) (b : β) :
    (Dict.ofPairs (l.map fun a => (bucket a, a))).get? b =
      (l.filter fun a => bucket a = b).getLast? := by
  rw [Dict.get?_ofPairs, List.filter_map, List.getLast?_map, Option.map_map]
  exact Option.map_id'

/-- An element is kept if it is the last of its bucket. -/
theorem mem_lastOfEach {a : α} :
    a ∈ lastOfEach bucket l ↔ (l.filter fun b => bucket b = bucket a).getLast? = some a := by
  rw [lastOfEach, List.mem_filterMap]
  constructor
  · rintro ⟨b, -, hget⟩
    rw [get?_buckets] at hget
    have hmem := List.mem_of_getLast? hget
    obtain rfl : bucket a = b := by simpa using (List.mem_filter.mp hmem).2
    exact hget
  · intro hlast
    refine ⟨bucket a, ?_, (get?_buckets l (bucket a)).trans hlast⟩
    exact (List.mem_insertionSort _).mpr (Dict.mem_keys_of_get? ((get?_buckets l _).trans hlast))

theorem mem_of_mem_lastOfEach {a : α} (h : a ∈ lastOfEach bucket l) : a ∈ l :=
  List.mem_of_mem_filter (List.mem_of_getLast? (mem_lastOfEach.mp h))

/-- **Each bucket is represented.** -/
theorem exists_mem_lastOfEach (bucket : α → β) {a : α} (h : a ∈ l) :
    ∃ b ∈ lastOfEach bucket l, bucket b = bucket a := by
  have hne : (l.filter fun b => bucket b = bucket a) ≠ [] := by
    intro hnil
    simpa using List.filter_eq_nil_iff.mp hnil a h
  have hlast := List.getLast?_eq_some_getLast hne
  have hbucket : bucket ((l.filter fun b => bucket b = bucket a).getLast hne) = bucket a := by
    simpa using (List.mem_filter.mp (List.getLast_mem hne)).2
  exact ⟨_, mem_lastOfEach.mpr (by rw [hbucket]; exact hlast), hbucket⟩

/-- **One element for each bucket, in their order.** -/
theorem pairwise_lastOfEach (bucket : α → β) (l : List α) :
    (lastOfEach bucket l).Pairwise fun a b => bucket a < bucket b := by
  rw [lastOfEach]
  have hsorted : ((Dict.ofPairs (l.map fun a => (bucket a, a))).keys.insertionSort
      (· ≤ ·)).Pairwise (· < ·) := by
    have hle := List.pairwise_insertionSort (· ≤ ·)
      (Dict.ofPairs (l.map fun a => (bucket a, a))).keys
    have hne : ((Dict.ofPairs (l.map fun a => (bucket a, a))).keys.insertionSort
        (· ≤ ·)).Nodup :=
      (List.perm_insertionSort _ _).nodup_iff.mpr (Dict.ofPairs _).nodup
    exact hle.imp₂ (fun _ _ hle hne => lt_of_le_of_ne hle hne) hne
  refine List.Pairwise.filterMap _ ?_ hsorted
  intro b b' hlt a ha a' ha'
  rw [get?_buckets] at ha ha'
  have hbucket : bucket a = b := by
    simpa using (List.mem_filter.mp (List.mem_of_getLast? ha)).2
  have hbucket' : bucket a' = b' := by
    simpa using (List.mem_filter.mp (List.mem_of_getLast? ha')).2
  rwa [hbucket, hbucket']

/-- **What is last stays last**, where the list is in the order of the buckets. -/
theorem getLast?_lastOfEach (hl : l.Pairwise fun a b => bucket a ≤ bucket b) :
    (lastOfEach bucket l).getLast? = l.getLast? := by
  rcases List.eq_nil_or_concat l with rfl | ⟨before, last, rfl⟩
  · rfl
  rw [List.concat_eq_append] at hl ⊢
  have hkept : last ∈ lastOfEach bucket (before ++ [last]) := by
    refine mem_lastOfEach.mpr ?_
    rw [List.filter_append]
    simp
  obtain ⟨s, t, hst⟩ := List.append_of_mem hkept
  -- What stands behind it would be of a later bucket.
  have ht : t = [] := by
    refine List.eq_nil_iff_forall_not_mem.mpr fun a ha => ?_
    have hpair := pairwise_lastOfEach bucket (before ++ [last])
    rw [hst] at hpair
    have hlt := (List.pairwise_cons.mp (List.pairwise_append.mp hpair).2.1).1 a ha
    have hkept : a ∈ lastOfEach bucket (before ++ [last]) := by rw [hst]; simp [ha]
    have hmem := mem_of_mem_lastOfEach hkept
    have hle : bucket a ≤ bucket last := by
      rcases List.mem_append.mp hmem with hmem | hmem
      · exact (List.pairwise_append.mp hl).2.2 a hmem last (List.mem_singleton.mpr rfl)
      · rw [List.mem_singleton.mp hmem]
    exact absurd hlt (not_lt.mpr hle)
  rw [hst, ht, List.getLast?_append, List.getLast?_append]
  rfl

/-- No more elements than buckets. -/
theorem length_lastOfEach_le {bucket : α → ℕ} {low high : ℕ}
    (h : ∀ a ∈ l, low ≤ bucket a ∧ bucket a ≤ high) :
    (lastOfEach bucket l).length ≤ high + 1 - low := by
  have hnodup : ((lastOfEach bucket l).map bucket).Nodup :=
    (List.pairwise_map.mpr (pairwise_lastOfEach bucket l)).imp ne_of_lt
  have hsubset : ((lastOfEach bucket l).map bucket).toFinset ⊆ Finset.Icc low high := by
    intro b hb
    obtain ⟨a, ha, rfl⟩ := List.mem_map.mp (List.mem_toFinset.mp hb)
    exact Finset.mem_Icc.mpr (h a (mem_of_mem_lastOfEach ha))
  calc (lastOfEach bucket l).length = ((lastOfEach bucket l).map bucket).toFinset.card := by
        rw [List.toFinset_card_of_nodup hnodup, List.length_map]
    _ ≤ (Finset.Icc low high).card := Finset.card_le_card hsubset
    _ = high + 1 - low := Nat.card_Icc low high

end Downsample

end AiAgent

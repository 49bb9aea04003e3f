import AiAgent.Text.Strip
import Mathlib.Data.List.Infix

/-!
# Searching, splitting and joining texts

A separator is looked for from the left by `AiAgent.Text.splitOnce` and from the right by
`AiAgent.Text.rsplitOnce`; both say what stands on its two sides. `AiAgent.Text.splitlines` cuts a
text into its lines, and `AiAgent.Text.join` puts texts together with a separator between them.

What is proved is what the users of these need: the two sides and the separator are the text
again, and a join is as long as its parts and its separators.
-/

namespace AiAgent

namespace Text

/-! ### Splitting at a separator -/

/-- What stands before and after the first occurrence of the separator. -/
def splitOnce (sep : Text) : Text → Option (Text × Text)
  | [] => if sep = [] then some ([], []) else none
  | c :: t =>
    if sep.isPrefixOf (c :: t) then some ([], (c :: t).drop sep.length)
    else (splitOnce sep t).map fun sides => (c :: sides.1, sides.2)

/-- What stands before and after the last occurrence of the separator. -/
def rsplitOnce (sep t : Text) : Option (Text × Text) :=
  (splitOnce sep.reverse t.reverse).map fun sides => (sides.2.reverse, sides.1.reverse)

/-- The two sides and the separator are the text. -/
theorem eq_of_splitOnce {sep : Text} :
    ∀ {t before after : Text}, splitOnce sep t = some (before, after) →
      t = before ++ (sep ++ after) := by
  intro t
  induction t with
  | nil =>
    intro before after h
    rw [splitOnce] at h
    by_cases hsep : sep = []
    · rw [if_pos hsep] at h
      cases h
      rw [hsep]
      rfl
    · rw [if_neg hsep] at h
      cases h
  | cons c t ih =>
    intro before after h
    rw [splitOnce] at h
    by_cases hsep : sep.isPrefixOf (c :: t)
    · rw [if_pos hsep] at h
      cases h
      obtain ⟨u, hu⟩ := List.isPrefixOf_iff_prefix.mp hsep
      rw [← hu, List.drop_left]
      rfl
    · rw [if_neg hsep, Option.map_eq_some_iff] at h
      obtain ⟨⟨b, a⟩, hsides, hpair⟩ := h
      cases hpair
      rw [ih hsides]
      rfl

/-- A separator at the front is found there. -/
theorem splitOnce_append {sep : Text} (hsep : sep ≠ []) (t : Text) :
    splitOnce sep (sep ++ t) = some ([], t) := by
  obtain ⟨c, u, rfl⟩ := List.exists_cons_of_ne_nil hsep
  have hfound : (c :: u).isPrefixOf (c :: (u ++ t)) = true :=
    List.isPrefixOf_iff_prefix.mpr ⟨t, rfl⟩
  rw [List.cons_append, splitOnce, if_pos hfound, ← List.cons_append, List.drop_left]

/-- What does not have the separator's first character is passed over. -/
theorem splitOnce_append_of_notMem {sep : Text} {c : Char} (hsep : sep.head? = some c)
    {u : Text} (hu : c ∉ u) (t : Text) :
    splitOnce sep (u ++ t) = (splitOnce sep t).map fun sides => (u ++ sides.1, sides.2) := by
  induction u with
  | nil => simp
  | cons d u ih =>
    have hnot : ¬ sep.isPrefixOf (d :: (u ++ t)) = true := by
      intro hfound
      obtain ⟨v, hv⟩ := List.isPrefixOf_iff_prefix.mp hfound
      have hhead : (sep ++ v).head? = some c := by rw [List.head?_append, hsep]; rfl
      rw [hv] at hhead
      exact hu (by rw [← Option.some.inj hhead]; exact List.mem_cons_self)
    rw [List.cons_append, splitOnce, if_neg hnot, ih fun hmem => hu (List.mem_cons_of_mem d hmem),
      Option.map_map]
    rfl

/-- A separator at the end is found there. -/
theorem rsplitOnce_append {sep : Text} (hsep : sep ≠ []) (t : Text) :
    rsplitOnce sep (t ++ sep) = some (t, []) := by
  rw [rsplitOnce, List.reverse_append, splitOnce_append (by simpa using hsep)]
  simp

/-! ### Lines -/

/-- The characters that end a line. -/
def endsLine (c : Char) : Bool :=
  (10 ≤ c.toNat && c.toNat ≤ 13) || (28 ≤ c.toNat && c.toNat ≤ 30) || c.toNat == 0x85 ||
    c.toNat == 0x2028 || c.toNat == 0x2029

/-- The lines of a text, without their ends. A carriage return and a line feed are one end. -/
def splitlines : Text → List Text
  | [] => []
  | '\r' :: '\n' :: t => [] :: splitlines t
  | c :: t =>
    if endsLine c then [] :: splitlines t
    else
      match splitlines t with
      | [] => [[c]]
      | line :: lines => (c :: line) :: lines

/-! ### Joining -/

/-- The texts with the separator between them. -/
def join (sep : Text) (ts : List Text) : Text := List.intercalate sep ts

@[simp] theorem join_nil (sep : Text) : join sep [] = [] := rfl

@[simp] theorem join_singleton (sep t : Text) : join sep [t] = t := by
  rw [join, List.intercalate_singleton]

theorem join_cons_cons (sep t u : Text) (ts : List Text) :
    join sep (t :: u :: ts) = t ++ (sep ++ join sep (u :: ts)) := by
  rw [join, List.intercalate_cons_cons, List.append_assoc, join]

/-- A text joined at the end adds its length, and that of a separator where there is one. -/
theorem length_join_concat (sep t : Text) (ts : List Text) :
    (join sep (ts ++ [t])).length =
      (join sep ts).length + (if ts = [] then 0 else sep.length) + t.length := by
  induction ts with
  | nil => simp
  | cons u ts ih =>
    cases ts with
    | nil =>
      rw [List.singleton_append, join_cons_cons]
      simp [Nat.add_assoc]
    | cons v ts =>
      rw [List.cons_append, List.cons_append, join_cons_cons, join_cons_cons, ← List.cons_append]
      simp only [List.length_append, ih, reduceCtorEq, if_false]
      omega

end Text

end AiAgent

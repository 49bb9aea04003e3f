import Mathlib.Data.List.Basic
import Mathlib.Data.List.DropRight

/-!
# Stripping and lowering texts

A text is a list of characters. The two operations every textual field goes through before it is
looked at are `AiAgent.Text.strip`, which removes the white space at both ends, and
`AiAgent.Text.lower`. What later files need of `strip` is that a stripped text begins and ends
with a visible character (`AiAgent.Text.Tight`), that stripping changes nothing there, and that
stripping never lengthens.
-/

namespace AiAgent

/-- A text: a sequence of characters. -/
abbrev Text := List Char

namespace Text

/-! ### Deciding -/

/-- Texts are equal if they have the same characters. -/
instance (priority := high) lawfulBEq : LawfulBEq Text := List.instLawfulBEq

/-- What is said of all characters of a text is decided along the text. -/
instance (priority := high) decidableForallMem {p : Char → Prop} [DecidablePred p] (t : Text) :
    Decidable (∀ c ∈ t, p c) := List.decidableBAll p t

/-- So is what is said of one of them. -/
instance (priority := high) decidableExistsMem {p : Char → Prop} [DecidablePred p] (t : Text) :
    Decidable (∃ c ∈ t, p c) := List.decidableBEx p t

/-- And what is said of a character that may be there. -/
instance (priority := high) decidableForallMemOption {p : Char → Prop} [DecidablePred p]
    (c : Option Char) : Decidable (∀ d ∈ c, p d) := Option.decidableForallMem c

/-! ### White space -/

/-- The characters that count as white space: the control characters that separate, the space,
and the space characters of Unicode. -/
def isSpace (c : Char) : Bool :=
  (9 ≤ c.toNat && c.toNat ≤ 13) || (28 ≤ c.toNat && c.toNat ≤ 32) || c.toNat == 0x85 ||
    c.toNat == 0xA0 || c.toNat == 0x1680 || (0x2000 ≤ c.toNat && c.toNat ≤ 0x200A) ||
    c.toNat == 0x2028 || c.toNat == 0x2029 || c.toNat == 0x202F || c.toNat == 0x205F ||
    c.toNat == 0x3000

/-- What is printed in ASCII and not blank is no white space. -/
theorem isSpace_eq_false_of_printable {c : Char} (hlow : 0x20 < c.toNat) (hhigh : c.toNat < 0x7f) :
    isSpace c = false := by
  rw [isSpace]
  simp only [Bool.or_eq_false_iff, Bool.and_eq_false_iff, decide_eq_false_iff_not,
    beq_eq_false_iff_ne]
  omega

/-- The text without its leading white space. -/
def lstrip (t : Text) : Text := t.dropWhile isSpace

/-- The text without its trailing white space. -/
def rstrip (t : Text) : Text := t.rdropWhile isSpace

/-- The text without the white space at its ends. -/
def strip (t : Text) : Text := rstrip (lstrip t)

/-- A text with no white space at either end. -/
def Tight (t : Text) : Prop :=
  (∀ c, t.head? = some c → isSpace c = false) ∧ ∀ c, t.getLast? = some c → isSpace c = false

/-- A text of which stripping leaves nothing. -/
def Blank (t : Text) : Prop := strip t = []

instance (t : Text) : Decidable (Blank t) := inferInstanceAs (Decidable (strip t = []))

theorem lstrip_suffix (t : Text) : lstrip t <:+ t := List.dropWhile_suffix _

theorem rstrip_isInit (t : Text) : rstrip t <+: t := List.rdropWhile_prefix _ _

theorem length_rstrip_le (t : Text) : (rstrip t).length ≤ t.length :=
  (rstrip_isInit t).length_le

/-- Stripping never lengthens. -/
theorem length_strip_le (t : Text) : (strip t).length ≤ t.length :=
  (length_rstrip_le _).trans (lstrip_suffix t).length_le

theorem lstrip_head (t : Text) {c : Char} (h : (lstrip t).head? = some c) :
    isSpace c = false := by
  have hnot := List.head?_dropWhile_not isSpace t
  rw [show (t.dropWhile isSpace).head? = some c from h] at hnot
  exact hnot

theorem rstrip_last (t : Text) {c : Char} (h : (rstrip t).getLast? = some c) :
    isSpace c = false := by
  have hne : t.rdropWhile isSpace ≠ [] := by
    intro he
    rw [rstrip, he] at h
    cases h
  rw [rstrip, List.getLast?_eq_getLast_of_ne_nil hne] at h
  rw [← Option.some.inj h]
  simpa only [Bool.not_eq_true] using List.rdropWhile_last_not isSpace t hne

/-- **A stripped text has no white space at its ends.** -/
theorem tight_strip (t : Text) : Tight (strip t) := by
  refine ⟨fun c hc => ?_, fun c hc => rstrip_last _ hc⟩
  obtain ⟨u, hu⟩ := rstrip_isInit (lstrip t)
  refine lstrip_head t (c := c) ?_
  rw [← hu]
  change (strip t ++ u).head? = some c
  rw [List.head?_append, hc]
  rfl

theorem lstrip_of_head {t : Text} (h : ∀ c, t.head? = some c → isSpace c = false) :
    lstrip t = t := by
  cases t with
  | nil => rfl
  | cons a l => exact List.dropWhile_cons_of_neg (by simp [h a rfl])

theorem rstrip_of_last {t : Text} (h : ∀ c, t.getLast? = some c → isSpace c = false) :
    rstrip t = t := by
  rcases List.eq_nil_or_concat t with rfl | ⟨l, a, rfl⟩
  · rfl
  · rw [List.concat_eq_append] at h ⊢
    exact List.rdropWhile_concat_neg isSpace l a (by simp [h a (by simp)])

/-- Stripping changes nothing where there is no white space at the ends. -/
theorem strip_of_tight {t : Text} (h : Tight t) : strip t = t := by
  rw [strip, lstrip_of_head h.1, rstrip_of_last h.2]

@[simp] theorem strip_strip (t : Text) : strip (strip t) = strip t := strip_of_tight (tight_strip t)

@[simp] theorem strip_nil : strip [] = [] := rfl

theorem strip_ne_nil_of_head {t : Text} {c : Char} (h : t.head? = some c)
    (hc : isSpace c = false) : strip t ≠ [] := by
  intro hnil
  have hl : lstrip t = t := lstrip_of_head fun d hd => by
    rw [h] at hd
    rwa [← Option.some.inj hd]
  rw [strip, hl] at hnil
  have hall := List.rdropWhile_eq_nil_iff.mp hnil
  rw [hall c (List.mem_of_mem_head? h)] at hc
  cases hc

/-! ### Stripping texts that are put together -/

theorem rstrip_append_blank {t b : Text} (hb : ∀ c ∈ b, isSpace c = true) :
    rstrip (t ++ b) = rstrip t := by
  have hreverse : ∀ c ∈ b.reverse, isSpace c = true := fun c hc => hb c (List.mem_reverse.mp hc)
  rw [rstrip, rstrip, List.rdropWhile, List.rdropWhile, List.reverse_append,
    List.dropWhile_append_of_pos hreverse]

theorem strip_append_blank {t b : Text} (ht : Tight t) (hne : t ≠ [])
    (hb : ∀ c ∈ b, isSpace c = true) : strip (t ++ b) = t := by
  obtain ⟨c, u, rfl⟩ := List.exists_cons_of_ne_nil hne
  have hhead : lstrip (c :: u ++ b) = c :: u ++ b := lstrip_of_head fun d hd => ht.1 d hd
  rw [strip, hhead, rstrip_append_blank hb, rstrip_of_last ht.2]

theorem rstrip_eq_nil_iff {t : Text} : rstrip t = [] ↔ ∀ c ∈ t, isSpace c = true :=
  List.rdropWhile_eq_nil_iff

theorem blank_iff {t : Text} : Blank t ↔ ∀ c ∈ t, isSpace c = true := by
  rw [Blank, strip, rstrip_eq_nil_iff]
  constructor
  · rintro h c hc
    rw [← List.takeWhile_append_dropWhile (p := isSpace) (l := t)] at hc
    rcases List.mem_append.mp hc with hc | hc
    · exact List.mem_takeWhile_imp hc
    · exact h c hc
  · rintro h c hc
    exact h c ((lstrip_suffix t).subset hc)

/-- White space behind a text is stripped. -/
theorem strip_append_of_blank_right {u v : Text} (hv : Blank v) : strip (u ++ v) = strip u := by
  rw [blank_iff] at hv
  rw [strip, strip, lstrip, lstrip, List.dropWhile_append]
  split
  · next hnil =>
    have hv' : v.dropWhile isSpace = [] := List.dropWhile_eq_nil_iff.mpr hv
    rw [hv', List.isEmpty_iff.mp hnil]
  · exact rstrip_append_blank hv

theorem strip_append_of_blank_left {u v : Text} (hu : Blank u) : strip (u ++ v) = strip v := by
  rw [strip, strip, lstrip, lstrip, List.dropWhile_append_of_pos (blank_iff.mp hu)]

theorem rstrip_append_of_not_blank {u v : Text} (hv : ¬ Blank v) :
    rstrip (u ++ v) = u ++ rstrip v := by
  rw [rstrip, rstrip, List.rdropWhile, List.rdropWhile, List.reverse_append,
    List.dropWhile_append]
  have hne : ¬ (v.reverse.dropWhile isSpace).isEmpty = true := by
    rw [List.isEmpty_iff, List.dropWhile_eq_nil_iff]
    rintro h
    exact hv (blank_iff.mpr fun c hc => h c (List.mem_reverse.mpr hc))
  rw [if_neg hne, List.reverse_append, List.reverse_reverse]

/-- **A text that is gone on with begins as before once it is stripped**, and is longer if what
follows is not blank. -/
theorem strip_prefix_append {u v : Text} (hv : ¬ Blank v) :
    strip u <+: strip (u ++ v) ∧ (strip u).length < (strip (u ++ v)).length := by
  by_cases hu : Blank u
  · have hnil : strip u = [] := hu
    rw [strip_append_of_blank_left hu, hnil]
    exact ⟨List.nil_prefix, List.length_pos_of_ne_nil hv⟩
  · have hne : ¬ (u.dropWhile isSpace).isEmpty = true := by
      rw [List.isEmpty_iff, List.dropWhile_eq_nil_iff]
      exact fun h => hu (blank_iff.mpr h)
    have hgoes : strip (u ++ v) = lstrip u ++ rstrip v := by
      rw [strip, lstrip, List.dropWhile_append, if_neg hne, rstrip_append_of_not_blank hv]
      rfl
    have hpos : rstrip v ≠ [] := by
      rw [Ne, rstrip_eq_nil_iff, ← blank_iff]
      exact hv
    refine ⟨?_, ?_⟩
    · rw [hgoes]
      exact (rstrip_isInit _).trans (List.prefix_append _ _)
    · have hle := (rstrip_isInit (lstrip u)).length_le
      have hlength := List.length_pos_of_ne_nil hpos
      rw [hgoes, List.length_append]
      change (rstrip (lstrip u)).length < _
      omega

/-- What a text begins with and is visible at its end is not stripped from its right. -/
theorem prefix_rstrip {x y : Text} (h : x <+: y)
    (hx : ∀ c, x.getLast? = some c → isSpace c = false) : x <+: rstrip y := by
  obtain ⟨z, rfl⟩ := h
  by_cases hz : Blank z
  · have hself : rstrip (x ++ z) = x :=
      (rstrip_append_blank (blank_iff.mp hz)).trans (rstrip_of_last hx)
    exact hself.symm ▸ List.prefix_refl x
  · rw [rstrip_append_of_not_blank hz]
    exact List.prefix_append _ _

/-! ### Lowering -/

/-- The text in lower case. Only the Latin letters are lowered: a text is lowered to be compared
with a word of Latin letters and digits, and the one capital outside the Latin alphabet that
lowers into it, the Kelvin sign, lowers to a letter that occurs in none of these words. -/
def lower (t : Text) : Text := t.map Char.toLower

/-- A letter that was lowered is low. -/
theorem toLower_toLower (c : Char) : c.toLower.toLower = c.toLower := by
  by_cases h : c.val ≥ 'A'.val ∧ c.val ≤ 'Z'.val
  · have hlow : ¬ (c.toLower.val ≥ 'A'.val ∧ c.toLower.val ≤ 'Z'.val) := by
      obtain ⟨hge, hle⟩ := id h
      have hval : c.toLower.val.toNat = (c.val.toNat + 32) % 2 ^ 32 := by
        have hlower : c.toLower = _ := dif_pos h
        rw [hlower]
        exact UInt32.toNat_add _ _
      rintro ⟨-, hZ⟩
      rw [ge_iff_le, UInt32.le_iff_toNat_le] at hge
      rw [UInt32.le_iff_toNat_le] at hle hZ
      rw [hval] at hZ
      have hfirst : 'A'.val.toNat = 65 := rfl
      have hlast : 'Z'.val.toNat = 90 := rfl
      omega
    exact dif_neg hlow
  · have hsame : c.toLower = c := dif_neg h
    rw [hsame, hsame]

theorem lower_lower (t : Text) : lower (lower t) = lower t := by
  rw [lower, lower, List.map_map]
  exact List.map_congr_left fun c _ => toLower_toLower c

end Text

end AiAgent

import AiAgent.Text.Fields
import AiAgent.Text.Lines
import AiAgent.Text.Utf8
import Mathlib.Tactic.Common

/-!
# Directory entries as text

How the attributes of an entry are printed: a safe value stands behind a colon, and any other one
behind two colons in base64 of its bytes; a line of more than 76 characters is folded, that is, cut
by a line feed and one blank.

What is looked for in such a line is the field behind its name. It is there as it was printed, folds
included (`AiAgent.Text.findFields_ldifLine`), and no other field is found, unless its name stands
in the value (`AiAgent.Text.findFields_ldifLine_of_ne`): a fold joins nothing
(`AiAgent.Text.infix_of_infix_foldFrom`), and in base64 there is no colon.
-/

namespace AiAgent

namespace Text

/-! ### Base64 -/

/-- A digit of base64. -/
def base64Digit (n : ℕ) : Char :=
  if n < 26 then Char.ofNat (65 + n)
  else if n < 52 then Char.ofNat (71 + n)
  else if n < 62 then Char.ofNat (n - 4)
  else if n = 62 then '+'
  else '/'

/-- Base64, with its padding. -/
def base64 : List UInt8 → Text
  | [] => []
  | [a] => [base64Digit (a.toNat / 4), base64Digit (a.toNat % 4 * 16), '=', '=']
  | [a, b] => [base64Digit (a.toNat / 4), base64Digit (a.toNat % 4 * 16 + b.toNat / 16),
      base64Digit (b.toNat % 16 * 4), '=']
  | a :: b :: c :: bytes => base64Digit (a.toNat / 4) ::
      base64Digit (a.toNat % 4 * 16 + b.toNat / 16) ::
      base64Digit (b.toNat % 16 * 4 + c.toNat / 64) :: base64Digit (c.toNat % 64) :: base64 bytes

/-- A character that base64 is written with. -/
def IsBase64Char (c : Char) : Prop := 0x20 < c.toNat ∧ c.toNat < 0x7f ∧ c ≠ ':'

instance (c : Char) : Decidable (IsBase64Char c) := inferInstanceAs (Decidable (_ ∧ _))

theorem base64Digit_spec {n : ℕ} (h : n < 64) :
    IsBase64Char (base64Digit n) ∧ base64Digit n ≠ '=' ∧ (base64Digit n = 'N' → n = 13) := by
  have hall : ∀ n < 64, IsBase64Char (base64Digit n) ∧ base64Digit n ≠ '=' ∧
      (base64Digit n = 'N' → n = 13) := by decide +kernel
  exact hall n h

section Digits

variable (a b c : UInt8)

theorem digit_lt :
    a.toNat / 4 < 64 ∧ a.toNat % 4 * 16 < 64 ∧ a.toNat % 4 * 16 + b.toNat / 16 < 64 ∧
      b.toNat % 16 * 4 < 64 ∧ b.toNat % 16 * 4 + c.toNat / 64 < 64 ∧ c.toNat % 64 < 64 := by
  have ha := a.toNat_lt
  have hb := b.toNat_lt
  have hc := c.toNat_lt
  omega

end Digits

theorem isBase64Char_base64 (bytes : List UInt8) : ∀ c ∈ base64 bytes, IsBase64Char c := by
  fun_induction base64 bytes with
  | case1 => exact fun c hc => absurd hc List.not_mem_nil
  | case2 a =>
    obtain ⟨h₁, h₂, -⟩ := digit_lt a 0 0
    simp only [List.forall_mem_cons]
    exact ⟨(base64Digit_spec h₁).1, (base64Digit_spec h₂).1, by decide, by decide,
      fun c hc => absurd hc List.not_mem_nil⟩
  | case3 a b =>
    obtain ⟨h₁, -, h₃, h₄, -⟩ := digit_lt a b 0
    simp only [List.forall_mem_cons]
    exact ⟨(base64Digit_spec h₁).1, (base64Digit_spec h₃).1, (base64Digit_spec h₄).1, by decide,
      fun c hc => absurd hc List.not_mem_nil⟩
  | case4 a b c bytes ih =>
    obtain ⟨h₁, -, h₃, -, h₅, h₆⟩ := digit_lt a b c
    simp only [List.forall_mem_cons]
    exact ⟨(base64Digit_spec h₁).1, (base64Digit_spec h₃).1, (base64Digit_spec h₅).1,
      (base64Digit_spec h₆).1, ih⟩

/-- **Base64 is longer** than the bytes. -/
theorem length_lt_base64 {bytes : List UInt8} (h : bytes ≠ []) :
    bytes.length < (base64 bytes).length := by
  fun_induction base64 bytes with
  | case1 => exact absurd rfl h
  | case2 a => exact (by decide : 1 < 4)
  | case3 a b => exact (by decide : 2 < 4)
  | case4 a b c bytes ih =>
    simp only [List.length_cons]
    rcases bytes with _ | ⟨d, bytes⟩
    · exact Nat.lt_add_of_pos_left (by decide)
    · have hmore := ih (List.cons_ne_nil d bytes)
      omega

/-- **Padding does not follow an `N`**, for the bits that it stands for would not be zero. -/
theorem not_infix_base64 (bytes : List UInt8) : ¬['N', '='] <:+: base64 bytes := by
  have hpair : ∀ {d e : Char} {t : Text}, ¬(d = 'N' ∧ e = '=') → ¬['N', '='] <+: d :: e :: t := by
    intro d e t hne hbegins
    rw [List.cons_prefix_cons, List.cons_prefix_cons] at hbegins
    exact hne ⟨hbegins.1.symm, hbegins.2.1.symm⟩
  have hone : ∀ d : Char, ¬['N', '='] <:+: [d] := by
    intro d hwithin
    have hle : 2 ≤ 1 := hwithin.length_le
    omega
  fun_induction base64 bytes with
  | case1 => exact fun hwithin => absurd hwithin.length_le (by decide)
  | case2 a =>
    obtain ⟨h₁, h₂, -⟩ := digit_lt a 0 0
    rw [List.infix_cons_iff, List.infix_cons_iff, List.infix_cons_iff]
    rintro (hbegins | hbegins | hbegins | hwithin)
    · exact hpair (fun heq => (base64Digit_spec h₂).2.1 heq.2) hbegins
    · refine hpair (fun heq => ?_) hbegins
      have hdigit := (base64Digit_spec h₂).2.2 heq.1
      omega
    · exact hpair (fun heq => absurd heq.1 (by decide)) hbegins
    · exact hone _ hwithin
  | case3 a b =>
    obtain ⟨h₁, -, h₃, h₄, -⟩ := digit_lt a b 0
    rw [List.infix_cons_iff, List.infix_cons_iff, List.infix_cons_iff]
    rintro (hbegins | hbegins | hbegins | hwithin)
    · exact hpair (fun heq => (base64Digit_spec h₃).2.1 heq.2) hbegins
    · exact hpair (fun heq => (base64Digit_spec h₄).2.1 heq.2) hbegins
    · refine hpair (fun heq => ?_) hbegins
      have hdigit := (base64Digit_spec h₄).2.2 heq.1
      omega
    · exact hone _ hwithin
  | case4 a b c bytes ih =>
    obtain ⟨-, -, h₃, -, h₅, h₆⟩ := digit_lt a b c
    rw [List.infix_cons_iff, List.infix_cons_iff, List.infix_cons_iff, List.infix_cons_iff]
    rintro (hbegins | hbegins | hbegins | hbegins | hwithin)
    · exact hpair (fun heq => (base64Digit_spec h₃).2.1 heq.2) hbegins
    · exact hpair (fun heq => (base64Digit_spec h₅).2.1 heq.2) hbegins
    · exact hpair (fun heq => (base64Digit_spec h₆).2.1 heq.2) hbegins
    · -- The next group begins with a digit, if there is one.
      rcases hnext : base64 bytes with _ | ⟨d, t⟩
      · rw [hnext] at hbegins
        exact hone _ hbegins.isInfix
      · rw [hnext] at hbegins
        refine hpair (fun heq => ?_) hbegins
        have hdigit : d ≠ '=' := by
          rcases bytes with _ | ⟨a', _ | ⟨b', _ | ⟨c', bytes⟩⟩⟩
          · cases hnext
          · rw [← (List.cons.inj hnext).1]
            exact (base64Digit_spec (digit_lt a' 0 0).1).2.1
          · rw [← (List.cons.inj hnext).1]
            exact (base64Digit_spec (digit_lt a' 0 0).1).2.1
          · rw [← (List.cons.inj hnext).1]
            exact (base64Digit_spec (digit_lt a' 0 0).1).2.1
        exact hdigit heq.2
    · exact ih hwithin

/-- A text has at least as many bytes as characters. -/
theorem length_le_utf8 (t : Text) : t.length ≤ (utf8 t).length := by
  induction t with
  | nil => exact Nat.zero_le _
  | cons c t ih =>
    have hcons : utf8 (c :: t) = String.utf8EncodeChar c ++ utf8 t := rfl
    have hpos := c.utf8Size_pos
    rw [hcons, List.length_append, List.length_cons, String.length_utf8EncodeChar]
    omega

/-- **Base64 is longer** than the text. -/
theorem length_lt_base64_utf8 {t : Text} (h : t ≠ []) : t.length < (base64 (utf8 t)).length := by
  have hle := length_le_utf8 t
  have hpos := List.length_pos_of_ne_nil h
  have hlt := length_lt_base64 (List.ne_nil_of_length_pos (Nat.lt_of_lt_of_le hpos hle))
  omega

/-! ### Folding -/

/-- The text, folded; the number says how many characters the line has room for. -/
def foldFrom : ℕ → Text → Text
  | _, [] => []
  | 0, c :: t => '\n' :: ' ' :: c :: foldFrom 74 t
  | room + 1, c :: t => c :: foldFrom room t

section Fold

variable {word t u v : Text} {room : ℕ}

theorem foldFrom_nil (room : ℕ) : foldFrom room [] = [] := by
  cases room with
  | zero => rfl
  | succ room => rfl

/-- What the line has room for is not folded. -/
theorem foldFrom_append_of_le (h : t.length ≤ room) (u : Text) :
    foldFrom room (t ++ u) = t ++ foldFrom (room - t.length) u := by
  induction t generalizing room with
  | nil => rfl
  | cons c t ih =>
    rw [List.length_cons] at h
    obtain ⟨room, rfl⟩ : ∃ r, room = r + 1 := ⟨room - 1, by omega⟩
    rw [List.cons_append, foldFrom, ih (by omega), List.length_cons, Nat.add_sub_add_right]
    rfl

theorem foldFrom_of_le (h : t.length ≤ room) : foldFrom room t = t := by
  have happend := foldFrom_append_of_le h []
  rwa [List.append_nil, foldFrom_nil, List.append_nil] at happend

/-- A text is folded part by part. -/
theorem foldFrom_append (room : ℕ) (t u : Text) :
    ∃ left, foldFrom room (t ++ u) = foldFrom room t ++ foldFrom left u := by
  induction t generalizing room with
  | nil => exact ⟨room, by rw [foldFrom_nil]; rfl⟩
  | cons c t ih =>
    rcases room with _ | room
    · obtain ⟨left, hleft⟩ := ih 74
      exact ⟨left, by rw [List.cons_append, foldFrom, hleft, foldFrom]; rfl⟩
    · obtain ⟨left, hleft⟩ := ih room
      exact ⟨left, by rw [List.cons_append, foldFrom, hleft, foldFrom]; rfl⟩

/-- Folding adds line feeds and blanks. -/
theorem mem_foldFrom {c : Char} (h : c ∈ foldFrom room t) : c ∈ t ∨ c = '\n' ∨ c = ' ' := by
  induction t generalizing room with
  | nil =>
    rw [foldFrom_nil] at h
    cases h
  | cons d t ih =>
    rcases room with _ | room
    · rw [foldFrom, List.mem_cons, List.mem_cons, List.mem_cons] at h
      rcases h with rfl | rfl | rfl | h
      · exact .inr (.inl rfl)
      · exact .inr (.inr rfl)
      · exact .inl List.mem_cons_self
      · exact (ih h).imp_left (List.mem_cons_of_mem d)
    · rw [foldFrom, List.mem_cons] at h
      rcases h with rfl | h
      · exact .inl List.mem_cons_self
      · exact (ih h).imp_left (List.mem_cons_of_mem d)

theorem length_le_foldFrom (room : ℕ) (t : Text) : t.length ≤ (foldFrom room t).length := by
  induction t generalizing room with
  | nil => exact Nat.zero_le _
  | cons c t ih =>
    rcases room with _ | room
    · have hle := ih 74
      rw [foldFrom, List.length_cons, List.length_cons, List.length_cons, List.length_cons]
      omega
    · have hle := ih room
      rw [foldFrom, List.length_cons, List.length_cons]
      omega

/-- A text that the line has no room for has a line feed when it is folded. -/
theorem newline_mem_foldFrom (h : room < t.length) : '\n' ∈ foldFrom room t := by
  induction t generalizing room with
  | nil => exact absurd h (Nat.not_lt_zero _)
  | cons c t ih =>
    rcases room with _ | room
    · exact List.mem_cons_self
    · exact List.mem_cons_of_mem c (ih (Nat.lt_of_succ_lt_succ h))

theorem getLast?_foldFrom (room : ℕ) (t : Text) : (foldFrom room t).getLast? = t.getLast? := by
  induction t generalizing room with
  | nil => rw [foldFrom_nil]
  | cons c t ih =>
    rcases room with _ | room
    · rw [foldFrom, List.getLast?_cons, List.getLast?_cons, List.getLast?_cons, ih,
        List.getLast?_cons]
      rfl
    · rw [foldFrom, List.getLast?_cons, ih, List.getLast?_cons]

/-- A folded text has no white space at its ends if the text has none. -/
theorem tight_foldFrom (h : Tight t) (hroom : 0 < room) : Tight (foldFrom room t) := by
  refine ⟨fun c hc => h.1 c ?_, fun c hc => h.2 c ?_⟩
  · obtain ⟨room, rfl⟩ : ∃ r, room = r + 1 := ⟨room - 1, by omega⟩
    rcases t with _ | ⟨d, t⟩
    · rwa [foldFrom_nil] at hc
    · exact hc
  · rwa [getLast?_foldFrom] at hc

/-- A word without a certain character is not found across it. -/
theorem infix_append_cons {c : Char} (hc : c ∉ word) (h : word <:+: u ++ c :: v) :
    word <:+: u ∨ word <:+: v := by
  induction u with
  | nil =>
    rcases List.infix_cons_iff.mp h with hbegins | hwithin
    · exact .inl ((prefix_append_cons_iff hc [] v).mp hbegins).isInfix
    · exact .inr hwithin
  | cons d u ih =>
    rcases List.infix_cons_iff.mp h with hbegins | hwithin
    · exact .inl ((prefix_append_cons_iff hc (d :: u) v).mp hbegins).isInfix
    · exact (ih hwithin).imp_left List.infix_cons

/-- A word without line feeds is not found in what they are added to. -/
theorem infix_append_newlines (hword : '\n' ∉ word) (hne : word ≠ []) {tail : Text}
    (htail : ∀ c ∈ tail, c = '\n') (h : word <:+: u ++ tail) : word <:+: u := by
  rcases tail with _ | ⟨c, tail⟩
  · rwa [List.append_nil] at h
  · obtain rfl := htail c List.mem_cons_self
    refine (infix_append_cons hword h).resolve_right fun hwithin => ?_
    obtain ⟨d, hd⟩ := List.exists_mem_of_ne_nil word hne
    have hnewline := htail d (List.mem_cons_of_mem _ (hwithin.subset hd))
    rw [hnewline] at hd
    exact hword hd

theorem prefix_of_prefix_foldFrom (hword : '\n' ∉ word) (h : word <+: foldFrom room t) :
    word <+: t := by
  induction word generalizing t room with
  | nil => exact List.nil_prefix
  | cons d word ih =>
    rcases t with _ | ⟨c, t⟩
    · rwa [foldFrom_nil] at h
    · rcases room with _ | room
      · rw [foldFrom, List.cons_prefix_cons] at h
        exact absurd (h.1 ▸ List.mem_cons_self) hword
      · rw [foldFrom, List.cons_prefix_cons] at h
        rw [List.cons_prefix_cons]
        exact ⟨h.1, ih (fun hmem => hword (List.mem_cons_of_mem d hmem)) h.2⟩

/-- **A fold joins nothing**: a word without white space is found in the text already. -/
theorem infix_of_infix_foldFrom (hword : '\n' ∉ word) (hblank : ' ' ∉ word)
    (h : word <:+: foldFrom room t) : word <:+: t := by
  induction t generalizing room with
  | nil => rwa [foldFrom_nil] at h
  | cons c t ih =>
    have hline : ∀ room, word <:+: c :: foldFrom room t → word <:+: c :: t := by
      intro room hwithin
      rcases List.infix_cons_iff.mp hwithin with hbegins | hwithin
      · have hfold : word <+: foldFrom (room + 1) (c :: t) := hbegins
        exact (prefix_of_prefix_foldFrom hword hfold).isInfix
      · exact List.infix_cons (ih hwithin)
    rcases room with _ | room
    · have hnil : word <:+: [] → word <:+: c :: t := fun hwithin => by
        rw [List.eq_nil_of_infix_nil hwithin]
        exact List.nil_infix
      rcases infix_append_cons (u := []) hword h with hwithin | hwithin
      · exact hnil hwithin
      · rcases infix_append_cons (u := []) hblank hwithin with hwithin | hwithin
        · exact hnil hwithin
        · exact hline 74 hwithin
    · exact hline room h

end Fold

/-! ### Attributes -/

/-- A value that is printed as it is: printable ASCII that has no blank at an end and begins neither
with a colon nor with `<`. -/
def IsSafe (v : Text) : Prop :=
  (∀ c ∈ v, 0x20 ≤ c.toNat ∧ c.toNat < 0x7f) ∧ (∀ c ∈ v.head?, c ≠ ' ' ∧ c ≠ ':' ∧ c ≠ '<') ∧
    ∀ c ∈ v.getLast?, c ≠ ' '

instance (v : Text) : Decidable (IsSafe v) := inferInstanceAs (Decidable (_ ∧ _ ∧ _))

/-- What stands between the name and the value. -/
def ldifColons (v : Text) : Text := if IsSafe v then [':', ' '] else [':', ':', ' ']

/-- The value, before it is folded. -/
def ldifValue (v : Text) : Text := if IsSafe v then v else base64 (utf8 v)

/-- **The line of an attribute.** -/
def ldifLine (name v : Text) : Text := foldFrom 76 (name ++ ldifColons v ++ ldifValue v)

example : ldifLine "cn".toList "Анна".toList = "cn:: 0JDQvdC90LA=".toList := by decide +kernel

/-- The value, folded in its line. -/
def ldifField (name v : Text) : Text :=
  foldFrom (76 - (name ++ ldifColons v).length) (ldifValue v)

section Attribute

variable {name other v tail : Text}

theorem IsSafe.tight (h : IsSafe v) : Tight v := by
  have hchar : ∀ c ∈ v, c ≠ ' ' → isSpace c = false := by
    intro c hc hne
    obtain ⟨hlow, hhigh⟩ := h.1 c hc
    have hblank : 0x20 ≠ c.toNat := fun heq => hne (Char.toNat_inj.mp heq.symm)
    exact isSpace_eq_false_of_printable (hlow.lt_of_ne hblank) hhigh
  refine ⟨fun c hc => ?_, fun c hc => ?_⟩
  · exact hchar c (List.mem_of_mem_head? hc) (h.2.1 c hc).1
  · exact hchar c (List.mem_of_mem_getLast? hc) (h.2.2 c hc)

theorem newline_notMem_ldifValue (v : Text) : '\n' ∉ ldifValue v := by
  intro hmem
  rw [ldifValue] at hmem
  split at hmem
  · next hsafe => exact absurd (hsafe.1 _ hmem).1 (by decide)
  · exact absurd (isBase64Char_base64 _ _ hmem).1 (by decide)

theorem length_ldifColons_le (v : Text) : (ldifColons v).length ≤ 3 := by
  rw [ldifColons]
  split
  · decide
  · decide

/-- The name and the colons are not folded. -/
theorem ldifLine_eq (hname : name.length ≤ 73) (v : Text) :
    ldifLine name v = name ++ ldifColons v ++ ldifField name v := by
  have hcolons := length_ldifColons_le v
  refine foldFrom_append_of_le ?_ _
  rw [List.length_append]
  omega

theorem isLine_cons {c : Char} (hc : c ≠ '\n') {t : Text} (h : IsLine t) : IsLine (c :: t) := by
  rcases t with _ | ⟨d, t⟩
  · rfl
  · rw [IsLine, paragraph_cons_cons, if_neg fun heq => hc heq.1]
    exact congrArg (c :: ·) h

theorem isLine_append {t u : Text} (ht : '\n' ∉ t) (hu : IsLine u) : IsLine (t ++ u) := by
  induction t with
  | nil => exact hu
  | cons c t ih =>
    refine isLine_cons (fun heq => ht (heq ▸ List.mem_cons_self)) (ih fun hmem => ?_)
    exact ht (List.mem_cons_of_mem c hmem)

theorem isLine_newlines (htail : ∀ c ∈ tail, c = '\n') : IsLine tail := by
  induction tail with
  | nil => rfl
  | cons c t ih =>
    have hrest := ih fun d hd => htail d (List.mem_cons_of_mem c hd)
    rcases t with _ | ⟨d, t⟩
    · rfl
    · obtain rfl := htail d (by simp)
      rw [IsLine, paragraph_cons_cons, if_neg fun heq => absurd heq.2 (by decide)]
      exact congrArg (c :: ·) hrest

/-- **A folded text is one line.** -/
theorem isLine_foldFrom_append {t : Text} (ht : '\n' ∉ t) (htail : ∀ c ∈ tail, c = '\n')
    (room : ℕ) : IsLine (foldFrom room t ++ tail) := by
  induction t generalizing room with
  | nil =>
    rw [foldFrom_nil]
    exact isLine_newlines htail
  | cons c t ih =>
    have hc : c ≠ '\n' := fun heq => ht (heq ▸ List.mem_cons_self)
    have hrest := fun room => isLine_cons hc
      (ih (fun hmem => ht (List.mem_cons_of_mem c hmem)) room)
    rcases room with _ | room
    · have hblank : IsLine (' ' :: c :: (foldFrom 74 t ++ tail)) :=
        isLine_cons (by decide) (hrest 74)
      rw [foldFrom, List.cons_append, List.cons_append, List.cons_append, IsLine,
        paragraph_cons_cons, if_neg fun heq => absurd heq.2 (by decide)]
      exact congrArg ('\n' :: ·) hblank
    · exact hrest room

theorem isLine_ldifLine (hname : '\n' ∉ name) (hlength : name.length ≤ 73)
    (htail : ∀ c ∈ tail, c = '\n') (v : Text) : IsLine (ldifLine name v ++ tail) := by
  rw [ldifLine_eq hlength, List.append_assoc]
  refine isLine_append ?_ (isLine_foldFrom_append (newline_notMem_ldifValue v) htail _)
  rw [List.mem_append]
  rintro (hmem | hmem)
  · exact hname hmem
  · rw [ldifColons] at hmem
    split at hmem
    · exact absurd hmem (by decide)
    · exact absurd hmem (by decide)

theorem afterHeading_colons (name v t : Text) :
    afterHeading name (name ++ ldifColons v ++ t) = some t := by
  rw [ldifColons, afterHeading]
  by_cases hsafe : IsSafe v
  · have hbegins : (name ++ [':', ' ']).isPrefixOf (name ++ [':', ' '] ++ t) = true :=
      List.isPrefixOf_iff_prefix.mpr (List.prefix_append _ _)
    have hlength : name.length + 2 = (name ++ [':', ' ']).length := by
      rw [List.length_append]
      rfl
    rw [if_pos hsafe, if_pos hbegins, hlength, List.drop_left]
  · have hbegins : (name ++ [':', ':', ' ']).isPrefixOf (name ++ [':', ':', ' '] ++ t) = true :=
      List.isPrefixOf_iff_prefix.mpr (List.prefix_append _ _)
    have hnot : ¬(name ++ [':', ' ']).isPrefixOf (name ++ [':', ':', ' '] ++ t) = true := by
      rw [List.isPrefixOf_iff_prefix, List.append_assoc, List.prefix_append_right_inj]
      intro h
      exact absurd (List.cons_prefix_cons.mp (List.cons_prefix_cons.mp h).2).1 (by decide)
    have hlength : name.length + 3 = (name ++ [':', ':', ' ']).length := by
      rw [List.length_append]
      rfl
    rw [if_neg hsafe, if_neg hnot, if_pos hbegins, hlength, List.drop_left]

/-- **The field of a line is what is printed**, folds included. -/
theorem findFields_ldifLine (hne : name ≠ []) (hname : '\n' ∉ name) (hlength : name.length ≤ 73)
    (htail : ∀ c ∈ tail, c = '\n') (v : Text) :
    findFields name (ldifLine name v ++ tail) 0 = [ldifField name v ++ tail] := by
  have hfield : IsLine (ldifField name v ++ tail) :=
    isLine_foldFrom_append (newline_notMem_ldifValue v) htail _
  have hheading := afterHeading_colons name v (ldifField name v ++ tail)
  rw [findFields_line (isLine_ldifLine hname hlength htail v), ldifLine_eq hlength,
    List.append_assoc]
  obtain ⟨c, n, rfl⟩ := List.exists_cons_of_ne_nil hne
  rw [List.cons_append, List.cons_append] at hheading ⊢
  rw [searchField, hheading]
  exact congrArg (fun t => [t]) hfield

/-- Nothing is found where the name does not stand before a colon. -/
theorem findFields_eq_nil {t : Text} (h : ¬(name ++ [':']) <:+: t) (skip : ℕ) :
    findFields name t skip = [] := by
  induction t generalizing skip with
  | nil => rfl
  | cons c t ih =>
    have hrest := ih fun hwithin => h (List.infix_cons hwithin)
    rcases skip with _ | skip
    · have hnone : afterHeading name (c :: t) = none := by
        have hshort : ∀ rest, name ++ [':'] <+: name ++ ':' :: rest := fun rest =>
          ⟨rest, by rw [List.append_assoc]; rfl⟩
        rw [afterHeading, if_neg, if_neg]
        · intro hbegins
          exact h ((hshort _).trans (List.isPrefixOf_iff_prefix.mp hbegins)).isInfix
        · intro hbegins
          exact h ((hshort _).trans (List.isPrefixOf_iff_prefix.mp hbegins)).isInfix
      rw [findFields, hnone]
      exact hrest 0
    · exact hrest skip

/-- **No other field is found** in a line, unless its name stands in the value. -/
theorem findFields_ldifLine_of_ne (hlength : name.length ≤ 73) (htail : ∀ c ∈ tail, c = '\n')
    (hnewline : '\n' ∉ other) (hblank : ' ' ∉ other) (hone : ¬(other ++ [':']) <:+: name ++ [':'])
    (htwo : ¬(other ++ [':']) <:+: name ++ [':', ':']) (hv : ¬other <:+: v) :
    findFields other (ldifLine name v ++ tail) 0 = [] := by
  have hword : '\n' ∉ other ++ [':'] := by simp [hnewline]
  have hword' : ' ' ∉ other ++ [':'] := by simp [hblank]
  refine findFields_eq_nil (fun hwithin => ?_) 0
  have hline := infix_append_newlines hword (by simp) htail hwithin
  rw [ldifLine_eq hlength, ldifField] at hline
  -- The name and the value are apart, for there is a blank between them.
  have hparts : (other ++ [':']) <:+: name ++ [':'] ∨ (other ++ [':']) <:+: name ++ [':', ':'] ∨
      (other ++ [':']) <:+: ldifValue v := by
    revert hline
    generalize 76 - (name ++ ldifColons v).length = room
    rw [ldifColons]
    split
    · intro hline
      have hsplit : name ++ [':', ' '] ++ foldFrom room (ldifValue v) =
          (name ++ [':']) ++ ' ' :: foldFrom room (ldifValue v) := by simp
      rw [hsplit] at hline
      rcases infix_append_cons hword' hline with hwithin | hwithin
      · exact .inl hwithin
      · exact .inr (.inr (infix_of_infix_foldFrom hword hword' hwithin))
    · intro hline
      have hsplit : name ++ [':', ':', ' '] ++ foldFrom room (ldifValue v) =
          (name ++ [':', ':']) ++ ' ' :: foldFrom room (ldifValue v) := by simp
      rw [hsplit] at hline
      rcases infix_append_cons hword' hline with hwithin | hwithin
      · exact .inr (.inl hwithin)
      · exact .inr (.inr (infix_of_infix_foldFrom hword hword' hwithin))
  rcases hparts with hwithin | hwithin | hwithin
  · exact hone hwithin
  · exact htwo hwithin
  · rw [ldifValue] at hwithin
    split at hwithin
    · exact hv ((List.prefix_append other [':']).isInfix.trans hwithin)
    · have hcolon : ':' ∈ base64 (utf8 v) := hwithin.subset (by simp)
      exact (isBase64Char_base64 _ _ hcolon).2.2 rfl

end Attribute

/-! ### What is left of a value -/

section Value

variable {name v tail : Text}

/-- White space that is added to a text is removed again. -/
theorem isSpace_of_newlines (htail : ∀ c ∈ tail, c = '\n') : ∀ c ∈ tail, isSpace c = true := by
  intro c hc
  rw [htail c hc]
  decide

theorem tight_ldifValue (v : Text) : Tight (ldifValue v) := by
  rw [ldifValue]
  split
  · next hsafe => exact hsafe.tight
  · have hvisible : ∀ c ∈ base64 (utf8 v), isSpace c = false := by
      intro c hc
      obtain ⟨hlow, hhigh, -⟩ := isBase64Char_base64 _ c hc
      exact isSpace_eq_false_of_printable hlow hhigh
    exact ⟨fun c hc => hvisible c (List.mem_of_mem_head? hc),
      fun c hc => hvisible c (List.mem_of_mem_getLast? hc)⟩

theorem length_le_ldifValue (v : Text) : v.length ≤ (ldifValue v).length := by
  rw [ldifValue]
  split
  · exact le_rfl
  · rcases v with _ | ⟨c, v⟩
    · exact Nat.zero_le _
    · exact (length_lt_base64_utf8 (List.cons_ne_nil c v)).le

/-- **A field without the white space at its ends.** -/
theorem strip_ldifField (hlength : name.length ≤ 72) (hne : v ≠ [])
    (htail : ∀ c ∈ tail, c = '\n') : strip (ldifField name v ++ tail) = ldifField name v := by
  have hcolons := length_ldifColons_le v
  have hle := length_le_ldifValue v
  have hpos := List.length_pos_of_ne_nil hne
  have hfold : (ldifValue v).length ≤ (ldifField name v).length := length_le_foldFrom _ _
  have htight : Tight (ldifField name v) := by
    refine tight_foldFrom (tight_ldifValue v) ?_
    rw [List.length_append]
    omega
  exact strip_append_blank htight (List.ne_nil_of_length_pos (by omega)) (isSpace_of_newlines htail)

/-- **When a value is found again**: it was safe, and its line was not folded. -/
theorem ldifField_eq_iff (hne : v ≠ []) :
    ldifField name v = v ↔ IsSafe v ∧ name.length + 2 + v.length ≤ 76 := by
  constructor
  · intro heq
    by_cases hsafe : IsSafe v
    · refine ⟨hsafe, ?_⟩
      by_contra hlong
      have hcolons : ldifColons v = [':', ' '] := if_pos hsafe
      have hvalue : ldifValue v = v := if_pos hsafe
      have hnewline : '\n' ∈ ldifField name v := by
        rw [ldifField, hcolons, hvalue]
        refine newline_mem_foldFrom ?_
        have hpos := List.length_pos_of_ne_nil hne
        rw [List.length_append]
        simp only [List.length_cons, List.length_nil]
        omega
      rw [heq] at hnewline
      exact absurd (hsafe.1 _ hnewline).1 (by decide)
    · have hvalue : ldifValue v = base64 (utf8 v) := if_neg hsafe
      have hlonger := length_lt_base64_utf8 hne
      have hfold : (ldifValue v).length ≤ (ldifField name v).length := length_le_foldFrom _ _
      rw [heq, hvalue] at hfold
      omega
  · rintro ⟨hsafe, hshort⟩
    have hcolons : ldifColons v = [':', ' '] := if_pos hsafe
    have hvalue : ldifValue v = v := if_pos hsafe
    rw [ldifField, hcolons, hvalue]
    refine foldFrom_of_le ?_
    rw [List.length_append]
    simp only [List.length_cons, List.length_nil]
    omega

end Value

end Text

end AiAgent

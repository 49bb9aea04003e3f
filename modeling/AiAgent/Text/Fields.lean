import AiAgent.Text.Search

/-!
# Fields of a text of lines

A field is a name, one or two colons and a blank, and then everything up to the next line that
begins with a visible character: a line that begins with white space continues the one before.
Fields are looked for from the left, wherever in the text their name stands
(`AiAgent.Text.searchField`, `AiAgent.Text.findFields`).

As no field goes beyond the line it begins in, the fields of a text are those of its lines
(`AiAgent.Text.findFields_join`), and no line has more than one (`AiAgent.Text.findFields_line`).
-/

namespace AiAgent

namespace Text

/-! ### Searching for fields -/

/-- The text up to the first line feed that a visible character follows. -/
def paragraph : Text → Text
  | [] => []
  | [c] => [c]
  | c :: d :: t => if c = '\n' ∧ isSpace d = false then [] else c :: paragraph (d :: t)

/-- What follows the name of a field and its colons, if the text begins with them. -/
def afterHeading (name t : Text) : Option Text :=
  if (name ++ [':', ' ']).isPrefixOf t then some (t.drop (name.length + 2))
  else if (name ++ [':', ':', ' ']).isPrefixOf t then some (t.drop (name.length + 3))
  else none

/-- What the first field with that name holds. -/
def searchField (name : Text) : Text → Option Text
  | [] => none
  | c :: t =>
    match afterHeading name (c :: t) with
    | some rest => some (paragraph rest)
    | none => searchField name t

/-- What the fields with that name hold, none of which begins within another; the number says how
many characters of a field are still to be skipped. -/
def findFields (name : Text) : Text → ℕ → List Text
  | [], _ => []
  | _ :: t, skip + 1 => findFields name t skip
  | c :: t, 0 =>
    match afterHeading name (c :: t) with
    | some rest => paragraph rest ::
        findFields name t (t.length - rest.length + (paragraph rest).length)
    | none => findFields name t 0

/-! ### Lines -/

/-- A line, with the lines that continue it. -/
def IsLine (t : Text) : Prop := paragraph t = t

instance (t : Text) : Decidable (IsLine t) := inferInstanceAs (Decidable (_ = _))

/-- The text begins with a visible character. -/
def BeginsVisibly (t : Text) : Prop := ∃ c u, t = c :: u ∧ isSpace c = false

theorem paragraph_cons_cons (c d : Char) (t : Text) :
    paragraph (c :: d :: t) =
      if c = '\n' ∧ isSpace d = false then [] else c :: paragraph (d :: t) := rfl

theorem IsLine.tail {c : Char} {t : Text} (h : IsLine (c :: t)) : IsLine t := by
  cases t with
  | nil => rfl
  | cons d t =>
    rw [IsLine, paragraph_cons_cons] at h
    by_cases hend : c = '\n' ∧ isSpace d = false
    · rw [if_pos hend] at h
      cases h
    · rw [if_neg hend] at h
      exact (List.cons.inj h).2

theorem IsLine.drop {t : Text} (h : IsLine t) (n : ℕ) : IsLine (t.drop n) := by
  induction n generalizing t with
  | zero => exact h
  | succ n ih =>
    cases t with
    | nil => exact h
    | cons c t => exact ih h.tail

/-- A line ends where the next one begins. -/
theorem IsLine.paragraph_append {t u : Text} (h : IsLine t) (hu : BeginsVisibly u) :
    paragraph (t ++ '\n' :: u) = t := by
  obtain ⟨c, v, rfl, hc⟩ := hu
  induction t with
  | nil =>
    rw [List.nil_append, paragraph_cons_cons, if_pos ⟨rfl, hc⟩]
  | cons d t ih =>
    have hrest := ih h.tail
    cases t with
    | nil =>
      show paragraph (d :: '\n' :: c :: v) = _
      have hspace : isSpace '\n' = true := by decide
      rw [paragraph_cons_cons, if_neg (by simp [hspace])]
      exact congrArg (d :: ·) hrest
    | cons e t =>
      show paragraph (d :: e :: (t ++ '\n' :: c :: v)) = _
      rw [IsLine, paragraph_cons_cons] at h
      rw [paragraph_cons_cons]
      by_cases hend : d = '\n' ∧ isSpace e = false
      · rw [if_pos hend] at h
        cases h
      · rw [if_neg hend]
        exact congrArg (d :: ·) hrest

section Heading

variable {name : Text}

/-- A word without a line feed is not found across one. -/
theorem isPrefixOf_append_lineFeed {word : Text} (hword : '\n' ∉ word) (t u : Text) :
    word.isPrefixOf (t ++ '\n' :: u) = word.isPrefixOf t := by
  induction word generalizing t with
  | nil => rfl
  | cons c word ih =>
    have hc : c ≠ '\n' := fun h => hword (h ▸ List.mem_cons_self)
    cases t with
    | nil =>
      show (c == '\n' && _) = false
      rw [beq_eq_false_iff_ne.mpr hc, Bool.false_and]
    | cons d t =>
      show (c == d && word.isPrefixOf (t ++ '\n' :: u)) = (c == d && word.isPrefixOf t)
      rw [ih (fun h => hword (List.mem_cons_of_mem c h))]

theorem length_le_of_isPrefixOf {word t : Text} (h : word.isPrefixOf t = true) :
    word.length ≤ t.length :=
  (List.isPrefixOf_iff_prefix.mp h).length_le

/-- The heading of a field is found within its line. -/
theorem afterHeading_append (hname : '\n' ∉ name) (t u : Text) :
    afterHeading name (t ++ '\n' :: u) =
      (afterHeading name t).map fun rest => rest ++ '\n' :: u := by
  have hone : '\n' ∉ name ++ [':', ' '] := by simp [hname]
  have htwo : '\n' ∉ name ++ [':', ':', ' '] := by simp [hname]
  rw [afterHeading, afterHeading, isPrefixOf_append_lineFeed hone, isPrefixOf_append_lineFeed htwo]
  by_cases h : (name ++ [':', ' ']).isPrefixOf t = true
  · have hle := length_le_of_isPrefixOf h
    rw [List.length_append] at hle
    rw [if_pos h, if_pos h]
    exact congrArg some (List.drop_append_of_le_length hle)
  · rw [if_neg h, if_neg h]
    by_cases h' : (name ++ [':', ':', ' ']).isPrefixOf t = true
    · have hle := length_le_of_isPrefixOf h'
      rw [List.length_append] at hle
      rw [if_pos h', if_pos h']
      exact congrArg some (List.drop_append_of_le_length hle)
    · rw [if_neg h', if_neg h']
      rfl

/-- What follows a heading is a part of the text, and shorter. -/
theorem afterHeading_eq_drop {t rest : Text} (h : afterHeading name t = some rest) :
    ∃ n, 0 < n ∧ n ≤ t.length ∧ rest = t.drop n := by
  rw [afterHeading] at h
  split at h
  · next hfound =>
    have hle := length_le_of_isPrefixOf hfound
    rw [List.length_append] at hle
    exact ⟨name.length + 2, by omega, hle, (Option.some.inj h).symm⟩
  · split at h
    · next hfound =>
      have hle := length_le_of_isPrefixOf hfound
      rw [List.length_append] at hle
      exact ⟨name.length + 3, by omega, hle, (Option.some.inj h).symm⟩
    · cases h

/-- The characters that a field in a line takes up. -/
theorem skip_of_afterHeading {c : Char} {t rest : Text} (h : IsLine (c :: t))
    (hfound : afterHeading name (c :: t) = some rest) :
    paragraph rest = rest ∧ t.length - rest.length + rest.length = t.length := by
  obtain ⟨n, hpos, -, rfl⟩ := afterHeading_eq_drop hfound
  refine ⟨h.drop n, Nat.sub_add_cancel ?_⟩
  rw [List.length_drop, List.length_cons]
  omega

/-- Nothing is found where all is skipped. -/
theorem findFields_length (name t : Text) : findFields name t t.length = [] := by
  induction t with
  | nil => rfl
  | cons c t ih => exact ih

/-- **A line has at most one field**, for the first takes all that follows. -/
theorem findFields_line {t : Text} (h : IsLine t) :
    findFields name t 0 = (searchField name t).toList := by
  induction t with
  | nil => rfl
  | cons c t ih =>
    rw [findFields, searchField]
    cases hfound : afterHeading name (c :: t) with
    | none => exact ih h.tail
    | some rest =>
      obtain ⟨hrest, hskip⟩ := skip_of_afterHeading h hfound
      dsimp only
      rw [hrest, hskip, findFields_length]
      rfl

/-- **The fields of two lines** are those of the one and those of the other. -/
theorem findFields_append (hname : '\n' ∉ name) {t u : Text} (h : IsLine t)
    (hu : BeginsVisibly u) {skip : ℕ} (hskip : skip ≤ t.length) :
    findFields name (t ++ '\n' :: u) skip = findFields name t skip ++ findFields name u 0 := by
  induction t generalizing skip with
  | nil =>
    obtain rfl := Nat.le_zero.mp hskip
    have hnone : afterHeading name ('\n' :: u) = none := by
      have hempty : afterHeading name [] = none := by
        rw [afterHeading, if_neg, if_neg]
        · cases name <;> exact Bool.false_ne_true
        · cases name <;> exact Bool.false_ne_true
      have happend := afterHeading_append hname [] u
      rw [hempty] at happend
      exact happend
    show findFields name ('\n' :: u) 0 = findFields name u 0
    rw [findFields, hnone]
  | cons c t ih =>
    cases skip with
    | succ skip => exact ih h.tail (Nat.le_of_succ_le_succ hskip)
    | zero =>
      have happend := afterHeading_append hname (c :: t) u
      rw [List.cons_append] at happend ⊢
      rw [findFields, findFields, happend]
      cases hfound : afterHeading name (c :: t) with
      | none => exact ih h.tail (Nat.zero_le _)
      | some rest =>
        obtain ⟨hrest, hskip⟩ := skip_of_afterHeading h hfound
        have hline : IsLine rest := hrest
        dsimp only [Option.map_some]
        have hsub : (t ++ '\n' :: u).length - (rest ++ '\n' :: u).length =
            t.length - rest.length := by
          rw [List.length_append, List.length_append]
          omega
        rw [hline.paragraph_append hu, hrest, hsub, hskip, ih h.tail le_rfl]
        rfl

/-- **The fields of a text are those of its lines.** -/
theorem findFields_join (hname : '\n' ∉ name) {lines : List Text} (hlines : ∀ t ∈ lines, IsLine t)
    (hvisible : ∀ t ∈ lines, BeginsVisibly t) :
    findFields name (join ['\n'] lines) 0 = lines.flatMap fun t => findFields name t 0 := by
  induction lines with
  | nil => rfl
  | cons t lines ih =>
    cases lines with
    | nil => rw [join_singleton, List.flatMap_cons, List.flatMap_nil, List.append_nil]
    | cons u lines =>
      have hjoin : BeginsVisibly (join ['\n'] (u :: lines)) := by
        obtain ⟨c, v, rfl, hc⟩ := hvisible u (List.mem_cons_of_mem t List.mem_cons_self)
        cases lines with
        | nil => exact ⟨c, v, join_singleton _ _, hc⟩
        | cons w lines => exact ⟨c, _, join_cons_cons _ _ _ _, hc⟩
      have hrest := ih (fun v hv => hlines v (List.mem_cons_of_mem t hv))
        fun v hv => hvisible v (List.mem_cons_of_mem t hv)
      rw [join_cons_cons, List.flatMap_cons, ← hrest]
      exact findFields_append hname (hlines t List.mem_cons_self) hjoin (Nat.zero_le _)

end Heading

end Text

end AiAgent

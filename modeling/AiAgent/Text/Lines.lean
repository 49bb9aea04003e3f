import AiAgent.Text.Search

/-!
# Lines

`AiAgent.Text.splitlines` takes any of a dozen characters for the end of a line. Where texts are
put together with line feeds between them, their lines are put together
(`AiAgent.Text.splitlines_append_newline`), and a text whose lines are joined with line feeds has
the same lines as before (`AiAgent.Text.splitlines_unixLines`).

A separator without line feeds is found in one of the lines or not at all, which is what
`AiAgent.Text.splitOnce_append_cons` says of any character that the separator lacks.
-/

namespace AiAgent

namespace Text

/-! ### What ends a line -/

/-- A text without the end of a line in it. -/
def SingleLine (t : Text) : Prop := ∀ c ∈ t, endsLine c = false

instance (t : Text) : Decidable (SingleLine t) := inferInstanceAs (Decidable (∀ c ∈ t, _))

theorem singleLine_append {t u : Text} (ht : SingleLine t) (hu : SingleLine u) :
    SingleLine (t ++ u) := by
  intro c hc
  rcases List.mem_append.mp hc with hc | hc
  · exact ht c hc
  · exact hu c hc

/-- What ends a line is white space. -/
theorem isSpace_of_endsLine {c : Char} (h : endsLine c = true) : isSpace c = true := by
  simp only [endsLine, isSpace, Bool.or_eq_true, Bool.and_eq_true, decide_eq_true_eq,
    beq_iff_eq] at h ⊢
  omega

theorem endsLine_of_not_isSpace {c : Char} (h : isSpace c = false) : endsLine c = false := by
  by_contra hends
  rw [isSpace_of_endsLine (by simpa using hends)] at h
  cases h

/-- Where no line ends the first character goes to the first line. -/
theorem splitlines_cons_of_not_endsLine {c : Char} (h : endsLine c = false) (t : Text) :
    splitlines (c :: t) =
      match splitlines t with
      | [] => [[c]]
      | line :: lines => (c :: line) :: lines := by
  rw [splitlines]
  · rcases splitlines t with - | ⟨line, lines⟩
    · simp only [h, Bool.false_eq_true, if_false]
    · simp only [h, Bool.false_eq_true, if_false]
  · rintro t' rfl -
    exact absurd h (by decide)

theorem splitlines_newline (t : Text) : splitlines ('\n' :: t) = [] :: splitlines t := by
  rw [splitlines]
  · rfl
  · rintro t' hc -
    exact absurd hc (by decide)

/-! ### Lines put together -/

/-- A line feed behind a line ends it. -/
theorem splitlines_line_append {l : Text} (hl : SingleLine l) (t : Text) :
    splitlines (l ++ '\n' :: t) = l :: splitlines t := by
  induction l with
  | nil => exact splitlines_newline t
  | cons c l ih =>
    rw [List.cons_append, splitlines_cons_of_not_endsLine (hl c List.mem_cons_self),
      ih fun d hd => hl d (List.mem_cons_of_mem c hd)]

theorem splitlines_line {l : Text} (hl : SingleLine l) (hne : l ≠ []) : splitlines l = [l] := by
  induction l with
  | nil => exact absurd rfl hne
  | cons c l ih =>
    rw [splitlines_cons_of_not_endsLine (hl c List.mem_cons_self)]
    by_cases hnil : l = []
    · rw [hnil]
      rfl
    · rw [ih (fun d hd => hl d (List.mem_cons_of_mem c hd)) hnil]

theorem splitlines_ne_nil {t : Text} (h : t ≠ []) : splitlines t ≠ [] := by
  fun_induction splitlines t with
  | case1 => exact absurd rfl h
  | case4 c t _ _ hlines => simp
  | case5 c t _ _ line lines hlines => simp
  | _ => exact List.cons_ne_nil _ _

/-- **The lines of a text are those of its parts**, if a line feed stands between them and the
first part does not end with the end of a line itself. -/
theorem splitlines_append_newline {u : Text} {c : Char} (hlast : u.getLast? = some c)
    (hc : endsLine c = false) (t : Text) :
    splitlines (u ++ '\n' :: t) = splitlines u ++ splitlines t := by
  -- Nothing, a carriage return with its newline, another line end, or a character, with or without
  -- a line behind it.
  fun_induction splitlines u with
  | case1 => cases hlast
  | case2 u ih =>
    have hne : u ≠ [] := by
      rintro rfl
      rw [← Option.some.inj hlast] at hc
      exact absurd hc (by decide)
    rw [List.getLast?_cons_of_ne_nil (List.cons_ne_nil _ _),
      List.getLast?_cons_of_ne_nil hne] at hlast
    rw [List.cons_append, List.cons_append, splitlines, ih hlast, List.cons_append]
  | case3 d u hnot hends ih =>
    have hne : u ≠ [] := by
      rintro rfl
      have hd : d = c := Option.some.inj hlast
      rw [hd, hc] at hends
      cases hends
    rw [List.getLast?_cons_of_ne_nil hne] at hlast
    obtain ⟨e, v, rfl⟩ := List.exists_cons_of_ne_nil hne
    rw [List.cons_append, splitlines]
    · rw [if_pos hends, ih hlast, List.cons_append]
    · rintro t' hd heq
      rw [List.cons_append] at heq
      exact hnot v hd (by rw [(List.cons.inj heq).1])
  | case4 d u hnot hends hlines ih =>
    have hnil : u = [] := by
      by_contra hne
      exact splitlines_ne_nil hne hlines
    subst hnil
    rw [List.singleton_append, splitlines_cons_of_not_endsLine (by simpa using hends),
      splitlines_newline]
    rfl
  | case5 d u hnot hends line lines hlines ih =>
    have hne : u ≠ [] := by
      rintro rfl
      cases hlines
    rw [List.getLast?_cons_of_ne_nil hne] at hlast
    rw [List.cons_append, splitlines_cons_of_not_endsLine (by simpa using hends), ih hlast, hlines]
    rfl

/-- No line has the end of a line in it. -/
theorem singleLine_of_mem_splitlines {t l : Text} (h : l ∈ splitlines t) : SingleLine l := by
  fun_induction splitlines t generalizing l with
  | case1 => cases h
  | case2 t ih =>
    rcases List.mem_cons.mp h with rfl | h
    · exact fun c hc => absurd hc List.not_mem_nil
    · exact ih h
  | case3 c t _ _ ih =>
    rcases List.mem_cons.mp h with rfl | h
    · exact fun c hc => absurd hc List.not_mem_nil
    · exact ih h
  | case4 c t _ hends _ ih =>
    obtain rfl := List.mem_singleton.mp h
    intro d hd
    obtain rfl := List.mem_singleton.mp hd
    simpa using hends
  | case5 c t _ hends line lines hlines ih =>
    rcases List.mem_cons.mp h with rfl | h
    · intro d hd
      rcases List.mem_cons.mp hd with rfl | hd
      · simpa using hends
      · exact ih (by rw [hlines]; exact List.mem_cons_self) d hd
    · exact ih (by rw [hlines]; exact List.mem_cons_of_mem _ h)

/-- Lines that are joined are the lines again, if the last of them is not empty. -/
theorem splitlines_join {ls : List Text} (hlines : ∀ l ∈ ls, SingleLine l)
    (hlast : ls.getLast? ≠ some []) : splitlines (join "\n".toList ls) = ls := by
  induction ls with
  | nil => rfl
  | cons l ls ih =>
    have hl := hlines l List.mem_cons_self
    by_cases hnil : ls = []
    · subst hnil
      rw [join_singleton, splitlines_line hl fun h => hlast (by rw [h]; rfl)]
    · obtain ⟨m, ms, rfl⟩ := List.exists_cons_of_ne_nil hnil
      rw [List.getLast?_cons_of_ne_nil hnil] at hlast
      have hrest := ih (fun n hn => hlines n (List.mem_cons_of_mem l hn)) hlast
      rw [join_cons_cons]
      exact (splitlines_line_append hl _).trans (congrArg (l :: ·) hrest)

/-! ### A text with line feeds only -/

/-- The text with a line feed at the end of every line. -/
def unixLines (t : Text) : Text := join "\n".toList (splitlines t)

theorem join_cons_append (sep t u : Text) (ts : List Text) :
    join sep ((t ++ u) :: ts) = t ++ join sep (u :: ts) := by
  rcases ts with - | ⟨v, ts⟩
  · rw [join_singleton, join_singleton]
  · rw [join_cons_cons, join_cons_cons, List.append_assoc]

theorem unixLines_cons {c : Char} (h : endsLine c = false) (t : Text) :
    unixLines (c :: t) = c :: unixLines t := by
  rw [unixLines, unixLines, splitlines_cons_of_not_endsLine h]
  rcases splitlines t with - | ⟨line, lines⟩
  · rfl
  · exact join_cons_append _ [c] line lines

/-- The last line of a text that does not end with the end of a line. -/
theorem getLast?_splitlines {t : Text} {c : Char} (hlast : t.getLast? = some c)
    (hc : endsLine c = false) : ∃ l, (splitlines t).getLast? = some l ∧ l.getLast? = some c := by
  fun_induction splitlines t with
  | case1 => cases hlast
  | case2 t ih =>
    have hne : t ≠ [] := by
      rintro rfl
      rw [← Option.some.inj hlast] at hc
      exact absurd hc (by decide)
    rw [List.getLast?_cons_of_ne_nil (List.cons_ne_nil _ _),
      List.getLast?_cons_of_ne_nil hne] at hlast
    rw [List.getLast?_cons_of_ne_nil (splitlines_ne_nil hne)]
    exact ih hlast
  | case3 d t _ hends ih =>
    have hne : t ≠ [] := by
      rintro rfl
      have hd : d = c := Option.some.inj hlast
      rw [hd, hc] at hends
      cases hends
    rw [List.getLast?_cons_of_ne_nil hne] at hlast
    rw [List.getLast?_cons_of_ne_nil (splitlines_ne_nil hne)]
    exact ih hlast
  | case4 d t _ hends hlines ih =>
    have hnil : t = [] := by
      by_contra hne
      exact splitlines_ne_nil hne hlines
    subst hnil
    exact ⟨[d], rfl, hlast⟩
  | case5 d t _ hends line lines hlines ih =>
    have hne : t ≠ [] := by
      rintro rfl
      cases hlines
    rw [List.getLast?_cons_of_ne_nil hne] at hlast
    obtain ⟨l, hl, hlc⟩ := ih hlast
    rw [hlines] at hl
    by_cases hrest : lines = []
    · subst hrest
      obtain rfl := Option.some.inj hl
      refine ⟨d :: line, rfl, ?_⟩
      rwa [List.getLast?_cons_of_ne_nil (by rintro rfl; cases hlc)]
    · rw [List.getLast?_cons_of_ne_nil hrest] at hl
      exact ⟨l, by rw [List.getLast?_cons_of_ne_nil hrest, hl], hlc⟩

theorem getLast?_join {sep l : Text} {c : Char} {ls : List Text} (hl : ls.getLast? = some l)
    (hc : l.getLast? = some c) : (join sep ls).getLast? = some c := by
  induction ls with
  | nil => cases hl
  | cons m ls ih =>
    by_cases hnil : ls = []
    · subst hnil
      obtain rfl := Option.some.inj hl
      rwa [join_singleton]
    · obtain ⟨n, ms, rfl⟩ := List.exists_cons_of_ne_nil hnil
      rw [List.getLast?_cons_of_ne_nil hnil] at hl
      rw [join_cons_cons, List.getLast?_append, List.getLast?_append, ih hl]
      rfl

/-- **The ends of the lines do not matter to the lines.** -/
theorem splitlines_unixLines {t : Text} (h : Tight t) :
    splitlines (unixLines t) = splitlines t := by
  refine splitlines_join (fun l hl => singleLine_of_mem_splitlines hl) fun hempty => ?_
  by_cases hnil : t = []
  · subst hnil
    cases hempty
  · obtain ⟨c, hc⟩ := Option.isSome_iff_exists.mp (List.getLast?_isSome.mpr hnil)
    obtain ⟨l, hl, hlc⟩ := getLast?_splitlines hc (endsLine_of_not_isSpace (h.2 c hc))
    rw [hempty] at hl
    obtain rfl := Option.some.inj hl
    cases hlc

theorem tight_unixLines {t : Text} (h : Tight t) : Tight (unixLines t) := by
  by_cases hnil : t = []
  · subst hnil
    exact h
  · obtain ⟨c, hc⟩ := Option.isSome_iff_exists.mp (List.getLast?_isSome.mpr hnil)
    obtain ⟨l, hl, hlc⟩ := getLast?_splitlines hc (endsLine_of_not_isSpace (h.2 c hc))
    obtain ⟨d, u, rfl⟩ := List.exists_cons_of_ne_nil hnil
    have hd := h.1 d rfl
    constructor
    · rw [unixLines_cons (endsLine_of_not_isSpace hd)]
      rintro e he
      rwa [← Option.some.inj he]
    · intro e he
      rw [unixLines, getLast?_join hl hlc] at he
      rw [← Option.some.inj he]
      exact h.2 c hc

theorem unixLines_ne_nil {t : Text} (h : Tight t) (hne : t ≠ []) : unixLines t ≠ [] := by
  obtain ⟨d, u, rfl⟩ := List.exists_cons_of_ne_nil hne
  rw [unixLines_cons (endsLine_of_not_isSpace (h.1 d rfl))]
  exact List.cons_ne_nil _ _

/-! ### A separator between line ends -/

/-- What lacks a character begins a text only before that character. -/
theorem prefix_append_cons_iff {sep : Text} {c : Char} (hc : c ∉ sep) (u t : Text) :
    sep <+: u ++ c :: t ↔ sep <+: u := by
  constructor
  · intro h
    rcases List.prefix_or_prefix_of_prefix h (List.prefix_append u (c :: t)) with h | ⟨v, rfl⟩
    · exact h
    · rw [List.prefix_append_right_inj] at h
      rcases v with - | ⟨d, v⟩
      · rw [List.append_nil]
      · rw [List.cons_prefix_cons] at h
        exact absurd (by rw [h.1]; simp) hc
  · exact fun h => h.trans (List.prefix_append _ _)

/-- **A text without the separator is passed over**, together with a character that the separator
lacks. -/
theorem splitOnce_append_cons {sep : Text} {c : Char} (hc : c ∉ sep) {u : Text}
    (hu : ¬ sep <:+: u) (t : Text) :
    splitOnce sep (u ++ c :: t) =
      (splitOnce sep t).map fun sides => (u ++ c :: sides.1, sides.2) := by
  induction u with
  | nil =>
    have hnot : ¬ sep.isPrefixOf (c :: t) = true := by
      rw [List.isPrefixOf_iff_prefix, ← List.nil_append (c :: t), prefix_append_cons_iff hc]
      exact fun h => hu h.isInfix
    rw [List.nil_append, splitOnce, if_neg hnot]
    rfl
  | cons d u ih =>
    have hnot : ¬ sep.isPrefixOf (d :: (u ++ c :: t)) = true := by
      rw [List.isPrefixOf_iff_prefix, ← List.cons_append, prefix_append_cons_iff hc]
      exact fun h => hu h.isInfix
    rw [List.cons_append, splitOnce, if_neg hnot, ih fun h => hu (List.infix_cons h),
      Option.map_map]
    rfl

/-- The first occurrence is found: whatever stands before another one is at least as long. -/
theorem splitOnce_isSome_of_infix {sep u : Text} (h : sep <:+: u) (t : Text) :
    ∃ before after, splitOnce sep (u ++ t) = some (before, after ++ t) := by
  induction u with
  | nil =>
    obtain rfl := List.eq_nil_of_infix_nil h
    refine ⟨[], [], ?_⟩
    rcases t with - | ⟨c, t⟩
    · rfl
    · rfl
  | cons d u ih =>
    rw [List.cons_append, splitOnce]
    by_cases hfront : sep.isPrefixOf (d :: (u ++ t)) = true
    · rw [if_pos hfront]
      have hlen : sep.length ≤ (d :: u).length := h.length_le
      rw [← List.cons_append, List.drop_append_of_le_length hlen]
      exact ⟨[], _, rfl⟩
    · rw [if_neg hfront]
      rcases List.infix_cons_iff.mp h with hp | hi
      · exact absurd (List.isPrefixOf_iff_prefix.mpr (hp.trans (List.prefix_append (d :: u) t)))
          hfront
      · obtain ⟨before, after, hsides⟩ := ih hi
        exact ⟨d :: before, after, by rw [hsides]; rfl⟩

end Text

end AiAgent

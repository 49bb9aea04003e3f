import AiAgent.Auth.Refresh
import AiAgent.Text.Ldif

/-!
# Entries of the directory

The entry of a user has a name, an address and the names of groups; `ldapsearch` prints it and the
program reads it back. The reader takes what stands in the field: it neither decodes what was
encoded nor joins what was folded, and it takes the first part of the name of a group up to a comma,
whether that comma is escaped or not.

So a value is read back precisely if it was printed as it is, in one line; of the name of a group
this is asked only as far as it is read (`AiAgent.Auth.DirectoryGroup.IsPlain`). A group that is not
plain is lost or gets another name (`AiAgent.Auth.DirectoryGroup.readName_iff`), and some entry
shows it (`AiAgent.Auth.recovered_iff`).
-/

namespace AiAgent

namespace Auth

open Text

/-! ### Groups -/

/-- A character of a name within the name of an object: one that would be taken for something else
is escaped. -/
def escapeDnChar (isFirst isLast : Bool) (c : Char) : Text :=
  if c ∈ ['"', '+', ',', ';', '<', '>', '\\'] ∨ (isFirst = true ∧ (c = ' ' ∨ c = '#')) ∨
      (isLast = true ∧ c = ' ') then ['\\', c]
  else if c = '\x00' then ['\\', '0', '0']
  else [c]

/-- A name within the name of an object. -/
def escapeDn (isFirst : Bool) : Text → Text
  | [] => []
  | c :: t => escapeDnChar isFirst t.isEmpty c ++ escapeDn false t

/-- A group of the directory, which is named by its common name and the place where it stands. -/
structure DirectoryGroup where
  commonName : Text
  location : Text
  visible : strip commonName ≠ []
  apart : ∀ c ∈ location.head?, c = ','

/-- The name of the group as an object. -/
def DirectoryGroup.dn (g : DirectoryGroup) : Text :=
  ['C', 'N', '='] ++ (escapeDn true g.commonName ++ g.location)

/-- **A plain group**: its name is printed as it is, and nothing in its common name is escaped or
folded. -/
def DirectoryGroup.IsPlain (g : DirectoryGroup) : Prop :=
  IsSafe g.dn ∧ escapeDn true g.commonName = g.commonName ∧ g.commonName.length ≤ 63

instance (g : DirectoryGroup) : Decidable g.IsPlain := inferInstanceAs (Decidable (_ ∧ _ ∧ _))

/-! ### Escapes -/

section Escapes

variable {c : Char} {t u : Text}

/-- The characters of a text that are no white space. -/
def visibleChars (t : Text) : Text := t.filter fun c => !isSpace c

theorem visibleChars_append (t u : Text) :
    visibleChars (t ++ u) = visibleChars t ++ visibleChars u := List.filter_append _ _

theorem visibleChars_blank {b : Text} (hb : ∀ c ∈ b, isSpace c = true) : visibleChars b = [] := by
  refine List.filter_eq_nil_iff.mpr fun c hc => ?_
  rw [hb c hc]
  exact Bool.noConfusion

theorem visibleChars_lstrip (t : Text) : visibleChars (lstrip t) = visibleChars t := by
  have hsplit : t.takeWhile isSpace ++ lstrip t = t := List.takeWhile_append_dropWhile
  rw [← congrArg visibleChars hsplit, visibleChars_append,
    visibleChars_blank fun c hc => List.mem_takeWhile_imp hc]
  rfl

theorem visibleChars_reverse (t : Text) : visibleChars t.reverse = (visibleChars t).reverse :=
  List.filter_reverse

/-- **Stripping removes white space only.** -/
theorem visibleChars_strip (t : Text) : visibleChars (strip t) = visibleChars t := by
  have hright : ∀ u : Text, visibleChars (rstrip u) = visibleChars u := by
    intro u
    have hlstrip : rstrip u = (lstrip u.reverse).reverse := rfl
    rw [hlstrip, visibleChars_reverse, visibleChars_lstrip, visibleChars_reverse,
      List.reverse_reverse]
  rw [strip, hright, visibleChars_lstrip]

theorem visibleChars_foldFrom (room : ℕ) (t : Text) :
    visibleChars (foldFrom room t) = visibleChars t := by
  have hcons : ∀ (d : Char) (u v : Text), visibleChars u = visibleChars v →
      visibleChars (d :: u) = visibleChars (d :: v) := by
    intro d u v h
    rw [← List.singleton_append, visibleChars_append, h, ← visibleChars_append]
    rfl
  induction t generalizing room with
  | nil => rw [foldFrom_nil]
  | cons c t ih =>
    rcases room with _ | room
    · rw [foldFrom]
      exact hcons c _ _ (ih 74)
    · rw [foldFrom]
      exact hcons c _ _ (ih room)

/-- **An escape is longer**, also without white space. -/
theorem escapeDnChar_cases (isFirst isLast : Bool) (c : Char) :
    (escapeDnChar isFirst isLast c = [c] ∧ c ≠ ',' ∧ ((isFirst = true ∨ isLast = true) → c ≠ ' ')) ∨
      (visibleChars [c]).length < (visibleChars (escapeDnChar isFirst isLast c)).length := by
  rw [escapeDnChar]
  split
  · right
    have hback : visibleChars ['\\', c] = '\\' :: visibleChars [c] := rfl
    rw [hback, List.length_cons]
    exact Nat.lt_succ_self _
  · next hplain =>
    split
    · next hnul =>
      right
      rw [hnul]
      decide
    · left
      push Not at hplain
      obtain ⟨hspecial, hfirst, hlast⟩ := hplain
      refine ⟨rfl, fun hcomma => hspecial (by rw [hcomma]; decide), ?_⟩
      rintro (hon | hon)
      · exact (hfirst hon).1
      · exact hlast hon

/-- **A name in which something is escaped has more visible characters.** -/
theorem length_visibleChars_escapeDn (isFirst : Bool) (t : Text) :
    escapeDn isFirst t = t ∨
      (visibleChars t).length < (visibleChars (escapeDn isFirst t)).length := by
  induction t generalizing isFirst with
  | nil => exact .inl rfl
  | cons c t ih =>
    have hsplit : visibleChars (c :: t) = visibleChars [c] ++ visibleChars t :=
      visibleChars_append [c] t
    rw [escapeDn, visibleChars_append, hsplit, List.length_append, List.length_append]
    rcases escapeDnChar_cases isFirst t.isEmpty c with ⟨hchar, -⟩ | hchar
    · rw [hchar]
      rcases ih false with hrest | hrest
      · exact .inl (congrArg (c :: ·) hrest)
      · exact .inr (by omega)
    · right
      rcases ih false with hrest | hrest
      · rw [hrest]
        omega
      · omega

theorem comma_notMem_escapeDn {isFirst : Bool} (h : ',' ∉ t) : ',' ∉ escapeDn isFirst t := by
  induction t generalizing isFirst with
  | nil => exact List.not_mem_nil
  | cons c t ih =>
    rw [List.mem_cons, not_or] at h
    rw [escapeDn, List.mem_append, not_or]
    refine ⟨?_, ih h.2⟩
    rw [escapeDnChar]
    split
    · rw [List.mem_cons, List.mem_singleton, not_or]
      exact ⟨by decide, h.1⟩
    · split
      · decide
      · rw [List.mem_singleton]
        exact h.1

/-- An escaped name does not begin with a comma. -/
theorem escapeDn_eq_cons (hne : t ≠ []) (isFirst : Bool) :
    ∃ d u, escapeDn isFirst t = d :: u ∧ d ≠ ',' := by
  obtain ⟨c, t, rfl⟩ := List.exists_cons_of_ne_nil hne
  rw [escapeDn, escapeDnChar]
  split
  · exact ⟨_, _, rfl, by decide⟩
  · next hplain =>
    split
    · exact ⟨_, _, rfl, by decide⟩
    · refine ⟨c, _, rfl, fun hcomma => hplain (.inl ?_)⟩
      rw [hcomma]
      decide

/-- Where nothing is escaped, no character is. -/
theorem escapeDn_cons_eq {isFirst : Bool} (h : escapeDn isFirst (c :: t) = c :: t) :
    c ≠ ',' ∧ ((isFirst = true ∨ t.isEmpty = true) → c ≠ ' ') ∧ escapeDn false t = t := by
  rcases escapeDnChar_cases isFirst t.isEmpty c with ⟨hchar, hcomma, hblank⟩ | hlonger
  · rw [escapeDn, hchar] at h
    exact ⟨hcomma, hblank, (List.cons.inj h).2⟩
  · -- Then the whole name would be longer.
    have hsplit : visibleChars (c :: t) = visibleChars [c] ++ visibleChars t :=
      visibleChars_append [c] t
    have hlength := congrArg (fun t => (visibleChars t).length) h
    rw [escapeDn, visibleChars_append, hsplit, List.length_append, List.length_append] at hlength
    rcases length_visibleChars_escapeDn false t with hrest | hrest
    · rw [hrest] at hlength
      omega
    · omega

theorem comma_notMem_of_escapeDn {isFirst : Bool} (h : escapeDn isFirst t = t) : ',' ∉ t := by
  induction t generalizing isFirst with
  | nil => exact List.not_mem_nil
  | cons c t ih =>
    obtain ⟨hcomma, -, hrest⟩ := escapeDn_cons_eq h
    rw [List.mem_cons, not_or]
    exact ⟨hcomma.symm, ih hrest⟩

/-- A name in which nothing is escaped has no blank at an end. -/
theorem blank_notMem_ends {isFirst : Bool} (h : escapeDn isFirst t = t) :
    (isFirst = true → ∀ c ∈ t.head?, c ≠ ' ') ∧ ∀ c ∈ t.getLast?, c ≠ ' ' := by
  induction t generalizing isFirst with
  | nil =>
    constructor
    · rintro - c ⟨⟩
    · rintro c ⟨⟩
  | cons c t ih =>
    obtain ⟨-, hblank, hrest⟩ := escapeDn_cons_eq h
    refine ⟨fun hon d hd => ?_, fun d hd => ?_⟩
    · rw [← Option.some.inj hd]
      exact hblank (.inl hon)
    · rcases t with _ | ⟨e, t⟩
      · rw [← Option.some.inj hd]
        exact hblank (.inr rfl)
      · rw [List.getLast?_cons_cons] at hd
        exact (ih hrest).2 d hd

end Escapes

/-! ### How a group is read -/

section Reading

variable {g : DirectoryGroup} {tail : Text}

namespace DirectoryGroup

/-- The name that is found in the field of a group, where some line feeds may follow. -/
def readName (g : DirectoryGroup) (tail : Text) : Option Text :=
  searchCommonName (ldifField memberOfName g.dn ++ tail)

theorem commonName_ne_nil (g : DirectoryGroup) : g.commonName ≠ [] := by
  intro hnil
  refine g.visible ?_
  rw [hnil]
  rfl

theorem searchCommonName_eq_none {t : Text} (h : ¬['N', '='] <:+: t) :
    searchCommonName t = none := by
  induction t with
  | nil => rfl
  | cons c t ih =>
    have hnot : ¬("CN=".toList.isPrefixOf (c :: t) = true ∧
        ((c :: t).drop 3).takeWhile (· ≠ ',') ≠ []) := by
      rintro ⟨hbegins, -⟩
      have hcn : ['C', 'N', '='] <+: c :: t := List.isPrefixOf_iff_prefix.mp hbegins
      exact h (List.infix_cons (List.cons_prefix_cons.mp hcn).2.isInfix)
    rw [searchCommonName, if_neg hnot]
    exact ih fun hwithin => h (List.infix_cons hwithin)

/-- **A group that is encoded is lost.** -/
theorem readName_of_not_isSafe (hsafe : ¬IsSafe g.dn) (htail : ∀ c ∈ tail, c = '\n') :
    g.readName tail = none := by
  have hvalue : ldifValue g.dn = base64 (utf8 g.dn) := if_neg hsafe
  refine searchCommonName_eq_none fun hwithin => ?_
  have hfield := infix_append_newlines (by decide) (by decide) htail hwithin
  rw [ldifField, hvalue] at hfield
  exact not_infix_base64 _ (infix_of_infix_foldFrom (by decide) (by decide) hfield)

/-- **Of a group that is printed as it is**, what stands before the first comma is read. -/
theorem readName_of_isSafe (hsafe : IsSafe g.dn) (tail : Text) :
    g.readName tail = some ((foldFrom 63 (escapeDn true g.commonName ++ g.location) ++
      tail).takeWhile (· ≠ ',')) := by
  have hfield : ldifField memberOfName g.dn ++ tail = ['C', 'N', '='] ++
      (foldFrom 63 (escapeDn true g.commonName ++ g.location) ++ tail) := by
    have hvalue : ldifValue g.dn = g.dn := if_pos hsafe
    have hcolons : ldifColons g.dn = [':', ' '] := if_pos hsafe
    rw [ldifField, hvalue, hcolons, dn, foldFrom_append_of_le (by decide), List.append_assoc]
    rfl
  obtain ⟨d, u, hbegin, hne⟩ := escapeDn_eq_cons g.commonName_ne_nil true
  have hfold : foldFrom 63 (escapeDn true g.commonName ++ g.location) =
      d :: foldFrom 62 (u ++ g.location) := by
    rw [hbegin]
    rfl
  have htake : (d :: foldFrom 62 (u ++ g.location) ++ tail).takeWhile (· ≠ ',') ≠ [] := by
    rw [List.cons_append, List.takeWhile_cons, if_pos (decide_eq_true hne)]
    exact List.cons_ne_nil _ _
  rw [readName, hfield, hfold]
  exact if_pos ⟨rfl, htake⟩

/-- Where the name has no comma, this is the escaped and folded name, up to white space. -/
theorem exists_readName (hsafe : IsSafe g.dn) (hcomma : ',' ∉ g.commonName)
    (htail : ∀ c ∈ tail, c = '\n') : ∃ b, (∀ c ∈ b, isSpace c = true) ∧
      g.readName tail = some (foldFrom 63 (escapeDn true g.commonName) ++ b) := by
  have hname : ∀ c ∈ foldFrom 63 (escapeDn true g.commonName), decide (c ≠ ',') = true := by
    intro c hc
    refine decide_eq_true fun heq => ?_
    rw [heq] at hc
    rcases mem_foldFrom hc with hmem | heq | heq
    · exact comma_notMem_escapeDn hcomma hmem
    · exact absurd heq (by decide)
    · exact absurd heq (by decide)
  obtain ⟨left, hleft⟩ := foldFrom_append 63 (escapeDn true g.commonName) g.location
  rw [readName_of_isSafe hsafe, hleft, List.append_assoc, List.takeWhile_append_of_pos hname]
  refine ⟨_, ?_, rfl⟩
  -- What follows the name is a comma, which may be folded, or the end of the text.
  rcases hlocation : g.location with _ | ⟨c, location⟩
  · rw [foldFrom_nil]
    intro d hd
    exact isSpace_of_newlines htail d ((List.takeWhile_prefix _).subset hd)
  · obtain rfl : c = ',' := g.apart c (by rw [hlocation]; rfl)
    rcases left with _ | left
    · have htake : (foldFrom 0 (',' :: location) ++ tail).takeWhile (· ≠ ',') = ['\n', ' '] := by
        rw [foldFrom]
        rfl
      rw [htake]
      decide
    · have htake : (foldFrom (left + 1) (',' :: location) ++ tail).takeWhile (· ≠ ',') = [] := by
        rw [foldFrom]
        rfl
      rw [htake]
      exact fun d hd => absurd hd List.not_mem_nil

/-- What is read has no comma. -/
theorem comma_notMem_readName (hsafe : IsSafe g.dn) {name : Text}
    (h : g.readName tail = some name) : ',' ∉ name := by
  rw [readName_of_isSafe hsafe] at h
  rw [← Option.some.inj h]
  intro hmem
  have hne := (List.all_eq_true.mp List.all_takeWhile) ',' hmem
  exact absurd hne (by decide)

/-- **When a group is read**: it is plain. -/
theorem readName_iff (htail : ∀ c ∈ tail, c = '\n') :
    (∃ name, g.readName tail = some name ∧ strip name = strip g.commonName) ↔ g.IsPlain := by
  by_cases hsafe : IsSafe g.dn
  swap
  · rw [readName_of_not_isSafe hsafe htail]
    constructor
    · rintro ⟨name, hname, -⟩
      cases hname
    · exact fun hplain => absurd hplain.1 hsafe
  have hends : escapeDn true g.commonName = g.commonName → Tight g.commonName := by
    intro hescape
    obtain ⟨hhead, hlast⟩ := blank_notMem_ends hescape
    have hchars : ∀ c ∈ g.commonName, c ≠ ' ' → isSpace c = false := by
      intro c hc hne
      have hmem : c ∈ g.dn := by
        rw [dn, hescape]
        exact List.mem_append_right _ (List.mem_append_left _ hc)
      obtain ⟨hlow, hhigh⟩ := hsafe.1 c hmem
      have hall : ∀ n < 0x7f, 0x20 ≤ n → Char.ofNat n ≠ ' ' → isSpace (Char.ofNat n) = false := by
        decide +kernel
      have hchar := hall c.toNat hhigh hlow
      rw [Char.ofNat_toNat] at hchar
      exact hchar hne
    refine ⟨fun c hc => ?_, fun c hc => ?_⟩
    · exact hchars c (List.mem_of_mem_head? hc) (hhead rfl c hc)
    · exact hchars c (List.mem_of_mem_getLast? hc) (hlast c hc)
  constructor
  · rintro ⟨name, hname, hstrip⟩
    have hcomma : ',' ∉ g.commonName := by
      intro hmem
      have hvisible : ',' ∈ visibleChars g.commonName := List.mem_filter.mpr ⟨hmem, by decide⟩
      rw [← visibleChars_strip, ← hstrip, visibleChars_strip] at hvisible
      exact comma_notMem_readName hsafe hname (List.mem_of_mem_filter hvisible)
    obtain ⟨b, hb, hread⟩ := exists_readName hsafe hcomma htail
    obtain rfl := Option.some.inj (hname.symm.trans hread)
    have hescape : escapeDn true g.commonName = g.commonName := by
      refine (length_visibleChars_escapeDn true g.commonName).resolve_right fun hlonger => ?_
      have hvisible := congrArg visibleChars hstrip
      rw [visibleChars_strip, visibleChars_strip, visibleChars_append, visibleChars_blank hb,
        List.append_nil, visibleChars_foldFrom] at hvisible
      rw [hvisible] at hlonger
      exact Nat.lt_irrefl _ hlonger
    refine ⟨hsafe, hescape, ?_⟩
    -- A name that is folded has a line feed in it.
    by_contra hlong
    have hne := g.commonName_ne_nil
    have htight := hends hescape
    have hfold : foldFrom 63 g.commonName ≠ [] := by
      obtain ⟨c, u, hcons⟩ := List.exists_cons_of_ne_nil hne
      rw [hcons]
      exact List.cons_ne_nil _ _
    rw [hescape, strip_append_blank (tight_foldFrom htight (by decide)) hfold hb,
      strip_of_tight htight] at hstrip
    have hnewline : '\n' ∈ foldFrom 63 g.commonName := newline_mem_foldFrom (by omega)
    rw [hstrip] at hnewline
    have hmem : '\n' ∈ g.dn := by
      rw [dn, hescape]
      exact List.mem_append_right _ (List.mem_append_left _ hnewline)
    exact absurd (hsafe.1 _ hmem).1 (by decide)
  · rintro ⟨-, hescape, hshort⟩
    obtain ⟨b, hb, hread⟩ :=
      exists_readName hsafe (comma_notMem_of_escapeDn hescape) htail
    refine ⟨_, hread, ?_⟩
    rw [hescape, foldFrom_of_le hshort, strip_append_blank (hends hescape) g.commonName_ne_nil hb,
      strip_of_tight (hends hescape)]

end DirectoryGroup

end Reading

/-! ### Entries -/

/-- The attributes that are asked for, and the name of the entry, which is printed with them. -/
inductive AttributeName where
  | dn
  | displayName
  | mail
  | memberOf
  deriving DecidableEq

/-- The name as it is printed. -/
def AttributeName.text : AttributeName → Text
  | dn => "dn".toList
  | displayName => "displayName".toList
  | mail => "mail".toList
  | memberOf => memberOfName

/-- The attributes of the query. -/
def queryNames : List AttributeName := [.displayName, .mail, .memberOf]

/-- A value of an attribute. -/
structure Attribute where
  name : AttributeName
  value : Text

/-- No name of the query stands in the value. -/
def IsQueryFree (v : Text) : Prop := ∀ name ∈ queryNames, ¬name.text <:+: v

instance (v : Text) : Decidable (IsQueryFree v) :=
  inferInstanceAs (Decidable (∀ name ∈ queryNames, _))

/-- The values of an attribute. -/
def valuesOf (name : AttributeName) (attributes : List Attribute) : List Text :=
  (attributes.filter fun a => a.name = name).map Attribute.value

/-- The output of `ldapsearch -LLL` for an entry. -/
def ldapsearchOutput (attributes : List Attribute) : Text :=
  attributes.flatMap (fun a => ldifLine a.name.text a.value ++ ['\n']) ++ ['\n']

/-- **An entry**: the values in the order in which they are printed, one name, one address and the
groups. -/
structure Entry where
  attributes : List Attribute
  displayName : Text
  mail : Text
  groups : List DirectoryGroup
  hasDisplayName : valuesOf .displayName attributes = [displayName]
  hasMail : valuesOf .mail attributes = [mail]
  hasGroups : valuesOf .memberOf attributes = groups.map DirectoryGroup.dn
  queryFree : ∀ a ∈ attributes, IsQueryFree a.value

/-- The entry is recovered in the identity. -/
structure Recovered (lowerCase : Text → Text) (entry : Entry) (identity : Identity) : Prop where
  displayName : identity.displayName = entry.displayName
  email : identity.email = entry.mail
  groups : identity.groups =
    normalizeGroups lowerCase (entry.groups.map DirectoryGroup.commonName)

section Output

variable {attributes : List Attribute} {name : AttributeName}

/-- The attributes with the line feeds that belong to their fields: those at the end of the output
belong to the last one. -/
def withEnds : List Attribute → List (Attribute × Text)
  | [] => []
  | [a] => [(a, ['\n', '\n'])]
  | a :: b :: attributes => (a, []) :: withEnds (b :: attributes)

/-- The lines of the output. -/
def outputLines (attributes : List Attribute) : List Text :=
  (withEnds attributes).map fun p => ldifLine p.1.name.text p.1.value ++ p.2

theorem map_fst_withEnds (attributes : List Attribute) :
    (withEnds attributes).map Prod.fst = attributes := by
  fun_induction withEnds attributes with
  | case1 => rfl
  | case2 a => rfl
  | case3 a b attributes ih => exact congrArg (a :: ·) ih

theorem newline_of_mem_withEnds {p : Attribute × Text} (h : p ∈ withEnds attributes) :
    ∀ c ∈ p.2, c = '\n' := by
  fun_induction withEnds attributes with
  | case1 => cases h
  | case2 a =>
    obtain rfl := List.mem_singleton.mp h
    simp
  | case3 a b attributes ih =>
    rcases List.mem_cons.mp h with rfl | h
    · exact fun c hc => absurd hc List.not_mem_nil
    · exact ih h

theorem ldapsearchOutput_eq (hne : attributes ≠ []) :
    ldapsearchOutput attributes = join ['\n'] (outputLines attributes) := by
  rw [ldapsearchOutput, outputLines]
  fun_induction withEnds attributes with
  | case1 => exact absurd rfl hne
  | case2 a =>
    rw [List.map_singleton, join_singleton, List.flatMap_singleton, List.append_assoc]
    rfl
  | case3 a b attributes ih =>
    have hrest := ih (List.cons_ne_nil b attributes)
    rcases hlines : withEnds (b :: attributes) with _ | ⟨p, ps⟩
    · rcases attributes with _ | ⟨c, attributes⟩
      · cases hlines
      · cases hlines
    · rw [hlines, List.map_cons] at hrest
      rw [List.map_cons, List.map_cons, join_cons_cons, ← hrest, List.flatMap_cons,
        List.append_nil, List.append_assoc, List.append_assoc]

/-- The names of attributes are short words. -/
theorem AttributeName.text_spec (name : AttributeName) : name.text ≠ [] ∧ '\n' ∉ name.text ∧
    ' ' ∉ name.text ∧ name.text.length ≤ 72 ∧ BeginsVisibly name.text := by
  cases name with
  | dn => exact ⟨by decide, by decide, by decide, by decide, 'd', _, rfl, by decide⟩
  | displayName => exact ⟨by decide, by decide, by decide, by decide, 'd', _, rfl, by decide⟩
  | mail => exact ⟨by decide, by decide, by decide, by decide, 'm', _, rfl, by decide⟩
  | memberOf => exact ⟨by decide, by decide, by decide, by decide, 'm', _, rfl, by decide⟩

/-- No name of the query ends where another name does. -/
theorem not_infix_of_ne {other : AttributeName} (hquery : name ∈ queryNames) (hne : other ≠ name) :
    ¬(name.text ++ [':']) <:+: other.text ++ [':'] ∧
      ¬(name.text ++ [':']) <:+: other.text ++ [':', ':'] := by
  revert hquery hne
  cases name with
  | dn => exact fun hquery => absurd hquery (by decide)
  | displayName => cases other <;> decide
  | mail => cases other <;> decide
  | memberOf => cases other <;> decide

/-- **The fields of an output** are the printed values, and some line feeds. -/
theorem forall₂_findFields (hquery : name ∈ queryNames) (hne : attributes ≠ [])
    (hfree : ∀ a ∈ attributes, IsQueryFree a.value) :
    List.Forall₂ (fun v field => ∃ tail : Text, (∀ c ∈ tail, c = '\n') ∧
        field = ldifField name.text v ++ tail)
      (valuesOf name attributes) (findFields name.text (ldapsearchOutput attributes) 0) := by
  obtain ⟨hname, hnewline, hblank, hlength, -⟩ := name.text_spec
  have hlines : ∀ t ∈ outputLines attributes, IsLine t ∧ BeginsVisibly t := by
    intro t ht
    obtain ⟨p, hp, rfl⟩ := List.mem_map.mp ht
    obtain ⟨-, hnewline', -, hlength', c, u, hbegin, hc⟩ := p.1.name.text_spec
    refine ⟨isLine_ldifLine hnewline' (by omega) (newline_of_mem_withEnds hp) _, ?_⟩
    rw [ldifLine_eq (by omega), hbegin]
    exact ⟨c, _, rfl, hc⟩
  rw [ldapsearchOutput_eq hne, findFields_join hnewline (fun t ht => (hlines t ht).1)
    fun t ht => (hlines t ht).2, outputLines, List.flatMap_map]
  have hends : ∀ p ∈ withEnds attributes, (∀ c ∈ p.2, c = '\n') ∧ IsQueryFree p.1.value := by
    intro p hp
    refine ⟨newline_of_mem_withEnds hp, hfree p.1 ?_⟩
    rw [← map_fst_withEnds attributes]
    exact List.mem_map_of_mem hp
  have hvalues : valuesOf name attributes = valuesOf name ((withEnds attributes).map Prod.fst) := by
    rw [map_fst_withEnds]
  rw [hvalues]
  generalize withEnds attributes = ends at hends
  -- Line by line: one of the name that is looked for gives its field, any other gives none.
  induction ends with
  | nil => exact .nil
  | cons p ends ih =>
    obtain ⟨⟨htail, hv⟩, hrest⟩ := List.forall_mem_cons.mp hends
    have hfields := ih hrest
    rw [List.flatMap_cons, List.map_cons, valuesOf]
    by_cases hsame : p.1.name = name
    · rw [List.filter_cons, if_pos (decide_eq_true hsame), hsame,
        findFields_ldifLine hname hnewline (by omega) htail]
      exact .cons ⟨p.2, htail, rfl⟩ hfields
    · obtain ⟨hone, htwo⟩ := not_infix_of_ne hquery hsame
      obtain ⟨-, -, -, hlength', -⟩ := p.1.name.text_spec
      rw [List.filter_cons, if_neg (by simpa using hsame),
        findFields_ldifLine_of_ne (by omega) htail hnewline hblank hone htwo (hv name hquery)]
      exact hfields

/-- The first field is the one that is searched for. -/
theorem searchField_eq_head? (name t : Text) :
    searchField name t = (findFields name t 0).head? := by
  induction t with
  | nil => rfl
  | cons c t ih =>
    rw [searchField, findFields]
    cases afterHeading name (c :: t) with
    | none => exact ih
    | some rest => rfl

end Output

/-! ### When an entry is recovered -/

section Recovery

variable {lowerCase upperCase : Text → Text} {settings : Settings} {now now' : ℤ}
  {username : Text}

/-- **Which values are read back**: what is read is the stripped field, if something is left. -/
theorem eq_value_iff {name v tail found : Text} (hlength : name.length ≤ 72)
    (htail : ∀ c ∈ tail, c = '\n') (hfound : strip (ldifField name v ++ tail) ≠ [] →
      found = strip (ldifField name v ++ tail)) (hne : found ≠ []) :
    found = v ↔ v ≠ [] ∧ IsSafe v ∧ name.length + 2 + v.length ≤ 76 := by
  by_cases hv : v = []
  · rw [hv]
    constructor
    · exact fun heq => absurd heq hne
    · exact fun h => absurd rfl h.1
  · have hstrip := strip_ldifField hlength hv htail
    have hfold : (ldifValue v).length ≤ (ldifField name v).length := length_le_foldFrom _ _
    have hle := length_le_ldifValue v
    have hpos := List.length_pos_of_ne_nil hv
    rw [hstrip] at hfound
    rw [hfound (List.ne_nil_of_length_pos (by omega)), ldifField_eq_iff hv]
    constructor
    · exact fun h => ⟨hv, h⟩
    · exact fun h => h.2

theorem displayName_parseLdapOutput (huser : normalizeUsername lowerCase username ≠ [])
    (hlower : Lowers lowerCase) {output field : Text}
    (h : searchField AttributeName.displayName.text output = some field) (hne : strip field ≠ []) :
    (parseLdapOutput lowerCase upperCase settings now now' output username).displayName =
      strip field := by
  have hself := normalizeUsername_self (isUsername_normalizeUsername huser)
    (lowered_normalizeUsername hlower _ huser)
  have hfallback : (buildFallbackIdentity lowerCase upperCase settings now username).username =
      normalizeUsername lowerCase username := rfl
  have hsearch : searchField "displayName".toList output = some field := h
  rw [parseLdapOutput, buildIdentityContract]
  dsimp only
  rw [hfallback, hself, if_neg huser, hsearch, Option.map_some, Option.getD_some,
    orText_some hne, strip_strip]

theorem email_parseLdapOutput (huser : normalizeUsername lowerCase username ≠ [])
    (hlower : Lowers lowerCase) {output field : Text}
    (h : searchField AttributeName.mail.text output = some field) (hne : strip field ≠ []) :
    (parseLdapOutput lowerCase upperCase settings now now' output username).email =
      strip field := by
  have hself := normalizeUsername_self (isUsername_normalizeUsername huser)
    (lowered_normalizeUsername hlower _ huser)
  have hfallback : (buildFallbackIdentity lowerCase upperCase settings now username).username =
      normalizeUsername lowerCase username := rfl
  have hsearch : searchField "mail".toList output = some field := h
  rw [parseLdapOutput, buildIdentityContract]
  dsimp only
  rw [hfallback, hself, if_neg huser, hsearch, Option.map_some, Option.getD_some,
    orText_some hne, strip_strip]

/-- **A plain value of a line**: it was printed as it is and not folded, behind a name and a
heading that leave so much room. -/
def IsShown (room : ℕ) (v : Text) : Prop := v ≠ [] ∧ IsSafe v ∧ v.length ≤ room

instance (room : ℕ) (v : Text) : Decidable (IsShown room v) :=
  inferInstanceAs (Decidable (_ ∧ _ ∧ _))

namespace Entry

variable (entry : Entry)

theorem attributes_ne_nil : entry.attributes ≠ [] := by
  intro hnil
  have hname := entry.hasDisplayName
  rw [hnil] at hname
  cases hname

/-- An attribute with one value has one field. -/
theorem searchField_eq {name : AttributeName} {v : Text} (hquery : name ∈ queryNames)
    (hv : valuesOf name entry.attributes = [v]) : ∃ tail : Text, (∀ c ∈ tail, c = '\n') ∧
      searchField name.text (ldapsearchOutput entry.attributes) =
        some (ldifField name.text v ++ tail) := by
  have hfields := forall₂_findFields hquery entry.attributes_ne_nil entry.queryFree
  rw [hv] at hfields
  rw [searchField_eq_head?]
  rcases hfound : findFields name.text (ldapsearchOutput entry.attributes) 0 with _ | ⟨field, rest⟩
  · rw [hfound] at hfields
    cases hfields
  · rw [hfound] at hfields
    obtain ⟨⟨tail, htail, rfl⟩, -⟩ := List.forall₂_cons.mp hfields
    exact ⟨tail, htail, rfl⟩

/-- **When the name is read back.** -/
theorem displayName_iff (hlower : Lowers lowerCase) (hraises : Raises upperCase) (hnow : 0 < now)
    (hnow' : 0 < now') (huser : normalizeUsername lowerCase username ≠ []) :
    (parseLdapOutput lowerCase upperCase settings now now' (ldapsearchOutput entry.attributes)
      username).displayName = entry.displayName ↔ IsShown 63 entry.displayName := by
  obtain ⟨tail, htail, hfield⟩ := entry.searchField_eq (by decide) entry.hasDisplayName
  have hsettled : Settled lowerCase (parseLdapOutput lowerCase upperCase settings now now'
      (ldapsearchOutput entry.attributes) username) :=
    settled_parseLdapOutput hlower hraises hnow hnow' huser _
  have hlength : AttributeName.displayName.text.length = 11 := rfl
  rw [eq_value_iff (by rw [hlength]; decide) htail
    (displayName_parseLdapOutput huser hlower hfield) hsettled.displayName.ne_nil, hlength, IsShown]
  refine and_congr_right fun _ => and_congr_right fun _ => ?_
  omega

/-- **When the address is read back.** -/
theorem email_iff (hlower : Lowers lowerCase) (hraises : Raises upperCase) (hnow : 0 < now)
    (hnow' : 0 < now') (huser : normalizeUsername lowerCase username ≠ []) :
    (parseLdapOutput lowerCase upperCase settings now now' (ldapsearchOutput entry.attributes)
      username).email = entry.mail ↔ IsShown 70 entry.mail := by
  obtain ⟨tail, htail, hfield⟩ := entry.searchField_eq (by decide) entry.hasMail
  have hsettled : Settled lowerCase (parseLdapOutput lowerCase upperCase settings now now'
      (ldapsearchOutput entry.attributes) username) :=
    settled_parseLdapOutput hlower hraises hnow hnow' huser _
  have hlength : AttributeName.mail.text.length = 4 := rfl
  rw [eq_value_iff (by rw [hlength]; decide) htail
    (email_parseLdapOutput huser hlower hfield) hsettled.email.ne_nil, hlength, IsShown]
  refine and_congr_right fun _ => and_congr_right fun _ => ?_
  omega

/-- **The groups that are read** are the names that are found for those of the entry. -/
theorem exists_ldapGroups : ∃ tails : List Text, (∀ tail ∈ tails, ∀ c ∈ tail, c = '\n') ∧
    tails.length = entry.groups.length ∧
      ldapGroups (ldapsearchOutput entry.attributes) =
        (List.zipWith DirectoryGroup.readName entry.groups tails).filterMap id := by
  have hquery : AttributeName.memberOf ∈ queryNames := by decide
  have hfields := forall₂_findFields hquery entry.attributes_ne_nil entry.queryFree
  rw [entry.hasGroups, List.forall₂_map_left_iff] at hfields
  rw [ldapGroups]
  change List.Forall₂ _ _ (findFields memberOfName _ 0) at hfields
  generalize findFields memberOfName (ldapsearchOutput entry.attributes) 0 = fields at hfields ⊢
  generalize entry.groups = groups at hfields ⊢
  induction hfields with
  | nil => exact ⟨[], fun tail h => absurd h List.not_mem_nil, rfl, rfl⟩
  | @cons g field groups fields hfield hrest ih =>
    obtain ⟨tail, htail, rfl⟩ := hfield
    obtain ⟨tails, htails, hlength, hgroups⟩ := ih
    refine ⟨tail :: tails, List.forall_mem_cons.mpr ⟨htail, htails⟩, congrArg (· + 1) hlength, ?_⟩
    have hread : searchCommonName (ldifField memberOfName g.dn ++ tail) = g.readName tail := rfl
    change List.filterMap searchCommonName ((ldifField memberOfName g.dn ++ tail) :: fields) = _
    rw [List.zipWith_cons_cons, List.filterMap_cons, List.filterMap_cons, hread, hgroups]
    rfl

end Entry

/-- Stripping groups before they are normalized changes nothing. -/
theorem normalizeGroups_map_strip (groups : List Text) :
    normalizeGroups lowerCase (groups.map strip) = normalizeGroups lowerCase groups := by
  have hdistinct : ∀ seen, distinctGroups lowerCase seen (groups.map strip) =
      distinctGroups lowerCase seen groups := by
    induction groups with
    | nil => exact fun seen => rfl
    | cons group groups ih =>
      intro seen
      rw [List.map_cons, distinctGroups, distinctGroups, strip_strip, ih, ih]
  rw [normalizeGroups, normalizeGroups, hdistinct]

/-- **An entry with plain groups has them all read.** -/
theorem Entry.groups_of_isPlain (entry : Entry) (h : ∀ g ∈ entry.groups, g.IsPlain) :
    normalizeGroups lowerCase (ldapGroups (ldapsearchOutput entry.attributes)) =
      normalizeGroups lowerCase (entry.groups.map DirectoryGroup.commonName) := by
  obtain ⟨tails, htails, hlength, hgroups⟩ := entry.exists_ldapGroups
  rw [hgroups, ← normalizeGroups_map_strip, ← normalizeGroups_map_strip (entry.groups.map _)]
  refine congrArg _ ?_
  clear hgroups
  generalize entry.groups = groups at h hlength
  induction groups generalizing tails with
  | nil => rfl
  | cons g groups ih =>
    rcases tails with _ | ⟨tail, tails⟩
    · cases hlength
    · obtain ⟨htail, hrest⟩ := List.forall_mem_cons.mp htails
      obtain ⟨hg, hplain⟩ := List.forall_mem_cons.mp h
      obtain ⟨name, hname, hstrip⟩ := (DirectoryGroup.readName_iff htail).mpr hg
      rw [List.zipWith_cons_cons, hname, List.filterMap_cons]
      dsimp only [id]
      rw [List.map_cons, List.map_cons, List.map_cons, hstrip,
        ih tails hrest hplain (Nat.succ.inj hlength)]

end Recovery

/-! ### The condition is exact -/

section Exact

variable {lowerCase upperCase : Text → Text} {settings : Settings} {now now' : ℤ}
  {username : Text}

/-- The entry with these values. -/
def entryOf (name mail : Text) (groups : List DirectoryGroup) (hname : IsQueryFree name)
    (hmail : IsQueryFree mail) (hgroups : ∀ g ∈ groups, IsQueryFree g.dn) : Entry where
  attributes := ⟨.displayName, name⟩ :: ⟨.mail, mail⟩ ::
    groups.map fun g => ⟨.memberOf, g.dn⟩
  displayName := name
  mail := mail
  groups := groups
  hasDisplayName := by
    have hnone : valuesOf .displayName (groups.map fun g => ⟨.memberOf, g.dn⟩) = [] := by
      rw [valuesOf, List.map_eq_nil_iff, List.filter_eq_nil_iff]
      intro a ha
      obtain ⟨g, -, rfl⟩ := List.mem_map.mp ha
      exact Bool.false_ne_true
    exact congrArg (name :: ·) hnone
  hasMail := by
    have hnone : valuesOf .mail (groups.map fun g => ⟨.memberOf, g.dn⟩) = [] := by
      rw [valuesOf, List.map_eq_nil_iff, List.filter_eq_nil_iff]
      intro a ha
      obtain ⟨g, -, rfl⟩ := List.mem_map.mp ha
      exact Bool.false_ne_true
    exact congrArg (mail :: ·) hnone
  hasGroups := by
    have hall : valuesOf .memberOf (groups.map fun g => ⟨.memberOf, g.dn⟩) =
        groups.map DirectoryGroup.dn := by
      rw [valuesOf, List.filter_eq_self.mpr, List.map_map]
      · rfl
      · intro a ha
        obtain ⟨g, -, rfl⟩ := List.mem_map.mp ha
        rfl
    exact hall
  queryFree := by
    rw [List.forall_mem_cons, List.forall_mem_cons, List.forall_mem_map]
    exact ⟨hname, hmail, hgroups⟩

/-- Two groups are left apart if they differ in lower case. -/
theorem normalizeGroups_pair {x n : Text} (hx : strip x ≠ [])
    (hn : strip n ≠ []) (hne : lowerCase (strip n) ≠ lowerCase (strip x)) :
    normalizeGroups lowerCase [x, n] = [strip x, strip n] := by
  simp [normalizeGroups, distinctGroups, hx, hn, hne]

/-- Otherwise the second one is left out. -/
theorem normalizeGroups_pair_cases {x : Text} (hx : strip x ≠ []) (n : Text) :
    normalizeGroups lowerCase [x, n] = [strip x] ∨
      normalizeGroups lowerCase [x, n] = [strip x, strip n] := by
  by_cases hn : strip n = []
  · left
    simp [normalizeGroups, distinctGroups, hx, hn]
  · by_cases hne : lowerCase (strip n) = lowerCase (strip x)
    · left
      simp [normalizeGroups, distinctGroups, hx, hne]
    · exact .inr (normalizeGroups_pair hx hn hne)

/-- The group that is called by a letter, at the top of the directory. -/
def letterGroup (c : Char) (h : strip [c] ≠ []) : DirectoryGroup :=
  ⟨[c], [], h, fun d hd => by cases hd⟩

/-- **A group that is not plain is missed** beside another one. -/
theorem isPlain_of_recovered (hlower : Lowers lowerCase) {name mail : Text}
    (hname : IsQueryFree name) (hmail : IsQueryFree mail) {g : DirectoryGroup}
    (hg : IsQueryFree g.dn)
    (h : ∀ entry : Entry, entry.displayName = name → entry.mail = mail →
      (∀ g' ∈ entry.groups, g'.IsPlain ∨ g' = g) → Recovered lowerCase entry
        (parseLdapOutput lowerCase upperCase settings now now' (ldapsearchOutput entry.attributes)
          username)) : g.IsPlain := by
  -- One of two letters differs from the name of the group also in lower case.
  obtain ⟨c, hc, hne⟩ : ∃ c ∈ ['a', 'b'], lowerCase (strip g.commonName) ≠ lowerCase [c] := by
    by_contra hall
    push Not at hall
    have hsame := (hall 'a' (by simp)).symm.trans (hall 'b' (by simp))
    rw [hlower.latin _ (by decide), hlower.latin _ (by decide)] at hsame
    exact absurd hsame (by decide)
  have hletter : strip [c] = [c] := by
    rcases List.mem_pair.mp hc with rfl | rfl
    · rfl
    · rfl
  have hvisible : strip [c] ≠ [] := by
    rw [hletter]
    exact List.cons_ne_nil _ _
  obtain ⟨x, hx, hxname, hxplain, hxfree⟩ : ∃ x, x = letterGroup c hvisible ∧ x.commonName = [c] ∧
      x.IsPlain ∧ IsQueryFree x.dn := by
    refine ⟨_, rfl, rfl, ?_⟩
    have hfirst : (letterGroup 'a' (by decide)).IsPlain ∧
        IsQueryFree (letterGroup 'a' (by decide)).dn := by decide +kernel
    have hsecond : (letterGroup 'b' (by decide)).IsPlain ∧
        IsQueryFree (letterGroup 'b' (by decide)).dn := by decide +kernel
    rcases List.mem_pair.mp hc with rfl | rfl
    · exact hfirst
    · exact hsecond
  have hgroups : ∀ g' ∈ [x, g], IsQueryFree g'.dn := by
    intro g' hg'
    rcases List.mem_pair.mp hg' with rfl | rfl
    · exact hxfree
    · exact hg
  have hrecovered := (h (entryOf name mail [x, g] hname hmail hgroups) rfl rfl (by
    intro g' hg'
    rcases List.mem_pair.mp hg' with rfl | rfl
    · exact .inl hxplain
    · exact .inr rfl)).groups
  obtain ⟨tails, htails, hlength, hread⟩ :=
    (entryOf name mail [x, g] hname hmail hgroups).exists_ldapGroups
  obtain ⟨tail, tail', rfl⟩ : ∃ tail tail', tails = [tail, tail'] := List.length_eq_two.mp hlength
  have hexpected : normalizeGroups lowerCase
      ((entryOf name mail [x, g] hname hmail hgroups).groups.map DirectoryGroup.commonName) =
        [[c], strip g.commonName] := by
    have hpair := normalizeGroups_pair (x := x.commonName) (by rw [hxname]; exact hvisible)
      g.visible (by rw [hxname, hletter]; exact hne)
    rw [hxname, hletter] at hpair
    rw [← hpair]
    show normalizeGroups lowerCase [x.commonName, g.commonName] = _
    rw [hxname]
  rw [groups_parseLdapOutput, hexpected, hread] at hrecovered
  obtain ⟨first, hfirst, hfirstname⟩ := (DirectoryGroup.readName_iff
    (htails tail List.mem_cons_self)).mpr hxplain
  rw [hxname, hletter] at hfirstname
  refine (DirectoryGroup.readName_iff (htails tail' (by simp))).mp ?_
  change normalizeGroups lowerCase (List.filterMap id [x.readName tail, g.readName tail']) = _
    at hrecovered
  rw [hfirst] at hrecovered
  rcases hsecond : g.readName tail' with _ | second
  · rw [hsecond] at hrecovered
    change normalizeGroups lowerCase [first] = _ at hrecovered
    have hone : normalizeGroups lowerCase [first] = [[c]] := by
      simp [normalizeGroups, distinctGroups, hfirstname]
    rw [hone] at hrecovered
    cases hrecovered
  · refine ⟨second, rfl, ?_⟩
    rw [hsecond] at hrecovered
    change normalizeGroups lowerCase [first, second] = _ at hrecovered
    rcases normalizeGroups_pair_cases (by rw [hfirstname]; exact List.cons_ne_nil _ _) second with
      hpair | hpair
    · rw [hpair] at hrecovered
      cases (List.cons.inj hrecovered).2
    · rw [hpair] at hrecovered
      exact (List.cons.inj (List.cons.inj hrecovered).2).1

/-- **Entries are recovered, precisely if the name and the address are shown and all groups that may
occur are plain.** -/
theorem recovered_iff (hlower : Lowers lowerCase) (hraises : Raises upperCase) (hnow : 0 < now)
    (hnow' : 0 < now') (huser : normalizeUsername lowerCase username ≠ []) {name mail : Text}
    (hname : IsQueryFree name) (hmail : IsQueryFree mail) {may : DirectoryGroup → Prop}
    (hmay : ∀ g, may g → IsQueryFree g.dn) :
    (∀ entry : Entry, entry.displayName = name → entry.mail = mail →
      (∀ g ∈ entry.groups, g.IsPlain ∨ may g) → Recovered lowerCase entry
        (parseLdapOutput lowerCase upperCase settings now now' (ldapsearchOutput entry.attributes)
          username)) ↔
      IsShown 63 name ∧ IsShown 70 mail ∧ ∀ g, may g → g.IsPlain := by
  constructor
  · intro h
    have hbare := h (entryOf name mail [] hname hmail fun g hg => absurd hg List.not_mem_nil)
      rfl rfl
      fun g hg => absurd hg List.not_mem_nil
    refine ⟨?_, ?_, fun g hg => ?_⟩
    · exact (Entry.displayName_iff _ hlower hraises hnow hnow' huser).mp hbare.displayName
    · exact (Entry.email_iff _ hlower hraises hnow hnow' huser).mp hbare.email
    · refine isPlain_of_recovered hlower hname hmail (hmay g hg) fun entry hentry hentry' hgroups =>
        h entry hentry hentry' fun g' hg' => ?_
      rcases hgroups g' hg' with hplain | rfl
      · exact .inl hplain
      · exact .inr hg
  · rintro ⟨hshown, hshown', hplain⟩ entry rfl rfl hgroups
    constructor
    case displayName => exact (entry.displayName_iff hlower hraises hnow hnow' huser).mpr hshown
    case email => exact (entry.email_iff hlower hraises hnow hnow' huser).mpr hshown'
    case groups =>
      rw [groups_parseLdapOutput]
      exact entry.groups_of_isPlain fun g hg => (hgroups g hg).elim id (hplain g)

end Exact

/-! ### Two entries -/

section Examples

/-- A group of a small organization. -/
def officeGroup (name : Text) (h : strip name ≠ []) : DirectoryGroup where
  commonName := name
  location := ",OU=Groups,DC=corp".toList
  visible := h
  apart := fun _ hc => (Option.some.inj hc).symm

/-- What is printed as it is, is read back. -/
theorem recovered_iff_staff : Recovered lower
    (entryOf "Anna".toList "anna@corp".toList [officeGroup "Staff".toList (by decide)]
      (by decide +kernel) (by decide +kernel) (by decide +kernel))
    (parseLdapOutput lower (List.map Char.toUpper) noSettings 1 2
      (ldapsearchOutput (entryOf "Anna".toList "anna@corp".toList
        [officeGroup "Staff".toList (by decide)] (by decide +kernel) (by decide +kernel)
          (by decide +kernel)).attributes) "anna".toList) := by
  have hplain : ∀ g, g = officeGroup "Staff".toList (by decide) → g.IsPlain := by
    rintro g rfl
    decide +kernel
  have hfree : ∀ g, g = officeGroup "Staff".toList (by decide) → IsQueryFree g.dn := by
    rintro g rfl
    decide +kernel
  refine (recovered_iff lowers_lower ⟨fun _ _ => rfl⟩ (by decide) (by decide) (by decide)
    (by decide +kernel) (by decide +kernel) hfree).mpr ⟨?_, ?_, hplain⟩ _ rfl rfl ?_
  · decide +kernel
  · decide +kernel
  · intro g hg
    exact .inr (List.mem_singleton.mp hg)

/-- **A Cyrillic group is lost.** -/
theorem not_recovered_cyrillic : ¬ ∀ (lowerCase upperCase : Text → Text) (settings : Settings)
    (now now' : ℤ) (username : Text) (entry : Entry), Lowers lowerCase → Raises upperCase →
    0 < now → 0 < now' → normalizeUsername lowerCase username ≠ [] →
    Recovered lowerCase entry (parseLdapOutput lowerCase upperCase settings now now'
      (ldapsearchOutput entry.attributes) username) := by
  intro hall
  have hrecovered := hall lower (List.map Char.toUpper) noSettings 1 2 "anna".toList
    (entryOf "Анна".toList "anna@corp".toList [officeGroup "Бухгалтерия".toList (by decide)]
      (by decide +kernel) (by decide +kernel) (by decide +kernel)) lowers_lower ⟨fun _ _ => rfl⟩
    (by decide) (by decide) (by decide)
  exact absurd hrecovered.groups (by decide +kernel)

end Examples

end Auth

end AiAgent

import AiAgent.Auth.Identity
import AiAgent.Text.Fields

/-!
# Groups from the directory

At a password login the groups of a user are taken from what `ldapsearch` prints, by looking for
the `memberOf` fields in the text as a whole. A field is found wherever its name stands, so the
value of another attribute can hold one.

A line of the output is silent (`AiAgent.Auth.Silent`) if nothing in it is taken for a group. Where
all lines but the `memberOf` lines are silent, the groups are those of the `memberOf` lines; where
one may not be, there is an output in which it grants a group
(`AiAgent.Auth.onlyMemberOf_iff`), and a display name can make an administrator
(`AiAgent.Auth.not_onlyMemberOf_displayName`).
-/

namespace AiAgent

namespace Auth

open Text

/-! ### The parser -/

/-- `re.search(r"CN=([^,]+)", …)`. -/
def searchCommonName : Text → Option Text
  | [] => none
  | c :: t =>
    let name := ((c :: t).drop 3).takeWhile (· ≠ ',')
    if "CN=".toList.isPrefixOf (c :: t) ∧ name ≠ [] then some name else searchCommonName t

def memberOfName : Text := "memberOf".toList

/-- The groups of `_parse_ldap_output`, before they are normalized. -/
def ldapGroups (output : Text) : List Text :=
  (findFields memberOfName output 0).filterMap searchCommonName

section Parser

variable (lowerCase upperCase : Text → Text) (settings : Settings)

/-- `_build_fallback_identity`. The time of authentication is left open, and set to now. -/
def buildFallbackIdentity (now : ℤ) (username : Text) : Identity :=
  buildIdentityContract lowerCase upperCase settings now {
    username := username
    canonicalPrincipal := none
    displayName := none
    email := some (normalizeUsername lowerCase username ++ ('@' :: settings.ldapDomain))
    groups := []
    authSource := none
    authTime := none
    directoryCheckedAt := none
    identityVersion := none
    model := []
    modelDescription := []
    modelKey := [] } authSourcePassword 0

/-- `_parse_ldap_output`, which reads the clock twice. -/
def parseLdapOutput (now now' : ℤ) (output username : Text) : Identity :=
  let userInfo := buildFallbackIdentity lowerCase upperCase settings now username
  buildIdentityContract lowerCase upperCase settings now' {
    username := userInfo.username
    canonicalPrincipal := some userInfo.canonicalPrincipal
    displayName := some (((searchField "displayName".toList output).map strip).getD
      userInfo.displayName)
    email := some (((searchField "mail".toList output).map strip).getD userInfo.email)
    groups := ldapGroups output
    authSource := some userInfo.authSource
    authTime := some userInfo.authTime
    directoryCheckedAt := some userInfo.directoryCheckedAt
    identityVersion := some userInfo.identityVersion
    model := []
    modelDescription := []
    modelKey := [] } userInfo.authSource userInfo.authTime

end Parser

/-! ### What groups decide -/

/-- `user_is_admin`. -/
def userIsAdmin (lowerCase : Text → Text) (groups : List Text) : Bool :=
  (groups.map lowerCase).any fun group =>
    group ∈ ["domain admins".toList, "admins".toList, "administrators".toList, "ai-admins".toList,
      "ai-admin".toList] ||
    "-admins".toList.isSuffixOf group || "_admins".toList.isSuffixOf group

/-- A model of the registry. -/
structure RegistryModel where
  category : Text
  enabledForValidationUser : Bool

/-- What the access to models is decided by: the settings, and the catalogs that were loaded. -/
structure ModelPolicy where
  installTestUser : Text
  codingGroups : List Text
  adminGroups : List Text
  catalog : List Text
  registry : List RegistryModel

section Policy

variable (lowerCase : Text → Text) (policy : ModelPolicy)

/-- `is_validation_user`. -/
def isValidationUser (username : Text) : Bool :=
  let configuredValidationUser := normalizeUsername lowerCase policy.installTestUser
  configuredValidationUser ≠ [] ∧ normalizeUsername lowerCase username = configuredValidationUser

/-- `get_configured_model_access_groups_for_category`. -/
def getConfiguredModelAccessGroupsForCategory (categoryKey : Text) : List Text :=
  if categoryKey = "coding".toList then policy.codingGroups
  else if categoryKey = "admin".toList then policy.adminGroups
  else []

/-- `get_allowed_model_categories_for_user`. -/
def getAllowedModelCategoriesForUser (username : Text) (groups : List Text) : List Text :=
  if policy.catalog = [] then []
  else if isValidationUser lowerCase policy username then
    let validationCategories := (policy.registry.filter RegistryModel.enabledForValidationUser).map
      RegistryModel.category
    if validationCategories = [] then policy.catalog
    else policy.catalog.filter fun categoryKey => categoryKey ∈ validationCategories
  else
    policy.catalog.filter fun categoryKey =>
      categoryKey = "general".toList ∨
        (getConfiguredModelAccessGroupsForCategory policy categoryKey).any fun group =>
          group ∈ groups.map lowerCase

end Policy

/-! ### Outputs -/

/-- A line of an output, with the lines that continue it. A value that is encoded follows two
colons. -/
inductive LdapLine where
  | displayName (encoded : Bool) (value : Text)
  | mail (encoded : Bool) (value : Text)
  | memberOf (encoded : Bool) (value : Text)
  | other (text : Text)

def attributeLine (name : Text) (encoded : Bool) (value : Text) : Text :=
  name ++ ((if encoded then "::".toList else ":".toList) ++ (' ' :: value))

namespace LdapLine

/-- The line as it is printed. -/
def text : LdapLine → Text
  | displayName encoded value => attributeLine "displayName".toList encoded value
  | mail encoded value => attributeLine "mail".toList encoded value
  | memberOf encoded value => attributeLine memberOfName encoded value
  | other text => text

/-- The line is one logical line, and begins with a visible character. -/
def WellFormed (line : LdapLine) : Prop := IsLine line.text ∧ BeginsVisibly line.text

def IsMemberOf : LdapLine → Prop
  | memberOf _ _ => True
  | _ => False

/-- The lines are the same, or both are display names, or both are mail addresses. -/
def SameButValue : LdapLine → LdapLine → Prop
  | displayName _ _, displayName _ _ => True
  | mail _ _, mail _ _ => True
  | line, line' => line = line'

theorem sameButValue_refl (line : LdapLine) : line.SameButValue line := by
  cases line with
  | displayName encoded value => trivial
  | mail encoded value => trivial
  | memberOf encoded value => rfl
  | other text => rfl

end LdapLine

/-- The output with these lines. -/
def printed (lines : List LdapLine) : Text := join ['\n'] (lines.map LdapLine.text)

/-- The groups that a line grants. -/
def lineGroups (line : Text) : List Text :=
  ((searchField memberOfName line).bind searchCommonName).toList

/-- **A silent line**: nothing in it is taken for a group. -/
def Silent (line : LdapLine) : Prop := ∀ group ∈ lineGroups line.text, strip group = []

/-- **The groups of an output are those of its lines.** -/
theorem ldapGroups_printed {lines : List LdapLine} (h : ∀ line ∈ lines, line.WellFormed) :
    ldapGroups (printed lines) = lines.flatMap fun line => lineGroups line.text := by
  have hname : '\n' ∉ memberOfName := by decide
  rw [ldapGroups, printed, findFields_join hname, List.flatMap_map, List.filterMap_flatMap]
  · refine List.flatMap_congr fun line hline => ?_
    rw [findFields_line (h line hline).1, lineGroups]
    cases searchField memberOfName line.text with
    | none => rfl
    | some field =>
      show List.filterMap searchCommonName [field] = (searchCommonName field).toList
      cases hname : searchCommonName field with
      | none => simp [hname]
      | some name => simp [hname]
  · intro t ht
    obtain ⟨line, hline, rfl⟩ := List.mem_map.mp ht
    exact (h line hline).1
  · intro t ht
    obtain ⟨line, hline, rfl⟩ := List.mem_map.mp ht
    exact (h line hline).2

/-! ### What is left of the groups -/

section Groups

variable {lowerCase : Text → Text}

/-- The groups that are not blank. -/
def visibleGroups (groups : List Text) : List Text := groups.filter fun group => strip group ≠ []

/-- Blank groups are passed over. -/
theorem distinctGroups_visibleGroups (seen groups : List Text) :
    distinctGroups lowerCase seen (visibleGroups groups) =
      distinctGroups lowerCase seen groups := by
  induction groups generalizing seen with
  | nil => rfl
  | cons group groups ih =>
    rw [visibleGroups] at ih ⊢
    by_cases hblank : strip group = []
    · rw [List.filter_cons_of_neg (by simp [hblank]), ih, distinctGroups]
      simp [hblank]
    · rw [List.filter_cons_of_pos (by simp [hblank]), distinctGroups, distinctGroups]
      simp only [ih]

theorem mem_of_mem_distinctGroups {seen groups : List Text} {g : Text}
    (h : g ∈ distinctGroups lowerCase seen groups) : ∃ group ∈ visibleGroups groups,
      strip group = g := by
  rw [← distinctGroups_visibleGroups] at h
  generalize visibleGroups groups = visible at h
  induction visible generalizing seen with
  | nil => cases h
  | cons group visible ih =>
    rw [distinctGroups] at h
    by_cases hskip : strip group = [] ∨ lowerCase (strip group) ∈ seen
    · rw [if_pos hskip] at h
      obtain ⟨group', hmem, hg⟩ := ih h
      exact ⟨group', List.mem_cons_of_mem group hmem, hg⟩
    · rw [if_neg hskip] at h
      rcases List.mem_cons.mp h with rfl | h
      · exact ⟨group, List.mem_cons_self, rfl⟩
      · obtain ⟨group', hmem, hg⟩ := ih h
        exact ⟨group', List.mem_cons_of_mem group hmem, hg⟩

/-- Normalizing looks at the visible groups only. -/
theorem normalizeGroups_congr {groups groups' : List Text}
    (h : visibleGroups groups = visibleGroups groups') :
    normalizeGroups lowerCase groups = normalizeGroups lowerCase groups' := by
  rw [normalizeGroups, normalizeGroups, ← distinctGroups_visibleGroups, h,
    distinctGroups_visibleGroups]

/-- **Where a normalized group comes from**: a visible group, or there is none. -/
theorem mem_normalizeGroups {groups : List Text} {g : Text}
    (h : g ∈ normalizeGroups lowerCase groups) :
    (∃ group ∈ visibleGroups groups, strip group = g) ∨
      (visibleGroups groups = [] ∧ g = "domain_users".toList) := by
  rw [normalizeGroups] at h
  by_cases hnone : distinctGroups lowerCase [] groups = []
  · rw [if_pos hnone] at h
    right
    refine ⟨?_, List.mem_singleton.mp h⟩
    rw [← distinctGroups_visibleGroups] at hnone
    rcases hvisible : visibleGroups groups with _ | ⟨group, rest⟩
    · rfl
    · have hgroup : group ∈ visibleGroups groups := by
        rw [hvisible]
        exact List.mem_cons_self
      have hne := of_decide_eq_true (List.mem_filter.mp hgroup).2
      rw [hvisible, distinctGroups] at hnone
      simp [hne] at hnone
  · rw [if_neg hnone] at h
    exact .inl (mem_of_mem_distinctGroups h)

end Groups

/-! ### Only `memberOf` grants groups -/

/-- The groups that the `memberOf` lines name. -/
def grantedGroups (lines : List LdapLine) : List Text :=
  visibleGroups (lines.flatMap fun
    | .memberOf encoded value => lineGroups (attributeLine memberOfName encoded value)
    | _ => [])

/-- **Only `memberOf` grants groups**: of the identities read from these lines, and from others that
differ in the values of names and addresses, the groups are the same, and so is what they decide;
and every group is named by a `memberOf` line, unless none is and it is the group of all users. -/
structure OnlyMemberOf (lowerCase : Text → Text) (lines : List LdapLine)
    (identity identity' : Identity) : Prop where
  groups : identity.groups = identity'.groups
  categories : ∀ policy : ModelPolicy,
    getAllowedModelCategoriesForUser lowerCase policy identity.username identity.groups =
      getAllowedModelCategoriesForUser lowerCase policy identity'.username identity'.groups
  admin : userIsAdmin lowerCase identity.groups = userIsAdmin lowerCase identity'.groups
  named : ∀ g ∈ identity.groups,
    (∃ encoded value name, .memberOf encoded value ∈ lines ∧ searchCommonName value = some name ∧
      g = strip name) ∨ (grantedGroups lines = [] ∧ g = "domain_users".toList)

section Lines

variable {lowerCase upperCase : Text → Text} {settings : Settings} {lines lines' : List LdapLine}

theorem lineGroups_memberOf {encoded : Bool} {value : Text}
    (h : (LdapLine.memberOf encoded value).WellFormed) :
    lineGroups (attributeLine memberOfName encoded value) = (searchCommonName value).toList := by
  have hline : IsLine value := by
    have hdrop : value = (attributeLine memberOfName encoded value).drop
        (if encoded then 11 else 10) := by
      cases encoded with
      | false => rfl
      | true => rfl
    rw [hdrop]
    exact h.1.drop _
  have hfield : searchField memberOfName (attributeLine memberOfName encoded value) =
      some (paragraph value) := by
    cases encoded with
    | false => rfl
    | true => rfl
  rw [lineGroups, hfield, hline]
  rfl

/-- Where the other lines are silent, the `memberOf` lines name all groups. -/
theorem visibleGroups_ldapGroups (hlines : ∀ line ∈ lines, line.WellFormed)
    (hsilent : ∀ line ∈ lines, ¬ line.IsMemberOf → Silent line) :
    visibleGroups (ldapGroups (printed lines)) = grantedGroups lines := by
  rw [ldapGroups_printed hlines, grantedGroups, visibleGroups, visibleGroups, List.filter_flatMap,
    List.filter_flatMap]
  refine List.flatMap_congr fun line hline => ?_
  have hnone : ¬ line.IsMemberOf →
      (lineGroups line.text).filter (fun group => strip group ≠ []) = [] := by
    intro hother
    rw [List.filter_eq_nil_iff]
    intro group hgroup
    simpa using hsilent line hline hother group hgroup
  cases line with
  | memberOf encoded value => rfl
  | displayName encoded value => exact hnone not_false
  | mail encoded value => exact hnone not_false
  | other text => exact hnone not_false

/-- The `memberOf` lines of two outputs that differ in other values are the same. -/
theorem grantedGroups_congr (h : List.Forall₂ LdapLine.SameButValue lines lines') :
    grantedGroups lines = grantedGroups lines' := by
  refine congrArg visibleGroups ?_
  induction h with
  | nil => rfl
  | @cons line line' rest rest' hsame hrest ih =>
    rw [List.flatMap_cons, List.flatMap_cons, ih]
    refine congrArg (· ++ _) ?_
    cases line with
    | memberOf encoded value =>
      cases line' with
      | memberOf encoded' value' =>
        obtain ⟨rfl, rfl⟩ := LdapLine.memberOf.inj hsame
        rfl
      | displayName _ _ => cases hsame
      | mail _ _ => cases hsame
      | other _ => cases hsame
    | displayName encoded value =>
      cases line' with
      | displayName encoded' value' => rfl
      | memberOf _ _ => cases hsame
      | mail _ _ => cases hsame
      | other _ => cases hsame
    | mail encoded value =>
      cases line' with
      | mail encoded' value' => rfl
      | memberOf _ _ => cases hsame
      | displayName _ _ => cases hsame
      | other _ => cases hsame
    | other text =>
      cases line' with
      | other text' => rfl
      | memberOf _ _ => cases hsame
      | displayName _ _ => cases hsame
      | mail _ _ => cases hsame

/-- A granted group is the first common name of a `memberOf` line. -/
theorem exists_of_mem_grantedGroups (hlines : ∀ line ∈ lines, line.WellFormed) {group : Text}
    (h : group ∈ grantedGroups lines) : ∃ encoded value,
      .memberOf encoded value ∈ lines ∧ searchCommonName value = some group := by
  obtain ⟨line, hline, hgroup⟩ := List.mem_flatMap.mp (List.mem_of_mem_filter h)
  cases line with
  | memberOf encoded value =>
    dsimp only at hgroup
    rw [lineGroups_memberOf (hlines _ hline)] at hgroup
    exact ⟨encoded, value, hline, Option.mem_toList.mp hgroup⟩
  | displayName _ _ => cases hgroup
  | mail _ _ => cases hgroup
  | other _ => cases hgroup

theorem groups_parseLdapOutput (now now' : ℤ) (output username : Text) :
    (parseLdapOutput lowerCase upperCase settings now now' output username).groups =
      normalizeGroups lowerCase (ldapGroups output) := rfl

/-- **Where the other lines are silent, only `memberOf` grants groups.** -/
theorem onlyMemberOf_of_silent (hlines : ∀ line ∈ lines, line.WellFormed)
    (hlines' : ∀ line ∈ lines', line.WellFormed)
    (hsilent : ∀ line ∈ lines, ¬ line.IsMemberOf → Silent line)
    (hsilent' : ∀ line ∈ lines', ¬ line.IsMemberOf → Silent line)
    (hsame : List.Forall₂ LdapLine.SameButValue lines lines') (username : Text)
    (now₁ now₂ now₃ now₄ : ℤ) :
    OnlyMemberOf lowerCase lines
      (parseLdapOutput lowerCase upperCase settings now₁ now₂ (printed lines) username)
      (parseLdapOutput lowerCase upperCase settings now₃ now₄ (printed lines') username) := by
  have hgroups : (parseLdapOutput lowerCase upperCase settings now₁ now₂ (printed lines)
      username).groups = (parseLdapOutput lowerCase upperCase settings now₃ now₄ (printed lines')
        username).groups := by
    rw [groups_parseLdapOutput, groups_parseLdapOutput]
    refine normalizeGroups_congr ?_
    rw [visibleGroups_ldapGroups hlines hsilent, visibleGroups_ldapGroups hlines' hsilent',
      grantedGroups_congr hsame]
  refine ⟨hgroups, fun policy => ?_, ?_, fun g hg => ?_⟩
  · rw [hgroups]
    rfl
  · rw [hgroups]
  · rw [groups_parseLdapOutput] at hg
    rcases mem_normalizeGroups hg with ⟨group, hgroup, rfl⟩ | ⟨hnone, rfl⟩
    · rw [visibleGroups_ldapGroups hlines hsilent] at hgroup
      obtain ⟨encoded, value, hline, hname⟩ := exists_of_mem_grantedGroups hlines hgroup
      exact .inl ⟨encoded, value, group, hline, hname, rfl⟩
    · rw [visibleGroups_ldapGroups hlines hsilent] at hnone
      exact .inr ⟨hnone, rfl⟩

variable (upperCase settings) in
/-- **A line that is not silent grants a group** beside that of a `memberOf` line. -/
theorem exists_not_onlyMemberOf (hlower : Lowers lowerCase) {line : LdapLine}
    (hline : line.WellFormed) (hother : ¬ line.IsMemberOf) (hsilent : ¬ Silent line) :
    ∃ value, (LdapLine.memberOf false value).WellFormed ∧
      ¬ OnlyMemberOf lowerCase [.memberOf false value, line]
        (parseLdapOutput lowerCase upperCase settings 1 1
          (printed [.memberOf false value, line]) "u".toList)
        (parseLdapOutput lowerCase upperCase settings 1 1
          (printed [.memberOf false value, line]) "u".toList) := by
  rw [Silent] at hsilent
  push Not at hsilent
  obtain ⟨group, hgroup, hvisible⟩ := hsilent
  -- One of two names differs from that of the group also in lower case.
  obtain ⟨c, hc, hne⟩ : ∃ c ∈ ['a', 'b'], lowerCase [c] ≠ lowerCase (strip group) := by
    by_contra hall
    push Not at hall
    have hsame := (hall 'a' (by simp)).trans (hall 'b' (by simp)).symm
    rw [hlower.latin _ (by decide), hlower.latin _ (by decide)] at hsame
    exact absurd hsame (by decide)
  have hwell : (LdapLine.memberOf false ("CN=".toList ++ [c])).WellFormed := by
    rcases List.mem_pair.mp hc with rfl | rfl
    · exact ⟨by decide, 'm', _, rfl, by decide⟩
    · exact ⟨by decide, 'm', _, rfl, by decide⟩
  have hname : searchCommonName ("CN=".toList ++ [c]) = some [c] := by
    rcases List.mem_pair.mp hc with rfl | rfl
    · rfl
    · rfl
  have hstrip : strip [c] = [c] := by
    rcases List.mem_pair.mp hc with rfl | rfl
    · rfl
    · rfl
  refine ⟨"CN=".toList ++ [c], hwell, fun honly => ?_⟩
  have hlines : ∀ l ∈ [LdapLine.memberOf false ("CN=".toList ++ [c]), line], l.WellFormed := by
    intro l hl
    rcases List.mem_pair.mp hl with rfl | rfl
    · exact hwell
    · exact hline
  have hgroups : strip group ∈ (parseLdapOutput lowerCase upperCase settings 1 1
      (printed [.memberOf false ("CN=".toList ++ [c]), line]) "u".toList).groups := by
    have hfirst : lineGroups (LdapLine.memberOf false ("CN=".toList ++ [c])).text = [[c]] := by
      show lineGroups (attributeLine memberOfName false ("CN=".toList ++ [c])) = [[c]]
      rw [lineGroups_memberOf hwell, hname]
      rfl
    have hsecond : lineGroups line.text = [group] := by
      rw [lineGroups, Option.mem_toList] at hgroup
      rw [lineGroups, hgroup]
      rfl
    have hdistinct : distinctGroups lowerCase [] [[c], group] = [[c], strip group] := by
      simp [distinctGroups, hstrip, hvisible, hne.symm]
    rw [groups_parseLdapOutput, ldapGroups_printed hlines, List.flatMap_cons, List.flatMap_cons,
      List.flatMap_nil, hfirst, hsecond, List.append_nil, List.singleton_append, normalizeGroups,
      hdistinct]
    simp
  rcases honly.named _ hgroups with ⟨encoded, value, name, hmem, hfound, heq⟩ | ⟨hnone, -⟩
  · rcases List.mem_pair.mp hmem with hsame | hsame
    · obtain ⟨-, rfl⟩ := LdapLine.memberOf.inj hsame
      rw [hname] at hfound
      obtain rfl := Option.some.inj hfound
      rw [heq, hstrip] at hne
      exact hne rfl
    · rw [← hsame] at hother
      exact hother trivial
  · have hgranted : [c] ∈ grantedGroups [.memberOf false ("CN=".toList ++ [c]), line] := by
      refine List.mem_filter.mpr ⟨List.mem_append_left _ ?_, by simp [hstrip]⟩
      show [c] ∈ lineGroups (attributeLine memberOfName false ("CN=".toList ++ [c]))
      rw [lineGroups_memberOf hwell, hname]
      exact List.mem_singleton.mpr rfl
    rw [hnone] at hgranted
    cases hgranted

/-- The lines are well formed, and those that are not `memberOf` lines are among those that may
occur. -/
def Occur (may : LdapLine → Prop) (lines : List LdapLine) : Prop :=
  ∀ line ∈ lines, line.WellFormed ∧ (line.IsMemberOf ∨ may line)

/-- **Only `memberOf` grants groups, precisely if every other line that may occur is silent.** -/
theorem onlyMemberOf_iff (hlower : Lowers lowerCase) (may : LdapLine → Prop) :
    (∀ (lines lines' : List LdapLine), Occur may lines → Occur may lines' →
      List.Forall₂ LdapLine.SameButValue lines lines' → ∀ (username : Text)
      (now₁ now₂ now₃ now₄ : ℤ), OnlyMemberOf lowerCase lines
        (parseLdapOutput lowerCase upperCase settings now₁ now₂ (printed lines) username)
        (parseLdapOutput lowerCase upperCase settings now₃ now₄ (printed lines') username)) ↔
      ∀ line, may line → line.WellFormed → ¬ line.IsMemberOf → Silent line := by
  constructor
  · intro hall line hmay hline hother
    by_contra hsilent
    obtain ⟨value, hwell, hnot⟩ := exists_not_onlyMemberOf upperCase settings hlower hline
      hother hsilent
    have hoccur : Occur may [.memberOf false value, line] := by
      intro l hl
      rcases List.mem_pair.mp hl with rfl | rfl
      · exact ⟨hwell, .inl trivial⟩
      · exact ⟨hline, .inr hmay⟩
    refine hnot (hall _ _ hoccur hoccur ?_ _ _ _ _ _)
    exact List.forall₂_same.mpr fun l _ => LdapLine.sameButValue_refl l
  · intro hsilent lines lines' hoccur hoccur' hsame username now₁ now₂ now₃ now₄
    refine onlyMemberOf_of_silent (fun line h => (hoccur line h).1)
      (fun line h => (hoccur' line h).1) (fun line h hother => ?_) (fun line h hother => ?_) hsame
      username now₁ now₂ now₃ now₄
    · obtain ⟨hwell, hmay⟩ := hoccur line h
      exact hsilent line (hmay.resolve_left hother) hwell hother
    · obtain ⟨hwell, hmay⟩ := hoccur' line h
      exact hsilent line (hmay.resolve_left hother) hwell hother

end Lines

/-! ### Names that grant groups -/

/-- **A name is silent if its value is**: what may be taken for a group stands in the value. -/
theorem silent_displayName_iff (encoded : Bool) (value : Text) :
    Silent (.displayName encoded value) ↔ ∀ group ∈ lineGroups value, strip group = [] := by
  have hsame : lineGroups (LdapLine.displayName encoded value).text = lineGroups value := by
    cases encoded with
    | false => rfl
    | true => rfl
  rw [Silent, hsame]

/-- The output for a user with that display name, who is in one group. -/
def staffOutput (name : Text) : List LdapLine :=
  [.displayName false name, .memberOf false "CN=Staff,DC=corp".toList]

theorem occur_staffOutput (may : LdapLine → Prop) {name : Text}
    (hname : (LdapLine.displayName false name).WellFormed)
    (hmay : may (.displayName false name)) : Occur may (staffOutput name) := by
  intro line hline
  rcases List.mem_pair.mp hline with rfl | rfl
  · exact ⟨hname, .inr hmay⟩
  · exact ⟨⟨by decide +kernel, 'm', _, rfl, by decide⟩, .inl trivial⟩

/-- No settings. -/
def noSettings : Settings := ⟨[], [], [], false, [], [], false, false⟩

/-- Plain names grant nothing. -/
theorem onlyMemberOf_iff_staff :
    OnlyMemberOf lower (staffOutput "Anna".toList)
      (parseLdapOutput lower id noSettings 1 2 (printed (staffOutput "Anna".toList)) "anna".toList)
      (parseLdapOutput lower id noSettings 3 4 (printed (staffOutput "Eve".toList))
        "anna".toList) := by
  refine (onlyMemberOf_iff lowers_lower fun line => line = .displayName false "Anna".toList ∨
    line = .displayName false "Eve".toList).mpr ?_ _ _
      (occur_staffOutput _ ⟨by decide +kernel, 'd', _, rfl, by decide⟩ (.inl rfl))
      (occur_staffOutput _ ⟨by decide +kernel, 'd', _, rfl, by decide⟩ (.inr rfl))
      (.cons trivial (.cons rfl .nil)) _ _ _ _ _
  rintro line (rfl | rfl) - -
  · exact (silent_displayName_iff _ _).mpr (by decide +kernel)
  · exact (silent_displayName_iff _ _).mpr (by decide +kernel)

/-- **A display name makes an administrator**: its value holds a `memberOf` field. -/
theorem not_onlyMemberOf_displayName : ¬ ∀ (lowerCase upperCase : Text → Text) (settings : Settings)
    (lines lines' : List LdapLine), Lowers lowerCase → Occur (fun _ => True) lines →
    Occur (fun _ => True) lines' → List.Forall₂ LdapLine.SameButValue lines lines' →
    ∀ (username : Text) (now₁ now₂ now₃ now₄ : ℤ), OnlyMemberOf lowerCase lines
      (parseLdapOutput lowerCase upperCase settings now₁ now₂ (printed lines) username)
      (parseLdapOutput lowerCase upperCase settings now₃ now₄ (printed lines') username) := by
  intro hall
  have honly := hall lower id noSettings (staffOutput "Eve memberOf: CN=Domain Admins".toList)
    (staffOutput "Eve".toList) lowers_lower
    (occur_staffOutput _ ⟨by decide +kernel, 'd', _, rfl, by decide⟩ trivial)
    (occur_staffOutput _ ⟨by decide +kernel, 'd', _, rfl, by decide⟩ trivial)
    (.cons trivial (.cons rfl .nil)) "eve".toList 1 1 1 1
  exact absurd honly.admin (by decide +kernel)

end Auth

end AiAgent

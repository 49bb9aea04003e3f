import AiAgent.Auth.Refresh
import AiAgent.Text.Json

/-!
# The identity in the headers of the proxy

The single sign-on service resolves a Kerberos principal to an identity and writes it into headers;
the program reads an identity out of the headers that the proxy forwards. Both normalize what they
have, and both find nothing to normalize, since the identity was settled when it was resolved
(`AiAgent.Auth.settled_resolveSsoIdentity`). So only the headers matter: they are ASCII
(`AiAgent.Auth.isAscii_buildIdentityHeaders`), groups are escaped, and any other field that is not
ASCII is left empty.

A name or an address that is left empty is replaced. A principal that is left empty is refused, and
so is one with another name in it; the identity of any other principal arrives
(`AiAgent.Auth.forwarded_iff`). The principal is made of the name and the realm of the settings, so
a realm in ASCII without a backslash is enough.
-/

namespace AiAgent

namespace Auth

open Text

/-! ### The service -/

/-- All characters are ASCII. -/
def IsAscii (t : Text) : Prop := ∀ c ∈ t, c.toNat < 0x80

instance (t : Text) : Decidable (IsAscii t) := inferInstanceAs (Decidable (∀ c ∈ t, _))

/-- `_header_safe_value`. -/
def headerSafeValue (value : Option Text) : Text :=
  let candidate := strip (value.getD [])
  if candidate = [] then [] else if IsAscii candidate then candidate else []

/-- The headers that tell the identity. -/
structure IdentityHeaders where
  user : Text
  principal : Text
  email : Text
  groups : Text
  name : Option Text

/-- What the service needs to ask the directory, and what the directory answers. -/
structure ServiceLookup where
  servicePrincipal : Text
  keytabPath : Text
  /-- There is a file at that path. -/
  keytabExists : Bool
  /-- `get_service_ticket`. -/
  ticket : Bool
  /-- The output of `ldapsearch`, if it succeeds. -/
  output : Option Text

section Service

variable (lowerCase upperCase : Text → Text) (settings : Settings)

/-- `_build_identity_headers`. -/
def buildIdentityHeaders (now : ℤ) (userInfo : UserInfo) : IdentityHeaders :=
  let identity :=
    enrichIdentitySessionFields lowerCase upperCase settings now userInfo authSourceSso
  let displayName := headerSafeValue (some identity.displayName)
  { user := identity.username
    principal := headerSafeValue (some identity.canonicalPrincipal)
    email := headerSafeValue (some identity.email)
    groups := Json.dumpsCompact true identity.groups
    name := if displayName = [] then none else some displayName }

-- The times that the clock shows, one after the other.
variable (clock : ℕ → ℤ)

/-- A name with nothing else said. -/
def bareUserInfo (username : Text) : UserInfo where
  username := username
  canonicalPrincipal := none
  displayName := none
  email := none
  groups := []
  authSource := none
  authTime := none
  directoryCheckedAt := none
  identityVersion := none
  model := []
  modelDescription := []
  modelKey := []

/-- `resolve_identity_via_service_credentials`. -/
def resolveIdentityViaServiceCredentials (lookup : ServiceLookup) (username : Text) :
    Option Identity :=
  let normalized := normalizeUsername lowerCase username
  if normalized = [] ∨ strip lookup.servicePrincipal = [] ∨ strip lookup.keytabPath = [] then none
  else if lookup.keytabExists = false then none
  else if lookup.ticket = false then none
  else lookup.output.map fun output =>
    let userInfo :=
      parseLdapOutput lowerCase upperCase settings (clock 0) (clock 1) output normalized
    enrichIdentitySessionFields lowerCase upperCase settings (clock 2) userInfo.info authSourceSso

/-- `_resolve_sso_identity`; nothing is returned where it raises. -/
def resolveSsoIdentity (lookup : ServiceLookup) (principal : Text) : Option Identity :=
  let normalizedUsername := normalizeUsername lowerCase principal
  if normalizedUsername = [] then none
  else
    match resolveIdentityViaServiceCredentials lowerCase upperCase settings clock lookup
      normalizedUsername with
    | some resolvedIdentity =>
      some (enrichIdentitySessionFields lowerCase upperCase settings (clock 3)
        resolvedIdentity.info authSourceSso)
    | none =>
      let identity := buildIdentityContract lowerCase upperCase settings (clock 0)
        (bareUserInfo normalizedUsername) authSourceSso 0
      some (enrichIdentitySessionFields lowerCase upperCase settings (clock 1)
        identity.info authSourceSso)

end Service

/-! ### The program -/

/-- The items of a list as texts; what `str` makes of an item that is no text is left open. -/
def itemTexts (str : Json → Text) : Json → Option (List Text)
  | .arr items => some (items.map fun
    | .str s => s
    | item => str item)
  | _ => none

/-- `json.loads`, as far as `parse_trusted_proxy_groups_header` looks at what it gives. -/
def loadsTexts (str : Json → Text) (rawValue : Text) : Option (List Text) :=
  (Json.parse rawValue).bind (itemTexts str)

/-- The request that the proxy forwards with the headers, at the login page. -/
def forwarded (headers : IdentityHeaders) : ProxyRequest where
  ssoEnabled := true
  allowed := true
  user := some headers.user
  principal := some headers.principal
  name := headers.name
  email := some headers.email
  groups := some headers.groups

/-! ### What is resolved -/

section Resolved

variable {lowerCase upperCase : Text → Text} {settings : Settings} {clock : ℕ → ℤ}
  {lookup : ServiceLookup} {principal : Text} {i : Identity}

/-- **How an identity is resolved**: it is that of the directory or the one for a bare name, settled
before it was completed. -/
theorem resolveSsoIdentity_cases (hlower : Lowers lowerCase) (hraises : Raises upperCase)
    (hclock : ∀ n, 0 < clock n)
    (h : resolveSsoIdentity lowerCase upperCase settings clock lookup principal = some i) :
    Settled lowerCase i ∧ i.username = normalizeUsername lowerCase principal ∧
      i.canonicalPrincipal = strip (i.username ++ ('@' :: upperCase settings.kerberosRealm)) := by
  unfold resolveSsoIdentity at h
  dsimp only at h
  obtain ⟨hname, h⟩ := Option.ite_none_left_eq_some.mp h
  have husername := isUsername_normalizeUsername hname
  have hlow := lowered_normalizeUsername hlower _ hname
  have hself := normalizeUsername_self husername hlow
  have hagain : normalizeUsername lowerCase (normalizeUsername lowerCase principal) ≠ [] := by
    rwa [hself]
  have hprincipal : canonicalPrincipalForUsername lowerCase upperCase settings
      (normalizeUsername lowerCase principal) =
        normalizeUsername lowerCase principal ++ ('@' :: upperCase settings.kerberosRealm) := by
    rw [canonicalPrincipalForUsername, hself, if_neg hname]
  generalize normalizeUsername lowerCase principal = username at *
  have hne : username ++ ('@' :: upperCase settings.kerberosRealm) ≠ [] := by
    intro hnil
    exact hname (List.append_eq_nil_iff.mp hnil).1
  split at h
  · next found hfound =>
    unfold resolveIdentityViaServiceCredentials at hfound
    dsimp only at hfound
    rw [hself] at hfound
    obtain ⟨-, hfound⟩ := Option.ite_none_left_eq_some.mp hfound
    obtain ⟨-, hfound⟩ := Option.ite_none_left_eq_some.mp hfound
    obtain ⟨-, hfound⟩ := Option.ite_none_left_eq_some.mp hfound
    obtain ⟨output, -, rfl⟩ := Option.map_eq_some_iff.mp hfound
    obtain rfl := Option.some.inj h
    have hsettled : Settled lowerCase
        (parseLdapOutput lowerCase upperCase settings (clock 0) (clock 1) output username) :=
      settled_parseLdapOutput hlower hraises (hclock 0) (hclock 1) hagain output
    rw [hsettled.enrich hlower, hsettled.enrich hlower]
    have hfallback : Settled lowerCase
        (buildFallbackIdentity lowerCase upperCase settings (clock 0) username) :=
      settled_buildFallbackIdentity hlower hraises (hclock 0) hagain
    have hfirst : (buildFallbackIdentity lowerCase upperCase settings (clock 0)
        username).username = username := hself
    have hsecond : (buildFallbackIdentity lowerCase upperCase settings (clock 0)
        username).canonicalPrincipal =
          strip (username ++ ('@' :: upperCase settings.kerberosRealm)) := by
      rw [← hprincipal, buildFallbackIdentity, buildIdentityContract]
      dsimp only
      rw [orText_none, hself]
    have hthird : (parseLdapOutput lowerCase upperCase settings (clock 0) (clock 1) output
        username).username = username := by
      rw [parseLdapOutput, buildIdentityContract]
      dsimp only
      rw [hfirst, hself]
    refine ⟨hsettled, hthird, ?_⟩
    rw [hthird, ← hsecond, parseLdapOutput, buildIdentityContract]
    dsimp only
    rw [orText_some hfallback.canonicalPrincipal.ne_nil, hfallback.canonicalPrincipal.strip_eq]
  · obtain rfl := Option.some.inj h
    have hsettled : Settled lowerCase (buildIdentityContract lowerCase upperCase settings (clock 0)
        (bareUserInfo username) authSourceSso 0) := by
      refine settled_buildIdentityContract hlower hraises (hclock 0) ?_ ?_ ?_ ?_ _ _
      · exact hagain
      · exact isVisible_none
      · exact isVisible_none
      · exact isVisible_none
    rw [hsettled.enrich hlower]
    refine ⟨hsettled, hself, ?_⟩
    rw [buildIdentityContract]
    dsimp only [bareUserInfo]
    rw [orText_none, hself, hprincipal]

/-- **What is resolved is settled.** -/
theorem settled_resolveSsoIdentity (hlower : Lowers lowerCase) (hraises : Raises upperCase)
    (hclock : ∀ n, 0 < clock n)
    (h : resolveSsoIdentity lowerCase upperCase settings clock lookup principal = some i) :
    Settled lowerCase i :=
  (resolveSsoIdentity_cases hlower hraises hclock h).1

end Resolved

/-! ### What is written -/

section Written

variable {lowerCase upperCase : Text → Text} {settings : Settings} {i : Identity}

theorem headerSafeValue_of_isPlain {t : Text} (h : IsPlain t) :
    headerSafeValue (some t) = if IsAscii t then t else [] := by
  rw [headerSafeValue, Option.getD_some, h.strip_eq]
  exact if_neg h.ne_nil

theorem isAscii_headerSafeValue (value : Option Text) : IsAscii (headerSafeValue value) := by
  have hnil : IsAscii [] := fun c hc => absurd hc List.not_mem_nil
  rw [headerSafeValue]
  split
  · exact hnil
  · split
    · assumption
    · exact hnil

/-- **Every header is ASCII**, so it can be sent. -/
theorem isAscii_buildIdentityHeaders (now : ℤ) (userInfo : UserInfo) :
    let headers := buildIdentityHeaders lowerCase upperCase settings now userInfo
    IsAscii headers.user ∧ IsAscii headers.principal ∧ IsAscii headers.email ∧
      IsAscii headers.groups ∧ ∀ name ∈ headers.name, IsAscii name := by
  intro headers
  refine ⟨?_, isAscii_headerSafeValue _, isAscii_headerSafeValue _, fun c hc => ?_, ?_⟩
  · intro c hc
    have hname : Chat.IsUsername headers.user := by
      refine isUsername_normalizeUsername fun hnil => ?_
      have huser : headers.user = [] := hnil
      rw [huser] at hc
      cases hc
    have hchar := hname.2 c hc
    simp only [Chat.isUsernameChar, Bool.or_eq_true, Bool.and_eq_true, decide_eq_true_eq,
      beq_iff_eq] at hchar
    omega
  · have hprintable := (Json.printable_dumpsCompact _ c hc).2 rfl
    omega
  · intro name hname
    have hheader : headers.name = if headerSafeValue (some (enrichIdentitySessionFields lowerCase
        upperCase settings now userInfo authSourceSso).displayName) = [] then none
      else some (headerSafeValue (some (enrichIdentitySessionFields lowerCase
        upperCase settings now userInfo authSourceSso).displayName)) := rfl
    rw [hheader] at hname
    split at hname
    · cases hname
    · rw [← Option.some.inj hname]
      exact isAscii_headerSafeValue _

/-- **The headers of a settled identity.** -/
theorem Settled.buildIdentityHeaders_eq (h : Settled lowerCase i) (hlower : Lowers lowerCase)
    (now : ℤ) : buildIdentityHeaders lowerCase upperCase settings now i.info =
      { user := i.username
        principal := if IsAscii i.canonicalPrincipal then i.canonicalPrincipal else []
        email := if IsAscii i.email then i.email else []
        groups := Json.dumpsCompact true i.groups
        name := if IsAscii i.displayName then some i.displayName else none } := by
  rw [buildIdentityHeaders, h.enrich hlower]
  rw [headerSafeValue_of_isPlain h.canonicalPrincipal, headerSafeValue_of_isPlain h.email,
    headerSafeValue_of_isPlain h.displayName]
  congr 1
  by_cases hascii : IsAscii i.displayName
  · rw [if_pos hascii, if_pos hascii, if_neg h.displayName.ne_nil]
  · rw [if_neg hascii, if_neg hascii, if_pos rfl]

end Written

/-! ### What is read -/

section Read

variable {lowerCase upperCase : Text → Text} {settings : Settings} {i : Identity}

/-- The strings of a list are read as they were written. -/
theorem loadsTexts_dumpsCompact (str : Json → Text) (strings : List Text) :
    loadsTexts str (Json.dumpsCompact true strings) = some strings := by
  rw [loadsTexts, Json.parse_dumpsCompact, Option.bind_some, itemTexts, List.map_map]
  exact congrArg some (List.map_id _)

/-- Every group that is left after normalizing is plain. -/
theorem isPlain_of_mem_distinctGroups {seen groups : List Text} {g : Text}
    (h : g ∈ distinctGroups lowerCase seen groups) : IsPlain g := by
  obtain ⟨group, hgroup, rfl⟩ := mem_of_mem_distinctGroups h
  exact ⟨of_decide_eq_true (List.mem_filter.mp hgroup).2, strip_strip group⟩

theorem Settled.isPlain_of_mem (h : Settled lowerCase i) {g : Text} (hg : g ∈ i.groups) :
    IsPlain g := by
  rw [← h.groups, normalizeGroups] at hg
  split at hg
  · rw [List.mem_singleton.mp hg]
    exact ⟨by decide, by decide⟩
  · exact isPlain_of_mem_distinctGroups hg

/-- **Groups are read as they were written.** -/
theorem Settled.parseTrustedProxyGroupsHeader_eq (h : Settled lowerCase i) (str : Json → Text) :
    parseTrustedProxyGroupsHeader (loadsTexts str) (some (Json.dumpsCompact true i.groups)) =
      .ok i.groups := by
  have hne : (some (Json.dumpsCompact true i.groups)).getD [] ≠ [] := List.cons_ne_nil _ _
  have hstrip : i.groups.map strip = i.groups := by
    refine (List.map_congr_left fun g hg => ?_).trans (List.map_id _)
    exact (h.isPlain_of_mem hg).strip_eq
  have hfilter : i.groups.filter (fun candidate => candidate ≠ []) = i.groups := by
    refine List.filter_eq_self.mpr fun g hg => ?_
    exact decide_eq_true (h.isPlain_of_mem hg).ne_nil
  rw [parseTrustedProxyGroupsHeader, if_neg hne, Option.getD_some, loadsTexts_dumpsCompact]
  dsimp only
  rw [hstrip, hfilter]

/-- **A forwardable identity**: its principal can be written, and has its name in it. -/
def IsForwardable (lowerCase : Text → Text) (i : Identity) : Prop :=
  IsAscii i.canonicalPrincipal ∧ normalizeUsername lowerCase i.canonicalPrincipal = i.username

instance (i : Identity) : Decidable (IsForwardable lowerCase i) :=
  inferInstanceAs (Decidable (_ ∧ _))

/-- The identity as it arrives. -/
structure Arrives (i found : Identity) : Prop where
  authSource : found.authSource = authSourceSso
  username : found.username = i.username
  canonicalPrincipal : found.canonicalPrincipal = i.canonicalPrincipal
  groups : found.groups = i.groups
  displayName : IsAscii i.displayName → found.displayName = i.displayName
  email : IsAscii i.email → found.email = i.email

/-- **What is read of the headers of a settled identity**: nothing if it is not forwardable. -/
theorem Settled.arrives_iff (h : Settled lowerCase i) (hlower : Lowers lowerCase)
    (settings' : Settings) (str : Json → Text) (now now' : ℤ) :
    ((∃ found, buildTrustedProxySsoIdentity lowerCase upperCase settings' (loadsTexts str) now'
      (forwarded (buildIdentityHeaders lowerCase upperCase settings now i.info)) = .ok found) ↔
        IsForwardable lowerCase i) ∧
      ∀ found, buildTrustedProxySsoIdentity lowerCase upperCase settings' (loadsTexts str) now'
        (forwarded (buildIdentityHeaders lowerCase upperCase settings now i.info)) = .ok found →
          Arrives i found := by
  have hself := normalizeUsername_self h.username h.lowered
  have hsource : normalizeAuthSource lowerCase (some authSourceSso) = authSourceSso :=
    normalizeAuthSource_self hlower (by decide)
  rw [h.buildIdentityHeaders_eq hlower]
  generalize hrequest : forwarded _ = request
  have hsso : request.ssoEnabled = true := by rw [← hrequest]; rfl
  have hallowed : request.allowed = true := by rw [← hrequest]; rfl
  have huser : normalizeUsername lowerCase (request.user.getD []) = i.username := by
    rw [← hrequest]
    exact hself
  have hgroups : parseTrustedProxyGroupsHeader (loadsTexts str) request.groups = .ok i.groups := by
    rw [← hrequest]
    exact h.parseTrustedProxyGroupsHeader_eq str
  have hemail : IsAscii i.email → request.email = some i.email := by
    intro hascii
    rw [← hrequest]
    exact congrArg some (if_pos hascii)
  have hname : IsAscii i.displayName → request.name = some i.displayName := by
    intro hascii
    rw [← hrequest]
    exact if_pos hascii
  by_cases hascii : IsAscii i.canonicalPrincipal
  · have hprincipal : strip (request.principal.getD []) = i.canonicalPrincipal := by
      rw [← hrequest]
      refine Eq.trans ?_ h.canonicalPrincipal.strip_eq
      exact congrArg strip (if_pos hascii)
    have hthere : ¬(i.username = [] ∨ i.canonicalPrincipal = []) := by
      rintro (hnil | hnil)
      · exact h.username.1 hnil
      · exact h.canonicalPrincipal.ne_nil hnil
    rw [buildTrustedProxySsoIdentity, hsso, hallowed, huser, hprincipal, hgroups]
    rw [if_neg Bool.noConfusion, if_neg Bool.noConfusion, if_neg hthere]
    by_cases hsame : normalizeUsername lowerCase i.canonicalPrincipal = i.username
    · rw [if_neg (not_not.mpr hsame)]
      refine ⟨⟨fun _ => ⟨hascii, hsame⟩, fun _ => ⟨_, rfl⟩⟩, ?_⟩
      rintro found hfound
      obtain rfl := Except.ok.inj hfound
      dsimp only
      rw [enrichIdentitySessionFields, buildIdentityContract]
      constructor
      case authSource => exact hsource
      case username => exact hself
      case canonicalPrincipal =>
        dsimp only
        rw [orText_some h.canonicalPrincipal.ne_nil, h.canonicalPrincipal.strip_eq]
      case groups => exact h.groups
      case displayName =>
        intro hascii
        dsimp only
        rw [hself, if_neg h.username.1, hname hascii, orText_some h.displayName.ne_nil,
          h.displayName.strip_eq, orText_some h.displayName.ne_nil, h.displayName.strip_eq]
      case email =>
        intro hascii
        dsimp only
        rw [hself, if_neg h.username.1, hemail hascii, orText_some h.email.ne_nil,
          h.email.strip_eq, orText_some h.email.ne_nil, h.email.strip_eq]
    · rw [if_pos hsame]
      refine ⟨⟨?_, fun hforwardable => absurd hforwardable.2 hsame⟩, ?_⟩
      · rintro ⟨found, hfound⟩
        cases hfound
      · intro found hfound
        cases hfound
  · -- The header of the principal is empty, which is answered with an error.
    have hprincipal : strip (request.principal.getD []) = [] := by
      rw [← hrequest]
      refine Eq.trans ?_ strip_nil
      exact congrArg strip (if_neg hascii)
    rw [buildTrustedProxySsoIdentity, hsso, hallowed, huser, hprincipal]
    rw [if_neg Bool.noConfusion, if_neg Bool.noConfusion, if_pos (.inr rfl)]
    refine ⟨⟨?_, fun hforwardable => absurd hforwardable.1 hascii⟩, ?_⟩
    · rintro ⟨found, hfound⟩
      cases hfound
    · intro found hfound
      cases hfound

end Read

/-! ### From the ticket to the session -/

section Trip

variable {lowerCase upperCase : Text → Text} {settings : Settings} {clock : ℕ → ℤ}
  {lookup : ServiceLookup} {principal : Text} {i : Identity}

/-- White space is removed behind a visible character only. -/
theorem rstrip_append_cons {c : Char} (hc : isSpace c = false) (t u : Text) :
    rstrip (t ++ c :: u) = t ++ c :: rstrip u := by
  have hlast : (u.reverse ++ [c]).dropWhile isSpace = u.reverse.dropWhile isSpace ++ [c] := by
    rw [List.dropWhile_append]
    split
    · next hnil =>
      rw [List.isEmpty_iff.mp hnil, List.dropWhile_cons_of_neg (by rw [hc]; exact Bool.noConfusion)]
      rfl
    · rfl
  have hall : ((t ++ c :: u).reverse).dropWhile isSpace =
      u.reverse.dropWhile isSpace ++ ([c] ++ t.reverse) := by
    rw [List.reverse_append, List.reverse_cons, List.dropWhile_append, hlast,
      if_neg (by simp), List.append_assoc]
  rw [rstrip, List.rdropWhile, hall, List.reverse_append, List.reverse_append,
    List.reverse_reverse, List.append_assoc]
  rfl

/-- The name in a principal. -/
theorem normalizeUsername_principal {u realm : Text} (hu : Chat.IsUsername u)
    (hlow : lowerCase u = u) (hrealm : '\\' ∉ realm) :
    normalizeUsername lowerCase (strip (u ++ ('@' :: realm))) = u := by
  have hhead : lstrip (u ++ ('@' :: realm)) = u ++ ('@' :: realm) := by
    refine lstrip_of_head fun c hc => ?_
    obtain ⟨d, rest, rfl⟩ := List.exists_cons_of_ne_nil hu.1
    rw [← Option.some.inj hc]
    exact Chat.isSpace_eq_false_of_isUsernameChar (hu.2 d List.mem_cons_self)
  have hstrip : strip (u ++ ('@' :: realm)) = u ++ ('@' :: rstrip realm) := by
    rw [strip, hhead, rstrip_append_cons (by decide)]
  have hname : ∀ c, Chat.isUsernameChar c = false → c ∉ u := by
    intro c hc hmem
    rw [hu.2 c hmem] at hc
    exact Bool.noConfusion hc
  have hbackslash : '\\' ∉ u ++ ('@' :: rstrip realm) := by
    rw [List.mem_append, List.mem_cons]
    rintro (hmem | heq | hmem)
    · exact hname _ (by decide) hmem
    · exact absurd heq (by decide)
    · exact hrealm ((rstrip_isInit realm).subset hmem)
  have hat : splitOnce ['@'] (u ++ ('@' :: rstrip realm)) = some (u, rstrip realm) := by
    rw [splitOnce_append_of_notMem rfl (hname '@' (by decide))]
    show some (u ++ [], rstrip realm) = _
    rw [List.append_nil]
  rw [normalizeUsername, strip_strip, hstrip, splitOnce_of_notMem hbackslash]
  simp only [Option.map_none, Option.getD_none, hat, Option.map_some, Option.getD_some, hu.strip_eq,
    hlow, if_pos hu]

/-- **A realm in ASCII without a backslash** makes what is resolved forwardable. -/
theorem isForwardable_resolveSsoIdentity (hlower : Lowers lowerCase) (hraises : Raises upperCase)
    (hclock : ∀ n, 0 < clock n)
    (h : resolveSsoIdentity lowerCase upperCase settings clock lookup principal = some i)
    (hascii : IsAscii (upperCase settings.kerberosRealm))
    (hbackslash : '\\' ∉ upperCase settings.kerberosRealm) : IsForwardable lowerCase i := by
  obtain ⟨hsettled, -, hprincipal⟩ := resolveSsoIdentity_cases hlower hraises hclock h
  constructor
  · rw [hprincipal]
    intro c hc
    have hmem : c ∈ i.username ++ ('@' :: upperCase settings.kerberosRealm) :=
      (lstrip_suffix _).subset ((rstrip_isInit _).subset hc)
    rw [List.mem_append, List.mem_cons] at hmem
    rcases hmem with hmem | rfl | hmem
    · have hchar := hsettled.username.2 c hmem
      simp only [Chat.isUsernameChar, Bool.or_eq_true, Bool.and_eq_true, decide_eq_true_eq,
        beq_iff_eq] at hchar
      omega
    · decide
    · exact hascii c hmem
  · rw [hprincipal]
    exact normalizeUsername_principal hsettled.username hsettled.lowered hbackslash

/-- **The identity that was resolved arrives, precisely if its principal is ASCII and has its name
in it**; otherwise nobody is let in. A realm in ASCII without a backslash is enough for that. -/
theorem forwarded_iff (hlower : Lowers lowerCase) (hraises : Raises upperCase)
    (hclock : ∀ n, 0 < clock n)
    (h : resolveSsoIdentity lowerCase upperCase settings clock lookup principal = some i)
    (settings' : Settings) (str : Json → Text) (now now' : ℤ) :
    ((∃ found, buildTrustedProxySsoIdentity lowerCase upperCase settings' (loadsTexts str) now'
      (forwarded (buildIdentityHeaders lowerCase upperCase settings now i.info)) = .ok found) ↔
        IsForwardable lowerCase i) ∧
      (IsAscii (upperCase settings.kerberosRealm) → '\\' ∉ upperCase settings.kerberosRealm →
        IsForwardable lowerCase i) ∧
      ∀ found, buildTrustedProxySsoIdentity lowerCase upperCase settings' (loadsTexts str) now'
        (forwarded (buildIdentityHeaders lowerCase upperCase settings now i.info)) = .ok found →
          Arrives i found := by
  obtain ⟨hlet, harrives⟩ := (settled_resolveSsoIdentity hlower hraises hclock h).arrives_iff hlower
    settings' str now now'
  exact ⟨hlet, isForwardable_resolveSsoIdentity hlower hraises hclock h, harrives⟩

end Trip

/-! ### Two realms -/

section Realms

/-- The settings of a domain. -/
def domainSettings (realm : Text) : Settings :=
  { noSettings with
    kerberosRealm := realm
    ldapDomain := "corp".toList }

/-- The directory gives Anna a Cyrillic name and three groups; two of them differ in case. -/
def annaLookup : ServiceLookup where
  servicePrincipal := "HTTP/ai".toList
  keytabPath := "/k".toList
  keytabExists := true
  ticket := true
  output := some ("displayName: Анна\nmail: anna@corp\nmemberOf: CN=Отдел \"А\"\n" ++
    "memberOf: CN=Staff\nmemberOf: CN=STAFF").toList

def resolvedAnna (realm : Text) : Option Identity :=
  resolveSsoIdentity lower (List.map Char.toUpper) (domainSettings realm) (fun _ => 1) annaLookup
    "anna@corp".toList

/-- The realm is in ASCII and has no backslash, so Anna is let in, and her groups arrive. -/
theorem forwarded_iff_anna : ∃ i found, resolvedAnna "corp".toList = some i ∧
    buildTrustedProxySsoIdentity lower (List.map Char.toUpper) (domainSettings "corp".toList)
      (loadsTexts fun _ => []) 7 (forwarded (buildIdentityHeaders lower (List.map Char.toUpper)
        (domainSettings "corp".toList) 5 i.info)) = .ok found ∧
    found.groups = ["Отдел \"А\"".toList, "Staff".toList] := by
  obtain ⟨i, hi, hgroups⟩ : ∃ i, resolvedAnna "corp".toList = some i ∧
      i.groups = ["Отдел \"А\"".toList, "Staff".toList] := by
    refine ⟨(resolvedAnna "corp".toList).get (by decide +kernel), (Option.some_get _).symm, ?_⟩
    decide +kernel
  rw [resolvedAnna] at hi
  obtain ⟨hlet, hrealm, harrives⟩ := forwarded_iff lowers_lower ⟨fun _ _ => rfl⟩
    (fun _ => by decide) hi (domainSettings "corp".toList) (fun _ => []) 5 7
  obtain ⟨found, hfound⟩ := hlet.mpr (hrealm (by decide) (by decide))
  exact ⟨i, found, hi, hfound, (harrives found hfound).groups.trans hgroups⟩

/-- No control characters. -/
def HasNoControl (t : Text) : Prop := ∀ c ∈ t, 0x20 ≤ c.toNat ∧ ¬(0x7f ≤ c.toNat ∧ c.toNat < 0xa0)

instance (t : Text) : Decidable (HasNoControl t) := inferInstanceAs (Decidable (∀ c ∈ t, _))

/-- No control characters in any field. -/
def Identity.HasNoControl (i : Identity) : Prop :=
  Auth.HasNoControl i.username ∧ Auth.HasNoControl i.canonicalPrincipal ∧
    Auth.HasNoControl i.displayName ∧ Auth.HasNoControl i.email ∧
    ∀ group ∈ i.groups, Auth.HasNoControl group

instance (i : Identity) : Decidable i.HasNoControl := inferInstanceAs (Decidable (_ ∧ _))

/-- **In a Cyrillic realm nobody is let in**: the header of the principal is empty. -/
theorem not_forwarded_cyrillicRealm : ¬ ∀ (lowerCase upperCase : Text → Text) (settings : Settings)
    (clock : ℕ → ℤ) (lookup : ServiceLookup) (principal : Text) (i : Identity),
    Lowers lowerCase → Raises upperCase → (∀ n, 0 < clock n) →
    resolveSsoIdentity lowerCase upperCase settings clock lookup principal = some i →
    i.HasNoControl → ∀ (str : Json → Text) (now now' : ℤ),
      ∃ found, buildTrustedProxySsoIdentity lowerCase upperCase settings (loadsTexts str) now'
        (forwarded (buildIdentityHeaders lowerCase upperCase settings now i.info)) = .ok found ∧
          Arrives i found := by
  intro hall
  obtain ⟨i, hi, hcontrol, hrefused⟩ : ∃ i, resolvedAnna "РФ".toList = some i ∧ i.HasNoControl ∧
      (buildTrustedProxySsoIdentity lower (List.map Char.toUpper) (domainSettings "РФ".toList)
        (loadsTexts fun _ => []) 7 (forwarded (buildIdentityHeaders lower (List.map Char.toUpper)
          (domainSettings "РФ".toList) 5 i.info))).toOption = none := by
    refine ⟨(resolvedAnna "РФ".toList).get (by decide +kernel), (Option.some_get _).symm, ?_⟩
    decide +kernel
  obtain ⟨found, hfound, -⟩ := hall lower (List.map Char.toUpper) (domainSettings "РФ".toList)
    (fun _ => 1) annaLookup "anna@corp".toList i lowers_lower ⟨fun _ _ => rfl⟩
    (fun _ => by decide) hi hcontrol (fun _ => []) 5 7
  rw [hfound] at hrefused
  cases hrefused

end Realms

end Auth

end AiAgent

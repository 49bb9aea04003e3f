import AiAgent.Auth.Directory
import AiAgent.Auth.Token

/-!
# Identities along a session

An identity that was once normalized is settled (`AiAgent.Auth.Settled`): normalizing it again, at
whatever time, gives it back (`AiAgent.Auth.Settled.enrich`), so that none of the defaults comes in
a second time. What a login produces is settled, and tokens are written and read without loss, so
every round of refreshing hands on the identity that the login began with
(`AiAgent.Auth.preserved_of_issued`).
-/

namespace AiAgent

namespace Auth

open Text

/-! ### Settled identities -/

/-- A text that is there, without blanks around it. -/
structure IsPlain (t : Text) : Prop where
  ne_nil : t ≠ []
  strip_eq : strip t = t

section Settled

variable {lowerCase upperCase : Text → Text} {settings : Settings} {i : Identity} {now : ℤ}

variable (lowerCase) in
/-- An identity that has nothing left to normalize. -/
structure Settled (i : Identity) : Prop where
  username : Chat.IsUsername i.username
  lowered : lowerCase i.username = i.username
  canonicalPrincipal : IsPlain i.canonicalPrincipal
  displayName : IsPlain i.displayName
  email : IsPlain i.email
  groups : normalizeGroups lowerCase i.groups = i.groups
  authSource : i.authSource ∈ [authSourcePassword, authSourceSso, authSourceLocalAdmin]
  authTime : 0 < i.authTime
  directoryCheckedAt : 0 < i.directoryCheckedAt
  identityVersion : 0 < i.identityVersion

theorem orText_some {t u : Text} (h : t ≠ []) : orText (some t) u = t := if_neg h

theorem coerceIdentityTimestamp_pos {value : Option ℤ} {fallback : ℤ} (h : 0 < fallback) :
    0 < coerceIdentityTimestamp value fallback := by
  rcases value with _ | candidate
  · exact h
  · rw [coerceIdentityTimestamp]
    split
    · assumption
    · exact h

theorem coerceIdentityTimestamp_some {candidate : ℤ} (h : 0 < candidate) (fallback : ℤ) :
    coerceIdentityTimestamp (some candidate) fallback = candidate := if_pos h

theorem splitOnce_of_notMem {c : Char} {t : Text} (h : c ∉ t) : splitOnce [c] t = none := by
  have hsep : List.head? [c] = some c := rfl
  have happend := splitOnce_append_of_notMem hsep h []
  rwa [List.append_nil] at happend

/-- **A normalized name is not changed.** -/
theorem normalizeUsername_self {u : Text} (hu : Chat.IsUsername u) (hlow : lowerCase u = u) :
    normalizeUsername lowerCase u = u := by
  have hbackslash : '\\' ∉ u := fun hmem => absurd (hu.2 _ hmem) (by decide)
  have hat : '@' ∉ u := fun hmem => absurd (hu.2 _ hmem) (by decide)
  simp only [normalizeUsername, hu.strip_eq, splitOnce_of_notMem hbackslash,
    splitOnce_of_notMem hat, Option.map_none, Option.getD_none, hlow, if_pos hu]

/-- What `normalize_username` lets through is in lower case. -/
theorem lowered_normalizeUsername (hlower : Lowers lowerCase) (raw : Text)
    (h : normalizeUsername lowerCase raw ≠ []) :
    lowerCase (normalizeUsername lowerCase raw) = normalizeUsername lowerCase raw := by
  unfold normalizeUsername at h ⊢
  dsimp only at h ⊢
  split at h
  · next hname => rw [if_pos hname, hlower.again]
  · exact absurd rfl h

/-- The names of the sources are not changed. -/
theorem normalizeAuthSource_self (hlower : Lowers lowerCase) {source : Text}
    (h : source ∈ [authSourcePassword, authSourceSso, authSourceLocalAdmin]) :
    normalizeAuthSource lowerCase (some source) = source := by
  have hlow : lowerCase (strip source) = source := by
    have hsame : strip source = source ∧ (∀ c ∈ source, Chat.isUsernameChar c = true) ∧
        source.map Char.toLower = source := by
      revert h
      simp only [List.mem_cons, List.not_mem_nil, or_false]
      rintro (rfl | rfl | rfl)
      · decide
      · decide
      · decide
    rw [hsame.1, hlower.latin _ hsame.2.1, hsame.2.2]
  rw [normalizeAuthSource, Option.getD_some, hlow, if_pos h]

theorem normalizeAuthSource_mem (source : Option Text) : normalizeAuthSource lowerCase source ∈
    [authSourcePassword, authSourceSso, authSourceLocalAdmin] := by
  rw [normalizeAuthSource]
  split
  · assumption
  · exact List.mem_cons_self

/-- **Groups that were made distinct are distinct.** -/
theorem distinctGroups_distinctGroups (seen groups : List Text) :
    distinctGroups lowerCase seen (distinctGroups lowerCase seen groups) =
      distinctGroups lowerCase seen groups := by
  induction groups generalizing seen with
  | nil => rfl
  | cons group groups ih =>
    rw [distinctGroups]
    by_cases hskip : strip group = [] ∨ lowerCase (strip group) ∈ seen
    · rw [if_pos hskip, ih]
    · rw [if_neg hskip, distinctGroups, strip_strip, if_neg hskip, ih]

theorem normalizeGroups_normalizeGroups (groups : List Text) :
    normalizeGroups lowerCase (normalizeGroups lowerCase groups) =
      normalizeGroups lowerCase groups := by
  by_cases hnone : distinctGroups lowerCase [] groups = []
  · have hdefault : normalizeGroups lowerCase groups = ["domain_users".toList] := if_pos hnone
    have hstrip : strip "domain_users".toList = "domain_users".toList := by decide
    rw [hdefault, normalizeGroups, distinctGroups, hstrip, if_neg (by simp)]
    rfl
  · have hsome : normalizeGroups lowerCase groups = distinctGroups lowerCase [] groups :=
      if_neg hnone
    rw [hsome, normalizeGroups, distinctGroups_distinctGroups]
    exact if_neg hnone

/-- **What is settled is given back**, at any time and with any source to fall back on. -/
theorem Settled.enrich (h : Settled lowerCase i) (hlower : Lowers lowerCase) (now : ℤ)
    (authSource : Text) :
    enrichIdentitySessionFields lowerCase upperCase settings now i.info authSource = i := by
  have hsource : i.authSource ≠ [] := by
    intro hnil
    have hmem := h.authSource
    rw [hnil] at hmem
    revert hmem
    decide
  have htime := coerceIdentityTimestamp_some h.authTime now
  have hname := normalizeUsername_self h.username h.lowered
  rw [enrichIdentitySessionFields, buildIdentityContract]
  dsimp only [Identity.info]
  simp only [htime, hname, orText_some h.canonicalPrincipal.ne_nil,
    orText_some h.displayName.ne_nil, orText_some h.email.ne_nil, orText_some hsource,
    h.canonicalPrincipal.strip_eq, h.displayName.strip_eq, h.email.strip_eq, h.groups,
    normalizeAuthSource_self hlower h.authSource, coerceIdentityTimestamp_some h.directoryCheckedAt,
    coerceIdentityTimestamp_some h.identityVersion, if_neg h.username.1]

/-- A text that is absent, or empty, or not blank. -/
def IsVisible (t : Option Text) : Prop := t.getD [] ≠ [] → strip (t.getD []) ≠ []

theorem isVisible_none : IsVisible none := fun h => absurd rfl h

theorem isVisible_strip (t : Text) : IsVisible (some (strip t)) := fun h => by
  rwa [Option.getD_some, strip_strip]

theorem IsPlain.isVisible {t : Text} (h : IsPlain t) : IsVisible (some t) := fun hne => by
  rwa [Option.getD_some, h.strip_eq]

theorem IsVisible.isPlain {a : Option Text} {b : Text} (ha : IsVisible a) (hb : strip b ≠ []) :
    IsPlain (strip (orText a b)) := by
  refine ⟨?_, strip_strip _⟩
  rw [orText]
  split
  · exact hb
  · next hne => exact ha hne

/-- A name with something behind it. -/
theorem IsUsername.strip_append_ne_nil {u : Text} (h : Chat.IsUsername u) (t : Text) :
    strip (u ++ t) ≠ [] := by
  obtain ⟨c, rest, rfl⟩ := List.exists_cons_of_ne_nil h.1
  exact strip_ne_nil_of_head rfl
    (Chat.isSpace_eq_false_of_isUsernameChar (h.2 c List.mem_cons_self))

/-- A character of a name is one when it is raised. -/
theorem isUsernameChar_toUpper {c : Char} (h : Chat.isUsernameChar c = true) :
    Chat.isUsernameChar c.toUpper = true := by
  have hall : ∀ n < 128, Chat.isUsernameChar (Char.ofNat n) = true →
      Chat.isUsernameChar (Char.ofNat n).toUpper = true := by decide +kernel
  have hlt : c.toNat < 128 := by
    simp only [Chat.isUsernameChar, Bool.or_eq_true, Bool.and_eq_true, decide_eq_true_eq,
      beq_iff_eq] at h
    omega
  have hchar := hall c.toNat hlt
  rw [Char.ofNat_toNat] at hchar
  exact hchar h

/-- The name that is shown by default. -/
theorem strip_capitalize_ne_nil (hraises : Raises upperCase) {u : Text} (h : Chat.IsUsername u) :
    strip (capitalize lowerCase upperCase u) ≠ [] := by
  obtain ⟨c, rest, rfl⟩ := List.exists_cons_of_ne_nil h.1
  have hc := h.2 c List.mem_cons_self
  have hupper : upperCase [c] = [c.toUpper] := hraises.latin [c] (by simpa using hc)
  refine strip_ne_nil_of_head (c := c.toUpper) (by rw [capitalize, hupper]; rfl) ?_
  exact Chat.isSpace_eq_false_of_isUsernameChar (isUsernameChar_toUpper hc)

/-- **What is made of visible fields is settled**, whatever is absent. -/
theorem settled_buildIdentityContract (hlower : Lowers lowerCase) (hraises : Raises upperCase)
    {userInfo : UserInfo} (hnow : 0 < now)
    (huser : normalizeUsername lowerCase userInfo.username ≠ [])
    (hprincipal : IsVisible userInfo.canonicalPrincipal) (hname : IsVisible userInfo.displayName)
    (hemail : IsVisible userInfo.email) (authSource : Text) (authTime : ℤ) :
    Settled lowerCase
      (buildIdentityContract lowerCase upperCase settings now userInfo authSource authTime) := by
  have husername := isUsername_normalizeUsername huser
  have hlow := lowered_normalizeUsername hlower _ huser
  have htime : 0 < coerceIdentityTimestamp (some authTime) now := coerceIdentityTimestamp_pos hnow
  rw [buildIdentityContract]
  constructor
  case username => exact husername
  case lowered => exact hlow
  case canonicalPrincipal =>
    refine hprincipal.isPlain ?_
    rw [canonicalPrincipalForUsername, normalizeUsername_self husername hlow, if_neg huser]
    exact IsUsername.strip_append_ne_nil husername _
  case displayName =>
    dsimp only
    rw [if_neg huser]
    exact hname.isPlain (strip_capitalize_ne_nil hraises husername)
  case email =>
    dsimp only
    rw [if_neg huser]
    exact hemail.isPlain (IsUsername.strip_append_ne_nil husername _)
  case groups => exact normalizeGroups_normalizeGroups _
  case authSource => exact normalizeAuthSource_mem _
  case authTime => exact htime
  case directoryCheckedAt => exact coerceIdentityTimestamp_pos htime
  case identityVersion => exact coerceIdentityTimestamp_pos (by decide)

/-- What is called a model, of what the program knows of one. -/
structure ModelInfo where
  name : Text
  description : Text
  key : Text

/-- The identity, completed with a model. -/
def Identity.withModel (i : Identity) (model : ModelInfo) : Identity :=
  { i with
    model := model.name
    modelDescription := model.description
    modelKey := model.key }

theorem Settled.withModel (h : Settled lowerCase i) (model : ModelInfo) :
    Settled lowerCase (i.withModel model) :=
  ⟨h.username, h.lowered, h.canonicalPrincipal, h.displayName, h.email, h.groups, h.authSource,
    h.authTime, h.directoryCheckedAt, h.identityVersion⟩

end Settled

/-! ### Logins -/

/-- An error that a request is answered with. -/
structure HttpError where
  status : ℕ
  detail : Text
  deriving DecidableEq

/-- What the trusted proxy sends along; an absent header is `none`. -/
structure ProxyRequest where
  /-- `trusted_proxy_sso_enabled`. -/
  ssoEnabled : Bool
  /-- `request_allows_trusted_proxy_headers`. -/
  allowed : Bool
  user : Option Text
  principal : Option Text
  name : Option Text
  email : Option Text
  groups : Option Text

section Login

variable (lowerCase upperCase : Text → Text) (settings : Settings)

/-- `parse_trusted_proxy_groups_header`, where the reader of JSON gives the items of a list as
texts, and nothing for what is no list. -/
def parseTrustedProxyGroupsHeader (loads : Text → Option (List Text)) (rawValue : Option Text) :
    Except HttpError (List Text) :=
  if rawValue.getD [] = [] then .ok []
  else
    match loads (rawValue.getD []) with
    | none => .error ⟨400, "Invalid trusted proxy authentication headers".toList⟩
    | some payload => .ok ((payload.map strip).filter fun candidate => candidate ≠ [])

/-- `build_trusted_proxy_sso_identity`. -/
def buildTrustedProxySsoIdentity (loads : Text → Option (List Text)) (now : ℤ)
    (request : ProxyRequest) : Except HttpError Identity :=
  let username := normalizeUsername lowerCase (request.user.getD [])
  let canonicalPrincipal := strip (request.principal.getD [])
  if request.ssoEnabled = false then .error ⟨404, "SSO login is disabled".toList⟩
  else if request.allowed = false then .error ⟨400, "Unsupported authentication headers".toList⟩
  else if username = [] ∨ canonicalPrincipal = [] then
    .error ⟨401, "SSO identity is unavailable".toList⟩
  else if normalizeUsername lowerCase canonicalPrincipal ≠ username then
    .error ⟨401, "SSO identity is inconsistent".toList⟩
  else
    (parseTrustedProxyGroupsHeader loads request.groups).map fun groups =>
      enrichIdentitySessionFields lowerCase upperCase settings now {
        username := username
        canonicalPrincipal := some canonicalPrincipal
        displayName := some (strip (orText request.name username))
        email := some (strip (orText request.email (username ++ ('@' :: settings.ldapDomain))))
        groups := groups
        authSource := some authSourceSso
        authTime := none
        directoryCheckedAt := none
        identityVersion := none
        model := []
        modelDescription := []
        modelKey := [] } authSourceSso

/-- `authenticate`, with what Kerberos and the directory answer. -/
def authenticate (now now' : ℤ) (username password : Text) (ticket : Bool) (output : Option Text) :
    Option Identity :=
  let normalized := normalizeUsername lowerCase username
  if normalized = [] ∨ password = [] then none
  else if ticket = false then none
  else output.map fun output =>
    parseLdapOutput lowerCase upperCase settings now now' output normalized

/-- **The identities that a login produces**, when the clock shows a time after its zero. A password
login accepts valid names only. -/
inductive Produced : Identity → Prop
  | directory {now now' : ℤ} {username : Text} (hnow : 0 < now) (hnow' : 0 < now')
      (huser : normalizeUsername lowerCase username ≠ []) (output : Text) :
      Produced (parseLdapOutput lowerCase upperCase settings now now' output username)
  | fallback {now : ℤ} {username : Text} (hnow : 0 < now)
      (huser : normalizeUsername lowerCase username ≠ []) :
      Produced (buildFallbackIdentity lowerCase upperCase settings now username)
  | trustedProxy {now : ℤ} (hnow : 0 < now) {loads : Text → Option (List Text)}
      {request : ProxyRequest} {i : Identity}
      (h : buildTrustedProxySsoIdentity lowerCase upperCase settings loads now request = .ok i) :
      Produced i

variable {lowerCase upperCase settings} {i : Identity}

/-- A password login produces what it returns. -/
theorem produced_of_authenticate {now now' : ℤ} (hlower : Lowers lowerCase) (hnow : 0 < now)
    (hnow' : 0 < now') {username password : Text} {ticket : Bool} {output : Option Text}
    (h : authenticate lowerCase upperCase settings now now' username password ticket output =
      some i) : Produced lowerCase upperCase settings i := by
  unfold authenticate at h
  dsimp only at h
  obtain ⟨hvalid, h⟩ := Option.ite_none_left_eq_some.mp h
  push Not at hvalid
  obtain ⟨-, h⟩ := Option.ite_none_left_eq_some.mp h
  obtain ⟨text, -, rfl⟩ := Option.map_eq_some_iff.mp h
  refine .directory hnow hnow' ?_ text
  rw [normalizeUsername_self (isUsername_normalizeUsername hvalid.1)
    (lowered_normalizeUsername hlower _ hvalid.1)]
  exact hvalid.1

theorem settled_buildFallbackIdentity (hlower : Lowers lowerCase) (hraises : Raises upperCase)
    {now : ℤ} {username : Text} (hnow : 0 < now)
    (huser : normalizeUsername lowerCase username ≠ []) :
    Settled lowerCase (buildFallbackIdentity lowerCase upperCase settings now username) := by
  rw [buildFallbackIdentity]
  refine settled_buildIdentityContract hlower hraises hnow ?_ ?_ ?_ ?_ _ _
  · exact huser
  · exact isVisible_none
  · exact isVisible_none
  · intro _
    exact IsUsername.strip_append_ne_nil (isUsername_normalizeUsername huser) _

/-- What is read of the directory is settled. -/
theorem settled_parseLdapOutput (hlower : Lowers lowerCase) (hraises : Raises upperCase)
    {now now' : ℤ} {username : Text} (hnow : 0 < now) (hnow' : 0 < now')
    (huser : normalizeUsername lowerCase username ≠ []) (output : Text) :
    Settled lowerCase
      (parseLdapOutput lowerCase upperCase settings now now' output username) := by
  have hfallback : Settled lowerCase
      (buildFallbackIdentity lowerCase upperCase settings now username) :=
    settled_buildFallbackIdentity hlower hraises hnow huser
  refine settled_buildIdentityContract hlower hraises hnow' ?_
    hfallback.canonicalPrincipal.isVisible ?_ ?_ _ _
  · rw [normalizeUsername_self hfallback.username hfallback.lowered]
    exact huser
  · rcases searchField "displayName".toList output with _ | value
    · exact hfallback.displayName.isVisible
    · exact isVisible_strip value
  · rcases searchField "mail".toList output with _ | value
    · exact hfallback.email.isVisible
    · exact isVisible_strip value

/-- What the trusted proxy says is settled. -/
theorem settled_buildTrustedProxySsoIdentity (hlower : Lowers lowerCase)
    (hraises : Raises upperCase) {now : ℤ} (hnow : 0 < now) {loads : Text → Option (List Text)}
    {request : ProxyRequest}
    (h : buildTrustedProxySsoIdentity lowerCase upperCase settings loads now request = .ok i) :
    Settled lowerCase i := by
  unfold buildTrustedProxySsoIdentity at h
  dsimp only at h
  obtain ⟨-, h⟩ := Chat.passed_of_ok h
  obtain ⟨-, h⟩ := Chat.passed_of_ok h
  obtain ⟨hthere, h⟩ := Chat.passed_of_ok h
  push Not at hthere
  obtain ⟨-, h⟩ := Chat.passed_of_ok h
  rcases hgroups : parseTrustedProxyGroupsHeader loads request.groups with error | groups
  · rw [hgroups] at h
    cases h
  · rw [hgroups] at h
    obtain rfl := Except.ok.inj h
    refine settled_buildIdentityContract hlower hraises hnow ?_ (isVisible_strip _)
      (isVisible_strip _) (isVisible_strip _) _ _
    rw [normalizeUsername_self (isUsername_normalizeUsername hthere.1)
      (lowered_normalizeUsername hlower _ hthere.1)]
    exact hthere.1

/-- **What a login produces is settled.** -/
theorem Produced.settled (h : Produced lowerCase upperCase settings i) (hlower : Lowers lowerCase)
    (hraises : Raises upperCase) : Settled lowerCase i := by
  rcases h with ⟨hnow, hnow', huser, output⟩ | ⟨hnow, huser⟩ | ⟨hnow, h⟩
  · exact settled_parseLdapOutput hlower hraises hnow hnow' huser output
  · exact settled_buildFallbackIdentity hlower hraises hnow huser
  · exact settled_buildTrustedProxySsoIdentity hlower hraises hnow h

end Login

/-! ### Rounds of refreshing -/

/-- When the two tokens of a session are made, and with what identifiers. -/
structure Minting where
  accessBuiltAt : ℤ
  accessIssuedAt : ℤ
  accessLifetime : ℤ
  accessJti : Text
  refreshBuiltAt : ℤ
  refreshIssuedAt : ℤ
  refreshLifetime : ℤ
  refreshJti : Text

/-- The claims of the two tokens of a session. -/
structure TokenPair where
  access : Payload
  refresh : Payload

/-- What `/api/refresh` looks at. -/
structure RefreshRequest where
  /-- `enforce_csrf` does not raise. -/
  csrfValid : Bool
  refreshCookie : Option Text
  /-- The store is `none` if it is offline. -/
  store : Option AuthStore

section Rounds

variable (lowerCase upperCase : Text → Text) (settings : Settings)

/-- The two tokens that are made for a user. -/
def mintTokens (minting : Minting) (user : UserInfo) : TokenPair where
  access := createAccessToken
    (buildTokenPayload lowerCase upperCase settings minting.accessBuiltAt user accessTokenType)
    minting.accessIssuedAt minting.accessLifetime minting.accessJti
  refresh := createAccessToken
    (buildTokenPayload lowerCase upperCase settings minting.refreshBuiltAt user refreshTokenType)
    minting.refreshIssuedAt minting.refreshLifetime minting.refreshJti

/-- The tokens of `login`, for the identity that `authenticate` returned. -/
def login (now : ℤ) (minting : Minting) (found : Identity) (model : ModelInfo) : TokenPair :=
  let userInfo :=
    enrichIdentitySessionFields lowerCase upperCase settings now found.info authSourcePassword
  mintTokens lowerCase upperCase settings minting (userInfo.withModel model).info

/-- The tokens of `sso_login_entry`. -/
def ssoLoginEntry (minting : Minting) (userInfo : Identity) (model : ModelInfo) : TokenPair :=
  mintTokens lowerCase upperCase settings minting (userInfo.withModel model).info

variable (decode : ℤ → Text → Option Payload)

/-- `refresh_access_token`, which reads the clock when it decodes the token and again when it
builds the identity. That it revokes the old token is not part of what it answers. -/
def refreshAccessToken (now now' : ℤ) (minting : Minting) (request : RefreshRequest) :
    Except HttpError TokenPair :=
  if request.csrfValid = false then .error ⟨403, "CSRF validation failed".toList⟩
  else if request.refreshCookie.getD [] = [] then .error ⟨401, "No refresh token".toList⟩
  else
    match (extractBearerToken request.refreshCookie).bind (decode now) with
    | none => .error ⟨401, "Invalid refresh token".toList⟩
    | some payload =>
      if payload.type ≠ some refreshTokenType then .error ⟨401, "Invalid refresh token".toList⟩
      else
        match request.store with
        | none => .error ⟨503, "Сервис аутентификации временно недоступен.".toList⟩
        | some store =>
          if isTokenRevoked store payload then .error ⟨401, "Invalid refresh token".toList⟩
          else
            let currentUser :=
              identityOf lowerCase upperCase settings now' payload (payload.sub.getD [])
            if currentUser.username = [] then .error ⟨401, "Invalid refresh token".toList⟩
            else .ok (mintTokens lowerCase upperCase settings minting currentUser.info)

/-- **The pairs of tokens of a session** that began with an identity and a model: those of the
login, and those of each round of refreshing with the refresh token of a pair. -/
inductive Issued (i : Identity) (model : ModelInfo) : TokenPair → Prop
  | login (now : ℤ) (minting : Minting) :
      Issued i model (login lowerCase upperCase settings now minting i model)
  | ssoLogin (minting : Minting) :
      Issued i model (ssoLoginEntry lowerCase upperCase settings minting i model)
  | refresh {pair pair' : TokenPair} {now now' : ℤ} {minting : Minting} {request : RefreshRequest}
      {token : Text} (hpair : Issued i model pair) (hsigned : SignedAs decode token pair.refresh)
      (hcookie : request.refreshCookie = some token ∨
        request.refreshCookie = some (bearer ++ token))
      (h : refreshAccessToken lowerCase upperCase settings decode now now' minting request =
        .ok pair') : Issued i model pair'

/-- The claims tell who the user is. -/
structure Tells (payload : Payload) (i : Identity) : Prop where
  sub : payload.sub = some i.username
  canonicalPrincipal : payload.canonicalPrincipal = some i.canonicalPrincipal
  displayName : payload.displayName = some i.displayName
  email : payload.email = some i.email
  groups : payload.groups = some i.groups
  authSource : payload.authSource = some i.authSource
  authTime : payload.authTime = some i.authTime
  directoryCheckedAt : payload.directoryCheckedAt = some i.directoryCheckedAt
  identityVersion : payload.identityVersion = some i.identityVersion
  model : payload.model = some i.model
  modelDescription : payload.modelDescription = some i.modelDescription
  modelKey : payload.modelKey = some i.modelKey

variable {lowerCase upperCase settings decode} {i : Identity}

/-- The tokens of a settled identity tell it. -/
theorem tells_mintTokens (h : Settled lowerCase i) (hlower : Lowers lowerCase)
    (minting : Minting) : Tells (mintTokens lowerCase upperCase settings minting i.info).access i ∧
      Tells (mintTokens lowerCase upperCase settings minting i.info).refresh i := by
  have hbuilt : ∀ now tokenType, Tells
      (buildTokenPayload lowerCase upperCase settings now i.info tokenType) i := by
    intro now tokenType
    rw [buildTokenPayload, h.enrich hlower]
    constructor <;> rfl
  constructor
  · have hb := hbuilt minting.accessBuiltAt accessTokenType
    exact ⟨hb.1, hb.2, hb.3, hb.4, hb.5, hb.6, hb.7, hb.8, hb.9, hb.10, hb.11, hb.12⟩
  · have hb := hbuilt minting.refreshBuiltAt refreshTokenType
    exact ⟨hb.1, hb.2, hb.3, hb.4, hb.5, hb.6, hb.7, hb.8, hb.9, hb.10, hb.11, hb.12⟩

/-- **What claims tell is read out of them.** -/
theorem Tells.identityOf_eq {payload : Payload} (hp : Tells payload i) (h : Settled lowerCase i)
    (hlower : Lowers lowerCase) (now : ℤ) :
    identityOf lowerCase upperCase settings now payload i.username = i := by
  rw [identityOf, hp.canonicalPrincipal, hp.displayName, hp.email, hp.groups, hp.authSource,
    hp.authTime, hp.directoryCheckedAt, hp.identityVersion, hp.model, hp.modelDescription,
    hp.modelKey]
  exact h.enrich hlower now authSourcePassword

/-- **When `/api/refresh` answers with new tokens**: the cookie carries a live refresh token that
is not revoked and names somebody, for whom they are made. -/
theorem refreshAccessToken_eq_ok {pair : TokenPair} {payload : Payload} {now now' : ℤ}
    {minting : Minting} {request : RefreshRequest} {token : Text}
    (hcookie : request.refreshCookie = some token ∨
      request.refreshCookie = some (bearer ++ token)) (hsigned : SignedAs decode token payload) :
    refreshAccessToken lowerCase upperCase settings decode now now' minting request = .ok pair ↔
      request.csrfValid = true ∧ (∀ exp ∈ payload.exp, now ≤ exp) ∧
        payload.type = some refreshTokenType ∧
        (∃ store, request.store = some store ∧ isTokenRevoked store payload = false) ∧
        normalizeUsername lowerCase (payload.sub.getD []) ≠ [] ∧
        pair = mintTokens lowerCase upperCase settings minting
          (identityOf lowerCase upperCase settings now' payload (payload.sub.getD [])).info := by
  have hextract := extractBearerToken_of_cookie hcookie hsigned.ne_nil hsigned.noBlank
  have hgiven : request.refreshCookie.getD [] ≠ [] := by
    rcases hcookie with hc | hc
    · rw [hc]
      exact hsigned.ne_nil
    · rw [hc]
      exact List.cons_ne_nil _ _
  rw [refreshAccessToken, if_neg hgiven, hextract, Option.bind_some, hsigned.reads]
  -- The checks, one after the other, in the order of the handler.
  constructor
  · intro h
    obtain ⟨hcsrf, h⟩ := Chat.passed_of_ok h
    split at h
    · cases h
    next found hfound =>
    obtain ⟨hlive, hfound⟩ := Option.ite_none_right_eq_some.mp hfound
    obtain rfl := Option.some.inj hfound
    obtain ⟨htype, h⟩ := Chat.passed_of_ok h
    split at h
    · cases h
    next store hstore =>
    obtain ⟨hrevoked, h⟩ := Chat.passed_of_ok h
    obtain ⟨hname, h⟩ := Chat.passed_of_ok h
    exact ⟨Bool.eq_true_of_not_eq_false hcsrf, hlive, not_not.mp htype,
      ⟨store, hstore, Bool.eq_false_iff.mpr hrevoked⟩, hname, (Except.ok.inj h).symm⟩
  · rintro ⟨hcsrf, hlive, htype, ⟨store, hstore, hrevoked⟩, hname, rfl⟩
    rw [hcsrf, if_neg Bool.noConfusion, if_pos hlive, hstore]
    dsimp only
    rw [if_neg (not_not.mpr htype), hrevoked, if_neg Bool.false_ne_true]
    exact if_neg hname

/-- **One round** hands on what the token tells. -/
theorem Tells.of_refresh {pair' : TokenPair} {payload : Payload} {now now' : ℤ} {minting : Minting}
    {request : RefreshRequest} {token : Text} (hp : Tells payload i) (h : Settled lowerCase i)
    (hlower : Lowers lowerCase) (hsigned : SignedAs decode token payload)
    (hcookie : request.refreshCookie = some token ∨
      request.refreshCookie = some (bearer ++ token))
    (hround : refreshAccessToken lowerCase upperCase settings decode now now' minting request =
      .ok pair') : Tells pair'.access i ∧ Tells pair'.refresh i := by
  obtain ⟨-, -, -, -, -, rfl⟩ := (refreshAccessToken_eq_ok hcookie hsigned).mp hround
  rw [hp.sub, Option.getD_some, hp.identityOf_eq h hlower]
  exact tells_mintTokens h hlower minting

/-- **Whatever the session, its tokens tell the identity it began with.** -/
theorem Issued.tells {pair : TokenPair} {model : ModelInfo}
    (hissued : Issued lowerCase upperCase settings decode i model pair)
    (h : Settled lowerCase i) (hlower : Lowers lowerCase) :
    Tells pair.access (i.withModel model) ∧ Tells pair.refresh (i.withModel model) := by
  have hmodel := h.withModel model
  induction hissued with
  | login now minting =>
    rw [Auth.login, h.enrich hlower]
    exact tells_mintTokens hmodel hlower minting
  | ssoLogin minting => exact tells_mintTokens hmodel hlower minting
  | refresh hpair hsigned hcookie hround ih =>
    exact ih.2.of_refresh hmodel hlower hsigned hcookie hround

/-- An access token of a session is no refresh token. -/
theorem Issued.type_access {pair : TokenPair} {model : ModelInfo}
    (hissued : Issued lowerCase upperCase settings decode i model pair) :
    pair.access.type = some accessTokenType := by
  rcases hissued with ⟨now, minting⟩ | ⟨minting⟩ | ⟨hpair, hsigned, hcookie, hround⟩
  · rfl
  · rfl
  · obtain ⟨-, -, -, -, -, rfl⟩ := (refreshAccessToken_eq_ok hcookie hsigned).mp hround
    rfl

/-- **A session keeps its identity**: the tokens of the login and of all rounds tell it, and the
bearer of a live access token of any round, as long as it is not revoked, is taken for exactly this
user. -/
theorem preserved_of_issued (hlower : Lowers lowerCase) (hraises : Raises upperCase)
    {model : ModelInfo} {pair : TokenPair} (hproduced : Produced lowerCase upperCase settings i)
    (hissued : Issued lowerCase upperCase settings decode i model pair) :
    Tells pair.access (i.withModel model) ∧ Tells pair.refresh (i.withModel model) ∧
      ∀ (request : AuthRequest) (token : Text) (now : ℤ) (found : Identity),
        CarriesUserToken lowerCase request token → SignedAs decode token pair.access →
        (getCurrentUser lowerCase upperCase settings decode now request = some found ↔
          (∀ exp ∈ pair.access.exp, now ≤ exp) ∧
            (∃ store, request.store = some store ∧ isTokenRevoked store pair.access = false) ∧
            found = i.withModel model) := by
  have hsettled := hproduced.settled hlower hraises
  obtain ⟨haccess, hrefresh⟩ := hissued.tells hsettled hlower
  refine ⟨haccess, hrefresh, fun request token now found hcarries hsigned => ?_⟩
  have htype : pair.access.type ≠ some refreshTokenType := by
    rw [hissued.type_access]
    decide
  have hread : identityOf lowerCase upperCase settings now pair.access i.username =
      i.withModel model := haccess.identityOf_eq (hsettled.withModel model) hlower now
  rw [getCurrentUser_eq_some hcarries hsigned, and_iff_right htype, haccess.sub]
  refine and_congr_right fun _ => and_congr_right fun _ => ?_
  constructor
  · rintro ⟨username, husername, -, rfl⟩
    obtain rfl := Option.some.inj husername
    exact hread
  · rintro rfl
    exact ⟨_, rfl, hsettled.username.1, hread.symm⟩

end Rounds

/-! ### A login and a round -/

/-- What Anna is taken for where the directory has nothing to say of her. -/
def annaIdentity : Identity :=
  buildFallbackIdentity lower (List.map Char.toUpper) exampleSettings 10 "anna".toList

def exampleModel : ModelInfo := ⟨"m".toList, [], "m".toList⟩

def exampleMinting (issuedAt : ℤ) : Minting where
  accessBuiltAt := issuedAt
  accessIssuedAt := issuedAt
  accessLifetime := 900
  accessJti := "a".toList
  refreshBuiltAt := issuedAt
  refreshIssuedAt := issuedAt
  refreshLifetime := 604800
  refreshJti := "r".toList

def annaLogin : TokenPair :=
  login lower (List.map Char.toUpper) exampleSettings 10 (exampleMinting 10) annaIdentity
    exampleModel

/-- The reading of the refresh token of that login alone. -/
def annaDecode (now : ℤ) (token : Text) : Option Payload :=
  if token = "t".toList ∧ now ≤ 604810 then some annaLogin.refresh else none

def annaRefresh : RefreshRequest where
  csrfValid := true
  refreshCookie := some "Bearer t".toList
  store := some ⟨fun _ => false, none⟩

theorem signedAs_annaLogin : SignedAs annaDecode "t".toList annaLogin.refresh where
  reads := by
    intro now
    rw [annaDecode]
    refine if_congr ?_ rfl rfl
    have hexp : annaLogin.refresh.exp = some 604810 := rfl
    simp [hexp]
  ne_nil := by decide
  noBlank := by decide

/-- A round, two days later, tells the time of the login still. -/
theorem preserved_of_issued_anna : ∃ pair, refreshAccessToken lower (List.map Char.toUpper)
    exampleSettings annaDecode 172810 172811 (exampleMinting 172812) annaRefresh = .ok pair ∧
      pair.access.authTime = some 10 ∧
        Tells pair.refresh (annaIdentity.withModel exampleModel) := by
  obtain ⟨pair, hpair⟩ : ∃ pair, (refreshAccessToken lower (List.map Char.toUpper)
      exampleSettings annaDecode 172810 172811 (exampleMinting 172812) annaRefresh).toOption =
        some pair := Option.isSome_iff_exists.mp (by decide +kernel)
  have hround := Chat.eq_ok_of_toOption hpair
  have hpreserved := preserved_of_issued (i := annaIdentity) lowers_lower ⟨fun _ _ => rfl⟩
    (.fallback (by decide) (by decide))
    (.refresh (.login 10 (exampleMinting 10)) signedAs_annaLogin (.inr (by decide)) hround)
  exact ⟨pair, hround, hpreserved.1.authTime, hpreserved.2.1⟩

end Auth

end AiAgent

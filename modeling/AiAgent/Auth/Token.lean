import AiAgent.Auth.Identity

/-!
# Tokens

Three kinds of tokens are signed with one key: access and refresh tokens of users, and tokens of
the local administrator. Two functions check them. The one for the dashboard asks for the type of
its tokens; the one for the users refuses the type of the refresh tokens, and takes every other.

So the token of a local administrator is taken for that of a user
(`AiAgent.Auth.not_separated_localAdmin`), whenever it has not expired and is not revoked, and this
is the only confusion there is (`AiAgent.Auth.separated_iff`).

Signing is a relation between a token and its claims, and reading is a parameter: what was signed
is read as it was until it expires.
-/

namespace AiAgent

namespace Auth

open Text

/-- A text from which all occurrences of a word are removed; the number says how many characters
of an occurrence are still to be skipped. -/
def removeFrom (word : Text) : Text → ℕ → Text
  | [], _ => []
  | _ :: t, skip + 1 => removeFrom word t skip
  | c :: t, 0 =>
    if word.isPrefixOf (c :: t) then removeFrom word t (word.length - 1)
    else c :: removeFrom word t 0

def bearer : Text := "Bearer ".toList

/-- `extract_bearer_token`. -/
def extractBearerToken (rawToken : Option Text) : Option Text :=
  match rawToken with
  | none | some [] => none
  | some raw => if bearer.isPrefixOf raw then some (removeFrom bearer raw 0) else some raw

/-- A text without blanks contains no word with one. -/
theorem removeFrom_of_notMem {word t : Text} (hword : ' ' ∈ word) (ht : ' ' ∉ t) :
    removeFrom word t 0 = t := by
  induction t with
  | nil => rfl
  | cons c t ih =>
    have hnot : word.isPrefixOf (c :: t) = false := by
      rw [Bool.eq_false_iff]
      intro hinit
      exact ht ((List.isPrefixOf_iff_prefix.mp hinit).subset hword)
    rw [removeFrom, hnot, if_neg Bool.false_ne_true, ih fun h => ht (List.mem_cons_of_mem c h)]

theorem extractBearerToken_self {t : Text} (hne : t ≠ []) (ht : ' ' ∉ t) :
    extractBearerToken (some t) = some t := by
  have hbearer : bearer.isPrefixOf t = false := by
    rw [Bool.eq_false_iff]
    intro hinit
    exact ht ((List.isPrefixOf_iff_prefix.mp hinit).subset (by decide))
  cases t with
  | nil => exact absurd rfl hne
  | cons c t =>
    show (if bearer.isPrefixOf (c :: t) then _ else _) = _
    rw [hbearer, if_neg Bool.false_ne_true]

theorem extractBearerToken_bearer {t : Text} (ht : ' ' ∉ t) :
    extractBearerToken (some (bearer ++ t)) = some t := by
  show (if bearer.isPrefixOf (bearer ++ t) then some (removeFrom bearer (bearer ++ t) 0)
    else some (bearer ++ t)) = some t
  rw [if_pos (List.isPrefixOf_iff_prefix.mpr (List.prefix_append _ _))]
  show some (removeFrom bearer t 0) = some t
  rw [removeFrom_of_notMem (by decide) ht]

/-- A cookie with a token, or with a bearer token. -/
theorem extractBearerToken_of_cookie {cookie : Option Text} {t : Text}
    (h : cookie = some t ∨ cookie = some (bearer ++ t)) (hne : t ≠ []) (ht : ' ' ∉ t) :
    extractBearerToken cookie = some t := by
  rcases h with hcookie | hcookie
  · rw [hcookie, extractBearerToken_self hne ht]
  · rw [hcookie, extractBearerToken_bearer ht]

/-! ### What is signed -/

/-- The claims of a token; what is absent is `none`. -/
structure Payload where
  sub : Option Text
  canonicalPrincipal : Option Text
  displayName : Option Text
  email : Option Text
  groups : Option (List Text)
  model : Option Text
  modelDescription : Option Text
  modelKey : Option Text
  authSource : Option Text
  authTime : Option ℤ
  directoryCheckedAt : Option ℤ
  identityVersion : Option ℤ
  localAdmin : Option Bool
  dashboardOnly : Option Bool
  stateRevision : Option Text
  rotationRequired : Option Bool
  type : Option Text
  exp : Option ℤ
  iat : Option ℤ
  jti : Option Text
  deriving DecidableEq

def accessTokenType : Text := "access".toList

def refreshTokenType : Text := "refresh".toList

def localAdminAccessTokenType : Text := "local_admin_access".toList

section Tokens

variable (lowerCase upperCase : Text → Text) (settings : Settings)
  (digest envDigest : RevisionFields → Text)

/-- `build_token_payload`. -/
def buildTokenPayload (now : ℤ) (userInfo : UserInfo) (tokenType : Text) : Payload :=
  let identity := enrichIdentitySessionFields lowerCase upperCase settings now userInfo
    (userInfo.authSource.getD authSourcePassword)
  { sub := some identity.username
    canonicalPrincipal := some identity.canonicalPrincipal
    displayName := some identity.displayName
    email := some identity.email
    groups := some identity.groups
    model := some identity.model
    modelDescription := some identity.modelDescription
    modelKey := some identity.modelKey
    authSource := some identity.authSource
    authTime := some identity.authTime
    directoryCheckedAt := some identity.directoryCheckedAt
    identityVersion := some identity.identityVersion
    localAdmin := none
    dashboardOnly := none
    stateRevision := none
    rotationRequired := none
    type := some tokenType
    exp := none
    iat := none
    jti := none }

/-- `build_local_admin_access_token_payload`. -/
def buildLocalAdminAccessTokenPayload (state : LocalAdminState) : Payload :=
  let identity := buildLocalAdminIdentity lowerCase settings state
  { sub := some identity.username
    canonicalPrincipal := some identity.canonicalPrincipal
    displayName := some identity.displayName
    email := some identity.email
    groups := some identity.groups
    model := none
    modelDescription := none
    modelKey := none
    authSource := some authSourceLocalAdmin
    authTime := none
    directoryCheckedAt := none
    identityVersion := none
    localAdmin := some true
    dashboardOnly := some true
    stateRevision := some state.stateRevision
    rotationRequired := some state.rotationRequired
    type := some localAdminAccessTokenType
    exp := none
    iat := none
    jti := none }

/-- What `create_access_token` signs: the claims with the times and a new identifier. -/
def createAccessToken (data : Payload) (issuedAt lifetime : ℤ) (jti : Text) : Payload :=
  { data with exp := some (issuedAt + lifetime), iat := some issuedAt, jti := some jti }

/-- The kinds of tokens. -/
inductive TokenKind where
  | access
  | refresh
  | localAdmin
  deriving DecidableEq

/-- One token that the program issues: of a user, or of the local administrator in some state. Its
identifier is never empty. -/
structure Mint where
  kind : TokenKind
  userInfo : UserInfo
  state : LocalAdminState
  issuedAt : ℤ
  lifetime : ℤ
  jti : { jti : Text // jti ≠ [] }

/-- The claims of the token. -/
def Mint.payload (m : Mint) : Payload :=
  let data := match m.kind with
    | .access => buildTokenPayload lowerCase upperCase settings m.issuedAt m.userInfo
        accessTokenType
    | .refresh => buildTokenPayload lowerCase upperCase settings m.issuedAt m.userInfo
        refreshTokenType
    | .localAdmin => buildLocalAdminAccessTokenPayload lowerCase settings m.state
  createAccessToken data m.issuedAt m.lifetime m.jti.1

/-- The token may still be used. -/
def Mint.LiveAt (m : Mint) (now : ℤ) : Prop := now ≤ m.issuedAt + m.lifetime

/-- **A token that is signed** is read as its claims until it expires, is not empty and has no
blanks. -/
structure SignedAs (decode : ℤ → Text → Option Payload) (token : Text) (payload : Payload) :
    Prop where
  reads : ∀ now, decode now token =
    if ∀ exp ∈ payload.exp, now ≤ exp then some payload else none
  ne_nil : token ≠ []
  noBlank : ' ' ∉ token

/-! ### The checks -/

structure Credentials where
  scheme : Text
  credentials : Text

/-- The store of the revoked tokens, and of the state of the local administrator. -/
structure AuthStore where
  keyExists : Text → Bool
  adminState : Option StoredAdminState

/-- What a request brings along; the store is `none` if it is offline. -/
structure AuthRequest where
  accessCookie : Option Text
  localAdminCookie : Option Text
  credentials : Option Credentials
  store : Option AuthStore

def tokenRevocationKey (jti : Text) : Text := "auth:revoked:".toList ++ jti

/-- `is_token_revoked`. -/
def isTokenRevoked (store : AuthStore) (payload : Payload) : Bool :=
  match payload.jti with
  | none | some [] => true
  | some jti => store.keyExists (tokenRevocationKey jti)

/-- The token that `get_current_user` looks at. -/
def presentedToken (request : AuthRequest) : Option Text :=
  match extractBearerToken request.accessCookie with
  | some (c :: t) => some (c :: t)
  | _ =>
    match request.credentials with
    | none => none
    | some given =>
      if lowerCase given.scheme ≠ "bearer".toList then none
      else if given.credentials = [] then none
      else some given.credentials

def defaultModelOf (settings : Settings) : Text :=
  orText (some settings.defaultModel) "phi3:mini".toList

/-- The identity that `get_current_user` reads out of the claims. -/
def identityOf (now : ℤ) (payload : Payload) (username : Text) : Identity :=
  enrichIdentitySessionFields lowerCase upperCase settings now {
    username := username
    canonicalPrincipal := payload.canonicalPrincipal
    displayName := some (payload.displayName.getD username)
    email := some (payload.email.getD (username ++ ('@' :: settings.ldapDomain)))
    groups := payload.groups.getD []
    authSource := payload.authSource
    authTime := payload.authTime
    directoryCheckedAt := payload.directoryCheckedAt
    identityVersion := payload.identityVersion
    model := payload.model.getD (defaultModelOf settings)
    modelDescription := payload.modelDescription.getD "Модель по умолчанию".toList
    modelKey := payload.modelKey.getD (payload.model.getD (defaultModelOf settings)) }
    authSourcePassword

variable (decode : ℤ → Text → Option Payload)

/-- `get_current_user`. -/
def getCurrentUser (now : ℤ) (request : AuthRequest) : Option Identity := do
  let token ← presentedToken lowerCase request
  let payload ← decode now token
  if payload.type = some refreshTokenType then none
  else
    let store ← request.store
    if isTokenRevoked store payload then none
    else
      match payload.sub with
      | none | some [] => none
      | some username => some (identityOf lowerCase upperCase settings now payload username)

/-- `get_current_local_admin_session`. -/
def getCurrentLocalAdminSession (now : ℤ) (request : AuthRequest) : Option LocalAdminIdentity := do
  let token ← extractBearerToken request.localAdminCookie
  if token = [] then none
  else
    let payload ← decode now token
    if payload.type ≠ some localAdminAccessTokenType ∨ payload.localAdmin ≠ some true then none
    else
      let state ← loadLocalAdminState lowerCase settings digest envDigest
        (request.store.map AuthStore.adminState)
      if ¬ state.IsConfigured then none
      else
        let store ← request.store
        if isTokenRevoked store payload then none
        else if payload.sub ≠ some state.username then none
        else if payload.stateRevision ≠ some state.stateRevision then none
        else some (buildLocalAdminIdentity lowerCase settings state)

end Tokens

/-! ### What is taken for what -/

section Separation

variable {lowerCase upperCase : Text → Text} {settings : Settings}
  {digest envDigest : RevisionFields → Text} {decode : ℤ → Text → Option Payload}
  {request adminRequest : AuthRequest} {token : Text} {m : Mint} {now : ℤ}

variable (lowerCase) in
/-- The request carries the token in the cookie of the users, or, without such a cookie, as a
bearer. -/
def CarriesUserToken (request : AuthRequest) (token : Text) : Prop :=
  request.accessCookie = some token ∨ request.accessCookie = some (bearer ++ token) ∨
    ((∀ t, extractBearerToken request.accessCookie = some t → t = []) ∧
      ∃ scheme, lowerCase scheme = "bearer".toList ∧ request.credentials = some ⟨scheme, token⟩)

/-- The request carries the token in the cookie of the dashboard. -/
def CarriesAdminToken (request : AuthRequest) (token : Text) : Prop :=
  request.localAdminCookie = some token ∨ request.localAdminCookie = some (bearer ++ token)

theorem presentedToken_of_carries (hcarries : CarriesUserToken lowerCase request token)
    (hne : token ≠ []) (hblank : ' ' ∉ token) : presentedToken lowerCase request = some token := by
  obtain ⟨c, t, rfl⟩ := List.exists_cons_of_ne_nil hne
  rcases hcarries with hcookie | hcookie | ⟨hcookie, scheme, hscheme, hgiven⟩
  · rw [presentedToken, hcookie, extractBearerToken_self hne hblank]
  · rw [presentedToken, hcookie, extractBearerToken_bearer hblank]
  · rw [presentedToken]
    split
    · next c' t' hfound => exact absurd (hcookie _ hfound) (List.cons_ne_nil _ _)
    · rw [hgiven]
      show (if lowerCase scheme ≠ "bearer".toList then none else _) = _
      rw [if_neg (not_not.mpr hscheme), if_neg hne]

/-- The type that the token has. -/
theorem type_payload : (m.payload lowerCase upperCase settings).type =
    match m.kind with
    | .access => some accessTokenType
    | .refresh => some refreshTokenType
    | .localAdmin => some localAdminAccessTokenType := by
  rw [Mint.payload]
  cases m.kind with
  | access => rfl
  | refresh => rfl
  | localAdmin => rfl

/-- A token expires when its time is over. -/
theorem expires_payload : (∀ exp ∈ (m.payload lowerCase upperCase settings).exp, now ≤ exp) ↔
    m.LiveAt now := by
  have hexp : (m.payload lowerCase upperCase settings).exp = some (m.issuedAt + m.lifetime) := rfl
  rw [hexp, Mint.LiveAt]
  exact ⟨fun h => h _ rfl, fun h exp hmem => Option.some.inj hmem ▸ h⟩

variable (lowerCase upperCase settings decode) in
/-- Nobody is taken for a user but with an access token, and for the local administrator but with
a token of this one. -/
def Separated (now : ℤ) (request adminRequest : AuthRequest)
    (digest envDigest : RevisionFields → Text) (m : Mint) : Prop :=
  (∀ identity, getCurrentUser lowerCase upperCase settings decode now request = some identity →
      m.kind = .access) ∧
    ∀ identity, getCurrentLocalAdminSession lowerCase settings digest envDigest decode now
      adminRequest = some identity → m.kind = .localAdmin

/-- **Who is a user**: the bearer of a live token that is not of the refresh type, is not revoked,
and names somebody. -/
theorem getCurrentUser_eq_some {payload : Payload} {identity : Identity}
    (hcarries : CarriesUserToken lowerCase request token)
    (hsigned : SignedAs decode token payload) :
    getCurrentUser lowerCase upperCase settings decode now request = some identity ↔
      (∀ exp ∈ payload.exp, now ≤ exp) ∧ payload.type ≠ some refreshTokenType ∧
        (∃ store, request.store = some store ∧ isTokenRevoked store payload = false) ∧
        ∃ username, payload.sub = some username ∧ username ≠ [] ∧
          identity = identityOf lowerCase upperCase settings now payload username := by
  have hpresented := presentedToken_of_carries hcarries hsigned.ne_nil hsigned.noBlank
  rw [getCurrentUser, hpresented, Option.bind_eq_bind, Option.bind_some, hsigned.reads]
  by_cases hlive : ∀ exp ∈ payload.exp, now ≤ exp
  · rw [if_pos hlive, and_iff_right hlive, Option.bind_eq_bind, Option.bind_some]
    by_cases htype : payload.type = some refreshTokenType
    · rw [if_pos htype]
      exact iff_of_false (fun h => by cases h) fun h => h.1 htype
    · rw [if_neg htype, and_iff_right htype]
      -- Without a store to ask, nobody is let in.
      cases request.store with
      | none =>
        refine iff_of_false (fun h => by cases h) ?_
        rintro ⟨⟨store, hstore, -⟩, -⟩
        cases hstore
      | some store =>
        rw [Option.bind_eq_bind, Option.bind_some]
        cases hrevoked : isTokenRevoked store payload with
        | true =>
          rw [if_pos rfl]
          refine iff_of_false (fun h => by cases h) fun ⟨⟨store', hstore, hlive'⟩, _⟩ => ?_
          obtain rfl := Option.some.inj hstore
          rw [hrevoked] at hlive'
          cases hlive'
        | false =>
          rw [if_neg Bool.false_ne_true, and_iff_right ⟨store, rfl, hrevoked⟩]
          -- The subject may be missing, be empty, or be a name.
          split
          · next hsub =>
            rw [hsub]
            exact iff_of_false (fun h => by cases h) fun ⟨_, h, _⟩ => by cases h
          · next hsub =>
            rw [hsub]
            refine iff_of_false (fun h => by cases h) fun ⟨_, h, hne, _⟩ => hne ?_
            exact (Option.some.inj h).symm
          · next username hne hsub =>
            rw [hsub]
            constructor
            · intro h
              exact ⟨username, rfl, fun hnil => hne (by rw [hnil]), (Option.some.inj h).symm⟩
            · rintro ⟨username', husername, -, rfl⟩
              rw [Option.some.inj husername]
  · rw [if_neg hlive]
    exact iff_of_false (fun h => by cases h) fun h => hlive h.1

/-- **Who is the local administrator**: the bearer of a live token of the dashboard that is not
revoked and names the state as it is loaded. -/
theorem getCurrentLocalAdminSession_eq_some {payload : Payload} {identity : LocalAdminIdentity}
    (hcarries : CarriesAdminToken adminRequest token) (hsigned : SignedAs decode token payload) :
    getCurrentLocalAdminSession lowerCase settings digest envDigest decode now adminRequest =
      some identity ↔
      (∀ exp ∈ payload.exp, now ≤ exp) ∧
        (payload.type = some localAdminAccessTokenType ∧ payload.localAdmin = some true) ∧
        ∃ store state, adminRequest.store = some store ∧
          loadLocalAdminState lowerCase settings digest envDigest (some store.adminState) =
            some state ∧ state.IsConfigured ∧ isTokenRevoked store payload = false ∧
          payload.sub = some state.username ∧ payload.stateRevision = some state.stateRevision ∧
          identity = buildLocalAdminIdentity lowerCase settings state := by
  have hextract := extractBearerToken_of_cookie hcarries hsigned.ne_nil hsigned.noBlank
  rw [getCurrentLocalAdminSession, hextract, Option.bind_eq_bind, Option.bind_some,
    if_neg hsigned.ne_nil, hsigned.reads]
  by_cases hlive : ∀ exp ∈ payload.exp, now ≤ exp
  swap
  · rw [if_neg hlive]
    exact iff_of_false (fun h => by cases h) fun h => hlive h.1
  rw [if_pos hlive, and_iff_right hlive, Option.bind_eq_bind, Option.bind_some]
  by_cases htype : payload.type = some localAdminAccessTokenType ∧ payload.localAdmin = some true
  swap
  · rw [if_pos (not_and_or.mp htype)]
    exact iff_of_false (fun h => by cases h) fun h => htype h.1
  rw [if_neg fun h => h.elim (· htype.1) (· htype.2), and_iff_right htype]
  -- What is left is a chain of checks, and each of them has to be passed.
  constructor
  · intro h
    obtain ⟨state, hload, h⟩ := Option.bind_eq_some_iff.mp h
    obtain ⟨hconfigured, h⟩ := Option.ite_none_left_eq_some.mp h
    obtain ⟨store, hstore, h⟩ := Option.bind_eq_some_iff.mp h
    rw [hstore] at hload
    obtain ⟨hrevoked, h⟩ := Option.ite_none_left_eq_some.mp h
    obtain ⟨hsub, h⟩ := Option.ite_none_left_eq_some.mp h
    obtain ⟨hrevision, h⟩ := Option.ite_none_left_eq_some.mp h
    exact ⟨store, state, hstore, hload, not_not.mp hconfigured, Bool.eq_false_iff.mpr hrevoked,
      not_not.mp hsub, not_not.mp hrevision, (Option.some.inj h).symm⟩
  · rintro ⟨store, state, hstore, hload, hconfigured, hrevoked, hsub, hrevision, rfl⟩
    rw [hstore, Option.map_some, hload, Option.bind_eq_bind, Option.bind_some,
      if_neg (not_not.mpr hconfigured), Option.bind_eq_bind, Option.bind_some, hrevoked,
      if_neg Bool.false_ne_true, if_neg (not_not.mpr hsub), if_neg (not_not.mpr hrevision)]

/-- **Tokens are told apart, but for those of the local administrator**: whoever carries one that
is live and not revoked is taken for a user. -/
theorem separated_iff
    (hsigned : SignedAs decode token (m.payload lowerCase upperCase settings))
    (hcarries : CarriesUserToken lowerCase request token)
    (hadmin : CarriesAdminToken adminRequest token) :
    Separated lowerCase upperCase settings decode now request adminRequest digest envDigest m ↔
      ¬ (m.kind = .localAdmin ∧ m.LiveAt now ∧ ∃ store, request.store = some store ∧
        isTokenRevoked store (m.payload lowerCase upperCase settings) = false) := by
  have hsession : ∀ identity, getCurrentLocalAdminSession lowerCase settings digest envDigest
      decode now adminRequest = some identity → m.kind = .localAdmin := by
    intro identity h
    have htype := ((getCurrentLocalAdminSession_eq_some hadmin hsigned).mp h).2.1.1
    rw [type_payload] at htype
    cases hkind : m.kind with
    | localAdmin => rfl
    | access =>
      rw [hkind] at htype
      exact absurd htype (by decide)
    | refresh =>
      rw [hkind] at htype
      exact absurd htype (by decide)
  rw [Separated, and_iff_left hsession]
  constructor
  · rintro hseparated ⟨hkind, hlive, hstore⟩
    obtain ⟨username, hsub, hne⟩ : ∃ username,
        (m.payload lowerCase upperCase settings).sub = some username ∧ username ≠ [] := by
      rw [Mint.payload, hkind]
      exact ⟨_, rfl, username_buildLocalAdminIdentity_ne_nil lowerCase settings m.state⟩
    have haccess := hseparated _ ((getCurrentUser_eq_some hcarries hsigned).mpr
      ⟨expires_payload.mpr hlive, by rw [type_payload, hkind]; decide, hstore, username, hsub, hne,
        rfl⟩)
    rw [hkind] at haccess
    cases haccess
  · intro hnot identity h
    obtain ⟨hlive, htype, hstore, -⟩ := (getCurrentUser_eq_some hcarries hsigned).mp h
    rw [type_payload] at htype
    cases hkind : m.kind with
    | access => rfl
    | refresh =>
      rw [hkind] at htype
      exact absurd rfl htype
    | localAdmin => exact absurd ⟨hkind, expires_payload.mp hlive, hstore⟩ hnot

end Separation

/-! ### Two tokens -/

def exampleSettings : Settings where
  kerberosRealm := "CORP.LOCAL".toList
  ldapDomain := "corp.local".toList
  defaultModel := []
  localAdminEnabled := true
  localAdminUsername := "admin_ai".toList
  localAdminPasswordHash := "hash".toList
  localAdminForceRotate := false
  localAdminBootstrapRequired := false

/-- A token of the kind for a user, or for the administrator in the state of the environment. -/
def exampleMint (kind : TokenKind) : Mint where
  kind := kind
  userInfo := {
    username := "anna".toList
    canonicalPrincipal := none
    displayName := none
    email := none
    groups := []
    authSource := none
    authTime := none
    directoryCheckedAt := none
    identityVersion := none
    model := "m".toList
    modelDescription := []
    modelKey := "m".toList }
  state := localAdminEnvState lower exampleSettings (fun _ => "r".toList) fun _ => "e".toList
  issuedAt := 10
  lifetime := 900
  jti := ⟨"j".toList, by decide⟩

/-- The reading of that token alone. -/
def exampleDecode (kind : TokenKind) (now : ℤ) (token : Text) : Option Payload :=
  if token = "t".toList ∧ now ≤ 910 then
    some ((exampleMint kind).payload lower id exampleSettings)
  else none

/-- A request with the token in both cookies; nothing is revoked. -/
def exampleRequest : AuthRequest where
  accessCookie := some "Bearer t".toList
  localAdminCookie := some "t".toList
  credentials := none
  store := some ⟨fun _ => false, none⟩

theorem signedAs_example (kind : TokenKind) :
    SignedAs (exampleDecode kind) "t".toList
      ((exampleMint kind).payload lower id exampleSettings) where
  reads := by
    intro now
    rw [exampleDecode]
    refine if_congr ?_ rfl rfl
    rw [expires_payload, and_iff_right rfl]
    exact Iff.rfl
  ne_nil := by decide
  noBlank := by decide

theorem carriesUserToken_example : CarriesUserToken lower exampleRequest "t".toList :=
  .inr (.inl (by decide))

/-- An access token is taken for that of a user only. -/
theorem separated_iff_access : Separated lower id exampleSettings (exampleDecode .access) 20
    exampleRequest exampleRequest (fun _ => "r".toList) (fun _ => "e".toList)
    (exampleMint .access) :=
  (separated_iff (signedAs_example .access) carriesUserToken_example (.inl rfl)).mpr
    fun h => absurd h.1 (by decide)

/-- **A local administrator is taken for a user.** -/
theorem not_separated_localAdmin : ¬ ∀ (lowerCase upperCase : Text → Text) (settings : Settings)
    (digest envDigest : RevisionFields → Text) (decode : ℤ → Text → Option Payload) (token : Text)
    (m : Mint) (now : ℤ) (request adminRequest : AuthRequest),
    SignedAs decode token (m.payload lowerCase upperCase settings) →
    CarriesUserToken lowerCase request token → CarriesAdminToken adminRequest token →
    Separated lowerCase upperCase settings decode now request adminRequest digest envDigest m := by
  intro hall
  have hseparated := (hall lower id exampleSettings (fun _ => "r".toList) (fun _ => "e".toList)
    (exampleDecode .localAdmin) "t".toList (exampleMint .localAdmin) 20 exampleRequest
    exampleRequest (signedAs_example .localAdmin) carriesUserToken_example (.inl rfl)).1
  obtain ⟨identity, hidentity⟩ : ∃ identity, getCurrentUser lower id exampleSettings
      (exampleDecode .localAdmin) 20 exampleRequest = some identity :=
    Option.isSome_iff_exists.mp (by decide +kernel)
  exact absurd (hseparated identity hidentity) (by decide)

end Auth

end AiAgent

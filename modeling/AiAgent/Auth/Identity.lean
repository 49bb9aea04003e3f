import AiAgent.Chat.Coordinator
import AiAgent.Text.Search

/-!
# Identities

What is known of a user when a session begins, and the identity that is made of it; and the state
of the local administrator, which the environment sets and the store overrides.

Of a text of any script only what lowering and raising it do is left open: they are parameters.
-/

namespace AiAgent

namespace Auth

open Text

/-- `a or b` of Python, on texts. -/
def orText (a : Option Text) (b : Text) : Text := if a.getD [] = [] then b else a.getD []

@[simp] theorem orText_none (b : Text) : orText none b = b := rfl

theorem orText_ne_nil {a : Option Text} {b : Text} (h : b ≠ []) : orText a b ≠ [] := by
  rw [orText]
  by_cases ha : a.getD [] = []
  · rwa [if_pos ha]
  · rwa [if_neg ha]

/-- What is used of `str.lower`: it lowers the letters of a name one by one, and what is lowered
stays as it is. -/
structure Lowers (lowerCase : Text → Text) : Prop where
  latin : ∀ t : Text, (∀ c ∈ t, Chat.isUsernameChar c = true) → lowerCase t = t.map Char.toLower
  again : ∀ t : Text, lowerCase (lowerCase t) = lowerCase t

theorem lowers_lower : Lowers lower where
  latin := fun _ _ => rfl
  again := lower_lower

/-- What is used of `str.upper`: it raises the letters of a name one by one. -/
structure Raises (upperCase : Text → Text) : Prop where
  latin : ∀ t : Text, (∀ c ∈ t, Chat.isUsernameChar c = true) → upperCase t = t.map Char.toUpper

/-! ### Users -/

structure Settings where
  kerberosRealm : Text
  ldapDomain : Text
  defaultModel : Text
  localAdminEnabled : Bool
  localAdminUsername : Text
  localAdminPasswordHash : Text
  localAdminForceRotate : Bool
  localAdminBootstrapRequired : Bool

def authSourcePassword : Text := "password".toList

def authSourceSso : Text := "sso".toList

def authSourceLocalAdmin : Text := "local_admin".toList

def identityVersion : ℤ := 1

/-- What a session is made of. -/
structure UserInfo where
  username : Text
  canonicalPrincipal : Option Text
  displayName : Option Text
  email : Option Text
  groups : List Text
  authSource : Option Text
  authTime : Option ℤ
  directoryCheckedAt : Option ℤ
  identityVersion : Option ℤ
  model : Text
  modelDescription : Text
  modelKey : Text

/-- Who the user of a session is. -/
structure Identity where
  username : Text
  canonicalPrincipal : Text
  displayName : Text
  email : Text
  groups : List Text
  authSource : Text
  authTime : ℤ
  directoryCheckedAt : ℤ
  identityVersion : ℤ
  model : Text
  modelDescription : Text
  modelKey : Text
  deriving DecidableEq

/-- The identity as it is handed on. -/
def Identity.info (i : Identity) : UserInfo where
  username := i.username
  canonicalPrincipal := some i.canonicalPrincipal
  displayName := some i.displayName
  email := some i.email
  groups := i.groups
  authSource := some i.authSource
  authTime := some i.authTime
  directoryCheckedAt := some i.directoryCheckedAt
  identityVersion := some i.identityVersion
  model := i.model
  modelDescription := i.modelDescription
  modelKey := i.modelKey

section Identity

variable (lowerCase upperCase : Text → Text)

/-- `normalize_username`: what stands after the first backslash and before the first at sign, if
it is the name of a user. -/
def normalizeUsername (username : Text) : Text :=
  let stripped := strip username
  let withoutDomain := ((splitOnce ['\\'] stripped).map Prod.snd).getD stripped
  let withoutRealm := ((splitOnce ['@'] withoutDomain).map Prod.fst).getD withoutDomain
  let normalized := lowerCase (strip withoutRealm)
  if Chat.IsUsername normalized then normalized else []

variable {lowerCase} in
/-- What `normalize_username` lets through. -/
theorem isUsername_normalizeUsername {raw : Text} (h : normalizeUsername lowerCase raw ≠ []) :
    Chat.IsUsername (normalizeUsername lowerCase raw) := by
  unfold normalizeUsername at h ⊢
  dsimp only at h ⊢
  split at h
  · next hname => rwa [if_pos hname]
  · exact absurd rfl h

/-- `_coerce_identity_timestamp`. -/
def coerceIdentityTimestamp (value : Option ℤ) (fallback : ℤ) : ℤ :=
  match value with
  | some candidate => if 0 < candidate then candidate else fallback
  | none => fallback

/-- `normalize_auth_source`. -/
def normalizeAuthSource (value : Option Text) : Text :=
  let normalized := lowerCase (strip (value.getD []))
  if normalized ∈ [authSourcePassword, authSourceSso, authSourceLocalAdmin] then normalized
  else authSourcePassword

/-- The loop of `normalize_groups`: the first of the groups that are the same in lower case. -/
def distinctGroups (seen : List Text) : List Text → List Text
  | [] => []
  | group :: groups =>
    let candidate := strip group
    let key := lowerCase candidate
    if candidate = [] ∨ key ∈ seen then distinctGroups seen groups
    else candidate :: distinctGroups (key :: seen) groups

/-- `normalize_groups`. -/
def normalizeGroups (groups : List Text) : List Text :=
  let normalizedGroups := distinctGroups lowerCase [] groups
  if normalizedGroups = [] then ["domain_users".toList] else normalizedGroups

/-- `str.capitalize`. -/
def capitalize : Text → Text
  | [] => []
  | c :: t => upperCase [c] ++ lowerCase t

variable (settings : Settings)

/-- `canonical_principal_for_username`. -/
def canonicalPrincipalForUsername (username : Text) : Text :=
  let normalized := normalizeUsername lowerCase username
  if normalized = [] then [] else normalized ++ ('@' :: upperCase settings.kerberosRealm)

variable (now : ℤ)

/-- `build_identity_contract`, with the fields about the model that
`enrich_identity_session_fields` keeps. -/
def buildIdentityContract (userInfo : UserInfo) (authSource : Text) (authTime : ℤ) : Identity :=
  let normalized := normalizeUsername lowerCase userInfo.username
  let effectiveAuthTime := coerceIdentityTimestamp (some authTime) now
  { username := normalized
    canonicalPrincipal := strip (orText userInfo.canonicalPrincipal
      (canonicalPrincipalForUsername lowerCase upperCase settings normalized))
    displayName := if normalized = [] then []
      else strip (orText userInfo.displayName (capitalize lowerCase upperCase normalized))
    email := if normalized = [] then []
      else strip (orText userInfo.email (normalized ++ ('@' :: settings.ldapDomain)))
    groups := normalizeGroups lowerCase userInfo.groups
    authSource := normalizeAuthSource lowerCase (some authSource)
    authTime := effectiveAuthTime
    directoryCheckedAt := coerceIdentityTimestamp userInfo.directoryCheckedAt effectiveAuthTime
    identityVersion := coerceIdentityTimestamp userInfo.identityVersion identityVersion
    model := userInfo.model
    modelDescription := userInfo.modelDescription
    modelKey := userInfo.modelKey }

/-- `enrich_identity_session_fields`. -/
def enrichIdentitySessionFields (userInfo : UserInfo) (authSource : Text) : Identity :=
  buildIdentityContract lowerCase upperCase settings now userInfo
    (orText userInfo.authSource authSource) (coerceIdentityTimestamp userInfo.authTime now)

/-! ### The local administrator -/

/-- The state of the local administrator. -/
structure LocalAdminState where
  enabled : Bool
  username : Text
  passwordHash : Text
  forceRotate : Bool
  bootstrapRequired : Bool
  runtimeOverride : Bool
  baseEnvRevision : Text
  rotatedAt : ℕ
  stateRevision : Text

/-- The state as it was read from the store, with the fields it has. -/
structure StoredAdminState where
  enabled : Option Bool
  username : Option Text
  passwordHash : Option Text
  forceRotate : Option Bool
  bootstrapRequired : Option Bool
  runtimeOverride : Option Bool
  baseEnvRevision : Option Text
  rotatedAt : Option ℕ

/-- What a revision is taken of. -/
structure RevisionFields where
  baseEnvRevision : Text
  bootstrapRequired : Bool
  enabled : Bool
  forceRotate : Bool
  passwordHash : Text
  runtimeOverride : Bool
  username : Text

/-- `normalize_local_admin_password_hash_transport`, for a text: two dollar signs are one. -/
def singleDollars : Text → Text
  | '$' :: '$' :: t => '$' :: singleDollars t
  | c :: t => c :: singleDollars t
  | [] => []

def normalizeLocalAdminPasswordHashTransport (storedHash : Text) : Text :=
  singleDollars (strip storedHash)

def localAdminUsername : Text :=
  normalizeUsername lowerCase (orText (some settings.localAdminUsername) "admin_ai".toList)

-- The digests of a revision and of the environment, in hexadecimal digits.
variable (digest envDigest : RevisionFields → Text)

/-- `build_local_admin_state_revision`. -/
def buildLocalAdminStateRevision (state : LocalAdminState) : Text :=
  digest {
    baseEnvRevision := state.baseEnvRevision
    bootstrapRequired := state.bootstrapRequired
    enabled := state.enabled
    forceRotate := state.forceRotate
    passwordHash := normalizeLocalAdminPasswordHashTransport state.passwordHash
    runtimeOverride := state.runtimeOverride
    username := state.username }

/-- `local_admin_env_state`. -/
def localAdminEnvState : LocalAdminState :=
  let normalizedPasswordHash :=
    normalizeLocalAdminPasswordHashTransport settings.localAdminPasswordHash
  let state : LocalAdminState := {
    enabled := settings.localAdminEnabled
    username := localAdminUsername lowerCase settings
    passwordHash := normalizedPasswordHash
    forceRotate := settings.localAdminForceRotate
    bootstrapRequired := settings.localAdminBootstrapRequired
    runtimeOverride := false
    baseEnvRevision := envDigest {
      baseEnvRevision := []
      bootstrapRequired := settings.localAdminBootstrapRequired
      enabled := settings.localAdminEnabled
      forceRotate := settings.localAdminForceRotate
      passwordHash := normalizedPasswordHash
      runtimeOverride := false
      username := localAdminUsername lowerCase settings }
    rotatedAt := 0
    stateRevision := [] }
  { state with stateRevision := buildLocalAdminStateRevision digest state }

end Identity

/-- `local_admin_state_is_configured`. -/
def LocalAdminState.IsConfigured (state : LocalAdminState) : Prop :=
  state.enabled = true ∧ state.username ≠ [] ∧ state.passwordHash ≠ []

instance (state : LocalAdminState) : Decidable state.IsConfigured :=
  inferInstanceAs (Decidable (_ ∧ _ ∧ _))

/-- `local_admin_rotation_required`. -/
def LocalAdminState.rotationRequired (state : LocalAdminState) : Bool :=
  state.forceRotate || state.bootstrapRequired

/-- Who the local administrator of a session is. -/
structure LocalAdminIdentity where
  username : Text
  displayName : Text
  email : Text
  canonicalPrincipal : Text
  groups : List Text
  authSource : Text
  localAdmin : Bool
  dashboardOnly : Bool
  rotationRequired : Bool
  stateRevision : Text
  deriving DecidableEq

section Admin

variable (lowerCase : Text → Text) (settings : Settings) (digest envDigest : RevisionFields → Text)

/-- `build_local_admin_identity`. -/
def buildLocalAdminIdentity (state : LocalAdminState) : LocalAdminIdentity :=
  let username := orText (some state.username)
    (orText (some (localAdminUsername lowerCase settings)) "admin_ai".toList)
  { username := username
    displayName := username
    email := "break-glass admin".toList
    canonicalPrincipal := "local-admin:".toList ++ username
    groups := ["local-break-glass-admin".toList]
    authSource := authSourceLocalAdmin
    localAdmin := true
    dashboardOnly := true
    rotationRequired := state.rotationRequired
    stateRevision := state.stateRevision }

theorem username_buildLocalAdminIdentity_ne_nil (state : LocalAdminState) :
    (buildLocalAdminIdentity lowerCase settings state).username ≠ [] :=
  orText_ne_nil (orText_ne_nil (by decide))

/-- The stored state over that of the environment. -/
def mergeLocalAdminState (env : LocalAdminState) (stored : StoredAdminState) : LocalAdminState :=
  let merged : LocalAdminState := {
    enabled := stored.enabled.getD env.enabled
    username := normalizeUsername lowerCase (orText stored.username env.username)
    passwordHash :=
      normalizeLocalAdminPasswordHashTransport (orText stored.passwordHash env.passwordHash)
    forceRotate := stored.forceRotate.getD env.forceRotate
    bootstrapRequired := stored.bootstrapRequired.getD env.bootstrapRequired
    runtimeOverride := stored.runtimeOverride.getD false
    baseEnvRevision := orText stored.baseEnvRevision env.baseEnvRevision
    rotatedAt := stored.rotatedAt.getD 0
    stateRevision := [] }
  { merged with stateRevision := buildLocalAdminStateRevision digest merged }

/-- `load_local_admin_state`, where the store is `none` if it is offline, and what it holds is
`none` if nothing that can be read stands there; the answer is `none` if the backend is not
available. A state of another environment is replaced by that of this one. -/
def loadLocalAdminState (store : Option (Option StoredAdminState)) : Option LocalAdminState :=
  let env := localAdminEnvState lowerCase settings digest envDigest
  if settings.localAdminEnabled = false then some env
  else if ¬ env.IsConfigured then some env
  else store.map fun stored =>
    match stored with
    | none => env
    | some payload =>
      if payload.baseEnvRevision ≠ some env.baseEnvRevision then env
      else mergeLocalAdminState lowerCase digest env payload

end Admin

end Auth

end AiAgent

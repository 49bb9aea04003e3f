import AiAgent.Auth.Refresh

/-!
# The sessions of the local administrator

A session of the dashboard names the revision of the state it was issued from, and is accepted as
long as the state is loaded with the same revision. The revision is a digest of the state, in which
the password hash is normalized: two dollar signs become one. It is normalized on other paths too,
so the first load of a state takes the revision of the hash of the environment normalized twice, and
every later load that of the hash normalized three times.

These are the same unless there are five dollar signs in a row. With them a session that was just
issued is not accepted (`AiAgent.Auth.not_rotates_doubled`); without them every session is
accepted until the password is set anew, and never after that (`AiAgent.Auth.rotates_iff`).
-/

namespace AiAgent

namespace Auth

open Text

/-! ### Passwords -/

/-- What the program knows from outside: its settings, how texts are lowered, the digests of a
revision and of the environment, the digest of a password with a salt, and whether a password
matches the parts of a hash. -/
structure AdminContext where
  lowerCase : Text → Text
  settings : Settings
  digest : RevisionFields → Text
  envDigest : RevisionFields → Text
  pbkdf2 : Text → Text → Text
  checks : Text → Text → Text → Text → Bool

section Handlers

variable (cx : AdminContext)

def localAdminHashScheme : Text := "pbkdf2_sha256".toList

def localAdminHashIterations : Text := "600000".toList

/-- `build_local_admin_password_hash`, with the salt that was drawn. -/
def buildLocalAdminPasswordHash (password salt : Text) : Text :=
  localAdminHashScheme ++ '$' :: (localAdminHashIterations ++ '$' ::
    (salt ++ '$' :: cx.pbkdf2 password salt))

/-- `verify_local_admin_password`. -/
def verifyLocalAdminPassword (password storedHash : Text) : Bool :=
  let parts := do
    let (scheme, rest) ← splitOnce ['$'] (normalizeLocalAdminPasswordHashTransport storedHash)
    let (iterations, rest) ← splitOnce ['$'] rest
    let (salt, digest) ← splitOnce ['$'] rest
    pure (scheme, iterations, salt, digest)
  parts.any fun (scheme, iterations, salt, digest) =>
    scheme = localAdminHashScheme && cx.checks iterations salt digest password

/-- `validate_local_admin_password_policy`: what is wrong with the password. -/
def validateLocalAdminPasswordPolicy (password : Text) : Option Text :=
  if password = [] ∨ password.all isSpace = true then
    some "Новый пароль не должен быть пустым.".toList
  else if password.length < 16 then
    some "Новый пароль должен быть не короче 16 символов.".toList
  else none

/-! ### The stored state -/

/-- The state as it is written to the store. -/
def LocalAdminState.stored (state : LocalAdminState) : StoredAdminState where
  enabled := some state.enabled
  username := some state.username
  passwordHash := some state.passwordHash
  forceRotate := some state.forceRotate
  bootstrapRequired := some state.bootstrapRequired
  runtimeOverride := some state.runtimeOverride
  baseEnvRevision := some state.baseEnvRevision
  rotatedAt := some state.rotatedAt

/-- `local_admin_env_state`. -/
def AdminContext.env : LocalAdminState :=
  localAdminEnvState cx.lowerCase cx.settings cx.digest cx.envDigest

/-- `load_local_admin_state`, of a store that is online. -/
def AdminContext.load (stored : Option StoredAdminState) : LocalAdminState :=
  (loadLocalAdminState cx.lowerCase cx.settings cx.digest cx.envDigest (some stored)).getD cx.env

/-- What `load_local_admin_state` leaves in the store: the state of the environment, where there is
none or one of another environment. -/
def AdminContext.afterLoad (stored : Option StoredAdminState) : Option StoredAdminState :=
  if cx.settings.localAdminEnabled = false ∨ ¬ cx.env.IsConfigured then stored
  else
    match stored with
    | none => some cx.env.stored
    | some payload =>
      if payload.baseEnvRevision ≠ some cx.env.baseEnvRevision then some cx.env.stored
      else some payload

/-- `persist_local_admin_state`: the state that is written. -/
def AdminContext.persist (state : LocalAdminState) : LocalAdminState :=
  let storedState : LocalAdminState :=
    { state with
      username := normalizeUsername cx.lowerCase state.username
      passwordHash := normalizeLocalAdminPasswordHashTransport state.passwordHash
      stateRevision := [] }
  { storedState with stateRevision := buildLocalAdminStateRevision cx.digest storedState }

/-! ### The handlers -/

def localAdminRotationRequiredError : Text :=
  "Для break-glass admin требуется обязательная смена пароля.".toList

def localAdminNotConfiguredError : Text := "Local break-glass admin is not configured.".toList

def localAdminAuthError : Text := "Неверные учётные данные local admin.".toList

def loginRateLimitError : Text := "Слишком много попыток входа. Попробуйте позже.".toList

/-- What a request to the dashboard brings along. -/
structure AdminRequest where
  localAdminCookie : Option Text
  /-- The keys that stand. -/
  keyExists : Text → Bool
  /-- `enforce_local_admin_csrf` does not raise. -/
  csrfValid : Bool
  /-- The rate limiter lets the request through. -/
  admitted : Bool
  /-- How tokens are read. -/
  decode : ℤ → Text → Option Payload
  now : ℤ

/-- `get_current_local_admin_session`, of a store that is online. -/
def AdminContext.session (stored : Option StoredAdminState) (request : AdminRequest) :
    Option LocalAdminIdentity :=
  getCurrentLocalAdminSession cx.lowerCase cx.settings cx.digest cx.envDigest request.decode
    request.now ⟨none, request.localAdminCookie, none, some ⟨request.keyExists, stored⟩⟩

/-- `get_current_local_admin_session_required`, after `get_current_local_admin_session`. -/
def getCurrentLocalAdminSessionRequired (stored : Option StoredAdminState)
    (request : AdminRequest) : Except HttpError LocalAdminIdentity :=
  if cx.settings.localAdminEnabled = false then .error ⟨404, localAdminNotConfiguredError⟩
  else if ¬ (cx.load (cx.afterLoad stored)).IsConfigured then
    .error ⟨404, localAdminNotConfiguredError⟩
  else
    match cx.session stored request with
    | none => .error ⟨401, "Not authenticated".toList⟩
    | some currentLocalAdmin => .ok currentLocalAdmin

/-- `local_admin_login`: the state that a session is issued from. -/
def localAdminLogin (stored : Option StoredAdminState) (admitted : Bool)
    (username password : Text) : Except HttpError LocalAdminState :=
  if cx.settings.localAdminEnabled = false then .error ⟨404, localAdminNotConfiguredError⟩
  else
    let state := cx.load stored
    if ¬ state.IsConfigured then .error ⟨404, localAdminNotConfiguredError⟩
    else if admitted = false then .error ⟨429, loginRateLimitError⟩
    else if normalizeUsername cx.lowerCase username ≠ state.username ∨
        verifyLocalAdminPassword cx password state.passwordHash = false then
      .error ⟨401, localAdminAuthError⟩
    else .ok state

/-- The state with a new password. -/
def LocalAdminState.renew (state : LocalAdminState) (passwordHash : Text) (rotatedAt : ℕ) :
    LocalAdminState :=
  { state with
    passwordHash := passwordHash
    forceRotate := false
    bootstrapRequired := false
    runtimeOverride := true
    rotatedAt := rotatedAt }

/-- `local_admin_rotate_password`: the state that is persisted, and a session is issued from. -/
def localAdminRotatePassword (stored : Option StoredAdminState) (request : AdminRequest)
    (newPassword confirmPassword salt : Text) (rotatedAt : ℕ) :
    Except HttpError LocalAdminState := do
  let currentLocalAdmin ← getCurrentLocalAdminSessionRequired cx stored request
  if currentLocalAdmin.rotationRequired = false then
    .error ⟨403, "Password rotation is not required".toList⟩
  else if request.csrfValid = false then .error ⟨403, "CSRF validation failed".toList⟩
  else
    match validateLocalAdminPasswordPolicy newPassword with
    | some passwordPolicyError => .error ⟨400, passwordPolicyError⟩
    | none =>
      if newPassword ≠ confirmPassword then
        .error ⟨400, "Подтверждение пароля не совпадает.".toList⟩
      else
        let state := cx.load (cx.afterLoad stored)
        if state.username ≠ currentLocalAdmin.username ∨ state.rotationRequired = false then
          .error ⟨403, localAdminRotationRequiredError⟩
        else
          .ok (cx.persist
            (state.renew (buildLocalAdminPasswordHash cx newPassword salt) rotatedAt))

/-- `local_admin_change_password`: the state that is persisted. -/
def localAdminChangePassword (stored : Option StoredAdminState) (request : AdminRequest)
    (currentPassword newPassword confirmNewPassword salt : Text) (rotatedAt : ℕ) :
    Except HttpError LocalAdminState := do
  let currentLocalAdmin ← getCurrentLocalAdminSessionRequired cx stored request
  if request.csrfValid = false then .error ⟨403, "CSRF validation failed".toList⟩
  else if currentLocalAdmin.rotationRequired = true then
    .error ⟨403, localAdminRotationRequiredError⟩
  else if request.admitted = false then .error ⟨429, loginRateLimitError⟩
  else
    let state := cx.load (cx.afterLoad stored)
    if state.username ≠ currentLocalAdmin.username ∨ state.rotationRequired = true then
      .error ⟨403, localAdminRotationRequiredError⟩
    else if verifyLocalAdminPassword cx currentPassword state.passwordHash = false then
      .error ⟨400, "Текущий пароль указан неверно.".toList⟩
    else if newPassword ≠ confirmNewPassword then
      .error ⟨400, "Подтверждение нового пароля не совпадает.".toList⟩
    else if verifyLocalAdminPassword cx newPassword state.passwordHash = true then
      .error ⟨400, "Новый пароль должен отличаться от текущего.".toList⟩
    else
      match validateLocalAdminPasswordPolicy newPassword with
      | some passwordPolicyError => .error ⟨400, passwordPolicyError⟩
      | none =>
        .ok (cx.persist
          (state.renew (buildLocalAdminPasswordHash cx newPassword salt) rotatedAt))

end Handlers

/-! ### Hashes -/

section Hashes

theorem singleDollars_of_not {c : Char} {t : Text}
    (hnot : ∀ u : Text, c = '$' → t = '$' :: u → False) :
    singleDollars (c :: t) = c :: singleDollars t := by
  rw [singleDollars]
  exact hnot

theorem singleDollars_cons {c : Char} (hc : c ≠ '$') (t : Text) :
    singleDollars (c :: t) = c :: singleDollars t :=
  singleDollars_of_not fun _ h => absurd h hc

theorem singleDollars_append {t : Text} (ht : '$' ∉ t) (u : Text) :
    singleDollars (t ++ u) = t ++ singleDollars u := by
  induction t with
  | nil => rfl
  | cons c t ih =>
    have hc : c ≠ '$' := fun h => ht (h ▸ List.mem_cons_self)
    rw [List.cons_append, singleDollars_cons hc, ih fun h => ht (List.mem_cons_of_mem c h)]
    rfl

/-- A text without dollar signs. -/
theorem singleDollars_self {t : Text} (ht : '$' ∉ t) : singleDollars t = t := by
  have happend := singleDollars_append ht []
  rw [List.append_nil] at happend
  rw [happend]
  exact List.append_nil t

/-- One dollar sign stays. -/
theorem singleDollars_dollar {c : Char} (hc : c ≠ '$') (t : Text) :
    singleDollars ('$' :: c :: t) = '$' :: singleDollars (c :: t) :=
  singleDollars_of_not fun _ _ h => hc (List.cons.inj h).1

/-- A part of a hash, and a dollar sign behind it. -/
theorem singleDollars_part {t u : Text} (ht : '$' ∉ t) (hu : ∀ c ∈ u.head?, c ≠ '$')
    (hne : u ≠ []) : singleDollars (t ++ '$' :: u) = t ++ '$' :: singleDollars u := by
  obtain ⟨c, u, rfl⟩ := List.exists_cons_of_ne_nil hne
  rw [singleDollars_append ht, singleDollars_dollar (hu c rfl)]

def isBase64Char (c : Char) : Bool :=
  (47 ≤ c.toNat && c.toNat ≤ 57) || (65 ≤ c.toNat && c.toNat ≤ 90) ||
    (97 ≤ c.toNat && c.toNat ≤ 122) || c.toNat == 43 || c.toNat == 61

/-- What `b64encode` writes of some bytes. -/
def IsBase64 (t : Text) : Prop := t ≠ [] ∧ ∀ c ∈ t, isBase64Char c = true

theorem IsBase64.notMem_dollar {t : Text} (h : IsBase64 t) : '$' ∉ t := fun hmem =>
  absurd (h.2 _ hmem) (by decide)

theorem isSpace_eq_false_of_isBase64Char {c : Char} (h : isBase64Char c = true) :
    isSpace c = false := by
  by_contra hspace
  simp only [isBase64Char, Bool.or_eq_true, Bool.and_eq_true, decide_eq_true_eq, beq_iff_eq] at h
  simp only [isSpace, Bool.not_eq_false, Bool.or_eq_true, Bool.and_eq_true, decide_eq_true_eq,
    beq_iff_eq] at hspace
  omega

/-- A part of a hash ends as what stands behind it. -/
theorem getLast?_part (t : Text) {u : Text} (hne : u ≠ []) :
    (t ++ '$' :: u).getLast? = u.getLast? := by
  rw [List.getLast?_append_of_ne_nil _ (List.cons_ne_nil _ _), List.getLast?_cons_of_ne_nil hne]

theorem head?_part {t : Text} (hne : t ≠ []) (ht : '$' ∉ t) (u : Text) :
    ∀ c ∈ (t ++ u).head?, c ≠ '$' := by
  rintro c hc rfl
  rw [List.head?_append_of_ne_nil _ hne] at hc
  exact ht (List.mem_of_mem_head? hc)

/-- **A hash that was built is normal.** -/
theorem normalize_buildLocalAdminPasswordHash (cx : AdminContext) {password salt : Text}
    (hsalt : IsBase64 salt) (hdigest : IsBase64 (cx.pbkdf2 password salt)) :
    normalizeLocalAdminPasswordHashTransport (buildLocalAdminPasswordHash cx password salt) =
      buildLocalAdminPasswordHash cx password salt := by
  have hsaltTail : salt ++ '$' :: cx.pbkdf2 password salt ≠ [] :=
    List.append_ne_nil_of_left_ne_nil hsalt.1 _
  have htail : localAdminHashIterations ++ '$' :: (salt ++ '$' :: cx.pbkdf2 password salt) ≠ [] :=
    List.append_ne_nil_of_left_ne_nil (by decide) _
  have hlast : (buildLocalAdminPasswordHash cx password salt).getLast? =
      (cx.pbkdf2 password salt).getLast? := by
    rw [buildLocalAdminPasswordHash, getLast?_part _ htail, getLast?_part _ hsaltTail,
      getLast?_part _ hdigest.1]
  have htight : strip (buildLocalAdminPasswordHash cx password salt) =
      buildLocalAdminPasswordHash cx password salt := by
    refine strip_of_tight ⟨?_, ?_⟩
    · rintro c ⟨⟩
      decide
    · intro c hc
      rw [hlast] at hc
      exact isSpace_eq_false_of_isBase64Char (hdigest.2 c (List.mem_of_mem_getLast? hc))
  have hhead : ∀ c ∈ (cx.pbkdf2 password salt).head?, c ≠ '$' := by
    have happend := head?_part hdigest.1 hdigest.notMem_dollar []
    rwa [List.append_nil] at happend
  rw [normalizeLocalAdminPasswordHashTransport, htight, buildLocalAdminPasswordHash,
    singleDollars_part (by decide) (head?_part (by decide) (by decide) _) htail,
    singleDollars_part (by decide) (head?_part hsalt.1 hsalt.notMem_dollar _) hsaltTail,
    singleDollars_part hsalt.notMem_dollar hhead hdigest.1,
    singleDollars_self hdigest.notMem_dollar]

end Hashes

/-! ### Dollar signs in a row -/

section Dollars

/-- So many dollar signs. -/
def dollars (n : ℕ) : Text := List.replicate n '$'

theorem dollars_succ (n : ℕ) : dollars (n + 1) = '$' :: dollars n := List.replicate_succ

theorem dollars_succ_init_cons {n : ℕ} {t : Text} :
    dollars (n + 1) <+: '$' :: t ↔ dollars n <+: t := by
  rw [dollars_succ, List.cons_prefix_cons, and_iff_right rfl]

/-- Where the next character is another one, no row begins. -/
theorem not_dollars_init {n : ℕ} {t : Text} (h : ∀ c ∈ t.head?, c ≠ '$') :
    ¬ dollars (n + 1) <+: t := by
  rintro ⟨u, rfl⟩
  exact h '$' rfl rfl

theorem dollars_init_of_cons {n : ℕ} {t : Text} (h : dollars n <+: '$' :: t) :
    dollars n <+: '$' :: '$' :: t := by
  cases n with
  | zero => exact List.nil_prefix
  | succ n =>
    rw [dollars_succ_init_cons]
    refine List.IsPrefix.trans ?_ h
    rw [dollars, dollars, List.replicate_succ']
    exact List.prefix_append _ _

/-- Making two dollar signs one halves a row at the beginning. -/
theorem dollars_init_singleDollars {n : ℕ} {t : Text} :
    dollars (n + 1) <+: singleDollars t ↔ dollars (2 * n + 1) <+: t := by
  induction t using singleDollars.induct generalizing n with
  | case1 t ih =>
    rw [singleDollars, dollars_succ_init_cons, dollars_succ_init_cons]
    cases n with
    | zero => exact iff_of_true List.nil_prefix List.nil_prefix
    | succ n => rw [ih, show 2 * (n + 1) = 2 * n + 1 + 1 by omega, dollars_succ_init_cons]
  | case2 c t hnot ih =>
    rw [singleDollars_of_not hnot]
    by_cases hc : c = '$'
    · subst hc
      have hhead : ∀ d ∈ t.head?, d ≠ '$' := by
        rintro d hd rfl
        obtain ⟨u, rfl⟩ := List.head?_eq_some_iff.mp hd
        exact hnot u rfl rfl
      rw [dollars_succ_init_cons, dollars_succ_init_cons]
      cases n with
      | zero => exact iff_of_true List.nil_prefix List.nil_prefix
      | succ n =>
        rw [ih, show 2 * (n + 1) = 2 * n + 1 + 1 by omega]
        exact iff_of_false (not_dollars_init hhead) (not_dollars_init hhead)
    · have hhead : ∀ u : Text, ∀ d ∈ (c :: u).head?, d ≠ '$' := by
        rintro u d ⟨⟩
        exact hc
      exact iff_of_false (not_dollars_init (hhead _)) (not_dollars_init (hhead _))
  | case3 => exact iff_of_false (not_dollars_init nofun) (not_dollars_init nofun)

/-- **Making two dollar signs one halves every row.** -/
theorem dollars_infix_singleDollars {n : ℕ} {t : Text} :
    dollars (n + 1) <:+: singleDollars t ↔ dollars (2 * n + 1) <:+: t := by
  induction t using singleDollars.induct with
  | case1 t ih =>
    rw [List.infix_cons_iff, List.infix_cons_iff, ← dollars_init_singleDollars, singleDollars,
      List.infix_cons_iff, ih]
    constructor
    · rintro (hinit | hlater)
      · exact .inl hinit
      · exact .inr (.inr hlater)
    · rintro (hinit | hinit | hlater)
      · exact .inl hinit
      · have hinit := dollars_init_singleDollars.mpr (dollars_init_of_cons hinit)
        rw [singleDollars] at hinit
        exact .inl hinit
      · exact .inr hlater
  | case2 c t hnot ih =>
    rw [List.infix_cons_iff, ← dollars_init_singleDollars, singleDollars_of_not hnot,
      List.infix_cons_iff, ih]
  | case3 =>
    have hnil : ∀ m : ℕ, ¬ dollars (m + 1) <:+: [] := fun m h =>
      List.cons_ne_nil _ _ (List.infix_nil.mp h)
    exact iff_of_false (hnil n) (hnil (2 * n))

theorem length_singleDollars_le (t : Text) : (singleDollars t).length ≤ t.length := by
  induction t using singleDollars.induct with
  | case1 t ih =>
    rw [singleDollars, List.length_cons, List.length_cons, List.length_cons]
    omega
  | case2 c t hnot ih =>
    rw [singleDollars_of_not hnot, List.length_cons, List.length_cons]
    omega
  | case3 => exact le_rfl

/-- Nothing changes exactly where no two dollar signs stand side by side. -/
theorem singleDollars_eq_self_iff {t : Text} : singleDollars t = t ↔ ¬ dollars 2 <:+: t := by
  induction t using singleDollars.induct with
  | case1 t ih =>
    refine iff_of_false (fun hself => ?_) (not_not.mpr ?_)
    · have hle := length_singleDollars_le t
      have hlength := congrArg List.length hself
      rw [singleDollars, List.length_cons, List.length_cons, List.length_cons] at hlength
      omega
    · exact List.IsPrefix.isInfix (List.prefix_append (dollars 2) t)
  | case2 c t hnot ih =>
    have hinit : ¬ dollars 2 <+: c :: t := by
      rintro ⟨u, hu⟩
      obtain ⟨rfl, rfl⟩ := List.cons.inj hu
      exact hnot u rfl rfl
    rw [singleDollars_of_not hnot, List.cons_inj_right, ih, List.infix_cons_iff, or_iff_right hinit]
  | case3 => exact iff_of_true rfl fun h => List.cons_ne_nil _ _ (List.infix_nil.mp h)

end Dollars

/-! ### Normalizing again -/

section Stable

theorem head?_singleDollars (t : Text) : (singleDollars t).head? = t.head? := by
  induction t using singleDollars.induct with
  | case1 t ih => rfl
  | case2 c t hnot ih => rw [singleDollars_of_not hnot, List.head?_cons, List.head?_cons]
  | case3 => rfl

theorem singleDollars_eq_nil {t : Text} : singleDollars t = [] ↔ t = [] := by
  rw [← List.head?_eq_none_iff, head?_singleDollars, List.head?_eq_none_iff]

theorem getLast?_singleDollars (t : Text) : (singleDollars t).getLast? = t.getLast? := by
  induction t using singleDollars.induct with
  | case1 t ih =>
    rw [singleDollars]
    by_cases ht : t = []
    · subst ht
      rfl
    · rw [List.getLast?_cons_of_ne_nil (mt singleDollars_eq_nil.mp ht), ih,
        List.getLast?_cons_of_ne_nil (List.cons_ne_nil _ _), List.getLast?_cons_of_ne_nil ht]
  | case2 c t hnot ih =>
    rw [singleDollars_of_not hnot]
    by_cases ht : t = []
    · subst ht
      rfl
    · rw [List.getLast?_cons_of_ne_nil (mt singleDollars_eq_nil.mp ht), ih,
        List.getLast?_cons_of_ne_nil ht]
  | case3 => rfl

theorem tight_singleDollars {t : Text} (h : Tight t) : Tight (singleDollars t) := by
  constructor
  · rw [head?_singleDollars]
    exact h.1
  · rw [getLast?_singleDollars]
    exact h.2

/-- A hash without white space at its ends. -/
theorem normalize_of_tight {t : Text} (h : Tight t) :
    normalizeLocalAdminPasswordHashTransport t = singleDollars t :=
  congrArg singleDollars (strip_of_tight h)

/-- A hash that is normalized twice. -/
theorem normalize_normalize (t : Text) :
    normalizeLocalAdminPasswordHashTransport (normalizeLocalAdminPasswordHashTransport t) =
      singleDollars (singleDollars (strip t)) :=
  normalize_of_tight (tight_singleDollars (tight_strip t))

theorem normalize_ne_nil {t : Text} (h : normalizeLocalAdminPasswordHashTransport t ≠ []) :
    normalizeLocalAdminPasswordHashTransport (normalizeLocalAdminPasswordHashTransport t) ≠ [] := by
  rw [normalize_normalize]
  exact mt singleDollars_eq_nil.mp h

/-- A row of dollar signs is not shortened by stripping. -/
theorem dollars_infix_lstrip {n : ℕ} {t : Text} :
    dollars (n + 1) <:+: lstrip t ↔ dollars (n + 1) <:+: t := by
  induction t with
  | nil => rfl
  | cons c t ih =>
    rw [lstrip, List.dropWhile_cons]
    cases hc : isSpace c with
    | false => rw [if_neg Bool.false_ne_true]
    | true =>
      have hinit : ¬ dollars (n + 1) <+: c :: t := by
        rw [dollars_succ, List.cons_prefix_cons]
        rintro ⟨rfl, -⟩
        exact absurd hc (by decide)
      rw [if_pos rfl, List.infix_cons_iff, or_iff_right hinit]
      exact ih

theorem dollars_infix_strip {n : ℕ} {t : Text} :
    dollars (n + 1) <:+: strip t ↔ dollars (n + 1) <:+: t := by
  have hreverse : ∀ u : Text, dollars (n + 1) <:+: u.reverse ↔ dollars (n + 1) <:+: u := by
    intro u
    rw [← List.reverse_infix, List.reverse_reverse, dollars, List.reverse_replicate]
  rw [strip, rstrip, List.rdropWhile, hreverse, ← lstrip, dollars_infix_lstrip, hreverse,
    dollars_infix_lstrip]

/-- **Normalizing a third time changes nothing** exactly where no five dollar signs stand in a
row. -/
theorem normalize_third_iff {t : Text} :
    normalizeLocalAdminPasswordHashTransport (normalizeLocalAdminPasswordHashTransport
        (normalizeLocalAdminPasswordHashTransport t)) =
      normalizeLocalAdminPasswordHashTransport (normalizeLocalAdminPasswordHashTransport t) ↔
      ¬ dollars 5 <:+: t := by
  have htight := tight_singleDollars (tight_singleDollars (tight_strip t))
  rw [normalize_normalize t, normalize_of_tight htight, singleDollars_eq_self_iff,
    dollars_infix_singleDollars, dollars_infix_singleDollars, dollars_infix_strip]

end Stable

/-! ### Loading -/

section Loading

variable (cx : AdminContext)

/-- The store holds a state of this environment. -/
def AdminContext.Matched (stored : Option StoredAdminState) : Prop :=
  ∃ payload, stored = some payload ∧ payload.baseEnvRevision = some cx.env.baseEnvRevision

/-- **A state as it is loaded**: configured, with a name that is normal, of this environment, and
with the revision of its fields. -/
structure AdminContext.Loaded (state : LocalAdminState) : Prop where
  configured : state.IsConfigured
  username : normalizeUsername cx.lowerCase state.username = state.username
  baseEnvRevision : state.baseEnvRevision = cx.env.baseEnvRevision
  stateRevision : state.stateRevision = buildLocalAdminStateRevision cx.digest state

variable {cx} {stored : Option StoredAdminState} {payload : StoredAdminState}
  {state : LocalAdminState}

/-- What is read of the store, over the state of the environment. -/
theorem load_eq (stored : Option StoredAdminState) :
    cx.load stored = if cx.settings.localAdminEnabled = false then cx.env
      else if ¬ cx.env.IsConfigured then cx.env
      else match stored with
        | none => cx.env
        | some payload =>
          if payload.baseEnvRevision ≠ some cx.env.baseEnvRevision then cx.env
          else mergeLocalAdminState cx.lowerCase cx.digest cx.env payload := by
  show Option.getD (if cx.settings.localAdminEnabled = false then some cx.env
    else if ¬ cx.env.IsConfigured then some cx.env else some _) cx.env = _
  rw [apply_ite (Option.getD · cx.env), apply_ite (Option.getD · cx.env)]
  rfl

theorem load_of_not_configured (h : ¬ cx.env.IsConfigured) : cx.load stored = cx.env := by
  rw [load_eq, if_pos h, ite_self]

theorem enabled_of_configured (h : cx.env.IsConfigured) :
    ¬ cx.settings.localAdminEnabled = false :=
  ne_false_of_eq_true h.1

theorem load_of_matched (henv : cx.env.IsConfigured)
    (hbase : payload.baseEnvRevision = some cx.env.baseEnvRevision) :
    cx.load (some payload) = mergeLocalAdminState cx.lowerCase cx.digest cx.env payload := by
  rw [load_eq, if_neg (enabled_of_configured henv), if_neg (not_not.mpr henv)]
  exact if_neg (not_not.mpr hbase)

theorem load_of_not_matched (henv : cx.env.IsConfigured) (h : ¬ cx.Matched stored) :
    cx.load stored = cx.env := by
  rw [load_eq, if_neg (enabled_of_configured henv), if_neg (not_not.mpr henv)]
  rcases stored with _ | payload
  · rfl
  · exact if_pos fun hbase => h ⟨payload, rfl, hbase⟩

theorem afterLoad_of_matched (h : cx.Matched stored) : cx.afterLoad stored = stored := by
  obtain ⟨payload, rfl, hbase⟩ := h
  unfold AdminContext.afterLoad
  split
  · rfl
  · exact if_neg (not_not.mpr hbase)

theorem afterLoad_of_not_matched (henv : cx.env.IsConfigured) (h : ¬ cx.Matched stored) :
    cx.afterLoad stored = some cx.env.stored := by
  unfold AdminContext.afterLoad
  rw [if_neg (not_or.mpr ⟨enabled_of_configured henv, not_not.mpr henv⟩)]
  rcases stored with _ | payload
  · rfl
  · exact if_pos fun hbase => h ⟨payload, rfl, hbase⟩

theorem normalizeUsername_again (hlower : Lowers cx.lowerCase) {raw : Text}
    (h : normalizeUsername cx.lowerCase raw ≠ []) :
    normalizeUsername cx.lowerCase (normalizeUsername cx.lowerCase raw) =
      normalizeUsername cx.lowerCase raw :=
  normalizeUsername_self (isUsername_normalizeUsername h) (lowered_normalizeUsername hlower _ h)

theorem loaded_env (hlower : Lowers cx.lowerCase) (henv : cx.env.IsConfigured) :
    cx.Loaded cx.env where
  configured := henv
  username := normalizeUsername_again hlower henv.2.1
  baseEnvRevision := rfl
  stateRevision := rfl

/-- **What is loaded.** -/
theorem loaded_load (hlower : Lowers cx.lowerCase) (henv : cx.env.IsConfigured)
    (hconfigured : (cx.load stored).IsConfigured) : cx.Loaded (cx.load stored) := by
  by_cases h : cx.Matched stored
  · obtain ⟨payload, rfl, hbase⟩ := h
    rw [load_of_matched henv hbase] at hconfigured ⊢
    refine ⟨hconfigured, normalizeUsername_again hlower hconfigured.2.1, ?_, rfl⟩
    show orText payload.baseEnvRevision cx.env.baseEnvRevision = _
    rw [hbase, orText]
    by_cases hnil : cx.env.baseEnvRevision = []
    · exact if_pos hnil
    · exact if_neg hnil
  · rw [load_of_not_matched henv h]
    exact loaded_env hlower henv

/-- A state that is configured was loaded from a store that is used. -/
theorem env_of_configured (h : (cx.load stored).IsConfigured) : cx.env.IsConfigured := by
  by_contra hnot
  rw [load_of_not_configured hnot] at h
  exact hnot h

/-- **A state that was written is loaded as persisting returns it.** -/
theorem load_stored (henv : cx.env.IsConfigured) (h : cx.Loaded state) :
    cx.load (some state.stored) = cx.persist state := by
  have hbase : state.stored.baseEnvRevision = some cx.env.baseEnvRevision :=
    congrArg some h.baseEnvRevision
  have husername : orText state.stored.username cx.env.username = state.username :=
    orText_some h.configured.2.1
  have hhash : orText state.stored.passwordHash cx.env.passwordHash = state.passwordHash :=
    orText_some h.configured.2.2
  have hrevision : orText state.stored.baseEnvRevision cx.env.baseEnvRevision =
      state.baseEnvRevision := by
    rw [hbase, h.baseEnvRevision, orText]
    by_cases hnil : cx.env.baseEnvRevision = []
    · exact (if_pos hnil).trans rfl
    · exact if_neg hnil
  rw [load_of_matched henv hbase, mergeLocalAdminState, husername, hhash, hrevision]
  rfl

/-- **A state whose hash is normal is persisted as it is.** -/
theorem persist_self (h : cx.Loaded state)
    (hhash : normalizeLocalAdminPasswordHashTransport state.passwordHash = state.passwordHash) :
    cx.persist state = state := by
  have hrevision := h.stateRevision
  rcases state with ⟨enabled, username, passwordHash, forceRotate, bootstrapRequired,
    runtimeOverride, baseEnvRevision, rotatedAt, stateRevision⟩
  have husername : normalizeUsername cx.lowerCase username = username := h.username
  have hpassword : normalizeLocalAdminPasswordHashTransport passwordHash = passwordHash := hhash
  rw [AdminContext.persist]
  simp only [husername, hpassword, LocalAdminState.mk.injEq, true_and]
  exact hrevision.symm

/-- A state with a new password, as it is persisted. -/
theorem loaded_renew (h : cx.Loaded state) {passwordHash : Text} (rotatedAt : ℕ)
    (hne : passwordHash ≠ [])
    (hhash : normalizeLocalAdminPasswordHashTransport passwordHash = passwordHash) :
    cx.Loaded (cx.persist (state.renew passwordHash rotatedAt)) where
  configured := by
    refine ⟨h.configured.1, ?_, ?_⟩
    · show normalizeUsername cx.lowerCase state.username ≠ []
      rw [h.username]
      exact h.configured.2.1
    · show normalizeLocalAdminPasswordHashTransport passwordHash ≠ []
      rwa [hhash]
  username := by
    show normalizeUsername cx.lowerCase (normalizeUsername cx.lowerCase state.username) =
      normalizeUsername cx.lowerCase state.username
    rw [h.username, h.username]
  baseEnvRevision := h.baseEnvRevision
  stateRevision := rfl

/-- **What is persisted with a new password is loaded as it is.** -/
theorem load_renew (henv : cx.env.IsConfigured) (h : cx.Loaded state) {passwordHash : Text}
    (rotatedAt : ℕ) (hne : passwordHash ≠ [])
    (hhash : normalizeLocalAdminPasswordHashTransport passwordHash = passwordHash) :
    cx.load (some (cx.persist (state.renew passwordHash rotatedAt)).stored) =
      cx.persist (state.renew passwordHash rotatedAt) := by
  have hloaded := loaded_renew h rotatedAt hne hhash
  rw [load_stored henv hloaded]
  refine persist_self hloaded ?_
  show normalizeLocalAdminPasswordHashTransport
    (normalizeLocalAdminPasswordHashTransport passwordHash) =
      normalizeLocalAdminPasswordHashTransport passwordHash
  rw [hhash, hhash]

end Loading

/-! ### What the handlers persist -/

section Outcomes

variable {cx : AdminContext} {stored : Option StoredAdminState} {request : AdminRequest}
  {state : LocalAdminState} {identity : LocalAdminIdentity}

theorem configured_of_required
    (h : getCurrentLocalAdminSessionRequired cx stored request = .ok identity) :
    (cx.load (cx.afterLoad stored)).IsConfigured := by
  rw [getCurrentLocalAdminSessionRequired] at h
  obtain ⟨-, h⟩ := Chat.passed_of_ok h
  obtain ⟨hconfigured, -⟩ := Chat.passed_of_ok h
  exact not_not.mp hconfigured

/-- **A session is issued** from the state that is loaded, to who knows the password. -/
theorem localAdminLogin_eq_ok {admitted : Bool} {username password : Text} :
    localAdminLogin cx stored admitted username password = .ok state ↔
      cx.settings.localAdminEnabled = true ∧ (cx.load stored).IsConfigured ∧ admitted = true ∧
        normalizeUsername cx.lowerCase username = (cx.load stored).username ∧
        verifyLocalAdminPassword cx password (cx.load stored).passwordHash = true ∧
        state = cx.load stored := by
  unfold localAdminLogin
  dsimp only
  constructor
  · intro h
    obtain ⟨henabled, h⟩ := Chat.passed_of_ok h
    obtain ⟨hconfigured, h⟩ := Chat.passed_of_ok h
    obtain ⟨hadmitted, h⟩ := Chat.passed_of_ok h
    obtain ⟨hmatches, h⟩ := Chat.passed_of_ok h
    obtain ⟨husername, hpassword⟩ := not_or.mp hmatches
    exact ⟨Bool.eq_true_of_not_eq_false henabled, not_not.mp hconfigured,
      Bool.eq_true_of_not_eq_false hadmitted, not_not.mp husername,
      Bool.eq_true_of_not_eq_false hpassword, (Except.ok.inj h).symm⟩
  · rintro ⟨henabled, hconfigured, hadmitted, husername, hpassword, rfl⟩
    rw [if_neg (ne_false_of_eq_true henabled), if_neg (not_not.mpr hconfigured),
      if_neg (ne_false_of_eq_true hadmitted),
      if_neg (not_or.mpr ⟨not_not.mpr husername, ne_false_of_eq_true hpassword⟩)]

variable {newPassword confirmPassword currentPassword salt : Text} {rotatedAt : ℕ}

/-- **A rotation persists** the state that is loaded, with a new hash. -/
theorem persist_of_rotate (h : localAdminRotatePassword cx stored request newPassword
    confirmPassword salt rotatedAt = .ok state) :
    (cx.load (cx.afterLoad stored)).IsConfigured ∧
      state = cx.persist ((cx.load (cx.afterLoad stored)).renew
        (buildLocalAdminPasswordHash cx newPassword salt) rotatedAt) := by
  obtain ⟨identity, hsession, h⟩ := Chat.exists_of_bind_ok h
  refine ⟨configured_of_required hsession, ?_⟩
  obtain ⟨-, h⟩ := Chat.passed_of_ok h
  obtain ⟨-, h⟩ := Chat.passed_of_ok h
  split at h
  · cases h
  obtain ⟨-, h⟩ := Chat.passed_of_ok h
  obtain ⟨-, h⟩ := Chat.passed_of_ok h
  exact (Except.ok.inj h).symm

/-- **A change persists** the state that is loaded, with a new hash. -/
theorem persist_of_change (h : localAdminChangePassword cx stored request currentPassword
    newPassword confirmPassword salt rotatedAt = .ok state) :
    (cx.load (cx.afterLoad stored)).IsConfigured ∧
      state = cx.persist ((cx.load (cx.afterLoad stored)).renew
        (buildLocalAdminPasswordHash cx newPassword salt) rotatedAt) := by
  obtain ⟨identity, hsession, h⟩ := Chat.exists_of_bind_ok h
  refine ⟨configured_of_required hsession, ?_⟩
  obtain ⟨-, h⟩ := Chat.passed_of_ok h
  obtain ⟨-, h⟩ := Chat.passed_of_ok h
  obtain ⟨-, h⟩ := Chat.passed_of_ok h
  dsimp only at h
  obtain ⟨-, h⟩ := Chat.passed_of_ok h
  obtain ⟨-, h⟩ := Chat.passed_of_ok h
  obtain ⟨-, h⟩ := Chat.passed_of_ok h
  obtain ⟨-, h⟩ := Chat.passed_of_ok h
  split at h
  · cases h
  exact (Except.ok.inj h).symm

end Outcomes

/-! ### Runs -/

section Runs

/-- What happened to the state of the local administrator. -/
inductive AdminEvent where
  /-- A session was issued from the state, with these claims. -/
  | issued (state : LocalAdminState) (payload : Payload)
  /-- The state was persisted. -/
  | persisted (state : LocalAdminState)

def AdminEvent.state : AdminEvent → LocalAdminState
  | .issued state _ => state
  | .persisted state => state

/-- The store, and what happened, the latest first. -/
structure AdminWorld where
  stored : Option StoredAdminState
  log : List AdminEvent

/-- The claims of all tokens. -/
def tokens : List AdminEvent → List Payload
  | [] => []
  | .issued _ payload :: log => payload :: tokens log
  | .persisted _ :: log => tokens log

/-- The claims of the tokens that were issued since a state was last persisted. -/
def currentTokens : List AdminEvent → List Payload
  | [] => []
  | .issued _ payload :: log => payload :: currentTokens log
  | .persisted _ :: _ => []

/-- The claims of the tokens that were issued before a state was persisted. -/
def oldTokens : List AdminEvent → List Payload
  | [] => []
  | .issued _ _ :: log => oldTokens log
  | .persisted _ :: log => tokens log

/-- The state that was last persisted. -/
def lastPersisted : List AdminEvent → Option LocalAdminState
  | [] => none
  | .issued _ _ :: log => lastPersisted log
  | .persisted state :: _ => some state

variable (cx : AdminContext)

/-- What `issue_local_admin_session_response` signs. -/
def AdminContext.token (state : LocalAdminState) (issuedAt lifetime : ℤ) (jti : Text) : Payload :=
  createAccessToken (buildLocalAdminAccessTokenPayload cx.lowerCase cx.settings state) issuedAt
    lifetime jti

/-- The hash of the state is that of no state so far. -/
def FreshHash (log : List AdminEvent) (state : LocalAdminState) : Prop :=
  ∀ event ∈ log,
    normalizeLocalAdminPasswordHashTransport event.state.passwordHash ≠ state.passwordHash

/-- **One request**: one that looks at the state and no more, a login, a rotation, or a change of
the password; the salts are fresh. -/
inductive AdminContext.Step : AdminWorld → AdminWorld → Prop
  | load (w : AdminWorld) : AdminContext.Step w ⟨cx.afterLoad w.stored, w.log⟩
  | login (w : AdminWorld) {admitted : Bool} {username password : Text} {state : LocalAdminState}
      (issuedAt lifetime : ℤ) (jti : Text)
      (h : localAdminLogin cx w.stored admitted username password = .ok state) :
      AdminContext.Step w
        ⟨cx.afterLoad w.stored, .issued state (cx.token state issuedAt lifetime jti) :: w.log⟩
  | rotate (w : AdminWorld) {request : AdminRequest} {newPassword confirmPassword salt : Text}
      {rotatedAt : ℕ} {state : LocalAdminState} (issuedAt lifetime : ℤ) (jti : Text)
      (h : localAdminRotatePassword cx w.stored request newPassword confirmPassword salt
        rotatedAt = .ok state) (hsalt : IsBase64 salt) (hfresh : FreshHash w.log state) :
      AdminContext.Step w ⟨some state.stored,
        .issued state (cx.token state issuedAt lifetime jti) :: .persisted state :: w.log⟩
  /-- The store fails after the state was written, when the token of the request is revoked. -/
  | rotateFailed (w : AdminWorld) {request : AdminRequest}
      {newPassword confirmPassword salt : Text} {rotatedAt : ℕ} {state : LocalAdminState}
      (h : localAdminRotatePassword cx w.stored request newPassword confirmPassword salt
        rotatedAt = .ok state) (hsalt : IsBase64 salt) (hfresh : FreshHash w.log state) :
      AdminContext.Step w ⟨some state.stored, .persisted state :: w.log⟩
  | change (w : AdminWorld) {request : AdminRequest}
      {currentPassword newPassword confirmNewPassword salt : Text} {rotatedAt : ℕ}
      {state : LocalAdminState}
      (h : localAdminChangePassword cx w.stored request currentPassword newPassword
        confirmNewPassword salt rotatedAt = .ok state) (hsalt : IsBase64 salt)
      (hfresh : FreshHash w.log state) :
      AdminContext.Step w ⟨some state.stored, .persisted state :: w.log⟩

/-- A request with the token in the cookie. -/
def Presents (request : AdminRequest) (payload : Payload) : Prop :=
  ∃ token, SignedAs request.decode token payload ∧
    (request.localAdminCookie = some token ∨ request.localAdminCookie = some (bearer ++ token))

/-- The token may still be used, and is not revoked. -/
def Usable (request : AdminRequest) (payload : Payload) : Prop :=
  (∀ exp ∈ payload.exp, request.now ≤ exp) ∧
    isTokenRevoked ⟨request.keyExists, none⟩ payload = false

/-- **A password that is set anew ends every session before it**, the sessions after it are
accepted as long as their tokens may be used, and the state is loaded as it was persisted. -/
structure Rotates (w : AdminWorld) : Prop where
  old : ∀ payload ∈ oldTokens w.log, ∀ request, Presents request payload →
    cx.session w.stored request = none
  current : ∀ payload ∈ currentTokens w.log, ∀ request, Presents request payload →
    Usable request payload → ∃ identity, cx.session w.stored request = some identity
  persisted : ∀ state ∈ lastPersisted w.log,
    (cx.load w.stored).stateRevision = state.stateRevision

end Runs

/-! ### What is kept -/

section Keeps

variable (cx : AdminContext)

/-- The claims name the state as it is loaded. -/
structure AdminContext.Names (stored : Option StoredAdminState) (payload : Payload) : Prop where
  type : payload.type = some localAdminAccessTokenType
  localAdmin : payload.localAdmin = some true
  configured : (cx.load stored).IsConfigured
  sub : payload.sub = some (cx.load stored).username
  stateRevision : payload.stateRevision = some (cx.load stored).stateRevision

/-- What is used of the digests and of lowering texts: no two revisions are the same, and the
digest of a password is written in base 64. -/
structure AdminContext.Sound : Prop where
  lowers : Lowers cx.lowerCase
  digest : Function.Injective cx.digest
  base64 : ∀ password salt, IsBase64 (cx.pbkdf2 password salt)

/-- **What holds after every request**: once something has happened, the store holds a state of
this environment; every token names the revision of the state it was issued from, the current ones
that of the state as it is loaded, and the old ones another. -/
structure AdminContext.Keeps (w : AdminWorld) : Prop where
  matched : w.log ≠ [] → cx.Matched w.stored
  stamped : ∀ state payload, .issued state payload ∈ w.log →
    payload.stateRevision = some (buildLocalAdminStateRevision cx.digest state)
  current : ∀ payload ∈ currentTokens w.log, cx.Names w.stored payload
  old : ∀ payload ∈ oldTokens w.log,
    payload.stateRevision ≠ some (cx.load w.stored).stateRevision
  persisted : ∀ state ∈ lastPersisted w.log,
    (cx.load w.stored).stateRevision = state.stateRevision

variable {cx} {stored : Option StoredAdminState} {request : AdminRequest} {payload : Payload}
  {state : LocalAdminState} {w w' : AdminWorld}

/-- The backend answers as long as the store is online. -/
theorem loadLocalAdminState_some : loadLocalAdminState cx.lowerCase cx.settings cx.digest
    cx.envDigest (some stored) = some (cx.load stored) := by
  rw [AdminContext.load, loadLocalAdminState]
  split
  · rfl
  split
  · rfl
  · rfl

/-- **Who has a session**: the bearer of a token that may be used and names the state as it is
loaded. -/
theorem session_iff (hpresents : Presents request payload) :
    (∃ identity, cx.session stored request = some identity) ↔
      Usable request payload ∧ cx.Names stored payload := by
  obtain ⟨token, hsigned, hcarries⟩ := hpresents
  have hiff : ∀ identity, cx.session stored request = some identity ↔ _ := fun identity =>
    getCurrentLocalAdminSession_eq_some hcarries hsigned
  constructor
  · rintro ⟨identity, hidentity⟩
    obtain ⟨hlive, ⟨htype, hadmin⟩, store, state, hstore, hload, hconfigured, hrevoked, hsub,
      hrevision, -⟩ := (hiff identity).mp hidentity
    obtain rfl := Option.some.inj hstore
    obtain rfl := Option.some.inj (loadLocalAdminState_some.symm.trans hload)
    exact ⟨⟨hlive, hrevoked⟩, htype, hadmin, hconfigured, hsub, hrevision⟩
  · rintro ⟨⟨hlive, hrevoked⟩, htype, hadmin, hconfigured, hsub, hrevision⟩
    exact ⟨_, (hiff _).mpr ⟨hlive, ⟨htype, hadmin⟩, ⟨request.keyExists, stored⟩, cx.load stored,
      rfl, loadLocalAdminState_some, hconfigured, hrevoked, hsub, hrevision, rfl⟩⟩

theorem AdminContext.Keeps.rotates (h : cx.Keeps w) : Rotates cx w where
  old := by
    intro payload hmem request hpresents
    by_contra hsome
    obtain ⟨-, hnames⟩ := (session_iff hpresents).mp (Option.ne_none_iff_exists'.mp hsome)
    exact h.old payload hmem hnames.stateRevision
  current := fun payload hmem _ hpresents husable =>
    (session_iff hpresents).mpr ⟨husable, h.current payload hmem⟩
  persisted := h.persisted

/-- Before anything happened. -/
theorem keeps_nil (stored : Option StoredAdminState) : cx.Keeps ⟨stored, []⟩ where
  matched := fun hne => absurd rfl hne
  stamped := fun _ _ hmem => absurd hmem List.not_mem_nil
  current := fun _ hmem => absurd hmem List.not_mem_nil
  old := fun _ hmem => absurd hmem List.not_mem_nil
  persisted := nofun

/-- The claims of a token name the state that they were made of. -/
theorem names_token (h : (cx.load stored).IsConfigured) (issuedAt lifetime : ℤ) (jti : Text) :
    cx.Names stored (cx.token (cx.load stored) issuedAt lifetime jti) where
  type := rfl
  localAdmin := rfl
  configured := h
  sub := congrArg some (orText_some h.2.1)
  stateRevision := rfl

theorem mem_tokens {log : List AdminEvent} : payload ∈ tokens log ↔
    ∃ state, .issued state payload ∈ log := by
  induction log with
  | nil => exact iff_of_false List.not_mem_nil fun ⟨_, h⟩ => List.not_mem_nil h
  | cons event log ih =>
    rcases event with ⟨state, payload'⟩ | state
    · rw [tokens, List.mem_cons, ih]
      simp only [List.mem_cons, AdminEvent.issued.injEq]
      constructor
      · rintro (rfl | ⟨state', hmem⟩)
        · exact ⟨state, .inl ⟨rfl, rfl⟩⟩
        · exact ⟨state', .inr hmem⟩
      · rintro ⟨state', ⟨-, rfl⟩ | hmem⟩
        · exact .inl rfl
        · exact .inr ⟨state', hmem⟩
    · rw [tokens, ih]
      simp only [List.mem_cons, reduceCtorEq, false_or]

/-- **A load** changes nothing once something has happened. -/
theorem AdminContext.Keeps.load (h : cx.Keeps w) : cx.Keeps ⟨cx.afterLoad w.stored, w.log⟩ := by
  rcases w with ⟨stored, log⟩
  by_cases hlog : log = []
  · subst hlog
    exact keeps_nil _
  · rwa [afterLoad_of_matched (h.matched hlog)]

/-- **A session is issued** from the state as it is loaded. -/
theorem AdminContext.Keeps.issue (h : cx.Keeps w) (hlower : Lowers cx.lowerCase)
    (hmatched : cx.Matched w.stored) (hconfigured : (cx.load w.stored).IsConfigured)
    (issuedAt lifetime : ℤ) (jti : Text) :
    cx.Keeps ⟨w.stored, .issued (cx.load w.stored)
      (cx.token (cx.load w.stored) issuedAt lifetime jti) :: w.log⟩ where
  matched := fun _ => hmatched
  stamped := by
    rintro state payload hmem
    rcases List.mem_cons.mp hmem with heq | hmem
    · obtain ⟨rfl, rfl⟩ := AdminEvent.issued.inj heq
      exact congrArg some
        (loaded_load hlower (env_of_configured hconfigured) hconfigured).stateRevision
    · exact h.stamped state payload hmem
  current := by
    intro payload hmem
    rcases List.mem_cons.mp hmem with rfl | hmem
    · exact names_token hconfigured issuedAt lifetime jti
    · exact h.current payload hmem
  old := h.old
  persisted := h.persisted

/-- Two states with one revision have one hash, once it is normalized. -/
theorem hash_of_revision (hdigest : Function.Injective cx.digest) {s t : LocalAdminState}
    (h : buildLocalAdminStateRevision cx.digest s = buildLocalAdminStateRevision cx.digest t) :
    normalizeLocalAdminPasswordHashTransport s.passwordHash =
      normalizeLocalAdminPasswordHashTransport t.passwordHash :=
  congrArg RevisionFields.passwordHash (hdigest h)

/-- **A state is persisted** with a new hash: all tokens so far are old. -/
theorem AdminContext.Keeps.persist (h : cx.Keeps w) (hdigest : Function.Injective cx.digest)
    (hloaded : cx.Loaded state) (hload : cx.load (some state.stored) = state)
    (hhash : normalizeLocalAdminPasswordHashTransport state.passwordHash = state.passwordHash)
    (hfresh : FreshHash w.log state) :
    cx.Keeps ⟨some state.stored, .persisted state :: w.log⟩ where
  matched := fun _ => ⟨_, rfl, congrArg some hloaded.baseEnvRevision⟩
  stamped := by
    intro state' payload hmem
    rcases List.mem_cons.mp hmem with heq | hmem
    · cases heq
    · exact h.stamped state' payload hmem
  current := fun _ hmem => absurd hmem List.not_mem_nil
  old := by
    intro payload hmem hrevision
    obtain ⟨state', hissued⟩ := mem_tokens.mp hmem
    rw [h.stamped state' payload hissued, hload, hloaded.stateRevision] at hrevision
    have hsame := hash_of_revision hdigest (Option.some.inj hrevision)
    exact hfresh _ hissued (hsame.trans hhash)
  persisted := by
    intro state' hlast
    obtain rfl := Option.some.inj hlast
    exact congrArg LocalAdminState.stateRevision hload

end Keeps

/-! ### Every run -/

section Runs

variable {cx : AdminContext} {stored : Option StoredAdminState} {state : LocalAdminState}
  {w w' : AdminWorld}

/-- **The first session**: it is issued from the state of the environment, which is then loaded
from the store. -/
theorem names_env_iff (hlower : Lowers cx.lowerCase) (hdigest : Function.Injective cx.digest)
    (henv : cx.env.IsConfigured) (issuedAt lifetime : ℤ) (jti : Text) :
    cx.Names (some cx.env.stored) (cx.token cx.env issuedAt lifetime jti) ↔
      ¬ dollars 5 <:+: cx.settings.localAdminPasswordHash := by
  have hloaded := loaded_env hlower henv
  have hload := load_stored henv hloaded
  rw [← normalize_third_iff]
  constructor
  · intro hnames
    have hrevision := Option.some.inj hnames.stateRevision
    rw [hload] at hrevision
    exact (hash_of_revision (s := cx.env) (t := cx.persist cx.env) hdigest hrevision).symm
  · intro hthird
    refine ⟨rfl, rfl, ?_, ?_, ?_⟩
    · rw [hload]
      refine ⟨henv.1, ?_, normalize_ne_nil henv.2.2⟩
      show normalizeUsername cx.lowerCase cx.env.username ≠ []
      rw [hloaded.username]
      exact henv.2.1
    · rw [hload]
      refine congrArg some ((orText_some henv.2.1).trans ?_)
      exact hloaded.username.symm
    · rw [hload]
      refine congrArg some ?_
      show cx.digest _ = cx.digest _
      refine congrArg cx.digest ?_
      rw [RevisionFields.mk.injEq]
      exact ⟨rfl, rfl, rfl, rfl, hthird.symm, rfl, hloaded.username.symm⟩

theorem buildLocalAdminPasswordHash_ne_nil (cx : AdminContext) (password salt : Text) :
    buildLocalAdminPasswordHash cx password salt ≠ [] :=
  List.append_ne_nil_of_left_ne_nil (by decide) _

/-- **A password is set anew.** -/
theorem AdminContext.Keeps.renew (h : cx.Keeps w) (hsound : cx.Sound) {newPassword salt : Text}
    {rotatedAt : ℕ}
    (hrenewed : (cx.load (cx.afterLoad w.stored)).IsConfigured ∧
      state = cx.persist ((cx.load (cx.afterLoad w.stored)).renew
        (buildLocalAdminPasswordHash cx newPassword salt) rotatedAt))
    (hsalt : IsBase64 salt) (hfresh : FreshHash w.log state) :
    cx.load (some state.stored) = state ∧ state.IsConfigured ∧ cx.Matched (some state.stored) ∧
      cx.Keeps ⟨some state.stored, .persisted state :: w.log⟩ := by
  obtain ⟨hconfigured, rfl⟩ := hrenewed
  have henv := env_of_configured hconfigured
  have hloaded := loaded_load hsound.lowers henv hconfigured
  have hne := buildLocalAdminPasswordHash_ne_nil cx newPassword salt
  have hnormal := normalize_buildLocalAdminPasswordHash cx hsalt (hsound.base64 newPassword salt)
  have hrenewed := loaded_renew hloaded rotatedAt hne hnormal
  have hload := load_renew henv hloaded rotatedAt hne hnormal
  have hhash : normalizeLocalAdminPasswordHashTransport
      (normalizeLocalAdminPasswordHashTransport (buildLocalAdminPasswordHash cx newPassword salt)) =
      normalizeLocalAdminPasswordHashTransport (buildLocalAdminPasswordHash cx newPassword salt) :=
    congrArg _ hnormal
  have hkeeps := h.persist hsound.digest hrenewed hload hhash hfresh
  exact ⟨hload, hrenewed.configured, hkeeps.matched (List.cons_ne_nil _ _), hkeeps⟩

/-- **One request.** -/
theorem AdminContext.Keeps.step (h : cx.Keeps w) (hsound : cx.Sound)
    (hstable : cx.env.IsConfigured →
      (∃ password, verifyLocalAdminPassword cx password cx.env.passwordHash = true) →
        ¬ dollars 5 <:+: cx.settings.localAdminPasswordHash)
    (hstep : cx.Step w w') : cx.Keeps w' := by
  cases hstep with
  | load => exact h.load
  | login issuedAt lifetime jti hlogin =>
    obtain ⟨-, hconfigured, -, -, hpassword, rfl⟩ := localAdminLogin_eq_ok.mp hlogin
    by_cases hmatched : cx.Matched w.stored
    · rw [afterLoad_of_matched hmatched]
      exact h.issue hsound.lowers hmatched hconfigured issuedAt lifetime jti
    · -- Nothing has happened yet, and the state of the environment is written now.
      have henv := env_of_configured hconfigured
      have hlog : w.log = [] := by_contra fun hne => hmatched (h.matched hne)
      rw [load_of_not_matched henv hmatched] at hpassword ⊢
      rw [afterLoad_of_not_matched henv hmatched, hlog]
      have hnames := (names_env_iff hsound.lowers hsound.digest henv issuedAt lifetime jti).mpr
        (hstable henv ⟨_, hpassword⟩)
      refine ⟨fun _ => ⟨_, rfl, rfl⟩, ?_, ?_, fun _ hmem => absurd hmem List.not_mem_nil, nofun⟩
      · rintro state payload hmem
        obtain ⟨rfl, rfl⟩ := AdminEvent.issued.inj (List.mem_singleton.mp hmem)
        rfl
      · rintro payload hmem
        obtain rfl := List.mem_singleton.mp hmem
        exact hnames
  | rotate issuedAt lifetime jti hrotate hsalt hfresh =>
    obtain ⟨hload, hconfigured, hmatched, hkeeps⟩ :=
      h.renew hsound (persist_of_rotate hrotate) hsalt hfresh
    have hissued := hkeeps.issue hsound.lowers hmatched (hload.symm ▸ hconfigured) issuedAt
      lifetime jti
    dsimp only at hissued
    rwa [hload] at hissued
  | rotateFailed hrotate hsalt hfresh =>
    exact (h.renew hsound (persist_of_rotate hrotate) hsalt hfresh).2.2.2
  | change hchange hsalt hfresh =>
    exact (h.renew hsound (persist_of_change hchange) hsalt hfresh).2.2.2

/-- A request with the token in the cookie, when nothing is revoked. -/
def requestWith (payload : Payload) : AdminRequest where
  localAdminCookie := some "t".toList
  keyExists := fun _ => false
  csrfValid := true
  admitted := true
  decode := fun now token =>
    if token = "t".toList ∧ ∀ exp ∈ payload.exp, now ≤ exp then some payload else none
  now := 0

theorem presents_requestWith (payload : Payload) : Presents (requestWith payload) payload := by
  refine ⟨"t".toList, ⟨fun now => if_congr (and_iff_right rfl) rfl rfl, by decide, by decide⟩, ?_⟩
  exact .inl rfl

/-- Where the first session is accepted, the hash of the environment has no such row. -/
theorem not_dollars_of_rotates (hsound : cx.Sound)
    (hruns : ∀ stored w, Relation.ReflTransGen cx.Step ⟨stored, []⟩ w → Rotates cx w)
    (henv : cx.env.IsConfigured) {password : Text}
    (hpassword : verifyLocalAdminPassword cx password cx.env.passwordHash = true) :
    ¬ dollars 5 <:+: cx.settings.localAdminPasswordHash := by
  have hmatched : ¬ cx.Matched none := by
    rintro ⟨state, hstored, -⟩
    cases hstored
  have hlogin : localAdminLogin cx none true cx.env.username password = .ok cx.env := by
    rw [localAdminLogin_eq_ok, load_of_not_matched henv hmatched]
    exact ⟨henv.1, henv, rfl, (loaded_env hsound.lowers henv).username, hpassword, rfl⟩
  have hreach : Relation.ReflTransGen cx.Step ⟨none, []⟩ _ :=
    .single (.login ⟨none, []⟩ 0 0 "j".toList hlogin)
  have hcurrent := (hruns none _ hreach).current _ List.mem_cons_self _
    (presents_requestWith _) ⟨?_, rfl⟩
  · obtain ⟨-, hnames⟩ := (session_iff (presents_requestWith _)).mp hcurrent
    dsimp only at hnames
    rw [afterLoad_of_not_matched henv hmatched] at hnames
    exact (names_env_iff hsound.lowers hsound.digest henv 0 0 "j".toList).mp hnames
  · rintro exp hexp
    obtain rfl := Option.some.inj hexp
    exact le_refl (0 : ℤ)

/-- **Sessions end with their password**, and no sooner, exactly if no five dollar signs stand in a
row in the hash of the environment, or nobody can log in with it. -/
theorem rotates_iff (hsound : cx.Sound) :
    (∀ stored w, Relation.ReflTransGen cx.Step ⟨stored, []⟩ w → Rotates cx w) ↔
      (cx.env.IsConfigured →
        (∃ password, verifyLocalAdminPassword cx password cx.env.passwordHash = true) →
          ¬ dollars 5 <:+: cx.settings.localAdminPasswordHash) := by
  constructor
  · rintro hruns henv ⟨password, hpassword⟩
    exact not_dollars_of_rotates hsound hruns henv hpassword
  · intro hstable stored w hreach
    have hkeeps : cx.Keeps w := by
      induction hreach with
      | refl => exact keeps_nil stored
      | tail _ hstep ih => exact ih.step hsound hstable hstep
    exact hkeeps.rotates

end Runs

/-! ### Two environments -/

section Examples

/-- A text that says where it ends. -/
def quoted (t : Text) : Text := t.flatMap (fun c => [',', c]) ++ [';']

theorem quoted_append_inj {t t' u u' : Text} (h : quoted t ++ u = quoted t' ++ u') :
    t = t' ∧ u = u' := by
  induction t generalizing t' with
  | nil =>
    cases t' with
    | nil => exact ⟨rfl, List.tail_eq_of_cons_eq h⟩
    | cons c' t' => exact absurd (List.head_eq_of_cons_eq h) (by decide)
  | cons c t ih =>
    cases t' with
    | nil => exact absurd (List.head_eq_of_cons_eq h) (by decide)
    | cons c' t' =>
      obtain ⟨hc, hrest⟩ := List.cons.inj (List.tail_eq_of_cons_eq h)
      obtain ⟨rfl, hu⟩ := ih hrest
      exact ⟨by rw [hc], hu⟩

def digit (b : Bool) : Text := if b then ['1'] else ['0']

theorem digit_append_inj {b b' : Bool} {u u' : Text} (h : digit b ++ u = digit b' ++ u') :
    b = b' ∧ u = u' := by
  cases b <;> cases b' <;>
    first
    | exact ⟨rfl, List.tail_eq_of_cons_eq h⟩
    | exact absurd (List.head_eq_of_cons_eq h) (by decide)

/-- A digest that keeps everything. -/
def wholeRevision (fields : RevisionFields) : Text :=
  quoted fields.baseEnvRevision ++ (digit fields.bootstrapRequired ++ (digit fields.enabled ++
    (digit fields.forceRotate ++ (quoted fields.passwordHash ++ (digit fields.runtimeOverride ++
      (quoted fields.username ++ []))))))

theorem wholeRevision_injective : Function.Injective wholeRevision := by
  rintro ⟨base, bootstrap, enabled, force, hash, override, username⟩
    ⟨base', bootstrap', enabled', force', hash', override', username'⟩ h
  obtain ⟨hbase, h⟩ := quoted_append_inj h
  obtain ⟨hbootstrap, h⟩ := digit_append_inj h
  obtain ⟨henabled, h⟩ := digit_append_inj h
  obtain ⟨hforce, h⟩ := digit_append_inj h
  obtain ⟨hhash, h⟩ := quoted_append_inj h
  obtain ⟨hoverride, h⟩ := digit_append_inj h
  obtain ⟨husername, -⟩ := quoted_append_inj h
  exact RevisionFields.mk.injEq .. ▸ ⟨hbase, hbootstrap, henabled, hforce, hhash, hoverride,
    husername⟩

/-- A digest that tells the password `p` from all others. -/
def digestOf (password : Text) : Text :=
  if password = "p".toList then "AAAA".toList else "BBBB".toList

/-- An environment with the hash. -/
def adminWith (hash : Text) : AdminContext where
  lowerCase := lower
  settings := { exampleSettings with localAdminPasswordHash := hash }
  digest := wholeRevision
  envDigest := fun _ => "e".toList
  pbkdf2 := fun password _ => digestOf password
  checks := fun _ _ digest password => digest = digestOf password

theorem sound_adminWith (hash : Text) : (adminWith hash).Sound where
  lowers := lowers_lower
  digest := wholeRevision_injective
  base64 := by
    intro password _
    show IsBase64 (digestOf password)
    rw [digestOf]
    split <;> exact ⟨List.cons_ne_nil _ _, by decide⟩

/-- The world after the first login. -/
def firstSession (hash : Text) : AdminWorld where
  stored := (adminWith hash).afterLoad none
  log := [.issued (adminWith hash).env ((adminWith hash).token (adminWith hash).env 0 900 ['j'])]

/-- The hash with a salt. -/
def saltedHash : Text := "pbkdf2_sha256$600000$AAAA$AAAA".toList

/-- A hash with an empty salt, in which every dollar sign was doubled twice. -/
def doubledHash : Text := "pbkdf2_sha256$$$$600000$$$$$$$$AAAA".toList

/-- A password that may be set. -/
def longPassword : Text := "a longer password".toList

/-- The state after the password was changed. -/
def changedState : LocalAdminState :=
  (adminWith saltedHash).persist (((adminWith saltedHash).load
    (adminWith saltedHash).env.stored).renew
      (buildLocalAdminPasswordHash (adminWith saltedHash) longPassword "CCCC".toList) 7)

/-- **An administrator whose hash is as it was built** logs in, changes the password and logs in
again: the first session is over, the second one is accepted. -/
theorem rotates_iff_salted : ∃ w : AdminWorld, (oldTokens w.log).length = 1 ∧
    (currentTokens w.log).length = 1 ∧ Rotates (adminWith saltedHash) w := by
  have hlogin : localAdminLogin (adminWith saltedHash) none true "admin_ai".toList "p".toList =
      .ok (adminWith saltedHash).env := by
    rw [localAdminLogin_eq_ok]
    exact ⟨rfl, by decide +kernel, rfl, by decide +kernel, by decide +kernel, rfl⟩
  have hchange : localAdminChangePassword (adminWith saltedHash) (firstSession saltedHash).stored
      (requestWith ((adminWith saltedHash).token (adminWith saltedHash).env 0 900 ['j']))
      "p".toList longPassword longPassword "CCCC".toList 7 = .ok changedState := by
    rfl
  have hagain : localAdminLogin (adminWith saltedHash) (some changedState.stored) true
      "admin_ai".toList longPassword = .ok ((adminWith saltedHash).load changedState.stored) := by
    rw [localAdminLogin_eq_ok]
    exact ⟨rfl, by decide +kernel, rfl, by decide +kernel, by decide +kernel, rfl⟩
  have hsalt : IsBase64 "CCCC".toList := ⟨List.cons_ne_nil _ _, by decide⟩
  have hfresh : FreshHash (firstSession saltedHash).log changedState := by
    intro event hevent
    obtain rfl := List.mem_singleton.mp hevent
    decide +kernel
  have hreach := ((Relation.ReflTransGen.single
    (AdminContext.Step.login ⟨none, []⟩ 0 900 ['j'] hlogin)).tail
    (AdminContext.Step.change (firstSession saltedHash) hchange hsalt hfresh)).tail
    (AdminContext.Step.login _ 8 900 ['k'] hagain)
  refine ⟨_, rfl, rfl, (rotates_iff (sound_adminWith saltedHash)).mpr ?_ none _ hreach⟩
  intro _ _
  decide +kernel

/-- **The first session is refused**: eight dollar signs stand in a row. -/
theorem not_rotates_doubled : ¬ ∀ cx : AdminContext, cx.Sound → ∀ stored w,
    Relation.ReflTransGen cx.Step ⟨stored, []⟩ w → Rotates cx w := by
  intro hall
  have hsound := sound_adminWith doubledHash
  have henv : (adminWith doubledHash).env.IsConfigured := by decide +kernel
  have hpassword : verifyLocalAdminPassword (adminWith doubledHash) "p".toList
      (adminWith doubledHash).env.passwordHash = true := by decide +kernel
  exact not_dollars_of_rotates hsound (hall _ hsound) henv hpassword (by decide +kernel)

end Examples

end Auth

end AiAgent

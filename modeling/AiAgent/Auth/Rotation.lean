import AiAgent.Auth.Revocation
import AiAgent.Command.Interleave
import Mathlib.Logic.Relation

/-!
# Refresh tokens are spent once, or twice

A request of `/api/refresh` asks whether its token is revoked, makes two new tokens, and then
revokes the old one. Between the asking and the revoking another request with the same token may
ask too, and then both are answered with new tokens (`AiAgent.Auth.not_spentOnce_twoRequests`).

Where no request is let through while another with the same token has been let through and has not
revoked it yet, nor in the last second of the token, when the key of an earlier revocation may be
gone (`AiAgent.Auth.unraced`), every token is spent once, and there is one live refresh token at
most to a login (`AiAgent.Auth.spentOnce_of_unraced`). The argument is what a request has done: one
that was let through is alone with its token, and one that has revoked its token has set a key that
stands as long as the token.
-/

namespace AiAgent

namespace Auth

open Text Command

/-! ### The store -/

/-- What a handler asks of the outside. -/
inductive AuthCmd where
  /-- `datetime.now`. -/
  | time
  /-- `uuid.uuid4().hex`. -/
  | newId
  /-- `EXISTS`. -/
  | keyExists (key : Text)
  /-- `SET`, with `ex`. -/
  | setKey (key : Text) (ttl : ℤ)

def AuthCmd.Reply : AuthCmd → Type
  | .time => ℚ
  | .newId => Text
  | .keyExists _ => Bool
  | .setKey _ _ => Unit

def authSig : Signature where
  Cmd := AuthCmd
  Reply := AuthCmd.Reply

abbrev AuthOp := Program authSig

/-- The clock, the keys, and how many identifiers were made. -/
structure AuthServer where
  clock : ℚ
  keys : Deadlines Text ℚ
  nextId : ℕ

def AuthCmd.exec (ids : ℕ → Text) (s : AuthServer) : (c : AuthCmd) → c.Reply × AuthServer
  | .time => (s.clock, s)
  | .newId => (ids s.nextId, { s with nextId := s.nextId + 1 })
  | .keyExists key => (s.keys.existsAt s.clock key, s)
  | .setKey key ttl => ((), { s with keys := s.keys.set key s.clock ttl })

/-- The identifiers come in some order. -/
def authStore (ids : ℕ → Text) : Store authSig AuthServer where
  exec := fun _ c s => c.exec ids s
  ready := fun _ _ => True
  drop := fun _ s => s

/-! ### The handlers -/

namespace AuthOp

def time : AuthOp ℚ := .send (S := authSig) .time

def newId : AuthOp Text := .send (S := authSig) .newId

def keyExists (key : Text) : AuthOp Bool := .send (S := authSig) (.keyExists key)

def setKey (key : Text) (ttl : ℤ) : AuthOp Unit := .send (S := authSig) (.setKey key ttl)

end AuthOp

/-- A request of `/api/refresh`. -/
structure RotationRequest where
  /-- `enforce_csrf` does not raise. -/
  csrfValid : Bool
  refreshCookie : Option Text
  /-- There is a client of the store. -/
  online : Bool

/-- What the program knows from outside: its settings, how texts are lowered and raised, how tokens
are signed and read, and how long they live. -/
structure AuthContext where
  lowerCase : Text → Text
  upperCase : Text → Text
  settings : Settings
  encode : Payload → Text
  decode : ℤ → Text → Option Payload
  readUnverified : Text → Option Payload
  accessLifetime : ℤ
  refreshLifetime : ℤ

namespace AuthOp

variable (cx : AuthContext)

/-- `is_token_revoked`. -/
def isTokenRevoked (payload : Payload) : AuthOp Bool :=
  match payload.jti with
  | none | some [] => pure true
  | some jti => keyExists (tokenRevocationKey jti)

/-- `create_access_token`, without the signature. -/
def createAccessToken (data : Payload) (lifetime : ℤ) : AuthOp Payload := do
  let issuedAt ← time
  let jti ← newId
  pure (Auth.createAccessToken data ⌊issuedAt⌋ lifetime jti)

/-- The two tokens that are made for a user. -/
def mintTokens (user : UserInfo) : AuthOp TokenPair := do
  let now ← time
  let access ← createAccessToken
    (buildTokenPayload cx.lowerCase cx.upperCase cx.settings ⌊now⌋ user accessTokenType)
    cx.accessLifetime
  let now ← time
  let refresh ← createAccessToken
    (buildTokenPayload cx.lowerCase cx.upperCase cx.settings ⌊now⌋ user refreshTokenType)
    cx.refreshLifetime
  pure ⟨access, refresh⟩

/-- `revoke_token`. -/
def revokeToken (online : Bool) (rawToken : Option Text) : AuthOp Bool := do
  let now ← time
  match Auth.revokeToken cx.readUnverified now online rawToken with
  | none => pure false
  | some (key, ttl) => do
    let _ ← setKey key ttl
    pure true

/-- `refresh_access_token`, once the token is found not to be revoked. -/
def rotate (request : RotationRequest) (payload : Payload) :
    AuthOp (Except HttpError TokenPair) := do
  let now ← time
  let currentUser := identityOf cx.lowerCase cx.upperCase cx.settings ⌊now⌋ payload
    (payload.sub.getD [])
  if currentUser.username = [] then pure (.error ⟨401, "Invalid refresh token".toList⟩)
  else do
    let pair ← mintTokens cx currentUser.info
    let _ ← revokeToken cx request.online request.refreshCookie
    pure (.ok pair)

/-- `refresh_access_token`. -/
def refreshAccessToken (request : RotationRequest) : AuthOp (Except HttpError TokenPair) :=
  if request.csrfValid = false then pure (.error ⟨403, "CSRF validation failed".toList⟩)
  else if request.refreshCookie.getD [] = [] then
    pure (.error ⟨401, "No refresh token".toList⟩)
  else do
    let now ← time
    match (extractBearerToken request.refreshCookie).bind (cx.decode ⌊now⌋) with
    | none => pure (.error ⟨401, "Invalid refresh token".toList⟩)
    | some payload =>
      if payload.type ≠ some refreshTokenType then
        pure (.error ⟨401, "Invalid refresh token".toList⟩)
      else if request.online = false then
        pure (.error ⟨503, "Сервис аутентификации временно недоступен.".toList⟩)
      else do
        let revoked ← isTokenRevoked payload
        if revoked then pure (.error ⟨401, "Invalid refresh token".toList⟩)
        else rotate cx request payload

end AuthOp

/-- What a client does: it sends a request of `/api/refresh`, or has a token revoked, as a logout
does. -/
inductive AuthCall where
  | refresh (request : RotationRequest)
  | revoke (online : Bool) (rawToken : Option Text)

/-- What it is answered. -/
inductive AuthAnswer where
  | refreshed (answer : Except HttpError TokenPair)
  | revoked (answer : Bool)

/-- The program of a call. -/
def AuthCall.body (cx : AuthContext) : AuthCall → AuthOp AuthAnswer
  | .refresh request => do
    let answer ← AuthOp.refreshAccessToken cx request
    pure (.refreshed answer)
  | .revoke online rawToken => do
    let answer ← AuthOp.revokeToken cx online rawToken
    pure (.revoked answer)

/-- The token that the call is about. -/
def AuthCall.token : AuthCall → Text
  | .refresh request => (extractBearerToken request.refreshCookie).getD []
  | .revoke _ rawToken => (extractBearerToken rawToken).getD []

/-- Any number of clients; time passes. -/
def auth (cx : AuthContext) (ids : ℕ → Text) : System authSig AuthServer AuthCall AuthAnswer where
  store := authStore ids
  body := AuthCall.body cx
  outside := fun s s' => s.clock ≤ s'.clock ∧ s' = { s with clock := s'.clock }

abbrev AuthWorld := World authSig AuthServer AuthCall AuthAnswer

abbrev AuthEntry := Command.Entry authSig AuthCall AuthAnswer

/-! ### Nobody else around -/

section Alone

variable (cx : AuthContext) (ids : ℕ → Text) (i : ℕ) (s : AuthServer)

/-- How tokens are made at a standing clock. -/
def mintingAt : Minting where
  accessBuiltAt := ⌊s.clock⌋
  accessIssuedAt := ⌊s.clock⌋
  accessLifetime := cx.accessLifetime
  accessJti := ids s.nextId
  refreshBuiltAt := ⌊s.clock⌋
  refreshIssuedAt := ⌊s.clock⌋
  refreshLifetime := cx.refreshLifetime
  refreshJti := ids (s.nextId + 1)

theorem run_mintTokens (user : UserInfo) :
    ((AuthOp.mintTokens cx user).run (authStore ids) i s).1 =
      mintTokens cx.lowerCase cx.upperCase cx.settings (mintingAt cx ids s) user := rfl

theorem run_rotate (request : RotationRequest) (payload : Payload) :
    ((AuthOp.rotate cx request payload).run (authStore ids) i s).1 =
      if (identityOf cx.lowerCase cx.upperCase cx.settings ⌊s.clock⌋ payload
        (payload.sub.getD [])).username = [] then .error ⟨401, "Invalid refresh token".toList⟩
      else .ok (mintTokens cx.lowerCase cx.upperCase cx.settings (mintingAt cx ids s)
        (identityOf cx.lowerCase cx.upperCase cx.settings ⌊s.clock⌋ payload
          (payload.sub.getD [])).info) := by
  have htime : AuthOp.time.run (authStore ids) i s = (s.clock, s) := rfl
  unfold AuthOp.rotate
  rw [Program.run_bind, htime]
  dsimp only
  split
  · rfl
  · rw [Program.run_bind, Program.run_bind, run_mintTokens]
    rfl

/-- **A request that runs alone** is answered what its token and the keys as they stand say. -/
theorem run_refreshAccessToken (request : RotationRequest) :
    ((AuthOp.refreshAccessToken cx request).run (authStore ids) i s).1 =
      refreshAccessToken cx.lowerCase cx.upperCase cx.settings cx.decode ⌊s.clock⌋ ⌊s.clock⌋
        (mintingAt cx ids s) ⟨request.csrfValid, request.refreshCookie,
          if request.online = true then some ⟨s.keys.existsAt s.clock, none⟩ else none⟩ := by
  unfold AuthOp.refreshAccessToken refreshAccessToken
  dsimp only
  split
  · rfl
  split
  · rfl
  rw [Program.run_bind]
  show (Program.run _ _ (match (extractBearerToken request.refreshCookie).bind
    (cx.decode ⌊s.clock⌋) with | none => _ | some payload => _) s).1 = _
  rcases (extractBearerToken request.refreshCookie).bind (cx.decode ⌊s.clock⌋) with _ | payload
  · rfl
  dsimp only
  split
  · rfl
  rcases request.online with _ | _
  · rfl
  rw [if_neg Bool.noConfusion, if_pos rfl, Program.run_bind]
  have hrevoked : (AuthOp.isTokenRevoked payload).run (authStore ids) i s =
      (isTokenRevoked ⟨s.keys.existsAt s.clock, none⟩ payload, s) := by
    unfold AuthOp.isTokenRevoked isTokenRevoked
    rcases payload.jti with _ | _ | ⟨c, t⟩
    · rfl
    · rfl
    · rfl
  rw [hrevoked]
  dsimp only
  split
  · rfl
  · exact run_rotate cx ids i s request payload

end Alone

/-! ### Spent once -/

/-- The new tokens of an entry that answers a request with the token. -/
def pairOf (token : Text) (e : AuthEntry) : Option TokenPair :=
  match e.act with
  | .finish (.refreshed (.ok pair)) => if e.op.token = token then some pair else none
  | _ => none

/-- The new tokens that requests with the token were answered with. -/
def answers (token : Text) (log : List AuthEntry) : List TokenPair := log.filterMap (pairOf token)

section Claim

variable (cx : AuthContext)

/-- A request with the first token was answered with the second as the new refresh token. -/
def Succeeds (w : AuthWorld) (token token' : Text) : Prop :=
  ∃ pair ∈ answers token w.log, cx.encode pair.refresh = token'

/-- What revokes the token is this key, and it expires then. -/
structure KeyOf (token key : Text) (exp : ℤ) : Prop where
  reads : ∃ payload jti, cx.readUnverified token = some payload ∧ payload.jti = some jti ∧
    jti ≠ [] ∧ key = tokenRevocationKey jti ∧ payload.exp = some exp

/-- The token can be spent: its last second has not begun, and it is not revoked. -/
def LiveIn (s : AuthServer) (token : Text) : Prop :=
  ∃ key exp, KeyOf cx token key exp ∧ s.clock < exp ∧ s.keys.existsAt s.clock key = false

/-- **Refresh tokens are spent once**: one request with a token is answered with new tokens at most,
and of all the refresh tokens that come from one login there is one at most that can be spent. -/
structure SpentOnce (w : AuthWorld) : Prop where
  once : ∀ token, (answers token w.log).length ≤ 1
  chain : ∀ login token token', Relation.ReflTransGen (Succeeds cx w) login token →
    Relation.ReflTransGen (Succeeds cx w) login token' →
    LiveIn cx w.shared token → LiveIn cx w.shared token' → token = token'

/-- Tokens are signed by `create_access_token` only, and are read as they were signed until they
expire. -/
structure Signing : Prop where
  decode_eq : ∀ now token, cx.decode now token =
    (cx.readUnverified token).filter fun payload => payload.exp.all fun exp => now ≤ exp
  created : ∀ token payload, cx.readUnverified token = some payload →
    ∃ data issuedAt lifetime jti, jti ≠ [] ∧
      payload = createAccessToken data issuedAt lifetime jti
  nil : cx.readUnverified [] = none

/-- No other token has the identifier of this one. -/
def owned (owner : Text → Text) (token : Text) : Bool :=
  (cx.readUnverified token).all fun payload => owner (payload.jti.getD []) = token

/-- Whether an act lets a client through, or ends that it was. -/
def lets : Act authSig AuthAnswer → Option Bool
  | .command (.keyExists _) r => some (!r)
  | .command .time _ => none
  | .command .newId _ => none
  | _ => some false

/-- The client has been let through with the token, and has not revoked it yet. -/
def letThrough (token : Text) (i : ℕ) : List AuthEntry → Bool
  | [] => false
  | e :: log =>
    if e.client = i then ((lets e.act).map (· && e.op.token = token)).getD (letThrough token i log)
    else letThrough token i log

/-- A request that is let through is alone with its token, and the last second of the token has not
begun. -/
def unraced (w : AuthWorld) (e : AuthEntry) : Bool :=
  match e.act with
  | .command (.keyExists _) r => r ||
    ((cx.readUnverified e.op.token).all fun payload =>
      payload.exp.all fun (exp : ℤ) => w.shared.clock < exp) &&
    w.log.all fun e' => e'.client = e.client || !letThrough e.op.token e'.client w.log
  | _ => true

/-- Runs in which requests do not race. -/
def unracedCalls (owner : Text → Text) : Rules authSig AuthServer AuthCall AuthAnswer where
  starts := fun call => owned cx owner call.token = true
  guard := fun w e => unraced cx w e = true

/-- Runs in which nothing is asked. -/
def anyAuthCalls (owner : Text → Text) : Rules authSig AuthServer AuthCall AuthAnswer where
  starts := fun call => owned cx owner call.token = true
  guard := fun _ _ => True

end Claim

/-! ### What a request has done -/

/-- How far a request has come with its token. -/
inductive Stage where
  /-- It was not let through. -/
  | waiting
  /-- It was let through. -/
  | letThrough
  /-- It has revoked the token. -/
  | spent
  deriving DecidableEq

/-- The token of a client, when it read the clock last, and how far it has come. -/
structure Spender where
  token : Text
  lastRead : ℚ
  stage : Stage

section Spender

variable (cx : AuthContext)

/-- A client asks for the key of its token, and sets it for the time that the token has left. -/
def spending : Discipline authSig Spender where
  may := fun g c =>
    match c with
    | .keyExists key => ∃ exp, KeyOf cx g.token key exp
    | .setKey key ttl => ∃ exp, KeyOf cx g.token key exp ∧ ttl = max 1 (exp - ⌊g.lastRead⌋)
    | _ => True
  after := fun g c r g' =>
    match c, r with
    | .time, now => g' = { g with lastRead := now } ∧ (1 : ℚ) ≤ now
    | .newId, _ => g' = g
    | .keyExists _, r => g' = { g with stage := bif r then .waiting else .letThrough }
    | .setKey _ _, _ => g' = if g.stage = .letThrough then { g with stage := .spent } else g

/-- A client that begins. -/
def spender (call : AuthCall) : Spender := ⟨call.token, 0, .waiting⟩

/-- Who is answered with new tokens has spent its own. -/
def Spent (_ : AuthCall) (answer : AuthAnswer) (g : Spender) : Prop :=
  ∀ pair, answer = .refreshed (.ok pair) → g.stage = .spent

variable {cx} {g : Spender} {token key : Text} {exp : ℤ} {rawToken : Option Text} {online : Bool}

/-- What is decoded was signed, and has not expired. -/
theorem Signing.of_decode (hsigning : Signing cx) {now : ℤ} {payload : Payload}
    (h : cx.decode now token = some payload) : cx.readUnverified token = some payload ∧
      ∀ exp ∈ payload.exp, now ≤ exp := by
  rw [hsigning.decode_eq] at h
  obtain ⟨hread, hlive⟩ := Option.filter_eq_some_iff.mp h
  refine ⟨hread, fun exp hexp => ?_⟩
  rw [hexp] at hlive
  exact of_decide_eq_true hlive

/-- What a revocation sets. -/
theorem keyOf_of_revokeToken {now : ℚ} {ttl : ℤ} (hsigning : Signing cx)
    (h : revokeToken cx.readUnverified now online rawToken = some (key, ttl)) :
    ∃ exp, KeyOf cx ((extractBearerToken rawToken).getD []) key exp ∧
      ttl = max 1 (exp - ⌊now⌋) := by
  obtain ⟨token, payload, heq, -, -, hread, -, -, rfl, rfl⟩ := revokeToken_eq_some.mp h
  obtain ⟨data, issuedAt, lifetime, jti, hjti, rfl⟩ := hsigning.created _ _ hread
  rw [heq]
  exact ⟨issuedAt + lifetime, ⟨_, jti, hread, rfl, hjti, rfl, rfl⟩, rfl⟩

/-- A token that can be read and is not of the beginning of time can be revoked. -/
theorem revokeToken_of_keyOf (hsigning : Signing cx) (h : KeyOf cx token key exp) (hexp : 0 < exp)
    (htoken : extractBearerToken rawToken = some token) (honline : online = true) (now : ℚ) :
    revokeToken cx.readUnverified now online rawToken = some (key, max 1 (exp - ⌊now⌋)) := by
  obtain ⟨payload, jti, hread, hjti, hne, rfl, hexpires⟩ := h.reads
  have hnil : token ≠ [] := by
    rintro rfl
    rw [hsigning.nil] at hread
    cases hread
  rw [revokeToken_eq_some]
  refine ⟨token, payload, htoken, hnil, honline, hread, ?_⟩
  rw [hjti, hexpires]
  exact ⟨hne, hexp, rfl, rfl⟩

end Spender

/-! ### The handlers keep to it -/

section Programs

variable {cx : AuthContext} {g : Spender}

variable {α : Type} {Q : α → Spender → Prop}

/-- Reading the clock. -/
theorem obeys_time {f : ℚ → AuthOp α}
    (h : ∀ now, 1 ≤ now → (f now).Obeys (spending cx) Q { g with lastRead := now }) :
    (AuthOp.time >>= f).Obeys (spending cx) Q g := by
  refine ⟨trivial, ?_⟩
  rintro now _ ⟨rfl, hnow⟩
  exact h now hnow

/-- Making an identifier. -/
theorem obeys_newId {f : Text → AuthOp α} (h : ∀ jti, (f jti).Obeys (spending cx) Q g) :
    (AuthOp.newId >>= f).Obeys (spending cx) Q g := by
  refine ⟨trivial, ?_⟩
  rintro jti _ rfl
  exact h jti

/-- Asking for the key of the own token. -/
theorem obeys_keyExists {key : Text} {f : Bool → AuthOp α} (hkey : ∃ exp, KeyOf cx g.token key exp)
    (hrevoked : (f true).Obeys (spending cx) Q { g with stage := .waiting })
    (hfree : (f false).Obeys (spending cx) Q { g with stage := .letThrough }) :
    (AuthOp.keyExists key >>= f).Obeys (spending cx) Q g := by
  refine ⟨hkey, ?_⟩
  rintro (_ | _) _ rfl
  · exact hfree
  · exact hrevoked

/-- Setting the key of the own token. -/
theorem obeys_setKey {key : Text} {ttl : ℤ} {f : Unit → AuthOp α}
    (hkey : ∃ exp, KeyOf cx g.token key exp ∧ ttl = max 1 (exp - ⌊g.lastRead⌋))
    (h : ∀ g', (g.stage = .letThrough → g'.stage = .spent) → (f ()).Obeys (spending cx) Q g') :
    (AuthOp.setKey key ttl >>= f).Obeys (spending cx) Q g := by
  refine ⟨hkey, ?_⟩
  rintro _ _ rfl
  exact h _ fun hstage => congrArg Spender.stage (if_pos hstage)

theorem obeys_createAccessToken {data : Payload} {lifetime : ℤ} {f : Payload → AuthOp α}
    (h : ∀ payload g', g'.token = g.token → g'.stage = g.stage →
      (f payload).Obeys (spending cx) Q g') :
    (AuthOp.createAccessToken data lifetime >>= f).Obeys (spending cx) Q g := by
  rw [Program.obeys_bind]
  refine obeys_time fun now _ => obeys_newId fun jti => ?_
  exact h _ _ rfl rfl

/-- Making tokens spends none. -/
theorem obeys_mintTokens {user : UserInfo} {f : TokenPair → AuthOp α}
    (h : ∀ pair g', g'.token = g.token → g'.stage = g.stage →
      (f pair).Obeys (spending cx) Q g') :
    (AuthOp.mintTokens cx user >>= f).Obeys (spending cx) Q g := by
  rw [Program.obeys_bind]
  refine obeys_time fun _ _ => obeys_createAccessToken fun access g₁ htoken₁ hstage₁ => ?_
  refine obeys_time fun _ _ => obeys_createAccessToken fun refresh g₂ htoken₂ hstage₂ => ?_
  exact h ⟨access, refresh⟩ g₂ (htoken₂.trans htoken₁) (hstage₂.trans hstage₁)

/-- **Revoking a token spends it**, if its request was let through. -/
theorem obeys_revokeToken (hsigning : Signing cx) {online : Bool} {rawToken : Option Text}
    (htoken : g.token = (extractBearerToken rawToken).getD []) :
    (AuthOp.revokeToken cx online rawToken).Obeys (spending cx)
      (fun _ g' => online = true → g.stage = .letThrough →
        (∃ key exp, KeyOf cx g.token key exp ∧ 0 < exp) → g'.stage = .spent) g := by
  refine obeys_time fun now _ => ?_
  rcases hset : revokeToken cx.readUnverified now online rawToken with _ | ⟨key, ttl⟩
  · -- Nothing is set, so the token cannot be read.
    rintro honline - ⟨key, exp, hkey, hexp⟩
    obtain ⟨payload, jti, hread, -⟩ := hkey.reads
    have hsome : extractBearerToken rawToken = some g.token := by
      rcases hextract : extractBearerToken rawToken with _ | token
      · rw [htoken, hextract, Option.getD_none, hsigning.nil] at hread
        cases hread
      · rw [htoken, hextract, Option.getD_some]
    rw [revokeToken_of_keyOf hsigning hkey hexp hsome honline now] at hset
    cases hset
  · obtain ⟨exp, hkey, rfl⟩ := keyOf_of_revokeToken hsigning hset
    rw [← htoken] at hkey
    refine obeys_setKey ⟨exp, hkey, rfl⟩ fun g' hspent => ?_
    exact fun _ hstage _ => hspent hstage

/-- A request that is refused need not have spent its token. -/
theorem obeys_error (e : HttpError) :
    (pure (.error e) : AuthOp (Except HttpError TokenPair)).Obeys (spending cx)
      (fun answer g' => ∀ pair, answer = .ok pair → g'.stage = .spent) g := by
  rintro pair ⟨⟩

/-- Once it was let through, a request spends its token before it is answered. -/
theorem obeys_rotate (hsigning : Signing cx) {request : RotationRequest} {payload : Payload}
    (htoken : g.token = (extractBearerToken request.refreshCookie).getD [])
    (honline : request.online = true) (hstage : g.stage = .letThrough)
    (hkey : ∃ key exp, KeyOf cx g.token key exp ∧ 0 < exp) :
    (AuthOp.rotate cx request payload).Obeys (spending cx)
      (fun answer g' => ∀ pair, answer = .ok pair → g'.stage = .spent) g := by
  refine obeys_time fun now _ => ?_
  dsimp only
  split
  · exact obeys_error _
  · refine obeys_mintTokens fun pair g₁ htoken₁ hstage₁ => ?_
    rw [Program.obeys_bind]
    refine (obeys_revokeToken hsigning (htoken₁.trans htoken)).mono fun _ g₂ hspent _ _ => ?_
    exact hspent honline (hstage₁.trans hstage) (by rwa [htoken₁])

/-- **A request keeps to it**, and spends its token if it is answered with new ones. -/
theorem obeys_refreshAccessToken (hsigning : Signing cx) {request : RotationRequest}
    (htoken : g.token = (extractBearerToken request.refreshCookie).getD []) :
    (AuthOp.refreshAccessToken cx request).Obeys (spending cx)
      (fun answer g' => ∀ pair, answer = .ok pair → g'.stage = .spent) g := by
  unfold AuthOp.refreshAccessToken
  split
  · exact obeys_error _
  split
  · exact obeys_error _
  refine obeys_time fun now hnow => ?_
  split
  · exact obeys_error _
  next payload hdecode =>
  split
  · exact obeys_error _
  split
  · exact obeys_error _
  next honline =>
  obtain ⟨token, hextract, hdecode⟩ := Option.bind_eq_some_iff.mp hdecode
  rw [hextract, Option.getD_some] at htoken
  obtain ⟨hread, hlive⟩ := hsigning.of_decode hdecode
  obtain ⟨data, issuedAt, lifetime, jti, hjti, rfl⟩ := hsigning.created _ _ hread
  -- What is asked for is the key under which this very token is revoked.
  have hkey : KeyOf cx g.token (tokenRevocationKey jti) (issuedAt + lifetime) := by
    rw [htoken]
    exact ⟨_, jti, hread, rfl, hjti, rfl, rfl⟩
  have hpos : 0 < issuedAt + lifetime := by
    have hone : 1 ≤ ⌊now⌋ := Int.le_floor.mpr (by exact_mod_cast hnow)
    exact hone.trans (hlive _ rfl)
  have hasks : AuthOp.isTokenRevoked (createAccessToken data issuedAt lifetime jti) =
      AuthOp.keyExists (tokenRevocationKey jti) := by
    obtain ⟨c, t, rfl⟩ := List.exists_cons_of_ne_nil hjti
    rfl
  rw [hasks]
  -- If the key is there the token is refused; otherwise the client goes on to spend it.
  refine obeys_keyExists ⟨_, hkey⟩ ?_ ?_
  · rw [if_pos rfl]
    exact obeys_error _
  · rw [if_neg Bool.false_ne_true]
    refine obeys_rotate hsigning ?_ (Bool.eq_true_of_not_eq_false honline) rfl ⟨_, _, hkey, hpos⟩
    rw [hextract, Option.getD_some]
    exact htoken

/-- Every call keeps to it. -/
theorem obeys_body (hsigning : Signing cx) (call : AuthCall) :
    (call.body cx).Obeys (spending cx) (Spent call) (spender call) := by
  rcases call with request | ⟨online, rawToken⟩
  · unfold AuthCall.body
    rw [Program.obeys_bind]
    refine (obeys_refreshAccessToken hsigning rfl).mono ?_
    rintro answer g' hspent pair ⟨⟩
    exact hspent pair rfl
  · unfold AuthCall.body
    rw [Program.obeys_bind]
    refine (obeys_revokeToken hsigning rfl).mono ?_
    rintro answer g' - pair h
    cases h

end Programs

/-! ### One with each token -/

section Invariant

variable {cx : AuthContext} {owner : Text → Text} {token token' key : Text} {exp exp' : ℤ}
  {s : AuthServer} {w : AuthWorld} {g : ℕ → Spender} {i : ℕ} {call : AuthCall}

theorem KeyOf.eq_of_token {key' : Text} (h : KeyOf cx token key exp)
    (h' : KeyOf cx token key' exp') : key = key' ∧ exp = exp' := by
  obtain ⟨payload, jti, hread, hjti, -, rfl, hexp⟩ := h.reads
  obtain ⟨payload', jti', hread', hjti', -, rfl, hexp'⟩ := h'.reads
  obtain rfl := Option.some.inj (hread.symm.trans hread')
  exact ⟨congrArg _ (Option.some.inj (hjti.symm.trans hjti')),
    Option.some.inj (hexp.symm.trans hexp')⟩

/-- The owner of a key. -/
theorem KeyOf.eq_of_key (h : KeyOf cx token key exp) (h' : KeyOf cx token' key exp')
    (howned : owned cx owner token = true) (howned' : owned cx owner token' = true) :
    token = token' := by
  obtain ⟨payload, jti, hread, hjti, -, rfl, -⟩ := h.reads
  obtain ⟨payload', jti', hread', hjti', -, hkey, -⟩ := h'.reads
  obtain rfl := tokenRevocationKey_injective hkey
  rw [owned, hread, Option.all_some, hjti, Option.getD_some, decide_eq_true_eq] at howned
  rw [owned, hread', Option.all_some, hjti', Option.getD_some, decide_eq_true_eq] at howned'
  rw [← howned, ← howned']

variable (cx) in
/-- The token is revoked as long as it lives, but for its last second. -/
def IsRevoked (s : AuthServer) (token : Text) : Prop :=
  ∀ key exp, KeyOf cx token key exp → s.keys.Until key exp

/-- The time that a token has left, counted from before. -/
theorem le_add_ttl {readAt setAt : ℚ} (h : readAt ≤ setAt) (exp : ℤ) :
    (exp : ℚ) ≤ setAt + (max 1 (exp - ⌊readAt⌋) : ℤ) := by
  have hrest : (exp - ⌊readAt⌋ : ℚ) ≤ (max 1 (exp - ⌊readAt⌋) : ℤ) := by
    exact_mod_cast le_max_right 1 (exp - ⌊readAt⌋)
  have hfloor := Int.floor_le readAt
  linarith

/-- **Setting a key revokes its token** and no key is cut short for another. -/
theorem isRevoked_set {readAt : ℚ} (hread : readAt ≤ s.clock) (hkey : KeyOf cx token key exp)
    (howned : owned cx owner token = true) (howned' : owned cx owner token' = true)
    (h : token' = token ∨ IsRevoked cx s token') : IsRevoked cx
      { s with keys := s.keys.set key s.clock (max 1 (exp - ⌊readAt⌋) : ℤ) } token' := by
  intro key' exp' hkey'
  rcases h with rfl | h
  · obtain ⟨rfl, rfl⟩ := hkey.eq_of_token hkey'
    exact Deadlines.until_set (le_add_ttl hread exp)
  · refine (h key' exp' hkey').set ?_
    rintro rfl
    obtain rfl := hkey.eq_of_key hkey' howned howned'
    obtain ⟨-, rfl⟩ := hkey.eq_of_token hkey'
    exact le_add_ttl hread exp

variable (cx owner) in
/-- **The state of the requests**: one at most that was let through or has spent its token for each
token, and none with a token that a request was answered for. -/
structure Rotating (w : AuthWorld) (g : ℕ → Spender) : Prop where
  clock : 1 ≤ w.shared.clock
  running : ∀ i task, w.tasks i = some task → (g i).token = task.op.token ∧
    (g i).lastRead ≤ w.shared.clock ∧ owned cx owner task.op.token = true
  through : ∀ i task, w.tasks i = some task → (g i).stage = .letThrough →
    letThrough task.op.token i w.log = true
  spent : ∀ i task, w.tasks i = some task → (g i).stage = .spent →
    IsRevoked cx w.shared task.op.token
  alone : ∀ i j task task', w.tasks i = some task → w.tasks j = some task' →
    (g i).stage ≠ .waiting → (g j).stage ≠ .waiting → task.op.token = task'.op.token → i = j
  answered : ∀ token, answers token w.log ≠ [] → owned cx owner token = true ∧
    IsRevoked cx w.shared token ∧
    ∀ i task, w.tasks i = some task → task.op.token = token → (g i).stage = .waiting
  once : ∀ token, (answers token w.log).length ≤ 1

/-- A client is the only one that goes on with its token. -/
def Alone (w : AuthWorld) (g : ℕ → Spender) (i : ℕ) (token : Text) : Prop :=
  answers token w.log = [] ∧
    ∀ j task, j ≠ i → w.tasks j = some task → task.op.token = token → (g j).stage = .waiting

theorem Rotating.isAlone (h : Rotating cx owner w g) {p : AuthOp AuthAnswer}
    (hi : w.tasks i = some ⟨call, p⟩) (hstage : (g i).stage ≠ .waiting) :
    Alone w g i call.token := by
  constructor
  · by_contra hne
    exact hstage ((h.answered _ hne).2.2 i _ hi rfl)
  · intro j task hne hj htoken
    by_contra hj'
    exact hne (h.alone j i task _ hj hi hj' hstage htoken)

theorem answers_cons (token : Text) (e : AuthEntry) (log : List AuthEntry) :
    answers token (e :: log) = (pairOf token e).toList ++ answers token log := by
  rw [answers, List.filterMap_cons]
  rcases pairOf token e with _ | pair <;> rfl

/-- Who was let through is in the history. -/
theorem exists_of_letThrough {log : List AuthEntry} (h : letThrough token i log = true) :
    ∃ e ∈ log, e.client = i := by
  induction log with
  | nil => cases h
  | cons e log ih =>
    by_cases hi : e.client = i
    · exact ⟨e, List.mem_cons_self, hi⟩
    · rw [letThrough, if_neg hi] at h
      obtain ⟨e', he', hi'⟩ := ih h
      exact ⟨e', List.mem_cons_of_mem e he', hi'⟩

theorem letThrough_cons_of_ne {e : AuthEntry} {log : List AuthEntry} {j : ℕ} (h : e.client ≠ j) :
    letThrough token j (e :: log) = letThrough token j log := if_neg h

/-- **A command** that cuts no key short; the client goes on with its token only alone. -/
theorem Rotating.move (h : Rotating cx owner w g) {p p' : AuthOp AuthAnswer}
    (hi : w.tasks i = some ⟨call, p⟩) {c : AuthCmd} {r : c.Reply} {t : Spender}
    (hclock : s.clock = w.shared.clock)
    (hkept : ∀ token', owned cx owner token' = true → IsRevoked cx w.shared token' →
      IsRevoked cx s token')
    (htoken : t.token = (g i).token) (hread : t.lastRead ≤ w.shared.clock)
    (hthrough : t.stage = .letThrough →
      letThrough call.token i (⟨i, call, .command (S := authSig) c r⟩ :: w.log) = true)
    (hspent : t.stage = .spent → IsRevoked cx s call.token)
    (halone : t.stage ≠ .waiting → Alone w g i call.token) :
    Rotating cx owner (w.record i call (.command (S := authSig) c r) s (some ⟨call, p'⟩))
      (Function.update g i t) := by
  have hanswers : ∀ token, answers token (⟨i, call, .command (S := authSig) c r⟩ :: w.log) =
      answers token w.log := fun token => answers_cons _ _ _
  have hrunning := h.running i _ hi
  constructor
  case clock =>
    rw [World.record_shared, hclock]
    exact h.clock
  case running =>
    intro j task hj
    rw [World.record_shared, hclock]
    rcases World.of_record_tasks hj with ⟨rfl, htask⟩ | ⟨hne, htask⟩
    · obtain rfl := Option.some.inj htask
      rw [Function.update_self]
      exact ⟨htoken.trans hrunning.1, hread, hrunning.2.2⟩
    · rw [Function.update_of_ne hne]
      exact h.running j task htask
  case through =>
    intro j task hj hstage
    rcases World.of_record_tasks hj with ⟨rfl, htask⟩ | ⟨hne, htask⟩
    · obtain rfl := Option.some.inj htask
      rw [Function.update_self] at hstage
      exact hthrough hstage
    · rw [Function.update_of_ne hne] at hstage
      rw [World.record_log, letThrough_cons_of_ne hne.symm]
      exact h.through j task htask hstage
  case spent =>
    intro j task hj hstage
    rcases World.of_record_tasks hj with ⟨rfl, htask⟩ | ⟨hne, htask⟩
    · obtain rfl := Option.some.inj htask
      rw [Function.update_self] at hstage
      exact hspent hstage
    · rw [Function.update_of_ne hne] at hstage
      exact hkept _ (h.running j task htask).2.2 (h.spent j task htask hstage)
  -- The client that moves is past waiting only where it is alone with its token.
  case alone =>
    intro j k task task' hj hk hjstage hkstage heq
    rcases World.of_record_tasks hj with ⟨rfl, hjtask⟩ | ⟨hjne, hjtask⟩
    · obtain rfl := Option.some.inj hjtask
      rw [Function.update_self] at hjstage
      rcases World.of_record_tasks hk with ⟨rfl, -⟩ | ⟨hkne, hktask⟩
      · rfl
      · rw [Function.update_of_ne hkne] at hkstage
        exact absurd ((halone hjstage).2 k task' hkne hktask heq.symm) hkstage
    · rw [Function.update_of_ne hjne] at hjstage
      rcases World.of_record_tasks hk with ⟨rfl, hktask⟩ | ⟨hkne, hktask⟩
      · obtain rfl := Option.some.inj hktask
        rw [Function.update_self] at hkstage
        exact absurd ((halone hkstage).2 j task hjne hjtask heq) hjstage
      · rw [Function.update_of_ne hkne] at hkstage
        exact h.alone j k task task' hjtask hktask hjstage hkstage heq
  -- A token that was answered stays revoked, and whoever still has it is waiting.
  case answered =>
    intro token hne
    rw [World.record_log, hanswers] at hne
    obtain ⟨howned, hrevoked, hwaiting⟩ := h.answered token hne
    refine ⟨howned, hkept token howned hrevoked, fun j task hj heq => ?_⟩
    rcases World.of_record_tasks hj with ⟨rfl, htask⟩ | ⟨hne', htask⟩
    · obtain rfl := Option.some.inj htask
      rw [Function.update_self]
      by_contra hstage
      obtain rfl : call.token = token := heq
      exact hne (halone hstage).1
    · rw [Function.update_of_ne hne']
      exact hwaiting j task htask heq
  case once =>
    intro token
    rw [World.record_log, hanswers]
    exact h.once token

end Invariant

/-! ### Every step keeps it -/

section Steps

variable {cx : AuthContext} {owner : Text → Text} {ids : ℕ → Text} {w : AuthWorld}
  {g : ℕ → Spender} {i : ℕ} {call : AuthCall} {token : Text}

/-- A client that does what lets it neither through nor spend is where it was. -/
theorem Rotating.stay (h : Rotating cx owner w g) {p p' : AuthOp AuthAnswer}
    (hi : w.tasks i = some ⟨call, p⟩) {c : AuthCmd} {r : c.Reply} {s : AuthServer}
    (hclock : s.clock = w.shared.clock) (hkeys : s.keys = w.shared.keys) {t : Spender}
    (htoken : t.token = (g i).token) (hread : t.lastRead ≤ w.shared.clock)
    (hstage : t.stage = (g i).stage)
    (hlets : t.stage = .letThrough → lets (.command (S := authSig) c r) = none) :
    Rotating cx owner (w.record i call (.command (S := authSig) c r) s (some ⟨call, p'⟩))
      (Function.update g i t) := by
  have hkept : ∀ token', IsRevoked cx w.shared token' → IsRevoked cx s token' := by
    intro token' hrevoked key exp hkey
    rw [hkeys]
    exact hrevoked key exp hkey
  refine h.move hi hclock (fun token' _ => hkept token') htoken hread ?_ ?_ ?_
  · intro hthrough
    rw [letThrough, if_pos rfl]
    dsimp only
    rw [hlets hthrough]
    exact h.through i _ hi (hstage ▸ hthrough)
  · intro hspent
    exact hkept _ (h.spent i _ hi (hstage ▸ hspent))
  · intro hgoes
    exact h.isAlone hi (hstage ▸ hgoes)

/-- **A request that is let through** is alone with its token. -/
theorem Rotating.letThrough (h : Rotating cx owner w g) {p p' : AuthOp AuthAnswer}
    (hi : w.tasks i = some ⟨call, p⟩) {key : Text} {exp : ℤ} (hkey : KeyOf cx call.token key exp)
    (hfree : w.shared.keys.existsAt w.shared.clock key = false)
    (hguard : unraced cx w ⟨i, call, .command (S := authSig) (.keyExists key) false⟩ = true) :
    Rotating cx owner (w.record i call (.command (S := authSig) (.keyExists key) false) w.shared
      (some ⟨call, p'⟩)) (Function.update g i { g i with stage := .letThrough }) := by
  obtain ⟨hclock, hothers⟩ := (Bool.and_eq_true _ _).mp hguard
  obtain ⟨payload, jti, hread, -, -, -, hexpires⟩ := hkey.reads
  dsimp only at hclock
  rw [hread, Option.all_some, hexpires, Option.all_some, decide_eq_true_eq] at hclock
  -- The key of a token that was revoked would stand.
  have hunrevoked : ¬ IsRevoked cx w.shared call.token := by
    intro hrevoked
    rw [(hrevoked key exp hkey).existsAt hclock] at hfree
    cases hfree
  refine h.move hi rfl (fun _ _ => id) rfl (h.running i _ hi).2.1 ?_ nofun ?_
  · intro _
    rw [Auth.letThrough, if_pos rfl]
    simp [lets]
  · intro _
    constructor
    · by_contra hne
      exact hunrevoked (h.answered _ hne).2.1
    · intro j task hne hj htoken
      rcases hstage : (g j).stage with _ | _ | _
      · rfl
      · -- Who was let through is in the history.
        have hthrough := h.through j task hj hstage
        rw [htoken] at hthrough
        obtain ⟨e, he, rfl⟩ := exists_of_letThrough hthrough
        have hother := List.all_eq_true.mp hothers e he
        dsimp only at hother
        rw [hthrough, decide_eq_false hne] at hother
        cases hother
      · have hrevoked := h.spent j task hj hstage
        rw [htoken] at hrevoked
        exact absurd hrevoked hunrevoked

/-- **A client that sets the key** has spent its token. -/
theorem Rotating.spend (h : Rotating cx owner w g) {p p' : AuthOp AuthAnswer}
    (hi : w.tasks i = some ⟨call, p⟩) {key : Text} {exp : ℤ} (hkey : KeyOf cx call.token key exp) :
    Rotating cx owner (w.record i call
      (.command (S := authSig) (.setKey key (max 1 (exp - ⌊(g i).lastRead⌋))) ())
      { w.shared with
        keys := w.shared.keys.set key w.shared.clock (max 1 (exp - ⌊(g i).lastRead⌋) : ℤ) }
      (some ⟨call, p'⟩))
      (Function.update g i (if (g i).stage = .letThrough then { g i with stage := .spent }
        else g i)) := by
  obtain ⟨-, hread, howned⟩ := h.running i _ hi
  have hrevokes : ∀ token', owned cx owner token' = true →
      token' = call.token ∨ IsRevoked cx w.shared token' → IsRevoked cx { w.shared with
        keys := w.shared.keys.set key w.shared.clock (max 1 (exp - ⌊(g i).lastRead⌋) : ℤ) }
          token' :=
    fun token' howned' => isRevoked_set hread hkey howned howned'
  refine h.move hi rfl (fun token' howned' => hrevokes token' howned' ∘ .inr) ?_ ?_ ?_ ?_ ?_
  · split
    · rfl
    · rfl
  · split
    · exact hread
    · exact hread
  · split
    · exact nofun
    · next hnot => exact fun hthrough => absurd hthrough hnot
  · exact fun _ => hrevokes _ howned (.inl rfl)
  · split
    · next hthrough =>
      intro _
      exact h.isAlone hi (by rw [hthrough]; nofun)
    · exact h.isAlone hi

/-- A client begins. -/
theorem Rotating.start (h : Rotating cx owner w g) {p : AuthOp AuthAnswer}
    (howned : owned cx owner call.token = true) :
    Rotating cx owner (w.record i call .start w.shared (some ⟨call, p⟩))
      (Function.update g i (spender call)) := by
  have hanswers : ∀ token, answers token (⟨i, call, .start⟩ :: w.log) = answers token w.log :=
    fun token => answers_cons _ _ _
  constructor
  case clock => exact h.clock
  case running =>
    intro j task hj
    rcases World.of_record_tasks hj with ⟨rfl, htask⟩ | ⟨hne, htask⟩
    · obtain rfl := Option.some.inj htask
      rw [Function.update_self]
      exact ⟨rfl, (zero_le_one (α := ℚ)).trans h.clock, howned⟩
    · rw [Function.update_of_ne hne]
      exact h.running j task htask
  case through =>
    intro j task hj hstage
    rcases World.of_record_tasks hj with ⟨rfl, -⟩ | ⟨hne, htask⟩
    · rw [Function.update_self] at hstage
      cases hstage
    · rw [Function.update_of_ne hne] at hstage
      rw [World.record_log, letThrough_cons_of_ne hne.symm]
      exact h.through j task htask hstage
  case spent =>
    intro j task hj hstage
    rcases World.of_record_tasks hj with ⟨rfl, -⟩ | ⟨hne, htask⟩
    · rw [Function.update_self] at hstage
      cases hstage
    · rw [Function.update_of_ne hne] at hstage
      exact h.spent j task htask hstage
  -- A client that starts is waiting, so there is nobody new to tell apart.
  case alone =>
    intro j k task task' hj hk hjstage hkstage heq
    rcases World.of_record_tasks hj with ⟨rfl, -⟩ | ⟨hjne, hjtask⟩
    · rw [Function.update_self] at hjstage
      exact absurd rfl hjstage
    · rcases World.of_record_tasks hk with ⟨rfl, -⟩ | ⟨hkne, hktask⟩
      · rw [Function.update_self] at hkstage
        exact absurd rfl hkstage
      · rw [Function.update_of_ne hjne] at hjstage
        rw [Function.update_of_ne hkne] at hkstage
        exact h.alone j k task task' hjtask hktask hjstage hkstage heq
  case answered =>
    intro token hne
    rw [World.record_log, hanswers] at hne
    obtain ⟨howned', hrevoked, hwaiting⟩ := h.answered token hne
    refine ⟨howned', hrevoked, fun j task hj heq => ?_⟩
    rcases World.of_record_tasks hj with ⟨rfl, -⟩ | ⟨hne', htask⟩
    · rw [Function.update_self]
      rfl
    · rw [Function.update_of_ne hne']
      exact hwaiting j task htask heq
  case once =>
    intro token
    rw [World.record_log, hanswers]
    exact h.once token

/-- **A client goes away**, and leaves the others as they are; it may be answered with new tokens
only if it is alone and its token is revoked. -/
theorem Rotating.leave (h : Rotating cx owner w g) {a : Act authSig AuthAnswer}
    (hpair : ∀ token, pairOf token ⟨i, call, a⟩ ≠ none → token = call.token ∧
      owned cx owner token = true ∧ IsRevoked cx w.shared token ∧ Alone w g i token) :
    Rotating cx owner (w.record i call a w.shared none) g := by
  have hothers : ∀ j task, (w.record i call a w.shared none).tasks j = some task →
      j ≠ i ∧ w.tasks j = some task := by
    intro j task hj
    rcases World.of_record_tasks hj with ⟨-, htask⟩ | hother
    · cases htask
    · exact hother
  constructor
  case clock => exact h.clock
  case running => exact fun j task hj => h.running j task (hothers j task hj).2
  case through =>
    intro j task hj hstage
    obtain ⟨hne, htask⟩ := hothers j task hj
    rw [World.record_log, letThrough_cons_of_ne hne.symm]
    exact h.through j task htask hstage
  case spent => exact fun j task hj => h.spent j task (hothers j task hj).2
  case alone =>
    exact fun j k task task' hj hk =>
      h.alone j k task task' (hothers j task hj).2 (hothers k task' hk).2
  -- Where the step is an answer, nobody but this client was past waiting with the token.
  case answered =>
    intro token hne
    rcases hp : pairOf token ⟨i, call, a⟩ with _ | pair
    · rw [World.record_log, answers_cons, hp] at hne
      obtain ⟨howned, hrevoked, hwaiting⟩ := h.answered token hne
      exact ⟨howned, hrevoked, fun j task hj => hwaiting j task (hothers j task hj).2⟩
    · obtain ⟨rfl, howned, hrevoked, -, halone⟩ := hpair token (by rw [hp]; nofun)
      exact ⟨howned, hrevoked, fun j task hj =>
        halone j task (hothers j task hj).1 (hothers j task hj).2⟩
  -- Before an answer there was none to the same token.
  case once =>
    intro token
    rw [World.record_log, answers_cons]
    rcases hp : pairOf token ⟨i, call, a⟩ with _ | pair
    · exact h.once token
    · obtain ⟨-, -, -, hnone, -⟩ := hpair token (by rw [hp]; nofun)
      rw [hnone]
      exact le_rfl

/-- **A request is answered.** -/
theorem Rotating.finish (h : Rotating cx owner w g) {answer : AuthAnswer}
    (hi : w.tasks i = some ⟨call, .done answer⟩) (hspent : Spent call answer (g i)) :
    Rotating cx owner (w.record i call (.finish answer) w.shared none) g := by
  refine h.leave fun token hpair => ?_
  unfold pairOf at hpair
  split at hpair
  · next pair heq =>
    obtain rfl := Act.finish.inj heq
    split at hpair
    · next htoken =>
      have hstage := hspent pair rfl
      obtain rfl := htoken
      exact ⟨rfl, (h.running i _ hi).2.2, h.spent i _ hi hstage,
        h.isAlone hi (by rw [hstage]; nofun)⟩
    · exact absurd rfl hpair
  · exact absurd rfl hpair

/-- Time passes. -/
theorem Rotating.outside (h : Rotating cx owner w g) {s : AuthServer}
    (hs : (auth cx ids).outside w.shared s) : Rotating cx owner { w with shared := s } g := by
  obtain ⟨hle, hsame⟩ := hs
  have hkept : ∀ token, IsRevoked cx w.shared token → IsRevoked cx s token := by
    intro token hrevoked key exp hkey
    rw [hsame]
    exact hrevoked key exp hkey
  constructor
  case clock => exact h.clock.trans hle
  case running =>
    intro j task hj
    obtain ⟨htoken, hread, howned⟩ := h.running j task hj
    exact ⟨htoken, hread.trans hle, howned⟩
  case through => exact h.through
  case spent => exact fun j task hj hstage => hkept _ (h.spent j task hj hstage)
  case alone => exact h.alone
  case answered =>
    intro token hne
    obtain ⟨howned, hrevoked, hwaiting⟩ := h.answered token hne
    exact ⟨howned, hkept token hrevoked, hwaiting⟩
  case once => exact h.once

/-- **A command.** -/
theorem Rotating.command (h : Rotating cx owner w g) {c : AuthCmd}
    {k : c.Reply → AuthOp AuthAnswer} (hi : w.tasks i = some ⟨call, .ask (S := authSig) c k⟩)
    (hmay : (spending cx).may (g i) c)
    (hguard : unraced cx w
      ⟨i, call, .command (S := authSig) c (c.exec ids w.shared).1⟩ = true) :
    ∃ t, (spending cx).after (g i) c (c.exec ids w.shared).1 t ∧
      Rotating cx owner (w.record i call (.command (S := authSig) c (c.exec ids w.shared).1)
        (c.exec ids w.shared).2 (some ⟨call, k (c.exec ids w.shared).1⟩))
        (Function.update g i t) := by
  obtain ⟨htoken, hread, -⟩ := h.running i _ hi
  rcases c with _ | _ | key | ⟨key, ttl⟩
  case time =>
    exact ⟨_, ⟨rfl, h.clock⟩, h.stay hi rfl rfl rfl le_rfl rfl fun _ => rfl⟩
  case newId =>
    refine ⟨_, rfl, h.stay hi ?_ ?_ rfl hread rfl fun _ => rfl⟩
    · rfl
    · rfl
  case keyExists =>
    obtain ⟨exp, hkey⟩ := hmay
    rw [htoken] at hkey
    refine ⟨_, rfl, ?_⟩
    dsimp only [AuthCmd.exec] at hguard ⊢
    rcases hexists : w.shared.keys.existsAt w.shared.clock key with _ | _
    · rw [hexists] at hguard
      exact h.letThrough hi hkey hexists hguard
    · exact h.move hi rfl (fun _ _ => id) rfl hread nofun nofun fun hne => absurd rfl hne
  case setKey =>
    obtain ⟨exp, hkey, rfl⟩ := hmay
    rw [htoken] at hkey
    exact ⟨_, rfl, h.spend hi hkey⟩

end Steps

/-! ### Runs -/

section Runs

variable {cx : AuthContext} {owner : Text → Text} {ids : ℕ → Text} {w : AuthWorld}

theorem tied_rotating (hsigning : Signing cx) :
    Tied (auth cx ids) (unracedCalls cx owner) (fun s => 1 ≤ s.clock) (spending cx) spender Spent
      (Rotating cx owner) where
  body := fun call _ => obeys_body hsigning call
  init := fun _ hs => ⟨fun _ => spender (.revoke false none), hs, nofun, nofun, nofun, nofun,
    fun _ hne => absurd rfl hne, fun _ => Nat.zero_le 1⟩
  start := fun _ _ _ _ h _ howned => h.start howned
  command := fun _ _ _ _ _ _ h hi _ hmay _ hguard => h.command hi hmay hguard
  finish := fun _ _ _ _ _ h hi hspent => h.finish hi hspent
  crash := fun _ _ _ _ _ h _ => h.leave fun _ hpair => absurd rfl hpair
  outside := fun _ _ _ h hs => h.outside hs

/-- **Where requests do not race, refresh tokens are spent once**, and there is one live one at most
to a login. -/
theorem spentOnce_of_unraced (hsigning : Signing cx)
    (hw : Reachable (auth cx ids) (unracedCalls cx owner) (fun s => 1 ≤ s.clock) w) :
    SpentOnce cx w := by
  obtain ⟨g, h, -⟩ := hw.ghosts (tied_rotating hsigning)
  refine ⟨h.once, ?_⟩
  intro login token token' hchain hchain' hlive hlive'
  -- Nothing comes from a token that can still be spent.
  have hend : ∀ t t', LiveIn cx w.shared t → Relation.ReflTransGen (Succeeds cx w) t t' →
      t = t' := by
    rintro t t' ⟨key, exp, hkey, hclock, hfree⟩ hchain
    rcases hchain.cases_head with rfl | ⟨t₁, ⟨pair, hpair, -⟩, -⟩
    · rfl
    · have hrevoked := (h.answered t (List.ne_nil_of_mem hpair)).2.1
      rw [(hrevoked key exp hkey).existsAt hclock] at hfree
      cases hfree
  -- What comes from a token is one token.
  have hunique : Relator.RightUnique (Succeeds cx w) := by
    rintro t _ _ ⟨pair, hpair, rfl⟩ ⟨pair', hpair', rfl⟩
    have honce := h.once t
    rcases hanswers : answers t w.log with _ | ⟨first, _ | ⟨second, rest⟩⟩
    · rw [hanswers] at hpair
      cases hpair
    · rw [hanswers] at hpair hpair'
      rw [List.mem_singleton.mp hpair, List.mem_singleton.mp hpair']
    · rw [hanswers] at honce
      simp at honce
  rcases Relation.ReflTransGen.total_of_right_unique hunique hchain hchain' with hc | hc
  · exact hend token token' hlive hc
  · exact (hend token' token hlive' hc).symm

end Runs

/-! ### Two requests -/

/-- Anna's refresh token is the one that can be read. -/
def annaContext : AuthContext where
  lowerCase := lower
  upperCase := List.map Char.toUpper
  settings := exampleSettings
  encode := fun payload => payload.jti.getD []
  decode := fun now token => (if token = "t".toList then some annaLogin.refresh else none).filter
    fun payload => payload.exp.all fun exp => now ≤ exp
  readUnverified := fun token => if token = "t".toList then some annaLogin.refresh else none
  accessLifetime := 900
  refreshLifetime := 604800

theorem signing_annaContext : Signing annaContext where
  decode_eq := fun _ _ => rfl
  created := by
    intro token payload h
    obtain ⟨-, h⟩ := Option.ite_none_right_eq_some.mp h
    obtain rfl := Option.some.inj h
    exact ⟨_, _, _, "r".toList, by decide, rfl⟩
  nil := by decide

def annaServer : AuthServer := ⟨20, Deadlines.empty, 0⟩

def annaRotation : RotationRequest := ⟨true, some "t".toList, true⟩

def exampleIds (n : ℕ) : Text := List.replicate (n + 1) 'i'

instance (call : AuthCall) :
    Decidable ((unracedCalls annaContext fun _ => "t".toList).starts call) :=
  inferInstanceAs (Decidable (_ = true))

instance (w : AuthWorld) (e : AuthEntry) :
    Decidable ((unracedCalls annaContext fun _ => "t".toList).guard w e) :=
  inferInstanceAs (Decidable (_ = true))

instance (call : AuthCall) :
    Decidable ((anyAuthCalls annaContext fun _ => "t".toList).starts call) :=
  inferInstanceAs (Decidable (_ = true))

instance (w : AuthWorld) (e : AuthEntry) :
    Decidable ((anyAuthCalls annaContext fun _ => "t".toList).guard w e) :=
  inferInstanceAs (Decidable True)

instance (c : authSig.Cmd) (s : AuthServer) :
    Decidable ((auth annaContext exampleIds).store.ready c s) := inferInstanceAs (Decidable True)

/-- Of two requests with the same token, one after the other, one is answered with new tokens. -/
theorem spentOnce_of_unraced_anna : ∃ w, (answers "t".toList w.log).length = 1 ∧
    SpentOnce annaContext w := by
  obtain ⟨w, -, hw, -, hp⟩ := World.exists_of_play (Y := auth annaContext exampleIds)
    (R := unracedCalls annaContext fun _ => "t".toList) (I := fun s => 1 ≤ s.clock)
    (s := annaServer) (by decide +kernel)
    (Turn.whole 0 (.refresh annaRotation) 12 ++ Turn.whole 1 (.refresh annaRotation) 3) []
    (p := fun w _ => (answers "t".toList w.log).length = 1) (by decide +kernel)
  exact ⟨w, of_decide_eq_true hp, spentOnce_of_unraced signing_annaContext hw⟩

/-- **A refresh token is spent twice**, by two requests that are both let through before either has
revoked it. -/
theorem not_spentOnce_twoRequests : ¬ ∀ (cx : AuthContext) (owner : Text → Text)
    (ids : ℕ → Text) (w : AuthWorld), Signing cx →
    Reachable (auth cx ids) (anyAuthCalls cx owner) (fun s => 1 ≤ s.clock) w →
    SpentOnce cx w := by
  intro hall
  obtain ⟨w, -, hw, -, hp⟩ := World.exists_of_play (Y := auth annaContext exampleIds)
    (R := anyAuthCalls annaContext fun _ => "t".toList) (I := fun s => 1 ≤ s.clock)
    (s := annaServer) (by decide +kernel)
    (Turn.whole 0 (.refresh annaRotation) 2 ++ Turn.whole 1 (.refresh annaRotation) 12 ++
      List.replicate 10 (.next 0)) []
    (p := fun w _ => (answers "t".toList w.log).length = 2) (by decide +kernel)
  have honce := (hall _ _ _ w signing_annaContext hw).once "t".toList
  rw [of_decide_eq_true hp] at honce
  exact absurd honce (by decide)

end Auth

end AiAgent

import AiAgent.Auth.Refresh
import AiAgent.Store.Expiry
import Mathlib.Algebra.Order.Floor.Ring
import Mathlib.Algebra.Order.Ring.Rat
import Mathlib.Data.Rat.Floor
import Mathlib.Tactic.Linarith

/-!
# Revoked tokens

A token is revoked by setting a key for as long as the token is still accepted. The token is
accepted in the whole of its last second, but the time the key stands is counted in whole seconds
from the moment it is set: a key that is set half a second after the clock was read for it is gone
half a second into the last second of the token, and for the rest of it the token is accepted again
(`AiAgent.Auth.not_neverAgain_halfSecond`).

It is not where the key is set in the last second of the token, or in a later second than the one
the clock was read in, and only there (`AiAgent.Auth.neverAgain_iff`). Times are rational numbers of
seconds, of which the program mostly sees the whole part.
-/

namespace AiAgent

namespace Auth

open Text

/-! ### Revoking -/

/-- A call of `revoke_token`: what it is given, when it reads the clock, and when its command is
executed. -/
structure RevokeCall where
  rawToken : Option Text
  /-- There is a client of the store. -/
  online : Bool
  readAt : ℚ
  setAt : ℚ

section Revoke

variable (readUnverified : Text → Option Payload)

/-- `revoke_token`: the key that is set, and for how many seconds, or nothing where it returns
`False`. -/
def revokeToken (readAt : ℚ) (online : Bool) (rawToken : Option Text) : Option (Text × ℤ) :=
  match extractBearerToken rawToken with
  | none | some [] => none
  | some token =>
    if online = false then none
    else
      (readUnverified token).bind fun payload =>
        let jti := payload.jti.getD []
        let exp := payload.exp.getD 0
        if jti = [] ∨ exp ≤ 0 then none
        else some (tokenRevocationKey jti, max 1 (exp - ⌊readAt⌋))

def RevokeCall.result (call : RevokeCall) : Option (Text × ℤ) :=
  revokeToken readUnverified call.readAt call.online call.rawToken

/-- The keys after a call. -/
def RevokeCall.run (call : RevokeCall) (keys : Deadlines Text ℚ) : Deadlines Text ℚ :=
  match call.result readUnverified with
  | none => keys
  | some (key, ttl) => keys.set key call.setAt ttl

/-- The keys after some calls, one after another. -/
def keysAfter (keys : Deadlines Text ℚ) (calls : List RevokeCall) : Deadlines Text ℚ :=
  calls.foldl (fun keys call => call.run readUnverified keys) keys

/-- The call revokes the token, and returns `True`. -/
def RevokeCall.Revokes (call : RevokeCall) (token : Text) : Prop :=
  extractBearerToken call.rawToken = some token ∧ call.result readUnverified ≠ none

end Revoke

theorem tokenRevocationKey_injective {jti jti' : Text}
    (h : tokenRevocationKey jti = tokenRevocationKey jti') : jti = jti' :=
  List.append_cancel_left h

/-! ### Accepting -/

section Accept

variable (lowerCase upperCase : Text → Text) (settings : Settings)
  (digest envDigest : RevisionFields → Text) (decode : ℤ → Text → Option Payload)

/-- **A token is accepted**, at some moment and with some keys standing: by `get_current_user`, by
`/api/refresh` or by `get_current_local_admin_session`, of a request that carries it. -/
def Accepts (token : Text) (keyExists : Text → Bool) (now : ℚ) : Prop :=
  (∃ (request : AuthRequest) (adminState : Option StoredAdminState) (identity : Identity),
    CarriesUserToken lowerCase request token ∧ request.store = some ⟨keyExists, adminState⟩ ∧
      getCurrentUser lowerCase upperCase settings decode ⌊now⌋ request = some identity) ∨
  (∃ (request : RefreshRequest) (adminState : Option StoredAdminState) (now' : ℤ)
      (minting : Minting) (pair : TokenPair),
    (request.refreshCookie = some token ∨ request.refreshCookie = some (bearer ++ token)) ∧
      request.store = some ⟨keyExists, adminState⟩ ∧
      refreshAccessToken lowerCase upperCase settings decode ⌊now⌋ now' minting request =
        .ok pair) ∨
  ∃ (request : AuthRequest) (adminState : Option StoredAdminState)
      (identity : LocalAdminIdentity),
    CarriesAdminToken request token ∧ request.store = some ⟨keyExists, adminState⟩ ∧
      getCurrentLocalAdminSession lowerCase settings digest envDigest decode ⌊now⌋ request =
        some identity

/-- The claims name somebody; of a refresh token, somebody whose name is valid. -/
def NamesSomebody (payload : Payload) : Prop :=
  if payload.type = some refreshTokenType then
    normalizeUsername lowerCase (payload.sub.getD []) ≠ []
  else payload.sub.getD [] ≠ []

variable {lowerCase upperCase settings digest envDigest decode} {token : Text} {payload : Payload}
  {keyExists : Text → Bool} {now : ℚ}

theorem isTokenRevoked_eq {store : AuthStore} {jti : Text} (hjti : payload.jti = some jti)
    (hne : jti ≠ []) : isTokenRevoked store payload = store.keyExists (tokenRevocationKey jti) := by
  obtain ⟨c, t, rfl⟩ := List.exists_cons_of_ne_nil hne
  rw [isTokenRevoked, hjti]

/-- **When a token is accepted by one of the three**: as long as it lives and its key does not
stand. -/
theorem accepts_iff (hsigned : SignedAs decode token payload) {jti : Text} {exp : ℤ}
    (hjti : payload.jti = some jti) (hne : jti ≠ []) (hexp : payload.exp = some exp) :
    Accepts lowerCase upperCase settings digest envDigest decode token keyExists now ↔
      NamesSomebody lowerCase payload ∧ ⌊now⌋ ≤ exp ∧
        keyExists (tokenRevocationKey jti) = false := by
  have hlive : (∀ e ∈ payload.exp, ⌊now⌋ ≤ e) ↔ ⌊now⌋ ≤ exp := by
    rw [hexp]
    exact ⟨fun h => h _ rfl, fun h e he => by rwa [← Option.some.inj he]⟩
  -- Three places accept a token, and each asks for its name, its time and its key.
  constructor
  · rintro (⟨request, adminState, identity, hcarries, hstore, h⟩ |
      ⟨request, adminState, now', minting, pair, hcookie, hstore, h⟩ |
      ⟨request, adminState, identity, hcarries, hstore, h⟩)
    · obtain ⟨hl, htype, ⟨store, hs, hrevoked⟩, username, hsub, hname, -⟩ :=
        (getCurrentUser_eq_some hcarries hsigned).mp h
      obtain rfl := Option.some.inj (hs.symm.trans hstore)
      rw [isTokenRevoked_eq hjti hne] at hrevoked
      refine ⟨?_, hlive.mp hl, hrevoked⟩
      rw [NamesSomebody, if_neg htype, hsub]
      exact hname
    · obtain ⟨-, hl, htype, ⟨store, hs, hrevoked⟩, hname, -⟩ :=
        (refreshAccessToken_eq_ok hcookie hsigned).mp h
      obtain rfl := Option.some.inj (hs.symm.trans hstore)
      rw [isTokenRevoked_eq hjti hne] at hrevoked
      refine ⟨?_, hlive.mp hl, hrevoked⟩
      rw [NamesSomebody, if_pos htype]
      exact hname
    · obtain ⟨hl, ⟨htype, -⟩, store, state, hs, -, hconfigured, hrevoked, hsub, -⟩ :=
        (getCurrentLocalAdminSession_eq_some hcarries hsigned).mp h
      obtain rfl := Option.some.inj (hs.symm.trans hstore)
      rw [isTokenRevoked_eq hjti hne] at hrevoked
      refine ⟨?_, hlive.mp hl, hrevoked⟩
      have hnot : payload.type ≠ some refreshTokenType := by
        rw [htype]
        decide
      rw [NamesSomebody, if_neg hnot, hsub]
      exact hconfigured.2.1
  -- One place is enough: the refresh for a refresh token, a route of the chat for any other.
  · rintro ⟨hnames, hl, hkey⟩
    have hrevoked : ∀ adminState, isTokenRevoked ⟨keyExists, adminState⟩ payload = false :=
      fun adminState => by
        rw [isTokenRevoked_eq hjti hne]
        exact hkey
    rw [NamesSomebody] at hnames
    by_cases htype : payload.type = some refreshTokenType
    · rw [if_pos htype] at hnames
      exact .inr (.inl ⟨⟨true, some token, some ⟨keyExists, none⟩⟩, none, 0,
        ⟨0, 0, 0, [], 0, 0, 0, []⟩, _, .inl rfl, rfl,
        (refreshAccessToken_eq_ok (.inl rfl) hsigned).mpr
          ⟨rfl, hlive.mpr hl, htype, ⟨_, rfl, hrevoked none⟩, hnames, rfl⟩⟩)
    · rw [if_neg htype] at hnames
      obtain ⟨username, hsub⟩ : ∃ username, payload.sub = some username := by
        rcases hsub : payload.sub with _ | username
        · rw [hsub] at hnames
          exact absurd rfl hnames
        · exact ⟨username, rfl⟩
      rw [hsub, Option.getD_some] at hnames
      exact .inl ⟨⟨some token, none, none, some ⟨keyExists, none⟩⟩, none, _, .inl rfl, rfl,
        (getCurrentUser_eq_some (.inl rfl) hsigned).mpr
          ⟨hlive.mpr hl, htype, ⟨_, rfl, hrevoked none⟩, username, hsub, hnames, rfl⟩⟩

end Accept

/-! ### How long a key stands -/

section Keys

variable {readUnverified : Text → Option Payload} {token : Text} {payload : Payload} {jti : Text}
  {exp : ℤ} {call : RevokeCall} {keys : Deadlines Text ℚ}

/-- **What `revoke_token` sets**, and when it sets anything. -/
theorem revokeToken_eq_some {readAt : ℚ} {online : Bool} {rawToken : Option Text} {key : Text}
    {ttl : ℤ} : revokeToken readUnverified readAt online rawToken = some (key, ttl) ↔
      ∃ token payload, extractBearerToken rawToken = some token ∧ token ≠ [] ∧ online = true ∧
        readUnverified token = some payload ∧ payload.jti.getD [] ≠ [] ∧
        0 < payload.exp.getD 0 ∧ key = tokenRevocationKey (payload.jti.getD []) ∧
        ttl = max 1 (payload.exp.getD 0 - ⌊readAt⌋) := by
  unfold revokeToken
  constructor
  · intro h
    split at h
    · cases h
    · cases h
    next token hne heq =>
    obtain ⟨honline, h⟩ := Option.ite_none_left_eq_some.mp h
    obtain ⟨payload, hread, h⟩ := Option.bind_eq_some_iff.mp h
    obtain ⟨hvalid, h⟩ := Option.ite_none_left_eq_some.mp h
    push Not at hvalid
    obtain ⟨rfl, rfl⟩ := Prod.mk.inj (Option.some.inj h)
    exact ⟨token, payload, heq, hne, Bool.eq_true_of_not_eq_false honline, hread, hvalid.1,
      hvalid.2, rfl, rfl⟩
  · rintro ⟨token, payload, heq, hne, rfl, hread, hjti, hexp, rfl, rfl⟩
    rw [heq]
    split
    · next hnone => cases hnone
    · next hnil => exact absurd (Option.some.inj hnil) hne
    next token' _ hsome =>
    obtain rfl := Option.some.inj hsome
    rw [if_neg (ne_false_of_eq_true rfl), hread, Option.bind_some]
    exact if_neg (not_or.mpr ⟨hjti, not_le.mpr hexp⟩)

/-- What a call that revokes the token sets. -/
theorem RevokeCall.Revokes.result_eq (h : call.Revokes readUnverified token)
    (hread : readUnverified token = some payload) (hjti : payload.jti = some jti)
    (hexp : payload.exp = some exp) : 0 < exp ∧ call.result readUnverified =
      some (tokenRevocationKey jti, max 1 (exp - ⌊call.readAt⌋)) := by
  obtain ⟨htoken, hresult⟩ := h
  obtain ⟨⟨key, ttl⟩, hset⟩ := Option.ne_none_iff_exists'.mp hresult
  obtain ⟨token', payload', heq, -, -, hread', -, hpos, rfl, rfl⟩ := revokeToken_eq_some.mp hset
  obtain rfl := Option.some.inj (htoken.symm.trans heq)
  obtain rfl := Option.some.inj (hread.symm.trans hread')
  rw [hset, hjti, hexp]
  rw [hexp] at hpos
  exact ⟨hpos, rfl⟩

/-- A call that sets the key of the token revokes the token, if no other token has its
identifier. -/
theorem RevokeCall.revokes_of_key (hunique : ∀ token' payload',
      readUnverified token' = some payload' → payload'.jti = some jti → token' = token)
    {ttl : ℤ} (h : call.result readUnverified = some (tokenRevocationKey jti, ttl)) :
    call.Revokes readUnverified token := by
  refine ⟨?_, by rw [h]; exact Option.some_ne_none _⟩
  obtain ⟨token', payload', heq, -, -, hread, hne, -, hkey, -⟩ := revokeToken_eq_some.mp h
  have hjti := tokenRevocationKey_injective hkey
  rcases hjti' : payload'.jti with _ | jti'
  · rw [hjti'] at hne
    exact absurd rfl hne
  · rw [hjti', Option.getD_some] at hjti
    rw [heq, hunique token' payload' hread (by rw [hjti', hjti])]

/-- **One call**: a key goes on standing if the call, should it set it, gives it time enough. -/
theorem RevokeCall.until_run {key : Text} {t : ℚ} (h : keys.Until key t)
    (hset : ∀ ttl, call.result readUnverified = some (key, ttl) → t ≤ call.setAt + ttl) :
    (call.run readUnverified keys).Until key t := by
  unfold RevokeCall.run
  rcases hresult : call.result readUnverified with _ | ⟨key', ttl⟩
  · exact h
  · refine h.set ?_
    rintro rfl
    exact hset ttl hresult

/-- **Some calls**: once the key was set it goes on standing. -/
theorem until_keysAfter {key : Text} {t : ℚ} {calls : List RevokeCall}
    (hset : ∀ call ∈ calls, ∀ ttl, call.result readUnverified = some (key, ttl) →
      t ≤ call.setAt + ttl)
    (h : keys.Until key t ∨ ∃ call ∈ calls, ∃ ttl, call.result readUnverified = some (key, ttl)) :
    (keysAfter readUnverified keys calls).Until key t := by
  induction calls generalizing keys with
  | nil =>
    rcases h with h | ⟨call, hcall, -⟩
    · exact h
    · cases hcall
  | cons call calls ih =>
    have hrest := fun c hc => hset c (List.mem_cons_of_mem call hc)
    have hthis := hset call List.mem_cons_self
    refine ih hrest ?_
    rcases h with h | ⟨c, hc, ttl, hresult⟩
    · exact .inl (RevokeCall.until_run h hthis)
    · rcases List.mem_cons.mp hc with rfl | hc
      · left
        show (RevokeCall.run readUnverified c keys).Until key t
        unfold RevokeCall.run
        rw [hresult]
        exact Deadlines.until_set (hthis ttl hresult)
      · exact .inr ⟨c, hc, ttl, hresult⟩

end Keys

/-! ### Accepted again -/

section Never

variable (lowerCase upperCase : Text → Text) (settings : Settings)
  (digest envDigest : RevisionFields → Text) (decode : ℤ → Text → Option Payload)
  (readUnverified : Text → Option Payload)

/-- The calls that may have been made up to some moment, in the order in which their commands were
executed. The revocations of the token are made at moments that occur: that of reading the clock,
and that of setting the key. -/
structure History (may : ℚ → ℚ → Prop) (token : Text) (calls : List RevokeCall) : Prop where
  causal : ∀ call ∈ calls, call.readAt ≤ call.setAt
  ordered : calls.Pairwise fun earlier later => earlier.setAt ≤ later.setAt
  occurs : ∀ call ∈ calls, call.Revokes readUnverified token → may call.readAt call.setAt

/-- The token was revoked by one of the calls, and is not accepted at any moment after them. -/
def NeverAgain (token : Text) (keys : Deadlines Text ℚ) (calls : List RevokeCall) : Prop :=
  ∀ call ∈ calls, call.Revokes readUnverified token →
    ∀ now, (∀ call' ∈ calls, call'.setAt ≤ now) →
      ¬ Accepts lowerCase upperCase settings digest envDigest decode token
        ((keysAfter readUnverified keys calls).existsAt now) now

/-- The key is set in the last second of the token or later, or in a later second than the one the
clock was read in. -/
def Outlasts (exp : ℤ) (readAt setAt : ℚ) : Prop := exp ≤ setAt ∨ ⌊readAt⌋ + 1 ≤ setAt

theorem Outlasts.le {exp : ℤ} {readAt setAt : ℚ} (h : Outlasts exp readAt setAt) :
    (exp + 1 : ℚ) ≤ setAt + (max 1 (exp - ⌊readAt⌋) : ℤ) := by
  rcases h with h | h
  · have hone : (1 : ℚ) ≤ (max 1 (exp - ⌊readAt⌋) : ℤ) := by exact_mod_cast le_max_left 1 _
    linarith
  · have hrest : (exp - ⌊readAt⌋ : ℚ) ≤ (max 1 (exp - ⌊readAt⌋) : ℤ) := by
      exact_mod_cast le_max_right 1 (exp - ⌊readAt⌋)
    linarith

/-- **A revoked token is never accepted again, precisely if its revocations outlast it**, unless it
names nobody or is too old to be revoked. -/
theorem neverAgain_iff {data : Payload} {issuedAt lifetime : ℤ} {jti token : Text}
    (hjti : jti ≠ [])
    (hsigned : SignedAs decode token (createAccessToken data issuedAt lifetime jti))
    (hread : readUnverified token = some (createAccessToken data issuedAt lifetime jti))
    (hunique : ∀ token' payload', readUnverified token' = some payload' →
      payload'.jti = some jti → token' = token)
    (may : ℚ → ℚ → Prop) (keys : Deadlines Text ℚ) :
    (∀ calls, History readUnverified may token calls →
      NeverAgain lowerCase upperCase settings digest envDigest decode readUnverified token keys
        calls) ↔
      (NamesSomebody lowerCase (createAccessToken data issuedAt lifetime jti) →
        0 < issuedAt + lifetime → ∀ readAt setAt, readAt ≤ setAt → may readAt setAt →
          Outlasts (issuedAt + lifetime) readAt setAt) := by
  have haccepts : ∀ keyExists now, Accepts lowerCase upperCase settings digest envDigest decode
      token keyExists now ↔ _ := fun _ _ => accepts_iff hsigned rfl hjti rfl
  constructor
  · intro hnever hnames hpos readAt setAt hcausal hmay
    by_contra hshort
    rw [Outlasts, not_or, not_le, not_le] at hshort
    -- A call that does not outlast the token, and a check once its key is gone.
    let call : RevokeCall := ⟨some token, true, readAt, setAt⟩
    have hresult : call.result readUnverified = some (tokenRevocationKey jti,
        max 1 (issuedAt + lifetime - ⌊readAt⌋)) := by
      exact revokeToken_eq_some.mpr
        ⟨token, _, extractBearerToken_self hsigned.ne_nil hsigned.noBlank, hsigned.ne_nil, rfl,
          hread, hjti, hpos, rfl, rfl⟩
    have hrevokes : call.Revokes readUnverified token :=
      ⟨extractBearerToken_self hsigned.ne_nil hsigned.noBlank, by rw [hresult]; nofun⟩
    have hhistory : History readUnverified may token [call] := by
      refine ⟨?_, List.pairwise_singleton _ _, ?_⟩
      · intro c hc
        obtain rfl := List.mem_singleton.mp hc
        exact hcausal
      · intro c hc _
        obtain rfl := List.mem_singleton.mp hc
        exact hmay
    have hfloor : ⌊readAt⌋ < issuedAt + lifetime :=
      Int.floor_lt.mpr (hcausal.trans_lt (by exact_mod_cast hshort.1))
    have httl : max 1 (issuedAt + lifetime - ⌊readAt⌋) = issuedAt + lifetime - ⌊readAt⌋ :=
      max_eq_right (by omega)
    refine hnever [call] hhistory call (List.mem_singleton.mpr rfl) hrevokes
      (setAt + (issuedAt + lifetime - ⌊readAt⌋ : ℤ)) ?_ ?_
    · intro c hc
      obtain rfl := List.mem_singleton.mp hc
      have hrest : (0 : ℚ) ≤ (issuedAt + lifetime - ⌊readAt⌋ : ℤ) := by
        exact_mod_cast (by omega : 0 ≤ issuedAt + lifetime - ⌊readAt⌋)
      exact le_add_of_nonneg_right hrest
    · refine (haccepts _ _).mpr ⟨hnames, ?_, ?_⟩
      · rw [← Int.lt_add_one_iff, Int.floor_lt]
        push_cast
        linarith [hshort.2]
      · show ((call.run readUnverified keys).existsAt _) _ = false
        unfold RevokeCall.run
        rw [hresult, httl]
        exact Deadlines.existsAt_set_of_le le_rfl
  · intro houtlasts calls hhistory call hcall hrevokes now hafter hisAccepted
    obtain ⟨hnames, hlive, hgone⟩ := (haccepts _ _).mp hisAccepted
    obtain ⟨hpos, hresult⟩ := hrevokes.result_eq hread rfl rfl
    have huntil : (keysAfter readUnverified keys calls).Until (tokenRevocationKey jti)
        ((issuedAt + lifetime : ℤ) + 1 : ℚ) := by
      refine until_keysAfter ?_ (.inr ⟨call, hcall, _, hresult⟩)
      intro call' hcall' ttl hset
      have hrevokes' := RevokeCall.revokes_of_key hunique hset
      obtain ⟨-, hresult'⟩ := hrevokes'.result_eq hread rfl rfl
      obtain ⟨-, rfl⟩ := Prod.mk.inj (Option.some.inj (hset.symm.trans hresult'))
      exact (houtlasts hnames hpos _ _ (hhistory.causal call' hcall')
        (hhistory.occurs call' hcall' hrevokes')).le
    have hnow : now < (issuedAt + lifetime : ℤ) + 1 := by
      rw [← Int.lt_add_one_iff, Int.floor_lt] at hlive
      exact_mod_cast hlive
    rw [huntil.existsAt hnow] at hgone
    cases hgone

end Never

/-! ### Half a second -/

/-- The access token of the example. -/
def exampleToken : Payload := (exampleMint .access).payload lower id exampleSettings

/-- The reading of that token alone. -/
def exampleReadUnverified (token : Text) : Option Payload :=
  if token = "t".toList then some exampleToken else none

theorem eq_of_exampleReadUnverified (token' : Text) (payload' : Payload)
    (h : exampleReadUnverified token' = some payload') (_ : payload'.jti = some "j".toList) :
    token' = "t".toList := by
  rw [exampleReadUnverified] at h
  split at h
  · assumption
  · cases h

/-- The token of the example is revoked in its last second. -/
def lateCall : RevokeCall := ⟨some "t".toList, true, 910, 910⟩

theorem history_lateCall :
    History exampleReadUnverified (fun readAt _ => 910 ≤ readAt) "t".toList [lateCall] := by
  refine ⟨?_, List.pairwise_singleton _ _, ?_⟩
  · intro c hc
    obtain rfl := List.mem_singleton.mp hc
    exact le_rfl
  · intro c hc _
    obtain rfl := List.mem_singleton.mp hc
    exact le_rfl

/-- A token that is revoked in its last second is not accepted again. -/
theorem neverAgain_lateCall :
    NeverAgain lower id exampleSettings (fun _ => "r".toList) (fun _ => "e".toList)
      (exampleDecode .access) exampleReadUnverified "t".toList Deadlines.empty [lateCall] := by
  refine (neverAgain_iff lower id exampleSettings (fun _ => "r".toList) (fun _ => "e".toList)
    (exampleDecode .access) exampleReadUnverified (by decide) (signedAs_example .access)
    (if_pos rfl) eq_of_exampleReadUnverified (fun readAt _ => 910 ≤ readAt)
    Deadlines.empty).mpr ?_ [lateCall] history_lateCall
  intro _ _ readAt setAt hcausal hlate
  left
  have hexp :
      (((exampleMint .access).issuedAt + (exampleMint .access).lifetime : ℤ) : ℚ) = 910 := by
    norm_num [exampleMint]
  rw [hexp]
  exact hlate.trans hcausal

/-- **A revoked token is accepted again**: revoked at half past a second, for as long as it lives in
whole seconds. -/
theorem not_neverAgain_halfSecond : ¬ ∀ (lowerCase upperCase : Text → Text) (settings : Settings)
    (digest envDigest : RevisionFields → Text) (decode : ℤ → Text → Option Payload)
    (readUnverified : Text → Option Payload) (data : Payload) (issuedAt lifetime : ℤ)
    (jti token : Text), jti ≠ [] →
    SignedAs decode token (createAccessToken data issuedAt lifetime jti) →
    readUnverified token = some (createAccessToken data issuedAt lifetime jti) →
    (∀ token' payload', readUnverified token' = some payload' → payload'.jti = some jti →
      token' = token) →
    ∀ (keys : Deadlines Text ℚ) (calls : List RevokeCall),
      History readUnverified (fun _ _ => True) token calls →
      NeverAgain lowerCase upperCase settings digest envDigest decode readUnverified token keys
        calls := by
  intro hall
  let call : RevokeCall := ⟨some "t".toList, true, 41 / 2, 41 / 2⟩
  have hresult : call.result exampleReadUnverified =
      some (tokenRevocationKey "j".toList, 890) := by decide +kernel
  have hhistory : History exampleReadUnverified (fun _ _ => True) "t".toList [call] := by
    refine ⟨?_, List.pairwise_singleton _ _, fun _ _ _ => trivial⟩
    intro c hc
    obtain rfl := List.mem_singleton.mp hc
    exact le_rfl
  refine hall lower id exampleSettings (fun _ => "r".toList) (fun _ => "e".toList)
    (exampleDecode .access) exampleReadUnverified _ _ _ "j".toList "t".toList (by decide)
    (signedAs_example .access) (if_pos rfl) eq_of_exampleReadUnverified Deadlines.empty [call]
    hhistory call (List.mem_singleton.mpr rfl) ⟨by decide, by rw [hresult]; nofun⟩
    (9107 / 10) ?_ ?_
  · intro c hc
    obtain rfl := List.mem_singleton.mp hc
    show (41 / 2 : ℚ) ≤ 9107 / 10
    norm_num
  · refine (accepts_iff (signedAs_example .access) rfl (by decide) rfl).mpr ⟨?_, ?_, ?_⟩
    · rw [NamesSomebody, if_neg (by decide)]
      decide +kernel
    · have hfloor : ⌊(9107 / 10 : ℚ)⌋ = 910 := by
        rw [Int.floor_eq_iff]
        norm_num
      rw [hfloor]
      decide
    · show ((call.run exampleReadUnverified Deadlines.empty).existsAt _) _ = false
      unfold RevokeCall.run
      rw [hresult]
      refine Deadlines.existsAt_set_of_le ?_
      show (41 / 2 + (890 : ℤ) : ℚ) ≤ 9107 / 10
      norm_num

end Auth

end AiAgent

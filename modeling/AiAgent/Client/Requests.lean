import AiAgent.Command.Locks
import Mathlib.Algebra.BigOperators.Group.List.Basic
import Mathlib.Algebra.GroupWithZero.Nat
import Mathlib.Algebra.Order.BigOperators.Group.List

/-!
# The requests of the browser

`APIClient.request` calls itself: once more after the session has been refreshed, and up to twice
after the server was busy. All requests of a page share one refresh: whoever is answered with 401
while a refresh is under way waits for that one (`AiAgent.Client.APIClient.tryRefresh`).

A request keeps account of how often it may still call itself
(`AiAgent.Client.APIClient.Request.Sound`), so it is fetched four times at most
(`AiAgent.Client.APIClient.fetches_le`). No two refreshes are under way at a time
(`AiAgent.Client.APIClient.one_refresh`), and nobody waits for one that is not
(`AiAgent.Client.APIClient.Shared`); so every request comes to its end, in whatever order the
answers arrive (`AiAgent.Client.APIClient.requests_end`).
-/

namespace AiAgent

open Command

namespace Client

namespace APIClient

/-! ### Requests -/

/-- The options of a request that bear on its retries. -/
structure Options where
  /-- `url.endsWith("/api/refresh")`. -/
  toRefresh : Bool
  retryOn503 : Bool
  autoRefresh : Bool

/-- How far a request has come. -/
inductive Stage where
  /-- It is fetched. -/
  | fetching
  /-- It waits until the `p`th request, a refresh, has settled. -/
  | refreshing (p : ℕ)
  /-- `tryRefresh` has returned. -/
  | refreshed (refreshed : Bool)
  /-- It waits to be made again. -/
  | waiting
  /-- It has returned a response, or it has thrown. -/
  | ended (returned : Bool)
  deriving DecidableEq

/-- `MAX_503_RETRIES`. -/
def max503Retries : ℕ := 2

/-- A call of `request`, with the calls it makes of itself. -/
structure Request where
  /-- The options it was first called with. -/
  options : Options
  /-- The `autoRefresh` of the present call. -/
  autoRefresh : Bool
  attempt : ℕ
  stage : Stage
  /-- How often it was fetched. -/
  fetches : ℕ

/-- A first call. -/
def Request.first (options : Options) : Request := ⟨options, options.autoRefresh, 0, .fetching, 1⟩

/-- The request that `tryRefresh` makes. -/
def refreshOptions : Options := ⟨true, false, false⟩

/-- A response: its status, and what `readRetryAfter` makes of it. -/
structure Response where
  status : ℕ
  retryAfterMs : ℕ

/-- `response.ok`. -/
def Response.ok (response : Response) : Bool := 200 ≤ response.status && response.status < 300

end APIClient

open APIClient

/-- An `APIClient`. -/
structure APIClient where
  requests : List Request
  /-- `this.refreshPromise`: the request it is the promise of. -/
  refreshPromise : Option ℕ
  /-- How often `onUnauthorized` was called. -/
  unauthorized : ℕ

namespace APIClient

/-- What happens. -/
inductive Input where
  /-- The page makes a request. -/
  | request (options : Options)
  | responded (k : ℕ) (response : Response)
  /-- `fetch` throws: the network failed, or the request was aborted. -/
  | failed (k : ℕ)
  /-- `wait` returns. -/
  | waited (k : ℕ)
  /-- `finally` clears the promise, and those that wait for it are woken. -/
  | refreshSettled
  /-- A request goes on that was woken. -/
  | resumed (k : ℕ)

/-- The `k`th request is now this. -/
def put (k : ℕ) (r : Request) (c : APIClient) : APIClient :=
  { c with requests := c.requests.set k r }

/-- The call that a request makes of itself is fetched. -/
def Request.fetch (r : Request) : Request :=
  { r with stage := .fetching, fetches := r.fetches + 1 }

/-- `tryRefresh`, up to where it waits. -/
def tryRefresh (k : ℕ) (r : Request) (c : APIClient) : APIClient :=
  match c.refreshPromise with
  | some p => c.put k { r with stage := .refreshing p }
  | none =>
    let p := c.requests.length
    { c with
      requests := c.requests.set k { r with stage := .refreshing p } ++ [.first refreshOptions]
      refreshPromise := some p }

/-- `request`, once `fetch` has returned a response. -/
def onResponse (k : ℕ) (r : Request) (response : Response) (c : APIClient) : APIClient :=
  if response.status = 401 && r.autoRefresh && !r.options.toRefresh then c.tryRefresh k r
  else if response.status = 503 && r.options.retryOn503 && r.attempt < max503Retries &&
      0 < response.retryAfterMs then c.put k { r with stage := .waiting }
  else c.put k { r with stage := .ended response.ok }

/-- A request that waits for a refresh is woken by it. -/
def wake (p : ℕ) (refreshed : Bool) (r : Request) : Request :=
  if r.stage = .refreshing p then { r with stage := .refreshed refreshed } else r

/-- One thing happens, if it can. -/
def step (c : APIClient) : Input → Option APIClient
  | .request options =>
    -- Nobody but `tryRefresh` asks for a refresh.
    if options.toRefresh then none
    else some { c with requests := c.requests ++ [.first options] }
  | .responded k response =>
    c.requests[k]?.bind fun r =>
      if r.stage = .fetching then some (c.onResponse k r response) else none
  | .failed k =>
    c.requests[k]?.bind fun r =>
      if r.stage = .fetching then some (c.put k { r with stage := .ended false }) else none
  | .waited k =>
    c.requests[k]?.bind fun r =>
      if r.stage = .waiting then some (c.put k { r.fetch with attempt := r.attempt + 1 }) else none
  | .refreshSettled =>
    c.refreshPromise.bind fun p =>
      c.requests[p]?.bind fun refresh =>
        match refresh.stage with
        | .ended refreshed =>
          some { c with
            requests := c.requests.map (wake p refreshed)
            refreshPromise := none }
        | _ => none
  | .resumed k =>
    c.requests[k]?.bind fun r =>
      match r.stage with
      | .refreshed true => some (c.put k { r.fetch with autoRefresh := false })
      | .refreshed false =>
        -- The response was a 401, so it throws.
        some { c.put k { r with stage := .ended false } with unauthorized := c.unauthorized + 1 }
      | _ => none

/-- The clients that are reached. -/
inductive Reached : APIClient → Prop
  | start : Reached ⟨[], none, 0⟩
  | step {c c' : APIClient} (h : Reached c) (input : Input) (hstep : c.step input = some c') :
      Reached c'

/-! ### The account of one request -/

/-- What a request may still do is what it was allowed, less what it has done. -/
structure Request.Sound (r : Request) : Prop where
  account : r.fetches + r.autoRefresh.toNat = 1 + r.options.autoRefresh.toNat + r.attempt
  attempts : r.attempt ≤ max503Retries * r.options.retryOn503.toNat
  waits : r.stage = .waiting → r.attempt < max503Retries * r.options.retryOn503.toNat
  refreshes : (∃ p, r.stage = .refreshing p) ∨ (∃ refreshed, r.stage = .refreshed refreshed) →
    r.autoRefresh = true ∧ r.options.toRefresh = false
  refresh : r.options.toRefresh = true → r.options = refreshOptions

/-- What is left of a request, if it is left to itself. -/
def Request.left (r : Request) : ℕ :=
  let retries := 3 * (max503Retries * r.options.retryOn503.toNat - r.attempt)
  match r.stage with
  | .fetching => 1 + 10 * r.autoRefresh.toNat + retries
  | .refreshing _ => 5 + retries
  | .refreshed _ => 4 + retries
  | .waiting => 10 * r.autoRefresh.toNat + retries
  | .ended _ => 0

/-- A request that is made by the page is sound. -/
theorem sound_first {options : Options}
    (h : options.toRefresh = true → options = refreshOptions) : (Request.first options).Sound := by
  refine ⟨?_, Nat.zero_le _, nofun, ?_, h⟩
  · simp [Request.first]
  · rintro (⟨p, hp⟩ | ⟨ok, hok⟩)
    · cases hp
    · cases hok

/-! ### What a step can do -/

/-- How a request goes on. -/
inductive Goes (c : APIClient) (r : Request) : Request → Prop
  | joins {p : ℕ} (hstage : r.stage = .fetching) (hauto : r.autoRefresh = true)
      (hto : r.options.toRefresh = false) (hp : c.refreshPromise = some p) :
      Goes c r { r with stage := .refreshing p }
  | backsOff (hstage : r.stage = .fetching) (hretry : r.options.retryOn503 = true)
      (hattempt : r.attempt < max503Retries) : Goes c r { r with stage := .waiting }
  | ends (hstage : r.stage = .fetching ∨ r.stage = .refreshed false) (returned : Bool) :
      Goes c r { r with stage := .ended returned }
  | again (hstage : r.stage = .waiting) : Goes c r { r.fetch with attempt := r.attempt + 1 }
  | resumes (hstage : r.stage = .refreshed true) : Goes c r { r.fetch with autoRefresh := false }

variable {c c' : APIClient}

/-- A request stays sound whatever it is answered. -/
theorem Goes.sound {r r' : Request} (hgoes : Goes c r r') (h : r.Sound) : r'.Sound := by
  obtain ⟨haccount, hattempts, hwaits, hrefreshes, hrefresh⟩ := h
  cases hgoes with
  | joins hstage hauto hto hp =>
    exact ⟨haccount, hattempts, nofun, fun _ => ⟨hauto, hto⟩, hrefresh⟩
  | backsOff hstage hretry hattempt =>
    refine ⟨haccount, hattempts, fun _ => ?_, by simp, hrefresh⟩
    rw [hretry]
    exact hattempt
  | ends hstage returned => exact ⟨haccount, hattempts, nofun, by simp, hrefresh⟩
  | again hstage =>
    refine ⟨?_, hwaits hstage, nofun, by simp [Request.fetch], hrefresh⟩
    simp only [Request.fetch]
    omega
  | resumes hstage =>
    have hauto := (hrefreshes (.inr ⟨true, hstage⟩)).1
    refine ⟨?_, hattempts, nofun, by simp [Request.fetch], hrefresh⟩
    simp only [Request.fetch, hauto, Bool.toNat_true, Bool.toNat_false] at haccount ⊢
    omega

/-- Whatever a request does, less is left of it. -/
theorem Goes.left_lt {r r' : Request} (hgoes : Goes c r r') (h : r.Sound) : r'.left < r.left := by
  cases hgoes with
  | joins hstage hauto hto hp =>
    simp only [Request.left, hstage, hauto, Bool.toNat_true]
    omega
  | backsOff hstage hretry hattempt =>
    simp only [Request.left, hstage]
    omega
  | ends hstage returned =>
    rcases hstage with hstage | hstage <;> simp only [Request.left, hstage] <;> omega
  | again hstage =>
    have hwaits := h.waits hstage
    simp only [Request.left, Request.fetch, hstage]
    omega
  | resumes hstage =>
    simp only [Request.left, Request.fetch, hstage, Bool.toNat_false]
    omega

/-- **All that a step can do.** -/
inductive Effect (c : APIClient) : Input → APIClient → Prop
  | issues {options : Options} (hto : options.toRefresh = false) :
      Effect c (.request options) { c with requests := c.requests ++ [.first options] }
  | goes {input : Input} {c' : APIClient} {k : ℕ} {r r' : Request}
      (hinput : ∀ options, input ≠ .request options)
      (hr : c.requests[k]? = some r) (hgoes : Goes c r r')
      (hrequests : c'.requests = c.requests.set k r')
      (hpromise : c'.refreshPromise = c.refreshPromise) : Effect c input c'
  | opens {input : Input} {k : ℕ} {r : Request} (hinput : ∀ options, input ≠ .request options)
      (hr : c.requests[k]? = some r) (hstage : r.stage = .fetching) (hauto : r.autoRefresh = true)
      (hto : r.options.toRefresh = false) (hnone : c.refreshPromise = none) :
      Effect c input { c with
        requests := c.requests.set k { r with stage := .refreshing c.requests.length } ++
          [.first refreshOptions]
        refreshPromise := some c.requests.length }
  | settles {p : ℕ} {refresh : Request} {refreshed : Bool} (hp : c.refreshPromise = some p)
      (hrefresh : c.requests[p]? = some refresh) (hstage : refresh.stage = .ended refreshed) :
      Effect c .refreshSettled { c with
        requests := c.requests.map (wake p refreshed)
        refreshPromise := none }

/-- A step is one of these effects. -/
theorem effect_step {input : Input} (hstep : c.step input = some c') : Effect c input c' := by
  cases input with
  | request options =>
    rw [step] at hstep
    split_ifs at hstep with hto
    obtain rfl := Option.some.inj hstep
    exact .issues (by simpa using hto)
  | responded k response =>
    obtain ⟨r, hr, hthen⟩ := Option.bind_eq_some_iff.mp hstep
    split_ifs at hthen with hstage
    obtain rfl := Option.some.inj hthen
    rw [onResponse]
    -- A refused request waits for a refresh, a busy server is asked again, and anything else ends
    -- it.
    split_ifs with hunauthorized hbusy
    · simp only [Bool.and_eq_true, Bool.not_eq_true'] at hunauthorized
      obtain ⟨⟨-, hauto⟩, hto⟩ := hunauthorized
      rw [tryRefresh]
      rcases hp : c.refreshPromise with - | p
      · exact .opens nofun hr hstage hauto hto hp
      · exact .goes nofun hr (.joins hstage hauto hto hp) rfl rfl
    · simp only [Bool.and_eq_true, decide_eq_true_eq] at hbusy
      exact .goes nofun hr (.backsOff hstage hbusy.1.1.2 hbusy.1.2) rfl rfl
    · exact .goes nofun hr (.ends (.inl hstage) _) rfl rfl
  | failed k =>
    obtain ⟨r, hr, hthen⟩ := Option.bind_eq_some_iff.mp hstep
    split_ifs at hthen with hstage
    obtain rfl := Option.some.inj hthen
    exact .goes nofun hr (.ends (.inl hstage) _) rfl rfl
  | waited k =>
    obtain ⟨r, hr, hthen⟩ := Option.bind_eq_some_iff.mp hstep
    split_ifs at hthen with hstage
    obtain rfl := Option.some.inj hthen
    exact .goes nofun hr (.again hstage) rfl rfl
  | refreshSettled =>
    obtain ⟨p, hp, hthen⟩ := Option.bind_eq_some_iff.mp hstep
    obtain ⟨refresh, hrefresh, hthen⟩ := Option.bind_eq_some_iff.mp hthen
    split at hthen
    next refreshed hstage =>
      obtain rfl := Option.some.inj hthen
      exact .settles hp hrefresh hstage
    · cases hthen
  -- The refresh is over: where it has succeeded the request is issued again.
  | resumed k =>
    obtain ⟨r, hr, hthen⟩ := Option.bind_eq_some_iff.mp hstep
    split at hthen
    next hstage =>
      obtain rfl := Option.some.inj hthen
      exact .goes nofun hr (.resumes hstage) rfl rfl
    next hstage =>
      obtain rfl := Option.some.inj hthen
      exact .goes nofun hr (.ends (.inr hstage) false) rfl rfl
    · cases hthen

/-! ### What the requests share -/

/-- **The invariant of the client.** -/
structure Shared (c : APIClient) : Prop where
  sound : ∀ r ∈ c.requests, r.Sound
  /-- The promise is that of a refresh. -/
  promised : ∀ p, c.refreshPromise = some p → ∃ r, c.requests[p]? = some r ∧
    r.options = refreshOptions
  /-- Who waits for a refresh waits for that one. -/
  waited : ∀ r ∈ c.requests, ∀ p, r.stage = .refreshing p → c.refreshPromise = some p
  /-- No other refresh is under way. -/
  flight : ∀ k r, c.requests[k]? = some r → r.options.toRefresh = true →
    (∃ returned, r.stage = .ended returned) ∨ c.refreshPromise = some k

/-- The options of a request never change. -/
theorem Goes.options_eq {r r' : Request} (h : Goes c r r') : r'.options = r.options := by
  cases h <;> rfl

/-- A request that has ended goes no further. -/
theorem Goes.not_ended {r r' : Request} (h : Goes c r r') (returned : Bool) :
    r.stage ≠ .ended returned := by
  cases h with
  | ends hstage _ => rcases hstage with hstage | hstage <;> simp [hstage]
  | _ => simp_all

/-- Who starts to wait waits for the refresh that is shared. -/
theorem Goes.waited {r r' : Request} (h : Goes c r r') {p : ℕ} (hp : r'.stage = .refreshing p) :
    c.refreshPromise = some p := by
  cases h with
  | joins _ _ _ hpromise => rwa [← Stage.refreshing.inj hp]
  | _ => cases hp

/-- What stands in a list after one element was set. -/
theorem getElem?_set_cases {α : Type} {l : List α} {k j : ℕ} {a b : α}
    (h : (l.set k a)[j]? = some b) : k = j ∧ b = a ∨ k ≠ j ∧ l[j]? = some b := by
  rw [List.getElem?_set] at h
  split_ifs at h with hk hlt
  · exact .inl ⟨hk, (Option.some.inj h).symm⟩
  · exact .inr ⟨hk, h⟩

/-- A request of the page is no refresh. -/
theorem Shared.issues (h : Shared c) {options : Options} (hto : options.toRefresh = false) :
    Shared { c with requests := c.requests ++ [.first options] } := by
  have hfirst : (Request.first options).Sound :=
    sound_first fun hrefresh => by simp [hto] at hrefresh
  refine ⟨?_, ?_, ?_, ?_⟩
  · intro r hr
    rcases List.mem_append.mp hr with hr | hr
    · exact h.sound r hr
    · exact List.mem_singleton.mp hr ▸ hfirst
  · intro p hp
    obtain ⟨r, hr, hoptions⟩ := h.promised p hp
    exact ⟨r, by rw [List.getElem?_append_left (List.getElem?_eq_some_iff.mp hr).1, hr], hoptions⟩
  · intro r hr p hp
    rcases List.mem_append.mp hr with hr | hr
    · exact h.waited r hr p hp
    · rw [List.mem_singleton.mp hr] at hp
      cases hp
  · intro k r hr hrefresh
    rcases lt_or_ge k c.requests.length with hlt | hge
    · rw [List.getElem?_append_left hlt] at hr
      exact h.flight k r hr hrefresh
    · rw [List.getElem?_append_right hge] at hr
      have hr' := List.mem_of_getElem? hr
      rw [List.mem_singleton.mp hr'] at hrefresh
      simp [Request.first, hto] at hrefresh

/-- A request that goes on leaves the promise alone. -/
theorem Shared.goes (h : Shared c) {k : ℕ} {r r' : Request} (hr : c.requests[k]? = some r)
    (hgoes : Goes c r r') (hrequests : c'.requests = c.requests.set k r')
    (hpromise : c'.refreshPromise = c.refreshPromise) : Shared c' := by
  have hlt := (List.getElem?_eq_some_iff.mp hr).1
  refine ⟨?_, ?_, ?_, ?_⟩
  · intro x hx
    rw [hrequests] at hx
    rcases List.mem_or_eq_of_mem_set hx with hx | rfl
    · exact h.sound x hx
    · exact hgoes.sound (h.sound r (List.mem_of_getElem? hr))
  · intro p hp
    obtain ⟨x, hx, hoptions⟩ := h.promised p (hpromise ▸ hp)
    rw [hrequests]
    by_cases hk : k = p
    · subst hk
      obtain rfl := Option.some.inj (hr.symm.trans hx)
      exact ⟨r', by simp [hlt], hgoes.options_eq.trans hoptions⟩
    · exact ⟨x, by rw [List.getElem?_set_ne hk, hx], hoptions⟩
  · intro x hx p hp
    rw [hpromise]
    rw [hrequests] at hx
    rcases List.mem_or_eq_of_mem_set hx with hx | rfl
    · exact h.waited x hx p hp
    · exact hgoes.waited hp
  · intro j x hx hrefresh
    rw [hpromise]
    rw [hrequests] at hx
    rcases getElem?_set_cases hx with ⟨rfl, rfl⟩ | ⟨-, hx⟩
    · -- It goes on, so it has not ended before.
      rw [hgoes.options_eq] at hrefresh
      refine .inr ((h.flight k r hr hrefresh).resolve_left ?_)
      rintro ⟨returned, hended⟩
      exact hgoes.not_ended returned hended
    · exact h.flight j x hx hrefresh

/-- A refresh is opened where none is shared, and shared from then on. -/
theorem Shared.opens (h : Shared c) {k : ℕ} {r : Request} (hr : c.requests[k]? = some r)
    (hauto : r.autoRefresh = true) (hto : r.options.toRefresh = false)
    (hnone : c.refreshPromise = none) :
    Shared { c with
      requests := c.requests.set k { r with stage := .refreshing c.requests.length } ++
        [.first refreshOptions]
      refreshPromise := some c.requests.length } := by
  have hlength : (c.requests.set k { r with stage := .refreshing c.requests.length }).length =
      c.requests.length := List.length_set
  refine ⟨?_, ?_, ?_, ?_⟩
  · intro x hx
    rcases List.mem_append.mp hx with hx | hx
    · rcases List.mem_or_eq_of_mem_set hx with hx | rfl
      · exact h.sound x hx
      · have hsound := h.sound r (List.mem_of_getElem? hr)
        exact ⟨hsound.account, hsound.attempts, nofun, fun _ => ⟨hauto, hto⟩, hsound.refresh⟩
    · exact List.mem_singleton.mp hx ▸ sound_first fun _ => rfl
  · intro p hp
    obtain rfl := Option.some.inj hp
    refine ⟨.first refreshOptions, ?_, rfl⟩
    rw [List.getElem?_append_right hlength.le, hlength, Nat.sub_self]
    rfl
  · intro x hx p hp
    rcases List.mem_append.mp hx with hx | hx
    · rcases List.mem_or_eq_of_mem_set hx with hx | rfl
      · have hwaited := h.waited x hx p hp
        simp [hnone] at hwaited
      · exact congrArg some (Stage.refreshing.inj hp)
    · rw [List.mem_singleton.mp hx] at hp
      cases hp
  -- The refresh that is opened is the only one under way.
  · intro j x hx hrefresh
    rcases lt_or_ge j c.requests.length with hlt | hge
    · rw [List.getElem?_append_left (hlength.symm ▸ hlt)] at hx
      rcases getElem?_set_cases hx with ⟨rfl, rfl⟩ | ⟨-, hx⟩
      · simp [hto] at hrefresh
      · rcases h.flight j x hx hrefresh with hended | hpromise
        · exact .inl hended
        · simp [hnone] at hpromise
    · refine .inr (congrArg some (le_antisymm ?_ ?_))
      · exact hge
      · have hj := (List.getElem?_eq_some_iff.mp hx).1
        rw [List.length_append, hlength, List.length_singleton] at hj
        omega

/-- All that wait for the refresh are woken, so nobody waits for it any more. -/
theorem Shared.settles (h : Shared c) {p : ℕ} {refresh : Request} {refreshed : Bool}
    (hp : c.refreshPromise = some p) (hrefresh : c.requests[p]? = some refresh)
    (hstage : refresh.stage = .ended refreshed) :
    Shared { c with requests := c.requests.map (wake p refreshed), refreshPromise := none } := by
  refine ⟨?_, nofun, ?_, ?_⟩
  · intro x hx
    obtain ⟨r, hr, rfl⟩ := List.mem_map.mp hx
    have hsound := h.sound r hr
    rw [wake]
    split_ifs with hwoken
    · exact ⟨hsound.account, hsound.attempts, nofun,
        fun _ => hsound.refreshes (.inl ⟨p, hwoken⟩), hsound.refresh⟩
    · exact hsound
  · intro x hx p' hp'
    obtain ⟨r, hr, rfl⟩ := List.mem_map.mp hx
    rw [wake] at hp'
    split_ifs at hp' with hwoken
    · -- It has waited for another one, but there is no other.
      have hother := h.waited r hr p' hp'
      rw [hp] at hother
      exact absurd (Option.some.inj hother ▸ hp') hwoken
  · intro k x hx hto
    rw [List.getElem?_map, Option.map_eq_some_iff] at hx
    obtain ⟨r, hr, rfl⟩ := hx
    have hoptions : (wake p refreshed r).options = r.options := by
      rw [wake]
      split_ifs <;> rfl
    rw [hoptions] at hto
    have hended : ∃ returned, r.stage = .ended returned := by
      rcases h.flight k r hr hto with hended | hpromise
      · exact hended
      · obtain rfl := Option.some.inj (hp.symm.trans hpromise)
        obtain rfl := Option.some.inj (hrefresh.symm.trans hr)
        exact ⟨refreshed, hstage⟩
    obtain ⟨returned, hended⟩ := hended
    refine .inl ⟨returned, ?_⟩
    rw [wake, if_neg (by simp [hended])]
    exact hended

/-- One effect after the other. -/
theorem Shared.step {input : Input} (h : Shared c) (heffect : Effect c input c') : Shared c' := by
  cases heffect with
  | issues hto => exact h.issues hto
  | goes _ hr hgoes hrequests hpromise => exact h.goes hr hgoes hrequests hpromise
  | opens _ hr _ hauto hto hnone => exact h.opens hr hauto hto hnone
  | settles hp hrefresh hstage => exact h.settles hp hrefresh hstage

/-- From a client that has not been used on. -/
theorem shared_of_reached (h : Reached c) : Shared c := by
  induction h with
  | start => exact ⟨nofun, nofun, nofun, nofun⟩
  | step _ input hstep ih => exact ih.step (effect_step hstep)

/-! ### What the page can rely on -/

/-- **A request is fetched four times at most**: once more if the session may be refreshed, and
twice more if it may be retried. -/
theorem fetches_le (h : Reached c) {r : Request} (hr : r ∈ c.requests) :
    r.fetches ≤ 1 + r.options.autoRefresh.toNat + max503Retries * r.options.retryOn503.toNat := by
  have hsound := (shared_of_reached h).sound r hr
  have haccount := hsound.account
  have hattempts := hsound.attempts
  omega

/-- **One refresh at a time**: of two requests that refresh the session one has ended. -/
theorem one_refresh (h : Reached c) {j k : ℕ} {r s : Request} (hr : c.requests[j]? = some r)
    (hs : c.requests[k]? = some s) (hrto : r.options.toRefresh = true)
    (hsto : s.options.toRefresh = true) (hne : j ≠ k) :
    (∃ returned, r.stage = .ended returned) ∨ ∃ returned, s.stage = .ended returned := by
  have hshared := shared_of_reached h
  rcases hshared.flight j r hr hrto with hended | hj
  · exact .inl hended
  rcases hshared.flight k s hs hsto with hended | hk
  · exact .inr hended
  · exact absurd (Option.some.inj (hj.symm.trans hk)) hne

/-! ### Every request ends -/

/-- Something happens to the requests there are. -/
def Advance (c c' : APIClient) : Prop :=
  ∃ input, (∀ options, input ≠ .request options) ∧ c.step input = some c'

/-- What is left to happen. -/
def left (c : APIClient) : ℕ := (c.requests.map Request.left).sum + c.refreshPromise.isSome.toNat

/-- What is left of all requests changes by what is left of one. -/
theorem sum_left_set {l : List Request} {k : ℕ} {r : Request} (r' : Request)
    (hr : l[k]? = some r) :
    ((l.set k r').map Request.left).sum + r.left = (l.map Request.left).sum + r'.left := by
  induction l generalizing k with
  | nil => cases hr
  | cons x l ih =>
    cases k with
    | zero =>
      obtain rfl : x = r := by simpa using hr
      simp only [List.set_cons_zero, List.map_cons, List.sum_cons]
      omega
    | succ k =>
      have hrest := ih (by simpa using hr)
      simp only [List.set_cons_succ, List.map_cons, List.sum_cons]
      omega

/-- Being woken takes nothing off. -/
theorem left_wake_le (p : ℕ) (refreshed : Bool) (r : Request) :
    (wake p refreshed r).left ≤ r.left := by
  rw [wake]
  split_ifs with hwoken
  · simp only [Request.left, hwoken]
    omega
  · exact le_rfl

/-- **Whatever happens, less is left to happen.** -/
theorem left_lt {input : Input} (h : Shared c) (hinput : ∀ options, input ≠ .request options)
    (heffect : Effect c input c') : c'.left < c.left := by
  cases heffect with
  | @issues options _ => exact absurd rfl (hinput options)
  | @goes _ _ k r r' _ hr hgoes hrequests hpromise =>
    have hless := hgoes.left_lt (h.sound r (List.mem_of_getElem? hr))
    have hsum := sum_left_set r' hr
    rw [left, left, hrequests, hpromise]
    omega
  | @opens _ k r _ hr hstage hauto _ hnone =>
    have hsum := sum_left_set { r with stage := .refreshing c.requests.length } hr
    have hrefresh : (Request.first refreshOptions).left = 1 := rfl
    have hless : Request.left { r with stage := .refreshing c.requests.length } + 6 = r.left := by
      simp only [Request.left, hstage, hauto, Bool.toNat_true]
      omega
    simp only [left, List.map_append, List.sum_append, List.map_singleton, List.sum_singleton,
      hrefresh, hnone, Option.isSome_some, Option.isSome_none, Bool.toNat_true, Bool.toNat_false]
    omega
  | @settles p refresh refreshed hp _ _ =>
    have hsum : ((c.requests.map (wake p refreshed)).map Request.left).sum ≤
        (c.requests.map Request.left).sum := by
      rw [List.map_map]
      exact List.sum_le_sum fun r _ => left_wake_le p refreshed r
    simp only [left, hp, Option.isSome_some, Option.isSome_none, Bool.toNat_true, Bool.toNat_false]
    omega

/-- All requests have ended, and no refresh is awaited. -/
def AllEnded (c : APIClient) : Prop :=
  c.refreshPromise = none ∧ ∀ r ∈ c.requests, ∃ returned, r.stage = .ended returned

/-- **Nobody waits in vain**: something can happen as long as a request has not ended. -/
theorem exists_advance (h : Shared c) : AllEnded c ∨ ∃ c', Advance c c' := by
  -- The refresh that is awaited can end, or has ended and wakes those that wait.
  have hpromise : ∀ p, c.refreshPromise = some p → ∃ c', Advance c c' := by
    intro p hp
    obtain ⟨r, hr, hoptions⟩ := h.promised p hp
    have hsound := h.sound r (List.mem_of_getElem? hr)
    rcases hstage : r.stage with - | p' | refreshed | - | returned
    · exact ⟨c.put p { r with stage := .ended false }, .failed p, nofun, by simp [step, hr, hstage]⟩
    · have hto := (hsound.refreshes (.inl ⟨p', hstage⟩)).2
      simp [hoptions, refreshOptions] at hto
    · have hto := (hsound.refreshes (.inr ⟨refreshed, hstage⟩)).2
      simp [hoptions, refreshOptions] at hto
    · have hwaits := hsound.waits hstage
      simp [hoptions, refreshOptions] at hwaits
    · refine ⟨{ c with requests := c.requests.map (wake p returned), refreshPromise := none },
        .refreshSettled, nofun, ?_⟩
      rw [step, hp, Option.bind_some, hr, Option.bind_some, hstage]
  by_cases hall : ∀ r ∈ c.requests, ∃ returned, r.stage = .ended returned
  · rcases hp : c.refreshPromise with - | p
    · exact .inl ⟨hp, hall⟩
    · exact .inr (hpromise p hp)
  · push Not at hall
    obtain ⟨r, hmem, hopen⟩ := hall
    obtain ⟨k, hr⟩ := List.mem_iff_getElem?.mp hmem
    refine .inr ?_
    rcases hstage : r.stage with - | p | (_ | _) | - | returned
    · exact ⟨c.put k { r with stage := .ended false }, .failed k, nofun, by simp [step, hr, hstage]⟩
    · exact hpromise p (h.waited r hmem p hstage)
    · exact ⟨_, .resumed k, nofun, by rw [step, hr, Option.bind_some, hstage]⟩
    · exact ⟨_, .resumed k, nofun, by rw [step, hr, Option.bind_some, hstage]⟩
    · exact ⟨_, .waited k, nofun, by rw [step, hr, Option.bind_some, if_pos hstage]⟩
    · exact absurd hstage (hopen returned)

/-- **Every request ends**: once the page makes no more requests, all of them return or throw, in
whatever order the answers arrive, and no refresh is awaited then. -/
theorem requests_end (h : Reached c) : Inevitable Advance AllEnded c := by
  refine Inevitable.of_measure left (fun _ => exists_advance) ?_ (shared_of_reached h)
  rintro c c' hshared ⟨input, hinput, hstep⟩
  have heffect := effect_step hstep
  exact ⟨hshared.step heffect, left_lt hshared hinput heffect⟩

/-! ### A small client -/

/-- The default options. -/
def plainOptions : Options := ⟨false, true, true⟩

/-- A request whose session has run out, and one that comes too late to share its refresh. -/
def smallInputs : List Input :=
  [.request plainOptions, .responded 0 ⟨401, 0⟩, .failed 1, .refreshSettled, .resumed 0,
    .request plainOptions, .responded 2 ⟨401, 0⟩]

/-- Inputs that can be taken one after the other make a run. -/
theorem reached_foldlM {c c' : APIClient} (h : Reached c) {inputs : List Input}
    (hrun : inputs.foldlM step c = some c') : Reached c' := by
  induction inputs generalizing c with
  | nil => exact Option.some.inj hrun ▸ h
  | cons input inputs ih =>
    rw [List.foldlM_cons] at hrun
    obtain ⟨c₁, hstep, hrun⟩ := Option.bind_eq_some_iff.mp hrun
    exact ih (h.step input hstep) hrun

/-- What the small client has come to. -/
def smallClient : APIClient where
  requests :=
    [⟨plainOptions, true, 0, .ended false, 1⟩, ⟨refreshOptions, false, 0, .ended false, 1⟩,
      ⟨plainOptions, true, 0, .refreshing 3, 1⟩, .first refreshOptions]
  refreshPromise := some 3
  unauthorized := 1

/-- Its inputs can be taken one after the other. -/
theorem reached_small : Reached smallClient := by
  have hrun : smallInputs.foldlM step ⟨[], none, 0⟩ = some smallClient := rfl
  exact reached_foldlM .start hrun

theorem fetches_le_small : ∃ r, smallClient.requests[0]? = some r ∧
    r.fetches ≤ 1 + r.options.autoRefresh.toNat + max503Retries * r.options.retryOn503.toNat :=
  ⟨_, rfl, fetches_le reached_small List.mem_cons_self⟩

theorem one_refresh_small : ∃ r s, smallClient.requests[1]? = some r ∧
    smallClient.requests[3]? = some s ∧
    ((∃ returned, r.stage = .ended returned) ∨ ∃ returned, s.stage = .ended returned) :=
  ⟨_, _, rfl, rfl, one_refresh reached_small (j := 1) (k := 3) rfl rfl rfl rfl (by decide)⟩

theorem requests_end_small : Inevitable Advance AllEnded smallClient :=
  requests_end reached_small

end APIClient

end Client

end AiAgent

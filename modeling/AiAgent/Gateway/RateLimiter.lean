import AiAgent.Chat.Store
import AiAgent.Store.Window
import Mathlib.Algebra.Order.Ring.Int

/-!
# The rate limiter

A subject may make so many calls in so many seconds. Every call, accepted or not, is entered into a
sorted set of its subject with the millisecond of the call as its score; what is older than the
window is removed, what is left is counted, and the set is given as many seconds to stand as the
window has (`AiAgent.Gateway.AsyncRateLimiter.check`).

The set of a subject is a window of its calls in the sense of `AiAgent.Window`
(`AiAgent.Gateway.AsyncRateLimiter.Holds`): it holds the calls that are younger than the window,
with the last call of the subject counted in, and it makes no difference whether the set has expired
in between. So a call is accepted precisely if no more calls than are allowed were made in the
window that ends with it (`AiAgent.Gateway.AsyncRateLimiter.slidingWindow_of_verdicts`).
-/

namespace AiAgent

namespace Gateway

open Text

/-! ### Sorted sets that expire -/

/-- A sorted set: its members with their scores, and the millisecond it expires at. -/
structure SortedSet where
  members : List (Text × ℤ)
  expiresAt : Option ℤ

/-- The keys of a store, as far as they hold sorted sets. -/
abbrev SortedSets := Text → Option SortedSet

namespace SortedSets

variable (s : SortedSets) (nowMs : ℤ) (key : Text)

/-- What stands under the key. -/
def look : Option SortedSet := (s key).filter fun z => z.expiresAt.all fun t => decide (nowMs < t)

/-- The members that stand under the key. -/
def members : List (Text × ℤ) := (s.look nowMs key).elim [] SortedSet.members

/-- The members are stored; a key that is empty is deleted. -/
def store (members : List (Text × ℤ)) : SortedSets :=
  Function.update s key
    (if members = [] then none
    else some ⟨members, (s.look nowMs key).bind SortedSet.expiresAt⟩)

/-- `ZADD`: a member that is there already gets the score. -/
def zadd (member : Text) (score : ℤ) : SortedSets :=
  s.store nowMs key <|
    if member ∈ (s.members nowMs key).map Prod.fst then
      (s.members nowMs key).map fun e => if e.1 = member then (member, score) else e
    else s.members nowMs key ++ [(member, score)]

/-- `ZREMRANGEBYSCORE`. -/
def zremrangebyscore (low high : ℤ) : SortedSets :=
  s.store nowMs key ((s.members nowMs key).filter fun e => ¬(low ≤ e.2 ∧ e.2 ≤ high))

/-- `ZCARD`. -/
def zcard : ℕ := (s.members nowMs key).length

/-- `EXPIRE`. -/
def expire (seconds : ℕ) : SortedSets :=
  match s.look nowMs key with
  | none => s
  | some z => Function.update s key (some { z with expiresAt := some (nowMs + seconds * 1000) })

/-- What is stored stands. -/
@[simp] theorem members_store (members : List (Text × ℤ)) :
    (s.store nowMs key members).members nowMs key = members := by
  rw [SortedSets.members, look, store, Function.update_self]
  by_cases h : members = []
  · rw [if_pos h, h]
    rfl
  · have hstands : ((s.look nowMs key).bind SortedSet.expiresAt).all
        (fun t => decide (nowMs < t)) = true := by
      rcases hlook : s.look nowMs key with _ | z
      · rfl
      · exact (Option.filter_eq_some_iff.mp hlook).2
    rw [if_neg h, Option.filter_some, if_pos hstands]
    rfl

variable {s nowMs key}

theorem update_store (members : List (Text × ℤ)) (z : Option SortedSet) :
    Function.update (s.store nowMs key members) key z = Function.update s key z :=
  Function.update_idem _ _ _

/-- A key that stands is given its time. -/
theorem expire_store {members : List (Text × ℤ)} (h : members ≠ []) (seconds : ℕ) :
    (s.store nowMs key members).expire nowMs key seconds =
      Function.update s key (some ⟨members, some (nowMs + seconds * 1000)⟩) := by
  obtain ⟨z, hz⟩ : ∃ z, (s.store nowMs key members).look nowMs key = some z := by
    by_contra hnone
    have hmembers := members_store s nowMs key members
    rw [SortedSets.members, Option.eq_none_iff_forall_ne_some.mpr fun z hz => hnone ⟨z, hz⟩]
      at hmembers
    exact h hmembers.symm
  have hmembers := members_store s nowMs key members
  rw [SortedSets.members, hz, Option.elim_some] at hmembers
  rw [expire, hz]
  simp only [hmembers, update_store]

end SortedSets

/-! ### Checking a call -/

/-- `AsyncRateLimiter`, without its connection. -/
structure AsyncRateLimiter where
  maxRequests : ℤ
  windowSeconds : ℕ
  keyspace : Text

/-- The errors of a check. -/
inductive RateLimitError where
  /-- `HTTPException(503, "Rate limiter backend unavailable")`. -/
  | backendUnavailable
  /-- `HTTPException(429, "Rate limit exceeded")`. -/
  | rateLimitExceeded
  deriving DecidableEq

namespace AsyncRateLimiter

/-- The namespace of the keys, as the constructor leaves it. -/
def new (maxRequests : ℤ) (windowSeconds : ℕ) (keyspace : Text) : AsyncRateLimiter where
  maxRequests := maxRequests
  windowSeconds := windowSeconds
  keyspace := if strip keyspace = [] then "ratelimit".toList else strip keyspace

variable (limiter : AsyncRateLimiter)

/-- `rate_key`. -/
def rateKey (subject : Text) : Text := limiter.keyspace ++ (':' :: subject)

/-- A call: the millisecond it is made in, the random part of its member, and its subject. -/
structure Call where
  nowMs : ℕ
  random : Text
  subject : Text

/-- The member a call is entered as. -/
def Call.member (c : Call) : Text := Nat.toDigits 10 c.nowMs ++ (':' :: c.random)

/-- The transaction of `check`: what it leaves, and how many calls it counts. -/
def pipeline (c : Call) (s : SortedSets) : SortedSets × ℕ :=
  let key := limiter.rateKey c.subject
  let s := s.zadd c.nowMs key c.member c.nowMs
  let s := s.zremrangebyscore c.nowMs key 0 (c.nowMs - limiter.windowSeconds * 1000)
  let count := s.zcard c.nowMs key
  (s.expire c.nowMs key limiter.windowSeconds, count)

/-- `check`, of a store that answers or of none. -/
def check (c : Call) : Option SortedSets → Except RateLimitError Unit × Option SortedSets
  | none => (.error .backendUnavailable, none)
  | some s =>
    let (s', count) := limiter.pipeline c s
    (if limiter.maxRequests < count then .error .rateLimitExceeded else .ok (), some s')

/-- The store after the calls. -/
def after (s : SortedSets) (calls : List Call) : SortedSets :=
  calls.foldl (fun s c => (limiter.pipeline c s).1) s

/-! ### The set of a subject is a window -/

/-- The calls of a subject. -/
def callsOf (subject : Text) (calls : List Call) : List Call :=
  calls.filter fun c => c.subject = subject

/-- Calls as the log of a window. -/
def logOf (calls : List Call) : List (Text × ℤ) := calls.map fun c => (c.member, (c.nowMs : ℤ))

/-- The window as a sorted set. -/
def setOf (w : Window Text ℤ) : SortedSet := ⟨w.entries, some w.goes⟩

/-- The store holds the windows of the calls of all subjects. -/
def Holds (calls : List Call) (s : SortedSets) : Prop :=
  ∀ subject, s (limiter.rateKey subject) =
    (Window.ofLog (limiter.windowSeconds * 1000 : ℤ) (logOf (callsOf subject calls))).map setOf

/-- What stands of a window that is held. -/
theorem members_of_window {s : SortedSets} {key : Text} {kept : Option (Window Text ℤ)}
    (h : s key = kept.map setOf) (nowMs : ℤ) :
    s.members nowMs key = Window.standing nowMs kept := by
  rw [SortedSets.members, SortedSets.look, h]
  rcases kept with _ | w
  · rfl
  · rw [Option.map_some, Option.filter_some, Window.standing]
    by_cases hstands : nowMs < w.goes
    · rw [if_pos hstands, setOf, Option.all_some, if_pos (decide_eq_true hstands)]
      rfl
    · rw [if_neg hstands, setOf, Option.all_some, if_neg (by simpa using hstands)]
      rfl

/-- **The transaction adds the call to the window**, and counts what is young. -/
theorem pipeline_of_window {limiter : AsyncRateLimiter} (hwindow : 1 ≤ limiter.windowSeconds)
    {c : Call} {s : SortedSets} {kept : Option (Window Text ℤ)}
    (h : s (limiter.rateKey c.subject) = kept.map setOf)
    (hfresh : c.member ∉ (Window.standing (c.nowMs : ℤ) kept).map Prod.fst)
    (hscores : ∀ e ∈ Window.standing (c.nowMs : ℤ) kept, 0 ≤ e.2) :
    limiter.pipeline c s =
      (Function.update s (limiter.rateKey c.subject)
        (some (setOf (Window.add (limiter.windowSeconds * 1000 : ℤ) c.nowMs c.member kept))),
      (Window.add (limiter.windowSeconds * 1000 : ℤ) c.nowMs c.member kept).entries.length) := by
  have hremoved : (Window.standing (c.nowMs : ℤ) kept ++ [(c.member, (c.nowMs : ℤ))]).filter
      (fun e => ¬(0 ≤ e.2 ∧ e.2 ≤ (c.nowMs : ℤ) - limiter.windowSeconds * 1000)) =
      (Window.add (limiter.windowSeconds * 1000 : ℤ) c.nowMs c.member kept).entries := by
    refine List.filter_congr fun e he => ?_
    have hscore : 0 ≤ e.2 := by
      rcases List.mem_append.mp he with he | he
      · exact hscores e he
      · rw [List.mem_singleton.mp he]
        exact Int.natCast_nonneg _
    rw [decide_eq_decide]
    omega
  have hyoung : (Window.add (limiter.windowSeconds * 1000 : ℤ) c.nowMs c.member kept).entries ≠
      [] := by
    refine List.ne_nil_of_mem (a := (c.member, (c.nowMs : ℤ))) (List.mem_filter.mpr ⟨?_, ?_⟩)
    · exact List.mem_append_right _ (List.mem_singleton.mpr rfl)
    · exact decide_eq_true (by omega)
  simp only [pipeline, SortedSets.zadd, members_of_window h, if_neg hfresh,
    SortedSets.zremrangebyscore, SortedSets.zcard, SortedSets.members_store, hremoved,
    SortedSets.expire_store hyoung, SortedSets.update_store]
  rfl

theorem colon_notMem_digits (n : ℕ) : ':' ∉ Nat.toDigits 10 n := by
  intro h
  have hdigit := Nat.isDigit_of_mem_toDigits (by omega) le_rfl h
  revert hdigit
  decide

/-- Calls that are entered as the same member have the same random part. -/
theorem random_eq_of_member_eq {c c' : Call} (h : c.member = c'.member) : c.random = c'.random :=
  (Chat.append_colon_inj (colon_notMem_digits _) (colon_notMem_digits _) h).2

/-- Calls in the order of their times, and of different random parts. -/
structure InOrder (calls : List Call) : Prop where
  times : calls.Pairwise fun c c' => c.nowMs ≤ c'.nowMs
  randoms : (calls.map Call.random).Nodup

theorem InOrder.before {calls : List Call} {c : Call} (h : InOrder (calls ++ [c])) :
    InOrder calls := by
  refine ⟨(List.pairwise_append.mp h.times).1, ?_⟩
  have hrandoms := h.randoms
  rw [List.map_append] at hrandoms
  exact (List.nodup_append.mp hrandoms).1

/-- The calls of the subject up to this one that are younger than the window, this one with them. -/
def windowCount (c : Call) (calls : List Call) : ℕ :=
  calls.countP fun c' => c'.subject = c.subject ∧ c'.nowMs ≤ c.nowMs ∧
    (c.nowMs : ℤ) - limiter.windowSeconds * 1000 < c'.nowMs

variable {limiter}

theorem rateKey_injective {subject subject' : Text}
    (h : limiter.rateKey subject = limiter.rateKey subject') : subject = subject' :=
  (List.cons.inj (List.append_cancel_left h)).2

/-- The log of a subject's calls is in order of time, and none of it is younger than a call that
comes later. -/
theorem InOrder.logOf {calls : List Call} {c : Call} (h : InOrder (calls ++ [c]))
    (subject : Text) : (logOf (callsOf subject calls)).Pairwise (fun e f => e.2 ≤ f.2) ∧
      ∀ e ∈ AsyncRateLimiter.logOf (callsOf subject calls), e.2 ≤ (c.nowMs : ℤ) := by
  obtain ⟨htimes, -, hlast⟩ := List.pairwise_append.mp h.times
  constructor
  · rw [AsyncRateLimiter.logOf, List.pairwise_map]
    exact (htimes.filter _).imp fun hle => Int.ofNat_le.mpr hle
  · rintro e he
    obtain ⟨c', hc', rfl⟩ := List.mem_map.mp he
    exact Int.ofNat_le.mpr (hlast c' (List.mem_of_mem_filter hc') c (List.mem_singleton.mpr rfl))

/-- What is young of the subject's log is what was called in the window. -/
theorem InOrder.length_young {calls : List Call} {c : Call} (h : InOrder (calls ++ [c])) :
    (Window.young (limiter.windowSeconds * 1000 : ℤ) c.nowMs
      (AsyncRateLimiter.logOf (callsOf c.subject (calls ++ [c])))).length =
        limiter.windowCount c (calls ++ [c]) := by
  rw [Window.young, AsyncRateLimiter.logOf, List.filter_map, List.length_map, callsOf,
    List.filter_filter, windowCount, List.countP_eq_length_filter]
  refine congrArg List.length (List.filter_congr fun c' hc' => ?_)
  have hle : c'.nowMs ≤ c.nowMs := by
    rcases List.mem_append.mp hc' with hc' | hc'
    · exact (List.pairwise_append.mp h.times).2.2 c' hc' c (List.mem_singleton.mpr rfl)
    · rw [List.mem_singleton.mp hc']
  rw [Bool.eq_iff_iff]
  simp only [Function.comp_apply, Bool.and_eq_true, decide_eq_true_eq]
  constructor
  · rintro ⟨hyoung, hsubject⟩
    exact ⟨hsubject, hle, by omega⟩
  · rintro ⟨hsubject, -, hyoung⟩
    exact ⟨by omega, hsubject⟩

/-- **A call keeps the windows of all subjects**, and what it counts are the calls of its subject in
the window. -/
theorem Holds.pipeline (hwindow : 1 ≤ limiter.windowSeconds) {calls : List Call} {c : Call}
    {s : SortedSets} (h : limiter.Holds calls s) (horder : InOrder (calls ++ [c])) :
    limiter.Holds (calls ++ [c]) (limiter.pipeline c s).1 ∧
      (limiter.pipeline c s).2 = limiter.windowCount c (calls ++ [c]) := by
  obtain ⟨hlog, hnow⟩ := horder.logOf c.subject
  -- No earlier call has this member, since no two of the random parts are the same.
  have hfresh : c.member ∉ (Window.standing (c.nowMs : ℤ) (Window.ofLog
      (limiter.windowSeconds * 1000 : ℤ) (logOf (callsOf c.subject calls)))).map Prod.fst := by
    rintro hmem
    obtain ⟨e, he, hmember⟩ := List.mem_map.mp hmem
    obtain ⟨c', hc', rfl⟩ := List.mem_map.mp (Window.mem_of_mem_standing _ he)
    have hrandoms := horder.randoms
    rw [List.map_append, List.nodup_append] at hrandoms
    exact hrandoms.2.2 c'.random (List.mem_map_of_mem (List.mem_of_mem_filter hc')) c.random
      (List.mem_singleton.mpr rfl) (random_eq_of_member_eq hmember)
  have hscores : ∀ e ∈ Window.standing (c.nowMs : ℤ) (Window.ofLog
      (limiter.windowSeconds * 1000 : ℤ) (logOf (callsOf c.subject calls))), 0 ≤ e.2 := by
    rintro e he
    obtain ⟨c', -, rfl⟩ := List.mem_map.mp (Window.mem_of_mem_standing _ he)
    exact Int.natCast_nonneg _
  have hadd := Window.add_ofLog (limiter.windowSeconds * 1000 : ℤ) hlog hnow c.member
  -- The call is the newest of its subject.
  have hself : logOf (callsOf c.subject (calls ++ [c])) =
      logOf (callsOf c.subject calls) ++ [(c.member, (c.nowMs : ℤ))] := by
    have hcalls : callsOf c.subject [c] = [c] := List.filter_cons_of_pos (decide_eq_true rfl)
    rw [callsOf, List.filter_append, AsyncRateLimiter.logOf, List.map_append]
    exact congrArg (_ ++ AsyncRateLimiter.logOf ·) hcalls
  rw [pipeline_of_window hwindow (h c.subject) hfresh hscores]
  constructor
  · intro subject
    dsimp only
    by_cases hsubject : subject = c.subject
    · rw [hsubject, Function.update_self, hself, ← hadd]
      rfl
    · have hother : callsOf subject (calls ++ [c]) = callsOf subject calls := by
        rw [callsOf, List.filter_append, List.filter_cons_of_neg (by simpa using Ne.symm hsubject),
          List.filter_nil, List.append_nil]
        rfl
      rw [Function.update_of_ne fun heq => hsubject (rateKey_injective heq), h subject, hother]
  · have hentries : (Window.add (limiter.windowSeconds * 1000 : ℤ) c.nowMs c.member (Window.ofLog
        (limiter.windowSeconds * 1000 : ℤ) (logOf (callsOf c.subject calls)))).entries =
        Window.young (limiter.windowSeconds * 1000 : ℤ) c.nowMs
          (logOf (callsOf c.subject (calls ++ [c]))) := by
      rw [hself]
      rw [Window.ofLog_concat] at hadd
      exact congrArg Window.entries (Option.some.inj hadd)
    dsimp only
    rw [hentries, horder.length_young]

/-! ### The sliding window -/

/-- No subject has called yet. -/
def Unused (limiter : AsyncRateLimiter) (s : SortedSets) : Prop :=
  ∀ subject, s (limiter.rateKey subject) = none

end AsyncRateLimiter

end Gateway

end AiAgent

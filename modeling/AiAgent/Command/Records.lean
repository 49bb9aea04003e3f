import AiAgent.Command.Interleave

/-!
# Records that many clients read and store whole

A client that changes a record reads all of it, makes a new one out of what it has read, and
stores that. Between the reading and the storing others may store the record too, and the client
then stores over what it has not seen.

Here is what a history says about that, for any commands that look at records or store them
(`AiAgent.Command.Records`). Every record somebody has looked at was there at some time
(`AiAgent.Command.Traced`). And take a mark `p` a record may bear, with a relation `k` that says
what of the mark later records have to keep. Suppose nobody stores over a marked record without
keeping the mark. Then the mark sticks, and a client that has found the record unmarked, with
nobody marking it since, may take it that the record never was marked
(`AiAgent.Command.Sticks`).
-/

namespace AiAgent

namespace Command

variable {S : Signature} {σ ι ρ K V : Type}

/-- Which commands store a record, and which find one. -/
structure Records (S : Signature) (σ K V : Type) where
  /-- The key a record is stored under. -/
  key : V → K
  /-- The record under a key. -/
  current : σ → K → Option V
  /-- The record a command stores. -/
  saved : S.Cmd → Option V
  /-- The key a command looks under, and what it finds there. -/
  found : (c : S.Cmd) → S.Reply c → Option (K × Option V)

namespace Records

variable (T : Records S σ K V)

/-! ### What the history says -/

/-- The record an act stores. -/
def savedBy : Act S ρ → Option V
  | .command c _ => T.saved c
  | _ => none

/-- What an act tells its client: the record it has stored, or the one it has found. -/
def lookOf : Act S ρ → Option (K × Option V)
  | .command c r =>
    match T.saved c with
    | some v => some (T.key v, some v)
    | none => T.found c r
  | _ => none

/-- The act takes the records of `s` to those of `s'`, and tells its client no lie. -/
structure Moves [DecidableEq K] (s s' : σ) (a : Act S ρ) : Prop where
  /-- Nothing but the stored record changes. -/
  current_eq : T.current s' =
    match T.savedBy a with
    | some v => Function.update (T.current s) (T.key v) (some v)
    | none => T.current s
  /-- What the client is told holds. -/
  look : ∀ j o, T.lookOf a = some (j, o) → T.current s' j = o

/-- The record was there at the start, or was stored later. -/
def Was (s₀ : σ) (log : List (Entry S ι ρ)) (v : V) : Prop :=
  T.current s₀ (T.key v) = some v ∨ ∃ e ∈ log, T.savedBy e.act = some v

/-- The client has seen this under the key, in the operation it is in. -/
def Looked (i : ℕ) (j : K) (o : Option V) : List (Entry S ι ρ) → Prop
  | [] => False
  | e :: log =>
    if e.client = i then
      T.lookOf e.act = some (j, o) ∨ e.act.isStart = false ∧ Looked i j o log
    else Looked i j o log

/-- The act finds the record without the mark `q`, or no record at all. -/
def findsWithout [DecidableEq K] (q : V → Bool) (j : K) (a : Act S ρ) : Bool :=
  match T.lookOf a with
  | some (j', o) => j' = j && !o.any q
  | none => false

/-- What has happened since the client last found the record without the mark, if it has found
it so in the operation it is in. -/
def since [DecidableEq K] (q : V → Bool) (i : ℕ) (j : K) :
    List (Entry S ι ρ) → Option (List (Entry S ι ρ))
  | [] => none
  | e :: log =>
    if e.client = i ∧ T.findsWithout q j e.act = true then some []
    else if e.client = i ∧ e.act.isStart = true then none
    else (since q i j log).map (e :: ·)

/-- The client has found the record without the mark. -/
def sighted [DecidableEq K] (q : V → Bool) (i : ℕ) (j : K) (log : List (Entry S ι ρ)) : Bool :=
  (T.since q i j log).isSome

/-- The act stores the record with the mark. -/
def marks [DecidableEq K] (p : V → Bool) (j : K) (a : Act S ρ) : Bool :=
  (T.savedBy a).any fun v => T.key v = j && p v

/-- Nobody has stored the record with the mark `p` since the client last found it without `q`. -/
def undisturbed [DecidableEq K] (p q : V → Bool) (i : ℕ) (j : K) (log : List (Entry S ι ρ)) :
    Bool :=
  (T.since q i j log).all fun l => l.all fun e => !T.marks p j e.act

variable {T} {s₀ s s' : σ} {log : List (Entry S ι ρ)} {e : Entry S ι ρ} {i : ℕ} {j : K}
  {o : Option V} {v : V} {p q : V → Bool} {a : Act S ρ}

theorem was_cons : T.Was s₀ (e :: log) v ↔ T.Was s₀ log v ∨ T.savedBy e.act = some v := by
  simp only [Was, List.mem_cons, exists_eq_or_imp]
  exact ⟨fun h => by rcases h with h | h | h <;> simp [h],
    fun h => by rcases h with (h | h) | h <;> simp [h]⟩

theorem Was.mono {log' : List (Entry S ι ρ)} (h : T.Was s₀ log v) (hsuffix : log <:+ log') :
    T.Was s₀ log' v := by
  rcases h with h | ⟨e, he, hsaved⟩
  · exact .inl h
  · exact .inr ⟨e, hsuffix.subset he, hsaved⟩

section Marks

variable [DecidableEq K]

theorem findsWithout_iff :
    T.findsWithout q j a = true ↔ ∃ o, T.lookOf a = some (j, o) ∧ o.any q = false := by
  unfold findsWithout
  cases hlook : T.lookOf a with
  | none => simp
  | some look =>
    obtain ⟨j', o⟩ := look
    constructor
    · intro h
      rw [Bool.and_eq_true, decide_eq_true_eq, Bool.not_eq_true'] at h
      obtain ⟨rfl, hq⟩ := h
      exact ⟨o, rfl, hq⟩
    · rintro ⟨o', ho', hq⟩
      cases ho'
      simp [hq]

theorem marks_iff : T.marks p j a = true ↔ ∃ v, T.savedBy a = some v ∧ T.key v = j ∧
    p v = true := by
  simp [marks, Option.any_eq_true]

/-- What a client has seen without the mark, it has found without the mark. -/
theorem sighted_of_looked (h : T.Looked i j o log) (hq : o.any q = false) :
    T.sighted q i j log = true := by
  induction log with
  | nil => exact h.elim
  | cons e log ih =>
    unfold sighted since
    by_cases hfinds : e.client = i ∧ T.findsWithout q j e.act = true
    · simp [hfinds]
    · rw [if_neg hfinds]
      unfold Looked at h
      by_cases hi : e.client = i
      · rw [if_pos hi] at h
        rcases h with hlook | ⟨hstart, hlooked⟩
        · exact absurd ⟨hi, findsWithout_iff.mpr ⟨o, hlook, hq⟩⟩ hfinds
        · rw [if_neg (fun h => by simp [hstart] at h), Option.isSome_map]
          exact ih hlooked
      · rw [if_neg hi] at h
        rw [if_neg (fun h => hi h.1), Option.isSome_map]
        exact ih h

end Marks

end Records

/-! ### Every record has a history -/

variable {T : Records S σ K V} {s₀ : σ}

/-- What is stored, and what somebody has seen, was there at the start or was stored later; and
no record ever goes away. -/
structure Traced (T : Records S σ K V) (s₀ : σ) (w : World S σ ι ρ) : Prop where
  /-- A record is found under its own key. -/
  keyed : ∀ j v, T.current w.shared j = some v → T.key v = j
  /-- A record that is stored has a history. -/
  was : ∀ j v, T.current w.shared j = some v → T.Was s₀ w.log v
  /-- A record that was there has a successor. -/
  kept : ∀ v, T.Was s₀ w.log v → T.current w.shared (T.key v) ≠ none
  /-- So has a record that somebody has seen. -/
  looks : ∀ e ∈ w.log, ∀ j v, T.lookOf e.act = some (j, some v) →
    T.key v = j ∧ T.Was s₀ w.log v

namespace Traced

variable {w : World S σ ι ρ} {i : ℕ} {op : ι} {a : Act S ρ} {s : σ} {t : Option (Task S ι ρ)}

theorem fresh (hkeyed : ∀ j v, T.current s₀ j = some v → T.key v = j) :
    Traced T s₀ (.fresh s₀ : World S σ ι ρ) where
  keyed := hkeyed
  was := fun j v hv => .inl (by rw [hkeyed j v hv]; exact hv)
  kept := by
    rintro v (hv | ⟨e, he, -⟩)
    · intro hnone
      cases hv.symm.trans hnone
    · cases he
  looks := fun e he => by cases he

theorem record [DecidableEq K] (h : Traced T s₀ w) (hm : T.Moves w.shared s a) :
    Traced T s₀ (w.record i op a s t) := by
  -- What is under a key was there before, or has just been saved.
  have hkeyed : ∀ j v, T.current s j = some v → T.key v = j ∧
      (T.current w.shared j = some v ∨ T.savedBy a = some v) := by
    intro j v hv
    rw [hm.current_eq] at hv
    cases hsaved : T.savedBy a with
    | none =>
      simp only [hsaved] at hv
      exact ⟨h.keyed j v hv, .inl hv⟩
    | some u =>
      simp only [hsaved] at hv
      by_cases hj : j = T.key u
      · subst hj
        rw [Function.update_self] at hv
        exact ⟨by cases hv; rfl, .inr hv⟩
      · rw [Function.update_of_ne hj] at hv
        exact ⟨h.keyed j v hv, .inl hv⟩
  have hwas : ∀ j v, T.current s j = some v → T.Was s₀ (⟨i, op, a⟩ :: w.log) v := by
    intro j v hv
    rw [Records.was_cons]
    rcases (hkeyed j v hv).2 with hv | hv
    · exact .inl (h.was j v hv)
    · exact .inr hv
  refine ⟨fun j v hv => (hkeyed j v hv).1, hwas, ?_, ?_⟩
  · intro v hv
    rw [World.record_log, Records.was_cons] at hv
    rw [World.record_shared, hm.current_eq]
    cases hsaved : T.savedBy a with
    | none =>
      rw [hsaved] at hv
      exact h.kept v (hv.resolve_right (by simp))
    | some u =>
      simp only [Function.update_apply]
      by_cases hkey : T.key v = T.key u
      · simp [hkey]
      · rw [if_neg hkey]
        rcases hv with hv | hv
        · exact h.kept v hv
        · rw [hsaved] at hv
          cases hv
          exact absurd rfl hkey
  · intro e he j v hlook
    rcases List.mem_cons.mp he with rfl | he
    · have hv := hm.look j (some v) hlook
      exact ⟨(hkeyed j v hv).1, hwas j v hv⟩
    · obtain ⟨hkey, hv⟩ := h.looks e he j v hlook
      exact ⟨hkey, Records.was_cons.mpr (.inl hv)⟩

/-- The outside leaves the records alone. -/
theorem outside (h : Traced T s₀ w) (hs : T.current s = T.current w.shared) :
    Traced T s₀ { w with shared := s } where
  keyed := fun j v hv => h.keyed j v (by rw [← hs]; exact hv)
  was := fun j v hv => h.was j v (by rw [← hs]; exact hv)
  kept := fun v hv => by
    rw [hs]
    exact h.kept v hv
  looks := h.looks

/-- What a client has looked at was there. -/
theorem was_of_looked (h : Traced T s₀ w) {i : ℕ} {j : K} {v : V}
    (hlooked : T.Looked i j (some v) w.log) : T.key v = j ∧ T.Was s₀ w.log v := by
  have key : ∀ log : List (Entry S ι ρ), T.Looked i j (some v) log →
      ∃ e ∈ log, T.lookOf e.act = some (j, some v) := by
    intro log hlog
    induction log with
    | nil => exact hlog.elim
    | cons e log ih =>
      unfold Records.Looked at hlog
      by_cases hi : e.client = i
      · rw [if_pos hi] at hlog
        rcases hlog with hlook | ⟨-, hlog⟩
        · exact ⟨e, List.mem_cons_self, hlook⟩
        · obtain ⟨e', he', hlook⟩ := ih hlog
          exact ⟨e', List.mem_cons_of_mem _ he', hlook⟩
      · rw [if_neg hi] at hlog
        obtain ⟨e', he', hlook⟩ := ih hlog
        exact ⟨e', List.mem_cons_of_mem _ he', hlook⟩
  obtain ⟨e, he, hlook⟩ := key w.log hlooked
  exact h.looks e he j v hlook

end Traced

/-! ### Marks that stick -/

variable [DecidableEq K]

/-- A mark `p` sticks: whoever bore it, the record there is now is as `k` asks, and bears `q`. So
a client that has found the record without `q` knows of every mark set before. -/
structure Sticks (T : Records S σ K V) (s₀ : σ) (p q : V → Bool) (k : V → V → Prop)
    (w : World S σ ι ρ) : Prop where
  /-- What once bore the mark is now as `k` asks. -/
  holds : ∀ v, T.Was s₀ w.log v → p v = true → ∃ u, T.current w.shared (T.key v) = some u ∧ k v u
  /-- Where a client has found the record without `q`, the mark was set after that. -/
  noticed : ∀ i j l, T.since q i j w.log = some l → ∀ v, T.Was s₀ w.log v → T.key v = j →
    p v = true → ∃ e ∈ l, T.marks p j e.act = true

namespace Sticks

variable {p q : V → Bool} {k : V → V → Prop} {w : World S σ ι ρ} {i : ℕ} {op : ι} {a : Act S ρ}
  {s : σ} {t : Option (Task S ι ρ)}

theorem fresh (hk : ∀ v, p v = true → k v v) : Sticks T s₀ p q k (.fresh s₀ : World S σ ι ρ) where
  holds := by
    rintro v (hv | ⟨e, he, -⟩) hp
    · exact ⟨v, hv, hk v hp⟩
    · cases he
  noticed := fun i j l hl => by cases hl

/-- A client that has found the record without the mark, with nobody marking it since, knows that
it never was marked. -/
theorem never (h : Sticks T s₀ p q k w) {j : K} (hsighted : T.sighted q i j w.log = true)
    (hundisturbed : T.undisturbed p q i j w.log = true) {v : V} (hv : T.Was s₀ w.log v)
    (hj : T.key v = j) : p v = false := by
  obtain ⟨l, hl⟩ := Option.isSome_iff_exists.mp hsighted
  rw [Records.undisturbed, hl, Option.all_some, List.all_eq_true] at hundisturbed
  by_contra hp
  obtain ⟨e, he, hmarks⟩ := h.noticed i j l hl v hv hj (by simpa using hp)
  have := hundisturbed e he
  rw [hmarks] at this
  cases this

/-- **The step rule.** A record may be stored if it keeps what `k` asks of every mark that was
set. -/
theorem record (h : Sticks T s₀ p q k w) (hm : T.Moves w.shared s a)
    (hk : ∀ v, p v = true → k v v) (hq : ∀ v u, p v = true → k v u → q u = true)
    (hsave : ∀ u, T.savedBy a = some u → ∀ v, T.Was s₀ w.log v → T.key v = T.key u →
      p v = true → k v u) :
    Sticks T s₀ p q k (w.record i op a s t) := by
  have hholds : ∀ v, T.Was s₀ (⟨i, op, a⟩ :: w.log) v → p v = true →
      ∃ u, T.current s (T.key v) = some u ∧ k v u := by
    intro v hv hp
    rw [Records.was_cons] at hv
    rw [hm.current_eq]
    cases hsaved : T.savedBy a with
    | none =>
      rw [hsaved] at hv
      exact h.holds v (hv.resolve_right (by simp)) hp
    | some u =>
      simp only [Function.update_apply]
      rcases hv with hv | hv
      · by_cases hkey : T.key v = T.key u
        · exact ⟨u, by rw [if_pos hkey], hsave u hsaved v hv hkey hp⟩
        · rw [if_neg hkey]
          exact h.holds v hv hp
      · obtain rfl : u = v := by
          rw [hsaved] at hv
          exact Option.some.inj hv
        exact ⟨u, by rw [if_pos rfl], hk u hp⟩
  refine ⟨hholds, ?_⟩
  intro i' j l hl v hv hj hp
  rw [World.record_log] at hl hv
  unfold Records.since at hl
  simp only at hl
  by_cases hfinds : i = i' ∧ T.findsWithout q j a = true
  · -- The client has just found the record without `q`, so it never bore the mark.
    obtain ⟨o, hlook, hany⟩ := Records.findsWithout_iff.mp hfinds.2
    obtain ⟨u, hu, hku⟩ := hholds v hv hp
    rw [hj, hm.look j o hlook] at hu
    rw [hu, Option.any_some, hq v u hp hku] at hany
    cases hany
  · rw [if_neg hfinds] at hl
    by_cases hstart : i = i' ∧ a.isStart = true
    · rw [if_pos hstart] at hl
      cases hl
    · rw [if_neg hstart] at hl
      obtain ⟨l', hl', rfl⟩ := Option.map_eq_some_iff.mp hl
      rcases Records.was_cons.mp hv with hv | hv
      · obtain ⟨e, he, hmarks⟩ := h.noticed i' j l' hl' v hv hj hp
        exact ⟨e, List.mem_cons_of_mem _ he, hmarks⟩
      · exact ⟨_, List.mem_cons_self, Records.marks_iff.mpr ⟨v, hv, hj, hp⟩⟩

/-- The outside leaves the records alone. -/
theorem outside (h : Sticks T s₀ p q k w) (hs : T.current s = T.current w.shared) :
    Sticks T s₀ p q k { w with shared := s } where
  holds := fun v hv hp => by
    rw [hs]
    exact h.holds v hv hp
  noticed := h.noticed

end Sticks

end Command

end AiAgent

import AiAgent.Command.Interleave

/-!
# Registries of those who report

A registry knows who is there by what they report of themselves. A report sets a key that expires
and adds its name to a set; a client that asks who is there reads the set, looks each name up, and
in the end takes the names out of the set that it has found no key for
(`AiAgent.Registry.listActive`).

With a single client this is the list of the keys that stand
(`AiAgent.Registry.run_listActive`). With many clients at once it is less: between the moment a
client finds a key missing and the moment it takes the name out of the set, the one who was late
may have reported again. Nothing is lost of those who are *punctual*, whose keys are set again
before they expire: every client finds all of them that had reported when it began, and all a
client ever finds are reports that were the newest at some moment since
(`AiAgent.Registry.exists_view`).
-/

namespace AiAgent

open Command

/-- A registry: the time, the keys with their values and deadlines, and the set of names. -/
structure Registry (ι V : Type) where
  /-- What time it is. -/
  now : ℕ
  /-- The last report under each name, and when it expires. -/
  reports : ι → Option (V × ℕ)
  /-- The names in the set. -/
  members : List ι

namespace Registry

variable {κ ι V : Type}

/-- How a registry is kept: the set each name is in, the name a report goes under, and how long a
report stands. -/
structure Plan (κ ι V : Type) where
  /-- The set a name is in. -/
  group : ι → κ
  /-- The name of what reports. -/
  name : V → ι
  /-- How long a report under the name stands. -/
  ttl : ι → ℕ

/-! ### Commands -/

/-- What a registry is asked. -/
inductive Cmd (κ ι V : Type) where
  /-- `SET` with a time to live and `SADD`, in one transaction. -/
  | report (v : V)
  /-- `SMEMBERS`. -/
  | members (k : κ)
  /-- `GET`. -/
  | get (i : ι)
  /-- `SREM`. -/
  | remove (names : List ι)

/-- What it answers. -/
abbrev Reply : Cmd κ ι V → Type
  | .report _ => Unit
  | .members _ => List ι
  | .get _ => Option V
  | .remove _ => Unit

/-- The commands of a registry. -/
abbrev signature (κ ι V : Type) : Signature := ⟨Cmd κ ι V, Reply⟩

/-- What `GET` finds: the report, unless it has expired. -/
def find (r : Registry ι V) (i : ι) : Option V :=
  (r.reports i).bind fun report => if r.now < report.2 then some report.1 else none

section Exec

variable [DecidableEq κ] [DecidableEq ι] (plan : Plan κ ι V)

/-- A command on the registry as it stands. -/
def exec : (c : Cmd κ ι V) → Registry ι V → Reply c × Registry ι V
  | .report v, r =>
    ((), { r with
      reports := Function.update r.reports (plan.name v)
        (some (v, r.now + plan.ttl (plan.name v)))
      members := if plan.name v ∈ r.members then r.members else r.members ++ [plan.name v] })
  | .members k, r => (r.members.filter fun i => plan.group i = k, r)
  | .get i, r => (r.find i, r)
  | .remove names, r => ((), { r with members := r.members.filter fun i => i ∉ names })

/-- The registry as a store: nobody waits, and nobody's death is noticed. -/
def store : Store (signature κ ι V) (Registry ι V) where
  exec _ := exec plan
  ready _ _ := True
  drop _ r := r

@[simp] theorem store_exec (client : ℕ) (c : (signature κ ι V).Cmd) (r : Registry ι V) :
    (store plan).exec client c r = exec plan c r := rfl

end Exec

/-! ### Listings -/

/-- The names are looked up one after the other: the reports that are found, and the names that
none is found for. -/
def lookUp (found : List V) (stale : List ι) :
    List ι → Program (signature κ ι V) (List V × List ι)
  | [] => return (found, stale)
  | i :: names => do
    match ← Program.send (S := signature κ ι V) (.get i) with
    | none => lookUp found (stale ++ [i]) names
    | some v => lookUp (found ++ [v]) stale names

/-- Who is in a set: the reports that are found under its names. The other names are taken out of
it. -/
def listActive (k : κ) : Program (signature κ ι V) (List V) := do
  let names ← Program.send (S := signature κ ι V) (.members k)
  let (found, stale) ← lookUp [] [] names
  if stale.isEmpty then return found
  else
    Program.send (S := signature κ ι V) (.remove stale)
    return found

section Alone

variable [DecidableEq κ] [DecidableEq ι] (plan : Plan κ ι V) (client : ℕ)

theorem run_lookUp (found : List V) (stale names : List ι) (r : Registry ι V) :
    (lookUp (κ := κ) found stale names).run (store plan) client r =
      ((found ++ names.filterMap r.find, stale ++ names.filter fun i => (r.find i).isNone), r) := by
  induction names generalizing found stale with
  | nil => simp [lookUp]
  | cons i names ih =>
    rw [lookUp, Program.run_bind, Program.run_send]
    have hexec : (store plan).exec client (.get i) r = (r.find i, r) := rfl
    rw [hexec]
    rcases hfind : r.find i with - | v
    · simp [ih, hfind]
    · simp [ih, hfind]

/-- **Alone, a listing gives the reports that stand**, and leaves the names they stand under. -/
theorem run_listActive (k : κ) (r : Registry ι V) :
    (listActive k).run (store plan) client r =
      ((r.members.filter fun i => plan.group i = k).filterMap r.find,
        { r with members := r.members.filter fun i => plan.group i = k → (r.find i).isSome }) := by
  have hmembers : (store plan).exec client (.members k) r =
      (r.members.filter fun i => plan.group i = k, r) := rfl
  rw [listActive, Program.run_bind, Program.run_send, hmembers, Program.run_bind, run_lookUp]
  simp only [List.nil_append]
  split
  · rename_i hempty
    rw [Program.run_pure, Prod.mk.injEq]
    refine ⟨rfl, ?_⟩
    -- Nothing was missing, so every name of the set stays.
    rw [List.isEmpty_iff, List.filter_eq_nil_iff] at hempty
    have hall : (r.members.filter fun i => plan.group i = k → (r.find i).isSome) = r.members := by
      refine List.filter_eq_self.mpr fun i hi => ?_
      refine decide_eq_true fun hk => ?_
      have hsome := hempty i (List.mem_filter.mpr ⟨hi, decide_eq_true hk⟩)
      simpa [Option.isSome_iff_ne_none] using hsome
    rw [hall]
  · rw [Program.run_bind, Program.run_send, Program.run_pure, Prod.mk.injEq]
    refine ⟨rfl, ?_⟩
    change Registry.mk _ _ _ = _
    rw [Registry.mk.injEq]
    refine ⟨rfl, rfl, List.filter_congr fun i hi => ?_⟩
    by_cases hk : plan.group i = k
    · simp [hi, hk, Option.isSome_iff_ne_none]
    · simp [hk]

end Alone

/-! ### Many clients at once -/

section Histories

variable {ο ρ : Type} [DecidableEq ι] (plan : Plan κ ι V)

/-- The report that was made, if one was. -/
def reportOf : Act (signature κ ι V) ρ → Option V
  | .command (.report v) _ => some v
  | _ => none

/-- All reports, latest first. -/
def reported (log : List (Entry (signature κ ι V) ο ρ)) : List V :=
  log.filterMap fun e => reportOf e.act

/-- The newest report under a name. -/
def newest (i : ι) (log : List (Entry (signature κ ι V) ο ρ)) : Option V :=
  (reported log).find? fun v => plan.name v = i

/-- What had happened when the client last began. -/
def before (client : ℕ) : List (Entry (signature κ ι V) ο ρ) → List (Entry (signature κ ι V) ο ρ)
  | [] => []
  | e :: log => if e.client = client ∧ e.act.isStart = true then log else before client log

/-- The report was the newest under its name at some moment since the client began. -/
def Current (client : ℕ) (log : List (Entry (signature κ ι V) ο ρ)) (v : V) : Prop :=
  ∃ past, before client log <:+ past ∧ past <:+ log ∧ newest plan (plan.name v) past = some v

variable {plan} {i : ι} {log log' : List (Entry (signature κ ι V) ο ρ)} {client : ℕ}

theorem newest_cons (e : Entry (signature κ ι V) ο ρ) :
    newest plan i (e :: log) = match reportOf e.act with
      | none => newest plan i log
      | some v => if plan.name v = i then some v else newest plan i log := by
  rw [newest, reported, List.filterMap_cons]
  rcases reportOf e.act with - | v
  · rfl
  · by_cases hname : plan.name v = i
    · simp [hname]
    · simp [hname, newest, reported]

/-- A newest report is under its own name. -/
theorem name_of_newest {v : V} (h : newest plan i log = some v) : plan.name v = i := by
  simpa using List.find?_some h

/-- A newest report has been made. -/
theorem mem_reported_of_newest {v : V} (h : newest plan i log = some v) : v ∈ reported log :=
  List.mem_of_find?_eq_some h

/-- Who has reported has reported from then on. -/
theorem isSome_newest_of_suffix (hlog : log <:+ log') (h : (newest plan i log).isSome = true) :
    (newest plan i log').isSome = true := by
  rw [newest, List.find?_isSome] at h ⊢
  obtain ⟨v, hv, hname⟩ := h
  exact ⟨v, (hlog.filterMap _).subset hv, hname⟩

theorem Current.mem_reported {v : V} (h : Current plan client log v) : v ∈ reported log := by
  obtain ⟨past, -, hlog, hnewest⟩ := h
  exact (hlog.filterMap _).subset (mem_reported_of_newest hnewest)

omit [DecidableEq ι] in
theorem before_suffix (client : ℕ) (log : List (Entry (signature κ ι V) ο ρ)) :
    before client log <:+ log := by
  induction log with
  | nil => exact List.suffix_refl _
  | cons e log ih =>
    rw [before]
    split
    · exact List.suffix_cons _ _
    · exact ih.trans (List.suffix_cons _ _)

end Histories

/-! ### What a client knows -/

/-- What a client knows once it has issued a command. -/
structure View (ι V : Type) where
  /-- The names it has found in a set. -/
  listed : ι → Prop
  /-- The punctual names that had reported when it began. -/
  sure : ι → Prop
  /-- The names it has found no report for. -/
  missing : ι → Prop
  /-- The reports it has read. -/
  read : V → Prop

/-- A client goes on knowing what it knows. -/
structure View.Before (u u' : View ι V) : Prop where
  /-- What it has found in a set. -/
  listed : ∀ i, u.listed i → u'.listed i
  /-- What it can be sure of is settled when it begins. -/
  sure : u'.sure = u.sure
  /-- What it has found missing. -/
  missing : ∀ i, u.missing i → u'.missing i
  /-- What it has read. -/
  read : ∀ v, u.read v → u'.read v

theorem View.Before.refl (u : View ι V) : u.Before u :=
  ⟨fun _ h => h, rfl, fun _ h => h, fun _ h => h⟩

theorem View.Before.trans {u u' u'' : View ι V} (h : u.Before u') (h' : u'.Before u'') :
    u.Before u'' where
  listed i hi := h'.listed i (h.listed i hi)
  sure := h'.sure.trans h.sure
  missing i hi := h'.missing i (h.missing i hi)
  read v hv := h'.read v (h.read v hv)

/-- What a reply tells the client. -/
def Told (plan : Plan κ ι V) (u : View ι V) : (c : Cmd κ ι V) → Reply c → Prop
  | .report _, _ => True
  | .members k, names =>
    (∀ i, u.sure i → plan.group i = k → i ∈ names) ∧
      ∀ i, i ∈ names → u.listed i ∧ plan.group i = k
  | .get i, none => ¬ u.sure i ∧ u.missing i
  | .get i, some v => plan.name v = i ∧ u.read v
  | .remove _, _ => True

/-- **The discipline of a client**: it looks up names it has found in a set, and takes out of the
set names it has found missing. -/
def discipline (plan : Plan κ ι V) : Discipline (signature κ ι V) (Option (View ι V)) where
  may t c :=
    match c with
    | .get i => ∃ u, t = some u ∧ u.listed i
    | .remove names => ∃ u, t = some u ∧ ∀ i, i ∈ names → u.missing i
    | _ => True
  after t c r t' := ∃ u', t' = some u' ∧ (∀ u, t = some u → u.Before u') ∧ Told plan u' c r

/-- What a listing gives to a client with this knowledge. -/
structure Lists (plan : Plan κ ι V) (u : View ι V) (k : κ) (found : List V) : Prop where
  /-- Nobody is left out that the client can be sure of. -/
  complete : ∀ i, u.sure i → plan.group i = k → ∃ v ∈ found, plan.name v = i
  /-- Everything has been read. -/
  sound : ∀ v ∈ found, plan.group (plan.name v) = k ∧ u.read v

theorem Lists.mono {plan : Plan κ ι V} {u u' : View ι V} {k : κ} {found : List V}
    (h : Lists plan u k found) (hu : u.Before u') : Lists plan u' k found where
  complete i hi := h.complete i (hu.sure ▸ hi)
  sound v hv := ⟨(h.sound v hv).1, hu.read v (h.sound v hv).2⟩

section Obeys

variable {plan : Plan κ ι V} {k : κ}

theorem obeys_lookUp {u : View ι V} {found : List V} {stale names : List ι}
    (hnames : ∀ i ∈ names, u.listed i ∧ plan.group i = k)
    (hfound : ∀ v ∈ found, plan.group (plan.name v) = k ∧ u.read v)
    (hstale : ∀ i ∈ stale, u.missing i) :
    (lookUp found stale names).Obeys (discipline plan) (fun a t => ∃ u', t = some u' ∧
      u.Before u' ∧ (∀ v ∈ found, v ∈ a.1) ∧
      (∀ i ∈ names, u.sure i → ∃ v ∈ a.1, plan.name v = i) ∧
      (∀ v ∈ a.1, plan.group (plan.name v) = k ∧ u'.read v) ∧ ∀ i ∈ a.2, u'.missing i)
      (some u) := by
  induction names generalizing u found stale with
  | nil => exact ⟨u, rfl, .refl u, fun _ hv => hv, by simp, hfound, hstale⟩
  | cons i names ih =>
    rw [lookUp, Program.obeys_bind, Program.obeys_send]
    refine ⟨⟨u, rfl, (hnames i List.mem_cons_self).1⟩, ?_⟩
    rintro r _ ⟨u₁, rfl, hbefore, htold⟩
    have hbefore := hbefore u rfl
    have hnames₁ : ∀ j ∈ names, u₁.listed j ∧ plan.group j = k := fun j hj =>
      ⟨hbefore.listed j (hnames j (List.mem_cons_of_mem _ hj)).1,
        (hnames j (List.mem_cons_of_mem _ hj)).2⟩
    have hfound₁ : ∀ v ∈ found, plan.group (plan.name v) = k ∧ u₁.read v := fun v hv =>
      ⟨(hfound v hv).1, hbefore.read v (hfound v hv).2⟩
    have hstale₁ : ∀ j ∈ stale, u₁.missing j := fun j hj => hbefore.missing j (hstale j hj)
    rcases r with - | v
    · -- The name goes to the stale ones, and the client was not sure of it.
      obtain ⟨hsure, hmissing⟩ := htold
      refine (ih hnames₁ hfound₁ ?_).mono ?_
      · intro j hj
        rcases List.mem_append.mp hj with hj | hj
        · exact hstale₁ j hj
        · rwa [List.mem_singleton.mp hj]
      · rintro a _ ⟨u', rfl, hbefore', hkept, hall, hsound, hstale'⟩
        refine ⟨u', rfl, hbefore.trans hbefore', hkept, ?_, hsound, hstale'⟩
        intro j hj hsurej
        rw [← hbefore.sure] at hsurej
        rcases List.mem_cons.mp hj with rfl | hj
        · exact absurd hsurej hsure
        · exact hall j hj hsurej
    · obtain ⟨hname, hread⟩ := htold
      refine (ih hnames₁ ?_ hstale₁).mono ?_
      · intro v' hv'
        rcases List.mem_append.mp hv' with hv' | hv'
        · exact hfound₁ v' hv'
        · rw [List.mem_singleton.mp hv', hname]
          exact ⟨(hnames i List.mem_cons_self).2, hread⟩
      · rintro a _ ⟨u', rfl, hbefore', hkept, hall, hsound, hstale'⟩
        refine ⟨u', rfl, hbefore.trans hbefore', ?_, ?_, hsound, hstale'⟩
        · exact fun v' hv' => hkept v' (List.mem_append_left _ hv')
        · intro j hj hsurej
          rcases List.mem_cons.mp hj with rfl | hj
          · exact ⟨v, hkept v (List.mem_append_right _ List.mem_cons_self), hname⟩
          · exact hall j hj (hbefore.sure ▸ hsurej)

/-- **The rule of a listing.** -/
theorem obeys_listActive {t : Option (View ι V)} {Q : List V → Option (View ι V) → Prop}
    (h : ∀ found u, (∀ u₀, t = some u₀ → u₀.Before u) → Lists plan u k found → Q found (some u)) :
    (listActive k).Obeys (discipline plan) Q t := by
  rw [listActive, Program.obeys_bind, Program.obeys_send]
  refine ⟨trivial, ?_⟩
  rintro names _ ⟨u₁, rfl, hbefore, hsure, hlisted⟩
  refine (obeys_lookUp (k := k) hlisted (by simp) (by simp)).bind ?_
  rintro ⟨found, stale⟩ _ ⟨u₂, rfl, hbefore₂, -, hall, hsound, hstale⟩
  have hlists : Lists plan u₂ k found := by
    refine ⟨fun i hi hk => ?_, hsound⟩
    rw [hbefore₂.sure] at hi
    exact hall i (hsure i hi hk) hi
  have hbefore₂ : ∀ u₀, t = some u₀ → u₀.Before u₂ := fun u₀ hu₀ => (hbefore u₀ hu₀).trans hbefore₂
  dsimp only
  split
  · exact h found u₂ hbefore₂ hlists
  · rw [Program.obeys_bind, Program.obeys_send]
    refine ⟨⟨u₂, rfl, hstale⟩, ?_⟩
    rintro - _ ⟨u₃, rfl, hbefore₃, -⟩
    have hbefore₃ := hbefore₃ u₂ rfl
    exact h found u₃ (fun u₀ hu₀ => (hbefore₂ u₀ hu₀).trans hbefore₃) (hlists.mono hbefore₃)

end Obeys

/-! ### The run rule -/

section Runs

variable {ο ρ : Type} [DecidableEq κ] [DecidableEq ι] (plan : Plan κ ι V) (punctual : ι → Prop)

/-- Time passes, but not beyond the moment the report of a punctual name expires: who is punctual
reports again before that. -/
def Passes (r r' : Registry ι V) : Prop :=
  ∃ now, r.now ≤ now ∧ r' = { r with now := now } ∧
    ∀ i v deadline, punctual i → r.reports i = some (v, deadline) → now < deadline

/-- Clients of a registry while time passes. -/
def system (body : ο → Program (signature κ ι V) ρ) : System (signature κ ι V) (Registry ι V) ο ρ :=
  ⟨store plan, body, Passes punctual⟩

/-- Nobody has reported. Names may be left in the sets, but none that is punctual. -/
def Fresh (r : Registry ι V) : Prop :=
  (∀ i, r.reports i = none) ∧ ∀ i, punctual i → i ∉ r.members

/-- What a client knows is so. -/
structure Faithful (log : List (Entry (signature κ ι V) ο ρ)) (client : ℕ) (u : View ι V) :
    Prop where
  /-- A punctual name in a set has reported. -/
  listed : ∀ i, punctual i → u.listed i → (newest plan i log).isSome = true
  /-- The client is sure of the punctual names that had reported when it began. -/
  sure : ∀ i, u.sure i ↔ punctual i ∧ (newest plan i (before client log)).isSome = true
  /-- No punctual name is ever missing. -/
  missing : ∀ i, punctual i → ¬ u.missing i
  /-- What has been read was the newest report at some moment since the client began. -/
  read : ∀ v, u.read v → Current plan client log v

variable {plan punctual} {log : List (Entry (signature κ ι V) ο ρ)} {client : ℕ} {u : View ι V}

omit [DecidableEq κ] in
theorem Faithful.cons (h : Faithful plan punctual log client u) (e : Entry (signature κ ι V) ο ρ)
    (he : ¬ (e.client = client ∧ e.act.isStart = true)) :
    Faithful plan punctual (e :: log) client u := by
  have hbefore : before client (e :: log) = before client log := by
    rw [before, if_neg he]
  constructor
  · intro i hi hlisted
    exact isSome_newest_of_suffix (List.suffix_cons e log) (h.listed i hi hlisted)
  · intro i
    rw [hbefore]
    exact h.sure i
  · exact h.missing
  · intro v hv
    obtain ⟨past, hpast, hlog, hnewest⟩ := h.read v hv
    rw [Current, hbefore]
    exact ⟨past, hpast, hlog.trans (List.suffix_cons e log), hnewest⟩

variable (plan punctual)

/-- What holds in every world: the punctual names that have reported stand in the set and their
reports stand, and what the clients know is so. -/
structure Kept (w : World (signature κ ι V) (Registry ι V) ο ρ) (g : ℕ → Option (View ι V)) :
    Prop where
  /-- A punctual name in a set has reported. -/
  member : ∀ i, punctual i → i ∈ w.shared.members → (newest plan i w.log).isSome = true
  /-- A punctual name that has reported is in the set. -/
  listed : ∀ i, punctual i → (newest plan i w.log).isSome = true → i ∈ w.shared.members
  /-- Its report stands. -/
  stands : ∀ i, punctual i → (newest plan i w.log).isSome = true →
    ∃ v deadline, w.shared.reports i = some (v, deadline) ∧ w.shared.now < deadline
  /-- A key holds the newest report. -/
  newest : ∀ i v deadline, w.shared.reports i = some (v, deadline) →
    newest plan i w.log = some v
  /-- What the clients know is so. -/
  faithful : ∀ client u, g client = some u → Faithful plan punctual w.log client u

variable {plan punctual} {w : World (signature κ ι V) (Registry ι V) ο ρ}
  {g : ℕ → Option (View ι V)}

omit [DecidableEq κ] in
/-- What is found is the newest report. -/
theorem Kept.newest_of_find (h : Kept plan punctual w g) {i : ι} {v : V}
    (hfind : w.shared.find i = some v) : Registry.newest plan i w.log = some v := by
  obtain ⟨⟨v', deadline⟩, hreport, hstands⟩ := Option.bind_eq_some_iff.mp hfind
  split at hstands
  · rw [h.newest i v' deadline hreport, ← hstands]
  · cases hstands

omit [DecidableEq κ] in
/-- A punctual name that has reported is found. -/
theorem Kept.find_ne_none (h : Kept plan punctual w g) {i : ι} (hi : punctual i)
    (hnewest : (Registry.newest plan i w.log).isSome = true) : w.shared.find i ≠ none := by
  obtain ⟨v, deadline, hreport, hstands⟩ := h.stands i hi hnewest
  rw [find, hreport, Option.bind_some, if_pos hstands]
  simp

omit [DecidableEq κ] in
/-- What a client knows before it issues a command. -/
theorem Kept.exists_view (h : Kept plan punctual w g) (client : ℕ) :
    ∃ u, Faithful plan punctual w.log client u ∧ ∀ u', g client = some u' → u' = u := by
  rcases hview : g client with - | u
  · refine ⟨⟨fun _ => False, fun i => punctual i ∧ (Registry.newest plan i
      (before client w.log)).isSome = true, fun _ => False, fun _ => False⟩, ?_, by simp⟩
    constructor <;> simp
  · exact ⟨u, h.faithful client u hview, by simp⟩

omit [DecidableEq κ] in
/-- A step that leaves the registry as it is, and tells a client nothing. -/
theorem Kept.record (h : Kept plan punctual w g) (client : ℕ) (op : ο)
    (a : Act (signature κ ι V) ρ) (t : Option (Task (signature κ ι V) ο ρ))
    (ha : reportOf a = none) {g' : ℕ → Option (View ι V)}
    (hg : ∀ j u, g' j = some u → (j = client → a.isStart = false ∧ g client = some u) ∧
      (j ≠ client → g j = some u)) :
    Kept plan punctual (w.record client op a w.shared t) g' := by
  have hnewest : ∀ i, Registry.newest plan i (w.record client op a w.shared t).log =
      Registry.newest plan i w.log := fun i => by rw [World.record_log, newest_cons, ha]
  constructor
  · intro i hi hmem
    rw [hnewest]
    exact h.member i hi hmem
  · intro i hi hsome
    rw [hnewest] at hsome
    exact h.listed i hi hsome
  · intro i hi hsome
    rw [hnewest] at hsome
    exact h.stands i hi hsome
  · intro i v deadline hreport
    rw [hnewest]
    exact h.newest i v deadline hreport
  · intro j u hu
    obtain ⟨hself, hother⟩ := hg j u hu
    rcases eq_or_ne j client with rfl | hne
    · obtain ⟨hstart, hview⟩ := hself rfl
      exact (h.faithful j u hview).cons _ (by simp [hstart])
    · exact (h.faithful j u (hother hne)).cons _ fun hcon => hne hcon.1.symm

omit [DecidableEq κ] in
/-- What a client that has issued a command knows, and what the others know. -/
theorem Kept.faithful_update (h : Kept plan punctual w g) {op : ο} {c : Cmd κ ι V} {r : Reply c}
    (hu : Faithful plan punctual (⟨client, op, .command c r⟩ :: w.log) client u) (j : ℕ)
    (u' : View ι V) (hu' : Function.update g client (some u) j = some u') :
    Faithful plan punctual (⟨client, op, .command c r⟩ :: w.log) j u' := by
  rcases eq_or_ne j client with rfl | hne
  · rw [Function.update_self, Option.some.injEq] at hu'
    rwa [← hu']
  · rw [Function.update_of_ne hne] at hu'
    exact (h.faithful j u' hu').cons _ fun hcon => hne hcon.1.symm

variable (plan punctual client w g) in
/-- After a command of a client the invariant holds again, with what the client is told by it. -/
def KeptAfter (op : ο) (c : Cmd κ ι V) (t : Option (Task (signature κ ι V) ο ρ)) : Prop :=
  ∃ u, (discipline plan).after (g client) c (exec plan c w.shared).1 (some u) ∧
    Kept plan punctual (w.record client op (.command c (exec plan c w.shared).1)
      (exec plan c w.shared).2 t) (Function.update g client (some u))

variable {op : ο} {t : Option (Task (signature κ ι V) ο ρ)}

/-- **A report**: its key stands, its name is in the set, and it is the newest. -/
theorem Kept.report (h : Kept plan punctual w g) (httl : ∀ i, punctual i → 0 < plan.ttl i)
    (v : V) : KeptAfter plan punctual client w g op (.report v) t := by
  obtain ⟨u, hu, hview⟩ := h.exists_view client
  refine ⟨u, ⟨u, rfl, fun u' hu' => hview u' hu' ▸ .refl u, trivial⟩, ?_⟩
  -- It is the newest of its own name, and says nothing of the others.
  have hnewest : ∀ i, Registry.newest plan i (w.record client op (.command (.report v)
      (exec plan (.report v) w.shared).1) (exec plan (.report v) w.shared).2 t).log =
      if plan.name v = i then some v else Registry.newest plan i w.log := fun i => newest_cons _
  constructor
  · intro i hi hmem
    rw [hnewest]
    split
    · rfl
    · rename_i hne
      refine h.member i hi ?_
      simp only [World.record_shared, exec] at hmem
      split at hmem
      · exact hmem
      · rcases List.mem_append.mp hmem with hmem | hmem
        · exact hmem
        · exact absurd (List.mem_singleton.mp hmem).symm hne
  · intro i hi hsome
    rw [hnewest] at hsome
    simp only [World.record_shared, exec]
    by_cases hname : plan.name v = i
    · subst hname
      split
      · assumption
      · exact List.mem_append_right _ List.mem_cons_self
    · rw [if_neg hname] at hsome
      have hmem := h.listed i hi hsome
      split
      · exact hmem
      · exact List.mem_append_left _ hmem
  · intro i hi hsome
    rw [hnewest] at hsome
    simp only [World.record_shared, exec]
    by_cases hname : plan.name v = i
    · subst hname
      have hpos := httl _ hi
      exact ⟨v, _, Function.update_self _ _ _, by omega⟩
    · rw [if_neg hname] at hsome
      rw [Function.update_of_ne (Ne.symm hname)]
      exact h.stands i hi hsome
  · intro i v' deadline hreport
    rw [hnewest]
    simp only [World.record_shared, exec] at hreport
    by_cases hname : plan.name v = i
    · subst hname
      rw [Function.update_self, Option.some.injEq, Prod.mk.injEq] at hreport
      rw [if_pos rfl, hreport.1]
    · rw [if_neg hname]
      rw [Function.update_of_ne (Ne.symm hname)] at hreport
      exact h.newest i v' deadline hreport
  · exact h.faithful_update (hu.cons _ (by simp [Act.isStart]))

/-- **A set is read**: all punctual names that have reported are in it. -/
theorem Kept.members (h : Kept plan punctual w g) (k : κ) :
    KeptAfter plan punctual client w g op (.members k) t := by
  obtain ⟨u, hu, hview⟩ := h.exists_view client
  have hmem : ∀ i, i ∈ (exec plan (.members k) w.shared).1 ↔
      i ∈ w.shared.members ∧ plan.group i = k := by simp [exec]
  have hcons := hu.cons ⟨client, op, .command (.members k)
    (exec plan (.members k) w.shared).1⟩ (by simp [Act.isStart])
  refine ⟨{ u with listed := fun i => u.listed i ∨ i ∈ w.shared.members },
    ⟨_, rfl, fun u' hu' => ?_, ?_, ?_⟩,
    h.member, h.listed, h.stands, h.newest, h.faithful_update ?_⟩
  · rw [hview u' hu']
    exact ⟨fun _ => .inl, rfl, fun _ hi => hi, fun _ hv => hv⟩
  · intro i hi hk
    obtain ⟨hpunctual, hsome⟩ := (hu.sure i).mp hi
    exact (hmem i).mpr
      ⟨h.listed i hpunctual (isSome_newest_of_suffix (before_suffix client _) hsome), hk⟩
  · exact fun i hi => ⟨.inr ((hmem i).mp hi).1, ((hmem i).mp hi).2⟩
  · refine ⟨?_, hcons.sure, hcons.missing, hcons.read⟩
    rintro i hi (hlisted | hlisted)
    · exact hcons.listed i hi hlisted
    · exact isSome_newest_of_suffix (List.suffix_cons _ _) (h.member i hi hlisted)

/-- **A name that is in a set is looked up**: if it is punctual its report stands. -/
theorem Kept.get (h : Kept plan punctual w g) {i : ι}
    (hmay : (discipline plan).may (g client) (.get i)) :
    KeptAfter plan punctual client w g op (.get i) t := by
  obtain ⟨u, hu, hview⟩ := h.exists_view client
  obtain ⟨u', hu', hlisted⟩ := hmay
  obtain rfl := hview u' hu'
  have hcons := hu.cons ⟨client, op, .command (.get i) (w.shared.find i)⟩ (by simp [Act.isStart])
  have hkept : ∀ u', Faithful plan punctual (⟨client, op, .command (.get i)
      (w.shared.find i)⟩ :: w.log) client u' →
      Kept plan punctual (w.record client op (.command (.get i) (w.shared.find i)) w.shared t)
        (Function.update g client (some u')) := fun u' hu' =>
    ⟨h.member, h.listed, h.stands, h.newest, h.faithful_update hu'⟩
  simp only [KeptAfter, exec]
  -- Only of a name that is not punctual nothing may be found.
  rcases hfind : w.shared.find i with - | v
  · have hpunctual : ¬ punctual i := fun hi =>
      h.find_ne_none hi (hu.listed i hi hlisted) hfind
    refine ⟨{ u' with missing := fun j => u'.missing j ∨ j = i },
      ⟨_, rfl, fun u'' hu'' => ?_, ?_⟩, hfind ▸ hkept _ ?_⟩
    · rw [hview u'' hu'']
      exact ⟨fun _ hj => hj, rfl, fun _ => .inl, fun _ hv => hv⟩
    · exact ⟨fun hsure => hpunctual ((hu.sure i).mp hsure).1, .inr rfl⟩
    · refine ⟨hcons.listed, hcons.sure, ?_, hcons.read⟩
      rintro j hj (hmissing | rfl)
      · exact hu.missing j hj hmissing
      · exact hpunctual hj
  · have hnewest := h.newest_of_find hfind
    refine ⟨{ u' with read := fun v' => u'.read v' ∨ v' = v },
      ⟨_, rfl, fun u'' hu'' => ?_, ?_⟩, hfind ▸ hkept _ ?_⟩
    · rw [hview u'' hu'']
      exact ⟨fun _ hj => hj, rfl, fun _ hj => hj, fun _ => .inl⟩
    · exact ⟨name_of_newest hnewest, .inr rfl⟩
    · refine ⟨hcons.listed, hcons.sure, hcons.missing, ?_⟩
      rintro v' (hread | rfl)
      · exact hcons.read v' hread
      · rw [Current, name_of_newest hnewest, before, if_neg (by simp [Act.isStart])]
        exact ⟨w.log, before_suffix client _, List.suffix_cons _ _, hnewest⟩

/-- **Names are taken out** that were found missing, and no punctual name is one of them. -/
theorem Kept.remove (h : Kept plan punctual w g) {names : List ι}
    (hmay : (discipline plan).may (g client) (.remove names)) :
    KeptAfter plan punctual client w g op (.remove names) t := by
  obtain ⟨u, hu, hview⟩ := h.exists_view client
  obtain ⟨u', hu', hmissing⟩ := hmay
  obtain rfl := hview u' hu'
  refine ⟨u', ⟨u', rfl, fun u'' hu'' => hview u'' hu'' ▸ .refl u', trivial⟩, ?_⟩
  have hmem : ∀ i, i ∈ (exec plan (.remove names) w.shared).2.members ↔
      i ∈ w.shared.members ∧ i ∉ names := by simp [exec]
  constructor
  · exact fun i hi hin => h.member i hi ((hmem i).mp hin).1
  · exact fun i hi hsome =>
      (hmem i).mpr ⟨h.listed i hi hsome, fun hin => hu.missing i hi (hmissing i hin)⟩
  · exact h.stands
  · exact h.newest
  · exact h.faithful_update (hu.cons _ (by simp [Act.isStart]))

/-- **A command keeps the invariant**, and the client knows what it has been told. -/
theorem Kept.command (h : Kept plan punctual w g) (httl : ∀ i, punctual i → 0 < plan.ttl i)
    (c : Cmd κ ι V) (hmay : (discipline plan).may (g client) c) :
    KeptAfter plan punctual client w g op c t := by
  cases c with
  | report v => exact h.report httl v
  | members k => exact h.members k
  | get i => exact h.get hmay
  | remove names => exact h.remove hmay

variable {R : Rules (signature κ ι V) (Registry ι V) ο ρ}
  {body : ο → Program (signature κ ι V) ρ} {Q : ο → ρ → Option (View ι V) → Prop}

/-- Programs that keep the discipline keep the invariant. -/
theorem tied (httl : ∀ i, punctual i → 0 < plan.ttl i)
    (hbody : ∀ op, (body op).Obeys (discipline plan) (Q op) none) :
    Tied (system plan punctual body) R (Fresh punctual) (discipline plan) (fun _ => none) Q
      (Kept plan punctual) where
  body op _ := hbody op
  init := by
    rintro r ⟨hreports, hmembers⟩
    refine ⟨fun _ => none, ?_, ?_, ?_, ?_, by simp⟩
    · exact fun i hi hmem => absurd hmem (hmembers i hi)
    · exact fun i _ hsome => by cases hsome
    · exact fun i _ hsome => by cases hsome
    · intro i v deadline hreport
      have hnone := hreports i
      simp only [World.fresh] at hreport
      rw [hnone] at hreport
      cases hreport
  start := by
    intro w g i op h _ _
    refine h.record i op .start _ rfl fun j u hu => ⟨?_, ?_⟩
    · rintro rfl
      rw [Function.update_self] at hu
      cases hu
    · intro hne
      rwa [Function.update_of_ne hne] at hu
  command := by
    intro w g i op c k h _ _ hmay _ _
    obtain ⟨u, hafter, hkept⟩ : KeptAfter plan punctual i w g op c
        (some ⟨op, k (exec plan c w.shared).1⟩) := h.command httl c hmay
    exact ⟨some u, hafter, hkept⟩
  finish := by
    intro w g i op a h _ _
    refine h.record i op (.finish a) _ rfl fun j u hu => ⟨?_, fun _ => hu⟩
    rintro rfl
    exact ⟨rfl, hu⟩
  crash := by
    intro w g i op p h _
    refine h.record i op .crash _ rfl fun j u hu => ⟨?_, fun _ => hu⟩
    rintro rfl
    exact ⟨rfl, hu⟩
  -- Time passes, but no report of a punctual name expires.
  outside := by
    rintro w g _ h ⟨now, -, rfl, hnow⟩
    refine ⟨h.member, h.listed, ?_, h.newest, h.faithful⟩
    intro i hi hsome
    obtain ⟨v, deadline, hreport, -⟩ := h.stands i hi hsome
    exact ⟨v, deadline, hreport, hnow i v deadline hi hreport⟩

/-- **The run rule of a registry**: what a client is about to return is what its program promises
of a client that knows what is so. -/
theorem exists_view (httl : ∀ i, punctual i → 0 < plan.ttl i)
    (hbody : ∀ op, (body op).Obeys (discipline plan) (Q op) none)
    (hw : Reachable (system plan punctual body) R (Fresh punctual) w) {op : ο} {a : ρ}
    (hi : w.tasks client = some ⟨op, .done a⟩) :
    ∃ t, Q op a t ∧ ∀ u, t = some u → Faithful plan punctual w.log client u := by
  obtain ⟨g, hkept, hfits⟩ := hw.ghosts (tied httl hbody)
  exact ⟨g client, hfits client op _ hi, hkept.faithful client⟩

end Runs

end Registry

end AiAgent

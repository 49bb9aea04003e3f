import AiAgent.Telemetry.Sample

/-!
# The sampler of the dashboard

`run_dashboard_telemetry_sampler` goes round and round: it makes a sample, stores it, appends it to
the history and appends the events since the sample before to a log of the newest events
(`AiAgent.Telemetry.round`). Whatever raises in a round is caught and reported, once for as long as
the rounds raise the same.

The log can be relied on. The events of a source are the newest of the log of changes of what the
source reads, and so are those about the sampler itself of how its rounds end
(`AiAgent.Telemetry.events_of_sampled`). It takes that no round is broken off between two of its
events: such a round is reported again from the sample before (`AiAgent.Telemetry.Torn`).
-/

namespace AiAgent

namespace Telemetry

variable {F : Type}

/-! ### The board -/

/-- What is stored for the dashboard. -/
structure Board (F : Type) where
  /-- `llm:dashboard:telemetry:live`. -/
  live : Option (Sample F)
  /-- `llm:dashboard:telemetry:history`: each sample has the second it was captured at as its
  score. -/
  history : List (Sample F)
  /-- `llm:dashboard:events`, head first. -/
  events : List Event

/-- What is raised. -/
structure Exn where
  /-- `type(exc).__name__`. -/
  name : String
  /-- `str(exc)`. -/
  text : String
  deriving DecidableEq, Repr

/-- `signature`. -/
def Exn.signature (exc : Exn) : String := exc.name ++ ":" ++ exc.text

/-- What the sampler works on. -/
structure Desk (F : Type) where
  /-- What is stored. -/
  board : Board F
  /-- `previous_sample`. -/
  previousSample : Option (Sample F)
  /-- `last_error_signature`. -/
  lastErrorSignature : Option String
  /-- How many writes of the round go through before one raises, and what it raises. -/
  luck : Option (ℕ × Exn)

/-- A part of a round: what raises leaves what was written. -/
abbrev Sampling (F : Type) := ExceptT Exn (StateM (Desk F))

/-- What happens to a round. -/
structure Round (F : Type) where
  /-- What `build_admin_dashboard_summary` returns or raises. -/
  summary : Except Exn (Summary F)
  /-- `int(time.time())` when the sample is made. -/
  nowTs : ℕ
  /-- How many writes go through before one raises, and what it raises. -/
  luck : Option (ℕ × Exn)
  /-- `int(time.time())` when the sampler reports on itself. -/
  reportedAt : ℕ
  /-- The write of the report raises. -/
  reportRaises : Bool

/-! ### Rounds -/

section Rounds

variable (fl : Floats F) (cfg : Settings)

/-- A write to the store. -/
def write (f : Board F → Board F) : Sampling F Unit := fun desk =>
  match desk.luck with
  | none => (.ok (), { desk with board := f desk.board })
  | some (0, exc) => (.error exc, desk)
  | some (n + 1, exc) => (.ok (), { desk with board := f desk.board, luck := some (n, exc) })

/-- `store_dashboard_live_sample`. The time it stands is left out. -/
def storeDashboardLiveSample (sample : Sample F) : Sampling F Unit :=
  write fun board => { board with live := some sample }

/-- `ZADD` of a sample, and `ZREMRANGEBYSCORE` from zero to `oldest_allowed`. -/
def appendHistory [DecidableEq F] (sample : Sample F) (history : List (Sample F)) :
    List (Sample F) :=
  (if sample ∈ history then history else history ++ [sample]).filter fun kept =>
    sample.capturedAt < kept.capturedAt + max 60 cfg.historyRetentionSeconds

/-- `append_dashboard_history_sample`. -/
def appendDashboardHistorySample [DecidableEq F] (sample : Sample F) :
    Sampling F Unit :=
  write fun board => { board with history := appendHistory cfg sample board.history }

/-- How many events are kept. -/
def eventLimit : ℕ := max 1 cfg.eventLogMaxItems

/-- `append_dashboard_event`. -/
def appendDashboardEvent (event : Event) : Sampling F Unit :=
  write fun board => { board with events := ChangeLog.push (eventLimit cfg) board.events event }

/-- The events one after the other. -/
def appendDashboardEvents : List Event → Sampling F Unit
  | [] => pure ()
  | event :: events => do
    appendDashboardEvent cfg event
    appendDashboardEvents events

/-- `"Telemetry sampler recovered"`. -/
def recoveredEvent (timestamp : ℕ) : Event where
  timestamp := timestamp
  severity := .info
  source := .telemetrySampler
  message := "Telemetry sampler recovered"
  context := []

/-- `"Telemetry sampler error"`. -/
def errorEvent (timestamp : ℕ) (exc : Exn) : Event where
  timestamp := timestamp
  severity := .error
  source := .telemetrySampler
  message := "Telemetry sampler error"
  context := [("error", .text exc.text)]

/-- The sample of a round. -/
def Round.sample (r : Round F) (previousSample : Option (Sample F)) (summary : Summary F) :
    Sample F :=
  buildDashboardLiveSample fl summary previousSample r.nowTs

/-- The sample is stored, and its events are appended. -/
def publish [DecidableEq F] (sample : Sample F) : Sampling F Unit := do
  let publicSample := sanitizeDashboardLiveSample sample
  storeDashboardLiveSample publicSample
  appendDashboardHistorySample cfg publicSample
  appendDashboardEvents cfg (buildDashboardEvents cfg (← get).previousSample publicSample)
  modify fun desk => { desk with previousSample := some sample }

/-- What a round tries. -/
def attempt [DecidableEq F] (r : Round F) : Sampling F Unit := do
  match r.summary with
  | .error exc => throw exc
  | .ok summary =>
    publish cfg (r.sample fl (← get).previousSample summary)
    if (← get).lastErrorSignature.isSome then
      appendDashboardEvent cfg (recoveredEvent r.reportedAt)
      modify fun desk => { desk with lastErrorSignature := none }

/-- What a round does about an exception; `none` where the report raises itself and the sampler
ends. -/
def report (r : Round F) (exc : Exn) (desk : Desk F) : Option (Desk F) :=
  if desk.lastErrorSignature = some exc.signature then some desk
  else if r.reportRaises then none
  else
    some { desk with
      board := { desk.board with
        events := ChangeLog.push (eventLimit cfg) desk.board.events (errorEvent r.reportedAt exc) }
      lastErrorSignature := some exc.signature }

/-- A round of `run_dashboard_telemetry_sampler`. -/
def round [DecidableEq F] (r : Round F) (desk : Desk F) : Option (Desk F) :=
  match (attempt fl cfg r).run.run { desk with luck := r.luck } with
  | (.ok (), desk) => some desk
  | (.error exc, desk) => report cfg r exc desk

end Rounds

/-! ### What the parts of a round do -/

/-- How a part of a round ends. -/
def Ends {α : Type} (p : Sampling F α) (desk : Desk F) (ok : α → Desk F → Prop)
    (raised : Exn → Desk F → Prop) : Prop :=
  match p.run.run desk with
  | (.ok a, desk') => ok a desk'
  | (.error exc, desk') => raised exc desk'

section Parts

variable {α β : Type} {desk : Desk F} {ok : α → Desk F → Prop} {raised : Exn → Desk F → Prop}

theorem ends_pure {a : α} (h : ok a desk) : Ends (pure a) desk ok raised := h

/-- One part after the other. -/
theorem Ends.bind {p : Sampling F β} {f : β → Sampling F α} {ok' : β → Desk F → Prop}
    {raised' : Exn → Desk F → Prop} (h : Ends p desk ok' raised')
    (hraised : ∀ exc desk', raised' exc desk' → raised exc desk')
    (hf : ∀ b desk', ok' b desk' → Ends (f b) desk' ok raised) :
    Ends (p >>= f) desk ok raised := by
  have hrun : (p >>= f).run.run desk =
      match p.run.run desk with
      | (.ok b, desk') => (f b).run.run desk'
      | (.error exc, desk') => (.error exc, desk') := by
    change (ExceptT.bindCont f (p desk).1) (p desk).2 = _
    rcases hp : p desk with ⟨exc | b, desk'⟩
    all_goals
      change _ = match p desk with
        | (.ok b, desk') => (f b).run.run desk'
        | (.error exc, desk') => (.error exc, desk')
      rw [hp]
      rfl
  rw [Ends] at h ⊢
  rw [hrun]
  rcases hp : p.run.run desk with ⟨exc | b, desk'⟩ <;> rw [hp] at h
  · exact hraised exc desk' h
  · exact hf b desk' h

theorem Ends.mono {p : Sampling F α} {ok' : α → Desk F → Prop} {raised' : Exn → Desk F → Prop}
    (h : Ends p desk ok raised) (hok : ∀ a desk', ok a desk' → ok' a desk')
    (hraised : ∀ exc desk', raised exc desk' → raised' exc desk') : Ends p desk ok' raised' := by
  rw [Ends] at h ⊢
  rcases hp : p.run.run desk with ⟨exc | a, desk'⟩ <;> rw [hp] at h
  · exact hraised exc desk' h
  · exact hok a desk' h

/-- What is shown of an end is shown of the one there is. -/
theorem Ends.traced {p : Sampling F α} (h : Ends p desk ok raised) :
    Ends p desk (fun a desk' => ok a desk' ∧ p.run.run desk = (.ok a, desk'))
      (fun exc desk' => raised exc desk' ∧ p.run.run desk = (.error exc, desk')) := by
  rw [Ends] at h ⊢
  rcases hp : p.run.run desk with ⟨exc | a, desk'⟩ <;> rw [hp] at h
  · exact ⟨h, rfl⟩
  · exact ⟨h, rfl⟩

theorem ends_get {raised : Exn → Desk F → Prop} :
    Ends (get : Sampling F (Desk F)) desk (fun a desk' => a = desk ∧ desk' = desk) raised :=
  ⟨rfl, rfl⟩

theorem ends_modify {f : Desk F → Desk F} {raised : Exn → Desk F → Prop} :
    Ends (modify f : Sampling F Unit) desk (fun _ desk' => desk' = f desk) raised := rfl

/-- The writes that are left once one has gone through. -/
def spent : Option (ℕ × Exn) → Option (ℕ × Exn)
  | some (n + 1, exc) => some (n, exc)
  | luck => luck

theorem ends_write (f : Board F → Board F) :
    Ends (write f) desk
      (fun _ desk' => desk' = { desk with board := f desk.board, luck := spent desk.luck } ∧
        ∀ exc, desk.luck ≠ some (0, exc))
      (fun exc desk' => desk' = desk ∧ desk.luck = some (0, exc)) := by
  rcases hluck : desk.luck with - | ⟨n, exc⟩
  · simp [Ends, ExceptT.run, StateT.run, write, hluck, spent]
  · rcases n with - | n
    · simp [Ends, ExceptT.run, StateT.run, write, hluck]
    · simp [Ends, ExceptT.run, StateT.run, write, hluck, spent]

end Parts

section Events

variable {cfg : Settings} {desk : Desk F}

/-- With luck for all of them, all events are appended. -/
theorem ends_appendDashboardEvents (events : List Event)
    (hluck : ∀ n exc, desk.luck = some (n, exc) → events.length ≤ n) :
    Ends (appendDashboardEvents cfg events) desk
      (fun _ desk' => ∃ luck, desk' = { desk with
        board := { desk.board with
          events := events.foldl (ChangeLog.push (eventLimit cfg)) desk.board.events }
        luck := luck })
      (fun _ _ => False) := by
  induction events generalizing desk with
  | nil => exact ends_pure ⟨desk.luck, rfl⟩
  | cons event events ih =>
    refine (ends_write _).bind ?_ ?_
    · rintro exc _ ⟨-, hzero⟩
      simpa using hluck 0 exc hzero
    rintro - _ ⟨rfl, -⟩
    have hnext : ∀ n exc, spent desk.luck = some (n, exc) → events.length ≤ n := by
      intro n exc hspent
      rcases h : desk.luck with - | ⟨m, exc'⟩
      · simp [h, spent] at hspent
      · have hm := hluck m exc' h
        rcases m with - | m
        · simp at hm
        · simp only [h, spent, Option.some.injEq, Prod.mk.injEq] at hspent
          simp only [List.length_cons] at hm
          omega
    refine (ih hnext).mono ?_ fun _ _ h => h
    rintro - _ ⟨luck, rfl⟩
    exact ⟨luck, rfl⟩

/-- The round is broken off between two of the given events. -/
def Torn (luck : Option (ℕ × Exn)) (events : List Event) : Prop :=
  ∃ n exc, luck = some (n, exc) ∧ 2 < n ∧ n < 2 + events.length

variable [DecidableEq F]

/-- **A sample is published with all of its events or with none.** -/
theorem ends_publish (cfg : Settings) (desk : Desk F) (sample : Sample F)
    (htorn : ¬ Torn desk.luck (buildDashboardEvents cfg desk.previousSample
      (sanitizeDashboardLiveSample sample))) :
    Ends (publish cfg sample) desk
      (fun _ desk' => desk'.board.events =
          (buildDashboardEvents cfg desk.previousSample
            (sanitizeDashboardLiveSample sample)).foldl (ChangeLog.push (eventLimit cfg))
            desk.board.events ∧
        desk'.previousSample = some sample ∧
        desk'.lastErrorSignature = desk.lastErrorSignature)
      (fun _ desk' => desk'.board.events = desk.board.events ∧
        desk'.previousSample = desk.previousSample ∧
        desk'.lastErrorSignature = desk.lastErrorSignature) := by
  set events := buildDashboardEvents cfg desk.previousSample (sanitizeDashboardLiveSample sample)
    with hevents
  refine (ends_write _).bind ?_ ?_
  · rintro exc _ ⟨rfl, -⟩
    exact ⟨rfl, rfl, rfl⟩
  rintro - _ ⟨rfl, hfirst⟩
  refine (ends_write _).bind ?_ ?_
  · rintro exc _ ⟨rfl, -⟩
    exact ⟨rfl, rfl, rfl⟩
  rintro - _ ⟨rfl, hsecond⟩
  refine ends_get.bind (fun _ _ h => h) ?_
  rintro _ _ ⟨rfl, rfl⟩
  dsimp only at hsecond ⊢
  rw [← hevents]
  -- Not torn: either there is luck for all events, or none for the first of them.
  by_cases hluck : ∀ n exc, spent (spent desk.luck) = some (n, exc) → events.length ≤ n
  · refine (ends_appendDashboardEvents events hluck).bind (fun _ _ h => h.elim) ?_
    rintro - _ ⟨luck, rfl⟩
    refine ends_modify.mono ?_ fun _ _ h => h
    rintro - _ rfl
    exact ⟨rfl, rfl, rfl⟩
  · push Not at hluck
    obtain ⟨n, exc, hspent, hn⟩ := hluck
    obtain ⟨m, hm⟩ : ∃ m, desk.luck = some (m, exc) ∧ m = n + 2 := by
      rcases h : desk.luck with - | ⟨_ | _ | m, exc'⟩
      · simp [h, spent] at hspent
      · exact absurd h (hfirst exc')
      · exact absurd (by simp [h, spent]) (hsecond exc')
      · simp only [h, spent, Option.some.injEq, Prod.mk.injEq] at hspent
        exact ⟨m + 2, by simp [hspent.2], by omega⟩
    have hzero : n = 0 := by
      by_contra hpos
      exact htorn ⟨m, exc, hm.1, by omega, by omega⟩
    subst hzero
    rcases hlist : events with - | ⟨event, rest⟩
    · simp [hlist] at hn
    · have hfirst : Ends (appendDashboardEvents cfg (event :: rest))
          { desk with
            board := { desk.board with
              live := some (sanitizeDashboardLiveSample sample)
              history := appendHistory cfg (sanitizeDashboardLiveSample sample)
                desk.board.history }
            luck := spent (spent desk.luck) }
          (fun _ _ => False) (fun _ desk' => desk'.board.events = desk.board.events ∧
            desk'.previousSample = desk.previousSample ∧
            desk'.lastErrorSignature = desk.lastErrorSignature) := by
        refine (ends_write _).bind ?_ ?_
        · rintro - _ ⟨rfl, -⟩
          exact ⟨rfl, rfl, rfl⟩
        · rintro - _ ⟨-, hne⟩
          exact absurd hspent (hne exc)
      exact hfirst.bind (fun _ _ h => h) fun _ _ h => h.elim

end Events

/-! ### What the events of samples tell -/

section Told

variable {cfg : Settings}

/-- The events of the samples that follow a sample. -/
def newsOf (cfg : Settings) (previousSample : Option (Sample F)) (samples : List (Sample F)) :
    List Event :=
  samples.flatMap fun sample =>
    buildDashboardEvents cfg previousSample (sanitizeDashboardLiveSample sample)

/-- What a source has told of some samples: the changes since the first of them. -/
def toldOf (cfg : Settings) (source : Source) : List (Sample F) → List Reading
  | [] => []
  | first :: samples =>
    ChangeLog.changes (first.reading cfg source) (samples.map fun s => s.reading cfg source)

/-- One more sample: a source tells of it what has changed. -/
theorem toldOf_concat (source : Source) (samples : List (Sample F)) (sample : Sample F) :
    toldOf cfg source (samples ++ [sample]) = toldOf cfg source samples ++
      (ofSource source (newsOf cfg samples.getLast? [sample])).map Event.tells := by
  rw [newsOf, List.flatMap_singleton]
  rcases samples with - | ⟨first, samples⟩
  · rfl
  obtain ⟨last, hlast⟩ : ∃ last, (first :: samples).getLast? = some last :=
    ⟨_, List.getLast?_eq_some_getLast (List.cons_ne_nil first samples)⟩
  have hreading : (first.reading cfg source :: samples.map fun s => s.reading cfg source).getLast? =
      some (last.reading cfg source) := by
    rw [← List.map_cons (f := fun s : Sample F => s.reading cfg source), List.getLast?_map, hlast,
      Option.map_some]
  rw [hlast, tells_buildDashboardEvents, reading_sanitize, List.cons_append, toldOf, toldOf,
    List.map_append, List.map_singleton, ChangeLog.changes_concat, hreading]
  simp only [Option.some_inj]

/-- The events of samples are none about the sampler. -/
theorem ofSource_newsOf (previousSample : Option (Sample F)) (samples : List (Sample F)) :
    ofSource .telemetrySampler (newsOf cfg previousSample samples) = [] := by
  rw [ofSource, newsOf, List.filter_flatMap, List.flatMap_eq_nil_iff]
  intro sample _
  rcases previousSample with - | previous
  · rfl
  · exact List.map_eq_nil_iff.mp (tells_buildDashboardEvents .telemetrySampler previous _)

/-- What a round leaves: the events of what it publishes, and what it reports on itself. -/
structure Left (cfg : Settings) (desk : Desk F) (published : List (Sample F))
    (outcome : Option String) (desk' : Desk F) : Prop where
  /-- The sample the next round compares with. -/
  previous : desk'.previousSample = published.getLast?.or desk.previousSample
  /-- The signature the next round compares with. -/
  signature : desk'.lastErrorSignature = outcome
  /-- The events of the samples and the reports. -/
  events : ∃ reports : List Event, desk'.board.events =
      (newsOf cfg desk.previousSample published ++ reports).foldl
        (ChangeLog.push (eventLimit cfg)) desk.board.events ∧
    (∀ report ∈ reports, report.source = .telemetrySampler) ∧
    reports.map (fun report => decide (report.severity = .info)) =
      if desk.lastErrorSignature = outcome then [] else [outcome.isNone]

variable {board : Board F} {samples : List (Sample F)} {outcomes : List (Option String)}
  {desk : Desk F}

/-- What a run leaves: the events it has appended, the oldest first. -/
structure Run (cfg : Settings) (board : Board F) (samples : List (Sample F))
    (outcomes : List (Option String)) (desk : Desk F) (events : List Event) : Prop where
  /-- The newest of them are in the log. -/
  newest : desk.board.events = (events.reverse ++ board.events).take (eventLimit cfg)
  /-- What the sources have told. -/
  told : ∀ source, source ≠ .telemetrySampler →
    (ofSource source events).map Event.tells = toldOf cfg source samples
  /-- What the sampler has told of itself. -/
  reported : (ofSource .telemetrySampler events).map (fun e => decide (e.severity = .info)) =
    (ChangeLog.changes none outcomes).map Option.isNone
  /-- The sample the next round compares with. -/
  previous : desk.previousSample = samples.getLast?
  /-- The signature the next round compares with. -/
  signature : some desk.lastErrorSignature = (none :: outcomes).getLast?

/-- One more round. -/
theorem Run.round {desk' : Desk F} {events : List Event} {published : List (Sample F)}
    {outcome : Option String} (h : Run cfg board samples outcomes desk events)
    (hpublished : published = [] ∨ ∃ sample, published = [sample])
    (hleft : Left cfg desk published outcome desk') :
    ∃ more, Run cfg board (samples ++ published) (outcomes ++ [outcome]) desk'
      (events ++ more) := by
  obtain ⟨reports, hevents, hsource, hseverity⟩ := hleft.events
  refine ⟨newsOf cfg desk.previousSample published ++ reports, ?_, ?_, ?_, ?_, ?_⟩
  · rw [hevents, h.newest, ChangeLog.foldl_push]
    simp only [List.reverse_append, List.append_assoc]
  · intro source hne
    have hnone : ofSource source reports = [] := by
      refine List.filter_eq_nil_iff.mpr fun report hreport => ?_
      simp [hsource report hreport, hne.symm]
    rw [ofSource_append, ofSource_append, hnone, List.append_nil, List.map_append,
      h.told source hne, h.previous]
    rcases hpublished with rfl | ⟨sample, rfl⟩
    · simp [newsOf, ofSource]
    · rw [toldOf_concat]
  · have hall : ofSource .telemetrySampler reports = reports := by
      refine List.filter_eq_self.mpr fun report hreport => ?_
      simp [hsource report hreport]
    rw [ofSource_append, ofSource_append, ofSource_newsOf, hall, List.nil_append, List.map_append,
      h.reported, hseverity, ChangeLog.changes_concat, ← h.signature]
    simp only [Option.some_inj]
    split <;> simp
  · rw [hleft.previous, h.previous, List.getLast?_append]
  · rw [hleft.signature, ← List.cons_append, List.getLast?_concat]

/-- The newest event of a source that is kept is its newest one. -/
theorem Run.getLast?_of_head? {events : List Event} (hempty : board.events = [])
    (hrun : Run cfg board samples outcomes desk events) {source : Source} {event : Event}
    (hevent : (ofSource source desk.board.events).head? = some event) :
    (ofSource source events).getLast? = some event := by
  have hprefix : ofSource source desk.board.events <+: (ofSource source events).reverse := by
    rw [hrun.newest, hempty, List.append_nil, ofSource, ofSource, ← List.filter_reverse]
    exact (List.take_prefix _ _).filter _
  obtain ⟨rest, hrest⟩ := hprefix
  rw [← List.head?_reverse, ← hrest, List.head?_append, hevent, Option.some_or]

end Told

/-! ### What a round does -/

section Run

variable [DecidableEq F] (fl : Floats F) (cfg : Settings)

/-- The sample the round publishes, if it gets that far. -/
def Round.published (r : Round F) (desk : Desk F) : List (Sample F) :=
  match r.summary with
  | .error _ => []
  | .ok summary =>
    match (publish cfg (r.sample fl desk.previousSample summary)).run.run
        { desk with luck := r.luck } with
    | (.ok _, _) => [r.sample fl desk.previousSample summary]
    | (.error _, _) => []

/-- How the round ends: the signature of what it raises, if it does. -/
def Round.outcome (r : Round F) (desk : Desk F) : Option String :=
  match (attempt fl cfg r).run.run { desk with luck := r.luck } with
  | (.ok _, _) => none
  | (.error exc, _) => some exc.signature

/-- The round is broken off between two of its events. -/
def Round.Torn (r : Round F) (desk : Desk F) : Prop :=
  ∃ summary, r.summary = .ok summary ∧
    Telemetry.Torn r.luck (buildDashboardEvents cfg desk.previousSample
      (sanitizeDashboardLiveSample (r.sample fl desk.previousSample summary)))

variable {fl cfg} {desk : Desk F}

/-- What a round has done when it ends or raises: the sampler has not reported on itself yet,
unless it has recovered. -/
theorem ends_attempt (r : Round F) (htorn : ¬ r.Torn fl cfg desk) :
    Ends (attempt fl cfg r) { desk with luck := r.luck }
      (fun _ desk' => Left cfg desk (r.published fl cfg desk) none desk')
      (fun _ desk' =>
        desk'.previousSample = (r.published fl cfg desk).getLast?.or desk.previousSample ∧
          desk'.lastErrorSignature = desk.lastErrorSignature ∧
          desk'.board.events = (newsOf cfg desk.previousSample (r.published fl cfg desk)).foldl
            (ChangeLog.push (eventLimit cfg)) desk.board.events) := by
  rw [attempt]
  -- Without a summary nothing is published.
  rcases hsummary : r.summary with exc | summary
  · have hpublished : r.published fl cfg desk = [] := by simp [Round.published, hsummary]
    rw [hpublished]
    exact ⟨rfl, rfl, rfl⟩
  refine ends_get.bind (fun _ _ h => h) ?_
  rintro _ _ ⟨rfl, rfl⟩
  have hpublish := (ends_publish cfg { desk with luck := r.luck }
    (r.sample fl desk.previousSample summary) fun h => htorn ⟨summary, hsummary, h⟩).traced
  refine hpublish.bind ?_ ?_
  · rintro exc desk' ⟨⟨hevents, hprevious, hsignature⟩, hrun⟩
    have hpublished : r.published fl cfg desk = [] := by simp [Round.published, hsummary, hrun]
    rw [hpublished]
    exact ⟨hprevious, hsignature, hevents⟩
  rintro _ desk' ⟨⟨hevents, hprevious, hsignature⟩, hrun⟩
  have hpublished : r.published fl cfg desk = [r.sample fl desk.previousSample summary] := by
    simp [Round.published, hsummary, hrun]
  have hnews : newsOf cfg desk.previousSample (r.published fl cfg desk) =
      buildDashboardEvents cfg desk.previousSample
        (sanitizeDashboardLiveSample (r.sample fl desk.previousSample summary)) := by
    simp [newsOf, hpublished]
  dsimp only at hevents hsignature
  refine ends_get.bind (fun _ _ h => h) ?_
  rintro _ _ ⟨rfl, rfl⟩
  -- A round after an error tells that the telemetry has recovered.
  split
  next hsome =>
    rw [hsignature] at hsome
    refine (ends_write _).bind ?_ ?_
    · rintro exc _ ⟨rfl, -⟩
      exact ⟨by simp [hprevious, hpublished], hsignature, by rw [hnews]; exact hevents⟩
    rintro - _ ⟨rfl, -⟩
    refine ends_modify.mono ?_ fun _ _ h => h
    rintro - _ rfl
    refine ⟨by simp [hprevious, hpublished], rfl, [recoveredEvent r.reportedAt], ?_, ?_, ?_⟩
    · rw [List.foldl_append, hnews, ← hevents]
      rfl
    · simp [recoveredEvent]
    · have hne : desk.lastErrorSignature ≠ none := Option.isSome_iff_ne_none.mp hsome
      simp [recoveredEvent, hne]
  next hnone =>
    rw [hsignature, Bool.not_eq_true, Option.isSome_eq_false_iff, Option.isNone_iff_eq_none]
      at hnone
    refine ends_pure ⟨by simp [hprevious, hpublished], hsignature.trans hnone, [], ?_, ?_, ?_⟩
    · rw [List.append_nil, hnews]
      exact hevents
    · simp
    · simp [hnone]

/-- **What a round leaves.** -/
theorem left_of_round {r : Round F} {desk' : Desk F} (htorn : ¬ r.Torn fl cfg desk)
    (hround : round fl cfg r desk = some desk') :
    Left cfg desk (r.published fl cfg desk) (r.outcome fl cfg desk) desk' := by
  have hends := ends_attempt r htorn
  rw [Ends] at hends
  rw [round] at hround
  rw [Round.outcome]
  rcases hrun : (attempt fl cfg r).run.run { desk with luck := r.luck } with ⟨exc | u, desk₁⟩ <;>
    rw [hrun] at hends hround <;> dsimp only at hends hround ⊢
  · obtain ⟨hprevious, hsignature, hevents⟩ := hends
    rw [report, hsignature] at hround
    split_ifs at hround with hsame hraises
    · obtain rfl := Option.some.inj hround
      refine ⟨hprevious, hsignature.trans hsame, [], ?_, by simp, ?_⟩
      · rw [List.append_nil, hevents]
      · simp [hsame]
    · obtain rfl := Option.some.inj hround
      refine ⟨hprevious, rfl, [errorEvent r.reportedAt exc], ?_, ?_, ?_⟩
      · rw [List.foldl_append, ← hevents]
        rfl
      · simp [errorEvent]
      · simp [errorEvent, hsame]
  · obtain rfl := Option.some.inj hround
    exact hends

/-! ### Runs -/

/-- The desks the sampler gets to, with the samples it has published and how its rounds have
ended, where no round was broken off between two of its events. -/
inductive Sampled (fl : Floats F) (cfg : Settings) (board : Board F) :
    List (Sample F) → List (Option String) → Desk F → Prop
  /-- It begins. -/
  | start : Sampled fl cfg board [] [] ⟨board, none, none, none⟩
  /-- One more round. -/
  | round {samples : List (Sample F)} {outcomes : List (Option String)} {desk desk' : Desk F}
      (h : Sampled fl cfg board samples outcomes desk) (r : Round F)
      (htorn : ¬ r.Torn fl cfg desk) (hround : round fl cfg r desk = some desk') :
      Sampled fl cfg board (samples ++ r.published fl cfg desk)
        (outcomes ++ [r.outcome fl cfg desk]) desk'

variable {board : Board F} {samples : List (Sample F)} {outcomes : List (Option String)}

theorem published_cases (r : Round F) (desk : Desk F) :
    r.published fl cfg desk = [] ∨ ∃ sample, r.published fl cfg desk = [sample] := by
  rw [Round.published]
  rcases r.summary with exc | summary
  · exact .inl rfl
  · dsimp only
    split
    · exact .inr ⟨_, rfl⟩
    · exact .inl rfl

/-- The run has got to a desk with events that fit. -/
theorem exists_run (hboard : board.events.length ≤ eventLimit cfg)
    (h : Sampled fl cfg board samples outcomes desk) :
    ∃ events, Run cfg board samples outcomes desk events := by
  induction h with
  | start =>
    refine ⟨[], ?_, fun _ _ => rfl, rfl, rfl, rfl⟩
    exact (List.take_of_length_le hboard).symm
  | round h r htorn hround ih =>
    obtain ⟨events, hrun⟩ := ih
    obtain ⟨more, hmore⟩ := hrun.round (published_cases r _) (left_of_round htorn hround)
    exact ⟨_, hmore⟩

/-! ### What can be read off the log -/

/-- **The log of events is the newest of a log of changes.** Each source has told what has changed
in the samples since the first one, and the sampler has told of itself how its rounds end: with an
error, whenever they raise something new, and with a recovery when they no longer do. -/
theorem events_of_sampled (hboard : board.events.length ≤ eventLimit cfg)
    (h : Sampled fl cfg board samples outcomes desk) :
    ∃ events : List Event,
      desk.board.events = (events.reverse ++ board.events).take (eventLimit cfg) ∧
      (∀ source, source ≠ .telemetrySampler →
        (ofSource source events).map Event.tells = toldOf cfg source samples) ∧
      (ofSource .telemetrySampler events).map (fun e => decide (e.severity = .info)) =
        (ChangeLog.changes none outcomes).map Option.isNone := by
  obtain ⟨events, hrun⟩ := exists_run hboard h
  exact ⟨events, hrun.newest, hrun.told, hrun.reported⟩

/-- **The newest event of a source tells what is so**: what the last sample reads; and the newest
one about the sampler is an error exactly if its last round has raised. -/
theorem newest_event_tells (hempty : board.events = [])
    (h : Sampled fl cfg board samples outcomes desk) {source : Source} {event : Event}
    (hevent : (ofSource source desk.board.events).head? = some event) :
    if source = .telemetrySampler then
      ∃ outcome, outcomes.getLast? = some outcome ∧ (event.severity = .info ↔ outcome = none)
    else ∃ last, samples.getLast? = some last ∧ event.tells = last.reading cfg source := by
  obtain ⟨events, hrun⟩ := exists_run (by simp [hempty]) h
  have hlast := hrun.getLast?_of_head? hempty hevent
  split
  next hsampler =>
    subst hsampler
    have hchanges := congrArg List.getLast? hrun.reported
    rw [List.getLast?_map, List.getLast?_map, hlast, Option.map_some] at hchanges
    obtain ⟨outcome, houtcome, hnone⟩ := Option.map_eq_some_iff.mp hchanges.symm
    have hreading : (none :: outcomes).getLast? = some outcome := by
      rw [← ChangeLog.getLast?_cons_changes, List.getLast?_cons, houtcome, Option.getD_some]
    -- Something was told, so there was a round.
    rcases outcomes with - | ⟨first, outcomes⟩
    · simp at houtcome
    · rw [List.getLast?_cons_cons] at hreading
      refine ⟨outcome, hreading, ?_⟩
      rw [← Option.isNone_iff_eq_none, hnone, decide_eq_true_iff]
  next hsource =>
    have htold := congrArg List.getLast? (hrun.told source hsource)
    rw [List.getLast?_map, hlast, Option.map_some] at htold
    rcases samples with - | ⟨first, samples⟩
    · cases htold
    · have hreading := ChangeLog.getLast?_cons_changes (first.reading cfg source)
        (samples.map fun s => s.reading cfg source)
      rw [toldOf] at htold
      rw [List.getLast?_cons, ← htold, Option.getD_some,
        ← List.map_cons (f := fun s : Sample F => s.reading cfg source),
        List.getLast?_map] at hreading
      obtain ⟨last, hmem, hlast⟩ := Option.map_eq_some_iff.mp hreading.symm
      exact ⟨last, hmem, hlast.symm⟩

/-! ### A small run -/

/-- Floats whose means and rates come out even. -/
def smallFloats : Floats ℕ := ⟨fun l => l.sum / l.length, fun d s => d / s, fun n => 0 < n⟩

/-- The settings of a small run. -/
def smallSettings : Settings := ⟨10, 5, 5, 200, 86400⟩

/-- A control plane with nothing but a queue. -/
def smallSummary (queueDepth : ℕ) : Summary ℕ :=
  ⟨[], queueDepth, 0, 0, 0, 1, 1, 1, true, "ready", "healthy"⟩

/-- A round that ends well. -/
def smallRound (nowTs queueDepth : ℕ) : Round ℕ :=
  ⟨.ok (smallSummary queueDepth), nowTs, none, nowTs, false⟩

/-- Nothing is stored. -/
def smallBoard : Board ℕ := ⟨none, [], []⟩

theorem not_torn_small {nowTs queueDepth : ℕ} {desk : Desk ℕ} :
    ¬ (smallRound nowTs queueDepth).Torn smallFloats smallSettings desk := by
  rintro ⟨_, -, _, _, hluck, -⟩
  cases hluck

/-- The queue fills up. -/
theorem sampled_small : ∃ samples outcomes desk,
    Sampled smallFloats smallSettings smallBoard samples outcomes desk ∧
      (ofSource .queue desk.board.events).length = 1 :=
  ⟨_, _, _, (Sampled.start.round (smallRound 100 3) not_torn_small rfl).round (smallRound 105 12)
    not_torn_small rfl, by decide +kernel⟩

theorem events_of_sampled_small : ∃ samples outcomes desk,
    Sampled smallFloats smallSettings smallBoard samples outcomes desk ∧
      ∃ events : List Event,
        desk.board.events = (events.reverse ++ []).take (eventLimit smallSettings) ∧
        (∀ source, source ≠ .telemetrySampler →
          (ofSource source events).map Event.tells = toldOf smallSettings source samples) ∧
        (ofSource .telemetrySampler events).map (fun e => decide (e.severity = .info)) =
          (ChangeLog.changes none outcomes).map Option.isNone := by
  obtain ⟨samples, outcomes, desk, h, -⟩ := sampled_small
  exact ⟨samples, outcomes, desk, h, events_of_sampled (Nat.zero_le _) h⟩

theorem newest_event_tells_small : ∃ samples outcomes desk event,
    Sampled smallFloats smallSettings smallBoard samples outcomes desk ∧
      (ofSource .queue desk.board.events).head? = some event ∧
      ∃ last, samples.getLast? = some last ∧ event.tells = last.reading smallSettings .queue := by
  obtain ⟨samples, outcomes, desk, h, hlength⟩ := sampled_small
  obtain ⟨event, hevent⟩ := List.length_eq_one_iff.mp hlength
  have hhead : (ofSource .queue desk.board.events).head? = some event := by rw [hevent]; rfl
  exact ⟨samples, outcomes, desk, event, h, hhead, newest_event_tells rfl h hhead⟩

end Run

end Telemetry

end AiAgent

import AiAgent.Store.Downsample
import AiAgent.Telemetry.Sampler

/-!
# The history of the dashboard

The dashboard shows the samples of the last hours, thinned out to one for each bucket of seconds
(`AiAgent.Telemetry.buildDashboardHistoryPayload`): the newest of the bucket
(`AiAgent.Telemetry.history_payload_shows`).

The samples are kept for some time only, and what is too old goes when a sample is appended. For all
that the payload is the one of every sample there ever was
(`AiAgent.Telemetry.history_is_complete`), unless the range reaches back as far as the samples are
kept and ends at the very second of the last append: then one sample may be missing.
-/

namespace AiAgent

namespace Telemetry

open Text

variable {F : Type}

/-! ### Payloads -/

/-- The keys of `HISTORY_RANGE_SECONDS`. -/
inductive HistoryRange where
  /-- `"1h"`. -/
  | hour
  /-- `"6h"`. -/
  | sixHours
  /-- `"24h"`. -/
  | day
  deriving DecidableEq, Repr

/-- The key. -/
def HistoryRange.key : HistoryRange → String
  | .hour => "1h"
  | .sixHours => "6h"
  | .day => "24h"

/-- `HISTORY_RANGE_SECONDS`. -/
def HistoryRange.seconds : HistoryRange → ℕ
  | .hour => 60 * 60
  | .sixHours => 6 * 60 * 60
  | .day => 24 * 60 * 60

/-- `HISTORY_RANGE_LABELS`. -/
def HistoryRange.label : HistoryRange → String
  | .hour => "1 час"
  | .sixHours => "6 часов"
  | .day => "24 часа"

/-- `HISTORY_BUCKET_SECONDS`. -/
def HistoryRange.bucketSeconds : HistoryRange → ℕ
  | .hour => 15
  | .sixHours => 60
  | .day => 300

/-- `normalize_history_range`. -/
def normalizeHistoryRange (rangeKey : Option Text) : HistoryRange :=
  let key : Text := match rangeKey with
    | none | some [] => "24h".toList
    | some key => key
  let normalized := lower (strip key)
  if normalized = "1h".toList then .hour
  else if normalized = "6h".toList then .sixHours
  else .day

/-- What `build_dashboard_history_payload` returns. -/
structure HistoryPayload (F : Type) where
  /-- `range`. -/
  range : String
  /-- `range_label`. -/
  rangeLabel : String
  /-- `bucket_seconds`. -/
  bucketSeconds : ℕ
  /-- `point_count`. -/
  pointCount : ℕ
  /-- `points`. -/
  points : List (Sample F)
  /-- `latest`. -/
  latest : Option (Sample F)
  /-- `snapshot`. -/
  snapshot : Option (Sample F)

/-- A sample is not older than the range. -/
def HistoryRange.Covers (range : HistoryRange) (nowTs : ℕ) (sample : Sample F) : Prop :=
  nowTs ≤ sample.capturedAt + range.seconds

instance (range : HistoryRange) (nowTs : ℕ) (sample : Sample F) :
    Decidable (range.Covers nowTs sample) := Nat.decLe _ _

/-- The bucket of a sample. -/
def HistoryRange.bucket (range : HistoryRange) (sample : Sample F) : ℕ :=
  sample.capturedAt / range.bucketSeconds

/-- `relevant_samples`, sorted. -/
def relevantSamples (range : HistoryRange) (nowTs : ℕ) (samples : List (Sample F)) :
    List (Sample F) :=
  ((samples.filter fun sample => range.Covers nowTs sample).map
    sanitizeDashboardLiveSample).insertionSort fun a b => a.capturedAt ≤ b.capturedAt

/-- `build_dashboard_history_payload`. -/
def buildDashboardHistoryPayload (samples : List (Sample F)) (rangeKey : Option Text)
    (nowTs : ℕ) : HistoryPayload F :=
  let range := normalizeHistoryRange rangeKey
  let relevant := relevantSamples range nowTs samples
  let points := Downsample.lastOfEach range.bucket relevant
  { range := range.key
    rangeLabel := range.label
    bucketSeconds := range.bucketSeconds
    pointCount := points.length
    points := points
    latest := relevant.getLast?.map sanitizeDashboardLiveSample
    snapshot := points.getLast?.map sanitizeDashboardLiveSample }

section Payload

variable {range : HistoryRange} {nowTs : ℕ} {samples : List (Sample F)}

theorem mem_relevantSamples {sample : Sample F} :
    sample ∈ relevantSamples range nowTs samples ↔
      ∃ s ∈ samples, range.Covers nowTs s ∧ sanitizeDashboardLiveSample s = sample := by
  rw [relevantSamples, List.mem_insertionSort, List.mem_map]
  simp [and_assoc]

theorem pairwise_relevantSamples (range : HistoryRange) (nowTs : ℕ) (samples : List (Sample F)) :
    (relevantSamples range nowTs samples).Pairwise fun a b => a.capturedAt ≤ b.capturedAt := by
  have : Std.Total fun a b : Sample F => a.capturedAt ≤ b.capturedAt :=
    ⟨fun a b => le_total a.capturedAt b.capturedAt⟩
  have : IsTrans (Sample F) fun a b => a.capturedAt ≤ b.capturedAt := ⟨fun _ _ _ => le_trans⟩
  exact List.pairwise_insertionSort _ _

theorem bucket_le_bucket (range : HistoryRange) {a b : Sample F} (h : a.capturedAt ≤ b.capturedAt) :
    range.bucket a ≤ range.bucket b := Nat.div_le_div_right h

/-- The newest of a bucket is the last of it. -/
theorem capturedAt_le_of_mem_lastOfEach {point sample : Sample F}
    (hpoint : point ∈ Downsample.lastOfEach range.bucket (relevantSamples range nowTs samples))
    (hsample : sample ∈ relevantSamples range nowTs samples)
    (hbucket : range.bucket sample = range.bucket point) :
    sample.capturedAt ≤ point.capturedAt := by
  have hlast := Downsample.mem_lastOfEach.mp hpoint
  obtain ⟨before, hbefore⟩ := List.getLast?_eq_some_iff.mp hlast
  have hsorted := (pairwise_relevantSamples range nowTs samples).filter
    fun s => range.bucket s = range.bucket point
  have hmem : sample ∈ (relevantSamples range nowTs samples).filter
      fun s => range.bucket s = range.bucket point := by
    simpa [hsample] using hbucket
  rw [hbefore] at hsorted hmem
  rcases List.mem_append.mp hmem with hmem | hmem
  · exact (List.pairwise_append.mp hsorted).2.2 sample hmem point (List.mem_singleton.mpr rfl)
  · rw [List.mem_singleton.mp hmem]

/-- **What the history shows.** The points are samples of the range, one for each bucket that has
one, the buckets in their order; each is the newest of its bucket. The latest sample is the last
point, and if no sample is from the future there are no more points than buckets in the range. -/
theorem history_payload_shows (samples : List (Sample F)) (rangeKey : Option Text) (nowTs : ℕ) :
    let range := normalizeHistoryRange rangeKey
    let payload := buildDashboardHistoryPayload samples rangeKey nowTs
    payload.points.Pairwise (fun a b => range.bucket a < range.bucket b) ∧
      (∀ point ∈ payload.points, ∃ sample ∈ samples, range.Covers nowTs sample ∧
        sanitizeDashboardLiveSample sample = point) ∧
      (∀ sample ∈ samples, range.Covers nowTs sample → ∃ point ∈ payload.points,
        range.bucket point = range.bucket sample ∧ sample.capturedAt ≤ point.capturedAt) ∧
      payload.latest = payload.snapshot ∧
      ((∀ sample ∈ samples, sample.capturedAt ≤ nowTs) →
        payload.pointCount ≤ range.seconds / range.bucketSeconds + 1) := by
  intro range payload
  have hsorted := (pairwise_relevantSamples range nowTs samples).imp
    fun {a b} h => bucket_le_bucket range h
  refine ⟨Downsample.pairwise_lastOfEach _ _, ?_, ?_, ?_, ?_⟩
  · intro point hpoint
    exact mem_relevantSamples.mp (Downsample.mem_of_mem_lastOfEach hpoint)
  · intro sample hsample hcovers
    have hmem : sanitizeDashboardLiveSample sample ∈ relevantSamples range nowTs samples :=
      mem_relevantSamples.mpr ⟨sample, hsample, hcovers, rfl⟩
    obtain ⟨point, hpoint, hbucket⟩ := Downsample.exists_mem_lastOfEach range.bucket hmem
    have hle := capturedAt_le_of_mem_lastOfEach hpoint hmem hbucket.symm
    exact ⟨point, hpoint, hbucket, hle⟩
  · exact congrArg (Option.map _) (Downsample.getLast?_lastOfEach hsorted).symm
  · intro hpast
    have hbounds : ∀ sample ∈ relevantSamples range nowTs samples,
        (nowTs - range.seconds) / range.bucketSeconds ≤ range.bucket sample ∧
          range.bucket sample ≤ nowTs / range.bucketSeconds := by
      intro sample hsample
      obtain ⟨s, hs, hcovers, rfl⟩ := mem_relevantSamples.mp hsample
      have hle : nowTs - range.seconds ≤ s.capturedAt := Nat.sub_le_of_le_add hcovers
      exact ⟨Nat.div_le_div_right hle, Nat.div_le_div_right (hpast s hs)⟩
    refine (Downsample.length_lastOfEach_le hbounds).trans ?_
    -- The range is so many whole buckets.
    have hwhole : range.seconds = range.bucketSeconds * (range.seconds / range.bucketSeconds) := by
      cases range <;> rfl
    have hfirst : (nowTs - range.seconds) / range.bucketSeconds =
        nowTs / range.bucketSeconds - range.seconds / range.bucketSeconds := by
      conv_lhs => rw [hwhole]
      exact Nat.sub_mul_div ..
    rw [hfirst]
    generalize nowTs / range.bucketSeconds = last
    generalize range.seconds / range.bucketSeconds = count
    omega

end Payload

/-! ### What is kept -/

/-- `get_dashboard_history_samples`: `ZRANGEBYSCORE` from `since_ts` on. Samples of one second come
in the order they were appended in; the server orders them by their texts. This is not to be seen
where the clock moves on between two rounds, since then no two samples are of one second
(`AiAgent.Telemetry.Keeps.increasing`). -/
def getDashboardHistorySamples (sinceTs : ℤ) (board : Board F) : List (Sample F) :=
  (board.history.filter fun sample => sinceTs ≤ sample.capturedAt).insertionSort
    fun a b => a.capturedAt ≤ b.capturedAt

/-- `get_admin_dashboard_history`; the clock is read for the samples, and again for the
payload. -/
def getAdminDashboardHistory (board : Board F) (rangeKey : Option Text) (readAt nowTs : ℕ) :
    HistoryPayload F :=
  let range := normalizeHistoryRange rangeKey
  buildDashboardHistoryPayload
    (getDashboardHistorySamples ((readAt : ℤ) - range.seconds) board) rangeKey nowTs

/-- What `publish` appends to the history: the second write is the one that does. -/
def appendedBy (luck : Option (ℕ × Exn)) (sample : Sample F) : List (Sample F) :=
  match luck with
  | some (0, _) | some (1, _) => []
  | _ => [sanitizeDashboardLiveSample sample]

/-- The history is not touched by events. -/
theorem history_appendDashboardEvents {cfg : Settings} (events : List Event) (desk : Desk F) :
    Ends (appendDashboardEvents cfg events) desk
      (fun _ desk' => desk'.board.history = desk.board.history)
      (fun _ desk' => desk'.board.history = desk.board.history) := by
  induction events generalizing desk with
  | nil => exact ends_pure rfl
  | cons event events ih =>
    refine (ends_write _).bind ?_ ?_
    · rintro exc _ ⟨rfl, -⟩
      rfl
    · rintro - _ ⟨rfl, -⟩
      exact (ih _).mono (fun _ _ h => h) fun _ _ h => h

/-- The sample a round appends to the history, if it gets that far. -/
def Round.appended (fl : Floats F) (r : Round F) (desk : Desk F) : List (Sample F) :=
  match r.summary with
  | .error _ => []
  | .ok summary => appendedBy r.luck (r.sample fl desk.previousSample summary)

theorem appended_cases (fl : Floats F) (r : Round F) (desk : Desk F) :
    r.appended fl desk = [] ∨
      ∃ sample, r.appended fl desk = [sample] ∧ sample.capturedAt = r.nowTs := by
  rw [Round.appended]
  rcases r.summary with exc | summary
  · exact .inl rfl
  · rcases r.luck with - | ⟨_ | _ | n, exc⟩
    · exact .inr ⟨_, rfl, rfl⟩
    · exact .inl rfl
    · exact .inl rfl
    · exact .inr ⟨_, rfl, rfl⟩

section Kept

variable [DecidableEq F] (fl : Floats F) (cfg : Settings)

/-- The desks the samplers get to that run one after the other: the rounds, and the samples they
have appended. A sampler is started again when its process is, or when it has ended. -/
inductive Ran : List (Round F) → List (Sample F) → Desk F → Prop
  /-- Nothing is stored yet. -/
  | start (live : Option (Sample F)) (events : List Event) :
      Ran [] [] ⟨⟨live, [], events⟩, none, none, none⟩
  /-- One more round. -/
  | round {rounds : List (Round F)} {samples : List (Sample F)} {desk desk' : Desk F}
      (h : Ran rounds samples desk) (r : Round F) (hround : round fl cfg r desk = some desk') :
      Ran (rounds ++ [r]) (samples ++ r.appended fl desk) desk'
  /-- One more round, and the sampler has ended and is started again. -/
  | ended {rounds : List (Round F)} {samples : List (Sample F)} {desk : Desk F}
      (h : Ran rounds samples desk) (r : Round F) (hround : round fl cfg r desk = none) :
      Ran (rounds ++ [r]) (samples ++ r.appended fl desk)
        ⟨((attempt fl cfg r).run.run { desk with luck := r.luck }).2.board, none, none, none⟩
  /-- The process is started again. -/
  | restart {rounds : List (Round F)} {samples : List (Sample F)} {desk : Desk F}
      (h : Ran rounds samples desk) : Ran rounds samples ⟨desk.board, none, none, none⟩

variable {fl cfg} {desk : Desk F}

/-- The history with samples appended. -/
def appendAll (cfg : Settings) (history samples : List (Sample F)) : List (Sample F) :=
  samples.foldl (fun history sample => appendHistory cfg sample history) history

theorem history_publish (sample : Sample F) (desk : Desk F) :
    Ends (publish cfg sample) desk
      (fun _ desk' => desk'.board.history =
        appendAll cfg desk.board.history (appendedBy desk.luck sample))
      (fun _ desk' => desk'.board.history =
        appendAll cfg desk.board.history (appendedBy desk.luck sample)) := by
  refine (ends_write _).bind ?_ ?_
  · rintro exc _ ⟨rfl, hluck⟩
    simp [appendedBy, hluck, appendAll]
  rintro - _ ⟨rfl, hfirst⟩
  refine (ends_write _).bind ?_ ?_
  · rintro exc _ ⟨rfl, hluck⟩
    have hone : desk.luck = some (1, exc) := by
      rcases h : desk.luck with - | ⟨_ | n, exc'⟩
      · simp [h, spent] at hluck
      · exact absurd h (hfirst exc')
      · simpa [h, spent] using hluck
    simp [appendedBy, hone, appendAll]
  rintro - _ ⟨rfl, hsecond⟩
  have happended : appendedBy desk.luck sample = [sanitizeDashboardLiveSample sample] := by
    rcases h : desk.luck with - | ⟨_ | _ | n, exc⟩
    · rfl
    · exact absurd h (hfirst exc)
    · exact absurd (by simp [h, spent]) (hsecond exc)
    · rfl
  rw [happended]
  refine ends_get.bind (fun _ _ h => h) ?_
  rintro _ _ ⟨rfl, rfl⟩
  refine (history_appendDashboardEvents _ _).bind (fun _ _ h => h) ?_
  rintro - desk' hhistory
  exact ends_modify.mono (fun _ _ h => by rw [h]; exact hhistory) fun _ _ h => h

/-- What the history is once a round has tried. -/
theorem history_attempt (fl : Floats F) (cfg : Settings) (r : Round F) (desk : Desk F) :
    Ends (attempt fl cfg r) { desk with luck := r.luck }
      (fun _ desk' => desk'.board.history =
        appendAll cfg desk.board.history (r.appended fl desk))
      (fun _ desk' => desk'.board.history =
        appendAll cfg desk.board.history (r.appended fl desk)) := by
  rw [attempt, Round.appended]
  rcases r.summary with exc | summary
  · rfl
  refine ends_get.bind (fun _ _ h => h) ?_
  rintro _ _ ⟨rfl, rfl⟩
  refine (history_publish _ _).bind (fun _ _ h => h) ?_
  rintro - desk' hhistory
  refine ends_get.bind (fun _ _ h => h) ?_
  rintro _ _ ⟨rfl, rfl⟩
  split
  · refine (ends_write _).bind ?_ ?_
    · rintro exc _ ⟨rfl, -⟩
      exact hhistory
    · rintro - _ ⟨rfl, -⟩
      exact ends_modify.mono (fun _ _ h => by rw [h]; exact hhistory) fun _ _ h => h
  · exact ends_pure hhistory

theorem history_round {r : Round F} {desk desk' : Desk F}
    (hround : round fl cfg r desk = some desk') :
    desk'.board.history = appendAll cfg desk.board.history (r.appended fl desk) := by
  have hattempt := history_attempt fl cfg r desk
  rw [Ends] at hattempt
  rw [round] at hround
  rcases hrun : (attempt fl cfg r).run.run { desk with luck := r.luck } with ⟨exc | u, desk₁⟩ <;>
    rw [hrun] at hattempt hround <;> dsimp only at hattempt hround
  · rw [report] at hround
    split_ifs at hround <;> obtain rfl := Option.some.inj hround <;> exact hattempt
  · obtain rfl := Option.some.inj hround
    exact hattempt

/-- What is kept of the samples: those that were young enough at the last append. -/
structure Keeps (cfg : Settings) (rounds : List (Round F)) (samples : List (Sample F))
    (board : Board F) : Prop where
  /-- The history is what was young at the last append. -/
  window : board.history = samples.filter fun kept =>
    samples.getLast?.all fun last =>
      last.capturedAt < kept.capturedAt + max 60 cfg.historyRetentionSeconds
  /-- The samples come one after the other. -/
  increasing : samples.Pairwise fun a b => a.capturedAt < b.capturedAt
  /-- Each was captured in a round. -/
  captured : ∀ sample ∈ samples, ∃ r ∈ rounds, sample.capturedAt = r.nowTs

theorem Keeps.round {rounds : List (Round F)} {samples appended : List (Sample F)}
    {board board' : Board F} (h : Keeps cfg rounds samples board) (r : Round F)
    (hclock : ∀ before ∈ rounds, before.nowTs < r.nowTs)
    (happended : appended = [] ∨ ∃ sample, appended = [sample] ∧ sample.capturedAt = r.nowTs)
    (hhistory : board'.history = appendAll cfg board.history appended) :
    Keeps cfg (rounds ++ [r]) (samples ++ appended) board' := by
  have hcaptured : ∀ sample ∈ samples, ∃ r' ∈ rounds ++ [r], sample.capturedAt = r'.nowTs := by
    intro sample hsample
    obtain ⟨r', hr', hat⟩ := h.captured sample hsample
    exact ⟨r', List.mem_append_left _ hr', hat⟩
  rcases happended with rfl | ⟨sample, rfl, hat⟩
  · rw [List.append_nil]
    exact ⟨hhistory.trans h.window, h.increasing, hcaptured⟩
  have hlater : ∀ before ∈ samples, before.capturedAt < sample.capturedAt := by
    intro before hbefore
    obtain ⟨r', hr', hat'⟩ := h.captured before hbefore
    rw [hat, hat']
    exact hclock r' hr'
  refine ⟨?_, ?_, ?_⟩
  · have hnew : sample ∉ board.history := by
      rw [h.window]
      exact fun hmem => (hlater sample (List.mem_of_mem_filter hmem)).false
    rw [hhistory, appendAll, List.foldl_cons, List.foldl_nil, appendHistory, if_neg hnew, h.window,
      List.getLast?_concat, List.filter_append, List.filter_append, List.filter_filter]
    congr 1
    refine List.filter_congr fun kept hkept => ?_
    -- What was too old before is too old now.
    rw [Option.all_some, Bool.and_eq_left_iff_imp, decide_eq_true_eq]
    intro hyoung
    rcases hlast : samples.getLast? with - | last
    · rfl
    · have := hlater last (List.mem_of_getLast? hlast)
      simp only [Option.all_some, decide_eq_true_eq]
      omega
  · refine List.pairwise_append.mpr ⟨h.increasing, List.pairwise_singleton _ _, ?_⟩
    intro before hbefore after hafter
    rw [List.mem_singleton.mp hafter]
    exact hlater before hbefore
  · intro s hs
    rcases List.mem_append.mp hs with hs | hs
    · exact hcaptured s hs
    · rw [List.mem_singleton.mp hs]
      exact ⟨r, List.mem_append_right _ (List.mem_singleton.mpr rfl), hat⟩

/-- **The history is a window of all samples**, as long as the clock is not set back. -/
theorem keeps_of_ran {rounds : List (Round F)} {samples : List (Sample F)} {desk : Desk F}
    (h : Ran fl cfg rounds samples desk)
    (hclock : (rounds.map Round.nowTs).Pairwise (· < ·)) :
    Keeps cfg rounds samples desk.board := by
  induction h with
  | start live events => exact ⟨rfl, .nil, fun _ h => nomatch h⟩
  | round h r hround ih =>
    rw [List.map_append, List.pairwise_append] at hclock
    refine (ih hclock.1).round r ?_ (appended_cases fl r _) (history_round hround)
    exact fun before hbefore => hclock.2.2 _ (List.mem_map_of_mem hbefore) _ (by simp)
  | @ended rounds samples desk h r hround ih =>
    rw [List.map_append, List.pairwise_append] at hclock
    refine (ih hclock.1).round r ?_ (appended_cases fl r _) ?_
    · exact fun before hbefore => hclock.2.2 _ (List.mem_map_of_mem hbefore) _ (by simp)
    · have hattempt := history_attempt fl cfg r desk
      rw [Ends] at hattempt
      rcases hrun : (attempt fl cfg r).run.run { desk with luck := r.luck } with
        ⟨exc | u, desk'⟩ <;> rw [hrun] at hattempt <;> exact hattempt
  | restart h ih => exact ih hclock

/-- **Nothing is missing from the history**: it is the payload of all samples that were ever
appended, over all rounds of all samplers, though most of them are gone. The range must not reach
back further than samples are kept, and if it reaches back as far, the last append must not be of
this very second. -/
theorem history_is_complete {rounds : List (Round F)} {samples : List (Sample F)} {desk : Desk F}
    (h : Ran fl cfg rounds samples desk) (hclock : (rounds.map Round.nowTs).Pairwise (· < ·))
    {rangeKey : Option Text} {readAt nowTs : ℕ} (hnow : readAt ≤ nowTs)
    (hlast : ∀ sample ∈ samples, sample.capturedAt ≤ nowTs)
    (hretention : (normalizeHistoryRange rangeKey).seconds < max 60 cfg.historyRetentionSeconds ∨
      (normalizeHistoryRange rangeKey).seconds = max 60 cfg.historyRetentionSeconds ∧
        ∀ sample ∈ samples, sample.capturedAt ≠ nowTs) :
    getAdminDashboardHistory desk.board rangeKey readAt nowTs =
      buildDashboardHistoryPayload samples rangeKey nowTs := by
  have hkeeps := keeps_of_ran h hclock
  set range := normalizeHistoryRange rangeKey with hrange
  have hrelevant : relevantSamples range nowTs
      (getDashboardHistorySamples ((readAt : ℤ) - range.seconds) desk.board) =
        relevantSamples range nowTs samples := by
    have hsorted : (desk.board.history.filter
        fun sample => (readAt : ℤ) - range.seconds ≤ sample.capturedAt).Pairwise
          fun a b => a.capturedAt ≤ b.capturedAt := by
      rw [hkeeps.window]
      exact ((hkeeps.increasing.imp Nat.le_of_lt).filter _).filter _
    rw [relevantSamples, relevantSamples, getDashboardHistorySamples, hsorted.insertionSort_eq,
      hkeeps.window, List.filter_filter, List.filter_filter]
    congr 2
    refine List.filter_congr fun sample hsample => ?_
    rw [Bool.and_assoc, Bool.and_eq_left_iff_imp, decide_eq_true_eq]
    intro hcovers
    rw [HistoryRange.Covers] at hcovers
    rw [Bool.and_eq_true, decide_eq_true_eq]
    refine ⟨by omega, ?_⟩
    rcases hnewest : samples.getLast? with - | last
    · rfl
    · have hmem := List.mem_of_getLast? hnewest
      have hle := hlast last hmem
      rw [Option.all_some, decide_eq_true_eq]
      rcases hretention with hlt | ⟨heq, hne⟩
      · omega
      · have := hne last hmem
        omega
  rw [getAdminDashboardHistory, buildDashboardHistoryPayload, buildDashboardHistoryPayload]
  rw [← hrange, hrelevant]

/-- A day of a small sampler, and then some. -/
theorem history_is_complete_small : ∃ rounds samples desk,
    Ran smallFloats smallSettings rounds samples desk ∧ samples.length = 2 ∧
      getAdminDashboardHistory desk.board (some "1h".toList) 86500 86500 =
        buildDashboardHistoryPayload samples (some "1h".toList) 86500 := by
  have h : ∃ rounds samples desk, Ran smallFloats smallSettings rounds samples desk ∧
      samples.length = 2 ∧ (rounds.map Round.nowTs) = [100, 86500] ∧
        samples.map Sample.capturedAt = [100, 86500] := by
    refine ⟨_, _, _, ((Ran.start none []).round (smallRound 100 3) rfl).round
      (smallRound 86500 12) rfl, rfl, rfl, rfl⟩
  obtain ⟨rounds, samples, desk, hran, hlength, hrounds, hsamples⟩ := h
  refine ⟨rounds, samples, desk, hran, hlength, history_is_complete hran ?_ le_rfl ?_ (.inl ?_)⟩
  · rw [hrounds]
    decide
  · intro sample hsample
    have hmem := List.mem_map_of_mem (f := Sample.capturedAt) hsample
    rw [hsamples] at hmem
    simp only [List.mem_cons, List.not_mem_nil, or_false] at hmem
    omega
  · decide +kernel

end Kept

end Telemetry

end AiAgent

import Mathlib.Algebra.GroupWithZero.Nat
import AiAgent.Store.ChangeLog
import AiAgent.Store.Dict
import AiAgent.Text.Strip

/-!
# Samples of the dashboard, and the events between two of them

The sampler of the dashboard makes a sample of the control plane every few seconds
(`AiAgent.Telemetry.buildDashboardLiveSample`) and reports what has changed since the sample before
(`AiAgent.Telemetry.buildDashboardEvents`).

What an event of a source tells is a reading (`AiAgent.Telemetry.Event.tells`). Between two samples
a source has an event exactly if its reading has changed, and the event tells the new reading
(`AiAgent.Telemetry.tells_buildDashboardEvents`); so the events of a source over a run are a log of
changes in the sense of `AiAgent.ChangeLog`.
-/

namespace AiAgent

namespace Telemetry

open Text

/-- The settings of the dashboard. -/
structure Settings where
  /-- `ADMIN_DASHBOARD_QUEUE_DEPTH_WARN_THRESHOLD`. -/
  queueDepthWarnThreshold : ℕ
  /-- `ADMIN_DASHBOARD_CHAT_BACKLOG_WARN_THRESHOLD`. -/
  chatBacklogWarnThreshold : ℕ
  /-- `ADMIN_DASHBOARD_PARSER_BACKLOG_WARN_THRESHOLD`. -/
  parserBacklogWarnThreshold : ℕ
  /-- `ADMIN_DASHBOARD_EVENT_LOG_MAX_ITEMS`. -/
  eventLogMaxItems : ℕ
  /-- `ADMIN_DASHBOARD_HISTORY_RETENTION_SECONDS`. -/
  historyRetentionSeconds : ℕ

/-! ### Samples -/

/-- What is computed with floats. -/
structure Floats (F : Type) where
  /-- `round(sum(items) / len(items), 2)`. -/
  mean : List F → F
  /-- `round(delta / delta_seconds, 2)`. -/
  rate : ℕ → ℕ → F
  /-- `value > 0`. -/
  positive : F → Bool

/-- What is said of a metric that may be missing. -/
inductive Availability where
  /-- `"reported"`. -/
  | reported
  /-- `"unavailable"`. -/
  | unavailable
  /-- `"not_configured"`. -/
  | notConfigured
  /-- `"warming_up"`. -/
  | warmingUp
  deriving DecidableEq, Repr

/-- The bytes a target has received and sent. -/
structure Counters where
  /-- `rx`. -/
  rx : ℕ
  /-- `tx`. -/
  tx : ℕ
  deriving DecidableEq, Repr

/-- A row of `target_rows`. -/
structure TargetRow (F : Type) where
  /-- `target_id`. -/
  targetId : Text
  /-- `target_kind`. -/
  targetKind : Text
  /-- `status == "stale"`. -/
  stale : Bool
  /-- `cpu_percent`. -/
  cpuPercent : F
  /-- `ram_total_mb`. -/
  ramTotalMb : ℕ
  /-- `ram_free_mb`. -/
  ramFreeMb : ℕ
  /-- `gpu_utilization`. -/
  gpuUtilization : Option F
  /-- `gpu_temperature_c`. -/
  gpuTemperatureC : Option F
  /-- `network_rx_bytes`. -/
  networkRxBytes : Option ℕ
  /-- `network_tx_bytes`. -/
  networkTxBytes : Option ℕ
  /-- `vram_free_mb`. -/
  vramFreeMb : ℕ
  /-- `vram_total_mb`. -/
  vramTotalMb : ℕ

/-- What `build_admin_dashboard_summary` hands to the sampler. -/
structure Summary (F : Type) where
  /-- `target_rows`. -/
  targetRows : List (TargetRow F)
  /-- `queue_depth`. -/
  queueDepth : ℕ
  /-- `chat_backlog`. -/
  chatBacklog : ℕ
  /-- `parser_backlog`. -/
  parserBacklog : ℕ
  /-- `active_jobs`. -/
  activeJobs : ℕ
  /-- `workers_total`. -/
  workersTotal : ℕ
  /-- `workers_working`. -/
  workersWorking : ℕ
  /-- `targets`. -/
  targets : ℕ
  /-- `capacity`. -/
  capacity : Bool
  /-- `readiness_status`. -/
  readinessStatus : String
  /-- `scheduler_status`. -/
  schedulerStatus : String

instance {κ ν : Type} [DecidableEq κ] [DecidableEq ν] : DecidableEq (Dict κ ν) := fun d d' =>
  decidable_of_iff (d.entries = d'.entries)
    ⟨fun h => by cases d; cases d'; simp_all, fun h => congrArg Dict.entries h⟩

/-- A sample. -/
structure Sample (F : Type) where
  /-- `captured_at`. -/
  capturedAt : ℕ
  /-- `cpu_percent`. -/
  cpuPercent : Option F
  /-- `cpu_availability`. -/
  cpuAvailability : Availability
  /-- `ram_total_mb`. -/
  ramTotalMb : Option ℕ
  /-- `ram_free_mb`. -/
  ramFreeMb : Option ℕ
  /-- `ram_used_mb`. -/
  ramUsedMb : Option ℕ
  /-- `ram_availability`. -/
  ramAvailability : Availability
  /-- `gpu_available`. -/
  gpuAvailable : Bool
  /-- `gpu_utilization_percent`. -/
  gpuUtilizationPercent : Option F
  /-- `gpu_temperature_c`. -/
  gpuTemperatureC : Option F
  /-- `gpu_availability`. -/
  gpuAvailability : Availability
  /-- `vram_total_mb`. -/
  vramTotalMb : Option ℕ
  /-- `vram_free_mb`. -/
  vramFreeMb : Option ℕ
  /-- `vram_used_mb`. -/
  vramUsedMb : Option ℕ
  /-- `network_rx_bytes_per_sec`. -/
  networkRxBytesPerSec : Option F
  /-- `network_tx_bytes_per_sec`. -/
  networkTxBytesPerSec : Option F
  /-- `network_availability`. -/
  networkAvailability : Availability
  /-- `queue_depth`. -/
  queueDepth : ℕ
  /-- `chat_backlog`. -/
  chatBacklog : ℕ
  /-- `parser_backlog`. -/
  parserBacklog : ℕ
  /-- `active_jobs`. -/
  activeJobs : ℕ
  /-- `workers_total`. -/
  workersTotal : ℕ
  /-- `workers_working`. -/
  workersWorking : ℕ
  /-- `targets`. -/
  targets : ℕ
  /-- `capacity`. -/
  capacity : Bool
  /-- `readiness_status`. -/
  readinessStatus : String
  /-- `scheduler_status`. -/
  schedulerStatus : String
  /-- `_network_counters`: the one key that begins with an underscore. -/
  networkCounters : Option (Dict Text Counters)
  deriving DecidableEq

section Build

variable {F : Type} (fl : Floats F)

/-- `sanitize_dashboard_live_sample`. -/
def sanitizeDashboardLiveSample (sample : Sample F) : Sample F :=
  { sample with networkCounters := none }

/-- `_reported_targets`. -/
def reportedTargets (summary : Summary F) : List (TargetRow F) :=
  summary.targetRows.filter fun target => !target.stale

/-- `_mean`. -/
def mean (values : List F) : Option F := if values.isEmpty then none else some (fl.mean values)

/-- `_sum_optional`. -/
def sumOptional (values : List ℕ) : Option ℕ := if values.isEmpty then none else some values.sum

/-- `max(0, total - free)`, where both are known. -/
def usedMb (total free : Option ℕ) : Option ℕ :=
  match total, free with
  | some total, some free => some (total - free)
  | _, _ => none

/-- `current_counters` of `_network_rate_from_targets`. -/
def currentCounters (targets : List (TargetRow F)) : Dict Text Counters :=
  .ofPairs <| targets.filterMap fun target =>
    match target.targetId.strip, target.networkRxBytes, target.networkTxBytes with
    | [], _, _ => none
    | targetId, some rx, some tx => some (targetId, ⟨rx, tx⟩)
    | _, _, _ => none

/-- What a target has received and sent since the last sample: a counter that went back counts for
nothing. -/
def counterDelta (previous : Dict Text Counters) (entry : Text × Counters) : Option Counters :=
  match previous.get? entry.1 with
  | none => none
  | some old =>
    if entry.2.rx < old.rx ∨ entry.2.tx < old.tx then none
    else some ⟨entry.2.rx - old.rx, entry.2.tx - old.tx⟩

/-- `_network_rate_from_targets`. -/
def networkRateFromTargets (targets : List (TargetRow F)) (previousSample : Option (Sample F))
    (nowTs : ℕ) : Option F × Option F × Availability × Dict Text Counters :=
  let counters := currentCounters targets
  if counters.entries.isEmpty then (none, none, .unavailable, .empty)
  else
    let previousCounters := (previousSample.bind Sample.networkCounters).getD .empty
    let deltaSeconds := (previousSample.map fun sample => nowTs - sample.capturedAt).getD 0
    if deltaSeconds = 0 ∨ previousCounters.entries.isEmpty then (none, none, .warmingUp, counters)
    else
      let deltas := counters.entries.filterMap (counterDelta previousCounters)
      if deltas.isEmpty then (none, none, .warmingUp, counters)
      else
        (some (fl.rate (deltas.map Counters.rx).sum deltaSeconds),
          some (fl.rate (deltas.map Counters.tx).sum deltaSeconds), .reported, counters)

/-- The rows that count as GPU targets. -/
def gpuTargets (targets : List (TargetRow F)) : List (TargetRow F) :=
  targets.filter fun target => Text.lower target.targetKind.strip = "gpu".toList ||
    0 < target.vramTotalMb

/-- `build_dashboard_live_sample`. -/
def buildDashboardLiveSample (summary : Summary F) (previousSample : Option (Sample F))
    (timestamp : ℕ) : Sample F :=
  let targets := reportedTargets summary
  let cpuValues := targets.map TargetRow.cpuPercent
  let ramTotalMb := sumOptional ((targets.map TargetRow.ramTotalMb).filter (0 < ·))
  let ramFreeMb := sumOptional (targets.map TargetRow.ramFreeMb)
  let gpuTargets := gpuTargets targets
  let gpuUtilValues := gpuTargets.filterMap TargetRow.gpuUtilization
  let gpuTempValues := (gpuTargets.filterMap TargetRow.gpuTemperatureC).filter fl.positive
  let vramTotalValues := (gpuTargets.map TargetRow.vramTotalMb).filter (0 < ·)
  let vramTotalMb := sumOptional vramTotalValues
  let vramFreeMb := sumOptional (gpuTargets.map TargetRow.vramFreeMb)
  let network := networkRateFromTargets fl targets previousSample timestamp
  { capturedAt := timestamp
    cpuPercent := mean fl cpuValues
    cpuAvailability := if cpuValues.isEmpty then .unavailable else .reported
    ramTotalMb := ramTotalMb
    ramFreeMb := ramFreeMb
    ramUsedMb := usedMb ramTotalMb ramFreeMb
    ramAvailability := if ramTotalMb.isSome && ramFreeMb.isSome then .reported else .unavailable
    gpuAvailable := !gpuTargets.isEmpty
    gpuUtilizationPercent := mean fl gpuUtilValues
    gpuTemperatureC := mean fl gpuTempValues
    gpuAvailability :=
      if !gpuUtilValues.isEmpty || !vramTotalValues.isEmpty then .reported
      else if gpuTargets.isEmpty then .notConfigured
      else .unavailable
    vramTotalMb := vramTotalMb
    vramFreeMb := vramFreeMb
    vramUsedMb := usedMb vramTotalMb vramFreeMb
    networkRxBytesPerSec := network.1
    networkTxBytesPerSec := network.2.1
    networkAvailability := network.2.2.1
    queueDepth := summary.queueDepth
    chatBacklog := summary.chatBacklog
    parserBacklog := summary.parserBacklog
    activeJobs := summary.activeJobs
    workersTotal := summary.workersTotal
    workersWorking := summary.workersWorking
    targets := if summary.targets = 0 then targets.length else summary.targets
    capacity := summary.capacity
    readinessStatus := summary.readinessStatus
    schedulerStatus := summary.schedulerStatus
    networkCounters := some network.2.2.2 }

end Build

/-! ### Events -/

/-- `severity`. -/
inductive Severity where
  /-- `"info"`. -/
  | info
  /-- `"warn"`. -/
  | warn
  /-- `"error"`. -/
  | error
  deriving DecidableEq, Repr

/-- `source`. -/
inductive Source where
  /-- `"readiness"`. -/
  | readiness
  /-- `"scheduler"`. -/
  | scheduler
  /-- `"queue"`. -/
  | queue
  /-- `"chat_backlog"`. -/
  | chatBacklog
  /-- `"parser_backlog"`. -/
  | parserBacklog
  /-- `"capacity"`. -/
  | capacity
  /-- `"workers"`. -/
  | workers
  /-- `"gpu"`. -/
  | gpu
  /-- `"telemetry_sampler"`. -/
  | telemetrySampler
  deriving DecidableEq, Repr

/-- A value of `context`. -/
inductive ContextValue where
  /-- A text. -/
  | text (value : String)
  /-- A number. -/
  | number (value : ℕ)
  /-- A truth value. -/
  | flag (value : Bool)
  /-- `availability`. -/
  | availability (value : Availability)
  deriving DecidableEq, Repr

/-- `build_dashboard_event`. -/
structure Event where
  /-- `timestamp`. -/
  timestamp : ℕ
  /-- `severity`. -/
  severity : Severity
  /-- `source`. -/
  source : Source
  /-- `message`. -/
  message : String
  /-- `context`. -/
  context : List (String × ContextValue)
  deriving DecidableEq, Repr

section Events

variable {F : Type} (cfg : Settings)

/-- A status that is not what it was. -/
def statusEvents (timestamp : ℕ) (source : Source) (good : String) (bad : Severity)
    (restored lost : String) (previous current : String) : List Event :=
  if previous ≠ current then
    [{ timestamp
       severity := if current = good then .info else bad
       source
       message := if current = good then restored else lost
       context := [("status", .text current)] }]
  else []

/-- A number that has come up to its threshold, or has gone below it. -/
def crossingEvents (timestamp : ℕ) (source : Source) (name up down : String) (threshold : ℕ)
    (previous current : ℕ) : List Event :=
  if previous < threshold ∧ threshold ≤ current then
    [{ timestamp, severity := .warn, source, message := up
       context := [(name, .number current), ("threshold", .number threshold)] }]
  else if threshold ≤ previous ∧ current < threshold then
    [{ timestamp, severity := .info, source, message := down
       context := [(name, .number current), ("threshold", .number threshold)] }]
  else []

/-- Something that is there or not. -/
def presenceEvents (timestamp : ℕ) (source : Source) (restored lost : String)
    (context : List (String × ContextValue)) (previous current : Bool) : List Event :=
  if previous ≠ current then
    [{ timestamp, severity := if current then .info else .warn, source
       message := if current then restored else lost, context }]
  else []

/-- The count of the workers. -/
def workersEvents (timestamp previous current : ℕ) : List Event :=
  if previous ≠ current then
    [{ timestamp, severity := .info, source := .workers, message := "Worker count changed"
       context := [("previous", .number previous), ("current", .number current)] }]
  else []

/-- `queue_threshold`. -/
def queueThreshold : ℕ := max 1 cfg.queueDepthWarnThreshold

/-- `chat_threshold`. -/
def chatThreshold : ℕ := max 1 cfg.chatBacklogWarnThreshold

/-- `parser_threshold`. -/
def parserThreshold : ℕ := max 1 cfg.parserBacklogWarnThreshold

/-- The GPU metrics are reported. -/
def Sample.reportsGpu (sample : Sample F) : Bool := sample.gpuAvailability = .reported

/-- `build_dashboard_events`. -/
def buildDashboardEvents (previousSample : Option (Sample F)) (current : Sample F) : List Event :=
  match previousSample with
  | none => []
  | some previous =>
    let timestamp := current.capturedAt
    statusEvents timestamp .readiness "ready" .warn "Readiness restored"
        "Readiness changed to not_ready" previous.readinessStatus current.readinessStatus ++
      statusEvents timestamp .scheduler "healthy" .error "Scheduler heartbeat restored"
        "Scheduler heartbeat became unavailable" previous.schedulerStatus current.schedulerStatus ++
      crossingEvents timestamp .queue "queue_depth" "Queue depth crossed warning threshold"
        "Queue depth returned below warning threshold" (queueThreshold cfg)
        previous.queueDepth current.queueDepth ++
      crossingEvents timestamp .chatBacklog "chat_backlog" "Chat backlog spike detected"
        "Chat backlog returned below warning threshold" (chatThreshold cfg)
        previous.chatBacklog current.chatBacklog ++
      crossingEvents timestamp .parserBacklog "parser_backlog" "Parser backlog spike detected"
        "Parser backlog returned below warning threshold" (parserThreshold cfg)
        previous.parserBacklog current.parserBacklog ++
      presenceEvents timestamp .capacity "Chat capacity restored" "Chat capacity is unavailable"
        [("capacity", .flag current.capacity)] previous.capacity current.capacity ++
      workersEvents timestamp previous.workersTotal current.workersTotal ++
      presenceEvents timestamp .gpu "GPU telemetry restored" "GPU telemetry unavailable"
        [("availability", .availability current.gpuAvailability)]
        previous.reportsGpu current.reportsGpu

/-! ### What an event tells -/

/-- What a source reads. -/
inductive Reading where
  /-- A status. -/
  | status (value : String)
  /-- All is well, or not. -/
  | well (value : Bool)
  /-- A count. -/
  | count (value : ℕ)
  deriving DecidableEq, Repr

/-- What a source reads in a sample. -/
def Sample.reading (sample : Sample F) : Source → Reading
  | .readiness => .status sample.readinessStatus
  | .scheduler => .status sample.schedulerStatus
  | .queue => .well (sample.queueDepth < queueThreshold cfg)
  | .chatBacklog => .well (sample.chatBacklog < chatThreshold cfg)
  | .parserBacklog => .well (sample.parserBacklog < parserThreshold cfg)
  | .capacity => .well sample.capacity
  | .workers => .count sample.workersTotal
  | .gpu => .well sample.reportsGpu
  | .telemetrySampler => .well true

/-- What an event tells: the status or the count it names, or else whether all is well. -/
def Event.tells (event : Event) : Reading :=
  match event.source, event.context with
  | .readiness, [(_, .text status)] | .scheduler, [(_, .text status)] => .status status
  | .workers, [_, (_, .number current)] => .count current
  | _, _ => .well (event.severity = .info)

/-- The events of a source. -/
def ofSource (source : Source) (events : List Event) : List Event :=
  events.filter fun event => event.source = source

@[simp] theorem ofSource_append (source : Source) (events events' : List Event) :
    ofSource source (events ++ events') = ofSource source events ++ ofSource source events' :=
  List.filter_append ..

variable {cfg} {source source' : Source}

theorem ofSource_status (timestamp : ℕ) (good : String) (bad : Severity)
    (restored lost previous current : String) :
    ofSource source (statusEvents timestamp source' good bad restored lost previous current) =
      if source' = source then
        statusEvents timestamp source' good bad restored lost previous current
      else [] := by
  rw [statusEvents]
  split <;> by_cases hsource : source' = source <;> simp [ofSource, hsource]

theorem ofSource_crossing (timestamp : ℕ) (name up down : String)
    (threshold previous current : ℕ) :
    ofSource source (crossingEvents timestamp source' name up down threshold previous current) =
      if source' = source then
        crossingEvents timestamp source' name up down threshold previous current
      else [] := by
  rw [crossingEvents]
  split_ifs <;> simp [ofSource, *]

theorem ofSource_presence (timestamp : ℕ) (restored lost : String)
    (context : List (String × ContextValue)) (previous current : Bool) :
    ofSource source (presenceEvents timestamp source' restored lost context previous current) =
      if source' = source then
        presenceEvents timestamp source' restored lost context previous current
      else [] := by
  rw [presenceEvents]
  split <;> by_cases hsource : source' = source <;> simp [ofSource, hsource]

theorem ofSource_workers (timestamp previous current : ℕ) :
    ofSource source (workersEvents timestamp previous current) =
      if Source.workers = source then workersEvents timestamp previous current else [] := by
  rw [workersEvents]
  split <;> by_cases hsource : Source.workers = source <;> simp [ofSource, hsource]

theorem tells_crossing (hsource : source ≠ .readiness ∧ source ≠ .scheduler ∧ source ≠ .workers)
    (timestamp : ℕ) (name up down : String) (threshold previous current : ℕ) :
    (crossingEvents timestamp source name up down threshold previous current).map Event.tells =
      if Reading.well (previous < threshold) = .well (current < threshold) then []
      else [.well (current < threshold)] := by
  have htells : ∀ severity message context,
      Event.tells ⟨timestamp, severity, source, message, context⟩ =
        .well (severity = .info) := by
    intro severity message context
    cases source <;> simp_all [Event.tells]
  rw [crossingEvents]
  by_cases hprevious : previous < threshold <;> by_cases hcurrent : current < threshold <;>
    simp [hprevious, hcurrent, htells, Nat.not_lt.mp, not_le.mpr]

/-- **A source has an event exactly if its reading has changed, and the event tells the new
reading.** -/
theorem tells_buildDashboardEvents (source : Source) (previous current : Sample F) :
    (ofSource source (buildDashboardEvents cfg (some previous) current)).map Event.tells =
      if previous.reading cfg source = current.reading cfg source then []
      else [current.reading cfg source] := by
  simp only [buildDashboardEvents, ofSource_append, ofSource_status, ofSource_crossing,
    ofSource_presence, ofSource_workers]
  cases source with
  | readiness =>
    by_cases h : previous.readinessStatus = current.readinessStatus <;>
      simp [statusEvents, Sample.reading, Event.tells, h]
  | scheduler =>
    by_cases h : previous.schedulerStatus = current.schedulerStatus <;>
      simp [statusEvents, Sample.reading, Event.tells, h]
  | queue => simp [tells_crossing, Sample.reading]
  | chatBacklog => simp [tells_crossing, Sample.reading]
  | parserBacklog => simp [tells_crossing, Sample.reading]
  | capacity =>
    cases hprevious : previous.capacity <;> cases hcurrent : current.capacity <;>
      simp [presenceEvents, Sample.reading, Event.tells, hprevious, hcurrent]
  | workers =>
    by_cases h : previous.workersTotal = current.workersTotal <;>
      simp [workersEvents, Sample.reading, Event.tells, h]
  | gpu =>
    cases hprevious : previous.reportsGpu <;> cases hcurrent : current.reportsGpu <;>
      simp [presenceEvents, Sample.reading, Event.tells, hprevious, hcurrent]
  | telemetrySampler => simp [Sample.reading]

/-- What is left out of a public sample is read by no source. -/
@[simp] theorem reading_sanitize (source : Source) (sample : Sample F) :
    (sanitizeDashboardLiveSample sample).reading cfg source = sample.reading cfg source := by
  cases source <;> rfl

end Events

end Telemetry

end AiAgent

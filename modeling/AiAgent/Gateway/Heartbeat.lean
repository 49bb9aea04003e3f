import AiAgent.Gateway.Moves
import AiAgent.Store.Registry

/-!
# Heartbeats

Targets and workers report themselves every few seconds, and every process that wants to know who
is there reads the reports that have not expired: `list_active_targets`, `list_active_workers` and
what is built on them, down to the decision that a job which asks for the gpu has to do without
(`AiAgent.Gateway.Heartbeat.downgradeJobTargetKindIfNeeded`). The readers also tidy up: a name
whose report has expired is taken out of the set of names.

The rest of the gateway takes the list of those who are there for one read of the store. Alone it
is (`AiAgent.Gateway.Heartbeat.run_hasWorkerForTargetKind`). Among others it is a conversation of
many commands, and this file says what still holds of it: whoever reports in time is on every list
(`AiAgent.Gateway.Heartbeat.workers_listed`), and as long as a gpu worker of the right pool and its
target report in time no job is taken off the gpu
(`AiAgent.Gateway.Heartbeat.gpu_of_punctual`). Who is late once may be left out even after it has
reported again (`AiAgent.Gateway.Heartbeat.not_listed_late`).
-/

namespace AiAgent

open Command

namespace Gateway

namespace Heartbeat

/-! ### Reports -/

/-- The sets of names. -/
inductive Shelf where
  /-- `TARGETS_SET_KEY`. -/
  | targets
  /-- `WORKERS_SET_KEY`. -/
  | workers
  deriving DecidableEq, Repr

/-- The keys of the reports. -/
inductive Key where
  /-- `target_key`. -/
  | target (targetId : TargetId)
  /-- `worker_key`. -/
  | worker (workerId : WorkerId)
  deriving DecidableEq, Repr

/-- A report. -/
inductive Report where
  /-- Of a target. -/
  | target (target : Target)
  /-- Of a worker. -/
  | worker (worker : Worker)
  deriving DecidableEq, Repr

/-- The target that reports itself. -/
def Report.target? : Report → Option Target
  | .target card => some card
  | .worker _ => none

/-- The worker that reports itself. -/
def Report.worker? : Report → Option Worker
  | .target _ => none
  | .worker card => some card

/-- How long a report stands: the store takes no report that stands for no time. -/
structure Ttls where
  /-- `TARGET_HEARTBEAT_TTL_SECONDS`. -/
  targetHeartbeatTtlSeconds : ℕ := 15
  /-- `WORKER_HEARTBEAT_TTL_SECONDS`. -/
  workerHeartbeatTtlSeconds : ℕ := 15
  /-- A target's report stands for some time. -/
  target_pos : 0 < targetHeartbeatTtlSeconds := by decide
  /-- A worker's report stands for some time. -/
  worker_pos : 0 < workerHeartbeatTtlSeconds := by decide

/-- How the reports are kept. -/
def plan (ttls : Ttls) : Registry.Plan Shelf Key Report where
  group
    | .target _ => .targets
    | .worker _ => .workers
  name
    | .target target => .target target.targetId
    | .worker worker => .worker worker.workerId
  ttl
    | .target _ => ttls.targetHeartbeatTtlSeconds
    | .worker _ => ttls.workerHeartbeatTtlSeconds

/-! ### Calls -/

/-- What a process of the service does about the reports. -/
abbrev Calls (α : Type) := Program (Registry.signature Shelf Key Report) α

/-- `report_target_heartbeat`. -/
def reportTargetHeartbeat (target : Target) : Calls Unit :=
  Program.send (S := Registry.signature Shelf Key Report) (.report (.target target))

/-- `report_worker_heartbeat`. -/
def reportWorkerHeartbeat (worker : Worker) : Calls Unit :=
  Program.send (S := Registry.signature Shelf Key Report) (.report (.worker worker))

/-- `list_active_targets`. -/
def listActiveTargets : Calls (List Target) := do
  let found ← Registry.listActive .targets
  return found.filterMap Report.target?

/-- `list_active_workers`. -/
def listActiveWorkers : Calls (List Worker) := do
  let found ← Registry.listActive .workers
  return found.filterMap Report.worker?

/-- `list_working_workers`: the workers whose target is there. -/
def listWorkingWorkers (workloadClass : Option Workload) : Calls (List Worker) := do
  let workers ← listActiveWorkers
  if workers.isEmpty then return []
  else
    let targets ← listActiveTargets
    return workers.filter fun worker =>
      (workloadClass.all fun workload => worker.workerPool = workerPoolForWorkload workload) &&
        !worker.targetId.isEmpty && targets.any fun target => target.targetId = worker.targetId

/-- One of the workers is of the pool, and its target is there and of the kind. -/
def anyServes (workloadClass : Workload) (targetKind : TargetKind) (workers : List Worker)
    (targets : List Target) : Bool :=
  workers.any fun worker =>
    worker.workerPool = workerPoolForWorkload workloadClass &&
      match targets.find? fun target => target.targetId = worker.targetId with
      | none => false
      | some target => normalizeTargetKind target.targetKind = targetKind

/-- `has_worker_for_target_kind`. -/
def hasWorkerForTargetKind (workloadClass : Workload) (targetKind : TargetKind) :
    Calls Bool := do
  let workers ← listActiveWorkers
  if workers.isEmpty then return false
  else
    let targets ← listActiveTargets
    return anyServes workloadClass targetKind workers targets

/-- `resolve_target_kind`. -/
def resolveTargetKind (cfg : Settings) (workloadClass : Workload) : Calls TargetKind := do
  if cfg.gpuEnabled = false then return .cpu
  else if ← hasWorkerForTargetKind workloadClass .gpu then return .gpu
  else return .cpu

/-- `downgrade_job_target_kind_if_needed`. -/
def downgradeJobTargetKindIfNeeded (job : Job) : Calls Job := do
  if job.targetKind ≠ .gpu then return job
  else if ← hasWorkerForTargetKind job.workloadClass .gpu then return job
  else return { job with targetKind := .cpu }

/-! ### Alone -/

section Alone

variable (ttls : Ttls) (client : ℕ) (r : Registry Key Report)

/-- The targets whose reports stand. -/
def standingTargets : List Target :=
  ((r.members.filter fun i => (plan ttls).group i = .targets).filterMap r.find).filterMap
    Report.target?

/-- The workers whose reports stand. -/
def standingWorkers : List Worker :=
  ((r.members.filter fun i => (plan ttls).group i = .workers).filterMap r.find).filterMap
    Report.worker?

/-- **Alone, the question is one read**: the answer is the one the rest of the gateway gets from
the lists of those who are there. -/
theorem run_hasWorkerForTargetKind (workloadClass : Workload) (targetKind : TargetKind)
    (s : Redis) (hworkers : s.workers = standingWorkers ttls r)
    (htargets : s.targets = standingTargets ttls r) :
    ((hasWorkerForTargetKind workloadClass targetKind).run
        (Registry.store (plan ttls)) client r).1 =
      (alone (Gateway.hasWorkerForTargetKind workloadClass targetKind) s).1 := by
  -- Taking names out of the set of the workers leaves the targets as they are.
  have hkept : ∀ names : List Key,
      ((names.filter fun i => (plan ttls).group i = .workers → (r.find i).isSome = true).filter
        fun i => (plan ttls).group i = .targets) =
        names.filter fun i => (plan ttls).group i = .targets := by
    intro names
    rw [List.filter_filter]
    refine List.filter_congr fun i _ => ?_
    rcases i with i | i <;> simp [plan]
  have hlist : listActiveWorkers.run (Registry.store (plan ttls)) client r =
      (standingWorkers ttls r, { r with
        members := r.members.filter fun i =>
          (plan ttls).group i = .workers → (r.find i).isSome = true }) := by
    simp only [listActiveWorkers, Program.run_bind, Registry.run_listActive, Program.run_pure]
    rfl
  rw [hasWorkerForTargetKind, Program.run_bind, hlist, Gateway.hasWorkerForTargetKind, alone_bind,
    alone_workers]
  by_cases hempty : (standingWorkers ttls r).isEmpty = true
  · simp [hworkers, hempty]
  · simp only [hworkers, hempty, Bool.false_eq_true, if_false, Program.run_bind, listActiveTargets,
      Registry.run_listActive, Program.run_pure, alone_bind, alone_targets, alone_pure, htargets,
      hkept]
    rfl

end Alone

/-! ### Many processes at once -/

/-- What is called. -/
inductive Call where
  /-- `report_target_heartbeat`. -/
  | reportTargetHeartbeat (target : Target)
  /-- `report_worker_heartbeat`. -/
  | reportWorkerHeartbeat (worker : Worker)
  /-- `list_active_targets`. -/
  | listActiveTargets
  /-- `list_active_workers`. -/
  | listActiveWorkers
  /-- `list_working_workers`. -/
  | listWorkingWorkers (workloadClass : Option Workload)
  /-- `resolve_target_kind`. -/
  | resolveTargetKind (workloadClass : Workload)
  /-- `downgrade_job_target_kind_if_needed`. -/
  | downgradeJobTargetKindIfNeeded (job : Job)

/-- What is returned. -/
inductive Answer where
  /-- Nothing. -/
  | nothing
  /-- A list of targets. -/
  | targets (targets : List Target)
  /-- A list of workers. -/
  | workers (workers : List Worker)
  /-- A kind of target. -/
  | kind (targetKind : TargetKind)
  /-- The record of a job. -/
  | job (job : Job)

section Shared

variable (ttls : Ttls) (cfg : Settings) (punctual : Key → Prop)

/-- The program of a call. -/
def body : Call → Calls Answer
  | .reportTargetHeartbeat target => do
    heartbeat (reportTargetHeartbeat target)
  | .reportWorkerHeartbeat worker => do
    heartbeat (reportWorkerHeartbeat worker)
  | .listActiveTargets => return .targets (← listActiveTargets)
  | .listActiveWorkers => return .workers (← listActiveWorkers)
  | .listWorkingWorkers workloadClass => return .workers (← listWorkingWorkers workloadClass)
  | .resolveTargetKind workloadClass => return .kind (← resolveTargetKind cfg workloadClass)
  | .downgradeJobTargetKindIfNeeded job => return .job (← downgradeJobTargetKindIfNeeded job)
where
  /-- A report returns nothing. -/
  heartbeat (report : Calls Unit) : Calls Answer := do
    report
    return .nothing

/-- The processes of the service and the reports. -/
abbrev service : System (Registry.signature Shelf Key Report) (Registry Key Report) Call Answer :=
  Registry.system (plan ttls) punctual (body cfg)

/-- Anybody calls anything. -/
abbrev anyCalls : Rules (Registry.signature Shelf Key Report) (Registry Key Report) Call Answer :=
  ⟨fun _ => True, fun _ _ => True⟩

/-- The histories of the service. -/
abbrev History : Type := List (Entry (Registry.signature Shelf Key Report) Call Answer)

end Shared

/-! ### What the calls promise -/

section Promises

variable {ttls : Ttls} {cfg : Settings} {u : Registry.View Key Report}
  {t : Option (Registry.View Key Report)}

/-- The client has listed these workers. -/
def SeesWorkers (ttls : Ttls) (u : Registry.View Key Report) (workers : List Worker) : Prop :=
  Registry.Lists (plan ttls) u .workers (workers.map Report.worker)

/-- The client has listed these targets. -/
def SeesTargets (ttls : Ttls) (u : Registry.View Key Report) (targets : List Target) : Prop :=
  Registry.Lists (plan ttls) u .targets (targets.map Report.target)

/-- The reports found on the shelf of the workers are reports of workers. -/
theorem map_worker_filterMap {found : List Report}
    (h : ∀ report ∈ found, (plan ttls).group ((plan ttls).name report) = .workers) :
    (found.filterMap Report.worker?).map Report.worker = found := by
  induction found with
  | nil => rfl
  | cons report found ih =>
    have ih := ih fun report' hreport' => h report' (List.mem_cons_of_mem _ hreport')
    rcases report with target | worker
    · exact absurd (h _ List.mem_cons_self) (by simp [plan])
    · simpa [Report.worker?] using ih

theorem map_target_filterMap {found : List Report}
    (h : ∀ report ∈ found, (plan ttls).group ((plan ttls).name report) = .targets) :
    (found.filterMap Report.target?).map Report.target = found := by
  induction found with
  | nil => rfl
  | cons report found ih =>
    have ih := ih fun report' hreport' => h report' (List.mem_cons_of_mem _ hreport')
    rcases report with target | worker
    · simpa [Report.target?] using ih
    · exact absurd (h _ List.mem_cons_self) (by simp [plan])

theorem obeys_listActiveWorkers {Q : List Worker → Option (Registry.View Key Report) → Prop}
    (h : ∀ workers u, (∀ u₀, t = some u₀ → u₀.Before u) → SeesWorkers ttls u workers →
      Q workers (some u)) : listActiveWorkers.Obeys (Registry.discipline (plan ttls)) Q t := by
  rw [listActiveWorkers, Program.obeys_bind]
  refine Registry.obeys_listActive (k := Shelf.workers) fun found u hbefore hlists => ?_
  refine h _ u hbefore ?_
  rw [SeesWorkers, map_worker_filterMap fun report hreport => (hlists.sound report hreport).1]
  exact hlists

theorem obeys_listActiveTargets {Q : List Target → Option (Registry.View Key Report) → Prop}
    (h : ∀ targets u, (∀ u₀, t = some u₀ → u₀.Before u) → SeesTargets ttls u targets →
      Q targets (some u)) : listActiveTargets.Obeys (Registry.discipline (plan ttls)) Q t := by
  rw [listActiveTargets, Program.obeys_bind]
  refine Registry.obeys_listActive (k := Shelf.targets) fun found u hbefore hlists => ?_
  refine h _ u hbefore ?_
  rw [SeesTargets, map_target_filterMap fun report hreport => (hlists.sound report hreport).1]
  exact hlists

/-- The client has asked for a worker of the pool whose target is of the kind, and the answer is
`served`. -/
def Asked (ttls : Ttls) (u : Registry.View Key Report) (workloadClass : Workload)
    (targetKind : TargetKind) (served : Bool) : Prop :=
  ∃ workers targets, SeesWorkers ttls u workers ∧
    (workers ≠ [] → SeesTargets ttls u targets) ∧
    served = anyServes workloadClass targetKind workers targets

theorem obeys_hasWorkerForTargetKind {workloadClass : Workload} {targetKind : TargetKind}
    {Q : Bool → Option (Registry.View Key Report) → Prop}
    (h : ∀ served u, Asked ttls u workloadClass targetKind served → Q served (some u)) :
    (hasWorkerForTargetKind workloadClass targetKind).Obeys
      (Registry.discipline (plan ttls)) Q t := by
  rw [hasWorkerForTargetKind]
  refine (obeys_listActiveWorkers (Q := fun workers t' => ∃ u, t' = some u ∧
    SeesWorkers ttls u workers) fun workers u _ hworkers => ⟨u, rfl, hworkers⟩).bind ?_
  rintro workers _ ⟨u, rfl, hworkers⟩
  split
  · rename_i hempty
    rw [List.isEmpty_iff] at hempty
    exact h _ u ⟨workers, [], hworkers, fun hne => absurd hempty hne, by simp [hempty, anyServes]⟩
  · rw [Program.obeys_bind]
    refine obeys_listActiveTargets fun targets u' hbefore htargets => ?_
    exact h _ u' ⟨workers, targets, hworkers.mono (hbefore u rfl), fun _ => htargets, rfl⟩

/-- What a call promises of what it returns. -/
def Promise (ttls : Ttls) (cfg : Settings) :
    Call → Answer → Option (Registry.View Key Report) → Prop
  | .listActiveTargets, answer, t => ∃ u targets, t = some u ∧ answer = .targets targets ∧
    SeesTargets ttls u targets
  | .listActiveWorkers, answer, t => ∃ u workers, t = some u ∧ answer = .workers workers ∧
    SeesWorkers ttls u workers
  | .listWorkingWorkers workloadClass, answer, t => ∃ u workers targets, t = some u ∧
    SeesWorkers ttls u workers ∧ (workers ≠ [] → SeesTargets ttls u targets) ∧
    answer = .workers (workers.filter fun worker =>
      (workloadClass.all fun workload => worker.workerPool = workerPoolForWorkload workload) &&
        !worker.targetId.isEmpty && targets.any fun target => target.targetId = worker.targetId)
  | .resolveTargetKind workloadClass, answer, t => cfg.gpuEnabled = true →
    ∃ u served, t = some u ∧ Asked ttls u workloadClass .gpu served ∧
      answer = .kind (if served then .gpu else .cpu)
  | .downgradeJobTargetKindIfNeeded job, answer, t => job.targetKind = .gpu →
    ∃ u served, t = some u ∧ Asked ttls u job.workloadClass .gpu served ∧
      answer = .job (if served then job else { job with targetKind := .cpu })
  | _, _, _ => True

/-- **Every call keeps its promise**, whatever goes on around it. -/
theorem obeys_body (call : Call) :
    (body cfg call).Obeys (Registry.discipline (plan ttls)) (Promise ttls cfg call) none := by
  rcases call with target | worker | _ | _ | workloadClass | workloadClass | job
  · exact ⟨trivial, fun _ _ _ => trivial⟩
  · exact ⟨trivial, fun _ _ _ => trivial⟩
  · rw [body, Program.obeys_bind]
    exact obeys_listActiveTargets fun targets u _ htargets => ⟨u, targets, rfl, rfl, htargets⟩
  · rw [body, Program.obeys_bind]
    exact obeys_listActiveWorkers fun workers u _ hworkers => ⟨u, workers, rfl, rfl, hworkers⟩
  · rw [body, listWorkingWorkers, Program.obeys_bind]
    refine (obeys_listActiveWorkers (Q := fun workers t' => ∃ u, t' = some u ∧
      SeesWorkers ttls u workers) fun workers u _ hworkers => ⟨u, rfl, hworkers⟩).bind ?_
    rintro workers _ ⟨u, rfl, hworkers⟩
    split
    · rename_i hempty
      rw [List.isEmpty_iff] at hempty
      exact ⟨u, workers, [], rfl, hworkers, fun hne => absurd hempty hne, by simp [hempty]⟩
    · rw [Program.obeys_bind]
      refine obeys_listActiveTargets fun targets u' hbefore htargets => ?_
      exact ⟨u', workers, targets, rfl, hworkers.mono (hbefore u rfl), fun _ => htargets, rfl⟩
  · rw [body, resolveTargetKind, Program.obeys_bind]
    split
    · rename_i hoff
      exact fun hon => absurd hoff (by simp [hon])
    · rw [Program.obeys_bind]
      refine obeys_hasWorkerForTargetKind fun served u hasked => ?_
      rcases served with _ | _
      all_goals exact fun _ => ⟨u, _, rfl, hasked, rfl⟩
  · rw [body, downgradeJobTargetKindIfNeeded, Program.obeys_bind]
    split
    · rename_i hcpu
      exact fun hgpu => absurd hgpu hcpu
    · rw [Program.obeys_bind]
      refine obeys_hasWorkerForTargetKind fun served u hasked => ?_
      rcases served with _ | _
      all_goals exact fun _ => ⟨u, _, rfl, hasked, rfl⟩

end Promises

/-! ### Who is there -/

section Presence

variable {ttls : Ttls} {cfg : Settings} {punctual : Key → Prop}
  {w : World (Registry.signature Shelf Key Report) (Registry Key Report) Call Answer} {client : ℕ}

/-- The target or worker had reported when the client last began. -/
def WasThere (ttls : Ttls) (client : ℕ) (log : History) (key : Key) : Prop :=
  (Registry.newest (plan ttls) key (Registry.before client log)).isSome = true

/-- What a call is about to return is what it promises of a client that knows what is so. -/
theorem exists_promise (hw : Reachable (service ttls cfg punctual) anyCalls
    (Registry.Fresh punctual) w) {call : Call} {answer : Answer}
    (hi : w.tasks client = some ⟨call, .done answer⟩) :
    ∃ t, Promise ttls cfg call answer t ∧
      ∀ u, t = some u → Registry.Faithful (plan ttls) punctual w.log client u := by
  refine Registry.exists_view (fun key _ => ?_) (fun op => obeys_body op) hw hi
  rcases key with _ | _
  · exact ttls.target_pos
  · exact ttls.worker_pos

theorem SeesWorkers.complete {u : Registry.View Key Report} {workers : List Worker}
    (h : SeesWorkers ttls u workers)
    (hu : Registry.Faithful (plan ttls) punctual w.log client u) {workerId : WorkerId}
    (hpunctual : punctual (.worker workerId))
    (hthere : WasThere ttls client w.log (.worker workerId)) :
    ∃ worker ∈ workers, worker.workerId = workerId := by
  obtain ⟨report, hreport, hname⟩ :=
    Registry.Lists.complete h (.worker workerId) ((hu.sure _).mpr ⟨hpunctual, hthere⟩) rfl
  obtain ⟨worker, hworker, rfl⟩ := List.mem_map.mp hreport
  exact ⟨worker, hworker, Key.worker.inj hname⟩

theorem SeesWorkers.current {u : Registry.View Key Report} {workers : List Worker}
    (h : SeesWorkers ttls u workers)
    (hu : Registry.Faithful (plan ttls) punctual w.log client u) {worker : Worker}
    (hworker : worker ∈ workers) : Registry.Current (plan ttls) client w.log (.worker worker) :=
  hu.read _ (Registry.Lists.sound h _ (List.mem_map_of_mem hworker)).2

theorem SeesTargets.complete {u : Registry.View Key Report} {targets : List Target}
    (h : SeesTargets ttls u targets)
    (hu : Registry.Faithful (plan ttls) punctual w.log client u) {targetId : TargetId}
    (hpunctual : punctual (.target targetId))
    (hthere : WasThere ttls client w.log (.target targetId)) :
    ∃ target ∈ targets, target.targetId = targetId := by
  obtain ⟨report, hreport, hname⟩ :=
    Registry.Lists.complete h (.target targetId) ((hu.sure _).mpr ⟨hpunctual, hthere⟩) rfl
  obtain ⟨target, htarget, rfl⟩ := List.mem_map.mp hreport
  exact ⟨target, htarget, Key.target.inj hname⟩

theorem SeesTargets.current {u : Registry.View Key Report} {targets : List Target}
    (h : SeesTargets ttls u targets)
    (hu : Registry.Faithful (plan ttls) punctual w.log client u) {target : Target}
    (htarget : target ∈ targets) : Registry.Current (plan ttls) client w.log (.target target) :=
  hu.read _ (Registry.Lists.sound h _ (List.mem_map_of_mem htarget)).2

/-- **Who reports in time is on every list**: of the workers that had reported when the listing
began none is left out that reports in time, and every report that is listed was the newest of its
worker at some moment since. -/
theorem workers_listed (hw : Reachable (service ttls cfg punctual) anyCalls
    (Registry.Fresh punctual) w) {answer : Answer}
    (hi : w.tasks client = some ⟨.listActiveWorkers, .done answer⟩) :
    ∃ workers, answer = .workers workers ∧
      (∀ workerId, punctual (.worker workerId) →
        WasThere ttls client w.log (.worker workerId) →
          ∃ worker ∈ workers, worker.workerId = workerId) ∧
      ∀ worker ∈ workers, Registry.Current (plan ttls) client w.log (.worker worker) := by
  obtain ⟨_, ⟨u, workers, rfl, rfl, hsees⟩, hfaithful⟩ := exists_promise hw hi
  have hu := hfaithful u rfl
  exact ⟨workers, rfl, fun _ hpunctual hthere => hsees.complete hu hpunctual hthere,
    fun _ hworker => hsees.current hu hworker⟩

/-- The same of the targets. -/
theorem targets_listed (hw : Reachable (service ttls cfg punctual) anyCalls
    (Registry.Fresh punctual) w) {answer : Answer}
    (hi : w.tasks client = some ⟨.listActiveTargets, .done answer⟩) :
    ∃ targets, answer = .targets targets ∧
      (∀ targetId, punctual (.target targetId) →
        WasThere ttls client w.log (.target targetId) →
          ∃ target ∈ targets, target.targetId = targetId) ∧
      ∀ target ∈ targets, Registry.Current (plan ttls) client w.log (.target target) := by
  obtain ⟨_, ⟨u, targets, rfl, rfl, hsees⟩, hfaithful⟩ := exists_promise hw hi
  have hu := hfaithful u rfl
  exact ⟨targets, rfl, fun _ hpunctual hthere => hsees.complete hu hpunctual hthere,
    fun _ htarget => hsees.current hu htarget⟩

/-- A worker whose reports all say that it is of the pool and works on the target. -/
def WorksOn (log : History) (workerId : WorkerId) (pool : WorkerPool) (targetId : TargetId) :
    Prop :=
  ∀ worker, .worker worker ∈ Registry.reported log → worker.workerId = workerId →
    worker.workerPool = pool ∧ worker.targetId = targetId

/-- A target whose reports all say that it is of the kind. -/
def IsOfKind (log : History) (targetId : TargetId) (targetKind : TargetKind) : Prop :=
  ∀ target, .target target ∈ Registry.reported log → target.targetId = targetId →
    normalizeTargetKind target.targetKind = targetKind

/-- A worker that is listed with a target of the kind serves. -/
theorem anyServes_of_mem {workloadClass : Workload} {targetKind : TargetKind}
    {workers : List Worker} {targets : List Target} {worker : Worker} (hworker : worker ∈ workers)
    (hpool : worker.workerPool = workerPoolForWorkload workloadClass)
    (htarget : ∃ target ∈ targets, target.targetId = worker.targetId)
    (hkind : ∀ target ∈ targets, target.targetId = worker.targetId →
      normalizeTargetKind target.targetKind = targetKind) :
    anyServes workloadClass targetKind workers targets = true := by
  refine List.any_eq_true.mpr ⟨worker, hworker, ?_⟩
  obtain ⟨target, hmem, hid⟩ := htarget
  rcases hfind : targets.find? fun target => target.targetId = worker.targetId with - | found
  · exact absurd hid (by simpa using List.find?_eq_none.mp hfind target hmem)
  · have hfound := List.find?_some hfind
    have hfoundKind := hkind found (List.mem_of_find?_eq_some hfind) (by simpa using hfound)
    simp only [hpool, decide_true, Bool.true_and, hfind, hfoundKind]

/-- Who is sure of a worker of the pool and of its target is told that there is one. -/
theorem Asked.served {u : Registry.View Key Report} {workloadClass : Workload}
    {targetKind : TargetKind} {served : Bool} (h : Asked ttls u workloadClass targetKind served)
    (hu : Registry.Faithful (plan ttls) punctual w.log client u) {workerId : WorkerId}
    {targetId : TargetId} (hworker : punctual (.worker workerId))
    (htarget : punctual (.target targetId))
    (hworkerThere : WasThere ttls client w.log (.worker workerId))
    (htargetThere : WasThere ttls client w.log (.target targetId))
    (hworks : WorksOn w.log workerId (workerPoolForWorkload workloadClass) targetId)
    (hkind : IsOfKind w.log targetId targetKind) : served = true := by
  obtain ⟨workers, targets, hworkers, htargets, rfl⟩ := h
  obtain ⟨worker, hmem, hid⟩ := hworkers.complete hu hworker hworkerThere
  have htargets := htargets (List.ne_nil_of_mem hmem)
  obtain ⟨hpool, hon⟩ := hworks worker (hworkers.current hu hmem).mem_reported hid
  refine anyServes_of_mem hmem hpool ?_ fun target htarget htargetId => ?_
  · rw [hon]
    exact htargets.complete hu htarget htargetThere
  · exact hkind target (htargets.current hu htarget).mem_reported (htargetId.trans hon)

/-- Who is told that there is one has seen it. -/
theorem Asked.exists_of_served {u : Registry.View Key Report} {workloadClass : Workload}
    {targetKind : TargetKind} (h : Asked ttls u workloadClass targetKind true)
    (hu : Registry.Faithful (plan ttls) punctual w.log client u) :
    ∃ worker target, Registry.Current (plan ttls) client w.log (.worker worker) ∧
      Registry.Current (plan ttls) client w.log (.target target) ∧
      worker.workerPool = workerPoolForWorkload workloadClass ∧
      target.targetId = worker.targetId ∧ normalizeTargetKind target.targetKind = targetKind := by
  obtain ⟨workers, targets, hworkers, htargets, hserved⟩ := h
  obtain ⟨worker, hmem, hserves⟩ := List.any_eq_true.mp hserved.symm
  rw [Bool.and_eq_true, decide_eq_true_eq] at hserves
  obtain ⟨hpool, hserves⟩ := hserves
  rcases hfind : targets.find? fun target => target.targetId = worker.targetId with - | target
  · simp [hfind] at hserves
  · have htargets := htargets (List.ne_nil_of_mem hmem)
    have htarget := htargets.current hu (List.mem_of_find?_eq_some hfind)
    have hid := List.find?_some hfind
    simp only [hfind, decide_eq_true_eq] at hserves hid
    exact ⟨worker, target, hworkers.current hu hmem, htarget, hpool, hid, hserves⟩

/-- **No job is taken off the gpu** while a worker of its pool and the gpu it works on report in
time, from before the question on. -/
theorem gpu_of_punctual (hw : Reachable (service ttls cfg punctual) anyCalls
    (Registry.Fresh punctual) w) {job : Job} {answer : Answer}
    (hi : w.tasks client = some ⟨.downgradeJobTargetKindIfNeeded job, .done answer⟩)
    (hgpu : job.targetKind = .gpu) {workerId : WorkerId} {targetId : TargetId}
    (hworker : punctual (.worker workerId)) (htarget : punctual (.target targetId))
    (hworkerThere : WasThere ttls client w.log (.worker workerId))
    (htargetThere : WasThere ttls client w.log (.target targetId))
    (hworks : WorksOn w.log workerId (workerPoolForWorkload job.workloadClass) targetId)
    (hkind : IsOfKind w.log targetId .gpu) : answer = .job job := by
  obtain ⟨_, hpromise, hfaithful⟩ := exists_promise hw hi
  obtain ⟨u, served, rfl, hasked, rfl⟩ := hpromise hgpu
  rw [hasked.served (hfaithful u rfl) hworker htarget hworkerThere htargetThere hworks hkind,
    if_pos rfl]

/-- **A job stays on the gpu for a reason**: a worker of its pool was there at some moment since
the question, and so was the gpu it works on. -/
theorem exists_of_gpu (hw : Reachable (service ttls cfg punctual) anyCalls
    (Registry.Fresh punctual) w) {job job' : Job}
    (hi : w.tasks client = some ⟨.downgradeJobTargetKindIfNeeded job, .done (.job job')⟩)
    (hgpu : job.targetKind = .gpu) (hkept : job'.targetKind = .gpu) :
    ∃ worker target, Registry.Current (plan ttls) client w.log (.worker worker) ∧
      Registry.Current (plan ttls) client w.log (.target target) ∧
      worker.workerPool = workerPoolForWorkload job.workloadClass ∧
      target.targetId = worker.targetId ∧ normalizeTargetKind target.targetKind = .gpu := by
  obtain ⟨_, hpromise, hfaithful⟩ := exists_promise hw hi
  obtain ⟨u, served, rfl, hasked, hanswer⟩ := hpromise hgpu
  rw [Answer.job.injEq] at hanswer
  rcases served with _ | _
  · rw [hanswer] at hkept
    cases hkept
  · exact hasked.exists_of_served (hfaithful u rfl)

/-- **A workload is routed to the gpu** if the service is to use it and a worker of the pool and
the gpu it works on report in time. -/
theorem resolved_of_punctual (hw : Reachable (service ttls cfg punctual) anyCalls
    (Registry.Fresh punctual) w) {workloadClass : Workload} {answer : Answer}
    (hi : w.tasks client = some ⟨.resolveTargetKind workloadClass, .done answer⟩)
    (hon : cfg.gpuEnabled = true) {workerId : WorkerId} {targetId : TargetId}
    (hworker : punctual (.worker workerId)) (htarget : punctual (.target targetId))
    (hworkerThere : WasThere ttls client w.log (.worker workerId))
    (htargetThere : WasThere ttls client w.log (.target targetId))
    (hworks : WorksOn w.log workerId (workerPoolForWorkload workloadClass) targetId)
    (hkind : IsOfKind w.log targetId .gpu) : answer = .kind .gpu := by
  obtain ⟨_, hpromise, hfaithful⟩ := exists_promise hw hi
  obtain ⟨u, served, rfl, hasked, rfl⟩ := hpromise hon
  rw [hasked.served (hfaithful u rfl) hworker htarget hworkerThere htargetThere hworks hkind,
    if_pos rfl]

/-- **Who works is known to work**: of the workers of the pool none is left out that reports in
time and whose target does. -/
theorem working_listed (hw : Reachable (service ttls cfg punctual) anyCalls
    (Registry.Fresh punctual) w) {workloadClass : Workload} {answer : Answer}
    (hi : w.tasks client = some ⟨.listWorkingWorkers (some workloadClass), .done answer⟩)
    {workerId : WorkerId} {targetId : TargetId} (hid : targetId ≠ "")
    (hworker : punctual (.worker workerId)) (htarget : punctual (.target targetId))
    (hworkerThere : WasThere ttls client w.log (.worker workerId))
    (htargetThere : WasThere ttls client w.log (.target targetId))
    (hworks : WorksOn w.log workerId (workerPoolForWorkload workloadClass) targetId) :
    ∃ workers, answer = .workers workers ∧ ∃ worker ∈ workers, worker.workerId = workerId := by
  obtain ⟨_, ⟨u, workers, targets, rfl, hworkers, htargets, rfl⟩, hfaithful⟩ := exists_promise hw hi
  have hu := hfaithful u rfl
  obtain ⟨worker, hmem, hworkerId⟩ := hworkers.complete hu hworker hworkerThere
  obtain ⟨hpool, hon⟩ := hworks worker (hworkers.current hu hmem).mem_reported hworkerId
  obtain ⟨target, htargetMem, htargetId⟩ :=
    (htargets (List.ne_nil_of_mem hmem)).complete hu htarget htargetThere
  refine ⟨_, rfl, worker, List.mem_filter.mpr ⟨hmem, ?_⟩, hworkerId⟩
  have hany : (targets.any fun target => target.targetId = worker.targetId) = true :=
    List.any_eq_true.mpr ⟨target, htargetMem, decide_eq_true (htargetId.trans hon.symm)⟩
  have hnotEmpty : worker.targetId.isEmpty = false := by simpa [hon] using hid
  simp only [Option.all_some, hpool, decide_true, hnotEmpty, Bool.not_false, hany, Bool.and_self]

/-! ### Runs that are worked out -/

/-- A gpu. -/
def smallGpu : Target := { smallTarget with targetKind := some "gpu".toList }

/-- A worker that works on it. -/
def smallGpuWorker : Worker := ⟨"w", .chat, "t"⟩

/-- A chat job that asks for the gpu. -/
def smallGpuJob : Job := newJob smallSettings smallRequest 1 ⟨"m", 0⟩ .gpu 0

/-- A registry that nobody has reported to. -/
def emptyRegistry : Registry Key Report := ⟨0, fun _ => none, []⟩

instance (ttls : Ttls) (cfg : Settings) (punctual : Key → Prop)
    (c : (Registry.signature Shelf Key Report).Cmd) (r : Registry Key Report) :
    Decidable ((service ttls cfg punctual).store.ready c r) :=
  inferInstanceAs (Decidable True)

/-- The service on the day on which all are in time. -/
abbrev smallService :
    System (Registry.signature Shelf Key Report) (Registry Key Report) Call Answer :=
  service {} smallSettings fun _ => True

/-- The gpu and its worker report, and then client 2 makes a call. -/
def smallTurns (call : Call) (steps : ℕ) : List (Turn Call) :=
  Turn.whole 0 (.reportTargetHeartbeat smallGpu) 2 ++
    Turn.whole 1 (.reportWorkerHeartbeat smallGpuWorker) 2 ++ Turn.whole 2 call steps

/-- The world in which client 2 has its answer. -/
def smallDay (call : Call) (steps : ℕ) :
    World (Registry.signature Shelf Key Report) (Registry Key Report) Call Answer :=
  ((World.fresh emptyRegistry).play smallService anyCalls (smallTurns call steps)).getD
    (World.fresh emptyRegistry)

theorem reachable_smallDay {call : Call} {steps : ℕ}
    (hplay : (World.fresh emptyRegistry).play smallService anyCalls (smallTurns call steps) =
      some (smallDay call steps)) :
    Reachable smallService anyCalls (Registry.Fresh fun _ => True) (smallDay call steps) :=
  (Reachable.init ⟨fun _ => rfl, fun _ _ => by simp [emptyRegistry]⟩).later
    (World.later_of_play hplay)

theorem workers_listed_smallDay : ∃ workers, Answer.workers [smallGpuWorker] = .workers workers ∧
    (∃ worker ∈ workers, worker.workerId = "w") ∧ ∀ worker ∈ workers,
      Registry.Current (plan {}) 2 (smallDay .listActiveWorkers 2).log (.worker worker) := by
  have hi : (smallDay .listActiveWorkers 2).tasks 2 =
      some ⟨.listActiveWorkers, .done (.workers [smallGpuWorker])⟩ := rfl
  have hthere : WasThere {} 2 (smallDay .listActiveWorkers 2).log (.worker "w") := rfl
  obtain ⟨workers, hworkers, hall, hcurrent⟩ := workers_listed (reachable_smallDay rfl) hi
  exact ⟨workers, hworkers, hall "w" trivial hthere, hcurrent⟩

/-- The world in which client 2 knows that the job can stay on the gpu. -/
abbrev smallQuestion :
    World (Registry.signature Shelf Key Report) (Registry Key Report) Call Answer :=
  smallDay (.downgradeJobTargetKindIfNeeded smallGpuJob) 4

theorem tasks_smallQuestion : smallQuestion.tasks 2 =
    some ⟨.downgradeJobTargetKindIfNeeded smallGpuJob, .done (.job smallGpuJob)⟩ := rfl

theorem gpu_of_punctual_smallDay : ∃ answer, smallQuestion.tasks 2 =
    some ⟨.downgradeJobTargetKindIfNeeded smallGpuJob, .done answer⟩ ∧
      answer = .job smallGpuJob := by
  have hworkerThere : WasThere {} 2 smallQuestion.log (.worker "w") := rfl
  have htargetThere : WasThere {} 2 smallQuestion.log (.target "t") := rfl
  have hreported : Registry.reported smallQuestion.log =
      [.worker smallGpuWorker, .target smallGpu] := rfl
  refine ⟨_, tasks_smallQuestion, gpu_of_punctual (reachable_smallDay rfl) tasks_smallQuestion rfl
    trivial trivial hworkerThere htargetThere ?_ ?_⟩
  · intro worker hworker _
    rw [hreported] at hworker
    obtain rfl : worker = smallGpuWorker := by simpa using hworker
    exact ⟨rfl, rfl⟩
  · intro target htarget _
    rw [hreported] at htarget
    obtain rfl : target = smallGpu := by simpa using htarget
    rfl

theorem exists_of_gpu_smallDay : ∃ worker target,
    Registry.Current (plan {}) 2 smallQuestion.log (.worker worker) ∧
      Registry.Current (plan {}) 2 smallQuestion.log (.target target) ∧
      worker.workerPool = .chat ∧ target.targetId = worker.targetId ∧
      normalizeTargetKind target.targetKind = .gpu :=
  exists_of_gpu (reachable_smallDay rfl) tasks_smallQuestion rfl rfl

/-- The service on the day of a worker that is late. -/
abbrev lateService :
    System (Registry.signature Shelf Key Report) (Registry Key Report) Call Answer :=
  service {} smallSettings fun _ => False

/-- The worker reports, and its report expires. -/
def lateMorning : World (Registry.signature Shelf Key Report) (Registry Key Report) Call Answer :=
  ((World.fresh emptyRegistry).play lateService anyCalls
    (Turn.whole 1 (.reportWorkerHeartbeat smallGpuWorker) 2)).getD (World.fresh emptyRegistry)

/-- Client 2 finds the key missing before the worker reports again, and takes the name out after.
Then client 3 asks who is there. -/
def lateTurns : List (Turn Call) :=
  [.start 2 .listActiveWorkers, .next 2, .next 2] ++
    Turn.whole 1 (.reportWorkerHeartbeat smallGpuWorker) 2 ++
      [.next 2, .next 2] ++ Turn.whole 3 .listActiveWorkers 1

/-- The world in which client 3 has its answer. -/
def lateDay : World (Registry.signature Shelf Key Report) (Registry Key Report) Call Answer :=
  ({ lateMorning with shared := { lateMorning.shared with now := 20 } }.play lateService anyCalls
    lateTurns).getD (World.fresh emptyRegistry)

/-- **Who was late once may be left out after it has reported again**: another process had found
its key missing, and takes its name out of the set only then. -/
theorem not_listed_late : Reachable lateService anyCalls (Registry.Fresh fun _ => False) lateDay ∧
    lateDay.tasks 3 = some ⟨.listActiveWorkers, .done (.workers [])⟩ ∧
    WasThere {} 3 lateDay.log (.worker "w") ∧
    lateDay.shared.find (.worker "w") = some (.worker smallGpuWorker) := by
  refine ⟨?_, rfl, rfl, rfl⟩
  have hmorning : (World.fresh emptyRegistry).play lateService anyCalls
      (Turn.whole 1 (.reportWorkerHeartbeat smallGpuWorker) 2) = some lateMorning := rfl
  have hday : World.play lateService anyCalls
      { lateMorning with shared := { lateMorning.shared with now := 20 } } lateTurns =
        some lateDay := rfl
  have hinit : Reachable lateService anyCalls (Registry.Fresh fun _ => False)
      (World.fresh emptyRegistry) := .init ⟨fun _ => rfl, fun _ h => h.elim⟩
  have hexpired := (hinit.later (World.later_of_play hmorning)).step
    (.outside _ ⟨20, by decide, rfl, fun _ _ _ h => h.elim⟩)
  exact hexpired.later (World.later_of_play hday)

end Presence

end Heartbeat

end Gateway

end AiAgent

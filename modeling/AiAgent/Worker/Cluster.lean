import AiAgent.Gateway.Moves
import AiAgent.Gateway.Watched
import AiAgent.Worker.Parser

/-!
# The control plane as many processes on one Redis

The API, the scheduler, the reaper and the workers are clients of the store
(`AiAgent.Worker.cluster`); a client runs an operation of the gateway, or serves a parse job from
the claim to the enqueued child (`AiAgent.Worker.Work`). A step is one command, and a client may
die between any two of its commands.

Every operation keeps the discipline `AiAgent.Gateway.watch`
(`AiAgent.Worker.obeys_body`), so in every world that is reached the operations under way carry
views that fit the history (`AiAgent.Worker.Watching`).
-/

namespace AiAgent

namespace Worker

open Command Gateway

/-! ### The system -/

/-- What a client runs. -/
inductive Work where
  /-- An operation of the gateway. -/
  | gateway (o : Op)
  /-- A worker's `claim_dispatch_job` and the `process_job` after it, for a parse job. The answer
  to a chat job comes from outside the store. -/
  | serve (worker : ParserWorker) (workerPool : WorkerPool) (targetId : TargetId)
      (expectedTargetKind : Option Text) (preparation : Preparation) (cleanup : Except Text Bool)

/-- The program of an operation. -/
def Work.body (cfg : Settings) : Work → Gw Outcome
  | .gateway o => o.body cfg
  | .serve worker workerPool targetId expectedTargetKind preparation cleanup => do
    match ← claimDispatchJob cfg worker.workerId workerPool targetId expectedTargetKind with
    | none => return .claimed none
    | some job =>
      if job.jobKind = .parse then
        processParserJob cfg worker job preparation cleanup
        return .claimed (some job)
      else return .claimed (some job)

/-- Time passes, and targets and workers report. -/
def Drifts (s s' : Redis) : Prop :=
  ∃ clockMs targets workers catalog, s.clockMs ≤ clockMs ∧
    s' = { s with clockMs := clockMs, targets := targets, workers := workers, catalog := catalog }

/-- The control plane. Records do not expire. -/
def cluster (cfg : Settings) : System redisSig Redis Work Outcome where
  store := redisStore
  body := Work.body cfg
  outside := Drifts

/-- A world of the control plane. -/
abbrev Plane := World redisSig Redis Work Outcome

/-- Whether a command has to wait is a question of the locks that are held. -/
instance (cfg : Settings) : (c : Cmd) → (s : Redis) → Decidable ((cluster cfg).store.ready c s)
  | .lock l, s => decidable_of_iff (∀ p ∈ s.locks, p.1 ≠ l)
      ⟨fun h _ hmem => h _ hmem rfl, fun h p hp hl => h p.2 (by rw [← hl]; exact hp)⟩
  | .get _, _ | .write _, _ | .lrem _ _, _ | .brpoplpush _ _, _ | .lrange _ _, _ | .llen _, _
  | .zrangebyscore _, _ | .hgetallUsage _, _ | .hgetModel _ _, _ | .unlock _, _ | .time, _
  | .targets, _ | .workers, _ | .catalog, _ => .isTrue trivial

/-! ### A small plane

One job that is running, for the runs that are worked out below. -/

/-- A parse job that was claimed at the start and is running. -/
def smallJob : Job :=
  runningRecord smallSettings
    (newJob smallSettings { smallRequest with jobKind := "parse".toList, stagingId := some "s" } 1
      ⟨"m", 0⟩ .cpu 0) "w" 0

/-- The store with that job, at the given time. -/
def smallPlane (clockMs : ℕ) : Redis :=
  { smallStore with
    jobs := AList.insert 1 smallJob ∅
    active := AList.insert 1 30 ∅
    clockMs := clockMs }

/-- What was prepared for the child of that job. -/
def smallPrepared : PreparedLlmJob where
  jobKind := "file_chat".toList
  modelKey := "m"
  modelName := "m"
  prompt := "hello".toList
  history := []
  threadId := none
  fileChat := none
  workloadClass := []
  stagingId := none

theorem job?_smallPlane {clockMs : ℕ} {j : JobId} {v : Job}
    (h : (smallPlane clockMs).job? j = some v) : j = 1 ∧ v = smallJob := by
  have hset : (smallPlane clockMs).job? j = if j = 1 then some smallJob else none :=
    Redis.job?_set { smallStore with clockMs := clockMs } smallJob j
  rw [hset] at h
  by_cases hj : j = 1
  · rw [if_pos hj] at h
    exact ⟨hj, (Option.some.inj h).symm⟩
  · rw [if_neg hj] at h
    cases h

/-! ### The discipline of an operation -/

/-- What an operation makes of the status of a record. -/
def Work.mode : Work → Mode
  | .gateway (.enqueueJob ..) => .enqueueing
  | .gateway (.enqueueChildJobOnce ..) | .gateway (.getLinkedChildJobId ..) | .serve .. => .parsing
  | .gateway (.markJobCompleted ..) | .gateway (.markJobFailed ..)
  | .gateway (.claimDispatchJob ..) | .gateway (.requeueJobForPending ..) => .blind
  | .gateway (.markJobWaitingOnChild ..) => .keeping
  | _ => .careful

/-- An operation is called as its callers call it: `enqueue_job` with a new id and for a job that
is no child, `mark_job_waiting_on_child` with a child of the root. -/
def Work.Proper (V : Job → Prop) (N : JobId → Prop) : Work → Prop
  | .gateway (.enqueueJob a uuid) =>
    a.jobIdOverride = none ∧ a.rootJobId = none ∧ a.childJobId = none ∧ N uuid
  | .gateway (.markJobWaitingOnChild jobId childJobId _ _ _) =>
    ∀ job, V job → job.id = jobId → V { job with childJobId := some childJobId }
  | _ => True

/-- What the operations on a root's child return. -/
def Work.Returns (V : Job → Prop) : Work → Outcome → Prop
  | .gateway (.enqueueChildJobOnce rootJobId _), .child (.ok (some c, _))
  | .gateway (.getLinkedChildJobId rootJobId), .child (.ok (some c, _)) => IsChildOf V rootJobId c
  | _, _ => True

section Parser

variable {cfg : Settings} {V : Job → Prop} {N : JobId → Prop} {t : View}

/-- A child of a root may be linked to it. -/
theorem link_of_isChildOf (hV : Stable cfg V N) {rootJobId c : JobId}
    (h : IsChildOf V rootJobId c) :
    ∀ job, V job → job.id = rootJobId → V { job with childJobId := some c } := by
  obtain ⟨v, hv, rfl, hlink⟩ := h
  exact hV.linked hv hlink

theorem blind_of_parsing {t' : View} (hmode : t.mode = .parsing) (ht : t.Within t') :
    t'.mode.IsBlind := by
  rw [ht.mode, hmode]
  exact trivial

theorem keeps_enqueueAndWait (hV : Stable cfg V N) (worker : ParserWorker) (jobId : JobId)
    (prepared : PreparedLlmJob) (cleanup : Except Text Bool) (hmode : t.mode = .parsing) :
    Keeps cfg V N t (enqueueAndWait cfg worker jobId prepared cleanup) := by
  refine (keeps_getJob jobId).bind fun latestJob t₁ ht₁ => ?_
  have hblind₁ := blind_of_parsing hmode ht₁
  by_cases hterminal : (latestJob.any fun latestJob => latestJob.status.isTerminal) = true
  · rw [if_pos hterminal]
    exact keeps_pure ()
  rw [if_neg hterminal]
  refine (keeps_isCancelRequested jobId).bind fun requested t₂ ht₂ => ?_
  have hblind₂ := blind_of_parsing hmode (ht₁.trans ht₂)
  cases requested with
  | true => exact keeps_markJobCancelled hV jobId _ hblind₂.not_keeping
  | false =>
    rw [if_neg Bool.false_ne_true]
    refine keeps_bind (obeys_enqueueChildJobOnce hV jobId prepared
      ((ht₁.trans ht₂).mode.trans hmode)) (fun _ _ h => h.1) ?_
    rintro r t₃ ⟨ht₃, hchild⟩
    have hblind₃ := blind_of_parsing hmode ((ht₁.trans ht₂).trans ht₃)
    -- Only with a child are the files deleted and is the root set to wait.
    match r, hchild with
    | .error e, _ =>
      have hfail : ∀ text, Keeps cfg V N t₃ (markJobFailed jobId text (some worker.workerId)) :=
        fun text => keeps_markJobFailed hV jobId text _ hblind₃
      cases e with
      | childEnqueueCancelled =>
        refine (keeps_getJob jobId).bind fun latestJob t₄ ht₄ => ?_
        by_cases hended : (latestJob.any fun latestJob => latestJob.status.isTerminal) = true
        · rw [if_pos hended]
          exact keeps_pure ()
        · rw [if_neg hended]
          exact keeps_markJobCancelled hV jobId _ (by
            rw [ht₄.mode]
            exact hblind₃.not_keeping)
      | _ => exact hfail _
    | .ok (c, created), hchild =>
      cases cleanup with
      | error message => exact keeps_markJobFailed hV jobId _ _ hblind₃
      | ok rawDeleted =>
        refine keeps_markJobWaitingOnChild hV _ _ _ ?_
          (link_of_isChildOf hV (hchild c created rfl))
        intro hcareful
        rw [hcareful] at hblind₃
        exact hblind₃

theorem keeps_parseAndEnqueue (hV : Stable cfg V N) (worker : ParserWorker) {job currentJob : Job}
    (preparation : Preparation) (cleanup : Except Text Bool) (hmode : t.mode = .parsing)
    (hseen : t.seen currentJob.id (some currentJob)) (hvalid : V currentJob) :
    Keeps cfg V N t (parseAndEnqueue cfg worker job currentJob preparation cleanup) := by
  refine keeps_bind (obeys_getLinkedChildJobId hV job.id (by rw [hmode]; exact trivial))
    (fun _ _ h => h.1) ?_
  rintro r t₁ ⟨ht₁, hchild⟩
  have hblind₁ := blind_of_parsing hmode ht₁
  cases r with
  | error e => exact keeps_pure ()
  | ok existingChildJobId =>
    dsimp only
    cases currentJob.stagingId.or job.stagingId with
    | none => exact keeps_markJobFailed hV job.id _ _ hblind₁
    | some stagingId =>
      cases existingChildJobId with
      | some childJobId =>
        cases cleanup with
        | error message => exact keeps_pure ()
        | ok rawDeleted =>
          refine keeps_markJobWaitingOnChild hV _ _ _ ?_
            (link_of_isChildOf hV (hchild childJobId rfl))
          intro hcareful
          rw [hcareful] at hblind₁
          exact hblind₁
      | none =>
        cases preparation with
        | timedOut => exact keeps_markJobFailed hV job.id _ _ hblind₁
        | failed message => exact keeps_markJobFailed hV job.id _ _ hblind₁
        | ready prepared =>
          -- What is stored was made from the record read before the preparation.
          have hsave : t₁.Saves V (preparedRecord currentJob) :=
            saveOf_save (v := currentJob) (ht₁.seen _ _ hseen) (hblind₁.allows _ _) id
              (hV.congr hvalid rfl rfl rfl)
          refine (keeps_saveJob hsave).bind fun _ t₂ ht₂ => ?_
          exact keeps_enqueueAndWait hV worker job.id _ cleanup
            ((ht₁.trans ht₂).mode.trans hmode)

theorem keeps_processParserJob (hV : Stable cfg V N) (worker : ParserWorker) {job : Job}
    (preparation : Preparation) (cleanup : Except Text Bool) (hmode : t.mode = .parsing)
    (hseen : t.seen job.id (some job)) (hvalid : V job) :
    Keeps cfg V N t (processParserJob cfg worker job preparation cleanup) := by
  refine (keeps_isCancelRequested job.id).bind fun requested t₁ ht₁ => ?_
  have hblind₁ := blind_of_parsing hmode ht₁
  cases requested with
  | true => exact keeps_markJobCancelled hV job.id _ hblind₁.not_keeping
  | false =>
    rw [if_neg Bool.false_ne_true]
    by_cases hpool : worker.isParserPool = false
    · rw [if_pos hpool]
      exact keeps_markJobFailed hV job.id _ _ hblind₁
    rw [if_neg hpool]
    by_cases hstage : worker.enableParserStage = false
    · rw [if_pos hstage]
      exact keeps_markJobFailed hV job.id _ _ hblind₁
    rw [if_neg hstage]
    refine keeps_getJob_bind (fun t₂ ht₂ => ?_) fun t₂ currentJob ht₂ _ hseen₂ hvalid₂ => ?_
    · exact keeps_parseAndEnqueue hV worker preparation cleanup
        ((ht₁.trans ht₂).mode.trans hmode) ((ht₁.trans ht₂).seen _ _ hseen) hvalid
    · exact keeps_parseAndEnqueue hV worker preparation cleanup
        ((ht₁.trans ht₂).mode.trans hmode) hseen₂ hvalid₂

/-- **Every operation keeps the discipline.** -/
theorem obeys_body (hV : Stable cfg V N) (op : Work) (hop : op.Proper V N) :
    (op.body cfg).Obeys (watch cfg V N) (fun a _ => op.Returns V a) (View.start op.mode) := by
  cases op with
  | serve worker workerPool targetId expectedTargetKind preparation cleanup =>
    refine Program.Obeys.bind (obeys_claimDispatchJob hV worker.workerId workerPool targetId
      expectedTargetKind trivial) ?_
    rintro claimed t₁ ⟨ht₁, hclaimed⟩
    cases claimed with
    | none => exact trivial
    | some job =>
      obtain ⟨hseen, hvalid⟩ := hclaimed job rfl
      dsimp only
      by_cases hkind : job.jobKind = .parse
      · rw [if_pos hkind]
        exact Program.Obeys.bind (keeps_processParserJob hV worker preparation cleanup ht₁.mode
          hseen hvalid) fun _ _ _ => trivial
      · rw [if_neg hkind]
        exact trivial
  | gateway o =>
    cases o with
    | enqueueJob a uuid =>
      obtain ⟨hoverride, hroot, hchild, huuid⟩ := hop
      exact Program.Obeys.bind (keeps_enqueueJob hV rfl hoverride hroot hchild huuid)
        fun _ _ _ => trivial
    | enqueueChildJobOnce rootJobId prepared =>
      refine Program.Obeys.bind (obeys_enqueueChildJobOnce hV rootJobId prepared rfl) ?_
      rintro r t₁ ⟨-, hchild⟩
      match r, hchild with
      | .error e, _ => exact trivial
      | .ok (c, created), hchild => exact hchild c created rfl
    | getLinkedChildJobId rootJobId =>
      refine Program.Obeys.bind (obeys_getLinkedChildJobId hV rootJobId trivial) ?_
      rintro r t₁ ⟨-, hchild⟩
      match r, hchild with
      | .error e, _ => exact trivial
      | .ok none, _ => exact trivial
      | .ok (some c), hchild => exact hchild c rfl
    | tryAdmitJob jobId queue target =>
      exact Program.Obeys.bind (keeps_tryAdmitJob hV jobId queue target nofun)
        fun _ _ _ => trivial
    | claimDispatchJob workerId workerPool targetId expectedTargetKind =>
      exact Program.Obeys.bind (obeys_claimDispatchJob hV workerId workerPool targetId
        expectedTargetKind trivial) fun _ _ _ => trivial
    | renewJobLease jobId =>
      exact Program.Obeys.bind (keeps_renewJobLease hV jobId nofun) fun _ _ _ => trivial
    | cancelJob jobId username =>
      exact Program.Obeys.bind (keeps_cancelJob hV _ jobId username nofun) fun _ _ _ => trivial
    | markJobCompleted jobId responseText workerId =>
      exact Program.Obeys.bind (keeps_markJobCompleted hV jobId responseText workerId trivial)
        fun _ _ _ => trivial
    | markJobFailed jobId errorText workerId =>
      exact Program.Obeys.bind (keeps_markJobFailed hV jobId errorText workerId trivial)
        fun _ _ _ => trivial
    | markJobCancelled jobId workerId =>
      exact Program.Obeys.bind (keeps_markJobCancelled hV jobId workerId nofun)
        fun _ _ _ => trivial
    | markJobWaitingOnChild jobId childJobId stage updates workerId =>
      exact Program.Obeys.bind (keeps_markJobWaitingOnChild hV stage updates workerId nofun hop)
        fun _ _ _ => trivial
    | requeueJobForPending jobId reason =>
      refine Program.Obeys.bind (obeys_getJob jobId) ?_
      rintro found t₁ ⟨rfl, htold⟩
      cases found with
      | none => exact trivial
      | some job =>
        obtain ⟨rfl, hvalid⟩ := htold
        exact Program.Obeys.bind (keeps_requeueJobForPending hV reason (View.seen_look _ _ _)
          trivial hvalid) fun _ _ _ => trivial
    | requeueStaleJobs =>
      exact Program.Obeys.bind (keeps_requeueStaleJobs hV nofun) fun _ _ _ => trivial

end Parser

/-! ### Views and the history -/

/-- The commands that store a job record, and the one that finds one. -/
def jobRecords : Records redisSig Redis JobId Job where
  key := fun job => job.id
  current := Redis.job?
  saved
    | .write ws => stored ws
    | _ => none
  found
    | .get jobId, found => some (jobId, found)
    | _, _ => none

section Writes

variable {cfg : Settings} {V : Job → Prop} {t : View} {s : Redis}

theorem job?_writes_of_not_stored {ws : List Write} (h : stored ws = none) (k : JobId) :
    (s.writes ws).job? k = s.job? k := by
  induction ws generalizing s with
  | nil => rfl
  | cons w ws ih =>
    rw [Redis.writes_cons]
    cases w with
    | set job => cases h
    | _ => exact ih h

/-- A permitted transaction stores one record at most, and stores it first. -/
theorem View.May.stored_cases {ws : List Write} (h : t.May cfg V ws) :
    stored ws = none ∨ ∃ job rest, ws = .set job :: rest ∧ stored rest = none := by
  cases h with
  | neutral hstored _ => exact .inl hstored
  | save _ => exact .inr ⟨_, [], rfl, rfl⟩
  | close _ _ => exact .inl rfl
  | create _ _ _ _ => exact .inr ⟨_, _, rfl, rfl⟩

theorem moves_write {ws : List Write} (h : t.May cfg V ws) (r : Unit) :
    jobRecords.Moves s (s.writes ws) (.command (.write ws) r : Act redisSig Outcome) := by
  rcases View.May.stored_cases h with hstored | ⟨job, rest, rfl, hrest⟩
  · refine ⟨?_, ?_⟩
    · have hsaved : jobRecords.savedBy (.command (.write ws) r : Act redisSig Outcome) = none :=
        hstored
      rw [hsaved]
      exact funext fun k => job?_writes_of_not_stored hstored k
    · intro j o hlook
      simp only [Records.lookOf, jobRecords, hstored] at hlook
      cases hlook
  · have hcurrent : Redis.job? (s.writes (.set job :: rest)) =
        Function.update (Redis.job? s) job.id (some job) := by
      funext k
      rw [Redis.writes_cons, job?_writes_of_not_stored hrest, Function.update_apply]
      exact Redis.job?_set s job k
    refine ⟨hcurrent, ?_⟩
    intro j o hlook
    cases hlook
    exact (congrFun hcurrent job.id).trans (Function.update_self ..)

/-- Only a transaction changes records. -/
theorem moves_command {c : Cmd} (h : ∀ ws, c = .write ws → t.May cfg V ws) (i : ℕ) :
    jobRecords.Moves s (redisStore.exec i c s).2
      (.command c (redisStore.exec i c s).1 : Act redisSig Outcome) := by
  cases c with
  | write ws => exact moves_write (h ws rfl) ()
  | get jobId =>
    refine ⟨rfl, ?_⟩
    intro j o hlook
    cases hlook
    rfl
  | brpoplpush source destination =>
    refine ⟨?_, fun j o hlook => by cases hlook⟩
    have hjobs : (s.brpoplpush source destination).2.jobs = s.jobs := by
      unfold Redis.brpoplpush
      cases (s.queues source).getLast? <;> rfl
    exact funext fun k => Redis.job?_congr hjobs k
  | _ => exact ⟨rfl, fun j o hlook => by cases hlook⟩

/-- What a record's key is asked of the record that is read. -/
theorem told_exec {N : JobId → Prop} (hkeyed : ∀ j v, s.job? j = some v → v.id = j)
    (hvalid : ∀ j v, s.job? j = some v → V v) (hnone : ∀ j, s.job? j = none → N j) (i : ℕ)
    (c : Cmd) : Told V N c (redisStore.exec i c s).1 := by
  cases c with
  | get jobId =>
    show Told V N (.get jobId) (s.job? jobId)
    cases hfound : s.job? jobId with
    | none => exact hnone jobId hfound
    | some job => exact ⟨hkeyed jobId job hfound, hvalid jobId job hfound⟩
  | _ => exact trivial

end Writes

/-- The views of the running operations fit the history, and every record there ever was has its
links as they should be. -/
structure Watching (V : Job → Prop) (N : JobId → Prop) (s₀ : Redis) (w : Plane) (g : ℕ → View) :
    Prop where
  /-- Every record has a history. -/
  traced : Traced jobRecords s₀ w
  /-- Every record there ever was is as it should be. -/
  valid : ∀ v, jobRecords.Was s₀ w.log v → V v
  /-- What has no record is new. -/
  missing : ∀ j, w.shared.job? j = none → N j
  /-- A running operation has seen what its view says. -/
  looked : ∀ i task, w.tasks i = some task → ∀ j o, (g i).seen j o →
    jobRecords.Looked i j o w.log
  /-- A running operation has the mode of its kind. -/
  mode : ∀ i task, w.tasks i = some task → (g i).mode = task.op.mode

namespace Watching

variable {cfg : Settings} {V : Job → Prop} {N : JobId → Prop} {s₀ : Redis} {w : Plane}
  {g : ℕ → View} {i : ℕ} {op : Work}

theorem fresh (hkeyed : ∀ j v, s₀.job? j = some v → v.id = j)
    (hvalid : ∀ j v, s₀.job? j = some v → V v) (hmissing : ∀ j, s₀.job? j = none → N j)
    (g : ℕ → View) : Watching V N s₀ (.fresh s₀) g where
  traced := Traced.fresh hkeyed
  valid := by
    rintro v (hv | ⟨e, he, -⟩)
    · exact hvalid _ v hv
    · cases he
  missing := hmissing
  looked := fun i task hi => by cases hi
  mode := fun i task hi => by cases hi

/-- What client `i` does tells the other clients nothing. -/
theorem looked_of_ne (h : Watching V N s₀ w g) {a : Act redisSig Outcome} {s : Redis}
    {task : Option (Task redisSig Work Outcome)} {t : View} {j : ℕ} (hj : j ≠ i)
    {task' : Task redisSig Work Outcome}
    (htask : (w.record i op a s task).tasks j = some task') :
    (∀ k o, (Function.update g i t j).seen k o →
      jobRecords.Looked j k o (⟨i, op, a⟩ :: w.log)) ∧
    (Function.update g i t j).mode = task'.op.mode := by
  rw [World.record_tasks, Function.update_of_ne hj] at htask
  rw [Function.update_of_ne hj]
  refine ⟨?_, h.mode j task' htask⟩
  intro k o hseen
  unfold Records.Looked
  rw [if_neg (Ne.symm hj)]
  exact h.looked j task' htask k o hseen

/-- A step that leaves the records alone. -/
theorem record_still (h : Watching V N s₀ w g) {a : Act redisSig Outcome} {s : Redis}
    {task : Option (Task redisSig Work Outcome)} {t : View}
    (hsaved : jobRecords.savedBy a = none) (hlook : jobRecords.lookOf a = none)
    (hs : s.jobs = w.shared.jobs)
    (hself : ∀ task', task = some task' → (∀ k o, ¬ t.seen k o) ∧ t.mode = task'.op.mode) :
    Watching V N s₀ (w.record i op a s task) (Function.update g i t) := by
  have hcurrent : Redis.job? s = Redis.job? w.shared :=
    funext fun k => Redis.job?_congr hs k
  have hmoves : jobRecords.Moves w.shared s a := by
    refine ⟨?_, fun j o ho => ?_⟩
    · rw [hsaved]
      exact hcurrent
    · rw [hlook] at ho
      cases ho
  refine ⟨h.traced.record hmoves, ?_, ?_, ?_, ?_⟩
  · intro v hv
    rcases Records.was_cons.mp hv with hv | hv
    · exact h.valid v hv
    · rw [hsaved] at hv
      cases hv
  · intro j hj
    exact h.missing j ((congrFun hcurrent j).symm.trans hj)
  · intro j task' htask k o hseen
    rcases eq_or_ne j i with rfl | hj
    · rw [World.record_tasks, Function.update_self] at htask
      rw [Function.update_self] at hseen
      exact absurd hseen ((hself task' htask).1 k o)
    · exact (h.looked_of_ne hj htask).1 k o hseen
  · intro j task' htask
    rcases eq_or_ne j i with rfl | hj
    · rw [World.record_tasks, Function.update_self] at htask
      rw [Function.update_self]
      exact (hself task' htask).2
    · exact (h.looked_of_ne hj htask).2

theorem start (h : Watching V N s₀ w g) (p : Gw Outcome) :
    Watching V N s₀ (w.record i op .start w.shared (some ⟨op, p⟩))
      (Function.update g i (View.start op.mode)) := by
  refine h.record_still rfl rfl rfl ?_
  rintro task' htask
  cases htask
  exact ⟨fun _ _ h => h, rfl⟩

theorem finish (h : Watching V N s₀ w g) (a : Outcome) :
    Watching V N s₀ (w.record i op (.finish a) w.shared none) g := by
  have hrecord : Watching V N s₀ (w.record i op (.finish a) w.shared none)
      (Function.update g i (g i)) :=
    h.record_still rfl rfl rfl (fun task' htask => by cases htask)
  rwa [Function.update_eq_self] at hrecord

theorem crash (h : Watching V N s₀ w g) :
    Watching V N s₀ (w.record i op .crash (redisStore.drop i w.shared) none) g := by
  have hrecord : Watching V N s₀ (w.record i op .crash (redisStore.drop i w.shared) none)
      (Function.update g i (g i)) :=
    h.record_still rfl rfl rfl (fun task' htask => by cases htask)
  rwa [Function.update_eq_self] at hrecord

theorem outside (h : Watching V N s₀ w g) {s : Redis} (hs : s.jobs = w.shared.jobs) :
    Watching V N s₀ { w with shared := s } g := by
  have hcurrent : Redis.job? s = Redis.job? w.shared :=
    funext fun k => Redis.job?_congr hs k
  refine ⟨h.traced.outside hcurrent, h.valid, ?_, h.looked, h.mode⟩
  intro j hj
  exact h.missing j ((congrFun hcurrent j).symm.trans hj)

theorem told (h : Watching V N s₀ w g) (i : ℕ) (c : Cmd) :
    Told V N c (redisStore.exec i c w.shared).1 :=
  told_exec h.traced.keyed (fun j v hv => h.valid v (h.traced.was j v hv)) h.missing i c

/-- A running operation knows only records there were. -/
theorem was_of_seen (h : Watching V N s₀ w g) {task : Task redisSig Work Outcome}
    (htask : w.tasks i = some task) {j : JobId} {v : Job} (hseen : (g i).seen j (some v)) :
    v.id = j ∧ jobRecords.Was s₀ w.log v :=
  h.traced.was_of_looked (h.looked i task htask j (some v) hseen)

/-- A running operation that has seen a record without a mark has found it without the mark. -/
theorem sighted_of_seen (h : Watching V N s₀ w g) {task : Task redisSig Work Outcome}
    (htask : w.tasks i = some task) {j : JobId} {o : Option Job} (hseen : (g i).seen j o)
    {q : Job → Bool} (hq : o.any q = false) : jobRecords.sighted q i j w.log = true :=
  Records.sighted_of_looked (h.looked i task htask j o hseen) hq

/-- The record a permitted transaction stores has its links as they should be. -/
theorem valid_of_may {t : View} {c : Cmd} (hmay : (watch cfg V N).may t c) {v : Job}
    (hsaved : jobRecords.saved c = some v) : V v := by
  cases c with
  | write ws =>
    have hws : stored ws = some v := hsaved
    cases hmay with
    | neutral hstored _ =>
      rw [hstored] at hws
      cases hws
    | save h =>
      cases hws
      exact h.valid
    | close _ _ => cases hws
    | create _ _ hvalid _ =>
      cases hws
      exact hvalid
  | _ => cases hsaved

/-- The view after a command has seen what was seen before, and what the command tells. -/
theorem seen_next {t : View} {c : Cmd} {r : c.Reply} {k : JobId} {o : Option Job}
    (h : (t.next c r).seen k o) : t.seen k o ∨
      jobRecords.lookOf (.command c r : Act redisSig Outcome) = some (k, o) := by
  cases c with
  | get jobId =>
    rcases h with h | ⟨rfl, rfl⟩
    · exact .inl h
    · exact .inr rfl
  | write ws =>
    simp only [View.next, View.wrote] at h
    simp only [Records.lookOf, jobRecords]
    cases hstored : stored ws with
    | none =>
      rw [hstored] at h
      by_cases hcloses : ws.findSome? Write.closes? = none
      · simp only [hcloses, if_true] at h
        exact .inl h
      · simp only [hcloses, if_false] at h
        exact .inl h
    | some job =>
      rw [hstored] at h
      rcases h with h | ⟨rfl, rfl⟩
      · exact .inl h
      · exact .inr rfl
  | lock l => cases l <;> exact .inl h
  | unlock l => cases l <;> exact .inl h
  | _ => exact .inl h

theorem mode_next (t : View) (c : Cmd) (r : c.Reply) : (t.next c r).mode = t.mode :=
  (t.within_next c r).mode

theorem command (h : Watching V N s₀ w g) {c : Cmd} {k : c.Reply → Gw Outcome}
    (hi : w.tasks i = some ⟨op, .ask c k⟩) (hmay : (watch cfg V N).may (g i) c) :
    Watching V N s₀
      (w.record i op (.command c (redisStore.exec i c w.shared).1)
        (redisStore.exec i c w.shared).2 (some ⟨op, k (redisStore.exec i c w.shared).1⟩))
      (Function.update g i ((g i).next c (redisStore.exec i c w.shared).1)) := by
  have hmoves : jobRecords.Moves w.shared (redisStore.exec i c w.shared).2
      (.command c (redisStore.exec i c w.shared).1 : Act redisSig Outcome) :=
    moves_command (fun ws hws => by subst hws; exact hmay) i
  have htraced : Traced jobRecords s₀ (w.record i op
      (.command c (redisStore.exec i c w.shared).1) (redisStore.exec i c w.shared).2
      (some ⟨op, k (redisStore.exec i c w.shared).1⟩)) := h.traced.record hmoves
  refine ⟨htraced, ?_, ?_, ?_, ?_⟩
  · intro v hv
    rcases Records.was_cons.mp hv with hv | hv
    · exact h.valid v hv
    · exact valid_of_may hmay hv
  · intro j hj
    -- What is missing now was missing before, for no record goes away.
    refine h.missing j ?_
    cases hjob : w.shared.job? j with
    | none => rfl
    | some v =>
      have hkey := h.traced.keyed j v hjob
      exact absurd (hkey ▸ hj)
        (htraced.kept v (Records.was_cons.mpr (.inl (h.traced.was j v hjob))))
  · intro j task' htask k' o hseen
    rcases eq_or_ne j i with rfl | hj
    · rw [Function.update_self] at hseen
      rw [World.record_log]
      unfold Records.Looked
      rw [if_pos rfl]
      rcases seen_next hseen with hseen | hlook
      · exact .inr ⟨rfl, h.looked j _ hi k' o hseen⟩
      · exact .inl hlook
    · exact (h.looked_of_ne hj htask).1 k' o hseen
  · intro j task' htask
    rcases eq_or_ne j i with rfl | hj
    · rw [World.record_tasks, Function.update_self] at htask
      cases htask
      rw [Function.update_self, mode_next]
      exact h.mode j ⟨op, .ask c k⟩ hi
    · exact (h.looked_of_ne hj htask).2

end Watching

end Worker

end AiAgent

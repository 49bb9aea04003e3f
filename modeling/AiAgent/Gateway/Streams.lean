import AiAgent.Gateway.Change

/-!
# What a whole step writes to the event streams

A step writes to the streams in one of two ways. It tells something of jobs that go on, to their
own streams and to those of their roots (`AiAgent.Gateway.Redis.Told`), or it ends one job, and
with it the root that has not ended yet; then both streams are closed by one event each, and no
other stream is written to (`AiAgent.Gateway.Redis.Closed`).
-/

namespace AiAgent

namespace Gateway

open Command

variable {cfg : Settings} {s s' s₁ : Redis} {j k : JobId} {job old new : Job} {event : Event}

/-! ### The operations of the store -/

section Events

variable (s : Redis) (job : Job) (j k : JobId)

theorem Redis.events_xadd (event : Event) :
    (s.xadd j event).events k = if k = j then s.events k ++ [event] else s.events k := by
  by_cases h : k = j
  · subst h
    simp [Redis.xadd]
  · simp [Redis.xadd, h]

@[simp] theorem Redis.events_set : (s.set job).events = s.events := rfl

@[simp] theorem Redis.events_zrem : (s.zrem j).events = s.events := rfl

@[simp] theorem Redis.events_zadd (score : ℕ) : (s.zadd j score).events = s.events := rfl

@[simp] theorem Redis.events_rpush (queue : Queue) : (s.rpush queue j).events = s.events := rfl

@[simp] theorem Redis.events_lrem (queue : Queue) : (s.lrem queue j).events = s.events := rfl

@[simp] theorem Redis.events_release : (s.release job).events = s.events := by
  unfold Redis.release
  split <;> rfl

@[simp] theorem Redis.events_leave (workerId : Option WorkerId) :
    (s.leave workerId j).events = s.events := by
  unfold Redis.leave
  split <;> rfl

@[simp] theorem Redis.events_withdraw (home : Option Queue) :
    (s.withdraw home j).events = s.events := by
  unfold Redis.withdraw
  split <;> rfl

/-- What `emit_event` writes: the event, and to the stream of the root the mirrored one. -/
theorem Redis.events_emit (event : Event) (hevent : event.isDone = false) :
    ∃ told, (s.emit j event).events k = s.events k ++ told ∧
      (∀ e ∈ told, e.isDone = false) ∧ (told = [] ∨ k = j ∨ s.distinctRoot j = some k) := by
  unfold Redis.emit
  rw [if_neg (by rw [hevent]; exact Bool.false_ne_true)]
  rcases hroot : s.distinctRoot j with _ | root
  · dsimp only
    rw [Redis.events_xadd]
    split
    · next hself => exact ⟨[event], rfl, by simp [hevent], .inr (.inl hself)⟩
    · exact ⟨[], (List.append_nil _).symm, by simp, .inl rfl⟩
  · dsimp only
    rw [Redis.events_xadd, Redis.events_xadd]
    by_cases hself : k = j <;> by_cases hmirror : k = root
    · rw [if_pos hmirror, if_pos hself, List.append_assoc]
      exact ⟨_, rfl, by simp [hevent], .inr (.inl hself)⟩
    · rw [if_neg hmirror, if_pos hself]
      exact ⟨_, rfl, by simp [hevent], .inr (.inl hself)⟩
    · rw [if_pos hmirror, if_neg hself]
      exact ⟨_, rfl, by simp [hevent], .inr (.inr (by rw [hmirror]))⟩
    · rw [if_neg hmirror, if_neg hself]
      exact ⟨[], (List.append_nil _).symm, by simp, .inl rfl⟩

/-- What the end of a job writes: the event, and to the stream of the root that ends with it the
mirrored one. -/
theorem Redis.events_finish (status : Status) (stage : LifecycleStage) (body : EventBody)
    (workerId : Option WorkerId) :
    (s.finish job status stage body workerId).events k =
      (if k = job.id then s.events k ++ [Event.bare body] else s.events k) ++
        match s.endedRoot job with
        | none => []
        | some _ => if k = job.rootJobId.getD 0 then
            [buildRootMirroredEvent (job.rootJobId.getD 0) job.id (Event.bare body)] else [] := by
  have hroot : ((s.set job).xadd job.id (Event.bare body)).endedRoot job = s.endedRoot job :=
    s.endedRoot_set job
  simp only [Redis.finish, Redis.events_zrem, Redis.events_leave, Redis.events_release,
    Redis.synthesize, hroot]
  rcases s.endedRoot job with _ | rootJob
  · dsimp only
    rw [Redis.events_xadd, List.append_nil]
    rfl
  · dsimp only
    rw [Redis.events_xadd, Redis.events_set, Redis.events_xadd]
    split <;> simp

end Events

/-! ### What is told of jobs that go on -/

/-- Something may be written to the stream: of a job that has not ended, of a root with a child
that has not ended, or of a job that is there after the step only. -/
def Redis.Speaks (s s' : Redis) (k : JobId) : Prop :=
  (∃ job, s.job? k = some job ∧ job.status.isTerminal = false) ∨
    (∃ j child, s.job? j = some child ∧ child.status.isTerminal = false ∧
      child.rootJobId = some k) ∨ s.job? k = none ∧ s'.job? k ≠ none

/-- Every stream is continued by events that end nothing, if at all. -/
def Redis.Told (s s' : Redis) : Prop :=
  ∀ k, ∃ told, s'.events k = s.events k ++ told ∧ (∀ e ∈ told, e.isDone = false) ∧
    (told = [] ∨ s.Speaks s' k)

theorem told_of_eq (h : s'.events = s.events) : s.Told s' := fun k =>
  ⟨[], by rw [h, List.append_nil], by simp, .inl rfl⟩

/-- `emit_event` for a job that has not ended. -/
theorem told_emit (hevents : s₁.events = s.events) (hnew : s₁.job? j = some new)
    (hspec : new.toJobSpec = old.toJobSpec) (hold : s.job? j = some old)
    (hlive : old.status.isTerminal = false) (hevent : event.isDone = false) :
    s.Told (s₁.emit j event) := by
  intro k
  obtain ⟨told, hafter, hdone, hwhere⟩ := s₁.events_emit j k event hevent
  refine ⟨told, by rw [hafter, hevents], hdone, ?_⟩
  rcases hwhere with hnone | rfl | hroot
  · exact .inl hnone
  · exact .inr (.inl ⟨old, hold, hlive⟩)
  · refine .inr (.inr (.inl ⟨j, old, hold, hlive, ?_⟩))
    rw [Redis.distinctRoot, hnew] at hroot
    rw [← congrArg JobSpec.rootJobId hspec]
    exact (Option.filter_eq_some_iff.mp hroot).1

/-- The stream of a new job. -/
theorem told_push (hnone : s.job? new.id = none) : s.Told (s.push new) := by
  intro k
  have hevents : (s.push new).events k =
      if k = new.id then s.events k ++ [Event.of new.id .queued] else s.events k := by
    unfold Redis.push
    rw [Redis.events_xadd]
    rfl
  rw [hevents]
  split
  · next hself =>
    refine ⟨_, rfl, by simp [Event.isDone, Event.of], ?_⟩
    refine .inr (.inr (.inr ⟨hself ▸ hnone, ?_⟩))
    rw [Redis.job?_push, if_pos hself]
    exact Option.some_ne_none new
  · exact ⟨[], (List.append_nil _).symm, by simp, .inl rfl⟩

/-- The records of other jobs are saved as well. -/
theorem told_set (h : s.Told s₁) (new : Job) : s.Told (s₁.set new) := by
  intro k
  obtain ⟨told, hafter, hdone, hwhere⟩ := h k
  refine ⟨told, hafter, hdone, hwhere.imp id (Or.imp id (Or.imp id fun hnew => ⟨hnew.1, ?_⟩))⟩
  rw [Redis.job?_set]
  split
  · exact Option.some_ne_none new
  · exact hnew.2

/-- A status is written for a job that waits, and not its end. -/
def Going (d : Deed) (job : Job) : Prop :=
  d.isFinish = false ∧ (job.status = .queued ∨ job.status = .admitted)

/-- No record is lost. -/
def Redis.Lasts (s s' : Redis) : Prop :=
  ∀ k, s.job? k ≠ none → s'.job? k ≠ none

theorem lasts_of_eq (h : s'.jobs = s.jobs) : s.Lasts s' := fun k hk => by
  rwa [Redis.job?_congr h]

theorem lasts_insert (h : s'.jobs = s.jobs.insert j new) : s.Lasts s' := by
  intro k hk
  rw [Redis.job?, h]
  rcases eq_or_ne k j with rfl | hne
  · rw [AList.lookup_insert]
    exact Option.some_ne_none new
  · rwa [AList.lookup_insert_ne hne]

theorem lasts_push (new : Job) : s.Lasts (s.push new) := by
  intro k hk
  rw [Redis.job?_push]
  split
  · exact Option.some_ne_none new
  · exact hk

theorem lasts_set (h : s.Lasts s₁) (new : Job) : s.Lasts (s₁.set new) := by
  intro k hk
  rw [Redis.job?_set]
  split
  · exact Option.some_ne_none new
  · exact h k hk

/-- **A step that ends nothing.** -/
structure Redis.Goes (cfg : Settings) (B : JobId → Job → Prop) (s s' : Redis) : Prop where
  /-- The records. -/
  changed : s.Changed cfg Going B s'
  /-- None of them is lost. -/
  lasts : s.Lasts s'
  /-- The streams. -/
  told : s.Told s'

/-- **A step that ends one job**, and with it its root. -/
inductive Redis.Closed (s : Redis) : Redis → Prop
  /-- The record was `old` and not ended, and the step finishes it. -/
  | finish (s₁ : Redis) (k : JobId) (old new : Job) (stage : LifecycleStage) (body : EventBody)
      (workerId : Option WorkerId) (hjobs : s₁.jobs = s.jobs) (hevents : s₁.events = s.events)
      (hold : s.job? k = some old) (hlive : old.status.isTerminal = false) (hend : EndOf old new)
      (hdone : (Event.bare body).isDone = true) :
      Closed s (s₁.finish new new.status stage body workerId)

variable {B : JobId → Job → Prop}

/-! ### The operations -/

theorem Redis.Goes.of_eq (hkeyed : ∀ k job, s.job? k = some job → job.id = k)
    (hjobs : s'.jobs = s.jobs) (hevents : s'.events = s.events) : s.Goes cfg B s' :=
  ⟨.of_eq hkeyed hjobs, lasts_of_eq hjobs, told_of_eq hevents⟩

/-- One record is saved. -/
theorem Redis.Goes.save (new : Job) (hkeyed : ∀ k job, s.job? k = some job → job.id = k)
    (hold : s.job? k = some old) (hchange : Change cfg Going old new)
    (hjobs : s'.jobs = s.jobs.insert k new) (hevents : s'.events = s.events) : s.Goes cfg B s' :=
  ⟨.save new hkeyed hold hchange hjobs, lasts_insert hjobs, told_of_eq hevents⟩

/-- One record of a job that has not ended is saved, and its stream told. -/
theorem Redis.Goes.save_emit (new : Job) (hkeyed : ∀ k job, s.job? k = some job → job.id = k)
    (hold : s.job? k = some old) (hlive : old.status.isTerminal = false)
    (hchange : Change cfg Going old new) (hjobs : s₁.jobs = s.jobs.insert k new)
    (hevents : s₁.events = s.events) (hevent : event.isDone = false) :
    s.Goes cfg B (s₁.emit k event) := by
  have hnew : s₁.job? k = some new := by
    rw [Redis.job?, hjobs]
    exact AList.lookup_insert _
  have hjobs' : (s₁.emit k event).jobs = s.jobs.insert k new := by rw [Redis.jobs_emit, hjobs]
  exact ⟨.save new hkeyed hold hchange hjobs', lasts_insert hjobs',
    told_emit hevents hnew hchange.spec hold hlive hevent⟩

/-- An admission, of the record as it was read or with its target kind downgraded. -/
theorem goes_evaluate (hkeyed : ∀ k job, s.job? k = some job → job.id = k)
    (hold : s.job? k = some old) (hqueued : old.status = .queued) {targetKind : TargetKind}
    (hjobs : s₁.jobs = s.jobs ∨ s₁.jobs = s.jobs.insert k { old with targetKind := targetKind })
    (hevents : s₁.events = s.events) (queue : Queue) (target : Target) :
    s.Goes cfg B (s₁.evaluate cfg { old with targetKind := targetKind } queue target) := by
  have hid := hkeyed k old hold
  -- Where nothing is admitted, the target kind is all that may have changed.
  have hsaved : ∀ s', s'.jobs = s₁.jobs → s'.events = s.events → s.Goes cfg B s' := by
    intro s' hsame hevents'
    rcases hjobs with hjobs | hjobs
    · exact .of_eq hkeyed (hsame.trans hjobs) hevents'
    · exact .save { old with targetKind := targetKind } hkeyed hold
        (.kept ⟨rfl, rfl, rfl, rfl, rfl, id, id⟩) (hsame.trans hjobs) hevents'
  unfold Redis.evaluate
  rcases s₁.admission cfg { old with targetKind := targetKind } target with _ | admission
  · exact hsaved s₁ rfl hevents
  · dsimp only
    split
    · unfold Redis.admitted
      dsimp only
      rw [hid]
      refine .save_emit (admittedRecord cfg { old with targetKind := targetKind } target.targetId
        admission (s₁.lrem queue k).clockMs) hkeyed hold (by rw [hqueued]; rfl)
        (.deed .admission ⟨rfl, .inl hqueued⟩ ⟨rfl, rfl⟩ rfl id id) ?_ ?_ rfl
      · have hset : (s₁.jobs.insert old.id (admittedRecord cfg { old with targetKind := targetKind }
            target.targetId admission (s₁.lrem queue k).clockMs)) =
            s.jobs.insert k (admittedRecord cfg { old with targetKind := targetKind }
              target.targetId admission (s₁.lrem queue k).clockMs) := by
          rw [hid]
          rcases hjobs with hjobs | hjobs
          · rw [hjobs]
          · rw [hjobs, AList.insert_insert]
        exact hset
      · exact hevents
    · exact hsaved _ rfl hevents

theorem goes_tryAdmit (hkeyed : ∀ k job, s.job? k = some job → job.id = k) (queue : Queue)
    (target : Target) : s.Goes cfg B (s.tryAdmit cfg k queue target) := by
  unfold Redis.tryAdmit
  cases hfound : (s.job? k).filter fun job => job.status = .queued with
  | none => exact .of_eq hkeyed rfl rfl
  | some original =>
    obtain ⟨hjob, hqueued⟩ := Option.filter_eq_some_iff.mp hfound
    have hqueued : original.status = .queued := by simpa using hqueued
    obtain ⟨targetKind, hkind⟩ := s.downgraded_eq original
    dsimp only
    rw [hkind]
    split
    · refine goes_evaluate hkeyed hjob hqueued (.inr ?_)
        (s.events_set { original with targetKind := targetKind }) queue target
      rw [← hkeyed k original hjob]
      rfl
    · exact goes_evaluate hkeyed hjob hqueued (.inl rfl) rfl queue target

/-- A claim that is refused, of a job that is admitted. -/
theorem goes_requeue (hkeyed : ∀ k job, s.job? k = some job → job.id = k)
    (hjobs : s₁.jobs = s.jobs) (hevents : s₁.events = s.events) (hold : s.job? k = some old)
    (hadmitted : old.status = .admitted) (reason : String) :
    s.Goes cfg B (s₁.requeue old reason) := by
  obtain ⟨targetKind, hkind⟩ := s₁.downgraded_eq old
  have hid := hkeyed k old hold
  unfold Redis.requeue
  rw [hkind]
  dsimp only
  rw [hid]
  refine .save_emit (requeuedRecord { old with targetKind := targetKind } s₁.clockMs) hkeyed hold
    (by rw [hadmitted]; rfl) (.deed .requeue ⟨rfl, .inr hadmitted⟩ ⟨rfl, rfl⟩ rfl id id)
    ?_ ?_ rfl
  · rw [Redis.jobs_rpush, Redis.jobs_set, hjobs]
    exact congrArg (fun i => s.jobs.insert i _) hid
  · rw [Redis.events_rpush, Redis.events_set, hevents]

/-- The end of a job that has not ended. -/
theorem closed_failFrom (hjobs : s₁.jobs = s.jobs) (hevents : s₁.events = s.events)
    (hold : s.job? k = some old) (hlive : old.status.isTerminal = false) (errorText : Text)
    (workerId : Option WorkerId) : s.Closed (s₁.failFrom old errorText workerId) :=
  .finish s₁ k old (failedRecord old errorText s₁.clockMs) .childFailed (.failed errorText) workerId
    hjobs hevents hold hlive (endOf_failedRecord old old.retryCount errorText s₁.clockMs) rfl

theorem closed_cancel (hjobs : s₁.jobs = s.jobs) (hevents : s₁.events = s.events)
    (hold : s.job? k = some old) (hlive : old.status.isTerminal = false)
    (workerId : Option WorkerId) : s.Closed (s₁.cancel k workerId) := by
  have hold₁ : s₁.job? k = some old := (Redis.job?_congr hjobs k).trans hold
  rw [Redis.cancel, hold₁, Option.filter_some_pos (by simpa using hlive)]
  exact .finish s₁ k old (cancelledRecord old s₁.clockMs) .childCancelled .cancelled workerId hjobs
    hevents hold hlive (endOf_cancelledRecord old s₁.clockMs) rfl

/-- A claim of a job that is admitted. -/
theorem goes_or_closed_claim (s₁ : Redis) (hkeyed : ∀ k job, s.job? k = some job → job.id = k)
    (hjobs : s₁.jobs = s.jobs) (hevents : s₁.events = s.events) (hold : s.job? k = some old)
    (hadmitted : old.status = .admitted) (workerId : WorkerId) (targetId : TargetId)
    (expectedTargetKind : Option Text) :
    s.Goes cfg B (s₁.claim cfg workerId targetId expectedTargetKind old) ∨
      s.Closed (s₁.claim cfg workerId targetId expectedTargetKind old) := by
  have hid := hkeyed k old hold
  have hlive : old.status.isTerminal = false := by
    rw [hadmitted]
    rfl
  unfold Redis.claim
  split
  · refine .inl (goes_requeue hkeyed ?_ ?_ hold hadmitted _)
    · rw [Redis.jobs_zrem, Redis.jobs_release]
      exact hjobs
    · rw [Redis.events_zrem, Redis.events_release]
      exact hevents
  · split
    · have hold₁ : s₁.job? k = some old := (Redis.job?_congr hjobs k).trans hold
      rw [hid, hold₁]
      exact .inr (closed_failFrom hjobs hevents hold hlive _ _)
    · refine .inl ?_
      rw [hid]
      refine .save_emit (runningRecord cfg old workerId s₁.clockMs) hkeyed hold hlive
        (.deed .run ⟨rfl, .inr hadmitted⟩ ⟨rfl, rfl⟩ rfl id id) ?_ hevents rfl
      rw [Redis.jobs_zadd, Redis.jobs_set, hjobs]
      exact congrArg (fun i => s.jobs.insert i _) hid

/-- A claim, where the dispatch lists hold admitted jobs only. -/
theorem goes_or_closed_claimDispatch (hkeyed : ∀ k job, s.job? k = some job → job.id = k)
    (workerId : WorkerId) (workerPool : WorkerPool) (targetId : TargetId)
    (expectedTargetKind : Option Text)
    (hadmitted : ∀ k job, (s.queues (.dispatch workerPool targetId)).getLast? = some k →
      s.job? k = some job → job.status = .admitted) :
    s.Goes cfg B (s.claimDispatch cfg workerId workerPool targetId expectedTargetKind) ∨
      s.Closed (s.claimDispatch cfg workerId workerPool targetId expectedTargetKind) := by
  have hclaimed := s.claimed cfg workerId workerPool targetId expectedTargetKind
  generalize s.claimDispatch cfg workerId workerPool targetId expectedTargetKind = s' at hclaimed
  rcases hclaimed with _ | _ | ⟨k, job, queues, hlast, hpop, hjob⟩
  · exact .inl (.of_eq hkeyed rfl rfl)
  · exact .inl (.of_eq hkeyed rfl rfl)
  · exact goes_or_closed_claim { s with queues := queues } hkeyed rfl rfl hjob
      (hadmitted k job hlast hjob) workerId targetId expectedTargetKind

theorem goes_renew (hkeyed : ∀ k job, s.job? k = some job → job.id = k) (k : JobId) :
    s.Goes cfg B (s.renew cfg k) := by
  unfold Redis.renew
  cases hfound : (s.job? k).filter fun job => job.status = .admitted ∨ job.status = .running with
  | none => exact .of_eq hkeyed rfl rfl
  | some job =>
    obtain ⟨hjob, -⟩ := Option.filter_eq_some_iff.mp hfound
    refine .save { job with leaseUntil := some (s.clockMs / 1000 + cfg.jobLeaseSeconds) } hkeyed
      hjob (.kept ⟨rfl, rfl, rfl, rfl, rfl, id, id⟩) ?_ rfl
    rw [Redis.jobs_zadd, Redis.jobs_set]
    exact congrArg (fun i => s.jobs.insert i _) (hkeyed k job hjob)

theorem goes_wait (hkeyed : ∀ k job, s.job? k = some job → job.id = k) (k childJobId : JobId)
    (stage : LifecycleStage) (updates : ParserMetadata) (workerId : Option WorkerId) :
    s.Goes cfg B (s.wait k childJobId stage updates workerId) := by
  unfold Redis.wait
  rcases hjob : s.job? k with _ | job
  · exact .of_eq hkeyed rfl rfl
  · refine .save (waitingRecord job childJobId stage updates) hkeyed hjob
      (.kept ⟨rfl, rfl, rfl, rfl, rfl, id, fun _ => Option.some_ne_none _⟩) ?_ ?_
    · rw [Redis.jobs_zrem, Redis.jobs_leave, Redis.jobs_release, Redis.jobs_set]
      exact congrArg (fun i => s.jobs.insert i _) (hkeyed k job hjob)
    · rw [Redis.events_zrem, Redis.events_leave, Redis.events_release, Redis.events_set]

/-- A cancel, of whichever job. -/
theorem goes_or_closed_stopped (hkeyed : ∀ k job, s.job? k = some job → job.id = k)
    (h : s.Stopped k s') : s.Goes cfg B s' ∨ s.Closed s' := by
  rcases h with _ | ⟨j, job, -, hjob, hhome⟩ | ⟨j, job, -, hjob, hlive, -⟩
  · exact .inl (.of_eq hkeyed rfl rfl)
  · refine .inr (closed_cancel ?_ (s.events_withdraw j job.home) hjob ?_ none)
    · unfold Redis.withdraw
      split <;> rfl
    · exact Job.live_of_home hhome
  · refine .inl ?_
    have hid := hkeyed j job hjob
    rw [hid]
    refine .save_emit { job with cancelRequested := true } hkeyed hjob hlive
      (.kept ⟨rfl, rfl, rfl, rfl, rfl, fun _ => rfl, id⟩) ?_ rfl rfl
    rw [Redis.jobs_set]
    exact congrArg (fun i => s.jobs.insert i _) hid

/-! ### Whole steps -/

/-- A claim pops jobs that are admitted, a report is about a job that has not ended, no lease has
run out and no record either, and an id that is made up is new. -/
def Move.Timely (s : Redis) : Move → Prop
  | .op (.enqueueJob a uuid) => a.jobIdOverride = none → s.job? uuid = none
  | .op (.claimDispatchJob _ workerPool targetId _) =>
    ∀ k job, (s.queues (.dispatch workerPool targetId)).getLast? = some k →
      s.job? k = some job → job.status = .admitted
  | .op (.markJobCompleted jobId _ _) | .op (.markJobFailed jobId _ _) =>
    ∀ job, s.job? jobId = some job → job.status.isTerminal = false
  | .op (.requeueJobForPending jobId _) =>
    ∀ job, s.job? jobId = some job → job.status = .admitted
  | .op .requeueStaleJobs => s.zrangebyscore s.now = []
  | .expire _ => False
  | _ => True

/-- **A timely step ends nothing, or one job and its root.** -/
theorem goes_or_closed_apply (hkeyed : ∀ k job, s.job? k = some job → job.id = k) (m : Move)
    (htimely : m.Timely s) :
    s.Goes cfg (m.Born cfg s) (m.apply cfg s) ∨ s.Closed (m.apply cfg s) := by
  rcases m with o | ms | ⟨targets, workers, catalog⟩ | jobId
  · cases o with
    | enqueueJob a uuid =>
      have hchanged : s.Changed cfg Going (Move.Born cfg s (.op (.enqueueJob a uuid)))
          (Move.apply cfg (.op (.enqueueJob a uuid)) s) :=
        changed_enqueueJob hkeyed a uuid htimely
      rw [apply_enqueueJob] at hchanged ⊢
      refine .inl ⟨hchanged, ?_, ?_⟩ <;>
        rcases enqueueJob_cases cfg a uuid s htimely with
          hsame | ⟨jobId, modelInfo, targetKind, hnone, hpush, -⟩
      · exact lasts_of_eq (by rw [hsame])
      · rw [hpush]
        exact lasts_push _
      · exact told_of_eq (by rw [hsame])
      · rw [hpush]
        exact told_push hnone
    | enqueueChildJobOnce rootJobId prepared =>
      have hchanged : s.Changed cfg Going
        (Move.Born cfg s (.op (.enqueueChildJobOnce rootJobId prepared)))
          (Move.apply cfg (.op (.enqueueChildJobOnce rootJobId prepared)) s) :=
        changed_enqueueChildJobOnce hkeyed rootJobId prepared
      rw [apply_enqueueChildJobOnce] at hchanged ⊢
      refine .inl ⟨hchanged, ?_, ?_⟩ <;>
        rcases enqueueChildJobOnce_cases cfg rootJobId prepared s with
          hsame | ⟨rootJob, -, -, -, -, hlinked | ⟨hnone, modelInfo, targetKind, hcreated⟩⟩
      · exact lasts_of_eq (by rw [hsame])
      · rw [hlinked]
        exact lasts_set (lasts_of_eq rfl) _
      · rw [hcreated]
        exact lasts_set (lasts_push _) _
      · exact told_of_eq (by rw [hsame])
      · exact told_of_eq (by rw [hlinked, Redis.events_set])
      · rw [hcreated]
        exact told_set (told_push hnone) _
    | getLinkedChildJobId rootJobId =>
      have hchanged : s.Changed cfg Going (Move.Born cfg s (.op (.getLinkedChildJobId rootJobId)))
          (Move.apply cfg (.op (.getLinkedChildJobId rootJobId)) s) :=
        changed_getLinkedChildJobId hkeyed rootJobId
      rw [apply_getLinkedChildJobId] at hchanged ⊢
      refine .inl ⟨hchanged, ?_, ?_⟩ <;>
        rcases getLinkedChildJobId_cases cfg rootJobId s with hsame | ⟨rootJob, -, hlinked⟩
      · exact lasts_of_eq (by rw [hsame])
      · rw [hlinked]
        exact lasts_set (lasts_of_eq rfl) _
      · exact told_of_eq (by rw [hsame])
      · exact told_of_eq (by rw [hlinked, Redis.events_set])
    | tryAdmitJob jobId queue target =>
      rw [apply_tryAdmitJob]
      exact .inl (goes_tryAdmit hkeyed queue target)
    | claimDispatchJob workerId workerPool targetId expectedTargetKind =>
      rw [apply_claimDispatchJob]
      exact goes_or_closed_claimDispatch hkeyed workerId workerPool targetId
        expectedTargetKind htimely
    | renewJobLease jobId =>
      rw [apply_renewJobLease]
      exact .inl (goes_renew hkeyed jobId)
    | cancelJob jobId username =>
      exact goes_or_closed_stopped hkeyed (stopped_apply_cancelJob cfg s jobId username)
    | markJobCompleted jobId responseText workerId =>
      rw [apply_markJobCompleted]
      rcases hjob : s.job? jobId with _ | job
      · exact .inl (.of_eq hkeyed rfl rfl)
      · exact .inr (.finish s jobId job (completedRecord job responseText s.clockMs) .childCompleted
          .done workerId rfl rfl hjob (htimely job hjob) (endOf_completedRecord job responseText
            s.clockMs) rfl)
    | markJobFailed jobId errorText workerId =>
      rw [apply_markJobFailed]
      rcases hjob : s.job? jobId with _ | job
      · exact .inl (.of_eq hkeyed rfl rfl)
      · exact .inr (closed_failFrom rfl rfl hjob (htimely job hjob) errorText workerId)
    | markJobCancelled jobId workerId =>
      rw [apply_markJobCancelled]
      rcases hjob : s.job? jobId with _ | job
      · refine .inl (.of_eq hkeyed ?_ ?_) <;> rw [Redis.cancel, hjob] <;> rfl
      · by_cases hlive : job.status.isTerminal = false
        · exact .inr (closed_cancel rfl rfl hjob hlive workerId)
        · refine .inl (.of_eq hkeyed ?_ ?_) <;>
            rw [Redis.cancel, hjob, Option.filter_some_neg (by simpa using hlive)]
    | markJobWaitingOnChild jobId childJobId stage updates workerId =>
      rw [apply_markJobWaitingOnChild]
      exact .inl (goes_wait hkeyed jobId childJobId stage updates workerId)
    | requeueJobForPending jobId reason =>
      rw [apply_requeueJobForPending]
      rcases hjob : s.job? jobId with _ | job
      · exact .inl (.of_eq hkeyed rfl rfl)
      · exact .inl (goes_requeue hkeyed rfl rfl hjob (htimely job hjob) reason)
    | requeueStaleJobs =>
      rw [apply_requeueStaleJobs, htimely]
      exact .inl (.of_eq hkeyed rfl rfl)
  · exact .inl (.of_eq hkeyed rfl rfl)
  · exact .inl (.of_eq hkeyed rfl rfl)
  · exact htimely.elim

end Gateway

end AiAgent

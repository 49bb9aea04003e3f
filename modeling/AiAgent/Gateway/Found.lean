import AiAgent.Gateway.Moves

/-!
# Every job is found again

The control plane comes back to a job in two ways: the scheduler finds a queued job in its pending
list, and the reaper finds a job in the active set. A root that waits on its child needs neither,
since the child ends it. So whatever has not ended and does not wait should be in the one or in the
other (`AiAgent.Gateway.Redis.Findable`).

Run to its end every operation of the gateway keeps this (`AiAgent.Gateway.Found.apply`): it moves
one job, puts it where it is found, and takes no other job away (`AiAgent.Gateway.Spares`).
-/

namespace AiAgent

namespace Gateway

open Command

/-! ### Where a job is found -/

/-- A root that waits on its child: it was taken off its target, with its lease, and linked. -/
def Job.waitsOnChild (job : Job) : Bool :=
  (job.status = .admitted || job.status = .running) && job.childJobId.isSome &&
    job.leaseUntil.isNone

/-- The job has to be found again: it has not ended, and no child ends it. -/
def Job.isOpen (job : Job) : Bool := !job.status.isTerminal && !job.waitsOnChild

/-- `pending_queue_key` of the job. -/
def Job.pendingQueue (job : Job) : Queue := .pending job.workloadClass job.priority

/-- The scheduler or the reaper finds the job. -/
def Redis.Findable (s : Redis) (k : JobId) (job : Job) : Prop :=
  (job.status = .queued ∧ k ∈ s.queues job.pendingQueue) ∨ k ∈ s.active

/-- **Every job that has to be found is found.** -/
structure Found (s : Redis) : Prop where
  /-- A record is found under its own id. -/
  keyed : ∀ k job, s.job? k = some job → job.id = k
  /-- And so is the job. -/
  findable : ∀ k job, s.job? k = some job → job.isOpen = true → s.Findable k job

variable {s s' s'' : Redis} {k j : JobId} {job old new : Job} {cfg : Settings}

/-- A job that has ended is not open. -/
theorem isOpen_of_ended (h : job.status.isTerminal = true) : job.isOpen = false := by
  rw [Job.isOpen, h]
  rfl

/-! ### The active set -/

section Active

variable (s : Redis) (queue : Queue) (event : Event) (workerId : Option WorkerId)

@[simp] theorem Redis.active_set : (s.set job).active = s.active := rfl

@[simp] theorem Redis.active_xadd : (s.xadd k event).active = s.active := rfl

@[simp] theorem Redis.active_rpush : (s.rpush queue k).active = s.active := rfl

@[simp] theorem Redis.active_lrem : (s.lrem queue k).active = s.active := rfl

@[simp] theorem Redis.active_emit : (s.emit k event).active = s.active := by
  obtain ⟨events, h⟩ := s.emit_eq k event
  rw [h]

@[simp] theorem Redis.active_release : (s.release job).active = s.active := by
  unfold Redis.release
  split <;> rfl

@[simp] theorem Redis.active_leave : (s.leave workerId k).active = s.active := by
  unfold Redis.leave
  split <;> rfl

/-- The active set gets one id. -/
theorem Redis.mem_active_zadd (score : ℕ) : k ∈ (s.zadd j score).active ↔ k = j ∨ k ∈ s.active :=
  AList.mem_insert _

/-- The active set loses one id. -/
theorem Redis.mem_active_zrem : k ∈ (s.zrem j).active ↔ k ≠ j ∧ k ∈ s.active := AList.mem_erase

end Active

/-! ### What an operation on one job leaves alone -/

/-- **The other jobs are spared**: their records are the same, or have ended, and what finds them
still does. -/
structure Spares (s s' : Redis) (k : JobId) : Prop where
  /-- The records. -/
  jobs : ∀ j, j ≠ k → s'.job? j = s.job? j ∨
    ∃ job, s'.job? j = some job ∧ job.id = j ∧ job.status.isTerminal = true
  /-- The active set. -/
  active : ∀ j, j ≠ k → j ∈ s.active → j ∈ s'.active
  /-- The pending lists. -/
  pending : ∀ workloadClass priority j, j ≠ k →
    j ∈ s.queues (.pending workloadClass priority) →
      j ∈ s'.queues (.pending workloadClass priority)

/-- Nothing is changed. -/
theorem Spares.refl (s : Redis) (k : JobId) : Spares s s k :=
  ⟨fun _ _ => .inl rfl, fun _ _ h => h, fun _ _ _ _ h => h⟩

/-- One change after the other. -/
theorem Spares.trans (h : Spares s s' k) (h' : Spares s' s'' k) : Spares s s'' k where
  jobs j hj := by
    rcases h'.jobs j hj with hsame | hended
    · rw [hsame]
      exact h.jobs j hj
    · exact .inr hended
  active j hj hmem := h'.active j hj (h.active j hj hmem)
  pending w p j hj hmem := h'.pending w p j hj (h.pending w p j hj hmem)

/-- A step that touches neither the records nor the active set nor a pending list. -/
theorem Spares.of_eq (hjobs : s'.jobs = s.jobs) (hactive : s'.active = s.active)
    (hqueues : ∀ workloadClass priority, s'.queues (.pending workloadClass priority) =
      s.queues (.pending workloadClass priority)) (k : JobId) : Spares s s' k where
  jobs j _ := .inl (Redis.job?_congr hjobs j)
  active j _ h := by rwa [hactive]
  pending w p j _ h := by rwa [hqueues]

/-- The record of the job itself is stored. -/
theorem spares_set (s : Redis) (job : Job) (hid : job.id = k) : Spares s (s.set job) k where
  jobs j hj := .inl (by rw [Redis.job?_set, if_neg (by rwa [hid])])
  active _ _ h := h
  pending _ _ _ _ h := h

/-- A list gets an id at its end. -/
theorem spares_rpush (s : Redis) (queue : Queue) (j : JobId) (k : JobId) :
    Spares s (s.rpush queue j) k where
  jobs _ _ := .inl rfl
  active _ _ h := h
  pending w p i _ h := by
    by_cases hself : Queue.pending w p = queue
    · rw [Redis.queues_rpush, hself, Function.update_self, ← hself]
      exact List.mem_append_left _ h
    · rw [Redis.queues_rpush, Function.update_of_ne hself]
      exact h

/-- A list loses the id of the job itself. -/
theorem spares_lrem (s : Redis) (queue : Queue) (k : JobId) : Spares s (s.lrem queue k) k where
  jobs _ _ := .inl rfl
  active _ _ h := h
  pending w p i hi h := by
    by_cases hself : Queue.pending w p = queue
    · rw [Redis.queues_lrem, hself, Function.update_self, ← hself, List.mem_erase_of_ne hi]
      exact h
    · rw [Redis.queues_lrem, Function.update_of_ne hself]
      exact h

/-- The active set gets an id. -/
theorem spares_zadd (s : Redis) (j : JobId) (score : ℕ) (k : JobId) :
    Spares s (s.zadd j score) k where
  jobs _ _ := .inl rfl
  active _ _ h := (s.mem_active_zadd score).mpr (.inr h)
  pending _ _ _ _ h := h

/-- The active set loses the id of the job itself. -/
theorem spares_zrem (s : Redis) (k : JobId) : Spares s (s.zrem k) k where
  jobs _ _ := .inl rfl
  active _ hi h := s.mem_active_zrem.mpr ⟨hi, h⟩
  pending _ _ _ _ h := h

/-- Streams say nothing about where a job is found. -/
theorem spares_xadd (s : Redis) (j : JobId) (event : Event) (k : JobId) :
    Spares s (s.xadd j event) k := ⟨fun _ _ => .inl rfl, fun _ _ h => h, fun _ _ _ _ h => h⟩

/-- Two events are appended at most. -/
theorem spares_emit (s : Redis) (j : JobId) (event : Event) (k : JobId) :
    Spares s (s.emit j event) k :=
  .of_eq (s.jobs_emit j event) (s.active_emit event) (fun _ _ => by rw [s.queues_emit]) k

/-- The numbers of a target say nothing about where a job is found. -/
theorem spares_release (s : Redis) (job : Job) (k : JobId) : Spares s (s.release job) k :=
  .of_eq (s.jobs_release job) s.active_release (fun _ _ => by rw [s.queues_release]) k

/-- A processing list is none of the places. -/
theorem spares_leave (s : Redis) (workerId : Option WorkerId) (j : JobId) (k : JobId) :
    Spares s (s.leave workerId j) k :=
  .of_eq (s.jobs_leave workerId j) (s.active_leave workerId)
    (fun _ _ => s.queues_leave workerId j rfl) k

/-- The root that ends with a job has ended. -/
theorem spares_synthesize (s : Redis) (job : Job) {status : Status}
    (hstatus : status.isTerminal = true) (stage : LifecycleStage) (event : Event) (k : JobId) :
    Spares s (s.synthesize job status stage event) k := by
  unfold Redis.synthesize
  cases hended : s.endedRoot job with
  | none => exact .refl s k
  | some rootJob =>
    refine ⟨fun j _ => ?_, fun _ _ h => h, fun _ _ _ _ h => h⟩
    rw [Redis.job?_xadd, Redis.job?_set]
    by_cases hself : j = (rootTerminalRecord rootJob job status stage s.clockMs).id
    · rw [if_pos hself]
      exact .inr ⟨_, rfl, hself.symm, hstatus⟩
    · rw [if_neg hself]
      exact .inl rfl

/-- **What is shown of an operation on one job**: the others are spared, and the job itself is
stored under its id and found, if it has to be. -/
theorem Found.of_spares (h : Found s) (hspares : Spares s s' k)
    (hself : ∀ job, s'.job? k = some job → job.id = k ∧ (job.isOpen = true → s'.Findable k job)) :
    Found s' := by
  have hother : ∀ j, j ≠ k → ∀ job, s'.job? j = some job →
      job.id = j ∧ (job.isOpen = true → s'.Findable j job) := by
    intro j hj job hjob
    rcases hspares.jobs j hj with hsame | ⟨ended, hended, hid, hstatus⟩
    · rw [hsame] at hjob
      refine ⟨h.keyed j job hjob, fun hopen => ?_⟩
      rcases h.findable j job hjob hopen with ⟨hqueued, hmem⟩ | hmem
      · exact .inl ⟨hqueued, hspares.pending _ _ j hj hmem⟩
      · exact .inr (hspares.active j hj hmem)
    · rw [hended] at hjob
      obtain rfl := Option.some.inj hjob
      exact ⟨hid, fun hopen => by rw [isOpen_of_ended hstatus] at hopen; cases hopen⟩
  have hall : ∀ j job, s'.job? j = some job →
      job.id = j ∧ (job.isOpen = true → s'.Findable j job) := by
    intro j job hjob
    rcases eq_or_ne j k with rfl | hj
    · exact hself job hjob
    · exact hother j hj job hjob
  exact ⟨fun j job hjob => (hall j job hjob).1, fun j job hjob => (hall j job hjob).2⟩

/-- The same, where the record is known. -/
theorem Found.of_job (h : Found s) (job : Job) (hspares : Spares s s' k)
    (hjob : s'.job? k = some job)
    (hid : job.id = k) (hfound : job.isOpen = true → s'.Findable k job) : Found s' := by
  refine h.of_spares hspares fun found hfound' => ?_
  rw [hjob] at hfound'
  obtain rfl := Option.some.inj hfound'
  exact ⟨hid, hfound⟩

/-- A step that touches nothing that matters. -/
theorem Found.congr (h : Found s) (hjobs : s'.jobs = s.jobs) (hactive : s'.active = s.active)
    (hqueues : ∀ workloadClass priority, s'.queues (.pending workloadClass priority) =
      s.queues (.pending workloadClass priority)) : Found s' := by
  have hjob := Redis.job?_congr hjobs
  refine ⟨fun k job hk => h.keyed k job (hjob k ▸ hk), fun k job hk hopen => ?_⟩
  rw [Redis.Findable, hactive, Job.pendingQueue, hqueues]
  exact h.findable k job (hjob k ▸ hk) hopen

/-- A job whose record changes in nothing that matters is found as before. -/
theorem Found.touch (h : Found s) (new : Job) (hold : s.job? k = some old) (hspares : Spares s s' k)
    (hjob : s'.job? k = some new) (hspec : new.toJobSpec = old.toJobSpec)
    (hstatus : new.status = old.status) (hopen : new.isOpen = true → old.isOpen = true)
    (hactive : k ∈ s.active → k ∈ s'.active)
    (hqueue : k ∈ s.queues old.pendingQueue → k ∈ s'.queues old.pendingQueue) : Found s' := by
  have hpending : new.pendingQueue = old.pendingQueue := by
    rw [Job.pendingQueue, Job.pendingQueue, hspec]
  refine h.of_job new hspares hjob ((congrArg JobSpec.id hspec).trans (h.keyed k old hold))
    fun hnew => ?_
  rcases h.findable k old hold (hopen hnew) with ⟨hqueued, hmem⟩ | hmem
  · refine .inl ⟨hstatus.trans hqueued, ?_⟩
    rw [hpending]
    exact hqueue hmem
  · exact .inr (hactive hmem)

/-! ### The operations -/

/-- **The end of a job.** -/
theorem Found.finish (h : Found s) (new : Job) {s₁ : Redis} (hspares : Spares s s₁ k)
    (hid : new.id = k)
    (hended : new.status.isTerminal = true) {status : Status} (hstatus : status.isTerminal = true)
    (stage : LifecycleStage) (body : EventBody) (workerId : Option WorkerId) :
    Found (s₁.finish new status stage body workerId) := by
  have hsaved : Spares s₁ ((s₁.set new).xadd new.id (Event.bare body)) k :=
    (spares_set s₁ new hid).trans (spares_xadd _ new.id (Event.bare body) k)
  have hroot := spares_synthesize ((s₁.set new).xadd new.id (Event.bare body)) new hstatus stage
    (Event.bare body)
  have hrest : ∀ s₂ : Redis, Spares s₂
      (((s₂.release new).leave (orWorker workerId new.assignedWorkerId) new.id).zrem new.id) k := by
    intro s₂
    rw [hid]
    exact ((spares_release s₂ new k).trans (spares_leave _ _ k k)).trans (spares_zrem _ k)
  refine h.of_spares (((hspares.trans hsaved).trans (hroot k)).trans (hrest _)) fun job hjob => ?_
  -- The record is the new one; the root is another job.
  have hjobs : (s₁.finish new status stage body workerId).job? k =
      (((s₁.set new).xadd new.id (Event.bare body)).synthesize new status stage
        (Event.bare body)).job? k := by
    refine Redis.job?_congr ?_ k
    rw [Redis.finish, Redis.jobs_zrem, Redis.jobs_leave, Redis.jobs_release]
  rw [hjobs] at hjob
  rcases (hroot (k + 1)).jobs k (Nat.ne_of_lt (Nat.lt_succ_self k)) with hsame | hroot'
  · rw [hsame, Redis.job?_xadd, Redis.job?_set, if_pos hid.symm] at hjob
    obtain rfl := Option.some.inj hjob
    exact ⟨hid, fun hopen => by rw [isOpen_of_ended hended] at hopen; cases hopen⟩
  · obtain ⟨ended, hended', hid', hstatus'⟩ := hroot'
    rw [hended'] at hjob
    obtain rfl := Option.some.inj hjob
    exact ⟨hid', fun hopen => by rw [isOpen_of_ended hstatus'] at hopen; cases hopen⟩

/-- A job that fails has ended, so it need not be found. -/
theorem Found.failFrom (h : Found s) (hjob : s.job? k = some job) (retryCount : ℕ)
    (errorText : Text) (workerId : Option WorkerId) :
    Found (s.failFrom { job with retryCount := retryCount } errorText workerId) :=
  h.finish (failedRecord { job with retryCount := retryCount } errorText s.clockMs) (.refl s k)
    (h.keyed k job hjob) rfl rfl _ _ _

/-- `mark_job_cancelled`, after the job may have been taken out of a list. A job that has ended
already may be anywhere. -/
theorem Found.cancel (h : Found s) {s₁ : Redis} (hspares : Spares s s₁ k)
    (hjobs : s₁.jobs = s.jobs) (hlive : ∀ job, s.job? k = some job → job.status.isTerminal = false)
    (workerId : Option WorkerId) : Found (s₁.cancel k workerId) := by
  unfold Redis.cancel
  rw [Redis.job?_congr hjobs]
  cases hjob : s.job? k with
  | none =>
    refine h.of_spares hspares fun job hk => ?_
    change s₁.job? k = some job at hk
    rw [Redis.job?_congr hjobs, hjob] at hk
    cases hk
  | some job =>
    have hopen := hlive job hjob
    rw [Option.filter_some_pos (by simpa using hopen)]
    exact h.finish (cancelledRecord job s₁.clockMs) hspares (h.keyed k job hjob) rfl rfl
      _ _ _

/-- `mark_job_cancelled` alone. -/
theorem Found.cancel_self (h : Found s) (k : JobId) (workerId : Option WorkerId) :
    Found (s.cancel k workerId) := by
  by_cases hlive : ∀ job, s.job? k = some job → job.status.isTerminal = false
  · exact h.cancel (.refl s k) rfl hlive workerId
  · have hsame : s.cancel k workerId = s := by
      unfold Redis.cancel
      push Not at hlive
      obtain ⟨job, hjob, hended⟩ := hlive
      rw [hjob, Option.filter_some_neg (by simpa using hended)]
    rw [hsame]
    exact h

/-- A job is taken out of the list it waits in. -/
theorem spares_withdraw (s : Redis) (home : Option Queue) (k : JobId) :
    Spares s (s.withdraw home k) k := by
  unfold Redis.withdraw
  split
  · exact .refl s k
  · exact spares_lrem s _ k

/-- Its record stays. -/
theorem jobs_withdraw (s : Redis) (home : Option Queue) (k : JobId) :
    (s.withdraw home k).jobs = s.jobs := by
  unfold Redis.withdraw
  split <;> rfl

/-- A job whose record and whose place are written: it is queued in its pending list. -/
theorem Found.requeued (h : Found s) (new : Job) {s₁ : Redis} (hspares : Spares s s₁ k)
    (hid : new.id = k)
    (hqueued : new.status = .queued) (event : Event) :
    Found (((s₁.set new).rpush new.pendingQueue k).emit k event) := by
  refine h.of_job new (((hspares.trans (spares_set s₁ new hid)).trans (spares_rpush _ _ _ k)).trans
    (spares_emit _ k event k)) ?_ hid fun _ => .inl ⟨hqueued, ?_⟩
  · rw [Redis.job?_congr (Redis.jobs_emit _ _ _), Redis.job?_rpush, Redis.job?_set,
      if_pos hid.symm]
  · rw [Redis.queues_emit, Redis.queues_rpush, Function.update_self]
    exact List.mem_append_right _ (List.mem_singleton_self k)

/-- A job whose record is written and that is put in the active set. -/
theorem Found.leased (h : Found s) (new : Job) {s₁ : Redis} (hspares : Spares s s₁ k)
    (hjob : s₁.job? k = some new) (hid : new.id = k) (hactive : k ∈ s₁.active) : Found s₁ :=
  h.of_job new hspares hjob hid fun _ => .inr hactive

/-- A job that is recovered is found in its pending list again. -/
theorem Found.recover (h : Found s) (hjob : s.job? k = some job) (retryCount : ℕ) :
    Found (s.recover job retryCount) := by
  have hid := h.keyed k job hjob
  have hspares : Spares s (((s.release job).leave job.assignedWorkerId job.id).zrem job.id) k := by
    rw [hid]
    exact ((spares_release s job k).trans (spares_leave _ _ k k)).trans (spares_zrem _ k)
  obtain ⟨targetKind, hkind⟩ := Redis.downgraded_eq
    (((s.release job).leave job.assignedWorkerId job.id).zrem job.id) job
  have hrecovered := h.requeued
    (recoveredRecord { job with targetKind := targetKind } retryCount) hspares hid rfl
    (Event.of k (.recovered retryCount))
  unfold Redis.recover
  simp only [hkind]
  rw [← hid] at hrecovered
  exact hrecovered

/-- A job that is sent back is found in its pending list. -/
theorem Found.requeue (h : Found s) {s₁ : Redis} (hspares : Spares s s₁ k) (hid : job.id = k)
    (reason : String) : Found (s₁.requeue job reason) := by
  obtain ⟨targetKind, hkind⟩ := s₁.downgraded_eq job
  have hrequeued := h.requeued
    (requeuedRecord { job with targetKind := targetKind } s₁.clockMs) hspares hid rfl
    (Event.of k (.requeued reason))
  unfold Redis.requeue
  simp only [hkind]
  rw [← hid] at hrequeued
  exact hrequeued

/-- By the cases of a reaper pass over one id. -/
theorem Found.reap (h : Found s) (cfg : Settings) (now : ℕ) (k : JobId) :
    Found (s.reap cfg now k) := by
  have hdropped : s.job? k = none ∨ (∃ job, s.job? k = some job ∧ job.status.isTerminal = true) →
      Found (s.zrem k) := by
    intro hdead
    refine h.of_spares (spares_zrem s k) fun job hjob => ?_
    rcases hdead with hnone | ⟨ended, hended, hstatus⟩
    · rw [Redis.job?_congr (s.jobs_zrem k), hnone] at hjob
      cases hjob
    · rw [Redis.job?_congr (s.jobs_zrem k), hended] at hjob
      obtain rfl := Option.some.inj hjob
      exact ⟨h.keyed k ended hended,
        fun hopen => by rw [isOpen_of_ended hstatus] at hopen; cases hopen⟩
  unfold Redis.reap
  cases hjob : s.job? k with
  | none => exact hdropped (.inl hjob)
  | some job =>
    dsimp only
    have hid := h.keyed k job hjob
    split
    · next hended => exact hdropped (.inr ⟨job, hjob, hended⟩)
    · next hlive =>
      split
      · exact h
      · split
        · rw [hid]
          refine h.cancel (spares_withdraw s _ k) (jobs_withdraw s _ k) (fun found hfound => ?_) _
          rw [hjob] at hfound
          rw [← Option.some.inj hfound]
          simpa using hlive
        · split
          · exact h.failFrom hjob job.retryCount _ _
          · split
            · exact h.failFrom hjob (job.retryCount + 1) _ _
            · exact h.recover hjob (job.retryCount + 1)

/-- By induction on the ids. -/
theorem Found.reapAll (h : Found s) (cfg : Settings) (now : ℕ) (jobIds : List JobId) :
    Found (s.reapAll cfg now jobIds) := by
  induction jobIds generalizing s with
  | nil => exact h
  | cons jobId jobIds ih => exact ih (h.reap cfg now jobId)

/-- `enqueue_job` from the transaction on. -/
theorem Found.push (h : Found s) (new : Job) (hqueued : new.status = .queued) :
    Found (s.push new) := by
  refine h.of_job new (((spares_set s new rfl).trans (spares_rpush _ _ _ new.id)).trans
    (spares_xadd _ new.id _ new.id)) ?_ rfl fun _ => .inl ⟨hqueued, ?_⟩
  · rw [Redis.job?_push, if_pos rfl]
  · show new.id ∈ Function.update s.queues new.pendingQueue _ new.pendingQueue
    rw [Function.update_self]
    exact List.mem_append_right _ (List.mem_singleton_self _)

/-- The link of a record says nothing about where it is found. -/
theorem Found.link (h : Found s) (hjob : s.job? k = some job) (childJobId : JobId) :
    Found (s.set { job with childJobId := some childJobId }) := by
  have hid := h.keyed k job hjob
  refine h.touch { job with childJobId := some childJobId } hjob
    (spares_set s { job with childJobId := some childJobId } hid) ?_ rfl rfl
    (fun hopen => ?_) id id
  · rw [Redis.job?_set]
    exact if_pos hid.symm
  · -- With a link it is open only if it was without one.
    simp only [Job.isOpen, Job.waitsOnChild, Option.isSome_some, Bool.and_true, Bool.and_eq_true,
      Bool.not_eq_true'] at hopen ⊢
    refine ⟨hopen.1, ?_⟩
    rw [Bool.and_right_comm, hopen.2, Bool.false_and]

/-- A child that is created is found in its pending list. -/
theorem Found.linked (h : Found s) (hlinked : s.Linked s') : Found s' := by
  cases hlinked with
  | same => exact h
  | linked rootJob rootJobId childJobId hroot => exact h.link hroot childJobId
  | created cfg a rootJob rootJobId childJobId modelInfo targetKind hroot hchild hpriority =>
    have hpushed := h.push (newJob cfg a childJobId modelInfo targetKind s.clockMs) rfl
    have hne : rootJobId ≠ childJobId := by
      intro heq
      rw [heq, hchild] at hroot
      cases hroot
    refine hpushed.link (k := rootJobId) ?_ childJobId
    rw [Redis.job?_push]
    exact (if_neg hne).trans hroot

/-- A new job is found in its pending list. -/
theorem Found.enqueueJob (h : Found s) (cfg : Settings) (a : EnqueueArgs) (uuid : JobId) :
    Found (alone (enqueueJob cfg a uuid) s).2 := by
  have hnew : ∀ jobId, Found (alone (enqueueNewJob cfg a jobId) s).2 := by
    intro jobId
    rcases alone_enqueueNewJob cfg a jobId s with ⟨e, hrun⟩ | ⟨modelInfo, targetKind, hrun⟩
    · rwa [hrun]
    · rw [hrun]
      exact h.push _ rfl
  unfold Gateway.enqueueJob
  cases a.jobIdOverride with
  | none => exact hnew uuid
  | some requestedJobId =>
    simp only [alone_bind, alone_getJob]
    cases s.job? requestedJobId with
    | some job => exact h
    | none => exact hnew requestedJobId

/-- An admission touches the job that is admitted. -/
theorem spares_admitted (s : Redis) (targetId : TargetId) (admission : Admission)
    (hid : job.id = k) : Spares s (s.admitted cfg job targetId admission) k := by
  unfold Redis.admitted
  rw [hid]
  have hreserved : Spares s ((s.addShare targetId 1
      (admittedRecord cfg job targetId admission s.clockMs)).hincrbyModel targetId job.modelKey 1)
        k :=
    ⟨fun _ _ => .inl rfl, fun _ _ h => h, fun _ _ _ _ h => h⟩
  exact (((hreserved.trans
    (spares_set _ (admittedRecord cfg job targetId admission s.clockMs) hid)).trans
      (spares_zadd _ k _ k)).trans (spares_rpush _ _ k k)).trans (spares_emit _ k _ k)

/-- An admitted job is in the active set. -/
theorem mem_active_admitted (s : Redis) (targetId : TargetId) (admission : Admission)
    (hid : job.id = k) : k ∈ (s.admitted cfg job targetId admission).active := by
  unfold Redis.admitted
  rw [Redis.active_emit, Redis.active_rpush, Redis.mem_active_zadd]
  exact .inl hid.symm

/-- A job that is admitted is found in the active set; one that is not stays where it was. -/
theorem Found.evaluate (h : Found s) (job : Job) {s₁ : Redis} (hspares : Spares s s₁ k)
    (hjob : s₁.job? k = some job) (hid : job.id = k) (hopen : job.isOpen = true → s₁.Findable k job)
    (queue : Queue) (target : Target) : Found (s₁.evaluate cfg job queue target) := by
  have h₁ := h.of_job job hspares hjob hid hopen
  unfold Redis.evaluate
  cases s₁.admission cfg job target with
  | none => exact h₁
  | some admission =>
    dsimp only
    split
    · -- It leaves the pending list, and is put in the active set.
      refine h₁.leased (admittedRecord cfg job target.targetId admission (s₁.lrem queue k).clockMs)
        (k := k) ?_ ?_ hid ?_
      · rw [hid]
        exact (spares_lrem s₁ queue k).trans (spares_admitted _ target.targetId admission hid)
      · rw [Redis.job?, Redis.jobs_admitted, hid]
        exact AList.lookup_insert _
      · rw [hid]
        exact mem_active_admitted _ target.targetId admission hid
    · next hmem =>
      -- Nothing was removed.
      refine h₁.congr rfl rfl fun w p => ?_
      by_cases hself : Queue.pending w p = queue
      · rw [Redis.queues_lrem, hself, Function.update_self, List.erase_of_not_mem hmem]
      · rw [Redis.queues_lrem, Function.update_of_ne hself]

/-- A downgrade is stored while the job stays in its list. -/
theorem Found.tryAdmit (h : Found s) (cfg : Settings) (k : JobId) (queue : Queue)
    (target : Target) : Found (s.tryAdmit cfg k queue target) := by
  unfold Redis.tryAdmit
  cases hfound : (s.job? k).filter fun job => job.status = .queued with
  | none => exact h
  | some original =>
    obtain ⟨hjob, hstatus⟩ := Option.filter_eq_some_iff.mp hfound
    obtain ⟨targetKind, hkind⟩ := s.downgraded_eq original
    have hid := h.keyed k original hjob
    dsimp only
    rw [hkind]
    split
    · refine h.evaluate { original with targetKind := targetKind }
        (spares_set s { original with targetKind := targetKind } hid) ?_ hid
        (fun hopen => h.findable k original hjob hopen) queue target
      rw [Redis.job?_set]
      exact if_pos hid.symm
    · next hkept =>
      have hsame : { original with targetKind := targetKind } = original := by
        obtain rfl : targetKind = original.targetKind := not_not.mp hkept
        rfl
      rw [hsame]
      exact h.evaluate original (.refl s k) hjob hid (h.findable k original hjob) queue target

/-- The pop touches no pending list. -/
theorem spares_brpoplpush (s : Redis) (workerPool : WorkerPool) (targetId : TargetId)
    (workerId : WorkerId) (k : JobId) :
    Spares s (s.brpoplpush (.dispatch workerPool targetId) (.processing workerId)).2 k := by
  unfold Redis.brpoplpush
  split
  · exact .refl s k
  · refine ⟨fun _ _ => .inl rfl, fun _ _ h => h, fun w p j _ h => ?_⟩
    dsimp only
    rw [Function.update_of_ne (by simp), Function.update_of_ne (by simp)]
    exact h

/-- The three ends of a claim: the job is in its pending list, has ended, or is in the active set.
-/
theorem Found.claim (h : Found s) {s₁ : Redis} (hspares : Spares s s₁ k)
    (hjobs : s₁.jobs = s.jobs) (hjob : s.job? k = some job) (workerId : WorkerId)
    (targetId : TargetId) (expectedTargetKind : Option Text) :
    Found (s₁.claim cfg workerId targetId expectedTargetKind job) := by
  have hid := h.keyed k job hjob
  unfold Redis.claim
  rw [hid]
  split
  · exact h.requeue (((hspares.trans (spares_lrem s₁ _ k)).trans (spares_release _ job k)).trans
      (spares_zrem _ k)) hid _
  · split
    · rw [Redis.job?_congr hjobs, hjob]
      exact h.finish (failedRecord job deadlineExceededError s₁.clockMs) hspares hid rfl rfl _ _ _
    · refine h.leased (runningRecord cfg job workerId s₁.clockMs)
        (((hspares.trans (spares_set s₁ (runningRecord cfg job workerId s₁.clockMs) hid)).trans
          (spares_zadd _ k _ k)).trans
          (spares_emit _ k _ k)) ?_ hid ?_
      · rw [Redis.job?_congr (Redis.jobs_emit _ _ _), Redis.job?_congr (Redis.jobs_zadd _ _ _),
          Redis.job?_set]
        exact if_pos hid.symm
      · rw [Redis.active_emit, Redis.mem_active_zadd]
        exact .inl rfl

/-- The pop moves the id from a list that is none of the places. -/
theorem Found.claimDispatch (h : Found s) (cfg : Settings) (workerId : WorkerId)
    (workerPool : WorkerPool) (targetId : TargetId) (expectedTargetKind : Option Text) :
    Found (s.claimDispatch cfg workerId workerPool targetId expectedTargetKind) := by
  have hpop := spares_brpoplpush s workerPool targetId workerId
  have hclaimed := s.claimed cfg workerId workerPool targetId expectedTargetKind
  generalize s.claimDispatch cfg workerId workerPool targetId expectedTargetKind = s' at hclaimed
  cases hclaimed with
  | same => exact h
  | dropped jobId queues hlast hqueues hnone =>
    rw [hqueues] at hpop
    refine h.of_spares ((hpop jobId).trans (spares_lrem _ _ jobId)) fun job hjob => ?_
    change s.job? jobId = some job at hjob
    rw [hnone] at hjob
    cases hjob
  | found jobId job queues hlast hqueues hjob =>
    rw [hqueues] at hpop
    exact h.claim (hpop jobId) rfl hjob workerId targetId expectedTargetKind

/-- A renewal puts the id into the active set. -/
theorem Found.renew (h : Found s) (cfg : Settings) (k : JobId) : Found (s.renew cfg k) := by
  unfold Redis.renew
  cases hfound : (s.job? k).filter fun job => job.status = .admitted ∨ job.status = .running with
  | none => exact h
  | some job =>
    obtain ⟨hjob, -⟩ := Option.filter_eq_some_iff.mp hfound
    have hid := h.keyed k job hjob
    refine h.leased { job with leaseUntil := some (s.clockMs / 1000 + cfg.jobLeaseSeconds) }
      (k := k) ((spares_set s
        { job with leaseUntil := some (s.clockMs / 1000 + cfg.jobLeaseSeconds) } hid).trans
          (spares_zadd _ k _ k)) ?_ hid ?_
    · rw [Redis.job?_congr (Redis.jobs_zadd _ _ _), Redis.job?_set]
      exact if_pos hid.symm
    · rw [Redis.mem_active_zadd]
      exact .inl rfl

/-- `mark_job_waiting_on_child` of a job that, if it is queued, is in its pending list. -/
theorem Found.wait (h : Found s) (k childJobId : JobId) (stage : LifecycleStage)
    (updates : ParserMetadata) (workerId : Option WorkerId)
    (hlisted : ∀ job, s.job? k = some job → job.status = .queued → k ∈ s.queues job.pendingQueue) :
    Found (s.wait k childJobId stage updates workerId) := by
  unfold Redis.wait
  cases hjob : s.job? k with
  | none => exact h
  | some job =>
    have hid := h.keyed k job hjob
    refine h.of_job (k := k) (waitingRecord job childJobId stage updates)
      ((((spares_set s (waitingRecord job childJobId stage updates) hid).trans
        (spares_release _ job k)).trans (spares_leave _ _ k k)).trans
        (spares_zrem _ k)) ?_ hid fun hopen => ?_
    · rw [Redis.job?_congr (Redis.jobs_zrem _ _), Redis.job?_congr (Redis.jobs_leave _ _ _),
        Redis.job?_congr (Redis.jobs_release _ _), Redis.job?_set]
      exact if_pos hid.symm
    · -- It does not wait, so it is queued, and its lists were not touched.
      have hqueued : job.status = .queued := by
        cases hstatus : job.status <;>
          simp [Job.isOpen, Job.waitsOnChild, waitingRecord, hstatus, Status.isTerminal] at hopen ⊢
      refine .inl ⟨hqueued, ?_⟩
      show k ∈ ((((s.set _).release job).leave _ k).zrem k).queues job.pendingQueue
      rw [Redis.queues_zrem, Job.pendingQueue, Redis.queues_leave _ _ _ rfl,
        Redis.queues_release, Redis.queues_set]
      exact hlisted job hjob hqueued

/-- A job that is withdrawn has ended; a flag says nothing about where a job is found. -/
theorem Found.stopped (h : Found s) (hstopped : s.Stopped k s') : Found s' := by
  cases hstopped with
  | same => exact h
  | withdrawn j job hbelow hjob hhome =>
    refine h.cancel (spares_withdraw s _ j) (jobs_withdraw s _ j) (fun found hfound => ?_) none
    rw [hjob] at hfound
    rw [← Option.some.inj hfound]
    revert hhome
    unfold Job.home
    cases job.status <;> simp [Status.isTerminal]
  | flagged j job hbelow hjob hstatus hhome =>
    have hid := h.keyed j job hjob
    have hflag : Found (s.set { job with cancelRequested := true }) := by
      refine h.touch { job with cancelRequested := true } hjob
        (spares_set s { job with cancelRequested := true } hid) ?_ rfl rfl
          (fun hopen => hopen) id id
      rw [Redis.job?_set]
      exact if_pos hid.symm
    exact hflag.congr (Redis.jobs_emit _ _ _) (Redis.active_emit _ _) fun _ _ => by
      rw [Redis.queues_emit]

/-! ### Whole steps -/

/-- A step that leaves every job where it is found: `mark_job_waiting_on_child` finds a queued job
in its pending list. -/
def Move.Finds (s : Redis) : Move → Prop
  | .op (.markJobWaitingOnChild jobId _ _ _ _) =>
    ∀ job, s.job? jobId = some job → job.status = .queued → jobId ∈ s.queues job.pendingQueue
  | _ => True

/-- **Run to its end an operation leaves every job where it is found.** -/
theorem Found.apply (h : Found s) (cfg : Settings) (m : Move) (hm : m.Finds s) :
    Found (m.apply cfg s) := by
  cases m with
  | tick ms => exact h.congr rfl rfl fun _ _ => rfl
  | report targets workers catalog => exact h.congr rfl rfl fun _ _ => rfl
  -- A record that has expired need not be found.
  | expire jobId =>
    have hjob : ∀ k job, (Move.apply cfg (.expire jobId) s).job? k = some job →
        s.job? k = some job := by
      intro k job hk
      have hk : (s.jobs.erase jobId).lookup k = some job := hk
      rcases eq_or_ne k jobId with rfl | hne
      · rw [AList.lookup_erase] at hk
        cases hk
      · rwa [AList.lookup_erase_ne hne] at hk
    exact ⟨fun k job hk => h.keyed k job (hjob k job hk),
      fun k job hk hopen => h.findable k job (hjob k job hk) hopen⟩
  | op o =>
    cases o with
    | enqueueJob a uuid =>
      rw [apply_enqueueJob]
      exact h.enqueueJob cfg a uuid
    | enqueueChildJobOnce rootJobId prepared =>
      exact h.linked (linked_apply_enqueueChildJobOnce cfg s rootJobId prepared)
    | getLinkedChildJobId rootJobId =>
      exact h.linked (linked_apply_getLinkedChildJobId cfg s rootJobId)
    | tryAdmitJob jobId queue target =>
      rw [apply_tryAdmitJob]
      exact h.tryAdmit cfg jobId queue target
    | claimDispatchJob workerId workerPool targetId expectedTargetKind =>
      rw [apply_claimDispatchJob]
      exact h.claimDispatch cfg workerId workerPool targetId expectedTargetKind
    | renewJobLease jobId =>
      rw [apply_renewJobLease]
      exact h.renew cfg jobId
    | cancelJob jobId username => exact h.stopped (stopped_apply_cancelJob cfg s jobId username)
    | markJobCompleted jobId responseText workerId =>
      rw [apply_markJobCompleted]
      cases hjob : s.job? jobId with
      | none => exact h
      | some job =>
        exact h.finish (completedRecord job responseText s.clockMs) (.refl s jobId)
          (h.keyed jobId job hjob) rfl rfl _ _ _
    | markJobFailed jobId errorText workerId =>
      rw [apply_markJobFailed]
      cases hjob : s.job? jobId with
      | none => exact h
      | some job => exact h.failFrom hjob job.retryCount errorText workerId
    | markJobCancelled jobId workerId =>
      rw [apply_markJobCancelled]
      exact h.cancel_self jobId workerId
    | markJobWaitingOnChild jobId childJobId stage updates workerId =>
      rw [apply_markJobWaitingOnChild]
      exact h.wait jobId childJobId stage updates workerId hm
    | requeueJobForPending jobId reason =>
      rw [apply_requeueJobForPending]
      cases hjob : s.job? jobId with
      | none => exact h
      | some job => exact h.requeue (.refl s jobId) (h.keyed jobId job hjob) reason
    | requeueStaleJobs =>
      rw [apply_requeueStaleJobs]
      exact h.reapAll cfg _ _

/-- Nothing is lost before anything was written. -/
theorem found_of_pristine (h : Pristine s) : Found s := by
  obtain ⟨targets, workers, catalog, clockMs, rfl⟩ := h
  have hnone : ∀ k, (Redis.empty targets workers catalog).job? k = none := fun _ => rfl
  refine ⟨fun k job hjob => ?_, fun k job hjob => ?_⟩
  · exact absurd (hjob.symm.trans (hnone k)) (by simp)
  · exact absurd (hjob.symm.trans (hnone k)) (by simp)

end Gateway

end AiAgent

import AiAgent.Gateway.Placement

/-!
# Nothing queued is hidden from the scheduler

`list_pending_candidates` looks at the first few ids of each pending list of `QUEUE_ORDER`, and
`get_total_pending_jobs` adds up the lengths of those lists. Both are honest
(`AiAgent.Gateway.NothingHidden`) as long as the lists hold no dead ids and every queued job is in
a list that is looked at, which is the invariant `AiAgent.Gateway.Placed` for the scope of the
pending lists. An id goes dead when its record leaves the status `queued`, or expires, while the
id stays in the list; and a list that is not in `QUEUE_ORDER` is looked at by nobody.
-/

namespace AiAgent

namespace Gateway

open Command

/-! ### What the scheduler is shown -/

/-- The record of an id, if it is queued. -/
def Redis.queued? (s : Redis) (k : JobId) : Option Job :=
  (s.job? k).filter fun job => job.status = .queued

/-- The oldest job of a pending list: the first of the list that is queued. -/
def Redis.oldest (s : Redis) (workloadClass : Workload) (priority : Priority) : Option Job :=
  (s.queues (.pending workloadClass priority)).findSome? s.queued?

/-- The candidates `list_pending_candidates` takes from one list. -/
def Redis.candidates (s : Redis) (scanDepth : ℕ) (q : Workload × Priority) : List (Queue × Job) :=
  ((s.queues (.pending q.1 q.2)).take (scanDepth - 1 + 1)).filterMap fun k =>
    (s.queued? k).map fun job => (.pending q.1 q.2, job)

theorem alone_queuedOf (queue : Queue) (jobIds : List JobId) (s : Redis) :
    alone (queuedOf queue jobIds) s =
      (jobIds.filterMap fun k => (s.queued? k).map fun job => (queue, job), s) := by
  induction jobIds with
  | nil => rfl
  | cons k jobIds ih =>
    simp only [queuedOf, alone_bind, alone_getJob, ih, List.filterMap_cons, Redis.queued?]
    cases s.job? k with
    | none => rfl
    | some job => by_cases hstatus : job.status = .queued <;> simp [hstatus, Option.filter]

theorem alone_candidatesOf (scanDepth : ℕ) (qs : List (Workload × Priority)) (s : Redis) :
    alone (candidatesOf scanDepth qs) s = (qs.flatMap (s.candidates scanDepth), s) := by
  induction qs with
  | nil => rfl
  | cons q qs ih => simp [candidatesOf, alone_queuedOf, ih, Redis.candidates]

theorem alone_listPendingCandidates (scanDepth : ℕ) (s : Redis) :
    alone (listPendingCandidates scanDepth) s =
      (queueOrder.flatMap (s.candidates scanDepth), s) :=
  alone_candidatesOf scanDepth queueOrder s

theorem alone_getTotalPendingJobs (s : Redis) :
    alone getTotalPendingJobs s =
      ((queueOrder.map fun q => (s.queues (.pending q.1 q.2)).length).sum, s) :=
  alone_pendingLength queueOrder s

/-! ### Nothing hidden -/

/-- **No queued job is hidden, and nothing else is counted.** -/
structure NothingHidden (s : Redis) : Prop where
  /-- Where a class holds a queued job, the oldest one of its list is a candidate. -/
  offered : ∀ scanDepth, 1 ≤ scanDepth → ∀ workloadClass priority,
    (∃ k job, s.job? k = some job ∧ job.status = .queued ∧ job.workloadClass = workloadClass ∧
      job.priority = priority) →
    ∃ job, s.oldest workloadClass priority = some job ∧
      (.pending workloadClass priority, job) ∈ (alone (listPendingCandidates scanDepth) s).1
  /-- The backlog counts the ids of queued jobs, and no others. -/
  counted : (alone getTotalPendingJobs s).1 =
    (queueOrder.map fun q =>
      (s.queues (.pending q.1 q.2)).countP fun k => (s.queued? k).isSome).sum

variable {s : Redis} {k : JobId} {job : Job} {cfg : Settings}

/-- Only a queued job has a pending list for its home. -/
theorem queued_of_home {workloadClass : Workload} {priority : Priority}
    (h : job.home = some (.pending workloadClass priority)) :
    job.status = .queued ∧ job.workloadClass = workloadClass ∧ job.priority = priority := by
  unfold Job.home at h
  cases hstatus : job.status with
  | queued =>
    rw [hstatus] at h
    cases h
    exact ⟨rfl, rfl, rfl⟩
  | admitted =>
    rw [hstatus] at h
    obtain ⟨targetId, -, htarget⟩ := Option.map_eq_some_iff.mp h
    cases htarget
  | _ => rw [hstatus] at h; cases h

/-- Every id of a pending list belongs to a queued job of its class. -/
theorem Placed.queued_of_mem (h : Placed .pending s) {workloadClass : Workload}
    {priority : Priority} (hmem : k ∈ s.queues (.pending workloadClass priority)) :
    ∃ job, s.queued? k = some job ∧ (workloadClass, priority) ∈ queueOrder := by
  obtain ⟨job, hjob, hhome⟩ := h.home_of_mem _ (Scope.covers_pending _ _ _) hmem
  obtain ⟨hstatus, rfl, rfl⟩ := queued_of_home hhome
  exact ⟨job, Option.filter_eq_some_iff.mpr ⟨hjob, by simpa using hstatus⟩,
    h.listed rfl k job hjob⟩

/-- **Where every queued job is in its pending list and nothing else is, nothing is hidden.** -/
theorem Placed.nothingHidden (h : Placed .pending s) : NothingHidden s := by
  refine ⟨?_, ?_⟩
  · rintro scanDepth - workloadClass priority ⟨k, job, hjob, hstatus, rfl, rfl⟩
    have hhome : job.home = some (.pending job.workloadClass job.priority) := by
      rw [Job.home, hstatus]
    have hcount := h.count_of_job hjob
      (Scope.covers_pending .pending job.workloadClass job.priority)
    rw [if_pos hhome] at hcount
    -- The list is not empty, and its head is queued, so it is both the oldest and looked at.
    cases hlist : s.queues (.pending job.workloadClass job.priority) with
    | nil =>
      rw [hlist] at hcount
      cases hcount
    | cons head rest =>
      obtain ⟨oldest, holdest, hlisted⟩ := h.queued_of_mem (k := head) (by rw [hlist]; simp)
      refine ⟨oldest, ?_, ?_⟩
      · rw [Redis.oldest, hlist, List.findSome?_cons, holdest]
      · rw [alone_listPendingCandidates]
        refine List.mem_flatMap.mpr ⟨_, hlisted, ?_⟩
        simp [Redis.candidates, hlist, holdest]
  · rw [alone_getTotalPendingJobs]
    refine congrArg List.sum (List.map_congr_left fun q _ => ?_)
    refine (List.countP_eq_length.mpr fun k hk => ?_).symm
    obtain ⟨job, hqueued, -⟩ := h.queued_of_mem hk
    rw [hqueued]
    rfl

/-- **In every run of orderly steps nothing queued is hidden from the scheduler**, in every
state. -/
theorem nothingHidden_of_orderly (h : Run cfg (Orderly .pending cfg) s) : NothingHidden s :=
  (placed_of_orderly h).nothingHidden

/-- Enqueued, admitted, recovered once its lease ran out: a run of orderly steps. -/
theorem nothingHidden_of_orderly_recovered : NothingHidden (smallRun
    [.op (.enqueueJob smallRequest 2), .op (.tryAdmitJob 2 (.pending .chat .p1) smallTarget),
      .tick 31000, .op .requeueStaleJobs]) := by
  have enqueued : Run smallSettings (Orderly .pending smallSettings)
      (smallRun [.op (.enqueueJob smallRequest 2)]) :=
    (Reached.start pristine_smallStore).step (Move.op (.enqueueJob smallRequest 2))
      ⟨fun _ => rfl, fun _ => by decide⟩
  have admitted : Run smallSettings (Orderly .pending smallSettings)
      (smallRun [.op (.enqueueJob smallRequest 2),
        .op (.tryAdmitJob 2 (.pending .chat .p1) smallTarget), .tick 31000]) :=
    (enqueued.step (Move.op (.tryAdmitJob 2 (.pending .chat .p1) smallTarget))
      ⟨rfl, fun hP => Scope.noConfusion hP⟩).step (.tick 31000) trivial
  refine nothingHidden_of_orderly (admitted.step (Move.op .requeueStaleJobs) ?_)
  -- The one stale id is that of the admitted job.
  have hstale : ∀ s : Redis, s.zrangebyscore s.now = [2] →
      (∀ job, s.job? 2 = some job → Away .pending job ∧ RootAway .pending s job) →
      ReapsOrderly .pending smallSettings s.now (s.zrangebyscore s.now) s := by
    intro s hids hjob
    rw [hids]
    exact ⟨fun job hold _ => ⟨fun _ => (hjob job hold).1, fun _ => (hjob job hold).2⟩, trivial⟩
  refine hstale _ (by decide +kernel) fun job hjob => ?_
  have hfree := forall_of_all
    (p := fun job => job.home = some (.dispatch .chat "t") ∧ job.rootJobId = none)
    (by decide +kernel) job hjob
  obtain ⟨hhome, hroot⟩ : job.home = some (.dispatch .chat "t") ∧ job.rootJobId = none := by
    simpa using hfree
  refine ⟨fun queue hqueue => ?_, rootAway_of_none hroot⟩
  rw [hhome] at hqueue
  cases hqueue
  rfl

/-- A worker's report of a job the reaper has sent back to its pending list, and one more
request. -/
def deadHead : List Move :=
  [.op (.enqueueJob smallRequest 2), .op (.tryAdmitJob 2 (.pending .chat .p1) smallTarget),
    .op (.claimDispatchJob "w" .chat "t" none), .tick 31000, .op .requeueStaleJobs,
    .op (.markJobCompleted 2 "hi".toList (some "w")), .op (.enqueueJob smallRequest 4)]

/-- **A dead id at the head of a list hides the queue behind it**: the request that was enqueued
last is queued and no candidate, and the backlog counts two. -/
theorem not_nothingHidden_deadHead :
    Run smallSettings (fun _ _ => True) (smallRun deadHead) ∧
      ((smallRun deadHead).job? 4).map Job.status = some .queued ∧
      ((alone (listPendingCandidates 1) (smallRun deadHead)).1.map fun c => c.2.id) = [] ∧
      (alone getTotalPendingJobs (smallRun deadHead)).1 = 2 ∧
      ¬NothingHidden (smallRun deadHead) := by
  have hbacklog : (alone getTotalPendingJobs (smallRun deadHead)).1 = 2 := by decide +kernel
  refine ⟨reached_smallRun deadHead, by decide +kernel, by decide +kernel, hbacklog, fun h => ?_⟩
  have hcounted := h.counted
  rw [hbacklog] at hcounted
  revert hcounted
  decide +kernel

-- A chat request of priority `p0` is queued in a list that is looked at by nobody.
example : ((alone (listPendingCandidates 8) (smallRun
    [.op (.enqueueJob { smallRequest with priority := some "p0".toList } 2)])).1.map
      fun c => c.2.id) = [] := by
  decide +kernel

end Gateway

end AiAgent

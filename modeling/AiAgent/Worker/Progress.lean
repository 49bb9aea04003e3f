import AiAgent.Gateway.Locked
import AiAgent.Worker.Cluster

/-!
# The control plane comes to rest

The operations under way wait for each other's locks, and a worker that serves a parse job takes
several of them, one after the other. However many are under way, and however they are scheduled,
all of them return, and no lock is left behind (`AiAgent.Worker.plane_comes_to_rest`). What holds a
lock that is waited for is at work: no lock has to run out for it.
-/

namespace AiAgent

namespace Worker

open Command Gateway

/-! ### Serving a parse job -/

theorem balanced_enqueueAndWait (cfg : Settings) (worker : ParserWorker) (jobId : JobId)
    (prepared : PreparedLlmJob) (cleanup : Except Text Bool) :
    Balanced 0 (enqueueAndWait cfg worker jobId prepared cleanup) := by
  have hcancel := (balanced_markJobCancelled jobId (some worker.workerId)).outermost
  have hfail := fun text => (balanced_markJobFailed jobId text (some worker.workerId)).outermost
  refine (balanced_getJob jobId).bind fun latestJob => .ite (balanced_pure ()) ?_
  refine ((balanced_getJob jobId).bind fun _ => balanced_pure _).bind fun requested => ?_
  refine .ite hcancel ((balanced_enqueueChildJobOnce cfg jobId prepared).bind fun reply => ?_)
  rcases reply with e | ⟨childJobId, created⟩
  · cases e with
    | childEnqueueCancelled =>
      exact (balanced_getJob jobId).bind fun _ => .ite (balanced_pure ()) hcancel
    | _ => exact hfail _
  · rcases cleanup with message | rawDeleted
    · exact hfail _
    · exact (balanced_markJobWaitingOnChild jobId childJobId _ _ _).outermost

theorem balanced_parseAndEnqueue (cfg : Settings) (worker : ParserWorker) (job currentJob : Job)
    (preparation : Preparation) (cleanup : Except Text Bool) :
    Balanced 0 (parseAndEnqueue cfg worker job currentJob preparation cleanup) := by
  have hfail := fun text => (balanced_markJobFailed job.id text (some worker.workerId)).outermost
  refine (balanced_getLinkedChildJobId cfg job.id).bind fun reply => ?_
  rcases reply with e | existingChildJobId
  · exact balanced_pure ()
  dsimp only
  rcases currentJob.stagingId.or job.stagingId with - | stagingId
  · exact hfail _
  rcases existingChildJobId with - | childJobId
  · rcases preparation with - | message | prepared
    · exact hfail _
    · exact hfail _
    · exact (balanced_write _).bind fun _ => balanced_enqueueAndWait cfg worker job.id _ cleanup
  · rcases cleanup with message | rawDeleted
    · exact balanced_pure ()
    · exact (balanced_markJobWaitingOnChild job.id childJobId _ _ _).outermost

theorem balanced_processParserJob (cfg : Settings) (worker : ParserWorker) (job : Job)
    (preparation : Preparation) (cleanup : Except Text Bool) :
    Balanced 0 (processParserJob cfg worker job preparation cleanup) := by
  refine ((balanced_getJob job.id).bind fun _ => balanced_pure _).bind fun requested => ?_
  refine .ite (balanced_markJobCancelled job.id _).outermost ?_
  refine .ite (balanced_markJobFailed job.id _ _).outermost ?_
  refine .ite (balanced_markJobFailed job.id _ _).outermost ?_
  exact (balanced_getJob job.id).bind fun _ => balanced_parseAndEnqueue cfg worker job _ _ _

theorem balanced_work (cfg : Settings) (op : Work) : Balanced 0 (op.body cfg) := by
  cases op with
  | gateway op => exact balanced_body cfg op
  | serve worker workerPool targetId expectedTargetKind preparation cleanup =>
    refine (balanced_claimDispatchJob cfg worker.workerId workerPool targetId
      expectedTargetKind).outermost.ofOption (balanced_pure _) fun job => ?_
    refine .ite ?_ (balanced_pure _)
    exact (balanced_processParserJob cfg worker job preparation cleanup).bind fun _ =>
      balanced_pure _

/-! ### The plane -/

/-- **The control plane comes to rest**: whatever has happened, crashes included, once nothing new
is started every operation under way returns, in whatever order they take their steps, and then no
lock is held. -/
theorem plane_comes_to_rest (cfg : Settings) (R : Rules redisSig Redis Work Outcome) {s₀ : Redis}
    (hlocks : s₀.locks = []) {w : Plane} (hw : Reachable (cluster cfg) R (· = s₀) w) :
    Inevitable (Advance (cluster cfg))
      (fun w' => (∀ i, w'.tasks i = none) ∧ w'.shared.locks = []) w := by
  have hbody : ∀ op, R.starts op → ((cluster cfg).body op).Obeys
      (redisLocks.inOrder Lock.rank) (fun _ mine => mine = []) [] :=
    fun op _ => balanced_work cfg op [] nofun
  refine Locking.inevitable hbody ?_ ?_ hw
  · rintro s rfl
    exact hlocks
  · rintro s s' ⟨clockMs, targets, workers, catalog, -, rfl⟩
    rfl

/-- A reaper that has begun on the small plane. -/
def smallReaping : Plane :=
  (World.fresh (smallPlane 40000)).record 1 (.gateway .requeueStaleJobs) .start (smallPlane 40000)
    (some ⟨.gateway .requeueStaleJobs, Work.body smallSettings (.gateway .requeueStaleJobs)⟩)

theorem plane_comes_to_rest_small :
    smallReaping.tasks 1 ≠ none ∧ Inevitable (Advance (cluster smallSettings))
      (fun w' => (∀ i, w'.tasks i = none) ∧ w'.shared.locks = []) smallReaping := by
  let R : Rules redisSig Redis Work Outcome := ⟨fun _ => True, fun _ _ => True⟩
  have hw : Reachable (cluster smallSettings) R (· = smallPlane 40000) smallReaping :=
    Reachable.step (.init rfl) (Step.start 1 (Work.gateway .requeueStaleJobs) rfl trivial)
  exact ⟨Option.some_ne_none _, plane_comes_to_rest smallSettings R rfl hw⟩

end Worker

end AiAgent

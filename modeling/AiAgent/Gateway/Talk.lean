import AiAgent.Command.Cut
import AiAgent.Gateway.Plain
import AiAgent.Gateway.Streams

/-!
# Who appends tokens and results

The token and the result events of a stream come from `emit_event` of a worker alone: no operation
of the gateway appends one by itself, neither as a whole step (`AiAgent.Gateway.hushed_apply`) nor
where a report is cut short anywhere (`AiAgent.Gateway.hushed_markJobCompleted` and its siblings).
-/

namespace AiAgent

namespace Gateway

open Command

variable {α : Type} {cfg : Settings} {s s' s₁ s'' : Redis} {j k : JobId} {job : Job} {event : Event}

/-! ### Talk -/

/-- The event is a token or a result. -/
def Event.isTalk (event : Event) : Bool :=
  match event.body with
  | .token _ | .result _ => true
  | _ => false

/-- The token and the result events of a stream. -/
def talk (events : List Event) : List Event := events.filter Event.isTalk

/-- The tokens of a stream, one after the other. -/
def tokensOf (events : List Event) : Text :=
  events.flatMap fun event => match event.body with
    | .token text => text
    | _ => []

/-- What a result event says. -/
def Event.result? (event : Event) : Option Text :=
  match event.body with
  | .result text => some text
  | _ => none

/-- The last result event of a stream. -/
def lastResult (events : List Event) : Option Text := (events.filterMap Event.result?).getLast?

/-- Only token events carry tokens. -/
theorem tokensOf_talk (events : List Event) : tokensOf (talk events) = tokensOf events := by
  induction events with
  | nil => rfl
  | cons event events ih =>
    unfold talk tokensOf at ih ⊢
    rcases hbody : event.body
    case token =>
      rw [List.filter_cons_of_pos (by simp [Event.isTalk, hbody]), List.flatMap_cons,
        List.flatMap_cons, ih]
    case result =>
      rw [List.filter_cons_of_pos (by simp [Event.isTalk, hbody]), List.flatMap_cons,
        List.flatMap_cons, ih]
    all_goals
      rw [List.filter_cons_of_neg (by simp [Event.isTalk, hbody]), List.flatMap_cons, ih, hbody]
      rfl

/-- Only result events carry results. -/
theorem lastResult_talk (events : List Event) : lastResult (talk events) = lastResult events := by
  have hresults : (talk events).filterMap Event.result? = events.filterMap Event.result? := by
    induction events with
    | nil => rfl
    | cons event events ih =>
      unfold talk at ih ⊢
      rcases hbody : event.body
      case token =>
        rw [List.filter_cons_of_pos (by simp [Event.isTalk, hbody]), List.filterMap_cons,
          List.filterMap_cons, ih]
      case result =>
        rw [List.filter_cons_of_pos (by simp [Event.isTalk, hbody]), List.filterMap_cons,
          List.filterMap_cons, ih]
      all_goals
        rw [List.filter_cons_of_neg (by simp [Event.isTalk, hbody]), List.filterMap_cons, ih]
        simp [Event.result?, hbody]
  unfold lastResult
  rw [hresults]

/-- No token and no result is appended anywhere. -/
def Redis.Hushed (s s' : Redis) : Prop := ∀ k, talk (s'.events k) = talk (s.events k)

/-- Nothing at all is appended. -/
theorem Redis.Hushed.of_eq (h : s'.events = s.events) : s.Hushed s' := fun k => by rw [h]

/-- One hushed change after the other. -/
theorem Redis.Hushed.trans (h : s.Hushed s') (h' : s'.Hushed s'') : s.Hushed s'' :=
  fun k => (h' k).trans (h k)

/-- What comes before does not matter where the streams are the same. -/
theorem Redis.Hushed.congr (h : s₁.Hushed s') (hevents : s₁.events = s.events) : s.Hushed s' :=
  (Redis.Hushed.of_eq hevents).trans h

/-- An event of any other kind is appended. -/
theorem hushed_xadd (s : Redis) (j : JobId) (hevent : event.isTalk = false) :
    s.Hushed (s.xadd j event) := by
  intro k
  rw [Redis.events_xadd]
  split
  · unfold talk
    rw [List.filter_append, List.filter_cons_of_neg (by simp [hevent]), List.filter_nil,
      List.append_nil]
  · rfl

/-! ### Whole steps -/

/-- The root gets the same event as the job, in its own name. -/
theorem hushed_emit (s : Redis) (j : JobId) (hevent : event.isTalk = false) :
    s.Hushed (s.emit j event) := by
  unfold Redis.emit
  split
  · exact hushed_xadd s j hevent
  · split
    · exact hushed_xadd s j hevent
    · exact (hushed_xadd s j hevent).trans (hushed_xadd _ _ hevent)

/-- The event a job ends with is passed on to its root. -/
theorem hushed_finish (s : Redis) (job : Job) (status : Status) (stage : LifecycleStage)
    {body : EventBody} (hbody : (Event.bare body).isTalk = false) (workerId : Option WorkerId) :
    s.Hushed (s.finish job status stage body workerId) := by
  have hsynthesize : ∀ s₁ : Redis,
      s₁.Hushed (s₁.synthesize job status stage (Event.bare body)) := by
    intro s₁
    unfold Redis.synthesize
    split
    · exact .of_eq rfl
    · exact hushed_xadd _ _ hbody
  refine ((hushed_xadd (s.set job) job.id hbody).trans (hsynthesize _)).trans (.of_eq ?_)
  rw [Redis.finish, Redis.events_zrem, Redis.events_leave, Redis.events_release]

/-- A failure says an error, which is no result. -/
theorem hushed_failFrom (s : Redis) (job : Job) (errorText : Text) (workerId : Option WorkerId) :
    s.Hushed (s.failFrom job errorText workerId) := hushed_finish _ _ _ _ rfl _

/-- Where the record has ended nothing is said at all. -/
theorem hushed_cancel (s : Redis) (k : JobId) (workerId : Option WorkerId) :
    s.Hushed (s.cancel k workerId) := by
  unfold Redis.cancel
  split
  · exact .of_eq rfl
  · exact hushed_finish _ _ _ _ rfl _

/-- A job that is new says that it is queued. -/
theorem hushed_push (s : Redis) (new : Job) : s.Hushed (s.push new) :=
  (hushed_xadd _ new.id rfl).congr rfl

/-- An admission says where the job goes. -/
theorem hushed_evaluate (s : Redis) (job : Job) (queue : Queue) (target : Target) :
    s.Hushed (s.evaluate cfg job queue target) := by
  unfold Redis.evaluate
  split
  · exact .of_eq rfl
  · split
    · exact (hushed_emit _ _ rfl).congr rfl
    · exact .of_eq rfl

/-- A downgrade is not even told. -/
theorem hushed_tryAdmit (s : Redis) (k : JobId) (queue : Queue) (target : Target) :
    s.Hushed (s.tryAdmit cfg k queue target) := by
  unfold Redis.tryAdmit
  split
  · exact .of_eq rfl
  · dsimp only
    split
    · exact (hushed_evaluate _ _ _ _).congr rfl
    · exact hushed_evaluate _ _ _ _

/-- A requeue says the reason. -/
theorem hushed_requeue (s : Redis) (job : Job) (reason : String) :
    s.Hushed (s.requeue job reason) :=
  (hushed_emit _ _ rfl).congr rfl

/-- The three ends of a claim, none of which says a token. -/
theorem hushed_claim (s : Redis) (workerId : WorkerId) (targetId : TargetId)
    (expectedTargetKind : Option Text) (job : Job) :
    s.Hushed (s.claim cfg workerId targetId expectedTargetKind job) := by
  unfold Redis.claim
  split
  · refine (hushed_requeue _ _ _).congr ?_
    rw [Redis.events_zrem, Redis.events_release, Redis.events_lrem]
  · split
    · split
      · exact .of_eq rfl
      · exact hushed_failFrom _ _ _ _
    · exact (hushed_emit _ _ rfl).congr rfl

/-- A pop says nothing. -/
theorem hushed_claimDispatch (s : Redis) (workerId : WorkerId) (workerPool : WorkerPool)
    (targetId : TargetId) (expectedTargetKind : Option Text) :
    s.Hushed (s.claimDispatch cfg workerId workerPool targetId expectedTargetKind) := by
  have hclaimed := s.claimed cfg workerId workerPool targetId expectedTargetKind
  generalize s.claimDispatch cfg workerId workerPool targetId expectedTargetKind = s' at hclaimed
  rcases hclaimed with _ | _ | _
  · exact .of_eq rfl
  · exact .of_eq rfl
  · exact (hushed_claim _ _ _ _ _).congr rfl

/-- A recovery says how often the job has been tried. -/
theorem hushed_recover (s : Redis) (job : Job) (retryCount : ℕ) :
    s.Hushed (s.recover job retryCount) := by
  refine (hushed_emit _ _ rfl).congr ?_
  rw [Redis.events_rpush, Redis.events_set, Redis.events_zrem, Redis.events_leave,
    Redis.events_release]

/-- By the cases of a reaper pass over one id. -/
theorem hushed_reap (s : Redis) (now : ℕ) (k : JobId) : s.Hushed (s.reap cfg now k) := by
  unfold Redis.reap
  split
  · exact .of_eq rfl
  · split
    · exact .of_eq rfl
    split
    · exact .of_eq rfl
    split
    · exact (hushed_cancel _ _ _).congr (s.events_withdraw _ _)
    split
    · exact hushed_failFrom _ _ _ _
    split
    · exact hushed_failFrom _ _ _ _
    · exact hushed_recover _ _ _

/-- By induction on the ids. -/
theorem hushed_reapAll (s : Redis) (now : ℕ) (jobIds : List JobId) :
    s.Hushed (s.reapAll cfg now jobIds) := by
  induction jobIds generalizing s with
  | nil => exact .of_eq rfl
  | cons k jobIds ih => exact (hushed_reap s now k).trans (ih _)

/-- A cancel ends a job that waits, or says that the job is to be cancelled. -/
theorem hushed_stopped (h : s.Stopped k s') : s.Hushed s' := by
  rcases h with _ | ⟨k, job, -, -, -⟩ | ⟨k, job, -, -, -, -⟩
  · exact .of_eq rfl
  · exact (hushed_cancel _ _ _).congr (s.events_withdraw _ _)
  · exact (hushed_emit _ _ rfl).congr rfl

/-- A link is told in no stream. -/
theorem hushed_linked (h : s.Linked s') : s.Hushed s' := by
  rcases h with _ | _ | _
  · exact .of_eq rfl
  · exact .of_eq rfl
  · exact (hushed_push s _).trans (.of_eq rfl)

/-- A lease is told in no stream. -/
theorem hushed_renew (s : Redis) (k : JobId) : s.Hushed (s.renew cfg k) := by
  unfold Redis.renew
  split <;> exact .of_eq rfl

/-- That a root waits is told in no stream. -/
theorem hushed_wait (s : Redis) (k childJobId : JobId) (stage : LifecycleStage)
    (updates : ParserMetadata) (workerId : Option WorkerId) :
    s.Hushed (s.wait k childJobId stage updates workerId) := by
  unfold Redis.wait
  split
  · exact .of_eq rfl
  · refine .of_eq ?_
    rw [Redis.events_zrem, Redis.events_leave, Redis.events_release, Redis.events_set]

/-- The job is pushed or refused. -/
theorem hushed_enqueueJob (s : Redis) (a : EnqueueArgs) (uuid : JobId) :
    s.Hushed (alone (enqueueJob cfg a uuid) s).2 := by
  have hnew : ∀ k, s.Hushed (alone (enqueueNewJob cfg a k) s).2 := by
    intro k
    rcases alone_enqueueNewJob cfg a k s with ⟨e, hrun⟩ | ⟨modelInfo, targetKind, hrun⟩
    · rw [hrun]
      exact .of_eq rfl
    · rw [hrun]
      exact hushed_push s _
  unfold enqueueJob
  split
  · exact hnew uuid
  · next requestedJobId _ =>
    rw [alone_bind, alone_getJob]
    dsimp only
    split
    · exact .of_eq rfl
    · exact hnew requestedJobId

/-- **A whole step appends no token and no result.** -/
theorem hushed_apply (cfg : Settings) (m : Move) (s : Redis) : s.Hushed (m.apply cfg s) := by
  rcases m with o | _ | _ | _
  · rcases o with ⟨a, uuid⟩ | _ | _ | _ | _ | _ | ⟨jobId, username⟩ | ⟨jobId, _,
      _⟩ | ⟨jobId, _, _⟩ |
      _ | _ | ⟨jobId, _⟩ | _
    case enqueueJob =>
      rw [apply_enqueueJob]
      exact hushed_enqueueJob s a uuid
    case enqueueChildJobOnce => exact hushed_linked (linked_apply_enqueueChildJobOnce cfg s _ _)
    case getLinkedChildJobId => exact hushed_linked (linked_apply_getLinkedChildJobId cfg s _)
    case tryAdmitJob =>
      rw [apply_tryAdmitJob]
      exact hushed_tryAdmit _ _ _ _
    case claimDispatchJob =>
      rw [apply_claimDispatchJob]
      exact hushed_claimDispatch _ _ _ _ _
    case renewJobLease =>
      rw [apply_renewJobLease]
      exact hushed_renew _ _
    case cancelJob => exact hushed_stopped (stopped_apply_cancelJob cfg s jobId username)
    case markJobCompleted =>
      rw [apply_markJobCompleted]
      split
      · exact .of_eq rfl
      · exact hushed_finish _ _ _ _ rfl _
    case markJobFailed =>
      rw [apply_markJobFailed]
      split
      · exact .of_eq rfl
      · exact hushed_failFrom _ _ _ _
    case markJobCancelled =>
      rw [apply_markJobCancelled]
      exact hushed_cancel _ _ _
    case markJobWaitingOnChild =>
      rw [apply_markJobWaitingOnChild]
      exact hushed_wait _ _ _ _ _ _
    case requeueJobForPending =>
      rw [apply_requeueJobForPending]
      split
      · exact .of_eq rfl
      · exact hushed_requeue _ _ _
    case requeueStaleJobs =>
      rw [apply_requeueStaleJobs]
      exact hushed_reapAll _ _ _
  all_goals exact .of_eq rfl

/-! ### Reports that may be cut short -/

/-- The write appends no token and no result. -/
def Write.IsHushed : Write → Prop
  | .xadd _ event => event.isTalk = false
  | _ => True

/-- Nor does the command. -/
def Cmd.IsHushed : Cmd → Prop
  | .write ws => ∀ w ∈ ws, w.IsHushed
  | _ => True

/-- The program appends no token and no result. -/
abbrev Hush (p : Gw α) : Prop := p.Only Cmd.IsHushed

/-- A transaction of writes none of which says a token. -/
theorem hushed_writes (ws : List Write) (hws : ∀ w ∈ ws, w.IsHushed) (s : Redis) :
    s.Hushed (s.writes ws) := by
  induction ws generalizing s with
  | nil => exact .of_eq rfl
  | cons w ws ih =>
    have hw : s.Hushed (s.write w) := by
      have hhushed := hws w List.mem_cons_self
      cases w
      case xadd jobId event => exact hushed_xadd s jobId hhushed
      all_goals exact .of_eq rfl
    exact hw.trans (ih (fun w' hw' => hws w' (List.mem_cons_of_mem w hw')) (s.write w))

/-- Commands that are no transaction append nothing. -/
theorem hushed_exec {c : Cmd} (hc : c.IsHushed) (s : Redis) : s.Hushed (soloExec c s).2 := by
  cases c
  case write ws => exact hushed_writes ws hc s
  case brpoplpush source destination =>
    refine .of_eq ?_
    show (s.brpoplpush source destination).2.events = s.events
    unfold Redis.brpoplpush
    split <;> rfl
  all_goals exact .of_eq rfl

/-- Wherever such a program stops, no stream has got a token. -/
theorem Hush.throughout {p : Gw α} (h : Hush p) (s : Redis) :
    p.Throughout soloStore 0 s.Hushed s :=
  Program.Only.throughout h (fun _ s₁ hc hs₁ => hs₁.trans (hushed_exec hc s₁)) (.of_eq rfl)

/-- A plain program, if its events are no talk. -/
theorem Hush.of_plain {p : Gw α} (h : Plain (fun event => event.isTalk = false) p) : Hush p := by
  refine h.mono fun c hc => ?_
  cases c
  case write ws =>
    intro w hw
    have hplain := hc w hw
    cases w
    case xadd => exact hplain
    all_goals exact trivial
  all_goals exact trivial

/-- One command. -/
theorem hush_ask {c : Cmd} (hc : c.IsHushed) : Hush (ask c) := Program.only_send hc

/-- A record is no event. -/
theorem hush_saveJob (job : Job) : Hush (saveJob job) :=
  hush_ask fun w hw => by
    rw [List.mem_singleton.mp hw]
    exact trivial

/-- The root gets the event of its child. -/
theorem hush_synthesizeRootTerminalState (child : Job) (status : Status) (stage : LifecycleStage)
    (hevent : event.isTalk = false) :
    Hush (synthesizeRootTerminalState child status stage event) := by
  unfold synthesizeRootTerminalState
  split
  · exact Program.only_pure _
  split
  · exact Program.only_pure _
  refine (hush_ask (c := .get _) trivial).bind ?_
  rintro (_ | rootJob)
  · exact Program.only_pure _
  dsimp only
  split
  · exact Program.only_pure _
  exact (hush_ask (c := .time) trivial).bind fun nowMs => (hush_saveJob _).bind fun _ =>
    Hush.of_plain (plain_appendEvent _ hevent)

/-- Wherever the end of a job is cut short. -/
theorem hush_finishJob (job : Job) (status : Status) (stage : LifecycleStage) {body : EventBody}
    (hbody : (Event.bare body).isTalk = false) (workerId : Option WorkerId) :
    Hush (finishJob job status stage body workerId) :=
  (hush_saveJob job).bind fun _ =>
    (Hush.of_plain (plain_appendEvent job.id hbody)).bind fun _ =>
    (hush_synthesizeRootTerminalState job status stage hbody).bind fun _ =>
    (Hush.of_plain (plain_releaseReservedCapacity job)).bind fun _ =>
    (Hush.of_plain (plain_removeFromProcessing _ job.id)).bind fun _ =>
    Hush.of_plain (plain_write (w := .zrem job.id) trivial)

/-- The text of the answer goes to the record, and the event only says that it is done. -/
theorem hush_markJobCompleted (jobId : JobId) (responseText : Text) (workerId : Option WorkerId) :
    Hush (markJobCompleted jobId responseText workerId) := by
  refine (hush_ask (c := .get jobId) trivial).bind ?_
  rintro (_ | job)
  · exact Program.only_pure _
  · exact (hush_ask (c := .time) trivial).bind fun _ => hush_finishJob _ _ _ rfl _

/-- A worker that reports a failure says no token. -/
theorem hush_markJobFailed (jobId : JobId) (errorText : Text) (workerId : Option WorkerId) :
    Hush (markJobFailed jobId errorText workerId) := by
  refine (hush_ask (c := .get jobId) trivial).bind ?_
  rintro (_ | job)
  · exact Program.only_pure _
  · exact (hush_ask (c := .time) trivial).bind fun _ => hush_finishJob _ _ _ rfl _

/-- A worker that reports a cancel says no token. -/
theorem hush_markJobCancelled (jobId : JobId) (workerId : Option WorkerId) :
    Hush (markJobCancelled jobId workerId) := by
  refine (hush_ask (c := .get jobId) trivial).bind ?_
  rintro (_ | job)
  · exact Program.only_pure _
  dsimp only
  split
  · exact Program.only_pure _
  · exact (hush_ask (c := .time) trivial).bind fun _ => hush_finishJob _ _ _ rfl _

/-- The record is looked at. -/
theorem hush_isCancelRequested (jobId : JobId) : Hush (isCancelRequested jobId) :=
  (hush_ask (c := .get jobId) trivial).bind fun _ => Program.only_pure _

/-! ### Telling -/

/-- The stream of the job is continued by the event. -/
theorem Redis.events_emit_self (s : Redis) (jobId : JobId) (event : Event) :
    (s.emit jobId event).events jobId = s.events jobId ++ [event] := by
  unfold Redis.emit
  split
  · rw [Redis.events_xadd, if_pos rfl]
  · rcases hroot : s.distinctRoot jobId with _ | rootJobId
    · dsimp only
      rw [Redis.events_xadd, if_pos rfl]
    · have hne : jobId ≠ rootJobId := by
        obtain ⟨job, -, hfilter⟩ := Option.bind_eq_some_iff.mp hroot
        have hne : rootJobId ≠ jobId := by simpa using (Option.filter_eq_some_iff.mp hfilter).2
        exact hne.symm
      dsimp only
      rw [Redis.events_xadd, if_neg hne, Redis.events_xadd, if_pos rfl]

/-- **What `emit_event` writes to**, where it is cut short: the stream of the job and that of its
root. -/
theorem events_cut_emitEvent (jobId : JobId) (event : Event) (s : Redis) :
    (emitEvent jobId event).Throughout soloStore 0
      (fun s' => ∀ k, k ≠ jobId → s.distinctRoot jobId ≠ some k → s'.events k = s.events k) s := by
  have hself : ∀ k, k ≠ jobId → s.distinctRoot jobId ≠ some k →
      (s.xadd jobId event).events k = s.events k := fun k hk _ => by
    rw [Redis.events_xadd, if_neg hk]
  refine Program.Throughout.bind (Program.throughout_send (fun _ _ _ => rfl) hself) ?_
  show Program.Throughout soloStore 0 _ _ (s.xadd jobId event)
  split
  · exact Program.throughout_pure _ hself
  -- Finding the root writes nothing.
  have hread : (getDistinctRootJobId jobId).Only fun c => ∃ k, c = Cmd.get k := by
    refine (Program.only_send ⟨jobId, rfl⟩).bind ?_
    rintro (_ | job)
    · exact Program.only_pure _
    · dsimp only
      split <;> exact Program.only_pure _
  refine Program.Throughout.bind (hread.throughout ?_ hself) ?_
  · rintro _ s' ⟨k, rfl⟩ hs'
    exact hs'
  have hrun : (getDistinctRootJobId jobId).run soloStore 0 (s.xadd jobId event) =
      (s.distinctRoot jobId, s.xadd jobId event) := alone_getDistinctRootJobId jobId _
  rw [hrun]
  dsimp only
  rcases hroot : s.distinctRoot jobId with _ | rootJobId
  · rw [hroot] at hself
    exact Program.throughout_pure _ hself
  · rw [hroot] at hself
    refine Program.throughout_send hself fun k hk hne => ?_
    show ((s.xadd jobId event).xadd rootJobId _).events k = s.events k
    rw [Redis.events_xadd, if_neg fun h => hne (congrArg some h.symm), hself k hk hne]

end Gateway

end AiAgent

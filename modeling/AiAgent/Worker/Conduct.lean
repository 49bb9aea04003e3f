import AiAgent.Worker.Process

/-!
# What a worker may still do for its job

Between two calls of `process_job` the others may do anything, so what can be said of a worker is
how far it is with its job (`AiAgent.Worker.Post`) and which calls that permits
(`AiAgent.Worker.conduct`):

* it appends an answer as long as it has appended none, and again once a call has raised;
* it reports a job completed only after it has appended the text it reports, and that text is what
  it has emitted;
* it never reports or emits for another job than the one it has claimed;
* a handler enqueues jobs without a root, under the ids that are made up for them.

Every duty is carried out so (`AiAgent.Worker.obeys_duty`).
-/

namespace AiAgent

namespace Worker

open Command Gateway

/-! ### Posts -/

/-- How far a process is with the job it has. -/
inductive Post where
  /-- It has no job, or nothing is left to do for it. -/
  | free
  /-- It has appended nothing yet; what it has emitted is noted. -/
  | trying (job : Job) (told : Text) (result : Option Text)
  /-- It has appended the text. -/
  | replied (job : Job) (text told : Text) (result : Option Text)
  /-- A call has raised. -/
  | lost (job : Job)
  /-- It has appended a text after a call had raised. -/
  | closing (job : Job)

namespace Post

/-- The job. -/
def job? : Post → Option Job
  | .free => none
  | .trying job _ _ | .replied job _ _ _ | .lost job | .closing job => some job

/-- An answer may be appended. -/
def CanReply (job : Job) : Post → Prop
  | .trying job' _ _ | .lost job' => job' = job
  | _ => False

theorem CanReply.job? {job : Job} {t : Post} (h : t.CanReply job) : t.job? = some job := by
  rcases t with _ | _ | _ | _ | _
  case trying => exact congrArg some h
  case lost => exact congrArg some h
  all_goals exact h.elim

/-- A text was appended. -/
def reply (text : Text) : Post → Post
  | .trying job told result => .replied job text told result
  | .lost job => .closing job
  | t => t

/-- A call has raised. -/
def fail : Post → Post
  | .trying job _ _ | .replied job _ _ _ => .lost job
  | t => t

/-- An event was emitted. -/
def emit (event : Event) : Post → Post
  | .trying job told result =>
    match event.body with
    | .token text => .trying job (told ++ text) result
    | .result text => .trying job told (some text)
    | _ => .trying job told result
  | t => t

/-- A call that may raise has returned or raised. -/
def raised {α : Type} (t : Post) (r : Except Failure α) (next : Post) : Post :=
  match r with
  | .ok _ => next
  | .error _ => t.fail

/-- The post after a call. -/
def next (t : Post) : (c : Call) → c.Reply → Post
  | .claimDispatchJob .., some job =>
    if job.jobKind = .parse then .free else .trying job [] none
  | .isCancelRequested _, r => t.raised r t
  | .emitEvent _ event, r => t.raised r (t.emit event)
  | .appendMessage m, r =>
    if m.role = .user then t else t.raised r (t.reply m.content)
  | .markJobCompleted .., r | .markJobCancelled .., r => t.raised r .free
  | .markJobFailed .., _ => .free
  | _, _ => t

end Post

/-- The job that a call hands out. -/
def Call.hands : (c : Call) → c.Reply → Option Job
  | .claimDispatchJob .., some job => if job.jobKind = .parse then none else some job
  | _, _ => none

/-- The job that a process gets by what it does. -/
def handed : Act deskSig Unit → Option Job
  | .command c r => c.hands r
  | _ => none

/-- After a call a process has the job it had, or the one it was handed, or none. -/
theorem Post.job?_next {t : Post} {c : Call} {r : c.Reply} {job : Job}
    (h : (t.next c r).job? = some job) : t.job? = some job ∨ c.hands r = some job := by
  -- Where a call raises, the worker is left with the job it had.
  have hfail : ∀ {α : Type} (r : Except Failure α) (t' : Post),
      (t'.job? = some job → t.job? = some job) → (t.raised r t').job? = some job →
        t.job? = some job := by
    intro α r t' ht' hraised
    rcases r with e | a
    · rcases t with _ | _ | _ | _ | _ <;> exact hraised
    · exact ht' hraised
  rcases c with _ | _ | _ | _ | _ | ⟨jobId, event⟩ | m | _ | _ | _
  case claimDispatchJob =>
    rcases r with _ | job'
    · exact .inl h
    · refine .inr ?_
      dsimp only [Post.next] at h
      dsimp only [Call.hands]
      split at h
      · cases h
      · next hkind => rwa [if_neg hkind]
  case isCancelRequested => exact .inl (hfail r t id h)
  case emitEvent =>
    refine .inl (hfail r (t.emit event) (fun hemit => ?_) h)
    rcases t with _ | ⟨job', told, result⟩ | _ | _ | _
    case trying =>
      unfold Post.emit at hemit
      dsimp only at hemit
      split at hemit <;> exact hemit
    all_goals exact hemit
  case appendMessage =>
    dsimp only [Post.next] at h
    split at h
    · exact .inl h
    · refine .inl (hfail r (t.reply m.content) (fun hreply => ?_) h)
      rcases t with _ | _ | _ | _ | _ <;> exact hreply
  case markJobCompleted => exact .inl (hfail r .free (fun h => by cases h) h)
  case markJobCancelled => exact .inl (hfail r .free (fun h => by cases h) h)
  case markJobFailed => cases h
  all_goals exact .inl h

/-- The answer comes as one result event. -/
def suppresses (job : Job) : Bool := (fileChatOf job).any FileChat.suppressTokenStream

/-- The text that is reported is what was emitted. -/
structure Faithful (job : Job) (text output told : Text) (result : Option Text) : Prop where
  /-- A job that is no file chat: every token was emitted. -/
  tokens : fileChatOf job = none → told = output ∧ text = answerText output
  /-- A file chat whose tokens are suppressed: the text was. -/
  whole : suppresses job = true → result = some text

/-- **The discipline of a process.** -/
def conduct : Discipline deskSig Post where
  may t c := match c with
    | .move _ | .claimDispatchJob .. => t = .free
    | .enqueueJob a _ => t = .free ∧ a.jobIdOverride = none ∧ a.rootJobId = none
    | .appendMessage m => m.role = .user ∨ ∃ job, t.CanReply job ∧ m = replyTo job m.content
    | .emitEvent jobId event => ∃ job told result, t = .trying job told result ∧ jobId = job.id ∧
        ∃ text, (event = Event.bare (.token text) ∧ suppresses job = false) ∨
          event = Event.bare (.result text)
    | .markJobCompleted jobId text _ output => ∃ job told result,
        t = .replied job text told result ∧ jobId = job.id ∧ Faithful job text output told result
    | .markJobFailed jobId _ _ | .markJobCancelled jobId _ =>
        ∃ job, t.job? = some job ∧ jobId = job.id
    | _ => True
  after t c r t' := t' = t.next c r

/-! ### The model -/

section Model

variable {job : Job} {told : Text} {result : Option Text} {emitTokens : Bool}

/-- What the worker has emitted of a text. -/
def emitted (emitTokens : Bool) (text : Text) : Text := if emitTokens = true then text else []

theorem emitted_append (emitTokens : Bool) (text text' : Text) :
    emitted emitTokens (text ++ text') = emitted emitTokens text ++ emitted emitTokens text' := by
  unfold emitted
  split <;> rfl

/-- How a part of the `try` block ends: it returns and the worker is still at its post, or it raises
and the worker may append another answer. -/
def Ends {α : Type} (job : Job) (Q : α → Text → Option Text → Prop) : Except Failure α → Post → Prop
  | .ok a, t => ∃ told result, t = .trying job told result ∧ Q a told result
  | .error _, t => t.CanReply job

/-- A part of the `try` block ends so, from this post on. -/
abbrev Tries {α : Type} (job : Job) (told : Text) (result : Option Text) (x : Attempt α)
    (Q : α → Text → Option Text → Prop) : Prop :=
  x.run.Obeys conduct (Ends job Q) (.trying job told result)

variable {α β : Type}

theorem tries_pure (a : α) {Q : α → Text → Option Text → Prop} (h : Q a told result) :
    Tries job told result (pure a) Q := ⟨told, result, rfl, h⟩

theorem tries_throw (e : Failure) (Q : α → Text → Option Text → Prop) :
    Tries job told result (throw e : Attempt α) Q :=
  (rfl : (Post.trying job told result).CanReply job)

/-- **One part of the `try` block after another**: an exception ends both. -/
theorem Tries.bind {x : Attempt α} {f : α → Attempt β} {Q : α → Text → Option Text → Prop}
    {Q' : β → Text → Option Text → Prop} (h : Tries job told result x Q)
    (hf : ∀ a told result, Q a told result → Tries job told result (f a) Q') :
    Tries job told result (x >>= f) Q' := by
  unfold Tries
  rw [ExceptT.run_bind]
  refine Program.Obeys.bind h ?_
  rintro (e | a) t' ht'
  · exact ht'
  · obtain ⟨told', result', rfl, ha⟩ := ht'
    exact hf a told' result' ha

theorem tries_isCancelRequested (jobId : JobId) :
    Tries job told result (ExceptT.mk (call (.isCancelRequested jobId)))
      fun _ told' result' => told' = told ∧ result' = result := by
  refine ⟨trivial, ?_⟩
  rintro (e | requested) t' rfl
  · exact rfl
  · exact ⟨told, result, rfl, rfl, rfl⟩

theorem tries_time : Tries job told result (ExceptT.lift (call .time))
    fun _ told' result' => told' = told ∧ result' = result := by
  refine ⟨trivial, ?_⟩
  rintro nowMs t' rfl
  exact ⟨told, result, rfl, rfl, rfl⟩

theorem tries_raiseIfAny (e : Option Failure) :
    Tries job told result (raiseIfAny e) fun _ told' result' => told' = told ∧
      result' = result := by
  rcases e with _ | e
  · exact tries_pure () ⟨rfl, rfl⟩
  · exact tries_throw e _

theorem tries_emitToken (hemit : emitTokens = true → suppresses job = false) (token : Text) :
    Tries job told result (emitToken job.id emitTokens token)
      fun _ told' result' => told' = told ++ emitted emitTokens token ∧ result' = result := by
  unfold emitToken
  split
  · next hemits =>
    obtain ⟨-, rfl⟩ := hemits
    refine ⟨⟨job, told, result, rfl, rfl, token, .inl ⟨rfl, hemit rfl⟩⟩, ?_⟩
    rintro (e | _) t' rfl
    · exact rfl
    · exact ⟨_, _, rfl, rfl, rfl⟩
  · next hemits =>
    refine tries_pure () ⟨?_, rfl⟩
    -- Either there is nothing to emit, or nothing is emitted.
    rcases eq_or_ne token [] with rfl | htoken
    · simp [emitted]
    · have hquiet : emitTokens ≠ true := fun htrue => hemits ⟨htoken, htrue⟩
      simp [emitted, hquiet]

theorem tries_readLine (hemit : emitTokens = true → suppresses job = false) (deadlineAt : ℕ)
    (line : OllamaLine) :
    Tries job told result (readLine job.id deadlineAt emitTokens line)
      fun read told' result' => told' = told ++ emitted emitTokens read.1 ∧ result' = result := by
  unfold readLine
  split
  · exact tries_pure _ ⟨by simp [emitted], rfl⟩
  refine tries_time.bind ?_
  rintro nowMs _ _ ⟨rfl, rfl⟩
  split
  · exact tries_throw .deadlineExceeded _
  refine (tries_isCancelRequested job.id).bind ?_
  rintro requested told' result' ⟨rfl, rfl⟩
  split
  · exact tries_throw .cancelledByUser _
  split
  · next token done _ =>
    refine (tries_emitToken hemit token).bind ?_
    rintro _ told' result' ⟨rfl, rfl⟩
    exact tries_pure _ ⟨rfl, rfl⟩
  · exact tries_throw .other _

theorem tries_readLines (hemit : emitTokens = true → suppresses job = false) (deadlineAt : ℕ)
    (lines : List OllamaLine) (assistantText : Text) :
    Tries job told result (readLines job.id deadlineAt emitTokens lines assistantText)
      fun output told' result' => ∃ more, output = assistantText ++ more ∧
        told' = told ++ emitted emitTokens more ∧ result' = result := by
  induction lines generalizing assistantText told with
  | nil =>
    refine tries_pure _ ⟨[], ?_, ?_, rfl⟩
    · rw [List.append_nil]
    · simp [emitted]
  | cons line lines ih =>
    refine (tries_readLine hemit deadlineAt line).bind ?_
    rintro ⟨token, done⟩ told' result' ⟨rfl, rfl⟩
    dsimp only
    split
    · exact tries_pure _ ⟨token, rfl, rfl, rfl⟩
    · refine Program.Obeys.mono (ih (assistantText ++ token)) ?_
      rintro (e | output) t' ht'
      · exact ht'
      · obtain ⟨told', result', rfl, more, rfl, rfl, rfl⟩ := ht'
        refine ⟨_, _, rfl, token ++ more, ?_, ?_, rfl⟩
        · rw [List.append_assoc]
        · rw [emitted_append, List.append_assoc]

theorem tries_runGeneration (hemit : emitTokens = true → suppresses job = false) (deadlineAt : ℕ)
    (stream : OllamaStream) :
    Tries job told result (runGeneration job.id deadlineAt emitTokens stream)
      fun answer told' result' => answer.1 = answerText answer.2 ∧
        told' = told ++ emitted emitTokens answer.2 ∧ result' = result := by
  refine (tries_raiseIfAny stream.opening).bind ?_
  rintro _ _ _ ⟨rfl, rfl⟩
  refine (tries_readLines hemit deadlineAt stream.lines []).bind ?_
  rintro _ _ _ ⟨output, rfl, rfl, rfl⟩
  refine (tries_raiseIfAny stream.ending).bind ?_
  rintro _ _ _ ⟨rfl, rfl⟩
  exact tries_pure _ ⟨rfl, rfl, rfl⟩

end Model

/-! ### The job -/

section Process

variable {lowerCase : Text → Text} {job : Job} {told : Text} {result : Option Text}

theorem tries_retryFileChat (fileChat : FileChat) (retry : OllamaStream) (first : Text × Text) :
    Tries job told result (retryFileChat lowerCase job fileChat retry first)
      fun _ _ _ => True := by
  unfold retryFileChat
  split
  · have hquiet : false = true → suppresses job = false := fun h => absurd h Bool.false_ne_true
    refine (tries_runGeneration hquiet job.deadlineAt retry).mono ?_
    rintro (e | answer) t' ht'
    · exact ht'
    · obtain ⟨told', result', rfl, -⟩ := ht'
      exact ⟨told', result', rfl, trivial⟩
  · exact tries_pure _ trivial

theorem tries_emitResult (fileChat : FileChat) (text : Text) :
    Tries job told result (emitResult job.id fileChat text)
      fun _ _ result' => fileChat.suppressTokenStream = true → result' = some text := by
  unfold emitResult
  split
  · refine ⟨⟨job, told, result, rfl, rfl, text, .inr rfl⟩, ?_⟩
    rintro (e | _) t' rfl
    · exact rfl
    · exact ⟨_, _, rfl, fun _ => rfl⟩
  · next hquiet => exact tries_pure _ fun hsuppresses => absurd hsuppresses hquiet

theorem tries_runFileChatJob {fileChat : FileChat} (hfileChat : fileChatOf job = some fileChat)
    (first retry : OllamaStream) :
    Tries job told result (runFileChatJob lowerCase job fileChat first retry)
      fun answer told' result' => Faithful job answer.1 answer.2 told' result' := by
  have hsuppresses : suppresses job = fileChat.suppressTokenStream := by
    rw [suppresses, hfileChat]
    rfl
  refine (tries_runGeneration ?_ job.deadlineAt first).bind fun answer _ _ _ => ?_
  · intro hemits
    rw [hsuppresses]
    simpa using hemits
  refine (tries_retryFileChat fileChat retry answer).bind fun answer _ _ _ => ?_
  refine (tries_emitResult fileChat _).bind fun _ _ _ hwhole => tries_pure _ ⟨fun hnone => ?_, ?_⟩
  · rw [hfileChat] at hnone
    cases hnone
  · rw [hsuppresses]
    exact hwhole

theorem tries_answerJob (first retry : OllamaStream) :
    Tries job [] none (answerJob lowerCase job first retry)
      fun answer told' result' => Faithful job answer.1 answer.2 told' result' := by
  unfold answerJob
  split
  · next fileChat hfileChat => exact tries_runFileChatJob hfileChat first retry
  · next hnone =>
    have hquiet : suppresses job = false := by rw [suppresses, hnone]; rfl
    refine (tries_runGeneration (fun _ => hquiet) job.deadlineAt first).mono ?_
    rintro (e | answer) t' ht'
    · exact ht'
    · obtain ⟨told', result', rfl, htext, rfl, rfl⟩ := ht'
      refine ⟨_, _, rfl, fun _ => ⟨rfl, htext⟩, fun hsuppresses => ?_⟩
      rw [hquiet] at hsuppresses
      cases hsuppresses

/-- The `try` block, which leaves nothing to do or raises. -/
theorem obeys_tryProcess (workerId : WorkerId) (first retry : OllamaStream) :
    (tryProcess lowerCase workerId job first retry).run.Obeys conduct
      (fun r t => ∀ e, r = .error e → t.CanReply job) (.trying job [] none) := by
  unfold tryProcess
  rw [ExceptT.run_bind]
  refine Program.Obeys.bind (tries_isCancelRequested job.id) ?_
  rintro (e | requested) t ht
  · rintro _ ⟨⟩
    exact ht
  obtain ⟨told, result, rfl, rfl, rfl⟩ := ht
  dsimp only
  split
  · rw [ExceptT.run_bind]
    refine ⟨.inr ⟨job, rfl, rfl⟩, ?_⟩
    rintro (e | _) t rfl
    · rintro _ ⟨⟩
      exact rfl
    refine ⟨⟨job, rfl, rfl⟩, ?_⟩
    rintro (e | _) t rfl _ ⟨⟩
    exact rfl
  · rw [ExceptT.run_bind]
    refine Program.Obeys.bind (tries_answerJob first retry) ?_
    rintro (e | answer) t ht
    · rintro _ ⟨⟩
      exact ht
    obtain ⟨told, result, rfl, hfaithful⟩ := ht
    dsimp only
    rw [ExceptT.run_bind]
    refine ⟨.inr ⟨job, rfl, rfl⟩, ?_⟩
    rintro (e | _) t rfl
    · rintro _ ⟨⟩
      exact rfl
    refine ⟨⟨job, told, result, rfl, rfl, hfaithful⟩, ?_⟩
    rintro (e | _) t rfl _ ⟨⟩
    exact rfl

/-- The `except` clauses. -/
theorem obeys_handleFailure (workerId : WorkerId) {t : Post} (ht : t.CanReply job) (e : Failure) :
    (handleFailure workerId job e).run.Obeys conduct (fun _ _ => True) t := by
  have hreplied : ∀ text,
      ((t.next (.appendMessage (replyTo job text)) (.ok ())).job? = some job) := by
    intro text
    rcases t with _ | _ | _ | _ | _
    case trying => exact congrArg some ht
    case lost => exact congrArg some ht
    all_goals exact ht.elim
  have hfails : ∀ text, (do
      ExceptT.mk (call (.appendMessage (replyTo job text)))
      ExceptT.mk (call (.markJobFailed job.id text workerId)) : Attempt Unit).run.Obeys conduct
        (fun _ _ => True) t := by
    intro text
    rw [ExceptT.run_bind]
    refine ⟨.inr ⟨job, ht, rfl⟩, ?_⟩
    rintro (e | _) t' rfl
    · exact trivial
    · exact ⟨⟨job, hreplied text, rfl⟩, fun _ _ _ => trivial⟩
  rcases e with _ | _ | modelName | _ | _ | _
  case deadlineExceeded => exact ⟨⟨job, ht.job?, rfl⟩, fun _ _ _ => trivial⟩
  case cancelledByUser =>
    unfold handleFailure
    rw [ExceptT.run_bind]
    refine ⟨.inr ⟨job, ht, rfl⟩, ?_⟩
    rintro (e | _) t' rfl
    · exact trivial
    · exact ⟨⟨job, hreplied cancelledText, rfl⟩, fun _ _ _ => trivial⟩
  all_goals exact hfails _

theorem obeys_processJob (workerId : WorkerId) (first retry : OllamaStream)
    (hkind : job.jobKind ≠ .parse) :
    (processJob lowerCase workerId job first retry).run.Obeys conduct (fun _ _ => True)
      (.trying job [] none) := by
  unfold processJob
  rw [if_neg hkind]
  refine Program.Obeys.bind (obeys_tryProcess workerId first retry) ?_
  rintro (e | _) t ht
  · exact obeys_handleFailure workerId (ht e rfl) e
  · exact trivial

/-- A worker that serves a job. -/
theorem obeys_serve (workerId : WorkerId) (workerPool : WorkerPool) (targetId : TargetId)
    (expectedTargetKind : Option Text) (first retry : OllamaStream) :
    (serve lowerCase workerId workerPool targetId expectedTargetKind first retry).Obeys conduct
      (fun _ _ => True) .free := by
  refine Program.Obeys.bind (Q := fun r t => t = Post.free.next
    (.claimDispatchJob workerId workerPool targetId expectedTargetKind) r)
    ⟨rfl, fun _ _ h => h⟩ ?_
  rintro (_ | job) t rfl
  · exact trivial
  dsimp only [Post.next]
  by_cases hkind : job.jobKind = .parse
  · rw [if_pos hkind]
    refine Program.Obeys.bind (Q := fun _ _ => True) ?_ fun _ _ _ => trivial
    unfold processJob
    rw [if_pos hkind]
    exact trivial
  · rw [if_neg hkind]
    exact Program.Obeys.bind (obeys_processJob workerId first retry hkind) fun _ _ _ => trivial

end Process

/-! ### The handlers -/

theorem obeys_enqueueAndAppend {a : EnqueueArgs} (hown : a.jobIdOverride = none)
    (hroot : a.rootJobId = none) (uuid : JobId) (content : Text) :
    (enqueueAndAppend a uuid content).Obeys conduct (fun _ _ => True) .free := by
  refine ⟨⟨rfl, hown, hroot⟩, ?_⟩
  rintro (e | jobId) t rfl
  · exact trivial
  · exact ⟨.inl rfl, fun _ _ _ => trivial⟩

/-- **Every duty is carried out by the discipline.** -/
theorem obeys_duty (lowerCase : Text → Text) (duty : Duty) :
    (duty.body lowerCase).Obeys conduct (fun _ _ => True) .free := by
  have hhandler : ∀ p : Clerk (Except GatewayError JobId), p.Obeys conduct (fun _ _ => True) .free →
      (do let _ ← p : Clerk Unit).Obeys conduct (fun _ _ => True) .free := fun p hp =>
    Program.Obeys.bind hp fun _ _ _ => trivial
  rcases duty with ⟨q, uuid⟩ | ⟨q, uuid⟩ | ⟨q, uuid⟩ | _ | m
  · exact hhandler _ (obeys_enqueueAndAppend rfl rfl uuid q.prompt)
  · exact hhandler _ (obeys_enqueueAndAppend rfl rfl uuid q.historyEntry)
  · exact hhandler _ (obeys_enqueueAndAppend rfl rfl uuid q.historyEntry)
  · exact obeys_serve _ _ _ _ _ _
  · exact ⟨rfl, fun _ _ _ => trivial⟩

end Worker

end AiAgent

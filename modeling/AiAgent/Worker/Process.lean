import AiAgent.Chat.FileChat
import AiAgent.Command.Cut
import AiAgent.Command.Interleave
import AiAgent.Gateway.Moves

/-!
# Answering a chat job

`LLMWorker.process_job` runs the model for a claimed job, appends the answer to the conversation and
reports the end of the job; five `except` clauses append another answer and report another end. The
question was appended by the request handler that had enqueued the job.

Here every call to the gateway or to the conversation store is one step, so handlers, schedulers and
workers are programs on a state of their own (`AiAgent.Worker.Desk`): the control plane's Redis, and
what was appended to the conversations. A call of `process_job` may raise, after any number of the
commands it is made of (`AiAgent.Worker.Fault`): which calls do is given by the state the run starts
from. A worker may also die between any two calls.

What the model answers is an argument (`AiAgent.Worker.OllamaStream`). A parse job is handed to
`_process_parser_job` (`AiAgent.Worker.processParserJob`); whatever that and the other processes do
to the Redis is a step of theirs (`AiAgent.Worker.Duty.control`).
-/

namespace AiAgent

namespace Worker

open Command Gateway

/-! ### Conversations -/

/-- `role`, as far as it is written here. -/
inductive Role where
  | user | assistant
  deriving DecidableEq, Repr

/-- A message that was appended to a conversation. The job it was appended for, and the job its
request was enqueued as, are noted; the store does not know them. -/
structure Remark where
  /-- `username`. -/
  username : String
  /-- The thread, normalized. -/
  threadId : Text
  /-- `role`. -/
  role : Role
  /-- `content`. -/
  content : Text
  /-- The job it was appended for. -/
  jobId : JobId
  /-- The job the request was enqueued as. -/
  requestId : JobId
  deriving DecidableEq, Repr

/-- The job that the request of a job was enqueued as: a child's is its root. -/
def requestOf (job : Job) : JobId := job.rootJobId.getD job.id

/-- `resolve_job_thread_id`. The thread id inside `file_chat` is not looked at, for `enqueue_job`
leaves none blank. -/
def resolveJobThreadId (job : Job) : Text := Gateway.normalizeThreadId (some job.threadId)

/-- What `process_job` appends. -/
def replyTo (job : Job) (content : Text) : Remark where
  username := job.username
  threadId := resolveJobThreadId job
  role := .assistant
  content := content
  jobId := job.id
  requestId := requestOf job

/-! ### Failures -/

/-- What ends the `try` block of `process_job` early. -/
inductive Failure where
  /-- `JobCancelledByUser`. -/
  | cancelledByUser
  /-- `JobDeadlineExceeded`. -/
  | deadlineExceeded
  /-- `OllamaModelNotFoundError`. -/
  | modelNotFound (modelName : String)
  /-- `NoLLMModelsAvailableError`. -/
  | noModels
  /-- `TimeoutError`. -/
  | timeout
  /-- Any other `Exception`. -/
  | other
  deriving DecidableEq, Repr

/-- A call that raises, once some of the commands it is made of were issued. -/
structure Fault where
  /-- How many were. -/
  after : ℕ
  /-- It raises `TimeoutError`. -/
  timedOut : Bool

/-- What it raises. -/
def Fault.failure (fault : Fault) : Failure := if fault.timedOut then .timeout else .other

/-! ### The state -/

/-- What handlers and workers share. -/
structure Desk where
  /-- The control plane. -/
  redis : Redis
  /-- What was appended to the conversations, oldest first. -/
  said : List Remark
  /-- What the model gave in the execution that last reported a job completed. -/
  outputs : JobId → Text
  /-- Which of the calls that are still to come raise, the next one first. -/
  faults : List (Option Fault)

/-- It is the question of a request. -/
def Remark.asks (r : Remark) (requestId : JobId) : Bool :=
  r.role = .user && r.requestId = requestId

namespace Desk

variable {α : Type} (d : Desk)

/-- What was appended to a thread. -/
def thread (username : String) (threadId : Text) : List Remark :=
  d.said.filter fun r => r.username = username ∧ r.threadId = threadId

/-- What is stored of a thread: every append cuts it down to its last messages. -/
def history (username : String) (threadId : Text) : List Remark :=
  Chat.recent (d.thread username threadId)

/-- What was cut off a thread. -/
def forgotten (username : String) (threadId : Text) : List Remark :=
  (d.thread username threadId).take ((d.thread username threadId).length - Chat.maxHistory)

/-- The answers that were appended for a job. -/
def replies (jobId : JobId) : List Text :=
  (d.said.filter fun r => r.role = .assistant ∧ r.jobId = jobId).map Remark.content

/-- A message is appended. -/
def tell (r : Remark) : Desk := { d with said := d.said ++ [r] }

/-- A call to the gateway. -/
def callGateway (p : Gw α) : Except Failure α × Desk :=
  match d.faults with
  | some fault :: faults =>
    (.error fault.failure,
      { d with redis := p.cut soloStore 0 fault.after d.redis, faults := faults })
  | faults => (.ok (alone p d.redis).1,
      { d with redis := (alone p d.redis).2, faults := faults.tail })

/-- `append_message`: a call that raises may have appended the message before. -/
def callStore (r : Remark) : Except Failure Unit × Desk :=
  match d.faults with
  | some fault :: faults =>
    (.error fault.failure,
      if fault.after = 0 then { d with faults := faults } else { d.tell r with faults := faults })
  | faults => (.ok (), { d.tell r with faults := faults.tail })

theorem said_callGateway (p : Gw α) : (d.callGateway p).2.said = d.said := by
  unfold callGateway
  split <;> rfl

/-- A message is appended, unless the call raises before. -/
theorem said_callStore (r : Remark) : (d.callStore r).2.said = d.said ++ [r] ∨
    (d.callStore r).2.said = d.said ∧ ∃ e, (d.callStore r).1 = .error e := by
  unfold callStore
  split
  · next fault faults _ =>
    by_cases hafter : fault.after = 0
    · refine .inr ⟨?_, fault.failure, rfl⟩
      rw [if_pos hafter]
    · refine .inl ?_
      rw [if_neg hafter]
      rfl
  · exact .inl rfl

end Desk

/-- A call. -/
inductive Call where
  /-- A whole step of another process, or of the world around. -/
  | move (m : Move)
  /-- `claim_dispatch_job`. -/
  | claimDispatchJob (workerId : WorkerId) (workerPool : WorkerPool) (targetId : TargetId)
      (expectedTargetKind : Option Text)
  /-- `enqueue_job`. -/
  | enqueueJob (a : EnqueueArgs) (uuid : JobId)
  /-- The time in milliseconds. -/
  | time
  /-- `is_cancel_requested`. -/
  | isCancelRequested (jobId : JobId)
  /-- `emit_event`. -/
  | emitEvent (jobId : JobId) (event : Event)
  /-- `append_message` of the conversation store. -/
  | appendMessage (r : Remark)
  /-- `mark_job_completed`; what the model gave is noted. -/
  | markJobCompleted (jobId : JobId) (responseText : Text) (workerId : WorkerId) (output : Text)
  /-- `mark_job_failed`. -/
  | markJobFailed (jobId : JobId) (errorText : Text) (workerId : WorkerId)
  /-- `mark_job_cancelled`. -/
  | markJobCancelled (jobId : JobId) (workerId : WorkerId)

/-- What a call is answered by. -/
abbrev Call.Reply : Call → Type
  | .move _ => Unit
  | .claimDispatchJob .. => Option Job
  | .enqueueJob .. => Except GatewayError JobId
  | .time => ℕ
  | .isCancelRequested _ => Except Failure Bool
  | .emitEvent .. | .appendMessage _ | .markJobCompleted .. | .markJobFailed ..
  | .markJobCancelled .. => Except Failure Unit

/-- The calls. -/
abbrev deskSig : Signature := ⟨Call, Call.Reply⟩

/-- What a call answers and does. -/
def Call.exec (cfg : Settings) : (c : Call) → Desk → c.Reply × Desk
  | .move m, d => ((), { d with redis := m.apply cfg d.redis })
  | .claimDispatchJob workerId workerPool targetId expectedTargetKind, d =>
    let claimed :=
      alone (Gateway.claimDispatchJob cfg workerId workerPool targetId expectedTargetKind) d.redis
    (claimed.1, { d with redis := claimed.2 })
  | .enqueueJob a uuid, d =>
    let enqueued := alone (Gateway.enqueueJob cfg a uuid) d.redis
    (enqueued.1, { d with redis := enqueued.2 })
  | .time, d => (d.redis.clockMs, d)
  | .isCancelRequested jobId, d => d.callGateway (Gateway.isCancelRequested jobId)
  | .emitEvent jobId event, d => d.callGateway (Gateway.emitEvent jobId event)
  | .appendMessage r, d => d.callStore r
  | .markJobCompleted jobId responseText workerId output, d =>
    let marked := d.callGateway (Gateway.markJobCompleted jobId responseText (some workerId))
    (marked.1, { marked.2 with outputs := Function.update marked.2.outputs jobId output })
  | .markJobFailed jobId errorText workerId, d =>
    d.callGateway (Gateway.markJobFailed jobId errorText (some workerId))
  | .markJobCancelled jobId workerId, d =>
    d.callGateway (Gateway.markJobCancelled jobId (some workerId))

/-- The state with its calls. No call waits. -/
def deskStore (cfg : Settings) : Store deskSig Desk where
  exec := fun _ c d => c.exec cfg d
  ready := fun _ _ => True
  drop := fun _ d => d

/-- Only `append_message` appends a message. -/
theorem said_exec (cfg : Settings) (c : Call) (d : Desk) :
    (c.exec cfg d).2.said = d.said ∨
      ∃ r, c = .appendMessage r ∧ (c.exec cfg d).2.said = d.said ++ [r] := by
  rcases c with _ | _ | _ | _ | _ | _ | r | _ | _ | _
  case appendMessage =>
    rcases d.said_callStore r with htold | ⟨hsame, -⟩
    · exact .inr ⟨r, rfl, htold⟩
    · exact .inl hsame
  case isCancelRequested => exact .inl (d.said_callGateway _)
  case emitEvent => exact .inl (d.said_callGateway _)
  case markJobCompleted => exact .inl (d.said_callGateway _)
  case markJobFailed => exact .inl (d.said_callGateway _)
  case markJobCancelled => exact .inl (d.said_callGateway _)
  all_goals exact .inl rfl

/-- A program on the desk. -/
abbrev Clerk := Program deskSig

/-- Make a call. -/
abbrev call (c : Call) : Clerk c.Reply := Program.send (S := deskSig) c

/-- A program that may raise. -/
abbrev Attempt := ExceptT Failure Clerk

/-! ### The model -/

/-- A line of the model's answer. -/
inductive OllamaLine where
  /-- An empty line. -/
  | blank
  /-- A line that is no JSON. -/
  | malformed
  /-- A token, which may be empty, and whether the answer ends here. -/
  | payload (token : Text) (done : Bool)

/-- How `stream_chat` and the stream it returns behave. -/
structure OllamaStream where
  /-- `stream_chat` raises. -/
  opening : Option Failure := none
  /-- The lines. -/
  lines : List OllamaLine
  /-- Reading on, or closing the stream, raises. -/
  ending : Option Failure := none

/-- The text for an answer without any. -/
def emptyAnswer : Text := "Модель не вернула текст ответа.".toList

/-- What `_run_generation` makes of what the model gave. -/
def answerText (output : Text) : Text := if Text.strip output = [] then emptyAnswer else output

/-- A token is emitted. -/
def emitToken (jobId : JobId) (emitTokens : Bool) (token : Text) : Attempt Unit :=
  if token ≠ [] ∧ emitTokens = true then
    ExceptT.mk (call (.emitEvent jobId (Event.bare (.token token))))
  else return ()

/-- One line of the answer: its token, and whether the answer ends with it. -/
def readLine (jobId : JobId) (deadlineAt : ℕ) (emitTokens : Bool) :
    OllamaLine → Attempt (Text × Bool)
  | .blank => return ([], false)
  | line => do
    let nowMs ← ExceptT.lift (call .time)
    if deadlineAt ≠ 0 ∧ deadlineAt ≤ nowMs / 1000 then throw .deadlineExceeded
    else if ← ExceptT.mk (call (.isCancelRequested jobId)) then throw .cancelledByUser
    else
      match line with
      | .payload token done =>
        emitToken jobId emitTokens token
        return (token, done)
      | _ => throw .other

/-- The loop over the lines of the answer; `assistantText` is what came so far. -/
def readLines (jobId : JobId) (deadlineAt : ℕ) (emitTokens : Bool) :
    List OllamaLine → (assistantText : Text) → Attempt Text
  | [], assistantText => return assistantText
  | line :: lines, assistantText => do
    let read ← readLine jobId deadlineAt emitTokens line
    if read.2 then return assistantText ++ read.1
    else readLines jobId deadlineAt emitTokens lines (assistantText ++ read.1)

/-- Where the source raises, if it does. -/
def raiseIfAny : Option Failure → Attempt Unit
  | some e => throw e
  | none => return ()

/-- `_run_generation`: the text it returns, and what the model gave. -/
def runGeneration (jobId : JobId) (deadlineAt : ℕ) (emitTokens : Bool) (stream : OllamaStream) :
    Attempt (Text × Text) := do
  raiseIfAny stream.opening
  let output ← readLines jobId deadlineAt emitTokens stream.lines []
  raiseIfAny stream.ending
  return (answerText output, output)

/-! ### The job -/

section Process

-- How a text of any script is lowered.
variable (lowerCase : Text → Text)

/-- The second attempt of `_run_file_chat_job`, where one is needed. -/
def retryFileChat (job : Job) (fileChat : FileChat) (retry : OllamaStream)
    (first : Text × Text) : Attempt (Text × Text) :=
  if Text.strip (fileChat.retryPrompt.getD []) ≠ [] ∧
      Chat.responseRequiresDocumentRetry lowerCase first.1 = true then
    runGeneration job.id job.deadlineAt false retry
  else return first

/-- What `_run_file_chat_job` makes of an answer. -/
def fileChatText (assistantText : Text) : Text :=
  Chat.normalizeDocumentResponse lowerCase
    (if Chat.responseRequiresDocumentRetry lowerCase assistantText = true then
      Chat.documentNoInformationResponse
    else assistantText)

/-- The answer of a file chat as one event. -/
def emitResult (jobId : JobId) (fileChat : FileChat) (text : Text) : Attempt Unit :=
  if fileChat.suppressTokenStream = true then
    ExceptT.mk (call (.emitEvent jobId (Event.bare (.result text))))
  else return ()

/-- `_run_file_chat_job`; `first` and `retry` are the answers of the model. -/
def runFileChatJob (job : Job) (fileChat : FileChat) (first retry : OllamaStream) :
    Attempt (Text × Text) := do
  let answer ← runGeneration job.id job.deadlineAt (!fileChat.suppressTokenStream) first
  let answer ← retryFileChat lowerCase job fileChat retry answer
  emitResult job.id fileChat (fileChatText lowerCase answer.1)
  return (fileChatText lowerCase answer.1, answer.2)

/-- `file_chat`, where `process_job` looks at it. -/
def fileChatOf (job : Job) : Option FileChat :=
  if job.jobKind = .fileChat then job.fileChat else none

/-- The answer of the model, for a job of either kind. -/
def answerJob (job : Job) (first retry : OllamaStream) : Attempt (Text × Text) :=
  match fileChatOf job with
  | some fileChat => runFileChatJob lowerCase job fileChat first retry
  | none => runGeneration job.id job.deadlineAt true first

/-- `CANCELLED_TEXT`. -/
def cancelledText : Text := "Генерация остановлена".toList

/-- The `try` block of `process_job`. -/
def tryProcess (workerId : WorkerId) (job : Job) (first retry : OllamaStream) : Attempt Unit := do
  if ← ExceptT.mk (call (.isCancelRequested job.id)) then
    ExceptT.mk (call (.appendMessage (replyTo job cancelledText)))
    ExceptT.mk (call (.markJobCancelled job.id workerId))
  else
    let answer ← answerJob lowerCase job first retry
    ExceptT.mk (call (.appendMessage (replyTo job answer.1)))
    ExceptT.mk (call (.markJobCompleted job.id answer.1 workerId answer.2))

/-- The text an `except` clause appends and reports. -/
def Failure.text : Failure → Text
  | .cancelledByUser => cancelledText
  | .deadlineExceeded => deadlineExceededError
  | .modelNotFound modelName => ("LLM model not found: " ++ modelName).toList
  | .noModels => "No LLM models available".toList
  | .timeout | .other => genericChatError

/-- The `except` clauses of `process_job`. -/
def handleFailure (workerId : WorkerId) (job : Job) : Failure → Attempt Unit
  | .deadlineExceeded => ExceptT.mk (call (.markJobFailed job.id deadlineExceededError workerId))
  | .cancelledByUser => do
    ExceptT.mk (call (.appendMessage (replyTo job cancelledText)))
    ExceptT.mk (call (.markJobCancelled job.id workerId))
  | e => do
    ExceptT.mk (call (.appendMessage (replyTo job e.text)))
    ExceptT.mk (call (.markJobFailed job.id e.text workerId))

/-- `process_job`. An exception in an `except` clause ends the task it runs in. -/
def processJob (workerId : WorkerId) (job : Job) (first retry : OllamaStream) : Attempt Unit :=
  if job.jobKind = .parse then return ()
  else ExceptT.tryCatch (tryProcess lowerCase workerId job first retry) (handleFailure workerId job)

end Process

/-! ### The request handlers -/

/-- What a request handler knows once the model is resolved. -/
structure Incoming where
  /-- `username`. -/
  username : String
  /-- `thread_id`. -/
  threadId : Text
  /-- `model_info["key"]`. -/
  modelKey : String
  /-- `model_info["name"]`. -/
  modelName : String
  /-- The prompt or the message. -/
  prompt : Text
  /-- `history`. -/
  history : List Budget.Message
  /-- `history_entry`. -/
  historyEntry : Text
  /-- `file_chat`. -/
  fileChat : Option FileChat
  /-- `staging_id`. -/
  stagingId : Option String

/-- `apply_history_budget`, for the record. -/
def limitedHistory (history : List Budget.Message) : List Message :=
  (Budget.applyHistoryBudget history Budget.maxHistoryMessages Budget.maxHistoryChars).map
    fun m => ⟨m.role, m.content⟩

/-- What the three handlers share: the job is enqueued, and then its question is appended. -/
def enqueueAndAppend (a : EnqueueArgs) (uuid : JobId) (content : Text) :
    Clerk (Except GatewayError JobId) := do
  match ← call (.enqueueJob a uuid) with
  | .error e => return .error e
  | .ok jobId =>
    let _ ← call (.appendMessage
      { username := a.username
        threadId := Gateway.normalizeThreadId a.threadId
        role := .user
        content := content
        jobId := jobId
        requestId := jobId })
    return .ok jobId

/-- The part of `api_chat` from `enqueue_job` on. -/
def apiChat (q : Incoming) (uuid : JobId) : Clerk (Except GatewayError JobId) :=
  enqueueAndAppend
    { username := q.username
      threadId := some q.threadId
      modelKey := q.modelKey
      modelName := q.modelName
      prompt := q.prompt
      history := limitedHistory q.history } uuid q.prompt

/-- `enqueue_document_job`. -/
def enqueueDocumentJob (q : Incoming) (uuid : JobId) : Clerk (Except GatewayError JobId) :=
  enqueueAndAppend
    { username := q.username
      threadId := some q.threadId
      modelKey := q.modelKey
      modelName := q.modelName
      prompt := q.prompt
      history := limitedHistory q.history
      jobKind := "file_chat".toList
      fileChat := q.fileChat } uuid q.historyEntry

/-- `enqueue_parser_public_job`, where the parser stage is enabled. -/
def enqueueParserPublicJob (q : Incoming) (uuid : JobId) : Clerk (Except GatewayError JobId) :=
  enqueueAndAppend
    { username := q.username
      threadId := some q.threadId
      modelKey := q.modelKey
      modelName := q.modelName
      prompt := Text.strip q.prompt
      history := limitedHistory q.history
      jobKind := "parse".toList
      workloadClass := "parse".toList
      stagingId := q.stagingId } uuid q.historyEntry

/-! ### The system -/

/-- What a process does. -/
inductive Duty where
  /-- `api_chat`. -/
  | apiChat (q : Incoming) (uuid : JobId)
  /-- `enqueue_document_job`. -/
  | enqueueDocumentJob (q : Incoming) (uuid : JobId)
  /-- `enqueue_parser_public_job`. -/
  | enqueueParserPublicJob (q : Incoming) (uuid : JobId)
  /-- A worker's `claim_dispatch_job`, and the `process_job` after it. -/
  | serve (workerId : WorkerId) (workerPool : WorkerPool) (targetId : TargetId)
      (expectedTargetKind : Option Text) (first retry : OllamaStream)
  /-- A whole step of another process. -/
  | control (m : Move)

/-- A worker serves one job. -/
def serve (lowerCase : Text → Text) (workerId : WorkerId) (workerPool : WorkerPool)
    (targetId : TargetId) (expectedTargetKind : Option Text) (first retry : OllamaStream) :
    Clerk Unit := do
  match ← call (.claimDispatchJob workerId workerPool targetId expectedTargetKind) with
  | none => return ()
  | some job => do let _ ← (processJob lowerCase workerId job first retry).run

/-- The program of a duty. -/
def Duty.body (lowerCase : Text → Text) : Duty → Clerk Unit
  | .apiChat q uuid => do let _ ← Worker.apiChat q uuid
  | .enqueueDocumentJob q uuid => do let _ ← Worker.enqueueDocumentJob q uuid
  | .enqueueParserPublicJob q uuid => do let _ ← Worker.enqueueParserPublicJob q uuid
  | .serve workerId workerPool targetId expectedTargetKind first retry =>
    Worker.serve lowerCase workerId workerPool targetId expectedTargetKind first retry
  | .control m => call (.move m)

/-- Handlers, workers and the other processes. -/
def office (cfg : Settings) (lowerCase : Text → Text) : System deskSig Desk Duty Unit where
  store := deskStore cfg
  body := Duty.body lowerCase
  outside := fun _ _ => False

/-- A world of theirs. -/
abbrev Office := World deskSig Desk Duty Unit

/-- Nobody has called, and nothing was appended; any calls may be about to raise. -/
def Desk.IsFresh (d : Desk) : Prop := Pristine d.redis ∧ d.said = []

end Worker

end AiAgent

import AiAgent.Chat.Coordinator
import AiAgent.Text.Search

/-!
# A chat request with files

The handler reads the history of the thread, cuts it to what the model may see, enqueues the job,
appends the question and waits. If the job does not complete it puts the thread back – not to the
history it read, but to the one it cut for the model. The same list is put back before an answer
that blames the files is asked for a second time.

Hence a request that ends with an error leaves the thread as it was precisely if the budget of the
model did not touch the history (`AiAgent.Chat.restored_iff`), and a thread of six short messages
loses the first of them (`AiAgent.Chat.not_restored_sixMessages`).
-/

namespace AiAgent

namespace Chat

open Text Budget

/-! ### Answers about documents -/

def documentNoInformationResponse : Text :=
  "В предоставленных документах нет информации для ответа на этот вопрос.".toList

def documentUnclearRequestResponse : Text :=
  ("Я вижу, что вы загрузили документ. Хотите, чтобы я:\n" ++
    "- сделал краткое содержание\n" ++
    "- извлёк ключевые данные\n" ++
    "- нашёл важные моменты?").toList

def documentRetryPatterns : List Text :=
  ["не имею доступа к файлам".toList,
    "не могу прочитать файл".toList,
    "не могу открыть файл".toList,
    "не имею доступа к документам".toList,
    "у меня нет доступа к файлам".toList,
    "у меня нет доступа к документам".toList,
    "не вижу содержимое файла".toList,
    "не вижу содержимое документа".toList,
    "загрузите файл".toList,
    "прикрепите файл".toList]

def documentNoInfoPatterns : List Text :=
  ["не указан".toList,
    "не указана".toList,
    "не указано".toList,
    "не указаны".toList,
    "нет даты".toList,
    "нет данных".toList,
    "нет сведений".toList,
    "не упоминается".toList,
    "не содержится".toList,
    "не содержит информации".toList,
    "отсутствует".toList,
    "отсутствуют".toList,
    "нет информации".toList,
    "не представлена".toList,
    "не представлен".toList]

/-- One of the patterns occurs in the text. -/
def mentions (patterns : List Text) (text : Text) : Bool :=
  patterns.any fun pattern => decide (pattern <:+: text)

section Handler

-- How a text of any script is lowered.
variable (lowerCase : Text → Text)

/-- `response_requires_document_retry`. -/
def responseRequiresDocumentRetry (responseText : Text) : Bool :=
  let normalized := lowerCase (strip responseText)
  if normalized = [] then true else mentions documentRetryPatterns normalized

/-- `normalize_document_response`. -/
def normalizeDocumentResponse (responseText : Text) : Text :=
  let normalized := strip responseText
  if normalized = [] then documentNoInformationResponse
  else if mentions documentNoInfoPatterns (lowerCase normalized) then documentNoInformationResponse
  else normalized

/-! ### The request -/

/-- How the wait for a job ends. -/
inductive ResultStatus where
  | completed
  | failed
  | cancelled
  | missing
  | timeout
  deriving DecidableEq

/-- What `wait_for_terminal_job` returns. -/
structure WaitResult where
  status : ResultStatus
  result : Option Text
  error : Option Text

/-- A job of the request: what the workers write to the thread before the wait for it is over,
and what the wait returns. -/
structure JobRun where
  jobId : Text
  replies : List Text
  waitResult : WaitResult

/-- Where the documents are parsed. -/
inductive UploadPath where
  | inProcess
  | parserCutover
  deriving DecidableEq

structure StagedFile where
  name : Text
  size : ℕ
  deriving DecidableEq

/-- A JSON request to `/api/chat_with_files` whose files are staged, with what becomes of its job
and of the second job, if there is one. -/
structure FileChatRequest where
  uploadPath : UploadPath
  username : Text
  threadId : Option Text
  prompt : Text
  stagedFiles : List StagedFile
  job : JobRun
  retryJob : JobRun

inductive FileChatResponse where
  | answer (response : Text) (files : List StagedFile) (jobId : Text)
  | error (text : Text) (statusCode : ℕ)
  deriving DecidableEq

/-- The request ended with an error. -/
def FileChatResponse.Failed : FileChatResponse → Prop
  | .answer .. => False
  | .error .. => True

instance (response : FileChatResponse) : Decidable response.Failed :=
  match response with
  | .answer .. => .isFalse id
  | .error .. => .isTrue trivial

def serviceUnavailableError : Text := "Сервис временно недоступен".toList

def generationCancelledError : Text := "Генерация была отменена".toList

def waitTimeoutError : Text := "Истекло время ожидания ответа модели".toList

/-- The question as it stands in the thread. -/
def FileChatRequest.historyEntry (request : FileChatRequest) : Text :=
  (if request.prompt = [] then "Пользователь не уточнил задачу".toList else request.prompt) ++
    ("\n\n[Вложения: ".toList ++
      (join ", ".toList (request.stagedFiles.map StagedFile.name) ++ "]".toList))

/-- `result.get("error") or ..`. -/
def WaitResult.errorText (waitResult : WaitResult) : Text :=
  match waitResult.error with
  | none | some [] => serviceUnavailableError
  | some text => text

/-- `(result.get("result") or "").strip()`. -/
def WaitResult.responseText (waitResult : WaitResult) : Text :=
  strip (waitResult.result.getD [])

variable (dualWriteEnabled : Bool) (now : ℕ)

/-- `restore_chat_history`. -/
def restoreChatHistory (s : Stores) (username threadId : Text) (history : List Message) :
    Except StoreError Stores :=
  replaceThreadSnapshot dualWriteEnabled now s username threadId history

/-- `run_document_job`, and `run_parser_public_job`: once the job is enqueued the question is
appended, and the workers write while the handler waits. -/
def runJob (s : Stores) (username threadId historyEntry : Text) (job : JobRun) :
    Except StoreError Stores := do
  let asked ← appendMessage dualWriteEnabled now s username "user".toList historyEntry
    (some threadId)
  job.replies.foldlM
    (fun s reply => appendMessage dualWriteEnabled now s username "assistant".toList reply
      (some threadId)) asked

/-- The body of the answer. -/
def answerOf (request : FileChatRequest) (normalized jobId : Text) : FileChatResponse :=
  .answer (if normalized = [] then documentUnclearRequestResponse else normalized)
    request.stagedFiles jobId

/-- The end of a request whose job did not complete. -/
def endWithError (s : Stores) (username threadId : Text) (history : List Message) (text : Text)
    (statusCode : ℕ) : Except StoreError (FileChatResponse × Stores) := do
  let restored ← restoreChatHistory dualWriteEnabled now s username threadId history
  return (.error text statusCode, restored)

/-- The branches after a job that did not complete. -/
def endUncompleted (s : Stores) (username threadId : Text) (history : List Message)
    (waitResult : WaitResult) : Except StoreError (FileChatResponse × Stores) :=
  match waitResult.status with
  | .failed =>
    endWithError dualWriteEnabled now s username threadId history waitResult.errorText 503
  | .cancelled =>
    endWithError dualWriteEnabled now s username threadId history generationCancelledError 409
  | _ => endWithError dualWriteEnabled now s username threadId history waitTimeoutError 504

/-- The last look at an answer: one that still blames the files is replaced, in the thread as
well. -/
def answerOrFallback (s : Stores) (threadId : Text) (history : List Message)
    (request : FileChatRequest) (responseText jobId : Text) :
    Except StoreError (FileChatResponse × Stores) :=
  if responseRequiresDocumentRetry lowerCase responseText then do
    let restored ← restoreChatHistory dualWriteEnabled now s request.username threadId history
    let asked ← appendMessage dualWriteEnabled now restored request.username "user".toList
      request.historyEntry (some threadId)
    let answered ← appendMessage dualWriteEnabled now asked request.username "assistant".toList
      documentNoInformationResponse (some threadId)
    return (answerOf request
      (normalizeDocumentResponse lowerCase documentNoInformationResponse) jobId, answered)
  else
    .ok (answerOf request (normalizeDocumentResponse lowerCase responseText) jobId, s)

/-- `api_chat_with_files`, from the read of the history on. -/
def apiChatWithFiles (s : Stores) (request : FileChatRequest) :
    Except StoreError (FileChatResponse × Stores) := do
  let threadId := normalizeThreadId request.threadId
  let read ← s.chat.getHistory now request.username (some threadId)
  let originalHistory := read.1
  let history := applyHistoryBudget originalHistory maxHistoryMessages maxHistoryChars
  let waited ← runJob dualWriteEnabled now ⟨read.2, s.db⟩ request.username threadId
    request.historyEntry request.job
  if request.job.waitResult.status ≠ .completed then
    endUncompleted dualWriteEnabled now waited request.username threadId history
      request.job.waitResult
  else
    match request.uploadPath with
    | .parserCutover =>
      return (answerOf request
        (normalizeDocumentResponse lowerCase request.job.waitResult.responseText)
        request.job.jobId, waited)
    | .inProcess =>
      if responseRequiresDocumentRetry lowerCase request.job.waitResult.responseText then
        let restored ← restoreChatHistory dualWriteEnabled now waited request.username threadId
          history
        let retried ← runJob dualWriteEnabled now restored request.username threadId
          request.historyEntry request.retryJob
        if request.retryJob.waitResult.status = .completed then
          answerOrFallback lowerCase dualWriteEnabled now retried threadId history request
            request.retryJob.waitResult.responseText request.retryJob.jobId
        else
          endWithError dualWriteEnabled now retried request.username threadId history
            request.retryJob.waitResult.errorText 503
      else
        answerOrFallback lowerCase dualWriteEnabled now waited threadId history request
          request.job.waitResult.responseText request.job.jobId

end Handler

/-! ### What is put back -/

/-- A snapshot of proper messages holds them stripped. -/
theorem normalizeSnapshot_of_proper {messages : List Message} (h : ∀ m ∈ messages, m.Proper) :
    normalizeSnapshot messages = messages.map Message.stripped := by
  rw [normalizeSnapshot, List.filter_eq_self.mpr ?_]
  · refine List.map_congr_left fun m hm => ?_
    rw [Message.stripped, (strip_role (h m hm).1).1]
  · intro item hitem
    obtain ⟨m, hm, rfl⟩ := List.mem_map.mp hitem
    refine decide_eq_true ⟨?_, (h m hm).2⟩
    rw [(strip_role (h m hm).1).1]
    exact (h m hm).1

theorem stripped_stripped (m : Message) : m.stripped.stripped = m.stripped := by
  rw [Message.stripped, Message.stripped, strip_strip]

variable {dualWriteEnabled : Bool} {now : ℕ} {s s' : Stores} {u t : Text}

/-- **What the coordinator puts back is what the thread holds.** -/
theorem hasThread_restore {history : List Message} (hproper : ∀ m ∈ history, m.Proper)
    (hlength : history.length ≤ maxHistory) (hne : normalizeThreadId (some t) ≠ "threads".toList)
    (hok : restoreChatHistory dualWriteEnabled now s u t history = .ok s') :
    s'.chat.NoList (threadRegistryKey u) ∧
      s'.chat.HasThread u (normalizeThreadId (some t)) (history.map Message.stripped) := by
  obtain ⟨cleared, hcleared, hrest⟩ := exists_of_bind_ok hok
  obtain ⟨chat, hchat, hpair⟩ := exists_of_bind_ok hrest
  obtain rfl := (Except.ok.inj hpair).symm
  obtain ⟨hlist, -, hthread⟩ := Store.clearHistory_ok hcleared
  obtain ⟨hlist', -, hrun⟩ := appendMessages_ok hlist hchat
  refine ⟨hlist', ?_⟩
  have hheld := (hrun [] (hthread hne)).1
  have hmap : (normalizeSnapshot history).map
      (fun m => (⟨strip m.role, strip m.content⟩ : Message)) = history.map Message.stripped := by
    rw [normalizeSnapshot_of_proper hproper, List.map_map]
    refine List.map_congr_left fun m hm => ?_
    have hrole := (strip_role (hproper m hm).1).1
    show (⟨strip m.role, strip (strip m.content)⟩ : Message) = ⟨m.role, strip m.content⟩
    rw [hrole, strip_strip]
  rw [hmap, List.nil_append, recent_of_length_le (by rwa [List.length_map])] at hheld
  exact hheld

/-- A job is run for a thread whose key is not that of the list of threads. -/
theorem ne_threads_of_runJob {historyEntry : Text} {job : JobRun}
    (hok : runJob dualWriteEnabled now s u t historyEntry job = .ok s') :
    normalizeThreadId (some t) ≠ "threads".toList := by
  obtain ⟨asked, hasked, -⟩ := exists_of_bind_ok hok
  obtain ⟨chat, hchat, -⟩ := exists_of_bind_ok hasked
  exact (Store.appendMessage_ok [] hchat).1

/-! ### How a request ends -/

theorem restored_of_endWithError {history : List Message} {text : Text} {statusCode : ℕ}
    {response : FileChatResponse}
    (hok : endWithError dualWriteEnabled now s u t history text statusCode = .ok (response, s')) :
    restoreChatHistory dualWriteEnabled now s u t history = .ok s' := by
  obtain ⟨restored, hrestored, hpair⟩ := exists_of_bind_ok hok
  rwa [← (Prod.mk.inj (Except.ok.inj hpair)).2]

theorem restored_of_endUncompleted {history : List Message} {waitResult : WaitResult}
    {response : FileChatResponse}
    (hok : endUncompleted dualWriteEnabled now s u t history waitResult = .ok (response, s')) :
    restoreChatHistory dualWriteEnabled now s u t history = .ok s' := by
  rw [endUncompleted] at hok
  split at hok
  · exact restored_of_endWithError hok
  · exact restored_of_endWithError hok
  · exact restored_of_endWithError hok

variable {lowerCase : Text → Text} {request : FileChatRequest}

/-- The last look at an answer ends with an answer. -/
theorem not_failed_answerOrFallback {history : List Message} {responseText jobId : Text}
    {response : FileChatResponse}
    (hok : answerOrFallback lowerCase dualWriteEnabled now s t history request responseText jobId =
      .ok (response, s')) : ¬ response.Failed := by
  rw [answerOrFallback] at hok
  by_cases hretry : responseRequiresDocumentRetry lowerCase responseText = true
  · rw [if_pos hretry] at hok
    obtain ⟨restored, -, hok⟩ := exists_of_bind_ok hok
    obtain ⟨asked, -, hok⟩ := exists_of_bind_ok hok
    obtain ⟨answered, -, hpair⟩ := exists_of_bind_ok hok
    rw [← (Prod.mk.inj (Except.ok.inj hpair)).1]
    exact id
  · rw [if_neg hretry] at hok
    rw [← (Prod.mk.inj (Except.ok.inj hok)).1]
    exact id

/-- **A request that ends with an error has put back the history it cut for the model**, whatever
the path and the branch. -/
theorem restored_of_failed {response : FileChatResponse} {original : List Message} {chat : Store}
    (hread : s.chat.getHistory now request.username (some (normalizeThreadId request.threadId)) =
      .ok (original, chat))
    (hok : apiChatWithFiles lowerCase dualWriteEnabled now s request = .ok (response, s'))
    (hfailed : response.Failed) :
    normalizeThreadId (some (normalizeThreadId request.threadId)) ≠ "threads".toList ∧
      ∃ waited, restoreChatHistory dualWriteEnabled now waited request.username
        (normalizeThreadId request.threadId)
        (applyHistoryBudget original maxHistoryMessages maxHistoryChars) = .ok s' := by
  obtain ⟨read, hread', hok⟩ := exists_of_bind_ok hok
  rw [hread] at hread'
  obtain rfl := Except.ok.inj hread'
  obtain ⟨waited, hwaited, hok⟩ := exists_of_bind_ok hok
  refine ⟨ne_threads_of_runJob hwaited, ?_⟩
  by_cases hstatus : request.job.waitResult.status ≠ .completed
  · rw [if_pos hstatus] at hok
    exact ⟨waited, restored_of_endUncompleted hok⟩
  · rw [if_neg hstatus] at hok
    split at hok
    · obtain rfl := (Prod.mk.inj (Except.ok.inj hok)).1
      exact hfailed.elim
    · split at hok
      · obtain ⟨restored, -, hok⟩ := exists_of_bind_ok hok
        obtain ⟨retried, -, hok⟩ := exists_of_bind_ok hok
        split at hok
        · exact absurd hfailed (not_failed_answerOrFallback hok)
        · exact ⟨retried, restored_of_endWithError hok⟩
      · exact absurd hfailed (not_failed_answerOrFallback hok)

/-- **A failed request leaves the thread as it was precisely if the budget of the model does not
touch its history**: it has at most five messages and their characters fit. -/
theorem restored_iff {response : FileChatResponse} {original : List Message} {chat : Store}
    (hread : s.chat.getHistory now request.username (some (normalizeThreadId request.threadId)) =
      .ok (original, chat))
    (hproper : ∀ m ∈ original, m.Proper)
    (hok : apiChatWithFiles lowerCase dualWriteEnabled now s request = .ok (response, s'))
    (hfailed : response.Failed) (now' : ℕ) :
    ∃ history chat',
      s'.chat.getHistory now' request.username (some (normalizeThreadId request.threadId)) =
        .ok (history, chat') ∧
      (history.map Message.stripped = original.map Message.stripped ↔
        original.length ≤ maxHistoryMessages ∧ Fits maxHistoryChars original.reverse) := by
  obtain ⟨hne, waited, hrestored⟩ := restored_of_failed hread hok hfailed
  have hbudgeted : ∀ m ∈ applyHistoryBudget original maxHistoryMessages maxHistoryChars,
      m.Proper := fun m hm => proper_applyHistoryBudget hm
  have hlength := length_applyHistoryBudget_le original maxHistoryMessages maxHistoryChars
  have hmany : maxHistoryMessages ≤ maxHistory := by decide
  obtain ⟨hlist, hthread⟩ := hasThread_restore hbudgeted (hlength.trans hmany) hne hrestored
  obtain ⟨history, chat', hread'⟩ := Store.exists_getHistory now' hthread hne hlist
  refine ⟨history, chat', hread', ?_⟩
  -- What is read is what was put back: its roles are chat roles, and it is short.
  have hhistory : history = (applyHistoryBudget original maxHistoryMessages maxHistoryChars).map
      Message.stripped := by
    rw [Store.getHistory_ok hthread hne hread', List.filter_eq_self.mpr, recent_of_length_le]
    · rw [List.length_map]
      exact hlength.trans hmany
    · intro m hm
      obtain ⟨n, hn, rfl⟩ := List.mem_map.mp hm
      exact decide_eq_true (hbudgeted n hn).1
  rw [hhistory, List.map_map, ← applyHistoryBudget_eq_iff hproper]
  refine Eq.congr_left (List.map_congr_left fun m _ => stripped_stripped m)

/-- A thread that holds the same short message so many times. -/
def storesWith (n : ℕ) : Stores :=
  ⟨fun key => if key = historyKey "anna".toList "t".toList then
      some (.list (List.replicate n ⟨"user".toList, "hello".toList, 1⟩)) else none, .empty⟩

/-- A request on that thread whose parser job fails. -/
def failedRequest : FileChatRequest where
  uploadPath := .parserCutover
  username := "anna".toList
  threadId := some "t".toList
  prompt := "x".toList
  stagedFiles := [⟨"a.txt".toList, 3⟩]
  job := ⟨"j".toList, [], ⟨.failed, none, none⟩⟩
  retryJob := ⟨"k".toList, [], ⟨.failed, none, none⟩⟩

/-- The request on a thread of so many messages is served, with an error, and afterwards so many
are left. -/
def LeavesOf (n left : ℕ) : Prop :=
  ((storesWith n).chat.getHistory 2 "anna".toList (some "t".toList)).toOption.any (fun read =>
      decide (read.1 = List.replicate n ⟨"user".toList, "hello".toList⟩) &&
    (apiChatWithFiles lower true 2 (storesWith n) failedRequest).toOption.any fun answered =>
      decide answered.1.Failed &&
      (answered.2.chat.getHistory 3 "anna".toList (some "t".toList)).toOption.any fun reread =>
        decide (reread.1.length = left)) = true

instance (n left : ℕ) : Decidable (LeavesOf n left) := inferInstanceAs (Decidable (_ = true))

theorem LeavesOf.exists {n left : ℕ} (h : LeavesOf n left) : ∃ chat response s' history chat',
    (storesWith n).chat.getHistory 2 "anna".toList (some "t".toList) =
      .ok (List.replicate n ⟨"user".toList, "hello".toList⟩, chat) ∧
    apiChatWithFiles lower true 2 (storesWith n) failedRequest = .ok (response, s') ∧
    response.Failed ∧
    s'.chat.getHistory 3 "anna".toList (some "t".toList) = .ok (history, chat') ∧
    history.length = left := by
  obtain ⟨⟨original, chat⟩, hread, hrest⟩ := (Option.any_eq_true _ _).mp h
  obtain ⟨horiginal, hserved⟩ := Bool.and_eq_true_iff.mp hrest
  obtain ⟨⟨response, s'⟩, hanswered, hafter⟩ := (Option.any_eq_true _ _).mp hserved
  obtain ⟨hfailed, hlast⟩ := Bool.and_eq_true_iff.mp hafter
  obtain ⟨⟨history, chat'⟩, hreread, hlength⟩ := (Option.any_eq_true _ _).mp hlast
  have hsame : original = _ := of_decide_eq_true horiginal
  subst hsame
  exact ⟨chat, response, s', history, chat', eq_ok_of_toOption hread, eq_ok_of_toOption hanswered,
    of_decide_eq_true hfailed, eq_ok_of_toOption hreread, of_decide_eq_true hlength⟩

/-- A thread of two short messages is left as it was. -/
theorem restored_iff_twoMessages : ∃ response s' history chat',
    apiChatWithFiles lower true 2 (storesWith 2) failedRequest = .ok (response, s') ∧
    response.Failed ∧
    s'.chat.getHistory 3 "anna".toList (some "t".toList) = .ok (history, chat') ∧
    history.map Message.stripped = List.replicate 2 ⟨"user".toList, "hello".toList⟩ := by
  obtain ⟨chat, response, s', -, -, hread, hok, hfailed, -, -⟩ :=
    (show LeavesOf 2 2 by decide +kernel).exists
  have hthread : normalizeThreadId failedRequest.threadId = "t".toList := by decide +kernel
  obtain ⟨history, chat', hread', hiff⟩ := restored_iff
    (by rw [hthread]; exact hread) (by decide +kernel) hok hfailed 3
  rw [hthread] at hread'
  refine ⟨response, s', history, chat', hok, hfailed, hread', ?_⟩
  rw [hiff.mpr ⟨by decide +kernel, .inl (by decide +kernel)⟩]
  decide +kernel

/-- **A thread of six short messages loses the first of them** when the request fails. -/
theorem not_restored_sixMessages : ¬ ∀ (lowerCase : Text → Text) (dualWriteEnabled : Bool)
    (now : ℕ) (s s' : Stores) (request : FileChatRequest) (response : FileChatResponse)
    (original : List Message) (chat : Store),
    s.chat.getHistory now request.username (some (normalizeThreadId request.threadId)) =
      .ok (original, chat) →
    (∀ m ∈ original, m.Proper) →
    apiChatWithFiles lowerCase dualWriteEnabled now s request = .ok (response, s') →
    response.Failed → ∀ (now' : ℕ) (history : List Message) (chat' : Store),
      s'.chat.getHistory now' request.username (some (normalizeThreadId request.threadId)) =
        .ok (history, chat') →
      history.map Message.stripped = original.map Message.stripped := by
  intro hall
  obtain ⟨chat, response, s', history, chat', hread, hok, hfailed, hread', hlength⟩ :=
    (show LeavesOf 6 5 by decide +kernel).exists
  have hthread : normalizeThreadId failedRequest.threadId = "t".toList := by decide +kernel
  have hsame := hall lower true 2 (storesWith 6) s' failedRequest response _ chat
    (by rw [hthread]; exact hread) (by decide +kernel) hok hfailed 3 history chat'
    (by rw [hthread]; exact hread')
  have hcount := congrArg List.length hsame
  rw [List.length_map, List.length_map, List.length_replicate, hlength] at hcount
  omega

end Chat

end AiAgent

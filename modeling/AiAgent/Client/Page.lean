import AiAgent.Client.EventStream
import AiAgent.Client.Messages

/-!
# The chat page

`CorporateAIApp` answers to what the user does and to what comes from the server, and all of it may
come in any order: a send is under way, its stream is read piece by piece, its answer is rendered,
and meanwhile a thread is loaded, cleared, deleted or created. What is under way is kept with the
page (`AiAgent.Client.Send`, `AiAgent.Client.Handler`), and one thing that happens is one step
(`AiAgent.Client.Page.step`).

All sends share one chat state and one stream controller. `stop` forgets the controller's request
and job, and so does every stream that ends, be it the one that the controller was last given or
not. Whether an abort still reaches its request is left open here, since a request may also be
aborted by its time limit.
-/

namespace AiAgent

namespace Client

/-! ### The chat store -/

/-- `ChatLifecycle`. -/
inductive ChatLifecycle where
  | idle
  | sending
  | streaming
  | done
  | error
  | cancelled
  deriving DecidableEq

/-- `[ChatLifecycle.SENDING, ChatLifecycle.STREAMING].includes(status)`. -/
def ChatLifecycle.isBusy : ChatLifecycle → Bool
  | sending => true
  | streaming => true
  | _ => false

/-- A file that is picked. -/
structure File where
  name : JsString
  size : JsNumber
  type : JsString
  lastModified : JsNumber

/-- The state of a `ChatStore`. -/
structure ChatState where
  status : ChatLifecycle
  currentModel : JsString
  currentModelKey : JsString
  currentModelDescription : JsString
  attachments : List Attachment
  uploadingDocuments : Bool
  error : Option JsString
  activeJobId : Option Json
  pendingUserMessageId : Option JsString
  pendingAssistantMessageId : Option JsString
  readonlyThread : Bool

/-- `createAttachmentRecord`: the name, the size and the time make a new identifier, with some
random letters. -/
def createAttachmentRecord (supply : Supply) (file : File) : Attachment where
  id := supply.createId []
  name := file.name
  size := file.size
  type := orString file.type (js "application/octet-stream")
  lastModified := file.lastModified

namespace ChatState

/-- The loop of `addAttachments`, from the `k`th file on. -/
def addAttachmentsFrom (supply : Supply) :
    ℕ → List File → List Attachment → List Attachment
  | _, [], attachments => attachments
  | k, file :: files, attachments =>
    let duplicate := attachments.any fun attachment =>
      attachment.name = file.name && attachment.size = file.size &&
        attachment.lastModified = file.lastModified
    addAttachmentsFrom supply (k + 1) files
      (if duplicate then attachments
      else attachments ++ [createAttachmentRecord (supply.at k) file])

/-- `addAttachments`. -/
def addAttachments (supply : Supply) (files : List File) (chat : ChatState) : ChatState :=
  { chat with attachments := addAttachmentsFrom supply 0 files chat.attachments }

/-- `removeAttachment`. -/
def removeAttachment (attachmentId : JsString) (chat : ChatState) : ChatState :=
  { chat with
    attachments := chat.attachments.filter fun attachment => attachment.id ≠ attachmentId }

/-- The chat is at rest: `clearAttachments`, `setUploadingDocuments(false)` and
`setStatus(ChatLifecycle.IDLE, …)`. -/
def idle (chat : ChatState) : ChatState :=
  { chat with
    attachments := []
    uploadingDocuments := false
    status := .idle
    error := none
    activeJobId := none
    pendingUserMessageId := none
    pendingAssistantMessageId := none }

/-- The chat after a send: `setStatus(status, …)` and `setUploadingDocuments(false)`. -/
def ended (status : ChatLifecycle) (chat : ChatState) : ChatState :=
  { chat with
    status := status
    activeJobId := none
    pendingUserMessageId := none
    pendingAssistantMessageId := none
    uploadingDocuments := false }

end ChatState

/-! ### What is under way -/

/-- How far a send has come. -/
inductive Phase where
  /-- `start` stops what the controller had before. -/
  | stopping
  /-- There is no response yet. -/
  | requesting
  /-- The stream is read. -/
  | reading
  /-- `onDone` has the answer rendered. -/
  | rendering
  /-- An error with this text is about to be caught by `handleSendMessage`. -/
  | failing (message : JsString)
  /-- The rendering has failed, which nobody catches. -/
  | stuck
  /-- The message is finalized. -/
  | over
  deriving DecidableEq

/-- One call of `handleSendMessage`, from the message on that it has appended. -/
structure Send where
  targetThreadId : JsString
  assistantMessageId : JsString
  prompt : JsString
  model : Option JsString
  hasAttachments : Bool
  fullText : JsString
  phase : Phase
  /-- What the message was finalized with. -/
  finalized : Option ThreadStore.Payload

/-- A handler that waits for the server. -/
inductive Handler where
  | creatingThread
  | clearingThread
  | deletingThread (threadId activeThreadId : JsString)
  | selectingThread (threadId : JsString)
  | switchingModel

/-- What the server answers to a handler. -/
inductive Answer where
  | threadCreated (threads : List RawThread) (activeThreadId threadId : JsString)
  | threadCleared
  | threadDeleted (threads : List RawThread) (activeThreadId : JsString)
  | threadMessages (thread : Option RawThread) (messages : List RawMessage)
  | modelSwitched (name key description : JsString)
  | failed

/-- A `StreamController`. -/
structure StreamController where
  /-- Whose request the abort controller is of. -/
  abortController : Option ℕ
  jobId : Option Json
  active : Bool

/-- `cleanup`. -/
def StreamController.cleanup : StreamController := ⟨none, none, false⟩

/-- What is behind the page: `localeCompare`, and what a value is as a string. -/
structure Browser where
  collation : Collation
  /-- `String(value)`. -/
  text : Json → JsString

/-- A text, as a string of the browser. -/
def jsText (text : Text) : JsString := text.flatMap utf16Char

/-- The page. -/
structure Page where
  chat : ChatState
  threads : ThreadStore
  controller : StreamController
  sends : List Send
  handlers : List Handler
  /-- The jobs whose cancelling was asked for. -/
  cancelRequests : List Json

/-- What happens to the page. -/
inductive Input where
  /-- The form is submitted with this in the prompt. -/
  | submit (promptValue : JsString)
  | regenerateMessage (messageId : JsString)
  | stopGeneration
  | newChat
  | clearActiveThread
  | deleteThread (threadId : JsString) (confirmed : Bool)
  | selectThread (threadId : JsString)
  | switchModel (modelKey : JsString)
  | attach (files : List File)
  | removeAttachment (attachmentId : JsString)
  /-- `stop` returns to the `start` of a send. -/
  | stopReturned (k : ℕ)
  /-- The request of a send is answered, is aborted, or fails; an `APIError` has a text. -/
  | requestOpened (k : ℕ)
  | requestAborted (k : ℕ)
  | requestFailed (k : ℕ) (message : Option JsString)
  /-- The controller calls back while it reads the stream of a send. -/
  | heard (k : ℕ) (call : Call)
  /-- The error of a send is caught. -/
  | caught (k : ℕ)
  /-- The answer of a send is rendered, or cannot be. -/
  | rendered (k : ℕ) (html : JsString)
  | renderFailed (k : ℕ)
  /-- The server answers to the `i`th handler that waits. -/
  | answered (i : ℕ) (answer : Answer)

def sendFailedText : JsString := js "Не удалось отправить сообщение"

def stoppedByUserText : JsString := js "Генерация остановлена пользователем."

namespace Page

variable (b : Browser) (supply : Supply)

/-- `getActiveThread`. -/
def activeThread (page : Page) : Option Thread :=
  page.threads.activeThreadId.bind page.threads.findThread

/-- `isReadonlyThread`, of the active thread. -/
def isReadonlyThread (page : Page) : Bool := page.activeThread.isNone

/-- `renderChrome`, as far as it writes to the chat store. -/
def renderChrome (page : Page) : Page :=
  { page with chat := { page.chat with readonlyThread := page.isReadonlyThread } }

/-- The send is changed. -/
def changeSend (k : ℕ) (f : Send → Send) (page : Page) : Page :=
  { page with sends := page.sends.modify k f }

/-- `StreamController.stop`, up to where it waits. -/
def stop (page : Page) : Page :=
  if !page.controller.active && page.controller.abortController.isNone then page
  else
    { page with
      controller := .cleanup
      cancelRequests := page.cancelRequests ++ page.controller.jobId.toList }

/-- `StreamController.start`, from where it has a new abort controller. -/
def begin (k : ℕ) (page : Page) : Page :=
  { page.changeSend k fun send => { send with phase := .requesting } with
    controller := ⟨some k, none, true⟩ }

/-- `StreamController.start`. -/
def start (k : ℕ) (page : Page) : Page :=
  if page.controller.active then page.stop else page.begin k

/-- A send, with the message that is to show the answer. -/
def newSend (activeThread : Thread) (prompt : JsString) (attachments : List Attachment)
    (page : Page) : Send where
  targetThreadId := activeThread.id
  assistantMessageId := (supply.at 1).createId []
  prompt := prompt
  model :=
    if page.chat.currentModelKey ≠ [] then some page.chat.currentModelKey
    else if page.chat.currentModel ≠ [] then some page.chat.currentModel
    else none
  hasAttachments := !attachments.isEmpty
  fullText := []
  phase := .stopping
  finalized := none

/-- The page with a message and the placeholder for its answer. -/
def sent (threads : ThreadStore) (send : Send) (userMessageId : JsString) (page : Page) : Page :=
  Page.renderChrome
    { page with
      threads := threads
      chat :=
        { page.chat with
          attachments := []
          uploadingDocuments := send.hasAttachments
          status := .sending
          error := none
          activeJobId := none
          pendingUserMessageId := some userMessageId
          pendingAssistantMessageId := some send.assistantMessageId }
      sends := page.sends ++ [send] }

/-- `handleSendMessage`, up to where it waits. -/
def handleSendMessage (promptOverride : Option JsString) (promptValue : JsString) (page : Page) :
    Page :=
  let prompt := trim (promptOverride.getD promptValue)
  match page.activeThread with
  | none => page
  | some activeThread =>
    if prompt = [] || page.chat.readonlyThread || page.chat.status.isBusy then page
    else
      let attachments := if promptOverride.isNone then page.chat.attachments else []
      match page.threads.appendUserMessage b.collation (supply.at 0) prompt
        (attachments.map Attachment.raw) with
      -- There is no live thread.
      | .error _ => page
      | .ok threads =>
        let userMessageId := (supply.at 0).createId []
        match threads.appendAssistantPlaceholder b.collation (supply.at 1) (some userMessageId) with
        | .error _ => { page with threads := threads }
        | .ok threads =>
          let send := page.newSend supply activeThread prompt attachments
          (page.sent threads send userMessageId).start page.sends.length

/-- `handleRegenerateMessage`. -/
def handleRegenerateMessage (messageId : JsString) (page : Page) : Page :=
  if page.isReadonlyThread then page
  else
    let messages := (page.activeThread.map Thread.messages).getD []
    let assistantMessage := messages.find? fun message => message.id = messageId
    let sourceUserMessage := (assistantMessage.bind Message.sourceUserMessageId).bind
      fun sourceUserMessageId => messages.find? fun message => message.id = sourceUserMessageId
    match sourceUserMessage with
    | none => page
    | some sourceUserMessage =>
      if sourceUserMessage.content = [] then page
      else page.handleSendMessage b supply (some sourceUserMessage.content) []

/-- A send finalizes its message, and the chat takes its status. -/
def finalize (k : ℕ) (send : Send) (payload : ThreadStore.Payload) (status : ChatLifecycle)
    (error : Option JsString) (page : Page) : Page :=
  let ended := page.chat.ended status
  Page.renderChrome
    { page.changeSend k fun send => { send with phase := .over, finalized := some payload } with
      threads := page.threads.finalizeAssistantMessage b.collation supply send.assistantMessageId
        payload send.targetThreadId
      chat := { ended with error := error.or ended.error } }

/-- The end of `onDone`. -/
def onRendered (k : ℕ) (send : Send) (html : JsString) (page : Page) : Page :=
  page.finalize b supply k send
    ⟨send.fullText, if send.fullText = [] then [] else html, js "done"⟩ .done none

/-- `onCancelled`, and `start` returns. -/
def onCancelled (k : ℕ) (send : Send) (page : Page) : Page :=
  { page.finalize b supply k send
      ⟨orString send.fullText stoppedByUserText, [], js "cancelled"⟩ .cancelled none with
    controller := .cleanup }

/-- An error leaves `start`. -/
def onError (k : ℕ) (message : JsString) (page : Page) : Page :=
  { page.changeSend k fun send => { send with phase := .failing message } with
    controller := .cleanup }

/-- The error is caught by `handleSendMessage`. -/
def onCaught (k : ℕ) (send : Send) (message : JsString) (page : Page) : Page :=
  page.finalize b supply k send ⟨js "Ошибка: " ++ message, [], js "error"⟩ .error (some message)

/-- What a send does when it is called back. -/
def onCall (k : ℕ) (send : Send) (page : Page) : Call → Page
  | .onJob jobId =>
    Page.renderChrome
      { page with
        controller := { page.controller with jobId := some jobId }
        chat := { page.chat with status := .streaming, activeJobId := some jobId } }
  | .onToken token =>
    let page := page.changeSend k fun send =>
      { send with fullText := send.fullText ++ b.text token }
    if page.chat.status = .streaming then page
    else Page.renderChrome { page with chat := { page.chat with status := .streaming } }
  | .onResult result =>
    -- Only a send with attachments asks for the result.
    if send.hasAttachments then
      page.changeSend k fun send => { send with fullText := orString (jsText result) send.fullText }
    else page
  | .onDone _ =>
    { page.changeSend k fun send => { send with phase := .rendering } with
      controller := .cleanup }
  | .onError _ => page.onError k sendFailedText

/-- The chat is at rest, with the threads as they are now. -/
def settle (page : Page) : Page := Page.renderChrome { page with chat := page.chat.idle }

/-- `handleNewChat`. Its button is disabled while something is generated. -/
def handleNewChat (page : Page) : Page :=
  match page.activeThread with
  | some activeThread =>
    if activeThread.messages = [] then
      settle { page with threads := page.threads.setActiveThread activeThread.id }
    else { page with handlers := page.handlers ++ [.creatingThread] }
  | none => { page with handlers := page.handlers ++ [.creatingThread] }

/-- What a handler does with its answer. -/
def onAnswer (page : Page) : Handler → Answer → Option Page
  | .creatingThread, .threadCreated threads activeThreadId threadId =>
    let resolvedThreadId := orString activeThreadId (orString threadId defaultThreadId)
    some (settle { page with
      threads := page.threads.replaceThreads b.collation supply threads (some resolvedThreadId) })
  | .creatingThread, .failed => some page
  | .clearingThread, .threadCleared =>
    some (settle { page with threads := page.threads.clearLiveThreadMessages b.collation supply })
  | .clearingThread, .failed => some page
  | .deletingThread threadId activeThreadId, .threadDeleted threads active =>
    -- The thread that is active stays so, unless it is the one that is gone.
    let resolvedActiveThreadId := orString active activeThreadId
    let deletingActiveThread := activeThreadId = threadId
    let replaced := page.threads.replaceThreads b.collation supply threads
      (some (if deletingActiveThread then resolvedActiveThreadId else activeThreadId))
    let page := { page with threads := replaced }
    if deletingActiveThread then
      some { page with handlers := page.handlers ++ [.selectingThread resolvedActiveThreadId] }
    else some page.renderChrome
  | .deletingThread _ _, .failed => some page
  | .selectingThread threadId, .threadMessages thread messages =>
    match thread with
    | some thread =>
      some (settle { page with
        threads := page.threads.attachServerThread b.collation supply thread (some messages) })
    -- Without the thread itself, its messages are put into the one that was asked for.
    | none =>
      some (settle { page with
        threads := (page.threads.setThreadMessages b.collation supply threadId messages
          true).setActiveThread threadId })
  | .selectingThread _, .failed => some page
  | .switchingModel, .modelSwitched name key description =>
    some (renderChrome { page with
      chat := { page.chat with
        currentModel := name
        currentModelKey := key
        currentModelDescription := description } })
  | .switchingModel, .failed => some page.renderChrome
  | _, _ => none

/-- One thing happens, if it can. What a disabled button or a guard keeps from happening changes
nothing. -/
def step (page : Page) : Input → Option Page
  | .submit promptValue => some (page.handleSendMessage b supply none promptValue)
  | .regenerateMessage messageId => some (page.handleRegenerateMessage b supply messageId)
  | .stopGeneration => some (if page.chat.status.isBusy then page.stop else page)
  -- The button is disabled while the page is busy.
  | .newChat => some (if page.chat.status.isBusy then page else page.handleNewChat)
  | .clearActiveThread =>
    some (if page.chat.status.isBusy || page.isReadonlyThread then page
      else { page with handlers := page.handlers ++ [.clearingThread] })
  -- Nothing is deleted unless the user says so.
  | .deleteThread threadId confirmed =>
    some (if page.chat.status.isBusy || trim threadId = [] || !confirmed then page
      else { page with handlers := page.handlers ++
        [.deletingThread (trim threadId) (page.threads.activeThreadId.getD defaultThreadId)] })
  | .selectThread threadId =>
    some (if page.chat.status.isBusy then page
      else { page with handlers := page.handlers ++ [.selectingThread threadId] })
  | .switchModel _ =>
    some (if page.chat.status.isBusy then page
      else { page with handlers := page.handlers ++ [.switchingModel] })
  | .attach files =>
    some (if page.chat.status.isBusy || page.isReadonlyThread then page
      else renderChrome { page with chat := page.chat.addAttachments supply files })
  | .removeAttachment attachmentId =>
    some (renderChrome { page with chat := page.chat.removeAttachment attachmentId })
  | .stopReturned k =>
    page.sends[k]?.bind fun send => if send.phase = .stopping then some (page.begin k) else none
  | .requestOpened k =>
    page.sends[k]?.bind fun send =>
      if send.phase = .requesting then
        some (page.changeSend k fun send => { send with phase := .reading })
      else none
  | .requestAborted k =>
    page.sends[k]?.bind fun send =>
      if send.phase = .requesting then some (page.onCancelled b supply k send) else none
  | .requestFailed k message =>
    page.sends[k]?.bind fun send =>
      if send.phase = .requesting then some (page.onError k (message.getD sendFailedText))
      else none
  | .heard k call =>
    page.sends[k]?.bind fun send =>
      if send.phase = .reading then some (page.onCall b k send call) else none
  | .caught k =>
    page.sends[k]?.bind fun send =>
      match send.phase with
      | .failing message => some (page.onCaught b supply k send message)
      | _ => none
  | .rendered k html =>
    page.sends[k]?.bind fun send =>
      if send.phase = .rendering then some (page.onRendered b supply k send html) else none
  | .renderFailed k =>
    page.sends[k]?.bind fun send =>
      if send.phase = .rendering ∧ send.fullText ≠ [] then
        some (page.changeSend k fun send => { send with phase := .stuck })
      else none
  | .answered i answer =>
    page.handlers[i]?.bind fun handler =>
      { page with handlers := page.handlers.eraseIdx i }.onAnswer b supply handler answer

end Page

end Client

end AiAgent

import AiAgent.Client.Page

/-!
# Whose answer stands where

However the streams of several sends are cut up and mixed with each other and with what else the
user does, the message of a send shows what the stream of that send has brought, in the thread that
it was sent in, or it is gone (`AiAgent.Client.Page.answers_of_ran`). What keeps it so is that a
message is looked for by an identifier of its own: an invariant says of each send where its
identifier is shown and as what (`AiAgent.Client.Page.Tracks`), and every other operation on the
threads carries that along.

The status of the chat is shared, and so it may say that the chat is at rest while an answer is
still coming. The other way round nothing is lost: whenever the chat is busy some send is still
under way (`AiAgent.Client.Page.underWay_of_busy`), unless the rendering of an answer has failed.
Nobody catches that error, and the page stays busy for good
(`AiAgent.Client.Page.busy_of_locked`).
-/

namespace AiAgent

namespace Client

/-! ### What a send has been told -/

/-- What the controller has called back to a send. -/
def callsTo (k : ℕ) (inputs : List (Input × Supply)) : List Call :=
  inputs.filterMap fun input =>
    match input.1 with
    | .heard k' call => if k' = k then some call else none
    | _ => none

theorem callsTo_concat (k : ℕ) (inputs : List (Input × Supply)) (input : Input × Supply) :
    callsTo k (inputs ++ [input]) = callsTo k inputs ++ callsTo k [input] := by
  rw [callsTo, List.filterMap_append]
  rfl

/-- What a call makes of the text of the answer. -/
def addCall (b : Browser) (hasAttachments : Bool) (text : JsString) : Call → JsString
  | .onToken token => text ++ b.text token
  | .onResult result => if hasAttachments then orString (jsText result) text else text
  | _ => text

/-- The text of an answer. -/
def answerText (b : Browser) (hasAttachments : Bool) (calls : List Call) : JsString :=
  calls.foldl (addCall b hasAttachments) []

/-- A message is finalized with what its stream has brought: the text of the answer, if it was
read to its end, or an error, or the word that it was stopped before there was a response. -/
def Delivered (b : Browser) (hasAttachments : Bool) (calls : List Call)
    (payload : ThreadStore.Payload) : Prop :=
  (payload.state = js "done" ∧ payload.content = answerText b hasAttachments calls ∧
      ∃ event, calls.getLast? = some (.onDone event)) ∨
    (payload.state = js "cancelled" ∧ payload.content = stoppedByUserText ∧ calls = []) ∨
    (payload.state = js "error" ∧ ∃ message, payload.content = js "Ошибка: " ++ message ∧
      (calls = [] ∨ message = sendFailedText ∧ ∃ error, calls.getLast? = some (.onError error)))

/-- How far a send has come is what it has been told. -/
structure Send.Agrees (b : Browser) (send : Send) (calls : List Call) : Prop where
  text : send.fullText = answerText b send.hasAttachments calls
  unfinalized : send.phase ≠ .over → send.finalized = none
  silent : send.phase = .stopping ∨ send.phase = .requesting → calls = []
  done : send.phase = .rendering ∨ send.phase = .stuck →
    ∃ event, calls.getLast? = some (.onDone event)
  failed : ∀ message, send.phase = .failing message →
    calls = [] ∨ message = sendFailedText ∧ ∃ error, calls.getLast? = some (.onError error)
  delivered : ∀ payload, send.finalized = some payload →
    Delivered b send.hasAttachments calls payload

/-- What the message of a send shows. -/
def Send.face (send : Send) : Face :=
  match send.finalized with
  | none => ⟨.assistant, [], [], js "streaming"⟩
  | some payload =>
    ⟨.assistant, payload.content, payload.html, orString payload.state (js "done")⟩

theorem Send.role_face (send : Send) : send.face.role = .assistant := by
  rw [face]
  split <;> rfl

/-! ### What may be expected of an input -/

/-- The threads that the server lists. -/
def Input.listed : Input → List RawThread
  | .answered _ (.threadCreated threads _ _) => threads
  | .answered _ (.threadDeleted threads _) => threads
  | _ => []

/-- The messages that the server sends. -/
def Input.messages : Input → List RawMessage
  | .answered _ (.threadMessages _ messages) => messages
  | _ => []

namespace Page

variable {b : Browser} {supply : Supply} {page page' : Page}

/-- The identifiers that the server lists are distinct, and no identifier that is made has been made
before or comes from the server. -/
structure Proper (page : Page) (input : Input) (supply : Supply) : Prop where
  listed : ThreadStore.Distinct input.listed
  avoids : ∀ send ∈ page.sends, supply.Avoids send.assistantMessageId
  foreign : ∀ send ∈ page.sends, ∀ message ∈ input.messages, message.id ≠ send.assistantMessageId
  named : supply.createId [1] ≠ []
  fresh : ∀ t ∈ page.threads.threads, ∀ message ∈ t.messages, message.id ≠ supply.createId [1]
  apart : (supply.at 0).Avoids (supply.createId [1])

/-- A page that runs. -/
inductive Ran (b : Browser) (start : Page) : List (Input × Supply) → Page → Prop
  | start : Ran b start [] start
  | step {inputs : List (Input × Supply)} {page page' : Page} (h : Ran b start inputs page)
      {input : Input} {supply : Supply} (hproper : page.Proper input supply)
      (hstep : page.step b supply input = some page') :
      Ran b start (inputs ++ [(input, supply)]) page'

/-! ### The sends -/

theorem modify_concat {α : Type} (l : List α) (a : α) (f : α → α) :
    (l ++ [a]).modify l.length f = l ++ [f a] := by
  induction l with
  | nil => rfl
  | cons c l ih => exact congrArg (c :: ·) ih

theorem stop_eq (page : Page) : page.stop = { page with
    controller := page.stop.controller, cancelRequests := page.stop.cancelRequests } := by
  rw [stop]
  split <;> rfl

/-- The last send starts, or waits until another one has been stopped. -/
theorem start_concat {sends : List Send} {send : Send} (hsends : page.sends = sends ++ [send])
    (hphase : send.phase = .stopping) : ∃ phase, (phase = .stopping ∨ phase = .requesting) ∧
      (page.start sends.length).sends = sends ++ [{ send with phase := phase }] ∧
      (page.start sends.length).threads = page.threads ∧
      (page.start sends.length).chat = page.chat := by
  rw [start]
  split
  · refine ⟨.stopping, .inl rfl, ?_, ?_, ?_⟩
    · rw [stop_eq, ← hphase]
      exact hsends
    · rw [stop_eq]
    · rw [stop_eq]
  · refine ⟨.requesting, .inr rfl, ?_, rfl, rfl⟩
    rw [begin, changeSend]
    dsimp only
    rw [hsends, modify_concat]

/-- What a new send is like. -/
structure Begun (supply : Supply) (page : Page) (send : Send) : Prop where
  target : ∃ thread, page.activeThread = some thread ∧ thread.id = send.targetThreadId
  id : send.assistantMessageId = supply.createId [1]
  text : send.fullText = []
  phase : send.phase = .stopping ∨ send.phase = .requesting
  unfinalized : send.finalized = none

/-- **All that a message does**: it is not sent, or it is appended with a placeholder for its
answer, and a send begins. -/
theorem handleSendMessage_cases (hvalid : ThreadStore.Valid b.collation page.threads)
    (promptOverride : Option JsString) (promptValue : JsString) :
    page.handleSendMessage b supply promptOverride promptValue = page ∨
      ∃ send threads₁ threads₂,
        page.threads.appendUserMessage b.collation (supply.at 0) send.prompt
          ((if promptOverride.isNone then page.chat.attachments else []).map Attachment.raw) =
            .ok threads₁ ∧
        threads₁.appendAssistantPlaceholder b.collation (supply.at 1)
          (some ((supply.at 0).createId [])) = .ok threads₂ ∧
        Begun supply page send ∧ page.chat.status.isBusy = false ∧
        (page.handleSendMessage b supply promptOverride promptValue).sends = page.sends ++ [send] ∧
        (page.handleSendMessage b supply promptOverride promptValue).threads = threads₂ ∧
        (page.handleSendMessage b supply promptOverride promptValue).chat.status = .sending := by
  rcases hactive : page.activeThread with - | activeThread
  · exact .inl (by simp only [handleSendMessage, hactive])
  -- An empty prompt, a thread that is only shown, or a busy page: nothing is sent.
  by_cases hguard : (trim (promptOverride.getD promptValue) = [] || page.chat.readonlyThread ||
      page.chat.status.isBusy) = true
  · exact .inl (by simp only [handleSendMessage, hactive, if_pos hguard])
  obtain ⟨prompt, hprompt⟩ : ∃ prompt, trim (promptOverride.getD promptValue) = prompt := ⟨_, rfl⟩
  obtain ⟨attachments, hattachments⟩ : ∃ attachments,
      (if promptOverride.isNone then page.chat.attachments else []) = attachments := ⟨_, rfl⟩
  rw [hprompt] at hguard
  -- Neither of the two messages can be refused, since the active thread is there.
  obtain ⟨threads₁, hfirst, hvalid₁, -⟩ := hvalid.step
    (.appendUserMessage prompt (attachments.map Attachment.raw), supply.at 0) List.nodup_nil
  obtain ⟨threads₂, hsecond, -, -⟩ := hvalid₁.step
    (.appendAssistantPlaceholder (some ((supply.at 0).createId [])), supply.at 1) List.nodup_nil
  simp only [ThreadStore.step] at hfirst hsecond
  refine .inr ?_
  have hbusy : page.chat.status.isBusy = false := by
    by_contra hbusy
    exact hguard (by simp [hbusy])
  have heq : page.handleSendMessage b supply promptOverride promptValue =
      (page.sent threads₂ (page.newSend supply activeThread prompt attachments)
        ((supply.at 0).createId [])).start page.sends.length := by
    simp only [handleSendMessage, hactive, hprompt, hattachments, if_neg hguard, hfirst, hsecond]
  obtain ⟨phase, hphase, hsends, hthreads, hchat⟩ :=
    start_concat (show (page.sent threads₂ (page.newSend supply activeThread prompt attachments)
      ((supply.at 0).createId [])).sends = page.sends ++ [_] from rfl) rfl
  rw [heq]
  rw [hattachments]
  exact ⟨_, threads₁, threads₂, hfirst, hsecond,
    ⟨⟨activeThread, hactive, rfl⟩, rfl, rfl, hphase, rfl⟩, hbusy, hsends, hthreads,
    by rw [hchat]; rfl⟩

theorem handleRegenerateMessage_cases (b : Browser) (supply : Supply) (page : Page)
    (messageId : JsString) :
    page.handleRegenerateMessage b supply messageId = page ∨ ∃ content,
      page.handleRegenerateMessage b supply messageId =
        page.handleSendMessage b supply (some content) [] := by
  rw [handleRegenerateMessage]
  split
  · exact .inl rfl
  dsimp only
  split
  · exact .inl rfl
  · split
    · exact .inl rfl
    · exact .inr ⟨_, rfl⟩

/-! ### What a step can do -/

/-- The phase of a send after a call. -/
def phaseAfter : Call → Phase
  | .onDone _ => .rendering
  | .onError _ => .failing sendFailedText
  | _ => .reading

/-- How the `k`th send goes on, short of its end. -/
inductive GoesOn (b : Browser) (k : ℕ) (send : Send) : Input → Send → Prop
  | stopReturned (h : send.phase = .stopping) :
      GoesOn b k send (.stopReturned k) { send with phase := .requesting }
  | requestOpened (h : send.phase = .requesting) :
      GoesOn b k send (.requestOpened k) { send with phase := .reading }
  | requestFailed (h : send.phase = .requesting) (message : Option JsString) :
      GoesOn b k send (.requestFailed k message)
        { send with phase := .failing (message.getD sendFailedText) }
  | heard (h : send.phase = .reading) (call : Call) :
      GoesOn b k send (.heard k call) { send with
        phase := phaseAfter call, fullText := addCall b send.hasAttachments send.fullText call }
  | renderFailed (h : send.phase = .rendering) :
      GoesOn b k send (.renderFailed k) { send with phase := .stuck }

/-- With what the `k`th send ends. -/
inductive Ends (k : ℕ) (send : Send) : Input → ThreadStore.Payload → Prop
  | requestAborted (h : send.phase = .requesting) : Ends k send (.requestAborted k)
      ⟨orString send.fullText stoppedByUserText, [], js "cancelled"⟩
  | caught {message : JsString} (h : send.phase = .failing message) :
      Ends k send (.caught k) ⟨js "Ошибка: " ++ message, [], js "error"⟩
  | rendered (h : send.phase = .rendering) (html : JsString) :
      Ends k send (.rendered k html)
        ⟨send.fullText, if send.fullText = [] then [] else html, js "done"⟩

/-- **All that a step can do**: a send begins, goes on or ends, or none of them is concerned. -/
inductive Effect (b : Browser) (supply : Supply) (page : Page) : Input → Page → Prop
  | begins {input : Input} {page' : Page} {send : Send} {threads₁ : ThreadStore} {prompt : JsString}
      {attachments : List RawAttachment} (hsilent : ∀ k, callsTo k [(input, supply)] = [])
      (hfirst : page.threads.appendUserMessage b.collation (supply.at 0) prompt attachments =
        .ok threads₁)
      (hsecond : threads₁.appendAssistantPlaceholder b.collation (supply.at 1)
        (some ((supply.at 0).createId [])) = .ok page'.threads)
      (hbegun : Begun supply page send) (hfree : page.chat.status.isBusy = false)
      (hsends : page'.sends = page.sends ++ [send]) : Effect b supply page input page'
  | goesOn {input : Input} {page' : Page} {k : ℕ} {send send' : Send}
      (hsend : page.sends[k]? = some send) (hgoes : GoesOn b k send input send')
      (hsends : page'.sends = page.sends.set k send') (hthreads : page'.threads = page.threads) :
      Effect b supply page input page'
  | ends {input : Input} {page' : Page} {k : ℕ} {send : Send} {payload : ThreadStore.Payload}
      (hsend : page.sends[k]? = some send) (hends : Ends k send input payload)
      (hsends : page'.sends = page.sends.set k { send with
        phase := .over, finalized := some payload })
      (hthreads : page'.threads = page.threads.finalizeAssistantMessage b.collation supply
        send.assistantMessageId payload send.targetThreadId)
      (hfree : page'.chat.status.isBusy = false) : Effect b supply page input page'
  | rests {input : Input} {page' : Page} (hsilent : ∀ k, callsTo k [(input, supply)] = [])
      (hsends : page'.sends = page.sends)
      (hvalid : ThreadStore.Distinct input.listed → ThreadStore.Valid b.collation page.threads →
        ThreadStore.Valid b.collation page'.threads)
      (hcarries : ∀ id, supply.Avoids id → id ≠ [] → (∀ message ∈ input.messages, message.id ≠ id) →
        ThreadStore.Carries page.threads page'.threads id)
      (hstatus : page'.chat.status = page.chat.status ∨ page'.chat.status.isBusy = false)
      (hwaits : page.chat.status.isBusy = true → page.handlers = [] →
        page'.handlers = [] ∧ page'.chat.status = page.chat.status) :
      Effect b supply page input page'

theorem modify_eq_set {α : Type} {l : List α} {k : ℕ} {a : α} (f : α → α) (h : l[k]? = some a) :
    l.modify k f = l.set k (f a) := by
  obtain ⟨hlt, rfl⟩ := List.getElem?_eq_some_iff.mp h
  refine List.ext_getElem? fun j => ?_
  rw [List.getElem?_modify, List.getElem?_set]
  by_cases hk : k = j
  · subst hk
    simp [hlt]
  · simp [hk]

theorem set_self {α : Type} {l : List α} {k : ℕ} {a : α} (h : l[k]? = some a) : l.set k a = l := by
  obtain ⟨hlt, rfl⟩ := List.getElem?_eq_some_iff.mp h
  exact List.set_getElem_self hlt

theorem sends_changeSend {k : ℕ} {send : Send} (hsend : page.sends[k]? = some send)
    (f : Send → Send) : (page.changeSend k f).sends = page.sends.set k (f send) :=
  modify_eq_set f hsend

theorem sends_onCall {k : ℕ} {send : Send} (hsend : page.sends[k]? = some send)
    (hphase : send.phase = .reading) (call : Call) :
    (page.onCall b k send call).sends = page.sends.set k { send with
      phase := phaseAfter call, fullText := addCall b send.hasAttachments send.fullText call } ∧
    (page.onCall b k send call).threads = page.threads := by
  cases call with
  | onJob jobId =>
    have hafter : phaseAfter (.onJob jobId) = send.phase := hphase.symm
    rw [hafter]
    exact ⟨(set_self hsend).symm, rfl⟩
  | onToken token =>
    have hafter : phaseAfter (.onToken token) = send.phase := hphase.symm
    rw [onCall, hafter]
    dsimp only
    split
    · exact ⟨sends_changeSend hsend _, rfl⟩
    · exact ⟨sends_changeSend hsend _, rfl⟩
  | onResult result =>
    have hafter : phaseAfter (.onResult result) = send.phase := hphase.symm
    rw [onCall, hafter, addCall]
    split
    · exact ⟨sends_changeSend hsend _, rfl⟩
    · exact ⟨(set_self hsend).symm, rfl⟩
  | onDone event => exact ⟨sends_changeSend hsend _, rfl⟩
  | onError error => exact ⟨sends_changeSend hsend _, rfl⟩

section Effects

variable {input : Input}

/-- The threads and the sends stay, and so does the status. -/
theorem Effect.still (hsilent : ∀ k, callsTo k [(input, supply)] = [])
    (hsends : page'.sends = page.sends) (hthreads : page'.threads = page.threads)
    (hstatus : page'.chat.status = page.chat.status)
    (hwaits : page.chat.status.isBusy = true → page.handlers = [] → page'.handlers = []) :
    Effect b supply page input page' := by
  refine .rests hsilent hsends (fun _ h => ?_) (fun id _ _ _ => ?_) (.inl hstatus)
    fun hbusy hnone => ⟨hwaits hbusy hnone, hstatus⟩
  · rw [hthreads]
    exact h
  · rw [hthreads]
    exact .refl _ id

/-- The threads are changed, and the chat is at rest. -/
theorem Effect.settles (hsilent : ∀ k, callsTo k [(input, supply)] = [])
    (hsends : page'.sends = page.sends) (hstatus : page'.chat.status = .idle)
    (hwaited : page.chat.status.isBusy = false ∨ page.handlers ≠ [])
    (hvalid : ThreadStore.Distinct input.listed → ThreadStore.Valid b.collation page.threads →
      ThreadStore.Valid b.collation page'.threads)
    (hcarries : ∀ id, supply.Avoids id → id ≠ [] → (∀ message ∈ input.messages, message.id ≠ id) →
      ThreadStore.Carries page.threads page'.threads id) :
    Effect b supply page input page' := by
  refine .rests hsilent hsends hvalid hcarries (.inr (by rw [hstatus]; rfl)) fun hbusy hnone => ?_
  rcases hwaited with hfree | hwaited
  · rw [hfree] at hbusy
    exact absurd hbusy Bool.false_ne_true
  · exact absurd hnone hwaited

theorem effect_handleSendMessage (hvalid : ThreadStore.Valid b.collation page.threads)
    (hsilent : ∀ k, callsTo k [(input, supply)] = []) (promptOverride : Option JsString)
    (promptValue : JsString) :
    Effect b supply page input (page.handleSendMessage b supply promptOverride promptValue) := by
  rcases handleSendMessage_cases hvalid promptOverride promptValue with
    heq | ⟨send, threads₁, threads₂, hfirst, hsecond, hbegun, hfree, hsends, hthreads, -⟩
  · rw [heq]
    exact .still hsilent rfl rfl rfl fun _ h => h
  · rw [← hthreads] at hsecond
    exact .begins hsilent hfirst hsecond hbegun hfree hsends

theorem effect_finalize {k : ℕ} {send : Send} {payload : ThreadStore.Payload}
    {status : ChatLifecycle} {error : Option JsString} (hsend : page.sends[k]? = some send)
    (hends : Ends k send input payload) (hfree : status.isBusy = false) :
    Effect b supply page input (page.finalize b supply k send payload status error) :=
  .ends hsend hends (sends_changeSend hsend _) rfl hfree

/-- The server is asked for something, unless a guard forbids it. -/
theorem effect_asks (hsilent : ∀ k, callsTo k [(input, supply)] = []) {guard : Bool}
    (hguard : guard = false → page.chat.status.isBusy = false) (handler : Handler) :
    Effect b supply page input
      (if guard = true then page else { page with handlers := page.handlers ++ [handler] }) := by
  split
  · exact .still hsilent rfl rfl rfl fun _ h => h
  next hopen =>
    have hfree := hguard (by simpa using hopen)
    exact .still hsilent rfl rfl rfl fun hbusy => by simp [hfree] at hbusy

theorem effect_handleNewChat (hsilent : ∀ k, callsTo k [(input, supply)] = [])
    (hfree : page.chat.status.isBusy = false) :
    Effect b supply page input page.handleNewChat := by
  have hwaits : ∀ handlers, Effect b supply page input { page with handlers := handlers } :=
    fun _ => .still hsilent rfl rfl rfl fun hbusy => by simp [hfree] at hbusy
  rw [handleNewChat]
  split
  · split
    · refine .settles hsilent rfl rfl (.inl hfree) (fun _ h => ?_) fun id _ _ _ => ?_
      · exact (h.setActiveThread _).1
      · exact ThreadStore.carries_setActiveThread _ _
    · exact hwaits _
  · exact hwaits _

/-- What a handler does with its answer. -/
theorem effect_onAnswer {i : ℕ} {handler : Handler} {answer : Answer}
    (hhandler : page.handlers[i]? = some handler)
    (hanswer : ({ page with handlers := page.handlers.eraseIdx i } : Page).onAnswer b supply handler
      answer = some page') : Effect b supply page (.answered i answer) page' := by
  have hsilent : ∀ k, callsTo k [(Input.answered i answer, supply)] = [] := fun _ => rfl
  have hsome : page.handlers ≠ [] := by
    rintro hnil
    simp [hnil] at hhandler
  -- A handler whose request fails leaves all as it is.
  have hfails : ∀ {page' : Page}, page'.sends = page.sends → page'.threads = page.threads →
      page'.chat.status = page.chat.status → Effect b supply page (.answered i answer) page' :=
    fun hsends hthreads hstatus => .still hsilent hsends hthreads hstatus fun _ h => absurd h hsome
  cases handler with
  | creatingThread =>
    cases answer with
    | threadCreated threads activeThreadId threadId =>
      obtain rfl := Option.some.inj hanswer
      refine .settles hsilent rfl rfl (.inr hsome) (fun hlisted _ => ?_) fun id havoids hid _ => ?_
      · exact ThreadStore.valid_replaceThreads hlisted _ _
      · exact ThreadStore.carries_replaceThreads havoids hid _ _ _
    | failed =>
      obtain rfl := Option.some.inj hanswer
      exact hfails rfl rfl rfl
    | _ => cases hanswer
  | clearingThread =>
    cases answer with
    | threadCleared =>
      obtain rfl := Option.some.inj hanswer
      refine .settles hsilent rfl rfl (.inr hsome) (fun _ h => ?_) fun id _ _ _ => ?_
      · obtain ⟨threads, hcleared, hvalid, -⟩ :=
          h.step (.clearLiveThreadMessages, supply) List.nodup_nil
        obtain rfl := Except.ok.inj hcleared
        exact hvalid
      · exact ThreadStore.carries_clearLiveThreadMessages _
    | failed =>
      obtain rfl := Option.some.inj hanswer
      exact hfails rfl rfl rfl
    | _ => cases hanswer
  | deletingThread threadId activeThreadId =>
    cases answer with
    | threadDeleted threads active =>
      have hreplaced : ∀ {page' : Page} {id : JsString}, page'.sends = page.sends →
          page'.chat.status = page.chat.status → page'.threads =
            page.threads.replaceThreads b.collation supply threads (some id) →
          Effect b supply page (.answered i (.threadDeleted threads active)) page' := by
        intro page' id hsends hstatus hthreads
        refine .rests hsilent hsends (fun hlisted _ => ?_) (fun id havoids hid _ => ?_)
          (.inl hstatus) fun _ h => absurd h hsome
        · rw [hthreads]
          exact ThreadStore.valid_replaceThreads hlisted _ _
        · rw [hthreads]
          exact ThreadStore.carries_replaceThreads havoids hid _ _ _
      rw [onAnswer] at hanswer
      dsimp only at hanswer
      split at hanswer
      · obtain rfl := Option.some.inj hanswer
        exact hreplaced rfl rfl rfl
      · obtain rfl := Option.some.inj hanswer
        exact hreplaced rfl rfl rfl
    | failed =>
      obtain rfl := Option.some.inj hanswer
      exact hfails rfl rfl rfl
    | _ => cases hanswer
  | selectingThread threadId =>
    cases answer with
    | threadMessages thread messages =>
      rcases thread with - | thread
      · obtain rfl := Option.some.inj hanswer
        refine .settles hsilent rfl rfl (.inr hsome) (fun _ h => ?_)
          fun id havoids hid hforeign => ?_
        · exact ((h.setThreadMessages threadId messages).1.setActiveThread threadId).1
        · exact (ThreadStore.carries_setThreadMessages havoids hid threadId hforeign _).trans
            (ThreadStore.carries_setActiveThread threadId _)
      · obtain rfl := Option.some.inj hanswer
        refine .settles hsilent rfl rfl (.inr hsome) (fun _ h => ?_)
          fun id havoids hid hforeign => ?_
        · exact (h.attachServerThread thread (some messages)).1
        · have hmessages : ∀ message ∈ (some messages).getD [], message.id ≠ id := hforeign
          exact ThreadStore.carries_attachServerThread havoids hid thread hmessages _
    | failed =>
      obtain rfl := Option.some.inj hanswer
      exact hfails rfl rfl rfl
    | _ => cases hanswer
  | switchingModel =>
    cases answer with
    | modelSwitched name key description =>
      obtain rfl := Option.some.inj hanswer
      exact hfails rfl rfl rfl
    | failed =>
      obtain rfl := Option.some.inj hanswer
      exact hfails rfl rfl rfl
    | _ => cases hanswer

/-- **All that a step can do.** -/
theorem effect_step (hvalid : ThreadStore.Valid b.collation page.threads)
    (hstep : page.step b supply input = some page') : Effect b supply page input page' := by
  cases input with
  | submit promptValue =>
    obtain rfl := Option.some.inj hstep
    exact effect_handleSendMessage hvalid (fun _ => rfl) _ _
  | regenerateMessage messageId =>
    obtain rfl := Option.some.inj hstep
    rcases handleRegenerateMessage_cases b supply page messageId with heq | ⟨content, heq⟩
    · rw [heq]
      exact .still (fun _ => rfl) rfl rfl rfl fun _ h => h
    · rw [heq]
      exact effect_handleSendMessage hvalid (fun _ => rfl) _ _
  | stopGeneration =>
    obtain rfl := Option.some.inj hstep
    split
    · rw [stop_eq]
      exact .still (fun _ => rfl) rfl rfl rfl fun _ h => h
    · exact .still (fun _ => rfl) rfl rfl rfl fun _ h => h
  | newChat =>
    obtain rfl := Option.some.inj hstep
    split
    · exact .still (fun _ => rfl) rfl rfl rfl fun _ h => h
    next hfree => exact effect_handleNewChat (fun _ => rfl) (by simpa using hfree)
  | clearActiveThread =>
    obtain rfl := Option.some.inj hstep
    exact effect_asks (fun _ => rfl) (by simp +contextual) _
  | deleteThread threadId confirmed =>
    obtain rfl := Option.some.inj hstep
    exact effect_asks (fun _ => rfl) (by simp +contextual) _
  | selectThread threadId =>
    obtain rfl := Option.some.inj hstep
    exact effect_asks (fun _ => rfl) id _
  | switchModel modelKey =>
    obtain rfl := Option.some.inj hstep
    exact effect_asks (fun _ => rfl) id _
  | attach files =>
    obtain rfl := Option.some.inj hstep
    split
    · exact .still (fun _ => rfl) rfl rfl rfl fun _ h => h
    · exact .still (fun _ => rfl) rfl rfl rfl fun _ h => h
  | removeAttachment attachmentId =>
    obtain rfl := Option.some.inj hstep
    exact .still (fun _ => rfl) rfl rfl rfl fun _ h => h
  -- From here on, what the server and the streams bring, each for the send it belongs to.
  | stopReturned k =>
    obtain ⟨send, hsend, hthen⟩ := Option.bind_eq_some_iff.mp hstep
    split_ifs at hthen with hphase
    obtain rfl := Option.some.inj hthen
    exact .goesOn hsend (.stopReturned hphase) (sends_changeSend hsend _) rfl
  | requestOpened k =>
    obtain ⟨send, hsend, hthen⟩ := Option.bind_eq_some_iff.mp hstep
    split_ifs at hthen with hphase
    obtain rfl := Option.some.inj hthen
    exact .goesOn hsend (.requestOpened hphase) (sends_changeSend hsend _) rfl
  | requestAborted k =>
    obtain ⟨send, hsend, hthen⟩ := Option.bind_eq_some_iff.mp hstep
    split_ifs at hthen with hphase
    obtain rfl := Option.some.inj hthen
    exact .ends hsend (.requestAborted hphase) (sends_changeSend hsend _) rfl rfl
  | requestFailed k message =>
    obtain ⟨send, hsend, hthen⟩ := Option.bind_eq_some_iff.mp hstep
    split_ifs at hthen with hphase
    obtain rfl := Option.some.inj hthen
    exact .goesOn hsend (.requestFailed hphase message) (sends_changeSend hsend _) rfl
  | heard k call =>
    obtain ⟨send, hsend, hthen⟩ := Option.bind_eq_some_iff.mp hstep
    split_ifs at hthen with hphase
    obtain rfl := Option.some.inj hthen
    obtain ⟨hsends, hthreads⟩ := sends_onCall (b := b) hsend hphase call
    exact .goesOn hsend (.heard hphase call) hsends hthreads
  | caught k =>
    obtain ⟨send, hsend, hthen⟩ := Option.bind_eq_some_iff.mp hstep
    split at hthen
    next message hphase =>
      obtain rfl := Option.some.inj hthen
      exact effect_finalize hsend (.caught hphase) rfl
    · cases hthen
  | rendered k html =>
    obtain ⟨send, hsend, hthen⟩ := Option.bind_eq_some_iff.mp hstep
    split_ifs at hthen with hphase
    obtain rfl := Option.some.inj hthen
    exact effect_finalize hsend (.rendered hphase html) rfl
  | renderFailed k =>
    obtain ⟨send, hsend, hthen⟩ := Option.bind_eq_some_iff.mp hstep
    split_ifs at hthen with hphase
    obtain rfl := Option.some.inj hthen
    exact .goesOn hsend (.renderFailed hphase.1) (sends_changeSend hsend _) rfl
  | answered i answer =>
    obtain ⟨handler, hhandler, hanswer⟩ := Option.bind_eq_some_iff.mp hstep
    exact effect_onAnswer hhandler hanswer

end Effects

/-! ### What each send has been told -/

theorem answerText_concat (b : Browser) (hasAttachments : Bool) (calls : List Call) (call : Call) :
    answerText b hasAttachments (calls ++ [call]) =
      addCall b hasAttachments (answerText b hasAttachments calls) call := by
  rw [answerText, List.foldl_append]
  rfl

/-- A send that begins has not been told anything. -/
theorem Begun.agrees {send : Send} (h : Begun supply page send) : send.Agrees b [] := by
  refine ⟨h.text, fun _ => h.unfinalized, fun _ => rfl, fun hphase => ?_, fun _ _ => .inl rfl, ?_⟩
  · rcases h.phase with hphase' | hphase' <;> simp [hphase'] at hphase
  · rw [h.unfinalized]
    exact nofun

/-- A send that goes on agrees with what it has been told by then. -/
theorem GoesOn.agrees {k : ℕ} {send send' : Send} {input : Input} {calls : List Call}
    (h : send.Agrees b calls) (hgoes : GoesOn b k send input send') :
    send'.Agrees b (calls ++ callsTo k [(input, supply)]) := by
  cases hgoes with
  | stopReturned hphase =>
    rw [show callsTo k [(Input.stopReturned k, supply)] = [] from rfl, List.append_nil]
    have hunfinalized := h.unfinalized (by simp [hphase])
    exact ⟨h.text, fun _ => hunfinalized, fun _ => h.silent (.inl hphase), by simp, by simp,
      h.delivered⟩
  | requestOpened hphase =>
    rw [show callsTo k [(Input.requestOpened k, supply)] = [] from rfl, List.append_nil]
    have hunfinalized := h.unfinalized (by simp [hphase])
    exact ⟨h.text, fun _ => hunfinalized, by simp, by simp, by simp, h.delivered⟩
  | requestFailed hphase message =>
    rw [show callsTo k [(Input.requestFailed k message, supply)] = [] from rfl, List.append_nil]
    have hunfinalized := h.unfinalized (by simp [hphase])
    exact ⟨h.text, fun _ => hunfinalized, by simp, by simp,
      fun _ _ => .inl (h.silent (.inr hphase)), h.delivered⟩
  -- The one input that brings a call of the stream.
  | heard hphase call =>
    have hunfinalized := h.unfinalized (by simp [hphase])
    have hcalls : callsTo k [(Input.heard k call, supply)] = [call] := by simp [callsTo]
    rw [hcalls]
    refine ⟨?_, fun _ => hunfinalized, ?_, ?_, ?_, ?_⟩
    · rw [answerText_concat, ← h.text]
    · cases call <;> simp [phaseAfter]
    · cases call <;> simp [phaseAfter]
    · intro message hfailing
      cases call with
      | onError error =>
        obtain rfl := Phase.failing.inj hfailing
        exact .inr ⟨rfl, error, by simp⟩
      | _ => cases hfailing
    · rw [hunfinalized]
      exact nofun
  | renderFailed hphase =>
    rw [show callsTo k [(Input.renderFailed k, supply)] = [] from rfl, List.append_nil]
    have hunfinalized := h.unfinalized (by simp [hphase])
    exact ⟨h.text, fun _ => hunfinalized, by simp, fun _ => h.done (.inl hphase), by simp,
      h.delivered⟩

/-- A send that ends has been told what it ends with. -/
theorem Ends.agrees {k : ℕ} {send : Send} {input : Input} {payload : ThreadStore.Payload}
    {calls : List Call} (h : send.Agrees b calls) (hends : Ends k send input payload) :
    Send.Agrees b { send with phase := .over, finalized := some payload }
      (calls ++ callsTo k [(input, supply)]) := by
  have hsilent : callsTo k [(input, supply)] = [] := by cases hends <;> rfl
  rw [hsilent, List.append_nil]
  refine ⟨h.text, by simp, by simp, by simp, by simp, ?_⟩
  intro payload' hpayload
  obtain rfl := Option.some.inj hpayload
  cases hends with
  | requestAborted hphase =>
    have hcalls := h.silent (.inr hphase)
    refine .inr (.inl ⟨rfl, ?_, hcalls⟩)
    rw [h.text, hcalls]
    rfl
  | caught hphase => exact .inr (.inr ⟨rfl, _, rfl, h.failed _ hphase⟩)
  | rendered hphase html => exact .inl ⟨rfl, h.text, h.done (.inl hphase)⟩

/-- The sends agree with what they have been told, and nobody else has been told anything. -/
def Agree (b : Browser) (page : Page) (inputs : List (Input × Supply)) : Prop :=
  ∀ k, match page.sends[k]? with
    | none => callsTo k inputs = []
    | some send => send.Agrees b (callsTo k inputs)

theorem GoesOn.callsTo_of_ne {j k : ℕ} {send send' : Send} {input : Input}
    (h : GoesOn b k send input send') (hne : k ≠ j) : callsTo j [(input, supply)] = [] := by
  cases h <;> simp [callsTo, hne]

theorem Ends.callsTo_eq_nil {k : ℕ} {send : Send} {input : Input} {payload : ThreadStore.Payload}
    (h : Ends k send input payload) (j : ℕ) : callsTo j [(input, supply)] = [] := by
  cases h <;> rfl

/-- A send is put in for the `k`th one. -/
theorem Agree.set {inputs : List (Input × Supply)} {input : Input} {k : ℕ} {send send' : Send}
    (h : Agree b page inputs) (hsend : page.sends[k]? = some send)
    (hsends : page'.sends = page.sends.set k send')
    (hothers : ∀ j, k ≠ j → callsTo j [(input, supply)] = [])
    (hagrees : send'.Agrees b (callsTo k inputs ++ callsTo k [(input, supply)])) :
    Agree b page' (inputs ++ [(input, supply)]) := by
  intro j
  rw [callsTo_concat, hsends, List.getElem?_set]
  by_cases hk : k = j
  · subst hk
    have hlt := (List.getElem?_eq_some_iff.mp hsend).1
    simpa [hlt] using hagrees
  · rw [if_neg hk, hothers j hk, List.append_nil]
    exact h j

theorem Agree.step {inputs : List (Input × Supply)} {input : Input} (h : Agree b page inputs)
    (heffect : Effect b supply page input page') : Agree b page' (inputs ++ [(input, supply)]) := by
  cases heffect with
  | @begins send _ _ _ hsilent _ _ hbegun _ hsends =>
    intro j
    rw [callsTo_concat, hsilent, List.append_nil, hsends]
    have hj := h j
    rcases lt_trichotomy j page.sends.length with hlt | rfl | hgt
    · rwa [List.getElem?_append_left hlt]
    · -- The new send has not been told anything yet.
      rw [List.getElem?_eq_none le_rfl] at hj
      rw [List.getElem?_concat_length, hj]
      exact hbegun.agrees
    · rw [List.getElem?_eq_none hgt.le] at hj
      rw [List.getElem?_eq_none (by simp; omega)]
      exact hj
  | @goesOn k send _ hsend hgoes hsends _ =>
    have hk := h k
    rw [hsend] at hk
    exact h.set hsend hsends (fun j hne => hgoes.callsTo_of_ne hne) (hgoes.agrees hk)
  | @ends k send _ hsend hends hsends _ _ =>
    have hk := h k
    rw [hsend] at hk
    exact h.set hsend hsends (fun j _ => hends.callsTo_eq_nil j) (hends.agrees hk)
  | rests hsilent hsends _ _ _ _ =>
    intro j
    rw [callsTo_concat, hsilent, List.append_nil, hsends]
    exact h j

/-! ### What the threads show of each send -/

/-- **The invariant of the page**: the message of a send is shown in its thread only, as what the
send was finalized with, or it is not there. -/
structure Tracks (b : Browser) (page : Page) : Prop where
  valid : ThreadStore.Valid b.collation page.threads
  named : ∀ send ∈ page.sends, send.assistantMessageId ≠ []
  apart : (page.sends.map Send.assistantMessageId).Nodup
  shows : ∀ send ∈ page.sends,
    page.threads.Shows send.assistantMessageId send.targetThreadId send.face

theorem Tracks.rests {input : Input} (h : Tracks b page) (hproper : page.Proper input supply)
    (hsends : page'.sends = page.sends)
    (hvalid : ThreadStore.Distinct input.listed → ThreadStore.Valid b.collation page.threads →
      ThreadStore.Valid b.collation page'.threads)
    (hcarries : ∀ id, supply.Avoids id → id ≠ [] → (∀ message ∈ input.messages, message.id ≠ id) →
      ThreadStore.Carries page.threads page'.threads id) : Tracks b page' := by
  refine ⟨hvalid hproper.listed h.valid, ?_, ?_, ?_⟩ <;> rw [hsends]
  · exact h.named
  · exact h.apart
  · intro send hsend
    exact (h.shows send hsend).carried (hcarries _ (hproper.avoids send hsend)
      (h.named send hsend) (hproper.foreign send hsend))

/-- Where a send is put in for another one, the rest have other messages. -/
theorem mem_set_cases {sends : List Send} (hapart : (sends.map Send.assistantMessageId).Nodup)
    {k : ℕ} {send send' other : Send} (hsend : sends[k]? = some send)
    (hother : other ∈ sends.set k send') : other = send' ∨
      other ∈ sends ∧ send.assistantMessageId ≠ other.assistantMessageId := by
  obtain ⟨j, hj⟩ := List.mem_iff_getElem?.mp hother
  rw [List.getElem?_set] at hj
  by_cases hk : k = j
  · subst hk
    have hlt := (List.getElem?_eq_some_iff.mp hsend).1
    rw [if_pos rfl, if_pos hlt] at hj
    exact .inl (Option.some.inj hj).symm
  · rw [if_neg hk] at hj
    refine .inr ⟨List.mem_iff_getElem?.mpr ⟨j, hj⟩, fun heq => hk ?_⟩
    obtain ⟨hltk, rfl⟩ := List.getElem?_eq_some_iff.mp hsend
    obtain ⟨hltj, rfl⟩ := List.getElem?_eq_some_iff.mp hj
    have hltk' : k < (sends.map Send.assistantMessageId).length := by simpa using hltk
    have hltj' : j < (sends.map Send.assistantMessageId).length := by simpa using hltj
    have hids : (sends.map Send.assistantMessageId)[k] =
        (sends.map Send.assistantMessageId)[j] := by simpa using heq
    exact hapart.getElem_inj_iff.mp hids

/-- A send with the same message is put in. -/
theorem Tracks.set {k : ℕ} {send send' : Send} (h : Tracks b page)
    (hsend : page.sends[k]? = some send) (hsends : page'.sends = page.sends.set k send')
    (hvalid : ThreadStore.Valid b.collation page'.threads)
    (hsame : send'.assistantMessageId = send.assistantMessageId)
    (hshows : page'.threads.Shows send.assistantMessageId send'.targetThreadId send'.face)
    (hothers : ∀ other ∈ page.sends, send.assistantMessageId ≠ other.assistantMessageId →
      page'.threads.Shows other.assistantMessageId other.targetThreadId other.face) :
    Tracks b page' := by
  have hmem := List.mem_of_getElem? hsend
  refine ⟨hvalid, ?_, ?_, ?_⟩ <;> rw [hsends]
  · intro other hother
    rcases mem_set_cases h.apart hsend hother with rfl | ⟨hin, -⟩
    · rw [hsame]
      exact h.named send hmem
    · exact h.named other hin
  · rw [List.map_set, hsame, set_self]
    · exact h.apart
    · rw [List.getElem?_map, hsend]
      rfl
  · intro other hother
    rcases mem_set_cases h.apart hsend hother with rfl | ⟨hin, hne⟩
    · rw [hsame]
      exact hshows
    · exact hothers other hin hne

/-- What is shown of a message under an identifier that is new. -/
theorem faces_eq_nil_of_fresh {t : Thread} {id : JsString}
    (h : ∀ message ∈ t.messages, message.id ≠ id) : t.faces id = [] := by
  rw [Thread.faces, facesOf, List.map_eq_nil_iff, List.filter_eq_nil_iff]
  intro message hmessage
  simpa using h message hmessage

/-- **A send that begins shows its placeholder**, in the thread that is active. -/
theorem shows_of_begun {threads : ThreadStore} {prompt : JsString}
    {attachments : List RawAttachment} {threads₁ threads₂ : ThreadStore}
    (hvalid : ThreadStore.Valid b.collation threads)
    (hfirst : threads.appendUserMessage b.collation (supply.at 0) prompt attachments =
      .ok threads₁)
    (hsecond : threads₁.appendAssistantPlaceholder b.collation (supply.at 1)
      (some ((supply.at 0).createId [])) = .ok threads₂)
    (hfresh : ∀ t ∈ threads.threads, ∀ message ∈ t.messages, message.id ≠ supply.createId [1])
    (hapart : (supply.at 0).Avoids (supply.createId [1])) {threadId : JsString}
    (htarget : threads.activeThreadId = some threadId) :
    threads₂.Shows (supply.createId [1]) threadId ⟨.assistant, [], [], js "streaming"⟩ := by
  obtain ⟨live, hlive, -, hid⟩ := hvalid.exists_getLiveThread
  have htarget : live.id = threadId := by
    obtain ⟨active, -, hactive, hlive'⟩ := hvalid.active
    exact Option.some.inj (hid.symm.trans (hlive'.trans (hactive.symm.trans htarget)))
  -- The message of the user is another one, so nothing shows the identifier yet.
  have hnil : ∀ t ∈ threads₁.threads, t.faces (supply.createId [1]) = [] := by
    intro t ht
    rcases ThreadStore.carries_appendUserMessage hfirst (hapart []) t ht with
      hnil | ⟨t', ht', -, heq⟩
    · exact hnil
    · rw [heq]
      exact faces_eq_nil_of_fresh (hfresh t' ht')
  obtain ⟨_, hstep, hvalid₁, -⟩ := hvalid.step (.appendUserMessage prompt attachments, supply.at 0)
    List.nodup_nil
  obtain rfl := Except.ok.inj (hfirst.symm.trans hstep)
  rw [ThreadStore.appendUserMessage, hlive] at hfirst
  obtain rfl := Except.ok.inj hfirst
  obtain ⟨live₁, hlive₁, hmem₁, hid₁⟩ := hvalid₁.exists_getLiveThread
  rw [ThreadStore.appendAssistantPlaceholder, hlive₁] at hsecond
  obtain rfl := Except.ok.inj hsecond
  intro t ht
  rcases mem_updateFirst (ThreadStore.find?_eq_of_getLiveThread hlive₁)
    (ThreadStore.mem_sortThreads.mp ht) with rfl | hmem
  · refine .inr ⟨?_, ?_⟩
    · exact (Option.some.inj hid₁).symm.trans htarget
    · rw [Thread.faces, ThreadStore.withPlaceholder, facesOf_append]
      have hbefore := hnil live₁ hmem₁
      rw [Thread.faces] at hbefore
      rw [hbefore, facesOf_singleton]
      exact if_pos rfl
  · exact .inl (hnil t hmem)

theorem Tracks.step {input : Input} (h : Tracks b page) (hproper : page.Proper input supply)
    (heffect : Effect b supply page input page') : Tracks b page' := by
  cases heffect with
  -- A new send: its messages have ids that no other send has.
  | @begins send _ _ _ _ hfirst hsecond hbegun _ hsends =>
    obtain ⟨thread, hthread, htarget⟩ := hbegun.target
    obtain ⟨threadId, hactive, hfound⟩ := Option.bind_eq_some_iff.mp hthread
    have hid := (ThreadStore.mem_ids_of_findThread hfound).2
    obtain ⟨_, hstep, hvalid₁, -⟩ := h.valid.step (.appendUserMessage _ _, supply.at 0)
      List.nodup_nil
    obtain rfl := Except.ok.inj (hfirst.symm.trans hstep)
    obtain ⟨_, hstep, hvalid₂, -⟩ := hvalid₁.step (.appendAssistantPlaceholder _, supply.at 1)
      List.nodup_nil
    obtain hthreads := Except.ok.inj (hsecond.symm.trans hstep)
    refine ⟨hthreads ▸ hvalid₂, ?_, ?_, ?_⟩ <;> rw [hsends]
    · intro other hother
      rcases List.mem_append.mp hother with hin | hin
      · exact h.named other hin
      · rw [List.mem_singleton.mp hin, hbegun.id]
        exact hproper.named
    · rw [List.map_append, List.map_singleton, hbegun.id, ← List.concat_eq_append]
      refine h.apart.concat fun hmem => ?_
      obtain ⟨other, hother, heq⟩ := List.mem_map.mp hmem
      exact hproper.avoids other hother [1] heq.symm
    · intro other hother
      rcases List.mem_append.mp hother with hin | hin
      · have havoids := hproper.avoids other hin
        exact (h.shows other hin).carried
          ((ThreadStore.carries_appendUserMessage hfirst (havoids [0])).trans
            (ThreadStore.carries_appendAssistantPlaceholder hsecond (havoids [1])))
      · obtain rfl := List.mem_singleton.mp hin
        have hface : other.face = ⟨.assistant, [], [], js "streaming"⟩ := by
          rw [Send.face, hbegun.unfinalized]
        rw [hface, hbegun.id, ← htarget, hid]
        exact shows_of_begun h.valid hfirst hsecond hproper.fresh hproper.apart hactive
  | @goesOn k send send' hsend hgoes hsends hthreads =>
    have hmem := List.mem_of_getElem? hsend
    have hvalid : ThreadStore.Valid b.collation page'.threads := hthreads ▸ h.valid
    cases hgoes <;> exact h.set hsend hsends hvalid rfl (hthreads ▸ h.shows send hmem)
      fun other hother _ => hthreads ▸ h.shows other hother
  -- A send that ends: only its own message is changed.
  | @ends k send payload hsend hends hsends hthreads _ =>
    have hmem := List.mem_of_getElem? hsend
    refine h.set hsend hsends ?_ rfl ?_ fun other hother hne => ?_ <;> rw [hthreads]
    · exact (h.valid.finalizeAssistantMessage _ _ _).1
    · have hshows : (page.threads.finalizeAssistantMessage b.collation supply
          send.assistantMessageId payload send.targetThreadId).Shows _ _ _ :=
        (h.shows send hmem).finalizeAssistantMessage h.valid payload
      rwa [Face.finalized, send.role_face] at hshows
    · exact (h.shows other hother).carried
        (ThreadStore.carries_finalizeAssistantMessage hne payload _ _)
  | rests _ hsends hvalid hcarries _ _ => exact h.rests hproper hsends hvalid hcarries

/-! ### Whole runs -/

/-- A page on which nothing has been sent yet. -/
structure Opened (b : Browser) (page : Page) : Prop where
  valid : ThreadStore.Valid b.collation page.threads
  sends : page.sends = []

theorem tracks_of_ran {start : Page} {inputs : List (Input × Supply)} (hstart : Opened b start)
    (h : Ran b start inputs page) : Tracks b page ∧ Agree b page inputs := by
  induction h with
  | start =>
    refine ⟨⟨hstart.valid, ?_, ?_, ?_⟩, fun k => ?_⟩ <;> rw [hstart.sends]
    · exact nofun
    · exact List.nodup_nil
    · exact nofun
    · rfl
  | step _ hproper hstep ih =>
    have heffect := effect_step ih.1.valid hstep
    exact ⟨ih.1.step hproper heffect, ih.2.step heffect⟩

/-- **Each answer stands under its own question**: whatever else happens on the page, the message of
a send is shown in the thread it was sent in, or it is gone; it shows what the send was finalized
with; and that is what the stream of this very send has brought. -/
theorem answers_of_ran {start : Page} {inputs : List (Input × Supply)} (hstart : Opened b start)
    (h : Ran b start inputs page) {k : ℕ} {send : Send} (hsend : page.sends[k]? = some send) :
    (∀ t ∈ page.threads.threads, t.faces send.assistantMessageId = [] ∨
      t.id = send.targetThreadId ∧ t.faces send.assistantMessageId = [send.face]) ∧
    ∀ payload, send.finalized = some payload →
      Delivered b send.hasAttachments (callsTo k inputs) payload := by
  obtain ⟨htracks, hagree⟩ := tracks_of_ran hstart h
  have hk := hagree k
  rw [hsend] at hk
  exact ⟨htracks.shows send (List.mem_of_getElem? hsend), hk.delivered⟩

theorem GoesOn.phase_ne_over {k : ℕ} {send send' : Send} {input : Input}
    (h : GoesOn b k send input send') : send'.phase ≠ .over := by
  cases h with
  | heard hphase call => cases call <;> simp [phaseAfter]
  | _ => simp

theorem underWay_of_effect {input : Input} (heffect : Effect b supply page input page')
    (h : page.chat.status.isBusy = true → ∃ send ∈ page.sends, send.phase ≠ .over)
    (hbusy : page'.chat.status.isBusy = true) : ∃ send ∈ page'.sends, send.phase ≠ .over := by
  cases heffect with
  | @begins send _ _ _ _ _ _ hbegun _ hsends =>
    refine ⟨send, by simp [hsends], fun hover => ?_⟩
    have hphase := hbegun.phase
    simp [hover] at hphase
  | @goesOn k send send' hsend hgoes hsends _ =>
    refine ⟨send', List.mem_iff_getElem?.mpr ⟨k, ?_⟩, hgoes.phase_ne_over⟩
    have hlt := (List.getElem?_eq_some_iff.mp hsend).1
    simp [hsends, hlt]
  | ends _ _ _ _ hfree => simp [hfree] at hbusy
  | rests _ hsends _ _ hstatus _ =>
    rw [hsends]
    rcases hstatus with hsame | hfree
    · exact h (hsame ▸ hbusy)
    · simp [hfree] at hbusy

/-- **A busy page is busy with something**: some send is under way, unless the rendering of an
answer has failed. -/
theorem underWay_of_busy {start : Page} {inputs : List (Input × Supply)} (hstart : Opened b start)
    (hidle : start.chat.status.isBusy = false) (h : Ran b start inputs page)
    (hbusy : page.chat.status.isBusy = true) : ∃ send ∈ page.sends, send.phase ≠ .over := by
  induction h with
  | start => simp [hidle] at hbusy
  | step hran _ hstep ih =>
    exact underWay_of_effect (effect_step (tracks_of_ran hstart hran).1.valid hstep) ih hbusy

/-- Nothing is under way, and the page is busy. -/
structure Locked (page : Page) : Prop where
  waits : page.handlers = []
  ended : ∀ send ∈ page.sends, send.phase = .over ∨ send.phase = .stuck
  busy : page.chat.status.isBusy = true

theorem Locked.step {input : Input} (h : Locked page)
    (heffect : Effect b supply page input page') :
    Locked page' ∧ page'.sends = page.sends ∧
      (ThreadStore.Distinct input.listed → ThreadStore.Valid b.collation page.threads →
        ThreadStore.Valid b.collation page'.threads) := by
  cases heffect with
  | begins _ _ _ _ hfree _ =>
    have hbusy := h.busy
    simp [hfree] at hbusy
  | @goesOn k send _ hsend hgoes _ _ =>
    have hended := h.ended send (List.mem_of_getElem? hsend)
    cases hgoes <;> simp_all
  | @ends k send _ hsend hends _ _ _ =>
    have hended := h.ended send (List.mem_of_getElem? hsend)
    cases hends <;> simp_all
  | rests _ hsends hvalid _ _ hwaits =>
    obtain ⟨hwaits', hstatus⟩ := hwaits h.busy h.waits
    refine ⟨⟨hwaits', ?_, ?_⟩, hsends, hvalid⟩
    · rw [hsends]
      exact h.ended
    · rw [hstatus]
      exact h.busy

/-- **A failed rendering locks the page for good.** Where nothing is under way any more and the page
is busy, it stays so, whatever the user does, and no message is ever sent. -/
theorem busy_of_locked (hvalid : ThreadStore.Valid b.collation page.threads)
    (hlocked : Locked page) {inputs : List (Input × Supply)} (h : Ran b page inputs page') :
    page'.chat.status.isBusy = true ∧ page'.sends = page.sends := by
  suffices hlater : Locked page' ∧ page'.sends = page.sends ∧
      ThreadStore.Valid b.collation page'.threads from ⟨hlater.1.busy, hlater.2.1⟩
  induction h with
  | start => exact ⟨hlocked, rfl, hvalid⟩
  | step _ hproper hstep ih =>
    obtain ⟨hlocked', hsends, hvalid'⟩ := ih
    obtain ⟨hnext, hsame, hthreads⟩ := hlocked'.step (effect_step hvalid' hstep)
    exact ⟨hnext, hsame.trans hsends, hthreads hproper.listed hvalid'⟩

/-! ### A small page -/

/-- Identifiers that begin with the number. -/
def numbered (n : ℕ) : Supply := ⟨fun place => (n :: place).map UInt16.ofNat, fun _ => 1⟩

/-- No identifier on the page begins with the number, and nothing is told by the server. -/
def Unused (page : Page) (n : ℕ) (input : Input) : Prop :=
  input.listed.isEmpty = true ∧ input.messages.isEmpty = true ∧
    (∀ send ∈ page.sends, send.assistantMessageId.head? ≠ some (UInt16.ofNat n)) ∧
    ∀ t ∈ page.threads.threads, ∀ message ∈ t.messages,
      message.id.head? ≠ some (UInt16.ofNat n)

instance (page : Page) (n : ℕ) (input : Input) : Decidable (page.Unused n input) :=
  inferInstanceAs (Decidable (_ ∧ _))

theorem Unused.proper {n : ℕ} {input : Input} (h : page.Unused n input) :
    page.Proper input (numbered n) := by
  obtain ⟨hlisted, hmessages, hsends, hthreads⟩ := h
  constructor
  case listed =>
    rw [List.isEmpty_iff.mp hlisted]
    exact List.nodup_nil
  case avoids =>
    intro send hsend place heq
    exact hsends send hsend (heq ▸ rfl)
  case foreign =>
    rw [List.isEmpty_iff.mp hmessages]
    exact nofun
  case named => simp [numbered]
  case fresh =>
    intro t ht message hmessage heq
    exact hthreads t ht message hmessage (heq ▸ rfl)
  case apart =>
    intro place
    simp [numbered, Supply.at]

/-- The inputs, each with identifiers that begin with a number of its own. -/
def numberedFrom (n : ℕ) : List Input → List (Input × Supply)
  | [] => []
  | input :: inputs => (input, numbered n) :: numberedFrom (n + 1) inputs

/-- The page after these inputs, if all of them can be. -/
def play (b : Browser) (page : Page) (n : ℕ) : List Input → Option Page
  | [] => some page
  | input :: inputs =>
    if page.Unused n input then
      (page.step b (numbered n) input).bind fun page' => page'.play b (n + 1) inputs
    else none

/-- Inputs that can be played make a run longer. -/
theorem Ran.play {start : Page} {done : List (Input × Supply)} (h : Ran b start done page) {n : ℕ}
    {inputs : List Input} (hplay : page.play b n inputs = some page') :
    Ran b start (done ++ numberedFrom n inputs) page' := by
  induction inputs generalizing n done page with
  | nil =>
    obtain rfl := Option.some.inj hplay
    rw [numberedFrom, List.append_nil]
    exact h
  | cons input inputs ih =>
    rw [Page.play] at hplay
    split at hplay
    · next hunused =>
      obtain ⟨page₁, hstep, hrest⟩ := Option.bind_eq_some_iff.mp hplay
      have hran := ih (h.step hunused.proper hstep) hrest
      rwa [List.append_assoc] at hran
    · cases hplay

/-- Inputs that can be played and lead to what is tested. -/
theorem exists_of_play (b : Browser) (page : Page) (n : ℕ) (inputs : List Input) {p : Page → Bool}
    (h : (page.play b n inputs).any p = true) :
    ∃ page', Ran b page (numberedFrom n inputs) page' ∧ p page' = true := by
  obtain ⟨page', hplay, hp⟩ := (Option.any_eq_true _ _).mp h
  exact ⟨page', Ran.start.play hplay, hp⟩

def smallBrowser : Browser := ⟨ThreadStore.byLength, fun _ => js "a"⟩

def smallPage : Page :=
  ⟨⟨.idle, [], [], [], [], false, none, none, none, none, false⟩,
    ThreadStore.create ThreadStore.byLength ThreadStore.oneMoment [] [] [], .cleanup, [], [], []⟩

theorem opened_small : Opened smallBrowser smallPage :=
  ⟨ThreadStore.valid_bootstrap (by decide) _ _ _, rfl⟩

/-- A message is sent, and its answer is read to the end. -/
def smallAnswer : List Input :=
  [.submit (js "hello"), .requestOpened 0, .heard 0 (.onToken .null), .heard 0 (.onDone none)]

/-- The answer is rendered, and the request of the next message fails. -/
def smallTalk : List Input :=
  smallAnswer ++ [.rendered 0 (js "<p>a</p>"), .submit (js "again"), .requestFailed 1 none,
    .caught 1]

theorem answers_of_ran_small : ∃ (page : Page) (send : Send) (payload : ThreadStore.Payload),
    page.sends[0]? = some send ∧ send.finalized = some payload ∧
    (∀ t ∈ page.threads.threads, t.faces send.assistantMessageId = [] ∨
      t.id = send.targetThreadId ∧ t.faces send.assistantMessageId = [send.face]) ∧
    Delivered smallBrowser send.hasAttachments (callsTo 0 (numberedFrom 1 smallTalk)) payload := by
  obtain ⟨page, hran, hp⟩ := exists_of_play smallBrowser smallPage 1 smallTalk
    (p := fun page => page.sends[0]?.any fun send => send.finalized.isSome) (by decide +kernel)
  obtain ⟨send, hsend, hfinalized⟩ := (Option.any_eq_true _ _).mp hp
  obtain ⟨payload, hpayload⟩ := Option.isSome_iff_exists.mp hfinalized
  obtain ⟨hshown, hdelivered⟩ := answers_of_ran opened_small hran hsend
  exact ⟨page, send, payload, hsend, hpayload, hshown, hdelivered payload hpayload⟩

theorem underWay_of_busy_small : ∃ page : Page, page.chat.status.isBusy = true ∧
    ∃ send ∈ page.sends, send.phase ≠ .over := by
  obtain ⟨page, hran, hbusy⟩ := exists_of_play smallBrowser smallPage 1 smallAnswer
    (p := fun page => page.chat.status.isBusy) (by decide +kernel)
  exact ⟨page, hbusy, underWay_of_busy opened_small rfl hran hbusy⟩

/-- The answer cannot be rendered, and another message is to be sent. -/
theorem busy_of_locked_small : ∃ locked page,
    Ran smallBrowser smallPage (numberedFrom 1 (smallAnswer ++ [.renderFailed 0])) locked ∧
      Ran smallBrowser locked (numberedFrom 6 [.stopGeneration, .submit (js "again")]) page ∧
      page.chat.status.isBusy = true ∧ page.sends = locked.sends := by
  obtain ⟨locked, hran, hp⟩ := exists_of_play smallBrowser smallPage 1
    (smallAnswer ++ [.renderFailed 0])
    (p := fun page => page.handlers.isEmpty && page.chat.status.isBusy &&
      (page.sends.all fun send => send.phase = .stuck) &&
      (page.play smallBrowser 6 [.stopGeneration, .submit (js "again")]).isSome)
    (by decide +kernel)
  simp only [Bool.and_eq_true, List.isEmpty_iff, List.all_eq_true, decide_eq_true_eq] at hp
  obtain ⟨⟨⟨hwaits, hbusy⟩, hstuck⟩, hplay⟩ := hp
  obtain ⟨page, hplay⟩ := Option.isSome_iff_exists.mp hplay
  have hlater := Ran.start.play hplay
  have hvalid := (tracks_of_ran opened_small hran).1.valid
  exact ⟨locked, page, hran, hlater,
    busy_of_locked hvalid ⟨hwaits, fun send hsend => .inr (hstuck send hsend), hbusy⟩ hlater⟩

end Page

end Client

end AiAgent

import Mathlib.Data.List.ReduceOption
import AiAgent.Client.Conversation
import AiAgent.Client.Renderer

/-!
# What is on the screen

The page tells its renderer of each change apart: that a message was appended, that a token came,
that an answer is final. Only now and then is the active thread rendered as a whole. What is seen in
between is still what would be rendered now, but for the answers that are under way, of which that
much is seen as has come since (`AiAgent.Client.Page.screen_of_drawn`). Where no send is under way
any more, the screen is that of the active thread (`AiAgent.Client.Page.children_of_settled`).

There is one gap. Once the active thread is deleted its messages are seen until the one that follows
it has been loaded, and if that fails they stay (`AiAgent.Client.Page.drawn_of_deleted`).
-/

namespace AiAgent

namespace Client

/-! ### What is painted -/

/-- What the page asks its renderer for. -/
inductive Paint where
  | threadList (threads : List Thread) (activeThreadId liveThreadId : Option JsString)
  | thread (thread : Option Thread) (emptyStateDescription : JsString)
  | message (message : Message)
  | finalized (message : Message)
  | token (messageId token : JsString)

/-- The renderer does what it is asked for. -/
def ChatRenderer.paint (r : ChatRenderer) : Paint → ChatRenderer
  | .threadList threads activeThreadId liveThreadId =>
    r.renderThreadList threads activeThreadId liveThreadId
  | .thread thread emptyStateDescription => r.renderThread thread emptyStateDescription
  | .message message => r.appendMessage message
  | .finalized message => r.finalizeAssistantMessage message
  | .token messageId token => r.appendStreamingToken messageId token

/-- The thread is rendered as a whole. -/
def Paint.isThread : Paint → Bool
  | .thread _ _ => true
  | _ => false

/-- What `finalizeAssistantMessage` returns. -/
def ThreadStore.finalizedMessage (messageId : JsString) (payload : ThreadStore.Payload)
    (threadId : JsString) (s : ThreadStore) : Option Message :=
  (s.threads.find? (isFinalized messageId threadId)).bind fun thread =>
    (thread.messages.find? fun message => message.id = messageId).map (finalizedWith payload)

/-- The messages of the active thread. -/
def ThreadStore.activeMessages (s : ThreadStore) : List Message :=
  ((s.activeThreadId.bind s.findThread).map Thread.messages).getD []

namespace Page

variable {b : Browser} {supply : Supply} {page page' : Page}

/-- `renderThreads`. -/
def renderThreads (page : Page) : Paint :=
  .threadList page.threads.threads page.threads.activeThreadId page.threads.liveThreadId

/-- `renderActiveThread`. -/
def renderActiveThread (page : Page) : Paint :=
  .thread page.activeThread page.chat.currentModelDescription

/-- `renderLayout`. -/
def renderLayout (page : Page) : List Paint := [page.renderThreads, page.renderActiveThread]

/-- What `handleSendMessage` paints before it waits, if a send begins. -/
def paintsOfSend (supply : Supply) (attachments : List Attachment) (page page' : Page) :
    List Paint :=
  match page'.sends[page.sends.length]? with
  | none => []
  | some send =>
    [.message (ThreadStore.userMessage (supply.at 0) send.prompt (attachments.map Attachment.raw)),
      .message (ThreadStore.placeholder (supply.at 1) (some ((supply.at 0).createId []))),
      page'.renderThreads]

/-- What the `k`th send paints when it finalizes its message. -/
def paintsOfEnd (k : ℕ) (page page' : Page) : List Paint :=
  match page.sends[k]?, page'.sends[k]?.bind Send.finalized with
  | some send, some payload =>
    ((page.threads.finalizedMessage send.assistantMessageId payload
      send.targetThreadId).map Paint.finalized).toList ++ [page'.renderThreads]
  | _, _ => []

/-- What a handler paints when it has its answer. -/
def paintsOfAnswer (page' : Page) : Handler → Answer → List Paint
  | _, .failed => []
  | .switchingModel, _ => []
  | .deletingThread threadId activeThreadId, _ =>
    -- The thread that follows the active one is rendered once it is loaded.
    if activeThreadId = threadId then [] else page'.renderLayout
  | _, _ => page'.renderLayout

/-- **What is painted by a step.** -/
def paints (b : Browser) (supply : Supply) (page page' : Page) : Input → List Paint
  | .submit _ => page.paintsOfSend supply page.chat.attachments page'
  | .regenerateMessage _ => page.paintsOfSend supply [] page'
  | .newChat =>
    if page.chat.status.isBusy then []
    else
      match page.activeThread with
      | some activeThread => if activeThread.messages = [] then page'.renderLayout else []
      | none => []
  | .requestAborted k => page.paintsOfEnd k page'
  | .caught k => page.paintsOfEnd k page'
  | .rendered k _ => page.paintsOfEnd k page'
  | .heard k (.onToken token) =>
    (page.sends[k]?.map fun send => Paint.token send.assistantMessageId (b.text token)).toList
  | .answered i answer => (page.handlers[i]?.map fun handler =>
      page'.paintsOfAnswer handler answer).getD []
  | _ => []

/-- A page that runs, what it was told since its active thread was rendered, and what is on the
screen. -/
inductive Drawn (b : Browser) (start : Page) :
    List (Input × Supply) → List (Input × Supply) → Page → ChatRenderer → Prop
  | start : Drawn b start [] [] start (start.renderLayout.foldl ChatRenderer.paint .blank)
  | step {inputs since : List (Input × Supply)} {page page' : Page} {r : ChatRenderer}
      (h : Drawn b start inputs since page r) {input : Input} {supply : Supply}
      (hproper : page.Proper input supply) (hstep : page.step b supply input = some page') :
      Drawn b start (inputs ++ [(input, supply)])
        (if (page.paints b supply page' input).any Paint.isThread then []
          else since ++ [(input, supply)])
        page' ((page.paints b supply page' input).foldl ChatRenderer.paint r)
  | frame {inputs since : List (Input × Supply)} {page : Page} {r : ChatRenderer}
      (h : Drawn b start inputs since page r) (hrequested : r.frameRequested = true) :
      Drawn b start inputs since page r.flushStreamingBuffers

end Page

/-- A thread has been deleted. -/
def Input.deletes : Input → Bool
  | .answered _ (.threadDeleted _ _) => true
  | _ => false

/-- The text that the tokens make. -/
def streamed (b : Browser) (calls : List Call) : JsString :=
  calls.flatMap fun call =>
    match call with
    | .onToken token => b.text token
    | _ => []

theorem streamed_append (b : Browser) (calls more : List Call) :
    streamed b (calls ++ more) = streamed b calls ++ streamed b more := List.flatMap_append

namespace Page

variable {b : Browser} {supply : Supply} {page page' : Page}

/-! ### What a step paints -/

end Page

/-! ### The messages of the active thread -/

/-- What is changed is there. -/
theorem mem_updateFirst_self {α : Type} {p : α → Bool} {f : α → α} {a : α} {l : List α}
    (hfind : l.find? p = some a) : f a ∈ updateFirst p f l := by
  induction l with
  | nil => simp at hfind
  | cons c l ih =>
    rw [updateFirst]
    by_cases hp : p c = true
    · rw [List.find?_cons_of_pos hp] at hfind
      obtain rfl := Option.some.inj hfind
      simp [hp]
    · rw [List.find?_cons_of_neg hp] at hfind
      rw [if_neg hp]
      exact List.mem_cons_of_mem _ (ih hfind)

/-- What another one than the one that is changed is stays. -/
theorem mem_updateFirst_of_ne {α : Type} {p : α → Bool} {f : α → α} {a b : α} {l : List α}
    (hfind : l.find? p = some a) (hb : b ∈ l) (hne : b ≠ a) : b ∈ updateFirst p f l := by
  induction l with
  | nil => simp at hfind
  | cons c l ih =>
    rw [updateFirst]
    by_cases hp : p c = true
    · rw [List.find?_cons_of_pos hp] at hfind
      obtain rfl := Option.some.inj hfind
      rw [if_pos hp]
      exact List.mem_cons_of_mem _ ((List.mem_cons.mp hb).resolve_left hne)
    · rw [List.find?_cons_of_neg hp] at hfind
      rw [if_neg hp]
      rcases List.mem_cons.mp hb with rfl | hmem
      · exact List.mem_cons_self
      · exact List.mem_cons_of_mem _ (ih hfind hmem)

namespace ThreadStore

variable {collation : Collation} {supply : Supply} {s s' : ThreadStore}

/-- The active thread is the record under its identifier. -/
theorem Listed.activeMessages_eq (h : Listed s) {t : Thread} (ht : t ∈ s.threads)
    (hactive : s.activeThreadId = some t.id) : s.activeMessages = t.messages := by
  obtain ⟨found, hfound⟩ : ∃ found, s.findThread t.id = some found :=
    Option.isSome_iff_exists.mp (List.find?_isSome.mpr ⟨t, ht, decide_eq_true rfl⟩)
  obtain ⟨hmem, hid⟩ := mem_ids_of_findThread hfound
  obtain rfl := h.eq_of_id_eq ht hmem hid
  simp [activeMessages, hactive, hfound]

/-- There is an active thread, and it is the live one. -/
theorem Valid.exists_active (h : Valid collation s) : ∃ t, s.getLiveThread = some t ∧
    t ∈ s.threads ∧ s.activeThreadId = some t.id ∧ s.activeMessages = t.messages := by
  obtain ⟨t, hlive, ht, hid⟩ := h.exists_getLiveThread
  obtain ⟨id, -, hactive, hlive'⟩ := h.active
  have hsame : s.activeThreadId = some t.id := hactive.trans (hlive'.symm.trans hid)
  exact ⟨t, hlive, ht, hsame, h.activeMessages_eq ht hsame⟩

/-- The live thread is the active one when it is changed. -/
theorem activeMessages_changeLiveThread {f : Thread → Thread} {liveThread : Thread}
    (hvalid : Valid collation (s.changeLiveThread collation f liveThread))
    (hlive : s.getLiveThread = some liveThread) (hid : (f liveThread).id = liveThread.id) :
    (s.changeLiveThread collation f liveThread).activeMessages = (f liveThread).messages := by
  refine hvalid.activeMessages_eq ?_ (congrArg some hid).symm
  exact mem_sortThreads.mpr (mem_updateFirst_self (find?_eq_of_getLiveThread hlive))

theorem Valid.activeMessages_appendUserMessage (h : Valid collation s) {content : JsString}
    {attachments : List RawAttachment}
    (happend : s.appendUserMessage collation supply content attachments = .ok s') :
    Valid collation s' ∧
      s'.activeMessages = s.activeMessages ++ [userMessage supply content attachments] := by
  obtain ⟨_, hstep, hvalid, -⟩ := h.step (.appendUserMessage content attachments, supply)
    List.nodup_nil
  obtain rfl := Except.ok.inj (happend.symm.trans hstep)
  obtain ⟨t, hlive, -, -, hmessages⟩ := h.exists_active
  rw [appendUserMessage, hlive] at happend
  obtain rfl := Except.ok.inj happend
  refine ⟨hvalid, ?_⟩
  rw [activeMessages_changeLiveThread hvalid hlive rfl, hmessages]
  rfl

theorem Valid.activeMessages_appendAssistantPlaceholder (h : Valid collation s)
    {sourceUserMessageId : Option JsString}
    (happend : s.appendAssistantPlaceholder collation supply sourceUserMessageId = .ok s') :
    Valid collation s' ∧
      s'.activeMessages = s.activeMessages ++ [placeholder supply sourceUserMessageId] := by
  obtain ⟨_, hstep, hvalid, -⟩ := h.step (.appendAssistantPlaceholder sourceUserMessageId, supply)
    List.nodup_nil
  obtain rfl := Except.ok.inj (happend.symm.trans hstep)
  obtain ⟨t, hlive, -, -, hmessages⟩ := h.exists_active
  rw [appendAssistantPlaceholder, hlive] at happend
  obtain rfl := Except.ok.inj happend
  refine ⟨hvalid, ?_⟩
  rw [activeMessages_changeLiveThread hvalid hlive rfl, hmessages]
  rfl

/-- What the active thread shows under an identifier that is shown in one thread only. -/
theorem Shows.facesOf_activeMessages (hvalid : Valid collation s) {id threadId : JsString}
    {face : Face} (h : Shows s id threadId face) :
    facesOf id s.activeMessages = [] ∨ facesOf id s.activeMessages = [face] := by
  obtain ⟨t, -, ht, -, hmessages⟩ := hvalid.exists_active
  rw [hmessages]
  exact (h t ht).imp_right And.right

/-- **A message that is finalized**: either the active thread has it, and it is changed there, or
the messages of the active thread stay as they are. -/
theorem Shows.activeMessages_finalizeAssistantMessage (supply : Supply)
    (hvalid : Valid collation s) {messageId threadId : JsString} {face : Face}
    (h : Shows s messageId threadId face)
    (payload : Payload) :
    (∃ message, s.activeMessages.find? (fun message => message.id = messageId) = some message ∧
      s.finalizedMessage messageId payload threadId = some (finalizedWith payload message) ∧
      (s.finalizeAssistantMessage collation supply messageId payload threadId).activeMessages =
        updateFirst (fun message => message.id = messageId) (finalizedWith payload)
          s.activeMessages) ∨
    (facesOf messageId s.activeMessages = [] ∧
      (∀ message, s.finalizedMessage messageId payload threadId = some message →
        message.id = messageId) ∧
      (s.finalizeAssistantMessage collation supply messageId payload threadId).activeMessages =
        s.activeMessages) := by
  obtain ⟨t, -, ht, hactive, hmessages⟩ := hvalid.exists_active
  have hvalid' : Valid collation (s.finalizeAssistantMessage collation supply messageId payload
      threadId) := (hvalid.finalizeAssistantMessage messageId payload threadId).1
  rw [hmessages]
  -- Either the active thread has no such message, or its one is that which is found.
  by_cases hnil : t.faces messageId = []
  · refine .inr ⟨hnil, fun message hmessage => ?_, ?_⟩
    · rw [finalizedMessage] at hmessage
      obtain ⟨found, -, hfound⟩ := Option.bind_eq_some_iff.mp hmessage
      obtain ⟨message', hmessage', rfl⟩ := Option.map_eq_some_iff.mp hfound
      have hid : message'.id = messageId := by simpa using List.find?_some hmessage'
      exact hid
    · rw [← hmessages]
      rw [ThreadStore.finalizeAssistantMessage] at hvalid' ⊢
      rcases hfound : s.threads.find? (isFinalized messageId threadId) with - | found
      · rfl
      rw [hfound] at hvalid'
      dsimp only at hvalid' ⊢
      split_ifs at hvalid' ⊢ with hany
      · have hne : t ≠ found := by
          rintro rfl
          exact faces_ne_nil_of_any hany hnil
        rw [hmessages]
        refine hvalid'.activeMessages_eq ?_ hactive
        exact mem_sortThreads.mpr (mem_updateFirst_of_ne hfound ht hne)
      · rfl
  · have hfound := h.find?_isFinalized hvalid ht hnil
    have hany := any_of_faces_ne_nil hnil
    obtain ⟨message, hmessage⟩ : ∃ message,
        t.messages.find? (fun message => message.id = messageId) = some message :=
      Option.isSome_iff_exists.mp (List.find?_isSome.mpr (List.any_eq_true.mp hany))
    refine .inl ⟨message, hmessage, ?_, ?_⟩
    · rw [finalizedMessage, hfound, Option.bind_some, hmessage]
      rfl
    · have hs' : s.finalizeAssistantMessage collation supply messageId payload threadId =
          (s.updateThread (isFinalized messageId threadId)
            (withFinalized supply messageId payload)).sortThreads collation := by
        rw [ThreadStore.finalizeAssistantMessage, hfound]
        exact if_pos hany
      rw [hs'] at hvalid' ⊢
      have hmem : withFinalized supply messageId payload t ∈ ((s.updateThread
          (isFinalized messageId threadId)
          (withFinalized supply messageId payload)).sortThreads collation).threads :=
        mem_sortThreads.mpr (mem_updateFirst_self hfound)
      rw [hvalid'.activeMessages_eq hmem hactive]
      rfl

end ThreadStore

/-- What is shown as one thing is there once. -/
theorem once_of_facesOf {id : JsString} {messages : List Message} {face : Face}
    (h : facesOf id messages = [face]) : Once (messages.map Message.id) id := by
  induction messages with
  | nil => simp [facesOf] at h
  | cons message messages ih =>
    rw [facesOf] at h
    by_cases hid : message.id = id
    · rw [List.filter_cons_of_pos (by simpa using hid), List.map_cons] at h
      have hnone : ∀ m ∈ messages, m.id ≠ id := by
        have hnil := (List.cons.inj h).2
        rw [List.map_eq_nil_iff, List.filter_eq_nil_iff] at hnil
        simpa using hnil
      have hzero : ∀ i : ℕ, ((message :: messages).map Message.id)[i]? = some id → i = 0 := by
        intro i hi
        rcases i with - | i
        · rfl
        · rw [List.map_cons, List.getElem?_cons_succ] at hi
          obtain ⟨m, hm, hmid⟩ := List.mem_map.mp (List.mem_of_getElem? hi)
          exact absurd hmid (hnone m hm)
      intro i j hi hj
      rw [hzero i hi, hzero j hj]
    · rw [List.filter_cons_of_neg (by simpa using hid)] at h
      intro i j hi hj
      rcases i with - | i
      · exact absurd (by simpa using hi) hid
      · rcases j with - | j
        · exact absurd (by simpa using hj) hid
        · exact congrArg Nat.succ (ih h i j (by simpa using hi) (by simpa using hj))

theorem not_mem_ids_of_facesOf {id : JsString} {messages : List Message}
    (h : facesOf id messages = []) : id ∉ messages.map Message.id := by
  rw [facesOf, List.map_eq_nil_iff, List.filter_eq_nil_iff] at h
  intro hmem
  obtain ⟨message, hmessage, hid⟩ := List.mem_map.mp hmem
  exact h message hmessage (by simpa using hid)

namespace Page

variable {b : Browser} {supply : Supply} {page page' : Page}

/-! ### The screen and the page -/

/-- The messages whose answers are under way, and none for each send that is over. -/
def awaited (page : Page) : List (Option JsString) :=
  page.sends.map fun send => if send.phase = .over then none else some send.assistantMessageId

theorem awaited_eq_some_iff {k : ℕ} {id : JsString} : page.awaited[k]? = some (some id) ↔
    ∃ send, page.sends[k]? = some send ∧ send.phase ≠ .over ∧ send.assistantMessageId = id := by
  rw [awaited, List.getElem?_map, Option.map_eq_some_iff]
  refine exists_congr fun send => and_congr_right fun _ => ?_
  split_ifs with hover
  · simp [hover]
  · simp [hover]

/-- **The screen shows the active thread.** -/
structure Mirrors (b : Browser) (page : Page) (since : List (Input × Supply)) (r : ChatRenderer)
    (flushed : JsString → JsString) : Prop where
  threadList : r.threadList = page.threads.threads.map
    (threadItem page.threads.activeThreadId page.threads.liveThreadId)
  threadCount : r.threadCount = page.threads.threads.length
  emptyState : r.emptyState = none ↔ page.threads.activeMessages ≠ []
  painted : r.Painted page.threads.activeMessages flushed
  /-- What has come of an answer since is seen or held back. -/
  streamed : ∀ k id, page.awaited[k]? = some (some id) →
    flushed id ++ r.buffered id = streamed b (callsTo k since)
  underWay : ∀ id, r.messageElements id ≠ none → flushed id ++ r.buffered id ≠ [] →
    some id ∈ page.awaited
  keys : ∀ id, r.streamBuffers.lookup id ≠ none → id ∈ page.sends.map Send.assistantMessageId
  held : r.frameRequested = false → ∀ id, r.messageElements id ≠ none → r.buffered id = []

variable {since : List (Input × Supply)} {r : ChatRenderer} {flushed : JsString → JsString}

theorem buffered_ne_nil {id : JsString} (h : r.buffered id ≠ []) :
    r.streamBuffers.lookup id ≠ none := by
  intro hnone
  simp [ChatRenderer.buffered, hnone] at h

/-- The messages of the sends that are under way are among those of all sends. -/
theorem mem_ids_of_awaited {id : JsString} (h : some id ∈ page.awaited) :
    id ∈ page.sends.map Send.assistantMessageId := by
  obtain ⟨k, hk⟩ := List.mem_iff_getElem?.mp h
  obtain ⟨send, hsend, -, rfl⟩ := awaited_eq_some_iff.mp hk
  exact List.mem_map_of_mem (List.mem_of_getElem? hsend)

/-- Nothing is seen or held back of a message that no send has. -/
theorem Mirrors.nothing_of_not_mem (h : Mirrors b page since r flushed) {id : JsString}
    (hid : id ∉ page.sends.map Send.assistantMessageId) : flushed id = [] ∧ r.buffered id = [] := by
  constructor
  · by_contra hne
    exact hid (mem_ids_of_awaited
      (h.underWay id (h.painted.alone id hne).1 (by simp [hne])))
  · by_contra hne
    exact hid (h.keys id (buffered_ne_nil hne))

/-- A message of a send is there once in the active thread, if it is there. -/
theorem Tracks.once (h : Tracks b page) {messages : List Message}
    (hmessages : page.threads.activeMessages = messages) {id : JsString}
    (hid : id ∈ page.sends.map Send.assistantMessageId) (hmem : id ∈ messages.map Message.id) :
    Once (messages.map Message.id) id := by
  obtain ⟨send, hsend, rfl⟩ := List.mem_map.mp hid
  rw [← hmessages] at hmem ⊢
  rcases (h.shows send hsend).facesOf_activeMessages h.valid with hnil | hone
  · exact absurd hmem (not_mem_ids_of_facesOf hnil)
  · exact once_of_facesOf hone

theorem ids_set {k : ℕ} {send send' : Send} (hsend : page.sends[k]? = some send)
    (hsends : page'.sends = page.sends.set k send')
    (hid : send'.assistantMessageId = send.assistantMessageId) :
    page'.sends.map Send.assistantMessageId = page.sends.map Send.assistantMessageId := by
  rw [hsends, List.map_set, hid, set_self]
  rw [List.getElem?_map, hsend]
  rfl

/-- No two sends that are awaited have one message. -/
theorem Tracks.awaited_inj (h : Tracks b page) {j k : ℕ} {id : JsString}
    (hj : page.awaited[j]? = some (some id)) (hk : page.awaited[k]? = some (some id)) : j = k := by
  obtain ⟨send, hsend, -, hid⟩ := awaited_eq_some_iff.mp hj
  obtain ⟨send', hsend', -, hid'⟩ := awaited_eq_some_iff.mp hk
  have hj' : (page.sends.map Send.assistantMessageId)[j]? = some id := by simp [hsend, hid]
  have hk' : (page.sends.map Send.assistantMessageId)[k]? = some id := by simp [hsend', hid']
  exact (List.getElem?_inj (List.getElem?_eq_some_iff.mp hj').1 h.apart).mp (hj'.trans hk'.symm)

/-- Nothing is painted, and the sends are awaited as before. -/
theorem Mirrors.still (h : Mirrors b page since r flushed) {input : Input}
    (hthreads : page'.threads = page.threads) (hawaited : page'.awaited = page.awaited)
    (hids : page'.sends.map Send.assistantMessageId = page.sends.map Send.assistantMessageId)
    (hsilent : ∀ k, Client.streamed b (callsTo k [(input, supply)]) = []) :
    Mirrors b page' (since ++ [(input, supply)]) r flushed := by
  refine ⟨?_, ?_, ?_, ?_, fun k id hk => ?_, ?_, ?_, h.held⟩
  · rw [hthreads]
    exact h.threadList
  · rw [hthreads]
    exact h.threadCount
  · rw [hthreads]
    exact h.emptyState
  · rw [hthreads]
    exact h.painted
  · rw [hawaited] at hk
    rw [callsTo_concat, streamed_append, hsilent, List.append_nil]
    exact h.streamed k id hk
  · rw [hawaited]
    exact h.underWay
  · rw [hids]
    exact h.keys

/-- **A send begins**: its messages are put last. -/
theorem Mirrors.begins (h : Mirrors b page since r flushed) (htracks : Tracks b page)
    {input : Input} {send : Send} {threads₁ : ThreadStore} {prompt : JsString}
    {attachments : List RawAttachment} (hproper : page.Proper input supply)
    (hunheard : callsTo page.sends.length since = [])
    (hsilent : ∀ k, callsTo k [(input, supply)] = [])
    (hfirst : page.threads.appendUserMessage b.collation (supply.at 0) prompt attachments =
      .ok threads₁)
    (hsecond : threads₁.appendAssistantPlaceholder b.collation (supply.at 1)
      (some ((supply.at 0).createId [])) = .ok page'.threads)
    (hbegun : Begun supply page send) (hsends : page'.sends = page.sends ++ [send]) :
    Mirrors b page' (since ++ [(input, supply)])
      ([.message (ThreadStore.userMessage (supply.at 0) prompt attachments),
        .message (ThreadStore.placeholder (supply.at 1) (some ((supply.at 0).createId []))),
        page'.renderThreads].foldl ChatRenderer.paint r) flushed := by
  obtain ⟨user, huser⟩ : ∃ user,
      ThreadStore.userMessage (supply.at 0) prompt attachments = user := ⟨_, rfl⟩
  obtain ⟨answer, hanswer⟩ : ∃ answer, ThreadStore.placeholder (supply.at 1)
      (some ((supply.at 0).createId [])) = answer := ⟨_, rfl⟩
  obtain ⟨hvalid₁, hmessages₁⟩ := htracks.valid.activeMessages_appendUserMessage hfirst
  obtain ⟨-, hmessages₂⟩ := hvalid₁.activeMessages_appendAssistantPlaceholder hsecond
  rw [huser] at hmessages₁ ⊢
  rw [hanswer, hmessages₁] at hmessages₂
  rw [hanswer]
  -- Neither message has been seen before.
  have hnew : ∀ place, supply.createId place ∉ page.sends.map Send.assistantMessageId := by
    intro place hmem
    obtain ⟨other, hother, hid⟩ := List.mem_map.mp hmem
    exact hproper.avoids other hother place hid.symm
  obtain ⟨huserNil, huserBuffer⟩ := h.nothing_of_not_mem (hnew [0])
  obtain ⟨hanswerNil, hanswerBuffer⟩ := h.nothing_of_not_mem (hnew [1])
  have huserId : user.id = supply.createId [0] := by
    rw [← huser]
    rfl
  have hanswerId : answer.id = supply.createId [1] := by
    rw [← hanswer]
    rfl
  have hcleared : ChatRenderer.Painted page.threads.activeMessages flushed
      { r with emptyState := none } :=
    ⟨h.painted.children, h.painted.indexed, h.painted.known, h.painted.nodes, h.painted.alone⟩
  have hpainted := (hcleared.addMessage user (by rw [huserId]; exact huserNil)).addMessage answer
    (by rw [hanswerId]; exact hanswerNil)
  rw [← hmessages₂] at hpainted
  have hphase : send.phase ≠ .over := by
    rcases hbegun.phase with hphase | hphase <;> simp [hphase]
  have hawaited : page'.awaited = page.awaited ++ [some send.assistantMessageId] := by
    rw [awaited, hsends, List.map_append, List.map_singleton, if_neg hphase]
    rfl
  have hothers : ∀ id, id ≠ supply.createId [0] → id ≠ supply.createId [1] →
      (([Paint.message user, Paint.message answer, page'.renderThreads].foldl ChatRenderer.paint
        r).messageElements id) = r.messageElements id := by
    intro id hu ha
    simp [ChatRenderer.paint, renderThreads, ChatRenderer.renderThreadList,
      ChatRenderer.appendMessage, ChatRenderer.addMessage, huserId, hanswerId,
      Function.update_of_ne hu, Function.update_of_ne ha]
  refine ⟨rfl, rfl, ?_, ?_, fun k id hk => ?_, fun id hknown hne => ?_, fun id hne => ?_,
    fun hframe id hknown => ?_⟩
  · rw [hmessages₂]
    simp only [List.foldl_cons, List.foldl_nil, ChatRenderer.paint, renderThreads,
      ChatRenderer.renderThreadList, ChatRenderer.appendMessage, ChatRenderer.addMessage]
    simp
  · exact ⟨hpainted.children, hpainted.indexed, hpainted.known, hpainted.nodes, hpainted.alone⟩
  · rw [callsTo_concat, hsilent, List.append_nil]
    rw [hawaited] at hk
    rcases lt_trichotomy k page.awaited.length with hlt | rfl | hgt
    · rw [List.getElem?_append_left hlt] at hk
      exact h.streamed k id hk
    · rw [List.getElem?_concat_length, Option.some.injEq, Option.some.injEq, hbegun.id] at hk
      subst hk
      rw [show page.awaited.length = page.sends.length by simp [awaited], hunheard, hanswerNil]
      exact hanswerBuffer
    · rw [List.getElem?_eq_none (by simp; omega)] at hk
      cases hk
  · rw [hawaited]
    refine List.mem_append_left _ (h.underWay id (fun hnone => ?_) hne)
    -- What was not known is one of the two that are new.
    have hnil : flushed id = [] ∧ r.buffered id = [] := by
      by_contra hnot
      refine hknown ((hothers id ?_ ?_).trans hnone) <;> rintro rfl <;> simp_all
    refine hne ?_
    rw [hnil.1]
    exact hnil.2
  · rw [hsends, List.map_append]
    exact List.mem_append_left _ (h.keys id hne)
  · by_cases hold : r.messageElements id = none
    · by_contra hne
      have hmem := h.keys id (buffered_ne_nil hne)
      refine hknown ((hothers id ?_ ?_).trans hold) <;> rintro rfl <;> exact hnew _ hmem
    · exact h.held hframe id hold

theorem updateFirst_ne_nil {α : Type} (p : α → Bool) (f : α → α) (l : List α) :
    updateFirst p f l ≠ [] ↔ l ≠ [] := by
  rcases l with - | ⟨a, l⟩
  · simp [updateFirst]
  · rw [updateFirst]
    split <;> simp

/-- The answer of one message is final, and the other sends go on. -/
structure Closes (page page' : Page) (since since' : List (Input × Supply)) (id : JsString) :
    Prop where
  /-- The others are awaited as before, and have other messages. -/
  others : ∀ (j : ℕ) (id' : JsString), page'.awaited[j]? = some (some id') →
    page.awaited[j]? = some (some id') ∧ id' ≠ id
  /-- None of them is over. -/
  still : ∀ id', id' ≠ id → some id' ∈ page.awaited → some id' ∈ page'.awaited
  ids : page'.sends.map Send.assistantMessageId = page.sends.map Send.assistantMessageId
  /-- No stream calls back. -/
  silent : ∀ j, callsTo j since' = callsTo j since

/-- A send that ends is over, and nothing is said to the others. -/
theorem Tracks.closes (htracks : Tracks b page) {input : Input} {k : ℕ} {send : Send}
    {payload : ThreadStore.Payload} (hsend : page.sends[k]? = some send)
    (hends : Ends k send input payload)
    (hsends : page'.sends = page.sends.set k { send with
      phase := .over, finalized := some payload }) :
    Closes page page' since (since ++ [(input, supply)]) send.assistantMessageId := by
  have hphase : send.phase ≠ .over := by cases hends <;> simp_all
  have hk : page.awaited[k]? = some (some send.assistantMessageId) :=
    awaited_eq_some_iff.mpr ⟨send, hsend, hphase, rfl⟩
  have hawaited : page'.awaited = page.awaited.set k none := by
    rw [awaited, hsends, List.map_set]
    rfl
  refine ⟨fun j id' hj => ?_, fun id' hne hmem => ?_, ids_set hsend hsends rfl, fun j => ?_⟩
  · rw [hawaited, List.getElem?_set] at hj
    by_cases hjk : k = j
    · simp [hjk] at hj
    · rw [if_neg hjk] at hj
      refine ⟨hj, ?_⟩
      rintro rfl
      exact hjk (htracks.awaited_inj hk hj)
  · obtain ⟨j, hj⟩ := List.mem_iff_getElem?.mp hmem
    have hjk : k ≠ j := by
      rintro rfl
      exact hne (Option.some.inj (Option.some.inj (hj.symm.trans hk)))
    refine List.mem_iff_getElem?.mpr ⟨j, ?_⟩
    rw [hawaited, List.getElem?_set_ne hjk]
    exact hj
  · rw [callsTo_concat, hends.callsTo_eq_nil, List.append_nil]

/-- The message of a send is one of the assistant, where the active thread has it. -/
theorem Tracks.role_of_find? (htracks : Tracks b page) {send : Send} (hsend : send ∈ page.sends)
    {message : Message} (hfind : page.threads.activeMessages.find?
      (fun message => message.id = send.assistantMessageId) = some message) :
    message.role = .assistant := by
  have hface : message.face ∈ facesOf send.assistantMessageId page.threads.activeMessages :=
    List.mem_map_of_mem (List.mem_filter.mpr ⟨List.mem_of_find?_eq_some hfind,
      by simpa using List.find?_some hfind⟩)
  rcases (htracks.shows send hsend).facesOf_activeMessages htracks.valid with hnil | hone
  · simp [hnil] at hface
  · rw [hone, List.mem_singleton] at hface
    exact (congrArg Face.role hface).trans send.role_face

section Closes

variable {since' : List (Input × Supply)} {id : JsString} {payload : ThreadStore.Payload}

/-- A message of the active thread is seen as it is finalized. -/
theorem Mirrors.ends_seen (h : Mirrors b page since r flushed)
    (hcloses : Closes page page' since since' id) {message : Message}
    (hfind : page.threads.activeMessages.find? (fun message => message.id = id) = some message)
    (honce : Once (page.threads.activeMessages.map Message.id) id)
    (hrole : message.role = .assistant) (hstate : orString payload.state (js "done") ≠
      js "streaming")
    (hmessages : page'.threads.activeMessages = updateFirst (fun message => message.id = id)
      (finalizedWith payload) page.threads.activeMessages) :
    Mirrors b page' since' ([Paint.finalized (finalizedWith payload message),
      page'.renderThreads].foldl ChatRenderer.paint r) (Function.update flushed id []) := by
  have hid : message.id = id := by simpa using List.find?_some hfind
  have hmessageId : (finalizedWith payload message).id = id := hid
  have hmem : id ∈ page.threads.activeMessages.map Message.id :=
    hid ▸ List.mem_map_of_mem (List.mem_of_find?_eq_some hfind)
  have hpainted := h.painted.finalizeAssistantMessage honce hfind hrole hstate
  rw [← hmessages] at hpainted
  rcases r.finalizeAssistantMessage_cases (finalizedWith payload message) with
    ⟨hnone, -⟩ | ⟨hr, hbuffers⟩
  · rw [hmessageId] at hnone
    exact absurd hnone (h.painted.known id hmem)
  obtain ⟨r', hr'⟩ : ∃ r', r.finalizeAssistantMessage (finalizedWith payload message) = r' :=
    ⟨_, rfl⟩
  rw [hr'] at hr hbuffers hpainted
  rw [List.foldl_cons, List.foldl_cons, List.foldl_nil,
    show ChatRenderer.paint r (.finalized (finalizedWith payload message)) = r' from hr']
  rw [hmessageId] at hbuffers
  -- Only what was held back of this message is gone.
  have hbuffered : ∀ id', id' ≠ id → r'.buffered id' = r.buffered id' := by
    intro id' hne
    rw [ChatRenderer.buffered, hbuffers, AList.lookup_erase_ne hne]
    rfl
  have hgone : r'.buffered id = [] := by
    rw [ChatRenderer.buffered, hbuffers, AList.lookup_erase]
    rfl
  refine ⟨rfl, rfl, ?_, ?_, fun j id' hj => ?_, fun id' hknown hne => ?_, fun id' hne => ?_,
    fun hframe id' hknown => ?_⟩
  · rw [hmessages, updateFirst_ne_nil]
    refine Iff.trans ?_ h.emptyState
    exact (congrArg (· = none) hr.emptyState).to_iff
  · exact ⟨hpainted.children, hpainted.indexed, hpainted.known, hpainted.nodes, hpainted.alone⟩
  · obtain ⟨hold, hne⟩ := hcloses.others j id' hj
    rw [hcloses.silent, Function.update_of_ne hne, ← h.streamed j id' hold]
    exact congrArg _ (hbuffered id' hne)
  · by_cases hsame : id' = id
    · subst hsame
      refine absurd ?_ hne
      rw [Function.update_self]
      exact hgone
    · refine hcloses.still id' hsame (h.underWay id' ?_ ?_)
      · rw [← hr.messageElements]
        exact hknown
      · rw [Function.update_of_ne hsame] at hne
        rw [← hbuffered id' hsame]
        exact hne
  · rw [hcloses.ids]
    refine h.keys id' fun hnone => hne ?_
    by_cases hsame : id' = id
    · subst hsame
      exact (congrArg _ hbuffers).trans (AList.lookup_erase _ _)
    · exact (congrArg _ hbuffers).trans ((AList.lookup_erase_ne hsame).trans hnone)
  · by_cases hsame : id' = id
    · rw [hsame]
      exact hgone
    · refine (hbuffered id' hsame).trans (h.held ?_ id' ?_)
      · rw [← hr.frameRequested]
        exact hframe
      · rw [← hr.messageElements]
        exact hknown

/-- Of a message that is gone, or in another thread, nothing is seen. -/
theorem Mirrors.ends_unseen (h : Mirrors b page since r flushed)
    (hcloses : Closes page page' since since' id)
    (hnil : facesOf id page.threads.activeMessages = []) {final : Option Message}
    (hfinal : ∀ message, final = some message → message.id = id)
    (hmessages : page'.threads.activeMessages = page.threads.activeMessages) :
    Mirrors b page' since' (((final.map Paint.finalized).toList ++
      [page'.renderThreads]).foldl ChatRenderer.paint r) flushed := by
  have hunknown : r.messageElements id = none := by
    rcases hi : r.messageElements id with - | i
    · rfl
    · exact absurd (List.mem_of_getElem? (h.painted.indexed id i hi))
        (not_mem_ids_of_facesOf hnil)
  have hr : ((final.map Paint.finalized).toList).foldl ChatRenderer.paint r = r := by
    rcases final with - | message
    · rfl
    · rw [Option.map_some, Option.toList_some, List.foldl_cons, List.foldl_nil,
        ChatRenderer.paint, ChatRenderer.finalizeAssistantMessage, hfinal message rfl, hunknown]
  rw [List.foldl_append, hr, List.foldl_cons, List.foldl_nil]
  refine ⟨rfl, rfl, ?_, ?_, fun j id' hj => ?_, fun id' hknown hne => ?_, ?_, h.held⟩
  · rw [hmessages]
    exact h.emptyState
  · rw [hmessages]
    exact ⟨h.painted.children, h.painted.indexed, h.painted.known, h.painted.nodes,
      h.painted.alone⟩
  · rw [hcloses.silent]
    exact h.streamed j id' (hcloses.others j id' hj).1
  · refine hcloses.still id' ?_ (h.underWay id' hknown hne)
    rintro rfl
    exact hknown hunknown
  · rw [hcloses.ids]
    exact h.keys

end Closes

/-- **A send ends**: its message is seen as it is finalized, if it is there. -/
theorem Mirrors.ends (h : Mirrors b page since r flushed) (htracks : Tracks b page)
    {input : Input} {k : ℕ} {send : Send} {payload : ThreadStore.Payload}
    (hsend : page.sends[k]? = some send) (hends : Ends k send input payload)
    (hsends : page'.sends = page.sends.set k { send with
      phase := .over, finalized := some payload })
    (hthreads : page'.threads = page.threads.finalizeAssistantMessage b.collation supply
      send.assistantMessageId payload send.targetThreadId) :
    ∃ flushed', Mirrors b page' (since ++ [(input, supply)])
      ((((page.threads.finalizedMessage send.assistantMessageId payload
        send.targetThreadId).map Paint.finalized).toList ++
          [page'.renderThreads]).foldl ChatRenderer.paint r) flushed' := by
  have hcloses : Closes page page' since (since ++ [(input, supply)]) send.assistantMessageId :=
    htracks.closes hsend hends hsends
  have hmem := List.mem_of_getElem? hsend
  rcases (htracks.shows send hmem).activeMessages_finalizeAssistantMessage supply htracks.valid
    payload with ⟨message, hfind, hfinal, hmessages⟩ | ⟨hnil, hfinal, hmessages⟩
  · have hid : message.id = send.assistantMessageId := by simpa using List.find?_some hfind
    have honce := htracks.once rfl (List.mem_map_of_mem hmem)
      (hid ▸ List.mem_map_of_mem (List.mem_of_find?_eq_some hfind))
    have hstate : orString payload.state (js "done") ≠ js "streaming" := by
      cases hends <;> simp [orString] <;> decide
    rw [← hthreads] at hmessages
    rw [hfinal]
    exact ⟨_, h.ends_seen hcloses hfind honce (htracks.role_of_find? hmem hfind) hstate hmessages⟩
  · rw [← hthreads] at hmessages
    exact ⟨flushed, h.ends_unseen hcloses hnil hfinal hmessages⟩

/-- **A frame** moves what is held back to what is seen. -/
theorem Mirrors.frame (h : Mirrors b page since r flushed) (htracks : Tracks b page) :
    ∃ flushed', Mirrors b page since r.flushStreamingBuffers flushed' := by
  have honce : ∀ id, r.buffered id ≠ [] → r.messageElements id ≠ none →
      Once (page.threads.activeMessages.map Message.id) id := by
    intro id hne hknown
    obtain ⟨i, hi⟩ := Option.ne_none_iff_exists'.mp hknown
    exact htracks.once rfl (h.keys id (buffered_ne_nil hne))
      (List.mem_of_getElem? (h.painted.indexed id i hi))
  obtain ⟨flushed', hpainted, hflushed⟩ := h.painted.flushStreamingBuffers honce
  have hbuffered : ∀ id, ({ r with frameRequested := false } : ChatRenderer).buffered id =
      r.buffered id := fun _ => rfl
  refine ⟨flushed', hflushed.threadList.trans h.threadList,
    hflushed.threadCount.trans h.threadCount, ?_, hpainted, fun k id hk => ?_,
    fun id hknown hne => ?_, fun id hne => h.keys id (hflushed.keys id hne), fun _ id hknown => ?_⟩
  · rw [hflushed.emptyState]
    exact h.emptyState
  · rw [hflushed.total, hbuffered]
    exact h.streamed k id hk
  · rw [hflushed.messageElements] at hknown
    rw [hflushed.total] at hne
    exact h.underWay id hknown hne
  · rw [hflushed.messageElements] at hknown
    refine hflushed.seen id hknown ?_
    by_cases hmem : id ∈ r.streamBuffers.entries.map Sigma.fst
    · exact .inl hmem
    · refine .inr ?_
      rw [hbuffered, ChatRenderer.buffered]
      have hnone : r.streamBuffers.lookup id = none := AList.lookup_eq_none.mpr hmem
      simp [hnone]

/-! ### Whole runs -/

variable {start : Page} {inputs : List (Input × Supply)}

/-- What was told since the last layout is the end of all that was told. -/
theorem Drawn.suffix (h : Drawn b start inputs since page r) : since <:+ inputs := by
  induction h with
  | start => exact List.suffix_rfl
  | step _ _ _ ih =>
    split
    · exact List.nil_suffix
    · exact List.suffix_concat_iff.mpr (.inr ⟨_, rfl, ih⟩)
  | frame _ _ ih => exact ih

/-- Where the active thread is deleted and the one that follows it cannot be loaded, the screen is
left as it was, while the threads are other ones. -/
theorem drawn_of_deleted (h : Drawn b start inputs since page r) {i j : ℕ} {threadId : JsString}
    {threads : List RawThread} {active : JsString} {supply' : Supply} {page'' : Page}
    (hhandler : page.handlers[i]? = some (.deletingThread threadId threadId))
    (hproper : page.Proper (.answered i (.threadDeleted threads active)) supply)
    (hstep : page.step b supply (.answered i (.threadDeleted threads active)) = some page')
    (hproper' : page'.Proper (.answered j .failed) supply')
    (hfailed : page'.step b supply' (.answered j .failed) = some page'') :
    Drawn b start
        (inputs ++ [(.answered i (.threadDeleted threads active), supply)] ++
          [(.answered j .failed, supply')])
        (since ++ [(.answered i (.threadDeleted threads active), supply)] ++
          [(.answered j .failed, supply')]) page'' r ∧
      page'.threads = page.threads.replaceThreads b.collation supply threads
        (some (orString active threadId)) := by
  have hpaints : page.paints b supply page' (.answered i (.threadDeleted threads active)) = [] := by
    simp [paints, hhandler, paintsOfAnswer]
  have hpaints' : page'.paints b supply' page'' (.answered j .failed) = [] := by
    rw [paints]
    rcases page'.handlers[j]? with - | handler
    · rfl
    · cases handler <;> rfl
  have hdrawn := h.step hproper hstep
  rw [hpaints] at hdrawn
  have hdrawn' := hdrawn.step hproper' hfailed
  rw [hpaints'] at hdrawn'
  refine ⟨hdrawn', ?_⟩
  obtain ⟨handler, hfound, hanswer⟩ := Option.bind_eq_some_iff.mp hstep
  obtain rfl := Option.some.inj (hhandler.symm.trans hfound)
  simp only [onAnswer, if_pos] at hanswer
  rw [← Option.some.inj hanswer]

/-! ### A small screen -/

/-- A page, what is on its screen, and what it was told since its active thread was rendered. -/
structure Sight where
  page : Page
  screen : ChatRenderer
  since : List (Input × Supply)

/-- What is seen after these inputs and frames, if all of them can be; a frame is `none`. -/
def Sight.play (b : Browser) (sight : Sight) (n : ℕ) : List (Option Input) → Option Sight
  | [] => some sight
  | none :: turns =>
    if sight.screen.frameRequested = true then
      Sight.play b { sight with screen := sight.screen.flushStreamingBuffers } n turns
    else none
  | some input :: turns =>
    if sight.page.Unused n input then
      (sight.page.step b (numbered n) input).bind fun page' =>
        let paints := sight.page.paints b (numbered n) page' input
        Sight.play b
          ⟨page', paints.foldl ChatRenderer.paint sight.screen,
            if paints.any Paint.isThread then [] else sight.since ++ [(input, numbered n)]⟩
          (n + 1) turns
    else none

/-- Inputs and frames that can be played make a run longer. -/
theorem Drawn.play {sight sight' : Sight}
    (h : Drawn b start inputs sight.since sight.page sight.screen) {n : ℕ}
    {turns : List (Option Input)} (hplay : sight.play b n turns = some sight') :
    Drawn b start (inputs ++ numberedFrom n turns.reduceOption) sight'.since sight'.page
      sight'.screen := by
  induction turns generalizing n inputs sight with
  | nil =>
    obtain rfl := Option.some.inj hplay
    rwa [List.reduceOption_nil, numberedFrom, List.append_nil]
  | cons turn turns ih =>
    cases turn with
    | none =>
      rw [Sight.play] at hplay
      split at hplay
      · next hrequested => exact ih (h.frame hrequested) hplay
      · cases hplay
    | some input =>
      rw [Sight.play] at hplay
      split at hplay
      · next hunused =>
        obtain ⟨page', hstep, hrest⟩ := Option.bind_eq_some_iff.mp hplay
        have hdrawn := ih (h.step hunused.proper hstep) hrest
        rwa [List.append_assoc] at hdrawn
      · cases hplay

/-- A page that has just been opened. -/
def Sight.opened (page : Page) : Sight :=
  ⟨page, page.renderLayout.foldl ChatRenderer.paint .blank, []⟩

end Page

end Client

end AiAgent

import AiAgent.Client.Messages
import Mathlib.Data.List.AList

/-!
# The elements of the chat

`ChatRenderer` keeps what is seen of a thread up to date piece by piece: a message is appended,
tokens are held back and added to what is there at the next frame, an answer is put in for what was
streamed. Everything is made anew only where a thread is rendered as a whole.

That the pieces make up the whole is what `AiAgent.Client.ChatRenderer.Painted` says: the elements
are those of the messages, as they would be made from them now, but for the text that was streamed
(`AiAgent.Client.drawn`). A frame changes neither the messages that are seen nor what has been said
altogether, it only moves what is held back to what is seen
(`AiAgent.Client.ChatRenderer.Painted.flushStreamingBuffers`).
-/

namespace AiAgent

namespace Client

/-! ### Elements -/

/-- What is in the content element of a message. -/
inductive Content where
  /-- The nodes of a piece of markup. -/
  | html (html : JsString)
  /-- A text node. -/
  | text (text : JsString)
  /-- `streaming-placeholder`. -/
  | placeholder
  deriving DecidableEq

/-- The element of a message. -/
structure MessageElement where
  messageId : JsString
  role : Role
  messageState : JsString
  attachments : List Attachment
  content : Content
  /-- There are buttons to copy and to regenerate the message. -/
  hasActions : Bool
  deriving DecidableEq

/-- The element of a thread in the list. -/
structure ThreadItem where
  id : JsString
  title : JsString
  isActive : Bool
  isLive : Bool
  /-- The time that is shown, unless the thread is the live one. -/
  updatedAt : Option ℚ
  deriving DecidableEq

/-- `createMessageActions`. -/
def createMessageActions (message : Message) : Bool :=
  message.role = .assistant && message.content ≠ []

/-- `createMessageElement`, but for what it notes in the maps. -/
def createMessageElement (message : Message) : MessageElement where
  messageId := message.id
  role := message.role
  messageState := orString message.state (js "done")
  attachments := message.attachments
  content :=
    if message.role = .assistant ∧ message.html ≠ [] then .html message.html
    else if message.role = .assistant ∧ message.state = js "streaming" then .placeholder
    else .text message.content
  hasActions := createMessageActions message

/-- A thread in the list of `renderThreadList`. -/
def threadItem (activeThreadId liveThreadId : Option JsString) (thread : Thread) : ThreadItem where
  id := thread.id
  title := thread.title
  isActive := some thread.id = activeThreadId
  isLive := some thread.id = liveThreadId
  updatedAt := if some thread.id = liveThreadId then none else some thread.updatedAt

/-- What finalizing a message does to its element. -/
def MessageElement.finalized (message : Message) (element : MessageElement) : MessageElement :=
  { element with
    content := if message.html ≠ [] then .html message.html else .text message.content
    messageState := orString message.state (js "done")
    hasActions := createMessageActions message }

/-- `appendData`, where the content is a text node. -/
def MessageElement.appendData (data : JsString) (element : MessageElement) : MessageElement :=
  match element.content with
  | .text text => { element with content := .text (text ++ data) }
  | _ => element

/-! ### The renderer -/

/-- A `ChatRenderer` and what it has put on the page. An element is known by its place among the
children of `chatInner`, and `messageElements` stands for `messageContentElements` too, since both
are always set together. -/
structure ChatRenderer where
  threadList : List ThreadItem
  threadCount : ℕ
  children : List MessageElement
  /-- The description in the empty state, if there is one. -/
  emptyState : Option JsString
  messageElements : JsString → Option ℕ
  /-- In which element the text node is. -/
  streamingTextNodes : JsString → Option ℕ
  streamBuffers : AList fun _ : JsString => JsString
  /-- `streamFrameId` is set. -/
  frameRequested : Bool

namespace ChatRenderer

/-- `new ChatRenderer(…)`. -/
def blank : ChatRenderer := ⟨[], 0, [], none, fun _ => none, fun _ => none, ∅, false⟩

/-- `renderThreadList`. -/
def renderThreadList (threads : List Thread) (activeThreadId liveThreadId : Option JsString)
    (r : ChatRenderer) : ChatRenderer :=
  { r with
    threadList := threads.map (threadItem activeThreadId liveThreadId)
    threadCount := threads.length }

/-- The element of a message is made, noted and put last. -/
def addMessage (r : ChatRenderer) (message : Message) : ChatRenderer :=
  { r with
    children := r.children ++ [createMessageElement message]
    messageElements := Function.update r.messageElements message.id (some r.children.length) }

/-- Nothing is seen of a thread, and nothing is known of it. -/
def cleared (r : ChatRenderer) : ChatRenderer :=
  { r with
    children := []
    emptyState := none
    messageElements := fun _ => none
    streamingTextNodes := fun _ => none
    streamBuffers := ∅ }

/-- `renderThread`. -/
def renderThread (thread : Option Thread) (emptyStateDescription : JsString) (r : ChatRenderer) :
    ChatRenderer :=
  let messages := (thread.map Thread.messages).getD []
  if messages = [] then
    { r.cleared with
      emptyState := some (orString emptyStateDescription (js "Модель по умолчанию")) }
  else messages.foldl addMessage r.cleared

/-- `appendMessage`. -/
def appendMessage (message : Message) (r : ChatRenderer) : ChatRenderer :=
  { r with emptyState := none }.addMessage message

/-- `finalizeAssistantMessage`. -/
def finalizeAssistantMessage (message : Message) (r : ChatRenderer) : ChatRenderer :=
  match r.messageElements message.id with
  | none => r
  | some i =>
    { r with
      streamingTextNodes := Function.update r.streamingTextNodes message.id none
      streamBuffers := r.streamBuffers.erase message.id
      children := r.children.modify i (MessageElement.finalized message) }

/-- What is held back of a message. -/
def buffered (r : ChatRenderer) (messageId : JsString) : JsString :=
  (r.streamBuffers.lookup messageId).getD []

/-- `appendStreamingToken`. -/
def appendStreamingToken (messageId token : JsString) (r : ChatRenderer) : ChatRenderer :=
  { r with
    streamBuffers := r.streamBuffers.insert messageId (r.buffered messageId ++ token)
    frameRequested := true }

/-- One turn of the loop of `flushStreamingBuffers`. -/
def flushBuffer (r : ChatRenderer) (entry : Sigma fun _ : JsString => JsString) : ChatRenderer :=
  let ⟨messageId, buffer⟩ := entry
  if buffer = [] then r
  else
    match r.messageElements messageId with
    | none => r
    | some i =>
      -- The first time the placeholder makes room for an empty text node.
      let r := if r.streamingTextNodes messageId = none then
          { r with
            children := r.children.modify i fun element => { element with content := .text [] }
            streamingTextNodes := Function.update r.streamingTextNodes messageId (some i) }
        else r
      { r with
        children := r.children.modify ((r.streamingTextNodes messageId).getD i)
          (MessageElement.appendData buffer)
        streamBuffers := r.streamBuffers.insert messageId [] }

/-- `flushStreamingBuffers`. -/
def flushStreamingBuffers (r : ChatRenderer) : ChatRenderer :=
  r.streamBuffers.entries.foldl flushBuffer { r with frameRequested := false }

end ChatRenderer

/-! ### One of a list -/

section OneOfList

variable {α β : Type} {l : List α} {i : ℕ} {a : α}

/-- The only one that satisfies `p` is the one that is changed. -/
theorem updateFirst_eq_modify {p : α → Bool} (f : α → α) (hi : l[i]? = some a) (hp : p a = true)
    (honly : ∀ j b, l[j]? = some b → p b = true → j = i) : updateFirst p f l = l.modify i f := by
  induction l generalizing i with
  | nil => simp at hi
  | cons c l ih =>
    rw [updateFirst]
    cases i with
    | zero =>
      obtain rfl : c = a := by simpa using hi
      rw [if_pos hp]
      rfl
    | succ i =>
      have hc : ¬ p c = true := fun hc => by simpa using honly 0 c rfl hc
      rw [if_neg hc, List.modify_succ_cons]
      refine congrArg (c :: ·) (ih (by simpa using hi) fun j b hb hpb => ?_)
      have hj := honly (j + 1) b (by simpa using hb) hpb
      omega

/-- One image of a list is changed. -/
theorem modify_map {f f' : α → β} {g : β → β} (hi : l[i]? = some a) (hself : f' a = g (f a))
    (hothers : ∀ j b, l[j]? = some b → j ≠ i → f' b = f b) :
    (l.map f).modify i g = l.map f' := by
  refine List.ext_getElem? fun j => ?_
  rw [List.getElem?_modify, List.getElem?_map, List.getElem?_map]
  by_cases hj : i = j
  · subst hj
    simp [hi, hself]
  · rcases hb : l[j]? with - | b
    · simp [hj]
    · simp [hj, hothers j b hb (Ne.symm hj)]

end OneOfList

/-- It is listed once at most. -/
def Once {α : Type} (l : List α) (a : α) : Prop :=
  ∀ i j : ℕ, l[i]? = some a → l[j]? = some a → i = j

theorem once_concat {α : Type} {l : List α} {a b : α} (h : Once l a) (hne : b ≠ a) :
    Once (l ++ [b]) a := by
  have hold : ∀ i : ℕ, (l ++ [b])[i]? = some a → l[i]? = some a := by
    intro i hi
    by_cases hlt : i < l.length
    · rwa [List.getElem?_append_left hlt] at hi
    · rw [List.getElem?_append_right (by omega)] at hi
      exact absurd (List.mem_singleton.mp (List.mem_of_getElem? hi)).symm hne
  exact fun i j hi hj => h i j (hold i hi) (hold j hj)

/-- The element of a message of which this much was streamed. -/
def drawn (flushed : JsString) (message : Message) : MessageElement :=
  if flushed = [] then createMessageElement message
  else { createMessageElement message with content := .text flushed }

/-- What a message is finalized with is what its element would be made from. -/
theorem finalized_drawn {payload : ThreadStore.Payload} {message : Message} (flushed : JsString)
    (hrole : message.role = .assistant)
    (hstate : orString payload.state (js "done") ≠ js "streaming") :
    (drawn flushed message).finalized (finalizedWith payload message) =
      createMessageElement (finalizedWith payload message) := by
  rw [drawn]
  split <;>
    simp [MessageElement.finalized, createMessageElement, finalizedWith, hrole, hstate]

namespace ChatRenderer

/-! ### What is seen of a thread -/

/-- **The elements are those of the messages**, each with what was streamed of it. -/
structure Painted (messages : List Message) (flushed : JsString → JsString) (r : ChatRenderer) :
    Prop where
  children : r.children = messages.map fun message => drawn (flushed message.id) message
  indexed : ∀ id i, r.messageElements id = some i → (messages.map Message.id)[i]? = some id
  known : ∀ id ∈ messages.map Message.id, r.messageElements id ≠ none
  nodes : ∀ id i, r.streamingTextNodes id = some i ↔ flushed id ≠ [] ∧ r.messageElements id = some i
  alone : ∀ id, flushed id ≠ [] → r.messageElements id ≠ none ∧ Once (messages.map Message.id) id

variable {messages : List Message} {flushed : JsString → JsString} {r : ChatRenderer}
  {id token : JsString}

/-- One more message is put last. -/
theorem Painted.addMessage (h : Painted messages flushed r) (message : Message)
    (hnew : flushed message.id = []) :
    Painted (messages ++ [message]) flushed (r.addMessage message) := by
  have hlength : r.children.length = messages.length := by simp [h.children]
  refine ⟨?_, ?_, ?_, ?_, ?_⟩
  · rw [ChatRenderer.addMessage, List.map_append, List.map_singleton, drawn, if_pos hnew,
      ← h.children]
  · intro id i hi
    by_cases hid : id = message.id
    · subst hid
      simp only [ChatRenderer.addMessage, Function.update_self, Option.some.injEq] at hi
      simp [← hi, hlength]
    · simp only [ChatRenderer.addMessage, Function.update_of_ne hid] at hi
      have hold := h.indexed id i hi
      rwa [List.map_append, List.getElem?_append_left (List.getElem?_eq_some_iff.mp hold).1]
  · intro id hmem
    by_cases hid : id = message.id
    · simp [ChatRenderer.addMessage, hid]
    · simp only [List.map_append, List.map_singleton, List.mem_append, List.mem_singleton] at hmem
      simpa [ChatRenderer.addMessage, Function.update_of_ne hid] using
        h.known id (hmem.resolve_right hid)
  · intro id i
    by_cases hid : id = message.id
    · subst hid
      have hnone := h.nodes message.id
      simp only [hnew, ne_eq, not_true_eq_false, false_and, iff_false] at hnone
      simp [ChatRenderer.addMessage, hnew, hnone]
    · simpa [ChatRenderer.addMessage, Function.update_of_ne hid] using h.nodes id i
  · intro id hne
    have hid : id ≠ message.id := by
      rintro rfl
      exact hne hnew
    obtain ⟨hknown, honce⟩ := h.alone id hne
    rw [List.map_append]
    exact ⟨by simpa [ChatRenderer.addMessage, Function.update_of_ne hid] using hknown,
      once_concat honce (Ne.symm hid)⟩

/-- A text node is there where something was streamed. -/
theorem Painted.streamingTextNodes_eq_none (h : Painted messages flushed r) {i : ℕ}
    (hi : r.messageElements id = some i) : r.streamingTextNodes id = none ↔ flushed id = [] := by
  rw [Option.eq_none_iff_forall_ne_some]
  refine ⟨fun hnone => ?_, fun hnil j hj => ((h.nodes id j).mp hj).1 hnil⟩
  by_contra hne
  exact hnone i ((h.nodes id i).mpr ⟨hne, hi⟩)

/-- The message under an identifier that is there once. -/
theorem Painted.exists_of_once (h : Painted messages flushed r) {i : ℕ}
    (hi : r.messageElements id = some i) (honce : Once (messages.map Message.id) id) :
    ∃ message, messages[i]? = some message ∧ message.id = id ∧
      ∀ j m, messages[j]? = some m → m.id = id → j = i := by
  have hid := h.indexed id i hi
  rw [List.getElem?_map] at hid
  obtain ⟨message, hmessage, hid'⟩ := Option.map_eq_some_iff.mp hid
  refine ⟨message, hmessage, hid', fun j m hm hmid => honce j i ?_ (h.indexed id i hi)⟩
  rw [List.getElem?_map, hm, ← hmid]
  rfl

/-- **What is finalized is seen as it is now.** -/
theorem Painted.finalizeAssistantMessage (h : Painted messages flushed r) {message : Message}
    {payload : ThreadStore.Payload} (honce : Once (messages.map Message.id) id)
    (hfind : messages.find? (fun message => message.id = id) = some message)
    (hrole : message.role = .assistant)
    (hstate : orString payload.state (js "done") ≠ js "streaming") :
    Painted (updateFirst (fun message => message.id = id) (finalizedWith payload) messages)
      (Function.update flushed id [])
      (r.finalizeAssistantMessage (finalizedWith payload message)) := by
  have hid : message.id = id := by simpa using List.find?_some hfind
  obtain ⟨i, hi⟩ := Option.ne_none_iff_exists'.mp
    (h.known id (hid ▸ List.mem_map_of_mem (List.mem_of_find?_eq_some hfind)))
  obtain ⟨message', hmessage', hid', honly⟩ := h.exists_of_once hi honce
  obtain ⟨j, hj⟩ := List.mem_iff_getElem?.mp (List.mem_of_find?_eq_some hfind)
  obtain rfl := honly j message hj hid
  obtain rfl : message = message' := Option.some.inj (hj.symm.trans hmessage')
  -- The message and its element stand at the same place.
  have hmodify : updateFirst (fun message => message.id = id) (finalizedWith payload) messages =
      messages.modify j (finalizedWith payload) :=
    updateFirst_eq_modify _ hj (by simpa using hid) fun k m hm hmid =>
      honly k m hm (by simpa using hmid)
  have hids : (messages.modify j (finalizedWith payload)).map Message.id =
      messages.map Message.id := by
    rw [← hmodify]
    exact map_updateFirst (g := Message.id) (f := finalizedWith payload) (fun _ => rfl) messages
  have hr : r.finalizeAssistantMessage (finalizedWith payload message) = { r with
      streamingTextNodes := Function.update r.streamingTextNodes id none
      streamBuffers := r.streamBuffers.erase id
      children := r.children.modify j
        (MessageElement.finalized (finalizedWith payload message)) } := by
    have hid' : (finalizedWith payload message).id = id := hid
    rw [ChatRenderer.finalizeAssistantMessage, hid',
      hi]
  rw [hr, hmodify]
  refine ⟨?_, ?_, ?_, ?_, ?_⟩
  -- Its element is made anew, and the others are as they were.
  · dsimp only
    rw [h.children]
    refine List.ext_getElem? fun k => ?_
    rw [List.getElem?_modify, List.getElem?_map, List.getElem?_map, List.getElem?_modify]
    by_cases hk : j = k
    · subst hk
      have hself : (finalizedWith payload message).id = id := hid
      simp only [hj, if_pos, Option.map_eq_map, Option.map_some]
      rw [finalized_drawn _ hrole hstate, hself, Function.update_self]
      rw [drawn, if_pos rfl]
    · rcases hm : messages[k]? with - | m
      · simp [hk]
      · have hne : m.id ≠ id := fun hmid => hk (honly k m hm hmid).symm
        simp [hk, Function.update_of_ne hne]
  · rw [hids]
    exact h.indexed
  · rw [hids]
    exact h.known
  · intro id' k
    by_cases hsame : id' = id
    · simp [hsame]
    · simpa [Function.update_of_ne hsame] using h.nodes id' k
  · intro id' hne
    have hsame : id' ≠ id := by
      rintro rfl
      simp at hne
    rw [Function.update_of_ne hsame] at hne
    rw [hids]
    exact h.alone id' hne

/-- What is held back of a message is added to what is seen of it. -/
theorem Painted.flushBuffer (h : Painted messages flushed r) {buffer : JsString}
    (hbuffer : buffer ≠ []) {i : ℕ} (hi : r.messageElements id = some i)
    (honce : Once (messages.map Message.id) id) :
    Painted messages (Function.update flushed id (flushed id ++ buffer))
      (r.flushBuffer ⟨id, buffer⟩) := by
  obtain ⟨message, hmessage, hid, honly⟩ := h.exists_of_once hi honce
  have hne : flushed id ++ buffer ≠ [] := by simp [hbuffer]
  -- Either there is a text node in the element already, or it takes the place of what is there.
  have hr : r.flushBuffer ⟨id, buffer⟩ = { r with
      children := r.children.modify i fun element =>
        { element with content := .text (flushed id ++ buffer) }
      streamingTextNodes := Function.update r.streamingTextNodes id (some i)
      streamBuffers := r.streamBuffers.insert id [] } := by
    rw [ChatRenderer.flushBuffer]
    dsimp only
    rw [if_neg hbuffer, hi]
    dsimp only
    by_cases hnil : flushed id = []
    · rw [if_pos ((h.streamingTextNodes_eq_none hi).mpr hnil)]
      simp only [Function.update_self, Option.getD_some, List.modify_modify_eq]
      simp [hnil, MessageElement.appendData, Function.comp_def]
    · have hnode := (h.nodes id i).mpr ⟨hnil, hi⟩
      rw [if_neg (mt (h.streamingTextNodes_eq_none hi).mp hnil), hnode]
      have hupdate : Function.update r.streamingTextNodes id (some i) = r.streamingTextNodes := by
        rw [← hnode]
        exact Function.update_eq_self _ _
      rw [hupdate]
      have hchildren : r.children.modify i (MessageElement.appendData buffer) =
          r.children.modify i fun element =>
            { element with content := .text (flushed id ++ buffer) } := by
        rw [h.children]
        refine List.ext_getElem? fun k => ?_
        rw [List.getElem?_modify, List.getElem?_modify, List.getElem?_map]
        by_cases hk : i = k
        · subst hk
          simp [hmessage, hid, drawn, hnil, MessageElement.appendData]
        · simp [hk]
      simp [hchildren]
  rw [hr]
  refine ⟨?_, h.indexed, h.known, ?_, ?_⟩
  · dsimp only
    rw [h.children]
    refine modify_map hmessage ?_ fun k m hm hk => ?_
    · rw [hid, Function.update_self]
      rw [drawn, if_neg hne, drawn]
      split <;> rfl
    · rw [Function.update_of_ne fun hmid => hk (honly k m hm hmid)]
  · intro id' k
    by_cases hsame : id' = id
    · subst hsame
      simp [hbuffer, hi]
    · simpa [Function.update_of_ne hsame] using h.nodes id' k
  · intro id' hne'
    by_cases hsame : id' = id
    · subst hsame
      exact ⟨by simp [hi], honce⟩
    · rw [Function.update_of_ne hsame] at hne'
      exact h.alone id' hne'

/-! ### A frame -/

/-- All but the messages is left as it is. -/
structure Still (r r' : ChatRenderer) : Prop where
  threadList : r'.threadList = r.threadList
  threadCount : r'.threadCount = r.threadCount
  emptyState : r'.emptyState = r.emptyState
  messageElements : r'.messageElements = r.messageElements
  frameRequested : r'.frameRequested = r.frameRequested

theorem Still.refl (r : ChatRenderer) : Still r r := ⟨rfl, rfl, rfl, rfl, rfl⟩

theorem Still.trans {r' r'' : ChatRenderer} (h : Still r r') (h' : Still r' r'') : Still r r'' :=
  ⟨h'.threadList.trans h.threadList, h'.threadCount.trans h.threadCount,
    h'.emptyState.trans h.emptyState, h'.messageElements.trans h.messageElements,
    h'.frameRequested.trans h.frameRequested⟩

theorem finalizeAssistantMessage_cases (r : ChatRenderer) (message : Message) :
    (r.messageElements message.id = none ∧ r.finalizeAssistantMessage message = r) ∨
      (Still r (r.finalizeAssistantMessage message) ∧
        (r.finalizeAssistantMessage message).streamBuffers = r.streamBuffers.erase message.id) := by
  rw [finalizeAssistantMessage]
  rcases r.messageElements message.id with - | i
  · exact .inl ⟨rfl, rfl⟩
  · exact .inr ⟨⟨rfl, rfl, rfl, rfl, rfl⟩, rfl⟩

theorem flushBuffer_cases (r : ChatRenderer) (id buffer : JsString) :
    (r.flushBuffer ⟨id, buffer⟩ = r ∧ (buffer = [] ∨ r.messageElements id = none)) ∨
      (buffer ≠ [] ∧ r.messageElements id ≠ none ∧ Still r (r.flushBuffer ⟨id, buffer⟩) ∧
        (r.flushBuffer ⟨id, buffer⟩).streamBuffers = r.streamBuffers.insert id []) := by
  by_cases hbuffer : buffer = []
  · exact .inl ⟨by simp [flushBuffer, hbuffer], .inl hbuffer⟩
  rcases hi : r.messageElements id with - | i
  · exact .inl ⟨by simp [flushBuffer, hi], .inr rfl⟩
  refine .inr ⟨hbuffer, by simp, ?_, ?_⟩
  · rw [flushBuffer]
    dsimp only
    rw [if_neg hbuffer, hi]
    split_ifs <;> exact ⟨rfl, rfl, rfl, rfl, rfl⟩
  · rw [flushBuffer]
    dsimp only
    rw [if_neg hbuffer, hi]
    split_ifs <;> rfl

theorem lookup_insert (r : ChatRenderer) (id id' value : JsString) :
    (r.streamBuffers.insert id value).lookup id' =
      if id' = id then some value else r.streamBuffers.lookup id' := by
  split_ifs with hid
  · rw [hid, AList.lookup_insert]
  · rw [AList.lookup_insert_ne hid]

/-- **Nothing is lost and nothing is added**: what was held back of the messages that are seen is
seen now, and what has come of each altogether stays the same. -/
structure Flushed (ids : List JsString) (flushed flushed' : JsString → JsString)
    (r r' : ChatRenderer) : Prop extends Still r r' where
  total : ∀ id, flushed' id ++ r'.buffered id = flushed id ++ r.buffered id
  seen : ∀ id, r.messageElements id ≠ none → id ∈ ids ∨ r.buffered id = [] → r'.buffered id = []
  keys : ∀ id, r'.streamBuffers.lookup id ≠ none → r.streamBuffers.lookup id ≠ none

theorem Painted.foldl_flushBuffer {entries : List (Sigma fun _ : JsString => JsString)}
    (h : Painted messages flushed r) (hkeys : (entries.map Sigma.fst).Nodup)
    (hentries : ∀ e ∈ entries, r.streamBuffers.lookup e.1 = some e.2)
    (honce : ∀ e ∈ entries, e.2 ≠ [] → r.messageElements e.1 ≠ none →
      Once (messages.map Message.id) e.1) :
    ∃ flushed', Painted messages flushed' (entries.foldl ChatRenderer.flushBuffer r) ∧
      Flushed (entries.map Sigma.fst) flushed flushed' r
        (entries.foldl ChatRenderer.flushBuffer r) := by
  induction entries generalizing r flushed with
  | nil => exact ⟨flushed, h, .refl r, fun _ => rfl, by simp, fun _ hne => hne⟩
  | cons e entries ih =>
    obtain ⟨id, buffer⟩ := e
    rw [List.map_cons, List.nodup_cons] at hkeys
    have hlookup : r.streamBuffers.lookup id = some buffer := hentries ⟨id, buffer⟩ (by simp)
    have hbuffered : r.buffered id = buffer := by simp [buffered, hlookup]
    rw [List.foldl_cons]
    rcases flushBuffer_cases r id buffer with ⟨hsame, hnone⟩ | ⟨hne, hknown, hstill, hbuffers⟩
    · rw [hsame]
      obtain ⟨flushed', hpainted, hflushed⟩ := ih h hkeys.2
        (fun e he => hentries e (List.mem_cons_of_mem _ he))
        fun e he => honce e (List.mem_cons_of_mem _ he)
      refine ⟨flushed', hpainted, hflushed.toStill, hflushed.total, fun id' hknown hmem => ?_,
        hflushed.keys⟩
      refine hflushed.seen id' hknown ?_
      rcases hmem with hmem | hnil
      · rcases List.mem_cons.mp hmem with hid | hmem
        · -- Nothing was held back of this one.
          obtain rfl : id' = id := hid
          exact .inr (hbuffered.trans (hnone.resolve_right hknown))
        · exact .inl hmem
      · exact .inr hnil
    · obtain ⟨i, hi⟩ := Option.ne_none_iff_exists'.mp hknown
      have hpainted' := h.flushBuffer hne hi (honce ⟨id, buffer⟩ (by simp) hne hknown)
      have hbuffered' : ∀ id', (r.flushBuffer ⟨id, buffer⟩).buffered id' =
          if id' = id then [] else r.buffered id' := by
        intro id'
        rw [buffered, hbuffers, lookup_insert]
        split_ifs <;> rfl
      obtain ⟨flushed', hpainted, hflushed⟩ := ih hpainted' hkeys.2
        (fun e he => by
          have hne' : e.1 ≠ id := fun heq => hkeys.1 (List.mem_map.mpr ⟨e, he, heq⟩)
          rw [hbuffers, lookup_insert, if_neg hne']
          exact hentries e (List.mem_cons_of_mem _ he))
        (fun e he hne' hknown' => honce e (List.mem_cons_of_mem _ he) hne'
          (hstill.messageElements ▸ hknown'))
      refine ⟨flushed', hpainted, hstill.trans hflushed.toStill, fun id' => ?_,
        fun id' hknown' hmem => ?_, fun id' hne' => ?_⟩
      · rw [hflushed.total, hbuffered']
        by_cases hid : id' = id
        · subst hid
          simp [hbuffered]
        · simp [hid]
      · refine hflushed.seen id' (hstill.messageElements ▸ hknown') ?_
        rw [hbuffered']
        by_cases hid : id' = id
        · simp [hid]
        · simpa [hid] using hmem
      · have hold := hflushed.keys id' hne'
        rw [hbuffers, lookup_insert] at hold
        by_cases hid : id' = id
        · rw [hid, hlookup]
          simp
        · rwa [if_neg hid] at hold

/-- **A frame moves what is held back to what is seen.** -/
theorem Painted.flushStreamingBuffers (h : Painted messages flushed r)
    (honce : ∀ id, r.buffered id ≠ [] → r.messageElements id ≠ none →
      Once (messages.map Message.id) id) :
    ∃ flushed', Painted messages flushed' r.flushStreamingBuffers ∧
      Flushed (r.streamBuffers.entries.map Sigma.fst) flushed flushed'
        { r with frameRequested := false } r.flushStreamingBuffers := by
  have hrequested : Painted messages flushed { r with frameRequested := false } :=
    ⟨h.children, h.indexed, h.known, h.nodes, h.alone⟩
  have hlookup : ∀ e ∈ r.streamBuffers.entries, r.streamBuffers.lookup e.1 = some e.2 :=
    fun e he => AList.mem_lookup_iff.mpr he
  refine hrequested.foldl_flushBuffer r.streamBuffers.nodupKeys hlookup fun e he hne hknown => ?_
  exact honce e.1 (by simpa [buffered, hlookup e he] using hne) hknown

end ChatRenderer

end Client

end AiAgent

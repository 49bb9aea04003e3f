import AiAgent.Chat.Reads
import AiAgent.Chat.Threads

/-!
# The routes of the threads

The browser is told of its threads by a handful of routes: the list of the threads, a new thread,
the messages of a thread, its removal, its clearing, and the page itself. Each of them is a few
functions of the chat store one after the other, and an answer put together of what they return.

The store follows a shelf, on which the messages of every thread lie
(`AiAgent.Chat.Follows`). The routes follow it too: every answer is what the shelf says
(`AiAgent.Chat.Request.Answers`), in every sequence of requests of any users
(`AiAgent.Chat.session_of_visits`). Only a thread with the name of the registry must not be removed
or cleared, since what is under its key is the registry of the user. A user who has no thread is
given one, so no list is ever empty and the thread that is to be shown is always in it. Whether the
answers come from the chat store or from the database is not to be seen
(`AiAgent.Chat.told_run_body`).
-/

namespace AiAgent

namespace Chat

open Text Budget Command

/-! ### Requests -/

/-- A request about the threads of a user. -/
inductive Request where
  /-- `GET /api/threads`. -/
  | getChatThreads (threadId : Option Text)
  /-- `POST /api/threads`; the digits are those of `uuid4`. -/
  | createChatThread (uuidHex : Text)
  /-- `GET /api/threads/{thread_id}/messages`. -/
  | getChatThreadMessages (threadId : Text)
  /-- `DELETE /api/threads/{thread_id}`. -/
  | deleteChatThread (threadId : Text) (activeThreadId : Option Text) (uuidHex : Text)
  /-- `POST /api/chat/clear`. -/
  | clearChat (threadId : Option Text)
  /-- `GET /chat`. -/
  | chatPage (threadId : Option Text)

/-- A message as it is told to the browser. -/
structure PreparedMessage where
  /-- `id`. -/
  id : ℕ
  /-- `role`. -/
  role : Text
  /-- `content`. -/
  content : Text
  /-- `html`, of an answer. -/
  html : Option Text

/-- What is answered. -/
inductive Response where
  /-- The threads, and the one that is to be shown. -/
  | threads (threads : List ThreadView) (activeThreadId : Text)
  /-- The new thread as well. -/
  | created (thread : Option ThreadView) (threads : List ThreadView) (activeThreadId : Text)
  /-- A thread and its messages. -/
  | messages (thread : ThreadView) (messages : List PreparedMessage) (threadId : Text)
  /-- `Thread not found`, with status 404. -/
  | notFound
  /-- The removed thread as well. -/
  | deleted (threadId : Text) (threads : List ThreadView) (activeThreadId : Text)
  /-- The cleared thread. -/
  | cleared (threadId : Text)
  /-- The page. -/
  | page (messages : List PreparedMessage) (threadId : Text) (threads : List ThreadView)

/-- `render_markdown`; `toHtml` is what the packages that read Markdown and clean HTML make of a
text. -/
def renderMarkdown (toHtml : Text → Text) (text : Text) : Text :=
  if text = [] then [] else toHtml text

/-- The `html` of a message. -/
def htmlOf (toHtml : Text → Text) (role content : Text) : Option Text :=
  if role = "assistant".toList then some (renderMarkdown toHtml content) else none

/-- `prepare_messages`. -/
def prepareMessages (toHtml : Text → Text) (messages : List Message) : List PreparedMessage :=
  messages.mapIdx fun index message =>
    ⟨index, message.role, message.content, htmlOf toHtml message.role message.content⟩

/-- `f"thread-{uuid.uuid4().hex}"`. -/
def newThreadId (uuidHex : Text) : Text := "thread-".toList ++ uuidHex

/-! ### Routes -/

/-- The threads of a user, who is given one if there is none. -/
def threadSummariesOr (username threadId : Text) : ChatOp (List ThreadView) := do
  let threads := (← AsyncChatStore.listThreads username).map serializeThreadSummary
  if threads ≠ [] then return threads
  else
    let _ ← AsyncChatStore.createThread username (some threadId)
    return (← AsyncChatStore.listThreads username).map serializeThreadSummary

/-- `load_thread_summaries`. -/
def loadThreadSummaries (username : Text) : ChatOp (List ThreadView) :=
  threadSummariesOr username defaultChatThreadId

section Routes

variable (toHtml : Text → Text) (cfg : ReadSettings) (db : Option DbReader) (username : Text)

/-- `get_chat_threads`. -/
def getChatThreads (threadId : Option Text) : ChatOp Response := do
  let redisThreads ← loadThreadSummaries username
  let threads := resolveThreadSummariesForReadResponse cfg db username redisThreads
  return .threads threads (resolveActiveThreadId threadId threads)

/-- `create_chat_thread`. -/
def createChatThread (uuidHex : Text) : ChatOp Response := do
  let createdThreadId ← AsyncChatStore.createThread username (some (newThreadId uuidHex))
  let threads ← loadThreadSummaries username
  return .created (findThreadSummary threads (some createdThreadId)) threads createdThreadId

/-- `get_chat_thread_messages`. -/
def getChatThreadMessages (threadId : Text) : ChatOp Response := do
  let redisThreads ← loadThreadSummaries username
  let threads := resolveThreadSummariesForReadResponse cfg db username redisThreads
  match findThreadSummary threads (some threadId) with
  | none => return .notFound
  | some thread =>
    let history ← AsyncChatStore.getHistory username (some thread.id)
    let responseHistory := resolveThreadMessagesForReadResponse cfg db username thread.id history
    return .messages thread (prepareMessages toHtml responseHistory) thread.id

/-- `delete_chat_thread`. -/
def deleteChatThread (threadId : Text) (activeThreadId : Option Text) (uuidHex : Text) :
    ChatOp Response := do
  let normalizedThreadId := normalizeChatThreadId (some threadId)
  let requestedActiveThreadId := normalizeChatThreadId activeThreadId
  AsyncChatStore.clearHistory username (some normalizedThreadId) false
  let redisThreads ← threadSummariesOr username (newThreadId uuidHex)
  let threads := resolveThreadSummariesForReadResponse cfg db username redisThreads
  return .deleted normalizedThreadId threads
    (resolveActiveThreadId (some requestedActiveThreadId) threads)

/-- `clear_chat`. -/
def clearChat (threadId : Option Text) : ChatOp Response := do
  let normalizedThreadId := normalizeChatThreadId threadId
  AsyncChatStore.clearHistory username (some normalizedThreadId) true
  return .cleared normalizedThreadId

/-- `chat_page`. -/
def chatPage (threadId : Option Text) : ChatOp Response := do
  let threads ← loadThreadSummaries username
  let resolvedThreadId := resolveActiveThreadId threadId threads
  let history ← AsyncChatStore.getHistory username (some resolvedThreadId)
  return .page (prepareMessages toHtml history) resolvedThreadId threads

/-- The route of a request. -/
def Request.body : Request → ChatOp Response
  | .getChatThreads threadId => Chat.getChatThreads cfg db username threadId
  | .createChatThread uuidHex => Chat.createChatThread username uuidHex
  | .getChatThreadMessages threadId => Chat.getChatThreadMessages toHtml cfg db username threadId
  | .deleteChatThread threadId activeThreadId uuidHex =>
    Chat.deleteChatThread cfg db username threadId activeThreadId uuidHex
  | .clearChat threadId => Chat.clearChat username threadId
  | .chatPage threadId => Chat.chatPage toHtml username threadId

end Routes

/-! ### Either home -/

section Homes

/-- What is to be seen of a message, but for white space. What it is rendered as follows from its
content. -/
def PreparedMessage.told (message : PreparedMessage) : ℕ × Text × Text :=
  (message.id, strip message.role, strip message.content)

/-- The answers are the same, but for the times of the threads, and for white space around messages
and what that changes in their rendering. -/
def Response.Agrees : Response → Response → Prop
  | .threads listed shown, .threads listed' shown' =>
    listed.map ThreadView.told = listed'.map ThreadView.told ∧ shown = shown'
  | .messages thread told threadId, .messages thread' told' threadId' =>
    thread.told = thread'.told ∧
      told.map PreparedMessage.told = told'.map PreparedMessage.told ∧ threadId = threadId'
  | .deleted threadId listed shown, .deleted threadId' listed' shown' =>
    threadId = threadId' ∧ listed.map ThreadView.told = listed'.map ThreadView.told ∧
      shown = shown'
  | answer, answer' => answer = answer'

theorem Response.Agrees.refl (answer : Response) : answer.Agrees answer := by
  rcases answer with _ | _ | _ | _ | _ | _ | _ <;> simp [Response.Agrees]

/-- The routes return the same and leave the same store. -/
def AgreeAt (p p' : ChatOp Response) (srv : Server) : Prop :=
  (p.run.run chatServer 0 srv).2 = (p'.run.run chatServer 0 srv).2 ∧
    match (p.run.run chatServer 0 srv).1, (p'.run.run chatServer 0 srv).1 with
    | .ok answer, .ok answer' => answer.Agrees answer'
    | .error e, .error e' => e = e'
    | _, _ => False

theorem AgreeAt.refl (p : ChatOp Response) (srv : Server) : AgreeAt p p srv := by
  refine ⟨rfl, ?_⟩
  rcases (p.run.run chatServer 0 srv).1 with e | answer
  · rfl
  · exact .refl answer

/-- A function before another. -/
theorem run_bind_eq {α β : Type} (p : ChatOp α) (f : α → ChatOp β) (srv : Server) :
    (p >>= f).run.run chatServer 0 srv =
      match p.run.run chatServer 0 srv with
      | (.ok a, srv') => (f a).run.run chatServer 0 srv'
      | (.error e, srv') => (.error e, srv') := by
  rw [ExceptT.run_bind, Program.run_bind]
  rcases p.run.run chatServer 0 srv with ⟨e | a, srv'⟩ <;> rfl

/-- What is returned is of a kind. -/
def Returns {α : Type} (p : ChatOp α) (P : α → Prop) : Prop :=
  ∀ srv a srv', p.run.run chatServer 0 srv = (.ok a, srv') → P a

theorem returns_pure {α : Type} {P : α → Prop} {a : α} (h : P a) :
    Returns (pure a : ChatOp α) P := by
  rintro srv _ _ ⟨⟩
  exact h

theorem returns_any {α : Type} (p : ChatOp α) : Returns p fun _ => True := fun _ _ _ _ => trivial

/-- One function after another. -/
theorem Returns.bind {α β : Type} {p : ChatOp α} {f : α → ChatOp β} {P : α → Prop} {Q : β → Prop}
    (h : Returns p P) (hf : ∀ a, P a → Returns (f a) Q) : Returns (p >>= f) Q := by
  intro srv b srv' hrun
  rw [run_bind_eq] at hrun
  rcases hp : p.run.run chatServer 0 srv with ⟨e | a, srv₁⟩ <;> rw [hp] at hrun
  · cases hrun
  · exact hf a (h srv a srv₁ hp) srv₁ b srv' hrun

/-- Two routes that begin with the same function. -/
theorem AgreeAt.bind {α : Type} {p : ChatOp α} {P : α → Prop} {f f' : α → ChatOp Response}
    (hp : Returns p P) (h : ∀ a, P a → ∀ srv, AgreeAt (f a) (f' a) srv) (srv : Server) :
    AgreeAt (p >>= f) (p >>= f') srv := by
  rw [AgreeAt, run_bind_eq, run_bind_eq]
  rcases hrun : p.run.run chatServer 0 srv with ⟨e | a, srv'⟩
  · exact ⟨rfl, rfl⟩
  · exact h a (hp srv a srv' hrun) srv'

theorem agreeAt_pure {answer answer' : Response} (h : answer.Agrees answer') (srv : Server) :
    AgreeAt (pure answer) (pure answer') srv := ⟨rfl, h⟩

/-- What is loaded has been normalized. -/
theorem returns_threadSummariesOr (username threadId : Text) :
    Returns (threadSummariesOr username threadId) fun threads =>
      ∀ thread ∈ threads, thread.Normal := by
  have hmap : ∀ summaries : List ThreadSummary, ∀ thread ∈ summaries.map serializeThreadSummary,
      thread.Normal := by
    intro summaries thread hthread
    obtain ⟨summary, -, rfl⟩ := List.mem_map.mp hthread
    exact normal_serializeThreadSummary summary
  refine (returns_any _).bind fun summaries _ => ?_
  dsimp only
  split
  · exact returns_pure (hmap summaries)
  · refine (returns_any _).bind fun _ _ => ?_
    exact (returns_any _).bind fun summaries _ => returns_pure (hmap summaries)

section Cutover

variable (toHtml : Text → Text) (cfg cfg' : ReadSettings) (db db' : Option DbReader)
  (username : Text)

/-- What is told of a thread tells its id. -/
theorem id_of_told {thread thread' : ThreadView} (h : thread.told = thread'.told) :
    thread.id = thread'.id := congrArg Prod.fst h

theorem told_prepareMessages {messages messages' : List Message}
    (h : normalizeMessages messages = normalizeMessages messages') :
    (prepareMessages toHtml messages).map PreparedMessage.told =
      (prepareMessages toHtml messages').map PreparedMessage.told := by
  have htold : ∀ messages : List Message,
      (prepareMessages toHtml messages).map PreparedMessage.told =
        (normalizeMessages messages).mapIdx fun index message => (index, message) := by
    intro messages
    refine List.ext_getElem? fun i => ?_
    simp only [prepareMessages, normalizeMessages, List.getElem?_map, List.getElem?_mapIdx,
      Option.map_map]
    rfl
  rw [htold, htold, h]

theorem html_of_mem_prepareMessages {messages : List Message} {message : PreparedMessage}
    (h : message ∈ prepareMessages toHtml messages) :
    message.html = htmlOf toHtml message.role message.content := by
  obtain ⟨i, hi, rfl⟩ := List.mem_mapIdx.mp h
  rfl

/-- The lists that are answered from either home tell the same. -/
theorem told_resolve {redisThreads : List ThreadView}
    (h : ∀ thread ∈ redisThreads, thread.Normal) :
    (resolveThreadSummariesForReadResponse cfg db username redisThreads).map ThreadView.told =
      (resolveThreadSummariesForReadResponse cfg' db' username redisThreads).map
        ThreadView.told :=
  (told_resolveThreadSummaries cfg db username h).trans
    (told_resolveThreadSummaries cfg' db' username h).symm

/-- **Where an answer comes from is not to be seen**: whatever the settings are and whatever the
database holds, a request is answered the same, and the store is left the same. -/
theorem told_run_body (request : Request) (srv : Server) :
    AgreeAt (request.body toHtml cfg db username) (request.body toHtml cfg' db' username) srv := by
  rcases request with threadId | uuidHex | threadId | ⟨threadId, activeThreadId, uuidHex⟩ |
    threadId | threadId
  case createChatThread => exact .refl _ srv
  case clearChat => exact .refl _ srv
  case chatPage => exact .refl _ srv
  case getChatThreads =>
    refine AgreeAt.bind (returns_threadSummariesOr _ _) (fun redisThreads hnormal srv => ?_) srv
    have htold := told_resolve cfg cfg' db db' username hnormal
    refine agreeAt_pure ?_ srv
    exact ⟨htold, resolveActiveThreadId_congr htold threadId⟩
  case deleteChatThread =>
    refine AgreeAt.bind (returns_any _) (fun _ _ srv => ?_) srv
    refine AgreeAt.bind (returns_threadSummariesOr _ _) (fun redisThreads hnormal srv => ?_) srv
    have htold := told_resolve cfg cfg' db db' username hnormal
    refine agreeAt_pure ?_ srv
    exact ⟨rfl, htold, resolveActiveThreadId_congr htold _⟩
  case getChatThreadMessages =>
    refine AgreeAt.bind (returns_threadSummariesOr _ _) (fun redisThreads hnormal srv => ?_) srv
    have htold := told_resolve cfg cfg' db db' username hnormal
    have hfound := told_findThreadSummary htold (some threadId)
    dsimp only
    rcases hthread : findThreadSummary (resolveThreadSummariesForReadResponse cfg db username
        redisThreads) (some threadId) with - | thread <;>
      rcases hthread' : findThreadSummary (resolveThreadSummariesForReadResponse cfg' db' username
        redisThreads) (some threadId) with - | thread' <;> rw [hthread, hthread'] at hfound
    · exact .refl _ srv
    · cases hfound
    · cases hfound
    · have hsame : thread.told = thread'.told := Option.some.inj hfound
      dsimp only
      rw [← id_of_told hsame]
      refine AgreeAt.bind (returns_any _) (fun history _ srv => ?_) srv
      refine agreeAt_pure ?_ srv
      refine ⟨hsame, told_prepareMessages toHtml ?_, rfl⟩
      rw [normalizeMessages_resolveThreadMessages, normalizeMessages_resolveThreadMessages]

end Cutover

end Homes

/-! ### Titles -/

namespace AsyncChatStore

variable {srv : Server} {u : Text}

/-- The loop tells the title of every thread of the list. -/
theorem runs_summarize_titles (hs : Typed srv.look) (hi : Indexed srv.look) (hu : IsUsername u)
    {ms : List (Text × ℕ)} (hms : ∀ m ∈ ms, IsThread m.1) :
    Runs (summarize u ms) srv fun threads _ =>
      ∀ x ∈ threads, IsThread x.threadId ∧
        x.title = buildThreadTitle (decode (srv.look.thread u x.threadId)) := by
  induction ms generalizing srv with
  | nil => exact succeeds_pure (by simp)
  | cons m ms ih =>
    obtain ⟨threadId, score⟩ := m
    have hthread : IsThread threadId := hms _ List.mem_cons_self
    have hnormalized := normalizeThreadId_of_isThread hthread
    unfold summarize
    refine (runs_getHistory hs hi hu (by rwa [hnormalized])).bind ?_
    rintro _ srv₁ ⟨rfl, hsame⟩
    rw [hnormalized]
    refine (ih hsame.typed hsame.indexed fun m hm =>
      hms m (List.mem_cons_of_mem _ hm)).bind fun threads srv₂ htitles => succeeds_pure ?_
    intro x hx
    rcases List.mem_cons.mp hx with rfl | hx
    · exact ⟨hthread, rfl⟩
    · obtain ⟨hx', htitle⟩ := htitles x hx
      rw [hsame.thread u _ hu hx'] at htitle
      exact ⟨hx', htitle⟩

theorem runs_listThreads_titles (hs : Typed srv.look) (hi : Indexed srv.look)
    (hu : IsUsername u) :
    Runs (listThreads u) srv fun threads _ =>
      ∀ x ∈ threads, x.title = buildThreadTitle (decode (srv.look.thread u x.threadId)) := by
  unfold listThreads
  refine (runs_migrate hs hi hu).bind ?_
  rintro _ srv₁ ⟨hmigrated, -⟩
  have hsame := hmigrated.same hu
  refine (runs_sync hsame.typed hsame.indexed hu).bind ?_
  rintro _ srv₂ ⟨hsynced, -⟩
  have hsame₂ := hsame.trans hsynced
  refine Succeeds.bind (Q := fun ms srv' => srv' = srv₂ ∧
    ∀ m ∈ ms, m.1 ∈ srv₂.look.members u) ?_ ?_
  · refine ⟨descending (membersOf (srv₂.look (threadRegistryKey u))), ?_, rfl, fun m hm => ?_⟩
    · show (readSorted (srv₂.look (threadRegistryKey u))).map descending = _
      rw [readSorted_registry hsynced.typed hu]
      rfl
    · exact List.mem_map_of_mem ((List.mergeSort_perm _ _).subset hm)
  rintro ms srv' ⟨rfl, hms⟩
  refine (runs_summarize_titles hsynced.typed hsynced.indexed hu fun m hm =>
    hsynced.typed.member u m.1 hu (hms m hm)).mono fun threads _ htitles x hx => ?_
  obtain ⟨hx', htitle⟩ := htitles x hx
  rw [htitle, hsame₂.thread u _ hu hx']

end AsyncChatStore

/-! ### The shelf -/

/-- The user has a thread. -/
def Shelf.HasThread (shelf : Shelf) (u : Text) : Prop := ∃ t, IsThread t ∧ shelf.Lists u t

/-- The user is given the thread if there is none. -/
def Shelf.Given (shelf shelf' : Shelf) (u t : Text) : Prop :=
  (shelf.HasThread u ∧ shelf' = shelf) ∨
    (¬ shelf.HasThread u ∧ shelf' = shelf.put u t (shelf.messages u t) True)

/-- A thread is told of as it is. -/
structure TellsOf (shelf : Shelf) (u : Text) (thread : ThreadView) : Prop where
  /-- How many messages it shows. -/
  count : thread.messageCount = (recent (shelf.messages u thread.id)).length
  /-- Its title. -/
  title : thread.title = buildThreadTitle (recent (shelf.messages u thread.id))

/-- **A list tells of every thread of the user, once.** -/
structure Tells (shelf : Shelf) (u : Text) (threads : List ThreadView) : Prop where
  /-- Once. -/
  nodup : (threads.map ThreadView.id).Nodup
  /-- Of every thread. -/
  mem : ∀ t, t ∈ threads.map ThreadView.id ↔ IsThread t ∧ shelf.Lists u t
  /-- What is told. -/
  tells : ∀ thread ∈ threads, TellsOf shelf u thread

/-- The thread that is shown is in the list, and it is the one that was asked for if that is. -/
structure Shows (threads : List ThreadView) (threadId : Option Text) (shown : Text) : Prop where
  /-- It is in the list. -/
  mem : shown ∈ threads.map ThreadView.id
  /-- It was asked for. -/
  asked : normalizeChatThreadId threadId ∈ threads.map ThreadView.id →
    shown = normalizeChatThreadId threadId

/-- What a request is answered, and what is on the shelf then. -/
def Request.Answers (toHtml : Text → Text) (u : Text) (shelf : Shelf) :
    Request → Response → Shelf → Prop
  | .getChatThreads threadId, .threads listed shown, shelf' =>
    shelf.Given shelf' u defaultChatThreadId ∧ Tells shelf' u listed ∧ Shows listed threadId shown
  | .createChatThread uuidHex, .created thread listed shown, shelf' =>
    shown = newThreadId uuidHex ∧
      shelf' = shelf.put u shown (shelf.messages u shown) True ∧ Tells shelf' u listed ∧
      ∃ new ∈ listed, thread = some new ∧ new.id = shown
  | .getChatThreadMessages threadId, .messages thread told shown, shelf' =>
    shelf.Given shelf' u defaultChatThreadId ∧ shown = normalizeChatThreadId (some threadId) ∧
      thread.id = shown ∧ shelf'.Lists u shown ∧ TellsOf shelf' u thread ∧
      told.map PreparedMessage.told =
        (prepareMessages toHtml (recent (shelf'.messages u shown))).map PreparedMessage.told ∧
      ∀ message ∈ told, message.html = htmlOf toHtml message.role message.content
  | .getChatThreadMessages threadId, .notFound, shelf' =>
    shelf.Given shelf' u defaultChatThreadId ∧
      ¬ (IsThread (normalizeChatThreadId (some threadId)) ∧
        shelf'.Lists u (normalizeChatThreadId (some threadId)))
  | .deleteChatThread threadId activeThreadId uuidHex, .deleted removed listed shown, shelf' =>
    removed = normalizeChatThreadId (some threadId) ∧
      (shelf.put u removed [] False).Given shelf' u (newThreadId uuidHex) ∧
      Tells shelf' u listed ∧ Shows listed (some (normalizeChatThreadId activeThreadId)) shown
  | .clearChat threadId, .cleared cleared, shelf' =>
    cleared = normalizeChatThreadId threadId ∧ shelf' = shelf.put u cleared [] True
  | .chatPage threadId, .page told shown listed, shelf' =>
    shelf.Given shelf' u defaultChatThreadId ∧ Tells shelf' u listed ∧
      Shows listed threadId shown ∧ told = prepareMessages toHtml (recent (shelf'.messages u shown))
  | _, _, _ => False

/-- The digits of a `uuid4`. -/
def IsHex (uuidHex : Text) : Prop := ∀ c ∈ uuidHex, c ∈ "0123456789abcdef".toList

instance (uuidHex : Text) : Decidable (IsHex uuidHex) := inferInstanceAs (Decidable (∀ _ ∈ _, _))

/-- The requests as they come in. A thread that is removed or cleared does not have the name of the
registry: what is under the key of such a thread is the registry itself. -/
def Request.Proper : Request → Prop
  | .createChatThread uuidHex => IsHex uuidHex
  | .deleteChatThread threadId _ uuidHex =>
    normalizeChatThreadId (some threadId) ≠ registryName ∧ IsHex uuidHex
  | .clearChat threadId => normalizeChatThreadId threadId ≠ registryName
  | _ => True

section Shelves

variable {srv : Server} {shelf : Shelf} {u t : Text}

theorem isThread_newThreadId {uuidHex : Text} (h : IsHex uuidHex) :
    IsThread (newThreadId uuidHex) := by
  have hstart : ∀ c ∈ "thread-".toList, isSpace c = false := by decide
  have hdigits : ∀ c ∈ "0123456789abcdef".toList, isSpace c = false := by decide
  have hspace : ∀ c ∈ newThreadId uuidHex, isSpace c = false := by
    intro c hc
    rcases List.mem_append.mp hc with hc | hc
    · exact hstart c hc
    · exact hdigits c (h c hc)
  refine ⟨⟨fun c hc => hspace c (List.mem_of_mem_head? hc),
    fun c hc => hspace c (List.mem_of_mem_getLast? hc)⟩,
    List.append_ne_nil_of_left_ne_nil (by decide) _, fun hname => ?_⟩
  have htake : (newThreadId uuidHex).take 7 = "thread-".toList := List.take_left' rfl
  rw [hname] at htake
  exact absurd htake (by decide)

theorem normalizeChatThreadId_of_isThread (ht : IsThread t) :
    normalizeChatThreadId (some t) = t := by
  rw [normalizeChatThreadId_eq, normalizeThreadId_of_isThread ht]

theorem Tells.congr {threads threads' : List ThreadView} (h : Tells shelf u threads)
    (htold : threads'.map ThreadView.told = threads.map ThreadView.told) :
    Tells shelf u threads' := by
  have hids : threads'.map ThreadView.id = threads.map ThreadView.id := by
    have hmap := congrArg (List.map Prod.fst) htold
    rwa [List.map_map, List.map_map] at hmap
  refine ⟨hids ▸ h.nodup, fun t => hids ▸ h.mem t, fun thread hthread => ?_⟩
  have hmem : thread.told ∈ threads.map ThreadView.told :=
    htold ▸ List.mem_map_of_mem hthread
  obtain ⟨thread', hthread', hsame⟩ := List.mem_map.mp hmem
  have htells := h.tells thread' hthread'
  simp only [ThreadView.told, Prod.mk.injEq] at hsame
  obtain ⟨hid, htitle, hcount⟩ := hsame
  constructor
  · rw [← hcount, ← hid, htells.count]
  · rw [← htitle, ← hid, htells.title]

theorem shows_resolveActiveThreadId {threads : List ThreadView} (hne : threads ≠ [])
    (threadId : Option Text) : Shows threads threadId (resolveActiveThreadId threadId threads) := by
  have hany : (threads.any fun thread => thread.id = normalizeChatThreadId threadId) = true ↔
      normalizeChatThreadId threadId ∈ threads.map ThreadView.id := by
    simp
  unfold resolveActiveThreadId
  dsimp only
  by_cases hasked : normalizeChatThreadId threadId ∈ threads.map ThreadView.id
  · rw [if_pos (hany.mpr hasked)]
    exact ⟨hasked, fun _ => rfl⟩
  · rw [if_neg (mt hany.mp hasked)]
    obtain ⟨thread, rest, rfl⟩ := List.exists_cons_of_ne_nil hne
    exact ⟨by simp, fun h => absurd h hasked⟩

/-- A thread of the list is found. -/
theorem findThreadSummary_eq_none {threads : List ThreadView} {threadId : Option Text} :
    findThreadSummary threads threadId = none ↔
      normalizeChatThreadId threadId ∉ threads.map ThreadView.id := by
  simp [findThreadSummary, List.find?_eq_none]

theorem id_of_findThreadSummary {threads : List ThreadView} {threadId : Option Text}
    {thread : ThreadView} (h : findThreadSummary threads threadId = some thread) :
    thread ∈ threads ∧ thread.id = normalizeChatThreadId threadId :=
  ⟨List.mem_of_find?_eq_some h, by simpa using List.find?_some h⟩

/-! ### What the routes do -/

/-- **The list of the threads tells what is on the shelf.** -/
theorem runs_serialized (h : Follows srv.look shelf) (hu : IsUsername u) :
    Runs (AsyncChatStore.listThreads u) srv fun summaries srv' =>
      Follows srv'.look shelf ∧ Tells shelf u (summaries.map serializeThreadSummary) := by
  refine ((AsyncChatStore.runs_listThreads h.typed h.indexed hu).and
    (AsyncChatStore.runs_listThreads_titles h.typed h.indexed hu)).mono ?_
  rintro summaries srv' ⟨⟨hsame, htold⟩, htitles⟩
  refine ⟨h.same hsame, ?_⟩
  have hthread : ∀ x ∈ summaries, IsThread x.threadId := fun x hx =>
    ((htold.mem x.threadId).mp (List.mem_map_of_mem hx)).1
  have hids : (summaries.map serializeThreadSummary).map ThreadView.id =
      summaries.map ThreadSummary.threadId := by
    rw [List.map_map]
    exact List.map_congr_left fun x hx => normalizeChatThreadId_of_isThread (hthread x hx)
  refine ⟨hids ▸ htold.nodup, fun t => ?_, fun thread hmem => ?_⟩
  · rw [hids, htold.mem]
    exact and_congr_right fun ht => h.lists u t hu ht
  · obtain ⟨x, hx, rfl⟩ := List.mem_map.mp hmem
    have hid : (serializeThreadSummary x).id = x.threadId :=
      normalizeChatThreadId_of_isThread (hthread x hx)
    have hread := h.decode_thread hu (hthread x hx)
    constructor
    · rw [hid, ← hread]
      exact htold.count x hx
    · rw [hid, ← hread, ← normalizeTitle_buildThreadTitle, ← htitles x hx]
      rfl

/-- A thread that is begun is put on the shelf. -/
theorem runs_created (h : Follows srv.look shelf) (hu : IsUsername u) (ht : IsThread t) :
    Runs (AsyncChatStore.createThread u (some t)) srv fun created srv' => created = t ∧
      Follows srv'.look (shelf.put u t (shelf.messages u t) True) := by
  have hnormal := normalizeThreadId_of_isThread ht
  refine (AsyncChatStore.runs_createThread h.typed h.indexed hu (by rwa [hnormal])).mono ?_
  rintro created srv' ⟨rfl, hacts⟩
  rw [hnormal] at hacts ⊢
  exact ⟨rfl, h.put hu hacts (h.messages u _ hu ht) (iff_of_true trivial (.inl trivial))
    (h.roles u _)⟩

/-- A thread that is cleared is put on the shelf without messages, or taken off it. -/
theorem runs_cleared (h : Follows srv.look shelf) (hu : IsUsername u) (ht : IsThread t)
    (preserveThread : Bool) :
    Runs (AsyncChatStore.clearHistory u (some t) preserveThread) srv fun _ srv' =>
      Follows srv'.look (shelf.put u t [] (preserveThread = true)) := by
  have hnormal := normalizeThreadId_of_isThread ht
  refine (AsyncChatStore.runs_clearHistory h.typed h.indexed hu (by rwa [hnormal])
    preserveThread).mono fun _ srv' hacts => ?_
  rw [hnormal] at hacts
  exact h.put hu hacts rfl (by simp) (by simp)

/-- The messages that are read are those on the shelf. -/
theorem runs_read (h : Follows srv.look shelf) (hu : IsUsername u) (ht : IsThread t) :
    Runs (AsyncChatStore.getHistory u (some t)) srv fun history srv' =>
      history = recent (shelf.messages u t) ∧ Follows srv'.look shelf := by
  have hnormal := normalizeThreadId_of_isThread ht
  refine (AsyncChatStore.runs_getHistory h.typed h.indexed hu (by rwa [hnormal])).mono ?_
  rintro history srv' ⟨rfl, hsame⟩
  rw [hnormal]
  exact ⟨h.decode_thread hu ht, h.same hsame⟩

theorem lists_put (shelf : Shelf) (u t : Text) (messages : List Message) :
    (shelf.put u t messages True).Lists u t := .inl (.inl ⟨rfl, rfl, trivial⟩)

/-- **A user who has no thread is given one**, and the list tells of it. -/
theorem runs_threadSummariesOr (h : Follows srv.look shelf) (hu : IsUsername u)
    (ht : IsThread t) :
    Runs (threadSummariesOr u t) srv fun threads srv' => threads ≠ [] ∧
      ∃ shelf', shelf.Given shelf' u t ∧ Follows srv'.look shelf' ∧ Tells shelf' u threads := by
  unfold threadSummariesOr
  refine (runs_serialized h hu).bind ?_
  rintro summaries srv₁ ⟨hfollows, htells⟩
  dsimp only
  split
  · rename_i hne
    obtain ⟨thread, hthread⟩ := List.exists_mem_of_ne_nil _ hne
    have hhas : shelf.HasThread u := ⟨thread.id, (htells.mem thread.id).mp
      (List.mem_map_of_mem hthread)⟩
    exact succeeds_pure ⟨hne, shelf, .inl ⟨hhas, rfl⟩, hfollows, htells⟩
  · rename_i hempty
    rw [not_not] at hempty
    rw [hempty] at htells
    have hnone : ¬ shelf.HasThread u := by
      rintro ⟨t', ht', hlists⟩
      simpa using (htells.mem t').mpr ⟨ht', hlists⟩
    refine (runs_created hfollows hu ht).bind ?_
    rintro _ srv₂ ⟨-, hcreated⟩
    refine (runs_serialized hcreated hu).bind ?_
    rintro summaries srv₃ ⟨hfollows₃, htells₃⟩
    refine succeeds_pure ⟨?_, _, .inr ⟨hnone, rfl⟩, hfollows₃, htells₃⟩
    intro hnil
    rw [hnil] at htells₃
    simpa using (htells₃.mem t).mpr ⟨ht, lists_put shelf u t _⟩

/-- What is served tells what is on the shelf as well. -/
theorem Tells.resolve {threads : List ThreadView} (h : Tells shelf u threads)
    (hne : threads ≠ []) (hnormal : ∀ thread ∈ threads, thread.Normal) (cfg : ReadSettings)
    (db : Option DbReader) :
    resolveThreadSummariesForReadResponse cfg db u threads ≠ [] ∧
      Tells shelf u (resolveThreadSummariesForReadResponse cfg db u threads) := by
  have htold := told_resolveThreadSummaries cfg db u hnormal
  refine ⟨fun hnil => hne ?_, h.congr htold⟩
  rw [hnil, List.map_nil] at htold
  exact List.map_eq_nil_iff.mp htold.symm

/-- The list that a route begins with. -/
theorem runs_summaries (h : Follows srv.look shelf) (hu : IsUsername u) (ht : IsThread t)
    (cfg : ReadSettings) (db : Option DbReader) :
    Runs (threadSummariesOr u t) srv fun threads srv' =>
      threads ≠ [] ∧ resolveThreadSummariesForReadResponse cfg db u threads ≠ [] ∧
        ∃ shelf', shelf.Given shelf' u t ∧ Follows srv'.look shelf' ∧ Tells shelf' u threads ∧
          Tells shelf' u (resolveThreadSummariesForReadResponse cfg db u threads) := by
  obtain ⟨threads, hrun, hne, shelf', hgiven, hfollows, htells⟩ :=
    runs_threadSummariesOr h hu ht
  have hnormal := returns_threadSummariesOr u t srv threads _ (Prod.ext hrun rfl)
  obtain ⟨hserved, htellsServed⟩ := htells.resolve hne hnormal cfg db
  exact ⟨threads, hrun, hne, hserved, shelf', hgiven, hfollows, htells, htellsServed⟩

/-- **A request gets through, and its answer is what is on the shelf.** -/
theorem follows_body (h : Follows srv.look shelf) (hu : IsUsername u) (toHtml : Text → Text)
    (cfg : ReadSettings) (db : Option DbReader) {request : Request} (hrequest : request.Proper) :
    Runs (request.body toHtml cfg db u) srv fun answer srv' =>
      ∃ shelf', request.Answers toHtml u shelf answer shelf' ∧ Follows srv'.look shelf' := by
  rcases request with threadId | uuidHex | threadId | ⟨threadId, activeThreadId, uuidHex⟩ |
    threadId | threadId
  case getChatThreads =>
    refine (runs_summaries h hu isThread_default cfg db).bind ?_
    rintro threads srv' ⟨-, hne, shelf', hgiven, hfollows, -, htells⟩
    exact succeeds_pure ⟨shelf', ⟨hgiven, htells, shows_resolveActiveThreadId hne threadId⟩,
      hfollows⟩
  case createChatThread =>
    have ht := isThread_newThreadId hrequest
    refine (runs_created h hu ht).bind ?_
    rintro _ srv₁ ⟨rfl, hcreated⟩
    refine (runs_threadSummariesOr hcreated hu isThread_default).bind ?_
    rintro threads srv₂ ⟨-, shelf', hgiven, hfollows, htells⟩
    -- The new thread is on the shelf, so the user is not given another one.
    have hhas : (shelf.put u (newThreadId uuidHex) (shelf.messages u (newThreadId uuidHex))
        True).HasThread u := ⟨_, ht, lists_put _ _ _ _⟩
    obtain rfl : shelf' = shelf.put u (newThreadId uuidHex)
        (shelf.messages u (newThreadId uuidHex)) True :=
      hgiven.elim And.right fun hnone => absurd hhas hnone.1
    refine succeeds_pure ⟨_, ⟨rfl, rfl, htells, ?_⟩, hfollows⟩
    have hmem := (htells.mem _).mpr ⟨ht, lists_put shelf u (newThreadId uuidHex) _⟩
    rcases hfind : findThreadSummary threads (some (newThreadId uuidHex)) with - | new
    · rw [findThreadSummary_eq_none, normalizeChatThreadId_of_isThread ht] at hfind
      exact absurd hmem hfind
    · obtain ⟨hnew, hid⟩ := id_of_findThreadSummary hfind
      exact ⟨new, hnew, rfl, hid.trans (normalizeChatThreadId_of_isThread ht)⟩
  case getChatThreadMessages =>
    refine (runs_summaries h hu isThread_default cfg db).bind ?_
    rintro threads srv' ⟨-, -, shelf', hgiven, hfollows, -, htells⟩
    dsimp only
    rcases hfind : findThreadSummary (resolveThreadSummariesForReadResponse cfg db u threads)
        (some threadId) with - | thread
    · rw [findThreadSummary_eq_none] at hfind
      exact succeeds_pure ⟨shelf', ⟨hgiven, fun hlists => hfind ((htells.mem _).mpr hlists)⟩,
        hfollows⟩
    · obtain ⟨hmem, hid⟩ := id_of_findThreadSummary hfind
      obtain ⟨ht, hlists⟩ := (htells.mem thread.id).mp (List.mem_map_of_mem hmem)
      refine (runs_read hfollows hu ht).bind ?_
      rintro history srv₂ ⟨rfl, hread⟩
      refine succeeds_pure ⟨shelf', ⟨hgiven, hid, rfl, hlists, htells.tells thread hmem, ?_,
        fun message => html_of_mem_prepareMessages toHtml⟩, hread⟩
      exact told_prepareMessages toHtml (normalizeMessages_resolveThreadMessages _ _ _ _ _)
  case deleteChatThread =>
    obtain ⟨hfree, hhex⟩ := hrequest
    have ht : IsThread (normalizeChatThreadId (some threadId)) := by
      rw [normalizeChatThreadId_eq] at hfree ⊢
      exact isThread_normalizeThreadId hfree
    refine (runs_cleared h hu ht false).bind fun _ srv₁ hcleared => ?_
    simp only [Bool.false_eq_true] at hcleared
    refine (runs_summaries hcleared hu (isThread_newThreadId hhex) cfg db).bind ?_
    rintro threads srv' ⟨-, hne, shelf', hgiven, hfollows, -, htells⟩
    exact succeeds_pure ⟨shelf', ⟨rfl, hgiven, htells, shows_resolveActiveThreadId hne _⟩,
      hfollows⟩
  case clearChat =>
    have ht : IsThread (normalizeChatThreadId threadId) := by
      rw [Request.Proper, normalizeChatThreadId_eq] at hrequest
      rw [normalizeChatThreadId_eq]
      exact isThread_normalizeThreadId hrequest
    refine (runs_cleared h hu ht true).bind fun _ srv₁ hcleared => ?_
    exact succeeds_pure ⟨_, ⟨rfl, by simp⟩, hcleared⟩
  case chatPage =>
    refine (runs_summaries h hu isThread_default cfg db).bind ?_
    rintro threads srv' ⟨hne, -, shelf', hgiven, hfollows, htells, -⟩
    have hshows := shows_resolveActiveThreadId hne threadId
    dsimp only
    refine (runs_read hfollows hu ((htells.mem _).mp hshows.mem).1).bind ?_
    rintro history srv₂ ⟨rfl, hread⟩
    exact succeeds_pure ⟨shelf', ⟨hgiven, htells, hshows, rfl⟩, hread⟩

/-! ### Every sequence of requests -/

/-- A request of a user, at some time, with the database as it is then. -/
structure Visit where
  /-- The time. -/
  now : ℕ
  /-- The user. -/
  username : Text
  /-- Which answers may come from the database. -/
  cfg : ReadSettings
  /-- The database. -/
  db : Option DbReader
  /-- The request. -/
  request : Request

/-- The requests as they come in. -/
structure Visit.Proper (visit : Visit) : Prop where
  /-- The user. -/
  username : IsUsername visit.username
  /-- The request. -/
  request : visit.request.Proper

section Visits

variable (toHtml : Text → Text)

/-- What a request is answered, and the server after it. -/
def Visit.run (visit : Visit) (srv : Server) : Except StoreError Response × Server :=
  (visit.request.body toHtml visit.cfg visit.db visit.username).run.run chatServer 0
    { srv with clock := visit.now }

/-- The requests one after the other: what they are answered, and the server after them. -/
def runVisits (srv : Server) : List Visit → List (Except StoreError Response) × Server
  | [] => ([], srv)
  | visit :: visits =>
    ((visit.run toHtml srv).1 :: (runVisits (visit.run toHtml srv).2 visits).1,
      (runVisits (visit.run toHtml srv).2 visits).2)

/-- The answers are what is on the shelf, one after the other. -/
inductive Session : Shelf → List Visit → List Response → Shelf → Prop
  /-- Nothing is asked. -/
  | nil (shelf : Shelf) : Session shelf [] [] shelf
  /-- A request more. -/
  | cons {shelf shelf' shelf'' : Shelf} {visit : Visit} {answer : Response} {visits : List Visit}
      {answers : List Response}
      (h : visit.request.Answers toHtml visit.username shelf answer shelf')
      (hs : Session shelf' visits answers shelf'') :
      Session shelf (visit :: visits) (answer :: answers) shelf''

theorem session_of_follows {visits : List Visit} (h : Follows srv.look shelf)
    (hvisits : ∀ visit ∈ visits, visit.Proper) : ∃ answers shelf',
      (runVisits toHtml srv visits).1 = answers.map .ok ∧
        Session toHtml shelf visits answers shelf' ∧
        Follows (runVisits toHtml srv visits).2.look shelf' := by
  induction visits generalizing srv shelf with
  | nil => exact ⟨[], shelf, rfl, .nil shelf, h⟩
  | cons visit visits ih =>
    obtain ⟨hu, hrequest⟩ := hvisits visit List.mem_cons_self
    have hlater : Follows ({ srv with clock := visit.now } : Server).look shelf := h
    obtain ⟨answer, hok, shelf₁, hanswers, hfollows⟩ :=
      follows_body hlater hu toHtml visit.cfg visit.db hrequest
    obtain ⟨answers, shelf', hrest, hsession, hlast⟩ :=
      ih hfollows fun visit' hvisit' => hvisits visit' (List.mem_cons_of_mem _ hvisit')
    refine ⟨answer :: answers, shelf', ?_, .cons hanswers hsession, hlast⟩
    exact congrArg₂ List.cons hok hrest

/-- **The answers are what is on the shelf**: in every sequence of requests of any users none of
which removes or clears a thread with the name of the registry, from a store that holds old messages
at most, and whatever the database holds. -/
theorem session_of_visits {visits : List Visit} (hold : IsOld srv.look)
    (hvisits : ∀ visit ∈ visits, visit.Proper) : ∃ answers shelf',
      (runVisits toHtml srv visits).1 = answers.map .ok ∧
        Session toHtml (oldShelf srv.look) visits answers shelf' ∧
        Follows (runVisits toHtml srv visits).2.look shelf' :=
  session_of_follows toHtml (follows_old hold) hvisits

end Visits

/-- A page is asked for, and the thread of it is removed. -/
def pageAndRemoval : List Visit :=
  [⟨2, "anna".toList, ⟨false, false⟩, none, .chatPage none⟩,
    ⟨3, "anna".toList, ⟨true, true⟩, none, .deleteChatThread "default".toList none "5f".toList⟩]

theorem session_of_visits_pageAndRemoval : ∃ answers shelf',
    (runVisits id oldServer pageAndRemoval).1 = answers.map .ok ∧
      Session id (oldShelf oldServer.look) pageAndRemoval answers shelf' ∧
      Follows (runVisits id oldServer pageAndRemoval).2.look shelf' :=
  session_of_visits id isOld_oldServer fun visit hvisit => by
    simp only [pageAndRemoval, List.mem_cons, List.not_mem_nil, or_false] at hvisit
    rcases hvisit with rfl | rfl
    · exact ⟨by decide, trivial⟩
    · exact ⟨by decide, by decide +kernel, by decide⟩

end Shelves

end Chat

end AiAgent

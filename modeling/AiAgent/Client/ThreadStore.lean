import Mathlib.Algebra.Order.Ring.Rat
import Mathlib.Data.List.DropRight
import Mathlib.Data.List.Nodup
import Mathlib.Data.List.Sort

/-!
# The thread store of the browser

The page keeps the threads of the user, each with its messages, and which of them is active. What
the server lists is normalized when it comes in: an identifier is trimmed, and a blank one stands
for the default thread (`AiAgent.Client.normalizeThreadId`).

Each operation changes the record of one thread, or puts in new records, and sorts the list. So all
there is to say of an operation is which identifiers the records have after it
(`AiAgent.Client.ThreadStore.Listed.valid_sortThreads`) and which records are those that were there
before. Where the normalized identifiers that the server lists are distinct, the identifiers stay
distinct, one of them is the active one, and no thread loses or gains messages by what is done to
another
(`AiAgent.Client.ThreadStore.keepsInvariants_run`). That the trimmed identifiers are distinct does
not suffice, since a blank identifier may be listed beside the default one
(`AiAgent.Client.ThreadStore.not_keepsInvariants_blank`).
-/

namespace AiAgent

namespace Client

/-! ### Strings and numbers of the browser -/

/-- A string: its UTF-16 code units. -/
abbrev JsString := List UInt16

/-- The code units of a character. -/
def utf16Char (c : Char) : JsString :=
  if c.toNat < 0x10000 then [UInt16.ofNat c.toNat]
  else [UInt16.ofNat (0xd800 + (c.toNat - 0x10000) / 0x400),
    UInt16.ofNat (0xdc00 + (c.toNat - 0x10000) % 0x400)]

/-- A string as it is written in the source. -/
def js (s : String) : JsString := s.toList.flatMap utf16Char

/-- `\s`, and what `trim` removes. -/
def isJsSpace (c : UInt16) : Bool :=
  (9 ≤ c && c ≤ 13) || c == 32 || c == 0xa0 || c == 0x1680 || (0x2000 ≤ c && c ≤ 0x200a) ||
    c == 0x2028 || c == 0x2029 || c == 0x202f || c == 0x205f || c == 0x3000 || c == 0xfeff

/-- `s.trim()`. -/
def trim (s : JsString) : JsString := (s.dropWhile isJsSpace).rdropWhile isJsSpace

/-- `s.replace(/\s+/g, " ")`, in a run of spaces or not. -/
def collapseSpaces (inRun : Bool) : JsString → JsString
  | [] => []
  | c :: s =>
    if isJsSpace c then if inRun then collapseSpaces true s else 32 :: collapseSpaces true s
    else c :: collapseSpaces false s

/-- `a || b`, of strings. -/
def orString (a b : JsString) : JsString := if a = [] then b else a

theorem trim_trim (s : JsString) : trim (trim s) = trim s := by
  have hdrop : (trim s).dropWhile isJsSpace = trim s := by
    rw [List.dropWhile_eq_self_iff]
    intro hpos
    have hpre : trim s <+: s.dropWhile isJsSpace := List.rdropWhile_prefix _ _
    have hlonger : 0 < (s.dropWhile isJsSpace).length := hpos.trans_le hpre.length_le
    have hhead : (trim s)[0] = (s.dropWhile isJsSpace)[0] := hpre.getElem hpos
    rw [hhead]
    exact List.dropWhile_get_zero_not _ _ hlonger
  rw [trim, hdrop]
  exact List.rdropWhile_idempotent _ _

/-- A number. -/
inductive JsNumber where
  | finite (q : ℚ)
  | nan
  | infinity
  | negInfinity
  deriving DecidableEq

/-- A number counts as true unless it is zero or no number. -/
def JsNumber.truthy : JsNumber → Bool
  | finite q => q ≠ 0
  | nan => false
  | infinity => true
  | negInfinity => true

/-- `Math.max(0, n)`. -/
def JsNumber.maxZero : JsNumber → JsNumber
  | finite q => finite (max 0 q)
  | nan => nan
  | infinity => infinity
  | negInfinity => finite 0

/-- What `createId` and `Date.now` return in one call, by the place of the call. -/
structure Supply where
  createId : List ℕ → JsString
  now : List ℕ → ℚ

/-- What they return for the `k`th of several. -/
def Supply.at (supply : Supply) (k : ℕ) : Supply where
  createId := fun place => supply.createId (k :: place)
  now := fun place => supply.now (k :: place)

/-! ### Messages -/

/-- An attachment as it comes. A string that is missing is empty, and a number that is missing is
none; what is there has been made a number. -/
structure RawAttachment where
  id : JsString
  name : JsString
  size : Option JsNumber
  type : JsString
  lastModified : Option JsNumber

structure Attachment where
  id : JsString
  name : JsString
  size : JsNumber
  type : JsString
  lastModified : JsNumber
  deriving DecidableEq

/-- A message as it comes. -/
structure RawMessage where
  id : JsString
  role : JsString
  content : JsString
  html : JsString
  sourceUserMessageId : JsString
  attachments : List RawAttachment
  state : JsString

inductive Role where
  | user
  | assistant
  deriving DecidableEq

structure Message where
  id : JsString
  role : Role
  content : JsString
  html : JsString
  sourceUserMessageId : Option JsString
  attachments : List Attachment
  state : JsString
  deriving DecidableEq

/-- `normalizeAttachment`. -/
def normalizeAttachment (supply : Supply) (attachment : RawAttachment) : Attachment where
  id := orString attachment.id (supply.createId [])
  name := orString attachment.name (js "attachment")
  size := attachment.size.getD (.finite 0)
  type := orString attachment.type (js "application/octet-stream")
  lastModified := attachment.lastModified.getD (.finite (supply.now []))

/-- `normalizeMessage`. -/
def normalizeMessage (supply : Supply) (message : RawMessage)
    (lastUserMessageId : Option JsString) : Message :=
  let role := if message.role = js "assistant" then Role.assistant else Role.user
  { id := orString message.id (supply.createId [])
    role := role
    content := message.content
    html := message.html
    sourceUserMessageId :=
      if message.sourceUserMessageId ≠ [] then some message.sourceUserMessageId
      else if role = .assistant then lastUserMessageId
      else none
    attachments := message.attachments.mapIdx fun k attachment =>
      normalizeAttachment (supply.at k) attachment
    state := orString message.state (js "done") }

/-- The loop of `normalizeMessages`, from the `k`th message on. -/
def normalizeMessagesFrom (supply : Supply) :
    ℕ → Option JsString → List RawMessage → List Message
  | _, _, [] => []
  | k, lastUserMessageId, message :: messages =>
    let normalized := normalizeMessage (supply.at k) message lastUserMessageId
    normalized :: normalizeMessagesFrom supply (k + 1)
      (if normalized.role = .user then some normalized.id else lastUserMessageId) messages

/-- `normalizeMessages`. -/
def normalizeMessages (supply : Supply) (messages : List RawMessage) : List Message :=
  normalizeMessagesFrom supply 0 none messages

/-- A number as it comes in again. -/
def JsNumber.raw (n : JsNumber) : Option JsNumber := if n.truthy then some n else none

/-- An attachment as it comes in again. -/
def Attachment.raw (attachment : Attachment) : RawAttachment where
  id := attachment.id
  name := attachment.name
  size := attachment.size.raw
  type := attachment.type
  lastModified := attachment.lastModified.raw

/-- A message as it comes in again. -/
def Message.raw (message : Message) : RawMessage where
  id := message.id
  role := match message.role with
    | .user => js "user"
    | .assistant => js "assistant"
  content := message.content
  html := message.html
  sourceUserMessageId := message.sourceUserMessageId.getD []
  attachments := message.attachments.map Attachment.raw
  state := message.state

/-- `buildThreadTitle`. -/
def buildThreadTitle (messages : List Message) : JsString :=
  match messages.find? fun message => message.role = .user ∧ trim message.content ≠ [] with
  | none => js "Новый чат"
  | some firstUserMessage =>
    let normalized := collapseSpaces false (trim firstUserMessage.content)
    if 48 < normalized.length then normalized.take 48 ++ js "..." else normalized

/-! ### Threads -/

/-- A thread as it comes: a summary, or a record. -/
structure RawThread where
  id : JsString
  title : JsString
  createdAt : Option JsNumber
  updatedAt : Option JsNumber
  messageCount : Option JsNumber
  messages : List RawMessage

/-- A thread summary. -/
structure ThreadSummary where
  id : JsString
  title : JsString
  updatedAt : ℚ
  messageCount : JsNumber

/-- A thread record. -/
structure Thread where
  id : JsString
  title : JsString
  createdAt : JsNumber
  updatedAt : ℚ
  messageCount : JsNumber
  messages : List Message
  deriving DecidableEq

def defaultThreadId : JsString := js "default"

/-- `String(id || DEFAULT_THREAD_ID).trim() || DEFAULT_THREAD_ID`. -/
def normalizeThreadId (id : JsString) : JsString :=
  orString (trim (orString id defaultThreadId)) defaultThreadId

/-- `normalizeThreadSummary`. -/
def normalizeThreadSummary (supply : Supply) (thread : RawThread) : ThreadSummary where
  id := normalizeThreadId thread.id
  title := orString (trim (orString thread.title (js "Новый чат"))) (js "Новый чат")
  updatedAt :=
    match thread.updatedAt.getD (.finite (supply.now [0])) with
    | .finite q => if 0 < q then q else supply.now [1]
    | _ => supply.now [1]
  messageCount := (thread.messageCount.getD (.finite 0)).maxZero

/-- `{...normalized, messages}`. -/
def ThreadSummary.raw (summary : ThreadSummary) (messages : List RawMessage) : RawThread where
  id := summary.id
  title := summary.title
  createdAt := none
  updatedAt := JsNumber.raw (.finite summary.updatedAt)
  messageCount := summary.messageCount.raw
  messages := messages

/-- `createThreadRecord`. -/
def createThreadRecord (supply : Supply) (thread : RawThread) : Thread :=
  let normalized := normalizeThreadSummary (supply.at 0) thread
  let messages := normalizeMessages (supply.at 1) thread.messages
  { id := normalized.id
    title := if messages = [] then normalized.title else buildThreadTitle messages
    createdAt := thread.createdAt.getD
      (if normalized.updatedAt ≠ 0 then .finite normalized.updatedAt
      else .finite (supply.now [2]))
    updatedAt := normalized.updatedAt
    messageCount := if messages = [] then normalized.messageCount else .finite messages.length
    messages := messages }

/-- What is normalized stays as it is. -/
theorem normalizeThreadId_normalizeThreadId (id : JsString) :
    normalizeThreadId (normalizeThreadId id) = normalizeThreadId id := by
  have hdefault : normalizeThreadId defaultThreadId = defaultThreadId := by decide
  by_cases hblank : trim (orString id defaultThreadId) = []
  · have hid : normalizeThreadId id = defaultThreadId := if_pos hblank
    rw [hid, hdefault]
  · have hid : normalizeThreadId id = trim (orString id defaultThreadId) := if_neg hblank
    have hself : orString (trim (orString id defaultThreadId)) defaultThreadId =
        trim (orString id defaultThreadId) := if_neg hblank
    rw [hid, normalizeThreadId, hself, trim_trim, hself]

theorem id_createThreadRecord (supply : Supply) (thread : RawThread) :
    (createThreadRecord supply thread).id = normalizeThreadId thread.id := rfl

/-! ### Changing the first of a list -/

section UpdateFirst

variable {α β : Type} {p : α → Bool} {f : α → α} {a : α} {l : List α}

/-- The first that satisfies `p` is changed. -/
def updateFirst (p : α → Bool) (f : α → α) : List α → List α
  | [] => []
  | a :: l => if p a then f a :: l else a :: updateFirst p f l

theorem map_updateFirst {g : α → β} (h : ∀ a, g (f a) = g a) (l : List α) :
    (updateFirst p f l).map g = l.map g := by
  induction l with
  | nil => rfl
  | cons a l ih =>
    rw [updateFirst]
    by_cases hp : p a = true
    · rw [if_pos hp, List.map_cons, List.map_cons, h]
    · rw [if_neg hp, List.map_cons, List.map_cons, ih]

/-- What is there after a change is the changed one or was there before. -/
theorem mem_updateFirst {b : α} (hfind : l.find? p = some a) (hb : b ∈ updateFirst p f l) :
    b = f a ∨ b ∈ l := by
  induction l with
  | nil => cases hfind
  | cons c l ih =>
    rw [updateFirst] at hb
    by_cases hp : p c = true
    · rw [List.find?_cons_of_pos hp] at hfind
      obtain rfl := Option.some.inj hfind
      rw [if_pos hp] at hb
      exact (List.mem_cons.mp hb).imp id (List.mem_cons_of_mem _)
    · rw [List.find?_cons_of_neg hp] at hfind
      rw [if_neg hp] at hb
      rcases List.mem_cons.mp hb with rfl | hb
      · exact .inr List.mem_cons_self
      · exact (ih hfind hb).imp id (List.mem_cons_of_mem _)

end UpdateFirst

/-! ### The store -/

/-- `left.localeCompare(right)`: it compares any two strings, and consistently. -/
structure Collation where
  compare : JsString → JsString → ℤ
  total : ∀ a b, compare a b ≤ 0 ∨ compare b a ≤ 0
  trans : ∀ a b c, compare a b ≤ 0 → compare b c ≤ 0 → compare a c ≤ 0

/-- Later threads come first, and those of one time by identifier. -/
def Collation.Before (collation : Collation) (left right : Thread) : Prop :=
  if right.updatedAt ≠ left.updatedAt then right.updatedAt - left.updatedAt ≤ 0
  else collation.compare left.id right.id ≤ 0

instance (collation : Collation) : DecidableRel collation.Before :=
  fun _ _ => inferInstanceAs (Decidable (ite _ _ _))

/-- The state of a `ThreadStore`. -/
structure ThreadStore where
  threads : List Thread
  activeThreadId : Option JsString
  liveThreadId : Option JsString

/-- `Error("Live thread is not initialized")`. -/
inductive ThreadStoreError where
  | liveThreadNotInitialized

namespace ThreadStore

/-- `findThread`. -/
def findThread (s : ThreadStore) (threadId : JsString) : Option Thread :=
  s.threads.find? fun thread => thread.id = threadId

/-- `getLiveThread`. -/
def getLiveThread (s : ThreadStore) : Option Thread := s.liveThreadId.bind s.findThread

/-- `resolveThreadId`. -/
def resolveThreadId (threadId : JsString) (threads : List Thread) : JsString :=
  let normalizedThreadId := normalizeThreadId threadId
  if threads.any fun thread => thread.id = normalizedThreadId then normalizedThreadId
  else (threads.head?.map Thread.id).getD defaultThreadId

/-- The thread that is found is changed. -/
def updateThread (s : ThreadStore) (p : Thread → Bool) (f : Thread → Thread) : ThreadStore :=
  { s with threads := updateFirst p f s.threads }

/-- The active thread is set. -/
def activate (s : ThreadStore) (threadId : JsString) : ThreadStore :=
  { s with activeThreadId := some threadId, liveThreadId := some threadId }

section Operations

variable (collation : Collation) (supply : Supply)

/-- `sortThreads`. -/
def sortThreads (s : ThreadStore) : ThreadStore :=
  { s with threads := s.threads.insertionSort collation.Before }

/-- What `setThreadMessages` does to its thread. -/
def withMessages (messages : List RawMessage) (thread : Thread) : Thread :=
  let normalized := normalizeMessages (supply.at 0) messages
  { thread with
    messages := normalized
    title := buildThreadTitle normalized
    messageCount := .finite normalized.length
    updatedAt := supply.now [1] }

/-- `setThreadMessages`. -/
def setThreadMessages (threadId : JsString) (messages : List RawMessage) (emit : Bool)
    (s : ThreadStore) : ThreadStore :=
  match s.findThread threadId with
  | none => s
  | some _ =>
    let s := s.updateThread (fun thread => thread.id = threadId) (withMessages supply messages)
    if emit then s.sortThreads collation else s

/-- `bootstrap`. -/
def bootstrap (initialThreads : List RawThread) (initialMessages : List RawMessage)
    (initialThreadId : JsString) (s : ThreadStore) : ThreadStore :=
  let normalizedThreads :=
    if initialThreads ≠ [] then
      initialThreads.mapIdx fun k thread => createThreadRecord ((supply.at 0).at k) thread
    else
      [createThreadRecord (supply.at 0) ⟨orString initialThreadId defaultThreadId, [], none, none,
        none, []⟩]
  let resolvedThreadId := resolveThreadId initialThreadId normalizedThreads
  let resolvedMessages := normalizeMessages (supply.at 1) initialMessages
  let s := { s with threads := normalizedThreads }
  let s := setThreadMessages collation (supply.at 2) resolvedThreadId
    (resolvedMessages.map Message.raw) false s
  (s.activate resolvedThreadId).sortThreads collation

/-- `setActiveThread`. -/
def setActiveThread (threadId : JsString) (s : ThreadStore) : ThreadStore :=
  let resolvedThreadId := resolveThreadId threadId s.threads
  match s.findThread resolvedThreadId with
  | none => s
  | some _ => s.activate resolvedThreadId

/-- What `replaceThreads` puts in for a summary: the record of the same thread keeps its
messages. -/
def replacement (s : ThreadStore) (supply : Supply) (threadSummary : RawThread) : Thread :=
  let normalized := normalizeThreadSummary (supply.at 0) threadSummary
  -- Of records with one identifier the last counts.
  let existing := s.threads.reverse.find? fun thread => thread.id = normalized.id
  createThreadRecord (supply.at 1)
    (normalized.raw (((existing.map Thread.messages).getD []).map Message.raw))

/-- `replaceThreads`. -/
def replaceThreads (threads : List RawThread) (activeThreadId : Option JsString)
    (s : ThreadStore) : ThreadStore :=
  let replaced := threads.mapIdx fun k threadSummary => s.replacement (supply.at k) threadSummary
  let threads :=
    if replaced = [] then
      [createThreadRecord (supply.at 0) ⟨defaultThreadId, [], none, none, none, []⟩]
    else replaced
  let resolvedThreadId := resolveThreadId (activeThreadId.getD (s.activeThreadId.getD [])) threads
  (({ s with threads := threads }).activate resolvedThreadId).sortThreads collation

/-- What `attachServerThread` does to a thread that is there. -/
def withSummary (normalized : ThreadSummary) (messages : Option (List Message))
    (existing : Thread) : Thread :=
  { existing with
    title := normalized.title
    updatedAt := normalized.updatedAt
    messageCount := normalized.messageCount
    messages := messages.getD existing.messages }

/-- `attachServerThread`. -/
def attachServerThread (threadSummary : RawThread) (messages : Option (List RawMessage))
    (s : ThreadStore) : ThreadStore :=
  let normalized := normalizeThreadSummary (supply.at 0) threadSummary
  let normalizedMessages := messages.map (normalizeMessages (supply.at 1))
  let s :=
    match s.findThread normalized.id with
    | some _ =>
      s.updateThread (fun thread => thread.id = normalized.id)
        (withSummary normalized normalizedMessages)
    | none =>
      let record := createThreadRecord (supply.at 2)
        (normalized.raw ((normalizedMessages.getD []).map Message.raw))
      { s with threads := record :: s.threads }
  (s.activate normalized.id).sortThreads collation

/-- What is done to the live thread: it is changed, made active, and the threads are sorted. -/
def changeLiveThread (f : Thread → Thread) (liveThread : Thread) (s : ThreadStore) : ThreadStore :=
  ((s.updateThread (fun thread => thread.id = liveThread.id) f).activate
    liveThread.id).sortThreads collation

/-- What `clearLiveThreadMessages` does to its thread. -/
def cleared (thread : Thread) : Thread :=
  { thread with
    messages := []
    title := js "Новый чат"
    updatedAt := supply.now []
    messageCount := .finite 0 }

/-- `clearLiveThreadMessages`. -/
def clearLiveThreadMessages (s : ThreadStore) : ThreadStore :=
  match s.getLiveThread with
  | none => s
  | some liveThread => s.changeLiveThread collation (cleared supply) liveThread

/-- What appending a message of the user does to its thread. -/
def withUserMessage (message : Message) (thread : Thread) : Thread :=
  { thread with
    messages := thread.messages ++ [message]
    title := buildThreadTitle (thread.messages ++ [message])
    updatedAt := supply.now []
    messageCount := .finite (thread.messages ++ [message]).length }

/-- The message that `appendUserMessage` makes. -/
def userMessage (content : JsString) (attachments : List RawAttachment) : Message where
  id := supply.createId []
  role := .user
  content := content
  html := []
  sourceUserMessageId := none
  attachments := attachments.mapIdx fun k attachment => normalizeAttachment (supply.at k) attachment
  state := js "done"

/-- `appendUserMessage`. -/
def appendUserMessage (content : JsString) (attachments : List RawAttachment) (s : ThreadStore) :
    Except ThreadStoreError ThreadStore :=
  match s.getLiveThread with
  | none => .error .liveThreadNotInitialized
  | some liveThread => .ok (s.changeLiveThread collation
      (withUserMessage supply (userMessage supply content attachments)) liveThread)

/-- What appending a placeholder does to its thread: the title stays. -/
def withPlaceholder (message : Message) (thread : Thread) : Thread :=
  { thread with
    messages := thread.messages ++ [message]
    updatedAt := supply.now []
    messageCount := .finite (thread.messages ++ [message]).length }

/-- The message that `appendAssistantPlaceholder` makes. -/
def placeholder (sourceUserMessageId : Option JsString) : Message where
  id := supply.createId []
  role := .assistant
  content := []
  html := []
  sourceUserMessageId := sourceUserMessageId
  attachments := []
  state := js "streaming"

/-- `appendAssistantPlaceholder`. -/
def appendAssistantPlaceholder (sourceUserMessageId : Option JsString) (s : ThreadStore) :
    Except ThreadStoreError ThreadStore :=
  match s.getLiveThread with
  | none => .error .liveThreadNotInitialized
  | some liveThread => .ok (s.changeLiveThread collation
      (withPlaceholder supply (placeholder supply sourceUserMessageId)) liveThread)

/-- What a message is finalized with. -/
structure Payload where
  content : JsString
  html : JsString
  state : JsString

/-- A message is finalized in the thread that is named, or else in the one that has it. -/
def isFinalized (messageId threadId : JsString) (thread : Thread) : Bool :=
  if threadId ≠ [] then thread.id = threadId
  else thread.messages.any fun message => message.id = messageId

/-- What finalizing a message does to its thread. -/
def withFinalized (messageId : JsString) (payload : Payload) (thread : Thread) : Thread :=
  let messages := updateFirst (fun message => message.id = messageId) (fun message =>
    { message with
      content := payload.content
      html := payload.html
      state := orString payload.state (js "done") }) thread.messages
  { thread with
    messages := messages
    title := buildThreadTitle messages
    updatedAt := supply.now []
    messageCount := .finite messages.length }

/-- `finalizeAssistantMessage`. -/
def finalizeAssistantMessage (messageId : JsString) (payload : Payload) (threadId : JsString)
    (s : ThreadStore) : ThreadStore :=
  match s.threads.find? (isFinalized messageId threadId) with
  | none => s
  | some thread =>
    if thread.messages.any fun message => message.id = messageId then
      (s.updateThread (isFinalized messageId threadId)
        (withFinalized supply messageId payload)).sortThreads collation
    else s

end Operations

/-! ### Operations -/

/-- The operations. -/
inductive Op where
  | bootstrap (initialThreads : List RawThread) (initialMessages : List RawMessage)
    (initialThreadId : JsString)
  | replaceThreads (threads : List RawThread) (activeThreadId : Option JsString)
  | attachServerThread (threadSummary : RawThread) (messages : Option (List RawMessage))
  | setThreadMessages (threadId : JsString) (messages : List RawMessage)
  | appendUserMessage (content : JsString) (attachments : List RawAttachment)
  | appendAssistantPlaceholder (sourceUserMessageId : Option JsString)
  | finalizeAssistantMessage (messageId : JsString) (payload : Payload) (threadId : JsString)
  | clearLiveThreadMessages
  | setActiveThread (threadId : JsString)

/-- One operation. -/
def step (collation : Collation) (s : ThreadStore) (op : Op × Supply) :
    Except ThreadStoreError ThreadStore :=
  match op.1 with
  | .bootstrap initialThreads initialMessages initialThreadId =>
    .ok (s.bootstrap collation op.2 initialThreads initialMessages initialThreadId)
  | .replaceThreads threads activeThreadId =>
    .ok (s.replaceThreads collation op.2 threads activeThreadId)
  | .attachServerThread threadSummary messages =>
    .ok (s.attachServerThread collation op.2 threadSummary messages)
  | .setThreadMessages threadId messages =>
    .ok (s.setThreadMessages collation op.2 threadId messages true)
  | .appendUserMessage content attachments =>
    s.appendUserMessage collation op.2 content attachments
  | .appendAssistantPlaceholder sourceUserMessageId =>
    s.appendAssistantPlaceholder collation op.2 sourceUserMessageId
  | .finalizeAssistantMessage messageId payload threadId =>
    .ok (s.finalizeAssistantMessage collation op.2 messageId payload threadId)
  | .clearLiveThreadMessages => .ok (s.clearLiveThreadMessages collation op.2)
  | .setActiveThread threadId => .ok (s.setActiveThread threadId)

/-- Operations, one after the other. -/
def run (collation : Collation) (s : ThreadStore) (ops : List (Op × Supply)) :
    Except ThreadStoreError ThreadStore := ops.foldlM (step collation) s

/-- `new ThreadStore(…)`, before it calls `bootstrap`. -/
def blank : ThreadStore := ⟨[], none, none⟩

/-- The operation is about the thread of that identifier, or about all threads. -/
def Op.Concerns (op : Op) (s : ThreadStore) (threadId : JsString) : Prop :=
  match op with
  | .bootstrap _ _ _ => True
  | .replaceThreads _ _ => True
  | .attachServerThread threadSummary _ => threadId = normalizeThreadId threadSummary.id
  | .setThreadMessages threadId' _ => threadId = threadId'
  | .appendUserMessage _ _ => s.liveThreadId = some threadId
  | .appendAssistantPlaceholder _ => s.liveThreadId = some threadId
  | .finalizeAssistantMessage messageId _ threadId' =>
    ∃ thread, s.threads.find? (isFinalized messageId threadId') = some thread ∧ threadId = thread.id
  | .clearLiveThreadMessages => s.liveThreadId = some threadId
  | .setActiveThread _ => False

/-- What is listed by the server, of all operations. -/
def Op.listed : Op → List RawThread
  | .bootstrap initialThreads _ _ => initialThreads
  | .replaceThreads threads _ => threads
  | _ => []

/-! ### The invariant -/

/-- The identifiers are distinct, and one of them is the active and the live one. -/
structure Listed (s : ThreadStore) : Prop where
  nodup : (s.threads.map Thread.id).Nodup
  active : ∃ id ∈ s.threads.map Thread.id, s.activeThreadId = some id ∧ s.liveThreadId = some id

/-- **The invariant of the store.** -/
structure Valid (collation : Collation) (s : ThreadStore) : Prop extends Listed s where
  nonempty : s.threads ≠ []
  sorted : s.threads.Pairwise collation.Before

/-- The threads that an operation is not about are the same records. -/
def Spares (op : Op) (s s' : ThreadStore) : Prop :=
  ∀ t ∈ s.threads, ∀ t' ∈ s'.threads, t'.id = t.id → ¬ op.Concerns s t.id → t' = t

section Invariant

variable {collation : Collation} {s : ThreadStore} {p : Thread → Bool} {f : Thread → Thread}

theorem before_iff {a b : Thread} : collation.Before a b ↔
    b.updatedAt < a.updatedAt ∨ (b.updatedAt = a.updatedAt ∧ collation.compare a.id b.id ≤ 0) := by
  rw [Collation.Before]
  by_cases htime : b.updatedAt = a.updatedAt
  · rw [if_neg (not_not.mpr htime)]
    exact ⟨fun h => .inr ⟨htime, h⟩, fun h => h.elim (fun hlt => absurd htime hlt.ne) And.right⟩
  · rw [if_pos htime, sub_nonpos]
    exact ⟨fun h => .inl (lt_of_le_of_ne h htime),
      fun h => h.elim le_of_lt fun heq => absurd heq.1 htime⟩

instance : Std.Total collation.Before where
  total a b := by
    rw [before_iff, before_iff]
    rcases lt_trichotomy a.updatedAt b.updatedAt with h | h | h
    · exact .inr (.inl h)
    · exact (collation.total a.id b.id).imp (fun hle => .inr ⟨h.symm, hle⟩)
        fun hle => .inr ⟨h, hle⟩
    · exact .inl (.inl h)

instance : IsTrans Thread collation.Before where
  trans a b c hab hbc := by
    rw [before_iff] at hab hbc ⊢
    rcases hab with hab | ⟨hab, hle⟩
    · rcases hbc with hbc | ⟨hbc, -⟩
      · exact .inl (hbc.trans hab)
      · exact .inl (hbc ▸ hab)
    · rcases hbc with hbc | ⟨hbc, hle'⟩
      · exact .inl (hab ▸ hbc)
      · exact .inr ⟨hbc.trans hab, collation.trans _ _ _ hle hle'⟩

/-- **Sorting settles the invariant.** -/
theorem Listed.valid_sortThreads (h : Listed s) : Valid collation (s.sortThreads collation) := by
  have hperm := List.perm_insertionSort collation.Before s.threads
  have hids := hperm.map Thread.id
  obtain ⟨id, hid, hactive, hlive⟩ := h.active
  refine ⟨⟨hids.nodup_iff.mpr h.nodup, id, hids.mem_iff.mpr hid, hactive, hlive⟩, ?_, ?_⟩
  · rintro hnone
    rw [sortThreads] at hnone
    have hempty := hids.mem_iff.mpr hid
    dsimp only at hnone
    rw [hnone] at hempty
    cases hempty
  · exact List.pairwise_insertionSort _ _

theorem map_id_updateThread (hid : ∀ t, (f t).id = t.id) (s : ThreadStore) :
    (s.updateThread p f).threads.map Thread.id = s.threads.map Thread.id :=
  map_updateFirst hid _

/-- Changing a thread keeps the identifiers. -/
theorem Listed.updateThread (h : Listed s) (hid : ∀ t, (f t).id = t.id) :
    Listed (s.updateThread p f) := by
  obtain ⟨hnodup, hactive⟩ := h
  rw [← map_id_updateThread hid s] at hnodup hactive
  exact ⟨hnodup, hactive⟩

/-- Another thread may be made active. -/
theorem listed_activate (hnodup : (s.threads.map Thread.id).Nodup) {id : JsString}
    (hid : id ∈ s.threads.map Thread.id) : Listed (s.activate id) := ⟨hnodup, id, hid, rfl, rfl⟩

theorem mem_ids_of_findThread {id : JsString} {t : Thread} (h : s.findThread id = some t) :
    t ∈ s.threads ∧ t.id = id :=
  ⟨List.mem_of_find?_eq_some h, by simpa using List.find?_some h⟩

/-- What `resolveThreadId` returns is listed, if anything is. -/
theorem resolveThreadId_mem {threads : List Thread} (h : threads ≠ []) (id : JsString) :
    resolveThreadId id threads ∈ threads.map Thread.id := by
  rw [resolveThreadId]
  by_cases hany : threads.any fun thread => thread.id = normalizeThreadId id
  · obtain ⟨t, ht, heq⟩ := List.any_eq_true.mp hany
    rw [if_pos hany]
    exact List.mem_map.mpr ⟨t, ht, of_decide_eq_true heq⟩
  · obtain ⟨t, rest, rfl⟩ := List.exists_cons_of_ne_nil h
    rw [if_neg hany]
    exact List.mem_cons_self

/-- With distinct identifiers there is one record of each. -/
theorem Listed.eq_of_id_eq (h : Listed s) {t t' : Thread} (ht : t ∈ s.threads)
    (ht' : t' ∈ s.threads) (hid : t'.id = t.id) : t' = t :=
  List.inj_on_of_nodup_map h.nodup ht' ht hid

/-- **Changing one thread spares the others.** -/
theorem Listed.spares_updateThread (h : Listed s) {found : Thread}
    (hfound : s.threads.find? p = some found) (hid : ∀ t, (f t).id = t.id) {t t' : Thread}
    (ht : t ∈ s.threads) (ht' : t' ∈ (s.updateThread p f).threads) (heq : t'.id = t.id)
    (hother : t.id ≠ found.id) : t' = t := by
  rcases mem_updateFirst hfound ht' with rfl | hmem
  · rw [hid] at heq
    exact absurd heq.symm hother
  · exact h.eq_of_id_eq ht hmem heq

/-- A live thread is found. -/
theorem Listed.exists_getLiveThread (h : Listed s) : ∃ t, s.getLiveThread = some t ∧
    t ∈ s.threads ∧ s.liveThreadId = some t.id := by
  obtain ⟨id, hid, -, hlive⟩ := h.active
  obtain ⟨t, ht, rfl⟩ := List.mem_map.mp hid
  obtain ⟨found, hfound⟩ : ∃ found, s.findThread t.id = some found :=
    Option.isSome_iff_exists.mp (List.find?_isSome.mpr ⟨t, ht, decide_eq_true rfl⟩)
  obtain ⟨hmem, hsame⟩ := mem_ids_of_findThread hfound
  exact ⟨found, by rw [getLiveThread, hlive, Option.bind_some, hfound], hmem,
    hsame ▸ hlive⟩

/-! ### Every operation keeps the invariant -/

variable {supply : Supply} {s' : ThreadStore}

/-- What is changed in the live thread. -/
theorem Listed.changeLiveThread (h : Listed s) (hid : ∀ t, (f t).id = t.id) {liveThread : Thread}
    (hlive : liveThread ∈ s.threads) :
    Valid collation (s.changeLiveThread collation f liveThread) ∧
      ∀ t ∈ s.threads, ∀ t' ∈ (s.changeLiveThread collation f liveThread).threads,
        t'.id = t.id → t.id ≠ liveThread.id → t' = t := by
  constructor
  · refine Listed.valid_sortThreads (listed_activate (h.updateThread hid).nodup ?_)
    rw [map_id_updateThread hid]
    exact List.mem_map_of_mem hlive
  · intro t ht t' ht' heq hother
    have hmem := (List.mem_insertionSort collation.Before).mp ht'
    obtain ⟨found, hfound⟩ : ∃ found,
        s.threads.find? (fun thread => thread.id = liveThread.id) = some found :=
      Option.isSome_iff_exists.mp (List.find?_isSome.mpr ⟨liveThread, hlive, decide_eq_true rfl⟩)
    have hsame : found.id = liveThread.id := by simpa using List.find?_some hfound
    exact h.spares_updateThread hfound hid ht hmem heq (hsame ▸ hother)

/-- The identifiers of the records of what the server lists. -/
theorem map_id_mapIdx {record : ℕ → RawThread → Thread}
    (hrecord : ∀ k thread, (record k thread).id = normalizeThreadId thread.id)
    (threads : List RawThread) : (threads.mapIdx record).map Thread.id =
      threads.map fun thread => normalizeThreadId thread.id := by
  refine List.ext_getElem? fun k => ?_
  rw [List.getElem?_map, List.getElem?_mapIdx, List.getElem?_map, Option.map_map]
  exact congrArg (Option.map · threads[k]?) (funext (hrecord k))

/-- The normalized identifiers of what the server lists are distinct. -/
def Distinct (threads : List RawThread) : Prop :=
  (threads.map fun thread => normalizeThreadId thread.id).Nodup

instance (threads : List RawThread) : Decidable (Distinct threads) :=
  inferInstanceAs (Decidable (List.Nodup _))

theorem map_id_setThreadMessages (threadId : JsString) (messages : List RawMessage)
    (s : ThreadStore) :
    (s.setThreadMessages collation supply threadId messages false).threads.map Thread.id =
      s.threads.map Thread.id := by
  rw [setThreadMessages]
  rcases s.findThread threadId with _ | found
  · rfl
  · exact map_id_updateThread (f := withMessages supply messages) (fun _ => rfl) s

/-- **`bootstrap` establishes the invariant**, whatever the store was. -/
theorem valid_bootstrap {initialThreads : List RawThread} (h : Distinct initialThreads)
    (initialMessages : List RawMessage) (initialThreadId : JsString) (s : ThreadStore) :
    Valid collation
      (s.bootstrap collation supply initialThreads initialMessages initialThreadId) := by
  have hlisted : ∀ threads : List Thread, threads ≠ [] → (threads.map Thread.id).Nodup →
      Valid collation (((setThreadMessages collation (supply.at 2)
        (resolveThreadId initialThreadId threads)
        ((normalizeMessages (supply.at 1) initialMessages).map Message.raw) false
        { s with threads := threads }).activate
          (resolveThreadId initialThreadId threads)).sortThreads collation) := by
    intro threads hne hnodup
    have hids : (setThreadMessages collation (supply.at 2)
        (resolveThreadId initialThreadId threads)
        ((normalizeMessages (supply.at 1) initialMessages).map Message.raw) false
        { s with threads := threads }).threads.map Thread.id = threads.map Thread.id :=
      map_id_setThreadMessages _ _ _
    refine Listed.valid_sortThreads (listed_activate ?_ ?_)
    · rw [hids]
      exact hnodup
    · rw [hids]
      exact resolveThreadId_mem hne _
  rw [bootstrap]
  by_cases hnone : initialThreads = []
  · rw [if_neg (not_not.mpr hnone)]
    exact hlisted _ (List.cons_ne_nil _ _) (List.nodup_singleton _)
  · rw [if_pos hnone]
    refine hlisted _ (fun heq => hnone (List.mapIdx_eq_nil_iff.mp heq)) ?_
    rw [map_id_mapIdx fun _ _ => id_createThreadRecord _ _]
    exact h

/-- A summary that was normalized makes a record of the same identifier. -/
theorem id_createThreadRecord_raw (supply supply' : Supply) (threadSummary : RawThread)
    (messages : List RawMessage) :
    (createThreadRecord supply ((normalizeThreadSummary supply' threadSummary).raw messages)).id =
      normalizeThreadId threadSummary.id := normalizeThreadId_normalizeThreadId _

theorem id_replacement (s : ThreadStore) (supply : Supply) (threadSummary : RawThread) :
    (s.replacement supply threadSummary).id = normalizeThreadId threadSummary.id := by
  rw [replacement]
  exact id_createThreadRecord_raw _ _ _ _

/-- **`replaceThreads` establishes the invariant**, too. -/
theorem valid_replaceThreads {threads : List RawThread} (h : Distinct threads)
    (activeThreadId : Option JsString) (s : ThreadStore) :
    Valid collation (s.replaceThreads collation supply threads activeThreadId) := by
  have hlisted : ∀ threads : List Thread, threads ≠ [] → (threads.map Thread.id).Nodup →
      ∀ id, Valid collation ((activate { s with threads := threads }
        (resolveThreadId id threads)).sortThreads collation) := by
    intro threads hne hnodup id
    exact Listed.valid_sortThreads (listed_activate hnodup (resolveThreadId_mem hne _))
  rw [replaceThreads]
  by_cases hnone : threads.mapIdx (fun k threadSummary =>
      s.replacement (supply.at k) threadSummary) = []
  · rw [if_pos hnone]
    refine hlisted _ (List.cons_ne_nil _ _) ?_ _
    exact List.nodup_singleton _
  · rw [if_neg hnone]
    refine hlisted _ hnone ?_ _
    rw [map_id_mapIdx fun _ _ => id_replacement _ _ _]
    exact h

/-- Attaching a thread keeps the invariant and spares the others. -/
theorem Valid.attachServerThread (h : Valid collation s) (threadSummary : RawThread)
    (messages : Option (List RawMessage)) :
    Valid collation (s.attachServerThread collation supply threadSummary messages) ∧
      ∀ t ∈ s.threads,
        ∀ t' ∈ (s.attachServerThread collation supply threadSummary messages).threads,
          t'.id = t.id → t.id ≠ normalizeThreadId threadSummary.id → t' = t := by
  have hid : ∀ t, (withSummary (normalizeThreadSummary (supply.at 0) threadSummary)
      (messages.map (normalizeMessages (supply.at 1))) t).id = t.id := fun _ => rfl
  rw [ThreadStore.attachServerThread]
  rcases hfound : s.findThread (normalizeThreadSummary (supply.at 0) threadSummary).id
    with _ | found
  · -- A new record is put first.
    have hnew : normalizeThreadId threadSummary.id ∉ s.threads.map Thread.id := by
      rintro hmem
      obtain ⟨t, ht, heq⟩ := List.mem_map.mp hmem
      exact List.find?_eq_none.mp hfound t ht (decide_eq_true heq)
    dsimp only
    constructor
    · refine Listed.valid_sortThreads (listed_activate ?_ ?_)
      · rw [List.map_cons, List.nodup_cons, id_createThreadRecord_raw]
        exact ⟨hnew, h.nodup⟩
      · rw [List.map_cons, id_createThreadRecord_raw]
        exact List.mem_cons_self
    · intro t ht t' ht' heq hother
      rcases List.mem_cons.mp ((List.mem_insertionSort collation.Before).mp ht') with rfl | hmem
      · rw [id_createThreadRecord_raw] at heq
        exact absurd heq.symm hother
      · exact h.eq_of_id_eq ht hmem heq
  · obtain ⟨hmem, hsame⟩ := mem_ids_of_findThread hfound
    dsimp only
    constructor
    · refine Listed.valid_sortThreads (listed_activate (h.updateThread hid).nodup ?_)
      rw [map_id_updateThread hid, ← hsame]
      exact List.mem_map_of_mem hmem
    · intro t ht t' ht' heq hother
      have hmem' := (List.mem_insertionSort collation.Before).mp ht'
      exact h.spares_updateThread hfound hid ht hmem' heq (hsame ▸ hother)

/-- Setting messages keeps the invariant and spares the others. -/
theorem Valid.setThreadMessages (h : Valid collation s) (threadId : JsString)
    (messages : List RawMessage) :
    Valid collation (s.setThreadMessages collation supply threadId messages true) ∧
      ∀ t ∈ s.threads,
        ∀ t' ∈ (s.setThreadMessages collation supply threadId messages true).threads,
          t'.id = t.id → t.id ≠ threadId → t' = t := by
  have hid : ∀ t, (withMessages supply messages t).id = t.id := fun _ => rfl
  rw [ThreadStore.setThreadMessages]
  rcases hfound : s.findThread threadId with _ | found
  · exact ⟨h, fun t ht t' ht' heq _ => h.eq_of_id_eq ht ht' heq⟩
  · refine ⟨Listed.valid_sortThreads (h.updateThread hid), ?_⟩
    intro t ht t' ht' heq hother
    have hmem := (List.mem_insertionSort collation.Before).mp ht'
    exact h.spares_updateThread hfound hid ht hmem heq
      ((mem_ids_of_findThread hfound).2 ▸ hother)

/-- Finalizing a message keeps the invariant and spares the threads it is not found in. -/
theorem Valid.finalizeAssistantMessage (h : Valid collation s) (messageId : JsString)
    (payload : Payload) (threadId : JsString) :
    Valid collation (s.finalizeAssistantMessage collation supply messageId payload threadId) ∧
      ∀ t ∈ s.threads,
        ∀ t' ∈ (s.finalizeAssistantMessage collation supply messageId payload threadId).threads,
          t'.id = t.id → (∀ found, s.threads.find? (isFinalized messageId threadId) = some found →
            t.id ≠ found.id) → t' = t := by
  have hsame : Valid collation s ∧ ∀ t ∈ s.threads, ∀ t' ∈ s.threads, t'.id = t.id →
      (∀ found, s.threads.find? (isFinalized messageId threadId) = some found → t.id ≠ found.id) →
        t' = t := ⟨h, fun t ht t' ht' heq _ => h.eq_of_id_eq ht ht' heq⟩
  have hid : ∀ t, (withFinalized supply messageId payload t).id = t.id := fun _ => rfl
  rw [ThreadStore.finalizeAssistantMessage]
  rcases hfound : s.threads.find? (isFinalized messageId threadId) with _ | found
  · rw [hfound] at hsame
    exact hsame
  dsimp only
  by_cases hany : found.messages.any (fun message => message.id = messageId) = true
  · rw [if_pos hany]
    refine ⟨Listed.valid_sortThreads (h.updateThread hid), ?_⟩
    intro t ht t' ht' heq hother
    have hmem := (List.mem_insertionSort collation.Before).mp ht'
    exact h.spares_updateThread hfound hid ht hmem heq (hother found rfl)
  · rw [if_neg hany]
    rw [hfound] at hsame
    exact hsame

/-- Another thread is made active. -/
theorem Valid.setActiveThread (h : Valid collation s) (threadId : JsString) :
    Valid collation (s.setActiveThread threadId) ∧
      (s.setActiveThread threadId).threads = s.threads := by
  rw [ThreadStore.setActiveThread]
  rcases hfound : s.findThread (resolveThreadId threadId s.threads) with _ | found
  · exact ⟨h, rfl⟩
  · have hlisted := listed_activate h.nodup (resolveThreadId_mem h.nonempty threadId)
    exact ⟨⟨hlisted, h.nonempty, h.sorted⟩, rfl⟩

/-- **Every operation keeps the invariant**, and spares the threads it is not about. -/
theorem Valid.step (h : Valid collation s) (op : Op × Supply) (hop : Distinct op.1.listed) :
    ∃ s', s.step collation op = .ok s' ∧ Valid collation s' ∧ Spares op.1 s s' := by
  obtain ⟨op, supply⟩ := op
  obtain ⟨liveThread, hlive, hmem, hid⟩ := h.exists_getLiveThread
  have hchange : ∀ f : Thread → Thread, (∀ t, (f t).id = t.id) →
      Valid collation (s.changeLiveThread collation f liveThread) ∧
        ∀ t ∈ s.threads, ∀ t' ∈ (s.changeLiveThread collation f liveThread).threads,
          t'.id = t.id → ¬ s.liveThreadId = some t.id → t' = t := by
    intro f hf
    refine (h.changeLiveThread hf hmem).imp_right fun hspares t ht t' ht' heq hother => ?_
    exact hspares t ht t' ht' heq fun hsame => hother (hsame ▸ hid)
  -- What is changed is all threads, or one that is found by its id, or the live one.
  cases op with
  | bootstrap initialThreads initialMessages initialThreadId =>
    exact ⟨_, rfl, valid_bootstrap hop _ _ _, fun _ _ _ _ _ hnot => absurd trivial hnot⟩
  | replaceThreads threads activeThreadId =>
    exact ⟨_, rfl, valid_replaceThreads hop _ _, fun _ _ _ _ _ hnot => absurd trivial hnot⟩
  | attachServerThread threadSummary messages =>
    exact ⟨_, rfl, h.attachServerThread _ _⟩
  | setThreadMessages threadId messages => exact ⟨_, rfl, h.setThreadMessages _ _⟩
  | appendUserMessage content attachments =>
    refine ⟨_, ?_, hchange (withUserMessage supply (userMessage supply content attachments))
      fun _ => rfl⟩
    rw [ThreadStore.step]
    dsimp only
    rw [ThreadStore.appendUserMessage, hlive]
  | appendAssistantPlaceholder sourceUserMessageId =>
    refine ⟨_, ?_, hchange (withPlaceholder supply (placeholder supply sourceUserMessageId))
      fun _ => rfl⟩
    rw [ThreadStore.step]
    dsimp only
    rw [ThreadStore.appendAssistantPlaceholder, hlive]
  | finalizeAssistantMessage messageId payload threadId =>
    obtain ⟨hvalid, hspares⟩ := h.finalizeAssistantMessage messageId payload threadId
    refine ⟨_, rfl, hvalid, fun t ht t' ht' heq hnot => hspares t ht t' ht' heq ?_⟩
    exact fun found hfound hsame => hnot ⟨found, hfound, hsame⟩
  | clearLiveThreadMessages =>
    refine ⟨_, rfl, ?_⟩
    rw [ThreadStore.clearLiveThreadMessages, hlive]
    exact hchange (cleared supply) fun _ => rfl
  | setActiveThread threadId =>
    obtain ⟨hvalid, hsame⟩ := h.setActiveThread threadId
    refine ⟨_, rfl, hvalid, fun t ht t' ht' heq _ => ?_⟩
    rw [hsame] at ht'
    exact h.eq_of_id_eq ht ht' heq

/-! ### Whole runs -/

/-- `new ThreadStore(…)`. -/
def create (collation : Collation) (supply : Supply) (initialThreads : List RawThread)
    (initialMessages : List RawMessage) (initialThreadId : JsString) : ThreadStore :=
  blank.bootstrap collation supply initialThreads initialMessages initialThreadId

/-- A new store satisfies the invariant, and after every operation of a run the store does, while
the operation spares the threads it is not about. -/
structure KeepsInvariants (collation : Collation) (s : ThreadStore) (ops : List (Op × Supply)) :
    Prop where
  initially : Valid collation s
  every : ∀ before op later, ops = before ++ op :: later → ∃ s₁ s₂,
    s.run collation before = .ok s₁ ∧ s₁.step collation op = .ok s₂ ∧ Valid collation s₂ ∧
      Spares op.1 s₁ s₂

/-- **No run of operations fails, and each keeps the invariant.** -/
theorem Valid.run (h : Valid collation s) {ops : List (Op × Supply)}
    (hops : ∀ op ∈ ops, Distinct op.1.listed) :
    ∃ s', s.run collation ops = .ok s' ∧ Valid collation s' := by
  induction ops generalizing s with
  | nil => exact ⟨s, rfl, h⟩
  | cons op ops ih =>
    obtain ⟨s₁, hstep, hvalid, -⟩ := h.step op (hops op List.mem_cons_self)
    obtain ⟨s₂, hrun, hvalid'⟩ := ih hvalid fun op' hop' => hops op' (List.mem_cons_of_mem _ hop')
    refine ⟨s₂, ?_, hvalid'⟩
    rw [ThreadStore.run, List.foldlM_cons, hstep]
    exact hrun

/-- **The store keeps its invariants**, where the identifiers that are listed are distinct when they
are normalized. -/
theorem keepsInvariants_run (collation : Collation) (supply : Supply)
    {initialThreads : List RawThread} (h : Distinct initialThreads)
    (initialMessages : List RawMessage) (initialThreadId : JsString) {ops : List (Op × Supply)}
    (hops : ∀ op ∈ ops, Distinct op.1.listed) :
    KeepsInvariants collation
      (create collation supply initialThreads initialMessages initialThreadId) ops where
  initially := valid_bootstrap h _ _ _
  every := by
    rintro before op later rfl
    obtain ⟨s₁, hrun, hvalid⟩ := (valid_bootstrap h initialMessages initialThreadId blank).run
      fun op' hop' => hops op' (List.mem_append_left _ hop')
    obtain ⟨s₂, hstep, hvalid', hspares⟩ := hvalid.step op
      (hops op (List.mem_append_right _ List.mem_cons_self))
    exact ⟨s₁, s₂, hrun, hstep, hvalid', hspares⟩

end Invariant

/-- Strings by their lengths. -/
def byLength : Collation where
  compare a b := a.length - b.length
  total := by omega
  trans := by omega

/-- One moment, and one identifier. -/
def oneMoment : Supply := ⟨fun _ => js "msg-1", fun _ => 1⟩

/-- A thread of which nothing is listed but its identifier. -/
def listedAs (id : String) : RawThread := ⟨js id, [], none, none, none, []⟩

/-- Two threads are listed, a message is sent, and it is answered when the other one is active. -/
def twoThreads : List (Op × Supply) :=
  [(.replaceThreads [listedAs " a ", listedAs "bc"] none, oneMoment),
    (.appendUserMessage (js "hello") [], oneMoment),
    (.appendAssistantPlaceholder none, ⟨fun _ => js "msg-2", fun _ => 2⟩),
    (.setActiveThread (js "bc"), oneMoment),
    (.finalizeAssistantMessage (js "msg-2") ⟨js "hi", [], []⟩ [], oneMoment)]

theorem keepsInvariants_twoThreads :
    KeepsInvariants byLength (create byLength oneMoment [] [] []) twoThreads :=
  keepsInvariants_run byLength oneMoment (by decide) _ _ (by decide)

/-- A blank identifier beside the default one. -/
def blankAndDefault : List RawThread := [listedAs " ", listedAs "default"]

/-- **Trimmed identifiers may be distinct and yet name one thread.** -/
theorem not_keepsInvariants_blank : (blankAndDefault.map fun thread => trim thread.id).Nodup ∧
    ¬ KeepsInvariants byLength (create byLength oneMoment [] [] [])
      [(.replaceThreads blankAndDefault none, oneMoment)] := by
  refine ⟨by decide, fun h => ?_⟩
  obtain ⟨s₁, s₂, hrun, hstep, hvalid, -⟩ := h.every [] _ [] rfl
  obtain rfl := Except.ok.inj hrun
  obtain rfl := Except.ok.inj hstep
  exact absurd hvalid.nodup (by decide)

end ThreadStore

end Client

end AiAgent

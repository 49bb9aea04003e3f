import AiAgent.Chat.Keys
import AiAgent.Command.Interleave
import Mathlib.Data.List.AList

/-!
# The chat store, command by command

`AsyncChatStore` reads and writes its Redis by single commands, and others may write between two of
them; only what it sends as a transaction is one command. Here its functions are programs over these
commands (`AiAgent.Chat.AsyncChatStore`), on a keyspace that can be scanned for its keys.

The time is a command too: it is read where a message is made and where a thread is touched without
a time of its own.
-/

namespace AiAgent

namespace Chat

open Text Budget Command

/-! ### The keyspace -/

/-- The keys of the store that exist, with their values. -/
abbrev Keyspace := AList fun _ : Text => Value

namespace Keyspace

variable (k : Keyspace)

/-- The store, as it is looked at by single keys. -/
def look : Store := fun key => k.lookup key

/-- The key is given a value, or deleted. -/
def set (key : Text) : Option Value → Keyspace
  | none => k.erase key
  | some v => k.insert key v

theorem look_set (key : Text) (v : Option Value) :
    (k.set key v).look = Function.update k.look key v := by
  funext key'
  rcases eq_or_ne key' key with rfl | hne
  · rw [Function.update_self]
    rcases v with _ | v
    · exact AList.lookup_erase key' k
    · exact AList.lookup_insert k
  · rw [Function.update_of_ne hne]
    rcases v with _ | v
    · exact AList.lookup_erase_ne hne
    · exact AList.lookup_insert_ne hne

/-- A key exists if it has a value. -/
theorem mem_iff_look {key : Text} : key ∈ k ↔ k.look key ≠ none := by
  rw [look, Ne, AList.lookup_eq_none, not_not]

end Keyspace

/-! ### Values -/

/-- The messages a value holds, as `LRANGE` reads them. -/
def readList : Option Value → Except StoreError (List Entry)
  | none => .ok []
  | some (.list entries) => .ok entries
  | some (.sorted _) => .error .wrongType

/-- The members a value holds, with their scores. -/
def readSorted : Option Value → Except StoreError (List (Text × ℕ))
  | none => .ok []
  | some (.sorted members) => .ok members
  | some (.list _) => .error .wrongType

/-- The value after `ZADD`. -/
def addMember (member : Text) (score : ℕ) (v : Option Value) : Except StoreError (Option Value) :=
  (readSorted v).map fun members =>
    some (.sorted ((member, score) :: members.filter fun m => m.1 ≠ member))

/-- The value after `ZREM`; a key without members is gone. -/
def removeMember (member : Text) (v : Option Value) : Except StoreError (Option Value) :=
  (readSorted v).map fun members =>
    let rest := members.filter fun m => m.1 ≠ member
    if rest = [] then none else some (.sorted rest)

/-- The members from the highest score down, as `ZREVRANGE` reads them. -/
def descending (members : List (Text × ℕ)) : List (Text × ℕ) :=
  members.mergeSort fun a b => b.2 < a.2 || (a.2 = b.2 && !decide (a.1 < b.1))

/-! ### Commands -/

/-- A command that is queued in a transaction. -/
inductive ChatWrite where
  /-- `RPUSH key entry ..`. -/
  | rpush (key : Text) (entries : List Entry)
  /-- `LTRIM key -100 -1`; no list of the store is empty, so none gets empty by it. -/
  | ltrim (key : Text)
  /-- `DEL key`. -/
  | delete (key : Text)

/-- What a queued command makes of the keyspace. -/
def ChatWrite.exec (k : Keyspace) : ChatWrite → Except StoreError Keyspace
  | .rpush key entries =>
    (readList (k.look key)).map fun old => k.set key (some (.list (old ++ entries)))
  | .ltrim key =>
    (readList (k.look key)).map fun old =>
      k.set key ((k.look key).map fun _ => .list (recent old))
  | .delete key => .ok (k.set key none)

/-- A transaction executes all of its commands, and answers with the first error. -/
def Keyspace.transaction (k : Keyspace) : List ChatWrite → Except StoreError Unit × Keyspace
  | [] => (.ok (), k)
  | w :: ws =>
    match w.exec k with
    | .ok k' => k'.transaction ws
    | .error e => (.error e, (k.transaction ws).2)

/-- The commands of the chat store, and the clock. -/
inductive ChatCmd where
  /-- `int(time.time())`. -/
  | time
  /-- `LRANGE key 0 -1`. -/
  | lrange (key : Text)
  /-- `LRANGE key -1 -1`. -/
  | last (key : Text)
  /-- `MULTI`, the commands, `EXEC`. -/
  | transaction (ws : List ChatWrite)
  /-- `DEL key ..`. -/
  | delete (keys : List Text)
  /-- `ZADD key {member: score}`. -/
  | zadd (key member : Text) (score : ℕ)
  /-- `ZREM key member`. -/
  | zrem (key member : Text)
  /-- `KEYS` of all that begins so. -/
  | keys (start : Text)
  /-- `ZREVRANGE key 0 -1 WITHSCORES`. -/
  | zrevrange (key : Text)

/-- What a command answers. -/
abbrev ChatCmd.Reply : ChatCmd → Type
  | .time => ℕ
  | .lrange _ => Except StoreError (List Entry)
  | .last _ => Except StoreError (Option Entry)
  | .transaction _ => Except StoreError Unit
  | .delete _ => Unit
  | .zadd .. => Except StoreError Unit
  | .zrem .. => Except StoreError Unit
  | .keys _ => List Text
  | .zrevrange _ => Except StoreError (List (Text × ℕ))

abbrev chatSig : Signature := ⟨ChatCmd, ChatCmd.Reply⟩

/-- The Redis of the chats, and the time. -/
structure Server where
  clock : ℕ
  keyspace : Keyspace

/-- The server with a value made anew. -/
def Server.change (s : Server) (key : Text) (f : Option Value → Except StoreError (Option Value)) :
    Except StoreError Unit × Server :=
  match f (s.keyspace.look key) with
  | .ok v => (.ok (), { s with keyspace := s.keyspace.set key v })
  | .error e => (.error e, s)

/-- What a command answers, and the server it leaves. -/
def ChatCmd.exec (s : Server) : (c : ChatCmd) → c.Reply × Server
  | .time => (s.clock, s)
  | .lrange key => (readList (s.keyspace.look key), s)
  | .last key => ((readList (s.keyspace.look key)).map List.getLast?, s)
  | .transaction ws =>
    ((s.keyspace.transaction ws).1, { s with keyspace := (s.keyspace.transaction ws).2 })
  | .delete given => ((),
      { s with keyspace := given.foldl (fun k key => k.set key none) s.keyspace })
  | .zadd key member score => s.change key (addMember member score)
  | .zrem key member => s.change key (removeMember member)
  | .keys start => (s.keyspace.keys.filter fun key => start.isPrefixOf key, s)
  | .zrevrange key => ((readSorted (s.keyspace.look key)).map descending, s)

/-- The server, which nobody waits for. -/
def chatServer : Command.Store chatSig Server where
  exec := fun _ c s => c.exec s
  ready := fun _ _ => True
  drop := fun _ s => s

/-! ### The functions -/

/-- A function of the store, which ends with an error where a command is refused. -/
abbrev ChatOp := ExceptT StoreError (Program chatSig)

/-- What `list_threads` tells of a thread. -/
structure ThreadSummary where
  threadId : Text
  updatedAt : ℕ
  title : Text
  messageCount : ℕ

/-- `str.split`. -/
def words (t : Text) : List Text := (t.splitOnP isSpace).filter (· ≠ [])

/-- `build_thread_title`. -/
def buildThreadTitle : List Message → Text
  | [] => "Новый чат".toList
  | message :: history =>
    if message.role ≠ "user".toList then buildThreadTitle history
    else
      let content := join [' '] (words (strip message.content))
      if content = [] then buildThreadTitle history
      else if 48 < content.length then content.take 48 ++ "...".toList
      else content

namespace AsyncChatStore

/-- One command. -/
def ask (c : ChatCmd) : Program chatSig c.Reply := Program.send (S := chatSig) c

def time : ChatOp ℕ := ExceptT.lift (ask .time)

def lrange (key : Text) : ChatOp (List Entry) := ExceptT.mk (ask (.lrange key))

def last (key : Text) : ChatOp (Option Entry) := ExceptT.mk (ask (.last key))

def transaction (ws : List ChatWrite) : ChatOp Unit :=
  ExceptT.mk (ask (.transaction ws))

def delete (keys : List Text) : ChatOp Unit := ExceptT.lift (ask (.delete keys))

def zadd (key member : Text) (score : ℕ) : ChatOp Unit :=
  ExceptT.mk (ask (.zadd key member score))

def zrem (key member : Text) : ChatOp Unit := ExceptT.mk (ask (.zrem key member))

def keys (start : Text) : ChatOp (List Text) := ExceptT.lift (ask (.keys start))

def zrevrange (key : Text) : ChatOp (List (Text × ℕ)) :=
  ExceptT.mk (ask (.zrevrange key))

/-- `_latest_history_timestamp`. -/
def latestHistoryTimestamp (key : Text) : ChatOp ℕ := do
  return ((← last key).map Entry.createdAt).getD 0

/-- `_touch_thread_registry`; no time means now. -/
def touchThreadRegistry (username threadId : Text) (updatedAt : ℕ) : ChatOp Unit := do
  let score ← (if updatedAt = 0 then time else pure updatedAt : ChatOp ℕ)
  zadd (threadRegistryKey username) (normalizeThreadId (some threadId)) score

/-- `_remove_from_thread_registry`. -/
def removeFromThreadRegistry (username threadId : Text) : ChatOp Unit :=
  zrem (threadRegistryKey username) (normalizeThreadId (some threadId))

/-- The loop of `_sync_thread_registry_from_existing_buckets`. -/
def syncBuckets (username : Text) : List Text → ChatOp Unit
  | [] => pure ()
  | key :: keys =>
    match extractThreadIdFromHistoryKey username key with
    | none => syncBuckets username keys
    | some threadId => do
      let timestamp ← latestHistoryTimestamp key
      if timestamp ≠ 0 then touchThreadRegistry username threadId timestamp
      syncBuckets username keys

/-- `_sync_thread_registry_from_existing_buckets`. -/
def syncThreadRegistryFromExistingBuckets (username : Text) : ChatOp Unit := do
  syncBuckets username (← keys (historyKeyPrefix username))

/-- `_migrate_legacy_default_history_if_needed`. -/
def migrateLegacyDefaultHistoryIfNeeded (username threadKey : Text) : ChatOp Bool := do
  if (← lrange threadKey) ≠ [] then
    touchThreadRegistry username defaultChatThreadId (← latestHistoryTimestamp threadKey)
    return false
  else
    let legacyEntries ← lrange (legacyHistoryKey username)
    if legacyEntries = [] then return false
    else
      transaction [.rpush threadKey legacyEntries, .ltrim threadKey,
        .delete (legacyHistoryKey username)]
      touchThreadRegistry username defaultChatThreadId (← latestHistoryTimestamp threadKey)
      return true

/-- The migration that every look at the default thread begins with. -/
def migrateIfDefault (username threadId : Text) : ChatOp Unit :=
  if threadId = defaultChatThreadId then do
    let _ ← migrateLegacyDefaultHistoryIfNeeded username (historyKey username threadId)
  else pure ()

/-- `append_message`. -/
def appendMessage (username role content : Text) (threadId : Option Text) : ChatOp Unit := do
  let createdAt ← time
  let normalizedThreadId := normalizeThreadId threadId
  let key := historyKey username normalizedThreadId
  migrateIfDefault username normalizedThreadId
  transaction [.rpush key [⟨role, content, createdAt⟩], .ltrim key]
  touchThreadRegistry username normalizedThreadId createdAt

/-- `create_thread`. -/
def createThread (username : Text) (threadId : Option Text) : ChatOp Text := do
  let normalizedThreadId := normalizeThreadId threadId
  touchThreadRegistry username normalizedThreadId (← time)
  return normalizedThreadId

/-- The messages of a chat role among the last ones. -/
def decode (entries : List Entry) : List Message :=
  recent ((entries.map Entry.message).filter fun m => m.role ∈ chatMessageRoles)

/-- `_decode_history_entries`. -/
def decodeHistoryEntries (key : Text) : ChatOp (List Message) := do
  return decode (← lrange key)

/-- `get_history`. -/
def getHistory (username : Text) (threadId : Option Text) : ChatOp (List Message) := do
  let normalizedThreadId := normalizeThreadId threadId
  let key := historyKey username normalizedThreadId
  migrateIfDefault username normalizedThreadId
  let history ← decodeHistoryEntries key
  if history ≠ [] then
    touchThreadRegistry username normalizedThreadId (← latestHistoryTimestamp key)
  return history

/-- `clear_history`. -/
def clearHistory (username : Text) (threadId : Option Text) (preserveThread : Bool) :
    ChatOp Unit := do
  let normalizedThreadId := normalizeThreadId threadId
  let key := historyKey username normalizedThreadId
  delete (if normalizedThreadId = defaultChatThreadId then [key, legacyHistoryKey username]
    else [key])
  if preserveThread then touchThreadRegistry username normalizedThreadId (← time)
  else removeFromThreadRegistry username normalizedThreadId

/-- The loop of `list_threads`. -/
def summarize (username : Text) : List (Text × ℕ) → ChatOp (List ThreadSummary)
  | [] => pure []
  | (threadId, score) :: members => do
    let history ← getHistory username (some threadId)
    let threads ← summarize username members
    return ⟨threadId, score, buildThreadTitle history, history.length⟩ :: threads

/-- `list_threads`. -/
def listThreads (username : Text) : ChatOp (List ThreadSummary) := do
  let _ ← migrateLegacyDefaultHistoryIfNeeded username (historyKey username defaultChatThreadId)
  syncThreadRegistryFromExistingBuckets username
  summarize username (← zrevrange (threadRegistryKey username))

end AsyncChatStore

end Chat

end AiAgent

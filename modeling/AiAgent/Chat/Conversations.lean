import AiAgent.Chat.Coordinator
import AiAgent.Store.Session

/-!
# The conversation store as a map of lists

Every call of the conversation store checks its arguments, opens a session over the two tables, and
commits at most once. The tables refuse what their declared keys do not allow
(`AiAgent.Chat.Database.Declared`).

For a single client all of this comes to one thing: a call either is rejected and changes nothing,
or changes the list of messages of one thread in the way its arguments say
(`AiAgent.Chat.Call.change`). So after any sequence of calls the store shows the lists that result
from the changes, each numbered from 0 on and none without its thread
(`AiAgent.Chat.mapOfLists_runCalls`).
-/

namespace AiAgent

namespace Chat

open Text Budget

/-! ### The programs -/

/-- An item of a snapshot as it is given: a `ConversationSnapshotMessage`, a mapping that may lack a
field, or something else. -/
inductive SnapshotItem where
  | message (role content : Text)
  | mapping (role content : Option Text)
  | other

/-- What a call raises. -/
inductive CallError where
  /-- The field must not be empty. -/
  | valueError (field : Text)
  /-- The item of the snapshot is neither a mapping nor a message. -/
  | typeError
  /-- The declared keys do not allow the change. -/
  | integrityError
  deriving DecidableEq

/-- **What the declared keys allow**: the primary keys, the two unique constraints, and that every
message has its thread. -/
structure Database.Declared (db : Database) : Prop where
  ids : (db.threads.map ThreadRow.id).Nodup
  names : (db.threads.map fun row => (row.username, row.threadId)).Nodup
  messageIds : (db.messages.map MessageRow.id).Nodup
  indices : (db.messages.map fun row => (row.threadPk, row.messageIndex)).Nodup
  owners : ∀ row ∈ db.messages, row.threadPk ∈ db.threads.map ThreadRow.id

instance : DecidablePred Database.Declared := fun db =>
  decidable_of_iff
    ((db.threads.map ThreadRow.id).Nodup ∧
      (db.threads.map fun row => (row.username, row.threadId)).Nodup ∧
      (db.messages.map MessageRow.id).Nodup ∧
      (db.messages.map fun row => (row.threadPk, row.messageIndex)).Nodup ∧
      ∀ row ∈ db.messages, row.threadPk ∈ db.threads.map ThreadRow.id)
    ⟨fun h => ⟨h.1, h.2.1, h.2.2.1, h.2.2.2.1, h.2.2.2.2⟩,
      fun h => ⟨h.ids, h.names, h.messageIds, h.indices, h.owners⟩⟩

namespace ConversationStore

/-- `_require_non_empty`. -/
def requireNonEmpty (value field : Text) : Except CallError Text :=
  let normalized := strip value
  if normalized = [] then .error (.valueError field) else .ok normalized

/-- `_normalize_snapshot_messages`. -/
def normalizeSnapshotMessages (messages : List SnapshotItem) : Except CallError (List Message) :=
  messages.mapM fun
    | .message role content => do
      return ⟨← requireNonEmpty role "role".toList, ← requireNonEmpty content "content".toList⟩
    | .mapping role content => do
      return ⟨← requireNonEmpty (role.getD []) "role".toList,
        ← requireNonEmpty (content.getD []) "content".toList⟩
    | .other => .error .typeError

/-- A program of a session over the tables. -/
abbrev DbM := SessionM Database CallError

/-- A call of the store. -/
abbrev CallM := ClientM Database CallError

/-- `session.flush()`. -/
def flush : DbM Unit := Session.flush Database.Declared .integrityError

/-- `session.commit()`. -/
def commit : DbM Unit := Session.commit Database.Declared .integrityError

/-- `_find_thread`. -/
def findThread (username threadId : Text) : DbM (Option ThreadRow) := do
  return (← Session.read).findThread username threadId

/-- A new row of `conversation_threads` is added to the session. -/
def addThread (username threadId : Text) : DbM ThreadRow :=
  Session.write fun db => db.insertThread username threadId

/-- The thread with that name, which is added and flushed if there is none. -/
def findOrAddThread (username threadId : Text) : DbM ThreadRow := do
  match ← findThread username threadId with
  | some thread => return thread
  | none => do
    let thread ← addThread username threadId
    flush
    return thread

/-- `create_or_get_thread`. -/
def createOrGetThread (username threadId : Text) : CallM ThreadRow := do
  let normalizedUsername ← requireNonEmpty username "username".toList
  let normalizedThreadId ← requireNonEmpty threadId "thread_id".toList
  Session.within do
    match ← findThread normalizedUsername normalizedThreadId with
    | some thread => return thread
    | none => do
      let thread ← addThread normalizedUsername normalizedThreadId
      tryCatchThe CallError
        (do commit; return thread)
        -- The session was rolled back: another client may have added the thread.
        fun error => do
          match ← findThread normalizedUsername normalizedThreadId with
          | some thread => return thread
          | none => throw error

/-- `append_message`. -/
def appendMessage (username threadId role content : Text) : CallM MessageRow := do
  let normalizedUsername ← requireNonEmpty username "username".toList
  let normalizedThreadId ← requireNonEmpty threadId "thread_id".toList
  let normalizedRole ← requireNonEmpty role "role".toList
  if content = [] then throw (.valueError "content".toList)
  else Session.within do
    let thread ← findOrAddThread normalizedUsername normalizedThreadId
    let rows := (← Session.read).rowsOf thread.id
    let message ← Session.write fun db =>
      let message : MessageRow :=
        ⟨db.nextMessageId, thread.id, Database.nextIndex rows, normalizedRole, content⟩
      (db.insertMessage message, message)
    commit
    return message

/-- `delete_thread_messages`. -/
def deleteThreadMessages (username threadId : Text) : CallM ℕ :=
  Session.within do
    match ← findThread (strip username) (strip threadId) with
    | none => return 0
    | some thread => do
      let rows := (← Session.read).rowsOf thread.id
      Session.write fun db => (db.withoutMessages thread.id, ())
      commit
      return rows.length

/-- `delete_thread`; its messages go with it. -/
def deleteThread (username threadId : Text) : CallM ℕ := do
  let normalizedUsername ← requireNonEmpty username "username".toList
  let normalizedThreadId ← requireNonEmpty threadId "thread_id".toList
  Session.within do
    match ← findThread normalizedUsername normalizedThreadId with
    | none => return 0
    | some thread => do
      Session.write fun db => (db.withoutThread thread.id, ())
      commit
      return 1

/-- `_load_thread_messages`. -/
def loadThreadMessages (threadPk : ℕ) : DbM (List MessageRow) := do
  return ((← Session.read).rowsOf threadPk).insertionSort Database.ReadBefore

/-- `_snapshot_matches_rows`. -/
def snapshotMatchesRows (snapshot : List Message) (rows : List MessageRow) : Bool :=
  if snapshot.length ≠ rows.length then false
  else (snapshot.zip rows).all fun item =>
    item.1.role = item.2.role ∧ item.1.content = item.2.content

/-- `_replace_messages`: the rows that are there are deleted first. -/
def replaceMessages (thread : ThreadRow) (snapshot : List Message) : DbM Unit := do
  Session.write fun db => (db.withoutMessages thread.id, ())
  flush
  Session.write fun db => ({ db with
    messages := db.messages ++ Database.snapshotRows db.nextMessageId thread.id snapshot
    nextMessageId := db.nextMessageId + snapshot.length }, ())

/-- The session of `import_thread_snapshot`: nothing is committed where the thread holds the
snapshot already. -/
def importSnapshot (normalizedUsername normalizedThreadId : Text) (snapshot : List Message) :
    DbM (List MessageRow) := do
  let thread ← findOrAddThread normalizedUsername normalizedThreadId
  let existingMessages ← loadThreadMessages thread.id
  if snapshotMatchesRows snapshot existingMessages then return existingMessages
  else do
    replaceMessages thread snapshot
    commit
    loadThreadMessages thread.id

/-- `import_thread_snapshot`. -/
def importThreadSnapshot (username threadId : Text) (messages : List SnapshotItem) :
    CallM (List MessageRow) := do
  let normalizedUsername ← requireNonEmpty username "username".toList
  let normalizedThreadId ← requireNonEmpty threadId "thread_id".toList
  let snapshot ← normalizeSnapshotMessages messages
  Session.within (importSnapshot normalizedUsername normalizedThreadId snapshot)

/-- `replace_thread_snapshot`. -/
def replaceThreadSnapshot (username threadId : Text) (messages : List SnapshotItem) :
    CallM (List MessageRow) := do
  let normalizedUsername ← requireNonEmpty username "username".toList
  let normalizedThreadId ← requireNonEmpty threadId "thread_id".toList
  let snapshot ← normalizeSnapshotMessages messages
  Session.within do
    let thread ← findOrAddThread normalizedUsername normalizedThreadId
    replaceMessages thread snapshot
    commit
    loadThreadMessages thread.id

end ConversationStore

/-! ### The keys under the changes -/

namespace Database

/-- **Tables with their keys**: what is declared, and the next ids are unused. -/
structure Keyed (db : Database) : Prop extends Declared db where
  fresh : ∀ row ∈ db.threads, row.id < db.nextThreadId
  freshMessages : ∀ row ∈ db.messages, row.id < db.nextMessageId

/-- Nothing is stored. -/
theorem keyed_empty : Keyed empty where
  ids := List.nodup_nil
  names := List.nodup_nil
  messageIds := List.nodup_nil
  indices := List.nodup_nil
  owners := fun _ h => by cases h
  fresh := fun _ h => by cases h
  freshMessages := fun _ h => by cases h

variable {db : Database} {username threadId : Text} {thread : ThreadRow}

/-- A database with keys has names for its threads. -/
theorem Keyed.named (h : Keyed db) : Named db where
  ids := h.ids
  names := h.names
  fresh := h.fresh
  owned := fun row hrow => by
    obtain ⟨thread, hthread, hid⟩ := List.mem_map.mp (h.owners row hrow)
    rw [← hid]
    exact h.fresh thread hthread

/-- A thread that is not there gets a new key. -/
theorem Keyed.insertThread (h : Keyed db) (hu : username ≠ []) (ht : threadId ≠ [])
    (hfind : db.findThread username threadId = none) :
    Keyed (db.insertThread username threadId).1 := by
  have hnamed := named_insertThread h.named hu ht hfind
  refine ⟨⟨hnamed.ids, hnamed.names, h.messageIds, h.indices, fun row hrow => ?_⟩, hnamed.fresh,
    h.freshMessages⟩
  show row.threadPk ∈ (db.threads ++ [_]).map ThreadRow.id
  rw [List.map_append]
  exact List.mem_append_left _ (h.owners row hrow)

/-- The thread is there, or it is inserted. -/
theorem Keyed.ensureThread (h : Keyed db) (hu : username ≠ []) (ht : threadId ≠ []) :
    Keyed (db.ensureThread username threadId).1 := by
  rw [Database.ensureThread]
  cases hfind : db.findThread username threadId with
  | some thread => exact h
  | none => exact h.insertThread hu ht hfind

/-- A message with the next id, of a thread that is there, at an index that is not taken. -/
theorem Keyed.insertMessage (h : Keyed db) (hthread : thread ∈ db.threads) {message : MessageRow}
    (hpk : message.threadPk = thread.id) (hid : message.id = db.nextMessageId)
    (hindex : ∀ row ∈ db.rowsOf thread.id, row.messageIndex ≠ message.messageIndex) :
    Keyed (db.insertMessage message) := by
  refine ⟨⟨h.ids, h.names, ?_, ?_, fun row hrow => ?_⟩, h.fresh, fun row hrow => ?_⟩
  · show ((db.messages ++ [message]).map MessageRow.id).Nodup
    rw [List.map_append, List.nodup_append]
    refine ⟨h.messageIds, List.nodup_singleton _, ?_⟩
    rintro a ha b hb rfl
    obtain ⟨row, hrow, rfl⟩ := List.mem_map.mp ha
    have hlt := h.freshMessages row hrow
    rw [List.mem_singleton.mp hb, hid] at hlt
    exact Nat.lt_irrefl _ hlt
  · show ((db.messages ++ [message]).map fun row => (row.threadPk, row.messageIndex)).Nodup
    rw [List.map_append, List.nodup_append]
    refine ⟨h.indices, List.nodup_singleton _, ?_⟩
    rintro a ha b hb rfl
    obtain ⟨row, hrow, hkey⟩ := List.mem_map.mp ha
    rw [List.mem_singleton.mp hb] at hkey
    obtain ⟨hrowPk, hrowIndex⟩ := Prod.mk.inj hkey
    refine hindex row (List.mem_filter.mpr ⟨hrow, decide_eq_true ?_⟩) hrowIndex
    rw [hrowPk, hpk]
  · rcases List.mem_append.mp hrow with hrow | hrow
    · exact h.owners row hrow
    · rw [List.mem_singleton.mp hrow, hpk]
      exact List.mem_map_of_mem hthread
  · rcases List.mem_append.mp hrow with hrow | hrow
    · exact Nat.lt_succ_of_lt (h.freshMessages row hrow)
    · rw [List.mem_singleton.mp hrow, hid]
      exact Nat.lt_succ_self _

/-- Keys that are left over do no harm. -/
theorem Keyed.withoutMessages (h : Keyed db) (threadPk : ℕ) :
    Keyed (db.withoutMessages threadPk) where
  ids := h.ids
  names := h.names
  messageIds := h.messageIds.sublist (List.filter_sublist.map _)
  indices := h.indices.sublist (List.filter_sublist.map _)
  owners := fun row hrow => h.owners row (List.mem_of_mem_filter hrow)
  fresh := h.fresh
  freshMessages := fun row hrow => h.freshMessages row (List.mem_of_mem_filter hrow)

/-- The messages of a thread go with it. -/
theorem Keyed.withoutThread (h : Keyed db) (threadPk : ℕ) : Keyed (db.withoutThread threadPk) := by
  have hwithout := h.withoutMessages threadPk
  refine ⟨⟨h.ids.sublist (List.filter_sublist.map _), h.names.sublist (List.filter_sublist.map _),
    hwithout.messageIds, hwithout.indices, fun row hrow => ?_⟩,
    fun row hrow => h.fresh row (List.mem_of_mem_filter hrow), hwithout.freshMessages⟩
  obtain ⟨thread, hthread, hid⟩ := List.mem_map.mp (hwithout.owners row hrow)
  -- The message was kept, so it is not one of the thread that goes.
  have hne := of_decide_eq_true (List.mem_filter.mp hrow).2
  exact List.mem_map.mpr ⟨thread, List.mem_filter.mpr ⟨hthread, decide_eq_true (by rwa [hid])⟩, hid⟩

/-- The rows of a snapshot have consecutive keys. -/
theorem mem_snapshotRows {firstId threadPk : ℕ} {snapshot : List Message} {row : MessageRow}
    (h : row ∈ snapshotRows firstId threadPk snapshot) :
    row.threadPk = threadPk ∧ firstId ≤ row.id ∧ row.id < firstId + snapshot.length := by
  obtain ⟨⟨item, i⟩, hitem, rfl⟩ := List.mem_map.mp h
  have hlt : i < snapshot.length := by
    have hi := List.snd_lt_of_mem_zipIdx hitem
    omega
  exact ⟨rfl, Nat.le_add_right _ _, Nat.add_lt_add_left hlt _⟩

/-- The rows of a snapshot are numbered from zero on. -/
theorem map_messageIndex_snapshotRows (firstId threadPk : ℕ) (snapshot : List Message) :
    (snapshotRows firstId threadPk snapshot).map MessageRow.messageIndex =
      List.range snapshot.length := by
  rw [snapshotRows, List.map_map]
  exact (List.map_congr_left fun _ _ => rfl).trans
    ((List.zipIdx_map_snd 0 snapshot).trans List.range_eq_range'.symm)

/-- The keys of a snapshot grow. -/
theorem pairwise_id_snapshotRows (firstId threadPk : ℕ) (snapshot : List Message) :
    (snapshotRows firstId threadPk snapshot).Pairwise fun a b => a.id < b.id := by
  rw [snapshotRows, List.pairwise_map, List.pairwise_iff_getElem]
  intro i j hi hj hij
  simpa using hij

/-- The new rows come after all keys. -/
theorem Keyed.replaceMessages (h : Keyed db) (hthread : thread ∈ db.threads)
    (snapshot : List Message) : Keyed (db.replaceMessages thread.id snapshot) := by
  have hwithout := h.withoutMessages thread.id
  refine ⟨⟨h.ids, h.names, ?_, ?_, fun row hrow => ?_⟩, h.fresh, fun row hrow => ?_⟩
  · show (((db.withoutMessages thread.id).messages ++ snapshotRows _ _ _).map MessageRow.id).Nodup
    rw [List.map_append, List.nodup_append]
    refine ⟨hwithout.messageIds, ?_, ?_⟩
    · exact List.pairwise_map.mpr ((pairwise_id_snapshotRows _ _ _).imp fun hlt => hlt.ne)
    · rintro a ha b hb rfl
      obtain ⟨row, hrow, rfl⟩ := List.mem_map.mp ha
      obtain ⟨row', hrow', hid⟩ := List.mem_map.mp hb
      have hlt := hwithout.freshMessages row hrow
      have hle := (mem_snapshotRows hrow').2.1
      rw [hid] at hle
      exact Nat.lt_irrefl _ (hlt.trans_le hle)
  · show (((db.withoutMessages thread.id).messages ++ snapshotRows _ _ _).map
      fun row => (row.threadPk, row.messageIndex)).Nodup
    rw [List.map_append, List.nodup_append]
    refine ⟨hwithout.indices, ?_, ?_⟩
    · exact List.pairwise_map.mpr ((pairwise_snapshotRows _ _ _).imp fun hlt heq =>
        hlt.ne (Prod.mk.inj heq).2)
    · rintro a ha b hb rfl
      obtain ⟨row, hrow, rfl⟩ := List.mem_map.mp ha
      obtain ⟨row', hrow', hkey⟩ := List.mem_map.mp hb
      refine of_decide_eq_true (List.mem_filter.mp hrow).2 ?_
      rw [← (Prod.mk.inj hkey).1]
      exact (mem_snapshotRows hrow').1
  · rcases List.mem_append.mp hrow with hrow | hrow
    · exact hwithout.owners row hrow
    · rw [(mem_snapshotRows hrow).1]
      exact List.mem_map_of_mem hthread
  · rcases List.mem_append.mp hrow with hrow | hrow
    · exact Nat.lt_add_right _ (hwithout.freshMessages row hrow)
    · exact (mem_snapshotRows hrow).2.2

end Database

/-! ### What the programs do -/

namespace ConversationStore

open Database

variable {α : Type} {db : Database} {u t : Text}

/-- **A call meets its purpose**: it raises what its arguments call for and touches nothing, or it
returns as it should. -/
def Meets {γ : Type} (db : Database) (purpose : Except CallError γ)
    (outcome : Except CallError α × Database) (Good : γ → Database → Prop) : Prop :=
  match purpose with
  | .error e => outcome = (.error e, db)
  | .ok c => ∃ a db', outcome = (.ok a, db') ∧ Good c db'

/-- A check before the session. -/
theorem Meets.check {β γ : Type} {x : Except CallError β} {f : β → CallM α}
    {g : β → Except CallError γ} {Good : γ → Database → Prop}
    (h : ∀ b, x = .ok b → Meets db (g b) (f b db) Good) :
    Meets db (x >>= g) (((liftM x : CallM β) >>= f) db) Good := by
  rcases x with e | b
  · rfl
  · exact h b rfl

/-- What a call returns may be wrapped. -/
theorem Meets.map {β γ : Type} {purpose : Except CallError γ} {x : CallM α}
    {Good : γ → Database → Prop} (f : α → β) (h : Meets db purpose (x db) Good) :
    Meets db purpose ((f <$> x) db) Good := by
  have hrun : (f <$> x) db = ((x db).1.map f, (x db).2) := by
    show (f <$> x).run db = _
    rw [ExceptT.run_map]
    rfl
  rcases purpose with e | c
  · rw [Meets] at h ⊢
    rw [hrun, h]
    rfl
  · obtain ⟨a, db', heq, hgood⟩ := h
    refine ⟨f a, db', ?_, hgood⟩
    rw [hrun, heq]
    rfl

/-- Looking for a thread changes nothing. -/
theorem does_findThread (u t : Text) (s : Session Database) :
    Session.Does (findThread u t) s (s.working.findThread u t) s :=
  (Session.does_read s).bind (Session.does_pure _ _)

/-- Reading messages changes nothing. -/
theorem does_loadThreadMessages (threadPk : ℕ) (s : Session Database) :
    Session.Does (loadThreadMessages threadPk) s
      ((s.working.rowsOf threadPk).insertionSort ReadBefore) s :=
  (Session.does_read s).bind (Session.does_pure _ _)

/-- The thread is found, or added to the session. -/
theorem does_findOrAddThread (h : Keyed db) (hu : u ≠ []) (ht : t ≠ []) :
    Session.Does (findOrAddThread u t) (Session.opened db) (db.ensureThread u t).2
      ⟨db, (db.ensureThread u t).1⟩ := by
  refine (does_findThread u t _).bind ?_
  have hkeyed := h.ensureThread hu ht
  rw [Database.ensureThread] at hkeyed ⊢
  show Session.Does (match db.findThread u t with | some thread => _ | none => _) _ _ _
  cases hfind : db.findThread u t with
  | some thread => exact Session.does_pure _ _
  | none =>
    rw [hfind] at hkeyed
    exact (Session.does_write _ _).bind ((Session.does_flush hkeyed.toDeclared).bind
      (Session.does_pure _ _))

/-- The rows of a thread are replaced in the session. -/
theorem does_replaceMessages {committed : Database} (h : Keyed db) (thread : ThreadRow)
    (snapshot : List Message) :
    Session.Does (replaceMessages thread snapshot) ⟨committed, db⟩ ()
      ⟨committed, db.replaceMessages thread.id snapshot⟩ :=
  (Session.does_write _ _).bind ((Session.does_flush (h.withoutMessages thread.id).toDeclared).bind
    (Session.does_write _ _))

/-- The row `append_message` adds. -/
def appended (db : Database) (thread : ThreadRow) (role content : Text) : MessageRow :=
  ⟨db.nextMessageId, thread.id, nextIndex (db.rowsOf thread.id), role, content⟩

/-- A message that is appended gets a new key and the next number. -/
theorem keyed_insertMessage_appended (h : Keyed db) {thread : ThreadRow}
    (hthread : thread ∈ db.threads) (role content : Text) :
    Keyed (db.insertMessage (appended db thread role content)) :=
  h.insertMessage hthread rfl rfl fun _ hrow => (lt_nextIndex hrow).ne

section Names

variable {nu nt : Text}

/-- The thread is in the database then. -/
theorem mem_ensureThread (h : Keyed db) (hnu : nu ≠ []) (hnt : nt ≠ []) :
    (db.ensureThread nu nt).2 ∈ (db.ensureThread nu nt).1.threads :=
  (mem_of_findThread (ensured_ensureThread h.named hnu hnt).found).1

/-- The rows of a thread that was given a snapshot, as they are read then. -/
theorem sorted_replaceMessages (db : Database) (thread : ThreadRow) (snapshot : List Message) :
    ((db.replaceMessages thread.id snapshot).rowsOf thread.id).insertionSort ReadBefore =
      snapshotRows db.nextMessageId thread.id snapshot := by
  rw [rowsOf_replaceMessages, if_pos rfl, insertionSort_readBefore (pairwise_snapshotRows _ _ _)]

/-- **A snapshot matches the rows** that hold its messages in this order. -/
theorem snapshotMatchesRows_iff (snapshot : List Message) (rows : List MessageRow) :
    snapshotMatchesRows snapshot rows = true ↔ rows.map MessageRow.message = snapshot := by
  induction snapshot generalizing rows with
  | nil =>
    cases rows with
    | nil => simp [snapshotMatchesRows]
    | cons row rows => simp [snapshotMatchesRows]
  | cons m snapshot ih =>
    cases rows with
    | nil => simp [snapshotMatchesRows]
    | cons row rows =>
      have hcons : snapshotMatchesRows (m :: snapshot) (row :: rows) = true ↔
          (m.role = row.role ∧ m.content = row.content) ∧
            snapshotMatchesRows snapshot rows = true := by
        rw [snapshotMatchesRows, snapshotMatchesRows]
        by_cases hlength : snapshot.length = rows.length
        · simp [hlength]
        · simp [hlength]
      rw [hcons, ih, List.map_cons, List.cons.injEq, MessageRow.message]
      refine and_congr_left fun _ => ?_
      constructor
      · rintro ⟨hrole, hcontent⟩
        rw [← hrole, ← hcontent]
      · rintro rfl
        exact ⟨rfl, rfl⟩

/-- **An import commits only what is new**: a thread that holds the snapshot is left alone, and is
not even created for a snapshot without messages. -/
theorem run_importSnapshot (h : Keyed db) (hnu : nu ≠ []) (hnt : nt ≠ [])
    (snapshot : List Message) :
    Session.within (importSnapshot nu nt snapshot) db =
      if ((db.rowsAt nu nt).insertionSort ReadBefore).map MessageRow.message = snapshot then
        (.ok ((db.rowsAt nu nt).insertionSort ReadBefore), db)
      else
        let (db', thread) := db.ensureThread nu nt
        (.ok (snapshotRows db'.nextMessageId thread.id snapshot),
          db'.replaceMessages thread.id snapshot) := by
  have hensured := h.ensureThread hnu hnt
  have hkeyed := hensured.replaceMessages (mem_ensureThread h hnu hnt) snapshot
  obtain ⟨-, hfound, hrows⟩ := ensured_ensureThread h.named hnu hnt
  have hexisting : (db.ensureThread nu nt).1.rowsOf (db.ensureThread nu nt).2.id =
      db.rowsAt nu nt := by
    rw [← hrows nu nt, rowsAt, hfound]
  have hload := does_loadThreadMessages (db.ensureThread nu nt).2.id
    ⟨db, (db.ensureThread nu nt).1⟩
  dsimp only at hload
  rw [hexisting] at hload
  by_cases hmatch : ((db.rowsAt nu nt).insertionSort ReadBefore).map MessageRow.message = snapshot
  · rw [if_pos hmatch]
    -- The session is left without a commit.
    refine Session.run_within (?_ : Session.Does _ _ _ ⟨db, (db.ensureThread nu nt).1⟩) rfl
    refine (does_findOrAddThread h hnu hnt).bind (hload.bind ?_)
    rw [if_pos ((snapshotMatchesRows_iff _ _).mpr hmatch)]
    exact Session.does_pure _ _
  · rw [if_neg hmatch]
    show _ = (Except.ok (snapshotRows (db.ensureThread nu nt).1.nextMessageId
      (db.ensureThread nu nt).2.id snapshot), _)
    rw [← sorted_replaceMessages]
    refine Session.run_committed ((does_findOrAddThread h hnu hnt).bind (hload.bind ?_))
    rw [if_neg fun heq => hmatch ((snapshotMatchesRows_iff _ _).mp heq)]
    exact (does_replaceMessages hensured _ snapshot).bind
      ((Session.does_commit hkeyed.toDeclared).bind (does_loadThreadMessages _ _))

end Names

end ConversationStore

/-! ### Tidy tables -/

namespace Database

/-- **Tidy tables**: the messages of every thread are numbered from 0 on in the order in which they
were added. -/
structure Tidy (db : Database) : Prop extends Keyed db where
  contiguous : ∀ pk,
    (db.rowsOf pk).map MessageRow.messageIndex = List.range (db.rowsOf pk).length
  ordered : db.messages.Pairwise fun a b => a.id < b.id

variable {db : Database} {username threadId : Text} {thread : ThreadRow}

/-- Nothing is stored. -/
theorem tidy_empty : Tidy empty where
  toKeyed := keyed_empty
  contiguous := fun _ => rfl
  ordered := List.Pairwise.nil

/-- A new thread has no messages. -/
theorem Tidy.ensureThread (h : Tidy db) (hu : username ≠ []) (ht : threadId ≠ []) :
    Tidy (db.ensureThread username threadId).1 := by
  have hmessages : (db.ensureThread username threadId).1.messages = db.messages := by
    rw [Database.ensureThread]
    cases db.findThread username threadId with
    | some thread => rfl
    | none => rfl
  refine ⟨h.toKeyed.ensureThread hu ht, fun pk => ?_, hmessages ▸ h.ordered⟩
  rw [rowsOf, hmessages]
  exact h.contiguous pk

/-- After the last of the indices comes their number. -/
theorem nextIndex_of_contiguous {rows : List MessageRow}
    (h : rows.map MessageRow.messageIndex = List.range rows.length) :
    nextIndex rows = rows.length := by
  rw [nextIndex, h]
  rcases hlength : rows.length with _ | n
  · rfl
  · have hmax : (List.range (n + 1)).max? = some n := by
      rw [List.max?_eq_some_iff]
      refine ⟨List.mem_range.mpr (Nat.lt_succ_self n), fun i hi => ?_⟩
      exact Nat.le_of_lt_succ (List.mem_range.mp hi)
    rw [hmax]

/-- The new message is the last one, by its key and by its number. -/
theorem Tidy.insertMessage (h : Tidy db) (hthread : thread ∈ db.threads) (role content : Text) :
    Tidy (db.insertMessage (ConversationStore.appended db thread role content)) := by
  refine ⟨ConversationStore.keyed_insertMessage_appended h.toKeyed hthread role content,
    fun pk => ?_, ?_⟩
  · rw [rowsOf_insertMessage]
    by_cases hpk : pk = (ConversationStore.appended db thread role content).threadPk
    · rw [if_pos hpk, List.map_append, List.length_append, h.contiguous pk, List.length_singleton,
        List.range_succ, List.map_singleton, hpk]
      refine congrArg _ (congrArg (fun i => [i]) ?_)
      exact nextIndex_of_contiguous (h.contiguous thread.id)
    · rw [if_neg hpk]
      exact h.contiguous pk
  · show (db.messages ++ [_]).Pairwise _
    rw [List.pairwise_append]
    refine ⟨h.ordered, List.pairwise_singleton _ _, fun a ha b hb => ?_⟩
    rw [List.mem_singleton.mp hb]
    exact h.freshMessages a ha

/-- A thread without messages is tidy. -/
theorem Tidy.withoutMessages (h : Tidy db) (threadPk : ℕ) : Tidy (db.withoutMessages threadPk) := by
  refine ⟨h.toKeyed.withoutMessages threadPk, fun pk => ?_, h.ordered.filter _⟩
  rw [rowsOf_withoutMessages]
  by_cases hpk : pk = threadPk
  · rw [if_pos hpk]
    rfl
  · rw [if_neg hpk]
    exact h.contiguous pk

/-- As tidy as without its messages. -/
theorem Tidy.withoutThread (h : Tidy db) (threadPk : ℕ) : Tidy (db.withoutThread threadPk) :=
  ⟨h.toKeyed.withoutThread threadPk, (h.withoutMessages threadPk).contiguous,
    (h.withoutMessages threadPk).ordered⟩

/-- A snapshot is tidy by itself. -/
theorem Tidy.replaceMessages (h : Tidy db) (hthread : thread ∈ db.threads)
    (snapshot : List Message) : Tidy (db.replaceMessages thread.id snapshot) := by
  refine ⟨h.toKeyed.replaceMessages hthread snapshot, fun pk => ?_, ?_⟩
  · rw [rowsOf_replaceMessages]
    by_cases hpk : pk = thread.id
    · rw [if_pos hpk, map_messageIndex_snapshotRows, snapshotRows, List.length_map,
        List.length_zipIdx]
    · rw [if_neg hpk]
      exact h.contiguous pk
  · show ((db.withoutMessages thread.id).messages ++ snapshotRows _ _ _).Pairwise _
    rw [List.pairwise_append]
    refine ⟨(h.withoutMessages thread.id).ordered, pairwise_id_snapshotRows _ _ _,
      fun a ha b hb => ?_⟩
    have hlt := (h.toKeyed.withoutMessages thread.id).freshMessages a ha
    exact hlt.trans_le (mem_snapshotRows hb).2.1

/-- What is read of a thread of tidy tables is what stands there. -/
theorem Tidy.getMessages_eq (h : Tidy db) (u t : Text) :
    db.getMessages u t = db.rowsAt (strip u) (strip t) := by
  have hcontiguous : ((db.rowsAt (strip u) (strip t)).map MessageRow.messageIndex).Pairwise
      (· < ·) := by
    rw [rowsAt]
    cases db.findThread (strip u) (strip t) with
    | none => exact List.Pairwise.nil
    | some thread =>
      dsimp only
      rw [h.contiguous]
      exact List.pairwise_lt_range
  rw [Database.getMessages_eq, insertionSort_readBefore (List.pairwise_map.mp hcontiguous)]

end Database

/-! ### One call -/

/-- A call of the store that changes it. -/
inductive Call where
  | createOrGetThread (username threadId : Text)
  | appendMessage (username threadId role content : Text)
  | deleteThreadMessages (username threadId : Text)
  | deleteThread (username threadId : Text)
  | importThreadSnapshot (username threadId : Text) (messages : List SnapshotItem)
  | replaceThreadSnapshot (username threadId : Text) (messages : List SnapshotItem)

/-- What a call returns. -/
inductive Answer where
  | thread (row : ThreadRow)
  | message (row : MessageRow)
  | messages (rows : List MessageRow)
  | count (n : ℕ)

namespace Call

/-- The call is made. -/
def run : Call → ConversationStore.CallM Answer
  | .createOrGetThread u t => .thread <$> ConversationStore.createOrGetThread u t
  | .appendMessage u t role content =>
    .message <$> ConversationStore.appendMessage u t role content
  | .deleteThreadMessages u t => .count <$> ConversationStore.deleteThreadMessages u t
  | .deleteThread u t => .count <$> ConversationStore.deleteThread u t
  | .importThreadSnapshot u t items =>
    .messages <$> ConversationStore.importThreadSnapshot u t items
  | .replaceThreadSnapshot u t items =>
    .messages <$> ConversationStore.replaceThreadSnapshot u t items

/-- The user the call names. -/
def username : Call → Text
  | .createOrGetThread u _ | .appendMessage u _ _ _ | .deleteThreadMessages u _
  | .deleteThread u _ | .importThreadSnapshot u _ _ | .replaceThreadSnapshot u _ _ => strip u

/-- The thread the call names. -/
def threadId : Call → Text
  | .createOrGetThread _ t | .appendMessage _ t _ _ | .deleteThreadMessages _ t
  | .deleteThread _ t | .importThreadSnapshot _ t _ | .replaceThreadSnapshot _ t _ => strip t

open ConversationStore in
/-- **What a call is for**: why its arguments are rejected, or what it makes of the messages of its
thread. -/
def change : Call → Except CallError (List Message → List Message)
  | .createOrGetThread u t => do
    let _ ← requireNonEmpty u "username".toList
    let _ ← requireNonEmpty t "thread_id".toList
    return fun messages => messages
  | .appendMessage u t role content => do
    let _ ← requireNonEmpty u "username".toList
    let _ ← requireNonEmpty t "thread_id".toList
    let _ ← requireNonEmpty role "role".toList
    if content = [] then .error (.valueError "content".toList)
    else return fun messages => messages ++ [⟨strip role, content⟩]
  | .deleteThreadMessages _ _ => return fun _ => []
  | .deleteThread u t => do
    let _ ← requireNonEmpty u "username".toList
    let _ ← requireNonEmpty t "thread_id".toList
    return fun _ => []
  | .importThreadSnapshot u t items | .replaceThreadSnapshot u t items => do
    let _ ← requireNonEmpty u "username".toList
    let _ ← requireNonEmpty t "thread_id".toList
    let snapshot ← normalizeSnapshotMessages items
    return fun _ => snapshot

end Call

/-- What a call leaves: tidy tables, in which one thread was changed. -/
structure Changed (db db' : Database) (u t : Text) (change : List Message → List Message) :
    Prop where
  tidy : db'.Tidy
  thread : (db'.rowsAt u t).map MessageRow.message = change ((db.rowsAt u t).map MessageRow.message)
  others : ∀ u' t', ¬ (u' = u ∧ t' = t) → db'.rowsAt u' t' = db.rowsAt u' t'

section Calls

open ConversationStore Database

variable {db : Database} {u t nu nt : Text}

/-- A value that is accepted is stripped and not empty. -/
theorem eq_of_requireNonEmpty {value field normalized : Text}
    (h : ConversationStore.requireNonEmpty value field = .ok normalized) :
    normalized = strip value ∧ strip value ≠ [] := by
  rw [ConversationStore.requireNonEmpty] at h
  by_cases hblank : strip value = []
  · rw [if_pos hblank] at h
    cases h
  · rw [if_neg hblank] at h
    exact ⟨(Except.ok.inj h).symm, hblank⟩

/-- The changes of one thread among the rows of all. -/
theorem Changed.of_rowsAt {db' : Database} (rows : List MessageRow)
    {change : List Message → List Message} (htidy : db'.Tidy)
    (hrows : ∀ u' t', db'.rowsAt u' t' = if u' = u ∧ t' = t then rows else db.rowsAt u' t')
    (hchange : rows.map MessageRow.message = change ((db.rowsAt u t).map MessageRow.message)) :
    Changed db db' u t change where
  tidy := htidy
  thread := by rw [hrows, if_pos ⟨rfl, rfl⟩, hchange]
  others := fun u' t' hne => by rw [hrows, if_neg hne]

/-- A thread that is made sure of keeps its messages. -/
theorem changed_ensureThread (h : db.Tidy) (hu : u ≠ []) (ht : t ≠ []) :
    Changed db (db.ensureThread u t).1 u t fun messages => messages where
  tidy := h.ensureThread hu ht
  thread := by rw [(ensured_ensureThread h.toKeyed.named hu ht).rows]
  others := fun u' t' _ => (ensured_ensureThread h.toKeyed.named hu ht).rows u' t'

/-- The messages get one more. -/
theorem changed_insertMessage (h : db.Tidy) (hu : u ≠ []) (ht : t ≠ []) (role content : Text) :
    Changed db ((db.ensureThread u t).1.insertMessage
      (appended (db.ensureThread u t).1 (db.ensureThread u t).2 role content)) u t
        fun messages => messages ++ [⟨role, content⟩] := by
  obtain ⟨hnamed, hfound, hrows⟩ := ensured_ensureThread h.toKeyed.named hu ht
  refine Changed.of_rowsAt
    (db.rowsAt u t ++ [appended (db.ensureThread u t).1 (db.ensureThread u t).2 role content])
    ((h.ensureThread hu ht).insertMessage (mem_of_findThread hfound).1 role content)
    (fun u' t' => ?_) ?_
  · rw [rowsAt_insertMessage hnamed hfound rfl, hrows, hrows]
  · rw [List.map_append]
    rfl

/-- The messages are those of the snapshot. -/
theorem changed_replaceMessages (h : db.Tidy) (hu : u ≠ []) (ht : t ≠ [])
    (snapshot : List Message) :
    Changed db ((db.ensureThread u t).1.replaceMessages (db.ensureThread u t).2.id snapshot) u t
      fun _ => snapshot := by
  obtain ⟨hnamed, hfound, hrows⟩ := ensured_ensureThread h.toKeyed.named hu ht
  refine Changed.of_rowsAt
    (snapshotRows (db.ensureThread u t).1.nextMessageId (db.ensureThread u t).2.id snapshot)
    ((h.ensureThread hu ht).replaceMessages (mem_of_findThread hfound).1 snapshot)
    (fun u' t' => ?_) (map_snapshotRows _ _ snapshot)
  rw [rowsAt_replaceMessages hnamed hfound, hrows]

/-- Nothing is left of a thread that is deleted or emptied. -/
theorem changed_of_none (h : db.Tidy) (hfind : db.findThread u t = none) :
    Changed db db u t fun _ => [] :=
  Changed.of_rowsAt [] h (rowsAt_of_findThread_eq_none hfind) rfl

/-- The rows of a thread go, or the thread with them. -/
theorem changed_withoutMessages (h : db.Tidy) {thread : ThreadRow}
    (hfind : db.findThread u t = some thread) :
    Changed db (db.withoutMessages thread.id) u t fun _ => [] :=
  Changed.of_rowsAt [] (h.withoutMessages thread.id) (rowsAt_withoutMessages h.toKeyed.named hfind)
    rfl

/-- A thread that is gone has no messages. -/
theorem changed_withoutThread (h : db.Tidy) {thread : ThreadRow}
    (hfind : db.findThread u t = some thread) :
    Changed db (db.withoutThread thread.id) u t fun _ => [] :=
  Changed.of_rowsAt [] (h.withoutThread thread.id) (rowsAt_withoutThread h.toKeyed.named hfind) rfl

/-- The thread is made sure of. -/
theorem meets_createOrGetThread (h : db.Tidy) (u t : Text) :
    Meets db (Call.createOrGetThread u t).change (createOrGetThread u t db)
      fun change db' => Changed db db' (strip u) (strip t) change := by
  refine Meets.check fun nu hu => Meets.check fun nt ht => ?_
  obtain ⟨rfl, hnu⟩ := eq_of_requireNonEmpty hu
  obtain ⟨rfl, hnt⟩ := eq_of_requireNonEmpty ht
  refine ⟨(db.ensureThread (strip u) (strip t)).2, _,
    Session.run_committed ((does_findThread _ _ _).bind ?_), changed_ensureThread h hnu hnt⟩
  have hkeyed := h.toKeyed.ensureThread hnu hnt
  show Session.Does (match db.findThread (strip u) (strip t) with | some _ => _ | none => _) _ _ _
  rw [Database.ensureThread] at hkeyed ⊢
  cases hfind : db.findThread (strip u) (strip t) with
  | some thread => exact Session.does_pure _ _
  | none =>
    rw [hfind] at hkeyed
    exact (Session.does_write _ _).bind (Session.Does.tryCatch
      ((Session.does_commit hkeyed.toDeclared).bind (Session.does_pure _ _)))

/-- A message is appended to a thread that is made sure of. -/
theorem meets_appendMessage (h : db.Tidy) (u t role content : Text) :
    Meets db (Call.appendMessage u t role content).change
      (ConversationStore.appendMessage u t role content db)
      fun change db' => Changed db db' (strip u) (strip t) change := by
  refine Meets.check fun nu hu => Meets.check fun nt ht => Meets.check fun nrole hrole => ?_
  obtain ⟨rfl, hnu⟩ := eq_of_requireNonEmpty hu
  obtain ⟨rfl, hnt⟩ := eq_of_requireNonEmpty ht
  obtain ⟨rfl, -⟩ := eq_of_requireNonEmpty hrole
  by_cases hcontent : content = []
  · rw [if_pos hcontent, if_pos hcontent]
    rfl
  rw [if_neg hcontent, if_neg hcontent]
  have hkeyed := keyed_insertMessage_appended (h.toKeyed.ensureThread hnu hnt)
    (mem_ensureThread h.toKeyed hnu hnt) (strip role) content
  refine ⟨appended (db.ensureThread (strip u) (strip t)).1 (db.ensureThread (strip u) (strip t)).2
      (strip role) content, _,
    Session.run_committed ((does_findOrAddThread h.toKeyed hnu hnt).bind ?_),
    changed_insertMessage h hnu hnt (strip role) content⟩
  refine (Session.does_read _).bind ?_
  exact (Session.does_write _ _).bind ((Session.does_commit hkeyed.toDeclared).bind
    (Session.does_pure _ _))

/-- A thread that is not there has no messages to delete. -/
theorem meets_deleteThreadMessages (h : db.Tidy) (u t : Text) :
    Meets db (Call.deleteThreadMessages u t).change (deleteThreadMessages u t db)
      fun change db' => Changed db db' (strip u) (strip t) change := by
  rcases hfind : db.findThread (strip u) (strip t) with _ | thread
  · refine ⟨0, db, Session.run_committed ((does_findThread _ _ _).bind ?_),
      changed_of_none h hfind⟩
    show Session.Does (match db.findThread (strip u) (strip t) with | none => _ | some _ => _) _ _ _
    rw [hfind]
    exact Session.does_pure _ _
  · refine ⟨(db.rowsOf thread.id).length, _, Session.run_committed
      ((does_findThread _ _ _).bind ?_), changed_withoutMessages h hfind⟩
    show Session.Does (match db.findThread (strip u) (strip t) with | none => _ | some _ => _) _ _ _
    rw [hfind]
    exact (Session.does_read _).bind ((Session.does_write _ _).bind
      ((Session.does_commit (h.toKeyed.withoutMessages thread.id).toDeclared).bind
        (Session.does_pure _ _)))

/-- A thread that is not there need not be deleted. -/
theorem meets_deleteThread (h : db.Tidy) (u t : Text) :
    Meets db (Call.deleteThread u t).change (deleteThread u t db)
      fun change db' => Changed db db' (strip u) (strip t) change := by
  refine Meets.check fun nu hu => Meets.check fun nt ht => ?_
  obtain ⟨rfl, -⟩ := eq_of_requireNonEmpty hu
  obtain ⟨rfl, -⟩ := eq_of_requireNonEmpty ht
  rcases hfind : db.findThread (strip u) (strip t) with _ | thread
  · refine ⟨0, db, Session.run_committed ((does_findThread _ _ _).bind ?_),
      changed_of_none h hfind⟩
    show Session.Does (match db.findThread (strip u) (strip t) with | none => _ | some _ => _) _ _ _
    rw [hfind]
    exact Session.does_pure _ _
  · refine ⟨1, _, Session.run_committed ((does_findThread _ _ _).bind ?_),
      changed_withoutThread h hfind⟩
    show Session.Does (match db.findThread (strip u) (strip t) with | none => _ | some _ => _) _ _ _
    rw [hfind]
    exact (Session.does_write _ _).bind
      ((Session.does_commit (h.toKeyed.withoutThread thread.id).toDeclared).bind
        (Session.does_pure _ _))

/-- A snapshot that is there already is not stored again. -/
theorem meets_importThreadSnapshot (h : db.Tidy) (u t : Text) (items : List SnapshotItem) :
    Meets db (Call.importThreadSnapshot u t items).change (importThreadSnapshot u t items db)
      fun change db' => Changed db db' (strip u) (strip t) change := by
  refine Meets.check fun nu hu => Meets.check fun nt ht => Meets.check fun snapshot _ => ?_
  obtain ⟨rfl, hnu⟩ := eq_of_requireNonEmpty hu
  obtain ⟨rfl, hnt⟩ := eq_of_requireNonEmpty ht
  rw [run_importSnapshot h.toKeyed hnu hnt]
  by_cases hmatch : ((db.rowsAt (strip u) (strip t)).insertionSort ReadBefore).map
      MessageRow.message = snapshot
  · -- The thread holds the snapshot already, or there is neither.
    rw [if_pos hmatch]
    rw [← Database.getMessages_eq, h.getMessages_eq] at hmatch
    exact ⟨_, _, rfl, h, hmatch, fun _ _ _ => rfl⟩
  · rw [if_neg hmatch]
    exact ⟨_, _, rfl, changed_replaceMessages h hnu hnt snapshot⟩

/-- A snapshot takes the place of what was there. -/
theorem meets_replaceThreadSnapshot (h : db.Tidy) (u t : Text) (items : List SnapshotItem) :
    Meets db (Call.replaceThreadSnapshot u t items).change
      (ConversationStore.replaceThreadSnapshot u t items db)
      fun change db' => Changed db db' (strip u) (strip t) change := by
  refine Meets.check fun nu hu => Meets.check fun nt ht => Meets.check fun snapshot _ => ?_
  obtain ⟨rfl, hnu⟩ := eq_of_requireNonEmpty hu
  obtain ⟨rfl, hnt⟩ := eq_of_requireNonEmpty ht
  have hensured := h.toKeyed.ensureThread hnu hnt
  have hkeyed := hensured.replaceMessages (mem_ensureThread h.toKeyed hnu hnt) snapshot
  refine ⟨(((db.ensureThread (strip u) (strip t)).1.replaceMessages
      (db.ensureThread (strip u) (strip t)).2.id snapshot).rowsOf
        (db.ensureThread (strip u) (strip t)).2.id).insertionSort ReadBefore, _,
    Session.run_committed ((does_findOrAddThread h.toKeyed hnu hnt).bind ?_),
    changed_replaceMessages h hnu hnt snapshot⟩
  exact (does_replaceMessages hensured _ snapshot).bind
    ((Session.does_commit hkeyed.toDeclared).bind (does_loadThreadMessages _ _))

/-- **One call** either is rejected and changes nothing, or returns and changes its thread. -/
theorem meets_run (h : db.Tidy) (call : Call) :
    Meets db call.change (call.run db)
      fun change db' => Changed db db' call.username call.threadId change := by
  cases call with
  | createOrGetThread u t => exact (meets_createOrGetThread h u t).map _
  | appendMessage u t role content => exact (meets_appendMessage h u t role content).map _
  | deleteThreadMessages u t => exact (meets_deleteThreadMessages h u t).map _
  | deleteThread u t => exact (meets_deleteThread h u t).map _
  | importThreadSnapshot u t items => exact (meets_importThreadSnapshot h u t items).map _
  | replaceThreadSnapshot u t items => exact (meets_replaceThreadSnapshot h u t items).map _

end Calls

/-! ### Every sequence of calls -/

/-- The book after a call. -/
def Book.note (book : Book) (call : Call) : Book :=
  match call.change with
  | .ok change =>
    book.set call.username call.threadId (change (book call.username call.threadId))
  | .error _ => book

/-- The tables after the calls, whatever they return. -/
def runCalls (db : Database) (calls : List Call) : Database :=
  calls.foldl (fun db call => (call.run db).2) db

/-- The tables hold the lists of the book. -/
structure Holds (db : Database) (book : Book) : Prop where
  tidy : db.Tidy
  rows : ∀ u t, (db.rowsAt u t).map MessageRow.message = book u t

/-- The empty book. -/
theorem holds_empty : Holds .empty fun _ _ => [] where
  tidy := Database.tidy_empty
  rows := fun u t => by
    have hnone : Database.empty.findThread u t = none := by
      rw [Database.findThread]
      exact ite_self none
    rw [Database.rowsAt, hnone]
    rfl

/-- **One call keeps the tables at the book.** -/
theorem Holds.run {db : Database} {book : Book} (h : Holds db book) (call : Call) :
    Holds (call.run db).2 (book.note call) := by
  have hmeets := meets_run h.tidy call
  rw [Book.note]
  rcases hchange : call.change with e | change
  · rw [hchange] at hmeets
    have hrun : call.run db = (.error e, db) := hmeets
    rw [hrun]
    exact h
  · rw [hchange] at hmeets
    obtain ⟨answer, db', hrun, hchanged⟩ := hmeets
    rw [hrun]
    refine ⟨hchanged.tidy, fun u t => ?_⟩
    dsimp only
    by_cases hname : u = call.username ∧ t = call.threadId
    · rw [Book.set, if_pos hname, hname.1, hname.2, hchanged.thread, h.rows]
    · rw [Book.set, if_neg hname, hchanged.others u t hname, h.rows]

/-- By induction on the calls. -/
theorem holds_runCalls {db : Database} {book : Book} (h : Holds db book) (calls : List Call) :
    Holds (runCalls db calls) (calls.foldl Book.note book) := by
  induction calls generalizing db book with
  | nil => exact h
  | cons call calls ih => exact ih (h.run call)

/-- An append after a clear starts at 0 again, and a snapshot with a blank message is rejected. -/
example : ((runCalls .empty [
      .appendMessage "anna".toList "t".toList "user".toList "a".toList,
      .deleteThreadMessages "anna".toList "t".toList,
      .appendMessage "anna".toList "t".toList "user".toList " b ".toList,
      .importThreadSnapshot "anna".toList "t".toList [.mapping none (some "c".toList)]]).getMessages
    "anna".toList "t".toList).map (fun row => (row.messageIndex, row.content)) =
      [(0, " b ".toList)] := by
  decide +kernel

end Chat

end AiAgent

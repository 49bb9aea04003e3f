import AiAgent.Budget.History
import Mathlib.Data.List.Sort

/-!
# The conversation database

The second home of the conversations are two tables: the threads, each with the name of its user,
and the messages, each with the thread it belongs to and its index there. The messages of a thread
are read in the order of their indices.

What is proved is that the operations keep the tables sound (`AiAgent.Chat.Database.Sound`: a thread
is found by its name, its messages by its id, and their indices grow), and what each of them makes
of the messages of a thread (`AiAgent.Chat.Database.messagesOf`).
-/

namespace AiAgent

namespace Chat

open Text Budget

/-! ### The tables and the operations -/

/-- A row of `conversation_threads`. -/
structure ThreadRow where
  id : ℕ
  username : Text
  threadId : Text

/-- A row of `conversation_messages`. -/
structure MessageRow where
  id : ℕ
  threadPk : ℕ
  messageIndex : ℕ
  role : Text
  content : Text

/-- The row as a message. -/
def MessageRow.message (row : MessageRow) : Message := ⟨row.role, row.content⟩

/-- A `ValueError`: the field must not be empty. -/
structure EmptyField where
  field : Text

/-- The tables, and the ids the next rows get. -/
structure Database where
  threads : List ThreadRow
  messages : List MessageRow
  nextThreadId : ℕ
  nextMessageId : ℕ

namespace Database

/-- The empty tables. -/
def empty : Database := ⟨[], [], 1, 1⟩

/-- `_require_non_empty`. -/
def requireNonEmpty (value field : Text) : Except EmptyField Text :=
  let normalized := strip value
  if normalized = [] then .error ⟨field⟩ else .ok normalized

variable (db : Database)

/-- `_find_thread`. -/
def findThread (username threadId : Text) : Option ThreadRow :=
  if username = [] ∨ threadId = [] then none
  else db.threads.find? fun row => row.username = username ∧ row.threadId = threadId

/-- A new row of `conversation_threads`. -/
def insertThread (username threadId : Text) : Database × ThreadRow :=
  ({ db with
      threads := db.threads ++ [⟨db.nextThreadId, username, threadId⟩]
      nextThreadId := db.nextThreadId + 1 },
    ⟨db.nextThreadId, username, threadId⟩)

/-- The thread with that name, which is inserted if there is none. -/
def ensureThread (username threadId : Text) : Database × ThreadRow :=
  match db.findThread username threadId with
  | some row => (db, row)
  | none => db.insertThread username threadId

/-- `create_or_get_thread`. -/
def createOrGetThread (username threadId : Text) : Except EmptyField (ThreadRow × Database) := do
  let normalizedUsername ← requireNonEmpty username "username".toList
  let normalizedThreadId ← requireNonEmpty threadId "thread_id".toList
  let (db', thread) := db.ensureThread normalizedUsername normalizedThreadId
  return (thread, db')

/-- The messages with that thread's id, as they stand in the table. -/
def rowsOf (threadPk : ℕ) : List MessageRow := db.messages.filter fun row => row.threadPk = threadPk

/-- The index after the greatest one. -/
def nextIndex (rows : List MessageRow) : ℕ :=
  match (rows.map MessageRow.messageIndex).max? with
  | none => 0
  | some maxIndex => maxIndex + 1

/-- A new row of `conversation_messages`. -/
def insertMessage (message : MessageRow) : Database :=
  { db with
    messages := db.messages ++ [message]
    nextMessageId := db.nextMessageId + 1 }

/-- `append_message`. -/
def appendMessage (username threadId role content : Text) :
    Except EmptyField (MessageRow × Database) := do
  let normalizedUsername ← requireNonEmpty username "username".toList
  let normalizedThreadId ← requireNonEmpty threadId "thread_id".toList
  let normalizedRole ← requireNonEmpty role "role".toList
  if content = [] then .error ⟨"content".toList⟩
  else
    let (db', thread) := db.ensureThread normalizedUsername normalizedThreadId
    let message : MessageRow :=
      ⟨db'.nextMessageId, thread.id, nextIndex (db'.rowsOf thread.id), normalizedRole, content⟩
    return (message, db'.insertMessage message)

/-- The order in which messages are read. -/
def ReadBefore (a b : MessageRow) : Prop :=
  a.messageIndex < b.messageIndex ∨ (a.messageIndex = b.messageIndex ∧ a.id ≤ b.id)

instance : DecidableRel ReadBefore := fun _ _ => inferInstanceAs (Decidable (_ ∨ _ ∧ _))

/-- `get_messages`. -/
def getMessages (username threadId : Text) : List MessageRow :=
  match db.findThread (strip username) (strip threadId) with
  | none => []
  | some thread => (db.rowsOf thread.id).insertionSort ReadBefore

/-- The tables without the messages of a thread. -/
def withoutMessages (threadPk : ℕ) : Database :=
  { db with messages := db.messages.filter fun row => row.threadPk ≠ threadPk }

/-- `delete_thread_messages`. -/
def deleteThreadMessages (username threadId : Text) : ℕ × Database :=
  match db.findThread (strip username) (strip threadId) with
  | none => (0, db)
  | some thread => ((db.rowsOf thread.id).length, db.withoutMessages thread.id)

/-- `delete_thread`; its messages go with it. -/
def deleteThread (username threadId : Text) : Except EmptyField (ℕ × Database) := do
  let normalizedUsername ← requireNonEmpty username "username".toList
  let normalizedThreadId ← requireNonEmpty threadId "thread_id".toList
  match db.findThread normalizedUsername normalizedThreadId with
  | none => return (0, db)
  | some thread => return (1, { db.withoutMessages thread.id with
      threads := db.threads.filter fun row => row.id ≠ thread.id })

/-- `_normalize_snapshot_messages`. -/
def normalizeSnapshotMessages (messages : List Message) : Except EmptyField (List Message) :=
  messages.mapM fun item => do
    return ⟨← requireNonEmpty item.role "role".toList,
      ← requireNonEmpty item.content "content".toList⟩

/-- The rows of a snapshot, with indices from 0 on. -/
def snapshotRows (firstId threadPk : ℕ) (snapshot : List Message) : List MessageRow :=
  snapshot.zipIdx.map fun item =>
    ⟨firstId + item.2, threadPk, item.2, item.1.role, item.1.content⟩

/-- `_replace_messages`. -/
def replaceMessages (threadPk : ℕ) (snapshot : List Message) : Database :=
  { db with
    messages := (db.withoutMessages threadPk).messages ++
      snapshotRows db.nextMessageId threadPk snapshot
    nextMessageId := db.nextMessageId + snapshot.length }

/-- `replace_thread_snapshot`. -/
def replaceThreadSnapshot (username threadId : Text) (messages : List Message) :
    Except EmptyField (List MessageRow × Database) := do
  let normalizedUsername ← requireNonEmpty username "username".toList
  let normalizedThreadId ← requireNonEmpty threadId "thread_id".toList
  let snapshot ← normalizeSnapshotMessages messages
  let (db', thread) := db.ensureThread normalizedUsername normalizedThreadId
  let replaced := db'.replaceMessages thread.id snapshot
  return ((replaced.rowsOf thread.id).insertionSort ReadBefore, replaced)

/-! ### Sound tables -/

/-- **Sound tables**: ids and names of the threads are different, no message belongs to a thread
that is yet to come, and the indices of a thread's messages grow. -/
structure Sound (db : Database) : Prop where
  ids : (db.threads.map ThreadRow.id).Nodup
  names : (db.threads.map fun row => (row.username, row.threadId)).Nodup
  fresh : ∀ row ∈ db.threads, row.id < db.nextThreadId
  owned : ∀ row ∈ db.messages, row.threadPk < db.nextThreadId
  indexed : ∀ pk, (db.rowsOf pk).Pairwise fun a b => a.messageIndex < b.messageIndex

theorem sound_empty : Sound empty where
  ids := List.nodup_nil
  names := List.nodup_nil
  fresh := fun _ h => by cases h
  owned := fun _ h => by cases h
  indexed := fun _ => List.Pairwise.nil

/-- The messages of the thread with that name, as they stand in the table. -/
def rowsAt (username threadId : Text) : List MessageRow :=
  match db.findThread username threadId with
  | none => []
  | some thread => db.rowsOf thread.id

/-- The messages of the thread with that name. -/
def messagesOf (username threadId : Text) : List Message :=
  match db.findThread username threadId with
  | none => []
  | some thread => (db.rowsOf thread.id).map MessageRow.message

theorem messagesOf_eq (username threadId : Text) :
    db.messagesOf username threadId = (db.rowsAt username threadId).map MessageRow.message := by
  rw [messagesOf, rowsAt]
  cases db.findThread username threadId with
  | none => rfl
  | some thread => rfl

theorem getMessages_eq (username threadId : Text) :
    db.getMessages username threadId =
      (db.rowsAt (strip username) (strip threadId)).insertionSort ReadBefore := by
  rw [getMessages, rowsAt]
  cases db.findThread (strip username) (strip threadId) with
  | none => rfl
  | some thread => rfl

/-- Rows that stand in the order of their indices are read as they stand. -/
theorem insertionSort_readBefore {rows : List MessageRow}
    (h : rows.Pairwise fun a b => a.messageIndex < b.messageIndex) :
    rows.insertionSort ReadBefore = rows :=
  List.Pairwise.insertionSort_eq (h.imp fun hlt => .inl hlt)

variable {db} {username threadId : Text} {thread : ThreadRow}

/-- The rows of a thread of sound tables stand in the order in which they are read. -/
theorem Sound.pairwise_rowsAt (h : Sound db) (username threadId : Text) :
    (db.rowsAt username threadId).Pairwise fun a b => a.messageIndex < b.messageIndex := by
  rw [rowsAt]
  cases db.findThread username threadId with
  | none => exact List.Pairwise.nil
  | some thread => exact h.indexed thread.id

/-- **The messages are read in the order of the table.** -/
theorem map_getMessages (h : Sound db) (username threadId : Text) :
    (db.getMessages username threadId).map MessageRow.message =
      db.messagesOf (strip username) (strip threadId) := by
  rw [getMessages_eq, messagesOf_eq, insertionSort_readBefore (h.pairwise_rowsAt _ _)]

theorem length_getMessages (h : Sound db) (username threadId : Text) :
    (db.getMessages username threadId).length =
      (db.messagesOf (strip username) (strip threadId)).length := by
  rw [← map_getMessages h, List.length_map]

/-! ### Threads and their names -/

/-- What finding a thread by its name, and its messages by its id, rests on. -/
structure Named (db : Database) : Prop where
  ids : (db.threads.map ThreadRow.id).Nodup
  names : (db.threads.map fun row => (row.username, row.threadId)).Nodup
  fresh : ∀ row ∈ db.threads, row.id < db.nextThreadId
  owned : ∀ row ∈ db.messages, row.threadPk < db.nextThreadId

theorem Sound.named (h : Sound db) : Named db := ⟨h.ids, h.names, h.fresh, h.owned⟩

theorem mem_of_findThread (h : db.findThread username threadId = some thread) :
    thread ∈ db.threads ∧ thread.username = username ∧ thread.threadId = threadId := by
  rw [findThread] at h
  by_cases hempty : username = [] ∨ threadId = []
  · rw [if_pos hempty] at h
    cases h
  · rw [if_neg hempty] at h
    exact ⟨List.mem_of_find?_eq_some h, by simpa using List.find?_some h⟩

/-- Threads of different names have different ids. -/
theorem id_ne_of_findThread (hnamed : Named db) {username' threadId' : Text} {thread' : ThreadRow}
    (h : db.findThread username threadId = some thread)
    (h' : db.findThread username' threadId' = some thread')
    (hne : ¬ (username' = username ∧ threadId' = threadId)) : thread'.id ≠ thread.id := by
  obtain ⟨hmem, hname, hid⟩ := mem_of_findThread h
  obtain ⟨hmem', hname', hid'⟩ := mem_of_findThread h'
  intro heq
  obtain rfl := List.inj_on_of_nodup_map hnamed.ids hmem' hmem heq
  exact hne ⟨hname'.symm.trans hname, hid'.symm.trans hid⟩

/-- What is read where only the messages of one thread were changed. -/
theorem rowsAt_of_rows (hnamed : Named db) (db' : Database)
    (hthreads : db'.threads = db.threads) (hfind : db.findThread username threadId = some thread)
    (hrows : ∀ pk, pk ≠ thread.id → db'.rowsOf pk = db.rowsOf pk) (username' threadId' : Text) :
    db'.rowsAt username' threadId' =
      if username' = username ∧ threadId' = threadId then db'.rowsOf thread.id
      else db.rowsAt username' threadId' := by
  have hsame : db'.findThread username' threadId' = db.findThread username' threadId' := by
    rw [findThread, findThread, hthreads]
  rw [rowsAt, hsame]
  by_cases hname : username' = username ∧ threadId' = threadId
  · rw [if_pos hname, hname.1, hname.2, hfind]
  · rw [if_neg hname, rowsAt]
    cases hfind' : db.findThread username' threadId' with
    | none => rfl
    | some thread' =>
      dsimp only
      rw [hrows _ (id_ne_of_findThread hnamed hfind hfind' hname)]

/-- The messages are those of the rows, in one thread and in the others. -/
theorem messagesOf_of_rowsAt {db' : Database} {rows : List MessageRow}
    (h : ∀ u t, db'.rowsAt u t = if u = username ∧ t = threadId then rows else db.rowsAt u t)
    (u t : Text) : db'.messagesOf u t =
      if u = username ∧ t = threadId then rows.map MessageRow.message else db.messagesOf u t := by
  rw [messagesOf_eq, messagesOf_eq, h u t]
  exact apply_ite _ _ _ _

/-! ### A thread with that name -/

/-- What `ensureThread` gives: the same messages, and the thread. -/
structure Ensured (db db' : Database) (username threadId : Text) (thread : ThreadRow) : Prop where
  named : Named db'
  found : db'.findThread username threadId = some thread
  rows : ∀ username' threadId', db'.rowsAt username' threadId' = db.rowsAt username' threadId'

theorem Named.rowsOf_nextThreadId (hnamed : Named db) : db.rowsOf db.nextThreadId = [] := by
  rw [rowsOf, List.filter_eq_nil_iff]
  intro row hrow heq
  have hlt := hnamed.owned row hrow
  rw [of_decide_eq_true heq] at hlt
  exact Nat.lt_irrefl _ hlt

/-- No thread has the name that is not found. -/
theorem notMem_of_findThread (hu : username ≠ []) (ht : threadId ≠ [])
    (hfind : db.findThread username threadId = none) :
    ∀ row ∈ db.threads, ¬ (row.username = username ∧ row.threadId = threadId) := by
  rw [findThread, if_neg (by simp [hu, ht])] at hfind
  simpa using hfind

theorem named_insertThread (hnamed : Named db) (hu : username ≠ []) (ht : threadId ≠ [])
    (hfind : db.findThread username threadId = none) :
    Named (db.insertThread username threadId).1 := by
  refine ⟨?_, ?_, ?_, ?_⟩
  · show ((db.threads ++ [_]).map ThreadRow.id).Nodup
    rw [List.map_append, List.nodup_append]
    refine ⟨hnamed.ids, List.nodup_singleton _, ?_⟩
    rintro a ha b hb rfl
    obtain ⟨row, hrow, rfl⟩ := List.mem_map.mp ha
    have hlt := hnamed.fresh row hrow
    rw [List.mem_singleton.mp hb] at hlt
    exact Nat.lt_irrefl _ hlt
  · show ((db.threads ++ [_]).map fun row : ThreadRow => (row.username, row.threadId)).Nodup
    rw [List.map_append, List.nodup_append]
    refine ⟨hnamed.names, List.nodup_singleton _, ?_⟩
    rintro a ha b hb rfl
    obtain ⟨row, hrow, hrowName⟩ := List.mem_map.mp ha
    rw [List.mem_singleton.mp hb] at hrowName
    exact notMem_of_findThread hu ht hfind row hrow (Prod.mk.inj hrowName)
  · intro row hrow
    rcases List.mem_append.mp hrow with hrow | hrow
    · exact Nat.lt_succ_of_lt (hnamed.fresh row hrow)
    · rw [List.mem_singleton.mp hrow]
      exact Nat.lt_succ_self _
  · exact fun row hrow => Nat.lt_succ_of_lt (hnamed.owned row hrow)

/-- The new row is found by its name, and the others as before. -/
theorem findThread_insertThread (hu : username ≠ []) (ht : threadId ≠ [])
    (username' threadId' : Text) :
    (db.insertThread username threadId).1.findThread username' threadId' =
      (db.findThread username' threadId').or
        (if username' = username ∧ threadId' = threadId then
          some ⟨db.nextThreadId, username, threadId⟩ else none) := by
  rw [findThread, findThread]
  by_cases hempty : username' = [] ∨ threadId' = []
  · rw [if_pos hempty, if_pos hempty, if_neg]
    · rfl
    · rintro ⟨rfl, rfl⟩
      exact hempty.elim hu ht
  · rw [if_neg hempty, if_neg hempty]
    show (db.threads ++ [_]).find? _ = _
    rw [List.find?_append, List.find?_singleton]
    by_cases hname : username' = username ∧ threadId' = threadId
    · rw [if_pos hname, if_pos (by simp [hname])]
    · have hrow : ¬ (username = username' ∧ threadId = threadId') :=
        fun h => hname ⟨h.1.symm, h.2.symm⟩
      rw [if_neg hname, if_neg (by simpa using hrow)]

theorem ensured_insertThread (hnamed : Named db) (hu : username ≠ []) (ht : threadId ≠ [])
    (hfind : db.findThread username threadId = none) :
    Ensured db (db.insertThread username threadId).1 username threadId
      (db.insertThread username threadId).2 := by
  refine ⟨named_insertThread hnamed hu ht hfind, ?_, fun username' threadId' => ?_⟩
  · rw [findThread_insertThread hu ht, hfind, if_pos ⟨rfl, rfl⟩]
    rfl
  · rw [rowsAt, rowsAt, findThread_insertThread hu ht]
    cases hfind' : db.findThread username' threadId' with
    | some thread' => rfl
    | none =>
      by_cases hname : username' = username ∧ threadId' = threadId
      · rw [if_pos hname]
        exact hnamed.rowsOf_nextThreadId
      · rw [if_neg hname]
        rfl

theorem ensured_ensureThread (hnamed : Named db) (hu : username ≠ []) (ht : threadId ≠ []) :
    Ensured db (db.ensureThread username threadId).1 username threadId
      (db.ensureThread username threadId).2 := by
  rw [ensureThread]
  cases hfind : db.findThread username threadId with
  | some thread => exact ⟨hnamed, hfind, fun _ _ => rfl⟩
  | none => exact ensured_insertThread hnamed hu ht hfind

theorem Sound.ensureThread (hsound : Sound db) (hu : username ≠ []) (ht : threadId ≠ []) :
    Sound (db.ensureThread username threadId).1 := by
  have hnamed := (ensured_ensureThread hsound.named hu ht).named
  refine ⟨hnamed.ids, hnamed.names, hnamed.fresh, hnamed.owned, fun pk => ?_⟩
  have hrows : (db.ensureThread username threadId).1.rowsOf pk = db.rowsOf pk := by
    rw [Database.ensureThread]
    cases db.findThread username threadId with
    | none => rfl
    | some thread => rfl
  rw [hrows]
  exact hsound.indexed pk

/-! ### What the operations do -/

theorem ok_bind {ε α β : Type} (a : α) (f : α → Except ε β) : (Except.ok a >>= f) = f a := rfl

theorem requireNonEmpty_of_ne {value : Text} (field : Text) (h : strip value ≠ []) :
    requireNonEmpty value field = .ok (strip value) := if_neg h

/-- The index after the greatest one is greater than all. -/
theorem lt_nextIndex {rows : List MessageRow} {row : MessageRow} (h : row ∈ rows) :
    row.messageIndex < nextIndex rows := by
  have hmem : row.messageIndex ∈ rows.map MessageRow.messageIndex := List.mem_map_of_mem h
  rw [nextIndex]
  cases hmax : (rows.map MessageRow.messageIndex).max? with
  | none =>
    rw [List.max?_eq_none_iff.mp hmax] at hmem
    cases hmem
  | some m => exact Nat.lt_succ_of_le ((List.max?_eq_some_iff.mp hmax).2 _ hmem)

theorem rowsOf_insertMessage (db : Database) (message : MessageRow) (pk : ℕ) :
    (db.insertMessage message).rowsOf pk =
      if pk = message.threadPk then db.rowsOf pk ++ [message] else db.rowsOf pk := by
  rw [rowsOf, insertMessage, List.filter_append, ← rowsOf, List.filter_cons, List.filter_nil]
  by_cases hpk : pk = message.threadPk
  · rw [if_pos hpk, if_pos (decide_eq_true hpk.symm)]
  · rw [if_neg hpk, if_neg (by simpa using Ne.symm hpk), List.append_nil]

theorem Sound.insertMessage (hsound : Sound db) {message : MessageRow}
    (hpk : message.threadPk < db.nextThreadId)
    (hindex : ∀ row ∈ db.rowsOf message.threadPk, row.messageIndex < message.messageIndex) :
    Sound (db.insertMessage message) where
  ids := hsound.ids
  names := hsound.names
  fresh := hsound.fresh
  owned := by
    intro row hrow
    rcases List.mem_append.mp hrow with hrow | hrow
    · exact hsound.owned row hrow
    · rw [List.mem_singleton.mp hrow]
      exact hpk
  indexed := by
    intro pk
    rw [rowsOf_insertMessage]
    by_cases hsame : pk = message.threadPk
    · rw [if_pos hsame, List.pairwise_append]
      refine ⟨hsound.indexed pk, List.pairwise_singleton _ _, fun a ha b hb => ?_⟩
      rw [List.mem_singleton.mp hb]
      exact hindex a (by rwa [hsame] at ha)
    · rw [if_neg hsame]
      exact hsound.indexed pk

theorem rowsAt_insertMessage (hnamed : Named db) {message : MessageRow}
    (hfind : db.findThread username threadId = some thread) (hpk : message.threadPk = thread.id)
    (u t : Text) : (db.insertMessage message).rowsAt u t =
      if u = username ∧ t = threadId then db.rowsAt username threadId ++ [message]
      else db.rowsAt u t := by
  have hbefore : db.rowsAt username threadId = db.rowsOf thread.id := by rw [rowsAt, hfind]
  rw [rowsAt_of_rows hnamed (db.insertMessage message) rfl hfind fun pk hne => by
      rw [rowsOf_insertMessage, if_neg (by rwa [hpk])],
    rowsOf_insertMessage, if_pos hpk.symm, hbefore]

/-- **An append adds its message at the end of the thread** and leaves the others alone. -/
theorem appendMessage_ok (hsound : Sound db) {u t role content : Text} (hu : strip u ≠ [])
    (ht : strip t ≠ []) (hrole : strip role ≠ []) (hcontent : content ≠ []) :
    ∃ row db', db.appendMessage u t role content = .ok (row, db') ∧ Sound db' ∧
      ∀ u' t', db'.messagesOf u' t' =
        if u' = strip u ∧ t' = strip t then
          db.messagesOf (strip u) (strip t) ++ [⟨strip role, content⟩]
        else db.messagesOf u' t' := by
  have hsound' := hsound.ensureThread hu ht
  obtain ⟨hnamed', hfound, hrows⟩ := ensured_ensureThread hsound.named hu ht
  generalize hensure : db.ensureThread (strip u) (strip t) = ensured at hsound' hnamed' hfound hrows
  obtain ⟨db', thread⟩ := ensured
  dsimp only at hsound' hnamed' hfound hrows
  obtain ⟨message, hmessage⟩ : ∃ message : MessageRow, message =
      ⟨db'.nextMessageId, thread.id, nextIndex (db'.rowsOf thread.id), strip role, content⟩ :=
    ⟨_, rfl⟩
  have hpk : message.threadPk = thread.id := by rw [hmessage]
  have hok : db.appendMessage u t role content = .ok (message, db'.insertMessage message) := by
    rw [appendMessage, requireNonEmpty_of_ne _ hu, requireNonEmpty_of_ne _ ht,
      requireNonEmpty_of_ne _ hrole, hmessage, ok_bind, ok_bind, ok_bind, if_neg hcontent,
      hensure]
    rfl
  have hsound'' : Sound (db'.insertMessage message) := by
    refine hsound'.insertMessage ?_ fun row hrow => ?_
    · rw [hpk]
      exact hsound'.fresh thread (mem_of_findThread hfound).1
    · rw [hpk] at hrow
      rw [hmessage]
      exact lt_nextIndex hrow
  refine ⟨message, _, hok, hsound'', fun u' t' => ?_⟩
  rw [messagesOf_of_rowsAt fun u'' t'' => rowsAt_insertMessage hnamed' hfound hpk u'' t'',
    List.map_append, hrows, ← messagesOf_eq, messagesOf_eq db', hrows u' t', ← messagesOf_eq,
    hmessage]
  rfl

theorem createOrGetThread_ok (hsound : Sound db) {u t : Text} (hu : strip u ≠ [])
    (ht : strip t ≠ []) :
    ∃ row db', db.createOrGetThread u t = .ok (row, db') ∧ Sound db' ∧
      ∀ u' t', db'.messagesOf u' t' = db.messagesOf u' t' := by
  obtain ⟨-, -, hrows⟩ := ensured_ensureThread hsound.named hu ht
  refine ⟨(db.ensureThread (strip u) (strip t)).2, _, ?_, hsound.ensureThread hu ht,
    fun u' t' => ?_⟩
  · rw [createOrGetThread, requireNonEmpty_of_ne _ hu, requireNonEmpty_of_ne _ ht]
    rfl
  · rw [messagesOf_eq, hrows, messagesOf_eq]

theorem rowsOf_withoutMessages (db : Database) (threadPk pk : ℕ) :
    (db.withoutMessages threadPk).rowsOf pk = if pk = threadPk then [] else db.rowsOf pk := by
  rw [rowsOf, withoutMessages, rowsOf, List.filter_filter]
  by_cases hpk : pk = threadPk
  · rw [if_pos hpk, hpk, List.filter_eq_nil_iff]
    intro row _
    simp
  · rw [if_neg hpk]
    refine List.filter_congr fun row _ => ?_
    by_cases hrow : row.threadPk = pk
    · simp [hrow, hpk]
    · simp [hrow]

theorem Sound.withoutMessages (hsound : Sound db) (threadPk : ℕ) :
    Sound (db.withoutMessages threadPk) where
  ids := hsound.ids
  names := hsound.names
  fresh := hsound.fresh
  owned := fun row hrow => hsound.owned row (List.mem_of_mem_filter hrow)
  indexed := fun pk => by
    rw [rowsOf_withoutMessages]
    by_cases hpk : pk = threadPk
    · rw [if_pos hpk]
      exact List.Pairwise.nil
    · rw [if_neg hpk]
      exact hsound.indexed pk

theorem rowsAt_withoutMessages (hnamed : Named db)
    (hfind : db.findThread username threadId = some thread) (u t : Text) :
    (db.withoutMessages thread.id).rowsAt u t =
      if u = username ∧ t = threadId then [] else db.rowsAt u t := by
  rw [rowsAt_of_rows hnamed (db.withoutMessages thread.id) rfl hfind fun pk hpk => by
      rw [rowsOf_withoutMessages, if_neg hpk],
    rowsOf_withoutMessages, if_pos rfl]

/-- Nothing is to be deleted where there is no such thread. -/
theorem rowsAt_of_findThread_eq_none (hfind : db.findThread username threadId = none)
    (u t : Text) : db.rowsAt u t = if u = username ∧ t = threadId then [] else db.rowsAt u t := by
  by_cases hname : u = username ∧ t = threadId
  · rw [if_pos hname, hname.1, hname.2, rowsAt, hfind]
  · rw [if_neg hname]

/-- **Deleting the messages of a thread** leaves it without any. -/
theorem deleteThreadMessages_ok (hsound : Sound db) (u t : Text) :
    Sound (db.deleteThreadMessages u t).2 ∧ ∀ u' t',
      (db.deleteThreadMessages u t).2.messagesOf u' t' =
      if u' = strip u ∧ t' = strip t then [] else db.messagesOf u' t' := by
  rw [deleteThreadMessages]
  cases hfind : db.findThread (strip u) (strip t) with
  | none => exact ⟨hsound, messagesOf_of_rowsAt (rowsAt_of_findThread_eq_none hfind)⟩
  | some thread =>
    exact ⟨hsound.withoutMessages thread.id,
      messagesOf_of_rowsAt (rowsAt_withoutMessages hsound.named hfind)⟩

/-- The tables without a thread, and without its messages. -/
def withoutThread (db : Database) (threadPk : ℕ) : Database :=
  { db.withoutMessages threadPk with
    threads := db.threads.filter fun row => row.id ≠ threadPk }

theorem Sound.withoutThread (hsound : Sound db) (threadPk : ℕ) :
    Sound (db.withoutThread threadPk) where
  ids := hsound.ids.sublist (List.filter_sublist.map _)
  names := hsound.names.sublist (List.filter_sublist.map _)
  fresh := fun row hrow => hsound.fresh row (List.mem_of_mem_filter hrow)
  owned := (hsound.withoutMessages threadPk).owned
  indexed := (hsound.withoutMessages threadPk).indexed

/-- The row that goes is the only one with that name. -/
theorem id_eq_iff_of_findThread (hnamed : Named db)
    (hfind : db.findThread username threadId = some thread) {row : ThreadRow}
    (hrow : row ∈ db.threads) :
    row.id = thread.id ↔ row.username = username ∧ row.threadId = threadId := by
  obtain ⟨hmem, hname, hid⟩ := mem_of_findThread hfind
  constructor
  · intro heq
    rw [List.inj_on_of_nodup_map hnamed.ids hrow hmem heq]
    exact ⟨hname, hid⟩
  · rintro ⟨hname', hid'⟩
    rw [List.inj_on_of_nodup_map hnamed.names hrow hmem (by rw [hname', hid', hname, hid])]

theorem findThread_withoutThread (hnamed : Named db)
    (hfind : db.findThread username threadId = some thread) (u t : Text) :
    (db.withoutThread thread.id).findThread u t =
      if u = username ∧ t = threadId then none else db.findThread u t := by
  rw [findThread, findThread]
  by_cases hempty : u = [] ∨ t = []
  · rw [if_pos hempty, if_pos hempty, ite_self]
  · rw [if_neg hempty, if_neg hempty]
    show (db.threads.filter _).find? _ = _
    rw [List.find?_filter, ← List.head?_filter, ← List.head?_filter]
    by_cases hname : u = username ∧ t = threadId
    · rw [if_pos hname, List.head?_eq_none_iff, List.filter_eq_nil_iff]
      intro row hrow
      have hid := id_eq_iff_of_findThread hnamed hfind hrow
      simp only [ne_eq, hname.1, hname.2, decide_eq_true_eq, not_and]
      exact fun hne hu ht => hne (hid.mpr ⟨hu, ht⟩)
    · rw [if_neg hname]
      refine congrArg List.head? (List.filter_congr fun row hrow => ?_)
      have hid := id_eq_iff_of_findThread hnamed hfind hrow
      rw [Bool.eq_iff_iff]
      simp only [ne_eq, decide_not, Bool.not_eq_true', decide_eq_false_iff_not,
        decide_eq_true_eq, and_iff_right_iff_imp]
      rintro ⟨hu, ht⟩ heq
      obtain ⟨hu', ht'⟩ := hid.mp heq
      exact hname ⟨hu.symm.trans hu', ht.symm.trans ht'⟩

theorem rowsAt_withoutThread (hnamed : Named db)
    (hfind : db.findThread username threadId = some thread) (u t : Text) :
    (db.withoutThread thread.id).rowsAt u t =
      if u = username ∧ t = threadId then [] else db.rowsAt u t := by
  rw [rowsAt, findThread_withoutThread hnamed hfind]
  by_cases hname : u = username ∧ t = threadId
  · rw [if_pos hname, if_pos hname]
  · rw [if_neg hname, if_neg hname, rowsAt]
    cases hfind' : db.findThread u t with
    | none => rfl
    | some thread' =>
      show (db.withoutMessages thread.id).rowsOf thread'.id = _
      rw [rowsOf_withoutMessages, if_neg (id_ne_of_findThread hnamed hfind hfind' hname)]

/-- **Deleting a thread** deletes its messages. -/
theorem deleteThread_ok (hsound : Sound db) {u t : Text} (hu : strip u ≠ []) (ht : strip t ≠ []) :
    ∃ n db', db.deleteThread u t = .ok (n, db') ∧ Sound db' ∧
      ∀ u' t', db'.messagesOf u' t' =
        if u' = strip u ∧ t' = strip t then [] else db.messagesOf u' t' := by
  have hok : db.deleteThread u t = (match db.findThread (strip u) (strip t) with
      | none => .ok (0, db)
      | some thread => .ok (1, db.withoutThread thread.id)) := by
    rw [deleteThread, requireNonEmpty_of_ne _ hu, requireNonEmpty_of_ne _ ht]
    rfl
  rw [hok]
  cases hfind : db.findThread (strip u) (strip t) with
  | none => exact ⟨0, db, rfl, hsound, messagesOf_of_rowsAt (rowsAt_of_findThread_eq_none hfind)⟩
  | some thread =>
    exact ⟨1, _, rfl, hsound.withoutThread thread.id,
      messagesOf_of_rowsAt (rowsAt_withoutThread hsound.named hfind)⟩

/-! ### Snapshots -/

theorem normalizeSnapshotMessages_ok {messages : List Message}
    (h : ∀ m ∈ messages, strip m.role ≠ [] ∧ strip m.content ≠ []) :
    normalizeSnapshotMessages messages =
      .ok (messages.map fun m => ⟨strip m.role, strip m.content⟩) := by
  induction messages with
  | nil => rfl
  | cons m messages ih =>
    obtain ⟨hrole, hcontent⟩ := h m List.mem_cons_self
    rw [normalizeSnapshotMessages, List.mapM_cons, requireNonEmpty_of_ne _ hrole,
      requireNonEmpty_of_ne _ hcontent, ← normalizeSnapshotMessages,
      ih fun n hn => h n (List.mem_cons_of_mem m hn)]
    rfl

theorem map_snapshotRows (firstId threadPk : ℕ) (snapshot : List Message) :
    (snapshotRows firstId threadPk snapshot).map MessageRow.message = snapshot := by
  rw [snapshotRows, List.map_map]
  exact (List.map_congr_left fun _ _ => rfl).trans (List.zipIdx_map_fst 0 snapshot)

theorem rowsOf_replaceMessages (db : Database) (threadPk pk : ℕ) (snapshot : List Message) :
    (db.replaceMessages threadPk snapshot).rowsOf pk =
      if pk = threadPk then snapshotRows db.nextMessageId threadPk snapshot else db.rowsOf pk := by
  rw [rowsOf, replaceMessages, List.filter_append, ← rowsOf, rowsOf_withoutMessages]
  have hpks : ∀ row ∈ snapshotRows db.nextMessageId threadPk snapshot, row.threadPk = threadPk := by
    intro row hrow
    obtain ⟨item, -, rfl⟩ := List.mem_map.mp hrow
    rfl
  by_cases hpk : pk = threadPk
  · rw [if_pos hpk, if_pos hpk, List.nil_append, List.filter_eq_self]
    exact fun row hrow => decide_eq_true ((hpks row hrow).trans hpk.symm)
  · rw [if_neg hpk, if_neg hpk, List.filter_eq_nil_iff.mpr, List.append_nil]
    exact fun row hrow heq => hpk ((of_decide_eq_true heq).symm.trans (hpks row hrow))

theorem pairwise_snapshotRows (firstId threadPk : ℕ) (snapshot : List Message) :
    (snapshotRows firstId threadPk snapshot).Pairwise
      fun a b => a.messageIndex < b.messageIndex := by
  rw [snapshotRows, List.pairwise_map, List.pairwise_iff_getElem]
  intro i j hi hj hij
  simpa using hij

theorem rowsAt_replaceMessages (hnamed : Named db)
    (hfind : db.findThread username threadId = some thread) (snapshot : List Message)
    (u t : Text) : (db.replaceMessages thread.id snapshot).rowsAt u t =
      if u = username ∧ t = threadId then snapshotRows db.nextMessageId thread.id snapshot
      else db.rowsAt u t := by
  rw [rowsAt_of_rows hnamed (db.replaceMessages thread.id snapshot) rfl hfind
      fun pk hpk => by rw [rowsOf_replaceMessages, if_neg hpk],
    rowsOf_replaceMessages, if_pos rfl]

theorem Sound.replaceMessages (hsound : Sound db) {threadPk : ℕ} (hlt : threadPk < db.nextThreadId)
    (snapshot : List Message) : Sound (db.replaceMessages threadPk snapshot) := by
  refine ⟨hsound.ids, hsound.names, hsound.fresh, fun row hrow => ?_, fun pk => ?_⟩
  · rcases List.mem_append.mp hrow with hrow | hrow
    · exact (hsound.withoutMessages threadPk).owned row hrow
    · obtain ⟨item, -, rfl⟩ := List.mem_map.mp hrow
      exact hlt
  · rw [rowsOf_replaceMessages]
    by_cases hpk : pk = threadPk
    · rw [if_pos hpk]
      exact pairwise_snapshotRows _ _ _
    · rw [if_neg hpk]
      exact hsound.indexed pk

/-- **A snapshot is what the thread holds then.** -/
theorem replaceThreadSnapshot_ok (hsound : Sound db) {u t : Text} {messages : List Message}
    (hu : strip u ≠ []) (ht : strip t ≠ [])
    (hmessages : ∀ m ∈ messages, strip m.role ≠ [] ∧ strip m.content ≠ []) :
    ∃ rows db', db.replaceThreadSnapshot u t messages = .ok (rows, db') ∧ Sound db' ∧
      ∀ u' t', db'.messagesOf u' t' =
        if u' = strip u ∧ t' = strip t then
          messages.map fun m => ⟨strip m.role, strip m.content⟩
        else db.messagesOf u' t' := by
  have hsound' := hsound.ensureThread hu ht
  obtain ⟨hnamed', hfound, hrows⟩ := ensured_ensureThread hsound.named hu ht
  generalize hensure : db.ensureThread (strip u) (strip t) = ensured at hsound' hnamed' hfound hrows
  obtain ⟨db', thread⟩ := ensured
  dsimp only at hsound' hnamed' hfound hrows
  generalize hsnapshot : (messages.map fun m => (⟨strip m.role, strip m.content⟩ : Message)) =
    snapshot
  have hok : db.replaceThreadSnapshot u t messages =
      .ok (((db'.replaceMessages thread.id snapshot).rowsOf thread.id).insertionSort ReadBefore,
        db'.replaceMessages thread.id snapshot) := by
    rw [replaceThreadSnapshot, requireNonEmpty_of_ne _ hu, requireNonEmpty_of_ne _ ht,
      normalizeSnapshotMessages_ok hmessages, hsnapshot, ok_bind, ok_bind, ok_bind, hensure]
    rfl
  have hlt := hsound'.fresh thread (mem_of_findThread hfound).1
  refine ⟨_, _, hok, hsound'.replaceMessages hlt snapshot, fun u' t' => ?_⟩
  rw [messagesOf_of_rowsAt (rowsAt_replaceMessages hnamed' hfound snapshot), map_snapshotRows,
    messagesOf_eq db', hrows, ← messagesOf_eq]

end Database

end Chat

end AiAgent

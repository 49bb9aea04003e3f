import AiAgent.Chat.Conversations
import Mathlib.Data.List.Dedup
import Mathlib.Data.String.Basic

/-!
# Migrating the conversations of a user

The migration reads every thread a source lists of a user and imports its history; the comparison
reads the same threads again, with those the database lists, and says of each whether both hold the
same. Both normalise what they read, by different code.

The argument rests on one fact about a thread (`AiAgent.Chat.Migrated`): its history is empty, or
the database reads as its history with the white space stripped. An import establishes it and
leaves the database alone where it holds already, so a second migration changes nothing at all; and
where it holds the comparison finds a match (`AiAgent.Chat.parity_of_migrate`).
-/

namespace AiAgent

namespace Chat

open Text Budget

/-! ### The source -/

/-- A summary of a thread, as `list_threads` returns it. -/
structure SourceSummary where
  threadId : Option Text
  id : Option Text

/-- A message of a history: a mapping that may lack a field. -/
structure HistoryItem where
  role : Option Text
  content : Option Text

/-- A store the conversations are read from; it does not change meanwhile. -/
structure ConversationSource where
  listThreads : Text → List SourceSummary
  getHistory : Text → Text → List HistoryItem

/-- What a migration or a comparison raises. -/
inductive MigrationError where
  /-- The summary of a thread must include its id. -/
  | noThreadId
  /-- The field of a message of a history must not be empty. -/
  | emptyField (field : Text)
  | store (error : CallError)

/-- `value or default`. -/
def orElse (value : Option Text) (default : Text) : Text :=
  match value with
  | none => default
  | some text => if text = [] then default else text

/-- The message of a history, its missing fields empty. -/
def HistoryItem.message (item : HistoryItem) : Message := ⟨item.role.getD [], item.content.getD []⟩

/-- `_extract_thread_id`. -/
def extractThreadId (summary : SourceSummary) : Except MigrationError Text :=
  let threadId := strip (orElse summary.threadId (orElse summary.id []))
  if threadId = [] then .error .noThreadId else .ok threadId

/-! ### The migration -/

/-- A call of the store within a migration. -/
abbrev MigrationM := ClientM Database MigrationError

structure ThreadMigrationResult where
  threadId : Text
  migrated : Bool
  messageCount : ℕ
  skippedEmpty : Bool

structure UserMigrationResult where
  username : Text
  migratedThreadCount : ℕ
  migratedMessageCount : ℕ
  skippedEmptyThreads : List Text

/-- `normalize_history_to_snapshot`. -/
def normalizeHistoryToSnapshot (historyMessages : List HistoryItem) :
    Except MigrationError (List Message) :=
  historyMessages.mapM fun item =>
    let role := strip item.message.role
    let content := strip item.message.content
    if role = [] then .error (.emptyField "role".toList)
    else if content = [] then .error (.emptyField "content".toList)
    else .ok ⟨role, content⟩

/-- `migrate_thread_from_history`. -/
def migrateThreadFromHistory (username threadId : Text) (historyMessages : List HistoryItem) :
    MigrationM (List MessageRow) := do
  let snapshot ← normalizeHistoryToSnapshot historyMessages
  ExceptT.adapt MigrationError.store (ConversationStore.importThreadSnapshot username threadId
    (snapshot.map fun m => .message m.role m.content))

section Migrate

variable (source : ConversationSource) (username : Text)

/-- `migrate_thread_for_user`. -/
def migrateThreadForUser (threadId : Text) : MigrationM ThreadMigrationResult := do
  let history := source.getHistory username threadId
  if history = [] then return ⟨threadId, false, 0, true⟩
  else
    let imported ← migrateThreadFromHistory username threadId history
    return ⟨threadId, true, imported.length, false⟩

/-- The loop over the summaries: every thread once. -/
def distinctThreadIds (summaries : List SourceSummary) : Except MigrationError (List Text) :=
  summaries.foldlM
    (fun threadIds item => do
      let threadId ← extractThreadId item
      return if threadId ∈ threadIds then threadIds else threadIds ++ [threadId]) []

/-- The loop over the threads. -/
def migrateThreads (threadIds : List Text) (result : UserMigrationResult) :
    MigrationM UserMigrationResult :=
  threadIds.foldlM
    (fun total threadId => do
      let result ← migrateThreadForUser source username threadId
      return if result.skippedEmpty then
        { total with skippedEmptyThreads := total.skippedEmptyThreads ++ [result.threadId] }
      else
        { total with
          migratedThreadCount := total.migratedThreadCount + 1
          migratedMessageCount := total.migratedMessageCount + result.messageCount }) result

/-- `migrate_all_threads_for_user`. -/
def migrateAllThreadsForUser : MigrationM UserMigrationResult := do
  let threadIds ← distinctThreadIds (source.listThreads username)
  migrateThreads source username threadIds ⟨username, 0, 0, []⟩

/-! ### The comparison -/

structure UserParityResult where
  username : Text
  matchedThreads : List Text
  missingInDbThreads : List Text
  missingInSourceThreads : List Text
  contentMismatchThreads : List Text
  emptyThreads : List Text

/-- `list_threads` of the conversation store. -/
def Database.listThreads (db : Database) (username : Text) : Except CallError (List ThreadRow) := do
  let normalizedUsername ← ConversationStore.requireNonEmpty username "username".toList
  return db.threads.filter fun row => row.username = normalizedUsername

/-- `_extract_source_thread_ids`. -/
def extractSourceThreadIds (summaries : List SourceSummary) : Except MigrationError (List Text) :=
  summaries.mapM extractThreadId

variable (db : Database)

/-- `compare_thread_for_user`. -/
def compareThreadForUser (threadId : Text) : ThreadParityResult :=
  compareHistorySnapshotToMessages ((source.getHistory username threadId).map HistoryItem.message)
    (db.getMessages username threadId) threadId

/-- `compare_all_threads_for_user`. -/
def compareAllThreadsForUser : Except MigrationError UserParityResult := do
  let sourceThreadIds ← extractSourceThreadIds (source.listThreads username)
  let dbThreads ← (db.listThreads username).mapError MigrationError.store
  let allThreadIds := (sourceThreadIds ++ dbThreads.map ThreadRow.threadId).dedup.insertionSort
    (· ≤ ·)
  let threadsOf (status : ParityStatus) : List Text :=
    allThreadIds.filter fun threadId =>
      (compareThreadForUser source username db threadId).status = status
  return {
    username := username
    matchedThreads := threadsOf .matched
    missingInDbThreads := threadsOf .missingInDb
    missingInSourceThreads := threadsOf .missingInSource
    contentMismatchThreads := threadsOf .contentMismatch
    emptyThreads := threadsOf .emptyThread }

end Migrate

/-! ### One thread -/

/-- The message of a history is neither without a role nor without a content. -/
def HistoryItem.Proper (item : HistoryItem) : Prop :=
  strip item.message.role ≠ [] ∧ strip item.message.content ≠ []

instance (item : HistoryItem) : Decidable item.Proper := inferInstanceAs (Decidable (_ ∧ _))

/-- The history as a migration writes it. -/
def snapshotOf (history : List HistoryItem) : List Message :=
  history.map fun item => ⟨strip item.message.role, strip item.message.content⟩

theorem normalizeHistoryToSnapshot_ok {history : List HistoryItem}
    (h : ∀ item ∈ history, item.Proper) :
    normalizeHistoryToSnapshot history = .ok (snapshotOf history) := by
  induction history with
  | nil => rfl
  | cons item history ih =>
    obtain ⟨hrole, hcontent⟩ := h item List.mem_cons_self
    have hrest := ih fun item' hitem' => h item' (List.mem_cons_of_mem item hitem')
    rw [normalizeHistoryToSnapshot] at hrest ⊢
    rw [List.mapM_cons, hrest, if_neg hrole, if_neg hcontent]
    rfl

theorem requireNonEmpty_ok {value : Text} (field : Text) (h : strip value ≠ []) :
    ConversationStore.requireNonEmpty value field = .ok (strip value) := if_neg h

/-- What was stripped stays as it is. -/
theorem normalizeSnapshotMessages_snapshotOf {history : List HistoryItem}
    (h : ∀ item ∈ history, item.Proper) :
    ConversationStore.normalizeSnapshotMessages
      ((snapshotOf history).map fun m => .message m.role m.content) = .ok (snapshotOf history) := by
  induction history with
  | nil => rfl
  | cons item history ih =>
    obtain ⟨hrole, hcontent⟩ := h item List.mem_cons_self
    have hrest := ih fun item' hitem' => h item' (List.mem_cons_of_mem item hitem')
    rw [ConversationStore.normalizeSnapshotMessages] at hrest ⊢
    rw [snapshotOf, List.map_cons, List.map_cons, List.mapM_cons, ← snapshotOf, hrest]
    dsimp only
    rw [requireNonEmpty_ok _ (by rwa [strip_strip]), requireNonEmpty_ok _ (by rwa [strip_strip]),
      strip_strip, strip_strip]
    rfl

section Thread

variable {source : ConversationSource} {u t : Text} {db : Database}

/-- **What the migration of a thread does**: a thread without a history is skipped, one that the
database holds is left alone, and any other is written. -/
theorem run_migrateThreadForUser (h : db.Keyed) (hu : strip u ≠ []) (ht : t ≠ [])
    (hstrip : strip t = t) (hproper : ∀ item ∈ source.getHistory u t, item.Proper)
    (hhistory : source.getHistory u t ≠ []) :
    migrateThreadForUser source u t db =
      (.ok ⟨t, true, (source.getHistory u t).length, false⟩,
        if (db.getMessages u t).map MessageRow.message = snapshotOf (source.getHistory u t) then db
        else (db.ensureThread (strip u) t).1.replaceMessages (db.ensureThread (strip u) t).2.id
          (snapshotOf (source.getHistory u t))) := by
  have hlength : (snapshotOf (source.getHistory u t)).length = (source.getHistory u t).length :=
    List.length_map _
  rw [migrateThreadForUser, if_neg hhistory]
  have hcheck : ∀ f : List Message → MigrationM (List MessageRow),
      ((liftM (normalizeHistoryToSnapshot (source.getHistory u t)) : MigrationM (List Message)) >>=
        f) db = f (snapshotOf (source.getHistory u t)) db := by
    intro f
    rw [normalizeHistoryToSnapshot_ok hproper]
    rfl
  have himport : ConversationStore.importThreadSnapshot u t
      ((snapshotOf (source.getHistory u t)).map fun m => .message m.role m.content) db =
        Session.within (ConversationStore.importSnapshot (strip u) t
          (snapshotOf (source.getHistory u t))) db := by
    rw [ConversationStore.importThreadSnapshot, requireNonEmpty_ok _ hu,
      requireNonEmpty_ok _ (by rwa [hstrip]), normalizeSnapshotMessages_snapshotOf hproper, hstrip]
    rfl
  have hread : (db.rowsAt (strip u) t).insertionSort Database.ReadBefore = db.getMessages u t := by
    rw [Database.getMessages_eq, hstrip]
  rw [ConversationStore.run_importSnapshot h hu ht, hread] at himport
  -- A thread that holds these very messages is left alone, any other is replaced.
  by_cases hmatch : (db.getMessages u t).map MessageRow.message =
      snapshotOf (source.getHistory u t)
  · rw [if_pos hmatch] at himport ⊢
    have hrows : (db.getMessages u t).length = (source.getHistory u t).length := by
      rw [← hlength, ← hmatch, List.length_map]
    have hfrom : migrateThreadFromHistory u t (source.getHistory u t) db =
        (.ok (db.getMessages u t), db) := by
      rw [migrateThreadFromHistory, hcheck, ClientM.run_adapt, himport]
      rfl
    rw [ClientM.run_bind_ok hfrom, hrows]
    rfl
  · rw [if_neg hmatch] at himport ⊢
    have hfrom : migrateThreadFromHistory u t (source.getHistory u t) db =
        (.ok (Database.snapshotRows (db.ensureThread (strip u) t).1.nextMessageId
            (db.ensureThread (strip u) t).2.id (snapshotOf (source.getHistory u t))),
          (db.ensureThread (strip u) t).1.replaceMessages (db.ensureThread (strip u) t).2.id
            (snapshotOf (source.getHistory u t))) := by
      rw [migrateThreadFromHistory, hcheck, ClientM.run_adapt, himport]
      rfl
    rw [ClientM.run_bind_ok hfrom, Database.snapshotRows, List.length_map, List.length_zipIdx,
      hlength]
    rfl

/-- What the migration of a thread reports. -/
def threadResult (source : ConversationSource) (u t : Text) : ThreadMigrationResult :=
  if source.getHistory u t = [] then ⟨t, false, 0, true⟩
  else ⟨t, true, (source.getHistory u t).length, false⟩

/-- **A thread is migrated**: it has no history, or the database reads as its history. -/
def Migrated (source : ConversationSource) (u : Text) (db : Database) (t : Text) : Prop :=
  source.getHistory u t = [] ∨ (strip u ≠ [] ∧
    (db.getMessages u t).map MessageRow.message = snapshotOf (source.getHistory u t))

/-- **The other threads are spared**: those that are not of the user or not among the ones named,
and all their messages. -/
structure Spared (u : Text) (named : Text → Prop) (db db' : Database) : Prop where
  threads : ∀ row : ThreadRow, ¬ (row.username = strip u ∧ named row.threadId) →
    (row ∈ db'.threads ↔ row ∈ db.threads)
  messages : ∀ row ∈ db.threads, ¬ (row.username = strip u ∧ named row.threadId) →
    db'.rowsOf row.id = db.rowsOf row.id

theorem Spared.refl (u : Text) (named : Text → Prop) (db : Database) : Spared u named db db :=
  ⟨fun _ _ => Iff.rfl, fun _ _ _ => rfl⟩

theorem Spared.trans {named : Text → Prop} {db₁ db₂ db₃ : Database} (h : Spared u named db₁ db₂)
    (h' : Spared u named db₂ db₃) : Spared u named db₁ db₃ where
  threads := fun row hrow => (h'.threads row hrow).trans (h.threads row hrow)
  messages := fun row hmem hrow =>
    (h'.messages row ((h.threads row hrow).mpr hmem) hrow).trans (h.messages row hmem hrow)

theorem Spared.mono {named named' : Text → Prop} {db' : Database} (h : Spared u named db db')
    (hle : ∀ t, named t → named' t) : Spared u named' db db' where
  threads := fun row hrow => h.threads row fun hnamed => hrow ⟨hnamed.1, hle _ hnamed.2⟩
  messages := fun row hmem hrow =>
    h.messages row hmem fun hnamed => hrow ⟨hnamed.1, hle _ hnamed.2⟩

/-- A snapshot that is written spares the threads of other names. -/
theorem spared_replaceMessages (h : db.Keyed) (hu : strip u ≠ []) (ht : t ≠ [])
    (snapshot : List Message) :
    Spared u (· = t) db ((db.ensureThread (strip u) t).1.replaceMessages
      (db.ensureThread (strip u) t).2.id snapshot) := by
  obtain ⟨hnamed, hfound, -⟩ := Database.ensured_ensureThread h.named hu ht
  obtain ⟨hmem, hname, hid⟩ := Database.mem_of_findThread hfound
  have hthreads : ∀ row : ThreadRow, ¬ (row.username = strip u ∧ row.threadId = t) →
      (row ∈ (db.ensureThread (strip u) t).1.threads ↔ row ∈ db.threads) := by
    intro row hrow
    rw [Database.ensureThread]
    rcases db.findThread (strip u) t with _ | thread
    · refine ⟨fun hmem => ?_, fun hmem => List.mem_append_left _ hmem⟩
      rcases List.mem_append.mp hmem with hold | hnew
      · exact hold
      · rw [List.mem_singleton.mp hnew] at hrow
        exact absurd ⟨rfl, rfl⟩ hrow
    · exact Iff.rfl
  have hrows : ∀ pk, (db.ensureThread (strip u) t).1.rowsOf pk = db.rowsOf pk := by
    intro pk
    rw [Database.ensureThread]
    rcases db.findThread (strip u) t with _ | thread
    · rfl
    · rfl
  refine ⟨hthreads, fun row hrow hother => ?_⟩
  have hne : row.id ≠ (db.ensureThread (strip u) t).2.id := by
    intro heq
    have hrow' := (hthreads row hother).mpr hrow
    rw [List.inj_on_of_nodup_map hnamed.ids hrow' hmem heq] at hother
    exact hother ⟨hname, hid⟩
  rw [Database.rowsOf_replaceMessages, if_neg hne, hrows]

/-- The threads of other names read as before. -/
theorem getMessages_replaceMessages (h : db.Keyed) (hu : strip u ≠ []) (ht : t ≠ [])
    (snapshot : List Message) {t' : Text} (hne : strip t' ≠ t) :
    ((db.ensureThread (strip u) t).1.replaceMessages (db.ensureThread (strip u) t).2.id
      snapshot).getMessages u t' = db.getMessages u t' := by
  obtain ⟨hnamed, hfound, hrows⟩ := Database.ensured_ensureThread h.named hu ht
  rw [Database.getMessages_eq, Database.getMessages_eq,
    Database.rowsAt_replaceMessages hnamed hfound, if_neg fun heq => hne heq.2, hrows]

/-- **The step of the migration**: it reports on the thread, makes it a migrated one, undoes no
other, and spares what has another name. -/
structure Step (source : ConversationSource) (u t : Text) (db db' : Database) : Prop where
  keyed : db'.Keyed
  migrated : Migrated source u db' t
  others : ∀ t', strip t' = t' → Migrated source u db t' → Migrated source u db' t'
  spared : Spared u (fun t' => t' = t ∧ source.getHistory u t' ≠ []) db db'

theorem step_migrateThreadForUser (h : db.Keyed) (ht : t ≠ []) (hstrip : strip t = t)
    (hproper : ∀ t', ∀ item ∈ source.getHistory u t', item.Proper)
    {result : ThreadMigrationResult} {db' : Database}
    (hok : migrateThreadForUser source u t db = (.ok result, db')) :
    result = threadResult source u t ∧ Step source u t db db' := by
  by_cases hhistory : source.getHistory u t = []
  · rw [migrateThreadForUser, if_pos hhistory] at hok
    obtain ⟨hresult, rfl⟩ := Prod.mk.inj hok
    refine ⟨?_, h, .inl hhistory, fun _ _ hmigrated => hmigrated, .refl _ _ _⟩
    rw [threadResult, if_pos hhistory]
    exact (Except.ok.inj hresult).symm
  by_cases hu : strip u = []
  · -- The import raises for a blank user.
    rw [migrateThreadForUser, if_neg hhistory] at hok
    obtain ⟨rows, db₁, hrows, -⟩ := ClientM.exists_of_run_bind hok
    rw [migrateThreadFromHistory, normalizeHistoryToSnapshot_ok (hproper t),
      ClientM.run_check_ok, ClientM.run_adapt, ConversationStore.importThreadSnapshot,
      ConversationStore.requireNonEmpty, if_pos hu] at hrows
    cases hrows
  · rw [run_migrateThreadForUser h hu ht hstrip (hproper t) hhistory] at hok
    obtain ⟨hresult, hdb⟩ := Prod.mk.inj hok
    refine ⟨?_, ?_⟩
    · rw [threadResult, if_neg hhistory]
      exact (Except.ok.inj hresult).symm
    by_cases hmatch : (db.getMessages u t).map MessageRow.message =
        snapshotOf (source.getHistory u t)
    · rw [if_pos hmatch] at hdb
      subst hdb
      exact ⟨h, .inr ⟨hu, hmatch⟩, fun _ _ hmigrated => hmigrated, .refl _ _ _⟩
    · rw [if_neg hmatch] at hdb
      subst hdb
      obtain ⟨hnamed, hfound, -⟩ := Database.ensured_ensureThread h.named hu ht
      have hread : (((db.ensureThread (strip u) t).1.replaceMessages
          (db.ensureThread (strip u) t).2.id (snapshotOf (source.getHistory u t))).getMessages u
            t).map MessageRow.message = snapshotOf (source.getHistory u t) := by
        rw [Database.getMessages_eq, hstrip, Database.rowsAt_replaceMessages hnamed hfound,
          if_pos ⟨rfl, rfl⟩, Database.insertionSort_readBefore
            (Database.pairwise_snapshotRows _ _ _), Database.map_snapshotRows]
      refine ⟨(h.ensureThread hu ht).replaceMessages (Database.mem_of_findThread hfound).1 _,
        .inr ⟨hu, hread⟩, fun t' hstrip' hmigrated => ?_, ?_⟩
      · by_cases hsame : t' = t
        · rw [hsame]
          exact .inr ⟨hu, hread⟩
        · refine hmigrated.imp_right fun hkept => ⟨hkept.1, ?_⟩
          rw [getMessages_replaceMessages h hu ht _ (by rwa [hstrip']), hkept.2]
      · exact (spared_replaceMessages h hu ht _).mono fun t' heq => ⟨heq, heq ▸ hhistory⟩

end Thread

/-! ### All threads -/

section AllThreads

variable {source : ConversationSource} {u : Text} {db : Database}

/-- What is added to the report for a thread. -/
def UserMigrationResult.add (total : UserMigrationResult) (result : ThreadMigrationResult) :
    UserMigrationResult :=
  if result.skippedEmpty then
    { total with skippedEmptyThreads := total.skippedEmptyThreads ++ [result.threadId] }
  else
    { total with
      migratedThreadCount := total.migratedThreadCount + 1
      migratedMessageCount := total.migratedMessageCount + result.messageCount }

theorem migrateThreads_cons (t : Text) (ids : List Text) (total : UserMigrationResult) :
    migrateThreads source u (t :: ids) total = (do
      let result ← migrateThreadForUser source u t
      migrateThreads source u ids (total.add result)) := by
  rw [migrateThreads, List.foldlM_cons, bind_assoc]
  rfl

/-- The ids a source lists are stripped, and none is blank. -/
def AreIds (ids : List Text) : Prop := ∀ t ∈ ids, t ≠ [] ∧ strip t = t

/-- **The run of the migration**: every step on the way makes one more thread a migrated one. -/
theorem run_migrateThreads (h : db.Keyed)
    (hproper : ∀ t, ∀ item ∈ source.getHistory u t, item.Proper) {ids : List Text}
    (hids : AreIds ids) {total result : UserMigrationResult} {db' : Database}
    (hok : migrateThreads source u ids total db = (.ok result, db')) :
    result = ids.foldl (fun total t => total.add (threadResult source u t)) total ∧ db'.Keyed ∧
      (∀ t, strip t = t → t ∈ ids ∨ Migrated source u db t → Migrated source u db' t) ∧
      Spared u (fun t => t ∈ ids ∧ source.getHistory u t ≠ []) db db' := by
  induction ids generalizing total db with
  | nil =>
    obtain ⟨hresult, rfl⟩ := Prod.mk.inj hok
    refine ⟨(Except.ok.inj hresult).symm, h, fun t _ hmigrated => ?_, .refl _ _ _⟩
    exact hmigrated.resolve_left List.not_mem_nil
  | cons t ids ih =>
    rw [migrateThreads_cons] at hok
    obtain ⟨first, db₁, hfirst, hrest⟩ := ClientM.exists_of_run_bind hok
    obtain ⟨ht, hstrip⟩ := hids t List.mem_cons_self
    obtain ⟨rfl, hstep⟩ := step_migrateThreadForUser h ht hstrip hproper hfirst
    obtain ⟨hresult, hkeyed, hmigrated, hspared⟩ := ih hstep.keyed
      (fun t' ht' => hids t' (List.mem_cons_of_mem t ht')) hrest
    refine ⟨hresult, hkeyed, fun t' hstrip' hold => hmigrated t' hstrip' ?_, ?_⟩
    · rcases hold with hmem | hold
      · rcases List.mem_cons.mp hmem with rfl | hmem
        · exact .inr hstep.migrated
        · exact .inl hmem
      · exact .inr (hstep.others t' hstrip' hold)
    · refine (hstep.spared.mono ?_).trans (hspared.mono ?_)
      · rintro t' ⟨rfl, hhistory⟩
        exact ⟨List.mem_cons_self, hhistory⟩
      · rintro t' ⟨hmem, hhistory⟩
        exact ⟨List.mem_cons_of_mem t hmem, hhistory⟩

/-- A thread that is migrated is left alone. -/
theorem run_migrateThreadForUser_of_migrated (h : db.Keyed)
    (hproper : ∀ t, ∀ item ∈ source.getHistory u t, item.Proper) {t : Text} (ht : t ≠ [])
    (hstrip : strip t = t) (hmigrated : Migrated source u db t) :
    migrateThreadForUser source u t db = (.ok (threadResult source u t), db) := by
  by_cases hhistory : source.getHistory u t = []
  · rw [migrateThreadForUser, threadResult, if_pos hhistory, if_pos hhistory]
    rfl
  · obtain ⟨hu, hread⟩ := hmigrated.resolve_left hhistory
    rw [run_migrateThreadForUser h hu ht hstrip (hproper t) hhistory, if_pos hread, threadResult,
      if_neg hhistory]

/-- **Migrating what is migrated changes nothing.** -/
theorem run_migrateThreads_of_migrated (h : db.Keyed)
    (hproper : ∀ t, ∀ item ∈ source.getHistory u t, item.Proper) {ids : List Text}
    (hids : AreIds ids) (hmigrated : ∀ t ∈ ids, Migrated source u db t)
    (total : UserMigrationResult) : migrateThreads source u ids total db =
      (.ok (ids.foldl (fun total t => total.add (threadResult source u t)) total), db) := by
  induction ids generalizing total with
  | nil => rfl
  | cons t ids ih =>
    obtain ⟨ht, hstrip⟩ := hids t List.mem_cons_self
    rw [migrateThreads_cons, ClientM.run_bind_ok (run_migrateThreadForUser_of_migrated h hproper ht
      hstrip (hmigrated t List.mem_cons_self))]
    exact ih (fun t' ht' => hids t' (List.mem_cons_of_mem t ht'))
      (fun t' ht' => hmigrated t' (List.mem_cons_of_mem t ht')) _

theorem extractThreadId_ok {summary : SourceSummary} {t : Text}
    (h : extractThreadId summary = .ok t) : t ≠ [] ∧ strip t = t := by
  rw [extractThreadId] at h
  split at h
  · cases h
  · rename_i hne
    obtain rfl := Except.ok.inj h
    exact ⟨hne, strip_strip _⟩

/-- The loop over the summaries, from any threads on. -/
theorem foldlM_threadIds {summaries : List SourceSummary} {seen ids : List Text}
    (h : summaries.foldlM
      (fun threadIds item => do
        let threadId ← extractThreadId item
        return if threadId ∈ threadIds then threadIds else threadIds ++ [threadId]) seen =
          .ok ids) :
    ∃ sourceIds, extractSourceThreadIds summaries = .ok sourceIds ∧ AreIds sourceIds ∧
      ∀ t, t ∈ ids ↔ t ∈ seen ∨ t ∈ sourceIds := by
  -- Each summary is read once, and an id that was seen is not added again.
  induction summaries generalizing seen with
  | nil =>
    obtain rfl := Except.ok.inj h
    exact ⟨[], rfl, nofun, fun t => by simp⟩
  | cons summary summaries ih =>
    rw [List.foldlM_cons, bind_assoc] at h
    rcases hid : extractThreadId summary with e | t
    · rw [hid] at h
      cases h
    · rw [hid] at h
      obtain ⟨sourceIds, hsource, hare, hmem⟩ := ih h
      refine ⟨t :: sourceIds, ?_, ?_, fun t' => ?_⟩
      · rw [extractSourceThreadIds] at hsource ⊢
        rw [List.mapM_cons, hid, hsource]
        rfl
      · intro t' ht'
        rcases List.mem_cons.mp ht' with rfl | ht'
        · exact extractThreadId_ok hid
        · exact hare t' ht'
      · rw [hmem, List.mem_cons]
        by_cases hseen : t ∈ seen
        · rw [if_pos hseen]
          constructor
          · rintro (hold | hnew)
            · exact .inl hold
            · exact .inr (.inr hnew)
          · rintro (hold | rfl | hnew)
            · exact .inl hold
            · exact .inl hseen
            · exact .inr hnew
        · rw [if_neg hseen, List.mem_append, List.mem_singleton, or_assoc]

/-- **The two pipelines list the same threads**, the one without repetitions. -/
theorem distinctThreadIds_ok {summaries : List SourceSummary} {ids : List Text}
    (h : distinctThreadIds summaries = .ok ids) :
    AreIds ids ∧ ∃ sourceIds, extractSourceThreadIds summaries = .ok sourceIds ∧
      ∀ t, t ∈ sourceIds ↔ t ∈ ids := by
  obtain ⟨sourceIds, hsource, hare, hmem⟩ := foldlM_threadIds h
  have hsame : ∀ t, t ∈ sourceIds ↔ t ∈ ids := fun t => by
    rw [hmem]
    exact (or_iff_right List.not_mem_nil).symm
  exact ⟨fun t ht => hare t ((hsame t).mpr ht), sourceIds, hsource, hsame⟩

/-! ### Parity -/

/-- **What the comparison finds of a migrated thread.** -/
theorem status_of_migrated {t : Text} (h : Migrated source u db t)
    (hhistory : source.getHistory u t ≠ []) :
    (compareThreadForUser source u db t).status = .matched := by
  obtain ⟨-, hread⟩ := h.resolve_left hhistory
  have hsource : (source.getHistory u t).map HistoryItem.message ≠ [] := by
    rwa [ne_eq, List.map_eq_nil_iff]
  have hrows : (db.getMessages u t).length ≠ 0 := by
    have hlength := congrArg List.length hread
    rw [List.length_map, snapshotOf, List.length_map] at hlength
    rw [hlength, ne_eq, List.length_eq_zero_iff]
    exact hhistory
  have hnormal : normalizeMessages ((source.getHistory u t).map HistoryItem.message) =
      normalizeMessages ((db.getMessages u t).map MessageRow.message) := by
    rw [hread, snapshotOf, normalizeMessages, normalizeMessages, List.map_map, List.map_map]
    refine List.map_congr_left fun item _ => ?_
    show (strip item.message.role, strip item.message.content) =
      (strip (strip item.message.role), strip (strip item.message.content))
    rw [strip_strip, strip_strip]
  rw [compareThreadForUser, compareHistorySnapshotToMessages]
  dsimp only
  rw [if_neg fun hboth => hsource hboth.1, if_neg hrows, if_neg hsource, if_pos hnormal]

/-- A thread without a history is neither missing in the database nor different there. -/
theorem status_of_no_history {t : Text} (hhistory : source.getHistory u t = []) :
    (compareThreadForUser source u db t).status = .emptyThread ∨
      (compareThreadForUser source u db t).status = .missingInSource := by
  rw [compareThreadForUser, compareHistorySnapshotToMessages, hhistory]
  by_cases hrows : (db.getMessages u t).length = 0
  · left
    exact if_pos ⟨rfl, hrows⟩
  · right
    dsimp only
    rw [if_neg fun hboth => hrows hboth.2, if_neg hrows]
    rfl

/-- **The report is as it should be after a migration**: every thread of the source that has a
history is found equal. Where the source has histories of no other threads, none at all is missing
in the database or different there. A comparison is refused only for a blank user, of whom no
thread has a history. -/
def InParityReport (source : ConversationSource) (u : Text) (ids : List Text)
    (report : Except MigrationError UserParityResult) : Prop :=
  match report with
  | .ok report =>
    (∀ t ∈ ids, source.getHistory u t ≠ [] → t ∈ report.matchedThreads ∧
      t ∉ report.missingInDbThreads ∧ t ∉ report.contentMismatchThreads) ∧
    ((∀ t, source.getHistory u t ≠ [] → t ∈ ids) →
      report.missingInDbThreads = [] ∧ report.contentMismatchThreads = [])
  | .error _ => ∀ t ∈ ids, source.getHistory u t = []

theorem inParityReport_of_migrated {ids : List Text}
    (hids : ∃ sourceIds, extractSourceThreadIds (source.listThreads u) = .ok sourceIds ∧
      ∀ t, t ∈ sourceIds ↔ t ∈ ids)
    (hmigrated : ∀ t ∈ ids, Migrated source u db t) :
    InParityReport source u ids (compareAllThreadsForUser source u db) := by
  obtain ⟨sourceIds, hsource, hmem⟩ := hids
  rw [compareAllThreadsForUser, hsource]
  -- For a blank name the store raises, and then no thread had a history.
  by_cases hu : strip u = []
  · have hlist : db.listThreads u = .error (.valueError "username".toList) := by
      rw [Database.listThreads, ConversationStore.requireNonEmpty, if_pos hu]
      rfl
    rw [hlist]
    exact fun t ht => (hmigrated t ht).resolve_right fun hrest => hrest.1 hu
  · have hlist : db.listThreads u =
        .ok (db.threads.filter fun row => row.username = strip u) := by
      rw [Database.listThreads, requireNonEmpty_ok _ hu]
      rfl
    rw [hlist]
    refine ⟨fun t ht hhistory => ?_, fun hclosed => ?_⟩
    · have hstatus := status_of_migrated (hmigrated t ht) hhistory
      refine ⟨List.mem_filter.mpr ⟨?_, decide_eq_true hstatus⟩, fun hmem => ?_, fun hmem => ?_⟩
      · rw [List.mem_insertionSort, List.mem_dedup]
        exact List.mem_append_left _ ((hmem t).mpr ht)
      · have hother := of_decide_eq_true (List.mem_filter.mp hmem).2
        rw [hstatus] at hother
        cases hother
      · have hother := of_decide_eq_true (List.mem_filter.mp hmem).2
        rw [hstatus] at hother
        cases hother
    · have hstatus : ∀ t, (compareThreadForUser source u db t).status ≠ .missingInDb ∧
          (compareThreadForUser source u db t).status ≠ .contentMismatch := by
        intro t
        by_cases hhistory : source.getHistory u t = []
        · rcases status_of_no_history hhistory with hs | hs
          · rw [hs]
            decide
          · rw [hs]
            decide
        · rw [status_of_migrated (hmigrated t (hclosed t hhistory)) hhistory]
          decide
      constructor
      · exact List.filter_eq_nil_iff.mpr fun t _ heq => (hstatus t).1 (of_decide_eq_true heq)
      · exact List.filter_eq_nil_iff.mpr fun t _ heq => (hstatus t).2 (of_decide_eq_true heq)

/-- **Migration establishes parity, and migrating again changes nothing.** -/
theorem parity_of_migrate (h : db.Keyed)
    (hproper : ∀ t, ∀ item ∈ source.getHistory u t, item.Proper) {result : UserMigrationResult}
    {db' : Database} (hok : migrateAllThreadsForUser source u db = (.ok result, db')) :
    ∃ ids, distinctThreadIds (source.listThreads u) = .ok ids ∧
      InParityReport source u ids (compareAllThreadsForUser source u db') ∧
      migrateAllThreadsForUser source u db' = (.ok result, db') ∧
      Spared u (fun t => t ∈ ids ∧ source.getHistory u t ≠ []) db db' := by
  rcases hids : distinctThreadIds (source.listThreads u) with e | ids
  · rw [migrateAllThreadsForUser, hids] at hok
    cases hok
  · rw [migrateAllThreadsForUser, hids, ClientM.run_check_ok] at hok
    obtain ⟨hare, hsame⟩ := distinctThreadIds_ok hids
    obtain ⟨hresult, hkeyed, hmigrated, hspared⟩ := run_migrateThreads h hproper hare hok
    have hall : ∀ t ∈ ids, Migrated source u db' t :=
      fun t ht => hmigrated t (hare t ht).2 (.inl ht)
    refine ⟨ids, rfl, inParityReport_of_migrated hsame hall, ?_, hspared⟩
    rw [migrateAllThreadsForUser, hids, ClientM.run_check_ok,
      run_migrateThreads_of_migrated hkeyed hproper hare hall, ← hresult]

end AllThreads

/-- A source with two threads of `anna`: one that is listed twice, and one without a history. -/
def smallSource : ConversationSource where
  listThreads := fun _ => [⟨some " t ".toList, none⟩, ⟨none, some "t".toList⟩,
    ⟨some "u".toList, none⟩]
  getHistory := fun _ t =>
    if t = "t".toList then
      [⟨some "user".toList, some " hello ".toList⟩, ⟨some "assistant".toList, some "hi".toList⟩]
    else []

/-- An older copy of it, and a thread of another user. -/
def olderCopy : List Call :=
  [.appendMessage "anna".toList "t".toList "user".toList "hello".toList,
    .appendMessage "otto".toList "t".toList "user".toList "other".toList]

/-- After the migration both messages are in the database. -/
theorem parity_of_migrate_small : ∃ result db' ids,
    migrateAllThreadsForUser smallSource "anna".toList (runCalls .empty olderCopy) =
      (.ok result, db') ∧
    InParityReport smallSource "anna".toList ids
      (compareAllThreadsForUser smallSource "anna".toList db') ∧
    migrateAllThreadsForUser smallSource "anna".toList db' = (.ok result, db') ∧
    Spared "anna".toList
      (fun t => t ∈ ids ∧ smallSource.getHistory "anna".toList t ≠ [])
      (runCalls .empty olderCopy) db' := by
  have hrun : (migrateAllThreadsForUser smallSource "anna".toList
      (runCalls .empty olderCopy)).1.toOption.isSome = true := by
    decide +kernel
  obtain ⟨result, hresult⟩ := Option.isSome_iff_exists.mp hrun
  have hok : migrateAllThreadsForUser smallSource "anna".toList (runCalls .empty olderCopy) =
      (.ok result, (migrateAllThreadsForUser smallSource "anna".toList
        (runCalls .empty olderCopy)).2) :=
    Prod.ext (eq_ok_of_toOption hresult) rfl
  have hproper : ∀ t, ∀ item ∈ smallSource.getHistory "anna".toList t, item.Proper := by
    intro t item hitem
    rw [smallSource] at hitem
    dsimp only at hitem
    by_cases ht : t = "t".toList
    · rw [if_pos ht] at hitem
      revert item
      decide +kernel
    · rw [if_neg ht] at hitem
      cases hitem
  have hkeyed : (runCalls .empty olderCopy).Keyed :=
    (holds_runCalls holds_empty olderCopy).tidy.toKeyed
  obtain ⟨ids, -, hreport, hagain, hspared⟩ := parity_of_migrate hkeyed hproper hok
  exact ⟨result, _, ids, hok, hreport, hagain, hspared⟩

end Chat

end AiAgent

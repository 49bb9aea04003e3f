import AiAgent.Budget.Parts
import AiAgent.Chat.Commands
import AiAgent.Chat.Coordinator

/-!
# Reading from either home of the conversations

The conversations are written to the chat store and, if the service is set so, to a database as
well. The routes that read them read the chat store, and then they may read the database too and
answer with what they found there. The database may be missing, or raise, or hold anything: what it
says is answered only if it agrees with what the chat store says.

So nothing of it is to be seen in an answer. The list of the threads is the same list but for the
times of the threads (`AiAgent.Chat.told_resolveThreadSummaries`), and the messages of a thread are
the same but for white space around them (`AiAgent.Chat.normalizeMessages_resolveThreadMessages`).
-/

namespace AiAgent

namespace Chat

open Text Budget

/-! ### Titles -/

/-- `"Новый чат"`. -/
def newChatTitle : Text := "Новый чат".toList

/-- `(title or "Новый чат").strip() or "Новый чат"`. -/
def normalizeTitle (title : Text) : Text :=
  let stripped := strip (if title = [] then newChatTitle else title)
  if stripped = [] then newChatTitle else stripped

theorem tight_newChatTitle : Tight newChatTitle := by
  constructor <;> decide

theorem normalizeTitle_of_tight {title : Text} (h : Tight title) (hne : title ≠ []) :
    normalizeTitle title = title := by
  simp [normalizeTitle, hne, strip_of_tight h]

/-- A title is tight once it is normalized. -/
theorem tight_normalizeTitle (title : Text) :
    Tight (normalizeTitle title) ∧ normalizeTitle title ≠ [] := by
  unfold normalizeTitle
  generalize (if title = [] then newChatTitle else title) = named
  by_cases hblank : strip named = []
  · rw [if_pos hblank]
    exact ⟨tight_newChatTitle, by decide⟩
  · rw [if_neg hblank]
    exact ⟨tight_strip _, hblank⟩

@[simp] theorem normalizeTitle_normalizeTitle (title : Text) :
    normalizeTitle (normalizeTitle title) = normalizeTitle title :=
  normalizeTitle_of_tight (tight_normalizeTitle title).1 (tight_normalizeTitle title).2

theorem isSpace_of_mem_splitOnP {t word : Text} (hword : word ∈ t.splitOnP isSpace) :
    ∀ c ∈ word, isSpace c = false := by
  induction t generalizing word with
  | nil =>
    simp only [List.splitOnP_nil, List.mem_singleton] at hword
    simp [hword]
  | cons a t ih =>
    rw [List.splitOnP_cons_eq_if_modifyHead] at hword
    split at hword
    · rcases List.mem_cons.mp hword with rfl | hword
      · simp
      · exact ih hword
    · rename_i ha
      rcases hsplit : t.splitOnP isSpace with - | ⟨first, rest⟩
      · exact absurd hsplit (List.splitOnP_ne_nil _ _)
      · rw [hsplit] at hword ih
        rcases List.mem_cons.mp hword with rfl | hword
        · intro c hc
          rcases List.mem_cons.mp hc with rfl | hc
          · simpa using ha
          · exact ih List.mem_cons_self c hc
        · exact ih (List.mem_cons_of_mem _ hword)

theorem tight_of_mem_words {t word : Text} (hword : word ∈ words t) : word ≠ [] ∧ Tight word := by
  obtain ⟨hsplit, hne⟩ := List.mem_filter.mp hword
  refine ⟨by simpa using hne, fun c hc => ?_, fun c hc => ?_⟩
  · exact isSpace_of_mem_splitOnP hsplit c (List.mem_of_mem_head? hc)
  · exact isSpace_of_mem_splitOnP hsplit c (List.mem_of_mem_getLast? hc)

/-- What is left of a message in a title. -/
theorem tight_join_words (t : Text) : Tight (join [' '] (words t)) :=
  tight_join [' '] fun _ hword => tight_of_mem_words hword

/-- A long title is cut, and ends with dots. -/
theorem tight_take_dots {content : Text} (htight : Tight content) (hne : content ≠ []) :
    Tight (content.take 48 ++ "...".toList) := by
  obtain ⟨a, rest, rfl⟩ := List.exists_cons_of_ne_nil hne
  refine ⟨fun c hc => htight.1 c (by simpa using hc), fun c hc => ?_⟩
  have hlast : ((a :: rest).take 48 ++ "...".toList).getLast? = some '.' := by
    rw [List.getLast?_append]
    rfl
  rw [hlast] at hc
  rw [← Option.some.inj hc]
  decide

/-- A title that is made of messages is tight. -/
theorem tight_buildThreadTitle (history : List Message) :
    Tight (buildThreadTitle history) ∧ buildThreadTitle history ≠ [] := by
  fun_induction buildThreadTitle history with
  | case1 => exact ⟨tight_newChatTitle, by decide⟩
  | case2 message history hrole ih => exact ih
  | case3 message history hrole content hempty ih => exact ih
  | case4 message history hrole content hne hlong =>
    exact ⟨tight_take_dots (tight_join_words _) hne, by simp⟩
  | case5 message history hrole content hne hshort => exact ⟨tight_join_words _, hne⟩

theorem normalizeTitle_buildThreadTitle (history : List Message) :
    normalizeTitle (buildThreadTitle history) = buildThreadTitle history :=
  normalizeTitle_of_tight (tight_buildThreadTitle history).1 (tight_buildThreadTitle history).2

/-! ### The list of the threads -/

/-- A thread as it is told to the browser. -/
structure ThreadView where
  /-- `id`. -/
  id : Text
  /-- `title`. -/
  title : Text
  /-- `updatedAt`, in milliseconds. -/
  updatedAt : ℕ
  /-- `messageCount`. -/
  messageCount : ℕ
  deriving DecidableEq

/-- `serialize_thread_summary`. -/
def serializeThreadSummary (thread : ThreadSummary) : ThreadView where
  id := normalizeChatThreadId (some thread.threadId)
  title := normalizeTitle thread.title
  updatedAt := thread.updatedAt * 1000
  messageCount := thread.messageCount

/-- `resolve_active_thread_id`. -/
def resolveActiveThreadId (threadId : Option Text) (threads : List ThreadView) : Text :=
  let requestedThreadId := normalizeChatThreadId threadId
  if threads.any fun thread => thread.id = requestedThreadId then requestedThreadId
  else
    match threads with
    | [] => defaultChatThreadId
    | thread :: _ => thread.id

/-- `find_thread_summary`. -/
def findThreadSummary (threads : List ThreadView) (threadId : Option Text) : Option ThreadView :=
  threads.find? fun thread => thread.id = normalizeChatThreadId threadId

/-! ### The other home -/

/-- Which answers may come from the database. -/
structure ReadSettings where
  /-- `PERSISTENT_DB_READ_THREADS`. -/
  readThreads : Bool
  /-- `PERSISTENT_DB_READ_MESSAGES`. -/
  readMessages : Bool

/-- A thread as the database lists it. -/
structure DbThread where
  /-- `thread_id`. -/
  threadId : Text
  /-- `updated_at`, in milliseconds. -/
  updatedAt : ℕ

/-- The database as a request finds it: a call may raise. -/
structure DbReader where
  /-- `list_threads`. -/
  listThreads : Text → Option (List DbThread)
  /-- `get_messages`. -/
  getMessages : Text → Text → Option (List MessageRow)

/-- `prepare_db_store_messages`. -/
def prepareDbStoreMessages (messages : List MessageRow) : List Message :=
  messages.map MessageRow.message

/-- `build_db_thread_summaries_from_store`. -/
def buildDbThreadSummariesFromStore (db : DbReader) (username : Text) :
    Option (List ThreadView) := do
  let threads ← db.listThreads username
  threads.mapM fun thread => do
    let history := prepareDbStoreMessages (← db.getMessages username thread.threadId)
    return ⟨normalizeChatThreadId (some thread.threadId), buildThreadTitle history,
      thread.updatedAt, history.length⟩

/-- What `summarize_thread_list_for_cutover_compare` tells of a thread. -/
def ThreadView.compared (thread : ThreadView) : Text × Text × ℕ :=
  (normalizeChatThreadId (some thread.id), normalizeTitle thread.title, thread.messageCount)

/-- `summarize_thread_list_for_cutover_compare`. -/
def summarizeThreadListForCutoverCompare (threads : List ThreadView) : List (Text × Text × ℕ) :=
  threads.map ThreadView.compared

section Resolve

variable (cfg : ReadSettings) (db : Option DbReader) (username : Text)

/-- `resolve_thread_summaries_for_read_response`. -/
def resolveThreadSummariesForReadResponse (redisThreads : List ThreadView) : List ThreadView :=
  if cfg.readThreads = false then redisThreads
  else
    match db with
    | none => redisThreads
    | some dbStore =>
      match buildDbThreadSummariesFromStore dbStore username with
      | none => redisThreads
      | some dbThreads =>
        if summarizeThreadListForCutoverCompare redisThreads =
            summarizeThreadListForCutoverCompare dbThreads then dbThreads
        else redisThreads

/-- `resolve_thread_messages_for_read_response`. -/
def resolveThreadMessagesForReadResponse (threadId : Text) (redisHistory : List Message) :
    List Message :=
  if cfg.readMessages = false then redisHistory
  else
    match db with
    | none => redisHistory
    | some dbStore =>
      match dbStore.getMessages username threadId with
      | none => redisHistory
      | some dbMessages =>
        let result := compareHistorySnapshotToMessages redisHistory dbMessages threadId
        if result.status = .matched ∨ result.status = .emptyThread then
          prepareDbStoreMessages dbMessages
        else redisHistory

end Resolve

/-! ### What is to be seen of it -/

/-- What is told of a thread, but for its time. -/
def ThreadView.told (thread : ThreadView) : Text × Text × ℕ :=
  (thread.id, thread.title, thread.messageCount)

/-- A thread is told of by an id and a title that are normalized. -/
structure ThreadView.Normal (thread : ThreadView) : Prop where
  /-- The id. -/
  id : normalizeChatThreadId (some thread.id) = thread.id
  /-- The title. -/
  title : normalizeTitle thread.title = thread.title

theorem ThreadView.Normal.compared {thread : ThreadView} (h : thread.Normal) :
    thread.compared = thread.told := by
  rw [ThreadView.compared, ThreadView.told, h.id, h.title]

@[simp] theorem normalizeChatThreadId_normalizeChatThreadId (threadId : Option Text) :
    normalizeChatThreadId (some (normalizeChatThreadId threadId)) =
      normalizeChatThreadId threadId := by
  rw [normalizeChatThreadId_eq, normalizeChatThreadId_eq, normalizeThreadId, Option.getD_some,
    strip_normalizeThreadId, if_neg (normalizeThreadId_ne_nil threadId)]

theorem normal_serializeThreadSummary (thread : ThreadSummary) :
    (serializeThreadSummary thread).Normal := by
  constructor <;> simp [serializeThreadSummary]

/-- What a loop over a list returns has been returned for one of its elements. -/
theorem exists_of_mem_mapM {α β : Type} {f : α → Option β} {l : List α} {l' : List β}
    (h : l.mapM f = some l') : ∀ b ∈ l', ∃ a ∈ l, f a = some b := by
  induction l generalizing l' with
  | nil =>
    rw [List.mapM_nil] at h
    obtain rfl := Option.some.inj h
    simp
  | cons a l ih =>
    rw [List.mapM_cons] at h
    obtain ⟨b, hb, h⟩ := Option.bind_eq_some_iff.mp h
    obtain ⟨bs, hbs, h⟩ := Option.bind_eq_some_iff.mp h
    obtain rfl := Option.some.inj h
    intro b' hb'
    rcases List.mem_cons.mp hb' with rfl | hb'
    · exact ⟨a, List.mem_cons_self, hb⟩
    · obtain ⟨a', ha', hfa'⟩ := ih hbs b' hb'
      exact ⟨a', List.mem_cons_of_mem _ ha', hfa'⟩

theorem normal_of_build {db : DbReader} {username : Text} {dbThreads : List ThreadView}
    (h : buildDbThreadSummariesFromStore db username = some dbThreads) :
    ∀ thread ∈ dbThreads, thread.Normal := by
  obtain ⟨threads, -, hbuild⟩ := Option.bind_eq_some_iff.mp h
  intro view hview
  obtain ⟨thread, -, hthread⟩ := exists_of_mem_mapM hbuild view hview
  obtain ⟨rows, -, hrows⟩ := Option.bind_eq_some_iff.mp hthread
  obtain rfl := Option.some.inj hrows
  constructor
  · exact normalizeChatThreadId_normalizeChatThreadId _
  · exact normalizeTitle_buildThreadTitle _

theorem map_compared {threads : List ThreadView} (h : ∀ thread ∈ threads, thread.Normal) :
    summarizeThreadListForCutoverCompare threads = threads.map ThreadView.told :=
  List.map_congr_left fun thread hthread => (h thread hthread).compared

/-- **Nothing of the database is to be seen in the list of the threads**, but for the times. -/
theorem told_resolveThreadSummaries (cfg : ReadSettings) (db : Option DbReader) (username : Text)
    {redisThreads : List ThreadView} (h : ∀ thread ∈ redisThreads, thread.Normal) :
    (resolveThreadSummariesForReadResponse cfg db username redisThreads).map ThreadView.told =
      redisThreads.map ThreadView.told := by
  unfold resolveThreadSummariesForReadResponse
  split
  · rfl
  rcases db with - | dbStore
  · rfl
  dsimp only
  rcases hbuild : buildDbThreadSummariesFromStore dbStore username with - | dbThreads
  · rfl
  dsimp only
  split
  · rename_i hsame
    rw [map_compared h, map_compared (normal_of_build hbuild)] at hsame
    exact hsame.symm
  · rfl

/-- **Nor in the messages of a thread**, but for white space around them. -/
theorem normalizeMessages_resolveThreadMessages (cfg : ReadSettings) (db : Option DbReader)
    (username threadId : Text) (redisHistory : List Message) :
    normalizeMessages (resolveThreadMessagesForReadResponse cfg db username threadId
      redisHistory) = normalizeMessages redisHistory := by
  unfold resolveThreadMessagesForReadResponse
  split
  · rfl
  rcases db with - | dbStore
  · rfl
  dsimp only
  rcases hread : dbStore.getMessages username threadId with - | dbMessages
  · rfl
  dsimp only
  split
  · rename_i hserved
    rw [compareHistorySnapshotToMessages] at hserved
    dsimp only at hserved
    rw [prepareDbStoreMessages]
    -- Only equal lists match, and only empty ones are an empty thread.
    split at hserved
    · rename_i hempty
      rw [hempty.1, List.length_eq_zero_iff.mp hempty.2]
      rfl
    · split at hserved
      · simp at hserved
      · split at hserved
        · simp at hserved
        · split at hserved
          · rename_i hsame
            exact hsame.symm
          · simp at hserved
  · rfl

/-- The same thread is found in lists that tell the same. -/
theorem told_findThreadSummary {threads threads' : List ThreadView}
    (h : threads.map ThreadView.told = threads'.map ThreadView.told) (threadId : Option Text) :
    (findThreadSummary threads threadId).map ThreadView.told =
      (findThreadSummary threads' threadId).map ThreadView.told := by
  have hfind : ∀ threads : List ThreadView,
      (findThreadSummary threads threadId).map ThreadView.told =
        (threads.map ThreadView.told).find? fun told =>
          told.1 = normalizeChatThreadId threadId := by
    intro threads
    rw [findThreadSummary, List.find?_map]
    rfl
  rw [hfind, hfind, h]

/-- The same thread is shown. -/
theorem resolveActiveThreadId_congr {threads threads' : List ThreadView}
    (h : threads.map ThreadView.told = threads'.map ThreadView.told) (threadId : Option Text) :
    resolveActiveThreadId threadId threads = resolveActiveThreadId threadId threads' := by
  have hresolve : ∀ threads : List ThreadView, resolveActiveThreadId threadId threads =
      if (threads.map ThreadView.told).any fun told => told.1 = normalizeChatThreadId threadId then
        normalizeChatThreadId threadId
      else (((threads.map ThreadView.told).head?).map Prod.fst).getD defaultChatThreadId := by
    intro threads
    unfold resolveActiveThreadId
    rw [List.any_map]
    rcases threads with - | ⟨thread, threads⟩ <;> rfl
  rw [hresolve, hresolve, h]

end Chat

end AiAgent

import AiAgent.Chat.Database
import AiAgent.Chat.Store

/-!
# Writing to both homes of the conversations

The coordinator makes every change of a conversation in the chat store and then, if it may, in the
database; what goes wrong there is logged and forgotten. The parity check compares what both hold
of a thread.

Both homes are described by one book, which says what messages every thread of every user was
given (`AiAgent.Chat.InParity`): the database holds them all, the chat store the last 100. So the
check finds the homes equal as long as a thread has no more than 100 messages
(`AiAgent.Chat.status_of_run`), and a longer thread to differ
(`AiAgent.Chat.not_parity_longThread`).
-/

namespace AiAgent

namespace Chat

open Text Budget

/-! ### The coordinator -/

/-- Both homes of the conversations. -/
structure Stores where
  chat : Store
  db : Database

def Stores.empty : Stores := ⟨.empty, .empty⟩

section Coordinator

variable (dualWriteEnabled : Bool) (now : ℕ) (s : Stores)

/-- `_mirror_best_effort`: an error is logged. -/
def mirrorBestEffort {α : Type} (db : Database) (action : Except EmptyField (α × Database)) :
    Database :=
  if dualWriteEnabled then
    match action with
    | .ok (_, db') => db'
    | .error _ => db
  else db

/-- `ensure_thread`. -/
def ensureThread (username : Text) (threadId : Option Text) : Except StoreError (Text × Stores) :=
  do
    let (createdThreadId, chat) ← s.chat.createThread now username threadId
    return (createdThreadId, ⟨chat, mirrorBestEffort dualWriteEnabled s.db
      (s.db.createOrGetThread username createdThreadId)⟩)

/-- `append_message`. -/
def appendMessage (username role content : Text) (threadId : Option Text) :
    Except StoreError Stores := do
  let chat ← s.chat.appendMessage now username role content threadId
  return ⟨chat, mirrorBestEffort dualWriteEnabled s.db
    (s.db.appendMessage username (normalizeThreadId threadId) role content)⟩

/-- `clear_thread`. -/
def clearThread (username : Text) (threadId : Option Text) (preserveThread : Bool) :
    Except StoreError Stores := do
  let chat ← s.chat.clearHistory now username threadId preserveThread
  return ⟨chat, mirrorBestEffort dualWriteEnabled s.db
    (if preserveThread then .ok (s.db.deleteThreadMessages username (normalizeThreadId threadId))
    else s.db.deleteThread username (normalizeThreadId threadId))⟩

/-- `_normalize_snapshot`: the messages of a chat role with something in them, stripped. -/
def normalizeSnapshot (messages : List Message) : List Message :=
  (messages.map fun item => (⟨strip item.role, strip item.content⟩ : Message)).filter fun item =>
    item.role ∈ chatMessageRoles ∧ item.content ≠ []

/-- The loop of `replace_thread_snapshot`. -/
def appendMessages (chat : Store) (username threadId : Text) (messages : List Message) :
    Except StoreError Store :=
  messages.foldlM
    (fun chat item => chat.appendMessage now username (strip item.role) (strip item.content)
      (some threadId)) chat

/-- `replace_thread_snapshot`. -/
def replaceThreadSnapshot (username threadId : Text) (messages : List Message) :
    Except StoreError Stores := do
  let normalizedMessages := normalizeSnapshot messages
  let cleared ← s.chat.clearHistory now username (some threadId) true
  let chat ← appendMessages now cleared username threadId normalizedMessages
  return ⟨chat, mirrorBestEffort dualWriteEnabled s.db
    (s.db.replaceThreadSnapshot username (normalizeThreadId (some threadId)) normalizedMessages)⟩

end Coordinator

/-! ### The parity check -/

inductive ParityStatus where
  | matched
  | missingInDb
  | missingInSource
  | contentMismatch
  | emptyThread
  deriving DecidableEq

structure ThreadParityResult where
  threadId : Text
  status : ParityStatus
  sourceMessageCount : ℕ
  dbMessageCount : ℕ

/-- `_normalize_source_messages`, and `_normalize_db_messages`. -/
def normalizeMessages (messages : List Message) : List (Text × Text) :=
  messages.map fun item => (strip item.role, strip item.content)

/-- `compare_history_snapshot_to_messages`. -/
def compareHistorySnapshotToMessages (sourceMessages : List Message) (dbMessages : List MessageRow)
    (threadId : Text) : ThreadParityResult where
  threadId := threadId
  status :=
    if sourceMessages = [] ∧ dbMessages.length = 0 then .emptyThread
    else if dbMessages.length = 0 then .missingInDb
    else if sourceMessages = [] then .missingInSource
    else if normalizeMessages sourceMessages =
        normalizeMessages (dbMessages.map MessageRow.message) then .matched
    else .contentMismatch
  sourceMessageCount := sourceMessages.length
  dbMessageCount := dbMessages.length

/-! ### Runs -/

/-- An operation of the coordinator. -/
inductive Op where
  | ensureThread (username : Text) (threadId : Option Text)
  | appendMessage (username role content : Text) (threadId : Option Text)
  | clearThread (username : Text) (threadId : Option Text) (preserveThread : Bool)
  | replaceThreadSnapshot (username threadId : Text) (messages : List Message)

/-- The user whose conversation the operation is about. -/
def Op.username : Op → Text
  | .ensureThread username _ | .appendMessage username _ _ _ | .clearThread username _ _
  | .replaceThreadSnapshot username _ _ => username

/-- One operation, with both homes in use. -/
def Op.run (now : ℕ) (s : Stores) : Op → Except StoreError Stores
  | .ensureThread username threadId => Prod.snd <$> Chat.ensureThread true now s username threadId
  | .appendMessage username role content threadId =>
    Chat.appendMessage true now s username role content threadId
  | .clearThread username threadId preserveThread =>
    Chat.clearThread true now s username threadId preserveThread
  | .replaceThreadSnapshot username threadId messages =>
    Chat.replaceThreadSnapshot true now s username threadId messages

/-- The operations one after the other, each at its time; none of them fails. -/
def runOps (s : Stores) (ops : List (ℕ × Op)) : Except StoreError Stores :=
  ops.foldlM (fun s op => op.2.run op.1 s) s

/-- What `normalize_username` lets through: Latin letters, digits, the hyphen, the dot and the
underscore. -/
def isUsernameChar (c : Char) : Bool :=
  (48 ≤ c.toNat && c.toNat ≤ 57) || (65 ≤ c.toNat && c.toNat ≤ 90) ||
    (97 ≤ c.toNat && c.toNat ≤ 122) || c.toNat == 45 || c.toNat == 46 || c.toNat == 95

/-- A name of a user. -/
def IsUsername (u : Text) : Prop := u ≠ [] ∧ ∀ c ∈ u, isUsernameChar c = true

instance (u : Text) : Decidable (IsUsername u) := inferInstanceAs (Decidable (_ ∧ _))

/-- The operations as they are called: for a user, and with messages of a chat role that are not
blank. -/
def Op.Proper : Op → Prop
  | .appendMessage username role content _ =>
    IsUsername username ∧ role ∈ chatMessageRoles ∧ strip content ≠ []
  | op => IsUsername op.username

instance (op : Op) : Decidable op.Proper :=
  match op with
  | .appendMessage .. => inferInstanceAs (Decidable (_ ∧ _ ∧ _))
  | .ensureThread .. | .clearThread .. | .replaceThreadSnapshot .. =>
    inferInstanceAs (Decidable (IsUsername _))

theorem IsUsername.notMem_colon {u : Text} (h : IsUsername u) : ':' ∉ u := fun hmem =>
  absurd (h.2 ':' hmem) (by decide)

theorem isSpace_eq_false_of_isUsernameChar {c : Char} (h : isUsernameChar c = true) :
    isSpace c = false := by
  by_contra hspace
  simp only [isUsernameChar, Bool.or_eq_true, Bool.and_eq_true, decide_eq_true_eq, beq_iff_eq] at h
  simp only [isSpace, Bool.not_eq_false, Bool.or_eq_true, Bool.and_eq_true, decide_eq_true_eq,
    beq_iff_eq] at hspace
  omega

theorem IsUsername.strip_eq {u : Text} (h : IsUsername u) : strip u = u := by
  refine strip_of_tight ⟨fun c hc => ?_, fun c hc => ?_⟩
  · exact isSpace_eq_false_of_isUsernameChar (h.2 c (List.mem_of_mem_head? hc))
  · exact isSpace_eq_false_of_isUsernameChar (h.2 c (List.mem_of_mem_getLast? hc))

/-! ### The book -/

/-- What messages every thread of every user was given. -/
abbrev Book := Text → Text → List Message

/-- The book with other messages for one thread. -/
def Book.set (book : Book) (username threadId : Text) (messages : List Message) : Book :=
  fun u t => if u = username ∧ t = threadId then messages else book u t

/-- The chat store shows the last messages of every thread but the one whose key is taken. -/
structure Shown (chat : Store) (book : Book) : Prop where
  registry : ∀ u, IsUsername u → chat.NoList (threadRegistryKey u)
  legacy : ∀ u, IsUsername u → chat (legacyHistoryKey u) = none
  threads : ∀ u t, IsUsername u → t ≠ "threads".toList → chat.HasThread u t (recent (book u t))

/-- The database keeps all messages of every thread. -/
structure Kept (db : Database) (book : Book) : Prop where
  sound : db.Sound
  threads : ∀ u t, IsUsername u → db.messagesOf u t = book u t

/-- **Both homes follow one book**, in which all messages have a chat role and the thread whose key
is taken has none. -/
structure InParity (s : Stores) (book : Book) : Prop where
  shown : Shown s.chat book
  kept : Kept s.db book
  roles : ∀ u t, ∀ m ∈ book u t, m.role ∈ chatMessageRoles
  taken : ∀ u, book u "threads".toList = []

theorem inParity_empty : InParity .empty fun _ _ => [] where
  shown := {
    registry := fun _ _ _ => nofun
    legacy := fun _ _ => rfl
    threads := fun _ _ _ _ => ⟨fun _ => rfl, .inl ⟨rfl, rfl⟩⟩ }
  kept := ⟨Database.sound_empty, fun u t _ => by
    rw [Database.messagesOf, Database.findThread]
    by_cases h : u = [] ∨ t = []
    · rw [if_pos h]
    · rw [if_neg h]
      rfl⟩
  roles := fun _ _ m hm => by cases hm
  taken := fun _ => rfl

/-- An operation on a thread leaves the keys of other users alone. -/
theorem eq_of_user_ne {chat chat' : Store} {u u' t : Text} (h : Store.Changes chat chat' u t)
    (hu : IsUsername u) (hu' : IsUsername u') (hne : u' ≠ u) :
    (∀ t', chat' (historyKey u' t') = chat (historyKey u' t')) ∧
      chat' (legacyHistoryKey u') = chat (legacyHistoryKey u') := by
  have hinj : ∀ t' t'', historyKey u' t' ≠ historyKey u t'' := fun t' t'' heq =>
    hne (historyKey_inj hu'.notMem_colon hu.notMem_colon heq).1
  refine ⟨fun t' => h.others _ (hinj t' t) (historyKey_ne_legacyHistoryKey hu.notMem_colon)
    (hinj t' _), h.others _ (historyKey_ne_legacyHistoryKey hu'.notMem_colon).symm
      (fun heq => hne (List.append_cancel_left heq))
      (historyKey_ne_legacyHistoryKey hu'.notMem_colon).symm⟩

/-- The chat store shows what one thread was given, if the operation changed nothing else. -/
theorem Shown.set {chat chat' : Store} {book : Book} {u t : Text} {messages : List Message}
    (h : Shown chat book) (hu : IsUsername u) (hchanges : Store.Changes chat chat' u t)
    (hregistry : chat'.NoList (threadRegistryKey u))
    (hthread : t ≠ "threads".toList → chat'.HasThread u t (recent messages)) :
    Shown chat' (book.set u t messages) := by
  have hlegacy : ∀ u', IsUsername u' → chat' (legacyHistoryKey u') = none := by
    intro u' hu'
    by_cases hsame : u' = u
    · rw [hsame]
      exact hchanges.legacy (h.legacy u hu)
    · rw [(eq_of_user_ne hchanges hu hu' hsame).2]
      exact h.legacy u' hu'
  refine ⟨?_, hlegacy, ?_⟩
  · intro u' hu'
    by_cases hsame : u' = u
    · rwa [hsame]
    · intro entries
      rw [threadRegistryKey, (eq_of_user_ne hchanges hu hu' hsame).1]
      exact h.registry u' hu' entries
  · intro u' t' hu' ht'
    rw [Book.set]
    by_cases hsame : u' = u ∧ t' = t
    · rw [if_pos hsame, hsame.1, hsame.2]
      exact hthread (by rwa [← hsame.2])
    · rw [if_neg hsame]
      refine (h.threads u' t' hu' ht').congr ?_ fun _ => hlegacy u' hu'
      by_cases hsameUser : u' = u
      · subst hsameUser
        exact hchanges.others _ (fun heq => hsame ⟨rfl, historyKey_injective heq⟩)
          (historyKey_ne_legacy _ _) fun heq => ht' (historyKey_injective heq)
      · exact (eq_of_user_ne hchanges hu hu' hsameUser).1 t'

theorem Kept.set {db db' : Database} {book : Book} {u t : Text} {messages : List Message}
    (h : Kept db book) (hsound : db'.Sound)
    (hmessages : ∀ u' t', db'.messagesOf u' t' =
      if u' = u ∧ t' = t then messages else db.messagesOf u' t') :
    Kept db' (book.set u t messages) where
  sound := hsound
  threads := by
    intro u' t' hu'
    rw [hmessages, Book.set]
    by_cases hsame : u' = u ∧ t' = t
    · rw [if_pos hsame, if_pos hsame]
    · rw [if_neg hsame, if_neg hsame]
      exact h.threads u' t' hu'

/-- Both homes follow the book with the messages one thread was given. -/
theorem InParity.set {s s' : Stores} {book : Book} {u t : Text} {messages : List Message}
    (h : InParity s book) (hshown : Shown s'.chat (book.set u t messages))
    (hkept : Kept s'.db (book.set u t messages))
    (hroles : ∀ m ∈ messages, m.role ∈ chatMessageRoles)
    (htaken : t = "threads".toList → messages = []) :
    InParity s' (book.set u t messages) where
  shown := hshown
  kept := hkept
  roles := by
    intro u' t' m hm
    rw [Book.set] at hm
    by_cases hsame : u' = u ∧ t' = t
    · rw [if_pos hsame] at hm
      exact hroles m hm
    · rw [if_neg hsame] at hm
      exact h.roles u' t' m hm
  taken := by
    intro u'
    rw [Book.set]
    by_cases hsame : u' = u ∧ "threads".toList = t
    · rw [if_pos hsame]
      exact htaken hsame.2.symm
    · rw [if_neg hsame]
      exact h.taken u'

/-! ### What one operation does to the book -/

theorem defaultChatThreadId_eq : defaultChatThreadId = ['d', 'e', 'f', 'a', 'u', 'l', 't'] := by
  delta defaultChatThreadId
  exact String.toList_ofList

theorem normalizeThreadId_ne_nil (threadId : Option Text) : normalizeThreadId threadId ≠ [] := by
  rw [normalizeThreadId]
  by_cases h : strip (threadId.getD []) = []
  · rw [if_pos h, defaultChatThreadId_eq]
    exact List.cons_ne_nil _ _
  · rw [if_neg h]
    exact h

/-- A normalized thread id has no white space at its ends. -/
theorem strip_normalizeThreadId (threadId : Option Text) :
    strip (normalizeThreadId threadId) = normalizeThreadId threadId := by
  rw [normalizeThreadId]
  by_cases h : strip (threadId.getD []) = []
  · rw [if_pos h, defaultChatThreadId_eq]
    decide
  · rw [if_neg h, strip_strip]

theorem strip_role {role : Text} (h : role ∈ chatMessageRoles) :
    strip role = role ∧ role ≠ [] := by
  rw [chatMessageRoles, String.toList_ofList, String.toList_ofList] at h
  revert role
  decide

/-- What is normalized has a chat role and is not blank, and nothing is left to strip. -/
theorem proper_normalizeSnapshot {messages : List Message} {m : Message}
    (h : m ∈ normalizeSnapshot messages) :
    m.role ∈ chatMessageRoles ∧ m.content ≠ [] ∧ strip m.content = m.content := by
  obtain ⟨hmem, hproper⟩ := List.mem_filter.mp h
  obtain ⟨hrole, hcontent⟩ := of_decide_eq_true hproper
  obtain ⟨item, -, rfl⟩ := List.mem_map.mp hmem
  exact ⟨hrole, hcontent, strip_strip _⟩

variable {s s' : Stores} {book : Book} {now : ℕ} {u t : Text}

theorem inParity_ensureThread (h : InParity s book) (hu : IsUsername u) {threadId : Option Text}
    {created : Text} (hok : ensureThread true now s u threadId = .ok (created, s')) :
    InParity s' book := by
  obtain ⟨⟨t, chat⟩, hchat, hpair⟩ := exists_of_bind_ok hok
  obtain ⟨rfl, hregistered⟩ := Store.createThread_ok hchat
  obtain ⟨row, db', hdb, hsound, hmessages⟩ := Database.createOrGetThread_ok h.kept.sound
    (by rw [hu.strip_eq]; exact hu.1)
    (by rw [strip_normalizeThreadId]; exact normalizeThreadId_ne_nil threadId)
  obtain rfl := (congrArg Prod.snd (Except.ok.inj hpair)).symm
  -- The book stays; it is set to what it says.
  have hbook : book.set u (normalizeThreadId threadId) (book u (normalizeThreadId threadId)) =
      book := by
    funext u' t'
    rw [Book.set]
    by_cases hsame : u' = u ∧ t' = normalizeThreadId threadId
    · rw [if_pos hsame, hsame.1, hsame.2]
    · rw [if_neg hsame]
  rw [← hbook]
  refine h.set (h.shown.set hu hregistered.changes hregistered.noList fun ht =>
    (h.shown.threads u _ hu ht).registered hregistered ht) ?_ (h.roles u _) fun ht => ?_
  · rw [hbook]
    dsimp only [mirrorBestEffort]
    rw [if_pos rfl, hdb]
    exact ⟨hsound, fun u' t' hu' => (hmessages u' t').trans (h.kept.threads u' t' hu')⟩
  · rw [ht]
    exact h.taken u

theorem inParity_appendMessage (h : InParity s book) (hu : IsUsername u) {role content : Text}
    {threadId : Option Text} (hrole : role ∈ chatMessageRoles) (hcontent : strip content ≠ [])
    (hok : appendMessage true now s u role content threadId = .ok s') :
    InParity s' (book.set u (normalizeThreadId threadId)
      (book u (normalizeThreadId threadId) ++ [⟨role, content⟩])) := by
  obtain ⟨chat, hchat, hpair⟩ := exists_of_bind_ok hok
  obtain rfl := (Except.ok.inj hpair).symm
  have happend := fun messages => Store.appendMessage_ok messages hchat
  obtain ⟨hne, hlist, -⟩ := happend []
  obtain ⟨hthread, hchanges⟩ := (happend _).2.2 (h.shown.threads u _ hu hne)
  have hnonempty : content ≠ [] := by
    rintro rfl
    exact hcontent rfl
  obtain ⟨row, db', hdb, hsound, hmessages⟩ := Database.appendMessage_ok h.kept.sound
    (by rw [hu.strip_eq]; exact hu.1)
    (by rw [strip_normalizeThreadId]; exact normalizeThreadId_ne_nil threadId)
    (by rw [(strip_role hrole).1]; exact (strip_role hrole).2) hnonempty
  rw [recent_append_singleton] at hthread
  refine h.set (h.shown.set hu hchanges hlist fun _ => hthread) ?_ (fun m hm => ?_)
    fun ht => absurd ht hne
  · dsimp only [mirrorBestEffort]
    rw [if_pos rfl, hdb]
    refine h.kept.set hsound fun u' t' => ?_
    rw [hmessages, hu.strip_eq, strip_normalizeThreadId, (strip_role hrole).1,
      h.kept.threads u _ hu]
  · rcases List.mem_append.mp hm with hm | hm
    · exact h.roles u _ m hm
    · rw [List.mem_singleton.mp hm]
      exact hrole

theorem inParity_clearThread (h : InParity s book) (hu : IsUsername u) {threadId : Option Text}
    {preserveThread : Bool} (hok : clearThread true now s u threadId preserveThread = .ok s') :
    InParity s' (book.set u (normalizeThreadId threadId) []) := by
  obtain ⟨chat, hchat, hpair⟩ := exists_of_bind_ok hok
  obtain rfl := (Except.ok.inj hpair).symm
  obtain ⟨hlist, hchanges, hthread⟩ := Store.clearHistory_ok hchat
  refine h.set (h.shown.set hu hchanges hlist hthread) ?_ (fun m hm => by cases hm) fun _ => rfl
  dsimp only [mirrorBestEffort]
  rw [if_pos rfl]
  cases preserveThread with
  | true =>
    obtain ⟨hsound, hmessages⟩ := Database.deleteThreadMessages_ok h.kept.sound u
      (normalizeThreadId threadId)
    rw [hu.strip_eq, strip_normalizeThreadId] at hmessages
    exact h.kept.set hsound hmessages
  | false =>
    obtain ⟨n, db', hdb, hsound, hmessages⟩ := Database.deleteThread_ok h.kept.sound
      (by rw [hu.strip_eq]; exact hu.1)
      (by rw [strip_normalizeThreadId]; exact normalizeThreadId_ne_nil threadId)
    rw [hu.strip_eq, strip_normalizeThreadId] at hmessages
    rw [if_neg Bool.false_ne_true, hdb]
    exact h.kept.set hsound hmessages

/-- The loop over a snapshot appends its messages one after the other. -/
theorem appendMessages_ok {chat chat' : Store} {added : List Message}
    (hlist : chat.NoList (threadRegistryKey u))
    (hok : appendMessages now chat u t added = .ok chat') :
    chat'.NoList (threadRegistryKey u) ∧
      (added ≠ [] → normalizeThreadId (some t) ≠ "threads".toList) ∧
      ∀ messages, chat.HasThread u (normalizeThreadId (some t)) (recent messages) →
        chat'.HasThread u (normalizeThreadId (some t))
            (recent (messages ++ added.map fun m => ⟨strip m.role, strip m.content⟩)) ∧
          Store.Changes chat chat' u (normalizeThreadId (some t)) := by
  induction added generalizing chat with
  | nil =>
    obtain rfl := Except.ok.inj hok
    refine ⟨hlist, fun h => absurd rfl h, fun messages hthread => ⟨?_, .refl _ _ _⟩⟩
    rw [List.map_nil, List.append_nil]
    exact hthread
  | cons m added ih =>
    rw [appendMessages, List.foldlM_cons] at hok
    obtain ⟨chat₁, hfirst, hrest⟩ := exists_of_bind_ok hok
    have happend := fun messages => Store.appendMessage_ok messages hfirst
    obtain ⟨hne, hlist₁, -⟩ := happend []
    obtain ⟨hlist', -, hrun⟩ := ih hlist₁ hrest
    refine ⟨hlist', fun _ => hne, fun messages hthread => ?_⟩
    obtain ⟨hthread₁, hchanges₁⟩ := (happend _).2.2 hthread
    rw [recent_append_singleton] at hthread₁
    obtain ⟨hthread', hchanges'⟩ := hrun _ hthread₁
    rw [List.append_assoc] at hthread'
    exact ⟨hthread', hchanges₁.trans hchanges'⟩

theorem inParity_replaceThreadSnapshot (h : InParity s book) (hu : IsUsername u)
    {messages : List Message}
    (hok : replaceThreadSnapshot true now s u t messages = .ok s') :
    InParity s' (book.set u (normalizeThreadId (some t)) (normalizeSnapshot messages)) := by
  obtain ⟨cleared, hcleared, hrest⟩ := exists_of_bind_ok hok
  obtain ⟨chat, hchat, hpair⟩ := exists_of_bind_ok hrest
  obtain rfl := (Except.ok.inj hpair).symm
  obtain ⟨hlist, hchanges, hthread⟩ := Store.clearHistory_ok hcleared
  obtain ⟨hlist', hne, hrun⟩ := appendMessages_ok hlist hchat
  have hstrip : (normalizeSnapshot messages).map
      (fun m => (⟨strip m.role, strip m.content⟩ : Message)) = normalizeSnapshot messages := by
    refine (List.map_congr_left fun m hm => ?_).trans (List.map_id _)
    obtain ⟨hrole, -, hcontent⟩ := proper_normalizeSnapshot hm
    show (⟨strip m.role, strip m.content⟩ : Message) = m
    rw [(strip_role hrole).1, hcontent]
  rw [hstrip] at hrun
  obtain ⟨rows, db', hdb, hsound, hmessages⟩ := Database.replaceThreadSnapshot_ok h.kept.sound
    (by rw [hu.strip_eq]; exact hu.1)
    (by rw [strip_normalizeThreadId]; exact normalizeThreadId_ne_nil (some t))
    fun m hm => by
      obtain ⟨hrole, hcontent, hstripped⟩ := proper_normalizeSnapshot hm
      rw [(strip_role hrole).1, hstripped]
      exact ⟨(strip_role hrole).2, hcontent⟩
  rw [hu.strip_eq, strip_normalizeThreadId, hstrip] at hmessages
  -- Under the name of the registry nothing can be appended, so there was nothing to append.
  have htaken : normalizeThreadId (some t) = "threads".toList → normalizeSnapshot messages = [] :=
    fun ht => by_contra fun hnil => hne hnil ht
  have hchanges' : Store.Changes s.chat chat u (normalizeThreadId (some t)) := by
    by_cases ht : normalizeThreadId (some t) = "threads".toList
    · rw [htaken ht] at hchat
      obtain rfl := Except.ok.inj hchat
      exact hchanges
    · exact hchanges.trans (hrun [] (hthread ht)).2
  refine h.set (h.shown.set hu hchanges' hlist' fun ht => (hrun [] (hthread ht)).1) ?_
    (fun m hm => (proper_normalizeSnapshot hm).1) htaken
  dsimp only [mirrorBestEffort]
  rw [if_pos rfl, hdb]
  exact h.kept.set hsound hmessages

/-! ### Every run -/

/-- **One operation keeps both homes at one book.** -/
theorem inParity_run (h : InParity s book) {op : Op} (hop : op.Proper)
    (hok : op.run now s = .ok s') :
    ∃ book', InParity s' book' := by
  cases op with
  | ensureThread username threadId =>
    obtain ⟨⟨created, s₁⟩, hrun, hpair⟩ := exists_of_bind_ok hok
    obtain rfl := Except.ok.inj hpair
    exact ⟨_, inParity_ensureThread h hop hrun⟩
  | appendMessage username role content threadId =>
    exact ⟨_, inParity_appendMessage h hop.1 hop.2.1 hop.2.2 hok⟩
  | clearThread username threadId preserveThread => exact ⟨_, inParity_clearThread h hop hok⟩
  | replaceThreadSnapshot username threadId messages =>
    exact ⟨_, inParity_replaceThreadSnapshot h hop hok⟩

theorem inParity_runOps {ops : List (ℕ × Op)} (hops : ∀ op ∈ ops, op.2.Proper)
    (h : InParity s book) (hok : runOps s ops = .ok s') : ∃ book', InParity s' book' := by
  induction ops generalizing s book with
  | nil =>
    obtain rfl := Except.ok.inj hok
    exact ⟨book, h⟩
  | cons op ops ih =>
    rw [runOps, List.foldlM_cons] at hok
    obtain ⟨s₁, hfirst, hrest⟩ := exists_of_bind_ok hok
    obtain ⟨book₁, h₁⟩ := inParity_run h (hops op List.mem_cons_self) hfirst
    exact ih (fun op' hop' => hops op' (List.mem_cons_of_mem op hop')) h₁ hrest

/-! ### Parity -/

/-- The chat store shows the last messages of what the database holds. -/
theorem history_of_inParity (h : InParity s book) (hu : IsUsername u) (ht : strip t ≠ [])
    {history : List Message} {chat : Store}
    (hok : s.chat.getHistory now u (some t) = .ok (history, chat)) :
    history = recent ((s.db.getMessages u t).map MessageRow.message) := by
  have hnormal : normalizeThreadId (some t) = strip t := if_neg ht
  rw [Database.map_getMessages h.kept.sound, hu.strip_eq, h.kept.threads u _ hu]
  by_cases htaken : strip t = "threads".toList
  · rw [htaken, h.taken]
    exact Store.getHistory_taken (h.shown.registry u hu) (hnormal.trans htaken) hok
  · have hthread := h.shown.threads u (strip t) hu htaken
    rw [← hnormal] at hthread htaken
    rw [Store.getHistory_ok hthread htaken hok, hnormal, List.filter_eq_self.mpr, recent_recent]
    intro m hm
    exact decide_eq_true (h.roles u _ m (List.mem_of_mem_drop hm))

/-- **What the parity check finds** where the chat store shows the last messages of the database. -/
theorem status_of_recent (rows : List MessageRow) (threadId : Text) :
    (compareHistorySnapshotToMessages (recent (rows.map MessageRow.message)) rows threadId).status =
      if rows.length = 0 then .emptyThread
      else if rows.length ≤ maxHistory then .matched
      else .contentMismatch := by
  rw [compareHistorySnapshotToMessages]
  dsimp only
  rcases Nat.eq_zero_or_pos rows.length with hempty | hpos
  · obtain rfl := List.length_eq_zero_iff.mp hempty
    rfl
  · have hne : recent (rows.map MessageRow.message) ≠ [] := by
      intro hnil
      have hlength := length_recent (rows.map MessageRow.message)
      rw [hnil, List.length_nil, List.length_map] at hlength
      have hmax : 0 < maxHistory := by decide
      omega
    rw [if_neg (fun hboth => hne hboth.1), if_neg hpos.ne', if_neg hne, if_neg hpos.ne']
    by_cases hle : rows.length ≤ maxHistory
    · rw [if_pos hle, recent_of_length_le (by rwa [List.length_map]), if_pos rfl]
    · rw [if_neg hle, if_neg]
      intro heq
      have hlength := congrArg List.length heq
      rw [normalizeMessages, normalizeMessages, List.length_map, List.length_map, length_recent,
        List.length_map] at hlength
      omega

/-- **The homes are in parity for threads of up to 100 messages**: after every run of the
coordinator the chat store shows the last 100 messages of every thread in the database, and the
check finds them equal precisely if there are no more. -/
theorem status_of_run {ops : List (ℕ × Op)} (hops : ∀ op ∈ ops, op.2.Proper) {s : Stores}
    (hrun : runOps .empty ops = .ok s) {u t : Text} (hu : IsUsername u) (ht : strip t ≠ [])
    {now : ℕ} {history : List Message} {chat : Store}
    (hok : s.chat.getHistory now u (some t) = .ok (history, chat)) :
    history = recent ((s.db.getMessages u t).map MessageRow.message) ∧
      (compareHistorySnapshotToMessages history (s.db.getMessages u t) t).status =
        if (s.db.getMessages u t).length = 0 then .emptyThread
        else if (s.db.getMessages u t).length ≤ maxHistory then .matched
        else .contentMismatch := by
  obtain ⟨book, h⟩ := inParity_runOps hops inParity_empty hrun
  have hhistory := history_of_inParity h hu ht hok
  refine ⟨hhistory, ?_⟩
  rw [hhistory]
  exact status_of_recent _ t

/-- A question and its answer, a snapshot of one message, and a thread that is cleared. -/
def smallOps : List (ℕ × Op) :=
  [(1, .ensureThread "anna".toList (some "t".toList)),
    (2, .appendMessage "anna".toList "user".toList " hello ".toList (some "t".toList)),
    (3, .appendMessage "anna".toList "assistant".toList "hi".toList (some "t".toList)),
    (4, .replaceThreadSnapshot "anna".toList "u".toList [⟨"user".toList, "x".toList⟩]),
    (5, .clearThread "anna".toList none false)]

theorem eq_ok_of_toOption {ε α : Type} {x : Except ε α} {a : α} (h : x.toOption = some a) :
    x = .ok a := by
  cases x with
  | error e => cases h
  | ok b => rw [Option.some.inj h]

/-- After it both messages of the thread are found in both homes. -/
theorem status_of_run_small : ∃ s history chat, runOps .empty smallOps = .ok s ∧
    Store.getHistory s.chat 9 "anna".toList (some "t".toList) = .ok (history, chat) ∧
    (s.db.getMessages "anna".toList "t".toList).length = 2 ∧
    (compareHistorySnapshotToMessages history (s.db.getMessages "anna".toList "t".toList)
      "t".toList).status = .matched := by
  have hrun : (runOps .empty smallOps).toOption.any (fun s =>
      (Store.getHistory s.chat 9 "anna".toList (some "t".toList)).toOption.any fun _ =>
        decide ((s.db.getMessages "anna".toList "t".toList).length = 2)) = true := by
    decide +kernel
  obtain ⟨s, hs, hread⟩ := (Option.any_eq_true _ _).mp hrun
  obtain ⟨⟨history, chat⟩, hhistory, hlength⟩ := (Option.any_eq_true _ _).mp hread
  have hlength := of_decide_eq_true hlength
  have hstatus := (status_of_run (by decide +kernel) (eq_ok_of_toOption hs) (by decide +kernel)
    (by decide +kernel) (eq_ok_of_toOption hhistory)).2
  rw [hlength] at hstatus
  exact ⟨s, history, chat, eq_ok_of_toOption hs, eq_ok_of_toOption hhistory, hlength, hstatus⟩

/-- The same question again. -/
def repeatedOp : ℕ × Op :=
  (1, .appendMessage "anna".toList "user".toList "hello".toList (some "t".toList))

theorem runOps_concat (s : Stores) (ops : List (ℕ × Op)) (op : ℕ × Op) :
    runOps s (ops ++ [op]) = runOps s ops >>= fun s' => op.2.run op.1 s' := by
  rw [runOps, List.foldlM_append]
  refine congrArg _ (funext fun s' => ?_)
  rw [List.foldlM_cons]
  exact bind_pure _

/-- A question can be asked as often as one likes. -/
theorem exists_runOps_repeated (n : ℕ) : ∃ s book,
    runOps .empty (List.replicate n repeatedOp) = .ok s ∧ InParity s book ∧
      (book "anna".toList "t".toList).length = n := by
  induction n with
  | zero => exact ⟨_, _, rfl, inParity_empty, rfl⟩
  | succ n ih =>
    obtain ⟨s, book, hrun, h, hlength⟩ := ih
    have hu : IsUsername "anna".toList := by decide +kernel
    have hnormal : normalizeThreadId (some "t".toList) = "t".toList := by decide +kernel
    have hne : "t".toList ≠ "threads".toList := by decide +kernel
    have hthread := h.shown.threads _ _ hu hne
    rw [← hnormal] at hthread hne
    obtain ⟨chat, hchat⟩ := Store.exists_appendMessage 1 "user".toList "hello".toList hthread
      (h.shown.registry _ hu) hne
    have hstep : ∃ s', appendMessage true 1 s "anna".toList "user".toList "hello".toList
        (some "t".toList) = .ok s' := by
      rw [appendMessage, hchat]
      exact ⟨_, rfl⟩
    obtain ⟨s', hs'⟩ := hstep
    have h' := inParity_appendMessage h hu (by decide +kernel) (by decide +kernel) hs'
    rw [hnormal] at h'
    refine ⟨s', _, ?_, h', ?_⟩
    · rw [List.replicate_succ', runOps_concat, hrun]
      exact hs'
    · rw [Book.set, if_pos ⟨rfl, rfl⟩, List.length_append, hlength]
      rfl

/-- **A thread of 101 messages is found to differ**: the chat store has forgotten the first. -/
theorem not_parity_longThread : ¬ ∀ ops : List (ℕ × Op), (∀ op ∈ ops, op.2.Proper) →
    ∀ s, runOps .empty ops = .ok s → ∀ u t, IsUsername u → strip t ≠ [] →
      ∀ now history chat, s.chat.getHistory now u (some t) = .ok (history, chat) →
        (compareHistorySnapshotToMessages history (s.db.getMessages u t) t).status = .matched ∨
          (compareHistorySnapshotToMessages history (s.db.getMessages u t) t).status =
            .emptyThread := by
  intro hparity
  obtain ⟨s, book, hrun, h, hlength⟩ := exists_runOps_repeated 101
  have hu : IsUsername "anna".toList := by decide +kernel
  have hstrip : strip "t".toList = "t".toList := by decide +kernel
  have hnormal : normalizeThreadId (some "t".toList) = "t".toList := by decide +kernel
  have hne : "t".toList ≠ "threads".toList := by decide +kernel
  have hthread := h.shown.threads _ _ hu hne
  rw [← hnormal] at hthread hne
  obtain ⟨history, chat, hok⟩ := Store.exists_getHistory 2 hthread hne (h.shown.registry _ hu)
  have hblank : strip "t".toList ≠ [] := by decide +kernel
  have hrows : (s.db.getMessages "anna".toList "t".toList).length = 101 := by
    rw [Database.length_getMessages h.kept.sound, hu.strip_eq, hstrip, h.kept.threads _ _ hu,
      hlength]
  have hproper : ∀ op ∈ List.replicate 101 repeatedOp, op.2.Proper := by
    intro op hop
    rw [List.eq_of_mem_replicate hop]
    decide +kernel
  have hstatus := hparity _ hproper s hrun _ _ hu hblank 2 history chat hok
  rw [history_of_inParity h hu hblank hok, status_of_recent, hrows, if_neg (by decide),
    if_neg (by decide)] at hstatus
  revert hstatus
  decide

end Chat

end AiAgent

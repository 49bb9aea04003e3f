import AiAgent.Budget.History
import Mathlib.Logic.Function.Basic

/-!
# The chat store

The conversations of the users are lists in a Redis of their own: `chat:<user>:<thread>` holds the
messages of a thread as JSON objects, and `chat:<user>:threads` the user's threads with the time of
their last change. The messages of the default thread may still stand under `chat:<user>`, from
where they are moved when the thread is looked at. Every append cuts the list down to its last 100
messages.

A command that meets a value of the wrong type is refused, and the operation ends with that error:
the key of the thread list is also the key of a thread called `threads`.

What is proved here is how the keys of a user are told apart, and what one operation that succeeds
makes of the list of one thread (`AiAgent.Chat.Store.messages`).
-/

namespace AiAgent

namespace Chat

open Text Budget

/-! ### Keys and values -/

/-- A message as it is stored. -/
structure Entry where
  role : Text
  content : Text
  createdAt : ℕ

/-- The message without its time. -/
def Entry.message (e : Entry) : Message := ⟨e.role, e.content⟩

/-- What a key holds: a list of messages, or members with their scores. -/
inductive Value where
  | list (entries : List Entry)
  | sorted (members : List (Text × ℕ))

/-- The commands refuse a value of the wrong type. -/
inductive StoreError where
  | wrongType

/-- The chat store: its keys and their values. -/
abbrev Store := Text → Option Value

/-- The empty store. -/
def Store.empty : Store := fun _ => none

def defaultChatThreadId : Text := "default".toList

def maxHistory : ℕ := 100

/-- The last messages, as many as are kept. -/
def recent {α : Type} (l : List α) : List α := l.drop (l.length - maxHistory)

/-- `normalize_thread_id`. -/
def normalizeThreadId (threadId : Option Text) : Text :=
  let normalized := strip (threadId.getD [])
  if normalized = [] then defaultChatThreadId else normalized

def legacyHistoryKey (username : Text) : Text := "chat:".toList ++ username

/-- `history_key`, for a thread id that is normalized. -/
def historyKey (username threadId : Text) : Text :=
  "chat:".toList ++ (username ++ (':' :: threadId))

def threadRegistryKey (username : Text) : Text := historyKey username "threads".toList

/-! ### Commands -/

namespace Store

variable (s : Store)

/-- `LRANGE key 0 -1`. -/
def lrange (key : Text) : Except StoreError (List Entry) :=
  match s key with
  | none => .ok []
  | some (.list entries) => .ok entries
  | some (.sorted _) => .error .wrongType

/-- The transaction of `RPUSH key entry ..` and `LTRIM key -100 -1`. -/
def rpushTrim (key : Text) (added : List Entry) : Except StoreError Store := do
  let entries ← s.lrange key
  return Function.update s key (some (.list (recent (entries ++ added))))

/-- `DEL key`. -/
def delete (key : Text) : Store := Function.update s key none

/-- `ZADD key {member: score}`. -/
def zadd (key member : Text) (score : ℕ) : Except StoreError Store :=
  match s key with
  | none => .ok (Function.update s key (some (.sorted [(member, score)])))
  | some (.sorted members) =>
    .ok (Function.update s key
      (some (.sorted ((member, score) :: members.filter fun m => m.1 ≠ member))))
  | some (.list _) => .error .wrongType

/-- `ZREM key member`; a key without members is gone. -/
def zrem (key member : Text) : Except StoreError Store :=
  match s key with
  | none => .ok s
  | some (.sorted members) =>
    let rest := members.filter fun m => m.1 ≠ member
    .ok (Function.update s key (if rest = [] then none else some (.sorted rest)))
  | some (.list _) => .error .wrongType

/-! ### Operations -/

/-- `_touch_thread_registry`; no time means now. -/
def touchThreadRegistry (now : ℕ) (username threadId : Text) (updatedAt : ℕ) :
    Except StoreError Store :=
  s.zadd (threadRegistryKey username) threadId (if updatedAt = 0 then now else updatedAt)

/-- `_latest_history_timestamp`. -/
def latestHistoryTimestamp (key : Text) : Except StoreError ℕ := do
  return ((← s.lrange key).getLast?.map Entry.createdAt).getD 0

/-- `_migrate_legacy_default_history_if_needed`. -/
def migrateLegacyDefaultHistoryIfNeeded (now : ℕ) (username threadKey : Text) :
    Except StoreError Store := do
  let existingEntries ← s.lrange threadKey
  if existingEntries ≠ [] then
    s.touchThreadRegistry now username defaultChatThreadId (← s.latestHistoryTimestamp threadKey)
  else
    let legacyEntries ← s.lrange (legacyHistoryKey username)
    if legacyEntries = [] then return s
    else
      let moved := (← s.rpushTrim threadKey legacyEntries).delete (legacyHistoryKey username)
      moved.touchThreadRegistry now username defaultChatThreadId
        (← moved.latestHistoryTimestamp threadKey)

/-- The migration that every look at the default thread begins with. -/
def migrateIfDefault (now : ℕ) (username threadId : Text) : Except StoreError Store :=
  if threadId = defaultChatThreadId then
    s.migrateLegacyDefaultHistoryIfNeeded now username (historyKey username threadId)
  else .ok s

/-- `append_message`. -/
def appendMessage (now : ℕ) (username role content : Text) (threadId : Option Text) :
    Except StoreError Store := do
  let normalizedThreadId := normalizeThreadId threadId
  let migrated ← s.migrateIfDefault now username normalizedThreadId
  let pushed ← migrated.rpushTrim (historyKey username normalizedThreadId) [⟨role, content, now⟩]
  pushed.touchThreadRegistry now username normalizedThreadId now

/-- `create_thread`. -/
def createThread (now : ℕ) (username : Text) (threadId : Option Text) :
    Except StoreError (Text × Store) := do
  let normalizedThreadId := normalizeThreadId threadId
  return (normalizedThreadId, ← s.touchThreadRegistry now username normalizedThreadId now)

/-- `_decode_history_entries`. -/
def decodeHistoryEntries (key : Text) : Except StoreError (List Message) := do
  return recent (((← s.lrange key).map Entry.message).filter fun m => m.role ∈ chatMessageRoles)

/-- `get_history`. -/
def getHistory (now : ℕ) (username : Text) (threadId : Option Text) :
    Except StoreError (List Message × Store) := do
  let normalizedThreadId := normalizeThreadId threadId
  let migrated ← s.migrateIfDefault now username normalizedThreadId
  let history ← migrated.decodeHistoryEntries (historyKey username normalizedThreadId)
  if history = [] then return (history, migrated)
  else
    return (history, ← migrated.touchThreadRegistry now username normalizedThreadId
      (← migrated.latestHistoryTimestamp (historyKey username normalizedThreadId)))

/-- `clear_history`. -/
def clearHistory (now : ℕ) (username : Text) (threadId : Option Text) (preserveThread : Bool) :
    Except StoreError Store :=
  let normalizedThreadId := normalizeThreadId threadId
  let deleted := s.delete (historyKey username normalizedThreadId)
  let cleared :=
    if normalizedThreadId = defaultChatThreadId then deleted.delete (legacyHistoryKey username)
    else deleted
  if preserveThread then cleared.touchThreadRegistry now username normalizedThreadId now
  else cleared.zrem (threadRegistryKey username) normalizedThreadId

end Store

/-! ### Telling the keys of a user apart -/

theorem historyKey_injective {username : Text} {t t' : Text}
    (h : historyKey username t = historyKey username t') : t = t' := by
  have htail := List.append_cancel_left (List.append_cancel_left h)
  exact (List.cons.inj htail).2

theorem historyKey_ne_legacy (username t : Text) :
    historyKey username t ≠ legacyHistoryKey username := by
  intro h
  -- What follows the user's name is empty on the right only.
  have htail := List.append_cancel_left h
  exact List.cons_ne_nil _ _ (List.append_right_eq_self.mp htail)

theorem threadRegistryKey_ne_legacy (username : Text) :
    threadRegistryKey username ≠ legacyHistoryKey username := historyKey_ne_legacy username _

theorem threadRegistryKey_ne_historyKey {username t : Text} (ht : t ≠ "threads".toList) :
    threadRegistryKey username ≠ historyKey username t := fun h => ht (historyKey_injective h).symm

theorem append_colon_inj {u u' t t' : Text} (hu : ':' ∉ u) (hu' : ':' ∉ u')
    (h : u ++ (':' :: t) = u' ++ (':' :: t')) : u = u' ∧ t = t' := by
  induction u generalizing u' with
  | nil =>
    cases u' with
    | nil => exact ⟨rfl, (List.cons.inj h).2⟩
    | cons c u' =>
      refine absurd ?_ hu'
      rw [← (List.cons.inj h).1]
      exact List.mem_cons_self
  | cons c u ih =>
    cases u' with
    | nil =>
      refine absurd ?_ hu
      rw [(List.cons.inj h).1]
      exact List.mem_cons_self
    | cons c' u' =>
      obtain ⟨hc, htail⟩ := List.cons.inj h
      obtain ⟨rfl, rfl⟩ := ih (fun hm => hu (List.mem_cons_of_mem c hm))
        (fun hm => hu' (List.mem_cons_of_mem c' hm)) htail
      exact ⟨by rw [hc], rfl⟩

/-- The keys of the threads of two users are different. -/
theorem historyKey_inj {u u' t t' : Text} (hu : ':' ∉ u) (hu' : ':' ∉ u')
    (h : historyKey u t = historyKey u' t') : u = u' ∧ t = t' :=
  append_colon_inj hu hu' (List.append_cancel_left h)

/-- The key of a thread is nobody's old key. -/
theorem historyKey_ne_legacyHistoryKey {u u' t : Text} (hu' : ':' ∉ u') :
    historyKey u t ≠ legacyHistoryKey u' := by
  intro h
  refine hu' ?_
  rw [← List.append_cancel_left h]
  simp

/-! ### What the commands do -/

theorem exists_of_bind_ok {ε α β : Type} {x : Except ε α} {f : α → Except ε β} {b : β}
    (h : (x >>= f) = .ok b) : ∃ a, x = .ok a ∧ f a = .ok b := by
  cases x with
  | error e => cases h
  | ok a => exact ⟨a, rfl, h⟩

/-- A check that would have raised was passed. -/
theorem passed_of_ok {ε α : Type} {c : Prop} [Decidable c] {e : ε} {x : Except ε α} {a : α}
    (h : (if c then .error e else x) = .ok a) : ¬ c ∧ x = .ok a := by
  by_cases hc : c
  · rw [if_pos hc] at h
    cases h
  · rw [if_neg hc] at h
    exact ⟨hc, h⟩

theorem map_recent {α β : Type} (f : α → β) (l : List α) : (recent l).map f = recent (l.map f) := by
  rw [recent, recent, List.map_drop, List.length_map]

theorem recent_of_length_le {α : Type} {l : List α} (h : l.length ≤ maxHistory) :
    recent l = l := by
  rw [recent, Nat.sub_eq_zero_of_le h, List.drop_zero]

theorem length_recent {α : Type} (l : List α) : (recent l).length = min l.length maxHistory := by
  rw [recent, List.length_drop]
  omega

@[simp] theorem recent_recent {α : Type} (l : List α) : recent (recent l) = recent l :=
  recent_of_length_le (by rw [length_recent]; omega)

/-- Only the last messages matter for what is kept after one more. -/
theorem recent_append_singleton {α : Type} (l : List α) (a : α) :
    recent (recent l ++ [a]) = recent (l ++ [a]) := by
  rw [recent, recent, recent]
  simp only [List.length_append, List.length_drop, List.length_singleton]
  rcases Nat.lt_or_ge l.length maxHistory with h | h
  · rw [Nat.sub_eq_zero_of_le (Nat.le_of_lt h), List.drop_zero, Nat.sub_zero]
  · rw [show l.length - (l.length - maxHistory) + 1 - maxHistory = 1 by omega,
      show l.length + 1 - maxHistory = l.length - maxHistory + 1 by omega]
    have hpos : 0 < maxHistory := by decide
    rw [← List.drop_drop, List.drop_append_of_le_length (Nat.sub_le _ _)]

namespace Store

variable {s s' : Store} {key username t : Text}

/-- The key holds no list. -/
def NoList (s : Store) (key : Text) : Prop := ∀ entries, s key ≠ some (.list entries)

theorem zadd_ok {member : Text} {score : ℕ} (h : s.zadd key member score = .ok s') :
    s.NoList key ∧ ∃ members, s' = Function.update s key (some (.sorted members)) := by
  rw [zadd] at h
  split at h
  · next hnone =>
    refine ⟨fun entries => ?_, _, (Except.ok.inj h).symm⟩
    rw [hnone]
    exact fun heq => by cases heq
  · next members hsorted =>
    refine ⟨fun entries => ?_, _, (Except.ok.inj h).symm⟩
    rw [hsorted]
    exact fun heq => by cases heq
  · cases h

theorem exists_zadd (member : Text) (score : ℕ) (h : s.NoList key) :
    ∃ s', s.zadd key member score = .ok s' := by
  rw [zadd]
  split
  · exact ⟨_, rfl⟩
  · exact ⟨_, rfl⟩
  · next entries hlist => exact absurd hlist (h entries)

theorem zrem_ok {member : Text} (h : s.zrem key member = .ok s') :
    s.NoList key ∧ ∃ v, s' = Function.update s key v ∧ ∀ entries, v ≠ some (.list entries) := by
  rw [zrem] at h
  split at h
  · next hnone =>
    obtain rfl := Except.ok.inj h
    refine ⟨fun entries => ?_, none, ?_, fun _ heq => by cases heq⟩
    · rw [hnone]
      exact fun heq => by cases heq
    · rw [← hnone, Function.update_eq_self]
  · next members hsorted =>
    refine ⟨fun entries => ?_, _, (Except.ok.inj h).symm, fun entries => ?_⟩
    · rw [hsorted]
      exact fun heq => by cases heq
    · by_cases hempty : (members.filter fun m => m.1 ≠ member) = []
      · rw [if_pos hempty]
        exact fun heq => by cases heq
      · rw [if_neg hempty]
        exact fun heq => by cases heq
  · cases h

/-- **What an operation on a thread may change**: the key of the thread, the list of the user's
threads, and the old key, which is never written. -/
structure Changes (s s' : Store) (username t : Text) : Prop where
  others : ∀ key, key ≠ historyKey username t → key ≠ legacyHistoryKey username →
    key ≠ threadRegistryKey username → s' key = s key
  legacy : s (legacyHistoryKey username) = none → s' (legacyHistoryKey username) = none

namespace Changes

theorem refl (s : Store) (username t : Text) : Changes s s username t :=
  ⟨fun _ _ _ _ => rfl, id⟩

theorem trans {s'' : Store} (h : Changes s s' username t) (h' : Changes s' s'' username t) :
    Changes s s'' username t :=
  ⟨fun key hkey hlegacy hregistry =>
      (h'.others key hkey hlegacy hregistry).trans (h.others key hkey hlegacy hregistry),
    fun hnone => h'.legacy (h.legacy hnone)⟩

/-- The key of the thread is set. -/
theorem setHistory (v : Option Value) :
    Changes s (Function.update s (historyKey username t) v) username t where
  others := fun _ hkey _ _ => Function.update_of_ne hkey _ _
  legacy := fun hnone => by rwa [Function.update_of_ne (historyKey_ne_legacy username t).symm]

/-- The list of threads is set. -/
theorem setRegistry (v : Option Value) :
    Changes s (Function.update s (threadRegistryKey username) v) username t where
  others := fun _ _ _ hkey => Function.update_of_ne hkey _ _
  legacy := fun hnone => by
    rwa [Function.update_of_ne (threadRegistryKey_ne_legacy username).symm]

/-- The old key is deleted. -/
theorem deleteLegacy : Changes s (s.delete (legacyHistoryKey username)) username t where
  others := fun _ _ hkey _ => Function.update_of_ne hkey _ _
  legacy := fun _ => Function.update_self _ _ _

end Changes

/-- The list of threads becomes another value that is no list of messages. -/
def Registered (s s' : Store) (username : Text) : Prop :=
  ∃ v, s' = Function.update s (threadRegistryKey username) v ∧
    ∀ entries, v ≠ some (.list entries)

theorem Registered.changes (h : Registered s s' username) : Changes s s' username t := by
  obtain ⟨v, rfl, -⟩ := h
  exact .setRegistry v

/-- It leaves every other key as it is. -/
theorem Registered.eq_of_ne (h : Registered s s' username)
    (hkey : key ≠ threadRegistryKey username) :
    s' key = s key := by
  obtain ⟨v, rfl, -⟩ := h
  exact Function.update_of_ne hkey _ _

theorem Registered.noList (h : Registered s s' username) :
    s'.NoList (threadRegistryKey username) := by
  obtain ⟨v, rfl, hv⟩ := h
  intro entries
  rw [Function.update_self]
  exact hv entries

theorem registered_touch {now updatedAt : ℕ}
    (h : s.touchThreadRegistry now username t updatedAt = .ok s') :
    s.NoList (threadRegistryKey username) ∧ Registered s s' username := by
  obtain ⟨hlist, members, rfl⟩ := zadd_ok h
  exact ⟨hlist, _, rfl, fun _ heq => by cases heq⟩

theorem exists_touch (now : ℕ) (t : Text) (updatedAt : ℕ)
    (h : s.NoList (threadRegistryKey username)) :
    ∃ s', s.touchThreadRegistry now username t updatedAt = .ok s' := exists_zadd _ _ h

/-! ### The messages of one thread -/

/-- A value that holds the messages. -/
def Holds (v : Option Value) (messages : List Message) : Prop :=
  (v = none ∧ messages = []) ∨ ∃ entries, v = some (.list entries) ∧
    entries.map Entry.message = messages

/-- The thread holds the messages, and none of its messages stand under the old key. -/
structure HasThread (s : Store) (username t : Text) (messages : List Message) : Prop where
  migrated : t = defaultChatThreadId → s (legacyHistoryKey username) = none
  holds : Holds (s (historyKey username t)) messages

variable {messages : List Message}

theorem lrange_of_holds (h : Holds (s key) messages) :
    ∃ entries, s.lrange key = .ok entries ∧ entries.map Entry.message = messages := by
  rw [lrange]
  rcases h with ⟨hnone, rfl⟩ | ⟨entries, hlist, hentries⟩
  · rw [hnone]
    exact ⟨[], rfl, rfl⟩
  · rw [hlist]
    exact ⟨entries, rfl, hentries⟩

theorem HasThread.congr (h : HasThread s username t messages)
    (hhistory : s' (historyKey username t) = s (historyKey username t))
    (hlegacy : s (legacyHistoryKey username) = none → s' (legacyHistoryKey username) = none) :
    HasThread s' username t messages :=
  ⟨fun ht => hlegacy (h.migrated ht), by rw [hhistory]; exact h.holds⟩

/-- A change of the list of threads is none of the thread's messages. -/
theorem HasThread.registered (h : HasThread s username t messages)
    (hregistered : Registered s s' username) (ht : t ≠ "threads".toList) :
    HasThread s' username t messages := by
  refine h.congr (hregistered.eq_of_ne (threadRegistryKey_ne_historyKey ht).symm) fun hnone => ?_
  rw [hregistered.eq_of_ne (threadRegistryKey_ne_legacy username).symm]
  exact hnone

/-- Where nothing is to be migrated, the migration at most touches the list of threads. -/
theorem migrateIfDefault_ok {now : ℕ} (h : HasThread s username t messages)
    (hok : s.migrateIfDefault now username t = .ok s') : s' = s ∨ Registered s s' username := by
  rw [migrateIfDefault] at hok
  by_cases ht : t = defaultChatThreadId
  · rw [if_pos ht] at hok
    obtain ⟨existing, hexisting, hok⟩ := exists_of_bind_ok hok
    by_cases hempty : existing = []
    · rw [if_neg (by simpa using hempty)] at hok
      have hlegacy : s.lrange (legacyHistoryKey username) = .ok [] := by
        rw [lrange, h.migrated ht]
      rw [hlegacy] at hok
      exact .inl (Except.ok.inj hok).symm
    · rw [if_pos hempty] at hok
      obtain ⟨updatedAt, -, hok⟩ := exists_of_bind_ok hok
      exact .inr (registered_touch hok).2
  · rw [if_neg ht] at hok
    exact .inl (Except.ok.inj hok).symm

theorem exists_migrateIfDefault (now : ℕ) (h : HasThread s username t messages)
    (hlist : s.NoList (threadRegistryKey username)) :
    ∃ s', s.migrateIfDefault now username t = .ok s' := by
  rw [migrateIfDefault]
  by_cases ht : t = defaultChatThreadId
  · obtain ⟨entries, hentries, -⟩ := lrange_of_holds h.holds
    rw [if_pos ht, migrateLegacyDefaultHistoryIfNeeded, latestHistoryTimestamp, hentries]
    by_cases hempty : entries = []
    · have hlegacy : s.lrange (legacyHistoryKey username) = .ok [] := by
        rw [lrange, h.migrated ht]
      rw [hempty, hlegacy]
      exact ⟨s, rfl⟩
    · obtain ⟨s', hs'⟩ := exists_touch now defaultChatThreadId
        ((entries.getLast?.map Entry.createdAt).getD 0) hlist
      refine ⟨s', ?_⟩
      show (if entries ≠ [] then _ else _) = _
      rw [if_pos hempty]
      exact hs'
  · rw [if_neg ht]
    exact ⟨s, rfl⟩

/-! ### What the operations do -/

theorem rpushTrim_ok {added : List Entry} (h : Holds (s key) messages)
    (hok : s.rpushTrim key added = .ok s') :
    ∃ entries, s' = Function.update s key (some (.list entries)) ∧
      entries.map Entry.message = recent (messages ++ added.map Entry.message) := by
  obtain ⟨entries, hentries, rfl⟩ := lrange_of_holds h
  rw [rpushTrim, hentries] at hok
  refine ⟨_, (Except.ok.inj hok).symm, ?_⟩
  rw [← List.map_append, ← map_recent]

variable (messages) in
/-- **An append adds its message to the thread**, and ends with an error for the thread whose key
is that of the list of threads. -/
theorem appendMessage_ok {now : ℕ} {role content : Text} {threadId : Option Text}
    (hok : s.appendMessage now username role content threadId = .ok s') :
    normalizeThreadId threadId ≠ "threads".toList ∧
      s'.NoList (threadRegistryKey username) ∧
      (HasThread s username (normalizeThreadId threadId) messages →
        HasThread s' username (normalizeThreadId threadId)
            (recent (messages ++ [⟨role, content⟩])) ∧
          Changes s s' username (normalizeThreadId threadId)) := by
  obtain ⟨migrated, hmigrated, hok⟩ := exists_of_bind_ok hok
  obtain ⟨pushed, hpushed, hok⟩ := exists_of_bind_ok hok
  obtain ⟨hlist, hregistered⟩ := registered_touch hok
  have hpushedList : ∃ entries, pushed (historyKey username (normalizeThreadId threadId)) =
      some (.list entries) := by
    obtain ⟨entries, -, hpushed⟩ := exists_of_bind_ok hpushed
    obtain rfl := Except.ok.inj hpushed
    exact ⟨_, Function.update_self _ _ _⟩
  have hne : normalizeThreadId threadId ≠ "threads".toList := by
    intro heq
    obtain ⟨entries, hentries⟩ := hpushedList
    rw [heq] at hentries
    exact hlist entries hentries
  refine ⟨hne, hregistered.noList, fun h => ?_⟩
  have hbefore : HasThread migrated username (normalizeThreadId threadId) messages ∧
      Changes s migrated username (normalizeThreadId threadId) := by
    rcases migrateIfDefault_ok h hmigrated with rfl | htouched
    · exact ⟨h, .refl _ _ _⟩
    · exact ⟨h.registered htouched hne, htouched.changes⟩
  obtain ⟨hthread, hchanges⟩ := hbefore
  obtain ⟨entries, rfl, hentries⟩ := rpushTrim_ok hthread.holds hpushed
  refine ⟨?_, (hchanges.trans (.setHistory _)).trans hregistered.changes⟩
  refine HasThread.registered ⟨fun ht => ?_, .inr ⟨entries, Function.update_self _ _ _, hentries⟩⟩
    hregistered hne
  rw [Function.update_of_ne (historyKey_ne_legacy username _).symm]
  exact hthread.migrated ht

/-- An append is possible where the list of threads is none of messages. -/
theorem exists_appendMessage (now : ℕ) (role content : Text) {threadId : Option Text}
    (h : HasThread s username (normalizeThreadId threadId) messages)
    (hlist : s.NoList (threadRegistryKey username))
    (hne : normalizeThreadId threadId ≠ "threads".toList) :
    ∃ s', s.appendMessage now username role content threadId = .ok s' := by
  obtain ⟨migrated, hmigrated⟩ := exists_migrateIfDefault now h hlist
  have hbefore : HasThread migrated username (normalizeThreadId threadId) messages ∧
      migrated.NoList (threadRegistryKey username) := by
    rcases migrateIfDefault_ok h hmigrated with rfl | htouched
    · exact ⟨h, hlist⟩
    · exact ⟨h.registered htouched hne, htouched.noList⟩
  obtain ⟨hthread, hlist'⟩ := hbefore
  obtain ⟨entries, hentries, -⟩ := lrange_of_holds hthread.holds
  obtain ⟨pushed, hpushed⟩ : ∃ pushed, migrated.rpushTrim
      (historyKey username (normalizeThreadId threadId)) [⟨role, content, now⟩] = .ok pushed := by
    rw [rpushTrim, hentries]
    exact ⟨_, rfl⟩
  obtain ⟨entries', rfl, -⟩ := rpushTrim_ok hthread.holds hpushed
  have hregistry : NoList (Function.update migrated
      (historyKey username (normalizeThreadId threadId)) (some (.list entries')))
        (threadRegistryKey username) := by
    intro found
    rw [Function.update_of_ne (threadRegistryKey_ne_historyKey hne)]
    exact hlist' found
  obtain ⟨s', hs'⟩ := exists_touch now (normalizeThreadId threadId) now hregistry
  refine ⟨s', ?_⟩
  rw [appendMessage, hmigrated]
  show (migrated.rpushTrim _ _ >>= _) = _
  rw [hpushed]
  exact hs'

/-- **A clear leaves the thread without messages.** -/
theorem clearHistory_ok {now : ℕ} {threadId : Option Text} {preserveThread : Bool}
    (hok : s.clearHistory now username threadId preserveThread = .ok s') :
    s'.NoList (threadRegistryKey username) ∧
      Changes s s' username (normalizeThreadId threadId) ∧
      (normalizeThreadId threadId ≠ "threads".toList →
        HasThread s' username (normalizeThreadId threadId) []) := by
  rw [clearHistory] at hok
  generalize hcleared : (if normalizeThreadId threadId = defaultChatThreadId then
      (s.delete (historyKey username (normalizeThreadId threadId))).delete
        (legacyHistoryKey username)
    else s.delete (historyKey username (normalizeThreadId threadId))) = cleared at hok
  have hthread : HasThread cleared username (normalizeThreadId threadId) [] ∧
      Changes s cleared username (normalizeThreadId threadId) := by
    rw [← hcleared]
    by_cases ht : normalizeThreadId threadId = defaultChatThreadId
    · rw [if_pos ht]
      refine ⟨⟨fun _ => Function.update_self _ _ _, .inl ⟨?_, rfl⟩⟩,
        Changes.trans (.setHistory none) .deleteLegacy⟩
      rw [delete, Function.update_of_ne (historyKey_ne_legacy username _)]
      exact Function.update_self _ _ _
    · rw [if_neg ht]
      exact ⟨⟨fun h => absurd h ht, .inl ⟨Function.update_self _ _ _, rfl⟩⟩, .setHistory none⟩
  have hregistered : Registered cleared s' username := by
    by_cases hpreserve : preserveThread = true
    · simp only [hpreserve, if_true] at hok
      exact (registered_touch hok).2
    · simp only [hpreserve] at hok
      exact (zrem_ok hok).2
  exact ⟨hregistered.noList, hthread.2.trans hregistered.changes,
    fun hne => hthread.1.registered hregistered hne⟩

theorem createThread_ok {now : ℕ} {threadId : Option Text} {created : Text}
    (hok : s.createThread now username threadId = .ok (created, s')) :
    created = normalizeThreadId threadId ∧ Registered s s' username := by
  obtain ⟨touched, htouched, hok⟩ := exists_of_bind_ok hok
  cases hok
  exact ⟨rfl, (registered_touch htouched).2⟩

theorem decodeHistoryEntries_of_holds (h : Holds (s key) messages) :
    s.decodeHistoryEntries key =
      .ok (recent (messages.filter fun m => m.role ∈ chatMessageRoles)) := by
  obtain ⟨entries, hentries, rfl⟩ := lrange_of_holds h
  rw [decodeHistoryEntries, hentries]
  rfl

/-- **What is read are the messages of the thread** that have a chat role. -/
theorem getHistory_ok {now : ℕ} {threadId : Option Text} {history : List Message}
    (h : HasThread s username (normalizeThreadId threadId) messages)
    (hne : normalizeThreadId threadId ≠ "threads".toList)
    (hok : s.getHistory now username threadId = .ok (history, s')) :
    history = recent (messages.filter fun m => m.role ∈ chatMessageRoles) := by
  obtain ⟨migrated, hmigrated, hread⟩ := exists_of_bind_ok hok
  have hthread : HasThread migrated username (normalizeThreadId threadId) messages := by
    rcases migrateIfDefault_ok h hmigrated with rfl | htouched
    · exact h
    · exact h.registered htouched hne
  obtain ⟨decoded, hdecoded, hanswer⟩ := exists_of_bind_ok hread
  rw [decodeHistoryEntries_of_holds hthread.holds] at hdecoded
  obtain rfl := Except.ok.inj hdecoded
  by_cases hempty : recent (messages.filter fun m => m.role ∈ chatMessageRoles) = []
  · rw [if_pos hempty] at hanswer
    exact (congrArg Prod.fst (Except.ok.inj hanswer)).symm
  · rw [if_neg hempty] at hanswer
    obtain ⟨updatedAt, -, htouch⟩ := exists_of_bind_ok hanswer
    obtain ⟨touched, -, hpair⟩ := exists_of_bind_ok htouch
    exact (congrArg Prod.fst (Except.ok.inj hpair)).symm

/-- Nothing is read of the thread whose key is that of the list of threads. -/
theorem getHistory_taken {now : ℕ} {threadId : Option Text} {history : List Message}
    (hlist : s.NoList (threadRegistryKey username))
    (htaken : normalizeThreadId threadId = "threads".toList)
    (hok : s.getHistory now username threadId = .ok (history, s')) : history = [] := by
  have hdefault : "threads".toList ≠ defaultChatThreadId := by decide +kernel
  rw [getHistory, htaken, migrateIfDefault, if_neg hdefault] at hok
  change (s.decodeHistoryEntries (threadRegistryKey username) >>= _) = _ at hok
  obtain ⟨decoded, hdecoded, hanswer⟩ := exists_of_bind_ok hok
  obtain ⟨found, hfound, hread⟩ := exists_of_bind_ok hdecoded
  rw [lrange] at hfound
  split at hfound
  · obtain rfl := Except.ok.inj hfound
    obtain rfl := Except.ok.inj hread
    exact (congrArg Prod.fst (Except.ok.inj hanswer)).symm
  · next found' hfound' => exact absurd hfound' (hlist found')
  · cases hfound

theorem exists_getHistory (now : ℕ) {threadId : Option Text}
    (h : HasThread s username (normalizeThreadId threadId) messages)
    (hne : normalizeThreadId threadId ≠ "threads".toList)
    (hlist : s.NoList (threadRegistryKey username)) :
    ∃ history s', s.getHistory now username threadId = .ok (history, s') := by
  obtain ⟨migrated, hmigrated⟩ := exists_migrateIfDefault now h hlist
  have hbefore : HasThread migrated username (normalizeThreadId threadId) messages ∧
      migrated.NoList (threadRegistryKey username) := by
    rcases migrateIfDefault_ok h hmigrated with rfl | htouched
    · exact ⟨h, hlist⟩
    · exact ⟨h.registered htouched hne, htouched.noList⟩
  obtain ⟨hthread, hlist'⟩ := hbefore
  obtain ⟨entries, hentries, -⟩ := lrange_of_holds hthread.holds
  obtain ⟨touched, htouched⟩ := exists_touch now (normalizeThreadId threadId)
    ((entries.getLast?.map Entry.createdAt).getD 0) hlist'
  have hstamp : migrated.latestHistoryTimestamp
      (historyKey username (normalizeThreadId threadId)) =
        .ok ((entries.getLast?.map Entry.createdAt).getD 0) := by
    rw [latestHistoryTimestamp, hentries]
    rfl
  by_cases hempty : recent (messages.filter fun m => m.role ∈ chatMessageRoles) = []
  · refine ⟨[], migrated, ?_⟩
    rw [getHistory, hmigrated]
    show (migrated.decodeHistoryEntries _ >>= _) = _
    rw [decodeHistoryEntries_of_holds hthread.holds, hempty]
    rfl
  · refine ⟨recent (messages.filter fun m => m.role ∈ chatMessageRoles), touched, ?_⟩
    rw [getHistory, hmigrated]
    show (migrated.decodeHistoryEntries _ >>= _) = _
    rw [decodeHistoryEntries_of_holds hthread.holds]
    show (if recent _ = [] then _ else _) = _
    rw [if_neg hempty, hstamp]
    show (migrated.touchThreadRegistry _ _ _ _ >>= _) = _
    rw [htouched]
    rfl

end Store

end Chat

end AiAgent

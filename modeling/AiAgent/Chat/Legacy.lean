import AiAgent.Chat.Threads

/-!
# The old messages are moved once, or twice

The messages of the time before there were threads are moved into the default thread by whichever
function looks at it first. The function sees that the thread is empty, reads the old messages, and
then writes them to the thread and deletes the old key in one transaction. Between the reading and
the writing another function may do the same, and then the old messages are in the thread twice
(`AiAgent.Chat.not_onceOnly_twoReaders`).

Where every such transaction finds the old messages still there (`AiAgent.Chat.unspent`) they are
moved once, and before anything is appended (`AiAgent.Chat.onceOnly_of_unspent`). The argument is
what a caller knows: who has seen the thread with messages, or no old messages, knows that they have
been moved; who has read the old messages holds all of them; and nobody appends before he knows.
-/

namespace AiAgent

namespace Chat

open Text Budget Command

/-! ### The calls -/

/-- A call for the default thread of a user. -/
inductive DefaultCall where
  /-- `get_history`. -/
  | getHistory
  /-- `append_message`. -/
  | appendMessage (role content : Text)
  /-- `list_threads`. -/
  | listThreads

/-- What the call is to append. -/
def DefaultCall.says : DefaultCall → Option Message
  | .appendMessage role content => some ⟨role, content⟩
  | _ => none

/-- The program of a call. -/
def DefaultCall.body (u : Text) : DefaultCall → ChatOp Unit
  | .getHistory => do
    let _ ← AsyncChatStore.getHistory u none
  | .appendMessage role content => AsyncChatStore.appendMessage u role content none
  | .listThreads => do
    let _ ← AsyncChatStore.listThreads u

/-- Any number of callers on the server; time passes. -/
def chats (u : Text) : System chatSig Server DefaultCall (Except StoreError Unit) where
  store := chatServer
  body := fun call => (call.body u).run
  outside := fun s s' => s'.keyspace = s.keyspace

/-- The server, its callers and what they have done. -/
abbrev ChatWorld := World chatSig Server DefaultCall (Except StoreError Unit)

/-- The message a transaction appends, if it is one of `append_message`. -/
def spoken : List ChatWrite → Option Entry
  | [.rpush _ [e], .ltrim _] => some e
  | _ => none

/-- The message an act appends. -/
def appends : Act chatSig (Except StoreError Unit) → Option Entry
  | .command (.transaction ws) _ => spoken ws
  | _ => none

/-- The messages that were appended, in their order. -/
def appended : List (Command.Entry chatSig DefaultCall (Except StoreError Unit)) → List Entry
  | [] => []
  | e :: log => appended log ++ (appends e.act).toList

/-- The messages the client has appended since it began its call. -/
def said (i : ℕ) : List (Command.Entry chatSig DefaultCall (Except StoreError Unit)) → List Message
  | [] => []
  | e :: log =>
    if e.client = i then
      if e.act.isStart then [] else said i log ++ ((appends e.act).map Entry.message).toList
    else said i log

/-- **The old messages are moved once and nothing is lost**: the thread shows the old messages and
then what was appended; once a call has returned there are no others; and a call that has returned
has appended its message once. -/
structure OnceOnly (u : Text) (old : List Entry) (w : ChatWorld) : Prop where
  /-- The thread. -/
  thread : w.shared.look.thread u defaultChatThreadId = old ++ appended w.log
  /-- The old key. -/
  moved : (∃ e ∈ w.log, e.act = .finish (.ok ())) →
    listOf (w.shared.look (legacyHistoryKey u)) = []
  /-- The calls. -/
  returned : ∀ newer older i call, w.log = newer ++ ⟨i, call, .finish (.ok ())⟩ :: older →
    said i older = call.says.toList

/-- The queued command deletes the key. -/
def ChatWrite.deletes (key : Text) : ChatWrite → Bool
  | .delete key' => key' = key
  | _ => false

/-- A transaction that deletes the old key finds it. -/
def unspent (u : Text) (w : ChatWorld)
    (e : Command.Entry chatSig DefaultCall (Except StoreError Unit)) : Bool :=
  match e.act with
  | .command (.transaction ws) _ => !ws.any (ChatWrite.deletes (legacyHistoryKey u)) ||
    !(listOf (w.shared.look (legacyHistoryKey u))).isEmpty
  | _ => true

/-- Runs in which old messages are moved only as long as they are there. -/
def unspentCalls (u : Text) : Rules chatSig Server DefaultCall (Except StoreError Unit) where
  starts := fun _ => True
  guard := fun w e => unspent u w e = true

/-- Runs in which nothing is asked. -/
def anyCalls : Rules chatSig Server DefaultCall (Except StoreError Unit) where
  starts := fun _ => True
  guard := fun _ _ => True

/-- A store in which the default thread of the user is still empty, with some old messages. -/
structure HasOld (u : Text) (old : List Entry) (s : Store) : Prop where
  /-- The thread. -/
  history : s (historyKey u defaultChatThreadId) = none
  /-- The old key. -/
  type : ∀ ms, s (legacyHistoryKey u) ≠ some (.sorted ms)
  /-- The old messages. -/
  legacy : listOf (s (legacyHistoryKey u)) = old

/-! ### What callers know -/

/-- What a caller knows of the old messages. -/
inductive Knows where
  /-- Nothing. -/
  | nothing
  /-- It has read them. -/
  | holds (entries : List Entry)
  /-- They have been moved. -/
  | moved

/-- What a caller knows, and what it has still to append. -/
structure Caller where
  knows : Knows
  toSay : Option Message

/-- Whoever knows that they have been moved will not forget it. -/
def Knows.learn : Knows → Knows → Knows
  | .moved, _ => .moved
  | _, k => k

/-- The transaction that moves old messages. -/
def moving (u : Text) (entries : List Entry) : List ChatWrite :=
  [.rpush (historyKey u defaultChatThreadId) entries, .ltrim (historyKey u defaultChatThreadId),
    .delete (legacyHistoryKey u)]

/-- The transaction that appends a message. -/
def appending (u : Text) (e : Entry) : List ChatWrite :=
  [.rpush (historyKey u defaultChatThreadId) [e], .ltrim (historyKey u defaultChatThreadId)]

/-- What the caller knows after a command. -/
def Caller.next (u : Text) (t : Caller) : (c : ChatCmd) → c.Reply → Caller
  | .lrange key, .ok [] =>
    if key = legacyHistoryKey u then { t with knows := .moved } else t
  | .lrange key, .ok (e :: entries) =>
    if key = historyKey u defaultChatThreadId then { t with knows := .moved }
    else if key = legacyHistoryKey u then
      { t with knows := t.knows.learn (.holds (e :: entries)) }
    else t
  | .transaction ws, _ => ⟨.moved, if (spoken ws).isSome then none else t.toSay⟩
  | _, _ => t

/-- **What callers keep to**: they move what they hold, and append what they are to append once
they know that the old messages have been moved. -/
def manners (u : Text) : Discipline chatSig Caller where
  may := fun t c =>
    match c with
    | .transaction ws =>
      (∃ entries, ws = moving u entries ∧ (t.knows = .holds entries ∨ t.knows = .moved)) ∨
        ∃ e, ws = appending u e ∧ t.knows = .moved ∧ t.toSay = some e.message
    | .delete _ | .zrem .. => False
    | .zadd key _ _ => key = threadRegistryKey u
    | _ => True
  after := fun t c r t' => t' = t.next u c r

theorem spoken_moving (u : Text) (entries : List Entry) : spoken (moving u entries) = none := by
  rcases entries with _ | ⟨e, _ | ⟨e', entries⟩⟩ <;> rfl

theorem Knows.learn_moved (k : Knows) : Knows.learn .moved k = .moved := rfl

/-- A look at a list changes nothing for a caller that knows. -/
theorem Caller.next_lrange {u : Text} {t : Caller} (ht : t.knows = .moved) (key : Text)
    (r : Except StoreError (List Entry)) : t.next u (.lrange key) r = t := by
  obtain ⟨knows, toSay⟩ := t
  obtain rfl := ht
  rcases r with e | _ | ⟨e, entries⟩
  · rfl
  · exact ite_self _
  · dsimp only [Caller.next]
    rw [Knows.learn_moved, ite_self, ite_self]

namespace AsyncChatStore

variable {u : Text} {t : Caller}

/-- The caller has still the same to append, and knows that the old messages have been moved. -/
def Informed (t t' : Caller) : Prop := t'.knows = .moved ∧ t'.toSay = t.toSay

theorem Informed.eq {t' : Caller} (h : Informed t t') (ht : t.knows = .moved) : t' = t := by
  obtain ⟨knows, toSay⟩ := t
  obtain ⟨knows', toSay'⟩ := t'
  obtain ⟨rfl, rfl⟩ := h
  obtain rfl := ht
  rfl

theorem abides_latestHistoryTimestamp (key : Text) :
    Abides (manners u) (latestHistoryTimestamp key) t fun _ t' => t' = t := by
  unfold latestHistoryTimestamp
  refine Abides.bind (Q := fun _ t' => t' = t) ⟨trivial, ?_⟩ ?_
  · rintro r _ rfl _ rfl
    rfl
  · rintro entry _ rfl
    exact abides_pure rfl

theorem abides_time : Abides (manners u) time t fun _ t' => t' = t := by
  refine ⟨trivial, ?_⟩
  rintro r _ rfl _ ⟨⟩
  rfl

theorem abides_touchThreadRegistry (threadId : Text) (updatedAt : ℕ) :
    Abides (manners u) (touchThreadRegistry u threadId updatedAt) t fun _ t' => t' = t := by
  unfold touchThreadRegistry
  refine Abides.bind (Q := fun _ t' => t' = t) ?_ ?_
  · split
    · exact abides_time
    · exact abides_pure rfl
  · rintro score _ rfl
    refine ⟨rfl, ?_⟩
    rintro r _ rfl _ rfl
    rfl

/-- **After the migration the caller knows that the old messages have been moved.** -/
theorem abides_migrate :
    Abides (manners u) (migrateLegacyDefaultHistoryIfNeeded u (historyKey u defaultChatThreadId)) t
      fun _ t' => Informed t t' := by
  unfold migrateLegacyDefaultHistoryIfNeeded
  refine Abides.bind (Q := fun entries t' =>
    if entries = [] then t' = t else Informed t t') ⟨trivial, ?_⟩ ?_
  · rintro r _ rfl entries rfl
    rcases entries with _ | ⟨e, entries⟩
    · exact if_neg (historyKey_ne_legacy u _)
    · rw [if_neg (List.cons_ne_nil e entries)]
      dsimp only [manners, Caller.next]
      rw [if_pos rfl]
      exact ⟨rfl, rfl⟩
  -- Where the thread has a history already, the old one is not looked at.
  intro entries t' ht'
  split
  · next hne =>
    rw [if_neg hne] at ht'
    refine (abides_latestHistoryTimestamp _).bind ?_
    rintro timestamp _ rfl
    refine (abides_touchThreadRegistry _ timestamp).bind ?_
    rintro _ _ rfl
    exact abides_pure ht'
  next hnil =>
  rw [if_pos (not_not.mp hnil)] at ht'
  subst ht'
  refine Abides.bind (Q := fun legacyEntries t₁ =>
    if legacyEntries = [] then Informed t' t₁
    else (t₁.knows = .holds legacyEntries ∨ t₁.knows = .moved) ∧ t₁.toSay = t'.toSay)
      ⟨trivial, ?_⟩ ?_
  · rintro r _ rfl legacyEntries rfl
    rcases legacyEntries with _ | ⟨e, legacyEntries⟩
    · dsimp only [manners, Caller.next]
      rw [if_pos rfl, if_pos rfl]
      exact ⟨rfl, rfl⟩
    · rw [if_neg (List.cons_ne_nil e legacyEntries)]
      dsimp only [manners, Caller.next]
      rw [if_neg (historyKey_ne_legacy u _).symm, if_pos rfl]
      refine ⟨?_, rfl⟩
      dsimp only
      rcases t'.knows with _ | _ | _
      · exact .inl rfl
      · exact .inl rfl
      · exact .inr rfl
  -- Without an old history there is nothing to move.
  intro legacyEntries t₁ ht₁
  split
  · next hlegacy =>
    rw [if_pos hlegacy] at ht₁
    exact abides_pure ht₁
  next hlegacy =>
  rw [if_neg hlegacy] at ht₁
  -- What was read is moved in one transaction, whatever stands there by then.
  refine Abides.bind (Q := fun _ t₂ => Informed t' t₂)
    ⟨.inl ⟨legacyEntries, rfl, ht₁.1⟩, ?_⟩ ?_
  · rintro r _ rfl _ rfl
    refine ⟨rfl, ?_⟩
    show (if (spoken (moving u legacyEntries)).isSome then none else t₁.toSay) = t'.toSay
    rw [spoken_moving]
    exact ht₁.2
  intro _ t₂ ht₂
  refine (abides_latestHistoryTimestamp _).bind ?_
  rintro timestamp _ rfl
  refine (abides_touchThreadRegistry _ timestamp).bind ?_
  rintro _ _ rfl
  exact abides_pure ht₂

theorem abides_migrateIfDefault {threadId : Text}
    (h : threadId = defaultChatThreadId ∨ t.knows = .moved) :
    Abides (manners u) (migrateIfDefault u threadId) t fun _ t' => Informed t t' := by
  unfold migrateIfDefault
  split
  · next hdefault =>
    subst hdefault
    exact abides_migrate.bind fun _ t' ht' => abides_pure ht'
  · next hne => exact abides_pure ⟨h.resolve_left hne, rfl⟩

theorem normalizeThreadId_none : normalizeThreadId none = defaultChatThreadId := rfl

/-- **A message is appended once.** -/
theorem abides_appendMessage (role content : Text) (ht : t.toSay = some ⟨role, content⟩) :
    Abides (manners u) (appendMessage u role content none) t fun _ t' =>
      t'.knows = .moved ∧ t'.toSay = none := by
  unfold appendMessage
  refine abides_time.bind ?_
  rintro createdAt _ rfl
  dsimp only
  rw [normalizeThreadId_none]
  refine (abides_migrateIfDefault (.inl rfl)).bind fun _ t' ht' => ?_
  refine Abides.bind (Q := fun _ t₁ => t₁.knows = .moved ∧ t₁.toSay = none)
    ⟨.inr ⟨_, rfl, ht'.1, ht'.2.trans ht⟩, ?_⟩ ?_
  · rintro r _ rfl _ rfl
    exact ⟨rfl, rfl⟩
  intro _ t₁ ht₁
  refine (abides_touchThreadRegistry _ createdAt).mono ?_
  rintro _ _ rfl
  exact ht₁

theorem abides_getHistory {threadId : Option Text}
    (h : normalizeThreadId threadId = defaultChatThreadId ∨ t.knows = .moved) :
    Abides (manners u) (getHistory u threadId) t fun _ t' => Informed t t' := by
  unfold getHistory
  dsimp only
  refine (abides_migrateIfDefault h).bind fun _ t' ht' => ?_
  refine Abides.bind (Q := fun _ t₁ => Informed t t₁) ?_ ?_
  · refine Abides.bind (Q := fun _ t₁ => Informed t t₁) ⟨trivial, ?_⟩ fun _ t₁ ht₁ =>
      abides_pure ht₁
    rintro r _ rfl entries rfl
    rwa [Caller.next_lrange ht'.1]
  intro history t₁ ht₁
  split
  · refine (abides_latestHistoryTimestamp _).bind ?_
    rintro timestamp _ rfl
    refine (abides_touchThreadRegistry _ timestamp).bind ?_
    rintro _ _ rfl
    exact abides_pure ht₁
  · exact abides_pure ht₁

theorem abides_syncBuckets (keys : List Text) :
    Abides (manners u) (syncBuckets u keys) t fun _ t' => t' = t := by
  induction keys with
  | nil => exact abides_pure rfl
  | cons key keys ih =>
    unfold syncBuckets
    split
    · exact ih
    refine (abides_latestHistoryTimestamp key).bind ?_
    rintro timestamp _ rfl
    split
    · refine (abides_touchThreadRegistry _ timestamp).bind ?_
      rintro _ _ rfl
      exact ih
    · exact ih

theorem abides_summarize (ht : t.knows = .moved) (ms : List (Text × ℕ)) :
    Abides (manners u) (summarize u ms) t fun _ t' => t' = t := by
  induction ms with
  | nil => exact abides_pure rfl
  | cons m ms ih =>
    unfold summarize
    refine (abides_getHistory (.inr ht)).bind fun history t' ht' => ?_
    obtain rfl := ht'.eq ht
    refine ih.bind ?_
    rintro threads _ rfl
    exact abides_pure rfl

theorem abides_listThreads :
    Abides (manners u) (listThreads u) t fun _ t' => Informed t t' := by
  unfold listThreads
  refine abides_migrate.bind fun _ t' ht' => ?_
  refine Abides.bind (Q := fun _ t₁ => t₁ = t') ?_ ?_
  · refine Abides.bind (Q := fun _ t₁ => t₁ = t') ⟨trivial, ?_⟩ ?_
    · rintro r _ rfl _ ⟨⟩
      rfl
    · rintro keys _ rfl
      exact abides_syncBuckets keys
  rintro _ t' rfl
  refine Abides.bind (Q := fun _ t₁ => t₁ = t') ⟨trivial, ?_⟩ ?_
  · rintro r _ rfl _ rfl
    rfl
  rintro ms _ rfl
  refine (abides_summarize ht'.1 ms).mono ?_
  rintro _ _ rfl
  exact ht'

end AsyncChatStore

/-- **Every call keeps to its manners**, and has nothing left to append when it returns. -/
theorem abides_body (u : Text) (call : DefaultCall) :
    Abides (manners u) (call.body u) ⟨.nothing, call.says⟩ fun _ t =>
      t.knows = .moved ∧ t.toSay = none := by
  rcases call with _ | ⟨role, content⟩ | _
  · exact (AsyncChatStore.abides_getHistory (.inl rfl)).bind fun _ t ht => abides_pure ht
  · exact AsyncChatStore.abides_appendMessage role content rfl
  · exact AsyncChatStore.abides_listThreads.bind fun _ t ht => abides_pure ht

/-! ### The invariant -/

section Invariant

variable {u : Text} {old : List Entry} {w : ChatWorld} {g : ℕ → Caller} {i : ℕ}
  {call : DefaultCall}

/-- The old messages have not been moved, and nobody thinks so. -/
structure Unmoved (u : Text) (old : List Entry) (w : ChatWorld) (g : ℕ → Caller) : Prop where
  /-- The thread. -/
  history : listOf (w.shared.look (historyKey u defaultChatThreadId)) = []
  /-- The old key. -/
  legacy : listOf (w.shared.look (legacyHistoryKey u)) = old
  /-- There are some. -/
  ne_nil : old ≠ []
  /-- What was appended. -/
  appended : appended w.log = []
  /-- The callers. -/
  callers : ∀ i, (g i).knows ≠ .moved

/-- The old messages have been moved. -/
structure Moved (u : Text) (old : List Entry) (w : ChatWorld) : Prop where
  /-- The thread. -/
  history : listOf (w.shared.look (historyKey u defaultChatThreadId)) =
    recent (old ++ appended w.log)
  /-- The old key. -/
  legacy : listOf (w.shared.look (legacyHistoryKey u)) = []

/-- **The old messages are in one place**, and callers know what is so. -/
structure Placed (u : Text) (old : List Entry) (w : ChatWorld) (g : ℕ → Caller) : Prop where
  /-- The types. -/
  types : ∀ ms, w.shared.look (historyKey u defaultChatThreadId) ≠ some (.sorted ms) ∧
    w.shared.look (legacyHistoryKey u) ≠ some (.sorted ms)
  /-- The place. -/
  place : Unmoved u old w g ∨ Moved u old w
  /-- What callers hold. -/
  holds : ∀ i entries, (g i).knows = .holds entries → entries = old
  /-- What they have appended. -/
  said : ∀ i call p, w.tasks i = some ⟨call, p⟩ →
    said i w.log ++ (g i).toSay.toList = call.says.toList
  /-- A call that has returned has found them moved. -/
  moved : (∃ e ∈ w.log, e.act = .finish (.ok ())) → Moved u old w
  /-- It has appended its message once. -/
  returned : ∀ newer older i call, w.log = newer ++ ⟨i, call, .finish (.ok ())⟩ :: older →
    Chat.said i older = call.says.toList

/-- Whoever knows that they have been moved is right. -/
theorem Placed.moved_of_knows (h : Placed u old w g) (hknows : (g i).knows = .moved) :
    Moved u old w :=
  h.place.resolve_left fun hunmoved => hunmoved.callers i hknows

theorem said_self (i : ℕ) (call : DefaultCall) (c : ChatCmd) (r : c.Reply)
    (log : List (Command.Entry chatSig DefaultCall (Except StoreError Unit))) :
    said i (⟨i, call, .command c r⟩ :: log) =
      said i log ++ ((appends (.command c r)).map Entry.message).toList := by
  rw [said, if_pos rfl]
  exact if_neg Bool.false_ne_true

theorem said_other {i j : ℕ} (hne : i ≠ j) (call : DefaultCall)
    (a : Act chatSig (Except StoreError Unit))
    (log : List (Command.Entry chatSig DefaultCall (Except StoreError Unit))) :
    said j (⟨i, call, a⟩ :: log) = said j log := if_neg hne

/-- A step, where it is known what becomes of the two keys. -/
theorem Placed.advance (h : Placed u old w g) {a : Act chatSig (Except StoreError Unit)}
    {s : Server}
    {task : Option (Task chatSig DefaultCall (Except StoreError Unit))} {t : Caller}
    (htypes : ∀ ms, s.look (historyKey u defaultChatThreadId) ≠ some (.sorted ms) ∧
      s.look (legacyHistoryKey u) ≠ some (.sorted ms))
    (hplace : Unmoved u old (w.record i call a s task) (Function.update g i t) ∨
      Moved u old (w.record i call a s task))
    (hstays : Moved u old w → Moved u old (w.record i call a s task))
    (hholds : ∀ entries, t.knows = .holds entries → entries = old)
    (hsaid : ∀ call' p, task = some ⟨call', p⟩ →
      Chat.said i (⟨i, call, a⟩ :: w.log) ++ t.toSay.toList = call'.says.toList)
    (hreturned : a = .finish (.ok ()) →
      Moved u old w ∧ Chat.said i w.log = call.says.toList) :
    Placed u old (w.record i call a s task) (Function.update g i t) := by
  refine ⟨htypes, hplace, ?_, ?_, ?_, ?_⟩
  · intro j entries hj
    rcases eq_or_ne j i with rfl | hne
    · rw [Function.update_self] at hj
      exact hholds entries hj
    · rw [Function.update_of_ne hne] at hj
      exact h.holds j entries hj
  · intro j call' p hj
    rw [World.record_tasks] at hj
    rw [World.record_log]
    rcases eq_or_ne j i with rfl | hne
    · rw [Function.update_self] at hj ⊢
      exact hsaid call' p hj
    · rw [Function.update_of_ne hne] at hj ⊢
      rw [said_other hne.symm]
      exact h.said j call' p hj
  -- A call that has returned has seen the old history moved.
  · rintro ⟨e, he, hact⟩
    rcases List.mem_cons.mp he with rfl | he
    · exact hstays (hreturned hact).1
    · exact hstays (h.moved ⟨e, he, hact⟩)
  · intro newer older j call' hlog
    rcases newer with _ | ⟨e, newer⟩
    · obtain ⟨hentry, rfl⟩ := List.cons.inj hlog
      obtain ⟨rfl, rfl, rfl⟩ := Command.Entry.mk.inj hentry
      exact (hreturned rfl).2
    · exact h.returned newer older j call' (List.cons.inj hlog).2

/-- **A step that appends nothing** and leaves the thread and the old key as they are. -/
theorem Placed.quiet (h : Placed u old w g) {a : Act chatSig (Except StoreError Unit)} {s : Server}
    {task : Option (Task chatSig DefaultCall (Except StoreError Unit))} {t : Caller}
    (hlook : ∀ key, key ≠ threadRegistryKey u → s.look key = w.shared.look key)
    (happends : appends a = none) (hknows : Unmoved u old w g → t.knows ≠ .moved)
    (hholds : ∀ entries, t.knows = .holds entries → entries = old)
    (hsaid : ∀ call' p, task = some ⟨call', p⟩ →
      Chat.said i (⟨i, call, a⟩ :: w.log) ++ t.toSay.toList = call'.says.toList)
    (hreturned : a = .finish (.ok ()) →
      Moved u old w ∧ Chat.said i w.log = call.says.toList) :
    Placed u old (w.record i call a s task) (Function.update g i t) := by
  have hhistory : s.look (historyKey u defaultChatThreadId) =
      w.shared.look (historyKey u defaultChatThreadId) :=
    hlook _ fun heq => isThread_default.free (historyKey_injective heq)
  have hlegacy : s.look (legacyHistoryKey u) = w.shared.look (legacyHistoryKey u) :=
    hlook _ (threadRegistryKey_ne_legacy u).symm
  have happended : appended (⟨i, call, a⟩ :: w.log) = appended w.log := by
    rw [appended, happends]
    exact List.append_nil _
  have hstays : Moved u old w → Moved u old (w.record i call a s task) := by
    rintro ⟨hthread, hold⟩
    refine ⟨?_, ?_⟩
    · rw [World.record_shared, World.record_log, hhistory, happended]
      exact hthread
    · rw [World.record_shared, hlegacy]
      exact hold
  -- Neither of the two places is written, so the history is where it was.
  refine h.advance ?_ ?_ hstays hholds hsaid hreturned
  · intro ms
    rw [hhistory, hlegacy]
    exact h.types ms
  · rcases h.place with hunmoved | hmoved
    · refine .inl ⟨?_, ?_, hunmoved.ne_nil, ?_, fun j => ?_⟩
      · rw [World.record_shared, hhistory]
        exact hunmoved.history
      · rw [World.record_shared, hlegacy]
        exact hunmoved.legacy
      · rw [World.record_log, happended]
        exact hunmoved.appended
      · rcases eq_or_ne j i with rfl | hne
        · rw [Function.update_self]
          exact hknows hunmoved
        · rw [Function.update_of_ne hne]
          exact hunmoved.callers j
    · exact .inr (hstays hmoved)

/-- A command that is no transaction leaves all keys but the list of the threads. -/
theorem look_exec {t : Caller} {c : ChatCmd} (hmay : (manners u).may t c)
    (hc : ∀ ws, c ≠ .transaction ws) (s : Server) {key : Text} (hkey : key ≠ threadRegistryKey u) :
    (c.exec s).2.look key = s.look key := by
  rcases c with _ | _ | _ | ws | _ | ⟨key', member, score⟩ | _ | _ | _
  case transaction => exact absurd rfl (hc ws)
  case delete => exact hmay.elim
  case zrem => exact hmay.elim
  case zadd =>
    obtain rfl : key' = threadRegistryKey u := hmay
    show (s.change _ _).2.look key = _
    unfold Server.change
    split
    · show (s.keyspace.set _ _).look key = _
      rw [Keyspace.look_set, Function.update_of_ne hkey]
    · rfl
  all_goals rfl

/-- What a caller learns from a command that is no transaction is so. -/
theorem Placed.learns (h : Placed u old w g) {c : ChatCmd} (hc : ∀ ws, c ≠ .transaction ws) :
    (Unmoved u old w g → ((g i).next u c (c.exec w.shared).1).knows ≠ .moved) ∧
      (∀ entries, ((g i).next u c (c.exec w.shared).1).knows = .holds entries → entries = old) ∧
        ((g i).next u c (c.exec w.shared).1).toSay = (g i).toSay := by
  have hsame : (Unmoved u old w g → (g i).knows ≠ .moved) ∧
      (∀ entries, (g i).knows = .holds entries → entries = old) ∧ (g i).toSay = (g i).toSay :=
    ⟨fun hunmoved => hunmoved.callers i, h.holds i, rfl⟩
  rcases c with _ | key | _ | ws | _ | _ | _ | _ | _
  case transaction => exact absurd rfl (hc ws)
  case lrange =>
    have hread : (ChatCmd.exec w.shared (.lrange key)).1 = readList (w.shared.look key) := rfl
    rw [hread]
    rcases hv : readList (w.shared.look key) with e | entries
    · exact hsame
    have hlist : listOf (w.shared.look key) = entries := by
      rcases hvalue : w.shared.look key with _ | l | ms
      · rw [hvalue] at hv
        exact Except.ok.inj hv
      · rw [hvalue] at hv
        exact Except.ok.inj hv
      · rw [hvalue] at hv
        cases hv
    rcases entries with _ | ⟨e, entries⟩
    · dsimp only [Caller.next]
      split
      · -- There are no old messages, so they have been moved.
        next hkey =>
        refine ⟨fun hunmoved => absurd ?_ hunmoved.ne_nil, fun _ => nofun, rfl⟩
        rw [← hunmoved.legacy, ← hkey]
        exact hlist
      · exact hsame
    · dsimp only [Caller.next]
      split
      · -- The thread has messages, so the old ones have been moved.
        next hkey =>
        refine ⟨fun hunmoved => ?_, fun _ => nofun, rfl⟩
        rw [hkey, hunmoved.history] at hlist
        cases hlist
      split
      · next hkey =>
        have hold : Unmoved u old w g → e :: entries = old := fun hunmoved => by
          rw [← hlist, hkey]
          exact hunmoved.legacy
        rcases hknows : (g i).knows with _ | l | _
        · refine ⟨fun _ => nofun, ?_, rfl⟩
          rintro _ ⟨⟩
          refine hold (h.place.resolve_right fun hmoved => ?_)
          rw [hkey, hmoved.legacy] at hlist
          cases hlist
        · refine ⟨fun _ => nofun, ?_, rfl⟩
          rintro _ ⟨⟩
          refine hold (h.place.resolve_right fun hmoved => ?_)
          rw [hkey, hmoved.legacy] at hlist
          cases hlist
        · exact ⟨fun hunmoved => absurd hknows (hunmoved.callers i), nofun, rfl⟩
      · exact hsame
  all_goals exact hsame

theorem look_moving {s : Server} (h : ∀ ms, s.look (historyKey u defaultChatThreadId) ≠
    some (.sorted ms)) (entries : List Entry) :
    (ChatCmd.exec s (.transaction (moving u entries))).2.look =
      Function.update (Function.update s.look (historyKey u defaultChatThreadId)
        (some (.list (recent (listOf (s.look (historyKey u defaultChatThreadId)) ++ entries)))))
          (legacyHistoryKey u) none := by
  obtain ⟨_, -, hlook⟩ := AsyncChatStore.runs_move h entries (legacyHistoryKey u)
  exact hlook

theorem look_appending {s : Server} (h : ∀ ms, s.look (historyKey u defaultChatThreadId) ≠
    some (.sorted ms)) (e : Entry) :
    (ChatCmd.exec s (.transaction (appending u e))).2.look =
      Function.update s.look (historyKey u defaultChatThreadId)
        (some (.list (recent (listOf (s.look (historyKey u defaultChatThreadId)) ++ [e])))) := by
  obtain ⟨_, -, hlook⟩ := AsyncChatStore.runs_push h [e]
  exact hlook

/-- A transaction that moves old messages deletes the old key. -/
theorem deletes_moving (u : Text) (entries : List Entry) :
    (moving u entries).any (ChatWrite.deletes (legacyHistoryKey u)) = true := by
  simp [moving, ChatWrite.deletes]

/-- **A transaction that finds the old messages moves all of them.** -/
theorem Placed.move (h : Placed u old w g) {entries : List Entry} {p : Program chatSig _}
    (hspeaks : Chat.said i w.log ++ (g i).toSay.toList = call.says.toList)
    (hknows : (g i).knows = .holds entries ∨ (g i).knows = .moved)
    (hunspent : listOf (w.shared.look (legacyHistoryKey u)) ≠ []) (r : Except StoreError Unit) :
    Placed u old (w.record i call (.command (.transaction (moving u entries)) r)
        (ChatCmd.exec w.shared (.transaction (moving u entries))).2 (some ⟨call, p⟩))
      (Function.update g i ⟨.moved, (g i).toSay⟩) := by
  have hunmoved : Unmoved u old w g := h.place.resolve_right fun hmoved => hunspent hmoved.legacy
  -- The old history has not been moved before, so what the caller has read is all of it.
  obtain rfl : entries = old := by
    rcases hknows with hholds | hmoved
    · exact h.holds i entries hholds
    · exact absurd hmoved (hunmoved.callers i)
  have hlook := look_moving (fun ms => (h.types ms).1) entries
  have hhistory : (ChatCmd.exec w.shared (.transaction (moving u entries))).2.look
      (historyKey u defaultChatThreadId) = some (.list (recent entries)) := by
    rw [hlook, Function.update_of_ne (historyKey_ne_legacy u _), Function.update_self,
      hunmoved.history, List.nil_append]
  have hlegacy : (ChatCmd.exec w.shared (.transaction (moving u entries))).2.look
      (legacyHistoryKey u) = none := by
    rw [hlook, Function.update_self]
  have hspoken : appends (.command (.transaction (moving u entries)) r) = none :=
    spoken_moving u entries
  have hmoved : Moved u entries (w.record i call (.command (.transaction (moving u entries)) r)
      (ChatCmd.exec w.shared (.transaction (moving u entries))).2 (some ⟨call, p⟩)) := by
    refine ⟨?_, ?_⟩
    · rw [World.record_shared, hhistory, World.record_log, appended, hspoken, hunmoved.appended]
      exact congrArg recent (List.append_nil entries).symm
    · rw [World.record_shared, hlegacy]
      rfl
  refine h.advance ?_ (.inr hmoved) (fun _ => hmoved) (fun _ => nofun) ?_ nofun
  · intro ms
    rw [hhistory, hlegacy]
    exact ⟨nofun, nofun⟩
  · rintro call' p' ⟨⟩
    rw [said_self, hspoken]
    simpa using hspeaks

/-- **A message is appended behind everything else.** -/
theorem Placed.append (h : Placed u old w g) {e : Entry} {p : Program chatSig _}
    (hspeaks : Chat.said i w.log ++ (g i).toSay.toList = call.says.toList)
    (hknows : (g i).knows = .moved) (htoSay : (g i).toSay = some e.message)
    (r : Except StoreError Unit) :
    Placed u old (w.record i call (.command (.transaction (appending u e)) r)
        (ChatCmd.exec w.shared (.transaction (appending u e))).2 (some ⟨call, p⟩))
      (Function.update g i ⟨.moved, none⟩) := by
  obtain ⟨hthread, hold⟩ := h.moved_of_knows hknows
  have hlook := look_appending (fun ms => (h.types ms).1) e
  have hhistory : (ChatCmd.exec w.shared (.transaction (appending u e))).2.look
      (historyKey u defaultChatThreadId) =
        some (.list (recent (old ++ (appended w.log ++ [e])))) := by
    rw [hlook, Function.update_self, hthread, recent_append_singleton, List.append_assoc]
  have hlegacy : (ChatCmd.exec w.shared (.transaction (appending u e))).2.look
      (legacyHistoryKey u) = w.shared.look (legacyHistoryKey u) := by
    rw [hlook, Function.update_of_ne (historyKey_ne_legacy u _).symm]
  have hmoved : Moved u old (w.record i call (.command (.transaction (appending u e)) r)
      (ChatCmd.exec w.shared (.transaction (appending u e))).2 (some ⟨call, p⟩)) := by
    refine ⟨?_, ?_⟩
    · rw [World.record_shared, hhistory]
      rfl
    · rw [World.record_shared, hlegacy]
      exact hold
  refine h.advance ?_ (.inr hmoved) (fun _ => hmoved) (fun _ => nofun) ?_ nofun
  · intro ms
    rw [hhistory, hlegacy]
    exact ⟨nofun, (h.types ms).2⟩
  · rintro call' p' ⟨⟩
    rw [said_self, ← hspeaks, htoSay]
    exact List.append_nil _

/-- **A command keeps the old messages in one place.** -/
theorem Placed.command (h : Placed u old w g) {c : ChatCmd}
    {k : c.Reply → Program chatSig (Except StoreError Unit)}
    (hi : w.tasks i = some ⟨call, .ask c k⟩) (hmay : (manners u).may (g i) c)
    (hg : unspent u w ⟨i, call, .command c (c.exec w.shared).1⟩ = true) :
    Placed u old (w.record i call (.command c (c.exec w.shared).1) (c.exec w.shared).2
        (some ⟨call, k (c.exec w.shared).1⟩))
      (Function.update g i ((g i).next u c (c.exec w.shared).1)) := by
  have hspeaks := h.said i call _ hi
  by_cases hc : ∃ ws, c = .transaction ws
  · obtain ⟨ws, rfl⟩ := hc
    rcases hmay with ⟨entries, rfl, hknows⟩ | ⟨e, rfl, hknows, htoSay⟩
    · have hnext : (g i).next u (.transaction (moving u entries))
          (ChatCmd.exec w.shared (.transaction (moving u entries))).1 = ⟨.moved, (g i).toSay⟩ := by
        show Caller.mk .moved (if (spoken (moving u entries)).isSome then none else (g i).toSay) = _
        rw [spoken_moving]
        rfl
      rw [hnext]
      refine h.move hspeaks hknows ?_ _
      unfold unspent at hg
      dsimp only at hg
      rw [deletes_moving, Bool.not_true, Bool.false_or] at hg
      simpa using hg
    · exact h.append hspeaks hknows htoSay _
  · have hquiet : ∀ ws, c ≠ .transaction ws := fun ws heq => hc ⟨ws, heq⟩
    obtain ⟨hknows, hholds, htoSay⟩ := h.learns (i := i) hquiet
    have hnothing : appends (.command c (c.exec w.shared).1) = none := by
      rcases c with _ | _ | _ | ws | _ | _ | _ | _ | _
      case transaction => exact absurd rfl (hquiet ws)
      all_goals rfl
    refine h.quiet (fun key hkey => look_exec hmay hquiet w.shared hkey) hnothing hknows hholds ?_
      nofun
    rintro call' p' ⟨⟩
    rw [said_self, hnothing, htoSay]
    simpa using hspeaks

theorem placed_tied (u : Text) (old : List Entry) :
    Tied (chats u) (unspentCalls u) (fun s => HasOld u old s.look) (manners u)
      (fun call => ⟨.nothing, call.says⟩)
      (fun _ r t => ∀ a, r = .ok a → t.knows = .moved ∧ t.toSay = none) (Placed u old) where
  body := fun call _ => abides_body u call
  init := fun s hs => by
    refine ⟨fun _ => ⟨.nothing, none⟩, ?_, ?_, fun _ _ => nofun, fun _ _ _ => nofun, ?_, ?_⟩
    · intro ms
      refine ⟨?_, hs.type ms⟩
      rw [show (World.fresh s : ChatWorld).shared = s from rfl, hs.history]
      exact nofun
    · have hhistory : listOf (s.look (historyKey u defaultChatThreadId)) = [] := by
        rw [hs.history]
        rfl
      rcases eq_or_ne old [] with rfl | hne
      · exact .inr ⟨hhistory, hs.legacy⟩
      · exact .inl ⟨hhistory, hs.legacy, hne, rfl, fun _ => nofun⟩
    · rintro ⟨e, he, -⟩
      cases he
    · intro newer older i call hlog
      cases newer <;> cases hlog
  start := fun w g i call h _ _ => by
    refine h.quiet (fun _ _ => rfl) rfl (fun _ => nofun) (fun _ => nofun) ?_ nofun
    rintro call' p ⟨⟩
    rw [said, if_pos rfl]
    rfl
  command := fun w g i call c k h hi _ hmay _ hg => ⟨_, rfl, h.command hi hmay hg⟩
  -- A call that returns has made sure of the move, and has said what it had to say.
  finish := fun w g i call a h hi hQ => by
    have hquiet : Placed u old (w.record i call (.finish a) w.shared none)
        (Function.update g i (g i)) := by
      refine h.quiet (fun _ _ => rfl) rfl (fun hunmoved => hunmoved.callers i) (h.holds i)
        (fun _ _ => nofun) ?_
      rintro ⟨⟩
      obtain ⟨hknows, htoSay⟩ := hQ () rfl
      have hspeaks := h.said i call _ hi
      rw [htoSay] at hspeaks
      exact ⟨h.moved_of_knows hknows, by simpa using hspeaks⟩
    rwa [Function.update_eq_self] at hquiet
  crash := fun w g i call p h _ => by
    have hquiet : Placed u old (w.record i call .crash w.shared none)
        (Function.update g i (g i)) :=
      h.quiet (fun _ _ => rfl) rfl (fun hunmoved => hunmoved.callers i) (h.holds i)
        (fun _ _ => nofun) nofun
    rwa [Function.update_eq_self] at hquiet
  outside := fun w g s h hs => by
    have hlook : s.look = w.shared.look := congrArg Keyspace.look hs
    refine ⟨?_, ?_, h.holds, h.said, ?_, h.returned⟩
    · intro ms
      rw [hlook]
      exact h.types ms
    · rcases h.place with hunmoved | hmoved
      · refine .inl ⟨?_, ?_, hunmoved.ne_nil, hunmoved.appended, hunmoved.callers⟩
        · rw [hlook]
          exact hunmoved.history
        · rw [hlook]
          exact hunmoved.legacy
      · refine .inr ⟨?_, ?_⟩
        · rw [hlook]
          exact hmoved.history
        · rw [hlook]
          exact hmoved.legacy
    · intro hreturned
      obtain ⟨hthread, hold⟩ := h.moved hreturned
      refine ⟨?_, ?_⟩
      · rw [hlook]
        exact hthread
      · rw [hlook]
        exact hold

end Invariant

/-- **Where transactions find the old messages still there, these are moved once and nothing is
lost**, in every run of any callers. -/
theorem onceOnly_of_unspent (u : Text) (old : List Entry) {w : ChatWorld}
    (hw : Reachable (chats u) (unspentCalls u) (fun s => HasOld u old s.look) w)
    (hfew : old.length + (appended w.log).length ≤ maxHistory) : OnceOnly u old w := by
  obtain ⟨g, h, -⟩ := hw.ghosts (placed_tied u old)
  have hshort : recent (old ++ appended w.log) = old ++ appended w.log :=
    recent_of_length_le (by rwa [List.length_append])
  refine ⟨?_, fun hreturned => (h.moved hreturned).legacy, h.returned⟩
  unfold Store.thread
  rcases h.place with hunmoved | hmoved
  · rw [if_pos ⟨rfl, hunmoved.history⟩, hunmoved.legacy, hunmoved.appended, List.append_nil]
    rw [hunmoved.appended, List.append_nil] at hshort
    exact hshort
  · rw [hmoved.history, hmoved.legacy, hshort]
    split
    · next hnil => exact hnil.2.symm
    · rfl

/-! ### Runs that are worked out -/

instance (u : Text) (call : DefaultCall) : Decidable ((unspentCalls u).starts call) :=
  inferInstanceAs (Decidable True)

instance (u : Text) (w : ChatWorld)
    (e : Command.Entry chatSig DefaultCall (Except StoreError Unit)) :
    Decidable ((unspentCalls u).guard w e) := inferInstanceAs (Decidable (_ = true))

instance (call : DefaultCall) : Decidable (anyCalls.starts call) := inferInstanceAs (Decidable True)

instance (w : ChatWorld) (e : Command.Entry chatSig DefaultCall (Except StoreError Unit)) :
    Decidable (anyCalls.guard w e) := inferInstanceAs (Decidable True)

instance (u : Text) (c : ChatCmd) (s : Server) : Decidable ((chats u).store.ready c s) :=
  inferInstanceAs (Decidable True)

theorem hasOld_oldServer : HasOld "anna".toList [⟨"user".toList, "old".toList, 0⟩]
    oldServer.look where
  history := by
    rw [show oldServer.look (historyKey "anna".toList defaultChatThreadId) = _ from
      AList.lookup_insert_ne (historyKey_ne_legacy _ _)]
    rfl
  type := by
    rw [show oldServer.look (legacyHistoryKey "anna".toList) = _ from AList.lookup_insert _]
    exact fun _ => nofun
  legacy := by
    rw [show oldServer.look (legacyHistoryKey "anna".toList) = _ from AList.lookup_insert _]
    rfl

/-- One caller that appends a message. -/
theorem onceOnly_of_unspent_oldServer : ∃ w : ChatWorld, (appended w.log).length = 1 ∧
    OnceOnly "anna".toList [⟨"user".toList, "old".toList, 0⟩] w := by
  obtain ⟨w, -, hw, -, hp⟩ := World.exists_of_play (Y := chats "anna".toList)
    (R := unspentCalls "anna".toList) (I := fun s => HasOld "anna".toList _ s.look)
    hasOld_oldServer
      (.start 0 (.appendMessage "user".toList "new".toList) :: List.replicate 9 (.next 0)) []
    (p := fun w _ => (appended w.log).length = 1) (by decide +kernel)
  have hone := of_decide_eq_true hp
  refine ⟨w, hone, onceOnly_of_unspent _ _ hw ?_⟩
  rw [hone]
  decide

/-- **Two readers that look at the thread at once have the old messages in it twice.** -/
theorem not_onceOnly_twoReaders :
    ¬∀ (u : Text) (old : List Entry) (w : ChatWorld),
      Reachable (chats u) anyCalls (fun s => HasOld u old s.look) w →
        old.length + (appended w.log).length ≤ maxHistory → OnceOnly u old w := by
  intro h
  obtain ⟨w, -, hw, -, hp⟩ := World.exists_of_play (Y := chats "anna".toList) (R := anyCalls)
    (I := fun s => HasOld "anna".toList _ s.look) hasOld_oldServer
    [.start 0 .getHistory, .start 1 .getHistory, .next 0, .next 0, .next 1,
      .next 1, .next 0, .next 1] []
    (p := fun w _ => (appended w.log).length = 0 ∧
      (w.shared.look.thread "anna".toList defaultChatThreadId).length = 2) (by decide +kernel)
  obtain ⟨hnothing, htwice⟩ := of_decide_eq_true hp
  have honce := (h _ _ w hw (by rw [hnothing]; decide)).thread
  have hlength := congrArg List.length honce
  rw [htwice, List.length_append, hnothing] at hlength
  exact absurd hlength (by decide)

end Chat

end AiAgent

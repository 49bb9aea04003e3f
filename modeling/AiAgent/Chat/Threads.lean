import AiAgent.Chat.Commands
import AiAgent.Command.Succeed

/-!
# The chat store is a map of bounded lists

What a user sees of the chat store are threads: the last messages of each, and the list of them.
The store keeps them in three places. The messages of the default thread may still stand under the
old key, from where any of three functions moves them; and the list of the threads is mended from a
scan of the keys whenever it is looked at.

Of all this nothing is seen (`AiAgent.Chat.follows_run`). A thread shows its messages wherever they
stand (`AiAgent.Chat.Store.thread`), and it is listed if it is a member of the list or shows any
(`AiAgent.Chat.Store.Lists`); every function, run alone, does to these two what it should and
leaves all other threads alone. What makes this work is that every thread that has messages under
its own key is a member of the list already (`AiAgent.Chat.Indexed`), so that mending changes
nothing.
-/

namespace AiAgent

namespace Chat

open Text Budget Command

/-! ### What is seen of a store -/

/-- A thread id that is normalized, and not that of the list of the threads. -/
structure IsThread (t : Text) : Prop where
  /-- It has no white space at its ends. -/
  tight : Tight t
  /-- It is not empty. -/
  ne_nil : t ≠ []
  /-- It is free. -/
  free : t ≠ registryName

/-- The messages of a value. -/
def listOf : Option Value → List Entry
  | some (.list entries) => entries
  | _ => []

/-- The members of a value, with their scores. -/
def membersOf : Option Value → List (Text × ℕ)
  | some (.sorted members) => members
  | _ => []

namespace Store

/-- The messages a thread shows: its own, or, if the default thread has none, the old ones. -/
def thread (s : Store) (u t : Text) : List Entry :=
  if t = defaultChatThreadId ∧ listOf (s (historyKey u t)) = [] then
    recent (listOf (s (legacyHistoryKey u)))
  else listOf (s (historyKey u t))

/-- The members of the list of a user's threads. -/
def members (s : Store) (u : Text) : List Text :=
  (membersOf (s (threadRegistryKey u))).map Prod.fst

/-- The thread is listed, or will be as soon as the list is looked at. -/
def Lists (s : Store) (u t : Text) : Prop := t ∈ s.members u ∨ s.thread u t ≠ []

end Store

/-- The keys are of the right types. -/
structure Typed (s : Store) : Prop where
  /-- The lists of the threads. -/
  registry : ∀ u, IsUsername u → ∀ l, s (threadRegistryKey u) ≠ some (.list l)
  /-- The messages. -/
  history : ∀ u t, IsUsername u → IsThread t → ∀ ms, s (historyKey u t) ≠ some (.sorted ms)
  /-- The old messages. -/
  legacy : ∀ u, IsUsername u → ∀ ms, s (legacyHistoryKey u) ≠ some (.sorted ms)
  /-- There are never too many messages. -/
  short : ∀ u t, IsUsername u → IsThread t → (listOf (s (historyKey u t))).length ≤ maxHistory
  /-- A thread is listed once. -/
  nodup : ∀ u, IsUsername u → (s.members u).Nodup
  /-- Only threads are listed. -/
  member : ∀ u t, IsUsername u → t ∈ s.members u → IsThread t
  /-- There are no other keys. -/
  keys : ∀ key, s key ≠ none → ∃ u, IsUsername u ∧ (key = legacyHistoryKey u ∨
    key = threadRegistryKey u ∨ ∃ t, IsThread t ∧ key = historyKey u t)

/-- Every thread with messages under its own key is a member of the list. -/
def Indexed (s : Store) : Prop :=
  ∀ u t, IsUsername u → IsThread t → listOf (s (historyKey u t)) ≠ [] → t ∈ s.members u

/-- A change that is one of a single thread. -/
structure Within (u t : Text) (s s' : Store) : Prop where
  /-- The other keys. -/
  others : ∀ key, key ≠ historyKey u t → key ≠ legacyHistoryKey u → key ≠ threadRegistryKey u →
    s' key = s key
  /-- The old messages are those of the default thread. -/
  legacy : t ≠ defaultChatThreadId → s' (legacyHistoryKey u) = s (legacyHistoryKey u)
  /-- The other threads in the list. -/
  members : ∀ t', t' ≠ t → (t' ∈ s'.members u ↔ t' ∈ s.members u)

variable {s s' s'' : Store} {u u' t t' : Text}

theorem normalizeThreadId_of_isThread (ht : IsThread t) : normalizeThreadId (some t) = t := by
  rw [normalizeThreadId, Option.getD_some, strip_of_tight ht.tight]
  exact if_neg ht.ne_nil

theorem isThread_default : IsThread defaultChatThreadId where
  tight := by
    rw [← show strip defaultChatThreadId = defaultChatThreadId by decide +kernel]
    exact tight_strip _
  ne_nil := by decide +kernel
  free := by decide +kernel

/-! ### Keys -/

theorem historyKey_ne (hu : IsUsername u) (hu' : IsUsername u') (hne : ¬(u' = u ∧ t' = t)) :
    historyKey u' t' ≠ historyKey u t := fun h =>
  hne (historyKey_inj hu'.notMem_colon hu.notMem_colon h)

theorem registry_ne_history (hu : IsUsername u) (hu' : IsUsername u') (ht : IsThread t) :
    threadRegistryKey u' ≠ historyKey u t := fun h =>
  ht.free (historyKey_inj hu'.notMem_colon hu.notMem_colon h).2.symm

theorem legacy_ne_history (hu' : IsUsername u') : legacyHistoryKey u' ≠ historyKey u t :=
  (historyKey_ne_legacyHistoryKey hu'.notMem_colon).symm

theorem legacy_ne_registry (hu' : IsUsername u') : legacyHistoryKey u' ≠ threadRegistryKey u :=
  legacy_ne_history hu'

theorem registry_ne_registry (hu : IsUsername u) (hu' : IsUsername u') (hne : u' ≠ u) :
    threadRegistryKey u' ≠ threadRegistryKey u := fun h =>
  hne (historyKey_inj hu'.notMem_colon hu.notMem_colon h).1

theorem legacy_ne_legacy (hne : u' ≠ u) : legacyHistoryKey u' ≠ legacyHistoryKey u := fun h =>
  hne (List.append_cancel_left h)

theorem members_congr (h : s' (threadRegistryKey u) = s (threadRegistryKey u)) :
    s'.members u = s.members u := by
  unfold Store.members
  rw [h]

/-! ### Changes of one thread -/

theorem Within.refl (u t : Text) (s : Store) : Within u t s s :=
  ⟨fun _ _ _ _ => rfl, fun _ => rfl, fun _ _ => Iff.rfl⟩

theorem Within.trans (h : Within u t s s') (h' : Within u t s' s'') : Within u t s s'' where
  others := fun key hkey hlegacy hregistry =>
    (h'.others key hkey hlegacy hregistry).trans (h.others key hkey hlegacy hregistry)
  legacy := fun ht => (h'.legacy ht).trans (h.legacy ht)
  members := fun t' ht' => (h'.members t' ht').trans (h.members t' ht')

/-- **What is seen of the other threads stays the same.** -/
theorem Within.same (h : Within u t s s') (hu : IsUsername u) (hu' : IsUsername u')
    (ht' : IsThread t') (hne : ¬(u' = u ∧ t' = t)) :
    s'.thread u' t' = s.thread u' t' ∧ (t' ∈ s'.members u' ↔ t' ∈ s.members u') := by
  have hhistory : s' (historyKey u' t') = s (historyKey u' t') :=
    h.others _ (historyKey_ne hu hu' hne) (legacy_ne_history hu).symm
      (registry_ne_history hu' hu ht').symm
  have hlegacy : t' = defaultChatThreadId →
      s' (legacyHistoryKey u') = s (legacyHistoryKey u') := by
    rintro rfl
    rcases eq_or_ne u' u with rfl | hother
    · exact h.legacy fun ht => hne ⟨rfl, ht.symm⟩
    · exact h.others _ (legacy_ne_history hu') (legacy_ne_legacy hother) (legacy_ne_registry hu')
  constructor
  · unfold Store.thread
    rw [hhistory]
    split
    · next hdefault => rw [hlegacy hdefault.1]
    · rfl
  · rcases eq_or_ne u' u with rfl | hother
    · exact h.members t' fun ht => hne ⟨rfl, ht⟩
    · have hregistry : s' (threadRegistryKey u') = s (threadRegistryKey u') :=
        h.others _ (fun heq => hother (historyKey_inj hu'.notMem_colon hu.notMem_colon heq).1)
          (legacy_ne_registry hu).symm (registry_ne_registry hu hu' hother)
      rw [members_congr hregistry]

theorem Within.indexed (h : Within u t s s') (hu : IsUsername u) (hs : Indexed s)
    (hself : listOf (s' (historyKey u t)) ≠ [] → t ∈ s'.members u) : Indexed s' := by
  intro u' t' hu' ht' hne
  by_cases hsame : u' = u ∧ t' = t
  · obtain ⟨rfl, rfl⟩ := hsame
    exact hself hne
  · rw [(h.same hu hu' ht' hsame).2]
    refine hs u' t' hu' ht' ?_
    rwa [h.others _ (historyKey_ne hu hu' hsame) (legacy_ne_history hu).symm
      (registry_ne_history hu' hu ht').symm] at hne

/-! ### Writing to one key -/

section Writing

variable (hu : IsUsername u)
include hu

/-- The messages of a thread are written. -/
theorem typed_history (hs : Typed s) (ht : IsThread t) {v : Option Value}
    (hv : ∀ ms, v ≠ some (.sorted ms)) (hshort : (listOf v).length ≤ maxHistory) :
    Typed (Function.update s (historyKey u t) v) ∧
      Within u t s (Function.update s (historyKey u t) v) := by
  have hregistry : ∀ u', IsUsername u' →
      Function.update s (historyKey u t) v (threadRegistryKey u') = s (threadRegistryKey u') :=
    fun u' hu' => Function.update_of_ne (registry_ne_history hu hu' ht) _ _
  -- Only this thread of this user is changed.
  have hself : ∀ u' t', IsUsername u' →
      (u' = u ∧ t' = t ∧ Function.update s (historyKey u t) v (historyKey u' t') = v) ∨
        Function.update s (historyKey u t) v (historyKey u' t') = s (historyKey u' t') := by
    intro u' t' hu'
    by_cases hsame : u' = u ∧ t' = t
    · obtain ⟨rfl, rfl⟩ := hsame
      exact .inl ⟨rfl, rfl, Function.update_self _ _ _⟩
    · exact .inr (Function.update_of_ne (historyKey_ne hu hu' hsame) _ _)
  refine ⟨⟨?_, ?_, ?_, ?_, ?_, ?_, ?_⟩, ?_, ?_, ?_⟩
  · intro u' hu'
    rw [hregistry u' hu']
    exact hs.registry u' hu'
  · intro u' t' hu' ht'
    rcases hself u' t' hu' with ⟨-, -, heq⟩ | heq <;> rw [heq]
    · exact hv
    · exact hs.history u' t' hu' ht'
  · intro u' hu'
    rw [Function.update_of_ne (legacy_ne_history hu')]
    exact hs.legacy u' hu'
  · intro u' t' hu' ht'
    rcases hself u' t' hu' with ⟨-, -, heq⟩ | heq <;> rw [heq]
    · exact hshort
    · exact hs.short u' t' hu' ht'
  · intro u' hu'
    rw [members_congr (hregistry u' hu')]
    exact hs.nodup u' hu'
  · intro u' t' hu' hmem
    rw [members_congr (hregistry u' hu')] at hmem
    exact hs.member u' t' hu' hmem
  · intro key hkey
    rcases eq_or_ne key (historyKey u t) with rfl | hne
    · exact ⟨u, hu, .inr (.inr ⟨t, ht, rfl⟩)⟩
    · rw [Function.update_of_ne hne] at hkey
      exact hs.keys key hkey
  · exact fun key hkey _ _ => Function.update_of_ne hkey _ _
  · exact fun _ => Function.update_of_ne (legacy_ne_history hu) _ _
  · intro t' _
    rw [members_congr (hregistry u hu)]

/-- The old messages are deleted. -/
theorem typed_legacy (hs : Typed s) :
    Typed (Function.update s (legacyHistoryKey u) none) ∧
      Within u defaultChatThreadId s (Function.update s (legacyHistoryKey u) none) := by
  have hhistory : ∀ u' t', Function.update s (legacyHistoryKey u) none (historyKey u' t') =
      s (historyKey u' t') := fun u' t' =>
    Function.update_of_ne (legacy_ne_history hu).symm _ _
  refine ⟨⟨?_, ?_, ?_, ?_, ?_, ?_, ?_⟩, ?_, ?_, ?_⟩
  · intro u' hu'
    rw [threadRegistryKey, hhistory]
    exact hs.registry u' hu'
  · intro u' t' hu' ht'
    rw [hhistory]
    exact hs.history u' t' hu' ht'
  · intro u' hu' ms
    rcases eq_or_ne u' u with rfl | hne
    · rw [Function.update_self]
      rintro ⟨⟩
    · rw [Function.update_of_ne (legacy_ne_legacy hne)]
      exact hs.legacy u' hu' ms
  · intro u' t' hu' ht'
    rw [hhistory]
    exact hs.short u' t' hu' ht'
  · intro u' hu'
    rw [members_congr (hhistory u' _)]
    exact hs.nodup u' hu'
  · intro u' t' hu' hmem
    rw [members_congr (hhistory u' _)] at hmem
    exact hs.member u' t' hu' hmem
  · intro key hkey
    rcases eq_or_ne key (legacyHistoryKey u) with rfl | hne
    · rw [Function.update_self] at hkey
      exact absurd rfl hkey
    · rw [Function.update_of_ne hne] at hkey
      exact hs.keys key hkey
  · exact fun key _ hkey _ => Function.update_of_ne hkey _ _
  · exact fun hne => absurd rfl hne
  · intro t' _
    rw [members_congr (hhistory u _)]

/-- The list of the threads is written. -/
theorem typed_registry (hs : Typed s) {v : Option Value} (hv : ∀ l, v ≠ some (.list l))
    (hnodup : ((membersOf v).map Prod.fst).Nodup)
    (hmember : ∀ t' ∈ (membersOf v).map Prod.fst, IsThread t')
    (hothers : ∀ t', t' ≠ t → (t' ∈ (membersOf v).map Prod.fst ↔ t' ∈ s.members u)) :
    Typed (Function.update s (threadRegistryKey u) v) ∧
      Within u t s (Function.update s (threadRegistryKey u) v) := by
  have hself : Store.members (Function.update s (threadRegistryKey u) v) u =
      (membersOf v).map Prod.fst := by
    unfold Store.members
    rw [Function.update_self]
  -- No other registry and no history has this key.
  have hother : ∀ u', IsUsername u' → u' ≠ u →
      Function.update s (threadRegistryKey u) v (threadRegistryKey u') =
        s (threadRegistryKey u') := fun u' hu' hne =>
    Function.update_of_ne (registry_ne_registry hu hu' hne) _ _
  have hhistory : ∀ u' t', IsUsername u' → IsThread t' →
      Function.update s (threadRegistryKey u) v (historyKey u' t') = s (historyKey u' t') :=
    fun u' t' hu' ht' => Function.update_of_ne (registry_ne_history hu' hu ht').symm _ _
  refine ⟨⟨?_, ?_, ?_, ?_, ?_, ?_, ?_⟩, ?_, ?_, ?_⟩
  · intro u' hu'
    rcases eq_or_ne u' u with rfl | hne
    · rw [Function.update_self]
      exact hv
    · rw [hother u' hu' hne]
      exact hs.registry u' hu'
  · intro u' t' hu' ht'
    rw [hhistory u' t' hu' ht']
    exact hs.history u' t' hu' ht'
  · intro u' hu'
    rw [Function.update_of_ne (legacy_ne_registry hu')]
    exact hs.legacy u' hu'
  · intro u' t' hu' ht'
    rw [hhistory u' t' hu' ht']
    exact hs.short u' t' hu' ht'
  · intro u' hu'
    rcases eq_or_ne u' u with rfl | hne
    · rwa [hself]
    · rw [members_congr (hother u' hu' hne)]
      exact hs.nodup u' hu'
  · intro u' t' hu' hmem
    rcases eq_or_ne u' u with rfl | hne
    · rw [hself] at hmem
      exact hmember t' hmem
    · rw [members_congr (hother u' hu' hne)] at hmem
      exact hs.member u' t' hu' hmem
  · intro key hkey
    rcases eq_or_ne key (threadRegistryKey u) with rfl | hne
    · exact ⟨u, hu, .inr (.inl rfl)⟩
    · rw [Function.update_of_ne hne] at hkey
      exact hs.keys key hkey
  · exact fun key _ _ hkey => Function.update_of_ne hkey _ _
  · exact fun _ => Function.update_of_ne (legacy_ne_registry hu) _ _
  · intro t' ht'
    rw [hself]
    exact hothers t' ht'

end Writing

/-! ### What one function does to what is seen -/

/-- The store of a server. -/
abbrev Server.look (s : Server) : Store := s.keyspace.look

/-- The function gets through. -/
abbrev Runs {α : Type} (p : ChatOp α) (s : Server) (Q : α → Server → Prop) : Prop :=
  Succeeds chatServer 0 p s Q

/-- **A function for one thread**: what the thread shows then, and whether it is listed. -/
structure Acts (u t : Text) (entries : List Entry) (listed : Prop) (s s' : Store) : Prop where
  /-- The keys. -/
  typed : Typed s'
  /-- The list of the threads. -/
  indexed : Indexed s'
  /-- Everything else. -/
  within : Within u t s s'
  /-- The messages. -/
  thread : s'.thread u t = entries
  /-- Its place in the list. -/
  lists : s'.Lists u t ↔ listed

/-- Nothing is seen of what has changed. -/
structure Same (s s' : Store) : Prop where
  /-- The keys. -/
  typed : Typed s'
  /-- The list of the threads. -/
  indexed : Indexed s'
  /-- The messages. -/
  thread : ∀ u t, IsUsername u → IsThread t → s'.thread u t = s.thread u t
  /-- What is listed. -/
  lists : ∀ u t, IsUsername u → IsThread t → (s'.Lists u t ↔ s.Lists u t)

theorem Same.refl (h : Typed s) (hi : Indexed s) : Same s s :=
  ⟨h, hi, fun _ _ _ _ => rfl, fun _ _ _ _ => Iff.rfl⟩

theorem Same.trans (h : Same s s') (h' : Same s' s'') : Same s s'' where
  typed := h'.typed
  indexed := h'.indexed
  thread := fun u t hu ht => (h'.thread u t hu ht).trans (h.thread u t hu ht)
  lists := fun u t hu ht => (h'.lists u t hu ht).trans (h.lists u t hu ht)

/-- What is seen of the other threads stays the same. -/
theorem Acts.others {entries : List Entry} {listed : Prop} (h : Acts u t entries listed s s')
    (hu : IsUsername u) (hu' : IsUsername u') (ht' : IsThread t') (hne : ¬(u' = u ∧ t' = t)) :
    s'.thread u' t' = s.thread u' t' ∧ (s'.Lists u' t' ↔ s.Lists u' t') := by
  obtain ⟨hthread, hmembers⟩ := h.within.same hu hu' ht' hne
  refine ⟨hthread, ?_⟩
  unfold Store.Lists
  rw [hthread, hmembers]

theorem Acts.same (h : Acts u t (s.thread u t) (s.Lists u t) s s') (hu : IsUsername u) :
    Same s s' := by
  refine ⟨h.typed, h.indexed, fun u' t' hu' ht' => ?_, fun u' t' hu' ht' => ?_⟩
  · by_cases hsame : u' = u ∧ t' = t
    · obtain ⟨rfl, rfl⟩ := hsame
      exact h.thread
    · exact (h.others hu hu' ht' hsame).1
  · by_cases hsame : u' = u ∧ t' = t
    · obtain ⟨rfl, rfl⟩ := hsame
      exact h.lists
    · exact (h.others hu hu' ht' hsame).2

/-- A thread that has messages of its own shows them. -/
theorem thread_of_own (h : listOf (s (historyKey u t)) ≠ []) :
    s.thread u t = listOf (s (historyKey u t)) := if_neg fun hdefault => h hdefault.2

/-- So does every thread but the default one. -/
theorem thread_of_ne (h : t ≠ defaultChatThreadId) :
    s.thread u t = listOf (s (historyKey u t)) := if_neg fun hdefault => h hdefault.1

/-- What a change of the list of the threads leaves as it was. -/
structure Touched (u t : Text) (s s' : Store) : Prop where
  /-- The keys. -/
  typed : Typed s'
  /-- Everything else. -/
  within : Within u t s s'
  /-- It is a member. -/
  self : t ∈ s'.members u
  /-- Its messages. -/
  history : s' (historyKey u t) = s (historyKey u t)
  /-- The old messages. -/
  legacy : s' (legacyHistoryKey u) = s (legacyHistoryKey u)

theorem Touched.thread (h : Touched u t s s') : s'.thread u t = s.thread u t := by
  unfold Store.thread
  rw [h.history, h.legacy]

theorem Touched.acts (h : Touched u t s s') (hu : IsUsername u) (hi : Indexed s) :
    Acts u t (s.thread u t) True s s' where
  typed := h.typed
  indexed := h.within.indexed hu hi fun _ => h.self
  within := h.within
  thread := h.thread
  lists := iff_of_true (.inl h.self) trivial

/-- A thread that is listed already stays so. -/
theorem Touched.acts_of_lists (h : Touched u t s s') (hu : IsUsername u) (hi : Indexed s)
    (hlisted : s.Lists u t) : Acts u t (s.thread u t) (s.Lists u t) s s' where
  typed := h.typed
  indexed := (h.acts hu hi).indexed
  within := h.within
  thread := h.thread
  lists := iff_of_true (.inl h.self) hlisted

/-! ### The functions -/

namespace AsyncChatStore

variable {srv : Server}

theorem runs_lrange {key : Text} (h : ∀ ms, srv.look key ≠ some (.sorted ms)) :
    Runs (lrange key) srv fun entries srv' => entries = listOf (srv.look key) ∧ srv' = srv := by
  refine ⟨listOf (srv.look key), ?_, rfl, rfl⟩
  show readList (srv.look key) = _
  rcases hv : srv.look key with _ | entries | ms
  · rfl
  · rfl
  · exact absurd hv (h ms)

theorem runs_latestHistoryTimestamp {key : Text} (h : ∀ ms, srv.look key ≠ some (.sorted ms)) :
    Runs (latestHistoryTimestamp key) srv fun timestamp srv' =>
      timestamp = ((listOf (srv.look key)).getLast?.map Entry.createdAt).getD 0 ∧ srv' = srv := by
  refine Succeeds.bind (Q := fun entry srv' => entry = (listOf (srv.look key)).getLast? ∧
    srv' = srv) ?_ ?_
  · refine ⟨(listOf (srv.look key)).getLast?, ?_, rfl, rfl⟩
    show (readList (srv.look key)).map List.getLast? = _
    rcases hv : srv.look key with _ | entries | ms
    · rfl
    · rfl
    · exact absurd hv (h ms)
  · rintro entry srv' ⟨rfl, rfl⟩
    exact succeeds_pure ⟨rfl, rfl⟩

/-- One key is given the value that comes out of its old one. -/
theorem runs_change {p : ChatOp Unit} {key : Text}
    {f : Option Value → Except StoreError (Option Value)} {v : Option Value}
    (hp : p.run.run chatServer 0 srv = srv.change key f) (hf : f (srv.look key) = .ok v) :
    Runs p srv fun _ srv' => srv'.look = Function.update srv.look key v := by
  have hchange : srv.change key f =
      (.ok (), { srv with keyspace := srv.keyspace.set key v }) := by
    unfold Server.change
    rw [show f (srv.keyspace.look key) = _ from hf]
  rw [hchange] at hp
  refine ⟨(), congrArg Prod.fst hp, ?_⟩
  rw [hp]
  exact srv.keyspace.look_set key v

theorem readSorted_registry (hs : Typed s) (hu : IsUsername u) :
    readSorted (s (threadRegistryKey u)) = .ok (membersOf (s (threadRegistryKey u))) := by
  rcases hv : s (threadRegistryKey u) with _ | entries | ms
  · rfl
  · exact absurd hv (hs.registry u hu entries)
  · rfl

theorem map_filter_fst (ms : List (Text × ℕ)) (t : Text) :
    (ms.filter fun m => m.1 ≠ t).map Prod.fst = (ms.map Prod.fst).filter fun t' => t' ≠ t := by
  rw [List.filter_map]
  rfl

theorem runs_zadd (hs : Typed srv.look) (hu : IsUsername u) (ht : IsThread t) (score : ℕ) :
    Runs (zadd (threadRegistryKey u) t score) srv fun _ srv' =>
      Touched u t srv.look srv'.look := by
  have hadd : addMember t score (srv.look (threadRegistryKey u)) =
      .ok (some (.sorted ((t, score) ::
        (membersOf (srv.look (threadRegistryKey u))).filter fun m => m.1 ≠ t))) := by
    rw [addMember, readSorted_registry hs hu]
    rfl
  refine (runs_change rfl hadd).mono fun _ srv' hlook => ?_
  have hmembers : (membersOf (some (.sorted ((t, score) ::
      (membersOf (srv.look (threadRegistryKey u))).filter fun m => m.1 ≠ t)))).map Prod.fst =
        t :: (srv.look.members u).filter fun t' => t' ≠ t :=
    congrArg (t :: ·) (map_filter_fst _ t)
  obtain ⟨htyped, hwithin⟩ := typed_registry (t := t) (v := some (.sorted ((t, score) ::
      (membersOf (srv.look (threadRegistryKey u))).filter fun m => m.1 ≠ t))) hu hs (fun _ => nofun)
    (by
      rw [hmembers]
      refine List.nodup_cons.mpr ⟨fun hmem => ?_, (hs.nodup u hu).filter _⟩
      simpa using (List.mem_filter.mp hmem).2)
    (by
      rw [hmembers]
      intro t' hmem
      rcases List.mem_cons.mp hmem with rfl | hmem
      · exact ht
      · exact hs.member u t' hu (List.mem_filter.mp hmem).1)
    (by
      intro t' hne
      rw [hmembers]
      simp [hne])
  rw [hlook]
  refine ⟨htyped, hwithin, ?_, ?_, ?_⟩
  · unfold Store.members
    rw [Function.update_self, hmembers]
    exact List.mem_cons_self
  · exact Function.update_of_ne (registry_ne_history hu hu ht).symm _ _
  · exact Function.update_of_ne (legacy_ne_registry hu) _ _

theorem runs_time : Runs time srv fun now srv' => now = srv.clock ∧ srv' = srv :=
  ⟨srv.clock, rfl, rfl, rfl⟩

theorem runs_touchThreadRegistry (hs : Typed srv.look) (hu : IsUsername u) (ht : IsThread t)
    (updatedAt : ℕ) :
    Runs (touchThreadRegistry u t updatedAt) srv fun _ srv' =>
      Touched u t srv.look srv'.look := by
  unfold touchThreadRegistry
  refine Succeeds.bind (Q := fun _ srv' => srv' = srv) ?_ ?_
  · split
    · exact runs_time.mono fun _ _ h => h.2
    · exact succeeds_pure rfl
  · rintro score srv' rfl
    rw [normalizeThreadId_of_isThread ht]
    exact runs_zadd hs hu ht score

/-- A thread is taken off the list. -/
theorem runs_removeFromThreadRegistry (hs : Typed srv.look) (hu : IsUsername u) (ht : IsThread t) :
    Runs (removeFromThreadRegistry u t) srv fun _ srv' =>
      Typed srv'.look ∧ Within u t srv.look srv'.look ∧ t ∉ srv'.look.members u ∧
        srv'.look (historyKey u t) = srv.look (historyKey u t) ∧
        srv'.look (legacyHistoryKey u) = srv.look (legacyHistoryKey u) := by
  unfold removeFromThreadRegistry
  rw [normalizeThreadId_of_isThread ht]
  generalize hrest : (membersOf (srv.look (threadRegistryKey u))).filter (fun m => m.1 ≠ t) = rest
  -- A set that has lost its last member is no key any more.
  have hremove : removeMember t (srv.look (threadRegistryKey u)) =
      .ok (if rest = [] then none else some (.sorted rest)) := by
    rw [removeMember, readSorted_registry hs hu, ← hrest]
    rfl
  refine (runs_change rfl hremove).mono fun _ srv' hlook => ?_
  have hvalue : membersOf (if rest = [] then none else some (.sorted rest)) = rest := by
    split
    · next hnil => rw [hnil]; rfl
    · rfl
  have hmembers : (membersOf (if rest = [] then none else some (.sorted rest))).map Prod.fst =
      (srv.look.members u).filter fun t' => t' ≠ t := by
    rw [hvalue, ← hrest]
    exact map_filter_fst _ t
  obtain ⟨htyped, hwithin⟩ := typed_registry (t := t)
    (v := if rest = [] then none else some (.sorted rest)) hu hs
    (by
      intro l
      split
      · exact nofun
      · exact nofun)
    (by
      rw [hmembers]
      exact (hs.nodup u hu).filter _)
    (by
      rw [hmembers]
      exact fun t' hmem => hs.member u t' hu (List.mem_filter.mp hmem).1)
    (by
      intro t' hne
      rw [hmembers]
      simp [hne])
  rw [hlook]
  refine ⟨htyped, hwithin, ?_, ?_, ?_⟩
  · unfold Store.members
    rw [Function.update_self, hmembers]
    intro hmem
    simpa using (List.mem_filter.mp hmem).2
  · exact Function.update_of_ne (registry_ne_history hu hu ht).symm _ _
  · exact Function.update_of_ne (legacy_ne_registry hu) _ _

/-- What a transaction that begins with an append and a cut makes of the store. -/
theorem transaction_rpush {k : Keyspace} {key : Text} (h : ∀ ms, k.look key ≠ some (.sorted ms))
    (added : List Entry) (ws : List ChatWrite) :
    ∃ k' : Keyspace, k'.look = Function.update k.look key
        (some (.list (recent (listOf (k.look key) ++ added)))) ∧
      k.transaction (.rpush key added :: .ltrim key :: ws) = k'.transaction ws := by
  have hread : readList (k.look key) = .ok (listOf (k.look key)) := by
    rcases hv : k.look key with _ | entries | ms
    · rfl
    · rfl
    · exact absurd hv (h ms)
  have hpushed : (k.set key (some (.list (listOf (k.look key) ++ added)))).look key =
      some (.list (listOf (k.look key) ++ added)) := by
    rw [Keyspace.look_set, Function.update_self]
  refine ⟨(k.set key (some (.list (listOf (k.look key) ++ added)))).set key
    (some (.list (recent (listOf (k.look key) ++ added)))), ?_, ?_⟩
  · rw [Keyspace.look_set, Keyspace.look_set, Function.update_idem]
  · rw [Keyspace.transaction, ChatWrite.exec, hread]
    dsimp only [Except.map]
    rw [Keyspace.transaction, ChatWrite.exec, hpushed]
    rfl

/-- `RPUSH` and `LTRIM`. -/
theorem runs_push {key : Text} (h : ∀ ms, srv.look key ≠ some (.sorted ms)) (added : List Entry) :
    Runs (transaction [.rpush key added, .ltrim key]) srv fun _ srv' =>
      srv'.look = Function.update srv.look key
        (some (.list (recent (listOf (srv.look key) ++ added)))) := by
  obtain ⟨k', hk', hrun⟩ := transaction_rpush h added []
  refine ⟨(), ?_, ?_⟩
  · show (srv.keyspace.transaction _).1 = _
    rw [hrun]
    rfl
  · show (srv.keyspace.transaction _).2.look = _
    rw [hrun]
    exact hk'

/-- `RPUSH`, `LTRIM` and the `DEL` of the old key. -/
theorem runs_move {key : Text} (h : ∀ ms, srv.look key ≠ some (.sorted ms)) (added : List Entry)
    (old : Text) :
    Runs (transaction [.rpush key added, .ltrim key, .delete old]) srv fun _ srv' =>
      srv'.look = Function.update (Function.update srv.look key
        (some (.list (recent (listOf (srv.look key) ++ added))))) old none := by
  obtain ⟨k', hk', hrun⟩ := transaction_rpush h added [.delete old]
  refine ⟨(), ?_, ?_⟩
  · show (srv.keyspace.transaction _).1 = _
    rw [hrun]
    rfl
  · show (srv.keyspace.transaction _).2.look = _
    rw [hrun]
    show (k'.set old none).look = _
    rw [Keyspace.look_set, hk']

/-- **The migration is not seen.** After it, the default thread has its own messages. -/
theorem runs_migrate (hs : Typed srv.look) (hi : Indexed srv.look) (hu : IsUsername u) :
    Runs (migrateLegacyDefaultHistoryIfNeeded u (historyKey u defaultChatThreadId)) srv
      fun _ srv' => Acts u defaultChatThreadId (srv.look.thread u defaultChatThreadId)
          (srv.look.Lists u defaultChatThreadId) srv.look srv'.look ∧
        listOf (srv'.look (historyKey u defaultChatThreadId)) =
          srv'.look.thread u defaultChatThreadId := by
  have hdefault := isThread_default
  unfold migrateLegacyDefaultHistoryIfNeeded
  refine (runs_lrange (hs.history u _ hu hdefault)).bind ?_
  rintro _ srv' ⟨rfl, rfl⟩
  split
  · -- The thread has messages of its own, and is touched.
    next hown =>
    refine (runs_latestHistoryTimestamp (hs.history u _ hu hdefault)).bind ?_
    rintro timestamp srv' ⟨-, rfl⟩
    refine (runs_touchThreadRegistry hs hu hdefault timestamp).bind fun _ srv'' htouched => ?_
    refine succeeds_pure ⟨?_, ?_⟩
    · exact htouched.acts_of_lists hu hi (.inl (hi u _ hu hdefault hown))
    · rw [htouched.thread, htouched.history, thread_of_own hown]
  next hown =>
  have hown : listOf (srv'.look (historyKey u defaultChatThreadId)) = [] := not_not.mp hown
  refine (runs_lrange (hs.legacy u hu)).bind ?_
  rintro _ srv' ⟨rfl, rfl⟩
  have hthread : srv'.look.thread u defaultChatThreadId =
      recent (listOf (srv'.look (legacyHistoryKey u))) := if_pos ⟨rfl, hown⟩
  split
  · -- There is nothing at all.
    next hlegacy =>
    refine succeeds_pure ⟨⟨hs, hi, .refl _ _ _, rfl, Iff.rfl⟩, ?_⟩
    rw [hown, hthread, hlegacy]
    rfl
  · -- The old messages are moved.
    next hlegacy =>
    refine (runs_move (hs.history u _ hu hdefault) _ _).bind fun _ srv₁ hmoved => ?_
    rw [hown, List.nil_append] at hmoved
    obtain ⟨htyped, hwithin⟩ := typed_history (v := some (.list (recent
      (listOf (srv'.look (legacyHistoryKey u)))))) hu hs hdefault (fun _ => nofun)
        (by rw [listOf, length_recent]; omega)
    obtain ⟨htyped, hwithin'⟩ := typed_legacy hu htyped
    rw [← hmoved] at htyped hwithin'
    have hhistory : srv₁.look (historyKey u defaultChatThreadId) =
        some (.list (recent (listOf (srv'.look (legacyHistoryKey u))))) := by
      rw [hmoved, Function.update_of_ne (legacy_ne_history hu).symm, Function.update_self]
    have hmoved' : listOf (srv₁.look (historyKey u defaultChatThreadId)) ≠ [] := by
      rw [hhistory, listOf]
      intro hnil
      have hlength := congrArg List.length hnil
      rw [length_recent, List.length_nil] at hlength
      have hpos := List.length_pos_iff.mpr hlegacy
      have hmax : 0 < maxHistory := by decide
      omega
    refine (runs_latestHistoryTimestamp (htyped.history u _ hu hdefault)).bind ?_
    rintro timestamp srv'' ⟨-, rfl⟩
    refine (runs_touchThreadRegistry htyped hu hdefault timestamp).bind fun _ srv₂ htouched => ?_
    have hafter : srv₂.look.thread u defaultChatThreadId =
        recent (listOf (srv'.look (legacyHistoryKey u))) := by
      rw [htouched.thread, thread_of_own hmoved', hhistory]
      rfl
    have hwithin := (hwithin.trans hwithin').trans htouched.within
    refine succeeds_pure ⟨⟨htouched.typed, hwithin.indexed hu hi fun _ => htouched.self, hwithin,
      hafter.trans hthread.symm, iff_of_true (.inl htouched.self) (.inr ?_)⟩, ?_⟩
    · rw [hthread]
      rwa [hhistory] at hmoved'
    · rw [hafter, htouched.history, hhistory]
      rfl

theorem runs_migrateIfDefault (hs : Typed srv.look) (hi : Indexed srv.look) (hu : IsUsername u) :
    Runs (migrateIfDefault u t) srv fun _ srv' =>
      Acts u t (srv.look.thread u t) (srv.look.Lists u t) srv.look srv'.look ∧
        listOf (srv'.look (historyKey u t)) = srv'.look.thread u t := by
  unfold migrateIfDefault
  split
  · next hdefault =>
    subst hdefault
    exact (runs_migrate hs hi hu).bind fun _ srv' h => succeeds_pure h
  · next hne =>
    exact succeeds_pure ⟨⟨hs, hi, .refl _ _ _, rfl, Iff.rfl⟩, (thread_of_ne hne).symm⟩

/-- **An append adds its message to the thread, and lists it.** -/
theorem runs_appendMessage (hs : Typed srv.look) (hi : Indexed srv.look) (hu : IsUsername u)
    {threadId : Option Text} (ht : IsThread (normalizeThreadId threadId)) (role content : Text) :
    Runs (appendMessage u role content threadId) srv fun _ srv' =>
      Acts u (normalizeThreadId threadId) (recent (srv.look.thread u (normalizeThreadId threadId) ++
        [⟨role, content, srv.clock⟩])) True srv.look srv'.look := by
  unfold appendMessage
  refine runs_time.bind ?_
  rintro _ srv' ⟨rfl, rfl⟩
  dsimp only
  refine (runs_migrateIfDefault hs hi hu).bind ?_
  rintro _ srv₁ ⟨hmigrated, hown⟩
  refine (runs_push (hmigrated.typed.history u _ hu ht) _).bind fun _ srv₂ hpushed => ?_
  rw [hown, hmigrated.thread] at hpushed
  obtain ⟨htyped, hwithin⟩ := typed_history (v := some (.list (recent
    (srv'.look.thread u (normalizeThreadId threadId) ++ [⟨role, content, srv'.clock⟩])))) hu
      hmigrated.typed ht (fun _ => nofun) (by rw [listOf, length_recent]; omega)
  rw [← hpushed] at htyped hwithin
  refine (runs_touchThreadRegistry htyped hu ht _).mono fun _ srv₃ htouched => ?_
  have hlist : srv₃.look (historyKey u (normalizeThreadId threadId)) =
      some (.list (recent (srv'.look.thread u (normalizeThreadId threadId) ++
        [⟨role, content, srv'.clock⟩]))) := by
    rw [htouched.history, hpushed, Function.update_self]
  have hne : listOf (srv₃.look (historyKey u (normalizeThreadId threadId))) ≠ [] := by
    rw [hlist, listOf]
    intro hnil
    have hlength := congrArg List.length hnil
    rw [length_recent, List.length_append, List.length_singleton, List.length_nil] at hlength
    have hmax : 0 < maxHistory := by decide
    omega
  have hall := (hmigrated.within.trans hwithin).trans htouched.within
  refine ⟨htouched.typed, hall.indexed hu hi fun _ => htouched.self, hall, ?_,
    iff_of_true (.inl htouched.self) trivial⟩
  rw [thread_of_own hne, hlist]
  rfl

/-- A created thread is listed. -/
theorem runs_createThread (hs : Typed srv.look) (hi : Indexed srv.look) (hu : IsUsername u)
    {threadId : Option Text} (ht : IsThread (normalizeThreadId threadId)) :
    Runs (createThread u threadId) srv fun created srv' => created = normalizeThreadId threadId ∧
      Acts u (normalizeThreadId threadId) (srv.look.thread u (normalizeThreadId threadId)) True
        srv.look srv'.look := by
  unfold createThread
  refine runs_time.bind ?_
  rintro _ srv' ⟨rfl, rfl⟩
  refine (runs_touchThreadRegistry hs hu ht _).bind fun _ srv₁ htouched => ?_
  exact succeeds_pure ⟨rfl, htouched.acts hu hi⟩

/-- **A look at a thread shows its messages and changes nothing that is seen.** -/
theorem runs_getHistory (hs : Typed srv.look) (hi : Indexed srv.look) (hu : IsUsername u)
    {threadId : Option Text} (ht : IsThread (normalizeThreadId threadId)) :
    Runs (getHistory u threadId) srv fun history srv' =>
      history = decode (srv.look.thread u (normalizeThreadId threadId)) ∧
        Same srv.look srv'.look := by
  unfold getHistory
  dsimp only
  refine (runs_migrateIfDefault hs hi hu).bind ?_
  rintro _ srv₁ ⟨hmigrated, hown⟩
  have hsame := hmigrated.same hu
  refine Succeeds.bind (Q := fun history srv' => history =
    decode (srv.look.thread u (normalizeThreadId threadId)) ∧ srv' = srv₁) ?_ ?_
  · refine (runs_lrange (hmigrated.typed.history u _ hu ht)).bind ?_
    rintro _ srv' ⟨rfl, rfl⟩
    refine succeeds_pure ⟨?_, rfl⟩
    rw [hown, hmigrated.thread]
  rintro _ srv' ⟨rfl, rfl⟩
  split
  · next hhistory =>
    refine (runs_latestHistoryTimestamp (hmigrated.typed.history u _ hu ht)).bind ?_
    rintro timestamp srv' ⟨-, rfl⟩
    refine (runs_touchThreadRegistry hmigrated.typed hu ht timestamp).bind fun _ srv₂ htouched => ?_
    have hlisted : srv'.look.Lists u (normalizeThreadId threadId) := by
      refine .inr fun hnil => hhistory ?_
      rw [← hmigrated.thread, hnil]
      rfl
    have hacts := htouched.acts_of_lists hu hmigrated.indexed hlisted
    exact succeeds_pure ⟨rfl, hsame.trans (hacts.same hu)⟩
  · exact succeeds_pure ⟨rfl, hsame⟩

/-- **A clear leaves the thread without messages**, and keeps it in the list or not. -/
theorem runs_clearHistory (hs : Typed srv.look) (hi : Indexed srv.look) (hu : IsUsername u)
    {threadId : Option Text} (ht : IsThread (normalizeThreadId threadId)) (preserveThread : Bool) :
    Runs (clearHistory u threadId preserveThread) srv fun _ srv' =>
      Acts u (normalizeThreadId threadId) [] (preserveThread = true) srv.look srv'.look := by
  generalize hnormalized : normalizeThreadId threadId = t at ht
  unfold clearHistory
  rw [hnormalized]
  dsimp only
  have hcleared := typed_history (v := none) hu hs ht (fun _ => nofun)
    (Nat.zero_le maxHistory)
  refine Succeeds.bind (Q := fun _ srv' => Typed srv'.look ∧ Within u t srv.look srv'.look ∧
    srv'.look (historyKey u t) = none ∧
      (t = defaultChatThreadId → srv'.look (legacyHistoryKey u) = none)) ?_ ?_
  · refine ⟨(), rfl, ?_⟩
    split
    · next hdefault =>
      subst hdefault
      show Typed ((srv.keyspace.set _ none).set _ none).look ∧ _
      have hlegacy := typed_legacy hu hcleared.1
      have hlook : ((srv.keyspace.set (historyKey u defaultChatThreadId) none).set
          (legacyHistoryKey u) none).look = Function.update (Function.update srv.look
            (historyKey u defaultChatThreadId) none) (legacyHistoryKey u) none := by
        rw [Keyspace.look_set, Keyspace.look_set]
      refine ⟨?_, ?_, ?_, fun _ => ?_⟩
      · rw [hlook]
        exact hlegacy.1
      · show Within u defaultChatThreadId srv.look ((srv.keyspace.set _ none).set _ none).look
        rw [hlook]
        exact hcleared.2.trans hlegacy.2
      · show ((srv.keyspace.set _ none).set _ none).look _ = none
        rw [hlook, Function.update_of_ne (legacy_ne_history hu).symm, Function.update_self]
      · show ((srv.keyspace.set _ none).set _ none).look _ = none
        rw [hlook, Function.update_self]
    · next hne =>
      have hlook : (srv.keyspace.set (historyKey u t) none).look =
          Function.update srv.look (historyKey u t) none := Keyspace.look_set _ _ _
      refine ⟨?_, ?_, ?_, fun h => absurd h hne⟩
      · show Typed (srv.keyspace.set _ none).look
        rw [hlook]
        exact hcleared.1
      · show Within u t srv.look (srv.keyspace.set _ none).look
        rw [hlook]
        exact hcleared.2
      · show (srv.keyspace.set _ none).look _ = none
        rw [hlook, Function.update_self]
  rintro _ srv₁ ⟨htyped, hwithin, hnone, hlegacy⟩
  -- Whatever happens to the list, the thread shows nothing.
  have hthread : ∀ s' : Store, s' (historyKey u t) = srv₁.look (historyKey u t) →
      s' (legacyHistoryKey u) = srv₁.look (legacyHistoryKey u) → s'.thread u t = [] := by
    intro s' hhistory hold
    unfold Store.thread
    rw [hhistory, hold, hnone]
    split
    · next hdefault => rw [hlegacy hdefault.1]; rfl
    · rfl
  have hindexed : ∀ s' : Store, Within u t srv₁.look s' →
      s' (historyKey u t) = srv₁.look (historyKey u t) → Indexed s' := by
    intro s' hwithin' hhistory
    refine (hwithin.trans hwithin').indexed hu hi fun hne => absurd ?_ hne
    rw [hhistory, hnone]
    rfl
  split
  · next hpreserve =>
    refine runs_time.bind ?_
    rintro _ srv' ⟨rfl, rfl⟩
    refine (runs_touchThreadRegistry htyped hu ht _).mono fun _ srv₂ h => ?_
    exact ⟨h.typed, hindexed _ h.within h.history, hwithin.trans h.within,
      hthread _ h.history h.legacy, iff_of_true (.inl h.self) hpreserve⟩
  · next hpreserve =>
    refine (runs_removeFromThreadRegistry htyped hu ht).mono ?_
    rintro _ srv₂ ⟨htyped', hwithin', hself, hhistory, hold⟩
    refine ⟨htyped', hindexed _ hwithin' hhistory, hwithin.trans hwithin', hthread _ hhistory hold,
      iff_of_false ?_ hpreserve⟩
    rintro (hmem | hne)
    · exact hself hmem
    · exact hne (hthread _ hhistory hold)

/-! ### The list of the threads -/

/-- What is read off the key of a store is the thread whose key it is. -/
theorem eq_of_extract (hs : Typed s) (hu : IsUsername u) {key : Text} (hkey : s key ≠ none)
    (h : extractThreadIdFromHistoryKey u key = some t) : key = historyKey u t ∧ IsThread t := by
  unfold extractThreadIdFromHistoryKey at h
  split at h
  · next hstart =>
    obtain ⟨rest, rfl⟩ := List.isPrefixOf_iff_prefix.mp hstart
    rw [List.drop_left] at h
    dsimp only at h
    split at h
    · cases h
    next hfree =>
    obtain ⟨hne, hfree⟩ := not_or.mp hfree
    obtain rfl := Option.some.inj h
    rw [← historyKey_eq_append] at hkey ⊢
    obtain ⟨u', hu', hold | hregistry | ⟨t', ht', hthread⟩⟩ := hs.keys _ hkey
    · exact absurd hold (historyKey_ne_legacyHistoryKey hu'.notMem_colon)
    · obtain ⟨-, rfl⟩ := historyKey_inj hu.notMem_colon hu'.notMem_colon hregistry
      exact absurd (by decide +kernel : strip registryName = registryName) hfree
    · obtain ⟨rfl, rfl⟩ := historyKey_inj hu.notMem_colon hu'.notMem_colon hthread
      rw [strip_of_tight ht'.tight]
      exact ⟨rfl, ht'⟩
  · cases h

/-- **Mending the list changes nothing that is seen**, and takes nothing off the list. -/
theorem runs_syncBuckets (hs : Typed srv.look) (hi : Indexed srv.look) (hu : IsUsername u)
    {keys : List Text} (hkeys : ∀ key ∈ keys, ∀ t, extractThreadIdFromHistoryKey u key = some t →
      key = historyKey u t ∧ IsThread t) :
    Runs (syncBuckets u keys) srv fun _ srv' => Same srv.look srv'.look ∧
      srv.look.members u ⊆ srv'.look.members u := by
  induction keys generalizing srv with
  | nil => exact succeeds_pure ⟨.refl hs hi, fun _ => id⟩
  | cons key keys ih =>
    have hrest : ∀ srv₁ : Server, Same srv.look srv₁.look →
        srv.look.members u ⊆ srv₁.look.members u →
        Runs (syncBuckets u keys) srv₁ fun _ srv' => Same srv.look srv'.look ∧
          srv.look.members u ⊆ srv'.look.members u := by
      intro srv₁ hsame hmembers
      refine (ih hsame.typed hsame.indexed
        fun k hk => hkeys k (List.mem_cons_of_mem key hk)).mono ?_
      rintro _ _ ⟨hsame', hmembers'⟩
      exact ⟨hsame.trans hsame', List.Subset.trans hmembers hmembers'⟩
    unfold syncBuckets
    rcases hextract : extractThreadIdFromHistoryKey u key with _ | t
    · exact hrest srv (.refl hs hi) fun _ => id
    obtain ⟨rfl, ht⟩ := hkeys key List.mem_cons_self t hextract
    dsimp only
    refine (runs_latestHistoryTimestamp (hs.history u t hu ht)).bind ?_
    rintro _ srv' ⟨rfl, rfl⟩
    -- A bucket with messages counted as a thread before, so listing it changes nothing.
    split
    · next hstamp =>
      have hmessages : listOf (srv'.look (historyKey u t)) ≠ [] := by
        intro hnil
        rw [hnil] at hstamp
        exact hstamp rfl
      refine (runs_touchThreadRegistry hs hu ht _).bind fun _ srv₁ htouched => ?_
      refine hrest srv₁ ((htouched.acts_of_lists hu hi (.inl (hi u t hu ht hmessages))).same hu) ?_
      intro t' ht'
      rcases eq_or_ne t' t with rfl | hne
      · exact htouched.self
      · exact (htouched.within.members t' hne).mpr ht'
    · exact hrest srv' (.refl hs hi) fun _ => id

theorem runs_sync (hs : Typed srv.look) (hi : Indexed srv.look) (hu : IsUsername u) :
    Runs (syncThreadRegistryFromExistingBuckets u) srv fun _ srv' => Same srv.look srv'.look ∧
      srv.look.members u ⊆ srv'.look.members u := by
  unfold syncThreadRegistryFromExistingBuckets
  refine Succeeds.bind (Q := fun keys srv' => srv' = srv ∧
    ∀ key ∈ keys, srv.look key ≠ none) ?_ ?_
  · refine ⟨_, rfl, rfl, fun key hkey => ?_⟩
    exact srv.keyspace.mem_iff_look.mp (AList.mem_keys.mpr (List.mem_filter.mp hkey).1)
  · rintro keys srv' ⟨rfl, hkeys⟩
    exact runs_syncBuckets hs hi hu fun key hkey t h => eq_of_extract hs hu (hkeys key hkey) h

/-- The loop tells the messages of every thread of the list. -/
theorem runs_summarize (hs : Typed srv.look) (hi : Indexed srv.look) (hu : IsUsername u)
    {ms : List (Text × ℕ)} (hms : ∀ m ∈ ms, IsThread m.1) :
    Runs (summarize u ms) srv fun threads srv' => Same srv.look srv'.look ∧
      threads.map ThreadSummary.threadId = ms.map Prod.fst ∧
        ∀ x ∈ threads, x.messageCount = (decode (srv.look.thread u x.threadId)).length := by
  induction ms generalizing srv with
  | nil => exact succeeds_pure ⟨.refl hs hi, rfl, fun x hx => by cases hx⟩
  | cons m ms ih =>
    obtain ⟨threadId, score⟩ := m
    have hthread : IsThread threadId := hms _ List.mem_cons_self
    have hnormalized := normalizeThreadId_of_isThread hthread
    unfold summarize
    refine (runs_getHistory hs hi hu
      (by rwa [hnormalized])).bind ?_
    rintro _ srv₁ ⟨rfl, hsame⟩
    rw [hnormalized]
    refine (ih hsame.typed hsame.indexed fun m hm =>
      hms m (List.mem_cons_of_mem _ hm)).bind ?_
    rintro threads srv₂ ⟨hsame', hids, hcounts⟩
    refine succeeds_pure ⟨hsame.trans hsame', congrArg (threadId :: ·) hids, fun x hx => ?_⟩
    rcases List.mem_cons.mp hx with rfl | hx
    · rfl
    · have hx' : IsThread x.threadId := by
        have hmem : x.threadId ∈ ms.map Prod.fst := hids ▸ List.mem_map_of_mem hx
        obtain ⟨m, hm, hid⟩ := List.mem_map.mp hmem
        exact hid ▸ hms m (List.mem_cons_of_mem _ hm)
      rw [hcounts x hx, hsame.thread u _ hu hx']

/-- **The list of the threads tells every thread that is listed, once**, and how many messages it
shows. -/
structure Told (s : Store) (u : Text) (threads : List ThreadSummary) : Prop where
  /-- Once. -/
  nodup : (threads.map ThreadSummary.threadId).Nodup
  /-- Every thread that is listed. -/
  mem : ∀ t, t ∈ threads.map ThreadSummary.threadId ↔ IsThread t ∧ s.Lists u t
  /-- How many messages it shows. -/
  count : ∀ x ∈ threads, x.messageCount = (decode (s.thread u x.threadId)).length

theorem runs_listThreads (hs : Typed srv.look) (hi : Indexed srv.look) (hu : IsUsername u) :
    Runs (listThreads u) srv fun threads srv' =>
      Same srv.look srv'.look ∧ Told srv.look u threads := by
  unfold listThreads
  refine (runs_migrate hs hi hu).bind ?_
  rintro _ srv₁ ⟨hmigrated, hown⟩
  have hsame := hmigrated.same hu
  refine (runs_sync hsame.typed hsame.indexed hu).bind ?_
  rintro _ srv₂ ⟨hsynced, hkept⟩
  have hsame₂ := hsame.trans hsynced
  -- What is listed is a member now.
  have hmembers : ∀ t, t ∈ srv₂.look.members u ↔ IsThread t ∧ srv.look.Lists u t := by
    intro t
    constructor
    · intro hmem
      have ht := hsynced.typed.member u t hu hmem
      exact ⟨ht, (hsame₂.lists u t hu ht).mp (.inl hmem)⟩
    · rintro ⟨ht, hlists⟩
      rcases (hsame.lists u t hu ht).mpr hlists with hmem | hne
      · exact hkept hmem
      refine hkept (hsame.indexed u t hu ht ?_)
      rcases eq_or_ne t defaultChatThreadId with rfl | hother
      · rwa [hown]
      · rwa [← thread_of_ne hother]
  refine Succeeds.bind (Q := fun ms srv' => srv' = srv₂ ∧
    (ms.map Prod.fst).Perm (srv₂.look.members u)) ?_ ?_
  · refine ⟨descending (membersOf (srv₂.look (threadRegistryKey u))), ?_, rfl, ?_⟩
    · show (readSorted (srv₂.look (threadRegistryKey u))).map descending = _
      rw [readSorted_registry hsynced.typed hu]
      rfl
    · exact (List.mergeSort_perm _ _).map _
  rintro ms srv' ⟨rfl, hperm⟩
  refine (runs_summarize hsynced.typed hsynced.indexed hu fun m hm => ?_).mono ?_
  · exact hsynced.typed.member u m.1 hu (hperm.subset (List.mem_map_of_mem hm))
  rintro threads srv₃ ⟨hsame₃, hids, hcounts⟩
  refine ⟨hsame₂.trans hsame₃, ?_, fun t => ?_, fun x hx => ?_⟩
  · rw [hids]
    exact hperm.nodup_iff.mpr (hsynced.typed.nodup u hu)
  · rw [hids, hperm.mem_iff]
    exact hmembers t
  · have hmem : x.threadId ∈ srv'.look.members u := by
      rw [← hperm.mem_iff, ← hids]
      exact List.mem_map_of_mem hx
    rw [hcounts x hx, hsame₂.thread u _ hu (hsynced.typed.member u _ hu hmem)]

end AsyncChatStore

/-! ### The map of lists -/

/-- What all users have said: the messages of every thread since it was last cleared, and which
threads were begun and not removed. -/
structure Shelf where
  messages : Text → Text → List Message
  begun : Text → Text → Prop

/-- An operation of a user. -/
inductive ThreadOp where
  /-- `append_message`. -/
  | appendMessage (username role content : Text) (threadId : Option Text)
  /-- `create_thread`. -/
  | createThread (username : Text) (threadId : Option Text)
  /-- `get_history`. -/
  | getHistory (username : Text) (threadId : Option Text)
  /-- `clear_history`. -/
  | clearHistory (username : Text) (threadId : Option Text) (preserveThread : Bool)
  /-- `list_threads`. -/
  | listThreads (username : Text)

/-- The user. -/
def ThreadOp.username : ThreadOp → Text
  | .appendMessage username .. | .createThread username _ | .getHistory username _
  | .clearHistory username .. | .listThreads username => username

/-- The thread the operation is for; looking at the list is for none. -/
def ThreadOp.threadId : ThreadOp → Option Text
  | .appendMessage _ _ _ threadId | .createThread _ threadId | .getHistory _ threadId
  | .clearHistory _ threadId _ => some (normalizeThreadId threadId)
  | .listThreads _ => none

/-- The operations as they are called: for a user, for a thread whose id is free, and with messages
of a chat role. -/
structure ThreadOp.IsProper (op : ThreadOp) : Prop where
  /-- The user. -/
  username : IsUsername op.username
  /-- The thread. -/
  threadId : ∀ t, op.threadId = some t → t ≠ registryName
  /-- The role. -/
  role : ∀ username role content threadId,
    op = .appendMessage username role content threadId → role ∈ chatMessageRoles

/-- The program of an operation, without what it returns. -/
def ThreadOp.body : ThreadOp → ChatOp Unit
  | .appendMessage username role content threadId =>
    AsyncChatStore.appendMessage username role content threadId
  | .createThread username threadId => do
    let _ ← AsyncChatStore.createThread username threadId
  | .getHistory username threadId => do
    let _ ← AsyncChatStore.getHistory username threadId
  | .clearHistory username threadId preserveThread =>
    AsyncChatStore.clearHistory username threadId preserveThread
  | .listThreads username => do
    let _ ← AsyncChatStore.listThreads username

/-- The server after an operation that is run alone at some time, whether or not it gets through. -/
def ThreadOp.run (srv : Server) (now : ℕ) (op : ThreadOp) : Server :=
  (op.body.run.run chatServer 0 { srv with clock := now }).2

/-- The shelf with other messages for one thread. -/
def Shelf.put (shelf : Shelf) (u t : Text) (messages : List Message) (begun : Prop) : Shelf where
  messages := fun u' t' => if u' = u ∧ t' = t then messages else shelf.messages u' t'
  begun := fun u' t' => (u' = u ∧ t' = t ∧ begun) ∨ (¬(u' = u ∧ t' = t) ∧ shelf.begun u' t')

/-- What an operation does to the shelf. -/
def ThreadOp.shelve (shelf : Shelf) : ThreadOp → Shelf
  | .appendMessage u role content threadId =>
    shelf.put u (normalizeThreadId threadId)
      (shelf.messages u (normalizeThreadId threadId) ++ [⟨role, content⟩]) True
  | .createThread u threadId =>
    shelf.put u (normalizeThreadId threadId) (shelf.messages u (normalizeThreadId threadId)) True
  | .clearHistory u threadId preserveThread =>
    shelf.put u (normalizeThreadId threadId) [] (preserveThread = true)
  | .getHistory .. | .listThreads _ => shelf

/-- The thread is to be listed: it was begun, or it has messages, and it was not removed since. -/
def Shelf.Lists (shelf : Shelf) (u t : Text) : Prop := shelf.begun u t ∨ shelf.messages u t ≠ []

/-- **The store shows what the shelf says.** -/
structure Follows (s : Store) (shelf : Shelf) : Prop where
  /-- The keys. -/
  typed : Typed s
  /-- The list of the threads. -/
  indexed : Indexed s
  /-- The messages. -/
  messages : ∀ u t, IsUsername u → IsThread t →
    (s.thread u t).map Entry.message = recent (shelf.messages u t)
  /-- What is listed. -/
  lists : ∀ u t, IsUsername u → IsThread t → (s.Lists u t ↔ shelf.Lists u t)
  /-- The roles. -/
  roles : ∀ u t, ∀ m ∈ shelf.messages u t, m.role ∈ chatMessageRoles

variable {srv : Server} {shelf : Shelf}

theorem isThread_normalizeThreadId {threadId : Option Text}
    (h : normalizeThreadId threadId ≠ registryName) : IsThread (normalizeThreadId threadId) :=
  ⟨tight_normalizeThreadId threadId, normalizeThreadId_ne_nil threadId, h⟩

theorem recent_eq_nil {α : Type} {l : List α} : recent l = [] ↔ l = [] := by
  constructor
  · intro h
    have hlength := congrArg List.length h
    rw [length_recent, List.length_nil] at hlength
    have hmax : 0 < maxHistory := by decide
    exact List.length_eq_zero_iff.mp (by omega)
  · rintro rfl
    rfl

/-- What is not seen is no change of the shelf. -/
theorem Follows.same (h : Follows s shelf) (hsame : Same s s') : Follows s' shelf where
  typed := hsame.typed
  indexed := hsame.indexed
  messages := fun u t hu ht => by
    rw [hsame.thread u t hu ht]
    exact h.messages u t hu ht
  lists := fun u t hu ht => (hsame.lists u t hu ht).trans (h.lists u t hu ht)
  roles := h.roles

/-- What is seen of one thread is put on the shelf. -/
theorem Follows.put (h : Follows s shelf) (hu : IsUsername u) {entries : List Entry}
    {listed begun : Prop} {messages : List Message} (hacts : Acts u t entries listed s s')
    (hmessages : entries.map Entry.message = recent messages)
    (hlisted : listed ↔ begun ∨ messages ≠ [])
    (hroles : ∀ m ∈ messages, m.role ∈ chatMessageRoles) :
    Follows s' (shelf.put u t messages begun) := by
  refine ⟨hacts.typed, hacts.indexed, fun u' t' hu' ht' => ?_, fun u' t' hu' ht' => ?_, ?_⟩
  · by_cases hsame : u' = u ∧ t' = t
    · obtain ⟨rfl, rfl⟩ := hsame
      rw [hacts.thread, hmessages]
      exact congrArg recent (if_pos ⟨rfl, rfl⟩).symm
    · rw [(hacts.others hu hu' ht' hsame).1, h.messages u' t' hu' ht']
      exact congrArg recent (if_neg hsame).symm
  · unfold Shelf.Lists Shelf.put
    dsimp only
    by_cases hsame : u' = u ∧ t' = t
    · obtain ⟨rfl, rfl⟩ := hsame
      rw [hacts.lists, hlisted]
      simp
    · rw [(hacts.others hu hu' ht' hsame).2, h.lists u' t' hu' ht', if_neg hsame]
      unfold Shelf.Lists
      simp only [hsame, not_false_eq_true, true_and]
      refine or_congr ⟨.inr, ?_⟩ Iff.rfl
      rintro (⟨rfl, rfl, -⟩ | hbegun)
      · exact absurd ⟨rfl, rfl⟩ hsame
      · exact hbegun
  · intro u' t' m hm
    unfold Shelf.put at hm
    dsimp only at hm
    split at hm
    · exact hroles m hm
    · exact h.roles u' t' m hm

theorem decode_of_roles {entries : List Entry}
    (h : ∀ e ∈ entries, e.message.role ∈ chatMessageRoles) :
    AsyncChatStore.decode entries = recent (entries.map Entry.message) := by
  unfold AsyncChatStore.decode
  rw [List.filter_eq_self.mpr]
  intro m hm
  obtain ⟨e, he, rfl⟩ := List.mem_map.mp hm
  simpa using h e he

/-- What is shown of a thread can all be read. -/
theorem Follows.decode_thread (h : Follows s shelf) (hu : IsUsername u) (ht : IsThread t) :
    AsyncChatStore.decode (s.thread u t) = recent (shelf.messages u t) := by
  rw [decode_of_roles, h.messages u t hu ht, recent_recent]
  intro e he
  have hmem : e.message ∈ recent (shelf.messages u t) := by
    rw [← h.messages u t hu ht]
    exact List.mem_map_of_mem he
  exact h.roles u t _ ((List.drop_suffix _ _).subset hmem)

/-- **One operation**, at any time, gets through, and the store follows the shelf. -/
theorem Follows.run (h : Follows srv.look shelf) (now : ℕ) {op : ThreadOp} (hop : op.IsProper) :
    Runs op.body { srv with clock := now } fun _ srv' => Follows srv'.look (op.shelve shelf) := by
  generalize hlater : ({ srv with clock := now } : Server) = later
  replace h : Follows later.look shelf := by rwa [← hlater]
  rcases op with ⟨u, role, content, threadId⟩ | ⟨u, threadId⟩ | ⟨u, threadId⟩ |
    ⟨u, threadId, preserveThread⟩ | u
  case appendMessage =>
    have hu : IsUsername u := hop.username
    have ht := isThread_normalizeThreadId (hop.threadId _ rfl)
    refine (AsyncChatStore.runs_appendMessage h.typed h.indexed
      hu ht role content).mono fun _ srv' hacts => ?_
    refine h.put hu hacts ?_ (iff_of_true trivial (.inl trivial)) ?_
    · rw [map_recent, List.map_append, h.messages u _ hu ht]
      exact recent_append_singleton _ _
    · intro m hm
      rcases List.mem_append.mp hm with hm | hm
      · exact h.roles u _ m hm
      · obtain rfl := List.mem_singleton.mp hm
        exact hop.role _ _ _ _ rfl
  case createThread =>
    have hu : IsUsername u := hop.username
    have ht := isThread_normalizeThreadId (hop.threadId _ rfl)
    refine (AsyncChatStore.runs_createThread h.typed h.indexed
      hu ht).bind ?_
    rintro _ srv' ⟨-, hacts⟩
    exact succeeds_pure (h.put hu hacts (h.messages u _ hu ht)
      (iff_of_true trivial (.inl trivial)) (h.roles u _))
  -- Reading may move the old history, which counted as the default thread before.
  case getHistory =>
    have hu : IsUsername u := hop.username
    have ht := isThread_normalizeThreadId (hop.threadId _ rfl)
    refine (AsyncChatStore.runs_getHistory h.typed h.indexed
      hu ht).bind ?_
    rintro _ srv' ⟨-, hsame⟩
    exact succeeds_pure (h.same hsame)
  case clearHistory =>
    have hu : IsUsername u := hop.username
    have ht := isThread_normalizeThreadId (hop.threadId _ rfl)
    refine (AsyncChatStore.runs_clearHistory h.typed h.indexed
      hu ht preserveThread).mono fun _ srv' hacts => ?_
    exact h.put hu hacts rfl (by simp) fun m hm => by cases hm
  case listThreads =>
    have hu : IsUsername u := hop.username
    refine (AsyncChatStore.runs_listThreads h.typed h.indexed
      hu).bind ?_
    rintro _ srv' ⟨hsame, -⟩
    exact succeeds_pure (h.same hsame)

theorem Follows.after (h : Follows srv.look shelf) (now : ℕ) {op : ThreadOp} (hop : op.IsProper) :
    Follows (op.run srv now).look (op.shelve shelf) := by
  obtain ⟨_, -, hfollows⟩ := h.run now hop
  exact hfollows

/-! ### Runs -/

/-- The operations one after the other, each at its time. -/
def runThreadOps (srv : Server) (ops : List (ℕ × ThreadOp)) : Server :=
  ops.foldl (fun srv op => op.2.run srv op.1) srv

/-- What they put on the shelf. -/
def shelveAll (shelf : Shelf) (ops : List (ℕ × ThreadOp)) : Shelf :=
  ops.foldl (fun shelf op => op.2.shelve shelf) shelf

/-- The store of the time before there were threads: for each user there may be a list of
messages. -/
def IsOld (s : Store) : Prop :=
  ∀ key v, s key = some v → ∃ u entries, IsUsername u ∧ key = legacyHistoryKey u ∧
    v = .list entries ∧ ∀ e ∈ entries, e.message.role ∈ chatMessageRoles

/-- The shelf of that time. -/
def oldShelf (s : Store) : Shelf where
  messages := fun u t =>
    if t = defaultChatThreadId then (listOf (s (legacyHistoryKey u))).map Entry.message else []
  begun := fun _ _ => False

/-- What `get_history` returns. -/
def historyAt (srv : Server) (u : Text) (threadId : Option Text) :
    Except StoreError (List Message) :=
  ((AsyncChatStore.getHistory u threadId).run.run chatServer 0 srv).1

/-- What `list_threads` returns. -/
def threadsAt (srv : Server) (u : Text) : Except StoreError (List ThreadSummary) :=
  ((AsyncChatStore.listThreads u).run.run chatServer 0 srv).1

/-- **The store is the map of bounded lists**, whenever it is looked at. -/
structure Refines (srv : Server) (shelf : Shelf) : Prop where
  /-- A thread shows its last messages. -/
  history : ∀ u threadId, IsUsername u → normalizeThreadId threadId ≠ registryName →
    historyAt srv u threadId = .ok (recent (shelf.messages u (normalizeThreadId threadId)))
  /-- The list of the threads. -/
  threads : ∀ u, IsUsername u → ∃ threads, threadsAt srv u = .ok threads ∧
    (threads.map ThreadSummary.threadId).Nodup ∧
    (∀ t, t ∈ threads.map ThreadSummary.threadId ↔ IsThread t ∧ shelf.Lists u t) ∧
    ∀ x ∈ threads, x.messageCount = (recent (shelf.messages u x.threadId)).length
  /-- Every operation gets through, and changes what no other thread shows. -/
  step : ∀ now (op : ThreadOp), op.IsProper →
    (∃ a, (op.body.run.run chatServer 0 { srv with clock := now }).1 = .ok a) ∧
    ∀ u threadId, IsUsername u → normalizeThreadId threadId ≠ registryName →
      ¬(op.username = u ∧ op.threadId = some (normalizeThreadId threadId)) →
        historyAt (op.run srv now) u threadId = historyAt srv u threadId

theorem follows_old (h : IsOld s) : Follows s (oldShelf s) := by
  have hlegacy : ∀ key, s key ≠ none → ∃ u, IsUsername u ∧ key = legacyHistoryKey u := by
    intro key hkey
    obtain ⟨v, hv⟩ := Option.ne_none_iff_exists'.mp hkey
    obtain ⟨u, entries, hu, hkey, -⟩ := h key v hv
    exact ⟨u, hu, hkey⟩
  have hhistory : ∀ u t, s (historyKey u t) = none := by
    intro u t
    by_contra hne
    obtain ⟨u', hu', hkey⟩ := hlegacy _ hne
    exact historyKey_ne_legacyHistoryKey hu'.notMem_colon hkey
  have hroles : ∀ key, ∀ e ∈ listOf (s key), e.message.role ∈ chatMessageRoles := by
    intro key e he
    rcases hv : s key with _ | v
    · rw [hv] at he
      cases he
    · obtain ⟨u, entries, -, -, rfl, hroles⟩ := h key v hv
      rw [hv] at he
      exact hroles e he
  have hmembers : ∀ u, s.members u = [] := by
    intro u
    rw [Store.members, threadRegistryKey, hhistory]
    rfl
  have hthread : ∀ u t, s.thread u t =
      if t = defaultChatThreadId then recent (listOf (s (legacyHistoryKey u))) else [] := by
    intro u t
    unfold Store.thread
    rw [hhistory]
    simp [listOf]
  -- All keys are those of old histories, so there is no thread but the default one.
  refine ⟨⟨?_, ?_, ?_, ?_, ?_, ?_, ?_⟩, ?_, ?_, ?_, ?_⟩
  · intro u _ l
    rw [threadRegistryKey, hhistory]
    rintro ⟨⟩
  · intro u t _ _ ms
    rw [hhistory]
    rintro ⟨⟩
  · intro u _ ms hms
    obtain ⟨_, _, -, -, hv, -⟩ := h _ _ hms
    cases hv
  · intro u t _ _
    rw [hhistory]
    exact Nat.zero_le maxHistory
  · intro u _
    rw [hmembers]
    exact List.nodup_nil
  · intro u t _ hmem
    rw [hmembers] at hmem
    cases hmem
  · intro key hkey
    obtain ⟨u, hu, hkey⟩ := hlegacy key hkey
    exact ⟨u, hu, .inl hkey⟩
  · intro u t _ _ hne
    rw [hhistory] at hne
    exact absurd rfl hne
  · intro u t _ _
    rw [hthread]
    unfold oldShelf
    dsimp only
    split
    · exact map_recent _ _
    · rfl
  · intro u t _ _
    unfold Store.Lists Shelf.Lists oldShelf
    rw [hmembers, hthread]
    dsimp only
    split
    · simp [recent_eq_nil]
    · simp
  · intro u t m hm
    unfold oldShelf at hm
    dsimp only at hm
    split at hm
    · obtain ⟨e, he, rfl⟩ := List.mem_map.mp hm
      exact hroles _ e he
    · cases hm

theorem Follows.history (h : Follows srv.look shelf) (hu : IsUsername u) {threadId : Option Text}
    (hfree : normalizeThreadId threadId ≠ registryName) :
    historyAt srv u threadId = .ok (recent (shelf.messages u (normalizeThreadId threadId))) := by
  have ht := isThread_normalizeThreadId hfree
  obtain ⟨history, hhistory, rfl, -⟩ := AsyncChatStore.runs_getHistory h.typed h.indexed hu ht
  rw [← h.decode_thread hu ht]
  exact hhistory

/-- What is not put on the shelf stays there. -/
theorem messages_shelve {op : ThreadOp} (hne : ¬(op.username = u ∧ op.threadId = some t)) :
    (op.shelve shelf).messages u t = shelf.messages u t := by
  have hother : ∀ u' t', ¬(u' = u ∧ some t' = some t) → ¬(u = u' ∧ t = t') := by
    rintro u' t' h ⟨rfl, rfl⟩
    exact h ⟨rfl, rfl⟩
  rcases op with ⟨u', role, content, threadId⟩ | ⟨u', threadId⟩ | _ | ⟨u', threadId, _⟩ | _
  case appendMessage => exact if_neg (hother _ _ hne)
  case createThread => exact if_neg (hother _ _ hne)
  case clearHistory => exact if_neg (hother _ _ hne)
  all_goals rfl

theorem Follows.refines (h : Follows srv.look shelf) : Refines srv shelf where
  history := fun u threadId hu hfree => h.history hu hfree
  threads := fun u hu => by
    obtain ⟨threads, hthreads, -, htold⟩ := AsyncChatStore.runs_listThreads h.typed h.indexed hu
    refine ⟨threads, hthreads, htold.nodup, fun t => ?_, fun x hx => ?_⟩
    · rw [htold.mem]
      exact and_congr_right fun ht => h.lists u t hu ht
    · have hx' := (htold.mem x.threadId).mp (List.mem_map_of_mem hx)
      rw [htold.count x hx, h.decode_thread hu hx'.1]
  step := fun now op hop => by
    obtain ⟨a, ha, -⟩ := h.run now hop
    refine ⟨⟨a, ha⟩, fun u threadId hu hfree hne => ?_⟩
    rw [(h.after now hop).history hu hfree, h.history hu hfree, messages_shelve hne]

/-- **The chat store refines a map of bounded lists**: after any operations of any users, from a
store that holds old messages at most. -/
theorem refines_run (srv : Server) (ops : List (ℕ × ThreadOp)) (hold : IsOld srv.look)
    (hops : ∀ op ∈ ops, op.2.IsProper) :
    Refines (runThreadOps srv ops) (shelveAll (oldShelf srv.look) ops) := by
  have hrun : ∀ (ops : List (ℕ × ThreadOp)) (srv : Server) (shelf : Shelf),
      (∀ op ∈ ops, op.2.IsProper) → Follows srv.look shelf →
        Follows (runThreadOps srv ops).look (shelveAll shelf ops) := by
    intro ops
    induction ops with
    | nil => exact fun _ _ _ h => h
    | cons op ops ih =>
      intro srv shelf hops h
      exact ih _ _ (fun op' hop' => hops op' (List.mem_cons_of_mem op hop'))
        (h.after op.1 (hops op List.mem_cons_self))
  exact (hrun ops srv _ hops (follows_old hold)).refines

/-! ### A run that is worked out -/

/-- A store with one old message. -/
def oldServer : Server where
  clock := 1
  keyspace := (∅ : Keyspace).insert (legacyHistoryKey "anna".toList)
    (.list [⟨"user".toList, "old".toList, 0⟩])

theorem isOld_oldServer : IsOld oldServer.look := by
  intro key v hv
  rcases eq_or_ne key (legacyHistoryKey "anna".toList) with rfl | hne
  · rw [show oldServer.look (legacyHistoryKey "anna".toList) = _ from AList.lookup_insert _] at hv
    obtain rfl := Option.some.inj hv
    exact ⟨_, _, by decide, rfl, rfl, by decide⟩
  · rw [show oldServer.look key = _ from AList.lookup_insert_ne hne] at hv
    cases hv

/-- A message is appended behind the old one. -/
theorem refines_run_old : historyAt (runThreadOps oldServer
    [(2, .appendMessage "anna".toList "user".toList "new".toList none)]) "anna".toList none =
      .ok [⟨"user".toList, "old".toList⟩, ⟨"user".toList, "new".toList⟩] :=
  (refines_run oldServer _ isOld_oldServer fun op hop => by
    obtain rfl := List.mem_singleton.mp hop
    refine ⟨by decide, fun t ht => ?_, ?_⟩
    · obtain rfl := Option.some.inj ht
      decide +kernel
    · rintro _ _ _ _ ⟨⟩
      decide).history "anna".toList none (by decide) (by decide +kernel)

end Chat

end AiAgent

import AiAgent.Client.ThreadStore

/-!
# What the threads show of a message

A message is looked up by its identifier, while the records around it come and go: the server lists
the threads anew, attaches one, or sends its messages. What a thread shows under an identifier
(`AiAgent.Client.Thread.faces`) is carried along by whatever is not about a message of that
identifier (`AiAgent.Client.ThreadStore.Carries`). An operation that normalizes messages a second
time is no exception, since what is normalized stays as it is.
-/

namespace AiAgent

namespace Client

/-- What is seen of a message. An empty state counts as the default one. -/
structure Face where
  role : Role
  content : JsString
  html : JsString
  state : JsString
  deriving DecidableEq

def Message.face (message : Message) : Face :=
  ⟨message.role, message.content, message.html, orString message.state (js "done")⟩

def RawMessage.face (message : RawMessage) : Face :=
  ⟨if message.role = js "assistant" then .assistant else .user, message.content, message.html,
    orString message.state (js "done")⟩

/-- What some messages show under an identifier. -/
def facesOf (id : JsString) (messages : List Message) : List Face :=
  (messages.filter fun message => message.id = id).map Message.face

/-- What a thread shows under an identifier. -/
def Thread.faces (thread : Thread) (id : JsString) : List Face := facesOf id thread.messages

/-- No identifier that is made is this one. -/
def Supply.Avoids (supply : Supply) (id : JsString) : Prop := ∀ place, supply.createId place ≠ id

theorem Supply.Avoids.at {supply : Supply} {id : JsString} (h : supply.Avoids id) (k : ℕ) :
    (supply.at k).Avoids id := fun place => h (k :: place)

/-! ### Messages that are normalized -/

section Normalized

variable {supply : Supply} {id : JsString}

theorem orString_orString (s d : JsString) : orString (orString s d) d = orString s d := by
  simp only [orString]
  split_ifs <;> simp_all

theorem face_normalizeMessage (supply : Supply) (message : RawMessage) (last : Option JsString) :
    (normalizeMessage supply message last).face = message.face := by
  simp only [normalizeMessage, Message.face, RawMessage.face]
  rw [orString_orString]

/-- A message that comes in again is seen as before. -/
theorem face_raw (message : Message) : message.raw.face = message.face := by
  have hne : js "user" ≠ js "assistant" := by decide
  rcases message with ⟨_, role, _⟩
  cases role <;> simp [Message.raw, RawMessage.face, Message.face, hne]

/-- A message is found under an identifier if it comes with it. -/
theorem id_normalizeMessage_eq_iff (havoids : supply.Avoids id) (hid : id ≠ [])
    (message : RawMessage) (last : Option JsString) :
    (normalizeMessage supply message last).id = id ↔ message.id = id := by
  simp only [normalizeMessage, orString]
  split_ifs with hnil
  · -- It came with none, and gets one that is made.
    rw [hnil]
    exact ⟨fun h => absurd h (havoids []), fun h => absurd h.symm hid⟩
  · rfl

theorem facesOf_normalizeMessagesFrom (havoids : supply.Avoids id) (hid : id ≠ [])
    (messages : List RawMessage) (k : ℕ) (last : Option JsString) :
    facesOf id (normalizeMessagesFrom supply k last messages) =
      (messages.filter fun message => message.id = id).map RawMessage.face := by
  induction messages generalizing k last with
  | nil => rfl
  | cons message messages ih =>
    rw [normalizeMessagesFrom, facesOf]
    have hsame := id_normalizeMessage_eq_iff (havoids.at k) hid message last
    by_cases heq : message.id = id
    · rw [List.filter_cons_of_pos (by simpa using hsame.mpr heq), List.map_cons,
        face_normalizeMessage, List.filter_cons_of_pos (by simpa using heq), List.map_cons]
      exact congrArg _ (ih _ _)
    · rw [List.filter_cons_of_neg (by simpa using mt hsame.mp heq),
        List.filter_cons_of_neg (by simpa using heq)]
      exact ih _ _

theorem facesOf_normalizeMessages (havoids : supply.Avoids id) (hid : id ≠ [])
    (messages : List RawMessage) :
    facesOf id (normalizeMessages supply messages) =
      (messages.filter fun message => message.id = id).map RawMessage.face :=
  facesOf_normalizeMessagesFrom havoids hid messages 0 none

/-- **To normalize messages once more changes nothing of what they show.** -/
theorem facesOf_normalizeMessages_raw (havoids : supply.Avoids id) (hid : id ≠ [])
    (messages : List Message) :
    facesOf id (normalizeMessages supply (messages.map Message.raw)) = facesOf id messages := by
  rw [facesOf_normalizeMessages havoids hid, List.filter_map, List.map_map]
  exact List.map_congr_left fun message _ => face_raw message

/-- Messages that come without the identifier show nothing under it. -/
theorem facesOf_normalizeMessages_of_foreign (havoids : supply.Avoids id) (hid : id ≠ [])
    {messages : List RawMessage} (h : ∀ message ∈ messages, message.id ≠ id) :
    facesOf id (normalizeMessages supply messages) = [] := by
  rw [facesOf_normalizeMessages havoids hid, List.map_eq_nil_iff, List.filter_eq_nil_iff]
  intro message hmem
  simpa using h message hmem

theorem faces_createThreadRecord (supply : Supply) (thread : RawThread) :
    (createThreadRecord supply thread).faces id =
      facesOf id (normalizeMessages (supply.at 1) thread.messages) := rfl

end Normalized

theorem facesOf_append (id : JsString) (messages more : List Message) :
    facesOf id (messages ++ more) = facesOf id messages ++ facesOf id more := by
  rw [facesOf, List.filter_append, List.map_append]
  rfl

theorem facesOf_singleton (id : JsString) (message : Message) :
    facesOf id [message] = if message.id = id then [message.face] else [] := by
  by_cases h : message.id = id <;> simp [facesOf, h]

/-! ### Messages that are finalized -/

/-- What a message shows that is finalized with it. -/
def Face.finalized (payload : ThreadStore.Payload) (face : Face) : Face :=
  ⟨face.role, payload.content, payload.html, orString payload.state (js "done")⟩

/-- What finalizing does to its message. -/
def finalizedWith (payload : ThreadStore.Payload) (message : Message) : Message :=
  { message with
    content := payload.content
    html := payload.html
    state := orString payload.state (js "done") }

theorem face_finalizedWith (payload : ThreadStore.Payload) (message : Message) :
    (finalizedWith payload message).face = message.face.finalized payload := by
  simp only [finalizedWith, Message.face, Face.finalized]
  rw [orString_orString]

variable {messageId id : JsString} {payload : ThreadStore.Payload}

theorem facesOf_updateFirst_of_ne (h : messageId ≠ id) (messages : List Message) :
    facesOf id (updateFirst (fun message => message.id = messageId) (finalizedWith payload)
      messages) = facesOf id messages := by
  induction messages with
  | nil => rfl
  | cons message messages ih =>
    rw [updateFirst]
    by_cases heq : message.id = messageId
    · -- Neither the message nor the one that is put in has the identifier.
      have hne : ¬ message.id = id := fun hid => h (heq.symm.trans hid)
      have hne' : ¬ (finalizedWith payload message).id = id := hne
      rw [if_pos (by simpa using heq), facesOf, facesOf,
        List.filter_cons_of_neg (by simpa using hne'), List.filter_cons_of_neg (by simpa using hne)]
    · rw [if_neg (by simpa using heq), facesOf, facesOf, List.filter_cons, List.filter_cons]
      split
      · rw [List.map_cons, List.map_cons]
        exact congrArg _ ih
      · exact ih

/-- Where no two have one key, the one that is changed is gone. -/
theorem mem_updateFirst_of_nodup {α β : Type} {p : α → Bool} {f : α → α} {g : α → β} {a b : α}
    {l : List α} (hnodup : (l.map g).Nodup) (hfind : l.find? p = some a)
    (hb : b ∈ updateFirst p f l) : b = f a ∨ b ∈ l ∧ g b ≠ g a := by
  induction l with
  | nil => cases hfind
  | cons c l ih =>
    rw [List.map_cons, List.nodup_cons] at hnodup
    rw [updateFirst] at hb
    by_cases hp : p c = true
    · rw [List.find?_cons_of_pos hp] at hfind
      obtain rfl := Option.some.inj hfind
      rw [if_pos hp] at hb
      refine (List.mem_cons.mp hb).imp id fun hmem => ⟨List.mem_cons_of_mem _ hmem, fun heq => ?_⟩
      exact hnodup.1 (heq ▸ List.mem_map_of_mem hmem)
    · rw [List.find?_cons_of_neg hp] at hfind
      rw [if_neg hp] at hb
      rcases List.mem_cons.mp hb with rfl | hb
      · refine .inr ⟨List.mem_cons_self, fun heq => ?_⟩
        exact hnodup.1 (heq ▸ List.mem_map_of_mem (List.mem_of_find?_eq_some hfind))
      · exact (ih hnodup.2 hfind hb).imp id (And.imp_left (List.mem_cons_of_mem _))

/-- The first message of the identifier shows what it is finalized with. -/
theorem facesOf_updateFirst (messages : List Message) :
    facesOf messageId (updateFirst (fun message => message.id = messageId) (finalizedWith payload)
      messages) = (facesOf messageId messages).modifyHead (Face.finalized payload) := by
  induction messages with
  | nil => rfl
  | cons message messages ih =>
    rw [updateFirst]
    by_cases heq : message.id = messageId
    · have heq' : (finalizedWith payload message).id = messageId := heq
      rw [if_pos (by simpa using heq), facesOf, facesOf,
        List.filter_cons_of_pos (by simpa using heq'), List.filter_cons_of_pos (by simpa using heq),
        List.map_cons, List.map_cons, List.modifyHead_cons, face_finalizedWith]
    · rw [if_neg (by simpa using heq), facesOf, facesOf,
        List.filter_cons_of_neg (by simpa using heq), List.filter_cons_of_neg (by simpa using heq)]
      exact ih

/-! ### Operations of the store -/

namespace ThreadStore

variable {collation : Collation} {supply : Supply} {s s' s'' : ThreadStore}

/-- What the threads show under the identifier is what threads of the same names showed before, or
nothing. -/
def Carries (s s' : ThreadStore) (id : JsString) : Prop :=
  ∀ t' ∈ s'.threads, t'.faces id = [] ∨ ∃ t ∈ s.threads, t.id = t'.id ∧ t'.faces id = t.faces id

theorem Carries.refl (s : ThreadStore) (id : JsString) : Carries s s id :=
  fun t' ht' => .inr ⟨t', ht', rfl, rfl⟩

theorem Carries.trans (h : Carries s s' id) (h' : Carries s' s'' id) : Carries s s'' id := by
  intro t'' ht''
  rcases h' t'' ht'' with hnil | ⟨t', ht', hid', hfaces'⟩
  · exact .inl hnil
  rcases h t' ht' with hnil | ⟨t, ht, hid, hfaces⟩
  · exact .inl (hfaces'.trans hnil)
  · exact .inr ⟨t, ht, hid.trans hid', hfaces'.trans hfaces⟩

theorem mem_sortThreads {t : Thread} : t ∈ (s.sortThreads collation).threads ↔ t ∈ s.threads :=
  List.mem_insertionSort _

/-- A record that is changed shows what it has shown, and the others stay. -/
theorem carries_updateThread {p : Thread → Bool} {f : Thread → Thread} {found : Thread}
    (hfound : s.threads.find? p = some found) (hid : (f found).id = found.id)
    (hfaces : (f found).faces id = [] ∨ (f found).faces id = found.faces id) :
    Carries s (s.updateThread p f) id := by
  intro t' ht'
  rcases mem_updateFirst hfound ht' with rfl | hmem
  · refine hfaces.imp_right fun hsame => ?_
    exact ⟨found, List.mem_of_find?_eq_some hfound, hid.symm, hsame⟩
  · exact .inr ⟨t', hmem, rfl, rfl⟩

theorem Carries.sortThreads (h : Carries s s' id) : Carries s (s'.sortThreads collation) id :=
  fun t' ht' => h t' (mem_sortThreads.mp ht')

theorem Carries.activate (h : Carries s s' id) (threadId : JsString) :
    Carries s (s'.activate threadId) id := h

theorem find?_eq_of_getLiveThread {liveThread : Thread} (h : s.getLiveThread = some liveThread) :
    s.threads.find? (fun thread => thread.id = liveThread.id) = some liveThread := by
  rw [getLiveThread] at h
  obtain ⟨threadId, -, hfound⟩ := Option.bind_eq_some_iff.mp h
  rw [findThread] at hfound
  have hid : liveThread.id = threadId := by simpa using List.find?_some hfound
  rw [hid]
  exact hfound

theorem carries_changeLiveThread {f : Thread → Thread} {liveThread : Thread}
    (hlive : s.getLiveThread = some liveThread) (hid : (f liveThread).id = liveThread.id)
    (hfaces : (f liveThread).faces id = [] ∨ (f liveThread).faces id = liveThread.faces id) :
    Carries s (s.changeLiveThread collation f liveThread) id :=
  ((carries_updateThread (find?_eq_of_getLiveThread hlive) hid hfaces).activate _).sortThreads

theorem carries_clearLiveThreadMessages (s : ThreadStore) :
    Carries s (s.clearLiveThreadMessages collation supply) id := by
  rw [clearLiveThreadMessages]
  rcases hlive : s.getLiveThread with - | liveThread
  · exact .refl s id
  · exact carries_changeLiveThread hlive rfl (.inl rfl)

theorem carries_setActiveThread (threadId : JsString) (s : ThreadStore) :
    Carries s (s.setActiveThread threadId) id := by
  rw [setActiveThread]
  rcases s.findThread (resolveThreadId threadId s.threads) with - | found
  · exact .refl s id
  · exact .refl s id

theorem carries_setThreadMessages (havoids : supply.Avoids id) (hid : id ≠ [])
    (threadId : JsString) {messages : List RawMessage}
    (hforeign : ∀ message ∈ messages, message.id ≠ id) (s : ThreadStore) :
    Carries s (s.setThreadMessages collation supply threadId messages true) id := by
  rw [setThreadMessages]
  rcases hfound : s.findThread threadId with - | found
  · exact .refl s id
  · refine (carries_updateThread hfound rfl (.inl ?_)).sortThreads
    exact facesOf_normalizeMessages_of_foreign (havoids.at 0) hid hforeign

/-- A record that is put in for a summary shows what the record of the same thread has shown. -/
theorem faces_replacement (havoids : supply.Avoids id) (hid : id ≠ []) (s : ThreadStore)
    (threadSummary : RawThread) : (s.replacement supply threadSummary).faces id = [] ∨
      ∃ t ∈ s.threads, t.id = (s.replacement supply threadSummary).id ∧
        (s.replacement supply threadSummary).faces id = t.faces id := by
  set existing := s.threads.reverse.find? fun thread =>
    thread.id = (normalizeThreadSummary (supply.at 0) threadSummary).id with hexisting
  have hfaces : (s.replacement supply threadSummary).faces id =
      facesOf id ((existing.map Thread.messages).getD []) :=
    facesOf_normalizeMessages_raw ((havoids.at 1).at 1) hid _
  rw [hfaces, id_replacement]
  rcases hfound : existing with - | found
  · exact .inl rfl
  · rw [hexisting] at hfound
    have hsame : found.id = (normalizeThreadSummary (supply.at 0) threadSummary).id := by
      simpa using List.find?_some hfound
    exact .inr ⟨found, List.mem_reverse.mp (List.mem_of_find?_eq_some hfound), hsame, rfl⟩

theorem carries_replaceThreads (havoids : supply.Avoids id) (hid : id ≠ [])
    (threads : List RawThread) (activeThreadId : Option JsString) (s : ThreadStore) :
    Carries s (s.replaceThreads collation supply threads activeThreadId) id := by
  intro t' ht'
  have hmem := mem_sortThreads.mp ht'
  by_cases hnone : threads.mapIdx (fun k threadSummary =>
      s.replacement (supply.at k) threadSummary) = []
  · simp only [activate, hnone, if_true, List.mem_singleton] at hmem
    exact .inl (by rw [hmem]; rfl)
  · simp only [activate, if_neg hnone] at hmem
    obtain ⟨k, hk, rfl⟩ := List.mem_mapIdx.mp hmem
    exact faces_replacement (havoids.at k) hid s _

theorem carries_attachServerThread (havoids : supply.Avoids id) (hid : id ≠ [])
    (threadSummary : RawThread) {messages : Option (List RawMessage)}
    (hforeign : ∀ message ∈ messages.getD [], message.id ≠ id) (s : ThreadStore) :
    Carries s (s.attachServerThread collation supply threadSummary messages) id := by
  rw [attachServerThread]
  rcases hfound : s.findThread (normalizeThreadSummary (supply.at 0) threadSummary).id
    with - | found
  · -- A new record is put first.
    refine Carries.sortThreads ?_
    intro t' ht'
    rcases List.mem_cons.mp ht' with rfl | hmem
    · refine .inl ?_
      rcases messages with - | messages
      · rfl
      · exact (facesOf_normalizeMessages_raw ((havoids.at 2).at 1) hid _).trans
          (facesOf_normalizeMessages_of_foreign (havoids.at 1) hid hforeign)
    · exact .inr ⟨t', hmem, rfl, rfl⟩
  · refine ((carries_updateThread hfound ?_ ?_).activate _).sortThreads
    · rfl
    rcases messages with - | messages
    · exact .inr rfl
    · exact .inl (facesOf_normalizeMessages_of_foreign (havoids.at 1) hid hforeign)

/-- Another message is appended. -/
theorem carries_appended {message : Message} {f : Thread → Thread} {liveThread : Thread}
    (hlive : s.getLiveThread = some liveThread) (hid : (f liveThread).id = liveThread.id)
    (hmessages : (f liveThread).messages = liveThread.messages ++ [message])
    (hne : message.id ≠ id) : Carries s (s.changeLiveThread collation f liveThread) id := by
  refine carries_changeLiveThread hlive hid (.inr ?_)
  rw [Thread.faces, hmessages, facesOf_append, facesOf_singleton, if_neg hne, List.append_nil]
  rfl

theorem carries_appendUserMessage {content : JsString} {attachments : List RawAttachment}
    (h : s.appendUserMessage collation supply content attachments = .ok s')
    (hne : supply.createId [] ≠ id) : Carries s s' id := by
  rw [appendUserMessage] at h
  rcases hlive : s.getLiveThread with - | liveThread <;> rw [hlive] at h
  · cases h
  · obtain rfl := Except.ok.inj h
    exact carries_appended hlive rfl rfl hne

theorem carries_appendAssistantPlaceholder {sourceUserMessageId : Option JsString}
    (h : s.appendAssistantPlaceholder collation supply sourceUserMessageId = .ok s')
    (hne : supply.createId [] ≠ id) : Carries s s' id := by
  rw [appendAssistantPlaceholder] at h
  rcases hlive : s.getLiveThread with - | liveThread <;> rw [hlive] at h
  · cases h
  · obtain rfl := Except.ok.inj h
    exact carries_appended hlive rfl rfl hne

/-- Another message is finalized. -/
theorem carries_finalizeAssistantMessage (hne : messageId ≠ id) (payload : Payload)
    (threadId : JsString) (s : ThreadStore) :
    Carries s (s.finalizeAssistantMessage collation supply messageId payload threadId) id := by
  rw [finalizeAssistantMessage]
  rcases hfound : s.threads.find? (isFinalized messageId threadId) with - | found
  · exact .refl s id
  dsimp only
  split_ifs
  · have hfaces : (withFinalized supply messageId payload found).faces id = found.faces id :=
      facesOf_updateFirst_of_ne hne found.messages
    exact (carries_updateThread hfound rfl (.inr hfaces)).sortThreads
  · exact .refl s id

/-! ### One message and its thread -/

/-- The identifier is shown in one thread only, as this. -/
def Shows (s : ThreadStore) (id threadId : JsString) (face : Face) : Prop :=
  ∀ t ∈ s.threads, t.faces id = [] ∨ t.id = threadId ∧ t.faces id = [face]

theorem Shows.carried {threadId : JsString} {face : Face} (h : Shows s id threadId face)
    (hcarries : Carries s s' id) : Shows s' id threadId face := by
  intro t' ht'
  rcases hcarries t' ht' with hnil | ⟨t, ht, hid, hfaces⟩
  · exact .inl hnil
  · rw [hfaces, ← hid]
    exact h t ht

theorem any_of_faces_ne_nil {t : Thread} (h : t.faces messageId ≠ []) :
    t.messages.any (fun message => message.id = messageId) = true := by
  rw [Thread.faces, facesOf, ne_eq, List.map_eq_nil_iff, List.filter_eq_nil_iff] at h
  rw [List.any_eq_true]
  push Not at h
  exact h

theorem faces_ne_nil_of_any {t : Thread}
    (h : t.messages.any (fun message => message.id = messageId) = true) :
    t.faces messageId ≠ [] := by
  obtain ⟨message, hmem, heq⟩ := List.any_eq_true.mp h
  rw [Thread.faces, facesOf, ne_eq, List.map_eq_nil_iff, List.filter_eq_nil_iff]
  exact fun hnone => hnone message hmem heq

/-- If a thread shows a message at all, that is the thread in which it is looked for. -/
theorem Shows.find?_isFinalized {threadId : JsString} {face : Face} (hvalid : Valid collation s)
    (h : Shows s messageId threadId face) {t : Thread} (ht : t ∈ s.threads)
    (hne : t.faces messageId ≠ []) : s.threads.find? (isFinalized messageId threadId) = some t := by
  obtain ⟨hid, -⟩ := (h t ht).resolve_left hne
  have hhere : isFinalized messageId threadId t = true := by
    rw [isFinalized]
    split_ifs with hnamed
    · simpa using hid
    · exact any_of_faces_ne_nil hne
  rcases hfound : s.threads.find? (isFinalized messageId threadId) with - | found
  · exact absurd hhere (by simpa using List.find?_eq_none.mp hfound t ht)
  have hmem := List.mem_of_find?_eq_some hfound
  have hfinalized := List.find?_some hfound
  rw [isFinalized] at hfinalized
  have hsame : found.id = t.id := by
    split_ifs at hfinalized with hnamed
    · rw [hid]
      simpa using hfinalized
    · rw [hid, ((h found hmem).resolve_left (faces_ne_nil_of_any hfinalized)).1]
  rw [hvalid.eq_of_id_eq ht hmem hsame]

/-- **A message that is finalized shows what it is finalized with**, wherever it is still shown. -/
theorem Shows.finalizeAssistantMessage {threadId : JsString} {face : Face}
    (hvalid : Valid collation s) (h : Shows s messageId threadId face) (payload : Payload) :
    Shows (s.finalizeAssistantMessage collation supply messageId payload threadId) messageId
      threadId (face.finalized payload) := by
  have hfind := fun t ht hne => h.find?_isFinalized hvalid (t := t) ht hne
  rw [ThreadStore.finalizeAssistantMessage]
  rcases hfound : s.threads.find? (isFinalized messageId threadId) with - | found
  · intro t ht
    refine .inl (not_not.mp fun hne => ?_)
    have hsome := hfind t ht hne
    simp [hfound] at hsome
  dsimp only
  split_ifs with hany
  · intro t' ht'
    rcases mem_updateFirst_of_nodup hvalid.nodup hfound (mem_sortThreads.mp ht') with
      rfl | ⟨hmem, hother⟩
    · obtain ⟨hid, hfaces⟩ := (h found (List.mem_of_find?_eq_some hfound)).resolve_left
        (faces_ne_nil_of_any hany)
      refine .inr ⟨hid, ?_⟩
      exact (facesOf_updateFirst found.messages).trans (by rw [← Thread.faces, hfaces]; rfl)
    · refine .inl (not_not.mp fun hne => ?_)
      -- No record shows it but the one that is changed, and that one is gone.
      obtain rfl := Option.some.inj (hfound.symm.trans (hfind t' hmem hne))
      exact hother rfl
  · intro t ht
    refine .inl (not_not.mp fun hne => hany ?_)
    rw [Option.some.inj (hfound.symm.trans (hfind t ht hne))]
    exact any_of_faces_ne_nil hne

end ThreadStore

end Client

end AiAgent

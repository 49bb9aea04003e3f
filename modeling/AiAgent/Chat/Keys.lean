import AiAgent.Auth.Identity

/-!
# The keys of the chat store

All keys of the chat store are one text: the word `chat`, the name of a user and the id of a thread,
with colons between them. The list of a user's threads stands under the id `threads`, and the
messages of the time before there were threads under no id at all.

No name of a user has a colon in it, so user and thread can be read off a key. But nothing keeps a
user from calling a thread `threads`: then its messages and the list of the threads have one key
(`AiAgent.Chat.not_apart_registryName`). This is the only id that is taken
(`AiAgent.Chat.apart_iff`).
-/

namespace AiAgent

namespace Chat

open Text Auth

/-- `normalize_chat_thread_id`. -/
def normalizeChatThreadId (threadId : Option Text) : Text :=
  let normalized := (threadId.map strip).getD []
  if normalized = [] then defaultChatThreadId else normalized

/-- `_history_key_prefix`. -/
def historyKeyPrefix (username : Text) : Text := "chat:".toList ++ (username ++ [':'])

/-- The id under which the list of the threads stands. -/
def registryName : Text := "threads".toList

/-- `_extract_thread_id_from_history_key`. -/
def extractThreadIdFromHistoryKey (username key : Text) : Option Text :=
  if (historyKeyPrefix username).isPrefixOf key then
    let threadId := strip (key.drop (historyKeyPrefix username).length)
    if threadId = [] ∨ threadId = registryName then none else some threadId
  else none

/-- **The keys are told apart**, for two users and a thread of each: the two threads from each
other, the first from what else the second user has, and its id can be read off its key. -/
structure Apart (u₁ u₂ : Text) (t₁ t₂ : Option Text) : Prop where
  /-- The list of the threads. -/
  registry : historyKey u₁ (normalizeThreadId t₁) ≠ threadRegistryKey u₂
  /-- The old messages. -/
  legacy : historyKey u₁ (normalizeThreadId t₁) ≠ legacyHistoryKey u₂
  /-- Both of them. -/
  registryLegacy : threadRegistryKey u₂ ≠ legacyHistoryKey u₂
  /-- Two threads. -/
  injective : historyKey u₁ (normalizeThreadId t₁) = historyKey u₂ (normalizeThreadId t₂) →
    u₁ = u₂ ∧ normalizeChatThreadId t₁ = normalizeChatThreadId t₂
  /-- The id. -/
  extracted : extractThreadIdFromHistoryKey u₁ (historyKey u₁ (normalizeThreadId t₁)) =
    some (normalizeChatThreadId t₁)

variable {u u' t : Text} {threadId : Option Text}

/-- The request and the store normalize alike. -/
theorem normalizeChatThreadId_eq (threadId : Option Text) :
    normalizeChatThreadId threadId = normalizeThreadId threadId := by
  rcases threadId with _ | t <;> rfl

theorem tight_normalizeThreadId (threadId : Option Text) : Tight (normalizeThreadId threadId) := by
  rw [← strip_normalizeThreadId]
  exact tight_strip _

theorem historyKey_eq_append (username t : Text) :
    historyKey username t = historyKeyPrefix username ++ t := by
  simp [historyKey, historyKeyPrefix]

/-- The id of a thread can be read off its key, unless it is that of the list of the threads. -/
theorem extract_historyKey (ht : Tight t) (hne : t ≠ []) :
    extractThreadIdFromHistoryKey u (historyKey u t) = if t = registryName then none else
      some t := by
  have hprefix : (historyKeyPrefix u).isPrefixOf (historyKeyPrefix u ++ t) = true :=
    List.isPrefixOf_iff_prefix.mpr (List.prefix_append _ _)
  rw [extractThreadIdFromHistoryKey, historyKey_eq_append, if_pos hprefix, List.drop_left]
  dsimp only
  rw [strip_of_tight ht]
  exact if_congr (or_iff_right hne) rfl rfl

/-- **The keys are told apart just where the thread does not have the id of the list of the
threads.** -/
theorem apart_iff (lowerCase : Text → Text) (raw₁ raw₂ : Text) (t₁ t₂ : Option Text)
    (h₁ : normalizeUsername lowerCase raw₁ ≠ []) (h₂ : normalizeUsername lowerCase raw₂ ≠ []) :
    Apart (normalizeUsername lowerCase raw₁) (normalizeUsername lowerCase raw₂) t₁ t₂ ↔
      normalizeChatThreadId t₁ ≠ registryName := by
  have hcolon₁ := (isUsername_normalizeUsername h₁).notMem_colon
  have hcolon₂ := (isUsername_normalizeUsername h₂).notMem_colon
  have hextract := extract_historyKey (u := normalizeUsername lowerCase raw₁)
    (tight_normalizeThreadId t₁) (normalizeThreadId_ne_nil t₁)
  rw [normalizeChatThreadId_eq]
  constructor
  · intro h htaken
    have hextracted := h.extracted
    rw [hextract, if_pos htaken] at hextracted
    cases hextracted
  · intro hfree
    constructor
    · intro heq
      exact hfree (historyKey_inj hcolon₁ hcolon₂ heq).2
    · exact historyKey_ne_legacyHistoryKey hcolon₂
    · exact threadRegistryKey_ne_legacy _
    · intro heq
      rw [normalizeChatThreadId_eq, normalizeChatThreadId_eq]
      exact historyKey_inj hcolon₁ hcolon₂ heq
    · rw [hextract, if_neg hfree, normalizeChatThreadId_eq]

/-- The default thread of a user. -/
theorem apart_iff_default : normalizeUsername lower "Anna".toList ≠ [] ∧
    Apart (normalizeUsername lower "Anna".toList) (normalizeUsername lower "Anna".toList)
      none none :=
  ⟨by decide, (apart_iff lower _ _ none none (by decide) (by decide)).mpr (by decide +kernel)⟩

/-- **A thread called `threads` has the key of the list of the threads.** -/
theorem not_apart_registryName : ¬∀ (lowerCase : Text → Text) (raw₁ raw₂ : Text)
    (t₁ t₂ : Option Text), normalizeUsername lowerCase raw₁ ≠ [] →
      normalizeUsername lowerCase raw₂ ≠ [] →
        Apart (normalizeUsername lowerCase raw₁) (normalizeUsername lowerCase raw₂) t₁ t₂ := by
  intro h
  exact (h lower "anna".toList "anna".toList (some "threads".toList) none (by decide)
    (by decide)).registry (by decide +kernel)

end Chat

end AiAgent

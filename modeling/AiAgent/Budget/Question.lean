import AiAgent.Budget.Prompt

/-!
# Where the question stands

The prompt is sent behind the history that is retained, unless it is already there:
`AiAgent.Budget.promptMessages` compares the text of the last message with the prompt, and not who
wrote it. So the question is the last message the model sees unless the last answer reads like it
(`AiAgent.Budget.asksLast_iff`); a user who repeats an answer word for word is not heard
(`AiAgent.Budget.not_asksLast_echo`).

For this one has to know the last message that is retained. It is the newest message with a chat
role and something in it, whatever the budget is as long as there is one
(`AiAgent.Budget.getLast?_applyHistoryBudget`).
-/

namespace AiAgent

namespace Budget

open Text

/-! ### The newest message -/

/-- The newest of the messages, newest first, that the budget does not pass over. -/
def newestOf (newestFirst : List Message) : Option Message :=
  newestFirst.find? fun m => decide m.Proper

/-- The newest message of the last five that has a chat role and something in it. -/
def newestMessage (history : List Message) : Option Message :=
  newestOf (recentHistory maxHistoryMessages history).reverse

/-- The message shortened to a budget. -/
def Message.shortened (limit : ℕ) (m : Message) : Message :=
  ⟨m.role, truncateTextPreservingEnds (strip m.content) limit⟩

theorem truncate_ne_nil {text : Text} {limit : ℕ} (htext : strip text ≠ []) (hlimit : limit ≠ 0) :
    truncateTextPreservingEnds (strip text) limit ≠ [] := by
  intro hnil
  have hhead : (truncateTextPreservingEnds (strip text) limit).head? = (strip (strip text)).head? :=
    head?_truncate hlimit
  rw [hnil, strip_strip] at hhead
  exact htext (List.head?_eq_none_iff.mp hhead.symm)

/-- **What the loop keeps first is the newest message**, shortened to the whole budget. -/
theorem head?_retain {b : ℕ} (hb : b ≠ 0) (newestFirst : List Message) :
    (retain b newestFirst).head? = (newestOf newestFirst).map (Message.shortened b) := by
  induction newestFirst with
  | nil => rfl
  | cons m older ih =>
    rw [retain, newestOf, List.find?_cons]
    by_cases hm : m.Proper
    · have hne := truncate_ne_nil hm.2 hb
      simp only [hm.1, hm.2, hb, not_true_eq_false, or_self, if_false, hne, decide_eq_true hm]
      rfl
    · have hskip : m.role ∉ chatMessageRoles ∨ strip m.content = [] ∨ b = 0 := by
        by_contra hkeep
        simp only [not_or, not_not] at hkeep
        exact hm ⟨hkeep.1, hkeep.2.1⟩
      rw [if_pos hskip, ih, decide_eq_false hm]
      rfl

theorem getLast?_applyHistoryBudget (history : List Message) (maxMessages : ℕ) {maxChars : ℕ}
    (h : maxChars ≠ 0) :
    (applyHistoryBudget history maxMessages maxChars).getLast? =
      (newestOf (recentHistory maxMessages history).reverse).map (Message.shortened maxChars) := by
  rw [applyHistoryBudget, List.getLast?_reverse, head?_retain h]

/-- Among proper messages the newest is the first. -/
theorem newestOf_of_proper {newestFirst : List Message} (h : ∀ m ∈ newestFirst, m.Proper) :
    newestOf newestFirst = newestFirst.head? := by
  rcases newestFirst with - | ⟨m, older⟩
  · rfl
  · rw [newestOf, List.find?_cons, decide_eq_true (h m List.mem_cons_self)]
    rfl

/-! ### The last message that is sent -/

/-- How the newest message reads once the budgets have shortened it. -/
def retainedText (history : List Message) (prompt : Text) (m : Message) : Text :=
  let once := m.shortened maxHistoryChars
  if Exceeds history (strip prompt) then
    (once.shortened (maxTotalPromptChars - systemPrompt.length - (strip prompt).length)).content
  else once.content

/-- The last message that is retained is the newest one; if the prompt leaves no room, nothing is
retained of any. -/
theorem getLast?_retained (history : List Message) (prompt : Text) :
    ((applyTotalPromptBudget history prompt).1 = [] ∧ ∀ m, retainedText history prompt m = []) ∨
      (applyTotalPromptBudget history prompt).1.getLast? =
        (newestMessage history).map fun m => ⟨m.role, retainedText history prompt m⟩ := by
  have hchars : maxHistoryChars ≠ 0 := by decide
  have hfirst := getLast?_applyHistoryBudget history maxHistoryMessages hchars
  by_cases hexceeds : Exceeds history (strip prompt)
  · simp only [applyTotalPromptBudget, if_pos hexceeds, trimHistoryForPrompt]
    rcases Nat.eq_zero_or_pos (maxTotalPromptChars - systemPrompt.length - (strip prompt).length)
      with hnone | hroom
    · left
      rw [hnone, applyHistoryBudget, retain_zero]
      refine ⟨rfl, fun m => ?_⟩
      rw [retainedText]
      simp only [if_pos hexceeds, hnone, Message.shortened, truncateTextPreservingEnds, if_true]
    · right
      -- The second round finds the messages of the first, all of them proper.
      rw [getLast?_applyHistoryBudget _ _ hroom.ne', recentHistory_of_length_le le_rfl,
        newestOf_of_proper fun m hm => proper_applyHistoryBudget (List.mem_reverse.mp hm),
        List.head?_reverse, hfirst, Option.map_map]
      refine congrArg (Option.map · (newestMessage history)) (funext fun m => ?_)
      rw [Function.comp_apply, retainedText]
      simp only [if_pos hexceeds, Message.shortened]
  · right
    simp only [applyTotalPromptBudget, if_neg hexceeds, hfirst]
    refine congrArg (Option.map · (newestMessage history)) (funext fun m => ?_)
    rw [retainedText]
    simp only [if_neg hexceeds, Message.shortened]

/-! ### The question -/

/-- The messages begin with the system prompt, and the last of them asks the question. -/
def AsksLast (messages : List Message) (normalizedPrompt : Text) : Prop :=
  messages.head? = some ⟨"system".toList, systemPrompt⟩ ∧
    messages.getLast? = some ⟨"user".toList, normalizedPrompt⟩

instance (messages : List Message) (normalizedPrompt : Text) :
    Decidable (AsksLast messages normalizedPrompt) := inferInstanceAs (Decidable (_ ∧ _))

/-- The newest message of the history is an answer of the model, and reads, once it is shortened,
like the prompt. -/
def AnsweredAlike (history : List Message) (prompt : Text) : Prop :=
  ∃ m, newestMessage history = some m ∧ m.role = "assistant".toList ∧
    retainedText history prompt m = (applyTotalPromptBudget history prompt).2

/-- Behind a last message of a chat role the question is asked unless that message is an answer
that reads like it. -/
theorem asksLast_of_retained {retainedHistory : List Message} {normalizedPrompt : Text}
    (hroles : ∀ m ∈ retainedHistory, m.role ∈ chatMessageRoles) :
    AsksLast (⟨"system".toList, systemPrompt⟩ ::
        (retainedHistory ++ promptMessages retainedHistory normalizedPrompt)) normalizedPrompt ↔
      ¬ ∃ m, retainedHistory.getLast? = some m ∧ m.role = "assistant".toList ∧
        m.content = normalizedPrompt := by
  rw [AsksLast, and_iff_right (List.head?_cons ..), promptMessages]
  by_cases hsame : retainedHistory.getLast?.map Message.content = some normalizedPrompt
  · obtain ⟨m, hlast, hcontent⟩ := Option.map_eq_some_iff.mp hsame
    have hne : retainedHistory ≠ [] := by
      rintro rfl
      cases hlast
    rw [if_pos hsame, List.append_nil, List.getLast?_cons_of_ne_nil hne, hlast]
    have hrole := hroles m (List.mem_of_getLast? hlast)
    constructor
    · rintro hm ⟨n, hn, hassistant, -⟩
      obtain rfl := Option.some.inj hn
      rw [Option.some.inj hm] at hassistant
      have huser : "user".toList ≠ "assistant".toList := by decide
      exact huser hassistant
    · intro hnot
      obtain hr | hr : m.role = "user".toList ∨ m.role = "assistant".toList := by
        simpa [chatMessageRoles] using hrole
      · obtain ⟨role, content⟩ := m
        dsimp only at hr hcontent
        rw [hr, hcontent]
      · exact absurd ⟨m, rfl, hr, hcontent⟩ hnot
  · rw [if_neg hsame, ← List.cons_append, List.getLast?_append]
    refine iff_of_true rfl ?_
    rintro ⟨m, hlast, -, hcontent⟩
    exact hsame (by rw [hlast, Option.map_some, hcontent])

/-- **The model sees the current question last** unless the newest message is an answer that reads
like it. -/
theorem asksLast_iff (history : List Message) (prompt : Text)
    (h : (applyTotalPromptBudget history prompt).2 ≠ []) :
    AsksLast (prepareOllamaMessagesWithMetrics history prompt).1
        (applyTotalPromptBudget history prompt).2 ↔
      ¬ AnsweredAlike history prompt := by
  have hroles : ∀ m ∈ (applyTotalPromptBudget history prompt).1, m.role ∈ chatMessageRoles := by
    intro m hm
    rw [applyTotalPromptBudget] at hm
    by_cases hexceeds : Exceeds history (strip prompt)
    · rw [if_pos hexceeds] at hm
      exact (proper_applyHistoryBudget hm).1
    · rw [if_neg hexceeds] at hm
      exact (proper_applyHistoryBudget hm).1
  rw [prepareOllamaMessagesWithMetrics, asksLast_of_retained hroles]
  refine not_congr ?_
  rcases getLast?_retained history prompt with ⟨hnil, htext⟩ | hlast
  · rw [hnil]
    constructor
    · rintro ⟨m, hm, -⟩
      cases hm
    · rintro ⟨m, -, -, hsame⟩
      exact absurd (hsame.symm.trans (htext m)) h
  · rw [hlast]
    constructor
    · rintro ⟨n, hn, hrole, hcontent⟩
      obtain ⟨m, hm, rfl⟩ := Option.map_eq_some_iff.mp hn
      exact ⟨m, hm, hrole, hcontent⟩
    · rintro ⟨m, hm, hrole, hcontent⟩
      exact ⟨⟨m.role, retainedText history prompt m⟩, by rw [hm, Option.map_some], hrole, hcontent⟩

/-- A short history and a short prompt are sent as they are. -/
theorem applyTotalPromptBudget_of_short {history : List Message} {prompt : Text}
    (h : 229 + (strip prompt).length +
      chars (applyHistoryBudget history maxHistoryMessages maxHistoryChars) ≤ maxTotalPromptChars) :
    applyTotalPromptBudget history prompt =
      (applyHistoryBudget history maxHistoryMessages maxHistoryChars, strip prompt) := by
  refine applyTotalPromptBudget_of_not_exceeds ?_
  rw [Exceeds, length_systemPrompt]
  exact Nat.not_lt.mpr h

/-- A question that is asked after another answer is the last message. -/
theorem asksLast_iff_other :
    (applyTotalPromptBudget [⟨"assistant".toList, "да".toList⟩] "нет".toList).2 ≠ [] ∧
      (AsksLast (prepareOllamaMessagesWithMetrics [⟨"assistant".toList, "да".toList⟩]
          "нет".toList).1
        (applyTotalPromptBudget [⟨"assistant".toList, "да".toList⟩] "нет".toList).2 ↔
      ¬ AnsweredAlike [⟨"assistant".toList, "да".toList⟩] "нет".toList) := by
  have h : (applyTotalPromptBudget [⟨"assistant".toList, "да".toList⟩] "нет".toList).2 ≠ [] := by
    rw [applyTotalPromptBudget_of_short (by decide +kernel)]
    decide +kernel
  exact ⟨h, asksLast_iff _ _ h⟩

/-- A conversation in which the user says again what the model just said. -/
def echo : List Message :=
  [⟨"user".toList, "Скажи: готово".toList⟩, ⟨"assistant".toList, "готово".toList⟩]

/-- **A question that repeats the last answer is not sent**: the last message is the answer. -/
theorem not_asksLast_echo : ¬ ∀ history prompt, ¬ Blank prompt →
    (applyTotalPromptBudget history prompt).2 ≠ [] →
    AsksLast (prepareOllamaMessagesWithMetrics history prompt).1
      (applyTotalPromptBudget history prompt).2 := by
  intro h
  have hbudgeted : applyTotalPromptBudget echo "готово".toList = (echo, "готово".toList) := by
    rw [applyTotalPromptBudget_of_short (by decide +kernel)]
    decide +kernel
  have hecho := h echo "готово".toList (by decide +kernel) (by rw [hbudgeted]; decide)
  rw [prepareOllamaMessagesWithMetrics, hbudgeted,
    asksLast_of_retained (by decide +kernel)] at hecho
  exact hecho ⟨⟨"assistant".toList, "готово".toList⟩, rfl, rfl, rfl⟩

end Budget

end AiAgent

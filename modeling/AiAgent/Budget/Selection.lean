import AiAgent.Budget.Document
import Mathlib.Data.Int.Basic

/-!
# Which messages the history budget selects

The history budget goes through the last messages from the newest one back and passes over those
that are not of a chat role or are blank. What it retains is a run of the others that ends at the
newest of them, stripped, and only the oldest of the run may be shortened
(`AiAgent.Budget.selects_applyHistoryBudget`): once a message is shortened nothing is left of the
budget, and what is left out is left out for that reason alone.

How many characters are retained is another matter. A message that meets a rest of exactly 20
characters and is longer is shortened to 21, and that is the only way to exceed the budget
(`AiAgent.Budget.chars_applyHistoryBudget_le_iff`). The documents of a prompt have the same limit of
20 to fear, and no other (`AiAgent.Budget.keepsLimits_iff`).
-/

namespace AiAgent

namespace Budget

open Text

/-! ### A history as it is read, and budgets below zero -/

/-- An entry of a history: what its keys hold, where it has them. -/
structure HistoryEntry where
  role : Option Text
  content : Option Text

/-- The entry as a message. No chat role is the empty text. -/
def HistoryEntry.message (entry : HistoryEntry) : Message :=
  ⟨entry.role.getD [], entry.content.getD []⟩

/-- `truncate_text_preserving_ends`, for a limit that may be below zero. -/
def truncateTextWithin (text : Text) (limit : ℤ) : Text :=
  if limit ≤ 0 then [] else truncateTextPreservingEnds text limit.toNat

/-- The last entries, where their number may be below zero. -/
def lastEntries (history : List HistoryEntry) (maxMessages : ℤ) : List HistoryEntry :=
  if 0 < maxMessages then history.drop (history.length - maxMessages.toNat) else []

/-- The loop of `apply_history_budget` over the entries from the newest to the oldest. -/
def retainEntries (historyBudget : ℤ) : List HistoryEntry → List Message
  | [] => []
  | entry :: older =>
    let content := strip (entry.content.getD [])
    if entry.role ∉ chatMessageRoles.map some ∨ content = [] ∨ historyBudget ≤ 0 then
      retainEntries historyBudget older
    else
      let trimmedContent := truncateTextWithin content historyBudget
      if trimmedContent = [] then retainEntries historyBudget older
      else
        ⟨entry.role.getD [], trimmedContent⟩ ::
          retainEntries (historyBudget - trimmedContent.length) older

/-- `apply_history_budget`, for any numbers. -/
def applyHistoryBudgetTo (history : List HistoryEntry) (maxMessages maxChars : ℤ) : List Message :=
  (retainEntries maxChars (lastEntries history maxMessages).reverse).reverse

theorem truncateTextWithin_eq (text : Text) (limit : ℤ) :
    truncateTextWithin text limit = truncateTextPreservingEnds text limit.toNat := by
  rw [truncateTextWithin]
  by_cases h : limit ≤ 0
  · rw [if_pos h, Int.toNat_of_nonpos h, truncateTextPreservingEnds, if_pos rfl]
  · rw [if_neg h]

theorem nil_notMem_chatMessageRoles : [] ∉ chatMessageRoles := by
  rw [chatMessageRoles, String.toList_ofList, String.toList_ofList]
  decide

theorem mem_roles_message (entry : HistoryEntry) :
    entry.message.role ∈ chatMessageRoles ↔ entry.role ∈ chatMessageRoles.map some := by
  rw [List.mem_map]
  constructor
  · intro h
    rcases hrole : entry.role with _ | role
    · rw [HistoryEntry.message, hrole] at h
      exact absurd h nil_notMem_chatMessageRoles
    · rw [HistoryEntry.message, hrole] at h
      exact ⟨role, h, rfl⟩
  · rintro ⟨role, hmem, hrole⟩
    rw [HistoryEntry.message, ← hrole]
    exact hmem

/-- A budget below zero is an empty one. -/
theorem retainEntries_eq (historyBudget : ℤ) (older : List HistoryEntry) :
    retainEntries historyBudget older =
      retain historyBudget.toNat (older.map HistoryEntry.message) := by
  induction older generalizing historyBudget with
  | nil => rfl
  | cons entry older ih =>
    rw [List.map_cons, retainEntries, retain]
    have hskip : (entry.role ∉ chatMessageRoles.map some ∨ strip (entry.content.getD []) = [] ∨
        historyBudget ≤ 0) ↔ (entry.message.role ∉ chatMessageRoles ∨
          strip entry.message.content = [] ∨ historyBudget.toNat = 0) := by
      rw [mem_roles_message, Int.toNat_eq_zero]
      rfl
    by_cases h : entry.message.role ∉ chatMessageRoles ∨ strip entry.message.content = [] ∨
        historyBudget.toNat = 0
    · rw [if_pos h, if_pos (hskip.mpr h)]
      exact ih historyBudget
    · rw [if_neg h, if_neg (mt hskip.mp h)]
      simp only [truncateTextWithin_eq, ih, Int.toNat_sub']
      rfl

theorem applyHistoryBudgetTo_eq (history : List HistoryEntry) (maxMessages maxChars : ℤ) :
    applyHistoryBudgetTo history maxMessages maxChars =
      applyHistoryBudget (history.map HistoryEntry.message) maxMessages.toNat maxChars.toNat := by
  rw [applyHistoryBudgetTo, applyHistoryBudget, retainEntries_eq, List.map_reverse]
  have hlast : (lastEntries history maxMessages).map HistoryEntry.message =
      recentHistory maxMessages.toNat (history.map HistoryEntry.message) := by
    rw [lastEntries, recentHistory, List.length_map]
    by_cases h : 0 < maxMessages
    · rw [if_pos h, List.map_drop]
    · rw [if_neg h, Int.toNat_of_nonpos (Int.not_lt.mp h), Nat.sub_zero, List.map_nil,
        List.drop_eq_nil_of_le (by rw [List.length_map])]
  rw [hlast]

/-! ### What the loop retains -/

theorem truncate_strip (text : Text) (limit : ℕ) :
    truncateTextPreservingEnds (strip text) limit = truncateTextPreservingEnds text limit := by
  rw [truncateTextPreservingEnds, truncateTextPreservingEnds, strip_strip]

section Loop

variable {b : ℕ} {m : Message} (older : List Message)

theorem retain_of_not_proper (h : ¬ m.Proper) : retain b (m :: older) = retain b older := by
  rw [retain]
  refine if_pos ?_
  rw [Message.Proper, not_and_or, not_not] at h
  exact h.imp_right .inl

/-- A message that fits the budget is retained as it is. -/
theorem retain_of_fits (h : m.Proper) (hb : 0 < b) (hfits : (strip m.content).length ≤ b) :
    retain b (m :: older) = m.stripped :: retain (b - (strip m.content).length) older := by
  have hkept : truncateTextPreservingEnds (strip m.content) b = strip m.content := by
    rw [truncate_strip, truncate_of_le hfits]
  obtain ⟨hrole, hcontent⟩ := h
  rw [retain]
  simp only [hrole, hcontent, hb.ne', not_true_eq_false, or_self, if_false, hkept]
  rfl

/-- Once a message is shortened nothing is left of the budget. -/
theorem retain_of_overflows (h : m.Proper) (hb : 0 < b) (hlong : b < (strip m.content).length) :
    retain b (m :: older) = [⟨m.role, truncateTextPreservingEnds m.content b⟩] ∧
      b ≤ (truncateTextPreservingEnds m.content b).length := by
  have hlength := length_truncate_of_lt hlong
  have hle : b ≤ (truncateTextPreservingEnds m.content b).length := by
    rw [hlength]
    split <;> omega
  have hne : truncateTextPreservingEnds m.content b ≠ [] := by
    rintro hnil
    rw [hnil, List.length_nil] at hle
    omega
  obtain ⟨hrole, hcontent⟩ := h
  refine ⟨?_, hle⟩
  rw [retain]
  simp only [hrole, hcontent, hb.ne', not_true_eq_false, or_self, if_false, truncate_strip, hne]
  rw [Nat.sub_eq_zero_of_le hle, retain_zero]

end Loop

/-- A run of the valid messages, newest first, and what it is retained as: stripped, and the oldest
shortened to what is left of the budget. -/
def Run (b : ℕ) (older retained : List Message) : Prop :=
  (retained = [] ∧ (b = 0 ∨ older.filter (·.Proper) = [])) ∨
    ∃ newer oldest leftOut, older.filter (·.Proper) = newer ++ oldest :: leftOut ∧
      strippedChars newer < b ∧
      retained = newer.map Message.stripped ++
        [⟨oldest.role, truncateTextPreservingEnds oldest.content (b - strippedChars newer)⟩] ∧
      (leftOut ≠ [] → b ≤ chars retained)

/-- **The loop retains a run.** -/
theorem run_retain (b : ℕ) (older : List Message) : Run b older (retain b older) := by
  induction older generalizing b with
  | nil => exact .inl ⟨rfl, .inr rfl⟩
  | cons m older ih =>
    by_cases hproper : m.Proper
    swap
    · rw [retain_of_not_proper _ hproper, Run, List.filter_cons_of_neg (by simpa using hproper)]
      exact ih b
    rcases Nat.eq_zero_or_pos b with rfl | hb
    · exact .inl ⟨retain_zero _, .inl rfl⟩
    have hfilter : (m :: older).filter (·.Proper) = m :: older.filter (·.Proper) :=
      List.filter_cons_of_pos (by simpa using hproper)
    right
    rcases Nat.lt_or_ge b (strip m.content).length with hlong | hfits
    · -- The message is the oldest one that is retained.
      obtain ⟨hretain, hle⟩ := retain_of_overflows older hproper hb hlong
      refine ⟨[], m, older.filter (·.Proper), hfilter, hb, hretain, fun _ => ?_⟩
      rw [hretain, chars_cons, chars_nil]
      exact hle
    · rw [retain_of_fits _ hproper hb hfits]
      rcases ih (b - (strip m.content).length) with
        ⟨hnone, hover⟩ | ⟨newer, oldest, leftOut, hrun, hroom, hretained, hused⟩
      · refine ⟨[], m, older.filter (·.Proper), hfilter, hb, ?_, fun hleft => ?_⟩
        · rw [hnone, strippedChars_nil, Nat.sub_zero, truncate_of_le hfits]
          rfl
        · rw [hnone, chars_cons, chars_nil]
          exact Nat.le_of_sub_eq_zero (hover.resolve_right hleft)
      · refine ⟨m :: newer, oldest, leftOut, ?_, ?_, ?_, fun hleft => ?_⟩
        · rw [hfilter, hrun]
          rfl
        · rw [strippedChars_cons]
          omega
        · rw [hretained, strippedChars_cons, Nat.sub_sub]
          rfl
        · rw [chars_cons]
          have hrest := hused hleft
          show b ≤ (strip m.content).length + _
          omega

/-! ### What is selected -/

/-- The valid messages among the last ones: those of a chat role that are not blank. -/
def validMessages (history : List HistoryEntry) (maxMessages : ℤ) : List Message :=
  ((lastEntries history maxMessages).map HistoryEntry.message).filter (·.Proper)

/-- The messages, stripped, and the first of them shortened to what the others leave of the
budget. They leave something. -/
def ShortensFirst (maxChars : ℤ) : List Message → List Message → Prop
  | [], selected => selected = []
  | first :: rest, selected =>
    (strippedChars rest : ℤ) < maxChars ∧
      selected = ⟨first.role, truncateTextWithin first.content (maxChars - strippedChars rest)⟩ ::
        rest.map Message.stripped

/-- The messages that are selected of the valid ones: a run of them to the last, stripped, its first
one shortened, no more of them than are asked for; and if one is left out the budget is used up. -/
structure Selects (valid : List Message) (maxMessages maxChars : ℤ) (selected : List Message) :
    Prop where
  run : ∃ leftOut kept, valid = leftOut ++ kept ∧ ShortensFirst maxChars kept selected ∧
    (leftOut ≠ [] → maxChars ≤ chars selected)
  length_le : selected.length ≤ maxMessages.toNat

theorem strippedChars_reverse (messages : List Message) :
    strippedChars messages.reverse = strippedChars messages := by
  rw [strippedChars, List.map_reverse, chars_reverse, strippedChars]

theorem validMessages_eq (history : List HistoryEntry) (maxMessages : ℤ) :
    validMessages history maxMessages =
      ((((lastEntries history maxMessages).reverse).map HistoryEntry.message).filter
        (·.Proper)).reverse := by
  rw [validMessages, List.map_reverse, List.filter_reverse, List.reverse_reverse]

/-- **The history budget selects the newest valid messages that fit**, and shortens the oldest of
them. -/
theorem selects_applyHistoryBudget (history : List HistoryEntry) (maxMessages maxChars : ℤ) :
    Selects (validMessages history maxMessages) maxMessages maxChars
      (applyHistoryBudgetTo history maxMessages maxChars) where
  length_le := by
    rw [applyHistoryBudgetTo_eq]
    exact length_applyHistoryBudget_le _ _ _
  run := by
    rw [validMessages_eq, applyHistoryBudgetTo, retainEntries_eq]
    have hrun := run_retain maxChars.toNat
      (((lastEntries history maxMessages).reverse).map HistoryEntry.message)
    revert hrun
    generalize ((lastEntries history maxMessages).reverse).map HistoryEntry.message = older
    generalize retain maxChars.toNat older = retained
    rintro (⟨rfl, hnone⟩ | ⟨newer, oldest, leftOut, hfilter, hroom, rfl, hused⟩)
    · refine ⟨(older.filter (·.Proper)).reverse, [], (List.append_nil _).symm, rfl, ?_⟩
      rintro hleft
      have hzero := hnone.resolve_right fun hnil => hleft (by rw [hnil, List.reverse_nil])
      rw [List.reverse_nil, chars_nil]
      omega
    · have hrest : ((strippedChars newer : ℕ) : ℤ) < maxChars := by omega
      have htoNat : (maxChars - (strippedChars newer : ℤ)).toNat =
          maxChars.toNat - strippedChars newer := by omega
      refine ⟨leftOut.reverse, oldest :: newer.reverse, ?_, ⟨?_, ?_⟩, fun hleft => ?_⟩
      · rw [hfilter, List.reverse_append, List.reverse_cons, List.append_assoc]
        rfl
      · rwa [strippedChars_reverse]
      · rw [List.reverse_append, List.reverse_singleton, strippedChars_reverse,
          truncateTextWithin_eq, htoNat, List.map_reverse]
        rfl
      · have hle := hused fun hnil => hleft (by rw [hnil, List.reverse_nil])
        rw [chars_reverse]
        omega

/-! ### How long what is selected is -/

/-- A message meets a rest of exactly 20 characters and is longer. -/
def MeetsTwenty (maxChars : ℕ) (valid : List Message) : Prop :=
  ∃ leftOut first rest, valid = leftOut ++ first :: rest ∧ strippedChars rest + 20 = maxChars ∧
    20 < (strip first.content).length

/-- **The loop exceeds its budget precisely if a message meets a rest of 20 characters and is
longer.** -/
theorem chars_retain_le_iff (b : ℕ) (older : List Message) :
    chars (retain b older) ≤ b ↔ ¬ ∃ newer m leftOut, older.filter (·.Proper) =
      newer ++ m :: leftOut ∧ strippedChars newer + 20 = b ∧ 20 < (strip m.content).length := by
  induction older generalizing b with
  | nil =>
    refine iff_of_true (Nat.zero_le _) ?_
    rintro ⟨newer, m, leftOut, hnil, -⟩
    exact List.append_ne_nil_of_right_ne_nil _ (List.cons_ne_nil _ _) hnil.symm
  | cons m older ih =>
    by_cases hproper : m.Proper
    swap
    · rw [retain_of_not_proper _ hproper, List.filter_cons_of_neg (by simpa using hproper)]
      exact ih b
    rw [List.filter_cons_of_pos (by simpa using hproper)]
    rcases Nat.eq_zero_or_pos b with rfl | hb
    · refine iff_of_true ?_ ?_
      · rw [retain_zero, chars_nil]
      · rintro ⟨newer, m', leftOut, -, hzero, -⟩
        omega
    rcases Nat.lt_or_ge b (strip m.content).length with hlong | hfits
    · -- The message is shortened, and what it is shortened to is all there is.
      obtain ⟨hretain, -⟩ := retain_of_overflows older hproper hb hlong
      rw [hretain, chars_cons, chars_nil, Nat.add_zero, length_truncate_le_iff]
      refine not_congr ⟨?_, ?_⟩
      · rintro ⟨rfl, h20⟩
        exact ⟨[], m, _, rfl, rfl, h20⟩
      · rintro ⟨newer, m', leftOut, hsplit, hrest, h20⟩
        rcases newer with _ | ⟨n, newer⟩
        · obtain ⟨rfl, -⟩ := List.cons.inj hsplit
          exact ⟨hrest.symm.trans (by rw [strippedChars_nil]), h20⟩
        · obtain ⟨rfl, -⟩ := List.cons.inj hsplit
          rw [strippedChars_cons] at hrest
          omega
    · have hkept : m.stripped.content.length = (strip m.content).length := rfl
      rw [retain_of_fits _ hproper hb hfits, chars_cons, hkept, ← Nat.le_sub_iff_add_le' hfits, ih]
      refine not_congr ⟨?_, ?_⟩
      · rintro ⟨newer, m', leftOut, hsplit, hrest, h20⟩
        refine ⟨m :: newer, m', leftOut, ?_, ?_, h20⟩
        · rw [hsplit, List.cons_append]
        · rw [strippedChars_cons]
          omega
      · rintro ⟨newer, m', leftOut, hsplit, hrest, h20⟩
        rcases newer with _ | ⟨n, newer⟩
        · -- A message that fits is not longer than the rest it meets.
          obtain ⟨rfl, -⟩ := List.cons.inj hsplit
          rw [strippedChars_nil] at hrest
          omega
        · obtain ⟨rfl, htail⟩ := List.cons.inj hsplit
          rw [strippedChars_cons] at hrest
          exact ⟨newer, m', leftOut, htail, by omega, h20⟩

/-- **The history budget is exceeded precisely if a message meets a rest of 20 characters and is
longer.** -/
theorem chars_applyHistoryBudget_le_iff (history : List HistoryEntry) (maxMessages : ℤ)
    (maxChars : ℕ) :
    chars (applyHistoryBudgetTo history maxMessages maxChars) ≤ maxChars ↔
      ¬ MeetsTwenty maxChars (validMessages history maxMessages) := by
  rw [applyHistoryBudgetTo, chars_reverse, retainEntries_eq, Int.toNat_natCast,
    chars_retain_le_iff, validMessages_eq, MeetsTwenty]
  refine not_congr ⟨?_, ?_⟩
  · rintro ⟨newer, m, leftOut, hsplit, hrest, h20⟩
    refine ⟨leftOut.reverse, m, newer.reverse, ?_, ?_, h20⟩
    · rw [hsplit, List.reverse_append, List.reverse_cons, List.append_assoc]
      rfl
    · rw [strippedChars_reverse]
      exact hrest
  · rintro ⟨leftOut, m, newer, hsplit, hrest, h20⟩
    refine ⟨newer.reverse, m, leftOut.reverse, ?_, ?_, h20⟩
    · rw [List.reverse_eq_iff] at hsplit
      rw [hsplit, List.reverse_append, List.reverse_cons, List.append_assoc]
      rfl
    · rw [strippedChars_reverse]
      exact hrest

/-! ### The limits together -/

/-- Everything that shortens keeps its limit. -/
def KeepsLimits : Prop :=
  (∀ text limit, (truncateTextPreservingEnds text limit).length ≤ limit) ∧
    (∀ history (maxMessages maxChars : ℕ),
      chars (applyHistoryBudgetTo history maxMessages maxChars) ≤ maxChars) ∧
    (∀ content limit, (truncateDocumentChunkContent content limit).length ≤ limit) ∧
    ∀ documentBlock limit,
      (trimDocumentBlockPreservingLabels documentBlock limit).length ≤ limit

/-- **What shortens keeps its limit, but for a limit of 20**: a longer text has 21 characters then,
be it the text itself, a message that meets a rest of 20, or documents with no label that fits. The
text of a document has no such exception. -/
theorem keepsLimits_iff (text content documentBlock : Text) (history : List HistoryEntry)
    (limit maxMessages maxChars : ℕ) :
    ((truncateTextPreservingEnds text limit).length ≤ limit ↔
      ¬ (limit = 20 ∧ 20 < (strip text).length)) ∧
    (chars (applyHistoryBudgetTo history maxMessages maxChars) ≤ maxChars ↔
      ¬ MeetsTwenty maxChars (validMessages history maxMessages)) ∧
    (truncateDocumentChunkContent content limit).length ≤ limit ∧
    ((trimDocumentBlockPreservingLabels documentBlock limit).length ≤ limit ↔
      ¬ Overruns documentBlock limit) :=
  ⟨length_truncate_le_iff text limit, chars_applyHistoryBudget_le_iff history maxMessages maxChars,
    length_truncateDocumentChunkContent_le content limit,
    length_trimDocumentBlock_le_iff documentBlock limit⟩

/-- **Twenty-one letters do not keep a limit of 20**: the marker is left, and a letter on either
side of it. -/
theorem not_keepsLimits_letters : ¬ KeepsLimits := by
  rintro ⟨htext, -⟩
  have hle := htext (List.replicate 21 'a') 20
  revert hle
  decide +kernel

end Budget

end AiAgent

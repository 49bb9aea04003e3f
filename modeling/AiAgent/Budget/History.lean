import AiAgent.Text.Strip
import Mathlib.Algebra.BigOperators.Group.List.Basic
import Mathlib.Algebra.GroupWithZero.Nat
import Mathlib.Data.List.Basic

/-!
# The history budget

A model sees at most the last five messages of a thread, and of these at most 6000 characters,
counted from the newest message back: `AiAgent.Budget.applyHistoryBudget`. The message that no
longer fits is shortened by `AiAgent.Budget.truncateTextPreservingEnds`, which keeps both ends of
the text around a marker.

The shortening keeps its limit with one exception: the marker has 19 characters, at least one
character is kept on each side of it, and so a text shortened to 20 characters has 21
(`AiAgent.Budget.length_truncate_le_iff`). A whole budget is exceeded by one character at most
(`AiAgent.Budget.chars_applyHistoryBudget_le`), and the budget leaves a history as it was
precisely if the history fits (`AiAgent.Budget.applyHistoryBudget_eq_iff`).
-/

namespace AiAgent

namespace Budget

open Text

/-! ### Shortening a text -/

def truncationMarker : Text := "\n...[truncated]...\n".toList

/-- `truncate_text_preserving_ends`. -/
def truncateTextPreservingEnds (text : Text) (limit : ℕ) : Text :=
  if limit = 0 then []
  else
    let stripped := strip text
    if stripped.length ≤ limit then stripped
    else if limit ≤ truncationMarker.length then stripped.take limit
    else
      let preserved := limit - truncationMarker.length
      let head := max 1 (preserved / 2)
      let tail := max 1 (preserved - head)
      stripped.take head ++ (truncationMarker ++ stripped.drop (stripped.length - tail))

@[simp] theorem length_truncationMarker : truncationMarker.length = 19 := by decide +kernel

theorem truncate_of_le {text : Text} {limit : ℕ} (h : (strip text).length ≤ limit) :
    truncateTextPreservingEnds text limit = strip text := by
  rw [truncateTextPreservingEnds]
  by_cases hlimit : limit = 0
  · rw [if_pos hlimit]
    rw [hlimit] at h
    exact (List.length_eq_zero_iff.mp (by omega)).symm
  · rw [if_neg hlimit]
    exact if_pos h

theorem truncate_of_le_marker {text : Text} {limit : ℕ} (h : limit < (strip text).length)
    (hlimit : limit ≤ 19) : truncateTextPreservingEnds text limit = (strip text).take limit := by
  rw [truncateTextPreservingEnds]
  by_cases hzero : limit = 0
  · rw [if_pos hzero, hzero, List.take_zero]
  · rw [if_neg hzero]
    simp only [length_truncationMarker, if_neg (show ¬ (strip text).length ≤ limit by omega),
      if_pos hlimit]

theorem truncate_of_marker_lt {text : Text} {limit : ℕ} (h : limit < (strip text).length)
    (hlimit : 19 < limit) :
    truncateTextPreservingEnds text limit =
      (strip text).take (max 1 ((limit - 19) / 2)) ++ (truncationMarker ++
        (strip text).drop ((strip text).length -
          max 1 (limit - 19 - max 1 ((limit - 19) / 2)))) := by
  rw [truncateTextPreservingEnds, if_neg (by omega)]
  simp only [length_truncationMarker, if_neg (show ¬ (strip text).length ≤ limit by omega),
    if_neg (show ¬ limit ≤ 19 by omega)]

/-- How long a text is that had to be shortened: as long as the limit, but 21 for the limit 20. -/
theorem length_truncate_of_lt {text : Text} {limit : ℕ} (h : limit < (strip text).length) :
    (truncateTextPreservingEnds text limit).length = if limit = 20 then 21 else limit := by
  by_cases hlimit : limit ≤ 19
  · rw [truncate_of_le_marker h hlimit, List.length_take, if_neg (by omega)]
    omega
  · rw [truncate_of_marker_lt h (by omega)]
    simp only [List.length_append, List.length_take, List.length_drop, length_truncationMarker]
    by_cases h20 : limit = 20
    · rw [if_pos h20]
      omega
    · rw [if_neg h20]
      omega

/-- **The shortening keeps its limit**, unless the limit is 20 and the text is longer. -/
theorem length_truncate_le_iff (text : Text) (limit : ℕ) :
    (truncateTextPreservingEnds text limit).length ≤ limit ↔
      ¬ (limit = 20 ∧ 20 < (strip text).length) := by
  by_cases h : (strip text).length ≤ limit
  · rw [truncate_of_le h]
    omega
  · rw [length_truncate_of_lt (by omega)]
    by_cases h20 : limit = 20
    · rw [if_pos h20]
      omega
    · rw [if_neg h20]
      omega

/-- Where it does not keep its limit, it exceeds it by one. -/
theorem length_truncate_le_succ (text : Text) (limit : ℕ) :
    (truncateTextPreservingEnds text limit).length ≤ limit + 1 := by
  by_cases h : (strip text).length ≤ limit
  · rw [truncate_of_le h]
    omega
  · rw [length_truncate_of_lt (by omega)]
    by_cases h20 : limit = 20
    · rw [if_pos h20]
      omega
    · rw [if_neg h20]
      omega

/-- A text that is a marker with one character before and one after it. -/
def IsFrame (t : Text) : Prop := ∃ a b, t = a :: (truncationMarker ++ [b])

instance (t : Text) : Decidable (IsFrame t) :=
  decidable_of_iff (t = t.take 1 ++ (truncationMarker ++ t.drop 20) ∧ t.length = 21) <| by
    constructor
    · rintro ⟨h, hlength⟩
      obtain ⟨a, ha⟩ := List.length_eq_one_iff.mp (show (t.take 1).length = 1 by
        rw [List.length_take]; omega)
      obtain ⟨b, hb⟩ := List.length_eq_one_iff.mp (show (t.drop 20).length = 1 by
        rw [List.length_drop]; omega)
      rw [ha, hb] at h
      exact ⟨a, b, h⟩
    · rintro ⟨a, b, rfl⟩
      have hdrop : (a :: (truncationMarker ++ [b])).drop 20 = [b] := by
        rw [List.drop_succ_cons, ← length_truncationMarker, List.drop_left]
      refine ⟨?_, by simp⟩
      rw [hdrop]
      rfl

theorem IsFrame.length {t : Text} (h : IsFrame t) : t.length = 21 := by
  obtain ⟨a, b, rfl⟩ := h
  simp

/-- **A text that was shortened is another one**, but for a frame shortened to 20 characters. -/
theorem strip_truncate_eq_iff {text : Text} {limit : ℕ} (h : limit < (strip text).length) :
    strip (truncateTextPreservingEnds text limit) = strip text ↔
      limit = 20 ∧ IsFrame (strip text) := by
  constructor
  · intro heq
    have hlength := length_truncate_of_lt h
    have hle := length_strip_le (truncateTextPreservingEnds text limit)
    rw [heq] at hle
    by_cases h20 : limit = 20
    · refine ⟨h20, ?_⟩
      rw [hlength, if_pos h20] at hle
      have h21 : (strip text).length = 21 := by omega
      -- Nothing is left to strip, so the text is what the shortening made of it.
      have hsame : strip (truncateTextPreservingEnds text limit) =
          truncateTextPreservingEnds text limit := by
        refine List.Sublist.eq_of_length ?_ (by rw [heq, hlength, if_pos h20, h21])
        exact (rstrip_isInit _).sublist.trans (lstrip_suffix _).sublist
      rw [heq, truncate_of_marker_lt h (by omega)] at hsame
      obtain ⟨a, ha⟩ := List.length_eq_one_iff.mp (show ((strip text).take 1).length = 1 by
        rw [List.length_take]; omega)
      obtain ⟨b, hb⟩ := List.length_eq_one_iff.mp (show ((strip text).drop 20).length = 1 by
        rw [List.length_drop]; omega)
      subst h20
      rw [h21] at hsame
      simp only [Nat.reduceSub, Nat.reduceDiv, max_eq_left (Nat.zero_le 1), Nat.sub_self, ha, hb]
        at hsame
      exact ⟨a, b, hsame⟩
    · rw [hlength, if_neg h20] at hle
      omega
  · rintro ⟨rfl, hframe⟩
    have h21 := hframe.length
    obtain ⟨a, b, hab⟩ := hframe
    have htake : (strip text).take 1 = [a] := by rw [hab]; rfl
    have hdrop : (strip text).drop 20 = [b] := by
      rw [hab, List.drop_succ_cons, ← length_truncationMarker, List.drop_left]
    have hshort : truncateTextPreservingEnds text 20 = strip text := by
      rw [truncate_of_marker_lt h (by omega), h21]
      simp only [Nat.reduceSub, Nat.reduceDiv, max_eq_left (Nat.zero_le 1), Nat.sub_self, htake,
        hdrop]
      rw [hab]
      rfl
    rw [hshort, strip_strip]

/-! ### The budget of a history -/

/-- A message of a thread. -/
structure Message where
  role : Text
  content : Text
  deriving DecidableEq

def maxHistoryMessages : ℕ := 5

def maxHistoryChars : ℕ := 6000

def chatMessageRoles : List Text := ["user".toList, "assistant".toList]

/-- The loop of `apply_history_budget` over the messages from the newest to the oldest. A budget
that is exceeded is used up. -/
def retain (historyBudget : ℕ) : List Message → List Message
  | [] => []
  | message :: older =>
    let content := strip message.content
    if message.role ∉ chatMessageRoles ∨ content = [] ∨ historyBudget = 0 then
      retain historyBudget older
    else
      let trimmedContent := truncateTextPreservingEnds content historyBudget
      if trimmedContent = [] then retain historyBudget older
      else
        ⟨message.role, trimmedContent⟩ :: retain (historyBudget - trimmedContent.length) older

/-- The last `n` messages. -/
def recentHistory (n : ℕ) (history : List Message) : List Message :=
  history.drop (history.length - n)

/-- `apply_history_budget`. -/
def applyHistoryBudget (history : List Message) (maxMessages maxChars : ℕ) : List Message :=
  (retain maxChars (recentHistory maxMessages history).reverse).reverse

/-- How many characters the messages have. -/
def chars (messages : List Message) : ℕ := (messages.map fun m => m.content.length).sum

@[simp] theorem chars_nil : chars [] = 0 := rfl

@[simp] theorem chars_cons (m : Message) (messages : List Message) :
    chars (m :: messages) = m.content.length + chars messages := by
  rw [chars, List.map_cons, List.sum_cons, chars]

@[simp] theorem chars_append (xs ys : List Message) : chars (xs ++ ys) = chars xs + chars ys := by
  rw [chars, List.map_append, List.sum_append, chars, chars]

theorem chars_reverse (messages : List Message) : chars messages.reverse = chars messages := by
  rw [chars, List.map_reverse, List.sum_reverse, chars]

/-- A message that is retained in the step of the loop, or is passed over. -/
theorem retain_cons (b : ℕ) (m : Message) (older : List Message) :
    retain b (m :: older) = retain b older ∨
      ((truncateTextPreservingEnds (strip m.content) b) ≠ [] ∧
        retain b (m :: older) = ⟨m.role, truncateTextPreservingEnds (strip m.content) b⟩ ::
          retain (b - (truncateTextPreservingEnds (strip m.content) b).length) older) := by
  rw [retain]
  by_cases hskip : m.role ∉ chatMessageRoles ∨ strip m.content = [] ∨ b = 0
  · exact .inl (if_pos hskip)
  · simp only [if_neg hskip]
    by_cases hempty : truncateTextPreservingEnds (strip m.content) b = []
    · exact .inl (if_pos hempty)
    · exact .inr ⟨hempty, if_neg hempty⟩

/-- Nothing is retained without a budget. -/
@[simp] theorem retain_zero (older : List Message) : retain 0 older = [] := by
  induction older with
  | nil => rfl
  | cons m older ih =>
    rw [retain, if_pos (.inr (.inr rfl))]
    exact ih

theorem chars_retain_le (b : ℕ) (older : List Message) : chars (retain b older) ≤ b + 1 := by
  induction older generalizing b with
  | nil => exact Nat.zero_le _
  | cons m older ih =>
    rcases retain_cons b m older with h | ⟨-, h⟩
    · rw [h]
      exact ih b
    · rw [h, chars_cons]
      have hlength := length_truncate_le_succ (strip m.content) b
      rcases Nat.lt_or_ge b (truncateTextPreservingEnds (strip m.content) b).length with hb | hb
      · -- The budget is exceeded: nothing comes after it.
        rw [Nat.sub_eq_zero_of_le hb.le, retain_zero, chars_nil]
        exact hlength
      · have := ih (b - (truncateTextPreservingEnds (strip m.content) b).length)
        dsimp only
        omega

/-- **The budget is exceeded by one character at most.** -/
theorem chars_applyHistoryBudget_le (history : List Message) (maxMessages maxChars : ℕ) :
    chars (applyHistoryBudget history maxMessages maxChars) ≤ maxChars + 1 := by
  rw [applyHistoryBudget, chars_reverse]
  exact chars_retain_le _ _

theorem length_retain_le (b : ℕ) (older : List Message) :
    (retain b older).length ≤ older.length := by
  induction older generalizing b with
  | nil => exact Nat.le_refl _
  | cons m older ih =>
    rcases retain_cons b m older with h | ⟨-, h⟩
    · rw [h, List.length_cons]
      exact (ih b).trans (Nat.le_succ _)
    · rw [h, List.length_cons, List.length_cons]
      exact Nat.succ_le_succ (ih _)

theorem length_recentHistory (n : ℕ) (history : List Message) :
    (recentHistory n history).length = min n history.length := by
  rw [recentHistory, List.length_drop]
  omega

theorem recentHistory_of_length_le {n : ℕ} {history : List Message} (h : history.length ≤ n) :
    recentHistory n history = history := by
  rw [recentHistory, Nat.sub_eq_zero_of_le h, List.drop_zero]

/-! ### A history that the budget leaves as it was -/

/-- The message as it is compared and stored: its role, and its content stripped. -/
def Message.stripped (m : Message) : Message := ⟨m.role, strip m.content⟩

/-- A message of a chat role with something in it. -/
def Message.Proper (m : Message) : Prop := m.role ∈ chatMessageRoles ∧ strip m.content ≠ []

instance (m : Message) : Decidable m.Proper := inferInstanceAs (Decidable (_ ∧ _))

/-- How many characters the messages have once they are stripped. -/
def strippedChars (messages : List Message) : ℕ := chars (messages.map Message.stripped)

@[simp] theorem strippedChars_nil : strippedChars [] = 0 := rfl

@[simp] theorem strippedChars_cons (m : Message) (messages : List Message) :
    strippedChars (m :: messages) = (strip m.content).length + strippedChars messages := by
  rw [strippedChars, List.map_cons, chars_cons, strippedChars]
  rfl

/-- The messages, newest first, fit the budget: they do not have more characters, or they have
one more and the oldest of them is a frame. -/
def Fits (b : ℕ) (newestFirst : List Message) : Prop :=
  strippedChars newestFirst ≤ b ∨
    (strippedChars newestFirst = b + 1 ∧
      ∃ oldest, newestFirst.getLast? = some oldest ∧ IsFrame (strip oldest.content))

/-- **The loop keeps the messages as they are precisely if they fit.** -/
theorem retain_eq_iff {older : List Message} (hproper : ∀ m ∈ older, m.Proper) (b : ℕ) :
    (retain b older).map Message.stripped = older.map Message.stripped ↔ Fits b older := by
  induction older generalizing b with
  | nil => exact iff_of_true rfl (.inl (Nat.zero_le _))
  | cons m older ih =>
    obtain ⟨hrole, hcontent⟩ := hproper m List.mem_cons_self
    have ih := ih fun n hn => hproper n (List.mem_cons_of_mem m hn)
    have hpos : 0 < (strip m.content).length := List.length_pos_iff.mpr hcontent
    have hlast : older ≠ [] → (m :: older).getLast? = older.getLast? := fun hne => by
      rw [List.getLast?_cons_of_ne_nil hne]
    have hsome : older ≠ [] → 0 < strippedChars older := fun hne => by
      obtain ⟨n, rest, rfl⟩ := List.exists_cons_of_ne_nil hne
      have hn := (hproper n (by simp)).2
      have : 0 < (strip n.content).length := List.length_pos_iff.mpr hn
      rw [strippedChars_cons]
      omega
    rcases Nat.eq_zero_or_pos b with rfl | hb
    · rw [retain_zero, List.map_nil, List.map_cons]
      refine iff_of_false (fun h => by cases h) ?_
      rintro (h | ⟨h, oldest, holdest, hframe⟩)
      · rw [strippedChars_cons] at h
        omega
      · have h21 := hframe.length
        rw [strippedChars_cons] at h
        by_cases hne : older = []
        · subst hne
          obtain rfl : m = oldest := Option.some.inj holdest
          rw [strippedChars_nil] at h
          omega
        · have := hsome hne
          omega
    · have hstep : truncateTextPreservingEnds (strip m.content) b ≠ [] →
          retain b (m :: older) = ⟨m.role, truncateTextPreservingEnds (strip m.content) b⟩ ::
            retain (b - (truncateTextPreservingEnds (strip m.content) b).length) older := by
        intro hne
        rw [retain]
        simp only [hrole, hcontent, hb.ne', not_true_eq_false, or_self, if_false, hne]
      rcases Nat.lt_or_ge b (strip m.content).length with hlong | hshort
      · -- The message is shortened, so it must be a frame, and no budget is left.
        have hlong' : b < (strip (strip m.content)).length := by rwa [strip_strip]
        have hlength := length_truncate_of_lt hlong'
        have hne : truncateTextPreservingEnds (strip m.content) b ≠ [] := by
          intro hnil
          rw [hnil, List.length_nil] at hlength
          by_cases h20 : b = 20
          · rw [if_pos h20] at hlength
            omega
          · rw [if_neg h20] at hlength
            omega
        have hexhausted :
            b - (truncateTextPreservingEnds (strip m.content) b).length = 0 := by
          rw [hlength]
          by_cases h20 : b = 20
          · rw [if_pos h20]
            omega
          · rw [if_neg h20]
            omega
        rw [hstep hne, hexhausted, retain_zero, List.map_cons, List.map_nil, List.map_cons,
          List.cons.injEq, Message.stripped, Message.stripped, Message.mk.injEq]
        have hsame := strip_truncate_eq_iff hlong'
        rw [strip_strip] at hsame
        constructor
        · rintro ⟨⟨-, hcut⟩, hnil⟩
          obtain ⟨rfl, hframe⟩ := hsame.mp hcut
          obtain rfl : older = [] := List.map_eq_nil_iff.mp hnil.symm
          refine .inr ⟨?_, m, rfl, hframe⟩
          rw [strippedChars_cons, strippedChars_nil, hframe.length]
        · rintro (h | ⟨h, oldest, holdest, hframe⟩)
          · rw [strippedChars_cons] at h
            omega
          · rw [strippedChars_cons] at h
            have hnil : older = [] := by
              by_contra hne
              have := hsome hne
              omega
            subst hnil
            obtain rfl : m = oldest := Option.some.inj holdest
            have h21 := hframe.length
            rw [strippedChars_nil] at h
            exact ⟨⟨rfl, hsame.mpr ⟨by omega, hframe⟩⟩, rfl⟩
      · -- The message is kept, and the rest has what it leaves of the budget.
        have hkept : truncateTextPreservingEnds (strip m.content) b = strip m.content := by
          rw [truncate_of_le (by rwa [strip_strip]), strip_strip]
        rw [hstep (by rwa [hkept]), hkept, List.map_cons, List.map_cons, List.cons.injEq,
          Message.stripped, Message.stripped, strip_strip, ih, Fits, Fits, strippedChars_cons]
        constructor
        · rintro ⟨-, h | ⟨h, oldest, holdest, hframe⟩⟩
          · exact .inl (by omega)
          · refine .inr ⟨by omega, oldest, ?_, hframe⟩
            rwa [hlast (by rintro rfl; cases holdest)]
        · rintro (h | ⟨h, oldest, holdest, hframe⟩)
          · exact ⟨rfl, .inl (by omega)⟩
          · by_cases hne : older = []
            · subst hne
              rw [strippedChars_nil] at h
              omega
            · refine ⟨rfl, .inr ⟨by omega, oldest, ?_, hframe⟩⟩
              rwa [← hlast hne]

/-- **The budget leaves a history as it was precisely if the history fits it**: it has no more
messages than the budget allows, and no more characters, but for the one character more of a frame
at its beginning. -/
theorem applyHistoryBudget_eq_iff {history : List Message} (hproper : ∀ m ∈ history, m.Proper)
    (maxMessages maxChars : ℕ) :
    (applyHistoryBudget history maxMessages maxChars).map Message.stripped =
        history.map Message.stripped ↔
      history.length ≤ maxMessages ∧ Fits maxChars history.reverse := by
  by_cases hlength : history.length ≤ maxMessages
  · rw [applyHistoryBudget, recentHistory_of_length_le hlength, List.map_reverse,
      List.reverse_eq_iff, ← List.map_reverse, retain_eq_iff, and_iff_right hlength]
    intro m hm
    exact hproper m (List.mem_reverse.mp hm)
  · refine iff_of_false (fun heq => ?_) fun h => hlength h.1
    have hsame := congrArg List.length heq
    rw [List.length_map, List.length_map, applyHistoryBudget, List.length_reverse] at hsame
    have hle := length_retain_le maxChars (recentHistory maxMessages history).reverse
    rw [List.length_reverse, length_recentHistory] at hle
    omega

/-! ### What is retained is proper -/

/-- A text that was shortened begins as before. -/
theorem head?_truncate {text : Text} {limit : ℕ} (hlimit : limit ≠ 0) :
    (truncateTextPreservingEnds text limit).head? = (strip text).head? := by
  by_cases hfits : (strip text).length ≤ limit
  · rw [truncate_of_le hfits]
  · by_cases hsmall : limit ≤ 19
    · rw [truncate_of_le_marker (by omega) hsmall, List.head?_take, if_neg hlimit]
    · rw [truncate_of_marker_lt (by omega) (by omega), List.head?_append, List.head?_take,
        if_neg (by omega)]
      cases hhead : (strip text).head? with
      | some c => rfl
      | none =>
        rw [List.head?_eq_none_iff.mp hhead, List.length_nil] at hfits
        omega

theorem proper_of_mem_retain {b : ℕ} {older : List Message} {m : Message}
    (h : m ∈ retain b older) : m.Proper := by
  induction older generalizing b with
  | nil => cases h
  | cons n older ih =>
    rw [retain] at h
    by_cases hskip : n.role ∉ chatMessageRoles ∨ strip n.content = [] ∨ b = 0
    · rw [if_pos hskip] at h
      exact ih h
    · rw [if_neg hskip] at h
      simp only [not_or, not_not] at hskip
      obtain ⟨hrole, hcontent, hb⟩ := hskip
      dsimp only at h
      by_cases hempty : truncateTextPreservingEnds (strip n.content) b = []
      · rw [if_pos hempty] at h
        exact ih h
      · rw [if_neg hempty] at h
        rcases List.mem_cons.mp h with rfl | h
        · refine ⟨hrole, ?_⟩
          obtain ⟨c, hc⟩ : ∃ c, (strip n.content).head? = some c :=
            Option.isSome_iff_exists.mp (by simpa using hcontent)
          have hhead : (truncateTextPreservingEnds (strip n.content) b).head? = _ :=
            head?_truncate hb
          rw [strip_strip, hc] at hhead
          exact strip_ne_nil_of_head hhead ((tight_strip n.content).1 c hc)
        · exact ih h

/-- **What is retained has a chat role and is not blank.** -/
theorem proper_applyHistoryBudget {history : List Message} {n b : ℕ} {m : Message}
    (h : m ∈ applyHistoryBudget history n b) : m.Proper :=
  proper_of_mem_retain (List.mem_reverse.mp h)

theorem length_applyHistoryBudget_le (history : List Message) (n b : ℕ) :
    (applyHistoryBudget history n b).length ≤ n := by
  rw [applyHistoryBudget, List.length_reverse]
  refine (length_retain_le _ _).trans ?_
  rw [List.length_reverse, length_recentHistory]
  exact Nat.min_le_left _ _

end Budget

end AiAgent

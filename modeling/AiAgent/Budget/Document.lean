import AiAgent.Budget.History
import AiAgent.Text.Search

/-!
# Shortening the documents of a prompt

A prompt with documents has three parts: what stands before the documents, the documents, each
under its label, and the request. If the prompt is too long only the documents are shortened,
chunk by chunk, and as long as it goes every chunk keeps its label
(`AiAgent.Budget.trimDocumentBlockPreservingLabels`).

The chunks that are retained keep the limit (`AiAgent.Budget.length_retainChunks_le`). If not even
the first label fits, the documents are shortened like any other text, and that has an exception:
with a limit of 20 characters 21 are left (`AiAgent.Budget.length_trimDocumentBlock_le_iff`).
-/

namespace AiAgent

namespace Budget

open Text

/-! ### The parts of a prompt -/

def documentTruncationMarker : Text := "[DOCUMENT_TRUNCATED]".toList

def documentsSectionHeader : Text := "# ДОКУМЕНТЫ".toList

def userRequestSectionHeader : Text := "# ЗАПРОС ПОЛЬЗОВАТЕЛЯ".toList

def sectionDivider : Text := "\n\n---\n\n".toList

def labelOpening : Text := "[Документ ".toList

/-! The characters of the headers. -/

theorem documentsSectionHeader_eq : documentsSectionHeader =
    ['#', ' ', 'Д', 'О', 'К', 'У', 'М', 'Е', 'Н', 'Т', 'Ы'] := String.toList_ofList

theorem userRequestSectionHeader_eq : userRequestSectionHeader =
    ['#', ' ', 'З', 'А', 'П', 'Р', 'О', 'С', ' ', 'П', 'О', 'Л', 'Ь', 'З', 'О', 'В', 'А', 'Т', 'Е',
      'Л', 'Я'] := String.toList_ofList

theorem sectionDivider_eq : sectionDivider = ['\n', '\n', '-', '-', '-', '\n', '\n'] :=
  String.toList_ofList

theorem labelOpening_eq : labelOpening =
    ['[', 'Д', 'о', 'к', 'у', 'м', 'е', 'н', 'т', ' '] := String.toList_ofList

@[simp] theorem length_documentTruncationMarker : documentTruncationMarker.length = 20 := by
  delta documentTruncationMarker
  rw [String.toList_ofList]
  rfl

/-- `_is_document_prompt`. -/
def isDocumentPrompt (prompt : Text) : Bool :=
  decide (documentsSectionHeader <:+: prompt) && decide (userRequestSectionHeader <:+: prompt)

/-- The parts of a prompt with documents: what stays before them, the documents, and what stays
after them. -/
structure Sections where
  before : Text
  documentBlock : Text
  after : Text

/-- How many characters are not for the documents. -/
def Sections.reservedChars (s : Sections) : ℕ := s.before.length + s.after.length

/-- `_parse_document_prompt_sections`. -/
def parseDocumentPromptSections (prompt : Text) : Option Sections := do
  let (beforeDocs, remainder) ← splitOnce documentsSectionHeader prompt
  let (documentSection, afterDocs) ← splitOnce userRequestSectionHeader remainder
  let (documentBlock, _) ← rsplitOnce sectionDivider documentSection
  return {
    before := beforeDocs ++ (documentsSectionHeader ++ "\n\n".toList)
    documentBlock := strip documentBlock
    after := sectionDivider ++ (userRequestSectionHeader ++ afterDocs) }

/-! ### The chunks of a document block -/

/-- A document: its label and its text. -/
structure Chunk where
  label : Text
  content : Text

/-- The chunk that is complete: a label, and the lines read since. -/
def closeChunk (currentLabel : Option Text) (currentLines : List Text) : List Chunk :=
  match currentLabel with
  | none => []
  | some label => [⟨label, strip (join "\n".toList currentLines)⟩]

/-- The loop of `_split_document_chunks`. -/
def collectChunks (currentLabel : Option Text) (currentLines : List Text) :
    List Text → List Chunk
  | [] => closeChunk currentLabel currentLines
  | line :: lines =>
    let stripped := strip line
    if labelOpening.isPrefixOf stripped && stripped.getLast? == some ']' then
      closeChunk currentLabel currentLines ++ collectChunks (some stripped) [] lines
    else
      match currentLabel with
      | none => collectChunks none currentLines lines
      | some label => collectChunks (some label) (currentLines ++ [line]) lines

/-- `_split_document_chunks`. -/
def splitDocumentChunks (documentBlock : Text) : List Chunk :=
  collectChunks none [] (splitlines documentBlock)

/-- The chunk as it stands in the prompt. -/
def Chunk.full (c : Chunk) : Text :=
  if c.content = [] then c.label else c.label ++ ('\n' :: c.content)

/-! ### Retaining chunks -/

/-- `_truncate_document_chunk_content`. -/
def truncateDocumentChunkContent (content : Text) (limit : ℕ) : Text :=
  if limit = 0 then []
  else
    let stripped := strip content
    if stripped.length ≤ limit then stripped
    else
      let marker := '\n' :: documentTruncationMarker
      if limit ≤ marker.length then documentTruncationMarker.take limit
      else
        let snippet := rstrip (stripped.take (limit - marker.length))
        if snippet = [] then documentTruncationMarker else snippet ++ marker

theorem length_truncateDocumentChunkContent_le (content : Text) (limit : ℕ) :
    (truncateDocumentChunkContent content limit).length ≤ limit := by
  rw [truncateDocumentChunkContent]
  by_cases hzero : limit = 0
  · rw [if_pos hzero]
    exact Nat.zero_le _
  · rw [if_neg hzero]
    by_cases hfits : (strip content).length ≤ limit
    · simpa only [if_pos hfits] using hfits
    · simp only [if_neg hfits, List.length_cons, length_documentTruncationMarker, Nat.reduceAdd]
      by_cases hsmall : limit ≤ 21
      · rw [if_pos hsmall, List.length_take]
        omega
      · rw [if_neg hsmall]
        have hsnippet := length_rstrip_le ((strip content).take (limit - 21))
        rw [List.length_take] at hsnippet
        by_cases hempty : rstrip ((strip content).take (limit - 21)) = []
        · rw [if_pos hempty, length_documentTruncationMarker]
          omega
        · rw [if_neg hempty, List.length_append, List.length_cons,
            length_documentTruncationMarker]
          omega

/-- What separates the next chunk from those retained. -/
def chunkSeparator (retainedChunks : List Text) : Text :=
  if retainedChunks = [] then [] else "\n\n".toList

/-- The loop of `_trim_document_block_preserving_labels`. Where nothing remains the difference is
0, and no label fits. -/
def retainChunks (limit : ℕ) : (retainedChunks : List Text) → (usedChars : ℕ) → List Chunk →
    List Text
  | retainedChunks, _, [] => retainedChunks
  | retainedChunks, usedChars, chunk :: chunks =>
    let separator := chunkSeparator retainedChunks
    if usedChars + separator.length + chunk.full.length ≤ limit then
      retainChunks limit (retainedChunks ++ [chunk.full])
        (usedChars + (separator.length + chunk.full.length)) chunks
    else
      let remaining := limit - usedChars - separator.length
      if remaining ≤ chunk.label.length then retainedChunks
      else if remaining ≤ chunk.label.length + 1 + documentTruncationMarker.length then
        retainedChunks ++ [chunk.label]
      else
        let content := if chunk.content = [] then documentTruncationMarker else chunk.content
        let trimmedContent :=
          truncateDocumentChunkContent content (remaining - chunk.label.length - 1)
        if trimmedContent = [] then retainedChunks ++ [chunk.label]
        else retainedChunks ++ [chunk.label ++ ('\n' :: trimmedContent)]

/-- `_trim_document_block_preserving_labels`. -/
def trimDocumentBlockPreservingLabels (documentBlock : Text) (limit : ℕ) : Text :=
  if limit = 0 then []
  else
    let stripped := strip documentBlock
    if stripped.length ≤ limit then stripped
    else
      let chunks := splitDocumentChunks stripped
      if chunks.isEmpty then truncateTextPreservingEnds stripped limit
      else
        let retainedChunks := retainChunks limit [] 0 chunks
        if retainedChunks = [] then truncateTextPreservingEnds stripped limit
        else join "\n\n".toList retainedChunks

theorem length_join_concat_eq (retainedChunks : List Text) (t : Text) :
    (join "\n\n".toList (retainedChunks ++ [t])).length =
      (join "\n\n".toList retainedChunks).length + (chunkSeparator retainedChunks).length +
        t.length := by
  rw [length_join_concat, chunkSeparator]
  by_cases h : retainedChunks = []
  · rw [if_pos h, if_pos h]
    rfl
  · rw [if_neg h, if_neg h]

/-- **The chunks that are retained keep the limit**, if those retained before do. -/
theorem length_retainChunks_le {limit : ℕ} :
    ∀ {chunks : List Chunk} {retainedChunks : List Text} {usedChars : ℕ},
      (join "\n\n".toList retainedChunks).length = usedChars → usedChars ≤ limit →
      (join "\n\n".toList (retainChunks limit retainedChunks usedChars chunks)).length ≤ limit := by
  intro chunks
  induction chunks with
  | nil =>
    rintro retainedChunks usedChars rfl hle
    exact hle
  | cons chunk chunks ih =>
    rintro retainedChunks usedChars hused hle
    rw [retainChunks]
    -- Either the chunk fits as a whole, or it is the last one that is looked at.
    by_cases hfull : usedChars + (chunkSeparator retainedChunks).length + chunk.full.length ≤ limit
    · simp only [if_pos hfull]
      refine ih ?_ (by omega)
      rw [length_join_concat_eq, hused, Nat.add_assoc]
    · simp only [if_neg hfull]
      by_cases hno : limit - usedChars - (chunkSeparator retainedChunks).length ≤
          chunk.label.length
      · rw [if_pos hno, hused]
        exact hle
      · rw [if_neg hno]
        have hlabel : (join "\n\n".toList (retainedChunks ++ [chunk.label])).length ≤ limit := by
          rw [length_join_concat_eq, hused]
          omega
        -- With no room for any content only the label is taken.
        by_cases hbare : limit - usedChars - (chunkSeparator retainedChunks).length ≤
            chunk.label.length + 1 + documentTruncationMarker.length
        · rw [if_pos hbare]
          exact hlabel
        · rw [if_neg hbare]
          have htrim := length_truncateDocumentChunkContent_le
            (if chunk.content = [] then documentTruncationMarker else chunk.content)
            (limit - usedChars - (chunkSeparator retainedChunks).length - chunk.label.length - 1)
          by_cases hempty : truncateDocumentChunkContent
              (if chunk.content = [] then documentTruncationMarker else chunk.content)
              (limit - usedChars - (chunkSeparator retainedChunks).length - chunk.label.length - 1)
                = []
          · rw [if_pos hempty]
            exact hlabel
          · rw [if_neg hempty, length_join_concat_eq, hused, List.length_append,
              List.length_cons]
            omega

/-! ### What a limit of 20 characters does -/

/-- What was retained stays retained. -/
theorem retainChunks_ne_nil {limit usedChars : ℕ} {retainedChunks : List Text}
    {chunks : List Chunk} (h : retainedChunks ≠ []) :
    retainChunks limit retainedChunks usedChars chunks ≠ [] := by
  fun_induction retainChunks limit retainedChunks usedChars chunks with
  | case1 => exact h
  | case2 _ _ _ _ _ _ ih => exact ih (by simp)
  | case3 => exact h
  | _ => simp

/-- The block begins with no label that 20 characters could hold: it has no label, or its first
label is longer, or as long and with text below it. -/
def LacksLabel (stripped : Text) : Prop :=
  ∀ chunk, (splitDocumentChunks stripped).head? = some chunk →
    20 < chunk.label.length ∨ (20 = chunk.label.length ∧ chunk.content ≠ [])

instance (stripped : Text) : Decidable (LacksLabel stripped) :=
  decidable_of_iff ((splitDocumentChunks stripped).head?.all fun chunk =>
      decide (20 < chunk.label.length ∨ (20 = chunk.label.length ∧ chunk.content ≠ [])) =
        true) <| by
    rw [LacksLabel, Option.all_eq_true]
    simp only [decide_eq_true_eq]

/-- With a limit of 20 nothing is retained precisely if the first label does not fit. -/
theorem retainChunks_twenty_eq_nil_iff {chunk : Chunk} {chunks : List Chunk} :
    retainChunks 20 [] 0 (chunk :: chunks) = [] ↔
      20 < chunk.label.length ∨ (20 = chunk.label.length ∧ chunk.content ≠ []) := by
  have hfull : chunk.full.length =
      if chunk.content = [] then chunk.label.length
      else chunk.label.length + chunk.content.length + 1 := by
    rw [Chunk.full]
    by_cases h : chunk.content = []
    · rw [if_pos h, if_pos h]
    · rw [if_neg h, if_neg h, List.length_append, List.length_cons, Nat.add_assoc]
  rw [retainChunks]
  simp only [chunkSeparator, if_true, List.length_nil, Nat.sub_zero, Nat.zero_add, Nat.add_zero,
    List.nil_append, length_documentTruncationMarker]
  -- Twenty characters hold the chunk as a whole, or its label alone, or nothing of it.
  by_cases hfits : chunk.full.length ≤ 20
  · rw [if_pos hfits]
    refine iff_of_false (retainChunks_ne_nil (List.cons_ne_nil _ _)) ?_
    rw [hfull] at hfits
    by_cases h : chunk.content = []
    · rw [if_pos h] at hfits
      rintro (hlong | ⟨-, hne⟩)
      · omega
      · exact hne h
    · rw [if_neg h] at hfits
      omega
  · rw [if_neg hfits]
    rw [hfull] at hfits
    by_cases hlabel : 20 ≤ chunk.label.length
    · rw [if_pos hlabel, eq_self_iff_true, true_iff]
      by_cases h : chunk.content = []
      · rw [if_pos h] at hfits
        exact .inl (by omega)
      · rcases Nat.lt_or_eq_of_le hlabel with hlt | heq
        · exact .inl hlt
        · exact .inr ⟨heq, h⟩
    · rw [if_neg hlabel, if_pos (by omega)]
      exact iff_of_false (List.cons_ne_nil _ _) (by omega)

/-- The documents overrun the limit: it is 20, they are longer, and no label fits. -/
def Overruns (documentBlock : Text) (limit : ℕ) : Prop :=
  limit = 20 ∧ 20 < (strip documentBlock).length ∧ LacksLabel (strip documentBlock)

instance (documentBlock : Text) (limit : ℕ) : Decidable (Overruns documentBlock limit) :=
  inferInstanceAs (Decidable (_ ∧ _))

/-- Where they overrun it, they are shortened like any other text. -/
theorem trimDocumentBlock_of_overruns {documentBlock : Text} {limit : ℕ}
    (h : Overruns documentBlock limit) :
    trimDocumentBlockPreservingLabels documentBlock limit =
      truncateTextPreservingEnds (strip documentBlock) limit := by
  obtain ⟨rfl, hlong, hlacks⟩ := h
  rw [trimDocumentBlockPreservingLabels, if_neg (by omega)]
  simp only [if_neg (show ¬ (strip documentBlock).length ≤ 20 by omega)]
  cases hchunks : splitDocumentChunks (strip documentBlock) with
  | nil => rfl
  | cons chunk chunks =>
    have hfirst := hlacks chunk (by rw [hchunks]; rfl)
    rw [if_pos (retainChunks_twenty_eq_nil_iff.mpr hfirst)]
    rfl

/-- **The documents keep their limit**, unless they overrun it. -/
theorem length_trimDocumentBlock_le_iff (documentBlock : Text) (limit : ℕ) :
    (trimDocumentBlockPreservingLabels documentBlock limit).length ≤ limit ↔
      ¬ Overruns documentBlock limit := by
  by_cases hover : Overruns documentBlock limit
  · refine iff_of_false ?_ (fun h => h hover)
    rw [trimDocumentBlock_of_overruns hover, length_truncate_le_iff, strip_strip]
    exact fun h => h ⟨hover.1, hover.2.1⟩
  · refine iff_of_true ?_ hover
    rw [trimDocumentBlockPreservingLabels]
    by_cases hzero : limit = 0
    · rw [if_pos hzero]
      exact Nat.zero_le _
    · rw [if_neg hzero]
      by_cases hfits : (strip documentBlock).length ≤ limit
      · simpa only [if_pos hfits] using hfits
      · simp only [if_neg hfits]
        -- The whole text is shortened only if no label fits.
        have hwhole : LacksLabel (strip documentBlock) ∨ limit ≠ 20 →
            (truncateTextPreservingEnds (strip documentBlock) limit).length ≤ limit := by
          intro h
          rw [length_truncate_le_iff, strip_strip]
          rintro ⟨rfl, hlong⟩
          exact hover ⟨rfl, hlong, h.resolve_right fun hne => hne rfl⟩
        cases hchunks : splitDocumentChunks (strip documentBlock) with
        | nil =>
          refine hwhole (.inl fun chunk hchunk => ?_)
          rw [hchunks] at hchunk
          cases hchunk
        | cons chunk chunks =>
          rw [if_neg (show ¬ (chunk :: chunks).isEmpty = true from Bool.false_ne_true)]
          by_cases hnone : retainChunks limit [] 0 (chunk :: chunks) = []
          · rw [if_pos hnone]
            refine hwhole ?_
            by_cases h20 : limit = 20
            · subst h20
              refine .inl fun first hfirst => ?_
              rw [hchunks] at hfirst
              obtain rfl : chunk = first := Option.some.inj hfirst
              exact retainChunks_twenty_eq_nil_iff.mp hnone
            · exact .inr h20
          · rw [if_neg hnone]
            exact length_retainChunks_le rfl (Nat.zero_le _)

end Budget

end AiAgent

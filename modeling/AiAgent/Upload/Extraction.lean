import AiAgent.Budget.Document

/-!
# Extracting the text of an upload

Of a text file and of a DOCX file no more characters are read than a document may have, and one:
`AiAgent.Upload.extractTextFromTxt` counts characters of the file and
`AiAgent.Upload.extractTextFromDocx` those of its text runs, while a paragraph's newline does not
count. What was read is then trimmed like the text of any other document
(`AiAgent.Upload.trimDocumentContent`).

The one character more is to tell the trimming that something was left unread. But the trimming
strips first and counts then. Where the file begins with white space the stripped text has no more
characters than a document may have, nothing seems to be left out, and what was not read is dropped
without a mark; if there is enough white space nothing is left at all. What is extracted is what
trimming makes of the whole text precisely if nothing visible was left unread or more visible text
was read than a document may have (`AiAgent.Upload.extractsFully_iff`), but for texts that end,
where the reading stops, with the very mark of trimming.
-/

namespace AiAgent

namespace Upload

open Text Budget

/-! ### Trimming -/

/-- What is left of a stripped text that is too long: its beginning and the mark. -/
def cut (maxParsedDocumentChars : ℕ) (normalized : Text) : Text :=
  let marker := '\n' :: documentTruncationMarker
  let snippet := rstrip (normalized.take (maxParsedDocumentChars - marker.length))
  if snippet = [] then documentTruncationMarker else snippet ++ marker

/-- `trim_document_content`. -/
def trimDocumentContent (maxParsedDocumentChars : ℕ) (content : Text) : Text :=
  let normalized := strip content
  if normalized.length ≤ maxParsedDocumentChars then normalized
  else cut maxParsedDocumentChars normalized

theorem trim_of_le {m : ℕ} {t : Text} (h : (strip t).length ≤ m) :
    trimDocumentContent m t = strip t := if_pos h

theorem trim_of_lt {m : ℕ} {t : Text} (h : m < (strip t).length) :
    trimDocumentContent m t = cut m (strip t) := if_neg (not_le.mpr h)

theorem documentTruncationMarker_ne_nil : documentTruncationMarker ≠ [] :=
  List.ne_nil_of_length_pos (by rw [length_documentTruncationMarker]; decide)

theorem cut_ne_nil (m : ℕ) (t : Text) : cut m t ≠ [] := by
  rw [cut]
  split
  · exact documentTruncationMarker_ne_nil
  · exact List.append_ne_nil_of_right_ne_nil _ (List.cons_ne_nil _ _)

/-- The mark stands at the end. -/
theorem marker_suffix_cut (m : ℕ) (t : Text) : documentTruncationMarker <:+ cut m t := by
  rw [cut]
  split
  · exact List.suffix_refl _
  · exact (List.suffix_cons _ _).trans (List.suffix_append _ _)

/-- **Text is dropped only with the mark.** -/
theorem trim_eq_or_marked (m : ℕ) (t : Text) : trimDocumentContent m t = strip t ∨
    documentTruncationMarker <:+ trimDocumentContent m t := by
  rcases Nat.lt_or_ge m (strip t).length with h | h
  · rw [trim_of_lt h]
    exact .inr (marker_suffix_cut m _)
  · exact .inl (trim_of_le h)

/-- **Visible text is not trimmed to nothing.** -/
theorem trim_ne_nil {m : ℕ} {t : Text} (ht : ¬ Blank t) : trimDocumentContent m t ≠ [] := by
  rcases Nat.lt_or_ge m (strip t).length with h | h
  · rw [trim_of_lt h]
    exact cut_ne_nil m _
  · rw [trim_of_le h]
    exact ht

/-! ### Trimming a beginning -/

/-- The stripped text ends with the mark, where trimming puts it. -/
def ReadsTrimmed (m : ℕ) (t : Text) : Prop := t = cut m t

instance (m : ℕ) (t : Text) : Decidable (ReadsTrimmed m t) := inferInstanceAs (Decidable (_ = _))

/-- Only so much of a text counts as is kept of it. -/
theorem cut_congr {m : ℕ} {p s : Text} (h : p <+: s) (hlength : m - 21 ≤ p.length) :
    cut m p = cut m s := by
  obtain ⟨z, rfl⟩ := h
  rw [cut, cut]
  simp only [List.length_cons, length_documentTruncationMarker, Nat.reduceAdd]
  rw [List.take_append_of_le_length hlength]

/-- A beginning that is not even as long as what is kept is no trimmed text. -/
theorem ne_cut_of_lt {m : ℕ} {p s : Text} (h : p <+: s) (hp : Tight p)
    (hlength : p.length < m - 21) : p ≠ cut m s := by
  intro heq
  have hkept : p <+: rstrip (s.take (m - 21)) := by
    refine prefix_rstrip ?_ fun c hc => hp.2 c hc
    rw [List.prefix_take_iff]
    exact ⟨h, hlength.le⟩
  rw [cut] at heq
  simp only [List.length_cons, length_documentTruncationMarker, Nat.reduceAdd] at heq
  split at heq
  · next hnil =>
    rw [hnil, List.prefix_nil] at hkept
    exact documentTruncationMarker_ne_nil (heq.symm.trans hkept)
  · have hle := hkept.length_le
    have hlong := congrArg List.length heq
    rw [List.length_append, List.length_cons, length_documentTruncationMarker] at hlong
    omega

theorem eq_cut_iff {m : ℕ} {p s : Text} (h : p <+: s) (hp : Tight p) :
    p = cut m s ↔ ReadsTrimmed m p := by
  rw [ReadsTrimmed]
  rcases Nat.lt_or_ge p.length (m - 21) with hlength | hlength
  · exact iff_of_false (ne_cut_of_lt h hp hlength) (ne_cut_of_lt (List.prefix_refl p) hp hlength)
  · rw [cut_congr h hlength]

/-- The beginning of a text tells as much as trimming needs: what follows it is blank, or it is too
long itself, or it reads as if it had been trimmed and the text is too long. -/
def Suffices (m : ℕ) (beginning unread : Text) : Prop :=
  Blank unread ∨ m < (strip beginning).length ∨
    (m < (strip (beginning ++ unread)).length ∧ ReadsTrimmed m (strip beginning))

/-- **Trimming the beginning of a text is trimming the text precisely if the beginning
suffices.** -/
theorem trim_append_iff (m : ℕ) (u v : Text) :
    trimDocumentContent m u = trimDocumentContent m (u ++ v) ↔ Suffices m u v := by
  by_cases hv : Blank v
  · refine iff_of_true ?_ (.inl hv)
    rw [trimDocumentContent, trimDocumentContent, strip_append_of_blank_right hv]
  rw [Suffices, or_iff_right hv]
  obtain ⟨hbegins, hlonger⟩ := strip_prefix_append (u := u) hv
  rcases Nat.lt_or_ge m (strip u).length with hlong | hshort
  · refine iff_of_true ?_ (.inl hlong)
    rw [trim_of_lt hlong, trim_of_lt (hlong.trans hlonger)]
    exact cut_congr hbegins (by omega)
  · rw [or_iff_right (not_lt.mpr hshort), trim_of_le hshort]
    rcases Nat.lt_or_ge m (strip (u ++ v)).length with hcut | hfits
    · rw [trim_of_lt hcut, and_iff_right hcut]
      exact eq_cut_iff hbegins (tight_strip u)
    · rw [trim_of_le hfits]
      refine iff_of_false (fun heq => ?_) fun h => absurd h.1 (not_lt.mpr hfits)
      rw [heq] at hlonger
      omega

/-! ### Text files -/

/-- The loop of `extract_text_from_txt` over an open file, of which `handle` is still to be read. -/
def readChunks (hardLimit consumed : ℕ) (handle : Text) : List Text :=
  if consumed < hardLimit then
    let chunk := handle.take (min 4096 (hardLimit - consumed))
    if chunk = [] then []
    else chunk :: readChunks hardLimit (consumed + chunk.length) (handle.drop chunk.length)
  else []
termination_by hardLimit - consumed
decreasing_by
  rename_i hlimit hchunk
  have hpos : 0 < chunk.length := List.length_pos_of_ne_nil hchunk
  exact Nat.sub_lt_sub_left hlimit (Nat.lt_add_of_pos_right hpos)

/-- `extract_text_from_txt`. The content is what the file's bytes decode to. -/
def extractTextFromTxt (maxParsedDocumentChars : ℕ) (content : Text) : Text :=
  trimDocumentContent maxParsedDocumentChars
    (readChunks (maxParsedDocumentChars + 1) 0 content).flatten

/-- However the reading is chunked, so many characters are read. -/
theorem flatten_readChunks (hardLimit consumed : ℕ) (handle : Text) :
    (readChunks hardLimit consumed handle).flatten = handle.take (hardLimit - consumed) := by
  fun_induction readChunks hardLimit consumed handle with
  | case1 consumed handle hlimit chunk hchunk =>
    have hnil : handle = [] := by
      rcases List.take_eq_nil_iff.mp hchunk with hzero | hnil
      · omega
      · exact hnil
    rw [hnil, List.take_nil, List.flatten_nil]
  | case2 consumed handle hlimit chunk hchunk ih =>
    have hsplit : handle = chunk ++ handle.drop chunk.length := by
      conv_lhs => rw [← List.take_append_drop (min 4096 (hardLimit - consumed)) handle]
      rcases Nat.le_total handle.length (min 4096 (hardLimit - consumed)) with hle | hle
      · simp only [chunk, List.take_of_length_le hle, List.drop_length, List.drop_of_length_le hle]
      · simp only [chunk, List.length_take, min_eq_left hle]
    have hlength : chunk.length ≤ hardLimit - consumed := by
      simp only [chunk, List.length_take]
      omega
    rw [List.flatten_cons, ih]
    conv_rhs => rw [hsplit, List.take_append, List.take_of_length_le hlength]
    rw [Nat.sub_sub]
  | case3 consumed handle hlimit =>
    rw [List.flatten_nil, Nat.sub_eq_zero_of_le (not_lt.mp hlimit), List.take_zero]

/-! ### DOCX files -/

/-- An element of an XML document: its tag, its text, and its children. -/
inductive Element where
  | node (tag : Text) (text : Option Text) (children : List Element)

mutual

/-- `Element.iter`: the tags and texts of the element and of all below it, in document order. -/
def Element.iter : Element → List (Text × Option Text)
  | .node tag text children => (tag, text) :: Element.iterAll children

/-- Those of several elements, one after the other. -/
def Element.iterAll : List Element → List (Text × Option Text)
  | [] => []
  | element :: elements => element.iter ++ Element.iterAll elements

end

/-- The tag names a text run. -/
def isRunTag (tag : Text) : Bool := ['}', 't'].isSuffixOf tag

/-- The tag names a paragraph. -/
def isParagraphTag (tag : Text) : Bool := ['}', 'p'].isSuffixOf tag

/-- The loop of `extract_text_from_docx`, all chunks together. -/
def collectRuns (hardLimit : ℕ) : (consumed : ℕ) → List (Text × Option Text) → Text
  | _, [] => []
  | consumed, (tag, text) :: nodes =>
    if isRunTag tag && text.getD [] ≠ [] then
      if hardLimit ≤ consumed then collectRuns hardLimit consumed nodes
      else
        let chunk := (text.getD []).take (hardLimit - consumed)
        chunk ++ collectRuns hardLimit (consumed + chunk.length) nodes
    else if isParagraphTag tag then '\n' :: collectRuns hardLimit consumed nodes
    else collectRuns hardLimit consumed nodes

/-- `extract_text_from_docx`, of the root of `word/document.xml`. -/
def extractTextFromDocx (maxParsedDocumentChars : ℕ) (root : Element) : Text :=
  trimDocumentContent maxParsedDocumentChars
    (collectRuns (maxParsedDocumentChars + 1) 0 root.iter)

/-- The text of a document: its text runs, and a newline for each paragraph. -/
def documentText : List (Text × Option Text) → Text
  | [] => []
  | (tag, text) :: nodes =>
    if isRunTag tag && text.getD [] ≠ [] then text.getD [] ++ documentText nodes
    else if isParagraphTag tag then '\n' :: documentText nodes
    else documentText nodes

/-- The text of a document up to so many characters of text runs, with the newlines that follow
them, and from there on. -/
def splitRuns : (limit : ℕ) → List (Text × Option Text) → Text × Text
  | _, [] => ([], [])
  | limit, (tag, text) :: nodes =>
    if isRunTag tag && text.getD [] ≠ [] then
      if (text.getD []).length ≤ limit then
        let (beginning, unread) := splitRuns (limit - (text.getD []).length) nodes
        (text.getD [] ++ beginning, unread)
      else ((text.getD []).take limit, (text.getD []).drop limit ++ documentText nodes)
    else if isParagraphTag tag then
      let (beginning, unread) := splitRuns limit nodes
      ('\n' :: beginning, unread)
    else splitRuns limit nodes

theorem splitRuns_append (limit : ℕ) (nodes : List (Text × Option Text)) :
    (splitRuns limit nodes).1 ++ (splitRuns limit nodes).2 = documentText nodes := by
  induction nodes generalizing limit with
  | nil => rfl
  | cons node nodes ih =>
    obtain ⟨tag, text⟩ := node
    rw [splitRuns, documentText]
    split
    · split
      · rw [← ih, List.append_assoc]
      · rw [← List.append_assoc, List.take_append_drop]
    · split
      · rw [← ih, List.cons_append]
      · exact ih limit

/-- Once the limit is reached only newlines are collected. -/
theorem blank_collectRuns {hardLimit consumed : ℕ} (h : hardLimit ≤ consumed)
    (nodes : List (Text × Option Text)) : Blank (collectRuns hardLimit consumed nodes) := by
  rw [blank_iff]
  induction nodes with
  | nil => exact fun c hc => by cases hc
  | cons node nodes ih =>
    obtain ⟨tag, text⟩ := node
    rw [collectRuns]
    split
    · simpa only [if_pos h] using ih
    · split
      · rintro c hc
        rcases List.mem_cons.mp hc with rfl | hc
        · decide
        · exact ih c hc
      · exact ih

/-- **What is collected is the text up to the limit**, with newlines behind it. -/
theorem collectRuns_eq (hardLimit consumed : ℕ) (nodes : List (Text × Option Text)) :
    ∃ newlines, Blank newlines ∧ collectRuns hardLimit consumed nodes =
      (splitRuns (hardLimit - consumed) nodes).1 ++ newlines := by
  induction nodes generalizing consumed with
  | nil => exact ⟨[], rfl, rfl⟩
  | cons node nodes ih =>
    obtain ⟨tag, text⟩ := node
    rw [collectRuns, splitRuns]
    split
    · next hrun =>
      have hne : text.getD [] ≠ [] := by simpa using (Bool.and_eq_true_iff.mp hrun).2
      by_cases hover : hardLimit ≤ consumed
      · refine ⟨collectRuns hardLimit consumed nodes, blank_collectRuns hover nodes, ?_⟩
        have hpos := List.length_pos_of_ne_nil hne
        rw [if_pos hover, if_neg (by omega), Nat.sub_eq_zero_of_le hover, List.take_zero]
        rfl
      rw [if_neg hover]
      by_cases hfits : (text.getD []).length ≤ hardLimit - consumed
      · obtain ⟨newlines, hblank, hrest⟩ := ih (consumed + (text.getD []).length)
        refine ⟨newlines, hblank, ?_⟩
        rw [if_pos hfits]
        simp only [List.take_of_length_le hfits, hrest, Nat.sub_sub, List.append_assoc]
      · have hlength : ((text.getD []).take (hardLimit - consumed)).length =
            hardLimit - consumed := by
          rw [List.length_take]
          omega
        have hblank := blank_collectRuns (show hardLimit ≤ consumed + (hardLimit - consumed) by
          omega) nodes
        refine ⟨_, hblank, ?_⟩
        rw [if_neg hfits]
        simp only [hlength]
    · split
      · obtain ⟨newlines, hblank, hrest⟩ := ih consumed
        exact ⟨newlines, hblank, by rw [hrest]; rfl⟩
      · exact ih consumed

/-! ### Bounded and full extraction -/

/-- A text is extracted in full: as the whole text is trimmed, nothing dropped without the mark, and
not to nothing. -/
structure ExtractsFully (maxParsedDocumentChars : ℕ) (whole extracted : Text) : Prop where
  eq_trim : extracted = trimDocumentContent maxParsedDocumentChars whole
  marked : extracted = strip whole ∨ documentTruncationMarker <:+ extracted
  ne_nil : ¬ Blank whole → extracted ≠ []

theorem extractsFully_iff_eq {m : ℕ} {whole extracted : Text} :
    ExtractsFully m whole extracted ↔ extracted = trimDocumentContent m whole := by
  constructor
  · exact ExtractsFully.eq_trim
  · rintro rfl
    exact ⟨rfl, trim_eq_or_marked m whole, trim_ne_nil⟩

theorem extractTextFromTxt_eq (m : ℕ) (content : Text) :
    extractTextFromTxt m content = trimDocumentContent m (content.take (m + 1)) := by
  rw [extractTextFromTxt, flatten_readChunks, Nat.sub_zero]

theorem extractTextFromDocx_eq (m : ℕ) (root : Element) :
    extractTextFromDocx m root = trimDocumentContent m (splitRuns (m + 1) root.iter).1 := by
  obtain ⟨newlines, hblank, hcollect⟩ := collectRuns_eq (m + 1) 0 root.iter
  rw [extractTextFromDocx, hcollect, Nat.sub_zero, trimDocumentContent, trimDocumentContent,
    strip_append_of_blank_right hblank]

/-- **A file is extracted in full precisely if its beginning suffices**: the beginning of so many
characters as a document may have and one, be they the characters of a text file or those of the
text runs of a DOCX file. -/
theorem extractsFully_iff (m : ℕ) :
    (∀ content, ExtractsFully m content (extractTextFromTxt m content) ↔
      Suffices m (content.take (m + 1)) (content.drop (m + 1))) ∧
    ∀ root : Element, ExtractsFully m (documentText root.iter) (extractTextFromDocx m root) ↔
      Suffices m (splitRuns (m + 1) root.iter).1 (splitRuns (m + 1) root.iter).2 := by
  constructor
  · intro content
    rw [extractsFully_iff_eq, extractTextFromTxt_eq, ← trim_append_iff, List.take_append_drop]
  · intro root
    rw [extractsFully_iff_eq, extractTextFromDocx_eq, ← trim_append_iff, splitRuns_append]

/-- As many characters as a document may have, in the configuration the program comes with. -/
def maxDocumentChars : ℕ := 12000

/-- A letter behind as many spaces as are read. -/
def indentedLetter : Text := List.replicate (maxDocumentChars + 1) ' ' ++ ['a']

theorem blank_spaces (n : ℕ) : Blank (List.replicate n ' ') := by
  rw [blank_iff]
  rintro c hc
  rw [List.eq_of_mem_replicate hc]
  decide

/-- **A letter behind 12001 spaces is lost**, and there is no mark. -/
theorem not_extractsFully_indentedLetter : ¬ ∀ content,
    ExtractsFully maxDocumentChars content (extractTextFromTxt maxDocumentChars content) := by
  intro hall
  have hread : indentedLetter.take (maxDocumentChars + 1) =
      List.replicate (maxDocumentChars + 1) ' ' := by
    rw [indentedLetter, List.take_append_of_le_length (by rw [List.length_replicate]),
      List.take_of_length_le (by rw [List.length_replicate])]
  have hvisible : ¬ Blank indentedLetter := by
    rw [Blank, indentedLetter, strip_append_of_blank_left (blank_spaces _)]
    decide
  have hnil : extractTextFromTxt maxDocumentChars indentedLetter = [] := by
    have hblank : strip (List.replicate (maxDocumentChars + 1) ' ') = [] := blank_spaces _
    rw [extractTextFromTxt_eq, hread, trim_of_le (by rw [hblank]; exact Nat.zero_le _), hblank]
  exact (hall indentedLetter).ne_nil hvisible hnil

end Upload

end AiAgent

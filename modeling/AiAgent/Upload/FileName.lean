import AiAgent.Text.Search
import Mathlib.Data.List.Nodup

/-!
# The names of uploads

An upload is stored under a name of its own making: twelve hexadecimal digits, what is left of the
stem of its file name, and what is left of the suffix
(`AiAgent.Upload.sanitizeUploadFilename`). Whether it is accepted depends on the extension of that
name and on the content type that was sent.

The extension does not depend on the digits (`AiAgent.Upload.detectExtension_sanitize`), and names
with different digits are different (`AiAgent.Upload.sanitize_injective`).
-/

namespace AiAgent

namespace Upload

open Text

/-! ### Paths -/

/-- The parts of a path: what stands between slashes, without what is empty or a single dot. -/
def pathParts (path : Text) : List Text := (path.splitOn '/').filter fun p => p ≠ [] ∧ p ≠ ['.']

/-- `Path(path).name`. -/
def pathName (path : Text) : Text := (pathParts path).getLast?.getD []

/-- What stands before the last dot of a name, reversed, if there is one. -/
def beforeDot (name : Text) : Option Text :=
  match name.reverse.dropWhile fun c => c ≠ '.' with
  | [] => none
  | _ :: stem => some stem

/-- What stands after the last dot of a name, reversed. -/
def afterDot (name : Text) : Text := name.reverse.takeWhile fun c => c ≠ '.'

/-- `Path(path).suffix`: a dot that begins or ends the name does not count. -/
def pathSuffix (path : Text) : Text :=
  let name := pathName path
  if (beforeDot name).getD [] = [] ∨ afterDot name = [] then []
  else '.' :: (afterDot name).reverse

/-- `Path(path).stem`. -/
def pathStem (path : Text) : Text :=
  let name := pathName path
  name.take (name.length - (pathSuffix path).length)

/-- A path of one part. -/
theorem pathName_of_notMem {name : Text} (hslash : '/' ∉ name) (hne : name ≠ [])
    (hdot : name ≠ ['.']) : pathName name = name := by
  rw [pathName, pathParts, List.splitOn_eq_singleton hslash,
    List.filter_cons_of_pos (by simpa using ⟨hne, hdot⟩)]
  rfl

/-! ### Names of uploads -/

def hexadecimals : List Char :=
  ['0', '1', '2', '3', '4', '5', '6', '7', '8', '9', 'a', 'b', 'c', 'd', 'e', 'f']

/-- The part of a name that is drawn: `uuid.uuid4().hex[:12]`. -/
structure NameDigits where
  text : Text
  length : text.length = 12
  digits : ∀ c ∈ text, c ∈ hexadecimals

/-- `[A-Za-z0-9._-]`. -/
def isStemChar (c : Char) : Bool := c.isAlphanum || c = '.' || c = '_' || c = '-'

/-- `[a-z0-9.]`. -/
def isExtensionChar (c : Char) : Bool := c.isLower || c.isDigit || c = '.'

/-- `re.sub(r"[^…]+", "_", …)`, in a run that is replaced already or not. -/
def replaceRuns (keep : Char → Bool) (inRun : Bool) : Text → Text
  | [] => []
  | c :: t =>
    if keep c then c :: replaceRuns keep false t
    else if inRun then replaceRuns keep true t
    else '_' :: replaceRuns keep true t

/-- `.strip("._-")`. -/
def stripMarks (t : Text) : Text :=
  (t.dropWhile fun c => c ∈ ['.', '_', '-']).rdropWhile fun c => c ∈ ['.', '_', '-']

/-- `a or b`. -/
def orElse (a b : Text) : Text := if a = [] then b else a

section Names

variable (lowerCase : Text → Text)

/-- What a name is made of apart from its digits. -/
def sanitizedTail (filename : Text) : Text :=
  let candidate := pathName (orElse filename "upload.bin".toList)
  let extension := lowerCase (pathSuffix candidate)
  let stem := pathStem candidate
  let safeStem := orElse (stripMarks (replaceRuns isStemChar false stem)) "upload".toList
  let safeExtension := orElse (extension.filter isExtensionChar) ".bin".toList
  safeStem.take 80 ++ safeExtension

/-- `sanitize_upload_filename`. -/
def sanitizeUploadFilename (digits : NameDigits) (filename : Text) : Text :=
  digits.text ++ '-' :: sanitizedTail lowerCase filename

/-- `detect_extension`. -/
def detectExtension (filename : Text) : Text := lowerCase (pathSuffix filename)

/-- `normalize_upload_content_type`. -/
def normalizeUploadContentType (contentType : Option Text) : Text :=
  lowerCase (strip ((contentType.getD []).takeWhile fun c => c ≠ ';'))

/-- `ALLOWED_UPLOAD_MIME_TYPES`. -/
def allowedUploadMimeTypes : List (Text × List Text) :=
  [(".txt".toList, ["text/plain".toList]),
    (".pdf".toList, ["application/pdf".toList]),
    (".docx".toList,
      ["application/vnd.openxmlformats-officedocument.wordprocessingml.document".toList]),
    (".png".toList, ["image/png".toList]),
    (".jpg".toList, ["image/jpeg".toList]),
    (".jpeg".toList, ["image/jpeg".toList])]

/-- `GENERIC_UPLOAD_CONTENT_TYPES`. -/
def genericUploadContentTypes : List Text := [[], "application/octet-stream".toList]

/-- `upload_content_type_is_allowed`. -/
def uploadContentTypeIsAllowed (extension : Text) (contentType : Option Text) : Bool :=
  match allowedUploadMimeTypes.lookup extension with
  | none => false
  | some allowedContentTypes =>
    let normalizedContentType := normalizeUploadContentType lowerCase contentType
    normalizedContentType ∈ genericUploadContentTypes ||
      normalizedContentType ∈ allowedContentTypes

/-- Digits without information. -/
def noDigits : NameDigits := ⟨List.replicate 12 '0', rfl, by decide⟩

/-- The extension of an upload. -/
def uploadExtension (filename : Text) : Text :=
  detectExtension lowerCase (sanitizeUploadFilename lowerCase noDigits filename)

variable {lowerCase}

theorem NameDigits.notMem (digits : NameDigits) {c : Char} (h : c ∉ hexadecimals) :
    c ∉ digits.text := fun hc => h (digits.digits c hc)

theorem notMem_replaceRuns {keep : Char → Bool} {c : Char} (hkeep : keep c = false) (hc : c ≠ '_')
    (t : Text) (inRun : Bool) : c ∉ replaceRuns keep inRun t := by
  induction t generalizing inRun with
  | nil => exact List.not_mem_nil
  | cons d t ih =>
    rw [replaceRuns]
    by_cases hd : keep d = true
    · rw [if_pos hd, List.mem_cons]
      rintro (rfl | h)
      · rw [hkeep] at hd
        cases hd
      · exact ih _ h
    · rw [if_neg hd]
      by_cases hrun : inRun = true
      · rw [if_pos hrun]
        exact ih _
      · rw [if_neg hrun, List.mem_cons]
        rintro (rfl | h)
        · exact hc rfl
        · exact ih _ h

theorem notMem_stripMarks {c : Char} {t : Text} (h : c ∉ t) : c ∉ stripMarks t := fun hc =>
  h ((List.dropWhile_suffix _).subset ((List.rdropWhile_prefix _ _).subset hc))

theorem notMem_orElse {c : Char} {a b : Text} (ha : c ∉ a) (hb : c ∉ b) : c ∉ orElse a b := by
  rw [orElse]
  by_cases h : a = []
  · rwa [if_pos h]
  · rwa [if_neg h]

/-- No slash is left in a name. -/
theorem slash_notMem_sanitizedTail (filename : Text) : '/' ∉ sanitizedTail lowerCase filename := by
  rw [sanitizedTail, List.mem_append]
  rintro (h | h)
  · refine notMem_orElse (notMem_stripMarks (notMem_replaceRuns rfl (by decide) _ _)) (by decide)
      (List.mem_of_mem_take h)
  · refine notMem_orElse (fun hc => ?_) (by decide) h
    exact absurd (List.of_mem_filter hc) (by decide)

/-- The suffix of a name with a dot in it. -/
theorem pathSuffix_append_dot {u v : Text} (hu : u ≠ []) (hv : '.' ∉ v)
    (hslash : '/' ∉ u ++ '.' :: v) :
    pathSuffix (u ++ '.' :: v) = if v = [] then [] else '.' :: v := by
  have hself : pathName (u ++ '.' :: v) = u ++ '.' :: v := by
    refine pathName_of_notMem hslash (List.append_ne_nil_of_left_ne_nil hu _) fun heq => ?_
    have hlength := congrArg List.length heq
    have hpos := List.length_pos_iff.mpr hu
    simp only [List.length_append, List.length_cons, List.length_nil] at hlength
    omega
  have hreverse : (u ++ '.' :: v).reverse = v.reverse ++ '.' :: u.reverse := by simp
  have hafter : ∀ c ∈ v.reverse, decide (c ≠ '.') = true := fun c hc =>
    decide_eq_true fun heq => hv (heq ▸ List.mem_reverse.mp hc)
  rw [pathSuffix, hself, beforeDot, afterDot, hreverse, List.dropWhile_append_of_pos hafter,
    List.takeWhile_append_of_pos hafter, List.dropWhile_cons_of_neg (by simp),
    List.takeWhile_cons_of_neg (by simp)]
  simp [hu]

/-- A name without a dot has no suffix. -/
theorem pathSuffix_of_notMem {name : Text} (hslash : '/' ∉ name) (hdot : '.' ∉ name) :
    pathSuffix name = [] := by
  by_cases hne : name = []
  · rw [hne]
    rfl
  · have hself : pathName name = name := pathName_of_notMem hslash hne fun heq =>
      hdot (heq ▸ List.mem_singleton.mpr rfl)
    have hnone : beforeDot name = none := by
      have hdrop : (name.reverse.dropWhile fun c => c ≠ '.') = [] :=
        List.dropWhile_eq_nil_iff.mpr fun c hc => decide_eq_true fun heq =>
          hdot (heq ▸ List.mem_reverse.mp hc)
      rw [beforeDot, hdrop]
    rw [pathSuffix, hself, hnone]
    exact if_pos (.inl rfl)

/-- **The extension does not depend on the digits.** -/
theorem detectExtension_sanitize (digits : NameDigits) (filename : Text) :
    detectExtension lowerCase (sanitizeUploadFilename lowerCase digits filename) =
      uploadExtension lowerCase filename := by
  have hall : ∀ digits : NameDigits, '/' ∉ sanitizeUploadFilename lowerCase digits filename := by
    intro digits h
    rcases List.mem_append.mp h with h | h
    · exact digits.notMem (by decide) h
    · exact slash_notMem_sanitizedTail filename ((List.mem_cons.mp h).resolve_left (by decide))
  rw [uploadExtension, detectExtension, detectExtension]
  refine congrArg lowerCase ?_
  by_cases hdot : '.' ∈ sanitizedTail lowerCase filename
  · -- The last dot of the name is in its tail.
    obtain ⟨v, u, htail, hv⟩ := List.eq_append_cons_of_mem (List.mem_reverse.mpr hdot)
    have hname : ∀ digits : NameDigits, sanitizeUploadFilename lowerCase digits filename =
        (digits.text ++ '-' :: u.reverse) ++ '.' :: v.reverse := by
      intro digits
      rw [sanitizeUploadFilename, ← List.reverse_reverse (sanitizedTail lowerCase filename), htail]
      simp
    have hsuffix : ∀ digits : NameDigits,
        pathSuffix (sanitizeUploadFilename lowerCase digits filename) =
          if v.reverse = [] then [] else '.' :: v.reverse := by
      intro digits
      have hslash := hall digits
      rw [hname] at hslash ⊢
      exact pathSuffix_append_dot (by simp) (by simpa using hv) hslash
    rw [hsuffix, hsuffix]
  · have hnone : ∀ digits : NameDigits,
        pathSuffix (sanitizeUploadFilename lowerCase digits filename) = [] := by
      intro digits
      refine pathSuffix_of_notMem (hall digits) fun h => ?_
      rcases List.mem_append.mp h with h | h
      · exact digits.notMem (by decide) h
      · exact hdot ((List.mem_cons.mp h).resolve_left (by decide))
    rw [hnone, hnone]

/-- **Names with different digits are different.** -/
theorem sanitize_injective {digits digits' : NameDigits} {filename filename' : Text}
    (h : sanitizeUploadFilename lowerCase digits filename =
      sanitizeUploadFilename lowerCase digits' filename') : digits.text = digits'.text :=
  (List.append_inj h (digits.length.trans digits'.length.symm)).1

end Names

end Upload

end AiAgent

import AiAgent.Budget.Document
import AiAgent.Chat.FileChat
import AiAgent.Chat.Keys

/-!
# Prompts with documents

The texts extracted from uploaded files are cut to a budget of characters for all of them
(`AiAgent.Budget.applyDocumentBudget`) and put under labels into a prompt between the instructions
and the request (`AiAgent.Budget.buildDocumentPrompt`).

Uploads are handled in two places. The request handler cuts the documents itself and then builds
both prompts from what is left, which cuts them once more; the parser builds both from the
documents as they were extracted. That this makes no difference is
`AiAgent.Budget.inProcessJob_eq`: a budget applied twice is a budget applied once
(`AiAgent.Budget.applyDocumentBudget_idem`). The one thing to see is that what a document was cut
to is not cut again, and this although the marker at its end may be longer than what remained.
-/

namespace AiAgent

namespace Budget

open Text

open Chat (StagedFile normalizeChatThreadId)

/-! ### The budget of the documents -/

/-- A document as it was extracted from a file. -/
structure Document where
  name : Text
  content : Text
  deriving DecidableEq

/-- The name a document goes by. -/
def documentName (name : Text) : Text :=
  if strip name = [] then "document".toList else strip name

/-- A content that is longer than what remains of the budget, cut. -/
def cutContent (remaining : ℕ) (content : Text) : Text :=
  let marker := '\n' :: documentTruncationMarker
  let snippet := rstrip (content.take (remaining - marker.length))
  if snippet = [] then documentTruncationMarker else snippet ++ marker

/-- A content as it is kept where something remains of the budget. -/
def budgetedContent (remaining : ℕ) (content : Text) : Text :=
  if remaining < content.length then cutContent remaining content else content

/-- The loop of `apply_document_budget`. Once the budget is used up every document is a bare
marker, and these are not counted. -/
def budgetDocuments (maxDocumentChars : ℕ) : (consumedChars : ℕ) → List Document → List Document
  | _, [] => []
  | consumedChars, document :: documents =>
    let name := documentName document.name
    let content := strip document.content
    if content = [] then budgetDocuments maxDocumentChars consumedChars documents
    else
      let remaining := maxDocumentChars - consumedChars
      if remaining = 0 then
        ⟨name, documentTruncationMarker⟩ ::
          budgetDocuments maxDocumentChars consumedChars documents
      else
        let kept := budgetedContent remaining content
        ⟨name, kept⟩ :: budgetDocuments maxDocumentChars (consumedChars + kept.length) documents

/-- `apply_document_budget`. -/
def applyDocumentBudget (maxDocumentChars : ℕ) (extractedDocuments : List Document) :
    List Document :=
  budgetDocuments maxDocumentChars 0 extractedDocuments

/-! ### The prompt -/

def documentNoInformationResponse : Text :=
  "В предоставленных документах нет информации для ответа на этот вопрос.".toList

/-- What every prompt with documents begins with. -/
def instructionLines : List Text :=
  [ "Ты — корпоративный AI-ассистент.".toList,
    "".toList,
    "---".toList,
    "".toList,
    "# КРИТИЧЕСКОЕ ПРАВИЛО".toList,
    "".toList,
    "Ты НЕ имеешь права выдумывать информацию.".toList,
    "".toList,
    "---".toList,
    "".toList,
    "# РАБОТА С ДОКУМЕНТАМИ".toList,
    "".toList,
    "- Документы уже загружены.".toList,
    "- Их текст приведён ниже.".toList,
    "- Блок ДОКУМЕНТЫ ниже — это уже извлечённое буквальное содержимое файлов.".toList,
    "- Это твой ЕДИНСТВЕННЫЙ источник данных.".toList,
    "- Отвечай как корпоративный аналитик: кратко, точно, по существу.".toList,
    "".toList,
    "---".toList,
    "".toList,
    "# ЗАПРЕЩЕНО".toList,
    "".toList,
    "- говорить, что у тебя нет доступа к файлам".toList,
    "- игнорировать документы".toList,
    "- придумывать факты, цифры, даты, имена, выводы".toList,
    "- дополнять ответ предположениями".toList,
    "- использовать фразы вроде \"скорее всего\", если этого нет в тексте".toList,
    "".toList,
    "---".toList,
    "".toList,
    "# ЕСЛИ ДАННЫХ НЕТ".toList,
    "".toList,
    "Ответь ровно так:".toList,
    ('"' :: (documentNoInformationResponse ++ ['"'])),
    "".toList,
    "---".toList,
    "".toList,
    "# ПОВЕДЕНИЕ".toList,
    "".toList,
    "- Если вопрос пользователя конкретный: ответь только по документам.".toList,
    "- Если пользователь спрашивает \"что в файле\", \"что в документе\" или просит ".toList ++
      "показать содержимое, передай содержание прямо по тексту документа без выдумок.".toList,
    "- Если запрос пустой или неясный: предложи один из вариантов действий кратким ".toList ++
      "списком.".toList,
    "- Если документы противоречат друг другу: прямо укажи на противоречие и не ".toList ++
      "делай догадок.".toList]

/-- What is added where the documents are forced upon the model. -/
def guardLines : List Text :=
  [ "# ДОПОЛНИТЕЛЬНОЕ ТРЕБОВАНИЕ".toList,
    "Текст документов уже передан тебе ниже. ".toList ++
      ("Нельзя говорить, что у тебя нет доступа к файлам, документам или вложениям. ".toList ++
        "Если фактов недостаточно, верни только точную фразу:".toList),
    '"' :: (documentNoInformationResponse ++ ['"']) ]

/-- The part of the prompt that stands before the header of the documents. -/
def instructions (forceDocuments : Bool) : Text :=
  join "\n".toList (instructionLines ++ [[]] ++
    (if forceDocuments then guardLines ++ [[]] else []) ++ ["---".toList, [], []])

def requestText (message : Text) : Text :=
  if strip message = [] then "Пользователь не уточнил задачу".toList else strip message

/-- The label of a document: its number and its name. -/
def documentLabel (index : ℕ) (name : Text) : Text :=
  labelOpening ++ (Nat.toDigits 10 index ++ (": ".toList ++ (name ++ "]".toList)))

/-- The documents under their labels, numbered from `index`. -/
def documentChunks : (index : ℕ) → List Document → List Text
  | _, [] => []
  | index, document :: documents =>
    let content := strip document.content
    if content = [] then documentChunks (index + 1) documents
    else
      (documentLabel index document.name ++ ('\n' :: content)) ::
        documentChunks (index + 1) documents

/-- The prompt put together. -/
def documentPrompt (forceDocuments : Bool) (documentBlock request : Text) : Text :=
  strip ('\n' :: (instructions forceDocuments ++ (documentsSectionHeader ++ ("\n\n".toList ++
    (documentBlock ++ (sectionDivider ++ (userRequestSectionHeader ++ ("\n\n".toList ++
      (request ++ "\n".toList)))))))))

/-- No text was extracted from any file. -/
def noTextExtracted : Text := "Не удалось извлечь текст из выбранных файлов".toList

/-- `_build_document_prompt`. -/
def buildPrompt (maxDocumentChars : ℕ) (message : Text) (extractedDocuments : List Document)
    (forceDocuments : Bool) : Except Text Text :=
  let budgetedDocuments := applyDocumentBudget maxDocumentChars extractedDocuments
  match documentChunks 1 budgetedDocuments with
  | [] => .error noTextExtracted
  | chunk :: chunks =>
    .ok (documentPrompt forceDocuments (join "\n\n".toList (chunk :: chunks))
      (requestText message))

/-- `build_document_prompt`. -/
def buildDocumentPrompt (maxDocumentChars : ℕ) (message : Text)
    (extractedDocuments : List Document) : Except Text Text :=
  buildPrompt maxDocumentChars message extractedDocuments false

/-- `build_retry_document_prompt`. -/
def buildRetryDocumentPrompt (maxDocumentChars : ℕ) (message : Text)
    (extractedDocuments : List Document) : Except Text Text :=
  buildPrompt maxDocumentChars message extractedDocuments true

/-! ### A budget applied twice -/

theorem documentName_idem (name : Text) : documentName (documentName name) = documentName name := by
  by_cases h : strip name = []
  · have hdefault : documentName name = "document".toList := if_pos h
    rw [hdefault]
    decide
  · have hkept : documentName name = strip name := if_neg h
    rw [hkept, documentName, strip_strip, if_neg h]

theorem documentTruncationMarker_ne_nil : documentTruncationMarker ≠ [] := by decide +kernel

theorem tight_documentTruncationMarker : Tight documentTruncationMarker :=
  ⟨by decide +kernel, by decide +kernel⟩

/-- What a cut leaves: the marker, or a snippet within what remained and the marker below it. -/
theorem cutContent_cases {content : Text} (htight : Tight content) (remaining : ℕ) :
    (rstrip (content.take (remaining - 21)) = [] ∧
        cutContent remaining content = documentTruncationMarker) ∨
      ((cutContent remaining content).length ≤ remaining ∧
        Tight (cutContent remaining content)) := by
  rw [cutContent]
  simp only [List.length_cons, length_documentTruncationMarker, Nat.reduceAdd]
  by_cases hempty : rstrip (content.take (remaining - 21)) = []
  · exact .inl ⟨hempty, if_pos hempty⟩
  · right
    rw [if_neg hempty]
    have hlength := length_rstrip_le (content.take (remaining - 21))
    have hpos := List.length_pos_iff.mpr hempty
    rw [List.length_take] at hlength
    constructor
    · rw [List.length_append, List.length_cons, length_documentTruncationMarker]
      omega
    · constructor
      · intro c hc
        rw [List.head?_append_of_ne_nil _ hempty] at hc
        obtain ⟨u, hu⟩ := (rstrip_isInit _).trans (List.take_prefix (remaining - 21) content)
        refine htight.1 c ?_
        rw [← hu, List.head?_append_of_ne_nil _ hempty, hc]
      · intro c hc
        have hlast : documentTruncationMarker.getLast? = some ']' := by decide +kernel
        rw [List.getLast?_append, List.getLast?_cons_of_ne_nil (by decide +kernel), hlast] at hc
        rw [← Option.some.inj hc]
        decide

/-- **What was cut is not cut again**, although the marker may be longer than what remained. -/
theorem budgetedContent_idem {content : Text} (htight : Tight content) (remaining : ℕ) :
    budgetedContent remaining (budgetedContent remaining content) =
      budgetedContent remaining content := by
  rw [budgetedContent]
  by_cases hlong : remaining < (budgetedContent remaining content).length
  · rw [if_pos hlong]
    have hcut : remaining < content.length := by
      by_contra hfits
      rw [budgetedContent, if_neg hfits] at hlong
      exact hfits hlong
    rw [budgetedContent, if_pos hcut] at hlong ⊢
    rcases cutContent_cases htight remaining with ⟨-, hmarker⟩ | ⟨hle, -⟩
    · -- Only the bare marker can be too long, and then no room is left for a snippet of it.
      rw [hmarker] at hlong ⊢
      rw [length_documentTruncationMarker] at hlong
      have hnone : remaining - 21 = 0 := by omega
      rw [cutContent]
      simp only [List.length_cons, length_documentTruncationMarker, Nat.reduceAdd, hnone,
        List.take_zero]
      rfl
    · omega
  · exact if_neg hlong

theorem tight_budgetedContent {content : Text} (htight : Tight content) (remaining : ℕ) :
    Tight (budgetedContent remaining content) := by
  rw [budgetedContent]
  by_cases hlong : remaining < content.length
  · rw [if_pos hlong]
    rcases cutContent_cases htight remaining with ⟨-, hmarker⟩ | ⟨-, htight⟩
    · rw [hmarker]
      exact tight_documentTruncationMarker
    · exact htight
  · rwa [if_neg hlong]

theorem budgetedContent_ne_nil {content : Text} (h : content ≠ []) (remaining : ℕ) :
    budgetedContent remaining content ≠ [] := by
  rw [budgetedContent, cutContent]
  split_ifs
  · decide +kernel
  · exact List.append_ne_nil_of_right_ne_nil _ (List.cons_ne_nil _ _)
  · exact h

/-- A document as the budget leaves it: named, and with a content that is not blank and has no
white space at its ends. -/
structure Document.Settled (document : Document) : Prop where
  name : documentName document.name = document.name
  tight : Tight document.content
  content : document.content ≠ []

theorem settled_of_mem_budgetDocuments {maxDocumentChars : ℕ} {documents : List Document} :
    ∀ {consumedChars : ℕ} {document : Document},
      document ∈ budgetDocuments maxDocumentChars consumedChars documents → document.Settled := by
  induction documents with
  | nil => exact fun h => absurd h List.not_mem_nil
  | cons first documents ih =>
    intro consumedChars document h
    rw [budgetDocuments] at h
    by_cases hblank : strip first.content = []
    · simp only [if_pos hblank] at h
      exact ih h
    · simp only [if_neg hblank] at h
      by_cases hnone : maxDocumentChars - consumedChars = 0
      · rw [if_pos hnone] at h
        rcases List.mem_cons.mp h with rfl | h
        · exact ⟨documentName_idem _, tight_documentTruncationMarker,
            documentTruncationMarker_ne_nil⟩
        · exact ih h
      · rw [if_neg hnone] at h
        rcases List.mem_cons.mp h with rfl | h
        · exact ⟨documentName_idem _, tight_budgetedContent (tight_strip _) _,
            budgetedContent_ne_nil hblank _⟩
        · exact ih h

/-- The budget leaves no document precisely if all of them are blank. -/
theorem budgetDocuments_eq_nil_iff (maxDocumentChars consumedChars : ℕ)
    (documents : List Document) :
    budgetDocuments maxDocumentChars consumedChars documents = [] ↔
      ∀ document ∈ documents, strip document.content = [] := by
  induction documents with
  | nil => exact iff_of_true rfl fun _ h => absurd h List.not_mem_nil
  | cons first documents ih =>
    rw [budgetDocuments, List.forall_mem_cons]
    by_cases hblank : strip first.content = []
    · simp only [if_pos hblank, ih, and_iff_right hblank]
    · simp only [hblank, false_and, iff_false]
      by_cases hnone : maxDocumentChars - consumedChars = 0
      · rw [if_pos hnone]
        exact List.cons_ne_nil _ _
      · rw [if_neg hnone]
        exact List.cons_ne_nil _ _

/-- Behind the same consumption the loop changes nothing of what it made. -/
theorem budgetDocuments_idem (maxDocumentChars : ℕ) (documents : List Document) :
    ∀ consumedChars, budgetDocuments maxDocumentChars consumedChars
        (budgetDocuments maxDocumentChars consumedChars documents) =
      budgetDocuments maxDocumentChars consumedChars documents := by
  induction documents with
  | nil => exact fun _ => rfl
  | cons document documents ih =>
    intro consumedChars
    rw [budgetDocuments]
    by_cases hblank : strip document.content = []
    · simp only [if_pos hblank]
      exact ih consumedChars
    · simp only [if_neg hblank]
      by_cases hnone : maxDocumentChars - consumedChars = 0
      · rw [if_pos hnone, budgetDocuments]
        have hmarker := strip_of_tight tight_documentTruncationMarker
        have hne : documentTruncationMarker ≠ [] := by decide +kernel
        simp only [hmarker, hne, hnone, if_false, if_true, documentName_idem, ih]
      · rw [if_neg hnone, budgetDocuments]
        have hkept := strip_of_tight
          (tight_budgetedContent (tight_strip document.content) (maxDocumentChars - consumedChars))
        have hne := budgetedContent_ne_nil hblank (maxDocumentChars - consumedChars)
        have hagain := budgetedContent_idem (tight_strip document.content)
          (maxDocumentChars - consumedChars)
        simp only [hkept, hne, hnone, if_false, documentName_idem, hagain, ih]

/-- **The budget is idempotent.** -/
theorem applyDocumentBudget_idem (maxDocumentChars : ℕ) (documents : List Document) :
    applyDocumentBudget maxDocumentChars (applyDocumentBudget maxDocumentChars documents) =
      applyDocumentBudget maxDocumentChars documents :=
  budgetDocuments_idem maxDocumentChars documents 0

/-! ### The two places where uploads are handled -/

/-- What a job with documents carries along. -/
structure FileChatMetadata where
  retryPrompt : Option Text
  suppressTokenStream : Bool
  docChars : ℕ
  files : List StagedFile
  deriving DecidableEq

/-- `build_file_chat_job_metadata` of the parser. -/
def buildFileChatJobMetadata (retryPrompt : Option Text) (stagedFiles : List StagedFile)
    (docChars : ℕ) : FileChatMetadata where
  retryPrompt :=
    if strip (retryPrompt.getD []) = [] then none else some (strip (retryPrompt.getD []))
  suppressTokenStream := true
  docChars := docChars
  files := stagedFiles

/-- How many characters the documents have. -/
def documentChars (documents : List Document) : ℕ :=
  (documents.map fun document => (strip document.content).length).sum

/-- The model a job is for. -/
structure ModelInfo where
  key : Text
  name : Text

/-- The job for the model, made ready by the parser. -/
structure PreparedJob where
  modelInfo : ModelInfo
  prompt : Text
  history : List Message
  fileChat : FileChatMetadata

/-- What the parser makes of the staged files. -/
structure ParserArtifacts where
  stagingId : Text
  files : List StagedFile
  originalDocChars : ℕ
  trimmedDocChars : ℕ
  preparedLlmJob : PreparedJob

/-- `prepare_parser_job_artifacts`, once the documents were extracted from the staged files. -/
def prepareParserJobArtifacts (maxDocumentChars : ℕ) (stagingId message : Text)
    (history : List Message) (modelInfo : ModelInfo) (stagedFiles : List StagedFile)
    (extractedDocuments : List Document) : Except Text ParserArtifacts := do
  let budgetedDocuments := applyDocumentBudget maxDocumentChars extractedDocuments
  let finalPrompt ← buildDocumentPrompt maxDocumentChars message extractedDocuments
  let retryPrompt ← buildRetryDocumentPrompt maxDocumentChars message extractedDocuments
  return {
    stagingId := stagingId
    files := stagedFiles
    originalDocChars := documentChars extractedDocuments
    trimmedDocChars := documentChars budgetedDocuments
    preparedLlmJob := {
      modelInfo := modelInfo
      prompt := finalPrompt
      history := history
      fileChat := buildFileChatJobMetadata (some retryPrompt) stagedFiles
        (documentChars budgetedDocuments) } }

/-- The job that the request handler enqueues: the metadata name the thread besides. -/
structure DocumentJob extends PreparedJob where
  threadId : Text
  originalDocChars : ℕ
  trimmedDocChars : ℕ

/-- What `api_chat_with_files` enqueues where it parses the files itself. -/
def inProcessJob (maxDocumentChars : ℕ) (message : Text) (history : List Message)
    (modelInfo : ModelInfo) (threadId : Option Text) (stagedFiles : List StagedFile)
    (extractedDocuments : List Document) : Except Text DocumentJob := do
  let budgetedDocuments := applyDocumentBudget maxDocumentChars extractedDocuments
  let trimmedDocChars := documentChars budgetedDocuments
  let finalPrompt ← buildDocumentPrompt maxDocumentChars message budgetedDocuments
  let retryPrompt ← buildRetryDocumentPrompt maxDocumentChars message budgetedDocuments
  return {
    modelInfo := modelInfo
    prompt := finalPrompt
    history := history
    fileChat := buildFileChatJobMetadata (some retryPrompt) stagedFiles trimmedDocChars
    threadId := normalizeChatThreadId threadId
    originalDocChars := documentChars extractedDocuments
    trimmedDocChars := trimmedDocChars }

theorem buildPrompt_budgeted (maxDocumentChars : ℕ) (message : Text) (documents : List Document)
    (forceDocuments : Bool) :
    buildPrompt maxDocumentChars message (applyDocumentBudget maxDocumentChars documents)
        forceDocuments =
      buildPrompt maxDocumentChars message documents forceDocuments := by
  rw [buildPrompt, buildPrompt, applyDocumentBudget_idem]

/-- A prompt is refused precisely if every document is blank. -/
theorem buildPrompt_eq_error_iff (maxDocumentChars : ℕ) (message : Text)
    (documents : List Document) (forceDocuments : Bool) :
    buildPrompt maxDocumentChars message documents forceDocuments = .error noTextExtracted ↔
      ∀ document ∈ documents, strip document.content = [] := by
  rw [← budgetDocuments_eq_nil_iff maxDocumentChars 0, buildPrompt, applyDocumentBudget]
  have hsettled : ∀ document ∈ budgetDocuments maxDocumentChars 0 documents, document.Settled :=
    fun _ h => settled_of_mem_budgetDocuments h
  revert hsettled
  rcases budgetDocuments maxDocumentChars 0 documents with - | ⟨first, rest⟩
  · exact fun _ => iff_of_true rfl rfl
  · intro hsettled
    have hfirst := hsettled first List.mem_cons_self
    rw [documentChunks, strip_of_tight hfirst.tight]
    simp only [if_neg hfirst.content]
    refine iff_of_false (fun h => ?_) (List.cons_ne_nil _ _)
    cases h

/-- **Uploads are handled alike in both places.** -/
theorem inProcessJob_eq (maxDocumentChars : ℕ) (message : Text) (documents : List Document) :
    applyDocumentBudget maxDocumentChars (applyDocumentBudget maxDocumentChars documents) =
        applyDocumentBudget maxDocumentChars documents ∧
      ∀ (stagingId : Text) (history : List Message) (modelInfo : ModelInfo)
        (threadId : Option Text) (stagedFiles : List StagedFile),
        ((inProcessJob maxDocumentChars message history modelInfo threadId stagedFiles
              documents).map fun job => (job.toPreparedJob, job.trimmedDocChars)) =
          ((prepareParserJobArtifacts maxDocumentChars stagingId message history modelInfo
              stagedFiles documents).map fun artifacts =>
            (artifacts.preparedLlmJob, artifacts.trimmedDocChars)) := by
  refine ⟨applyDocumentBudget_idem maxDocumentChars documents,
    fun stagingId history modelInfo threadId stagedFiles => ?_⟩
  rw [inProcessJob, prepareParserJobArtifacts]
  simp only [buildDocumentPrompt, buildRetryDocumentPrompt, buildPrompt_budgeted]
  rcases buildPrompt maxDocumentChars message documents false with e | finalPrompt
  · rfl
  · rcases buildPrompt maxDocumentChars message documents true with e | retryPrompt
    · rfl
    · rfl

end Budget

end AiAgent

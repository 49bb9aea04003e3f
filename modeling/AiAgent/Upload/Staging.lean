import AiAgent.Store.Session
import AiAgent.Text.Json
import AiAgent.Text.Utf8
import AiAgent.Upload.FileName
import Mathlib.Algebra.GroupWithZero.Nat

/-!
# Staging uploads

The files of a request are stored in a folder of their own, each under a name of its own, before
anything is done with them. They are read in chunks; a file that becomes too large, or with which
the request becomes too large, is rejected in the middle of its reading, when it and the files
before it are on the disk already. Whatever is rejected, and whatever cannot be read, the folder is
removed as a whole.

So the uploads are staged all or not at all (`AiAgent.Upload.allOrNothing_stageUploads`). They are
staged precisely if there are some, not too many, all of them of an allowed type, readable and small
enough, and together small enough. The limits are met at every chunk precisely if they are met at
the end (`AiAgent.Upload.copyChunks_ok`, `AiAgent.Upload.fails_copyChunks`).
-/

namespace AiAgent

namespace Upload

open Text ClientM

/-! ### Disks -/

/-- A path, as the list of its parts. -/
abbrev Path := List Text

/-- A disk: its folders and the bytes of its files. -/
structure Disk where
  isFolder : Path → Bool
  content : Path → Option (List UInt8)

namespace Disk

variable (d : Disk) (path root : Path)

/-- The folder is made, with those above it. -/
def makeFolder : Disk := { d with isFolder := fun p => d.isFolder p || decide (p <+: path) }

/-- A file is written. -/
def write (bytes : List UInt8) : Disk :=
  { d with content := Function.update d.content path (some bytes) }

/-- Bytes are added to a file. -/
def append (bytes : List UInt8) : Disk := d.write path ((d.content path).getD [] ++ bytes)

/-- `shutil.rmtree`. -/
def removeTree : Disk where
  isFolder := fun p => d.isFolder p && !decide (root <+: p)
  content := fun p => if root <+: p then none else d.content p

/-- The files outside of a folder are the same. -/
def SameOutside (d' : Disk) : Prop := ∀ p, ¬ root <+: p → d'.content p = d.content p

variable {d path root}

theorem SameOutside.refl (d : Disk) (root : Path) : d.SameOutside root d := fun _ _ => rfl

theorem SameOutside.trans {d' d'' : Disk} (h : d.SameOutside root d')
    (h' : d'.SameOutside root d'') : d.SameOutside root d'' :=
  fun p hp => (h' p hp).trans (h p hp)

theorem sameOutside_write (h : root <+: path) (bytes : List UInt8) :
    d.SameOutside root (d.write path bytes) := by
  intro p hp
  exact Function.update_of_ne (by rintro rfl; exact hp h) _ _

theorem write_append {before : List UInt8} (bytes : List UInt8) :
    (d.write path before).append path bytes = d.write path (before ++ bytes) := by
  rw [append, write, write, write]
  simp only [Function.update_self, Option.getD_some, Function.update_idem]

end Disk

/-! ### Programs that may fail -/

/-- The errors of staging. -/
inductive UploadError where
  /-- `HTTPException`. -/
  | httpException (statusCode : ℕ) (detail : Text)
  /-- `FileExistsError`, of a folder. -/
  | fileExists
  /-- What reading an upload raises. -/
  | readError
  deriving DecidableEq

abbrev Staging := ClientM Disk UploadError

/-- The disk is changed. -/
def change (f : Disk → Disk) : Staging Unit := fun d => (.ok (), f d)

/-- `path.mkdir(parents=True, exist_ok=…)`. -/
def mkdir (path : Path) (existOk : Bool) : Staging Unit := fun d =>
  if d.isFolder path = true ∧ existOk = false then (.error .fileExists, d)
  else (.ok (), d.makeFolder path)

/-- The program fails, and leaves the files outside of a folder as they are. -/
def Fails {α : Type} (root : Path) (x : Staging α) (d : Disk) : Prop :=
  ∃ e d', x d = (.error e, d') ∧ d.SameOutside root d'

section Fails

variable {α β : Type} {root : Path} {x : Staging α} {f : α → Staging β} {d d' : Disk}

theorem fails_throw (root : Path) (e : UploadError) (d : Disk) :
    Fails root (throw e : Staging α) d := ⟨e, d, rfl, .refl d root⟩

theorem Fails.bind (h : Fails root x d) : Fails root (x >>= f) d := by
  obtain ⟨e, d', hx, hsame⟩ := h
  exact ⟨e, d', run_bind_error hx, hsame⟩

theorem Fails.of_bind {a : α} (hx : x d = (.ok a, d')) (hsame : d.SameOutside root d')
    (h : Fails root (f a) d') : Fails root (x >>= f) d := by
  obtain ⟨e, d'', hf, hsame'⟩ := h
  exact ⟨e, d'', (run_bind_ok hx).trans hf, hsame.trans hsame'⟩

end Fails

/-! ### Reading the uploads -/

/-- What one read of an upload returns. -/
structure Chunk where
  bytes : List UInt8
  nonempty : bytes ≠ []
  short : bytes.length ≤ 1024 * 1024

/-- An upload: what was sent of it, the chunks in which it is read, and whether reading fails after
them. -/
structure UploadFile where
  filename : Option Text
  contentType : Option Text
  chunks : List Chunk
  fails : Bool

/-- The limits. -/
structure Limits where
  maxUploadFileSizeBytes : ℕ
  maxUploadTotalSizeBytes : ℕ
  maxUploadFiles : ℕ

/-- What is returned of an upload. -/
structure StagedFile where
  name : Text
  safeName : Text
  size : ℕ
  contentType : Text

/-- What is returned of an upload to the caller that knows the folder. -/
structure StagedPath extends StagedFile where
  path : Path

/-- All bytes of an upload. -/
def UploadFile.content (upload : UploadFile) : List UInt8 := upload.chunks.flatMap Chunk.bytes

/-- `_max_size_megabytes`. -/
def maxSizeMegabytes (sizeBytes : ℕ) : ℕ := max 1 (sizeBytes / (1024 * 1024))

/-- `upload_file_too_large_detail`. -/
def uploadFileTooLargeDetail (limits : Limits) (filename : Text) : Text :=
  "Файл ".toList ++ filename ++ " превышает лимит ".toList ++
    Nat.toDigits 10 (maxSizeMegabytes limits.maxUploadFileSizeBytes) ++ " MB".toList

/-- `upload_total_size_exceeded_detail`. -/
def uploadTotalSizeExceededDetail (limits : Limits) : Text :=
  "Суммарный размер файлов превышает лимит ".toList ++
    Nat.toDigits 10 (maxSizeMegabytes limits.maxUploadTotalSizeBytes) ++ " MB".toList

def uploadUnsupportedTypeError : Text :=
  "Поддерживаются только TXT, PDF, DOCX, PNG, JPG и JPEG.".toList

section Reading

variable (limits : Limits)

/-- The loop that reads an upload, with the bytes counted of it and of all uploads. -/
def copyChunks (safeName : Text) (targetPath : Path) (fails : Bool) :
    List Chunk → ℕ → ℕ → Staging (ℕ × ℕ)
  | [], size, totalSize => if fails then throw .readError else pure (size, totalSize)
  | chunk :: chunks, size, totalSize =>
    if limits.maxUploadFileSizeBytes < size + chunk.bytes.length then
      throw (.httpException 413 (uploadFileTooLargeDetail limits safeName))
    else if limits.maxUploadTotalSizeBytes < totalSize + chunk.bytes.length then
      throw (.httpException 413 (uploadTotalSizeExceededDetail limits))
    else do
      change fun d => d.append targetPath chunk.bytes
      copyChunks safeName targetPath fails chunks (size + chunk.bytes.length)
        (totalSize + chunk.bytes.length)

variable {limits} {safeName : Text} {targetPath root : Path} {fails : Bool} {chunks : List Chunk}
  {size totalSize : ℕ} {d : Disk}

/-- **An upload within the limits is written as a whole.** -/
theorem copyChunks_ok {before : List UInt8}
    (hsize : size + (chunks.flatMap Chunk.bytes).length ≤ limits.maxUploadFileSizeBytes)
    (htotal : totalSize + (chunks.flatMap Chunk.bytes).length ≤ limits.maxUploadTotalSizeBytes) :
    copyChunks limits safeName targetPath false chunks size totalSize (d.write targetPath before) =
      (.ok (size + (chunks.flatMap Chunk.bytes).length,
        totalSize + (chunks.flatMap Chunk.bytes).length),
        d.write targetPath (before ++ chunks.flatMap Chunk.bytes)) := by
  induction chunks generalizing size totalSize before with
  | nil =>
    rw [List.flatMap_nil, List.append_nil]
    rfl
  | cons chunk chunks ih =>
    rw [List.flatMap_cons, List.length_append] at hsize htotal
    rw [copyChunks, if_neg (by omega), if_neg (by omega)]
    refine (run_bind_ok rfl).trans ?_
    dsimp only
    rw [Disk.write_append, ih (by omega) (by omega), List.flatMap_cons, List.length_append,
      List.append_assoc, Nat.add_assoc, Nat.add_assoc]

/-- **An upload that breaks a limit is rejected at some chunk**, and so is one that cannot be
read. -/
theorem fails_copyChunks (hroot : root <+: targetPath)
    (hsize : size ≤ limits.maxUploadFileSizeBytes)
    (htotal : totalSize ≤ limits.maxUploadTotalSizeBytes)
    (h : fails = true ∨
      limits.maxUploadFileSizeBytes < size + (chunks.flatMap Chunk.bytes).length ∨
      limits.maxUploadTotalSizeBytes < totalSize + (chunks.flatMap Chunk.bytes).length) :
    Fails root (copyChunks limits safeName targetPath fails chunks size totalSize) d := by
  induction chunks generalizing size totalSize d with
  | nil =>
    have hfails : fails = true := by
      rw [List.flatMap_nil, List.length_nil] at h
      rcases h with h | h | h
      · exact h
      · omega
      · omega
    rw [copyChunks, if_pos hfails]
    exact fails_throw _ _ _
  | cons chunk chunks ih =>
    rw [List.flatMap_cons, List.length_append] at h
    rw [copyChunks]
    by_cases hfile : limits.maxUploadFileSizeBytes < size + chunk.bytes.length
    · rw [if_pos hfile]
      exact fails_throw _ _ _
    rw [if_neg hfile]
    by_cases hall : limits.maxUploadTotalSizeBytes < totalSize + chunk.bytes.length
    · rw [if_pos hall]
      exact fails_throw _ _ _
    rw [if_neg hall]
    refine Fails.of_bind rfl (Disk.sameOutside_write hroot _) (ih (by omega) (by omega) ?_)
    exact h.imp_right fun h => by omega

end Reading

/-! ### Staging to a directory -/

section Directory

variable (lowerCase : Text → Text) (limits : Limits) (targetDir : Path)

/-- The name an upload is stored under. -/
def UploadFile.safeName (upload : UploadFile) (digits : NameDigits) : Text :=
  sanitizeUploadFilename lowerCase digits (orElse (upload.filename.getD []) "upload.bin".toList)

/-- The loop over the uploads, each with the digits drawn for it, with the bytes counted so far. -/
def stageEach : List (UploadFile × NameDigits) → ℕ → Staging (List StagedPath)
  | [], _ => pure []
  | (upload, digits) :: files, totalSize => do
    let safeName := upload.safeName lowerCase digits
    let displayName := orElse (pathName (orElse (upload.filename.getD []) safeName)) safeName
    let suffix := detectExtension lowerCase safeName
    let normalizedContentType := normalizeUploadContentType lowerCase upload.contentType
    if suffix ∉ allowedUploadMimeTypes.map Prod.fst then
      throw (.httpException 400 uploadUnsupportedTypeError)
    else if ¬ uploadContentTypeIsAllowed lowerCase suffix (some normalizedContentType) then
      throw (.httpException 400 uploadUnsupportedTypeError)
    else do
      let targetPath := targetDir ++ [safeName]
      change fun d => d.write targetPath []
      let (size, totalSize) ← copyChunks limits safeName targetPath upload.fails upload.chunks 0
        totalSize
      let stagedFiles ← stageEach files totalSize
      return {
        name := displayName
        safeName := safeName
        size := size
        contentType := orElse normalizedContentType "application/octet-stream".toList
        path := targetPath } :: stagedFiles

/-- `stage_uploads_to_directory`. Closing the uploads changes nothing that is modelled. -/
def stageUploadsToDirectory (files : List (UploadFile × NameDigits)) : Staging (List StagedPath) :=
  if files = [] then throw (.httpException 400 "Не выбраны файлы".toList)
  else if limits.maxUploadFiles < files.length then
    throw (.httpException 400 ("Максимум файлов за запрос: ".toList ++
      Nat.toDigits 10 limits.maxUploadFiles))
  else stageEach lowerCase limits targetDir files 0

/-- The type of an upload is allowed. -/
def UploadFile.TypeAllowed (upload : UploadFile) : Prop :=
  let extension := uploadExtension lowerCase (orElse (upload.filename.getD []) "upload.bin".toList)
  extension ∈ allowedUploadMimeTypes.map Prod.fst ∧
    uploadContentTypeIsAllowed lowerCase extension
      (some (normalizeUploadContentType lowerCase upload.contentType)) = true

/-- What is accepted of an upload by itself. -/
structure UploadFile.Acceptable (upload : UploadFile) : Prop where
  allowed : upload.TypeAllowed lowerCase
  readable : upload.fails = false
  small : upload.content.length ≤ limits.maxUploadFileSizeBytes

/-- The entry of an upload that is staged. -/
def stagedPath (file : UploadFile × NameDigits) : StagedPath where
  name := orElse (pathName (orElse (file.1.filename.getD []) (file.1.safeName lowerCase file.2)))
    (file.1.safeName lowerCase file.2)
  safeName := file.1.safeName lowerCase file.2
  size := file.1.content.length
  contentType := orElse (normalizeUploadContentType lowerCase file.1.contentType)
    "application/octet-stream".toList
  path := targetDir ++ [file.1.safeName lowerCase file.2]

/-- The uploads are written. -/
def storeAll (files : List (UploadFile × NameDigits)) (d : Disk) : Disk :=
  files.foldl (fun d file => d.write (targetDir ++ [file.1.safeName lowerCase file.2])
    file.1.content) d

variable {lowerCase limits targetDir} {root : Path} {files : List (UploadFile × NameDigits)}
  {totalSize : ℕ} {d : Disk}

/-- An upload that fits is written as a whole. -/
theorem copyChunks_content {upload : UploadFile} (safeName : Text) (targetPath : Path) (d : Disk)
    (hreadable : upload.fails = false)
    (hsmall : upload.content.length ≤ limits.maxUploadFileSizeBytes)
    (htotal : totalSize + upload.content.length ≤ limits.maxUploadTotalSizeBytes) :
    copyChunks limits safeName targetPath upload.fails upload.chunks 0 totalSize
        (d.write targetPath []) =
      (.ok (upload.content.length, totalSize + upload.content.length),
        d.write targetPath upload.content) := by
  have hwhole : copyChunks limits safeName targetPath false upload.chunks 0 totalSize
      (d.write targetPath []) =
        (.ok (0 + upload.content.length, totalSize + upload.content.length),
          d.write targetPath ([] ++ upload.content)) :=
    copyChunks_ok (by rw [Nat.zero_add]; exact hsmall) htotal
  rw [hreadable, hwhole, Nat.zero_add, List.nil_append]

/-- **Acceptable uploads are staged.** -/
theorem stageEach_ok (hacceptable : ∀ file ∈ files, file.1.Acceptable lowerCase limits)
    (htotal : totalSize + (files.map fun file => file.1.content.length).sum ≤
      limits.maxUploadTotalSizeBytes) :
    stageEach lowerCase limits targetDir files totalSize d =
      (.ok (files.map (stagedPath lowerCase targetDir)), storeAll lowerCase targetDir files d) := by
  induction files generalizing totalSize d with
  | nil => rfl
  | cons file files ih =>
    obtain ⟨upload, digits⟩ := file
    obtain ⟨⟨hextension, htype⟩, hreadable, hsmall⟩ := hacceptable _ List.mem_cons_self
    rw [List.map_cons, List.sum_cons] at htotal
    dsimp only at hsmall htotal
    have hdetect : detectExtension lowerCase (upload.safeName lowerCase digits) =
        uploadExtension lowerCase (orElse (upload.filename.getD []) "upload.bin".toList) :=
      detectExtension_sanitize digits _
    have hread := copyChunks_content (upload.safeName lowerCase digits)
      (targetDir ++ [upload.safeName lowerCase digits]) d hreadable hsmall
      (show totalSize + upload.content.length ≤ limits.maxUploadTotalSizeBytes by omega)
    rw [stageEach]
    dsimp only
    rw [hdetect, if_neg (not_not.mpr hextension), if_neg (not_not.mpr htype)]
    refine (run_bind_ok rfl).trans ((run_bind_ok hread).trans ?_)
    refine (run_bind_ok (ih (fun file hfile => hacceptable file (List.mem_cons_of_mem _ hfile))
      ?_)).trans rfl
    dsimp only
    omega

/-- **Where one upload is not acceptable, or all are too large together, staging fails.** -/
theorem fails_stageEach (hroot : root <+: targetDir)
    (htotal : totalSize ≤ limits.maxUploadTotalSizeBytes)
    (h : ¬((∀ file ∈ files, file.1.Acceptable lowerCase limits) ∧
      totalSize + (files.map fun file => file.1.content.length).sum ≤
        limits.maxUploadTotalSizeBytes)) :
    Fails root (stageEach lowerCase limits targetDir files totalSize) d := by
  induction files generalizing totalSize d with
  | nil => exact absurd ⟨fun _ hfile => absurd hfile List.not_mem_nil, htotal⟩ h
  | cons file files ih =>
    obtain ⟨upload, digits⟩ := file
    have hdetect : detectExtension lowerCase (upload.safeName lowerCase digits) =
        uploadExtension lowerCase (orElse (upload.filename.getD []) "upload.bin".toList) :=
      detectExtension_sanitize digits _
    rw [stageEach]
    dsimp only
    rw [hdetect]
    by_cases hextension : uploadExtension lowerCase (orElse (upload.filename.getD [])
        "upload.bin".toList) ∈ allowedUploadMimeTypes.map Prod.fst
    swap
    · rw [if_pos hextension]
      exact fails_throw _ _ _
    rw [if_neg (not_not.mpr hextension)]
    by_cases htype : uploadContentTypeIsAllowed lowerCase (uploadExtension lowerCase
        (orElse (upload.filename.getD []) "upload.bin".toList))
        (some (normalizeUploadContentType lowerCase upload.contentType)) = true
    swap
    · rw [if_pos htype]
      exact fails_throw _ _ _
    rw [if_neg (not_not.mpr htype)]
    have htarget : root <+: targetDir ++ [upload.safeName lowerCase digits] :=
      hroot.trans (List.prefix_append _ _)
    refine Fails.of_bind rfl (Disk.sameOutside_write htarget []) ?_
    by_cases hread : upload.fails = true ∨
        limits.maxUploadFileSizeBytes < 0 + upload.content.length ∨
        limits.maxUploadTotalSizeBytes < totalSize + upload.content.length
    · exact (fails_copyChunks htarget (Nat.zero_le _) htotal hread).bind
    · -- The upload is read, so one that comes later is to blame.
      obtain ⟨hreadable, hsmall, hfits⟩ : upload.fails = false ∧
          upload.content.length ≤ limits.maxUploadFileSizeBytes ∧
          totalSize + upload.content.length ≤ limits.maxUploadTotalSizeBytes := by
        rw [not_or, not_or, Bool.not_eq_true] at hread
        exact ⟨hread.1, by omega, by omega⟩
      refine Fails.of_bind (copyChunks_content _ _ d hreadable hsmall hfits) ?_
        (Fails.bind (ih hfits fun hrest => h ⟨?_, ?_⟩))
      · exact fun p hp => (Disk.sameOutside_write htarget _ p hp).trans
          (Disk.sameOutside_write htarget _ p hp).symm
      · rintro file hfile
        rcases List.mem_cons.mp hfile with rfl | hfile
        · exact ⟨⟨hextension, htype⟩, hreadable, hsmall⟩
        · exact hrest.1 file hfile
      · rw [List.map_cons, List.sum_cons]
        have hsum := hrest.2
        dsimp only
        omega

end Directory

section Stored

variable {lowerCase : Text → Text} {targetDir path : Path}
  {files : List (UploadFile × NameDigits)} {d : Disk}

/-- What is not written stays. -/
theorem content_storeAll_of_notMem
    (h : ∀ file ∈ files, path ≠ targetDir ++ [file.1.safeName lowerCase file.2]) :
    (storeAll lowerCase targetDir files d).content path = d.content path := by
  induction files generalizing d with
  | nil => rfl
  | cons file files ih =>
    rw [storeAll, List.foldl_cons, ← storeAll, ih fun file' hfile' =>
      h file' (List.mem_cons_of_mem _ hfile')]
    exact Function.update_of_ne (h file List.mem_cons_self) _ _

/-- **Under different names all uploads are kept.** -/
theorem content_storeAll
    (hnames : (files.map fun file => file.1.safeName lowerCase file.2).Nodup)
    {file : UploadFile × NameDigits} (hfile : file ∈ files) :
    (storeAll lowerCase targetDir files d).content
      (targetDir ++ [file.1.safeName lowerCase file.2]) = some file.1.content := by
  induction files generalizing d with
  | nil => cases hfile
  | cons file' files ih =>
    rw [List.map_cons, List.nodup_cons] at hnames
    rw [storeAll, List.foldl_cons, ← storeAll]
    rcases List.mem_cons.mp hfile with rfl | hfile
    · rw [content_storeAll_of_notMem]
      · exact Function.update_self _ _ _
      · rintro other hother heq
        refine hnames.1 (List.mem_map.mpr ⟨other, hother, ?_⟩)
        exact (List.singleton_inj.mp (List.append_cancel_left heq)).symm
    · exact ih hnames.2 hfile

end Stored

/-! ### Staging to the shared root -/

/-- `shared_staging_paths`. -/
structure SharedPaths where
  root : Path
  rawDir : Path
  metaDir : Path
  requestPath : Path
  parserPath : Path

/-- `[a-zA-Z0-9_-]`. -/
def isStagingIdChar (c : Char) : Bool := c.isAlphanum || c = '_' || c = '-'

def sharedStagingPaths (stagingId : Text) (stagingRoot : Path) : SharedPaths :=
  let safeStagingId := orElse (strip (stagingId.filter isStagingIdChar)) "staging".toList
  let root := stagingRoot ++ ["staging".toList, safeStagingId]
  let metaDir := root ++ ["meta".toList]
  { root := root
    rawDir := root ++ ["raw".toList]
    metaDir := metaDir
    requestPath := metaDir ++ ["request.json".toList]
    parserPath := metaDir ++ ["parser.json".toList] }

/-- What is returned of a request. -/
structure StagedRequest where
  stagingId : Text
  files : List StagedFile

/-- The entry of a file in the payloads. -/
def StagedFile.json (file : StagedFile) : Json :=
  .obj [("name".toList, .str file.name), ("safe_name".toList, .str file.safeName),
    ("size".toList, .num (.ofNat file.size)), ("content_type".toList, .str file.contentType)]

def requestPayload (stagingId : Text) (username : Option Text) (createdAt : ℕ)
    (files : List StagedFile) : Json :=
  .obj [("staging_id".toList, .str stagingId),
    ("username".toList, .str (orElse (strip (username.getD [])) "unknown".toList)),
    ("created_at".toList, .num (.ofNat createdAt)),
    ("files".toList, .arr (files.map StagedFile.json))]

def parserPayload (stagingId : Text) (updatedAt : ℕ) (files : List StagedFile) : Json :=
  .obj [("staging_id".toList, .str stagingId), ("status".toList, .str "staged".toList),
    ("updated_at".toList, .num (.ofNat updatedAt)),
    ("files".toList, .arr (files.map StagedFile.json)), ("raw_deleted".toList, .bool false)]

/-- `path.write_text(json.dumps(payload, ensure_ascii=False), encoding="utf-8")`. -/
def writeJson (path : Path) (payload : Json) : Staging Unit :=
  change fun d => d.write path (utf8 (payload.dumps false))

section Shared

variable (lowerCase : Text → Text) (limits : Limits) (stagingRoot : Path) (username : Option Text)
  (stagingId : Text) (createdAt updatedAt : ℕ) (files : List (UploadFile × NameDigits))

/-- What `stage_uploads_to_shared_root` tries. -/
def stageFiles : Staging StagedRequest := do
  let paths := sharedStagingPaths stagingId stagingRoot
  mkdir paths.rawDir false
  mkdir paths.metaDir true
  let stagedFilesWithPaths ← stageUploadsToDirectory lowerCase limits paths.rawDir files
  let stagedFiles := stagedFilesWithPaths.map StagedPath.toStagedFile
  writeJson paths.requestPath (requestPayload stagingId username createdAt stagedFiles)
  writeJson paths.parserPath (parserPayload stagingId updatedAt stagedFiles)
  return { stagingId := stagingId, files := stagedFiles }

/-- `stage_uploads_to_shared_root`. -/
def stageUploadsToSharedRoot : Staging StagedRequest :=
  tryCatchThe UploadError
    (stageFiles lowerCase limits stagingRoot username stagingId createdAt updatedAt files)
    fun e => do
      change fun d => d.removeTree (sharedStagingPaths stagingId stagingRoot).root
      throw e

/-- What uploads must be for them to be staged. -/
structure Stageable : Prop where
  some : files ≠ []
  few : files.length ≤ limits.maxUploadFiles
  acceptable : ∀ file ∈ files, file.1.Acceptable lowerCase limits
  small : (files.map fun file => file.1.content.length).sum ≤ limits.maxUploadTotalSizeBytes

/-- The entry of an upload in what is returned. -/
def stagedFile (file : UploadFile × NameDigits) : StagedFile :=
  (stagedPath lowerCase (sharedStagingPaths stagingId stagingRoot).rawDir file).toStagedFile

/-- Nothing is on the disk of the staging id. -/
def Unused (stagingRoot : Path) (stagingId : Text) (d : Disk) : Prop :=
  ∀ path, (sharedStagingPaths stagingId stagingRoot).root <+: path →
    d.isFolder path = false ∧ d.content path = none

/-- What a request that is staged leaves: the files, each under its name, and the two payloads. -/
def stagedDisk (d : Disk) : Disk :=
  let paths := sharedStagingPaths stagingId stagingRoot
  let stagedFiles := files.map (stagedFile lowerCase stagingRoot stagingId)
  ((storeAll lowerCase paths.rawDir files
    ((d.makeFolder paths.rawDir).makeFolder paths.metaDir)).write paths.requestPath
      (utf8 ((requestPayload stagingId username createdAt stagedFiles).dumps false))).write
        paths.parserPath (utf8 ((parserPayload stagingId updatedAt stagedFiles).dumps false))

variable {lowerCase limits stagingRoot username stagingId createdAt updatedAt files} {d : Disk}

/-- Both folders can be made. -/
theorem run_mkdir_rawDir (h : Unused stagingRoot stagingId d) :
    mkdir (sharedStagingPaths stagingId stagingRoot).rawDir false d =
      (.ok (), d.makeFolder (sharedStagingPaths stagingId stagingRoot).rawDir) := by
  have hnew := (h (sharedStagingPaths stagingId stagingRoot).rawDir (List.prefix_append _ _)).1
  rw [mkdir, hnew]
  exact if_neg fun hboth => Bool.false_ne_true hboth.1

theorem run_mkdir_existOk (path : Path) (d : Disk) :
    mkdir path true d = (.ok (), d.makeFolder path) :=
  if_neg fun h => Bool.noConfusion h.2

/-- **Stageable uploads are staged.** -/
theorem stageFiles_ok (hunused : Unused stagingRoot stagingId d)
    (h : Stageable lowerCase limits files) :
    stageFiles lowerCase limits stagingRoot username stagingId createdAt updatedAt files d =
      (.ok ⟨stagingId, files.map (stagedFile lowerCase stagingRoot stagingId)⟩,
        stagedDisk lowerCase stagingRoot username stagingId createdAt updatedAt files d) := by
  have hfiles : ∀ d, stageUploadsToDirectory lowerCase limits
      (sharedStagingPaths stagingId stagingRoot).rawDir files d =
        (.ok (files.map (stagedPath lowerCase (sharedStagingPaths stagingId stagingRoot).rawDir)),
          storeAll lowerCase (sharedStagingPaths stagingId stagingRoot).rawDir files d) := by
    intro d
    rw [stageUploadsToDirectory, if_neg h.some, if_neg (not_lt.mpr h.few)]
    exact stageEach_ok h.acceptable (by rw [Nat.zero_add]; exact h.small)
  rw [stageFiles]
  refine (run_bind_ok (run_mkdir_rawDir hunused)).trans ((run_bind_ok
    (run_mkdir_existOk _ _)).trans ((run_bind_ok (hfiles _)).trans ?_))
  rw [List.map_map]
  rfl

/-- **Other uploads fail.** -/
theorem fails_stageFiles (hunused : Unused stagingRoot stagingId d)
    (h : ¬ Stageable lowerCase limits files) :
    Fails (sharedStagingPaths stagingId stagingRoot).root
      (stageFiles lowerCase limits stagingRoot username stagingId createdAt updatedAt files) d := by
  have hfiles : ∀ d, Fails (sharedStagingPaths stagingId stagingRoot).root
      (stageUploadsToDirectory lowerCase limits
        (sharedStagingPaths stagingId stagingRoot).rawDir files) d := by
    intro d
    rw [stageUploadsToDirectory]
    by_cases hnone : files = []
    · rw [if_pos hnone]
      exact fails_throw _ _ _
    rw [if_neg hnone]
    by_cases hmany : limits.maxUploadFiles < files.length
    · rw [if_pos hmany]
      exact fails_throw _ _ _
    rw [if_neg hmany]
    refine fails_stageEach (List.prefix_append _ _) (Nat.zero_le _) fun hall => h ?_
    rw [Nat.zero_add] at hall
    exact ⟨hnone, not_lt.mp hmany, hall.1, hall.2⟩
  rw [stageFiles]
  refine Fails.of_bind (run_mkdir_rawDir hunused) (fun _ _ => rfl) ?_
  exact Fails.of_bind (run_mkdir_existOk _ _) (fun _ _ => rfl) (hfiles _).bind

theorem rawDir_ne_metaDir (name name' : Text) :
    (sharedStagingPaths stagingId stagingRoot).rawDir ++ [name] ≠
      (sharedStagingPaths stagingId stagingRoot).metaDir ++ [name'] := by
  intro h
  simp only [sharedStagingPaths, List.append_assoc] at h
  have hnames := List.append_cancel_left (List.append_cancel_left h)
  exact absurd (List.cons.inj hnames).1 (by decide)

theorem rawDir_ne_payloads (name : Text) :
    (sharedStagingPaths stagingId stagingRoot).rawDir ++ [name] ≠
        (sharedStagingPaths stagingId stagingRoot).requestPath ∧
      (sharedStagingPaths stagingId stagingRoot).rawDir ++ [name] ≠
        (sharedStagingPaths stagingId stagingRoot).parserPath :=
  ⟨rawDir_ne_metaDir _ _, rawDir_ne_metaDir _ _⟩

theorem requestPath_ne_parserPath : (sharedStagingPaths stagingId stagingRoot).requestPath ≠
    (sharedStagingPaths stagingId stagingRoot).parserPath := by
  intro h
  simp only [sharedStagingPaths] at h
  exact absurd (List.append_cancel_left h) (by decide)

/-- The uploads are on the disk that is left. -/
theorem content_stagedDisk_file
    (hnames : (files.map fun file => file.1.safeName lowerCase file.2).Nodup)
    {file : UploadFile × NameDigits} (hfile : file ∈ files) :
    (stagedDisk lowerCase stagingRoot username stagingId createdAt updatedAt files d).content
      ((sharedStagingPaths stagingId stagingRoot).rawDir ++ [file.1.safeName lowerCase file.2]) =
        some file.1.content := by
  rw [stagedDisk]
  dsimp only [Disk.write]
  rw [Function.update_of_ne (rawDir_ne_payloads _).2,
    Function.update_of_ne (rawDir_ne_payloads _).1]
  exact content_storeAll hnames hfile

/-- The payloads are, too. -/
theorem content_stagedDisk_payloads :
    (stagedDisk lowerCase stagingRoot username stagingId createdAt updatedAt files d).content
        (sharedStagingPaths stagingId stagingRoot).requestPath =
      some (utf8 ((requestPayload stagingId username createdAt
        (files.map (stagedFile lowerCase stagingRoot stagingId))).dumps false)) ∧
    (stagedDisk lowerCase stagingRoot username stagingId createdAt updatedAt files d).content
        (sharedStagingPaths stagingId stagingRoot).parserPath =
      some (utf8 ((parserPayload stagingId updatedAt
        (files.map (stagedFile lowerCase stagingRoot stagingId))).dumps false)) := by
  rw [stagedDisk]
  dsimp only [Disk.write]
  rw [Function.update_self, Function.update_of_ne requestPath_ne_parserPath, Function.update_self]
  exact ⟨rfl, rfl⟩

/-- Everything else is as it was. -/
theorem content_stagedDisk_of_ne {path : Path}
    (hrequest : path ≠ (sharedStagingPaths stagingId stagingRoot).requestPath)
    (hparser : path ≠ (sharedStagingPaths stagingId stagingRoot).parserPath)
    (hfiles : ∀ file ∈ files, path ≠
      (sharedStagingPaths stagingId stagingRoot).rawDir ++ [file.1.safeName lowerCase file.2]) :
    (stagedDisk lowerCase stagingRoot username stagingId createdAt updatedAt files d).content path =
      d.content path := by
  rw [stagedDisk]
  dsimp only [Disk.write]
  rw [Function.update_of_ne hparser, Function.update_of_ne hrequest]
  exact content_storeAll_of_notMem hfiles

variable (lowerCase limits stagingRoot username stagingId createdAt updatedAt files d) in
/-- Uploads are staged all or not at all. They are staged precisely if they are stageable. Then the
request lists them in their order, each with the number of its bytes and a name of its own; its
bytes stand under that name, the payloads list the same, and nothing else is there. Otherwise
nothing is there at all. Of other requests nothing is changed. -/
structure AllOrNothing (outcome : Except UploadError StagedRequest × Disk) : Prop where
  succeeds : outcome.1.isOk = true ↔ Stageable lowerCase limits files
  listed : ∀ request, outcome.1 = .ok request →
    request = ⟨stagingId, files.map (stagedFile lowerCase stagingRoot stagingId)⟩ ∧
      (request.files.map StagedFile.safeName).Nodup
  stored : ∀ request, outcome.1 = .ok request → ∀ file ∈ files, outcome.2.content
    ((sharedStagingPaths stagingId stagingRoot).rawDir ++ [file.1.safeName lowerCase file.2]) =
      some file.1.content
  payloads : ∀ request, outcome.1 = .ok request →
    outcome.2.content (sharedStagingPaths stagingId stagingRoot).requestPath =
      some (utf8 ((requestPayload stagingId username createdAt request.files).dumps false)) ∧
    outcome.2.content (sharedStagingPaths stagingId stagingRoot).parserPath =
      some (utf8 ((parserPayload stagingId updatedAt request.files).dumps false))
  nothingElse : ∀ request, outcome.1 = .ok request →
    ∀ path, (sharedStagingPaths stagingId stagingRoot).root <+: path →
      outcome.2.content path ≠ none →
      path = (sharedStagingPaths stagingId stagingRoot).requestPath ∨
        path = (sharedStagingPaths stagingId stagingRoot).parserPath ∨
        ∃ file ∈ files, path = (sharedStagingPaths stagingId stagingRoot).rawDir ++
          [file.1.safeName lowerCase file.2]
  removed : ∀ e, outcome.1 = .error e →
    ∀ path, (sharedStagingPaths stagingId stagingRoot).root <+: path →
      outcome.2.content path = none ∧ outcome.2.isFolder path = false
  others : d.SameOutside (sharedStagingPaths stagingId stagingRoot).root outcome.2

/-- **Uploads are staged all or not at all.** -/
theorem allOrNothing_stageUploads (hunused : Unused stagingRoot stagingId d)
    (hdigits : (files.map fun file => file.2.text).Nodup) :
    AllOrNothing lowerCase limits stagingRoot username stagingId createdAt updatedAt files d
      (stageUploadsToSharedRoot lowerCase limits stagingRoot username stagingId createdAt updatedAt
        files d) := by
  have hnames : (files.map fun file => file.1.safeName lowerCase file.2).Nodup := by
    rw [List.Nodup, List.pairwise_map] at hdigits ⊢
    exact hdigits.imp fun hne heq => hne (sanitize_injective heq)
  have hbelow : ∀ path, ¬ (sharedStagingPaths stagingId stagingRoot).root <+: path →
      path ≠ (sharedStagingPaths stagingId stagingRoot).requestPath ∧
      path ≠ (sharedStagingPaths stagingId stagingRoot).parserPath ∧
      ∀ name, path ≠ (sharedStagingPaths stagingId stagingRoot).rawDir ++ [name] := by
    intro path hpath
    refine ⟨?_, ?_, ?_⟩
    · rintro rfl
      exact hpath ((List.prefix_append _ _).trans (List.prefix_append _ _))
    · rintro rfl
      exact hpath ((List.prefix_append _ _).trans (List.prefix_append _ _))
    · rintro name rfl
      exact hpath ((List.prefix_append _ _).trans (List.prefix_append _ _))
  by_cases h : Stageable lowerCase limits files
  · rw [stageUploadsToSharedRoot, run_tryCatch_ok (stageFiles_ok hunused h)]
    refine ⟨iff_of_true rfl h, ?_, fun _ _ file hfile => content_stagedDisk_file hnames hfile, ?_,
      ?_, fun e he => ?_, ?_⟩
    · rintro request hrequest
      obtain rfl := Except.ok.inj hrequest
      refine ⟨rfl, ?_⟩
      rw [List.map_map]
      exact hnames
    · rintro request hrequest
      obtain rfl := Except.ok.inj hrequest
      exact content_stagedDisk_payloads
    · rintro request - path hpath hcontent
      by_contra hother
      rw [not_or, not_or] at hother
      obtain ⟨hrequest, hparser, hfiles⟩ := hother
      refine hcontent ((content_stagedDisk_of_ne hrequest hparser fun file hfile heq =>
        hfiles ⟨file, hfile, heq⟩).trans (hunused path hpath).2)
    · cases he
    · intro path hpath
      obtain ⟨hrequest, hparser, hfiles⟩ := hbelow path hpath
      exact content_stagedDisk_of_ne hrequest hparser fun file _ => hfiles _
  · obtain ⟨e, d', hfails, hsame⟩ := fails_stageFiles hunused h
    rw [stageUploadsToSharedRoot, run_tryCatch_error hfails]
    refine ⟨iff_of_false Bool.false_ne_true h, fun _ h => ?_, fun _ h => ?_, fun _ h => ?_,
      fun _ h => ?_, ?_, ?_⟩
    · cases h
    · cases h
    · cases h
    · cases h
    · rintro e' - path hpath
      refine ⟨if_pos hpath, ?_⟩
      show (d'.isFolder path && !decide (_ <+: path)) = false
      rw [decide_eq_true hpath]
      exact Bool.and_false _
    · intro path hpath
      exact (if_neg hpath).trans (hsame path hpath)

end Shared

/-- `FILE_PROCESSING_MAX_FILE_SIZE_BYTES` and the other limits, as they are set by default. -/
def defaultLimits : Limits := ⟨50 * 1024 * 1024, 500 * 1024 * 1024, 10⟩

/-- Two text files, one of them empty. -/
def twoTextFiles : List (UploadFile × NameDigits) :=
  [(⟨some "a.txt".toList, none, [⟨[104, 105], by decide, by decide⟩], false⟩, noDigits),
    (⟨some "b.txt".toList, some "text/plain".toList, [], false⟩,
      ⟨List.replicate 12 'f', rfl, by decide⟩)]

theorem allOrNothing_twoTextFiles :
    AllOrNothing lower defaultLimits ["data".toList] none "1f".toList 0 0 twoTextFiles
      ⟨fun _ => false, fun _ => none⟩
      (stageUploadsToSharedRoot lower defaultLimits ["data".toList] none "1f".toList 0 0
        twoTextFiles ⟨fun _ => false, fun _ => none⟩) :=
  allOrNothing_stageUploads (fun _ _ => ⟨rfl, rfl⟩) (by decide)

end Upload

end AiAgent

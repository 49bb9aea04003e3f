import AiAgent.Text.Json
import AiAgent.Text.Utf8

/-!
# The event stream of a chat, from the server to the browser

`event_stream` writes every event as one block, a line `data: ` with the JSON of the event and a
blank line, and `StreamController.start` reads the bytes as they come: what is decoded goes to a
buffer, the buffer is split at its blank lines, and what is behind the last of them stays in the
buffer for the next chunk.

Where the cuts fall does not matter. To split a text and to go on with what is left and with the
text that follows is to split both texts at once (`AiAgent.Client.splitBlocks_append`), so what is
handled is the blocks of the whole stream (`AiAgent.Client.readLoop_eq`), and these are the events:
JSON is printed on a single line.
-/

namespace AiAgent

namespace Client

/-! ### Splitting at blank lines -/

/-- `buffer.split("\n\n")`. -/
def splitBlocks : Text → List Text
  | [] => [[]]
  | '\n' :: '\n' :: t => [] :: splitBlocks t
  | c :: t => (splitBlocks t).modifyHead (c :: ·)

/-- Two line feeds one after the other. -/
def BlankLine (c : Char) (t : Text) : Prop := c = '\n' ∧ t.head? = some '\n'

instance (c : Char) (t : Text) : Decidable (BlankLine c t) :=
  inferInstanceAs (Decidable (_ ∧ _))

theorem splitBlocks_blank (t : Text) : splitBlocks ('\n' :: '\n' :: t) = [] :: splitBlocks t := rfl

theorem splitBlocks_cons {c : Char} {t : Text} (h : ¬BlankLine c t) :
    splitBlocks (c :: t) = (splitBlocks t).modifyHead (c :: ·) := by
  refine splitBlocks.eq_3 c t fun u hc ht => h ⟨hc, ?_⟩
  rw [ht]
  rfl

theorem splitBlocks_ne_nil (t : Text) : splitBlocks t ≠ [] := by
  induction t using splitBlocks.induct with
  | case1 => exact List.cons_ne_nil _ _
  | case2 t ih => exact List.cons_ne_nil _ _
  | case3 c t h ih =>
    rw [splitBlocks.eq_3 c t h]
    intro heq
    rw [← List.length_eq_zero_iff, List.length_modifyHead, List.length_eq_zero_iff] at heq
    exact ih heq

/-- What is left in the buffer: the text behind the last blank line. -/
def leftover (t : Text) : Text := (splitBlocks t).getLast (splitBlocks_ne_nil t)

/-- The blocks before it. -/
def blocks (t : Text) : List Text := (splitBlocks t).dropLast

theorem blocks_append_leftover (t : Text) : blocks t ++ [leftover t] = splitBlocks t :=
  List.dropLast_concat_getLast _

/-- A text without a blank line is one block. -/
theorem eq_of_splitBlocks_eq_singleton {t b : Text} (h : splitBlocks t = [b]) : b = t := by
  induction t using splitBlocks.induct generalizing b with
  | case1 => exact (List.singleton_inj.mp h).symm
  | case2 t ih =>
    rw [splitBlocks_blank] at h
    exact absurd (List.cons.inj h).2 (splitBlocks_ne_nil t)
  | case3 c t hc ih =>
    obtain ⟨d, ds, hsplit⟩ := List.exists_cons_of_ne_nil (splitBlocks_ne_nil t)
    rw [splitBlocks.eq_3 c t hc, hsplit, List.modifyHead_cons] at h
    obtain ⟨hhead, htail⟩ := List.cons.inj h
    rw [htail] at hsplit
    rw [← hhead, ih hsplit]

/-- **Splitting as the text comes**: to go on with what is left and with the text that follows is
to split both at once. -/
theorem splitBlocks_append (t u : Text) :
    splitBlocks (t ++ u) = blocks t ++ splitBlocks (leftover t ++ u) := by
  induction t using splitBlocks.induct with
  | case1 => rfl
  | case2 t ih =>
    obtain ⟨b, bs, hsplit⟩ := List.exists_cons_of_ne_nil (splitBlocks_ne_nil t)
    have hblocks : blocks ('\n' :: '\n' :: t) = [] :: blocks t := by
      rw [blocks, splitBlocks_blank, List.dropLast_cons_of_ne_nil (splitBlocks_ne_nil t), blocks]
    have hleft : leftover ('\n' :: '\n' :: t) = leftover t :=
      List.getLast_cons (splitBlocks_ne_nil t)
    rw [hblocks, hleft, List.cons_append, List.cons_append, List.cons_append, splitBlocks_blank, ih]
  | case3 c t h ih =>
    obtain ⟨b, bs, hsplit⟩ := List.exists_cons_of_ne_nil (splitBlocks_ne_nil t)
    have hhere : splitBlocks (c :: t) = (c :: b) :: bs := by
      rw [splitBlocks.eq_3 c t h, hsplit, List.modifyHead_cons]
    rcases bs with _ | ⟨d, ds⟩
    · -- No block is complete, and all of the text is left.
      have hblocks : blocks (c :: t) = [] := by rw [blocks, hhere]; rfl
      have hleft : leftover (c :: t) = c :: t := by
        have hlast := blocks_append_leftover (c :: t)
        rw [hblocks, List.nil_append] at hlast
        exact eq_of_splitBlocks_eq_singleton hlast.symm
      rw [hblocks, hleft, List.nil_append]
    · -- The first block grows by one character, and what is left is the same.
      have hblocks : blocks (c :: t) = (c :: b) :: (d :: ds).dropLast := by
        rw [blocks, hhere, List.dropLast_cons_cons]
      have hblocks' : blocks t = b :: (d :: ds).dropLast := by
        rw [blocks, hsplit, List.dropLast_cons_cons]
      have hleft : leftover (c :: t) = leftover t := by
        simp only [leftover, hhere, hsplit, List.getLast_cons_cons]
      obtain ⟨e, t', rfl⟩ : ∃ e t', t = e :: t' := by
        refine List.exists_cons_of_ne_nil ?_
        rintro rfl
        exact absurd hsplit (by rw [splitBlocks]; exact fun heq => by cases heq)
      have hgrown : splitBlocks (c :: (e :: t' ++ u)) =
          (splitBlocks (e :: t' ++ u)).modifyHead (c :: ·) := by
        refine splitBlocks_cons ?_
        rintro ⟨hc, he⟩
        exact h t' hc (by rw [Option.some.inj he])
      rw [List.cons_append, hgrown, ih, hblocks, hblocks', hleft]
      rfl

theorem blocks_append (t u : Text) : blocks (t ++ u) = blocks t ++ blocks (leftover t ++ u) := by
  rw [blocks, splitBlocks_append, List.dropLast_append_of_ne_nil (splitBlocks_ne_nil _)]
  rfl

/-- What is left holds no complete block. -/
theorem blocks_leftover (t : Text) : blocks (leftover t) = [] := by
  have hsplit := splitBlocks_append t []
  rw [List.append_nil, List.append_nil, ← blocks_append_leftover t] at hsplit
  have hleft := (List.append_cancel_left hsplit).symm
  rw [blocks, hleft]
  rfl

/-- A line and the blank line that ends its block. -/
theorem splitBlocks_line {line : Text} (hline : '\n' ∉ line) (t : Text) :
    splitBlocks (line ++ '\n' :: '\n' :: t) = line :: splitBlocks t := by
  induction line with
  | nil => rfl
  | cons c line ih =>
    rw [List.mem_cons, not_or] at hline
    rw [List.cons_append, splitBlocks_cons fun h => hline.1 h.1.symm, ih hline.2]
    rfl

/-! ### The server -/

/-- The line of an event. -/
def eventLine (event : Json) : Text := "data: ".toList ++ event.dumps false

/-- `f"data: {json.dumps(event, ensure_ascii=False)}\n\n"`. -/
def eventBlock (event : Json) : Text := eventLine event ++ "\n\n".toList

/-- The blocks of some events. -/
def encodeEvents (events : List Json) : Text := events.flatMap eventBlock

/-- The first event of a stream. -/
def jobEvent (jobId : Text) : Json := .obj [("job_id".toList, .str jobId)]

/-- `event_stream`: the id of the job, and then what `stream_events` yields. -/
def eventStream (jobId : Text) (events : List Json) : Text :=
  encodeEvents (jobEvent jobId :: events)

/-! ### The browser -/

/-- A `TextDecoder`, called with `{ stream: true }`. -/
structure TextDecoder where
  /-- What it keeps from call to call. -/
  State : Type
  /-- A new decoder. -/
  start : State
  /-- `decode`. -/
  decode : State → List UInt8 → Text × State

/-- What a decoder makes of some chunks. -/
def TextDecoder.decodeAll (d : TextDecoder) : d.State → List (List UInt8) → Text
  | _, [] => []
  | state, value :: values =>
    (d.decode state value).1 ++ d.decodeAll (d.decode state value).2 values

/-- It does not matter to the decoder where the bytes of a text are cut. A byte order mark at the
beginning would be dropped. -/
def TextDecoder.Independent (d : TextDecoder) : Prop :=
  ∀ (text : Text) (chunks : List (List UInt8)), text.head? ≠ some '\uFEFF' →
    chunks.flatten = text.utf8 → d.decodeAll d.start chunks = text

/-- What the controller calls, in order. -/
inductive Call where
  /-- `onJob`. -/
  | onJob (jobId : Json)
  /-- `onToken`. -/
  | onToken (token : Json)
  /-- `onResult`. -/
  | onResult (result : Text)
  /-- `onDone`, with the event, or with `{ done: true }` at the end of the stream. -/
  | onDone (event : Option Json)
  /-- `onError`, with the error of an event, or with one that was thrown while it was read. -/
  | onError (error : Option Json)

/-- The state of `start` while it reads. -/
structure Run where
  /-- `this.jobId`. -/
  jobId : Option Json
  /-- What was called. -/
  calls : List Call
  /-- It has returned or thrown. -/
  finished : Bool

/-- A call. -/
def Run.call (r : Run) (c : Call) : Run := { r with calls := r.calls ++ [c] }

/-- The last call. -/
def Run.finish (r : Run) (c : Call) : Run := { r with calls := r.calls ++ [c], finished := true }

/-- The number is zero: its digits are, before the exponent. -/
def isZero (n : Json.Number) : Bool :=
  (n.literal.takeWhile fun c => c ≠ 'e' && c ≠ 'E').all fun c => !('1' ≤ c && c ≤ '9')

/-- What counts as true in a condition. -/
def truthy : Json → Bool
  | .null => false
  | .bool b => b
  | .num n => !isZero n
  | .str s => s ≠ []
  | .arr _ => true
  | .obj _ => true

/-- The property of an object: of two members with one key the later counts. -/
def lookup (key : Text) : List (Text × Json) → Option Json
  | [] => none
  | (k, v) :: members => (lookup key members).or (if k = key then some v else none)

/-- `event.key`. -/
def property (event : Json) (key : Text) : Option Json :=
  match event with
  | .obj members => lookup key members
  | _ => none

/-- `if (event.key)`: the property, where it counts as true. -/
def given (event : Json) (key : Text) : Option Json := (property event key).filter truthy

/-- The part of the loop that looks at an event. -/
def handleEvent (event : Json) (r : Run) : Run :=
  match given event "job_id".toList with
  | some jobId => { r with jobId := some jobId }.call (.onJob jobId)
  | none =>
    match given event "error".toList with
    | some error => r.finish (.onError (some error))
    | none =>
      let r := match given event "token".toList with
        | some token => r.call (.onToken token)
        | none => r
      let r := match property event "result".toList with
        | some (.str result) => r.call (.onResult result)
        | _ => r
      match given event "done".toList with
      | some _ => r.finish (.onDone (some event))
      | none => r

/-- The characters `\s` stands for in a regular expression. -/
def isRegexSpace (c : Char) : Bool :=
  (9 ≤ c.toNat && c.toNat ≤ 13) || c.toNat = 32 || c.toNat = 0xA0 || c.toNat = 0x1680 ||
    (0x2000 ≤ c.toNat && c.toNat ≤ 0x200A) || c.toNat = 0x2028 || c.toNat = 0x2029 ||
    c.toNat = 0x202F || c.toNat = 0x205F || c.toNat = 0x3000 || c.toNat = 0xFEFF

/-- `dataLines`: the lines that start with `data:`, without it and the blanks after it. -/
def dataLines (block : Text) : List Text :=
  ((block.splitOn '\n').filter ("data:".toList.isPrefixOf ·)).map fun line =>
    (line.drop 5).dropWhile isRegexSpace

/-- The lines with `\n` between them. -/
def joinLines (lines : List Text) : Text := List.intercalate ['\n'] lines

/-- The loop over the blocks, for one of them. `null` has no properties: to ask for one throws. -/
def handleBlock (block : Text) (r : Run) : Run :=
  if dataLines block = [] then r
  else
    match Json.parse (joinLines (dataLines block)) with
    | none => r.finish (.onError none)
    | some .null => r.finish (.onError none)
    | some event => handleEvent event r

/-- The loop over the blocks. -/
def handleBlocks : List Text → Run → Run
  | [], r => r
  | block :: rest, r =>
    if (handleBlock block r).finished then handleBlock block r
    else handleBlocks rest (handleBlock block r)

/-- `while (true)`: a chunk is decoded and put behind the buffer, the blocks that are complete are
handled, and the rest stays in the buffer. -/
def readLoop (d : TextDecoder) : d.State → Text → List (List UInt8) → Run → Run
  | _, _, [], r => r.finish (.onDone none)
  | state, buffer, value :: values, r =>
    let text := buffer ++ (d.decode state value).1
    if (handleBlocks (blocks text) r).finished then handleBlocks (blocks text) r
    else readLoop d (d.decode state value).2 (leftover text) values (handleBlocks (blocks text) r)

/-- `start`, from the first read on. -/
def start (d : TextDecoder) (chunks : List (List UInt8)) : Run :=
  readLoop d d.start [] chunks ⟨none, [], false⟩

/-! ### What is said of an event -/

/-- The event ends the stream: it has an error or is done, and has no job id. -/
def ends (event : Json) : Bool :=
  (given event "job_id".toList).isNone &&
    ((given event "error".toList).isSome || (given event "done".toList).isSome)

/-- The events up to the first that ends the stream, and this one. -/
def upToEnd : List Json → List Json
  | [] => []
  | event :: events => if ends event then [event] else event :: upToEnd events

/-- What is called for an event: with a job id the job, with an error the error, and else what it
has of a token, a result and the end. -/
def callsOf (event : Json) : List Call :=
  match given event "job_id".toList with
  | some jobId => [.onJob jobId]
  | none =>
    match given event "error".toList with
    | some error => [.onError (some error)]
    | none =>
      ((given event "token".toList).map Call.onToken).toList ++
        (match property event "result".toList with
          | some (.str result) => [.onResult result]
          | _ => []) ++
        ((given event "done".toList).map fun _ => Call.onDone (some event)).toList

/-- The token of an event that has neither a job id nor an error; what is no text counts as
none. -/
def tokenField (event : Json) : Text :=
  if (given event "job_id".toList).isSome || (given event "error".toList).isSome then []
  else
    match property event "token".toList with
    | some (.str token) => token
    | _ => []

/-- The text that is passed to `onToken`. -/
def Call.token : Call → Text
  | .onToken (.str token) => token
  | _ => []

/-- The event is an object. -/
def IsObject (event : Json) : Prop := ∃ members, event = .obj members

section Events

variable {event : Json} {r : Run}

theorem handleEvent_eq (event : Json) (r : Run) : handleEvent event r =
    ⟨(given event "job_id".toList).or r.jobId, r.calls ++ callsOf event,
      r.finished || ends event⟩ := by
  rw [handleEvent, callsOf, ends]
  generalize "job_id".toList = keyJob, "error".toList = keyError, "token".toList = keyToken,
    "result".toList = keyResult, "done".toList = keyDone
  rcases given event keyJob with _ | jobId
  · rcases given event keyError with _ | error
    · rcases given event keyToken with _ | token <;>
        rcases property event keyResult with _ | _ | _ | _ | _ | _ | _ <;>
          rcases given event keyDone with _ | _ <;>
            simp [Run.call, Run.finish]
    · simp [Run.finish]
  · simp [Run.call]

/-- The tokens of the calls for an event. -/
theorem token_callsOf (event : Json) : (callsOf event).flatMap Call.token = tokenField event := by
  rw [callsOf, tokenField]
  rcases given event "job_id".toList with _ | jobId
  · rcases given event "error".toList with _ | error
    · have hresult : (match property event "result".toList with
          | some (.str result) => [Call.onResult result]
          | _ => []).flatMap Call.token = [] := by
        split
        · rfl
        · rfl
      have hdone : ((given event "done".toList).map fun _ =>
          Call.onDone (some event)).toList.flatMap Call.token = [] := by
        rcases given event "done".toList with _ | _
        · rfl
        · rfl
      dsimp only
      rw [List.flatMap_append, List.flatMap_append, hresult, hdone, List.append_nil,
        List.append_nil, given]
      rcases property event "token".toList with _ | token
      · rfl
      · -- An empty token is not passed on, which adds as little as the token would.
        rcases token with _ | b | n | s | items | members
        case str =>
          rcases s with _ | ⟨c, s⟩
          · rfl
          · have htrue : truthy (.str (c :: s)) = true := decide_eq_true (List.cons_ne_nil c s)
            rw [Option.filter_some, if_pos htrue]
            exact List.append_nil _
        case bool => cases b <;> rfl
        case num =>
          rw [Option.filter_some]
          split
          · rfl
          · rfl
        all_goals rfl
    · rfl
  · rfl

/-- **The events that are handled**: those up to the end, in order. -/
theorem handleEvents_calls (events : List Json) (r : Run) (hr : r.finished = false)
    (hlines : ∀ event ∈ events, ∀ r, handleBlock (eventLine event) r = handleEvent event r) :
    (handleBlocks (events.map eventLine) r).calls = r.calls ++ (upToEnd events).flatMap callsOf ∧
      (handleBlocks (events.map eventLine) r).finished = events.any ends ∧
      (handleBlocks (events.map eventLine) r).jobId =
        (upToEnd events).foldl (fun jobId event => (given event "job_id".toList).or jobId)
          r.jobId := by
  induction events generalizing r with
  | nil => exact ⟨(List.append_nil _).symm, hr, rfl⟩
  | cons event events ih =>
    obtain ⟨next, hnext⟩ : ∃ next : Run, next =
        ⟨(given event "job_id".toList).or r.jobId, r.calls ++ callsOf event, ends event⟩ := ⟨_, rfl⟩
    have hevent : handleBlock (eventLine event) r = next := by
      rw [hlines event List.mem_cons_self, handleEvent_eq, hr, Bool.false_or, hnext]
    rw [List.map_cons, handleBlocks, hevent, upToEnd, List.any_cons]
    rcases hends : ends event with _ | _
    · rw [hends] at hnext
      have hgoes : next.finished = false := by rw [hnext]
      obtain ⟨hcalls, hfinished, hjob⟩ := ih next hgoes fun other hin =>
        hlines other (List.mem_cons_of_mem _ hin)
      rw [hgoes, if_neg (Bool.noConfusion), if_neg (Bool.noConfusion), List.flatMap_cons,
        List.foldl_cons, Bool.false_or]
      refine ⟨?_, hfinished, ?_⟩
      · rw [hcalls, hnext, List.append_assoc]
      · rw [hjob, hnext]
    · rw [hends] at hnext
      rw [hnext, if_pos rfl, if_pos rfl, List.flatMap_singleton, Bool.true_or]
      exact ⟨rfl, rfl, rfl⟩

end Events

/-! ### Where the stream is cut does not matter -/

section Loop

variable {d : TextDecoder}

theorem handleBlocks_append (bs bs' : List Text) {r : Run} (hr : r.finished = false) :
    handleBlocks (bs ++ bs') r =
      if (handleBlocks bs r).finished then handleBlocks bs r
      else handleBlocks bs' (handleBlocks bs r) := by
  induction bs generalizing r with
  | nil =>
    rw [handleBlocks, if_neg (by rw [hr]; exact Bool.noConfusion)]
    rfl
  | cons b bs ih =>
    rw [List.cons_append, handleBlocks, handleBlocks]
    by_cases hfinished : (handleBlock b r).finished = true
    · rw [if_pos hfinished, if_pos hfinished, if_pos hfinished]
    · rw [if_neg hfinished, if_neg hfinished, ih (Bool.eq_false_iff.mpr hfinished)]

/-- What happens when the stream is over: `onDone`, unless `start` has returned or thrown. -/
def Run.over (r : Run) : Run := if r.finished then r else r.finish (.onDone none)

/-- **The loop handles the blocks of the whole stream**, wherever it is cut. The buffer holds no
complete block between two reads. -/
theorem readLoop_eq (state : d.State) (chunks : List (List UInt8)) {buffer : Text} {r : Run}
    (hbuffer : blocks buffer = []) (hr : r.finished = false) :
    readLoop d state buffer chunks r =
      (handleBlocks (blocks (buffer ++ d.decodeAll state chunks)) r).over := by
  induction chunks generalizing state buffer r with
  | nil =>
    rw [TextDecoder.decodeAll, List.append_nil, hbuffer, handleBlocks, Run.over,
      if_neg (by rw [hr]; exact Bool.noConfusion), readLoop]
  | cons value values ih =>
    rw [TextDecoder.decodeAll, ← List.append_assoc, blocks_append, handleBlocks_append _ _ hr,
      readLoop]
    by_cases hfinished :
        (handleBlocks (blocks (buffer ++ (d.decode state value).1)) r).finished = true
    · rw [if_pos hfinished, if_pos hfinished, Run.over, if_pos hfinished]
    · rw [if_neg hfinished, if_neg hfinished]
      exact ih _ (blocks_leftover _) (Bool.eq_false_iff.mpr hfinished)

end Loop

/-! ### The events arrive -/

section Arrive

theorem newline_notMem_eventLine (event : Json) : '\n' ∉ eventLine event := by
  delta eventLine
  rw [List.mem_append, not_or]
  exact ⟨by decide, Json.newline_notMem_dumps false event⟩

/-- The blocks of the stream are the lines of the events. -/
theorem blocks_encodeEvents (events : List Json) :
    blocks (encodeEvents events) = events.map eventLine := by
  have hsplit : splitBlocks (encodeEvents events) = events.map eventLine ++ [[]] := by
    induction events with
    | nil => rfl
    | cons event events ih =>
      have hcons : encodeEvents (event :: events) =
          eventLine event ++ '\n' :: '\n' :: encodeEvents events := by
        rw [encodeEvents, List.flatMap_cons, eventBlock, List.append_assoc]
        rfl
      rw [hcons, splitBlocks_line (newline_notMem_eventLine event), ih]
      rfl
  rw [blocks, hsplit, List.dropLast_concat]

theorem dataLines_eventLine {event : Json} (h : IsObject event) :
    dataLines (eventLine event) = [event.dumps false] := by
  obtain ⟨members, rfl⟩ := h
  have hsplit : (eventLine (.obj members)).splitOn '\n' = [eventLine (.obj members)] := by
    rw [List.splitOn_eq_splitOnP]
    refine List.splitOnP_eq_singleton fun c hc => beq_false_of_ne ?_
    rintro rfl
    exact newline_notMem_eventLine _ hc
  rw [dataLines, hsplit]
  rfl

/-- The block of an event is handled as the event. -/
theorem handleBlock_eventLine {event : Json} (h : IsObject event) (r : Run) :
    handleBlock (eventLine event) r = handleEvent event r := by
  rw [handleBlock, dataLines_eventLine h, if_neg (List.cons_ne_nil _ _)]
  have hjoin : joinLines [event.dumps false] = event.dumps false := List.flatten_singleton
  rw [hjoin, Json.parse_dumps]
  obtain ⟨members, rfl⟩ := h
  rfl

/-- **The events of the server are the events of the browser**, however the bytes are cut: what is
called is called for the events up to the first that ends the stream, in order; the texts passed
to `onToken` are together the tokens of these events; the job id is the last they have. -/
theorem start_encodeEvents (d : TextDecoder) (hd : d.Independent) (events : List Json)
    (hobjects : ∀ event ∈ events, IsObject event) (chunks : List (List UInt8))
    (hchunks : chunks.flatten = (encodeEvents events).utf8) :
    (start d chunks).calls = (upToEnd events).flatMap callsOf ++
        (if events.any ends then [] else [.onDone none]) ∧
      (start d chunks).calls.flatMap Call.token = (upToEnd events).flatMap tokenField ∧
      (start d chunks).jobId = (upToEnd events).foldl
        (fun jobId event => (given event "job_id".toList).or jobId) none := by
  have hmark : (encodeEvents events).head? ≠ some '\uFEFF' := by
    rcases events with _ | ⟨event, events⟩
    · exact nofun
    · exact fun heq => absurd (Option.some.inj heq) (by decide)
  obtain ⟨hcalls, hfinished, hjob⟩ := handleEvents_calls events ⟨none, [], false⟩ rfl
    fun event hin r => handleBlock_eventLine (hobjects event hin) r
  have hstart : start d chunks =
      (handleBlocks (events.map eventLine) ⟨none, [], false⟩).over := by
    rw [start, readLoop_eq _ _ rfl rfl, List.nil_append, hd _ _ hmark hchunks, blocks_encodeEvents]
  have hall : (start d chunks).calls = (upToEnd events).flatMap callsOf ++
      (if events.any ends then [] else [.onDone none]) := by
    rw [hstart, Run.over, hfinished]
    rcases events.any ends with _ | _
    · exact congrArg (· ++ [Call.onDone none]) hcalls
    · exact hcalls.trans (List.append_nil _).symm
  refine ⟨hall, ?_, ?_⟩
  · have hlast : (if events.any ends then [] else [Call.onDone none]).flatMap Call.token = [] := by
      split
      · rfl
      · rfl
    rw [hall, List.flatMap_append, hlast, List.append_nil, List.flatMap_assoc]
    exact congrArg (List.flatMap · (upToEnd events)) (funext token_callsOf)
  · rw [hstart, ← hjob, Run.over]
    split
    · rfl
    · rfl

/-- The decoder that takes one byte after the other. -/
def byteDecoder : TextDecoder := ⟨List UInt8, [], Text.decodeBytes⟩

theorem independent_byteDecoder : byteDecoder.Independent := by
  have hall : ∀ (chunks : List (List UInt8)) (pending : List UInt8),
      byteDecoder.decodeAll pending chunks = (Text.decodeBytes pending chunks.flatten).1 := by
    intro chunks
    induction chunks with
    | nil => exact fun _ => rfl
    | cons value values ih =>
      intro pending
      rw [List.flatten_cons, Text.decodeBytes_append]
      exact congrArg ((Text.decodeBytes pending value).1 ++ ·) (ih _)
  intro text chunks _ hchunks
  have htext := hall chunks []
  rw [hchunks, Text.decodeBytes_utf8] at htext
  exact htext

/-- A short answer, with a line feed, quotes and letters of two bytes. -/
def shortAnswer : List Json :=
  [.obj [("token".toList, .str "при\nвет".toList)], .obj [("token".toList, .str " \"x\"".toList)],
    .obj [("done".toList, .bool true)]]

/-- The stream of the short answer when every byte comes alone. -/
theorem start_encodeEvents_bytes :
    let chunks := (eventStream "7".toList shortAnswer).utf8.map fun b => [b]
    (start byteDecoder chunks).calls.flatMap Call.token =
      (upToEnd (jobEvent "7".toList :: shortAnswer)).flatMap tokenField := by
  have hobjects : ∀ event ∈ jobEvent "7".toList :: shortAnswer, IsObject event := by
    intro event hin
    simp only [jobEvent, shortAnswer, List.mem_cons, List.not_mem_nil, or_false] at hin
    rcases hin with rfl | rfl | rfl | rfl <;> exact ⟨_, rfl⟩
  have hchunks : ((eventStream "7".toList shortAnswer).utf8.map fun b => [b]).flatten =
      (eventStream "7".toList shortAnswer).utf8 := by
    rw [← List.flatMap_def, List.flatMap_singleton']
  exact (start_encodeEvents byteDecoder independent_byteDecoder _ hobjects _ hchunks).2.1

end Arrive

end Client

end AiAgent

import AiAgent.Command.Atomic
import AiAgent.Gateway.Moves

/-!
# The reader of an event stream

`LLMGateway.stream_events` follows the stream of one job with `xread`, from the first entry on,
while the other processes append to the stream and save the record of the job. It returns after an
event with `done`; and it returns after an event it makes up from the record, when `xread` has
failed or has timed out and the record it reads then says that the job is over or is gone.

The reader waits three times – for `xread`, for `get_job`, and for whoever takes what it yields –
and between two of its steps the others may write anything (`AiAgent.Gateway.FeedStep`). What it
yields is always the beginning of the stream, up to its first event with `done`
(`AiAgent.Gateway.throughDone`). A made up event, though, may come before events that were appended
while the job went on: when `xread` fails the reader asks the record before it has read what is
there, and when `xread` times out the job may end before the record is read
(`AiAgent.Gateway.not_delivered_failedRead`). Where that does not happen
(`AiAgent.Gateway.Unhurried`) nothing is lost (`AiAgent.Gateway.delivered_of_unhurried`).

The clients of a gateway without Redis get one error, and no stream.
-/

namespace AiAgent

namespace Gateway

open Command

/-! ### The reader -/

/-- Where `stream_events` stands. -/
inductive Phase where
  /-- Before `xread`. -/
  | reading
  /-- After `xread` has raised, before `get_job`. -/
  | failed
  /-- After `xread` has timed out, before `get_job`. -/
  | idle
  /-- With entries that are still to be yielded. -/
  | received (entries : List Event)
  /-- It has returned, after an event of the stream or after one it made up. -/
  | closed (synthetic : Option Event)

/-- A stream, its job, and its reader. -/
structure Feed where
  /-- The store. -/
  redis : Redis
  /-- Where the reader stands. -/
  phase : Phase
  /-- `last_id`: the number of the last entry that was yielded, zero at the start. -/
  lastId : ℕ
  /-- The events of the stream it has yielded. -/
  yielded : List Event
  /-- How many events were in the stream when the record became terminal, as long as it is. -/
  endedAt : Option ℕ

/-- The `count` of `xread`. -/
def xreadCount : ℕ := 100

/-- The event made up for a record that is terminal. -/
def terminalEvent (job : Job) : Event :=
  match job.status with
  | .failed =>
    match job.error with
    | none | some [] => Event.bare (.failed genericChatError)
    | some error => Event.bare (.failed error)
  | .cancelled => Event.bare .cancelled
  | _ => Event.bare .done

/-- The event made up for a job without a record. -/
def notFoundEvent : Event := Event.bare (.failed "Задача не найдена".toList)

namespace Feed

variable (jobId : JobId) (f : Feed)

/-- The stream. -/
def stream : List Event := f.redis.events jobId

/-- How many events were appended before the record became terminal: all of them, where it has
not. -/
def owed : ℕ := f.endedAt.getD (f.stream jobId).length

/-- `xread`: it raises, or it gives what comes after `last_id`, or nothing. -/
def xread (raises : Bool) : Feed :=
  match f.phase with
  | .reading =>
    if raises then { f with phase := .failed }
    else
      match ((f.stream jobId).drop f.lastId).take xreadCount with
      | [] => { f with phase := .idle }
      | entries => { f with phase := .received entries }
  | _ => f

/-- `get_job`, and what the reader makes of the record. -/
def getJob : Feed :=
  match f.phase, f.redis.job? jobId with
  | .failed, some job | .idle, some job =>
    if job.status.isTerminal then { f with phase := .closed (some (terminalEvent job)) }
    else { f with phase := .reading }
  | .failed, none => { f with phase := .reading }
  | .idle, none => { f with phase := .closed (some notFoundEvent) }
  | _, _ => f

/-- The next entry is yielded. -/
def deliver : Feed :=
  match f.phase with
  | .received (event :: entries) =>
    { f with
      lastId := f.lastId + 1
      yielded := f.yielded ++ [event]
      phase :=
        if event.isDone then .closed none
        else if entries = [] then .reading
        else .received entries }
  | _ => f

/-- Somebody writes. -/
def write (w : Write) : Feed :=
  { f with
    redis := f.redis.write w
    endedAt :=
      match w with
      | .set job =>
        if job.id = jobId then if job.status.isTerminal then some (f.owed jobId) else none
        else f.endedAt
      | _ => f.endedAt }

end Feed

/-- A step of the reader, or of somebody else. -/
inductive FeedStep where
  /-- A write of another process. -/
  | write (w : Write)
  /-- `xread`. -/
  | xread (raises : Bool)
  /-- `get_job`. -/
  | getJob
  /-- An entry is yielded. -/
  | deliver

/-- The state a step leaves. -/
def FeedStep.apply (jobId : JobId) : FeedStep → Feed → Feed
  | .write w, f => f.write jobId w
  | .xread raises, f => f.xread jobId raises
  | .getJob, f => f.getJob jobId
  | .deliver, f => f.deliver

/-- The reader is called: the stream and the record may be anything. -/
structure Opened (jobId : JobId) (f : Feed) : Prop where
  /-- It has not read yet. -/
  phase : f.phase = .reading
  /-- From the first entry on. -/
  lastId : f.lastId = 0
  /-- It has yielded nothing. -/
  yielded : f.yielded = []
  /-- Where the record is not terminal, it has not become so. -/
  live : f.endedAt = none ↔ ∀ job, f.redis.job? jobId = some job → job.status.isTerminal = false
  /-- It became terminal in the past. -/
  past : ∀ n, f.endedAt = some n → n ≤ (f.stream jobId).length

/-! ### What is asked of the reader -/

/-- A stream up to and including its first event with `done`. -/
def throughDone : List Event → List Event
  | [] => []
  | event :: events => if event.isDone then [event] else event :: throughDone events

/-- **Nothing is lost, and nothing is yielded twice.** -/
structure Delivered (jobId : JobId) (f : Feed) : Prop where
  /-- What was yielded is the beginning of the stream. -/
  inOrder : f.yielded <+: throughDone (f.stream jobId)
  /-- A reader that returns without making up an event has yielded the stream up to its end. -/
  complete : f.phase = .closed none → f.yielded = throughDone (f.stream jobId) ∧
    ∃ event ∈ f.yielded, event.isDone = true
  /-- A reader that makes up an event has yielded all that came before the end of the job. -/
  synthetic : ∀ event, f.phase ≠ .closed (some event) →
    (f.getJob jobId).phase = .closed (some event) → f.owed jobId ≤ f.yielded.length

/-- The reader has tried to read and has not looked at the record yet. -/
def Phase.isLooking : Phase → Bool
  | .failed | .idle => true
  | _ => false

/-- `xread` does not raise while an event from before the end of the job is still to be read, and
between an `xread` that raised or timed out and the look at the record the job does not end with
an event unread, nor is one appended for a job without a record. -/
def Unhurried (jobId : JobId) (f : Feed) : FeedStep → Prop
  | .xread true => f.phase = .reading → ∀ n, f.endedAt = some n → n ≤ f.yielded.length
  | .write (.set job) => f.phase.isLooking = true → job.id = jobId →
    job.status.isTerminal = true → f.endedAt = none → (f.stream jobId).length ≤ f.yielded.length
  | .write (.xadd k _) => f.phase = .idle → k = jobId → f.redis.job? jobId ≠ none
  | _ => True

/-! ### Streams up to their end -/

variable {jobId : JobId} {f : Feed}

theorem throughDone_append {events : List Event} (h : ∀ event ∈ events, event.isDone = false)
    (rest : List Event) : throughDone (events ++ rest) = events ++ throughDone rest := by
  induction events with
  | nil => rfl
  | cons event events ih =>
    obtain ⟨hevent, hevents⟩ := List.forall_mem_cons.mp h
    rw [List.cons_append, throughDone, hevent, if_neg Bool.false_ne_true, ih hevents]
    rfl

/-- What comes after the end does not count. -/
theorem throughDone_of_done {events : List Event} (h : ∀ event ∈ events, event.isDone = false)
    {last : Event} (hlast : last.isDone = true) (rest : List Event) :
    throughDone (events ++ last :: rest) = events ++ [last] := by
  rw [throughDone_append h, throughDone, if_pos hlast]

/-! ### What a write does to the stream and to the record -/

theorem stream_write (jobId : JobId) (f : Feed) (w : Write) :
    (f.write jobId w).stream jobId = f.stream jobId ∨
    ∃ event, w = .xadd jobId event ∧
      (f.write jobId w).stream jobId = f.stream jobId ++ [event] := by
  rcases w with _ | _ | ⟨k, event⟩ | _ | _ | _ | _ | _ | _
  case xadd =>
    rcases eq_or_ne k jobId with rfl | hne
    · refine .inr ⟨event, rfl, ?_⟩
      simp [Feed.stream, Feed.write, Redis.write, Redis.xadd]
    · refine .inl ?_
      simp [Feed.stream, Feed.write, Redis.write, Redis.xadd, hne.symm]
  all_goals exact .inl rfl

/-- A write that saves no record of the job leaves the record and what is noted of it alone. -/
theorem write_of_not_set (f : Feed) {w : Write} (h : ∀ job, w = .set job → job.id ≠ jobId) :
    (f.write jobId w).redis.job? jobId = f.redis.job? jobId ∧
      (f.write jobId w).endedAt = f.endedAt := by
  rcases w with job | _ | _ | _ | _ | _ | _ | _ | _
  case set =>
    have hne := h job rfl
    refine ⟨?_, ?_⟩
    · exact (Redis.job?_set f.redis job jobId).trans (if_neg hne.symm)
    · exact if_neg hne
  all_goals exact ⟨rfl, rfl⟩

/-! ### The invariant -/

/-- What holds at every moment of a reader that is not hurried. -/
structure Reads (jobId : JobId) (f : Feed) : Prop where
  /-- The last entry that was yielded is the last that was read. -/
  lastId : f.lastId = f.yielded.length
  /-- What was yielded is the beginning of the stream. -/
  inOrder : f.yielded <+: f.stream jobId
  /-- An event with `done` is the last one. -/
  going : f.phase ≠ .closed none → ∀ event ∈ f.yielded, event.isDone = false
  /-- The reader has returned after one. -/
  ended : f.phase = .closed none → ∃ events last, f.yielded = events ++ [last] ∧
    last.isDone = true ∧ ∀ event ∈ events, event.isDone = false
  /-- What was received comes next. -/
  next : ∀ entries, f.phase = .received entries → f.yielded ++ entries <+: f.stream jobId
  /-- What is noted of the end of the job. -/
  live : f.endedAt = none ↔ ∀ job, f.redis.job? jobId = some job → job.status.isTerminal = false
  /-- It is in the past. -/
  past : ∀ n, f.endedAt = some n → n ≤ (f.stream jobId).length
  /-- A reader that looks at the record has yielded what came before the end of the job. -/
  looks : f.phase.isLooking = true → ∀ n, f.endedAt = some n → n ≤ f.yielded.length
  /-- A reader that has waited in vain has yielded all there is, as long as nothing is known of
  the job. -/
  waits : f.phase = .idle → f.redis.job? jobId = none →
    (f.stream jobId).length ≤ f.yielded.length

theorem reads_of_opened (h : Opened jobId f) : Reads jobId f where
  lastId := by rw [h.lastId, h.yielded]; rfl
  inOrder := by rw [h.yielded]; exact List.nil_prefix
  going := by
    intro _ event hevent
    rw [h.yielded] at hevent
    cases hevent
  ended := by
    intro hphase
    rw [h.phase] at hphase
    cases hphase
  next := by
    intro entries hphase
    rw [h.phase] at hphase
    cases hphase
  live := h.live
  past := h.past
  looks := by
    intro hlooking
    rw [h.phase] at hlooking
    cases hlooking
  waits := by
    intro hphase
    rw [h.phase] at hphase
    cases hphase

namespace Reads

/-- The reader moves on to a phase in which it neither yields nor looks. -/
theorem withPhase (h : Reads jobId f) {phase : Phase} (hopen : f.phase ≠ .closed none)
    (hphase : phase ≠ .closed none)
    (hnext : ∀ entries, phase = .received entries → f.yielded ++ entries <+: f.stream jobId)
    (hlooks : phase.isLooking = true → ∀ n, f.endedAt = some n → n ≤ f.yielded.length)
    (hwaits : phase = .idle → f.redis.job? jobId = none →
      (f.stream jobId).length ≤ f.yielded.length) :
    Reads jobId { f with phase := phase } where
  lastId := h.lastId
  inOrder := h.inOrder
  going := fun _ => h.going hopen
  ended := fun hclosed => absurd hclosed hphase
  next := hnext
  live := h.live
  past := h.past
  looks := hlooks
  waits := hwaits

theorem withReading (h : Reads jobId f) (hopen : f.phase ≠ .closed none) :
    Reads jobId { f with phase := .reading } :=
  h.withPhase hopen nofun nofun nofun nofun

theorem withSynthetic (h : Reads jobId f) (hopen : f.phase ≠ .closed none) (event : Event) :
    Reads jobId { f with phase := .closed (some event) } :=
  h.withPhase hopen nofun nofun nofun nofun

theorem xread (h : Reads jobId f) {raises : Bool} (hok : Unhurried jobId f (.xread raises)) :
    Reads jobId (f.xread jobId raises) := by
  unfold Feed.xread
  split
  case h_2 => exact h
  next hphase =>
    have hopen : f.phase ≠ .closed none := by rw [hphase]; exact nofun
    split
    · next hraises =>
      subst hraises
      exact h.withPhase hopen nofun nofun (fun _ => hok hphase) nofun
    · obtain ⟨rest, hrest⟩ := h.inOrder
      have hdrop : (f.stream jobId).drop f.lastId = rest := by
        rw [h.lastId, ← hrest, List.drop_left]
      rw [hdrop]
      split
      · next hnone =>
        -- There was nothing to read, so everything was yielded.
        have hall : (f.stream jobId).length ≤ f.yielded.length := by
          have hempty : rest = [] := by
            rcases List.take_eq_nil_iff.mp hnone with hzero | hempty
            · exact absurd hzero (by decide)
            · exact hempty
          rw [← hrest, hempty, List.append_nil]
        exact h.withPhase hopen nofun nofun (fun _ n hn => (h.past n hn).trans hall)
          fun _ _ => hall
      · refine h.withPhase hopen nofun ?_ nofun nofun
        rintro entries ⟨⟩
        rw [← hrest]
        exact List.prefix_append_right_inj _ |>.mpr (List.take_prefix _ _)

theorem getJob (h : Reads jobId f) : Reads jobId (f.getJob jobId) := by
  unfold Feed.getJob
  split
  · next hphase _ =>
    have hopen : f.phase ≠ .closed none := by rw [hphase]; exact nofun
    split
    · exact h.withSynthetic hopen _
    · exact h.withReading hopen
  · next hphase _ =>
    have hopen : f.phase ≠ .closed none := by rw [hphase]; exact nofun
    split
    · exact h.withSynthetic hopen _
    · exact h.withReading hopen
  · next hphase _ => exact h.withReading (by rw [hphase]; exact nofun)
  · next hphase _ => exact h.withSynthetic (by rw [hphase]; exact nofun) _
  · exact h

theorem deliver (h : Reads jobId f) : Reads jobId f.deliver := by
  unfold Feed.deliver
  split
  case h_2 => exact h
  next event entries hphase =>
    have hgoing := h.going (by rw [hphase]; exact nofun)
    have hnext : (f.yielded ++ [event]) ++ entries <+: f.stream jobId := by
      rw [List.append_assoc]
      exact h.next _ hphase
    refine ⟨?_, (List.prefix_append _ _).trans hnext, ?_, ?_, ?_, h.live, h.past, ?_, ?_⟩
    · rw [List.length_append, h.lastId]
      rfl
    · intro hopen e he
      have hevent : event.isDone = false := by
        by_contra hdone
        exact hopen (if_pos (by simpa using hdone))
      rcases List.mem_append.mp he with he | he
      · exact hgoing e he
      · rw [List.mem_singleton.mp he]
        exact hevent
    · intro hclosed
      refine ⟨f.yielded, event, rfl, ?_, hgoing⟩
      by_contra hdone
      dsimp only at hclosed
      rw [if_neg hdone] at hclosed
      split at hclosed <;> cases hclosed
    · intro later hlater
      dsimp only at hlater
      split at hlater
      · cases hlater
      · split at hlater
        · cases hlater
        · cases hlater
          exact hnext
    · intro hlooking
      dsimp only at hlooking
      split at hlooking
      · cases hlooking
      · split at hlooking <;> cases hlooking
    · intro hidle
      dsimp only at hidle
      split at hidle
      · cases hidle
      · split at hidle <;> cases hidle

/-- A record of the job is saved. -/
theorem save (h : Reads jobId f) {job : Job} (hid : job.id = jobId)
    (hok : Unhurried jobId f (.write (.set job))) : Reads jobId (f.write jobId (.set job)) := by
  have hjob : (f.redis.set job).job? jobId = some job :=
    (Redis.job?_set f.redis job jobId).trans (if_pos hid.symm)
  have howed : f.owed jobId ≤ (f.stream jobId).length := by
    unfold Feed.owed
    rcases hend : f.endedAt with _ | n
    · exact le_refl _
    · exact h.past n hend
  have hended : (f.write jobId (.set job)).endedAt =
      if job.status.isTerminal then some (f.owed jobId) else none := if_pos hid
  refine ⟨h.lastId, h.inOrder, h.going, h.ended, h.next, ?_, ?_, ?_, ?_⟩
  · rw [hended]
    constructor
    · intro hnone found hfound
      obtain rfl := Option.some.inj (hjob.symm.trans hfound)
      by_contra hlive
      rw [if_pos (by simpa using hlive)] at hnone
      cases hnone
    · intro hlive
      rw [if_neg (by rw [hlive job hjob]; exact Bool.false_ne_true)]
  · intro n hn
    rw [hended] at hn
    split at hn
    · cases hn
      exact howed
    · cases hn
  · intro hlooking n hn
    rw [hended] at hn
    split at hn
    · next hterminal =>
      cases hn
      -- The record was terminal before, or it becomes so now, with nothing unread.
      unfold Feed.owed
      rcases hend : f.endedAt with _ | m
      · exact hok hlooking hid hterminal hend
      · exact h.looks hlooking m hend
    · cases hn
  · intro hidle hnone
    cases hjob.symm.trans hnone

theorem write (h : Reads jobId f) {w : Write} (hok : Unhurried jobId f (.write w)) :
    Reads jobId (f.write jobId w) := by
  by_cases hsaves : ∃ job, w = .set job ∧ job.id = jobId
  · obtain ⟨job, rfl, hid⟩ := hsaves
    exact h.save hid hok
  obtain ⟨hjob, hended⟩ := write_of_not_set f fun job hw hid =>
    hsaves ⟨job, hw, hid⟩
  have hgrows : f.stream jobId <+: (f.write jobId w).stream jobId := by
    rcases stream_write jobId f w with hsame | ⟨event, -, hmore⟩
    · exact hsame ▸ List.prefix_refl _
    · exact hmore ▸ List.prefix_append _ _
  refine ⟨h.lastId, h.inOrder.trans hgrows, h.going, h.ended,
    fun entries hphase => (h.next entries hphase).trans hgrows, ?_, ?_, ?_, ?_⟩
  · rw [hended, hjob]
    exact h.live
  · rw [hended]
    exact fun n hn => (h.past n hn).trans hgrows.length_le
  · rw [hended]
    exact h.looks
  · intro hidle hnone
    rw [hjob] at hnone
    rcases stream_write jobId f w with hsame | ⟨event, rfl, -⟩
    · exact hsame ▸ h.waits hidle hnone
    · exact absurd hnone (hok hidle rfl)

theorem apply (h : Reads jobId f) {x : FeedStep} (hok : Unhurried jobId f x) :
    Reads jobId (x.apply jobId f) := by
  rcases x with w | raises | _ | _
  · exact h.write hok
  · exact h.xread hok
  · exact h.getJob
  · exact h.deliver

/-- A look at the record ends the reader only when it was about to look. -/
theorem owed_le (h : Reads jobId f) {event : Event} (hopen : f.phase ≠ .closed (some event))
    (hclosed : (f.getJob jobId).phase = .closed (some event)) :
    f.owed jobId ≤ f.yielded.length := by
  have hterminal : ∀ job, f.phase.isLooking = true → f.redis.job? jobId = some job →
      job.status.isTerminal = true → f.owed jobId ≤ f.yielded.length := by
    intro job hlooking hjob hterminal
    unfold Feed.owed
    rcases hend : f.endedAt with _ | n
    · rw [h.live.mp hend job hjob] at hterminal
      cases hterminal
    · exact h.looks hlooking n hend
  unfold Feed.getJob at hclosed
  split at hclosed
  · next job hphase hjob =>
    split at hclosed
    · next hstatus => exact hterminal job (by rw [hphase]; rfl) hjob hstatus
    · cases hclosed
  · next job hphase hjob =>
    split at hclosed
    · next hstatus => exact hterminal job (by rw [hphase]; rfl) hjob hstatus
    · cases hclosed
  · cases hclosed
  · next hphase hjob =>
    have hnone : f.endedAt = none := h.live.mpr fun job hfound => by
      cases hjob.symm.trans hfound
    rw [Feed.owed, hnone]
    exact h.waits hphase hjob
  · exact absurd hclosed hopen

theorem delivered (h : Reads jobId f) : Delivered jobId f := by
  obtain ⟨rest, hrest⟩ := h.inOrder
  have hended : f.phase = .closed none → f.yielded = throughDone (f.stream jobId) := by
    intro hphase
    obtain ⟨events, last, hyielded, hlast, hevents⟩ := h.ended hphase
    rw [← hrest, hyielded, List.append_assoc, List.singleton_append,
      throughDone_of_done hevents hlast]
  refine ⟨?_, fun hphase => ⟨hended hphase, ?_⟩, fun event hopen hclosed => h.owed_le hopen hclosed⟩
  · by_cases hphase : f.phase = .closed none
    · exact hended hphase ▸ List.prefix_refl _
    · rw [← hrest, throughDone_append (h.going hphase)]
      exact List.prefix_append _ _
  · obtain ⟨events, last, hyielded, hlast, -⟩ := h.ended hphase
    refine ⟨last, ?_, hlast⟩
    rw [hyielded]
    exact List.mem_append_right _ List.mem_cons_self

end Reads

/-- **A reader that is not hurried loses nothing**, in every state of every run. -/
theorem delivered_of_unhurried
    (h : Reached (FeedStep.apply jobId) (Opened jobId) (Unhurried jobId) f) : Delivered jobId f :=
  (h.invariant (fun _ => reads_of_opened) fun _ _ hf hok => hf.apply hok).delivered

/-! ### Runs that are worked out -/

/-- A running job. -/
def answeringJob : Job :=
  runningRecord smallSettings (newJob smallSettings smallRequest 1 ⟨"m", 0⟩ .cpu 0) "w" 0

/-- A reader that is called when the job has just been claimed. -/
def openedFeed : Feed where
  redis := smallStore.set answeringJob
  phase := .reading
  lastId := 0
  yielded := []
  endedAt := none

theorem opened_openedFeed : Opened 1 openedFeed where
  phase := rfl
  lastId := rfl
  yielded := rfl
  live := by
    refine ⟨fun _ job hjob => ?_, fun _ => rfl⟩
    simpa using forall_of_all (p := fun job => !job.status.isTerminal) (by decide +kernel) job hjob
  past := nofun

/-- The feed after some steps. -/
def openedRun (steps : List FeedStep) : Feed :=
  steps.foldl (fun f x => x.apply 1 f) openedFeed

/-- The worker emits a token. -/
def tokenStep : FeedStep := .write (.xadd 1 (Event.bare (.token "hi".toList)))

/-- The worker saves the record of the answered job. -/
def completedStep : FeedStep := .write (.set (completedRecord answeringJob "hi".toList 0))

/-- A reader whose first `xread` fails, and that gets the token and then looks at the record before
the last event is appended. -/
def patientSteps : List FeedStep :=
  [.xread true, .getJob, tokenStep, .xread false, .deliver, completedStep, .xread false, .getJob]

theorem delivered_of_unhurried_failedRead :
    (openedRun patientSteps).phase = .closed (some (Event.bare .done)) ∧
      (openedRun patientSteps).yielded = [Event.bare (.token "hi".toList)] ∧
      Delivered 1 (openedRun patientSteps) := by
  have opened : Reached (FeedStep.apply 1) (Opened 1) (Unhurried 1) openedFeed :=
    .start opened_openedFeed
  have failed := (opened.step (.xread true) fun _ => nofun).step .getJob trivial
  have told := (failed.step tokenStep fun hidle => nomatch hidle).step (.xread false) trivial
  have completed := (told.step .deliver trivial).step completedStep fun hlooking => nomatch hlooking
  refine ⟨rfl, rfl, ?_⟩
  exact delivered_of_unhurried ((completed.step (.xread false) trivial).step .getJob trivial)

/-- **A reader whose `xread` fails once the job is over loses the answer**: the token is in the
stream, and the reader is about to make up the last event without having yielded it. -/
theorem not_delivered_failedRead :
    ¬∀ f, Reached (FeedStep.apply 1) (Opened 1) (fun _ _ => True) f → Delivered 1 f := by
  intro h
  have hrun : Reached (FeedStep.apply 1) (Opened 1) (fun _ _ => True)
      (openedRun [tokenStep, completedStep, .xread true]) :=
    (Reached.start opened_openedFeed).foldl _ fun _ _ _ => trivial
  have howed := (h _ hrun).synthetic (Event.bare .done) nofun rfl
  revert howed
  decide +kernel

end Gateway

end AiAgent

import AiAgent.Gateway.Talk
import AiAgent.Worker.Order
import AiAgent.Worker.Report

/-!
# Stream and record

Every attempt at a job appends its tokens to the one stream of the job, and the last attempt writes
the result. An attempt that was cut short leaves its tokens in the stream
(`AiAgent.Worker.not_agrees_secondAttempt`): nothing takes them out, and no event tells the reader
to begin again.

Where a job whose tokens are told is handed out only as long as there is none in its stream, and
where nobody emits for a job or reports it completed once another one has been handed it
(`AiAgent.Worker.truthful`), the stream says what the record says
(`AiAgent.Worker.agrees_of_truthful`).
-/

namespace AiAgent

namespace Worker

open Command Gateway

/-! ### What is asked of streams and records -/

/-- The stream says the text: as one result event, where the tokens are suppressed, and else token
by token. -/
def Desk.Says (d : Desk) (jobId : JobId) (suppressed : Bool) (text : Text) : Prop :=
  if suppressed then lastResult (d.redis.events jobId) = some text
  else tokensOf (d.redis.events jobId) = text

/-- **Stream and record agree**, for every job that ended completed with model output. -/
def Desk.Agrees (d : Desk) : Prop :=
  ∀ jobId job, d.redis.job? jobId = some job → job.jobKind ≠ .parse → job.status = .completed →
    Text.strip (d.outputs jobId) ≠ [] →
      ∃ text, job.result = some text ∧ d.Says jobId (suppresses job) text

/-- A job whose tokens are told is handed out without any in its stream, and who emits for a job or
reports it completed was the last to be handed it. -/
def truthful (w : Office) (e : Entry deskSig Duty Unit) : Bool :=
  (handed e.act).all (fun job => suppresses job || tokensOf (w.shared.redis.events job.id) = []) &&
    match e.act with
    | .command (.emitEvent jobId _) _ | .command (.markJobCompleted jobId _ _ _) _ =>
      lastHanded w.log jobId = some e.client
    | _ => true

/-- Runs in which streams are truthful. -/
def truthfulDuties (cfg : Settings) : Rules deskSig Desk Duty Unit where
  starts := fun _ => True
  guard := fun w e => (ordinary cfg w e && truthful w e) = true

/-! ### Streams -/

section Streams

variable {cfg : Settings} {d d' : Desk} {c : Call} {k jobId : JobId} {event : Event}

theorem hushed_callGateway {α : Type} {p : Gw α} (h : Hush p) (d : Desk) :
    d.redis.Hushed (d.callGateway p).2.redis :=
  Desk.callGateway_of_throughout (h.throughout d.redis)

/-- **What a call makes of the talk of a stream**: only `emit_event` tells anything, in the stream
of the job and in that of its root. -/
theorem talk_exec (cfg : Settings) (c : Call) (d : Desk) (k : JobId) :
    talk ((c.exec cfg d).2.redis.events k) = talk (d.redis.events k) ∨
      ∃ jobId event, c = .emitEvent jobId event ∧
        (k = jobId ∨ d.redis.distinctRoot jobId = some k) := by
  rcases c with m | ⟨workerId, workerPool, targetId, expectedTargetKind⟩ | ⟨a, uuid⟩ | _ | jobId |
    ⟨jobId, event⟩ | m | ⟨jobId, responseText, workerId, output⟩ | ⟨jobId, errorText, workerId⟩ |
    ⟨jobId, workerId⟩
  case move => exact .inl (hushed_apply cfg m d.redis k)
  case claimDispatchJob =>
    refine .inl ?_
    dsimp only [Call.exec]
    rw [alone_claimDispatchJob]
    exact hushed_claimDispatch d.redis workerId workerPool targetId expectedTargetKind k
  case enqueueJob => exact .inl (hushed_enqueueJob d.redis a uuid k)
  case time => exact .inl rfl
  case isCancelRequested => exact .inl (hushed_callGateway (hush_isCancelRequested jobId) d k)
  case emitEvent =>
    by_cases hother : k = jobId ∨ d.redis.distinctRoot jobId = some k
    · exact .inr ⟨jobId, event, rfl, hother⟩
    · obtain ⟨hself, hroot⟩ := not_or.mp hother
      have hevents := Desk.callGateway_of_throughout (events_cut_emitEvent jobId event d.redis) k
        hself hroot
      exact .inl (congrArg talk hevents)
  case appendMessage =>
    refine .inl ?_
    dsimp only [Call.exec]
    unfold Desk.callStore
    split
    · split <;> rfl
    · rfl
  case markJobCompleted =>
    exact .inl (hushed_callGateway (hush_markJobCompleted jobId responseText _) d k)
  case markJobFailed => exact .inl (hushed_callGateway (hush_markJobFailed jobId errorText _) d k)
  case markJobCancelled => exact .inl (hushed_callGateway (hush_markJobCancelled jobId _) d k)

/-- An event whose call does not raise is there. -/
theorem events_emitEvent (cfg : Settings)
    (hok :
      (Call.emitEvent jobId event).raises ((Call.emitEvent jobId event).exec cfg d).1 = false) :
    ((Call.emitEvent jobId event).exec cfg d).2.redis.events jobId =
      d.redis.events jobId ++ [event] := by
  show (d.callGateway (Gateway.emitEvent jobId event)).2.redis.events jobId = _
  have hok : (Call.emitEvent jobId event).raises (d.callGateway (Gateway.emitEvent jobId event)).1 =
      false := hok
  unfold Desk.callGateway at hok ⊢
  split at hok
  · cases hok
  · rw [alone_emitEvent]
    exact Redis.events_emit_self d.redis jobId event

theorem tokensOf_congr {l l' : List Event} (h : talk l = talk l') : tokensOf l = tokensOf l' := by
  rw [← tokensOf_talk l, h, tokensOf_talk]

theorem lastResult_congr {l l' : List Event} (h : talk l = talk l') :
    lastResult l = lastResult l' := by
  rw [← lastResult_talk l, h, lastResult_talk]

theorem says_congr (h : talk (d'.redis.events k) = talk (d.redis.events k)) (suppressed : Bool)
    (text : Text) : d'.Says k suppressed text ↔ d.Says k suppressed text := by
  unfold Desk.Says
  rw [tokensOf_congr h, lastResult_congr h]

/-- The outputs that are noted change with a report only. -/
theorem outputs_exec (cfg : Settings) (c : Call) (d : Desk) (k : JobId) :
    (c.exec cfg d).2.outputs k = d.outputs k ∨ ∃ text workerId output,
      c = .markJobCompleted k text workerId output ∧ (c.exec cfg d).2.outputs k = output := by
  have hgateway : ∀ {α : Type} (p : Gw α), (d.callGateway p).2.outputs = d.outputs := by
    intro α p
    unfold Desk.callGateway
    split <;> rfl
  rcases c with _ | _ | _ | _ | jobId | ⟨jobId, event⟩ | m | ⟨jobId, responseText, workerId,
    output⟩ |
    ⟨jobId, errorText, workerId⟩ | ⟨jobId, workerId⟩
  case isCancelRequested => exact .inl (congrFun (hgateway _) k)
  case emitEvent => exact .inl (congrFun (hgateway _) k)
  case markJobFailed => exact .inl (congrFun (hgateway _) k)
  case markJobCancelled => exact .inl (congrFun (hgateway _) k)
  case appendMessage =>
    refine .inl ?_
    dsimp only [Call.exec]
    unfold Desk.callStore
    split
    · split <;> rfl
    · rfl
  case markJobCompleted =>
    rcases eq_or_ne k jobId with rfl | hne
    · exact .inr ⟨responseText, workerId, output, rfl, Function.update_self _ _ _⟩
    · refine .inl ?_
      show Function.update (d.callGateway _).2.outputs jobId output k = d.outputs k
      rw [Function.update_of_ne hne, hgateway]
  all_goals exact .inl rfl

end Streams

/-! ### The invariant -/

/-- The stream says the text, where the execution that reported it had model output. -/
def Desk.Vouches (d : Desk) (spec : JobSpec) (text : Text) : Prop :=
  ∀ job : Job, job.toJobSpec = spec → Text.strip (d.outputs spec.id) ≠ [] →
    d.Says spec.id (suppresses job) text

/-- The job has not ended completed, and its stream says what the worker has emitted. -/
structure Desk.Stands (d : Desk) (job : Job) (told : Text) (result : Option Text) : Prop where
  /-- The record. -/
  status : ∀ r, d.redis.job? job.id = some r → r.status ≠ .completed
  /-- The tokens. -/
  tokens : suppresses job = false → tokensOf (d.redis.events job.id) = told
  /-- The result event. -/
  result : ∀ text, result = some text → lastResult (d.redis.events job.id) = some text

/-- **Streams say what records say**, and what the workers that hold the jobs have emitted. -/
structure Telling (w : Office) (g : ℕ → Post) : Prop where
  /-- The completed records. -/
  vouched : w.shared.redis.Vouched w.shared.Vouches
  /-- The jobs the workers have. -/
  held : ∀ i job, (g i).job? = some job → neverHanded w.log job.id = false ∧ job.jobKind ≠ .parse
  /-- Their records. -/
  spec : ∀ i job r, (g i).job? = some job → w.shared.redis.job? job.id = some r →
    r.toJobSpec = job.toJobSpec
  /-- What the last worker that was handed a job has emitted. -/
  stands : ∀ i job told result, (g i).told? = some (job, told, result) →
    lastHanded w.log job.id = some i → ∀ r, w.shared.redis.job? job.id = some r →
      w.shared.Stands job told result

theorem Post.job?_of_told? {t : Post} {job : Job} {told : Text} {result : Option Text}
    (h : t.told? = some (job, told, result)) : t.job? = some job := by
  rcases t with _ | _ | _ | _ | _ <;> cases h <;> rfl

theorem telling_fresh {d : Desk} (h : d.IsFresh) : Telling (.fresh d) fun _ => .free where
  vouched := vouched_pristine h.1 _
  held := fun _ _ hjob => by cases hjob
  spec := fun _ _ _ hjob => by cases hjob
  stands := fun _ _ _ _ htold => by cases htold

theorem suppresses_congr {job job' : Job} (h : job.toJobSpec = job'.toJobSpec) :
    suppresses job = suppresses job' := by
  unfold suppresses fileChatOf
  rw [congrArg JobSpec.jobKind h, congrArg JobSpec.fileChat h]

/-- A job that tells its tokens is no file chat, as file chats are told as a whole. -/
theorem fileChatOf_eq_none {s : Redis} (h : s.Usual) {k : JobId} {job : Job}
    (hjob : s.job? k = some job) (htells : suppresses job = false) : fileChatOf job = none := by
  rcases hfileChat : fileChatOf job with _ | fileChat
  · rfl
  · have hgiven : job.fileChat = some fileChat := by
      unfold fileChatOf at hfileChat
      split at hfileChat
      · exact hfileChat
      · cases hfileChat
    rw [suppresses, hfileChat, Option.any_some, h.fileChat k job fileChat hjob hgiven] at htells
    cases htells

section Step

variable {w : Office} {g : ℕ → Post} {cfg : Settings} {i : ℕ} {op : Duty} {c : Call}

/-- What is handed out was there, and is running now. -/
theorem job?_of_hands {d : Desk} (hkeyed : ∀ k job, d.redis.job? k = some job → job.id = k)
    {job : Job} (h : c.hands (c.exec cfg d).1 = some job) :
    (∃ old, d.redis.job? job.id = some old ∧ old.toJobSpec = job.toJobSpec) ∧
      (c.exec cfg d).2.redis.job? job.id = some job ∧ job.status = .running ∧
        job.jobKind ≠ .parse := by
  rcases c with _ | ⟨workerId, workerPool, targetId,
    expectedTargetKind⟩ | _ | _ | _ | _ | _ | _ | _ | _
  case claimDispatchJob =>
    rcases hclaimed : (alone (claimDispatchJob cfg workerId workerPool targetId expectedTargetKind)
      d.redis).1 with _ | job'
    · rw [show ((Call.claimDispatchJob workerId workerPool targetId expectedTargetKind).exec cfg
        d).1 = none from hclaimed] at h
      cases h
    · rw [show ((Call.claimDispatchJob workerId workerPool targetId expectedTargetKind).exec cfg
        d).1 = some job' from hclaimed] at h
      dsimp only [Call.hands] at h
      split at h
      · cases h
      next hkind =>
      obtain rfl := Option.some.inj h
      refine ⟨?_, job?_claimDispatchJob hclaimed, ?_, hkind⟩
      · obtain ⟨jobId, old, -, hold, hrunning⟩ := claimDispatchJob_eq_some hclaimed
        have hspec : old.toJobSpec = job'.toJobSpec := by rw [hrunning]; rfl
        refine ⟨old, ?_, hspec⟩
        rw [← congrArg JobSpec.id hspec, hkeyed jobId old hold]
        exact hold
      · obtain ⟨_, _, -, -, hrunning⟩ := claimDispatchJob_eq_some hclaimed
        rw [hrunning]
        rfl
  all_goals cases h

/-- The record of a job that was handed out comes out of one that was there. -/
theorem Telling.source (h : Telling w g) (hmay : conduct.may (g i) c)
    (hordinary : ordinary cfg w ⟨i, op, .command c (c.exec cfg w.shared).1⟩ = true) {k : JobId}
    (hk : neverHanded w.log k = false ∨ c.hands (c.exec cfg w.shared).1 ≠ none) {r : Job}
    (hr : (c.exec cfg w.shared).2.redis.job? k = some r) :
    ∃ old, w.shared.redis.job? k = some old ∧ Grown c.Reports old r := by
  obtain ⟨hregular, hnew⟩ := (Bool.and_eq_true _ _).mp hordinary
  rcases (grows_exec cfg h.vouched.toUsual hmay hregular).source k r hr with hold | hborn
  · exact hold
  exfalso
  rw [hborn.made, Option.all_some, hborn.none, Option.isSome_none, Bool.false_or] at hnew
  rcases hk with hk | hk
  · rw [hk] at hnew
    cases hnew
  · refine hk ?_
    have hmade := hborn.made
    rcases c with _ | _ | _ | _ | _ | _ | _ | _ | _ | _
    case claimDispatchJob => cases hmade
    all_goals rfl

/-- Only `emit_event` for the job itself tells anything in the stream of a job that is no parse
job. -/
theorem Telling.talk_kept (h : Telling w g) (cfg : Settings) (c : Call) {k : JobId} {r : Job}
    (hr : w.shared.redis.job? k = some r) (hkind : r.jobKind ≠ .parse) :
    talk ((c.exec cfg w.shared).2.redis.events k) = talk (w.shared.redis.events k) ∨
      ∃ event, c = .emitEvent k event := by
  rcases talk_exec cfg c w.shared k with hsame | ⟨jobId, event, rfl, rfl | hroot⟩
  · exact .inl hsame
  · exact .inr ⟨event, rfl⟩
  · obtain ⟨child, hchild, hfilter⟩ := Option.bind_eq_some_iff.mp hroot
    obtain ⟨hrootJobId, hne⟩ := Option.filter_eq_some_iff.mp hfilter
    exact absurd (h.vouched.root jobId child k r hchild hrootJobId (by simpa using hne) hr) hkind

/-- Who emits for a job, or reports it completed, holds it. -/
theorem Telling.stands_of_may (h : Telling w g) (hmay : conduct.may (g i) c) {r : c.Reply}
    (htruthful : truthful w ⟨i, op, .command c r⟩ = true) {k : JobId}
    (hc : (∃ event, c = .emitEvent k event) ∨
      ∃ text workerId output, c = .markJobCompleted k text workerId output) {old : Job}
    (hold : w.shared.redis.job? k = some old) :
    lastHanded w.log k = some i ∧ ∃ job told result, (g i).told? = some (job, told, result) ∧
      k = job.id ∧ w.shared.Stands job told result := by
  have hlast : lastHanded w.log k = some i := by
    have hhold := ((Bool.and_eq_true _ _).mp htruthful).2
    rcases hc with ⟨event, rfl⟩ | ⟨text, workerId, output, rfl⟩
    · exact of_decide_eq_true hhold
    · exact of_decide_eq_true hhold
  refine ⟨hlast, ?_⟩
  obtain ⟨job, told, result, htold, rfl⟩ :
      ∃ job told result, (g i).told? = some (job, told, result) ∧ k = job.id := by
    rcases hc with ⟨event, rfl⟩ | ⟨text, workerId, output, rfl⟩
    · obtain ⟨job, told, result, hpost, hid, -⟩ := hmay
      exact ⟨job, told, result, by rw [hpost]; rfl, hid⟩
    · obtain ⟨job, told, result, hpost, hid, -⟩ := hmay
      exact ⟨job, told, result, by rw [hpost]; rfl, hid⟩
  exact ⟨job, told, result, htold, rfl, h.stands i job told result htold hlast old hold⟩

/-- The completed records. -/
theorem Telling.vouched_exec (h : Telling w g) (hmay : conduct.may (g i) c)
    (hregular : c.regular cfg w.shared.redis = true)
    (htruthful : truthful w ⟨i, op, .command c (c.exec cfg w.shared).1⟩ = true) :
    (c.exec cfg w.shared).2.redis.Vouched (c.exec cfg w.shared).2.Vouches := by
  -- Nothing is told or noted of a job that is completed.
  have hkept : w.shared.redis.Vouched (c.exec cfg w.shared).2.Vouches := by
    refine h.vouched.mono fun job text hjob hkind hstatus hresult hvouches => ?_
    have hquiet : ∀ k, k = job.id → ¬((∃ event, c = .emitEvent k event) ∨
        ∃ text workerId output, c = .markJobCompleted k text workerId output) := by
      rintro k rfl hc
      obtain ⟨-, job', told, result, -, hid, hstands⟩ := h.stands_of_may hmay htruthful hc hjob
      rw [hid] at hjob
      exact hstands.status job hjob hstatus
    intro job' hspec houtput
    have hsame : (c.exec cfg w.shared).2.outputs job.id = w.shared.outputs job.id := by
      rcases outputs_exec cfg c w.shared job.id with hsame | ⟨text, workerId, output, hc, -⟩
      · exact hsame
      · exact absurd (.inr ⟨text, workerId, output, hc⟩) (hquiet job.id rfl)
    have htalk : talk ((c.exec cfg w.shared).2.redis.events job.id) =
        talk (w.shared.redis.events job.id) := by
      rcases h.talk_kept cfg c hjob hkind with hsame | hemit
      · exact hsame
      · exact absurd (.inl hemit) (hquiet job.id rfl)
    rw [hsame] at houtput
    exact (says_congr htalk _ _).mpr (hvouches job' hspec houtput)
  refine hkept.grows (grows_exec cfg h.vouched.toUsual hmay hregular) ?_
  -- What is reported is what was emitted.
  intro job text hjob hkind hreports
  rcases c with _ | _ | _ | _ | _ | _ | _ | ⟨jobId, responseText, workerId, output⟩ | _ | _
  case markJobCompleted =>
    obtain ⟨rfl, rfl⟩ := hreports
    obtain ⟨-, job₁, told₁, result₁, htold₁, hid₁, hstands⟩ := h.stands_of_may hmay htruthful
      (.inr ⟨text, workerId, output, rfl⟩) hjob
    obtain ⟨job', told, result, hpost, -, hfaithful⟩ := hmay
    rw [hpost] at htold₁
    obtain ⟨rfl, rfl, rfl⟩ : job' = job₁ ∧ told = told₁ ∧ result = result₁ := by
      simpa [Post.told?] using htold₁
    have hspec : job.toJobSpec = job'.toJobSpec :=
      h.spec i job' job (by rw [hpost]; rfl) (hid₁ ▸ hjob)
    have htalk := (talk_exec cfg (.markJobCompleted job.id text workerId output) w.shared
      job.id).resolve_right (by rintro ⟨_, _, ⟨⟩, -⟩)
    intro job₂ hspec₂ hnoted
    refine (says_congr htalk _ _).mpr ?_
    have houtput : Text.strip output ≠ [] := by
      rwa [show ((Call.markJobCompleted job.id text workerId output).exec cfg
        w.shared).2.outputs job.id = output from Function.update_self _ _ _] at hnoted
    rw [suppresses_congr (hspec₂.trans hspec), hid₁]
    unfold Desk.Says
    rcases hsuppresses : suppresses job' with _ | _
    · have hnone : fileChatOf job' = none := by
        have hjob' := fileChatOf_eq_none h.vouched.toUsual hjob
          ((suppresses_congr hspec).trans hsuppresses)
        rw [fileChatOf, congrArg JobSpec.jobKind hspec, congrArg JobSpec.fileChat hspec] at hjob'
        exact hjob'
      obtain ⟨rfl, rfl⟩ := hfaithful.tokens hnone
      rw [if_neg Bool.false_ne_true, answerText, if_neg houtput]
      exact hstands.tokens hsuppresses
    · exact hstands.result text (hfaithful.whole hsuppresses)
  all_goals exact hreports.elim

theorem neverHanded_cons {log : List (Entry deskSig Duty Unit)} {e : Entry deskSig Duty Unit}
    {k : JobId} (h : neverHanded log k = false) : neverHanded (e :: log) k = false := by
  unfold neverHanded at h ⊢
  rw [List.all_cons, h, Bool.and_false]

theorem neverHanded_of_handed {log : List (Entry deskSig Duty Unit)} {e : Entry deskSig Duty Unit}
    {job : Job} (h : handed e.act = some job) : neverHanded (e :: log) job.id = false := by
  unfold neverHanded
  rw [List.all_cons, h]
  simp

/-- What was emitted by an event, and where it stands then. -/
theorem stands_emit {t : Post} {jobId : JobId} {event : Event} {d : Desk}
    (hmay : conduct.may t (.emitEvent jobId event))
    (hok : (Call.emitEvent jobId event).raises ((Call.emitEvent jobId event).exec cfg d).1 = false)
    {job : Job} {told : Text} {result : Option Text}
    (htold : (t.emit event).told? = some (job, told, result)) :
    jobId = job.id ∧ ∃ told₀ result₀, t.told? = some (job, told₀, result₀) ∧
      ((suppresses job = false → tokensOf (d.redis.events job.id) = told₀) →
        suppresses job = false →
          tokensOf (((Call.emitEvent jobId event).exec cfg d).2.redis.events job.id) = told) ∧
      ((∀ text, result₀ = some text → lastResult (d.redis.events job.id) = some text) →
        ∀ text, result = some text →
          lastResult (((Call.emitEvent jobId event).exec cfg d).2.redis.events job.id) =
            some text) := by
  obtain ⟨job₀, told₀, result₀, rfl, rfl, text, ⟨rfl, -⟩ | rfl⟩ := hmay
  · obtain ⟨rfl, rfl, rfl⟩ : job₀ = job ∧ told₀ ++ text = told ∧ result₀ = result := by
      simpa [Post.emit, Post.told?, Event.bare] using htold
    refine ⟨rfl, told₀, result₀, rfl, fun htokens hsuppresses => ?_, fun hresult text' htext' => ?_⟩
    · rw [events_emitEvent cfg hok, ← htokens hsuppresses]
      simp [tokensOf, Event.bare]
    · rw [events_emitEvent cfg hok, ← hresult text' htext']
      simp [lastResult, Event.bare, Event.result?, List.filterMap_append]
  · obtain ⟨rfl, rfl, rfl⟩ : job₀ = job ∧ told₀ = told ∧ some text = result := by
      simpa [Post.emit, Post.told?, Event.bare] using htold
    refine ⟨rfl, told₀, result₀, rfl, fun htokens hsuppresses => ?_, fun _ text' htext' => ?_⟩
    · rw [events_emitEvent cfg hok, ← htokens hsuppresses]
      simp [tokensOf, Event.bare]
    · rw [events_emitEvent cfg hok, ← htext']
      simp [lastResult, Event.bare, Event.result?, List.filterMap_append]

/-- The worker that has moved. -/
theorem Telling.stands_self (h : Telling w g) (hmay : conduct.may (g i) c)
    (hordinary : ordinary cfg w ⟨i, op, .command c (c.exec cfg w.shared).1⟩ = true)
    (htruthful : truthful w ⟨i, op, .command c (c.exec cfg w.shared).1⟩ = true) {job : Job}
    {told : Text} {result : Option Text}
    (htold : ((g i).next c (c.exec cfg w.shared).1).told? = some (job, told, result))
    (hlast : lastHanded (⟨i, op, .command c (c.exec cfg w.shared).1⟩ :: w.log) job.id = some i)
    {r : Job} (hr : (c.exec cfg w.shared).2.redis.job? job.id = some r) :
    (c.exec cfg w.shared).2.Stands job told result := by
  rcases Post.next_told htold with ⟨hhands, rfl, rfl⟩ | hemitted
  · -- It was just handed the job, which is running.
    obtain ⟨⟨old, hold, hspec⟩, hstored, hrunning, hkind⟩ :=
      job?_of_hands h.vouched.keyed hhands
    have hnothing : ¬∃ event, c = .emitEvent job.id event := by
      rintro ⟨event, rfl⟩
      cases hhands
    have htalk := (h.talk_kept cfg c hold
      (by rwa [congrArg JobSpec.jobKind hspec])).resolve_right hnothing
    refine ⟨fun r' hr' => ?_, fun hsuppresses => ?_, fun _ hnone => by cases hnone⟩
    · obtain rfl := Option.some.inj (hstored.symm.trans hr')
      rw [hrunning]
      exact Status.noConfusion
    · have hguard := ((Bool.and_eq_true _ _).mp htruthful).1
      dsimp only [Worker.handed] at hguard
      rw [hhands, Option.all_some, hsuppresses, Bool.false_or] at hguard
      rw [tokensOf_congr htalk]
      exact of_decide_eq_true hguard
  -- It had the job before.
  have hhad : ∃ told₀ result₀, (g i).told? = some (job, told₀, result₀) := by
    rcases hemitted with ⟨jobId, event, rfl, hok, hemit⟩ | ⟨hsame, -, -⟩
    · obtain ⟨-, told₀, result₀, htold₀, -, -⟩ := stands_emit hmay hok hemit
      exact ⟨told₀, result₀, htold₀⟩
    · exact ⟨told, result, hsame⟩
  obtain ⟨told₀, result₀, htold₀⟩ := hhad
  have hjob := Post.job?_of_told? htold₀
  have hfree : (g i) ≠ .free := by
    intro hfree
    rw [hfree] at hjob
    cases hjob
  have hnothing : ∀ job', handed (.command c (c.exec cfg w.shared).1) = some job' →
      job'.id ≠ job.id := by
    intro job' hhanded
    rcases c with _ | _ | _ | _ | _ | _ | _ | _ | _ | _
    case claimDispatchJob => exact absurd hmay hfree
    all_goals cases hhanded
  rw [lastHanded_cons hnothing] at hlast
  obtain ⟨old, hold, -⟩ := h.source hmay hordinary (.inl (h.held i job hjob).1) hr
  have hstands := h.stands i job told₀ result₀ htold₀ hlast old hold
  have hspec := h.spec i job old hjob hold
  have hkind : old.jobKind ≠ .parse := by
    rw [congrArg JobSpec.jobKind hspec]
    exact (h.held i job hjob).2
  have hstatus : (∀ jobId text workerId output, c ≠ .markJobCompleted jobId text workerId output) →
      ∀ r', (c.exec cfg w.shared).2.redis.job? job.id = some r' → r'.status ≠ .completed := by
    intro hmark r' hr' hcompleted
    obtain ⟨old', hold', hgrown⟩ := h.source hmay hordinary (.inl (h.held i job hjob).1) hr'
    obtain rfl := Option.some.inj (hold.symm.trans hold')
    rcases hgrown.completed hcompleted hkind with ⟨hbefore, -⟩ | ⟨text, -, hreports⟩
    · exact hstands.status old hold hbefore
    · rcases c with _ | _ | _ | _ | _ | _ | _ | _ | _ | _
      case markJobCompleted => exact hmark _ _ _ _ rfl
      all_goals exact hreports.elim
  rcases hemitted with ⟨jobId, event, rfl, hok, hemit⟩ | ⟨hsame, hnoEvent, hnoMark⟩
  · obtain ⟨-, told₁, result₁, htold₁, htokens, hresult⟩ := stands_emit hmay hok hemit
    rw [htold₀] at htold₁
    obtain ⟨-, rfl, rfl⟩ : job = job ∧ told₀ = told₁ ∧ result₀ = result₁ := by simpa using htold₁
    exact ⟨hstatus fun _ _ _ _ => Call.noConfusion, htokens hstands.tokens, hresult hstands.result⟩
  · rw [htold₀] at hsame
    obtain ⟨-, rfl, rfl⟩ : job = job ∧ told₀ = told ∧ result₀ = result := by simpa using hsame
    have htalk := (h.talk_kept cfg c hold hkind).resolve_right
      (by rintro ⟨event, rfl⟩; exact hnoEvent _ _ rfl)
    refine ⟨hstatus hnoMark, fun hsuppresses => ?_, fun text htext => ?_⟩
    · rw [tokensOf_congr htalk]
      exact hstands.tokens hsuppresses
    · rw [lastResult_congr htalk]
      exact hstands.result text htext

/-- The workers that have not moved. -/
theorem Telling.stands_other (h : Telling w g) (hmay : conduct.may (g i) c)
    (hordinary : ordinary cfg w ⟨i, op, .command c (c.exec cfg w.shared).1⟩ = true)
    (htruthful : truthful w ⟨i, op, .command c (c.exec cfg w.shared).1⟩ = true) {j : ℕ}
    (hne : j ≠ i) {job : Job} {told : Text} {result : Option Text}
    (htold : (g j).told? = some (job, told, result))
    (hlast : lastHanded (⟨i, op, .command c (c.exec cfg w.shared).1⟩ :: w.log) job.id = some j)
    {r : Job} (hr : (c.exec cfg w.shared).2.redis.job? job.id = some r) :
    (c.exec cfg w.shared).2.Stands job told result := by
  have hnothing : ∀ job', handed (.command c (c.exec cfg w.shared).1) = some job' →
      job'.id ≠ job.id := by
    intro job' hhanded hid
    rw [← hid, lastHanded_of_handed hhanded] at hlast
    exact hne (Option.some.inj hlast).symm
  rw [lastHanded_cons hnothing] at hlast
  have hjob := Post.job?_of_told? htold
  obtain ⟨old, hold, -⟩ := h.source hmay hordinary (.inl (h.held j job hjob).1) hr
  have hstands := h.stands j job told result htold hlast old hold
  have hkind : old.jobKind ≠ .parse := by
    rw [congrArg JobSpec.jobKind (h.spec j job old hjob hold)]
    exact (h.held j job hjob).2
  -- The worker that has moved does not hold the job, so it has neither emitted nor reported.
  have hquiet : ¬((∃ event, c = .emitEvent job.id event) ∨
      ∃ text workerId output, c = .markJobCompleted job.id text workerId output) := by
    intro hc
    have hlast' := (h.stands_of_may hmay htruthful hc hold).1
    rw [hlast] at hlast'
    exact hne (Option.some.inj hlast')
  have htalk := (h.talk_kept cfg c hold hkind).resolve_right fun hemit =>
    hquiet (.inl hemit)
  refine ⟨fun r' hr' hcompleted => ?_, fun hsuppresses => ?_, fun text htext => ?_⟩
  · obtain ⟨old', hold', hgrown⟩ := h.source hmay hordinary (.inl (h.held j job hjob).1) hr'
    obtain rfl := Option.some.inj (hold.symm.trans hold')
    rcases hgrown.completed hcompleted hkind with ⟨hbefore, -⟩ | ⟨text, -, hreports⟩
    · exact hstands.status old hold hbefore
    · rcases c with _ | _ | _ | _ | _ | _ | _ | ⟨jobId, responseText, workerId, output⟩ | _ | _
      case markJobCompleted =>
        obtain ⟨hid, -⟩ := hreports
        rw [h.vouched.keyed job.id old hold] at hid
        rw [hid] at hquiet
        exact hquiet (.inr ⟨responseText, workerId, output, rfl⟩)
      all_goals exact hreports.elim
  · rw [tokensOf_congr htalk]
    exact hstands.tokens hsuppresses
  · rw [lastResult_congr htalk]
    exact hstands.result text htext

/-- **A call keeps the invariant.** -/
theorem Telling.command (h : Telling w g) (hmay : conduct.may (g i) c)
    (hg : (truthfulDuties cfg).guard w ⟨i, op, .command c (c.exec cfg w.shared).1⟩)
    (task : Option (Task deskSig Duty Unit)) :
    Telling (w.record i op (.command c (c.exec cfg w.shared).1) (c.exec cfg w.shared).2 task)
      (Function.update g i ((g i).next c (c.exec cfg w.shared).1)) := by
  obtain ⟨hordinary, htruthful⟩ := (Bool.and_eq_true _ _).mp hg
  have hregular : c.regular cfg w.shared.redis = true := ((Bool.and_eq_true _ _).mp hordinary).1
  -- The worker that has moved has what it had, or what it was just handed.
  have hjob : ∀ {job}, ((g i).next c (c.exec cfg w.shared).1).job? = some job →
      (g i).job? = some job ∨ c.hands (c.exec cfg w.shared).1 = some job :=
    fun hnext => Post.job?_next hnext
  constructor
  · exact h.vouched_exec hmay hregular htruthful
  · intro j job hpost
    rcases eq_or_ne j i with rfl | hne
    · rw [Function.update_self] at hpost
      rcases hjob hpost with hold | hhands
      · obtain ⟨hlog, hkind⟩ := h.held j job hold
        exact ⟨neverHanded_cons hlog, hkind⟩
      · exact ⟨neverHanded_of_handed hhands, (job?_of_hands h.vouched.keyed hhands).2.2.2⟩
    · rw [Function.update_of_ne hne] at hpost
      obtain ⟨hlog, hkind⟩ := h.held j job hpost
      exact ⟨neverHanded_cons hlog, hkind⟩
  · intro j job r hpost hr
    rw [World.record_shared] at hr
    have hheld : (g j).job? = some job → r.toJobSpec = job.toJobSpec := by
      intro hold
      obtain ⟨old, hstored, hgrown⟩ := h.source hmay hordinary (.inl (h.held j job hold).1) hr
      exact hgrown.spec.trans (h.spec j job old hold hstored)
    rcases eq_or_ne j i with rfl | hne
    · rw [Function.update_self] at hpost
      rcases hjob hpost with hold | hhands
      · exact hheld hold
      · have hstored := (job?_of_hands h.vouched.keyed hhands).2.1
        rw [Option.some.inj (hr.symm.trans hstored)]
    · rw [Function.update_of_ne hne] at hpost
      exact hheld hpost
  · intro j job told result htold hlast r hr
    rcases eq_or_ne j i with rfl | hne
    · rw [Function.update_self] at htold
      exact h.stands_self hmay hordinary htruthful htold hlast hr
    · rw [Function.update_of_ne hne] at htold
      exact h.stands_other hmay hordinary htruthful hne htold hlast hr

/-- What is no call. -/
theorem Telling.still (h : Telling w g) (i : ℕ) (op : Duty) {a : Act deskSig Unit}
    (ha : handed a = none)
    (task : Option (Task deskSig Duty Unit)) {t : Post} (ht : t = g i ∨ t = .free) :
    Telling (w.record i op a w.shared task) (Function.update g i t) := by
  have hnothing : ∀ jobId job, handed a = some job → job.id ≠ jobId := fun jobId job hjob => by
    rw [ha] at hjob
    cases hjob
  have hpost : ∀ j job, (Function.update g i t j).job? = some job → (g j).job? = some job := by
    intro j job hj
    rcases eq_or_ne j i with rfl | hne
    · rw [Function.update_self] at hj
      rcases ht with rfl | rfl
      · exact hj
      · cases hj
    · rwa [Function.update_of_ne hne] at hj
  refine ⟨h.vouched, fun j job hj => ?_, fun j job r hj => h.spec j job r (hpost j job hj), ?_⟩
  · obtain ⟨hlog, hkind⟩ := h.held j job (hpost j job hj)
    exact ⟨neverHanded_cons hlog, hkind⟩
  · intro j job told result hj hlast
    rw [World.record_log, lastHanded_cons (hnothing job.id)] at hlast
    rcases eq_or_ne j i with rfl | hne
    · rw [Function.update_self] at hj
      rcases ht with rfl | rfl
      · exact h.stands j job told result hj hlast
      · cases hj
    · rw [Function.update_of_ne hne] at hj
      exact h.stands j job told result hj hlast

theorem telling_tied (cfg : Settings) (lowerCase : Text → Text) :
    Tied (office cfg lowerCase) (truthfulDuties cfg) Desk.IsFresh conduct (fun _ => Post.free)
      (fun _ _ _ => True) Telling where
  body := fun duty _ => obeys_duty lowerCase duty
  init := fun d hd => ⟨_, telling_fresh hd⟩
  start := fun w g i duty h _ _ => h.still i duty rfl _ (.inr rfl)
  command := fun w g i duty c k h _ _ hmay _ hg => ⟨_, rfl, h.command hmay hg _⟩
  finish := fun w g i duty a h _ _ => by
    have hsame := h.still i duty (a := .finish a) rfl none (.inl rfl)
    rwa [Function.update_eq_self] at hsame
  crash := fun w g i duty p h _ => by
    have hsame := h.still i duty (a := .crash) rfl none (.inl rfl)
    rwa [Function.update_eq_self] at hsame
  outside := fun w g d h hd => hd.elim

end Step

/-- **Where streams are truthful they say what the records say**, in every run of any handlers,
workers and other processes. -/
theorem agrees_of_truthful (cfg : Settings) (lowerCase : Text → Text) {w : Office}
    (hw : Reachable (office cfg lowerCase) (truthfulDuties cfg) Desk.IsFresh w) :
    w.shared.Agrees := by
  obtain ⟨g, htelling, -⟩ := hw.ghosts (telling_tied cfg lowerCase)
  intro jobId job hjob hkind hstatus houtput
  obtain ⟨text, hresult, hvouches⟩ := htelling.vouched.completed jobId job hjob hkind hstatus
  have hid := htelling.vouched.keyed jobId job hjob
  subst hid
  exact ⟨text, hresult, hvouches job rfl houtput⟩

/-! ### Runs that are worked out -/

instance (cfg : Settings) (duty : Duty) : Decidable ((truthfulDuties cfg).starts duty) :=
  inferInstanceAs (Decidable True)

instance (cfg : Settings) (w : Office) (e : Entry deskSig Duty Unit) :
    Decidable ((truthfulDuties cfg).guard w e) := inferInstanceAs (Decidable (_ = true))

/-- One worker that answers one job. -/
theorem agrees_of_truthful_smallDesk : ∃ w : Office,
    tokensOf (w.shared.redis.events 2) = "hi".toList ∧ w.shared.Agrees := by
  obtain ⟨w, -, hw, -, hp⟩ := World.exists_of_play (Y := office smallSettings id)
    (R := truthfulDuties smallSettings) isFresh_smallDesk (quickTurns false) []
    (p := fun w _ => tokensOf (w.shared.redis.events 2) = "hi".toList) (by decide +kernel)
  exact ⟨w, of_decide_eq_true hp, agrees_of_truthful smallSettings id hw⟩

/-- The worker dies after it has emitted its token, its lease ends, and another one gets the job. -/
def retryTurns : List (Turn Duty) :=
  [.start 0 (.apiChat smallIncoming 2), .next 0, .next 0, .start 1 smallAdmitting, .next 1,
    .start 2 smallServing] ++ List.replicate 5 (.next 2) ++
  [.crash 2, .start 3 (.control (.tick 31000)), .next 3,
    .start 4 (.control (.op .requeueStaleJobs)), .next 4, .start 5 smallAdmitting, .next 5,
    .start 6 smallServing] ++ List.replicate 7 (.next 6)

/-- **A second attempt tells the tokens again.** -/
theorem not_agrees_secondAttempt :
    ¬∀ w : Office, Reachable (office smallSettings id) (ordinaryDuties smallSettings)
      Desk.IsFresh w →
      w.shared.Agrees := by
  intro h
  obtain ⟨w, -, hw, -, hp⟩ := World.exists_of_play (Y := office smallSettings id)
    (R := ordinaryDuties smallSettings) isFresh_smallDesk retryTurns []
    (p := fun w _ => tokensOf (w.shared.redis.events 2) = "hihi".toList ∧
      Text.strip (w.shared.outputs 2) ≠ [] ∧ ((w.shared.redis.job? 2).any fun job =>
        job.jobKind ≠ .parse ∧ job.status = .completed ∧ job.result = some "hi".toList ∧
          suppresses job = false) = true) (by decide +kernel)
  obtain ⟨htokens, houtput, hstored⟩ := of_decide_eq_true hp
  obtain ⟨job, hjob, hfacts⟩ := (Option.any_eq_true _ _).mp hstored
  obtain ⟨hkind, hstatus, hresult, hsuppresses⟩ := of_decide_eq_true hfacts
  obtain ⟨text, htext, hsays⟩ := h w hw 2 job hjob hkind hstatus houtput
  obtain rfl := Option.some.inj (hresult.symm.trans htext)
  rw [hsuppresses, Desk.Says, if_neg Bool.false_ne_true, htokens] at hsays
  exact absurd hsays (by decide)

end Worker

end AiAgent

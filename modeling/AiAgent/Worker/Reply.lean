import AiAgent.Worker.Order
import AiAgent.Worker.Report

/-!
# At most one answer for a job

The answer is appended to the conversation first and the job is reported completed second, and
nothing ties the two writes together. A report that raises is caught by an `except` clause that
appends another answer (`AiAgent.Worker.not_oneReply_raisingReport`); a job that is claimed again
after its worker has died between the two is answered again; and a worker that is only slow, and
has lost its lease, appends its answer beside that of its successor.

These are all the ways. Where a job is claimed only as long as it has no answer, where no worker
appends an answer once another one has been handed the job (`AiAgent.Worker.fenced`), and where no
call that raises is followed by an answer to a job that has one (`AiAgent.Worker.Uncaught`), every
job has one answer at most, and the result of a completed job is that answer
(`AiAgent.Worker.oneReply_of_fenced`).
-/

namespace AiAgent

namespace Worker

open Command Gateway

/-! ### What is asked of the conversations -/

/-- **One answer for a job**: at most one was appended, and where the job ended completed, one was,
and it is the result. -/
def Desk.OneReply (d : Desk) : Prop :=
  ∀ jobId, (d.replies jobId).length ≤ 1 ∧
    ∀ job, d.redis.job? jobId = some job → job.jobKind ≠ .parse → job.status = .completed →
      ∃ text, job.result = some text ∧ d.replies jobId = [text]

/-- The call appends an answer for the job. -/
def Call.answers (jobId : JobId) (c : Call) : Prop :=
  ∃ m, c = .appendMessage m ∧ m.role = .assistant ∧ m.jobId = jobId

/-- The job has no answer, and the call, which raises, appends none. -/
def Desk.unanswered (d : Desk) (c : Call) (jobId : JobId) : Prop :=
  d.replies jobId = [] ∧ ∀ m, c = .appendMessage m →
    ∀ fault, d.faults.head? = some (some fault) → fault.after = 0

/-- A job that has an answer is not claimed, and who appends an answer was the last to be handed the
job. -/
def fenced (w : Office) (e : Entry deskSig Duty Unit) : Bool :=
  match e.act with
  | .command (.claimDispatchJob ..) job => job.all fun job => w.shared.replies job.id = []
  | .command (.appendMessage m) _ => m.role = .user || lastHanded w.log m.jobId = some e.client
  | _ => true

/-- No call that raises is followed by an answer to a job that has one. -/
def Uncaught (w : Office) (e : Entry deskSig Duty Unit) : Prop :=
  ∀ op c k r, w.tasks e.client = some ⟨op, .ask c k⟩ → e.act = .command c r → c.raises r = true →
    (k r).Only fun c' : Call => ∀ jobId, c'.answers jobId → w.shared.unanswered c jobId

/-- Runs in which a job is answered once. -/
def fencedDuties (cfg : Settings) : Rules deskSig Desk Duty Unit where
  starts := fun _ => True
  guard := fun w e => ordinary cfg w e = true ∧ fenced w e = true ∧ Uncaught w e

/-! ### Answers -/

section Answers

variable {cfg : Settings} {d d' : Desk} {c : Call} {jobId : JobId} {m : Remark}

theorem replies_congr (h : d'.said = d.said) (jobId : JobId) :
    d'.replies jobId = d.replies jobId := by
  unfold Desk.replies
  rw [h]

theorem replies_tell (h : d'.said = d.said ++ [m]) (jobId : JobId) :
    d'.replies jobId = d.replies jobId ∨ m.role = .assistant ∧ m.jobId = jobId ∧
      d'.replies jobId = d.replies jobId ++ [m.content] := by
  unfold Desk.replies
  rw [h, List.filter_append, List.map_append]
  by_cases hanswer : m.role = .assistant ∧ m.jobId = jobId
  · refine .inr ⟨hanswer.1, hanswer.2, ?_⟩
    rw [List.filter_cons_of_pos (by simpa using hanswer)]
    rfl
  · refine .inl ?_
    rw [List.filter_cons_of_neg (by simpa using hanswer)]
    exact List.append_nil _

/-- What a call does to the answers of a job. -/
theorem replies_exec (cfg : Settings) (c : Call) (d : Desk) (jobId : JobId) :
    (c.exec cfg d).2.replies jobId = d.replies jobId ∨ ∃ m, c = .appendMessage m ∧
      m.role = .assistant ∧ m.jobId = jobId ∧
        (c.exec cfg d).2.replies jobId = d.replies jobId ++ [m.content] := by
  rcases said_exec cfg c d with hsame | ⟨m, rfl, htold⟩
  · exact .inl (replies_congr hsame jobId)
  · rcases replies_tell htold jobId with hsame | ⟨hrole, hid, hreplies⟩
    · exact .inl hsame
    · exact .inr ⟨m, rfl, hrole, hid, hreplies⟩

/-- An answer whose call does not raise is there. -/
theorem replies_appendMessage (cfg : Settings) (hrole : m.role = .assistant)
    (hok : (Call.appendMessage m).raises ((Call.appendMessage m).exec cfg d).1 = false) :
    ((Call.appendMessage m).exec cfg d).2.replies m.jobId = d.replies m.jobId ++ [m.content] := by
  have htold : ((Call.appendMessage m).exec cfg d).2.said = d.said ++ [m] := by
    rcases d.said_callStore m with htold | ⟨-, e, herror⟩
    · exact htold
    · rw [show ((Call.appendMessage m).exec cfg d).1 = .error e from herror] at hok
      cases hok
  unfold Desk.replies
  rw [htold, List.filter_append, List.map_append,
    List.filter_cons_of_pos (by simpa using hrole)]
  rfl

/-- A job that is not answered by a call that raises has no answer after it. -/
theorem replies_of_unanswered (h : d.unanswered c jobId)
    (hraises : c.raises (c.exec cfg d).1 = true) :
    (c.exec cfg d).2.replies jobId = [] := by
  rcases c with _ | _ | _ | _ | _ | _ | m | _ | _ | _
  case appendMessage =>
    -- It has raised before it has appended.
    have hsame : ((Call.appendMessage m).exec cfg d).2.said = d.said := by
      show (d.callStore m).2.said = d.said
      have hraises : (Call.appendMessage m).raises (d.callStore m).1 = true := hraises
      unfold Desk.callStore at hraises ⊢
      split at hraises
      · next fault faults hfaults =>
        have hafter : fault.after = 0 := h.2 m rfl fault (by rw [hfaults]; rfl)
        dsimp only
        rw [if_pos hafter]
      · cases hraises
    rw [replies_congr hsame]
    exact h.1
  all_goals
    rcases replies_exec cfg _ d jobId with hsame | ⟨m, hm, -⟩
    · exact hsame.trans h.1
    · cases hm

end Answers

/-! ### The invariant -/

/-- **Every job has one answer at most**, and who may still append one either holds a job without an
answer or has nothing left to append. -/
structure Single (w : Office) (g : ℕ → Post) : Prop where
  /-- The completed records. -/
  vouched : w.shared.redis.Vouched fun spec text => w.shared.replies spec.id = [text]
  /-- The answers. -/
  once : ∀ jobId, (w.shared.replies jobId).length ≤ 1
  /-- Who has appended nothing, or has caught an exception. -/
  waiting : ∀ i op p job, w.tasks i = some ⟨op, p⟩ → (g i).CanReply job →
    lastHanded w.log job.id = some i →
      w.shared.replies job.id = [] ∨ p.Only fun c : Call => ¬c.answers job.id
  /-- Who has appended an answer. -/
  replied : ∀ i job text told result, g i = .replied job text told result →
    w.shared.replies job.id = [text]

theorem single_fresh {d : Desk} (h : d.IsFresh) : Single (.fresh d) fun _ => .free where
  vouched := vouched_pristine h.1 _
  once := fun jobId => by
    have hnil : d.replies jobId = [] := by
      unfold Desk.replies
      rw [h.2]
      rfl
    rw [show (World.fresh d : Office).shared = d from rfl, hnil]
    exact Nat.zero_le 1
  waiting := fun i op p job htask => by cases htask
  replied := fun i job text told result hpost => by cases hpost

section Step

variable {w : Office} {g : ℕ → Post} {cfg : Settings} {lowerCase : Text → Text} {i : ℕ}
  {op : Duty} {c : Call} {k : c.Reply → Clerk Unit}

/-- A job that is handed out has no answer. -/
theorem replies_of_hands {r : c.Reply} (hfenced : fenced w ⟨i, op, .command c r⟩ = true) {job : Job}
    (hhands : c.hands r = some job) : w.shared.replies job.id = [] := by
  rcases c with _ | _ | _ | _ | _ | _ | _ | _ | _ | _
  case claimDispatchJob =>
    rcases r with _ | job'
    · cases hhands
    · dsimp only [Call.hands] at hhands
      split at hhands
      · cases hhands
      · obtain rfl := Option.some.inj hhands
        exact of_decide_eq_true hfenced
  all_goals cases hhands

/-- What an answer that may be appended finds. -/
theorem Single.replies_of_answers (h : Single w g) (hi : w.tasks i = some ⟨op, .ask c k⟩)
    (hmay : conduct.may (g i) c) {r : c.Reply}
    (hfenced : fenced w ⟨i, op, .command c r⟩ = true) {jobId : JobId} (hanswers : c.answers jobId) :
    w.shared.replies jobId = [] ∧ lastHanded w.log jobId = some i := by
  obtain ⟨m, rfl, hrole, rfl⟩ := hanswers
  have hlast : lastHanded w.log m.jobId = some i := by
    have hfenced : (decide (m.role = .user) || decide (lastHanded w.log m.jobId = some i)) = true :=
      hfenced
    simpa [hrole] using hfenced
  rcases hmay with huser | ⟨job, hpost, hm⟩
  · rw [hrole] at huser
    cases huser
  have hid : m.jobId = job.id := by rw [hm]; rfl
  rw [hid] at hlast ⊢
  refine ⟨?_, hlast⟩
  rcases h.waiting i op _ job hi hpost hlast with hnone | honly
  · exact hnone
  · exact absurd ⟨m, rfl, hrole, hid⟩ honly.1

/-- What a call makes of the answers of a job: nothing, or it appends the first one. -/
theorem Single.replies_exec (h : Single w g) (hi : w.tasks i = some ⟨op, .ask c k⟩)
    (hmay : conduct.may (g i) c)
    (hfenced : fenced w ⟨i, op, .command c (c.exec cfg w.shared).1⟩ = true) (jobId : JobId) :
    (c.exec cfg w.shared).2.replies jobId = w.shared.replies jobId ∨
      c.answers jobId ∧ w.shared.replies jobId = [] ∧ lastHanded w.log jobId = some i ∧
        ∃ text, (c.exec cfg w.shared).2.replies jobId = [text] := by
  rcases Worker.replies_exec cfg c w.shared jobId with hsame | ⟨m, hm, hrole, hid, hafter⟩
  · exact .inl hsame
  · obtain ⟨hnone, hlast⟩ := h.replies_of_answers hi hmay hfenced ⟨m, hm, hrole, hid⟩
    rw [hnone] at hafter
    exact .inr ⟨⟨m, hm, hrole, hid⟩, hnone, hlast, m.content, hafter⟩

/-- An answer stays the only one. -/
theorem Single.replies_stay (h : Single w g) (hi : w.tasks i = some ⟨op, .ask c k⟩)
    (hmay : conduct.may (g i) c)
    (hfenced : fenced w ⟨i, op, .command c (c.exec cfg w.shared).1⟩ = true) {jobId : JobId}
    {text : Text} (hreplies : w.shared.replies jobId = [text]) :
    (c.exec cfg w.shared).2.replies jobId = [text] := by
  rcases h.replies_exec hi hmay hfenced jobId with hsame | ⟨-, hnone, -⟩
  · exact hsame.trans hreplies
  · rw [hnone] at hreplies
    cases hreplies

/-- The completed records. -/
theorem Single.vouched_exec (h : Single w g) (hi : w.tasks i = some ⟨op, .ask c k⟩)
    (hmay : conduct.may (g i) c) (hregular : c.regular cfg w.shared.redis = true)
    (hfenced : fenced w ⟨i, op, .command c (c.exec cfg w.shared).1⟩ = true) :
    (c.exec cfg w.shared).2.redis.Vouched fun spec text =>
      (c.exec cfg w.shared).2.replies spec.id = [text] := by
  have hvouched := h.vouched.grows (grows_exec cfg h.vouched.toUsual hmay hregular) ?_
  · exact hvouched.mono fun job text _ _ _ _ hreplies => h.replies_stay hi hmay hfenced hreplies
  -- What is reported is what was appended.
  intro job text _ _ hreports
  rcases c with _ | _ | _ | _ | _ | _ | _ | ⟨jobId, responseText, workerId, output⟩ | _ | _
  case markJobCompleted =>
    obtain ⟨hid, rfl⟩ := hreports
    obtain ⟨job', told, result, hpost, hid', -⟩ := hmay
    rw [hid, hid']
    exact h.replied i job' text told result hpost
  all_goals exact hreports.elim

/-- The worker that has moved. -/
theorem Single.waiting_self (h : Single w g) (hi : w.tasks i = some ⟨op, .ask c k⟩)
    (hmay : conduct.may (g i) c)
    (hfenced : fenced w ⟨i, op, .command c (c.exec cfg w.shared).1⟩ = true)
    (huncaught : Uncaught w ⟨i, op, .command c (c.exec cfg w.shared).1⟩) {job : Job}
    (hpost : ((g i).next c (c.exec cfg w.shared).1).CanReply job)
    (hlast : lastHanded (⟨i, op, .command c (c.exec cfg w.shared).1⟩ :: w.log) job.id = some i) :
    (c.exec cfg w.shared).2.replies job.id = [] ∨
      (k (c.exec cfg w.shared).1).Only fun c : Call => ¬c.answers job.id := by
  rcases Post.canReply_next hpost with hhands | ⟨hold, huser⟩ | ⟨hraises, -⟩
  · -- The job was handed out without an answer.
    refine .inl ?_
    rcases h.replies_exec hi hmay hfenced job.id with hsame | ⟨⟨m, rfl, -⟩, -⟩
    · exact hsame.trans (replies_of_hands hfenced hhands)
    · cases hhands
  · -- It could reply before, and has not.
    have hnothing : ∀ job', handed (.command c (c.exec cfg w.shared).1) = some job' →
        job'.id ≠ job.id := by
      intro job' hhanded
      rcases c with _ | _ | _ | _ | _ | _ | _ | _ | _ | _
      case claimDispatchJob =>
        rw [show g i = .free from hmay] at hold
        exact hold.elim
      all_goals cases hhanded
    rw [lastHanded_cons hnothing] at hlast
    rcases h.waiting i op _ job hi hold hlast with hnone | honly
    · refine .inl ?_
      rcases h.replies_exec hi hmay hfenced job.id with hsame | ⟨⟨m, hm, hrole, -⟩, -⟩
      · exact hsame.trans hnone
      · rw [huser m hm] at hrole
        cases hrole
    · exact .inr (honly.2 _)
  · -- It has raised.
    have honly := huncaught op c k _ hi rfl hraises
    by_cases hunanswered : w.shared.unanswered c job.id
    · exact .inl (replies_of_unanswered hunanswered hraises)
    · exact .inr (honly.mono fun c' hc' hanswers => hunanswered (hc' job.id hanswers))

/-- The workers that have not moved. -/
theorem Single.waiting_other (h : Single w g) (hi : w.tasks i = some ⟨op, .ask c k⟩)
    (hmay : conduct.may (g i) c)
    (hfenced : fenced w ⟨i, op, .command c (c.exec cfg w.shared).1⟩ = true) {j : ℕ} (hne : j ≠ i)
    {op' : Duty} {p : Clerk Unit} (hj : w.tasks j = some ⟨op', p⟩) {job : Job}
    (hpost : (g j).CanReply job)
    (hlast : lastHanded (⟨i, op, .command c (c.exec cfg w.shared).1⟩ :: w.log) job.id = some j) :
    (c.exec cfg w.shared).2.replies job.id = [] ∨ p.Only fun c : Call => ¬c.answers job.id := by
  -- Nobody else was handed the job by this step.
  have hnothing : ∀ job', handed (.command c (c.exec cfg w.shared).1) = some job' →
      job'.id ≠ job.id := by
    intro job' hhanded hid
    rw [← hid, lastHanded_of_handed hhanded] at hlast
    exact hne (Option.some.inj hlast).symm
  rw [lastHanded_cons hnothing] at hlast
  rcases h.waiting j op' p job hj hpost hlast with hnone | honly
  · refine .inl ?_
    rcases h.replies_exec hi hmay hfenced job.id with hsame | ⟨-, -, hlast', -⟩
    · exact hsame.trans hnone
    · rw [hlast] at hlast'
      exact absurd (Option.some.inj hlast') hne
  · exact .inr honly

/-- The worker that has moved, once it has appended an answer. -/
theorem Single.replied_self (h : Single w g) (hi : w.tasks i = some ⟨op, .ask c k⟩)
    (hmay : conduct.may (g i) c)
    (hfenced : fenced w ⟨i, op, .command c (c.exec cfg w.shared).1⟩ = true) {job : Job}
    {text told : Text} {result : Option Text}
    (hpost : (g i).next c (c.exec cfg w.shared).1 = .replied job text told result) :
    (c.exec cfg w.shared).2.replies job.id = [text] := by
  rcases Post.next_eq_replied hpost with hold | ⟨hold, hok, m, rfl, hrole, rfl⟩
  · exact h.replies_stay hi hmay hfenced (h.replied i job text told result hold)
  · have hassistant : m.role = .assistant := by
      rcases hm : m.role with _ | _
      · exact absurd hm hrole
      · rfl
    have hid : m.jobId = job.id := by
      rcases hmay with huser | ⟨job', hpost', hm⟩
      · exact absurd huser hrole
      · rw [hold] at hpost'
        rw [hm, show job = job' from hpost']
        rfl
    have hanswers : (Call.appendMessage m).answers job.id := ⟨m, rfl, hassistant, hid⟩
    have hnone := (h.replies_of_answers hi hmay hfenced hanswers).1
    have hafter := replies_appendMessage cfg hassistant hok
    rw [hid, hnone] at hafter
    exact hafter

/-- **A call keeps the invariant.** -/
theorem Single.command (h : Single w g) (hi : w.tasks i = some ⟨op, .ask c k⟩)
    (hmay : conduct.may (g i) c)
    (hg : (fencedDuties cfg).guard w ⟨i, op, .command c (c.exec cfg w.shared).1⟩) :
    Single (w.record i op (.command c (c.exec cfg w.shared).1) (c.exec cfg w.shared).2
        (some ⟨op, k (c.exec cfg w.shared).1⟩))
      (Function.update g i ((g i).next c (c.exec cfg w.shared).1)) := by
  obtain ⟨hordinary, hfenced, huncaught⟩ := hg
  have hregular : c.regular cfg w.shared.redis = true := ((Bool.and_eq_true _ _).mp hordinary).1
  constructor
  · exact h.vouched_exec hi hmay hregular hfenced
  · intro jobId
    rw [World.record_shared]
    rcases h.replies_exec hi hmay hfenced jobId with hsame | ⟨-, -, -, text, hafter⟩
    · rw [hsame]
      exact h.once jobId
    · rw [hafter]
      exact le_refl 1
  · intro j op' p job hj hpost hlast
    rw [World.record_tasks] at hj
    rcases eq_or_ne j i with rfl | hne
    · rw [Function.update_self] at hj hpost
      obtain ⟨rfl, rfl⟩ := Task.mk.inj (Option.some.inj hj)
      exact h.waiting_self hi hmay hfenced huncaught hpost hlast
    · rw [Function.update_of_ne hne] at hj hpost
      exact h.waiting_other hi hmay hfenced hne hj hpost hlast
  · intro j job text told result hpost
    rcases eq_or_ne j i with rfl | hne
    · rw [Function.update_self] at hpost
      exact h.replied_self hi hmay hfenced hpost
    · rw [Function.update_of_ne hne] at hpost
      exact h.replies_stay hi hmay hfenced (h.replied j job text told result hpost)

/-- What is no call, and leaves no program that was not there. -/
theorem Single.still (h : Single w g) (i : ℕ) (op : Duty) {a : Act deskSig Unit}
    (ha : handed a = none)
    {task : Option (Task deskSig Duty Unit)} {t : Post} (ht : (task = none ∧ t = g i) ∨ t = .free) :
    Single (w.record i op a w.shared task) (Function.update g i t) := by
  have hlast : ∀ jobId, lastHanded (⟨i, op, a⟩ :: w.log) jobId = lastHanded w.log jobId :=
    fun jobId => lastHanded_cons fun job hjob => by
      rw [ha] at hjob
      cases hjob
  refine ⟨h.vouched, h.once, ?_, ?_⟩
  · intro j op' p job hj hpost hholds
    rw [World.record_log, hlast] at hholds
    rw [World.record_tasks] at hj
    rcases eq_or_ne j i with rfl | hne
    · rw [Function.update_self] at hj hpost
      rcases ht with ⟨rfl, -⟩ | rfl
      · cases hj
      · exact hpost.elim
    · rw [Function.update_of_ne hne] at hj hpost
      exact h.waiting j op' p job hj hpost hholds
  · intro j job text told result hpost
    rcases eq_or_ne j i with rfl | hne
    · rw [Function.update_self] at hpost
      rcases ht with ⟨-, rfl⟩ | rfl
      · exact h.replied j job text told result hpost
      · cases hpost
    · rw [Function.update_of_ne hne] at hpost
      exact h.replied j job text told result hpost

theorem single_tied (cfg : Settings) (lowerCase : Text → Text) :
    Tied (office cfg lowerCase) (fencedDuties cfg) Desk.IsFresh conduct (fun _ => Post.free)
      (fun _ _ _ => True) Single where
  body := fun duty _ => obeys_duty lowerCase duty
  init := fun d hd => ⟨_, single_fresh hd⟩
  start := fun w g i duty h _ _ => h.still i duty rfl (.inr rfl)
  command := fun w g i duty c k h hi _ hmay _ hg => ⟨_, rfl, h.command hi hmay hg⟩
  finish := fun w g i duty a h _ _ => by
    have hsame := h.still i duty (a := .finish a) rfl (.inl ⟨rfl, rfl⟩)
    rwa [Function.update_eq_self] at hsame
  crash := fun w g i duty p h _ => by
    have hsame := h.still i duty (a := .crash) rfl (.inl ⟨rfl, rfl⟩)
    rwa [Function.update_eq_self] at hsame
  outside := fun w g d h hd => hd.elim

end Step

/-- **Where jobs are fenced they have one answer at most**, in every run of any handlers, workers
and other processes. -/
theorem oneReply_of_fenced (cfg : Settings) (lowerCase : Text → Text) {w : Office}
    (hw : Reachable (office cfg lowerCase) (fencedDuties cfg) Desk.IsFresh w) :
    w.shared.OneReply := by
  obtain ⟨g, hsingle, -⟩ := hw.ghosts (single_tied cfg lowerCase)
  refine fun jobId => ⟨hsingle.once jobId, fun job hjob hkind hstatus => ?_⟩
  obtain ⟨text, hresult, hreplies⟩ := hsingle.vouched.completed jobId job hjob hkind hstatus
  rw [hsingle.vouched.keyed jobId job hjob] at hreplies
  exact ⟨text, hresult, hreplies⟩

/-! ### Runs that are worked out -/

/-- Runs in which moreover no call raises. -/
def calmDuties (cfg : Settings) : Rules deskSig Desk Duty Unit where
  starts := fun _ => True
  guard := fun w e => (ordinary cfg w e && fenced w e && match e.act with
    | .command c r => !c.raises r
    | _ => true) = true

theorem fenced_of_calm {cfg : Settings} {w : Office} {e : Entry deskSig Duty Unit}
    (h : (calmDuties cfg).guard w e) : (fencedDuties cfg).guard w e := by
  obtain ⟨hfenced, hcalm⟩ := (Bool.and_eq_true _ _).mp h
  obtain ⟨hordinary, hfenced⟩ := (Bool.and_eq_true _ _).mp hfenced
  refine ⟨hordinary, hfenced, fun op c k r _ hact hraises => ?_⟩
  rw [hact] at hcalm
  dsimp only at hcalm
  rw [hraises] at hcalm
  cases hcalm

instance (cfg : Settings) (duty : Duty) : Decidable ((calmDuties cfg).starts duty) :=
  inferInstanceAs (Decidable True)

instance (cfg : Settings) (w : Office) (e : Entry deskSig Duty Unit) :
    Decidable ((calmDuties cfg).guard w e) := inferInstanceAs (Decidable (_ = true))

/-- One worker that answers one job. -/
theorem oneReply_of_fenced_smallDesk : ∃ w : Office,
    w.shared.replies 2 = ["hi".toList] ∧ w.shared.OneReply := by
  obtain ⟨w, -, hw, -, hp⟩ := World.exists_of_play (Y := office smallSettings id)
    (R := calmDuties smallSettings) isFresh_smallDesk (quickTurns false) []
    (p := fun w _ => w.shared.replies 2 = ["hi".toList]) (by decide +kernel)
  exact ⟨w, of_decide_eq_true hp, oneReply_of_fenced smallSettings id
    (hw.weaken (fun _ _ => trivial) fun _ _ => fenced_of_calm)⟩

/-- A desk at which the report of the first completed job raises before anything is written. -/
def raisingDesk : Desk :=
  { smallDesk with faults := [none, none, none, none, none, some ⟨0, false⟩] }

/-- **A report that raises gets the job a second answer.** -/
theorem not_oneReply_raisingReport :
    ¬∀ w : Office, Reachable (office smallSettings id) (ordinaryDuties smallSettings)
      Desk.IsFresh w →
      w.shared.OneReply := by
  intro h
  have hfresh : raisingDesk.IsFresh := isFresh_smallDesk
  obtain ⟨w, -, hw, -, hp⟩ := World.exists_of_play (Y := office smallSettings id)
    (R := ordinaryDuties smallSettings) hfresh (quickTurns false ++ [.next 2, .next 2]) []
    (p := fun w _ => w.shared.replies 2 = ["hi".toList, genericChatError]) (by decide +kernel)
  have hone := (h w hw 2).1
  rw [of_decide_eq_true hp] at hone
  exact absurd hone (by decide)

end Worker

end AiAgent

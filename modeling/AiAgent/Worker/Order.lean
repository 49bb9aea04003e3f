import AiAgent.Worker.Conduct

/-!
# A question before its answer

The three request handlers enqueue the job first and append its question second, and in between the
job may be admitted, claimed and answered: then the answer stands before its question
(`AiAgent.Worker.not_ordered_quickWorker`), and every later prompt is made of a conversation in that
order. Where no worker claims a job whose question has not been appended
(`AiAgent.Worker.punctual`), every stored answer has its question before it
(`AiAgent.Worker.ordered_of_punctual`).
-/

namespace AiAgent

namespace Worker

open Command Gateway

/-! ### What is asked of a conversation -/

/-- **Every stored answer has its question before it**, in the thread as it is stored or among the
messages that were cut off in front of it. -/
def Desk.Ordered (d : Desk) : Prop :=
  ∀ username threadId pre a post, d.history username threadId = pre ++ a :: post →
    a.role = .assistant →
    ∃ q ∈ d.forgotten username threadId ++ pre, q.asks a.requestId = true

/-- The question of the job stands in its thread. -/
def Desk.asked (d : Desk) (job : Job) : Bool :=
  (d.thread job.username (resolveJobThreadId job)).any fun q => q.asks (requestOf job)

/-- No worker claims a job whose question has not been appended. A parse job is not answered. -/
def punctual (w : Office) (e : Entry deskSig Duty Unit) : Bool :=
  (handed e.act).all w.shared.asked

/-- Runs in which nothing is asked of the steps. -/
def allDuties : Rules deskSig Desk Duty Unit where
  starts := fun _ => True
  guard := fun _ _ => True

/-- Runs in which workers are punctual. -/
def punctualDuties : Rules deskSig Desk Duty Unit where
  starts := fun _ => True
  guard := fun w e => punctual w e = true

/-! ### Threads -/

variable {d d' : Desk} {job : Job} {username : String} {threadId : Text} {r : Remark}

theorem forgotten_append_history (d : Desk) (username : String) (threadId : Text) :
    d.forgotten username threadId ++ d.history username threadId = d.thread username threadId :=
  List.take_append_drop _ _

theorem thread_tell (h : d'.said = d.said ++ [r]) (username : String) (threadId : Text) :
    d'.thread username threadId = d.thread username threadId ∨
      r.username = username ∧ r.threadId = threadId ∧
        d'.thread username threadId = d.thread username threadId ++ [r] := by
  unfold Desk.thread
  rw [h, List.filter_append]
  by_cases hthread : r.username = username ∧ r.threadId = threadId
  · refine .inr ⟨hthread.1, hthread.2, ?_⟩
    rw [List.filter_cons_of_pos (by simpa using hthread), List.filter_nil]
  · refine .inl ?_
    rw [List.filter_cons_of_neg (by simpa using hthread), List.filter_nil, List.append_nil]

/-- What was asked stays asked. -/
theorem asked_of_prefix (h : d.said <+: d'.said) (hasked : d.asked job = true) :
    d'.asked job = true := by
  obtain ⟨later, hlater⟩ := h
  unfold Desk.asked Desk.thread at hasked ⊢
  rw [← hlater, List.filter_append, List.any_append, hasked, Bool.true_or]

/-- Every answer in the list has its question before it. -/
def Answered (l : List Remark) : Prop :=
  ∀ pre a post, l = pre ++ a :: post → a.role = .assistant → ∃ q ∈ pre, q.asks a.requestId = true

theorem answered_append {l : List Remark} (h : Answered l)
    (hr : r.role = .assistant → ∃ q ∈ l, q.asks r.requestId = true) : Answered (l ++ [r]) := by
  intro pre a post hsplit ha
  rcases List.eq_nil_or_concat post with rfl | ⟨post', last, rfl⟩
  · obtain ⟨rfl, hlast⟩ := List.append_inj' hsplit rfl
    obtain rfl := (List.cons.inj hlast).1
    exact hr ha
  · -- The answer is not the last message.
    have hinit : l = pre ++ a :: post' := by
      have hsplit' : l ++ [r] = (pre ++ a :: post') ++ [last] := by
        rw [hsplit, List.concat_eq_append, List.append_assoc, List.cons_append]
      exact (List.append_inj' hsplit' rfl).1
    exact h pre a post' hinit ha

theorem ordered_of_answered (h : ∀ username threadId, Answered (d.thread username threadId)) :
    d.Ordered := by
  intro username threadId pre a post hsplit ha
  refine h username threadId (d.forgotten username threadId ++ pre) a post ?_ ha
  rw [← forgotten_append_history, hsplit, List.append_assoc]

/-! ### The invariant -/

/-- Every thread is in order, and the question of every job a worker has was appended. -/
structure Punctual (w : Office) (g : ℕ → Post) : Prop where
  /-- The threads. -/
  answered : ∀ username threadId, Answered (w.shared.thread username threadId)
  /-- The jobs. -/
  asked : ∀ i job, (g i).job? = some job → w.shared.asked job = true

theorem punctual_fresh (h : d.IsFresh) : Punctual (.fresh d) fun _ => .free where
  answered := by
    intro username threadId pre a post hsplit
    have hnil : d.thread username threadId = [] := by
      unfold Desk.thread
      rw [h.2]
      rfl
    rw [show (World.fresh d : Office).shared = d from rfl, hnil] at hsplit
    exact absurd hsplit.symm (List.append_ne_nil_of_right_ne_nil _ (List.cons_ne_nil _ _))
  asked := fun _ _ hjob => by cases hjob

section Step

variable {w : Office} {g : ℕ → Post} {cfg : Settings} {lowerCase : Text → Text} {i : ℕ}

/-- An answer that may be appended has its question in its thread. -/
theorem Punctual.answered_tell (h : Punctual w g) {m : Remark}
    (hmay : conduct.may (g i) (.appendMessage m)) (hd' : d'.said = w.shared.said ++ [m])
    (username : String) (threadId : Text) : Answered (d'.thread username threadId) := by
  rcases thread_tell hd' username threadId with hsame | ⟨rfl, rfl, htold⟩
  · rw [hsame]
    exact h.answered username threadId
  rw [htold]
  refine answered_append (h.answered _ _) fun hrole => ?_
  rcases hmay with huser | ⟨job, hpost, hm⟩
  · rw [huser] at hrole
    cases hrole
  · have hasked := h.asked i job hpost.job?
    rw [hm]
    exact List.any_eq_true.mp hasked

/-- **A call keeps the threads in order.** -/
theorem Punctual.command (h : Punctual w g) {c : Call} (hmay : conduct.may (g i) c)
    (hg : (c.hands (c.exec cfg w.shared).1).all w.shared.asked = true) {w' : Office}
    (hw' : w'.shared = (c.exec cfg w.shared).2) :
    Punctual w' (Function.update g i ((g i).next c (c.exec cfg w.shared).1)) := by
  have hprefix : w.shared.said <+: w'.shared.said := by
    rw [hw']
    rcases said_exec cfg c w.shared with hsame | ⟨m, -, htold⟩
    · rw [hsame]
    · rw [htold]
      exact List.prefix_append _ _
  constructor
  · intro username threadId
    rw [hw']
    rcases said_exec cfg c w.shared with hsame | ⟨m, rfl, htold⟩
    · have hthread : (c.exec cfg w.shared).2.thread username threadId =
          w.shared.thread username threadId := by
        unfold Desk.thread
        rw [hsame]
      rw [hthread]
      exact h.answered username threadId
    · exact h.answered_tell hmay htold username threadId
  · intro j job hjob
    refine asked_of_prefix hprefix ?_
    rcases eq_or_ne j i with rfl | hne
    · rw [Function.update_self] at hjob
      rcases Post.job?_next hjob with hold | hhanded
      · exact h.asked j job hold
      · rw [hhanded] at hg
        exact hg
    · rw [Function.update_of_ne hne] at hjob
      exact h.asked j job hjob

/-- What does not touch the desk keeps it. -/
theorem Punctual.still (h : Punctual w g) {w' : Office} (hw' : w'.shared = w.shared) :
    Punctual w' g := by
  constructor
  · rw [hw']
    exact h.answered
  · rw [hw']
    exact h.asked

theorem punctual_tied (cfg : Settings) (lowerCase : Text → Text) :
    Tied (office cfg lowerCase) punctualDuties Desk.IsFresh conduct (fun _ => Post.free)
      (fun _ _ _ => True) Punctual where
  body := fun duty _ => obeys_duty lowerCase duty
  init := fun d hd => ⟨_, punctual_fresh hd⟩
  start := by
    intro w g i duty h _ _
    refine ⟨h.answered, fun j job hjob => ?_⟩
    rcases eq_or_ne j i with rfl | hne
    · rw [Function.update_self] at hjob
      cases hjob
    · rw [Function.update_of_ne hne] at hjob
      exact h.asked j job hjob
  command := fun w g i duty c k h _ _ hmay _ hg => ⟨_, rfl, h.command hmay hg rfl⟩
  finish := fun w g i duty a h _ _ => h.still rfl
  crash := fun w g i duty p h _ => h.still rfl
  outside := fun w g d h hd => hd.elim

end Step

/-- **Where workers are punctual a question precedes its answer**, in every run of any handlers,
workers and other processes. -/
theorem ordered_of_punctual (cfg : Settings) (lowerCase : Text → Text) {w : Office}
    (hw : Reachable (office cfg lowerCase) punctualDuties Desk.IsFresh w) : w.shared.Ordered := by
  obtain ⟨g, hpunctual, -⟩ := hw.ghosts (punctual_tied cfg lowerCase)
  exact ordered_of_answered hpunctual.answered

/-! ### Runs that are worked out -/

/-- A desk of the small cluster at which no call raises. -/
def smallDesk : Desk where
  redis := smallStore
  said := []
  outputs := fun _ => []
  faults := []

theorem isFresh_smallDesk : smallDesk.IsFresh := ⟨pristine_smallStore, rfl⟩

/-- A chat request. -/
def smallIncoming : Incoming where
  username := "u"
  threadId := "default".toList
  modelKey := "m"
  modelName := "m"
  prompt := "hello".toList
  history := []
  historyEntry := "hello".toList
  fileChat := none
  stagingId := none

/-- A model that answers with one token. -/
def smallAnswering : OllamaStream where
  lines := [.payload "hi".toList true]

/-- A worker of the small cluster. -/
def smallServing : Duty := .serve "w" .chat "t" none smallAnswering smallAnswering

/-- The scheduler admits the job. -/
def smallAdmitting : Duty := .control (.op (.tryAdmitJob 2 (.pending .chat .p1) smallTarget))

instance (duty : Duty) : Decidable (allDuties.starts duty) := inferInstanceAs (Decidable True)

instance (w : Office) (e : Entry deskSig Duty Unit) : Decidable (allDuties.guard w e) :=
  inferInstanceAs (Decidable True)

instance (duty : Duty) : Decidable (punctualDuties.starts duty) := inferInstanceAs (Decidable True)

instance (w : Office) (e : Entry deskSig Duty Unit) : Decidable (punctualDuties.guard w e) :=
  inferInstanceAs (Decidable (_ = true))

instance (cfg : Settings) (lowerCase : Text → Text) (c : Call) (d : Desk) :
    Decidable ((office cfg lowerCase).store.ready c d) := inferInstanceAs (Decidable True)

/-- The request is enqueued, admitted, claimed and answered; the handler goes on when `late`. -/
def quickTurns (late : Bool) : List (Turn Duty) :=
  [.start 0 (.apiChat smallIncoming 2), .next 0] ++ (if late then [] else [.next 0]) ++
    [.start 1 smallAdmitting, .next 1, .start 2 smallServing] ++ List.replicate 6 (.next 2) ++
    if late then [.next 0] else []

/-- A handler that is done before its job is claimed. -/
theorem ordered_of_punctual_quickHandler : ∃ w : Office,
    w.shared.said.map Remark.role = [.user, .assistant] ∧ w.shared.Ordered := by
  obtain ⟨w, -, hw, -, hp⟩ := World.exists_of_play (Y := office smallSettings id)
    (R := punctualDuties) isFresh_smallDesk (quickTurns false) []
    (p := fun w _ => w.shared.said.map Remark.role = [.user, .assistant]) (by decide +kernel)
  exact ⟨w, of_decide_eq_true hp, ordered_of_punctual smallSettings id hw⟩

/-- **A worker that is quicker than the handler answers before the question is there.** -/
theorem not_ordered_quickWorker :
    ¬∀ w : Office, Reachable (office smallSettings id) allDuties Desk.IsFresh w →
      w.shared.Ordered := by
  intro h
  obtain ⟨w, -, hw, -, hp⟩ := World.exists_of_play (Y := office smallSettings id) (R := allDuties)
    isFresh_smallDesk (quickTurns true) []
    (p := fun w _ => (w.shared.history "u" "default".toList).map Remark.role = [.assistant, .user] ∧
      w.shared.forgotten "u" "default".toList = []) (by decide +kernel)
  obtain ⟨hroles, hforgotten⟩ := of_decide_eq_true hp
  obtain ⟨a, post, hhistory, ha, -⟩ := List.map_eq_cons_iff.mp hroles
  obtain ⟨q, hq, -⟩ := h w hw "u" "default".toList [] a post hhistory ha
  rw [hforgotten] at hq
  cases hq

end Worker

end AiAgent

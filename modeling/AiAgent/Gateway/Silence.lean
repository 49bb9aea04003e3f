import AiAgent.Gateway.Change

/-!
# A cancelled root and its child

A cancel that is accepted goes where the job waits. A root that waits in a list is cancelled there
and then, and its child is not looked at: where the reaper has sent a root back that had a child
already, the child runs on (`AiAgent.Gateway.not_childStopped_requeued`).

Where every child that could go on is the linked child of a root that waits in no list, the cancel
reaches it, and in a run of such cancels, in which no worker claims what has ended, a child of a
cancelled root has ended or is told to stop in every state that follows
(`AiAgent.Gateway.childStopped_of_attended`). Two facts carry the induction: the children are
stopped, and no further child is created, because the root has ended, is flagged or has a child
already (`AiAgent.Gateway.Silenced`).
-/

namespace AiAgent

namespace Gateway

open Command

/-! ### Accepted cancels -/

/-- `cancel_job` returns true for this root. -/
def Move.accepts (cfg : Settings) (s : Redis) (root : JobId) : Move → Bool
  | .op (.cancelJob jobId username) =>
    jobId = root && match (alone (cancelJob cfg.recursionLimit jobId username) s).1 with
      | .ok reply => reply
      | .error _ => false
  | _ => false

/-- The roots whose cancel was accepted. -/
def accepted (cfg : Settings) (s : Redis) (m : Move) (a : JobId → Bool) (root : JobId) : Bool :=
  a root || m.accepts cfg s root

/-- The states after whole steps that meet `ok`, with the accepted cancels. -/
abbrev Cancels (cfg : Settings) (ok : Redis × (JobId → Bool) → Move → Prop) :
    Redis × (JobId → Bool) → Prop :=
  Reached (noted (Move.apply cfg) (accepted cfg)) (fun p => Pristine p.1 ∧ p.2 = fun _ => false) ok

/-- The job is a child of this root. -/
def Job.IsChildOf (root : JobId) (job : Job) : Prop :=
  job.rootJobId = some root ∧ job.id ≠ root

/-- The job has ended or is told to stop. -/
def Job.Stopped (job : Job) : Prop :=
  job.status.isTerminal = true ∨ job.cancelRequested = true

/-- **No child of the root runs on.** -/
def ChildStopped (s : Redis) (root : JobId) : Prop :=
  ∀ k child, s.job? k = some child → child.IsChildOf root → child.Stopped

/-- The cancel of this root reaches the child: the root waits in no list and the child is the
linked one, which waits in a list, or runs and has no child itself. -/
def Redis.Reaches (s : Redis) (root k : JobId) (child : Job) : Prop :=
  ∃ job, s.job? root = some job ∧ job.home = none ∧ job.cancelRequested = false ∧
    job.childJobId = some k ∧
      (child.home ≠ none ∨ child.status = .running ∧ child.childJobId = none)

/-- The job is a root whose cancel was accepted, or a child of one. -/
def Concerns (a : JobId → Bool) (job : Job) : Prop :=
  a job.id = true ∨ ∃ root, job.rootJobId = some root ∧ a root = true

/-- Cancels reach the children that are not stopped, a job that has ended after an accepted cancel
is not taken again, and no record is created under an accepted root or in its place. -/
def Attended (cfg : Settings) (p : Redis × (JobId → Bool)) : Move → Prop
  | .op (.cancelJob root username) =>
    (Move.op (.cancelJob root username)).accepts cfg p.1 root = true →
      ∀ k child, p.1.job? k = some child → child.IsChildOf root → ¬child.Stopped →
        p.1.Reaches root k child
  | .op (.claimDispatchJob _ workerPool targetId _) =>
    ∀ k job, (p.1.queues (.dispatch workerPool targetId)).getLast? = some k →
      p.1.job? k = some job → Concerns p.2 job → job.status.isTerminal = false
  | .op (.requeueJobForPending jobId _) =>
    ∀ job, p.1.job? jobId = some job → Concerns p.2 job → job.status.isTerminal = false
  | .op (.enqueueJob a uuid) =>
    (a.jobIdOverride = none → p.1.job? uuid = none) ∧ p.2 (a.jobIdOverride.getD uuid) = false ∧
      ∀ root, a.rootJobId = some root → p.2 root = false
  | .op (.enqueueChildJobOnce rootJobId _) =>
    p.1.job? (cfg.derivedChildJobId rootJobId) = none →
      p.2 (cfg.derivedChildJobId rootJobId) = false
  | _ => True

theorem Attended.isNew {cfg : Settings} {p : Redis × (JobId → Bool)} {m : Move}
    (h : Attended cfg p m) : m.IsNew p.1 := by
  rcases m with o | _ | _ | _
  · cases o with
    | enqueueJob a uuid => exact h.1
    | _ => trivial
  all_goals trivial

/-! ### What an accepted cancel does -/

/-- **What `cancel_job` does where it returns true.** -/
inductive Redis.Heeded (s : Redis) : JobId → Redis → Prop
  /-- The flag was set before. -/
  | already (jobId : JobId) (job : Job) (hjob : s.job? jobId = some job)
      (hflag : job.cancelRequested = true) : Heeded s jobId s
  /-- The job waits in a list: it is taken out and cancelled. -/
  | withdrawn (jobId : JobId) (job : Job) (hjob : s.job? jobId = some job)
      (hhome : job.home ≠ none) : Heeded s jobId ((s.withdraw job.home jobId).cancel jobId none)
  /-- The cancel goes to the linked child. -/
  | passed (jobId k : JobId) (job child : Job) (hjob : s.job? jobId = some job)
      (hhome : job.home = none) (hlink : job.childJobId = some k) (hchild : s.job? k = some child)
      {s' : Redis} (h : Heeded s k s') : Heeded s jobId s'
  /-- The flag is set: there is no linked child that waits or runs. -/
  | flagged (jobId : JobId) (job : Job) (hjob : s.job? jobId = some job) (hhome : job.home = none)
      (hidle : ∀ k child, job.childJobId = some k → s.job? k = some child →
        child.home = none ∧ child.status ≠ .running) :
      Heeded s jobId ((s.set { job with cancelRequested := true }).emit job.id
        (Event.of job.id .cancelling))

variable {cfg : Settings} {s s' : Redis} {root k : JobId} {job child old new : Job}

/-- The answer is yes where a cancel was heeded, and no for no live job. -/
structure HeedsAt (s : Redis) (jobId : JobId) (r : Except GatewayError Bool × Redis) : Prop where
  /-- The answer yes. -/
  heeded : r.1 = .ok true → s.Heeded jobId r.2
  /-- The answer no. -/
  refused : ∀ job, s.job? jobId = some job → job.status.isTerminal = false → r.1 ≠ .ok false

theorem heedsAt_error (e : GatewayError) : HeedsAt s k (.error e, s') := by
  constructor
  · rintro ⟨⟩
  · rintro _ _ _ ⟨⟩

theorem heedsAt_true (h : s.Heeded k s') : HeedsAt s k (.ok true, s') := by
  constructor
  · exact fun _ => h
  · rintro _ _ _ ⟨⟩

theorem heedsAt_false (h : ∀ job, s.job? k = some job → job.status.isTerminal = true) :
    HeedsAt s k (.ok false, s') := by
  constructor
  · rintro ⟨⟩
  · intro job hjob hlive
    rw [h job hjob] at hlive
    cases hlive

/-- The last part of `cancel_job`. -/
theorem heedsAt_propagateOrRequest {cancel : JobId → Gw (Except GatewayError Bool)}
    (hcancel : ∀ k, HeedsAt s k (alone (cancel k) s)) (hjob : s.job? root = some job)
    (hhome : job.home = none) : HeedsAt s root (alone (propagateOrRequest cancel job) s) := by
  -- Where nothing is passed on, the flag is set on the record that was read.
  have hrequest : (∀ k child, job.childJobId = some k → s.job? k = some child →
      child.home = none ∧ child.status ≠ .running) →
      HeedsAt s root (.ok true, (alone (requestCancel job) s).2) := by
    intro hidle
    rw [alone_requestCancel]
    exact heedsAt_true (.flagged root job hjob hhome hidle)
  unfold propagateOrRequest propagateCancelToLinkedChild
  rcases hlink : job.childJobId with _ | k
  · have hunlinked := hrequest fun k child hsome => by
      rw [hlink] at hsome
      cases hsome
    simpa using hunlinked
  simp only [alone_bind, alone_getJob]
  rcases hchild : s.job? k with _ | child
  · have hmissing := hrequest fun j child hj hfound => by
      obtain rfl : k = j := Option.some.inj (hlink.symm.trans hj)
      rw [hchild] at hfound
      cases hfound
    simpa using hmissing
  have hpassed : ∀ s', s.Heeded k s' → HeedsAt s root (.ok true, s') := fun s' h =>
    heedsAt_true (.passed root k job child hjob hhome hlink hchild h)
  have hidle : child.home = none → child.status ≠ .running →
      HeedsAt s root (.ok true, (alone (requestCancel job) s).2) := fun hnone hstatus =>
    hrequest fun j found hj hfound => by
      obtain rfl : k = j := Option.some.inj (hlink.symm.trans hj)
      obtain rfl : child = found := Option.some.inj (hchild.symm.trans hfound)
      exact ⟨hnone, hstatus⟩
  have hwithdrawn : child.home ≠ none →
      HeedsAt s root (.ok true, (s.withdraw child.home k).cancel k none) := fun hhome =>
    hpassed _ (.withdrawn k child hchild hhome)
  rcases hstatus : child.status
  case queued =>
    simp only [Job.home, hstatus, ne_eq, reduceCtorEq, not_false_eq_true, forall_const]
      at hwithdrawn
    simpa [hstatus, alone_cancelWaiting, Redis.withdraw] using hwithdrawn
  case admitted =>
    rcases hholder : child.holder with _ | targetId
    · simpa [hstatus, hholder] using
        hidle (by simp [Job.home, hstatus, hholder]) (by simp [hstatus])
    · simpa [hstatus, hholder, alone_cancelWaiting, Redis.withdraw, Job.home] using hwithdrawn
  case running =>
    obtain ⟨hheeded, hrefused⟩ := hcancel k
    have hyes := hrefused child hchild (by rw [hstatus]; rfl)
    rcases hreply : alone (cancel k) s with ⟨e | _ | _, s'⟩
    · simpa [hstatus, hreply] using heedsAt_error e
    · exact absurd (congrArg Prod.fst hreply) hyes
    · simpa [hstatus, hreply] using hpassed s' (by simpa [hreply] using hheeded)
  all_goals
    simpa [hstatus] using hidle (by simp [Job.home, hstatus]) (by simp [hstatus])

/-- **`cancel_job` answers yes where it withdrew the job, passed the cancel on or set the flag.** -/
theorem heedsAt_cancelJob (depth : ℕ) (jobId : JobId) (username : Option String) (s : Redis) :
    HeedsAt s jobId (alone (cancelJob depth jobId username) s) := by
  -- On the depth of the calls, since a root calls the cancel of its child.
  induction depth generalizing jobId username with
  | zero => exact heedsAt_error _
  | succ depth ih =>
    unfold cancelJob
    simp only [alone_bind, alone_getJob]
    rcases hjob : s.job? jobId with _ | job
    · refine heedsAt_false fun job hsome => ?_
      rw [hjob] at hsome
      cases hsome
    dsimp only
    split
    · exact heedsAt_error _
    split
    · next hended =>
      refine heedsAt_false fun found hfound => ?_
      obtain rfl : job = found := Option.some.inj (hjob.symm.trans hfound)
      exact hended
    split
    · next hflag => exact heedsAt_true (.already jobId job hjob hflag)
    have hwithdrawn := fun hhome => heedsAt_true (Redis.Heeded.withdrawn jobId job hjob hhome)
    have hrest := fun hhome => heedsAt_propagateOrRequest (fun child => ih child none) hjob hhome
    split
    · next hstatus =>
      simpa [hstatus, Job.home, Redis.withdraw, alone_cancelWaiting] using hwithdrawn
    · next hstatus hholder =>
      simpa [hstatus, hholder, Job.home, Redis.withdraw, alone_cancelWaiting] using hwithdrawn
    · next hqueued hadmitted =>
      refine hrest ?_
      unfold Job.home
      rcases hstatus : job.status
      case queued => exact absurd hstatus hqueued
      case admitted =>
        rcases hholder : job.holder with _ | targetId
        · rfl
        · exact absurd hholder (hadmitted targetId hstatus)
      all_goals rfl

/-- The record of a job that was taken out of its list and cancelled. -/
theorem job?_withdrawn (hkeyed : ∀ k job, s.job? k = some job → job.id = k)
    (hjob : s.job? k = some job) (hlive : job.status.isTerminal = false) (home : Option Queue) :
    ∃ new, ((s.withdraw home k).cancel k none).job? k = some new ∧ new.status = .cancelled := by
  have hjobs : (s.withdraw home k).jobs = s.jobs := by
    unfold Redis.withdraw
    split <;> rfl
  have hkeyed' : ∀ j job, (s.withdraw home k).job? j = some job → job.id = j := fun j job hjob =>
    hkeyed j job ((Redis.job?_congr hjobs j).symm.trans hjob)
  have hjob' : (s.withdraw home k).job? k = some job := (Redis.job?_congr hjobs k).trans hjob
  have hself := job?_finish_self hkeyed' (cancelledRecord job (s.withdraw home k).clockMs)
    .cancelled .childCancelled .cancelled none
  rw [show (cancelledRecord job (s.withdraw home k).clockMs).id = k from hkeyed k job hjob] at hself
  refine ⟨cancelledRecord job (s.withdraw home k).clockMs, ?_, rfl⟩
  rw [Redis.cancel, hjob', Option.filter_some_pos (by simpa using hlive)]
  exact hself

/-- The record of a job that was flagged. -/
theorem job?_flagged (hkeyed : ∀ k job, s.job? k = some job → job.id = k)
    (hjob : s.job? k = some job) :
    ((s.set { job with cancelRequested := true }).emit job.id
      (Event.of job.id .cancelling)).job? k = some { job with cancelRequested := true } := by
  rw [Redis.job?_congr (Redis.jobs_emit _ _ _), Redis.job?_set]
  exact if_pos (hkeyed k job hjob).symm

/-- A cancel that reaches a child stops it. -/
theorem Redis.Heeded.stops (hkeyed : ∀ k job, s.job? k = some job → job.id = k)
    (h : s.Heeded root s') (hreaches : s.Reaches root k child) (hchild : s.job? k = some child)
    (hruns : ¬child.Stopped) : ∃ new, s'.job? k = some new ∧ new.Stopped := by
  obtain ⟨job, hjob, hhome, hflag, hlink, hidle⟩ := hreaches
  have hsame : ∀ found, s.job? root = some found → job = found := fun found hfound =>
    Option.some.inj (hjob.symm.trans hfound)
  rcases h with ⟨_, found, hfound, hflagged⟩ | ⟨_, found, hfound, hwaits⟩ |
    ⟨_, k', found, child', hfound, -, hlink', hchild', hpassed⟩ | ⟨_, found, hfound, -, hnone⟩
  · obtain rfl := hsame found hfound
    rw [hflag] at hflagged
    cases hflagged
  · obtain rfl := hsame found hfound
    exact absurd hhome hwaits
  · obtain rfl := hsame found hfound
    obtain rfl : k = k' := Option.some.inj (hlink.symm.trans hlink')
    -- The cancel arrives at the child, which has not been told to stop and passes nothing on.
    have hsame' : ∀ found, s.job? k = some found → child = found := fun found hfound =>
      Option.some.inj (hchild.symm.trans hfound)
    rcases hpassed with ⟨_, found, hfound, hflagged⟩ | ⟨_, found, hfound, hwaits⟩ |
      ⟨_, _, found, _, hfound, hhome', hlink', -, -⟩ | ⟨_, found, hfound, -, -⟩
    · obtain rfl := hsame' found hfound
      exact absurd (.inr hflagged) hruns
    · obtain ⟨new, hnew, hcancelled⟩ :=
        job?_withdrawn hkeyed hfound (Job.live_of_home hwaits) found.home
      refine ⟨new, hnew, .inl ?_⟩
      rw [hcancelled]
      rfl
    · obtain rfl := hsame' found hfound
      rcases hidle with hwaits | ⟨-, hchildless⟩
      · exact absurd hhome' hwaits
      · rw [hchildless] at hlink'
        cases hlink'
    · exact ⟨_, job?_flagged hkeyed hfound, .inr rfl⟩
  · obtain rfl := hsame found hfound
    obtain ⟨hwaits, hruns'⟩ := hnone k child hlink hchild
    rcases hidle with hhome' | ⟨hrunning, -⟩
    · exact absurd hwaits hhome'
    · exact absurd hrunning hruns'

/-- The root of an accepted cancel has a child, or is stopped. -/
theorem Redis.Heeded.seals (hkeyed : ∀ k job, s.job? k = some job → job.id = k)
    (h : s.Heeded root s') : ∃ old, s.job? root = some old ∧
      (old.cancelRequested = true ∨ old.childJobId ≠ none ∨
        ∃ new, s'.job? root = some new ∧ new.Stopped) := by
  rcases h with ⟨_, job, hjob, hflag⟩ | ⟨_, job, hjob, hwaits⟩ |
    ⟨_, k, job, _, hjob, -, hlink, -, -⟩ | ⟨_, job, hjob, -, -⟩
  · exact ⟨job, hjob, .inl hflag⟩
  · obtain ⟨new, hnew, hcancelled⟩ :=
      job?_withdrawn hkeyed hjob (Job.live_of_home hwaits) job.home
    refine ⟨job, hjob, .inr (.inr ⟨new, hnew, .inl ?_⟩)⟩
    rw [hcancelled]
    rfl
  · refine ⟨job, hjob, .inr (.inl ?_)⟩
    rw [hlink]
    exact Option.some_ne_none k
  · exact ⟨job, hjob, .inr (.inr ⟨_, job?_flagged hkeyed hjob, .inr rfl⟩)⟩

/-! ### Runs -/

/-- The children of the root are stopped, and no other child is created: the root has ended, is
flagged, or has a child. -/
structure Silenced (s : Redis) (root : JobId) : Prop where
  /-- The children. -/
  children : ChildStopped s root
  /-- The root. -/
  sealed : ∀ job, s.job? root = some job → job.Stopped ∨ job.childJobId ≠ none

/-- What every change keeps of a job that has ended or has a property that stays. -/
theorem Change.terminal_or {C Q : Job → Prop}
    (hchange : Change cfg (fun d job => d.isFinish = false → C job → job.status.isTerminal = false)
      old new)
    (hC : C old) (hQ : Q old → Q new) (h : old.status.isTerminal = true ∨ Q old) :
    new.status.isTerminal = true ∨ Q new := by
  rcases hchange with hkept | ⟨d, hmay, hwrites, -, -, -⟩
  · rw [hkept.status]
    exact h.imp id hQ
  · by_cases hfinish : d.isFinish = false
    · refine .inr (hQ (h.resolve_left ?_))
      rw [hmay hfinish hC]
      exact Bool.false_ne_true
    · rcases d with _ | _ | _ | status | _
      case finish =>
        obtain ⟨rfl, hended, -⟩ := hwrites
        exact .inl hended
      all_goals exact absurd rfl hfinish

/-- An attended step takes no job that has ended after an accepted cancel. -/
theorem changed_of_attended {p : Redis × (JobId → Bool)} {m : Move}
    (hkeyed : ∀ k job, p.1.job? k = some job → job.id = k) (h : Attended cfg p m) :
    p.1.Changed cfg (fun d job => d.isFinish = false → Concerns p.2 job →
      job.status.isTerminal = false)
      (m.Born cfg p.1) (m.apply cfg p.1) := by
  have hmono : (∀ d job, m.May p.1 d job → d.isFinish = false → job.status.isTerminal = false) →
      p.1.Changed cfg (fun d job => d.isFinish = false → Concerns p.2 job →
        job.status.isTerminal = false)
        (m.Born cfg p.1) (m.apply cfg p.1) := fun hmay =>
    (changed_apply hkeyed m h.isNew).mono_may fun d job hm hd _ => hmay d job hm hd
  rcases m with o | _ | _ | _
  · cases o with
    -- Two operations may take up again what was asked to stop, and the condition shuts that out.
    | claimDispatchJob workerId workerPool targetId expectedTargetKind =>
      rw [apply_claimDispatchJob]
      refine changed_claimDispatch hkeyed workerId workerPool targetId expectedTargetKind
        (fun k job hlast hjob => ?_) fun job _ hfinish => nomatch hfinish
      exact ⟨fun _ _ hC => h k job hlast hjob hC, fun _ hC => h k job hlast hjob hC,
        fun hfinish => nomatch hfinish⟩
    | requeueJobForPending jobId reason =>
      rw [apply_requeueJobForPending]
      rcases hjob : p.1.job? jobId with _ | job
      · exact .of_eq hkeyed rfl
      · exact changed_requeue hkeyed rfl hjob (fun _ hC => h job hjob hC) reason
    | tryAdmitJob jobId queue target =>
      refine hmono ?_
      rintro (_ | _) job hmay hd
      · rw [hmay.2]
        rfl
      all_goals first | exact hmay.elim | exact nomatch hd
    | requeueStaleJobs =>
      refine hmono ?_
      rintro (_ | _) job hmay hd
      all_goals first | exact hmay.elim | exact hmay | exact hmay.2
    | _ =>
      refine hmono ?_
      rintro (_ | _) job hmay hd
      all_goals first | exact hmay.elim | exact nomatch hd
  all_goals
    refine hmono ?_
    rintro (_ | _) job hmay hd
    all_goals exact hmay.elim

/-- What changes of a record that take no ended job keep of it. -/
theorem Changes.terminal_or {C Q : Job → Prop}
    (hchanges : Changes cfg (fun d job => d.isFinish = false → C job →
      job.status.isTerminal = false) old
      new) (hC : ∀ old new : Job, new.toJobSpec = old.toJobSpec → C old → C new)
    (hQ : ∀ P old new, Change cfg P old new → Q old → Q new) (hold : C old)
    (h : old.status.isTerminal = true ∨ Q old) : new.status.isTerminal = true ∨ Q new := by
  have hkept := hchanges.keep (I := fun job => C job ∧ (job.status.isTerminal = true ∨ Q job))
    (fun old new hchange => ?_) ⟨hold, h⟩
  · exact hkept.2
  · rintro ⟨hold, h⟩
    exact ⟨hC old new hchange.spec hold, hchange.terminal_or hold (hQ _ old new hchange) h⟩

theorem Concerns.congr {a : JobId → Bool} (old new : Job) (hspec : new.toJobSpec = old.toJobSpec)
    (h : Concerns a old) : Concerns a new := by
  rcases h with hid | ⟨root, hroot, haccepted⟩
  · exact .inl (by rwa [congrArg JobSpec.id hspec])
  · exact .inr ⟨root, by rwa [congrArg JobSpec.rootJobId hspec], haccepted⟩

theorem Job.IsChildOf.congr (hspec : new.toJobSpec = old.toJobSpec) (h : new.IsChildOf root) :
    old.IsChildOf root := by
  obtain ⟨hroot, hne⟩ := h
  rw [congrArg JobSpec.rootJobId hspec] at hroot
  rw [congrArg JobSpec.id hspec] at hne
  exact ⟨hroot, hne⟩

variable {p : Redis × (JobId → Bool)} {m : Move}

/-- **An attended step keeps the children of a cancelled root stopped.** -/
theorem Silenced.apply (hkeyed : ∀ k job, p.1.job? k = some job → job.id = k)
    (hattended : Attended cfg p m) (haccepted : p.2 root = true) (h : Silenced p.1 root) :
    Silenced (m.apply cfg p.1) root := by
  have hchanged := changed_of_attended hkeyed hattended
  constructor
  · intro k new hnew hchild
    rcases hchanged.source k new hnew with
      ⟨old, hold, hchanges⟩ | ⟨hnone, a, modelInfo, targetKind, rfl, hbears⟩
    · have hchild' := hchild.congr hchanges.spec
      exact hchanges.terminal_or Concerns.congr (fun _ _ _ hchange => hchange.flag)
        (.inr ⟨root, hchild'.1, haccepted⟩) (h.children k old hold hchild')
    · -- No child of this root is created.
      rcases m with o | _ | _ | _
      · cases o with
        | enqueueJob b uuid =>
          obtain ⟨rfl, -⟩ := hbears
          rw [hattended.2.2 root hchild.1] at haccepted
          cases haccepted
        | enqueueChildJobOnce rootJobId prepared =>
          obtain ⟨rootJob, hrootJob, hlive, hflag, hlink, -, rfl⟩ := hbears
          obtain rfl : rootJobId = root := Option.some.inj hchild.1
          rcases h.sealed rootJob hrootJob with (hended | hflagged) | hlinked
          · rw [hlive] at hended
            cases hended
          · rw [hflag] at hflagged
            cases hflagged
          · exact absurd hlink hlinked
        | _ => exact hbears.elim
      all_goals exact hbears.elim
  · intro new hnew
    rcases hchanged.source root new hnew with
      ⟨old, hold, hchanges⟩ | ⟨hnone, a, modelInfo, targetKind, rfl, hbears⟩
    · have hid : p.2 old.id = true := by rwa [hkeyed root old hold]
      have hkept := hchanges.terminal_or
        (Q := fun job => job.cancelRequested = true ∨ job.childJobId ≠ none) Concerns.congr
        (fun _ _ _ hchange => Or.imp hchange.flag hchange.link) (.inl hid)
        (or_assoc.mp (h.sealed old hold))
      exact or_assoc.mpr hkept
    · -- No record is created in the place of this root.
      rcases m with o | _ | _ | _
      · cases o with
        | enqueueJob b uuid =>
          obtain ⟨-, rfl⟩ := hbears
          rw [hattended.2.1] at haccepted
          cases haccepted
        | enqueueChildJobOnce rootJobId prepared =>
          obtain ⟨rootJob, -, -, -, -, rfl, -⟩ := hbears
          rw [hattended hnone] at haccepted
          cases haccepted
        | _ => exact hbears.elim
      all_goals exact hbears.elim

/-- **An accepted cancel that reaches the children stops them.** -/
theorem silenced_of_accepts (hkeyed : ∀ k job, p.1.job? k = some job → job.id = k)
    (hattended : Attended cfg p m) (haccepts : m.accepts cfg p.1 root = true) :
    Silenced (m.apply cfg p.1) root := by
  obtain ⟨username, rfl⟩ : ∃ username, m = .op (.cancelJob root username) := by
    rcases m with o | _ | _ | _
    · rcases o
      case cancelJob jobId username =>
        obtain rfl : jobId = root := of_decide_eq_true (Bool.and_eq_true_iff.mp haccepts).1
        exact ⟨username, rfl⟩
      all_goals cases haccepts
    all_goals cases haccepts
  have hreaches := hattended haccepts
  have happly : Move.apply cfg (.op (.cancelJob root username)) p.1 =
      (alone (cancelJob cfg.recursionLimit root username) p.1).2 := by
    simp [Move.apply, Op.body]
  have hheeded : p.1.Heeded root (Move.apply cfg (.op (.cancelJob root username)) p.1) := by
    rw [happly]
    refine (heedsAt_cancelJob cfg.recursionLimit root username p.1).heeded ?_
    have hyes := (Bool.and_eq_true_iff.mp haccepts).2
    rcases hreply : (alone (cancelJob cfg.recursionLimit root username) p.1).1 with e | reply
    · rw [hreply] at hyes
      cases hyes
    · rw [hreply] at hyes
      exact congrArg Except.ok hyes
  -- A cancel only ends jobs, whichever they are, and creates none.
  have hchanged : p.1.Changed cfg
      (fun d job => d.isFinish = false → True → job.status.isTerminal = false) (fun _ _ => False)
      (Move.apply cfg (.op (.cancelJob root username)) p.1) :=
    changed_stopped hkeyed (fun _ _ hfinish => absurd hfinish Bool.true_eq_false.mp)
      (stopped_apply_cancelJob cfg p.1 root username)
  constructor
  · intro k new hnew hchild
    rcases hchanged.source k new hnew with ⟨old, hold, hchanges⟩ | ⟨-, hfalse⟩
    · by_cases hstopped : old.Stopped
      · exact hchanges.terminal_or (fun _ _ _ => id) (fun _ _ _ hchange => hchange.flag) trivial
          hstopped
      · have hreached := hreaches k old hold (hchild.congr hchanges.spec) hstopped
        obtain ⟨new', hnew', hstopped'⟩ := hheeded.stops hkeyed hreached hold hstopped
        obtain rfl := Option.some.inj (hnew'.symm.trans hnew)
        exact hstopped'
    · exact hfalse.elim
  · intro new hnew
    obtain ⟨old, hold, hsealed⟩ := hheeded.seals hkeyed
    rcases hchanged.source root new hnew with ⟨old', hold', hchanges⟩ | ⟨hnone, -⟩
    · obtain rfl := Option.some.inj (hold'.symm.trans hold)
      have hkept : ∀ {Q : Job → Prop}, (∀ P old new, Change cfg P old new → Q old → Q new) →
          Q old' → new.status.isTerminal = true ∨ Q new := fun hQ h =>
        hchanges.terminal_or (fun _ _ _ => id) hQ trivial (.inr h)
      rcases hsealed with hflag | hlink | ⟨new', hnew', hstopped⟩
      · exact .inl (hkept (fun _ _ _ hchange => hchange.flag) hflag)
      · exact (hkept (fun _ _ _ hchange => hchange.link) hlink).imp .inl id
      · obtain rfl := Option.some.inj (hnew'.symm.trans hnew)
        exact .inl hstopped
    · rw [hold] at hnone
      cases hnone

/-- In every run of attended steps an accepted root stays silenced. -/
theorem silenced_of_cancels (h : Cancels cfg (Attended cfg) p) :
    (∀ k job, p.1.job? k = some job → job.id = k) ∧
      ∀ root, p.2 root = true → Silenced p.1 root := by
  refine Reached.invariant (I := fun q : Redis × (JobId → Bool) =>
    (∀ k job, q.1.job? k = some job → job.id = k) ∧ ∀ root, q.2 root = true → Silenced q.1 root)
    ?_ ?_ h
  · rintro q ⟨hpristine, hnone⟩
    rw [hnone]
    refine ⟨fun k job hjob => ?_, ?_⟩
    · rw [hpristine.job? k] at hjob
      cases hjob
    · rintro root ⟨⟩
  · rintro q m ⟨hkeyed, hsilenced⟩ hattended
    refine ⟨(changed_of_attended hkeyed hattended).keyed, fun root hroot => ?_⟩
    rcases Bool.or_eq_true_iff.mp hroot with hbefore | haccepts
    · exact (hsilenced root hbefore).apply hkeyed hattended hbefore
    · exact silenced_of_accepts hkeyed hattended haccepts

/-- **A cancelled root leaves no child running, where every accepted cancel reaches the child.** -/
theorem childStopped_of_attended (cfg : Settings) {p : Redis × (JobId → Bool)}
    (h : Cancels cfg (Attended cfg) p) (root : JobId) (haccepted : p.2 root = true) :
    ChildStopped p.1 root :=
  ((silenced_of_cancels h).2 root haccepted).children

/-- The parser takes the request and enqueues the child. -/
def parsed : List Move :=
  [.op (.enqueueJob smallUpload 2), .op (.tryAdmitJob 2 (.pending .parse .p1) smallTarget),
    .op (.claimDispatchJob "w" .parser "t" none), .op (.enqueueChildJobOnce 2 smallAnswer)]

/-- A run of the small cluster, with the accepted cancels. -/
def cancelRun (moves : List Move) : Redis × (JobId → Bool) :=
  moves.foldl (fun p m => noted (Move.apply smallSettings) (accepted smallSettings) m p)
    (smallStore, fun _ => false)

/-- A root that runs is cancelled while its child is queued. -/
theorem childStopped_of_attended_queued :
    (cancelRun (parsed ++ [.op (.cancelJob 2 none)])).2 2 = true ∧
      ChildStopped (cancelRun (parsed ++ [.op (.cancelJob 2 none)])).1 2 := by
  have haccepted : (cancelRun (parsed ++ [.op (.cancelJob 2 none)])).2 2 = true := by decide +kernel
  have hstart : Cancels smallSettings (Attended smallSettings) (cancelRun []) :=
    .start ⟨pristine_smallStore, rfl⟩
  have hchild := (((hstart.step (Move.op (.enqueueJob smallUpload 2))
    ⟨fun _ => rfl, rfl, fun root hroot => by cases hroot⟩).step
      (Move.op (.tryAdmitJob 2 (.pending .parse .p1) smallTarget)) trivial).step
        (Move.op (.claimDispatchJob "w" .parser "t" none)) fun k job _ _ hC => by
          rcases hC with h | ⟨_, _, h⟩ <;> exact absurd h Bool.false_ne_true).step
            (Move.op (.enqueueChildJobOnce 2 smallAnswer)) fun _ => rfl
  refine ⟨haccepted, childStopped_of_attended smallSettings
    (hchild.step (Move.op (.cancelJob 2 none)) fun _ k child hfound hchild _ => ?_) 2 haccepted⟩
  have hfound : (cancelRun parsed).1.job? k = some child := hfound
  obtain ⟨job, hjob⟩ := Option.isSome_iff_exists.mp
    (show ((cancelRun parsed).1.job? 2).isSome = true by decide +kernel)
  have hroot := forall_of_all (p := fun job => job.home = none ∧ job.cancelRequested = false ∧
    job.childJobId = some 5 ∧ job.id = 2) (by decide +kernel) job hjob
  obtain ⟨hhome, hflag, hlink, hid⟩ := of_decide_eq_true hroot
  have hmem : k ∈ (cancelRun parsed).1.jobs.keys :=
    AList.mem_keys.mp (AList.lookup_isSome.mp (Option.isSome_iff_exists.mpr ⟨child, hfound⟩))
  have hkeys : (cancelRun parsed).1.jobs.keys = [2, 5] := by decide +kernel
  rcases List.mem_pair.mp (hkeys ▸ hmem) with rfl | rfl
  · obtain rfl := Option.some.inj (hjob.symm.trans hfound)
    exact absurd hid hchild.2
  · have hwaits := forall_of_all (p := fun child => child.home ≠ none) (by decide +kernel)
      child hfound
    exact ⟨job, hjob, hhome, hflag, hlink, .inl (of_decide_eq_true hwaits)⟩

/-- **The reaper sends a root with a child back, and the cancel finds the root in a list**: the
root is cancelled and its child goes on. -/
theorem not_childStopped_requeued : ¬ ∀ p,
    Cancels smallSettings (fun q m => m.IsNew q.1) p → ∀ root, p.2 root = true →
      ChildStopped p.1 root := by
  intro h
  let moves : List Move := parsed.tail ++
    [.tick 31000, .op .requeueStaleJobs, .op (.cancelJob 2 none)]
  have hstart : Cancels smallSettings (fun q m => m.IsNew q.1) (cancelRun []) :=
    .start ⟨pristine_smallStore, rfl⟩
  have henqueued := hstart.step (Move.op (.enqueueJob smallUpload 2)) fun _ => rfl
  have hrun := henqueued.foldl moves fun m hm q => by
    simp only [moves, parsed, List.tail_cons, List.mem_cons, List.mem_append, List.not_mem_nil,
      or_false] at hm
    rcases hm with (rfl | rfl | rfl) | rfl | rfl | rfl <;> trivial
  generalize hp : moves.foldl _ _ = p at hrun
  have hchild : p.2 2 = true ∧ (p.1.job? 5).any (fun job => job.rootJobId = some 2 ∧ job.id = 5 ∧
      job.status = .queued ∧ job.cancelRequested = false) = true := by
    rw [← hp]
    decide +kernel
  obtain ⟨child, hfound, hqueued⟩ := (Option.any_eq_true _ _).mp hchild.2
  obtain ⟨hroot, hid, hstatus, hflag⟩ := of_decide_eq_true hqueued
  rcases h p hrun 2 hchild.1 5 child hfound ⟨hroot, by rw [hid]; decide⟩ with hended | hflagged
  · rw [hstatus] at hended
    cases hended
  · rw [hflag] at hflagged
    cases hflagged

end Gateway

end AiAgent

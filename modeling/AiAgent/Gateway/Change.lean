import AiAgent.Gateway.Moves
import Mathlib.Logic.Relation

/-!
# What a whole step makes of each record

Every whole step leaves most records alone, changes a few in one of a handful of ways
(`AiAgent.Gateway.Change`) and creates one at most (`AiAgent.Gateway.Move.Bears`). Which records
may be changed in which way is read off the step and the state before it
(`AiAgent.Gateway.Move.May`), so whatever is asked of one record over a run follows from what each
way of changing it does (`AiAgent.Gateway.changed_apply`).
-/

namespace AiAgent

namespace Gateway

open Command

/-! ### Changes of one record -/

/-- A change that leaves the status as it is. -/
structure Kept (old new : Job) : Prop where
  /-- What was written once is the same. -/
  spec : new.toJobSpec = old.toJobSpec
  /-- The status. -/
  status : new.status = old.status
  /-- The retries. -/
  retry : new.retryCount = old.retryCount
  /-- The result. -/
  result : new.result = old.result
  /-- The error. -/
  error : new.error = old.error
  /-- A cancel that was requested stays so. -/
  flag : old.cancelRequested = true → new.cancelRequested = true
  /-- A child that was linked is not unlinked. -/
  link : old.childJobId ≠ none → new.childJobId ≠ none

/-- The ways in which a status is written. -/
inductive Deed where
  /-- By an admission. -/
  | admission
  /-- By a claim. -/
  | run
  /-- By a claim that is refused. -/
  | requeue
  /-- By the end of the job, which is the status. -/
  | finish (status : Status)
  /-- By the reaper. -/
  | recover

/-- The job is ended. -/
def Deed.isFinish : Deed → Bool
  | .finish _ => true
  | _ => false

/-- What each of them writes. -/
def Deed.Writes (cfg : Settings) (old new : Job) : Deed → Prop
  | .admission => new.status = .admitted ∧ new.retryCount = old.retryCount
  | .run => new.status = .running ∧ new.retryCount = old.retryCount
  | .requeue => new.status = .queued ∧ new.retryCount = old.retryCount
  | .finish status => new.status = status ∧ status.isTerminal = true ∧
      old.retryCount ≤ new.retryCount
  | .recover => new.status = .queued ∧ new.retryCount = old.retryCount + 1 ∧
      new.retryCount ≤ retryLimit cfg old

/-- **A change of a record**: it keeps its status, or it is changed in one of the ways `P` permits
for it. -/
inductive Change (cfg : Settings) (P : Deed → Job → Prop) (old new : Job) : Prop
  /-- The status is kept. -/
  | kept (h : Kept old new)
  /-- A status is written. -/
  | deed (d : Deed) (hmay : P d old) (hwrites : d.Writes cfg old new)
      (hspec : new.toJobSpec = old.toJobSpec)
      (hflag : old.cancelRequested = true → new.cancelRequested = true)
      (hlink : old.childJobId ≠ none → new.childJobId ≠ none)

variable {cfg : Settings} {P P' : Deed → Job → Prop} {s s' s'' : Redis} {k : JobId}
  {job old new : Job}

/-- What a job was asked for never changes. -/
theorem Change.spec (h : Change cfg P old new) : new.toJobSpec = old.toJobSpec := by
  cases h with
  | kept h => exact h.spec
  | deed d hmay hwrites hspec hflag hlink => exact hspec

/-- A flag that is set stays. -/
theorem Change.flag (h : Change cfg P old new) (hflag : old.cancelRequested = true) :
    new.cancelRequested = true := by
  rcases h with hkept | ⟨_, _, _, _, hkept, _⟩
  · exact hkept.flag hflag
  · exact hkept hflag

/-- A link that is made stays. -/
theorem Change.link (h : Change cfg P old new) (hlink : old.childJobId ≠ none) :
    new.childJobId ≠ none := by
  rcases h with hkept | ⟨_, _, _, _, _, hkept⟩
  · exact hkept.link hlink
  · exact hkept hlink

/-- More may be allowed. -/
theorem Change.mono (h : Change cfg P old new) (hP : ∀ d job, P d job → P' d job) :
    Change cfg P' old new := by
  cases h with
  | kept h => exact .kept h
  | deed d hmay hwrites hspec hflag hlink =>
    exact .deed d (hP d old hmay) hwrites hspec hflag hlink

/-- Some changes of a record, one after the other. -/
abbrev Changes (cfg : Settings) (P : Deed → Job → Prop) : Job → Job → Prop :=
  Relation.ReflTransGen (Change cfg P)

/-- What a job was asked for never changes, over any changes. -/
theorem Changes.spec (h : Changes cfg P old new) : new.toJobSpec = old.toJobSpec := by
  induction h with
  | refl => rfl
  | tail _ hlast ih => exact hlast.spec.trans ih

/-- **The change rule**: what every permitted change keeps, they all keep. -/
theorem Changes.keep {I : Job → Prop} (h : Changes cfg P old new)
    (hstep : ∀ old new, Change cfg P old new → I old → I new) (hold : I old) : I new := by
  induction h with
  | refl => exact hold
  | tail _ hlast ih => exact hstep _ _ hlast ih

/-! ### Changes of the records -/

/-- Every record has grown out of one that was there, by permitted changes, or is one `B` permits
to be created. -/
structure Redis.Changed (cfg : Settings) (P : Deed → Job → Prop) (B : JobId → Job → Prop)
    (s s' : Redis) : Prop where
  /-- Every record is found under its own id. -/
  keyed : ∀ k new, s'.job? k = some new → new.id = k
  /-- Where it comes from. -/
  source : ∀ k new, s'.job? k = some new →
    (∃ old, s.job? k = some old ∧ Changes cfg P old new) ∨ (s.job? k = none ∧ B k new)

variable {B : JobId → Job → Prop}

/-- The records are the same, or fewer. -/
theorem Redis.Changed.of_sub (hkeyed : ∀ k job, s.job? k = some job → job.id = k)
    (hsub : ∀ k job, s'.job? k = some job → s.job? k = some job) : s.Changed cfg P B s' :=
  ⟨fun k job hjob => hkeyed k job (hsub k job hjob),
    fun k job hjob => .inl ⟨job, hsub k job hjob, .refl⟩⟩

/-- No record is touched. -/
theorem Redis.Changed.of_eq (hkeyed : ∀ k job, s.job? k = some job → job.id = k)
    (hjobs : s'.jobs = s.jobs) : s.Changed cfg P B s' :=
  .of_sub hkeyed fun k _ hjob => (Redis.job?_congr hjobs k).symm.trans hjob

/-- Changes that create no record, one after the other. -/
theorem Redis.Changed.trans (h : s.Changed cfg P (fun _ _ => False) s')
    (h' : s'.Changed cfg P (fun _ _ => False) s'') : s.Changed cfg P (fun _ _ => False) s'' := by
  refine ⟨h'.keyed, fun k new hnew => ?_⟩
  rcases h'.source k new hnew with ⟨mid, hmid, hchanges⟩ | ⟨-, hfalse⟩
  · rcases h.source k mid hmid with ⟨old, hold, hfirst⟩ | ⟨-, hfalse⟩
    · exact .inl ⟨old, hold, hfirst.trans hchanges⟩
    · exact hfalse.elim
  · exact hfalse.elim

/-- One record is changed. -/
theorem Redis.Changed.save (new : Job) (hkeyed : ∀ k job, s.job? k = some job → job.id = k)
    (hold : s.job? k = some old) (hchange : Change cfg P old new)
    (hjobs : s'.jobs = s.jobs.insert k new) : s.Changed cfg P B s' := by
  have hself : s'.job? k = some new := by
    rw [Redis.job?, hjobs, AList.lookup_insert]
  have hother : ∀ j, j ≠ k → s'.job? j = s.job? j := fun j hj => by
    rw [Redis.job?, hjobs, AList.lookup_insert_ne hj]
    rfl
  constructor
  · intro j found hfound
    rcases eq_or_ne j k with rfl | hne
    · obtain rfl := Option.some.inj (hself.symm.trans hfound)
      exact (congrArg JobSpec.id hchange.spec).trans (hkeyed j old hold)
    · exact hkeyed j found ((hother j hne).symm.trans hfound)
  · intro j found hfound
    rcases eq_or_ne j k with rfl | hne
    · obtain rfl := Option.some.inj (hself.symm.trans hfound)
      exact .inl ⟨old, hold, .single hchange⟩
    · exact .inl ⟨found, (hother j hne).symm.trans hfound, .refl⟩

/-- More jobs may be born. -/
theorem Redis.Changed.mono_born (h : s.Changed cfg P (fun _ _ => False) s') :
    s.Changed cfg P B s' :=
  ⟨h.keyed, fun k new hnew => (h.source k new hnew).imp id fun h => ⟨h.1, h.2.elim⟩⟩

/-- More may be allowed. -/
theorem Redis.Changed.mono_may (h : s.Changed cfg P B s') (hP : ∀ d job, P d job → P' d job) :
    s.Changed cfg P' B s' := by
  refine ⟨h.keyed, fun k new hnew => (h.source k new hnew).imp ?_ id⟩
  rintro ⟨old, hold, hchanges⟩
  exact ⟨old, hold, Relation.ReflTransGen.mono (fun _ _ h => Change.mono h hP) _ _ hchanges⟩

/-! ### The operations -/

/-- What waits in a list has not ended. -/
theorem Job.live_of_home (h : job.home ≠ none) : job.status.isTerminal = false := by
  unfold Job.home at h
  rcases hstatus : job.status
  all_goals first
    | rfl
    | (rw [hstatus] at h
       exact absurd rfl h)

/-- The end of a job, and of the root that ends with it. -/
theorem changed_finish (new : Job) (hkeyed : ∀ k job, s.job? k = some job → job.id = k)
    (hold : s.job? k = some old) (hspec : new.toJobSpec = old.toJobSpec)
    (hflag : old.cancelRequested = true → new.cancelRequested = true)
    (hlink : old.childJobId ≠ none → new.childJobId ≠ none)
    (hended : new.status.isTerminal = true) (hretry : old.retryCount ≤ new.retryCount)
    {status : Status} (hstatus : status.isTerminal = true) (hmay : P (.finish new.status) old)
    (hroot : ∀ job, job.status.isTerminal = false → P (.finish status) job) (stage : LifecycleStage)
    (body : EventBody) (workerId : Option WorkerId) :
    s.Changed cfg P B (s.finish new status stage body workerId) := by
  have hid : new.id = k := (congrArg JobSpec.id hspec).trans (hkeyed k old hold)
  have hjobs := s.jobs_finish new status stage body workerId
  have hself : s.Changed cfg P (fun _ _ => False) (s.set new) := by
    refine .save new hkeyed hold
      (.deed (.finish new.status) hmay ⟨rfl, hended, hretry⟩ hspec hflag hlink) ?_
    rw [← hid]
    rfl
  refine Redis.Changed.mono_born ?_
  cases hroot' : s.endedRoot new with
  | none =>
    rw [hroot'] at hjobs
    exact hself.trans (.of_eq hself.keyed hjobs)
  | some rootJob =>
    rw [hroot'] at hjobs
    obtain ⟨rootJobId, hne, -, hrootJob, hlive⟩ := Redis.endedRoot_eq_some hroot'
    have hrootId : rootJob.id = rootJobId := hkeyed rootJobId rootJob hrootJob
    have hrootJob' : (s.set new).job? rootJobId = some rootJob := by
      rw [Redis.job?_set, if_neg hne]
      exact hrootJob
    refine hself.trans (.save (rootTerminalRecord rootJob new status stage s.clockMs)
      hself.keyed hrootJob' (.deed (.finish status) (hroot rootJob hlive) ⟨rfl, hstatus, le_refl _⟩
        rfl id
        fun _ => Option.some_ne_none _) ?_)
    rw [← hrootId]
    exact hjobs

/-- The record of a job that was ended. -/
theorem job?_finish_self (hkeyed : ∀ k job, s.job? k = some job → job.id = k) (new : Job)
    (status : Status) (stage : LifecycleStage) (body : EventBody) (workerId : Option WorkerId) :
    (s.finish new status stage body workerId).job? new.id = some new := by
  rw [Redis.job?, Redis.jobs_finish]
  cases hroot : s.endedRoot new with
  | none => exact AList.lookup_insert _
  | some rootJob =>
    obtain ⟨rootJobId, hne, -, hrootJob, -⟩ := Redis.endedRoot_eq_some hroot
    have hrootId : rootJob.id = rootJobId := hkeyed rootJobId rootJob hrootJob
    dsimp only
    rw [AList.lookup_insert_ne (by rw [hrootId]; exact hne.symm)]
    exact AList.lookup_insert _

/-- `mark_job_cancelled`, where the job may have been taken out of a list before. -/
theorem changed_cancel {s₁ : Redis} (hkeyed : ∀ k job, s.job? k = some job → job.id = k)
    (hjobs : s₁.jobs = s.jobs)
    (hmay : ∀ job, job.status.isTerminal = false → P (.finish .cancelled) job)
    (workerId : Option WorkerId) : s.Changed cfg P B (s₁.cancel k workerId) := by
  have hkeyed₁ : ∀ k job, s₁.job? k = some job → job.id = k := fun k job hjob =>
    hkeyed k job ((Redis.job?_congr hjobs k).symm.trans hjob)
  have hsame : s.Changed cfg P (fun _ _ => False) s₁ := .of_eq hkeyed hjobs
  refine Redis.Changed.mono_born (hsame.trans ?_)
  unfold Redis.cancel
  cases hjob : (s₁.job? k).filter fun job => job.status.isTerminal = false with
  | none => exact .of_eq hkeyed₁ rfl
  | some job =>
    obtain ⟨hjob, hlive⟩ := Option.filter_eq_some_iff.mp hjob
    exact changed_finish (cancelledRecord job s₁.clockMs) hkeyed₁ hjob rfl id id rfl (le_refl _)
      rfl (hmay job (by simpa using hlive)) hmay _ _ _

/-- The record is stored as failed, and so is that of its root. -/
theorem changed_failFrom (hkeyed : ∀ k job, s.job? k = some job → job.id = k)
    (hold : s.job? k = some old) {retryCount : ℕ} (hretry : old.retryCount ≤ retryCount)
    (hmay : P (.finish .failed) old)
    (hroot : ∀ job, job.status.isTerminal = false → P (.finish .failed) job)
    (errorText : Text) (workerId : Option WorkerId) :
    s.Changed cfg P B (s.failFrom { old with retryCount := retryCount } errorText workerId) :=
  changed_finish (failedRecord { old with retryCount := retryCount } errorText s.clockMs) hkeyed
    hold rfl id id rfl hretry rfl hmay hroot _ _ _

/-- The record is stored as queued. -/
theorem changed_requeue {s₁ : Redis} (hkeyed : ∀ k job, s.job? k = some job → job.id = k)
    (hjobs : s₁.jobs = s.jobs) (hold : s.job? k = some old) (hmay : P .requeue old)
    (reason : String) : s.Changed cfg P B (s₁.requeue old reason) := by
  obtain ⟨targetKind, hrequeue⟩ := s₁.jobs_requeue old reason
  refine .save (requeuedRecord { old with targetKind := targetKind } s₁.clockMs) hkeyed hold
    (.deed .requeue hmay ⟨rfl, rfl⟩ rfl id id) ?_
  rw [hrequeue, hjobs, hkeyed k old hold]

/-- The target kind a claim asks for is another than the job's. -/
def refuses (expectedTargetKind : Option Text) (job : Job) : Bool :=
  expectedTargetKind.any fun kind => job.targetKind ≠ normalizeTargetKind (some kind)

/-- The record is stored as queued, failed or running. -/
theorem changed_claim (s₁ : Redis) (hkeyed : ∀ k job, s.job? k = some job → job.id = k)
    (hjobs : s₁.jobs = s.jobs) (hold : s.job? k = some old) {expectedTargetKind : Option Text}
    (hrequeue : refuses expectedTargetKind old = true → P .requeue old) (hrun : P .run old)
    (hfinish : P (.finish .failed) old)
    (hroot : ∀ job, job.status.isTerminal = false → P (.finish .failed) job)
    (workerId : WorkerId) (targetId : TargetId) :
    s.Changed cfg P B (s₁.claim cfg workerId targetId expectedTargetKind old) := by
  have hid := hkeyed k old hold
  unfold Redis.claim
  split
  · next hrefused =>
    refine changed_requeue hkeyed ?_ hold (hrequeue hrefused) _
    rw [Redis.jobs_zrem, Redis.jobs_release]
    exact hjobs
  · split
    · have hsame : s.Changed cfg P (fun _ _ => False) s₁ := .of_eq hkeyed hjobs
      have hold₁ : s₁.job? k = some old := (Redis.job?_congr hjobs k).trans hold
      rw [hid, hold₁]
      exact Redis.Changed.mono_born (hsame.trans (changed_failFrom hsame.keyed hold₁ (le_refl _)
        hfinish hroot _ _))
    · refine .save (runningRecord cfg old workerId s₁.clockMs) hkeyed hold
        (.deed .run hrun ⟨rfl, rfl⟩ rfl id id) ?_
      rw [Redis.jobs_emit, Redis.jobs_zadd, Redis.jobs_set, hjobs]
      exact congrArg (fun i => s.jobs.insert i _) hid

/-- The pop touches no record. -/
theorem changed_claimDispatch (hkeyed : ∀ k job, s.job? k = some job → job.id = k)
    (workerId : WorkerId) (workerPool : WorkerPool) (targetId : TargetId)
    (expectedTargetKind : Option Text)
    (hmay : ∀ k job, (s.queues (.dispatch workerPool targetId)).getLast? = some k →
      s.job? k = some job → (refuses expectedTargetKind job = true → P .requeue job) ∧
        P .run job ∧ P (.finish .failed) job)
    (hroot : ∀ job, job.status.isTerminal = false → P (.finish .failed) job) :
    s.Changed cfg P B (s.claimDispatch cfg workerId workerPool targetId expectedTargetKind) := by
  have hclaimed := s.claimed cfg workerId workerPool targetId expectedTargetKind
  generalize s.claimDispatch cfg workerId workerPool targetId expectedTargetKind = s' at hclaimed
  cases hclaimed with
  | same => exact .of_eq hkeyed rfl
  | dropped jobId queues hlast hpop hnone => exact .of_eq hkeyed rfl
  | found jobId job queues hlast hpop hjob =>
    obtain ⟨hrequeue, hrun, hfinish⟩ := hmay jobId job hlast hjob
    exact changed_claim { s with queues := queues } hkeyed rfl hjob hrequeue hrun hfinish hroot
      workerId targetId

/-- A job that fits is stored as admitted. -/
theorem changed_evaluate (old : Job) (hkeyed : ∀ k job, s.job? k = some job → job.id = k)
    (hold : s.job? k = some old) (hmay : P .admission old) (queue : Queue) (target : Target) :
    s.Changed cfg P B (s.evaluate cfg old queue target) := by
  unfold Redis.evaluate
  cases s.admission cfg old target with
  | none => exact .of_eq hkeyed rfl
  | some admission =>
    dsimp only
    split
    · refine .save (admittedRecord cfg old target.targetId admission s.clockMs) hkeyed hold
        (.deed .admission hmay ⟨rfl, rfl⟩ rfl id id) ?_
      rw [Redis.jobs_admitted, hkeyed k old hold]
      rfl
    · exact .of_eq hkeyed rfl

/-- A downgrade may come before the admission. -/
theorem changed_tryAdmit (hkeyed : ∀ k job, s.job? k = some job → job.id = k)
    (hmay : ∀ job, job.id = k → job.status = .queued → P .admission job) (queue : Queue)
    (target : Target) : s.Changed cfg P B (s.tryAdmit cfg k queue target) := by
  unfold Redis.tryAdmit
  cases hfound : (s.job? k).filter fun job => job.status = .queued with
  | none => exact .of_eq hkeyed rfl
  | some original =>
    obtain ⟨hjob, hqueued⟩ := Option.filter_eq_some_iff.mp hfound
    have hqueued : original.status = .queued := by simpa using hqueued
    have hid := hkeyed k original hjob
    obtain ⟨targetKind, hkind⟩ := s.downgraded_eq original
    dsimp only
    rw [hkind]
    have hset : s.Changed cfg P (fun _ _ => False)
        (s.set { original with targetKind := targetKind }) :=
      .save { original with targetKind := targetKind } hkeyed hjob
        (.kept ⟨rfl, rfl, rfl, rfl, rfl, id, id⟩) (by rw [← hid]; rfl)
    split
    · refine Redis.Changed.mono_born (hset.trans (changed_evaluate (k := k)
        { original with targetKind := targetKind } hset.keyed ?_
        (hmay { original with targetKind := targetKind } hid hqueued) queue target))
      rw [Redis.job?_set]
      exact if_pos hid.symm
    · next hkept =>
      have hsame : { original with targetKind := targetKind } = original := by
        obtain rfl : targetKind = original.targetKind := not_not.mp hkept
        rfl
      rw [hsame]
      exact changed_evaluate original hkeyed hjob (hmay original hid hqueued) queue target

/-- Only the lease of a running job is changed. -/
theorem changed_renew (hkeyed : ∀ k job, s.job? k = some job → job.id = k) (k : JobId) :
    s.Changed cfg P B (s.renew cfg k) := by
  unfold Redis.renew
  cases hfound : (s.job? k).filter fun job => job.status = .admitted ∨ job.status = .running with
  | none => exact .of_eq hkeyed rfl
  | some job =>
    obtain ⟨hjob, -⟩ := Option.filter_eq_some_iff.mp hfound
    refine .save { job with leaseUntil := some (s.clockMs / 1000 + cfg.jobLeaseSeconds) } hkeyed
      hjob (.kept ⟨rfl, rfl, rfl, rfl, rfl, id, id⟩) ?_
    rw [Redis.jobs_zadd, Redis.jobs_set]
    exact congrArg (fun i => s.jobs.insert i _) (hkeyed k job hjob)

/-- The root gets its link and loses its lease. -/
theorem changed_wait (hkeyed : ∀ k job, s.job? k = some job → job.id = k) (k childJobId : JobId)
    (stage : LifecycleStage) (updates : ParserMetadata) (workerId : Option WorkerId) :
    s.Changed cfg P B (s.wait k childJobId stage updates workerId) := by
  unfold Redis.wait
  cases hjob : s.job? k with
  | none => exact .of_eq hkeyed rfl
  | some job =>
    refine .save (waitingRecord job childJobId stage updates) hkeyed hjob
      (.kept ⟨rfl, rfl, rfl, rfl, rfl, id, fun _ => Option.some_ne_none _⟩) ?_
    rw [Redis.jobs_zrem, Redis.jobs_leave, Redis.jobs_release, Redis.jobs_set]
    exact congrArg (fun i => s.jobs.insert i _) (hkeyed k job hjob)

/-- A job that is withdrawn is stored as cancelled, and a flag is set on one that is not. -/
theorem changed_stopped (hkeyed : ∀ k job, s.job? k = some job → job.id = k)
    (hmay : ∀ job, job.status.isTerminal = false → P (.finish .cancelled) job)
    (h : s.Stopped k s') :
    s.Changed cfg P B s' := by
  cases h with
  | same => exact .of_eq hkeyed rfl
  | withdrawn j job hbelow hjob hhome =>
    refine changed_cancel hkeyed ?_ hmay none
    unfold Redis.withdraw
    split <;> rfl
  | flagged j job hbelow hjob hstatus hhome =>
    refine .save { job with cancelRequested := true } hkeyed hjob
      (.kept ⟨rfl, rfl, rfl, rfl, rfl, fun _ => rfl, id⟩) ?_
    rw [Redis.jobs_emit, Redis.jobs_set]
    exact congrArg (fun i => s.jobs.insert i _) (hkeyed j job hjob)

/-- By the cases of a reaper pass over one id. -/
theorem changed_reap (hkeyed : ∀ k job, s.job? k = some job → job.id = k)
    (hfail : ∀ job, job.status.isTerminal = false → P (.finish .failed) job)
    (hcancel : ∀ job, job.status.isTerminal = false → P (.finish .cancelled) job)
    (hrecover : ∀ job, job.status.isTerminal = false → P .recover job) (now : ℕ) (k : JobId) :
    s.Changed cfg P B (s.reap cfg now k) := by
  unfold Redis.reap
  cases hjob : s.job? k with
  | none => exact .of_eq hkeyed rfl
  | some job =>
    have hid := hkeyed k job hjob
    dsimp only
    split
    · exact .of_eq hkeyed rfl
    · next hlive =>
      have hlive : job.status.isTerminal = false := by simpa using hlive
      split
      · exact .of_eq hkeyed rfl
      · split
        · rw [hid]
          refine changed_cancel hkeyed ?_ hcancel _
          unfold Redis.withdraw
          split <;> rfl
        · split
          · exact changed_failFrom hkeyed hjob (le_refl _) (hfail job hlive) hfail _ _
          · split
            · exact changed_failFrom hkeyed hjob (Nat.le_succ _) (hfail job hlive) hfail _ _
            · next hlimit =>
              obtain ⟨targetKind, hrecovered⟩ := s.jobs_recover job (job.retryCount + 1)
              refine .save (recoveredRecord { job with targetKind := targetKind }
                (job.retryCount + 1)) hkeyed hjob (.deed .recover (hrecover job hlive)
                  ⟨rfl, rfl, not_lt.mp hlimit⟩ rfl id id) ?_
              rw [hrecovered, hid]

/-- By induction on the ids. -/
theorem changed_reapAll (hkeyed : ∀ k job, s.job? k = some job → job.id = k)
    (hfail : ∀ job, job.status.isTerminal = false → P (.finish .failed) job)
    (hcancel : ∀ job, job.status.isTerminal = false → P (.finish .cancelled) job)
    (hrecover : ∀ job, job.status.isTerminal = false → P .recover job) (now : ℕ)
    (jobIds : List JobId) : s.Changed cfg P B (s.reapAll cfg now jobIds) := by
  refine Redis.Changed.mono_born ?_
  induction jobIds generalizing s with
  | nil => exact .of_eq hkeyed rfl
  | cons jobId jobIds ih =>
    have hreap : s.Changed cfg P (fun _ _ => False) (s.reap cfg now jobId) :=
      changed_reap hkeyed hfail hcancel hrecover now jobId
    exact hreap.trans (ih hreap.keyed)

/-- What `get_linked_child_job_id` does: nothing, or it links the root to the derived child. -/
theorem getLinkedChildJobId_cases (cfg : Settings) (rootJobId : JobId) (s : Redis) :
    (alone (getLinkedChildJobId cfg rootJobId) s).2 = s ∨
      ∃ rootJob, s.job? rootJobId = some rootJob ∧
        (alone (getLinkedChildJobId cfg rootJobId) s).2 =
          s.set { rootJob with childJobId := some (cfg.derivedChildJobId rootJobId) } := by
  unfold getLinkedChildJobId
  simp only [alone_withLock, alone_bind, alone_getJob]
  cases hroot : s.job? rootJobId with
  | none => exact .inl rfl
  | some rootJob =>
    dsimp only
    cases rootJob.childJobId with
    | some existingChildId =>
      refine .inl ?_
      simp only [alone_bind, alone_getJob]
      cases s.job? existingChildId <;> rfl
    | none =>
      simp only [alone_bind, alone_getJob]
      cases s.job? (cfg.derivedChildJobId rootJobId) with
      | none => exact .inl rfl
      | some childJob => exact .inr ⟨rootJob, rfl, rfl⟩

/-- **What `enqueue_child_job_once` does**: nothing, where the root has a child or is over; else it
links the root to the derived child, which it creates where it is missing. -/
theorem enqueueChildJobOnce_cases (cfg : Settings) (rootJobId : JobId) (prepared : PreparedLlmJob)
    (s : Redis) : (alone (enqueueChildJobOnce cfg rootJobId prepared) s).2 = s ∨
      ∃ rootJob, s.job? rootJobId = some rootJob ∧ rootJob.status.isTerminal = false ∧
        rootJob.cancelRequested = false ∧ rootJob.childJobId = none ∧
        ((alone (enqueueChildJobOnce cfg rootJobId prepared) s).2 =
            s.set { rootJob with childJobId := some (cfg.derivedChildJobId rootJobId) } ∨
          s.job? (cfg.derivedChildJobId rootJobId) = none ∧ ∃ modelInfo targetKind,
            (alone (enqueueChildJobOnce cfg rootJobId prepared) s).2 =
              (s.push (newJob cfg (childArgs rootJobId rootJob prepared
                (cfg.derivedChildJobId rootJobId)) (cfg.derivedChildJobId rootJobId) modelInfo
                  targetKind s.clockMs)).set
                { rootJob with childJobId := some (cfg.derivedChildJobId rootJobId) }) := by
  unfold enqueueChildJobOnce
  simp only [alone_withLock, alone_bind, alone_getJob]
  cases hroot : s.job? rootJobId with
  | none => exact .inl rfl
  | some rootJob =>
    dsimp only
    cases hlink : rootJob.childJobId with
    | some existingChildId =>
      refine .inl ?_
      simp only [alone_bind, alone_getJob]
      cases s.job? existingChildId <;> rfl
    | none =>
      simp only [findOrCreateChild]
      -- A root that is over, or that is asked to stop, gets no child.
      by_cases hover : (rootJob.status.isTerminal || rootJob.cancelRequested) = true
      · rw [if_pos hover]
        exact .inl rfl
      rw [if_neg hover]
      obtain ⟨hlive, hflag⟩ : rootJob.status.isTerminal = false ∧ rootJob.cancelRequested = false :=
        by simpa using hover
      simp only [alone_bind, alone_getJob]
      cases hchild : s.job? (cfg.derivedChildJobId rootJobId) with
      | some childJob =>
        exact .inr ⟨rootJob, rfl, hlive, hflag, hlink, .inl (by simp [linkChild, hroot])⟩
      | none =>
        dsimp only
        unfold createChild
        split
        · exact .inl rfl
        -- The root is not its own child: its id is taken, and the derived one is free.
        have hne : rootJobId ≠ cfg.derivedChildJobId rootJobId := by
          intro hself
          rw [← hself, hroot] at hchild
          cases hchild
        have henqueue : alone (enqueueJob cfg (childArgs rootJobId rootJob prepared
            (cfg.derivedChildJobId rootJobId)) (cfg.derivedChildJobId rootJobId)) s =
            alone (enqueueNewJob cfg (childArgs rootJobId rootJob prepared
              (cfg.derivedChildJobId rootJobId)) (cfg.derivedChildJobId rootJobId)) s := by
          simp [enqueueJob, childArgs, hchild]
        rw [alone_bind, henqueue]
        rcases alone_enqueueNewJob cfg (childArgs rootJobId rootJob prepared
          (cfg.derivedChildJobId rootJobId)) (cfg.derivedChildJobId rootJobId) s with
          ⟨e, hrefused⟩ | ⟨modelInfo, targetKind, hpush⟩
        · rw [hrefused]
          exact .inl rfl
        · rw [hpush]
          refine .inr ⟨rootJob, rfl, hlive, hflag, hlink, .inr ⟨rfl, modelInfo, targetKind, ?_⟩⟩
          simp [linkChild, Redis.job?_push, newJob, hne, hroot]

/-! ### Whole steps -/

/-- **What a step may do to the records**, seen in the state before it. -/
def Move.May (s : Redis) : Move → Deed → Job → Prop
  | .op (.tryAdmitJob jobId _ _), .admission, job => job.id = jobId ∧ job.status = .queued
  | .op (.claimDispatchJob _ workerPool targetId _), .run, job =>
    (s.queues (.dispatch workerPool targetId)).getLast? = some job.id
  | .op (.claimDispatchJob _ workerPool targetId expectedTargetKind), .requeue, job =>
    (s.queues (.dispatch workerPool targetId)).getLast? = some job.id ∧
      refuses expectedTargetKind job = true
  | .op (.requeueJobForPending jobId _), .requeue, job => job.id = jobId
  | .op (.claimDispatchJob _ workerPool targetId _), .finish status, job =>
    status ≠ .completed ∧ (job.status.isTerminal = false ∨
      (s.queues (.dispatch workerPool targetId)).getLast? = some job.id)
  | .op (.markJobCompleted jobId _ _), .finish status, job =>
    status = .completed ∧ (job.status.isTerminal = false ∨ job.id = jobId)
  | .op (.markJobFailed jobId _ _), .finish status, job =>
    status ≠ .completed ∧ (job.status.isTerminal = false ∨ job.id = jobId)
  | .op _, .finish status, job => status ≠ .completed ∧ job.status.isTerminal = false
  | .op .requeueStaleJobs, .recover, job => job.status.isTerminal = false
  | _, _, _ => False

/-- Which records a step may create. -/
def Move.Bears (cfg : Settings) (s : Redis) : Move → EnqueueArgs → JobId → Prop
  | .op (.enqueueJob a uuid), b, k => b = a ∧ k = a.jobIdOverride.getD uuid
  | .op (.enqueueChildJobOnce rootJobId prepared), b, k =>
    ∃ rootJob, s.job? rootJobId = some rootJob ∧ rootJob.status.isTerminal = false ∧
      rootJob.cancelRequested = false ∧ rootJob.childJobId = none ∧
      k = cfg.derivedChildJobId rootJobId ∧ b = childArgs rootJobId rootJob prepared k
  | _, _, _ => False

/-- The record is one a step creates. -/
def Move.Born (cfg : Settings) (s : Redis) (m : Move) (k : JobId) (new : Job) : Prop :=
  ∃ a modelInfo targetKind, new = newJob cfg a k modelInfo targetKind s.clockMs ∧ m.Bears cfg s a k

/-- An id that is made up is one no record has. -/
def Move.IsNew (s : Redis) : Move → Prop
  | .op (.enqueueJob a uuid) => a.jobIdOverride = none → s.job? uuid = none
  | _ => True

/-- A new record is stored under a free id. -/
theorem changed_push (hkeyed : ∀ k job, s.job? k = some job → job.id = k) (new : Job)
    (hnone : s.job? new.id = none) (hborn : B new.id new) : s.Changed cfg P B (s.push new) := by
  constructor
  · intro k job hjob
    rw [Redis.job?_push] at hjob
    split at hjob
    · next hself =>
      obtain rfl := Option.some.inj hjob
      exact hself.symm
    · exact hkeyed k job hjob
  · intro k job hjob
    rw [Redis.job?_push] at hjob
    split at hjob
    · next hself =>
      obtain rfl := Option.some.inj hjob
      exact .inr ⟨hself ▸ hnone, hself ▸ hborn⟩
    · exact .inl ⟨job, hjob, .refl⟩

/-- Another record is changed after one was created. -/
theorem Redis.Changed.link (h : s.Changed cfg P B s') (hold : s.job? k = some old) (new : Job)
    (hsame : s'.job? k = some old) (hkept : Kept old new) : s.Changed cfg P B (s'.set new) := by
  have hid : new.id = k := (congrArg JobSpec.id hkept.spec).trans (h.keyed k old hsame)
  constructor
  · intro j job hjob
    rw [Redis.job?_set] at hjob
    split at hjob
    · next hself =>
      obtain rfl := Option.some.inj hjob
      exact hself.symm
    · exact h.keyed j job hjob
  · intro j job hjob
    rw [Redis.job?_set] at hjob
    split at hjob
    · next hself =>
      obtain rfl := Option.some.inj hjob
      exact .inl ⟨old, by rw [hself, hid]; exact hold, .single (.kept hkept)⟩
    · exact h.source j job hjob

/-- A job is born, or nothing happens. -/
theorem changed_enqueueJob (hkeyed : ∀ k job, s.job? k = some job → job.id = k) (a : EnqueueArgs)
    (uuid : JobId) (hnew : a.jobIdOverride = none → s.job? uuid = none) :
    s.Changed cfg P (Move.Born cfg s (.op (.enqueueJob a uuid)))
      (Move.apply cfg (.op (.enqueueJob a uuid)) s) := by
  rw [apply_enqueueJob]
  rcases enqueueJob_cases cfg a uuid s hnew with
    hsame | ⟨jobId, modelInfo, targetKind, hnone, hpush, hid⟩
  · rw [hsame]
    exact .of_eq hkeyed rfl
  · rw [hpush]
    exact changed_push hkeyed _ hnone ⟨a, modelInfo, targetKind, rfl, rfl, hid⟩

/-- The answer is dropped. -/
theorem apply_enqueueChildJobOnce (rootJobId : JobId) (prepared : PreparedLlmJob) :
    Move.apply cfg (.op (.enqueueChildJobOnce rootJobId prepared)) s =
      (alone (enqueueChildJobOnce cfg rootJobId prepared) s).2 := by
  simp only [Move.apply, Op.body, alone_bind]
  split <;> rfl

/-- The answer is dropped. -/
theorem apply_getLinkedChildJobId (rootJobId : JobId) :
    Move.apply cfg (.op (.getLinkedChildJobId rootJobId)) s =
      (alone (getLinkedChildJobId cfg rootJobId) s).2 := by
  simp only [Move.apply, Op.body, alone_bind]
  split <;> rfl

/-- A child may be born, and its root is linked to it. -/
theorem changed_enqueueChildJobOnce (hkeyed : ∀ k job, s.job? k = some job → job.id = k)
    (rootJobId : JobId) (prepared : PreparedLlmJob) :
    s.Changed cfg P (Move.Born cfg s (.op (.enqueueChildJobOnce rootJobId prepared)))
      (Move.apply cfg (.op (.enqueueChildJobOnce rootJobId prepared)) s) := by
  rw [apply_enqueueChildJobOnce]
  rcases enqueueChildJobOnce_cases cfg rootJobId prepared s with
    hsame | ⟨rootJob, hroot, hlive, hflag, hlink,
      hlinked | ⟨hnone, modelInfo, targetKind, hcreated⟩⟩
  · rw [hsame]
    exact .of_eq hkeyed rfl
  · rw [hlinked]
    exact Redis.Changed.link (.of_eq hkeyed rfl) hroot _ hroot ⟨rfl, rfl, rfl, rfl, rfl, id,
      fun _ => Option.some_ne_none _⟩
  · rw [hcreated]
    have hne : rootJobId ≠ cfg.derivedChildJobId rootJobId := by
      intro hself
      rw [← hself, hroot] at hnone
      cases hnone
    refine Redis.Changed.link (changed_push hkeyed _ hnone ⟨_, modelInfo, targetKind, rfl,
      rootJob, hroot, hlive, hflag, hlink, rfl, rfl⟩) hroot _ ?_ ⟨rfl, rfl, rfl, rfl, rfl, id,
      fun _ => Option.some_ne_none _⟩
    rw [Redis.job?_push]
    exact (if_neg hne).trans hroot

/-- A root may be linked to a child that is there. -/
theorem changed_getLinkedChildJobId (hkeyed : ∀ k job, s.job? k = some job → job.id = k)
    (rootJobId : JobId) :
    s.Changed cfg P B (Move.apply cfg (.op (.getLinkedChildJobId rootJobId)) s) := by
  rw [apply_getLinkedChildJobId]
  rcases getLinkedChildJobId_cases cfg rootJobId s with hsame | ⟨rootJob, hroot, hlinked⟩
  · rw [hsame]
    exact .of_eq hkeyed rfl
  · rw [hlinked]
    exact Redis.Changed.link (.of_eq hkeyed rfl) hroot _ hroot ⟨rfl, rfl, rfl, rfl, rfl, id,
      fun _ => Option.some_ne_none _⟩

/-- A record that expires is gone. -/
theorem changed_expire (hkeyed : ∀ k job, s.job? k = some job → job.id = k) (jobId : JobId) :
    s.Changed cfg P B (Move.apply cfg (.expire jobId) s) := by
  refine .of_sub hkeyed fun k job hjob => ?_
  have hjob : (s.jobs.erase jobId).lookup k = some job := hjob
  rcases eq_or_ne k jobId with rfl | hne
  · rw [AList.lookup_erase] at hjob
    cases hjob
  · rwa [AList.lookup_erase_ne hne] at hjob

/-- **Every whole step changes records only as it may, and creates only what it may.** -/
theorem changed_apply (hkeyed : ∀ k job, s.job? k = some job → job.id = k) (m : Move)
    (hnew : m.IsNew s) : s.Changed cfg (m.May s) (m.Born cfg s) (m.apply cfg s) := by
  cases m with
  | tick ms => exact .of_eq hkeyed rfl
  | report targets workers catalog => exact .of_eq hkeyed rfl
  | expire jobId => exact changed_expire hkeyed jobId
  | op o =>
    cases o with
    | enqueueJob a uuid => exact changed_enqueueJob hkeyed a uuid hnew
    | enqueueChildJobOnce rootJobId prepared =>
      exact changed_enqueueChildJobOnce hkeyed rootJobId prepared
    | getLinkedChildJobId rootJobId => exact changed_getLinkedChildJobId hkeyed rootJobId
    | tryAdmitJob jobId queue target =>
      rw [apply_tryAdmitJob]
      exact changed_tryAdmit hkeyed (fun job hid hqueued => ⟨hid, hqueued⟩) queue target
    | claimDispatchJob workerId workerPool targetId expectedTargetKind =>
      rw [apply_claimDispatchJob]
      -- The job that is claimed is the last of its list: it runs, or is sent back, or is failed.
      refine changed_claimDispatch hkeyed workerId workerPool targetId expectedTargetKind
        (fun k job hlast hjob => ?_) fun job hlive => ⟨Status.noConfusion, .inl hlive⟩
      rw [← hkeyed k job hjob] at hlast
      exact ⟨fun hrefuses => ⟨hlast, hrefuses⟩, hlast, Status.noConfusion, .inr hlast⟩
    | renewJobLease jobId =>
      rw [apply_renewJobLease]
      exact changed_renew hkeyed jobId
    | cancelJob jobId username =>
      exact changed_stopped hkeyed (fun _ hlive => ⟨Status.noConfusion, hlive⟩)
        (stopped_apply_cancelJob cfg s jobId username)
    | markJobCompleted jobId responseText workerId =>
      rw [apply_markJobCompleted]
      cases hjob : s.job? jobId with
      | none => exact .of_eq hkeyed rfl
      | some job =>
        exact changed_finish (completedRecord job responseText s.clockMs) hkeyed hjob rfl id id rfl
          (le_refl _) rfl ⟨rfl, .inr (hkeyed jobId job hjob)⟩
            (fun _ hlive => ⟨rfl, .inl hlive⟩) _ _ _
    | markJobFailed jobId errorText workerId =>
      rw [apply_markJobFailed]
      cases hjob : s.job? jobId with
      | none => exact .of_eq hkeyed rfl
      | some job =>
        exact changed_failFrom hkeyed hjob (le_refl _)
          ⟨Status.noConfusion, .inr (hkeyed jobId job hjob)⟩
          (fun _ hlive => ⟨Status.noConfusion, .inl hlive⟩) errorText workerId
    | markJobCancelled jobId workerId =>
      rw [apply_markJobCancelled]
      exact changed_cancel hkeyed rfl (fun _ hlive => ⟨Status.noConfusion, hlive⟩) workerId
    | markJobWaitingOnChild jobId childJobId stage updates workerId =>
      rw [apply_markJobWaitingOnChild]
      exact changed_wait hkeyed jobId childJobId stage updates workerId
    | requeueJobForPending jobId reason =>
      rw [apply_requeueJobForPending]
      cases hjob : s.job? jobId with
      | none => exact .of_eq hkeyed rfl
      | some job => exact changed_requeue hkeyed rfl hjob (hkeyed jobId job hjob) reason
    | requeueStaleJobs =>
      rw [apply_requeueStaleJobs]
      exact changed_reapAll hkeyed (fun _ hlive => ⟨Status.noConfusion, hlive⟩)
        (fun _ hlive => ⟨Status.noConfusion, hlive⟩) (fun _ hlive => hlive) _ _

end Gateway

end AiAgent

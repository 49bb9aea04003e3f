import AiAgent.Gateway.Placement
import AiAgent.Gateway.Streams

/-!
# A root mirrors its child

Where no lease runs out and workers report on what they run, a child has one root, which has been
claimed before the child was enqueued. So whichever way the child ends, its root has not been sent
back, and ends with it unless it has ended before (`AiAgent.Gateway.mirrored_of_staged`). What the
root takes over is what the child ended with, and the event that closes its stream is the last one
there: the child that it would be told of has ended.

The invariant is `AiAgent.Gateway.Household`: every id is in its place, so that no worker is handed
a job that is over, and every child has a parent that runs or has ended.
-/

namespace AiAgent

namespace Gateway

open Command

/-! ### Runs with events -/

/-- A step of the play: a whole step, or an event that a worker emits. -/
inductive Scene where
  /-- A whole step. -/
  | move (m : Move)
  /-- `emit_event`, called by a worker. -/
  | emit (jobId : JobId) (event : Event)

/-- The state after the step. -/
def Scene.apply (cfg : Settings) : Scene → Redis → Redis
  | .move m, s => m.apply cfg s
  | .emit jobId event, s => (alone (emitEvent jobId event) s).2

/-- The record has not ended before the step, and has after it. -/
def endsNow (s s' : Redis) (k : JobId) : Bool :=
  (s.job? k).any (fun job => !job.status.isTerminal) &&
    (s'.job? k).any fun job => job.status.isTerminal

/-- The child that a root ended with: the one that ended in the same step. -/
def through (cfg : Settings) (s : Redis) (x : Scene) (t : JobId → Option JobId) (root : JobId) :
    Option JobId :=
  if endsNow s (x.apply cfg s) root then
    s.jobs.keys.find? fun k =>
      (s.job? k).any (fun child => child.rootJobId = some root ∧ k ≠ root) &&
        endsNow s (x.apply cfg s) k
  else t root

/-- The states after steps that meet `ok`, with the child each root ended with. -/
abbrev Plays (cfg : Settings) (ok : Redis → Scene → Prop) : Redis × (JobId → Option JobId) → Prop :=
  Reached (noted (Scene.apply cfg) (through cfg)) (fun p => Pristine p.1 ∧ p.2 = fun _ => none)
    fun p x => ok p.1 x

/-- The error a root takes over from its child. -/
def mirroredError (child : Job) : Text :=
  match child.error with
  | none => genericChatError
  | some error => if error = [] then genericChatError else error

/-- The root ended as the child did. -/
structure Mirrors (rootJob child : Job) : Prop where
  /-- The status. -/
  status : rootJob.status = child.status
  /-- The result of a completed child. -/
  result : child.status = .completed → rootJob.result = child.result
  /-- The error of a failed child. -/
  error : child.status = .failed → rootJob.error = some (mirroredError child)

/-- The stream is closed by its last event, which is one of this source, and by no other. -/
def ClosedBy (k : JobId) (events : List Event) : Prop :=
  ∃ before last, events = before ++ [last] ∧ last.isDone = true ∧ last.sourceJobId = some k ∧
    ∀ e ∈ before, e.isDone = false

/-- The root ended with this child: it ended as the child did, and its stream is closed once, after
all that was mirrored. -/
def EndedWith (s : Redis) (root k : JobId) : Prop :=
  ∃ rootJob child, s.job? root = some rootJob ∧ s.job? k = some child ∧
    child.rootJobId = some root ∧ child.status.isTerminal = true ∧ Mirrors rootJob child ∧
      ClosedBy k (s.events root)

/-- **The root mirrors its child.** -/
structure Mirrored (s : Redis) (t : JobId → Option JobId) : Prop where
  /-- With the child the root has ended. -/
  ended : ∀ k child root, s.job? k = some child → child.rootJobId = some root → root ≠ k →
    child.status.isTerminal = true →
    ∃ rootJob, s.job? root = some rootJob ∧ rootJob.status.isTerminal = true
  /-- A root that became terminal through a child agrees with it. -/
  agrees : ∀ root k, t root = some k → EndedWith s root k

/-- The job was claimed: it runs, or it has ended. -/
def Job.Claimed (job : Job) : Prop :=
  job.status = .running ∨ job.status.isTerminal = true

/-- Workers act on what they have claimed: a parser on a root of its own, whose child it enqueues
and waits for; whoever reports that a job has ended, or emits an event, runs it. Only the child is
enqueued with a root, the scheduler admits from the pending lists, no lease runs out, no record
expires, and an id that is made up is new. -/
def Staged (s : Redis) : Scene → Prop
  | .move (.op (.enqueueJob a uuid)) =>
    (a.jobIdOverride = none → s.job? uuid = none) ∧ a.rootJobId = none
  | .move (.op (.enqueueChildJobOnce rootJobId _)) =>
    ∀ job, s.job? rootJobId = some job → job.rootJobId = none ∧ job.Claimed
  | .move (.op (.tryAdmitJob _ queue target)) =>
    queue.isWaiting = true ∧ target.targetId ≠ ""
  | .move (.op (.markJobCompleted jobId _ _)) | .move (.op (.markJobFailed jobId _ _)) =>
    ∀ job, s.job? jobId = some job → job.status = .running
  | .move (.op (.markJobCancelled jobId _)) | .move (.op (.markJobWaitingOnChild jobId _ _ _ _)) =>
    ∀ job, s.job? jobId = some job → job.Claimed
  | .move (.op (.requeueJobForPending _ _)) => False
  | .move (.op .requeueStaleJobs) => s.zrangebyscore s.now = []
  | .move (.expire _) => False
  | .emit jobId event =>
    event.isDone = false ∧ ∃ job, s.job? jobId = some job ∧ job.status = .running
  | _ => True

variable {cfg : Settings} {s s' : Redis} {j k root : JobId} {job old new child : Job}
  {B : JobId → Job → Prop}

/-! ### Steps that end nothing -/

/-- The job goes on: what has been claimed keeps its status, and nothing ends. -/
structure Continues (old new : Job) : Prop where
  /-- What was written once is the same. -/
  spec : new.toJobSpec = old.toJobSpec
  /-- A job that does not wait. -/
  claimed : old.Claimed → new.status = old.status ∧ new.result = old.result ∧ new.error = old.error
  /-- A job that has not ended. -/
  live : old.status.isTerminal = false → new.status.isTerminal = false

theorem continues_of_changes (h : Changes cfg Going old new) : Continues old new := by
  refine h.keep (I := Continues old) (fun mid new hchange hmid => ?_)
    ⟨rfl, fun _ => ⟨rfl, rfl, rfl⟩, id⟩
  have hspec := hchange.spec.trans hmid.spec
  rcases hchange with hkept | ⟨d, ⟨hfinish, hwaits⟩, hwrites, -, -, -⟩
  · refine ⟨hspec, fun hclaimed => ?_, fun hlive => ?_⟩
    · obtain ⟨hstatus, hresult, herror⟩ := hmid.claimed hclaimed
      exact ⟨hkept.status.trans hstatus, hkept.result.trans hresult, hkept.error.trans herror⟩
    · rw [hkept.status]
      exact hmid.live hlive
  · -- A status is written for a job that waits, which no claimed job does.
    refine ⟨hspec, fun hclaimed => ?_, fun _ => ?_⟩
    · have hstatus := (hmid.claimed hclaimed).1
      rcases hclaimed with hrunning | hended
      · rw [hstatus, hrunning] at hwaits
        rcases hwaits with h | h <;> cases h
      · rw [hstatus] at hwaits
        rcases hwaits with h | h <;> rw [h] at hended <;> cases hended
    · rcases d with _ | _ | _ | _ | _
      case finish => cases hfinish
      all_goals
        rw [hwrites.1]
        rfl

/-- Where a record comes from. -/
theorem Redis.Goes.source (h : s.Goes cfg B s') (hnew : s'.job? k = some new) :
    (∃ old, s.job? k = some old ∧ Continues old new) ∨ (s.job? k = none ∧ B k new) := by
  rcases h.changed.source k new hnew with ⟨old, hold, hchanges⟩ | hborn
  · exact .inl ⟨old, hold, continues_of_changes hchanges⟩
  · exact .inr hborn

/-- Where a record goes. -/
theorem Redis.Goes.target (h : s.Goes cfg B s') (hold : s.job? k = some old) :
    ∃ new, s'.job? k = some new ∧ Continues old new := by
  have hsome := h.lasts k (by rw [hold]; exact Option.some_ne_none old)
  obtain ⟨new, hnew⟩ := Option.ne_none_iff_exists'.mp hsome
  rcases h.source hnew with ⟨old', hold', hcontinues⟩ | ⟨hnone, -⟩
  · obtain rfl := Option.some.inj (hold'.symm.trans hold)
    exact ⟨new, hnew, hcontinues⟩
  · rw [hold] at hnone
    cases hnone

theorem Continues.ended (h : Continues old new) (hnew : new.status.isTerminal = true) :
    old.status.isTerminal = true := by
  by_contra hlive
  have := h.live (by simpa using hlive)
  rw [hnew] at this
  cases this

theorem Continues.ended_of_ended (h : Continues old new) (hold : old.status.isTerminal = true) :
    new.status.isTerminal = true := by
  rw [(h.claimed (.inr hold)).1]
  exact hold

theorem Continues.claimed_of_claimed (h : Continues old new) (hold : old.Claimed) :
    new.Claimed := by
  rw [Job.Claimed, (h.claimed hold).1]
  exact hold

/-! ### Steps that end a job -/

/-- **What the end of a job does**: the job ends alone, or its root ends with it; both streams are
closed, and nothing else changes. -/
inductive Redis.Ended (s s' : Redis) : Prop
  /-- The job alone. -/
  | alone (k : JobId) (old new : Job) (hold : s.job? k = some old)
      (hlive : old.status.isTerminal = false) (hend : EndOf old new) (hnew : s'.job? k = some new)
      (hroot : s.endedRoot old = none) (hother : ∀ j, j ≠ k → s'.job? j = s.job? j)
      (hstreams : ∀ j, j ≠ k → s'.events j = s.events j)
  /-- The job and its root. -/
  | family (k root : JobId) (old new rootJob rootNew : Job) (last : Event)
      (hold : s.job? k = some old) (hlive : old.status.isTerminal = false) (hend : EndOf old new)
      (hnew : s'.job? k = some new) (hroot : old.rootJobId = some root) (hne : root ≠ k)
      (hrootJob : s.job? root = some rootJob) (hrootLive : rootJob.status.isTerminal = false)
      (hrootNew : s'.job? root = some rootNew) (hrootSpec : rootNew.toJobSpec = rootJob.toJobSpec)
      (hmirrors : Mirrors rootNew new)
      (hother : ∀ j, j ≠ k → j ≠ root → s'.job? j = s.job? j)
      (hstream : s'.events root = s.events root ++ [last]) (hdone : last.isDone = true)
      (hsource : last.sourceJobId = some k)
      (hstreams : ∀ j, j ≠ k → j ≠ root → s'.events j = s.events j)

theorem ended_of_closed (hkeyed : ∀ k job, s.job? k = some job → job.id = k) (h : s.Closed s') :
    s.Ended s' := by
  rcases h with ⟨s₁, k, old, new, stage, body, workerId, hjobs, hevents, hold, hlive, hend, hdone⟩
  have hid : new.id = k := hend.id.trans (hkeyed k old hold)
  have hended : s₁.endedRoot new = s.endedRoot old := by
    rw [hend.endedRoot_eq, Redis.endedRoot_congr hjobs]
  have hafter := s₁.jobs_finish new new.status stage body workerId
  have hstreams := fun j => s₁.events_finish new j new.status stage body workerId
  rw [hended, hid, hjobs] at hafter
  simp only [hended, hid, hevents] at hstreams
  generalize s₁.finish new new.status stage body workerId = s' at hafter hstreams
  -- Without a live root the job ends alone, and with one its end is mirrored to it.
  rcases hroot : s.endedRoot old with _ | rootJob
  · rw [hroot] at hafter
    simp only [hroot, List.append_nil] at hstreams
    refine .alone k old new hold hlive hend ?_ hroot (fun j hj => ?_) fun j hj => ?_
    · rw [Redis.job?, hafter]
      exact AList.lookup_insert _
    · rw [Redis.job?, hafter]
      exact AList.lookup_insert_ne hj
    · rw [hstreams, if_neg hj]
  · rw [hroot] at hafter
    simp only [hroot] at hstreams
    obtain ⟨rootJobId, hne, hrootId, hrootJob, hrootLive⟩ := Redis.endedRoot_eq_some hroot
    have hrootKey : rootJob.id = rootJobId := hkeyed rootJobId rootJob hrootJob
    rw [hkeyed k old hold] at hne
    dsimp only at hafter
    rw [hrootKey] at hafter
    simp only [congrArg JobSpec.rootJobId hend.spec, hrootId, Option.getD_some] at hstreams
    refine .family k rootJobId old new rootJob
      (rootTerminalRecord rootJob new new.status stage s₁.clockMs)
      (buildRootMirroredEvent rootJobId k (Event.bare body)) hold hlive hend ?_ hrootId hne hrootJob
      hrootLive ?_ rfl ⟨rfl, fun hcompleted => if_pos hcompleted, fun hfailed => ?_⟩
      (fun j hj hj' => ?_) ?_ hdone rfl fun j hj hj' => ?_
    · rw [Redis.job?, hafter, AList.lookup_insert_ne hne.symm]
      exact AList.lookup_insert _
    · rw [Redis.job?, hafter]
      exact AList.lookup_insert _
    · refine (if_pos hfailed).trans ?_
      unfold mirroredError
      rcases new.error with _ | error
      · rfl
      · dsimp only
        split <;> rfl
    · rw [Redis.job?, hafter, AList.lookup_insert_ne hj']
      exact AList.lookup_insert_ne hj
    · rw [hstreams, if_neg hne, if_pos rfl]
    · rw [hstreams, if_neg hj, if_neg hj', List.append_nil]

/-! ### The invariant -/

/-- Every id is in its place, and every child has a parent. -/
structure Household (cfg : Settings) (s : Redis) : Prop where
  /-- The places. -/
  placed : Placed .waiting s
  /-- A child is the one derived from its root, and the root was claimed. -/
  parent : ∀ k child root, s.job? k = some child → child.rootJobId = some root →
    k = cfg.derivedChildJobId root ∧ ∃ rootJob, s.job? root = some rootJob ∧
      rootJob.rootJobId = none ∧ rootJob.Claimed ∧
        (child.status.isTerminal = true → rootJob.status.isTerminal = true)
  /-- A job that is not there has no stream. -/
  unheard : ∀ k, s.job? k = none → s.events k = []
  /-- The stream of a job that has not ended is open. -/
  unclosed : ∀ k job, s.job? k = some job → job.status.isTerminal = false →
    ∀ e ∈ s.events k, e.isDone = false

theorem Household.ne_of_root (h : Household cfg s) (hchild : s.job? k = some child)
    (hroot : child.rootJobId = some root) : root ≠ k := by
  obtain ⟨-, rootJob, hrootJob, hnone, -⟩ := h.parent k child root hchild hroot
  rintro rfl
  obtain rfl := Option.some.inj (hrootJob.symm.trans hchild)
  rw [hnone] at hroot
  cases hroot

theorem home_of_claimed (h : job.Claimed) : job.home = none := by
  unfold Job.home
  rcases h with hrunning | hended
  · rw [hrunning]
  · rcases hstatus : job.status <;> rw [hstatus] at hended <;> first | rfl | cases hended

/-- The root that ends with a child waits nowhere. -/
theorem Household.rootAway (h : Household cfg s) (hjob : s.job? k = some job) :
    RootAway .waiting s job := by
  intro rootJob hended
  obtain ⟨root, -, hroot, hrootJob, -⟩ := Redis.endedRoot_eq_some hended
  obtain ⟨-, rootJob', hrootJob', -, hclaimed, -⟩ := h.parent k job root hjob hroot
  obtain rfl := Option.some.inj (hrootJob'.symm.trans hrootJob)
  intro queue hhome
  rw [home_of_claimed hclaimed] at hhome
  cases hhome

theorem away_of_claimed (h : job.Claimed) : Away .waiting job := by
  intro queue hhome
  rw [home_of_claimed h] at hhome
  cases hhome

/-- A staged step is orderly. -/
theorem Household.orderly (h : Household cfg s) {m : Move} (hm : Staged s (.move m)) :
    Orderly .waiting cfg s m := by
  rcases m with o | ms | ⟨targets, workers, catalog⟩ | jobId
  · cases o with
    | enqueueJob a uuid => exact ⟨hm.1, fun hP => Scope.noConfusion hP⟩
    | tryAdmitJob jobId queue target =>
      exact ⟨Queue.covers_of_isWaiting hm.1, fun _ => hm.2⟩
    | claimDispatchJob workerId workerPool targetId expectedTargetKind =>
      exact fun k job _ hjob => ⟨fun hP => Scope.noConfusion hP, fun _ => h.rootAway hjob⟩
    | cancelJob jobId username => exact fun k job hwithdraws => h.rootAway hwithdraws.found
    | markJobCompleted jobId responseText workerId =>
      exact fun job hjob => ⟨away_of_claimed (.inl (hm job hjob)), h.rootAway hjob⟩
    | markJobFailed jobId errorText workerId =>
      exact fun job hjob => ⟨away_of_claimed (.inl (hm job hjob)), h.rootAway hjob⟩
    | markJobCancelled jobId workerId =>
      exact fun job hjob _ => ⟨away_of_claimed (hm job hjob), h.rootAway hjob⟩
    | markJobWaitingOnChild jobId childJobId stage updates workerId =>
      exact fun job hjob _ => away_of_claimed (hm job hjob)
    | requeueJobForPending jobId reason => exact hm.elim
    | requeueStaleJobs =>
      have hstale : s.zrangebyscore s.now = [] := hm
      unfold Orderly
      rw [hstale]
      trivial
    | _ => trivial
  · trivial
  · trivial
  · exact hm.elim

/-- A staged step is timely. -/
theorem Household.timely (h : Household cfg s) {m : Move} (hm : Staged s (.move m)) :
    m.Timely s := by
  rcases m with o | ms | ⟨targets, workers, catalog⟩ | jobId
  · cases o with
    | enqueueJob a uuid => exact hm.1
    | claimDispatchJob workerId workerPool targetId expectedTargetKind =>
      intro k job hlast hjob
      obtain ⟨job', hjob', hhome⟩ := h.placed.home_of_mem (.dispatch workerPool targetId) rfl
        (List.mem_of_getLast? hlast)
      obtain rfl := Option.some.inj (hjob'.symm.trans hjob)
      unfold Job.home at hhome
      rcases hstatus : job'.status
      case admitted => rfl
      all_goals
        rw [hstatus] at hhome
        cases hhome
    | markJobCompleted jobId responseText workerId =>
      intro job hjob
      rw [hm job hjob]
      rfl
    | markJobFailed jobId errorText workerId =>
      intro job hjob
      rw [hm job hjob]
      rfl
    | requeueJobForPending jobId reason => exact hm.elim
    | requeueStaleJobs => exact hm
    | _ => trivial
  · trivial
  · trivial
  · exact hm.elim

/-- A record that is created belongs to no root, or to one that was claimed. -/
structure Adopted (cfg : Settings) (s : Redis) (k : JobId) (new : Job) : Prop where
  /-- It waits. -/
  queued : new.status = .queued
  /-- Its root. -/
  parent : ∀ root, new.rootJobId = some root → k = cfg.derivedChildJobId root ∧
    ∃ rootJob, s.job? root = some rootJob ∧ rootJob.rootJobId = none ∧ rootJob.Claimed

theorem Household.goes (h : Household cfg s) (hgoes : s.Goes cfg B s')
    (hplaced : Placed .waiting s') (hborn : ∀ k new, B k new → Adopted cfg s k new) :
    Household cfg s' := by
  -- A root that was claimed is there still, and has ended with every child that has.
  have hroot : ∀ root rootJob, s.job? root = some rootJob → rootJob.rootJobId = none →
      rootJob.Claimed → ∃ rootNew, s'.job? root = some rootNew ∧ rootNew.rootJobId = none ∧
        rootNew.Claimed ∧
          (rootJob.status.isTerminal = true → rootNew.status.isTerminal = true) := by
    intro root rootJob hrootJob hnone hclaimed
    obtain ⟨rootNew, hrootNew, hcontinues⟩ := hgoes.target hrootJob
    exact ⟨rootNew, hrootNew, (congrArg JobSpec.rootJobId hcontinues.spec).trans hnone,
      hcontinues.claimed_of_claimed hclaimed, hcontinues.ended_of_ended⟩
  refine ⟨hplaced, fun k new root hnew hchild => ?_, fun k hnone => ?_, fun k new hnew hlive => ?_⟩
  · rcases hgoes.source hnew with ⟨old, hold, hcontinues⟩ | ⟨-, hB⟩
    · rw [congrArg JobSpec.rootJobId hcontinues.spec] at hchild
      obtain ⟨hid, rootJob, hrootJob, hnone, hclaimed, hends⟩ := h.parent k old root hold hchild
      obtain ⟨rootNew, hrootNew, hnone', hclaimed', hends'⟩ :=
        hroot root rootJob hrootJob hnone hclaimed
      exact ⟨hid, rootNew, hrootNew, hnone', hclaimed', fun hended =>
        hends' (hends (hcontinues.ended hended))⟩
    · obtain ⟨hid, rootJob, hrootJob, hnone, hclaimed⟩ := (hborn k new hB).parent root hchild
      obtain ⟨rootNew, hrootNew, hnone', hclaimed', -⟩ :=
        hroot root rootJob hrootJob hnone hclaimed
      refine ⟨hid, rootNew, hrootNew, hnone', hclaimed', fun hended => ?_⟩
      rw [(hborn k new hB).queued] at hended
      cases hended
  · have hbefore : s.job? k = none := by
      by_contra hsome
      exact hgoes.lasts k hsome hnone
    obtain ⟨told, hafter, -, hwhere⟩ := hgoes.told k
    rw [hafter, h.unheard k hbefore, List.nil_append]
    rcases hwhere with hempty | ⟨job, hjob, -⟩ | ⟨j, child, hchild, -, hroot'⟩ | ⟨-, hsome⟩
    · exact hempty
    · rw [hbefore] at hjob
      cases hjob
    · obtain ⟨-, rootJob, hrootJob, -⟩ := h.parent j child k hchild hroot'
      rw [hbefore] at hrootJob
      cases hrootJob
    · exact absurd hnone hsome
  · obtain ⟨told, hafter, hdone, -⟩ := hgoes.told k
    intro e he
    rw [hafter] at he
    rcases List.mem_append.mp he with hbefore | hnow
    · rcases hgoes.source hnew with ⟨old, hold, hcontinues⟩ | ⟨hnone, -⟩
      · refine h.unclosed k old hold ?_ e hbefore
        by_contra hended
        rw [hcontinues.ended_of_ended (by simpa using hended)] at hlive
        cases hlive
      · rw [h.unheard k hnone] at hbefore
        cases hbefore
    · exact hdone e hnow

/-- What becomes of a record when a job ends: it has ended, or it and its stream are the same. -/
theorem Redis.Ended.heir (h : s.Ended s') (hold : s.job? j = some old) :
    ∃ new, s'.job? j = some new ∧ new.toJobSpec = old.toJobSpec ∧
      (new.status.isTerminal = true ∨ new = old ∧ s'.events j = s.events j) := by
  rcases h with ⟨k, job, ended, hjob, hlive, hend, hended, hroot, hother, hstreams⟩ |
    ⟨k, root, job, ended, rootJob, rootNew, last, hjob, hlive, hend, hended, hroot, hne, hrootJob,
      hrootLive, hrootNew, hrootSpec, hmirrors, hother, hstream, hdone, hsource, hstreams⟩
  · rcases eq_or_ne j k with rfl | hj
    · obtain rfl := Option.some.inj (hjob.symm.trans hold)
      exact ⟨ended, hended, hend.spec, .inl hend.ended⟩
    · exact ⟨old, (hother j hj).trans hold, rfl, .inr ⟨rfl, hstreams j hj⟩⟩
  · rcases eq_or_ne j k with rfl | hj
    · obtain rfl := Option.some.inj (hjob.symm.trans hold)
      exact ⟨ended, hended, hend.spec, .inl hend.ended⟩
    · rcases eq_or_ne j root with rfl | hj'
      · obtain rfl := Option.some.inj (hrootJob.symm.trans hold)
        refine ⟨rootNew, hrootNew, hrootSpec, .inl ?_⟩
        rw [hmirrors.status]
        exact hend.ended
      · exact ⟨old, (hother j hj hj').trans hold, rfl, .inr ⟨rfl, hstreams j hj hj'⟩⟩

/-- Nothing happens to a job that is not there. -/
theorem Redis.Ended.apart (h : s.Ended s') (hnone : s.job? j = none) :
    s'.job? j = none ∧ s'.events j = s.events j := by
  have hne : ∀ {i : JobId} {job : Job}, s.job? i = some job → j ≠ i := by
    rintro i job hjob rfl
    rw [hnone] at hjob
    cases hjob
  rcases h with ⟨k, job, ended, hjob, hlive, hend, hended, hroot, hother, hstreams⟩ |
    ⟨k, root, job, ended, rootJob, rootNew, last, hjob, hlive, hend, hended, hroot, -, hrootJob,
      hrootLive, hrootNew, hrootSpec, hmirrors, hother, hstream, hdone, hsource, hstreams⟩
  · exact ⟨(hother j (hne hjob)).trans hnone, hstreams j (hne hjob)⟩
  · exact ⟨(hother j (hne hjob) (hne hrootJob)).trans hnone, hstreams j (hne hjob) (hne hrootJob)⟩

theorem Redis.Ended.source (h : s.Ended s') (hnew : s'.job? j = some new) :
    ∃ old, s.job? j = some old := by
  rcases hnone : s.job? j with _ | old
  · rw [(h.apart hnone).1] at hnew
    cases hnew
  · exact ⟨old, rfl⟩

/-- **A child that ends leaves its root ended.** -/
theorem Household.ended_root (h : Household cfg s) (hended : s.Ended s')
    (hold : s.job? j = some old) (hlive : old.status.isTerminal = false)
    (hroot : old.rootJobId = some root) (hnew : s'.job? j = some new)
    (hterminal : new.status.isTerminal = true) :
    ∃ rootNew, s'.job? root = some rootNew ∧ rootNew.status.isTerminal = true := by
  obtain ⟨-, rootJob, hrootJob, hrootless, -⟩ := h.parent j old root hold hroot
  have hne := h.ne_of_root hold hroot
  rcases hended with ⟨k, job, ended, hjob, -, hend, hended, hnone, hother, -⟩ |
    ⟨k, root', job, ended, rootJob', rootNew, -, hjob, -, hend, hended, hroot', -, hrootJob', -,
      hrootNew, -, hmirrors, hother, -, -, -, -⟩
  · rcases eq_or_ne j k with rfl | hj
    · obtain rfl := Option.some.inj (hjob.symm.trans hold)
      have hid := h.placed.keyed j job hold
      refine ⟨rootJob, (hother root hne).trans hrootJob, ?_⟩
      by_contra hopen
      rw [Redis.endedRoot, hroot, Option.filter_some_pos (by simpa [hid] using hne),
        Option.bind_some, hrootJob, Option.filter_some_pos (by simpa using hopen)] at hnone
      cases hnone
    · obtain rfl := Option.some.inj (((hother j hj).trans hold).symm.trans hnew)
      rw [hlive] at hterminal
      cases hterminal
  · rcases eq_or_ne j k with rfl | hj
    · obtain rfl := Option.some.inj (hjob.symm.trans hold)
      obtain rfl := Option.some.inj (hroot'.symm.trans hroot)
      refine ⟨rootNew, hrootNew, ?_⟩
      rw [hmirrors.status]
      exact hend.ended
    · rcases eq_or_ne j root' with rfl | hj'
      · -- A root has no root of its own.
        obtain ⟨-, rootJob'', hrootJob'', hnone, -⟩ := h.parent k job j hjob hroot'
        obtain rfl := Option.some.inj (hrootJob''.symm.trans hold)
        rw [hnone] at hroot
        cases hroot
      · obtain rfl := Option.some.inj (((hother j hj hj').trans hold).symm.trans hnew)
        rw [hlive] at hterminal
        cases hterminal

theorem Household.ended (h : Household cfg s) (hended : s.Ended s') (hplaced : Placed .waiting s') :
    Household cfg s' := by
  refine ⟨hplaced, fun k new root hnew hchild => ?_, fun k hnone => ?_, fun k new hnew hlive => ?_⟩
  · obtain ⟨old, hold⟩ := hended.source hnew
    obtain ⟨new', hnew', hspec, hheir⟩ := hended.heir hold
    obtain rfl := Option.some.inj (hnew'.symm.trans hnew)
    rw [congrArg JobSpec.rootJobId hspec] at hchild
    obtain ⟨hid, rootJob, hrootJob, hnone, hclaimed, hends⟩ := h.parent k old root hold hchild
    obtain ⟨rootNew, hrootNew, hrootSpec, hrootHeir⟩ := hended.heir hrootJob
    refine ⟨hid, rootNew, hrootNew, (congrArg JobSpec.rootJobId hrootSpec).trans hnone, ?_,
      fun hterminal => ?_⟩
    · rcases hrootHeir with hterminal | ⟨rfl, -⟩
      · exact .inr hterminal
      · exact hclaimed
    -- A child that ends now takes its root along, and one that had ended before had done so.
    · by_cases hlive : old.status.isTerminal = false
      · obtain ⟨rootNew', hrootNew', hterminal'⟩ :=
          h.ended_root hended hold hlive hchild hnew hterminal
        obtain rfl := Option.some.inj (hrootNew'.symm.trans hrootNew)
        exact hterminal'
      · rcases hrootHeir with hterminal' | ⟨rfl, -⟩
        · exact hterminal'
        · exact hends (by simpa using hlive)
  · rcases hbefore : s.job? k with _ | old
    · rw [(hended.apart hbefore).2]
      exact h.unheard k hbefore
    · obtain ⟨new, hnew, -⟩ := hended.heir hbefore
      rw [hnone] at hnew
      cases hnew
  · obtain ⟨old, hold⟩ := hended.source hnew
    obtain ⟨new', hnew', hspec, hheir⟩ := hended.heir hold
    obtain rfl := Option.some.inj (hnew'.symm.trans hnew)
    rcases hheir with hterminal | ⟨rfl, hstream⟩
    · rw [hlive] at hterminal
      cases hterminal
    · rw [hstream]
      exact h.unclosed k new' hold hlive

/-! ### Runs -/

theorem placed_emit (h : Placed .waiting s) (event : Event) : Placed .waiting (s.emit k event) :=
  h.congr (Redis.jobs_emit s k event) fun queue _ => by rw [Redis.queues_emit]

/-- **A staged step ends nothing, or one job and its root.** -/
theorem Household.goes_or_ended (h : Household cfg s) {x : Scene} (hx : Staged s x) :
    (∃ B : JobId → Job → Prop, s.Goes cfg B (x.apply cfg s) ∧
      ∀ k new, B k new → Adopted cfg s k new) ∨ s.Ended (x.apply cfg s) := by
  rcases x with m | ⟨jobId, event⟩
  · have hsplit : s.Goes cfg (m.Born cfg s) (m.apply cfg s) ∨ s.Closed (m.apply cfg s) :=
      goes_or_closed_apply h.placed.keyed m (h.timely hx)
    rcases hsplit with hgoes | hclosed
    · refine .inl ⟨m.Born cfg s, hgoes, ?_⟩
      rintro k new ⟨a, modelInfo, targetKind, rfl, hbears⟩
      refine ⟨rfl, fun root hroot => ?_⟩
      rcases m with o | _ | _ | _
      · cases o with
        | enqueueJob b uuid =>
          obtain ⟨rfl, -⟩ := hbears
          have hroot : a.rootJobId = some root := hroot
          rw [hx.2] at hroot
          cases hroot
        | enqueueChildJobOnce rootJobId prepared =>
          obtain ⟨rootJob, hrootJob, -, -, -, hid, rfl⟩ := hbears
          obtain rfl : rootJobId = root := Option.some.inj hroot
          exact ⟨hid, rootJob, hrootJob, hx rootJob hrootJob⟩
        | _ => exact hbears.elim
      all_goals exact hbears.elim
    · exact .inr (ended_of_closed h.placed.keyed hclosed)
  · obtain ⟨hevent, job, hjob, hrunning⟩ := hx
    refine .inl ⟨fun _ _ => False, ?_, fun _ _ => False.elim⟩
    have hlive : job.status.isTerminal = false := by
      rw [hrunning]
      rfl
    have happly : (Scene.emit jobId event).apply cfg s = s.emit jobId event := by
      rw [Scene.apply, alone_emitEvent]
    rw [happly]
    exact ⟨.of_eq h.placed.keyed (Redis.jobs_emit s jobId event),
      lasts_of_eq (Redis.jobs_emit s jobId event), told_emit rfl hjob rfl hjob hlive hevent⟩

theorem Household.placed_apply (h : Household cfg s) {x : Scene} (hx : Staged s x) :
    Placed .waiting (x.apply cfg s) := by
  rcases x with m | ⟨jobId, event⟩
  · exact h.placed.step m (h.orderly hx)
  · rw [Scene.apply, alone_emitEvent]
    exact placed_emit h.placed event

/-- **Every staged step keeps the household.** -/
theorem Household.apply (h : Household cfg s) {x : Scene} (hx : Staged s x) :
    Household cfg (x.apply cfg s) := by
  rcases h.goes_or_ended hx with ⟨B, hgoes, hborn⟩ | hended
  · exact h.goes hgoes (h.placed_apply hx) hborn
  · exact h.ended hended (h.placed_apply hx)

theorem household_of_pristine (h : Pristine s) : Household cfg s := by
  refine ⟨.pristine h, fun k child root hchild => ?_, fun k _ => ?_, fun k job hjob => ?_⟩
  · rw [h.job? k] at hchild
    cases hchild
  · obtain ⟨targets, workers, catalog, clockMs, rfl⟩ := h
    rfl
  · rw [h.job? k] at hjob
    cases hjob

theorem endsNow_iff : endsNow s s' k = true ↔ ∃ old new, s.job? k = some old ∧
    old.status.isTerminal = false ∧ s'.job? k = some new ∧ new.status.isTerminal = true := by
  unfold endsNow
  rw [Bool.and_eq_true, Option.any_eq_true, Option.any_eq_true]
  constructor
  · rintro ⟨⟨old, hold, hlive⟩, new, hnew, hended⟩
    exact ⟨old, new, hold, by simpa using hlive, hnew, hended⟩
  · rintro ⟨old, new, hold, hlive, hnew, hended⟩
    exact ⟨⟨old, hold, by simpa using hlive⟩, new, hnew, hended⟩

/-- What has ended stays as it is when another job ends. -/
theorem Redis.Ended.settled (h : s.Ended s') (hold : s.job? j = some old)
    (hterminal : old.status.isTerminal = true) :
    s'.job? j = some old ∧ s'.events j = s.events j := by
  have hne : ∀ {i : JobId} {job : Job}, s.job? i = some job → job.status.isTerminal = false →
      j ≠ i := by
    rintro i job hjob hlive rfl
    obtain rfl := Option.some.inj (hjob.symm.trans hold)
    rw [hlive] at hterminal
    cases hterminal
  rcases h with ⟨k, job, ended, hjob, hlive, hend, hended, hroot, hother, hstreams⟩ |
    ⟨k, root, job, ended, rootJob, rootNew, last, hjob, hlive, hend, hended, hroot, -, hrootJob,
      hrootLive, hrootNew, hrootSpec, hmirrors, hother, hstream, hdone, hsource, hstreams⟩
  · exact ⟨(hother j (hne hjob hlive)).trans hold, hstreams j (hne hjob hlive)⟩
  · have hk := hne hjob hlive
    have hroot' := hne hrootJob hrootLive
    exact ⟨(hother j hk hroot').trans hold, hstreams j hk hroot'⟩

/-- **What a root ended with stays so.** -/
theorem EndedWith.apply (h : Household cfg s) {x : Scene} (hx : Staged s x)
    (hwith : EndedWith s root k) : EndedWith (x.apply cfg s) root k := by
  obtain ⟨rootJob, child, hrootJob, hchild, hroot, hterminal, hmirrors, hclosed⟩ := hwith
  have hrootTerminal : rootJob.status.isTerminal = true := by
    rw [hmirrors.status]
    exact hterminal
  rcases h.goes_or_ended hx with ⟨B, hgoes, -⟩ | hended
  · obtain ⟨rootNew, hrootNew, hrootContinues⟩ := hgoes.target hrootJob
    obtain ⟨childNew, hchildNew, hchildContinues⟩ := hgoes.target hchild
    obtain ⟨hrootStatus, hrootResult, hrootError⟩ := hrootContinues.claimed (.inr hrootTerminal)
    obtain ⟨hstatus, hresult, herror⟩ := hchildContinues.claimed (.inr hterminal)
    refine ⟨rootNew, childNew, hrootNew, hchildNew,
      (congrArg JobSpec.rootJobId hchildContinues.spec).trans hroot,
      hchildContinues.ended_of_ended hterminal, ⟨?_, fun hcompleted => ?_, fun hfailed => ?_⟩, ?_⟩
    · rw [hrootStatus, hstatus]
      exact hmirrors.status
    · rw [hrootResult, hresult]
      exact hmirrors.result (hstatus ▸ hcompleted)
    · rw [hrootError, hmirrors.error (hstatus ▸ hfailed), mirroredError, mirroredError, herror]
    · -- Nothing is told of a root that has ended with its only child.
      obtain ⟨told, hafter, -, hwhere⟩ := hgoes.told root
      have hsilent : told = [] := by
        rcases hwhere with hempty | ⟨job, hjob, hlive⟩ | ⟨j, job, hjob, hlive, hroot'⟩ | ⟨hnone, -⟩
        · exact hempty
        · obtain rfl := Option.some.inj (hjob.symm.trans hrootJob)
          rw [hrootTerminal] at hlive
          cases hlive
        · have hself : j = k := (h.parent j job root hjob hroot').1.trans
            (h.parent k child root hchild hroot).1.symm
          subst hself
          obtain rfl := Option.some.inj (hjob.symm.trans hchild)
          rw [hterminal] at hlive
          cases hlive
        · rw [hrootJob] at hnone
          cases hnone
      rw [hafter, hsilent, List.append_nil]
      exact hclosed
  · obtain ⟨hrootSame, hstream⟩ := hended.settled hrootJob hrootTerminal
    obtain ⟨hchildSame, -⟩ := hended.settled hchild hterminal
    exact ⟨rootJob, child, hrootSame, hchildSame, hroot, hterminal, hmirrors, hstream ▸ hclosed⟩

/-- **A root that ends in the same step as its child ends with it.** -/
theorem endedWith_of_endsNow (h : Household cfg s) {x : Scene} (hx : Staged s x)
    (hchild : s.job? k = some child) (hroot : child.rootJobId = some root)
    (hends : endsNow s (x.apply cfg s) k = true)
    (hrootEnds : endsNow s (x.apply cfg s) root = true) :
    EndedWith (x.apply cfg s) root k := by
  have hne := h.ne_of_root hchild hroot
  obtain ⟨old, new, hold, hlive, hnew, hterminal⟩ := endsNow_iff.mp hends
  obtain rfl := Option.some.inj (hold.symm.trans hchild)
  obtain ⟨rootOld, rootNew, hrootOld, hrootLive, hrootNew, hrootTerminal⟩ :=
    endsNow_iff.mp hrootEnds
  rcases h.goes_or_ended hx with ⟨B, hgoes, -⟩ | hended
  · obtain ⟨new', hnew', hcontinues⟩ := hgoes.target hold
    obtain rfl := Option.some.inj (hnew'.symm.trans hnew)
    rw [hcontinues.live hlive] at hterminal
    cases hterminal
  · -- A record that ends with the step is not one that stays the same.
    have hmoves : ∀ {j : JobId} {old new : Job}, s.job? j = some old →
        old.status.isTerminal = false → (x.apply cfg s).job? j = some new →
        new.status.isTerminal = true → (x.apply cfg s).job? j ≠ s.job? j := by
      intro j old new hold hlive hnew hterminal hsame
      obtain rfl := Option.some.inj (hnew.symm.trans (hsame.trans hold))
      rw [hlive] at hterminal
      cases hterminal
    have hmovesChild := hmoves hold hlive hnew hterminal
    have hmovesRoot := hmoves hrootOld hrootLive hrootNew hrootTerminal
    rcases hended with ⟨k', _, _, _, _, _, _, _, hother, _⟩ |
      ⟨k', root', job, ended, rootJob, rootNew', last, hjob, _, hend, hended, hroot', hne',
        hrootJob,
        _, hrootNew', _, hmirrors, hother, hstream, hdone, hsource, _⟩
    · have hk : k = k' := by_contra fun hk => hmovesChild (hother k hk)
      have hr : root = k' := by_contra fun hr => hmovesRoot (hother root hr)
      exact absurd (hr.trans hk.symm) hne
    · have hk : k = k' := by
        by_contra hk
        -- Then the child is the root that ends, which has no root.
        have hself : k = root' := by_contra fun hk' => hmovesChild (hother k hk hk')
        obtain ⟨-, parent, hparent, hnone, -⟩ := h.parent k' job root' hjob hroot'
        rw [← hself, hold] at hparent
        obtain rfl := Option.some.inj hparent
        rw [hnone] at hroot
        cases hroot
      subst hk
      have hr : root = root' := by_contra fun hr => hmovesRoot (hother root hne hr)
      subst hr
      obtain rfl := Option.some.inj (hended.symm.trans hnew)
      refine ⟨rootNew', ended, hrootNew', hended,
        (congrArg JobSpec.rootJobId hend.spec).trans hroot', hend.ended, hmirrors,
        s.events root, last, hstream, hdone, hsource, ?_⟩
      exact h.unclosed root rootOld hrootOld hrootLive

/-- In every run of staged steps the household is kept, and roots ended with their children. -/
theorem household_of_plays {p : Redis × (JobId → Option JobId)} (h : Plays cfg Staged p) :
    Household cfg p.1 ∧ ∀ root k, p.2 root = some k → EndedWith p.1 root k := by
  refine Reached.invariant (I := fun q : Redis × (JobId → Option JobId) =>
    Household cfg q.1 ∧ ∀ root k, q.2 root = some k → EndedWith q.1 root k) ?_ ?_ h
  · rintro q ⟨hpristine, hnone⟩
    rw [hnone]
    refine ⟨household_of_pristine hpristine, ?_⟩
    rintro root k ⟨⟩
  · rintro q x ⟨hhousehold, hwith⟩ hx
    refine ⟨hhousehold.apply hx, fun root k hthrough => ?_⟩
    have hthrough : through cfg q.1 x q.2 root = some k := hthrough
    unfold through at hthrough
    split at hthrough
    · next hrootEnds =>
      have hfound := List.find?_some hthrough
      obtain ⟨hchild, hends⟩ := Bool.and_eq_true_iff.mp hfound
      obtain ⟨child, hchild, hroot⟩ := (Option.any_eq_true _ _).mp hchild
      exact endedWith_of_endsNow hhousehold hx hchild (of_decide_eq_true hroot).1 hends hrootEnds
    · exact (hwith root k hthrough).apply hhousehold hx

/-- **The root mirrors its child** in every run of staged steps. -/
theorem mirrored_of_staged (cfg : Settings) {p : Redis × (JobId → Option JobId)}
    (h : Plays cfg Staged p) : Mirrored p.1 p.2 := by
  obtain ⟨hhousehold, hwith⟩ := household_of_plays h
  refine ⟨fun k child root hchild hroot _ hterminal => ?_, hwith⟩
  obtain ⟨-, rootJob, hrootJob, -, -, hends⟩ := hhousehold.parent k child root hchild hroot
  exact ⟨rootJob, hrootJob, hends hterminal⟩

/-- A child that is completed before its root is marked as waiting. -/
def quickChild : List Scene :=
  [.move (.op (.enqueueJob smallUpload 2)),
    .move (.op (.tryAdmitJob 2 (.pending .parse .p1) smallTarget)),
    .move (.op (.claimDispatchJob "w" .parser "t" none)),
    .move (.op (.enqueueChildJobOnce 2 smallAnswer)),
    .move (.op (.tryAdmitJob 5 (.pending .chat .p1) smallTarget)),
    .move (.op (.claimDispatchJob "v" .chat "t" none)),
    .emit 5 (.bare (.token "hi".toList)),
    .move (.op (.markJobCompleted 5 "hi".toList (some "v"))),
    .move (.op (.markJobWaitingOnChild 2 5 .childEnqueued ⟨none, some 5, none⟩ (some "w")))]

/-- The state after the first steps of it. -/
def quickRun (n : ℕ) : Redis × (JobId → Option JobId) :=
  (quickChild.take n).foldl
    (fun p x => noted (Scene.apply smallSettings) (through smallSettings) x p)
    (smallStore, fun _ => none)

/-- A root whose child was completed first is marked as waiting, and stays completed. -/
theorem mirrored_of_staged_quick : (quickRun 9).2 2 = some 5 ∧
    Mirrored (quickRun 9).1 (quickRun 9).2 := by
  have hclaimed : ((quickRun 3).1.job? 2).all
      (fun job => job.rootJobId = none ∧ job.status = .running)
      = true := by decide +kernel
  have hemits : (((quickRun 6).1.job? 5).any fun job => job.status = .running) = true := by
    decide +kernel
  have hreports : (((quickRun 7).1.job? 5).all fun job => job.status = .running) = true := by
    decide +kernel
  have hwaits : (((quickRun 8).1.job? 2).all fun job => job.status.isTerminal) = true := by
    decide +kernel
  have hstart : Plays smallSettings Staged (quickRun 0) := .start ⟨pristine_smallStore, rfl⟩
  have hchild : Plays smallSettings Staged (quickRun 4) :=
    (((hstart.step (quickChild.get ⟨0, by decide⟩) ⟨fun _ => rfl, rfl⟩).step
      (quickChild.get ⟨1, by decide⟩) ⟨rfl, by decide⟩).step (quickChild.get ⟨2, by decide⟩)
        trivial).step (quickChild.get ⟨3, by decide⟩) fun job hjob => by
          obtain ⟨hroot, hrunning⟩ := of_decide_eq_true (forall_of_all hclaimed job hjob)
          exact ⟨hroot, .inl hrunning⟩
  have hruns : Plays smallSettings Staged (quickRun 6) :=
    (hchild.step (quickChild.get ⟨4, by decide⟩) ⟨rfl, by decide⟩).step
      (quickChild.get ⟨5, by decide⟩) trivial
  obtain ⟨job, hjob, hrunning⟩ := (Option.any_eq_true _ _).mp hemits
  have hends : Plays smallSettings Staged (quickRun 9) :=
    ((hruns.step (quickChild.get ⟨6, by decide⟩) ⟨rfl, job, hjob, of_decide_eq_true hrunning⟩).step
      (quickChild.get ⟨7, by decide⟩) fun job hjob =>
        of_decide_eq_true (forall_of_all hreports job hjob)).step
      (quickChild.get ⟨8, by decide⟩) fun job hjob => .inr (forall_of_all hwaits job hjob)
  exact ⟨by decide +kernel, mirrored_of_staged smallSettings hends⟩

end Gateway

end AiAgent

import AiAgent.Gateway.Operations

/-!
# What an operation does on the side

Most commands of an operation are neither about its record nor about the active set: an event is
appended, capacity is given back, an id leaves a list. A program of such commands only is plain, and
which events it may append is said with it (`AiAgent.Gateway.Cmd.IsPlain`).
-/

namespace AiAgent

namespace Gateway

open Command

variable {E : Event → Prop} {α : Type}

/-- The write saves no record, puts nothing into the active set, and appends only events of `E`. -/
def Write.IsPlain (E : Event → Prop) : Write → Prop
  | .set _ | .zadd _ _ => False
  | .xadd _ event => E event
  | _ => True

/-- So do all writes of the command. -/
def Cmd.IsPlain (E : Event → Prop) : Cmd → Prop
  | .write ws => ∀ w ∈ ws, w.IsPlain E
  | _ => True

/-- The program is plain. -/
abbrev Plain (E : Event → Prop) (p : Gw α) : Prop := p.Only (Cmd.IsPlain E)

theorem plain_ask {c : Cmd} (hc : c.IsPlain E) : Plain E (ask c) := Program.only_send hc

theorem plain_write {w : Write} (hw : w.IsPlain E) : Plain E (ask (.write [w])) :=
  by
  refine plain_ask fun w' hw' => ?_
  rw [List.mem_singleton.mp hw']
  exact hw

theorem plain_withLock {l : Lock} {body : Gw α} (h : Plain E body) : Plain E (withLock l body) :=
  (plain_ask (c := .lock l) trivial).bind fun _ => h.bind fun a =>
    (plain_ask (c := .unlock l) trivial).bind fun _ => Program.only_pure a

theorem plain_appendEvent (jobId : JobId) {event : Event} (hevent : E event) :
    Plain E (appendEvent jobId event) :=
  plain_write (w := .xadd jobId event) hevent

theorem plain_getDistinctRootJobId (jobId : JobId) : Plain E (getDistinctRootJobId jobId) := by
  refine (plain_ask (c := .get jobId) trivial).bind ?_
  rintro (_ | job)
  · exact Program.only_pure _
  · dsimp only
    split <;> exact Program.only_pure _

theorem plain_emitEvent (jobId : JobId) {event : Event} (hevent : E event)
    (hmirrored : ∀ rootJobId, E (buildRootMirroredEvent rootJobId jobId event)) :
    Plain E (emitEvent jobId event) := by
  refine (plain_appendEvent jobId hevent).bind fun _ => ?_
  split
  · exact Program.only_pure ()
  · refine (plain_getDistinctRootJobId jobId).bind ?_
    rintro (_ | rootJobId)
    · exact Program.only_pure ()
    · exact plain_appendEvent rootJobId (hmirrored rootJobId)

theorem plain_releaseReservedCapacity (job : Job) : Plain E (releaseReservedCapacity job) := by
  unfold releaseReservedCapacity
  rcases job.holder with - | targetId
  · exact Program.only_pure ()
  refine plain_withLock ((plain_ask (c := .write _) ?_).bind fun _ => ?_)
  · split <;> simp [reservationWrites, Cmd.IsPlain, Write.IsPlain]
  refine (plain_ask (c := .hgetallUsage targetId) trivial).bind fun _ => ?_
  refine (plain_write (w := .hsetUsage targetId _) trivial).bind fun _ => ?_
  split
  · exact Program.only_pure ()
  · refine (plain_ask (c := .hgetModel targetId job.modelKey) trivial).bind fun remaining => ?_
    split
    · exact plain_write (w := .hdelModel targetId job.modelKey) trivial
    · exact Program.only_pure ()

theorem plain_removeFromProcessing (workerId : Option WorkerId) (jobId : JobId) :
    Plain E (removeFromProcessing workerId jobId) := by
  unfold removeFromProcessing
  rcases workerId with - | workerId
  · exact Program.only_pure ()
  · dsimp only
    split
    · exact Program.only_pure ()
    · exact (plain_ask (c := .lrem _ jobId) trivial).bind fun _ => Program.only_pure ()

theorem plain_hasWorkerForTargetKind (workloadClass : Workload) (targetKind : TargetKind) :
    Plain E (hasWorkerForTargetKind workloadClass targetKind) := by
  refine (plain_ask (c := .workers) trivial).bind fun workers => ?_
  split
  · exact Program.only_pure false
  · exact (plain_ask (c := .targets) trivial).bind fun _ => Program.only_pure _

end Gateway

end AiAgent

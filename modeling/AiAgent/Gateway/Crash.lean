import AiAgent.Gateway.Custody

/-!
# Operations that are cut short

A process may die between any two commands of an operation; a `pipeline(transaction=True)` is one
command. In a run of whole steps and of operations that are cut short every open job is found as
long as no process dies with a job in hand (`AiAgent.Gateway.found_of_careful`).

But processes do die with a job in hand: `try_admit_job` takes the job out of its pending list four
commands before it puts it into the active set, and a process that dies in between loses the job
for good (`AiAgent.Gateway.not_findable_deadAdmission`). `enqueue_job` saves and pushes in one
transaction.
-/

namespace AiAgent

namespace Gateway

open Command

/-- What happens to the store: a whole step, or an operation whose process dies after some
commands. -/
inductive Fate where
  /-- A whole step. -/
  | whole (m : Move)
  /-- An operation that is cut short. -/
  | cut (o : Op) (n : ℕ)

/-- The state it leaves. -/
def Fate.apply (cfg : Settings) : Fate → Redis → Redis
  | .whole m, s => m.apply cfg s
  | .cut o n, s => (o.body cfg).cut soloStore 0 n s

/-- What an operation has touched when it is cut short. -/
def Op.touches (cfg : Settings) (o : Op) (n : ℕ) (s : Redis) : List Touch :=
  touchesOf ((o.body cfg).issued soloStore 0 n s)

/-- Nobody dies with a job in hand, and a root that is told to wait is found. -/
def Careful (cfg : Settings) (s : Redis) : Fate → Prop
  | .whole m => m.Finds s
  | .cut o n => ∀ k, ¬InHand s k (o.touches cfg n s)

variable {cfg : Settings} {s : Redis}

/-- **An operation that is cut short with no job in hand leaves every job where it is found.** -/
theorem Found.cut (h : Found s) (cfg : Settings) (o : Op) (n : ℕ)
    (hfree : ∀ k, ¬InHand s k (o.touches cfg n s)) :
    Found ((o.body cfg).cut soloStore 0 n s) := by
  obtain ⟨hsound, hpops⟩ := sound_issued cfg o n s
  have hsame : SamePlaces (s.after (o.touches cfg n s)) ((o.body cfg).cut soloStore 0 n s) := by
    rw [Program.cut_eq]
    exact samePlaces_execAll s hpops [] (.refl s)
  exact (h.after hsound hfree).congr hsame.jobs hsame.active
    fun w p => hsame.queues (.pending w p) rfl

/-- **In every run in which nobody dies with a job in hand every open job is found**, in every
state. -/
theorem found_of_careful (h : Reached (Fate.apply cfg) Pristine (Careful cfg) s) :
    ∀ k job, s.job? k = some job → job.isOpen = true → s.Findable k job := by
  have hfound : Found s := by
    refine h.invariant (fun s => found_of_pristine) fun s fate hs hfate => ?_
    cases fate with
    | whole m => exact hs.apply cfg m hfate
    | cut o n => exact hs.cut cfg o n hfate
  exact hfound.findable

/-- A process that dies once the job it admits is in the active set. -/
theorem findable_leased :
    ∃ job, (((Op.tryAdmitJob 2 (.pending .chat .p1) smallTarget).body smallSettings).cut
        soloStore 0 9 (smallRun [.op (.enqueueJob smallRequest 2)])).job? 2 = some job ∧
      job.isOpen = true ∧
      (((Op.tryAdmitJob 2 (.pending .chat .p1) smallTarget).body smallSettings).cut
        soloStore 0 9 (smallRun [.op (.enqueueJob smallRequest 2)])).Findable 2 job := by
  have enqueued : Reached (Fate.apply smallSettings) Pristine (Careful smallSettings)
      (smallRun [.op (.enqueueJob smallRequest 2)]) :=
    (Reached.start pristine_smallStore).step (Fate.whole (.op (.enqueueJob smallRequest 2))) trivial
  refine ⟨_, rfl, rfl, found_of_careful (enqueued.step
    (Fate.cut (.tryAdmitJob 2 (.pending .chat .p1) smallTarget) 9) fun k hhand => ?_) 2 _ rfl rfl⟩
  have htouches : ∃ job, job.id = 2 ∧
      (Op.tryAdmitJob 2 (.pending .chat .p1) smallTarget).touches smallSettings 9
          (smallRun [.op (.enqueueJob smallRequest 2)]) =
        [.enter 2 30, .save job, .pull (.pending .chat .p1) 2] := ⟨_, rfl, rfl⟩
  obtain ⟨job, hid, htouches⟩ := htouches
  obtain ⟨htaken, -⟩ := hhand
  rw [htouches] at htaken
  -- The other jobs are not touched.
  rcases eq_or_ne k 2 with rfl | hne
  · simp [taken] at htaken
  · simp [taken, hid, hne.symm] at htaken

/-- **A process that dies after its `LREM` loses the job**: it is queued, in no pending list and
not in the active set. -/
theorem not_findable_deadAdmission :
    Run smallSettings (fun _ _ => True) (smallRun [.op (.enqueueJob smallRequest 2)]) ∧
      ¬∀ k job, (((Op.tryAdmitJob 2 (.pending .chat .p1) smallTarget).body smallSettings).cut
          soloStore 0 5 (smallRun [.op (.enqueueJob smallRequest 2)])).job? k = some job →
        job.isOpen = true →
        (((Op.tryAdmitJob 2 (.pending .chat .p1) smallTarget).body smallSettings).cut
          soloStore 0 5 (smallRun [.op (.enqueueJob smallRequest 2)])).Findable k job := by
  refine ⟨reached_smallRun _, fun h => ?_⟩
  have hjob : ∃ job, (((Op.tryAdmitJob 2 (.pending .chat .p1) smallTarget).body smallSettings).cut
      soloStore 0 5 (smallRun [.op (.enqueueJob smallRequest 2)])).job? 2 = some job ∧
      job.isOpen = true ∧ job.pendingQueue = .pending .chat .p1 := ⟨_, rfl, rfl, rfl⟩
  obtain ⟨job, hjob, hopen, hqueue⟩ := hjob
  rcases h 2 job hjob hopen with ⟨-, hlisted⟩ | hactive
  · rw [hqueue] at hlisted
    revert hlisted
    decide +kernel
  · revert hactive
    decide +kernel

end Gateway

end AiAgent

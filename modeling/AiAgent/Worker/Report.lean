import AiAgent.Gateway.Vouched
import AiAgent.Worker.Conduct

/-!
# What calls do to the records

A job is completed by `mark_job_completed` of a worker, and by nothing else in a run whose other
steps are what their callers make of them (`AiAgent.Worker.ordinary`). Each call may raise after any
number of its commands; what it has done to the records then is
`AiAgent.Worker.grows_exec`.

Which worker holds a job is not recorded anywhere. The log of a run says which one was the last to
be handed it (`AiAgent.Worker.lastHanded`).
-/

namespace AiAgent

namespace Worker

open Command Gateway

/-! ### Calls that raise -/

/-- The call has raised. -/
def Call.raises : (c : Call) → c.Reply → Bool
  | .isCancelRequested _, .error _ | .emitEvent _ _, .error _ | .appendMessage _, .error _
  | .markJobCompleted .., .error _ | .markJobFailed .., .error _ | .markJobCancelled .., .error _ =>
    true
  | _, _ => false

/-- The part of a post that a call which may raise leaves. -/
theorem Post.canReply_raised {α : Type} {t t' : Post} {r : Except Failure α} {job : Job}
    (h : (t.raised r t').CanReply job) :
    (∃ e, r = .error e) ∧ t.job? = some job ∨ t'.CanReply job := by
  rcases r with e | a
  · refine .inl ⟨⟨e, rfl⟩, ?_⟩
    rcases t with _ | _ | _ | _ | _
    case trying => exact congrArg some h
    case replied => exact congrArg some h
    case lost => exact congrArg some h
    all_goals exact h.elim
  · exact .inr h

theorem Post.canReply_of_emit {t : Post} {event : Event} {job : Job}
    (h : (t.emit event).CanReply job) : t.CanReply job := by
  rcases t with _ | _ | _ | _ | _
  case trying =>
    unfold Post.emit at h
    dsimp only at h
    split at h <;> exact h
  all_goals exact h

/-- **Who may reply after a call** was handed the job by it, or could before and has not; or it has
raised. -/
theorem Post.canReply_next {t : Post} {c : Call} {r : c.Reply} {job : Job}
    (h : (t.next c r).CanReply job) :
    c.hands r = some job ∨ (t.CanReply job ∧ ∀ m, c = .appendMessage m → m.role = .user) ∨
      c.raises r = true ∧ t.job? = some job := by
  have hother : (∀ m, c ≠ .appendMessage m) → t.CanReply job →
      t.CanReply job ∧ ∀ m, c = .appendMessage m → m.role = .user :=
    fun hne ht => ⟨ht, fun m hm => absurd hm (hne m)⟩
  rcases c with _ | _ | _ | _ | _ | ⟨jobId, event⟩ | m | _ | _ | _
  case claimDispatchJob =>
    rcases r with _ | job'
    · exact .inr (.inl (hother (fun _ => Call.noConfusion) h))
    · refine .inl ?_
      dsimp only [Post.next] at h
      dsimp only [Call.hands]
      split at h
      · exact h.elim
      · next hkind =>
        rw [if_neg hkind]
        exact congrArg some h
  case isCancelRequested =>
    rcases Post.canReply_raised h with ⟨⟨e, rfl⟩, hjob⟩ | h
    · exact .inr (.inr ⟨rfl, hjob⟩)
    · exact .inr (.inl (hother (fun _ => Call.noConfusion) h))
  case emitEvent =>
    rcases Post.canReply_raised h with ⟨⟨e, rfl⟩, hjob⟩ | h
    · exact .inr (.inr ⟨rfl, hjob⟩)
    · exact .inr (.inl (hother (fun _ => Call.noConfusion) (Post.canReply_of_emit h)))
  -- Once the answer is written there is none left to write.
  case appendMessage =>
    dsimp only [Post.next] at h
    split at h
    · next hrole =>
      refine .inr (.inl ⟨h, ?_⟩)
      rintro _ ⟨⟩
      exact hrole
    rcases Post.canReply_raised h with ⟨⟨e, rfl⟩, hjob⟩ | h
    · exact .inr (.inr ⟨rfl, hjob⟩)
    · rcases t with _ | _ | _ | _ | _ <;> exact h.elim
  case markJobCompleted =>
    rcases Post.canReply_raised h with ⟨⟨e, rfl⟩, hjob⟩ | h
    · exact .inr (.inr ⟨rfl, hjob⟩)
    · exact h.elim
  case markJobCancelled =>
    rcases Post.canReply_raised h with ⟨⟨e, rfl⟩, hjob⟩ | h
    · exact .inr (.inr ⟨rfl, hjob⟩)
    · exact h.elim
  case markJobFailed => exact h.elim
  all_goals exact .inr (.inl (hother (fun _ => Call.noConfusion) h))

theorem Post.raised_eq_replied {α : Type} {t t' : Post} {r : Except Failure α} {job : Job}
    {text told : Text} {result : Option Text}
    (h : t.raised r t' = .replied job text told result) :
    (∃ a, r = .ok a) ∧ t' = .replied job text told result := by
  rcases r with e | a
  · rcases t with _ | _ | _ | _ | _ <;> cases h
  · exact ⟨⟨a, rfl⟩, h⟩

theorem Post.emit_eq_replied {t : Post} {event : Event} {job : Job} {text told : Text}
    {result : Option Text} (h : t.emit event = .replied job text told result) :
    t = .replied job text told result := by
  rcases t with _ | _ | _ | _ | _
  case trying =>
    unfold Post.emit at h
    dsimp only at h
    split at h <;> cases h
  all_goals exact h

/-- **Who has appended an answer after a call** had done so before, or has done it by the call. -/
theorem Post.next_eq_replied {t : Post} {c : Call} {r : c.Reply} {job : Job} {text told : Text}
    {result : Option Text} (h : t.next c r = .replied job text told result) :
    t = .replied job text told result ∨ t = .trying job told result ∧ c.raises r = false ∧
      ∃ m, c = .appendMessage m ∧ m.role ≠ .user ∧ m.content = text := by
  rcases c with _ | _ | _ | _ | _ | ⟨jobId, event⟩ | m | _ | _ | _
  case claimDispatchJob =>
    rcases r with _ | job'
    · exact .inl h
    · dsimp only [Post.next] at h
      split at h <;> cases h
  case isCancelRequested => exact .inl (Post.raised_eq_replied h).2
  case emitEvent => exact .inl (Post.emit_eq_replied (Post.raised_eq_replied h).2)
  case appendMessage =>
    dsimp only [Post.next] at h
    split at h
    · exact .inl h
    next hrole =>
    obtain ⟨⟨a, rfl⟩, h⟩ := Post.raised_eq_replied h
    rcases t with _ | _ | _ | _ | _
    case trying =>
      cases h
      exact .inr ⟨rfl, rfl, m, rfl, hrole, rfl⟩
    all_goals cases h
    exact .inl rfl
  case markJobCompleted => cases (Post.raised_eq_replied h).2
  case markJobCancelled => cases (Post.raised_eq_replied h).2
  case markJobFailed => cases h
  all_goals exact .inl h

/-- What a worker has emitted that has caught no exception. -/
def Post.told? : Post → Option (Job × Text × Option Text)
  | .trying job told result | .replied job _ told result => some (job, told, result)
  | _ => none

theorem Post.told?_raised {α : Type} {t t' : Post} {r : Except Failure α}
    {p : Job × Text × Option Text} (h : (t.raised r t').told? = some p) :
    (∃ a, r = .ok a) ∧ t'.told? = some p := by
  rcases r with e | a
  · rcases t with _ | _ | _ | _ | _ <;> cases h
  · exact ⟨⟨a, rfl⟩, h⟩

/-- **What a worker has emitted after a call** it had before, or it emits it by the call; or it was
just handed the job. -/
theorem Post.next_told {t : Post} {c : Call} {r : c.Reply} {job : Job} {told : Text}
    {result : Option Text} (h : (t.next c r).told? = some (job, told, result)) :
    (c.hands r = some job ∧ told = [] ∧ result = none) ∨
      (∃ jobId event, c = .emitEvent jobId event ∧ c.raises r = false ∧
        (t.emit event).told? = some (job, told, result)) ∨
      t.told? = some (job, told, result) ∧ (∀ jobId event, c ≠ .emitEvent jobId event) ∧
        ∀ jobId text workerId output, c ≠ .markJobCompleted jobId text workerId output := by
  have hother : (∀ jobId event, c ≠ .emitEvent jobId event) →
      (∀ jobId text workerId output, c ≠ .markJobCompleted jobId text workerId output) →
      ∀ t' : Post, (t'.told? = some (job, told, result) → t.told? = some (job, told, result)) →
      t'.told? = some (job, told, result) →
      t.told? = some (job, told, result) ∧ (∀ jobId event, c ≠ .emitEvent jobId event) ∧
        ∀ jobId text workerId output, c ≠ .markJobCompleted jobId text workerId output :=
    fun hemit hmark t' ht h => ⟨ht h, hemit, hmark⟩
  rcases c with _ | _ | _ | _ | _ | ⟨jobId, event⟩ | m | _ | _ | _
  case claimDispatchJob =>
    rcases r with _ | job'
    · exact .inr (.inr (hother (fun _ _ => Call.noConfusion) (fun _ _ _ _ => Call.noConfusion)
        t id h))
    · refine .inl ?_
      dsimp only [Post.next] at h
      dsimp only [Call.hands]
      split at h
      · cases h
      · next hkind =>
        rw [if_neg hkind]
        cases h
        exact ⟨rfl, rfl, rfl⟩
  case isCancelRequested =>
    exact .inr (.inr (hother (fun _ _ => Call.noConfusion) (fun _ _ _ _ => Call.noConfusion) t id
      (Post.told?_raised h).2))
  -- What has been told grows by an event that did not raise.
  case emitEvent =>
    obtain ⟨⟨a, rfl⟩, h⟩ := Post.told?_raised h
    exact .inr (.inl ⟨jobId, event, rfl, rfl, h⟩)
  case appendMessage =>
    refine .inr (.inr ?_)
    dsimp only [Post.next] at h
    split at h
    · exact hother (fun _ _ => Call.noConfusion) (fun _ _ _ _ => Call.noConfusion) t id h
    · refine hother (fun _ _ => Call.noConfusion) (fun _ _ _ _ => Call.noConfusion)
        (t.reply m.content) (fun hreply => ?_) (Post.told?_raised h).2
      rcases t with _ | _ | _ | _ | _ <;> exact hreply
  case markJobCompleted => cases (Post.told?_raised h).2
  case markJobCancelled => cases (Post.told?_raised h).2
  case markJobFailed => cases h
  all_goals
    exact .inr (.inr (hother (fun _ _ => Call.noConfusion) (fun _ _ _ _ => Call.noConfusion)
      t id h))

/-! ### The records -/

/-- What a call may write to a record as the result of its job. -/
def Call.Reports : Call → JobId → Text → Prop
  | .markJobCompleted jobId responseText _ _, k, text => k = jobId ∧ text = responseText
  | _, _, _ => False

/-- What the callers see to. -/
def Call.regular (cfg : Settings) (s : Redis) : Call → Bool
  | .move m => m.regular cfg s
  | .enqueueJob a uuid => s.isUnused uuid && tellsWhole a.fileChat
  | _ => true

/-- The id that a call makes up. -/
def Call.madeUp (cfg : Settings) : Call → Option JobId
  | .move m => m.madeUp cfg
  | .enqueueJob _ uuid => some uuid
  | _ => none

theorem Desk.callGateway_of_throughout {α : Type} {d : Desk} {p : Gw α} {R : Redis → Prop}
    (h : p.Throughout soloStore 0 R d.redis) : R (d.callGateway p).2.redis := by
  unfold Desk.callGateway
  split
  · exact h _
  · exact h.run

/-- **What a call does to the records**, also where it raises. -/
theorem grows_exec (cfg : Settings) {d : Desk} (h : d.redis.Usual) {t : Post} {c : Call}
    (hmay : conduct.may t c) (hregular : c.regular cfg d.redis = true) :
    d.redis.Grows c.Reports (fun k => c.madeUp cfg = some k) (c.exec cfg d).2.redis := by
  have hsame : d.redis.Grows c.Reports (fun k => c.madeUp cfg = some k) d.redis :=
    .of_sub h.keyed fun _ _ hjob => hjob
  rcases c with m | ⟨workerId, workerPool, targetId, expectedTargetKind⟩ | ⟨a, uuid⟩ | _ | jobId |
    ⟨jobId, event⟩ | m | ⟨jobId, responseText, workerId, output⟩ | ⟨jobId, errorText, workerId⟩ |
    ⟨jobId, workerId⟩
  case move => exact grows_apply h hregular
  case claimDispatchJob =>
    dsimp only [Call.exec]
    rw [alone_claimDispatchJob, ← apply_claimDispatchJob]
    exact (grows_apply h rfl).mono fun k hk => by cases hk
  case enqueueJob =>
    obtain ⟨hunused, hfileChat⟩ := (Bool.and_eq_true _ _).mp hregular
    exact (grows_enqueueJob h hmay.2.1 hmay.2.2 hunused hfileChat).mono fun k hk =>
      congrArg some hk.symm
  case isCancelRequested =>
    refine Desk.callGateway_of_throughout (grows_plain ?_ hsame)
    exact (plain_ask (c := .get jobId) trivial).bind fun _ => Program.only_pure _
  case emitEvent =>
    exact Desk.callGateway_of_throughout
      (grows_plain (plain_emitEvent jobId trivial fun _ => trivial) hsame)
  case appendMessage =>
    refine hsame.congr ?_
    dsimp only [Call.exec]
    unfold Desk.callStore
    split
    · split <;> rfl
    · rfl
  case markJobCompleted =>
    exact Desk.callGateway_of_throughout (grows_markJobCompleted h jobId responseText _)
  case markJobFailed =>
    exact Desk.callGateway_of_throughout (grows_markJobFailed h jobId errorText _)
  case markJobCancelled =>
    exact Desk.callGateway_of_throughout (grows_markJobCancelled h jobId _)
  case time => exact hsame

/-! ### The log -/

/-- No job with this id was ever handed to a worker. -/
def neverHanded (log : List (Entry deskSig Duty Unit)) (jobId : JobId) : Bool :=
  log.all fun e => (handed e.act).all fun job => job.id ≠ jobId

/-- **What holds of every step**: the callers see to what they have to, and an id that is made up
is new. -/
def ordinary (cfg : Settings) (w : Office) (e : Entry deskSig Duty Unit) : Bool :=
  match e.act with
  | .command c _ => c.regular cfg w.shared.redis && (c.madeUp cfg).all fun jobId =>
      (w.shared.redis.job? jobId).isSome || neverHanded w.log jobId
  | _ => true

/-- Runs in which nothing more is asked. -/
def ordinaryDuties (cfg : Settings) : Rules deskSig Desk Duty Unit where
  starts := fun _ => True
  guard := fun w e => ordinary cfg w e = true

instance (cfg : Settings) (duty : Duty) : Decidable ((ordinaryDuties cfg).starts duty) :=
  inferInstanceAs (Decidable True)

instance (cfg : Settings) (w : Office) (e : Entry deskSig Duty Unit) :
    Decidable ((ordinaryDuties cfg).guard w e) := inferInstanceAs (Decidable (_ = true))

/-- The client that was the last to be handed the job. -/
def lastHanded (log : List (Entry deskSig Duty Unit)) (jobId : JobId) : Option ℕ :=
  (log.find? fun e => (handed e.act).any fun job => job.id = jobId).map Entry.client

theorem lastHanded_of_handed {log : List (Entry deskSig Duty Unit)} {e : Entry deskSig Duty Unit}
    {job : Job} (h : handed e.act = some job) : lastHanded (e :: log) job.id = some e.client := by
  unfold lastHanded
  rw [List.find?_cons_of_pos (by rw [h]; simp)]
  rfl

theorem lastHanded_cons {log : List (Entry deskSig Duty Unit)} {e : Entry deskSig Duty Unit}
    {jobId : JobId} (h : ∀ job, handed e.act = some job → job.id ≠ jobId) :
    lastHanded (e :: log) jobId = lastHanded log jobId := by
  unfold lastHanded
  rw [List.find?_cons_of_neg]
  intro hany
  obtain ⟨job, hjob, hid⟩ := (Option.any_eq_true _ _).mp hany
  exact h job hjob (of_decide_eq_true hid)

end Worker

end AiAgent

import Mathlib.Logic.Basic

/-!
# Sessions over a store

A session works on its own copy of a store: what it writes is seen by its later reads, and becomes
the store with the next commit. A flush and a commit are refused where the copy breaks the
constraints of the store, and what was not committed then is lost, as it is when the session is
left (`AiAgent.Session.within`).

A program of a session is judged by what it returns and leaves when it is run alone
(`AiAgent.Session.Does`), with one rule for each of its commands.
-/

namespace AiAgent

/-- The store, and the copy of it the session works on. -/
structure Session (σ : Type) where
  committed : σ
  working : σ

/-- A program of a session. -/
abbrev SessionM (σ ε : Type) := ExceptT ε (StateM (Session σ))

/-- A program that opens sessions. -/
abbrev ClientM (σ ε : Type) := ExceptT ε (StateM σ)

namespace Session

variable {σ ε α β : Type}

/-- The session before anything was done. -/
def opened (store : σ) : Session σ := ⟨store, store⟩

/-- What is not committed is lost. -/
def rollback (s : Session σ) : Session σ := ⟨s.committed, s.committed⟩

/-- The copy. -/
def read : SessionM σ ε σ := fun s => (.ok s.working, s)

/-- A change of the copy. -/
def write (change : σ → σ × α) : SessionM σ ε α := fun s =>
  (.ok (change s.working).2, { s with working := (change s.working).1 })

section Constraints

variable (allowed : σ → Prop) [DecidablePred allowed] (refused : ε)

/-- The changes are sent to the store, which checks its constraints. -/
def flush : SessionM σ ε Unit := fun s =>
  if allowed s.working then (.ok (), s) else (.error refused, s.rollback)

/-- The changes are made the store's. -/
def commit : SessionM σ ε Unit := fun s =>
  if allowed s.working then (.ok (), opened s.working) else (.error refused, s.rollback)

end Constraints

/-- A session is opened for a program, and left after it. -/
def within (body : SessionM σ ε α) : ClientM σ ε α := fun store =>
  ((body (opened store)).1, (body (opened store)).2.committed)

/-- **What a program does**: from the session `s` it returns `a` and leaves `s'`. -/
def Does (body : SessionM σ ε α) (s : Session σ) (a : α) (s' : Session σ) : Prop :=
  body s = (.ok a, s')

variable {body : SessionM σ ε α} {s s' s'' : Session σ} {a : α} {b : β}

theorem does_pure (a : α) (s : Session σ) : Does (pure a : SessionM σ ε α) s a s := rfl

theorem Does.bind {next : α → SessionM σ ε β} (h : Does body s a s')
    (hnext : Does (next a) s' b s'') : Does (body >>= next) s b s'' := by
  show (match body s with | (x, s₁) => ExceptT.bindCont next x s₁) = _
  rw [h]
  exact hnext

theorem does_read (s : Session σ) : Does (read : SessionM σ ε σ) s s.working s := rfl

theorem does_write (change : σ → σ × α) (s : Session σ) :
    Does (write change : SessionM σ ε α) s (change s.working).2
      { s with working := (change s.working).1 } := rfl

section Constraints

variable {allowed : σ → Prop} [DecidablePred allowed] {refused : ε}

theorem does_flush (h : allowed s.working) : Does (flush allowed refused) s () s := if_pos h

theorem does_commit (h : allowed s.working) :
    Does (commit allowed refused) s () (opened s.working) := if_pos h

end Constraints

/-- What goes well is not caught. -/
theorem Does.tryCatch {handler : ε → SessionM σ ε α} (h : Does body s a s') :
    Does (tryCatchThe ε body handler) s a s' := by
  show (match body s with | (x, s₁) => (_ : StateM (Session σ) (Except ε α)) s₁) = _
  rw [h]
  rfl

/-- **A session that is done leaves the store with what it committed.** -/
theorem run_within {store store' : σ} (h : Does body (opened store) a s')
    (hcommitted : s'.committed = store') : within body store = (.ok a, store') := by
  rw [within, h, hcommitted]

theorem run_committed {store store' : σ} (h : Does body (opened store) a (opened store')) :
    within body store = (.ok a, store') := run_within h rfl

end Session

/-! ### Programs of a client -/

namespace ClientM

variable {σ ε ε' α β : Type} {store store' : σ} {x : ClientM σ ε α} {f : α → ClientM σ ε β} {a : α}
  {e : ε}

/-- A check that passes. -/
theorem run_check_ok (f : α → ClientM σ ε β) (a : α) (store : σ) :
    ((liftM (Except.ok a : Except ε α) : ClientM σ ε α) >>= f) store = f a store := rfl

theorem run_bind_ok (h : x store = (.ok a, store')) : (x >>= f) store = f a store' := by
  show (match x store with | (r, s) => ExceptT.bindCont f r s) = _
  rw [h]
  rfl

theorem run_bind_error (h : x store = (.error e, store')) :
    (x >>= f) store = (.error e, store') := by
  show (match x store with | (r, s) => ExceptT.bindCont f r s) = _
  rw [h]
  rfl

/-- What goes well is not caught. -/
theorem run_tryCatch_ok {handler : ε → ClientM σ ε α} (h : x store = (.ok a, store')) :
    tryCatchThe ε x handler store = (.ok a, store') := by
  show (match x store with | (r, s) => (_ : StateM σ (Except ε α)) s) = _
  rw [h]
  rfl

/-- What fails is handled where it failed. -/
theorem run_tryCatch_error {handler : ε → ClientM σ ε α} (h : x store = (.error e, store')) :
    tryCatchThe ε x handler store = handler e store' := by
  show (match x store with | (r, s) => (_ : StateM σ (Except ε α)) s) = _
  rw [h]

/-- A program that returns returns at every step. -/
theorem exists_of_run_bind {b : β} (h : (x >>= f) store = (.ok b, store')) :
    ∃ a s, x store = (.ok a, s) ∧ f a s = (.ok b, store') := by
  rcases hx : x store with ⟨e | a, s⟩
  · rw [run_bind_error hx] at h
    cases h
  · exact ⟨a, s, rfl, (run_bind_ok hx).symm.trans h⟩

/-- The errors may be wrapped. -/
theorem run_adapt (f : ε → ε') (x : ClientM σ ε α) (store : σ) :
    ExceptT.adapt f x store = ((x store).1.mapError f, (x store).2) := rfl

end ClientM

end AiAgent

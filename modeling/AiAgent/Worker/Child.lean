import AiAgent.Worker.Cluster

/-!
# A parser root has one child

`enqueue_child_job_once` and `get_linked_child_job_id` agree on the child of a root although a
worker may die between creating the child and linking it, and although other operations may store
an older record of the root over the link. Three things make it so: the lock of the root, the
link, and the id of the child being derived from the id of the root.

The child of a root (`AiAgent.Worker.link`) is the one it was linked to at the start, and the
derived one otherwise. Every record there ever is names that child or none
(`AiAgent.Worker.Linked`), so a lost link is found again. A child is created only by a client that
holds the lock and has not found the derived id since it took the lock; and as long as it has not,
nobody else can have created it (`AiAgent.Worker.Family`).
-/

namespace AiAgent

namespace Worker

open Command Gateway

/-! ### The child of a root -/

/-- The child of a root: the linked one, where the root was linked at the start, and else the one
whose id is derived. -/
def link (cfg : Settings) (s₀ : Redis) (rootJobId : JobId) : JobId :=
  ((s₀.job? rootJobId).bind Job.childJobId).getD (cfg.derivedChildJobId rootJobId)

/-- A record names the child of the job, or none where the derived id would be found; and if it
names a root, it is that root's child. -/
structure Linked (cfg : Settings) (s₀ : Redis) (job : Job) : Prop where
  /-- The child it names is the job's. -/
  down : ∀ c, job.childJobId = some c → c = link cfg s₀ job.id
  /-- Where it names none, the child's id is the derived one. -/
  bare : job.childJobId = none → link cfg s₀ job.id = cfg.derivedChildJobId job.id
  /-- The root it names has it for a child. -/
  up : ∀ r, job.rootJobId = some r → r ≠ job.id → link cfg s₀ r = job.id

/-- The id had no record at the start. -/
def Unused (s₀ : Redis) (j : JobId) : Prop := s₀.job? j = none

theorem link_of_unused (cfg : Settings) {s₀ : Redis} {j : JobId} (h : Unused s₀ j) :
    link cfg s₀ j = cfg.derivedChildJobId j := by
  unfold link
  rw [h]
  rfl

theorem stable_linked (cfg : Settings) (s₀ : Redis) :
    Stable cfg (Linked cfg s₀) (Unused s₀) where
  congr := by
    intro old job h hid hchild hroot
    refine ⟨?_, ?_, ?_⟩
    · intro c hc
      rw [hid]
      exact h.down c (hchild ▸ hc)
    · intro hc
      rw [hid]
      exact h.bare (hchild ▸ hc)
    · intro r hr hne
      rw [hid] at hne ⊢
      exact h.up r (hroot ▸ hr) hne
  linked := by
    intro v c hv hc job hjob hid
    refine ⟨?_, nofun, hjob.up⟩
    intro c' hc'
    obtain rfl : c = c' := Option.some.inj hc'
    exact (hv.down c hc).trans (by rw [hid])
  -- A root without a link may only be linked to the id that is derived for it.
  derived := by
    intro v hv hc job hjob hid
    refine ⟨?_, nofun, hjob.up⟩
    intro c hc'
    obtain rfl : cfg.derivedChildJobId v.id = c := Option.some.inj hc'
    exact (hv.bare hc).symm.trans (by rw [hid])
  child := by
    intro v r hv hr hne job hjob hid
    refine ⟨?_, nofun, hjob.up⟩
    intro c hc'
    obtain rfl : v.id = c := Option.some.inj hc'
    exact (hv.up r hr hne).symm.trans (by rw [hid])
  -- The child that is born belongs to that root, and has no child of its own.
  born := by
    intro v job hv hc hunused hid hroot hchild
    refine ⟨?_, fun _ => link_of_unused cfg hunused, ?_⟩
    · intro c hc'
      rw [hchild] at hc'
      cases hc'
    · intro r hr _
      rw [hroot] at hr
      cases hr
      rw [hid]
      exact hv.bare hc
  new := by
    intro job hunused hroot hchild
    refine ⟨?_, fun _ => link_of_unused cfg hunused, ?_⟩
    · intro c hc
      rw [hchild] at hc
      cases hc
    · intro r hr
      rw [hroot] at hr
      cases hr

theorem eq_link_of_isChildOf {cfg : Settings} {s₀ : Redis} {r c : JobId}
    (h : IsChildOf (Linked cfg s₀) r c) : c = link cfg s₀ r := by
  obtain ⟨v, hv, rfl, hc⟩ := h
  exact hv.down c hc

/-! ### Runs -/

/-- The act is the transaction that creates a child of the root and pushes it to a pending
list. -/
def pushesChildOf (r : JobId) : Act redisSig Outcome → Bool
  | .command (.write (.set job :: .rpush (.pending _ _) _ :: _)) _ => job.rootJobId = some r
  | _ => false

/-- All operations, each called as its callers call it: `enqueue_job` with an id that is new and
for a job that names no root, and `mark_job_waiting_on_child` with the root's child. -/
def Work.calledProperly (cfg : Settings) (s₀ : Redis) : Work → Prop
  | .gateway (.enqueueJob a uuid) =>
    a.jobIdOverride = none ∧ a.rootJobId = none ∧ a.childJobId = none ∧ Unused s₀ uuid
  | .gateway (.markJobWaitingOnChild jobId childJobId _ _ _) => childJobId = link cfg s₀ jobId
  | _ => True

/-- All operations, in any interleaving. -/
def allWork (cfg : Settings) (s₀ : Redis) : Rules redisSig Redis Work Outcome where
  starts op := op.calledProperly cfg s₀
  guard _ _ := True

instance (cfg : Settings) (s₀ : Redis) : ∀ op, Decidable ((allWork cfg s₀).starts op)
  | .serve .. => .isTrue trivial
  | .gateway o =>
    match o with
    | .enqueueJob _ uuid => inferInstanceAs (Decidable (_ ∧ _ ∧ _ ∧ s₀.job? uuid = none))
    | .markJobWaitingOnChild jobId childJobId _ _ _ =>
      inferInstanceAs (Decidable (childJobId = link cfg s₀ jobId))
    | .enqueueChildJobOnce .. | .getLinkedChildJobId .. | .tryAdmitJob .. | .claimDispatchJob ..
    | .renewJobLease .. | .cancelJob .. | .markJobCompleted .. | .markJobFailed ..
    | .markJobCancelled .. | .requeueJobForPending .. | .requeueStaleJobs => .isTrue trivial

instance (cfg : Settings) (s₀ : Redis) (w : Plane) (e : Entry redisSig Work Outcome) :
    Decidable ((allWork cfg s₀).guard w e) := inferInstanceAs (Decidable True)

/-- A store a run may start from: a record under its own id, a lock held once, and a record that
names another job as its root is that root's child. -/
structure Familiar (cfg : Settings) (s₀ : Redis) : Prop where
  /-- A record is found under its own id. -/
  keyed : ∀ j v, s₀.job? j = some v → v.id = j
  /-- A lock is held once. -/
  exclusive : ∀ l i j, (l, i) ∈ s₀.locks → (l, j) ∈ s₀.locks → i = j
  /-- A record that names a root is its child. -/
  up : ∀ j v, s₀.job? j = some v → ∀ r, v.rootJobId = some r → r ≠ j → link cfg s₀ r = j

/-- **One child, for good.** -/
structure OneChild (cfg : Settings) (s₀ : Redis) (w : Plane) : Prop where
  /-- At most one child of a root is created and pushed, -/
  once : ∀ r, w.log.countP (fun e => pushesChildOf r e.act) ≤ 1
  /-- and none where the root had one from the start. -/
  none : ∀ r, s₀.job? (link cfg s₀ r) ≠ none → ∀ e ∈ w.log, pushesChildOf r e.act = false
  /-- Every call that returns a child returns the same. -/
  same : ∀ e ∈ w.log, ∀ r c created, e.act = .finish (.child (.ok (some c, created))) →
    ((∃ prepared, e.op = .gateway (.enqueueChildJobOnce r prepared)) ∨
      e.op = .gateway (.getLinkedChildJobId r)) → c = link cfg s₀ r
  /-- A root never is linked to another one. -/
  linked : ∀ r job c, w.shared.job? r = some job → job.childJobId = some c → c = link cfg s₀ r

/-! ### Locks -/

section Locks

variable {s : Redis} {i : ℕ}

theorem locks_write (x : Write) : (s.write x).locks = s.locks := by
  cases x <;> rfl

theorem locks_writes (ws : List Write) : (s.writes ws).locks = s.locks := by
  induction ws generalizing s with
  | nil => rfl
  | cons x ws ih => rw [Redis.writes_cons, ih, locks_write]

/-- What a command does to the locks: it takes one that is free, gives one back, or leaves them
as they are. -/
theorem locks_exec (c : Cmd) : (redisStore.exec i c s).2.locks =
    match c with
    | .lock l => (l, i) :: s.locks
    | .unlock l => s.locks.erase (l, i)
    | _ => s.locks := by
  cases c with
  | write ws => exact locks_writes ws
  | brpoplpush source destination =>
    show (s.brpoplpush source destination).2.locks = s.locks
    unfold Redis.brpoplpush
    cases (s.queues source).getLast? <;> rfl
  | _ => rfl

theorem exclusive_exec {c : Cmd} (hready : redisStore.ready c s)
    (h : ∀ l i j, (l, i) ∈ s.locks → (l, j) ∈ s.locks → i = j) :
    ∀ l j k, (l, j) ∈ (redisStore.exec i c s).2.locks →
      (l, k) ∈ (redisStore.exec i c s).2.locks → j = k := by
  intro l j k hj hk
  rw [locks_exec] at hj hk
  cases c with
  | lock l' =>
    change _ ∈ (l', i) :: s.locks at hj hk
    rcases List.mem_cons.mp hj with hj' | hj'
    · rcases List.mem_cons.mp hk with hk' | hk'
      · cases hj'
        cases hk'
        rfl
      · cases hj'
        exact (hready k hk').elim
    · rcases List.mem_cons.mp hk with hk' | hk'
      · cases hk'
        exact (hready j hj').elim
      · exact h l j k hj' hk'
  | unlock l' => exact h l j k (List.mem_of_mem_erase hj) (List.mem_of_mem_erase hk)
  | _ => exact h l j k hj hk

/-- Nobody loses a lock by what others do. -/
theorem mem_locks_exec {c : Cmd} {l : Lock} {j : ℕ} (h : (l, j) ∈ s.locks)
    (hc : c ≠ .unlock l ∨ j ≠ i) : (l, j) ∈ (redisStore.exec i c s).2.locks := by
  rw [locks_exec]
  cases c with
  | lock l' => exact List.mem_cons_of_mem _ h
  | unlock l' =>
    refine (List.mem_erase_of_ne ?_).mpr h
    rintro heq
    cases heq
    rcases hc with hc | hc <;> exact hc rfl
  | _ => exact h

end Locks

/-! ### The invariant -/

/-- The invariant: the locks are exclusive and the views know which root's lock is held; a child
that was pushed is there; and while a client has not found the derived id under the lock, no child
of that root was pushed. -/
structure Family (cfg : Settings) (s₀ : Redis) (w : Plane) (g : ℕ → View) : Prop where
  /-- The views fit the history. -/
  watching : Watching (Linked cfg s₀) (Unused s₀) s₀ w g
  /-- A lock is held once. -/
  exclusive : ∀ l i j, (l, i) ∈ w.shared.locks → (l, j) ∈ w.shared.locks → i = j
  /-- The root in a view is locked by that client. -/
  holds : ∀ i task, w.tasks i = some task → ∀ r, (g i).root = some r →
    (.job r, i) ∈ w.shared.locks
  /-- A child that was pushed is there, and there was none at the start. -/
  pushed : ∀ r, ∀ e ∈ w.log, pushesChildOf r e.act = true →
    w.shared.job? (cfg.derivedChildJobId r) ≠ none ∧ s₀.job? (link cfg s₀ r) = none
  /-- A child that was not found under the lock was not pushed. -/
  absent : ∀ i task, w.tasks i = some task → ∀ r, (g i).root = some r →
    (g i).absent = some (cfg.derivedChildJobId r) →
    (∀ e ∈ w.log, pushesChildOf r e.act = false) ∧ Unused s₀ (cfg.derivedChildJobId r)
  /-- At most one was pushed. -/
  once : ∀ r, w.log.countP (fun e => pushesChildOf r e.act) ≤ 1
  /-- Every call that returns a child returns the root's. -/
  same : ∀ e ∈ w.log, ∀ a, e.act = .finish a → e.op.Returns (Linked cfg s₀) a

section Views

variable {cfg : Settings} {s₀ : Redis} {t : View}

/-- A permitted command that pushes a child was issued under the root's lock, by a client that has
not found the child. -/
theorem creates_of_pushes {V : Job → Prop} {N : JobId → Prop} {c : Cmd} {r : c.Reply}
    {root : JobId} (hmay : (watch cfg V N).may t c)
    (hpushes : pushesChildOf root (.command c r) = true) :
    ∃ job rootJob, jobRecords.saved c = some job ∧ job.rootJobId = some root ∧
      rootJob.id = root ∧ t.seen root (some rootJob) ∧ rootJob.status.isTerminal = false ∧
      rootJob.cancelRequested = false ∧ rootJob.childJobId = none ∧
      job.id = cfg.derivedChildJobId root ∧ t.root = some root ∧
      t.absent = some (cfg.derivedChildJobId root) := by
  cases c with
  | write ws =>
    cases hmay with
    | neutral hstored _ =>
      cases ws with
      | nil => cases hpushes
      | cons x ws =>
        cases x with
        | set job => cases hstored
        | _ => cases hpushes
    | save _ => cases hpushes
    | close _ _ => cases hpushes
    | create _ _ _ hcreates =>
      have hroot := of_decide_eq_true hpushes
      rcases hcreates with ⟨-, hnone⟩ |
        ⟨-, rootJob, hheld, hseen, hlive, hflag, hbare, hnames, hid, habsent, -⟩
      · rw [hnone] at hroot
        cases hroot
      · rw [hnames] at hroot
        cases hroot
        exact ⟨_, rootJob, rfl, hnames, rfl, hseen, hlive, hflag, hbare, hid, hheld,
          by rw [habsent, hid]⟩
  | _ => cases hpushes

/-- Only taking and giving back a job's lock changes the root in the view. -/
theorem root_next {c : Cmd} {r : c.Reply} {root : JobId}
    (h : (t.next c r).root = some root) :
    c = .lock (.job root) ∨ (t.root = some root ∧ ∀ j, c ≠ .unlock (.job j)) := by
  cases c with
  | lock l =>
    cases l with
    | job j =>
      cases h
      exact .inl rfl
    | target targetId =>
      refine .inr ⟨h, ?_⟩
      rintro j ⟨⟩
  | unlock l =>
    cases l with
    | job j => cases h
    | target targetId =>
      refine .inr ⟨h, ?_⟩
      rintro j ⟨⟩
  -- A write changes nothing of the lock that is held.
  | write ws =>
    refine .inr ⟨?_, ?_⟩
    rotate_left
    · rintro j ⟨⟩
    simp only [View.next, View.wrote] at h
    cases hstored : stored ws with
    | some job =>
      rw [hstored] at h
      exact h
    | none =>
      rw [hstored] at h
      by_cases hcloses : ws.findSome? Write.closes? = none
      · simp only [hcloses, if_true] at h
        exact h
      · simp only [hcloses, if_false] at h
        exact h
  | _ =>
    refine .inr ⟨h, ?_⟩
    rintro j ⟨⟩

/-- An id is absent in the view only while nothing was stored, and only after it was not found. -/
theorem absent_next {c : Cmd} {r : c.Reply} {root j : JobId}
    (hroot : (t.next c r).root = some root) (h : (t.next c r).absent = some j) :
    jobRecords.saved c = none ∧ t.root = some root ∧
      (t.absent = some j ∨ jobRecords.found c r = some (j, none)) := by
  -- Only a read that finds nothing tells that an id is free.
  cases c with
  | get jobId =>
    refine ⟨rfl, hroot, ?_⟩
    simp only [View.next, View.look] at h
    cases r with
    | none =>
      by_cases hsome : t.root.isSome = true
      · simp only [Option.isNone_none, hsome, and_self, if_true, Option.some.injEq] at h
        subst h
        exact .inr rfl
      · simp only [hsome] at h
        exact .inl (by simpa using h)
    | some job => exact .inl (by simpa using h)
  | write ws =>
    simp only [View.next, View.wrote] at h hroot
    cases hstored : stored ws with
    | some job =>
      rw [hstored] at h
      cases h
    | none =>
      rw [hstored] at h hroot
      refine ⟨hstored, ?_⟩
      by_cases hcloses : ws.findSome? Write.closes? = none
      · simp only [hcloses, if_true] at h hroot
        exact ⟨hroot, .inl h⟩
      · simp only [hcloses, if_false] at h hroot
        exact ⟨hroot, .inl h⟩
  | lock l =>
    cases l with
    | job j => cases h
    | target targetId => exact ⟨rfl, hroot, .inl h⟩
  | unlock l =>
    cases l with
    | job j => cases h
    | target targetId => exact ⟨rfl, hroot, .inl h⟩
  | _ => exact ⟨rfl, hroot, .inl h⟩

end Views

namespace Family

variable {cfg : Settings} {s₀ : Redis} {w : Plane} {g : ℕ → View} {i : ℕ} {op : Work}

theorem fresh (hs₀ : Familiar cfg s₀) (g : ℕ → View) : Family cfg s₀ (.fresh s₀) g where
  watching := by
    refine Watching.fresh hs₀.keyed ?_ (fun _ h => h) g
    intro j v hv
    have hlink : link cfg s₀ j = v.childJobId.getD (cfg.derivedChildJobId j) := by
      unfold link
      rw [hv]
      rfl
    obtain rfl := hs₀.keyed j v hv
    refine ⟨?_, ?_, hs₀.up v.id v hv⟩
    · intro c hc
      rw [hlink, hc]
      rfl
    · intro hc
      rw [hlink, hc]
      rfl
  exclusive := hs₀.exclusive
  holds := fun i task hi => by cases hi
  pushed := fun r e he => by cases he
  absent := fun i task hi => by cases hi
  once := fun r => Nat.zero_le 1
  same := fun e he => by cases he

/-- A step of a client that is no command, and that changes no record. -/
theorem record_still (h : Family cfg s₀ w g) {a : Act redisSig Outcome} {s : Redis}
    {task : Option (Task redisSig Work Outcome)} {t : View}
    (hwatching : Watching (Linked cfg s₀) (Unused s₀) s₀ (w.record i op a s task)
      (Function.update g i t))
    (hpushes : ∀ r, pushesChildOf r a = false) (hjobs : s.jobs = w.shared.jobs)
    (hexclusive : ∀ l j k, (l, j) ∈ s.locks → (l, k) ∈ s.locks → j = k)
    (hlocks : ∀ l j, j ≠ i → (l, j) ∈ w.shared.locks → (l, j) ∈ s.locks)
    (hself : task ≠ none → t.root = none)
    (hreturns : ∀ r, a = .finish r → op.Returns (Linked cfg s₀) r) :
    Family cfg s₀ (w.record i op a s task) (Function.update g i t) := by
  -- The others know what they knew, and the client itself holds no root any more.
  have hold : ∀ j task', (w.record i op a s task).tasks j = some task' →
      ∀ r, (Function.update g i t j).root = some r →
      w.tasks j = some task' ∧ Function.update g i t j = g j ∧ j ≠ i := by
    intro j task' htask r hr
    rw [World.record_tasks] at htask
    rcases eq_or_ne j i with rfl | hj
    · rw [Function.update_self] at htask hr
      rw [hself (by rw [htask]; exact nofun)] at hr
      cases hr
    · rw [Function.update_of_ne hj] at htask ⊢
      exact ⟨htask, rfl, hj⟩
  refine ⟨hwatching, hexclusive, ?_, ?_, ?_, ?_, ?_⟩
  · intro j task' htask r hr
    obtain ⟨htask₀, hview, hj⟩ := hold j task' htask r hr
    rw [hview] at hr
    exact hlocks _ _ hj (h.holds j task' htask₀ r hr)
  · intro r e he hpush
    rcases List.mem_cons.mp he with rfl | he
    · rw [hpushes r] at hpush
      cases hpush
    · obtain ⟨hthere, hnone⟩ := h.pushed r e he hpush
      exact ⟨fun hmissing => hthere ((Redis.job?_congr hjobs _).symm.trans hmissing), hnone⟩
  · intro j task' htask r hr habsent
    obtain ⟨htask₀, hview, -⟩ := hold j task' htask r hr
    rw [hview] at hr habsent
    obtain ⟨hnot, hunused⟩ := h.absent j task' htask₀ r hr habsent
    refine ⟨?_, hunused⟩
    intro e he
    rcases List.mem_cons.mp he with rfl | he
    · exact hpushes r
    · exact hnot e he
  · intro r
    rw [World.record_log, List.countP_cons, hpushes r]
    exact h.once r
  · intro e he r hr
    rcases List.mem_cons.mp he with rfl | he
    · exact hreturns r hr
    · exact h.same e he r hr

theorem start (h : Family cfg s₀ w g) (p : Gw Outcome) :
    Family cfg s₀ (w.record i op .start w.shared (some ⟨op, p⟩))
      (Function.update g i (View.start op.mode)) :=
  h.record_still (h.watching.start p) (fun _ => rfl) rfl h.exclusive (fun _ _ _ hl => hl)
    (fun _ => rfl) fun _ hr => by cases hr

theorem finish (h : Family cfg s₀ w g) {a : Outcome} (ha : op.Returns (Linked cfg s₀) a) :
    Family cfg s₀ (w.record i op (.finish a) w.shared none) g := by
  have hwatching : Watching (Linked cfg s₀) (Unused s₀) s₀
      (w.record i op (.finish a) w.shared none) g := h.watching.finish a
  rw [← Function.update_eq_self i g] at hwatching ⊢
  refine h.record_still hwatching (fun _ => rfl) rfl h.exclusive (fun _ _ _ hl => hl)
    (fun hne => absurd rfl hne) ?_
  intro r hr
  cases hr
  exact ha

theorem crash (h : Family cfg s₀ w g) :
    Family cfg s₀ (w.record i op .crash (redisStore.drop i w.shared) none) g := by
  have hwatching : Watching (Linked cfg s₀) (Unused s₀) s₀
      (w.record i op .crash (redisStore.drop i w.shared) none) g := h.watching.crash
  rw [← Function.update_eq_self i g] at hwatching ⊢
  refine h.record_still hwatching (fun _ => rfl) rfl ?_ ?_ (fun hne => absurd rfl hne)
    fun _ hr => by cases hr
  · intro l j k hj hk
    exact h.exclusive l j k (List.mem_of_mem_filter hj) (List.mem_of_mem_filter hk)
  · intro l j hj hl
    exact List.mem_filter.mpr ⟨hl, by simpa using hj⟩

/-- **The creating step.** A child is pushed by a client that holds the root's lock and has not
found the child since; so none was pushed before, and nobody else is about to push one. -/
theorem not_pushed_of_pushes (h : Family cfg s₀ w g) {c : Cmd} {k : c.Reply → Gw Outcome}
    {r : c.Reply} (hi : w.tasks i = some ⟨op, .ask c k⟩)
    (hmay : (watch cfg (Linked cfg s₀) (Unused s₀)).may (g i) c) {root : JobId}
    (hpushes : pushesChildOf root (.command c r) = true) :
    (∀ e ∈ w.log, pushesChildOf root e.act = false) ∧
    s₀.job? (link cfg s₀ root) = none ∧
    (∀ j task, w.tasks j = some task → (g j).root = some root → j = i) := by
  obtain ⟨job, rootJob, -, -, rfl, hseen, -, -, hbare, -, hroot, habsent⟩ :=
    creates_of_pushes hmay hpushes
  obtain ⟨hnot, hunused⟩ := h.absent i _ hi rootJob.id hroot habsent
  refine ⟨hnot, ?_, ?_⟩
  · rw [(h.watching.valid rootJob (h.watching.was_of_seen hi hseen).2).bare hbare]
    exact hunused
  · intro j task hj hrootj
    exact h.exclusive _ j i (h.holds j task hj _ hrootj) (h.holds i _ hi _ hroot)

theorem command (h : Family cfg s₀ w g) {c : Cmd} {k : c.Reply → Gw Outcome}
    (hi : w.tasks i = some ⟨op, .ask c k⟩)
    (hmay : (watch cfg (Linked cfg s₀) (Unused s₀)).may (g i) c)
    (hready : redisStore.ready c w.shared) :
    Family cfg s₀
      (w.record i op (.command c (redisStore.exec i c w.shared).1)
        (redisStore.exec i c w.shared).2 (some ⟨op, k (redisStore.exec i c w.shared).1⟩))
      (Function.update g i ((g i).next c (redisStore.exec i c w.shared).1)) := by
  have hwatching := h.watching.command hi hmay
  -- What is there stays there.
  have hstays : ∀ j, w.shared.job? j ≠ none → (redisStore.exec i c w.shared).2.job? j ≠ none := by
    intro j hj
    obtain ⟨v, hv⟩ := Option.ne_none_iff_exists'.mp hj
    have hkept := hwatching.traced.kept v
      (Records.was_cons.mpr (.inl (h.watching.traced.was j v hv)))
    rwa [show jobRecords.key v = j from h.watching.traced.keyed j v hv] at hkept
  have hother : ∀ j task' r, j ≠ i → w.tasks j = some task' → (g j).root = some r →
      pushesChildOf r (.command c (redisStore.exec i c w.shared).1) = false := by
    intro j task' r hj htask hr
    by_contra hpush
    exact hj ((h.not_pushed_of_pushes hi hmay (by simpa using hpush)).2.2 j task' htask hr)
  refine ⟨hwatching, exclusive_exec hready h.exclusive, ?_, ?_, ?_, ?_, ?_⟩
  · intro j task' htask r hr
    rcases eq_or_ne j i with rfl | hj
    · rw [Function.update_self] at hr
      rcases root_next hr with rfl | ⟨hr, hne⟩
      · exact List.mem_cons_self
      · exact mem_locks_exec (h.holds j _ hi r hr) (.inl (hne r))
    · rw [World.record_tasks, Function.update_of_ne hj] at htask
      rw [Function.update_of_ne hj] at hr
      exact mem_locks_exec (h.holds j task' htask r hr) (.inr hj)
  · intro r e he hpush
    rcases List.mem_cons.mp he with rfl | he
    · obtain ⟨job, -, hsaved, -, -, -, -, -, -, hid, -⟩ := creates_of_pushes hmay hpush
      refine ⟨?_, (h.not_pushed_of_pushes hi hmay hpush).2.1⟩
      rw [← hid]
      exact hwatching.traced.kept job (Records.was_cons.mpr (.inr hsaved))
    · obtain ⟨hthere, hnone⟩ := h.pushed r e he hpush
      exact ⟨hstays _ hthere, hnone⟩
  · intro j task' htask r hr habsent
    rcases eq_or_ne j i with rfl | hj
    · rw [Function.update_self] at hr habsent
      obtain ⟨hsaved, hroot, hcase⟩ := absent_next hr habsent
      have hstill : pushesChildOf r (.command c (redisStore.exec j c w.shared).1) = false := by
        by_contra hpush
        obtain ⟨job, -, hjob, -⟩ := creates_of_pushes hmay (by simpa using hpush)
        rw [hsaved] at hjob
        cases hjob
      have hbefore : (∀ e ∈ w.log, pushesChildOf r e.act = false) ∧
          Unused s₀ (cfg.derivedChildJobId r) := by
        rcases hcase with habsent | hfound
        · exact h.absent j _ hi r hroot habsent
        · -- The derived id was just not found, so no child was pushed.
          have hmissing : w.shared.job? (cfg.derivedChildJobId r) = none := by
            cases c with
            | get jobId =>
              have hpair := Option.some.inj hfound
              cases congrArg Prod.fst hpair
              exact congrArg Prod.snd hpair
            | _ => cases hfound
          refine ⟨?_, h.watching.missing _ hmissing⟩
          intro e he
          by_contra hpush
          exact (h.pushed r e he (by simpa using hpush)).1 hmissing
      refine ⟨?_, hbefore.2⟩
      intro e he
      rcases List.mem_cons.mp he with rfl | he
      · exact hstill
      · exact hbefore.1 e he
    · rw [World.record_tasks, Function.update_of_ne hj] at htask
      rw [Function.update_of_ne hj] at hr habsent
      obtain ⟨hnot, hunused⟩ := h.absent j task' htask r hr habsent
      refine ⟨?_, hunused⟩
      intro e he
      rcases List.mem_cons.mp he with rfl | he
      · exact hother j task' r hj htask hr
      · exact hnot e he
  · intro r
    rw [World.record_log, List.countP_cons]
    by_cases hpush :
        pushesChildOf r (.command c (redisStore.exec i c w.shared).1) = true
    · have hnone : w.log.countP (fun e => pushesChildOf r e.act) = 0 := by
        rw [List.countP_eq_zero]
        intro e he
        rw [(h.not_pushed_of_pushes hi hmay hpush).1 e he]
        exact Bool.false_ne_true
      rw [hnone, if_pos hpush]
    · rw [if_neg hpush]
      exact h.once r
  · intro e he a ha
    rcases List.mem_cons.mp he with rfl | he
    · cases ha
    · exact h.same e he a ha

end Family

/-! ### Every run -/

theorem family_tied (cfg : Settings) {s₀ : Redis} (hs₀ : Familiar cfg s₀) :
    Tied (cluster cfg) (allWork cfg s₀) (· = s₀) (watch cfg (Linked cfg s₀) (Unused s₀))
      (fun op => View.start op.mode) (fun op a _ => op.Returns (Linked cfg s₀) a)
      (Family cfg s₀) where
  body := fun op hop => obeys_body (stable_linked cfg s₀) op <| by
    cases op with
    | serve => trivial
    | gateway o =>
      cases o with
      | enqueueJob _ _ => exact hop
      | markJobWaitingOnChild jobId childJobId _ _ _ =>
        intro job hjob hid
        refine ⟨?_, nofun, hjob.up⟩
        intro c hc
        obtain rfl : childJobId = c := Option.some.inj hc
        exact hop.trans (by rw [hid])
      | _ => trivial
  init := by
    rintro s rfl
    exact ⟨fun _ => View.start .careful, Family.fresh hs₀ _⟩
  start := fun _ _ _ _ h _ _ => h.start _
  command := fun w g i op c k h hi _ hmay hready _ =>
    ⟨_, ⟨h.watching.told i c, rfl⟩, h.command hi hmay hready⟩
  finish := fun _ _ _ _ _ h _ hreturns => h.finish hreturns
  crash := fun _ _ _ _ _ h _ => h.crash
  outside := by
    rintro w g s h ⟨clockMs, targets, workers, catalog, -, rfl⟩
    exact ⟨h.watching.outside rfl, h.exclusive, h.holds, h.pushed, h.absent, h.once, h.same⟩

/-- **A parser root has one child**, in every run, whatever dies and whatever is overwritten. -/
theorem oneChild_of_run (cfg : Settings) {s₀ : Redis} (hs₀ : Familiar cfg s₀) {w : Plane}
    (hw : Reachable (cluster cfg) (allWork cfg s₀) (· = s₀) w) : OneChild cfg s₀ w := by
  obtain ⟨g, h, -⟩ := hw.ghosts (family_tied cfg hs₀)
  refine ⟨h.once, ?_, ?_, ?_⟩
  · intro r hthere e he
    by_contra hpush
    exact hthere (h.pushed r e he (by simpa using hpush)).2
  · rintro ⟨i, op, act⟩ he r c created hact hop
    dsimp only at hact hop
    have hreturns := h.same _ he _ hact
    rcases hop with ⟨prepared, rfl⟩ | rfl <;> exact eq_link_of_isChildOf hreturns
  · intro r job c hjob hc
    have hlinked := h.watching.valid job (h.watching.traced.was r job hjob)
    have hid : job.id = r := h.watching.traced.keyed r job hjob
    exact (hlinked.down c hc).trans (by rw [hid])

theorem familiar_smallPlane : Familiar smallSettings (smallPlane 0) where
  keyed := by
    intro j v hv
    obtain ⟨rfl, rfl⟩ := job?_smallPlane hv
    rfl
  exclusive := fun l i j hi => by cases hi
  up := by
    intro j v hv r hr
    obtain ⟨rfl, rfl⟩ := job?_smallPlane hv
    cases hr

/-- A worker dies between creating the child and linking it; another finds the child, and a third
one gets it from the link. -/
theorem oneChild_of_run_crashed : ∃ w : Plane,
    w.log.countP (fun e => pushesChildOf 1 e.act) = 1 ∧
    ((w.shared.job? 1).bind Job.childJobId) = some 3 ∧
    OneChild smallSettings (smallPlane 0) w := by
  obtain ⟨w, w', hw, hw', hp⟩ := World.exists_of_play (Y := cluster smallSettings)
    (R := allWork smallSettings (smallPlane 0)) (I := (· = smallPlane 0)) rfl
    (Turn.whole 0 (.gateway (.enqueueChildJobOnce 1 smallPrepared)) 14 ++ [.crash 0])
    (Turn.whole 1 (.gateway (.enqueueChildJobOnce 1 smallPrepared)) 7 ++
      Turn.whole 2 (.gateway (.getLinkedChildJobId 1)) 5)
    (p := fun _ w => w.log.countP (fun e => pushesChildOf 1 e.act) = 1 ∧
      (w.shared.job? 1).bind Job.childJobId = some 3) (by decide +kernel)
  obtain ⟨hcount, hlink⟩ := of_decide_eq_true hp
  exact ⟨w', hcount, hlink, oneChild_of_run smallSettings familiar_smallPlane (hw.later hw')⟩

end Worker

end AiAgent

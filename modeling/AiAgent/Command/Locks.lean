import AiAgent.Command.Interleave
import Mathlib.Logic.Hydra

/-!
# Locks taken in order

A client waits where it asks for a lock that another client holds. If every program asks for locks
in the order of a rank, and gives back what it has taken, then no wait is for ever: of the clients
that wait, one that waits for a lock of the greatest rank waits for a client that does not wait.

That some client can always move is not all. A program is finite, whatever the replies, so each
move makes the clients that are left smaller (`AiAgent.Command.Advance.cutExpand`), and however the
clients are scheduled, all of them come to their end and no lock is left
(`AiAgent.Command.Locking.inevitable`). Nobody has to die for it, and no lock has to run out.
-/

namespace AiAgent

namespace Command

/-! ### What is bound to come -/

/-- **`P` is bound to come**: along every run of `r` that goes on as long as it can, `P` holds at
last. -/
inductive Inevitable {α : Type} (r : α → α → Prop) (P : α → Prop) : α → Prop
  /-- It holds. -/
  | now {a : α} (h : P a) : Inevitable r P a
  /-- There is a step, and after every step it is bound to come. -/
  | later {a : α} (hstep : ∃ b, r a b) (h : ∀ b, r a b → Inevitable r P b) : Inevitable r P a

/-- What no step lowers for ever: if every step lowers a measure, and none is left only once `P`
holds, then `P` is bound to come. -/
theorem Inevitable.of_measure {α : Type} {r : α → α → Prop} {P I : α → Prop} (measure : α → ℕ)
    (hstep : ∀ a, I a → P a ∨ ∃ b, r a b)
    (hdown : ∀ a b, I a → r a b → I b ∧ measure b < measure a) {a : α} (ha : I a) :
    Inevitable r P a := by
  induction hleft : measure a using Nat.strong_induction_on generalizing a with
  | _ left ih =>
    subst hleft
    rcases hstep a ha with hnow | hmore
    · exact .now hnow
    · refine .later hmore fun b hb => ?_
      obtain ⟨hinv, hless⟩ := hdown a b ha hb
      exact ih _ hless hinv rfl

variable {S : Signature} {σ ι ρ L : Type}

/-! ### The clients that are left -/

/-- A step of a client that is under way: nobody begins and nobody dies. -/
inductive Advance (Y : System S σ ι ρ) : World S σ ι ρ → World S σ ι ρ → Prop
  /-- A client issues its next command and gets the reply. -/
  | command {w : World S σ ι ρ} (i : ℕ) (op : ι) (c : S.Cmd) (k : S.Reply c → Program S ρ)
      (hi : w.tasks i = some ⟨op, .ask c k⟩) (hr : Y.store.ready c w.shared) :
      Advance Y w (w.record i op (.command c (Y.store.exec i c w.shared).1)
        (Y.store.exec i c w.shared).2 (some ⟨op, k (Y.store.exec i c w.shared).1⟩))
  /-- A client returns. -/
  | finish {w : World S σ ι ρ} (i : ℕ) (op : ι) (a : ρ) (hi : w.tasks i = some ⟨op, .done a⟩) :
      Advance Y w (w.record i op (.finish a) w.shared none)

/-- The second program is what the first may go on with after a reply. -/
inductive Program.After : Program S ρ → Program S ρ → Prop
  /-- After the reply `r`. -/
  | reply (c : S.Cmd) (k : S.Reply c → Program S ρ) (r : S.Reply c) :
      Program.After (k r) (.ask c k)

/-- A program comes to its end, whatever the replies. -/
theorem Program.wellFounded_after : WellFounded (Program.After (S := S) (ρ := ρ)) := by
  refine ⟨fun p => ?_⟩
  induction p with
  | done a => exact ⟨_, fun q hq => nomatch hq⟩
  | ask c k ih =>
    refine ⟨_, fun q hq => ?_⟩
    cases hq with
    | reply c k r => exact ih r

/-- What is left to do by those of the given clients that are running. -/
def World.left (w : World S σ ι ρ) (clients : List ℕ) : Multiset (Program S ρ) :=
  (clients.filterMap fun i => (w.tasks i).map Task.rest : List (Program S ρ))

/-- Only those of the given clients are running. -/
def World.Among (w : World S σ ι ρ) (clients : List ℕ) : Prop :=
  clients.Nodup ∧ ∀ i, w.tasks i ≠ none → i ∈ clients

theorem World.Among.record {w : World S σ ι ρ} {clients : List ℕ} (h : w.Among clients) {i : ℕ}
    (hi : i ∈ clients) (op : ι) (a : Act S ρ) (s : σ) (t : Option (Task S ι ρ)) :
    (w.record i op a s t).Among clients := by
  refine ⟨h.1, fun j hj => ?_⟩
  rcases eq_or_ne j i with rfl | hne
  · exact hi
  · rw [World.record_tasks, Function.update_of_ne hne] at hj
    exact h.2 j hj

/-- What is left once client `i` has moved: the others are as they were. -/
theorem World.left_record {w : World S σ ι ρ} {clients : List ℕ} (h : w.Among clients) {i : ℕ}
    (hi : i ∈ clients) (op : ι) (a : Act S ρ) (s : σ) (t : Option (Task S ι ρ)) :
    ∃ others : Multiset (Program S ρ),
      w.left clients = ((w.tasks i).map Task.rest).toList + others ∧
        (w.record i op a s t).left clients = (t.map Task.rest).toList + others := by
  refine ⟨w.left (clients.erase i), ?_⟩
  have hperm := List.perm_cons_erase hi
  have hsplit : ∀ u : World S σ ι ρ, u.left clients =
      (((u.tasks i).map Task.rest).toList : Multiset (Program S ρ)) +
        u.left (clients.erase i) := by
    intro u
    have hfilter := hperm.filterMap fun j => (u.tasks j).map Task.rest
    rw [World.left, World.left, Multiset.coe_eq_coe.mpr hfilter, List.filterMap_cons]
    rcases u.tasks i with _ | task <;> rfl
  have hothers : (w.record i op a s t).left (clients.erase i) = w.left (clients.erase i) := by
    rw [World.left, World.left]
    refine congrArg _ (List.filterMap_congr fun j hj => ?_)
    have hne : j ≠ i := by
      rintro rfl
      exact h.1.not_mem_erase hj
    rw [World.record_tasks, Function.update_of_ne hne]
  refine ⟨hsplit w, ?_⟩
  rw [hsplit, hothers, World.record_tasks, Function.update_self]

variable {Y : System S σ ι ρ} {w w' : World S σ ι ρ} {clients : List ℕ}

theorem Advance.among (h : Advance Y w w') (hw : w.Among clients) : w'.Among clients := by
  cases h with
  | command i op c k hi hr => exact hw.record (hw.2 i (by rw [hi]; exact nofun)) _ _ _ _
  | finish i op a hi => exact hw.record (hw.2 i (by rw [hi]; exact nofun)) _ _ _ _

/-- **Each move leaves less to do.** -/
theorem Advance.cutExpand (h : Advance Y w w') (hw : w.Among clients) :
    Relation.CutExpand Program.After (w'.left clients) (w.left clients) := by
  cases h with
  | command i op c k hi hr =>
    obtain ⟨others, hold, hnew⟩ := World.left_record hw (hw.2 i (by rw [hi]; exact nofun)) op
      (.command c (Y.store.exec i c w.shared).1) (Y.store.exec i c w.shared).2
      (some ⟨op, k (Y.store.exec i c w.shared).1⟩)
    rw [hold, hnew, hi]
    exact Relation.cutExpand_single_add (.reply c k _) others
  | finish i op a hi =>
    obtain ⟨others, hold, hnew⟩ := World.left_record hw (hw.2 i (by rw [hi]; exact nofun)) op
      (.finish a) w.shared none
    rw [hold, hnew, hi]
    exact (Relation.cutExpand_add_right others).mpr Relation.cutExpand_zero

/-- In every world that is reached only finitely many clients are running. -/
theorem Reachable.exists_among {R : Rules S σ ι ρ} {init : σ → Prop}
    (hw : Reachable Y R init w) : ∃ clients, w.Among clients := by
  induction hw with
  | init hs => exact ⟨[], List.nodup_nil, fun i hi => absurd rfl hi⟩
  | step _ hs ih =>
    obtain ⟨clients, hclients⟩ := ih
    have hsame : ∀ i, i ∈ clients → ∀ op a s t, ∃ clients,
        (World.record _ i op a s t).Among clients :=
      fun i hi op a s t => ⟨clients, hclients.record hi op a s t⟩
    cases hs with
    | start i op hi hop =>
      by_cases hmem : i ∈ clients
      · exact hsame i hmem _ _ _ _
      · refine ⟨i :: clients, List.nodup_cons.mpr ⟨hmem, hclients.1⟩, fun j hj => ?_⟩
        rcases eq_or_ne j i with rfl | hne
        · exact List.mem_cons_self
        · rw [World.record_tasks, Function.update_of_ne hne] at hj
          exact List.mem_cons_of_mem _ (hclients.2 j hj)
    | command i op c k hi hr hg => exact hsame i (hclients.2 i (by rw [hi]; exact nofun)) _ _ _ _
    | finish i op a hi => exact hsame i (hclients.2 i (by rw [hi]; exact nofun)) _ _ _ _
    | crash i op p hi => exact hsame i (hclients.2 i (by rw [hi]; exact nofun)) _ _ _ _
    | outside s hs => exact ⟨clients, hclients⟩

/-! ### Locks -/

/-- What locks a store has: who holds them, which commands take them and give them back, and that
nothing else is waited for. -/
structure Locking (M : Store S σ) (L : Type) [DecidableEq L] where
  /-- The locks that are held, each with the client that holds it. -/
  held : σ → List (L × ℕ)
  /-- The lock a command takes. -/
  takes : S.Cmd → Option L
  /-- The lock a command gives back. -/
  gives : S.Cmd → Option L
  /-- What takes a lock gives none back. -/
  gives_of_takes : ∀ c l, takes c = some l → gives c = none
  /-- A command waits for the lock it takes. -/
  ready_iff : ∀ c s, M.ready c s ↔ ∀ l, takes c = some l → ∀ i, (l, i) ∉ held s
  /-- What a command does to the locks. -/
  held_exec : ∀ i c s, held (M.exec i c s).2 =
    match takes c with
    | some l => (l, i) :: held s
    | none =>
      match gives c with
      | some l => (held s).erase (l, i)
      | none => held s
  /-- The locks of a client that dies are given back. -/
  held_drop : ∀ i s, held (M.drop i s) = (held s).filter fun p => p.2 ≠ i

namespace Locking

variable [DecidableEq L] {M : Store S σ} (K : Locking M L) (rank : L → ℕ)

/-- **Locks are taken in order.** The ghost is the locks the client holds: it takes only a lock of
greater rank than these, and gives back only one of these. -/
def inOrder : Discipline S (List L) where
  may mine c := (∀ l, K.takes c = some l → ∀ l' ∈ mine, rank l' < rank l) ∧
    ∀ l, K.gives c = some l → l ∈ mine
  after mine c _ mine' := mine' =
    match K.takes c with
    | some l => l :: mine
    | none =>
      match K.gives c with
      | some l => mine.erase l
      | none => mine

/-- The ghosts of the running clients say who holds which lock. -/
structure Accounted (w : World S σ ι ρ) (g : ℕ → List L) : Prop where
  /-- No lock is held twice. -/
  nodup : ((K.held w.shared).map Prod.fst).Nodup
  /-- The same, of one client. -/
  mine : ∀ i, (g i).Nodup
  /-- A lock is held by a client that is running. -/
  iff : ∀ l i, (l, i) ∈ K.held w.shared ↔ w.tasks i ≠ none ∧ l ∈ g i

variable {K rank} {R : Rules S σ ι ρ} {Y : System S σ ι ρ} {w : World S σ ι ρ} {g : ℕ → List L}

namespace Accounted

variable {K : Locking Y.store L}

theorem fresh {s : σ} (hs : K.held s = []) (g : ℕ → List L) (hg : ∀ i, (g i).Nodup) :
    K.Accounted (.fresh s : World S σ ι ρ) g where
  nodup := by
    change ((K.held s).map Prod.fst).Nodup
    simp [hs]
  mine := hg
  iff := by
    intro l i
    change (l, i) ∈ K.held s ↔ _
    simp [hs, World.fresh]

/-- A client that holds nothing begins, or returns. -/
theorem record_empty (h : K.Accounted w g) {i : ℕ} (hi : w.tasks i = none ∨ g i = []) (op : ι)
    (a : Act S ρ) (t : Option (Task S ι ρ)) :
    K.Accounted (w.record i op a w.shared t) (Function.update g i []) where
  nodup := h.nodup
  mine := by
    intro j
    rcases eq_or_ne j i with rfl | hne
    · simp
    · simpa [hne] using h.mine j
  iff := by
    intro l j
    rw [World.record_shared, h.iff, World.record_tasks]
    rcases eq_or_ne j i with rfl | hne
    · rcases hi with hi | hi <;> simp [hi]
    · simp [hne]

/-- A client dies, and its locks are given back. -/
theorem crash (h : K.Accounted w g) (i : ℕ) (op : ι) :
    K.Accounted (w.record i op .crash (Y.store.drop i w.shared) none) g where
  nodup := by
    rw [World.record_shared, K.held_drop]
    exact h.nodup.sublist (List.filter_sublist.map _)
  mine := h.mine
  iff := by
    intro l j
    rw [World.record_shared, K.held_drop, List.mem_filter, h.iff, World.record_tasks]
    rcases eq_or_ne j i with rfl | hne
    · simp
    · simp [hne]

/-- What the locks are after a command. -/
theorem command (h : K.Accounted w g) {i : ℕ} {op : ι} {c : S.Cmd} {k : S.Reply c → Program S ρ}
    (hi : w.tasks i = some ⟨op, .ask c k⟩) (hr : Y.store.ready c w.shared) {mine : List L}
    (hafter : (K.inOrder rank).after (g i) c (Y.store.exec i c w.shared).1 mine) :
    K.Accounted (w.record i op (.command c (Y.store.exec i c w.shared).1)
      (Y.store.exec i c w.shared).2 (some ⟨op, k (Y.store.exec i c w.shared).1⟩))
      (Function.update g i mine) := by
  have hrunning : w.tasks i ≠ none := by
    rw [hi]
    exact nofun
  have hheld := K.held_exec i c w.shared
  simp only [inOrder] at hafter
  have hothers : ∀ l j, j ≠ i → ((l, j) ∈ K.held (Y.store.exec i c w.shared).2 ↔
      (l, j) ∈ K.held w.shared) := by
    intro l j hne
    rw [hheld]
    rcases K.takes c with _ | taken
    · rcases K.gives c with _ | given
      · rfl
      · exact List.mem_erase_of_ne fun heq => hne (congrArg Prod.snd heq)
    · simp [hne]
  have hown : (((K.held (Y.store.exec i c w.shared).2).map Prod.fst).Nodup ∧ mine.Nodup) ∧
      ∀ l, (l, i) ∈ K.held (Y.store.exec i c w.shared).2 ↔ l ∈ mine := by
    have hiff : ∀ l, (l, i) ∈ K.held w.shared ↔ l ∈ g i := fun l => by
      rw [h.iff, and_iff_right hrunning]
    rw [hheld, hafter]
    rcases htakes : K.takes c with _ | taken
    · rcases K.gives c with _ | given
      · exact ⟨⟨h.nodup, h.mine i⟩, hiff⟩
      · refine ⟨⟨h.nodup.sublist (List.erase_sublist.map _), (h.mine i).erase _⟩, fun l => ?_⟩
        -- No lock is there twice, so what is given back is gone.
        dsimp only
        rw [h.nodup.of_map.mem_erase_iff, (h.mine i).mem_erase_iff, hiff]
        simp
    · have hfree := (K.ready_iff c w.shared).mp hr taken htakes
      refine ⟨⟨?_, ?_⟩, fun l => ?_⟩
      · dsimp only
        rw [List.map_cons, List.nodup_cons]
        refine ⟨?_, h.nodup⟩
        rintro hmem
        obtain ⟨⟨l, j⟩, hj, rfl⟩ := List.mem_map.mp hmem
        exact hfree j hj
      · dsimp only
        exact List.nodup_cons.mpr ⟨fun hmem => hfree i ((hiff taken).mpr hmem), h.mine i⟩
      · simp [hiff]
  refine ⟨hown.1.1, fun j => ?_, fun l j => ?_⟩
  · rcases eq_or_ne j i with rfl | hne
    · simpa using hown.1.2
    · simpa [hne] using h.mine j
  · rw [World.record_shared, World.record_tasks]
    rcases eq_or_ne j i with rfl | hne
    · simp [hown.2]
    · rw [hothers l j hne, h.iff]
      simp [hne]

end Accounted

variable {K : Locking Y.store L} {init : σ → Prop}

/-- **The locks are accounted for in every world that is reached.** -/
theorem tied (hbody : ∀ op, R.starts op →
      (Y.body op).Obeys (K.inOrder rank) (fun _ mine => mine = []) [])
    (hinit : ∀ s, init s → K.held s = [])
    (houtside : ∀ s s', Y.outside s s' → K.held s' = K.held s) :
    Tied Y R init (K.inOrder rank) (fun _ => []) (fun _ _ mine => mine = []) K.Accounted where
  body := hbody
  init s hs := ⟨fun _ => [], .fresh (hinit s hs) _ fun _ => List.nodup_nil⟩
  start w g i op h hi _ := h.record_empty (.inl hi) op _ _
  command w g i op c k h hi _ _ hr _ := by
    refine ⟨_, rfl, ?_⟩
    exact @Accounted.command _ _ _ _ _ _ rank _ _ _ _ h i op c k hi hr _ rfl
  finish w g i op a h hi hmine := by
    have hrecord := h.record_empty (.inr hmine) op (.finish a) none
    rwa [← hmine, Function.update_eq_self] at hrecord
  crash w g i op p h _ := h.crash i op
  outside w g s h hs := by
    refine ⟨?_, h.mine, fun l i => ?_⟩
    · rw [houtside _ _ hs]
      exact h.nodup
    · rw [houtside _ _ hs]
      exact h.iff l i

/-! ### Programs that give back what they take -/

section Balanced

variable {α β : Type} {M : Store S σ} (K : Locking M L) (rank : L → ℕ)

/-- Called with locks of rank below `n` only, the program takes further ones in order and returns
with the locks it was called with. -/
def Balanced (n : ℕ) (p : Program S α) : Prop :=
  ∀ mine : List L, (∀ l ∈ mine, rank l < n) →
    p.Obeys (K.inOrder rank) (fun _ mine' => mine' = mine) mine

variable {K rank} {n : ℕ}

theorem balanced_pure (a : α) : K.Balanced rank n (pure a : Program S α) := fun _ _ => rfl

theorem Balanced.bind {p : Program S α} {f : α → Program S β} (h : K.Balanced rank n p)
    (hf : ∀ a, K.Balanced rank n (f a)) : K.Balanced rank n (p >>= f) := by
  intro mine hmine
  refine Program.Obeys.bind (h mine hmine) ?_
  rintro a mine' rfl
  exact hf a mine' hmine

/-- A command that is about no lock. -/
theorem balanced_send {c : S.Cmd} (htakes : K.takes c = none) (hgives : K.gives c = none) :
    K.Balanced rank n (Program.send c) := by
  intro mine _
  rw [Program.obeys_send]
  refine ⟨by simp [inOrder, htakes, hgives], ?_⟩
  rintro r mine' hafter
  simpa [inOrder, htakes, hgives] using hafter

/-- A lock is taken, and given back at the end. -/
theorem Balanced.locked {l : L} {take give : S.Cmd} (htake : K.takes take = some l)
    (hgive : K.takes give = none) (hgives : K.gives give = some l) (hl : n ≤ rank l)
    {body : Program S α} (h : K.Balanced rank (rank l + 1) body) :
    K.Balanced rank n (Program.send take >>= fun _ => body >>= fun a =>
      Program.send give >>= fun _ => pure a) := by
  intro mine hmine
  rw [Program.obeys_bind, Program.obeys_send]
  constructor
  · simp only [inOrder, htake, Option.some.injEq, forall_eq']
    refine ⟨fun l' hl' => (hmine l' hl').trans_le hl, ?_⟩
    -- What takes a lock gives none back.
    intro l' hl'
    exact absurd hl' (by simp [K.gives_of_takes take l htake])
  intro r mine' hafter
  obtain rfl : mine' = l :: mine := by simpa [inOrder, htake] using hafter
  have hbody := h (l :: mine) (by
    rintro l' (- | ⟨_, hl'⟩)
    · omega
    · have := hmine l' hl'
      omega)
  refine Program.Obeys.bind hbody ?_
  rintro a _ rfl
  rw [Program.obeys_bind, Program.obeys_send]
  refine ⟨by simp [inOrder, hgive, hgives], ?_⟩
  rintro r' mine'' hafter
  simpa [inOrder, hgive, hgives] using hafter

end Balanced

/-! ### Somebody can move -/

/-- **No deadlock**: as long as a client is running, one can move. -/
theorem exists_advance (h : K.Accounted w g)
    (hfits : Fits (K.inOrder rank) (fun _ _ mine => mine = []) w g) {i : ℕ}
    (hi : w.tasks i ≠ none) : ∃ w', Advance Y w w' := by
  by_contra hstuck
  -- Who cannot move waits for a lock, and holds only locks of smaller rank.
  have hwaits : ∀ i, w.tasks i ≠ none → ∃ l j, (l, j) ∈ K.held w.shared ∧
      ∀ l' ∈ g i, rank l' < rank l := by
    intro i hi
    obtain ⟨⟨op, p⟩, htask⟩ := Option.ne_none_iff_exists'.mp hi
    cases p with
    | done a => exact absurd ⟨_, .finish i op a htask⟩ hstuck
    | ask c k =>
      have hask : (Program.ask c k).Obeys (K.inOrder rank) _ (g i) := hfits i op _ htask
      have hready : ¬ Y.store.ready c w.shared := fun hr => hstuck ⟨_, .command i op c k htask hr⟩
      rw [K.ready_iff] at hready
      push Not at hready
      obtain ⟨l, htakes, j, hheld⟩ := hready
      exact ⟨l, j, hheld, hask.1.1 l htakes⟩
  obtain ⟨bound, hbound⟩ : ∃ bound, ∀ p ∈ K.held w.shared, rank p.1 ≤ bound := by
    obtain ⟨bound, hbound⟩ := ((K.held w.shared).finite_toSet.image fun p => rank p.1).bddAbove
    exact ⟨bound, fun p hp => hbound ⟨p, hp, rfl⟩⟩
  -- Who holds the lock waits for a lock of greater rank, and so on beyond every bound.
  have habove : ∀ n, ∃ l j, (l, j) ∈ K.held w.shared ∧ n ≤ rank l := by
    intro n
    induction n with
    | zero =>
      obtain ⟨l, j, hheld, -⟩ := hwaits i hi
      exact ⟨l, j, hheld, Nat.zero_le _⟩
    | succ n ih =>
      obtain ⟨l, j, hheld, hle⟩ := ih
      obtain ⟨hj, hmem⟩ := (h.iff l j).mp hheld
      obtain ⟨l', j', hheld', hlt⟩ := hwaits j hj
      exact ⟨l', j', hheld', by have := hlt l hmem; omega⟩
  obtain ⟨l, j, hheld, hle⟩ := habove (bound + 1)
  have hbounded : rank l ≤ bound := hbound _ hheld
  omega

/-- **Everything comes to its end**: in every world that is reached, however those that are under
way are scheduled from there on, all of them return, and then no lock is held. -/
theorem inevitable (hbody : ∀ op, R.starts op →
      (Y.body op).Obeys (K.inOrder rank) (fun _ mine => mine = []) [])
    (hinit : ∀ s, init s → K.held s = [])
    (houtside : ∀ s s', Y.outside s s' → K.held s' = K.held s) (hw : Reachable Y R init w) :
    Inevitable (Advance Y)
      (fun w' => (∀ i, w'.tasks i = none) ∧ K.held w'.shared = []) w := by
  -- A lock is waited for however long it takes, so the guard of the run plays no part.
  let unguarded : Rules S σ ι ρ := ⟨R.starts, fun _ _ => True⟩
  have hfree : Reachable Y unguarded init w := by
    refine Reachable.weaken ?_ ?_ hw
    · exact fun _ h => h
    · exact fun _ _ _ => trivial
  have T : Tied Y unguarded init (K.inOrder rank) (fun _ => []) (fun _ _ mine => mine = [])
    K.Accounted := tied hbody hinit houtside
  obtain ⟨clients, hamong⟩ := hfree.exists_among
  clear hw
  -- Induction on what is left to do.
  induction hleft : w.left clients using (Program.wellFounded_after.cutExpand).induction
    generalizing w with
  | _ left ih =>
    subst hleft
    obtain ⟨g, h, hfits⟩ := hfree.ghosts T
    by_cases hidle : ∀ i, w.tasks i = none
    · refine .now ⟨hidle, List.eq_nil_iff_forall_not_mem.mpr ?_⟩
      rintro ⟨l, i⟩ hmem
      exact ((h.iff l i).mp hmem).1 (hidle i)
    · push Not at hidle
      obtain ⟨i, hi⟩ := hidle
      refine .later (exists_advance h hfits hi) fun w' hstep => ?_
      have hnext : Reachable Y unguarded init w' := by
        refine hfree.step ?_
        cases hstep with
        | command i op c k hi hr => exact .command i op c k hi hr trivial
        | finish i op a hi => exact .finish i op a hi
      exact ih _ (hstep.cutExpand hamong) hnext (hstep.among hamong) rfl

end Locking

end Command

end AiAgent

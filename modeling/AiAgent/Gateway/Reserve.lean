import AiAgent.Gateway.Load

/-!
# The reserve of the chat

Half of the capacity of a target is the reserve of chat jobs, a quarter that of SIEM jobs. A batch
job is admitted where it leaves both reserves alone, as far as they are unused; a SIEM job within
its own reserve, or where it leaves that of the chat alone; a chat job wherever there is room.

The reserve of the chat holds in every order of admissions and releases
(`AiAgent.Gateway.chat_capacity_guaranteed`). It is not enough to look at what SIEM and batch jobs
take together, since a SIEM job within its reserve is admitted without a look at the chat: the
invariant `AiAgent.Gateway.Load.Reserves` has to keep the batch jobs out of both reserves, and this
also while a reserve is empty.
-/

namespace AiAgent

namespace Gateway

/-- What of a capacity is reserved for chat jobs. -/
def chatReservedCap (base : ℕ) : ℕ := max 1 (base / 2)

/-- What of a capacity is reserved for SIEM jobs. -/
def siemReservedCap (base : ℕ) : ℕ := base / 4

/-- The reserves are within the capacity. -/
theorem reserves_le {base : ℕ} (h : 0 < base) :
    chatReservedCap base + siemReservedCap base ≤ base := by
  rw [chatReservedCap, siemReservedCap]
  omega

variable {cfg : Settings} {l : Load}

/-! ### The token checks -/

/-- The token checks, spelled out for the default ratios. -/
theorem tokensAdmit_iff (hchat : ∀ tokens, cfg.chatReserved tokens = tokens / 2)
    (hsiem : ∀ tokens, cfg.siemReserved tokens = tokens / 4) (workloadClass : Workload)
    (usage : Usage) (tokenCost effective : ℕ) :
    tokensAdmit cfg workloadClass usage tokenCost effective = true ↔
      usage .tokens + tokenCost ≤ effective ∧
      (workloadClass = .batch → (tokenCost : ℤ) ≤ max 0 (effective - usage .tokens -
        (max (chatReservedCap effective - usage (.tokensOf .chat)) 0 +
          max (siemReservedCap effective - usage (.tokensOf .siem)) 0))) ∧
      (workloadClass = .siem →
        usage (.tokensOf .siem) + tokenCost ≤ siemReservedCap effective ∨
        (tokenCost : ℤ) ≤ max 0 (effective - usage .tokens -
          max (chatReservedCap effective - usage (.tokensOf .chat)) 0)) := by
  have hchatCap : max 1 ((effective / 2 : ℕ) : ℤ) = (chatReservedCap effective : ℤ) := by
    rw [chatReservedCap]
    omega
  have hsiemCap : max 0 ((effective / 4 : ℕ) : ℤ) = (siemReservedCap effective : ℤ) := by
    rw [siemReservedCap]
    omega
  rw [tokensAdmit]
  simp only [hchat, hsiem, hchatCap, hsiemCap, Bool.and_eq_true, Bool.not_eq_true',
    decide_eq_false_iff_not, not_and, not_not, not_lt, gt_iff_lt]
  rw [and_assoc]
  refine and_congr Iff.rfl (and_congr Iff.rfl (forall_congr' fun _ => ?_))
  rw [← or_iff_not_imp_left]

/-! ### The invariant -/

/-- What keeps the reserve of the chat. The batch jobs leave both reserves free, the SIEM and batch
jobs together that of the chat, and the capacity is kept unless one chat job has the whole
target. -/
structure Load.Reserves (base : ℕ) (l : Load) : Prop where
  balanced : l.Balanced
  workloads : ∀ g ∈ l.active, g.job.workloadClass ≠ .parse
  batch : l.usage (.tokensOf .batch) + siemReservedCap base + chatReservedCap base ≤ base
  others : l.usage (.tokensOf .siem) + l.usage (.tokensOf .batch) + chatReservedCap base ≤ base
  total : l.usage .tokens ≤ base ∨
    ∃ g, l.active = [g] ∧ g.job.workloadClass = .chat ∧ g.cpuSingleSlotOverride = true

/-- The tokens are those of the three workloads. -/
theorem reservedSum_tokens {active : List Grant} (h : ∀ g ∈ active, g.job.workloadClass ≠ .parse) :
    reservedSum .tokens active =
      reservedSum (.tokensOf .chat) active + reservedSum (.tokensOf .siem) active +
      reservedSum (.tokensOf .batch) active := by
  induction active with
  | nil => rfl
  | cons g active ih =>
    have hg := h g List.mem_cons_self
    have ih := ih fun f hf => h f (List.mem_cons_of_mem g hf)
    simp only [reservedSum_cons, Job.share, ih]
    cases hclass : g.job.workloadClass with
    | parse => exact absurd hclass hg
    | chat => simp only [if_true, reduceCtorEq, if_false]; omega
    | siem => simp only [if_true, reduceCtorEq, if_false]; omega
    | batch => simp only [if_true, reduceCtorEq, if_false]; omega

theorem Load.Reserves.tokens {base : ℕ} (h : l.Reserves base) :
    l.usage .tokens = l.usage (.tokensOf .chat) + l.usage (.tokensOf .siem) +
      l.usage (.tokensOf .batch) := by
  simp only [h.balanced.usage]
  exact reservedSum_tokens h.workloads

theorem Load.reserves_idle {base : ℕ} (hbase : 0 < base) : Load.idle.Reserves base := by
  have hle := reserves_le hbase
  refine ⟨Load.balanced_idle, fun g hg => absurd hg List.not_mem_nil, ?_, ?_, .inl ?_⟩
  · change (0 : ℤ) + _ + _ ≤ _
    omega
  · change (0 : ℤ) + 0 + _ ≤ _
    omega
  · exact Int.natCast_nonneg base

/-- A release only lowers counters. -/
theorem Load.Reserves.release {base : ℕ} (h : l.Reserves base) {g : Grant}
    {before after : List Grant} (hactive : l.active = before ++ g :: after) :
    (l.release g (before ++ after)).Reserves base := by
  have hbalanced := h.balanced.release hactive
  have hle : ∀ field, (l.release g (before ++ after)).usage field ≤ l.usage field := by
    intro field
    have husage := h.balanced.usage field
    have hshare := g.job.share_nonneg field
    rw [hactive, reservedSum_split] at husage
    rw [hbalanced.usage, husage]
    exact Int.le_add_of_nonneg_left hshare
  have hbatch := hle (.tokensOf .batch)
  have hsiem := hle (.tokensOf .siem)
  have htokens := hle .tokens
  refine ⟨hbalanced, fun f hf => ?_, ?_, ?_, ?_⟩
  · refine h.workloads f ?_
    rw [hactive]
    rcases List.mem_append.mp hf with hf | hf
    · exact List.mem_append_left _ hf
    · exact List.mem_append_right _ (List.mem_cons_of_mem g hf)
  · have := h.batch
    omega
  · have := h.others
    omega
  · left
    rcases h.total with htotal | ⟨f, hf, -⟩
    · omega
    · -- The only job is released, and nothing is left.
      have hnil : before ++ after = [] := by
        rw [hf] at hactive
        have hlength := congrArg List.length hactive
        simp only [List.length_append, List.length_cons, List.length_nil] at hlength
        exact List.length_eq_zero_iff.mp (by rw [List.length_append]; omega)
      rw [hbalanced.usage]
      change reservedSum .tokens (before ++ after) ≤ _
      rw [hnil]
      exact Int.natCast_nonneg base

/-- An idle target makes an exception for chat jobs only. -/
theorem chat_of_override (hchat : ∀ tokens, cfg.chatReserved tokens = tokens / 2)
    (hsiem : ∀ tokens, cfg.siemReserved tokens = tokens / 4) {workloadClass : Workload}
    {usage : Usage} {tokenCost : ℕ} (hpos : 0 < tokenCost)
    (hidle : ∀ field, usage field = 0) (hparse : workloadClass ≠ .parse)
    (h : tokensAdmit cfg workloadClass usage tokenCost tokenCost = true) :
    workloadClass = .chat := by
  obtain ⟨-, hbatch, hs⟩ := (tokensAdmit_iff hchat hsiem _ _ _ _).mp h
  have hcap : 1 ≤ chatReservedCap tokenCost := le_max_left _ _
  cases workloadClass with
  | chat => rfl
  | siem =>
    have hs := hs rfl
    simp only [hidle] at hs
    rw [siemReservedCap] at hs
    omega
  | batch =>
    have hbatch := hbatch rfl
    simp only [hidle] at hbatch
    omega
  | parse => exact absurd rfl hparse

theorem tokenCost_pos (cfg : Settings) (job : Job) (targetKind : TargetKind) :
    0 < (jobProfile cfg job targetKind).tokenCost :=
  Nat.lt_of_lt_of_le Nat.one_pos (Nat.le_max_left 1 _)

/-- An admission keeps the reserves. -/
theorem Load.Reserves.add {base : ℕ} (hchat : ∀ tokens, cfg.chatReserved tokens = tokens / 2)
    (hsiem : ∀ tokens, cfg.siemReserved tokens = tokens / 4) (h : l.Reserves base) {job : Job}
    {target : Target} (hbase : baseTokens target = base) (hparse : job.workloadClass ≠ .parse)
    {admission : Admission} (heval : l.evaluate cfg job target = some admission) (nowMs : ℕ) :
    (l.add (l.grant cfg job target admission nowMs)).Reserves base := by
  have hadmitted := evaluateTarget_eq_some heval
  have hbalanced := h.balanced.add (l.grant cfg job target admission nowMs)
  have hpos : 0 < admission.profile.tokenCost := by
    rw [hadmitted.profile]
    exact tokenCost_pos _ _ _
  have htokens := hadmitted.tokens
  rw [hbase] at htokens
  have hworkloads : ∀ g ∈ (l.add (l.grant cfg job target admission nowMs)).active,
      g.job.workloadClass ≠ .parse := by
    intro g hg
    rcases List.mem_cons.mp hg with rfl | hg
    · exact hparse
    · exact h.workloads g hg
  have htotal : (l.add (l.grant cfg job target admission nowMs)).usage .tokens =
      l.usage .tokens + admission.profile.tokenCost := by
    rw [← hadmitted.reservedTokens]
    rfl
  have hof : ∀ workloadClass,
      (l.add (l.grant cfg job target admission nowMs)).usage (.tokensOf workloadClass) =
        l.usage (.tokensOf workloadClass) +
          if workloadClass = job.workloadClass then (admission.profile.tokenCost : ℤ) else 0 := by
    intro workloadClass
    rw [← hadmitted.reservedTokens]
    rfl
  have hbatch := h.batch
  have hothers := h.others
  by_cases hoverride : cpuSingleSlotOverride (normalizeTargetKind target.targetKind) l.usage
      admission.profile.tokenCost base = true
  · -- The target is idle, and the job has it to itself.
    have hidle : l.active = [] := by
      have hcount := h.balanced.activeJobs
      rw [cpuSingleSlotOverride, decide_eq_true_eq] at hoverride
      rw [hoverride.2.1] at hcount
      exact List.length_eq_zero_iff.mp (by omega)
    have hzero : ∀ field, l.usage field = 0 := by
      intro field
      rw [h.balanced.usage, hidle]
      rfl
    rw [effectiveTokens, if_pos hoverride] at htokens
    have hclass := chat_of_override hchat hsiem hpos hzero hparse htokens
    refine ⟨hbalanced, hworkloads, ?_, ?_, .inr ⟨_, by rw [Load.add, hidle], hclass, ?_⟩⟩
    · rw [hof, hclass, if_neg (by decide)]
      omega
    · rw [hof, hof, hclass, if_neg (by decide), if_neg (by decide)]
      omega
    · change cpuSingleSlotOverride _ l.usage _ (baseTokens target) = true
      rwa [hbase]
  · rw [effectiveTokens, if_neg hoverride] at htokens
    obtain ⟨hroom, hifbatch, hifsiem⟩ := (tokensAdmit_iff hchat hsiem _ _ _ _).mp htokens
    have hsum := h.tokens
    have hchatUsed := h.balanced.nonneg (.tokensOf .chat)
    refine ⟨hbalanced, hworkloads, ?_, ?_, .inl (by rw [htotal]; exact hroom)⟩
    · rw [hof]
      by_cases hclass : job.workloadClass = .batch
      · have hifbatch := hifbatch hclass
        rw [if_pos hclass.symm]
        omega
      · rw [if_neg (Ne.symm hclass)]
        omega
    · rw [hof, hof]
      cases hclass : job.workloadClass with
      | chat =>
        rw [if_neg (by decide), if_neg (by decide)]
        omega
      | batch =>
        have hifbatch := hifbatch hclass
        rw [if_neg (by decide), if_pos rfl]
        omega
      | siem =>
        have hifsiem := hifsiem hclass
        rw [if_pos rfl, if_neg (by decide)]
        omega
      | parse => exact absurd hclass hparse

/-! ### The reserve in every order -/

/-- A job of one of the three workloads that are evaluated, on a target of a capacity. -/
def OnCapacity (capacity : ℕ) (_ : Load) (job : Job) (target : Target) : Prop :=
  target.baseCapacityTokens = capacity ∧ job.workloadClass ≠ .parse

/-- Any active job may be released, and only once. -/
def Anytime (_ : Load) (_ : Grant) (_ : List Grant) : Prop := True

/-- **The reserves hold in every load that is reached.** -/
theorem Load.Reachable.reserves (hchat : ∀ tokens, cfg.chatReserved tokens = tokens / 2)
    (hsiem : ∀ tokens, cfg.siemReserved tokens = tokens / 4) {capacity : ℕ}
    (h : Load.Reachable cfg (OnCapacity capacity) Anytime l) :
    l.Reserves (max 1 capacity) := by
  induction h with
  | refl => exact Load.reserves_idle (Nat.lt_of_lt_of_le Nat.one_pos (Nat.le_max_left 1 _))
  | tail _ hstep ih =>
    cases hstep with
    | add job target admission nowMs hjob heval =>
      exact ih.add hchat hsiem (by rw [baseTokens, hjob.1]) hjob.2 heval nowMs
    | release g before after hactive => exact ih.release hactive

/-- **The capacity of the chat is guaranteed.** In every order of admissions and releases the
capacity is kept, unless one chat job has an idle CPU target to itself; SIEM and batch jobs leave
the reserve of the chat free; and a chat job within this reserve passes the token checks. -/
theorem chat_capacity_guaranteed (hchat : ∀ tokens, cfg.chatReserved tokens = tokens / 2)
    (hsiem : ∀ tokens, cfg.siemReserved tokens = tokens / 4) (capacity : ℕ)
    (h : Load.Reachable cfg (OnCapacity capacity) Anytime l) :
    (l.usage .tokens ≤ max 1 capacity ∨
      ∃ g, l.active = [g] ∧ g.job.workloadClass = .chat ∧ g.cpuSingleSlotOverride = true) ∧
    l.usage (.tokensOf .siem) + l.usage (.tokensOf .batch) ≤
      max 1 capacity - chatReservedCap (max 1 capacity) ∧
    ∀ (targetKind : TargetKind) (tokenCost : ℕ),
      l.usage (.tokensOf .chat) + tokenCost ≤ chatReservedCap (max 1 capacity) →
      tokensAdmit cfg .chat l.usage tokenCost
        (effectiveTokens targetKind l.usage tokenCost (max 1 capacity)) = true := by
  have hreserves := h.reserves hchat hsiem
  have hothers := hreserves.others
  refine ⟨by simpa using hreserves.total, by omega, fun targetKind tokenCost hcost => ?_⟩
  have hle := reserves_le (Nat.lt_of_lt_of_le Nat.one_pos (Nat.le_max_left 1 capacity))
  have hchatUsed := hreserves.balanced.nonneg (.tokensOf .chat)
  have hoverride :
      ¬ cpuSingleSlotOverride targetKind l.usage tokenCost (max 1 capacity) = true := by
    rw [cpuSingleSlotOverride, decide_eq_true_eq]
    rintro ⟨-, -, -, hlong⟩
    omega
  rw [effectiveTokens, if_neg hoverride, tokensAdmit_iff hchat hsiem]
  have hsum := hreserves.tokens
  refine ⟨by omega, nofun, nofun⟩

/-- The chat job of the small cluster. -/
def smallJob : Job := newJob smallSettings smallRequest 2 ⟨"m", 0⟩ .cpu 0

/-- With a chat job on the small target the capacity is kept. -/
theorem chat_capacity_guaranteed_small : ∃ l,
    Load.Reachable smallSettings (OnCapacity 100) Anytime l ∧ l.active ≠ [] ∧
      l.usage (.tokensOf .siem) + l.usage (.tokensOf .batch) ≤ 50 := by
  have hsome : (Load.idle.evaluate smallSettings smallJob smallTarget).isSome = true := by
    decide +kernel
  obtain ⟨admission, hadmission⟩ := Option.isSome_iff_exists.mp hsome
  have hreached : Load.Reachable smallSettings (OnCapacity 100) Anytime
      (Load.idle.add (Load.idle.grant smallSettings smallJob smallTarget admission 0)) :=
    .single (.add smallJob smallTarget admission 0 ⟨rfl, by decide +kernel⟩ hadmission)
  exact ⟨_, hreached, List.cons_ne_nil _ _,
    (chat_capacity_guaranteed (fun _ => rfl) (fun _ => rfl) 100 hreached).2.1⟩

end Gateway

end AiAgent

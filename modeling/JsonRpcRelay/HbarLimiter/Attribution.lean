import JsonRpcRelay.HbarLimiter.Effects

/-!
# Expense attribution

An expense belongs to the operator's plan and to the caller's plan.  The lookup of the
operator's plan falls back to the plan of the request's IP address, so an expense is
attributed as it should be exactly when the operator's plan exists or that address has none,
and the two plans are different.
-/

namespace JsonRpcRelay.HbarLimiter

open Framework

/-- The plan of the caller: that of the EVM address, else that of the IP address, else a new
basic plan for the EVM address, else none. -/
def CallerPlan (b : CacheBackend) (st st' : LimiterState) (evmAddress ipAddress : String)
    (callerPlan : Option PlanId) : Prop :=
  match st.findPlan b evmAddress ipAddress with
  | some plan => callerPlan = some plan.id
  | none =>
    if evmAddress = "" then callerPlan = none
    else ∃ plan, st'.evmPlan b evmAddress = some plan ∧ plan.subscriptionTier = .basic ∧
      st.plan b plan.id = none ∧ callerPlan = some plan.id

/-- The operator's plan, created if it was missing, and the caller's plan have each grown by
the cost, and no other plan has changed. -/
def Attributed (cfg : LimiterConfig) (st st' : LimiterState) (cost : ℕ)
    (evmAddress ipAddress : String) : Prop :=
  ∃ operatorPlan callerPlan,
    st'.evmPlan cfg.backend cfg.operatorAddress = some operatorPlan ∧
    (match st.evmPlan cfg.backend cfg.operatorAddress with
      | some plan => plan.id = operatorPlan.id
      | none => st.plan cfg.backend operatorPlan.id = none) ∧
    CallerPlan cfg.backend st st' evmAddress ipAddress callerPlan ∧
    st'.spent cfg.backend operatorPlan.id = st.spent cfg.backend operatorPlan.id + cost ∧
    (∀ id, callerPlan = some id → st'.spent cfg.backend id = st.spent cfg.backend id + cost) ∧
    ∀ id, id ≠ operatorPlan.id → callerPlan ≠ some id →
      st'.spent cfg.backend id = st.spent cfg.backend id

variable {b : CacheBackend} {cfg : LimiterConfig} {st st₁ st₂ st₃ st₄ : LimiterState} {cost : ℕ}
  {evmAddress ipAddress : String}

theorem addExpense_disabled (h : isEnabled cfg = false) :
    (runAlone cfg.backend (addExpense cfg cost evmAddress ipAddress) st).2 = st := by
  simp [addExpense, h]

section Steps

variable {plan : DetailedHbarSpendingPlan} {tier : SubscriptionTier}

private theorem PlanStep.findPlan_of_ne {owner ownerIp : String}
    (h : PlanStep b st owner ownerIp tier plan st₁) (hwf : WellFormed b st)
    (hne : evmAddress = "" ∨ ¬ SameAddress evmAddress owner) :
    st₁.findPlan b evmAddress ipAddress = st.findPlan b evmAddress ipAddress := by
  rcases h with ⟨_, rfl⟩ | ⟨_, _, _, hnew⟩
  · rfl
  · have hevm : st₁.evmPlan b evmAddress = st.evmPlan b evmAddress := by
      rcases hne with rfl | hne
      · rfl
      · exact hnew.evmPlan_of_ne hwf hne
    rw [LimiterState.findPlan, LimiterState.findPlan, hevm, hnew.ipPlan_eq hwf]

theorem PlanStep.evmPlan_of_ne {owner : String}
    (h : PlanStep b st evmAddress ipAddress tier plan st₁) (hwf : WellFormed b st)
    (hne : evmAddress = "" ∨ ¬ SameAddress evmAddress owner) :
    st₁.evmPlan b owner = st.evmPlan b owner := by
  rcases h with ⟨_, rfl⟩ | ⟨_, hevm, _, hnew⟩
  · rfl
  · refine hnew.evmPlan_of_ne hwf fun hsame => ?_
    exact hne.elim hevm fun hdiff => hdiff hsame.symm

private theorem PlanStep.nextPlanId_le {owner ownerIp : String}
    (h : PlanStep b st owner ownerIp tier plan st₁) : st.nextPlanId ≤ st₁.nextPlanId := by
  rcases h with ⟨_, rfl⟩ | ⟨_, _, _, hnew⟩
  · exact Nat.le_refl _
  · rw [hnew.nextPlanId]
    exact Nat.le_succ _

theorem Charged.evmPlan_some {id : PlanId} {amount : ℕ} (h : Charged b st id amount st₁)
    (hplan : st.evmPlan b evmAddress = some plan) :
    ∃ plan', st₁.evmPlan b evmAddress = some plan' ∧
      plan'.toHbarSpendingPlan = plan.toHbarSpendingPlan := by
  have hmap := h.evmPlan_map evmAddress
  rw [hplan, Option.map_some] at hmap
  exact Option.map_eq_some_iff.mp hmap

theorem Charged.evmPlan_none {id : PlanId} {amount : ℕ} (h : Charged b st id amount st₁)
    (hplan : st.evmPlan b evmAddress = none) : st₁.evmPlan b evmAddress = none := by
  have hmap := h.evmPlan_map evmAddress
  rwa [hplan, Option.map_none, Option.map_eq_none_iff] at hmap

end Steps

section OperatorStep

variable {operatorPlan : DetailedHbarSpendingPlan}

/-- Where the fallback is not taken, the plan that is charged first is the operator's own. -/
theorem operatorStep_own (hwf : WellFormed cfg.backend st)
    (hfallback : (st.evmPlan cfg.backend cfg.operatorAddress).isSome ∨
      st.ipPlan cfg.backend ipAddress = none)
    (h : PlanStep cfg.backend st cfg.operatorAddress ipAddress .operator operatorPlan st₁) :
    st₁.evmPlan cfg.backend cfg.operatorAddress = some operatorPlan ∧
      (match st.evmPlan cfg.backend cfg.operatorAddress with
        | some plan => plan.id = operatorPlan.id
        | none => st.plan cfg.backend operatorPlan.id = none) := by
  rcases h with ⟨hfound, rfl⟩ | ⟨hnone, hop, rfl, hnew⟩
  · have hown : st₁.evmPlan cfg.backend cfg.operatorAddress = some operatorPlan := by
      rcases hfallback with hsome | hip
      · obtain ⟨plan, hplan⟩ := Option.isSome_iff_exists.mp hsome
        rw [LimiterState.findPlan, hplan, Option.some_or] at hfound
        rw [hplan, hfound]
      · rwa [LimiterState.findPlan, hip, Option.or_none] at hfound
    exact ⟨hown, by rw [hown]⟩
  · refine ⟨hnew.evmPlan_self hwf hop, ?_⟩
    rw [(Option.or_eq_none_iff.mp hnone).1]
    exact hwf.freshPlan _ (Nat.le_refl _)

private theorem callerPlan_ne {callerPlan : DetailedHbarSpendingPlan}
    (hwf : WellFormed cfg.backend st)
    (hapart : ∀ o c, st.evmPlan cfg.backend cfg.operatorAddress = some o →
      st.findPlan cfg.backend evmAddress ipAddress = some c → o.id ≠ c.id)
    (hown : match st.evmPlan cfg.backend cfg.operatorAddress with
        | some plan => plan.id = operatorPlan.id
        | none => st.plan cfg.backend operatorPlan.id = none)
    (hcaller : st.findPlan cfg.backend evmAddress ipAddress = some callerPlan) :
    callerPlan.id ≠ operatorPlan.id := by
  cases hop : st.evmPlan cfg.backend cfg.operatorAddress with
  | some plan =>
    rw [hop] at hown
    have hne := hapart plan callerPlan hop hcaller
    exact fun heq => hne (heq ▸ hown)
  | none =>
    rw [hop] at hown
    intro heq
    have hactive := (hwf.findPlan_id hcaller).2
    rw [heq, LimiterState.activePlan, hown] at hactive
    simp at hactive

theorem callerStep_ne {callerPlan : DetailedHbarSpendingPlan} (hwf : WellFormed cfg.backend st)
    (haddress : evmAddress = "" ∨ ¬ SameAddress evmAddress cfg.operatorAddress)
    (hapart : ∀ o c, st.evmPlan cfg.backend cfg.operatorAddress = some o →
      st.findPlan cfg.backend evmAddress ipAddress = some c → o.id ≠ c.id)
    (hoperator : PlanStep cfg.backend st cfg.operatorAddress ipAddress .operator operatorPlan st₁)
    (hown : match st.evmPlan cfg.backend cfg.operatorAddress with
        | some plan => plan.id = operatorPlan.id
        | none => st.plan cfg.backend operatorPlan.id = none)
    (hcharge : Charged cfg.backend st₁ operatorPlan.id cost st₂)
    (hcaller : PlanStep cfg.backend st₂ evmAddress ipAddress .basic callerPlan st₃) :
    callerPlan.id ≠ operatorPlan.id := by
  have hwf₁ := hoperator.wellFormed hwf
  have hactive := (hwf₁.findPlan_id (hoperator.found hwf)).2
  have hmap := hcharge.findPlan_map evmAddress ipAddress
  rw [hoperator.findPlan_of_ne hwf haddress] at hmap
  rcases hcaller with ⟨hfound, rfl⟩ | ⟨_, _, rfl, _⟩
  · rw [hfound, Option.map_some] at hmap
    obtain ⟨plan, hplan, heq⟩ := Option.map_eq_some_iff.mp hmap.symm
    have hplanId : plan.id = callerPlan.id := congrArg HbarSpendingPlan.id heq
    exact hplanId ▸ callerPlan_ne hwf hapart hown hplan
  · have hwf₂ := hcharge.wellFormed hwf₁ hactive
    exact (hwf₂.known (hcharge.activePlan_eq _ ▸ hactive) (Nat.le_refl _)).symm

private theorem callerStep_plan {callerPlan : DetailedHbarSpendingPlan} {cost' : ℕ}
    (hwf : WellFormed cfg.backend st)
    (haddress : evmAddress = "" ∨ ¬ SameAddress evmAddress cfg.operatorAddress)
    (hoperator : PlanStep cfg.backend st cfg.operatorAddress ipAddress .operator operatorPlan st₁)
    (hcharge : Charged cfg.backend st₁ operatorPlan.id cost st₂)
    (hcaller : PlanStep cfg.backend st₂ evmAddress ipAddress .basic callerPlan st₃)
    (hcharge' : Charged cfg.backend st₃ callerPlan.id cost' st₄) :
    CallerPlan cfg.backend st st₄ evmAddress ipAddress (some callerPlan.id) := by
  have hwf₁ := hoperator.wellFormed hwf
  have hwf₂ := hcharge.wellFormed hwf₁ (hwf₁.findPlan_id (hoperator.found hwf)).2
  have hmap := hcharge.findPlan_map evmAddress ipAddress
  rw [hoperator.findPlan_of_ne hwf haddress] at hmap
  rcases hcaller with ⟨hfound, rfl⟩ | ⟨hnone, hevm, rfl, hnew⟩
  · rw [hfound, Option.map_some] at hmap
    obtain ⟨plan, hplan, heq⟩ := Option.map_eq_some_iff.mp hmap.symm
    have hplanId : plan.id = callerPlan.id := congrArg HbarSpendingPlan.id heq
    rw [CallerPlan, hplan, ← hplanId]
  · have hfresh : st.nextPlanId ≤ st₂.nextPlanId :=
      hcharge.nextPlanId ▸ hoperator.nextPlanId_le
    obtain ⟨plan, hplan, heq⟩ := hcharge'.evmPlan_some (hnew.evmPlan_self hwf₂ hevm)
    rw [hnone, Option.map_none, eq_comm, Option.map_eq_none_iff] at hmap
    rw [CallerPlan, hmap]
    simp only [hevm, if_false]
    exact ⟨plan, hplan, congrArg HbarSpendingPlan.subscriptionTier heq,
      congrArg HbarSpendingPlan.id heq ▸ hwf.freshPlan _ hfresh,
      congrArg some (congrArg HbarSpendingPlan.id heq.symm)⟩

end OperatorStep

/-- The steps of an expense that does not meet the defect. -/
theorem attributed_of_apart (hwf : WellFormed cfg.backend st)
    (haddress : evmAddress = "" ∨ ¬ SameAddress evmAddress cfg.operatorAddress)
    (henabled : isEnabled cfg)
    (hfallback : (st.evmPlan cfg.backend cfg.operatorAddress).isSome ∨
      st.ipPlan cfg.backend ipAddress = none)
    (hapart : ∀ o c, st.evmPlan cfg.backend cfg.operatorAddress = some o →
      st.findPlan cfg.backend evmAddress ipAddress = some c → o.id ≠ c.id) :
    Attributed cfg st (runAlone cfg.backend (addExpense cfg cost evmAddress ipAddress) st).2 cost
      evmAddress ipAddress := by
  obtain ⟨operatorPlan, st₁, st₂, hoperator, hcharge, hrest⟩ :=
    runAlone_addExpense hwf henabled cost evmAddress ipAddress
  have hwf₁ := hoperator.wellFormed hwf
  have hactive := (hwf₁.findPlan_id (hoperator.found hwf)).2
  have hwf₂ := hcharge.wellFormed hwf₁ hactive
  obtain ⟨hown₁, hown⟩ := operatorStep_own hwf hfallback hoperator
  obtain ⟨own₂, hown₂, hid₂⟩ := hcharge.evmPlan_some hown₁
  have hid : own₂.id = operatorPlan.id := congrArg HbarSpendingPlan.id hid₂
  have hspent : ∀ id, id ≠ operatorPlan.id →
      st₂.spent cfg.backend id = st.spent cfg.backend id := fun id hne => by
    rw [hcharge.spent_of_ne hne, hoperator.spent_eq]
  have hspentOwn : st₂.spent cfg.backend operatorPlan.id =
      st.spent cfg.backend operatorPlan.id + cost := by
    rw [hcharge.spent, hoperator.spent_eq]
  have hmap := hcharge.findPlan_map evmAddress ipAddress
  rw [hoperator.findPlan_of_ne hwf haddress] at hmap
  rcases hrest with ⟨hnone, hevm, hrun⟩ | ⟨callerPlan, st₃, st₄, hcaller, hcharge', hrun⟩
  · rw [hrun]
    rw [← hid] at hown hspent hspentOwn
    refine ⟨own₂, none, hown₂, hown, ?_, hspentOwn, by simp, fun id hne _ => hspent id hne⟩
    have hnone' : st.findPlan cfg.backend evmAddress ipAddress = none := by
      rwa [hnone, Option.map_none, eq_comm, Option.map_eq_none_iff] at hmap
    rw [CallerPlan, hnone']
    simp [hevm]
  · rw [hrun]
    have hne := callerStep_ne hwf haddress hapart hoperator hown hcharge hcaller
    rw [← hid] at hown hspent hspentOwn hne
    have hown₃ := hcaller.evmPlan_of_ne hwf₂ haddress
    rw [hown₂] at hown₃
    obtain ⟨own₄, hown₄, hid₄⟩ := hcharge'.evmPlan_some hown₃
    have hid₄ : own₄.id = own₂.id := congrArg HbarSpendingPlan.id hid₄
    have hcallerPlan := callerStep_plan hwf haddress hoperator hcharge hcaller hcharge'
    refine ⟨own₄, some callerPlan.id, hown₄, hid₄ ▸ hown, hcallerPlan, ?_, ?_, ?_⟩
    · rw [hid₄, hcharge'.spent_of_ne hne.symm, hcaller.spent_eq, hspentOwn]
    · rintro id hcallerId
      obtain rfl := Option.some.inj hcallerId
      rw [hcharge'.spent, hcaller.spent_eq, hspent _ hne]
    · intro id hown hother
      rw [hid₄] at hown
      rw [hcharge'.spent_of_ne fun heq => hother (by rw [heq]), hcaller.spent_eq, hspent id hown]

/-- Where the request's IP address has a plan and the operator has none, the IP plan is charged
in its place. -/
theorem operator_unplanned (cost : ℕ) (evmAddress : String) (hwf : WellFormed cfg.backend st) (henabled : isEnabled cfg)
    (hop : st.evmPlan cfg.backend cfg.operatorAddress = none)
    (hip : (st.ipPlan cfg.backend ipAddress).isSome) :
    (runAlone cfg.backend (addExpense cfg cost evmAddress ipAddress) st).2.evmPlan cfg.backend
      cfg.operatorAddress = none := by
  obtain ⟨operatorPlan, st₁, st₂, hoperator, hcharge, hrest⟩ :=
    runAlone_addExpense hwf henabled cost evmAddress ipAddress
  obtain ⟨plan, hplan⟩ := Option.isSome_iff_exists.mp hip
  rcases hoperator with ⟨_, rfl⟩ | ⟨hnone, _⟩
  · have hop₂ := hcharge.evmPlan_none hop
    rcases hrest with ⟨_, _, hrun⟩ | ⟨callerPlan, st₃, st₄, hcaller, hcharge', hrun⟩
    · rw [hrun]
      exact hop₂
    · rcases hcaller with ⟨_, rfl⟩ | ⟨hnone, _⟩
      · rw [hrun]
        exact hcharge'.evmPlan_none hop₂
      · have hmap := hcharge.ipPlan_map ipAddress
        rw [(Option.or_eq_none_iff.mp hnone).2, hplan] at hmap
        simp at hmap
  · rw [LimiterState.findPlan, hop, hplan] at hnone
    simp at hnone

private theorem operator_charged_twice (cost : ℕ) (hwf : WellFormed cfg.backend st)
    (henabled : isEnabled cfg) {operatorPlan callerPlan : DetailedHbarSpendingPlan}
    (hop : st.evmPlan cfg.backend cfg.operatorAddress = some operatorPlan)
    (hcaller : st.findPlan cfg.backend evmAddress ipAddress = some callerPlan)
    (hid : operatorPlan.id = callerPlan.id) :
    (runAlone cfg.backend (addExpense cfg cost evmAddress ipAddress) st).2.spent cfg.backend
      operatorPlan.id = st.spent cfg.backend operatorPlan.id + cost + cost := by
  obtain ⟨plan, st₁, st₂, hoperator, hcharge, hrest⟩ :=
    runAlone_addExpense hwf henabled cost evmAddress ipAddress
  rcases hoperator with ⟨hfound, rfl⟩ | ⟨hnone, _⟩
  · rw [LimiterState.findPlan, hop, Option.some_or, Option.some.injEq] at hfound
    subst hfound
    obtain ⟨caller₂, hcaller₂, hid₂⟩ := hcharge.findPlan_isSome hcaller
    have hid₂ : caller₂.id = callerPlan.id := congrArg HbarSpendingPlan.id hid₂
    rcases hrest with ⟨hnone, _⟩ | ⟨plan', st₃, st₄, hstep, hcharge', hrun⟩
    · rw [hcaller₂] at hnone
      cases hnone
    · rcases hstep with ⟨hfound', rfl⟩ | ⟨hnone, _⟩
      · obtain rfl : caller₂ = plan' := Option.some.inj (hcaller₂.symm.trans hfound')
        rw [hrun, hid, ← hid₂, hcharge'.spent, hid₂, ← hid, hcharge.spent]
      · rw [hcaller₂] at hnone
        cases hnone
  · rw [LimiterState.findPlan, hop, Option.some_or] at hnone
    cases hnone

/-- An expense is attributed as it should be exactly when the limiter is enabled, the operator
has a plan or the request's IP address has none, and the caller's plan is not the
operator's. -/
theorem addExpense_attributed_iff (hwf : WellFormed cfg.backend st) (hcost : 0 < cost)
    (haddress : evmAddress = "" ∨ ¬ SameAddress evmAddress cfg.operatorAddress) :
    Attributed cfg st (runAlone cfg.backend (addExpense cfg cost evmAddress ipAddress) st).2 cost
        evmAddress ipAddress ↔
      isEnabled cfg ∧
      ((st.evmPlan cfg.backend cfg.operatorAddress).isSome ∨
        st.ipPlan cfg.backend ipAddress = none) ∧
      ∀ o c, st.evmPlan cfg.backend cfg.operatorAddress = some o →
        st.findPlan cfg.backend evmAddress ipAddress = some c → o.id ≠ c.id := by
  constructor
  · intro hattributed
    have henabled : isEnabled cfg = true := by
      by_contra hdisabled
      rw [addExpense_disabled (by simpa using hdisabled)] at hattributed
      obtain ⟨own, _, _, _, _, hspent, _⟩ := hattributed
      omega
    obtain ⟨own, callerPlan, hown, hkept, _, hspent, _⟩ := hattributed
    refine ⟨henabled, ?_, ?_⟩
    · by_contra hfallback
      rw [not_or, Option.not_isSome_iff_eq_none] at hfallback
      have hnone := operator_unplanned cost evmAddress hwf henabled
        hfallback.1 (Option.isSome_iff_ne_none.mpr hfallback.2)
      rw [hown] at hnone
      cases hnone
    · intro o c hop hcaller hid
      rw [hop] at hkept
      have htwice := operator_charged_twice cost hwf henabled hop hcaller hid
      rw [hkept, hspent] at htwice
      omega
  · rintro ⟨henabled, hfallback, hapart⟩
    exact attributed_of_apart hwf haddress henabled hfallback hapart

/-- A limiter over Redis with a window of one day. -/
def dailyConfig (backend : CacheBackend) : LimiterConfig where
  backend := backend
  limitDuration := 86400000
  limitDuration_pos := by decide
  operatorAddress := "0x0000000000000000000000000000000000000002"
  operatorAddress_ne := by decide
  tierLimits := fun _ => 1000

/-- The configuration has given a plan to one IP address, and nobody has spent anything yet. -/
def partnerState : LimiterState :=
  ((LimiterState.empty 0 86400000).set (.hbarSpendingPlan (.configured "partner"))
    ⟨.configured "partner", .privileged, 0, true⟩ (-1)).set
      (.ipAddressHbarSpendingPlan "10.0.0.1") ⟨"10.0.0.1", .configured "partner"⟩ (-1)

theorem partnerState_wellFormed : WellFormed b partnerState :=
  ((WellFormed.empty 0 86400000).set_configured rfl (-1)).set_ipLink (-1)

theorem addExpense_attributed_iff_partner :
    Attributed (dailyConfig .redisCache) partnerState
        (runAlone .redisCache (addExpense (dailyConfig .redisCache) 5 "0xab" "10.0.0.2")
          partnerState).2 5 "0xab" "10.0.0.2" := by
  refine (addExpense_attributed_iff partnerState_wellFormed (by decide)
    (Or.inr ?_)).mpr ⟨rfl, Or.inr rfl, ?_⟩
  · unfold SameAddress
    decide
  · intro o c hop
    cases hop

/-- The first expense of a request whose IP address has a plan is charged to that plan instead
of the operator's. -/
theorem ip_plan_charged_for_operator :
    ∃ (cfg : LimiterConfig) (st : LimiterState) (cost : ℕ) (evmAddress ipAddress : String),
      WellFormed cfg.backend st ∧ 0 < cost ∧ ¬ SameAddress evmAddress cfg.operatorAddress ∧
      ¬ Attributed cfg st
        (runAlone cfg.backend (addExpense cfg cost evmAddress ipAddress) st).2 cost
        evmAddress ipAddress := by
  refine ⟨dailyConfig .redisCache, partnerState, 5, "0xab", "10.0.0.1", partnerState_wellFormed,
    by decide, by unfold SameAddress; decide, ?_⟩
  rintro ⟨own, _, hown, _⟩
  have hip : (partnerState.ipPlan .redisCache "10.0.0.1").isSome := rfl
  have hnone := @operator_unplanned (dailyConfig .redisCache) _ _ 5 "0xab"
    partnerState_wellFormed rfl rfl hip
  exact Option.some_ne_none own (hown.symm.trans hnone)

end JsonRpcRelay.HbarLimiter

import JsonRpcRelay.HbarLimiter.Budget

/-!
# Who is limited

`shouldLimit` decides by the remaining budget of the operator and then by the plan of the caller.
The decision is worked out here as a function of the state before the call.
-/

namespace JsonRpcRelay.HbarLimiter

open Framework

variable {b : CacheBackend} {cfg : LimiterConfig} {st s s' : LimiterState}
  {evmAddress ipAddress : String} {fee : ℕ}

/-- The tier of a plan and its `amountSpent`. -/
def DetailedHbarSpendingPlan.tierSpent (plan : DetailedHbarSpendingPlan) : SubscriptionTier × ℕ :=
  (plan.subscriptionTier, plan.amountSpent)

section Rule

variable (cfg) (st) (evmAddress ipAddress : String) (fee : ℕ)

/-- What counts of a plan: a reset that is due comes first and leaves nothing spent. -/
def LimiterState.counted (plan : DetailedHbarSpendingPlan) : SubscriptionTier × ℕ :=
  (plan.subscriptionTier, if st.reset ≤ st.now then 0 else plan.amountSpent)

/-- The budget less the amount is used up, or the fee is beyond it. -/
def exceedsBudget (amountSpent : ℕ) : Bool :=
  totalBudget cfg - amountSpent ≤ 0 ∨ totalBudget cfg - amountSpent < fee

/-- The amount has reached the limit of the tier, or would exceed it with the fee. -/
def exceedsLimit (plan : SubscriptionTier × ℕ) : Bool :=
  cfg.tierLimits plan.1 ≤ plan.2 ∨ cfg.tierLimits plan.1 < plan.2 + fee

def isOperatorAddress : Prop := evmAddress ≠ "" ∧ SameAddress evmAddress cfg.operatorAddress

instance : Decidable (isOperatorAddress cfg evmAddress) :=
  inferInstanceAs (Decidable (_ ∧ toLowerCase _ = toLowerCase _))

def operatorPlan : Option (SubscriptionTier × ℕ) :=
  (st.evmPlan cfg.backend cfg.operatorAddress).map st.counted

def addressPlan : Option (SubscriptionTier × ℕ) :=
  (st.evmPlan cfg.backend evmAddress).map st.counted

def ipAddressPlan : Option (SubscriptionTier × ℕ) :=
  (st.ipPlan cfg.backend ipAddress).map st.counted

/-- The plan of the EVM address, else of the IP address, else a new one: for the operator, the one
that the test of the budget has created. -/
def applicablePlan : SubscriptionTier × ℕ :=
  ((addressPlan cfg st evmAddress).or (ipAddressPlan cfg st ipAddress)).getD
    (if isOperatorAddress cfg evmAddress then .operator else .basic, 0)

/-- The documented rule: the remaining budget of the operator, then the plan of the caller. -/
def limitRule : Bool :=
  exceedsBudget cfg fee ((operatorPlan cfg st).elim 0 (·.2)) ∨
    exceedsLimit cfg fee (applicablePlan cfg st evmAddress ipAddress)

/-- The plan whose amount counts as spent of the budget: the plan of the IP address stands in for
a missing one of the operator. -/
def budgetPlan : Option (SubscriptionTier × ℕ) :=
  (operatorPlan cfg st).or (ipAddressPlan cfg st ipAddress)

/-- The plan of the caller that is found, where that of the operator has just been created if there
is none to stand in for it. -/
def foundPlan : Option (SubscriptionTier × ℕ) :=
  (addressPlan cfg st evmAddress).or
    (if isOperatorAddress cfg evmAddress ∧ ipAddressPlan cfg st ipAddress = none then
      some (.operator, 0)
    else ipAddressPlan cfg st ipAddress)

/-- What `shouldLimit` decides by the plan of the caller. -/
def planDecision : Except HbarLimiterError Bool :=
  if evmAddress = "" ∧ ipAddress = "" then .ok false
  else if foundPlan cfg st evmAddress ipAddress = none ∧ evmAddress = "" then .error .noEvmAddress
  else .ok (exceedsLimit cfg fee ((foundPlan cfg st evmAddress ipAddress).getD (.basic, 0)))

/-- What `shouldLimit` decides. -/
def decision : Except HbarLimiterError Bool :=
  if isEnabled cfg = false then .ok false
  else if exceedsBudget cfg fee ((budgetPlan cfg st ipAddress).elim 0 (·.2)) then .ok true
  else planDecision cfg st evmAddress ipAddress fee

end Rule

section Runs

/-- Nothing but the amounts has changed, as far as they do not count any more. -/
structure Refreshed (b : CacheBackend) (st s : LimiterState) : Prop where
  wellFormed : WellFormed b s
  spent : ∀ id, s.spent b id = if st.reset ≤ st.now then 0 else st.spent b id
  evmPlan : ∀ a, (s.evmPlan b a).map (·.tierSpent) = (st.evmPlan b a).map st.counted
  ipPlan : ∀ a, (s.ipPlan b a).map (·.tierSpent) = (st.ipPlan b a).map st.counted
  now : s.now = st.now
  reset : s.reset = st.reset

private theorem counted_of_not_due (hdue : ¬st.reset ≤ st.now) :
    st.counted = DetailedHbarSpendingPlan.tierSpent := by
  funext plan
  simp [LimiterState.counted, DetailedHbarSpendingPlan.tierSpent, hdue]

theorem Refreshed.refl (hwf : WellFormed b st) (hdue : ¬st.reset ≤ st.now) : Refreshed b st st where
  wellFormed := hwf
  spent id := by rw [if_neg hdue]
  evmPlan a := by rw [counted_of_not_due hdue]
  ipPlan a := by rw [counted_of_not_due hdue]
  now := rfl
  reset := rfl

theorem SpentReset.detailed_map (h : SpentReset b st s) (hdue : st.reset ≤ st.now) (id : PlanId) :
    (s.detailed b id).map (·.tierSpent) = (st.detailed b id).map st.counted := by
  have hplan : s.activePlan b id = st.activePlan b id := by
    rw [LimiterState.activePlan, LimiterState.plan, h.other _ (by simp)]
    rfl
  simp [LimiterState.detailed, hplan, h.spent, DetailedHbarSpendingPlan.tierSpent,
    LimiterState.counted, hdue, Function.comp_def]

theorem SpentReset.refreshed (h : SpentReset b st s) (hwf : WellFormed b st)
    (hdue : st.reset ≤ st.now) : Refreshed b st s where
  wellFormed := h.wellFormed hwf
  spent id := by rw [if_pos hdue, h.spent id]
  evmPlan a := by
    have hlink : s.evmLink b a = st.evmLink b a := h.other _ (by simp)
    simp only [LimiterState.evmPlan, hlink]
    split
    · rfl
    · simp only [Option.map_bind, Function.comp_def, h.detailed_map hdue]
  ipPlan a := by
    have hlink : s.ipLink b a = st.ipLink b a := h.other _ (by simp)
    simp only [LimiterState.ipPlan, hlink]
    split
    · rfl
    · simp only [Option.map_bind, Function.comp_def, h.detailed_map hdue]
  now := h.now
  reset := h.reset

theorem runAlone_isTotalBudgetExceeded_refreshed (fee : ℕ) (ipAddress : String)
    (hwf : WellFormed b st) :
    ∃ s plan s', Refreshed b st s ∧
      PlanStep b s cfg.operatorAddress ipAddress .operator plan s' ∧
      runAlone b (isTotalBudgetExceeded cfg fee ipAddress) st =
        (.ok (exceedsBudget cfg fee plan.amountSpent),
          { s' with
            reset := if st.reset ≤ st.now then getResetTimestamp cfg st.reset st.now
              else st.reset }) := by
  have hfee (amountSpent : ℕ) : (decide (totalBudget cfg - amountSpent ≤ 0) ||
      decide (totalBudget cfg - amountSpent - fee < 0)) = exceedsBudget cfg fee amountSpent := by
    rw [exceedsBudget, ← Bool.decide_or]
    congr 1
    simp only [eq_iff_iff]
    omega
  by_cases hdue : st.reset ≤ st.now
  · obtain ⟨s, hrun, hreset⟩ := runAlone_resetAmountSpentOfAllPlans b st
    obtain ⟨plan, s', hstep, hplan⟩ := runAlone_getOperatorSpendingPlan b cfg s ipAddress
    have hs := hreset.refreshed hwf hdue
    refine ⟨s, plan, s', hs, hstep, ?_⟩
    have hlimiter : runAlone b (resetLimiter cfg ipAddress) st =
        (.ok (), { s' with reset := getResetTimestamp cfg st.reset st.now }) := by
      rw [resetLimiter, runAlone_bind_ok hrun, runAlone_bind_ok (runAlone_getRemainingBudget hplan),
        ← hs.now, ← hs.reset, ← hstep.frame.1, ← hstep.frame.2]
      rfl
    have hfound : ({ s' with reset := getResetTimestamp cfg st.reset st.now } :
        LimiterState).findPlan b cfg.operatorAddress ipAddress = some plan := hstep.found hs.wellFormed
    have hshould : runAlone b shouldResetLimiter st = (.ok true, st) := by
      rw [← decide_eq_true hdue]
      rfl
    rw [isTotalBudgetExceeded, runAlone_bind_ok hshould]
    simp only [if_true, if_pos hdue]
    rw [runAlone_bind_ok hlimiter, runAlone_bind_ok (runAlone_getRemainingBudget_found hfound),
      ← hfee]
    rfl
  · obtain ⟨plan, s', hstep, hplan⟩ := runAlone_getOperatorSpendingPlan b cfg st ipAddress
    have hshould : runAlone b shouldResetLimiter st = (.ok false, st) := by
      rw [← decide_eq_false hdue]
      rfl
    refine ⟨st, plan, s', Refreshed.refl hwf hdue, hstep, ?_⟩
    rw [isTotalBudgetExceeded, runAlone_bind_ok hshould]
    simp only [Bool.false_eq_true, if_false, if_neg hdue]
    rw [runAlone_bind_ok (runAlone_getRemainingBudget hplan), ← hfee, ← hstep.frame.2]
    rfl

theorem findPlan_map (f : DetailedHbarSpendingPlan → SubscriptionTier × ℕ) :
    (s.findPlan b evmAddress ipAddress).map f =
      ((s.evmPlan b evmAddress).map f).or ((s.ipPlan b ipAddress).map f) := by
  rw [LimiterState.findPlan, Option.map_or]

private theorem Refreshed.budgetPlan_eq (h : Refreshed cfg.backend st s)
    {plan : DetailedHbarSpendingPlan}
    (hstep : PlanStep cfg.backend s cfg.operatorAddress ipAddress .operator plan s') :
    plan.amountSpent = (budgetPlan cfg st ipAddress).elim 0 (·.2) := by
  have hfind : (s.findPlan cfg.backend cfg.operatorAddress ipAddress).map (·.tierSpent) =
      budgetPlan cfg st ipAddress := by
    rw [findPlan_map, h.evmPlan, h.ipPlan]
    rfl
  rw [← hfind]
  rcases hstep with ⟨hfound, _⟩ | ⟨hnone, _, hplan, _⟩
  · rw [hfound]
    rfl
  · rw [hnone, hplan]
    rfl

private theorem Refreshed.foundPlan_eq (h : Refreshed cfg.backend st s)
    {plan : DetailedHbarSpendingPlan}
    (hstep : PlanStep cfg.backend s cfg.operatorAddress ipAddress .operator plan s') :
    (s'.findPlan cfg.backend evmAddress ipAddress).map (·.tierSpent) =
      foundPlan cfg st evmAddress ipAddress := by
  have hown (hoperator : isOperatorAddress cfg evmAddress) :
      s.evmPlan cfg.backend evmAddress = s.evmPlan cfg.backend cfg.operatorAddress :=
    evmPlan_of_same hoperator.2 hoperator.1 cfg.operatorAddress_ne
  have hevm := h.evmPlan evmAddress
  have hip := h.ipPlan ipAddress
  rw [findPlan_map]
  rcases hstep with ⟨hfound, rfl⟩ | ⟨hnone, hne, hplan, hnew⟩
  · rw [hevm, hip, foundPlan, addressPlan, ipAddressPlan]
    by_cases hcreated : isOperatorAddress cfg evmAddress ∧
        (st.ipPlan cfg.backend ipAddress).map st.counted = none
    · -- The plan that was found is the operator's own one.
      have hnone : s'.ipPlan cfg.backend ipAddress = none := by
        rw [← Option.map_eq_none_iff, hip]
        exact hcreated.2
      rw [LimiterState.findPlan, hnone, Option.or_none, ← hown hcreated.1] at hfound
      rw [hfound, Option.map_some] at hevm
      rw [← hevm, Option.some_or, Option.some_or]
    · rw [if_neg hcreated]
  · obtain ⟨hoperatorNone, hipNone⟩ := Option.or_eq_none_iff.mp hnone
    have hip' : s'.ipPlan cfg.backend ipAddress = none := by
      rw [hnew.ipPlan_eq h.wellFormed, hipNone]
    rw [hipNone, Option.map_none] at hip
    rw [hip', foundPlan, addressPlan, ipAddressPlan, ← hip]
    by_cases hoperator : isOperatorAddress cfg evmAddress
    · have hself := hnew.evmPlan_self h.wellFormed hne
      rw [← evmPlan_of_same hoperator.2 hoperator.1 hne] at hself
      rw [hown hoperator, hoperatorNone, Option.map_none] at hevm
      rw [hself, ← hevm, if_pos ⟨hoperator, rfl⟩, hplan]
      rfl
    · have hother : s'.evmPlan cfg.backend evmAddress = s.evmPlan cfg.backend evmAddress := by
        by_cases hempty : evmAddress = ""
        · simp [LimiterState.evmPlan, hempty]
        · exact hnew.evmPlan_of_ne h.wellFormed fun hsame => hoperator ⟨hempty, hsame⟩
      rw [hother, hevm, if_neg fun hcreated => hoperator hcreated.1, Option.map_none]

private theorem exceedsLimit_tierSpent (plan : DetailedHbarSpendingPlan) :
    exceedsLimit cfg fee plan.tierSpent =
      (decide (cfg.tierLimits plan.subscriptionTier ≤ plan.amountSpent) ||
        decide (cfg.tierLimits plan.subscriptionTier < plan.amountSpent + fee)) := by
  rw [exceedsLimit, ← Bool.decide_or]
  rfl

private theorem runAlone_shouldLimit (evmAddress ipAddress : String) (fee : ℕ)
    (hwf : WellFormed cfg.backend st) :
    (runAlone cfg.backend (shouldLimit cfg evmAddress ipAddress fee) st).1 =
      decision cfg st evmAddress ipAddress fee := by
  rw [shouldLimit, decision]
  cases henabled : isEnabled cfg with
  | false => rfl
  | true =>
    obtain ⟨s, plan, s', hs, hstep, hrun⟩ :=
      @runAlone_isTotalBudgetExceeded_refreshed cfg.backend cfg st fee ipAddress hwf
    rw [hs.budgetPlan_eq hstep] at hrun
    simp only [Bool.not_true, Bool.false_eq_true, if_false, Bool.true_eq_false]
    rw [runAlone_bind_ok hrun]
    cases hexceeds : exceedsBudget cfg fee ((budgetPlan cfg st ipAddress).elim 0 (·.2)) with
    | true => rfl
    | false =>
      simp only [Bool.false_eq_true, if_false, planDecision]
      by_cases hanyone : evmAddress = "" ∧ ipAddress = ""
      · rw [if_pos hanyone, if_pos hanyone]
        rfl
      · rw [if_neg hanyone, if_neg hanyone, runAlone_bind_ok (runAlone_getSpendingPlan _ _)]
        have hfound : (s'.findPlan cfg.backend evmAddress ipAddress).map (·.tierSpent) =
            foundPlan cfg st evmAddress ipAddress := hs.foundPlan_eq hstep
        rw [← hfound]
        have hlookup (reset : ℕ) : ({ s' with reset := reset } : LimiterState).findPlan cfg.backend
            evmAddress ipAddress = s'.findPlan cfg.backend evmAddress ipAddress := rfl
        rw [hlookup]
        cases s'.findPlan cfg.backend evmAddress ipAddress with
        | some plan =>
          simp only [Option.map_some, reduceCtorEq, false_and, if_false, Option.getD_some,
            exceedsLimit_tierSpent]
          rfl
        | none =>
          by_cases hevm : evmAddress = ""
          · subst hevm
            rfl
          · simp only [Option.map_none, hevm, and_false, if_false, Option.getD_none]
            rw [runAlone_bind_ok (runAlone_createSpendingPlanForAddress hevm .basic)]
            exact congrArg Except.ok (exceedsLimit_tierSpent ⟨_, 0⟩).symm

end Runs

section Decisions

private theorem exceedsBudget_mono {m n : ℕ} (hmn : m ≤ n) (h : exceedsBudget cfg fee m = true) :
    exceedsBudget cfg fee n = true := by
  simp only [exceedsBudget, decide_eq_true_eq] at h ⊢
  omega

private theorem exceedsBudget_of_disabled (h : isEnabled cfg = false) (n : ℕ) :
    exceedsBudget cfg fee n = true := by
  simp only [isEnabled, decide_eq_false_iff_not] at h
  simp only [exceedsBudget, decide_eq_true_eq]
  omega

private theorem addressPlan_empty : addressPlan cfg st "" = none :=
  by simp [addressPlan, LimiterState.evmPlan]

private theorem ipAddressPlan_empty : ipAddressPlan cfg st "" = none := by
  simp [ipAddressPlan, LimiterState.ipPlan]

private theorem not_isOperatorAddress_empty : ¬isOperatorAddress cfg "" := fun h => h.1 rfl

private theorem foundPlan_getD : (foundPlan cfg st evmAddress ipAddress).getD (.basic, 0) =
    applicablePlan cfg st evmAddress ipAddress := by
  rw [foundPlan, applicablePlan]
  cases addressPlan cfg st evmAddress with
  | some plan => rfl
  | none =>
    cases ipAddressPlan cfg st ipAddress with
    | some plan => simp
    | none =>
      by_cases hoperator : isOperatorAddress cfg evmAddress
      · simp [hoperator]
      · simp [hoperator]

private theorem limitRule_eq : limitRule cfg st evmAddress ipAddress fee =
    (exceedsBudget cfg fee ((operatorPlan cfg st).elim 0 (·.2)) ||
      exceedsLimit cfg fee (applicablePlan cfg st evmAddress ipAddress)) := by
  simp [limitRule, Bool.decide_or]

/-- The rule is followed: the limiter is enabled, a caller without an EVM address is known by its
IP address, and a plan that stands in for that of the operator makes no difference. -/
structure FollowsRule (cfg : LimiterConfig) (st : LimiterState) (evmAddress ipAddress : String)
    (fee : ℕ) : Prop where
  enabled : isEnabled cfg = true
  known : evmAddress = "" → ipAddressPlan cfg st ipAddress = none →
    exceedsBudget cfg fee ((operatorPlan cfg st).elim 0 (·.2)) = true ∨
      ipAddress = "" ∧ exceedsLimit cfg fee (.basic, 0) = false
  standIn : operatorPlan cfg st = none → ∀ plan ∈ ipAddressPlan cfg st ipAddress,
    exceedsBudget cfg fee plan.2 = true →
      exceedsBudget cfg fee 0 = true ∨
        exceedsLimit cfg fee (applicablePlan cfg st evmAddress ipAddress) = true

/-- The plan of the caller decides, except that somebody unknown is refused a decision. -/
theorem planDecision_iff :
    planDecision cfg st evmAddress ipAddress fee =
        .ok (exceedsLimit cfg fee (applicablePlan cfg st evmAddress ipAddress)) ↔
      (evmAddress = "" → ipAddressPlan cfg st ipAddress = none →
        ipAddress = "" ∧ exceedsLimit cfg fee (.basic, 0) = false) := by
  rw [planDecision, foundPlan_getD]
  by_cases hevm : evmAddress = ""
  · subst hevm
    have hplan : foundPlan cfg st "" ipAddress = ipAddressPlan cfg st ipAddress := by
      rw [foundPlan, addressPlan_empty, Option.none_or,
        if_neg fun hcreated => not_isOperatorAddress_empty hcreated.1]
    have happlicable : applicablePlan cfg st "" ipAddress =
        (ipAddressPlan cfg st ipAddress).getD (.basic, 0) := by
      rw [applicablePlan, addressPlan_empty, Option.none_or, if_neg not_isOperatorAddress_empty]
    rw [hplan, happlicable]
    by_cases hip : ipAddress = ""
    · subst hip
      rw [ipAddressPlan_empty, Option.getD_none]
      cases exceedsLimit cfg fee (.basic, 0) with
      | false => simp
      | true => simp
    · cases ipAddressPlan cfg st ipAddress with
      | none => simp [hip]
      | some plan => simp [hip]
  · simp [hevm]

private theorem budgetPlan_exceeds
    (h : exceedsBudget cfg fee ((operatorPlan cfg st).elim 0 (·.2)) = true) :
    exceedsBudget cfg fee ((budgetPlan cfg st ipAddress).elim 0 (·.2)) = true := by
  rw [budgetPlan]
  cases hown : operatorPlan cfg st with
  | some plan =>
    rw [hown] at h
    exact h
  | none =>
    rw [hown] at h
    exact exceedsBudget_mono (Nat.zero_le _) h

private theorem exists_standIn
    (hown : exceedsBudget cfg fee ((operatorPlan cfg st).elim 0 (·.2)) = false)
    (hbudget : exceedsBudget cfg fee ((budgetPlan cfg st ipAddress).elim 0 (·.2)) = true) :
    operatorPlan cfg st = none ∧ ∃ plan, ipAddressPlan cfg st ipAddress = some plan ∧
      exceedsBudget cfg fee plan.2 = true := by
  have hne := fun hsame => Bool.false_ne_true ((hown.symm.trans hsame).trans hbudget)
  cases hoperator : operatorPlan cfg st with
  | some plan => exact absurd (by rw [budgetPlan, hoperator, Option.some_or]) hne
  | none =>
    refine ⟨rfl, ?_⟩
    cases hplan : ipAddressPlan cfg st ipAddress with
    | none => exact absurd (by rw [budgetPlan, hoperator, hplan, Option.none_or]) hne
    | some plan =>
      rw [budgetPlan, hoperator, hplan, Option.none_or, Option.elim_some] at hbudget
      exact ⟨plan, rfl, hbudget⟩

private theorem decision_iff (henabled : isEnabled cfg = true) :
    decision cfg st evmAddress ipAddress fee = .ok (limitRule cfg st evmAddress ipAddress fee) ↔
      FollowsRule cfg st evmAddress ipAddress fee := by
  rw [decision, limitRule_eq]
  simp only [henabled, Bool.true_eq_false, if_false]
  cases hown : exceedsBudget cfg fee ((operatorPlan cfg st).elim 0 (·.2)) with
  | true =>
    rw [if_pos (budgetPlan_exceeds hown), Bool.true_or]
    refine iff_of_true rfl ⟨henabled, fun _ _ => Or.inl hown, ?_⟩
    intro hnone plan _ _
    rw [hnone] at hown
    exact Or.inl hown
  | false =>
    rw [Bool.false_or]
    cases hbudget : exceedsBudget cfg fee ((budgetPlan cfg st ipAddress).elim 0 (·.2)) with
    | false =>
      simp only [Bool.false_eq_true, if_false, planDecision_iff]
      constructor
      · intro hknown
        refine ⟨henabled, fun hevm hnone => Or.inr (hknown hevm hnone), ?_⟩
        intro hnone plan hplan hexceeds
        rw [Option.mem_def] at hplan
        simp [budgetPlan, hnone, hplan, hexceeds] at hbudget
      · intro h hevm hnone
        have hcases := h.known hevm hnone
        rw [hown] at hcases
        exact hcases.resolve_left Bool.false_ne_true
    | true =>
      -- The plan of the IP address stands in.
      obtain ⟨hnone, plan, hplan, hexceeds⟩ := exists_standIn hown hbudget
      rw [hnone, Option.elim_none] at hown
      simp only [if_true, Except.ok.injEq]
      constructor
      · intro hlimits
        refine ⟨henabled, ?_, fun _ _ _ _ => Or.inr hlimits.symm⟩
        intro _ habsent
        rw [hplan] at habsent
        cases habsent
      · intro h
        have hlimits := h.standIn hnone plan hplan hexceeds
        rw [hown] at hlimits
        exact (hlimits.resolve_left Bool.false_ne_true).symm

/-- `shouldLimit` decides by the rule exactly if the limiter is enabled, the caller is known or the
budget exceeded, and no plan that stands in for that of the operator limits where the rule does
not. -/
theorem shouldLimit_rule_iff (evmAddress ipAddress : String) (fee : ℕ)
    (hwf : WellFormed cfg.backend st) :
    (runAlone cfg.backend (shouldLimit cfg evmAddress ipAddress fee) st).1 =
        .ok (limitRule cfg st evmAddress ipAddress fee) ↔
      FollowsRule cfg st evmAddress ipAddress fee := by
  rw [runAlone_shouldLimit evmAddress ipAddress fee hwf]
  cases henabled : isEnabled cfg with
  | false =>
    have hrule : limitRule cfg st evmAddress ipAddress fee = true := by
      rw [limitRule_eq, exceedsBudget_of_disabled henabled, Bool.true_or]
    have hnot : ¬FollowsRule cfg st evmAddress ipAddress fee := by
      intro h
      rw [h.enabled] at henabled
      cases henabled
    simp [decision, henabled, hrule, hnot]
  | true => exact decision_iff henabled

theorem shouldLimit_rule_iff_partner :
    (runAlone .redisCache (shouldLimit (dailyConfig .redisCache) "" "10.0.0.1" 7)
          partnerState).1 =
        .ok (limitRule (dailyConfig .redisCache) partnerState "" "10.0.0.1" 7) := by
  refine (@shouldLimit_rule_iff (dailyConfig .redisCache) _ "" "10.0.0.1" 7
    partnerState_wellFormed).mpr ⟨rfl, ?_, ?_⟩
  · intro _ hnone
    cases hnone
  · intro _ plan hplan hlimits
    cases hplan
    cases hlimits

/-- Without an EVM address and a plan of the IP address there is no decision. -/
theorem unknown_caller_not_decided :
    ∃ (cfg : LimiterConfig) (st : LimiterState) (ipAddress : String) (fee : ℕ),
      WellFormed cfg.backend st ∧ isEnabled cfg = true ∧
      limitRule cfg st "" ipAddress fee = false ∧
      (runAlone cfg.backend (shouldLimit cfg "" ipAddress fee) st).1 = .error .noEvmAddress := by
  have hwf : WellFormed .redisCache (LimiterState.empty 0 86400000) := .empty 0 86400000
  refine ⟨dailyConfig .redisCache, .empty 0 86400000, "10.0.0.3", 0, hwf, rfl, rfl, ?_⟩
  exact (@runAlone_shouldLimit (dailyConfig .redisCache) _ "" "10.0.0.3" 0 hwf).trans rfl

end Decisions

end JsonRpcRelay.HbarLimiter

import JsonRpcRelay.Framework.Schedule
import JsonRpcRelay.HbarLimiter.Attribution

/-!
# The budget of a window

The remaining budget is the total budget less the `amountSpent` of the operator's plan.  It
equals the total less what was spent since the last reset as long as the operator's entries
outlive the window; they do not have to, since their time to live starts when the plan is
first needed and not when the window begins.
-/

namespace JsonRpcRelay.HbarLimiter

open Framework

variable {b : CacheBackend} {cfg : LimiterConfig} {st st' : LimiterState}

/-- What is booked on the operator's own plan. -/
def ownSpent (b : CacheBackend) (cfg : LimiterConfig) (st : LimiterState) : ℕ :=
  match st.evmPlan b cfg.operatorAddress with
  | some plan => plan.amountSpent
  | none => 0

section Writes

private theorem ownSpent_of_none (h : st.evmPlan b cfg.operatorAddress = none) :
    ownSpent b cfg st = 0 := by
  simp [ownSpent, h]

/-- Looking up or creating a plan books nothing. -/
theorem PlanStep.ownSpent_eq {evmAddress ipAddress : String} {tier : SubscriptionTier}
    {plan : DetailedHbarSpendingPlan} (h : PlanStep b st evmAddress ipAddress tier plan st')
    (hwf : WellFormed b st) : ownSpent b cfg st' = ownSpent b cfg st := by
  rcases h with ⟨_, rfl⟩ | ⟨hnone, hevm, _, hnew⟩
  · rfl
  · by_cases hsame : SameAddress cfg.operatorAddress evmAddress
    · have hold : st.evmPlan b cfg.operatorAddress = none := by
        rw [evmPlan_of_same hsame cfg.operatorAddress_ne hevm]
        exact (Option.or_eq_none_iff.mp hnone).1
      rw [ownSpent_of_none hold, ownSpent, evmPlan_of_same hsame cfg.operatorAddress_ne hevm,
        hnew.evmPlan_self hwf hevm]
    · rw [ownSpent, hnew.evmPlan_of_ne hwf hsame, ownSpent]

private theorem Charged.ownSpent_eq {id : PlanId} {amount : ℕ} (h : Charged b st id amount st')
    (hwf : WellFormed b st) (hactive : (st.activePlan b id).isSome)
    {own : DetailedHbarSpendingPlan} (hown : st.evmPlan b cfg.operatorAddress = some own) :
    ownSpent b cfg st' = ownSpent b cfg st + if id = own.id then amount else 0 := by
  obtain ⟨own', hown', heq⟩ := h.evmPlan_some hown
  have hid : own'.id = own.id := congrArg HbarSpendingPlan.id heq
  have hspent := (hwf.evmPlan_id hown).1
  have hspent' := ((h.wellFormed hwf hactive).evmPlan_id hown').1
  simp only [ownSpent, hown, hown']
  rw [hspent', hspent, hid]
  by_cases hsame : id = own.id
  · rw [if_pos hsame, ← hsame, h.spent]
  · rw [if_neg hsame, h.spent_of_ne (Ne.symm hsame), Nat.add_zero]

end Writes

section Expense

private theorem addExpense_ownSpent {evmAddress ipAddress : String} (cost : ℕ)
    (hwf : WellFormed cfg.backend st) (henabled : isEnabled cfg)
    (haddress : evmAddress = "" ∨ ¬ SameAddress evmAddress cfg.operatorAddress)
    (hip : st.ipPlan cfg.backend ipAddress = none)
    (hapart : ∀ o c, st.evmPlan cfg.backend cfg.operatorAddress = some o →
      st.findPlan cfg.backend evmAddress ipAddress = some c → o.id ≠ c.id)
    (hst' : st' = (runAlone cfg.backend (addExpense cfg cost evmAddress ipAddress) st).2) :
    WellFormed cfg.backend st' ∧
      ownSpent cfg.backend cfg st' = ownSpent cfg.backend cfg st + cost := by
  obtain ⟨operatorPlan, st₁, st₂, hoperator, hcharge, hrest⟩ :=
    runAlone_addExpense hwf henabled cost evmAddress ipAddress
  have hwf₁ := hoperator.wellFormed hwf
  have hactive₁ := (hwf₁.findPlan_id (hoperator.found hwf)).2
  have hwf₂ := hcharge.wellFormed hwf₁ hactive₁
  obtain ⟨hown₁, hown⟩ := operatorStep_own hwf (Or.inr hip) hoperator
  have hbooked : ownSpent cfg.backend cfg st₂ = ownSpent cfg.backend cfg st + cost := by
    rw [hcharge.ownSpent_eq hwf₁ hactive₁ hown₁, if_pos rfl, hoperator.ownSpent_eq hwf]
  rcases hrest with ⟨_, _, hrun⟩ | ⟨callerPlan, st₃, st₄, hcaller, hcharge', hrun⟩
  · rw [hrun] at hst'
    exact hst' ▸ ⟨hwf₂, hbooked⟩
  · rw [hrun] at hst'
    subst hst'
    have hwf₃ := hcaller.wellFormed hwf₂
    have hactive₃ := (hwf₃.findPlan_id (hcaller.found hwf₂)).2
    obtain ⟨own₂, hown₂, heq₂⟩ := hcharge.evmPlan_some hown₁
    have hid₂ : own₂.id = operatorPlan.id := congrArg HbarSpendingPlan.id heq₂
    have hown₃ := (hcaller.evmPlan_of_ne hwf₂ haddress).trans hown₂
    have hne : callerPlan.id ≠ own₂.id :=
      hid₂ ▸ callerStep_ne hwf haddress hapart hoperator hown hcharge hcaller
    refine ⟨hcharge'.wellFormed hwf₃ hactive₃, ?_⟩
    rw [hcharge'.ownSpent_eq hwf₃ hactive₃ hown₃, if_neg hne, Nat.add_zero,
      hcaller.ownSpent_eq hwf₂, hbooked]

end Expense

section Reset

/-- All `amountSpent` entries are gone, and nothing else that can be read has changed. -/
structure SpentReset (b : CacheBackend) (st st' : LimiterState) : Prop where
  spent : ∀ id, st'.spent b id = 0
  other : ∀ key, (∀ id, key ≠ .amountSpent id) → st'.get b key = st.get b key
  now : st'.now = st.now
  nextPlanId : st'.nextPlanId = st.nextPlanId
  reset : st'.reset = st.reset

def deleteAll (keys : List CacheKey) (st : LimiterState) : LimiterState :=
  keys.foldl (fun st key => { st with cache := st.cache.delete key }) st

private theorem runAlone_deleteAll (keys : List CacheKey) :
    runAlone b (keys.forM fun key => do let _ ← request (.delete key)) st =
      (.ok (), deleteAll keys st) := by
  induction keys generalizing st with
  | nil => rfl
  | cons key keys ih =>
    exact (runAlone_bind _ _).trans ih

private theorem get_deleteAll (st : LimiterState) (keys : List CacheKey) (key : CacheKey) :
    (deleteAll keys st).get b key = if key ∈ keys then none else st.get b key := by
  induction keys generalizing st with
  | nil => simp [deleteAll]
  | cons first keys ih =>
    rw [deleteAll, List.foldl_cons]
    refine (ih { st with cache := st.cache.delete first }).trans ?_
    by_cases hkeys : key ∈ keys
    · simp [hkeys]
    · by_cases hfirst : key = first
      · subst hfirst
        simp [LimiterState.get]
      · simp [hkeys, hfirst, LimiterState.get, Store.get_delete_of_ne hfirst]

private theorem deleteAll_frame (st : LimiterState) (keys : List CacheKey) :
    (deleteAll keys st).now = st.now ∧ (deleteAll keys st).nextPlanId = st.nextPlanId ∧
      (deleteAll keys st).reset = st.reset := by
  induction keys generalizing st with
  | nil => exact ⟨rfl, rfl, rfl⟩
  | cons key keys ih => exact ih { st with cache := st.cache.delete key }

theorem runAlone_resetAmountSpentOfAllPlans (b : CacheBackend) (st : LimiterState) :
    ∃ st', runAlone b resetAmountSpentOfAllPlans st = (.ok (), st') ∧ SpentReset b st st' := by
  obtain ⟨keys, hrun, hkeys⟩ : ∃ keys, runAlone b resetAmountSpentOfAllPlans st =
        (.ok (), deleteAll keys st) ∧ ∀ key, key ∈ keys ↔
          key ∈ st.cache.liveKeys b.expiry st.now ∧ ∃ id, key = .amountSpent id := by
    apply Exists.intro
    constructor
    · rw [resetAmountSpentOfAllPlans, runAlone_bind, runAlone_request]
      exact runAlone_deleteAll _
    · intro key
      simp only [handle, List.mem_filter]
      cases key <;> simp
  have hread : ∀ id, (deleteAll keys st).get b (.amountSpent id) = none := by
    intro id
    rw [get_deleteAll, ite_eq_left_iff]
    intro hnot
    by_contra hsome
    refine hnot ((hkeys _).mpr ⟨Store.mem_liveKeys.mpr ?_, id, rfl⟩)
    exact Option.isSome_iff_ne_none.mpr hsome
  refine ⟨deleteAll keys st, hrun, ?_, ?_, ?_, ?_, ?_⟩
  · intro id
    rw [LimiterState.spent, hread]
    rfl
  · intro key hkey
    rw [get_deleteAll, if_neg]
    intro hmem
    obtain ⟨_, id, rfl⟩ := (hkeys key).mp hmem
    simp at hkey
  · exact (deleteAll_frame st keys).1
  · exact (deleteAll_frame st keys).2.1
  · exact (deleteAll_frame st keys).2.2

theorem SpentReset.wellFormed (h : SpentReset b st st') (hwf : WellFormed b st) :
    WellFormed b st' where
  planId id plan hplan :=
    hwf.planId id plan ((h.other (.hbarSpendingPlan id) (by simp)).symm.trans hplan)
  freshPlan n hn := by
    rw [LimiterState.plan, h.other _ (by simp)]
    exact hwf.freshPlan n (h.nextPlanId ▸ hn)
  freshSpent n _ := h.spent _
  freshEvmLink a link hlink n hn :=
    hwf.freshEvmLink a link
      ((h.other (.evmAddressHbarSpendingPlan _) (by simp)).symm.trans hlink) n (h.nextPlanId ▸ hn)
  freshIPLink a link hlink n hn :=
    hwf.freshIPLink a link
      ((h.other (.ipAddressHbarSpendingPlan _) (by simp)).symm.trans hlink) n (h.nextPlanId ▸ hn)

private theorem ownSpent_of_unspent (hwf : WellFormed b st) (h : ∀ id, st.spent b id = 0) :
    ownSpent b cfg st = 0 := by
  unfold ownSpent
  split
  · rename_i plan hplan
    rw [(hwf.evmPlan_id hplan).1, h]
  · rfl

theorem runAlone_resetLimiter (cfg : LimiterConfig) (hwf : WellFormed b st) (ipAddress : String) :
    ∃ st', runAlone b (resetLimiter cfg ipAddress) st = (.ok (), st') ∧ WellFormed b st' ∧
      (∀ id, st'.spent b id = 0) ∧ st'.now = st.now ∧
      st'.reset = getResetTimestamp cfg st.reset st.now := by
  obtain ⟨st₁, hrun₁, hreset⟩ := runAlone_resetAmountSpentOfAllPlans b st
  obtain ⟨plan, st₂, hstep, hrun₂⟩ := runAlone_getOperatorSpendingPlan b cfg st₁ ipAddress
  have hwf₁ := hreset.wellFormed hwf
  have hwf₂ := hstep.wellFormed hwf₁
  obtain ⟨hnow, hdate⟩ := hstep.frame
  rw [hreset.now] at hnow
  rw [hreset.reset] at hdate
  refine ⟨{ st₂ with reset := getResetTimestamp cfg st₂.reset st₂.now }, ?_, ?_, ?_, hnow, ?_⟩
  · rw [resetLimiter, runAlone_bind_ok hrun₁,
      runAlone_bind_ok (runAlone_getRemainingBudget hrun₂)]
    rfl
  · exact ⟨hwf₂.planId, hwf₂.freshPlan, hwf₂.freshSpent, hwf₂.freshEvmLink, hwf₂.freshIPLink⟩
  · intro id
    exact (hstep.spent_eq id).trans (hreset.spent id)
  · rw [hnow, hdate]

end Reset

section ShouldLimit

variable {evmAddress ipAddress : String} {estimatedTxFee : ℕ}

private theorem runAlone_isTotalBudgetExceeded (estimatedTxFee : ℕ) (ipAddress : String)
    (hwf : WellFormed b st) :
    ∃ exceeded st', runAlone b (isTotalBudgetExceeded cfg estimatedTxFee ipAddress) st =
        (.ok exceeded, st') ∧ WellFormed b st' ∧
      ownSpent b cfg st' = if st.reset ≤ st.now then 0 else ownSpent b cfg st := by
  have hreset : ∃ st₁, (∀ next : Unit → LimiterM Bool, runAlone b
      (if decide (st.reset ≤ st.now) = true then resetLimiter cfg ipAddress >>= next else next ())
        st = runAlone b (next ()) st₁) ∧ WellFormed b st₁ ∧
      ownSpent b cfg st₁ = if st.reset ≤ st.now then 0 else ownSpent b cfg st := by
    by_cases hdue : st.reset ≤ st.now
    · obtain ⟨st₁, hrun, hwf₁, hspent, _⟩ := runAlone_resetLimiter cfg hwf ipAddress
      refine ⟨st₁, fun next => ?_, hwf₁, by simp [hdue, ownSpent_of_unspent hwf₁ hspent]⟩
      simp only [hdue, decide_true, if_true]
      exact runAlone_bind_ok hrun
    · exact ⟨st, fun next => by simp [hdue], hwf, by simp [hdue]⟩
  obtain ⟨st₁, hrun₁, hwf₁, hspent₁⟩ := hreset
  obtain ⟨plan, st₂, hstep, hrun₂⟩ := runAlone_getOperatorSpendingPlan b cfg st₁ ipAddress
  let remainingBudget := totalBudget cfg - plan.amountSpent
  refine ⟨remainingBudget ≤ 0 || remainingBudget - estimatedTxFee < 0, st₂, ?_,
    hstep.wellFormed hwf₁, (hstep.ownSpent_eq hwf₁).trans hspent₁⟩
  rw [isTotalBudgetExceeded]
  refine (runAlone_bind_ok (a := decide (st.reset ≤ st.now)) rfl).trans ((hrun₁ _).trans ?_)
  rw [runAlone_bind_ok (runAlone_getRemainingBudget hrun₂)]
  rfl

/-- What `shouldLimit` leaves booked on the operator's plan: nothing if it has reset the
limiter. -/
theorem shouldLimit_ownSpent (evmAddress ipAddress : String) (estimatedTxFee : ℕ)
    (hwf : WellFormed cfg.backend st) (henabled : isEnabled cfg)
    (hst' : st' = (runAlone cfg.backend
      (shouldLimit cfg evmAddress ipAddress estimatedTxFee) st).2) :
    WellFormed cfg.backend st' ∧ ownSpent cfg.backend cfg st' =
      if st.reset ≤ st.now then 0 else ownSpent cfg.backend cfg st := by
  obtain ⟨exceeded, st₁, hrun, hwf₁, hspent₁⟩ :=
    @runAlone_isTotalBudgetExceeded cfg.backend cfg st estimatedTxFee ipAddress hwf
  rw [shouldLimit] at hst'
  simp only [henabled, Bool.not_true, Bool.false_eq_true, if_false] at hst'
  rw [runAlone_bind_ok hrun] at hst'
  by_cases hstop : exceeded = true ∨ (evmAddress = "" ∧ ipAddress = "")
  · -- nobody is looked up
    have hst₁ : st' = st₁ := by
      rw [hst']
      by_cases hexceeded : exceeded = true
      · simp [hexceeded]
      · simp [hexceeded, hstop.resolve_left hexceeded]
    exact hst₁ ▸ ⟨hwf₁, hspent₁⟩
  · rw [not_or] at hstop
    simp only [hstop.1, hstop.2, Bool.false_eq_true, if_false] at hst'
    rw [runAlone_bind_ok (runAlone_getSpendingPlan _ _)] at hst'
    cases hfind : st₁.findPlan cfg.backend evmAddress ipAddress with
    | some plan =>
      rw [hfind] at hst'
      exact hst' ▸ ⟨hwf₁, hspent₁⟩
    | none =>
      rw [hfind] at hst'
      by_cases hevm : evmAddress = ""
      · subst hevm
        exact hst' ▸ ⟨hwf₁, hspent₁⟩
      · have hstep : PlanStep cfg.backend st₁ evmAddress ipAddress .basic _ _ :=
          Or.inr ⟨hfind, hevm, rfl, planCreated_withNewPlan cfg st₁ evmAddress .basic⟩
        simp only [] at hst'
        rw [runAlone_bind_ok (runAlone_createSpendingPlanForAddress hevm .basic)] at hst'
        exact hst' ▸ ⟨hstep.wellFormed hwf₁, (hstep.ownSpent_eq hwf₁).trans hspent₁⟩

end ShouldLimit

section Windows

/-- The limiter is called, or time passes. -/
inductive LimiterEvent where
  | shouldLimit (evmAddress ipAddress : String) (estimatedTxFee : ℕ)
  | addExpense (cost : ℕ) (evmAddress ipAddress : String)
  | advance (ms : ℕ)

def limiterStep (cfg : LimiterConfig) (st : LimiterState) : LimiterEvent → Option LimiterState
  | .shouldLimit evmAddress ipAddress estimatedTxFee =>
      some (runAlone cfg.backend (shouldLimit cfg evmAddress ipAddress estimatedTxFee) st).2
  | .addExpense cost evmAddress ipAddress =>
      some (runAlone cfg.backend (addExpense cfg cost evmAddress ipAddress) st).2
  | .advance ms => some (st.advance ms)

inductive BudgetMark where
  | reset
  | spent (cost : ℕ)

/-- The resets and the expenses of a step. -/
def budgetMarks (st : LimiterState) : LimiterEvent → List BudgetMark
  | .shouldLimit .. => if st.reset ≤ st.now then [.reset] else []
  | .addExpense cost _ _ => [.spent cost]
  | .advance _ => []

def BudgetMark.book (spent : ℕ) : BudgetMark → ℕ
  | .reset => 0
  | .spent cost => spent + cost

/-- The sum of the expenses since the last reset. -/
def sinceReset (marks : List BudgetMark) : ℕ := marks.foldl BudgetMark.book 0

/-- Expenses are positive and come from addresses without a plan of their own. -/
def PlainExpense (cfg : LimiterConfig) (st : LimiterState) : LimiterEvent → Prop
  | .addExpense cost _ ipAddress => 0 < cost ∧ st.ipPlan cfg.backend ipAddress = none
  | _ => True

/-- The operator's link, plan and `amountSpent` can all be read. -/
def OperatorEntries (cfg : LimiterConfig) (st : LimiterState) : Prop :=
  ∃ link, st.evmLink cfg.backend cfg.operatorAddress = some link ∧
    (st.activePlan cfg.backend link.planId).isSome ∧
    (st.get cfg.backend (.amountSpent link.planId)).isSome

/-- The caller is apart from the operator, and no entry of the operator on which an expense is
booked expires. -/
def KeepsBudget (cfg : LimiterConfig) (st : LimiterState) : LimiterEvent → Prop
  | .addExpense _ evmAddress ipAddress =>
      (evmAddress = "" ∨ ¬ SameAddress evmAddress cfg.operatorAddress) ∧
      ∀ o c, st.evmPlan cfg.backend cfg.operatorAddress = some o →
        st.findPlan cfg.backend evmAddress ipAddress = some c → o.id ≠ c.id
  | .advance ms => OperatorEntries cfg st → OperatorEntries cfg (st.advance ms)
  | .shouldLimit .. => True

private theorem evmPlan_of_link {evmAddress : String} {link : EvmAddressHbarSpendingPlan}
    (hevm : evmAddress ≠ "") (hlink : st.evmLink b evmAddress = some link) :
    st.evmPlan b evmAddress = st.detailed b link.planId := by
  simp [LimiterState.evmPlan, hevm, hlink]

private theorem ownSpent_of_link {link : EvmAddressHbarSpendingPlan}
    (hlink : st.evmLink b cfg.operatorAddress = some link)
    (hactive : (st.activePlan b link.planId).isSome) :
    ownSpent b cfg st = st.spent b link.planId := by
  obtain ⟨plan, hplan⟩ := Option.isSome_iff_exists.mp hactive
  simp [ownSpent, evmPlan_of_link cfg.operatorAddress_ne hlink, LimiterState.detailed, hplan]

/-- Nothing is booked on entries of which one cannot be read. -/
theorem ownSpent_of_no_entries (h : ¬ OperatorEntries cfg st) :
    ownSpent cfg.backend cfg st = 0 := by
  cases hlink : st.evmLink cfg.backend cfg.operatorAddress with
  | none => exact ownSpent_of_none (by simp [LimiterState.evmPlan, hlink])
  | some link =>
    by_cases hactive : (st.activePlan cfg.backend link.planId).isSome
    · rw [ownSpent_of_link hlink hactive, LimiterState.spent]
      cases hspent : st.get cfg.backend (.amountSpent link.planId) with
      | none => rfl
      | some amount => exact absurd ⟨link, hlink, hactive, by simp [hspent]⟩ h
    · refine ownSpent_of_none ?_
      rw [evmPlan_of_link cfg.operatorAddress_ne hlink, LimiterState.detailed,
        Option.not_isSome_iff_eq_none.mp hactive, Option.map_none]

theorem OperatorEntries.of_advance {ms : ℕ} (h : OperatorEntries cfg (st.advance ms)) :
    OperatorEntries cfg st := by
  obtain ⟨link, hlink, hactive, hspent⟩ := h
  obtain ⟨plan, hplan⟩ := Option.isSome_iff_exists.mp hactive
  obtain ⟨amount, hamount⟩ := Option.isSome_iff_exists.mp hspent
  refine ⟨link, get_advance hlink, ?_, ?_⟩
  · rw [activePlan_advance hplan]
    rfl
  · rw [get_advance hamount]
    rfl

/-- Time does not give budget back as long as the entries of the operator are there. -/
theorem advance_ownSpent {ms : ℕ}
    (hkeeps : OperatorEntries cfg st → OperatorEntries cfg (st.advance ms)) :
    ownSpent cfg.backend cfg (st.advance ms) = ownSpent cfg.backend cfg st := by
  by_cases hentries : OperatorEntries cfg st
  · obtain ⟨link, hlink, hactive, hspent⟩ := hkeeps hentries
    obtain ⟨plan, hplan⟩ := Option.isSome_iff_exists.mp hactive
    obtain ⟨amount, hamount⟩ := Option.isSome_iff_exists.mp hspent
    have hactive' : (st.activePlan cfg.backend link.planId).isSome := by
      rw [activePlan_advance hplan]
      rfl
    rw [ownSpent_of_link hlink hactive, ownSpent_of_link (get_advance hlink) hactive',
      LimiterState.spent, LimiterState.spent, hamount, get_advance hamount]
  · rw [ownSpent_of_no_entries hentries, ownSpent_of_no_entries fun h => hentries h.of_advance]

private theorem limiterStep_ownSpent {e : LimiterEvent} {marks : List BudgetMark}
    (henabled : isEnabled cfg)
    (hinv : WellFormed cfg.backend st ∧ ownSpent cfg.backend cfg st = sinceReset marks)
    (hplain : PlainExpense cfg st e) (hkeeps : KeepsBudget cfg st e)
    (hstep : limiterStep cfg st e = some st') :
    WellFormed cfg.backend st' ∧
      ownSpent cfg.backend cfg st' = sinceReset (marks ++ budgetMarks st e) := by
  obtain ⟨hwf, hspent⟩ := hinv
  rw [sinceReset, List.foldl_append, ← sinceReset, ← hspent]
  cases e with
  | shouldLimit evmAddress ipAddress estimatedTxFee =>
    have hst' := (Option.some.inj hstep).symm
    obtain ⟨hwf', hspent'⟩ :=
      shouldLimit_ownSpent evmAddress ipAddress estimatedTxFee hwf henabled hst'
    refine ⟨hwf', hspent'.trans ?_⟩
    by_cases hdue : st.reset ≤ st.now <;> simp [budgetMarks, hdue, BudgetMark.book]
  | addExpense cost evmAddress ipAddress =>
    have hst' := (Option.some.inj hstep).symm
    exact addExpense_ownSpent cost hwf henabled hkeeps.1 hplain.2 hkeeps.2 hst'
  | advance ms =>
    obtain rfl : st.advance ms = st' := Option.some.inj hstep
    exact ⟨advance_wellFormed ms hwf, advance_ownSpent hkeeps⟩

/-- Between two resets the remaining budget is the total budget less the expenses since the
last reset, in every run in which the operator's entries outlive what is booked on them. -/
theorem remainingBudget_of_run {events : List LimiterEvent} (henabled : isEnabled cfg)
    (hwf : WellFormed cfg.backend st) (hstart : ∀ id, st.spent cfg.backend id = 0)
    (hplain : Along (limiterStep cfg) (PlainExpense cfg) st events)
    (hkeeps : Along (limiterStep cfg) (KeepsBudget cfg) st events)
    (hrun : exec (limiterStep cfg) st events = some st')
    {ipAddress : String} (hip : st'.ipPlan cfg.backend ipAddress = none) :
    (runAlone cfg.backend (getRemainingBudget cfg ipAddress) st').1 =
      .ok (totalBudget cfg -
        sinceReset (trace (limiterStep cfg) budgetMarks st events)) := by
  have hinit : WellFormed cfg.backend st ∧ ownSpent cfg.backend cfg st = sinceReset [] :=
    ⟨hwf, ownSpent_of_unspent hwf hstart⟩
  obtain ⟨hwf', hspent⟩ := run_trace_invariant budgetMarks
    (I := fun st marks => WellFormed cfg.backend st ∧
      ownSpent cfg.backend cfg st = sinceReset marks)
    (fun _ _ _ _ hinv hok hstep => limiterStep_ownSpent henabled hinv hok.1 hok.2 hstep)
    hinit (hplain.and hkeeps) hrun
  obtain ⟨plan, st₁, hstep, hget⟩ :=
    runAlone_getOperatorSpendingPlan cfg.backend cfg st' ipAddress
  have hown := (operatorStep_own hwf' (Or.inr hip) hstep).1
  have hbooked : plan.amountSpent = ownSpent cfg.backend cfg st' := by
    rw [← hstep.ownSpent_eq hwf', ownSpent, hown]
  rw [runAlone_getRemainingBudget hget, hbooked, hspent, List.nil_append]

/-- An expense and an hour later. -/
def oneExpense : List LimiterEvent := [.addExpense 5 "0xab" "10.0.0.2", .advance 3600000]

theorem remainingBudget_of_run_oneExpense :
    ∃ st', exec (limiterStep (dailyConfig .redisCache)) (.empty 0 86400000) oneExpense = some st' ∧
      (runAlone .redisCache (getRemainingBudget (dailyConfig .redisCache) "10.0.0.3") st').1 =
        .ok (1000 - 5) := by
  refine ⟨_, rfl, @remainingBudget_of_run (dailyConfig .redisCache) _ _ oneExpense rfl
    (WellFormed.empty 0 86400000) (fun _ => rfl) ?_ ?_ rfl _ rfl⟩
  · exact Along.cons rfl ⟨by decide, rfl⟩ (Along.cons rfl trivial trivial)
  · refine Along.cons rfl ⟨Or.inr ?_, ?_⟩ (Along.cons rfl ?_ trivial)
    · unfold SameAddress
      decide
    · intro o c hop
      cases hop
    · exact fun _ => ⟨_, rfl, rfl, rfl⟩

/-- The operator's plan is created in the middle of one window and expires in the middle of the
next one. -/
def expiringPlan : List LimiterEvent :=
  [.addExpense 5 "0xab" "10.0.0.2", .advance 43200001, .shouldLimit "0xab" "10.0.0.2" 1,
    .advance 21600000, .addExpense 7 "0xab" "10.0.0.2", .advance 21600000]

theorem budget_returned_by_expiry :
    ∃ (cfg : LimiterConfig) (st : LimiterState) (events : List LimiterEvent) (st' : LimiterState),
      isEnabled cfg ∧ WellFormed cfg.backend st ∧ (∀ id, st.spent cfg.backend id = 0) ∧
      Along (limiterStep cfg) (PlainExpense cfg) st events ∧
      exec (limiterStep cfg) st events = some st' ∧
      st'.ipPlan cfg.backend "10.0.0.2" = none ∧
      (runAlone cfg.backend (getRemainingBudget cfg "10.0.0.2") st').1 ≠
        .ok (totalBudget cfg - sinceReset (trace (limiterStep cfg) budgetMarks st events)) := by
  refine ⟨dailyConfig .redisCache, .empty 43200000 86400000, expiringPlan, _, rfl,
    WellFormed.empty _ _, fun _ => rfl, ?_, rfl, rfl, ?_⟩
  · exact Along.cons rfl ⟨by decide, rfl⟩ (Along.cons rfl trivial (Along.cons rfl trivial
      (Along.cons rfl trivial (Along.cons rfl ⟨by decide, rfl⟩ (Along.cons rfl trivial trivial)))))
  · -- the whole budget is there again, although 7 have been spent since the reset
    change (.ok 1000 : Except HbarLimiterError ℤ) ≠ .ok (1000 - 7)
    simp

end Windows

end JsonRpcRelay.HbarLimiter

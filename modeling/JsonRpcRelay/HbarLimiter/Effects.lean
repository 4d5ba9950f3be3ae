import JsonRpcRelay.HbarLimiter.Alone

/-!
# What a charge and a new plan change

Well-formed limiter states, what the two writes leave of them, and how an expense is made of
them: the operator's plan is looked up or created and charged, then the caller's.
-/

namespace JsonRpcRelay.HbarLimiter

open Framework

variable {b : CacheBackend} {st st' : LimiterState}

section Effects

/-- Plans are stored under their own id, and a UUID that has not been drawn yet occurs
nowhere. -/
structure WellFormed (b : CacheBackend) (st : LimiterState) : Prop where
  planId : ∀ id plan, st.plan b id = some plan → plan.id = id
  freshPlan : ∀ n, st.nextPlanId ≤ n → st.plan b (.generated n) = none
  freshSpent : ∀ n, st.nextPlanId ≤ n → st.spent b (.generated n) = 0
  freshEvmLink : ∀ evmAddress link, st.evmLink b evmAddress = some link →
    ∀ n, st.nextPlanId ≤ n → link.planId ≠ .generated n
  freshIPLink : ∀ ipAddress link, st.ipLink b ipAddress = some link →
    ∀ n, st.nextPlanId ≤ n → link.planId ≠ .generated n

/-- A limiter that starts at the given time with an empty cache. -/
def LimiterState.empty (now reset : ℕ) : LimiterState := ⟨now, ∅, 0, reset⟩

theorem WellFormed.empty (now reset : ℕ) : WellFormed b (.empty now reset) where
  planId _ _ h := by simp [LimiterState.plan, LimiterState.get, LimiterState.empty, Store.get] at h
  freshPlan _ _ := rfl
  freshSpent _ _ := rfl
  freshEvmLink _ _ h := by
    simp [LimiterState.evmLink, LimiterState.get, LimiterState.empty, Store.get] at h
  freshIPLink _ _ h := by
    simp [LimiterState.ipLink, LimiterState.get, LimiterState.empty, Store.get] at h

theorem WellFormed.set_configured (hwf : WellFormed b st) {name : String} {plan : HbarSpendingPlan}
    (hid : plan.id = .configured name) (ttl : ℤ) :
    WellFormed b (st.set (.hbarSpendingPlan (.configured name)) plan ttl) where
  planId id stored h := by
    by_cases hname : id = .configured name
    · subst hname
      rw [LimiterState.plan, get_set_self, Option.some.injEq] at h
      rw [← h, hid]
    · rw [LimiterState.plan, get_set_of_ne (by simpa using hname)] at h
      exact hwf.planId id stored h
  freshPlan n hn := by
    rw [LimiterState.plan, get_set_of_ne (by simp)]
    exact hwf.freshPlan n hn
  freshSpent n hn := by
    rw [LimiterState.spent, get_set_of_ne (by simp)]
    exact hwf.freshSpent n hn
  freshEvmLink a link h := by
    rw [LimiterState.evmLink, get_set_of_ne (by simp)] at h
    exact hwf.freshEvmLink a link h
  freshIPLink a link h := by
    rw [LimiterState.ipLink, get_set_of_ne (by simp)] at h
    exact hwf.freshIPLink a link h

theorem WellFormed.set_ipLink (hwf : WellFormed b st) {ipAddress name : String} (ttl : ℤ) :
    WellFormed b (st.set (.ipAddressHbarSpendingPlan ipAddress)
      ⟨ipAddress, .configured name⟩ ttl) where
  planId id stored h := by
    rw [LimiterState.plan, get_set_of_ne (by simp)] at h
    exact hwf.planId id stored h
  freshPlan n hn := by
    rw [LimiterState.plan, get_set_of_ne (by simp)]
    exact hwf.freshPlan n hn
  freshSpent n hn := by
    rw [LimiterState.spent, get_set_of_ne (by simp)]
    exact hwf.freshSpent n hn
  freshEvmLink a link h := by
    rw [LimiterState.evmLink, get_set_of_ne (by simp)] at h
    exact hwf.freshEvmLink a link h
  freshIPLink a link h n hn := by
    by_cases hip : a = ipAddress
    · subst hip
      rw [LimiterState.ipLink, get_set_self, Option.some.injEq] at h
      rw [← h]
      simp
    · rw [LimiterState.ipLink, get_set_of_ne (by simpa using hip)] at h
      exact hwf.freshIPLink a link h n hn

/-- Two spellings of one EVM address. -/
def SameAddress (evmAddress other : String) : Prop :=
  toLowerCase (trim evmAddress) = toLowerCase (trim other)

theorem evmPlan_of_same {evmAddress other : String} (hsame : SameAddress evmAddress other)
    (hevm : evmAddress ≠ "") (hother : other ≠ "") :
    st.evmPlan b evmAddress = st.evmPlan b other := by
  simp only [LimiterState.evmPlan, hevm, hother, if_false, LimiterState.evmLink]
  rw [show toLowerCase (trim evmAddress) = toLowerCase (trim other) from hsame]

theorem detailed_toPlan (id : PlanId) :
    (st.detailed b id).map (·.toHbarSpendingPlan) = st.activePlan b id := by
  simp [LimiterState.detailed, Function.comp_def]

private theorem WellFormed.detailed_id (hwf : WellFormed b st) {id : PlanId}
    {plan : DetailedHbarSpendingPlan} (h : st.detailed b id = some plan) :
    plan.id = id ∧ plan.amountSpent = st.spent b id ∧ (st.activePlan b id).isSome := by
  obtain ⟨stored, hstored, rfl⟩ := Option.map_eq_some_iff.mp h
  have hplan := (Option.filter_eq_some_iff.mp hstored).1
  exact ⟨hwf.planId id stored hplan, rfl, by simp [hstored]⟩

theorem WellFormed.evmPlan_id (hwf : WellFormed b st) {evmAddress : String}
    {plan : DetailedHbarSpendingPlan} (h : st.evmPlan b evmAddress = some plan) :
    plan.amountSpent = st.spent b plan.id ∧ (st.activePlan b plan.id).isSome := by
  unfold LimiterState.evmPlan at h
  split at h
  · cases h
  · obtain ⟨link, _, hplan⟩ := Option.bind_eq_some_iff.mp h
    obtain ⟨hid, hspent, hactive⟩ := hwf.detailed_id hplan
    exact ⟨hid ▸ hspent, hid ▸ hactive⟩

theorem WellFormed.findPlan_id (hwf : WellFormed b st) {evmAddress ipAddress : String}
    {plan : DetailedHbarSpendingPlan} (h : st.findPlan b evmAddress ipAddress = some plan) :
    plan.amountSpent = st.spent b plan.id ∧ (st.activePlan b plan.id).isSome := by
  rcases Option.or_eq_some_iff.mp h with hevm | ⟨_, hip⟩
  · exact hwf.evmPlan_id hevm
  · unfold LimiterState.ipPlan at hip
    split at hip
    · cases hip
    · obtain ⟨link, _, hplan⟩ := Option.bind_eq_some_iff.mp hip
      obtain ⟨hid, hspent, hactive⟩ := hwf.detailed_id hplan
      exact ⟨hid ▸ hspent, hid ▸ hactive⟩

/-- A plan that can be read has an id that was drawn before. -/
theorem WellFormed.known (hwf : WellFormed b st) {id : PlanId} (h : (st.activePlan b id).isSome)
    {n : ℕ} (hn : st.nextPlanId ≤ n) : id ≠ .generated n := by
  rintro rfl
  simp [LimiterState.activePlan, hwf.freshPlan n hn] at h

section Time

theorem get_advance {key : CacheKey} {value : key.Value} {ms : ℕ}
    (h : (st.advance ms).get b key = some value) : st.get b key = some value :=
  Store.get_of_later (Nat.le_add_right _ _) h

theorem advance_wellFormed (ms : ℕ) (hwf : WellFormed b st) : WellFormed b (st.advance ms) where
  planId id plan hplan := hwf.planId id plan (get_advance hplan)
  freshPlan n hn := by
    by_contra hsome
    obtain ⟨plan, hplan⟩ := Option.ne_none_iff_exists'.mp hsome
    have hnone := hwf.freshPlan n hn
    rw [LimiterState.plan, get_advance hplan] at hnone
    cases hnone
  freshSpent n hn := by
    have hzero := hwf.freshSpent n hn
    simp only [LimiterState.spent] at hzero ⊢
    cases hspent : (st.advance ms).get b (.amountSpent (.generated n)) with
    | none => rfl
    | some amount => rwa [get_advance hspent] at hzero
  freshEvmLink a link hlink := hwf.freshEvmLink a link (get_advance hlink)
  freshIPLink a link hlink := hwf.freshIPLink a link (get_advance hlink)

theorem activePlan_advance {id : PlanId} {plan : HbarSpendingPlan} {ms : ℕ}
    (h : (st.advance ms).activePlan b id = some plan) : st.activePlan b id = some plan := by
  obtain ⟨hplan, hactive⟩ := Option.filter_eq_some_iff.mp h
  exact Option.filter_eq_some_iff.mpr ⟨get_advance hplan, hactive⟩

end Time

section Charge

variable {id : PlanId} {amount : ℕ}

private theorem Charged.plan_eq (h : Charged b st id amount st') (other : PlanId) :
    st'.plan b other = st.plan b other := h.other _ (by simp)

theorem Charged.activePlan_eq (h : Charged b st id amount st') (other : PlanId) :
    st'.activePlan b other = st.activePlan b other := by
  rw [LimiterState.activePlan, h.plan_eq, LimiterState.activePlan]

theorem Charged.evmLink_eq (h : Charged b st id amount st') (evmAddress : String) :
    st'.evmLink b evmAddress = st.evmLink b evmAddress := h.other _ (by simp)

theorem Charged.ipLink_eq (h : Charged b st id amount st') (ipAddress : String) :
    st'.ipLink b ipAddress = st.ipLink b ipAddress := h.other _ (by simp)

theorem Charged.spent_of_ne (h : Charged b st id amount st') {other : PlanId} (hne : other ≠ id) :
    st'.spent b other = st.spent b other := by
  rw [LimiterState.spent, LimiterState.spent, h.other _ (by simpa using hne)]

theorem Charged.wellFormed (h : Charged b st id amount st') (hwf : WellFormed b st)
    (hactive : (st.activePlan b id).isSome) : WellFormed b st' where
  planId other plan hplan := hwf.planId other plan (h.plan_eq other ▸ hplan)
  freshPlan n hn := by
    rw [h.plan_eq]
    exact hwf.freshPlan n (h.nextPlanId ▸ hn)
  freshSpent n hn := by
    have hn' : st.nextPlanId ≤ n := h.nextPlanId ▸ hn
    rw [h.spent_of_ne (hwf.known hactive hn').symm]
    exact hwf.freshSpent n hn'
  freshEvmLink a link hlink n hn :=
    hwf.freshEvmLink a link (h.evmLink_eq a ▸ hlink) n (h.nextPlanId ▸ hn)
  freshIPLink a link hlink n hn :=
    hwf.freshIPLink a link (h.ipLink_eq a ▸ hlink) n (h.nextPlanId ▸ hn)

theorem Charged.detailed_map (h : Charged b st id amount st') (other : PlanId) :
    (st'.detailed b other).map (·.toHbarSpendingPlan) =
      (st.detailed b other).map (·.toHbarSpendingPlan) := by
  rw [detailed_toPlan, detailed_toPlan, h.activePlan_eq]

theorem Charged.evmPlan_map (h : Charged b st id amount st') (evmAddress : String) :
    (st'.evmPlan b evmAddress).map (·.toHbarSpendingPlan) =
      (st.evmPlan b evmAddress).map (·.toHbarSpendingPlan) := by
  simp only [LimiterState.evmPlan, h.evmLink_eq]
  split
  · rfl
  · simp only [Option.map_bind, Function.comp_def, h.detailed_map]

theorem Charged.ipPlan_map (h : Charged b st id amount st') (ipAddress : String) :
    (st'.ipPlan b ipAddress).map (·.toHbarSpendingPlan) =
      (st.ipPlan b ipAddress).map (·.toHbarSpendingPlan) := by
  simp only [LimiterState.ipPlan, h.ipLink_eq]
  split
  · rfl
  · simp only [Option.map_bind, Function.comp_def, h.detailed_map]

theorem Charged.findPlan_map (h : Charged b st id amount st') (evmAddress ipAddress : String) :
    (st'.findPlan b evmAddress ipAddress).map (·.toHbarSpendingPlan) =
      (st.findPlan b evmAddress ipAddress).map (·.toHbarSpendingPlan) := by
  simp only [LimiterState.findPlan, Option.map_or, h.evmPlan_map, h.ipPlan_map]

end Charge

section Creation

variable {id : PlanId} {evmAddress : String} {tier : SubscriptionTier}

theorem PlanCreated.plan_of_ne (h : PlanCreated b st evmAddress tier id st') {other : PlanId}
    (hne : other ≠ id) : st'.plan b other = st.plan b other :=
  h.other _ (by simpa using hne) (by simp)

theorem PlanCreated.spent_eq (h : PlanCreated b st evmAddress tier id st') (other : PlanId) :
    st'.spent b other = st.spent b other := by
  rw [LimiterState.spent, LimiterState.spent, h.other _ (by simp) (by simp)]

theorem PlanCreated.evmLink_of_ne (h : PlanCreated b st evmAddress tier id st') {other : String}
    (hne : ¬ SameAddress other evmAddress) : st'.evmLink b other = st.evmLink b other :=
  h.other _ (by simp) (by simpa [SameAddress] using hne)

theorem PlanCreated.evmLink_of_same (h : PlanCreated b st evmAddress tier id st') {other : String}
    (hsame : SameAddress other evmAddress) : st'.evmLink b other = some ⟨evmAddress, id⟩ := by
  rw [← h.link, LimiterState.evmLink, LimiterState.evmLink, hsame]

theorem PlanCreated.ipLink_eq (h : PlanCreated b st evmAddress tier id st') (ipAddress : String) :
    st'.ipLink b ipAddress = st.ipLink b ipAddress := h.other _ (by simp) (by simp)

private theorem PlanCreated.detailed_of_ne (h : PlanCreated b st evmAddress tier id st')
    {other : PlanId} (hne : other ≠ id) : st'.detailed b other = st.detailed b other := by
  simp only [LimiterState.detailed, LimiterState.activePlan, h.plan_of_ne hne, h.spent_eq]

theorem PlanCreated.wellFormed (h : PlanCreated b st evmAddress tier id st')
    (hwf : WellFormed b st) : WellFormed b st' where
  planId other plan hplan := by
    by_cases hne : other = id
    · subst hne
      rw [h.plan] at hplan
      cases hplan
      rfl
    · exact hwf.planId other plan (h.plan_of_ne hne ▸ hplan)
  freshPlan n hn := by
    rw [h.nextPlanId] at hn
    have hne : PlanId.generated n ≠ id := by
      rw [h.id_eq]
      simp
      omega
    rw [h.plan_of_ne hne]
    exact hwf.freshPlan n (by omega)
  freshSpent n hn := by
    rw [h.nextPlanId] at hn
    rw [h.spent_eq]
    exact hwf.freshSpent n (by omega)
  freshEvmLink a link hlink n hn := by
    rw [h.nextPlanId] at hn
    by_cases hsame : SameAddress a evmAddress
    · rw [h.evmLink_of_same hsame, Option.some.injEq] at hlink
      subst hlink
      rw [h.id_eq]
      simp
      omega
    · exact hwf.freshEvmLink a link (h.evmLink_of_ne hsame ▸ hlink) n (by omega)
  freshIPLink a link hlink n hn := by
    rw [h.nextPlanId] at hn
    exact hwf.freshIPLink a link (h.ipLink_eq a ▸ hlink) n (by omega)

theorem PlanCreated.evmPlan_self (h : PlanCreated b st evmAddress tier id st')
    (hwf : WellFormed b st) (hevm : evmAddress ≠ "") :
    st'.evmPlan b evmAddress = some ⟨⟨id, tier, st.now, true⟩, 0⟩ := by
  have hspent : st'.spent b id = 0 := by
    rw [h.spent_eq, h.id_eq]
    exact hwf.freshSpent _ (Nat.le_refl _)
  simp [LimiterState.evmPlan, hevm, h.link, LimiterState.detailed, LimiterState.activePlan, h.plan,
    hspent]

theorem PlanCreated.evmPlan_of_ne (h : PlanCreated b st evmAddress tier id st')
    (hwf : WellFormed b st) {other : String} (hne : ¬ SameAddress other evmAddress) :
    st'.evmPlan b other = st.evmPlan b other := by
  simp only [LimiterState.evmPlan, h.evmLink_of_ne hne]
  split
  · rfl
  · cases hlink : st.evmLink b other with
    | none => rfl
    | some link =>
      refine h.detailed_of_ne ?_
      rw [h.id_eq]
      exact hwf.freshEvmLink other link hlink _ (Nat.le_refl _)

theorem PlanCreated.ipPlan_eq (h : PlanCreated b st evmAddress tier id st')
    (hwf : WellFormed b st) (ipAddress : String) :
    st'.ipPlan b ipAddress = st.ipPlan b ipAddress := by
  simp only [LimiterState.ipPlan, h.ipLink_eq]
  split
  · rfl
  · cases hlink : st.ipLink b ipAddress with
    | none => rfl
    | some link =>
      refine h.detailed_of_ne ?_
      rw [h.id_eq]
      exact hwf.freshIPLink ipAddress link hlink _ (Nat.le_refl _)

end Creation

end Effects

section Expenses

variable {cfg : LimiterConfig}

/-- The plan of an address is looked up, and created where there is none. -/
def PlanStep (b : CacheBackend) (st : LimiterState) (evmAddress ipAddress : String)
    (tier : SubscriptionTier) (plan : DetailedHbarSpendingPlan) (st' : LimiterState) : Prop :=
  (st.findPlan b evmAddress ipAddress = some plan ∧ st' = st) ∨
    (st.findPlan b evmAddress ipAddress = none ∧ evmAddress ≠ "" ∧
      plan = ⟨⟨.generated st.nextPlanId, tier, st.now, true⟩, 0⟩ ∧
      PlanCreated b st evmAddress tier plan.id st')

theorem PlanStep.wellFormed {evmAddress ipAddress : String} {tier : SubscriptionTier}
    {plan : DetailedHbarSpendingPlan} (h : PlanStep b st evmAddress ipAddress tier plan st')
    (hwf : WellFormed b st) : WellFormed b st' := by
  rcases h with ⟨_, rfl⟩ | ⟨_, _, _, hnew⟩
  · exact hwf
  · exact hnew.wellFormed hwf

theorem PlanStep.found {evmAddress ipAddress : String} {tier : SubscriptionTier}
    {plan : DetailedHbarSpendingPlan} (h : PlanStep b st evmAddress ipAddress tier plan st')
    (hwf : WellFormed b st) : st'.findPlan b evmAddress ipAddress = some plan := by
  rcases h with ⟨hfound, rfl⟩ | ⟨_, hevm, rfl, hnew⟩
  · exact hfound
  · rw [LimiterState.findPlan, hnew.evmPlan_self hwf hevm, Option.some_or]

theorem PlanStep.spent_eq {evmAddress ipAddress : String} {tier : SubscriptionTier}
    {plan : DetailedHbarSpendingPlan} (h : PlanStep b st evmAddress ipAddress tier plan st')
    (id : PlanId) : st'.spent b id = st.spent b id := by
  rcases h with ⟨_, rfl⟩ | ⟨_, _, _, hnew⟩
  · rfl
  · exact hnew.spent_eq id

theorem PlanStep.frame {evmAddress ipAddress : String} {tier : SubscriptionTier}
    {plan : DetailedHbarSpendingPlan} (h : PlanStep b st evmAddress ipAddress tier plan st') :
    st'.now = st.now ∧ st'.reset = st.reset := by
  rcases h with ⟨_, rfl⟩ | ⟨_, _, _, hnew⟩
  · exact ⟨rfl, rfl⟩
  · exact ⟨hnew.now, hnew.reset⟩

private theorem runAlone_createOrFound (b : CacheBackend) (cfg : LimiterConfig) (st : LimiterState)
    {evmAddress : String} (ipAddress : String) (hevm : evmAddress ≠ "") (tier : SubscriptionTier) :
    ∃ plan st', PlanStep b st evmAddress ipAddress tier plan st' ∧
      (match st.findPlan b evmAddress ipAddress with
        | some plan => (.ok plan, st)
        | none => runAlone b (createSpendingPlanForAddress cfg evmAddress tier) st) =
          (.ok plan, st') := by
  cases hfind : st.findPlan b evmAddress ipAddress with
  | some plan => exact ⟨plan, st, Or.inl ⟨hfind, rfl⟩, rfl⟩
  | none =>
    refine ⟨_, _, Or.inr ⟨hfind, hevm, rfl, ?_⟩, runAlone_createSpendingPlanForAddress hevm tier⟩
    exact planCreated_withNewPlan cfg st evmAddress tier

theorem runAlone_getOperatorSpendingPlan (b : CacheBackend) (cfg : LimiterConfig)
    (st : LimiterState) (ipAddress : String) :
    ∃ plan st', PlanStep b st cfg.operatorAddress ipAddress .operator plan st' ∧
      runAlone b (getOperatorSpendingPlan cfg ipAddress) st = (.ok plan, st') := by
  obtain ⟨plan, st', hstep, hrun⟩ := runAlone_createOrFound b cfg st ipAddress
    cfg.operatorAddress_ne .operator
  refine ⟨plan, st', hstep, ?_⟩
  rw [getOperatorSpendingPlan, runAlone_bind_ok (runAlone_getSpendingPlan _ _), ← hrun]
  cases st.findPlan b cfg.operatorAddress ipAddress <;> rfl

theorem runAlone_getRemainingBudget {ipAddress : String} {plan : DetailedHbarSpendingPlan}
    (h : runAlone b (getOperatorSpendingPlan cfg ipAddress) st = (.ok plan, st')) :
    runAlone b (getRemainingBudget cfg ipAddress) st =
      (.ok (totalBudget cfg - plan.amountSpent), st') := by
  rw [getRemainingBudget, runAlone_tryCatch, runAlone_bind_ok h]
  rfl

theorem runAlone_getRemainingBudget_found {ipAddress : String} {plan : DetailedHbarSpendingPlan}
    (h : st.findPlan b cfg.operatorAddress ipAddress = some plan) :
    runAlone b (getRemainingBudget cfg ipAddress) st =
      (.ok (totalBudget cfg - plan.amountSpent), st) := by
  obtain ⟨plan', st', hstep, hrun⟩ :=
    runAlone_getOperatorSpendingPlan b cfg st ipAddress
  rcases hstep with ⟨hfound, rfl⟩ | ⟨hnone, _⟩
  · obtain rfl : plan = plan' := Option.some.inj (h.symm.trans hfound)
    exact runAlone_getRemainingBudget hrun
  · rw [h] at hnone
    cases hnone

theorem Charged.findPlan_isSome {id : PlanId} {amount : ℕ} (h : Charged b st id amount st')
    {evmAddress ipAddress : String} {plan : DetailedHbarSpendingPlan}
    (hfound : st.findPlan b evmAddress ipAddress = some plan) :
    ∃ plan', st'.findPlan b evmAddress ipAddress = some plan' ∧
      plan'.toHbarSpendingPlan = plan.toHbarSpendingPlan := by
  have hmap := h.findPlan_map evmAddress ipAddress
  rw [hfound, Option.map_some] at hmap
  exact Option.map_eq_some_iff.mp hmap

theorem runAlone_addExpense (hwf : WellFormed cfg.backend st) (henabled : isEnabled cfg)
    (cost : ℕ) (evmAddress ipAddress : String) :
    ∃ operatorPlan st₁ st₂,
      PlanStep cfg.backend st cfg.operatorAddress ipAddress .operator operatorPlan st₁ ∧
      Charged cfg.backend st₁ operatorPlan.id cost st₂ ∧
      ((st₂.findPlan cfg.backend evmAddress ipAddress = none ∧ evmAddress = "" ∧
          runAlone cfg.backend (addExpense cfg cost evmAddress ipAddress) st = (.ok (), st₂)) ∨
        ∃ callerPlan st₃ st₄,
          PlanStep cfg.backend st₂ evmAddress ipAddress .basic callerPlan st₃ ∧
          Charged cfg.backend st₃ callerPlan.id cost st₄ ∧
          runAlone cfg.backend (addExpense cfg cost evmAddress ipAddress) st = (.ok (), st₄)) := by
  obtain ⟨operatorPlan, st₁, hoperator, hrunOperator⟩ :=
    runAlone_getOperatorSpendingPlan cfg.backend cfg st ipAddress
  have hwf₁ := hoperator.wellFormed hwf
  have hfound₁ := hoperator.found hwf
  obtain ⟨st₂, hrunCharge, hcharge⟩ := runAlone_addToAmountSpent cost cfg.limitDuration
    (hwf₁.findPlan_id hfound₁).2
  have hwf₂ := hcharge.wellFormed hwf₁ (hwf₁.findPlan_id hfound₁).2
  obtain ⟨plan₂, hfound₂, _⟩ := hcharge.findPlan_isSome hfound₁
  refine ⟨operatorPlan, st₁, st₂, hoperator, hcharge, ?_⟩
  rw [addExpense]
  simp only [henabled, Bool.not_true, Bool.false_eq_true, if_false]
  rw [runAlone_bind_ok hrunOperator, runAlone_bind_ok hrunCharge,
    runAlone_bind_ok (runAlone_getRemainingBudget_found hfound₂),
    runAlone_bind_ok (runAlone_getSpendingPlan _ _)]
  cases hfind : st₂.findPlan cfg.backend evmAddress ipAddress with
  | some callerPlan =>
    obtain ⟨st₄, hrunCaller, hcaller⟩ := runAlone_addToAmountSpent cost cfg.limitDuration
      (hwf₂.findPlan_id hfind).2
    exact Or.inr ⟨callerPlan, st₂, st₄, Or.inl ⟨hfind, rfl⟩, hcaller, hrunCaller⟩
  | none =>
    by_cases hevm : evmAddress = ""
    · refine Or.inl ⟨rfl, hevm, ?_⟩
      simp only [hevm, if_true]
      rfl
    · have hnew := planCreated_withNewPlan (b := cfg.backend) cfg st₂ evmAddress .basic
      have hstep : PlanStep cfg.backend st₂ evmAddress ipAddress .basic _ _ :=
        Or.inr ⟨hfind, hevm, rfl, hnew⟩
      have hwf₃ := hstep.wellFormed hwf₂
      obtain ⟨st₄, hrunCaller, hcaller⟩ := runAlone_addToAmountSpent cost cfg.limitDuration
        (hwf₃.findPlan_id (hstep.found hwf₂)).2
      refine Or.inr ⟨_, _, st₄, hstep, hcaller, ?_⟩
      simp only [hevm, if_false]
      rw [runAlone_bind, runAlone_map, runAlone_createSpendingPlanForAddress hevm]
      exact hrunCaller

end Expenses

end JsonRpcRelay.HbarLimiter

import Mathlib.Algebra.BigOperators.Fin
import Mathlib.Algebra.BigOperators.Pi
import Mathlib.Algebra.BigOperators.Ring.Finset
import JsonRpcRelay.HbarLimiter.Attribution
import JsonRpcRelay.HbarLimiter.InterleavedCalls

/-!
# Expenses at the same time

The ledger of a pool of calls of `addExpense` adds up to what the plans have grown by.
-/

namespace JsonRpcRelay.HbarLimiter

open Framework

/-- The arguments of a call of `addExpense`. -/
structure Expense where
  cost : ℕ
  evmAddress : String
  ipAddress : String

section Pool

variable {ι : Type} {cfg : LimiterConfig} {s₀ t : LimiterState} {calls : ι → Expense}

/-- Calls of `addExpense` that all start in `s₀`. -/
def expensePool (cfg : LimiterConfig) (s₀ : LimiterState) (calls : ι → Expense) :
    Pool ι CacheOp CacheOp.Reply (Except HbarLimiterError Unit) LimiterState CallRecord where
  shared := s₀
  prog i := (addExpense cfg (calls i).cost (calls i).evmAddress (calls i).ipAddress).run
  ghost i := .start (calls i).ipAddress

/-- What a call of the pool leaves. -/
def ExpensePost (cfg : LimiterConfig) (s₀ : LimiterState) (call : Expense)
    (r : Except HbarLimiterError Unit) (l : CallRecord) (t : LimiterState) : Prop :=
  r = .ok () ∧ ∃ operatorPlan charged,
    t.evmActivePlan cfg.backend cfg.operatorAddress = some operatorPlan ∧
    CallerCharged cfg.backend s₀ t call.evmAddress call.ipAddress charged ∧
    l.credit = expenseCredit operatorPlan.id charged call.cost

private theorem expensePool_verified (hwf : WellFormed cfg.backend s₀) (henabled : isEnabled cfg)
    (hcallers : ∀ i, (calls i).evmAddress = "" ∨
      ¬ SameAddress (calls i).evmAddress cfg.operatorAddress) :
    (limiterContract cfg s₀).Verified (fun i => ExpensePost cfg s₀ (calls i))
      (expensePool cfg s₀ calls) := by
  intro i
  have hs : Grown cfg s₀ s₀ := Grown.refl hwf
  have hcall := @returns_addExpense cfg s₀ s₀ (.start (calls i).ipAddress) (calls i).evmAddress
    (calls i).ipAddress (calls i).cost hs rfl henabled (hcallers i)
  apply wp_weaken hs hcall
  rintro r l t _ _ ⟨_, rfl, operatorPlan, charged, hoperator, hcharged, hcredit⟩
  exact ⟨rfl, operatorPlan, charged, hoperator, hcharged, hcredit.trans (zero_add _)⟩

private theorem operatorPlan_ne_charged (hwf : WellFormed cfg.backend s₀) (ht : Grown cfg s₀ t)
    {call : Expense}
    (hcaller : call.evmAddress = "" ∨ ¬ SameAddress call.evmAddress cfg.operatorAddress)
    (hapart : ∀ o c, s₀.evmActivePlan cfg.backend cfg.operatorAddress = some o →
      (s₀.evmActivePlan cfg.backend call.evmAddress).or
        (s₀.ipActivePlan cfg.backend call.ipAddress) = some c → o.id ≠ c.id)
    {operatorPlan : HbarSpendingPlan} {charged : Option PlanId}
    (hoperator : t.evmActivePlan cfg.backend cfg.operatorAddress = some operatorPlan)
    (hcharged : CallerCharged cfg.backend s₀ t call.evmAddress call.ipAddress charged) :
    charged ≠ some operatorPlan.id := by
  rintro rfl
  have hknown : ∀ a plan, s₀.evmActivePlan cfg.backend a = some plan → s₀.Known plan.id :=
    fun a plan h =>
      hwf.known_of_active (Option.isSome_of_eq_some (hwf.evmActivePlan_active h))
  have horigin := ht.evmPlan_origin hwf hoperator
  cases hcharged with
  | inl hevm =>
    obtain ⟨plan, hplan, hid⟩ := hevm
    have hid : operatorPlan.id = plan.id := Option.some.inj hid
    cases ht.evmPlan_origin hwf hplan with
    | inl hold =>
      cases horigin with
      | inl hown => exact hapart _ _ hown (by rw [hold, Option.some_or]) hid
      | inr hnew => exact hnew.1 (hid ▸ hknown _ _ hold)
    | inr hnew =>
      cases horigin with
      | inl hown => exact hnew.1 (hid ▸ hknown _ _ hown)
      | inr hnewOwn =>
        -- both plans are new, and only the operator's is an operator plan
        have hplans : plan = operatorPlan := by
          have hactive := ht.wf.evmActivePlan_active hplan
          rw [← hid, ht.wf.evmActivePlan_active hoperator] at hactive
          exact (Option.some.inj hactive).symm
        have hsame := hnew.2.mp (hplans ▸ hnewOwn.2.mpr rfl)
        cases hcaller with
        | inl hempty => simp [LimiterState.evmActivePlan, hempty] at hplan
        | inr hne => exact hne hsame
  | inr hip =>
    obtain ⟨hnone, hid, _⟩ := hip
    obtain ⟨plan, hplan, hid⟩ := Option.map_eq_some_iff.mp hid.symm
    cases horigin with
    | inl hown => exact hapart _ _ hown (by rw [hnone, hplan, Option.none_or]) hid.symm
    | inr hnew =>
      have hactive := Option.isSome_of_eq_some (hwf.ipActivePlan_active hplan)
      exact hnew.1 (hid ▸ hwf.known_of_active hactive)

end Pool

section Ledger

variable {ι : Type} [Fintype ι] {b : CacheBackend} {s t : LimiterState}

private theorem sum_expenseCredit (operatorPlan : PlanId) (charged : ι → Option PlanId)
    (cost : ι → ℕ) (id : PlanId) :
    (∑ i, expenseCredit operatorPlan (charged i) (cost i)) id =
      ((if id = operatorPlan then ∑ i, cost i else 0) +
        ∑ i with charged i = some id, cost i : ℕ) := by
  have hown : ∑ i, (Pi.single operatorPlan (cost i : ℤ) : PlanId → ℤ) id =
      ((if id = operatorPlan then ∑ i, cost i else 0 : ℕ) : ℤ) := by
    by_cases hid : id = operatorPlan
    · simp [hid]
    · simp [hid]
  have hcallers : ∑ i, (charged i).elim 0 (fun p => (Pi.single p (cost i : ℤ) : PlanId → ℤ)) id =
      ((∑ i with charged i = some id, cost i : ℕ) : ℤ) := by
    rw [Finset.sum_filter, Nat.cast_sum]
    apply Finset.sum_congr rfl
    intro i _
    cases hi : charged i with
    | none => simp
    | some p =>
      by_cases hp : p = id
      · simp [hp]
      · simp [hp, Ne.symm hp]
  rw [Finset.sum_apply, Nat.cast_add, ← hown, ← hcallers, ← Finset.sum_add_distrib]
  rfl

end Ledger

section Runs

variable {ι : Type} [Fintype ι] [DecidableEq ι] [Nonempty ι] {cfg : LimiterConfig}
  {s₀ : LimiterState} {calls : ι → Expense}

omit [Nonempty ι] in
private theorem bookedSpent_of_run {events : List (PoolEvent ι Unit ℕ)}
    {pool : Pool ι CacheOp CacheOp.Reply (Except HbarLimiterError Unit) LimiterState CallRecord}
    (hok : Along (limiterProtocol cfg.backend).step (limiterContract cfg s₀).Permits
      (expensePool cfg s₀ calls) events)
    (hrun : exec (limiterProtocol cfg.backend).step (expensePool cfg s₀ calls) events = some pool) :
    bookedSpent cfg.backend pool.shared - bookedSpent cfg.backend s₀ =
      ∑ i, (pool.ghost i).credit := by
  have hsum := @Protocol.value_of_run ι CacheOp CacheOp.Reply Unit ℕ LimiterState CallRecord
    (Except HbarLimiterError Unit) _ (limiterProtocol cfg.backend) (PlanId → ℤ) _ _
    (bookedSpent cfg.backend) CallRecord.credit (limiterContract cfg s₀).Permits ?_ ?_ _ _ _
    hok hrun
  · exact hsum.trans (Finset.sum_congr rfl fun i _ => sub_zero _)
  · intro op c s r t l hact
    obtain rfl : (handle cfg.backend op s).2 = t := (Prod.ext_iff.mp (Option.some.inj hact)).2
    rfl
  · intro p ms t hperm ht
    obtain rfl : p.shared.advance ms = t := Option.some.inj ht
    funext id
    have hkeep : NoExpiry cfg.backend ms p.shared := hperm
    simp only [bookedSpent, LimiterState.spent]
    rw [hkeep (.amountSpent id)]

/-- No expense is lost as long as no call writes over a value that another call has changed
since it was read: once all calls have ended, the operator's plan has grown by all costs and
every other plan by the costs that were charged to it for its callers. -/
theorem expenses_all_booked (hwf : WellFormed cfg.backend s₀) (henabled : isEnabled cfg)
    (hcallers : ∀ i, (calls i).evmAddress = "" ∨
      ¬ SameAddress (calls i).evmAddress cfg.operatorAddress)
    (hapart : ∀ i o c, s₀.evmActivePlan cfg.backend cfg.operatorAddress = some o →
      (s₀.evmActivePlan cfg.backend (calls i).evmAddress).or
        (s₀.ipActivePlan cfg.backend (calls i).ipAddress) = some c → o.id ≠ c.id)
    {events : List (PoolEvent ι Unit ℕ)}
    {pool : Pool ι CacheOp CacheOp.Reply (Except HbarLimiterError Unit) LimiterState CallRecord}
    (hok : Along (limiterProtocol cfg.backend).step (limiterContract cfg s₀).Permits
      (expensePool cfg s₀ calls) events)
    (hrun : exec (limiterProtocol cfg.backend).step (expensePool cfg s₀ calls) events = some pool)
    (hdone : ∀ i, ∃ r, pool.prog i = pure r) :
    ∃ (operatorPlan : HbarSpendingPlan) (charged : ι → Option PlanId),
      pool.shared.evmActivePlan cfg.backend cfg.operatorAddress = some operatorPlan ∧
      (∀ plan, s₀.evmActivePlan cfg.backend cfg.operatorAddress = some plan →
        operatorPlan = plan) ∧
      (∀ i, CallerCharged cfg.backend s₀ pool.shared (calls i).evmAddress (calls i).ipAddress
        (charged i)) ∧
      pool.shared.spent cfg.backend operatorPlan.id =
        s₀.spent cfg.backend operatorPlan.id + ∑ i, (calls i).cost ∧
      ∀ id, id ≠ operatorPlan.id → pool.shared.spent cfg.backend id =
        s₀.spent cfg.backend id + ∑ i with charged i = some id, (calls i).cost := by
  have hverified := expensePool_verified hwf henabled hcallers
  obtain ⟨hverified', hrely⟩ := Protocol.Contract.verified_run hverified hok hrun
  obtain ⟨hgrown, hframe⟩ := hrely (Grown.refl hwf)
  have hpost : ∀ i, ∃ operatorPlan charged,
      pool.shared.evmActivePlan cfg.backend cfg.operatorAddress = some operatorPlan ∧
      CallerCharged cfg.backend s₀ pool.shared (calls i).evmAddress (calls i).ipAddress charged ∧
      (pool.ghost i).credit = expenseCredit operatorPlan.id charged (calls i).cost := by
    intro i
    obtain ⟨r, hr⟩ := hdone i
    exact (Protocol.Contract.post_of_done hverified' hr).2
  choose operatorPlans charged hoperators hcharged hcredits using hpost
  -- all calls have seen the same operator plan
  obtain ⟨i₀⟩ := ‹Nonempty ι›
  have hsame : ∀ i, operatorPlans i = operatorPlans i₀ := fun i =>
    Option.some.inj ((hoperators i).symm.trans (hoperators i₀))
  have hledger : bookedSpent cfg.backend pool.shared - bookedSpent cfg.backend s₀ =
      ∑ i, expenseCredit (operatorPlans i₀).id (charged i) (calls i).cost := by
    refine (bookedSpent_of_run hok hrun).trans (Finset.sum_congr rfl fun i _ => ?_)
    rw [hcredits, hsame]
  have hgrowth : ∀ id, pool.shared.spent cfg.backend id = s₀.spent cfg.backend id +
      ((if id = (operatorPlans i₀).id then ∑ i, (calls i).cost else 0) +
        ∑ i with charged i = some id, (calls i).cost) := by
    intro id
    have hid := congrFun hledger id
    rw [sum_expenseCredit, Pi.sub_apply, bookedSpent, bookedSpent] at hid
    omega
  have hne : ∀ i, charged i ≠ some (operatorPlans i₀).id := fun i =>
    operatorPlan_ne_charged hwf hgrown (hcallers i) (hapart i) (hoperators i₀) (hcharged i)
  refine ⟨operatorPlans i₀, charged, hoperators i₀, fun plan hplan => ?_, hcharged, ?_, ?_⟩
  · exact Option.some.inj ((hoperators i₀).symm.trans (hframe.evmPlan _ _ hplan))
  · rw [hgrowth, if_pos rfl, Finset.filter_false_of_mem fun i _ => hne i]
    simp
  · intro id hid
    rw [hgrowth, if_neg hid, Nat.zero_add]

end Runs

section Examples

/-- The pool starts with an empty cache. -/
def firstPool (b : CacheBackend) (calls : Fin 2 → Expense) :
    Pool (Fin 2) CacheOp CacheOp.Reply (Except HbarLimiterError Unit) LimiterState CallRecord :=
  expensePool (dailyConfig b) (.empty 0 86400000) calls

/-- The first expense has no caller, the second one gets a new plan. -/
def twoExpenses (i : Fin 2) : Expense :=
  if i = 0 then ⟨5, "", ""⟩ else ⟨7, "0xab", "10.0.0.3"⟩

/-- The second call starts when the first one has created and linked the operator's plan, they
take turns, and the second one ends last. -/
def turns : List (PoolEvent (Fin 2) Unit ℕ) :=
  List.replicate 4 (.run 0 ()) ++ (List.replicate 7 [.run 1 (), .run 0 ()]).flatten ++
    List.replicate 12 (.run 1 ())

/-- Both expenses are booked to the operator's plan, and the second one to the caller's. -/
theorem expenses_all_booked_turns :
    ∃ pool operatorPlan callerPlan, exec (limiterProtocol .redisCache).step
        (firstPool .redisCache twoExpenses) turns = some pool ∧
      pool.shared.evmActivePlan .redisCache (dailyConfig .redisCache).operatorAddress =
        some operatorPlan ∧
      pool.shared.evmActivePlan .redisCache "0xab" = some callerPlan ∧
      pool.shared.spent .redisCache operatorPlan.id = 12 ∧
      pool.shared.spent .redisCache callerPlan.id = 7 := by
  let cfg := dailyConfig .redisCache
  let s₀ := LimiterState.empty 0 86400000
  have hok : Along (limiterProtocol .redisCache).step
      (fun pool e => (limiterContract cfg s₀).permitsRun pool e = true)
      (firstPool .redisCache twoExpenses) turns := by
    decide +kernel
  let observe (pool : Pool (Fin 2) CacheOp CacheOp.Reply (Except HbarLimiterError Unit)
      LimiterState CallRecord) :=
    ((pool.prog 0).result, (pool.prog 1).result,
      pool.shared.evmActivePlan .redisCache cfg.operatorAddress,
      pool.shared.evmActivePlan .redisCache "0xab")
  have hended : (exec (limiterProtocol .redisCache).step (firstPool .redisCache twoExpenses)
      turns).map observe = some (some (.ok ()), some (.ok ()),
        some ⟨.generated 0, .operator, 0, true⟩, some ⟨.generated 1, .basic, 0, true⟩) := by
    decide +kernel
  obtain ⟨pool, hrun, hobserved⟩ := Option.map_eq_some_iff.mp hended
  simp only [observe, Prod.mk.injEq] at hobserved
  obtain ⟨hfirst, hsecond, hoperator, hcaller⟩ := hobserved
  have hdone : ∀ i, ∃ r, pool.prog i = pure r := Fin.forall_fin_two.mpr
    ⟨⟨_, Prog.eq_pure_of_result hfirst⟩, ⟨_, Prog.eq_pure_of_result hsecond⟩⟩
  have hne : ¬SameAddress "0xab" cfg.operatorAddress := by
    unfold SameAddress
    decide
  have hbooked := @expenses_all_booked (Fin 2) _ _ _ cfg s₀ twoExpenses
    (WellFormed.empty 0 86400000) rfl (Fin.forall_fin_two.mpr ⟨Or.inl rfl, Or.inr hne⟩)
    (fun _ _ _ h => by cases h) turns pool
    (hok.mono fun _ _ => Protocol.Contract.permits_of_permitsRun) hrun hdone
  obtain ⟨operatorPlan, charged, hoperator', _, hcharged, hspent, hothers⟩ := hbooked
  obtain rfl := Option.some.inj (hoperator.symm.trans hoperator')
  have hnone : charged 0 = none := by
    rcases hcharged 0 with ⟨plan, hplan, _⟩ | ⟨_, hip, _⟩
    · cases hplan
    · exact hip
  have hsome : charged 1 = some (.generated 1) := by
    rcases hcharged 1 with ⟨plan, hplan, hid⟩ | ⟨_, hip, hempty⟩
    · obtain rfl := Option.some.inj (hcaller.symm.trans hplan)
      exact hid
    · exact absurd (hempty hip) (by decide)
  refine ⟨pool, _, _, hrun, hoperator, hcaller, hspent, (hothers _ (by decide)).trans ?_⟩
  simp only [Finset.sum_filter, Fin.sum_univ_two, hnone, hsome]
  decide

/-- Calls without an EVM address and from an unknown IP address. -/
def plainPool (b : CacheBackend) :
    Pool (Fin 2) CacheOp CacheOp.Reply (Except HbarLimiterError Unit) LimiterState CallRecord :=
  firstPool b fun _ => ⟨5, "", ""⟩

/-- A run of two first expenses in which one of them is lost. -/
def FirstExpenseLost (b : CacheBackend) : Prop :=
  ∃ events pool operatorPlan,
    exec (limiterProtocol b).step (plainPool b) events = some pool ∧
      (∀ i, pool.prog i = pure (.ok ())) ∧
      pool.shared.evmActivePlan b (dailyConfig b).operatorAddress = some operatorPlan ∧
      pool.shared.spent b operatorPlan.id ≠
        (LimiterState.empty 0 86400000).spent b operatorPlan.id + (5 + 5)

private theorem firstExpenseLost (b : CacheBackend) : FirstExpenseLost b := by
  let events : List (PoolEvent (Fin 2) Unit ℕ) :=
    .run 0 () :: .run 1 () :: (List.replicate 10 (.run 0 ()) ++ List.replicate 10 (.run 1 ()))
  let observe (pool : Pool (Fin 2) CacheOp CacheOp.Reply (Except HbarLimiterError Unit)
      LimiterState CallRecord) :=
    ((pool.prog 0).result, (pool.prog 1).result,
      pool.shared.evmActivePlan b (dailyConfig b).operatorAddress,
      pool.shared.spent b (.generated 1))
  have hended : (exec (limiterProtocol b).step (plainPool b) events).map observe =
      some (some (.ok ()), some (.ok ()), some ⟨.generated 1, .operator, 0, true⟩, 5) := by
    cases b <;> decide +kernel
  obtain ⟨pool, hrun, hobserved⟩ := Option.map_eq_some_iff.mp hended
  simp only [observe, Prod.mk.injEq] at hobserved
  obtain ⟨hfirst, hsecond, hplan, hspent⟩ := hobserved
  refine ⟨events, pool, _, hrun, ?_, hplan, ?_⟩
  · exact Fin.forall_fin_two.mpr
      ⟨Prog.eq_pure_of_result hfirst, Prog.eq_pure_of_result hsecond⟩
  · rw [hspent]
    cases b <;> decide

/-- Two first expenses that both find no plan for the operator each create one, and the plan
that is linked last has only one of them. -/
theorem first_expenses_lost : FirstExpenseLost .redisCache ∧ FirstExpenseLost .localLRUCache :=
  ⟨firstExpenseLost .redisCache, firstExpenseLost .localLRUCache⟩

end Examples

end JsonRpcRelay.HbarLimiter

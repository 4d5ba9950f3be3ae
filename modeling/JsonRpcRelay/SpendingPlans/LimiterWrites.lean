import JsonRpcRelay.Framework.Discipline
import JsonRpcRelay.SpendingPlans.Effects

/-!
# What the limiter writes

Between two starts only the limiter writes to the entries of the spending plans.  Its calls may
run one beside another, but each of their requests makes at most one of the writes below.
-/

namespace JsonRpcRelay.SpendingPlans

open Framework
open HbarLimiter (CacheOp LimiterConfig LimiterM PlanId SubscriptionTier trim toLowerCase)

section Writes

/-- The plans that the limiter creates have the other tiers. -/
abbrev LimiterTier := { tier : SubscriptionTier // tier ∉ consideredTiers }

inductive LimiterWrite where
  /-- An amount and its deadline, which an increment leaves as it was. -/
  | addToAmountSpent (planId : String) (amount : ℕ) (deadline : Option ℕ)
  /-- An amount that was added to a plan. -/
  | addToPlan (planId suffix : String) (deadline : Option ℕ)
  | resetAmountSpent (planId : String)
  /-- A plan under a random id. -/
  | create (planId : String) (subscriptionTier : LimiterTier) (ttl : ℤ)
  /-- The link to a plan that was created so. -/
  | saveEvmAddress (evmAddress planId : String) (ttl : ℤ)

variable (t : Moment) (cache : Cache)

def LimiterWrite.perform : LimiterWrite → Cache
  | .addToAmountSpent planId amount deadline =>
    cache.insert (.hbarSpendingPlan (planId ++ ":amountSpent")) ⟨.amountSpent amount, deadline⟩
  | .addToPlan planId suffix deadline =>
    cache.insert (.hbarSpendingPlan (planId ++ ":amountSpent")) ⟨.objectText suffix, deadline⟩
  | .resetAmountSpent planId => cache.erase (amountSpentKey planId)
  | .create planId subscriptionTier ttl => SpendingPlans.create t cache subscriptionTier ttl planId
  | .saveEvmAddress evmAddress planId ttl =>
    save t cache .evmAddress { address := evmAddress, planId } ttl

variable {t cache}

theorem WellFormed.perform (h : WellFormed cache) (w : LimiterWrite) :
    WellFormed (w.perform t cache) := by
  cases w with
  | addToAmountSpent planId amount deadline => exact h.insert_plan nofun
  | addToPlan planId suffix deadline => exact h.insert_plan nofun
  | resetAmountSpent planId => exact h.erase _
  | create planId tier ttl =>
    have hplan : ∀ plan, PlanEntry.plan ⟨planId, tier, t.now, true⟩ = .plan plan →
        plan.id = planId ∧ plan.active = true ∧ (plan.subscriptionTier ∈ consideredTiers →
          (if 0 < ttl then some (t.now + ttl.toNat) else none) = none) := by
      intro plan heq
      obtain rfl := PlanEntry.plan.inj heq
      exact ⟨rfl, rfl, fun htier => absurd htier tier.2⟩
    exact h.insert_plan (e := ⟨_, _⟩) hplan
  | saveEvmAddress evmAddress planId ttl => exact h.save .evmAddress _ ttl

end Writes

section Requests

variable (text : PlanId → String)

/-- The writes that a request of the limiter can come down to, whatever is stored.  The ids of
the plans are written as texts. -/
inductive Makes : (op : CacheOp) → op.Reply → LimiterWrite → Prop where
  | set (id amount ttl deadline) :
    Makes (.set (.amountSpent id) amount ttl) () (.addToAmountSpent (text id) amount deadline)
  | setOnPlan (id amount ttl suffix deadline) :
    Makes (.set (.amountSpent id) amount ttl) () (.addToPlan (text id) suffix deadline)
  | incrBy (id amount total deadline) :
    Makes (.incrBy id amount) () (.addToAmountSpent (text id) total deadline)
  | delete (id) : Makes (.delete (.amountSpent id)) () (.resetAmountSpent (text id))
  | setNew (createdAt) (tier : LimiterTier) (ttl id) :
    Makes (.setNew (fun id => { id, subscriptionTier := tier, createdAt, active := true }) ttl) id
      (.create (text id) tier ttl)
  | saveEvmAddress (evmAddress planId ttl) :
    Makes (.set (.evmAddressHbarSpendingPlan (toLowerCase (trim evmAddress)))
      { evmAddress, planId } ttl) () (.saveEvmAddress evmAddress (text planId) ttl)

/-- The request leaves the entries as they are. -/
def Reads : CacheOp → Prop
  | .get _ | .keys _ | .getRemainingTtl _ | .dateNow | .getReset | .setReset _ => True
  | .set .. | .setNew .. | .delete _ | .incrBy .. => False

/-- The plan that a new link leads to. -/
def LimiterWrite.linkedPlan : LimiterWrite → Option String
  | .saveEvmAddress _ planId _ => some planId
  | _ => none

/-- Whether all keys that were listed so far match the pattern that they were listed for, and the
ids that were drawn. -/
structure LimiterStage where
  matching : Prop
  drawn : List PlanId

/-- A request reads, or it makes one of the writes, where new links lead to plans whose ids were
drawn before. -/
def limiterDiscipline : Discipline CacheOp CacheOp.Reply LimiterStage where
  allowed stage op := stage.matching → Reads op ∨
    ∀ reply, ∃ w, Makes text op reply w ∧ ∀ planId ∈ w.linkedPlan, planId ∈ stage.drawn.map text
  next stage op reply :=
    match op, reply with
    | .keys pattern, keys =>
        { stage with matching := stage.matching ∧ ∀ key ∈ keys, pattern key }
    | .setNew .., id => { stage with drawn := id :: stage.drawn }
    | _, _ => stage

def OnlyMakes {α : Type} (x : LimiterM α) : Prop :=
  ∀ stage, (limiterDiscipline text).wp x.run (fun _ _ => True) stage

variable {text} {α β : Type} {x : LimiterM α}

private theorem onlyMakes_pure (a : α) : OnlyMakes text (pure a) := fun _ => trivial

private theorem onlyMakes_throw (e : HbarLimiter.HbarLimiterError) :
    OnlyMakes text (throw e : LimiterM α) := fun _ => trivial

private theorem onlyMakes_read (op : CacheOp) (h : Reads op) :
    OnlyMakes text (HbarLimiter.request op) :=
  fun _ => ⟨fun _ => Or.inl h, fun _ => trivial⟩

private theorem onlyMakes_write {op : CacheOp}
    (h : ∀ reply, ∃ w, Makes text op reply w ∧ w.linkedPlan = none) :
    OnlyMakes text (HbarLimiter.request op) := by
  refine fun _ => ⟨fun _ => Or.inr fun reply => ?_, fun _ => trivial⟩
  obtain ⟨w, hmakes, hnone⟩ := h reply
  exact ⟨w, hmakes, by simp [hnone]⟩

theorem OnlyMakes.bind {f : α → LimiterM β} (hx : OnlyMakes text x)
    (hf : ∀ a, OnlyMakes text (f a)) : OnlyMakes text (x >>= f) := fun matching =>
  Discipline.wp_run_bind (hx matching) (fun a _ _ => hf a _) fun _ _ _ => trivial

theorem OnlyMakes.map {f : α → β} (hx : OnlyMakes text x) : OnlyMakes text (f <$> x) :=
  fun matching => Discipline.wp_run_map (hx matching)

theorem OnlyMakes.tryCatch {f : HbarLimiter.HbarLimiterError → LimiterM α}
    (hx : OnlyMakes text x) (hf : ∀ e, OnlyMakes text (f e)) :
    OnlyMakes text (tryCatch x f) := fun matching =>
  Discipline.wp_run_tryCatch (hx matching) (fun _ _ _ => trivial) fun e _ _ => hf e _

end Requests

section Calls

open HbarLimiter (HbarLimiterError)

variable {text : PlanId → String} {cfg : LimiterConfig}

private theorem onlyMakes_getOrThrow (key : HbarLimiter.CacheKey) (error : HbarLimiterError) :
    OnlyMakes text (HbarLimiter.getOrThrow key error) := by
  refine (onlyMakes_read (.get key) trivial).bind fun value => ?_
  cases value with
  | none => exact onlyMakes_throw error
  | some value => exact onlyMakes_pure value

private theorem onlyMakes_checkExistsAndActive (id : PlanId) :
    OnlyMakes text (HbarLimiter.checkExistsAndActive id) := by
  refine (onlyMakes_getOrThrow _ _).bind fun plan => ?_
  split
  · exact onlyMakes_pure ()
  · exact onlyMakes_throw _

private theorem onlyMakes_getAmountSpent (id : PlanId) :
    OnlyMakes text (HbarLimiter.getAmountSpent id) :=
  (onlyMakes_checkExistsAndActive id).bind fun _ =>
    (onlyMakes_read (.get (.amountSpent id)) trivial).bind fun _ => onlyMakes_pure _

private theorem onlyMakes_findByIdWithDetails (id : PlanId) :
    OnlyMakes text (HbarLimiter.findByIdWithDetails id) :=
  (onlyMakes_getOrThrow _ _).bind fun _ =>
    (onlyMakes_getAmountSpent id).bind fun _ => onlyMakes_pure _

/-- The keys that are deleted were listed. -/
theorem onlyMakes_resetAmountSpentOfAllPlans :
    OnlyMakes text HbarLimiter.resetAmountSpentOfAllPlans := by
  have hdelete {pattern : HbarLimiter.CacheKey → Bool}
      (hpattern : ∀ key, pattern key = true → ∃ id, key = .amountSpent id)
      (keys : List HbarLimiter.CacheKey) : ∀ stage : LimiterStage,
      (stage.matching → ∀ key ∈ keys, pattern key = true) →
      (limiterDiscipline text).wp (keys.forM fun key => do
        let _ ← HbarLimiter.request (.delete key) : LimiterM Unit).run (fun _ _ => True)
        stage := by
    induction keys with
    | nil => exact fun _ _ => trivial
    | cons key keys ih =>
      intro stage hkeys
      have hone : (limiterDiscipline text).wp (HbarLimiter.request (.delete key)).run
          (fun _ stage' => stage' = stage) stage := by
        refine ⟨fun hmatching => Or.inr fun _ => ?_, fun _ => rfl⟩
        obtain ⟨id, rfl⟩ := hpattern key (hkeys hmatching key List.mem_cons_self)
        exact ⟨_, .delete id, nofun⟩
      refine Discipline.wp_run_bind hone (fun _ stage' hstage => ?_) fun _ _ _ => trivial
      rw [hstage]
      exact ih stage fun hmatching k hk => hkeys hmatching k (List.mem_cons_of_mem _ hk)
  intro stage
  refine ⟨fun _ => Or.inl trivial, fun keys => hdelete ?_ keys _ And.right⟩
  intro key hkey
  cases key with
  | amountSpent id => exact ⟨id, rfl⟩
  | hbarSpendingPlan id => cases hkey
  | evmAddressHbarSpendingPlan address => cases hkey
  | ipAddressHbarSpendingPlan address => cases hkey

private theorem onlyMakes_incrBy (b : HbarLimiter.CacheBackend) (id : PlanId) (amount : ℕ) :
    OnlyMakes text (HbarLimiter.incrBy b id amount) := by
  cases b with
  | redisCache =>
    exact (onlyMakes_write (fun _ => ⟨_, .incrBy id amount amount none, rfl⟩)).bind
      fun _ => onlyMakes_pure _
  | localLRUCache =>
    refine (onlyMakes_read (.get (.amountSpent id)) trivial).bind fun value => ?_
    refine (onlyMakes_read (.getRemainingTtl (.amountSpent id)) trivial).bind fun remainingTtl => ?_
    exact (onlyMakes_write (fun _ => ⟨_, .set id _ _ none, rfl⟩)).bind fun _ =>
      onlyMakes_pure _

private theorem onlyMakes_addToAmountSpent (b : HbarLimiter.CacheBackend) (id : PlanId) (amount : ℕ)
    (ttl : ℤ) : OnlyMakes text (HbarLimiter.addToAmountSpent b id amount ttl) := by
  refine (onlyMakes_checkExistsAndActive id).bind fun _ => ?_
  refine (onlyMakes_read (.get (.amountSpent id)) trivial).bind fun amountSpent => ?_
  split
  · exact (onlyMakes_write (fun _ => ⟨_, .set id _ _ none, rfl⟩)).bind fun _ =>
      onlyMakes_pure _
  · exact onlyMakes_incrBy b id amount

private theorem onlyMakes_createSpendingPlanForAddress (evmAddress : String) (tier : LimiterTier) :
    OnlyMakes text (HbarLimiter.createSpendingPlanForAddress cfg evmAddress tier) := by
  unfold HbarLimiter.createSpendingPlanForAddress
  split
  · exact onlyMakes_throw _
  · intro stage
    have hcreate : (limiterDiscipline text).wp
        (HbarLimiter.create tier cfg.limitDuration none).run
        (fun r stage' => ∀ plan, r = .ok plan → plan.id ∈ stage'.drawn) stage := by
      refine ⟨fun _ => Or.inl trivial, fun createdAt => ⟨fun _ => Or.inr fun id => ?_, fun id => ?_⟩⟩
      · exact ⟨_, .setNew createdAt tier _ id, nofun⟩
      · rintro plan ⟨⟩
        exact List.mem_cons_self
    refine Discipline.wp_run_bind hcreate (fun plan stage' hdrawn => ?_) fun _ _ _ => trivial
    refine ⟨fun _ => Or.inr fun _ => ⟨_, .saveEvmAddress evmAddress plan.id _, ?_⟩, fun _ => trivial⟩
    rintro planId ⟨⟩
    exact List.mem_map_of_mem (hdrawn plan rfl)

private theorem onlyMakes_attempt {α : Type} (address : String) {x : LimiterM α}
    (hx : OnlyMakes text x) :
    OnlyMakes text (HbarLimiter.attempt address x) := by
  unfold HbarLimiter.attempt
  split
  · exact onlyMakes_pure none
  · exact hx.map.tryCatch fun _ => onlyMakes_pure none

private theorem onlyMakes_getSpendingPlan (evmAddress ipAddress : String) :
    OnlyMakes text (HbarLimiter.getSpendingPlan evmAddress ipAddress) := by
  refine (onlyMakes_attempt evmAddress ?_).bind fun plan => ?_
  · exact (onlyMakes_getOrThrow _ _).bind fun link => onlyMakes_findByIdWithDetails link.planId
  · cases plan with
    | some plan => exact onlyMakes_pure _
    | none =>
      exact onlyMakes_attempt ipAddress
        ((onlyMakes_getOrThrow _ _).bind fun link => onlyMakes_findByIdWithDetails link.planId)

private theorem onlyMakes_getOperatorSpendingPlan (ipAddress : String) :
    OnlyMakes text (HbarLimiter.getOperatorSpendingPlan cfg ipAddress) := by
  refine (onlyMakes_getSpendingPlan _ _).bind fun plan => ?_
  cases plan with
  | some plan => exact onlyMakes_pure _
  | none => exact onlyMakes_createSpendingPlanForAddress _ ⟨.operator, by decide⟩

private theorem onlyMakes_getRemainingBudget (ipAddress : String) :
    OnlyMakes text (HbarLimiter.getRemainingBudget cfg ipAddress) :=
  ((onlyMakes_getOperatorSpendingPlan ipAddress).bind fun _ => onlyMakes_pure _).tryCatch
    fun _ => onlyMakes_pure _

private theorem onlyMakes_resetLimiter (ipAddress : String) :
    OnlyMakes text (HbarLimiter.resetLimiter cfg ipAddress) := by
  refine onlyMakes_resetAmountSpentOfAllPlans.bind fun _ => ?_
  refine (onlyMakes_getRemainingBudget ipAddress).bind fun _ => ?_
  refine (onlyMakes_read .getReset trivial).bind fun reset => ?_
  refine (onlyMakes_read .dateNow trivial).bind fun now => ?_
  exact (onlyMakes_read (.setReset _) trivial).bind fun _ => onlyMakes_pure _

private theorem onlyMakes_isTotalBudgetExceeded (estimatedTxFee : ℕ) (ipAddress : String) :
    OnlyMakes text (HbarLimiter.isTotalBudgetExceeded cfg estimatedTxFee ipAddress) := by
  refine OnlyMakes.bind (x := HbarLimiter.shouldResetLimiter) ?_ fun shouldReset => ?_
  · exact (onlyMakes_read .dateNow trivial).bind fun _ =>
      (onlyMakes_read .getReset trivial).bind fun _ => onlyMakes_pure _
  · have hrest : OnlyMakes text do
        let remainingBudget ← HbarLimiter.getRemainingBudget cfg ipAddress
        return (remainingBudget ≤ 0 || remainingBudget - estimatedTxFee < 0 : Bool) :=
      (onlyMakes_getRemainingBudget ipAddress).bind fun _ => onlyMakes_pure _
    cases shouldReset with
    | true => exact (onlyMakes_resetLimiter ipAddress).bind fun _ => hrest
    | false => exact (onlyMakes_pure ()).bind fun _ => hrest

theorem shouldLimit_onlyMakes (evmAddress ipAddress : String) (estimatedTxFee : ℕ) :
    OnlyMakes text (HbarLimiter.shouldLimit cfg evmAddress ipAddress estimatedTxFee) := by
  unfold HbarLimiter.shouldLimit
  split
  · exact onlyMakes_pure false
  · refine (onlyMakes_isTotalBudgetExceeded estimatedTxFee ipAddress).bind fun exceeded => ?_
    split
    · exact onlyMakes_pure true
    · split
      · exact onlyMakes_pure false
      · refine (onlyMakes_getSpendingPlan evmAddress ipAddress).bind fun plan => ?_
        cases plan with
        | some plan => exact (onlyMakes_pure plan).bind fun _ => onlyMakes_pure _
        | none =>
          exact (onlyMakes_createSpendingPlanForAddress evmAddress ⟨.basic, by decide⟩).bind
            fun _ => onlyMakes_pure _

theorem addExpense_onlyMakes (cost : ℕ) (evmAddress ipAddress : String) :
    OnlyMakes text (HbarLimiter.addExpense cfg cost evmAddress ipAddress) := by
  unfold HbarLimiter.addExpense
  split
  · exact onlyMakes_pure ()
  · refine (onlyMakes_getOperatorSpendingPlan ipAddress).bind fun operatorPlan => ?_
    refine (onlyMakes_addToAmountSpent _ operatorPlan.id cost _).bind fun _ => ?_
    refine (onlyMakes_getRemainingBudget ipAddress).bind fun _ => ?_
    refine (onlyMakes_getSpendingPlan evmAddress ipAddress).bind fun plan => ?_
    have hadd (plan : HbarLimiter.DetailedHbarSpendingPlan) :
        OnlyMakes text (HbarLimiter.addToAmountSpent cfg.backend plan.id cost cfg.limitDuration) :=
      onlyMakes_addToAmountSpent _ plan.id cost _
    cases plan with
    | some plan =>
      dsimp only
      rw [pure_bind]
      exact hadd plan
    | none =>
      dsimp only
      split
      · rw [pure_bind]
        exact onlyMakes_pure ()
      · refine OnlyMakes.bind (OnlyMakes.map
          (onlyMakes_createSpendingPlanForAddress evmAddress ⟨.basic, by decide⟩)) fun plan => ?_
        cases plan with
        | some plan => exact hadd plan
        | none => exact onlyMakes_pure ()

end Calls

end JsonRpcRelay.SpendingPlans

import JsonRpcRelay.Framework.Schedule
import JsonRpcRelay.SpendingPlans.Effects

/-!
# The stored plans and the configuration

Over all starts of the relay, whatever the limiter writes between them: when the plans that are
stored without expiry are the configured ones, and when a plan keeps the amount that it has
spent.
-/

namespace JsonRpcRelay.SpendingPlans

open Framework
open HbarLimiter (CacheBackend SubscriptionTier)

section Data

def StoredForever (cache : Cache) (plan : HbarSpendingPlan) : Prop :=
  ∃ text, cache.lookup (.hbarSpendingPlan text) = some ⟨.plan plan, none⟩ ∧ plan.active = true

/-- A plan with this id and tier is in the cache. -/
def Stored (t : Moment) (cache : Cache) (id : String) (tier : SubscriptionTier) : Prop :=
  ∃ plan : HbarSpendingPlan, read t cache (planKey id) = some (.plan plan) ∧
    plan.subscriptionTier = tier

/-- The plans that never expire are the configured ones, and those that were there before have
spent what they had spent. -/
structure FollowsConfiguration (t : Moment) (configs : List SpendingPlanConfig)
    (before after : Cache) : Prop where
  plans : ∀ id tier,
    (∃ plan, StoredForever after plan ∧ plan.id = id ∧ plan.subscriptionTier = tier) ↔
      ∃ c ∈ configs, c.id = id ∧ c.subscriptionTier = tier
  amounts : ∀ c ∈ configs, Stored t before c.id c.subscriptionTier →
    amountSpent t after c.id = amountSpent t before c.id

def Configured (configs : List SpendingPlanConfig) (id : String) : Prop := ∃ c ∈ configs, c.id = id

/-- The plans of the other tiers are still configured, those of the considered tiers have kept
their tiers, and the amount of a plan that is kept has the place of no plan that is added or
deleted. -/
structure Startable (t : Moment) (configs : List SpendingPlanConfig) (cache : Cache) : Prop where
  listed : ∀ plan, StoredForever cache plan → plan.subscriptionTier ∉ consideredTiers →
    Configured configs plan.id
  sameTier : ∀ plan, StoredForever cache plan → plan.subscriptionTier ∈ consideredTiers →
    ∀ c ∈ configs, c.id = plan.id → c.subscriptionTier = plan.subscriptionTier
  added_apart : ∀ c ∈ configs, Stored t cache c.id c.subscriptionTier →
    Configured configs (c.id ++ ":amountSpent") → amountSpent t cache c.id = none
  deleted_apart : ∀ c ∈ configs, Stored t cache c.id c.subscriptionTier →
    Considered cache (c.id ++ ":amountSpent") → Configured configs (c.id ++ ":amountSpent")

end Data

section Start

variable {t : Moment} {cache : Cache} {configs : List SpendingPlanConfig}
  {existingPlans : List DetailedHbarSpendingPlan}

private theorem read_congr {cache' : Cache} {key : CacheKey}
    (h : cache'.lookup key = cache.lookup key) :
    read t cache' key = read t cache key := by
  rw [read, read, Store.get, Store.get, h]

private theorem amountSpent_congr {cache' : Cache} {id : String}
    (h : cache'.lookup (.hbarSpendingPlan (id ++ ":amountSpent")) =
      cache.lookup (CacheKey.hbarSpendingPlan (id ++ ":amountSpent"))) :
    amountSpent t cache' id = amountSpent t cache id :=
  congrArg parseAmount (read_congr h)

private theorem amountSpent_of_plan {id : String} {plan : HbarSpendingPlan}
    (h : cache.lookup (.hbarSpendingPlan (id ++ ":amountSpent")) = some ⟨.plan plan, none⟩) :
    amountSpent t cache id = none := by
  have hread : read t cache (amountSpentKey id) = some (.plan plan) := read_of_permanent h
  rw [amountSpent, hread]
  rfl

theorem StoredForever.lookup (hcache : WellFormed cache) {plan : HbarSpendingPlan}
    (h : StoredForever cache plan) :
    cache.lookup (.hbarSpendingPlan plan.id) = some ⟨.plan plan, none⟩ := by
  obtain ⟨text, hlookup, _⟩ := h
  obtain rfl := hcache.plan_id hlookup rfl
  exact hlookup

private theorem Considered.storedForever (hcache : WellFormed cache) {id : String}
    (h : Considered cache id) : ∃ plan, StoredForever cache plan ∧ plan.id = id ∧
      plan.subscriptionTier ∈ consideredTiers := by
  obtain ⟨plan, hlookup, htier⟩ := h
  exact ⟨plan, ⟨id, hlookup, hcache.active hlookup rfl⟩, hcache.plan_id hlookup rfl, htier⟩

private theorem StoredForever.considered_iff (hcache : WellFormed cache) {plan : HbarSpendingPlan}
    (h : StoredForever cache plan) :
    Considered cache plan.id ↔ plan.subscriptionTier ∈ consideredTiers := by
  constructor
  · intro ⟨other, hlookup, htier⟩
    have heq := (h.lookup hcache).symm.trans hlookup
    cases heq
    exact htier
  · intro htier
    exact ⟨plan, h.lookup hcache, htier⟩

private theorem eq_of_id (hdistinct : (configs.map SpendingPlanConfig.id).Nodup)
    {c d : SpendingPlanConfig} (hc : c ∈ configs) (hd : d ∈ configs) (h : c.id = d.id) : c = d :=
  List.inj_on_of_nodup_map hdistinct hc hd h

variable (hcache : WellFormed cache) (hdistinct : (configs.map SpendingPlanConfig.id).Nodup)
  (hexisting : ∀ id, (∃ plan ∈ existingPlans, plan.id = id) ↔ Considered cache id)
include hcache hdistinct hexisting

theorem startable_of_follows
    (h : FollowsConfiguration t configs cache (populated t configs existingPlans cache).2) :
    Startable t configs cache := by
  constructor
  · intro plan hplan htier
    by_contra hnot
    have hconsidered := mt (hplan.considered_iff hcache).mp htier
    have hafter := populated_unlisted (t := t) hexisting hconsidered
      (fun c hc heq => hnot ⟨c, hc, heq⟩)
    obtain ⟨c, hc, hid, _⟩ := (h.plans plan.id plan.subscriptionTier).mp
      ⟨plan, ⟨plan.id, hafter.trans (hplan.lookup hcache), hplan.choose_spec.2⟩, rfl, rfl⟩
    exact hnot ⟨c, hc, hid⟩
  · intro plan hplan htier c hc hid
    have hconsidered : Considered cache c.id := hid ▸ (hplan.considered_iff hcache).mpr htier
    have hafter := populated_kept (t := t) hexisting hconsidered hc
    rw [hid, hplan.lookup hcache] at hafter
    obtain ⟨d, hd, hdid, hdtier⟩ := (h.plans plan.id plan.subscriptionTier).mp
      ⟨plan, ⟨plan.id, hafter, hplan.choose_spec.2⟩, rfl, rfl⟩
    rw [eq_of_id hdistinct hc hd (hid.trans hdid.symm), hdtier]
  · intro c hc hstored ⟨d, hd, hid⟩
    rw [← h.amounts c hc hstored]
    by_cases hconsidered : Considered cache (c.id ++ ":amountSpent")
    · obtain ⟨plan, hlookup, _⟩ := id hconsidered
      rw [← hid] at hconsidered hlookup
      have hafter := populated_kept (t := t) hexisting hconsidered hd
      rw [hlookup, hid] at hafter
      exact amountSpent_of_plan hafter
    · rw [← hid] at hconsidered
      have hafter := populated_added (t := t) hexisting hdistinct hconsidered hd
      rw [hid] at hafter
      exact amountSpent_of_plan hafter
  · intro c hc hstored hconsidered
    by_contra hnot
    have hafter := populated_deleted (t := t) hexisting hconsidered
      (fun d hd heq => hnot ⟨d, hd, heq⟩)
    obtain ⟨plan, hlookup, _⟩ := hconsidered
    have hsame := h.amounts c hc hstored
    rw [amountSpent_of_plan hlookup] at hsame
    have hzero : read t (populated t configs existingPlans cache).2 (amountSpentKey c.id) = none := by
      rw [read, Store.get, amountSpentKey, hafter]
      rfl
    rw [amountSpent, hzero] at hsame
    cases hsame

private theorem Startable.configured_of_after (h : Startable t configs cache)
    {plan : HbarSpendingPlan}
    (hplan : StoredForever (populated t configs existingPlans cache).2 plan) :
    ∃ c ∈ configs, c.id = plan.id ∧ c.subscriptionTier = plan.subscriptionTier := by
  obtain ⟨text, hafter, hactive⟩ := hplan
  by_cases hlisted : Configured configs text
  · obtain ⟨c, hc, hcid⟩ := hlisted
    subst hcid
    by_cases hconsidered : Considered cache c.id
    · rw [populated_kept hexisting hconsidered hc] at hafter
      have hplan : StoredForever cache plan := ⟨c.id, hafter, hactive⟩
      have hcid : plan.id = c.id := hcache.plan_id hafter rfl
      rw [← hcid] at hconsidered
      exact ⟨c, hc, hcid.symm, h.sameTier plan hplan ((hplan.considered_iff hcache).mp hconsidered)
        c hc hcid.symm⟩
    · rw [populated_added hexisting hdistinct hconsidered hc] at hafter
      cases hafter
      exact ⟨c, hc, rfl, rfl⟩
  · have hnot : ∀ c ∈ configs, c.id ≠ text := fun c hc heq => hlisted ⟨c, hc, heq⟩
    by_cases hconsidered : Considered cache text
    · rw [populated_deleted hexisting hconsidered hnot] at hafter
      cases hafter
    · rw [populated_unlisted hexisting hconsidered hnot] at hafter
      have hplan : StoredForever cache plan := ⟨text, hafter, hactive⟩
      have htext : plan.id = text := hcache.plan_id hafter rfl
      rw [← htext] at hconsidered hlisted
      exact absurd (h.listed plan hplan (mt (hplan.considered_iff hcache).mpr hconsidered))
        hlisted

private theorem Startable.after_of_configured (h : Startable t configs cache)
    {c : SpendingPlanConfig} (hc : c ∈ configs) :
    ∃ plan, StoredForever (populated t configs existingPlans cache).2 plan ∧ plan.id = c.id ∧
      plan.subscriptionTier = c.subscriptionTier := by
  by_cases hconsidered : Considered cache c.id
  · have hafter := populated_kept (t := t) hexisting hconsidered hc
    obtain ⟨plan, hplan, hplanId, hplanTier⟩ := hconsidered.storedForever hcache
    have hlookup := hplan.lookup hcache
    rw [hplanId] at hlookup
    refine ⟨plan, ⟨c.id, hafter.trans hlookup, hplan.choose_spec.2⟩, hplanId, ?_⟩
    exact (h.sameTier plan hplan hplanTier c hc hplanId.symm).symm
  · exact ⟨_, ⟨c.id, populated_added hexisting hdistinct hconsidered hc, rfl⟩, rfl, rfl⟩

omit hcache in
private theorem Startable.amountSpent_populated (h : Startable t configs cache)
    {c : SpendingPlanConfig} (hc : c ∈ configs) (hstored : Stored t cache c.id c.subscriptionTier) :
    amountSpent t (populated t configs existingPlans cache).2 c.id = amountSpent t cache c.id := by
  by_cases hlisted : Configured configs (c.id ++ ":amountSpent")
  · rw [h.added_apart c hc hstored hlisted]
    obtain ⟨d, hd, hid⟩ := hlisted
    by_cases hconsidered : Considered cache d.id
    · have hafter := populated_kept (t := t) hexisting hconsidered hd
      obtain ⟨plan, hlookup, _⟩ := hconsidered
      rw [hlookup, hid] at hafter
      exact amountSpent_of_plan hafter
    · have hafter := populated_added (t := t) hexisting hdistinct hconsidered hd
      rw [hid] at hafter
      exact amountSpent_of_plan hafter
  · have hconsidered := mt (h.deleted_apart c hc hstored) hlisted
    exact amountSpent_congr (populated_unlisted hexisting hconsidered
      fun d hd heq => hlisted ⟨d, hd, heq⟩)

theorem follows_of_startable (h : Startable t configs cache) :
    FollowsConfiguration t configs cache (populated t configs existingPlans cache).2 := by
  constructor
  · intro id tier
    constructor
    · intro hafter
      obtain ⟨plan, hplan, hid, htier⟩ := hafter
      obtain ⟨c, hc, hcid, hctier⟩ := h.configured_of_after hcache hdistinct hexisting hplan
      exact ⟨c, hc, hcid.trans hid, hctier.trans htier⟩
    · intro hconfigured
      obtain ⟨c, hc, hid, htier⟩ := hconfigured
      obtain ⟨plan, hplan, hplanId, hplanTier⟩ :=
        h.after_of_configured hcache hdistinct hexisting hc
      exact ⟨plan, hplan, hplanId.trans hid, hplanTier.trans htier⟩
  · intro c hc hstored
    exact h.amountSpent_populated hdistinct hexisting hc hstored

end Start

end JsonRpcRelay.SpendingPlans

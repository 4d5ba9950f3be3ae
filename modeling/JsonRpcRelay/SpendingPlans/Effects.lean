import Mathlib.Data.List.Basic
import JsonRpcRelay.Framework.Traversal
import JsonRpcRelay.SpendingPlans.ConfigService

/-!
# Effects of a start

What the start of the relay does to the entries under each key.  Plans stand under their own ids
and links under their own addresses, and a plan of a supported project or of a partner never
expires.
-/

namespace JsonRpcRelay.SpendingPlans

open Framework
open HbarLimiter (SubscriptionTier)

section Invariant

/-- The tiers that the start looks for among the stored plans. -/
def consideredTiers : List SubscriptionTier := [.extended, .privileged]

structure WellFormed (cache : Cache) : Prop where
  plan_id : ∀ {text e plan}, cache.lookup (.hbarSpendingPlan text) = some e →
    e.value = .plan plan → plan.id = text
  active : ∀ {text e plan}, cache.lookup (.hbarSpendingPlan text) = some e →
    e.value = .plan plan → plan.active = true
  permanent : ∀ {text e plan}, cache.lookup (.hbarSpendingPlan text) = some e →
    e.value = .plan plan → plan.subscriptionTier ∈ consideredTiers → e.deadline = none
  address : ∀ {kind text e}, cache.lookup (.addressHbarSpendingPlan kind text) = some e →
    kind.normalize e.value.address = text

theorem wellFormed_empty : WellFormed (∅ : Cache) where
  plan_id h := by simp at h
  active h := by simp at h
  permanent h := by simp at h
  address h := by simp at h

variable {cache : Cache}

private theorem WellFormed.of_kept {cache' : Cache} (h : WellFormed cache)
    (hkept : ∀ key e, cache'.lookup key = some e → cache.lookup key = some e) :
    WellFormed cache' where
  plan_id he := h.plan_id (hkept _ _ he)
  active he := h.active (hkept _ _ he)
  permanent he := h.permanent (hkept _ _ he)
  address he := h.address (hkept _ _ he)

private theorem lookup_of_erase {key key' : CacheKey} {e : Entry key'.Value}
    (h : (cache.erase key).lookup key' = some e) : cache.lookup key' = some e := by
  by_cases hk : key' = key
  · subst hk
    simp at h
  · rwa [AList.lookup_erase_ne hk] at h

theorem WellFormed.erase (h : WellFormed cache) (key : CacheKey) : WellFormed (cache.erase key) :=
  h.of_kept fun _ _ => lookup_of_erase

private theorem lookup_unlink (ks : List CacheKey) (key : CacheKey) :
    (cache.unlink ks).lookup key = if key ∈ ks then none else cache.lookup key := by
  unfold Store.unlink
  induction ks generalizing cache with
  | nil => rfl
  | cons k ks ih =>
    rw [List.foldl_cons, ih]
    by_cases hk : key = k
    · subst hk
      simp
    · simp [hk, AList.lookup_erase_ne hk]

theorem WellFormed.unlink (h : WellFormed cache) (ks : List CacheKey) :
    WellFormed (cache.unlink ks) := by
  refine h.of_kept fun key e he => ?_
  rw [lookup_unlink] at he
  split at he
  · cases he
  · exact he

theorem WellFormed.insert_plan (h : WellFormed cache) {text : String} {e : Entry PlanEntry}
    (hplan : ∀ plan, e.value = .plan plan → plan.id = text ∧ plan.active = true ∧
      (plan.subscriptionTier ∈ consideredTiers → e.deadline = none)) :
    WellFormed (AList.insert (.hbarSpendingPlan text) e cache) := by
  have hlookup : ∀ {text' e'},
      (AList.insert (.hbarSpendingPlan text) e cache).lookup (.hbarSpendingPlan text') = some e' →
        (text' = text ∧ e' = e) ∨ cache.lookup (.hbarSpendingPlan text') = some e' := by
    intro text' e' he'
    by_cases heq : text' = text
    · subst heq
      rw [AList.lookup_insert] at he'
      exact Or.inl ⟨rfl, (Option.some.inj he').symm⟩
    · rw [AList.lookup_insert_ne (by simpa using heq)] at he'
      exact Or.inr he'
  constructor
  · intro text' e' plan he' hvalue
    rcases hlookup he' with ⟨rfl, rfl⟩ | hold
    · exact (hplan plan hvalue).1
    · exact h.plan_id hold hvalue
  · intro text' e' plan he' hvalue
    rcases hlookup he' with ⟨rfl, rfl⟩ | hold
    · exact (hplan plan hvalue).2.1
    · exact h.active hold hvalue
  · intro text' e' plan he' hvalue
    rcases hlookup he' with ⟨rfl, rfl⟩ | hold
    · exact (hplan plan hvalue).2.2
    · exact h.permanent hold hvalue
  · intro kind text' e' he'
    rw [AList.lookup_insert_ne (by simp)] at he'
    exact h.address he'

private theorem WellFormed.insert_link (h : WellFormed cache) {kind : AddressKind}
    (e : Entry AddressHbarSpendingPlan) : WellFormed
      (AList.insert (.addressHbarSpendingPlan kind (kind.normalize e.value.address)) e cache) := by
  have hlookup : ∀ {text e'}, (AList.insert (.addressHbarSpendingPlan kind
      (kind.normalize e.value.address)) e cache).lookup (.hbarSpendingPlan text) = some e' →
        cache.lookup (.hbarSpendingPlan text) = some e' := by
    intro text e' he'
    rwa [AList.lookup_insert_ne (by simp)] at he'
  constructor
  · exact fun he' => h.plan_id (hlookup he')
  · exact fun he' => h.active (hlookup he')
  · exact fun he' => h.permanent (hlookup he')
  · intro kind' text e' he'
    by_cases heq : CacheKey.addressHbarSpendingPlan kind' text =
        .addressHbarSpendingPlan kind (kind.normalize e.value.address)
    · obtain ⟨rfl, rfl⟩ := CacheKey.addressHbarSpendingPlan.inj heq
      rw [AList.lookup_insert] at he'
      rw [← Option.some.inj he']
    · rw [AList.lookup_insert_ne heq] at he'
      exact h.address he'

end Invariant

section Existing

variable {t : Moment} {cache : Cache} {existingPlans : List DetailedHbarSpendingPlan}
  {id text : String}

/-- A plan that the start finds in the cache. -/
def Considered (cache : Cache) (id : String) : Prop :=
  ∃ plan : HbarSpendingPlan, cache.lookup (.hbarSpendingPlan id) = some ⟨.plan plan, none⟩ ∧
    plan.subscriptionTier ∈ consideredTiers

theorem read_of_permanent {key : CacheKey} {value : key.Value}
    (h : cache.lookup key = some ⟨value, none⟩) : read t cache key = some value := by
  simp [read, Store.get, h, Entry.aliveAt]

theorem mem_keys {key : CacheKey} : key ∈ keys t cache ↔ (read t cache key).isSome :=
  Store.mem_liveKeys

theorem exists_of_read {key : CacheKey} {value : key.Value} (h : read t cache key = some value) :
    ∃ e, cache.lookup key = some e ∧ e.value = value := by
  obtain ⟨e, he, halive⟩ := Option.bind_eq_some_iff.mp h
  obtain ⟨_, hvalue⟩ := Option.ite_none_right_eq_some.mp halive
  exact ⟨e, he, Option.some.inj hvalue⟩

private theorem activePlan?_eq_some {tiers : List SubscriptionTier} {entry : PlanEntry}
    {plan : HbarSpendingPlan} : activePlan? tiers entry = some plan ↔
      entry = .plan plan ∧ plan.subscriptionTier ∈ tiers ∧ plan.active = true := by
  cases entry with
  | plan p =>
    rw [activePlan?, Option.ite_none_right_eq_some, Option.some.injEq]
    constructor
    · intro ⟨hactive, hp⟩
      rw [← hp]
      exact ⟨rfl, hactive⟩
    · intro ⟨hp, hactive⟩
      rw [PlanEntry.plan.inj hp]
      exact ⟨hactive, rfl⟩
  | amountSpent amount => simp [activePlan?]
  | objectText suffix => simp [activePlan?]

private theorem listedPlan?_eq_some (h : WellFormed cache) {key : CacheKey}
    {plan : HbarSpendingPlan} :
    listedPlan? t cache consideredTiers key = some plan ↔ key = planKey plan.id ∧
      cache.lookup (planKey plan.id) = some ⟨.plan plan, none⟩ ∧
        plan.subscriptionTier ∈ consideredTiers := by
  constructor
  · intro hlisted
    cases key with
    | addressHbarSpendingPlan kind text => cases hlisted
    | hbarSpendingPlan text =>
      obtain ⟨entry, hread, hentry⟩ := Option.bind_eq_some_iff.mp hlisted
      obtain ⟨hplan, htier, _⟩ := activePlan?_eq_some.mp hentry
      obtain ⟨⟨value, deadline⟩, hlookup, hvalue⟩ := exists_of_read hread
      have hplan' := hvalue.trans hplan
      have hid := h.plan_id hlookup hplan'
      have hdeadline := h.permanent hlookup hplan' htier
      obtain rfl : value = .plan plan := hplan'
      obtain rfl : deadline = none := hdeadline
      rw [hid]
      exact ⟨rfl, hlookup, htier⟩
  · intro ⟨hkey, hlookup, htier⟩
    rw [hkey]
    have hactive := h.active hlookup rfl
    change (read t cache (planKey plan.id)).bind _ = _
    rw [read_of_permanent hlookup]
    exact activePlan?_eq_some.mpr ⟨rfl, htier, hactive⟩

private theorem findAllActive_ok (h : WellFormed cache) :
    ∃ existingPlans, findAllActiveBySubscriptionTier t cache consideredTiers = .ok existingPlans ∧
      ∀ id, (∃ plan ∈ existingPlans, plan.id = id) ↔ Considered cache id := by
  refine ⟨_, mapM_ok (g := fun plan => ⟨plan, amountSpent t cache plan.id⟩) ?_, ?_⟩
  · intro plan hplan
    obtain ⟨key, _, hlisted⟩ := List.mem_filterMap.mp hplan
    obtain ⟨_, hlookup, _⟩ := (listedPlan?_eq_some h).mp hlisted
    have hactive : checkExistsAndActive t cache plan.id = .ok () := by
      rw [checkExistsAndActive, read_of_permanent hlookup]
      exact if_pos (h.active hlookup rfl)
    rw [getAmountSpent, hactive]
    rfl
  · intro id
    constructor
    · intro ⟨plan, hplan, hid⟩
      obtain ⟨p, hp, hdetailed⟩ := List.mem_map.mp hplan
      obtain ⟨key, _, hlisted⟩ := List.mem_filterMap.mp hp
      obtain ⟨_, hlookup, htier⟩ := (listedPlan?_eq_some h).mp hlisted
      subst hdetailed hid
      exact ⟨p, hlookup, htier⟩
    · intro ⟨plan, hlookup, htier⟩
      have hid : plan.id = id := h.plan_id hlookup rfl
      subst hid
      refine ⟨_, List.mem_map_of_mem (List.mem_filterMap.mpr ⟨planKey plan.id, ?_,
        (listedPlan?_eq_some h).mpr ⟨rfl, hlookup, htier⟩⟩), rfl⟩
      have hread : read t cache (planKey plan.id) = some (.plan plan) := read_of_permanent hlookup
      rw [mem_keys, hread]
      rfl

end Existing

section Plans

variable {t : Moment} {cache : Cache} {text : String}

/-- The entries of the collection of plans stay as they are. -/
def SamePlans (cache cache' : Cache) : Prop :=
  ∀ text, cache'.lookup (.hbarSpendingPlan text) = cache.lookup (.hbarSpendingPlan text)

theorem lookup_deleteAllByPlanId (kind : AddressKind) (planId : String) (key : CacheKey) :
    (deleteAllByPlanId t cache kind planId).lookup key =
      if (linkOf? t cache kind planId key).isSome then none else cache.lookup key := by
  have hmem : key ∈ (keys t cache).filter (fun k => (linkOf? t cache kind planId k).isSome) ↔
      (linkOf? t cache kind planId key).isSome = true := by
    rw [List.mem_filter, mem_keys, and_iff_right_iff_imp]
    intro hlink
    cases key with
    | hbarSpendingPlan text => simp [linkOf?] at hlink
    | addressHbarSpendingPlan kind' text =>
      rw [linkOf?] at hlink
      split at hlink
      · obtain ⟨link, hfilter⟩ := Option.isSome_iff_exists.mp hlink
        rw [(Option.filter_eq_some_iff.mp hfilter).1]
        rfl
      · cases hlink
  rw [deleteAllByPlanId, lookup_unlink]
  simp only [hmem]

private theorem samePlans_deleteAllByPlanId (kind : AddressKind) (planId : String) :
    SamePlans cache (deleteAllByPlanId t cache kind planId) := by
  intro text
  rw [lookup_deleteAllByPlanId]
  rfl

theorem SamePlans.trans {cache' cache'' : Cache} (h : SamePlans cache cache')
    (h' : SamePlans cache' cache'') : SamePlans cache cache'' :=
  fun text => (h' text).trans (h text)

theorem SamePlans.foldl {α : Type} {f : Cache → α → Cache} (hf : ∀ cache a, SamePlans cache (f cache a))
    (l : List α) (cache : Cache) : SamePlans cache (l.foldl f cache) := by
  induction l generalizing cache with
  | nil => exact fun _ => rfl
  | cons a l ih => exact (hf cache a).trans (ih (f cache a))

private theorem samePlans_deleteAddress (kind : AddressKind) (address : String) :
    SamePlans cache (deleteAddress cache kind address) :=
  fun _ => AList.lookup_erase_ne (by simp [addressKey])

private theorem samePlans_save (kind : AddressKind) (link : AddressHbarSpendingPlan) (ttl : ℤ) :
    SamePlans cache (save t cache kind link ttl) :=
  fun _ => AList.lookup_insert_ne (by simp)

private theorem samePlans_deleteObsoleteAssociations (kind : AddressKind)
    (planConfig : SpendingPlanConfig) (cache : Cache) :
    SamePlans cache (deleteObsoleteAssociations t kind planConfig cache) := by
  refine SamePlans.foldl (fun cache address => ?_) _ _
  rw [deleteObsoleteAssociation]
  split
  · split
    · exact samePlans_deleteAddress kind address
    · exact fun _ => rfl
  · exact fun _ => rfl

private theorem samePlans_updateAssociations (kind : AddressKind) (planConfig : SpendingPlanConfig)
    (cache : Cache) : SamePlans cache (updateAssociations t kind planConfig cache) :=
  (SamePlans.foldl (fun _ => samePlans_deleteAddress kind) _ _).trans
    (SamePlans.foldl (fun _ _ => samePlans_save kind _ _) _ _)

private theorem samePlans_updatePlanAssociations (configs : List SpendingPlanConfig)
    (cache : Cache) :
    SamePlans cache (updatePlanAssociations t cache configs) :=
  SamePlans.foldl (fun _ planConfig =>
    (((samePlans_deleteObsoleteAssociations _ planConfig _).trans
      (samePlans_deleteObsoleteAssociations _ planConfig _)).trans
      (samePlans_updateAssociations _ planConfig _)).trans
      (samePlans_updateAssociations _ planConfig _)) _ _

private theorem lookup_deletePlan (id text : String) :
    (deletePlan t cache id).lookup (.hbarSpendingPlan text) =
      if text = id then none else cache.lookup (.hbarSpendingPlan text) := by
  rw [deletePlan, samePlans_deleteAllByPlanId, samePlans_deleteAllByPlanId, delete, planKey]
  split
  · next heq => rw [heq, AList.lookup_erase]
  · next hne => exact AList.lookup_erase_ne (by simpa using hne)

private theorem lookup_deletePlans (plans : List DetailedHbarSpendingPlan) (cache : Cache)
    (text : String) :
    (plans.foldl (fun cache plan => deletePlan t cache plan.id) cache).lookup
        (.hbarSpendingPlan text) =
      if ∃ plan ∈ plans, plan.id = text then none else cache.lookup (.hbarSpendingPlan text) := by
  induction plans generalizing cache with
  | nil => simp
  | cons plan plans ih =>
    rw [List.foldl_cons, ih, lookup_deletePlan]
    by_cases htext : text = plan.id
    · simp [htext]
    · simp [htext, Ne.symm htext]

/-- The entry of a plan that is added at a start. -/
def addedEntry (t : Moment) (planConfig : SpendingPlanConfig) : Entry PlanEntry where
  value := .plan { id := planConfig.id, subscriptionTier := planConfig.subscriptionTier
                   createdAt := t.now, active := true }
  deadline := none

private theorem lookup_create (planConfig : SpendingPlanConfig) (text : String) :
    (create t cache planConfig.subscriptionTier TTL planConfig.id).lookup
        (.hbarSpendingPlan text) =
      if text = planConfig.id then some (addedEntry t planConfig)
      else cache.lookup (CacheKey.hbarSpendingPlan text) := by
  split
  · next heq =>
    rw [heq]
    exact AList.lookup_insert _
  · next hne => exact AList.lookup_insert_ne (by simpa [planKey] using hne)

private theorem lookup_addPlans_of_ne {configs : List SpendingPlanConfig}
    (h : ∀ c ∈ configs, c.id ≠ text) (cache : Cache) :
    (configs.foldl (fun cache spc => create t cache spc.subscriptionTier TTL spc.id) cache).lookup
      (.hbarSpendingPlan text) = cache.lookup (.hbarSpendingPlan text) := by
  induction configs generalizing cache with
  | nil => rfl
  | cons c configs ih =>
    obtain ⟨hc, hconfigs⟩ := List.forall_mem_cons.mp h
    rw [List.foldl_cons, ih hconfigs, lookup_create, if_neg (Ne.symm hc)]

private theorem lookup_addPlans_of_mem {configs : List SpendingPlanConfig}
    (hdistinct : (configs.map SpendingPlanConfig.id).Nodup) {c : SpendingPlanConfig}
    (hc : c ∈ configs) (cache : Cache) :
    (configs.foldl (fun cache spc => create t cache spc.subscriptionTier TTL spc.id) cache).lookup
      (.hbarSpendingPlan c.id) = some (addedEntry t c) := by
  induction configs generalizing cache with
  | nil => cases hc
  | cons d configs ih =>
    rw [List.map_cons, List.nodup_cons] at hdistinct
    rw [List.foldl_cons]
    rcases List.mem_cons.mp hc with heq | hmem
    · have hother : ∀ c' ∈ configs, c'.id ≠ c.id := by
        intro c' hc' heq'
        exact hdistinct.1 (List.mem_map.mpr ⟨c', hc', heq'.trans (congrArg _ heq)⟩)
      rw [lookup_addPlans_of_ne hother, lookup_create, heq, if_pos rfl]
    · exact ih hdistinct.2 hmem _

section Populated

variable {existingPlans : List DetailedHbarSpendingPlan} {configs : List SpendingPlanConfig}
  {c : SpendingPlanConfig}

theorem mem_plansToDelete : (∃ plan ∈ plansToDelete existingPlans configs, plan.id = text) ↔
    (∃ plan ∈ existingPlans, plan.id = text) ∧ ∀ c ∈ configs, c.id ≠ text := by
  simp only [plansToDelete, List.mem_filter, Bool.not_eq_true', List.any_eq_false,
    decide_eq_true_eq]
  constructor
  · intro ⟨plan, ⟨hplan, hnot⟩, hid⟩
    exact ⟨⟨plan, hplan, hid⟩, fun c hc heq => hnot c hc (heq.trans hid.symm)⟩
  · intro ⟨⟨plan, hplan, hid⟩, hnot⟩
    exact ⟨plan, ⟨hplan, fun c hc heq => hnot c hc (heq.trans hid)⟩, hid⟩

private theorem mem_plansToAdd : c ∈ plansToAdd configs existingPlans ↔
    c ∈ configs ∧ ¬∃ plan ∈ existingPlans, plan.id = c.id := by
  simp [plansToAdd]

private theorem populated_lookup (text : String) :
    (populated t configs existingPlans cache).2.lookup (.hbarSpendingPlan text) =
      ((plansToAdd configs existingPlans).foldl
        (fun cache spc => create t cache spc.subscriptionTier TTL spc.id)
        (deleteObsoletePlans t cache existingPlans configs)).lookup (.hbarSpendingPlan text) :=
  samePlans_updatePlanAssociations configs _ text

variable (hexisting : ∀ id, (∃ plan ∈ existingPlans, plan.id = id) ↔ Considered cache id)
include hexisting

/-- The entries of plans in front of the additions. -/
theorem lookup_deleteObsoletePlans (text : String) :
    (Considered cache text → (∀ c ∈ configs, c.id ≠ text) →
      (deleteObsoletePlans t cache existingPlans configs).lookup (.hbarSpendingPlan text) = none) ∧
    (¬(Considered cache text ∧ ∀ c ∈ configs, c.id ≠ text) →
      (deleteObsoletePlans t cache existingPlans configs).lookup (.hbarSpendingPlan text) =
        cache.lookup (.hbarSpendingPlan text)) := by
  have hdelete : (∃ plan ∈ plansToDelete existingPlans configs, plan.id = text) ↔
      Considered cache text ∧ ∀ c ∈ configs, c.id ≠ text := by
    rw [mem_plansToDelete, hexisting]
  rw [deleteObsoletePlans, lookup_deletePlans]
  constructor
  · intro hconsidered hnot
    rw [if_pos (hdelete.mpr ⟨hconsidered, hnot⟩)]
  · intro hkept
    rw [if_neg (mt hdelete.mp hkept)]

theorem populated_deleted (hconsidered : Considered cache text)
    (hnot : ∀ c ∈ configs, c.id ≠ text) :
    (populated t configs existingPlans cache).2.lookup (.hbarSpendingPlan text) = none := by
  rw [populated_lookup, lookup_addPlans_of_ne
    (fun c hc => hnot c (mem_plansToAdd.mp hc).1)]
  exact (lookup_deleteObsoletePlans hexisting text).1 hconsidered hnot

theorem populated_unlisted (hconsidered : ¬Considered cache text)
    (hnot : ∀ c ∈ configs, c.id ≠ text) :
    (populated t configs existingPlans cache).2.lookup (.hbarSpendingPlan text) =
      cache.lookup (.hbarSpendingPlan text) := by
  rw [populated_lookup, lookup_addPlans_of_ne
    (fun c hc => hnot c (mem_plansToAdd.mp hc).1)]
  exact (lookup_deleteObsoletePlans hexisting text).2 fun h => hconsidered h.1

theorem populated_kept (hconsidered : Considered cache c.id) (hc : c ∈ configs) :
    (populated t configs existingPlans cache).2.lookup (.hbarSpendingPlan c.id) =
      cache.lookup (.hbarSpendingPlan c.id) := by
  rw [populated_lookup, lookup_addPlans_of_ne]
  · exact (lookup_deleteObsoletePlans hexisting c.id).2 fun h => h.2 c hc rfl
  · intro d hd heq
    have hnot := (mem_plansToAdd.mp hd).2
    rw [hexisting, heq] at hnot
    exact hnot hconsidered

theorem populated_added (hdistinct : (configs.map SpendingPlanConfig.id).Nodup)
    (hconsidered : ¬Considered cache c.id) (hc : c ∈ configs) :
    (populated t configs existingPlans cache).2.lookup (.hbarSpendingPlan c.id) =
      some (addedEntry t c) := by
  rw [populated_lookup]
  refine lookup_addPlans_of_mem (hdistinct.sublist (List.filter_sublist.map _)) ?_ _
  exact mem_plansToAdd.mpr ⟨hc, by rwa [hexisting]⟩

end Populated

end Plans

section Population

variable {t : Moment} {cache : Cache} {configs : List SpendingPlanConfig}

theorem WellFormed.foldl {α : Type} {f : Cache → α → Cache}
    (hf : ∀ cache a, WellFormed cache → WellFormed (f cache a)) (l : List α)
    (h : WellFormed cache) : WellFormed (l.foldl f cache) := by
  induction l generalizing cache with
  | nil => exact h
  | cons a l ih => exact ih (hf cache a h)

theorem WellFormed.deletePlan (h : WellFormed cache) (id : String) :
    WellFormed (deletePlan t cache id) :=
  ((h.erase (planKey id)).unlink _).unlink _

theorem WellFormed.create (h : WellFormed cache) (planConfig : SpendingPlanConfig) :
    WellFormed (create t cache planConfig.subscriptionTier TTL planConfig.id) := by
  refine h.insert_plan (e := addedEntry t planConfig) fun plan hplan => ?_
  obtain rfl := PlanEntry.plan.inj hplan
  exact ⟨rfl, rfl, fun _ => rfl⟩

theorem WellFormed.save (h : WellFormed cache) (kind : AddressKind)
    (link : AddressHbarSpendingPlan) (ttl : ℤ) : WellFormed (save t cache kind link ttl) :=
  h.insert_link ⟨link, if 0 < ttl then some (t.now + ttl.toNat) else none⟩

theorem WellFormed.deleteObsoleteAssociations (h : WellFormed cache) (kind : AddressKind)
    (planConfig : SpendingPlanConfig) :
    WellFormed (deleteObsoleteAssociations t kind planConfig cache) := by
  refine h.foldl (fun cache address h => ?_) _
  rw [deleteObsoleteAssociation]
  split
  · split
    · exact h.erase _
    · exact h
  · exact h

theorem WellFormed.updateAssociations (h : WellFormed cache) (kind : AddressKind)
    (planConfig : SpendingPlanConfig) : WellFormed (updateAssociations t kind planConfig cache) :=
  (h.foldl (fun _ _ h => h.erase _) _).foldl (fun _ _ h => h.save kind _ _) _

theorem wellFormed_populated (h : WellFormed cache)
    (existingPlans : List DetailedHbarSpendingPlan) :
    WellFormed (populated t configs existingPlans cache).2 := by
  have hdeleted : WellFormed (deleteObsoletePlans t cache existingPlans configs) :=
    h.foldl (fun _ plan h => h.deletePlan plan.id) _
  have hadded : WellFormed (addNewPlans t (deleteObsoletePlans t cache existingPlans configs)
      configs existingPlans) := hdeleted.foldl (fun _ spc h => h.create spc) _
  refine hadded.foldl (fun cache planConfig h => ?_) configs
  exact (((h.deleteObsoleteAssociations .evmAddress planConfig).deleteObsoleteAssociations
    .ipAddress planConfig).updateAssociations .evmAddress planConfig).updateAssociations
      .ipAddress planConfig

private theorem validate_ok_iff : validateSpendingPlanConfig configs = .ok () ↔
    ∀ c ∈ configs, isValidSpendingPlanConfig c = true := by
  constructor
  · intro h c hc
    have hcheck := forM_ok h c hc
    by_contra hinvalid
    rw [if_neg hinvalid] at hcheck
    cases hcheck
  · intro h
    induction configs with
    | nil => rfl
    | cons c configs ih =>
      obtain ⟨hc, hconfigs⟩ := List.forall_mem_cons.mp h
      have hrest := ih hconfigs
      rw [validateSpendingPlanConfig] at hrest ⊢
      rw [List.forM_eq_forM, List.forM_cons, if_pos hc]
      exact hrest

/-- The start ends with the stored plans of the considered tiers taken into account. -/
theorem populate_ok (h : WellFormed cache) (hne : configs ≠ [])
    (hvalid : ∀ c ∈ configs, isValidSpendingPlanConfig c = true) :
    ∃ existingPlans, (∀ id, (∃ plan ∈ existingPlans, plan.id = id) ↔ Considered cache id) ∧
      populatePreconfiguredSpendingPlans t configs cache =
        .ok (populated t configs existingPlans cache) := by
  obtain ⟨existingPlans, hfind, hexisting⟩ := findAllActive_ok (t := t) h
  refine ⟨existingPlans, hexisting, ?_⟩
  rw [populatePreconfiguredSpendingPlans, if_neg hne, validate_ok_iff.mpr hvalid]
  change (findAllActiveBySubscriptionTier t cache consideredTiers >>= fun existingPlans =>
    Pure.pure (populated t configs existingPlans cache)) = _
  rw [hfind]
  rfl

private theorem populate_cases {n : ℕ} {cache' : Cache}
    (hok : populatePreconfiguredSpendingPlans t configs cache = .ok (n, cache')) :
    (configs = [] ∧ cache' = cache) ∨ (∀ c ∈ configs, isValidSpendingPlanConfig c = true) ∧
      ∃ existingPlans, cache' = (populated t configs existingPlans cache).2 := by
  rw [populatePreconfiguredSpendingPlans] at hok
  split at hok
  · rename_i hnil
    cases hok
    exact Or.inl ⟨hnil, rfl⟩
  · obtain ⟨_, hvalid, hrest⟩ := exists_of_bind_ok hok
    obtain ⟨existingPlans, _, hpopulated⟩ := exists_of_bind_ok hrest
    have hcache := congrArg Prod.snd (Except.ok.inj hpopulated)
    exact Or.inr ⟨validate_ok_iff.mp hvalid, existingPlans, hcache.symm⟩

theorem wellFormed_populate (h : WellFormed cache) {n : ℕ} {cache' : Cache}
    (hok : populatePreconfiguredSpendingPlans t configs cache = .ok (n, cache')) :
    WellFormed cache' := by
  rcases populate_cases hok with ⟨_, rfl⟩ | ⟨_, existingPlans, rfl⟩
  · exact h
  · exact wellFormed_populated h existingPlans

end Population

end JsonRpcRelay.SpendingPlans

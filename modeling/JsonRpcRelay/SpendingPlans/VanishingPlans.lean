import JsonRpcRelay.Framework.Traversal
import JsonRpcRelay.SpendingPlans.Repositories

/-!
# Plans that vanish while they are listed

`findAllActiveBySubscriptionTier` lists the keys of the collection, reads all of them, and then asks
for the amount of each plan that it keeps, which reads the plan once more.  Entries expire or are
deleted all the while.
-/

namespace JsonRpcRelay.SpendingPlans

open Framework
open HbarLimiter (CacheBackend SubscriptionTier)

section Data

/-- What stands under a key of the collection: a value, or the list of a `spendingHistory`. -/
inductive StoredValue where
  | value (entry : PlanEntry)
  | list
  deriving DecidableEq

/-- The plan is kept by `tiers.includes(plan.subscriptionTier) && plan.active`. -/
def StoredValue.activePlan? (tiers : List SubscriptionTier) :
    StoredValue → Option HbarSpendingPlan
  | .value entry => SpendingPlans.activePlan? tiers entry
  | .list => none

def StoredValue.isActive : StoredValue → Bool
  | .value entry => entry.isActive
  | .list => false

/-- `parseInt(amountSpent ?? '0')`; the text of a list does not start with a digit. -/
def StoredValue.parseAmount : Option StoredValue → Option ℕ
  | none => SpendingPlans.parseAmount none
  | some (.value entry) => SpendingPlans.parseAmount (some entry)
  | some .list => none

inductive ListingError where
  | spendingPlan (error : SpendingPlanError)
  /-- `Cannot read properties of null (reading 'subscriptionTier')` -/
  | typeError
  /-- The answer of Redis to a `GET` of a list. -/
  | wrongType
  deriving DecidableEq

/-- The entries at the moment of the listing, when each of them vanishes, and when each is read: a
key of the listing, the plan of that key once more, and the amount of that plan.  No plan is read
again before all keys have been read. -/
structure PlanListing where
  backend : CacheBackend
  listed : List String
  content : String → Option StoredValue
  mem_listed : ∀ text, text ∈ listed ↔ (content text).isSome
  vanishes : String → Option ℕ
  readAt : String → ℕ
  checkedAt : String → ℕ
  spentAt : String → ℕ
  read_le_checked : ∀ text text', readAt text ≤ checkedAt text'
  checked_le_spent : ∀ text, checkedAt text ≤ spentAt text

end Data

namespace PlanListing

section Code

variable (l : PlanListing) (tiers : List SubscriptionTier)

/-- What can be read under a key at a moment. -/
def find (now : ℕ) (text : String) : Option StoredValue :=
  if (l.vanishes text).all (now < ·) then l.content text else none

def getAsync (now : ℕ) (text : String) : Except ListingError (Option StoredValue) :=
  if l.backend = .redisCache ∧ l.find now text = some .list then .error .wrongType
  else .ok (l.find now text)

def checkExistsAndActive (now : ℕ) (id : String) : Except ListingError Unit := do
  match ← l.getAsync now id with
  | none | some (.value (.amountSpent 0)) =>
    .error (.spendingPlan (.hbarSpendingPlanNotFound id))
  | some value =>
    if value.isActive then .ok () else .error (.spendingPlan (.hbarSpendingPlanNotActive id))

/-- `getAmountSpent` for the plan that was read under the key of the text. -/
def getAmountSpent (text id : String) : Except ListingError (Option ℕ) := do
  l.checkExistsAndActive (l.checkedAt text) id
  let amountSpent ← l.getAsync (l.spentAt text) (id ++ ":amountSpent")
  return StoredValue.parseAmount amountSpent

/-- The test of the filter, which reads a field of what may be `null`. -/
def keepActive : Option StoredValue → Except ListingError (Option HbarSpendingPlan)
  | none => .error .typeError
  | some value => .ok (value.activePlan? tiers)

def findAllActiveBySubscriptionTier : Except ListingError (List DetailedHbarSpendingPlan) := do
  let plans ← l.listed.mapM fun text => Prod.mk text <$> l.getAsync (l.readAt text) text
  let active ← plans.mapM fun plan => Option.map (Prod.mk plan.1) <$> keepActive tiers plan.2
  active.reduceOption.mapM fun plan => do
    let amountSpent ← l.getAmountSpent plan.1 plan.2.id
    return { plan.2 with amountSpent }

/-- The background update of the average, as far as it can fail. -/
def updateAverageAmountSpentPerSubscriptionTier (tier : SubscriptionTier) :
    Except ListingError Unit := do
  let _ ← l.findAllActiveBySubscriptionTier [tier]
  return

end Code

section Data

variable (l : PlanListing) (tiers : List SubscriptionTier)

/-- The active plans of the tiers that were there when their keys were read. -/
def readPlans : List (String × HbarSpendingPlan) :=
  l.listed.filterMap fun text =>
    ((l.find (l.readAt text) text).bind (StoredValue.activePlan? tiers)).map (Prod.mk text)

/-- Those of them that could still be read, with the amounts that could be read then. -/
def readablePlans : List DetailedHbarSpendingPlan :=
  ((l.readPlans tiers).filter fun plan =>
    (l.find (l.checkedAt plan.1) plan.2.id).any StoredValue.isActive).map fun plan =>
      { plan.2 with
        amountSpent := StoredValue.parseAmount
          (l.find (l.spentAt plan.1) (plan.2.id ++ ":amountSpent")) }

/-- The active plans that could still be read are returned, and the average is updated. -/
def Tolerates : Prop :=
  l.findAllActiveBySubscriptionTier tiers = .ok (l.readablePlans tiers) ∧
    ∀ tier, tiers = [tier] → l.updateAverageAmountSpentPerSubscriptionTier tier = .ok ()

/-- Nothing vanishes before it is read, no list stands among the plans in Redis, and every plan that
is kept can be read under its id once more. -/
structure Undisturbed : Prop where
  read : ∀ text ∈ l.listed, (l.find (l.readAt text) text).isSome
  noList : l.backend = .redisCache → ∀ text, l.content text ≠ some .list
  checked : ∀ plan ∈ l.readPlans tiers, ∃ value,
    l.find (l.checkedAt plan.1) plan.2.id = some value ∧ value.isActive = true

end Data

section Listing

variable {l : PlanListing} {tiers : List SubscriptionTier} {now : ℕ} {text id : String}

private theorem find_eq_some {value : StoredValue} (h : l.find now text = some value) :
    l.content text = some value := (Option.ite_none_right_eq_some.mp h).2

private theorem getAsync_ok (hlist : l.backend = .redisCache → ∀ text, l.content text ≠ some .list)
    (now : ℕ) (text : String) : l.getAsync now text = .ok (l.find now text) :=
  if_neg fun h => hlist h.1 text (find_eq_some h.2)

private theorem eq_find_of_getAsync {found : Option StoredValue}
    (h : l.getAsync now text = .ok found) :
    found = l.find now text := by
  rw [getAsync] at h
  split at h
  · cases h
  · exact (Except.ok.inj h).symm

private theorem checkExistsAndActive_ok_iff (h : l.getAsync now id = .ok (l.find now id)) :
    l.checkExistsAndActive now id = .ok () ↔
      ∃ value, l.find now id = some value ∧ value.isActive = true := by
  rw [checkExistsAndActive, h]
  cases l.find now id with
  | none => simp [bind, Except.bind]
  | some value =>
    cases value with
    | list => simp [bind, Except.bind, StoredValue.isActive]
    | value entry =>
      cases entry with
      | plan plan => simp [bind, Except.bind]
      | objectText suffix => simp [bind, Except.bind]
      | amountSpent amount =>
        cases amount with
        | zero => simp [bind, Except.bind, StoredValue.isActive, PlanEntry.isActive]
        | succ n => simp [bind, Except.bind, StoredValue.isActive, PlanEntry.isActive]

private theorem find_of_checkExistsAndActive (h : l.checkExistsAndActive now id = .ok ()) :
    ∃ value, l.find now id = some value ∧ value.isActive = true := by
  obtain ⟨found, hget, _⟩ := exists_of_bind_ok h
  obtain rfl := eq_find_of_getAsync hget
  exact (checkExistsAndActive_ok_iff hget).mp h

private theorem reduceOption_map_eq (l : PlanListing) (tiers : List SubscriptionTier) :
    (l.listed.map fun text => ((l.find (l.readAt text) text).bind
      (StoredValue.activePlan? tiers)).map (Prod.mk text)).reduceOption = l.readPlans tiers :=
  List.filterMap_map

private theorem mapM_getAsync (h : ∀ text ∈ l.listed, l.getAsync (l.readAt text) text =
      .ok (l.find (l.readAt text) text)) :
    (l.listed.mapM fun text => Prod.mk text <$> l.getAsync (l.readAt text) text) =
      .ok (l.listed.map fun text => (text, l.find (l.readAt text) text)) := by
  refine mapM_ok fun text htext => ?_
  rw [h text htext]
  rfl

private theorem mapM_keepActive (h : ∀ text ∈ l.listed, (l.find (l.readAt text) text).isSome) :
    ((l.listed.map fun text => (text, l.find (l.readAt text) text)).mapM fun plan =>
      Option.map (Prod.mk plan.1) <$> keepActive tiers plan.2) =
        .ok (l.listed.map fun text => ((l.find (l.readAt text) text).bind
          (StoredValue.activePlan? tiers)).map (Prod.mk text)) := by
  rw [mapM_ok (g := fun plan => (plan.2.bind (StoredValue.activePlan? tiers)).map
    (Prod.mk plan.1)), List.map_map]
  · rfl
  · intro plan hplan
    obtain ⟨text, htext, rfl⟩ := List.mem_map.mp hplan
    obtain ⟨value, hvalue⟩ := Option.isSome_iff_exists.mp (h text htext)
    simp only [hvalue]
    rfl

private theorem readablePlans_eq (h : l.Undisturbed tiers) :
    l.readablePlans tiers = (l.readPlans tiers).map fun plan => { plan.2 with
      amountSpent := StoredValue.parseAmount
        (l.find (l.spentAt plan.1) (plan.2.id ++ ":amountSpent")) } := by
  have hfilter : (l.readPlans tiers).filter (fun plan =>
      (l.find (l.checkedAt plan.1) plan.2.id).any StoredValue.isActive) = l.readPlans tiers := by
    rw [List.filter_eq_self]
    intro plan hplan
    obtain ⟨value, hvalue, hactive⟩ := h.checked plan hplan
    rw [hvalue]
    exact hactive
  rw [readablePlans, hfilter]

private theorem findAll_of_undisturbed (h : l.Undisturbed tiers) :
    l.findAllActiveBySubscriptionTier tiers = .ok (l.readablePlans tiers) := by
  have hamounts : ((l.readPlans tiers).mapM fun plan => do
      let amountSpent ← l.getAmountSpent plan.1 plan.2.id
      return ({ plan.2 with amountSpent } : DetailedHbarSpendingPlan)) =
        .ok (l.readablePlans tiers) := by
    rw [readablePlans_eq h]
    refine mapM_ok fun plan hplan => ?_
    have hcheck := (checkExistsAndActive_ok_iff (getAsync_ok h.noList _ _)).mpr
      (h.checked plan hplan)
    rw [getAmountSpent, hcheck, getAsync_ok h.noList]
    rfl
  have hkeep := @mapM_keepActive l tiers h.read
  rw [findAllActiveBySubscriptionTier, mapM_getAsync fun text _ => getAsync_ok h.noList _ text]
  simp only [bind, Except.bind] at hkeep hamounts ⊢
  rw [hkeep]
  simp only [reduceOption_map_eq]
  exact hamounts

private theorem undisturbed_of_findAll {plans : List DetailedHbarSpendingPlan}
    (h : l.findAllActiveBySubscriptionTier tiers = .ok plans) : l.Undisturbed tiers := by
  rw [findAllActiveBySubscriptionTier] at h
  obtain ⟨found, hread, h⟩ := exists_of_bind_ok h
  obtain ⟨active, hkeep, hamounts⟩ := exists_of_bind_ok h
  have hgot : ∀ text ∈ l.listed, l.getAsync (l.readAt text) text =
      .ok (l.find (l.readAt text) text) := by
    intro text htext
    obtain ⟨_, _, hpair⟩ := exists_of_mapM_ok hread htext
    cases hget : l.getAsync (l.readAt text) text with
    | error e =>
      rw [hget] at hpair
      cases hpair
    | ok value => rw [eq_find_of_getAsync hget]
  obtain rfl := Except.ok.inj (hread.symm.trans (mapM_getAsync hgot))
  have hsome : ∀ text ∈ l.listed, (l.find (l.readAt text) text).isSome := by
    intro text htext
    obtain ⟨_, _, hkept⟩ := exists_of_mapM_ok hkeep (List.mem_map_of_mem htext)
    cases hvalue : l.find (l.readAt text) text with
    | none =>
      rw [hvalue] at hkept
      cases hkept
    | some value => rfl
  obtain rfl := Except.ok.inj (hkeep.symm.trans (mapM_keepActive hsome))
  rw [reduceOption_map_eq] at hamounts
  refine ⟨hsome, ?_, ?_⟩
  · intro hredis text hlist
    have htext : text ∈ l.listed := (l.mem_listed text).mpr (by rw [hlist]; rfl)
    obtain ⟨value, hvalue⟩ := Option.isSome_iff_exists.mp (hsome text htext)
    have hstored : l.find (l.readAt text) text = some .list :=
      hvalue.trans ((find_eq_some hvalue).symm.trans hlist)
    have hget := hgot text htext
    rw [getAsync, if_pos ⟨hredis, hstored⟩] at hget
    cases hget
  · intro plan hplan
    obtain ⟨_, _, hamount⟩ := exists_of_mapM_ok hamounts hplan
    obtain ⟨_, hspent, _⟩ := exists_of_bind_ok hamount
    obtain ⟨_, hcheck, _⟩ := exists_of_bind_ok hspent
    exact find_of_checkExistsAndActive hcheck

/-- The listing tolerates what happens to the entries exactly if nothing that it reads vanishes
before it is read, and no list stands among the plans in Redis. -/
theorem listing_tolerates_iff (l : PlanListing) (tiers : List SubscriptionTier) :
    l.Tolerates tiers ↔ l.Undisturbed tiers := by
  constructor
  · exact fun h => undisturbed_of_findAll h.1
  · intro h
    have hok := findAll_of_undisturbed h
    refine ⟨hok, fun tier htier => ?_⟩
    subst htier
    rw [updateAverageAmountSpentPerSubscriptionTier, hok]
    rfl

def onlyPlan (text : String) : Option StoredValue :=
  if text = "p" then some (.value (.plan ⟨"p", .basic, 0, true⟩)) else none

private theorem mem_listed_onlyPlan (text : String) : text ∈ ["p"] ↔ (onlyPlan text).isSome := by
  by_cases htext : text = "p"
  · simp [onlyPlan, htext]
  · simp [onlyPlan, htext]

/-- The only plan that is stored, which vanishes at the given moment; the keys are read at the
moment 1 and the plan once more at the moment 2. -/
def lonePlan (vanishes : ℕ) : PlanListing where
  backend := .redisCache
  listed := ["p"]
  content := onlyPlan
  mem_listed := mem_listed_onlyPlan
  vanishes _ := some vanishes
  readAt _ := 1
  checkedAt _ := 2
  spentAt _ := 2
  read_le_checked _ _ := Nat.le_succ 1
  checked_le_spent _ := le_rfl

/-- A plan that vanishes takes the listing with it, in front of either read. -/
theorem vanished_plan_rejects :
    (lonePlan 1).findAllActiveBySubscriptionTier [.basic] = .error .typeError ∧
      (lonePlan 2).findAllActiveBySubscriptionTier [.basic] =
        .error (.spendingPlan (.hbarSpendingPlanNotFound "p")) ∧
      (lonePlan 1).updateAverageAmountSpentPerSubscriptionTier .basic = .error .typeError ∧
      ¬(lonePlan 1).Tolerates [.basic] ∧ ¬(lonePlan 2).Tolerates [.basic] := by
  refine ⟨rfl, rfl, rfl, ?_, ?_⟩
  · intro h
    cases h.1
  · intro h
    cases h.1

end Listing

end PlanListing

end JsonRpcRelay.SpendingPlans

import JsonRpcRelay.Framework.ExpiringStore
import JsonRpcRelay.HbarLimiter.HbarLimitService

/-!
# The repositories of the spending plans

The entries of the HBAR limiter under the texts of their keys, as the repositories read and write
them.  A plan may stand where the amount of another plan is looked for: the key of the amount
of `x` is that of the plan `x:amountSpent`.  Reads and writes happen at one moment.
-/

namespace JsonRpcRelay.SpendingPlans

open Framework
open HbarLimiter (CacheBackend SubscriptionTier trim toLowerCase)

section Data

inductive AddressKind where
  | evmAddress
  | ipAddress
  deriving DecidableEq

/-- `evmAddress?.trim().toLowerCase()`, and an IP address as it is. -/
def AddressKind.normalize : AddressKind → String → String
  | .evmAddress, address => toLowerCase (trim address)
  | .ipAddress, address => address

/-- A key is the name of a collection, a colon and a text. -/
inductive CacheKey where
  | hbarSpendingPlan (text : String)
  | addressHbarSpendingPlan (kind : AddressKind) (text : String)
  deriving DecidableEq

/-- The kind of the addresses that the collection is about, if it is not that of the plans. -/
def CacheKey.kind? : CacheKey → Option AddressKind
  | .hbarSpendingPlan _ => none
  | .addressHbarSpendingPlan kind _ => some kind

def CacheKey.text : CacheKey → String
  | .hbarSpendingPlan text => text
  | .addressHbarSpendingPlan _ text => text

def collectionKey : Option AddressKind → String
  | none => "hbarSpendingPlan"
  | some .evmAddress => "evmAddressHbarSpendingPlan"
  | some .ipAddress => "ipAddressHbarSpendingPlan"

def CacheKey.toString (key : CacheKey) : String := collectionKey key.kind? ++ ":" ++ key.text

theorem CacheKey.ext_iff {key key' : CacheKey} :
    key = key' ↔ key.kind? = key'.kind? ∧ key.text = key'.text := by
  cases key <;> cases key' <;> simp [CacheKey.kind?, CacheKey.text]

private theorem collectionKey_first {kind kind' : Option AddressKind}
    (h : (collectionKey kind).toList.head? = (collectionKey kind').toList.head?) :
    kind = kind' := by
  rcases kind with _ | _ | _ <;> rcases kind' with _ | _ | _ <;>
    first
    | rfl
    | exact absurd h (by decide +kernel)

theorem CacheKey.toString_inj {key key' : CacheKey} :
    key.toString = key'.toString ↔ key = key' := by
  have hfirst : ∀ k : CacheKey,
      k.toString.toList.head? = (collectionKey k.kind?).toList.head? := by
    intro k
    have hne : (collectionKey k.kind?).toList ≠ [] := by
      rcases k.kind? with _ | _ | _ <;> decide +kernel
    rw [CacheKey.toString, String.toList_append, String.toList_append, List.append_assoc,
      List.head?_append_of_ne_nil _ hne]
  constructor
  · intro h
    have hkind : key.kind? = key'.kind? :=
      collectionKey_first (by rw [← hfirst key, h, hfirst key'])
    rw [CacheKey.toString, CacheKey.toString, hkind] at h
    exact CacheKey.ext_iff.mpr ⟨hkind, (String.append_right_inj _).mp h⟩
  · exact congrArg CacheKey.toString

structure HbarSpendingPlan where
  id : String
  subscriptionTier : SubscriptionTier
  createdAt : ℕ
  active : Bool
  deriving DecidableEq

/-- A plan with the amount that was read beside it, where `NaN` is `none`. -/
structure DetailedHbarSpendingPlan extends HbarSpendingPlan where
  amountSpent : Option ℕ
  deriving DecidableEq

/-- What stands under a key of the collection of plans.  An amount that was added to a plan has
become a text that starts with `[object Object]`. -/
inductive PlanEntry where
  | plan (plan : HbarSpendingPlan)
  | amountSpent (amount : ℕ)
  | objectText (suffix : String)
  deriving DecidableEq

structure AddressHbarSpendingPlan where
  address : String
  planId : String
  deriving DecidableEq

@[reducible] def CacheKey.Value : CacheKey → Type
  | .hbarSpendingPlan _ => PlanEntry
  | .addressHbarSpendingPlan .. => AddressHbarSpendingPlan

abbrev Cache := Store CacheKey CacheKey.Value

structure Moment where
  backend : CacheBackend
  now : ℕ

inductive SpendingPlanError where
  | hbarSpendingPlanNotFound (id : String)
  | hbarSpendingPlanNotActive (id : String)
  | invalidSpendingPlanConfig (id : String)
  deriving DecidableEq

end Data

variable (t : Moment) (cache : Cache)

section Client

/-- `getAsync` of the cache client. -/
def read (key : CacheKey) : Option key.Value := cache.get t.backend.expiry t.now key

def keys : List CacheKey := cache.liveKeys t.backend.expiry t.now

def write (key : CacheKey) (value : key.Value) (ttl : ℤ) : Cache := cache.set t.now key value ttl

end Client

section HbarSpendingPlanRepository

def planKey (id : String) : CacheKey := .hbarSpendingPlan id

def amountSpentKey (id : String) : CacheKey := .hbarSpendingPlan (id ++ ":amountSpent")

def spendingHistoryKey (id : String) : CacheKey := .hbarSpendingPlan (id ++ ":spendingHistory")

/-- The field `active` of what was read, which only a plan has. -/
def PlanEntry.isActive : PlanEntry → Bool
  | .plan p => p.active
  | _ => false

/-- `findById` throws if there is nothing under the key, or the number 0. -/
def checkExistsAndActive (id : String) : Except SpendingPlanError Unit :=
  match read t cache (planKey id) with
  | none | some (.amountSpent 0) => .error (.hbarSpendingPlanNotFound id)
  | some entry => if entry.isActive then .ok () else .error (.hbarSpendingPlanNotActive id)

/-- `parseInt(amountSpent ?? '0')`. -/
def parseAmount : Option PlanEntry → Option ℕ
  | none => some 0
  | some (.amountSpent amount) => some amount
  | some _ => none

/-- The amount that a plan is taken to have spent. -/
def amountSpent (id : String) : Option ℕ := parseAmount (read t cache (amountSpentKey id))

def getAmountSpent (id : String) : Except SpendingPlanError (Option ℕ) := do
  checkExistsAndActive t cache id
  return amountSpent t cache id

/-- `tiers.includes(plan.subscriptionTier) && plan.active`. -/
def activePlan? (tiers : List SubscriptionTier) : PlanEntry → Option HbarSpendingPlan
  | .plan p => if p.subscriptionTier ∈ tiers ∧ p.active then some p else none
  | _ => none

/-- The plan under a key of the collection. -/
def listedPlan? (tiers : List SubscriptionTier) : CacheKey → Option HbarSpendingPlan
  | .hbarSpendingPlan text => (read t cache (.hbarSpendingPlan text)).bind (activePlan? tiers)
  | .addressHbarSpendingPlan .. => none

def findAllActiveBySubscriptionTier (tiers : List SubscriptionTier) :
    Except SpendingPlanError (List DetailedHbarSpendingPlan) :=
  ((keys t cache).filterMap (listedPlan? t cache tiers)).mapM fun plan => do
    let amountSpent ← getAmountSpent t cache plan.id
    return { plan with amountSpent }

def create (subscriptionTier : SubscriptionTier) (ttl : ℤ) (id : String) : Cache :=
  write t cache (planKey id) (.plan { id, subscriptionTier, createdAt := t.now, active := true }) ttl

def delete (id : String) : Cache := cache.erase (planKey id)

end HbarSpendingPlanRepository

section AddressRepositories

variable (kind : AddressKind)

def addressKey (address : String) : CacheKey :=
  .addressHbarSpendingPlan kind (kind.normalize address)

/-- `existsByAddress` and `findByAddress`. -/
def findByAddress (address : String) : Option AddressHbarSpendingPlan :=
  read t cache (.addressHbarSpendingPlan kind (kind.normalize address))

/-- A link of the plan under a key of the collection. -/
def linkOf? (planId : String) : CacheKey → Option AddressHbarSpendingPlan
  | .hbarSpendingPlan _ => none
  | .addressHbarSpendingPlan kind' text =>
    if kind' = kind then
      (read t cache (.addressHbarSpendingPlan kind' text)).filter (·.planId = planId)
    else none

def findAllByPlanId (planId : String) : List AddressHbarSpendingPlan :=
  (keys t cache).filterMap (linkOf? t cache kind planId)

def deleteAllByPlanId (planId : String) : Cache :=
  cache.unlink ((keys t cache).filter fun key => (linkOf? t cache kind planId key).isSome)

def save (addressPlan : AddressHbarSpendingPlan) (ttl : ℤ) : Cache :=
  write t cache (.addressHbarSpendingPlan kind (kind.normalize addressPlan.address)) addressPlan ttl

def deleteAddress (address : String) : Cache := cache.erase (addressKey kind address)

end AddressRepositories

end JsonRpcRelay.SpendingPlans

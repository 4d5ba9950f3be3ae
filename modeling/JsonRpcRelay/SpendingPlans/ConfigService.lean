import JsonRpcRelay.SpendingPlans.Repositories

/-!
# The configuration of the spending plans

`HbarSpendingPlanConfigService`: what it makes of the configured plans at the start of the relay.  It
runs alone, at one moment.
-/

namespace JsonRpcRelay.SpendingPlans

open Framework
open HbarLimiter (SubscriptionTier trim toLowerCase)

section Configuration

/-- An array of strings, if it is neither left out nor `null`. -/
inductive AddressList where
  | undefined
  | null
  | array (addresses : List String)
  deriving DecidableEq

/-- `addresses || []`. -/
def AddressList.toList : AddressList → List String
  | .array addresses => addresses
  | _ => []

structure SpendingPlanConfig where
  id : String
  evmAddresses : AddressList
  ipAddresses : AddressList
  subscriptionTier : SubscriptionTier
  deriving DecidableEq

def SpendingPlanConfig.addressList (planConfig : SpendingPlanConfig) : AddressKind → AddressList
  | .evmAddress => planConfig.evmAddresses
  | .ipAddress => planConfig.ipAddresses

def SpendingPlanConfig.addresses (planConfig : SpendingPlanConfig) (kind : AddressKind) :
    List String :=
  (planConfig.addressList kind).toList

def isValidSpendingPlanConfig (plan : SpendingPlanConfig) : Bool :=
  plan.evmAddresses.toList ≠ [] ∨ plan.ipAddresses.toList ≠ []

def validateSpendingPlanConfig (spendingPlans : List SpendingPlanConfig) :
    Except SpendingPlanError Unit :=
  spendingPlans.forM fun plan =>
    if isValidSpendingPlanConfig plan then return else throw (.invalidSpendingPlanConfig plan.id)

end Configuration

section Plans

/-- The data do not expire. -/
def TTL : ℤ := -1

variable (t : Moment) (cache : Cache)

def plansToDelete (existingPlans : List DetailedHbarSpendingPlan)
    (spendingPlanConfigs : List SpendingPlanConfig) : List DetailedHbarSpendingPlan :=
  existingPlans.filter fun plan => !spendingPlanConfigs.any fun spc => spc.id = plan.id

def deletePlan (id : String) : Cache :=
  let cache := delete cache id
  let cache := deleteAllByPlanId t cache .evmAddress id
  deleteAllByPlanId t cache .ipAddress id

def deleteObsoletePlans (existingPlans : List DetailedHbarSpendingPlan)
    (spendingPlanConfigs : List SpendingPlanConfig) : Cache :=
  (plansToDelete existingPlans spendingPlanConfigs).foldl
    (fun cache plan => deletePlan t cache plan.id) cache

def plansToAdd (spendingPlanConfigs : List SpendingPlanConfig)
    (existingPlans : List DetailedHbarSpendingPlan) : List SpendingPlanConfig :=
  spendingPlanConfigs.filter fun spc => !existingPlans.any fun plan => plan.id = spc.id

def addNewPlans (spendingPlanConfigs : List SpendingPlanConfig)
    (existingPlans : List DetailedHbarSpendingPlan) : Cache :=
  (plansToAdd spendingPlanConfigs existingPlans).foldl
    (fun cache spc => create t cache spc.subscriptionTier TTL spc.id) cache

end Plans

section Associations

variable (t : Moment) (kind : AddressKind) (planConfig : SpendingPlanConfig) (cache : Cache)

def deleteObsoleteAssociation (cache : Cache) (address : String) : Cache :=
  match findByAddress t cache kind address with
  | some addressPlan =>
    if addressPlan.planId ≠ planConfig.id then deleteAddress cache kind address else cache
  | none => cache

def deleteObsoleteAssociations : Cache :=
  (planConfig.addresses kind).foldl (deleteObsoleteAssociation t kind planConfig) cache

def deleteObsoleteEvmAddressAssociations : Cache :=
  deleteObsoleteAssociations t .evmAddress planConfig cache

def deleteObsoleteIpAddressAssociations : Cache :=
  deleteObsoleteAssociations t .ipAddress planConfig cache

def currentAddresses : List String :=
  (findAllByPlanId t cache kind planConfig.id).map (·.address)

def addressesToDelete : List String :=
  (currentAddresses t kind planConfig cache).filter (· ∉ planConfig.addresses kind)

def addressesToAdd : List String :=
  (planConfig.addresses kind).filter (· ∉ currentAddresses t kind planConfig cache)

/-- The addresses are compared as they are spelled.  All deletions come before the first
addition. -/
def updateAssociations : Cache :=
  let deleted := (addressesToDelete t kind planConfig cache).foldl
    (fun cache address => deleteAddress cache kind address) cache
  (addressesToAdd t kind planConfig cache).foldl
    (fun cache address => save t cache kind { address, planId := planConfig.id } TTL) deleted

def updateEvmAddressAssociations : Cache := updateAssociations t .evmAddress planConfig cache

def updateIpAddressAssociations : Cache := updateAssociations t .ipAddress planConfig cache

def updatePlan : Cache :=
  let cache := deleteObsoleteEvmAddressAssociations t planConfig cache
  let cache := deleteObsoleteIpAddressAssociations t planConfig cache
  let cache := updateEvmAddressAssociations t planConfig cache
  updateIpAddressAssociations t planConfig cache

def updatePlanAssociations (spendingPlanConfigs : List SpendingPlanConfig) : Cache :=
  spendingPlanConfigs.foldl (fun cache planConfig => updatePlan t planConfig cache) cache

end Associations

section Population

/-- What is written for the plans that are stored already, and how many plans were deleted or
added. -/
def populated (t : Moment) (spendingPlanConfigs : List SpendingPlanConfig)
    (existingPlans : List DetailedHbarSpendingPlan) (cache : Cache) : ℕ × Cache :=
  let cache := deleteObsoletePlans t cache existingPlans spendingPlanConfigs
  let cache := addNewPlans t cache spendingPlanConfigs existingPlans
  ((plansToDelete existingPlans spendingPlanConfigs).length +
    (plansToAdd spendingPlanConfigs existingPlans).length,
    updatePlanAssociations t cache spendingPlanConfigs)

/-- Whatever throws does so before the first write. -/
def populatePreconfiguredSpendingPlans (t : Moment) (spendingPlanConfigs : List SpendingPlanConfig)
    (cache : Cache) : Except SpendingPlanError (ℕ × Cache) :=
  if spendingPlanConfigs = [] then return (0, cache)
  else do
    validateSpendingPlanConfig spendingPlanConfigs
    let existingPlans ← findAllActiveBySubscriptionTier t cache [.extended, .privileged]
    return populated t spendingPlanConfigs existingPlans cache

end Population

end JsonRpcRelay.SpendingPlans

import JsonRpcRelay.Framework.Discipline
import JsonRpcRelay.Framework.Json
import JsonRpcRelay.SpendingPlans.ConfigService

/-!
# Configurations as they are loaded

The configured plans are what the parser of JSON returns.  One of the two lists of addresses of a
plan is checked, and the other may be any value.  The start of the relay is written over requests
to the repositories, and stops where such a value makes it throw.
-/

namespace JsonRpcRelay.SpendingPlans.Loaded

open Framework
open HbarLimiter (SubscriptionTier trim toLowerCase)

section Configuration

/-- A plan with an id, a name and a tier.  Its lists may be left out or be any value. -/
structure SpendingPlanConfig where
  id : String
  evmAddresses : Option Json
  ipAddresses : Option Json
  subscriptionTier : SubscriptionTier

def SpendingPlanConfig.addressList (planConfig : SpendingPlanConfig) : AddressKind → Option Json
  | .evmAddress => planConfig.evmAddresses
  | .ipAddress => planConfig.ipAddresses

/-- `Array.isArray(addresses) && addresses.length > 0`. -/
def isFilledArray : Option Json → Bool
  | some (.array (_ :: _)) => true
  | _ => false

def isValidSpendingPlanConfig (plan : SpendingPlanConfig) : Bool :=
  isFilledArray plan.evmAddresses || isFilledArray plan.ipAddresses

inductive StartError where
  | invalidSpendingPlanConfig (id : String)
  | typeError
  | repository (e : SpendingPlanError)

def validateSpendingPlanConfig (spendingPlans : List SpendingPlanConfig) : Except StartError Unit :=
  spendingPlans.forM fun plan =>
    if isValidSpendingPlanConfig plan then return else throw (.invalidSpendingPlanConfig plan.id)

end Configuration

section ReservedKeys

/-- `evmAddress.trim().toLowerCase()`, which only a string has, or an IP address as a text. -/
def reservedText : AddressKind → Json → Option String
  | .evmAddress, .string s => some (toLowerCase (trim s))
  | .evmAddress, _ => none
  | .ipAddress, x => if x.isPrintable then some (String.ofList x.toText) else none

/-- `addresses = []` is a default for what is left out, and only an array has a method `map`. -/
def mapOrThrow (kind : AddressKind) : Option Json → Option (List CacheKey)
  | none => some []
  | some (.array items) => items.mapM fun x =>
      (reservedText kind x).map (.addressHbarSpendingPlan kind ·)
  | some _ => none

def keysOfPlan (plan : SpendingPlanConfig) : Option (List CacheKey) := do
  let evmAddresses ← mapOrThrow .evmAddress plan.evmAddresses
  let ipAddresses ← mapOrThrow .ipAddress plan.ipAddresses
  return planKey plan.id :: amountSpentKey plan.id :: spendingHistoryKey plan.id ::
    (evmAddresses ++ ipAddresses)

/-- The elements of the set.  What is thrown is logged, and the set is empty then. -/
def getPreconfiguredSpendingPlanKeys (spendingPlanConfigs : List SpendingPlanConfig) :
    List CacheKey :=
  ((spendingPlanConfigs.mapM keysOfPlan).getD []).flatten.eraseDups

end ReservedKeys

section Requests

/-- The requests to the repositories.  The addresses come with the texts of their keys. -/
inductive RepositoryOp where
  | findAllActiveBySubscriptionTier (tiers : List SubscriptionTier)
  | create (subscriptionTier : SubscriptionTier) (ttl : ℤ) (id : String)
  | delete (id : String)
  | existsByAddress (kind : AddressKind) (text : String)
  | findByAddress (kind : AddressKind) (text : String)
  | findAllByPlanId (kind : AddressKind) (planId : String)
  | deleteAllByPlanId (kind : AddressKind) (planId : String)
  | save (kind : AddressKind) (text : String) (address : Json) (planId : String) (ttl : ℤ)
  | deleteAddress (kind : AddressKind) (text : String)

/-- The ids of the plans, the plan of a link, and the addresses of the links. -/
@[reducible] def RepositoryOp.Reply : RepositoryOp → Type
  | .findAllActiveBySubscriptionTier _ => Except StartError (List String)
  | .existsByAddress .. => Bool
  | .findByAddress .. => Except StartError String
  | .findAllByPlanId .. => List Json
  | .create .. | .delete _ | .deleteAllByPlanId .. | .save .. | .deleteAddress .. => Unit

/-- The key that a request stores something under. -/
def RepositoryOp.written : RepositoryOp → Option CacheKey
  | .create _ _ id => some (planKey id)
  | .save kind text .. => some (.addressHbarSpendingPlan kind text)
  | _ => none

abbrev StartM := ExceptT StartError (Prog RepositoryOp RepositoryOp.Reply)

def request (op : RepositoryOp) : StartM op.Reply := ExceptT.lift (Prog.call op)

def ofExcept {α : Type} (x : Except StartError α) : StartM α := ExceptT.mk (pure x)

/-- All are run, also where one has thrown. -/
def promiseAll (xs : List (StartM Unit)) : StartM Unit := do
  let results ← ExceptT.lift (xs.mapM ExceptT.run)
  results.forM ofExcept

/-- `getKey` of the repositories: `evmAddress?.trim().toLowerCase()`, or an IP address as a
text. -/
def getKey : AddressKind → Json → Except StartError String
  | .evmAddress, .null => .ok "undefined"
  | kind, x => (reservedText kind x).elim (.error .typeError) .ok

end Requests

section Plans

def deletePlan (id : String) : StartM Unit := do
  request (.delete id)
  request (.deleteAllByPlanId .evmAddress id)
  request (.deleteAllByPlanId .ipAddress id)

def plansToDelete (existingPlans : List String) (spendingPlanConfigs : List SpendingPlanConfig) :
    List String :=
  existingPlans.filter fun id => !spendingPlanConfigs.any fun spc => spc.id = id

def deleteObsoletePlans (existingPlans : List String)
    (spendingPlanConfigs : List SpendingPlanConfig) : StartM Unit :=
  (plansToDelete existingPlans spendingPlanConfigs).forM deletePlan

def plansToAdd (spendingPlanConfigs : List SpendingPlanConfig) (existingPlans : List String) :
    List SpendingPlanConfig :=
  spendingPlanConfigs.filter fun spc => !existingPlans.any fun id => id = spc.id

def addNewPlans (spendingPlanConfigs : List SpendingPlanConfig) (existingPlans : List String) :
    StartM Unit :=
  (plansToAdd spendingPlanConfigs existingPlans).forM fun spc =>
    request (.create spc.subscriptionTier TTL spc.id)

end Plans

section Associations

variable (kind : AddressKind) (planConfig : SpendingPlanConfig)

/-- What a loop over `addresses || []` goes through.  A string is gone through by characters. -/
def iterated : Option Json → Except StartError (List Json)
  | none | some .null | some (.bool false) | some (.number .zero) | some (.number .nan) => .ok []
  | some (.string s) => .ok (s.toList.map fun c => .string (String.singleton c))
  | some (.array items) => .ok items
  | some _ => .error .typeError

def deleteObsoleteAssociation (address : Json) : StartM Unit := do
  let text ← ofExcept (getKey kind address)
  if ← request (.existsByAddress kind text) then
    let planId ← ofExcept (← request (.findByAddress kind text))
    if planId ≠ planConfig.id then request (.deleteAddress kind text)

def deleteObsoleteAssociations : StartM Unit := do
  (← ofExcept (iterated (planConfig.addressList kind))).forM
    (deleteObsoleteAssociation kind planConfig)

/-- Arrays and objects are only the same where they are one. -/
def sameValue : Json → Json → Bool
  | .null, .null => true
  | .bool a, .bool b => a = b
  | .number x, .number y => x = y
  | .string s, .string t => s = t
  | _, _ => false

/-- `addresses?.includes(address)`, which looks for a part of a string. -/
def includes : Option Json → Json → Except StartError Bool
  | none, _ | some .null, _ => .ok false
  | some (.array items), address => .ok (items.any (sameValue address))
  | some (.string s), address =>
      if address.isPrintable then .ok (s.toList.tails.any (address.toText.isPrefixOf ·))
      else .error .typeError
  | some _, _ => .error .typeError

def addressesToDelete (currentAddresses : List Json) : Except StartError (List Json) :=
  currentAddresses.filterM fun address =>
    (includes (planConfig.addressList kind) address).map (!·)

/-- `addresses?.filter(..) || []`. -/
def addressesToAdd (currentAddresses : List Json) : Except StartError (List Json) :=
  match planConfig.addressList kind with
  | none | some .null => .ok []
  | some (.array items) => .ok (items.filter fun address => !currentAddresses.any (sameValue address))
  | some _ => .error .typeError

def updateAssociations : StartM Unit := do
  let currentAddresses ← request (.findAllByPlanId kind planConfig.id)
  let obsolete ← ofExcept (addressesToDelete kind planConfig currentAddresses)
  promiseAll (obsolete.map fun address => do
    request (.deleteAddress kind (← ofExcept (getKey kind address))))
  let added ← ofExcept (addressesToAdd kind planConfig currentAddresses)
  promiseAll (added.map fun address => do
    request (.save kind (← ofExcept (getKey kind address)) address planConfig.id TTL))

def updatePlan : StartM Unit := do
  deleteObsoleteAssociations .evmAddress planConfig
  deleteObsoleteAssociations .ipAddress planConfig
  updateAssociations .evmAddress planConfig
  updateAssociations .ipAddress planConfig

def updatePlanAssociations (spendingPlanConfigs : List SpendingPlanConfig) : StartM Unit :=
  spendingPlanConfigs.forM updatePlan

end Associations

/-- The number of plans that were deleted or added. -/
def populatePreconfiguredSpendingPlans (spendingPlanConfigs : List SpendingPlanConfig) :
    StartM ℕ :=
  if spendingPlanConfigs.isEmpty then return 0
  else do
    ofExcept (validateSpendingPlanConfig spendingPlanConfigs)
    let existingPlans ← ofExcept
      (← request (.findAllActiveBySubscriptionTier [.extended, .privileged]))
    deleteObsoletePlans existingPlans spendingPlanConfigs
    addNewPlans spendingPlanConfigs existingPlans
    updatePlanAssociations spendingPlanConfigs
    return (plansToDelete existingPlans spendingPlanConfigs).length +
      (plansToAdd spendingPlanConfigs existingPlans).length

end JsonRpcRelay.SpendingPlans.Loaded

import Mathlib.Algebra.Order.Floor.Div
import JsonRpcRelay.HbarLimiter.Cache

/-!
# The HBAR limit service

`HbarSpendingPlanRepository`, the repositories of the address links, and `HbarLimitService`
over them.  Logging and the metrics are left out; the background update of the averages
only reads the cache.
-/

namespace JsonRpcRelay.HbarLimiter

open Framework

/-- What the constructor of `HbarLimitService` reads from the configuration.  The operator
address is `0x` followed by the Solidity address of the operator account, or the zero
address. -/
structure LimiterConfig where
  backend : CacheBackend
  limitDuration : ℕ
  limitDuration_pos : 0 < limitDuration
  operatorAddress : String
  operatorAddress_ne : operatorAddress ≠ ""
  tierLimits : SubscriptionTier → ℤ

section HbarSpendingPlanRepository

/-- `const value = await cache.getAsync(key); if (!value) throw error`. -/
def getOrThrow (key : CacheKey) (error : HbarLimiterError) : LimiterM key.Value := do
  match ← request (.get key) with
  | some value => return value
  | none => throw error

def findById (id : PlanId) : LimiterM HbarSpendingPlan :=
  getOrThrow (.hbarSpendingPlan id) (.hbarSpendingPlanNotFound id)

def checkExistsAndActive (id : PlanId) : LimiterM Unit := do
  let plan ← findById id
  if plan.active then return else throw (.hbarSpendingPlanNotActive id)

def getAmountSpent (id : PlanId) : LimiterM ℕ := do
  checkExistsAndActive id
  let amountSpent : Option ℕ ← request (.get (.amountSpent id))
  return amountSpent.getD 0

def findByIdWithDetails (id : PlanId) : LimiterM DetailedHbarSpendingPlan := do
  let plan ← findById id
  let amountSpent ← getAmountSpent id
  return { plan with amountSpent }

def create (subscriptionTier : SubscriptionTier) (ttl : ℤ) (planId : Option PlanId) :
    LimiterM DetailedHbarSpendingPlan := do
  let createdAt : ℕ ← request .dateNow
  let plan (id : PlanId) : HbarSpendingPlan := { id, subscriptionTier, createdAt, active := true }
  match planId with
  | some id =>
    let _ ← request (.set (.hbarSpendingPlan id) (plan id) ttl)
    return { plan id with amountSpent := 0 }
  | none =>
    let id : PlanId ← request (.setNew plan ttl)
    return { plan id with amountSpent := 0 }

def resetAmountSpentOfAllPlans : LimiterM Unit := do
  let keys : List CacheKey ← request (.keys fun key => key matches .amountSpent _)
  keys.forM fun key => do let _ ← request (.delete key)

/-- `ICacheClient.incrBy`: one command in Redis, a read, a look at the remaining time and a
write in the LRU cache. -/
def incrBy (b : CacheBackend) (id : PlanId) (amount : ℕ) : LimiterM Unit :=
  match b with
  | .redisCache => do let _ ← request (.incrBy id amount)
  | .localLRUCache => do
    let value : Option ℕ ← request (.get (.amountSpent id))
    -- an infinite remaining time is stored like one that is not positive: without deadline
    let remainingTtl : Option ℤ ← request (.getRemainingTtl (.amountSpent id))
    let _ ← request (.set (.amountSpent id) (value.getD 0 + amount : ℕ) (remainingTtl.getD 0))

def addToAmountSpent (b : CacheBackend) (id : PlanId) (amount : ℕ) (ttl : ℤ) : LimiterM Unit := do
  checkExistsAndActive id
  let amountSpent : Option ℕ ← request (.get (.amountSpent id))
  -- a missing entry and the number 0 are both falsy
  if amountSpent.getD 0 = 0 then
    let _ ← request (.set (.amountSpent id) (amount : ℕ) ttl)
  else
    incrBy b id amount

end HbarSpendingPlanRepository

section AddressRepositories

/-- White space and line terminators of ECMAScript. -/
def isWhiteSpace (c : Char) : Bool :=
  let n := c.toNat
  (9 ≤ n && n ≤ 13) || (8192 ≤ n && n ≤ 8202) ||
    [32, 160, 5760, 8232, 8233, 8239, 8287, 12288, 65279].contains n

def trim (s : String) : String :=
  String.ofList ((s.toList.dropWhile isWhiteSpace).reverse.dropWhile isWhiteSpace).reverse

/-- `toLowerCase` on hexadecimal addresses. -/
def toLowerCase (s : String) : String := String.ofList (s.toList.map Char.toLower)

def findByEvmAddress (evmAddress : String) : LimiterM EvmAddressHbarSpendingPlan :=
  getOrThrow (.evmAddressHbarSpendingPlan (toLowerCase (trim evmAddress)))
    (.evmAddressHbarSpendingPlanNotFound evmAddress)

def findByIPAddress (ipAddress : String) : LimiterM IPAddressHbarSpendingPlan :=
  getOrThrow (.ipAddressHbarSpendingPlan ipAddress) (.ipAddressHbarSpendingPlanNotFound ipAddress)

/-- `save` of the repository of EVM addresses. -/
def saveEvmAddress (addressPlan : EvmAddressHbarSpendingPlan) (ttl : ℤ) : LimiterM Unit := do
  let _ ← request (.set (.evmAddressHbarSpendingPlan (toLowerCase (trim addressPlan.evmAddress)))
    addressPlan ttl)

end AddressRepositories

section HbarLimitService

variable (cfg : LimiterConfig)

def totalBudget : ℤ := cfg.tierLimits .operator

def isEnabled : Bool := 0 < totalBudget cfg

/-- `if (address) { try { return await x } catch { } }`, which goes on with the next lookup. -/
def attempt {α : Type} (address : String) (x : LimiterM α) : LimiterM (Option α) :=
  if address = "" then return none else tryCatch (some <$> x) fun _ => return none

def getSpendingPlanByEvmAddress (evmAddress : String) : LimiterM DetailedHbarSpendingPlan := do
  let addressPlan ← findByEvmAddress evmAddress
  findByIdWithDetails addressPlan.planId

def getSpendingPlanByIPAddress (ipAddress : String) : LimiterM DetailedHbarSpendingPlan := do
  let addressPlan ← findByIPAddress ipAddress
  findByIdWithDetails addressPlan.planId

def getSpendingPlan (evmAddress ipAddress : String) :
    LimiterM (Option DetailedHbarSpendingPlan) := do
  match ← attempt evmAddress (getSpendingPlanByEvmAddress evmAddress) with
  | some plan => return some plan
  | none => attempt ipAddress (getSpendingPlanByIPAddress ipAddress)

def createSpendingPlanForAddress (evmAddress : String) (subscriptionTier : SubscriptionTier) :
    LimiterM DetailedHbarSpendingPlan := do
  if evmAddress = "" then throw .noEvmAddress else
  let spendingPlan ← create subscriptionTier cfg.limitDuration none
  saveEvmAddress { evmAddress, planId := spendingPlan.id } cfg.limitDuration
  return spendingPlan

def getOperatorSpendingPlan (ipAddress : String) : LimiterM DetailedHbarSpendingPlan := do
  let operatorPlan ← getSpendingPlan cfg.operatorAddress ipAddress
  match operatorPlan with
  | some operatorPlan => return operatorPlan
  | none => createSpendingPlanForAddress cfg cfg.operatorAddress .operator

def getRemainingBudget (ipAddress : String) : LimiterM ℤ :=
  tryCatch
    (do
      let operatorPlan ← getOperatorSpendingPlan cfg ipAddress
      return totalBudget cfg - operatorPlan.amountSpent)
    fun _ => return totalBudget cfg

/-- The loop of `getResetTimestamp` ends after one round: the new date is not in the past. -/
def getResetTimestamp (reset now : ℕ) : ℕ :=
  if reset < now then reset + (now - reset) ⌈/⌉ cfg.limitDuration * cfg.limitDuration else reset

def shouldResetLimiter : LimiterM Bool := do
  let now : ℕ ← request .dateNow
  let reset : ℕ ← request .getReset
  return reset ≤ now

def resetLimiter (ipAddress : String) : LimiterM Unit := do
  resetAmountSpentOfAllPlans
  let _ ← getRemainingBudget cfg ipAddress
  let reset : ℕ ← request .getReset
  let now : ℕ ← request .dateNow
  let _ ← request (.setReset (getResetTimestamp cfg reset now))

def isTotalBudgetExceeded (estimatedTxFee : ℕ) (ipAddress : String) : LimiterM Bool := do
  if ← shouldResetLimiter then resetLimiter cfg ipAddress
  let remainingBudget ← getRemainingBudget cfg ipAddress
  return remainingBudget ≤ 0 || remainingBudget - estimatedTxFee < 0

def shouldLimit (evmAddress ipAddress : String) (estimatedTxFee : ℕ) : LimiterM Bool := do
  if !isEnabled cfg then return false else
  if ← isTotalBudgetExceeded cfg estimatedTxFee ipAddress then return true else
  if evmAddress = "" ∧ ipAddress = "" then return false else
  let spendingPlan ← match ← getSpendingPlan evmAddress ipAddress with
    | some spendingPlan => pure spendingPlan
    | none => createSpendingPlanForAddress cfg evmAddress .basic
  let spendingLimit := cfg.tierLimits spendingPlan.subscriptionTier
  return spendingLimit ≤ spendingPlan.amountSpent ||
    spendingLimit < spendingPlan.amountSpent + estimatedTxFee

def addExpense (cost : ℕ) (evmAddress ipAddress : String) : LimiterM Unit := do
  if !isEnabled cfg then return else
  let operatorPlan ← getOperatorSpendingPlan cfg ipAddress
  addToAmountSpent cfg.backend operatorPlan.id cost cfg.limitDuration
  let _ ← getRemainingBudget cfg ipAddress
  let spendingPlan ← match ← getSpendingPlan evmAddress ipAddress with
    | some spendingPlan => pure (some spendingPlan)
    | none =>
      if evmAddress = "" then pure none
      else some <$> createSpendingPlanForAddress cfg evmAddress .basic
  match spendingPlan with
  | some spendingPlan => addToAmountSpent cfg.backend spendingPlan.id cost cfg.limitDuration
  | none => return

end HbarLimitService

/-- Run limiter code alone, with nothing else at work between its requests. -/
def runAlone {α : Type} (b : CacheBackend) (x : LimiterM α) (st : LimiterState) :
    Except HbarLimiterError α × LimiterState :=
  x.run.run (handle b) st

end JsonRpcRelay.HbarLimiter

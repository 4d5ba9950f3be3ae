import JsonRpcRelay.Framework.ExpiringStore
import JsonRpcRelay.Framework.Program

/-!
# The cache of the HBAR limiter

The entries that the spending plan repositories keep in an `ICacheClient`, and its two
implementations.  A request is one Redis command or one synchronous access to the LRU cache;
`LocalLRUCache.incrBy` is made of three of them.
-/

namespace JsonRpcRelay.HbarLimiter

open Framework

/-- The id of a spending plan: given by the configuration, or a random UUID.  The n-th UUID
that is drawn is `generated n`. -/
inductive PlanId where
  | configured (id : String)
  | generated (n : ℕ)
  deriving DecidableEq, Repr

inductive SubscriptionTier where
  | basic
  | extended
  | privileged
  | operator
  deriving DecidableEq, Repr

structure HbarSpendingPlan where
  id : PlanId
  subscriptionTier : SubscriptionTier
  createdAt : ℕ
  active : Bool
  deriving DecidableEq

/-- A plan with the amount that was read beside it. -/
structure DetailedHbarSpendingPlan extends HbarSpendingPlan where
  amountSpent : ℕ
  deriving DecidableEq

structure EvmAddressHbarSpendingPlan where
  evmAddress : String
  planId : PlanId
  deriving DecidableEq

structure IPAddressHbarSpendingPlan where
  ipAddress : String
  planId : PlanId
  deriving DecidableEq

/-- The keys `hbarSpendingPlan:{id}`, `hbarSpendingPlan:{id}:amountSpent`,
`evmAddressHbarSpendingPlan:{evmAddress}` and `ipAddressHbarSpendingPlan:{ipAddress}`. -/
inductive CacheKey where
  | hbarSpendingPlan (id : PlanId)
  | amountSpent (id : PlanId)
  | evmAddressHbarSpendingPlan (evmAddress : String)
  | ipAddressHbarSpendingPlan (ipAddress : String)
  deriving DecidableEq

@[reducible] def CacheKey.Value : CacheKey → Type
  | .hbarSpendingPlan _ => HbarSpendingPlan
  | .amountSpent _ => ℕ
  | .evmAddressHbarSpendingPlan _ => EvmAddressHbarSpendingPlan
  | .ipAddressHbarSpendingPlan _ => IPAddressHbarSpendingPlan

inductive CacheOp where
  | get (key : CacheKey)
  | set (key : CacheKey) (value : key.Value) (ttl : ℤ)
  /-- `set` of a plan under a random id, which is drawn in the same step: nobody else can
  know the id before. -/
  | setNew (plan : PlanId → HbarSpendingPlan) (ttl : ℤ)
  | delete (key : CacheKey)
  | keys (pattern : CacheKey → Bool)
  /-- The Redis command `INCRBY`. -/
  | incrBy (id : PlanId) (amount : ℕ)
  | getRemainingTtl (key : CacheKey)
  | dateNow
  /-- The field `reset` of the service. -/
  | getReset
  | setReset (reset : ℕ)

/-- What a request answers.  The remaining time of an entry without deadline is infinite. -/
@[reducible] def CacheOp.Reply : CacheOp → Type
  | .get key => Option key.Value
  | .set .. | .delete _ | .setReset _ | .incrBy .. => Unit
  | .setNew .. => PlanId
  | .keys _ => List CacheKey
  | .getRemainingTtl _ => Option ℤ
  | .dateNow | .getReset => ℕ

inductive CacheBackend where
  | redisCache
  | localLRUCache
  deriving DecidableEq

/-- A Redis key is gone at its deadline, an LRU entry is stale once its age exceeds its time
to live. -/
def CacheBackend.expiry : CacheBackend → Expiry
  | .redisCache => .strict
  | .localLRUCache => .inclusive

structure LimiterState where
  now : ℕ
  cache : Store CacheKey CacheKey.Value
  nextPlanId : ℕ
  reset : ℕ

namespace LimiterState

def get (b : CacheBackend) (st : LimiterState) (key : CacheKey) : Option key.Value :=
  st.cache.get b.expiry st.now key

def set (st : LimiterState) (key : CacheKey) (value : key.Value) (ttl : ℤ) : LimiterState :=
  { st with cache := st.cache.set st.now key value ttl }

def advance (st : LimiterState) (ms : ℕ) : LimiterState := { st with now := st.now + ms }

end LimiterState

/-- How the cache and the clock answer a request. -/
def handle (b : CacheBackend) : (op : CacheOp) → LimiterState → op.Reply × LimiterState
  | .get key, st => (st.get b key, st)
  | .set key value ttl, st => ((), st.set key value ttl)
  | .setNew plan ttl, st =>
      let id := PlanId.generated st.nextPlanId
      (id, { st.set (.hbarSpendingPlan id) (plan id) ttl with nextPlanId := st.nextPlanId + 1 })
  | .delete key, st => ((), { st with cache := st.cache.delete key })
  | .keys pattern, st => ((st.cache.liveKeys b.expiry st.now).filter pattern, st)
  | .incrBy id amount, st =>
      let spent : ℕ := (st.get b (.amountSpent id)).getD (0 : ℕ)
      ((), { st with
        cache := st.cache.replace b.expiry st.now (.amountSpent id) (spent + amount : ℕ) })
  | .getRemainingTtl key, st =>
      (match st.cache.liveEntry b.expiry st.now key with
        | some e => e.deadline.map fun d => (d : ℤ) - st.now
        | none => some 0, st)
  | .dateNow, st => (st.now, st)
  | .getReset, st => (st.reset, st)
  | .setReset reset, st => ((), { st with reset := reset })

inductive HbarLimiterError where
  | hbarSpendingPlanNotFound (id : PlanId)
  | hbarSpendingPlanNotActive (id : PlanId)
  | evmAddressHbarSpendingPlanNotFound (evmAddress : String)
  | ipAddressHbarSpendingPlanNotFound (ipAddress : String)
  /-- `Cannot create a spending plan without an associated evm address` -/
  | noEvmAddress
  deriving DecidableEq

/-- Asynchronous code over the cache that may throw. -/
abbrev LimiterM := ExceptT HbarLimiterError (Prog CacheOp CacheOp.Reply)

def request (op : CacheOp) : LimiterM op.Reply := ExceptT.lift (Prog.call op)

end JsonRpcRelay.HbarLimiter

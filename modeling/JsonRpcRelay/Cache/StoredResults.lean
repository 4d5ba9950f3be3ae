import JsonRpcRelay.Cache.CachedMethods
import JsonRpcRelay.Debug.BlockTraces
import JsonRpcRelay.Errors
import JsonRpcRelay.Fees.FeeService
import JsonRpcRelay.Framework.Tracked

/-!
# Stored results

What the decorator stores of the results of a handler, what the back ends of the cache return of
it, and what the dispatcher makes of that.  A handler is a computation that keeps track of the
requests that have failed.
-/

namespace JsonRpcRelay.Cache

open Framework Common Fees Blocks Debug

section Answers

/-- What a handler returns.  The properties of an error are what is left of it in JSON. -/
inductive Answer where
  | value (x : Json)
  | feeHistory (history : IFeeHistory)
  | block (block : Block)
  | transaction (transaction : Transaction)
  | receipt (receipt : TransactionReceipt)
  | receipts (receipts : List TransactionReceipt)
  | logs (logs : List Log)
  | trace (trace : Trace)
  | blockTraces (traces : List TraceBlockByNumberTxResult)
  | error (e : JsonRpcError)
  | errorProperties (e : JsonRpcError)

def isTruthyJson : Json → Bool
  | .null => false
  | .bool b => b
  | .number x => x ≠ .nan ∧ x ≠ .zero
  | .string s => s ≠ ""
  | .array _ | .object _ => true

def Answer.isTruthy : Answer → Bool
  | .value x => isTruthyJson x
  | _ => true

/-- `result instanceof JsonRpcError`. -/
def Answer.isError : Answer → Bool
  | .error _ => true
  | _ => false

inductive CacheBackend where
  | localLRUCache
  | redisCache
  deriving DecidableEq

/-- The value that is returned for a stored one: Redis keeps its JSON. -/
def CacheBackend.read : CacheBackend → Answer → Answer
  | .localLRUCache, answer => answer
  | .redisCache, .value x => .value x.plain
  | .redisCache, .error e => .errorProperties e
  | .redisCache, answer => answer

/-- `processRpcMethod`: an error that is returned is thrown.  Whatever is thrown is answered by an
error. -/
def processRpcMethod : Except RelayError Answer → Except RelayError Answer
  | .ok (.error e) => .error (.jsonRpcError e)
  | outcome => outcome

/-- The dispatcher answers with a result. -/
def isSuccess (outcome : Except RelayError Answer) : Bool := (processRpcMethod outcome).isOk

/-- The answer from the cache, if there is one that counts as true. -/
def cachedResponse (backend : CacheBackend) (entry : Option Answer) : Option Answer :=
  (entry.map backend.read).filter (·.isTruthy)

/-- A call of a cached method: what it returns, and the entry of the cache afterwards. -/
def cached (backend : CacheBackend) (method : CachedMethod) (args : List Arg)
    (entry : Option Answer) (handler : Except RelayError Answer) :
    Except RelayError Answer × Option Answer :=
  match cachedResponse backend entry with
  | some answer => (.ok answer, entry)
  | none =>
      match handler with
      | .error e => (.error e, entry)
      | .ok result =>
          (.ok result, if method.stores args result.isTruthy then some result else entry)

end Answers

section Sound

/-- A result that is no error, and not one in spite of a failed request. -/
def IsOrdinary (run : Tracked RelayError Answer) : Prop :=
  ∀ answer, run.result = .ok answer → answer.isTruthy = true →
    answer.isError = false ∧ run.failed = false

/-- No error is stored and no result in spite of a failed request, and what is returned from the
cache later is answered like the result was. -/
structure Sound (method : CachedMethod) (args : List Arg) (run : Tracked RelayError Answer) :
    Prop where
  notStored : ∀ (backend : CacheBackend) (answer : Answer), run.result = .ok answer →
    answer.isError = true ∨ run.failed = true →
      (cached backend method args none run.result).2 = none
  sameClass : ∀ (backend : CacheBackend) (entry answer : Answer),
    (cached backend method args none run.result).2 = some entry →
      cachedResponse backend (some entry) = some answer →
        isSuccess (.ok answer) = isSuccess (cached backend method args none run.result).1

variable {method : CachedMethod} {args : List Arg} {run : Tracked RelayError Answer}
  {answer : Answer}

private theorem cached_miss (backend : CacheBackend) (method : CachedMethod) (args : List Arg)
    (answer : Answer) : cached backend method args none (.ok answer) =
      (.ok answer, if method.stores args answer.isTruthy then some answer else none) := rfl

private theorem stores_eq (method : CachedMethod) (args : List Arg) (isTruthy : Bool) :
    method.stores args isTruthy = (isTruthy && method.stores args true) := by
  cases isTruthy <;> simp [CachedMethod.stores, shouldStore]

private theorem isSuccess_read (backend : CacheBackend) (h : answer.isError = false) :
    isSuccess (.ok (backend.read answer)) = true := by
  cases backend <;> cases answer <;> first | rfl | cases h

/-- The decorator is sound exactly for an ordinary result, or if the arguments tell it not to
store any. -/
theorem sound_iff : Sound method args run ↔ method.stores args true = false ∨ IsOrdinary run := by
  constructor
  · intro h
    by_cases hstores : method.stores args true = true
    · refine .inr ?_
      intro answer hresult htruthy
      have hnot := h.notStored .localLRUCache answer hresult
      rw [hresult, cached_miss, stores_eq, htruthy, hstores] at hnot
      simpa using hnot
    · exact .inl (Bool.eq_false_of_not_eq_true hstores)
  · intro h
    have hstored (backend : CacheBackend) (answer entry : Answer) (hresult : run.result = .ok answer)
        (hentry : (cached backend method args none run.result).2 = some entry) :
        entry = answer ∧ answer.isError = false ∧ run.failed = false := by
      rw [hresult, cached_miss, stores_eq] at hentry
      by_cases hstores : answer.isTruthy = true ∧ method.stores args true = true
      · simp only [hstores, Bool.and_self, if_true, Option.some.injEq] at hentry
        rcases h with hskip | hordinary
        · rw [hstores.2] at hskip
          cases hskip
        · exact ⟨hentry.symm, hordinary answer hresult hstores.1⟩
      · rw [← Bool.and_eq_true] at hstores
        rw [if_neg hstores] at hentry
        cases hentry
    constructor
    · intro backend answer hresult hbad
      cases hentry : (cached backend method args none run.result).2 with
      | none => rfl
      | some entry =>
        obtain ⟨_, herror, hfailed⟩ := hstored backend answer entry hresult hentry
        rw [herror, hfailed] at hbad
        simp at hbad
    · intro backend entry answer hentry hread
      cases hresult : run.result with
      | error e =>
        rw [hresult] at hentry
        cases hentry
      | ok result =>
        obtain ⟨rfl, herror, _⟩ := hstored backend result entry hresult hentry
        have hanswer : answer = backend.read entry := by
          simp only [cachedResponse, Option.map_some, Option.filter_some] at hread
          split at hread
          · exact (Option.some.inj hread).symm
          · cases hread
        rw [hanswer, isSuccess_read backend herror, cached_miss]
        exact (isSuccess_read .localLRUCache herror).symm

end Sound

end JsonRpcRelay.Cache

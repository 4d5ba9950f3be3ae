import Mathlib.Logic.Function.Basic
import JsonRpcRelay.Framework.Schedule

/-!
# The rate limiter in memory

The records of the store are kept in plain objects.  What such an object inherits is found under
the names of `Object.prototype` as if it were a record.
-/

namespace JsonRpcRelay.RateLimiter

structure MethodDatabase where
  methodName : String
  remaining : ℕ
  total : ℕ
  deriving DecidableEq

/-- The records of an ip address.  `methodInfo` has the properties of its own. -/
structure DatabaseEntry where
  reset : ℕ
  methodInfo : String → Option MethodDatabase

/-- The properties that the store may write to an object that every object inherits. -/
structure SharedObject where
  remaining : Option ℕ := none
  total : Option ℕ := none
  deriving DecidableEq

/-- The objects that every object inherits, with `Object.prototype` itself under its accessor. -/
def objectPrototypeKeys : List String :=
  ["constructor", "__defineGetter__", "__defineSetter__", "hasOwnProperty", "__lookupGetter__",
    "__lookupSetter__", "isPrototypeOf", "propertyIsEnumerable", "toString", "valueOf",
    "__proto__", "toLocaleString"]

/-- What `methodInfo[method]` is. -/
inductive MethodValue where
  | record (r : MethodDatabase)
  | inherited (name : String)
  | number (n : ℕ)

/-- The records of one ip address, and the inherited objects. -/
structure Records where
  entry : DatabaseEntry
  shared : String → SharedObject

namespace Records

variable (rs : Records) (method : String)

/-- The properties of `Object.prototype` are inherited by its functions and by numbers. -/
def objectPrototype : SharedObject := rs.shared "__proto__"

def methodValue : Option MethodValue :=
  match rs.entry.methodInfo method with
  | some r => some (.record r)
  | none =>
      if method ∈ objectPrototypeKeys then some (.inherited method)
      else if method = "remaining" then rs.objectPrototype.remaining.map .number
      else if method = "total" then rs.objectPrototype.total.map .number
      else none

def checkMethodExist : Bool := (rs.methodValue method).isSome

def setNewMethod (total : ℕ) : Records :=
  { rs with
    entry.methodInfo := Function.update rs.entry.methodInfo method (some ⟨method, total, total⟩) }

/-- `methodInfo[method].remaining`. -/
def remaining : Option ℕ :=
  (rs.methodValue method).bind fun
    | .record r => some r.remaining
    | .inherited name => (rs.shared name).remaining.or rs.objectPrototype.remaining
    | .number _ => rs.objectPrototype.remaining

def checkRemaining : Bool := (rs.remaining method).any (0 < ·)

/-- Assign a property of `methodInfo[method]`, which fails for a number. -/
def assign (key : String) (onRecord : MethodDatabase → MethodDatabase)
    (onShared : SharedObject → SharedObject) : Except String Records :=
  match rs.methodValue method with
  | some (.record r) => .ok
      { rs with
        entry.methodInfo := Function.update rs.entry.methodInfo method (some (onRecord r)) }
  | some (.inherited name) => .ok
      { rs with shared := Function.update rs.shared name (onShared (rs.shared name)) }
  | some (.number n) => .error ("Cannot create property '" ++ key ++ "' on number '" ++
      toString n ++ "'")
  | none => .error ("Cannot set properties of undefined (setting '" ++ key ++ "')")

def setRemaining (n : ℕ) : Except String Records :=
  rs.assign method "remaining" (fun r => { r with remaining := n })
    fun o => { o with remaining := some n }

def setTotal (n : ℕ) : Except String Records :=
  rs.assign method "total" (fun r => { r with total := n }) fun o => { o with total := some n }

def decreaseRemaining : Except String Records :=
  rs.setRemaining method ((rs.remaining method).getD 0 - 1)

variable (duration now : ℕ)

def shouldReset : Bool := rs.entry.reset < now

/-- A new window in which all records have their total again. -/
def restart : Records :=
  { rs with
    entry :=
      { reset := now + duration
        methodInfo := fun m => (rs.entry.methodInfo m).map fun r =>
          { r with remaining := r.total } } }

/-- `reset`.  An error leaves what has been done before it. -/
def reset (total : ℕ) : Except String Unit × Records :=
  let restarted := rs.restart duration now
  match restarted.setRemaining method total with
  | .error e => (.error e, restarted)
  | .ok rs' =>
      match rs'.setTotal method total with
      | .error e => (.error e, rs')
      | .ok rs'' => (.ok (), rs'')

/-- The end of a call that is allowed. -/
def decreased : Except String Bool × Records :=
  match rs.decreaseRemaining method with
  | .error e => (.error e, rs)
  | .ok rs' => (.ok false, rs')

def check (limit : ℕ) : Except String Bool × Records :=
  if !rs.shouldReset now then
    if rs.checkRemaining method then rs.decreased method else (.ok true, rs)
  else
    match rs.reset method duration now limit with
    | (.error e, rs') => (.error e, rs')
    | (.ok (), rs') => rs'.decreased method

def precheckMethod (total : ℕ) : Records :=
  if rs.checkMethodExist method then rs else rs.setNewMethod method total

end Records

/-- The store, and the objects that its records inherit. -/
structure LruRateLimitStore where
  database : String → Option DatabaseEntry
  shared : String → SharedObject

structure Call where
  ip : String
  method : String
  time : ℕ
  deriving DecidableEq

namespace LruRateLimitStore

def init : LruRateLimitStore := ⟨fun _ => none, fun _ => {}⟩

def setNewIp (duration now : ℕ) : DatabaseEntry := ⟨now + duration, fun _ => none⟩

variable (duration : ℕ) (limit : String → ℕ) (st : LruRateLimitStore) (c : Call)

/-- The records that a call works on. -/
def precheck : Records :=
  Records.precheckMethod ⟨(st.database c.ip).getD (setNewIp duration c.time), st.shared⟩ c.method
    (limit c.method)

/-- Whether the limit is exceeded, or the error that the call throws. -/
def incrementAndCheck : Except String Bool × LruRateLimitStore :=
  let checked := (precheck duration limit st c).check c.method duration c.time (limit c.method)
  (checked.1,
    { database := Function.update st.database c.ip (some checked.2.entry)
      shared := checked.2.shared })

/-- What each call of a run returns. -/
def decisions : LruRateLimitStore → List Call → List (Except String Bool)
  | _, [] => []
  | st, c :: cs =>
      (st.incrementAndCheck duration limit c).1 ::
        decisions (st.incrementAndCheck duration limit c).2 cs

end LruRateLimitStore

end JsonRpcRelay.RateLimiter

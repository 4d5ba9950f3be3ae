import JsonRpcRelay.Framework.DoubleTexts
import JsonRpcRelay.Framework.ExpiringStore

/-!
# The cache clients

The counters and lists of `LocalLRUCache` and `RedisCache`.  The LRU cache is large enough for all
entries.  It stores values, where Redis has their JSON texts, and it adds doubles, where Redis adds
integers of 64 bits.
-/

namespace JsonRpcRelay.Clients

open Framework

section Data

/-- A key is used as a counter or as a list throughout. -/
inductive CacheKey where
  | counter (key : String)
  | list (key : String)
  deriving DecidableEq

variable (V : Type)

@[reducible] def CacheKey.Value : CacheKey → Type
  | .counter _ => Double
  | .list _ => List V

/-- What Redis has under a key. -/
@[reducible] def CacheKey.Text : CacheKey → Type
  | .counter _ => List Char
  | .list _ => List String

abbrev Cache := Store CacheKey (CacheKey.Value V)

abbrev RedisStore := Store CacheKey CacheKey.Text

/-- `JSON.stringify` and `JSON.parse` of the values of lists.  Some values have no text. -/
structure JSONText where
  stringify : V → Option String
  parse : String → V

/-- A number that is an integer. -/
structure Integer where
  value : ℤ
  holds : Double.Holds value

/-- At most 2 ^ 53 - 1, so that all integers up to it are numbers. -/
def IsSafe (n : ℤ) : Prop := n.natAbs < 2 ^ 53

instance (n : ℤ) : Decidable (IsSafe n) := inferInstanceAs (Decidable (_ < _))

/-- The numbers that the client makes of the integers Redis replies with. -/
structure IntegerReplies where
  toNumber : ℤ → Double
  toNumber_of_safe : ∀ n, IsSafe n → toNumber n = .integer n

/-- A time to live in milliseconds. -/
inductive Duration where
  | ms (n : ℤ)
  | infinity
  deriving DecidableEq

/-- How long an operation on the LRU cache waits after its read and after its read of the time to
live, and when within this time Redis executes the command. -/
structure Pauses where
  beforeTtl : ℕ
  beforeSet : ℕ
  command : ℕ
  command_le : command ≤ beforeTtl + beforeSet
  deriving DecidableEq

/-- What happens to the caches.  Counters may have a time to live in milliseconds. -/
inductive CacheEvent where
  | pass (ms : ℕ)
  | set (key : String) (value : Integer) (ttl : Option ℤ)
  | get (key : String)
  | delete (key : CacheKey)
  | incrBy (key : String) (amount : Integer) (pauses : Pauses)
  | rPush (key : String) (value : V) (pauses : Pauses)
  | lRange (key : String) (start stop : ℤ)

variable {V}

/-- What Redis or its client throws. -/
inductive CommandError where
  | invalidArgument
  | notAnInteger
  | overflow
  deriving DecidableEq

@[reducible] def CacheEvent.Reply : CacheEvent V → Type
  | .pass _ | .set .. | .delete _ => Unit
  | .get _ => Option Double
  | .incrBy .. => Except CommandError Double
  | .rPush .. => Except CommandError ℕ
  | .lRange .. => List V

def Pauses.duration (pauses : Pauses) : ℕ := pauses.beforeTtl + pauses.beforeSet

def CacheEvent.duration : CacheEvent V → ℕ
  | .pass ms => ms
  | .incrBy _ _ pauses | .rPush _ _ pauses => pauses.duration
  | _ => 0

end Data

variable {V : Type} (defaultTtl : ℤ) (now : ℕ)

namespace LocalLRUCache

/-- An entry is stale when its age exceeds its time to live.  The read of a stale entry deletes
it. -/
def get (cache : Cache V) (key : CacheKey) : Option (key.Value V) × Cache V :=
  match cache.lookup key with
  | none => (none, cache)
  | some e => if e.aliveAt .inclusive now then (some e.value, cache) else (none, cache.erase key)

/-- The remaining time may be negative. -/
def getRemainingTtl (cache : Cache V) (key : CacheKey) : Duration :=
  match cache.lookup key with
  | none => .ms 0
  | some e => e.deadline.elim .infinity fun deadline => .ms (deadline - now)

def set (cache : Cache V) (key : CacheKey) (value : key.Value V) (ttl : Option Duration) :
    Cache V :=
  match ttl.getD (.ms defaultTtl) with
  | .infinity => cache.insert key ⟨value, none⟩
  | .ms resolvedTtl => cache.set now key value resolvedTtl

def delete (cache : Cache V) (key : CacheKey) : Cache V := cache.erase key

/-- `incrBy` and `rPush` read a value, read its time to live and write the new value with it. -/
def readAndSet (cache : Cache V) (key : CacheKey) (change : Option (key.Value V) → key.Value V)
    (pauses : Pauses) : key.Value V × Cache V :=
  let (value, read) := get now cache key
  let remainingTtl := getRemainingTtl (now + pauses.beforeTtl) read key
  (change value, set defaultTtl (now + pauses.duration) read key (change value) (some remainingTtl))

def incrBy (cache : Cache V) (key : String) (amount : Integer) (pauses : Pauses) :
    Double × Cache V :=
  readAndSet defaultTtl now cache (.counter key)
    (fun value => (value.getD (.integer 0)).add (.integer amount.value)) pauses

def rPush (cache : Cache V) (key : String) (value : V) (pauses : Pauses) : ℕ × Cache V :=
  let (values, cache) :=
    readAndSet defaultTtl now cache (.list key) (fun values => values.getD [] ++ [value]) pauses
  (values.length, cache)

def rangeOf (values : List V) (start stop : ℤ) : List V :=
  Js.slice values start ((if stop < 0 then values.length + stop else stop) + 1)

def lRange (cache : Cache V) (key : String) (start stop : ℤ) : List V × Cache V :=
  let (values, cache) := get now cache (.list key)
  (rangeOf (values.getD []) start stop, cache)

def perform (cache : Cache V) : (event : CacheEvent V) → event.Reply × Cache V
  | .pass _ => ((), cache)
  | .set key value ttl =>
      ((), set defaultTtl now cache (.counter key) (.integer value.value) (ttl.map .ms))
  | .get key => get now cache (.counter key)
  | .delete key => ((), delete cache key)
  | .incrBy key amount pauses =>
      let (value, cache) := incrBy defaultTtl now cache key amount pauses
      (.ok value, cache)
  | .rPush key value pauses =>
      let (length, cache) := rPush defaultTtl now cache key value pauses
      (.ok length, cache)
  | .lRange key start stop => lRange now cache key start stop

end LocalLRUCache

/-- A key is there before its time is over and gone afterwards.  Whether it is still there at the
very millisecond is left open. -/
structure RedisExpiry extends Expiry where
  before : ∀ {now deadline}, now < deadline → alive now deadline = true
  after : ∀ {now deadline}, deadline < now → alive now deadline = false

namespace RedisCache

variable (expiry : RedisExpiry) (replies : IntegerReplies) (json : JSONText V)

def read (cache : RedisStore) (key : CacheKey) : Option key.Text :=
  Store.get expiry.toExpiry now cache key

def get (cache : RedisStore) (key : String) : Option Double :=
  (read now expiry cache (.counter key)).map Double.ofText

def set (cache : RedisStore) (key : String) (value : Integer) (ttl : Option ℤ) : RedisStore :=
  cache.set now (.counter key) (Double.integer value.value).text (ttl.getD defaultTtl)

def delete (cache : RedisStore) (key : CacheKey) : RedisStore := cache.erase key

def IsLongLong (n : ℤ) : Prop := -2 ^ 63 ≤ n ∧ n < 2 ^ 63

instance (n : ℤ) : Decidable (IsLongLong n) := inferInstanceAs (Decidable (_ ∧ _))

/-- An integer of 64 bits without superfluous characters. -/
def readLongLong (text : List Char) : Option ℤ :=
  (readSigned text).filter fun n => IsLongLong n ∧ integerText n = text

/-- The command `INCRBY`, which changes a value in place. -/
def incrByCommand (cache : RedisStore) (key : String) (increment : List Char) :
    Except CommandError ℤ × RedisStore :=
  match readLongLong increment,
      readLongLong ((read now expiry cache (.counter key)).getD (integerText 0)) with
  | some increment, some value =>
      let total := value + increment
      if IsLongLong total then
        (.ok total, cache.replace expiry.toExpiry now (.counter key) (integerText total))
      else (.error .overflow, cache)
  | _, _ => (.error .notAnInteger, cache)

def incrBy (cache : RedisStore) (key : String) (amount : Integer) :
    Except CommandError Double × RedisStore :=
  let (result, cache) := incrByCommand now expiry cache key (Double.integer amount.value).text
  (result.map replies.toNumber, cache)

/-- The command `RPUSH` changes a list in place, and the client takes nothing but texts. -/
def rPush (cache : RedisStore) (key : String) (value : V) :
    Except CommandError ℕ × RedisStore :=
  match json.stringify value with
  | none => (.error .invalidArgument, cache)
  | some text =>
      let texts := (read now expiry cache (.list key)).getD [] ++ [text]
      (.ok texts.length, cache.replace expiry.toExpiry now (.list key) texts)

/-- The command `LRANGE`: both indices count from the end if they are negative, a start before
the list is 0, and the stop is part of the range. -/
def rangeOf {α : Type} (values : List α) (start stop : ℤ) : List α :=
  let first := if start < 0 then max (values.length + start) 0 else start
  let last := if stop < 0 then values.length + stop else stop
  (values.take (last + 1).toNat).drop first.toNat

def lRange (cache : RedisStore) (key : String) (start stop : ℤ) : List V :=
  (rangeOf ((read now expiry cache (.list key)).getD []) start stop).map json.parse

def perform (cache : RedisStore) : (event : CacheEvent V) → event.Reply × RedisStore
  | .pass _ => ((), cache)
  | .set key value ttl => ((), set defaultTtl now cache key value ttl)
  | .get key => (get now expiry cache key, cache)
  | .delete key => ((), delete cache key)
  | .incrBy key amount pauses => incrBy (now + pauses.command) expiry replies cache key amount
  | .rPush key value pauses => rPush (now + pauses.command) expiry json cache key value
  | .lRange key start stop => (lRange now expiry json cache key start stop, cache)

end RedisCache

/-- Both back ends, which get the same calls. -/
structure BackEnds (V : Type) where
  now : ℕ
  lru : Cache V
  redis : RedisStore

def BackEnds.empty : BackEnds V := ⟨0, ∅, ∅⟩

def BackEnds.step (expiry : RedisExpiry) (replies : IntegerReplies) (json : JSONText V)
    (st : BackEnds V) (event : CacheEvent V) : Option (BackEnds V) :=
  some { now := st.now + event.duration
         lru := (LocalLRUCache.perform defaultTtl st.now st.lru event).2
         redis := (RedisCache.perform defaultTtl st.now expiry replies json st.redis event).2 }

end JsonRpcRelay.Clients

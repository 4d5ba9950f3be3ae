import JsonRpcRelay.Framework.ExpiringStore
import JsonRpcRelay.RateLimiter.LruRateLimitStore

/-!
# The rate limiter in Redis

One counter for each key, which counts the requests until it expires.
-/

namespace JsonRpcRelay.RateLimiter

open Framework Framework.Store

structure RateLimitKey where
  ip : String
  method : String
  deriving DecidableEq

def RateLimitKey.PREFIX : String := "ratelimit"

def RateLimitKey.toString (key : RateLimitKey) : String :=
  RateLimitKey.PREFIX ++ ":" ++ key.ip ++ ":" ++ key.method

def Call.key (c : Call) : RateLimitKey := ⟨c.ip, c.method⟩

abbrev Counters := Store String fun _ => ℕ

namespace RedisRateLimitStore

section Script

variable (now : ℕ) (counters : Counters) (key : String)

/-- `INCR`.  A new counter does not expire. -/
def incr : ℕ × Counters :=
  match counters.liveEntry .strict now key with
  | some e => (e.value + 1, counters.insert key ⟨e.value + 1, e.deadline⟩)
  | none => (1, counters.insert key ⟨1, none⟩)

/-- The script, which is executed atomically. -/
def luaScript (limit durationSeconds : ℕ) : ℕ × Counters :=
  let (current, incremented) := incr now counters key
  let expiring :=
    if current = 1 then incremented.expire .strict now key (durationSeconds * 1000)
    else incremented
  (if current > limit then 1 else 0, expiring)

end Script

variable (duration : ℕ) (limit : String → ℕ) (counters : Counters)

/-- `Math.ceil(duration / 1000)`. -/
def durationSeconds : ℕ := (duration + 999) / 1000

/-- Whether a request is limited, at the time of the server. -/
def incrementAndCheck (c : Call) : Bool × Counters :=
  let (result, counters') := luaScript c.time counters c.key.toString (limit c.method)
    (durationSeconds duration)
  (result = 1, counters')

/-- What each request of a run returns. -/
def decisions : Counters → List Call → List Bool
  | _, [] => []
  | counters, c :: cs =>
      (incrementAndCheck duration limit counters c).1 ::
        decisions (incrementAndCheck duration limit counters c).2 cs

/-- What the requests of an ip address return. -/
def decisionsAt (ip : String) : Counters → List Call → List Bool
  | _, [] => []
  | counters, c :: cs =>
      if c.ip = ip then (incrementAndCheck duration limit counters c).1 ::
        decisionsAt ip (incrementAndCheck duration limit counters c).2 cs
      else decisionsAt ip (incrementAndCheck duration limit counters c).2 cs

end RedisRateLimitStore

end JsonRpcRelay.RateLimiter

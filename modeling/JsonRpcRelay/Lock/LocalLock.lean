import Mathlib.Logic.Function.Basic
import JsonRpcRelay.Framework.LRUCache
import JsonRpcRelay.Framework.Mutex
import JsonRpcRelay.Framework.Schedule
import JsonRpcRelay.Lock.LockService

/-!
# The local lock strategy

Every address has a lock state with a mutex, in a bounded cache that is asked again at each
call.  A call of `acquireLock` keeps the lock state that it has found and goes on when the mutex
lets it in; `releaseLock` and the timeout look the lock state up by the address.  The code
between two awaits is one step.
-/

namespace JsonRpcRelay.Lock

open Framework

/-- The n-th call of `acquireLock`, with the session key that it draws. -/
abbrev Session := ℕ

structure LockState where
  mutex : Mutex Session
  sessionKey : Option Session
  /-- The timer that was started by this session. -/
  lockTimeoutId : Option Session

def LockState.new : LockState := ⟨Mutex.new, none, none⟩

inductive CallPhase where
  | awaiting
  | holding
  /-- Released by its owner, or held for `LOCK_MAX_HOLD_MS`. -/
  | finished
  deriving DecidableEq

/-- A call of `acquireLock`: its argument, the lock state that it has found, and how far it is. -/
structure LockCall where
  address : String
  state : ℕ
  phase : CallPhase
  deriving DecidableEq

def LockCall.key (c : LockCall) : String := normalizeAddress c.address

structure LocalLock where
  /-- The cache holds references to lock states. -/
  localLockStates : LRUCache String ℕ
  lockState : ℕ → LockState
  nextState : ℕ
  call : Session → Option LockCall
  nextSession : Session
  /-- The timers that are running. -/
  timer : Session → Bool

def LocalLock.init (maxEntries : ℕ) (pos : 0 < maxEntries) : LocalLock where
  localLockStates := LRUCache.empty maxEntries pos
  lockState _ := LockState.new
  nextState := 0
  call _ := none
  nextSession := 0
  timer _ := false

inductive LocalLockEvent where
  /-- `acquireLock` up to its await. -/
  | acquireLock (address : String)
  /-- The rest of `acquireLock`. -/
  | resume (s : Session)
  | releaseLock (address : String) (sessionKey : Session)
  /-- `LOCK_MAX_HOLD_MS` have passed. -/
  | timeout (s : Session)
  deriving DecidableEq

namespace LocalLock

/-- The lock state is found or created, and the cache after that. -/
def getOrCreateState (st : LocalLock) (address : String) : ℕ × LocalLock :=
  let normalizedAddress := normalizeAddress address
  match st.localLockStates.get? normalizedAddress with
  | some state =>
      (state, { st with localLockStates := st.localLockStates.touch normalizedAddress })
  | none =>
      (st.nextState,
        { st with
          localLockStates := (st.localLockStates.set normalizedAddress st.nextState).touch
            normalizedAddress
          lockState := Function.update st.lockState st.nextState LockState.new
          nextState := st.nextState + 1 })

def acquireLock (st : LocalLock) (address : String) : LocalLock :=
  let (state, st) := st.getOrCreateState address
  let lock := st.lockState state
  { st with
    lockState := Function.update st.lockState state
      { lock with mutex := lock.mutex.acquire st.nextSession }
    call := Function.update st.call st.nextSession (some ⟨address, state, .awaiting⟩)
    nextSession := st.nextSession + 1 }

/-- Ownership is recorded in the lock state that the call has kept. -/
def resume (st : LocalLock) (s : Session) : Option LocalLock :=
  match st.call s with
  | some call =>
      let lock := st.lockState call.state
      if call.phase = .awaiting ∧ lock.mutex.owner = some s then
        some { st with
          lockState := Function.update st.lockState call.state
            { lock with sessionKey := some s, lockTimeoutId := some s }
          call := Function.update st.call s (some { call with phase := .holding })
          timer := Function.update st.timer s true }
      else none
  | none => none

def doRelease (st : LocalLock) (state : ℕ) : LocalLock :=
  let lock := st.lockState state
  { st with
    lockState := Function.update st.lockState state ⟨lock.mutex.release, none, none⟩
    timer := match lock.lockTimeoutId with
      | some s => Function.update st.timer s false
      | none => st.timer }

/-- What `releaseLock` and `forceReleaseExpiredLock` have in common. -/
def releaseOwned (st : LocalLock) (address : String) (sessionKey : Session) : LocalLock :=
  let normalizedAddress := normalizeAddress address
  let touched := { st with localLockStates := st.localLockStates.touch normalizedAddress }
  match st.localLockStates.get? normalizedAddress with
  | some state =>
      if (st.lockState state).sessionKey = some sessionKey then touched.doRelease state else touched
  | none => touched

/-- The session has given its lock back, or its time is over. -/
def leave (st : LocalLock) (s : Session) : LocalLock :=
  match st.call s with
  | some call =>
      if call.phase = .holding then
        { st with call := Function.update st.call s (some { call with phase := .finished }) }
      else st
  | none => st

/-- The release is the one of the owner if it names the address of the session. -/
def releaseLock (st : LocalLock) (address : String) (sessionKey : Session) : LocalLock :=
  let released := st.releaseOwned address sessionKey
  if (st.call sessionKey).map LockCall.key = some (normalizeAddress address) then
    released.leave sessionKey
  else released

def timeout (st : LocalLock) (s : Session) : Option LocalLock :=
  match st.call s with
  | some call =>
      if st.timer s then
        let fired := { st with timer := Function.update st.timer s false }
        some ((fired.releaseOwned call.address s).leave s)
      else none
  | none => none

def step (st : LocalLock) : LocalLockEvent → Option LocalLock
  | .acquireLock address => some (st.acquireLock address)
  | .resume s => st.resume s
  | .releaseLock address sessionKey => some (st.releaseLock address sessionKey)
  | .timeout s => st.timeout s

end LocalLock

section Statement

variable (st : LocalLock) (key : String) (s : Session)

/-- The session has been granted the lock and has neither released it nor run out of time. -/
def LocalLock.Granted : Prop :=
  ∃ call, st.call s = some call ∧ call.key = key ∧
    (call.phase = .holding ∨
      call.phase = .awaiting ∧ (st.lockState call.state).mutex.owner = some s)

/-- The call has returned, and the session has the lock. -/
def LocalLock.Holds : Prop :=
  ∃ call, st.call s = some call ∧ call.key = key ∧ call.phase = .holding

/-- The session waits for the lock. -/
def LocalLock.Waits : Prop :=
  ∃ call, st.call s = some call ∧ call.key = key ∧ call.phase = .awaiting ∧
    (st.lockState call.state).mutex.owner ≠ some s

/-- The owner gives the lock back, or its time is over. -/
def LocalLockEvent.ends (e : LocalLockEvent) : Prop :=
  (∃ address, e = .releaseLock address s ∧ normalizeAddress address = key) ∨ e = .timeout s

/-- A new entry does not drop the lock state of an address that a session holds or awaits. -/
def LocalLock.EvictsIdle : LocalLockEvent → Prop
  | .acquireLock address =>
      st.localLockStates.get? (normalizeAddress address) = none →
        ∀ entry ∈ st.localLockStates.victim (normalizeAddress address),
          (st.lockState entry.2).mutex.line = []
  | _ => True

instance : (e : LocalLockEvent) → Decidable (st.EvictsIdle e)
  | .acquireLock address => inferInstanceAs (Decidable
      (st.localLockStates.get? (normalizeAddress address) = none →
        ∀ entry ∈ st.localLockStates.victim (normalizeAddress address),
          (st.lockState entry.2).mutex.line = []))
  | .resume _ | .releaseLock .. | .timeout _ => isTrue trivial

end Statement

end JsonRpcRelay.Lock

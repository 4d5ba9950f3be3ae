import Mathlib.Logic.Function.Basic
import JsonRpcRelay.Framework.Schedule

/-!
# The Redis lock strategy

The keys of one sender address and the `acquireLock` calls that contend for it.  Each
Redis command is one atomic step: an event names the session whose next command the
server executes, and the phase of a session is the command it issues next.  `lPush` puts
a key at the head of the queue list, so the first in line is its last element.

Session keys are random UUIDs, one for each `acquireLock` call: a session is its key.
-/

namespace JsonRpcRelay.Lock

/-- The settings that the constructor of `RedisLockStrategy` reads. -/
structure RedisLockConfig where
  maxLockHoldMs : Nat
  pollIntervalMs : Nat
  heartbeatMissedCount : Nat
  deriving Repr, DecidableEq

def RedisLockConfig.heartbeatTtlMs (cfg : RedisLockConfig) : Nat :=
  cfg.pollIntervalMs * cfg.heartbeatMissedCount

/-- The default settings. -/
def defaultConfig : RedisLockConfig := ⟨30000, 50, 5⟩

/-- Where an `acquireLock` call stands.  `setHeartbeat` carries the end of the sleep that
precedes the next poll, and the last three phases carry what the call resolves to: its
session key, or `none` when it fails open. -/
inductive Phase (σ : Type) where
  | lPush
  | setHeartbeat (notBefore : Nat)
  | lIndex
  | setLock
  | existsHeartbeat (firstInQueue : σ)
  | lRemZombie (firstInQueue : σ)
  | lLen
  | removeFromQueue (result : Option σ)
  | returned (result : Option σ)
  | crashed
  deriving DecidableEq

/-- The call has joined the queue and still polls for the lock. -/
def Phase.polling {σ : Type} : Phase σ → Bool
  | .setHeartbeat _ | .lIndex | .setLock | .existsHeartbeat _ | .lRemZombie _ => true
  | _ => false

/-- The call has joined the queue and has not ended. -/
def Phase.running {σ : Type} : Phase σ → Bool
  | .lPush | .returned _ | .crashed => false
  | _ => true

/-- The call's `SET NX` succeeded. -/
def Phase.acquired {σ : Type} : Phase σ → Bool
  | .lLen | .removeFromQueue (some _) | .returned (some _) => true
  | _ => false

/-- The keys `lock:{address}`, `lock:queue:{address}` and `lock:heartbeat:{sessionKey}`, with
the expiry time of the keys that have one, and the phase of every session. -/
structure RedisLock (σ : Type) where
  now : Nat
  lock : Option (σ × Nat)
  queue : List σ
  heartbeat : σ → Option Nat
  phase : σ → Phase σ

inductive LockEvent (σ : Type) where
  /-- The clock of the server advances. -/
  | advance (ms : Nat)
  /-- The next command of the session is executed and answered. -/
  | command (s : σ)
  /-- The next command of the session ends in a Redis error, before or after its execution. -/
  | commandFails (s : σ) (executed : Bool)
  /-- `releaseLock` is called with this session key. -/
  | releaseLock (s : σ)
  /-- The process that runs the session dies. -/
  | crash (s : σ)
  deriving DecidableEq

variable {σ : Type} [DecidableEq σ]

namespace RedisLock

/-- No session has called `acquireLock` yet. -/
def init : RedisLock σ where
  now := 0
  lock := none
  queue := []
  heartbeat := fun _ => none
  phase := fun _ => .lPush

/-- The value of the lock key, unless it has expired. -/
def holder (st : RedisLock σ) : Option σ :=
  st.lock.bind fun l => if st.now < l.2 then some l.1 else none

/-- The heartbeat key of the session exists. -/
def alive (st : RedisLock σ) (s : σ) : Bool :=
  match st.heartbeat s with
  | some expiry => st.now < expiry
  | none => false

/-- `lIndex(queueKey, -1)`. -/
def firstInQueue (st : RedisLock σ) : Option σ := st.queue.getLast?

/-- The next command of a session: its effect on the keys, and the phase that the call
enters on the reply. -/
def issue (cfg : RedisLockConfig) (st : RedisLock σ) (s : σ) : Option (RedisLock σ × Phase σ) :=
  match st.phase s with
  | .lPush => some ({ st with queue := s :: st.queue }, .setHeartbeat st.now)
  | .setHeartbeat notBefore =>
      if notBefore ≤ st.now then
        some ({ st with heartbeat :=
          Function.update st.heartbeat s (some (st.now + cfg.heartbeatTtlMs)) }, .lIndex)
      else none
  | .lIndex =>
      some (st, match st.firstInQueue with
        | some first => if first = s then .setLock else .existsHeartbeat first
        | none => .setHeartbeat (st.now + cfg.pollIntervalMs))
  | .setLock =>
      if st.holder = none then
        some ({ st with lock := some (s, st.now + cfg.maxLockHoldMs) }, .lLen)
      else some (st, .setHeartbeat (st.now + cfg.pollIntervalMs))
  | .existsHeartbeat first =>
      some (st, if st.alive first then .setHeartbeat (st.now + cfg.pollIntervalMs)
        else .lRemZombie first)
  | .lRemZombie first =>
      -- `lRem` with count 0 removes every occurrence; the poll is repeated without a sleep
      some ({ st with queue := st.queue.filter (· ≠ first) }, .setHeartbeat st.now)
  | .lLen => some (st, .removeFromQueue (some s))
  | .removeFromQueue result => some ({ st with queue := st.queue.erase s }, .returned result)
  | .returned _ => none
  | .crashed => none

/-- Where a Redis error takes the call: the `catch` block resolves to `undefined`, the
`finally` block leaves the queue if `lPush` had been answered, and an error of that
clean-up is only logged. -/
def onError : Phase σ → Option (Phase σ)
  | .lPush => some (.returned none)
  | .removeFromQueue result => some (.returned result)
  | .returned _ | .crashed => none
  | _ => some (.removeFromQueue none)

def setPhase (st : RedisLock σ) (s : σ) (p : Phase σ) : RedisLock σ :=
  { st with phase := Function.update st.phase s p }

/-- The check-and-delete script of `releaseLock`. -/
def release (st : RedisLock σ) (s : σ) : RedisLock σ :=
  if st.holder = some s then { st with lock := none } else st

def step (cfg : RedisLockConfig) (st : RedisLock σ) : LockEvent σ → Option (RedisLock σ)
  | .advance ms => some { st with now := st.now + ms }
  | .command s => (issue cfg st s).map fun r => r.1.setPhase s r.2
  | .commandFails s executed =>
      (issue cfg st s).bind fun r =>
        (onError (st.phase s)).map fun p => (if executed then r.1 else st).setPhase s p
  | .releaseLock s => some (st.release s)
  | .crash s => some (st.setPhase s .crashed)

/-- The event makes the server execute the next command of this session. -/
def executes (e : LockEvent σ) (s : σ) : Prop := e = .command s ∨ e = .commandFails s true

instance (e : LockEvent σ) (s : σ) : Decidable (executes e s) := inferInstanceAs (Decidable (_ ∨ _))

/-- The session that the event lets join the queue. -/
def joins (st : RedisLock σ) : LockEvent σ → List σ
  | .command s | .commandFails s true => if st.phase s = .lPush then [s] else []
  | _ => []

/-- The session whose `SET NX` the event lets succeed. -/
def grants (st : RedisLock σ) : LockEvent σ → List σ
  | .command s | .commandFails s true =>
      if st.phase s = .setLock ∧ st.holder = none then [s] else []
  | _ => []

/-- The event prunes this session from the queue as a zombie. -/
def Prunes (st : RedisLock σ) (e : LockEvent σ) (first : σ) : Prop :=
  first ∈ st.queue ∧ ∃ s, executes e s ∧ st.phase s = .lRemZombie first

section Step

@[simp] theorem setPhase_queue (st : RedisLock σ) (s : σ) (p : Phase σ) :
    (st.setPhase s p).queue = st.queue := rfl

@[simp] theorem setPhase_now (st : RedisLock σ) (s : σ) (p : Phase σ) :
    (st.setPhase s p).now = st.now := rfl

@[simp] theorem setPhase_lock (st : RedisLock σ) (s : σ) (p : Phase σ) :
    (st.setPhase s p).lock = st.lock := rfl

@[simp] theorem setPhase_heartbeat (st : RedisLock σ) (s : σ) (p : Phase σ) :
    (st.setPhase s p).heartbeat = st.heartbeat := rfl

@[simp] theorem setPhase_phase (st : RedisLock σ) (s : σ) (p : Phase σ) :
    (st.setPhase s p).phase = Function.update st.phase s p := rfl

/-- The queue list after the next command of a session. -/
def queueAfter (st : RedisLock σ) (s : σ) : List σ :=
  match st.phase s with
  | .lPush => s :: st.queue
  | .lRemZombie first => st.queue.filter (· ≠ first)
  | .removeFromQueue _ => st.queue.erase s
  | _ => st.queue

/-- The lock key after the next command of a session. -/
def lockAfter (cfg : RedisLockConfig) (st : RedisLock σ) (s : σ) : Option (σ × Nat) :=
  if st.phase s = .setLock ∧ st.holder = none then some (s, st.now + cfg.maxLockHoldMs)
  else st.lock

/-- The heartbeat keys after the next command of a session. -/
def heartbeatAfter (cfg : RedisLockConfig) (st : RedisLock σ) (s : σ) : σ → Option Nat :=
  match st.phase s with
  | .setHeartbeat _ => Function.update st.heartbeat s (some (st.now + cfg.heartbeatTtlMs))
  | _ => st.heartbeat

omit [DecidableEq σ] in
theorem executes_unique {e : LockEvent σ} {s t : σ} (hs : executes e s) (ht : executes e t) :
    s = t := by
  rcases hs with rfl | rfl <;> rcases ht with ht | ht <;> cases ht <;> rfl

theorem mem_joins {st : RedisLock σ} {e : LockEvent σ} {s : σ} :
    s ∈ joins st e ↔ executes e s ∧ st.phase s = .lPush := by
  cases e with
  | command t => by_cases hts : s = t <;> simp_all [joins, executes, eq_comm]
  | commandFails t b =>
    cases b <;> by_cases hts : s = t <;> simp_all [joins, executes, eq_comm]
  | _ => simp [joins, executes]

theorem mem_grants {st : RedisLock σ} {e : LockEvent σ} {s : σ} :
    s ∈ grants st e ↔ executes e s ∧ st.phase s = .setLock ∧ st.holder = none := by
  cases e with
  | command t => by_cases hts : s = t <;> simp_all [grants, executes, eq_comm]
  | commandFails t b =>
    cases b <;> by_cases hts : s = t <;> simp_all [grants, executes, eq_comm]
  | _ => simp [grants, executes]

theorem issue_keys {cfg : RedisLockConfig} {st : RedisLock σ} {s : σ} {r : RedisLock σ × Phase σ}
    (h : issue cfg st s = some r) :
    r.1.now = st.now ∧ r.1.phase = st.phase ∧ r.1.queue = queueAfter st s ∧
      r.1.lock = lockAfter cfg st s ∧ r.1.heartbeat = heartbeatAfter cfg st s := by
  cases hp : st.phase s <;> simp only [issue, hp] at h
  case setHeartbeat t =>
    split at h <;> cases h
    simp [queueAfter, lockAfter, heartbeatAfter, hp]
  case setLock =>
    split at h <;> cases h <;> simp_all [queueAfter, lockAfter, heartbeatAfter]
  all_goals cases h
  all_goals simp [queueAfter, lockAfter, heartbeatAfter, hp]

/-- What one step can do to the phases: only the acting session moves. -/
theorem step_phase {cfg : RedisLockConfig} {st st' : RedisLock σ} {e : LockEvent σ}
    (h : step cfg st e = some st') (t : σ) :
    st'.phase t = st.phase t ∨
      (∃ r, e = .command t ∧ issue cfg st t = some r ∧ st'.phase t = r.2) ∨
      (∃ b, e = .commandFails t b ∧ onError (st.phase t) = some (st'.phase t)) ∨
      (e = .crash t ∧ st'.phase t = .crashed) := by
  cases e with
  | advance ms => cases h; exact Or.inl rfl
  | releaseLock s =>
    cases h
    unfold release
    split <;> exact Or.inl rfl
  | crash s =>
    cases h
    by_cases hts : t = s
    · subst hts; simp
    · simp [hts]
  | command s =>
    obtain ⟨r, hr, rfl⟩ := Option.map_eq_some_iff.mp h
    by_cases hts : t = s
    · subst hts; simp [hr]
    · simp [hts, (issue_keys hr).2.1]
  | commandFails s b =>
    obtain ⟨r, hr, hmap⟩ := Option.bind_eq_some_iff.mp h
    obtain ⟨p, hp, rfl⟩ := Option.map_eq_some_iff.mp hmap
    by_cases hts : t = s
    · subst hts
      exact Or.inr (Or.inr (Or.inl ⟨b, rfl, by cases b <;> simpa using hp⟩))
    · cases b <;> simp [hts, (issue_keys hr).2.1]

theorem step_keys {cfg : RedisLockConfig} {st st' : RedisLock σ} {e : LockEvent σ}
    (h : step cfg st e = some st') :
    (∃ s, executes e s ∧ st'.now = st.now ∧ st'.queue = queueAfter st s ∧
        st'.lock = lockAfter cfg st s ∧ st'.heartbeat = heartbeatAfter cfg st s) ∨
      ((∀ s, ¬ executes e s) ∧ st.now ≤ st'.now ∧ st'.queue = st.queue ∧
        st'.heartbeat = st.heartbeat ∧
        (st'.lock = st.lock ∨ ∃ s, e = .releaseLock s ∧ st.holder = some s ∧ st'.lock = none)) := by
  cases e with
  | advance ms => cases h; right; simp [executes]
  | crash s => cases h; right; simp [executes]
  | releaseLock s =>
    cases h; right
    by_cases hh : st.holder = some s <;> simp [executes, release, hh]
  | command s =>
    obtain ⟨r, hr, rfl⟩ := Option.map_eq_some_iff.mp h
    obtain ⟨hn, _, hq, hl, hb⟩ := issue_keys hr
    exact Or.inl ⟨s, Or.inl rfl, hn, hq, hl, hb⟩
  | commandFails s b =>
    obtain ⟨r, hr, hmap⟩ := Option.bind_eq_some_iff.mp h
    obtain ⟨p, _, rfl⟩ := Option.map_eq_some_iff.mp hmap
    obtain ⟨hn, _, hq, hl, hb⟩ := issue_keys hr
    cases b
    · right; simp [executes]
    · exact Or.inl ⟨s, Or.inr rfl, by simp [hn], by simp [hq], by simp [hl], by simp [hb]⟩

theorem step_now {cfg : RedisLockConfig} {st st' : RedisLock σ} {e : LockEvent σ}
    (h : step cfg st e = some st') : st.now ≤ st'.now := by
  rcases step_keys h with ⟨s, _, hn, _⟩ | ⟨_, hn, _⟩
  · exact Nat.le_of_eq hn.symm
  · exact hn

end Step

end RedisLock

end JsonRpcRelay.Lock

import Mathlib.Data.List.Basic
import JsonRpcRelay.Framework.Fairness
import JsonRpcRelay.Lock.RedisLockQueue

/-!
# Waiting for the Redis lock

`acquireLock` joins the queue with one command and writes its first heartbeat with the next.
Between the two it looks like a crashed waiter, and another session that probes it there
prunes it.  As long as no probe falls into that gap, no live waiter is pruned and every one
of them is served.
-/

namespace JsonRpcRelay.Lock.RedisLock

open Framework

variable {σ : Type} [DecidableEq σ] {cfg : RedisLockConfig}

def NoRedisError (e : LockEvent σ) : Prop := ∀ s b, e ≠ .commandFails s b

/-- No heartbeat key expires while its owner still polls. -/
def HeartbeatsKept (st : RedisLock σ) : Prop :=
  ∀ s, (st.phase s).polling → ∀ expiry ∈ st.heartbeat s, st.now < expiry

/-- No session is probed between its `lPush` and its first heartbeat. -/
def FirstBeatBeforeProbe (st : RedisLock σ) (e : LockEvent σ) : Prop :=
  ∀ s f, executes e s → st.phase s = .existsHeartbeat f → (st.phase f).polling →
    st.heartbeat f ≠ none

/-- The steps considered: the first two parts are assumed of the environment, the third is
the condition under which the code keeps its waiters. -/
structure LiveStep (st : RedisLock σ) (e : LockEvent σ) : Prop where
  noError : NoRedisError e
  kept : HeartbeatsKept st
  firstBeat : FirstBeatBeforeProbe st e

structure WaiterInv (st : RedisLock σ) : Prop extends QueueInv st where
  probed : ∀ s f, st.phase s = .existsHeartbeat f → st.phase f ≠ .lPush
  pruned : ∀ s f, st.phase s = .lRemZombie f →
    (st.phase f).polling = false ∧ st.phase f ≠ .lPush
  left : ∀ s r, st.phase s = .returned r → s ∉ st.queue

omit [DecidableEq σ] in
theorem WaiterInv.init : WaiterInv (RedisLock.init : RedisLock σ) where
  toQueueInv := QueueInv.init
  probed := by simp [RedisLock.init]
  pruned := by simp [RedisLock.init]
  left := by simp [RedisLock.init]

omit [DecidableEq σ] in
theorem WaiterInv.not_prunes {st : RedisLock σ} (hinv : WaiterInv st) {e : LockEvent σ} {f : σ}
    (h : Prunes st e f) : (st.phase f).polling = false := by
  obtain ⟨_, s, _, hs⟩ := h
  exact (hinv.pruned s f hs).1

theorem WaiterInv.step {st st' : RedisLock σ} {e : LockEvent σ} (hinv : WaiterInv st)
    (hlive : LiveStep st e) (h : step cfg st e = some st') : WaiterInv st' where
  toQueueInv := hinv.toQueueInv.step (fun _ hf => hinv.not_prunes hf) h
  probed := by
    intro s f hs hf
    have hpush := (step_lPush h hf).1
    rcases step_phase h s with hsame | ⟨r, rfl, hr, hph⟩ | ⟨b, rfl, _⟩ | ⟨rfl, hph⟩
    · exact hinv.probed s f (hsame ▸ hs) hpush
    · have henter := issue_enters hr
      rw [← hph, hs] at henter
      exact hinv.notJoined f hpush (List.mem_of_getLast? henter.2)
    · exact hlive.noError s b rfl
    · simp [hph] at hs
  pruned := by
    intro s f hs
    apply step_settled h
    rcases step_phase h s with hsame | ⟨r, rfl, hr, hph⟩ | ⟨b, rfl, _⟩ | ⟨rfl, hph⟩
    · exact hinv.pruned s f (hsame ▸ hs)
    · have henter := issue_enters hr
      rw [← hph, hs] at henter
      obtain ⟨hprobe, hdead⟩ := henter
      refine ⟨?_, hinv.probed s f hprobe⟩
      by_contra hpoll
      have hpoll : (st.phase f).polling := by simpa using hpoll
      obtain ⟨expiry, hbeat⟩ := Option.ne_none_iff_exists'.mp
        (hlive.firstBeat s f (Or.inl rfl) hprobe hpoll)
      have hnow := hlive.kept f hpoll expiry hbeat
      simp [alive, hbeat] at hdead
      omega
    · exact absurd rfl (hlive.noError s b)
    · simp [hph] at hs
  left := by
    intro s r hs hmem
    rcases step_phase h s with hsame | ⟨q, rfl, hq, hph⟩ | ⟨b, rfl, _⟩ | ⟨rfl, hph⟩
    · have hold : st.phase s = .returned r := hsame ▸ hs
      rcases mem_queue_of_step h hmem with hin | ⟨_, hpush⟩
      · exact hinv.left s r hold hin
      · simp [hold] at hpush
    · have henter := issue_enters hq
      rw [← hph, hs] at henter
      have henter : st.phase s = .removeFromQueue r := henter
      obtain ⟨q', hq', rfl⟩ := Option.map_eq_some_iff.mp h
      rw [setPhase_queue, (issue_keys hq').2.2.1, queueAfter, henter] at hmem
      exact hinv.nodup.not_mem_erase hmem
    · exact hlive.noError s b rfl
    · simp [hph] at hs

end JsonRpcRelay.Lock.RedisLock

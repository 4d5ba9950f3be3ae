import JsonRpcRelay.Lock.RedisLockQueue

/-!
# Failing open

What an `acquireLock` call leaves behind when a Redis command of it fails.  The clean-up takes
its key out of the queue, and it holds no lock, unless the server executed an `lPush` or a granted
`SET NX` whose reply was lost, or `lLen` failed while the lock was held.
-/

namespace JsonRpcRelay.Lock.RedisLock

variable {σ : Type} [DecidableEq σ]

/-- The clean-up of the session is executed. -/
def CleansUp (s : σ) (st : RedisLock σ) : LockEvent σ → Prop
  | .commandFails t executed => t = s → executed = false → ∀ r, st.phase s ≠ .removeFromQueue r
  | _ => True

/-- The command that fails has taken no effect that the clean-up does not undo. -/
def Undone (s : σ) (st : RedisLock σ) (executed : Bool) : Phase σ → Prop
  | .lPush => executed = false
  | .setLock => executed = true → st.holder ≠ none
  | .lLen => st.holder ≠ some s
  | _ => True

def FailsClean (s : σ) (st : RedisLock σ) : LockEvent σ → Prop
  | .commandFails t executed => t = s → Undone s st executed (st.phase s)
  | _ => True

/-- The session holds no lock before it has acquired one, nor after it failed, and it is not in the
queue once it has failed open. -/
structure FailOpenInv (s : σ) (st : RedisLock σ) : Prop where
  nodup : st.queue.Nodup
  notJoined : ∀ t, st.phase t = .lPush → t ∉ st.queue
  free : (st.phase s).acquired = false → st.phase s ≠ .crashed → st.holder ≠ some s
  left : st.phase s = .returned none → s ∉ st.queue

section Steps

variable {cfg : RedisLockConfig} {st st' : RedisLock σ} {e : LockEvent σ} {s : σ}

omit [DecidableEq σ] in
theorem FailOpenInv.init (s : σ) : FailOpenInv s RedisLock.init where
  nodup := List.nodup_nil
  notJoined := by simp [RedisLock.init]
  free := by simp [RedisLock.init, holder]
  left := by simp [RedisLock.init]

/-- Only its own `SET NX` makes a session the holder. -/
theorem step_holder (h : step cfg st e = some st') (hs : st'.holder = some s) :
    st.holder = some s ∨ s ∈ grants st e := by
  obtain ⟨l, hlock, hl⟩ := Option.bind_eq_some_iff.mp hs
  split at hl
  · rename_i hnow
    obtain rfl := Option.some.inj hl
    have hearlier : st.lock = some l → st.holder = some l.1 := by
      intro hold
      have hmono := step_now h
      simp [holder, hold, Nat.lt_of_le_of_lt hmono hnow]
    rcases step_keys h with ⟨t, ht, hn, _, hlt, _⟩ | ⟨_, _, _, _, hlt | ⟨t, _, _, hnone⟩⟩
    · rw [lockAfter, hlock] at hlt
      split at hlt
      · rename_i hset
        obtain rfl := Option.some.inj hlt
        exact Or.inr (mem_grants.mpr ⟨ht, hset⟩)
      · exact Or.inl (hearlier hlt.symm)
    · exact Or.inl (hearlier (hlt ▸ hlock))
    · simp [hnone] at hlock
  · cases hl

private theorem issue_acquired {r : RedisLock σ × Phase σ} (h : issue cfg st s = some r)
    (hp : (st.phase s).acquired = true) : r.2.acquired = true := by
  cases hphase : st.phase s with
  | lLen =>
    rw [issue, hphase] at h
    obtain rfl := Option.some.inj h
    rfl
  | removeFromQueue result =>
    rw [issue, hphase] at h
    obtain rfl := Option.some.inj h
    cases result with
    | none => simp [hphase, Phase.acquired] at hp
    | some t => rfl
  | returned result => simp [issue, hphase] at h
  | _ => simp [hphase, Phase.acquired] at hp

omit [DecidableEq σ] in
private theorem onError_acquired {p q : Phase σ} (h : onError p = some q) (hp : p.acquired = true) :
    p = .lLen ∨ q.acquired = true := by
  cases p with
  | lLen => exact Or.inl rfl
  | removeFromQueue result =>
    obtain rfl := Option.some.inj h
    cases result with
    | none => cases hp
    | some t => exact Or.inr rfl
  | returned result => cases h
  | _ => cases hp

private theorem FailOpenInv.step_free (hinv : FailOpenInv s st) (hclean : FailsClean s st e)
    (h : step cfg st e = some st') (hacquired : (st'.phase s).acquired = false)
    (hcrashed : st'.phase s ≠ .crashed) : st'.holder ≠ some s := by
  intro hheld
  rcases step_holder h hheld with hold | hgrant
  · rcases step_phase h s with hsame | ⟨r, rfl, hr, hph⟩ | ⟨b, rfl, hph⟩ | ⟨_, hph⟩
    · rw [hsame] at hacquired hcrashed
      exact hinv.free hacquired hcrashed hold
    · have hbefore : (st.phase s).acquired = false := by
        by_contra hwas
        rw [hph, issue_acquired hr (by simpa using hwas)] at hacquired
        cases hacquired
      have hruns : st.phase s ≠ .crashed := fun hdead => by simp [issue, hdead] at hr
      exact hinv.free hbefore hruns hold
    · have hundone : Undone s st b (st.phase s) := hclean rfl
      have hbefore : (st.phase s).acquired = false := by
        by_contra hwas
        rcases onError_acquired hph (by simpa using hwas) with hllen | hstill
        · rw [hllen] at hundone
          exact hundone hold
        · rw [hstill] at hacquired
          cases hacquired
      have hruns : st.phase s ≠ .crashed := fun hdead => by simp [onError, hdead] at hph
      exact hinv.free hbefore hruns hold
    · exact hcrashed hph
  · obtain ⟨hexecutes, hset, hnone⟩ := mem_grants.mp hgrant
    rcases hexecutes with rfl | rfl
    · simp only [step, issue, hset, hnone, if_true, Option.map_some, Option.some.injEq] at h
      simp [← h, Phase.acquired] at hacquired
    · have hundone : Undone s st true (st.phase s) := hclean rfl
      rw [hset] at hundone
      exact hundone rfl hnone

private theorem FailOpenInv.step_left (hinv : FailOpenInv s st) (hcleanUp : CleansUp s st e)
    (hclean : FailsClean s st e) (h : step cfg st e = some st')
    (hret : st'.phase s = .returned none) : s ∉ st'.queue := by
  rcases step_phase h s with hsame | ⟨r, rfl, hr, hph⟩ | ⟨b, rfl, hph⟩ | ⟨_, hph⟩
  · rw [hsame] at hret
    intro hmem
    rcases mem_queue_of_step h hmem with hold | ⟨_, hpush⟩
    · exact hinv.left hret hold
    · simp [hret] at hpush
  · have henter := issue_enters hr
    rw [← hph, hret] at henter
    have hphase : st.phase s = .removeFromQueue none := henter
    obtain ⟨r', hr', rfl⟩ := Option.map_eq_some_iff.mp h
    rw [setPhase_queue, (issue_keys hr').2.2.1, queueAfter, hphase]
    exact hinv.nodup.not_mem_erase
  · obtain ⟨r', hr', hmap⟩ := Option.bind_eq_some_iff.mp h
    obtain ⟨p, hp, rfl⟩ := Option.map_eq_some_iff.mp hmap
    rw [setPhase_queue]
    rw [hret] at hph
    have hundone : Undone s st b (st.phase s) := hclean rfl
    cases hphase : st.phase s with
    | lPush =>
      rw [hphase] at hundone
      obtain rfl : b = false := hundone
      exact hinv.notJoined s hphase
    | removeFromQueue result =>
      cases b with
      | false => exact absurd hphase (hcleanUp rfl rfl result)
      | true =>
        rw [if_pos rfl, (issue_keys hr').2.2.1, queueAfter, hphase]
        exact hinv.nodup.not_mem_erase
    | _ => simp [hphase, onError] at hph
  · simp [hph] at hret

theorem FailOpenInv.step (hinv : FailOpenInv s st) (hok : CleansUp s st e ∧ FailsClean s st e)
    (h : step cfg st e = some st') : FailOpenInv s st' where
  nodup := step_nodup h hinv.nodup hinv.notJoined
  notJoined := step_notJoined h hinv.notJoined
  free := hinv.step_free hok.2 h
  left := hinv.step_left hok.1 hok.2 h

end Steps

section Runs

open Framework

/-- If its clean-up is executed, and no command of it fails that has taken an effect, a call that
fails open holds no lock and is not in the queue, whatever the other sessions do. -/
theorem failing_open_leaves_nothing (cfg : RedisLockConfig) (s : σ) {es : List (LockEvent σ)}
    {st : RedisLock σ} (hok : Along (step cfg) (fun st e => CleansUp s st e ∧ FailsClean s st e)
      init es) (hrun : exec (step cfg) init es = some st) (hret : st.phase s = .returned none) :
    st.holder ≠ some s ∧ s ∉ st.queue := by
  have hinv : FailOpenInv s st := run_invariant (fun _ _ _ hinv hok hstep => hinv.step hok hstep)
    (FailOpenInv.init s) hok hrun
  refine ⟨hinv.free ?_ ?_, hinv.left hret⟩
  · rw [hret]
    rfl
  · rw [hret]
    exact nofun

/-- Its heartbeat fails after the call has joined the queue. -/
def heartbeatFails : List (LockEvent Bool) :=
  [.command true, .command false, .commandFails true false, .command true]

theorem failing_open_leaves_nothing_heartbeat :
    ∃ st, exec (step defaultConfig) init heartbeatFails = some st ∧
      st.phase true = .returned none ∧ st.holder ≠ some true ∧ true ∉ st.queue := by
  have hok : Along (step defaultConfig) (fun st e => CleansUp true st e ∧ FailsClean true st e) init
      heartbeatFails :=
    Along.cons rfl ⟨trivial, trivial⟩ (Along.cons rfl ⟨trivial, trivial⟩
      (Along.cons rfl ⟨fun _ _ _ => nofun, fun _ => trivial⟩
        (Along.cons rfl ⟨trivial, trivial⟩ trivial)))
  exact ⟨_, rfl, rfl, failing_open_leaves_nothing defaultConfig true hok rfl rfl⟩

/-- `lLen` fails after the lock was acquired, the reply of a granted `SET NX` is lost, and the
reply of `lPush` is lost. -/
theorem lock_and_queue_entry_left :
    (∃ st, exec (step defaultConfig) init [.command true, .command true, .command true,
        .command true, .commandFails true false, .command true] = some st ∧
      st.phase true = .returned none ∧ st.holder = some true) ∧
    (∃ st, exec (step defaultConfig) init [.command true, .command true, .command true,
        .commandFails true true, .command true] = some st ∧
      st.phase true = .returned none ∧ st.holder = some true) ∧
    ∃ st, exec (step defaultConfig) init [.commandFails true true] = some st ∧
      st.phase true = .returned none ∧ true ∈ st.queue :=
  ⟨⟨_, rfl, rfl, rfl⟩, ⟨_, rfl, rfl, rfl⟩, ⟨_, rfl, rfl, by decide⟩⟩

end Runs

end JsonRpcRelay.Lock.RedisLock

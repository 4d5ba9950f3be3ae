import JsonRpcRelay.Lock.LocalLock

/-!
# Lock states, calls and cache of the local lock

As long as the cache never drops a lock state that a session holds or awaits, all sessions of an
address stand in line at one lock state, the one that the cache has for the address.
-/

namespace JsonRpcRelay.Lock

open Framework

/-- What holds between the steps: the calls that are not over stand in the line of the lock state
that the cache has for their address, in the order of the calls, and a lock state records the
session that holds it. -/
structure Locks (st : LocalLock) : Prop where
  cached_lt : ∀ key state, st.localLockStates.get? key = some state → state < st.nextState
  cached_inj : ∀ key key' state, st.localLockStates.get? key = some state →
    st.localLockStates.get? key' = some state → key = key'
  call_lt : ∀ s call, st.call s = some call → s < st.nextSession
  line_call : ∀ state s, s ∈ (st.lockState state).mutex.line →
    ∃ call, st.call s = some call ∧ call.state = state ∧ call.phase ≠ .finished
  sorted : ∀ state, (st.lockState state).mutex.line.Pairwise (· < ·)
  cached : ∀ s call, st.call s = some call → call.phase ≠ .finished →
    s ∈ (st.lockState call.state).mutex.line ∧
      st.localLockStates.get? call.key = some call.state
  holding : ∀ s call, st.call s = some call → call.phase = .holding →
    (st.lockState call.state).mutex.owner = some s ∧
      (st.lockState call.state).sessionKey = some s ∧
      (st.lockState call.state).lockTimeoutId = some s ∧ st.timer s = true
  key_call : ∀ state s, (st.lockState state).sessionKey = some s →
    ∃ call, st.call s = some call ∧ call.state = state ∧ call.phase = .holding

variable {st st' : LocalLock} {s : Session} {call : LockCall} {address : String}

theorem locks_init (maxEntries : ℕ) (pos : 0 < maxEntries) :
    Locks (LocalLock.init maxEntries pos) where
  cached_lt _ _ h := by cases h
  cached_inj _ _ _ h := by cases h
  call_lt _ _ h := by cases h
  line_call _ _ h := by cases h
  sorted _ := List.Pairwise.nil
  cached _ _ h := by cases h
  holding _ _ h := by cases h
  key_call _ _ h := by cases h

/-- Only what is found in the cache matters. -/
theorem Locks.congr {cache : LRUCache String ℕ} (h : Locks st)
    (hcache : ∀ key, cache.get? key = st.localLockStates.get? key) :
    Locks { st with localLockStates := cache } where
  cached_lt key state hk := h.cached_lt key state ((hcache key).symm.trans hk)
  cached_inj key key' state hk hk' :=
    h.cached_inj key key' state ((hcache key).symm.trans hk) ((hcache key').symm.trans hk')
  call_lt := h.call_lt
  line_call := h.line_call
  sorted := h.sorted
  cached s call hc hlive :=
    ⟨(h.cached s call hc hlive).1, (hcache call.key).trans (h.cached s call hc hlive).2⟩
  holding := h.holding
  key_call := h.key_call

section Create

def LocalLock.create (st : LocalLock) (key : String) : LocalLock :=
  { st with
    localLockStates := st.localLockStates.set key st.nextState
    lockState := Function.update st.lockState st.nextState LockState.new
    nextState := st.nextState + 1 }

variable {key : String}

@[simp] theorem LocalLock.create_lockState_self :
    (st.create key).lockState st.nextState = LockState.new :=
  Function.update_self ..

private theorem LocalLock.create_lockState_of_ne {state : ℕ} (hstate : state ≠ st.nextState) :
    (st.create key).lockState state = st.lockState state :=
  Function.update_of_ne hstate ..

private theorem LocalLock.get?_create {key' : String} {state : ℕ}
    (hk : (st.create key).localLockStates.get? key' = some state) :
    (key' = key ∧ state = st.nextState) ∨ st.localLockStates.get? key' = some state := by
  by_cases hkey : key' = key
  · subst hkey
    exact .inl ⟨rfl, (Option.some.inj ((LRUCache.get?_set_self ..).symm.trans hk)).symm⟩
  · exact .inr (LRUCache.get?_of_set hkey hk)

private theorem Locks.state_ne_nextState (h : Locks st) (hc : st.call s = some call)
    (hlive : call.phase ≠ .finished) : call.state ≠ st.nextState := by
  intro heq
  have hlt := h.cached_lt _ _ (h.cached s call hc hlive).2
  rw [heq] at hlt
  exact Nat.lt_irrefl _ hlt

/-- A new lock state takes the place of one that nobody holds or awaits. -/
theorem Locks.create (h : Locks st) (hnew : st.localLockStates.get? key = none)
    (hidle : ∀ key' state, st.localLockStates.victim key = some (key', state) →
      (st.lockState state).mutex.line = []) : Locks (st.create key) := by
  constructor
  · intro key' state hk
    rcases LocalLock.get?_create hk with ⟨_, rfl⟩ | hk
    · exact Nat.lt_succ_self _
    · exact Nat.lt_succ_of_lt (h.cached_lt key' state hk)
  · intro key₁ key₂ state hk₁ hk₂
    rcases LocalLock.get?_create hk₁ with ⟨rfl, rfl⟩ | hk₁' <;>
      rcases LocalLock.get?_create hk₂ with ⟨rfl, hstate'⟩ | hk₂'
    · rfl
    · exact absurd (h.cached_lt _ _ hk₂') (Nat.lt_irrefl _)
    · exact absurd (hstate' ▸ h.cached_lt _ _ hk₁') (Nat.lt_irrefl _)
    · exact h.cached_inj key₁ key₂ state hk₁' hk₂'
  · exact h.call_lt
  · intro state s hs
    by_cases hst : state = st.nextState
    · rw [hst, LocalLock.create_lockState_self] at hs
      cases hs
    · rw [LocalLock.create_lockState_of_ne hst] at hs
      exact h.line_call state s hs
  · intro state
    by_cases hst : state = st.nextState
    · rw [hst, LocalLock.create_lockState_self]
      exact List.Pairwise.nil
    · rw [LocalLock.create_lockState_of_ne hst]
      exact h.sorted state
  · intro s call hc hlive
    obtain ⟨hline, hk⟩ := h.cached s call hc hlive
    rw [LocalLock.create_lockState_of_ne (h.state_ne_nextState hc hlive)]
    refine ⟨hline, LRUCache.get?_set_of_ne ?_ hk ?_⟩
    · intro hkey
      rw [hkey, hnew] at hk
      cases hk
    · intro hvictim
      rw [hidle _ _ hvictim] at hline
      cases hline
  · intro s call hc hhold
    have hlive : call.phase ≠ .finished := by rw [hhold]; decide
    rw [LocalLock.create_lockState_of_ne (h.state_ne_nextState hc hlive)]
    exact h.holding s call hc hhold
  · intro state s hs
    by_cases hst : state = st.nextState
    · rw [hst, LocalLock.create_lockState_self] at hs
      cases hs
    · rw [LocalLock.create_lockState_of_ne hst] at hs
      exact h.key_call state s hs

end Create

section Moves

/-- A step of one call at its lock state: in line are the others as before, and the call unless it
is finished. -/
structure Moves (st : LocalLock) (s : Session) (call : LockCall) (lock : LockState) : Prop where
  state : ∀ old, st.call s = some old → old.state = call.state
  line : ∀ s', s' ∈ lock.mutex.line ↔ (s' = s ∧ call.phase ≠ .finished) ∨
    (s' ≠ s ∧ s' ∈ (st.lockState call.state).mutex.line)
  sorted : lock.mutex.line.Pairwise (· < ·)
  cached : call.phase ≠ .finished → st.localLockStates.get? call.key = some call.state
  holding : call.phase = .holding → lock.mutex.owner = some s ∧ lock.sessionKey = some s ∧
    lock.lockTimeoutId = some s
  others : ∀ s', s' ≠ s → (st.lockState call.state).mutex.owner = some s' →
    lock = { st.lockState call.state with mutex := lock.mutex } ∧ lock.mutex.owner = some s'
  key : ∀ s', lock.sessionKey = some s' → (s' = s ∧ call.phase = .holding) ∨
    (s' ≠ s ∧ (st.lockState call.state).sessionKey = some s')

variable {lock : LockState} {n : Session} {timer : Session → Bool}

def LocalLock.move (st : LocalLock) (s : Session) (call : LockCall) (lock : LockState)
    (n : Session) (timer : Session → Bool) : LocalLock :=
  { st with
    lockState := Function.update st.lockState call.state lock
    call := Function.update st.call s (some call)
    nextSession := n
    timer := timer }

section MovedState

variable {s' : Session} {state : ℕ}

@[simp] theorem LocalLock.move_call_self : (st.move s call lock n timer).call s = some call :=
  Function.update_self ..

private theorem LocalLock.move_call_of_ne (hs : s' ≠ s) :
    (st.move s call lock n timer).call s' = st.call s' :=
  Function.update_of_ne hs ..

@[simp] theorem LocalLock.move_lockState_self :
    (st.move s call lock n timer).lockState call.state = lock :=
  Function.update_self ..

private theorem LocalLock.move_lockState_of_ne (hstate : state ≠ call.state) :
    (st.move s call lock n timer).lockState state = st.lockState state :=
  Function.update_of_ne hstate ..

private theorem Locks.line_of_move (h : Locks st) (hmoves : Moves st s call lock)
    (hs' : s' ∈ ((st.move s call lock n timer).lockState state).mutex.line) :
    (s' = s ∧ state = call.state ∧ call.phase ≠ .finished) ∨
      (s' ≠ s ∧ s' ∈ (st.lockState state).mutex.line) := by
  by_cases hstate : state = call.state
  · subst hstate
    rw [LocalLock.move_lockState_self, hmoves.line] at hs'
    exact hs'.imp_left fun hself => ⟨hself.1, rfl, hself.2⟩
  · rw [LocalLock.move_lockState_of_ne hstate] at hs'
    refine .inr ⟨?_, hs'⟩
    rintro rfl
    obtain ⟨old, hc, hold, _⟩ := h.line_call state s' hs'
    exact hstate (hold.symm.trans (hmoves.state old hc))

private theorem Moves.line_move (hmoves : Moves st s call lock) (hs : s' ≠ s)
    (hin : s' ∈ (st.lockState state).mutex.line) :
    s' ∈ ((st.move s call lock n timer).lockState state).mutex.line := by
  by_cases hstate : state = call.state
  · subst hstate
    rw [LocalLock.move_lockState_self, hmoves.line]
    exact .inr ⟨hs, hin⟩
  · rwa [LocalLock.move_lockState_of_ne hstate]

private theorem Moves.lockState_move (hmoves : Moves st s call lock) (hs : s' ≠ s)
    (howner : (st.lockState state).mutex.owner = some s') :
    ((st.move s call lock n timer).lockState state).mutex.owner = some s' ∧
      ((st.move s call lock n timer).lockState state).sessionKey =
        (st.lockState state).sessionKey ∧
      ((st.move s call lock n timer).lockState state).lockTimeoutId =
        (st.lockState state).lockTimeoutId := by
  by_cases hstate : state = call.state
  · subst hstate
    obtain ⟨hlock, hkept⟩ := hmoves.others s' hs howner
    rw [LocalLock.move_lockState_self]
    refine ⟨hkept, ?_⟩
    rw [hlock]
    exact ⟨rfl, rfl⟩
  · rw [LocalLock.move_lockState_of_ne hstate]
    exact ⟨howner, rfl, rfl⟩

private theorem Locks.sessionKey_of_move (h : Locks st) (hmoves : Moves st s call lock)
    (hs' : ((st.move s call lock n timer).lockState state).sessionKey = some s') :
    (s' = s ∧ state = call.state ∧ call.phase = .holding) ∨
      (s' ≠ s ∧ (st.lockState state).sessionKey = some s') := by
  by_cases hstate : state = call.state
  · subst hstate
    rw [LocalLock.move_lockState_self] at hs'
    exact (hmoves.key s' hs').imp_left fun hself => ⟨hself.1, rfl, hself.2⟩
  · rw [LocalLock.move_lockState_of_ne hstate] at hs'
    refine .inr ⟨?_, hs'⟩
    rintro rfl
    obtain ⟨old, hc, hold, _⟩ := h.key_call state s' hs'
    exact hstate (hold.symm.trans (hmoves.state old hc))

end MovedState

/-- A step of one call leaves the others where they are. -/
theorem Locks.move (h : Locks st) (hmoves : Moves st s call lock) (hle : st.nextSession ≤ n)
    (hlt : s < n) (htimer : ∀ s', s' ≠ s → timer s' = st.timer s')
    (hstarted : call.phase = .holding → timer s = true) :
    Locks (st.move s call lock n timer) := by
  constructor
  · exact h.cached_lt
  · exact h.cached_inj
  · intro s' call' hc
    by_cases hs : s' = s
    · rw [hs]
      exact hlt
    · rw [LocalLock.move_call_of_ne hs] at hc
      exact Nat.lt_of_lt_of_le (h.call_lt s' call' hc) hle
  · intro state s' hs'
    rcases h.line_of_move hmoves hs' with ⟨rfl, rfl, hlive⟩ | ⟨hs, hin⟩
    · exact ⟨call, LocalLock.move_call_self, rfl, hlive⟩
    · rw [LocalLock.move_call_of_ne hs]
      exact h.line_call state s' hin
  · intro state
    by_cases hstate : state = call.state
    · rw [hstate, LocalLock.move_lockState_self]
      exact hmoves.sorted
    · rw [LocalLock.move_lockState_of_ne hstate]
      exact h.sorted state
  · intro s' call' hc hlive
    by_cases hs : s' = s
    · subst hs
      rw [LocalLock.move_call_self, Option.some.injEq] at hc
      subst hc
      rw [LocalLock.move_lockState_self]
      exact ⟨(hmoves.line s').mpr (.inl ⟨rfl, hlive⟩), hmoves.cached hlive⟩
    · rw [LocalLock.move_call_of_ne hs] at hc
      obtain ⟨hin, hk⟩ := h.cached s' call' hc hlive
      exact ⟨hmoves.line_move hs hin, hk⟩
  · intro s' call' hc hhold
    by_cases hs : s' = s
    · subst hs
      rw [LocalLock.move_call_self, Option.some.injEq] at hc
      subst hc
      obtain ⟨howner, hkey, htimeout⟩ := hmoves.holding hhold
      rw [LocalLock.move_lockState_self]
      exact ⟨howner, hkey, htimeout, hstarted hhold⟩
    · rw [LocalLock.move_call_of_ne hs] at hc
      obtain ⟨howner, hkey, htimeout, hon⟩ := h.holding s' call' hc hhold
      obtain ⟨howner', hkey', htimeout'⟩ := hmoves.lockState_move hs howner
      exact ⟨howner', hkey'.trans hkey, htimeout'.trans htimeout, (htimer s' hs).trans hon⟩
  · intro state s' hs'
    rcases h.sessionKey_of_move hmoves hs' with ⟨rfl, rfl, hhold⟩ | ⟨hs, hkey⟩
    · exact ⟨call, LocalLock.move_call_self, rfl, hhold⟩
    · rw [LocalLock.move_call_of_ne hs]
      exact h.key_call state s' hkey

end Moves

section Join

def LocalLock.join (st : LocalLock) (state : ℕ) (address : String) : LocalLock :=
  { st with
    lockState := Function.update st.lockState state
      { st.lockState state with mutex := (st.lockState state).mutex.acquire st.nextSession }
    call := Function.update st.call st.nextSession (some ⟨address, state, .awaiting⟩)
    nextSession := st.nextSession + 1 }

theorem Locks.join (h : Locks st) {state : ℕ}
    (hfound : st.localLockStates.get? (normalizeAddress address) = some state) :
    Locks (st.join state address) := by
  have hold : ∀ s call, st.call s = some call → s < st.nextSession := h.call_lt
  have hin : ∀ s ∈ (st.lockState state).mutex.line, s < st.nextSession := by
    intro s hs
    obtain ⟨call, hc, _⟩ := h.line_call state s hs
    exact hold s call hc
  have hmoves : Moves st st.nextSession ⟨address, state, .awaiting⟩
      { st.lockState state with mutex := (st.lockState state).mutex.acquire st.nextSession } := by
    constructor
    · intro old hc
      exact absurd (hold _ old hc) (Nat.lt_irrefl _)
    · intro s'
      simp only [Mutex.acquire_line, List.mem_append, List.mem_singleton]
      constructor
      · rintro (hs | hs)
        · exact .inr ⟨(hin s' hs).ne, hs⟩
        · exact .inl ⟨hs, nofun⟩
      · rintro (hs | hs)
        · exact .inr hs.1
        · exact .inl hs.2
    · simp only [Mutex.acquire_line, List.pairwise_append]
      refine ⟨h.sorted state, List.pairwise_singleton _ _, fun s hs s' hs' => ?_⟩
      rw [List.mem_singleton.mp hs']
      exact hin s hs
    · exact fun _ => hfound
    · exact nofun
    · intro s' _ howner
      exact ⟨rfl, Mutex.owner_acquire howner _⟩
    · intro s' hkey
      obtain ⟨call, hc, _⟩ := h.key_call state s' hkey
      exact .inr ⟨(hold s' call hc).ne, hkey⟩
  exact h.move hmoves (Nat.le_succ _) (Nat.lt_succ_self _) (fun _ _ => rfl) nofun

end Join

section Resume

def LocalLock.enter (st : LocalLock) (s : Session) (call : LockCall) : LocalLock :=
  { st with
    lockState := Function.update st.lockState call.state
      { st.lockState call.state with sessionKey := some s, lockTimeoutId := some s }
    call := Function.update st.call s (some { call with phase := .holding })
    timer := Function.update st.timer s true }

theorem LocalLock.enter_mutex (st : LocalLock) (s : Session) (call : LockCall) (state : ℕ) :
    ((st.enter s call).lockState state).mutex = (st.lockState state).mutex := by
  by_cases hstate : state = call.state
  · simp [LocalLock.enter, hstate]
  · simp [LocalLock.enter, hstate]

/-- The session that the mutex has let in records that it holds the lock. -/
theorem Locks.enter (h : Locks st) (hcall : st.call s = some call)
    (hphase : call.phase = .awaiting)
    (howner : (st.lockState call.state).mutex.owner = some s) : Locks (st.enter s call) := by
  have hlive : call.phase ≠ .finished := by rw [hphase]; decide
  obtain ⟨hin, hk⟩ := h.cached s call hcall hlive
  have hmoves : Moves st s { call with phase := .holding }
      { st.lockState call.state with sessionKey := some s, lockTimeoutId := some s } := by
    constructor
    · intro old hc
      rw [hcall] at hc
      rw [← Option.some.inj hc]
    · intro s'
      by_cases hs : s' = s
      · subst hs
        exact iff_of_true hin (.inl ⟨rfl, nofun⟩)
      · simp [hs]
    · exact h.sorted call.state
    · exact fun _ => hk
    · exact fun _ => ⟨howner, rfl, rfl⟩
    · intro s' hs howner'
      rw [howner] at howner'
      exact absurd (Option.some.inj howner').symm hs
    · intro s' hkey
      exact .inl ⟨(Option.some.inj hkey).symm, rfl⟩
  exact h.move hmoves le_rfl (h.call_lt s call hcall) (fun s' hs => Function.update_of_ne hs _ _)
    fun _ => Function.update_self ..

end Resume

section Pop

/-- The state after the owner of a lock state has left it. -/
def LocalLock.pop (st : LocalLock) (s : Session) (call : LockCall) : LocalLock :=
  { st with
    lockState := Function.update st.lockState call.state
      ⟨(st.lockState call.state).mutex.release, none, none⟩
    call := Function.update st.call s (some { call with phase := .finished })
    timer := Function.update st.timer s false }

theorem Locks.pop (h : Locks st) (hcall : st.call s = some call)
    (hphase : call.phase = .holding) : Locks (st.pop s call) := by
  have howner := (h.holding s call hcall hphase).1
  have hline := Mutex.line_of_owner howner
  have hsorted := h.sorted call.state
  rw [hline, List.pairwise_cons] at hsorted
  have hmoves : Moves st s { call with phase := .finished }
      ⟨(st.lockState call.state).mutex.release, none, none⟩ := by
    constructor
    · intro old hc
      rw [hcall] at hc
      rw [← Option.some.inj hc]
    · intro s'
      rw [hline, List.mem_cons]
      constructor
      · intro hs
        -- the others in line are later calls
        exact .inr ⟨(hsorted.1 s' hs).ne', .inr hs⟩
      · rintro (⟨_, hlive⟩ | ⟨hs, hin⟩)
        · exact absurd rfl hlive
        · exact hin.resolve_left hs
    · exact hsorted.2
    · exact fun hlive => absurd rfl hlive
    · exact nofun
    · intro s' hs howner'
      rw [howner] at howner'
      exact absurd (Option.some.inj howner').symm hs
    · exact nofun
  exact h.move hmoves le_rfl (h.call_lt s call hcall) (fun s' hs => Function.update_of_ne hs _ _)
    nofun

end Pop

end JsonRpcRelay.Lock

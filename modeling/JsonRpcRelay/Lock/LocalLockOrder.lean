import JsonRpcRelay.Lock.LocalLockInvariant

/-!
# The local lock is exclusive and serves in order

Every address has one line of sessions.  A call of `acquireLock` goes to its end, the release or
the timeout of the first one removes it, and nothing else changes a line.
-/

namespace JsonRpcRelay.Lock

open Framework

variable {st st' : LocalLock} {s : Session} {key address : String} {e : LocalLockEvent}

section Lines

/-- The sessions that hold or await the lock of an address. -/
def LocalLock.line (st : LocalLock) (key : String) : List Session :=
  match st.localLockStates.get? key with
  | some state => (st.lockState state).mutex.line
  | none => []

private theorem line_of_found {state : ℕ} (h : st.localLockStates.get? key = some state) :
    st.line key = (st.lockState state).mutex.line := by
  rw [LocalLock.line, h]

theorem Locks.line_sorted (h : Locks st) (key : String) : (st.line key).Pairwise (· < ·) := by
  unfold LocalLock.line
  split
  · exact h.sorted _
  · exact List.Pairwise.nil

theorem Locks.call_of_line (h : Locks st) (hs : s ∈ st.line key) :
    ∃ call, st.call s = some call ∧ call.key = key ∧ call.phase ≠ .finished ∧
      st.line key = (st.lockState call.state).mutex.line := by
  cases hfound : st.localLockStates.get? key with
  | none =>
    rw [LocalLock.line, hfound] at hs
    cases hs
  | some state =>
    rw [line_of_found hfound] at hs ⊢
    obtain ⟨call, hc, rfl, hlive⟩ := h.line_call state s hs
    exact ⟨call, hc, h.cached_inj _ _ _ (h.cached s call hc hlive).2 hfound, hlive, rfl⟩

theorem Locks.key_of_line (h : Locks st) {key' : String} (hs : s ∈ st.line key)
    (hs' : s ∈ st.line key') : key = key' := by
  obtain ⟨call, hcall, hkey, _⟩ := h.call_of_line hs
  obtain ⟨call', hcall', hkey', _⟩ := h.call_of_line hs'
  rw [← hkey, ← hkey', Option.some.inj (hcall.symm.trans hcall')]

private theorem Locks.line_of_call (h : Locks st) {call : LockCall} (hc : st.call s = some call)
    (hlive : call.phase ≠ .finished) :
    s ∈ st.line call.key ∧ st.line call.key = (st.lockState call.state).mutex.line := by
  obtain ⟨hline, hfound⟩ := h.cached s call hc hlive
  have heq := line_of_found hfound
  exact ⟨heq ▸ hline, heq⟩

theorem Locks.granted_iff (h : Locks st) : st.Granted key s ↔ (st.line key).head? = some s := by
  constructor
  · rintro ⟨call, hc, rfl, hphase⟩
    have hlive : call.phase ≠ .finished := by rcases hphase with hp | ⟨hp, _⟩ <;> rw [hp] <;> decide
    rw [(h.line_of_call hc hlive).2]
    rcases hphase with hhold | ⟨_, howner⟩
    · exact (h.holding s call hc hhold).1
    · exact howner
  · intro hhead
    obtain ⟨call, hc, hkey, hlive, hline⟩ := h.call_of_line (List.mem_of_head? hhead)
    refine ⟨call, hc, hkey, ?_⟩
    cases hphase : call.phase with
    | awaiting => exact .inr ⟨rfl, by rw [Mutex.owner, ← hline, hhead]⟩
    | holding => exact .inl rfl
    | finished => exact absurd hphase hlive

theorem Locks.waits_iff (h : Locks st) : st.Waits key s ↔ s ∈ (st.line key).tail := by
  constructor
  · rintro ⟨call, hc, rfl, hphase, howner⟩
    obtain ⟨hin, hline⟩ := h.line_of_call hc (by rw [hphase]; decide)
    rw [hline] at hin ⊢
    cases hcases : (st.lockState call.state).mutex.line with
    | nil => rw [hcases] at hin; cases hin
    | cons o rest =>
      rw [hcases] at hin
      refine (List.mem_cons.mp hin).resolve_left fun heq => howner ?_
      rw [Mutex.owner, hcases, heq, List.head?_cons]
  · intro hs
    have hsorted := h.line_sorted key
    obtain ⟨call, hc, hkey, hlive, hline⟩ := h.call_of_line (List.mem_of_mem_tail hs)
    have howner : (st.lockState call.state).mutex.owner ≠ some s := by
      intro howner
      have hhead := Mutex.line_of_owner howner
      rw [hline, hhead] at hs hsorted
      exact Nat.lt_irrefl _ ((List.pairwise_cons.mp hsorted).1 s hs)
    refine ⟨call, hc, hkey, ?_, howner⟩
    cases hphase : call.phase with
    | awaiting => rfl
    | holding => exact absurd (h.holding s call hc hphase).1 howner
    | finished => exact absurd hphase hlive

end Lines

section Effects

private theorem create_line (h : Locks st) (hnew : st.localLockStates.get? key = none)
    (hidle : ∀ key' state, st.localLockStates.victim key = some (key', state) →
      (st.lockState state).mutex.line = []) (key' : String) :
    (st.create key).line key' = st.line key' := by
  by_cases hkey : key' = key
  · subst hkey
    simp [LocalLock.line, LocalLock.create, LRUCache.get?_set_self, hnew, LockState.new]
  · cases hold : st.localLockStates.get? key' with
    | none =>
      have hnone : (st.localLockStates.set key st.nextState).get? key' = none := by
        rw [Option.eq_none_iff_forall_ne_some]
        intro state hs
        rw [LRUCache.get?_of_set hkey hs] at hold
        cases hold
      simp [LocalLock.line, LocalLock.create, hnone, hold]
    | some state =>
      have hstate : state ≠ st.nextState := Nat.ne_of_lt (h.cached_lt key' state hold)
      by_cases hvictim : st.localLockStates.victim key = some (key', state)
      · rw [line_of_found hold, hidle key' state hvictim]
        unfold LocalLock.line
        split
        · rename_i state' hs
          have hsame : state' = state := by
            simp only [LocalLock.create] at hs
            rw [LRUCache.get?_of_set hkey hs] at hold
            exact Option.some.inj hold
          rw [hsame]
          simp only [LocalLock.create, Function.update_of_ne hstate]
          exact hidle key' state hvictim
        · rfl
      · have hs : (st.create key).localLockStates.get? key' = some state :=
          LRUCache.get?_set_of_ne hkey hold hvictim
        rw [line_of_found hs, line_of_found hold]
        simp only [LocalLock.create, Function.update_of_ne hstate]

private theorem join_line (h : Locks st) {state : ℕ}
    (hfound : st.localLockStates.get? (normalizeAddress address) = some state) (key : String) :
    (st.join state address).line key =
      if key = normalizeAddress address then st.line key ++ [st.nextSession] else st.line key := by
  unfold LocalLock.line LocalLock.join
  by_cases hkey : key = normalizeAddress address
  · subst hkey
    simp [hfound]
  · simp only [if_neg hkey]
    cases hk : st.localLockStates.get? key with
    | none => rfl
    | some state' =>
      have hstate : state' ≠ state := by
        rintro rfl
        exact hkey (h.cached_inj _ _ _ hk hfound)
      simp only [Function.update_of_ne hstate]

private theorem enter_line (st : LocalLock) (s : Session) (call : LockCall) (key : String) :
    (st.enter s call).line key = st.line key := by
  have hcache : (st.enter s call).localLockStates = st.localLockStates := rfl
  unfold LocalLock.line
  rw [hcache]
  cases st.localLockStates.get? key with
  | none => rfl
  | some state => exact congrArg Mutex.line (st.enter_mutex s call state)

private theorem pop_line (h : Locks st) {call : LockCall} (hcall : st.call s = some call)
    (hphase : call.phase = .holding) (key : String) :
    (st.pop s call).line key = if key = call.key then (st.line key).tail else st.line key := by
  have hfound := (h.cached s call hcall (by rw [hphase]; decide)).2
  unfold LocalLock.line LocalLock.pop
  by_cases hkey : key = call.key
  · subst hkey
    simp [hfound]
  · simp only [if_neg hkey]
    cases hk : st.localLockStates.get? key with
    | none => rfl
    | some state =>
      have hstate : state ≠ call.state := by
        rintro rfl
        exact hkey (h.cached_inj _ _ _ hk hfound)
      simp only [Function.update_of_ne hstate]

/-- The use of a key changes nothing but the order in the cache. -/
def LocalLock.touch (st : LocalLock) (key : String) : LocalLock :=
  { st with localLockStates := st.localLockStates.touch key }

theorem Locks.touch (h : Locks st) (key : String) : Locks (st.touch key) :=
  h.congr fun _ => LRUCache.get?_touch

private theorem touch_line (st : LocalLock) (key key' : String) :
    (st.touch key).line key' = st.line key' := by
  unfold LocalLock.line LocalLock.touch
  rw [LRUCache.get?_touch]

end Effects

section Steps

/-- What a step does to the lines and to the calls. -/
inductive LineStep (st st' : LocalLock) (e : LocalLockEvent) : Prop where
  | join (address : String) (event : e = .acquireLock address)
      (line : ∀ key, st'.line key =
        if key = normalizeAddress address then st.line key ++ [st.nextSession] else st.line key)
      (call : ∀ s, s ≠ st.nextSession → st'.call s = st.call s)
  | enter (s : Session) (key : String) (event : e = .resume s)
      (head : (st.line key).head? = some s) (line : ∀ key, st'.line key = st.line key)
      (holds : st'.Holds key s) (call : ∀ s', s' ≠ s → st'.call s' = st.call s')
  | leave (s : Session) (key : String) (event : e.ends key s) (holds : st.Holds key s)
      (line : ∀ key', st'.line key' = if key' = key then (st.line key').tail else st.line key')
      (call : ∀ s', s' ≠ s → st'.call s' = st.call s')
  | idle (line : ∀ key, st'.line key = st.line key) (call : st'.call = st.call)
      (event : ∀ s key, st.Holds key s → ¬ e.ends key s) (resume : ∀ s, e ≠ .resume s)

private theorem acquireLock_step (h : Locks st) (hevict : st.EvictsIdle (.acquireLock address)) :
    Locks (st.acquireLock address) ∧
      LineStep st (st.acquireLock address) (.acquireLock address) := by
  cases hfound : st.localLockStates.get? (normalizeAddress address) with
  | some state =>
    have heq : st.acquireLock address =
        (st.touch (normalizeAddress address)).join state address := by
      simp only [LocalLock.acquireLock, LocalLock.getOrCreateState, hfound]
      rfl
    have htouch := h.touch (normalizeAddress address)
    have hfound' : (st.touch (normalizeAddress address)).localLockStates.get?
        (normalizeAddress address) = some state := by
      simp only [LocalLock.touch, LRUCache.get?_touch, hfound]
    rw [heq]
    refine ⟨htouch.join hfound', .join address rfl (fun key => ?_) fun s hs => ?_⟩
    · rw [join_line htouch hfound', touch_line]
      rfl
    · exact Function.update_of_ne hs _ _
  | none =>
    have heq : st.acquireLock address = ((st.create (normalizeAddress address)).touch
        (normalizeAddress address)).join st.nextState address := by
      simp only [LocalLock.acquireLock, LocalLock.getOrCreateState, hfound]
      rfl
    have hidle : ∀ key' state, st.localLockStates.victim (normalizeAddress address) =
        some (key', state) → (st.lockState state).mutex.line = [] :=
      fun key' state hvictim => hevict hfound (key', state) hvictim
    have htouch := (h.create hfound hidle).touch (normalizeAddress address)
    have hfound' : ((st.create (normalizeAddress address)).touch
        (normalizeAddress address)).localLockStates.get? (normalizeAddress address) =
          some st.nextState := by
      simp only [LocalLock.touch, LRUCache.get?_touch, LocalLock.create, LRUCache.get?_set_self]
    rw [heq]
    refine ⟨htouch.join hfound', .join address rfl (fun key => ?_) fun s hs => ?_⟩
    · rw [join_line htouch hfound', touch_line, create_line h hfound hidle]
      rfl
    · exact Function.update_of_ne hs _ _

private theorem resume_step (h : Locks st) (hstep : st.resume s = some st') :
    Locks st' ∧ LineStep st st' (.resume s) := by
  unfold LocalLock.resume at hstep
  cases hcall : st.call s with
  | none => simp [hcall] at hstep
  | some call =>
    simp only [hcall] at hstep
    split at hstep
    · rename_i hin
      obtain rfl : st.enter s call = st' := Option.some.inj hstep
      have hlive : call.phase ≠ .finished := by rw [hin.1]; decide
      refine ⟨h.enter hcall hin.1 hin.2, .enter s call.key rfl ?_ (enter_line st s call)
        ⟨{ call with phase := .holding }, Function.update_self .., rfl, rfl⟩
        fun s' hs => Function.update_of_ne hs _ _⟩
      rw [(h.line_of_call hcall hlive).2]
      exact hin.2
    · cases hstep

private theorem releaseOwned_of_holding {call : LockCall} (hcall : st.call s = some call)
    (hphase : call.phase = .holding)
    (hfound : st.localLockStates.get? (normalizeAddress address) = some call.state)
    (hkey : (st.lockState call.state).sessionKey = some s)
    (htimer : (st.lockState call.state).lockTimeoutId = some s) :
    (st.releaseOwned address s).leave s = (st.touch (normalizeAddress address)).pop s call := by
  simp only [LocalLock.releaseOwned, hfound, hkey, if_true, LocalLock.doRelease, htimer,
    LocalLock.leave, hcall, hphase]
  rfl

private theorem releaseOwned_of_other
    (hother : ∀ state, st.localLockStates.get? (normalizeAddress address) = some state →
      (st.lockState state).sessionKey ≠ some s) :
    st.releaseOwned address s = st.touch (normalizeAddress address) := by
  cases hfound : st.localLockStates.get? (normalizeAddress address) with
  | none =>
    simp only [LocalLock.releaseOwned, hfound]
    rfl
  | some state =>
    simp only [LocalLock.releaseOwned, hfound, if_neg (hother state hfound)]
    rfl

private theorem leave_of_not_holding (h : ∀ call, st.call s = some call → call.phase ≠ .holding) :
    st.leave s = st := by
  unfold LocalLock.leave
  split
  · rename_i call hcall
    rw [if_neg (h call hcall)]
  · rfl

private theorem pop_step (h : Locks st) {call : LockCall} (hcall : st.call s = some call)
    (hphase : call.phase = .holding) (event : e.ends call.key s) (key : String) :
    Locks ((st.touch key).pop s call) ∧ LineStep st ((st.touch key).pop s call) e := by
  have htouch := h.touch key
  refine ⟨htouch.pop hcall hphase, .leave s call.key event ⟨call, hcall, rfl, hphase⟩
    (fun key' => ?_) fun s' hs => Function.update_of_ne hs _ _⟩
  rw [pop_line htouch hcall hphase, touch_line]

/-- Without an entry of its own in the cache a session does not release anything. -/
theorem sessionKey_ne (h : Locks st)
    (hnot : ∀ call, st.call s = some call → call.phase = .holding →
      call.key ≠ normalizeAddress address) (state : ℕ)
    (hfound : st.localLockStates.get? (normalizeAddress address) = some state) :
    (st.lockState state).sessionKey ≠ some s := by
  intro hkey
  obtain ⟨call, hcall, rfl, hphase⟩ := h.key_call state s hkey
  have hcached := (h.cached s call hcall (by rw [hphase]; decide)).2
  exact hnot call hcall hphase (h.cached_inj _ _ _ hcached hfound)

private theorem releaseLock_step (h : Locks st) :
    Locks (st.releaseLock address s) ∧
      LineStep st (st.releaseLock address s) (.releaseLock address s) := by
  by_cases hown : ∃ call, st.call s = some call ∧ call.phase = .holding ∧
      call.key = normalizeAddress address
  · obtain ⟨call, hcall, hphase, hkey⟩ := hown
    have hfound := (h.cached s call hcall (by rw [hphase]; decide)).2
    obtain ⟨_, hsession, htimer, _⟩ := h.holding s call hcall hphase
    have heq : st.releaseLock address s = (st.touch (normalizeAddress address)).pop s call := by
      rw [← releaseOwned_of_holding hcall hphase (hkey ▸ hfound) hsession htimer]
      simp [LocalLock.releaseLock, hcall, hkey]
    rw [heq]
    exact pop_step h hcall hphase (.inl ⟨address, rfl, hkey.symm⟩) _
  · have hother := releaseOwned_of_other (sessionKey_ne h fun call hcall hphase hkey =>
      hown ⟨call, hcall, hphase, hkey⟩)
    have heq : st.releaseLock address s = st.touch (normalizeAddress address) := by
      unfold LocalLock.releaseLock
      dsimp only
      rw [hother]
      split
      · rename_i hkey
        obtain ⟨call, hcall, hkey⟩ := Option.map_eq_some_iff.mp hkey
        apply leave_of_not_holding
        intro call' hcall' hphase
        obtain rfl : call = call' := Option.some.inj (hcall.symm.trans hcall')
        exact hown ⟨call, hcall, hphase, hkey⟩
      · rfl
    rw [heq]
    refine ⟨h.touch _, .idle (fun key => touch_line st _ key) rfl ?_ nofun⟩
    rintro s' key ⟨call, hcall, hkey, hphase⟩ (⟨address', heq', haddress⟩ | heq')
    · cases heq'
      exact hown ⟨call, hcall, hphase, hkey.trans haddress.symm⟩
    · cases heq'

def LocalLock.stopTimer (st : LocalLock) (s : Session) : LocalLock :=
  { st with timer := Function.update st.timer s false }

private theorem Locks.stopTimer (h : Locks st)
    (hnot : ∀ call, st.call s = some call → call.phase ≠ .holding) :
    Locks (st.stopTimer s) :=
  { h with
    holding := fun s' call hcall hphase => by
      have hs : s' ≠ s := by
        rintro rfl
        exact hnot call hcall hphase
      simp only [LocalLock.stopTimer, Function.update_of_ne hs]
      exact h.holding s' call hcall hphase }

private theorem timeout_step (h : Locks st) (hstep : st.timeout s = some st') :
    Locks st' ∧ LineStep st st' (.timeout s) := by
  unfold LocalLock.timeout at hstep
  cases hcall : st.call s with
  | none => simp [hcall] at hstep
  | some call =>
    simp only [hcall] at hstep
    split at hstep
    · obtain rfl : ((st.stopTimer s).releaseOwned call.address s).leave s = st' :=
        Option.some.inj hstep
      by_cases hphase : call.phase = .holding
      · have hfound := (h.cached s call hcall (by rw [hphase]; decide)).2
        obtain ⟨_, hsession, htimer, _⟩ := h.holding s call hcall hphase
        have heq : ((st.stopTimer s).releaseOwned call.address s).leave s =
            (st.touch call.key).pop s call := by
          rw [@releaseOwned_of_holding (st.stopTimer s) s call.address call hcall hphase hfound
            hsession htimer]
          simp [LocalLock.pop, LocalLock.touch, LocalLock.stopTimer, LockCall.key]
        rw [heq]
        exact pop_step h hcall hphase (.inr rfl) _
      · have hnot : ∀ call', st.call s = some call' → call'.phase ≠ .holding := by
          intro call' hcall'
          rw [← Option.some.inj (hcall.symm.trans hcall')]
          exact hphase
        have hstopped := h.stopTimer hnot
        have hother := releaseOwned_of_other (@sessionKey_ne (st.stopTimer s) s call.address hstopped
          fun call' hcall' hphase' => absurd hphase' (hnot call' hcall'))
        rw [hother, @leave_of_not_holding ((st.stopTimer s).touch _) s hnot]
        refine ⟨hstopped.touch _, .idle (fun key => touch_line _ _ key) rfl ?_ nofun⟩
        rintro s' key ⟨call', hcall', _, hphase'⟩ (⟨_, heq', _⟩ | heq')
        · cases heq'
        · cases heq'
          exact hnot call' hcall' hphase'
    · cases hstep

/-- What any step does as long as no lock state in use is dropped. -/
theorem locks_step (h : Locks st) (hevict : st.EvictsIdle e) (hstep : st.step e = some st') :
    Locks st' ∧ LineStep st st' e := by
  cases e with
  | acquireLock address =>
    obtain rfl := Option.some.inj hstep
    exact acquireLock_step h hevict
  | resume s => exact resume_step h hstep
  | releaseLock address sessionKey =>
    obtain rfl := Option.some.inj hstep
    exact releaseLock_step h
  | timeout s => exact timeout_step h hstep

end Steps

section Owner

theorem LocalLock.Holds.granted (hs : st.Holds key s) : st.Granted key s := by
  obtain ⟨call, hcall, hkey, hphase⟩ := hs
  exact ⟨call, hcall, hkey, .inl hphase⟩

theorem Locks.granted_unique (h : Locks st) {s' : Session} (hs : st.Granted key s)
    (hs' : st.Granted key s') : s = s' := by
  rw [h.granted_iff] at hs hs'
  exact Option.some.inj (hs.symm.trans hs')

private theorem LocalLock.Holds.key_eq (hs : st.Holds key s) {key' : String}
    (hs' : st.Holds key' s) :
    key = key' := by
  obtain ⟨call, hcall, hkey, _⟩ := hs
  obtain ⟨call', hcall', hkey', _⟩ := hs'
  rw [← hkey, ← hkey', Option.some.inj (hcall.symm.trans hcall')]

/-- The owner leaves the line. -/
theorem ended_line (hline : LineStep st st' e) (hs : st.Holds key s) (hends : e.ends key s) :
    st'.line key = (st.line key).tail := by
  cases hline with
  | join address event _ _ => rcases hends with ⟨_, heq, _⟩ | heq <;> cases event.symm.trans heq
  | enter s' key' event _ _ _ _ =>
    rcases hends with ⟨_, heq, _⟩ | heq <;> cases event.symm.trans heq
  | idle _ _ event _ => exact absurd hends (event s key hs)
  | leave s' key' event holds line _ =>
    have hsame : s = s' := by
      rcases hends with ⟨_, heq, _⟩ | heq <;> rcases event with ⟨_, heq', _⟩ | heq' <;>
        cases heq.symm.trans heq' <;> rfl
    rw [line key, if_pos (hs.key_eq (hsame ▸ holds))]

/-- Nobody else ends the holding of the owner. -/
theorem holds_step (h : Locks st) (hline : LineStep st st' e) (hs : st.Holds key s) :
    st'.Holds key s ∨ st'.line key = (st.line key).tail := by
  have hkept : st'.call s = st.call s → st'.Holds key s := by
    intro hsame
    obtain ⟨call, hcall, hrest⟩ := hs
    exact ⟨call, hsame.trans hcall, hrest⟩
  cases hline with
  | join address event line call =>
    refine .inl (hkept (call s ?_))
    rintro rfl
    obtain ⟨call', hcall, _⟩ := hs
    exact Nat.lt_irrefl _ (h.call_lt _ call' hcall)
  | enter s' key' event head line holds call =>
    by_cases hsame : s = s'
    · subst hsame
      have hhead := List.mem_of_head? (h.granted_iff.mp hs.granted)
      exact .inl (h.key_of_line hhead (List.mem_of_head? head) ▸ holds)
    · exact .inl (hkept (call s hsame))
  | leave s' key' event holds line call =>
    by_cases hsame : s = s'
    · exact .inr (by rw [line key, if_pos (hs.key_eq (hsame ▸ holds))])
    · exact .inl (hkept (call s hsame))
  | idle line call event resume => exact .inl (hkept (congrFun call s))

theorem Locks.next_granted (h : Locks st) (hevict : st.EvictsIdle e)
    (hstep : st.step e = some st') (hs : st.Holds key s) (hends : e.ends key s) {w : Session}
    (hw : st.Waits key w) (hfirst : ∀ w', st.Waits key w' → w ≤ w') : st'.Granted key w := by
  have hhead := h.granted_iff.mp hs.granted
  obtain ⟨rest, hline⟩ := List.head?_eq_some_iff.mp hhead
  have hin := h.waits_iff.mp hw
  rw [hline, List.tail_cons] at hin
  obtain ⟨h', hlineStep⟩ := locks_step h hevict hstep
  have hpopped : st'.line key = rest := by
    rw [ended_line hlineStep hs hends, hline, List.tail_cons]
  -- the line is in the order of the calls
  have hsorted := h'.line_sorted key
  rw [h'.granted_iff, hpopped]
  rw [hpopped] at hsorted
  cases rest with
  | nil => cases hin
  | cons o rest =>
    have hle : w ≤ o := hfirst o (h.waits_iff.mpr (by rw [hline]; exact List.mem_cons_self))
    rcases List.mem_cons.mp hin with rfl | hin
    · rfl
    · exact absurd ((List.pairwise_cons.mp hsorted).1 w hin) (Nat.not_lt.mpr hle)

end Owner

end JsonRpcRelay.Lock

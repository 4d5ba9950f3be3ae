import JsonRpcRelay.Framework.Fairness
import JsonRpcRelay.Lock.LocalLockOrder

/-!
# No waiter of the local lock is stranded

The first one in line resumes, and its timer is running until it leaves the line.  So a waiter
moves up until it is the first one.
-/

namespace JsonRpcRelay.Lock

open Framework

variable {st st' : LocalLock} {s w : Session} {key : String} {e : LocalLockEvent} {k : ℕ}

/-- A continuation of `st` in which resolved promises resume and timers fire. -/
structure LocalLock.FairContinuation (st : LocalLock) (run : ℕ → LocalLock)
    (ev : ℕ → LocalLockEvent) : Prop where
  start : run 0 = st
  isRun : IsRun LocalLock.step run ev
  evicts : ∀ n, (run n).EvictsIdle (ev n)
  resumed : ∀ s n call, (run n).call s = some call → call.phase = .awaiting →
    ((run n).lockState call.state).mutex.owner = some s → ∃ m, n ≤ m ∧ ev m = .resume s
  timers : ∀ s n, (run n).timer s = true →
    ∃ m, n ≤ m ∧ (ev m = .timeout s ∨ (run m).timer s = false)

section Steps

/-- The session is the k-th in line and has not resumed. -/
def LocalLock.Stands (st : LocalLock) (key : String) (w : Session) (k : ℕ) : Prop :=
  (st.line key)[k]? = some w ∧ ∃ call, st.call w = some call ∧ call.phase = .awaiting

/-- Unless it resumes or the first one in line leaves, a session keeps its place behind the
same first one. -/
theorem stands_step (h : Locks st) (hline : LineStep st st' e) (hw : st.Stands key w k)
    (hresume : e ≠ .resume w) {o : Session} (ho : (st.line key).head? = some o) :
    (st'.Stands key w k ∧ (st'.line key).head? = some o) ∨
      (∃ k', k = k' + 1 ∧ st'.Stands key w k') := by
  obtain ⟨hk, call, hcall, hphase⟩ := hw
  have hin := List.mem_of_getElem? hk
  cases hline with
  | join address event line hsame =>
    have hne : w ≠ st.nextSession := by
      rintro rfl
      exact Nat.lt_irrefl _ (h.call_lt _ call hcall)
    refine .inl ⟨⟨?_, call, (hsame w hne).trans hcall, hphase⟩, ?_⟩
    · rw [line]
      split
      · rw [List.getElem?_append_left (List.getElem?_eq_some_iff.mp hk).1, hk]
      · exact hk
    · rw [line]
      split
      · rw [List.head?_append, ho, Option.some_or]
      · exact ho
  | enter s key' event head line holds hsame =>
    have hne : w ≠ s := by
      rintro rfl
      exact hresume event
    exact .inl ⟨⟨(line key).symm ▸ hk, call, (hsame w hne).trans hcall, hphase⟩,
      (line key).symm ▸ ho⟩
  | leave s key' event holds line hsame =>
    have hne : w ≠ s := by
      rintro rfl
      obtain ⟨call', hcall', _, hphase'⟩ := holds
      rw [Option.some.inj (hcall'.symm.trans hcall), hphase] at hphase'
      cases hphase'
    by_cases hkey : key = key'
    · subst hkey
      have hhead := h.granted_iff.mp holds.granted
      have hpopped : st'.line key = (st.line key).tail := by rw [line, if_pos rfl]
      cases k with
      | zero =>
        rw [← List.head?_eq_getElem?, hhead] at hk
        exact absurd (Option.some.inj hk).symm hne
      | succ k =>
        refine .inr ⟨k, rfl, ?_, call, (hsame w hne).trans hcall, hphase⟩
        rw [hpopped, List.getElem?_tail, hk]
    · have hkept : st'.line key = st.line key := by rw [line, if_neg hkey]
      exact .inl ⟨⟨hkept ▸ hk, call, (hsame w hne).trans hcall, hphase⟩, hkept ▸ ho⟩
  | idle line hsame event resume =>
    exact .inl ⟨⟨(line key).symm ▸ hk, call, hsame ▸ hcall, hphase⟩, (line key).symm ▸ ho⟩

private theorem holds_of_resume (h : Locks st) (hline : LineStep st st' (.resume w))
    (hin : w ∈ st.line key) : (st.line key).head? = some w ∧ st'.Holds key w := by
  cases hline with
  | join address event _ _ => cases event
  | leave s key' event _ _ _ => rcases event with ⟨_, event, _⟩ | event <;> cases event
  | idle _ _ _ resume => exact absurd rfl (resume w)
  | enter s key' event head line holds _ =>
    cases event
    rw [h.key_of_line hin (List.mem_of_head? head)]
    exact ⟨head, holds⟩

private theorem Locks.first_ne (h : Locks st) {o : Session} (ho : (st.line key).head? = some o)
    (hw : (st.line key)[k + 1]? = some w) : o ≠ w := by
  rintro rfl
  have hsorted := h.line_sorted key
  obtain ⟨rest, hline⟩ := List.head?_eq_some_iff.mp ho
  rw [hline] at hsorted hw
  rw [List.getElem?_cons_succ] at hw
  exact Nat.lt_irrefl o ((List.pairwise_cons.mp hsorted).1 o (List.mem_of_getElem? hw))

end Steps

section Runs

variable {run : ℕ → LocalLock} {ev : ℕ → LocalLockEvent} {n : ℕ}

theorem LocalLock.FairContinuation.locks (hfair : st.FairContinuation run ev) (h : Locks st)
    (n : ℕ) : Locks (run n) := by
  have hstep : ∀ s e t, Locks s → s.EvictsIdle e → s.step e = some t → Locks t :=
    fun s e t hs hevict hstep => (locks_step hs hevict hstep).1
  exact hfair.isRun.invariant hstep (hfair.start ▸ h) hfair.evicts n (Nat.zero_le n)

private theorem LocalLock.FairContinuation.line_step (hfair : st.FairContinuation run ev)
    (h : Locks st) (n : ℕ) : LineStep (run n) (run (n + 1)) (ev n) :=
  (locks_step (hfair.locks h n) (hfair.evicts n) (hfair.isRun n)).2

private theorem first_holds (hfair : st.FairContinuation run ev) (h : Locks st)
    (hw : (run n).Stands key w 0) : ∃ m, n ≤ m ∧ (run m).Holds key w := by
  have hhead : ∀ m, (run m).Stands key w 0 → ((run m).line key).head? = some w := by
    intro m hm
    rw [List.head?_eq_getElem?]
    exact hm.1
  have hsched : ∃ m, n ≤ m ∧ ev m = .resume w := by
    obtain ⟨call, hcall, hphase⟩ := hw.2
    apply hfair.resumed w n call hcall hphase
    have hlocks := hfair.locks h n
    obtain ⟨call', hcall', hkey, _, hline⟩ :=
      hlocks.call_of_line (List.mem_of_head? (hhead n hw))
    rw [Option.some.inj (hcall.symm.trans hcall'), Mutex.owner, ← hline]
    exact hhead n hw
  have hstable : ∀ m, n ≤ m → (run m).Stands key w 0 → ¬ ev m = .resume w →
      (run (m + 1)).Stands key w 0 := by
    intro m _ hm hresume
    rcases stands_step (hfair.locks h m) (hfair.line_step h m) hm hresume (hhead m hm) with
      hkept | ⟨k, hk, _⟩
    · exact hkept.1
    · cases hk
  obtain ⟨m, hnm, hresume, hm⟩ := @next_helpful_from LocalLock LocalLockEvent run ev
    (fun s => s.Stands key w 0) (fun e => e = .resume w) n hw hstable hsched
  have hstep := hfair.line_step h m
  rw [hresume] at hstep
  exact ⟨m + 1, Nat.le_succ_of_le hnm,
    (holds_of_resume (hfair.locks h m) hstep (List.mem_of_head? (hhead m hm))).2⟩

private theorem exists_holds_of_head (hfair : st.FairContinuation run ev) (h : Locks st)
    (hfirst : ((run n).line key).head? = some w) : ∃ m, n ≤ m ∧ (run m).Holds key w := by
  obtain ⟨call, hcall, hkey, hlive, _⟩ :=
    (hfair.locks h n).call_of_line (List.mem_of_head? hfirst)
  cases hphase : call.phase with
  | awaiting =>
    exact first_holds hfair h ⟨List.head?_eq_getElem? ▸ hfirst, call, hcall, hphase⟩
  | holding => exact ⟨n, Nat.le_refl n, call, hcall, hkey, hphase⟩
  | finished => exact absurd hphase hlive

private theorem holder_leaves (hfair : st.FairContinuation run ev) (h : Locks st)
    (hw : (run n).Holds key w) :
    ∃ m, n ≤ m ∧ (run (m + 1)).line key = ((run m).line key).tail := by
  by_contra hstays
  have hholds : ∀ m, n ≤ m → (run m).Holds key w := by
    refine @holds_from LocalLock run (fun s => s.Holds key w) n hw fun m hnm hm => ?_
    exact (holds_step (hfair.locks h m) (hfair.line_step h m) hm).resolve_right
      fun htail => hstays ⟨m, hnm, htail⟩
  have htimer : ∀ m, n ≤ m → (run m).timer w = true := by
    intro m hnm
    obtain ⟨call, hcall, _, hphase⟩ := hholds m hnm
    exact ((hfair.locks h m).holding w call hcall hphase).2.2.2
  obtain ⟨m, hnm, hfires | hstopped⟩ := hfair.timers w n (htimer n (Nat.le_refl n))
  · have hstep := hfair.line_step h m
    rw [hfires] at hstep
    exact hstays ⟨m, hnm, ended_line hstep (hholds m hnm) (.inr rfl)⟩
  · rw [htimer m hnm] at hstopped
    cases hstopped

private theorem waiter_moves_up (hfair : st.FairContinuation run ev) (h : Locks st)
    (hw : (run n).Stands key w (k + 1)) : ∃ m, n ≤ m ∧ (run m).Stands key w k := by
  by_contra hnever
  obtain ⟨o, ho⟩ : ∃ o, ((run n).line key).head? = some o := by
    cases hline : (run n).line key with
    | nil => rw [LocalLock.Stands, hline] at hw; cases hw.1
    | cons o rest => exact ⟨o, rfl⟩
  have hbehind : ∀ m, n ≤ m → (run m).Stands key w (k + 1) ∧
      ((run m).line key).head? = some o := by
    refine @holds_from LocalLock run (fun s => s.Stands key w (k + 1) ∧
      (s.line key).head? = some o) n ⟨hw, ho⟩ fun m hnm hm => ?_
    have hlocks := hfair.locks h m
    have hstep := hfair.line_step h m
    have hresume : ev m ≠ .resume w := by
      intro hresume
      rw [hresume] at hstep
      have hhead := (holds_of_resume hlocks hstep (List.mem_of_getElem? hm.1.1)).1
      exact hlocks.first_ne hhead hm.1.1 rfl
    rcases stands_step hlocks hstep hm.1 hresume hm.2 with hkept | ⟨k', hk', hup⟩
    · exact hkept
    · obtain rfl : k = k' := Nat.succ.inj hk'
      exact absurd ⟨m + 1, Nat.le_succ_of_le hnm, hup⟩ hnever
  obtain ⟨m, hnm, hm⟩ := exists_holds_of_head hfair h ho
  obtain ⟨i, hmi, htail⟩ := holder_leaves hfair h hm
  -- Then another one would be first, but the sessions of a line are different.
  have hfirst := (hbehind (i + 1) (Nat.le_succ_of_le (hnm.trans hmi))).2
  obtain ⟨rest, hline⟩ := List.head?_eq_some_iff.mp (hbehind i (hnm.trans hmi)).2
  have hsorted := (hfair.locks h i).line_sorted key
  rw [htail, hline, List.tail_cons] at hfirst
  rw [hline] at hsorted
  exact Nat.lt_irrefl o ((List.pairwise_cons.mp hsorted).1 o (List.mem_of_head? hfirst))

private theorem stands_leadsTo_holds (hfair : st.FairContinuation run ev) (h : Locks st)
    (hw : (run n).Stands key w k) : ∃ m, n ≤ m ∧ (run m).Holds key w := by
  induction k generalizing n with
  | zero => exact first_holds hfair h hw
  | succ k ih =>
    obtain ⟨m, hnm, hm⟩ := waiter_moves_up hfair h hw
    obtain ⟨i, hmi, hi⟩ := ih hm
    exact ⟨i, hnm.trans hmi, hi⟩

private theorem waits_leadsTo_holds (hfair : st.FairContinuation run ev) (h : Locks st)
    (hw : (run n).Waits key w) : ∃ m, n ≤ m ∧ (run m).Holds key w := by
  have hin := List.mem_of_mem_tail ((hfair.locks h n).waits_iff.mp hw)
  obtain ⟨k, hk⟩ := List.mem_iff_getElem?.mp hin
  obtain ⟨call, hcall, _, hphase, _⟩ := hw
  exact stands_leadsTo_holds hfair h ⟨hk, call, hcall, hphase⟩

/-- In every run in which no lock state in use is dropped from the cache: at most one session at
a time has been granted the lock of an address, whatever its letter case; when the owner
releases it or its time is over, the next waiter is granted it; and every waiter comes to hold
the lock if promises go on and timers fire. -/
theorem localLock_exclusive_and_live {maxEntries : ℕ} {pos : 0 < maxEntries}
    {es : List LocalLockEvent}
    (hevicts : Along LocalLock.step LocalLock.EvictsIdle (LocalLock.init maxEntries pos) es)
    (hrun : exec LocalLock.step (LocalLock.init maxEntries pos) es = some st) :
    (∀ key s s', st.Granted key s → st.Granted key s' → s = s') ∧
    (∀ e st' key s w, st.step e = some st' → st.Holds key s → e.ends key s → st.Waits key w →
      (∀ w', st.Waits key w' → w ≤ w') → st'.Granted key w) ∧
    ∀ run ev, st.FairContinuation run ev →
      ∀ key w n, (run n).Waits key w → ∃ m, n ≤ m ∧ (run m).Holds key w := by
  have h : Locks st := by
    refine run_invariant (I := Locks) ?_ (locks_init maxEntries pos) hevicts hrun
    exact fun s e t hs hevict hstep => (locks_step hs hevict hstep).1
  refine ⟨fun key s s' => h.granted_unique, ?_, fun run ev hfair key w n => waits_leadsTo_holds hfair h⟩
  intro e st' key s w hstep hs hends hw hfirst
  have hevict : st.EvictsIdle e := by
    rcases hends with ⟨_, rfl, _⟩ | rfl <;> trivial
  exact h.next_granted hevict hstep hs hends hw hfirst

end Runs

section Example

/-- Two sessions of one address, and the release of the first one. -/
def releasedOnce : List LocalLockEvent :=
  [.acquireLock "0xA1", .resume 0, .acquireLock "0xa1"]

theorem localLock_exclusive_and_live_pair : ∃ st st' : LocalLock,
    exec LocalLock.step (LocalLock.init 1 Nat.one_pos) releasedOnce = some st ∧
    st.step (.releaseLock "0xA1" 0) = some st' ∧ st'.Granted "0xa1" 1 := by
  have hend : (exec LocalLock.step (LocalLock.init 1 Nat.one_pos) releasedOnce).map
      (fun st => (st.call 0, st.call 1, (st.lockState 0).mutex.line)) =
      some (some ⟨"0xA1", 0, .holding⟩, some ⟨"0xa1", 0, .awaiting⟩, [0, 1]) := by
    decide +kernel
  obtain ⟨st, hrun, hst⟩ := Option.map_eq_some_iff.mp hend
  simp only [Prod.mk.injEq] at hst
  obtain ⟨hfirst, hsecond, hline⟩ := hst
  have hevicts : Along LocalLock.step LocalLock.EvictsIdle (LocalLock.init 1 Nat.one_pos)
      releasedOnce := by decide +kernel
  have hkey : normalizeAddress "0xA1" = "0xa1" ∧ normalizeAddress "0xa1" = "0xa1" := by
    decide +kernel
  refine ⟨st, st.releaseLock "0xA1" 0, hrun, rfl, ?_⟩
  have hwaits : st.Waits "0xa1" 1 := ⟨_, hsecond, hkey.2, rfl, by simp [Mutex.owner, hline]⟩
  refine (localLock_exclusive_and_live hevicts hrun).2.1 (.releaseLock "0xA1" 0) _ "0xa1" 0 1 rfl
    ⟨_, hfirst, hkey.1, rfl⟩ (.inl ⟨"0xA1", rfl, hkey.1⟩) hwaits ?_
  rintro w' ⟨call, hcall, _, hphase, _⟩
  refine Nat.one_le_iff_ne_zero.mpr ?_
  rintro rfl
  rw [hfirst, Option.some.injEq] at hcall
  rw [← hcall] at hphase
  cases hphase

/-- The entry of an address is dropped while a session holds its lock, and a second session is
granted the lock at a new lock state. -/
def grantedTwice : List LocalLockEvent :=
  [.acquireLock "0xA1", .resume 0, .acquireLock "0xB2", .resume 1, .acquireLock "0xA1", .resume 2]

/-- The entry is dropped while a session holds the lock and another one waits: neither the release
nor the timeout of the first one reaches the mutex of the second one. -/
def stranded : List LocalLockEvent :=
  [.acquireLock "0xA1", .resume 0, .acquireLock "0xA1", .acquireLock "0xB2",
    .releaseLock "0xA1" 0, .timeout 0]

theorem lock_dropped_while_held :
    (∃ st, exec LocalLock.step (LocalLock.init 1 Nat.one_pos) grantedTwice = some st ∧
      st.Granted "0xa1" 0 ∧ st.Granted "0xa1" 2) ∧
    ∃ st st' : LocalLock,
      exec LocalLock.step (LocalLock.init 1 Nat.one_pos) (stranded.take 4) = some st ∧
      exec LocalLock.step (LocalLock.init 1 Nat.one_pos) stranded = some st' ∧
      st.Holds "0xa1" 0 ∧ st.Waits "0xa1" 1 ∧ ¬ st'.Holds "0xa1" 0 ∧ st'.Waits "0xa1" 1 := by
  have hkey : normalizeAddress "0xA1" = "0xa1" := by decide +kernel
  constructor
  · have hend : (exec LocalLock.step (LocalLock.init 1 Nat.one_pos) grantedTwice).map
        (fun st => (st.call 0, st.call 2)) =
        some (some ⟨"0xA1", 0, .holding⟩, some ⟨"0xA1", 2, .holding⟩) := by decide +kernel
    obtain ⟨st, hrun, hst⟩ := Option.map_eq_some_iff.mp hend
    obtain ⟨hfirst, hsecond⟩ := Prod.mk.inj hst
    exact ⟨st, hrun, ⟨_, hfirst, hkey, .inl rfl⟩, ⟨_, hsecond, hkey, .inl rfl⟩⟩
  · have hheld : (exec LocalLock.step (LocalLock.init 1 Nat.one_pos) (stranded.take 4)).map
        (fun st => (st.call 0, st.call 1, (st.lockState 0).mutex.line)) =
        some (some ⟨"0xA1", 0, .holding⟩, some ⟨"0xA1", 0, .awaiting⟩, [0, 1]) := by
      decide +kernel
    have hover : (exec LocalLock.step (LocalLock.init 1 Nat.one_pos) stranded).map
        (fun st => (st.call 0, st.call 1, (st.lockState 0).mutex.line)) =
        some (some ⟨"0xA1", 0, .finished⟩, some ⟨"0xA1", 0, .awaiting⟩, [0, 1]) := by decide +kernel
    obtain ⟨st, hrun, hst⟩ := Option.map_eq_some_iff.mp hheld
    obtain ⟨st', hrun', hst'⟩ := Option.map_eq_some_iff.mp hover
    simp only [Prod.mk.injEq] at hst hst'
    obtain ⟨hfirst, hsecond, hline⟩ := hst
    obtain ⟨hfirst', hsecond', hline'⟩ := hst'
    refine ⟨st, st', hrun, hrun', ⟨_, hfirst, hkey, rfl⟩,
      ⟨_, hsecond, hkey, rfl, by simp [Mutex.owner, hline]⟩, ?_,
      ⟨_, hsecond', hkey, rfl, by simp [Mutex.owner, hline']⟩⟩
    rintro ⟨call, hcall, _, hphase⟩
    rw [hfirst', Option.some.injEq] at hcall
    rw [← hcall] at hphase
    cases hphase

end Example

end JsonRpcRelay.Lock

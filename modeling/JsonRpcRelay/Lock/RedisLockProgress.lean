import Mathlib.Data.List.TakeWhile
import JsonRpcRelay.Lock.RedisLockWaiters

/-!
# Every waiter of the Redis lock is served

The sessions ahead of a waiter leave the queue one after the other: a live one acquires the
lock and cleans up, a crashed one is pruned once its heartbeat has expired.  The first in
line acquires the lock as soon as the key of the last holder is gone.
-/

namespace JsonRpcRelay.Lock.RedisLock

open Framework

variable {σ : Type} [DecidableEq σ] {cfg : RedisLockConfig}

/-- A continuation of `st` in which every running session is scheduled again and again, until
it crashes, and time passes. -/
structure FairContinuation (cfg : RedisLockConfig) (st : RedisLock σ) (run : ℕ → RedisLock σ)
    (ev : ℕ → LockEvent σ) : Prop where
  start : run 0 = st
  isRun : IsRun (step cfg) run ev
  live : ∀ n, LiveStep (run n) (ev n)
  scheduled : ∀ s n, ((run n).phase s).running →
    ∃ m, n ≤ m ∧ (ev m = .command s ∨ ev m = .crash s)
  clock : ∀ t, ∃ n, t ≤ (run n).now

section Steps

variable {st st' : RedisLock σ} {e : LockEvent σ}

private theorem step_heartbeat (h : step cfg st e = some st') {f : σ} (hf : ¬ executes e f) :
    st'.heartbeat f = st.heartbeat f := by
  rcases step_keys h with ⟨s, hs, _, _, _, hb⟩ | ⟨_, _, _, hb, _⟩
  · have hsf : f ≠ s := by
      rintro rfl
      exact hf hs
    unfold heartbeatAfter at hb
    split at hb <;> rw [hb]
    exact Function.update_of_ne hsf _ _
  · rw [hb]

private theorem step_polling_or_acquired (h : step cfg st e = some st') (hlive : NoRedisError e)
    {s : σ} (hs : (st.phase s).polling) (hcrash : st'.phase s ≠ .crashed) :
    (st'.phase s).polling ∨ (st'.phase s).acquired := by
  rcases step_phase h s with hsame | ⟨r, rfl, hr, hph⟩ | ⟨b, rfl, _⟩ | ⟨rfl, hph⟩
  · exact Or.inl (hsame ▸ hs)
  · have henter := issue_enters hr
    rw [hph]
    cases hr2 : r.2 <;> rw [hr2] at henter <;> simp only [EnteredFrom] at henter
    case removeFromQueue => simp [henter.1, Phase.polling] at hs
    case returned => simp [henter, Phase.polling] at hs
    all_goals simp [Phase.polling, Phase.acquired]
  · exact absurd rfl (hlive s b)
  · exact absurd hph hcrash

private theorem step_crashed (h : step cfg st e = some st') {s : σ} (hs : st.phase s = .crashed) :
    st'.phase s = .crashed := by
  rcases step_phase h s with hsame | ⟨r, rfl, hr, hph⟩ | ⟨b, rfl, hph⟩ | ⟨rfl, hph⟩
  · exact hsame ▸ hs
  · simp [issue, hs] at hr
  · simp [onError, hs] at hph
  · exact hph

private theorem step_first_of_mem (hinv : QueueInv st) (h : step cfg st e = some st') {f : σ}
    (hf : st.firstInQueue = some f) (hmem : f ∈ st'.queue) : st'.firstInQueue = some f := by
  refine step_firstInQueue h hf ?_ ?_
  · rintro ⟨_, s, hs, hphase⟩
    rcases step_keys h with ⟨t, ht, _, hq, _⟩ | ⟨hidle, _⟩
    · obtain rfl : s = t := executes_unique hs ht
      rw [hq, queueAfter, hphase] at hmem
      simp at hmem
    · exact hidle s hs
  · intro hs r hphase
    rcases step_keys h with ⟨t, ht, _, hq, _⟩ | ⟨hidle, _⟩
    · obtain rfl : f = t := executes_unique hs ht
      rw [hq, queueAfter, hphase] at hmem
      exact hinv.nodup.not_mem_erase hmem
    · exact hidle f hs

private theorem step_lock (h : step cfg st e = some st') (hinv : QueueInv st) :
    st'.lock = st.lock ∨ st'.lock = none ∨
      ∃ s, st.firstInQueue = some s ∧ (st'.phase s).polling = false := by
  rcases step_keys h with ⟨s, hs, _, _, hl, _⟩ | ⟨_, _, _, _, hl⟩
  · unfold lockAfter at hl
    split at hl
    · rename_i hset
      have hgrant : s ∈ grants st e := mem_grants.mpr ⟨hs, hset⟩
      exact Or.inr (Or.inr ⟨s, hinv.first s hset.1, grant_leaves_loop h hgrant⟩)
    · exact Or.inl hl
  · rcases hl with hl | ⟨_, _, _, hl⟩
    · exact Or.inl hl
    · exact Or.inr (Or.inl hl)

end Steps

section Ahead

/-- The sessions that are served before `s`. -/
def ahead (st : RedisLock σ) (s : σ) : List σ := st.queue.reverse.takeWhile (· ≠ s)

private theorem takeWhile_filter_sublist {l : List σ} {s : σ} {p : σ → Bool} (hp : p s) :
    ((l.filter p).takeWhile (· ≠ s)).Sublist (l.takeWhile (· ≠ s)) := by
  have heq : (fun a => !p a || decide (a ≠ s)) = fun a => decide (a ≠ s) := by
    funext a
    by_cases ha : a = s
    · simp [ha, hp]
    · simp [ha]
  rw [List.takeWhile_filter, heq]
  exact List.filter_sublist

/-- Nobody overtakes a session that stays in the queue. -/
theorem step_ahead {st st' : RedisLock σ} {e : LockEvent σ} (hinv : QueueInv st)
    (h : step cfg st e = some st') {s : σ} (hs : s ∈ st.queue) (hs' : s ∈ st'.queue) :
    (ahead st' s).Sublist (ahead st s) := by
  unfold ahead
  rcases step_keys h with ⟨t, _, _, hq, _⟩ | ⟨_, _, hq, _⟩
  · rw [hq] at hs' ⊢
    unfold queueAfter at hs' ⊢
    split
    · have hlong : (st.queue.reverse.takeWhile (· ≠ s)).length ≠ st.queue.reverse.length := by
        intro hlen
        have hall := List.takeWhile_eq_self_iff.mp
          ((List.takeWhile_sublist _).eq_of_length hlen) s (List.mem_reverse.mpr hs)
        simp at hall
      rw [List.reverse_cons, List.takeWhile_append, if_neg hlong]
    · rename_i f hf
      simp only [hf] at hs'
      rw [← List.filter_reverse]
      exact takeWhile_filter_sublist (List.mem_filter.mp hs').2
    · rename_i r hr
      simp only [hr, hinv.nodup.erase_eq_filter] at hs' ⊢
      rw [← List.filter_reverse]
      exact takeWhile_filter_sublist (List.mem_filter.mp hs').2
    · exact List.Sublist.refl _
  · rw [hq]

omit [DecidableEq σ] in
private theorem mem_ahead_queue [DecidableEq σ] {st : RedisLock σ} {s f : σ} (h : f ∈ ahead st s) :
    f ∈ st.queue := List.mem_reverse.mp ((List.takeWhile_sublist _).mem h)

private theorem first_mem_ahead {st : RedisLock σ} {s f : σ} (hf : st.firstInQueue = some f)
    (hfs : f ≠ s) : f ∈ ahead st s := by
  obtain ⟨l, hl⟩ := List.getLast?_eq_some_iff.mp hf
  simp [ahead, hl, hfs]

end Ahead

section Run

variable {st : RedisLock σ} {run : ℕ → RedisLock σ} {ev : ℕ → LockEvent σ}

namespace FairContinuation

private theorem waiterInv (hrun : FairContinuation cfg st run ev) (hinv : WaiterInv st) (n : ℕ) :
    WaiterInv (run n) :=
  hrun.isRun.invariant (fun _ _ _ hs hok h => hs.step hok h) (hrun.start ▸ hinv) hrun.live n
    n.zero_le

private theorem now_mono (hrun : FairContinuation cfg st run ev) {n m : ℕ} (hnm : n ≤ m) :
    (run n).now ≤ (run m).now :=
  related_from (R := fun s t : RedisLock σ => s.now ≤ t.now) (fun _ => Nat.le_refl _)
    (fun _ _ _ => Nat.le_trans) (fun k _ => step_now (hrun.isRun k)) m hnm

private theorem next_command (hrun : FairContinuation cfg st run ev) {s : σ}
    (hcrash : ∀ n, (run n).phase s ≠ .crashed) {n : ℕ} (hs : ((run n).phase s).running) :
    ∃ m, n ≤ m ∧ (run m).phase s = (run n).phase s ∧
      ∃ r, issue cfg (run m) s = some r ∧ run (m + 1) = r.1.setPhase s r.2 := by
  let helpful : LockEvent σ → Prop := fun e =>
    e = .command s ∨ e = .crash s ∨ ∃ b, e = .commandFails s b
  have hstable : ∀ (t : RedisLock σ) e u, t.phase s = (run n).phase s → ¬ helpful e →
      step cfg t e = some u → u.phase s = (run n).phase s := by
    intro t e u ht hidle h
    rcases step_phase h s with hsame | ⟨r, rfl, _⟩ | ⟨b, rfl, _⟩ | ⟨rfl, _⟩
    · exact hsame.trans ht
    · exact absurd (Or.inl rfl) hidle
    · exact absurd (Or.inr (Or.inr ⟨b, rfl⟩)) hidle
    · exact absurd (Or.inr (Or.inl rfl)) hidle
  obtain ⟨k, hnk, hk⟩ := hrun.scheduled s n hs
  have hsched : ∃ m, n ≤ m ∧ helpful (ev m) := ⟨k, hnk, hk.elim Or.inl fun hc => Or.inr (Or.inl hc)⟩
  obtain ⟨m, hnm, hev, hph⟩ := hrun.isRun.next_helpful hstable rfl hsched
  have hstep := hrun.isRun m
  rcases hev with hev | hev | ⟨b, hev⟩
  · rw [hev] at hstep
    obtain ⟨r, hr, hnext⟩ := Option.map_eq_some_iff.mp hstep
    exact ⟨m, hnm, hph, r, hr, hnext.symm⟩
  · rw [hev] at hstep
    refine absurd ?_ (hcrash (m + 1))
    rw [← Option.some.inj hstep]
    simp
  · exact absurd hev ((hrun.live m).noError s b)

section Waiting

variable {s : σ} {n : ℕ}

private theorem index_of_setHeartbeat (hrun : FairContinuation cfg st run ev)
    (hcrash : ∀ n, (run n).phase s ≠ .crashed) {t : ℕ} (ht : (run n).phase s = .setHeartbeat t) :
    ∃ m, n ≤ m ∧ (run m).phase s = .lIndex := by
  have hrunning : ((run n).phase s).running := by simp [ht, Phase.running]
  obtain ⟨m, hnm, hph, r, hr, hnext⟩ := hrun.next_command hcrash hrunning
  refine ⟨m + 1, by omega, ?_⟩
  simp only [issue, hph, ht] at hr
  split at hr <;> cases hr
  simp [hnext]

private theorem index_of_remZombie (hrun : FairContinuation cfg st run ev)
    (hcrash : ∀ n, (run n).phase s ≠ .crashed) {f : σ} (hf : (run n).phase s = .lRemZombie f) :
    ∃ m, n ≤ m ∧ (run m).phase s = .lIndex := by
  have hrunning : ((run n).phase s).running := by simp [hf, Phase.running]
  obtain ⟨m, hnm, hph, r, hr, hnext⟩ := hrun.next_command hcrash hrunning
  simp only [issue, hph, hf] at hr
  cases hr
  obtain ⟨m', hm', hindex⟩ := @index_of_setHeartbeat _ _ _ _ _ _ s (m + 1) hrun hcrash
    (run m).now (by simp [hnext])
  exact ⟨m', by omega, hindex⟩

private theorem exists_index (hrun : FairContinuation cfg st run ev)
    (hcrash : ∀ n, (run n).phase s ≠ .crashed)
    (hpoll : ∀ m, n ≤ m → ((run m).phase s).polling) :
    ∃ m, n ≤ m ∧ (run m).phase s = .lIndex := by
  cases hp : (run n).phase s with
  | setHeartbeat t => exact hrun.index_of_setHeartbeat hcrash hp
  | lIndex => exact ⟨n, Nat.le_refl n, hp⟩
  | lRemZombie f => exact hrun.index_of_remZombie hcrash hp
  | setLock =>
    have hrunning : ((run n).phase s).running := by simp [hp, Phase.running]
    obtain ⟨m, hnm, hph, r, hr, hnext⟩ := hrun.next_command hcrash hrunning
    have hpoll' := hpoll (m + 1) (by omega)
    simp only [issue, hph, hp] at hr
    split at hr <;> cases hr
    · simp [hnext, Phase.polling] at hpoll'
    · obtain ⟨m', hm', hindex⟩ := @index_of_setHeartbeat _ _ _ _ _ _ s (m + 1) hrun hcrash _
        (by simp [hnext]; rfl)
      exact ⟨m', by omega, hindex⟩
  | existsHeartbeat f =>
    have hrunning : ((run n).phase s).running := by simp [hp, Phase.running]
    obtain ⟨m, hnm, hph, r, hr, hnext⟩ := hrun.next_command hcrash hrunning
    simp only [issue, hph, hp] at hr
    cases hr
    by_cases halive : (run m).alive f = true
    · obtain ⟨m', hm', hindex⟩ := @index_of_setHeartbeat _ _ _ _ _ _ s (m + 1) hrun hcrash _
        (by simp [hnext, halive]; rfl)
      exact ⟨m', by omega, hindex⟩
    · obtain ⟨m', hm', hindex⟩ := @index_of_remZombie _ _ _ _ _ _ s (m + 1) hrun hcrash f
        (by simp [hnext, halive])
      exact ⟨m', by omega, hindex⟩
  | _ => simpa [hp, Phase.polling] using hpoll n (Nat.le_refl n)

private theorem polls_again (hrun : FairContinuation cfg st run ev)
    (hcrash : ∀ n, (run n).phase s ≠ .crashed)
    (hpoll : ∀ m, n ≤ m → ((run m).phase s).polling) :
    ∀ k, n ≤ k → ∃ m, k ≤ m ∧ (run m).phase s = .lIndex ∧
      ∃ r, issue cfg (run m) s = some r ∧ run (m + 1) = r.1.setPhase s r.2 := by
  intro k hk
  obtain ⟨m, hkm, hm⟩ := hrun.exists_index hcrash fun i hki => hpoll i (hk.trans hki)
  have hrunning : ((run m).phase s).running := by simp [hm, Phase.running]
  obtain ⟨m', hmm', hph, hcmd⟩ := hrun.next_command hcrash hrunning
  exact ⟨m', by omega, hph.trans hm, hcmd⟩

private theorem polling_until_acquired (hrun : FairContinuation cfg st run ev)
    (hcrash : ∀ n, (run n).phase s ≠ .crashed) (hs : ((run n).phase s).polling)
    (hnone : ∀ m, n ≤ m → ((run m).phase s).acquired = false) :
    ∀ m, n ≤ m → ((run m).phase s).polling := by
  refine holds_from (P := fun st : RedisLock σ => (st.phase s).polling) hs fun m hm hpoll => ?_
  rcases step_polling_or_acquired (hrun.isRun m) (hrun.live m).noError hpoll (hcrash (m + 1)) with
    hnext | hacq
  · exact hnext
  · simp [hnone (m + 1) (by omega)] at hacq

private theorem first_acquires (hrun : FairContinuation cfg st run ev) (hinv : WaiterInv st)
    (hcrash : ∀ n, (run n).phase s ≠ .crashed) (hs : ((run n).phase s).polling)
    (hfirst : (run n).firstInQueue = some s) :
    ∃ m, n ≤ m ∧ ((run m).phase s).acquired := by
  by_contra hno
  have hnone : ∀ m, n ≤ m → ((run m).phase s).acquired = false := by
    intro m hm
    by_contra hacq
    exact hno ⟨m, hm, by simpa using hacq⟩
  have hpoll := hrun.polling_until_acquired hcrash hs hnone
  have hstays : ∀ m, n ≤ m → (run m).firstInQueue = some s := by
    refine holds_from (P := fun st : RedisLock σ => st.firstInQueue = some s) hfirst ?_
    intro m hm hf
    exact step_first_of_mem (hrun.waiterInv hinv m).toQueueInv (hrun.isRun m) hf
      ((hrun.waiterInv hinv (m + 1)).waiting s (hpoll (m + 1) (by omega)))
  -- nobody else sets the lock key, so what it holds now is the last thing to expire
  let bound : ℕ := ((run n).lock.map Prod.snd).getD 0
  have hbound : ∀ m, n ≤ m → ∀ l, (run m).lock = some l → l.2 ≤ bound := by
    refine holds_from (P := fun st : RedisLock σ => ∀ l, st.lock = some l → l.2 ≤ bound) ?_ ?_
    · intro l hl
      simp [bound, hl]
    · intro m hm hold l hl
      rcases step_lock (hrun.isRun m) (hrun.waiterInv hinv m).toQueueInv with
        hsame | hgone | ⟨t, hf, hleft⟩
      · exact hold l (hsame ▸ hl)
      · simp [hgone] at hl
      · obtain rfl : s = t := Option.some.inj ((hstays m hm).symm.trans hf)
        simp [hpoll (m + 1) (by omega)] at hleft
  obtain ⟨k, hk⟩ := hrun.clock bound
  obtain ⟨m, hkm, hindex, r, hr, hnext⟩ :=
    hrun.polls_again hcrash hpoll (max k n) (Nat.le_max_right k n)
  simp only [issue, hindex, hstays m (by omega), if_true] at hr
  cases hr
  have hset : (run (m + 1)).phase s = .setLock := by simp [hnext]
  obtain ⟨m', hmm', hph, r, hr, hnext'⟩ := hrun.next_command (n := m + 1) hcrash
    (by simp [hset, Phase.running])
  have hfree : (run m').holder = none := by
    have hnow := hrun.now_mono (n := k) (m := m') (by omega)
    cases hl : (run m').lock with
    | none => simp [holder, hl]
    | some l =>
      have hexpired := hbound m' (by omega) l hl
      simp only [holder, hl, Option.bind_some, ite_eq_right_iff]
      omega
  simp only [issue, hph, hset, hfree, if_true] at hr
  cases hr
  exact hno ⟨m' + 1, by omega, by simp [hnext', Phase.acquired]⟩

/-- A crashed session no longer refreshes its heartbeat, and a live waiter prunes it. -/
theorem crashed_leaves (hrun : FairContinuation cfg st run ev)
    (hcrash : ∀ n, (run n).phase s ≠ .crashed)
    (hpoll : ∀ m, n ≤ m → ((run m).phase s).polling) {f : σ}
    (hfirst : ∀ m, n ≤ m → (run m).firstInQueue = some f) (hfs : f ≠ s) {c : ℕ}
    (hc : (run c).phase f = .crashed) : ∃ m, n ≤ m ∧ f ∉ (run m).queue := by
  have hbeat : ∀ m, c ≤ m →
      (run m).phase f = .crashed ∧ (run m).heartbeat f = (run c).heartbeat f := by
    refine holds_from (P := fun st : RedisLock σ =>
      st.phase f = .crashed ∧ st.heartbeat f = (run c).heartbeat f) ⟨hc, rfl⟩ ?_
    rintro m hm ⟨hdead, hsame⟩
    have hstep := hrun.isRun m
    refine ⟨step_crashed hstep hdead, ?_⟩
    rw [step_heartbeat hstep ?_, hsame]
    rintro (hev | hev) <;> simp [hev, step, issue, hdead] at hstep
  obtain ⟨k, hk⟩ := hrun.clock (((run c).heartbeat f).getD 0)
  have hexpired : ∀ m, k ≤ m → c ≤ m → (run m).alive f = false := by
    intro m hkm hcm
    have hnow := hrun.now_mono hkm
    rw [alive, (hbeat m hcm).2]
    cases hb : (run c).heartbeat f with
    | none => rfl
    | some expiry =>
      rw [hb] at hk
      simp only [Option.getD_some] at hk
      simp only [decide_eq_false_iff_not]
      omega
  obtain ⟨m, hm, hindex, r, hr, hnext⟩ :=
    hrun.polls_again hcrash hpoll (max n (max k c)) (by omega)
  simp only [issue, hindex, hfirst m (by omega), hfs, if_false] at hr
  cases hr
  have hprobe : (run (m + 1)).phase s = .existsHeartbeat f := by simp [hnext]
  obtain ⟨m', hm', hph, r, hr, hnext'⟩ := hrun.next_command (n := m + 1) hcrash
    (by simp [hprobe, Phase.running])
  simp only [issue, hph, hprobe, hexpired m' (by omega) (by omega)] at hr
  cases hr
  have hzombie : (run (m' + 1)).phase s = .lRemZombie f := by simp [hnext']
  obtain ⟨m'', hm'', hph', r, hr, hnext''⟩ := hrun.next_command (n := m' + 1) hcrash
    (by simp [hzombie, Phase.running])
  simp only [issue, hph', hzombie] at hr
  cases hr
  exact ⟨m'' + 1, by omega, by simp [hnext'']⟩

private theorem live_leaves (hrun : FairContinuation cfg st run ev) (hinv : WaiterInv st) {f : σ}
    (hcrash : ∀ n, (run n).phase f ≠ .crashed) (hfirst : (run n).firstInQueue = some f) :
    ∃ m, n ≤ m ∧ f ∉ (run m).queue := by
  have hcleans : ∀ k, n ≤ k → ∀ r, (run k).phase f = .removeFromQueue r →
      ∃ m, n ≤ m ∧ f ∉ (run m).queue := by
    intro k hk r hr
    obtain ⟨m, hkm, hph, q, hq, hnext⟩ := hrun.next_command (n := k) hcrash
      (by simp [hr, Phase.running])
    simp only [issue, hph, hr] at hq
    cases hq
    refine ⟨m + 1, by omega, ?_⟩
    rw [hnext, setPhase_queue]
    exact (hrun.waiterInv hinv m).nodup.not_mem_erase
  have hcounts : ∀ k, n ≤ k → (run k).phase f = .lLen → ∃ m, n ≤ m ∧ f ∉ (run m).queue := by
    intro k hk hr
    obtain ⟨m, hkm, hph, q, hq, hnext⟩ := hrun.next_command (n := k) hcrash
      (by simp [hr, Phase.running])
    simp only [issue, hph, hr] at hq
    cases hq
    exact hcleans (m + 1) (by omega) (some f) (by simp [hnext])
  have hacquired : ∀ k, n ≤ k → ((run k).phase f).acquired →
      ∃ m, n ≤ m ∧ f ∉ (run m).queue := by
    intro k hk hacq
    cases hp : (run k).phase f <;> simp [hp, Phase.acquired] at hacq
    case lLen => exact hcounts k hk hp
    case removeFromQueue r => exact hcleans k hk r hp
    case returned r => exact ⟨k, hk, (hrun.waiterInv hinv k).left f r hp⟩
  by_cases hpoll : ((run n).phase f).polling
  · obtain ⟨m, hm, hacq⟩ := hrun.first_acquires hinv hcrash hpoll hfirst
    exact hacquired m hm hacq
  · cases hp : (run n).phase f <;> simp [hp, Phase.polling] at hpoll
    case lPush =>
      exact absurd (List.mem_of_getLast? hfirst) ((hrun.waiterInv hinv n).notJoined f hp)
    case lLen => exact hcounts n (Nat.le_refl n) hp
    case removeFromQueue r => exact hcleans n (Nat.le_refl n) r hp
    case returned r => exact ⟨n, Nat.le_refl n, (hrun.waiterInv hinv n).left f r hp⟩
    case crashed => exact absurd hp (hcrash n)

/-- Nobody stays in front of a live waiter forever. -/
theorem first_leaves (hrun : FairContinuation cfg st run ev) (hinv : WaiterInv st)
    (hcrash : ∀ n, (run n).phase s ≠ .crashed)
    (hpoll : ∀ m, n ≤ m → ((run m).phase s).polling) {f : σ}
    (hfirst : (run n).firstInQueue = some f) (hfs : f ≠ s) :
    ∃ m, n ≤ m ∧ f ∉ (run m).queue := by
  by_contra hno
  have hstays : ∀ m, n ≤ m → (run m).firstInQueue = some f := by
    refine holds_from (P := fun st : RedisLock σ => st.firstInQueue = some f) hfirst ?_
    intro m hm hf
    refine step_first_of_mem (hrun.waiterInv hinv m).toQueueInv (hrun.isRun m) hf ?_
    by_contra hgone
    exact hno ⟨m + 1, by omega, hgone⟩
  by_cases hdead : ∃ c, (run c).phase f = .crashed
  · obtain ⟨c, hc⟩ := hdead
    exact hno (hrun.crashed_leaves hcrash hpoll hstays hfs hc)
  · exact hno (hrun.live_leaves hinv (fun c hc => hdead ⟨c, hc⟩) hfirst)

/-- A live waiter acquires the lock: by induction on the number of sessions ahead of it. -/
theorem acquires (hrun : FairContinuation cfg st run ev) (hinv : WaiterInv st)
    (hcrash : ∀ n, (run n).phase s ≠ .crashed) (hs : ((run n).phase s).polling) :
    ∃ m, n ≤ m ∧ ((run m).phase s).acquired := by
  induction hk : (ahead (run n) s).length using Nat.strong_induction_on generalizing n with
  | _ k ih =>
    subst hk
    by_contra hno
    have hpoll := hrun.polling_until_acquired hcrash hs fun m hm => by
      by_contra hacq
      exact hno ⟨m, hm, by simpa using hacq⟩
    have hmem : ∀ m, n ≤ m → s ∈ (run m).queue := fun m hm =>
      (hrun.waiterInv hinv m).waiting s (hpoll m hm)
    obtain ⟨f, hf⟩ : ∃ f, (run n).firstInQueue = some f :=
      Option.isSome_iff_exists.mp (List.getLast?_isSome.mpr (List.ne_nil_of_mem (hmem n le_rfl)))
    by_cases hfs : f = s
    · exact hno (hrun.first_acquires hinv hcrash hs (hfs ▸ hf))
    · obtain ⟨m, hm, hgone⟩ := hrun.first_leaves hinv hcrash hpoll hf hfs
      have hsub : (ahead (run m) s).Sublist (ahead (run n) s) := by
        refine related_from (R := fun t u : RedisLock σ => (ahead u s).Sublist (ahead t s))
          (fun _ => List.Sublist.refl _) (fun _ _ _ htu huv => huv.trans htu) ?_ m hm
        intro k hk
        exact step_ahead (hrun.waiterInv hinv k).toQueueInv (hrun.isRun k) (hmem k hk)
          (hmem (k + 1) (by omega))
      have hshorter : (ahead (run m) s).length < (ahead (run n) s).length := by
        refine Nat.lt_of_le_of_ne hsub.length_le fun hlen => ?_
        have hsame := hsub.eq_of_length hlen
        exact hgone (mem_ahead_queue (hsame ▸ first_mem_ahead hf hfs))
      obtain ⟨m', hm', hacq⟩ := ih _ hshorter (hpoll m hm) rfl
      exact hno ⟨m', by omega, hacq⟩

end Waiting

end FairContinuation

end Run

private theorem waiterInv_of_run {es : List (LockEvent σ)} {st : RedisLock σ}
    (hlive : Along (step cfg) LiveStep init es) (hrun : exec (step cfg) init es = some st) :
    WaiterInv st :=
  run_invariant (fun _ _ _ hinv hok h => hinv.step hok h) WaiterInv.init hlive hrun

/-- In every run in which each session writes its first heartbeat before it is probed, a
session that polls is in the queue exactly once, no pruning is about to remove it, and every
fair continuation lets it acquire the lock. -/
theorem polling_session_queued_and_served {es : List (LockEvent σ)} {st : RedisLock σ}
    (hlive : Along (step cfg) LiveStep init es) (hrun : exec (step cfg) init es = some st)
    {s : σ} (hs : (st.phase s).polling) :
    st.queue.count s = 1 ∧ (∀ e, ¬ Prunes st e s) ∧
      ∀ run ev, FairContinuation cfg st run ev → (∀ n, (run n).phase s ≠ .crashed) →
        ∃ n, ((run n).phase s).acquired := by
  have hinv := waiterInv_of_run hlive hrun
  refine ⟨List.count_eq_one_of_mem hinv.nodup (hinv.waiting s hs), ?_, ?_⟩
  · intro e he
    simp [hinv.not_prunes he] at hs
  · intro run ev hfair hcrash
    have hs0 : ((run 0).phase s).polling := by rwa [hfair.start]
    obtain ⟨n, _, hacq⟩ := hfair.acquires hinv hcrash hs0
    exact ⟨n, hacq⟩

/-- Two sessions contend; the second probes the heartbeat of the first and waits behind it. -/
def contendedRun : List (LockEvent Bool) :=
  [.command true, .command false, .command true, .command false, .command true, .command false,
    .command false]

private theorem liveStep_contendedRun :
    Along (step defaultConfig) LiveStep (init : RedisLock Bool) contendedRun := by
  unfold contendedRun
  repeat' first
    | exact ⟨by simp [NoRedisError], by unfold HeartbeatsKept; decide,
        by unfold FirstBeatBeforeProbe; decide⟩
    | refine Along.cons rfl ?_ ?_
    | exact trivial

theorem polling_session_queued_and_served_contended :
    ∃ st, exec (step defaultConfig) (init : RedisLock Bool) contendedRun = some st ∧
      st.firstInQueue = some true ∧ st.queue.count false = 1 ∧ (∀ e, ¬ Prunes st e false) ∧
      ∀ run ev, FairContinuation defaultConfig st run ev →
        (∀ n, (run n).phase false ≠ .crashed) → ∃ n, ((run n).phase false).acquired :=
  ⟨_, rfl, rfl, polling_session_queued_and_served liveStep_contendedRun rfl rfl⟩

/-- A session that is probed between its `lPush` and its first heartbeat is pruned while it
polls. -/
theorem live_waiter_pruned :
    ∃ es st, Along (step defaultConfig) (fun st e => NoRedisError e ∧ HeartbeatsKept st)
        (init : RedisLock Bool) es ∧
      exec (step defaultConfig) init es = some st ∧
      (st.phase true).polling ∧ st.queue.count true = 0 := by
  refine ⟨[.command true, .command false, .command false, .command false, .command false,
    .command false], _, ?_, rfl, rfl, rfl⟩
  repeat' first
    | exact ⟨by simp [NoRedisError], by unfold HeartbeatsKept; decide⟩
    | refine Along.cons rfl ?_ ?_
    | exact trivial

end JsonRpcRelay.Lock.RedisLock

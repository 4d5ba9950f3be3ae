import JsonRpcRelay.Framework.Windows
import JsonRpcRelay.HbarLimiter.Decisions

/-!
# The windows of the limiter

`resetLimiter` moves the reset date by whole windows.  Over a run, the amounts are reset once in
every window in which somebody asks, as long as nobody asks at the very boundary of two windows.
-/

namespace JsonRpcRelay.HbarLimiter

open Framework

variable {b : CacheBackend} {cfg : LimiterConfig} {st s s' st' : LimiterState}
  {evmAddress ipAddress : String} {fee : ℕ}

section ResetDate

/-- The `while` loop of `getResetTimestamp`, as far as it ends after the given number of tests. -/
def resetLoop (limitDuration now : ℕ) : ℕ → ℕ → Option ℕ
  | 0, _ => none
  | tests + 1, resetDate =>
      if resetDate < now then
        let intervalsPassed := (now - resetDate) ⌈/⌉ limitDuration
        resetLoop limitDuration now tests (resetDate + intervalsPassed * limitDuration)
      else some resetDate

private theorem getResetTimestamp_eq {reset now : ℕ} (hdue : reset ≤ now) :
    getResetTimestamp cfg reset now = advanceDeadline cfg.limitDuration reset now := by
  rw [getResetTimestamp, advanceDeadline]
  by_cases hpast : reset < now
  · rw [if_pos hpast]
  · obtain rfl : reset = now := by omega
    simp

private theorem resetLoop_ends (reset now : ℕ) :
    resetLoop cfg.limitDuration now 2 reset = some (getResetTimestamp cfg reset now) := by
  rw [resetLoop, getResetTimestamp]
  by_cases hpast : reset < now
  · have hge : now ≤ advanceDeadline cfg.limitDuration reset now :=
      advanceDeadline_ge cfg.limitDuration_pos
    rw [if_pos hpast, if_pos hpast]
    exact if_neg (Nat.not_lt.mpr hge)
  · rw [if_neg hpast, if_neg hpast]

end ResetDate

section Calls

/-- What `shouldLimit` does to the amounts and to the reset date. -/
structure Asked (cfg : LimiterConfig) (st st' : LimiterState) : Prop where
  wellFormed : WellFormed cfg.backend st'
  spent : ∀ id, st'.spent cfg.backend id =
    if st.reset ≤ st.now then 0 else st.spent cfg.backend id
  now : st'.now = st.now
  reset : st'.reset =
    if st.reset ≤ st.now then getResetTimestamp cfg st.reset st.now else st.reset

theorem Asked.planStep {plan : DetailedHbarSpendingPlan} {tier : SubscriptionTier}
    (h : Asked cfg st s) (hstep : PlanStep cfg.backend s evmAddress ipAddress tier plan s') :
    Asked cfg st s' where
  wellFormed := hstep.wellFormed h.wellFormed
  spent id := (hstep.spent_eq id).trans (h.spent id)
  now := hstep.frame.1.trans h.now
  reset := hstep.frame.2.trans h.reset

private theorem shouldLimit_asked (evmAddress ipAddress : String) (fee : ℕ)
    (hwf : WellFormed cfg.backend st) (henabled : isEnabled cfg = true) :
    Asked cfg st (runAlone cfg.backend (shouldLimit cfg evmAddress ipAddress fee) st).2 := by
  obtain ⟨s, plan, s', hs, hstep, hrun⟩ :=
    @runAlone_isTotalBudgetExceeded_refreshed cfg.backend cfg st fee ipAddress hwf
  let t : LimiterState := { s' with
    reset := if st.reset ≤ st.now then getResetTimestamp cfg st.reset st.now else st.reset }
  have hasked : Asked cfg st t := by
    have hwf' := hstep.wellFormed hs.wellFormed
    refine ⟨⟨hwf'.planId, hwf'.freshPlan, hwf'.freshSpent, hwf'.freshEvmLink, hwf'.freshIPLink⟩,
      ?_, hstep.frame.1.trans hs.now, rfl⟩
    exact fun id => (hstep.spent_eq id).trans (hs.spent id)
  have hrun : runAlone cfg.backend (isTotalBudgetExceeded cfg fee ipAddress) st =
      (.ok (exceedsBudget cfg fee plan.amountSpent), t) := hrun
  rw [shouldLimit]
  simp only [henabled, Bool.not_true, Bool.false_eq_true, if_false]
  rw [runAlone_bind_ok hrun]
  cases exceedsBudget cfg fee plan.amountSpent with
  | true => exact hasked
  | false =>
    by_cases hanyone : evmAddress = "" ∧ ipAddress = ""
    · rw [if_neg Bool.false_ne_true, if_pos hanyone]
      exact hasked
    · rw [if_neg Bool.false_ne_true, if_neg hanyone,
        runAlone_bind_ok (runAlone_getSpendingPlan _ _)]
      cases hfind : t.findPlan cfg.backend evmAddress ipAddress with
      | some plan => exact hasked
      | none =>
        by_cases hevm : evmAddress = ""
        · subst hevm
          exact hasked
        · have hcreated : PlanStep cfg.backend t evmAddress ipAddress .basic _ _ :=
            Or.inr ⟨hfind, hevm, rfl, planCreated_withNewPlan cfg t evmAddress .basic⟩
          simp only []
          rw [runAlone_bind_ok (runAlone_createSpendingPlanForAddress hevm .basic)]
          exact hasked.planStep hcreated

private theorem shouldLimit_disabled (h : isEnabled cfg = false) :
    (runAlone cfg.backend (shouldLimit cfg evmAddress ipAddress fee) st).2 = st := by
  rw [shouldLimit, h]
  rfl

private theorem addExpense_frame (cost : ℕ) (evmAddress ipAddress : String)
    (hwf : WellFormed cfg.backend st)
    (hst' : st' = (runAlone cfg.backend (addExpense cfg cost evmAddress ipAddress) st).2) :
    WellFormed cfg.backend st' ∧ st'.now = st.now ∧ st'.reset = st.reset := by
  cases henabled : isEnabled cfg with
  | false =>
    rw [addExpense_disabled henabled] at hst'
    subst hst'
    exact ⟨hwf, rfl, rfl⟩
  | true =>
    obtain ⟨operatorPlan, st₁, st₂, hoperator, hcharge, hrest⟩ :=
      runAlone_addExpense hwf henabled cost evmAddress ipAddress
    have hwf₁ := hoperator.wellFormed hwf
    have hwf₂ := hcharge.wellFormed hwf₁ (hwf₁.findPlan_id (hoperator.found hwf)).2
    have hnow₂ := hcharge.now.trans hoperator.frame.1
    have hreset₂ := hcharge.reset.trans hoperator.frame.2
    rcases hrest with ⟨_, _, hrun⟩ | ⟨callerPlan, st₃, st₄, hcaller, hcharge', hrun⟩
    · rw [hrun] at hst'
      exact hst' ▸ ⟨hwf₂, hnow₂, hreset₂⟩
    · rw [hrun] at hst'
      subst hst'
      have hwf₃ := hcaller.wellFormed hwf₂
      have hactive₃ := (hwf₃.findPlan_id (hcaller.found hwf₂)).2
      exact ⟨hcharge'.wellFormed hwf₃ hactive₃,
        hcharge'.now.trans (hcaller.frame.1.trans hnow₂),
        hcharge'.reset.trans (hcaller.frame.2.trans hreset₂)⟩

private theorem limiterStep_wellFormed {e : LimiterEvent} (hwf : WellFormed cfg.backend st)
    (hstep : limiterStep cfg st e = some st') : WellFormed cfg.backend st' := by
  cases e with
  | shouldLimit evmAddress ipAddress fee =>
    obtain rfl := Option.some.inj hstep
    cases henabled : isEnabled cfg with
    | false => rwa [shouldLimit_disabled henabled]
    | true => exact (shouldLimit_asked evmAddress ipAddress fee hwf henabled).wellFormed
  | addExpense cost evmAddress ipAddress =>
    exact (addExpense_frame cost evmAddress ipAddress hwf (Option.some.inj hstep).symm).1
  | advance ms =>
    obtain rfl : st.advance ms = st' := Option.some.inj hstep
    exact advance_wellFormed ms hwf

end Calls

section Runs

/-- `shouldLimit` resets the amounts exactly when the reset date has been reached, and the loop ends
with the next boundary as the new reset date. -/
def AdvancesReset (cfg : LimiterConfig) (st : LimiterState) : LimiterEvent → Prop
  | .shouldLimit evmAddress ipAddress fee =>
      let st' := (runAlone cfg.backend (shouldLimit cfg evmAddress ipAddress fee) st).2
      (∀ id, st'.spent cfg.backend id =
        if st.reset ≤ st.now then 0 else st.spent cfg.backend id) ∧
      (st.reset ≤ st.now → ∃ tests resetDate,
        resetLoop cfg.limitDuration st.now tests st.reset = some resetDate ∧
        NextBoundary cfg.limitDuration st.reset st.now resetDate ∧
        (runAlone cfg.backend (resetLimiter cfg ipAddress) st).2.reset = resetDate ∧
        st'.reset = resetDate)
  | _ => True

/-- Whoever asks when the reset is due asks an enabled limiter, and not at a boundary. -/
def OffBoundary (cfg : LimiterConfig) (st : LimiterState) : LimiterEvent → Prop
  | .shouldLimit .. => st.reset ≤ st.now →
      isEnabled cfg = true ∧ ¬cfg.limitDuration ∣ st.now - st.reset
  | _ => True

/-- The calls of `shouldLimit` by the windows from `start` on, and which of them reset. -/
def windowCalls (cfg : LimiterConfig) (start : ℕ) (st : LimiterState) :
    LimiterEvent → List (ℕ × Bool)
  | .shouldLimit .. =>
      if start ≤ st.now then [(windowOf cfg.limitDuration start st.now, st.reset ≤ st.now)] else []
  | _ => []

/-- The step lemma: the next boundary is found unless the moment is one. -/
theorem advancesReset_iff {e : LimiterEvent} (hwf : WellFormed cfg.backend st) :
    AdvancesReset cfg st e ↔ OffBoundary cfg st e := by
  cases e with
  | addExpense cost evmAddress ipAddress => exact Iff.rfl
  | advance ms => exact Iff.rfl
  | shouldLimit evmAddress ipAddress fee =>
    cases henabled : isEnabled cfg with
    | false =>
      simp only [AdvancesReset, OffBoundary, shouldLimit_disabled henabled, henabled]
      constructor
      · rintro ⟨_, hreset⟩ hdue
        obtain ⟨_, _, _, hnext, _, hkept⟩ := hreset hdue
        have hfuture := hnext.future
        omega
      · intro hnever
        have hdue : ¬st.reset ≤ st.now := fun hdue => Bool.false_ne_true (hnever hdue).1
        exact ⟨fun id => (if_neg hdue).symm, fun h => absurd h hdue⟩
    | true =>
      have hasked := shouldLimit_asked evmAddress ipAddress fee hwf henabled
      obtain ⟨s, hrun, _, _, _, hdate⟩ := runAlone_resetLimiter cfg hwf ipAddress
      simp only [AdvancesReset, OffBoundary, hrun, hdate, henabled, true_and]
      have hreset := hasked.reset
      constructor
      · rintro ⟨_, hadvances⟩ hdue
        obtain ⟨_, resetDate, _, hnext, hmoved, _⟩ := hadvances hdue
        rw [← hmoved, getResetTimestamp_eq hdue] at hnext
        exact (nextBoundary_advanceDeadline_iff cfg.limitDuration_pos hdue).mp hnext
      · intro hoff
        refine ⟨hasked.spent, fun hdue => ?_⟩
        rw [if_pos hdue] at hreset
        refine ⟨2, _, resetLoop_ends _ _, ?_, rfl, hreset⟩
        rw [getResetTimestamp_eq hdue]
        exact (nextBoundary_advanceDeadline_iff cfg.limitDuration_pos hdue).mpr (hoff hdue)

/-- Before the reset is due, a question changes neither the date nor the time. -/
theorem shouldLimit_early (evmAddress ipAddress : String) (fee : ℕ)
    (hwf : WellFormed cfg.backend st) (hdue : ¬ st.reset ≤ st.now) :
    (runAlone cfg.backend (shouldLimit cfg evmAddress ipAddress fee) st).2.reset = st.reset ∧
      (runAlone cfg.backend (shouldLimit cfg evmAddress ipAddress fee) st).2.now = st.now := by
  cases henabled : isEnabled cfg with
  | false =>
    rw [shouldLimit_disabled henabled]
    exact ⟨rfl, rfl⟩
  | true =>
    have hasked := shouldLimit_asked evmAddress ipAddress fee hwf henabled
    exact ⟨hasked.reset.trans (if_neg hdue), hasked.now⟩

private theorem limiterStep_deadlineKept {e : LimiterEvent} {start : ℕ} {calls : List (ℕ × Bool)}
    (hwf : WellFormed cfg.backend st)
    (hkept : DeadlineKept cfg.limitDuration start st.reset st.now calls)
    (hoff : OffBoundary cfg st e) (hstep : limiterStep cfg st e = some st') :
    DeadlineKept cfg.limitDuration start st'.reset st'.now
      (calls ++ windowCalls cfg start st e) := by
  cases e with
  | addExpense cost evmAddress ipAddress =>
    obtain ⟨_, hnow, hreset⟩ :=
      addExpense_frame cost evmAddress ipAddress hwf (Option.some.inj hstep).symm
    have hnone : windowCalls cfg start st (.addExpense cost evmAddress ipAddress) = [] := rfl
    rw [hnow, hreset, hnone, List.append_nil]
    exact hkept
  | advance ms =>
    obtain rfl : st.advance ms = st' := Option.some.inj hstep
    have hnone : windowCalls cfg start st (.advance ms) = [] := rfl
    rw [hnone, List.append_nil]
    exact hkept.advance (Nat.le_add_right _ _)
  | shouldLimit evmAddress ipAddress fee =>
    have hadvances := (advancesReset_iff hwf).mpr hoff
    obtain rfl := Option.some.inj hstep
    have hstart : start ≤ st.reset := by
      obtain ⟨j, hj, _⟩ := hkept.opens
      omega
    by_cases hdue : st.reset ≤ st.now
    · have hasked := shouldLimit_asked evmAddress ipAddress fee hwf (hoff hdue).1
      obtain ⟨_, resetDate, _, hnext, _, hreset⟩ := hadvances.2 hdue
      rw [hreset, hasked.now, windowCalls, if_pos (hstart.trans hdue)]
      simp only [hdue, decide_true]
      exact hkept.met cfg.limitDuration_pos hdue hnext
    · obtain ⟨hreset, hnow⟩ := shouldLimit_early evmAddress ipAddress fee hwf hdue
      rw [hreset, hnow, windowCalls]
      by_cases hbegun : start ≤ st.now
      · rw [if_pos hbegun]
        simp only [hdue, decide_false]
        exact hkept.early cfg.limitDuration_pos (Nat.not_le.mp hdue) hbegun
      · rw [if_neg hbegun, List.append_nil]
        exact hkept

private theorem oncePerWindow_of_run {events : List LimiterEvent} (hwf : WellFormed cfg.backend st)
    (hoff : Along (limiterStep cfg) (OffBoundary cfg) st events) :
    OncePerWindow (trace (limiterStep cfg) (windowCalls cfg st.reset) st events) := by
  have htotal (s : LimiterState) (e : LimiterEvent) : (limiterStep cfg s e).isSome := by
    cases e <;> rfl
  obtain ⟨t, hrun⟩ := Option.isSome_iff_exists.mp (exec_isSome htotal st events)
  have hinv := run_trace_invariant (windowCalls cfg st.reset)
    (I := fun s calls => WellFormed cfg.backend s ∧
      DeadlineKept cfg.limitDuration st.reset s.reset s.now calls)
    (fun _ _ _ _ hinv hok hstep => ⟨limiterStep_wellFormed hinv.1 hstep,
      limiterStep_deadlineKept hinv.1 hinv.2 hok hstep⟩)
    ⟨hwf, deadlineKept_start⟩ hoff hrun
  exact hinv.2.once

/-- In a run, the reset date always moves to the next boundary and the amounts are reset once in
every window in which somebody asks, if and only if nobody asks when the limiter is disabled or at a
boundary at which the reset is due. -/
theorem reset_windows_iff (events : List LimiterEvent) (hwf : WellFormed cfg.backend st) :
    Along (limiterStep cfg) (AdvancesReset cfg) st events ∧
        OncePerWindow (trace (limiterStep cfg) (windowCalls cfg st.reset) st events) ↔
      Along (limiterStep cfg) (OffBoundary cfg) st events := by
  have hiff : Along (limiterStep cfg) (AdvancesReset cfg) st events ↔
      Along (limiterStep cfg) (OffBoundary cfg) st events :=
    along_congr (I := WellFormed cfg.backend) (fun _ _ h => advancesReset_iff h)
      (fun _ _ _ h _ hstep => limiterStep_wellFormed h hstep) hwf
  rw [hiff]
  exact and_iff_left_of_imp fun hoff => oncePerWindow_of_run hwf hoff

/-- Somebody asks a millisecond after the boundary and again an hour later. -/
def askedTwice : List LimiterEvent :=
  [.advance 86400001, .shouldLimit "0xab" "10.0.0.2" 1, .advance 3600000,
    .shouldLimit "0xab" "10.0.0.2" 1]

theorem reset_windows_iff_askedTwice :
    Along (limiterStep (dailyConfig .redisCache)) (AdvancesReset (dailyConfig .redisCache))
        (.empty 0 86400000) askedTwice ∧
      OncePerWindow (trace (limiterStep (dailyConfig .redisCache))
        (windowCalls (dailyConfig .redisCache) 86400000) (.empty 0 86400000) askedTwice) := by
  refine (@reset_windows_iff (dailyConfig .redisCache) (.empty 0 86400000) askedTwice
    (WellFormed.empty 0 86400000)).mpr ?_
  refine Along.cons rfl trivial (Along.cons rfl ?_ (Along.cons rfl trivial
    (Along.cons rfl ?_ trivial)))
  · intro _
    exact ⟨rfl, by decide⟩
  · intro hdue
    have hearly : ¬(172800000 : ℕ) ≤ 90000001 := by decide
    exact absurd hdue hearly

/-- Asked at the boundary itself, the limiter is reset without a new date, and once more in the
same window. -/
theorem reset_repeated_at_boundary :
    ∃ (cfg : LimiterConfig) (st : LimiterState) (ipAddress : String) (events : List LimiterEvent),
      WellFormed cfg.backend st ∧ isEnabled cfg = true ∧ st.reset ≤ st.now ∧
      ¬st.now < (runAlone cfg.backend (resetLimiter cfg ipAddress) st).2.reset ∧
      ¬OncePerWindow (trace (limiterStep cfg) (windowCalls cfg st.reset) st events) := by
  refine ⟨dailyConfig .redisCache, .empty 86400000 86400000, "10.0.0.2",
    [.shouldLimit "0xab" "10.0.0.2" 1, .advance 1, .shouldLimit "0xab" "10.0.0.2" 1],
    WellFormed.empty _ _, rfl, le_rfl, ?_, ?_⟩
  · have hreset : (runAlone .redisCache (resetLimiter (dailyConfig .redisCache) "10.0.0.2")
        (.empty 86400000 86400000)).2.reset = 86400000 := rfl
    intro hfuture
    exact absurd (lt_of_lt_of_eq hfuture hreset) (lt_irrefl 86400000)
  · intro honce
    have hcount : (2 : ℕ) = 1 := honce 0 (by decide)
    exact absurd hcount (by decide)

end Runs

end JsonRpcRelay.HbarLimiter

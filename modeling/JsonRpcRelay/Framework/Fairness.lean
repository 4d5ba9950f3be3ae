import Mathlib.Data.Nat.Init
import JsonRpcRelay.Framework.Schedule

/-!
# Infinite runs and fair scheduling

An infinite run is a sequence of states joined by enabled events.  Progress is proved
from two rules: an invariant of the steps holds from then on, and what only the helpful
events can end still holds when the next helpful event is taken.
-/

namespace JsonRpcRelay.Framework

variable {S E : Type*}

/-- `run` is an infinite run and `ev n` is the event taken in `run n`. -/
def IsRun (step : S → E → Option S) (run : ℕ → S) (ev : ℕ → E) : Prop :=
  ∀ n, step (run n) (ev n) = some (run (n + 1))

section Rules

variable {step : S → E → Option S} {run : ℕ → S} {ev : ℕ → E}

/-- A property that every step from `n` on keeps holds from `n` on. -/
theorem holds_from {P : S → Prop} {n : ℕ} (hP : P (run n))
    (hstep : ∀ m, n ≤ m → P (run m) → P (run (m + 1))) : ∀ m, n ≤ m → P (run m) := by
  intro m hnm
  induction m, hnm using Nat.le_induction with
  | base => exact hP
  | succ m hnm ih => exact hstep m hnm ih

/-- A relation between the states of a run that is reflexive, transitive and kept by every
step from `n` on relates `run n` to all later states. -/
theorem related_from {R : S → S → Prop} (hrefl : ∀ s, R s s)
    (htrans : ∀ s t u, R s t → R t u → R s u) {n : ℕ}
    (hstep : ∀ m, n ≤ m → R (run m) (run (m + 1))) : ∀ m, n ≤ m → R (run n) (run m) := by
  intro m hnm
  induction m, hnm using Nat.le_induction with
  | base => exact hrefl _
  | succ m hnm ih => exact htrans _ _ _ ih (hstep m hnm)

theorem IsRun.invariant {ok : S → E → Prop} {I : S → Prop} (hrun : IsRun step run ev)
    (hstep : ∀ s e t, I s → ok s e → step s e = some t → I t) {n : ℕ} (hI : I (run n))
    (hok : ∀ m, ok (run m) (ev m)) : ∀ m, n ≤ m → I (run m) :=
  holds_from hI fun m _ hm => hstep _ _ _ hm (hok m) (hrun m)

/-- What only helpful events can end from `n` on still holds when the next one is taken. -/
theorem next_helpful_from {P : S → Prop} {helpful : E → Prop} {n : ℕ} (hP : P (run n))
    (hstable : ∀ m, n ≤ m → P (run m) → ¬ helpful (ev m) → P (run (m + 1)))
    (hsched : ∃ m, n ≤ m ∧ helpful (ev m)) : ∃ m, n ≤ m ∧ helpful (ev m) ∧ P (run m) := by
  obtain ⟨m, hnm, hm⟩ := hsched
  by_contra hnone
  have hkept : ∀ k, n ≤ k → P (run k) := by
    refine holds_from hP fun k hnk hk => ?_
    have hidle : ¬ helpful (ev k) := fun hk' => hnone ⟨k, hnk, hk', hk⟩
    exact hstable k hnk hk hidle
  exact hnone ⟨m, hnm, hm, hkept m hnm⟩

theorem IsRun.next_helpful {P : S → Prop} {helpful : E → Prop} (hrun : IsRun step run ev)
    (hstable : ∀ s e t, P s → ¬ helpful e → step s e = some t → P t) {n : ℕ} (hP : P (run n))
    (hsched : ∃ m, n ≤ m ∧ helpful (ev m)) : ∃ m, n ≤ m ∧ helpful (ev m) ∧ P (run m) :=
  next_helpful_from hP (fun m _ hm hidle => hstable _ _ _ hm hidle (hrun m)) hsched

end Rules

end JsonRpcRelay.Framework

import Mathlib.Data.List.Basic
import Mathlib.Logic.Function.Basic

/-!
# Machines with one state for each key

Every event acts on the state of its own key and shows something.  What is shown for some of the
keys only depends on the events of these keys.
-/

namespace JsonRpcRelay.Framework

structure Keyed (K E σ O : Type) where
  key : E → K
  act : σ → E → O × σ

namespace Keyed

variable {K E σ O : Type} [DecidableEq K] (m : Keyed K E σ O)

def step (s : K → σ) (e : E) : K → σ := Function.update s (m.key e) (m.act (s (m.key e)) e).2

def output (s : K → σ) (e : E) : O := (m.act (s (m.key e)) e).1

/-- What the events show. -/
def shown : (K → σ) → List E → List O
  | _, [] => []
  | s, e :: es => m.output s e :: shown (m.step s e) es

/-- What the events of some keys show. -/
def shownOn (p : K → Bool) : (K → σ) → List E → List O
  | _, [] => []
  | s, e :: es =>
      if p (m.key e) then m.output s e :: shownOn p (m.step s e) es
      else shownOn p (m.step s e) es

variable {m} {s t : K → σ} {e : E} {k : K} {p : K → Bool} {es fs : List E}

theorem step_self (h : m.key e = k) : m.step s e k = (m.act (s k) e).2 := by
  subst h
  rw [step, Function.update_self]

theorem step_of_ne (h : m.key e ≠ k) : m.step s e k = s k := by
  rw [step, Function.update_of_ne (Ne.symm h)]

private theorem shownOn_eq (hs : ∀ k, p k = true → s k = t k) :
    m.shownOn p s es = m.shown t (es.filter fun e => p (m.key e)) := by
  induction es generalizing s t with
  | nil => rfl
  | cons e es ih =>
    rw [shownOn]
    cases hp : p (m.key e) with
    | true =>
      have hstep : ∀ k, p k = true → m.step s e k = m.step t e k := by
        intro k hk
        by_cases hkey : m.key e = k
        · rw [step_self hkey, step_self hkey, hs k hk]
        · rw [step_of_ne hkey, step_of_ne hkey, hs k hk]
      simp only [List.filter_cons, hp, if_true]
      rw [shown, ih hstep, output, output, hs _ hp]
    | false =>
      have hstep : ∀ k, p k = true → m.step s e k = t k := by
        intro k hk
        have hkey : m.key e ≠ k := by
          rintro rfl
          rw [hp] at hk
          cases hk
        rw [step_of_ne hkey, hs k hk]
      simp only [List.filter_cons, hp, Bool.false_eq_true, if_false]
      exact ih hstep

/-- Runs that only differ in the events of other keys show the same for some keys. -/
theorem shownOn_congr (h : es.filter (fun e => p (m.key e)) = fs.filter fun e => p (m.key e)) :
    m.shownOn p s es = m.shownOn p s fs := by
  rw [shownOn_eq fun _ _ => rfl, shownOn_eq fun _ _ => rfl, h]

end Keyed

end JsonRpcRelay.Framework

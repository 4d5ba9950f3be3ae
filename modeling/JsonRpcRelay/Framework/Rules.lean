import Mathlib.Data.List.Basic

/-!
# Rules that are checked in order

The first rule that does not hold decides which error is thrown.
-/

namespace JsonRpcRelay.Framework

structure Rule (ε : Type) where
  holds : Bool
  error : ε

variable {ε δ : Type}

def firstViolated : List (Rule ε) → Except ε Unit
  | [] => .ok ()
  | rule :: rules => if rule.holds then firstViolated rules else .error rule.error

/-- The same rule with its error written in another type. -/
def Rule.map (f : ε → δ) (rule : Rule ε) : Rule δ := ⟨rule.holds, f rule.error⟩

section Lemmas

variable {rule : Rule ε} {rules more : List (Rule ε)} {e : ε}

@[simp] theorem firstViolated_nil : firstViolated ([] : List (Rule ε)) = .ok () := rfl

theorem firstViolated_cons_of_holds (h : rule.holds = true) :
    firstViolated (rule :: rules) = firstViolated rules := if_pos h

theorem firstViolated_cons_of_not (h : rule.holds = false) :
    firstViolated (rule :: rules) = .error rule.error := if_neg (by simp [h])

/-- A single check as the code makes it. -/
theorem throw_if {violated : Prop} [Decidable violated] {holds : Bool}
    (h : holds = true ↔ ¬violated) :
    (if violated then throw e else pure ()) = firstViolated [⟨holds, e⟩] := by
  by_cases hviolated : violated
  · rw [if_pos hviolated, firstViolated_cons_of_not (by simpa [hviolated] using h)]
    rfl
  · rw [if_neg hviolated, firstViolated_cons_of_holds (h.mpr hviolated)]
    rfl

theorem throw_unless {passes : Prop} [Decidable passes] {holds : Bool}
    (h : holds = true ↔ passes) :
    (if passes then pure () else throw e) = firstViolated [⟨holds, e⟩] := by
  by_cases hpasses : passes
  · rw [if_pos hpasses, firstViolated_cons_of_holds (h.mpr hpasses)]
    rfl
  · rw [if_neg hpasses, firstViolated_cons_of_not (by simpa [hpasses] using h)]
    rfl

theorem firstViolated_ok_iff :
    firstViolated rules = .ok () ↔ ∀ rule ∈ rules, rule.holds = true := by
  induction rules with
  | nil => simp
  | cons rule rules ih =>
    cases hholds : rule.holds with
    | true => simp [firstViolated_cons_of_holds hholds, hholds, ih]
    | false => simp [firstViolated_cons_of_not hholds, hholds]

theorem firstViolated_append_of_ok (h : firstViolated rules = .ok ()) :
    firstViolated (rules ++ more) = firstViolated more := by
  induction rules with
  | nil => rfl
  | cons rule rules ih =>
    have hall := firstViolated_ok_iff.mp h
    rw [List.cons_append, firstViolated_cons_of_holds (hall rule List.mem_cons_self)]
    exact ih (firstViolated_ok_iff.mpr fun rule' hrule' =>
      hall rule' (List.mem_cons_of_mem rule hrule'))

theorem firstViolated_append_of_error (h : firstViolated rules = .error e) :
    firstViolated (rules ++ more) = .error e := by
  induction rules with
  | nil => cases h
  | cons rule rules ih =>
    cases hholds : rule.holds with
    | true =>
      rw [firstViolated_cons_of_holds hholds] at h
      rw [List.cons_append, firstViolated_cons_of_holds hholds, ih h]
    | false =>
      rw [firstViolated_cons_of_not hholds] at h
      rw [List.cons_append, firstViolated_cons_of_not hholds, h]

/-- Checks that are made one after the other are checks of all their rules. -/
theorem firstViolated_append :
    firstViolated (rules ++ more) = (firstViolated rules >>= fun _ => firstViolated more) := by
  cases h : firstViolated rules with
  | ok => exact firstViolated_append_of_ok h
  | error e => exact firstViolated_append_of_error h

theorem firstViolated_map (f : ε → δ) :
    firstViolated (rules.map (Rule.map f)) = (firstViolated rules).mapError f := by
  induction rules with
  | nil => rfl
  | cons rule rules ih =>
    cases hholds : rule.holds with
    | true =>
      rw [firstViolated_cons_of_holds hholds, ← ih]
      exact firstViolated_cons_of_holds hholds
    | false =>
      rw [firstViolated_cons_of_not hholds]
      exact firstViolated_cons_of_not hholds

end Lemmas

end JsonRpcRelay.Framework

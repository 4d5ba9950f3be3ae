import Mathlib.Data.List.Count
import Mathlib.Data.Nat.Notation
import Mathlib.Tactic.Common

/-!
# Delivery by a cursor

A source numbers what it holds and grows at its end.  A consumer polls it again and again: each
poll starts at the cursor that the one before has left.  If a poll hands on exactly what lies
between its two cursors, and no poll moves the cursor back, then the polls together hand on
everything up to the last cursor once.
-/

namespace JsonRpcRelay.Framework

variable {ρ : Type*}

/-- Polls one after the other, from the first cursor to the last one. -/
inductive Polls (poll : ℕ → ρ → ℕ → Prop) : ℕ → List ρ → ℕ → Prop where
  | nil (c : ℕ) : Polls poll c [] c
  | cons {c c' c'' : ℕ} {r : ρ} {rs : List ρ} (head : poll c r c') (tail : Polls poll c' rs c'') :
      Polls poll c (r :: rs) c''

namespace Polls

variable {poll poll' : ℕ → ρ → ℕ → Prop} {c c' c'' : ℕ} {r : ρ} {rs : List ρ}

theorem mono (h : Polls poll c rs c') (himp : ∀ c r c', poll c r c' → poll' c r c') :
    Polls poll' c rs c' := by
  induction h with
  | nil c => exact .nil c
  | cons head tail ih => exact .cons (himp _ _ _ head) ih

theorem of_mem {p : ρ → Prop} (h : Polls poll c rs c') (himp : ∀ c r c', poll c r c' → p r)
    (hr : r ∈ rs) : p r := by
  induction h with
  | nil c => cases hr
  | cons head tail ih =>
    cases hr with
    | head => exact himp _ _ _ head
    | tail _ hr => exact ih hr

theorem le (h : Polls poll c rs c') (hmono : ∀ c r c', poll c r c' → c ≤ c') : c ≤ c' := by
  induction h with
  | nil c => exact Nat.le_refl c
  | cons head tail ih => exact Nat.le_trans (hmono _ _ _ head) ih

/-- If each poll returns the item at `b` just when `b` lies between its cursors, then exactly
one poll returns it as soon as the last cursor is behind `b`. -/
theorem countP_eq {p : ρ → Bool} {b : ℕ} (h : Polls poll c rs c')
    (hmono : ∀ c r c', poll c r c' → c ≤ c')
    (hpoll : ∀ c r c', poll c r c' → (p r ↔ c ≤ b ∧ b < c')) :
    rs.countP p = if c ≤ b ∧ b < c' then 1 else 0 := by
  induction h with
  | nil c =>
    rw [if_neg (by omega)]
    rfl
  | @cons c c₁ c₂ r rs head tail ih =>
    have hstart := hmono _ _ _ head
    have hend := tail.le hmono
    rw [List.countP_cons, ih]
    simp only [hpoll _ _ _ head]
    split_ifs <;> omega

/-- As long as each poll brings the cursor behind what it was to reach, so do all of them. -/
theorem reaches (h : Polls poll c rs c') (reach : ρ → ℕ)
    (hmono : ∀ c r c', poll c r c' → c ≤ c') (hreach : ∀ c r c', poll c r c' → reach r ≤ c')
    (hr : r ∈ rs) : reach r ≤ c' := by
  induction h with
  | nil c => cases hr
  | cons head tail ih =>
    cases hr with
    | head => exact Nat.le_trans (hreach _ _ _ head) (tail.le hmono)
    | tail _ hr => exact ih hr

/-- Polls that each go on by one step at least, until what there was at their start is reached. -/
theorem reaches_stepwise (h : Polls poll c rs c') (reach : ρ → ℕ)
    (hmono : ∀ c r c', poll c r c' → c ≤ c')
    (hstep : ∀ c r c', poll c r c' → min (reach r) (c + 1) ≤ c')
    {n i : ℕ} (hlater : ∀ k r, i ≤ k → rs[k]? = some r → n ≤ reach r) (hi : i ≤ rs.length) :
    min n (c + (rs.length - i)) ≤ c' := by
  induction h generalizing i with
  | nil c =>
    rw [List.length_nil, Nat.zero_sub]
    exact Nat.min_le_right n c
  | @cons c c₁ c₂ r rs head tail ih =>
    have hle := hmono _ _ _ head
    cases i with
    | zero =>
      have hreach := hlater 0 r (Nat.le_refl 0) rfl
      have hnext := hstep _ _ _ head
      have hrest := ih (i := 0) (fun k r _ hk => hlater (k + 1) r (Nat.zero_le _) hk)
        (Nat.zero_le _)
      have hend := tail.le hmono
      rw [List.length_cons]
      omega
    | succ i =>
      have hrest := ih (i := i)
        (fun k r hk hr => hlater (k + 1) r (Nat.succ_le_succ hk) hr) (by simpa using hi)
      rw [List.length_cons]
      omega

/-- What is handed on piece by piece is the whole, in order. -/
theorem flatMap_eq {β : Type*} {items : ρ → List β} {between : ℕ → ℕ → List β}
    (h : Polls poll c rs c') (hmono : ∀ c r c', poll c r c' → c ≤ c')
    (hpoll : ∀ c r c', poll c r c' → items r = between c c') (hnil : ∀ c, between c c = [])
    (happend : ∀ a b c, a ≤ b → b ≤ c → between a b ++ between b c = between a c) :
    rs.flatMap items = between c c' := by
  induction h with
  | nil c => rw [hnil, List.flatMap_nil]
  | cons head tail ih =>
    rw [List.flatMap_cons, ih, hpoll _ _ _ head,
      happend _ _ _ (hmono _ _ _ head) (tail.le hmono)]

end Polls

end JsonRpcRelay.Framework

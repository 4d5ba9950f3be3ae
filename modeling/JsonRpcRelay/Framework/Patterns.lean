import Mathlib.Computability.RegularExpressions

/-!
# Regular expressions over classes of characters

Classes, ranges and bounded repetitions as regular expressions, and what they match.
-/

namespace JsonRpcRelay.Framework.Pattern

open RegularExpression

variable {α : Type*}

/-- A class in brackets. -/
def oneOf (cs : List α) : RegularExpression α := cs.foldr (fun c pattern => char c + pattern) 0

/-- One character. -/
def literal (c : α) : RegularExpression α := oneOf [c]

/-- `p+`. -/
def oneOrMore (p : RegularExpression α) : RegularExpression α := p * p.star

/-- `p{0,n}`. -/
def upTo (p : RegularExpression α) : ℕ → RegularExpression α
  | 0 => 1
  | n + 1 => 1 + p * upTo p n

/-- The characters from one to another. -/
def range (first last : Char) : List Char :=
  (List.range' first.toNat (last.toNat + 1 - first.toNat)).map Char.ofNat

private theorem toNat_ofNat {n : ℕ} (h : n < 0xD800) : (Char.ofNat n).toNat = n := by
  rw [Char.ofNat, dif_pos (Or.inl h)]
  rfl

theorem mem_range {first last c : Char} (hlast : last.toNat < 0xD800) :
    c ∈ range first last ↔ first.toNat ≤ c.toNat ∧ c.toNat ≤ last.toNat := by
  simp only [range, List.mem_map, List.mem_range'_1]
  constructor
  · rintro ⟨n, hn, rfl⟩
    rw [toNat_ofNat (by omega)]
    omega
  · intro h
    exact ⟨c.toNat, by omega, Char.ofNat_toNat c⟩

section Matching

variable [DecidableEq α] {cs xs : List α} {q : RegularExpression α} {x : α}

theorem oneOf_rmatch_iff : (oneOf cs).rmatch xs = true ↔ ∃ c ∈ cs, xs = [c] := by
  induction cs with
  | nil => simp [oneOf]
  | cons c cs ih =>
    rw [oneOf, List.foldr_cons, add_rmatch_iff, char_rmatch_iff, ← oneOf, ih]
    simp

theorem oneOf_mul_rmatch_nil : (oneOf cs * q).rmatch [] = false := by
  rw [Bool.eq_false_iff]
  intro h
  obtain ⟨front, rest, happend, hfront, -⟩ := (mul_rmatch_iff _ _ _).mp h
  obtain ⟨c, -, rfl⟩ := oneOf_rmatch_iff.mp hfront
  cases happend

theorem oneOf_mul_rmatch_cons : (oneOf cs * q).rmatch (x :: xs) = true ↔
    x ∈ cs ∧ q.rmatch xs = true := by
  rw [mul_rmatch_iff]
  constructor
  · rintro ⟨front, rest, happend, hfront, hrest⟩
    obtain ⟨c, hc, rfl⟩ := oneOf_rmatch_iff.mp hfront
    cases happend
    exact ⟨hc, hrest⟩
  · intro h
    exact ⟨[x], xs, rfl, oneOf_rmatch_iff.mpr ⟨x, h.1, rfl⟩, h.2⟩

theorem upTo_oneOf_rmatch_iff {n : ℕ} : (upTo (oneOf cs) n).rmatch xs = true ↔
    xs.length ≤ n ∧ ∀ x ∈ xs, x ∈ cs := by
  induction n generalizing xs with
  | zero => cases xs <;> simp [upTo]
  | succ n ih =>
    rw [upTo, add_rmatch_iff, one_rmatch_iff]
    cases xs with
    | nil => simp
    | cons x xs =>
      rw [oneOf_mul_rmatch_cons, ih, List.forall_mem_cons, List.length_cons,
        Nat.add_le_add_iff_right]
      simp only [reduceCtorEq, false_or]
      tauto

private theorem star_oneOf_rmatch_iff : (oneOf cs).star.rmatch xs = true ↔ ∀ x ∈ xs, x ∈ cs := by
  rw [star_rmatch_iff]
  constructor
  · rintro ⟨words, rfl, hwords⟩ x hx
    obtain ⟨word, hword, hx⟩ := List.mem_flatten.mp hx
    obtain ⟨c, hc, rfl⟩ := oneOf_rmatch_iff.mp (hwords word hword).2
    rwa [List.mem_singleton.mp hx]
  · intro h
    have hflatten : (xs.map fun x => [x]).flatten = xs := by
      rw [← List.flatMap_def]
      exact List.flatMap_singleton' xs
    refine ⟨xs.map fun x => [x], hflatten.symm, ?_⟩
    intro word hword
    obtain ⟨x, hx, rfl⟩ := List.mem_map.mp hword
    exact ⟨by simp, oneOf_rmatch_iff.mpr ⟨x, h x hx, rfl⟩⟩

theorem oneOrMore_oneOf_rmatch_iff : (oneOrMore (oneOf cs)).rmatch xs = true ↔
    xs ≠ [] ∧ ∀ x ∈ xs, x ∈ cs := by
  cases xs with
  | nil => simp only [oneOrMore, oneOf_mul_rmatch_nil, Bool.false_eq_true, ne_eq, not_true_eq_false,
      false_and]
  | cons x xs => simp only [oneOrMore, oneOf_mul_rmatch_cons, star_oneOf_rmatch_iff, ne_eq,
      reduceCtorEq, not_false_eq_true, true_and, List.forall_mem_cons]

end Matching

end JsonRpcRelay.Framework.Pattern

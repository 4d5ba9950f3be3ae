import JsonRpcRelay.Framework.Binary64

/-!
# Fractions in double precision

The smallest positive double is `2 ^ -1074`, and every double is a whole number of it.  So sums
and differences are rounded as those of integers are.
-/

namespace JsonRpcRelay.Framework

/-- The smallest positive double is `2 ^ -1074`. -/
@[irreducible] def fractionBits : ℕ := 1074

/-- A double is less than `2 ^ 1024`. -/
@[irreducible] def totalBits : ℕ := 1024 + fractionBits

/-- So many of the smallest doubles make one. -/
def unitsOfOne : ℕ := 2 ^ fractionBits

/-- So many of the smallest doubles are too many for a double. -/
def unitsOfInfinity : ℕ := 2 ^ totalBits

private theorem unitsOfOne_pos : 0 < unitsOfOne := Nat.two_pow_pos fractionBits

/-- A number of the smallest doubles that is a double. -/
def IsBinary64 (units : ℤ) : Prop :=
  unitOf units.natAbs ∣ units.natAbs ∧ units.natAbs < unitsOfInfinity

instance (units : ℤ) : Decidable (IsBinary64 units) := instDecidableAnd

/-- Zero has no sign. -/
inductive Binary64 where
  | finite (units : ℤ) (h : IsBinary64 units)
  | infinity (negative : Bool)
  | nan
  deriving DecidableEq

namespace Binary64

/-- The integer that stands for a number when numbers are compared. -/
def key : Binary64 → ℤ
  | .finite units _ => units
  | .infinity negative => if negative then -unitsOfInfinity else unitsOfInfinity
  | .nan => 0

/-- Nothing is compared with `nan`. -/
def le (x y : Binary64) : Bool := x ≠ .nan ∧ y ≠ .nan ∧ x.key ≤ y.key

def lt (x y : Binary64) : Bool := x ≠ .nan ∧ y ≠ .nan ∧ x.key < y.key

/-- Equality of numbers, of which `nan` is none. -/
def equals (x y : Binary64) : Bool := x ≠ .nan ∧ x = y

/-- A number of the smallest doubles, rounded to 53 significant bits. -/
def roundUnits (units : ℤ) : ℤ := units.sign * roundNat units.natAbs

private theorem natAbs_roundUnits (units : ℤ) :
    (roundUnits units).natAbs = roundNat units.natAbs := by
  rw [roundUnits, Int.natAbs_mul]
  rcases eq_or_ne units 0 with rfl | hne
  · rfl
  · rw [Int.natAbs_sign_of_ne_zero hne, Nat.one_mul, Int.natAbs_natCast]

private theorem isBinary64_roundUnits {units : ℤ} (h : roundNat units.natAbs < unitsOfInfinity) :
    IsBinary64 (roundUnits units) := by
  rw [IsBinary64, natAbs_roundUnits]
  exact ⟨unitOf_dvd_iff.mpr (significant_roundNat _), h⟩

/-- The double next to a number of the smallest ones. -/
def round (units : ℤ) : Binary64 :=
  if h : roundNat units.natAbs < unitsOfInfinity then
    .finite (roundUnits units) (isBinary64_roundUnits h)
  else .infinity (units < 0)

def ofNat (n : ℕ) : Binary64 := round (n * unitsOfOne)

private theorem isBinary64_neg {units : ℤ} (h : IsBinary64 units) : IsBinary64 (-units) := by
  rwa [IsBinary64, Int.natAbs_neg]

def neg : Binary64 → Binary64
  | .finite units h => .finite (-units) (isBinary64_neg h)
  | .infinity negative => .infinity !negative
  | .nan => .nan

def add : Binary64 → Binary64 → Binary64
  | .finite x _, .finite y _ => round (x + y)
  | .finite _ _, .infinity negative | .infinity negative, .finite _ _ => .infinity negative
  | .infinity negative, .infinity negative' =>
      if negative = negative' then .infinity negative else .nan
  | _, _ => .nan

def sub (x y : Binary64) : Binary64 := x.add y.neg

section Order

variable {x y z : Binary64} {m n : ℤ}

theorem le_iff : x.le y = true ↔ x ≠ .nan ∧ y ≠ .nan ∧ x.key ≤ y.key := decide_eq_true_iff

private theorem lt_iff : x.lt y = true ↔ x ≠ .nan ∧ y ≠ .nan ∧ x.key < y.key := decide_eq_true_iff

protected theorem le_trans (hxy : x.le y = true) (hyz : y.le z = true) : x.le z = true := by
  rw [le_iff] at *
  exact ⟨hxy.1, hyz.2.1, hxy.2.2.trans hyz.2.2⟩

theorem not_lt_of_le (h : x.le y = true) : y.lt x = false := by
  rw [le_iff] at h
  simp only [lt, decide_eq_false_iff_not]
  omega

theorem lt_of_not_le (hx : x ≠ .nan) (hy : y ≠ .nan) (h : x.le y = false) : y.lt x = true := by
  rw [lt_iff]
  refine ⟨hy, hx, ?_⟩
  by_contra hle
  rw [le_iff.mpr ⟨hx, hy, not_lt.mp hle⟩] at h
  cases h

theorem equals_eq_false_of_lt (h : y.lt x = true) : x.equals y = false := by
  rw [lt_iff] at h
  simp only [equals, decide_eq_false_iff_not]
  rintro ⟨-, rfl⟩
  omega

theorem round_ne_nan (units : ℤ) : round units ≠ .nan := by
  rw [round]
  split
  · exact Binary64.noConfusion
  · exact Binary64.noConfusion

private theorem key_round (units : ℤ) :
    (round units).key = units.sign * (min (roundNat units.natAbs) unitsOfInfinity : ℕ) := by
  rw [round]
  split
  · rename_i hlt
    rw [key, roundUnits, Nat.min_eq_left hlt.le]
  · rename_i hle
    rw [key, Nat.min_eq_right (Nat.not_lt.mp hle)]
    rcases lt_trichotomy units 0 with hneg | rfl | hpos
    · simp [hneg, Int.sign_eq_neg_one_of_neg hneg]
    · exact absurd (by decide +kernel) hle
    · simp [Int.sign_eq_one_of_pos hpos, hpos.le]

private theorem round_mono (h : m ≤ n) : (round m).le (round n) = true := by
  refine le_iff.mpr ⟨round_ne_nan m, round_ne_nan n, ?_⟩
  rw [key_round, key_round]
  rcases lt_trichotomy m 0 with hm | rfl | hm
  · rw [Int.sign_eq_neg_one_of_neg hm]
    rcases lt_trichotomy n 0 with hn | rfl | hn
    · have hmono : roundNat n.natAbs ≤ roundNat m.natAbs := roundNat_mono (by omega)
      rw [Int.sign_eq_neg_one_of_neg hn]
      omega
    · simp
    · rw [Int.sign_eq_one_of_pos hn]
      omega
  · rw [Int.sign_zero, Int.zero_mul]
    exact Int.mul_nonneg (Int.sign_nonneg_iff.mpr h) (by omega)
  · have hmono : roundNat m.natAbs ≤ roundNat n.natAbs := roundNat_mono (by omega)
    rw [Int.sign_eq_one_of_pos hm, Int.sign_eq_one_of_pos (hm.trans_le h)]
    omega

private theorem ofNat_mono {k l : ℕ} (h : k ≤ l) : (ofNat k).le (ofNat l) = true := by
  refine round_mono (Int.mul_le_mul_of_nonneg_right ?_ (by omega))
  exact_mod_cast h

private theorem natAbs_key_le (x : Binary64) : x.key.natAbs ≤ unitsOfInfinity := by
  cases x with
  | finite units h => exact h.2.le
  | infinity negative =>
    rw [key]
    split
    · rw [Int.natAbs_neg, Int.natAbs_natCast]
    · rw [Int.natAbs_natCast]
  | nan => exact Nat.zero_le _

/-- Every number lies between the infinities. -/
theorem le_infinity (hx : x ≠ .nan) : x.le (.infinity false) = true := by
  refine le_iff.mpr ⟨hx, Binary64.noConfusion, ?_⟩
  have hkey := natAbs_key_le x
  change x.key ≤ (unitsOfInfinity : ℤ)
  omega

private theorem infinity_le (hx : x ≠ .nan) : (infinity true).le x = true := by
  refine le_iff.mpr ⟨Binary64.noConfusion, hx, ?_⟩
  have hkey := natAbs_key_le x
  change -(unitsOfInfinity : ℤ) ≤ x.key
  omega

private theorem not_infinity_le_finite {units : ℤ} {h : IsBinary64 units} :
    (infinity false).le (.finite units h) = false := by
  apply Bool.eq_false_iff.mpr
  intro hle
  have hkey : (unitsOfInfinity : ℤ) ≤ units := (le_iff.mp hle).2.2
  have hlt := h.2
  omega

private theorem not_finite_le_infinity {units : ℤ} {h : IsBinary64 units} :
    (finite units h).le (.infinity true) = false := by
  apply Bool.eq_false_iff.mpr
  intro hle
  have hkey : units ≤ -(unitsOfInfinity : ℤ) := (le_iff.mp hle).2.2
  have hlt := h.2
  omega

private theorem add_finite_mono {units : ℤ} {h : IsBinary64 units} (hle : x.le y = true) :
    (x.add (.finite units h)).le (y.add (.finite units h)) = true := by
  cases x with
  | finite m hm =>
    cases y with
    | finite n hn => exact round_mono (Int.add_le_add_right (le_iff.mp hle).2.2 units)
    | infinity negative =>
      cases negative with
      | false => exact le_infinity (round_ne_nan _)
      | true => rw [not_finite_le_infinity] at hle; cases hle
    | nan => exact absurd rfl (le_iff.mp hle).2.1
  | infinity negative =>
    cases negative with
    | true =>
      refine infinity_le ?_
      cases y with
      | finite n hn => exact round_ne_nan _
      | infinity negative => exact Binary64.noConfusion
      | nan => exact absurd rfl (le_iff.mp hle).2.1
    | false =>
      cases y with
      | finite n hn => rw [not_infinity_le_finite] at hle; cases hle
      | infinity negative => exact hle
      | nan => exact absurd rfl (le_iff.mp hle).2.1
  | nan => exact absurd rfl (le_iff.mp hle).1

end Order

section Whole

variable {x : Binary64} {m n : ℕ}

private theorem isBinary64_whole (h : n ≤ 2 ^ 53) : IsBinary64 (n * unitsOfOne) := by
  have habs : ((n : ℤ) * unitsOfOne).natAbs = n * unitsOfOne := by
    rw [Int.natAbs_mul, Int.natAbs_natCast, Int.natAbs_natCast]
  rw [IsBinary64, habs]
  constructor
  · exact unitOf_dvd_iff.mpr (significant_mul_two_pow h fractionBits)
  · exact (Nat.mul_le_mul_right unitsOfOne h).trans_lt (by decide +kernel)

private theorem round_of_isBinary64 {units : ℤ} (h : IsBinary64 units) :
    round units = .finite units h := by
  have hround : roundNat units.natAbs = units.natAbs :=
    (roundTo_eq_self_iff (unitOf_pos _)).mpr h.1
  have hunits : roundUnits units = units := by
    rw [roundUnits, hround, Int.sign_mul_natAbs]
  rw [round, dif_pos (by rw [hround]; exact h.2)]
  exact (finite.injEq _ _ _ _).mpr hunits

private theorem ofNat_of_le (h : n ≤ 2 ^ 53) :
    ofNat n = .finite (n * unitsOfOne) (isBinary64_whole h) :=
  round_of_isBinary64 (isBinary64_whole h)

theorem ofNat_add (h : m + n ≤ 2 ^ 53) : (ofNat m).add (ofNat n) = ofNat (m + n) := by
  rw [ofNat_of_le (show m ≤ 2 ^ 53 by omega), ofNat_of_le (show n ≤ 2 ^ 53 by omega), add, ofNat]
  push_cast
  rw [Int.add_mul]

private theorem ofNat_sub_one (h : n + 1 ≤ 2 ^ 53) : (ofNat (n + 1)).sub (ofNat 1) = ofNat n := by
  rw [ofNat_of_le h, ofNat_of_le (by decide), sub, neg, add, ofNat]
  rw [← Int.sub_eq_add_neg, ← Int.sub_mul, Int.natCast_add, Int.add_sub_cancel]

theorem ofNat_lt_ofNat (hm : m ≤ 2 ^ 53) (hn : n ≤ 2 ^ 53) :
    (ofNat m).lt (ofNat n) = true ↔ m < n := by
  have hpos : (0 : ℤ) < unitsOfOne := Int.natCast_pos.mpr unitsOfOne_pos
  rw [ofNat_of_le hm, ofNat_of_le hn, lt_iff]
  simp only [key, Int.mul_lt_mul_right hpos]
  simp

theorem ofNat_equals_ofNat (hm : m ≤ 2 ^ 53) (hn : n ≤ 2 ^ 53) :
    (ofNat m).equals (ofNat n) = true ↔ m = n := by
  have hpos : (unitsOfOne : ℤ) ≠ 0 := Int.natCast_ne_zero.mpr unitsOfOne_pos.ne'
  have hinj : (m : ℤ) * unitsOfOne = n * unitsOfOne ↔ m = n :=
    (Int.mul_eq_mul_right_iff hpos).trans Int.ofNat_inj
  rw [ofNat_of_le hm, ofNat_of_le hn, equals]
  simp [hinj]

/-- What is at most a number that can be counted is less by one when one is taken away.  The
number after `2 ^ 53 + 2` is `2 ^ 53 + 4`, from which one cannot be taken away. -/
theorem sub_one_le (hle : x.le (ofNat (n + 1)) = true) (hn : n + 1 ≤ 2 ^ 53 + 2) :
    (x.sub (ofNat 1)).le (ofNat n) = true := by
  have hsub : (x.sub (ofNat 1)).le ((ofNat (n + 1)).sub (ofNat 1)) = true := by
    rw [ofNat_of_le (show 1 ≤ 2 ^ 53 by decide)]
    exact add_finite_mono hle
  refine Binary64.le_trans hsub ?_
  rcases Nat.lt_or_ge (2 ^ 53) (n + 1) with hgt | hexact
  · obtain rfl | rfl : n = 2 ^ 53 ∨ n = 2 ^ 53 + 1 := by omega
    · decide +kernel
    · decide +kernel
  · rw [ofNat_sub_one hexact]
    exact ofNat_mono le_rfl

end Whole

end Binary64

end JsonRpcRelay.Framework

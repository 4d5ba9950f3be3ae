import Mathlib.Algebra.Order.Ring.Nat
import Mathlib.Data.Int.Order.Basic
import Mathlib.Data.Nat.Log
import JsonRpcRelay.Framework.Decimal

/-!
# Integers in double precision

A double has 53 significant bits.  The results of operations on integers are rounded to the
nearest one, and to the one with an even significand if there are two.  A double is written with
the fewest digits that round to it.
-/

namespace JsonRpcRelay.Framework

section Rounding

/-- The nearest multiple of the unit, and the even one of two. -/
def roundTo (unit m : ℕ) : ℕ :=
  if 2 * (m % unit) < unit ∨ (2 * (m % unit) = unit ∧ m / unit % 2 = 0) then m / unit * unit
  else (m / unit + 1) * unit

theorem roundTo_eq_self_iff {unit m : ℕ} (hunit : 0 < unit) : roundTo unit m = m ↔ unit ∣ m := by
  have hdiv := Nat.div_add_mod' m unit
  have hmod := Nat.mod_lt m hunit
  rw [Nat.dvd_iff_mod_eq_zero, roundTo]
  split
  · omega
  · have hsucc : (m / unit + 1) * unit = m / unit * unit + unit := by rw [Nat.add_mul, Nat.one_mul]
    omega

private theorem dvd_roundTo (unit m : ℕ) : unit ∣ roundTo unit m := by
  rw [roundTo]
  split
  · exact Nat.dvd_mul_left _ _
  · exact Nat.dvd_mul_left _ _

/-- The weight of the last bit of the significand. -/
def unitOf (m : ℕ) : ℕ := 2 ^ (Nat.log2 m - 52)

def roundNat (m : ℕ) : ℕ := roundTo (unitOf m) m

theorem unitOf_pos (m : ℕ) : 0 < unitOf m := Nat.two_pow_pos _

theorem lt_two_pow_log2 (m : ℕ) : m < 2 ^ (Nat.log2 m + 1) := Nat.lt_log2_self

/-- The numbers of 53 significant bits are those that need no rounding. -/
theorem unitOf_dvd_iff {m : ℕ} : unitOf m ∣ m ↔ ∃ s e, s < 2 ^ 53 ∧ m = s * 2 ^ e := by
  constructor
  · intro hdvd
    refine ⟨m / unitOf m, Nat.log2 m - 52, ?_, (Nat.div_mul_cancel hdvd).symm⟩
    rw [Nat.div_lt_iff_lt_mul (unitOf_pos m), unitOf, ← Nat.pow_add]
    exact (lt_two_pow_log2 m).trans_le (Nat.pow_le_pow_right (by decide) (by omega))
  · rintro ⟨s, e, hs, rfl⟩
    rcases Nat.eq_zero_or_pos s with rfl | hpos
    · simp
    · have hne : s * 2 ^ e ≠ 0 := (Nat.mul_pos hpos (Nat.two_pow_pos e)).ne'
      have hlog : Nat.log2 (s * 2 ^ e) < 53 + e := by
        rw [Nat.log2_lt hne, Nat.pow_add]
        exact Nat.mul_lt_mul_of_pos_right hs (Nat.two_pow_pos e)
      exact Nat.dvd_mul_left_of_dvd (Nat.pow_dvd_pow 2 (by omega)) s

end Rounding

section Order

/-- The naturals of 53 significant bits. -/
def Significant (b : ℕ) : Prop := ∃ s e, s < 2 ^ 53 ∧ b = s * 2 ^ e

private theorem roundTo_le {unit m b : ℕ} (hunit : 0 < unit) (hdvd : unit ∣ b) (hle : m ≤ b) :
    roundTo unit m ≤ b := by
  have hdiv := Nat.div_add_mod' m unit
  rw [roundTo]
  split
  · omega
  · obtain ⟨k, rfl⟩ := hdvd
    rw [Nat.mul_comm unit k] at hle ⊢
    apply Nat.mul_le_mul_right
    by_contra hlt
    have hk : k * unit ≤ m / unit * unit := Nat.mul_le_mul_right unit (by omega)
    omega

private theorem le_roundTo {unit m b : ℕ} (hunit : 0 < unit) (hdvd : unit ∣ b) (hle : b ≤ m) :
    b ≤ roundTo unit m := by
  obtain ⟨k, rfl⟩ := hdvd
  have hk : unit * k ≤ m / unit * unit := by
    rw [Nat.mul_comm]
    apply Nat.mul_le_mul_right
    rwa [Nat.le_div_iff_mul_le hunit, Nat.mul_comm]
  rw [roundTo]
  split
  · exact hk
  · rw [Nat.add_mul]
    omega

private theorem log2_le_log2 {m n : ℕ} (h : m ≤ n) : Nat.log2 m ≤ Nat.log2 n := by
  rcases Nat.eq_zero_or_pos m with rfl | hpos
  · simp
  · exact (Nat.le_log2 (by omega)).mpr ((Nat.log2_self_le hpos.ne').trans h)

private theorem roundNat_le {m b : ℕ} (hb : Significant b) (hle : m ≤ b) : roundNat m ≤ b := by
  apply roundTo_le (unitOf_pos m) _ hle
  have hlog := log2_le_log2 hle
  exact (Nat.pow_dvd_pow 2 (by omega)).trans (unitOf_dvd_iff.mpr hb)

theorem le_roundNat {m b : ℕ} (hb : Significant b) (hle : b ≤ m) : b ≤ roundNat m := by
  have hlog := log2_le_log2 hle
  by_cases heq : Nat.log2 b = Nat.log2 m
  · apply le_roundTo (unitOf_pos m) _ hle
    rw [unitOf, ← heq]
    exact unitOf_dvd_iff.mpr hb
  · have hne : m ≠ 0 := by
      rintro rfl
      exact heq (congrArg Nat.log2 (Nat.le_zero.mp hle))
    have hpow : 2 ^ Nat.log2 m ≤ roundNat m :=
      le_roundTo (unitOf_pos m) (Nat.pow_dvd_pow 2 (by omega)) (Nat.log2_self_le hne)
    have hlt : b < 2 ^ (Nat.log2 b + 1) := lt_two_pow_log2 b
    have hstep : 2 ^ (Nat.log2 b + 1) ≤ 2 ^ Nat.log2 m :=
      Nat.pow_le_pow_right (by decide) (by omega)
    omega

theorem lt_of_roundNat_lt {m b : ℕ} (hb : Significant b) (hlt : roundNat m < b) : m < b := by
  by_contra hle
  have hround : b ≤ roundNat m := le_roundNat hb (by omega)
  omega

theorem roundNat_of_lt {m : ℕ} (hlt : m < 2 ^ 53) : roundNat m = m :=
  (roundTo_eq_self_iff (unitOf_pos m)).mpr (unitOf_dvd_iff.mpr ⟨m, 0, hlt, by simp⟩)

theorem significant_mul_two_pow {s : ℕ} (hs : s ≤ 2 ^ 53) (e : ℕ) : Significant (s * 2 ^ e) := by
  rcases hs.eq_or_lt with rfl | hlt
  · exact ⟨1, 53 + e, by decide, by rw [Nat.pow_add, Nat.one_mul]⟩
  · exact ⟨s, e, hlt, rfl⟩

theorem significant_two_pow (e : ℕ) : Significant (2 ^ e) := ⟨1, e, by decide, by simp⟩

theorem significant_roundNat (m : ℕ) : Significant (roundNat m) := by
  have hquot : m / unitOf m < 2 ^ 53 := by
    rw [Nat.div_lt_iff_lt_mul (unitOf_pos m), unitOf, ← Nat.pow_add]
    exact (lt_two_pow_log2 m).trans_le (Nat.pow_le_pow_right (by decide) (by omega))
  rw [roundNat, roundTo]
  split
  · exact significant_mul_two_pow (by omega) _
  · exact significant_mul_two_pow (by omega) _

private theorem roundTo_mono {unit m n : ℕ} (hle : m ≤ n) : roundTo unit m ≤ roundTo unit n := by
  have hdiv : m / unit ≤ n / unit := Nat.div_le_div_right hle
  have hm := Nat.div_add_mod' m unit
  have hn := Nat.div_add_mod' n unit
  rcases hdiv.eq_or_lt with heq | hlt
  · rw [heq] at hm
    rw [roundTo, roundTo, heq, Nat.add_mul]
    split <;> split <;> omega
  · have hnext : (m / unit + 1) * unit ≤ n / unit * unit := Nat.mul_le_mul_right unit hlt
    rw [Nat.add_mul] at hnext
    rw [roundTo, roundTo, Nat.add_mul, Nat.add_mul]
    split <;> split <;> omega

theorem roundNat_mono {m n : ℕ} (hle : m ≤ n) : roundNat m ≤ roundNat n := by
  rcases (log2_le_log2 hle).eq_or_lt with heq | hlt
  · rw [roundNat, roundNat, unitOf, unitOf, heq]
    exact roundTo_mono hle
  · -- A power of two lies between numbers of different length.
    have hne : n ≠ 0 := by
      rintro rfl
      exact absurd hlt (by simp)
    have hbelow : m ≤ 2 ^ Nat.log2 n :=
      (lt_two_pow_log2 m).le.trans (Nat.pow_le_pow_right (by decide) hlt)
    exact (roundNat_le (significant_two_pow _) hbelow).trans
      (le_roundNat (significant_two_pow _) (Nat.log2_self_le hne))

end Order

section Quotients

/-- The nearest double to a quotient that has 53 bits before the point, or is zero. -/
def roundQuotient (num den : ℕ) : ℕ := roundTo (unitOf (num / den) * den) num / den

variable {num den b : ℕ}

theorem le_roundQuotient (hden : 0 < den) (hb : Significant b) (hle : b * den ≤ num) :
    b ≤ roundQuotient num den := by
  have hquot : b ≤ num / den := (Nat.le_div_iff_mul_le hden).mpr hle
  have hpos : 0 < unitOf (num / den) * den := Nat.mul_pos (unitOf_pos _) hden
  rw [roundQuotient, Nat.le_div_iff_mul_le hden]
  rcases (log2_le_log2 hquot).eq_or_lt with heq | hlt
  · refine le_roundTo hpos (Nat.mul_dvd_mul_right ?_ den) hle
    rw [unitOf, ← heq]
    exact unitOf_dvd_iff.mpr hb
  · -- The power of two below the quotient lies between.
    have hne : num / den ≠ 0 := by
      intro hzero
      rw [hzero] at hlt
      exact absurd hlt (by simp)
    have hpow : 2 ^ Nat.log2 (num / den) * den ≤ num :=
      (Nat.le_div_iff_mul_le hden).mp (Nat.log2_self_le hne)
    have hbelow : b ≤ 2 ^ Nat.log2 (num / den) :=
      (lt_two_pow_log2 b).le.trans (Nat.pow_le_pow_right (by decide) hlt)
    exact (Nat.mul_le_mul_right den hbelow).trans
      (le_roundTo hpos (Nat.mul_dvd_mul_right (Nat.pow_dvd_pow 2 (by omega)) den) hpow)

theorem roundQuotient_le (hden : 0 < den) (hb : Significant b) (hle : num ≤ b * den) :
    roundQuotient num den ≤ b := by
  have hquot : num / den ≤ b := Nat.div_le_of_le_mul (by rwa [Nat.mul_comm])
  have hlog := log2_le_log2 hquot
  have hdvd : unitOf (num / den) * den ∣ b * den := Nat.mul_dvd_mul_right
    ((Nat.pow_dvd_pow 2 (by omega)).trans (unitOf_dvd_iff.mpr hb)) den
  have hround := roundTo_le (Nat.mul_pos (unitOf_pos _) hden) hdvd hle
  rw [Nat.mul_comm b] at hround
  exact Nat.div_le_of_le_mul hround

theorem roundQuotient_mono {num' : ℕ} (hden : 0 < den) (hle : num ≤ num') :
    roundQuotient num den ≤ roundQuotient num' den := by
  have hquot : num / den ≤ num' / den := Nat.div_le_div_right hle
  rcases (log2_le_log2 hquot).eq_or_lt with heq | hlt
  · rw [roundQuotient, roundQuotient, unitOf, unitOf, heq]
    exact Nat.div_le_div_right (roundTo_mono hle)
  · have hne : num' / den ≠ 0 := by
      intro hzero
      rw [hzero] at hlt
      exact absurd hlt (by simp)
    have hbelow : num ≤ 2 ^ Nat.log2 (num' / den) * den := by
      have hnext : num < (num / den + 1) * den := Nat.lt_mul_of_div_lt (Nat.lt_succ_self _) hden
      have hpow : num / den + 1 ≤ 2 ^ Nat.log2 (num' / den) :=
        (lt_two_pow_log2 (num / den)).trans_le (Nat.pow_le_pow_right (by decide) hlt)
      exact hnext.le.trans (Nat.mul_le_mul_right den hpow)
    exact (roundQuotient_le hden (significant_two_pow _) hbelow).trans
      (le_roundQuotient hden (significant_two_pow _)
        ((Nat.le_div_iff_mul_le hden).mp (Nat.log2_self_le hne)))

end Quotients

section Doubles

/-- The doubles that operations on integers lead to. -/
inductive Double where
  | integer (n : ℤ)
  | infinity (negative : Bool)
  | nan
  deriving DecidableEq

namespace Double

/-- The double next to an integer. -/
def ofInt (n : ℤ) : Double :=
  if Nat.log2 (roundNat n.natAbs) < 1024 then .integer (n.sign * roundNat n.natAbs)
  else .infinity (n < 0)

def neg : Double → Double
  | .integer n => .integer (-n)
  | .infinity negative => .infinity !negative
  | .nan => .nan

def add : Double → Double → Double
  | .integer m, .integer n => ofInt (m + n)
  | .integer _, .infinity negative | .infinity negative, .integer _ => .infinity negative
  | .infinity negative, .infinity negative' =>
      if negative = negative' then .infinity negative else .nan
  | _, _ => .nan

def sub (x y : Double) : Double := x.add y.neg

/-- An integer that a double can hold: 53 significant bits of 1024 bits at most. -/
def Holds (n : ℤ) : Prop :=
  (∃ s e, s < 2 ^ 53 ∧ n.natAbs = s * 2 ^ e) ∧ Nat.log2 n.natAbs < 1024

private theorem sign_mul_eq_self_iff {n : ℤ} {m : ℕ} (h : n = 0 → m = 0) :
    n.sign * m = n ↔ m = n.natAbs := by
  rcases eq_or_ne n 0 with rfl | hne
  · simp [h rfl]
  · constructor
    · intro heq
      have habs := congrArg Int.natAbs heq
      rw [Int.natAbs_mul, Int.natAbs_sign_of_ne_zero hne, Nat.one_mul] at habs
      exact habs
    · rintro rfl
      exact Int.sign_mul_natAbs n

theorem ofInt_eq_integer_iff {n : ℤ} : ofInt n = .integer n ↔ Holds n := by
  have hzero : n = 0 → roundNat n.natAbs = 0 := by
    rintro rfl
    rfl
  rw [Holds, ← unitOf_dvd_iff, ← roundTo_eq_self_iff (unitOf_pos _), ← roundNat, ofInt]
  by_cases hlt : Nat.log2 (roundNat n.natAbs) < 1024
  · rw [if_pos hlt, integer.injEq, sign_mul_eq_self_iff hzero]
    constructor
    · intro hround
      exact ⟨hround, hround ▸ hlt⟩
    · exact fun h => h.1
  · rw [if_neg hlt]
    constructor
    · intro h
      cases h
    · rintro ⟨hround, hsmall⟩
      exact absurd (hround.symm ▸ hsmall) hlt

theorem holds_of_lt {n : ℤ} (h : n.natAbs < 2 ^ 53) : Holds n := by
  refine ⟨⟨n.natAbs, 0, h, by simp⟩, ?_⟩
  rcases eq_or_ne n.natAbs 0 with hzero | hne
  · rw [hzero]
    decide
  · exact ((Nat.log2_lt hne).mpr h).trans (by decide)

theorem add_integer (m n : ℤ) : add (.integer m) (.integer n) = ofInt (m + n) := rfl

theorem sub_integer (m n : ℤ) : sub (.integer m) (.integer n) = ofInt (m - n) := by
  rw [sub, neg, add_integer, Int.sub_eq_add_neg]

/-- Nothing is compared with `nan`. -/
def le : Double → Double → Bool
  | .integer m, .integer n => m ≤ n
  | .integer _, .infinity negative => !negative
  | .infinity negative, .integer _ => negative
  | .infinity negative, .infinity negative' => negative || !negative'
  | _, _ => false

def lt : Double → Double → Bool
  | .integer m, .integer n => m < n
  | .integer _, .infinity negative => !negative
  | .infinity negative, .integer _ => negative
  | .infinity negative, .infinity negative' => negative && !negative'
  | _, _ => false

theorem lt_eq_false_of_le {x y : Double} (hle : x.le y = true) : y.lt x = false := by
  cases x <;> cases y <;> grind [le, lt]

variable {b n : ℤ}

theorem ofInt_le (hb : Holds b) (hle : n ≤ b) : (ofInt n).le (.integer b) = true := by
  by_cases hneg : n < 0
  · by_cases hb0 : b < 0
    · have habs : b.natAbs ≤ roundNat n.natAbs := le_roundNat hb.1 (by omega)
      rw [ofInt, Int.sign_eq_neg_one_of_neg hneg]
      split
      · simp only [le, decide_eq_true_eq]
        omega
      · simp [le, hneg]
    · rw [ofInt, Int.sign_eq_neg_one_of_neg hneg]
      split
      · simp only [le, decide_eq_true_eq]
        omega
      · simp [le, hneg]
  · have habs : roundNat n.natAbs ≤ b.natAbs := roundNat_le hb.1 (by omega)
    have hlog : Nat.log2 (roundNat n.natAbs) < 1024 := (log2_le_log2 habs).trans_lt hb.2
    rw [ofInt, if_pos hlog]
    simp only [le, decide_eq_true_eq]
    rcases (show 0 ≤ n by omega).eq_or_lt with rfl | hpos
    · simpa using hle
    · rw [Int.sign_eq_one_of_pos hpos]
      omega

theorem le_ofInt (hb : Holds b) (hle : b ≤ n) : (integer b).le (.ofInt n) = true := by
  by_cases hneg : n < 0
  · have habs : roundNat n.natAbs ≤ b.natAbs := roundNat_le hb.1 (by omega)
    have hlog : Nat.log2 (roundNat n.natAbs) < 1024 := (log2_le_log2 habs).trans_lt hb.2
    rw [ofInt, if_pos hlog, Int.sign_eq_neg_one_of_neg hneg]
    simp only [le, decide_eq_true_eq]
    omega
  · have hsign : 0 ≤ n.sign * (roundNat n.natAbs : ℤ) :=
      Int.mul_nonneg (Int.sign_nonneg_iff.mpr (by omega)) (by omega)
    rw [ofInt]
    split
    · simp only [le, decide_eq_true_eq]
      by_cases hb0 : b ≤ 0
      · omega
      · have habs : b.natAbs ≤ roundNat n.natAbs := le_roundNat hb.1 (by omega)
        rw [Int.sign_eq_one_of_pos (by omega)]
        omega
    · simp [le, hneg]

end Double

end Doubles

section Texts

/-- A multiple of `10 ^ zeros` that rounds to the number, the nearest one if there are two. -/
def shorter (m zeros : ℕ) : Option ℕ :=
  let nearest := roundTo (10 ^ zeros) m
  let other := if nearest ≤ m then nearest + 10 ^ zeros else nearest - 10 ^ zeros
  ([nearest, other].find? fun n => roundNat n = m).map (· / 10 ^ zeros)

/-- The fewest digits of a positive double, and the number of zeros behind them. -/
def shortest (m : ℕ) : ℕ × ℕ :=
  let zeros := (List.range ((Nat.toDigits 10 m).length + 1)).reverse
  (zeros.findSome? fun z => (shorter m z).map fun digits => (digits, z)).getD (m, 0)

private theorem roundNat_of_shorter {m zeros digits : ℕ} (h : shorter m zeros = some digits) :
    roundNat (digits * 10 ^ zeros) = m := by
  simp only [shorter, Option.map_eq_some_iff] at h
  obtain ⟨n, hfind, rfl⟩ := h
  have hmem := List.mem_of_find?_eq_some hfind
  have hround : roundNat n = m := by simpa using List.find?_some hfind
  have hdvd : 10 ^ zeros ∣ n := by
    have hnear := dvd_roundTo (10 ^ zeros) m
    simp only [List.mem_cons, List.not_mem_nil, or_false] at hmem
    rcases hmem with rfl | rfl
    · exact hnear
    · split
      · exact Nat.dvd_add hnear (Nat.dvd_refl _)
      · exact Nat.dvd_sub hnear (Nat.dvd_refl _)
  rw [Nat.div_mul_cancel hdvd, hround]

/-- The digits that a double is written with are read as the double. -/
theorem roundNat_shortest {m : ℕ} (h : roundNat m = m) :
    roundNat ((shortest m).1 * 10 ^ (shortest m).2) = m := by
  simp only [shortest]
  cases hfind : (List.range ((Nat.toDigits 10 m).length + 1)).reverse.findSome? fun z =>
      (shorter m z).map fun digits => (digits, z) with
  | none => simpa using h
  | some found =>
    obtain ⟨z, -, hz⟩ := List.exists_of_findSome?_eq_some hfind
    obtain ⟨digits, hdigits, rfl⟩ := Option.map_eq_some_iff.mp hz
    exact roundNat_of_shorter hdigits

/-- Numbers of more than 21 digits are written with an exponent. -/
def wholeNumeral (digits : List Char) (zeros : ℕ) : Numeral :=
  if digits.length + zeros ≤ 21 then ⟨digits ++ List.replicate zeros '0', [], none⟩
  else ⟨digits.take 1, digits.drop 1, some (digits.length + zeros - 1)⟩

def wholeText (m : ℕ) : List Char :=
  if m = 0 then ['0']
  else (wholeNumeral (Nat.toDigits 10 (shortest m).1) (shortest m).2).text

namespace Double

def text : Double → List Char
  | .integer n => (if n < 0 then ['-'] else []) ++ wholeText n.natAbs
  | .infinity negative => (if negative then ['-'] else []) ++ "Infinity".toList
  | .nan => "NaN".toList

end Double

/-- The exponent at the end of a numeral, if there is one. -/
def readExponent : List Char → Option (Option ℤ)
  | [] => some none
  | 'e' :: '+' :: digits =>
      if digits ≠ [] ∧ digits.all (·.isDigit) then some (some (Nat.ofDigitChars 10 digits 0))
      else none
  | _ => none

/-- Digits, perhaps with a point and further digits, perhaps with an exponent. -/
def readNumeral (text : List Char) : Option Numeral :=
  let whole := text.takeWhile (·.isDigit)
  let rest := text.dropWhile (·.isDigit)
  let fraction := if rest.head? = some '.' then (rest.drop 1).takeWhile (·.isDigit) else []
  let rest := if rest.head? = some '.' then (rest.drop 1).dropWhile (·.isDigit) else rest
  if whole = [] then none
  else (readExponent rest).map fun exponent => ⟨whole, fraction, exponent⟩

namespace Double

/-- Behind a point the exponent is at least the number of digits. -/
def ofNumeral (negative : Bool) (n : Numeral) : Double :=
  let digits : ℤ := Nat.ofDigitChars 10 (n.whole ++ n.fraction) 0
  let scale := n.exponent.getD 0 - n.fraction.length
  if digits ≠ 0 ∧ scale ≥ 400 then .infinity negative
  else ofInt ((if negative then -digits else digits) * 10 ^ scale.toNat)

/-- The double that a text stands for. -/
def ofText (text : List Char) : Double :=
  let negative := text.head? = some '-'
  (readNumeral (if negative then text.drop 1 else text)).elim .nan (ofNumeral negative)

end Double

/-- All digits of an integer. -/
def integerText (n : ℤ) : List Char :=
  (if n < 0 then ['-'] else []) ++ Nat.toDigits 10 n.natAbs

theorem readNumeral_toDigits (n : ℕ) :
    readNumeral (Nat.toDigits 10 n) = some ⟨Nat.toDigits 10 n, [], none⟩ := by
  have htake : (Nat.toDigits 10 n).takeWhile (·.isDigit) = Nat.toDigits 10 n :=
    List.takeWhile_eq_self_iff.mpr isDigit_toDigits
  have hdrop : (Nat.toDigits 10 n).dropWhile (·.isDigit) = [] :=
    List.dropWhile_eq_nil_iff.mpr isDigit_toDigits
  simp [readNumeral, htake, hdrop, readExponent]

theorem head?_toDigits_ne {c : Char} (hc : c.isDigit = false) (n : ℕ) :
    (Nat.toDigits 10 n).head? ≠ some c := by
  intro h
  have hdigit := isDigit_toDigits c (List.mem_of_mem_head? h)
  rw [hc] at hdigit
  cases hdigit

theorem Double.ofText_integerText (n : ℤ) : Double.ofText (integerText n) = .ofInt n := by
  obtain ⟨k, hk⟩ : ∃ k, k = n.natAbs := ⟨_, rfl⟩
  have hhead := head?_toDigits_ne (show '-'.isDigit = false by decide) k
  rw [integerText, ← hk]
  by_cases hneg : n < 0
  · have hn : n = -(k : ℤ) := by omega
    rw [if_pos hneg, hn]
    simp [ofText, readNumeral_toDigits, ofNumeral]
  · have hn : n = (k : ℤ) := by omega
    rw [if_neg hneg, hn]
    simp [ofText, hhead, readNumeral_toDigits, ofNumeral]

end Texts

end JsonRpcRelay.Framework

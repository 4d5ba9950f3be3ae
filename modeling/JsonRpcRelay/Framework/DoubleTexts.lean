import JsonRpcRelay.Framework.Binary64
import JsonRpcRelay.Framework.JsonReader

/-!
# Integers read from their text

The text of an exact integer is read as the integer.  The digits of a double are those of a number
that rounds to the double and need not be the double, unless it is a safe integer.  Where they are
read as a double again, they are read as the double.
-/

namespace JsonRpcRelay.Framework

theorem readSigned_integerText (n : ℤ) : readSigned (integerText n) = some n := by
  rw [integerText]
  by_cases hneg : n < 0
  · have habs : -(n.natAbs : ℤ) = n := by omega
    simp only [hneg, if_true, readSigned, List.cons_append, List.nil_append, List.head?_cons,
      List.drop_one, List.tail_cons, readDigits_toDigits, Option.map_some, habs]
  · have habs : (n.natAbs : ℤ) = n := by omega
    have hhead := head?_toDigits_ne (show '-'.isDigit = false by decide) n.natAbs
    have hplus := head?_toDigits_ne (show '+'.isDigit = false by decide) n.natAbs
    simp only [hneg, if_false, readSigned, List.nil_append, hhead, hplus, readDigits_toDigits,
      Option.map_some, habs]

/-- The number that the digits of a double stand for. -/
def writtenNat (m : ℕ) : ℕ := (shortest m).1 * 10 ^ (shortest m).2

theorem readDigits_wholeText {m : ℕ} (hpos : 0 < m) (hlt : writtenNat m < 2 ^ 64)
    (hwritten : 0 < writtenNat m) : readDigits (wholeText m) = some (writtenNat m) := by
  obtain ⟨k, z, hshort⟩ : ∃ k z, shortest m = (k, z) := ⟨_, _, rfl⟩
  rw [writtenNat, hshort] at hlt hwritten ⊢
  rw [wholeText, if_neg hpos.ne', hshort]
  dsimp only at hlt hwritten ⊢
  have hk : 0 < k := Nat.pos_of_mul_pos_right hwritten
  have hz : z ≤ 20 := by
    by_contra hlarge
    have hpow : 10 ^ 21 ≤ 10 ^ z := Nat.pow_le_pow_right (by decide) (by omega)
    have hmul : 10 ^ z ≤ k * 10 ^ z := Nat.le_mul_of_pos_left _ hk
    omega
  have hlength : (Nat.toDigits 10 k).length + z ≤ 21 := by
    have hdigits : (Nat.toDigits 10 k).length ≤ 21 - z := by
      rw [Nat.length_toDigits_le_iff (by decide) (by omega)]
      apply Nat.lt_of_mul_lt_mul_right (a := 10 ^ z)
      rw [← Nat.pow_add, Nat.sub_add_cancel (by omega)]
      omega
    omega
  have htext : (wholeNumeral (Nat.toDigits 10 k) z).text =
      Nat.toDigits 10 k ++ List.replicate z '0' := by
    simp [wholeNumeral, hlength, Numeral.text]
  have hall : (Nat.toDigits 10 k ++ List.replicate z '0').all (·.isDigit) = true := by
    rw [List.all_append, List.all_eq_true.mpr isDigit_toDigits, Bool.true_and]
    simp
  rw [htext, readDigits, if_pos ⟨by simp, hall⟩, Nat.ofDigitChars_append,
    Nat.ofDigitChars_ten_toDigits, Nat.ofDigitChars_replicate_zero, Nat.mul_comm]

/-- The digits of a double are those of a number next to it. -/
theorem roundNat_writtenNat {m : ℕ} (hm : Significant m) : roundNat (writtenNat m) = m :=
  roundNat_shortest ((roundTo_eq_self_iff (unitOf_pos m)).mpr (unitOf_dvd_iff.mpr hm))

section RoundTrips

variable {k z m : ℕ}

private theorem toDigits_mul_ten_pow (hk : 0 < k) :
    Nat.toDigits 10 (k * 10 ^ z) = Nat.toDigits 10 k ++ List.replicate z '0' := by
  induction z with
  | zero => simp
  | succ z ih =>
    have hpos : 0 < k * 10 ^ z := Nat.mul_pos hk (Nat.pow_pos (by decide))
    have hten : k * 10 ^ (z + 1) = 10 * (k * 10 ^ z) + 0 := by
      rw [Nat.pow_succ, Nat.add_zero, Nat.mul_comm 10, Nat.mul_assoc]
    rw [hten, ← Nat.toDigits_append_toDigits (by decide) hpos (by decide), ih,
      List.append_assoc, List.replicate_succ']
    rfl

private theorem wholeNumeral_text (h : (Nat.toDigits 10 k).length + z ≤ 21) (hk : 0 < k) :
    (wholeNumeral (Nat.toDigits 10 k) z).text = Nat.toDigits 10 (k * 10 ^ z) := by
  rw [toDigits_mul_ten_pow hk]
  simp [wholeNumeral, h, Numeral.text]

private theorem readExponent_exponentText (e : ℕ) :
    readExponent (exponentText e) = some (some (e : ℤ)) := by
  have hall : (Nat.toDigits 10 e).all (·.isDigit) = true := List.all_eq_true.mpr isDigit_toDigits
  have hneg : ¬(e : ℤ) < 0 := by omega
  simp [exponentText, hneg, readExponent, hall, Nat.ofDigitChars_ten_toDigits]

private theorem readNumeral_scientific {d : Char} {fraction : List Char} (hd : d.isDigit = true)
    (hfraction : ∀ c ∈ fraction, c.isDigit = true) (e : ℕ) :
    readNumeral (⟨[d], fraction, some (e : ℤ)⟩ : Numeral).text =
      some ⟨[d], fraction, some (e : ℤ)⟩ := by
  have hstops : Stops (fun c => c.isDigit = true) (exponentText e) := stops_cons.mpr (by decide)
  have hexponent : (exponentText e).head? ≠ some '.' := by simp [exponentText]
  have hwhole : ∀ c ∈ [d], c.isDigit = true := by simpa using hd
  unfold readNumeral Numeral.text
  by_cases hnone : fraction = []
  · subst hnone
    simp only [if_true, List.append_nil, Option.elim_some]
    rw [takeWhile_of_stops hwhole hstops, dropWhile_of_stops hwhole hstops]
    simp [hexponent, readExponent_exponentText]
  · have hpoint : Stops (fun c => c.isDigit = true) ('.' :: (fraction ++ exponentText e)) :=
      stops_cons.mpr (by decide)
    have htext : [d] ++ '.' :: fraction ++ exponentText e =
        [d] ++ '.' :: (fraction ++ exponentText e) := by simp
    simp only [if_neg hnone, Option.elim_some]
    rw [htext, takeWhile_of_stops hwhole hpoint, dropWhile_of_stops hwhole hpoint]
    simp [takeWhile_of_stops hfraction hstops, dropWhile_of_stops hfraction hstops,
      readExponent_exponentText]

private theorem ofNumeral_wholeNumeral (hk : 0 < k) (hz : z < 400) (negative : Bool) :
    (readNumeral (wholeNumeral (Nat.toDigits 10 k) z).text).elim .nan (Double.ofNumeral negative) =
      .ofInt (if negative then -((k * 10 ^ z : ℕ) : ℤ) else (k * 10 ^ z : ℕ)) := by
  by_cases h : (Nat.toDigits 10 k).length + z ≤ 21
  · rw [wholeNumeral_text h hk, readNumeral_toDigits]
    simp [Double.ofNumeral, Nat.ofDigitChars_ten_toDigits]
  · obtain ⟨d, fraction, hdigits⟩ := List.exists_cons_of_ne_nil
      (show Nat.toDigits 10 k ≠ [] from Nat.toDigits_ne_nil)
    have hall : ∀ c ∈ d :: fraction, c.isDigit = true := hdigits ▸ isDigit_toDigits
    have hk : Nat.ofDigitChars 10 (d :: fraction) 0 = k := by
      rw [← hdigits, Nat.ofDigitChars_ten_toDigits]
    rw [hdigits] at h
    have hnumeral : wholeNumeral (d :: fraction) z =
        ⟨[d], fraction, some ((fraction.length + z : ℕ) : ℤ)⟩ := by
      rw [wholeNumeral, if_neg h]
      simp only [List.length_cons, List.take_succ_cons, List.take_zero, List.drop_succ_cons,
        List.drop_zero, Numeral.mk.injEq, true_and, Option.some.injEq]
      omega
    rw [hdigits, hnumeral, readNumeral_scientific (hall d List.mem_cons_self)
      (fun c hc => hall c (List.mem_cons_of_mem d hc)), Option.elim_some]
    have hscale : ((fraction.length + z : ℕ) : ℤ) - fraction.length = z := by omega
    have hsmall : ¬(k ≠ 0 ∧ 400 ≤ z) := by omega
    rw [Double.ofNumeral]
    simp only [List.singleton_append, hk, Option.getD_some, hscale]
    rw [if_neg (by omega), Int.toNat_natCast]
    cases negative <;> simp

private theorem head?_wholeNumeral (k z : ℕ) :
    (wholeNumeral (Nat.toDigits 10 k) z).text.head? ≠ some '-' := by
  obtain ⟨d, digits, hdigits⟩ := List.exists_cons_of_ne_nil
    (show Nat.toDigits 10 k ≠ [] from Nat.toDigits_ne_nil)
  have hd : d ≠ '-' := by
    rintro rfl
    exact absurd (isDigit_toDigits '-' (hdigits ▸ List.mem_cons_self)) (by decide)
  rw [hdigits, wholeNumeral]
  split <;> simpa [Numeral.text] using hd

private theorem shortest_pos (hpos : 0 < m) (hround : roundNat m = m) : 0 < (shortest m).1 := by
  have hshortest := roundNat_shortest hround
  rcases Nat.eq_zero_or_pos (shortest m).1 with hk | hk
  · rw [hk, Nat.zero_mul] at hshortest
    exact absurd hshortest.symm hpos.ne'
  · exact hk

private theorem writtenNat_of_lt (hlt : m < 2 ^ 53) : writtenNat m = m := by
  have hround : roundNat (writtenNat m) = m := roundNat_shortest (roundNat_of_lt hlt)
  have hwritten : writtenNat m < 2 ^ 53 := by
    apply lt_of_roundNat_lt (significant_two_pow 53)
    rwa [hround]
  rwa [roundNat_of_lt hwritten] at hround

/-- A safe integer is written with all its digits. -/
theorem wholeText_of_lt (hlt : m < 2 ^ 53) : wholeText m = Nat.toDigits 10 m := by
  rcases Nat.eq_zero_or_pos m with rfl | hpos
  · rfl
  have hwritten := writtenNat_of_lt hlt
  rw [writtenNat] at hwritten
  have hk := shortest_pos hpos (roundNat_of_lt hlt)
  have hlength : (Nat.toDigits 10 (shortest m).1).length + (shortest m).2 ≤ 21 := by
    have hdigits : (Nat.toDigits 10 m).length ≤ 16 :=
      (Nat.length_toDigits_le_iff (by decide) (by decide)).mpr (by omega)
    rw [← hwritten, toDigits_mul_ten_pow hk, List.length_append, List.length_replicate] at hdigits
    omega
  rw [wholeText, if_neg hpos.ne', wholeNumeral_text hlength hk, hwritten]

theorem text_of_lt {n : ℤ} (h : n.natAbs < 2 ^ 53) : Double.text (.integer n) = integerText n := by
  rw [Double.text, integerText, wholeText_of_lt h]

private theorem two_pow_le_ten_pow {a : ℕ} (h : a ≤ 3 * z) : 2 ^ a ≤ 10 ^ z :=
  calc 2 ^ a ≤ 2 ^ (3 * z) := Nat.pow_le_pow_right (by decide) h
    _ = (2 ^ 3) ^ z := Nat.pow_mul 2 3 z
    _ ≤ 10 ^ z := Nat.pow_le_pow_left (by decide) z

/-- The text of a number is read as the number. -/
theorem ofText_text {n : ℤ} (h : Double.Holds n) :
    Double.ofText (Double.text (.integer n)) = .integer n := by
  have hround : roundNat n.natAbs = n.natAbs :=
    (roundTo_eq_self_iff (unitOf_pos _)).mpr (unitOf_dvd_iff.mpr h.1)
  rcases Nat.eq_zero_or_pos n.natAbs with hzero | hpos
  · obtain rfl : n = 0 := Int.natAbs_eq_zero.mp hzero
    rfl
  have hshortest := roundNat_shortest hround
  have hk := shortest_pos hpos hround
  have hz : (shortest n.natAbs).2 < 400 := by
    by_contra hlarge
    have hsmall := h.2
    have hpow := (two_pow_le_ten_pow (show Nat.log2 n.natAbs + 1 ≤ 3 * (shortest n.natAbs).2 by
      omega)).trans (Nat.le_mul_of_pos_left _ hk)
    have hle := le_roundNat (significant_two_pow _) hpow
    rw [hshortest] at hle
    exact absurd (lt_two_pow_log2 n.natAbs) (Nat.not_lt.mpr hle)
  have hread := ofNumeral_wholeNumeral hk hz (decide (n < 0))
  have hhead := head?_wholeNumeral (shortest n.natAbs).1 (shortest n.natAbs).2
  have hwritten (x : ℤ) (hsign : x.sign = n.sign)
      (habs : x.natAbs = (shortest n.natAbs).1 * 10 ^ (shortest n.natAbs).2) :
      Double.ofInt x = .integer n := by
    rw [Double.ofInt, habs, hshortest, if_pos h.2, hsign, Int.sign_mul_natAbs]
  have hpos' : 0 < (shortest n.natAbs).1 * 10 ^ (shortest n.natAbs).2 :=
    Nat.mul_pos hk (Nat.pow_pos (by decide))
  rw [Double.text, wholeText, if_neg hpos.ne', Double.ofText]
  generalize (shortest n.natAbs).1 * 10 ^ (shortest n.natAbs).2 = written at *
  by_cases hneg : n < 0
  · simp only [hneg, if_true, List.cons_append, List.nil_append, List.head?_cons, List.drop_one,
      List.tail_cons, decide_true] at hread ⊢
    rw [hread]
    apply hwritten
    · rw [Int.sign_eq_neg_one_of_neg hneg, Int.sign_eq_neg_one_of_neg (by omega)]
    · omega
  · simp only [hneg, if_false, List.nil_append, hhead, decide_false, Bool.false_eq_true] at hread ⊢
    rw [hread]
    apply hwritten
    · rw [Int.sign_eq_one_of_pos (by omega), Int.sign_eq_one_of_pos (by omega)]
    · omega

end RoundTrips

end JsonRpcRelay.Framework

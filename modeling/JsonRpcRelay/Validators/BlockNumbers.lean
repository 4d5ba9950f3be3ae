import JsonRpcRelay.Framework.Binary64
import JsonRpcRelay.Framework.Patterns
import JsonRpcRelay.Validators.Accepted
import JsonRpcRelay.Validators.ObjectTypes

/-!
# The grammar of block numbers

The validation knows two types of block numbers and the services check a number once more.  The
two regular expressions differ in how they repeat their digits, and with the bound on the number
they accept the same texts.
-/

namespace JsonRpcRelay.Validators

open Framework Js RegularExpression
open Framework.Pattern (oneOf literal oneOrMore upTo range)
open Common.BlockParam (isBlockNumberText)

section Recognisers

/-- `[0-9A-Fa-f]`. -/
def hexDigits : List Char := range '0' '9' ++ range 'A' 'F' ++ range 'a' 'f'

/-- `[1-9A-Fa-f]`. -/
def leadingDigits : List Char := range '1' '9' ++ range 'A' 'F' ++ range 'a' 'f'

/-- `/^0[xX]([1-9A-Fa-f][0-9A-Fa-f]{0,13}|0)$/`. -/
def blockNumberPattern : RegularExpression Char :=
  literal '0' * (oneOf ['x', 'X'] *
    (oneOf leadingDigits * upTo (oneOf hexDigits) 13 + literal '0'))

/-- `/^0[xX]([1-9A-Fa-f]+[0-9A-Fa-f]{0,13}|0)$/`. -/
def blockParamsPattern : RegularExpression Char :=
  literal '0' * (oneOf ['x', 'X'] *
    (oneOrMore (oneOf leadingDigits) * upTo (oneOf hexDigits) 13 + literal '0'))

/-- `Number.MAX_SAFE_INTEGER`. -/
def MAX_SAFE_INTEGER : Double := .integer (2 ^ 53 - 1)

/-- `Number.MAX_SAFE_INTEGER >= Number(param)` for hexadecimal digits behind their prefix. -/
def isSafeNumber (param : String) : Bool := (Double.ofInt (bigIntOfHex param)).le MAX_SAFE_INTEGER

/-- `TYPES.blockNumber.test`. -/
def testBlockNumber (param : String) : Bool :=
  (blockNumberPattern.rmatch param.toList && isSafeNumber param) || param ∈ blockTags

/-- `TYPES.blockParams.test` of what is no object. -/
def testBlockParams (param : String) : Bool :=
  (blockParamsPattern.rmatch param.toList && isSafeNumber param) || param ∈ blockTags

/-- The check of the services. -/
def isBlockNumValid (num : String) : Bool :=
  blockParamsPattern.rmatch num.toList && isSafeNumber num

def isBlockTagEarliest (tag : String) : Bool := tag = "earliest"

def isBlockTagFinalized (tag : String) : Bool :=
  tag = "finalized" || tag = "latest" || tag = "pending" || tag = "safe"

def isBlockParamValid : Option String → Bool
  | none => true
  | some tag => isBlockTagEarliest tag || isBlockTagFinalized tag || isBlockNumValid tag

end Recognisers

section Grammar

/-- Hexadecimal digits without a zero in front. -/
def IsNumeral (digits : List Char) : Prop :=
  digits ≠ [] ∧ digits.head? ≠ some '0' ∧ digits.all isHexDigit = true

/-- A prefix, and zero or digits without a zero in front, of a number of 53 bits. -/
def IsBlockNumber (text : String) : Prop :=
  ∃ x digits, text.toList = '0' :: x :: digits ∧ (x = 'x' ∨ x = 'X') ∧
    (digits = ['0'] ∨ IsNumeral digits) ∧ ofHexDigits digits ≤ 2 ^ 53 - 1

private theorem mem_hexDigits {c : Char} : c ∈ hexDigits ↔ isHexDigit c = true := by
  rw [isHexDigit_iff, hexDigits, List.mem_append, List.mem_append, Pattern.mem_range (by decide),
    Pattern.mem_range (by decide), Pattern.mem_range (by decide)]
  tauto

private theorem mem_leadingDigits {c : Char} :
    c ∈ leadingDigits ↔ isHexDigit c = true ∧ c ≠ '0' := by
  have hzero : c ≠ '0' ↔ c.toNat ≠ 48 := not_congr Char.toNat_inj.symm
  rw [isHexDigit_iff, leadingDigits, List.mem_append, List.mem_append,
    Pattern.mem_range (by decide), Pattern.mem_range (by decide), Pattern.mem_range (by decide),
    hzero]
  simp only [show '1'.toNat = 49 from rfl, show '9'.toNat = 57 from rfl,
    show 'A'.toNat = 65 from rfl, show 'F'.toNat = 70 from rfl, show 'a'.toNat = 97 from rfl,
    show 'f'.toNat = 102 from rfl]
  omega

private theorem isSafeNumber_iff {text : String} :
    isSafeNumber text = true ↔ bigIntOfHex text ≤ 2 ^ 53 - 1 := by
  rw [isSafeNumber, MAX_SAFE_INTEGER]
  constructor
  · intro hle
    by_contra hlarge
    have hround : (Double.integer (2 ^ 53)).le (.ofInt (bigIntOfHex text)) = true :=
      Double.le_ofInt ⟨⟨1, 53, by decide, by decide⟩, by decide⟩ (by omega)
    cases hd : Double.ofInt (bigIntOfHex text) with
    | integer n =>
      simp only [hd, Double.le, decide_eq_true_eq] at hle hround
      omega
    | infinity negative => simp_all [Double.le]
    | nan => simp [hd, Double.le] at hle
  · intro hle
    exact Double.ofInt_le (Double.holds_of_lt (by decide)) (by omega)

/-- Both patterns are a prefix and zero or a body without a zero in front. -/
theorem prefixed_rmatch_iff {body : RegularExpression Char} {text : List Char} :
    (literal '0' * (oneOf ['x', 'X'] * (body + literal '0'))).rmatch text = true ↔
      ∃ x digits, text = '0' :: x :: digits ∧ (x = 'x' ∨ x = 'X') ∧
        (digits = ['0'] ∨ body.rmatch digits = true) := by
  rw [literal]
  match text with
  | [] => simp only [Pattern.oneOf_mul_rmatch_nil, Bool.false_eq_true, reduceCtorEq, false_and,
      exists_false]
  | [c] =>
    simp only [Pattern.oneOf_mul_rmatch_cons, Pattern.oneOf_mul_rmatch_nil, Bool.false_eq_true,
      and_false, List.cons.injEq, reduceCtorEq, false_and, exists_false]
  | c :: x :: digits =>
    rw [Pattern.oneOf_mul_rmatch_cons, Pattern.oneOf_mul_rmatch_cons, add_rmatch_iff,
      Pattern.oneOf_rmatch_iff]
    simp only [List.mem_cons, List.not_mem_nil, or_false, List.cons.injEq, exists_eq_left]
    constructor
    · rintro ⟨rfl, hx, hdigits⟩
      exact ⟨x, digits, ⟨rfl, rfl, rfl⟩, hx, hdigits.symm⟩
    · rintro ⟨x, digits, ⟨rfl, rfl, rfl⟩, hx, hdigits⟩
      exact ⟨rfl, hx, hdigits.symm⟩

private theorem length_le_of_safe {c : Char} {digits : List Char} (hc : isHexDigit c = true)
    (hne : c ≠ '0') (hsafe : ofHexDigits (c :: digits) ≤ 2 ^ 53 - 1) : digits.length ≤ 13 := by
  have hle : 16 ^ digits.length ≤ ofHexDigits (c :: digits) := le_ofHexDigits hc hne
  by_contra hlong
  have hpow : 16 ^ 14 ≤ 16 ^ digits.length := Nat.pow_le_pow_right (by decide) (by omega)
  omega

private theorem repeated_of_single {digits : List Char}
    (h : (oneOf leadingDigits * upTo (oneOf hexDigits) 13).rmatch digits = true) :
    (oneOrMore (oneOf leadingDigits) * upTo (oneOf hexDigits) 13).rmatch digits = true := by
  cases digits with
  | nil =>
    rw [Pattern.oneOf_mul_rmatch_nil] at h
    cases h
  | cons c digits =>
    rw [Pattern.oneOf_mul_rmatch_cons] at h
    refine (mul_rmatch_iff _ _ _).mpr ⟨[c], digits, rfl, ?_, h.2⟩
    rw [Pattern.oneOrMore_oneOf_rmatch_iff]
    exact ⟨by simp, by simpa using h.1⟩

private theorem isNumeral_of_repeated {digits : List Char}
    (h : (oneOrMore (oneOf leadingDigits) * upTo (oneOf hexDigits) 13).rmatch digits = true) :
    IsNumeral digits := by
  obtain ⟨front, rest, rfl, hfront, hrest⟩ := (mul_rmatch_iff _ _ _).mp h
  rw [Pattern.oneOrMore_oneOf_rmatch_iff] at hfront
  rw [Pattern.upTo_oneOf_rmatch_iff] at hrest
  cases front with
  | nil => exact absurd rfl hfront.1
  | cons c front =>
    have hc := mem_leadingDigits.mp (hfront.2 c List.mem_cons_self)
    refine ⟨by simp, by simpa using hc.2, ?_⟩
    rw [List.all_append, Bool.and_eq_true, List.all_eq_true, List.all_eq_true]
    constructor
    · intro d hd
      exact (mem_leadingDigits.mp (hfront.2 d hd)).1
    · intro d hd
      exact mem_hexDigits.mp (hrest.2 d hd)

/-- Here the bound on the number gives the bound on the digits. -/
theorem single_of_isNumeral {digits : List Char} (h : IsNumeral digits)
    (hsafe : ofHexDigits digits ≤ 2 ^ 53 - 1) :
    (oneOf leadingDigits * upTo (oneOf hexDigits) 13).rmatch digits = true := by
  obtain ⟨hnil, hhead, hall⟩ := h
  cases digits with
  | nil => exact absurd rfl hnil
  | cons c digits =>
    rw [List.all_cons, Bool.and_eq_true, List.all_eq_true] at hall
    have hne : c ≠ '0' := by simpa using hhead
    rw [Pattern.oneOf_mul_rmatch_cons, Pattern.upTo_oneOf_rmatch_iff]
    refine ⟨mem_leadingDigits.mpr ⟨hall.1, hne⟩, length_le_of_safe hall.1 hne hsafe, ?_⟩
    intro d hd
    exact mem_hexDigits.mpr (hall.2 d hd)

private theorem safe_rmatch_iff {body : RegularExpression Char} {text : String}
    (hnumeral : ∀ digits, body.rmatch digits = true → IsNumeral digits)
    (hbody : ∀ digits, IsNumeral digits → ofHexDigits digits ≤ 2 ^ 53 - 1 →
      body.rmatch digits = true) :
    ((literal '0' * (oneOf ['x', 'X'] * (body + literal '0'))).rmatch text.toList &&
      isSafeNumber text) = true ↔ IsBlockNumber text := by
  rw [Bool.and_eq_true, prefixed_rmatch_iff, isSafeNumber_iff, bigIntOfHex]
  constructor
  · rintro ⟨⟨x, digits, htext, hx, hdigits⟩, hsafe⟩
    rw [htext] at hsafe
    exact ⟨x, digits, htext, hx, hdigits.imp_right (hnumeral digits), hsafe⟩
  · rintro ⟨x, digits, htext, hx, hdigits, hsafe⟩
    refine ⟨⟨x, digits, htext, hx, hdigits.imp_right fun h => hbody digits h hsafe⟩, ?_⟩
    rw [htext]
    exact hsafe

private theorem blockNumberPattern_iff {text : String} :
    (blockNumberPattern.rmatch text.toList && isSafeNumber text) = true ↔ IsBlockNumber text :=
  safe_rmatch_iff (fun _ h => isNumeral_of_repeated (repeated_of_single h))
    fun _ => single_of_isNumeral

private theorem blockParamsPattern_iff {text : String} :
    (blockParamsPattern.rmatch text.toList && isSafeNumber text) = true ↔ IsBlockNumber text :=
  safe_rmatch_iff (fun _ => isNumeral_of_repeated) fun _ h hsafe =>
    repeated_of_single (single_of_isNumeral h hsafe)

end Grammar

section Types

private theorem isBlockNumberText_iff {text : String} :
    isBlockNumberText text = true ↔ IsBlockNumber text := by
  constructor
  · intro h
    unfold isBlockNumberText at h
    split at h
    · rename_i x digits htext
      rw [decide_eq_true_eq, bigIntOfHex, htext] at h
      obtain ⟨hx, hnil, -, hall, hhead, hsafe⟩ := h
      refine ⟨x, digits, htext, hx, ?_, Nat.le_pred_of_lt hsafe⟩
      exact hhead.symm.imp_right fun hne => ⟨hnil, hne, hall⟩
    · cases h
  · rintro ⟨x, digits, htext, hx, hdigits, hsafe⟩
    unfold isBlockNumberText
    rw [htext]
    apply decide_eq_true
    rw [bigIntOfHex, htext]
    have hlt : ofHexDigits digits < 2 ^ 53 := by omega
    rcases hdigits with rfl | ⟨hnil, hhead, hall⟩
    · exact ⟨hx, by simp, by simp, by decide, Or.inr rfl, hlt⟩
    · obtain ⟨c, digits, rfl⟩ := List.exists_cons_of_ne_nil hnil
      have hc : isHexDigit c = true := List.all_eq_true.mp hall c List.mem_cons_self
      have hlength := length_le_of_safe hc (by simpa using hhead) hsafe
      exact ⟨hx, hnil, Nat.succ_le_succ hlength, hall, Or.inl hhead, hlt⟩

private theorem isBlockParamText_iff {text : String} :
    isBlockParamText text = true ↔ IsBlockNumber text := by
  constructor
  · intro h
    obtain ⟨x, digits, htext, hx, hall, hsafe, hdigits⟩ := exists_of_isBlockParamText h
    rw [bigIntOfHex, htext] at hsafe
    refine ⟨x, digits, htext, hx, hdigits.imp_right fun htake => ?_, Nat.le_pred_of_lt hsafe⟩
    cases digits with
    | nil => exact absurd rfl htake
    | cons c digits =>
      refine ⟨by simp, ?_, List.all_eq_true.mpr hall⟩
      rintro heq
      rw [Option.some.inj heq] at htake
      exact htake rfl
  · rintro ⟨x, digits, htext, hx, hdigits, hsafe⟩
    unfold isBlockParamText
    rw [htext]
    apply decide_eq_true
    rw [bigIntOfHex, htext]
    have hlt : ofHexDigits digits < 2 ^ 53 := by omega
    rcases hdigits with rfl | ⟨hnil, hhead, hall⟩
    · exact ⟨hx, by decide, hlt, Or.inl rfl⟩
    · obtain ⟨c, digits, rfl⟩ := List.exists_cons_of_ne_nil hnil
      have hc : isHexDigit c = true := List.all_eq_true.mp hall c List.mem_cons_self
      have hne : c ≠ '0' := by simpa using hhead
      have hlength := length_le_of_safe hc hne hsafe
      have hdrop := List.length_dropWhile_le (· ≠ '0') digits
      refine ⟨hx, hall, hlt, Or.inr ⟨by simp [hne], ?_⟩⟩
      rw [List.dropWhile_cons_of_pos (by simpa using hne)]
      omega

private theorem test_blockNumber (text : String) :
    TYPES.blockNumber.test (.string text) = .ok (testBlockNumber text) := by
  have hpattern : isBlockNumberText text =
      (blockNumberPattern.rmatch text.toList && isSafeNumber text) := by
    rw [Bool.eq_iff_iff, isBlockNumberText_iff, blockNumberPattern_iff]
  have htext : String.ofList (Json.string text).toText = text := String.ofList_toList
  simp only [TYPES.blockNumber, IType.plain, htext, isOneOf, hpattern, testBlockNumber]

theorem test_blockParams (text : String) :
    TYPES.blockParams.test (.string text) = .ok (testBlockParams text) := by
  have hpattern : isBlockParamText text =
      (blockParamsPattern.rmatch text.toList && isSafeNumber text) := by
    rw [Bool.eq_iff_iff, isBlockParamText_iff, blockParamsPattern_iff]
  have htext : String.ofList (Json.string text).toText = text := String.ofList_toList
  simp only [TYPES.blockParams, TYPES.isBlockParam, htext, isOneOf, hpattern, testBlockParams]

/-- The two types of the validation and the check of the services accept the same texts. -/
theorem one_grammar (text : String) :
    (TYPES.blockNumber.test (.string text) = .ok true ↔ IsBlockNumber text ∨ text ∈ blockTags) ∧
      (TYPES.blockParams.test (.string text) = .ok true ↔ IsBlockNumber text ∨ text ∈ blockTags) ∧
      (isBlockNumValid text = true ↔ IsBlockNumber text) ∧
      (isBlockParamValid (some text) = true ↔ IsBlockNumber text ∨ text ∈ blockTags) := by
  have hvalid : isBlockNumValid text = true ↔ IsBlockNumber text := blockParamsPattern_iff
  refine ⟨?_, ?_, hvalid, ?_⟩
  · rw [test_blockNumber, Except.ok.injEq, testBlockNumber, Bool.or_eq_true,
      blockNumberPattern_iff, decide_eq_true_eq]
  · rw [test_blockParams, Except.ok.injEq, testBlockParams, Bool.or_eq_true,
      blockParamsPattern_iff, decide_eq_true_eq]
  · rw [isBlockParamValid, Bool.or_eq_true, Bool.or_eq_true, hvalid, isBlockTagEarliest,
      isBlockTagFinalized, blockTags]
    simp
    tauto

end Types

end JsonRpcRelay.Validators

import JsonRpcRelay.Blocks.Receipts
import JsonRpcRelay.Framework.DoubleTexts

/-!
# The numbers of a transaction object

The reader of the mirror node's answers delivers a short amount as a double and a long one as a
`BigNumber`.  A negative amount is read again from its text, and a double may be written with
fewer digits than it has.  Of the zeros in front of a signature one is taken away.
-/

namespace JsonRpcRelay.Blocks

open constants Js Mirror Framework

section Delivered

inductive NumberForm where
  | number
  | bigNumber
  deriving DecidableEq

/-- An amount of the mirror node's type `int64`, as it is delivered. -/
structure Amount where
  value : ℤ
  form : NumberForm
  int64 : -2 ^ 63 ≤ value ∧ value < 2 ^ 63
  held : form = .number → Double.Holds value

namespace Amount

/-- `toString`. -/
def text (amount : Amount) : List Char :=
  match amount.form with
  | .number => (Double.integer amount.value).text
  | .bigNumber => integerText amount.value

/-- `Number`, also where an amount is compared: a `BigNumber` goes through its text. -/
def toDouble (amount : Amount) : Double :=
  match amount.form with
  | .number => .integer amount.value
  | .bigNumber => .ofText amount.text

/-- `BigInt` takes a double as it is and everything else by its text. -/
def toBigInt (amount : Amount) : Option ℤ :=
  match amount.form with
  | .number => some amount.value
  | .bigNumber => readSigned amount.text

end Amount

/-- What `tinybarsToWeibars` leads to: a negative amount is left as it was delivered. -/
inductive Weibars where
  | delivered (amount : Amount)
  | bigInt (n : ℤ)

namespace Weibars

def syntaxError (text : List Char) : RelayError :=
  .error ("Cannot convert " ++ String.ofList text ++ " to a BigInt")

def tinybarsToWeibars (value : Option Amount) (allowNegativeValues : Bool := false) :
    Except RelayError (Option Weibars) :=
  match value with
  | none => .ok none
  | some amount =>
      if amount.toDouble.lt (.integer 0) then
        if allowNegativeValues then .ok (some (.delivered amount))
        else .error (.error "Invalid value - cannot pass negative number")
      else if (Double.integer TOTAL_SUPPLY_TINYBARS).lt amount.toDouble then
        .error (.error
          "Value cannot be more than the total supply of tinybars in the blockchain")
      else
        match amount.toBigInt with
        | some n => .ok (some (.bigInt (n * TINYBAR_TO_WEIBAR_COEF)))
        | none => .error (syntaxError amount.text)

def toDouble : Weibars → Double
  | .delivered amount => amount.toDouble
  | .bigInt n => .ofInt n

def text : Weibars → List Char
  | .delivered amount => amount.text
  | .bigInt n => integerText n

/-- `numberTo0x`: hexadecimal digits are exact in every form. -/
def hex : Weibars → String
  | .delivered amount => numberTo0x amount.value
  | .bigInt n => numberTo0x n

/-- A negative number is read from its text and written as its two's complement of 64 bits. -/
def nanOrNumberInt64To0x (input : Option Weibars) : Except RelayError String :=
  match input with
  | none => .ok (nanOrNumberTo0x none)
  | some weibars =>
      if weibars.toDouble.lt (.integer 0) then
        match readSigned weibars.text with
        | some n => .ok (numberTo0x ((n + 2 ^ 64).tmod (2 ^ 64)))
        | none => .error (syntaxError weibars.text)
      else .ok weibars.hex

end Weibars

/-- A contract result together with the form in which its amount was delivered. -/
structure DeliveredResult where
  record : MirrorNodeContractResult
  amount : Option Amount
  amount_eq : record.amount = amount.map (·.value)

/-- The amount is used for the value of the transaction and for nothing else. -/
def DeliveredResult.createTransactionFromContractResult (cr : DeliveredResult) :
    Except RelayError (Option Transaction) := do
  let value ← Weibars.nanOrNumberInt64To0x (← Weibars.tinybarsToWeibars cr.amount true)
  let transaction ← Blocks.createTransactionFromContractResult { cr.record with amount := none }
  return transaction.map fun t => { t with value }

end Delivered

section Quantities

/-- The text is the number in hexadecimal, without a zero in front. -/
structure IsQuantityOf (text : String) (n : ℕ) : Prop where
  digits : ∃ c digits, text.toList = '0' :: 'x' :: c :: digits ∧
    (c :: digits).all isHexDigit = true ∧ (c = '0' → digits = [])
  value : bigIntOfHex text = n

private theorem isQuantityOf_iff {text : String} {c : Char} {digits : List Char} {n : ℕ}
    (htext : text.toList = '0' :: 'x' :: c :: digits) (hhex : (c :: digits).all isHexDigit = true) :
    IsQuantityOf text n ↔ (c = '0' → digits = []) ∧ ofHexDigits (c :: digits) = n := by
  have hvalue : bigIntOfHex text = ofHexDigits (c :: digits) := by
    rw [bigIntOfHex, htext]
    rfl
  constructor
  · intro h
    obtain ⟨d, ds, hd, -, hzero⟩ := h.digits
    rw [htext] at hd
    simp only [List.cons.injEq, true_and] at hd
    obtain ⟨rfl, rfl⟩ := hd
    exact ⟨hzero, hvalue ▸ h.value⟩
  · intro h
    exact ⟨⟨c, digits, htext, hhex, h.1⟩, hvalue.trans h.2⟩

private theorem head?_toDigits_ne_zero {n : ℕ} (h : 0 < n) :
    (Nat.toDigits 16 n).head? ≠ some '0' := by
  induction n using Nat.strongRecOn with
  | ind n ih =>
    by_cases hlt : n < 16
    · rw [Nat.toDigits_of_lt_base hlt, List.head?_cons, ne_eq, Option.some.injEq]
      intro hzero
      have hdigit := hexDigit?_digitChar hlt
      rw [hzero] at hdigit
      have hn : 0 = n := Option.some.inj hdigit
      omega
    · rw [Nat.toDigits_of_base_le (by decide) (by omega), List.head?_append_of_ne_nil]
      · exact ih (n / 16) (by omega) (by omega)
      · exact Nat.toDigits_ne_nil

private theorem isQuantityOf_numberTo0x (n : ℕ) : IsQuantityOf (numberTo0x n) n := by
  refine ⟨?_, bigIntOfHex_numberTo0x n⟩
  cases hdigits : Nat.toDigits 16 n with
  | nil => exact absurd hdigits Nat.toDigits_ne_nil
  | cons c digits =>
    have hhex : (c :: digits).all isHexDigit = true := by
      rw [← hdigits]
      exact List.all_eq_true.mpr (isHexDigit_toDigits n)
    refine ⟨c, digits, by rw [toList_numberTo0x, hdigits], hhex, fun hc => ?_⟩
    · subst hc
      by_cases hn : 0 < n
      · exact absurd (congrArg List.head? hdigits) (head?_toDigits_ne_zero hn)
      · rw [show n = 0 by omega, Nat.toDigits_zero] at hdigits
        exact (List.cons.inj hdigits).2.symm

/-- 32 bytes in hexadecimal, and perhaps more behind them. -/
structure SignatureWord where
  digits : List Char
  rest : List Char
  length_digits : digits.length = 64
  isHex : digits.all isHexDigit = true

namespace SignatureWord

variable (word : SignatureWord)

def text : String := String.ofList ('0' :: 'x' :: (word.digits ++ word.rest))

def value : ℕ := ofHexDigits word.digits

/-- The first byte is not zero. -/
def FirstByteNonzero : Prop := word.digits.take 2 ≠ ['0', '0']

private theorem strip_text : (stripLeadingZeroForSignatures (substring word.text 0 66)).toList =
    '0' :: 'x' :: if word.digits.head? = some '0' then word.digits.drop 1 else word.digits := by
  have hcut : (substring word.text 0 66).toList = '0' :: 'x' :: word.digits := by
    rw [substring, text]
    simp [word.length_digits]
  have hpre : startsWith (substring word.text 0 66) "0x" = true := by
    rw [startsWith, hcut]
    rfl
  have hstripped : (substringFrom (substring word.text 0 66) 2).toList = word.digits := by
    rw [substringFrom, hcut]
    simp
  have hzero : startsWith (substringFrom (substring word.text 0 66) 2) "0" =
      decide (word.digits.head? = some '0') := by
    rw [startsWith, hstripped]
    cases hd : word.digits with
    | nil => rfl
    | cons c digits =>
      by_cases hc : c = '0'
      · simp [List.isPrefixOf, hc]
      · simp [List.isPrefixOf, hc, Ne.symm hc]
  rw [stripLeadingZeroForSignatures, if_pos hpre, hzero]
  by_cases h : word.digits.head? = some '0'
  · rw [decide_eq_true h, if_pos rfl, if_pos h, substringFrom, hstripped, String.toList_append,
      String.toList_ofList, String.toList_ofList]
    rfl
  · rw [decide_eq_false h, if_neg Bool.false_ne_true, if_neg h, String.toList_append, hstripped]
    rfl

/-- Exactly one zero is taken away. -/
theorem isQuantityOf_strip_iff :
    IsQuantityOf (stripLeadingZeroForSignatures (substring word.text 0 66)) word.value ↔
      word.FirstByteNonzero := by
  have htext := word.strip_text
  have hlength := word.length_digits
  have hhex := word.isHex
  rw [FirstByteNonzero, value]
  match hd : word.digits with
  | [] | [_] | [_, _] => simp [hd] at hlength
  | a :: b :: c :: digits =>
    rw [hd] at htext hhex
    by_cases ha : a = '0'
    · subst ha
      simp only [List.head?_cons, if_true, List.drop_one, List.tail_cons] at htext
      have htail : (b :: c :: digits).all isHexDigit = true := (Bool.and_eq_true_iff.mp hhex).2
      rw [isQuantityOf_iff htext htail]
      have hvalue : ofHexDigits ('0' :: b :: c :: digits) = ofHexDigits (b :: c :: digits) := rfl
      simp [hvalue]
    · simp only [List.head?_cons, Option.some.injEq, ha, if_false] at htext
      rw [isQuantityOf_iff htext hhex]
      simp [ha]

end SignatureWord

end Quantities

section Amounts

namespace Amount

variable (amount : Amount)

/-- The digits of a double are all its digits. -/
def ExactText : Prop :=
  amount.form = .number → writtenNat amount.value.natAbs = amount.value.natAbs

def writtenAbs : ℕ :=
  match amount.form with
  | .number => writtenNat amount.value.natAbs
  | .bigNumber => amount.value.natAbs

private theorem exactText_iff : amount.ExactText ↔ amount.writtenAbs = amount.value.natAbs := by
  cases hform : amount.form with
  | number => simp [ExactText, writtenAbs, hform]
  | bigNumber => simp [ExactText, writtenAbs, hform]

private theorem toBigInt_eq : amount.toBigInt = some amount.value := by
  cases hform : amount.form with
  | number => simp [toBigInt, hform]
  | bigNumber => simp [toBigInt, text, hform, readSigned_integerText]

private theorem toDouble_eq : amount.toDouble = .ofInt amount.value := by
  cases hform : amount.form with
  | number => simp [toDouble, hform, Double.ofInt_eq_integer_iff.mpr (amount.held hform)]
  | bigNumber => simp [toDouble, text, hform, Double.ofText_integerText]

private theorem roundNat_writtenAbs (hform : amount.form = .number) :
    roundNat amount.writtenAbs = amount.value.natAbs := by
  rw [writtenAbs, hform]
  exact roundNat_writtenNat (amount.held hform).1

private theorem writtenAbs_bounds (hneg : amount.value < 0) :
    0 < amount.writtenAbs ∧ amount.writtenAbs < 2 ^ 64 := by
  have hbound := amount.int64
  cases hform : amount.form with
  | number =>
    have hround := amount.roundNat_writtenAbs hform
    constructor
    · apply Nat.pos_of_ne_zero
      intro hzero
      rw [hzero, show roundNat 0 = 0 from rfl] at hround
      omega
    · exact lt_of_roundNat_lt ⟨1, 64, by decide, by decide⟩ (by omega)
  | bigNumber =>
    simp only [writtenAbs, hform]
    omega

private theorem readSigned_text (hneg : amount.value < 0) :
    readSigned amount.text = some (-(amount.writtenAbs : ℤ)) := by
  obtain ⟨hpos, hlt⟩ := amount.writtenAbs_bounds hneg
  cases hform : amount.form with
  | number =>
    simp only [writtenAbs, hform] at hpos hlt ⊢
    have hdigits := readDigits_wholeText (by omega) hlt hpos
    simp [text, hform, Double.text, hneg, readSigned, hdigits]
  | bigNumber =>
    have habs : -(amount.value.natAbs : ℤ) = amount.value := by omega
    simp only [writtenAbs, text, hform, readSigned_integerText, habs]

private theorem exactText_of_lt (hlt : amount.value.natAbs < 2 ^ 53) : amount.ExactText := by
  intro hform
  have hround := amount.roundNat_writtenAbs hform
  simp only [writtenAbs, hform] at hround
  have hsmall : writtenNat amount.value.natAbs < 2 ^ 53 :=
    lt_of_roundNat_lt ⟨1, 53, by decide, by decide⟩ (by omega)
  exact (roundNat_of_lt hsmall).symm.trans hround

end Amount

private theorem Amount.toDouble_lt_zero (amount : Amount) :
    amount.toDouble.lt (.integer 0) = decide (amount.value < 0) := by
  rw [amount.toDouble_eq]
  by_cases hneg : amount.value < 0
  · have hle : (Double.ofInt amount.value).le (.integer (-1)) = true :=
      Double.ofInt_le (Double.holds_of_lt (by decide)) (by omega)
    cases hd : Double.ofInt amount.value with
    | integer n =>
      simp only [hd, Double.le, decide_eq_true_eq] at hle
      simp only [Double.lt, hneg, decide_true, decide_eq_true_eq]
      omega
    | infinity negative => simpa [hd, Double.le, Double.lt, hneg] using hle
    | nan => simp [hd, Double.le] at hle
  · rw [decide_eq_false hneg]
    exact Double.lt_eq_false_of_le (Double.le_ofInt (Double.holds_of_lt (by decide)) (by omega))

/-- The number that the value of a transaction should be. -/
def quantityOfAmount : Option ℤ → ℕ
  | none => 0
  | some a => if 0 ≤ a then a.toNat * 10 ^ 10 else (2 ^ 64 + a).toNat

def writtenQuantity : Option Amount → ℕ
  | none => 0
  | some amount =>
      if amount.value < 0 then 2 ^ 64 - amount.writtenAbs else amount.value.toNat * 10 ^ 10

private theorem writtenQuantity_eq_iff {amount : Option Amount} :
    writtenQuantity amount = quantityOfAmount (amount.map (·.value)) ↔
      ∀ a, amount = some a → a.value < 0 → a.ExactText := by
  cases amount with
  | none => simp [writtenQuantity, quantityOfAmount]
  | some a =>
    simp only [writtenQuantity, quantityOfAmount, Option.map_some, Option.some.injEq,
      forall_eq']
    by_cases hneg : a.value < 0
    · have hbound := a.int64
      obtain ⟨hpos, hlt⟩ := a.writtenAbs_bounds hneg
      rw [if_pos hneg, if_neg (by omega), a.exactText_iff]
      omega
    · rw [if_neg hneg, if_pos (by omega)]
      simp [hneg]

private theorem value_of_delivered {amount : Option Amount}
    (hsupply : ∀ a, amount = some a → a.value ≤ TOTAL_SUPPLY_TINYBARS) :
    ∃ weibars, Weibars.tinybarsToWeibars amount true = .ok weibars ∧
      Weibars.nanOrNumberInt64To0x weibars = .ok (numberTo0x (writtenQuantity amount)) := by
  cases amount with
  | none => exact ⟨none, rfl, rfl⟩
  | some a =>
    have hzero := a.toDouble_lt_zero
    by_cases hneg : a.value < 0
    · rw [decide_eq_true hneg] at hzero
      refine ⟨some (.delivered a), by simp [Weibars.tinybarsToWeibars, hzero], ?_⟩
      obtain ⟨hpos, hlt⟩ := a.writtenAbs_bounds hneg
      have hmod : (-(a.writtenAbs : ℤ) + 2 ^ 64).tmod (2 ^ 64) =
          ((2 ^ 64 - a.writtenAbs : ℕ) : ℤ) := by
        rw [Int.tmod_eq_of_lt (by omega) (by omega)]
        omega
      simp only [Weibars.nanOrNumberInt64To0x, Weibars.toDouble, hzero, if_true, Weibars.text,
        a.readSigned_text hneg, hmod, writtenQuantity, hneg]
    · rw [decide_eq_false hneg] at hzero
      have hvalue := hsupply a rfl
      have hlarge : (Double.integer TOTAL_SUPPLY_TINYBARS).lt a.toDouble = false := by
        rw [a.toDouble_eq]
        exact Double.lt_eq_false_of_le (Double.ofInt_le
          ⟨⟨5 ^ 19, 18, by decide, by decide⟩, by decide⟩ hvalue)
      refine ⟨some (.bigInt (a.value * TINYBAR_TO_WEIBAR_COEF)), ?_, ?_⟩
      · simp [Weibars.tinybarsToWeibars, hzero, hlarge, a.toBigInt_eq]
      · have hproduct : a.value * TINYBAR_TO_WEIBAR_COEF =
            ((a.value.toNat * 10 ^ 10 : ℕ) : ℤ) := by
          rw [TINYBAR_TO_WEIBAR_COEF]
          omega
        have hnonneg : (Double.ofInt ((a.value.toNat * 10 ^ 10 : ℕ) : ℤ)).lt (.integer 0) = false :=
          Double.lt_eq_false_of_le (Double.le_ofInt (Double.holds_of_lt (by decide)) (by omega))
        simp only [Weibars.nanOrNumberInt64To0x, Weibars.toDouble, hproduct, hnonneg,
          Bool.false_eq_true, if_false, Weibars.hex, writtenQuantity, hneg]

end Amounts

section Objects

/-- The signature and the value of the object are canonical, if there is an object. -/
def CanonicalNumbers (cr : DeliveredResult) (r s : SignatureWord) : Prop :=
  ∃ object, cr.createTransactionFromContractResult = .ok object ∧
    ∀ transaction, object = some transaction →
      IsQuantityOf transaction.r r.value ∧ IsQuantityOf transaction.s s.value ∧
        IsQuantityOf transaction.value (quantityOfAmount cr.record.amount)

private theorem signature_of_createTransactionByType {type : Option ℕ}
    {fields transaction : Transaction}
    {a b : Option String} (h : createTransactionByType type fields a b = some transaction) :
    transaction.r = fields.r ∧ transaction.s = fields.s := by
  unfold createTransactionByType at h
  split at h
  all_goals
    cases h
    try exact ⟨rfl, rfl⟩

private theorem DeliveredResult.value_le (cr : DeliveredResult)
    (hsupply : ∀ a, cr.record.amount = some a → a ≤ TOTAL_SUPPLY_TINYBARS) :
    ∀ a, cr.amount = some a → a.value ≤ TOTAL_SUPPLY_TINYBARS := by
  intro a ha
  apply hsupply
  rw [cr.amount_eq, ha, Option.map_some]

private theorem createTransaction_of_noAmount {record : MirrorNodeContractResult}
    {r s : SignatureWord}
    (hamount : record.amount = none) (hr : record.r = some r.text) (hs : record.s = some s.text) :
    ∃ object, Blocks.createTransactionFromContractResult record = .ok object ∧
      (object.isSome ↔ ∀ type, record.type = some type → type ≤ 2) ∧
      ∀ transaction, object = some transaction →
        transaction.r = stripLeadingZeroForSignatures (substring r.text 0 66) ∧
        transaction.s = stripLeadingZeroForSignatures (substring s.text 0 66) := by
  simp only [Blocks.createTransactionFromContractResult, hamount, hr, hs, tinybarsToWeibars, bind,
    Except.bind, pure, Except.pure, Except.ok.injEq, exists_eq_left']
  constructor
  · exact createTransactionByType_isSome
  · intro transaction h
    exact signature_of_createTransactionByType h

private theorem createTransaction_of_delivered (cr : DeliveredResult) {r s : SignatureWord}
    (hr : cr.record.r = some r.text) (hs : cr.record.s = some s.text)
    (hsupply : ∀ a, cr.record.amount = some a → a ≤ TOTAL_SUPPLY_TINYBARS) :
    ∃ object, cr.createTransactionFromContractResult = .ok object ∧
      (object.isSome ↔ ∀ type, cr.record.type = some type → type ≤ 2) ∧
      ∀ transaction, object = some transaction →
        transaction.r = stripLeadingZeroForSignatures (substring r.text 0 66) ∧
        transaction.s = stripLeadingZeroForSignatures (substring s.text 0 66) ∧
        transaction.value = numberTo0x (writtenQuantity cr.amount) := by
  obtain ⟨weibars, hweibars, hvalue⟩ := value_of_delivered (cr.value_le hsupply)
  have hrecord : ({ cr.record with amount := none } : MirrorNodeContractResult).amount = none := rfl
  obtain ⟨object, hobject, hsome, hsignature⟩ := createTransaction_of_noAmount hrecord hr hs
  refine ⟨object.map fun t => { t with value := numberTo0x (writtenQuantity cr.amount) },
    ?_, by simpa using hsome, ?_⟩
  · simp only [DeliveredResult.createTransactionFromContractResult, hweibars, hvalue, hobject, bind,
      Except.bind, pure, Except.pure]
  · intro transaction h
    obtain ⟨t, ht, rfl⟩ := Option.map_eq_some_iff.mp h
    obtain ⟨htr, hts⟩ := hsignature t ht
    exact ⟨htr, hts, rfl⟩

/-- The numbers of an object are canonical exactly when the signature does not begin with a zero
byte and no digits of a negative amount were lost. -/
theorem canonicalNumbers_iff (cr : DeliveredResult) (r s : SignatureWord)
    (hr : cr.record.r = some r.text) (hs : cr.record.s = some s.text)
    (hsupply : ∀ a, cr.record.amount = some a → a ≤ TOTAL_SUPPLY_TINYBARS) :
    CanonicalNumbers cr r s ↔ ((∀ type, cr.record.type = some type → type ≤ 2) →
      r.FirstByteNonzero ∧ s.FirstByteNonzero ∧
        ∀ a, cr.amount = some a → a.value < 0 → a.ExactText) := by
  obtain ⟨object, hobject, hsome, hfields⟩ := createTransaction_of_delivered cr hr hs hsupply
  have hvalue (n : ℕ) : IsQuantityOf (numberTo0x n) (quantityOfAmount cr.record.amount) ↔
      n = quantityOfAmount cr.record.amount := by
    constructor
    · intro h
      exact (bigIntOfHex_numberTo0x n).symm.trans h.value
    · intro h
      exact h ▸ isQuantityOf_numberTo0x n
  rw [← hsome, CanonicalNumbers, hobject, ← r.isQuantityOf_strip_iff, ← s.isQuantityOf_strip_iff,
    ← writtenQuantity_eq_iff, ← cr.amount_eq, ← hvalue]
  cases object with
  | none => simp
  | some transaction =>
    obtain ⟨htr, hts, htvalue⟩ := hfields transaction rfl
    simp [htr, hts, htvalue]

private theorem createTransactionByType_value (type : Option ℕ) (fields : Transaction)
    (value : String) (a b : Option String) :
    (createTransactionByType type fields a b).map (fun t => { t with value }) =
      createTransactionByType type { fields with value } a b := by
  match type with
  | none | some 0 | some 1 | some 2 => rfl
  | some (_ + 3) => rfl

private theorem exact_value {amount : Option ℤ} {weibars : Option ℤ}
    (h : tinybarsToWeibars amount true = .ok weibars)
    (hint64 : ∀ a, amount = some a → -2 ^ 63 ≤ a) :
    nanOrNumberInt64To0x weibars = numberTo0x (quantityOfAmount amount) := by
  cases amount with
  | none =>
    cases h
    rfl
  | some a =>
    have hbound := hint64 a rfl
    by_cases hneg : a < 0
    · simp only [tinybarsToWeibars, hneg, if_true, Except.ok.injEq] at h
      subst h
      have hmod : (a + 2 ^ 64).tmod (2 ^ 64) = (((2 ^ 64 + a).toNat : ℕ) : ℤ) := by
        rw [Int.tmod_eq_of_lt (by omega) (by omega)]
        omega
      have hnonneg : ¬0 ≤ a := by omega
      simp only [nanOrNumberInt64To0x, hneg, if_true, hmod, quantityOfAmount, hnonneg, if_false]
    · by_cases hlarge : a > TOTAL_SUPPLY_TINYBARS
      · simp [tinybarsToWeibars, hneg, hlarge] at h
      · simp only [tinybarsToWeibars, hneg, hlarge, if_false, Except.ok.injEq] at h
        subst h
        have hnonneg : 0 ≤ a := by omega
        have hproduct : a * TINYBAR_TO_WEIBAR_COEF = ((a.toNat * 10 ^ 10 : ℕ) : ℤ) := by
          rw [TINYBAR_TO_WEIBAR_COEF]
          omega
        have hpos : ¬((a.toNat * 10 ^ 10 : ℕ) : ℤ) < 0 := by omega
        simp only [hproduct, nanOrNumberInt64To0x, hpos, if_false, nanOrNumberTo0x,
          Option.getD_some, quantityOfAmount, hnonneg, if_true]

/-- Where no digits are lost, the form of the amount does not matter. -/
theorem createTransaction_eq_of_exactText (cr : DeliveredResult)
    (hsupply : ∀ a, cr.record.amount = some a → a ≤ TOTAL_SUPPLY_TINYBARS)
    (hexact : ∀ a, cr.amount = some a → a.value < 0 → a.ExactText) :
    cr.createTransactionFromContractResult =
      Blocks.createTransactionFromContractResult cr.record := by
  have hint64 : ∀ a, cr.record.amount = some a → -2 ^ 63 ≤ a := by
    intro a ha
    rw [cr.amount_eq] at ha
    obtain ⟨amount, -, rfl⟩ := Option.map_eq_some_iff.mp ha
    exact amount.int64.1
  obtain ⟨weibars, hweibars, hvalue⟩ := value_of_delivered (cr.value_le hsupply)
  obtain ⟨value, hok⟩ := tinybarsToWeibars_isOk.mpr hsupply
  have hnone : tinybarsToWeibars none true = .ok none := rfl
  rw [writtenQuantity_eq_iff.mpr hexact, ← cr.amount_eq] at hvalue
  simp only [DeliveredResult.createTransactionFromContractResult, hweibars, hvalue,
    Blocks.createTransactionFromContractResult, hok, exact_value hok hint64, hnone, bind,
    Except.bind, pure, Except.pure, createTransactionByType_value]

end Objects

section Examples

/-- A word that begins with the digits `0` and `digit`. -/
def exampleWord (digit : Char) (h : isHexDigit digit = true) : SignatureWord where
  digits := '0' :: digit :: List.replicate 62 '1'
  rest := []
  length_digits := rfl
  isHex := by simp [h, show isHexDigit '0' = true by decide, show isHexDigit '1' = true by decide]

def exampleAmount : Amount where
  value := -5
  form := .number
  int64 := by decide
  held := fun _ => Double.holds_of_lt (by decide)

def exampleDelivered (r s : SignatureWord) : DeliveredResult where
  record := { exampleResult with amount := some (-5), r := some r.text, s := some s.text }
  amount := some exampleAmount
  amount_eq := rfl

private theorem exampleDelivered_supply (r s : SignatureWord) :
    ∀ a, (exampleDelivered r s).record.amount = some a → a ≤ TOTAL_SUPPLY_TINYBARS := by
  intro a ha
  cases ha
  decide

theorem canonicalNumbers_of_refund :
    CanonicalNumbers (exampleDelivered (exampleWord 'a' rfl) (exampleWord 'b' rfl))
      (exampleWord 'a' rfl) (exampleWord 'b' rfl) := by
  refine (canonicalNumbers_iff _ _ _ rfl rfl
    (exampleDelivered_supply _ _)).mpr fun _ => ⟨?_, ?_, ?_⟩
  · simp [SignatureWord.FirstByteNonzero, exampleWord]
  · simp [SignatureWord.FirstByteNonzero, exampleWord]
  · rintro a ⟨⟩ -
    exact exampleAmount.exactText_of_lt (by decide)

/-- Of the two zeros in front of the signature the second remains. -/
theorem second_zero_remains :
    ¬CanonicalNumbers (exampleDelivered (exampleWord '0' rfl) (exampleWord 'b' rfl))
      (exampleWord '0' rfl) (exampleWord 'b' rfl) := by
  rintro ⟨object, hobject, hcanonical⟩
  obtain ⟨object', hobject', hsome, hfields⟩ :=
    createTransaction_of_delivered _ (r := exampleWord '0' rfl) (s := exampleWord 'b' rfl) rfl rfl
      (exampleDelivered_supply _ _)
  rw [hobject, Except.ok.injEq] at hobject'
  subst hobject'
  obtain ⟨transaction, rfl⟩ := Option.isSome_iff_exists.mp (hsome.mpr (by
    rintro type ⟨⟩
    decide))
  have hquantity := (hcanonical transaction rfl).1
  rw [(hfields transaction rfl).1, SignatureWord.isQuantityOf_strip_iff] at hquantity
  exact hquantity (by simp [exampleWord])

end Examples

end JsonRpcRelay.Blocks

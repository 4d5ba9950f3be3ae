import JsonRpcRelay.Constants
import JsonRpcRelay.Errors
import JsonRpcRelay.JavaScript

/-!
# Formatters

How the relay writes the numbers, hashes and messages of the mirror node.
-/

namespace JsonRpcRelay

open constants Js

def hexToASCII (str : String) : String :=
  String.ofList (codes str.toList)
where
  /-- Two digits at a time. -/
  codes : List Char → List Char
    | [] => []
    | [a] => [fromCharCode (parseInt16 (String.ofList [a]))]
    | a :: b :: hex => fromCharCode (parseInt16 (String.ofList [a, b])) :: codes hex

def ASCIIToHex (ascii : String) : String :=
  String.join (ascii.toList.map fun c => toString16 c.toNat)

def strip0x (input : String) : String :=
  if startsWith input EMPTY_HEX then substringFrom input 2 else input

def prepend0x (input : String) : String :=
  if startsWith input EMPTY_HEX then input else EMPTY_HEX ++ input

def trimPrecedingZeros (input : String) : Option String :=
  let hex := if startsWith input EMPTY_HEX then substringFrom input 2 else input
  if hex.toList = [] ∨ ¬hex.toList.all isHexDigit then none
  else
    let trimmed := hex.toList.dropWhile (· = '0')
    some (if trimmed = [] then "0" else String.ofList trimmed)

def stripLeadingZeroForSignatures (signature : String) : String :=
  let stripped := if startsWith signature "0x" then substringFrom signature 2 else signature
  "0x" ++ if startsWith stripped "0" then substringFrom stripped 1 else stripped

def numberTo0x (input : ℤ) : String := EMPTY_HEX ++ toString16 input

def nullableNumberTo0x (input : Option ℤ) : Option String := input.map numberTo0x

def nanOrNumberTo0x (input : Option ℤ) : String := numberTo0x (input.getD 0)

/-- A negative number is written as its two's complement of 64 bits. -/
def nanOrNumberInt64To0x (input : Option ℤ) : String :=
  match input with
  | some n => if n < 0 then numberTo0x ((n + 2 ^ 64).tmod (2 ^ 64)) else nanOrNumberTo0x (some n)
  | none => nanOrNumberTo0x none

def toHash32 (value : String) : String := substring value 0 66

/-- `/^0x[0-9a-fA-F]+$/`. -/
def isHex (value : String) : Bool :=
  match value.toList with
  | '0' :: 'x' :: digits => digits ≠ [] ∧ digits.all isHexDigit
  | _ => false

/-- `BigInt` of a string of hexadecimal digits behind `0x`. -/
def bigIntOfHex (value : String) : ℕ := ofHexDigits (value.toList.drop 2)

/-- `BASE_HEX_REGEX` with a quantifier for the digits. -/
def isBaseHex (quantifier : ℕ → Bool) (text : List Char) : Bool :=
  match text with
  | '0' :: x :: digits => (x = 'x' ∨ x = 'X') ∧ digits.all isHexDigit ∧ quantifier digits.length
  | _ => false

def isValidEthereumAddress (address : String) : Bool := isBaseHex (· = 40) address.toList

/-- A text without the prefix is its own message.  The length may be negative, and an end that is
`NaN` counts as zero. -/
def decodeErrorMessage (message : String) : String :=
  if ¬(['0', 'x'] <:+: message.toList) then message
  else
    let hex := units (strip0x message).toList
    let strLen := parseInt16 (String.ofList (slice hex 72 136))
    let resultCodeHex := slice hex 136 ((strLen.map fun n => 136 + n * 2).getD 0)
    hexToASCII (String.ofList resultCodeHex)

/-- A value of at least one weibar is at least one tinybar.  `BigInt` refuses a prefix without
digits. -/
def weibarHexToTinyBarInt (value : String) : Except RelayError ℕ :=
  if value = EMPTY_HEX then .ok 0
  else if value.toList.drop 2 = [] then
    .error (.error ("Cannot convert " ++ value ++ " to a BigInt"))
  else
    let weiBigInt := bigIntOfHex value
    let tinybarValue := weiBigInt / TINYBAR_TO_WEIBAR_COEF
    .ok (if tinybarValue = 0 ∧ weiBigInt > 0 then 1 else tinybarValue)

def tinybarsToWeibars (value : Option ℤ) (allowNegativeValues : Bool := false) :
    Except RelayError (Option ℤ) :=
  match value with
  | none => .ok none
  | some amount =>
      if amount < 0 then
        if allowNegativeValues then .ok (some amount)
        else .error (.error "Invalid value - cannot pass negative number")
      else if amount > TOTAL_SUPPLY_TINYBARS then
        .error (.error
          "Value cannot be more than the total supply of tinybars in the blockchain")
      else .ok (some (amount * TINYBAR_TO_WEIBAR_COEF))

theorem length_toHash32_le (value : String) : (toHash32 value).length ≤ 66 :=
  length_substring_le value 66

@[simp] theorem toHash32_eq_self_iff {value : String} :
    toHash32 value = value ↔ value.length ≤ 66 :=
  substring_eq_self_iff

theorem toList_numberTo0x (n : ℕ) :
    (numberTo0x n).toList = '0' :: 'x' :: Nat.toDigits 16 n := by
  rw [numberTo0x, toString16_natCast, String.toList_append, String.toList_ofList]
  rfl

/-- Numbers written in hexadecimal are read back. -/
@[simp] theorem bigIntOfHex_numberTo0x (n : ℕ) : bigIntOfHex (numberTo0x n) = n := by
  rw [bigIntOfHex, toList_numberTo0x]
  exact ofHexDigits_toDigits n

private theorem minus_notMem_toDigits (n : ℕ) : '-' ∉ Nat.toDigits 16 n := by
  intro hmem
  exact absurd (isHexDigit_toDigits n '-' hmem) (by decide)

/-- The digits behind the sign tell the number. -/
theorem numberTo0x_injective : Function.Injective numberTo0x := by
  have htext (n : ℤ) : (numberTo0x n).toList =
      '0' :: 'x' :: if n < 0 then '-' :: Nat.toDigits 16 n.natAbs
        else Nat.toDigits 16 n.natAbs := by
    rw [numberTo0x, toString16]
    split
    · simp only [String.toList_append, String.toList_ofList]
      rfl
    · simp only [String.toList_append, String.toList_ofList]
      rfl
  intro m n h
  have hlist := congrArg String.toList h
  rw [htext, htext, List.cons_inj_right, List.cons_inj_right] at hlist
  have hdigits {k l : ℕ} (hkl : Nat.toDigits 16 k = Nat.toDigits 16 l) : k = l := by
    rw [← ofHexDigits_toDigits k, hkl, ofHexDigits_toDigits]
  by_cases hm : m < 0
  · by_cases hn : n < 0
    · rw [if_pos hm, if_pos hn, List.cons_inj_right] at hlist
      have habs := hdigits hlist
      omega
    · rw [if_pos hm, if_neg hn] at hlist
      exact absurd (hlist ▸ List.mem_cons_self) (minus_notMem_toDigits n.natAbs)
  · by_cases hn : n < 0
    · rw [if_neg hm, if_pos hn] at hlist
      exact absurd (hlist ▸ List.mem_cons_self) (minus_notMem_toDigits m.natAbs)
    · rw [if_neg hm, if_neg hn] at hlist
      have habs := hdigits hlist
      omega

theorem numberTo0x_inj {m n : ℕ} (h : numberTo0x m = numberTo0x n) : m = n :=
  Int.ofNat.inj (numberTo0x_injective h)

end JsonRpcRelay

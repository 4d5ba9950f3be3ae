import Mathlib.Algebra.Group.Nat.Defs
import Mathlib.Algebra.Ring.Int.Defs
import Mathlib.Data.List.Infix
import Mathlib.Data.Nat.Notation
import Mathlib.Data.String.Basic

/-!
# Strings and numbers of the language

The functions of the standard library that the source calls on strings and numbers.  A string
is taken as the list of its characters, and `NaN` is `none`.
-/

namespace JsonRpcRelay.Js

section Strings

/-- `s.substring(start, stop)` for `start ≤ stop`. -/
def substring (s : String) (start stop : ℕ) : String :=
  String.ofList ((s.toList.take stop).drop start)

/-- `s.substring(start)`. -/
def substringFrom (s : String) (start : ℕ) : String := String.ofList (s.toList.drop start)

def startsWith (s searchString : String) : Bool := searchString.toList.isPrefixOf s.toList

/-- The code units of a text.  The halves of a pair are neither digits nor signs nor blanks, and no
other question is asked about them. -/
def units (text : List Char) : List Char :=
  text.flatMap fun c => if c.toNat < 2 ^ 16 then [c] else [Char.ofNat 0xFFFD, Char.ofNat 0xFFFD]

theorem units_eq_self {text : List Char} (h : ∀ c ∈ text, c.toNat < 2 ^ 16) : units text = text := by
  induction text with
  | nil => rfl
  | cons c text ih =>
    obtain ⟨hc, htext⟩ := List.forall_mem_cons.mp h
    rw [units, List.flatMap_cons, if_pos hc]
    exact congrArg (List.cons c) (ih htext)

theorem length_units_le (text : List Char) : (units text).length ≤ 2 * text.length := by
  induction text with
  | nil => simp [units]
  | cons c text ih =>
    rw [units, List.flatMap_cons, List.length_append, List.length_cons]
    have hrest : (text.flatMap fun c =>
        if c.toNat < 2 ^ 16 then [c] else [Char.ofNat 0xFFFD, Char.ofNat 0xFFFD]).length ≤
          2 * text.length := ih
    split_ifs
    · rw [List.length_singleton]
      omega
    · rw [List.length_cons, List.length_singleton]
      omega

private theorem substring_of_length_le {s : String} {n : ℕ} (h : s.length ≤ n) :
    substring s 0 n = s := by
  rw [substring, List.drop_zero, List.take_of_length_le (by rwa [String.length_toList])]
  exact String.ofList_toList

theorem length_substring_le (s : String) (n : ℕ) : (substring s 0 n).length ≤ n := by
  simp [substring]

theorem substring_eq_self_iff {s : String} {n : ℕ} : substring s 0 n = s ↔ s.length ≤ n := by
  constructor
  · intro h
    rw [← h]
    exact length_substring_le s n
  · exact substring_of_length_le

/-- The upper case of a character, unless it has letters outside ASCII, when the character is
left as it is. -/
def upperCase (c : Char) : List Char :=
  match c with
  | 'ı' => ['I']
  | 'ſ' => ['S']
  | 'ß' => ['S', 'S']
  | 'ﬀ' => ['F', 'F']
  | 'ﬁ' => ['F', 'I']
  | 'ﬂ' => ['F', 'L']
  | 'ﬃ' => ['F', 'F', 'I']
  | 'ﬄ' => ['F', 'F', 'L']
  | 'ﬅ' | 'ﬆ' => ['S', 'T']
  | c => [c.toUpper]

/-- `s.toUpperCase()`, to be compared with ASCII strings. -/
def toUpperCase (s : String) : String := String.ofList (s.toList.flatMap upperCase)

end Strings

section Arrays

variable {α : Type}

/-- The index of a list of this length that `slice` takes an argument for: a negative one counts
from the end. -/
def sliceIndex (length : ℕ) (index : ℤ) : ℕ :=
  if index < 0 then (length + index).toNat else min index.toNat length

/-- `values.slice(start, end)`. -/
def slice (values : List α) (start stop : ℤ) : List α :=
  (values.take (sliceIndex values.length stop)).drop (sliceIndex values.length start)

private theorem sliceIndex_le (length : ℕ) (index : ℤ) : sliceIndex length index ≤ length := by
  unfold sliceIndex
  split <;> omega

theorem slice_eq_nil_iff {values : List α} {start stop : ℤ} : slice values start stop = [] ↔
    sliceIndex values.length stop ≤ sliceIndex values.length start := by
  have hle := sliceIndex_le values.length stop
  rw [slice, List.drop_eq_nil_iff, List.length_take]
  omega

theorem length_slice_le (values : List α) (start stop : ℤ) :
    (slice values start stop).length ≤ values.length - sliceIndex values.length start := by
  rw [slice, List.length_drop, List.length_take]
  omega

/-- A part of a list between two others. -/
theorem slice_append {front part rest : List α} {start stop : ℤ} (hstart : start = front.length)
    (hstop : stop = front.length + part.length) : slice (front ++ part ++ rest) start stop = part := by
  have hlength : (front ++ part ++ rest).length = front.length + part.length + rest.length := by
    simp [Nat.add_assoc]
  have hi : sliceIndex (front ++ part ++ rest).length start = front.length := by
    rw [sliceIndex, hlength, hstart, if_neg (by omega)]
    omega
  have hj : sliceIndex (front ++ part ++ rest).length stop = (front ++ part).length := by
    rw [sliceIndex, hlength, hstop, List.length_append, if_neg (by omega)]
    omega
  rw [slice, hi, hj, List.take_left, List.drop_left]

end Arrays

section Hexadecimal

def hexDigit? (c : Char) : Option ℕ :=
  if '0' ≤ c ∧ c ≤ '9' then some (c.toNat - '0'.toNat)
  else if 'a' ≤ c ∧ c ≤ 'f' then some (c.toNat - 'a'.toNat + 10)
  else if 'A' ≤ c ∧ c ≤ 'F' then some (c.toNat - 'A'.toNat + 10)
  else none

def isHexDigit (c : Char) : Bool := (hexDigit? c).isSome

/-- The number a list of hexadecimal digits stands for. -/
def ofHexDigits (digits : List Char) : ℕ :=
  digits.foldl (fun n c => 16 * n + (hexDigit? c).getD 0) 0

/-- `n.toString(16)`. -/
def toString16 (n : ℤ) : String :=
  if n < 0 then "-" ++ String.ofList (Nat.toDigits 16 n.natAbs)
  else String.ofList (Nat.toDigits 16 n.natAbs)

theorem hexDigit?_digitChar {d : ℕ} (h : d < 16) : hexDigit? d.digitChar = some d := by
  revert d
  decide

theorem ofHexDigits_append (cs ds : List Char) :
    ofHexDigits (cs ++ ds) = ds.foldl (fun n c => 16 * n + (hexDigit? c).getD 0) (ofHexDigits cs) :=
  List.foldl_append

theorem ofHexDigits_toDigits (n : ℕ) : ofHexDigits (Nat.toDigits 16 n) = n := by
  induction n using Nat.strongRecOn with
  | ind n ih =>
    by_cases h : n < 16
    · rw [Nat.toDigits_of_lt_base h]
      simp [ofHexDigits, hexDigit?_digitChar h]
    · have hle : 16 ≤ n := by omega
      rw [Nat.toDigits_of_base_le (by decide) hle, ofHexDigits_append, ih (n / 16) (by omega)]
      simp [hexDigit?_digitChar (Nat.mod_lt n (by decide : 16 > 0))]
      omega

theorem isHexDigit_toDigits (n : ℕ) : ∀ c ∈ Nat.toDigits 16 n, isHexDigit c = true := by
  have hdigit {d : ℕ} (hd : d < 16) : isHexDigit d.digitChar = true := by
    rw [isHexDigit, hexDigit?_digitChar hd]
    rfl
  induction n using Nat.strongRecOn with
  | ind n ih =>
    intro c hc
    by_cases hlt : n < 16
    · rw [Nat.toDigits_of_lt_base hlt] at hc
      rw [List.mem_singleton.mp hc]
      exact hdigit hlt
    · rw [Nat.toDigits_of_base_le (by decide) (by omega)] at hc
      rcases List.mem_append.mp hc with hc | hc
      · exact ih (n / 16) (by omega) c hc
      · rw [List.mem_singleton.mp hc]
        exact hdigit (Nat.mod_lt n (by decide))

private theorem le_foldl_digits (digits : List Char) (n : ℕ) :
    n * 16 ^ digits.length ≤ digits.foldl (fun n c => 16 * n + (hexDigit? c).getD 0) n := by
  induction digits generalizing n with
  | nil => simp
  | cons c digits ih =>
    rw [List.foldl_cons, List.length_cons, Nat.pow_succ]
    calc n * (16 ^ digits.length * 16) = 16 * n * 16 ^ digits.length := by
          rw [Nat.mul_comm _ 16, ← Nat.mul_assoc, Nat.mul_comm n]
      _ ≤ (16 * n + (hexDigit? c).getD 0) * 16 ^ digits.length :=
          Nat.mul_le_mul_right _ (Nat.le_add_right _ _)
      _ ≤ _ := ih _

private theorem hexDigit?_eq_zero {c : Char} (h : hexDigit? c = some 0) : c = '0' := by
  unfold hexDigit? at h
  have hval : c.toNat = '0'.toNat → c = '0' := fun heq => Char.toNat_inj.mp heq
  split at h
  · rename_i hrange
    apply hval
    have hle : '0'.toNat ≤ c.toNat := hrange.1
    have hsub := Option.some.inj h
    omega
  · split at h
    · cases h
    · split at h
      · cases h
      · cases h

/-- Digits without a zero in front make a large number. -/
theorem le_ofHexDigits {c : Char} {digits : List Char} (hc : isHexDigit c = true) (hne : c ≠ '0') :
    16 ^ digits.length ≤ ofHexDigits (c :: digits) := by
  obtain ⟨d, hd⟩ := Option.isSome_iff_exists.mp hc
  have hpos : 0 < d := by
    apply Nat.pos_of_ne_zero
    rintro rfl
    exact hne (hexDigit?_eq_zero hd)
  have hle := le_foldl_digits digits d
  rw [ofHexDigits, List.foldl_cons, hd]
  exact (Nat.le_mul_of_pos_left _ hpos).trans (by simpa using hle)

/-- Zeros in front of a number do not count. -/
@[simp] theorem ofHexDigits_dropWhile_zero (digits : List Char) :
    ofHexDigits (digits.dropWhile (· = '0')) = ofHexDigits digits := by
  induction digits with
  | nil => rfl
  | cons c digits ih =>
    by_cases hc : c = '0'
    · rw [List.dropWhile_cons_of_pos (by simpa using hc), ih, hc]
      rfl
    · rw [List.dropWhile_cons_of_neg (by simpa using hc)]

theorem toString16_natCast (n : ℕ) : toString16 n = String.ofList (Nat.toDigits 16 n) := by
  rw [toString16, if_neg (by omega)]
  rfl

/-- White space and line terminators. -/
def isWhitespace (c : Char) : Bool :=
  c.toNat ∈ [0x09, 0x0A, 0x0B, 0x0C, 0x0D, 0x20, 0xA0, 0x1680, 0x2028, 0x2029, 0x202F, 0x205F,
    0x3000, 0xFEFF] ∨ 0x2000 ≤ c.toNat ∧ c.toNat ≤ 0x200A

/-- `parseInt(s, 16)`: what follows the longest sequence of digits is ignored. -/
def parseInt16 (s : String) : Option ℤ :=
  let trimmed := s.toList.dropWhile isWhitespace
  let (sign, unsigned) : ℤ × List Char := match trimmed with
    | '-' :: cs => (-1, cs)
    | '+' :: cs => (1, cs)
    | cs => (1, cs)
  let digits := (match unsigned with
    | '0' :: 'x' :: cs => cs
    | '0' :: 'X' :: cs => cs
    | cs => cs).takeWhile isHexDigit
  if digits = [] then none else some (sign * ofHexDigits digits)

theorem isHexDigit_iff {c : Char} : isHexDigit c = true ↔ 48 ≤ c.toNat ∧ c.toNat ≤ 57 ∨
    97 ≤ c.toNat ∧ c.toNat ≤ 102 ∨ 65 ≤ c.toNat ∧ c.toNat ≤ 70 := by
  have hle (a b : Char) : a ≤ b ↔ a.toNat ≤ b.toNat := Iff.rfl
  unfold isHexDigit hexDigit?
  simp only [hle]
  split_ifs with hdigit hlower hupper
  · exact iff_of_true rfl (Or.inl hdigit)
  · exact iff_of_true rfl (Or.inr (Or.inl hlower))
  · exact iff_of_true rfl (Or.inr (Or.inr hupper))
  · exact iff_of_false Bool.false_ne_true fun h => h.elim hdigit (Or.elim · hlower hupper)

private theorem isHexDigit_ne {c d : Char} (h : isHexDigit c = true) (hd : isHexDigit d = false) :
    c ≠ d := by
  intro heq
  rw [heq, hd] at h
  cases h

/-- Digits without a sign or a prefix are read to their end. -/
theorem parseInt16_of_digits {digits : List Char} (hne : digits ≠ [])
    (h : ∀ c ∈ digits, isHexDigit c = true) :
    parseInt16 (String.ofList digits) = some (ofHexDigits digits : ℤ) := by
  obtain ⟨c, rest, rfl⟩ := List.exists_cons_of_ne_nil hne
  have hc := h c List.mem_cons_self
  have hblank : isWhitespace c = false := by
    have hrange := isHexDigit_iff.mp hc
    simp only [isWhitespace, decide_eq_false_iff_not, List.mem_cons, List.not_mem_nil, or_false]
    omega
  have hminus : c ≠ '-' := isHexDigit_ne hc (by decide)
  have hplus : c ≠ '+' := isHexDigit_ne hc (by decide)
  have htake : (c :: rest).takeWhile isHexDigit = c :: rest := by
    rw [← List.append_nil (c :: rest), List.takeWhile_append_of_pos h, List.takeWhile_nil]
  have hletter : ∀ x ∈ rest.head?, x ≠ 'x' ∧ x ≠ 'X' := by
    intro x hx
    have hdigit := h x (List.mem_cons_of_mem c (List.mem_of_mem_head? hx))
    exact ⟨isHexDigit_ne hdigit (by decide), isHexDigit_ne hdigit (by decide)⟩
  have hbare : (match c :: rest with
      | '0' :: 'x' :: cs => cs
      | '0' :: 'X' :: cs => cs
      | cs => cs) = c :: rest := by
    split
    · rename_i heq
      exact absurd rfl (hletter 'x' (by simp [(List.cons_eq_cons.mp heq).2])).1
    · rename_i heq
      exact absurd rfl (hletter 'X' (by simp [(List.cons_eq_cons.mp heq).2])).2
    · rfl
  simp [parseInt16, hblank, hminus, hplus, hbare, htake]

/-- `String.fromCharCode(n)`, where `NaN` counts as zero. -/
def fromCharCode (n : Option ℤ) : Char := Char.ofNat ((n.getD 0) % 2 ^ 16).toNat

/-- `n | 0`. -/
def toInt32 (n : ℤ) : ℤ := (n + 2 ^ 31) % 2 ^ 32 - 2 ^ 31

end Hexadecimal

end JsonRpcRelay.Js

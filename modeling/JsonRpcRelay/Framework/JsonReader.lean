import JsonRpcRelay.Framework.Entries
import JsonRpcRelay.Framework.Json
import JsonRpcRelay.JavaScript

/-!
# Reading JSON

A reader of JSON.  What it accepts is well formed: no two properties of an object have the same
name, and a property that is repeated has its last value.  A numeral is read exactly, without
rounding it to a double.  The text of a well-formed value is read as the value.
-/

namespace JsonRpcRelay.Framework

section Prefixes

variable {α : Type*} {p : α → Bool} {a r : List α}

theorem takeWhile_of_stops (ha : ∀ x ∈ a, p x = true) (hr : Stops (p · = true) r) :
    (a ++ r).takeWhile p = a := by
  rw [List.takeWhile_append_of_pos ha]
  cases r with
  | nil => simp
  | cons x r => rw [List.takeWhile_cons_of_neg (by simpa using hr), List.append_nil]

theorem dropWhile_of_stops (ha : ∀ x ∈ a, p x = true) (hr : Stops (p · = true) r) :
    (a ++ r).dropWhile p = r := by
  rw [List.dropWhile_append_of_pos ha]
  cases r with
  | nil => rfl
  | cons x r => rw [List.dropWhile_cons_of_neg (by simpa using hr)]

end Prefixes

section Numerals

/-- The number that a numeral stands for. -/
def Numeral.number (negative : Bool) (n : Numeral) : Number :=
  if h : n.significant.all (·.isDigit) = true ∧ n.significant ≠ [] ∧
      n.significant.head? ≠ some '0' ∧ n.significant.getLast? ≠ some '0' then
    .decimal ⟨negative, n.significant, n.point, List.all_eq_true.mp h.1, h.2.1, h.2.2.1, h.2.2.2⟩
  else .zero

def Number.ofInt (n : ℤ) : Number := Numeral.number (n < 0) ⟨Nat.toDigits 10 n.natAbs, [], none⟩

private theorem Numeral.isFinite_number (negative : Bool) (n : Numeral) :
    (n.number negative).isFinite = true := by
  unfold number
  split
  · rfl
  · rfl

theorem Number.isFinite_ofInt (n : ℤ) : (ofInt n).isFinite = true := Numeral.isFinite_number _ _

section Naturals

variable {m n : ℕ}

private theorem head?_toDigits_ten_ne_zero (h : 0 < n) : (Nat.toDigits 10 n).head? ≠ some '0' := by
  induction n using Nat.strong_induction_on with
  | _ n ih =>
    by_cases hlt : n < 10
    · rw [Nat.toDigits_of_lt_base hlt]
      interval_cases n <;> decide
    · rw [Nat.toDigits_of_base_le (by decide) (by omega), List.head?_append]
      rw [List.head?_eq_some_head Nat.toDigits_ne_nil]
      simpa [List.head?_eq_some_head Nat.toDigits_ne_nil] using ih (n / 10) (by omega) (by omega)

private theorem rdropWhile_zeros_append (l : List Char) :
    l = l.rdropWhile (· == '0') ++
      List.replicate (l.length - (l.rdropWhile (· == '0')).length) '0' := by
  have hsplit := List.rdropWhile_append_rtakeWhile (p := (· == '0')) (l := l)
  have hzeros : ∀ c ∈ l.rtakeWhile (· == '0'), c = '0' := by
    intro c hc
    simpa using List.mem_rtakeWhile_imp hc
  have hlength := congrArg List.length hsplit
  rw [List.length_append] at hlength
  conv_lhs => rw [← hsplit, List.eq_replicate_of_mem hzeros]
  rw [← hlength, Nat.add_sub_cancel_left]

private theorem exists_decimal_ofInt (h : 0 < n) : ∃ d : Decimal, Number.ofInt n = .decimal d ∧
    d.digits = (Nat.toDigits 10 n).rdropWhile (· == '0') ∧
      d.point = (Nat.toDigits 10 n).length := by
  have hhead := head?_toDigits_ten_ne_zero h
  obtain ⟨c, cs, hcs⟩ := List.exists_cons_of_ne_nil (Nat.toDigits_ne_nil (n := n) (b := 10))
  have hc : (c == '0') = false := by simpa [hcs] using hhead
  have hsignificant : (⟨Nat.toDigits 10 n, [], none⟩ : Numeral).significant =
      (Nat.toDigits 10 n).rdropWhile (· == '0') := by
    rw [Numeral.significant, List.append_nil]
    dsimp only
    rw [hcs, List.dropWhile_cons_of_neg (by rw [hc]; decide)]
  have hpoint : (⟨Nat.toDigits 10 n, [], none⟩ : Numeral).point = (Nat.toDigits 10 n).length := by
    rw [Numeral.point, List.append_nil]
    dsimp only
    rw [hcs, List.takeWhile_cons_of_neg (by rw [hc]; decide)]
    simp
  have hne : (Nat.toDigits 10 n).rdropWhile (· == '0') ≠ [] := by
    rw [Ne, List.rdropWhile_eq_nil_iff, hcs]
    intro hall
    simp [hall c List.mem_cons_self] at hc
  have hprefixed := List.rdropWhile_prefix (· == '0') (l := Nat.toDigits 10 n)
  have hnumeral : Number.ofInt n = Numeral.number false ⟨Nat.toDigits 10 n, [], none⟩ := by
    rw [Number.ofInt, decide_eq_false (by omega), Int.natAbs_natCast]
  have hdigits : (⟨Nat.toDigits 10 n, [], none⟩ : Numeral).significant.all (·.isDigit) = true ∧
      (⟨Nat.toDigits 10 n, [], none⟩ : Numeral).significant ≠ [] ∧
      (⟨Nat.toDigits 10 n, [], none⟩ : Numeral).significant.head? ≠ some '0' ∧
      (⟨Nat.toDigits 10 n, [], none⟩ : Numeral).significant.getLast? ≠ some '0' := by
    rw [hsignificant]
    refine ⟨?_, hne, ?_, ?_⟩
    · exact List.all_eq_true.mpr fun c hc => isDigit_toDigits c (hprefixed.subset hc)
    · obtain ⟨rest, hrest⟩ := hprefixed
      rwa [← hrest, List.head?_append_of_ne_nil _ hne] at hhead
    · rw [List.getLast?_eq_some_getLast hne]
      simpa using List.rdropWhile_last_not (· == '0') _ hne
  rw [hnumeral, Numeral.number, dif_pos hdigits]
  exact ⟨_, rfl, hsignificant, hpoint⟩

/-- Whole numbers are distinguished. -/
theorem Number.ofInt_natCast_inj : Number.ofInt m = Number.ofInt n ↔ m = n := by
  refine ⟨fun h => ?_, fun h => by rw [h]⟩
  rcases Nat.eq_zero_or_pos m with rfl | hm
  · rcases Nat.eq_zero_or_pos n with rfl | hn
    · rfl
    · obtain ⟨d, hd, _⟩ := exists_decimal_ofInt hn
      rw [hd] at h
      cases h
  · rcases Nat.eq_zero_or_pos n with rfl | hn
    · obtain ⟨d, hd, _⟩ := exists_decimal_ofInt hm
      rw [hd] at h
      cases h
    · obtain ⟨d, hd, hdigits, hpoint⟩ := exists_decimal_ofInt hm
      obtain ⟨d', hd', hdigits', hpoint'⟩ := exists_decimal_ofInt hn
      rw [hd, hd', Number.decimal.injEq] at h
      subst h
      have hlength : (Nat.toDigits 10 m).length = (Nat.toDigits 10 n).length := by omega
      rw [← Nat.ofDigitChars_ten_toDigits (n := m), ← Nat.ofDigitChars_ten_toDigits (n := n),
        rdropWhile_zeros_append (Nat.toDigits 10 m), rdropWhile_zeros_append (Nat.toDigits 10 n),
        ← hdigits, ← hdigits', hlength]

end Naturals

def readDigits (text : List Char) : Option ℕ :=
  if text ≠ [] ∧ text.all (·.isDigit) then some (Nat.ofDigitChars 10 text 0) else none

def readSigned (text : List Char) : Option ℤ :=
  if text.head? = some '-' then (readDigits (text.drop 1)).map fun n : ℕ => -(n : ℤ)
  else if text.head? = some '+' then (readDigits (text.drop 1)).map fun n : ℕ => (n : ℤ)
  else (readDigits text).map fun n : ℕ => (n : ℤ)

def readPower : List Char → Option (Option ℤ)
  | [] => some none
  | c :: rest => if c = 'e' ∨ c = 'E' then (readSigned rest).map some else none

/-- The digits behind the point, and what follows them. -/
def readFraction (text : List Char) : Option (List Char × List Char) :=
  if text.head? = some '.' then
    let fraction := (text.drop 1).takeWhile (·.isDigit)
    if fraction = [] then none else some (fraction, (text.drop 1).dropWhile (·.isDigit))
  else some ([], text)

def readUnsigned (text : List Char) : Option Numeral :=
  let whole := text.takeWhile (·.isDigit)
  if whole = [] ∨ (whole.head? = some '0' ∧ whole.length ≠ 1) then none
  else (readFraction (text.dropWhile (·.isDigit))).bind fun (fraction, rest) =>
    (readPower rest).map fun exponent => ⟨whole, fraction, exponent⟩

def Number.read (text : List Char) : Option Number :=
  if text.head? = some '-' then (readUnsigned (text.drop 1)).map (Numeral.number true)
  else (readUnsigned text).map (Numeral.number false)

private theorem Decimal.number_numeral (d : Decimal) :
    d.numeral.number d.negative = .decimal d := by
  obtain ⟨hdigits, hpoint⟩ := d.numeral_spec
  rw [Numeral.number, dif_pos]
  · simp only [hdigits, hpoint]
  · rw [hdigits]
    exact ⟨List.all_eq_true.mpr d.isDigit, d.nonempty, d.head_ne, d.getLast_ne⟩

theorem readDigits_toDigits (n : ℕ) : readDigits (Nat.toDigits 10 n) = some n := by
  have hall : (Nat.toDigits 10 n).all (·.isDigit) = true := List.all_eq_true.mpr isDigit_toDigits
  have hne : Nat.toDigits 10 n ≠ [] := by
    rw [← List.length_pos_iff]
    exact Nat.length_toDigits_pos
  rw [readDigits, if_pos ⟨hne, hall⟩, Nat.ofDigitChars_ten_toDigits]

private theorem readPower_exponent (e : Option ℤ) :
    readPower (e.elim [] exponentText) = some e := by
  cases e with
  | none => rfl
  | some n =>
    by_cases hn : n < 0
    · have habs : -(n.natAbs : ℤ) = n := by omega
      simp only [readPower, Option.elim_some, exponentText, readSigned, hn, if_true, true_or,
        List.head?_cons, List.drop_one, List.tail_cons, readDigits_toDigits, Option.map_some, habs]
    · have habs : (n.natAbs : ℤ) = n := by omega
      simp [readPower, exponentText, readSigned, hn, readDigits_toDigits, habs]

variable {n : Numeral}

private theorem readFraction_text (h : n.IsDigits) :
    readFraction ((if n.fraction = [] then [] else '.' :: n.fraction) ++
      n.exponent.elim [] exponentText) = some (n.fraction, n.exponent.elim [] exponentText) := by
  have hstops := stops_exponent n.exponent
  by_cases hf : n.fraction = []
  · have hpoint : (n.exponent.elim [] exponentText).head? ≠ some '.' := by
      cases n.exponent with
      | none => simp
      | some e => simp [exponentText]
    simp [readFraction, hf, hpoint]
  · simp [readFraction, hf, takeWhile_of_stops h.fraction hstops,
      dropWhile_of_stops h.fraction hstops]

private theorem readUnsigned_text (h : n.IsDigits) (hne : n.whole ≠ [])
    (hzero : n.whole.head? = some '0' → n.whole.length = 1) : readUnsigned n.text = some n := by
  have hstops : Stops (fun c : Char => c.isDigit = true)
      ((if n.fraction = [] then [] else '.' :: n.fraction) ++ n.exponent.elim [] exponentText) := by
    split
    · exact stops_exponent n.exponent
    · exact stops_cons.mpr (by decide)
  have hwhole : ¬(n.whole = [] ∨ n.whole.head? = some '0' ∧ n.whole.length ≠ 1) := by
    simp only [hne, false_or, not_and, not_not]
    exact hzero
  rw [readUnsigned, Numeral.text, List.append_assoc, takeWhile_of_stops h.whole hstops,
    dropWhile_of_stops h.whole hstops, if_neg hwhole, readFraction_text h]
  simp [readPower_exponent]

private theorem Decimal.whole_head (d : Decimal) :
    d.numeral.whole.head? = some '0' → d.numeral.whole.length = 1 := by
  obtain ⟨c, cs, hcs, hc⟩ := d.exists_digits
  have hne : c ≠ '0' := by simpa using hc
  unfold numeral
  split_ifs with hlarge hmiddle hsmall
  · simp [hcs, hne]
  · obtain ⟨k, hk⟩ : ∃ k, d.point.toNat = k + 1 := ⟨d.point.toNat - 1, by omega⟩
    simp [hcs, hk, hne]
  · simp
  · simp [hcs]

private theorem Number.read_text {x : Number} (h : x.isFinite = true) : read x.text = some x := by
  cases x with
  | nan => cases h
  | infinity negative => cases h
  | zero => rfl
  | decimal d =>
    have hread := readUnsigned_text d.isDigits_numeral d.whole_ne_nil d.whole_head
    obtain ⟨c, cs, hc, hdigit⟩ := d.exists_numeral
    have hminus : c ≠ '-' := by
      rintro rfl
      cases hdigit
    have hnumber := d.number_numeral
    cases hsign : d.negative with
    | true => simp [read, Number.text, isNegative, magnitude, hsign, hread, ← hnumber]
    | false =>
      have hhead : d.numeral.text.head? ≠ some '-' := by simp [hc, hminus]
      simp [read, Number.text, isNegative, magnitude, hsign, hhead, hread, ← hnumber]

end Numerals

namespace Json

section Reader

def skip (text : List Char) : List Char :=
  text.dropWhile fun c => c ∈ [' ', '\t', '\n', '\r']

/-- The character that a letter behind a backslash stands for. -/
def unescape (c : Char) : Option Char :=
  if c = '"' ∨ c = '\\' ∨ c = '/' then some c
  else if c = 'b' then some (Char.ofNat 8)
  else if c = 't' then some (Char.ofNat 9)
  else if c = 'n' then some (Char.ofNat 10)
  else if c = 'f' then some (Char.ofNat 12)
  else if c = 'r' then some (Char.ofNat 13)
  else none

/-- The code unit that four hexadecimal digits stand for. -/
def readUnit (digits : List Char) : Option ℕ :=
  if digits.length = 4 ∧ digits.all Js.isHexDigit then some (Js.ofHexDigits digits) else none

/-- The character behind `\u`.  Characters behind the first plane are written as two code units,
and a single one of these is no character. -/
def readUnicode (text : List Char) : Option (Char × List Char) :=
  (readUnit (text.take 4)).bind fun unit =>
    if unit < 0xD800 ∨ 0xE000 ≤ unit then some (Char.ofNat unit, text.drop 4)
    else if unit < 0xDC00 ∧ (text.drop 4).take 2 = ['\\', 'u'] then
      (readUnit ((text.drop 6).take 4)).bind fun low =>
        if 0xDC00 ≤ low ∧ low < 0xE000 then
          some (Char.ofNat (0x10000 + 0x400 * (unit - 0xD800) + (low - 0xDC00)), text.drop 10)
        else none
    else none

def readChar : List Char → Option (Char × List Char)
  | [] => none
  | c :: rest =>
    if c = '\\' then
      if rest.head? = some 'u' then readUnicode (rest.drop 1)
      else (rest.head?.bind unescape).map fun c => (c, rest.drop 1)
    else if c.toNat < 32 then none
    else some (c, rest)

/-- The characters up to the closing quote. -/
def readChars : ℕ → List Char → Option (List Char × List Char)
  | 0, _ => none
  | fuel + 1, text =>
    if text.head? = some '"' then some ([], text.drop 1)
    else (readChar text).bind fun (c, rest) =>
      (readChars fuel rest).map fun (cs, rest) => (c :: cs, rest)

def readString (text : List Char) : Option (String × List Char) :=
  if text.head? = some '"' then
    (readChars text.length (text.drop 1)).map fun (cs, rest) => (String.ofList cs, rest)
  else none

def readLiteral (word : List Char) (x : Json) (text : List Char) : Option (Json × List Char) :=
  if word.isPrefixOf text then some (x, text.drop word.length) else none

def readNumber (text : List Char) : Option (Json × List Char) :=
  (Number.read (text.takeWhile fun c => isNumberChar c ∨ c = 'E')).map fun x =>
    (.number x, text.dropWhile fun c => isNumberChar c ∨ c = 'E')

mutual

def readValue : ℕ → List Char → Option (Json × List Char)
  | 0, _ => none
  | fuel + 1, text =>
    match skip text with
    | [] => none
    | c :: rest =>
      if c = 'n' then readLiteral ['u', 'l', 'l'] .null rest
      else if c = 't' then readLiteral ['r', 'u', 'e'] (.bool true) rest
      else if c = 'f' then readLiteral ['a', 'l', 's', 'e'] (.bool false) rest
      else if c = '"' then (readString (c :: rest)).map fun (s, rest) => (.string s, rest)
      else if c = '[' then
        if (skip rest).head? = some ']' then some (.array [], (skip rest).drop 1)
        else (readItems fuel rest).map fun (items, rest) => (.array items, rest)
      else if c = '\x7b' then
        if (skip rest).head? = some '\x7d' then some (.object [], (skip rest).drop 1)
        else (readFields fuel rest).map fun (fields, rest) => (.object (setEntries fields []), rest)
      else readNumber (c :: rest)

def readItems : ℕ → List Char → Option (List Json × List Char)
  | 0, _ => none
  | fuel + 1, text =>
    (readValue fuel text).bind fun (x, rest) =>
      if (skip rest).head? = some ']' then some ([x], (skip rest).drop 1)
      else if (skip rest).head? = some ',' then
        (readItems fuel ((skip rest).drop 1)).map fun (xs, rest) => (x :: xs, rest)
      else none

def readFields : ℕ → List Char → Option (List (String × Json) × List Char)
  | 0, _ => none
  | fuel + 1, text =>
    (readString (skip text)).bind fun (key, rest) =>
      if (skip rest).head? = some ':' then
        (readValue fuel ((skip rest).drop 1)).bind fun (x, rest) =>
          if (skip rest).head? = some '\x7d' then some ([(key, x)], (skip rest).drop 1)
          else if (skip rest).head? = some ',' then
            (readFields fuel ((skip rest).drop 1)).map fun (fields, rest) => ((key, x) :: fields, rest)
          else none
      else none

end

/-- The value of a text, if it is one. -/
def parse (text : String) : Option Json :=
  (readValue (text.length + 1) text.toList).bind fun (x, rest) =>
    if skip rest = [] then some x else none

end Reader

example : (parse " \x7b\"a\" : [1.50, \"\\u0041\"], \"b\":2, \"a\":null \x7d").map stringify =
    some "\x7b\"a\":null,\"b\":2\x7d" := by decide +kernel

section Strings

private theorem readChar_escape (c : Char) (r : List Char) :
    readChar (escape c ++ r) = some (c, r) := by
  by_cases hcontrol : c.toNat < 32
  · have hread : ∀ n < 32, ∀ r, readChar (escape (Char.ofNat n) ++ r) = some (Char.ofNat n, r) := by
      intro n hn r
      interval_cases n <;> rfl
    rw [← Char.ofNat_toNat c]
    exact hread _ hcontrol r
  · rw [escape_of_le (by omega)]
    split_ifs with hquote
    · rcases hquote with rfl | rfl
      · rfl
      · rfl
    · rw [not_or] at hquote
      simp [readChar, hquote.2, hcontrol]

private theorem readChars_escapes {cs r : List Char} {fuel : ℕ} (h : cs.length < fuel) :
    readChars fuel (cs.flatMap escape ++ '"' :: r) = some (cs, r) := by
  induction cs generalizing fuel with
  | nil =>
    obtain ⟨fuel, rfl⟩ := Nat.exists_eq_succ_of_ne_zero (Nat.ne_of_gt h)
    simp [readChars]
  | cons c cs ih =>
    obtain ⟨fuel, rfl⟩ := Nat.exists_eq_succ_of_ne_zero (Nat.ne_of_gt (Nat.zero_lt_of_lt h))
    obtain ⟨d, ds, hd, hne⟩ := exists_escape c
    have hread := readChar_escape c (cs.flatMap escape ++ '"' :: r)
    have hhead : (escape c ++ (cs.flatMap escape ++ '"' :: r)).head? ≠ some '"' := by
      simp [hd, hne]
    rw [List.flatMap_cons, List.append_assoc, readChars, if_neg hhead, hread]
    simp [ih (Nat.lt_of_succ_lt_succ h)]

private theorem length_le_escapes (cs : List Char) : cs.length ≤ (cs.flatMap escape).length := by
  induction cs with
  | nil => simp
  | cons c cs ih =>
    obtain ⟨d, ds, hd, _⟩ := exists_escape c
    rw [List.flatMap_cons, hd, List.length_append, List.length_cons, List.length_cons]
    omega

private theorem readString_quote (s : String) (r : List Char) :
    readString (quote s ++ r) = some (s, r) := by
  have hlength := length_le_escapes s.toList
  have hfuel : s.toList.length < (quote s ++ r).length := by
    rw [quote, List.length_append, List.length_cons, List.length_append]
    omega
  have hchars := @readChars_escapes s.toList r _ hfuel
  simp only [readString, quote, List.cons_append, List.head?_cons, if_true, List.drop_one,
    List.tail_cons, List.append_assoc, List.nil_append] at hchars ⊢
  rw [hchars, Option.map_some, String.ofList_toList]

end Strings

section Values

mutual

/-- No two properties of an object have the same name. -/
def Distinct : Json → Prop
  | .array items => ItemsDistinct items
  | .object fields => (fields.map Prod.fst).Nodup ∧ FieldsDistinct fields
  | _ => True

def ItemsDistinct : List Json → Prop
  | [] => True
  | x :: xs => Distinct x ∧ ItemsDistinct xs

def FieldsDistinct : List (String × Json) → Prop
  | [] => True
  | (_, x) :: fields => Distinct x ∧ FieldsDistinct fields

end

/-- No numeral goes on with what follows. -/
abbrev Follows (r : List Char) : Prop :=
  Stops (fun c => decide (isNumberChar c = true ∨ c = 'E') = true) r

private theorem follows_itemsText (xs : List Json) (r : List Char) :
    Follows (itemsText xs ++ r) := by
  cases xs with
  | nil => exact stops_cons.mpr (by decide)
  | cons x xs => exact stops_cons.mpr (by decide)

private theorem follows_fieldsText (fields : List (String × Json)) (r : List Char) :
    Follows (fieldsText fields ++ r) := by
  cases fields with
  | nil => exact stops_cons.mpr (by decide)
  | cons field fields => exact stops_cons.mpr (by decide)

/-- A text begins with no blank and no closing bracket. -/
theorem skip_text (x : Json) (r : List Char) : skip (x.text ++ r) = x.text ++ r ∧
    (x.text ++ r).head? ≠ some ']' := by
  obtain ⟨c, cs, hc, hkind, hne⟩ := exists_text x
  have hblanks : ∀ d ∈ [' ', '\t', '\n', '\r'],
      kindOf d = .number ∧ d ≠ '-' ∧ d.isDigit = false := by
    simp [kindOf]
  have hblank : c ∉ [' ', '\t', '\n', '\r'] := by
    intro hmem
    obtain ⟨hnumber, hminus, hdigit⟩ := hblanks c hmem
    rw [hnumber] at hkind
    cases x with
    | number x =>
      have hfinite : x.isFinite = true := by
        by_contra hinfinite
        simp [kind, hinfinite] at hkind
      obtain ⟨d', ds, htext, hd'⟩ := exists_numberText hfinite
      rw [text, if_pos hfinite, htext, List.cons.injEq] at hc
      rw [hc.1, hdigit] at hd'
      simp [hminus] at hd'
    | _ => cases hkind
  rw [hc, List.cons_append, skip, List.dropWhile_cons_of_neg]
  · exact ⟨rfl, by simpa using hne⟩
  · simpa using hblank

private theorem readNumber_text {x : Number} (h : x.isFinite = true) {r : List Char}
    (hr : Follows r) :
    readNumber (x.text ++ r) = some (.number x, r) := by
  have hall : ∀ c ∈ x.text, decide (isNumberChar c = true ∨ c = 'E') = true := by
    intro c hc
    simp [Number.isNumberChar_text h c hc]
  rw [readNumber, takeWhile_of_stops hall hr, dropWhile_of_stops hall hr, Number.read_text h,
    Option.map_some]

private theorem keys_plainFields (fields : List (String × Json)) :
    (plainFields fields).map Prod.fst = fields.map Prod.fst := by
  induction fields with
  | nil => rfl
  | cons field fields ih => rw [plainFields, List.map_cons, List.map_cons, ih]

private theorem skip_itemsText (xs : List Json) (r : List Char) :
    skip (itemsText xs ++ r) = itemsText xs ++ r := by
  cases xs with
  | nil => rfl
  | cons x xs => rfl

private theorem skip_fieldsText (fields : List (String × Json)) (r : List Char) :
    skip (fieldsText fields ++ r) = fieldsText fields ++ r := by
  cases fields with
  | nil => rfl
  | cons field fields => rfl

private theorem readValue_number {x : Number} (h : x.isFinite = true) {fuel : ℕ} {r : List Char}
    (hr : Follows r) : readValue (fuel + 1) (x.text ++ r) = some (.number x, r) := by
  have hread := readNumber_text h hr
  have hskip := (skip_text (.number x) r).1
  obtain ⟨c, cs, hc, hnumber⟩ := exists_numberText h
  have hkind := (kindOf_number hnumber).1
  rw [text, if_pos h] at hskip
  rw [hc, List.cons_append] at hread hskip ⊢
  unfold kindOf at hkind
  split_ifs at hkind
  simp [readValue, *]

/-- With this fuel the texts are read as the values that they are made of. -/
def ReadsValues (fuel : ℕ) : Prop := ∀ (x : Json) (r : List Char), Distinct x →
  x.text.length ≤ fuel → Follows r → readValue fuel (x.text ++ r) = some (x.plain, r)

def ReadsItems (fuel : ℕ) : Prop := ∀ (x : Json) (xs : List Json) (r : List Char),
  ItemsDistinct (x :: xs) → (x.text ++ itemsText xs).length ≤ fuel →
    readItems fuel (x.text ++ (itemsText xs ++ r)) = some (plainItems (x :: xs), r)

def ReadsFields (fuel : ℕ) : Prop := ∀ (key : String) (x : Json) (fields : List (String × Json))
  (r : List Char), FieldsDistinct ((key, x) :: fields) →
    (quote key ++ ':' :: (x.text ++ fieldsText fields)).length ≤ fuel →
      readFields fuel (quote key ++ ':' :: (x.text ++ (fieldsText fields ++ r))) =
        some (plainFields ((key, x) :: fields), r)

private theorem readsValues_succ {fuel : ℕ} (hitems : ReadsItems fuel)
    (hfields : ReadsFields fuel) :
    ReadsValues (fuel + 1) := by
  intro x r hx hfuel hr
  match x with
  | .null => simp [text, readValue, skip, readLiteral, plain]
  | .bool true => simp [text, readValue, skip, readLiteral, plain]
  | .bool false => simp [text, readValue, skip, readLiteral, plain]
  | .number n =>
    by_cases hfinite : n.isFinite = true
    · rw [text, plain, if_pos hfinite, if_pos hfinite, readValue_number hfinite hr]
    · simp [text, hfinite, readValue, skip, readLiteral, plain]
  | .string s =>
    have hread := readString_quote s r
    have hskip : skip (quote s ++ r) = quote s ++ r := rfl
    simp only [text, plain, readValue, hskip]
    simp only [quote, List.cons_append, List.append_assoc, List.nil_append] at hread ⊢
    simp [hread]
  | .array [] => simp [text, readValue, skip, plain, plainItems]
  | .array (x :: xs) =>
    rw [text, List.length_cons] at hfuel
    have hread := hitems x xs r hx (Nat.le_of_succ_le_succ hfuel)
    obtain ⟨hblank, hhead⟩ := skip_text x (itemsText xs ++ r)
    have hskip (l : List Char) : skip ('[' :: l) = '[' :: l := rfl
    simp only [text, plain, List.cons_append, List.append_assoc, readValue, hskip, hblank, hhead,
      if_false, hread, Option.map_some]
    rfl
  | .object [] => simp [text, readValue, skip, plain, plainFields]
  | .object ((key, x) :: fields) =>
    rw [text, List.length_cons] at hfuel
    have hread := hfields key x fields r hx.2 (Nat.le_of_succ_le_succ hfuel)
    have hset : setEntries (plainFields ((key, x) :: fields)) [] =
        plainFields ((key, x) :: fields) := by
      apply setEntries_of_nodup
      rw [List.nil_append, keys_plainFields]
      exact hx.1
    have hskip (l : List Char) : skip ('\x7b' :: l) = '\x7b' :: l := rfl
    have hblank (l : List Char) : skip (quote key ++ l) = quote key ++ l := rfl
    have hhead (l : List Char) : (quote key ++ l).head? ≠ some '\x7d' := by simp [quote]
    simp only [text, plain, List.cons_append, List.append_assoc, readValue, hskip, hblank, hhead,
      if_false, hread, hset, Option.map_some]
    rfl

private theorem readsItems_succ {fuel : ℕ} (hvalues : ReadsValues fuel) (hitems : ReadsItems fuel) :
    ReadsItems (fuel + 1) := by
  intro x xs r hxs hfuel
  have hend : 0 < (itemsText xs).length := by cases xs <;> simp [itemsText]
  rw [List.length_append] at hfuel
  have hvalue := hvalues x (itemsText xs ++ r) hxs.1 (by omega) (follows_itemsText xs r)
  simp only [readItems, hvalue, Option.bind_some, skip_itemsText]
  cases xs with
  | nil => simp [itemsText, plainItems]
  | cons y ys =>
    rw [itemsText, List.length_cons] at hfuel
    have hrest := hitems y ys r hxs.2 (by omega)
    simp [itemsText, hrest, plainItems]

private theorem readsFields_succ {fuel : ℕ} (hvalues : ReadsValues fuel)
    (hfields : ReadsFields fuel) :
    ReadsFields (fuel + 1) := by
  intro key x fields r hdistinct hfuel
  rw [List.length_append, List.length_cons, List.length_append] at hfuel
  have hvalue := hvalues x (fieldsText fields ++ r) hdistinct.1 (by omega)
    (follows_fieldsText fields r)
  have hblank (l : List Char) : skip (quote key ++ l) = quote key ++ l := rfl
  have hcolon (l : List Char) : skip (':' :: l) = ':' :: l := rfl
  simp only [readFields, hblank, readString_quote, Option.bind_some, hcolon, List.head?_cons,
    List.drop_one, List.tail_cons, if_true, hvalue, skip_fieldsText]
  cases fields with
  | nil => simp [fieldsText, plainFields]
  | cons field fields =>
    rw [fieldsText, List.length_cons] at hfuel
    have hrest := hfields field.1 field.2 fields r hdistinct.2 (by omega)
    simp [fieldsText, hrest, plainFields]

theorem reads (fuel : ℕ) : ReadsValues fuel ∧ ReadsItems fuel ∧ ReadsFields fuel := by
  induction fuel with
  | zero =>
    refine ⟨?_, ?_, ?_⟩
    · intro x r _ hfuel
      obtain ⟨c, cs, hc, _⟩ := exists_text x
      simp [hc] at hfuel
    · intro x xs r _ hfuel
      obtain ⟨c, cs, hc, _⟩ := exists_text x
      simp [hc] at hfuel
    · intro key x fields r _ hfuel
      simp [quote] at hfuel
  | succ fuel ih =>
    obtain ⟨hvalues, hitems, hfields⟩ := ih
    exact ⟨readsValues_succ hitems hfields, readsItems_succ hvalues hitems,
      readsFields_succ hvalues hfields⟩

/-- What is written is read again, apart from numbers that are not finite. -/
theorem parse_stringify {x : Json} (h : Distinct x) : parse (stringify x) = some x.plain := by
  have hread := (reads (x.text.length + 1)).1 x [] h (Nat.le_succ _) stops_nil
  have hend : skip [] = [] := rfl
  rw [List.append_nil] at hread
  rw [parse, stringify, String.length_ofList, String.toList_ofList, hread, Option.bind_some]
  exact if_pos hend

end Values

section Plain

mutual

/-- All numbers within the value are finite. -/
def AllFinite : Json → Prop
  | .number x => x.isFinite = true
  | .array items => ItemsFinite items
  | .object fields => FieldsFinite fields
  | _ => True

def ItemsFinite : List Json → Prop
  | [] => True
  | x :: xs => AllFinite x ∧ ItemsFinite xs

def FieldsFinite : List (String × Json) → Prop
  | [] => True
  | (_, x) :: fields => AllFinite x ∧ FieldsFinite fields

end

mutual

/-- The values that are read as they were are those whose numbers are finite. -/
theorem plain_eq_self_iff (x : Json) : x.plain = x ↔ AllFinite x := by
  match x with
  | .null => simp [plain, AllFinite]
  | .bool b => simp [plain, AllFinite]
  | .string s => simp [plain, AllFinite]
  | .number n => by_cases h : n.isFinite = true <;> simp [plain, AllFinite, h]
  | .array items => simp [plain, AllFinite, plainItems_eq_self_iff items]
  | .object fields => simp [plain, AllFinite, plainFields_eq_self_iff fields]

private theorem plainItems_eq_self_iff (xs : List Json) : plainItems xs = xs ↔ ItemsFinite xs := by
  match xs with
  | [] => simp [plainItems, ItemsFinite]
  | x :: xs => simp [plainItems, ItemsFinite, plain_eq_self_iff x, plainItems_eq_self_iff xs]

private theorem plainFields_eq_self_iff (fields : List (String × Json)) :
    plainFields fields = fields ↔ FieldsFinite fields := by
  match fields with
  | [] => simp [plainFields, FieldsFinite]
  | (key, x) :: fields =>
    simp [plainFields, FieldsFinite, plain_eq_self_iff x, plainFields_eq_self_iff fields]

end

theorem field?_plain (x : Json) (key : String) : x.plain.field? key = (x.field? key).map plain := by
  cases x with
  | object fields =>
    show (plainFields fields).lookup key = (fields.lookup key).map plain
    induction fields with
    | nil => rfl
    | cons field fields ih =>
      obtain ⟨name, y⟩ := field
      by_cases hkey : key = name
      · simp [plainFields, hkey]
      · rw [plainFields, List.lookup_cons, List.lookup_cons, beq_eq_false_iff_ne.mpr hkey]
        exact ih
  | number n => by_cases h : n.isFinite = true <;> simp [plain, field?, h]
  | _ => rfl

end Plain

section WellFormed

theorem fieldsDistinct_iff {fields : List (String × Json)} :
    FieldsDistinct fields ↔ ∀ field ∈ fields, Distinct field.2 := by
  induction fields with
  | nil => simp [FieldsDistinct]
  | cons field fields ih => simp [FieldsDistinct, ih]

theorem distinct_of_field? {x y : Json} {key : String} (h : Distinct x)
    (hy : x.field? key = some y) : Distinct y := by
  cases x with
  | object fields =>
    obtain ⟨before, after, happend, _⟩ := List.lookup_eq_some_iff.mp hy
    exact fieldsDistinct_iff.mp h.2 (key, y) (by simp [happend])
  | _ => cases hy

/-- With this fuel only well-formed values are read. -/
structure ReadsDistinct (fuel : ℕ) : Prop where
  value : ∀ text x r, readValue fuel text = some (x, r) → Distinct x
  items : ∀ text xs r, readItems fuel text = some (xs, r) → ItemsDistinct xs
  fields : ∀ text fields r, readFields fuel text = some (fields, r) → FieldsDistinct fields

private theorem of_readLiteral {word text r : List Char} {x y : Json}
    (h : readLiteral word x text = some (y, r)) : y = x := by
  simp only [readLiteral, Option.ite_none_right_eq_some, Option.some.injEq, Prod.mk.injEq] at h
  exact h.2.1.symm

private theorem distinct_of_readValue {fuel : ℕ} (ih : ReadsDistinct fuel) {text r : List Char}
    {x : Json} (h : readValue (fuel + 1) text = some (x, r)) : Distinct x := by
  rw [readValue] at h
  split at h
  · cases h
  · split_ifs at h
    · rw [of_readLiteral h]
      trivial
    · rw [of_readLiteral h]
      trivial
    · rw [of_readLiteral h]
      trivial
    · obtain ⟨p, _, hp⟩ := Option.map_eq_some_iff.mp h
      cases hp
      trivial
    · cases h
      trivial
    · obtain ⟨p, hitems, hp⟩ := Option.map_eq_some_iff.mp h
      cases hp
      exact ih.items _ _ _ hitems
    · cases h
      exact ⟨List.nodup_nil, trivial⟩
    · obtain ⟨p, hfields, hp⟩ := Option.map_eq_some_iff.mp h
      cases hp
      refine ⟨nodup_keys_setEntries List.nodup_nil, fieldsDistinct_iff.mpr ?_⟩
      intro field hfield
      rcases mem_setEntries hfield with hmem | hmem
      · exact fieldsDistinct_iff.mp (ih.fields _ _ _ hfields) field hmem
      · cases hmem
    · obtain ⟨n, _, hn⟩ := Option.map_eq_some_iff.mp h
      cases hn
      trivial

private theorem itemsDistinct_of_readItems {fuel : ℕ} (ih : ReadsDistinct fuel) {text r : List Char}
    {xs : List Json} (h : readItems (fuel + 1) text = some (xs, r)) : ItemsDistinct xs := by
  rw [readItems] at h
  obtain ⟨⟨x, rest⟩, hvalue, h⟩ := Option.bind_eq_some_iff.mp h
  have hx := ih.value _ _ _ hvalue
  simp only [] at h
  split_ifs at h
  · cases h
    exact ⟨hx, trivial⟩
  · obtain ⟨q, hitems, hq⟩ := Option.map_eq_some_iff.mp h
    cases hq
    exact ⟨hx, ih.items _ _ _ hitems⟩

private theorem fieldsDistinct_of_readFields {fuel : ℕ} (ih : ReadsDistinct fuel)
    {text r : List Char}
    {fields : List (String × Json)} (h : readFields (fuel + 1) text = some (fields, r)) :
    FieldsDistinct fields := by
  rw [readFields] at h
  obtain ⟨⟨key, rest⟩, _, h⟩ := Option.bind_eq_some_iff.mp h
  simp only [] at h
  split_ifs at h
  obtain ⟨⟨x, rest⟩, hvalue, h⟩ := Option.bind_eq_some_iff.mp h
  have hx := ih.value _ _ _ hvalue
  simp only [] at h
  split_ifs at h
  · cases h
    exact ⟨hx, trivial⟩
  · obtain ⟨t, hfields, ht⟩ := Option.map_eq_some_iff.mp h
    cases ht
    exact ⟨hx, ih.fields _ _ _ hfields⟩

private theorem readsDistinct (fuel : ℕ) : ReadsDistinct fuel := by
  induction fuel with
  | zero => exact ⟨nofun, nofun, nofun⟩
  | succ fuel ih =>
    exact ⟨fun _ _ _ => distinct_of_readValue ih, fun _ _ _ => itemsDistinct_of_readItems ih,
      fun _ _ _ => fieldsDistinct_of_readFields ih⟩

/-- Whatever is accepted is well formed. -/
theorem distinct_of_parse {text : String} {x : Json} (h : parse text = some x) : Distinct x := by
  obtain ⟨⟨y, rest⟩, hvalue, hend⟩ := Option.bind_eq_some_iff.mp h
  rw [Option.ite_none_right_eq_some] at hend
  cases hend.2
  exact (readsDistinct _).value _ _ _ hvalue

end WellFormed

end Json

end JsonRpcRelay.Framework

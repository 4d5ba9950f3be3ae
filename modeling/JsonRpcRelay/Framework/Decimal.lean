import Mathlib.Data.List.DropRight
import Mathlib.Data.Int.Notation
import Mathlib.Data.Nat.Notation
import Mathlib.Tactic.SplitIfs

/-!
# Numbers and their text

A finite number is given by a sign, its shortest decimal digits and the place of the point.
Small and large numbers are written with an exponent.  The text determines the number, also
where other text follows that cannot go on with a number.
-/

namespace JsonRpcRelay.Framework

section Delimited

variable {α : Type*} {p : α → Prop}

/-- The list does not begin with an element of the kind `p`. -/
def Stops (p : α → Prop) (r : List α) : Prop := ∀ x ∈ r.head?, ¬p x

@[simp] theorem stops_nil : Stops p [] := fun x hx => by cases hx

@[simp] theorem stops_cons {x : α} {r : List α} : Stops p (x :: r) ↔ ¬p x := by
  simp [Stops]

/-- Elements of one kind are separated from what follows. -/
theorem append_inj_of_stops {a b r s : List α} (ha : ∀ x ∈ a, p x) (hb : ∀ x ∈ b, p x)
    (hr : Stops p r) (hs : Stops p s) (h : a ++ r = b ++ s) : a = b ∧ r = s := by
  induction a generalizing b with
  | nil =>
    cases b with
    | nil => exact ⟨rfl, h⟩
    | cons y b =>
      rw [List.nil_append] at h
      rw [h, List.cons_append, stops_cons] at hr
      exact absurd (hb y List.mem_cons_self) hr
  | cons x a ih =>
    cases b with
    | nil =>
      rw [List.nil_append] at h
      rw [← h, List.cons_append, stops_cons] at hs
      exact absurd (ha x List.mem_cons_self) hs
    | cons y b =>
      obtain ⟨hxy, htail⟩ := List.cons_eq_cons.mp h
      obtain ⟨hab, hrs⟩ := ih (fun z hz => ha z (List.mem_cons_of_mem x hz))
        (fun z hz => hb z (List.mem_cons_of_mem y hz)) htail
      exact ⟨by rw [hxy, hab], hrs⟩

end Delimited

section Numerals

/-- The digits in front of the point and behind it, and the exponent. -/
structure Numeral where
  whole : List Char
  fraction : List Char
  exponent : Option ℤ

def exponentText (n : ℤ) : List Char :=
  'e' :: (if n < 0 then '-' else '+') :: Nat.toDigits 10 n.natAbs

def Numeral.text (n : Numeral) : List Char :=
  n.whole ++ (if n.fraction = [] then [] else '.' :: n.fraction) ++ n.exponent.elim [] exponentText

structure Numeral.IsDigits (n : Numeral) : Prop where
  whole : ∀ c ∈ n.whole, c.isDigit = true
  fraction : ∀ c ∈ n.fraction, c.isDigit = true

/-- The characters of a number. -/
def isNumberChar (c : Char) : Bool := c.isDigit ∨ c ∈ ['.', 'e', '+', '-']

theorem isDigit_toDigits {n : ℕ} : ∀ c ∈ Nat.toDigits 10 n, c.isDigit = true :=
  fun _ hc => Nat.isDigit_of_mem_toDigits (by decide) (by decide) hc

private theorem exponentText_inj {m n : ℤ} (h : exponentText m = exponentText n) : m = n := by
  simp only [exponentText, List.cons.injEq, true_and] at h
  obtain ⟨hsign, hdigits⟩ := h
  have habs : m.natAbs = n.natAbs := by
    rw [← Nat.ofDigitChars_ten_toDigits (n := m.natAbs), hdigits, Nat.ofDigitChars_ten_toDigits]
  by_cases hm : m < 0 <;> by_cases hn : n < 0 <;> simp [hm, hn] at hsign <;> omega

private theorem exponent_elim_inj {m n : Option ℤ}
    (h : m.elim [] exponentText = n.elim [] exponentText) : m = n := by
  cases m with
  | none =>
    cases n with
    | none => rfl
    | some n => cases h
  | some m =>
    cases n with
    | none => cases h
    | some n => rw [exponentText_inj h]

variable {m n : Numeral}

theorem stops_exponent (e : Option ℤ) : Stops (fun c : Char => c.isDigit = true)
    (e.elim [] exponentText) := by
  cases e with
  | none => exact stops_nil
  | some e => exact stops_cons.mpr (by decide)

/-- The digits and the exponent can be read off the text. -/
theorem Numeral.text_inj (hm : m.IsDigits) (hn : n.IsDigits) (h : m.text = n.text) : m = n := by
  obtain ⟨whole, fraction, exponent⟩ := m
  obtain ⟨whole', fraction', exponent'⟩ := n
  have hstops (f : List Char) (e : Option ℤ) : Stops (fun c : Char => c.isDigit = true)
      ((if f = [] then [] else '.' :: f) ++ e.elim [] exponentText) := by
    split
    · exact stops_exponent e
    · exact stops_cons.mpr (by decide)
  simp only [Numeral.text, List.append_assoc] at h
  obtain ⟨rfl, htail⟩ := append_inj_of_stops hm.whole hn.whole (hstops _ _) (hstops _ _) h
  by_cases hf : fraction = []
  · by_cases hf' : fraction' = []
    · rw [if_pos hf, if_pos hf', List.nil_append, List.nil_append] at htail
      rw [hf, hf', exponent_elim_inj htail]
    · rw [if_pos hf, if_neg hf'] at htail
      cases exponent <;> simp [exponentText] at htail
  · by_cases hf' : fraction' = []
    · rw [if_neg hf, if_pos hf'] at htail
      cases exponent' <;> simp [exponentText] at htail
    · rw [if_neg hf, if_neg hf', List.cons_append, List.cons_append, List.cons.injEq] at htail
      obtain ⟨rfl, hexponent⟩ := append_inj_of_stops hm.fraction hn.fraction (stops_exponent _)
        (stops_exponent _) htail.2
      rw [exponent_elim_inj hexponent]

end Numerals

section Decimals

/-- The number `0.d₁d₂⋯ · 10^point`. -/
structure Decimal where
  negative : Bool
  digits : List Char
  point : ℤ
  isDigit : ∀ c ∈ digits, c.isDigit = true
  nonempty : digits ≠ []
  head_ne : digits.head? ≠ some '0'
  getLast_ne : digits.getLast? ≠ some '0'
  deriving DecidableEq

def Decimal.numeral (d : Decimal) : Numeral :=
  if d.digits.length ≤ d.point ∧ d.point ≤ 21 then
    ⟨d.digits ++ List.replicate (d.point - d.digits.length).toNat '0', [], none⟩
  else if 0 < d.point ∧ d.point ≤ 21 then
    ⟨d.digits.take d.point.toNat, d.digits.drop d.point.toNat, none⟩
  else if -6 < d.point ∧ d.point ≤ 0 then
    ⟨['0'], List.replicate (-d.point).toNat '0' ++ d.digits, none⟩
  else ⟨d.digits.take 1, d.digits.drop 1, some (d.point - 1)⟩

/-- The digits of a numeral without zeros at either end. -/
def Numeral.significant (n : Numeral) : List Char :=
  ((n.whole ++ n.fraction).dropWhile (· == '0')).rdropWhile (· == '0')

/-- The place of the point before the significant digits. -/
def Numeral.point (n : Numeral) : ℤ :=
  n.whole.length - ((n.whole ++ n.fraction).takeWhile (· == '0')).length + n.exponent.getD 0

private theorem mem_replicate_zero {n : ℕ} : ∀ c ∈ List.replicate n '0', (c == '0') = true := by
  intro c hc
  rw [List.eq_of_mem_replicate hc]
  rfl

theorem Decimal.exists_digits (d : Decimal) : ∃ c cs, d.digits = c :: cs ∧ (c == '0') = false := by
  obtain ⟨c, cs, hcs⟩ := List.exists_cons_of_ne_nil d.nonempty
  have hhead := d.head_ne
  rw [hcs] at hhead
  exact ⟨c, cs, hcs, by simpa using hhead⟩

private theorem rdropWhile_zeros (d : Decimal) (n : ℕ) :
    (d.digits ++ List.replicate n '0').rdropWhile (· == '0') = d.digits := by
  rw [List.rdropWhile, List.reverse_append, List.reverse_replicate,
    List.dropWhile_append_of_pos mem_replicate_zero]
  show d.digits.rdropWhile (· == '0') = d.digits
  rw [List.rdropWhile_eq_self_iff]
  intro hne hlast
  apply d.getLast_ne
  rw [List.getLast?_eq_some_getLast hne, eq_of_beq hlast]

private theorem Numeral.eq_of_digits {n : Numeral} {d : Decimal} {a b : ℕ}
    (h : n.whole ++ n.fraction = List.replicate a '0' ++ (d.digits ++ List.replicate b '0'))
    (hpoint : (n.whole.length : ℤ) - a + n.exponent.getD 0 = d.point) :
    n.significant = d.digits ∧ n.point = d.point := by
  obtain ⟨c, cs, hcs, hc⟩ := d.exists_digits
  have hdrop (ds : List Char) : (d.digits ++ ds).dropWhile (· == '0') = d.digits ++ ds := by
    rw [hcs, List.cons_append, List.dropWhile_cons_of_neg (by rw [hc]; decide)]
  have htake (ds : List Char) : (d.digits ++ ds).takeWhile (· == '0') = [] := by
    rw [hcs, List.cons_append, List.takeWhile_cons_of_neg (by rw [hc]; decide)]
  constructor
  · rw [significant, h, List.dropWhile_append_of_pos mem_replicate_zero, hdrop, rdropWhile_zeros]
  · rw [point, h, List.takeWhile_append_of_pos mem_replicate_zero, htake, List.append_nil,
      List.length_replicate, hpoint]

theorem Decimal.numeral_spec (d : Decimal) :
    d.numeral.significant = d.digits ∧ d.numeral.point = d.point := by
  have hlength : 0 < d.digits.length := List.length_pos_iff.mpr d.nonempty
  unfold numeral
  split_ifs with hlarge hmiddle hsmall
  · apply Numeral.eq_of_digits (a := 0) (b := (d.point - d.digits.length).toNat)
    · simp
    · simp
      omega
  · apply Numeral.eq_of_digits (a := 0) (b := 0)
    · simp
    · simp
      omega
  · apply Numeral.eq_of_digits (a := 1 + (-d.point).toNat) (b := 0)
    · simp [List.replicate_add]
    · simp
      omega
  · apply Numeral.eq_of_digits (a := 0) (b := 0)
    · rw [List.take_append_drop]
      simp
    · simp
      omega

theorem Decimal.isDigits_numeral (d : Decimal) : d.numeral.IsDigits := by
  have hzero (n : ℕ) : ∀ c ∈ List.replicate n '0', c.isDigit = true := by
    intro c hc
    rw [List.eq_of_mem_replicate hc]
    decide
  have hdigit := d.isDigit
  unfold numeral
  split_ifs
  · constructor
    · intro c hc
      exact (List.mem_append.mp hc).elim (hdigit c) (hzero _ c)
    · simp
  · exact ⟨fun c hc => hdigit c (List.mem_of_mem_take hc),
      fun c hc => hdigit c (List.mem_of_mem_drop hc)⟩
  · constructor
    · intro c hc
      rw [List.mem_singleton.mp hc]
      decide
    · intro c hc
      exact (List.mem_append.mp hc).elim (hzero _ c) (hdigit c)
  · exact ⟨fun c hc => hdigit c (List.mem_of_mem_take hc),
      fun c hc => hdigit c (List.mem_of_mem_drop hc)⟩

theorem Decimal.whole_ne_nil (d : Decimal) : d.numeral.whole ≠ [] := by
  have hlength := List.length_pos_iff.mpr d.nonempty
  unfold numeral
  split_ifs with hlarge hmiddle hsmall
  · simp [d.nonempty]
  · rw [← List.length_pos_iff, List.length_take]
    omega
  · simp
  · rw [← List.length_pos_iff, List.length_take]
    omega

/-- The text without its sign begins with a digit. -/
theorem Decimal.exists_numeral (d : Decimal) : ∃ c cs, d.numeral.text = c :: cs ∧
    c.isDigit = true := by
  obtain ⟨c, cs, hcs⟩ := List.exists_cons_of_ne_nil d.whole_ne_nil
  refine ⟨c, cs ++ ((if d.numeral.fraction = [] then [] else '.' :: d.numeral.fraction) ++
    d.numeral.exponent.elim [] exponentText), ?_, ?_⟩
  · rw [Numeral.text, hcs, List.append_assoc, List.cons_append]
  · apply d.isDigits_numeral.whole
    rw [hcs]
    exact List.mem_cons_self

private theorem Decimal.eq_of_numeral {d e : Decimal} (hsign : d.negative = e.negative)
    (h : d.numeral.text = e.numeral.text) : d = e := by
  have hnumeral := Numeral.text_inj d.isDigits_numeral e.isDigits_numeral h
  have hdigits : d.digits = e.digits := by
    rw [← d.numeral_spec.1, hnumeral, e.numeral_spec.1]
  have hpoint : d.point = e.point := by
    rw [← d.numeral_spec.2, hnumeral, e.numeral_spec.2]
  obtain ⟨negative, digits, point, _, _, _, _⟩ := d
  obtain ⟨negative', digits', point', _, _, _, _⟩ := e
  obtain rfl : negative = negative' := hsign
  obtain rfl : digits = digits' := hdigits
  obtain rfl : point = point' := hpoint
  rfl

private theorem Decimal.numeral_text_ne_zero (d : Decimal) : d.numeral.text ≠ ['0'] := by
  intro h
  have hzero : (⟨['0'], [], none⟩ : Numeral).IsDigits := by
    constructor
    · exact List.forall_mem_singleton.mpr rfl
    · simp
  have hnumeral : d.numeral = ⟨['0'], [], none⟩ := Numeral.text_inj d.isDigits_numeral hzero h
  have hdigits := d.numeral_spec.1
  rw [hnumeral] at hdigits
  exact d.nonempty hdigits.symm

end Decimals

section Numbers

/-- A double-precision number, where zero has no sign. -/
inductive Number where
  | nan
  | infinity (negative : Bool)
  | zero
  | decimal (d : Decimal)
  deriving DecidableEq

namespace Number

def isFinite : Number → Bool
  | .nan | .infinity _ => false
  | .zero | .decimal _ => true

def isNegative : Number → Bool
  | .nan | .zero => false
  | .infinity negative => negative
  | .decimal d => d.negative

/-- The text of the absolute value. -/
def magnitude : Number → List Char
  | .nan => ['N', 'a', 'N']
  | .infinity _ => ['I', 'n', 'f', 'i', 'n', 'i', 't', 'y']
  | .zero => ['0']
  | .decimal d => d.numeral.text

def text (x : Number) : List Char := (if x.isNegative then ['-'] else []) ++ x.magnitude

variable {x y : Number}

private theorem isNumberChar_of_isDigit {c : Char} (h : c.isDigit = true) :
    isNumberChar c = true := by
  simp [isNumberChar, h]

private theorem isNumberChar_exponentText (n : ℤ) :
    ∀ c ∈ exponentText n, isNumberChar c = true := by
  intro c hc
  rw [exponentText, List.mem_cons, List.mem_cons] at hc
  rcases hc with rfl | rfl | hc
  · rfl
  · split_ifs <;> rfl
  · exact isNumberChar_of_isDigit (isDigit_toDigits c hc)

private theorem isNumberChar_numeral (d : Decimal) :
    ∀ c ∈ d.numeral.text, isNumberChar c = true := by
  intro c hc
  have hdigits := d.isDigits_numeral
  simp only [Numeral.text, List.mem_append] at hc
  rcases hc with (hc | hc) | hc
  · exact isNumberChar_of_isDigit (hdigits.whole c hc)
  · split_ifs at hc
    · cases hc
    · rcases List.mem_cons.mp hc with rfl | hc
      · rfl
      · exact isNumberChar_of_isDigit (hdigits.fraction c hc)
  · cases hexponent : d.numeral.exponent with
    | none => rw [hexponent] at hc; cases hc
    | some n =>
      rw [hexponent] at hc
      exact isNumberChar_exponentText n c hc

theorem isNumberChar_text (h : x.isFinite = true) : ∀ c ∈ x.text, isNumberChar c = true := by
  intro c hc
  rcases List.mem_append.mp hc with hc | hc
  · split_ifs at hc
    · rw [List.mem_singleton.mp hc]
      rfl
    · cases hc
  · cases x with
    | nan => cases h
    | infinity negative => cases h
    | zero =>
      rw [List.mem_singleton.mp hc]
      rfl
    | decimal d => exact isNumberChar_numeral d c hc

/-- The text of a finite number without its sign begins with a digit. -/
theorem exists_magnitude (h : x.isFinite = true) :
    ∃ c cs, x.magnitude = c :: cs ∧ c.isDigit = true := by
  cases x with
  | nan => cases h
  | infinity negative => cases h
  | zero => exact ⟨'0', [], rfl, rfl⟩
  | decimal d => exact d.exists_numeral

private theorem stops_magnitude (x : Number) : Stops (· = '-') x.magnitude := by
  cases x with
  | nan => exact stops_cons.mpr (by decide)
  | infinity negative => exact stops_cons.mpr (by decide)
  | zero => exact stops_cons.mpr (by decide)
  | decimal d =>
    obtain ⟨c, cs, hc, hdigit⟩ := d.exists_numeral
    rw [magnitude, hc, stops_cons]
    intro hminus
    rw [hminus] at hdigit
    exact absurd hdigit (by decide)

/-- The text of a number determines it. -/
theorem text_inj (h : x.text = y.text) : x = y := by
  have hsigns (z : Number) : ∀ c ∈ (if z.isNegative then ['-'] else []), c = '-' := by
    intro c hc
    split_ifs at hc
    · exact List.mem_singleton.mp hc
    · cases hc
  obtain ⟨hsign, hmagnitude⟩ := append_inj_of_stops (hsigns x) (hsigns y) (stops_magnitude x)
    (stops_magnitude y) h
  have hnegative : x.isNegative = y.isNegative := by
    cases hx : x.isNegative <;> cases hy : y.isNegative <;> simp [hx, hy] at hsign ⊢
  have hdigit (d : Decimal) {c : Char} {cs : List Char} (hc : c.isDigit = false)
      (heq : d.numeral.text = c :: cs) : False := by
    obtain ⟨c', cs', hc', htrue⟩ := d.exists_numeral
    rw [hc', List.cons.injEq] at heq
    rw [heq.1, hc] at htrue
    cases htrue
  cases x with
  | nan =>
    cases y with
    | nan => rfl
    | infinity _ => cases hmagnitude
    | zero => cases hmagnitude
    | decimal d => exact (hdigit d (by decide) hmagnitude.symm).elim
  | infinity negative =>
    cases y with
    | nan => cases hmagnitude
    | infinity negative' => rw [show negative = negative' from hnegative]
    | zero => cases hmagnitude
    | decimal d => exact (hdigit d (by decide) hmagnitude.symm).elim
  | zero =>
    cases y with
    | nan => cases hmagnitude
    | infinity _ => cases hmagnitude
    | zero => rfl
    | decimal d => exact absurd hmagnitude.symm d.numeral_text_ne_zero
  | decimal d =>
    cases y with
    | nan => exact (hdigit d (by decide) hmagnitude).elim
    | infinity _ => exact (hdigit d (by decide) hmagnitude).elim
    | zero => exact absurd hmagnitude d.numeral_text_ne_zero
    | decimal e => rw [Decimal.eq_of_numeral hnegative hmagnitude]

theorem text_append_inj {r s : List Char} (hx : x.isFinite = true) (hy : y.isFinite = true)
    (hr : Stops (isNumberChar · = true) r) (hs : Stops (isNumberChar · = true) s)
    (h : x.text ++ r = y.text ++ s) : x = y ∧ r = s := by
  obtain ⟨htext, hrest⟩ := append_inj_of_stops (isNumberChar_text hx) (isNumberChar_text hy) hr hs h
  exact ⟨text_inj htext, hrest⟩

end Number

end Numbers

end JsonRpcRelay.Framework

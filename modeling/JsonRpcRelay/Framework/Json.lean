import JsonRpcRelay.Framework.Decimal
import Mathlib.Data.List.Basic
import Mathlib.Tactic.IntervalCases
import Mathlib.Tactic.Push

/-!
# JSON values and their text

The values that a parser of JSON returns and the text that they are written as.  A number that
is too large for a double-precision number is parsed as an infinity, and written as `null`.
Apart from that the text determines the value, with the order of the properties.
-/

namespace JsonRpcRelay.Framework

inductive Json where
  | null
  | bool (b : Bool)
  | number (x : Number)
  | string (s : String)
  | array (items : List Json)
  | object (fields : List (String × Json))

namespace Json

section Text

/-- A character within quotes. -/
def escape (c : Char) : List Char :=
  if c = '"' ∨ c = '\\' then ['\\', c]
  else if c.toNat = 8 then ['\\', 'b']
  else if c.toNat = 9 then ['\\', 't']
  else if c.toNat = 10 then ['\\', 'n']
  else if c.toNat = 12 then ['\\', 'f']
  else if c.toNat = 13 then ['\\', 'r']
  else if c.toNat < 32 then
    ['\\', 'u', '0', '0', Nat.digitChar (c.toNat / 16), Nat.digitChar (c.toNat % 16)]
  else [c]

def quote (s : String) : List Char := '"' :: (s.toList.flatMap escape ++ ['"'])

mutual

def text : Json → List Char
  | .null => ['n', 'u', 'l', 'l']
  | .bool true => ['t', 'r', 'u', 'e']
  | .bool false => ['f', 'a', 'l', 's', 'e']
  | .number x => if x.isFinite then x.text else ['n', 'u', 'l', 'l']
  | .string s => quote s
  | .array [] => ['[', ']']
  | .array (x :: xs) => '[' :: (text x ++ itemsText xs)
  | .object [] => ['{', '}']
  | .object ((key, x) :: fields) => '{' :: (quote key ++ ':' :: (text x ++ fieldsText fields))

/-- The items behind the first one. -/
def itemsText : List Json → List Char
  | [] => [']']
  | x :: xs => ',' :: (text x ++ itemsText xs)

def fieldsText : List (String × Json) → List Char
  | [] => ['}']
  | (key, x) :: fields => ',' :: (quote key ++ ':' :: (text x ++ fieldsText fields))

end

def stringify (x : Json) : String := String.ofList x.text

mutual

/-- The value that is parsed from the text. -/
def plain : Json → Json
  | .number x => if x.isFinite then .number x else .null
  | .array items => .array (plainItems items)
  | .object fields => .object (plainFields fields)
  | x => x

def plainItems : List Json → List Json
  | [] => []
  | x :: xs => plain x :: plainItems xs

def plainFields : List (String × Json) → List (String × Json)
  | [] => []
  | (key, x) :: fields => (key, plain x) :: plainFields fields

end

end Text

section Strings

/-- The character that an escape stands for, and what follows it. -/
def readEscape : List Char → Option (Char × List Char)
  | [] => none
  | c :: r => if c = '\\' then readCode r else some (c, r)
where
  readCode : List Char → Option (Char × List Char)
    | 'b' :: r => some (Char.ofNat 8, r)
    | 't' :: r => some (Char.ofNat 9, r)
    | 'n' :: r => some (Char.ofNat 10, r)
    | 'f' :: r => some (Char.ofNat 12, r)
    | 'r' :: r => some (Char.ofNat 13, r)
    | 'u' :: _ :: _ :: a :: b :: r =>
        some (Char.ofNat (16 * hexValue a + hexValue b), r)
    | c :: r => some (c, r)
    | [] => none
  hexValue (c : Char) : ℕ := if c.isDigit then c.toNat - 48 else c.toNat - 87

private theorem readEscape_control {n : ℕ} (h : n < 32) (r : List Char) :
    readEscape (escape (Char.ofNat n) ++ r) = some (Char.ofNat n, r) := by
  interval_cases n <;> rfl

theorem escape_of_le {c : Char} (h : 32 ≤ c.toNat) :
    escape c = if c = '"' ∨ c = '\\' then ['\\', c] else [c] := by
  unfold escape
  rw [if_neg (show ¬c.toNat = 8 by omega), if_neg (show ¬c.toNat = 9 by omega),
    if_neg (show ¬c.toNat = 10 by omega), if_neg (show ¬c.toNat = 12 by omega),
    if_neg (show ¬c.toNat = 13 by omega), if_neg (show ¬c.toNat < 32 by omega)]

private theorem readEscape_escape (c : Char) (r : List Char) :
    readEscape (escape c ++ r) = some (c, r) := by
  by_cases hcontrol : c.toNat < 32
  · rw [← Char.ofNat_toNat c]
    exact readEscape_control hcontrol r
  · rw [escape_of_le (by omega)]
    split_ifs with hquote
    · rcases hquote with rfl | rfl <;> rfl
    · rw [not_or] at hquote
      simp [readEscape, hquote.2]

/-- No escape begins like the end of the text. -/
theorem exists_escape (c : Char) : ∃ d ds, escape c = d :: ds ∧ d ≠ '"' := by
  by_cases hcontrol : c.toNat < 32
  · have hbackslash : ∀ n < 32, (escape (Char.ofNat n)).head? = some '\\' := by decide
    have hhead := hbackslash c.toNat hcontrol
    rw [Char.ofNat_toNat] at hhead
    obtain ⟨ds, hds⟩ := List.head?_eq_some_iff.mp hhead
    exact ⟨'\\', ds, hds, by decide⟩
  · rw [escape_of_le (by omega)]
    split_ifs with hquote
    · exact ⟨'\\', [c], rfl, by decide⟩
    · rw [not_or] at hquote
      exact ⟨c, [], rfl, hquote.1⟩

private theorem escape_append_inj {c d : Char} {r s : List Char}
    (h : escape c ++ r = escape d ++ s) :
    c = d ∧ r = s := by
  have hread := readEscape_escape c r
  rw [h, readEscape_escape] at hread
  simp only [Option.some.injEq, Prod.mk.injEq] at hread
  exact ⟨hread.1.symm, hread.2.symm⟩

private theorem escapes_append_inj {as bs r s : List Char}
    (h : as.flatMap escape ++ '"' :: r = bs.flatMap escape ++ '"' :: s) : as = bs ∧ r = s := by
  induction as generalizing bs with
  | nil =>
    cases bs with
    | nil => exact ⟨rfl, (List.cons_eq_cons.mp h).2⟩
    | cons b bs =>
      obtain ⟨d, ds, hd, hne⟩ := exists_escape b
      rw [List.flatMap_cons, hd] at h
      exact absurd (List.cons_eq_cons.mp h).1.symm hne
  | cons a as ih =>
    cases bs with
    | nil =>
      obtain ⟨d, ds, hd, hne⟩ := exists_escape a
      rw [List.flatMap_cons, hd] at h
      exact absurd (List.cons_eq_cons.mp h).1 hne
    | cons b bs =>
      rw [List.flatMap_cons, List.flatMap_cons, List.append_assoc, List.append_assoc] at h
      obtain ⟨hab, hrest⟩ := escape_append_inj h
      obtain ⟨htail, hrs⟩ := ih hrest
      exact ⟨by rw [hab, htail], hrs⟩

private theorem quote_append_inj {a b : String} {r s : List Char}
    (h : quote a ++ r = quote b ++ s) :
    a = b ∧ r = s := by
  simp only [quote, List.cons_append, List.append_assoc, List.nil_append, List.cons.injEq,
    true_and] at h
  obtain ⟨hab, hrs⟩ := escapes_append_inj h
  exact ⟨String.toList_inj.mp hab, hrs⟩

end Strings

section Values

inductive Kind where
  | null
  | bool (b : Bool)
  | number
  | string
  | array
  | object
  deriving DecidableEq

/-- What a value is, as its first character tells. -/
def kindOf (c : Char) : Kind :=
  if c = 'n' then .null
  else if c = 't' then .bool true
  else if c = 'f' then .bool false
  else if c = '"' then .string
  else if c = '[' then .array
  else if c = '\x7b' then .object
  else .number

def kind : Json → Kind
  | .null => .null
  | .bool b => .bool b
  | .number x => if x.isFinite then .number else .null
  | .string _ => .string
  | .array _ => .array
  | .object _ => .object

theorem kindOf_number {c : Char} (h : c = '-' ∨ c.isDigit = true) :
    kindOf c = .number ∧ c ≠ ']' := by
  have hne (d : Char) (hd : d.isDigit = false) (hminus : d ≠ '-') : c ≠ d := by
    rintro rfl
    rw [hd] at h
    exact h.elim hminus Bool.false_ne_true
  unfold kindOf
  rw [if_neg (hne _ (by decide) (by decide)), if_neg (hne _ (by decide) (by decide)),
    if_neg (hne _ (by decide) (by decide)), if_neg (hne _ (by decide) (by decide)),
    if_neg (hne _ (by decide) (by decide)), if_neg (hne _ (by decide) (by decide))]
  exact ⟨rfl, hne _ (by decide) (by decide)⟩

theorem exists_numberText {x : Number} (h : x.isFinite = true) :
    ∃ c cs, x.text = c :: cs ∧ (c = '-' ∨ c.isDigit = true) := by
  obtain ⟨c, cs, hc, hdigit⟩ := Number.exists_magnitude h
  unfold Number.text
  cases x.isNegative with
  | false => exact ⟨c, cs, hc, .inr hdigit⟩
  | true => exact ⟨'-', _, rfl, .inl rfl⟩

theorem exists_text (x : Json) : ∃ c cs, x.text = c :: cs ∧ kindOf c = x.kind ∧ c ≠ ']' := by
  match x with
  | .null => exact ⟨_, _, rfl, rfl, by decide⟩
  | .bool true => exact ⟨_, _, rfl, rfl, by decide⟩
  | .bool false => exact ⟨_, _, rfl, rfl, by decide⟩
  | .string s => exact ⟨_, _, rfl, rfl, by decide⟩
  | .array [] => exact ⟨_, _, rfl, rfl, by decide⟩
  | .array (x :: xs) => exact ⟨_, _, rfl, rfl, by decide⟩
  | .object [] => exact ⟨_, _, rfl, rfl, by decide⟩
  | .object ((key, x) :: fields) => exact ⟨_, _, rfl, rfl, by decide⟩
  | .number x =>
    simp only [text, kind]
    split_ifs with hfinite
    · obtain ⟨c, cs, hc, hnumber⟩ := exists_numberText hfinite
      exact ⟨c, cs, hc, kindOf_number hnumber⟩
    · exact ⟨_, _, rfl, rfl, by decide⟩

private theorem kind_eq {x y : Json} {r s : List Char} (h : x.text ++ r = y.text ++ s) :
    y.kind = x.kind := by
  obtain ⟨c, cs, hc, hx, _⟩ := exists_text x
  obtain ⟨d, ds, hd, hy, _⟩ := exists_text y
  rw [hc, hd] at h
  rw [← hx, ← hy, (List.cons_eq_cons.mp h).1]

/-- The values of a kind. -/
def OfKind : Kind → Json → Prop
  | .null, y => y.plain = .null ∧ y.text = ['n', 'u', 'l', 'l']
  | .bool b, y => y = .bool b
  | .number, y => ∃ x : Number, y = .number x ∧ x.isFinite = true
  | .string, y => ∃ s, y = .string s
  | .array, y => ∃ items, y = .array items
  | .object, y => ∃ fields, y = .object fields

private theorem ofKind_kind (y : Json) : OfKind y.kind y := by
  cases y with
  | null => exact ⟨rfl, rfl⟩
  | bool b => exact rfl
  | number x =>
    by_cases hfinite : x.isFinite = true
    · simp [kind, hfinite, OfKind]
    · simp [kind, hfinite, OfKind, plain, text]
  | string s => exact ⟨s, rfl⟩
  | array items => exact ⟨items, rfl⟩
  | object fields => exact ⟨fields, rfl⟩

private theorem ofKind_of_text {x y : Json} {r s : List Char} (h : x.text ++ r = y.text ++ s) :
    OfKind x.kind y := by
  rw [← kind_eq h]
  exact ofKind_kind y

end Values

section Injectivity

/-- No number goes on with what follows. -/
abbrev Ends (r : List Char) : Prop := Stops (isNumberChar · = true) r

private theorem ends_itemsText (xs : List Json) (r : List Char) : Ends (itemsText xs ++ r) := by
  cases xs with
  | nil => exact stops_cons.mpr (by decide)
  | cons x xs => exact stops_cons.mpr (by decide)

private theorem ends_fieldsText (fields : List (String × Json)) (r : List Char) :
    Ends (fieldsText fields ++ r) := by
  cases fields with
  | nil => exact stops_cons.mpr (by decide)
  | cons field fields => exact stops_cons.mpr (by decide)

mutual

/-- The text determines the value that is parsed from it, and where it ends. -/
theorem text_append_inj (x y : Json) {r s : List Char} (hr : Ends r) (hs : Ends s)
    (h : x.text ++ r = y.text ++ s) : x.plain = y.plain ∧ r = s := by
  have hkind := ofKind_of_text h
  match x with
  | .null =>
    obtain ⟨hplain, htext⟩ := hkind
    rw [htext] at h
    exact ⟨hplain.symm, List.append_cancel_left h⟩
  | .bool b =>
    obtain rfl := hkind
    exact ⟨rfl, List.append_cancel_left h⟩
  | .number n =>
    by_cases hfinite : n.isFinite = true
    · simp only [kind, hfinite, if_true] at hkind
      obtain ⟨m, rfl, hm⟩ := hkind
      simp only [text, hfinite, hm, if_true] at h
      obtain ⟨rfl, hrs⟩ := Number.text_append_inj hfinite hm hr hs h
      exact ⟨rfl, hrs⟩
    · simp only [kind, hfinite, OfKind] at hkind
      obtain ⟨hplain, htext⟩ := hkind
      simp only [text, hfinite] at h
      rw [htext] at h
      simp only [plain, hfinite]
      exact ⟨hplain.symm, List.append_cancel_left h⟩
  | .string a =>
    obtain ⟨b, rfl⟩ := hkind
    obtain ⟨rfl, hrs⟩ := quote_append_inj h
    exact ⟨rfl, hrs⟩
  | .array xs =>
    obtain ⟨ys, rfl⟩ := hkind
    obtain ⟨hitems, hrs⟩ := array_append_inj xs ys h
    exact ⟨by rw [plain, plain, hitems], hrs⟩
  | .object fields =>
    obtain ⟨fields', rfl⟩ := hkind
    obtain ⟨hfields, hrs⟩ := object_append_inj fields fields' h
    exact ⟨by rw [plain, plain, hfields], hrs⟩

private theorem array_append_inj (xs ys : List Json) {r s : List Char}
    (h : (Json.array xs).text ++ r = (Json.array ys).text ++ s) :
    plainItems xs = plainItems ys ∧ r = s := by
  match xs, ys with
  | [], [] => exact ⟨rfl, List.append_cancel_left h⟩
  | [], y :: ys =>
    obtain ⟨c, cs, hc, _, hne⟩ := exists_text y
    simp only [text, hc, List.cons_append, List.cons.injEq, true_and] at h
    exact absurd h.1.symm hne
  | x :: xs, [] =>
    obtain ⟨c, cs, hc, _, hne⟩ := exists_text x
    simp only [text, hc, List.cons_append, List.cons.injEq, true_and] at h
    exact absurd h.1 hne
  | x :: xs, y :: ys =>
    simp only [text, List.cons_append, List.append_assoc, List.cons.injEq, true_and] at h
    obtain ⟨hx, hrest⟩ :=
      text_append_inj x y (ends_itemsText xs r) (ends_itemsText ys s) h
    obtain ⟨hxs, hrs⟩ := items_append_inj xs ys hrest
    exact ⟨by rw [plainItems, plainItems, hx, hxs], hrs⟩

private theorem items_append_inj (xs ys : List Json) {r s : List Char}
    (h : itemsText xs ++ r = itemsText ys ++ s) : plainItems xs = plainItems ys ∧ r = s := by
  match xs, ys with
  | [], [] => exact ⟨rfl, List.append_cancel_left h⟩
  | [], y :: ys => exact absurd (List.cons_eq_cons.mp h).1 (by decide)
  | x :: xs, [] => exact absurd (List.cons_eq_cons.mp h).1 (by decide)
  | x :: xs, y :: ys =>
    simp only [itemsText, List.cons_append, List.append_assoc, List.cons.injEq, true_and] at h
    obtain ⟨hx, hrest⟩ :=
      text_append_inj x y (ends_itemsText xs r) (ends_itemsText ys s) h
    obtain ⟨hxs, hrs⟩ := items_append_inj xs ys hrest
    exact ⟨by rw [plainItems, plainItems, hx, hxs], hrs⟩

private theorem object_append_inj (fields fields' : List (String × Json)) {r s : List Char}
    (h : (Json.object fields).text ++ r = (Json.object fields').text ++ s) :
    plainFields fields = plainFields fields' ∧ r = s := by
  match fields, fields' with
  | [], [] => exact ⟨rfl, List.append_cancel_left h⟩
  | [], (key, y) :: fields' =>
    simp only [text, quote, List.cons_append, List.cons.injEq, true_and] at h
    exact absurd h.1 (by decide)
  | (key, x) :: fields, [] =>
    simp only [text, quote, List.cons_append, List.cons.injEq, true_and] at h
    exact absurd h.1 (by decide)
  | (key, x) :: fields, (key', y) :: fields' =>
    simp only [text, List.cons_append, List.append_assoc, List.cons.injEq, true_and] at h
    obtain ⟨rfl, hvalue⟩ := quote_append_inj h
    obtain ⟨hx, hrest⟩ := text_append_inj x y (ends_fieldsText fields r)
      (ends_fieldsText fields' s) (List.cons_eq_cons.mp hvalue).2
    obtain ⟨hfields, hrs⟩ := fields_append_inj fields fields' hrest
    exact ⟨by rw [plainFields, plainFields, hx, hfields], hrs⟩

private theorem fields_append_inj (fields fields' : List (String × Json)) {r s : List Char}
    (h : fieldsText fields ++ r = fieldsText fields' ++ s) :
    plainFields fields = plainFields fields' ∧ r = s := by
  match fields, fields' with
  | [], [] => exact ⟨rfl, List.append_cancel_left h⟩
  | [], (key, y) :: fields' => exact absurd (List.cons_eq_cons.mp h).1 (by decide)
  | (key, x) :: fields, [] => exact absurd (List.cons_eq_cons.mp h).1 (by decide)
  | (key, x) :: fields, (key', y) :: fields' =>
    simp only [fieldsText, List.cons_append, List.append_assoc, List.cons.injEq, true_and] at h
    obtain ⟨rfl, hvalue⟩ := quote_append_inj h
    obtain ⟨hx, hrest⟩ := text_append_inj x y (ends_fieldsText fields r)
      (ends_fieldsText fields' s) (List.cons_eq_cons.mp hvalue).2
    obtain ⟨hfields, hrs⟩ := fields_append_inj fields fields' hrest
    exact ⟨by rw [plainFields, plainFields, hx, hfields], hrs⟩

end

mutual

@[simp] theorem text_plain (x : Json) : x.plain.text = x.text := by
  match x with
  | .null => rfl
  | .bool b => rfl
  | .string s => rfl
  | .number n => by_cases hfinite : n.isFinite = true <;> simp [plain, text, hfinite]
  | .array [] => rfl
  | .array (x :: xs) => simp [plain, plainItems, text, text_plain x, itemsText_plain xs]
  | .object [] => rfl
  | .object ((key, x) :: fields) =>
    simp [plain, plainFields, text, text_plain x, fieldsText_plain fields]

private theorem itemsText_plain (xs : List Json) : itemsText (plainItems xs) = itemsText xs := by
  match xs with
  | [] => rfl
  | x :: xs => simp [plainItems, itemsText, text_plain x, itemsText_plain xs]

private theorem fieldsText_plain (fields : List (String × Json)) :
    fieldsText (plainFields fields) = fieldsText fields := by
  match fields with
  | [] => rfl
  | (key, x) :: fields => simp [plainFields, fieldsText, text_plain x, fieldsText_plain fields]

end

end Injectivity

section Properties

/-- An own property. -/
def field? (key : String) : Json → Option Json
  | .object fields => fields.lookup key
  | _ => none

def isNull : Json → Bool
  | .null => true
  | _ => false

mutual

/-- The text that a value is coerced to where a string is expected. -/
def toText : Json → List Char
  | .null => ['n', 'u', 'l', 'l']
  | .bool true => ['t', 'r', 'u', 'e']
  | .bool false => ['f', 'a', 'l', 's', 'e']
  | .number x => x.text
  | .string s => s.toList
  | .array [] => []
  | .array (x :: xs) => (if x.isNull then [] else toText x) ++ joinText xs
  | .object _ => "[object Object]".toList

/-- The items behind the first one, where `null` is left out. -/
def joinText : List Json → List Char
  | [] => []
  | x :: xs => ',' :: ((if x.isNull then [] else toText x) ++ joinText xs)

end

mutual

/-- Whether a value can be coerced to a string: not an object with its own `toString`, which
cannot be called. -/
def isPrintable : Json → Bool
  | .array items => itemsPrintable items
  | .object fields => (fields.lookup "toString").isNone
  | _ => true

def itemsPrintable : List Json → Bool
  | [] => true
  | x :: xs => isPrintable x && itemsPrintable xs

end

@[simp] theorem toText_string (s : String) : (Json.string s).toText = s.toList := rfl

end Properties

example : stringify (.object [("a\n", .array [.number .zero, .number (.infinity false)])]) =
    "\x7b\"a\\n\":[0,null]\x7d" := by decide

end Json

end JsonRpcRelay.Framework

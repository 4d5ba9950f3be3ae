import JsonRpcRelay.Framework.LooseSlots
import Mathlib.Data.Char

/-!
# Patterns for keys

How Redis reads the text of a pattern, and how `RegExp` reads the text of an expression.  Texts are
lists of characters.  Of the expressions, those are read here that have no groups, alternatives,
assertions and counted repetitions, no quantifier but `*`, and no escape that stands for anything
but the character behind the backslash.
-/

namespace JsonRpcRelay.Clients.KeyPatterns

open Framework

abbrev Text := List Char

/-- The characters between some bounds, or all others. -/
structure CharClass where
  negated : Bool
  ranges : List (Char × Char)

namespace CharClass

def has (k : CharClass) (c : Char) : Bool :=
  k.negated != k.ranges.any fun range => range.1 ≤ c ∧ c ≤ range.2

def add (k : CharClass) (first last : Char) : CharClass :=
  { k with ranges := k.ranges ++ [(first, last)] }

end CharClass

/-- `stringmatchlen` of Redis, in a class or outside.  The bounds of a range come in any order, and
the text may end within a class. -/
@[simp] def globSlots : Option CharClass → Text → List (Slot Char)
  | none, [] => []
  | none, '*' :: rest => .many (fun _ => true) :: globSlots none rest
  | none, '?' :: rest => .one (fun _ => true) :: globSlots none rest
  | none, '[' :: '^' :: rest => globSlots (some ⟨true, []⟩) rest
  | none, '[' :: rest => globSlots (some ⟨false, []⟩) rest
  | none, '\\' :: c :: rest => .one (· == c) :: globSlots none rest
  | none, c :: rest => .one (· == c) :: globSlots none rest
  | some k, [] => [.one k.has]
  | some k, '\\' :: c :: rest => globSlots (some (k.add c c)) rest
  | some k, ']' :: rest => .one k.has :: globSlots none rest
  | some k, a :: '-' :: b :: rest =>
    globSlots (some (if b < a then k.add b a else k.add a b)) rest
  | some k, a :: rest => globSlots (some (k.add a a)) rest

inductive RegExpError where
  | syntaxError
  /-- The expression uses what is not read here. -/
  | notRead

def isLineTerminator (c : Char) : Bool :=
  c = '\n' || c = '\r' || c = '\u2028' || c = '\u2029'

/-- The characters that a dot stands for. -/
def dot (c : Char) : Bool := !isLineTerminator c

def isHexDigit (c : Char) : Bool :=
  c.isDigit || ('a' ≤ c && c ≤ 'f') || ('A' ≤ c && c ≤ 'F')

/-- Whether a text begins with some number of hexadecimal digits. -/
def hexDigits : ℕ → Text → Bool
  | 0, _ => true
  | _ + 1, [] => false
  | n + 1, c :: rest => isHexDigit c && hexDigits n rest

/-- Whether an escape stands for something other than the character itself. -/
def escapeMeans (inClass : Bool) (c : Char) (rest : Text) : Bool :=
  "bcdDfnrsStvwW01234567".toList.contains c || (c = 'B' && !inClass) ||
    (c = 'x' && hexDigits 2 rest) || (c = 'u' && hexDigits 4 rest)

/-- The rest of a counted repetition. -/
def countEnds (comma : Bool) : Text → Bool
  | [] => false
  | c :: rest =>
    if c.isDigit then countEnds comma rest
    else c = '}' || (c = ',' && !comma && countEnds true rest)

/-- Whether the text behind a brace makes it a counted repetition. -/
def counted : Text → Bool
  | [] => false
  | c :: rest => c.isDigit && countEnds false rest

/-- Whether a hyphen makes a range of the character before it and one behind. -/
def opensRange : Text → Bool
  | '-' :: b :: _ => b ≠ ']'
  | _ => false

/-- The slots of an expression behind those that have been read, which come last first. -/
@[simp] def regExpSlots (done : List (Slot Char)) :
    Option CharClass → Text → Except RegExpError (List (Slot Char))
  | none, [] => .ok done.reverse
  | none, '.' :: rest => regExpSlots (.one dot :: done) none rest
  | none, '*' :: rest =>
    match done with
    | .one set :: done => regExpSlots (.many set :: done) none rest
    | _ => .error .syntaxError
  | none, '[' :: '^' :: rest => regExpSlots done (some ⟨true, []⟩) rest
  | none, '[' :: rest => regExpSlots done (some ⟨false, []⟩) rest
  | none, ['\\'] => .error .syntaxError
  | none, '\\' :: c :: rest =>
    if escapeMeans false c rest then .error .notRead
    else regExpSlots (.one (· == c) :: done) none rest
  | none, c :: rest =>
    if "^$+?()|".toList.contains c || (c = '{' && counted rest) then .error .notRead
    else regExpSlots (.one (· == c) :: done) none rest
  | some _, [] => .error .syntaxError
  | some k, ']' :: rest => regExpSlots (.one k.has :: done) none rest
  | some _, ['\\'] => .error .syntaxError
  | some k, '\\' :: c :: rest =>
    if escapeMeans true c rest || opensRange rest then .error .notRead
    else regExpSlots done (some (k.add c c)) rest
  | some k, a :: '-' :: b :: rest =>
    if b = ']' then regExpSlots done (some (k.add a a)) ('-' :: b :: rest)
    else if b = '\\' then .error .notRead
    else if b < a then .error .syntaxError
    else regExpSlots done (some (k.add a b)) rest
  | some k, a :: rest => regExpSlots done (some (k.add a a)) rest

/-- What stands between the brackets of a class. -/
inductive ClassItem where
  | single (c : Char)
  | escaped (c : Char)
  | range (first last : Char)

/-- What a pattern is built from. -/
inductive Piece where
  | literal (c : Char)
  | escaped (c : Char)
  | any
  | star
  | set (negated : Bool) (items : List ClassItem)

namespace ClassItem

def text : ClassItem → Text
  | .single c => [c]
  | .escaped c => ['\\', c]
  | .range first last => [first, '-', last]

def bounds : ClassItem → Char × Char
  | .single c | .escaped c => (c, c)
  | .range first last => (first, last)

end ClassItem

namespace Piece

def text : Piece → Text
  | .literal c => [c]
  | .escaped c => ['\\', c]
  | .any => ['?']
  | .star => ['*']
  | .set negated items =>
    '[' :: ((if negated then ['^'] else []) ++ items.flatMap ClassItem.text ++ [']'])

/-- The expression that should say the same. -/
def regExpText : Piece → Text
  | .any => ['.']
  | .star => ['.', '*']
  | piece => piece.text

/-- What a piece stands for to Redis, or nothing if it stands for any number of characters. -/
def glob : Piece → Option (Char → Bool)
  | .literal c | .escaped c => some (· == c)
  | .any => some Slot.full
  | .star => none
  | .set negated items => some (CharClass.has ⟨negated, items.map ClassItem.bounds⟩)

/-- What it stands for in the expression, where an ordinary dot is a wildcard too. -/
def regExp : Piece → Option (Char → Bool)
  | .literal c => some (if c = '.' then dot else (· == c))
  | .any => some dot
  | piece => piece.glob

/-- There is no character in the class. -/
def IsEmpty (piece : Piece) : Prop := ∃ set, piece.glob = some set ∧ ∀ c, set c = false

end Piece

/-- Redis and `RegExp` read this item before the text of the items behind it. -/
def ClassItem.Plain (rest : Text) : ClassItem → Prop
  | .single c => "]\\*?".toList.contains c = false ∧ rest.head? ≠ some '-'
  | .escaped c => escapeMeans true c rest = false ∧ (rest.head? = some '-' → rest = ['-'])
  | .range first last => "]\\*?".toList.contains first = false ∧
      "]\\*?".toList.contains last = false ∧ first ≤ last

def PlainItems : List ClassItem → Prop
  | [] => True
  | item :: items => item.Plain (items.flatMap ClassItem.text) ∧ PlainItems items

/-- Redis and `RegExp` read this piece before the text of the pieces behind it. -/
def Piece.Plain (rest : Text) : Piece → Prop
  | .literal c => "*?[\\^$+()|".toList.contains c = false ∧ (c = '{' → counted rest = false)
  | .escaped c => escapeMeans false c rest = false ∧
      (c = '\\' → rest.head? ≠ some '*' ∧ rest.head? ≠ some '?')
  | .any | .star => True
  | .set negated items => PlainItems items ∧
      (negated = false → (items.flatMap ClassItem.text).head? ≠ some '^')

def PlainPieces : List Piece → Prop
  | [] => True
  | piece :: pieces => piece.Plain (pieces.flatMap Piece.text) ∧ PlainPieces pieces

section Glob

variable {k : CharClass} {a b c : Char} {rest : Text}

private theorem globSlots_single (hclose : c ≠ ']') (hescape : c ≠ '\\')
    (hrest : rest.head? ≠ some '-') :
    globSlots (some k) (c :: rest) = globSlots (some (k.add c c)) rest := by
  rw [globSlots] <;> simp_all
  rintro b rest rfl
  exact hrest rfl

private theorem globSlots_range (hclose : a ≠ ']') (hescape : a ≠ '\\') :
    globSlots (some k) (a :: '-' :: b :: rest) =
      globSlots (some (if b < a then k.add b a else k.add a b)) rest := by
  rw [globSlots] <;> simp_all

private theorem globSlots_escaped : globSlots (some k) ('\\' :: c :: rest) =
    globSlots (some (k.add c c)) rest := by
  rw [globSlots]

private theorem globSlots_literal (h : "*?[\\".toList.contains c = false) :
    globSlots none (c :: rest) = .one (· == c) :: globSlots none rest := by
  rw [globSlots] <;> simp_all

theorem globSlots_eq_spread (k : Option CharClass) (text : Text) :
    ∃ row, globSlots k text = Slot.spread Slot.full row := by
  have hcons (p : Option (Char → Bool)) {slots : List (Slot Char)}
      (h : ∃ row, slots = Slot.spread Slot.full row) :
      ∃ row, Slot.place Slot.full p :: slots = Slot.spread Slot.full row := by
    obtain ⟨row, rfl⟩ := h
    exact ⟨p :: row, rfl⟩
  fun_induction globSlots k text with
  | case1 => exact ⟨[], rfl⟩
  | case2 rest ih => exact hcons none ih
  | case3 rest ih => exact hcons (some Slot.full) ih
  | case4 rest ih => exact ih
  | case5 rest _ ih => exact ih
  | case6 c rest ih => exact hcons (some (· == c)) ih
  | case7 c rest _ _ _ _ _ ih => exact hcons (some (· == c)) ih
  | case8 k => exact ⟨[some k.has], rfl⟩
  | case9 k c rest ih => exact ih
  | case10 k rest ih => exact hcons (some k.has) ih
  | case11 k a b rest _ _ ih => exact ih
  | case12 k a rest _ _ _ ih => exact ih

end Glob

section RegExp

variable {k : CharClass} {a b c : Char} {rest : Text} {done : List (Slot Char)}

private theorem regExpSlots_single (hclose : c ≠ ']') (hescape : c ≠ '\\')
    (hrest : rest.head? ≠ some '-') :
    regExpSlots done (some k) (c :: rest) = regExpSlots done (some (k.add c c)) rest := by
  rw [regExpSlots] <;> simp_all
  rintro b rest rfl
  exact hrest rfl

private theorem regExpSlots_range (hclose : a ≠ ']') (hescape : a ≠ '\\') (hb : b ≠ ']')
    (hb' : b ≠ '\\') (hle : a ≤ b) : regExpSlots done (some k) (a :: '-' :: b :: rest) =
      regExpSlots done (some (k.add a b)) rest := by
  rw [regExpSlots, if_neg hb, if_neg hb', if_neg (not_lt.mpr hle)] <;> simp_all

private theorem regExpSlots_escaped (hmeans : escapeMeans true c rest = false)
    (hrange : opensRange rest = false) : regExpSlots done (some k) ('\\' :: c :: rest) =
      regExpSlots done (some (k.add c c)) rest := by
  rw [regExpSlots]
  simp_all

private theorem regExpSlots_literal (h : "*?[\\^$+()|".toList.contains c = false)
    (hbrace : c = '{' → counted rest = false) :
    regExpSlots done none (c :: rest) =
      regExpSlots (.one (if c = '.' then dot else (· == c)) :: done) none rest := by
  by_cases hdot : c = '.'
  · subst hdot
    rfl
  · rw [if_neg hdot, regExpSlots] <;> simp_all

end RegExp

section Classes

variable {items : List ClassItem} {k : CharClass} {c : Char} {text rest : Text}

@[simp] theorem add_add_ranges (first last : Char) (ranges : List (Char × Char)) :
    ({ k.add first last with ranges := (k.add first last).ranges ++ ranges } : CharClass) =
      { k with ranges := k.ranges ++ (first, last) :: ranges } := by
  simp [CharClass.add]

private theorem hexDigits_close {n : ℕ} : hexDigits n (text ++ ']' :: rest) = hexDigits n text := by
  induction text generalizing n with
  | nil =>
    cases n with
    | zero => rfl
    | succ n => rfl
  | cons d text ih =>
    cases n with
    | zero => rfl
    | succ n => simp [hexDigits, ih]

private theorem escapeMeans_close :
    escapeMeans true c (text ++ ']' :: rest) = escapeMeans true c text := by
  simp [escapeMeans, hexDigits_close]

private theorem head?_close (h : text.head? ≠ some '-') :
    (text ++ ']' :: rest).head? ≠ some '-' := by
  cases text with
  | nil => simp
  | cons d text => exact h

private theorem opensRange_close (h : text.head? = some '-' → text = ['-']) :
    opensRange (text ++ ']' :: rest) = false := by
  cases text with
  | nil => rfl
  | cons d text =>
    by_cases hd : d = '-'
    · rw [h (by rw [hd]; rfl)]
      rfl
    · rw [List.cons_append, opensRange]
      simp [hd]

private theorem not_close_of_plain (h : "]\\*?".toList.contains c = false) :
    c ≠ ']' ∧ c ≠ '\\' := by
  simp_all

/-- Redis reads a class up to its bracket. -/
theorem globSlots_class (h : PlainItems items) :
    globSlots (some k) (items.flatMap ClassItem.text ++ ']' :: rest) =
      .one (CharClass.has { k with ranges := k.ranges ++ items.map ClassItem.bounds }) ::
        globSlots none rest := by
  induction items generalizing k with
  | nil => simp [globSlots]
  | cons item items ih =>
    obtain ⟨hitem, hitems⟩ := h
    rw [List.map_cons, ← add_add_ranges, ← ih hitems]
    cases item with
    | single c =>
      obtain ⟨hclose, hescape⟩ := not_close_of_plain hitem.1
      exact globSlots_single hclose hescape (head?_close hitem.2)
    | escaped c => exact globSlots_escaped
    | range first last =>
      obtain ⟨hclose, hescape⟩ := not_close_of_plain hitem.1
      refine (globSlots_range hclose hescape).trans ?_
      rw [if_neg (not_lt.mpr hitem.2.2)]
      rfl

private theorem regExpSlots_class {done : List (Slot Char)} (h : PlainItems items) :
    regExpSlots done (some k) (items.flatMap ClassItem.text ++ ']' :: rest) =
      regExpSlots (.one (CharClass.has { k with ranges := k.ranges ++ items.map ClassItem.bounds })
        :: done) none rest := by
  induction items generalizing k with
  | nil => simp [regExpSlots]
  | cons item items ih =>
    obtain ⟨hitem, hitems⟩ := h
    rw [List.map_cons, ← add_add_ranges, ← ih hitems]
    cases item with
    | single c =>
      obtain ⟨hclose, hescape⟩ := not_close_of_plain hitem.1
      exact regExpSlots_single hclose hescape (head?_close hitem.2)
    | escaped c =>
      exact regExpSlots_escaped (escapeMeans_close.trans hitem.1) (opensRange_close hitem.2)
    | range first last =>
      obtain ⟨hclose, hescape⟩ := not_close_of_plain hitem.1
      obtain ⟨hclose', hescape'⟩ := not_close_of_plain hitem.2.1
      exact regExpSlots_range hclose hescape hclose' hescape' hitem.2.2

end Classes

section Pieces

variable {pieces : List Piece} {c : Char} {rest : Text}

/-- The texts of the pieces begin with the same characters as far as an escape or a repetition is
read ahead. -/
theorem hexDigits_regExpText {n : ℕ} : hexDigits n (pieces.flatMap Piece.regExpText) =
    hexDigits n (pieces.flatMap Piece.text) := by
  induction pieces generalizing n with
  | nil => rfl
  | cons piece pieces ih =>
    cases n with
    | zero => simp [hexDigits]
    | succ n =>
      cases piece with
      | literal c => simp [Piece.regExpText, Piece.text, hexDigits, ih]
      | escaped c => rfl
      | any => rfl
      | star => rfl
      | set negated items => rfl

private theorem countEnds_regExpText {comma : Bool} :
    countEnds comma (pieces.flatMap Piece.regExpText) =
      countEnds comma (pieces.flatMap Piece.text) := by
  induction pieces generalizing comma with
  | nil => rfl
  | cons piece pieces ih =>
    cases piece with
    | literal c => simp [Piece.regExpText, Piece.text, countEnds, ih]
    | escaped c => simp [Piece.regExpText, Piece.text, countEnds]
    | any => simp [Piece.regExpText, Piece.text, countEnds]
    | star => simp [Piece.regExpText, Piece.text, countEnds]
    | set negated items => simp [Piece.regExpText, Piece.text, countEnds]

private theorem counted_regExpText : counted (pieces.flatMap Piece.regExpText) =
    counted (pieces.flatMap Piece.text) := by
  cases pieces with
  | nil => rfl
  | cons piece pieces =>
    cases piece with
    | literal c => simp [Piece.regExpText, Piece.text, counted, countEnds_regExpText]
    | escaped c => rfl
    | any => rfl
    | star => rfl
    | set negated items => rfl

private theorem escapeMeans_regExpText {inClass : Bool} :
    escapeMeans inClass c (pieces.flatMap Piece.regExpText) =
      escapeMeans inClass c (pieces.flatMap Piece.text) := by
  simp [escapeMeans, hexDigits_regExpText]

theorem text_set_append (negated : Bool) (items : List ClassItem) :
    (Piece.set negated items).text ++ rest = '[' ::
      ((if negated then ['^'] else []) ++ (items.flatMap ClassItem.text ++ ']' :: rest)) := by
  simp [Piece.text]

private theorem head?_items {items : List ClassItem}
    (h : (items.flatMap ClassItem.text).head? ≠ some '^') :
    (items.flatMap ClassItem.text ++ ']' :: rest).head? ≠ some '^' := by
  cases htext : items.flatMap ClassItem.text with
  | nil => simp
  | cons d text =>
    rw [htext] at h
    exact h

private theorem globSlots_open (h : rest.head? ≠ some '^') :
    globSlots none ('[' :: rest) = globSlots (some ⟨false, []⟩) rest := by
  rw [globSlots]
  rintro rest rfl
  exact h rfl

private theorem regExpSlots_open {done : List (Slot Char)} (h : rest.head? ≠ some '^') :
    regExpSlots done none ('[' :: rest) = regExpSlots done (some ⟨false, []⟩) rest := by
  rw [regExpSlots]
  rintro rest rfl
  exact h rfl

private theorem globSlots_set {negated : Bool} {items : List ClassItem}
    (h : (Piece.set negated items).Plain rest) (text : Text) :
    globSlots none ((Piece.set negated items).text ++ text) =
      .one (CharClass.has ⟨negated, items.map ClassItem.bounds⟩) :: globSlots none text := by
  rw [text_set_append]
  cases negated with
  | true => exact globSlots_class (k := ⟨true, []⟩) h.1
  | false => exact (globSlots_open (head?_items (h.2 rfl))).trans (globSlots_class h.1)

private theorem regExpSlots_set {negated : Bool} {items : List ClassItem} {done : List (Slot Char)}
    (h : (Piece.set negated items).Plain rest) (text : Text) :
    regExpSlots done none ((Piece.set negated items).text ++ text) =
      regExpSlots (.one (CharClass.has ⟨negated, items.map ClassItem.bounds⟩) :: done) none text := by
  rw [text_set_append]
  cases negated with
  | true => exact regExpSlots_class (k := ⟨true, []⟩) h.1
  | false => exact (regExpSlots_open (head?_items (h.2 rfl))).trans (regExpSlots_class h.1)

private theorem not_special_of_plain (h : "*?[\\^$+()|".toList.contains c = false) :
    "*?[\\".toList.contains c = false := by
  simp_all

/-- Redis reads the pieces that the pattern is built from. -/
theorem globSlots_text (h : PlainPieces pieces) :
    globSlots none (pieces.flatMap Piece.text) = Slot.spread Slot.full (pieces.map Piece.glob) := by
  induction pieces with
  | nil => rfl
  | cons piece pieces ih =>
    obtain ⟨hpiece, hpieces⟩ := h
    rw [List.flatMap_cons, List.map_cons, Slot.spread, List.map_cons, ← Slot.spread, ← ih hpieces]
    cases piece with
    | literal c => exact globSlots_literal (not_special_of_plain hpiece.1)
    | escaped c => rfl
    | any => rfl
    | star => rfl
    | set negated items => exact globSlots_set hpiece _

theorem regExpSlots_regExpText (done : List (Slot Char)) (h : PlainPieces pieces) :
    regExpSlots done none (pieces.flatMap Piece.regExpText) =
      .ok (done.reverse ++ Slot.spread dot (pieces.map Piece.regExp)) := by
  induction pieces generalizing done with
  | nil => simp [regExpSlots, Slot.spread]
  | cons piece pieces ih =>
    obtain ⟨hpiece, hpieces⟩ := h
    have hnext := ih (Slot.place dot piece.regExp :: done) hpieces
    rw [List.reverse_cons, List.append_assoc, List.singleton_append] at hnext
    rw [List.flatMap_cons, List.map_cons, Slot.spread, List.map_cons, ← Slot.spread, ← hnext]
    cases piece with
    | literal c =>
      have hcounted := fun hbrace => counted_regExpText.trans (hpiece.2 hbrace)
      exact regExpSlots_literal hpiece.1 hcounted
    | escaped c =>
      have hmeans := escapeMeans_regExpText.trans hpiece.1
      simp [Piece.regExpText, Piece.text, regExpSlots, hmeans, Piece.regExp, Piece.glob, Slot.place]
    | any => rfl
    | star => rfl
    | set negated items => exact regExpSlots_set hpiece _

end Pieces

end JsonRpcRelay.Clients.KeyPatterns

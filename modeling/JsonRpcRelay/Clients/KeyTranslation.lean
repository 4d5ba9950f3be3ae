import JsonRpcRelay.Clients.KeyPatterns
import JsonRpcRelay.Framework.Replacement

/-!
# From key patterns to expressions

`LocalLRUCache` makes an expression of a pattern by replacing words of its text.  Escapes are
hidden behind placeholders while the wildcards are replaced.
-/

namespace JsonRpcRelay.Clients.KeyPatterns

open Framework

/-- The characters whose escapes are hidden. -/
inductive Escaped where
  | star
  | question
  | openBracket
  | closeBracket
  deriving DecidableEq

namespace Escaped

def char : Escaped → Char
  | .star => '*'
  | .question => '?'
  | .openBracket => '['
  | .closeBracket => ']'

def text (k : Escaped) : Text := ['\\', k.char]

def placeholder : Escaped → Text
  | .star => "__ESCAPED_STAR__".toList
  | .question => "__ESCAPED_QUESTION__".toList
  | .openBracket => "__ESCAPED_OPEN_BRACKET__".toList
  | .closeBracket => "__ESCAPED_CLOSE_BRACKET__".toList

/-- A placeholder without the underscores around it. -/
def word : Escaped → Text
  | .star => "ESCAPED_STAR".toList
  | .question => "ESCAPED_QUESTION".toList
  | .openBracket => "ESCAPED_OPEN_BRACKET".toList
  | .closeBracket => "ESCAPED_CLOSE_BRACKET".toList

def hide (k : Escaped) (text : Text) : Text := replaceAll k.text k.placeholder text

def putBack (k : Escaped) (text : Text) : Text := replaceAll k.placeholder k.text text

end Escaped

/-- The escapes that are still there.  The replacement after this one puts each class back as it
was, and is left out. -/
def hideRest : Text → Text
  | [] => []
  | [c] => [c]
  | a :: c :: rest =>
    if a = '\\' ∧ "*?[]".toList.contains c then
      "__ESCAPED_".toList ++ c :: ("__".toList ++ hideRest rest)
    else a :: hideRest (c :: rest)

def regexPattern (prefixedPattern : Text) : Text :=
  let hidden := Escaped.closeBracket.hide (Escaped.openBracket.hide
    (Escaped.question.hide (Escaped.star.hide prefixedPattern)))
  let replaced := replaceUnlessBehind '\\' "[!]".toList "[^]".toList
    (replaceUnlessBehind '\\' ['?'] ['.'] (replaceUnlessBehind '\\' ['*'] ['.', '*']
      (hideRest hidden)))
  Escaped.closeBracket.putBack (Escaped.openBracket.putBack
    (Escaped.question.putBack (Escaped.star.putBack replaced)))

/-- A character, or an escape that is hidden. -/
inductive Symbol where
  | plain (c : Char)
  | escape (k : Escaped)

def Symbol.spell (chars : Char → Text) (escapes : Escaped → Text) : Symbol → Text
  | .plain c => chars c
  | .escape k => escapes k

/-- What becomes of a character outside of the escapes. -/
def widen (c : Char) : Text :=
  if c = '*' then ['.', '*'] else if c = '?' then ['.'] else [c]

/-- The spelling of the escapes while some of them are hidden. -/
def spelling (hidden : Escaped → Bool) (k : Escaped) : Text :=
  if hidden k then k.placeholder else k.text

/-- No escape is spelled out in characters. -/
def Proper (symbols : List Symbol) : Prop :=
  ∀ k : Escaped, ¬ [Symbol.plain '\\', .plain k.char] <:+: symbols

/-- No name of a placeholder is spelled out in characters. -/
def NoWords (symbols : List Symbol) : Prop :=
  ∀ k : Escaped, ¬ k.word.map Symbol.plain <:+: symbols

section Symbols

variable {symbols rest : List Symbol} {s : Symbol} {c : Char} {chars : Char → Text}
  {escapes : Escaped → Text} {hidden : Escaped → Bool} {k : Escaped} {word part : Text}

theorem Proper.tail (h : Proper (s :: symbols)) : Proper symbols :=
  fun k hwithin => h k (hwithin.trans (List.suffix_cons s symbols).isInfix)

theorem Proper.suffix (h : Proper symbols) (hsuffix : rest <:+ symbols) : Proper rest :=
  fun k hwithin => h k (hwithin.trans hsuffix.isInfix)

theorem NoWords.suffix (h : NoWords symbols) (hsuffix : rest <:+ symbols) : NoWords rest :=
  fun k hwithin => h k (hwithin.trans hsuffix.isInfix)

theorem Proper.cons (h : Proper symbols)
    (hs : s = .plain '\\' → ∀ k : Escaped, symbols.head? ≠ some (.plain k.char)) :
    Proper (s :: symbols) := by
  intro k hwithin
  rcases List.infix_cons_iff.mp hwithin with hfront | hwithin
  · obtain ⟨hslash, rest, rfl⟩ := List.cons_prefix_cons.mp hfront
    exact hs hslash.symm k rfl
  · exact h k hwithin

theorem Proper.head (h : Proper (.plain '\\' :: symbols)) (k : Escaped) (rest : List Symbol) :
    symbols ≠ .plain k.char :: rest := by
  rintro rfl
  exact h k ⟨[], rest, rfl⟩

private theorem exists_symbols (text : Text) :
    ∃ symbols, symbols.flatMap (Symbol.spell pure Escaped.text) = text ∧ Proper symbols := by
  induction text with
  | nil => exact ⟨[], rfl, by simp [Proper]⟩
  | cons c text ih =>
    obtain ⟨symbols, rfl, hproper⟩ := ih
    by_cases hescape : c = '\\' ∧ ∃ k : Escaped, symbols.head? = some (.plain k.char)
    · obtain ⟨rfl, k, hhead⟩ := hescape
      obtain ⟨rest, rfl⟩ := List.head?_eq_some_iff.mp hhead
      refine ⟨.escape k :: rest, rfl, hproper.tail.cons nofun⟩
    · refine ⟨.plain c :: symbols, rfl, hproper.cons ?_⟩
      intro hc k hhead
      exact hescape ⟨Symbol.plain.inj hc, k, hhead⟩

end Symbols

section Spelling

variable {symbols rest : List Symbol} {s : Symbol} {c : Char} {chars : Char → Text}
  {escapes : Escaped → Text} {hidden : Escaped → Bool} {k : Escaped} {word part text : Text}

/-- The character stands for itself, and no other is spelled with it in front. -/
def Literal (chars : Char → Text) (c : Char) : Prop :=
  ∀ d rest text, c :: rest <+: chars d ++ text → d = c ∧ chars d = [c]

private theorem plain_of_front (hchars : Literal chars c)
    (hescapes : ∀ k text, ¬ c :: word <+: escapes k ++ text)
    (h : c :: word <+: symbols.flatMap (Symbol.spell chars escapes)) :
    ∃ rest, symbols = .plain c :: rest ∧
      word <+: rest.flatMap (Symbol.spell chars escapes) := by
  cases symbols with
  | nil => simp at h
  | cons s symbols =>
    rw [List.flatMap_cons] at h
    cases s with
    | escape k => exact absurd h (hescapes k _)
    | plain d =>
      obtain ⟨rfl, hd⟩ := hchars d _ _ h
      rw [Symbol.spell, hd] at h
      exact ⟨symbols, rfl, (List.cons_prefix_cons.mp h).2⟩

private theorem literal_pure : Literal pure c := by
  intro d rest text h
  obtain ⟨rfl, _⟩ := List.cons_prefix_cons.mp h
  exact ⟨rfl, rfl⟩

private theorem widen_of_ne (hstar : c ≠ '*') (hquestion : c ≠ '?') : widen c = [c] := by
  rw [widen, if_neg hstar, if_neg hquestion]

private theorem literal_widen (hdot : c ≠ '.') : Literal widen c := by
  intro d rest text h
  by_cases hstar : d = '*'
  · rw [widen, if_pos hstar] at h
    exact absurd (List.cons_prefix_cons.mp h).1 hdot
  · by_cases hquestion : d = '?'
    · rw [widen, if_neg hstar, if_pos hquestion] at h
      exact absurd (List.cons_prefix_cons.mp h).1 hdot
    · rw [widen_of_ne hstar hquestion] at h ⊢
      obtain ⟨rfl, _⟩ := List.cons_prefix_cons.mp h
      exact ⟨rfl, rfl⟩

private theorem placeholder_eq (k : Escaped) :
    k.placeholder = '_' :: '_' :: (k.word ++ ['_', '_']) := by
  cases k <;> rfl

private theorem spelling_cases (hidden : Escaped → Bool) (k : Escaped) :
    (∃ rest, spelling hidden k = '\\' :: rest) ∨
      ∃ rest, spelling hidden k = '_' :: '_' :: rest := by
  unfold spelling
  split
  · exact Or.inr ⟨_, placeholder_eq k⟩
  · exact Or.inl ⟨_, rfl⟩

/-- No backslash and no dot, and each underscore stands before another character. -/
def inner : Text → Bool
  | [] => true
  | c :: word => c ≠ '\\' && c ≠ '.' && (c ≠ '_' || (word.head?.any (· ≠ '_'))) && inner word

private theorem inner_cons_iff : inner (c :: word) = true ↔ c ≠ '\\' ∧ c ≠ '.' ∧
    (c = '_' → ∃ d, word.head? = some d ∧ d ≠ '_') ∧ inner word = true := by
  simp [inner, Option.any_eq_true, or_iff_not_imp_left, and_assoc]

private theorem not_prefix_spelling (h : inner (c :: word) = true) (k : Escaped) (text : Text) :
    ¬ c :: word <+: spelling hidden k ++ text := by
  obtain ⟨hslash, _, hnext, _⟩ := inner_cons_iff.mp h
  intro hfront
  rcases spelling_cases hidden k with ⟨rest, heq⟩ | ⟨rest, heq⟩
  · rw [heq] at hfront
    exact hslash (List.cons_prefix_cons.mp hfront).1
  · rw [heq] at hfront
    obtain ⟨hc, hword⟩ := List.cons_prefix_cons.mp hfront
    obtain ⟨d, hhead, hd⟩ := hnext hc
    obtain ⟨tail, rfl⟩ := List.head?_eq_some_iff.mp hhead
    exact hd (List.cons_prefix_cons.mp hword).1

private theorem symbols_of_front (hchars : ∀ c, c ≠ '.' → Literal chars c)
    (hword : inner word = true)
    (h : word <+: symbols.flatMap (Symbol.spell chars (spelling hidden))) :
    word.map Symbol.plain <+: symbols := by
  induction word generalizing symbols with
  | nil => exact List.nil_prefix
  | cons c word ih =>
    obtain ⟨_, hdot, _, htail⟩ := inner_cons_iff.mp hword
    obtain ⟨rest, rfl, hrest⟩ :=
      plain_of_front (hchars c hdot) (not_prefix_spelling hword) h
    exact List.cons_prefix_cons.mpr ⟨rfl, ih htail hrest⟩

end Spelling

section Steps

variable {symbols rest : List Symbol} {hidden : Escaped → Bool} {k k' : Escaped}
  {part text text' : Text}

private theorem char_inj (h : k.char = k'.char) : k = k' := by
  cases k <;> cases k' <;> first | rfl | exact absurd h (by decide)

private theorem char_not_inner (k : Escaped) : k.char ≠ '\\' ∧ k.char ≠ '_' := by
  cases k <;> decide

private theorem slash_notMem_placeholder (k : Escaped) : '\\' ∉ k.placeholder := by
  cases k <;> decide

/-- What follows a backslash among the characters is no character that is hidden behind one. -/
theorem not_prefix_of_proper (h : Proper (.plain '\\' :: rest)) (k : Escaped) :
    ¬ [k.char] <+: rest.flatMap (Symbol.spell pure (spelling hidden)) := by
  intro hfront
  have hescapes : ∀ (k' : Escaped) (text : Text), ¬ [k.char] <+: spelling hidden k' ++ text := by
    intro k' text hfront
    rcases spelling_cases hidden k' with ⟨tail, heq⟩ | ⟨tail, heq⟩
    · rw [heq] at hfront
      exact (char_not_inner k).1 (List.cons_prefix_cons.mp hfront).1
    · rw [heq] at hfront
      exact (char_not_inner k).2 (List.cons_prefix_cons.mp hfront).1
  obtain ⟨tail, rfl, _⟩ := plain_of_front literal_pure hescapes hfront
  exact h.head k tail rfl

/-- An escape starts nowhere else. -/
theorem text_not_front (hne : k ≠ k') (hpart : part <:+ spelling hidden k') (hpart' : part ≠ []) :
    ¬ k.text <+: part ++ text := by
  intro hfront
  obtain ⟨c, part, rfl⟩ := List.exists_cons_of_ne_nil hpart'
  obtain ⟨hslash, hrest⟩ := List.cons_prefix_cons.mp hfront
  by_cases hk : hidden k' = true
  · rw [spelling, if_pos hk] at hpart
    rw [← hslash] at hpart
    exact slash_notMem_placeholder k' (hpart.subset List.mem_cons_self)
  · rw [spelling, if_neg hk, Escaped.text, List.suffix_cons_iff] at hpart
    rcases hpart with hwhole | hlast
    · obtain ⟨_, rfl⟩ := List.cons_eq_cons.mp hwhole
      exact hne (char_inj (List.cons_prefix_cons.mp hrest).1)
    · rw [← hslash] at hlast
      have hmem := hlast.subset List.mem_cons_self
      exact (char_not_inner k').1 (List.mem_singleton.mp hmem).symm

/-- One replacement hides one kind of escapes. -/
theorem hide_symbols (hk : hidden k = false) (h : Proper symbols) :
    k.hide (symbols.flatMap (Symbol.spell pure (spelling hidden))) =
      symbols.flatMap (Symbol.spell pure (spelling (Function.update hidden k true))) := by
  refine replaceAll_flatMap (List.cons_ne_nil _ _) fun s rest hsuffix => ?_
  cases s with
  | plain c =>
    refine Or.inr ⟨rfl, fun part hpart hne hfront => ?_⟩
    have hpart : part = [c] := (List.suffix_cons_iff.mp hpart).resolve_right fun hnil =>
      hne (List.suffix_nil.mp hnil)
    rw [hpart] at hfront
    obtain ⟨hslash, hchar⟩ := List.cons_prefix_cons.mp hfront
    rw [← hslash] at hsuffix
    exact not_prefix_of_proper (h.suffix hsuffix) k hchar
  | escape k' =>
    by_cases hkk : k' = k
    · left
      simp [Symbol.spell, spelling, hkk, hk]
    · right
      refine ⟨?_, fun part hpart hne => text_not_front (Ne.symm hkk) hpart hne⟩
      simp [Symbol.spell, spelling, hkk]

/-- All escapes are hidden. -/
def hiddenText (symbols : List Symbol) : Text :=
  symbols.flatMap (Symbol.spell pure (spelling fun _ => true))

private theorem hidden_infix_cases {c : Char} {word : Text} {s : Symbol}
    (hc : ∀ k : Escaped, c ∉ k.placeholder) (h : c :: word <:+: hiddenText (s :: symbols)) :
    s = .plain c ∧ word <+: hiddenText symbols ∨ c :: word <:+: hiddenText symbols := by
  rw [hiddenText, List.flatMap_cons] at h
  cases s with
  | escape k => exact Or.inr (infix_of_infix_append (hc k) h)
  | plain d =>
    rcases List.infix_cons_iff.mp h with hfront | hwithin
    · obtain ⟨rfl, hword⟩ := List.cons_prefix_cons.mp hfront
      exact Or.inl ⟨rfl, hword⟩
    · exact Or.inr hwithin

private theorem text_not_within (h : Proper symbols) (k : Escaped) :
    ¬ k.text <:+: hiddenText symbols := by
  induction symbols with
  | nil => simp [hiddenText, Escaped.text]
  | cons s symbols ih =>
    intro hwithin
    rcases hidden_infix_cases slash_notMem_placeholder hwithin with ⟨rfl, hchar⟩ | hwithin
    · exact not_prefix_of_proper h k hchar
    · exact ih h.tail hwithin

private theorem exists_char_eq {c : Char} (h : "*?[]".toList.contains c = true) :
    ∃ k : Escaped, k.char = c := by
  have hmem : c = '*' ∨ c = '?' ∨ c = '[' ∨ c = ']' := by simpa using h
  rcases hmem with rfl | rfl | rfl | rfl
  · exact ⟨.star, rfl⟩
  · exact ⟨.question, rfl⟩
  · exact ⟨.openBracket, rfl⟩
  · exact ⟨.closeBracket, rfl⟩

private theorem hideRest_eq (h : ∀ k : Escaped, ¬ k.text <:+: text) : hideRest text = text := by
  fun_induction hideRest with
  | case1 => rfl
  | case2 => rfl
  | case3 a c rest hescape _ =>
    obtain ⟨rfl, hc⟩ := hescape
    obtain ⟨k, rfl⟩ := exists_char_eq hc
    exact absurd ⟨[], rest, rfl⟩ (h k)
  | case4 a c rest hescape ih =>
    rw [ih fun k hwithin => h k (List.infix_cons hwithin)]

/-- A class of an exclamation mark alone. -/
def bracketedMark : Text := ['[', '!', ']']

private theorem bracketedMark_not_within (h : ¬ bracketedMark.map Symbol.plain <:+: symbols) :
    ¬ bracketedMark <:+: hiddenText symbols := by
  induction symbols with
  | nil => simp [hiddenText, bracketedMark]
  | cons s symbols ih =>
    intro hwithin
    have hbracket : ∀ k : Escaped, '[' ∉ k.placeholder := fun k => by cases k <;> decide
    rcases hidden_infix_cases hbracket hwithin with ⟨rfl, hword⟩ | hwithin
    · have hfront : ['!', ']'].map Symbol.plain <+: symbols :=
        symbols_of_front (fun _ _ => literal_pure) rfl hword
      exact h (List.cons_prefix_cons.mpr ⟨rfl, hfront⟩).isInfix
    · exact ih (fun hwithin => h (List.infix_cons hwithin)) hwithin

private theorem flatMap_widen (symbols : List Symbol) :
    ((hiddenText symbols).flatMap (substitute '*' ['.', '*'])).flatMap (substitute '?' ['.']) =
      symbols.flatMap (Symbol.spell widen (spelling fun _ => true)) := by
  rw [hiddenText, List.flatMap_assoc, List.flatMap_assoc]
  refine List.flatMap_congr fun s _ => ?_
  cases s with
  | escape k => cases k <;> rfl
  | plain c =>
    by_cases hstar : c = '*'
    · rw [hstar]
      rfl
    · by_cases hquestion : c = '?'
      · rw [hquestion]
        rfl
      · simp [Symbol.spell, widen_of_ne hstar hquestion, substitute, hstar, hquestion]

private theorem replaced_eq (h : Proper symbols)
    (hmark : ¬ bracketedMark.map Symbol.plain <:+: symbols) :
    replaceUnlessBehind '\\' "[!]".toList "[^]".toList
      (replaceUnlessBehind '\\' ['?'] ['.'] (replaceUnlessBehind '\\' ['*'] ['.', '*']
        (hideRest (hiddenText symbols)))) =
      symbols.flatMap (Symbol.spell widen (spelling fun _ => true)) := by
  have hstar : ¬ ['\\', '*'] <:+: hiddenText symbols := text_not_within h .star
  have hquestion : ¬ ['\\', '?'] <:+: (hiddenText symbols).flatMap (substitute '*' ['.', '*']) :=
    fun hwithin => text_not_within h .question
      (infix_of_infix_flatMap (by simp) (by simp [Escaped.text, Escaped.char]) hwithin)
  have hwidened : ¬ bracketedMark <:+:
      symbols.flatMap (Symbol.spell widen (spelling fun _ => true)) := by
    rw [← flatMap_widen]
    intro hwithin
    have hinner := infix_of_infix_flatMap (by simp) (by simp [bracketedMark]) hwithin
    exact bracketedMark_not_within hmark
      (infix_of_infix_flatMap (by simp) (by simp [bracketedMark]) hinner)
  have hguarded : ¬ '\\' :: bracketedMark <:+:
      symbols.flatMap (Symbol.spell widen (spelling fun _ => true)) :=
    fun hwithin => hwidened ((List.suffix_cons _ _).isInfix.trans hwithin)
  rw [hideRest_eq (text_not_within h), replaceUnlessBehind_eq hstar, replaceAll_singleton,
    replaceUnlessBehind_eq hquestion, replaceAll_singleton, flatMap_widen,
    show "[!]".toList = bracketedMark from rfl, replaceUnlessBehind_eq hguarded,
    replaceAll_of_not_within hwidened]

private theorem inner_word (k : Escaped) : inner ('_' :: k.word) = true := by
  cases k <;> rfl

/-- A placeholder that starts with the last underscores of another one goes on in characters. -/
theorem placeholder_not_front (h : NoWords rest) (k : Escaped) :
    ¬ k.placeholder <+: '_' :: rest.flatMap (Symbol.spell widen (spelling hidden)) ∧
      ¬ k.placeholder <+: '_' :: '_' :: rest.flatMap (Symbol.spell widen (spelling hidden)) := by
  rw [placeholder_eq]
  constructor
  · intro hfront
    have htail := (List.cons_prefix_cons.mp hfront).2
    have hword := (List.prefix_append ('_' :: k.word) ['_', '_']).trans htail
    have hsymbols := symbols_of_front (fun _ => literal_widen) (inner_word k) hword
    exact h k ((List.suffix_cons _ _).isInfix.trans hsymbols.isInfix)
  · intro hfront
    have htail := (List.cons_prefix_cons.mp (List.cons_prefix_cons.mp hfront).2).2
    have hword := (List.prefix_append k.word ['_', '_']).trans htail
    have hsymbols := symbols_of_front (fun _ => literal_widen)
      (inner_cons_iff.mp (inner_word k)).2.2.2 hword
    exact h k hsymbols.isInfix

/-- Apart from its last underscores, no part of a placeholder begins like another one. -/
theorem placeholder_parts (hne : k ≠ k') (hpart : part <:+ k'.placeholder) :
    part = [] ∨ part = ['_'] ∨ part = ['_', '_'] ∨
      ¬ part <+: k.placeholder ∧ ¬ k.placeholder <+: part := by
  have hall : (k'.placeholder.tails.all fun part =>
      part = [] ∨ part = ['_'] ∨ part = ['_', '_'] ∨
        ¬ part <+: k.placeholder ∧ ¬ k.placeholder <+: part) = true := by
    cases k <;> cases k' <;> first | rfl | exact absurd rfl hne
  simpa using List.all_eq_true.mp hall part ((List.mem_tails _ _).mpr hpart)

private theorem placeholder_free (h : NoWords rest) (hpart : part <:+ spelling hidden k')
    (hne : k ≠ k') (hpart' : part ≠ []) :
    ¬ k.placeholder <+: part ++ rest.flatMap (Symbol.spell widen (spelling hidden)) := by
  intro hfront
  by_cases hk : hidden k' = true
  · rw [spelling, if_pos hk] at hpart
    rcases placeholder_parts hne hpart with rfl | rfl | rfl | ⟨hleft, hright⟩
    · exact hpart' rfl
    · exact (placeholder_not_front h k).1 hfront
    · exact (placeholder_not_front h k).2 hfront
    · rcases List.prefix_or_prefix_of_prefix hfront (List.prefix_append part _) with hp | hp
      · exact hright hp
      · exact hleft hp
  · obtain ⟨c, part, rfl⟩ := List.exists_cons_of_ne_nil hpart'
    rw [spelling, if_neg hk] at hpart
    rw [placeholder_eq] at hfront
    have hc : c = '_' := (List.cons_prefix_cons.mp hfront).1.symm
    have hmem : c ∈ k'.text := hpart.subset List.mem_cons_self
    rw [hc, Escaped.text] at hmem
    cases k' <;> exact absurd hmem (by decide)

private theorem eq_underscore {c : Char} (hpart : part <:+ widen c) (hne : part ≠ [])
    (hfront : '_' :: text <+: part ++ text') : part = ['_'] := by
  obtain ⟨d, part, rfl⟩ := List.exists_cons_of_ne_nil hne
  obtain ⟨rfl, _⟩ := List.cons_prefix_cons.mp hfront
  unfold widen at hpart
  split at hpart
  · exact absurd (hpart.subset List.mem_cons_self) (by simp)
  · split at hpart
    · exact absurd (hpart.subset List.mem_cons_self) (by simp)
    · have hlength := hpart.length_le
      simp_all

private theorem putBack_symbols (hk : hidden k = true) (h : NoWords symbols) :
    k.putBack (symbols.flatMap (Symbol.spell widen (spelling hidden))) =
      symbols.flatMap (Symbol.spell widen (spelling (Function.update hidden k false))) := by
  have hword : k.placeholder ≠ [] := by
    rw [placeholder_eq]
    exact List.cons_ne_nil _ _
  refine replaceAll_flatMap hword fun s rest hsuffix => ?_
  have hrest := (h.suffix hsuffix).suffix (List.suffix_cons s rest)
  cases s with
  | plain c =>
    refine Or.inr ⟨rfl, fun part hpart hne hfront => ?_⟩
    rw [eq_underscore hpart hne (by rwa [placeholder_eq] at hfront)] at hfront
    exact (placeholder_not_front hrest k).1 hfront
  | escape k' =>
    by_cases hkk : k' = k
    · left
      simp [Symbol.spell, spelling, hkk, hk]
    · right
      refine ⟨?_, fun part hpart hne => placeholder_free hrest hpart (Ne.symm hkk) hne⟩
      simp [Symbol.spell, spelling, hkk]

private theorem update_all (b : Bool) : Function.update (Function.update (Function.update
    (Function.update (fun _ => !b) Escaped.star b) .question b) .openBracket b) .closeBracket b =
      fun _ => b := by
  funext k
  cases k <;> rfl

/-- In all, the characters outside of the escapes are replaced. -/
theorem regexPattern_symbols (h : Proper symbols) (hwords : NoWords symbols)
    (hmark : ¬ bracketedMark.map Symbol.plain <:+: symbols) :
    regexPattern (symbols.flatMap (Symbol.spell pure Escaped.text)) =
      symbols.flatMap (Symbol.spell widen Escaped.text) := by
  have hshown : Escaped.text = spelling fun _ => false := rfl
  have hhidden := update_all true
  have hback := update_all false
  rw [Bool.not_true] at hhidden
  rw [Bool.not_false] at hback
  rw [regexPattern, hshown, hide_symbols rfl h, hide_symbols rfl h, hide_symbols rfl h,
    hide_symbols rfl h, hhidden, ← hiddenText, replaced_eq h hmark, putBack_symbols rfl hwords,
    putBack_symbols rfl hwords, putBack_symbols rfl hwords, putBack_symbols rfl hwords, hback]

end Steps

section Translation

variable {symbols : List Symbol} {pieces : List Piece} {items : List ClassItem} {rest : Text}

/-- What is made of a text in the end: a wildcard right behind a backslash stays. -/
def widenFrom : Bool → Text → Text
  | _, [] => []
  | behind, c :: rest => (if behind then [c] else widen c) ++ widenFrom (c = '\\') rest

private theorem widen_eq_or (c : Char) : widen c = [c] ∨ ∃ k : Escaped, k.char = c := by
  by_cases hstar : c = '*'
  · exact Or.inr ⟨.star, hstar.symm⟩
  · by_cases hquestion : c = '?'
    · exact Or.inr ⟨.question, hquestion.symm⟩
    · exact Or.inl (widen_of_ne hstar hquestion)

private theorem widenFrom_symbols (behind : Bool) (h : Proper symbols)
    (hbehind : behind = true → ∀ (k : Escaped) rest, symbols ≠ .plain k.char :: rest) :
    widenFrom behind (symbols.flatMap (Symbol.spell pure Escaped.text)) =
      symbols.flatMap (Symbol.spell widen Escaped.text) := by
  induction symbols generalizing behind with
  | nil => cases behind <;> rfl
  | cons s symbols ih =>
    cases s with
    | escape k =>
      have hk : decide (k.char = '\\') = false := decide_eq_false (char_not_inner k).1
      have hrest := ih false h.tail nofun
      cases behind <;> simp [Symbol.spell, Escaped.text, widenFrom, hk, hrest, widen]
    | plain c =>
      have hrest := ih (c = '\\') h.tail fun hc =>
        (of_decide_eq_true hc ▸ h).head
      have hc : (if behind then [c] else widen c) = widen c := by
        cases behind with
        | false => rfl
        | true =>
          rcases widen_eq_or c with hsame | ⟨k, hk⟩
          · exact hsame.symm
          · exact absurd (congrArg (· :: symbols) (congrArg Symbol.plain hk.symm))
              (hbehind rfl k symbols)
      rw [List.flatMap_cons, List.flatMap_cons, ← hrest]
      exact congrArg (· ++ _) hc

private theorem widenFrom_cons {behind : Bool} {c : Char} (hc : widen c = [c]) :
    widenFrom behind (c :: rest) = c :: widenFrom (c = '\\') rest := by
  cases behind <;> simp [widenFrom, hc]

private theorem widenFrom_escaped {behind : Bool} (c : Char) :
    widenFrom behind ('\\' :: c :: rest) = '\\' :: c :: widenFrom (c = '\\') rest := by
  rw [widenFrom_cons rfl]
  rfl

private theorem widen_of_plain {c : Char} (h : "]\\*?".toList.contains c = false) :
    widen c = [c] := by
  have hc : c ≠ ']' ∧ c ≠ '\\' ∧ c ≠ '*' ∧ c ≠ '?' := by simpa using h
  exact widen_of_ne hc.2.2.1 hc.2.2.2

private theorem widenFrom_items (behind : Bool) (h : PlainItems items) :
    widenFrom behind (items.flatMap ClassItem.text ++ ']' :: rest) =
      items.flatMap ClassItem.text ++ ']' :: widenFrom false rest := by
  induction items generalizing behind with
  | nil => exact widenFrom_cons rfl
  | cons item items ih =>
    obtain ⟨hitem, hitems⟩ := h
    rw [List.flatMap_cons, List.append_assoc, List.append_assoc]
    cases item with
    | single c =>
      rw [← ih (c = '\\') hitems]
      exact widenFrom_cons (widen_of_plain hitem.1)
    | escaped c =>
      rw [← ih (c = '\\') hitems]
      exact widenFrom_escaped c
    | range first last =>
      rw [← ih (last = '\\') hitems]
      refine (widenFrom_cons (widen_of_plain hitem.1)).trans ?_
      refine congrArg (first :: ·) ((widenFrom_cons rfl).trans ?_)
      exact congrArg ('-' :: ·) (widenFrom_cons (widen_of_plain hitem.2.1))

private theorem widenFrom_set (behind : Bool) {negated : Bool} (h : PlainItems items) :
    widenFrom behind ((Piece.set negated items).text ++ rest) =
      (Piece.set negated items).text ++ widenFrom false rest := by
  rw [text_set_append, text_set_append, widenFrom_cons rfl]
  cases negated with
  | false => exact congrArg ('[' :: ·) (widenFrom_items _ h)
  | true =>
    refine congrArg ('[' :: ·) ((widenFrom_cons rfl).trans ?_)
    exact congrArg ('^' :: ·) (widenFrom_items _ h)

/-- The text that is made of a pattern is that of the expression which should say the same. -/
theorem widenFrom_pieces (behind : Bool) (h : PlainPieces pieces)
    (hbehind : behind = true → (pieces.flatMap Piece.text).head? ≠ some '*' ∧
      (pieces.flatMap Piece.text).head? ≠ some '?') :
    widenFrom behind (pieces.flatMap Piece.text) = pieces.flatMap Piece.regExpText := by
  induction pieces generalizing behind with
  | nil => cases behind <;> rfl
  | cons piece pieces ih =>
    obtain ⟨hpiece, hpieces⟩ := h
    have hrest := ih false hpieces nofun
    cases piece with
    | literal c =>
      have hc : widen c = [c] ∧ decide (c = '\\') = false := by
        simp_all [Piece.Plain, widen]
      refine (widenFrom_cons hc.1).trans ?_
      rw [hc.2]
      exact congrArg (c :: ·) hrest
    | escaped c =>
      have hnext := ih (c = '\\') hpieces fun hc =>
        hpiece.2 (of_decide_eq_true hc)
      refine (widenFrom_escaped c).trans ?_
      exact congrArg ('\\' :: c :: ·) hnext
    | any =>
      cases behind with
      | true => exact absurd rfl (hbehind rfl).2
      | false => exact congrArg ('.' :: ·) hrest
    | star =>
      cases behind with
      | true => exact absurd rfl (hbehind rfl).1
      | false => exact congrArg ('.' :: '*' :: ·) hrest
    | set negated items =>
      refine (widenFrom_set _ hpiece.1).trans ?_
      exact congrArg ((Piece.set negated items).text ++ ·) hrest

end Translation

/-- Redis and the expression that is made of the pattern read the same pieces. -/
structure Translatable (pattern : List Piece) : Prop where
  plain : PlainPieces pattern
  words : ∀ k : Escaped, ¬ k.word <:+: pattern.flatMap Piece.text
  start : ¬ bracketedMark <+: pattern.flatMap Piece.text
  marks : ∀ c, c ≠ '\\' → ¬ c :: bracketedMark <:+: pattern.flatMap Piece.text

section Patterns

variable {symbols : List Symbol} {pattern : List Piece} {c : Char} {word front : Text}

private theorem flatMap_plain (word : Text) :
    (word.map Symbol.plain).flatMap (Symbol.spell pure Escaped.text) = word := by
  induction word with
  | nil => rfl
  | cons c word ih => exact congrArg (c :: ·) ih

private theorem infix_spelled (h : word.map Symbol.plain <:+: symbols) :
    word <:+: symbols.flatMap (Symbol.spell pure Escaped.text) := by
  obtain ⟨before, behind, rfl⟩ := h
  rw [List.flatMap_append, List.flatMap_append, flatMap_plain]
  exact List.infix_append _ _ _

private theorem mark_of_within (hproper : Proper symbols)
    (h : bracketedMark.map Symbol.plain <:+: symbols) :
    bracketedMark <+: symbols.flatMap (Symbol.spell pure Escaped.text) ∨ ∃ c, c ≠ '\\' ∧
      c :: bracketedMark <:+: symbols.flatMap (Symbol.spell pure Escaped.text) := by
  obtain ⟨before, behind, rfl⟩ := h
  rcases before.eq_nil_or_concat with rfl | ⟨before, s, rfl⟩
  · exact Or.inl (List.prefix_append _ _)
  · right
    cases s with
    | escape k =>
      refine ⟨k.char, (char_not_inner k).1, ?_⟩
      refine ⟨before.flatMap (Symbol.spell pure Escaped.text) ++ ['\\'],
        behind.flatMap (Symbol.spell pure Escaped.text), ?_⟩
      simp [Symbol.spell, Escaped.text, bracketedMark]
    | plain c =>
      refine ⟨c, ?_, ?_⟩
      · rintro rfl
        exact hproper .openBracket ⟨before, [.plain '!', .plain ']'] ++ behind, by
          simp [bracketedMark, Escaped.char]⟩
      · exact infix_spelled ⟨before, behind, by simp⟩

/-- What is made of a pattern is the expression that should say the same. -/
theorem regexPattern_text (h : Translatable pattern) :
    regexPattern (pattern.flatMap Piece.text) = pattern.flatMap Piece.regExpText := by
  obtain ⟨symbols, hsymbols, hproper⟩ := exists_symbols (pattern.flatMap Piece.text)
  have hwords : NoWords symbols := by
    intro k hwithin
    have hword := infix_spelled hwithin
    rw [hsymbols] at hword
    exact h.words k hword
  have hmark : ¬ bracketedMark.map Symbol.plain <:+: symbols := by
    intro hwithin
    have hfound := mark_of_within hproper hwithin
    rw [hsymbols] at hfound
    rcases hfound with hstart | ⟨c, hc, hmark⟩
    · exact h.start hstart
    · exact h.marks c hc hmark
  have hwidened := widenFrom_symbols false hproper nofun
  rw [hsymbols, widenFrom_pieces false h.plain nofun] at hwidened
  rw [← hsymbols, regexPattern_symbols hproper hwords hmark, ← hwidened]

/-- The characters that change nothing in front of a pattern. -/
def Harmless (c : Char) : Prop := "*?[\\.^$+()|\x7bE".toList.contains c = false

theorem Translatable.cons (hc : Harmless c) (h : Translatable pattern) :
    Translatable (.literal c :: pattern) := by
  have hne : "*?[\\^$+()|".toList.contains c = false ∧ c ≠ '{' ∧ c ≠ '[' ∧ c ≠ 'E' := by
    simp_all [Harmless]
  obtain ⟨hspecial, hbrace, hbracket, hletter⟩ := hne
  refine ⟨⟨⟨hspecial, fun h => absurd h hbrace⟩, h.plain⟩, ?_, ?_, ?_⟩
  · intro k hwithin
    refine (List.infix_cons_iff.mp hwithin).elim ?_ (h.words k)
    intro hfront
    cases k <;> exact hletter (List.cons_prefix_cons.mp hfront).1.symm
  · intro hfront
    exact hbracket (List.cons_prefix_cons.mp hfront).1.symm
  · intro d hd hwithin
    refine (List.infix_cons_iff.mp hwithin).elim ?_ (h.marks d hd)
    intro hfront
    exact h.start (List.cons_prefix_cons.mp hfront).2

theorem Translatable.append (hfront : ∀ c ∈ front, Harmless c) (h : Translatable pattern) :
    Translatable (front.map Piece.literal ++ pattern) := by
  induction front with
  | nil => exact h
  | cons c front ih =>
    rw [List.forall_mem_cons] at hfront
    exact (ih hfront.2).cons hfront.1

end Patterns

end JsonRpcRelay.Clients.KeyPatterns

import Mathlib.Data.List.Infix

/-!
# Replacing a word in a text

A text is read from left to right.  What is known of the result is stated for texts that are
spelled out unit by unit, where the word is the text of some units and starts nowhere else.
-/

namespace JsonRpcRelay.Framework

section Replace

variable {α : Type*} [DecidableEq α]

/-- The first `skip` symbols belong to a word that has been replaced.  A word right behind `avoid`
stays as it is. -/
def replaceFrom (avoid : Option α) (word replacement : List α) : ℕ → Option α → List α → List α
  | _, _, [] => []
  | skip + 1, _, a :: text => replaceFrom avoid word replacement skip (some a) text
  | 0, before, a :: text =>
    if word <+: a :: text ∧ (avoid = none ∨ before ≠ avoid) then
      replacement ++ replaceFrom avoid word replacement (word.length - 1) (some a) text
    else a :: replaceFrom avoid word replacement 0 (some a) text

def replaceAll (word replacement text : List α) : List α :=
  replaceFrom none word replacement 0 none text

def replaceUnlessBehind (avoid : α) (word replacement text : List α) : List α :=
  replaceFrom (some avoid) word replacement 0 none text

variable {avoid a : α} {word replacement part text : List α} {before before' : Option α} {skip : ℕ}

private theorem replaceFrom_before : replaceFrom none word replacement skip before text =
    replaceFrom none word replacement skip before' text := by
  cases text with
  | nil => simp [replaceFrom]
  | cons a text =>
    cases skip with
    | zero => simp [replaceFrom]
    | succ skip => simp [replaceFrom]

private theorem replaceFrom_skip :
    replaceFrom none word replacement part.length before (part ++ text) =
    replaceAll word replacement text := by
  induction part generalizing before with
  | nil => exact replaceFrom_before
  | cons a part ih =>
    rw [List.length_cons, List.cons_append, replaceFrom]
    exact ih

private theorem replaceAll_cons (h : ¬ word <+: a :: text) :
    replaceAll word replacement (a :: text) = a :: replaceAll word replacement text := by
  rw [replaceAll, replaceFrom, if_neg fun hboth => h hboth.1]
  exact congrArg _ replaceFrom_before

private theorem replaceAll_word (h : word ≠ []) :
    replaceAll word replacement (word ++ text) =
      replacement ++ replaceAll word replacement text := by
  cases word with
  | nil => exact absurd rfl h
  | cons a word =>
    rw [replaceAll, List.cons_append, replaceFrom,
      if_pos ⟨List.prefix_append (a :: word) text, Or.inl rfl⟩]
    exact congrArg _ replaceFrom_skip

private theorem replaceAll_append
    (h : ∀ rest, rest <:+ part → rest ≠ [] → ¬ word <+: rest ++ text) :
    replaceAll word replacement (part ++ text) = part ++ replaceAll word replacement text := by
  induction part with
  | nil => rfl
  | cons a part ih =>
    have hfirst : ¬ word <+: a :: (part ++ text) :=
      h (a :: part) (List.suffix_refl _) (List.cons_ne_nil a part)
    rw [List.cons_append, replaceAll_cons hfirst,
      ih fun rest hrest => h rest (hrest.trans (List.suffix_cons a part))]
    rfl

theorem replaceAll_of_not_within (h : ¬ word <:+: text) :
    replaceAll word replacement text = text := by
  induction text with
  | nil => rfl
  | cons a text ih =>
    rw [List.infix_cons_iff, not_or] at h
    rw [replaceAll_cons h.1, ih h.2]

private theorem replaceFrom_avoid (h : ¬ avoid :: word <:+: text)
    (hbefore : skip = 0 → before = some avoid → ¬ word <+: text) :
    replaceFrom (some avoid) word replacement skip before text =
      replaceFrom none word replacement skip before text := by
  induction text generalizing skip before with
  | nil => simp [replaceFrom]
  | cons a text ih =>
    rw [List.infix_cons_iff, not_or] at h
    have hnext : some a = some avoid → ¬ word <+: text := by
      intro ha hword
      rw [Option.some.injEq] at ha
      exact h.1 (List.cons_prefix_cons.mpr ⟨ha.symm, hword⟩)
    cases skip with
    | succ skip =>
      rw [replaceFrom, replaceFrom]
      exact ih h.2 fun _ => hnext
    | zero =>
      rw [replaceFrom, replaceFrom]
      by_cases hword : word <+: a :: text
      · have hfree : before ≠ some avoid := fun hb => hbefore rfl hb hword
        rw [if_pos ⟨hword, Or.inr hfree⟩, if_pos ⟨hword, Or.inl rfl⟩, ih h.2 fun _ => hnext]
      · rw [if_neg fun hboth => hword hboth.1, if_neg fun hboth => hword hboth.1,
          ih h.2 fun _ => hnext]

theorem replaceUnlessBehind_eq (h : ¬ avoid :: word <:+: text) :
    replaceUnlessBehind avoid word replacement text = replaceAll word replacement text :=
  replaceFrom_avoid h nofun

/-- What becomes of one symbol when `a` is replaced. -/
def substitute (a : α) (replacement : List α) (b : α) : List α :=
  if b = a then replacement else [b]

theorem replaceAll_singleton :
    replaceAll [a] replacement text = text.flatMap (substitute a replacement) := by
  induction text with
  | nil => rfl
  | cons b text ih =>
    rw [List.flatMap_cons, substitute, ← ih]
    by_cases hb : b = a
    · rw [if_pos hb, hb]
      exact replaceAll_word (List.cons_ne_nil a [])
    · rw [if_neg hb, replaceAll_cons fun h => hb (List.cons_prefix_cons.mp h).1.symm]
      rfl

end Replace

section Units

variable {α β : Type*} {f g : β → List α} {a : α} {word replacement part text : List α}
  {units : List β}

theorem infix_of_infix_append (h : a ∉ part) (hwithin : a :: word <:+: part ++ text) :
    a :: word <:+: text := by
  induction part with
  | nil => exact hwithin
  | cons b part ih =>
    rw [List.mem_cons, not_or] at h
    rcases List.infix_cons_iff.mp hwithin with hfront | hwithin
    · exact absurd (List.cons_prefix_cons.mp hfront).1 h.1
    · exact ih h.2 hwithin

variable [DecidableEq α]

private theorem prefix_of_prefix_flatMap (hne : replacement ≠ []) (h : ∀ b ∈ word, b ∉ replacement)
    (hfront : word <+: text.flatMap (substitute a replacement)) : word <+: text := by
  induction text generalizing word with
  | nil => simpa using hfront
  | cons b text ih =>
    cases word with
    | nil => exact List.nil_prefix
    | cons c word =>
      rw [List.flatMap_cons, substitute] at hfront
      by_cases hb : b = a
      · rw [if_pos hb] at hfront
        obtain ⟨d, rest, rfl⟩ := List.exists_cons_of_ne_nil hne
        exact absurd (List.mem_cons.mpr (Or.inl (List.cons_prefix_cons.mp hfront).1))
          (h c List.mem_cons_self)
      · rw [if_neg hb] at hfront
        obtain ⟨hcb, hword⟩ := List.cons_prefix_cons.mp hfront
        exact List.cons_prefix_cons.mpr
          ⟨hcb, ih (fun d hd => h d (List.mem_cons_of_mem c hd)) hword⟩

theorem infix_of_infix_flatMap (hne : replacement ≠ []) (h : ∀ b ∈ word, b ∉ replacement)
    (hwithin : word <:+: text.flatMap (substitute a replacement)) : word <:+: text := by
  cases word with
  | nil => exact List.nil_infix
  | cons c word =>
    induction text with
    | nil => simp at hwithin
    | cons b text ih =>
      by_cases hb : b = a
      · rw [List.flatMap_cons, substitute, if_pos hb] at hwithin
        have hrest := infix_of_infix_append (h c List.mem_cons_self) hwithin
        exact (ih hrest).trans (List.suffix_cons b text).isInfix
      · rw [List.flatMap_cons, substitute, if_neg hb, List.singleton_append,
          List.infix_cons_iff] at hwithin
        rcases hwithin with hfront | hwithin
        · obtain ⟨hcb, hword⟩ := List.cons_prefix_cons.mp hfront
          have htail := prefix_of_prefix_flatMap hne
            (fun d hd => h d (List.mem_cons_of_mem c hd)) hword
          exact (List.cons_prefix_cons.mpr ⟨hcb, htail⟩).isInfix
        · exact (ih hwithin).trans (List.suffix_cons b text).isInfix

/-- The word is the text of some units, which are spelled anew, and it starts in no other. -/
theorem replaceAll_flatMap (hne : word ≠ [])
    (h : ∀ unit rest, unit :: rest <:+ units → (f unit = word ∧ g unit = replacement) ∨
      (g unit = f unit ∧ ∀ part, part <:+ f unit → part ≠ [] →
        ¬ word <+: part ++ rest.flatMap f)) :
    replaceAll word replacement (units.flatMap f) = units.flatMap g := by
  induction units with
  | nil => rfl
  | cons unit units ih =>
    have hrest := ih fun unit' rest hsuffix => h unit' rest (hsuffix.trans (List.suffix_cons _ _))
    rw [List.flatMap_cons, List.flatMap_cons]
    rcases h unit units (List.suffix_refl _) with ⟨hf, hg⟩ | ⟨hfg, hfree⟩
    · rw [hf, hg, replaceAll_word hne, hrest]
    · rw [hfg, replaceAll_append hfree, hrest]

end Units

end JsonRpcRelay.Framework

import JsonRpcRelay.Framework.Wildcards
import Mathlib.Data.List.Forall2
import Mathlib.Data.List.ReduceOption

/-!
# Loose patterns

A row of places, each for one symbol of a set or for any number of symbols, may be read in two ways:
as a description of whole texts, and as something that is looked for behind a start, where the
places for any number of symbols do not reach across some of them.  Both readings accept the same
texts only if the row asks for no more than some symbols in a given order.
-/

namespace JsonRpcRelay.Framework.Slot

variable {α : Type*}

/-- A place for a symbol of a set, or for any number of symbols. -/
abbrev Row (α : Type*) := List (Option (α → Bool))

/-- A place where any number of symbols stands for those of `wild`. -/
def place (wild : α → Bool) : Option (α → Bool) → Slot α
  | none => .many wild
  | some set => .one set

def spread (wild : α → Bool) (row : Row α) : List (Slot α) := row.map (place wild)

/-- Each symbol is in its set. -/
abbrev Within (sets : List (α → Bool)) (text : List α) : Prop :=
  List.Forall₂ (fun set a => set a = true) sets text

section Rows

variable {wild wide : α → Bool} {row front back : Row α} {set : α → Bool} {text : List α}

private theorem fits_of_within (h : Within row.reduceOption text) :
    Fits (spread wild row) text := by
  induction row generalizing text with
  | nil =>
    cases h
    exact .nil
  | cons p row ih =>
    cases p with
    | none => exact .skip (ih h)
    | some set =>
      rw [List.reduceOption_cons_of_some] at h
      cases h with
      | cons ha h => exact .one ha (ih h)

theorem Fits.length_le (h : Fits (spread wild row) text) :
    row.reduceOption.length ≤ text.length := by
  induction row generalizing text with
  | nil => exact Nat.zero_le _
  | cons p row ih =>
    cases p with
    | none =>
      obtain ⟨before, rest, rfl, _, hrest⟩ := fits_many_iff.mp h
      rw [List.length_append]
      exact (ih hrest).trans (Nat.le_add_left _ _)
    | some set =>
      obtain ⟨a, rest, rfl, _, hrest⟩ := fits_one_iff.mp h
      rw [List.reduceOption_cons_of_some]
      exact Nat.succ_le_succ (ih hrest)

theorem Fits.within (h : Fits (spread wild row) text)
    (hlength : text.length ≤ row.reduceOption.length) : Within row.reduceOption text := by
  induction row generalizing text with
  | nil =>
    cases h
    exact .nil
  | cons p row ih =>
    cases p with
    | none =>
      obtain ⟨before, rest, rfl, _, hrest⟩ := fits_many_iff.mp h
      have hle := hrest.length_le
      rw [List.reduceOption_cons_of_none, List.length_append] at hlength
      obtain rfl : before = [] := List.eq_nil_of_length_eq_zero (by omega)
      exact ih hrest (by simpa using hlength)
    | some set =>
      obtain ⟨a, rest, rfl, ha, hrest⟩ := fits_one_iff.mp h
      rw [List.reduceOption_cons_of_some] at hlength ⊢
      exact .cons ha (ih hrest (Nat.le_of_succ_le_succ hlength))

private theorem fits_append_iff : Fits (spread wild (front ++ back)) text ↔
    ∃ t t', text = t ++ t' ∧ Fits (spread wild front) t ∧ Fits (spread wild back) t' := by
  induction front generalizing text with
  | nil =>
    constructor
    · intro h
      exact ⟨[], text, rfl, .nil, h⟩
    · rintro ⟨t, t', rfl, ht, h⟩
      cases ht
      exact h
  | cons p front ih =>
    cases p with
    | none =>
      simp only [spread, List.cons_append, List.map_cons, place, fits_many_iff] at ih ⊢
      simp only [ih]
      constructor
      · rintro ⟨before, _, rfl, hbefore, t, t', rfl, ht, ht'⟩
        exact ⟨before ++ t, t', by simp, ⟨before, t, rfl, hbefore, ht⟩, ht'⟩
      · rintro ⟨_, t', rfl, ⟨before, t, rfl, hbefore, ht⟩, ht'⟩
        exact ⟨before, t ++ t', by simp, hbefore, t, t', rfl, ht, ht'⟩
    | some set =>
      simp only [spread, List.cons_append, List.map_cons, place, fits_one_iff] at ih ⊢
      simp only [ih]
      constructor
      · rintro ⟨a, _, rfl, ha, t, t', rfl, ht, ht'⟩
        exact ⟨a :: t, t', rfl, ⟨a, t, rfl, ha, ht⟩, ht'⟩
      · rintro ⟨_, t', rfl, ⟨a, t, rfl, ha, ht⟩, ht'⟩
        exact ⟨a, t ++ t', rfl, ha, t, t', rfl, ht, ht'⟩

/-- Places for single symbols have as many of them. -/
theorem Fits.length_eq (h : Fits (spread wild row) text) (hnone : none ∉ row) :
    text.length = row.length := by
  induction row generalizing text with
  | nil =>
    cases h
    rfl
  | cons p row ih =>
    rw [List.mem_cons, not_or] at hnone
    cases p with
    | none => exact absurd rfl hnone.1
    | some set =>
      obtain ⟨a, rest, rfl, _, hrest⟩ := fits_one_iff.mp h
      exact congrArg Nat.succ (ih hrest hnone.2)

theorem Fits.mono (h : Fits (spread wild row) text) (hwild : ∀ a, wild a = true → wide a = true) :
    Fits (spread wide row) text := by
  induction row generalizing text with
  | nil => exact h
  | cons p row ih =>
    cases p with
    | none =>
      obtain ⟨before, rest, rfl, hbefore, hrest⟩ := fits_many_iff.mp h
      exact fits_many_iff.mpr ⟨before, rest, rfl, fun a ha => hwild a (hbefore a ha), ih hrest⟩
    | some set =>
      obtain ⟨a, rest, rfl, ha, hrest⟩ := fits_one_iff.mp h
      exact .one ha (ih hrest)

theorem not_fits_of_empty (hmem : some set ∈ row) (hset : ∀ a, set a = false) :
    ¬Fits (spread wild row) text := by
  intro h
  obtain ⟨front, back, rfl⟩ := List.append_of_mem hmem
  obtain ⟨t, t', _, _, ht'⟩ := fits_append_iff.mp h
  obtain ⟨a, _, _, ha, _⟩ := fits_one_iff.mp ht'
  rw [hset a] at ha
  cases ha

private theorem exists_within {sets : List (α → Bool)} (h : ∀ set ∈ sets, ∃ a, set a = true) :
    ∃ text, Within sets text := by
  induction sets with
  | nil => exact ⟨[], .nil⟩
  | cons set sets ih =>
    obtain ⟨a, ha⟩ := h set List.mem_cons_self
    obtain ⟨text, htext⟩ := ih fun s hs => h s (List.mem_cons_of_mem _ hs)
    exact ⟨a :: text, .cons ha htext⟩

private theorem eq_of_within_iff {sets sets' : List (α → Bool)}
    (hlength : sets.length = sets'.length)
    (h : ∀ set ∈ sets, ∃ a, set a = true) (h' : ∀ set ∈ sets', ∃ a, set a = true)
    (hsame : ∀ text, Within sets text ↔ Within sets' text) : sets = sets' := by
  induction sets generalizing sets' with
  | nil => exact (List.eq_nil_of_length_eq_zero hlength.symm).symm
  | cons set sets ih =>
    cases sets' with
    | nil => cases hlength
    | cons set' sets' =>
      rw [List.forall_mem_cons] at h h'
      obtain ⟨text, htext⟩ := exists_within h.2
      obtain ⟨text', htext'⟩ := exists_within h'.2
      have hhead : set = set' := by
        funext a
        rw [Bool.eq_iff_iff]
        constructor
        · intro ha
          cases (hsame (a :: text)).mp (.cons ha htext) with
          | cons ha' _ => exact ha'
        · intro ha
          cases (hsame (a :: text')).mpr (.cons ha htext') with
          | cons ha' _ => exact ha'
      subst hhead
      obtain ⟨a, ha⟩ := h.1
      refine congrArg (set :: ·) (ih (Nat.succ.inj hlength) h.2 h'.2 fun t => ?_)
      constructor
      · intro ht
        cases (hsame (a :: t)).mp (.cons ha ht) with
        | cons _ ht' => exact ht'
      · intro ht
        cases (hsame (a :: t)).mpr (.cons ha ht) with
        | cons _ ht' => exact ht'

end Rows

section Starts

variable [BEq α] [LawfulBEq α] {slots : List (Slot α)} {row : Row α} {wild : α → Bool}
  {start part text back : List α}

/-- Symbols that stand for themselves. -/
def literals (start : List α) : List (Slot α) := start.map fun c => .one (· == c)

/-- A part that fits is found right behind a start. -/
def Found (start : List α) (slots : List (Slot α)) (text : List α) : Prop :=
  ∃ part, part <:+: start ++ text ∧ Fits (literals start ++ slots) part

private theorem fits_literals_iff : Fits (literals start ++ slots) text ↔
    ∃ rest, text = start ++ rest ∧ Fits slots rest := by
  induction start generalizing text with
  | nil => simp [literals]
  | cons c start ih =>
    simp only [literals, List.map_cons, List.cons_append, fits_one_iff, beq_iff_eq] at ih ⊢
    simp only [ih]
    constructor
    · rintro ⟨_, _, rfl, rfl, rest, rfl, h⟩
      exact ⟨rest, rfl, h⟩
    · rintro ⟨rest, rfl, h⟩
      exact ⟨c, start ++ rest, rfl, rfl, rest, rfl, h⟩

theorem fits_literals_append_iff :
    Fits (literals start ++ slots) (start ++ text) ↔ Fits slots text := by
  rw [fits_literals_iff]
  constructor
  · rintro ⟨rest, heq, h⟩
    rwa [List.append_cancel_left heq]
  · intro h
    exact ⟨text, rfl, h⟩

private theorem found_iff : Found start slots text ↔ ∃ before part after,
    start ++ text = before ++ (start ++ (part ++ after)) ∧ Fits slots part := by
  simp only [Found, fits_literals_iff]
  constructor
  · rintro ⟨_, ⟨before, after, h⟩, part, rfl, hpart⟩
    exact ⟨before, part, after, by simp [← h], hpart⟩
  · rintro ⟨before, part, after, h, hpart⟩
    exact ⟨_, ⟨before, after, by simp [h]⟩, part, rfl, hpart⟩

theorem Found.exists_fits (h : Found start slots text) : ∃ part, Fits slots part := by
  obtain ⟨_, part, _, _, hpart⟩ := found_iff.mp h
  exact ⟨part, hpart⟩

private theorem found_of_start (hpart : part <+: text) (h : Fits slots part) :
    Found start slots text := by
  obtain ⟨after, rfl⟩ := hpart
  exact found_iff.mpr ⟨[], part, after, rfl, h⟩

theorem Found.append (h : Found start slots text) (back : List α) :
    Found start slots (text ++ back) := by
  obtain ⟨before, part, after, heq, hpart⟩ := found_iff.mp h
  refine found_iff.mpr ⟨before, part, after ++ back, ?_, hpart⟩
  rw [← List.append_assoc, heq]
  simp only [List.append_assoc]

private theorem found_behind_start (h : Fits slots part) (front : List α) :
    Found start slots (front ++ (start ++ part)) :=
  found_iff.mpr ⟨start ++ front, part, [], by simp, h⟩

/-- A text that is as short as it can be is read from its beginning to its end. -/
private theorem Found.within (h : Found start (spread wild row) text)
    (hlength : text.length ≤ row.reduceOption.length) : Within row.reduceOption text := by
  obtain ⟨before, part, after, heq, hpart⟩ := found_iff.mp h
  have hle := hpart.length_le
  have hlengths := congrArg List.length heq
  simp only [List.length_append] at hlengths
  obtain rfl : before = [] := List.eq_nil_of_length_eq_zero (by omega)
  obtain rfl : after = [] := List.eq_nil_of_length_eq_zero (by omega)
  rw [List.nil_append, List.append_nil, List.append_right_inj] at heq
  rw [heq]
  exact hpart.within (heq ▸ hlength)

end Starts

section Scattered

variable {wild : α → Bool} {row : Row α} {set : α → Bool} {sets : List (α → Bool)}
  {text : List α} {a : α}

/-- The sets have symbols of the text in their order, with others between them. -/
inductive Scattered : List (α → Bool) → List α → Prop where
  | nil {text : List α} : Scattered [] text
  | here {set : α → Bool} {sets : List (α → Bool)} {a : α} {text : List α} (ha : set a = true)
      (h : Scattered sets text) : Scattered (set :: sets) (a :: text)
  | later {sets : List (α → Bool)} {a : α} {text : List α} (h : Scattered sets text) :
      Scattered sets (a :: text)

private theorem Scattered.append_left (h : Scattered sets text) (front : List α) :
    Scattered sets (front ++ text) := by
  induction front with
  | nil => exact h
  | cons a front ih => exact .later ih

private theorem Scattered.append_right (h : Scattered sets text) (back : List α) :
    Scattered sets (text ++ back) := by
  induction h with
  | nil => exact .nil
  | here ha _ ih => exact .here ha ih
  | later _ ih => exact .later ih

private theorem Scattered.of_cons (h : Scattered (set :: sets) text) : Scattered sets text := by
  generalize hall : set :: sets = all at h
  induction h with
  | nil => cases hall
  | here _ h _ =>
    obtain rfl := (List.cons_eq_cons.mp hall).2
    exact .later h
  | later _ ih => exact .later (ih hall)

private theorem Scattered.tail (h : Scattered (set :: sets) (a :: text)) : Scattered sets text := by
  cases h with
  | here _ h => exact h
  | later h => exact h.of_cons

private theorem Fits.scattered (h : Fits (spread wild row) text) :
    Scattered row.reduceOption text := by
  induction row generalizing text with
  | nil => exact .nil
  | cons p row ih =>
    cases p with
    | none =>
      obtain ⟨before, rest, rfl, _, hrest⟩ := fits_many_iff.mp h
      exact (ih hrest).append_left before
    | some set =>
      obtain ⟨a, rest, rfl, ha, hrest⟩ := fits_one_iff.mp h
      exact .here ha (ih hrest)

end Scattered

section Loose

variable {wild : α → Bool} {row : Row α} {set : α → Bool} {behind : Bool} {text : List α}

/-- All symbols. -/
abbrev full : α → Bool := fun _ => true

/-- A set with less than all symbols stands right behind a place for any number of them and before
another one, and has all those that such a place cannot reach across. -/
def Loose (wild : α → Bool) : Bool → Row α → Prop
  | _, [] => True
  | _, none :: row => Loose wild true row
  | behind, some set :: row =>
    ((∀ a, set a = true) ∨ behind = true ∧ none ∈ row ∧ ∀ a, wild a = false → set a = true) ∧
      Loose wild false row

private theorem full_of_loose (h : Loose wild behind row) (hnone : none ∉ row) :
    ∀ set, some set ∈ row → ∀ a, set a = true := by
  induction row generalizing behind with
  | nil => simp
  | cons p row ih =>
    rw [List.mem_cons, not_or] at hnone
    cases p with
    | none => exact absurd rfl hnone.1
    | some set =>
      intro s hs
      rcases List.mem_cons.mp hs with heq | hs
      · cases heq
        exact h.1.resolve_right fun hbehind => hnone.2 hbehind.2.1
      · exact ih h.2 hnone.2 s hs

private theorem fits_of_length (hnone : none ∉ row)
    (hfull : ∀ set, some set ∈ row → ∀ a, set a = true) (hlength : text.length = row.length) :
    Fits (spread wild row) text := by
  induction row generalizing text with
  | nil =>
    obtain rfl := List.eq_nil_of_length_eq_zero hlength
    exact .nil
  | cons p row ih =>
    rw [List.mem_cons, not_or] at hnone
    cases p with
    | none => exact absurd rfl hnone.1
    | some set =>
      cases text with
      | nil => cases hlength
      | cons a text =>
        exact .one (hfull set List.mem_cons_self a) (ih hnone.2
          (fun s hs => hfull s (List.mem_cons_of_mem _ hs)) (Nat.succ.inj hlength))

private theorem Fits.append_of_loose (h : Fits (spread full row) text)
    (hloose : Loose wild behind row) (hnone : none ∈ row) (back : List α) :
    Fits (spread full row) (text ++ back) := by
  induction row generalizing behind text with
  | nil => cases hnone
  | cons p row ih =>
    cases p with
    | none =>
      obtain ⟨before, rest, rfl, _, hrest⟩ := fits_many_iff.mp h
      by_cases hmem : none ∈ row
      · rw [List.append_assoc]
        exact fits_many_iff.mpr ⟨before, rest ++ back, rfl, fun _ _ => rfl, ih hrest hloose hmem⟩
      · -- the sets behind the last place for any number of symbols take what is at the end
        have hlength := hrest.length_eq hmem
        refine fits_many_iff.mpr ⟨_, _, (List.take_append_drop
          ((before ++ rest ++ back).length - row.length) _).symm, fun _ _ => rfl, ?_⟩
        refine fits_of_length hmem (full_of_loose hloose hmem) ?_
        rw [List.length_drop]
        simp only [List.length_append]
        omega
    | some set =>
      obtain ⟨a, rest, rfl, ha, hrest⟩ := fits_one_iff.mp h
      exact .one ha (ih hrest hloose.2 (List.mem_of_ne_of_mem (by simp) hnone))

/-- The symbols are found one after the other, each as soon as it can be. -/
private theorem exists_prefix_of_scattered (hloose : Loose wild behind row)
    (h : Scattered row.reduceOption text) :
    ∃ part, part <+: text ∧ Fits (spread wild (if behind then none :: row else row)) part := by
  induction row generalizing behind text with
  | nil =>
    refine ⟨[], List.nil_prefix, ?_⟩
    cases behind with
    | false => exact .nil
    | true => exact .skip .nil
  | cons p row ih =>
    cases p with
    | none =>
      obtain ⟨part, hpart, hfits⟩ := ih hloose h
      refine ⟨part, hpart, ?_⟩
      cases behind with
      | false => exact hfits
      | true => exact .skip hfits
    | some set =>
      rw [List.reduceOption_cons_of_some] at h
      have htake {a : α} {text : List α} (ha : set a = true)
          (h : Scattered (set :: row.reduceOption) (a :: text)) :
          ∃ part, part <+: a :: text ∧ Fits (spread wild (some set :: row)) part := by
        obtain ⟨part, hpart, hfits⟩ := ih hloose.2 h.tail
        exact ⟨a :: part, (List.prefix_cons_inj a).mpr hpart, .one ha hfits⟩
      rcases hloose.1 with hfull | ⟨rfl, _, hwild⟩
      · cases text with
        | nil => cases h
        | cons a text =>
          obtain ⟨part, hpart, hfits⟩ := htake (hfull a) h
          refine ⟨part, hpart, ?_⟩
          cases behind with
          | false => exact hfits
          | true => exact .skip hfits
      · induction text with
        | nil => cases h
        | cons a text iht =>
          by_cases ha : set a = true
          · obtain ⟨part, hpart, hfits⟩ := htake ha h
            exact ⟨part, hpart, .skip hfits⟩
          · have hwild : wild a = true := by
              by_contra hnot
              exact ha (hwild a (by simpa using hnot))
            cases h with
            | here ha' _ => exact absurd ha' ha
            | later h =>
              obtain ⟨part, hpart, hfits⟩ := iht h
              exact ⟨a :: part, (List.prefix_cons_inj a).mpr hpart, .take hwild hfits⟩

private theorem fits_iff_scattered (hloose : Loose wild false row) (hnone : none ∈ row) :
    Fits (spread full row) text ↔ Scattered row.reduceOption text := by
  constructor
  · exact Fits.scattered
  · intro h
    obtain ⟨part, ⟨back, rfl⟩, hfits⟩ := exists_prefix_of_scattered hloose h
    have hfull : Fits (spread full row) part := hfits.mono fun _ _ => rfl
    exact hfull.append_of_loose hloose hnone back

variable [BEq α] [LawfulBEq α] {start : List α}

private theorem found_iff_scattered (hloose : Loose wild false row) :
    Found start (spread wild row) text ↔ Scattered row.reduceOption text := by
  constructor
  · intro h
    obtain ⟨before, part, after, heq, hfits⟩ := found_iff.mp h
    have hsuffix : part ++ after <:+ start ++ text := ⟨before ++ start, by simp [heq]⟩
    have hlength := congrArg List.length heq
    simp only [List.length_append] at hlength
    obtain ⟨front, rfl⟩ := List.suffix_of_suffix_length_le hsuffix (List.suffix_append start text)
      (by rw [List.length_append]; omega)
    exact (hfits.scattered.append_right after).append_left front
  · intro h
    obtain ⟨part, hpart, hfits⟩ := exists_prefix_of_scattered hloose h
    exact found_of_start hpart hfits

end Loose

section Ends

variable {wild : α → Bool} {row front back : Row α} {set : α → Bool} {text rest : List α} {a : α}

private theorem set_of_fits_end
    (h : Fits (spread wild (front ++ some set :: back)) (text ++ a :: rest))
    (hnone : none ∉ back) (hlength : rest.length = back.length) : set a = true := by
  obtain ⟨t, _, heq, _, ht⟩ := fits_append_iff.mp h
  obtain ⟨b, r, rfl, hb, hr⟩ := fits_one_iff.mp ht
  have hlengths : (a :: rest).length = (b :: r).length :=
    congrArg Nat.succ (hlength.trans (hr.length_eq hnone).symm)
  obtain ⟨rfl, _⟩ := List.cons_eq_cons.mp (List.append_inj' heq hlengths).2
  exact hb

private theorem set_of_fits_start (h : Fits (spread wild (front ++ some set :: back))
    (text ++ a :: rest)) (hnone : none ∉ front) (hlength : text.length = front.length) :
    set a = true := by
  obtain ⟨t, _, heq, ht, hback⟩ := fits_append_iff.mp h
  obtain ⟨b, r, rfl, hb, _⟩ := fits_one_iff.mp hback
  have hlengths := hlength.trans (ht.length_eq hnone).symm
  obtain ⟨rfl, _⟩ := List.cons_eq_cons.mp (List.append_inj heq hlengths).2
  exact hb

/-- If full sets lead up to a place for any number of symbols, anything may stand in front. -/
private theorem Fits.append_left (h : Fits (spread full row) text) (hnone : none ∈ row)
    (hopen : ∀ front set back, row = front ++ some set :: back → none ∉ front → ∀ a, set a = true)
    (before : List α) : Fits (spread full row) (before ++ text) := by
  induction row generalizing before text with
  | nil => cases hnone
  | cons p row ih =>
    cases p with
    | none =>
      obtain ⟨t, rest, rfl, _, hrest⟩ := fits_many_iff.mp h
      exact fits_many_iff.mpr ⟨before ++ t, rest, by simp, fun _ _ => rfl, hrest⟩
    | some set =>
      obtain ⟨a, rest, rfl, ha, hrest⟩ := fits_one_iff.mp h
      cases before with
      | nil => exact h
      | cons b before =>
        have hnext := ih hrest (List.mem_of_ne_of_mem (by simp) hnone)
          (fun front s back heq hfront => hopen (some set :: front) s back (by rw [heq]; rfl)
            (by simpa using hfront)) (before ++ [a])
        rw [List.append_assoc] at hnext
        exact .one (hopen [] set row rfl List.not_mem_nil b) hnext

/-- Whether a place for any number of symbols is right in front of what follows. -/
def endsMany : Bool → Row α → Bool
  | behind, [] => behind
  | _, none :: row => endsMany true row
  | _, some _ :: row => endsMany false row

private theorem endsMany_of_reduceOption_eq_nil (h : front.reduceOption = []) :
    endsMany true front = true := by
  induction front with
  | nil => rfl
  | cons p front ih =>
    cases p with
    | none => exact ih h
    | some set => simp at h

/-- Symbols that no place for any number of them reaches across leave each symbol to its set. -/
private theorem set_of_blocked {behind : Bool} {blocked a : α} {part : List α}
    (h : Fits (spread wild (front ++ some set :: back)) part)
    (hpart : part <+: List.replicate front.reduceOption.length blocked ++ a :: rest)
    (hblocked : wild blocked = false) (ha : endsMany behind front = false ∨ wild a = false) :
    set a = true := by
  induction front generalizing behind part with
  | nil =>
    obtain ⟨b, r, rfl, hb, _⟩ := fits_one_iff.mp h
    obtain ⟨rfl, _⟩ := List.cons_prefix_cons.mp hpart
    exact hb
  | cons p front ih =>
    cases p with
    | some s =>
      obtain ⟨b, r, rfl, _, hr⟩ := fits_one_iff.mp h
      rw [List.reduceOption_cons_of_some, List.length_cons, List.replicate_succ,
        List.cons_append, List.cons_prefix_cons] at hpart
      have ha : endsMany false front = false ∨ wild a = false := ha
      exact ih hr hpart.2 ha
    | none =>
      obtain ⟨before, r, rfl, hbefore, hr⟩ := fits_many_iff.mp h
      rw [List.reduceOption_cons_of_none] at hpart
      suffices hnil : before = [] by
        subst hnil
        have ha : endsMany true front = false ∨ wild a = false := ha
        exact ih hr hpart ha
      cases before with
      | nil => rfl
      | cons b before =>
        have hb := hbefore b List.mem_cons_self
        cases hlength : front.reduceOption.length with
        | zero =>
          rw [hlength] at hpart
          obtain ⟨rfl, _⟩ := List.cons_prefix_cons.mp hpart
          have hends : endsMany behind (none :: front) = true :=
            endsMany_of_reduceOption_eq_nil (List.eq_nil_of_length_eq_zero hlength)
          rw [hends, hb] at ha
          simp at ha
        | succ n =>
          rw [hlength] at hpart
          obtain ⟨rfl, _⟩ := List.cons_prefix_cons.mp hpart
          rw [hblocked] at hb
          cases hb

private theorem loose_of_forall {behind : Bool} (h : ∀ front set back,
    row = front ++ some set :: back → (∀ a, set a = true) ∨
      endsMany behind front = true ∧ none ∈ back ∧ ∀ a, wild a = false → set a = true) :
    Loose wild behind row := by
  induction row generalizing behind with
  | nil => trivial
  | cons p row ih =>
    cases p with
    | none => exact ih fun front set back heq => h (none :: front) set back (congrArg _ heq)
    | some s =>
      refine ⟨h [] s row rfl, ih fun front set back heq => ?_⟩
      exact h (some s :: front) set back (congrArg _ heq)

end Ends

section Same

variable [BEq α] [LawfulBEq α] {wild : α → Bool} {row row' front back : Row α} {set : α → Bool}
  {start text rest : List α} {a : α}

/-- No set is empty. -/
def Satisfiable (row : Row α) : Prop := ∀ set, some set ∈ row → ∃ a, set a = true

omit [BEq α] [LawfulBEq α] in
private theorem Satisfiable.exists_within (h : Satisfiable row) :
    ∃ text, Within row.reduceOption text :=
  Slot.exists_within fun set hset => h set (List.reduceOption_mem_iff.mp hset)

/-- Rows that are read alike have the same sets: the texts that are as short as they can be tell. -/
theorem reduceOption_eq_of_same (hrow : Satisfiable row) (hrow' : Satisfiable row')
    (hsame : ∀ text, Found start (spread wild row) text ↔ Fits (spread full row') text) :
    row.reduceOption = row'.reduceOption := by
  obtain ⟨text, htext⟩ := hrow.exists_within
  obtain ⟨text', htext'⟩ := hrow'.exists_within
  have hfound : Found start (spread wild row) text :=
    found_of_start (List.prefix_refl text) (fits_of_within htext)
  have hle := ((hsame text).mp hfound).length_le
  have hle' : row.reduceOption.length ≤ text'.length := by
    obtain ⟨before, part, after, heq, hpart⟩ :=
      found_iff.mp ((hsame text').mpr (fits_of_within htext'))
    have hlengths := congrArg List.length heq
    simp only [List.length_append] at hlengths
    have hpart := hpart.length_le
    omega
  rw [← htext.length_eq] at hle
  rw [← htext'.length_eq] at hle'
  have hlength : row.reduceOption.length = row'.reduceOption.length := Nat.le_antisymm hle' hle
  refine eq_of_within_iff hlength (fun set hset => hrow set (List.reduceOption_mem_iff.mp hset))
    (fun set hset => hrow' set (List.reduceOption_mem_iff.mp hset)) fun t => ⟨fun ht => ?_,
      fun ht => ?_⟩
  · have hfits := (hsame t).mp (found_of_start (List.prefix_refl t) (fits_of_within ht))
    exact hfits.within (by rw [← ht.length_eq, hlength])
  · have hfound := (hsame t).mpr (fits_of_within ht)
    exact hfound.within (by rw [← ht.length_eq, hlength])

/-- There is a place for any number of symbols, and the sets behind the last one have all symbols. -/
def OpenEnd (row : Row α) : Prop :=
  none ∈ row ∧ ∀ front set back, row = front ++ some set :: back → none ∉ back → ∀ a, set a = true

omit [BEq α] [LawfulBEq α] in
/-- A row has an open end if any text that fits may go on. -/
theorem openEnd_of_append [Nonempty α] (hrow : Satisfiable row)
    (happend : ∀ text back, Fits (spread full row) text → Fits (spread full row) (text ++ back)) :
    OpenEnd row := by
  obtain ⟨text, htext⟩ := hrow.exists_within
  have hfits : Fits (spread full row) text := fits_of_within htext
  constructor
  · by_contra hnone
    have hlength := hfits.length_eq hnone
    have hlength' := (happend text [Classical.arbitrary α] hfits).length_eq hnone
    rw [List.length_append, hlength, List.length_singleton] at hlength'
    omega
  · intro front set back hsplit hnot a
    have hend := happend text (a :: List.replicate back.length a) hfits
    rw [hsplit] at hend
    exact set_of_fits_end hend hnot List.length_replicate

/-- Right behind symbols that the start does not have, it is not found again. -/
private theorem prefix_of_found {blocked : α} {n : ℕ} (h : Found start (spread wild row)
      (List.replicate n blocked ++ a :: rest)) (hlength : rest.length ≤ row.reduceOption.length)
    (hblocked : blocked ∉ start) (hstart : 2 ≤ start.length)
    (hshift : ∀ c, start.tail ++ [c] ≠ start) :
    ∃ part, part <+: List.replicate n blocked ++ a :: rest ∧ Fits (spread wild row) part := by
  obtain ⟨before, part, after, heq, hfits⟩ := found_iff.mp h
  have hlengths := congrArg List.length heq
  have hle := hfits.length_le
  simp only [List.length_append, List.length_replicate, List.length_cons] at hlengths
  cases before with
  | nil => exact ⟨part, ⟨after, (List.append_cancel_left heq).symm⟩, hfits⟩
  | cons b before =>
    have hmem {i m : ℕ} (hi : i < n) (hm : m < start.length)
        (hpos : start.length + i = (b :: before).length + m) : blocked ∈ start := by
      have hget := congrArg (fun l => l[start.length + i]?) heq
      rw [List.getElem?_append_right (Nat.le_add_right _ _), Nat.add_sub_cancel_left,
        List.getElem?_append_left (by simpa using hi), List.getElem?_replicate_of_lt hi, hpos,
        List.getElem?_append_right (Nat.le_add_right _ _), Nat.add_sub_cancel_left,
        List.getElem?_append_left hm] at hget
      exact List.mem_of_getElem? hget.symm
    rw [List.length_cons] at hlengths
    rcases n.eq_zero_or_pos with rfl | hn
    · -- a start that is found one place later would be one symbol again and again
      obtain rfl : before = [] := List.eq_nil_of_length_eq_zero (by omega)
      cases start with
      | nil => simp at hstart
      | cons s start =>
        have htail : (start ++ [a]) ++ rest = (s :: start) ++ (part ++ after) := by
          simpa using (List.cons_eq_cons.mp heq).2
        exact absurd (List.append_inj_left htail (by simp)) (hshift a)
    · refine absurd (hmem (i := min before.length (n - 1))
        (m := start.length + min before.length (n - 1) - (before.length + 1)) ?_ ?_ ?_) hblocked
      · omega
      · omega
      · rw [List.length_cons]
        omega

/-- A row is read alike in both ways if and only if it is loose and may stand for more symbols than
it has sets. -/
theorem same_iff_loose {blocked : α} (hrow : Satisfiable row) (hwild : wild blocked = false)
    (hblocked : blocked ∉ start) (hstart : 2 ≤ start.length)
    (hshift : ∀ c, start.tail ++ [c] ≠ start) :
    (∀ text, Found start (spread wild row) text ↔ Fits (spread full row) text) ↔
      none ∈ row ∧ Loose wild false row := by
  constructor
  · intro hsame
    obtain ⟨text, htext⟩ := hrow.exists_within
    have hfits : Fits (spread full row) text := fits_of_within htext
    have : Nonempty α := ⟨blocked⟩
    obtain ⟨hnone, hopen⟩ := openEnd_of_append hrow fun text back h =>
      (hsame _).mp (((hsame text).mpr h).append back)
    have hfront {front back : Row α} {set : α → Bool} {a : α}
        (hsplit : row = front ++ some set :: back) (ha : set a = false) : none ∈ front := by
      by_contra hnot
      have hpart : Fits (spread wild row) text := fits_of_within htext
      have hagain := (hsame _).mp
        (found_behind_start hpart (List.replicate front.length a ++ [a]))
      rw [List.append_assoc, hsplit] at hagain
      have hset := set_of_fits_start hagain hnot List.length_replicate
      rw [ha] at hset
      cases hset
    have hleft (before : List α) : Fits (spread full row) (before ++ text) := by
      refine hfits.append_left hnone (fun front set back hsplit hnot a => ?_) before
      by_contra ha
      exact hnot (hfront hsplit (by simpa using ha))
    refine ⟨hnone, loose_of_forall fun front set back hsplit => ?_⟩
    have hset {c : α} (hc : endsMany false front = false ∨ wild c = false) : set c = true := by
      have hfound := (hsame _).mpr
        (hleft (List.replicate front.reduceOption.length blocked ++ [c]))
      rw [List.append_assoc, List.singleton_append] at hfound
      obtain ⟨part, hpart, hread⟩ :=
        prefix_of_found hfound htext.length_eq.symm.le hblocked hstart hshift
      rw [hsplit] at hread
      exact set_of_blocked hread hpart hwild hc
    by_cases hfull : ∀ a, set a = true
    · exact Or.inl hfull
    · obtain ⟨a, ha⟩ := not_forall.mp hfull
      have hend : endsMany false front = true := by
        by_contra hend
        exact ha (hset (Or.inl (by simpa using hend)))
      have hback : none ∈ back := by
        by_contra hnot
        exact ha (hopen front set back hsplit hnot a)
      exact Or.inr ⟨hend, hback, fun c hc => hset (Or.inr hc)⟩
  · rintro ⟨hnone, hloose⟩ text
    rw [found_iff_scattered hloose, fits_iff_scattered hloose hnone]

end Same

end JsonRpcRelay.Framework.Slot

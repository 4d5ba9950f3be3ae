import Mathlib.Data.List.Infix
import Mathlib.Data.List.TakeWhile

/-!
# Patterns with wildcards

A pattern is a row of slots.  Each stands for one symbol of a set, or for any number of them.
-/

namespace JsonRpcRelay.Framework

inductive Slot (α : Type*) where
  | one (set : α → Bool)
  | many (set : α → Bool)

namespace Slot

variable {α : Type*} {slots : List (Slot α)} {set : α → Bool} {next : List α → Bool}
  {text : List α} {a : α}

/-- The texts that a row of slots describes. -/
inductive Fits : List (Slot α) → List α → Prop where
  | nil : Fits [] []
  | one {set : α → Bool} {slots : List (Slot α)} {a : α} {text : List α} (ha : set a = true)
      (h : Fits slots text) : Fits (.one set :: slots) (a :: text)
  | skip {set : α → Bool} {slots : List (Slot α)} {text : List α} (h : Fits slots text) :
      Fits (.many set :: slots) text
  | take {set : α → Bool} {slots : List (Slot α)} {a : α} {text : List α} (ha : set a = true)
      (h : Fits (.many set :: slots) text) : Fits (.many set :: slots) (a :: text)

/-- Whether `next` accepts what is left behind some symbols of the set. -/
def skipping (set : α → Bool) (next : List α → Bool) : List α → Bool
  | [] => next []
  | a :: text => next (a :: text) || (set a && skipping set next text)

/-- Whether the slots fit the front of a text and `next` accepts what is left. -/
def accepts (next : List α → Bool) : List (Slot α) → List α → Bool
  | [], text => next text
  | .one _ :: _, [] => false
  | .one set :: slots, a :: text => set a && accepts next slots text
  | .many set :: slots, text => skipping set (accepts next slots) text

/-- Whether a text as a whole fits. -/
def whole (slots : List (Slot α)) (text : List α) : Bool := accepts List.isEmpty slots text

/-- Whether some part of a text fits. -/
def somewhere (slots : List (Slot α)) (text : List α) : Bool :=
  text.tails.any (accepts (fun _ => true) slots)

private theorem skipping_iff : skipping set next text = true ↔
    ∃ front rest, text = front ++ rest ∧ (∀ a ∈ front, set a = true) ∧ next rest = true := by
  induction text with
  | nil => simp [skipping]
  | cons a text ih =>
    rw [skipping, Bool.or_eq_true, Bool.and_eq_true, ih]
    constructor
    · rintro (hnext | ⟨ha, front, rest, rfl, hfront, hnext⟩)
      · exact ⟨[], a :: text, by simp [hnext]⟩
      · exact ⟨a :: front, rest, rfl, by simpa [ha] using hfront, hnext⟩
    · rintro ⟨front, rest, htext, hfront, hnext⟩
      cases front with
      | nil =>
        left
        rwa [htext]
      | cons b front =>
        obtain ⟨rfl, rfl⟩ := List.cons_eq_cons.mp htext
        simp only [List.forall_mem_cons] at hfront
        exact Or.inr ⟨hfront.1, front, rest, rfl, hfront.2, hnext⟩

theorem fits_one_iff : Fits (.one set :: slots) text ↔
    ∃ a rest, text = a :: rest ∧ set a = true ∧ Fits slots rest := by
  constructor
  · intro h
    cases h with
    | one ha h => exact ⟨_, _, rfl, ha, h⟩
  · rintro ⟨a, rest, rfl, ha, h⟩
    exact .one ha h

private theorem Fits.many_append {front : List α} (hfront : ∀ a ∈ front, set a = true)
    (h : Fits slots text) : Fits (.many set :: slots) (front ++ text) := by
  induction front with
  | nil => exact .skip h
  | cons a front ih =>
    simp only [List.forall_mem_cons] at hfront
    exact .take hfront.1 (ih hfront.2)

theorem fits_many_iff : Fits (.many set :: slots) text ↔
    ∃ front rest, text = front ++ rest ∧ (∀ a ∈ front, set a = true) ∧ Fits slots rest := by
  constructor
  · intro h
    induction text with
    | nil =>
      cases h with
      | skip h => exact ⟨[], [], by simp [h]⟩
    | cons a text ih =>
      cases h with
      | skip h => exact ⟨[], a :: text, by simp [h]⟩
      | take ha h =>
        obtain ⟨front, rest, rfl, hfront, hrest⟩ := ih h
        exact ⟨a :: front, rest, by simp, by simpa [ha] using hfront, hrest⟩
  · rintro ⟨front, rest, rfl, hfront, h⟩
    exact h.many_append hfront

private theorem accepts_iff : accepts next slots text = true ↔
    ∃ front rest, text = front ++ rest ∧ Fits slots front ∧ next rest = true := by
  induction slots generalizing text with
  | nil =>
    constructor
    · intro h
      exact ⟨[], text, rfl, .nil, h⟩
    · rintro ⟨front, rest, rfl, hfront, h⟩
      cases hfront
      exact h
  | cons slot slots ih =>
    cases slot with
    | one set =>
      cases text with
      | nil => simp [accepts, fits_one_iff]
      | cons a text =>
        rw [accepts, Bool.and_eq_true, ih]
        simp only [fits_one_iff]
        constructor
        · rintro ⟨ha, front, rest, rfl, h, hnext⟩
          exact ⟨a :: front, rest, rfl, ⟨a, front, rfl, ha, h⟩, hnext⟩
        · rintro ⟨_, rest, htext, ⟨b, front, rfl, hb, h⟩, hnext⟩
          obtain ⟨rfl, rfl⟩ := List.cons_eq_cons.mp htext
          exact ⟨hb, front, rest, rfl, h, hnext⟩
    | many set =>
      simp only [accepts, skipping_iff, ih, fits_many_iff]
      constructor
      · rintro ⟨front, _, rfl, hfront, middle, rest, rfl, h, hnext⟩
        exact ⟨front ++ middle, rest, by simp, ⟨front, middle, rfl, hfront, h⟩, hnext⟩
      · rintro ⟨_, rest, rfl, ⟨front, middle, rfl, hfront, h⟩, hnext⟩
        exact ⟨front, middle ++ rest, by simp, hfront, middle, rest, rfl, h, hnext⟩

theorem whole_iff : whole slots text = true ↔ Fits slots text := by
  rw [whole, accepts_iff]
  constructor
  · rintro ⟨front, rest, rfl, h, hrest⟩
    rw [List.isEmpty_iff] at hrest
    simpa [hrest] using h
  · intro h
    exact ⟨text, [], by simp, h, rfl⟩

theorem somewhere_iff : somewhere slots text = true ↔ ∃ part, part <:+: text ∧ Fits slots part := by
  simp only [somewhere, List.any_eq_true, List.mem_tails, accepts_iff, List.infix_iff_prefix_suffix]
  constructor
  · rintro ⟨_, hsuffix, part, rest, rfl, h, _⟩
    exact ⟨part, ⟨part ++ rest, List.prefix_append part rest, hsuffix⟩, h⟩
  · rintro ⟨part, ⟨_, ⟨rest, rfl⟩, hsuffix⟩, h⟩
    exact ⟨part ++ rest, hsuffix, part, rest, rfl, h, trivial⟩

section Literals

variable [BEq α] [LawfulBEq α]

/-- Symbols that stand for themselves are a prefix of the text. -/
theorem accepts_literals (front : List α) :
    accepts next (front.map (fun c => .one (· == c)) ++ slots) text =
      (front.isPrefixOf text && accepts next slots (text.drop front.length)) := by
  induction front generalizing text with
  | nil => simp
  | cons c front ih =>
    cases text with
    | nil => rfl
    | cons a text =>
      rw [List.map_cons, List.cons_append, accepts, ih, List.isPrefixOf, Bool.and_assoc,
        List.length_cons, List.drop_succ_cons, Bool.beq_comm]

theorem skipping_isSuffixOf (back : List α) :
    skipping (fun _ => true) (fun rest => back.isPrefixOf rest && (rest.drop back.length).isEmpty)
      text = back.isSuffixOf text := by
  rw [Bool.eq_iff_iff, skipping_iff, List.isSuffixOf_iff_suffix]
  simp only [Bool.and_eq_true, List.isPrefixOf_iff_prefix, List.isEmpty_iff]
  constructor
  · rintro ⟨front, _, rfl, _, ⟨rest, rfl⟩, hrest⟩
    rw [List.drop_left] at hrest
    rw [hrest, List.append_nil]
    exact List.suffix_append front back
  · rintro ⟨front, rfl⟩
    exact ⟨front, back, rfl, fun _ _ => trivial, List.prefix_refl back, List.drop_length⟩

/-- Behind symbols of the set, a text of the set that need not end there is a part of the longest
run of them. -/
theorem skipping_isPrefixOf {back : List α} (hback : ∀ a ∈ back, set a = true) :
    skipping set back.isPrefixOf text = (text.takeWhile set).tails.any back.isPrefixOf := by
  rw [Bool.eq_iff_iff, skipping_iff, List.any_eq_true]
  simp only [List.isPrefixOf_iff_prefix, List.mem_tails]
  constructor
  · rintro ⟨front, _, rfl, hfront, rest, rfl⟩
    refine ⟨back ++ rest.takeWhile set, ?_, List.prefix_append _ _⟩
    rw [List.takeWhile_append_of_pos hfront, List.takeWhile_append_of_pos hback]
    exact List.suffix_append _ _
  · rintro ⟨_, ⟨front, hfront⟩, rest, rfl⟩
    refine ⟨front, back ++ (rest ++ text.dropWhile set), ?_, ?_, List.prefix_append _ _⟩
    · calc text = text.takeWhile set ++ text.dropWhile set := List.takeWhile_append_dropWhile.symm
        _ = front ++ (back ++ (rest ++ text.dropWhile set)) := by simp [← hfront]
    · intro a ha
      have hmem : a ∈ text.takeWhile set := hfront ▸ List.mem_append_left _ ha
      exact List.mem_takeWhile_imp hmem

end Literals

end Slot

end JsonRpcRelay.Framework

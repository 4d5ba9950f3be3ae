import Mathlib.Data.List.Nodup
import Mathlib.Data.Set.Card

/-!
# Sets in the order of insertion

A set whose elements are listed in the order in which they were added.
-/

namespace JsonRpcRelay.Framework

structure InsertionSet (α : Type) where
  elements : List α
  nodup : elements.Nodup

namespace InsertionSet

variable {α : Type}

instance : Membership α (InsertionSet α) := ⟨fun s a => a ∈ s.elements⟩

instance [DecidableEq α] (a : α) (s : InsertionSet α) : Decidable (a ∈ s) :=
  inferInstanceAs (Decidable (a ∈ s.elements))

def empty : InsertionSet α := ⟨[], List.nodup_nil⟩

instance : EmptyCollection (InsertionSet α) := ⟨empty⟩

def size (s : InsertionSet α) : ℕ := s.elements.length

variable [DecidableEq α]

/-- An element that is added again keeps its place. -/
def add (s : InsertionSet α) (a : α) : InsertionSet α :=
  if h : a ∈ s.elements then s
  else
    ⟨s.elements ++ [a], by
      apply List.Nodup.append s.nodup (List.nodup_singleton a)
      intro b hb hba
      rw [List.mem_singleton.mp hba] at hb
      exact h hb⟩

def delete (s : InsertionSet α) (a : α) : InsertionSet α :=
  ⟨s.elements.erase a, s.nodup.erase a⟩

variable {s : InsertionSet α} {a b : α}

omit [DecidableEq α] in
theorem mem_def : a ∈ s ↔ a ∈ s.elements := Iff.rfl

omit [DecidableEq α] in
@[simp] theorem notMem_empty : a ∉ (∅ : InsertionSet α) := List.not_mem_nil

@[simp] theorem mem_add : b ∈ s.add a ↔ b = a ∨ b ∈ s := by
  unfold add
  split
  · next h =>
    constructor
    · exact .inr
    · rintro (rfl | hb)
      · exact h
      · exact hb
  · simp [mem_def, or_comm]

@[simp] theorem mem_delete : b ∈ s.delete a ↔ b ≠ a ∧ b ∈ s := s.nodup.mem_erase_iff

omit [DecidableEq α] in
theorem size_eq_zero_iff : s.size = 0 ↔ ∀ a, a ∉ s := by
  rw [size, List.length_eq_zero_iff, List.eq_nil_iff_forall_not_mem]
  rfl

/-- The size is the number of elements. -/
theorem size_eq_ncard : s.size = Set.ncard {a | a ∈ s} := by
  have hset : {a | a ∈ s} = (s.elements.toFinset : Set α) := by
    ext a
    simp [mem_def]
  rw [hset, Set.ncard_coe_finset, List.toFinset_card_of_nodup s.nodup, size]

end InsertionSet

end JsonRpcRelay.Framework

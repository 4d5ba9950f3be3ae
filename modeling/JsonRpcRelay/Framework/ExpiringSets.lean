import JsonRpcRelay.Framework.ExpiringStore
import Mathlib.Data.Finset.Card

/-!
# Sets that expire

Sets under keys with a time to live.  A set that becomes empty is no longer there.
-/

namespace JsonRpcRelay.Framework

abbrev SetStore (K α : Type) := Store K fun _ : K => Finset α

namespace SetStore

open Store

variable {K α : Type} [DecidableEq K] [DecidableEq α]

section Commands

variable (x : Expiry) (now : ℕ) (s : SetStore K α) (k : K) (a : α)

def sMembers : Finset α := (s.get x now k).getD ∅

def sCard : ℕ := (sMembers x now s k).card

/-- An element is added to the set, which is there afterwards. -/
def sAdd : SetStore K α :=
  match s.liveEntry x now k with
  | some e => s.insert k ⟨insert a e.value, e.deadline⟩
  | none => s.insert k ⟨{a}, none⟩

def sRem : SetStore K α :=
  match s.liveEntry x now k with
  | some e =>
      if e.value.erase a = ∅ then s.erase k else s.insert k ⟨e.value.erase a, e.deadline⟩
  | none => s

end Commands

section Lemmas

variable {x : Expiry} {now later : ℕ} {s : SetStore K α} {k l : K} {a b : α} {ttl : ℤ}

omit [DecidableEq α] in
theorem sMembers_eq : sMembers x now s k = ((s.liveEntry x now k).map Entry.value).getD ∅ := by
  rw [sMembers, get_eq_map_liveEntry]

omit [DecidableEq α] in
private theorem sMembers_of_none (h : s.liveEntry x now k = none) : sMembers x now s k = ∅ := by
  rw [sMembers_eq, h]
  rfl

omit [DecidableEq α] in
private theorem sMembers_of_some {e : Entry (Finset α)} (h : s.liveEntry x now k = some e) :
    sMembers x now s k = e.value := by
  rw [sMembers_eq, h]
  rfl

private theorem liveEntry_sAdd_self : liveEntry x now (sAdd x now s k a) k =
    some ⟨insert a (sMembers x now s k), (s.liveEntry x now k).bind Entry.deadline⟩ := by
  unfold sAdd
  cases h : s.liveEntry x now k with
  | none =>
    rw [sMembers_of_none h, insert_empty_eq]
    exact liveEntry_insert_self rfl
  | some e =>
    rw [sMembers_of_some h]
    exact liveEntry_insert_self (aliveAt_of_liveEntry h)

private theorem liveEntry_sAdd_of_ne (h : k ≠ l) :
    liveEntry x now (sAdd x now s l a) k = s.liveEntry x now k := by
  unfold sAdd
  split
  · exact liveEntry_insert_of_ne h
  · exact liveEntry_insert_of_ne h

theorem liveEntry_sRem_self : liveEntry x now (sRem x now s k a) k =
    ((s.liveEntry x now k).map fun e => ⟨e.value.erase a, e.deadline⟩).filter
      fun e => e.value ≠ ∅ := by
  unfold sRem
  cases h : s.liveEntry x now k with
  | none => rw [h]; rfl
  | some e =>
    rw [Option.map_some, Option.filter_some]
    by_cases hempty : e.value.erase a = ∅
    · simp [hempty]
    · simp only [hempty, if_false, ne_eq, not_false_eq_true, decide_true, if_true]
      exact liveEntry_insert_self (aliveAt_of_liveEntry h)

theorem liveEntry_sRem_of_ne (h : k ≠ l) :
    liveEntry x now (sRem x now s l a) k = s.liveEntry x now k := by
  unfold sRem
  split
  · split
    · exact liveEntry_erase_of_ne h
    · exact liveEntry_insert_of_ne h
  · rfl

theorem liveEntry_refresh_self : liveEntry x now (expire x now (sAdd x now s k a) k ttl) k =
    if 0 < ttl then some ⟨insert a (sMembers x now s k), some (now + ttl.toNat)⟩ else none := by
  rw [liveEntry_expire_self, liveEntry_sAdd_self]
  rfl

theorem liveEntry_refresh_of_ne (h : k ≠ l) :
    liveEntry x now (expire x now (sAdd x now s l a) l ttl) k = s.liveEntry x now k := by
  rw [liveEntry_expire_of_ne h, liveEntry_sAdd_of_ne h]

omit [DecidableEq α] in
theorem sMembers_congr {s' : SetStore K α}
    (h : s'.liveEntry x later k = s.liveEntry x now k) :
    sMembers x later s' k = sMembers x now s k := by
  rw [sMembers_eq, sMembers_eq, h]

end Lemmas

end SetStore

end JsonRpcRelay.Framework

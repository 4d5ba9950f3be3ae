import Mathlib.Data.List.Perm.Subperm
import JsonRpcRelay.Framework.ExpiringStore

/-!
# Stores that evict

A store with room for a number of entries.  An insertion may evict any keys, but only if more
entries are stored than there is room for.  Nothing is ever evicted from a store that has room for
all the keys it is used for.
-/

namespace JsonRpcRelay.Framework.Store

variable {K : Type} [DecidableEq K] {V : K → Type} {max : ℕ} {s s' : Store K V} {k : K}
  {e : Entry (V k)} {evicted ks : List K}

def insertEvicting (max : ℕ) (s : Store K V) (k : K) (e : Entry (V k)) (evicted : List K) :
    Option (Store K V) :=
  let stored : Store K V := AList.insert k e s
  if evicted = [] ∨ max < stored.keys.length then some (stored.unlink evicted) else none

theorem mem_of_mem_unlink (h : k ∈ s.unlink ks) : k ∈ s := by
  induction ks generalizing s with
  | nil => exact h
  | cons l ks ih => exact (AList.mem_erase.mp (ih h)).2

/-- The keys that a store is used for. -/
def KeysIn (s : Store K V) (ks : List K) : Prop := ∀ k ∈ s, k ∈ ks

omit [DecidableEq K] in
theorem keysIn_empty : (∅ : Store K V).KeysIn ks := by simp [KeysIn]

theorem KeysIn.insert (h : s.KeysIn ks) (hk : k ∈ ks) (e : Entry (V k)) :
    KeysIn (AList.insert k e s) ks := by
  intro l hl
  rcases (AList.mem_insert s).mp hl with rfl | hold
  · exact hk
  · exact h l hold

omit [DecidableEq K] in
theorem KeysIn.length_le (h : s.KeysIn ks) : s.keys.length ≤ ks.length :=
  (s.keys_nodup.subperm h).length_le

/-- There is room for all keys that the store is used for. -/
theorem KeysIn.insertEvicting (h : s.KeysIn ks) (hk : k ∈ ks) (hroom : ks.length ≤ max)
    (hset : s.insertEvicting max k e evicted = some s') : s' = AList.insert k e s := by
  have hlength := Nat.le_trans (h.insert hk e).length_le hroom
  obtain ⟨hevicted, heq⟩ := Option.ite_none_right_eq_some.mp hset
  have hnone := hevicted.resolve_right (Nat.not_lt.mpr hlength)
  rw [hnone] at heq
  exact (Option.some.inj heq).symm

end JsonRpcRelay.Framework.Store

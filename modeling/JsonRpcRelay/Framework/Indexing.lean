import Mathlib.Algebra.BigOperators.Group.Finset.Basic
import Mathlib.Data.Finmap

/-!
# Lists indexed by their keys

A list is stored in a map under a key, or under two keys in a map of maps.  An element with the key
of an earlier one takes its place.
-/

namespace JsonRpcRelay.Framework

section OneKey

variable {α K : Type} [DecidableEq K] (key : α → K)

def indexBy (xs : List α) : Finmap fun _ : K => α :=
  xs.foldl (fun acc item => acc.insert (key item) item) ∅

variable {key} {xs ys : List α} {a : α} {k : K}

private theorem indexBy_concat : indexBy key (xs ++ [a]) = (indexBy key xs).insert (key a) a := by
  rw [indexBy, List.foldl_append]
  rfl

private theorem mem_indexBy : k ∈ indexBy key xs ↔ k ∈ xs.map key := by
  induction xs using List.reverseRecOn with
  | nil => simp [indexBy, Finmap.notMem_empty]
  | append_singleton xs a ih =>
    rw [indexBy_concat, Finmap.mem_insert, ih]
    simp [or_comm, eq_comm]

private theorem keys_indexBy (xs : List α) : (indexBy key xs).keys = (xs.map key).toFinset := by
  ext k
  rw [Finmap.mem_keys, mem_indexBy, List.mem_toFinset]

private theorem mem_of_lookup_indexBy (h : (indexBy key xs).lookup k = some a) :
    a ∈ xs ∧ key a = k := by
  induction xs using List.reverseRecOn with
  | nil =>
    rw [indexBy, List.foldl_nil, Finmap.lookup_empty] at h
    cases h
  | append_singleton xs b ih =>
    rw [indexBy_concat] at h
    by_cases hk : k = key b
    · subst hk
      rw [Finmap.lookup_insert] at h
      cases h
      simp
    · rw [Finmap.lookup_insert_of_ne _ hk] at h
      exact ⟨List.mem_append_left _ (ih h).1, (ih h).2⟩

private theorem lookup_indexBy_iff (hinj : ∀ a ∈ xs, ∀ b ∈ xs, key a = key b → a = b) :
    (indexBy key xs).lookup k = some a ↔ a ∈ xs ∧ key a = k := by
  constructor
  · exact mem_of_lookup_indexBy
  · rintro ⟨ha, rfl⟩
    have hmem : key a ∈ indexBy key xs := mem_indexBy.mpr (List.mem_map_of_mem ha)
    obtain ⟨b, hb⟩ := Finmap.mem_iff.mp hmem
    have hkey := mem_of_lookup_indexBy hb
    rw [hb, hinj b hkey.1 a ha hkey.2]

/-- Without equal keys the order of the list does not matter. -/
theorem indexBy_congr (hinj : ∀ a ∈ xs, ∀ b ∈ xs, key a = key b → a = b)
    (h : ∀ a, a ∈ xs ↔ a ∈ ys) : indexBy key xs = indexBy key ys := by
  have hinj' : ∀ a ∈ ys, ∀ b ∈ ys, key a = key b → a = b := by
    intro a ha b hb
    exact hinj a ((h a).mpr ha) b ((h b).mpr hb)
  apply Finmap.ext_lookup
  intro k
  apply Option.ext
  intro a
  rw [lookup_indexBy_iff hinj, lookup_indexBy_iff hinj', h]

end OneKey

section TwoKeys

variable {α K L : Type} [DecidableEq K] [DecidableEq L] (outer : α → K) (inner : α → L)

def indexByTwo (xs : List α) : Finmap fun _ : K => Finmap fun _ : L => α :=
  xs.foldl
    (fun acc item => acc.insert (outer item)
      (((acc.lookup (outer item)).getD ∅).insert (inner item) item)) ∅

/-- The number of elements in all the maps. -/
def countEntries (m : Finmap fun _ : K => Finmap fun _ : L => α) : ℕ :=
  ∑ k ∈ m.keys, ((m.lookup k).getD ∅).keys.card

variable {outer inner} {xs : List α} {a : α} {k : K}

private theorem indexByTwo_concat : indexByTwo outer inner (xs ++ [a]) =
    (indexByTwo outer inner xs).insert (outer a)
      ((((indexByTwo outer inner xs).lookup (outer a)).getD ∅).insert (inner a) a) := by
  rw [indexByTwo, List.foldl_append]
  rfl

theorem mem_indexByTwo : k ∈ indexByTwo outer inner xs ↔ k ∈ xs.map outer := by
  induction xs using List.reverseRecOn with
  | nil => simp [indexByTwo, Finmap.notMem_empty]
  | append_singleton xs a ih =>
    rw [indexByTwo_concat, Finmap.mem_insert, ih]
    simp [or_comm, eq_comm]

/-- What is found under a key is the index of its own elements. -/
theorem getD_lookup_indexByTwo (xs : List α) (k : K) :
    ((indexByTwo outer inner xs).lookup k).getD ∅ =
      indexBy inner (xs.filter (outer · = k)) := by
  induction xs using List.reverseRecOn with
  | nil => simp [indexByTwo, indexBy]
  | append_singleton xs a ih =>
    rw [indexByTwo_concat, List.filter_append]
    by_cases hk : outer a = k
    · subst hk
      rw [Finmap.lookup_insert, Option.getD_some, ih, ← indexBy_concat]
      simp
    · rw [Finmap.lookup_insert_of_ne _ (Ne.symm hk), ih]
      simp [hk]

private theorem countEntries_indexByTwo (xs : List α) : countEntries (indexByTwo outer inner xs) =
    (xs.map fun a => (outer a, inner a)).toFinset.card := by
  have hkeys : (indexByTwo outer inner xs).keys = (xs.map outer).toFinset := by
    ext k
    rw [Finmap.mem_keys, mem_indexByTwo, List.mem_toFinset]
  have hmaps : Set.MapsTo Prod.fst ((xs.map fun a => (outer a, inner a)).toFinset : Set (K × L))
      ((xs.map outer).toFinset : Set K) := by
    intro p hp
    obtain ⟨a, ha, rfl⟩ := List.mem_map.mp (List.mem_toFinset.mp hp)
    exact List.mem_toFinset.mpr (List.mem_map_of_mem ha)
  rw [countEntries, hkeys, Finset.card_eq_sum_card_fiberwise hmaps]
  apply Finset.sum_congr rfl
  intro k _
  rw [getD_lookup_indexByTwo, keys_indexBy,
    ← Finset.card_image_of_injective _ (Prod.mk_right_injective k)]
  congr 1
  ext p
  simp only [Finset.mem_image, List.mem_toFinset, List.mem_map, List.mem_filter,
    Finset.mem_filter, decide_eq_true_eq]
  constructor
  · rintro ⟨l, ⟨a, ⟨ha, hk⟩, rfl⟩, rfl⟩
    exact ⟨⟨a, ha, by rw [hk]⟩, rfl⟩
  · rintro ⟨⟨a, ha, rfl⟩, hk⟩
    exact ⟨inner a, ⟨a, ⟨ha, hk⟩, rfl⟩, by rw [← hk]⟩

theorem countEntries_eq_length_iff (xs : List α) :
    countEntries (indexByTwo outer inner xs) = xs.length ↔
      (xs.map fun a => (outer a, inner a)).Nodup := by
  rw [countEntries_indexByTwo, ← List.length_map fun a => (outer a, inner a)]
  exact Multiset.toFinset_card_eq_card_iff_nodup

end TwoKeys

end JsonRpcRelay.Framework

import Mathlib.Data.List.Nodup

/-!
# Bounded caches that drop the least recently used entry

The entries stand in the order of their last use, the most recent first.  A new key drops the
last entry of a full cache; nothing else ever drops an entry.
-/

namespace JsonRpcRelay.Framework

structure LRUCache (κ ν : Type) where
  max : ℕ
  entries : List (κ × ν)
  pos : 0 < max
  nodup : (entries.map Prod.fst).Nodup
  bounded : entries.length ≤ max

namespace LRUCache

variable {κ ν : Type} [DecidableEq κ]

def empty (max : ℕ) (pos : 0 < max) : LRUCache κ ν := ⟨max, [], pos, List.nodup_nil, Nat.zero_le _⟩

def get? (c : LRUCache κ ν) (k : κ) : Option ν :=
  (c.entries.find? fun e => e.1 = k).map Prod.snd

def has (c : LRUCache κ ν) (k : κ) : Bool := (c.get? k).isSome

/-- The other entries. -/
def others (c : LRUCache κ ν) (k : κ) : List (κ × ν) := c.entries.filter fun e => e.1 ≠ k

/-- The entry that makes room for a new key. -/
def victim (c : LRUCache κ ν) (k : κ) : Option (κ × ν) :=
  if (c.others k).length < c.max then none else (c.others k).getLast?

/-- The entries that stay when the key is set. -/
def kept (c : LRUCache κ ν) (k : κ) : List (κ × ν) :=
  if (c.others k).length < c.max then c.others k else (c.others k).dropLast

private theorem others_sublist (c : LRUCache κ ν) (k : κ) : (c.others k).Sublist c.entries :=
  List.filter_sublist

private theorem kept_sublist (c : LRUCache κ ν) (k : κ) : (c.kept k).Sublist (c.others k) := by
  unfold kept
  split
  · exact List.Sublist.refl _
  · exact List.dropLast_sublist _

theorem nodup_cons {c : LRUCache κ ν} {k : κ} {es : List (κ × ν)} (h : es.Sublist (c.others k))
    (v : ν) : (((k, v) :: es).map Prod.fst).Nodup := by
  rw [List.map_cons, List.nodup_cons]
  refine ⟨?_, c.nodup.sublist ((h.trans (c.others_sublist k)).map _)⟩
  intro hin
  obtain ⟨e, he, hk⟩ := List.mem_map.mp hin
  have hother := List.mem_filter.mp (h.subset he)
  simp [hk] at hother

private theorem kept_length (c : LRUCache κ ν) (k : κ) : (c.kept k).length < c.max := by
  unfold kept
  split
  · assumption
  · have hle := Nat.le_trans (c.others_sublist k).length_le c.bounded
    have hpos := c.pos
    rw [List.length_dropLast]
    omega

def set (c : LRUCache κ ν) (k : κ) (v : ν) : LRUCache κ ν where
  max := c.max
  entries := (k, v) :: c.kept k
  pos := c.pos
  nodup := nodup_cons (c.kept_sublist k) v
  bounded := c.kept_length k

/-- The use of a key: its entry becomes the most recent one. -/
def touch (c : LRUCache κ ν) (k : κ) : LRUCache κ ν :=
  match c.get? k with
  | none => c
  | some v => c.set k v

section Lookup

variable {c : LRUCache κ ν} {k k' : κ} {v v' : ν}

private theorem get?_eq_some : c.get? k = some v ↔ (k, v) ∈ c.entries := by
  unfold get?
  constructor
  · intro h
    obtain ⟨e, he, rfl⟩ := Option.map_eq_some_iff.mp h
    have hk : e.1 = k := by simpa using List.find?_some he
    rw [← hk]
    exact List.mem_of_find?_eq_some he
  · intro h
    cases hfind : c.entries.find? fun e => e.1 = k with
    | none => simpa using List.find?_eq_none.mp hfind (k, v) h
    | some e =>
      have hk : e.1 = k := by simpa using List.find?_some hfind
      have heq : e = (k, v) := List.inj_on_of_nodup_map c.nodup
        (List.mem_of_find?_eq_some hfind) h hk
      rw [heq, Option.map_some]

private theorem mem_others {e : κ × ν} : e ∈ c.others k ↔ e ∈ c.entries ∧ e.1 ≠ k := by
  simp [others]

theorem get?_set_self : (c.set k v).get? k = some v :=
  get?_eq_some.mpr List.mem_cons_self

/-- Setting a key brings in nothing else. -/
theorem get?_of_set (hk : k' ≠ k) (h : (c.set k v).get? k' = some v') : c.get? k' = some v' := by
  rw [get?_eq_some] at h ⊢
  rcases List.mem_cons.mp h with heq | hkept
  · exact absurd (congrArg Prod.fst heq) hk
  · exact (c.others_sublist k).subset ((c.kept_sublist k).subset hkept)

/-- Setting a key drops the victim alone. -/
theorem get?_set_of_ne (hk : k' ≠ k) (h : c.get? k' = some v') (hv : c.victim k ≠ some (k', v')) :
    (c.set k v).get? k' = some v' := by
  rw [get?_eq_some] at h ⊢
  have hother : (k', v') ∈ c.others k := mem_others.mpr ⟨h, hk⟩
  apply List.mem_cons_of_mem
  unfold kept
  unfold victim at hv
  split
  · exact hother
  · rename_i hfull
    rw [if_neg hfull] at hv
    have hne : c.others k ≠ [] := List.ne_nil_of_mem hother
    have hlast : (k', v') ≠ (c.others k).getLast hne := by
      intro heq
      exact hv (by rw [List.getLast?_eq_some_getLast hne, heq])
    have hsplit := List.dropLast_concat_getLast hne
    rw [← hsplit] at hother
    exact (List.mem_append.mp hother).resolve_right fun hin => hlast (List.mem_singleton.mp hin)

private theorem victim_eq_none (h : c.get? k = some v) : c.victim k = none := by
  have hlt : (c.others k).length < c.entries.length := by
    unfold others
    rw [List.length_filter_lt_length_iff_exists]
    exact ⟨(k, v), get?_eq_some.mp h, by simp⟩
  unfold victim
  rw [if_pos (Nat.lt_of_lt_of_le hlt c.bounded)]

@[simp] theorem get?_touch : (c.touch k).get? k' = c.get? k' := by
  unfold touch
  cases hk : c.get? k with
  | none => rfl
  | some v =>
    dsimp only
    by_cases heq : k' = k
    · rw [heq, get?_set_self, hk]
    · cases hk' : c.get? k' with
      | none =>
        rw [Option.eq_none_iff_forall_ne_some]
        intro v' hv'
        rw [get?_of_set heq hv'] at hk'
        cases hk'
      | some v' =>
        apply get?_set_of_ne heq hk'
        rw [victim_eq_none hk]
        exact nofun

end Lookup

end LRUCache

end JsonRpcRelay.Framework

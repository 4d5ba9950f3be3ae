import Mathlib.Data.List.AList

/-!
# Stores whose entries expire

A finite map whose entries may carry a deadline.  An entry is read as long as the expiry rule
of the store says that it is alive; when it is dropped physically does not matter.
-/

namespace JsonRpcRelay.Framework

/-- When an entry with a deadline is still readable. -/
structure Expiry where
  alive : (now deadline : ℕ) → Bool
  mono : ∀ {now later deadline}, now ≤ later → alive later deadline → alive now deadline
  fresh : ∀ now ttl, 0 < ttl → alive now (now + ttl)

namespace Expiry

/-- The entry is gone at its deadline. -/
def strict : Expiry where
  alive now deadline := now < deadline
  mono := by
    intro now later deadline hle h
    simp only [decide_eq_true_eq] at h ⊢
    omega
  fresh := by
    intro now ttl h
    simp only [decide_eq_true_eq]
    omega

/-- The entry is gone after its deadline. -/
def inclusive : Expiry where
  alive now deadline := now ≤ deadline
  mono := by
    intro now later deadline hle h
    simp only [decide_eq_true_eq] at h ⊢
    omega
  fresh := by
    intro now ttl h
    simp only [decide_eq_true_eq]
    omega

end Expiry

structure Entry (V : Type) where
  value : V
  deadline : Option ℕ
  deriving DecidableEq

/-- Whether an entry is readable. -/
def Entry.aliveAt {V : Type} (x : Expiry) (now : ℕ) (e : Entry V) : Bool :=
  e.deadline.all (x.alive now)

abbrev Store (K : Type) (V : K → Type) := AList fun k : K => Entry (V k)

namespace Store

variable {K : Type} [DecidableEq K] {V : K → Type} (x : Expiry) (now : ℕ)

def get (s : Store K V) (k : K) : Option (V k) :=
  (s.lookup k).bind fun e => if e.aliveAt x now then some e.value else none

/-- The entry of a key as long as it is readable. -/
def liveEntry (s : Store K V) (k : K) : Option (Entry (V k)) :=
  (s.lookup k).filter fun e => e.aliveAt x now

/-- Store a value for `ttl` time units; a time to live that is not positive means that the
entry does not expire. -/
def set (s : Store K V) (k : K) (v : V k) (ttl : ℤ) : Store K V :=
  s.insert k ⟨v, if 0 < ttl then some (now + ttl.toNat) else none⟩

def delete (s : Store K V) (k : K) : Store K V := s.erase k

/-- Change a value and keep its deadline. -/
def replace (s : Store K V) (k : K) (v : V k) : Store K V :=
  s.insert k ⟨v, ((s.liveEntry x now k).map Entry.deadline).getD none⟩

/-- The keys of the readable entries. -/
def liveKeys (s : Store K V) : List K := s.keys.filter fun k => (s.get x now k).isSome

variable {x now} {s : Store K V} {k l : K}

@[simp] theorem get_set_self {v : V k} {ttl : ℤ} : (s.set now k v ttl).get x now k = some v := by
  simp only [set, get, AList.lookup_insert, Option.bind_some, ite_eq_left_iff]
  intro hdead
  refine absurd ?_ hdead
  by_cases hpos : 0 < ttl
  · simpa [Entry.aliveAt, hpos] using x.fresh now ttl.toNat (by omega)
  · simp [Entry.aliveAt, hpos]

theorem get_set_of_ne {v : V k} {ttl : ℤ} (h : l ≠ k) :
    (s.set now k v ttl).get x now l = s.get x now l := by
  simp only [set, get, AList.lookup_insert_ne h]

@[simp] theorem get_delete_self : (s.delete k).get x now k = none := by
  simp only [delete, get, AList.lookup_erase, Option.bind_none]

theorem get_delete_of_ne (h : l ≠ k) : (s.delete k).get x now l = s.get x now l := by
  simp only [delete, get, AList.lookup_erase_ne h]

@[simp] theorem get_replace_self {v : V k} : (s.replace x now k v).get x now k = some v := by
  simp only [replace, get, AList.lookup_insert, Option.bind_some, ite_eq_left_iff]
  intro hdead
  refine absurd ?_ hdead
  cases h : s.liveEntry x now k with
  | none => simp [Entry.aliveAt]
  | some e =>
    have halive := (Option.filter_eq_some_iff.mp h).2
    simpa [Entry.aliveAt] using halive

theorem get_replace_of_ne {v : V k} (h : l ≠ k) :
    (s.replace x now k v).get x now l = s.get x now l := by
  simp only [replace, get, AList.lookup_insert_ne h]

/-- Time only takes entries away. -/
theorem get_of_later {later : ℕ} (hle : now ≤ later) {v : V k} (h : s.get x later k = some v) :
    s.get x now k = some v := by
  simp only [get, Option.bind_eq_some_iff, Option.ite_none_right_eq_some, Option.some.injEq] at h ⊢
  obtain ⟨e, he, halive, rfl⟩ := h
  refine ⟨e, he, ?_, rfl⟩
  cases hd : e.deadline with
  | none => simp [Entry.aliveAt, hd]
  | some d =>
    simp only [Entry.aliveAt, hd, Option.all_some] at halive ⊢
    exact x.mono hle halive

theorem mem_liveKeys : k ∈ s.liveKeys x now ↔ (s.get x now k).isSome := by
  refine ⟨fun h => (List.mem_filter.mp h).2, fun h => List.mem_filter.mpr ⟨?_, h⟩⟩
  cases hk : s.lookup k with
  | none => simp [get, hk] at h
  | some e => exact AList.mem_keys.mp (AList.lookup_isSome.mp (by simp [hk]))

section Entries

/-- Give a key `ttl` time units from now.  A time that is not positive deletes the key. -/
def expire (x : Expiry) (now : ℕ) (s : Store K V) (k : K) (ttl : ℤ) : Store K V :=
  match s.liveEntry x now k with
  | some e => if 0 < ttl then s.insert k ⟨e.value, some (now + ttl.toNat)⟩ else s.erase k
  | none => s

/-- Delete several keys. -/
def unlink (s : Store K V) (ks : List K) : Store K V := ks.foldl (fun s k => s.erase k) s

variable {ttl : ℤ} {e : Entry (V k)} {ks : List K}

theorem get_eq_map_liveEntry : s.get x now k = (s.liveEntry x now k).map Entry.value := by
  unfold get liveEntry
  cases s.lookup k with
  | none => rfl
  | some e =>
    rw [Option.bind_some, Option.filter_some]
    split <;> rfl

theorem aliveAt_of_liveEntry (h : s.liveEntry x now k = some e) : e.aliveAt x now = true :=
  (Option.filter_eq_some_iff.mp h).2

theorem liveEntry_insert_self (h : e.aliveAt x now = true) :
    liveEntry x now (s.insert k e) k = some e := by
  simp [liveEntry, h]

theorem liveEntry_insert_of_ne {e : Entry (V l)} (h : k ≠ l) :
    liveEntry x now (s.insert l e) k = s.liveEntry x now k := by
  simp [liveEntry, AList.lookup_insert_ne h]

@[simp] theorem liveEntry_erase_self : liveEntry x now (s.erase k) k = none := by
  simp [liveEntry]

theorem liveEntry_erase_of_ne (h : k ≠ l) :
    liveEntry x now (s.erase l) k = s.liveEntry x now k := by
  simp [liveEntry, AList.lookup_erase_ne h]

@[simp] theorem liveEntry_empty : liveEntry x now (∅ : Store K V) k = none := by
  simp [liveEntry]

omit [DecidableEq K] in
/-- What is readable at a later time was readable before. -/
theorem filter_aliveAt_later {later : ℕ} (hle : now ≤ later) (o : Option (Entry (V k))) :
    o.filter (Entry.aliveAt x later) =
      (o.filter (Entry.aliveAt x now)).filter (Entry.aliveAt x later) := by
  rw [Option.filter_filter]
  cases o with
  | none => rfl
  | some e =>
    simp only [Option.filter_some]
    congr 1
    cases hd : e.deadline with
    | none => simp [Entry.aliveAt, hd]
    | some d =>
      simp only [Entry.aliveAt, hd, Option.all_some]
      cases hlater : x.alive later d with
      | false => simp
      | true => simp [x.mono hle hlater]

theorem liveEntry_later {later : ℕ} (hle : now ≤ later) :
    s.liveEntry x later k = (s.liveEntry x now k).filter fun e => e.aliveAt x later :=
  filter_aliveAt_later hle _

omit [DecidableEq K] in
private theorem aliveAt_fresh {v : V k} (h : 0 < ttl) :
    Entry.aliveAt x now ⟨v, some (now + ttl.toNat)⟩ = true := by
  simpa [Entry.aliveAt] using x.fresh now ttl.toNat (by omega)

omit [DecidableEq K] in
theorem aliveAt_written {v : V k} :
    Entry.aliveAt x now ⟨v, if 0 < ttl then some (now + ttl.toNat) else none⟩ = true := by
  split
  · exact aliveAt_fresh ‹_›
  · rfl

theorem liveEntry_set_self {v : V k} : liveEntry x now (s.set now k v ttl) k =
    some ⟨v, if 0 < ttl then some (now + ttl.toNat) else none⟩ :=
  liveEntry_insert_self aliveAt_written

theorem liveEntry_set_of_ne {v : V l} (h : k ≠ l) {later : ℕ} :
    liveEntry x later (s.set now l v ttl) k = s.liveEntry x later k :=
  liveEntry_insert_of_ne h

theorem liveEntry_expire_self : liveEntry x now (s.expire x now k ttl) k =
    (s.liveEntry x now k).bind fun e =>
      if 0 < ttl then some ⟨e.value, some (now + ttl.toNat)⟩ else none := by
  unfold expire
  cases h : s.liveEntry x now k with
  | none => rw [h]; rfl
  | some e =>
    by_cases hpos : 0 < ttl
    · simp only [hpos, if_true, Option.bind_some]
      exact liveEntry_insert_self (aliveAt_fresh hpos)
    · simp only [hpos, if_false, Option.bind_some]
      exact liveEntry_erase_self

theorem liveEntry_expire_of_ne (h : k ≠ l) :
    liveEntry x now (s.expire x now l ttl) k = s.liveEntry x now k := by
  unfold expire
  split
  · split
    · exact liveEntry_insert_of_ne h
    · exact liveEntry_erase_of_ne h
  · rfl

theorem liveEntry_unlink : liveEntry x now (s.unlink ks) k =
    if k ∈ ks then none else s.liveEntry x now k := by
  unfold unlink
  induction ks generalizing s with
  | nil => rfl
  | cons l ks ih =>
    rw [List.foldl_cons, ih]
    by_cases hk : k = l
    · subst hk
      simp
    · simp [hk, liveEntry_erase_of_ne hk]

end Entries

end Store

end JsonRpcRelay.Framework

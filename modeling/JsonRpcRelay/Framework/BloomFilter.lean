import Mathlib.Data.List.Induction
import Mathlib.Data.Nat.Bitwise
import Mathlib.Data.Set.Basic

/-!
# Bloom filters

A filter holds the positions of the items that were added.  It answers for each of them, and a
filter that answers for an item under every hash function was given the item.  The positions
are kept as the bits of a number, which is written in bytes.
-/

namespace JsonRpcRelay.Framework

section Positions

variable {α δ ι : Type} {positions : α → List ι} {items : List α} {x : α}

/-- The positions of a list of items. -/
def bloomOf (positions : α → List ι) (items : List α) : Set ι :=
  {p | ∃ y ∈ items, p ∈ positions y}

/-- The test of a client: no position of the item is missing. -/
def MayContain (positions : α → List ι) (bloom : Set ι) (x : α) : Prop :=
  ∀ p ∈ positions x, p ∈ bloom

private theorem mayContain_of_mem (h : x ∈ items) :
    MayContain positions (bloomOf positions items) x :=
  fun _ hp => ⟨x, h, hp⟩

/-- Only the items that were added are found under every hash function. -/
theorem forall_mayContain_iff [DecidableEq α] {locations : δ → List ι} {d d' : δ} {p : ι}
    (hd : p ∈ locations d) (hd' : p ∉ locations d') :
    (∀ hash : α → δ, MayContain (locations ∘ hash) (bloomOf (locations ∘ hash) items) x) ↔
      x ∈ items := by
  constructor
  · intro h
    -- a hash function that tells the item apart from the others
    let hash : α → δ := fun y => if y = x then d else d'
    have hx : p ∈ (locations ∘ hash) x := by simpa [hash] using hd
    obtain ⟨y, hy, hp⟩ := h hash p hx
    by_cases hyx : y = x
    · exact hyx ▸ hy
    · exact absurd (by simpa [hash, hyx] using hp) hd'
  · exact fun h _ => mayContain_of_mem h

end Positions

section Bytes

/-- The number that bytes stand for, the highest byte first. -/
def ofBytes (bytes : List UInt8) : ℕ := bytes.foldl (fun n b => 256 * n + b.toNat) 0

theorem ofBytes_concat (bytes : List UInt8) (b : UInt8) :
    ofBytes (bytes ++ [b]) = 2 ^ 8 * ofBytes bytes + b.toNat := by
  rw [ofBytes, List.foldl_append]
  rfl

@[simp] theorem ofBytes_replicate_zero (n : ℕ) : ofBytes (List.replicate n 0) = 0 := by
  induction n with
  | zero => rfl
  | succ n ih =>
    rw [List.replicate_succ', ofBytes_concat, ih]
    rfl

/-- Set one bit of the number. -/
def setBit (bytes : List UInt8) (loc : ℕ) : List UInt8 :=
  bytes.modify (bytes.length - loc / 8 - 1) (· ||| UInt8.ofNat (1 <<< (loc % 8)))

@[simp] theorem length_setBit (bytes : List UInt8) (loc : ℕ) :
    (setBit bytes loc).length = bytes.length := by
  simp [setBit]

@[simp] theorem length_foldl_setBit (bytes : List UInt8) (locs : List ℕ) :
    (locs.foldl setBit bytes).length = bytes.length := by
  induction locs generalizing bytes with
  | nil => rfl
  | cons loc locs ih => simp [ih]

private theorem toNat_or_bit (b : UInt8) {k : ℕ} (hk : k < 8) :
    (b ||| UInt8.ofNat (1 <<< k)).toNat = b.toNat ||| 2 ^ k := by
  have hlt : 2 ^ k < 2 ^ 8 := Nat.pow_lt_pow_right (by decide) hk
  rw [UInt8.toNat_or, UInt8.toNat_ofNat', Nat.one_shiftLeft, Nat.mod_eq_of_lt hlt]

private theorem setBit_concat_low (bytes : List UInt8) (b : UInt8) {loc : ℕ} (h : loc < 8) :
    setBit (bytes ++ [b]) loc = bytes ++ [b ||| UInt8.ofNat (1 <<< loc)] := by
  have hdiv : loc / 8 = 0 := by omega
  have hmod : loc % 8 = loc := by omega
  rw [setBit, List.length_append, List.length_singleton, hdiv, hmod]
  apply List.ext_getElem
  · simp
  · intro i hi hi'
    simp [List.getElem_modify, List.getElem_append]
    grind

private theorem setBit_concat_high (bytes : List UInt8) (b : UInt8) {loc : ℕ} (h : 8 ≤ loc)
    (hloc : loc < 8 * (bytes.length + 1)) :
    setBit (bytes ++ [b]) loc = setBit bytes (loc - 8) ++ [b] := by
  have hindex : bytes.length + 1 - loc / 8 - 1 = bytes.length - (loc - 8) / 8 - 1 := by omega
  have hmod : loc % 8 = (loc - 8) % 8 := by omega
  have hlt : bytes.length - (loc - 8) / 8 - 1 < bytes.length := by omega
  rw [setBit, setBit, List.length_append, List.length_singleton, hindex, hmod]
  apply List.ext_getElem
  · simp
  · intro i hi hi'
    simp [List.getElem_modify, List.getElem_append]
    grind

private theorem ofBytes_setBit (bytes : List UInt8) {loc : ℕ} (h : loc < 8 * bytes.length) :
    ofBytes (setBit bytes loc) = ofBytes bytes ||| 2 ^ loc := by
  induction bytes using List.reverseRecOn generalizing loc with
  | nil => simp at h
  | append_singleton bytes b ih =>
    have hb : b.toNat < 2 ^ 8 := b.toNat_lt
    rw [List.length_append, List.length_singleton] at h
    apply Nat.eq_of_testBit_eq
    intro q
    by_cases hlow : loc < 8
    · have hset : (b ||| UInt8.ofNat (1 <<< loc)).toNat < 2 ^ 8 := UInt8.toNat_lt _
      rw [setBit_concat_low bytes b hlow, ofBytes_concat, ofBytes_concat, Nat.testBit_or,
        Nat.testBit_two_pow_mul_add _ hset, Nat.testBit_two_pow_mul_add _ hb,
        toNat_or_bit b hlow, Nat.testBit_or, Nat.testBit_two_pow]
      grind
    · rw [setBit_concat_high bytes b (by omega) h, ofBytes_concat, ofBytes_concat, Nat.testBit_or,
        Nat.testBit_two_pow_mul_add _ hb, Nat.testBit_two_pow_mul_add _ hb,
        ih (by omega), Nat.testBit_or, Nat.testBit_two_pow, Nat.testBit_two_pow]
      grind

/-- Setting bits one after the other adds exactly their positions. -/
theorem testBit_foldl_setBit (bytes : List UInt8) {locs : List ℕ}
    (h : ∀ loc ∈ locs, loc < 8 * bytes.length) (q : ℕ) :
    (ofBytes (locs.foldl setBit bytes)).testBit q = true ↔
      q ∈ locs ∨ (ofBytes bytes).testBit q = true := by
  induction locs generalizing bytes with
  | nil => simp
  | cons loc locs ih =>
    have hrest : ∀ l ∈ locs, l < 8 * (setBit bytes loc).length := by
      intro l hl
      rw [length_setBit]
      exact h l (List.mem_cons_of_mem _ hl)
    rw [List.foldl_cons, ih _ hrest, ofBytes_setBit bytes (h loc List.mem_cons_self),
      Nat.testBit_or, Nat.testBit_two_pow]
    simp only [Bool.or_eq_true, decide_eq_true_eq, List.mem_cons]
    tauto

end Bytes

end JsonRpcRelay.Framework

import Mathlib.Data.List.Nodup

/-!
# Keys and their owners

Owners that take their keys one after another.  An owner gives up the keys that it is no longer to
have.
-/

namespace JsonRpcRelay.Framework

variable {K O A : Type} [DecidableEq K] [DecidableEq O]

/-- The owner has exactly these keys. -/
def assign (owner : O) (keys : List K) (f : K → Option O) (k : K) : Option O :=
  if k ∈ keys then some owner else if f k = some owner then none else f k

theorem assign_of_mem {owner : O} {keys : List K} {f : K → Option O} {k : K} (h : k ∈ keys) :
    assign owner keys f k = some owner := if_pos h

theorem assign_of_notMem {owner : O} {keys : List K} {f : K → Option O} {k : K} (h : k ∉ keys) :
    assign owner keys f k = if f k = some owner then none else f k := if_neg h

variable (owner : A → O) (keys : A → List K)

def assignAll (l : List A) (f : K → Option O) : K → Option O :=
  l.foldl (fun f a => assign (owner a) (keys a) f) f

variable {owner keys} {l : List A} {f : K → Option O} {k : K}

theorem assignAll_of_notMem (h : ∀ a ∈ l, k ∉ keys a) :
    assignAll owner keys l f k = if ∃ a ∈ l, f k = some (owner a) then none else f k := by
  induction l generalizing f with
  | nil => simp [assignAll]
  | cons a l ih =>
    obtain ⟨ha, hl⟩ := List.forall_mem_cons.mp h
    show assignAll owner keys l (assign (owner a) (keys a) f) k = _
    rw [ih hl, assign_of_notMem ha]
    by_cases hown : f k = some (owner a)
    · simp [hown]
    · simp [hown]

theorem assignAll_of_mem (howners : (l.map owner).Nodup)
    (hkeys : l.Pairwise fun a b => ∀ k ∈ keys a, k ∉ keys b) {a : A} (ha : a ∈ l)
    (hk : k ∈ keys a) : assignAll owner keys l f k = some (owner a) := by
  induction l generalizing f with
  | nil => cases ha
  | cons b l ih =>
    rw [List.map_cons, List.nodup_cons] at howners
    obtain ⟨hb, hl⟩ := List.pairwise_cons.mp hkeys
    show assignAll owner keys l (assign (owner b) (keys b) f) k = _
    rcases List.mem_cons.mp ha with rfl | ha
    · have hother : ¬∃ b ∈ l, some (owner a) = some (owner b) := by
        rintro ⟨b, hb, heq⟩
        exact howners.1 (List.mem_map.mpr ⟨b, hb, (Option.some.inj heq).symm⟩)
      rw [assignAll_of_notMem fun b hmem => hb b hmem k hk, assign_of_mem hk, if_neg hother]
    · exact ih howners.2 hl ha

end JsonRpcRelay.Framework

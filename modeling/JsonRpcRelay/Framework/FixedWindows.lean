import Mathlib.Data.List.Count
import Mathlib.Tactic.Ring

/-!
# Fixed windows

Grants that fall into windows of one length, of which no two overlap.  A stretch of time that is as
long as some windows meets one window more at most, which bounds the grants in it.
-/

namespace JsonRpcRelay.Framework

/-- A window, with the moments at which something was granted in it, the latest first. -/
structure FixedWindow where
  start : ℕ
  granted : List ℕ

/-- How many of the moments lie in a stretch of time. -/
def inSpan (start length : ℕ) (moments : List ℕ) : ℕ :=
  moments.countP fun t => start ≤ t ∧ t < start + length

/-- Windows that do not overlap, the latest first, with at most so many grants in each. -/
structure Windowed (length most : ℕ) (ws : List FixedWindow) : Prop where
  apart : ws.Pairwise fun later earlier => earlier.start + length ≤ later.start
  within : ∀ w ∈ ws, ∀ t ∈ w.granted, w.start ≤ t ∧ t < w.start + length
  bounded : ∀ w ∈ ws, w.granted.length ≤ most

def grants (ws : List FixedWindow) : List ℕ := ws.flatMap FixedWindow.granted

variable {length most start n t : ℕ} {w : FixedWindow} {ws : List FixedWindow}

theorem windowed_nil : Windowed length most [] where
  apart := List.Pairwise.nil
  within _ hw := absurd hw List.not_mem_nil
  bounded _ hw := absurd hw List.not_mem_nil

theorem Windowed.grant (h : Windowed length most (w :: ws)) (hstart : w.start ≤ t)
    (hend : t < w.start + length) (hroom : w.granted.length < most) :
    Windowed length most (⟨w.start, t :: w.granted⟩ :: ws) := by
  obtain ⟨hlast, hapart⟩ := List.pairwise_cons.mp h.apart
  constructor
  · exact List.pairwise_cons.mpr ⟨hlast, hapart⟩
  · intro v hv u hu
    obtain rfl | hv := List.mem_cons.mp hv
    · obtain rfl | hu := List.mem_cons.mp hu
      · exact ⟨hstart, hend⟩
      · exact h.within w List.mem_cons_self u hu
    · exact h.within v (List.mem_cons_of_mem _ hv) u hu
  · intro v hv
    obtain rfl | hv := List.mem_cons.mp hv
    · exact hroom
    · exact h.bounded v (List.mem_cons_of_mem _ hv)

/-- A window begins after the last one is over. -/
theorem Windowed.open (h : Windowed length most ws)
    (hover : ∀ w ∈ ws.head?, w.start + length ≤ t) : Windowed length most (⟨t, []⟩ :: ws) := by
  have hbefore : ∀ v ∈ ws, v.start + length ≤ t := by
    cases ws with
    | nil => simp
    | cons w ws =>
      have hlast : w.start + length ≤ t := hover w rfl
      intro v hv
      obtain rfl | hv := List.mem_cons.mp hv
      · exact hlast
      · have hv := (List.pairwise_cons.mp h.apart).1 v hv
        omega
  constructor
  · exact List.pairwise_cons.mpr ⟨hbefore, h.apart⟩
  · intro v hv u hu
    obtain rfl | hv := List.mem_cons.mp hv
    · exact absurd hu List.not_mem_nil
    · exact h.within v hv u hu
  · intro v hv
    obtain rfl | hv := List.mem_cons.mp hv
    · exact Nat.zero_le _
    · exact h.bounded v hv

/-- The window and the stretch of time have a moment in common. -/
def FixedWindow.meets (length start span : ℕ) (w : FixedWindow) : Bool :=
  start < w.start + length ∧ w.start < start + span

private theorem inSpan_append (start span : ℕ) (xs ys : List ℕ) :
    inSpan start span (xs ++ ys) = inSpan start span xs + inSpan start span ys :=
  List.countP_append

private theorem inSpan_le_length (start span : ℕ) (xs : List ℕ) :
    inSpan start span xs ≤ xs.length :=
  List.countP_le_length

theorem countP_le_add {α : Type*} {f g k : α → Bool} {l : List α}
    (h : ∀ a ∈ l, f a = true → g a = true ∨ k a = true) :
    l.countP f ≤ l.countP g + l.countP k := by
  induction l with
  | nil => exact Nat.zero_le _
  | cons a l ih =>
    have hrest := ih fun b hb => h b (List.mem_cons_of_mem _ hb)
    have hhead := h a List.mem_cons_self
    simp only [List.countP_cons]
    split
    · next hf =>
      rcases hhead hf with hg | hk
      · rw [if_pos hg]
        omega
      · rw [if_pos hk]
        omega
    · omega

private theorem inSpan_grants_le {span : ℕ}
    (hwithin : ∀ w ∈ ws, ∀ t ∈ w.granted, w.start ≤ t ∧ t < w.start + length)
    (hbounded : ∀ w ∈ ws, w.granted.length ≤ most) :
    inSpan start span (grants ws) ≤
      (ws.filter (FixedWindow.meets length start span)).length * most := by
  induction ws with
  | nil => exact Nat.zero_le _
  | cons w ws ih =>
    have hrest := ih (fun v hv => hwithin v (List.mem_cons_of_mem _ hv))
      (fun v hv => hbounded v (List.mem_cons_of_mem _ hv))
    rw [grants, List.flatMap_cons, ← grants, inSpan_append]
    by_cases hmeets : w.meets length start span = true
    · have hfirst : inSpan start span w.granted ≤ most :=
        (inSpan_le_length start span _).trans (hbounded w List.mem_cons_self)
      rw [List.filter_cons_of_pos hmeets, List.length_cons, Nat.succ_mul]
      omega
    · have hnone : inSpan start span w.granted = 0 := by
        rw [inSpan, List.countP_eq_zero]
        intro t ht
        have ht := hwithin w List.mem_cons_self t ht
        simp only [FixedWindow.meets, decide_eq_true_eq] at hmeets ⊢
        omega
      rw [List.filter_cons_of_neg hmeets, hnone, Nat.zero_add]
      exact hrest

/-- Windows that do not overlap are as far from a moment in the first of them as they are many. -/
theorem start_of_apart
    (hapart : ws.Pairwise fun later earlier => earlier.start + length ≤ later.start)
    (hafter : ∀ w ∈ ws, start < w.start + length) :
    ∀ w ∈ ws.head?, start + ws.length * length < w.start + 2 * length := by
  induction ws with
  | nil => simp
  | cons w ws ih =>
    obtain ⟨hlast, hapart⟩ := List.pairwise_cons.mp hapart
    intro v hv
    obtain rfl := Option.some.inj hv
    cases ws with
    | nil =>
      have hw := hafter w List.mem_cons_self
      simp only [List.length_cons, List.length_nil]
      omega
    | cons u us =>
      have hu := ih hapart (fun v hv => hafter v (List.mem_cons_of_mem _ hv)) u rfl
      have hlast := hlast u List.mem_cons_self
      rw [List.length_cons, Nat.succ_mul]
      omega

private theorem meets_length_le
    (hapart : ws.Pairwise fun later earlier => earlier.start + length ≤ later.start) :
    (ws.filter (FixedWindow.meets length start (n * length))).length ≤ n + 1 := by
  have hmeets : ∀ w ∈ ws.filter (FixedWindow.meets length start (n * length)),
      start < w.start + length ∧ w.start < start + n * length := by
    intro w hw
    simpa [FixedWindow.meets] using (List.mem_filter.mp hw).2
  have hfirst := start_of_apart (hapart.sublist List.filter_sublist) fun w hw => (hmeets w hw).1
  generalize ws.filter (FixedWindow.meets length start (n * length)) = met at hmeets hfirst
  cases met with
  | nil => exact Nat.zero_le _
  | cons w rest =>
    have hw := (hmeets w List.mem_cons_self).2
    have hfirst := hfirst w rfl
    have hlt : (w :: rest).length * length < (n + 2) * length := by
      rw [Nat.add_mul]
      omega
    exact Nat.le_of_lt_succ (Nat.lt_of_mul_lt_mul_right hlt)

theorem Windowed.inSpan_le (h : Windowed length most ws) (start n : ℕ) :
    inSpan start (n * length) (grants ws) ≤ (n + 1) * most :=
  (inSpan_grants_le h.within h.bounded).trans
    (Nat.mul_le_mul_right most (meets_length_le h.apart))

end JsonRpcRelay.Framework

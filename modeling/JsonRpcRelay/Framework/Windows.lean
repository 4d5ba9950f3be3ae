import Mathlib.Algebra.Order.Floor.Div
import Mathlib.Data.List.Count
import Mathlib.Tactic.Ring

/-!
# Recurring windows

Time from `start` on is cut into windows of length `d`.  A deadline that moves to the next boundary
whenever it has passed is met once in every window in which somebody looks at it.
-/

namespace JsonRpcRelay.Framework

variable {d start deadline deadline' now now' w : ℕ} {calls : List (ℕ × Bool)}

/-- The window in which a moment lies; a boundary belongs to the window it opens. -/
def windowOf (d start now : ℕ) : ℕ := (now - start) / d

/-- The next boundary after `now`, counted in steps of `d` from `deadline`. -/
structure NextBoundary (d deadline now deadline' : ℕ) : Prop where
  future : now < deadline'
  within : deadline' ≤ now + d
  steps : ∃ k, deadline' = deadline + k * d

/-- The deadline that is advanced by the steps passed, rounded up. -/
def advanceDeadline (d deadline now : ℕ) : ℕ := deadline + (now - deadline) ⌈/⌉ d * d

theorem advanceDeadline_ge (hd : 0 < d) : now ≤ advanceDeadline d deadline now := by
  have hsteps : now - deadline ≤ (now - deadline) ⌈/⌉ d * d := by
    have h := le_smul_ceilDiv (a := d) (b := now - deadline) hd
    rwa [smul_eq_mul, Nat.mul_comm] at h
  rw [advanceDeadline]
  omega

/-- The rounded-up number of steps lands after `now` unless `now` is a boundary itself. -/
theorem nextBoundary_advanceDeadline_iff (hd : 0 < d) (hdue : deadline ≤ now) :
    NextBoundary d deadline now (advanceDeadline d deadline now) ↔ ¬d ∣ now - deadline := by
  have hceil : (now - deadline) ⌈/⌉ d = (now - deadline + d - 1) / d :=
    Nat.ceilDiv_eq_add_pred_div _ _
  constructor
  · intro h hdvd
    obtain ⟨k, hk⟩ := hdvd
    have hsteps : (now - deadline + d - 1) / d = k := by
      rw [hk]
      refine Nat.div_eq_of_lt_le ?_ ?_
      · rw [Nat.mul_comm]
        omega
      · rw [Nat.succ_mul, Nat.mul_comm]
        omega
    have hfuture := h.future
    rw [advanceDeadline, hceil, hsteps, Nat.mul_comm, ← hk] at hfuture
    omega
  · intro hdvd
    have hge : now ≤ advanceDeadline d deadline now := advanceDeadline_ge hd
    have hle : (now - deadline + d - 1) / d * d ≤ now - deadline + d - 1 := Nat.div_mul_le_self _ _
    refine ⟨lt_of_le_of_ne hge ?_, ?_, ⟨_, rfl⟩⟩
    · intro heq
      apply hdvd
      rw [advanceDeadline] at heq
      exact ⟨(now - deadline) ⌈/⌉ d, by rw [Nat.mul_comm]; omega⟩
    · rw [advanceDeadline, hceil]
      omega

/-- Every window with a call has one call that met the deadline. -/
def OncePerWindow (calls : List (ℕ × Bool)) : Prop :=
  ∀ w ∈ calls.map Prod.fst, calls.count (w, true) = 1

/-- The deadline opens a window after those of all calls, and if it is not the first one, the window
in front of it has begun and has seen a call. -/
structure DeadlineKept (d start deadline now : ℕ) (calls : List (ℕ × Bool)) : Prop where
  opens : ∃ j, deadline = start + j * d ∧ (∀ w ∈ calls.map Prod.fst, w < j) ∧
    (0 < j → j - 1 ∈ calls.map Prod.fst ∧ start + (j - 1) * d ≤ now)
  once : OncePerWindow calls

theorem deadlineKept_start : DeadlineKept d start start now [] where
  opens := ⟨0, by simp, by simp, by simp⟩
  once := by simp [OncePerWindow]

theorem DeadlineKept.advance (h : DeadlineKept d start deadline now calls) (hle : now ≤ now') :
    DeadlineKept d start deadline now' calls where
  opens := by
    obtain ⟨j, hj, hbelow, hbegun⟩ := h.opens
    exact ⟨j, hj, hbelow, fun hpos => ⟨(hbegun hpos).1, (hbegun hpos).2.trans hle⟩⟩
  once := h.once

private theorem windowOf_eq {j : ℕ} (hd : 0 < d) (hbegun : start + j * d ≤ now)
    (hends : now < start + (j + 1) * d) : windowOf d start now = j := by
  rw [Nat.succ_mul] at hends
  refine Nat.div_eq_of_lt_le ?_ ?_
  · omega
  · rw [Nat.succ_mul]
    omega

private theorem OncePerWindow.append_met (h : OncePerWindow calls) (hnew : w ∉ calls.map Prod.fst) :
    OncePerWindow (calls ++ [(w, true)]) := by
  have hnone : calls.count (w, true) = 0 := by
    rw [List.count_eq_zero]
    exact fun hmem => hnew (List.mem_map_of_mem hmem)
  intro v hv
  rw [List.map_append, List.mem_append] at hv
  rw [List.count_append]
  by_cases hvw : v = w
  · subst hvw
    simp [hnone]
  · have hold : v ∈ calls.map Prod.fst := hv.resolve_right (by simpa using hvw)
    simp [h v hold, Ne.symm hvw]

private theorem OncePerWindow.append_early (h : OncePerWindow calls)
    (hold : w ∈ calls.map Prod.fst) :
    OncePerWindow (calls ++ [(w, false)]) := by
  intro v hv
  rw [List.map_append, List.mem_append] at hv
  have hmem : v ∈ calls.map Prod.fst := by
    rcases hv with hv | hv
    · exact hv
    · obtain rfl : v = w := by simpa using hv
      exact hold
  simp [List.count_append, h v hmem]

theorem DeadlineKept.met (h : DeadlineKept d start deadline now calls) (hd : 0 < d)
    (hdue : deadline ≤ now) (hnext : NextBoundary d deadline now deadline') :
    DeadlineKept d start deadline' now (calls ++ [(windowOf d start now, true)]) := by
  obtain ⟨j, rfl, hbelow, _⟩ := h.opens
  obtain ⟨hfuture, hwithin, k, rfl⟩ := hnext
  obtain ⟨i, hi⟩ : ∃ i, j + k = i + 1 := by
    refine ⟨j + k - 1, ?_⟩
    have hpos : 0 < k := Nat.pos_of_ne_zero fun hzero => by
      subst hzero
      omega
    omega
  have hsum : start + j * d + k * d = start + i * d + d := by
    rw [Nat.add_assoc, ← Nat.add_mul, hi, Nat.succ_mul, Nat.add_assoc]
  rw [hsum] at hfuture hwithin ⊢
  have hwindow : windowOf d start now = i := by
    refine windowOf_eq hd (by omega) ?_
    rw [Nat.succ_mul]
    omega
  have hle : j ≤ i := by
    by_contra hlt
    have hmul : (i + 1) * d ≤ j * d := Nat.mul_le_mul_right d (by omega)
    rw [Nat.succ_mul] at hmul
    omega
  rw [hwindow]
  refine ⟨⟨i + 1, by rw [Nat.succ_mul]; omega, ?_, ?_⟩, h.once.append_met ?_⟩
  · intro w hw
    rw [List.map_append, List.mem_append] at hw
    rcases hw with hw | hw
    · have hlt := hbelow w hw
      omega
    · obtain rfl : w = i := by simpa using hw
      exact Nat.lt_succ_self w
  · intro _
    refine ⟨by simp, ?_⟩
    rw [Nat.add_sub_cancel]
    omega
  · intro hmem
    have hlt := hbelow i hmem
    omega

theorem DeadlineKept.early (h : DeadlineKept d start deadline now calls) (hd : 0 < d)
    (hearly : now < deadline) (hstart : start ≤ now) :
    DeadlineKept d start deadline now (calls ++ [(windowOf d start now, false)]) := by
  obtain ⟨j, rfl, hbelow, hbegun⟩ := h.opens
  obtain ⟨i, rfl⟩ : ∃ i, j = i + 1 := by
    refine ⟨j - 1, ?_⟩
    have hpos : 0 < j := Nat.pos_of_ne_zero fun hzero => by
      subst hzero
      omega
    omega
  obtain ⟨hmem, hle⟩ := hbegun (Nat.succ_pos i)
  rw [Nat.add_sub_cancel] at hmem hle
  rw [windowOf_eq hd hle hearly]
  refine ⟨⟨i + 1, rfl, ?_, ?_⟩, h.once.append_early hmem⟩
  · intro w hw
    rw [List.map_append, List.mem_append] at hw
    rcases hw with hw | hw
    · exact hbelow w hw
    · obtain rfl : w = i := by simpa using hw
      exact Nat.lt_succ_self w
  · intro _
    refine ⟨?_, by rwa [Nat.add_sub_cancel]⟩
    rw [Nat.add_sub_cancel, List.map_append]
    exact List.mem_append_left _ hmem

end JsonRpcRelay.Framework

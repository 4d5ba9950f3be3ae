import Mathlib.Data.List.Basic
import Mathlib.Data.Nat.Notation

/-!
# Chunks of a list

A list is cut into chunks of one size, of which the last one may be shorter.
-/

namespace JsonRpcRelay.Framework

variable {α : Type}

def chunks (size : ℕ) (l : List α) : List (List α) :=
  (List.range ((l.length + (size - 1)) / size)).map fun i => (l.drop (i * size)).take size

variable {size : ℕ}

private theorem length_chunk (l : List α) (i : ℕ) :
    ((l.drop (i * size)).take size).length = min size (l.length - i * size) := by
  rw [List.length_take, List.length_drop]

/-- A chunk in front of the rest is as long as it can be. -/
theorem length_chunk_of_lt {l : List α} {i : ℕ} (hi : i < l.length / size) :
    ((l.drop (i * size)).take size).length = size := by
  have hmul : (i + 1) * size ≤ l.length :=
    Nat.le_trans (Nat.mul_le_mul_right size hi) (Nat.div_mul_le_self l.length size)
  rw [Nat.add_mul, Nat.one_mul] at hmul
  rw [length_chunk]
  omega

private theorem length_chunk_div (hsize : 0 < size) (l : List α) :
    ((l.drop (l.length / size * size)).take size).length = l.length % size := by
  have hmod := Nat.mod_lt l.length hsize
  have hdiv := Nat.div_add_mod' l.length size
  rw [length_chunk]
  omega

private theorem numberOfChunks (hsize : 0 < size) (length : ℕ) :
    (length + (size - 1)) / size = length / size + if length % size = 0 then 0 else 1 := by
  have hmod := Nat.mod_lt length hsize
  have hdiv := Nat.div_add_mod' length size
  have hsplit : length + (size - 1) = length % size + (size - 1) + length / size * size := by omega
  rw [hsplit, Nat.add_mul_div_right _ _ hsize, Nat.add_comm, Nat.add_left_cancel_iff]
  split_ifs with hzero
  · exact Nat.div_eq_of_lt (by omega)
  · exact Nat.div_eq_of_lt_le (by omega) (by omega)

theorem map_length_chunks (hsize : 0 < size) (l : List α) :
    (chunks size l).map List.length = List.replicate (l.length / size) size ++
      if l.length % size = 0 then [] else [l.length % size] := by
  have hfull : (List.range (l.length / size)).map
      (fun i => ((l.drop (i * size)).take size).length) =
        List.replicate (l.length / size) size := by
    rw [List.map_congr_left fun i hi => length_chunk_of_lt (List.mem_range.mp hi)]
    simp
  rw [chunks, List.map_map, numberOfChunks hsize]
  split_ifs with hzero
  · rw [Nat.add_zero, List.append_nil]
    exact hfull
  · rw [List.range_succ, List.map_append]
    simp only [Function.comp_def, hfull, List.map_cons, List.map_nil, length_chunk_div hsize]

end JsonRpcRelay.Framework

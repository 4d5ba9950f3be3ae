import Mathlib.Data.List.TakeWhile

/-!
# Query strings

Entries of a key and a value are written behind one another with a symbol between them.  They are
read back by cutting the text at this symbol, where empty pieces are no entries, and each piece at
the first symbol between key and value.
-/

namespace JsonRpcRelay.Framework

variable {α : Type*} [DecidableEq α]

/-- What stands in front of the first `a`, and what stands behind it. -/
def cut (a : α) (text : List α) : List α × List α :=
  (text.takeWhile (· ≠ a), (text.dropWhile (· ≠ a)).drop 1)

/-- The entries of a query. -/
def readQuery (amp eq : α) (text : List α) : List (List α × List α) :=
  ((text.splitOn amp).filter (· ≠ [])).map (cut eq)

section Cut

variable {a : α} {front rest text : List α}

theorem cut_append (h : a ∉ front) : cut a (front ++ a :: rest) = (front, rest) := by
  have hfront : ∀ b ∈ front, decide (b ≠ a) = true := fun b hb =>
    decide_eq_true fun heq => h (heq ▸ hb)
  have ha : decide (a ≠ a) = false := by simp
  rw [cut, List.takeWhile_append_of_pos hfront, List.dropWhile_append_of_pos hfront]
  simp

theorem cut_of_notMem (h : a ∉ text) : cut a text = (text, []) := by
  have htext : ∀ b ∈ text, decide (b ≠ a) = true := fun b hb =>
    decide_eq_true fun heq => h (heq ▸ hb)
  rw [cut, List.takeWhile_eq_self_iff.mpr htext, List.dropWhile_eq_nil_iff.mpr htext]
  rfl

end Cut

section Entries

variable {amp eq : α} {key value : List α}

@[simp] theorem readQuery_nil : readQuery amp eq [] = [] := by
  simp [readQuery]

/-- Two queries with the symbol between them. -/
theorem readQuery_append (first last : List α) :
    readQuery amp eq (first ++ amp :: last) = readQuery amp eq first ++ readQuery amp eq last := by
  rw [readQuery, List.splitOn_append_cons_self, List.filter_append, List.map_append]
  rfl

theorem readQuery_entry (hne : amp ≠ eq) (hkey : amp ∉ key) (hplain : eq ∉ key)
    (hvalue : amp ∉ value) : readQuery amp eq (key ++ eq :: value) = [(key, value)] := by
  have hpiece : amp ∉ key ++ eq :: value := by
    simp [hkey, hvalue, hne]
  rw [readQuery, List.splitOn_eq_singleton hpiece]
  simp [cut_append hplain]

theorem readQuery_intercalate (pieces : List (List α)) :
    readQuery amp eq ([amp].intercalate pieces) = pieces.flatMap (readQuery amp eq) := by
  induction pieces with
  | nil => exact readQuery_nil
  | cons piece pieces ih =>
    cases pieces with
    | nil => simp
    | cons next pieces =>
      rw [List.intercalate_cons_cons, List.append_assoc, List.singleton_append, readQuery_append,
        ih]
      rfl

end Entries

end JsonRpcRelay.Framework

import JsonRpcRelay.Framework.Traversal

/-!
# Tasks that are awaited together

Tasks run at the same time and end in some order.  If all of them succeed their results are listed
in the order of the tasks.  Otherwise the wait ends with the first failure.
-/

namespace JsonRpcRelay.Framework

/-- The order in which `n` tasks end, by their positions. -/
structure Settling where
  order : ℕ → List ℕ
  perm : ∀ n, (order n).Perm (List.range n)

section Await

variable {α β ε δ : Type}

def rejection : Except ε α → Option ε
  | .error e => some e
  | .ok _ => none

def firstRejection (settling : Settling) (tasks : List (Except ε α)) : Option ε :=
  (settling.order tasks.length).findSome? fun i => tasks[i]?.bind rejection

def awaitAll (settling : Settling) (tasks : List (Except ε α)) : Except ε (List α) :=
  match firstRejection settling tasks with
  | some e => .error e
  | none => tasks.mapM id

/-- Two tasks, where `secondFirst` tells which of two failures comes first. -/
def awaitBoth (secondFirst : Bool) : Except ε α → Except ε β → Except ε (α × β)
  | .ok a, .ok b => .ok (a, b)
  | .error e, .ok _ => .error e
  | .ok _, .error e => .error e
  | .error e, .error e' => .error (if secondFirst then e' else e)

variable {settling : Settling} {tasks : List (Except ε α)}

private theorem mem_of_firstRejection {e : ε} (h : firstRejection settling tasks = some e) :
    .error e ∈ tasks := by
  obtain ⟨i, _, hi⟩ := List.exists_of_findSome?_eq_some h
  obtain ⟨task, htask, he⟩ := Option.bind_eq_some_iff.mp hi
  cases task with
  | ok a => cases he
  | error e' =>
    obtain rfl := Option.some.inj he
    exact List.mem_of_getElem? htask

private theorem firstRejection_eq_none_iff :
    firstRejection settling tasks = none ↔ ∀ e, .error e ∉ tasks := by
  constructor
  · intro h e hmem
    obtain ⟨i, hi, hget⟩ := List.mem_iff_getElem.mp hmem
    have horder : i ∈ settling.order tasks.length :=
      (settling.perm _).mem_iff.mpr (List.mem_range.mpr hi)
    have hnone := List.findSome?_eq_none_iff.mp h i horder
    rw [List.getElem?_eq_getElem hi, hget] at hnone
    cases hnone
  · intro h
    by_contra hsome
    obtain ⟨e, he⟩ := Option.ne_none_iff_exists'.mp hsome
    exact h e (mem_of_firstRejection he)

/-- All results are there exactly if all tasks succeed, whatever the order in which they end. -/
theorem awaitAll_ok_iff {values : List α} :
    awaitAll settling tasks = .ok values ↔ tasks = values.map .ok := by
  rw [awaitAll]
  cases hfirst : firstRejection settling tasks with
  | none => rw [mapM_ok_iff, List.map_id]
  | some e =>
    constructor
    · intro h
      cases h
    · intro h
      have hmem := mem_of_firstRejection hfirst
      rw [h] at hmem
      obtain ⟨a, _, ha⟩ := List.mem_map.mp hmem
      cases ha

/-- The failure that is reported is the one of a task. -/
theorem mem_of_awaitAll_error {e : ε} (h : awaitAll settling tasks = .error e) :
    .error e ∈ tasks := by
  rw [awaitAll] at h
  cases hfirst : firstRejection settling tasks with
  | some e' =>
    rw [hfirst] at h
    obtain rfl := Except.error.inj h
    exact mem_of_firstRejection hfirst
  | none =>
    rw [hfirst] at h
    obtain ⟨task, htask, he⟩ := exists_of_mapM_error h
    exact he ▸ htask

/-- Errors may be translated before or after the wait. -/
theorem awaitAll_mapError (f : ε → δ) :
    awaitAll settling (tasks.map (Except.mapError f)) =
      (awaitAll settling tasks).mapError f := by
  have hfirst : firstRejection settling (tasks.map (Except.mapError f)) =
      (firstRejection settling tasks).map f := by
    rw [firstRejection, firstRejection, List.length_map, List.map_findSome?]
    congr 1
    funext i
    rw [List.getElem?_map, Function.comp_apply]
    cases tasks[i]? with
    | none => rfl
    | some task => cases task <;> rfl
  rw [awaitAll, awaitAll, hfirst]
  cases h : firstRejection settling tasks with
  | some e => rfl
  | none =>
    show (tasks.map (Except.mapError f)).mapM id = (tasks.mapM id).mapError f
    cases hvalues : tasks.mapM id with
    | error e =>
      obtain ⟨task, htask, he⟩ := exists_of_mapM_error hvalues
      exact absurd (he ▸ htask) (firstRejection_eq_none_iff.mp h e)
    | ok values =>
      have htasks : tasks = values.map .ok := by
        rw [← mapM_ok_iff.mp hvalues, List.map_id]
      apply mapM_ok_iff.mpr
      rw [List.map_id, htasks, List.map_map]
      rfl

end Await

end JsonRpcRelay.Framework

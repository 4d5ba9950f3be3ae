import Mathlib.Data.List.Nodup

/-!
# Maps in the order of insertion

The entries of a map are listed in the order in which their keys were first set.  A key that is
set again keeps its place.
-/

namespace JsonRpcRelay.Framework

variable {K V : Type} [DecidableEq K]

def setEntry (k : K) (v : V) : List (K × V) → List (K × V)
  | [] => [(k, v)]
  | (j, w) :: entries => if j = k then (k, v) :: entries else (j, w) :: setEntry k v entries

/-- The entries are set one after the other. -/
def setEntries (l entries : List (K × V)) : List (K × V) :=
  l.foldl (fun entries e => setEntry e.1 e.2 entries) entries

variable {k j : K} {v w : V} {l entries : List (K × V)}

private theorem lookup_entry_cons :
    ((k, v) :: entries).lookup j = if j = k then some v else entries.lookup j := by
  by_cases hj : j = k
  · simp [hj]
  · simp [hj, List.lookup_cons, beq_eq_false_iff_ne.mpr hj]

private theorem lookup_setEntry :
    (setEntry k v entries).lookup j = if j = k then some v else entries.lookup j := by
  induction entries with
  | nil => exact lookup_entry_cons
  | cons e entries ih =>
    obtain ⟨i, w⟩ := e
    by_cases hi : i = k
    · by_cases hj : j = k
      · simp [setEntry, hi, hj]
      · simp [setEntry, hi, hj, lookup_entry_cons]
    · by_cases hj : j = i
      · simp [setEntry, hi, hj]
      · simp [setEntry, hi, hj, lookup_entry_cons, ih]

/-- A key has an entry if it was set or had one before. -/
theorem isSome_lookup_setEntries : ((setEntries l entries).lookup k).isSome ↔
    (∃ v, (k, v) ∈ l) ∨ (entries.lookup k).isSome := by
  induction l generalizing entries with
  | nil => simp [setEntries]
  | cons e l ih =>
    show ((setEntries l (setEntry e.1 e.2 entries)).lookup k).isSome ↔ _
    rw [ih, lookup_setEntry]
    by_cases hk : k = e.1
    · subst hk
      simp only [if_true, Option.isSome_some, or_true, true_iff]
      exact Or.inl ⟨e.2, List.mem_cons_self⟩
    · have hne : ∀ v, (k, v) ≠ e := fun v heq => hk (congrArg Prod.fst heq)
      simp [hk, hne]

private theorem keys_setEntry : (setEntry k v entries).map Prod.fst =
    if k ∈ entries.map Prod.fst then entries.map Prod.fst else entries.map Prod.fst ++ [k] := by
  induction entries with
  | nil => rfl
  | cons e entries ih =>
    by_cases he : e.1 = k
    · simp [setEntry, he]
    · by_cases hk : k ∈ entries.map Prod.fst
      · simp only [hk, if_true] at ih
        simp [setEntry, he, ih, hk]
      · simp only [hk, if_false] at ih
        simp [setEntry, he, ih, hk, Ne.symm he]

theorem nodup_keys_setEntries (h : (entries.map Prod.fst).Nodup) :
    ((setEntries l entries).map Prod.fst).Nodup := by
  induction l generalizing entries with
  | nil => exact h
  | cons e l ih =>
    apply ih
    rw [keys_setEntry]
    by_cases he : e.1 ∈ entries.map Prod.fst
    · rwa [if_pos he]
    · rw [if_neg he]
      exact List.Nodup.append h (List.nodup_singleton _) (by simpa using he)

private theorem mem_setEntry {e : K × V} (h : e ∈ setEntry k v entries) :
    e = (k, v) ∨ e ∈ entries := by
  induction entries with
  | nil => exact Or.inl (List.mem_singleton.mp h)
  | cons f entries ih =>
    by_cases hf : f.1 = k
    · simp only [setEntry, hf, if_true, List.mem_cons] at h ⊢
      exact h.imp_right Or.inr
    · simp only [setEntry, hf, if_false, List.mem_cons] at h ⊢
      rcases h with h | h
      · exact Or.inr (Or.inl h)
      · exact (ih h).imp_right Or.inr

theorem mem_setEntries {e : K × V} (h : e ∈ setEntries l entries) : e ∈ l ∨ e ∈ entries := by
  induction l generalizing entries with
  | nil => exact Or.inr h
  | cons f l ih =>
    rcases ih h with hl | hentry
    · exact Or.inl (List.mem_cons_of_mem f hl)
    · rcases mem_setEntry hentry with heq | hentries
      · exact Or.inl (heq ▸ List.mem_cons_self)
      · exact Or.inr hentries

private theorem setEntry_of_notMem (h : k ∉ entries.map Prod.fst) :
    setEntry k v entries = entries ++ [(k, v)] := by
  induction entries with
  | nil => rfl
  | cons e entries ih =>
    simp only [List.map_cons, List.mem_cons, not_or] at h
    rw [setEntry, if_neg (Ne.symm h.1), ih h.2, List.cons_append]

/-- Entries with different keys are listed as they are. -/
theorem setEntries_of_nodup (h : ((entries ++ l).map Prod.fst).Nodup) :
    setEntries l entries = entries ++ l := by
  induction l generalizing entries with
  | nil => simp [setEntries]
  | cons e l ih =>
    have hnew : e.1 ∉ entries.map Prod.fst := by
      rw [List.map_append, List.map_cons] at h
      intro hmem
      exact (List.nodup_append.mp h).2.2 _ hmem _ List.mem_cons_self rfl
    show setEntries l (setEntry e.1 e.2 entries) = _
    rw [setEntry_of_notMem hnew, ih (by simpa using h), List.append_assoc]
    rfl

/-- Where the keys are different, the entries are those that are found. -/
theorem lookup_eq_some_iff_mem (h : (entries.map Prod.fst).Nodup) :
    entries.lookup k = some v ↔ (k, v) ∈ entries := by
  induction entries with
  | nil => simp
  | cons e entries ih =>
    obtain ⟨j, w⟩ := e
    obtain ⟨hj, hentries⟩ := List.nodup_cons.mp h
    rw [lookup_entry_cons, List.mem_cons, ← ih hentries]
    by_cases hk : k = j
    · subst hk
      have hnone : entries.lookup k ≠ some v := fun hlookup =>
        hj (List.mem_map.mpr ⟨_, (ih hentries).mp hlookup, rfl⟩)
      simp [hnone, eq_comm]
    · simp [hk]

theorem mem_of_lookup_eq_some (h : entries.lookup k = some v) : (k, v) ∈ entries := by
  induction entries with
  | nil => cases h
  | cons e entries ih =>
    obtain ⟨j, w⟩ := e
    rw [lookup_entry_cons] at h
    split at h
    · next hk =>
      rw [hk, Option.some.inj h]
      exact List.mem_cons_self
    · exact List.mem_cons_of_mem _ (ih h)

end JsonRpcRelay.Framework

import Mathlib.Data.List.Nodup
import Mathlib.Data.List.Infix

/-!
# First occurrences and grouping

Lists without their repetitions, and maps that keep the order in which their keys were first
set.  Grouping a list by a key gives the keys in the order of their first occurrences, each
with the sublist of the elements that have it.
-/

namespace JsonRpcRelay.Framework

section FirstOccurrences

variable {α β : Type} [BEq α] [LawfulBEq α] [BEq β] [LawfulBEq β]

private theorem eraseDups_concat (l : List α) (a : α) :
    (l ++ [a]).eraseDups = if a ∈ l then l.eraseDups else l.eraseDups ++ [a] := by
  rw [List.eraseDups_append]
  by_cases ha : a ∈ l
  · have hnone : [a].removeAll l = [] := by simp [List.removeAll, ha]
    rw [hnone, if_pos ha]
    simp
  · have hone : [a].removeAll l = [a] := by simp [List.removeAll, ha]
    rw [hone, if_neg ha]
    rfl

theorem nodup_eraseDups (l : List α) : l.eraseDups.Nodup := by
  induction l using List.reverseRecOn with
  | nil => simp
  | append_singleton l a ih =>
    rw [eraseDups_concat]
    by_cases ha : a ∈ l
    · simpa [ha] using ih
    · rw [if_neg ha]
      apply List.Nodup.append ih (List.nodup_singleton a)
      intro b hb hba
      have hb' : b ∈ l := List.mem_eraseDups.mp hb
      rw [List.mem_singleton.mp hba] at hb'
      exact ha hb'

theorem eraseDups_eq_self {l : List α} (h : l.Nodup) : l.eraseDups = l := by
  induction l using List.reverseRecOn with
  | nil => rfl
  | append_singleton l a ih =>
    have hl : l.Nodup := h.sublist (List.sublist_append_left l [a])
    have ha : a ∉ l := by
      intro ha
      exact (List.disjoint_of_nodup_append h) ha (List.mem_singleton_self a)
    rw [eraseDups_concat, if_neg ha, ih hl]

/-- A list of one repeated element. -/
theorem eraseDups_eq_singleton {l : List α} {a : α} (ha : a ∈ l) (h : ∀ b ∈ l, b = a) :
    l.eraseDups = [a] := by
  cases l with
  | nil => cases ha
  | cons b l =>
    obtain rfl := h b List.mem_cons_self
    have hrest : l.filter (fun c => !c == b) = [] := by
      apply List.filter_eq_nil_iff.mpr
      intro c hc
      simp [h c (List.mem_cons_of_mem _ hc)]
    rw [List.eraseDups_cons, hrest, List.eraseDups_nil]

theorem eraseDups_append_of_disjoint {l m : List α} (h : List.Disjoint l m) :
    (l ++ m).eraseDups = l.eraseDups ++ m.eraseDups := by
  have hm : m.removeAll l = m := by
    apply List.filter_eq_self.mpr
    intro a ha
    simpa using fun hl => h hl ha
  rw [List.eraseDups_append, hm]

theorem filter_eraseDups (p : α → Bool) (l : List α) :
    l.eraseDups.filter p = (l.filter p).eraseDups := by
  induction l using List.reverseRecOn with
  | nil => rfl
  | append_singleton l a ih =>
    rw [eraseDups_concat, List.filter_append]
    cases hp : p a with
    | false =>
      have hnone : [a].filter p = [] := by simp [hp]
      rw [hnone, List.append_nil]
      by_cases ha : a ∈ l
      · rw [if_pos ha, ih]
      · rw [if_neg ha, List.filter_append, hnone, List.append_nil, ih]
    | true =>
      have hone : [a].filter p = [a] := by simp [hp]
      have hmem : a ∈ l.filter p ↔ a ∈ l := by simp [List.mem_filter, hp]
      rw [hone, eraseDups_concat]
      by_cases ha : a ∈ l
      · rw [if_pos ha, if_pos (hmem.mpr ha), ih]
      · rw [if_neg ha, if_neg (mt hmem.mp ha), List.filter_append, hone, ih]

/-- A map that tells apart the elements of the list commutes with dropping repetitions. -/
theorem map_eraseDups {f : α → β} {l : List α}
    (hf : ∀ a ∈ l, ∀ b ∈ l, f a = f b → a = b) :
    l.eraseDups.map f = (l.map f).eraseDups := by
  induction l using List.reverseRecOn with
  | nil => rfl
  | append_singleton l a ih =>
    have hl : l.eraseDups.map f = (l.map f).eraseDups := by
      apply ih
      intro b hb c hc
      exact hf b (List.mem_append_left _ hb) c (List.mem_append_left _ hc)
    have hmem : f a ∈ l.map f ↔ a ∈ l := by
      constructor
      · intro h
        obtain ⟨b, hb, hba⟩ := List.mem_map.mp h
        have hab : b = a := hf b (List.mem_append_left _ hb) a (by simp) hba
        exact hab ▸ hb
      · exact fun h => List.mem_map_of_mem h
    rw [List.map_append, List.map_singleton, eraseDups_concat, eraseDups_concat]
    by_cases ha : a ∈ l
    · rw [if_pos ha, if_pos (hmem.mpr ha), hl]
    · rw [if_neg ha, if_neg (mt hmem.mp ha), List.map_append, hl, List.map_singleton]

omit [BEq β] [LawfulBEq β] in
/-- If the images are still without repetitions, the map told the elements apart. -/
theorem injOn_of_map_eraseDups_nodup {f : α → β} {l : List α}
    (h : (l.eraseDups.map f).Nodup) : ∀ a ∈ l, ∀ b ∈ l, f a = f b → a = b := by
  intro a ha b hb hab
  exact List.inj_on_of_nodup_map h (List.mem_eraseDups.mpr ha) (List.mem_eraseDups.mpr hb) hab

end FirstOccurrences

/-- A map whose entries are listed in the order in which their keys were first set. -/
structure InsertionMap (K V : Type) where
  entries : List (K × V)
  nodup : (entries.map Prod.fst).Nodup

namespace InsertionMap

variable {K V α : Type} [DecidableEq K]

def empty : InsertionMap K V := ⟨[], List.nodup_nil⟩

def keys (m : InsertionMap K V) : List K := m.entries.map Prod.fst

def get? (m : InsertionMap K V) (k : K) : Option V := m.entries.lookup k

private theorem map_fst_update (entries : List (K × V)) (k : K) (v : V) :
    (entries.map fun e => if e.1 = k then (k, v) else e).map Prod.fst =
      entries.map Prod.fst := by
  rw [List.map_map]
  apply List.map_congr_left
  intro e _
  by_cases he : e.1 = k
  · simp [he]
  · simp [he]

/-- A key that is set again keeps its place. -/
def set (m : InsertionMap K V) (k : K) (v : V) : InsertionMap K V :=
  if h : k ∈ m.keys then
    ⟨m.entries.map fun e => if e.1 = k then (k, v) else e, by
      rw [map_fst_update]
      exact m.nodup⟩
  else
    ⟨m.entries ++ [(k, v)], by
      rw [List.map_append]
      apply List.Nodup.append m.nodup (List.nodup_singleton k)
      intro a ha hak
      rw [List.mem_singleton.mp hak] at ha
      exact h ha⟩

private theorem entries_set_of_mem {m : InsertionMap K V} {k : K} (h : k ∈ m.keys) (v : V) :
    (m.set k v).entries = m.entries.map fun e => if e.1 = k then (k, v) else e := by
  rw [set, dif_pos h]

private theorem entries_set_of_notMem {m : InsertionMap K V} {k : K} (h : k ∉ m.keys) (v : V) :
    (m.set k v).entries = m.entries ++ [(k, v)] := by
  rw [set, dif_neg h]

def delete (m : InsertionMap K V) (k : K) : InsertionMap K V :=
  ⟨m.entries.filter (·.1 ≠ k), m.nodup.sublist (List.filter_sublist.map _)⟩

theorem get?_eq_some_iff {m : InsertionMap K V} {k : K} {v : V} :
    m.get? k = some v ↔ (k, v) ∈ m.entries := by
  obtain ⟨entries, hnodup⟩ := m
  rw [get?]
  dsimp only
  induction entries with
  | nil => simp
  | cons e entries ih =>
    obtain ⟨j, w⟩ := e
    rw [List.map_cons, List.nodup_cons] at hnodup
    rw [List.lookup_cons, List.mem_cons]
    by_cases hkj : k = j
    · subst hkj
      have hnot : (k, v) ∉ entries := by
        intro h
        exact hnodup.1 (List.mem_map.mpr ⟨(k, v), h, rfl⟩)
      simp [hnot, eq_comm]
    · have hne : (k == j) = false := by simpa using hkj
      rw [hne]
      simp [hkj, ih hnodup.2]

private theorem mem_entries_set {m : InsertionMap K V} {k j : K} {v w : V} :
    (j, w) ∈ (m.set k v).entries ↔ (j = k ∧ w = v) ∨ (j ≠ k ∧ (j, w) ∈ m.entries) := by
  by_cases hk : k ∈ m.keys
  · rw [entries_set_of_mem hk, List.mem_map]
    constructor
    · rintro ⟨e, he, heq⟩
      split at heq
      · cases heq
        exact .inl ⟨rfl, rfl⟩
      · next hne =>
        subst heq
        exact .inr ⟨hne, he⟩
    · rintro (⟨rfl, rfl⟩ | ⟨hne, hmem⟩)
      · obtain ⟨e, he, rfl⟩ := List.mem_map.mp hk
        exact ⟨e, he, if_pos rfl⟩
      · exact ⟨(j, w), hmem, if_neg hne⟩
  · rw [entries_set_of_notMem hk, List.mem_append, List.mem_singleton, Prod.mk.injEq]
    constructor
    · rintro (hmem | hnew)
      · refine .inr ⟨?_, hmem⟩
        rintro rfl
        exact hk (List.mem_map.mpr ⟨(j, w), hmem, rfl⟩)
      · exact .inl hnew
    · rintro (hnew | ⟨_, hmem⟩)
      · exact .inr hnew
      · exact .inl hmem

theorem get?_set (m : InsertionMap K V) (k j : K) (v : V) :
    (m.set k v).get? j = if j = k then some v else m.get? j := by
  apply Option.ext
  intro w
  rw [get?_eq_some_iff, mem_entries_set]
  split
  · next h => simp [h, eq_comm]
  · next h => simp [h, get?_eq_some_iff]

theorem get?_delete (m : InsertionMap K V) (k j : K) :
    (m.delete k).get? j = if j = k then none else m.get? j := by
  apply Option.ext
  intro w
  rw [get?_eq_some_iff, delete, List.mem_filter]
  split
  · next h => simp [h]
  · next h => simp [h, get?_eq_some_iff]

end InsertionMap

section Grouping

variable {K V α : Type} [DecidableEq K]

private theorem lookup_map_pair (f : K → V) (ks : List K) (k : K) :
    (ks.map fun j => (j, f j)).lookup k = if k ∈ ks then some (f k) else none := by
  induction ks with
  | nil => rfl
  | cons j ks ih =>
    rw [List.map_cons, List.lookup_cons]
    by_cases hjk : k = j
    · subst hjk
      simp
    · have hne : (k == j) = false := by simpa using hjk
      rw [hne]
      simp only [ih, List.mem_cons, hjk, false_or]

/-- Collect the elements of a list under their keys, each group in the order of the list. -/
def groupBy (key : α → K) (xs : List α) : InsertionMap K (List α) :=
  xs.foldl (fun m x => m.set (key x) ((m.get? (key x)).getD [] ++ [x])) InsertionMap.empty

variable (key : α → K) (xs : List α)

private theorem groupBy_concat (x : α) :
    groupBy key (xs ++ [x]) =
      (groupBy key xs).set (key x) (((groupBy key xs).get? (key x)).getD [] ++ [x]) := by
  simp only [groupBy, List.foldl_append, List.foldl_cons, List.foldl_nil]

theorem entries_groupBy : (groupBy key xs).entries =
    (xs.map key).eraseDups.map fun k => (k, xs.filter fun x => key x = k) := by
  induction xs using List.reverseRecOn with
  | nil => rfl
  | append_singleton xs x ih =>
    have hkeys : (groupBy key xs).keys = (xs.map key).eraseDups := by
      simp [InsertionMap.keys, ih, Function.comp_def]
    have hget : ((groupBy key xs).get? (key x)).getD [] = xs.filter fun y => key y = key x := by
      rw [InsertionMap.get?, ih, lookup_map_pair]
      by_cases hx : key x ∈ xs.map key
      · simp only [List.mem_eraseDups, hx, if_true, Option.getD_some]
      · have hnone : xs.filter (fun y => key y = key x) = [] := by
          apply List.filter_eq_nil_iff.mpr
          intro y hy heq
          exact hx (List.mem_map.mpr ⟨y, hy, by simpa using heq⟩)
        simp only [List.mem_eraseDups, hx, if_false, Option.getD_none, hnone]
    -- the groups of the other keys are not touched
    have hother : ∀ k, k ≠ key x →
        (xs ++ [x]).filter (fun y => key y = k) = xs.filter fun y => key y = k := by
      intro k hk
      simp [List.filter_append, Ne.symm hk]
    have hown : (xs ++ [x]).filter (fun y => key y = key x) =
        (xs.filter fun y => key y = key x) ++ [x] := by
      simp [List.filter_append]
    rw [groupBy_concat, hget, List.map_append, List.map_singleton, eraseDups_concat]
    by_cases hx : key x ∈ xs.map key
    · have hmem : key x ∈ (groupBy key xs).keys := by
        rw [hkeys, List.mem_eraseDups]
        exact hx
      rw [InsertionMap.entries_set_of_mem hmem, ih, if_pos hx, List.map_map]
      apply List.map_congr_left
      intro k _
      by_cases hk : k = key x
      · simp only [Function.comp_apply, hk, if_true, hown]
      · simp only [Function.comp_apply, hk, if_false, hother k hk]
    · have hmem : key x ∉ (groupBy key xs).keys := by
        rw [hkeys, List.mem_eraseDups]
        exact hx
      rw [InsertionMap.entries_set_of_notMem hmem, ih, if_neg hx, List.map_append,
        List.map_singleton, hown]
      congr 1
      apply List.map_congr_left
      intro k hk
      have hne : k ≠ key x := fun h => hx (h ▸ List.mem_eraseDups.mp hk)
      simp only [hother k hne]

/-- What a key gives: the elements that have it, and nothing if there are none. -/
theorem get?_groupBy_getD (k : K) :
    ((groupBy key xs).get? k).getD [] = xs.filter fun x => key x = k := by
  rw [InsertionMap.get?, entries_groupBy, lookup_map_pair]
  by_cases hk : k ∈ xs.map key
  · simp only [List.mem_eraseDups, hk, if_true, Option.getD_some]
  · have hnone : xs.filter (fun x => key x = k) = [] := by
      apply List.filter_eq_nil_iff.mpr
      intro x hx heq
      exact hk (List.mem_map.mpr ⟨x, hx, by simpa using heq⟩)
    simp only [List.mem_eraseDups, hk, if_false, Option.getD_none, hnone]

end Grouping

end JsonRpcRelay.Framework

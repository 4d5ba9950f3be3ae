import Mathlib.Data.List.Sort

/-!
# Sorting by time only

A stable sort by time leaves elements of the same time as they were.  It gives the order by time
and index exactly if the elements of the same time already stand in the order of their indices.
-/

namespace JsonRpcRelay.Framework

section Pairs

variable {α : Type} {a b : α} {l : List α}

private theorem pair_sublist_of_mem (ha : a ∈ l) (hb : b ∈ l) (hne : a ≠ b) :
    [a, b].Sublist l ∨ [b, a].Sublist l := by
  induction l with
  | nil => cases ha
  | cons c l ih =>
    cases ha with
    | head =>
      have hb : b ∈ l := List.mem_of_ne_of_mem hne.symm hb
      exact .inl ((List.singleton_sublist.mpr hb).cons_cons a)
    | tail _ ha =>
      cases hb with
      | head => exact .inr ((List.singleton_sublist.mpr ha).cons_cons b)
      | tail _ hb =>
        cases ih ha hb with
        | inl h => exact .inl (h.cons c)
        | inr h => exact .inr (h.cons c)

private theorem not_pair_sublist_of_nodup (hnodup : l.Nodup) (h : [a, b].Sublist l) :
    ¬[b, a].Sublist l := by
  induction l with
  | nil => cases h
  | cons c l ih =>
    have hc := (List.nodup_cons.mp hnodup).1
    intro hback
    cases h with
    | cons _ h =>
      cases hback with
      | cons _ hback => exact ih (List.nodup_cons.mp hnodup).2 h hback
      | cons_cons _ hback => exact hc (h.subset (by simp))
    | cons_cons _ h =>
      cases hback with
      | cons _ hback => exact hc (hback.subset (by simp))
      | cons_cons _ hback => exact hc (h.subset (by simp))

end Pairs

section Order

variable {α κ ι : Type} [Preorder ι] (time : α → κ) (index : α → ι)

def TiesInOrder (a b : α) : Prop := time a = time b → index a < index b

variable {time index} in
private theorem nodup_of_tiesInOrder {l : List α} (h : l.Pairwise (TiesInOrder time index)) :
    l.Nodup := by
  apply h.imp
  intro a b hties hab
  subst hab
  exact lt_irrefl _ (hties rfl)

variable [LinearOrder κ]

/-- The order by time, and by index at the same time. -/
def Precedes (a b : α) : Prop := time a < time b ∨ time a = time b ∧ index a < index b

/-- The stable sort. -/
def sortByTime (l : List α) : List α := l.mergeSort fun a b => time a ≤ time b

variable {time index} {a b : α} {l : List α}

private theorem Precedes.asymm (h : Precedes time index a b) : ¬Precedes time index b a := by
  rintro (hlt | ⟨htime, hindex⟩)
  · cases h with
    | inl h => exact lt_asymm h hlt
    | inr h => exact hlt.ne' h.1
  · cases h with
    | inl h => exact h.ne' htime
    | inr h => exact lt_asymm h.2 hindex

theorem Precedes.tiesInOrder (h : Precedes time index a b) : TiesInOrder time index a b := by
  intro htime
  cases h with
  | inl h => exact absurd htime h.ne
  | inr h => exact h.2

private theorem precedes_of_le (hle : time a ≤ time b) (h : TiesInOrder time index a b) :
    Precedes time index a b := by
  cases hle.lt_or_eq with
  | inl hlt => exact .inl hlt
  | inr heq => exact .inr ⟨heq, h heq⟩

theorem mem_sortByTime : a ∈ sortByTime time l ↔ a ∈ l := List.mem_mergeSort

theorem sortByTime_perm (l : List α) : (sortByTime time l).Perm l := List.mergeSort_perm l _

theorem pairwise_sortByTime (l : List α) : (sortByTime time l).Pairwise (time · ≤ time ·) := by
  have h : (sortByTime time l).Pairwise fun a b => decide (time a ≤ time b) :=
    List.pairwise_mergeSort (by simpa using fun a b c => le_trans)
      (by simpa using fun a b => le_total (time a) (time b)) l
  exact h.imp of_decide_eq_true

/-- Elements in the order of their times stay in their order. -/
theorem pair_sublist_sortByTime (hle : time a ≤ time b) (h : [a, b].Sublist l) :
    [a, b].Sublist (sortByTime time l) :=
  List.pair_sublist_mergeSort (by simpa using fun a b c => le_trans)
    (by simpa using fun a b => le_total (time a) (time b)) (by simpa using hle) h

theorem pairwise_precedes_sortByTime_iff :
    (sortByTime time l).Pairwise (Precedes time index) ↔
      l.Pairwise (TiesInOrder time index) := by
  constructor
  · intro h
    apply List.pairwise_of_forall_sublist
    intro a b hab htime
    exact (h.forall_sublist (pair_sublist_sortByTime htime.le hab)).tiesInOrder htime
  · intro h
    have hnodup : (sortByTime time l).Nodup := (sortByTime_perm l).nodup_iff.mpr
      (nodup_of_tiesInOrder h)
    apply List.pairwise_of_forall_sublist
    intro a b hab
    have hle : time a ≤ time b := (pairwise_sortByTime l).forall_sublist hab
    refine precedes_of_le hle fun htime => ?_
    have hne : a ≠ b := hnodup.forall_sublist hab
    have ha : a ∈ l := mem_sortByTime.mp (hab.subset (by simp))
    have hb : b ∈ l := mem_sortByTime.mp (hab.subset (by simp))
    cases pair_sublist_of_mem ha hb hne with
    | inl hsame => exact h.forall_sublist hsame htime
    | inr hother =>
      -- the sort would have left the two the other way round
      exact absurd hab (not_pair_sublist_of_nodup hnodup (pair_sublist_sortByTime htime.ge hother))

/-- Lists in this order with the same members are the same. -/
theorem eq_of_pairwise_precedes {l l' : List α} (hl : l.Pairwise (Precedes time index))
    (hl' : l'.Pairwise (Precedes time index)) (h : ∀ a, a ∈ l ↔ a ∈ l') : l = l' := by
  have hnodup {l : List α} (hl : l.Pairwise (Precedes time index)) : l.Nodup :=
    nodup_of_tiesInOrder (hl.imp Precedes.tiesInOrder)
  apply List.Perm.eq_of_pairwise _ hl hl'
  · exact (List.perm_ext_iff_of_nodup (hnodup hl) (hnodup hl')).mpr h
  · intro a b _ _ hab hba
    exact absurd hba hab.asymm

end Order

section Stability

variable {α β κ : Type} [LinearOrder κ] {time : α → κ} {l l' : List α} {a : α} {t : κ}

/-- Elements of the same time stay as they were. -/
theorem filter_sortByTime (t : κ) (l : List α) :
    (sortByTime time l).filter (time · = t) = l.filter (time · = t) := by
  have hties : (l.filter (time · = t)).Pairwise fun a b => decide (time a ≤ time b) := by
    apply List.pairwise_of_forall_mem_list
    intro a ha b hb
    have ha : time a = t := by simpa using (List.mem_filter.mp ha).2
    have hb : time b = t := by simpa using (List.mem_filter.mp hb).2
    simp [ha, hb]
  have hsublist : (l.filter (time · = t)).Sublist (sortByTime time l) :=
    List.sublist_mergeSort (by simpa using fun a b c => le_trans)
      (by simpa using fun a b => le_total (time a) (time b)) hties List.filter_sublist
  have hkept := hsublist.filter (time · = t)
  rw [List.filter_filter] at hkept
  simp only [Bool.and_self] at hkept
  exact (hkept.eq_of_length ((sortByTime_perm l).filter _).length_eq.symm).symm

/-- Sorted lists are the same if they have the same elements of each time, as they stand. -/
theorem eq_of_filter_eq (hl : l.Pairwise (time · ≤ time ·)) (hl' : l'.Pairwise (time · ≤ time ·))
    (h : ∀ t, l.filter (time · = t) = l'.filter (time · = t)) : l = l' := by
  induction l generalizing l' with
  | nil =>
    cases l' with
    | nil => rfl
    | cons b l' => simpa using h (time b)
  | cons a l ih =>
    cases l' with
    | nil => simpa using (h (time a)).symm
    | cons b l' =>
      obtain ⟨ha, htail⟩ := List.pairwise_cons.mp hl
      obtain ⟨hb, htail'⟩ := List.pairwise_cons.mp hl'
      have hle {c d : α} {m : List α} (hd : ∀ e ∈ m, time d ≤ time e) (hc : c ∈ d :: m) :
          time d ≤ time c := by
        obtain rfl | hc := List.mem_cons.mp hc
        · exact le_rfl
        · exact hd c hc
      have hba : b ∈ a :: l := by
        have hmem : b ∈ (b :: l').filter (time · = time b) := by simp
        rw [← h] at hmem
        exact List.mem_of_mem_filter hmem
      have hab : a ∈ b :: l' := by
        have hmem : a ∈ (a :: l).filter (time · = time a) := by simp
        rw [h] at hmem
        exact List.mem_of_mem_filter hmem
      have hsame : time b = time a := le_antisymm (hle hb hab) (hle ha hba)
      have hhead := h (time a)
      rw [List.filter_cons_of_pos (by simp), List.filter_cons_of_pos (by simp [hsame])] at hhead
      obtain ⟨rfl, _⟩ := List.cons.inj hhead
      apply congrArg (a :: ·)
      apply ih htail htail'
      intro t
      have hrest := h t
      by_cases ht : time a = t
      · rw [List.filter_cons_of_pos (by simp [ht]), List.filter_cons_of_pos (by simp [ht])] at hrest
        exact (List.cons.inj hrest).2
      · rwa [List.filter_cons_of_neg (by simp [ht]),
          List.filter_cons_of_neg (by simp [ht])] at hrest

/-- A sorted list is cut in two where one part of it ends. -/
theorem filter_append_filter_not {early : α → Bool} (hl : l.Pairwise (time · ≤ time ·))
    (h : ∀ a ∈ l, ∀ b ∈ l, early a = true → early b = false → time a < time b) :
    l.filter early ++ l.filter (! early ·) = l := by
  induction l with
  | nil => rfl
  | cons a l ih =>
    obtain ⟨hle, htail⟩ := List.pairwise_cons.mp hl
    cases ha : early a with
    | true =>
      rw [List.filter_cons_of_pos ha, List.filter_cons_of_neg (by simp [ha]), List.cons_append,
        ih htail fun b hb c hc => h b (List.mem_cons_of_mem a hb) c (List.mem_cons_of_mem a hc)]
    | false =>
      have hlate : ∀ b ∈ a :: l, early b = false := by
        intro b hb
        by_contra hearly
        have hlt := h b hb a List.mem_cons_self (Bool.eq_true_of_not_eq_false hearly) ha
        obtain rfl | hb := List.mem_cons.mp hb
        · exact lt_irrefl _ hlt
        · exact (hle b hb).not_gt hlt
      rw [List.filter_eq_nil_iff.mpr fun b hb => by simp [hlate b hb], List.nil_append]
      exact List.filter_eq_self.mpr fun b hb => by simp [hlate b hb]

/-- What comes earlier and what comes later from several sources is sorted apart. -/
theorem sortByTime_flatMap_append {f g : β → List α} {xs : List β}
    (h : ∀ x ∈ xs, ∀ y ∈ xs, ∀ a ∈ f x, ∀ b ∈ g y, time a < time b) :
    sortByTime time (xs.flatMap fun x => f x ++ g x) =
      sortByTime time (xs.flatMap f) ++ sortByTime time (xs.flatMap g) := by
  have hfilter (t : κ) (k : β → List α) : (xs.flatMap k).filter (time · = t) =
      xs.flatMap fun x => (k x).filter (time · = t) := List.filter_flatMap ..
  apply eq_of_filter_eq (pairwise_sortByTime _)
  · refine List.pairwise_append.mpr ⟨pairwise_sortByTime _, pairwise_sortByTime _, ?_⟩
    intro a ha b hb
    obtain ⟨x, hx, ha⟩ := List.mem_flatMap.mp (mem_sortByTime.mp ha)
    obtain ⟨y, hy, hb⟩ := List.mem_flatMap.mp (mem_sortByTime.mp hb)
    exact (h x hx y hy a ha b hb).le
  · intro t
    rw [List.filter_append, filter_sortByTime, filter_sortByTime, filter_sortByTime, hfilter,
      hfilter, hfilter]
    simp only [List.filter_append]
    by_cases hearly : ∃ x ∈ xs, ∃ a ∈ f x, time a = t
    · obtain ⟨x, hx, a, ha, rfl⟩ := hearly
      have hlate : ∀ y ∈ xs, (g y).filter (time · = time a) = [] := by
        intro y hy
        rw [List.filter_eq_nil_iff]
        intro b hb
        simpa using (h x hx y hy a ha b hb).ne'
      rw [List.flatMap_congr (g := fun x => (f x).filter (time · = time a)) fun y hy => by
        rw [hlate y hy, List.append_nil], List.flatMap_eq_nil_iff.mpr hlate, List.append_nil]
    · have hnone : ∀ x ∈ xs, (f x).filter (time · = t) = [] := by
        intro x hx
        rw [List.filter_eq_nil_iff]
        intro a ha hat
        exact hearly ⟨x, hx, a, ha, by simpa using hat⟩
      rw [List.flatMap_congr (g := fun x => (g x).filter (time · = t)) fun y hy => by
        rw [hnone y hy, List.nil_append], List.flatMap_eq_nil_iff.mpr hnone, List.nil_append]

end Stability

end JsonRpcRelay.Framework

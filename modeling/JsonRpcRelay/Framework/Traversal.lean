import Mathlib.Data.List.Basic

/-!
# Traversals that may fail

A list is traversed by a function that may throw.  The traversal succeeds exactly if the
function does on every element, and then it is the traversal by a total function.
-/

namespace JsonRpcRelay.Framework

variable {α β ε : Type}

/-- What succeeds has succeeded in its first part. -/
theorem exists_of_bind_ok {x : Except ε α} {f : α → Except ε β} {b : β}
    (h : x >>= f = .ok b) : ∃ a, x = .ok a ∧ f a = .ok b := by
  cases x with
  | error e => cases h
  | ok a => exact ⟨a, rfl, h⟩

theorem mapM_ok_iff {f : α → Except ε β} {l : List α} {bs : List β} :
    l.mapM f = .ok bs ↔ l.map f = bs.map .ok := by
  induction l generalizing bs with
  | nil => cases bs <;> simp [pure, Except.pure]
  | cons a l ih =>
    rw [List.mapM_cons]
    cases hfa : f a with
    | error e => cases bs <;> simp [hfa, bind, Except.bind]
    | ok b =>
      cases hl : l.mapM f with
      | error e =>
        have hnone : ∀ cs : List β, l.map f ≠ cs.map .ok := by
          intro cs hcs
          rw [ih.mpr hcs] at hl
          cases hl
        cases bs <;> simp [hfa, hnone, bind, Except.bind]
      | ok cs =>
        have hcs := ih.mp hl
        cases bs with
        | nil => simp [bind, Except.bind, pure, Except.pure, hfa]
        | cons b' bs =>
          have hmap : cs.map (Except.ok (ε := ε)) = bs.map .ok ↔ cs = bs :=
            (List.map_injective_iff.mpr fun x y h => Except.ok.inj h).eq_iff
          simp [bind, Except.bind, pure, Except.pure, hfa, hcs, hmap]

theorem mapM_ok {f : α → Except ε β} {g : α → β} {l : List α}
    (h : ∀ a ∈ l, f a = .ok (g a)) : l.mapM f = .ok (l.map g) := by
  apply mapM_ok_iff.mpr
  rw [List.map_map]
  exact List.map_congr_left h

theorem mapM_congr {f g : α → Except ε β} {l : List α} (h : ∀ a ∈ l, f a = g a) :
    l.mapM f = l.mapM g := by
  induction l with
  | nil => rfl
  | cons a l ih =>
    rw [List.mapM_cons, List.mapM_cons, h a List.mem_cons_self,
      ih fun b hb => h b (List.mem_cons_of_mem a hb)]

/-- Every element of a traversed list has been mapped. -/
theorem exists_of_mapM_ok {f : α → Except ε β} {l : List α} {bs : List β}
    (h : l.mapM f = .ok bs) {a : α} (ha : a ∈ l) : ∃ b ∈ bs, f a = .ok b := by
  have hmem : f a ∈ l.map f := List.mem_map_of_mem ha
  rw [mapM_ok_iff.mp h] at hmem
  obtain ⟨b, hb, hfa⟩ := List.mem_map.mp hmem
  exact ⟨b, hb, hfa.symm⟩

/-- What a traversal throws was thrown for an element. -/
theorem exists_of_mapM_error {f : α → Except ε β} {l : List α} {e : ε}
    (h : l.mapM f = .error e) : ∃ a ∈ l, f a = .error e := by
  induction l with
  | nil => cases h
  | cons a l ih =>
    rw [List.mapM_cons] at h
    cases hfa : f a with
    | error e' =>
      rw [hfa] at h
      cases h
      exact ⟨a, List.mem_cons_self, hfa⟩
    | ok b =>
      cases hl : l.mapM f with
      | error e' =>
        rw [hfa, hl] at h
        cases h
        obtain ⟨a', ha', hfa'⟩ := ih hl
        exact ⟨a', List.mem_cons_of_mem a ha', hfa'⟩
      | ok bs =>
        rw [hfa, hl] at h
        cases h

/-- A relation between the elements and what they are mapped to carries over to the lists. -/
theorem forall₂_of_mapM_ok {f : α → Except ε β} {R : α → β → Prop} {l : List α} {bs : List β}
    (h : l.mapM f = .ok bs) (hR : ∀ a b, f a = .ok b → R a b) : List.Forall₂ R l bs := by
  have hmap := mapM_ok_iff.mp h
  clear h
  induction l generalizing bs with
  | nil =>
    cases bs with
    | nil => exact .nil
    | cons b bs => cases hmap
  | cons a l ih =>
    cases bs with
    | nil => cases hmap
    | cons b bs =>
      simp only [List.map_cons, List.cons.injEq] at hmap
      exact .cons (hR a b hmap.1) (ih hmap.2)

/-- What a traversal returns was returned for an element. -/
theorem forall_of_mapM_ok {f : α → Except ε β} {P : β → Prop} {l : List α} {bs : List β}
    (h : l.mapM f = .ok bs) (hP : ∀ a b, f a = .ok b → P b) : ∀ b ∈ bs, P b := by
  intro b hb
  have hmem : Except.ok b ∈ l.map f := by
    rw [mapM_ok_iff.mp h]
    exact List.mem_map_of_mem hb
  obtain ⟨a, _, ha⟩ := List.mem_map.mp hmem
  exact hP a b ha

/-- The results that are kept have the keys of some of the elements, in their order. -/
theorem sublist_of_forall₂ {κ : Type} (key : α → κ) (key' : β → κ) {l : List α}
    {os : List (Option β)} (h : List.Forall₂ (fun a o => ∀ b ∈ o, key' b = key a) l os) :
    ((os.filterMap id).map key').Sublist (l.map key) := by
  induction h with
  | nil => exact List.Sublist.slnil
  | @cons a o l os hao _ ih =>
    cases o with
    | none => exact ih.cons _
    | some b =>
      have hkept : (some b :: os).filterMap id = b :: os.filterMap id := rfl
      rw [hkept, List.map_cons, List.map_cons, hao b rfl]
      exact ih.cons_cons _

/-- Every element of a list on which a check succeeds passes it. -/
theorem forM_ok {f : α → Except ε Unit} {l : List α} (h : l.forM f = .ok ()) :
    ∀ a ∈ l, f a = .ok () := by
  induction l with
  | nil => simp
  | cons a l ih =>
    rw [List.forM_eq_forM, List.forM_cons] at h
    obtain ⟨_, ha, hl⟩ := exists_of_bind_ok h
    exact List.forall_mem_cons.mpr ⟨ha, ih hl⟩

theorem any_eq_of_forall₂ {p : α → Bool} {q : β → Bool} {l : List α} {bs : List β}
    (h : List.Forall₂ (fun a b => p a = q b) l bs) : l.any p = bs.any q := by
  induction h with
  | nil => rfl
  | cons hab _ ih => rw [List.any_cons, List.any_cons, hab, ih]

theorem all_eq_of_forall₂ {p : α → Bool} {q : β → Bool} {l : List α} {bs : List β}
    (h : List.Forall₂ (fun a b => p a = q b) l bs) : l.all p = bs.all q := by
  induction h with
  | nil => rfl
  | cons hab _ ih => rw [List.all_cons, List.all_cons, hab, ih]

theorem anyM_ok {f : α → Except ε Bool} {p : α → Bool} {l : List α}
    (h : ∀ a ∈ l, f a = .ok (p a)) : l.anyM f = .ok (l.any p) := by
  induction l with
  | nil => rfl
  | cons a l ih =>
    have hl : l.anyM f = .ok (l.any p) := ih fun b hb => h b (List.mem_cons_of_mem _ hb)
    rw [List.anyM, h a List.mem_cons_self]
    cases hp : p a with
    | true => simp [bind, Except.bind, pure, Except.pure, hp]
    | false => simp [bind, Except.bind, hp, hl]

private theorem filterAuxM_ok {f : α → Except ε Bool} {p : α → Bool} {l acc : List α}
    (h : ∀ a ∈ l, f a = .ok (p a)) :
    List.filterAuxM f l acc = .ok ((l.filter p).reverse ++ acc) := by
  induction l generalizing acc with
  | nil => rfl
  | cons a l ih =>
    have hl := fun b hb => h b (List.mem_cons_of_mem _ hb)
    rw [List.filterAuxM, h a List.mem_cons_self]
    cases hp : p a with
    | true => simp [bind, Except.bind, hp, ih hl]
    | false => simp [bind, Except.bind, hp, ih hl]

theorem filterM_ok {f : α → Except ε Bool} {p : α → Bool} {l : List α}
    (h : ∀ a ∈ l, f a = .ok (p a)) : l.filterM f = .ok (l.filter p) := by
  rw [List.filterM, filterAuxM_ok h]
  simp [bind, Except.bind, pure, Except.pure]

section Errors

variable {P : ε → Prop} {x : Except ε α} {f : α → Except ε β}

/-- What is thrown, if anything, is of the kind `P`. -/
def Fails (P : ε → Prop) (x : Except ε α) : Prop := ∀ e, x = .error e → P e

theorem fails_ok {a : α} : Fails P (.ok a) := fun e h => by cases h

theorem fails_error {e : ε} (h : P e) : Fails P (.error e : Except ε α) := by
  intro e' he
  cases he
  exact h

theorem Fails.bind (hx : Fails P x) (hf : ∀ a, Fails P (f a)) : Fails P (x >>= f) := by
  cases x with
  | error e => exact fails_error (hx e rfl)
  | ok a => exact hf a

theorem Fails.map {g : α → β} (hx : Fails P x) : Fails P (x.map g) := by
  intro e he
  cases x with
  | error e' => exact hx e (congrArg Except.error (Except.error.inj he))
  | ok a => cases he

theorem Fails.mapM {l : List α} (h : ∀ a ∈ l, Fails P (f a)) : Fails P (l.mapM f) := by
  intro e he
  obtain ⟨a, ha, hfa⟩ := exists_of_mapM_error he
  exact h a ha e hfa

theorem Fails.forM {f : α → Except ε Unit} {l : List α} (h : ∀ a ∈ l, Fails P (f a)) :
    Fails P (l.forM f) := by
  induction l with
  | nil => exact fails_ok
  | cons a l ih =>
    show Fails P (f a >>= fun _ => l.forM f)
    exact (h a List.mem_cons_self).bind fun _ => ih fun b hb => h b (List.mem_cons_of_mem a hb)

end Errors

section Options

variable {f : α → Option β} {l : List α}

theorem mapM_isSome_iff : (l.mapM f).isSome ↔ ∀ a ∈ l, (f a).isSome := by
  induction l with
  | nil => simp
  | cons a l ih =>
    rw [List.mapM_cons, List.forall_mem_cons, ← ih]
    cases f a <;> cases l.mapM f <;> simp

theorem exists_of_mapM_some {bs : List β} (h : l.mapM f = some bs) {a : α} (ha : a ∈ l) :
    ∃ b ∈ bs, f a = some b := by
  induction l generalizing bs with
  | nil => cases ha
  | cons a' l ih =>
    rw [List.mapM_cons] at h
    obtain ⟨b, hb, h⟩ := Option.bind_eq_some_iff.mp h
    obtain ⟨rest, hrest, h⟩ := Option.bind_eq_some_iff.mp h
    obtain rfl := Option.some.inj h
    rcases List.mem_cons.mp ha with rfl | ha
    · exact ⟨b, List.mem_cons_self, hb⟩
    · obtain ⟨b', hb', hfa⟩ := ih hrest ha
      exact ⟨b', List.mem_cons_of_mem b hb', hfa⟩

end Options

end JsonRpcRelay.Framework

import JsonRpcRelay.TransactionPool.RedisPendingTransactionStorage

/-!
# The index of the pending transactions

The index is the union of the sets of the addresses as long as no set of an address expires
before the index, and no address comes in while a `removeAll` has listed its keys.
-/

namespace JsonRpcRelay.TransactionPool

open Framework Framework.Store Framework.SetStore

namespace Storage

def IndexIsUnion (st : Storage) : Prop :=
  ∀ p, p ∈ st.getAllTransactionPayloads ↔ ∃ a, p ∈ st.getTransactionPayloads a

/-- No address loses its key in the step while the index keeps its own, or the other way round. -/
def KeepsIndex (st : Storage) : StorageEvent → Prop
  | .advance ms =>
      let later : Storage := { st with now := st.now + ms }
      ∀ a, (st.entry (keyFor a)).isSome → later.entry (keyFor a) = none →
        later.entry globalPendingTxsKey = none
  | .removeAllUnlink i =>
      ∀ ks, st.listed[i]? = some ks → globalPendingTxsKey ∈ ks →
        ∀ a, (st.entry (keyFor a)).isSome → keyFor a ∈ ks
  | _ => True

/-- What holds of the storage as long as every step has kept the index. -/
structure Indexed (sender : String → Address) (storageTtl : ℤ) (st : Storage) : Prop where
  owned : ∀ a p, p ∈ st.getTransactionPayloads a → sender p = a
  union : st.IndexIsUnion
  nonempty : ∀ key e, st.entry key = some e → e.value ≠ ∅
  bounded : ∀ key e, st.entry key = some e →
    ∃ d, e.deadline = some d ∧ d ≤ st.now + (storageTtl * 1000).toNat
  outlives : ∀ a e g, st.entry (keyFor a) = some e → st.entry globalPendingTxsKey = some g →
    ∀ d ∈ e.deadline, ∀ d' ∈ g.deadline, d ≤ d'
  listed : ∀ ks ∈ st.listed, ∀ a, keyFor a ∈ ks → globalPendingTxsKey ∈ ks

variable {sender : String → Address} {storageTtl : ℤ} {st st' : Storage} {a : Address}
  {p key : String}

private theorem indexed_init : Indexed sender storageTtl init where
  owned a p hp := by
    obtain ⟨e, he, _⟩ := mem_members.mp hp
    cases he
  union p := by
    constructor
    · intro hp
      obtain ⟨e, he, _⟩ := mem_members.mp hp
      cases he
    · rintro ⟨a, hp⟩
      obtain ⟨e, he, _⟩ := mem_members.mp hp
      cases he
  nonempty key e he := by cases he
  bounded key e he := by cases he
  outlives a e g he := by cases he
  listed ks hks := by cases hks

section Entries

/-- The set of an address is part of the index. -/
theorem Indexed.exists_global (h : Indexed sender storageTtl st) {e : Entry (Finset String)}
    (he : st.entry (keyFor a) = some e) (hp : p ∈ e.value) :
    ∃ g, st.entry globalPendingTxsKey = some g ∧ p ∈ g.value :=
  mem_members.mp ((h.union p).mpr ⟨a, mem_members.mpr ⟨e, he, hp⟩⟩)

private theorem Indexed.alive_global (h : Indexed sender storageTtl st)
    {e g : Entry (Finset String)}
    (he : st.entry (keyFor a) = some e) (hg : st.entry globalPendingTxsKey = some g) {later : ℕ}
    (halive : e.aliveAt .strict later = true) : g.aliveAt .strict later = true := by
  obtain ⟨d, hd, _⟩ := h.bounded _ _ he
  obtain ⟨d', hd', _⟩ := h.bounded _ _ hg
  have hle := h.outlives a e g he hg d hd d' hd'
  simp only [Entry.aliveAt, hd, hd', Option.all_some, Expiry.strict, decide_eq_true_eq]
    at halive ⊢
  omega

end Entries

section Advance

variable {ms : ℕ}

private theorem entry_advance_eq_some {e : Entry (Finset String)} :
    Storage.entry { st with now := st.now + ms } key = some e ↔
      st.entry key = some e ∧ e.aliveAt .strict (st.now + ms) = true := by
  rw [entry_advance, Option.filter_eq_some_iff]

private theorem mem_members_advance : p ∈ Storage.members { st with now := st.now + ms } key ↔
    ∃ e, st.entry key = some e ∧ e.aliveAt .strict (st.now + ms) = true ∧ p ∈ e.value := by
  rw [mem_members]
  constructor
  · rintro ⟨e, he, hp⟩
    obtain ⟨he, halive⟩ := entry_advance_eq_some.mp he
    exact ⟨e, he, halive, hp⟩
  · rintro ⟨e, he, halive, hp⟩
    exact ⟨e, entry_advance_eq_some.mpr ⟨he, halive⟩, hp⟩

private theorem mem_of_mem_advance (hp : p ∈ Storage.members { st with now := st.now + ms } key) :
    p ∈ st.members key := by
  obtain ⟨e, he, _, hp⟩ := mem_members_advance.mp hp
  exact mem_members.mpr ⟨e, he, hp⟩

theorem Indexed.advance (h : Indexed sender storageTtl st) (hunion :
    IndexIsUnion { st with now := st.now + ms }) :
    Indexed sender storageTtl { st with now := st.now + ms } where
  owned a p hp := h.owned a p (mem_of_mem_advance hp)
  union := hunion
  nonempty key e he := h.nonempty key e (entry_advance_eq_some.mp he).1
  bounded key e he := by
    obtain ⟨d, hd, hle⟩ := h.bounded key e (entry_advance_eq_some.mp he).1
    refine ⟨d, hd, ?_⟩
    show d ≤ st.now + ms + _
    omega
  outlives a e g he hg :=
    h.outlives a e g (entry_advance_eq_some.mp he).1 (entry_advance_eq_some.mp hg).1
  listed := h.listed

private theorem Indexed.union_advance_iff (h : Indexed sender storageTtl st) :
    IndexIsUnion { st with now := st.now + ms } ↔ st.KeepsIndex (.advance ms) := by
  constructor
  · intro hunion a hsome hnone
    obtain ⟨e, he⟩ := Option.isSome_iff_exists.mp hsome
    by_contra hglobal
    obtain ⟨g, hg⟩ := Option.ne_none_iff_exists'.mp hglobal
    obtain ⟨p, hp⟩ := Finset.nonempty_iff_ne_empty.mpr (h.nonempty _ _ he)
    -- a payload of the address is in the index, but no longer with an address
    obtain ⟨g', hg', hmem⟩ := h.exists_global he hp
    have hlater := entry_advance_eq_some.mp hg
    rw [hlater.1] at hg'
    obtain rfl := Option.some.inj hg'
    obtain ⟨b, hb⟩ := (hunion p).mp (mem_members.mpr ⟨g, hg, hmem⟩)
    have hb' := h.owned b p (mem_of_mem_advance hb)
    have ha := h.owned a p (mem_members.mpr ⟨e, he, hp⟩)
    obtain rfl : a = b := ha.symm.trans hb'
    obtain ⟨e', he', _⟩ := mem_members.mp hb
    rw [hnone] at he'
    cases he'
  · intro hkeeps p
    constructor
    · intro hp
      obtain ⟨a, ha⟩ := (h.union p).mp (mem_of_mem_advance hp)
      obtain ⟨e, he, hmem⟩ := mem_members.mp ha
      refine ⟨a, mem_members_advance.mpr ⟨e, he, ?_, hmem⟩⟩
      by_contra hdead
      have hnone : Storage.entry { st with now := st.now + ms } (keyFor a) = none := by
        rw [entry_advance, he, Option.filter_some, if_neg hdead]
      have hglobal := hkeeps a (Option.isSome_iff_exists.mpr ⟨e, he⟩) hnone
      obtain ⟨g, hg, _⟩ := mem_members.mp hp
      rw [hglobal] at hg
      cases hg
    · rintro ⟨a, hp⟩
      obtain ⟨e, he, halive, hmem⟩ := mem_members_advance.mp hp
      obtain ⟨g, hg, hmem'⟩ := h.exists_global he hmem
      exact mem_members_advance.mpr ⟨g, hg, h.alive_global he hg halive, hmem'⟩

end Advance

section RemoveAll

theorem Indexed.removeAllKeys (h : Indexed sender storageTtl st) :
    Indexed sender storageTtl st.removeAllKeys := by
  unfold Storage.removeAllKeys
  split
  · exact h
  · refine ⟨h.owned, h.union, h.nonempty, h.bounded, h.outlives, ?_⟩
    intro ks hks a ha
    rcases List.mem_append.mp hks with hks | hks
    · exact h.listed ks hks a ha
    · rw [List.mem_singleton.mp hks] at ha ⊢
      obtain ⟨e, he⟩ := Option.isSome_iff_exists.mp (mem_pendingKeys.mp ha).1
      obtain ⟨p, hp⟩ := Finset.nonempty_iff_ne_empty.mpr (h.nonempty _ _ he)
      obtain ⟨g, hg, _⟩ := h.exists_global he hp
      exact mem_pendingKeys.mpr ⟨Option.isSome_iff_exists.mpr ⟨g, hg⟩, by decide⟩

variable {i : ℕ} {ks : List String}

/-- The storage after a `removeAll` has deleted its keys. -/
def unlinked (st : Storage) (i : ℕ) (ks : List String) : Storage :=
  { st with store := st.store.unlink ks, listed := st.listed.eraseIdx i }

private theorem entry_unlinked_eq_some {e : Entry (Finset String)} :
    (st.unlinked i ks).entry key = some e ↔ key ∉ ks ∧ st.entry key = some e := by
  rw [unlinked, entry_unlink]
  split
  · rename_i hmem
    simp [hmem]
  · rename_i hmem
    simp [hmem]

private theorem mem_members_unlinked :
    p ∈ (st.unlinked i ks).members key ↔ key ∉ ks ∧ p ∈ st.members key := by
  rw [mem_members, mem_members]
  simp only [entry_unlinked_eq_some, and_assoc, exists_and_left]

private theorem Indexed.unlinked (h : Indexed sender storageTtl st)
    (hunion : (st.unlinked i ks).IndexIsUnion) :
    Indexed sender storageTtl (st.unlinked i ks) where
  owned a p hp := h.owned a p (mem_members_unlinked.mp hp).2
  union := hunion
  nonempty key e he := h.nonempty key e (entry_unlinked_eq_some.mp he).2
  bounded key e he := h.bounded key e (entry_unlinked_eq_some.mp he).2
  outlives a e g he hg :=
    h.outlives a e g (entry_unlinked_eq_some.mp he).2 (entry_unlinked_eq_some.mp hg).2
  listed ks' hks' := h.listed ks' (List.mem_of_mem_eraseIdx hks')

private theorem Indexed.union_unlinked_iff (h : Indexed sender storageTtl st)
    (hks : st.listed[i]? = some ks) :
    (st.unlinked i ks).IndexIsUnion ↔ (globalPendingTxsKey ∈ ks →
      ∀ a, (st.entry (keyFor a)).isSome → keyFor a ∈ ks) := by
  constructor
  · intro hunion hglobal a hsome
    obtain ⟨e, he⟩ := Option.isSome_iff_exists.mp hsome
    obtain ⟨p, hp⟩ := Finset.nonempty_iff_ne_empty.mpr (h.nonempty _ _ he)
    by_contra hnot
    have hmem := (hunion p).mpr
      ⟨a, mem_members_unlinked.mpr ⟨hnot, mem_members.mpr ⟨e, he, hp⟩⟩⟩
    exact (mem_members_unlinked.mp hmem).1 hglobal
  · intro hkeeps p
    have hlisted := h.listed ks (List.mem_of_getElem? hks)
    constructor
    · intro hp
      obtain ⟨hglobal, hp⟩ := mem_members_unlinked.mp hp
      obtain ⟨a, ha⟩ := (h.union p).mp hp
      exact ⟨a, mem_members_unlinked.mpr ⟨fun hmem => hglobal (hlisted a hmem), ha⟩⟩
    · rintro ⟨a, hp⟩
      obtain ⟨hnot, hp⟩ := mem_members_unlinked.mp hp
      refine mem_members_unlinked.mpr ⟨fun hglobal => hnot ?_, (h.union p).mpr ⟨a, hp⟩⟩
      obtain ⟨e, he, _⟩ := mem_members.mp hp
      exact hkeeps hglobal a (Option.isSome_iff_exists.mpr ⟨e, he⟩)

end RemoveAll

section Add

variable {q : String} {e : Entry (Finset String)}

/-- Without a time to live there is no entry. -/
theorem Indexed.entry_eq_none (h : Indexed sender storageTtl st) (httl : ¬0 < storageTtl * 1000)
    (key : String) : st.entry key = none := by
  cases he : st.entry key with
  | none => rfl
  | some e =>
    obtain ⟨d, hd, hle⟩ := h.bounded key e he
    have halive : e.aliveAt .strict st.now = true := aliveAt_of_liveEntry he
    simp only [Entry.aliveAt, hd, Option.all_some, Expiry.strict, decide_eq_true_eq] at halive
    omega

private theorem entry_addToList_cases (he : (st.addToList storageTtl a p).entry key = some e) :
    ((key = keyFor a ∨ key = globalPendingTxsKey) ∧ 0 < storageTtl * 1000 ∧
      e = ⟨insert p (st.members key), some (st.now + (storageTtl * 1000).toNat)⟩) ∨
    (key ≠ keyFor a ∧ key ≠ globalPendingTxsKey ∧ st.entry key = some e) := by
  by_cases haddress : key = keyFor a
  · subst haddress
    rw [entry_addToList_address, Option.ite_none_right_eq_some] at he
    exact .inl ⟨.inl rfl, he.1, (Option.some.inj he.2).symm⟩
  · by_cases hglobal : key = globalPendingTxsKey
    · subst hglobal
      rw [entry_addToList_global, Option.ite_none_right_eq_some] at he
      exact .inl ⟨.inr rfl, he.1, (Option.some.inj he.2).symm⟩
    · rw [entry_addToList_of_ne haddress hglobal] at he
      exact .inr ⟨haddress, hglobal, he⟩

private theorem mem_members_addToList (httl : 0 < storageTtl * 1000) :
    q ∈ (st.addToList storageTtl a p).members key ↔
      (q = p ∧ (key = keyFor a ∨ key = globalPendingTxsKey)) ∨ q ∈ st.members key := by
  by_cases haddress : key = keyFor a
  · subst haddress
    rw [mem_members, entry_addToList_address, if_pos httl]
    simp
  · by_cases hglobal : key = globalPendingTxsKey
    · subst hglobal
      rw [mem_members, entry_addToList_global, if_pos httl]
      simp
    · rw [mem_members, entry_addToList_of_ne haddress hglobal, ← mem_members]
      simp [haddress, hglobal]

private theorem Indexed.mem_addToList_iff (h : Indexed sender storageTtl st) :
    q ∈ (st.addToList storageTtl a p).members key ↔ 0 < storageTtl * 1000 ∧
      ((q = p ∧ (key = keyFor a ∨ key = globalPendingTxsKey)) ∨ q ∈ st.members key) := by
  by_cases httl : 0 < storageTtl * 1000
  · rw [mem_members_addToList httl]
    simp [httl]
  · constructor
    · intro hq
      obtain ⟨e, he, _⟩ := mem_members.mp hq
      rcases entry_addToList_cases he with ⟨_, hpos, _⟩ | ⟨_, _, he⟩
      · exact absurd hpos httl
      · rw [h.entry_eq_none httl] at he
        cases he
    · exact fun hq => absurd hq.1 httl

theorem Indexed.addToList (h : Indexed sender storageTtl st) (ha : sender p = a) :
    Indexed sender storageTtl (st.addToList storageTtl a p) where
  owned b q hq := by
    obtain ⟨_, hq⟩ := h.mem_addToList_iff.mp hq
    rcases hq with ⟨rfl, hkey | hkey⟩ | hq
    · rw [ha, keyFor_inj hkey]
    · exact absurd hkey (keyFor_ne_global b)
    · exact h.owned b q hq
  union q := by
    constructor
    · intro hq
      obtain ⟨httl, hq⟩ := h.mem_addToList_iff.mp hq
      rcases hq with ⟨rfl, _⟩ | hq
      · exact ⟨a, (mem_members_addToList httl).mpr (.inl ⟨rfl, .inl rfl⟩)⟩
      · obtain ⟨b, hb⟩ := (h.union q).mp hq
        exact ⟨b, (mem_members_addToList httl).mpr (.inr hb)⟩
    · rintro ⟨b, hq⟩
      obtain ⟨httl, hq⟩ := h.mem_addToList_iff.mp hq
      apply (mem_members_addToList httl).mpr
      rcases hq with ⟨rfl, _⟩ | hq
      · exact .inl ⟨rfl, .inr rfl⟩
      · exact .inr ((h.union q).mpr ⟨b, hq⟩)
  nonempty key e he := by
    rcases entry_addToList_cases he with ⟨_, _, rfl⟩ | ⟨_, _, he⟩
    · exact Finset.insert_ne_empty _ _
    · exact h.nonempty key e he
  bounded key e he := by
    rcases entry_addToList_cases he with ⟨_, _, rfl⟩ | ⟨_, _, he⟩
    · exact ⟨_, rfl, Nat.le_refl _⟩
    · exact h.bounded key e he
  outlives b e g he hg d hd d' hd' := by
    rcases entry_addToList_cases hg with ⟨_, _, rfl⟩ | ⟨_, hglobal, _⟩
    · -- the index lives on from now, and no deadline is later
      cases hd'
      rcases entry_addToList_cases he with ⟨_, _, rfl⟩ | ⟨_, _, he⟩
      · cases hd
        exact Nat.le_refl _
      · obtain ⟨d', hd', hle⟩ := h.bounded _ _ he
        rw [hd'] at hd
        rw [← Option.mem_some_iff.mp hd]
        exact hle
    · exact absurd rfl hglobal
  listed := h.listed

end Add

section Remove

variable {q : String} {e : Entry (Finset String)}

private theorem entry_removeFromList_cases (he : (st.removeFromList a p).entry key = some e) :
    ∃ d, st.entry key = some d ∧ e.deadline = d.deadline ∧ e.value ⊆ d.value ∧ (d.value ≠ ∅ →
      e.value ≠ ∅) := by
  have hwithout (hentry : entryWithout p (st.entry key) = some e) : ∃ d, st.entry key = some d ∧
      e.deadline = d.deadline ∧ e.value ⊆ d.value ∧ (d.value ≠ ∅ → e.value ≠ ∅) := by
    obtain ⟨d, hd, rfl, hne⟩ := entryWithout_eq_some.mp hentry
    exact ⟨d, hd, rfl, Finset.erase_subset _ _, fun _ => hne⟩
  by_cases haddress : key = keyFor a
  · subst haddress
    exact hwithout (entry_removeFromList_address st a p ▸ he)
  · by_cases hglobal : key = globalPendingTxsKey
    · subst hglobal
      exact hwithout (entry_removeFromList_global st a p ▸ he)
    · rw [entry_removeFromList_of_ne haddress hglobal] at he
      exact ⟨e, he, rfl, Finset.Subset.refl _, id⟩

private theorem mem_entryWithout {o : Option (Entry (Finset String))} :
    (∃ e, entryWithout p o = some e ∧ q ∈ e.value) ↔ q ≠ p ∧ ∃ e, o = some e ∧ q ∈ e.value := by
  constructor
  · rintro ⟨e, he, hq⟩
    obtain ⟨d, hd, rfl, _⟩ := entryWithout_eq_some.mp he
    obtain ⟨hne, hq⟩ := Finset.mem_erase.mp hq
    exact ⟨hne, d, hd, hq⟩
  · rintro ⟨hne, d, hd, hq⟩
    have hmem := Finset.mem_erase.mpr ⟨hne, hq⟩
    exact ⟨_, entryWithout_eq_some.mpr ⟨d, hd, rfl, Finset.ne_empty_of_mem hmem⟩, hmem⟩

private theorem mem_members_removeFromList : q ∈ (st.removeFromList a p).members key ↔
    q ∈ st.members key ∧ ((key = keyFor a ∨ key = globalPendingTxsKey) → q ≠ p) := by
  rw [mem_members, mem_members]
  by_cases haddress : key = keyFor a
  · subst haddress
    rw [entry_removeFromList_address, mem_entryWithout]
    simp [and_comm]
  · by_cases hglobal : key = globalPendingTxsKey
    · subst hglobal
      rw [entry_removeFromList_global, mem_entryWithout]
      simp [and_comm]
    · rw [entry_removeFromList_of_ne haddress hglobal]
      simp [haddress, hglobal]

theorem Indexed.removeFromList (h : Indexed sender storageTtl st) (ha : sender p = a) :
    Indexed sender storageTtl (st.removeFromList a p) where
  owned b q hq := h.owned b q (mem_members_removeFromList.mp hq).1
  union q := by
    constructor
    · intro hq
      obtain ⟨hq, hne⟩ := mem_members_removeFromList.mp hq
      obtain ⟨b, hb⟩ := (h.union q).mp hq
      exact ⟨b, mem_members_removeFromList.mpr ⟨hb, fun _ => hne (.inr rfl)⟩⟩
    · rintro ⟨b, hb⟩
      obtain ⟨hmem, hne⟩ := mem_members_removeFromList.mp hb
      refine mem_members_removeFromList.mpr ⟨(h.union q).mpr ⟨b, hmem⟩, fun _ hqp => ?_⟩
      -- the payload is with its sender
      have hb : b = a := by rw [← h.owned b q hmem, hqp, ha]
      exact hne (.inl (congrArg keyFor hb)) hqp
  nonempty key e he := by
    obtain ⟨d, hd, _, _, hne⟩ := entry_removeFromList_cases he
    exact hne (h.nonempty key d hd)
  bounded key e he := by
    obtain ⟨d, hd, hdeadline, _⟩ := entry_removeFromList_cases he
    rw [hdeadline]
    exact h.bounded key d hd
  outlives b e g he hg := by
    obtain ⟨d, hd, hdeadline, _⟩ := entry_removeFromList_cases he
    obtain ⟨d', hd', hdeadline', _⟩ := entry_removeFromList_cases hg
    rw [hdeadline, hdeadline']
    exact h.outlives b d d' hd hd'
  listed := h.listed

end Remove

section Runs

private theorem Indexed.union_step_iff (h : Indexed sender storageTtl st) {e : StorageEvent}
    (hstep : step storageTtl sender st e = some st') :
    (st'.IndexIsUnion ↔ st.KeepsIndex e) ∧
      (st'.IndexIsUnion → Indexed sender storageTtl st') := by
  cases e with
  | advance ms =>
    cases hstep
    exact ⟨h.union_advance_iff, h.advance⟩
  | addToList rlpHex =>
    cases hstep
    have hadd := h.addToList (p := rlpHex) rfl
    exact ⟨⟨fun _ => trivial, fun _ => hadd.union⟩, fun _ => hadd⟩
  | removeFromList rlpHex =>
    cases hstep
    have hremove := h.removeFromList (p := rlpHex) rfl
    exact ⟨⟨fun _ => trivial, fun _ => hremove.union⟩, fun _ => hremove⟩
  | removeAllKeys =>
    cases hstep
    have hkeys := h.removeAllKeys
    exact ⟨⟨fun _ => trivial, fun _ => hkeys.union⟩, fun _ => hkeys⟩
  | removeAllUnlink i =>
    obtain ⟨ks, hks, rfl⟩ := Option.map_eq_some_iff.mp hstep
    refine ⟨⟨fun hunion ks' hks' => ?_, fun hkeeps => ?_⟩, h.unlinked⟩
    · obtain rfl := Option.some.inj (hks.symm.trans hks')
      exact (h.union_unlinked_iff hks).mp hunion
    · exact (h.union_unlinked_iff hks).mpr (hkeeps ks hks)

private theorem Indexed.along_iff (h : Indexed sender storageTtl st) (es : List StorageEvent) :
    Along (step storageTtl sender)
        (fun s e => ∀ t, step storageTtl sender s e = some t → t.IndexIsUnion) st es ↔
      Along (step storageTtl sender) KeepsIndex st es := by
  induction es generalizing st with
  | nil => exact Iff.rfl
  | cons e es ih =>
    cases hstep : step storageTtl sender st e with
    | none =>
      have hkeeps : st.KeepsIndex e := by
        cases e with
        | removeAllUnlink i =>
          intro ks hks
          have hnone : st.listed[i]? = none := Option.map_eq_none_iff.mp hstep
          rw [hks] at hnone
          cases hnone
        | _ => cases hstep
      simp [Along, hstep, hkeeps]
    | some t =>
      obtain ⟨hiff, hindexed⟩ := h.union_step_iff hstep
      simp only [Along, hstep, Option.some.injEq, forall_eq']
      constructor
      · rintro ⟨hunion, hrest⟩
        exact ⟨hiff.mp hunion, (ih (hindexed hunion)).mp hrest⟩
      · rintro ⟨hkeeps, hrest⟩
        have hunion := hiff.mpr hkeeps
        exact ⟨hunion, (ih (hindexed hunion)).mpr hrest⟩

/-- The index is the union of the sets of the addresses in every state of a run exactly if every
step of the run keeps it. -/
theorem index_is_union_iff (storageTtl : ℤ) (sender : String → Address) (es : List StorageEvent) :
    Along (step storageTtl sender)
        (fun s e => ∀ t, step storageTtl sender s e = some t → t.IndexIsUnion) init es ↔
      Along (step storageTtl sender) KeepsIndex init es :=
  indexed_init.along_iff es

/-- The set of an address expires while the index has been refreshed by another one. -/
theorem expired_payload_in_index : ¬∀ (storageTtl : ℤ) (sender : String → Address)
    (es : List StorageEvent), Along (step storageTtl sender)
      (fun s e => ∀ t, step storageTtl sender s e = some t → t.IndexIsUnion) init es := by
  intro hall
  let a : Address := ⟨"0xa", by decide⟩
  let b : Address := ⟨"0xb", by decide⟩
  let sender (rlpHex : String) : Address := if rlpHex = "0x01" then a else b
  have halong := (indexed_init.along_iff _).mp
    (hall 30 sender [.addToList "0x01", .advance 20000, .addToList "0x02", .advance 15000])
  have hkeeps := (((halong.2 _ rfl).2 _ rfl).2 _ rfl).1 a (by decide +kernel) (by decide +kernel)
  exact absurd hkeeps (by decide +kernel)

end Runs

end Storage

end JsonRpcRelay.TransactionPool

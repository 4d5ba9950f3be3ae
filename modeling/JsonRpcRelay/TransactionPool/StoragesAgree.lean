import JsonRpcRelay.TransactionPool.LocalPendingTransactionStorage
import JsonRpcRelay.TransactionPool.RedisPendingTransactionStorage

/-!
# The storages of pending transactions agree

The storage in Redis shows what the one in memory shows, less the payloads whose sets have expired
since they were added.  A set lives on with every payload that is added to it.
-/

namespace JsonRpcRelay.TransactionPool

open Framework Framework.Store

/-- What happens to both storages. -/
inductive PoolEvent where
  | advance (ms : ℕ)
  | addToList (rlpHex : String)
  | removeFromList (rlpHex : String)
  | removeAll
  deriving DecidableEq

/-- A `removeAll` that nothing comes in between. -/
def Storage.removeAll (st : Storage) : Storage :=
  if st.pendingKeys = [] then st else { st with store := st.store.unlink st.pendingKeys }

def Storage.perform (storageTtl : ℤ) (sender : String → Address) (st : Storage) :
    PoolEvent → Storage
  | .advance ms => { st with now := st.now + ms }
  | .addToList rlpHex => st.addToList storageTtl (sender rlpHex) rlpHex
  | .removeFromList rlpHex => st.removeFromList (sender rlpHex) rlpHex
  | .removeAll => st.removeAll

def LocalPendingTransactionStorage.perform (sender : String → Address)
    (st : LocalPendingTransactionStorage) : PoolEvent → LocalPendingTransactionStorage
  | .advance _ => st
  | .addToList rlpHex => st.addToList (sender rlpHex).text rlpHex
  | .removeFromList rlpHex => st.removeFromList (sender rlpHex).text rlpHex
  | .removeAll => st.removeAll

def runRedis (storageTtl : ℤ) (sender : String → Address) (es : List PoolEvent) : Storage :=
  es.foldl (Storage.perform storageTtl sender) Storage.init

def runLocal (sender : String → Address) (es : List PoolEvent) : LocalPendingTransactionStorage :=
  es.foldl (LocalPendingTransactionStorage.perform sender) .init

section Lifetimes

variable (ttlMs : ℕ) (touches : String → Bool)

/-- The time that is left to a set, which is refreshed by the payloads that are added to it. -/
def remaining : Option ℕ → PoolEvent → Option ℕ
  | some left, .advance ms => if ms < left then some (left - ms) else none
  | some left, .addToList rlpHex => some (if touches rlpHex then ttlMs else left)
  | left, _ => left

/-- The payload was added and not removed after that, and `P` holds of what has happened since. -/
def Since (es : List PoolEvent) (rlpHex : String) (P : List PoolEvent → Prop) : Prop :=
  ∃ before after, es = before ++ .addToList rlpHex :: after ∧
    .removeFromList rlpHex ∉ after ∧ .removeAll ∉ after ∧ P after

def Added (es : List PoolEvent) (rlpHex : String) : Prop := Since es rlpHex fun _ => True

/-- The payload was added and not removed after that, and `left` milliseconds are left to its
set. -/
def Lives (es : List PoolEvent) (rlpHex : String) (left : ℕ) : Prop :=
  Since es rlpHex fun after => after.foldl (remaining ttlMs touches) (some ttlMs) = some left

variable {ttlMs touches} {es : List PoolEvent} {e : PoolEvent} {rlpHex : String} {left : ℕ}
  {P : List PoolEvent → Prop}

private theorem since_concat : Since (es ++ [e]) rlpHex P ↔ e = .addToList rlpHex ∧ P [] ∨
    Since es rlpHex (fun after => P (after ++ [e])) ∧ e ≠ .removeFromList rlpHex ∧
      e ≠ .removeAll := by
  constructor
  · rintro ⟨before, after, hes, hremove, hall, hafter⟩
    cases after using List.reverseRecOn with
    | nil =>
      obtain ⟨_, he⟩ := List.append_inj' hes rfl
      exact .inl ⟨List.singleton_inj.mp he, hafter⟩
    | append_singleton after last =>
      rw [← List.cons_append, ← List.append_assoc] at hes
      obtain ⟨rfl, he⟩ := List.append_inj' hes rfl
      obtain rfl := List.singleton_inj.mp he
      simp only [List.mem_append, List.mem_singleton, not_or] at hremove hall
      exact .inr ⟨⟨before, after, rfl, hremove.1, hall.1, hafter⟩, Ne.symm hremove.2,
        Ne.symm hall.2⟩
  · rintro (⟨rfl, hnil⟩ | ⟨⟨before, after, rfl, hremove, hall, hafter⟩, hremove', hall'⟩)
    · exact ⟨es, [], rfl, List.not_mem_nil, List.not_mem_nil, hnil⟩
    · refine ⟨before, after ++ [e], by simp, ?_, ?_, hafter⟩
      · simpa using ⟨hremove, hremove'.symm⟩
      · simpa using ⟨hall, hall'.symm⟩

private theorem not_since_nil : ¬Since [] rlpHex P := by
  rintro ⟨before, after, hes, _⟩
  exact absurd hes (by simp)

private theorem added_concat : Added (es ++ [e]) rlpHex ↔
    e = .addToList rlpHex ∨ Added es rlpHex ∧ e ≠ .removeFromList rlpHex ∧ e ≠ .removeAll := by
  rw [Added, since_concat, and_true]
  rfl

theorem Lives.added (h : Lives ttlMs touches es rlpHex left) : Added es rlpHex := by
  obtain ⟨before, after, hes, hremove, hall, _⟩ := h
  exact ⟨before, after, hes, hremove, hall, trivial⟩

/-- What has lived until now lives on with the time that the last event leaves to it. -/
theorem lives_concat : Lives ttlMs touches (es ++ [e]) rlpHex left ↔
    e = .addToList rlpHex ∧ ttlMs = left ∨
      ∃ before, Lives ttlMs touches es rlpHex before ∧
        remaining ttlMs touches (some before) e = some left ∧ e ≠ .removeFromList rlpHex ∧
          e ≠ .removeAll := by
  have hlast (after : List PoolEvent) :
      (after ++ [e]).foldl (remaining ttlMs touches) (some ttlMs) = some left ↔
        ∃ before, after.foldl (remaining ttlMs touches) (some ttlMs) = some before ∧
          remaining ttlMs touches (some before) e = some left := by
    rw [List.foldl_append, List.foldl_cons, List.foldl_nil]
    cases after.foldl (remaining ttlMs touches) (some ttlMs) with
    | none => cases e <;> simp [remaining]
    | some n => simp
  rw [Lives, since_concat]
  simp only [hlast, List.foldl_nil, Option.some.injEq]
  refine or_congr Iff.rfl ?_
  constructor
  · rintro ⟨⟨before, after, hes, hremove, hall, n, hn, hleft⟩, he⟩
    exact ⟨n, ⟨before, after, hes, hremove, hall, hn⟩, hleft, he⟩
  · rintro ⟨n, ⟨before, after, hes, hremove, hall, hn⟩, hleft, he⟩
    exact ⟨⟨before, after, hes, hremove, hall, n, hn, hleft⟩, he⟩

end Lifetimes

section Redis

/-- The keys of the storage in Redis. -/
inductive PoolKey where
  | address (a : Address)
  | global

def PoolKey.key : PoolKey → String
  | .address a => keyFor a
  | .global => globalPendingTxsKey

/-- The payload is added to the set of the key. -/
def PoolKey.touches (sender : String → Address) : PoolKey → String → Bool
  | .address a, rlpHex => (sender rlpHex).text = a.text
  | .global, _ => true

variable {storageTtl : ℤ} {sender : String → Address} {st : Storage} {k : PoolKey} {p q : String}

private theorem touches_address_iff {a : Address} :
    (PoolKey.address a).touches sender p = true ↔ sender p = a := by
  simp only [PoolKey.touches, decide_eq_true_eq]
  constructor
  · intro h
    cases hs : sender p
    cases a
    rw [hs] at h
    cases h
    rfl
  · intro h
    rw [h]

private theorem entry_add (hpos : 0 < storageTtl * 1000) (st : Storage) (k : PoolKey) (q : String) :
    (st.addToList storageTtl (sender q) q).entry k.key =
      if k.touches sender q then
        some ⟨insert q (st.members k.key), some (st.now + (storageTtl * 1000).toNat)⟩
      else st.entry k.key := by
  cases k with
  | address a =>
    by_cases htouches : sender q = a
    · subst htouches
      rw [if_pos (touches_address_iff.mpr rfl), PoolKey.key, Storage.entry_addToList_address,
        if_pos hpos]
    · rw [if_neg (touches_address_iff.not.mpr htouches)]
      exact Storage.entry_addToList_of_ne (fun h => htouches (keyFor_inj h).symm)
        (keyFor_ne_global a)
  | global =>
    rw [PoolKey.key, Storage.entry_addToList_global, if_pos hpos]
    rfl

private theorem entry_remove (st : Storage) (k : PoolKey) (q : String) :
    (st.removeFromList (sender q) q).entry k.key =
      if k.touches sender q then Storage.entryWithout q (st.entry k.key)
      else st.entry k.key := by
  cases k with
  | address a =>
    by_cases htouches : sender q = a
    · subst htouches
      rw [if_pos (touches_address_iff.mpr rfl), PoolKey.key, Storage.entry_removeFromList_address]
    · rw [if_neg (touches_address_iff.not.mpr htouches)]
      exact Storage.entry_removeFromList_of_ne (fun h => htouches (keyFor_inj h).symm)
        (keyFor_ne_global a)
  | global =>
    rw [PoolKey.key, Storage.entry_removeFromList_global]
    rfl

private theorem startsWith_key (k : PoolKey) : Js.startsWith k.key keyPrefix = true := by
  have hprefixed (text : String) : Js.startsWith (keyPrefix ++ text) keyPrefix = true := by
    rw [Js.startsWith, String.toList_append, List.isPrefixOf_iff_prefix]
    exact List.prefix_append _ _
  cases k with
  | address a => exact hprefixed a.text
  | global => exact hprefixed "global"

private theorem entry_removeAll (st : Storage) (k : PoolKey) : st.removeAll.entry k.key = none := by
  have hpending : (st.entry k.key).isSome → k.key ∈ st.pendingKeys :=
    fun hsome => Storage.mem_pendingKeys.mpr ⟨hsome, startsWith_key k⟩
  unfold Storage.removeAll
  split
  · rename_i hnil
    cases hentry : st.entry k.key with
    | none => rfl
    | some e =>
      rw [hentry, hnil] at hpending
      exact absurd (hpending rfl) List.not_mem_nil
  · rw [Storage.entry_unlink]
    split
    · rfl
    · rename_i hnot
      exact Option.not_isSome_iff_eq_none.mp fun hsome => hnot (hpending hsome)

/-- The entry of a key holds what lives on in its set, with the time that is left to it. -/
structure Tracks (storageTtl : ℤ) (sender : String → Address) (es : List PoolEvent) (k : PoolKey)
    (st : Storage) : Prop where
  deadline : ∀ e, st.entry k.key = some e → ∃ left, e.deadline = some (st.now + left)
  mem : ∀ p left, (∃ e, st.entry k.key = some e ∧ p ∈ e.value ∧
      e.deadline = some (st.now + left)) ↔
    k.touches sender p = true ∧
      Lives (storageTtl * 1000).toNat (k.touches sender) es p left

variable {es : List PoolEvent}

theorem Tracks.mem_members (h : Tracks storageTtl sender es k st) : p ∈ st.members k.key ↔
    k.touches sender p = true ∧
      ∃ left, Lives (storageTtl * 1000).toNat (k.touches sender) es p left := by
  rw [Storage.mem_members]
  constructor
  · rintro ⟨e, he, hp⟩
    obtain ⟨left, hleft⟩ := h.deadline e he
    obtain ⟨htouches, hlives⟩ := (h.mem p left).mp ⟨e, he, hp, hleft⟩
    exact ⟨htouches, left, hlives⟩
  · rintro ⟨htouches, left, hlives⟩
    obtain ⟨e, he, hp, _⟩ := (h.mem p left).mpr ⟨htouches, hlives⟩
    exact ⟨e, he, hp⟩

theorem tracks_init : Tracks storageTtl sender [] k Storage.init where
  deadline e he := by cases he
  mem p left := by
    constructor
    · rintro ⟨e, he, _⟩
      cases he
    · rintro ⟨_, hlives⟩
      exact absurd hlives not_since_nil

theorem Tracks.advance (h : Tracks storageTtl sender es k st) (ms : ℕ) :
    Tracks storageTtl sender (es ++ [.advance ms]) k { st with now := st.now + ms } := by
  have halive {e : Entry (Finset String)} {left : ℕ} (hleft : e.deadline = some (st.now + left)) :
      e.aliveAt .strict (st.now + ms) = true ↔ ms < left := by
    simp only [Entry.aliveAt, hleft, Option.all_some, Expiry.strict, decide_eq_true_eq]
    omega
  have hentry {e : Entry (Finset String)} :
      Storage.entry { st with now := st.now + ms } k.key = some e ↔
        st.entry k.key = some e ∧ e.aliveAt .strict (st.now + ms) = true := by
    rw [Storage.entry_advance, Option.filter_eq_some_iff]
  constructor
  · intro e he
    obtain ⟨he, hlater⟩ := hentry.mp he
    obtain ⟨left, hleft⟩ := h.deadline e he
    have hlt := (halive hleft).mp hlater
    refine ⟨left - ms, hleft.trans ?_⟩
    show some (st.now + left) = some (st.now + ms + (left - ms))
    congr 1
    omega
  · intro p left
    rw [lives_concat]
    constructor
    · rintro ⟨e, he, hp, hleft⟩
      obtain ⟨he, hlater⟩ := hentry.mp he
      obtain ⟨before, hbefore⟩ := h.deadline e he
      have hlt := (halive hbefore).mp hlater
      obtain ⟨htouches, hlives⟩ := (h.mem p before).mp ⟨e, he, hp, hbefore⟩
      refine ⟨htouches, .inr ⟨before, hlives, ?_, by simp, by simp⟩⟩
      have hsame : st.now + before = st.now + ms + left :=
        Option.some.inj (hbefore.symm.trans hleft)
      simp only [remaining, if_pos hlt, Option.some.injEq]
      omega
    · rintro ⟨htouches, ⟨hadd, _⟩ | ⟨before, hlives, hleft, _⟩⟩
      · cases hadd
      · obtain ⟨e, he, hp, hbefore⟩ := (h.mem p before).mpr ⟨htouches, hlives⟩
        simp only [remaining] at hleft
        split at hleft
        · rename_i hlt
          obtain rfl := Option.some.inj hleft
          refine ⟨e, hentry.mpr ⟨he, (halive hbefore).mpr hlt⟩, hp, hbefore.trans ?_⟩
          show some (st.now + before) = some (st.now + ms + (before - ms))
          congr 1
          omega
        · cases hleft

theorem Tracks.add (hpos : 0 < storageTtl * 1000) (h : Tracks storageTtl sender es k st)
    (q : String) :
    Tracks storageTtl sender (es ++ [.addToList q]) k (st.addToList storageTtl (sender q) q) := by
  have hnow : (st.addToList storageTtl (sender q) q).now = st.now := rfl
  by_cases htouches : k.touches sender q = true
  · have hentry : (st.addToList storageTtl (sender q) q).entry k.key = _ :=
      entry_add hpos st k q
    rw [if_pos htouches] at hentry
    constructor
    · intro e he
      rw [hentry] at he
      obtain rfl := Option.some.inj he
      exact ⟨_, rfl⟩
    · intro p left
      rw [hentry, lives_concat, hnow]
      simp only [Option.some.injEq, exists_eq_left', Finset.mem_insert, h.mem_members, remaining,
        htouches, if_true, PoolEvent.addToList.injEq, Nat.add_left_cancel_iff]
      constructor
      · rintro ⟨rfl | ⟨hp, before, hlives⟩, hleft⟩
        · exact ⟨htouches, .inl ⟨rfl, hleft⟩⟩
        · exact ⟨hp, .inr ⟨before, hlives, hleft, by simp, by simp⟩⟩
      · rintro ⟨hp, ⟨rfl, hleft⟩ | ⟨before, hlives, hleft, _⟩⟩
        · exact ⟨.inl rfl, hleft⟩
        · exact ⟨.inr ⟨hp, before, hlives⟩, hleft⟩
  · have hentry : (st.addToList storageTtl (sender q) q).entry k.key = _ :=
      entry_add hpos st k q
    rw [if_neg htouches] at hentry
    constructor
    · intro e he
      rw [hentry] at he
      exact h.deadline e he
    · intro p left
      rw [hentry, hnow, h.mem, lives_concat]
      refine and_congr_right fun hp => ?_
      constructor
      · intro hlives
        exact .inr ⟨left, hlives, by simp [remaining, htouches], by simp, by simp⟩
      · rintro (⟨hadd, _⟩ | ⟨before, hlives, hleft, _⟩)
        · obtain rfl := PoolEvent.addToList.inj hadd
          exact absurd hp htouches
        · simp only [remaining, htouches, Option.some.injEq] at hleft
          exact hleft ▸ hlives

theorem Tracks.remove (h : Tracks storageTtl sender es k st) (q : String) :
    Tracks storageTtl sender (es ++ [.removeFromList q]) k (st.removeFromList (sender q) q) := by
  have hentry : (st.removeFromList (sender q) q).entry k.key = _ := entry_remove st k q
  have hnow : (st.removeFromList (sender q) q).now = st.now := rfl
  by_cases htouches : k.touches sender q = true
  · rw [if_pos htouches] at hentry
    constructor
    · intro e he
      rw [hentry] at he
      obtain ⟨d, hd, rfl, _⟩ := Storage.entryWithout_eq_some.mp he
      exact h.deadline d hd
    · intro p left
      rw [hentry, hnow, lives_concat]
      constructor
      · rintro ⟨e, he, hp, hleft⟩
        obtain ⟨d, hd, rfl, _⟩ := Storage.entryWithout_eq_some.mp he
        obtain ⟨hne, hp⟩ := Finset.mem_erase.mp hp
        obtain ⟨hp, hlives⟩ := (h.mem p left).mp ⟨d, hd, hp, hleft⟩
        exact ⟨hp, .inr ⟨left, hlives, rfl, by simpa using Ne.symm hne, by simp⟩⟩
      · rintro ⟨hp, ⟨hadd, _⟩ | ⟨before, hlives, hleft, hne, _⟩⟩
        · cases hadd
        · obtain rfl := Option.some.inj hleft
          obtain ⟨d, hd, hmem, hdeadline⟩ := (h.mem p before).mpr ⟨hp, hlives⟩
          have herase : p ∈ d.value.erase q :=
            Finset.mem_erase.mpr ⟨fun heq => hne (by rw [heq]), hmem⟩
          exact ⟨_, Storage.entryWithout_eq_some.mpr
            ⟨d, hd, rfl, Finset.ne_empty_of_mem herase⟩, herase, hdeadline⟩
  · rw [if_neg htouches] at hentry
    constructor
    · intro e he
      rw [hentry] at he
      exact h.deadline e he
    · intro p left
      rw [hentry, hnow, h.mem, lives_concat]
      refine and_congr_right fun hp => ?_
      constructor
      · intro hlives
        refine .inr ⟨left, hlives, rfl, fun heq => ?_, by simp⟩
        obtain rfl := PoolEvent.removeFromList.inj heq
        exact htouches hp
      · rintro (⟨hadd, _⟩ | ⟨before, hlives, hleft, _⟩)
        · cases hadd
        · exact Option.some.inj hleft ▸ hlives

private theorem tracks_removeAll (es : List PoolEvent) (k : PoolKey) (st : Storage) :
    Tracks storageTtl sender (es ++ [.removeAll]) k st.removeAll := by
  have hentry := entry_removeAll st k
  constructor
  · intro e he
    rw [hentry] at he
    cases he
  · intro p left
    rw [hentry, lives_concat]
    simp

private theorem tracks_runRedis (hpos : 0 < storageTtl * 1000) (sender : String → Address)
    (es : List PoolEvent) (k : PoolKey) :
    Tracks storageTtl sender es k (runRedis storageTtl sender es) := by
  induction es using List.reverseRecOn with
  | nil => exact tracks_init
  | append_singleton es e ih =>
    rw [runRedis, List.foldl_append]
    cases e with
    | advance ms => exact ih.advance ms
    | addToList q => exact ih.add hpos q
    | removeFromList q => exact ih.remove q
    | removeAll => exact tracks_removeAll es k _

end Redis

section Local

variable {sender : String → Address} {es : List PoolEvent} {p : String} {a : Address}

theorem text_inj {a b : Address} : a.text = b.text ↔ a = b := by
  constructor
  · intro h
    cases a
    cases b
    cases h
    rfl
  · intro h
    rw [h]

private theorem mem_runLocal : p ∈ (runLocal sender es).getTransactionPayloads a.text ↔
    sender p = a ∧ Added es p := by
  induction es using List.reverseRecOn with
  | nil =>
    apply iff_of_false InsertionSet.notMem_empty
    rintro ⟨_, hadded⟩
    exact not_since_nil hadded
  | append_singleton es e ih =>
    rw [runLocal, List.foldl_append, ← runLocal, added_concat]
    cases e with
    | advance ms =>
      show p ∈ (runLocal sender es).getTransactionPayloads a.text ↔ _
      simpa using ih
    | addToList q =>
      show p ∈ ((runLocal sender es).addToList _ q).getTransactionPayloads a.text ↔ _
      rw [mem_addToList, ih, text_inj]
      simp only [PoolEvent.addToList.injEq, ne_eq, reduceCtorEq, not_false_eq_true, and_true]
      constructor
      · rintro (⟨rfl, rfl⟩ | ⟨hsender, hadded⟩)
        · exact ⟨rfl, .inl rfl⟩
        · exact ⟨hsender, .inr hadded⟩
      · rintro ⟨hsender, rfl | hadded⟩
        · exact .inl ⟨hsender.symm, rfl⟩
        · exact .inr ⟨hsender, hadded⟩
    | removeFromList q =>
      show p ∈ ((runLocal sender es).removeFromList _ q).getTransactionPayloads a.text ↔ _
      rw [mem_removeFromList, ih, text_inj]
      simp only [reduceCtorEq, false_or, PoolEvent.removeFromList.injEq, ne_eq, not_false_eq_true,
        and_true]
      constructor
      · rintro ⟨hne, rfl, hadded⟩
        exact ⟨rfl, hadded, fun heq => hne ⟨by rw [heq], heq.symm⟩⟩
      · rintro ⟨hsender, hadded, hne⟩
        exact ⟨fun heq => hne heq.2.symm, hsender, hadded⟩
    | removeAll =>
      have hnone : p ∉ (runLocal sender es).removeAll.getTransactionPayloads a.text :=
        notMem_removeAll
      exact iff_of_false hnone (by simp)

private theorem mem_index_runLocal :
    p ∈ (runLocal sender es).getAllTransactionPayloads ↔ Added es p := by
  induction es using List.reverseRecOn with
  | nil => exact iff_of_false InsertionSet.notMem_empty not_since_nil
  | append_singleton es e ih =>
    rw [runLocal, List.foldl_append, ← runLocal, added_concat]
    have hindex : p ∈ (runLocal sender es).globalTransactionIndex ↔ Added es p := ih
    cases e with
    | advance ms =>
      show p ∈ (runLocal sender es).globalTransactionIndex ↔ _
      simpa using hindex
    | addToList q =>
      show p ∈ ((runLocal sender es).addToList _ q).globalTransactionIndex ↔ _
      rw [mem_index_addToList, hindex]
      simp [eq_comm]
    | removeFromList q =>
      show p ∈ ((runLocal sender es).removeFromList _ q).globalTransactionIndex ↔ _
      rw [mem_index_removeFromList, hindex]
      simp [eq_comm, and_comm]
    | removeAll =>
      apply iff_of_false InsertionSet.notMem_empty
      simp

end Local

section Agreement

variable (storageTtl : ℤ) (sender : String → Address) (es : List PoolEvent)

/-- The set that the payload is in under this key has not expired since it was added. -/
def IsAlive (k : PoolKey) (p : String) : Prop :=
  ∃ left, Lives (storageTtl * 1000).toNat (k.touches sender) es p left

variable {storageTtl}

private theorem mem_runRedis_iff (hpos : 0 < storageTtl) (k : PoolKey) (p : String) :
    p ∈ (runRedis storageTtl sender es).members k.key ↔
      k.touches sender p = true ∧ Added es p ∧ IsAlive storageTtl sender es k p := by
  rw [(tracks_runRedis (by omega) sender es k).mem_members]
  refine and_congr_right fun _ => ⟨fun h => ⟨?_, h⟩, fun h => h.2⟩
  obtain ⟨left, hlives⟩ := h
  exact hlives.added

private theorem mem_payloads_iff (hpos : 0 < storageTtl) (a : Address) (p : String) :
    p ∈ (runRedis storageTtl sender es).getTransactionPayloads a ↔
      p ∈ (runLocal sender es).getTransactionPayloads a.text ∧
        IsAlive storageTtl sender es (.address a) p := by
  rw [mem_runLocal, and_assoc, ← touches_address_iff]
  exact mem_runRedis_iff sender es hpos (.address a) p

/-- The storage in Redis shows exactly the payloads of the one in memory whose sets have not expired
since they were added, with an address and in the index.  So an address has at most as many
payloads there, and as many exactly if its set has not expired. -/
theorem redis_agrees_with_local (hpos : 0 < storageTtl) (a : Address) :
    (∀ p, p ∈ (runRedis storageTtl sender es).getTransactionPayloads a ↔
      p ∈ (runLocal sender es).getTransactionPayloads a.text ∧
        IsAlive storageTtl sender es (.address a) p) ∧
    (∀ p, p ∈ (runRedis storageTtl sender es).getAllTransactionPayloads ↔
      p ∈ (runLocal sender es).getAllTransactionPayloads ∧
        IsAlive storageTtl sender es .global p) ∧
    (runRedis storageTtl sender es).getList a ≤ (runLocal sender es).getList a.text ∧
    ((runRedis storageTtl sender es).getList a = (runLocal sender es).getList a.text ↔
      ∀ p ∈ (runLocal sender es).getTransactionPayloads a.text,
        IsAlive storageTtl sender es (.address a) p) := by
  have hpayloads := mem_payloads_iff sender es hpos a
  have hindex : ∀ p, p ∈ (runRedis storageTtl sender es).getAllTransactionPayloads ↔
      p ∈ (runLocal sender es).getAllTransactionPayloads ∧
        IsAlive storageTtl sender es .global p := by
    intro p
    rw [mem_index_runLocal]
    exact (mem_runRedis_iff sender es hpos .global p).trans (by simp [PoolKey.touches])
  generalize hmemory : (runLocal sender es).getTransactionPayloads a.text = payloads at *
  have hsubset : (runRedis storageTtl sender es).getTransactionPayloads a ⊆
      payloads.elements.toFinset := by
    intro p hp
    exact List.mem_toFinset.mpr ((hpayloads p).mp hp).1
  have hcard : (runLocal sender es).getList a.text = payloads.elements.toFinset.card := by
    rw [getList_eq_size, hmemory, List.toFinset_card_of_nodup payloads.nodup]
    rfl
  refine ⟨hpayloads, hindex, ?_, ?_⟩
  · rw [hcard]
    exact Finset.card_le_card hsubset
  · rw [hcard]
    constructor
    · intro hsame p hp
      have heq := Finset.eq_of_subset_of_card_le hsubset hsame.ge
      have hmem : p ∈ payloads.elements.toFinset := List.mem_toFinset.mpr hp
      rw [← heq] at hmem
      exact ((hpayloads p).mp hmem).2
    · intro hall
      have heq : (runRedis storageTtl sender es).getTransactionPayloads a =
          payloads.elements.toFinset := by
        refine Finset.Subset.antisymm hsubset fun p hp => ?_
        have hp := List.mem_toFinset.mp hp
        exact (hpayloads p).mpr ⟨hp, hall p hp⟩
      exact congrArg Finset.card heq

/-- A payload whose set is refreshed just before it expires is shown for as long again. -/
theorem redis_agrees_with_local_refreshed :
    let a : Address := ⟨"0xa", by decide⟩
    "0x01" ∈ (runRedis 1 (fun _ => a) [.addToList "0x01", .advance 999, .addToList "0x02",
      .advance 999]).getTransactionPayloads a := by
  intro a
  have hagree := redis_agrees_with_local (fun _ => a) [.addToList "0x01", .advance 999,
    .addToList "0x02", .advance 999] (show (0 : ℤ) < 1 by decide) a
  have hlives : Lives (1 * 1000 : ℤ).toNat ((PoolKey.address a).touches fun _ => a)
      [.addToList "0x01", .advance 999, .addToList "0x02", .advance 999] "0x01" 1 := by
    refine ⟨[], _, rfl, by simp, by simp, ?_⟩
    simp [remaining, PoolKey.touches]
  rw [hagree.1, mem_runLocal]
  exact ⟨⟨rfl, hlives.added⟩, 1, hlives⟩

end Agreement

end JsonRpcRelay.TransactionPool

import JsonRpcRelay.Framework.ExpiringSets
import JsonRpcRelay.Framework.Schedule
import JsonRpcRelay.JavaScript

/-!
# The pending transactions in Redis

The payloads of each address and an index of all payloads are kept in sets that expire.  What
one `MULTI` groups together is one step; `removeAll` lists the keys in one step and deletes them
in another.
-/

namespace JsonRpcRelay.TransactionPool

open Framework Framework.Store Framework.SetStore

section Keys

def keyPrefix : String := "txpool:pending:"

def globalPendingTxsKey : String := keyPrefix ++ "global"

/-- The address of an account. -/
structure Address where
  text : String
  prefixed : Js.startsWith text "0x" = true

def keyFor (address : Address) : String := keyPrefix ++ address.text

theorem keyFor_inj {a b : Address} (h : keyFor a = keyFor b) : a = b := by
  have hlist := congrArg String.toList h
  rw [keyFor, keyFor, String.toList_append, String.toList_append] at hlist
  have htext : a.text = b.text := String.toList_inj.mp (List.append_cancel_left hlist)
  cases a
  cases b
  cases htext
  rfl

theorem keyFor_ne_global (a : Address) : keyFor a ≠ globalPendingTxsKey := by
  intro h
  have hlist := congrArg String.toList h
  rw [keyFor, globalPendingTxsKey, String.toList_append, String.toList_append] at hlist
  have hprefixed := a.prefixed
  rw [Js.startsWith, List.append_cancel_left hlist] at hprefixed
  exact absurd hprefixed (by decide)

end Keys

/-- The keys with the sets of payloads, and the keys that each `removeAll` in flight has listed. -/
structure Storage where
  now : ℕ
  store : SetStore String String
  listed : List (List String)

inductive StorageEvent where
  /-- The clock of the server advances. -/
  | advance (ms : ℕ)
  | addToList (rlpHex : String)
  | removeFromList (rlpHex : String)
  /-- A `removeAll` lists the keys. -/
  | removeAllKeys
  /-- A `removeAll` deletes the keys that it has listed. -/
  | removeAllUnlink (i : ℕ)
  deriving DecidableEq

namespace Storage

def init : Storage := ⟨0, ∅, []⟩

variable (storageTtl : ℤ) (st : Storage)

/-- The entry of a key that has not expired. -/
def entry (key : String) : Option (Entry (Finset String)) :=
  st.store.liveEntry .strict st.now key

def members (key : String) : Finset String := sMembers .strict st.now st.store key

def addToList (address : Address) (rlpHex : String) : Storage :=
  let addressKey := keyFor address
  let ttlMs := storageTtl * 1000
  let added := expire .strict st.now (sAdd .strict st.now st.store addressKey rlpHex)
    addressKey ttlMs
  { st with
    store := expire .strict st.now (sAdd .strict st.now added globalPendingTxsKey rlpHex)
      globalPendingTxsKey ttlMs }

def removeFromList (address : Address) (rlpHex : String) : Storage :=
  let removed := sRem .strict st.now st.store (keyFor address) rlpHex
  { st with store := sRem .strict st.now removed globalPendingTxsKey rlpHex }

/-- The keys that begin with the prefix. -/
def pendingKeys : List String :=
  (st.store.liveKeys .strict st.now).filter (Js.startsWith · keyPrefix)

/-- No keys are deleted if there are none. -/
def removeAllKeys : Storage :=
  if st.pendingKeys = [] then st else { st with listed := st.listed ++ [st.pendingKeys] }

def removeAllUnlink (i : ℕ) : Option Storage :=
  st.listed[i]?.map fun pendingKeys =>
    { st with store := st.store.unlink pendingKeys, listed := st.listed.eraseIdx i }

def getList (address : Address) : ℕ := sCard .strict st.now st.store (keyFor address)

def getAllTransactionPayloads : Finset String := st.members globalPendingTxsKey

def getTransactionPayloads (address : Address) : Finset String := st.members (keyFor address)

end Storage

/-- One step of the storage, where every payload belongs to one sender. -/
def Storage.step (storageTtl : ℤ) (sender : String → Address) (st : Storage) :
    StorageEvent → Option Storage
  | .advance ms => some { st with now := st.now + ms }
  | .addToList rlpHex => some (st.addToList storageTtl (sender rlpHex) rlpHex)
  | .removeFromList rlpHex => some (st.removeFromList (sender rlpHex) rlpHex)
  | .removeAllKeys => some st.removeAllKeys
  | .removeAllUnlink i => st.removeAllUnlink i

namespace Storage

section Lemmas

variable {storageTtl : ℤ} {st : Storage} {a : Address} {p q key : String}

theorem mem_members : p ∈ st.members key ↔ ∃ e, st.entry key = some e ∧ p ∈ e.value := by
  rw [members, sMembers_eq]
  cases h : st.entry key with
  | none =>
    rw [show st.store.liveEntry .strict st.now key = none from h]
    simp
  | some e =>
    rw [show st.store.liveEntry .strict st.now key = some e from h]
    simp

theorem entry_advance (ms : ℕ) : Storage.entry { st with now := st.now + ms } key =
    (st.entry key).filter fun e => e.aliveAt .strict (st.now + ms) :=
  liveEntry_later (Nat.le_add_right _ _)

theorem entry_addToList_address (st : Storage) (a : Address) (p : String) :
    (st.addToList storageTtl a p).entry (keyFor a) = if 0 < storageTtl * 1000 then
      some ⟨insert p (st.members (keyFor a)), some (st.now + (storageTtl * 1000).toNat)⟩
    else none := by
  unfold addToList entry
  dsimp only
  rw [liveEntry_refresh_of_ne (keyFor_ne_global a), liveEntry_refresh_self]
  rfl

theorem entry_addToList_global (st : Storage) (a : Address) (p : String) :
    (st.addToList storageTtl a p).entry globalPendingTxsKey = if 0 < storageTtl * 1000 then
      some ⟨insert p (st.members globalPendingTxsKey),
        some (st.now + (storageTtl * 1000).toNat)⟩
    else none := by
  unfold addToList entry
  dsimp only
  rw [liveEntry_refresh_self, sMembers_congr (liveEntry_refresh_of_ne (keyFor_ne_global a).symm)]
  rfl

theorem entry_addToList_of_ne (hne : key ≠ keyFor a) (hglobal : key ≠ globalPendingTxsKey) :
    (st.addToList storageTtl a p).entry key = st.entry key := by
  unfold addToList entry
  dsimp only
  rw [liveEntry_refresh_of_ne hglobal, liveEntry_refresh_of_ne hne]

/-- What is left of an entry without a payload. -/
def entryWithout (p : String) (e : Option (Entry (Finset String))) :
    Option (Entry (Finset String)) :=
  (e.map fun e => ⟨e.value.erase p, e.deadline⟩).filter fun e => e.value ≠ ∅

theorem entry_removeFromList_address (st : Storage) (a : Address) (p : String) :
    (st.removeFromList a p).entry (keyFor a) = entryWithout p (st.entry (keyFor a)) := by
  unfold removeFromList entry
  dsimp only
  rw [liveEntry_sRem_of_ne (keyFor_ne_global a), liveEntry_sRem_self]
  rfl

theorem entry_removeFromList_global (st : Storage) (a : Address) (p : String) :
    (st.removeFromList a p).entry globalPendingTxsKey =
      entryWithout p (st.entry globalPendingTxsKey) := by
  unfold removeFromList entry
  dsimp only
  rw [liveEntry_sRem_self, liveEntry_sRem_of_ne (keyFor_ne_global a).symm]
  rfl

theorem entry_removeFromList_of_ne (hne : key ≠ keyFor a) (hglobal : key ≠ globalPendingTxsKey) :
    (st.removeFromList a p).entry key = st.entry key := by
  unfold removeFromList entry
  dsimp only
  rw [liveEntry_sRem_of_ne hglobal, liveEntry_sRem_of_ne hne]

theorem entryWithout_eq_some {e : Option (Entry (Finset String))} {e' : Entry (Finset String)} :
    entryWithout p e = some e' ↔
      ∃ d, e = some d ∧ e' = ⟨d.value.erase p, d.deadline⟩ ∧ d.value.erase p ≠ ∅ := by
  rw [entryWithout, Option.filter_eq_some_iff]
  simp only [Option.map_eq_some_iff, decide_eq_true_eq]
  constructor
  · rintro ⟨⟨d, hd, rfl⟩, hne⟩
    exact ⟨d, hd, rfl, hne⟩
  · rintro ⟨d, hd, rfl, hne⟩
    exact ⟨⟨d, hd, rfl⟩, hne⟩

theorem entry_unlink {ks : List String} {listed : List (List String)} :
    Storage.entry { st with store := st.store.unlink ks, listed := listed } key =
      if key ∈ ks then none else st.entry key :=
  liveEntry_unlink

theorem mem_pendingKeys :
    key ∈ st.pendingKeys ↔ (st.entry key).isSome ∧ Js.startsWith key keyPrefix = true := by
  rw [pendingKeys, List.mem_filter, mem_liveKeys, get_eq_map_liveEntry, Option.isSome_map]
  rfl

end Lemmas

end Storage

end JsonRpcRelay.TransactionPool

import JsonRpcRelay.Framework.InsertionSet
import Mathlib.Data.Finmap

/-!
# The pending transactions in memory

The payloads of each address are kept in a set of its own, and all payloads in an index.  A call
runs to its end before the next one.
-/

namespace JsonRpcRelay.TransactionPool

open Framework

structure LocalPendingTransactionStorage where
  pendingTransactions : Finmap fun _ : String => InsertionSet String
  globalTransactionIndex : InsertionSet String

/-- The calls that change the storage. -/
inductive PoolCall where
  | addToList (addr rlpHex : String)
  | removeFromList (address rlpHex : String)
  | removeAll
  deriving DecidableEq

namespace LocalPendingTransactionStorage

def init : LocalPendingTransactionStorage := ⟨∅, ∅⟩

variable (st : LocalPendingTransactionStorage) (addr rlpHex : String)

def getList : ℕ := (st.pendingTransactions.lookup addr).elim 0 InsertionSet.size

/-- The set of an address is created with its first payload. -/
def addToList : LocalPendingTransactionStorage where
  pendingTransactions := st.pendingTransactions.insert addr
    (((st.pendingTransactions.lookup addr).getD ∅).add rlpHex)
  globalTransactionIndex := st.globalTransactionIndex.add rlpHex

/-- The set of an address without `rlpHex`, and no set if that is empty. -/
def withoutPayload (addressTransactions : InsertionSet String) :
    Finmap fun _ : String => InsertionSet String :=
  if (addressTransactions.delete rlpHex).size = 0 then st.pendingTransactions.erase addr
  else st.pendingTransactions.insert addr (addressTransactions.delete rlpHex)

def removeFromList : LocalPendingTransactionStorage where
  pendingTransactions := (st.pendingTransactions.lookup addr).elim st.pendingTransactions
    (st.withoutPayload addr rlpHex)
  globalTransactionIndex := st.globalTransactionIndex.delete rlpHex

def removeAll (_ : LocalPendingTransactionStorage) : LocalPendingTransactionStorage := init

def getAllTransactionPayloads : InsertionSet String := st.globalTransactionIndex

def getTransactionPayloads : InsertionSet String :=
  (st.pendingTransactions.lookup addr).getD ∅

end LocalPendingTransactionStorage

open LocalPendingTransactionStorage

def PoolCall.perform (st : LocalPendingTransactionStorage) :
    PoolCall → LocalPendingTransactionStorage
  | .addToList addr rlpHex => st.addToList addr rlpHex
  | .removeFromList address rlpHex => st.removeFromList address rlpHex
  | .removeAll => st.removeAll

def performAll (calls : List PoolCall) : LocalPendingTransactionStorage :=
  calls.foldl PoolCall.perform init

/-- The payload of a call is used with the address of its sender. -/
def PoolCall.UsesSender (sender : String → String) : PoolCall → Prop
  | .addToList addr rlpHex => sender rlpHex = addr
  | .removeFromList address rlpHex => sender rlpHex = address
  | .removeAll => True

/-- The payload was added for the address and not removed after that. -/
def Outstanding (calls : List PoolCall) (addr rlpHex : String) : Prop :=
  ∃ before after, calls = before ++ .addToList addr rlpHex :: after ∧
    .removeFromList addr rlpHex ∉ after ∧ .removeAll ∉ after

/-- What the storage is after some calls. -/
structure RepresentsPool (calls : List PoolCall) (st : LocalPendingTransactionStorage) : Prop where
  union : ∀ rlpHex, rlpHex ∈ st.getAllTransactionPayloads ↔
    ∃ addr, rlpHex ∈ st.getTransactionPayloads addr
  disjoint : ∀ addr other rlpHex, rlpHex ∈ st.getTransactionPayloads addr →
    rlpHex ∈ st.getTransactionPayloads other → addr = other
  nonempty : ∀ addr payloads, st.pendingTransactions.lookup addr = some payloads →
    payloads.size ≠ 0
  getList : ∀ addr, st.getList addr = Set.ncard {rlpHex | Outstanding calls addr rlpHex}
  frame : ∀ addr other rlpHex, other ≠ addr →
    (st.addToList addr rlpHex).getTransactionPayloads other = st.getTransactionPayloads other ∧
    (st.removeFromList addr rlpHex).getTransactionPayloads other = st.getTransactionPayloads other

section Payloads

variable {st : LocalPendingTransactionStorage} {addr other rlpHex payload : String}

theorem getList_eq_size (st : LocalPendingTransactionStorage) (addr : String) :
    st.getList addr = (st.getTransactionPayloads addr).size := by
  rw [getList, getTransactionPayloads]
  cases st.pendingTransactions.lookup addr with
  | none => rfl
  | some payloads => rfl

private theorem getTransactionPayloads_addToList_self :
    (st.addToList addr rlpHex).getTransactionPayloads addr =
      (st.getTransactionPayloads addr).add rlpHex := by
  simp [getTransactionPayloads, addToList]

private theorem getTransactionPayloads_addToList_of_ne (h : other ≠ addr) :
    (st.addToList addr rlpHex).getTransactionPayloads other =
      st.getTransactionPayloads other := by
  simp [getTransactionPayloads, addToList, Finmap.lookup_insert_of_ne _ h]

private theorem getTransactionPayloads_removeFromList_of_ne (h : other ≠ addr) :
    (st.removeFromList addr rlpHex).getTransactionPayloads other =
      st.getTransactionPayloads other := by
  rw [getTransactionPayloads, getTransactionPayloads, removeFromList]
  cases st.pendingTransactions.lookup addr with
  | none => rfl
  | some payloads =>
    rw [Option.elim_some, withoutPayload]
    split
    · rw [Finmap.lookup_erase_ne h]
    · rw [Finmap.lookup_insert_of_ne _ h]

private theorem mem_removeFromList_self :
    payload ∈ (st.removeFromList addr rlpHex).getTransactionPayloads addr ↔
      payload ≠ rlpHex ∧ payload ∈ st.getTransactionPayloads addr := by
  rw [getTransactionPayloads, getTransactionPayloads, removeFromList]
  cases hlookup : st.pendingTransactions.lookup addr with
  | none => simp [hlookup]
  | some payloads =>
    rw [Option.elim_some, withoutPayload]
    split
    · next hsize =>
      rw [Finmap.lookup_erase]
      simpa using InsertionSet.size_eq_zero_iff.mp hsize payload
    · simp

theorem mem_addToList : payload ∈ (st.addToList addr rlpHex).getTransactionPayloads other ↔
    (other = addr ∧ payload = rlpHex) ∨ payload ∈ st.getTransactionPayloads other := by
  by_cases h : other = addr
  · subst h
    simp [getTransactionPayloads_addToList_self]
  · simp [getTransactionPayloads_addToList_of_ne h, h]

theorem mem_removeFromList :
    payload ∈ (st.removeFromList addr rlpHex).getTransactionPayloads other ↔
      ¬(other = addr ∧ payload = rlpHex) ∧ payload ∈ st.getTransactionPayloads other := by
  by_cases h : other = addr
  · subst h
    simp [mem_removeFromList_self]
  · simp [getTransactionPayloads_removeFromList_of_ne h, h]

theorem mem_index_addToList : payload ∈ (st.addToList addr rlpHex).globalTransactionIndex ↔
    payload = rlpHex ∨ payload ∈ st.globalTransactionIndex := InsertionSet.mem_add

theorem mem_index_removeFromList :
    payload ∈ (st.removeFromList addr rlpHex).globalTransactionIndex ↔
      payload ≠ rlpHex ∧ payload ∈ st.globalTransactionIndex := InsertionSet.mem_delete

theorem notMem_removeAll : payload ∉ st.removeAll.getTransactionPayloads addr :=
  InsertionSet.notMem_empty

end Payloads

section Runs

variable {st : LocalPendingTransactionStorage} {calls : List PoolCall} {call : PoolCall}
variable {addr rlpHex : String}

private theorem outstanding_concat : Outstanding (calls ++ [call]) addr rlpHex ↔
    call = .addToList addr rlpHex ∨ (Outstanding calls addr rlpHex ∧
      call ≠ .removeFromList addr rlpHex ∧ call ≠ .removeAll) := by
  constructor
  · rintro ⟨before, after, hcalls, hremove, hall⟩
    cases after using List.reverseRecOn with
    | nil =>
      obtain ⟨_, hcall⟩ := List.append_inj' hcalls rfl
      exact .inl (List.singleton_inj.mp hcall)
    | append_singleton after last =>
      rw [← List.cons_append, ← List.append_assoc] at hcalls
      obtain ⟨rfl, hcall⟩ := List.append_inj' hcalls rfl
      obtain rfl := List.singleton_inj.mp hcall
      refine .inr ⟨⟨before, after, rfl, ?_, ?_⟩, ?_, ?_⟩
      · exact fun hmem => hremove (List.mem_append_left _ hmem)
      · exact fun hmem => hall (List.mem_append_left _ hmem)
      · rintro rfl
        exact hremove (List.mem_append_right _ (List.mem_singleton_self _))
      · rintro rfl
        exact hall (List.mem_append_right _ (List.mem_singleton_self _))
  · rintro (rfl | ⟨⟨before, after, rfl, hremove, hall⟩, hremove', hall'⟩)
    · exact ⟨calls, [], rfl, List.not_mem_nil, List.not_mem_nil⟩
    · refine ⟨before, after ++ [call], by simp, ?_, ?_⟩
      · simpa using ⟨hremove, hremove'.symm⟩
      · simpa using ⟨hall, hall'.symm⟩

private theorem performAll_concat :
    performAll (calls ++ [call]) = call.perform (performAll calls) := by
  rw [performAll, List.foldl_append]
  rfl

theorem mem_performAll (calls : List PoolCall) (addr rlpHex : String) :
    rlpHex ∈ (performAll calls).getTransactionPayloads addr ↔ Outstanding calls addr rlpHex := by
  induction calls using List.reverseRecOn with
  | nil =>
    apply iff_of_false InsertionSet.notMem_empty
    rintro ⟨before, after, hcalls, _⟩
    exact absurd hcalls (by simp)
  | append_singleton calls call ih =>
    rw [performAll_concat, outstanding_concat, ← ih]
    cases call with
    | addToList a p =>
      rw [PoolCall.perform, mem_addToList]
      simp [eq_comm]
    | removeFromList a p =>
      rw [PoolCall.perform, mem_removeFromList]
      simp [eq_comm, and_comm]
    | removeAll =>
      rw [PoolCall.perform]
      simpa using notMem_removeAll

/-- Sets of addresses are not empty, and the index is their union. -/
structure Indexes (sender : String → String) (st : LocalPendingTransactionStorage) : Prop where
  owned : ∀ addr rlpHex, rlpHex ∈ st.getTransactionPayloads addr → sender rlpHex = addr
  union : ∀ rlpHex, rlpHex ∈ st.globalTransactionIndex ↔
    ∃ addr, rlpHex ∈ st.getTransactionPayloads addr
  nonempty : ∀ addr payloads, st.pendingTransactions.lookup addr = some payloads →
    payloads.size ≠ 0

variable {sender : String → String}

private theorem indexes_init : Indexes sender init where
  owned _ _ h := absurd h InsertionSet.notMem_empty
  union _ := iff_of_false InsertionSet.notMem_empty fun h => InsertionSet.notMem_empty h.choose_spec
  nonempty addr payloads h := by
    rw [init, Finmap.lookup_empty] at h
    cases h

theorem Indexes.addToList (h : Indexes sender st) (hsender : sender rlpHex = addr) :
    Indexes sender (st.addToList addr rlpHex) where
  owned other payload hmem := by
    cases mem_addToList.mp hmem with
    | inl hnew => rw [hnew.1, hnew.2, hsender]
    | inr hold => exact h.owned other payload hold
  union payload := by
    rw [mem_index_addToList, h.union]
    simp [mem_addToList, exists_or]
  nonempty other payloads hlookup := by
    rw [LocalPendingTransactionStorage.addToList] at hlookup
    by_cases hother : other = addr
    · subst hother
      rw [Finmap.lookup_insert] at hlookup
      cases hlookup
      exact fun hsize => InsertionSet.size_eq_zero_iff.mp hsize rlpHex
        (InsertionSet.mem_add.mpr (.inl rfl))
    · rw [Finmap.lookup_insert_of_ne _ hother] at hlookup
      exact h.nonempty other payloads hlookup

theorem Indexes.removeFromList (h : Indexes sender st) (hsender : sender rlpHex = addr) :
    Indexes sender (st.removeFromList addr rlpHex) where
  owned other payload hmem := h.owned other payload (mem_removeFromList.mp hmem).2
  union payload := by
    rw [mem_index_removeFromList, h.union]
    simp only [mem_removeFromList]
    constructor
    · rintro ⟨hne, other, hmem⟩
      exact ⟨other, fun heq => hne heq.2, hmem⟩
    · rintro ⟨other, hne, hmem⟩
      refine ⟨?_, other, hmem⟩
      -- the payload would belong to the address
      rintro rfl
      exact hne ⟨(h.owned other payload hmem).symm.trans hsender, rfl⟩
  nonempty other payloads hlookup := by
    rw [LocalPendingTransactionStorage.removeFromList] at hlookup
    cases hset : st.pendingTransactions.lookup addr with
    | none =>
      rw [hset, Option.elim_none] at hlookup
      exact h.nonempty other payloads hlookup
    | some addressTransactions =>
      rw [hset, Option.elim_some, withoutPayload] at hlookup
      by_cases hother : other = addr
      · subst hother
        split at hlookup
        · rw [Finmap.lookup_erase] at hlookup
          cases hlookup
        · next hsize =>
          rw [Finmap.lookup_insert] at hlookup
          cases hlookup
          exact hsize
      · split at hlookup
        · rw [Finmap.lookup_erase_ne hother] at hlookup
          exact h.nonempty other payloads hlookup
        · rw [Finmap.lookup_insert_of_ne _ hother] at hlookup
          exact h.nonempty other payloads hlookup

theorem Indexes.perform (h : Indexes sender st) (hcall : call.UsesSender sender) :
    Indexes sender (call.perform st) := by
  cases call with
  | addToList addr rlpHex => exact h.addToList hcall
  | removeFromList address rlpHex => exact h.removeFromList hcall
  | removeAll => exact indexes_init

theorem indexes_performAll (hcalls : ∀ call ∈ calls, call.UsesSender sender) :
    Indexes sender (performAll calls) := by
  induction calls using List.reverseRecOn with
  | nil => exact indexes_init
  | append_singleton calls call ih =>
    rw [performAll_concat]
    exact (ih fun c hc => hcalls c (List.mem_append_left _ hc)).perform
      (hcalls call (List.mem_append_right _ (List.mem_singleton_self _)))

/-- Both indexes of the storage say what was added and not removed. -/
theorem local_storage_represents_pool (hcalls : ∀ call ∈ calls, call.UsesSender sender) :
    RepresentsPool calls (performAll calls) where
  union := (indexes_performAll hcalls).union
  disjoint addr other rlpHex haddr hother :=
    ((indexes_performAll hcalls).owned addr rlpHex haddr).symm.trans
      ((indexes_performAll hcalls).owned other rlpHex hother)
  nonempty := (indexes_performAll hcalls).nonempty
  getList addr := by
    rw [getList_eq_size, InsertionSet.size_eq_ncard]
    simp only [mem_performAll]
  frame addr other rlpHex hother := ⟨getTransactionPayloads_addToList_of_ne hother,
    getTransactionPayloads_removeFromList_of_ne hother⟩

def someCalls : List PoolCall :=
  [.addToList "0xa" "0x01", .addToList "0xb" "0x02", .removeFromList "0xa" "0x01"]

def someSender (rlpHex : String) : String := if rlpHex = "0x01" then "0xa" else "0xb"

theorem local_storage_represents_some_calls :
    (∀ call ∈ someCalls, call.UsesSender someSender) ∧
      RepresentsPool someCalls (performAll someCalls) := by
  have hcalls : ∀ call ∈ someCalls, call.UsesSender someSender := by
    simp [someCalls, PoolCall.UsesSender, someSender]
  exact ⟨hcalls, local_storage_represents_pool hcalls⟩

end Runs

end JsonRpcRelay.TransactionPool

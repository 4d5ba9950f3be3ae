import JsonRpcRelay.Common.LogQueries
import JsonRpcRelay.Framework.StableSort

/-!
# Logs of several addresses

A query for a list of addresses asks the mirror node for each of them, and sorts what it gets by
the timestamps alone.
-/

namespace JsonRpcRelay.Common

open constants Mirror Blocks Framework

/-- By the timestamps, and by the log indices within a transaction. -/
abbrev LogPrecedes : MirrorNodeLog → MirrorNodeLog → Prop :=
  Precedes MirrorNodeLog.timestamp MirrorNodeLog.index

/-- The matching logs of all contracts, and a mirror node that lists those of an address in their
order. -/
structure Listing (mirror : MirrorNodeClient (Except RelayError)) (params : LogParams) where
  logs : List MirrorNodeLog
  ordered : logs.Pairwise LogPrecedes
  answers (address : String) :
    mirror.getLogs (some address) params = .ok (logs.filter (emittedAt address))

section Union

variable {mirror : MirrorNodeClient (Except RelayError)} {params : LogParams}
variable (listing : Listing mirror params) (addresses : List String)

def Listing.logsAt (address : String) : List MirrorNodeLog :=
  listing.logs.filter (emittedAt address)

/-- Each log of an address of the list once, in their order. -/
def OrderedUnion : Prop := getLogsByAddress mirror addresses params =
  .ok (listing.logs.filter fun log => addresses.any (emittedAt · log))

def asked : List String := addresses.filter (· ≠ ZERO_ADDRESS_HEX)

/-- No log is only at the zero address, which is not asked for, and of two addresses in turn no
logs of one transaction come back in the wrong order or twice. -/
structure AskedInOrder : Prop where
  zero : ZERO_ADDRESS_HEX ∈ addresses → ∀ log ∈ listing.logsAt ZERO_ADDRESS_HEX,
    ∃ address ∈ asked addresses, emittedAt address log
  ties : (asked addresses).Pairwise fun a b => ∀ log ∈ listing.logsAt a,
    ∀ log' ∈ listing.logsAt b, log.timestamp = log'.timestamp → log.index < log'.index

variable {listing addresses}

theorem mem_logsAt {address : String} {log : MirrorNodeLog} :
    log ∈ listing.logsAt address ↔ log ∈ listing.logs ∧ emittedAt address log := List.mem_filter

theorem flatten_asked (logsAt : String → List MirrorNodeLog) (addresses : List String) :
    (addresses.map fun address =>
      if address = ZERO_ADDRESS_HEX then [] else logsAt address).flatten =
        (asked addresses).flatMap logsAt := by
  induction addresses with
  | nil => rfl
  | cons address addresses ih =>
    rw [List.map_cons, List.flatten_cons, ih]
    split
    · next hzero => simp [hzero, asked]
    · next hother => simp [hother, asked]

private theorem getLogsByAddress_listing (listing : Listing mirror params) :
    getLogsByAddress mirror addresses params =
      .ok (sortByTime MirrorNodeLog.timestamp ((asked addresses).flatMap listing.logsAt)) := by
  have hmap : addresses.mapM (getContractResultsLogsByAddress mirror params) =
      .ok (addresses.map fun address =>
        if address = ZERO_ADDRESS_HEX then [] else listing.logsAt address) := by
    apply mapM_ok
    intro address _
    unfold getContractResultsLogsByAddress
    split
    · rfl
    · exact listing.answers address
  rw [getLogsByAddress, hmap, ← flatten_asked]
  rfl

private theorem mem_sorted {log : MirrorNodeLog} :
    log ∈ sortByTime MirrorNodeLog.timestamp ((asked addresses).flatMap listing.logsAt) ↔
      log ∈ listing.logs ∧ ∃ address ∈ asked addresses, emittedAt address log := by
  simp only [mem_sortByTime, List.mem_flatMap, mem_logsAt]
  constructor
  · rintro ⟨address, haddress, hlog, hat⟩
    exact ⟨hlog, address, haddress, hat⟩
  · rintro ⟨hlog, address, haddress, hat⟩
    exact ⟨address, haddress, hlog, hat⟩

private theorem mem_of_mem_asked {address : String} (h : address ∈ asked addresses) :
    address ∈ addresses := List.mem_of_mem_filter h

private theorem exists_asked (h : AskedInOrder listing addresses) {log : MirrorNodeLog}
    (hlog : log ∈ listing.logs) {address : String} (haddress : address ∈ addresses)
    (hat : emittedAt address log) : ∃ address ∈ asked addresses, emittedAt address log := by
  by_cases hzero : address = ZERO_ADDRESS_HEX
  · subst hzero
    exact h.zero haddress log (mem_logsAt.mpr ⟨hlog, hat⟩)
  · exact ⟨address, List.mem_filter.mpr ⟨haddress, decide_eq_true hzero⟩, hat⟩

private theorem tiesInOrder_logsAt (address : String) : (listing.logsAt address).Pairwise
    (TiesInOrder MirrorNodeLog.timestamp MirrorNodeLog.index) :=
  (listing.ordered.filter _).imp Precedes.tiesInOrder

/-- The logs as they come back are in the right order if and only if equal timestamps are. -/
theorem pairwise_precedes_sorted_iff :
    (sortByTime MirrorNodeLog.timestamp ((asked addresses).flatMap listing.logsAt)).Pairwise
      LogPrecedes ↔ (asked addresses).Pairwise fun a b => ∀ log ∈ listing.logsAt a,
        ∀ log' ∈ listing.logsAt b, log.timestamp = log'.timestamp → log.index < log'.index := by
  rw [pairwise_precedes_sortByTime_iff, List.pairwise_flatMap]
  exact and_iff_right fun address _ => tiesInOrder_logsAt address

private theorem askedInOrder_of_orderedUnion (h : OrderedUnion listing addresses) :
    AskedInOrder listing addresses := by
  have heq := Except.ok.inj ((getLogsByAddress_listing listing).symm.trans h)
  constructor
  · intro hzero log hlog
    have hmem : log ∈ listing.logs.filter fun log => addresses.any (emittedAt · log) :=
      List.mem_filter.mpr ⟨(mem_logsAt.mp hlog).1,
        List.any_eq_true.mpr ⟨_, hzero, (mem_logsAt.mp hlog).2⟩⟩
    rw [← heq] at hmem
    exact (mem_sorted.mp hmem).2
  · apply pairwise_precedes_sorted_iff.mp
    rw [heq]
    exact listing.ordered.filter _

private theorem orderedUnion_of_askedInOrder (h : AskedInOrder listing addresses) :
    OrderedUnion listing addresses := by
  rw [OrderedUnion, getLogsByAddress_listing listing]
  congr 1
  apply eq_of_pairwise_precedes (pairwise_precedes_sorted_iff.mpr h.ties)
    (listing.ordered.filter _)
  intro log
  rw [mem_sorted, List.mem_filter, List.any_eq_true]
  constructor
  · rintro ⟨hlog, address, haddress, hat⟩
    exact ⟨hlog, address, mem_of_mem_asked haddress, hat⟩
  · rintro ⟨hlog, address, haddress, hat⟩
    exact ⟨hlog, exists_asked h hlog haddress hat⟩

/-- The logs of an address list are the ordered union of the logs of the addresses if and only if
the addresses are asked in such an order. -/
theorem ordered_union_iff (listing : Listing mirror params) (addresses : List String) :
    OrderedUnion listing addresses ↔ AskedInOrder listing addresses :=
  ⟨askedInOrder_of_orderedUnion, orderedUnion_of_askedInOrder⟩

end Union

section Example

def contractLog : MirrorNodeLog where
  address := "0xab"
  blockHash := "0x12"
  blockNumber := 7
  data := "0x"
  index := 0
  timestamp := 1
  topics := []
  transactionHash := "0x34"
  transactionIndex := 0

/-- A mirror node with one log. -/
def oneLogMirror : MirrorNodeClient (Except RelayError) where
  getLatestBlock _ := .ok none
  getBlock _ _ := .ok none
  getLogs address _ := .ok ([contractLog].filter fun log => address.all (emittedAt · log))

def oneLog (params : LogParams) : Listing oneLogMirror params where
  logs := [contractLog]
  ordered := List.pairwise_singleton _ _
  answers _ := rfl

theorem repeated_address_repeats_log :
    ¬OrderedUnion (oneLog ⟨0, 1, []⟩) ["0xab", "0xab"] := by
  intro h
  have hlog : contractLog ∈ (oneLog ⟨0, 1, []⟩).logsAt "0xab" := by decide +kernel
  have hties := (askedInOrder_of_orderedUnion h).ties
  have hpair : asked ["0xab", "0xab"] = ["0xab", "0xab"] := by decide +kernel
  rw [hpair] at hties
  exact Nat.lt_irrefl 0 (List.pairwise_pair.mp hties contractLog hlog contractLog hlog rfl)

end Example

end JsonRpcRelay.Common

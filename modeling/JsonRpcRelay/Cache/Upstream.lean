import JsonRpcRelay.Account.AccountService
import JsonRpcRelay.Blocks.TransactionService
import JsonRpcRelay.Contract.ContractService
import JsonRpcRelay.Debug.BlockTraces
import JsonRpcRelay.Fees.FeeService
import JsonRpcRelay.Framework.Tracked

/-!
# The requests behind the cache

What the requests of a call are answered with.  A lookup of an entity makes several requests, of
which those that fail count as not answered.
-/

namespace JsonRpcRelay.Cache

open constants Mirror Common Contract Account Fees Blocks Debug Framework Tracked

section Entities

/-- What is answered to one lookup of an entity: the entry that the cache of entities has, and what
the requests are answered if they are made. -/
structure LookupReplies (Entity : Type) where
  cachedResponse : Option (ResolvedEntity Entity)
  getContract : Except RelayError (Option Entity)
  getAccount : Except RelayError (Option Entity)
  getTokenById : Except RelayError (Option Entity)
  exclusive : orNull getAccount = none ∨ orNull getTokenById = none

namespace LookupReplies

variable {Entity : Type} (replies : LookupReplies Entity) (types : List EntityType)

def mirror : MirrorNode Entity where
  getContract _ _ := orNull replies.getContract
  getAccount _ _ := orNull replies.getAccount
  getTokenById _ := orNull replies.getTokenById
  exclusive _ _ := replies.exclusive

def found : Option (ResolvedEntity Entity) :=
  (Mirror.resolveEntityType replies.mirror (fun _ => replies.cachedResponse) ⟨"", types, none⟩).1

/-- The request for an entity of this type. -/
def answer : EntityType → Except RelayError (Option Entity)
  | .contract => replies.getContract
  | .account => replies.getAccount
  | .token => replies.getTokenById

/-- No entity is found, and one of the requests for it has failed. -/
def isMissed : Bool :=
  (replies.found types).isNone && types.any fun type => !(replies.answer type).isOk

/-- A request that fails counts as no answer. -/
def resolveEntityType : Tracked RelayError (Option (ResolvedEntity Entity)) :=
  ⟨.ok (replies.found types), replies.isMissed types⟩

end LookupReplies

/-- What the handlers read of an entity. -/
structure EntityRecord where
  evmAddress : Option String
  createdTimestamp : Option Timestamp
  runtimeBytecode : String

/-- The address of an entity, or the one by which it was looked up. -/
def addressOf (address : String) : Option (ResolvedEntity EntityRecord) → String
  | some ⟨.contract, entity⟩ | some ⟨.account, entity⟩ =>
      (entity.evmAddress.filter (· ≠ "")).getD address
  | _ => address

end Entities

section Requests

/-- The lookup of an entity is told by the transaction that is traced and its number in the call,
so that the answers may change from one lookup to the next, and so may the cache of entities. -/
abbrev Lookups := String → ℕ → String → LookupReplies EntityRecord

/-- The requests for contract results, logs, and the fees as of a second. -/
structure ViewClient (m : Type → Type) where
  getContractResult : String → m (Option ContractResultDetails)
  getContractResults : ContractResultsParams → m (List MirrorNodeContractResult)
  getContractResultsLogs : LogsParams → m (List MirrorNodeLog)
  getNetworkFees : ℕ → m (Option (Option (List NetworkFee)))

/-- A prestate trace that the cache has, and whether it was made in spite of a failed request. -/
structure KeptTrace where
  result : EntityTraceStateMap
  missed : Bool

/-- What the requests of a call are answered with.  What is asked for a trace is told by the
transaction; addresses are looked up by `lookups` only. -/
structure Upstream where
  mirror : MirrorNodeClient (Except RelayError)
  fees : FeeClient (Except RelayError)
  account : AccountClient (Except RelayError)
  contract : ContractClient (Except RelayError)
  lookups : Lookups
  views : ViewClient (Except RelayError)
  traces : String → DebugServices
  timing : String → Timing
  keptTraces : TraceCall → Option KeptTrace
  blocks : BlockTraceServices

def trackedMirror (client : MirrorNodeClient (Except RelayError)) :
    MirrorNodeClient (Tracked RelayError) where
  getLatestBlock lookup := request (client.getLatestBlock lookup)
  getBlock lookup id := request (client.getBlock lookup id)
  getLogs address params := request (client.getLogs address params)

def trackedFees (client : FeeClient (Except RelayError)) : FeeClient (Tracked RelayError) where
  getNetworkFees timestamp := request (client.getNetworkFees timestamp)

def trackedAccount (client : AccountClient (Except RelayError)) :
    AccountClient (Tracked RelayError) where
  getAccount id := request (client.getAccount id)
  getAccountWithTransactions id := request (client.getAccountWithTransactions id)
  getAccountPaginated url := request (client.getAccountPaginated url)
  getBalanceAtTimestamp id timestamp := request (client.getBalanceAtTimestamp id timestamp)
  getAccountLatestEthereumTransactionsByTimestamp id timestamp n :=
    request (client.getAccountLatestEthereumTransactionsByTimestamp id timestamp n)
  getContractResult id := request (client.getContractResult id)
  getEarliestBlock := request client.getEarliestBlock
  getPendingCount id := request (client.getPendingCount id)
  getCachedBlockNumber := request client.getCachedBlockNumber
  setCachedBlockNumber number := request (client.setCachedBlockNumber number)

def trackedViews (client : ViewClient (Except RelayError)) : ViewClient (Tracked RelayError) where
  getContractResult id := request (client.getContractResult id)
  getContractResults params := request (client.getContractResults params)
  getContractResultsLogs params := request (client.getContractResultsLogs params)
  getNetworkFees second := request (client.getNetworkFees second)

def codeEntity (found : ResolvedEntity EntityRecord) : CodeEntity :=
  ⟨found.type, found.entity.createdTimestamp, found.entity.runtimeBytecode⟩

/-- The error of a call is part of its answer. -/
def trackedContract (client : ContractClient (Except RelayError)) (lookups : Lookups) :
    ContractClient (Tracked RelayError) where
  postContractCall data := request (client.postContractCall data) >>= inspected
  getEvmAddress id := request (client.getEvmAddress id)
  resolveEntityType address types := do
    return (← (lookups "" 0 address).resolveEntityType types).map codeEntity
  getContractStateByAddressAndSlot address slot timestamp :=
    request (client.getContractStateByAddressAndSlot address slot timestamp)

end Requests

section Parties

variable (lookups : Lookups) (transaction : String) (i : ℕ) (types : List EntityType)

def resolveEvmAddress (address : String) : Tracked RelayError String :=
  if address = "" then return address
  else do return addressOf address (← (lookups transaction i address).resolveEntityType types)

def resolvedAddress (address : String) : String :=
  if address = "" then address
  else addressOf address ((lookups transaction i address).found types)

/-- The address is left as it is because of a failed request. -/
def isUnresolved (address : String) : Bool :=
  address ≠ "" && (lookups transaction i address).isMissed types

private theorem ends_resolveEvmAddress (address : String) :
    Ends (resolveEvmAddress lookups transaction i types address)
      (.ok (resolvedAddress lookups transaction i types address))
      (isUnresolved lookups transaction i types address = true) := by
  unfold resolveEvmAddress resolvedAddress isUnresolved
  by_cases hempty : address = ""
  · simp only [hempty, if_true]
    exact (tracks_pure "").ends.congr fun _ _ => by simp
  · rw [if_neg hempty, if_neg hempty]
    refine ⟨rfl, fun a _ => ?_⟩
    rw [bind_of_ok rfl, pure_eq, Bool.or_false]
    simp [hempty, LookupReplies.resolveEntityType]

/-- An address that may be missing. -/
def resolveAddress : Option String → Tracked RelayError (Option String)
  | none => return none
  | some address => do return some (← resolveEvmAddress lookups transaction i types address)

private theorem ends_resolveAddress (address : Option String) :
    Ends (resolveAddress lookups transaction i types address)
      (.ok (address.map (resolvedAddress lookups transaction i types)))
      (address.any (isUnresolved lookups transaction i types) = true) := by
  cases address with
  | none => exact (tracks_pure none).ends.congr fun _ _ => by simp
  | some address =>
    exact ((ends_resolveEvmAddress lookups transaction i types address).bind fun _ _ =>
      (tracks_pure _).ends).congr fun _ _ => by simp

/-- The sender and the recipient of a transaction, of a call or of a log. -/
structure Parties where
  fromAddress : Option String
  toAddress : Option String

variable (fromTypes : List EntityType)

/-- The lookups `2 * i` and `2 * i + 1`. -/
def resolveParties (parties : Parties) : Tracked RelayError Parties := do
  let fromAddress ← resolveAddress lookups transaction (2 * i) fromTypes parties.fromAddress
  let toAddress ← resolveAddress lookups transaction (2 * i + 1) allTypes parties.toAddress
  return ⟨fromAddress, toAddress⟩

def resolvedParties (parties : Parties) : Parties where
  fromAddress := parties.fromAddress.map (resolvedAddress lookups transaction (2 * i) fromTypes)
  toAddress := parties.toAddress.map (resolvedAddress lookups transaction (2 * i + 1) allTypes)

/-- One of the addresses is left as it is because of a failed request. -/
def areUnresolved (parties : Parties) : Bool :=
  parties.fromAddress.any (isUnresolved lookups transaction (2 * i) fromTypes) ||
    parties.toAddress.any (isUnresolved lookups transaction (2 * i + 1) allTypes)

theorem ends_resolveParties (parties : Parties) :
    Ends (resolveParties lookups transaction i fromTypes parties)
      (.ok (resolvedParties lookups transaction i fromTypes parties))
      (areUnresolved lookups transaction i fromTypes parties = true) := by
  have hends := (ends_resolveAddress lookups transaction (2 * i) fromTypes
    parties.fromAddress).bind fun fromAddress _ =>
      (ends_resolveAddress lookups transaction (2 * i + 1) allTypes parties.toAddress).bind
        fun toAddress _ => (tracks_pure (Parties.mk fromAddress toAddress)).ends
  exact hends.congr fun _ _ => by simp [areUnresolved]

end Parties

end JsonRpcRelay.Cache

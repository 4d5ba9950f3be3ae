import JsonRpcRelay.Blocks.Receipts
import JsonRpcRelay.Common.CommonService

/-!
# Transactions and receipts by hash and by index

The lookups of the transaction service, with the requests to the mirror node that they and the
block worker make.  A request for one contract result also returns its logs.
-/

namespace JsonRpcRelay.Blocks

open constants Js Mirror Common

section Client

/-- A log inside a contract result. -/
structure ContractResultLog where
  address : String
  data : String
  index : ℕ
  topics : List String
  deriving DecidableEq

/-- The answer of the single-record endpoint. -/
structure ContractResultDetails extends MirrorNodeContractResult where
  timestamp : Timestamp
  logs : List ContractResultLog

structure ContractResultsParams where
  blockHash : Option String := none
  blockNumber : Option ℕ := none
  timestamp : Option (Timestamp × Timestamp) := none
  transactionIndex : Option ℕ := none
  deriving DecidableEq

/-- The parameters of a request for logs of all contracts. -/
inductive LogsParams where
  | transactionHash (hash : String)
  | timestamp (timestampFrom timestampTo : Timestamp)
  deriving DecidableEq

/-- The answers of the mirror node to the lookups, which stay the same during a call. -/
structure LookupClient where
  getContractResult : String → Option ContractResultDetails
  getContractResults : ContractResultsParams → List MirrorNodeContractResult
  getContractResultsLogs : LogsParams → List MirrorNodeLog
  getBlock : String → Option MirrorNodeBlock
  getLatestBlockNumber : Except RelayError String
  /-- The gas price for an empty timestamp, which is not sent. -/
  getLatestGasPriceInWeibars : Except RelayError ℕ

variable (client : LookupClient)

/-- The contract results in the range of a block. -/
def LookupClient.contractResultsOf (block : MirrorNodeBlock) : List MirrorNodeContractResult :=
  client.getContractResults { timestamp := some (block.timestampFrom, block.timestampTo) }

/-- The logs in the range of a block. -/
def LookupClient.logsOf (block : MirrorNodeBlock) : List MirrorNodeLog :=
  client.getContractResultsLogs (.timestamp block.timestampFrom block.timestampTo)

/-- `getLogsWithParams` without an address. -/
def getLogsWithParams (params : LogsParams) : List Log :=
  (client.getContractResultsLogs params).map Log.ofRecord

end Client

variable (config : BlockConfig) (services : BlockServices) (client : LookupClient)

section Lookups

/-- The transaction of a log, of the type that the caller asks for. -/
def createTransactionFromLog (chainId : String) (log : Log) (type : ℕ := 2) : Option Transaction :=
  createTransactionByType (some type)
    { blockHash := log.blockHash
      blockNumber := some log.blockNumber
      chainId := some chainId
      fromAddress := log.address
      gas := numberTo0x TX_DEFAULT_GAS_DEFAULT
      gasPrice := INVALID_EVM_INSTRUCTION
      hash := log.transactionHash
      input := ZERO_HEX_8_BYTE
      nonce := nanOrNumberTo0x (some 0)
      r := EMPTY_HEX
      s := EMPTY_HEX
      toAddress := some log.address
      transactionIndex := some log.transactionIndex
      type := numberTo0x type
      v := ZERO_HEX
      value := ZERO_HEX }
    (some ZERO_HEX) (some ZERO_HEX)

/-- `contractResult.chain_id || this.chain`. -/
def chainIdOrDefault (chainId : Option String) : Option String :=
  match chainId with
  | none => some config.chain
  | some chainId => some (if chainId = "" then config.chain else chainId)

def getTransactionByHash (hash : String) : Except RelayError (Option Transaction) :=
  match client.getContractResult hash with
  | none =>
      match getLogsWithParams client (.transactionHash hash) with
      | [] => .ok none
      | log :: _ => .ok (createTransactionFromLog config.chain log 0)
  | some contractResult =>
      createTransactionFromContractResult
        { contractResult.toMirrorNodeContractResult with
          fromAddress := services.resolveEvmAddress contractResult.fromAddress [.account]
          toAddress :=
            if createsContract contractResult.toMirrorNodeContractResult then none
            else contractResult.toAddress.map fun address =>
              services.resolveEvmAddress address allTypes
          chainId := chainIdOrDefault config contractResult.chainId }

/-- The chain of the relay plays no part here. -/
def getTransactionByBlockHashOrBlockNumAndIndex (params : ContractResultsParams)
    (transactionIndex : String) : Except RelayError (Option Transaction) :=
  let params := { params with transactionIndex := some (bigIntOfHex transactionIndex) }
  match client.getContractResults params with
  | [] => .ok none
  | contractResult :: _ =>
      createTransactionFromContractResult
        { contractResult with
          fromAddress := services.resolveEvmAddress contractResult.fromAddress [.account]
          toAddress := contractResult.toAddress.map fun address =>
            services.resolveEvmAddress address allTypes }

def getTransactionByBlockHashAndIndex (blockHash transactionIndex : String) :
    Except RelayError (Option Transaction) :=
  (getTransactionByBlockHashOrBlockNumAndIndex services client { blockHash := some blockHash }
    transactionIndex).mapError genericErrorHandler

def translateBlockTag : Option BlockParam → Except RelayError ℕ
  | some .earliest => .ok 0
  | some (.hex text) | some (.hash text) => .ok (bigIntOfHex text)
  | some (.number n) => .ok n
  | _ => client.getLatestBlockNumber.map bigIntOfHex

def getTransactionByBlockNumberAndIndex (blockNumOrTag : Option BlockParam)
    (transactionIndex : String) : Except RelayError (Option Transaction) := do
  let blockNum ← translateBlockTag client blockNumOrTag
  (getTransactionByBlockHashOrBlockNumAndIndex services client { blockNumber := some blockNum }
    transactionIndex).mapError genericErrorHandler

end Lookups

section Receipts

def getCurrentGasPriceForBlock (blockHash : String) : Except RelayError String := do
  let gasPriceForTimestamp ← match client.getBlock blockHash with
    | some block => services.getGasPriceInWeibars block.timestampFrom.seconds
    | none => client.getLatestGasPriceInWeibars
  return numberTo0x gasPriceForTimestamp

/-- What the relay makes of a log inside a contract result. -/
def ContractResultDetails.logOf (receiptResponse : ContractResultDetails)
    (log : ContractResultLog) : Log where
  address := log.address
  blockHash := toHash32 receiptResponse.blockHash
  blockNumber := numberTo0x receiptResponse.blockNumber
  blockTimestamp := numberTo0x receiptResponse.timestamp.seconds
  data := log.data
  logIndex := numberTo0x log.index
  removed := false
  topics := log.topics
  transactionHash := toHash32 receiptResponse.hash
  transactionIndex := numberTo0x receiptResponse.transactionIndex

def handleRegularTransactionReceipt (receiptResponse : ContractResultDetails) :
    Except RelayError TransactionReceipt := do
  let effectiveGas ← getCurrentGasPriceForBlock services client receiptResponse.blockHash
  return createRegularReceipt
    { effectiveGas
      fromAddress := services.resolveEvmAddress receiptResponse.fromAddress allTypes
      logs := receiptResponse.logs.map receiptResponse.logOf
      receiptResponse := receiptResponse.toMirrorNodeContractResult
      toAddress := receiptResponse.toAddress.map fun address =>
        services.resolveEvmAddress address allTypes }

def handleSyntheticTransactionReceipt (hash : String) :
    Except RelayError (Option TransactionReceipt) :=
  match getLogsWithParams client (.transactionHash hash) with
  | [] => .ok none
  | log :: logs => do
      let gasPriceForTimestamp ← getCurrentGasPriceForBlock services client log.blockHash
      let receipt ← createSyntheticReceipt services.buildLogsBloom (log :: logs)
        gasPriceForTimestamp
      return some receipt

def getTransactionReceipt (hash : String) : Except RelayError (Option TransactionReceipt) :=
  match client.getContractResult hash with
  | none => handleSyntheticTransactionReceipt services client hash
  | some receiptResponse => (handleRegularTransactionReceipt services client receiptResponse).map some

end Receipts

section Served

/-- The log endpoint lists a log inside a contract result as this record. -/
def ContractResultDetails.logRecord (receiptResponse : ContractResultDetails)
    (log : ContractResultLog) : MirrorNodeLog where
  address := log.address
  blockHash := receiptResponse.blockHash
  blockNumber := receiptResponse.blockNumber
  data := log.data
  index := log.index
  timestamp := receiptResponse.timestamp
  topics := log.topics
  transactionHash := receiptResponse.hash
  transactionIndex := receiptResponse.transactionIndex

/-- The endpoints of the mirror node agree on a block: it is found by its hash, also if only 32
bytes of it are given, and its contract results and logs are the same wherever they are asked
for. -/
structure Serves (block : MirrorNodeBlock) : Prop where
  blockByHash : client.getBlock block.hash = some block
  blockByHash32 : client.getBlock (toHash32 block.hash) = some block
  single : ∀ cr ∈ client.contractResultsOf block, ∃ details : ContractResultDetails,
    client.getContractResult (toHash32 cr.hash) = some details ∧
      details.toMirrorNodeContractResult = cr
  atIndexOfHash : ∀ cr ∈ client.contractResultsOf block, ∀ blockHash,
    client.getBlock blockHash = some block → (client.getContractResults
      { blockHash := some blockHash, transactionIndex := some cr.transactionIndex }).head? = some cr
  atIndexOfNumber : ∀ cr ∈ client.contractResultsOf block, (client.getContractResults
    { blockNumber := some block.number,
      transactionIndex := some cr.transactionIndex }).head? = some cr
  onlyInLogs : ∀ record ∈ client.logsOf block,
    (∀ cr ∈ client.contractResultsOf block, toHash32 cr.hash ≠ toHash32 record.transactionHash) →
      client.getContractResult (toHash32 record.transactionHash) = none
  logsByHash : ∀ record ∈ client.logsOf block,
    client.getContractResultsLogs (.transactionHash (toHash32 record.transactionHash)) =
      (client.logsOf block).filter fun r =>
        toHash32 r.transactionHash = toHash32 record.transactionHash

/-- The contract call with one log. -/
def exampleDetails : ContractResultDetails :=
  { exampleResult with
    timestamp := 1700000001 * 10 ^ 9
    logs := [{ address := "0xa3", data := "0x", index := 2, topics := ["0xd1"] }] }

/-- A block with a transfer and a contract call. -/
def exampleClient : LookupClient :=
  let records := exampleTransfer ++ exampleDetails.logs.map exampleDetails.logRecord
  { getContractResult := fun hash =>
      if hash = exampleDetails.hash then some exampleDetails else none
    getContractResults := fun params =>
      [exampleResult].filter fun cr => ∀ index ∈ params.transactionIndex, index = cr.transactionIndex
    getContractResultsLogs := fun params => match params with
      | .transactionHash hash => records.filter fun r => toHash32 r.transactionHash = hash
      | .timestamp _ _ => records
    getBlock := fun hash => if hash = "0xb1" then some exampleBlock else none
    getLatestBlockNumber := .ok "0x7"
    getLatestGasPriceInWeibars := .ok 1 }

theorem serves_exampleClient : Serves exampleClient exampleBlock where
  blockByHash := rfl
  blockByHash32 := by decide
  single := by
    intro cr hcr
    obtain rfl : cr = exampleResult := List.mem_singleton.mp hcr
    exact ⟨exampleDetails, rfl, rfl⟩
  atIndexOfHash := by
    intro cr hcr blockHash _
    obtain rfl : cr = exampleResult := List.mem_singleton.mp hcr
    rfl
  atIndexOfNumber := by
    intro cr hcr
    obtain rfl : cr = exampleResult := List.mem_singleton.mp hcr
    rfl
  onlyInLogs := by decide +kernel
  logsByHash := by
    intro record _
    rfl

end Served

end JsonRpcRelay.Blocks

import JsonRpcRelay.Blocks.Model
import JsonRpcRelay.Framework.Grouping

/-!
# The block worker

`getBlock` and `getBlockReceipts` for a block, its contract results and its logs as the mirror
node lists them.  What the other services answer during a call is given by `BlockServices`.
-/

namespace JsonRpcRelay.Blocks

open constants Js Mirror Framework

structure BlockConfig where
  hederaSpecificRevertStatuses : List String
  ethGetTransactionCountMaxBlockRange : ℕ
  chain : String

/-- The input of the root hash for one transaction. -/
structure ReceiptRootHash where
  transactionIndex : Option String
  type : Option String
  root : Option String
  status : String
  cumulativeGasUsed : String
  logsBloom : String
  /-- Address, data and topics of each log. -/
  logs : List (String × String × List String)
  deriving DecidableEq

/-- What the services answer during one call.  An address that is not resolved is returned as
it is, the fees may fail, and `trieRoot` is the root of the trie over the encoded receipts. -/
structure BlockServices where
  resolveEvmAddress : String → List EntityType → String
  gasPrice : Except RelayError String
  getGasPriceInWeibars : ℕ → Except RelayError ℕ
  trieRoot : List ReceiptRootHash → Except RelayError String
  buildLogsBloom : String → List String → String

variable (config : BlockConfig) (services : BlockServices)

def isRevertedDueToHederaSpecificValidation (contractResult : MirrorNodeContractResult) : Bool :=
  contractResult.result ∈ config.hederaSpecificRevertStatuses ∨
    hexToASCII (strip0x (contractResult.errorMessage.getD "")) ∈
      config.hederaSpecificRevertStatuses

section GetBlock

/-- The contract result as `prepareTransactionArray` leaves it. -/
def resolveParties (contractResult : MirrorNodeContractResult) : MirrorNodeContractResult :=
  { contractResult with
    fromAddress := services.resolveEvmAddress contractResult.fromAddress [.account]
    toAddress := contractResult.toAddress.map fun address =>
      services.resolveEvmAddress address allTypes
    chainId := match contractResult.chainId with
      | none => some config.chain
      | some chainId => some (if chainId = "" then config.chain else chainId) }

/-- The contract results that are not skipped. -/
def regularResults (contractResults : List MirrorNodeContractResult) :
    List MirrorNodeContractResult :=
  contractResults.filter fun cr => ¬isRevertedDueToHederaSpecificValidation config cr

/-- `prepareTransactionArray` with `showDetails` unset. -/
def prepareTransactionHashes (contractResults : List MirrorNodeContractResult) : List String :=
  (regularResults config contractResults).map (·.hash)

/-- `prepareTransactionArray` with `showDetails` set. -/
def prepareTransactionObjects (contractResults : List MirrorNodeContractResult) :
    Except RelayError (List (Option Transaction)) :=
  (regularResults config contractResults).mapM fun cr =>
    createTransactionFromContractResult (resolveParties config services cr)

/-- `transaction.hash`. -/
def hashOf : Option Transaction → Except RelayError String
  | some transaction => .ok transaction.hash
  | none => .error (typeError "null" "hash")

/-- `transactionsArray.some((transaction) => transaction.hash === hash)`. -/
def listsHash (transactionsArray : List (Option Transaction)) (hash : String) :
    Except RelayError Bool :=
  transactionsArray.anyM fun transaction => do return (← hashOf transaction) = hash

/-- `populateSyntheticTransactions` with `showDetails` unset. -/
def populateSyntheticHashes (logs : List Log) (transactionsArray : List String) : List String :=
  let filteredLogs := logs.filter fun log => log.transactionHash ∉ transactionsArray
  (transactionsArray ++ filteredLogs.map (·.transactionHash)).eraseDups

/-- `populateSyntheticTransactions` with `showDetails` set. -/
def populateSyntheticObjects (logs : List Log) (transactionsArray : List (Option Transaction)) :
    Except RelayError (List (Option Transaction)) := do
  let filteredLogs ← logs.filterM fun log => do
    return !(← listsHash transactionsArray log.transactionHash)
  let syntheticTransactions := filteredLogs.filterMap fun log =>
    (createSyntheticTransaction config.chain log).map some
  return (transactionsArray ++ syntheticTransactions).eraseDups

/-- The transactions of a block, in one of the two views. -/
def transactionArray (showDetails : Bool) (contractResults : List MirrorNodeContractResult)
    (logs : List Log) : Except RelayError BlockTransactions :=
  if showDetails then do
    let txArray ← prepareTransactionObjects config services contractResults
    return .objects (← populateSyntheticObjects config logs txArray)
  else
    return .hashes (populateSyntheticHashes logs (prepareTransactionHashes config contractResults))

/-- `txArray.map((tx) => showDetails ? tx.hash : tx)`. -/
def BlockTransactions.hashList : BlockTransactions → Except RelayError (List String)
  | .hashes transactions => .ok transactions
  | .objects transactions => transactions.mapM hashOf

def buildReceiptRootHash (contractResults : List MirrorNodeContractResult) (logs : List Log)
    (txHash : String) : Except RelayError ReceiptRootHash := do
  let logsPerTx := logs.filter fun log => log.transactionHash = txHash
  let crPerTx := contractResults.filter fun cr => cr.hash = txHash
  let logsBloom ← match crPerTx, logs, logsPerTx with
    | cr :: _, _, _ => .ok cr.bloom
    | [], [], _ => .error (typeError "undefined" "address")
    | [], _ :: _, [] => .error (typeError "undefined" "topics")
    | [], log :: _, logPerTx :: _ => .ok (services.buildLogsBloom log.address logPerTx.topics)
  let logFields := logsPerTx.map fun log => (log.address, log.data, log.topics)
  return match crPerTx.head? with
    | some cr =>
        { transactionIndex := some (numberTo0x cr.transactionIndex)
          type := match cr.type with
            | none | some 0 => none
            | some type => some (numberTo0x type)
          root := cr.root
          status := cr.status
          cumulativeGasUsed := if cr.blockGasUsed = 0 then ZERO_HEX else numberTo0x cr.blockGasUsed
          logsBloom
          logs := logFields }
    | none =>
        { transactionIndex := logsPerTx.head?.map (·.transactionIndex)
          type := none
          root := some ZERO_HEX_32_BYTE
          status := ONE_HEX
          cumulativeGasUsed := ZERO_HEX
          logsBloom
          logs := logFields }

def buildReceiptRootHashes (txHashes : List String)
    (contractResults : List MirrorNodeContractResult) (logs : List Log) :
    Except RelayError (List ReceiptRootHash) :=
  txHashes.mapM (buildReceiptRootHash services contractResults logs)

def getRootHash (receipts : List ReceiptRootHash) : Except RelayError String :=
  if receipts = [] then .ok ZERO_HEX_32_BYTE else services.trieRoot receipts

/-- The list of contract results is paginated, so it is never `null`. -/
def getBlock (showDetails : Bool) (blockResponse : Option MirrorNodeBlock)
    (contractResults : List MirrorNodeContractResult) (records : List MirrorNodeLog) :
    Except RelayError (Option Block) := do
  let some blockResponse := blockResponse | return none
  let logs := records.map Log.ofRecord
  if showDetails ∧ contractResults.length ≥ config.ethGetTransactionCountMaxBlockRange then
    throw (.jsonRpcError (predefined.MAX_BLOCK_SIZE blockResponse.count))
  let txArray ← transactionArray config services showDetails contractResults logs
  let receipts ← buildReceiptRootHashes services (← txArray.hashList) contractResults logs
  let receiptsRoot ← getRootHash services receipts
  let gasPrice ← services.gasPrice
  return some (createBlock blockResponse txArray gasPrice receiptsRoot)

end GetBlock

section GetBlockReceipts

/-- The receipt of a contract result that is not skipped. -/
def regularReceipt (effectiveGas : String) (logsByHash : InsertionMap String (List Log))
    (contractResult : MirrorNodeContractResult) : TransactionReceipt :=
  createRegularReceipt
    { effectiveGas
      fromAddress := services.resolveEvmAddress contractResult.fromAddress allTypes
      logs := (logsByHash.get? contractResult.hash).getD []
      receiptResponse := contractResult
      toAddress := contractResult.toAddress.map fun address =>
        services.resolveEvmAddress address allTypes }

def getBlockReceipts (block : Option MirrorNodeBlock)
    (contractResults : List MirrorNodeContractResult) (records : List MirrorNodeLog) :
    Except RelayError (Option (List TransactionReceipt)) := do
  let some block := block | return none
  let logs := records.map Log.ofRecord
  if contractResults = [] ∧ logs = [] then return some []
  let gasPriceForTimestamp ← services.getGasPriceInWeibars block.timestampFrom.seconds
  let effectiveGas := numberTo0x gasPriceForTimestamp
  let logsByHash := groupBy (·.transactionHash) logs
  let receipts := (regularResults config contractResults).map
    (regularReceipt services effectiveGas logsByHash)
  let regularTxHashes := contractResults.map (·.hash)
  let syntheticGroups := logsByHash.entries.filter fun entry => entry.1 ∉ regularTxHashes
  let syntheticReceipts ← syntheticGroups.mapM fun entry =>
    createSyntheticReceipt services.buildLogsBloom entry.2 effectiveGas
  return some (receipts ++ syntheticReceipts)

end GetBlockReceipts

end JsonRpcRelay.Blocks

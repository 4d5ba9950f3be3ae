import JsonRpcRelay.Formatters
import JsonRpcRelay.Mirror.Records

/-!
# Logs, transactions, receipts and blocks

The objects the relay answers with, and how the factories make them from the records of the
mirror node.
-/

namespace JsonRpcRelay.Blocks

open constants Js Mirror

section Log

structure Log where
  address : String
  blockHash : String
  blockNumber : String
  blockTimestamp : String
  data : String
  logIndex : String
  removed : Bool
  topics : List String
  transactionHash : String
  transactionIndex : String
  deriving DecidableEq, Inhabited

/-- The log that `getLogsWithParams` makes of a record. -/
def Log.ofRecord (log : MirrorNodeLog) : Log where
  address := log.address
  blockTimestamp := numberTo0x log.timestamp.seconds
  blockHash := toHash32 log.blockHash
  blockNumber := numberTo0x log.blockNumber
  data := log.data
  logIndex := numberTo0x log.index
  removed := false
  topics := log.topics
  transactionHash := toHash32 log.transactionHash
  transactionIndex := numberTo0x log.transactionIndex

end Log

section Transaction

structure AccessListEntry where
  address : String
  storageKeys : List String
  deriving DecidableEq

/-- What the classes `Transaction2930` and `Transaction1559` add to `Transaction`. -/
inductive TransactionClass where
  | transaction
  | transaction2930 (accessList : List AccessListEntry) (yParity : String)
  | transaction1559 (accessList : List AccessListEntry) (yParity : String)
      (maxPriorityFeePerGas maxFeePerGas : String)
  deriving DecidableEq

structure Transaction where
  blockHash : String
  blockNumber : Option String
  /-- Left out where the mirror node gives an empty hex string. -/
  chainId : Option String
  fromAddress : String
  gas : String
  gasPrice : String
  hash : String
  input : String
  nonce : String
  r : String
  s : String
  toAddress : Option String
  transactionIndex : Option String
  type : String
  v : String
  value : String
  extra : TransactionClass := .transaction
  deriving DecidableEq

/-- A fee of a transaction of type 2. -/
private def feeField (fee : Option String) : String :=
  match fee with
  | none => ZERO_HEX
  | some f => if f = EMPTY_HEX then ZERO_HEX else prepend0x ((trimPrecedingZeros f).getD "0")

/-- There is no transaction of another type. -/
def createTransactionByType (type : Option ℕ) (fields : Transaction)
    (maxPriorityFeePerGas maxFeePerGas : Option String) : Option Transaction :=
  match type with
  | some 0 => some fields
  | some 1 => some { fields with extra := .transaction2930 [] fields.v }
  | some 2 => some { fields with
      extra := .transaction1559 [] fields.v (feeField maxPriorityFeePerGas)
        (feeField maxFeePerGas) }
  | none => some fields
  | some _ => none

def createTransactionFromContractResult (cr : MirrorNodeContractResult) :
    Except RelayError (Option Transaction) := do
  let gasPrice := match cr.gasPrice with
    | none => "0x0"
    | some p =>
        if p = "0x" then "0x0"
        else if isHex p then numberTo0x (bigIntOfHex p * TINYBAR_TO_WEIBAR_COEF : ℕ)
        else EMPTY_HEX ++ p
  let value ← tinybarsToWeibars cr.amount true
  return createTransactionByType cr.type
    { blockHash := toHash32 cr.blockHash
      blockNumber := some (numberTo0x cr.blockNumber)
      fromAddress := substring cr.fromAddress 0 42
      gas := nanOrNumberTo0x (cr.gasLimit.map (↑))
      gasPrice
      hash := substring cr.hash 0 66
      input := cr.functionParameters
      nonce := nanOrNumberTo0x (cr.nonce.map (↑))
      r := match cr.r with
        | none => "0x0"
        | some r => stripLeadingZeroForSignatures (substring r 0 66)
      s := match cr.s with
        | none => "0x0"
        | some s => stripLeadingZeroForSignatures (substring s 0 66)
      toAddress := cr.toAddress.map fun address => substring address 0 42
      transactionIndex := some (numberTo0x cr.transactionIndex)
      type := match cr.type with
        | none => "0x0"
        | some type => numberTo0x type
      v := match cr.v with
        | none => "0x0"
        | some v => numberTo0x v
      value := nanOrNumberInt64To0x value
      chainId := if cr.chainId = some EMPTY_HEX then none else cr.chainId }
    cr.maxPriorityFeePerGas cr.maxFeePerGas

/-- The transaction `populateSyntheticTransactions` makes of a log. -/
def createSyntheticTransaction (chain : String) (log : Log) : Option Transaction :=
  createTransactionByType (some 0)
    { blockHash := log.blockHash
      blockNumber := some log.blockNumber
      chainId := some chain
      fromAddress := log.address
      gas := numberTo0x TX_DEFAULT_GAS_DEFAULT
      gasPrice := INVALID_EVM_INSTRUCTION
      hash := log.transactionHash
      input := ZERO_HEX_8_BYTE
      nonce := nanOrNumberTo0x (some 0)
      r := ZERO_HEX
      s := ZERO_HEX
      toAddress := some log.address
      transactionIndex := some log.transactionIndex
      type := ZERO_HEX
      v := ZERO_HEX
      value := ZERO_HEX }
    (some ZERO_HEX) (some ZERO_HEX)

end Transaction

section Receipt

structure TransactionReceipt where
  blockHash : String
  blockNumber : String
  contractAddress : String
  cumulativeGasUsed : String
  effectiveGasPrice : String
  fromAddress : String
  gasUsed : String
  logs : List Log
  logsBloom : String
  root : String
  status : String
  toAddress : Option String
  transactionHash : String
  transactionIndex : String
  type : String
  revertReason : Option String := none
  deriving DecidableEq

/-- The receipt of a synthetic transaction is made of one of its logs. -/
def syntheticReceipt (buildLogsBloom : String → List String → String) (log : Log)
    (gasPriceForTimestamp : String) : TransactionReceipt where
  blockHash := log.blockHash
  blockNumber := log.blockNumber
  contractAddress := log.address
  cumulativeGasUsed := ZERO_HEX
  effectiveGasPrice := gasPriceForTimestamp
  fromAddress := ZERO_ADDRESS_HEX
  gasUsed := ZERO_HEX
  logs := [log]
  logsBloom := buildLogsBloom log.address log.topics
  root := DEFAULT_ROOT_HASH
  status := ONE_HEX
  toAddress := some log.address
  transactionHash := log.transactionHash
  transactionIndex := log.transactionIndex
  type := ZERO_HEX

/-- Every field is read from `syntheticLogs[0]`. -/
def createSyntheticReceipt (buildLogsBloom : String → List String → String)
    (syntheticLogs : List Log) (gasPriceForTimestamp : String) :
    Except RelayError TransactionReceipt :=
  match syntheticLogs with
  | [] => .error (typeError "undefined" "blockHash")
  | log :: _ => .ok (syntheticReceipt buildLogsBloom log gasPriceForTimestamp)

/-- A token created by a system contract is found at the end of the call result. -/
def getContractAddressFromReceipt (receiptResponse : MirrorNodeContractResult) : String :=
  let selector := substring receiptResponse.functionParameters 0 FUNCTION_SELECTOR_CHAR_LENGTH
  if selector ∈ HTS_CREATE_FUNCTIONS_SELECTORS then
    prepend0x (substringFrom receiptResponse.callResult (receiptResponse.callResult.length - 40))
  else receiptResponse.address

structure RegularReceiptParams where
  effectiveGas : String
  fromAddress : String
  logs : List Log
  receiptResponse : MirrorNodeContractResult
  toAddress : Option String

/-- The transaction created the contract itself. -/
def createsContract (contractResult : MirrorNodeContractResult) : Bool :=
  contractResult.contractId ∈ contractResult.createdContractIds.map some

def createRegularReceipt (params : RegularReceiptParams) : TransactionReceipt :=
  let receiptResponse := params.receiptResponse
  { blockHash := toHash32 receiptResponse.blockHash
    blockNumber := numberTo0x receiptResponse.blockNumber
    fromAddress := params.fromAddress
    toAddress := if createsContract receiptResponse then none else params.toAddress
    cumulativeGasUsed := numberTo0x receiptResponse.blockGasUsed
    gasUsed := nanOrNumberTo0x (receiptResponse.gasUsed.map (↑))
    contractAddress := getContractAddressFromReceipt receiptResponse
    logs := params.logs
    logsBloom :=
      if receiptResponse.bloom = EMPTY_HEX then EMPTY_BLOOM else receiptResponse.bloom
    transactionHash := toHash32 receiptResponse.hash
    transactionIndex := numberTo0x receiptResponse.transactionIndex
    effectiveGasPrice := params.effectiveGas
    root := match receiptResponse.root with
      | none => DEFAULT_ROOT_HASH
      | some root => if root = "" then DEFAULT_ROOT_HASH else root
    status := receiptResponse.status
    type := nanOrNumberTo0x (receiptResponse.type.map (↑))
    revertReason := match receiptResponse.errorMessage with
      | none => none
      | some message =>
          if message = "" then none
          else if isHex (prepend0x message) then some message
          else some (prepend0x (ASCIIToHex message)) }

end Receipt

section Block

/-- `string[] | Transaction[]`, where a contract result of an unknown type leaves a `null`. -/
inductive BlockTransactions where
  | hashes (transactions : List String)
  | objects (transactions : List (Option Transaction))
  deriving DecidableEq

def BlockTransactions.length : BlockTransactions → ℕ
  | .hashes transactions => transactions.length
  | .objects transactions => transactions.length

structure Block where
  timestamp : String
  number : String
  hash : String
  difficulty : String := ZERO_HEX
  extraData : String := EMPTY_HEX
  gasLimit : String := numberTo0x BLOCK_GAS_LIMIT
  baseFeePerGas : String
  gasUsed : String
  logsBloom : String
  miner : String := ZERO_ADDRESS_HEX
  mixHash : String := ZERO_HEX_32_BYTE
  nonce : String := ZERO_HEX_8_BYTE
  parentHash : String
  receiptsRoot : String
  sha3Uncles : String := EMPTY_ARRAY_HEX
  size : String
  stateRoot : String := DEFAULT_ROOT_HASH
  totalDifficulty : String := ZERO_HEX
  transactions : BlockTransactions
  transactionsRoot : String
  uncles : List String := []
  withdrawals : List String := []
  withdrawalsRoot : String := ZERO_HEX_32_BYTE
  deriving DecidableEq

def createBlock (blockResponse : MirrorNodeBlock) (txArray : BlockTransactions)
    (gasPrice receiptsRoot : String) : Block where
  baseFeePerGas := gasPrice
  gasUsed := numberTo0x blockResponse.gasUsed
  hash := toHash32 blockResponse.hash
  logsBloom :=
    if blockResponse.logsBloom = EMPTY_HEX then EMPTY_BLOOM else blockResponse.logsBloom
  number := numberTo0x blockResponse.number
  parentHash := substring blockResponse.previousHash 0 66
  receiptsRoot
  timestamp := numberTo0x blockResponse.timestampFrom.seconds
  size := numberTo0x (toInt32 (blockResponse.size.getD 0))
  transactions := txArray
  transactionsRoot :=
    if txArray.length = 0 then DEFAULT_ROOT_HASH else toHash32 blockResponse.hash

end Block

end JsonRpcRelay.Blocks

import JsonRpcRelay.Errors
import JsonRpcRelay.Framework.History
import JsonRpcRelay.JavaScript

/-!
# The client of the SDK

`submitEthereumTransaction` and `deleteFile` with the transactions and queries that they execute.
What the limiter, the SDK and the network answer is left open.  The call data is given by its
hexadecimal digits.
-/

namespace JsonRpcRelay.Clients

open Framework

section Data

structure EthereumTransactionData where
  toAddress : String
  callData : String
  /-- Everything else in the transaction. -/
  others : String
  deriving DecidableEq

/-- The number of bytes of the call data. -/
def EthereumTransactionData.callDataLength (data : EthereumTransactionData) : ℕ :=
  data.callData.length / 2

/-- The transactions with what is set on them. -/
inductive Transaction where
  | fileCreateTransaction (contents : String)
  | fileAppendTransaction (fileId contents : String) (chunkSize maxChunks : ℕ)
  | ethereumTransaction (ethereumData : EthereumTransactionData) (callDataFileId : Option String)
      (maxTransactionFee : ℕ) (maxGasAllowanceHbar : Option ℕ)
  | fileDeleteTransaction (fileId : String) (maxTransactionFeeHbar : ℕ)
  deriving DecidableEq

def Transaction.constructorName : Transaction → String
  | .fileCreateTransaction _ => "FileCreateTransaction"
  | .fileAppendTransaction .. => "FileAppendTransaction"
  | .ethereumTransaction .. => "EthereumTransaction"
  | .fileDeleteTransaction .. => "FileDeleteTransaction"

/-- What the SDK throws, with the id that it gave to the transaction. -/
structure SdkFailure where
  status : String
  message : String
  transactionId : String
  deriving DecidableEq

/-- The id of a transaction is printed as a text that is not empty. -/
structure TransactionId where
  text : String
  nonempty : text ≠ ""
  deriving DecidableEq

/-- The node has accepted a transaction.  The file is the one that its receipt names. -/
structure TransactionResponse where
  transactionId : TransactionId
  fileId : Option String
  deriving DecidableEq

/-- The chunks that were accepted one after the other, and what the first one that failed throws.
A chunk may be accepted and fail. -/
structure ChunksOutcome where
  accepted : List TransactionResponse
  failure : Option SdkFailure
  deriving DecidableEq

structure FileInfo where
  size : ℕ
  isDeleted : Bool
  deriving DecidableEq

/-- The payment of a query and its result. -/
structure QueryOutcome where
  queryPayment : ℕ
  paymentTransactionId : String
  result : Except SdkFailure FileInfo

structure ExecuteTransactionEvent where
  transactionId : String
  txConstructorName : String
  originalCallerAddress : String
  deriving DecidableEq

structure ExecuteQueryEvent where
  transactionId : String
  cost : ℕ
  status : String
  originalCallerAddress : String
  deriving DecidableEq

structure SDKClientConfig where
  jumboTxEnabled : Bool
  fileAppendChunkSize : ℕ
  maxChunks : ℕ
  maxGasAllowanceHbar : ℕ
  isSubsidizedTransaction : String → Bool
  /-- The fee of the file transactions in tinybars by size, chunk size and exchange rate. -/
  estimateFileTransactionsFee : ℕ → ℕ → ℕ → ℕ
  /-- The fee in tinybars for a gas price in weibars. -/
  maxTransactionFee : ℕ → ℕ

inductive SdkOp where
  | shouldLimit (callerName txConstructorName originalCallerAddress : String)
      (estimatedTxFee : Option ℕ)
  | execute (transaction : Transaction)
  | getReceipt (response : TransactionResponse)
  | executeAll (transaction : Transaction)
  | executeQuery (fileId : String)
  | emitExecuteTransaction (event : ExecuteTransactionEvent)
  | emitExecuteQuery (event : ExecuteQueryEvent)
  deriving DecidableEq

@[reducible] def SdkOp.Reply : SdkOp → Type
  | .shouldLimit .. => Except RelayError Bool
  | .execute _ => Except SdkFailure TransactionResponse
  -- the receipt is that of the transaction, unless it cannot be had or is no success
  | .getReceipt _ => Except SdkFailure Unit
  | .executeAll _ => ChunksOutcome
  | .executeQuery _ => QueryOutcome
  | .emitExecuteTransaction _ | .emitExecuteQuery _ => Unit

abbrev SdkEvent := (op : SdkOp) × op.Reply

abbrev SdkHistory := History SdkOp SdkOp.Reply

abbrev SdkM := ExceptT RelayError (Prog SdkOp SdkOp.Reply)

def request (op : SdkOp) : SdkM op.Reply := ExceptT.lift (Prog.call op)

/-- `new SDKClientError(e, e.message, transactionId)`. -/
def sdkClientError (e : SdkFailure) (transactionId : String) : RelayError :=
  .sdkClientError ⟨e.status, e.message, transactionId⟩

/-- `new SDKClientError({}, message)`. -/
def sdkClientErrorOf (message : String) : RelayError :=
  .sdkClientError ⟨"UNKNOWN", message, ""⟩

end Data

namespace SDKClient

variable (cfg : SDKClientConfig)

section Execution

def limit (limited : Except RelayError Bool) : SdkM Unit :=
  match limited with
  | .error e => throw e
  | .ok true => throw (.jsonRpcError predefined.HBAR_RATE_LIMIT_EXCEEDED)
  | .ok false => return

def checkLimit (callerName txConstructorName originalCallerAddress : String)
    (estimatedTxFee : Option ℕ) : SdkM Unit := do
  limit (← request (.shouldLimit callerName txConstructorName originalCallerAddress estimatedTxFee))

def emitTransaction (transaction : Transaction) (originalCallerAddress : String)
    (response : TransactionResponse) : SdkM Unit :=
  if response.transactionId.text = "" then return
  else request (.emitExecuteTransaction
    ⟨response.transactionId.text, transaction.constructorName, originalCallerAddress⟩)

/-- The event is emitted whether there is a receipt or not. -/
def finishTransaction (transaction : Transaction) (originalCallerAddress : String)
    (response : TransactionResponse) (receipt : Except SdkFailure Unit) :
    SdkM TransactionResponse := do
  emitTransaction transaction originalCallerAddress response
  match receipt with
  | .ok _ => return response
  | .error e => throw (sdkClientError e response.transactionId.text)

/-- Without a response there is no id, and no event. -/
def afterExecute (transaction : Transaction) (originalCallerAddress : String)
    (executed : Except SdkFailure TransactionResponse) : SdkM TransactionResponse :=
  match executed with
  | .error e => throw (sdkClientError e e.transactionId)
  | .ok response => do
    finishTransaction transaction originalCallerAddress response
      (← request (.getReceipt response))

def executeTransaction (transaction : Transaction) (callerName : String)
    (shouldThrowHbarLimit : Bool) (originalCallerAddress : String) : SdkM TransactionResponse := do
  if shouldThrowHbarLimit then
    checkLimit callerName transaction.constructorName originalCallerAddress none
  afterExecute transaction originalCallerAddress (← request (.execute transaction))

/-- The responses are only known if all chunks succeed. -/
def afterExecuteAll (transaction : Transaction) (originalCallerAddress : String)
    (outcome : ChunksOutcome) : SdkM Unit :=
  match outcome.failure with
  | some e => throw (sdkClientError e "")
  | none => outcome.accepted.forM (emitTransaction transaction originalCallerAddress)

def executeAllTransaction (transaction : Transaction) (callerName : String)
    (shouldThrowHbarLimit : Bool) (originalCallerAddress : String) : SdkM Unit := do
  if shouldThrowHbarLimit then
    checkLimit callerName transaction.constructorName originalCallerAddress none
  afterExecuteAll transaction originalCallerAddress (← request (.executeAll transaction))

def statusOf (result : Except SdkFailure FileInfo) : String :=
  match result with
  | .ok _ => "SUCCESS"
  | .error e => e.status

def emitQuery (originalCallerAddress : String) (outcome : QueryOutcome) : SdkM Unit :=
  if outcome.queryPayment = 0 then return
  else request (.emitExecuteQuery ⟨outcome.paymentTransactionId, outcome.queryPayment,
    statusOf outcome.result, originalCallerAddress⟩)

/-- A timeout of gRPC has the status of an invalid id. -/
def queryResult (result : Except SdkFailure FileInfo) : SdkM FileInfo :=
  match result with
  | .ok info => return info
  | .error e =>
    if e.status = "INVALID_TRANSACTION_ID" then throw (.jsonRpcError predefined.REQUEST_TIMEOUT)
    else throw (sdkClientError e "")

def afterQuery (originalCallerAddress : String) (outcome : QueryOutcome) : SdkM FileInfo := do
  emitQuery originalCallerAddress outcome
  queryResult outcome.result

/-- `executeQuery` with a `FileInfoQuery`. -/
def executeQuery (fileId originalCallerAddress : String) : SdkM FileInfo := do
  afterQuery originalCallerAddress (← request (.executeQuery fileId))

end Execution

section Files

/-- The contents behind those that the file is created with. -/
def appendContents (hexedCallData fileId : String) : Transaction :=
  .fileAppendTransaction fileId
    (Js.substring hexedCallData cfg.fileAppendChunkSize hexedCallData.length)
    cfg.fileAppendChunkSize cfg.maxChunks

def checkFile (info : FileInfo) : SdkM Unit :=
  if info.size = 0 then throw (sdkClientErrorOf "Created file is empty.") else return

def appendFile (data : EthereumTransactionData) (callerName originalCallerAddress fileId : String) :
    SdkM Unit :=
  if cfg.fileAppendChunkSize < data.callDataLength then
    executeAllTransaction (appendContents cfg data.callData fileId) callerName false
      originalCallerAddress
  else return

/-- The contents of the file that was created. -/
def fillFile (data : EthereumTransactionData) (callerName originalCallerAddress : String)
    (fileId : Option String) : SdkM (Option String) :=
  match fileId with
  | none => return none
  | some fileId => do
    appendFile cfg data callerName originalCallerAddress fileId
    checkFile (← executeQuery fileId originalCallerAddress)
    return some fileId

/-- The receipt is asked for again to read the id of the file. -/
def readFileId (response : TransactionResponse) (receipt : Except SdkFailure Unit) :
    SdkM (Option String) :=
  match receipt with
  | .ok _ => return response.fileId
  | .error e => throw (.error e.message)

def createFile (data : EthereumTransactionData) (callerName originalCallerAddress : String)
    (currentNetworkExchangeRateInCents : ℕ) : SdkM (Option String) := do
  checkLimit callerName "createFile" originalCallerAddress
    (some (cfg.estimateFileTransactionsFee data.callData.length cfg.fileAppendChunkSize
      currentNetworkExchangeRateInCents))
  let fileCreateTxResponse ← executeTransaction
    (.fileCreateTransaction (Js.substring data.callData 0 cfg.fileAppendChunkSize)) callerName false
    originalCallerAddress
  let fileId ← readFileId fileCreateTxResponse (← request (.getReceipt fileCreateTxResponse))
  fillFile cfg data callerName originalCallerAddress fileId

def deletedFileInfo (fileId callerName originalCallerAddress : String) : SdkM Unit := do
  let _ ← executeTransaction (.fileDeleteTransaction fileId 2) callerName false
    originalCallerAddress
  let _ ← executeQuery fileId originalCallerAddress
  return

/-- What is thrown is only logged. -/
def deleteFile (fileId callerName originalCallerAddress : String) : SdkM Unit :=
  tryCatch (deletedFileInfo fileId callerName originalCallerAddress) fun _ => return

end Files

section Submission

structure SubmittedTransaction where
  txResponse : TransactionResponse
  fileId : Option String

def ethereumTransaction (data : EthereumTransactionData) (callDataFileId : Option String)
    (networkGasPriceInWeiBars : ℕ) : Transaction :=
  .ethereumTransaction (if callDataFileId.isSome then { data with callData := "" } else data)
    callDataFileId (cfg.maxTransactionFee networkGasPriceInWeiBars)
    (if cfg.isSubsidizedTransaction data.toAddress then some cfg.maxGasAllowanceHbar else none)

/-- A transaction with its call data in a file, unless the data are short. -/
def callDataFile (data : EthereumTransactionData) (callerName originalCallerAddress : String)
    (currentNetworkExchangeRateInCents : ℕ) : SdkM (Option String) :=
  if cfg.jumboTxEnabled ∨ data.callDataLength ≤ cfg.fileAppendChunkSize then return none
  else do
    match ← createFile cfg data callerName originalCallerAddress
      currentNetworkExchangeRateInCents with
    | none => throw (sdkClientErrorOf "No fileId created for transaction. ")
    | some fileId => return some fileId

/-- A transaction buffer that cannot be read is an error. -/
def submitEthereumTransaction (transactionData : Except RelayError EthereumTransactionData)
    (callerName originalCallerAddress : String)
    (networkGasPriceInWeiBars currentNetworkExchangeRateInCents : ℕ) :
    SdkM SubmittedTransaction :=
  match transactionData with
  | .error e => throw e
  | .ok data => do
    let fileId ← callDataFile cfg data callerName originalCallerAddress
      currentNetworkExchangeRateInCents
    let txResponse ← executeTransaction
      (ethereumTransaction cfg data fileId networkGasPriceInWeiBars) callerName true
      originalCallerAddress
    return { txResponse, fileId }

end Submission

end SDKClient

end JsonRpcRelay.Clients

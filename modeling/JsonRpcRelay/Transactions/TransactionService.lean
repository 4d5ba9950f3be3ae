import Mathlib.Data.String.Basic
import JsonRpcRelay.Errors
import JsonRpcRelay.Framework.Program
import JsonRpcRelay.Lock.LockService

/-!
# Sending raw transactions

`sendRawTransaction` of the transaction service with its processor and its error handler, the
part of the prechecks that depends on the state of the relay, and the services they call.
Every awaited call is one request; what the mirror node and the network answer is left open.
Logging, metrics and the error counters of the HAPI service are left out.
-/

namespace JsonRpcRelay.Transactions

open Framework Lock

/-- What the code may throw. -/
abbrev TxError := RelayError

section Data

/-- A parsed transaction.  Everything else about it follows from its serialization. -/
structure Transaction where
  fromAddress : Option String
  toAddress : Option String
  nonce : ℕ
  serialized : String
  deriving DecidableEq

/-- The nonce in the answer of the mirror node for an account, which is null where none is kept. -/
inductive EthereumNonce where
  | undefined
  | null
  | number (n : ℕ)
  deriving DecidableEq

namespace EthereumNonce

/-- `ethereum_nonce + pendingCount`, where null counts as 0 and a missing nonce makes it `NaN`. -/
def plus (pendingCount : ℕ) : EthereumNonce → Option ℕ
  | .undefined => none
  | .null => some pendingCount
  | .number n => some (n + pendingCount)

def number? : EthereumNonce → Option ℕ
  | .undefined | .null => none
  | .number n => some n

end EthereumNonce

/-- The answer of the mirror node for an account. -/
structure AccountInfo where
  ethereumNonce : EthereumNonce
  balance : Option ℕ
  receiverSigRequired : Bool
  deriving DecidableEq

structure ContractResult where
  hash : Option String
  deriving DecidableEq

/-- The answer of the network to a submission. -/
structure SubmissionResponse where
  transactionId : Option String
  fileId : Option String
  deriving DecidableEq

/-- The n-th random session key. -/
abbrev SessionKey := ℕ

/-- `string | JsonRpcError`. -/
inductive Answer where
  | hash (hash : String)
  | error (e : JsonRpcError)
  deriving DecidableEq

/-- The settings, and the pure functions of the relay that are not looked into: the checks of a
transaction alone (`callDataSize` to `gasPrice`), its checks against the account of the sender
(`balance` and `accessList`), the gas price buffer and the transaction hash. -/
structure RelayConfig where
  readOnly : Bool
  enableNonceOrdering : Bool
  enableTxPool : Bool
  useAsyncTxProcessing : Bool
  mirrorNodeRequestRetryCount : ℕ
  checkTransaction : Transaction → ℕ → Except TxError Unit
  checkAccount : Transaction → AccountInfo → Except TxError Unit
  addPercentageBufferToGasPrice : ℕ → ℕ
  computeTransactionHash : Transaction → String

inductive TxOp where
  /-- `acquireLock` of the lock strategy, which waits for the lock. -/
  | acquireLock (address : String)
  | releaseLock (address : String) (sessionKey : SessionKey)
  | getGasPriceInWeibars
  | getAccount (idOrAliasOrEvmAddress : String)
  /-- The three operations of the pool storage. -/
  | getList (address : String)
  | addToList (address rlpHex : String)
  | removeFromList (address rlpHex : String)
  | getCurrentNetworkExchangeRateInCents
  | submitEthereumTransaction (tx : Transaction) (networkGasPriceInWeiBars : ℕ)
  | deleteFile (fileId : String)
  | getContractResult (transactionId : Option String)
  | getContractRevertReasonFromTransaction (e : Option TxError)
  | wait

@[reducible] def TxOp.Reply : TxOp → Type
  | .acquireLock _ => SessionKey
  | .releaseLock .. | .addToList .. | .removeFromList .. | .deleteFile _ | .wait => Unit
  | .getGasPriceInWeibars | .getCurrentNetworkExchangeRateInCents => Except TxError ℕ
  | .getAccount _ => Except TxError (Option AccountInfo)
  | .getList _ => ℕ
  | .submitEthereumTransaction .. => Except TxError SubmissionResponse
  | .getContractResult _ => Except TxError (Option ContractResult)
  | .getContractRevertReasonFromTransaction _ => Except TxError Unit

abbrev TxM := ExceptT TxError (Prog TxOp TxOp.Reply)

def request (op : TxOp) : TxM op.Reply := ExceptT.lift (Prog.call op)

/-- An awaited call that may reject. -/
def await {α : Type} (x : TxM (Except TxError α)) : TxM α := do
  match ← x with
  | .ok a => return a
  | .error e => throw e

end Data

variable (cfg : RelayConfig)

section Services

def acquireLock (address : String) : TxM (Option SessionKey) :=
  if cfg.enableNonceOrdering then some <$> request (.acquireLock address) else return none

def releaseLock (address : String) (sessionKey : SessionKey) : TxM Unit :=
  if cfg.enableNonceOrdering then request (.releaseLock address sessionKey) else return

/-- `if (parsedTx.from) lockSessionKey = await this.lockService.acquireLock(parsedTx.from)`. -/
def acquireSession (fromAddress : Option String) : TxM (Option SessionKey) :=
  match fromAddress with
  | some address => acquireLock cfg address
  | none => return none

/-- `if (lockSessionKey) await this.lockService.releaseLock(address, lockSessionKey)`. -/
def releaseSession (address : String) (lockSessionKey : Option SessionKey) : TxM Unit :=
  match lockSessionKey with
  | some sessionKey => releaseLock cfg address sessionKey
  | none => return

/-- Reading a method of `null`. -/
def nullError (property : String) : TxError :=
  .error s!"Cannot read properties of null (reading '{property}')"

def saveTransaction (address : Option String) (tx : Transaction) : TxM Unit :=
  if !cfg.enableTxPool then return else
  match address with
  | some address => request (.addToList (normalizeAddress address) tx.serialized)
  | none => throw (nullError "toLowerCase")

def removeTransaction (address rlpHex : String) : TxM Unit :=
  if !cfg.enableTxPool then return else
  request (.removeFromList (normalizeAddress address) rlpHex)

def getPendingCount (address : Option String) : TxM ℕ :=
  match address with
  | some address => request (.getList (normalizeAddress address))
  | none => throw (nullError "toLowerCase")

/-- The loop of `repeatedRequest` for `getContractResult`: an error counts as no result. -/
def repeatedRequest (transactionId : Option String) : ℕ → TxM (Option ContractResult)
  | 0 => return none
  | n + 1 => do
    match ← request (.getContractResult transactionId) with
    | .ok (some result) => return some result
    | _ =>
      request .wait
      repeatedRequest transactionId n

end Services

section TransactionIds

/-- The text from here on starts with a match of `\d{1}\.\d{1}\.\d{1,10}\@\d{1,10}\.\d{1,9}`. -/
def startsTransactionId : List Char → Bool
  | shard :: '.' :: realm :: '.' :: rest =>
      let num := rest.takeWhile Char.isDigit
      shard.isDigit && realm.isDigit && 1 ≤ num.length && num.length ≤ 10 &&
        match rest.dropWhile Char.isDigit with
        | '@' :: rest =>
            let seconds := rest.takeWhile Char.isDigit
            1 ≤ seconds.length && seconds.length ≤ 10 &&
              match rest.dropWhile Char.isDigit with
              | '.' :: nanos :: _ => nanos.isDigit
              | _ => false
        | _ => false
  | _ => false

/-- `TRANSACTION_ID_REGEX.test`, which looks for a match anywhere. -/
def isTransactionId (s : String) : Bool := s.toList.tails.any startsTransactionId

/-- `timestamp.replace('.', '-')`. -/
def replaceDot (s : String) : String :=
  match s.splitOn "." with
  | first :: rest@(_ :: _) => first ++ "-" ++ ".".intercalate rest
  | _ => s

def formatTransactionId (transactionId : String) : Option String :=
  if isTransactionId transactionId then
    match transactionId.splitOn "@" with
    | payer :: timestamp :: _ => some (payer ++ "-" ++ replaceDot timestamp)
    | _ => none
  else none

def formatTransactionIdWithoutQueryParams (transactionId : String) : Option String :=
  (formatTransactionId transactionId).map fun id => (id.splitOn "?").headD ""

end TransactionIds

section Prechecks

/-- A template literal prints a missing address as `null`. -/
def addressText (address : Option String) : String := address.getD "null"

def verifyAccount (tx : Transaction) : TxM AccountInfo := do
  match ← await (request (.getAccount (addressText tx.fromAddress))) with
  | some accountInfo => return accountInfo
  | none =>
    throw (.jsonRpcError (predefined.RESOURCE_NOT_FOUND s!"address '{addressText tx.fromAddress}'."))

/-- `NaN` is neither missing nor above anything. -/
def nonce (tx : Transaction) (accountNonce : Option ℕ) : Except TxError Unit :=
  match accountNonce with
  | some accountNonce =>
    if tx.nonce < accountNonce then
      throw (.jsonRpcError (predefined.NONCE_TOO_LOW tx.nonce accountNonce))
    else return
  | none => return

def receiverAccount (tx : Transaction) : TxM Unit :=
  match tx.toAddress with
  | none => return
  | some toAddress => do
    match ← await (request (.getAccount toAddress)) with
    | some verifyAccount =>
      if verifyAccount.receiverSigRequired then
        throw (.jsonRpcError predefined.RECEIVER_SIGNATURE_ENABLED)
      else return
    | none => return

def sendRawTransactionCheck (tx : Transaction) (networkGasPriceInWeiBars : ℕ) : TxM Unit := do
  await (return cfg.checkTransaction tx networkGasPriceInWeiBars)
  let mirrorAccountInfo ← verifyAccount tx
  let pendingCount ← getPendingCount tx.fromAddress
  let signerNonce := mirrorAccountInfo.ethereumNonce.plus pendingCount
  await (return nonce tx signerNonce)
  await (return cfg.checkAccount tx mirrorAccountInfo)
  receiverAccount tx

/-- Errors of the relay, the SDK and the mirror node client are passed on. -/
def genericErrorHandler {α : Type} (e : TxError) : TxM α :=
  match e with
  | .error message => throw (.jsonRpcError (predefined.INTERNAL_ERROR message))
  | e => throw e

def validateRawTransaction (tx : Transaction) (networkGasPriceInWeiBars : ℕ) : TxM Unit :=
  tryCatch (sendRawTransactionCheck cfg tx networkGasPriceInWeiBars) genericErrorHandler

end Prechecks

section Processing

/-- What `submitTransaction` returns.  An id that is undefined or empty is no id. -/
structure Submission where
  txSubmitted : Bool
  submittedTransactionId : Option String
  error : Option TxError

def submitTransaction (tx : Transaction) (networkGasPriceInWeiBars : ℕ) : TxM Submission := do
  let sent ← match ← request .getCurrentNetworkExchangeRateInCents with
    | .ok _ => request (.submitEthereumTransaction tx networkGasPriceInWeiBars)
    | .error e => pure (.error e)
  match sent with
  | .ok response =>
    -- the file is deleted in the background
    match response.fileId with
    | some fileId => request (.deleteFile fileId)
    | none => pure ()
    let id := response.transactionId
    if id.any isTransactionId then
      return { txSubmitted := true, submittedTransactionId := id, error := none }
    else
      let message := "Transaction successfully submitted but returned invalid transactionID: " ++
        "transactionId==" ++ id.getD "undefined"
      return { txSubmitted := true, submittedTransactionId := id
               error := some (.jsonRpcError (predefined.INTERNAL_ERROR message)) }
  | .error e =>
    let id := match e with
      | .sdkClientError e => e.transactionId
      | _ => ""
    return { txSubmitted := false, submittedTransactionId := some id, error := some e }

/-- The polling loop of the error handler: the first account nonce that is not the nonce of the
transaction. -/
def pollAccountNonce (tx : Transaction) : ℕ → TxM (Option ℕ)
  | 0 => return none
  | n + 1 => do
    match ← await (request (.getAccount (addressText tx.fromAddress))) with
    | some accountInfo =>
      if accountInfo.ethereumNonce ≠ .number tx.nonce then
        return accountInfo.ethereumNonce.number? else
      request .wait
      pollAccountNonce tx n
    | none => throw (nullError "ethereum_nonce")

def sendRawTransactionErrorHandler (e : Option TxError) (txSubmitted : Bool) (tx : Transaction) :
    TxM Answer := do
  match e with
  | some (.jsonRpcError e) => return .error e
  | some (.sdkClientError e) =>
    if e.status = "WRONG_NONCE" then
      match ← pollAccountNonce tx cfg.mirrorNodeRequestRetryCount with
      | some (accountNonce + 1) =>
        if accountNonce + 1 < tx.nonce then
          return .error (predefined.NONCE_TOO_HIGH tx.nonce (accountNonce + 1))
        else return .error (predefined.NONCE_TOO_LOW tx.nonce (accountNonce + 1))
      -- the nonce 0 is falsy like a missing one
      | _ =>
        throw (.jsonRpcError
          (predefined.INTERNAL_ERROR "Cannot find updated account nonce for WRONG_NONCE error."))
    else recordRetrieval
  | _ => recordRetrieval
where
  recordRetrieval : TxM Answer := do
    if !txSubmitted then
      match e with
      | some e => return .error (predefined.INTERNAL_ERROR e.message)
      | none => throw (nullError "message")
    else
      await (request (.getContractRevertReasonFromTransaction e))
      return .hash (cfg.computeTransactionHash tx)

/-- The hash that the mirror node reports for a submitted transaction. -/
def pollTransactionHash (submittedTransactionId : String) (error : Option TxError) :
    TxM String := do
  let contractResult ← repeatedRequest
    (formatTransactionIdWithoutQueryParams submittedTransactionId) cfg.mirrorNodeRequestRetryCount
  match contractResult with
  | none =>
    match error with
    | some (.sdkClientError e) => throw (.sdkClientError e)
    | _ =>
      throw (.jsonRpcError (predefined.INTERNAL_ERROR
        s!"No matching transaction record retrieved: transactionId={submittedTransactionId}"))
  | some contractResult =>
    match contractResult.hash with
    | none =>
      throw (.jsonRpcError (predefined.INTERNAL_ERROR
        s!"Transaction returned a null transaction hash: transactionId={submittedTransactionId}"))
    | some hash => return hash

/-- The processor after the submission has been booked out: the answer to the caller. -/
def answerSubmission (tx : Transaction) (submission : Submission) : TxM Answer := do
  let id := submission.submittedTransactionId.getD ""
  if id = "" then sendRawTransactionErrorHandler cfg submission.error submission.txSubmitted tx else
  let polled ← tryCatch (.ok <$> pollTransactionHash cfg id submission.error)
    fun e => return (.error e : Except TxError String)
  match polled with
  | .ok hash => return .hash hash
  | .error e => sendRawTransactionErrorHandler cfg (some e) submission.txSubmitted tx

def sendRawTransactionProcessor (tx : Transaction) (networkGasPriceInWeiBars : ℕ)
    (lockSessionKey : Option SessionKey) : TxM Answer := do
  let originalCallerAddress := tx.fromAddress.getD ""
  let submission ← submitTransaction tx networkGasPriceInWeiBars
  releaseSession cfg originalCallerAddress lockSessionKey
  removeTransaction cfg originalCallerAddress tx.serialized
  answerSubmission cfg tx submission

/-- The `try` block of `sendRawTransaction`.  With asynchronous processing it starts the processor
with this gas price and does not wait for it. -/
def validateAndProcess (tx : Transaction) (lockSessionKey : Option SessionKey) :
    TxM (Answer ⊕ ℕ) := do
  let networkGasPriceInWeiBars :=
    cfg.addPercentageBufferToGasPrice (← await (request .getGasPriceInWeibars))
  validateRawTransaction cfg tx networkGasPriceInWeiBars
  saveTransaction cfg tx.fromAddress tx
  if cfg.useAsyncTxProcessing then return .inr networkGasPriceInWeiBars
  else .inl <$> sendRawTransactionProcessor cfg tx networkGasPriceInWeiBars lockSessionKey

/-- With asynchronous processing the caller gets the hash when the processor is started, and
the processor goes on in the background, where nobody handles what it throws.  The program ends
when both have ended. -/
def sendRawTransaction (tx : Transaction) : TxM Answer := do
  if cfg.readOnly then
    throw (.jsonRpcError (predefined.UNSUPPORTED_OPERATION "Relay is in read-only mode"))
  else
  let lockSessionKey ← acquireSession cfg tx.fromAddress
  let started ← tryCatch (validateAndProcess cfg tx lockSessionKey) fun e => do
    releaseSession cfg (addressText tx.fromAddress) lockSessionKey
    throw e
  match started with
  | .inl answer => return answer
  | .inr networkGasPriceInWeiBars =>
    let _ ← tryCatch
      (some <$> sendRawTransactionProcessor cfg tx networkGasPriceInWeiBars lockSessionKey)
      fun _ => return none
    return .hash (cfg.computeTransactionHash tx)

end Processing

end JsonRpcRelay.Transactions

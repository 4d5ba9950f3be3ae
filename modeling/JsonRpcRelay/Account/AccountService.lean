import JsonRpcRelay.Contract.ContractService

/-!
# The account service

Balances and transaction counts of accounts, at the latest block or as of an earlier one.  The
functions are written for any monad with the requests to the mirror node.
-/

namespace JsonRpcRelay.Account

open constants Js Mirror Common Contract

section Data

structure Transfer where
  account : String
  amount : ℤ
  isApproval : Bool
  deriving DecidableEq

structure AccountTransaction where
  transactionId : String
  consensusTimestamp : Timestamp
  transfers : List Transfer
  deriving DecidableEq

/-- The link to further transactions, with the time in its `timestamp` parameter. -/
structure NextPage where
  url : String
  timeMarker : Option Timestamp
  deriving DecidableEq

structure MirrorAccount where
  account : String
  evmAddress : String
  balance : Option ℤ
  ethereumNonce : Option ℕ
  transactions : List AccountTransaction
  next : Option NextPage
  deriving DecidableEq

/-- The sender of a transaction and its nonce, which counts from zero. -/
structure TransactionResult where
  fromAddress : String
  nonce : Option ℕ
  deriving DecidableEq

/-- The further requests of the service: to the mirror node, to the cache for the number of the
latest block, and to the transaction pool. -/
structure AccountClient (m : Type → Type) where
  getAccount : String → m (Option MirrorAccount)
  getAccountWithTransactions : String → m (Option MirrorAccount)
  getAccountPaginated : String → m (List AccountTransaction)
  getBalanceAtTimestamp : String → Timestamp → m (Option (List ℤ))
  getAccountLatestEthereumTransactionsByTimestamp :
    String → Timestamp → ℕ → m (Option (List AccountTransaction))
  getContractResult : String → m (Option TransactionResult)
  getEarliestBlock : m (Option MirrorNodeBlock)
  getPendingCount : String → m ℕ
  getCachedBlockNumber : m (Option String)
  setCachedBlockNumber : String → m Unit

/-- The number of the latest block in hexadecimal, and its end unless it is from the cache. -/
structure LatestBlockNumberTimestamp where
  blockNumber : String
  timeStampTo : Option Timestamp

end Data

/-- `Number(param)`, where `NaN` is `none`. -/
def numberOf : BlockParam → Option ℕ
  | .hex text | .hash text => some (bigIntOfHex text)
  | .number n => some n
  | _ => none

variable {m : Type → Type} [Monad m] [MonadExceptOf RelayError m]
variable (config : CommonConfig) (mirror : MirrorNodeClient m) (client : AccountClient m)

def blockNumberTimestamp : m LatestBlockNumberTimestamp := do
  match ← mirror.getLatestBlock .head with
  | some (block :: _) =>
      let currentBlock := numberTo0x block.number
      client.setCachedBlockNumber currentBlock
      return { blockNumber := currentBlock, timeStampTo := some block.timestampTo }
  | _ => throw (.jsonRpcError predefined.COULD_NOT_RETRIEVE_LATEST_BLOCK)

section Balance

def latestBlockTolerance : ℤ := 1

/-- The latest block that is known, from the cache if it is there. -/
def knownLatestBlock : m LatestBlockNumberTimestamp := do
  match ← client.getCachedBlockNumber with
  | some blockNumberCached => return { blockNumber := blockNumberCached, timeStampTo := none }
  | none => blockNumberTimestamp mirror client

/-- A parameter of more than 32 characters is looked up as a hash. -/
def currentBlockNumber (blockNumberOrTagOrHash : BlockParam) : m (Option ℕ) :=
  if (paramText (some blockNumberOrTagOrHash)).length > 32 then do
    match ← mirror.getBlock .fromBlock (.hash (paramText (some blockNumberOrTagOrHash))) with
    | some block => return some block.number
    | none => throw (typeError "null" "number")
  else return numberOf blockNumberOrTagOrHash

/-- A block close to the latest one that is known, or beyond it, is taken for the latest. -/
def orLatestWithin (latestBlock : LatestBlockNumberTimestamp) (currentBlockNumber : Option ℕ)
    (blockNumberOrTagOrHash : BlockParam) : BlockParam :=
  match currentBlockNumber with
  | some n =>
      if (bigIntOfHex latestBlock.blockNumber : ℤ) - n ≤ latestBlockTolerance then .latest
      else blockNumberOrTagOrHash
  | none => blockNumberOrTagOrHash

/-- A number from the cache comes without a time, which is asked for if it is needed. -/
def withTimestamp (latestBlock : LatestBlockNumberTimestamp) (param : BlockParam) :
    m LatestBlockNumberTimestamp :=
  if param ≠ .latest ∧ latestBlock.timeStampTo = none then blockNumberTimestamp mirror client
  else return latestBlock

def extractBlockNumberAndTimestamp (blockNumberOrTagOrHash : BlockParam) :
    m (LatestBlockNumberTimestamp × BlockParam) := do
  let latestBlock ← knownLatestBlock mirror client
  let current ← currentBlockNumber mirror blockNumberOrTagOrHash
  let param := orLatestWithin latestBlock current blockNumberOrTagOrHash
  let latestBlock ← withTimestamp mirror client latestBlock param
  return (latestBlock, param)

/-- The further pages are only asked for if the next one is not before the end of the block. -/
def getPagedTransactions (nextPage : NextPage) (block : MirrorNodeBlock) :
    m (List AccountTransaction) :=
  if nextPage.timeMarker.any (· ≥ block.timestampTo) then client.getAccountPaginated nextPage.url
  else return []

/-- What the transactions from a time on have added to the account. -/
def getBalanceAtBlockTimestamp (account : String) (transactions : List AccountTransaction)
    (blockTimestamp : Timestamp) : ℤ :=
  let transfers := (transactions.filter fun t => t.consensusTimestamp ≥ blockTimestamp).flatMap
    fun t => t.transfers.filter fun transfer =>
      transfer.account = account ∧ ¬transfer.isApproval
  (transfers.map (·.amount)).foldl (· + ·) 0

/-- The balance of an account less what its transactions have added since the block. -/
def balanceBeforeTransactions (mirrorAccount : MirrorAccount) (block : MirrorNodeBlock) : m ℤ := do
  let paged ← match mirrorAccount.next with
    | some nextPage => getPagedTransactions client nextPage block
    | none => pure []
  return mirrorAccount.balance.getD 0 - getBalanceAtBlockTimestamp mirrorAccount.account
    (mirrorAccount.transactions ++ paged) block.timestampTo

/-- The balance in tinybars, if it is found.  The balances of the last fifteen minutes are not
yet imported. -/
def getBalanceAtBlockNumber (account : String) (block : MirrorNodeBlock)
    (latestTimestamp : Timestamp) : m (Option ℤ) :=
  if (latestTimestamp.seconds : ℤ) - block.timestampFrom.seconds > BALANCES_UPDATE_INTERVAL then do
    match ← client.getBalanceAtTimestamp account block.timestampFrom with
    | some (balance :: _) => return some balance
    | _ => return some 0
  else do
    match ← client.getAccountWithTransactions account with
    | some mirrorAccount => return some (← balanceBeforeTransactions client mirrorAccount block)
    | none => return none

def weibarsTo0x (tinybars : ℤ) : String := numberTo0x (tinybars * TINYBAR_TO_WEIBAR_COEF)

def getCurrentBalance (account : String) : m String := do
  match ← client.getAccount account with
  | none => return ZERO_HEX
  | some mirrorAccount =>
      match mirrorAccount.balance with
      | some balance => return weibarsTo0x balance
      | none => throw (typeError "null" "balance")

/-- The block is never the latest one, as its number is compared with a text. -/
def balanceOfBlock (account : String) (latestTimestamp : Timestamp) (block : MirrorNodeBlock) :
    m String := do
  match ← getBalanceAtBlockNumber client account block latestTimestamp with
  | some tinybars => return weibarsTo0x tinybars
  | none => getCurrentBalance client account

section With

-- The balance of a block is worked out with integers, or with the numbers of the responses.
variable (balanceOfBlock : Timestamp → MirrorNodeBlock → m String)

/-- The part of `getBalance` whose errors are caught. -/
def balanceAtWith (account : String) (latestBlock : LatestBlockNumberTimestamp)
    (param : BlockParam) : m String :=
  if blockTagIsLatestOrPending (some param) then getCurrentBalance client account
  else do
    match ← getHistoricalBlockResponse config mirror .fromBlock (some param) with
    | some block => balanceOfBlock (latestBlock.timeStampTo.getD 0) block
    | none => getCurrentBalance client account

def getBalanceWith (account : String) (blockNumberOrTagOrHash : BlockParam) : m String :=
  if blockTagIsLatestOrPending (some blockNumberOrTagOrHash) then
    tryCatch (getCurrentBalance client account) fun e => throw (genericErrorHandler e)
  else do
    let (latestBlock, param) ← extractBlockNumberAndTimestamp mirror client blockNumberOrTagOrHash
    tryCatch (balanceAtWith config mirror client balanceOfBlock account latestBlock param)
      fun e => throw (genericErrorHandler e)

end With

/-- With integers, where no sum is rounded. -/
def getBalance (account : String) (blockNumberOrTagOrHash : BlockParam) : m String :=
  getBalanceWith config mirror client (balanceOfBlock client account) account
    blockNumberOrTagOrHash

end Balance

section TransactionCount

/-- An account without a nonce is one of a contract from before nonces were tracked. -/
def getAccountLatestEthereumNonce (address : String) : m String := do
  match ← client.getAccount address with
  | some accountData => return ((accountData.ethereumNonce.map fun n => numberTo0x n).getD ONE_HEX)
  | none => return ZERO_HEX

def getAccountNonceForEarliestBlock : m String := do
  match ← client.getEarliestBlock with
  | none => throw (.jsonRpcError (predefined.INTERNAL_ERROR "No network blocks found"))
  | some block =>
      if block.number ≤ 1 then return ZERO_HEX
      else throw (.jsonRpcError (predefined.INTERNAL_ERROR
        s!"Partial mirror node encountered, earliest block number is {block.number}"))

/-- The count is one more than the nonce of the last transaction, if the account has sent it. -/
def nonceFromTransaction (address : String) (transactionResult : TransactionResult) :
    m String := do
  match ← client.getAccount transactionResult.fromAddress with
  | none => throw (typeError "null" "evm_address")
  | some accountResult =>
      if accountResult.evmAddress ≠ address.toLower then
        getAccountLatestEthereumNonce client address
      else return numberTo0x (transactionResult.nonce.getD 0 + 1 : ℕ)

def nonceFromTransactions (address : String) : List AccountTransaction → m String
  | [] => return ZERO_HEX
  | [_] => return ONE_HEX
  | transaction :: _ => do
      match ← client.getContractResult transaction.transactionId with
      | none => throw (.jsonRpcError (predefined.RESOURCE_NOT_FOUND
          ("Failed to retrieve contract results for transaction " ++ transaction.transactionId)))
      | some transactionResult => nonceFromTransaction client address transactionResult

def getAccountNonceFromContractResult (address : String) (blockNum : ℕ) : m String := do
  match ← mirror.getBlock .fromBlock (.number blockNum) with
  | none => throw (.jsonRpcError (predefined.UNKNOWN_BLOCK ""))
  | some block => do
      let transactions ← client.getAccountLatestEthereumTransactionsByTimestamp address
        block.timestampTo 2
      nonceFromTransactions client address (transactions.getD [])

/-- The number of the block that a hash names. -/
def blockNumOf : BlockId → m ℕ
  | .number n => return n
  | .hash text => do
      match ← mirror.getBlock .fromBlock (.hash text) with
      | some block => return block.number
      | none => throw (typeError "null" "number")

def getAccountNonceForHistoricBlock (address : String) (blockNumOrHash : BlockId) : m String := do
  let blockNum ← blockNumOf mirror blockNumOrHash
  match ← mirror.getLatestBlock .head with
  | some (latest :: _) =>
      if (latest.number : ℤ) - blockNum ≤ config.maxBlockRange then
        getAccountLatestEthereumNonce client address
      else getAccountNonceFromContractResult mirror client address blockNum
  | _ => throw (.jsonRpcError (predefined.UNKNOWN_BLOCK ""))

/-- The count at the latest block, with the transactions in the pool if these are asked for. -/
def latestTransactionCount (address : String) (blockNumOrTag : BlockParam) : m String := do
  let mnNonce ← getAccountLatestEthereumNonce client address
  if blockNumOrTag = .pending then
    return numberTo0x (bigIntOfHex mnNonce + (← client.getPendingCount address) : ℕ)
  else return mnNonce

/-- A hash is told by its length and its prefix, a number by being one. -/
def getTransactionCount (address : String) (blockNumOrTag : BlockParam) : m String :=
  let text := paramText (some blockNumOrTag)
  let blockNum := numberOf blockNumOrTag
  if blockNum = some 0 ∨ blockNum = some 1 then return ZERO_HEX
  else if blockTagIsLatestOrPending (some blockNumOrTag) then
    latestTransactionCount client address blockNumOrTag
  else if blockNumOrTag = .earliest then getAccountNonceForEarliestBlock client
  else if blockNum ≠ none ∧ text.length ≠ BLOCK_HASH_LENGTH then
    getAccountNonceForHistoricBlock config mirror client address (.number (blockNum.getD 0))
  else if text.length = BLOCK_HASH_LENGTH ∧ startsWith text EMPTY_HEX then
    getAccountNonceForHistoricBlock config mirror client address (.hash text)
  else throw (.jsonRpcError (predefined.UNKNOWN_BLOCK ""))

end TransactionCount

end JsonRpcRelay.Account

import JsonRpcRelay.Common.CommonService

/-!
# The fee service

The fee history.  Its errors are caught, and so are those of the fee of a single block.
-/

namespace JsonRpcRelay.Fees

open constants Mirror Common

section Data

structure NetworkFee where
  transactionType : String
  gas : Option ℕ

/-- The request for the fees of the network, which may not be a list. -/
structure FeeClient (m : Type → Type) where
  getNetworkFees : Option Timestamp → m (Option (Option (List NetworkFee)))

structure FeeConfig where
  feeHistoryMaxResults : ℕ := 10
  ethFeeHistoryFixed : Bool := true
  addPercentageBufferToGasPrice : ℕ → ℕ := id

/-- The ratios are all `DEFAULT_GAS_USED_RATIO`; only their number is kept. -/
structure IFeeHistory where
  baseFeePerGas : Option (List String)
  gasUsedRatio : Option ℕ
  oldestBlock : String
  reward : Option (List (List String)) := none
  deriving DecidableEq

/-- An error may be returned in place of the history. -/
inductive FeeHistoryResult where
  | history (history : IFeeHistory)
  | error (e : JsonRpcError)
  deriving DecidableEq

end Data

variable {m : Type → Type} [Monad m] [MonadExceptOf RelayError m]
variable (config : FeeConfig) (mirror : MirrorNodeClient m) (client : FeeClient m)

section Prices

/-- The price of gas in the fees of the network, unless it is zero. -/
def ethereumTransactionGas (networkFees : Option (Option (List NetworkFee))) : Option ℕ :=
  networkFees.bind fun fees => fees.bind fun fees =>
    ((fees.find? fun fee => fee.transactionType = "EthereumTransaction").bind (·.gas)).filter
      (· ≠ 0)

def getGasPriceInWeibars (timestamp : Option Timestamp) : m ℕ := do
  match ethereumTransactionGas (← client.getNetworkFees timestamp) with
  | some gas => return gas * TINYBAR_TO_WEIBAR_COEF
  | none => throw (.jsonRpcError
      (predefined.INTERNAL_ERROR "Failed to retrieve gas price from network fees"))

/-- The part of `gasPrice` whose errors are caught. -/
def bufferedGasPrice : m String := do
  let price ← getGasPriceInWeibars client none
  return numberTo0x (config.addPercentageBufferToGasPrice price : ℕ)

def gasPrice : m String :=
  tryCatch (bufferedGasPrice config client) fun e => throw (genericErrorHandler e)

/-- The price as of the end of a block. -/
def blockFee (blockNumber : ℕ) : m ℕ := do
  match ← mirror.getBlock .fromBlock (.number blockNumber) with
  | some block => getGasPriceInWeibars client (some block.timestampTo)
  | none => throw (typeError "null" "timestamp")

def getFeeByBlockNumber (blockNumber : ℕ) : m String := do
  let fee ← tryCatch (blockFee mirror client blockNumber) fun _ => return 0
  return numberTo0x (fee : ℕ)

end Prices

section History

/-- `Number` of a tag or a number; the validation lets no hash through. -/
def translateBlockTag (lookup : Lookup) (tag : BlockParam) : m ℕ :=
  if blockTagIsLatestOrPending (some tag) then do
    return bigIntOfHex (← getLatestBlockNumber mirror lookup)
  else return tag.toNumber.getD 0

/-- `Array(count).fill(x)`, where `NaN` is `none`. -/
def filled {α : Type} (count : Option ℕ) (x : α) : m (List α) :=
  match count with
  | some count => return List.replicate count x
  | none => throw (.error "Invalid array length")

/-- The rewards are listed if there are percentiles. -/
def rewards {α : Type} (blockCount : Option ℕ) (rewardPercentiles : Option (List α)) :
    m (Option (List (List String))) :=
  match rewardPercentiles with
  | some (percentile :: percentiles) => do
      return some (← filled blockCount
        (List.replicate (percentile :: percentiles).length ZERO_HEX))
  | _ => return none

/-- The first of the blocks up to the newest one and their number, which both start from one. -/
def repeatedBlocks (blockCount : Option ℕ) (newestBlockNumber : ℕ) : Option ℕ × Option ℕ :=
  match blockCount with
  | none => (none, none)
  | some count =>
      if newestBlockNumber + 1 ≤ count then (some 1, some 1)
      else (some (newestBlockNumber + 1 - count), some count)

/-- `numberTo0x` of what may be `NaN`. -/
def numberOrNaNTo0x : Option ℕ → String
  | some n => numberTo0x (n : ℕ)
  | none => EMPTY_HEX ++ "NaN"

def getRepeatedFeeHistory {α : Type} (blockCount oldestBlockNumber : Option ℕ)
    (rewardPercentiles : Option (List α)) (fee : String) : m IFeeHistory := do
  let fees ← filled blockCount fee
  let reward ← rewards blockCount rewardPercentiles
  return { baseFeePerGas := some (fees ++ [fee]), gasUsedRatio := some fees.length
           oldestBlock := numberOrNaNTo0x oldestBlockNumber, reward }

/-- The numbers of the blocks; there are none if their count is `NaN`. -/
def blockNumbers (blockCount : Option ℕ) (newestBlockNumber : ℕ) : List ℕ :=
  match blockCount with
  | some count =>
      List.range' (newestBlockNumber + 1 - count) (min count (newestBlockNumber + 1))
  | none => []

/-- The fee of the next block: the one that is there, else that of the newest block. -/
def nextBaseFee (fees : List String) (newestBlockNumber latestBlockNumber : ℕ) :
    m (Option String) :=
  if latestBlockNumber > newestBlockNumber then do
    return some (← getFeeByBlockNumber mirror client (newestBlockNumber + 1))
  else return fees.getLast?

def getFeeHistory {α : Type} (blockCount : Option ℕ) (newestBlockNumber latestBlockNumber : ℕ)
    (rewardPercentiles : Option (List α)) : m IFeeHistory := do
  let fees ← (blockNumbers blockCount newestBlockNumber).mapM fun blockNumber =>
    getFeeByBlockNumber mirror client blockNumber
  let next ← nextBaseFee mirror client fees newestBlockNumber latestBlockNumber
  let reward ← rewards blockCount rewardPercentiles
  return { baseFeePerGas := some (fees ++ next.toList), gasUsedRatio := some fees.length
           oldestBlock := numberOrNaNTo0x (blockCount.map fun count => newestBlockNumber + 1 - count)
           reward }

def zeroBlockCountResponse : IFeeHistory where
  baseFeePerGas := none
  gasUsedRatio := none
  oldestBlock := ZERO_HEX

def feeHistoryEmptyResponse : IFeeHistory where
  baseFeePerGas := some []
  gasUsedRatio := some 0
  oldestBlock := ZERO_HEX
  reward := some []

def fixedFeeHistory {α : Type} (blockCount : Option ℕ) (newestBlockNumber : ℕ)
    (rewardPercentiles : Option (List α)) : m IFeeHistory := do
  let gasPriceFee ← gasPrice config client
  let blocks := repeatedBlocks blockCount newestBlockNumber
  getRepeatedFeeHistory blocks.2 blocks.1 rewardPercentiles gasPriceFee

/-- The history of blocks that are there. -/
def historyUpTo {α : Type} (blockCount : Option ℕ) (newestBlockNumber latestBlockNumber : ℕ)
    (rewardPercentiles : Option (List α)) : m IFeeHistory :=
  if blockCount = some 0 then return zeroBlockCountResponse
  else if config.ethFeeHistoryFixed then
    fixedFeeHistory config client blockCount newestBlockNumber rewardPercentiles
  else getFeeHistory mirror client blockCount newestBlockNumber latestBlockNumber rewardPercentiles

def newestNumber (newestBlock : BlockParam) (latestBlockNumber : ℕ) : m ℕ :=
  if newestBlock = .latest ∨ newestBlock = .pending then return latestBlockNumber
  else translateBlockTag mirror .toBlock newestBlock

/-- The part of `feeHistory` whose errors are caught. -/
def feeHistoryUncaught {α : Type} (blockCount : Option ℕ) (newestBlock : BlockParam)
    (rewardPercentiles : Option (List α)) : m FeeHistoryResult := do
  let latestBlockNumber ← translateBlockTag mirror .head .latest
  let newestBlockNumber ← newestNumber mirror newestBlock latestBlockNumber
  if newestBlockNumber > latestBlockNumber then
    return .error (predefined.REQUEST_BEYOND_HEAD_BLOCK newestBlockNumber latestBlockNumber)
  else do
    let count := blockCount.map (min · config.feeHistoryMaxResults)
    return .history
      (← historyUpTo config mirror client count newestBlockNumber latestBlockNumber
        rewardPercentiles)

/-- The number of blocks is `none` for `NaN`.  Of the percentiles only their number matters. -/
def feeHistory {α : Type} (blockCount : Option ℕ) (newestBlock : BlockParam)
    (rewardPercentiles : Option (List α)) : m FeeHistoryResult :=
  if rewardPercentiles.any (·.length > FEE_HISTORY_REWARD_PERCENTILES_MAX_SIZE) then
    throw (.jsonRpcError (predefined.INVALID_PARAMETER "2"
      (s!"Reward percentiles size {(rewardPercentiles.getD []).length} is greater than the " ++
        s!"maximum allowed size {FEE_HISTORY_REWARD_PERCENTILES_MAX_SIZE}")))
  else
    tryCatch (feeHistoryUncaught config mirror client blockCount newestBlock rewardPercentiles)
      fun _ => return .history feeHistoryEmptyResponse

end History

end JsonRpcRelay.Fees

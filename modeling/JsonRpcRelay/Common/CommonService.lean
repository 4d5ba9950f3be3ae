import JsonRpcRelay.Blocks.Model
import JsonRpcRelay.Framework.Binary64
import Mathlib.Data.List.Sort

/-!
# The common service

Block parameters, the range checks of the log queries, and the log queries themselves.  The
functions are written for any monad with the requests to the mirror node, so that they run
against one chain and interleaved with its growth.
-/

namespace JsonRpcRelay.Common

open constants Framework Js Mirror Blocks

/-- A block as it is named in a request: by a tag, in hexadecimal by its number or its hash of 32
bytes, or by a number of the language. -/
inductive BlockParam where
  | earliest
  | latest
  | pending
  | safe
  | finalized
  | hex (text : String)
  | hash (text : String)
  | number (n : ℕ)
  deriving DecidableEq

namespace BlockParam

/-- `Number(param)` of what is no hash, where `NaN` is `none`. -/
def toNumber : BlockParam → Option ℕ
  | .hex text => some (bigIntOfHex text)
  | .number n => some n
  | _ => none

/-- `/^0[xX]([1-9A-Fa-f][0-9A-Fa-f]{0,13}|0)$/` for a safe integer. -/
def isBlockNumberText (text : String) : Bool :=
  match text.toList with
  | '0' :: x :: digits =>
      (x = 'x' ∨ x = 'X') ∧ digits ≠ [] ∧ digits.length ≤ 14 ∧ digits.all isHexDigit ∧
        (digits.head? ≠ some '0' ∨ digits = ['0']) ∧ bigIntOfHex text < 2 ^ 53
  | _ => false

/-- The parameter type `blockNumber` of the validation. -/
def isBlockNumber : BlockParam → Bool
  | .hex text => isBlockNumberText text
  | .hash _ | .number _ => false
  | _ => true

end BlockParam

/-- `null` and `undefined` count as the latest block. -/
def blockTagIsLatestOrPending : Option BlockParam → Bool
  | none | some .latest | some .pending | some .safe | some .finalized => true
  | _ => false

/-- How the functions below write a tag of the latest block. -/
def latestIfTag (param : Option BlockParam) : Option BlockParam :=
  if blockTagIsLatestOrPending param then some .latest else param

/-- `!param`. -/
def isMissing : Option BlockParam → Bool
  | none | some (.number 0) => true
  | _ => false

inductive BlockId where
  | number (n : ℕ)
  | hash (text : String)
  deriving DecidableEq

/-- What a block is looked up for. -/
inductive Lookup where
  | creation
  | head
  | fromBlock
  | toBlock
  | cursor
  deriving DecidableEq

/-- An address or a list of addresses, if any. -/
inductive AddressFilter where
  | none
  | one (address : String)
  | many (addresses : List String)
  deriving DecidableEq

def AddressFilter.isSingleAddress : AddressFilter → Bool
  | .none => false
  | .one address => address ≠ ""
  | .many addresses => addresses.length = 1

/-- What the topic at one position has to be. -/
inductive TopicFilter where
  | null
  | one (topic : String)
  | oneOf (topics : List (Option String))
  deriving DecidableEq

/-- The parameters of a query: a range of timestamps, and for each position with a condition the
topics that are accepted there. -/
structure LogParams where
  timestampFrom : Timestamp
  timestampTo : Timestamp
  topics : List (ℕ × List String)
  deriving DecidableEq

structure CommonConfig where
  maxBlockRange : ℕ := 5
  logsBlockRangeLimit : ℕ := 1000

/-- Seven days in seconds. -/
def maxTimestampParamRange : ℕ := 604800

/-- The double next to a timestamp, in units of `2 ^ -82` seconds.  A nanosecond has 53 bits
there. -/
def timestampNumber : Timestamp → ℕ
  | 0 => 0
  | t + 1 => roundQuotient ((t + 1) * 2 ^ 82) (10 ^ 9)

/-- The difference of two timestamps, which are read as doubles, in the same units. -/
def timestampDiff (toTimestamp fromTimestamp : Timestamp) : ℤ :=
  let difference : ℤ := timestampNumber toTimestamp - timestampNumber fromTimestamp
  difference.sign * roundNat difference.natAbs

def ExceedsRange (toTimestamp fromTimestamp : Timestamp) : Prop :=
  timestampDiff toTimestamp fromTimestamp > (maxTimestampParamRange * 2 ^ 82 : ℕ)

instance (toTimestamp fromTimestamp : Timestamp) :
    Decidable (ExceedsRange toTimestamp fromTimestamp) := inferInstanceAs (Decidable (_ > _))

/-- The requests to the mirror node.  A query for logs without an address is for all of them. -/
structure MirrorNodeClient (m : Type → Type) where
  getLatestBlock : Lookup → m (Option (List MirrorNodeBlock))
  getBlock : Lookup → BlockId → m (Option MirrorNodeBlock)
  getLogs : Option String → LogParams → m (List MirrorNodeLog)

/-- An error behind the workers pool. -/
def unwrapError : RelayError → RelayError
  | .jsonRpcError e => .jsonRpcError e
  | .mirrorNodeClientError statusCode message => .mirrorNodeClientError statusCode message
  | _ => .jsonRpcError (predefined.INTERNAL_ERROR "Failed unwrapping piscina error.")

def genericErrorHandler : RelayError → RelayError
  | .error message => .jsonRpcError (predefined.INTERNAL_ERROR message)
  | e => e

section Topics

def trimTopic (message : String) (i : ℕ) (topic : Option String) : Except RelayError String :=
  match topic.bind trimPrecedingZeros with
  | some trimmed => .ok trimmed
  | none => .error (.jsonRpcError (predefined.INVALID_PARAMETER (toString i) message))

/-- The topics that are accepted at position `i`. -/
def topicParam (i : ℕ) : TopicFilter → Except RelayError (Option (List String))
  | .null => .ok none
  | .one topic =>
      (trimTopic s!"Topic {i} is not a valid hex string" i (some topic)).map fun t => some [t]
  | .oneOf topics =>
      if topics.length > 100 then
        .error (.jsonRpcError (predefined.INVALID_PARAMETER (toString i)
          s!"Topic {i} exceeds maximum nested length of 100"))
      else
        (topics.zipIdx.mapM fun (t : Option String × ℕ) =>
          trimTopic s!"Topic {i}[{t.2}] is not a valid hex string" i t.1).map some

def addTopicsToParams (topics : Option (List TopicFilter)) :
    Except RelayError (List (ℕ × List String)) := do
  let params ← (topics.getD []).zipIdx.mapM fun (topic, i) => do
    let accepted ← topicParam i topic
    return accepted.map fun ts => (i, ts)
  return params.filterMap id

end Topics

section Blocks

variable {m : Type → Type} [Monad m] [MonadExceptOf RelayError m]
variable (config : CommonConfig) (mirror : MirrorNodeClient m)

/-- `blocks[0]` of the latest block. -/
def latestBlock (lookup : Lookup) : m (Option MirrorNodeBlock) := do
  match ← mirror.getLatestBlock lookup with
  | none => throw (typeError "null" "blocks")
  | some blocks => return blocks.head?

/-- The most recent block number, in hexadecimal. -/
def getLatestBlockNumber (lookup : Lookup) : m String := do
  match ← mirror.getLatestBlock lookup with
  | some (block :: _) => return numberTo0x block.number
  | _ => throw (.jsonRpcError predefined.COULD_NOT_RETRIEVE_LATEST_BLOCK)

/-- A number too far beyond the last block is not looked up. -/
def getBlockWithinRange (lookup : Lookup) (n : ℕ) : m (Option MirrorNodeBlock) := do
  match ← latestBlock mirror .head with
  | none => throw (typeError "undefined" "number")
  | some latest =>
      if n > latest.number + config.maxBlockRange then return none
      else mirror.getBlock lookup (.number n)

def getHistoricalBlockResponse (lookup : Lookup) (param : Option BlockParam)
    (returnLatest : Bool := true) : m (Option MirrorNodeBlock) :=
  if !returnLatest && blockTagIsLatestOrPending param then return none
  else
    match param with
    | some .earliest => mirror.getBlock lookup (.number 0)
    | some (.hex text) =>
        if text = EMPTY_HEX then return none
        else getBlockWithinRange config mirror lookup (bigIntOfHex text)
    | some (.hash text) => mirror.getBlock lookup (.hash text)
    | some (.number n) => mirror.getBlock lookup (.number n)
    | _ => latestBlock mirror lookup

/-- What both range checks require of a `toBlock` that is no tag of the latest block. -/
def requireFromBlock (fromBlock toBlock : Option BlockParam) : m Unit := do
  if blockTagIsLatestOrPending toBlock then return ()
  else
    let latestBlockNumber ← getLatestBlockNumber mirror .head
    if toBlock.bind (·.toNumber) ≠ some (bigIntOfHex latestBlockNumber) ∧ isMissing fromBlock then
      throw (.jsonRpcError predefined.MISSING_FROM_BLOCK_PARAM)
    else return ()

/-- The check of the range between two blocks that were found. -/
def checkRange (address : AddressFilter) (fromBlock toBlock : MirrorNodeBlock) :
    Except RelayError Unit :=
  if ExceedsRange toBlock.timestampTo fromBlock.timestampFrom then
    .error (.jsonRpcError (predefined.TIMESTAMP_RANGE_TOO_LARGE (numberTo0x fromBlock.number)
      fromBlock.timestampFrom.text (numberTo0x toBlock.number) toBlock.timestampTo.text))
  else if fromBlock.number > toBlock.number then
    .error (.jsonRpcError predefined.INVALID_BLOCK_RANGE)
  else if ¬address.isSingleAddress ∧ toBlock.number - fromBlock.number > config.logsBlockRangeLimit
  then .error (.jsonRpcError (predefined.RANGE_TOO_LARGE config.logsBlockRangeLimit))
  else .ok ()

/-- The end of the range, behind the block at its start. -/
def timestampRangeFrom (fromBlock toBlock : Option BlockParam) (address : AddressFilter)
    (fromBlockResponse : MirrorNodeBlock) : m (Option (Timestamp × Timestamp)) :=
  if fromBlock = toBlock then
    return some (fromBlockResponse.timestampFrom, fromBlockResponse.timestampTo)
  else do
    match ← getHistoricalBlockResponse config mirror .toBlock toBlock with
    | none => return none
    | some toBlockResponse =>
        match checkRange config address fromBlockResponse toBlockResponse with
        | .error e => throw e
        | .ok () => return some (fromBlockResponse.timestampFrom, toBlockResponse.timestampTo)

/-- The range of timestamps of a log query, or none if a block of it is not there. -/
def validateBlockRangeAndAddTimestampToParams (fromBlock toBlock : Option BlockParam)
    (address : AddressFilter) : m (Option (Timestamp × Timestamp)) := do
  requireFromBlock mirror fromBlock toBlock
  match ← getHistoricalBlockResponse config mirror .fromBlock (latestIfTag fromBlock) with
  | none => return none
  | some fromBlockResponse =>
      timestampRangeFrom config mirror (latestIfTag fromBlock) (latestIfTag toBlock) address
        fromBlockResponse

/-- The range of timestamps of one block. -/
def validateBlockHashAndAddTimestampToParams (blockHash : String) :
    m (Option (Timestamp × Timestamp)) :=
  tryCatch
    (do
      match ← mirror.getBlock .fromBlock (.hash blockHash) with
      | none => return none
      | some block => return some (block.timestampFrom, block.timestampTo))
    fun
      | .mirrorNodeClientError 404 _ => return none
      | e => throw e

/-- The number of a parameter in `validateBlockRange`: `NaN` is `none`, and the `null` of a tag
acts as zero. -/
def boundNumber (param : Option BlockParam) : Option ℕ :=
  if blockTagIsLatestOrPending param then some 0 else param.bind (·.toNumber)

/-- The numbers of a range of which one is not set, where the blocks are looked up. -/
def lookUpBounds (fromBlock toBlock : Option BlockParam) : m (Option ℕ × Option ℕ) := do
  let fromBlockResponse ←
    getHistoricalBlockResponse config mirror .creation (latestIfTag fromBlock)
  let toBlockResponse ← getHistoricalBlockResponse config mirror .creation (latestIfTag toBlock)
  return ((fromBlockResponse.map (·.number)).or (boundNumber fromBlock),
    (toBlockResponse.map (·.number)).or (boundNumber toBlock))

/-- `fromBlockNumber > toBlockNumber`. -/
def exceeds : Option ℕ → Option ℕ → Bool
  | some a, some b => a > b
  | _, _ => false

def validateBlockRange (fromBlock toBlock : Option BlockParam) : m Bool := do
  requireFromBlock mirror fromBlock toBlock
  let isSet (n : Option ℕ) : Bool := n ≠ none ∧ n ≠ some 0
  let bounds ←
    if isSet (boundNumber fromBlock) && isSet (boundNumber toBlock) then
      pure (boundNumber fromBlock, boundNumber toBlock)
    else lookUpBounds config mirror fromBlock toBlock
  if exceeds bounds.1 bounds.2 then throw (.jsonRpcError predefined.INVALID_BLOCK_RANGE)
  else return true

end Blocks

section Logs

variable {m : Type → Type} [Monad m] [MonadExceptOf RelayError m]
variable (config : CommonConfig) (mirror : MirrorNodeClient m)

/-- There are no logs of the zero address. -/
def getContractResultsLogsByAddress (params : LogParams) (address : String) :
    m (List MirrorNodeLog) :=
  if address = ZERO_ADDRESS_HEX then return [] else mirror.getLogs (some address) params

/-- One query for each address, and all the logs in the order of their timestamps. -/
def getLogsByAddress (addresses : List String) (params : LogParams) : m (List MirrorNodeLog) := do
  let logResults ← addresses.mapM (getContractResultsLogsByAddress mirror params)
  return logResults.flatten.mergeSort fun a b => a.timestamp ≤ b.timestamp

def getLogRecords (address : AddressFilter) (params : LogParams) : m (List MirrorNodeLog) :=
  match address with
  | .none => mirror.getLogs none params
  | .one address =>
      if address = "" then mirror.getLogs none params else getLogsByAddress mirror [address] params
  | .many addresses => getLogsByAddress mirror addresses params

def getLogsWithParams (address : AddressFilter) (params : LogParams) : m (List Log) :=
  return (← getLogRecords mirror address params).map Log.ofRecord

/-- The query behind the validated range. -/
def queryLogs (address : AddressFilter) (topics : Option (List TopicFilter))
    (range : Timestamp × Timestamp) : m (List Log) :=
  match addTopicsToParams topics with
  | .error e => throw e
  | .ok topics => getLogsWithParams mirror address ⟨range.1, range.2, topics⟩

/-- `getLogs` as the worker runs it. -/
def getLogsInWorker (blockHash : Option String) (fromBlock toBlock : Option BlockParam)
    (address : AddressFilter) (topics : Option (List TopicFilter)) : m (List Log) := do
  let range ← match blockHash with
    | some blockHash => validateBlockHashAndAddTimestampToParams mirror blockHash
    | none => validateBlockRangeAndAddTimestampToParams config mirror fromBlock toBlock address
  match range with
  | none => return []
  | some range => queryLogs mirror address topics range

def getLogs (blockHash : Option String) (fromBlock toBlock : Option BlockParam)
    (address : AddressFilter) (topics : Option (List TopicFilter)) : m (List Log) :=
  tryCatch (getLogsInWorker config mirror blockHash fromBlock toBlock address topics)
    fun e => throw (unwrapError e)

end Logs

end JsonRpcRelay.Common

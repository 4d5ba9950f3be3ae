import JsonRpcRelay.Common.LogQueries
import JsonRpcRelay.Framework.Interleaving

/-!
# The filter service

The calls on one filter: it is created, polled, read again and uninstalled.  A request reads or
writes the record of the filter, or is one query to the mirror node; between two requests the
chain may grow and other calls may run.
-/

namespace JsonRpcRelay.Filters

open constants Mirror Common Framework
open Blocks (Log)

/-- What `eth_newFilter` is called with. -/
structure NewFilterParams where
  fromBlock : Option BlockParam := none
  toBlock : Option BlockParam := none
  address : AddressFilter := .none
  topics : Option (List TopicFilter) := none
  fromValid : ∀ param ∈ fromBlock, param.isBlockNumber
  toValid : ∀ param ∈ toBlock, param.isBlockNumber

structure LogFilterParams where
  fromBlock : BlockParam
  toBlock : BlockParam
  address : AddressFilter
  topics : Option (List TopicFilter)
  deriving DecidableEq

/-- The type of a filter with its parameters. -/
inductive FilterParams where
  | log (params : LogFilterParams)
  | newBlock (blockAtCreation : String)
  deriving DecidableEq

structure Filter where
  params : FilterParams
  lastQueried : Option ℕ
  deriving DecidableEq

/-- What a poll returns. -/
inductive Answer where
  | logs (logs : List Log)
  | hashes (hashes : List String)
  deriving DecidableEq

structure FilterConfig extends CommonConfig where
  filterApiEnabled : Bool := true

inductive FilterOp where
  | getFilter
  | setFilter (filter : Filter)
  | deleteFilter
  | getLatestBlock (lookup : Lookup)
  | getBlock (lookup : Lookup) (id : BlockId)
  /-- The blocks behind a number, in ascending order. -/
  | getBlocks (gt : ℕ)
  | getLogs (address : Option String) (params : LogParams)
  deriving DecidableEq

def FilterOp.Reply : FilterOp → Type
  | .getFilter => Option Filter
  | .setFilter _ | .deleteFilter => Unit
  | .getLatestBlock _ => Option (List MirrorNodeBlock)
  | .getBlock _ _ => Option MirrorNodeBlock
  | .getBlocks _ => Option (List MirrorNodeBlock)
  | .getLogs _ _ => List MirrorNodeLog

section Service

abbrev FilterM := ExceptT RelayError (Prog FilterOp FilterOp.Reply)

def request (op : FilterOp) : FilterM op.Reply := ExceptT.lift (Prog.call op)

def mirrorNodeClient : MirrorNodeClient FilterM where
  getLatestBlock lookup := request (.getLatestBlock lookup)
  getBlock lookup id := request (.getBlock lookup id)
  getLogs address params := request (.getLogs address params)

variable (config : FilterConfig)

def requireFiltersEnabled : FilterM Unit :=
  if config.filterApiEnabled then return ()
  else throw (.jsonRpcError predefined.UNSUPPORTED_METHOD)

def createFilter (params : FilterParams) : FilterM Unit :=
  request (.setFilter { params, lastQueried := none })

/-- A filter from the latest block on is one from the block that is the latest now. -/
def creationBlock (fromBlock : BlockParam) : FilterM BlockParam :=
  if fromBlock = .latest then
    .hex <$> getLatestBlockNumber mirrorNodeClient .creation
  else return fromBlock

def newFilter (params : NewFilterParams) : FilterM Unit :=
  tryCatch
    (do
      requireFiltersEnabled config
      let fromBlock := params.fromBlock.getD .latest
      let toBlock := params.toBlock.getD .latest
      let valid ← validateBlockRange config.toCommonConfig mirrorNodeClient (some fromBlock)
        (some toBlock)
      if !valid then throw (.jsonRpcError predefined.INVALID_BLOCK_RANGE)
      else
        let fromBlock ← creationBlock fromBlock
        createFilter (.log
          { fromBlock, toBlock, address := params.address, topics := params.topics }))
    fun e => throw (genericErrorHandler e)

def newBlockFilter : FilterM Unit := do
  requireFiltersEnabled config
  let blockAtCreation ← getLatestBlockNumber mirrorNodeClient .creation
  createFilter (.newBlock blockAtCreation)

def uninstallFilter : FilterM Bool := do
  requireFiltersEnabled config
  match ← request .getFilter with
  | none => return false
  | some _ =>
      request .deleteFilter
      return true

def getFilterLogs : FilterM (List Log) := do
  requireFiltersEnabled config
  match ← request .getFilter with
  | some ⟨.log params, lastQueried⟩ =>
      let logs ← getLogs config.toCommonConfig mirrorNodeClient none (some params.fromBlock)
        (some params.toBlock) params.address params.topics
      -- to refresh the time to live
      request (.setFilter ⟨.log params, lastQueried⟩)
      return logs
  | _ => throw (.jsonRpcError predefined.FILTER_NOT_FOUND)

/-- `lastQueried || fromBlock`. -/
def startBlock (params : LogFilterParams) : Option ℕ → BlockParam
  | none | some 0 => params.fromBlock
  | some (n + 1) => .number (n + 1)

/-- The query for logs executes `gte` and not `gt`. -/
def nextLogCursor (result : List Log) : FilterM ℕ :=
  match result.getLast? with
  | some log => return bigIntOfHex log.blockNumber + 1
  | none => (bigIntOfHex · + 1) <$> getLatestBlockNumber mirrorNodeClient .cursor

def handleLogFilterChanges (params : LogFilterParams) (lastQueried : Option ℕ) :
    FilterM (List Log × ℕ) := do
  let result ← getLogs config.toCommonConfig mirrorNodeClient none
    (some (startBlock params lastQueried)) (some params.toBlock) params.address params.topics
  let latestBlockNumber ← nextLogCursor result
  return (result, latestBlockNumber)

/-- `lastQueried || blockAtCreation`. -/
def blockCursor (blockAtCreation : String) : Option ℕ → ℕ
  | none | some 0 => bigIntOfHex blockAtCreation
  | some (n + 1) => n + 1

def nextBlockCursor (blocks : List MirrorNodeBlock) : FilterM ℕ :=
  match blocks.getLast? with
  | some block => return block.number
  | none => bigIntOfHex <$> getLatestBlockNumber mirrorNodeClient .cursor

def handleNewBlockFilterChanges (blockAtCreation : String) (lastQueried : Option ℕ) :
    FilterM (List String × ℕ) := do
  let blockResponse ← request (.getBlocks (blockCursor blockAtCreation lastQueried))
  let blocks := blockResponse.getD []
  let latestBlockNumber ← nextBlockCursor blocks
  return (blocks.map fun block => toHash32 block.hash, latestBlockNumber)

def handleChanges (filter : Filter) : FilterM (Answer × ℕ) :=
  match filter.params with
  | .log params =>
      (fun r => (.logs r.1, r.2)) <$> handleLogFilterChanges config params filter.lastQueried
  | .newBlock blockAtCreation =>
      (fun r => (.hashes r.1, r.2)) <$> handleNewBlockFilterChanges blockAtCreation
        filter.lastQueried

def getFilterChanges : FilterM Answer := do
  requireFiltersEnabled config
  match ← request .getFilter with
  | none => throw (.jsonRpcError predefined.FILTER_NOT_FOUND)
  | some filter =>
      let (result, latestBlockNumber) ← handleChanges config filter
      request (.setFilter { filter with lastQueried := some latestBlockNumber })
      return result

end Service

section Protocol

/-- The chain and the record of the filter. -/
structure FilterState where
  chain : Chain
  filter : Option Filter

/-- A page of blocks has `page + 1` blocks, if there are as many. -/
def FilterState.act : (op : FilterOp) → (page : ℕ) → FilterState →
    Option (op.Reply × FilterState)
  | .getFilter, _, s => some (s.filter, s)
  | .setFilter filter, _, s => some ((), { s with filter := some filter })
  | .deleteFilter, _, s => some ((), { s with filter := none })
  | .getLatestBlock _, _, s => some (some [s.chain.latest], s)
  | .getBlock _ id, _, s => some (findBlock s.chain id, s)
  | .getBlocks gt, page, s => some (some ((s.chain.blocksAfter gt).take (page + 1)), s)
  | .getLogs address params, _, s => some (queryChain s.chain address params, s)

/-- The environment adds a block to the chain. -/
def FilterState.env (b : ChainBlock) (s : FilterState) : Option FilterState :=
  (s.chain.append b).map fun chain => { s with chain }

/-- The protocol with a record of each thread that notes what its requests have shown. -/
def filterProtocol {L : Type}
    (note : L → (op : FilterOp) → op.Reply → FilterState → FilterState → L) :
    Protocol FilterOp FilterOp.Reply ℕ ChainBlock FilterState L where
  act := FilterState.act
  env := FilterState.env
  note := note

end Protocol

end JsonRpcRelay.Filters

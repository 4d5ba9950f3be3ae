import JsonRpcRelay.Cache.CacheDecorator
import JsonRpcRelay.Validators.ObjectTypes

/-!
# The cached methods

The methods under the cache decorator with the rules for their parameters, the arrangement of
the parameters as arguments, and the options of the cache.
-/

namespace JsonRpcRelay.Cache

open constants Framework Validators

inductive CachedMethod where
  | feeHistory
  | getStorageAt
  | getBalance
  | getCode
  | getBlockByHash
  | getBlockTransactionCountByHash
  | getBlockTransactionCountByNumber
  | getTransactionByBlockHashAndIndex
  | getTransactionByBlockNumberAndIndex
  | getBlockByNumber
  | getTransactionCount
  | call
  | getTransactionByHash
  | getTransactionReceipt
  | getLogs
  | getBlockReceipts
  | traceTransaction
  | traceBlockByNumber
  deriving DecidableEq

namespace CachedMethod

def name : CachedMethod → String
  | feeHistory => "feeHistory"
  | getStorageAt => "getStorageAt"
  | getBalance => "getBalance"
  | getCode => "getCode"
  | getBlockByHash => "getBlockByHash"
  | getBlockTransactionCountByHash => "getBlockTransactionCountByHash"
  | getBlockTransactionCountByNumber => "getBlockTransactionCountByNumber"
  | getTransactionByBlockHashAndIndex => "getTransactionByBlockHashAndIndex"
  | getTransactionByBlockNumberAndIndex => "getTransactionByBlockNumberAndIndex"
  | getBlockByNumber => "getBlockByNumber"
  | getTransactionCount => "getTransactionCount"
  | call => "call"
  | getTransactionByHash => "getTransactionByHash"
  | getTransactionReceipt => "getTransactionReceipt"
  | getLogs => "getLogs"
  | getBlockReceipts => "getBlockReceipts"
  | traceTransaction => "traceTransaction"
  | traceBlockByNumber => "traceBlockByNumber"

section Rules

def required (type : IType) : IParamValidation := { type := .one type, required := true }

def optional (type : IType) : IParamValidation := { type := .one type, required := false }

def blockNumberOrHash : IParamValidation :=
  { type := .oneOf [TYPES.blockNumber, TYPES.blockHash], required := true }

/-- The rules for the parameters of a method. -/
def rules : CachedMethod → List IParamValidation
  | feeHistory => [required TYPES.hex, required TYPES.blockNumber, optional TYPES.array]
  | getStorageAt => [required TYPES.address, required TYPES.hex64, blockNumberOrHash]
  | getBalance | getCode | getTransactionCount => [required TYPES.address, blockNumberOrHash]
  | getBlockByHash => [required TYPES.blockHash, required TYPES.boolean]
  | getBlockTransactionCountByHash => [required TYPES.blockHash]
  | getBlockTransactionCountByNumber => [required TYPES.blockNumber]
  | getTransactionByBlockHashAndIndex => [required TYPES.blockHash, required TYPES.hex]
  | getTransactionByBlockNumberAndIndex => [required TYPES.blockNumber, required TYPES.hex]
  | getBlockByNumber => [required TYPES.blockNumber, required TYPES.boolean]
  | call => [required TYPES.transaction, required TYPES.blockParams, optional TYPES.stateOverride]
  | getTransactionByHash | getTransactionReceipt => [required TYPES.transactionHash]
  | getLogs => [required TYPES.filter]
  | getBlockReceipts => [blockNumberOrHash]
  | traceTransaction => [required TYPES.transactionHash, optional TYPES.tracerConfigWrapper]
  | traceBlockByNumber => [required TYPES.blockNumber, optional TYPES.tracerConfigWrapper]

end Rules

section Options

/-- The results for a block that is named by a tag of the latest one are not stored. -/
def skipBlockParam (index : ℕ) : CacheOptions :=
  { skipParams := [⟨index, NON_CACHABLE_BLOCK_PARAMS⟩] }

def options : CachedMethod → CacheOptions
  | getStorageAt => skipBlockParam 2
  | feeHistory | getBalance | getCode | getTransactionCount | call => skipBlockParam 1
  | getBlockTransactionCountByNumber | getTransactionByBlockNumberAndIndex | getBlockByNumber
  | getBlockReceipts | traceBlockByNumber => skipBlockParam 0
  | getLogs =>
      { skipNamedParams := [⟨0, [⟨"fromBlock", NON_CACHABLE_BLOCK_PARAMS⟩,
          ⟨"toBlock", NON_CACHABLE_BLOCK_PARAMS⟩]⟩] }
  | getBlockByHash | getBlockTransactionCountByHash | getTransactionByBlockHashAndIndex
  | getTransactionByHash | getTransactionReceipt | traceTransaction => {}

end Options

section Arguments

def param (params : List Json) (index : ℕ) : Arg := params[index]?.elim .undefined .json

variable (toNumber : Arg → Number)

/-- The arguments of the method in front of the details of the request, with `Number(x)` for
`toNumber x`. -/
def layout (params : List Json) : CachedMethod → List Arg
  | feeHistory => [.json (.number (toNumber (param params 0))), param params 1, param params 2]
  | getStorageAt => [param params 0, param params 1, param params 2]
  | traceTransaction | traceBlockByNumber => [param params 0, param params 1]
  | _ => params.map .json

/-- The arguments of a request that is valid. -/
def args (method : CachedMethod) (params : List Json) : Except JsonRpcError (List Arg) := do
  let params ← validateParams params method.rules
  return layout toNumber params method

def cacheKey (method : CachedMethod) (args : List Arg) : String :=
  generateCacheKey method.name (args ++ [.requestDetails])

def stores (method : CachedMethod) (args : List Arg) (isTruthy : Bool) : Bool :=
  shouldStore method.options (args ++ [.requestDetails]) isTruthy

end Arguments

end CachedMethod

end JsonRpcRelay.Cache

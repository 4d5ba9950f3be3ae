import JsonRpcRelay.Cache.CachedMethods

/-!
# The registered methods

The methods of the namespaces with their parameters, the rules for the parameters of a request and
the layout of the arguments, and what the dispatcher calls a method with.
-/

namespace JsonRpcRelay.Dispatcher

open Framework Validators Cache
open Cache.CachedMethod (required optional)

/-- An element of the array that a custom layout returns. -/
inductive Pick where
  | param (index : ℕ)
  | numberOf (index : ℕ)

/-- The layout of a method, which is not configured for the standard one. -/
inductive RpcLayout where
  | requestDetailsOnly
  | custom (picks : List Pick)
  | standard

/-- A method with its parameters, the last of which may be the details of the request, and with
what its decorators attach to it. -/
structure OperationHandler where
  parameters : List String := []
  takesRequestDetails : Bool := true
  rules : Option (List IParamValidation) := none
  layout : RpcLayout := .standard

section Methods

def requestDetailsOnly (takesRequestDetails : Bool) : OperationHandler :=
  { takesRequestDetails, layout := .requestDetailsOnly }

def cached (method : CachedMethod) (parameters : List String) : OperationHandler :=
  { parameters, rules := some method.rules }

namespace eth

def accounts : OperationHandler := requestDetailsOnly true

def feeHistory : OperationHandler :=
  { cached .feeHistory ["blockCount", "newestBlock", "rewardPercentiles"] with
    layout := .custom [.numberOf 0, .param 1, .param 2] }

def blockNumber : OperationHandler := requestDetailsOnly true

def chainId : OperationHandler := requestDetailsOnly false

def estimateGas : OperationHandler where
  parameters := ["transaction", "_blockParam"]
  rules := some [required TYPES.transaction, optional TYPES.blockNumber]
  layout := .custom [.param 0, .param 1]

def gasPrice : OperationHandler := requestDetailsOnly true

def mining : OperationHandler := requestDetailsOnly false

def newFilter : OperationHandler where
  parameters := ["params"]
  rules := some [required TYPES.filter]

def getFilterLogs : OperationHandler where
  parameters := ["filterId"]
  rules := some [required TYPES.hex]

def getFilterChanges : OperationHandler where
  parameters := ["filterId"]
  rules := some [required TYPES.hex]

def newBlockFilter : OperationHandler := requestDetailsOnly true

def uninstallFilter : OperationHandler where
  parameters := ["filterId"]
  rules := some [required TYPES.hex]
  takesRequestDetails := false

def newPendingTransactionFilter : OperationHandler := requestDetailsOnly false

def submitWork : OperationHandler := requestDetailsOnly false

def syncing : OperationHandler := requestDetailsOnly false

def getUncleByBlockHashAndIndex : OperationHandler where
  parameters := ["blockHash", "index"]
  rules := some [optional TYPES.blockHash, optional TYPES.hex]
  takesRequestDetails := false

def getUncleByBlockNumberAndIndex : OperationHandler where
  parameters := ["blockNumOrTag", "index"]
  rules := some [optional TYPES.blockNumber, optional TYPES.hex]
  takesRequestDetails := false

def getUncleCountByBlockHash : OperationHandler where
  parameters := ["blockHash"]
  rules := some [optional TYPES.blockHash]
  takesRequestDetails := false

def getUncleCountByBlockNumber : OperationHandler where
  parameters := ["blockNumOrTag"]
  rules := some [optional TYPES.blockNumber]
  takesRequestDetails := false

def hashrate : OperationHandler := requestDetailsOnly false

def getWork : OperationHandler := requestDetailsOnly false

def submitHashrate : OperationHandler := requestDetailsOnly false

def signTransaction : OperationHandler := requestDetailsOnly false

def sign : OperationHandler := requestDetailsOnly false

def sendTransaction : OperationHandler := requestDetailsOnly false

def protocolVersion : OperationHandler := requestDetailsOnly false

def coinbase : OperationHandler := requestDetailsOnly false

def simulateV1 : OperationHandler := requestDetailsOnly false

def blobBaseFee : OperationHandler := requestDetailsOnly false

def getStorageAt : OperationHandler :=
  { cached .getStorageAt ["address", "slot", "blockNumberOrTagOrHash"] with
    layout := .custom [.param 0, .param 1, .param 2] }

def getBalance : OperationHandler := cached .getBalance ["account", "blockNumberOrTagOrHash"]

def getCode : OperationHandler := cached .getCode ["address", "blockNumber"]

def getBlockByHash : OperationHandler := cached .getBlockByHash ["hash", "showDetails"]

def getBlockTransactionCountByHash : OperationHandler :=
  cached .getBlockTransactionCountByHash ["hash"]

def getBlockTransactionCountByNumber : OperationHandler :=
  cached .getBlockTransactionCountByNumber ["blockNumOrTag"]

def getTransactionByBlockHashAndIndex : OperationHandler :=
  cached .getTransactionByBlockHashAndIndex ["blockHash", "transactionIndex"]

def getTransactionByBlockNumberAndIndex : OperationHandler :=
  cached .getTransactionByBlockNumberAndIndex ["blockNumOrTag", "transactionIndex"]

def getBlockByNumber : OperationHandler := cached .getBlockByNumber ["blockNumOrTag", "showDetails"]

def getTransactionCount : OperationHandler :=
  cached .getTransactionCount ["address", "blockNumOrTag"]

def sendRawTransaction : OperationHandler where
  parameters := ["transaction"]
  rules := some [required TYPES.hex]

def call : OperationHandler := cached .call ["call", "blockParam"]

def getTransactionByHash : OperationHandler := cached .getTransactionByHash ["hash"]

def getTransactionReceipt : OperationHandler := cached .getTransactionReceipt ["hash"]

def getLogs : OperationHandler := cached .getLogs ["params"]

def maxPriorityFeePerGas : OperationHandler := requestDetailsOnly false

def getBlockReceipts : OperationHandler := cached .getBlockReceipts ["blockHashOrBlockNumber"]

def getProof : OperationHandler := requestDetailsOnly false

def createAccessList : OperationHandler := requestDetailsOnly false

end eth

namespace debug

def traceTransaction : OperationHandler :=
  { cached .traceTransaction ["transactionIdOrHash", "tracerObject"] with
    layout := .custom [.param 0, .param 1] }

def traceBlockByNumber : OperationHandler :=
  { cached .traceBlockByNumber ["blockNumber", "tracerObject"] with
    layout := .custom [.param 0, .param 1] }

end debug

namespace net

def listening : OperationHandler := { takesRequestDetails := false }

def version : OperationHandler := { takesRequestDetails := false }

def peerCount : OperationHandler := { takesRequestDetails := false }

end net

namespace web3

def clientVersion : OperationHandler := { takesRequestDetails := false }

def sha3 : OperationHandler where
  parameters := ["input"]
  rules := some [required TYPES.hex]
  takesRequestDetails := false

end web3

namespace txpool

def content : OperationHandler := { rules := some [], takesRequestDetails := false }

def contentFrom : OperationHandler where
  parameters := ["address"]
  rules := some [required TYPES.address]
  takesRequestDetails := false

def status : OperationHandler := { rules := some [], takesRequestDetails := false }

end txpool

/-- The methods that are decorated as methods of the API; `AdminImpl` has none. -/
def methodRegistry : List (String × OperationHandler) :=
  [("eth_accounts", eth.accounts), ("eth_feeHistory", eth.feeHistory),
    ("eth_blockNumber", eth.blockNumber), ("eth_chainId", eth.chainId),
    ("eth_estimateGas", eth.estimateGas), ("eth_gasPrice", eth.gasPrice),
    ("eth_mining", eth.mining), ("eth_newFilter", eth.newFilter),
    ("eth_getFilterLogs", eth.getFilterLogs), ("eth_getFilterChanges", eth.getFilterChanges),
    ("eth_newBlockFilter", eth.newBlockFilter), ("eth_uninstallFilter", eth.uninstallFilter),
    ("eth_newPendingTransactionFilter", eth.newPendingTransactionFilter),
    ("eth_submitWork", eth.submitWork), ("eth_syncing", eth.syncing),
    ("eth_getUncleByBlockHashAndIndex", eth.getUncleByBlockHashAndIndex),
    ("eth_getUncleByBlockNumberAndIndex", eth.getUncleByBlockNumberAndIndex),
    ("eth_getUncleCountByBlockHash", eth.getUncleCountByBlockHash),
    ("eth_getUncleCountByBlockNumber", eth.getUncleCountByBlockNumber),
    ("eth_hashrate", eth.hashrate), ("eth_getWork", eth.getWork),
    ("eth_submitHashrate", eth.submitHashrate), ("eth_signTransaction", eth.signTransaction),
    ("eth_sign", eth.sign), ("eth_sendTransaction", eth.sendTransaction),
    ("eth_protocolVersion", eth.protocolVersion), ("eth_coinbase", eth.coinbase),
    ("eth_simulateV1", eth.simulateV1), ("eth_blobBaseFee", eth.blobBaseFee),
    ("eth_getStorageAt", eth.getStorageAt), ("eth_getBalance", eth.getBalance),
    ("eth_getCode", eth.getCode), ("eth_getBlockByHash", eth.getBlockByHash),
    ("eth_getBlockTransactionCountByHash", eth.getBlockTransactionCountByHash),
    ("eth_getBlockTransactionCountByNumber", eth.getBlockTransactionCountByNumber),
    ("eth_getTransactionByBlockHashAndIndex", eth.getTransactionByBlockHashAndIndex),
    ("eth_getTransactionByBlockNumberAndIndex", eth.getTransactionByBlockNumberAndIndex),
    ("eth_getBlockByNumber", eth.getBlockByNumber),
    ("eth_getTransactionCount", eth.getTransactionCount),
    ("eth_sendRawTransaction", eth.sendRawTransaction), ("eth_call", eth.call),
    ("eth_getTransactionByHash", eth.getTransactionByHash),
    ("eth_getTransactionReceipt", eth.getTransactionReceipt), ("eth_getLogs", eth.getLogs),
    ("eth_maxPriorityFeePerGas", eth.maxPriorityFeePerGas),
    ("eth_getBlockReceipts", eth.getBlockReceipts), ("eth_getProof", eth.getProof),
    ("eth_createAccessList", eth.createAccessList),
    ("debug_traceTransaction", debug.traceTransaction),
    ("debug_traceBlockByNumber", debug.traceBlockByNumber), ("net_listening", net.listening),
    ("net_version", net.version), ("net_peerCount", net.peerCount),
    ("web3_clientVersion", web3.clientVersion), ("web3_sha3", web3.sha3),
    ("txpool_content", txpool.content), ("txpool_contentFrom", txpool.contentFrom),
    ("txpool_status", txpool.status)]

end Methods

section Dispatch

variable (toNumber : Arg → Number)

def Pick.arg (params : List Json) : Pick → Arg
  | .param index => CachedMethod.param params index
  | .numberOf index => .json (.number (toNumber (CachedMethod.param params index)))

/-- The arguments a method is called with, with `Number(x)` for `toNumber x`. -/
def arrangeRpcParams (method : OperationHandler) (rpcParams : List Json) : List Arg :=
  match method.layout with
  | .requestDetailsOnly => [.requestDetails]
  | .custom picks => picks.map (·.arg toNumber rpcParams) ++ [.requestDetails]
  | .standard => rpcParams.map .json ++ [.requestDetails]

/-- What the validation of the dispatcher leaves of the parameters of a request. -/
def OperationHandler.validated (method : OperationHandler) (rpcMethodParams : List Json) :
    Except JsonRpcError (List Json) :=
  match method.rules with
  | none => .ok rpcMethodParams
  | some rules => validateParams rpcMethodParams rules

end Dispatch

end JsonRpcRelay.Dispatcher

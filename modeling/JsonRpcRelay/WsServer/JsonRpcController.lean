import JsonRpcRelay.JavaScript
import JsonRpcRelay.Server.RpcResponse

/-!
# Messages of a connection

How a message of a connection is answered: the checks of a request, the methods of subscriptions
and the relay, and the batches.
-/

namespace JsonRpcRelay.WsServer

open Framework Server

/-- The supported methods. -/
def METHODS : List (String × String) :=
  [("ETH_CALL", "eth_call"), ("ETH_CHAINID", "eth_chainId"), ("ETH_GETLOGS", "eth_getLogs"),
    ("ETH_GETCODE", "eth_getCode"), ("ETH_GASPRICE", "eth_gasPrice"),
    ("ETH_SUBSCRIBE", "eth_subscribe"), ("ETH_NEWFILTER", "eth_newFilter"),
    ("ETH_GETBALANCE", "eth_getBalance"), ("ETH_UNSUBSCRIBE", "eth_unsubscribe"),
    ("ETH_BLOCKNUMBER", "eth_blockNumber"), ("ETH_ESTIMATEGAS", "eth_estimateGas"),
    ("ETH_GETSTORAGEAT", "eth_getStorageAt"), ("ETH_GETBLOCKBYHASH", "eth_getBlockByHash"),
    ("ETH_GETBLOCKBYNUMBER", "eth_getBlockByNumber"),
    ("ETH_SENDRAWTRANSACTION", "eth_sendRawTransaction"),
    ("ETH_GETTRANSACTIONCOUNT", "eth_getTransactionCount"),
    ("ETH_GETTRANSACTIONBYHASH", "eth_getTransactionByHash"),
    ("ETH_GETTRANSACTIONRECEIPT", "eth_getTransactionReceipt"),
    ("ETH_MAXPRIORITYFEEPERGAS", "eth_maxPriorityFeePerGas"),
    ("WEB3_CLIENTVERSION", "web3_clientVersion"), ("WEB3_SHA3", "web3_sha3")]

def ETH_SUBSCRIBE : String := "eth_subscribe"

def ETH_UNSUBSCRIBE : String := "eth_unsubscribe"

section MethodConfiguration

def tier1Methods : List String :=
  ["eth_call", "eth_hashrate", "eth_maxPriorityFeePerGas", "eth_mining", "eth_sendRawTransaction",
    "eth_sendTransaction", "eth_sign", "eth_signTransaction", "eth_submitHashrate",
    "eth_submitWork", "eth_syncing", "debug_traceTransaction", "debug_traceBlockByNumber",
    "batch_request"]

def tier2Methods : List String :=
  ["eth_blockNumber", "eth_coinbase", "eth_simulateV1", "eth_blobBaseFee", "eth_estimateGas",
    "eth_gasPrice", "eth_getBalance", "eth_getBlockByHash", "eth_getBlockByNumber",
    "eth_getBlockReceipts", "eth_getBlockTransactionCountByHash",
    "eth_getBlockTransactionCountByNumber", "eth_getCode", "eth_chainId", "eth_getFilterChanges",
    "eth_getLogs", "eth_getStorageAt", "eth_getTransactionByBlockHashAndIndex",
    "eth_getTransactionByBlockNumberAndIndex", "eth_getTransactionByHash",
    "eth_getTransactionCount", "eth_getTransactionReceipt", "eth_getUncleByBlockHashAndIndex",
    "eth_getUncleByBlockNumberAndIndex", "eth_getUncleCountByBlockHash",
    "eth_getUncleCountByBlockNumber", "eth_getWork", "eth_feeHistory", "eth_protocolVersion",
    "eth_accounts", "eth_newBlockFilter", "eth_newPendingTransactionFilter", "eth_newFilter",
    "eth_uninstallFilter", "eth_getFilterLogs", "eth_getProof", "eth_createAccessList"]

def tier3Methods : List String :=
  ["web3_clientVersion", "web3_sha3", "net_listening", "net_version", "net_peerCount",
    "ADMIN_CONFIG"]

structure RateLimits where
  tier1 : ℕ
  tier2 : ℕ
  tier3 : ℕ

/-- The total of a method, if it is configured under this name. -/
def methodConfiguration (limits : RateLimits) (method : String) : Option ℕ :=
  if method ∈ tier1Methods then some limits.tier1
  else if method ∈ tier2Methods then some limits.tier2
  else if method ∈ tier3Methods then some limits.tier3
  else none

end MethodConfiguration

/-- What the handlers of the methods throw. -/
inductive Raised where
  | jsonRpcError (e : IJsonRpcError)
  | other (e : Thrown)

/-- What is called for a request, apart from what is modelled here. -/
structure Calls where
  methodsCounter : (method : Option Json) → Except Thrown Unit
  shouldRateLimit : (ip methodName : String) → (limit : ℕ) → Except Thrown Bool
  validateSubscriptionLimit : Bool
  validateSubscribeEthLogsParams : (filters : Json) → Except Raised Unit
  subscribe : (event : String) → (filters : Option Json) → Option Json
  unsubscribe : (subId : Option Json) → ℕ
  executeRpcMethod : (method : String) → (params : Json) →
    Except Thrown (Except IJsonRpcError (Option Json))

structure Settings where
  requestIdIsOptional : Bool
  subscriptionsEnabled : Bool
  newHeadsEnabled : Bool
  multipleAddressesEnabled : Bool
  batchRequestsEnabled : Bool
  batchRequestsMaxSize : ℕ
  batchRequestsDisallowedMethods : List String
  rateLimits : RateLimits

/-- `value || null`. -/
def orNull : Option Json → Option Json
  | some (.bool true) => some (.bool true)
  | some (.number x) => some (if x = .zero ∨ x = .nan then .null else .number x)
  | some (.string s) => some (if s = "" then .null else .string s)
  | some (.array items) => some (.array items)
  | some (.object fields) => some (.object fields)
  | _ => some .null

/-- `params || []`. -/
def orEmpty (params : Option Json) : Json :=
  match orNull params with
  | some .null | none => .array []
  | some params => params

/-- `params[index]`. -/
def elementAt (params : Json) (index : ℕ) : Option Json :=
  match params with
  | .array items => items[index]?
  | .string s => s.toList[index]?.map fun c => .string (String.singleton c)
  | params => params.field? (toString index)

/-- A text that the value is put into. -/
def interpolate (values : List (Option Json)) : Except Thrown Unit :=
  if values.all (Option.all Json.isPrintable) then .ok ()
  else .error (TypeError "Cannot convert object to primitive value")

def verifySupportedMethod (method : String) : Bool :=
  (METHODS.lookup (Js.toUpperCase method)).isSome

namespace Settings

variable (server : Settings) (ip requestId : String) (calls : Calls)

/-- The id of a valid request, which is set if it is missing and optional. -/
def validRequestId (request : Json) : Option Json :=
  match request.field? "jsonrpc", request.field? "method", request.field? "id" with
  | some (.string version), some _, id =>
      if version ≠ "2.0" then none
      else
        match id with
        | some id => some id
        | none => if server.requestIdIsOptional then some (.string "0") else none
  | _, _, _ => none

/-- An invalid request is logged with its properties. -/
def validateJsonRpcRequest (request : Json) : Except Thrown (Option Json) :=
  match server.validRequestId request with
  | some id => .ok (some id)
  | none =>
      match interpolate [request.field? "jsonrpc", request.field? "method", request.field? "id"] with
      | .error e => .error e
      | .ok _ => .ok none

/-- The limit of a method that is not configured under its name cannot be read. -/
def shouldRateLimitOnMethod (methodName : String) : Except Thrown Bool :=
  if methodName = ETH_SUBSCRIBE ∨ methodName = ETH_UNSUBSCRIBE then .ok false
  else
    match methodConfiguration server.rateLimits methodName with
    | none => .error (TypeError "Cannot read properties of undefined (reading 'total')")
    | some total => calls.shouldRateLimit ip methodName total

section Handlers

/-- What the builders throw is thrown on. -/
def raise (response : Except Thrown IJsonRpcResponse) : Except Raised IJsonRpcResponse :=
  response.mapError .other

def sendSubscriptionsDisabledError : Except Raised IJsonRpcResponse :=
  raise (jsonRespError (some .null) (ofJsonRpcError predefined.WS_SUBSCRIPTIONS_DISABLED) requestId)

def constructValidLogSubscriptionFilter : Option Json → Except Raised Json
  | none | some .null => .error (.other (TypeError "Cannot convert undefined or null to object"))
  | some (.object fields) =>
      .ok (.object (fields.filter fun field => field.1 ∈ ["address", "topics"]))
  | some _ => .ok (.object [])

def hasSeveralAddresses (filters : Json) : Bool :=
  match filters.field? "address" with
  | some (.array addresses) => 1 < addresses.length
  | _ => false

def handleEthSubscribeLogs (id : Json) (event : String) (filters : Option Json) :
    Except Raised IJsonRpcResponse :=
  match constructValidLogSubscriptionFilter filters with
  | .error e => .error e
  | .ok validFilters =>
      match calls.validateSubscribeEthLogsParams validFilters with
      | .error e => .error e
      | .ok _ =>
          if ¬server.multipleAddressesEnabled ∧ hasSeveralAddresses validFilters then
            .error (.jsonRpcError (ofJsonRpcError (predefined.INVALID_PARAMETER "filters.address"
              "Only one contract address is allowed")))
          else raise (jsonRespResult (some id) (calls.subscribe event (some validFilters)))

def handleEthSubscribeNewHeads (id : Json) (event : String) (filters : Option Json) :
    Except Raised IJsonRpcResponse :=
  if ¬server.newHeadsEnabled then
    .error (.jsonRpcError (ofJsonRpcError predefined.UNSUPPORTED_METHOD))
  else raise (jsonRespResult (some id) (calls.subscribe event filters))

def handleEthSubscribe (id params : Json) : Except Raised IJsonRpcResponse :=
  if ¬server.subscriptionsEnabled then sendSubscriptionsDisabledError requestId
  else
    match elementAt params 0 with
    | some (.string event) =>
        if event = "logs" then server.handleEthSubscribeLogs calls id event (elementAt params 1)
        else if event = "newHeads" then
          server.handleEthSubscribeNewHeads calls id event (elementAt params 1)
        else .error (.jsonRpcError (ofJsonRpcError predefined.UNSUPPORTED_METHOD))
    | _ => .error (.jsonRpcError (ofJsonRpcError predefined.UNSUPPORTED_METHOD))

def handleEthUnsubscribe (id params : Json) : Except Raised IJsonRpcResponse :=
  if ¬server.subscriptionsEnabled then sendSubscriptionsDisabledError requestId
  else
    let unsubbedCount := calls.unsubscribe (elementAt params 0)
    raise (jsonRespResult (some id) (some (.bool (unsubbedCount ≠ 0))))

/-- The `try` block of a request to the relay. -/
def executeRequest (id : Json) (method : String) (params : Json) :
    Except Thrown IJsonRpcResponse :=
  match calls.executeRpcMethod method params with
  | .error err => .error err
  | .ok (.error error) => jsonRespError (some id) error requestId
  | .ok (.ok result) => jsonRespResult (some id) result

def handleSendingRequestsToRelay (id : Json) (method : String) (params : Json) :
    Except Raised IJsonRpcResponse :=
  match executeRequest requestId calls id method params with
  | .ok response => .ok response
  | .error err => raise (jsonRespError (some id) (spec.InternalError err) requestId)

def processMethod (id : Json) (method : String) (params : Json) : Except Raised IJsonRpcResponse :=
  if method = ETH_SUBSCRIBE then server.handleEthSubscribe requestId calls id params
  else if method = ETH_UNSUBSCRIBE then server.handleEthUnsubscribe requestId calls id params
  else handleSendingRequestsToRelay requestId calls id method params

/-- The error of what was thrown.  Without a message it is an error that is written as an empty
object. -/
def errorOf : Raised → IJsonRpcError
  | .jsonRpcError e => e
  | .other e =>
      let text :=
        match e.message with
        | some message => if message = "" then "\x7b\x7d" else (Json.string message).stringify
        | none => "\x7b\x7d"
      ofJsonRpcError (predefined.INTERNAL_ERROR text)

end Handlers

/-- A valid request of a supported method. -/
def processRequest (id : Json) (method : String) (params : Json) :
    Except Thrown IJsonRpcResponse :=
  match server.shouldRateLimitOnMethod ip calls method with
  | .error e => .error e
  | .ok true => jsonRespError (some .null) (spec.IPRateLimitExceeded method) requestId
  | .ok false =>
      if method = ETH_SUBSCRIBE ∧ ¬calls.validateSubscriptionLimit then
        jsonRespError (some id) (ofJsonRpcError predefined.MAX_SUBSCRIPTIONS) requestId
      else
        match server.processMethod requestId calls id method params with
        | .ok response => .ok response
        | .error raised => jsonRespError (some id) (errorOf raised) requestId

/-- A valid request.  The name of the method is any value. -/
def processValidRequest (id : Json) (method : Option Json) (params : Json) :
    Except Thrown IJsonRpcResponse :=
  match method with
  | some (.string method) =>
      if verifySupportedMethod method then
        server.processRequest ip requestId calls id method params
      else jsonRespError (orNull (some id)) (spec.MethodNotFound method) requestId
  | _ => .error (TypeError "method.toUpperCase is not a function")

def getRequestResult (request : Json) : Except Thrown IJsonRpcResponse :=
  if request.isNull then
    .error (TypeError "Cannot destructure property 'method' of 'request' as it is null.")
  else
    match calls.methodsCounter (request.field? "method") with
    | .error e => .error e
    | .ok _ =>
        match server.validateJsonRpcRequest request with
        | .error e => .error e
        | .ok none => jsonRespError (orNull (request.field? "id")) spec.InvalidRequest requestId
        | .ok (some id) =>
            server.processValidRequest ip requestId calls id (request.field? "method")
              (orEmpty (request.field? "params"))

section Messages

/-- The promise of an item of a batch. -/
def answerItem (item : Json) : Except Thrown IJsonRpcResponse :=
  if item.isNull then .error (TypeError "Cannot read properties of null (reading 'method')")
  else
    match item.field? "method" with
    | some (.string method) =>
        if method ∈ server.batchRequestsDisallowedMethods then
          jsonRespError (item.field? "id") (spec.BatchRequestsMethodNotPermitted method) requestId
        else server.getRequestResult ip requestId calls item
    | _ => server.getRequestResult ip requestId calls item

inductive Sent where
  | single (response : IJsonRpcResponse)
  | batch (responses : List IJsonRpcResponse)

/-- What is sent for the value of a message.  The requests of a batch are processed at the same
time, so what is called for one of them may do anything. -/
def handleMessage (calls : ℕ → Calls) : Json → Except Thrown Sent
  | .array items =>
      if ¬server.batchRequestsEnabled then
        (jsonRespError (some .null) (ofJsonRpcError predefined.WS_BATCH_REQUESTS_DISABLED)
          requestId).map fun response => .batch [response]
      else if server.batchRequestsMaxSize < items.length then
        let error := predefined.BATCH_REQUESTS_AMOUNT_MAX_EXCEEDED items.length
          server.batchRequestsMaxSize
        (jsonRespError (some .null) (ofJsonRpcError error) requestId).map
          fun response => .batch [response]
      else
        (promiseAll (items.mapIdx fun i item =>
          server.answerItem ip requestId (calls i) item)).map .batch
  | request => (server.getRequestResult ip requestId (calls 0) request).map .single

/-- `msg.toString('ascii')`, which drops the highest bit of every byte. -/
def asciiText (msg : List UInt8) : String :=
  String.ofList (msg.map fun byte => Char.ofNat (byte.toNat % 128))

/-- The handler of the messages, where `parse` is `JSON.parse`. -/
def onMessage (parse : String → Option Json) (calls : ℕ → Calls) (msg : List UInt8) :
    Except Thrown Sent :=
  match parse (asciiText msg) with
  | none => (jsonRespError (some .null) (ofJsonRpcError predefined.INVALID_REQUEST) requestId).map
      .single
  | some request => server.handleMessage ip requestId calls request

end Messages

end Settings

end JsonRpcRelay.WsServer

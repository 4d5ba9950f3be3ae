import JsonRpcRelay.Dispatcher.OtherParams
import JsonRpcRelay.Server.RpcResponse

/-!
# Dispatching of methods

A method is looked up, its parameters are validated and arranged, and whatever it throws, or
returns as an error, becomes an error of JSON-RPC.  The validation only knows invalid parameters.
-/

namespace JsonRpcRelay.Dispatcher

open Framework Validators Cache Server

section Model

/-- What an operation handler resolves to, which may be an instance of an error class. -/
inductive Resolved where
  | value (result : Option Json)
  | error (e : RelayError)

/-- The methods of the implementations, what the SDK knows about its statuses, and `Number(x)`. -/
structure Services where
  handlers : (rpcMethodName : String) → List Arg → Except RelayError Resolved
  statusCode : (status : String) → ℕ
  toNumber : Arg → Number

def MIRROR_NODE_UPSTREAM_FAIL (errCode : ℕ) (errMessage : String) : IJsonRpcError where
  code := -32020
  message := s!"Mirror node upstream failure: statusCode={errCode}, message=" ++ errMessage
  data := some (.number (.ofInt errCode))

variable (services : Services)

/-- `error.isGrpcTimeout()`. -/
def isGrpcTimeout (error : SDKClientError) : Bool :=
  services.statusCode error.status = services.statusCode "INVALID_TRANSACTION_ID"

def throwUnregisteredRpcMethods (methodName : String) : JsonRpcError :=
  if methodName.startsWith "engine_" then predefined.UNSUPPORTED_METHOD
  else if methodName.startsWith "trace_" ∨ methodName.startsWith "debug_" then
    predefined.NOT_YET_IMPLEMENTED
  else predefined.METHOD_NOT_FOUND methodName

def precheckRpcMethod (rpcMethodName : String) (rpcMethodParams : Json) :
    Except RelayError (OperationHandler × Params) :=
  match methodRegistry.lookup rpcMethodName with
  | none => .error (.jsonRpcError (throwUnregisteredRpcMethods rpcMethodName))
  | some operationHandler => do
      let left ← operationHandler.prechecked services.toNumber rpcMethodParams
      return (operationHandler, left)

/-- A plain error that is returned is a result, which is written without its properties. -/
def thrown : Except RelayError Resolved → Except RelayError (Option Json)
  | .error e => .error e
  | .ok (.error (.error _)) => .ok (some (.object []))
  | .ok (.error e) => .error e
  | .ok (.value result) => .ok result

def processRpcMethod (rpcMethodName : String) (operationHandler : OperationHandler)
    (rpcMethodParams : Params) : Except RelayError (Option Json) := do
  let rearrangedParams ← arrange services.toNumber operationHandler rpcMethodParams
  thrown (services.handlers rpcMethodName rearrangedParams)

def handleRpcMethodError : RelayError → IJsonRpcError
  | .jsonRpcError e => ofJsonRpcError e
  | .sdkClientError e =>
      if isGrpcTimeout services e then ofJsonRpcError predefined.REQUEST_TIMEOUT
      else ofJsonRpcError
        (predefined.CONSENSUS_NODE_ERROR e.status (services.statusCode e.status) e.message)
  | .mirrorNodeClientError statusCode message =>
      MIRROR_NODE_UPSTREAM_FAIL statusCode
        (if message = "" then "Mirror node upstream failure" else message)
  | .error message =>
      ofJsonRpcError (predefined.INTERNAL_ERROR (if message = "" then "Unknown error" else message))

/-- The `try` block.  Only what is missing has the default `[]`. -/
def tryDispatch (rpcMethodName : String) (rpcMethodParams : Option Json) :
    Except RelayError (Option Json) := do
  let (operationHandler, left) ←
    precheckRpcMethod services rpcMethodName (rpcMethodParams.getD (.array []))
  processRpcMethod services rpcMethodName operationHandler left

/-- Nothing is thrown. -/
def dispatch (rpcMethodName : String) (rpcMethodParams : Option Json) :
    Except IJsonRpcError (Option Json) :=
  match tryDispatch services rpcMethodName rpcMethodParams with
  | .error e => .error (handleRpcMethodError services e)
  | .ok result => .ok result

end Model

section Validation

open Cache.CachedMethod (required optional)

private theorem reports_of_none {method : OperationHandler} (h : method.rules = none) :
    method.Reports := by
  intro rules hrules
  rw [h] at hrules
  cases hrules

private theorem reports_of_forall {method : OperationHandler} {rules : List IParamValidation}
    (hrules : method.rules = some rules) (h : rules.Forall fun rule => rule.type.Reports) :
    method.Reports := by
  intro rules' hrules'
  rw [hrules] at hrules'
  obtain rfl := Option.some.inj hrules'
  exact List.forall_iff_forall_mem.mp h

private theorem reports_blockNumberOrHash : CachedMethod.blockNumberOrHash.type.Reports := by
  intro type htype
  simp only [List.mem_cons, List.not_mem_nil, or_false] at htype
  obtain rfl | rfl := htype
  · exact reports_plain _ _
  · exact reports_plain _ _

private theorem reports_cached {handler : OperationHandler} (method : CachedMethod)
    (h : handler.rules = some method.rules) : handler.Reports := by
  apply reports_of_forall h
  cases method with
  | feeHistory => exact ⟨reports_plain _ _, reports_plain _ _, reports_plain _ _⟩
  | getStorageAt => exact ⟨reports_plain _ _, reports_plain _ _, reports_blockNumberOrHash⟩
  | getBalance | getCode | getTransactionCount =>
    exact ⟨reports_plain _ _, reports_blockNumberOrHash⟩
  | getBlockByHash | getTransactionByBlockHashAndIndex | getTransactionByBlockNumberAndIndex
  | getBlockByNumber => exact ⟨reports_plain _ _, reports_plain _ _⟩
  | getBlockTransactionCountByHash | getBlockTransactionCountByNumber | getTransactionByHash
  | getTransactionReceipt => exact reports_plain _ _
  | call => exact ⟨reports_transaction, reports_blockParams, reports_plain _ _⟩
  | getLogs => exact reports_filter
  | getBlockReceipts => exact reports_blockNumberOrHash
  | traceTransaction | traceBlockByNumber => exact ⟨reports_plain _ _, reports_tracerConfigWrapper⟩

private theorem reports_registered : ∀ entry ∈ methodRegistry, entry.2.Reports := by
  rw [← List.forall_iff_forall_mem]
  repeat' apply And.intro
  all_goals first
    | exact reports_of_none rfl
    | exact reports_of_forall rfl trivial
    | exact reports_of_forall rfl (reports_plain _ _)
    | exact reports_of_forall rfl reports_filter
    | exact reports_of_forall rfl ⟨reports_plain _ _, reports_plain _ _⟩
    | exact reports_of_forall rfl ⟨reports_transaction, reports_plain _ _⟩
    | exact reports_cached _ rfl

/-- There is no such method, or its validation refuses the parameters.  It throws something else
where a pattern is matched against what cannot be written as a text. -/
def IsRejected (toNumber : Arg → Number) (name : String) (params : Json) : Prop :=
  ∀ method, methodRegistry.lookup name = some method →
    params.isTextual = true ∧ ∃ e, method.prechecked toNumber params = .error (.jsonRpcError e)

variable {toNumber : Arg → Number} {name : String} {params : Option Json}

theorem tryDispatch_rejected (hrejected : IsRejected toNumber name (params.getD (.array []))) :
    ∃ e : JsonRpcError, (e.code = -32601 ∨ e.code = -32602) ∧
      ∀ services : Services, services.toNumber = toNumber →
        tryDispatch services name params = .error (.jsonRpcError e) := by
  cases hmethod : methodRegistry.lookup name with
  | none =>
    refine ⟨throwUnregisteredRpcMethods name, .inl ?_, fun services _ => ?_⟩
    · unfold throwUnregisteredRpcMethods
      split_ifs <;> rfl
    · rw [tryDispatch, precheckRpcMethod, hmethod]
      rfl
  | some method =>
    obtain ⟨_, e, hprechecked⟩ := hrejected method hmethod
    obtain ⟨before, after, happend, _⟩ := List.lookup_eq_some_iff.mp hmethod
    have hreports := reports_registered (name, method) (by rw [happend]; simp)
    refine ⟨e, .inr (hreports.isInvalidParams hprechecked), fun services htoNumber => ?_⟩
    rw [tryDispatch, precheckRpcMethod, hmethod]
    dsimp only
    rw [htoNumber, hprechecked]
    rfl

end Validation

end JsonRpcRelay.Dispatcher

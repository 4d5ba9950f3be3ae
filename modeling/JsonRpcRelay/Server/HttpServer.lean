import JsonRpcRelay.Dispatcher.RpcMethodDispatcher
import JsonRpcRelay.Server.KoaJsonRpc

/-!
# The HTTP server

A posted request is answered with a status that depends on why it has no result, if it has none.
Apart from the status it gets what it would get as an item of a batch, but for an id that counts
as false.
-/

namespace JsonRpcRelay.Server

open Framework Dispatcher

section Model

def ERROR_CODE_MAP : List (ℤ × ℕ) :=
  [(3, 200), (-32603, 500), (-32600, 400), (-32602, 400), (-32601, 400), (-32605, 429)]

def MIRROR_NODE_ERROR_MAP : List (Number × ℕ) :=
  [(.ofInt 404, 400), (.ofInt 429, 429), (.ofInt 501, 501)]

def translateRpcErrorToHttpStatus (jsonRpcError : IJsonRpcError) : ℕ :=
  match jsonRpcError.data with
  | some (.number data) =>
      if jsonRpcError.code = -32020 then (MIRROR_NODE_ERROR_MAP.lookup data).getD 500
      else (ERROR_CODE_MAP.lookup jsonRpcError.code).getD 400
  | _ => (ERROR_CODE_MAP.lookup jsonRpcError.code).getD 400

namespace KoaJsonRpc

variable (server : KoaJsonRpc) (ip requestId : String)

/-- The response to a body that is no batch. -/
def singleResponse (calls : Calls) (body : Json) : Except Thrown IJsonRpcResponse :=
  match server.hasValidJsonRpcId body with
  | none => jsonRespError (some .null) spec.InvalidRequest requestId
  | some id =>
      match isValidJsonRpcRequest body id with
      | none => jsonRespError (some id) spec.InvalidRequest requestId
      | some request => server.getRequestResult ip requestId calls request

def handleSingleRequest (calls : Calls) (body : Json) : Except Thrown Reply :=
  (server.singleResponse ip requestId calls body).map fun response =>
    match response.outcome with
    | .ok _ => ⟨.single response, 200⟩
    | .error error => ⟨.single response, translateRpcErrorToHttpStatus error⟩

/-- The body is missing if it cannot be parsed. -/
def rpcApp (calls : ℕ → Calls) (method : String) (body : Option Json) : Except Thrown Reply :=
  if method ≠ "POST" then
    (jsonRespError (some .null) spec.InvalidRequest requestId).map fun response =>
      ⟨.single response, 400⟩
  else
    match body with
    | none =>
        (jsonRespError (some .null) spec.ParseError requestId).map fun response =>
          ⟨.single response, 400⟩
    | some (.array items) => server.handleBatchRequest ip requestId calls items
    | some body => server.handleSingleRequest ip requestId (calls 0) body

end KoaJsonRpc

def INVALID_METHOD_RESPONSE_BODY : IJsonRpcResponse :=
  ⟨.null, .error ⟨-32600, "Invalid HTTP method: only POST is allowed", none⟩⟩

/-- The error of `fallbackResponseBody`. -/
def fallbackError : IJsonRpcError :=
  ⟨-32600, "Request body is empty; expected a JSON-RPC 2.0 request", none⟩

/-- `id || null`. -/
def ResponseId.orNull : ResponseId → ResponseId
  | .string s => if s = "" then .null else .string s
  | .number x => if x = .zero ∨ x = .nan then .null else .number x
  | .null => .null

/-- The bodies are objects and arrays here. -/
def ensureEthereumJsonRpcCompliance (onValidJsonRpcHttpResponseStatusCode : ℕ) (ctx : Reply) :
    Reply :=
  if ctx.status = 200 then ctx
  else
    match ctx.body with
    | .batch responses => ⟨.batch responses, 200⟩
    | .single response =>
        let id := response.id.orNull
        if ctx.status ≠ 400 then ⟨.single { response with id }, ctx.status⟩
        else
          let error := match response.outcome with
            | .error error => if error.code = 0 then fallbackError else error
            | .ok _ => fallbackError
          ⟨.single ⟨id, .error error⟩,
            if error.code ∈ [-32600, -32700] then 400 else onValidJsonRpcHttpResponseStatusCode⟩

inductive HttpReply where
  | json (reply : Reply)
  | text (body : String) (status : ℕ)
  | empty (status : ℕ)

/-- The answer to a request that is none for the health, the metrics or the configuration.  An
error that nobody catches becomes a plain text. -/
def respond (server : KoaJsonRpc) (onValidJsonRpcHttpResponseStatusCode : ℕ)
    (ip requestId : String) (calls : ℕ → Calls) (method : String) (body : Option Json) :
    HttpReply :=
  if method = "POST" then
    match server.rpcApp ip requestId calls method body with
    | .ok ctx => .json (ensureEthereumJsonRpcCompliance onValidJsonRpcHttpResponseStatusCode ctx)
    | .error _ => .text "Internal Server Error" 500
  else if method = "OPTIONS" then .empty 200
  else .json ⟨.single INVALID_METHOD_RESPONSE_BODY, 405⟩

/-- What is called with the dispatcher behind the rate limiter. -/
def relayCalls (services : Services)
    (shouldRateLimit : (ip methodName : String) → (limit : ℕ) → Except Thrown Bool) : Calls where
  shouldRateLimit
  executeRpcMethod method params := .ok (dispatch services method params)

end Model

section Causes

/-- Why a request has no result. -/
inductive Cause where
  | notARequest
  | limiterFailed (err : Thrown)
  | limited (method : String)
  | methodFailed (e : RelayError)
  | noResult

/-- What a request comes to. -/
def fate (server : KoaJsonRpc) (services : Services)
    (shouldRateLimit : (ip methodName : String) → (limit : ℕ) → Except Thrown Bool) (ip : String)
    (request : Option IJsonRpcRequest) : Except Cause Json := do
  let some request := request | throw .notARequest
  let limit := (server.methodConfig.lookup request.method).getD server.defaultRateLimit
  if ← (shouldRateLimit ip request.method limit).mapError .limiterFailed then
    throw (.limited request.method)
  let some result ← (tryDispatch services request.method request.params).mapError .methodFailed
    | throw .noResult
  return result

def Cause.error (services : Services) : Cause → IJsonRpcError
  | .notARequest => spec.InvalidRequest
  | .limiterFailed err => spec.InternalError err
  | .limited method => spec.IPRateLimitExceeded method
  | .methodFailed e => handleRpcMethodError services e
  | .noResult => spec.InternalError ⟨some "Missing result"⟩

/-- The status of an error by its code, which is the configured one if the code does not say
whose fault it is. -/
def codeStatus (configured : ℕ) (code : ℤ) : ℕ :=
  if code = 3 then 200
  else if code = -32603 then 500
  else if code = -32605 then 429
  else if code = 0 ∨ code = -32600 ∨ code = -32700 then 400
  else configured

/-- The status of a method that fails.  Some statuses of the mirror node are passed on. -/
def failureStatus (configured : ℕ) : RelayError → ℕ
  | .jsonRpcError e => codeStatus configured e.code
  | .sdkClientError _ => configured
  | .mirrorNodeClientError statusCode _ =>
      if statusCode = 404 then configured
      else if statusCode = 429 ∨ statusCode = 501 then statusCode
      else 500
  | .error _ => 500

def Cause.status (configured : ℕ) : Cause → ℕ
  | .notARequest => 400
  | .limiterFailed _ | .noResult => 500
  | .limited _ => 429
  | .methodFailed e => failureStatus configured e

def withRequestId (requestId : String) (e : IJsonRpcError) : IJsonRpcError :=
  { e with message := "[Request ID: " ++ requestId ++ "] " ++ e.message }

/-- The response with an id. -/
def responseTo (services : Services) (requestId : String) (id : ResponseId)
    (outcome : Except Cause Json) : IJsonRpcResponse :=
  ⟨id, outcome.mapError fun cause => withRequestId requestId (cause.error services)⟩

/-- The reply to a request that is posted alone. -/
def postReply (services : Services) (configured : ℕ) (requestId : String) (id : ResponseId) :
    Except Cause Json → Reply
  | .ok result => ⟨.single ⟨id, .ok result⟩, 200⟩
  | .error cause =>
      let error := cause.error services
      ⟨.single ⟨if error.code = 3 then id else id.orNull,
        .error (if error.code = 0 then fallbackError else withRequestId requestId error)⟩,
        cause.status configured⟩

end Causes

section Statuses

variable {e : IJsonRpcError}

private theorem translate_of_code (h : ∀ x, e.data ≠ some (.number x)) :
    translateRpcErrorToHttpStatus e =
      if e.code = 3 then 200
      else if e.code = -32603 then 500
      else if e.code = -32605 then 429
      else 400 := by
  unfold translateRpcErrorToHttpStatus
  split
  · rename_i data hdata
    exact absurd hdata (h data)
  · simp only [ERROR_CODE_MAP, List.lookup_cons, List.lookup_nil, beq_eq_decide]
    by_cases hrevert : e.code = 3
    · simp [hrevert]
    · by_cases hinternal : e.code = -32603
      · simp [hinternal]
      · by_cases hlimit : e.code = -32605
        · simp [hlimit]
        · simp only [hrevert, hinternal, hlimit, decide_false, if_false]
          repeat' split
          all_goals rfl

private theorem translate_upstreamFail (statusCode : ℕ) (message requestId : String) :
    translateRpcErrorToHttpStatus
        (withRequestId requestId (MIRROR_NODE_UPSTREAM_FAIL statusCode message)) =
      if statusCode = 404 then 400
      else if statusCode = 429 ∨ statusCode = 501 then statusCode
      else 500 := by
  have heq (n : ℕ) : (Number.ofInt statusCode == Number.ofInt n) = decide (statusCode = n) := by
    rw [beq_eq_decide]
    simp only [Number.ofInt_natCast_inj]
  have h404 : (Number.ofInt statusCode == Number.ofInt 404) = decide (statusCode = 404) := heq 404
  have h429 : (Number.ofInt statusCode == Number.ofInt 429) = decide (statusCode = 429) := heq 429
  have h501 : (Number.ofInt statusCode == Number.ofInt 501) = decide (statusCode = 501) := heq 501
  simp only [translateRpcErrorToHttpStatus, withRequestId, MIRROR_NODE_UPSTREAM_FAIL, if_true,
    MIRROR_NODE_ERROR_MAP, List.lookup_cons, List.lookup_nil, h404, h429, h501]
  by_cases hfound : statusCode = 404
  · simp [hfound]
  · by_cases hlimit : statusCode = 429
    · simp [hlimit]
    · by_cases hsupported : statusCode = 501
      · simp [hsupported]
      · simp [hfound, hlimit, hsupported]

variable (configured : ℕ) (requestId : String) (id : ResponseId)

private theorem comply_of_code (h : ∀ x, e.data ≠ some (.number x)) :
    ensureEthereumJsonRpcCompliance configured ⟨.single ⟨id, .error (withRequestId requestId e)⟩,
        translateRpcErrorToHttpStatus (withRequestId requestId e)⟩ =
      ⟨.single ⟨if e.code = 3 then id else id.orNull,
        .error (if e.code = 0 then fallbackError else withRequestId requestId e)⟩,
        codeStatus configured e.code⟩ := by
  rw [translate_of_code (show ∀ x, (withRequestId requestId e).data ≠ some (.number x) from h)]
  have hcode : (withRequestId requestId e).code = e.code := rfl
  simp only [ensureEthereumJsonRpcCompliance, codeStatus, hcode, List.mem_cons, List.not_mem_nil,
    or_false]
  by_cases hrevert : e.code = 3
  · simp [hrevert]
  · by_cases hinternal : e.code = -32603
    · simp [hinternal]
    · by_cases hlimit : e.code = -32605
      · simp [hlimit]
      · by_cases hzero : e.code = 0
        · simp [hzero, fallbackError]
        · simp [hrevert, hinternal, hlimit, hzero, hcode]

private theorem comply_upstreamFail (statusCode : ℕ) (message : String) :
    ensureEthereumJsonRpcCompliance configured
        ⟨.single ⟨id,
          .error (withRequestId requestId (MIRROR_NODE_UPSTREAM_FAIL statusCode message))⟩,
          translateRpcErrorToHttpStatus
            (withRequestId requestId (MIRROR_NODE_UPSTREAM_FAIL statusCode message))⟩ =
      ⟨.single ⟨id.orNull,
        .error (withRequestId requestId (MIRROR_NODE_UPSTREAM_FAIL statusCode message))⟩,
        failureStatus configured (.mirrorNodeClientError statusCode message)⟩ := by
  rw [translate_upstreamFail]
  simp only [ensureEthereumJsonRpcCompliance, failureStatus]
  by_cases hfound : statusCode = 404
  · subst hfound
    rfl
  · by_cases hpassed : statusCode = 429 ∨ statusCode = 501
    · obtain rfl | rfl := hpassed <;> rfl
    · simp [hfound, hpassed]

private theorem comply_cause (services : Services) (cause : Cause) :
    ensureEthereumJsonRpcCompliance configured
        ⟨.single ⟨id, .error (withRequestId requestId (cause.error services))⟩,
          translateRpcErrorToHttpStatus (withRequestId requestId (cause.error services))⟩ =
      postReply services configured requestId id (.error cause) := by
  have hdata (e : JsonRpcError) (x : Number) : (ofJsonRpcError e).data ≠ some (.number x) := by
    cases hdata : e.data <;> simp [ofJsonRpcError, hdata]
  cases cause with
  | notARequest => exact comply_of_code configured requestId id nofun
  | limiterFailed err => exact comply_of_code configured requestId id nofun
  | limited method => exact comply_of_code configured requestId id nofun
  | noResult => exact comply_of_code configured requestId id nofun
  | methodFailed e =>
    cases e with
    | jsonRpcError e => exact comply_of_code configured requestId id (hdata e)
    | sdkClientError e =>
      simp only [Cause.error, handleRpcMethodError, postReply, Cause.status, failureStatus]
      split
      · exact comply_of_code configured requestId id (hdata _)
      · exact comply_of_code configured requestId id (hdata _)
    | mirrorNodeClientError statusCode message =>
      exact comply_upstreamFail configured requestId id statusCode _
    | error message => exact comply_of_code configured requestId id (hdata _)

end Statuses

namespace KoaJsonRpc

/-- The request that a body is. -/
def request? (server : KoaJsonRpc) (body : Json) : Option IJsonRpcRequest :=
  (server.hasValidJsonRpcId body).bind (isValidJsonRpcRequest body)

section Posts

variable (server : KoaJsonRpc) (services : Services)
  (shouldRateLimit : (ip methodName : String) → (limit : ℕ) → Except Thrown Bool)
  (ip requestId : String)

private theorem getRequestResult_eq {request : IJsonRpcRequest} {id : ResponseId}
    (hid : responseId (some request.id) = some id) :
    server.getRequestResult ip requestId (relayCalls services shouldRateLimit) request =
      .ok (responseTo services requestId id
        (fate server services shouldRateLimit ip (some request))) := by
  have herror (error : IJsonRpcError) : jsonRespError (some request.id) error requestId =
      .ok ⟨id, .error (withRequestId requestId error)⟩ := jsonRespError_of_some hid
  simp only [getRequestResult, processRequest, relayCalls, fate, dispatch]
  cases shouldRateLimit ip request.method
      ((server.methodConfig.lookup request.method).getD server.defaultRateLimit) with
  | error err =>
    dsimp only
    rw [herror]
    rfl
  | ok limited =>
    cases limited with
    | true =>
      dsimp only
      rw [herror]
      rfl
    | false =>
      cases tryDispatch services request.method request.params with
      | error e =>
        dsimp only
        rw [herror]
        rfl
      | ok result =>
        cases result with
        | none =>
          have hmissing : jsonRespResult (some request.id) none =
              .error ⟨some "Missing result"⟩ := by
            rw [jsonRespResult, checkId, hid]
          dsimp only
          rw [hmissing]
          dsimp only
          rw [herror]
          rfl
        | some result =>
          dsimp only
          rw [jsonRespResult_of_some hid]
          rfl

variable {body : Json} {calls : ℕ → Calls}

private theorem request?_cases (body : Json) :
    (server.hasValidJsonRpcId body = none ∧ server.itemId body = .null ∧ IsAnswerable body ∧
        server.request? body = none) ∨
      ∃ id, server.hasValidJsonRpcId body = some id ∧
        (IsAnswerable body → responseId (some id) = some (server.itemId body)) ∧
        (¬IsAnswerable body → responseId (some id) = none) ∧
        server.request? body = isValidJsonRpcRequest body id := by
  cases hfield : body.field? "id" with
  | none =>
    have hanswerable : IsAnswerable body := by
      intro id hid
      rw [hfield] at hid
      cases hid
    obtain ⟨hid, hitem⟩ | ⟨hid, hitem⟩ := hasValidJsonRpcId_of_none server hfield
    · exact .inl ⟨hid, hitem, hanswerable, by rw [request?, hid]; rfl⟩
    · refine .inr ⟨_, hid, fun _ => by rw [hitem]; rfl, fun h => absurd hanswerable h, ?_⟩
      rw [request?, hid]
      rfl
  | some id =>
    have hid : server.hasValidJsonRpcId body = some id := hasValidJsonRpcId_of_some hfield
    refine .inr ⟨id, hid, fun h => ?_, fun h => ?_, by rw [request?, hid]; rfl⟩
    · have hsome := h id hfield
      cases hresponse : responseId (some id) with
      | none => simp [hresponse] at hsome
      | some i => simp [itemId, hfield, hresponse]
    · simpa [IsAnswerable, hfield] using h

theorem singleResponse_of_answerable (h : IsAnswerable body) :
    server.singleResponse ip requestId (relayCalls services shouldRateLimit) body =
      .ok (responseTo services requestId (server.itemId body)
        (fate server services shouldRateLimit ip (server.request? body))) := by
  obtain ⟨hid, hitem, _, hrequest⟩ | ⟨id, hid, hsome, _, hrequest⟩ := request?_cases server body
  · rw [singleResponse, hid, hrequest, hitem]
    exact jsonRespError_of_some rfl
  · rw [singleResponse, hid, hrequest]
    dsimp only
    cases hvalid : isValidJsonRpcRequest body id with
    | none => exact jsonRespError_of_some (hsome h)
    | some request =>
      have hsame := isValidJsonRpcRequest_id hvalid
      exact server.getRequestResult_eq services shouldRateLimit ip requestId
        (by rw [hsame, hsome h])

private theorem singleResponse_of_not_answerable (calls : Calls) (h : ¬IsAnswerable body) :
    ∃ err, server.singleResponse ip requestId calls body = .error err := by
  obtain ⟨_, _, hanswerable, _⟩ | ⟨id, hid, _, hnone, _⟩ := request?_cases server body
  · exact absurd hanswerable h
  · rw [singleResponse, hid]
    dsimp only
    cases hvalid : isValidJsonRpcRequest body id with
    | none => exact ⟨_, jsonRespError_of_none (hnone h)⟩
    | some request =>
      have hsame := isValidJsonRpcRequest_id hvalid
      exact getRequestResult_of_none (by rw [hsame, hnone h])

/-- A batch that permits the method answers an item like a body that is posted alone. -/
theorem answer_eq_singleResponse (calls : Calls)
    (h : ∀ request ∈ server.request? body,
      request.method ∉ server.batchRequestsDisallowedMethods) :
    server.answer ip requestId calls body = server.singleResponse ip requestId calls body := by
  unfold answer singleResponse
  cases hid : server.hasValidJsonRpcId body with
  | none => rfl
  | some id =>
    dsimp only
    cases hvalid : isValidJsonRpcRequest body id with
    | none => rfl
    | some request =>
      have hrequest : server.request? body = some request := by rw [request?, hid]; exact hvalid
      exact if_neg (h request hrequest)

theorem respond_eq {configured : ℕ} {calls : ℕ → Calls} (hbody : ∀ items, body ≠ .array items) :
    respond server configured ip requestId calls "POST" (some body) =
      match server.handleSingleRequest ip requestId (calls 0) body with
      | .ok ctx => .json (ensureEthereumJsonRpcCompliance configured ctx)
      | .error _ => .text "Internal Server Error" 500 := by
  have hsingle : server.rpcApp ip requestId calls "POST" (some body) =
      server.handleSingleRequest ip requestId (calls 0) body := by
    cases body with
    | array items => exact absurd rfl (hbody items)
    | _ => rfl
  rw [respond, if_pos rfl, hsingle]

theorem respond_of_answerable (configured : ℕ) (hbody : ∀ items, body ≠ .array items)
    (h : IsAnswerable body) :
    respond server configured ip requestId (fun _ => relayCalls services shouldRateLimit) "POST"
        (some body) =
      .json (postReply services configured requestId (server.itemId body)
        (fate server services shouldRateLimit ip (server.request? body))) := by
  rw [respond_eq server ip requestId hbody, handleSingleRequest,
    singleResponse_of_answerable server services shouldRateLimit ip requestId h]
  generalize fate server services shouldRateLimit ip (server.request? body) = outcome
  cases outcome with
  | ok result => rfl
  | error cause =>
    exact congrArg HttpReply.json (comply_cause configured requestId _ services cause)

/-- A relay whose methods return a chain id. -/
def chainIdServices : Services where
  handlers _ _ := .ok (.value (some (.string "0x12a")))
  statusCode _ := 0
  toNumber _ := .nan

end Posts

end KoaJsonRpc

end JsonRpcRelay.Server

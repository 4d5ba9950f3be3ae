import JsonRpcRelay.Server.RpcResponse

/-!
# Batches of requests

The items of a batch are checked and processed on their own, and the responses are collected in
the order of the items.  The batch fails exactly if the id of an item is none that a response may
carry.
-/

namespace JsonRpcRelay.Server

open Framework

structure IJsonRpcRequest where
  id : Json
  method : String
  params : Option Json

/-- What is called for a request: the rate limiter, with the limit of the method, and the relay,
which returns a result or an error.  Both may throw anything. -/
structure Calls where
  shouldRateLimit : (ip methodName : String) → (limit : ℕ) → Except Thrown Bool
  executeRpcMethod : (method : String) → (params : Option Json) →
    Except Thrown (Except IJsonRpcError (Option Json))

inductive Body where
  | single (response : IJsonRpcResponse)
  | batch (responses : List IJsonRpcResponse)

structure Reply where
  body : Body
  status : ℕ

structure KoaJsonRpc where
  requestIdIsOptional : Bool
  batchRequestsEnabled : Bool
  batchRequestsMaxSize : ℕ
  batchRequestsDisallowedMethods : List String
  methodConfig : List (String × ℕ)
  defaultRateLimit : ℕ

namespace KoaJsonRpc

variable (server : KoaJsonRpc) (ip requestId : String)

/-- The id of a body.  If it is optional, a missing one is set. -/
def hasValidJsonRpcId (body : Json) : Option Json :=
  if typeof (some body) ≠ "object" ∨ body.isNull then none
  else
    match body.field? "id" with
    | some id => some id
    | none => if server.requestIdIsOptional then some (.string "0") else none

/-- The request that a body with an id is. -/
def isValidJsonRpcRequest (body id : Json) : Option IJsonRpcRequest :=
  match body.field? "jsonrpc", body.field? "method" with
  | some (.string version), some (.string method) =>
      if version = "2.0" then some ⟨id, method, body.field? "params"⟩ else none
  | _, _ => none

/-- The `try` block. -/
def processRequest (calls : Calls) (request : IJsonRpcRequest) : Except Thrown IJsonRpcResponse :=
  let methodTotalLimit :=
    (server.methodConfig.lookup request.method).getD server.defaultRateLimit
  match calls.shouldRateLimit ip request.method methodTotalLimit with
  | .error err => .error err
  | .ok true =>
      jsonRespError (some request.id) (spec.IPRateLimitExceeded request.method) requestId
  | .ok false =>
      match calls.executeRpcMethod request.method request.params with
      | .error err => .error err
      | .ok (.error error) => jsonRespError (some request.id) error requestId
      | .ok (.ok result) => jsonRespResult (some request.id) result

def getRequestResult (calls : Calls) (request : IJsonRpcRequest) :
    Except Thrown IJsonRpcResponse :=
  match server.processRequest ip requestId calls request with
  | .ok response => .ok response
  | .error err => jsonRespError (some request.id) (spec.InternalError err) requestId

/-- The promise of an item of a batch. -/
def answer (calls : Calls) (item : Json) : Except Thrown IJsonRpcResponse :=
  match server.hasValidJsonRpcId item with
  | none => jsonRespError (some .null) spec.InvalidRequest requestId
  | some id =>
      match isValidJsonRpcRequest item id with
      | none => jsonRespError (some id) spec.InvalidRequest requestId
      | some request =>
          if request.method ∈ server.batchRequestsDisallowedMethods then
            jsonRespError (some id) (spec.BatchRequestsMethodNotPermitted request.method) requestId
          else server.getRequestResult ip requestId calls request

/-- The items are processed at the same time, so what is called for one of them may do
anything. -/
def handleBatchRequest (calls : ℕ → Calls) (body : List Json) : Except Thrown Reply :=
  if ¬server.batchRequestsEnabled then
    (jsonRespError (some .null) (ofJsonRpcError predefined.BATCH_REQUESTS_DISABLED) requestId).map
      fun response => ⟨.single response, 400⟩
  else if server.batchRequestsMaxSize < body.length then
    let error := predefined.BATCH_REQUESTS_AMOUNT_MAX_EXCEEDED body.length
      server.batchRequestsMaxSize
    (jsonRespError (some .null) (ofJsonRpcError error) requestId).map
      fun response => ⟨.batch (List.replicate body.length response), 200⟩
  else
    (promiseAll (body.mapIdx fun i item => server.answer ip requestId (calls i) item)).map
      fun responses => ⟨.batch responses, 200⟩

section Answers

/-- The id that the response to an item carries. -/
def itemId (item : Json) : ResponseId :=
  match item.field? "id" with
  | some id => (responseId (some id)).getD .null
  | none =>
      if server.requestIdIsOptional ∧ typeof (some item) = "object" ∧ ¬item.isNull then .string "0"
      else .null

/-- The id of the item, if it has one, is none of a boolean, an array and an object. -/
def IsAnswerable (item : Json) : Prop :=
  ∀ id, item.field? "id" = some id → (responseId (some id)).isSome

/-- Every response is the one that the item at its place gets. -/
structure InPlace (calls : ℕ → Calls) (body : List Json) (responses : List IJsonRpcResponse) :
    Prop where
  length : responses.length = body.length
  answer : ∀ i item response, body[i]? = some item → responses[i]? = some response →
    server.answer ip requestId (calls i) item = .ok response ∧ response.id = server.itemId item

variable {server ip requestId} {calls : Calls} {request : IJsonRpcRequest} {item : Json}

private theorem processRequest_id {response : IJsonRpcResponse}
    (h : server.processRequest ip requestId calls request = .ok response) :
    responseId (some request.id) = some response.id := by
  unfold processRequest at h
  dsimp only at h
  split at h
  · cases h
  · exact jsonRespError_id h
  · split at h
    · cases h
    · exact jsonRespError_id h
    · exact jsonRespResult_id h

private theorem getRequestResult_of_some {id : ResponseId}
    (h : responseId (some request.id) = some id) :
    ∃ response, server.getRequestResult ip requestId calls request = .ok response ∧
      response.id = id := by
  unfold getRequestResult
  cases hprocess : server.processRequest ip requestId calls request with
  | error err => exact ⟨_, jsonRespError_of_some h, rfl⟩
  | ok response =>
    have hid := processRequest_id hprocess
    rw [h] at hid
    exact ⟨response, rfl, (Option.some.inj hid).symm⟩

theorem getRequestResult_of_none (h : responseId (some request.id) = none) :
    ∃ err, server.getRequestResult ip requestId calls request = .error err := by
  unfold getRequestResult
  cases hprocess : server.processRequest ip requestId calls request with
  | error err => exact ⟨_, jsonRespError_of_none h⟩
  | ok response =>
    have hid := processRequest_id hprocess
    rw [h] at hid
    cases hid

theorem isValidJsonRpcRequest_id {body id : Json}
    (h : isValidJsonRpcRequest body id = some request) : request.id = id := by
  unfold isValidJsonRpcRequest at h
  split at h
  · split at h
    · obtain rfl := Option.some.inj h
      rfl
    · cases h
  · cases h

private theorem answer_of_id {id : Json} (hid : server.hasValidJsonRpcId item = some id) :
    (∀ i, responseId (some id) = some i →
      ∃ response, server.answer ip requestId calls item = .ok response ∧ response.id = i) ∧
    (responseId (some id) = none → ∃ err, server.answer ip requestId calls item = .error err) := by
  unfold answer
  rw [hid]
  dsimp only
  cases hrequest : isValidJsonRpcRequest item id with
  | none =>
    exact ⟨fun i hi => ⟨_, jsonRespError_of_some hi, rfl⟩, fun hi => ⟨_, jsonRespError_of_none hi⟩⟩
  | some request =>
    have hsame := isValidJsonRpcRequest_id hrequest
    dsimp only
    split
    · exact ⟨fun i hi => ⟨_, jsonRespError_of_some hi, rfl⟩,
        fun hi => ⟨_, jsonRespError_of_none hi⟩⟩
    · exact ⟨fun i hi => getRequestResult_of_some (by rw [hsame, hi]),
        fun hi => getRequestResult_of_none (by rw [hsame, hi])⟩

theorem hasValidJsonRpcId_of_some {id : Json} (h : item.field? "id" = some id) :
    server.hasValidJsonRpcId item = some id := by
  cases item with
  | object fields => simp [hasValidJsonRpcId, typeof, Json.isNull, h]
  | _ => cases h

theorem hasValidJsonRpcId_of_none (server : KoaJsonRpc) (h : item.field? "id" = none) :
    server.hasValidJsonRpcId item = none ∧ server.itemId item = .null ∨
      server.hasValidJsonRpcId item = some (.string "0") ∧ server.itemId item = .string "0" := by
  unfold hasValidJsonRpcId itemId
  rw [h]
  cases server.requestIdIsOptional <;> cases item <;> simp [typeof, Json.isNull]

private theorem answer_iff (server : KoaJsonRpc) (calls : Calls) (item : Json) :
    (∃ response, server.answer ip requestId calls item = .ok response ∧
      response.id = server.itemId item) ↔ IsAnswerable item := by
  cases hfield : item.field? "id" with
  | none =>
    have hanswerable : IsAnswerable item := by
      intro id hid
      rw [hfield] at hid
      cases hid
    refine iff_of_true ?_ hanswerable
    obtain ⟨hid, hitem⟩ | ⟨hid, hitem⟩ := hasValidJsonRpcId_of_none server hfield
    · rw [answer, hid, hitem]
      exact ⟨_, jsonRespError_of_some rfl, rfl⟩
    · obtain ⟨response, hanswer, hresponse⟩ := (answer_of_id hid).1 _ rfl
      exact ⟨response, hanswer, by rw [hresponse, hitem]⟩
  | some id =>
    have hid : server.hasValidJsonRpcId item = some id := hasValidJsonRpcId_of_some hfield
    have hiff : IsAnswerable item ↔ (responseId (some id)).isSome := by
      simp [IsAnswerable, hfield]
    rw [hiff]
    cases hresponse : responseId (some id) with
    | none =>
      obtain ⟨err, herr⟩ : ∃ err, server.answer ip requestId calls item = .error err :=
        (answer_of_id hid).2 hresponse
      simp [herr]
    | some i =>
      obtain ⟨response, hanswer, hsame⟩ := (answer_of_id hid).1 i hresponse
      refine iff_of_true ⟨response, hanswer, ?_⟩ rfl
      simp [itemId, hfield, hresponse, hsame]

end Answers

section Batches

variable {server : KoaJsonRpc} {ip requestId : String} {calls : ℕ → Calls} {body : List Json}

private theorem handleBatchRequest_ok_iff (henabled : server.batchRequestsEnabled = true)
    (hsize : body.length ≤ server.batchRequestsMaxSize) {responses : List IJsonRpcResponse} :
    server.handleBatchRequest ip requestId calls body = .ok ⟨.batch responses, 200⟩ ↔
      promiseAll (body.mapIdx fun i item => server.answer ip requestId (calls i) item) =
        .ok responses := by
  rw [handleBatchRequest, if_neg (by simp [henabled]), if_neg (by omega)]
  cases promiseAll (body.mapIdx fun i item => server.answer ip requestId (calls i) item) with
  | error err => simp [Except.map]
  | ok values => simp [Except.map]

/-- A batch is answered item by item exactly if all its items are answerable. -/
theorem batch_in_place_iff (server : KoaJsonRpc) (ip requestId : String) (calls : ℕ → Calls)
    (body : List Json) (henabled : server.batchRequestsEnabled = true)
    (hsize : body.length ≤ server.batchRequestsMaxSize) :
    (∃ responses,
      server.handleBatchRequest ip requestId calls body = .ok ⟨.batch responses, 200⟩ ∧
        server.InPlace ip requestId calls body responses) ↔
      ∀ item ∈ body, IsAnswerable item := by
  have hanswers := promiseAll_mapIdx_iff (l := body)
    (f := fun i item => server.answer ip requestId (calls i) item)
    (P := fun _ item response => response.id = server.itemId item)
  have hitems : (∀ i item, body[i]? = some item → ∃ response,
      server.answer ip requestId (calls i) item = .ok response ∧
        response.id = server.itemId item) ↔ ∀ item ∈ body, IsAnswerable item := by
    simp only [answer_iff, List.mem_iff_getElem?]
    exact ⟨fun h item ⟨i, hi⟩ => h i item hi, fun h i item hi => h item ⟨i, hi⟩⟩
  rw [← hitems, ← hanswers]
  refine exists_congr fun responses => ?_
  rw [handleBatchRequest_ok_iff henabled hsize]
  exact and_congr_right fun _ => ⟨fun h => ⟨h.length, h.answer⟩, fun h => ⟨h.1, h.2⟩⟩

/-- The defaults of the configuration, with the limit of one method. -/
def defaults : KoaJsonRpc where
  requestIdIsOptional := false
  batchRequestsEnabled := true
  batchRequestsMaxSize := 100
  batchRequestsDisallowedMethods :=
    ["debug_traceTransaction", "debug_traceBlockByNumber", "eth_newFilter", "eth_uninstallFilter",
      "eth_getFilterChanges", "eth_getFilterLogs", "eth_newBlockFilter",
      "eth_newPendingTransactionFilter"]
  methodConfig := [("eth_chainId", 800)]
  defaultRateLimit := 200

def chainIdRequest (id : Json) : Json :=
  .object [("jsonrpc", .string "2.0"), ("method", .string "eth_chainId"), ("id", id)]

/-- Nobody is limited, and every method returns a chain id. -/
def chainIdCalls : Calls where
  shouldRateLimit _ _ _ := .ok false
  executeRpcMethod _ _ := .ok (.ok (some (.string "0x12a")))

theorem batch_in_place_chainId : ∃ responses,
    defaults.handleBatchRequest "::1" "r" (fun _ => chainIdCalls)
        [chainIdRequest (.string "a"), .null, .array []] = .ok ⟨.batch responses, 200⟩ ∧
      defaults.InPlace "::1" "r" (fun _ => chainIdCalls)
        [chainIdRequest (.string "a"), .null, .array []] responses := by
  refine (batch_in_place_iff defaults "::1" "r" (fun _ => chainIdCalls) _ rfl (by decide)).mpr ?_
  intro item hitem id hid
  simp only [List.mem_cons, List.not_mem_nil, or_false] at hitem
  obtain rfl | rfl | rfl := hitem
  · obtain rfl := Option.some.inj hid
    rfl
  · cases hid
  · cases hid

/-- A request with the id `true` takes the answer away from the one before it. -/
theorem boolean_id_fails_batch :
    (∃ response, defaults.answer "::1" "r" chainIdCalls (chainIdRequest (.string "a")) =
        .ok response) ∧
      ∀ reply, defaults.handleBatchRequest "::1" "r" (fun _ => chainIdCalls)
        [chainIdRequest (.string "a"), chainIdRequest (.bool true)] ≠ .ok reply := by
  refine ⟨⟨_, rfl⟩, fun reply h => ?_⟩
  have hrejected : defaults.handleBatchRequest "::1" "r" (fun _ => chainIdCalls)
      [chainIdRequest (.string "a"), chainIdRequest (.bool true)] =
        .error (TypeError "Invalid id type boolean") := rfl
  rw [hrejected] at h
  cases h

end Batches

end KoaJsonRpc

end JsonRpcRelay.Server

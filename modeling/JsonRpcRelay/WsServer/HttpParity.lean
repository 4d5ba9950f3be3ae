import JsonRpcRelay.Server.HttpServer
import JsonRpcRelay.WsServer.Answers

/-!
# The two servers answer alike

What a connection is sent for a request to the relay is what the HTTP server responds with to the
same request, alone and in a batch.  Over a connection the id is lost where the request is limited,
and over HTTP an error that is posted alone is made compliant.
-/

namespace JsonRpcRelay.WsServer

open Framework Dispatcher
open Server (KoaJsonRpc IJsonRpcResponse Thrown Cause responseId relayCalls fate responseTo
  postReply withRequestId jsonRespError promiseAll)

section Model

/-- The settings that both servers read. -/
structure ConfiguredAlike (http : KoaJsonRpc) (ws : Settings) : Prop where
  maxSize : ws.batchRequestsMaxSize = http.batchRequestsMaxSize
  disallowed : ws.batchRequestsDisallowedMethods = http.batchRequestsDisallowedMethods
  limits : ∀ method total, methodConfiguration ws.rateLimits method = some total →
    (http.methodConfig.lookup method).getD http.defaultRateLimit = total

/-- The limiter, which says whether a request is limited. -/
abbrev Limiter := (ip methodName : String) → (limit : ℕ) → Bool

/-- What is called with the dispatcher behind the rate limiter, and the metrics, which count. -/
def Calls.overRelay (calls : Calls) (services : Services) (limiter : Limiter) : Calls :=
  { calls with
    methodsCounter := fun _ => .ok ()
    shouldRateLimit := fun ip methodName limit => .ok (limiter ip methodName limit)
    executeRpcMethod := fun method params => .ok (dispatch services method (some params)) }

def httpCalls (services : Services) (limiter : Limiter) : Server.Calls :=
  relayCalls services fun ip methodName limit => .ok (limiter ip methodName limit)

/-- A method that a connection passes on to the relay, under the name of its limit. -/
def IsRelayMethod (ws : Settings) (method : String) : Prop :=
  verifySupportedMethod method = true ∧ method ≠ ETH_SUBSCRIBE ∧ method ≠ ETH_UNSUBSCRIBE ∧
    (methodConfiguration ws.rateLimits method).isSome

/-- A request for such a method, with an id that a response may carry and parameters that are
missing or count as true. -/
structure IsRelayRequest (ws : Settings) (item : Json) : Prop where
  version : item.field? "jsonrpc" = some (.string "2.0")
  method : ∃ method, item.field? "method" = some (.string method) ∧ IsRelayMethod ws method
  id : ∃ id, item.field? "id" = some id ∧ (responseId (some id)).isSome
  params : ∀ params, item.field? "params" = some params → orEmpty (some params) = params

/-- Whether the limiter refuses the method of a request. -/
def isLimited (ws : Settings) (ip : String) (limiter : Limiter) (item : Json) : Bool :=
  match item.field? "method" with
  | some (.string method) => (methodConfiguration ws.rateLimits method).any (limiter ip method)
  | _ => false

/-- The same for an item of a batch, which is only limited if the batch permits its method. -/
def isLimitedItem (ws : Settings) (ip : String) (limiter : Limiter) (item : Json) : Bool :=
  match item.field? "method" with
  | some (.string method) =>
      method ∉ ws.batchRequestsDisallowedMethods && isLimited ws ip limiter item
  | _ => false

/-- The response without its id if the request was limited. -/
def withoutId (limited : Bool) (response : IJsonRpcResponse) : IJsonRpcResponse :=
  if limited then { response with id := .null } else response

/-- What the HTTP server makes of a response to a request that is posted alone.  The id of an error
is `null` if it counts as false, unless a contract has reverted. -/
def complied (response : IJsonRpcResponse) : IJsonRpcResponse :=
  match response.outcome with
  | .ok _ => response
  | .error e =>
    ⟨if e.code = 3 then response.id else response.id.orNull,
      .error (if e.code = 0 then Server.fallbackError else e)⟩

/-- The bytes of a text. -/
def utf8Bytes (text : String) : List UInt8 := text.toList.flatMap String.utf8EncodeChar

def IsAscii (text : String) : Prop := ∀ c ∈ text.toList, c.toNat < 128

end Model

section Requests

variable {http : KoaJsonRpc} {ws : Settings} {services : Services} {limiter : Limiter}
  {calls : Calls} {ip requestId : String} {item : Json}

private theorem tryDispatch_orEmpty {params : Option Json} (services : Services) (method : String)
    (h : ∀ x, params = some x → orEmpty (some x) = x) :
    tryDispatch services method (some (orEmpty params)) = tryDispatch services method params := by
  cases params with
  | none => rfl
  | some params => rw [h params rfl]

theorem IsRelayRequest.request? (h : IsRelayRequest ws item) (http : KoaJsonRpc) :
    ∃ id method i, item.field? "id" = some id ∧ item.field? "method" = some (.string method) ∧
      IsRelayMethod ws method ∧ responseId (some id) = some i ∧ http.itemId item = i ∧
      http.request? item = some ⟨id, method, item.field? "params"⟩ := by
  obtain ⟨method, hmethod, hrelay⟩ := h.method
  obtain ⟨id, hid, hsome⟩ := h.id
  obtain ⟨i, hi⟩ := Option.isSome_iff_exists.mp hsome
  refine ⟨id, method, i, hid, hmethod, hrelay, hi, ?_, ?_⟩
  · rw [KoaJsonRpc.itemId, hid]
    simp [hi]
  · rw [KoaJsonRpc.request?, KoaJsonRpc.hasValidJsonRpcId_of_some hid, Option.bind_some,
      KoaJsonRpc.isValidJsonRpcRequest, h.version, hmethod]
    simp

private theorem IsRelayRequest.isAnswerable (h : IsRelayRequest ws item) :
    KoaJsonRpc.IsAnswerable item := by
  obtain ⟨id, hid, hsome⟩ := h.id
  intro id' hid'
  rw [hid] at hid'
  obtain rfl := Option.some.inj hid'
  exact hsome

private theorem singleResponse_relay (h : IsRelayRequest ws item) :
    http.singleResponse ip requestId (httpCalls services limiter) item =
      .ok (responseTo services requestId (http.itemId item)
        (fate http services (fun ip method limit => .ok (limiter ip method limit)) ip
          (http.request? item))) :=
  KoaJsonRpc.singleResponse_of_answerable http services _ ip requestId h.isAnswerable

private theorem postReply_eq (services : Services) (configured : ℕ) (requestId : String)
    (id : Server.ResponseId) (outcome : Except Cause Json) :
    ∃ status, postReply services configured requestId id outcome =
      ⟨.single (complied (responseTo services requestId id outcome)), status⟩ := by
  cases outcome with
  | ok result => exact ⟨200, rfl⟩
  | error cause => exact ⟨cause.status configured, rfl⟩

private theorem respond_relay (h : IsRelayRequest ws item) (http : KoaJsonRpc)
    (ip requestId : String)
    (configured : ℕ) (calls : ℕ → Server.Calls) (hcalls : calls 0 = httpCalls services limiter) :
    ∃ status, Server.respond http configured ip requestId calls "POST" (some item) =
      .json ⟨.single (complied (responseTo services requestId (http.itemId item)
        (fate http services (fun ip method limit => .ok (limiter ip method limit)) ip
          (http.request? item)))), status⟩ := by
  have hitem : ∀ items, item ≠ .array items := by
    rintro items rfl
    cases h.version
  obtain ⟨status, hreply⟩ := postReply_eq services configured requestId
    (http.itemId item) (fate http services (fun ip method limit => .ok (limiter ip method limit)) ip
      (http.request? item))
  refine ⟨status, ?_⟩
  rw [← hreply, ← KoaJsonRpc.respond_of_answerable http services _ ip requestId configured hitem
    h.isAnswerable, KoaJsonRpc.respond_eq http ip requestId hitem,
    KoaJsonRpc.respond_eq http ip requestId hitem, hcalls, httpCalls]

private theorem asciiText_utf8Bytes {text : String} (h : IsAscii text) :
    Settings.asciiText (utf8Bytes text) = text := by
  have hbytes : ∀ chars : List Char, (∀ c ∈ chars, c.toNat < 128) →
      (chars.flatMap String.utf8EncodeChar).map (fun byte => Char.ofNat (byte.toNat % 128)) =
        chars := by
    intro chars hchars
    induction chars with
    | nil => rfl
    | cons c chars ih =>
      obtain ⟨hc, hchars⟩ := List.forall_mem_cons.mp hchars
      have hone : String.utf8EncodeChar c = [UInt8.ofNat c.toNat] := by
        unfold String.utf8EncodeChar
        exact if_pos (Nat.le_of_lt_succ hc)
      have hbyte : (UInt8.ofNat c.toNat).toNat % 128 = c.toNat := by
        rw [UInt8.toNat_ofNat']
        omega
      rw [List.flatMap_cons, hone, List.map_append, ih hchars, List.map_singleton, hbyte,
        Char.ofNat_toNat, List.singleton_append]
  rw [Settings.asciiText, utf8Bytes, hbytes _ h, String.ofList_toList]

private theorem handleSendingRequestsToRelay_eq {id params : Json} {method : String}
    {i : Server.ResponseId} (hid : responseId (some id) = some i) :
    Settings.handleSendingRequestsToRelay requestId (calls.overRelay services limiter) id method
        params =
      .ok (responseTo services requestId i
        (match tryDispatch services method (some params) with
          | .error e => .error (.methodFailed e)
          | .ok none => .error .noResult
          | .ok (some result) => .ok result)) := by
  simp only [Settings.handleSendingRequestsToRelay, Settings.executeRequest, Calls.overRelay,
    dispatch]
  cases tryDispatch services method (some params) with
  | error e =>
    dsimp only
    rw [Server.jsonRespError_of_some hid]
    rfl
  | ok result =>
    cases result with
    | none =>
      have hmissing : Server.jsonRespResult (some id) none = .error ⟨some "Missing result"⟩ := by
        rw [Server.jsonRespResult, Server.checkId, hid]
      dsimp only
      rw [hmissing]
      dsimp only
      rw [Server.jsonRespError_of_some hid]
      rfl
    | some result =>
      dsimp only
      rw [Server.jsonRespResult_of_some hid]
      rfl

private theorem processRequest_relay (halike : ConfiguredAlike http ws) {id : Json}
    {method : String}
    {i : Server.ResponseId} {params : Option Json} (hmethod : IsRelayMethod ws method)
    (hid : responseId (some id) = some i)
    (hparams : ∀ x, params = some x → orEmpty (some x) = x) :
    ws.processRequest ip requestId (calls.overRelay services limiter) id method (orEmpty params) =
      .ok (withoutId ((methodConfiguration ws.rateLimits method).any (limiter ip method))
        (responseTo services requestId i
          (fate http services (fun ip method limit => .ok (limiter ip method limit)) ip
            (some ⟨id, method, params⟩)))) := by
  obtain ⟨_, hsubscribe, hunsubscribe, hconfigured⟩ := hmethod
  obtain ⟨total, htotal⟩ := Option.isSome_iff_exists.mp hconfigured
  have hshould : ws.shouldRateLimitOnMethod ip (calls.overRelay services limiter) method =
      .ok (limiter ip method total) := by
    rw [Settings.shouldRateLimitOnMethod, if_neg (by simp [hsubscribe, hunsubscribe]), htotal]
    rfl
  rw [Settings.processRequest, hshould, htotal, Option.any_some]
  simp only [fate, halike.limits method total htotal]
  cases limiter ip method total with
  | true => rfl
  | false =>
    have hprocess : ws.processMethod requestId (calls.overRelay services limiter) id method
        (orEmpty params) = Settings.handleSendingRequestsToRelay requestId
          (calls.overRelay services limiter) id method (orEmpty params) := by
      rw [Settings.processMethod, if_neg hsubscribe, if_neg hunsubscribe]
    dsimp only
    rw [if_neg (fun h => hsubscribe h.1), hprocess, handleSendingRequestsToRelay_eq hid,
      tryDispatch_orEmpty services method hparams]
    cases tryDispatch services method params with
    | error e => rfl
    | ok result =>
      cases result with
      | none => rfl
      | some result => rfl

private theorem getRequestResult_relay (h : IsRelayRequest ws item)
    (halike : ConfiguredAlike http ws) :
    ws.getRequestResult ip requestId (calls.overRelay services limiter) item =
      .ok (withoutId (isLimited ws ip limiter item) (responseTo services requestId
        (http.itemId item)
        (fate http services (fun ip method limit => .ok (limiter ip method limit)) ip
          (http.request? item)))) := by
  obtain ⟨id, method, i, hid, hmethod, hrelay, hi, hitem, hrequest⟩ := h.request? http
  have hnull : item.isNull = false := by
    cases item with
    | null => cases hid
    | _ => rfl
  have hvalid : ws.validateJsonRpcRequest item = .ok (some id) := by
    rw [Settings.validateJsonRpcRequest, Settings.validRequestId, h.version, hmethod, hid]
    simp
  have hlimited : isLimited ws ip limiter item =
      (methodConfiguration ws.rateLimits method).any (limiter ip method) := by
    simp only [isLimited, hmethod]
  rw [hlimited, hitem, hrequest, Settings.getRequestResult, hnull, if_neg Bool.false_ne_true]
  simp only [Calls.overRelay]
  rw [hvalid, hmethod]
  simp only [Settings.processValidRequest, hrelay.1, if_true]
  exact processRequest_relay halike hrelay hi h.params

private theorem answerItem_relay (h : IsRelayRequest ws item) (halike : ConfiguredAlike http ws) :
    ∃ response, http.answer ip requestId (httpCalls services limiter) item = .ok response ∧
      ws.answerItem ip requestId (calls.overRelay services limiter) item =
        .ok (withoutId (isLimitedItem ws ip limiter item) response) := by
  obtain ⟨id, method, i, hid, hmethod, _, hi, _, hrequest⟩ := h.request? http
  have hnull : item.isNull = false := by
    cases item with
    | null => cases hid
    | _ => rfl
  have hvalid : KoaJsonRpc.isValidJsonRpcRequest item id =
      some ⟨id, method, item.field? "params"⟩ := by
    rw [KoaJsonRpc.request?, KoaJsonRpc.hasValidJsonRpcId_of_some hid] at hrequest
    exact hrequest
  by_cases hpermitted : method ∈ ws.batchRequestsDisallowedMethods
  · have hrefused : http.answer ip requestId (httpCalls services limiter) item =
        jsonRespError (some id) (Server.spec.BatchRequestsMethodNotPermitted method) requestId := by
      rw [KoaJsonRpc.answer, KoaJsonRpc.hasValidJsonRpcId_of_some hid]
      dsimp only
      rw [hvalid]
      exact if_pos (halike.disallowed ▸ hpermitted)
    have hsame : ws.answerItem ip requestId (calls.overRelay services limiter) item =
        jsonRespError (some id) (Server.spec.BatchRequestsMethodNotPermitted method) requestId := by
      rw [Settings.answerItem, hnull, if_neg Bool.false_ne_true, hmethod, hid]
      exact if_pos hpermitted
    have hlimited : isLimitedItem ws ip limiter item = false := by
      simp [isLimitedItem, hmethod, hpermitted]
    rw [hrefused, hsame, hlimited, Server.jsonRespError_of_some hi]
    exact ⟨_, rfl, rfl⟩
  · have hanswer : http.answer ip requestId (httpCalls services limiter) item =
        http.singleResponse ip requestId (httpCalls services limiter) item := by
      refine KoaJsonRpc.answer_eq_singleResponse http ip requestId _ fun request hsome => ?_
      obtain rfl := Option.some.inj (hrequest.symm.trans hsome)
      exact halike.disallowed ▸ hpermitted
    have hsame : ws.answerItem ip requestId (calls.overRelay services limiter) item =
        ws.getRequestResult ip requestId (calls.overRelay services limiter) item := by
      rw [Settings.answerItem, hnull, if_neg Bool.false_ne_true, hmethod]
      exact if_neg hpermitted
    have hlimited : isLimitedItem ws ip limiter item = isLimited ws ip limiter item := by
      simp [isLimitedItem, hmethod, hpermitted]
    rw [hanswer, singleResponse_relay h, hsame, getRequestResult_relay h halike, hlimited]
    exact ⟨_, rfl, rfl⟩

end Requests

section Messages

variable (http : KoaJsonRpc) (ws : Settings) (configured : ℕ) (ip requestId : String)
  (parse : String → Option Json) (services : ℕ → Services) (limiter : ℕ → Limiter)
  (calls : ℕ → Calls)

/-- Settings of the two servers with one limit for all methods. -/
def plainHttp : KoaJsonRpc :=
  { KoaJsonRpc.defaults with
    batchRequestsMaxSize := 20
    batchRequestsDisallowedMethods := ["debug_traceTransaction", "debug_traceBlockByNumber"]
    methodConfig := [] }

def plainWs : Settings := { Settings.defaults with rateLimits := ⟨200, 200, 200⟩ }

private theorem plain_alike : ConfiguredAlike plainHttp plainWs where
  maxSize := rfl
  disallowed := rfl
  limits method total h := by
    simp only [methodConfiguration, plainWs] at h
    have htotal : total = 200 := by
      split_ifs at h <;> simpa using h.symm
    rw [htotal]
    rfl

private theorem isRelayRequest_chainId (id : String) :
    IsRelayRequest plainWs (Settings.request "eth_chainId" (.string id)) where
  version := rfl
  method := ⟨"eth_chainId", rfl, by decide, by decide, by decide, by decide⟩
  id := ⟨.string id, rfl, rfl⟩
  params params h := by cases h

def chainIdBatch : Json :=
  .array [Settings.request "eth_chainId" (.string "a"), Settings.request "eth_chainId" (.string "b")]

/-- The limiter refuses the second request of a batch. -/
def secondLimited (i : ℕ) : Limiter := fun _ _ _ => i = 1

private theorem isAscii_chainIdBatch : IsAscii chainIdBatch.stringify := by
  have hchars : chainIdBatch.text.all (fun c => c.toNat < 128) = true := by decide +kernel
  rw [IsAscii, Json.stringify, String.toList_ofList]
  simpa using hchars

private theorem parse_chainIdBatch : Json.parse chainIdBatch.stringify = some chainIdBatch :=
  Json.parse_stringify (by simp [chainIdBatch, Settings.request, Json.Distinct,
    Json.ItemsDistinct, Json.FieldsDistinct])

private theorem isLimitedItem_chainIdBatch (i : ℕ) (hi : i < 2) :
    ([Settings.request "eth_chainId" (.string "a"),
      Settings.request "eth_chainId" (.string "b")][i]?.any
        (isLimitedItem plainWs "::1" (secondLimited i))) = decide (i = 1) := by
  interval_cases i <;> decide +kernel

end Messages

end JsonRpcRelay.WsServer

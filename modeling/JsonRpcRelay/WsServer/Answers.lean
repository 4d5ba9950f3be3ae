import JsonRpcRelay.WsServer.JsonRpcController

/-!
# Which messages are answered

A request is answered with its id exactly if it is not `null`, its properties can be written into
the log and the counters, its method is spelled as it is configured, and the branch that answers
it keeps the id.  A batch is answered item by item exactly if each of its items is.
-/

namespace JsonRpcRelay.WsServer

open Framework Server

/-- The id that the response has to carry. -/
def carriedId (request : Json) : Option ResponseId :=
  match request.field? "id" with
  | some (.string s) => some (.string s)
  | some (.number x) => some (.number x)
  | _ => none

/-- The request is answered, with its id. -/
def IsAnswered (request : Json) (result : Except Thrown IJsonRpcResponse) : Prop :=
  ∃ response, result = .ok response ∧ ∀ id, carriedId request = some id → response.id = id

/-- The id survives `id || null`. -/
def KeptOrNull : Option Json → Prop
  | none | some .null | some (.bool false) => True
  | some (.number x) => x ≠ .zero ∧ x ≠ .nan
  | some (.string s) => s ≠ ""
  | _ => False

namespace Settings

variable (server : Settings) (ip requestId : String) (calls : Calls)

/-- Subscriptions are disabled for the method. -/
def Disables (method : String) : Prop :=
  server.subscriptionsEnabled = false ∧
    (method = ETH_SUBSCRIBE ∧ calls.validateSubscriptionLimit = true ∨ method = ETH_UNSUBSCRIBE)

/-- A valid request of a supported method can be answered. -/
def IsProcessable (request id : Json) (method : String) : Prop :=
  match server.shouldRateLimitOnMethod ip calls method with
  | .error _ => False
  | .ok true => carriedId request = none
  | .ok false =>
      (server.Disables calls method → carriedId request = none) ∧
        (¬server.Disables calls method → (responseId (some id)).isSome)

/-- A request can be answered with its id. -/
def IsAnswerable (request : Json) : Prop :=
  request.isNull = false ∧ calls.methodsCounter (request.field? "method") = .ok () ∧
    match server.validRequestId request with
    | none =>
        interpolate [request.field? "jsonrpc", request.field? "method", request.field? "id"] =
            .ok () ∧
          KeptOrNull (request.field? "id")
    | some id =>
        ∃ method, request.field? "method" = some (.string method) ∧
          if verifySupportedMethod method then server.IsProcessable ip calls request id method
          else KeptOrNull (some id)

section Ids

variable {request : Json} {id : Json} {error : IJsonRpcError}

private theorem responseId_of_carried {i : ResponseId} (h : carriedId request = some i) :
    responseId (request.field? "id") = some i := by
  unfold carriedId at h
  split at h
  · rename_i hid
    rw [hid, ← h]
    rfl
  · rename_i hid
    rw [hid, ← h]
    rfl
  · cases h

private theorem carried_ne_null : carriedId request ≠ some .null := by
  unfold carriedId
  split <;> simp

private theorem validRequestId_carried (h : server.validRequestId request = some id)
    {i : ResponseId} (hi : carriedId request = some i) : responseId (some id) = some i := by
  have hown := responseId_of_carried hi
  unfold validRequestId at h
  split at h
  · split at h
    · cases h
    · split at h
      · rename_i hfield
        rw [← h, ← hfield, hown]
      · rename_i hfield
        rw [hfield] at hown
        cases hown
  · cases h

variable {server requestId}

private theorem isAnswered_jsonRespError {own : Option Json} :
    IsAnswered request (jsonRespError own error requestId) ↔
      ∃ i, responseId own = some i ∧ ∀ j, carriedId request = some j → i = j := by
  cases hid : responseId own with
  | none => simp [IsAnswered, jsonRespError_of_none hid]
  | some i => simp [IsAnswered, jsonRespError_of_some hid]

private theorem isAnswered_null :
    IsAnswered request (jsonRespError (some .null) error requestId) ↔ carriedId request = none := by
  rw [isAnswered_jsonRespError, Option.eq_none_iff_forall_ne_some]
  constructor
  · intro ⟨i, hi, hall⟩ j hj
    obtain rfl := Option.some.inj hi
    exact carried_ne_null (hall j hj ▸ hj)
  · intro hnone
    exact ⟨.null, rfl, fun j hj => absurd hj (hnone j)⟩

private theorem isAnswered_of_id (h : server.validRequestId request = some id)
    {result : Except Thrown IJsonRpcResponse}
    (hok : ∀ i, responseId (some id) = some i → ∃ response, result = .ok response ∧ response.id = i)
    (herror : responseId (some id) = none → ∃ err, result = .error err) :
    IsAnswered request result ↔ (responseId (some id)).isSome := by
  cases hid : responseId (some id) with
  | none =>
    obtain ⟨err, rfl⟩ := herror hid
    simp [IsAnswered]
  | some i =>
    obtain ⟨response, rfl, hresponse⟩ := hok i hid
    refine iff_of_true ⟨response, rfl, fun j hj => ?_⟩ rfl
    have hsame := server.validRequestId_carried h hj
    rw [hid] at hsame
    rw [hresponse]
    exact Option.some.inj hsame

private theorem responseId_orNull_number {x : Number} : responseId (orNull (some (.number x))) =
    if x = .zero ∨ x = .nan then some .null else some (.number x) := by
  show responseId (some (if x = .zero ∨ x = .nan then .null else .number x)) = _
  split <;> rfl

private theorem responseId_orNull_string {s : String} : responseId (orNull (some (.string s))) =
    if s = "" then some .null else some (.string s) := by
  show responseId (some (if s = "" then .null else .string s)) = _
  split <;> rfl

private theorem isAnswered_orNull :
    IsAnswered request (jsonRespError (orNull (request.field? "id")) error requestId) ↔
      KeptOrNull (request.field? "id") := by
  rw [isAnswered_jsonRespError, carriedId]
  cases request.field? "id" with
  | none => simp [orNull, responseId, KeptOrNull]
  | some id =>
    cases id with
    | number x =>
      rw [responseId_orNull_number]
      split
      · rename_i hzero
        obtain rfl | rfl := hzero <;> simp [KeptOrNull]
      · rename_i hne
        simp [KeptOrNull, not_or.mp hne]
    | string s =>
      rw [responseId_orNull_string]
      split <;> simp_all [KeptOrNull]
    | bool b => cases b <;> simp [orNull, responseId, KeptOrNull]
    | _ => simp [orNull, responseId, KeptOrNull]

/-- The same where a missing id was set. -/
theorem isAnswered_orNull_valid (h : server.validRequestId request = some id) :
    IsAnswered request (jsonRespError (orNull (some id)) error requestId) ↔
      KeptOrNull (some id) := by
  unfold validRequestId at h
  split at h
  · split at h
    · cases h
    · split at h
      · rename_i hfield
        rw [← h, ← hfield]
        exact isAnswered_orNull
      · rename_i hfield
        split at h
        · obtain rfl := Option.some.inj h
          rw [isAnswered_jsonRespError, responseId_orNull_string]
          simp [KeptOrNull, carriedId, hfield]
        · cases h
  · cases h

end Ids

section Handlers

variable {server requestId calls} {request id params : Json} {method event : String}
  {filters : Option Json} {response : IJsonRpcResponse}

private theorem raise_ok_iff {result : Except Thrown IJsonRpcResponse} :
    raise result = .ok response ↔ result = .ok response := by
  cases result <;> simp [raise, Except.mapError]

private theorem handleEthSubscribeLogs_id
    (h : server.handleEthSubscribeLogs calls id event filters = .ok response) :
    responseId (some id) = some response.id := by
  unfold handleEthSubscribeLogs at h
  split at h
  · cases h
  · split at h
    · cases h
    · split at h
      · cases h
      · exact jsonRespResult_id (raise_ok_iff.mp h)

private theorem handleEthSubscribeNewHeads_id
    (h : server.handleEthSubscribeNewHeads calls id event filters = .ok response) :
    responseId (some id) = some response.id := by
  unfold handleEthSubscribeNewHeads at h
  split at h
  · cases h
  · exact jsonRespResult_id (raise_ok_iff.mp h)

private theorem handleEthSubscribe_id (henabled : server.subscriptionsEnabled = true)
    (h : server.handleEthSubscribe requestId calls id params = .ok response) :
    responseId (some id) = some response.id := by
  rw [handleEthSubscribe, if_neg (by simp [henabled])] at h
  split at h
  · split at h
    · exact handleEthSubscribeLogs_id h
    · split at h
      · exact handleEthSubscribeNewHeads_id h
      · cases h
  · cases h

private theorem handleEthUnsubscribe_id (henabled : server.subscriptionsEnabled = true)
    (h : server.handleEthUnsubscribe requestId calls id params = .ok response) :
    responseId (some id) = some response.id := by
  rw [handleEthUnsubscribe, if_neg (by simp [henabled])] at h
  exact jsonRespResult_id (raise_ok_iff.mp h)

private theorem executeRequest_id
    (h : executeRequest requestId calls id method params = .ok response) :
    responseId (some id) = some response.id := by
  unfold executeRequest at h
  split at h
  · cases h
  · exact jsonRespError_id h
  · exact jsonRespResult_id h

private theorem handleSendingRequestsToRelay_id
    (h : handleSendingRequestsToRelay requestId calls id method params = .ok response) :
    responseId (some id) = some response.id := by
  unfold handleSendingRequestsToRelay at h
  split at h
  · rename_i hexecute
    obtain rfl := Except.ok.inj h
    exact executeRequest_id hexecute
  · exact jsonRespError_id (raise_ok_iff.mp h)

private theorem processMethod_id
    (h : server.processMethod requestId calls id method params = .ok response)
    (henabled : method = ETH_SUBSCRIBE ∨ method = ETH_UNSUBSCRIBE →
      server.subscriptionsEnabled = true) :
    responseId (some id) = some response.id := by
  unfold processMethod at h
  split at h
  · rename_i hsubscribe
    exact handleEthSubscribe_id (henabled (.inl hsubscribe)) h
  · split at h
    · rename_i hunsubscribe
      exact handleEthUnsubscribe_id (henabled (.inr hunsubscribe)) h
    · exact handleSendingRequestsToRelay_id h

private theorem processMethod_disabled (hdisabled : server.subscriptionsEnabled = false)
    (hmethod : method = ETH_SUBSCRIBE ∨ method = ETH_UNSUBSCRIBE) :
    server.processMethod requestId calls id method params =
      sendSubscriptionsDisabledError requestId := by
  obtain rfl | rfl := hmethod
  · rw [processMethod, if_pos rfl, handleEthSubscribe, if_pos (by simp [hdisabled])]
  · rw [processMethod, if_neg (by decide), if_pos rfl, handleEthUnsubscribe,
      if_pos (by simp [hdisabled])]

end Handlers

section Requests

variable {server ip requestId calls} {request id params : Json} {method : String}

private theorem isAnswered_processed (h : server.validRequestId request = some id)
    (hlimit : server.shouldRateLimitOnMethod ip calls method = .ok false)
    (hdisables : ¬server.Disables calls method) :
    IsAnswered request (server.processRequest ip requestId calls id method params) ↔
      (responseId (some id)).isSome := by
  rw [processRequest, hlimit]
  dsimp only
  split
  · exact isAnswered_of_id h (fun i hi => ⟨_, jsonRespError_of_some hi, rfl⟩)
      fun hi => ⟨_, jsonRespError_of_none hi⟩
  · rename_i hsubscriptions
    have henabled : method = ETH_SUBSCRIBE ∨ method = ETH_UNSUBSCRIBE →
        server.subscriptionsEnabled = true := by
      intro hmethod
      by_contra hnot
      apply hdisables
      refine ⟨by simpa using hnot, hmethod.imp_left fun hsubscribe => ⟨hsubscribe, ?_⟩⟩
      by_contra hfull
      exact hsubscriptions ⟨hsubscribe, hfull⟩
    cases hprocess : server.processMethod requestId calls id method params with
    | error raised =>
      exact isAnswered_of_id h (fun i hi => ⟨_, jsonRespError_of_some hi, rfl⟩)
        fun hi => ⟨_, jsonRespError_of_none hi⟩
    | ok response =>
      have hid := processMethod_id hprocess henabled
      refine isAnswered_of_id h (fun i hi => ⟨response, rfl, ?_⟩) fun hnone => ?_
      · rw [hid] at hi
        exact Option.some.inj hi
      · rw [hid] at hnone
        cases hnone

private theorem isAnswered_disabled
    (hlimit : server.shouldRateLimitOnMethod ip calls method = .ok false)
    (hdisables : server.Disables calls method) :
    IsAnswered request (server.processRequest ip requestId calls id method params) ↔
      carriedId request = none := by
  obtain ⟨hdisabled, hmethod⟩ := hdisables
  have hopen : ¬(method = ETH_SUBSCRIBE ∧ ¬calls.validateSubscriptionLimit) := by
    rintro ⟨rfl, hfull⟩
    obtain ⟨_, hvalid⟩ | hunsubscribe := hmethod
    · exact hfull hvalid
    · exact absurd hunsubscribe (by decide)
  have hrefused : server.processMethod requestId calls id method params =
      sendSubscriptionsDisabledError requestId :=
    processMethod_disabled hdisabled (hmethod.imp_left And.left)
  rw [processRequest, hlimit]
  dsimp only
  rw [if_neg hopen, hrefused]
  exact isAnswered_null

private theorem processRequest_answered_iff (h : server.validRequestId request = some id) :
    IsAnswered request (server.processRequest ip requestId calls id method params) ↔
      server.IsProcessable ip calls request id method := by
  unfold IsProcessable
  cases hlimit : server.shouldRateLimitOnMethod ip calls method with
  | error e => simp [processRequest, hlimit, IsAnswered]
  | ok limited =>
    cases limited with
    | true =>
      rw [processRequest, hlimit]
      exact isAnswered_null
    | false =>
      dsimp only
      by_cases hdisables : server.Disables calls method
      · rw [isAnswered_disabled hlimit hdisables]
        simp [hdisables]
      · rw [isAnswered_processed h hlimit hdisables]
        simp [hdisables]

private theorem processValidRequest_answered_iff (h : server.validRequestId request = some id)
    {name : Option Json} :
    IsAnswered request (server.processValidRequest ip requestId calls id name params) ↔
      ∃ method, name = some (.string method) ∧
        if verifySupportedMethod method then server.IsProcessable ip calls request id method
        else KeptOrNull (some id) := by
  unfold processValidRequest
  split
  · rename_i method
    split
    · rename_i hsupported
      rw [processRequest_answered_iff h]
      simp [hsupported]
    · rename_i hunsupported
      rw [isAnswered_orNull_valid h]
      simp [hunsupported]
  · rename_i hname
    simp only [IsAnswered, reduceCtorEq, false_and, exists_false, false_iff, not_exists, not_and]
    intro method hmethod
    exact absurd hmethod (hname method)

private theorem getRequestResult_answered_iff (server : Settings) (ip requestId : String)
    (calls : Calls) (request : Json) :
    IsAnswered request (server.getRequestResult ip requestId calls request) ↔
      server.IsAnswerable ip calls request := by
  rw [getRequestResult, IsAnswerable]
  cases hnull : request.isNull with
  | true => simp [IsAnswered]
  | false =>
    rw [if_neg Bool.false_ne_true]
    cases hcounter : calls.methodsCounter (request.field? "method") with
    | error e => simp [IsAnswered]
    | ok _ =>
      rw [validateJsonRpcRequest]
      cases hvalid : server.validRequestId request with
      | some id =>
        simp only [true_and]
        exact processValidRequest_answered_iff hvalid
      | none =>
        dsimp only
        cases hlog : interpolate
            [request.field? "jsonrpc", request.field? "method", request.field? "id"] with
        | error e => simp [IsAnswered]
        | ok _ =>
          simp only [true_and]
          exact isAnswered_orNull

end Requests

section Batches

/-- An item of a batch can be answered with its id. -/
def IsAnswerableItem (item : Json) : Prop :=
  match item.field? "method" with
  | some (.string method) =>
      if method ∈ server.batchRequestsDisallowedMethods then
        (responseId (item.field? "id")).isSome = true
      else server.IsAnswerable ip calls item
  | _ => server.IsAnswerable ip calls item

variable {server ip requestId calls} {item : Json}

private theorem isAnswered_own {error : IJsonRpcError} :
    IsAnswered item (jsonRespError (item.field? "id") error requestId) ↔
      (responseId (item.field? "id")).isSome := by
  rw [isAnswered_jsonRespError]
  cases hid : responseId (item.field? "id") with
  | none => simp
  | some i =>
    refine iff_of_true ⟨i, rfl, fun j hj => ?_⟩ rfl
    have hsame := responseId_of_carried hj
    rw [hid] at hsame
    exact Option.some.inj hsame

private theorem answerItem_answered_iff :
    IsAnswered item (server.answerItem ip requestId calls item) ↔
      server.IsAnswerableItem ip calls item := by
  rw [answerItem, IsAnswerableItem]
  cases hnull : item.isNull with
  | true =>
    have hitem : item = .null := by
      cases item <;> first | rfl | cases hnull
    subst hitem
    simp [IsAnswered, Json.field?, IsAnswerable, Json.isNull]
  | false =>
    have hrequest := getRequestResult_answered_iff server ip requestId calls item
    rw [if_neg Bool.false_ne_true]
    cases hmethod : item.field? "method" with
    | none => exact hrequest
    | some name =>
      cases name with
      | string method =>
        dsimp only
        by_cases hmem : method ∈ server.batchRequestsDisallowedMethods
        · rw [if_pos hmem, if_pos hmem]
          exact isAnswered_own
        · rw [if_neg hmem, if_neg hmem]
          exact hrequest
      | _ => exact hrequest

/-- A single message is answered exactly if it is answerable, and a batch that is processed is
answered item by item exactly if all its items are. -/
theorem messages_answered_iff (server : Settings) (ip requestId : String) (calls : ℕ → Calls) :
    (∀ request : Json, (∀ items, request ≠ .array items) →
      ((∃ response,
          server.handleMessage ip requestId calls request = .ok (.single response) ∧
            ∀ id, carriedId request = some id → response.id = id) ↔
        server.IsAnswerable ip (calls 0) request)) ∧
    ∀ items : List Json, server.batchRequestsEnabled = true →
      items.length ≤ server.batchRequestsMaxSize →
      ((∃ responses,
          server.handleMessage ip requestId calls (.array items) = .ok (.batch responses) ∧
            responses.length = items.length ∧
            ∀ i item response, items[i]? = some item → responses[i]? = some response →
              server.answerItem ip requestId (calls i) item = .ok response ∧
                ∀ id, carriedId item = some id → response.id = id) ↔
        ∀ i item, items[i]? = some item → server.IsAnswerableItem ip (calls i) item) := by
  refine ⟨fun request hrequest => ?_, fun items henabled hsize => ?_⟩
  · rw [← getRequestResult_answered_iff server ip requestId]
    have hsingle : server.handleMessage ip requestId calls request =
        (server.getRequestResult ip requestId (calls 0) request).map .single := by
      cases request with
      | array items => exact absurd rfl (hrequest items)
      | _ => rfl
    rw [hsingle]
    cases server.getRequestResult ip requestId (calls 0) request with
    | error e => simp [IsAnswered, Except.map]
    | ok response => simp [IsAnswered, Except.map]
  · have hanswers := promiseAll_mapIdx_iff (l := items)
      (f := fun i item => server.answerItem ip requestId (calls i) item)
      (P := fun _ item response => ∀ id, carriedId item = some id → response.id = id)
    have hitems : ∀ i item, server.IsAnswerableItem ip (calls i) item ↔
        IsAnswered item (server.answerItem ip requestId (calls i) item) :=
      fun i item => answerItem_answered_iff.symm
    simp only [hitems]
    rw [show (∀ i item, items[i]? = some item →
        IsAnswered item (server.answerItem ip requestId (calls i) item)) ↔ _ from hanswers.symm]
    refine exists_congr fun responses => and_congr_left fun _ => ?_
    rw [handleMessage, if_neg (by simp [henabled]), if_neg (by omega)]
    cases promiseAll (items.mapIdx fun i item =>
        server.answerItem ip requestId (calls i) item) with
    | error err => simp [Except.map]
    | ok values => simp [Except.map]

end Batches

section Examples

/-- The defaults of the configuration, with subscriptions. -/
def defaults : Settings where
  requestIdIsOptional := false
  subscriptionsEnabled := true
  newHeadsEnabled := true
  multipleAddressesEnabled := false
  batchRequestsEnabled := true
  batchRequestsMaxSize := 20
  batchRequestsDisallowedMethods := ["debug_traceTransaction", "debug_traceBlockByNumber"]
  rateLimits := ⟨100, 800, 1600⟩

/-- Nobody is limited, and every method returns a chain id. -/
def chainIdCalls : Calls where
  methodsCounter _ := .ok ()
  shouldRateLimit _ _ _ := .ok false
  validateSubscriptionLimit := true
  validateSubscribeEthLogsParams _ := .ok ()
  subscribe _ _ := some (.string "0x1")
  unsubscribe _ := 1
  executeRpcMethod _ _ := .ok (.ok (some (.string "0x12a")))

/-- Everybody is limited. -/
def limitedCalls : Calls := { chainIdCalls with shouldRateLimit := fun _ _ _ => .ok true }

def withoutSubscriptions : Settings := { defaults with subscriptionsEnabled := false }

def request (method : String) (id : Json) : Json :=
  .object [("jsonrpc", .string "2.0"), ("method", .string method), ("id", id)]

private theorem isAnswerable_chainId :
    defaults.IsAnswerable "::1" chainIdCalls (request "eth_chainId" (.string "a")) := by
  refine ⟨rfl, rfl, "eth_chainId", rfl, ?_⟩
  rw [if_pos (by decide)]
  exact ⟨fun hdisables => absurd hdisables.1 (by decide), fun _ => rfl⟩

/-- A batch whose second item asks for a method that batches do not allow. -/
def twoItems : List Json :=
  [request "eth_chainId" (.string "a"), request "debug_traceTransaction" (.string "b")]

private theorem isAnswerableItem_twoItems {i : ℕ} {item : Json} (h : twoItems[i]? = some item) :
    defaults.IsAnswerableItem "::1" chainIdCalls item := by
  rcases List.mem_pair.mp (List.mem_of_getElem? h) with rfl | rfl
  · exact isAnswerable_chainId
  · exact rfl

theorem messages_answered_twoItems :
    (∃ response,
      defaults.handleMessage "::1" "r" (fun _ => chainIdCalls)
          (request "eth_chainId" (.string "a")) = .ok (.single response) ∧
        ∀ id, carriedId (request "eth_chainId" (.string "a")) = some id → response.id = id) ∧
    ∃ responses,
      defaults.handleMessage "::1" "r" (fun _ => chainIdCalls) (.array twoItems) =
          .ok (.batch responses) ∧
        responses.length = 2 ∧
        ∀ (i : ℕ) item response, twoItems[i]? = some item → responses[i]? = some response →
          defaults.answerItem "::1" "r" chainIdCalls item = .ok response ∧
            ∀ id, carriedId item = some id → response.id = id := by
  have hiff := messages_answered_iff defaults "::1" "r" fun _ => chainIdCalls
  refine ⟨(hiff.1 _ fun items h => by cases h).mpr isAnswerable_chainId, ?_⟩
  exact (hiff.2 twoItems rfl (by decide)).mpr fun i item hitem => isAnswerableItem_twoItems hitem

/-- The id 0 is lost with an unsupported method, any id is lost where a request is limited or
subscriptions are disabled, and a method in upper case takes the answer away from the request
before it. -/
theorem unanswered_messages :
    ¬IsAnswered (request "eth_foo" (.number .zero))
        (defaults.getRequestResult "::1" "r" chainIdCalls (request "eth_foo" (.number .zero))) ∧
      ¬IsAnswered (request "eth_chainId" (.string "a"))
        (defaults.getRequestResult "::1" "r" limitedCalls
          (request "eth_chainId" (.string "a"))) ∧
      ¬IsAnswered (request "eth_subscribe" (.string "a"))
        (withoutSubscriptions.getRequestResult "::1" "r" chainIdCalls
          (request "eth_subscribe" (.string "a"))) ∧
      ∀ sent, defaults.handleMessage "::1" "r" (fun _ => chainIdCalls)
        (.array [request "eth_chainId" (.string "a"), request "ETH_CHAINID" (.string "b")]) ≠
          .ok sent := by
  refine ⟨?_, ?_, ?_, ?_⟩
  · rintro ⟨response, hok, hid⟩
    obtain rfl := Except.ok.inj hok
    have hzero := hid (.number .zero) rfl
    cases hzero
  · rintro ⟨response, hok, hid⟩
    obtain rfl := Except.ok.inj hok
    have hsame := hid (.string "a") rfl
    cases hsame
  · rintro ⟨response, hok, hid⟩
    obtain rfl := Except.ok.inj hok
    have hsame := hid (.string "a") rfl
    cases hsame
  · intro sent hok
    cases hok

end Examples

end Settings

end JsonRpcRelay.WsServer

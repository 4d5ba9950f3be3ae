import JsonRpcRelay.Cache.ViewHandlers

/-!
# Traces behind the cache

The call tracer leaves an address as it is where its lookup fails, and the prestate tracer leaves
out an entity of which a request fails.  Concurrent requests are listed in the order of their
answers: which of several errors is raised makes no difference to what is stored.
-/

namespace JsonRpcRelay.Cache.Traces

open constants Mirror Common Blocks Debug Framework Tracked Views

section CallTraces

/-- The records of a transaction, or a log of it. -/
abbrev CallRecords := MirrorNodeLog ⊕ (TracedAction × List TracedAction × MirrorNodeContractResult)

variable (services : DebugServices)

/-- What the call tracer asks for first. -/
def askCall (transactionHash : String) : Except RelayError CallRecords := do
  let actionsResponse ← services.getContractsResultsActions transactionHash
  let transactionsResponse ← services.getContractResultWithRetry transactionHash
  match callRecords actionsResponse transactionsResponse with
  | none => return .inl (← handleSynthetic services transactionHash id)
  | some records => return .inr records

def actionParties (action : TracedAction) : Parties := ⟨action.fromAddress, action.toAddress⟩

def logParties (log : MirrorNodeLog) : Parties :=
  ⟨some (syntheticParties log).1, some (syntheticParties log).2⟩

/-- The call inside a transaction with the addresses that were looked up. -/
def subCall (index : ℕ) (action : TracedAction) (parties : Parties) : Except RelayError SubCall :=
  (Debug.formatAction services index action).map fun call =>
    { call with fromAddress := parties.fromAddress, toAddress := parties.toAddress }

/-- The call of a transaction with the addresses that were looked up. -/
def withCallParties (call : CallTracerResult) (parties : Parties) : CallTracerResult :=
  { call with fromAddress := parties.fromAddress, toAddress := parties.toAddress }

/-- The call of a transaction with the calls inside of it. -/
def recordCall (onlyTopCall : Option Bool) (action : TracedAction) (actions : List TracedAction)
    (record : MirrorNodeContractResult) (formattedActions : List SubCall) (parties : Parties) :
    Except RelayError CallTracerResult :=
  (topCall services action.callType record
    (if onlyTopCall = some true ∨ actions = [] then [] else formattedActions.drop 1)).map
      (withCallParties · parties)

variable (lookups : Lookups) (transactionHash : String) (onlyTopCall : Option Bool)

/-- The parties of the transaction have the lookups 0 and 1, those of its actions the next ones. -/
def formatActions (actions : List TracedAction) : Tracked RelayError (List SubCall) :=
  actions.zipIdx.mapM fun (action, index) => do
    let parties ← resolveParties lookups transactionHash (index + 1) allTypes (actionParties action)
    request (subCall services index action parties)

def callTraceOf : CallRecords → Tracked RelayError CallTracerResult
  | .inl log => do
      let parties ← resolveParties lookups transactionHash 0 allTypes (logParties log)
      return withCallParties (syntheticCall services log) parties
  | .inr (action, actions, record) => do
      let formattedActions ← formatActions services lookups transactionHash (action :: actions)
      let parties ← resolveParties lookups transactionHash 0 allTypes (resultParties record)
      request (recordCall services onlyTopCall action actions record formattedActions parties)

def callTracer : Tracked RelayError CallTracerResult :=
  tryCatch (request (askCall services transactionHash) >>=
      callTraceOf services lookups transactionHash onlyTopCall)
    fun e => throw (genericErrorHandler e)

/-- The trace with the addresses that are found. -/
def callMade : CallRecords → Except RelayError CallTracerResult
  | .inl log => .ok (withCallParties (syntheticCall services log)
      (resolvedParties lookups transactionHash 0 allTypes (logParties log)))
  | .inr (action, actions, record) => do
      let formattedActions ← (action :: actions).zipIdx.mapM fun (action, index) =>
        subCall services index action
          (resolvedParties lookups transactionHash (index + 1) allTypes (actionParties action))
      recordCall services onlyTopCall action actions record formattedActions
        (resolvedParties lookups transactionHash 0 allTypes (resultParties record))

def callTraced : Except RelayError CallTracerResult :=
  (askCall services transactionHash >>=
    callMade services lookups transactionHash onlyTopCall).mapError genericErrorHandler

/-- An address of the transaction or of a call inside of it is left as it is because of a failed
request. -/
def CallUnresolved : CallRecords → Prop
  | .inl log => areUnresolved lookups transactionHash 0 allTypes (logParties log) = true
  | .inr (action, actions, record) =>
      (∃ p ∈ (action :: actions).zipIdx,
        areUnresolved lookups transactionHash (p.2 + 1) allTypes (actionParties p.1) = true) ∨
      areUnresolved lookups transactionHash 0 allTypes (resultParties record) = true

def CallMisses : Prop :=
  ∃ data, askCall services transactionHash = .ok data ∧
    CallUnresolved lookups transactionHash data

private theorem ends_callTraceOf (data : CallRecords) :
    Ends (callTraceOf services lookups transactionHash onlyTopCall data)
      (callMade services lookups transactionHash onlyTopCall data)
      (CallUnresolved lookups transactionHash data) := by
  rcases data with log | ⟨action, actions, record⟩
  · exact (ends_resolveParties lookups transactionHash 0 allTypes _).then_tracks (tracks_pure _)
  · refine Ends.bind (ends_mapM fun p _ => ?_) fun formattedActions _ => ?_
    · exact (ends_resolveParties lookups transactionHash (p.2 + 1) allTypes _).then_tracks
        (tracks_request _)
    · exact (ends_resolveParties lookups transactionHash 0 allTypes _).then_tracks
        (tracks_request _)

private theorem ends_callTracer :
    Ends (callTracer services lookups transactionHash onlyTopCall)
      (callTraced services lookups transactionHash onlyTopCall)
      (CallMisses services lookups transactionHash) :=
  ((tracks_request _).bind_ends fun data _ =>
    ends_callTraceOf services lookups transactionHash onlyTopCall data).rethrow _

end CallTraces

section PrestateTraces

variable (accountEntity : AccountEntity) (replies : EntityReplies)

def entityLookup : LookupReplies TracedEntity where
  cachedResponse := replies.cachedResponse
  getContract := replies.getContract
  getAccount := replies.getAccount
  getTokenById := replies.getTokenById
  exclusive := replies.exclusive

/-- The balance and the storage of a contract. -/
def askContractState (entity : TracedEntity) : Tracked RelayError EntitytTraceState := do
  let _ ← request replies.getBalanceAtTimestamp
  let _ ← request replies.getContractState
  ofExcept (contractState replies entity)

def askEntityState : Tracked RelayError (Option (String × EntitytTraceState)) := do
  match ← (entityLookup replies).resolveEntityType (searchedType accountEntity.type).toList with
  | none => return none
  | some ⟨type, entity⟩ =>
      match entity.evmAddress.filter (· ≠ "") with
      | none => return none
      | some evmAddress =>
          match type with
          | .contract => return some (evmAddress, ← askContractState replies entity)
          | .account => return some (evmAddress, accountState entity)
          | .token => return none

/-- What one of the concurrent tasks adds; an error is logged and the entity left out. -/
def entityState : Tracked RelayError (Option (String × EntitytTraceState)) :=
  tryCatch (askEntityState accountEntity replies) fun _ => return none

/-- The request for the balance or the storage of a contract fails. -/
def stateRequestFails : Bool :=
  !replies.getBalanceAtTimestamp.isOk || !replies.getContractState.isOk

/-- The entity is left out because of a failed request. -/
def entityMissed : Bool :=
  (entityLookup replies).isMissed (searchedType accountEntity.type).toList ||
    match entityObject accountEntity replies with
    | some ⟨.contract, entity⟩ =>
        (entity.evmAddress.filter (· ≠ "")).isSome && stateRequestFails replies
    | _ => false

private theorem askContractState_eq (entity : TracedEntity) :
    askContractState replies entity =
      ⟨contractState replies entity, stateRequestFails replies⟩ := by
  unfold askContractState contractState stateRequestFails
  cases replies.getBalanceAtTimestamp with
  | error e => rfl
  | ok balances =>
    cases replies.getContractState with
    | error e => rfl
    | ok items =>
      cases balances with
      | none => rfl
      | some balances => rfl

private theorem found_entityLookup :
    (entityLookup replies).found (searchedType accountEntity.type).toList =
      entityObject accountEntity replies := by
  unfold LookupReplies.found entityObject
  cases hcached : replies.cachedResponse with
  | some entity => rw [resolveEntityType_of_hit hcached, resolveEntityType_of_hit rfl]
  | none =>
    rw [resolveEntityType_of_miss hcached, resolveEntityType_of_miss rfl]
    rfl

private theorem askEntityState_eq :
    askEntityState accountEntity replies =
      ⟨tracedState accountEntity replies, entityMissed accountEntity replies⟩ := by
  have hfound := found_entityLookup accountEntity replies
  unfold askEntityState tracedState entityMissed LookupReplies.resolveEntityType
  rw [bind_of_ok rfl]
  unfold LookupReplies.isMissed
  rw [hfound]
  cases entityObject accountEntity replies with
  | none => exact Tracked.ext rfl rfl
  | some found =>
    obtain ⟨type, entity⟩ := found
    cases type with
    | contract =>
      dsimp only
      cases entity.evmAddress.filter (· ≠ "") with
      | none => rfl
      | some evmAddress =>
        dsimp only
        rw [askContractState_eq]
        cases contractState replies entity with
        | error e => exact Tracked.ext rfl rfl
        | ok state => exact Tracked.ext rfl (Bool.or_false _)
    | account => cases h : entity.evmAddress.filter (· ≠ "") <;> simp only [h] <;> rfl
    | token => cases h : entity.evmAddress.filter (· ≠ "") <;> simp only [h] <;> rfl

private theorem ends_entityState :
    Ends (entityState accountEntity replies) (.ok (settledState accountEntity replies))
      (entityMissed accountEntity replies = true) := by
  unfold entityState settledState
  rw [askEntityState_eq]
  cases tracedState accountEntity replies with
  | error e => exact ⟨rfl, fun _ _ => by rw [tryCatch_of_error rfl, pure_eq, Bool.or_false]⟩
  | ok state => exact ⟨rfl, fun _ _ => by rw [tryCatch_of_ok rfl]⟩

/-- The states of the entities, in the order in which their tasks end. -/
def collectStates (replies : TraceReplies) (entities : List AccountEntity) :
    Tracked RelayError EntityTraceStateMap := do
  let states ← (replies.settled entities).mapM fun entity =>
    entityState entity (replies.entity entity)
  return setEntries (states.filterMap id) []

private theorem ends_collectStates (replies : TraceReplies) (entities : List AccountEntity) :
    Ends (collectStates replies entities) (.ok (collectedStates replies entities))
      (∃ entity ∈ entities, entityMissed entity (replies.entity entity) = true) := by
  have hends := ends_mapM fun entity (_ : entity ∈ replies.settled entities) =>
    ends_entityState entity (replies.entity entity)
  have hstates : (replies.settled entities).mapM (m := Except RelayError)
      (fun entity => .ok (settledState entity (replies.entity entity))) =
        .ok ((replies.settled entities).map fun entity =>
          settledState entity (replies.entity entity)) := List.mapM_pure
  have hcollected : collectedStates replies entities =
      setEntries (((replies.settled entities).map fun entity =>
        settledState entity (replies.entity entity)).filterMap id) [] := by
    rw [List.filterMap_map]
    rfl
  rw [hstates] at hends
  rw [hcollected]
  refine (hends.then_tracks (f := fun states => pure (setEntries (states.filterMap id) []))
    (tracks_pure _)).congr fun _ _ => ?_
  simp only [(replies.settled_perm entities).mem_iff]

variable (call : TraceCall)

def tracePrestate (replies : TraceReplies) : Tracked RelayError EntityTraceStateMap := do
  match ← request replies.getContractsResultsActions with
  | none | some [] => request (handleSyntheticTransaction call replies)
  | some (action :: actions) =>
      match accountEntities call.onlyTopCall (action :: actions) with
      | [] => return []
      | entity :: entities => collectStates replies (entity :: entities)

/-- One of the entities is left out because of a failed request. -/
def SomeMissed (replies : TraceReplies) : Prop :=
  ∃ entity ∈ replies.lookedUp call, entityMissed entity (replies.entity entity) = true

private theorem ends_tracePrestate (replies : TraceReplies) :
    Ends (tracePrestate call replies) (Debug.tracePrestate call replies).1
      (SomeMissed call replies) := by
  have hsynthetic := (tracks_request (handleSyntheticTransaction call replies)).ends
  unfold tracePrestate Debug.tracePrestate SomeMissed TraceReplies.lookedUp
  cases replies.getContractsResultsActions with
  | error e =>
    refine ⟨rfl, fun _ ha => ?_⟩
    cases ha
  | ok actions =>
    rw [bind_of_ok rfl]
    match actions with
    | none => exact hsynthetic.congr fun _ _ => by simp
    | some [] =>
      exact hsynthetic.congr fun _ _ => by simp [accountEntities, addressMap, setEntries]
    | some (action :: actions) =>
      dsimp only
      cases accountEntities call.onlyTopCall (action :: actions) with
      | nil => exact (tracks_pure []).ends.congr fun _ _ => by simp
      | cons entity entities =>
        exact ends_collectStates replies (entity :: entities)

end PrestateTraces

section Handlers

variable (config : DebugConfig) (upstream : Upstream) (transactionHash : String)

/-- What is answered to a call of the prestate tracer. -/
def repliesTo (call : TraceCall) : TraceReplies :=
  prestateReplies (upstream.traces call.transactionHash) (upstream.timing call.transactionHash)
    call.transactionHash

/-- A trace that the cache has is returned. -/
def prestateTracer (call : TraceCall) : Tracked RelayError EntityTraceStateMap :=
  match upstream.keptTraces call with
  | some kept => ⟨.ok kept.result, kept.missed⟩
  | none => tracePrestate call (repliesTo upstream call)

def prestateTraced (call : TraceCall) : Except RelayError EntityTraceStateMap :=
  match upstream.keptTraces call with
  | some kept => .ok kept.result
  | none => (Debug.tracePrestate call (repliesTo upstream call)).1

def PrestateMisses (call : TraceCall) : Prop :=
  match upstream.keptTraces call with
  | some kept => kept.missed = true
  | none => SomeMissed call (repliesTo upstream call)

private theorem ends_prestateTracer (call : TraceCall) :
    Ends (prestateTracer upstream call) (prestateTraced upstream call)
      (PrestateMisses upstream call) := by
  unfold prestateTracer prestateTraced PrestateMisses
  cases upstream.keptTraces call with
  | none => exact ends_tracePrestate call _
  | some kept => exact ⟨rfl, fun _ _ => Iff.rfl⟩

/-- The opcode logger raises the errors of all its requests. -/
def opcodesTraced (tracerConfig : ITracerConfig) : Except RelayError OpcodeLoggerResult :=
  if config.opcodeLoggerEnabled then
    callOpcodeLogger (upstream.traces transactionHash) transactionHash tracerConfig
  else .error (.jsonRpcError predefined.UNSUPPORTED_METHOD)

def runTracer (tracer : TracerType) (tracerConfig : ITracerConfig) : Tracked RelayError Trace :=
  match tracer with
  | .callTracer => do
      return .call (← callTracer (upstream.traces transactionHash) upstream.lookups
        transactionHash tracerConfig.onlyTopCall)
  | .prestateTracer => do
      return .prestate (← prestateTracer upstream
        ⟨transactionHash, tracerConfig.onlyTopCall.getD false⟩)
  | .opcodeLogger => do
      return .opcodes (← request (opcodesTraced config upstream transactionHash tracerConfig))

def traced (tracer : TracerType) (tracerConfig : ITracerConfig) : Except RelayError Trace :=
  match tracer with
  | .callTracer => do
      return .call (← callTraced (upstream.traces transactionHash) upstream.lookups
        transactionHash tracerConfig.onlyTopCall)
  | .prestateTracer => do
      return .prestate (← prestateTraced upstream
        ⟨transactionHash, tracerConfig.onlyTopCall.getD false⟩)
  | .opcodeLogger => do
      return .opcodes (← opcodesTraced config upstream transactionHash tracerConfig)

/-- A failed request leaves its mark on the trace. -/
def TraceMisses (tracer : TracerType) (onlyTopCall : Option Bool) : Prop :=
  match tracer with
  | .callTracer => CallMisses (upstream.traces transactionHash) upstream.lookups transactionHash
  | .prestateTracer => PrestateMisses upstream ⟨transactionHash, onlyTopCall.getD false⟩
  | .opcodeLogger => False

private theorem ends_runTracer (tracer : TracerType) (tracerConfig : ITracerConfig) :
    Ends (runTracer config upstream transactionHash tracer tracerConfig)
      (traced config upstream transactionHash tracer tracerConfig)
      (TraceMisses upstream transactionHash tracer tracerConfig.onlyTopCall) := by
  have hreturn {α : Type} (toTrace : α → Trace) (a : α) :=
    (tracks_pure (ε := RelayError) (toTrace a)).ends
  cases tracer with
  | callTracer =>
    exact ((ends_callTracer _ _ _ _).bind fun _ _ => hreturn _ _).congr fun _ _ => by
      simp [TraceMisses]
  | prestateTracer =>
    exact ((ends_prestateTracer _ _).bind fun _ _ => hreturn _ _).congr fun _ _ => by
      simp [TraceMisses]
  | opcodeLogger => exact ((tracks_request _).bind fun _ _ => tracks_pure _).ends

def tracerOf (tracerObject : Option ITracerConfigWrapper) : TracerType :=
  (tracerObject.bind (·.tracer)).getD .opcodeLogger

def configOf (tracerObject : Option ITracerConfigWrapper) : ITracerConfig :=
  (tracerObject.map tracerConfigOf).getD {}

def traceTransaction (tracerObject : Option ITracerConfigWrapper) : Tracked RelayError Trace :=
  tryCatch (request (requireDebugAPIEnabled config) >>= fun _ =>
      runTracer config upstream transactionHash (tracerOf tracerObject) (configOf tracerObject))
    fun e => throw (genericErrorHandler e)

def transactionTraced (tracerObject : Option ITracerConfigWrapper) : Except RelayError Trace :=
  (requireDebugAPIEnabled config >>= fun _ =>
    traced config upstream transactionHash (tracerOf tracerObject)
      (configOf tracerObject)).mapError genericErrorHandler

theorem ends_traceTransaction (tracerObject : Option ITracerConfigWrapper) :
    Ends (traceTransaction config upstream transactionHash tracerObject)
      (transactionTraced config upstream transactionHash tracerObject)
      (TraceMisses upstream transactionHash (tracerOf tracerObject)
        (configOf tracerObject).onlyTopCall) :=
  (((tracks_request _).ends.bind fun _ _ => ends_runTracer config upstream transactionHash _
    _).congr fun _ _ => by simp).rethrow _

variable (tracer : TracerType) (onlyTopCall : Option Bool) (blockNumber : BlockParam)
  (tracerObject : Option ITracerConfigWrapper)

/-- A transaction of a block. -/
def tracedInBlock (txHash : String) : Tracked RelayError TraceBlockByNumberTxResult := do
  return ⟨txHash, ← runTracer config upstream txHash tracer { onlyTopCall }⟩

def blockTraceOf (transactionHashes : List String) :
    Tracked RelayError (List TraceBlockByNumberTxResult) :=
  match tracer with
  | .opcodeLogger => return []
  | _ => transactionHashes.mapM (tracedInBlock config upstream tracer onlyTopCall)

/-- The transactions of a block are traced by the call tracer or the prestate tracer. -/
def traceBlockByNumber : Tracked RelayError (List TraceBlockByNumberTxResult) :=
  tryCatch (request (tracedHashes config upstream.blocks blockNumber) >>=
      blockTraceOf config upstream (blockTracer tracerObject) (blockOnlyTopCall tracerObject))
    fun e => throw (genericErrorHandler e)

def blockMade (transactionHashes : List String) :
    Except RelayError (List TraceBlockByNumberTxResult) :=
  match tracer with
  | .opcodeLogger => return []
  | _ => transactionHashes.mapM fun txHash => do
      return ⟨txHash, ← traced config upstream txHash tracer { onlyTopCall }⟩

def blockTraced : Except RelayError (List TraceBlockByNumberTxResult) :=
  (tracedHashes config upstream.blocks blockNumber >>=
    blockMade config upstream (blockTracer tracerObject)
      (blockOnlyTopCall tracerObject)).mapError genericErrorHandler

/-- A failed request leaves its mark on the trace of one of the transactions. -/
def BlockMisses : Prop :=
  ∃ transactionHashes, tracedHashes config upstream.blocks blockNumber = .ok transactionHashes ∧
    ∃ txHash ∈ transactionHashes,
      TraceMisses upstream txHash (blockTracer tracerObject) (blockOnlyTopCall tracerObject)

private theorem ends_blockTraceOf (transactionHashes : List String) :
    Ends (blockTraceOf config upstream tracer onlyTopCall transactionHashes)
      (blockMade config upstream tracer onlyTopCall transactionHashes)
      (∃ txHash ∈ transactionHashes, TraceMisses upstream txHash tracer onlyTopCall) := by
  have htraced (tracer : TracerType) (txHash : String) :
      Ends (tracedInBlock config upstream tracer onlyTopCall txHash)
        (do return ⟨txHash, ← traced config upstream txHash tracer { onlyTopCall }⟩)
        (TraceMisses upstream txHash tracer onlyTopCall) :=
    ((ends_runTracer config upstream txHash tracer { onlyTopCall }).bind fun trace _ =>
      (tracks_pure (TraceBlockByNumberTxResult.mk txHash trace)).ends).congr fun _ _ =>
        iff_of_eq (or_false _)
  cases tracer with
  | callTracer => exact ends_mapM fun txHash _ => htraced _ txHash
  | prestateTracer => exact ends_mapM fun txHash _ => htraced _ txHash
  | opcodeLogger => exact (tracks_pure []).ends.congr fun _ _ => by simp [TraceMisses]

theorem ends_traceBlockByNumber :
    Ends (traceBlockByNumber config upstream blockNumber tracerObject)
      (blockTraced config upstream blockNumber tracerObject)
      (BlockMisses config upstream blockNumber tracerObject) :=
  ((tracks_request _).bind_ends fun transactionHashes _ =>
    ends_blockTraceOf config upstream _ _ transactionHashes).rethrow _

end Handlers

end JsonRpcRelay.Cache.Traces

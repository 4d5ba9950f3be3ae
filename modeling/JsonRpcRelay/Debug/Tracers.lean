import JsonRpcRelay.Common.CommonService
import JsonRpcRelay.Debug.PrestateTraces
import JsonRpcRelay.Framework.Settling

/-!
# Tracers

`debug_traceTransaction` runs one of three tracers.  A transaction without a trace of its own may
still have logs, and is then traced as if nothing had run.  What the options turn off is left out
of the trace, and nothing else is changed by them.
-/

namespace JsonRpcRelay.Debug

open constants Mirror Framework Common Blocks

inductive TracerType where
  | callTracer
  | opcodeLogger
  | prestateTracer
  deriving DecidableEq

structure ITracerConfig where
  onlyTopCall : Option Bool := none
  enableMemory : Option Bool := none
  disableStack : Option Bool := none
  disableStorage : Option Bool := none
  fullStorage : Option Bool := none
  deriving DecidableEq

/-- The options of a request.  Those of the opcode logger may stand beside `tracer` and
`tracerConfig`. -/
structure ITracerConfigWrapper where
  tracer : Option TracerType := none
  tracerConfig : Option ITracerConfig := none
  enableMemory : Option Bool := none
  disableStack : Option Bool := none
  disableStorage : Option Bool := none
  fullStorage : Option Bool := none
  deriving DecidableEq

/-- An action with what the call tracer reads of it. -/
structure TracedAction extends ContractAction where
  callType : String
  callOperationType : String
  gas : ℕ
  gasUsed : ℕ
  input : Option String
  resultData : Option String
  value : Option ℤ

structure ContractBytecode where
  bytecode : Option String
  runtimeBytecode : Option String

structure IOpcode where
  pc : ℕ
  op : String
  gas : ℕ
  gasCost : ℕ
  depth : ℕ
  stack : Option (List String)
  memory : Option (List String)
  storage : Option (List (String × String))
  reason : Option String

structure IOpcodesResponse where
  gas : ℕ
  failed : Bool
  returnValue : Option String
  opcodes : Option (List IOpcode)

/-- What the opcode logger asks for. -/
structure OpcodeOptions where
  memory : Bool
  stack : Bool
  storage : Bool
  deriving DecidableEq

/-- A call inside a transaction. -/
structure SubCall where
  type : String
  fromAddress : Option String
  toAddress : Option String
  gas : String
  gasUsed : String
  input : Option String
  output : Option String
  value : String
  deriving DecidableEq

structure CallTracerResult where
  type : String
  fromAddress : Option String
  toAddress : Option String
  value : String
  gas : String
  gasUsed : String
  input : String
  output : Option String
  error : Option String := none
  revertReason : Option String := none
  calls : List SubCall
  deriving DecidableEq

structure StructLog where
  pc : ℕ
  op : String
  gas : ℕ
  gasCost : ℕ
  depth : ℕ
  stack : Option (List String)
  memory : Option (List String)
  storage : Option (List (String × String))
  reason : Option String
  deriving DecidableEq

structure OpcodeLoggerResult where
  gas : ℕ
  failed : Bool
  returnValue : String
  structLogs : Option (List StructLog)
  deriving DecidableEq

inductive Trace where
  | call (result : CallTracerResult)
  | prestate (result : EntityTraceStateMap)
  | opcodes (result : OpcodeLoggerResult)
  deriving DecidableEq

structure DebugConfig where
  debugApiEnabled : Bool
  opcodeLoggerEnabled : Bool

/-- What the requests about a transaction are answered.  The record of a transaction is asked for
until it is mature. -/
structure DebugServices where
  getContractsResultsActions : String → Except RelayError (Option (List TracedAction))
  getContractResultWithRetry : String → Except RelayError (Option MirrorNodeContractResult)
  getContractsResultsOpcodes :
    String → OpcodeOptions → Except RelayError (Option IOpcodesResponse)
  getContract : String → Except RelayError (Option ContractBytecode)
  getLogsWithParams : String → Except RelayError (List MirrorNodeLog)
  resolveEntityType : String → Option (ResolvedEntity TracedEntity)
  entity : AccountEntity → EntityReplies

/-- The order in which the concurrent tasks of one trace end. -/
structure Timing where
  resultFirst : Bool
  actions : Settling
  entities : List AccountEntity → List AccountEntity
  entities_perm : ∀ l, (entities l).Perm l

section Tracers

variable (config : DebugConfig) (services : DebugServices) (timing : Timing)

def requireDebugAPIEnabled : Except RelayError Unit :=
  if config.debugApiEnabled then .ok ()
  else .error (.jsonRpcError predefined.UNSUPPORTED_METHOD)

def resolveAddress (address : Option String) : Option String :=
  match address with
  | none => none
  | some address =>
    if address = "" then some address
    else
      match services.resolveEntityType address with
      | some ⟨.contract, entity⟩ | some ⟨.account, entity⟩ =>
        some ((entity.evmAddress.filter (· ≠ "")).getD address)
      | _ => some address

/-- The input and the output of a contract that the call creates are those of the contract. -/
def createdContract (index : ℕ) (action : TracedAction) :
    Except RelayError (Option ContractBytecode) :=
  match action.toAddress.filter (· ≠ "") with
  | some address =>
    if index ≠ 0 ∧ action.callOperationType ∈ ["CREATE", "CREATE2"] then
      services.getContract address
    else .ok none
  | none => .ok none

def valueTo0x (amount : Option ℤ) : Except RelayError String :=
  (tinybarsToWeibars amount).map fun value => numberTo0x (value.getD 0)

def formatAction (index : ℕ) (action : TracedAction) : Except RelayError SubCall := do
  let contract ← createdContract services index action
  let value ← valueTo0x action.value
  return {
    type := action.callOperationType
    fromAddress := resolveAddress services action.fromAddress
    toAddress := resolveAddress services action.toAddress
    gas := numberTo0x action.gas
    gasUsed := numberTo0x action.gasUsed
    input := (contract.bind (·.bytecode)).or action.input
    output := (contract.bind (·.runtimeBytecode)).or action.resultData
    value := value
  }

def formatActionsResult (result : List TracedAction) : Except RelayError (List SubCall) :=
  awaitAll timing.actions (result.mapIdx (formatAction services))

/-- A transaction that has only logs. -/
def handleSynthetic {α : Type} (transactionIdOrHash : String)
    (trace : MirrorNodeLog → α) : Except RelayError α :=
  match services.getLogsWithParams transactionIdOrHash with
  | .error e => .error e
  | .ok [] => .error (.jsonRpcError (predefined.RESOURCE_NOT_FOUND
      ("Failed to retrieve transaction information for " ++ transactionIdOrHash)))
  | .ok (log :: _) => .ok (trace log)

/-- The last twenty bytes of a topic. -/
def topicAddress (topic : String) : String :=
  prepend0x (String.ofList (topic.toList.drop (topic.length - 40)))

/-- The address of a log, or the sender and the recipient of a transfer. -/
def syntheticParties (log : MirrorNodeLog) : String × String :=
  match log.topics with
  | _ :: sender :: recipient :: _ => (topicAddress sender, topicAddress recipient)
  | _ => (log.address, log.address)

def syntheticCall (log : MirrorNodeLog) : CallTracerResult where
  type := "CALL"
  fromAddress := resolveAddress services (some (syntheticParties log).1)
  toAddress := resolveAddress services (some (syntheticParties log).2)
  gas := numberTo0x TX_DEFAULT_GAS_DEFAULT
  gasUsed := ZERO_HEX
  value := ZERO_HEX
  input := EMPTY_HEX
  output := some EMPTY_HEX
  calls := []

/-- `numberTo0x` of what may be `null`. -/
def gasTo0x : Option ℕ → Except RelayError String
  | some gas => .ok (numberTo0x gas)
  | none => .error (typeError "null" "toString")

/-- The call of a transaction with its record and its actions. -/
def topCall (type : String) (transactionsResponse : MirrorNodeContractResult)
    (calls : List SubCall) : Except RelayError CallTracerResult := do
  let value ← valueTo0x transactionsResponse.amount
  let gas ← gasTo0x transactionsResponse.gasLimit
  let gasUsed ← gasTo0x transactionsResponse.gasUsed
  let failed := transactionsResponse.result ≠ "SUCCESS"
  let error := transactionsResponse.errorMessage
  return {
    type := type
    fromAddress := resolveAddress services (some transactionsResponse.fromAddress)
    toAddress := resolveAddress services transactionsResponse.toAddress
    value := value
    gas := gas
    gasUsed := gasUsed
    input := transactionsResponse.functionParameters
    output := if failed then error else some transactionsResponse.callResult
    error := if failed then some transactionsResponse.result else none
    revertReason := if failed then some (decodeErrorMessage (error.getD "")) else none
    calls := calls
  }

/-- The first action of a transaction, if it has a type, and the record. -/
def callRecords (actionsResponse : Option (List TracedAction))
    (transactionsResponse : Option MirrorNodeContractResult) :
    Option (TracedAction × List TracedAction × MirrorNodeContractResult) :=
  match actionsResponse, transactionsResponse with
  | some (action :: actions), some record =>
    if action.callType = "" then none else some (action, actions, record)
  | _, _ => none

/-- The trace of a call from its records. -/
def recordTrace (transactionHash : String) (onlyTopCall : Option Bool) :
    Option (TracedAction × List TracedAction × MirrorNodeContractResult) →
      Except RelayError CallTracerResult
  | none => handleSynthetic services transactionHash (syntheticCall services)
  | some (action, actions, record) => do
    let formattedActions ← formatActionsResult services timing (action :: actions)
    topCall services action.callType record
      (if onlyTopCall = some true ∨ actions = [] then [] else formattedActions.drop 1)

/-- The trace of a call, before errors are handled. -/
def callTrace (transactionHash : String) (onlyTopCall : Option Bool) :
    Except RelayError CallTracerResult := do
  let (actionsResponse, transactionsResponse) ← awaitBoth timing.resultFirst
    (services.getContractsResultsActions transactionHash)
    (services.getContractResultWithRetry transactionHash)
  recordTrace services timing transactionHash onlyTopCall
    (callRecords actionsResponse transactionsResponse)

def callTracer (transactionHash : String) (onlyTopCall : Option Bool) :
    Except RelayError CallTracerResult :=
  (callTrace services timing transactionHash onlyTopCall).mapError genericErrorHandler

def formatOpcode (options : OpcodeOptions) (opcode : IOpcode) : StructLog where
  pc := opcode.pc
  op := opcode.op
  gas := opcode.gas
  gasCost := opcode.gasCost
  depth := opcode.depth
  stack := if options.stack then some ((opcode.stack.getD []).map strip0x) else none
  memory := if options.memory then some ((opcode.memory.getD []).map strip0x) else none
  storage :=
    if options.storage then
      some (setEntries ((opcode.storage.getD []).map fun e => (strip0x e.1, strip0x e.2)) [])
    else none
  reason := (opcode.reason.filter (· ≠ "")).map strip0x

def formatOpcodesResult (result : Option IOpcodesResponse) (options : OpcodeOptions) :
    OpcodeLoggerResult :=
  match result with
  | none => { gas := 0, failed := true, returnValue := "", structLogs := some [] }
  | some result => {
      gas := result.gas
      failed := result.failed
      returnValue := strip0x (result.returnValue.getD "")
      structLogs := result.opcodes.map fun opcodes => opcodes.map (formatOpcode options)
    }

def opcodeOptions (tracerConfig : ITracerConfig) : OpcodeOptions where
  memory := tracerConfig.enableMemory.getD false
  stack := !tracerConfig.disableStack.getD false
  storage := !tracerConfig.disableStorage.getD false

def syntheticOpcodes : OpcodeLoggerResult where
  gas := 0
  failed := false
  returnValue := ""
  structLogs := some []

/-- The trace of the opcodes, before errors are handled. -/
def opcodeTrace (transactionIdOrHash : String) (options : OpcodeOptions) :
    Except RelayError OpcodeLoggerResult := do
  match ← services.getContractsResultsOpcodes transactionIdOrHash options with
  | none => handleSynthetic services transactionIdOrHash fun _ => syntheticOpcodes
  | some response => return formatOpcodesResult (some response) options

def callOpcodeLogger (transactionIdOrHash : String) (tracerConfig : ITracerConfig) :
    Except RelayError OpcodeLoggerResult :=
  (opcodeTrace services transactionIdOrHash (opcodeOptions tracerConfig)).mapError
    genericErrorHandler

/-- What the requests of the prestate tracer for a transaction are answered. -/
def prestateReplies (transactionHash : String) : TraceReplies where
  getContractsResultsActions := (services.getContractsResultsActions transactionHash).map
    fun actions => actions.map fun actions => actions.map (·.toContractAction)
  getLogsWithParams := services.getLogsWithParams transactionHash
  entity := services.entity
  settled := timing.entities
  settled_perm := timing.entities_perm

/-- The configuration of a tracer is nested, or stands beside it for the opcode logger. -/
def tracerConfigOf (tracerObject : ITracerConfigWrapper) : ITracerConfig :=
  match tracerObject.tracerConfig, tracerObject.tracer with
  | some tracerConfig, _ => tracerConfig
  | none, some _ => {}
  | none, none => {
      enableMemory := tracerObject.enableMemory
      disableStack := tracerObject.disableStack
      disableStorage := tracerObject.disableStorage
    }

def runTracer (transactionHash : String) (tracer : TracerType) (tracerConfig : ITracerConfig)
    (cacheService : StateCache) : Except RelayError Trace × StateCache :=
  match tracer with
  | .callTracer =>
    ((callTracer services timing transactionHash tracerConfig.onlyTopCall).map .call, cacheService)
  | .prestateTracer =>
    let call := ⟨transactionHash, tracerConfig.onlyTopCall.getD false⟩
    let traced := prestateTracer call (prestateReplies services timing transactionHash) cacheService
    (traced.1.map .prestate, traced.2)
  | .opcodeLogger =>
    if config.opcodeLoggerEnabled then
      ((callOpcodeLogger services transactionHash tracerConfig).map .opcodes, cacheService)
    else (.error (.jsonRpcError predefined.UNSUPPORTED_METHOD), cacheService)

def traceTransaction (transactionHash : String) (tracerObject : Option ITracerConfigWrapper)
    (cacheService : StateCache) : Except RelayError Trace × StateCache :=
  match requireDebugAPIEnabled config with
  | .error e => (.error (genericErrorHandler e), cacheService)
  | .ok () =>
    let tracer := (tracerObject.bind (·.tracer)).getD .opcodeLogger
    let tracerConfig := (tracerObject.map tracerConfigOf).getD {}
    let traced := runTracer config services timing transactionHash tracer tracerConfig cacheService
    (traced.1.mapError genericErrorHandler, traced.2)

end Tracers

section Options

variable {config : DebugConfig} {services : DebugServices} {timing : Timing}

def everything : OpcodeOptions := ⟨true, true, true⟩

/-- An opcode of which only what was asked for is sent. -/
def IOpcode.hide (options : OpcodeOptions) (opcode : IOpcode) : IOpcode :=
  { opcode with
    stack := if options.stack then opcode.stack else none
    memory := if options.memory then opcode.memory else none
    storage := if options.storage then opcode.storage else none }

def IOpcodesResponse.hide (options : OpcodeOptions) (response : IOpcodesResponse) :
    IOpcodesResponse :=
  { response with opcodes := response.opcodes.map fun opcodes => opcodes.map (·.hide options) }

/-- The mirror node leaves out what is not asked for, and nothing else. -/
def LeavesOut (services : DebugServices) : Prop :=
  ∀ hash options, services.getContractsResultsOpcodes hash options =
    (services.getContractsResultsOpcodes hash everything).map fun response =>
      response.map (·.hide options)

def StructLog.hide (options : OpcodeOptions) (log : StructLog) : StructLog :=
  { log with
    stack := if options.stack then log.stack else none
    memory := if options.memory then log.memory else none
    storage := if options.storage then log.storage else none }

def OpcodeLoggerResult.hide (options : OpcodeOptions) (result : OpcodeLoggerResult) :
    OpcodeLoggerResult :=
  { result with structLogs := result.structLogs.map fun logs => logs.map (·.hide options) }

def CallTracerResult.hide (onlyTopCall : Option Bool) (result : CallTracerResult) :
    CallTracerResult :=
  { result with calls := if onlyTopCall = some true then [] else result.calls }

/-- A trace without what the options turn off. -/
def Trace.hide (tracerConfig : ITracerConfig) : Trace → Trace
  | .call result => .call (result.hide tracerConfig.onlyTopCall)
  | .prestate result => .prestate result
  | .opcodes result => .opcodes (result.hide (opcodeOptions tracerConfig))

/-- The tracer of a request with all its options turned on. -/
def withEverything (tracerObject : Option ITracerConfigWrapper) : ITracerConfigWrapper where
  tracer := some ((tracerObject.bind (·.tracer)).getD .opcodeLogger)
  tracerConfig := some { enableMemory := some true }

private theorem formatOpcode_hide (options : OpcodeOptions) (opcode : IOpcode) :
    formatOpcode options (opcode.hide options) = (formatOpcode everything opcode).hide options := by
  rw [formatOpcode, formatOpcode, StructLog.hide]
  simp only [IOpcode.hide, everything, if_true]
  obtain ⟨memory, stack, storage⟩ := options
  congr 1
  · cases stack <;> rfl
  · cases memory <;> rfl
  · cases storage <;> rfl

private theorem formatOpcodesResult_hide (options : OpcodeOptions) (response : IOpcodesResponse) :
    formatOpcodesResult (some (response.hide options)) options =
      (formatOpcodesResult (some response) everything).hide options := by
  have hopcodes (opcodes : List IOpcode) :
      (opcodes.map (·.hide options)).map (formatOpcode options) =
        (opcodes.map (formatOpcode everything)).map (·.hide options) := by
    rw [List.map_map, List.map_map]
    exact List.map_congr_left fun opcode _ => formatOpcode_hide options opcode
  simp only [formatOpcodesResult, IOpcodesResponse.hide, OpcodeLoggerResult.hide]
  cases response.opcodes with
  | none => rfl
  | some opcodes => rw [Option.map_some, Option.map_some, hopcodes]; rfl

private theorem map_mapError {α β : Type} (f : α → β) (x : Except RelayError α) :
    (x.map f).mapError genericErrorHandler = (x.mapError genericErrorHandler).map f := by
  cases x <;> rfl

private theorem handleSynthetic_map {α : Type} (f : α → α) (trace : MirrorNodeLog → α)
    (h : ∀ log, f (trace log) = trace log) (hash : String) :
    handleSynthetic services hash trace = (handleSynthetic services hash trace).map f := by
  rw [handleSynthetic]
  cases services.getLogsWithParams hash with
  | error e => rfl
  | ok logs =>
    cases logs with
    | nil => rfl
    | cons log logs => exact congrArg Except.ok (h log).symm

private theorem opcodeTrace_hide (h : LeavesOut services) (hash : String)
    (options : OpcodeOptions) :
    opcodeTrace services hash options =
      (opcodeTrace services hash everything).map (·.hide options) := by
  rw [opcodeTrace, opcodeTrace, h]
  cases services.getContractsResultsOpcodes hash everything with
  | error e => rfl
  | ok response =>
    cases response with
    | none =>
      exact handleSynthetic_map (OpcodeLoggerResult.hide options) (fun _ => syntheticOpcodes)
        (fun _ => rfl) hash
    | some response => exact congrArg Except.ok (formatOpcodesResult_hide options response)

private theorem topCall_calls (type : String) (record : MirrorNodeContractResult)
    (calls calls' : List SubCall) :
    topCall services type record calls' =
      (topCall services type record calls).map fun result => { result with calls := calls' } := by
  rw [topCall, topCall]
  cases valueTo0x record.amount with
  | error e => rfl
  | ok value =>
    cases gasTo0x record.gasLimit with
    | error e => rfl
    | ok gas => cases gasTo0x record.gasUsed <;> rfl

/-- The actions are formatted whether they are shown or not. -/
theorem recordTrace_hide (hash : String) (onlyTopCall : Option Bool)
    (records : Option (TracedAction × List TracedAction × MirrorNodeContractResult)) :
    recordTrace services timing hash onlyTopCall records =
      (recordTrace services timing hash none records).map (·.hide onlyTopCall) := by
  cases records with
  | none =>
    apply handleSynthetic_map
    intro log
    simp [CallTracerResult.hide, syntheticCall]
  | some records =>
    obtain ⟨action, actions, record⟩ := records
    rw [recordTrace, recordTrace]
    cases formatActionsResult services timing (action :: actions) with
    | error e => rfl
    | ok formattedActions =>
      show topCall services action.callType record _ =
        (topCall services action.callType record _).map _
      rw [topCall_calls action.callType record [], topCall_calls action.callType record []
        (if none = some true ∨ actions = [] then [] else formattedActions.drop 1)]
      cases topCall services action.callType record [] with
      | error e => rfl
      | ok result =>
        by_cases htop : onlyTopCall = some true
        · simp [Except.map, CallTracerResult.hide, htop]
        · simp [Except.map, CallTracerResult.hide, htop]

private theorem callTrace_hide (hash : String) (onlyTopCall : Option Bool) :
    callTrace services timing hash onlyTopCall =
      (callTrace services timing hash none).map (·.hide onlyTopCall) := by
  rw [callTrace, callTrace]
  cases awaitBoth timing.resultFirst (services.getContractsResultsActions hash)
      (services.getContractResultWithRetry hash) with
  | error e => rfl
  | ok responses => exact recordTrace_hide hash onlyTopCall _

end Options

/-- The options of the call tracer and of the opcode logger only leave parts of the trace out,
wherever in the request they stand, and change no error. -/
theorem options_only_hide (config : DebugConfig) {services : DebugServices}
    (hservices : LeavesOut services) (timing : Timing) (hash : String)
    (tracerObject : Option ITracerConfigWrapper)
    (htracer : tracerObject.bind (·.tracer) ≠ some .prestateTracer) (cacheService : StateCache) :
    (traceTransaction config services timing hash tracerObject cacheService).1 =
      (traceTransaction config services timing hash (some (withEverything tracerObject))
        cacheService).1.map (·.hide ((tracerObject.map tracerConfigOf).getD {})) := by
  have hall : opcodeOptions { enableMemory := some true } = everything := rfl
  cases henabled : config.debugApiEnabled with
  | false => simp [traceTransaction, requireDebugAPIEnabled, henabled, Except.map]
  | true =>
    simp only [traceTransaction, requireDebugAPIEnabled, henabled, if_true, Option.bind_some,
      withEverything, Option.getD_some, Option.map_some, tracerConfigOf]
    rw [← map_mapError]
    congr 1
    cases htype : (tracerObject.bind (·.tracer)).getD .opcodeLogger with
    | prestateTracer =>
      cases hset : tracerObject.bind (·.tracer) with
      | none => simp [hset] at htype
      | some tracer => exact absurd (hset.trans (by simpa [hset] using htype)) htracer
    | callTracer =>
      simp only [runTracer, callTracer]
      rw [callTrace_hide]
      cases callTrace services timing hash none <;> rfl
    | opcodeLogger =>
      cases hlogger : config.opcodeLoggerEnabled with
      | false => simp [runTracer, hlogger, Except.map]
      | true =>
        simp only [runTracer, hlogger, if_true, callOpcodeLogger]
        rw [opcodeTrace_hide hservices hash, hall]
        cases opcodeTrace services hash everything <;> rfl

private theorem inOrder_perm (n : ℕ) : (List.range n).Perm (List.range n) := .refl _

def inOrder : Timing where
  resultFirst := false
  actions := ⟨List.range, inOrder_perm⟩
  entities := id
  entities_perm := List.Perm.refl

/-- A transaction of one step. -/
def oneOpcode : DebugServices where
  getContractsResultsActions _ := .ok none
  getContractResultWithRetry _ := .ok none
  getContractsResultsOpcodes _ options := .ok (some (IOpcodesResponse.hide options {
    gas := 52139
    failed := false
    returnValue := none
    opcodes := some [{
      pc := 1
      op := "PUSH1"
      gas := 32
      gasCost := 3
      depth := 1
      stack := some ["0x05"]
      memory := some []
      storage := some [("0x00", "0x05")]
      reason := none
    }]
  }))
  getContract _ := .ok none
  getLogsWithParams _ := .ok []
  resolveEntityType _ := none
  entity := (senderReplies (.ok (some ⟨some "0xc3", "", none, none, some 16, some 2⟩))).entity

/-- The option stands beside the tracer, which is the default one. -/
theorem options_only_hide_topLevel :
    (traceTransaction ⟨true, true⟩ oneOpcode inOrder "0xaa" (some { disableStack := some true })
        fun _ => none).1 =
      (traceTransaction ⟨true, true⟩ oneOpcode inOrder "0xaa"
        (some { tracer := some .opcodeLogger, tracerConfig := some { enableMemory := some true } })
        fun _ => none).1.map (·.hide { disableStack := some true }) :=
  options_only_hide ⟨true, true⟩ (fun _ _ => rfl) inOrder "0xaa"
    (some { disableStack := some true }) nofun fun _ => none

end JsonRpcRelay.Debug

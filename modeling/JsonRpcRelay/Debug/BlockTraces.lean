import JsonRpcRelay.Debug.TracedTransactions
import JsonRpcRelay.Debug.Tracers

/-!
# The traces of a block

`debug_traceBlockByNumber` traces all transactions of a block at the same time.  The traces of the
prestate tracer share a cache with each other and with other requests.  However their steps come
between each other, the answer lists what `debug_traceTransaction` answers to each transaction on
its own, or it is an error of one of them.
-/

namespace JsonRpcRelay.Debug

open constants Mirror Framework Common Blocks

structure TraceBlockByNumberTxResult where
  txHash : String
  result : Trace
  deriving DecidableEq

/-- What the requests about a block are answered. -/
structure BlockTraceServices where
  common : CommonConfig
  mirror : MirrorNodeClient (Except RelayError)
  getContractResultsWithRetry :
    Timestamp → Timestamp → Except RelayError (Option (List MirrorNodeContractResult))
  getContractResultsLogsWithRetry :
    Timestamp → Timestamp → Except RelayError (Option (List MirrorNodeLog))
  logsFirst : Bool

section Blocks

variable (config : DebugConfig) (blocks : BlockTraceServices)

/-- How the number of a block is written in a message. -/
def blockText : BlockParam → String
  | .earliest => "earliest"
  | .latest => "latest"
  | .pending => "pending"
  | .safe => "safe"
  | .finalized => "finalized"
  | .hex text | .hash text => text
  | .number n => toString n

/-- The hashes that are traced. -/
def tracedHashes (blockNumber : BlockParam) : Except RelayError (List String) := do
  requireDebugAPIEnabled config
  match ← getHistoricalBlockResponse blocks.common blocks.mirror .fromBlock (some blockNumber) with
  | none => throw (.jsonRpcError (predefined.RESOURCE_NOT_FOUND
      ("Block " ++ blockText blockNumber ++ " not found")))
  | some block =>
    let (contractResults, allLogs) ← awaitBoth blocks.logsFirst
      (blocks.getContractResultsWithRetry block.timestampFrom block.timestampTo)
      (blocks.getContractResultsLogsWithRetry block.timestampFrom block.timestampTo)
    return getAllTransactionHashesFromBlock (contractResults.getD []) (allLogs.getD [])

def blockTracer (tracerObject : Option ITracerConfigWrapper) : TracerType :=
  (tracerObject.bind (·.tracer)).getD .callTracer

def blockOnlyTopCall (tracerObject : Option ITracerConfigWrapper) : Option Bool :=
  (tracerObject.bind (·.tracerConfig)).bind (·.onlyTopCall)

/-- The call of the prestate tracer for a transaction of the block. -/
def prestateCall (tracerObject : Option ITracerConfigWrapper) (hash : String) : TraceCall :=
  ⟨hash, (blockOnlyTopCall tracerObject).getD false⟩

/-- The answer, with what the traces of the prestate tracer have ended with. -/
def traceBlockByNumber (services : DebugServices) (timing : String → Timing) (settling : Settling)
    (blockNumber : BlockParam) (tracerObject : Option ITracerConfigWrapper)
    (prestates : String → Except RelayError EntityTraceStateMap) :
    Except RelayError (List TraceBlockByNumberTxResult) :=
  Except.mapError genericErrorHandler do
    let transactionHashes ← tracedHashes config blocks blockNumber
    match blockTracer tracerObject with
    | .callTracer =>
      awaitAll settling (transactionHashes.map fun txHash =>
        (callTracer services (timing txHash) txHash (blockOnlyTopCall tracerObject)).map
          fun result => ⟨txHash, .call result⟩)
    | .prestateTracer =>
      awaitAll settling (transactionHashes.map fun txHash =>
        (prestates txHash).map fun result => ⟨txHash, .prestate result⟩)
    | .opcodeLogger => return []

end Blocks

section System

/-- How far a trace is. -/
inductive Phase where
  | ready
  | looking
  | ended (result : Except RelayError EntityTraceStateMap)

/-- A trace reads the cache, and if there is no entry it ends later.  Other requests write or
forget other entries. -/
inductive BlockTraceEvent where
  | read (call : TraceCall)
  | finish (call : TraceCall)
  | other (key : String) (entry : Option EntityTraceStateMap)

structure BlockTracing where
  cacheService : StateCache
  phase : TraceCall → Phase

def BlockTracing.start (cacheService : StateCache) : BlockTracing := ⟨cacheService, fun _ => .ready⟩

variable (calls : List TraceCall) (replies : TraceCall → TraceReplies)

def blockTraceStep (s : BlockTracing) : BlockTraceEvent → Option BlockTracing
  | .read call =>
    match s.phase call with
    | .ready =>
      match s.cacheService call.cacheKey with
      | some cachedResult =>
        some { s with phase := Function.update s.phase call (.ended (.ok cachedResult)) }
      | none => some { s with phase := Function.update s.phase call .looking }
    | _ => none
  | .finish call =>
    match s.phase call with
    | .looking => some {
        cacheService := keep call (tracePrestate call (replies call)).2 s.cacheService
        phase := Function.update s.phase call (.ended (tracePrestate call (replies call)).1)
      }
    | _ => none
  | .other key entry =>
    if key ∈ calls.map (·.cacheKey) then none
    else some { s with cacheService := Function.update s.cacheService key entry }

/-- What a trace leaves is what it leaves when it runs on its own. -/
def AloneAt (before : StateCache) (s : BlockTracing) (call : TraceCall) : Prop :=
  match s.phase call with
  | .ready => s.cacheService call.cacheKey = before call.cacheKey
  | .looking => s.cacheService call.cacheKey = none ∧ before call.cacheKey = none
  | .ended result => result = (prestateTracer call (replies call) before).1 ∧
      s.cacheService call.cacheKey = (prestateTracer call (replies call) before).2 call.cacheKey

end System

section Runs

variable {calls : List TraceCall} {replies : TraceCall → TraceReplies} {before : StateCache}
  {s t : BlockTracing} {call : TraceCall} {event : BlockTraceEvent}

private theorem keep_of_ne {other : TraceCall} {kept : Option EntityTraceStateMap}
    {cacheService : StateCache} (h : other ≠ call) :
    keep call kept cacheService other.cacheKey = cacheService other.cacheKey := by
  cases kept with
  | none => rfl
  | some map => exact Function.update_of_ne (fun hkey => h (TraceCall.cacheKey_inj hkey)) _ _

/-- A trace depends on its own phase and its own entry. -/
theorem AloneAt.congr (h : AloneAt replies before s call) (hphase : t.phase call = s.phase call)
    (hentry : t.cacheService call.cacheKey = s.cacheService call.cacheKey) :
    AloneAt replies before t call := by
  rw [AloneAt] at h ⊢
  rwa [hphase, hentry]

private theorem aloneAt_step (hcall : call ∈ calls) (h : AloneAt replies before s call)
    (hstep : blockTraceStep calls replies s event = some t) : AloneAt replies before t call := by
  cases event with
  | read acting =>
    rw [blockTraceStep] at hstep
    cases hphase : s.phase acting with
    | looking => simp [hphase] at hstep
    | ended result => simp [hphase] at hstep
    | ready =>
      by_cases hown : call = acting
      · subst hown
        rw [AloneAt, hphase] at h
        cases hentry : s.cacheService call.cacheKey with
        | none =>
          simp only [hphase, hentry, Option.some.injEq] at hstep
          subst hstep
          simp only [AloneAt, Function.update_self]
          exact ⟨hentry, h ▸ hentry⟩
        | some cachedResult =>
          simp only [hphase, hentry, Option.some.injEq] at hstep
          subst hstep
          have hbefore : before call.cacheKey = some cachedResult := h ▸ hentry
          simp only [AloneAt, Function.update_self, prestateTracer, hbefore]
          exact ⟨trivial, hentry⟩
      · cases hentry : s.cacheService acting.cacheKey with
        | none =>
          simp only [hphase, hentry, Option.some.injEq] at hstep
          subst hstep
          exact h.congr (Function.update_of_ne hown _ _) rfl
        | some cachedResult =>
          simp only [hphase, hentry, Option.some.injEq] at hstep
          subst hstep
          exact h.congr (Function.update_of_ne hown _ _) rfl
  | finish acting =>
    rw [blockTraceStep] at hstep
    cases hphase : s.phase acting with
    | ready => simp [hphase] at hstep
    | ended result => simp [hphase] at hstep
    | looking =>
      simp only [hphase, Option.some.injEq] at hstep
      subst hstep
      by_cases hown : call = acting
      · subst hown
        rw [AloneAt, hphase] at h
        simp only [AloneAt, Function.update_self, prestateTracer, h.2]
        refine ⟨trivial, ?_⟩
        cases (tracePrestate call (replies call)).2 with
        | none => exact h.1.trans h.2.symm
        | some map => simp [keep]
      · exact h.congr (Function.update_of_ne hown _ _) (keep_of_ne hown)
  | other key entry =>
    rw [blockTraceStep, Option.ite_none_left_eq_some] at hstep
    obtain ⟨hkey, hstep⟩ := hstep
    obtain rfl := Option.some.inj hstep
    refine h.congr rfl (Function.update_of_ne ?_ _ _)
    intro hsame
    exact hkey (hsame ▸ List.mem_map_of_mem hcall)

private theorem aloneAt_run {events : List BlockTraceEvent} (hcall : call ∈ calls)
    (h : AloneAt replies before s call)
    (hrun : exec (blockTraceStep calls replies) s events = some t) :
    AloneAt replies before t call := by
  induction events generalizing s with
  | nil =>
    obtain rfl := Option.some.inj hrun
    exact h
  | cons event events ih =>
    obtain ⟨u, hstep, hrest⟩ := exec_cons_eq_some.mp hrun
    exact ih (aloneAt_step hcall h hstep) hrest

private theorem ended_alone {events : List BlockTraceEvent} (hcall : call ∈ calls)
    (hrun : exec (blockTraceStep calls replies) (.start before) events = some t)
    {result : Except RelayError EntityTraceStateMap} (hended : t.phase call = .ended result) :
    result = (prestateTracer call (replies call) before).1 ∧
      t.cacheService call.cacheKey =
        (prestateTracer call (replies call) before).2 call.cacheKey := by
  have hstart : AloneAt replies before (.start before) call := rfl
  have halone := aloneAt_run hcall hstart hrun
  rw [AloneAt, hended] at halone
  exact halone

end Runs

section Agreement

variable (config : DebugConfig) (services : DebugServices) (timing : String → Timing)

/-- The options of a transaction that is traced as its block. -/
def singleOptions (tracerObject : Option ITracerConfigWrapper) : ITracerConfigWrapper where
  tracer := some (blockTracer tracerObject)
  tracerConfig := some { onlyTopCall := blockOnlyTopCall tracerObject }

/-- What `debug_traceTransaction` does for a transaction of the block. -/
def traceSingle (tracerObject : Option ITracerConfigWrapper) (before : StateCache) (hash : String) :
    Except RelayError Trace × StateCache :=
  traceTransaction config services (timing hash) hash (some (singleOptions tracerObject)) before

/-- A result of the block. -/
def blockEntry (hash : String) (trace : Except RelayError Trace) :
    Except RelayError TraceBlockByNumberTxResult :=
  trace.map fun result => ⟨hash, result⟩

def blockReplies (call : TraceCall) : TraceReplies :=
  prestateReplies services (timing call.transactionHash) call.transactionHash

variable {config services timing}
variable {tracerObject : Option ITracerConfigWrapper} {before : StateCache} {hash : String}

private theorem traceSingle_callTracer (henabled : config.debugApiEnabled = true)
    (htracer : blockTracer tracerObject = .callTracer) :
    (traceSingle config services timing tracerObject before hash).1 =
      ((callTracer services (timing hash) hash (blockOnlyTopCall tracerObject)).map
        Trace.call).mapError genericErrorHandler := by
  simp [traceSingle, traceTransaction, requireDebugAPIEnabled, henabled, singleOptions, htracer,
    tracerConfigOf, runTracer]

private theorem traceSingle_prestateTracer (henabled : config.debugApiEnabled = true)
    (htracer : blockTracer tracerObject = .prestateTracer) :
    traceSingle config services timing tracerObject before hash =
      (((prestateTracer (prestateCall tracerObject hash)
          (blockReplies services timing (prestateCall tracerObject hash))
            before).1.map Trace.prestate).mapError genericErrorHandler,
        (prestateTracer (prestateCall tracerObject hash)
          (blockReplies services timing (prestateCall tracerObject hash)) before).2) := by
  simp [traceSingle, traceTransaction, requireDebugAPIEnabled, henabled, singleOptions, htracer,
    tracerConfigOf, runTracer, prestateCall, blockReplies]

private theorem blockEntry_eq_ok {trace : Except RelayError Trace}
    {entry : TraceBlockByNumberTxResult} :
    blockEntry hash trace = .ok entry ↔ entry.txHash = hash ∧ trace = .ok entry.result := by
  cases trace with
  | error e => simp [blockEntry, Except.map]
  | ok result =>
    obtain ⟨txHash, result'⟩ := entry
    simp only [blockEntry, Except.map, Except.ok.injEq, TraceBlockByNumberTxResult.mk.injEq]
    exact and_congr_left fun _ => eq_comm

private theorem blockEntry_eq_error {trace : Except RelayError Trace} {e : RelayError}
    (h : blockEntry hash trace = .error e) : trace = .error e := by
  cases trace with
  | error e' => exact congrArg Except.error (Except.error.inj h)
  | ok result => cases h

private theorem entries_eq_iff {single : String → Except RelayError Trace} {hashes : List String}
    {answer : List TraceBlockByNumberTxResult} :
    (hashes.map fun hash => blockEntry hash (single hash)) = answer.map .ok ↔
      answer.map (·.txHash) = hashes ∧
        ∀ entry ∈ answer, single entry.txHash = .ok entry.result := by
  induction hashes generalizing answer with
  | nil => cases answer <;> simp
  | cons hash hashes ih =>
    cases answer with
    | nil => simp
    | cons entry answer =>
      rw [List.map_cons, List.map_cons, List.cons.injEq, ih, blockEntry_eq_ok, List.map_cons,
        List.cons.injEq, List.forall_mem_cons]
      constructor
      · rintro ⟨⟨rfl, hentry⟩, hhashes, hentries⟩
        exact ⟨⟨rfl, hhashes⟩, hentry, hentries⟩
      · rintro ⟨⟨rfl, hhashes⟩, hentry, hentries⟩
        exact ⟨⟨rfl, hentry⟩, hhashes, hentries⟩

private theorem enabled_of_tracedHashes {blocks : BlockTraceServices} {blockNumber : BlockParam}
    {hashes : List String} (h : tracedHashes config blocks blockNumber = .ok hashes) :
    config.debugApiEnabled = true := by
  by_contra hdisabled
  rw [tracedHashes, requireDebugAPIEnabled, if_neg hdisabled] at h
  cases h

/-- The answer for a block, where the traces that share the cache have ended as they do alone. -/
theorem traceBlock_eq_awaitAll {blocks : BlockTraceServices} {settling : Settling}
    {blockNumber : BlockParam} {prestates : String → Except RelayError EntityTraceStateMap}
    {hashes : List String} (hhashes : tracedHashes config blocks blockNumber = .ok hashes)
    (htracer : blockTracer tracerObject ≠ .opcodeLogger)
    (hprestates : ∀ hash ∈ hashes, prestates hash =
      (prestateTracer (prestateCall tracerObject hash)
        (blockReplies services timing (prestateCall tracerObject hash)) before).1) :
    traceBlockByNumber config blocks services timing settling blockNumber tracerObject prestates =
      awaitAll settling (hashes.map fun hash =>
        blockEntry hash (traceSingle config services timing tracerObject before hash).1) := by
  have henabled := enabled_of_tracedHashes hhashes
  have hentry {α : Type} (trace : α → Trace) (hash : String) (x : Except RelayError α) :
      (x.map fun result => (⟨hash, trace result⟩ : TraceBlockByNumberTxResult)).mapError
          genericErrorHandler =
        blockEntry hash ((x.map trace).mapError genericErrorHandler) := by
    cases x <;> rfl
  rw [traceBlockByNumber, hhashes]
  cases hkind : blockTracer tracerObject with
  | opcodeLogger => exact absurd hkind htracer
  | callTracer =>
    show Except.mapError genericErrorHandler (awaitAll settling _) = _
    rw [← awaitAll_mapError, List.map_map]
    congr 1
    apply List.map_congr_left
    intro hash _
    rw [traceSingle_callTracer henabled hkind, ← hentry]
    rfl
  | prestateTracer =>
    show Except.mapError genericErrorHandler (awaitAll settling _) = _
    rw [← awaitAll_mapError, List.map_map]
    congr 1
    apply List.map_congr_left
    intro hash hhash
    rw [traceSingle_prestateTracer henabled hkind, ← hentry, ← hprestates hash hhash]
    rfl

end Agreement

/-- However the traces of a block run, the answer lists what `debug_traceTransaction` answers to
each transaction of the block with the same options, or it is the error of one of them, and the
cache keeps the same entries.  The opcode logger is not run for a block. -/
theorem traceBlock_eq_transactions (config : DebugConfig) (blocks : BlockTraceServices)
    (services : DebugServices) (timing : String → Timing) (settling : Settling)
    (blockNumber : BlockParam) (tracerObject : Option ITracerConfigWrapper)
    {hashes : List String} (hhashes : tracedHashes config blocks blockNumber = .ok hashes)
    {before : StateCache} {events : List BlockTraceEvent} {t : BlockTracing}
    (hrun : exec (blockTraceStep (hashes.map (prestateCall tracerObject))
      (blockReplies services timing)) (.start before) events = some t)
    {prestates : String → Except RelayError EntityTraceStateMap}
    (hended : ∀ hash ∈ hashes, t.phase (prestateCall tracerObject hash) =
      .ended (prestates hash)) :
    let single := traceSingle config services timing tracerObject before
    let block :=
      traceBlockByNumber config blocks services timing settling blockNumber tracerObject prestates
    (blockTracer tracerObject = .opcodeLogger → block = .ok []) ∧
    (blockTracer tracerObject ≠ .opcodeLogger →
      (∀ answer, block = .ok answer ↔ answer.map (·.txHash) = hashes ∧
        ∀ entry ∈ answer, (single entry.txHash).1 = .ok entry.result) ∧
      (∀ e, block = .error e → ∃ hash ∈ hashes, (single hash).1 = .error e)) ∧
    (blockTracer tracerObject = .prestateTracer → ∀ hash ∈ hashes,
      t.cacheService (prestateCall tracerObject hash).cacheKey =
        (single hash).2 (prestateCall tracerObject hash).cacheKey) := by
  intro single block
  have halone : ∀ hash ∈ hashes, prestates hash = (prestateTracer (prestateCall tracerObject hash)
        (blockReplies services timing (prestateCall tracerObject hash)) before).1 ∧
      t.cacheService (prestateCall tracerObject hash).cacheKey =
        (prestateTracer (prestateCall tracerObject hash)
          (blockReplies services timing (prestateCall tracerObject hash)) before).2
            (prestateCall tracerObject hash).cacheKey := by
    intro hash hhash
    exact ended_alone (List.mem_map_of_mem hhash) hrun (hended hash hhash)
  refine ⟨?_, ?_, ?_⟩
  · intro htracer
    show traceBlockByNumber config blocks services timing settling blockNumber tracerObject
      prestates = .ok []
    rw [traceBlockByNumber, hhashes, htracer]
    rfl
  · intro htracer
    have hblock : block = awaitAll settling (hashes.map fun hash =>
        blockEntry hash (single hash).1) :=
      traceBlock_eq_awaitAll hhashes htracer fun hash hhash => (halone hash hhash).1
    constructor
    · intro answer
      rw [hblock, awaitAll_ok_iff, entries_eq_iff]
    · intro e he
      obtain ⟨hash, hhash, hentry⟩ := List.mem_map.mp (mem_of_awaitAll_error (hblock ▸ he))
      exact ⟨hash, hhash, blockEntry_eq_error hentry⟩
  · intro htracer hash hhash
    have hsingle : single hash = _ :=
      traceSingle_prestateTracer (enabled_of_tracedHashes hhashes) htracer
    rw [hsingle]
    exact (halone hash hhash).2

/-- A block with two contract calls. -/
def twoCalls : BlockTraceServices where
  common := {}
  mirror := {
    getLatestBlock := fun _ => .ok (some [exampleBlock])
    getBlock := fun _ _ => .ok (some exampleBlock)
    getLogs := fun _ _ => .ok []
  }
  getContractResultsWithRetry _ _ :=
    .ok (some [{ exampleResult with hash := "0xaa" }, { exampleResult with hash := "0xbb" }])
  getContractResultsLogsWithRetry _ _ := .ok none
  logsFirst := false

/-- Both calls come from one account. -/
def oneSender : DebugServices :=
  { oneOpcode with
    getContractsResultsActions := fun _ => .ok (some [{
      callDepth := 0
      fromAddress := some "0x3f8"
      callerType := "ACCOUNT"
      toAddress := none
      recipientType := "CONTRACT"
      timestamp := "1696438011.462526383"
      callType := "CALL"
      callOperationType := "CALL"
      gas := 21000
      gasUsed := 21000
      input := none
      resultData := none
      value := none
    }]) }

/-- The second trace starts and ends within the first one. -/
theorem traceBlock_eq_transactions_nested :
    let options : ITracerConfigWrapper := { tracer := some .prestateTracer }
    let single := traceSingle ⟨true, true⟩ oneSender (fun _ => inOrder) (some options) fun _ => none
    ∃ answer, traceBlockByNumber ⟨true, true⟩ twoCalls oneSender (fun _ => inOrder)
        inOrder.actions .earliest (some options) (fun hash =>
          (tracePrestate (prestateCall (some options) hash)
            (prestateReplies oneSender inOrder hash)).1) = .ok answer ∧
      answer.map (·.txHash) = ["0xaa", "0xbb"] ∧
        ∀ entry ∈ answer, (single entry.txHash).1 = .ok entry.result := by
  intro options single
  have hrun : ∃ t, exec (blockTraceStep (["0xaa", "0xbb"].map (prestateCall (some options)))
        (blockReplies oneSender fun _ => inOrder)) (.start fun _ => none)
        [.read ⟨"0xaa", false⟩, .read ⟨"0xbb", false⟩, .finish ⟨"0xbb", false⟩,
          .finish ⟨"0xaa", false⟩] = some t ∧
      ∀ hash ∈ ["0xaa", "0xbb"], t.phase (prestateCall (some options) hash) =
        .ended (tracePrestate (prestateCall (some options) hash)
          (prestateReplies oneSender inOrder hash)).1 := by
    refine ⟨_, rfl, ?_⟩
    intro hash hhash
    rw [List.mem_cons, List.mem_singleton] at hhash
    obtain rfl | rfl := hhash
    · rfl
    · rfl
  obtain ⟨t, hrun, hended⟩ := hrun
  have hhashes : tracedHashes ⟨true, true⟩ twoCalls .earliest = .ok ["0xaa", "0xbb"] := by
    decide +kernel
  refine ⟨_, rfl, ?_⟩
  apply ((traceBlock_eq_transactions ⟨true, true⟩ twoCalls oneSender (fun _ => inOrder)
    inOrder.actions .earliest (some options) hhashes hrun hended).2.1 nofun).1 _ |>.mp
  rfl

end JsonRpcRelay.Debug

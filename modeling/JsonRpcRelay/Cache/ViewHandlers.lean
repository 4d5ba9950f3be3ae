import JsonRpcRelay.Cache.StoredResults
import JsonRpcRelay.Cache.Upstream

/-!
# Blocks, transactions and receipts behind the cache

The handlers of blocks, transactions and receipts look up the addresses of senders and recipients,
and leave an address as it is where its lookup fails.  All their other requests have to succeed.
-/

namespace JsonRpcRelay.Cache.Views

open constants Mirror Common Fees Blocks Framework Tracked

section Steps

/-- What a handler asks for first, whether it passes over a failed request for something that it
looks up then, and what it makes of all this. -/
structure Steps (D A : Type) where
  asked : Except RelayError D
  misses : D → Prop
  made : D → Except RelayError A

variable {D A : Type} {s : Steps D A} {run : Tracked RelayError A}

/-- If something is made that counts, no failed request is passed over. -/
def Steps.AreOrdinary (s : Steps D A) (counts : A → Bool) : Prop :=
  ∀ d a, s.asked = .ok d → s.made d = .ok a → counts a = true → ¬s.misses d

/-- The handler takes these steps, whatever the errors are that it raises. -/
structure Steps.Of (s : Steps D A) (run : Tracked RelayError A) : Prop where
  results : ∀ a, run.result = .ok a ↔ ∃ d, s.asked = .ok d ∧ s.made d = .ok a
  failed : ∀ d a, s.asked = .ok d → s.made d = .ok a → (run.failed = true ↔ s.misses d)

private theorem Steps.of_bind {ask : Tracked RelayError D} {f : D → Tracked RelayError A}
    (h : Tracks ask s.asked) (hf : ∀ d, Ends (f d) (s.made d) (s.misses d)) : s.Of (ask >>= f) := by
  cases hd : s.asked with
  | error e =>
    rw [bind_of_error (h.result.trans hd)]
    constructor
    · intro a
      constructor
      · intro ha
        cases ha
      · rintro ⟨d, hd', _⟩
        cases hd.symm.trans hd'
    · intro d a hd' _
      cases hd.symm.trans hd'
  | ok d =>
    have hresult := h.result.trans hd
    rw [bind_of_ok hresult, h.sincere d hresult, Bool.false_or]
    constructor
    · intro a
      rw [(hf d).result]
      constructor
      · exact fun ha => ⟨d, hd, ha⟩
      · rintro ⟨d', hd', ha⟩
        rwa [Except.ok.inj (hd.symm.trans hd')]
    · intro d' a hd' ha
      obtain rfl := Except.ok.inj (hd.symm.trans hd')
      exact (hf d).failed a ha

private theorem Steps.of_after {B : Type} {ask : Tracked RelayError B} {y : Except RelayError B}
    {next : B → Except RelayError D} {f : B → Tracked RelayError A} (h : Tracks ask y)
    (hasked : s.asked = y >>= next) (hf : ∀ b, Steps.Of ⟨next b, s.misses, s.made⟩ (f b)) :
    s.Of (ask >>= f) := by
  cases hy : y with
  | error e =>
    rw [hy] at hasked
    rw [bind_of_error (h.result.trans hy)]
    constructor
    · intro a
      constructor
      · intro ha
        cases ha
      · rintro ⟨d, hd, _⟩
        cases hasked.symm.trans hd
    · intro d a hd _
      cases hasked.symm.trans hd
  | ok b =>
    rw [hy] at hasked
    have hresult := h.result.trans hy
    rw [bind_of_ok hresult, h.sincere b hresult, Bool.false_or]
    obtain ⟨hresults, hfailed⟩ := hf b
    have heq : s.asked = next b := hasked
    exact ⟨fun a => by rw [heq]; exact hresults a, fun d a hd ha => hfailed d a (heq ▸ hd) ha⟩

theorem Steps.Of.rethrow (h : s.Of run) (k : RelayError → RelayError) :
    s.Of (tryCatch run fun e => throw (k e)) := by
  cases hrun : run.result with
  | ok a =>
    rw [tryCatch_of_ok hrun, ← hrun]
    exact h
  | error e =>
    rw [tryCatch_of_error hrun]
    have hnone (d : D) (a : A) (hd : s.asked = .ok d) : s.made d ≠ .ok a := by
      intro ha
      have hresult := (h.results a).mpr ⟨d, hd, ha⟩
      rw [hrun] at hresult
      cases hresult
    constructor
    · intro a
      constructor
      · intro ha
        cases ha
      · rintro ⟨d, hd, ha⟩
        exact absurd ha (hnone d a hd)
    · intro d a hd ha
      exact absurd ha (hnone d a hd)

/-- The answer with what the handler returns. -/
def answered (toAnswer : A → Answer) (run : Tracked RelayError A) : Tracked RelayError Answer := do
  return toAnswer (← run)

theorem isOrdinary_answered {toAnswer : A → Answer} (hvalue : ∀ a, (toAnswer a).isError = false) :
    IsOrdinary (answered toAnswer run) ↔
      ∀ a, run.result = .ok a → (toAnswer a).isTruthy = true → run.failed = false := by
  unfold answered
  cases hrun : run.result with
  | error e =>
    rw [bind_of_error hrun]
    apply iff_of_true
    · intro answer hanswer
      cases hanswer
    · intro a ha
      cases ha
  | ok a =>
    rw [bind_of_ok hrun, pure_eq, Bool.or_false]
    constructor
    · intro h b hb htruthy
      obtain rfl := Except.ok.inj hb
      exact (h _ rfl htruthy).2
    · intro h answer hanswer htruthy
      obtain rfl := Except.ok.inj hanswer
      exact ⟨hvalue a, h a rfl htruthy⟩

theorem Steps.Of.isOrdinary_iff (h : s.Of run) {toAnswer : A → Answer}
    (hvalue : ∀ a, (toAnswer a).isError = false) :
    IsOrdinary (answered toAnswer run) ↔ s.AreOrdinary fun a => (toAnswer a).isTruthy := by
  rw [isOrdinary_answered hvalue]
  constructor
  · intro hquiet d a hd ha htruthy hmisses
    have hfailed := (h.failed d a hd ha).mpr hmisses
    rw [hquiet a ((h.results a).mpr ⟨d, hd, ha⟩) htruthy] at hfailed
    cases hfailed
  · intro hordinary a ha htruthy
    obtain ⟨d, hd, hmade⟩ := (h.results a).mp ha
    by_contra hfailed
    exact hordinary d a hd hmade htruthy
      ((h.failed d a hd hmade).mp (Bool.eq_true_of_not_eq_false hfailed))

/-- A handler that raises the errors of all its requests. -/
theorem isOrdinary_of_sincere {toAnswer : A → Answer} (hvalue : ∀ a, (toAnswer a).isError = false)
    (h : run.Sincere) : IsOrdinary (answered toAnswer run) :=
  (isOrdinary_answered hvalue).mpr fun a ha _ => h a ha

end Steps

section Requests

variable {m : Type → Type} [Monad m] [MonadExceptOf RelayError m]

/-- The settings of the services, with the root of a trie and the bloom filter of logs. -/
structure ViewConfig where
  common : CommonConfig
  blocks : BlockConfig
  fees : FeeConfig
  services : BlockServices

/-- The services without the lookups of addresses. -/
def ViewConfig.pureServices (config : ViewConfig) : BlockServices :=
  { config.services with resolveEvmAddress := fun address _ => address }

structure BlockData where
  block : MirrorNodeBlock
  contractResults : List MirrorNodeContractResult
  records : List MirrorNodeLog

/-- A block with the contract results and the logs in its range. -/
def askBlock (config : CommonConfig) (mirror : MirrorNodeClient m) (views : ViewClient m)
    (param : BlockParam) : m (Option BlockData) := do
  match ← getHistoricalBlockResponse config mirror .fromBlock (some param) with
  | none => return none
  | some block =>
      let contractResults ← views.getContractResults
        { timestamp := some (block.timestampFrom, block.timestampTo) }
      let records ← views.getContractResultsLogs (.timestamp block.timestampFrom block.timestampTo)
      return some ⟨block, contractResults, records⟩

/-- The price of gas as of a second. -/
def gasPriceAt (views : ViewClient m) (second : ℕ) : m ℕ :=
  getGasPriceInWeibars ⟨fun _ => views.getNetworkFees second⟩ none

/-- The price of gas as of the start of a block, else the current one. -/
def gasPriceForBlock (views : ViewClient m) (fees : FeeClient m) (block : Option MirrorNodeBlock) :
    m ℕ :=
  match block with
  | some block => gasPriceAt views block.timestampFrom.seconds
  | none => getGasPriceInWeibars fees none

def getCurrentGasPriceForBlock (mirror : MirrorNodeClient m) (views : ViewClient m)
    (fees : FeeClient m) (blockHash : String) : m String := do
  let block ← mirror.getBlock .fromBlock (.hash blockHash)
  return numberTo0x (← gasPriceForBlock views fees block : ℕ)

/-- The logs of a transaction without a contract result. -/
def askSyntheticLogs (views : ViewClient m) (hash : String) : m (List Log) := do
  return (← views.getContractResultsLogs (.transactionHash hash)).map Log.ofRecord

variable (client : MirrorNodeClient (Except RelayError)) (fees : FeeClient (Except RelayError))
  (views : ViewClient (Except RelayError)) (config : CommonConfig)

private theorem tracks_latestBlock (lookup : Lookup) :
    Tracks (latestBlock (trackedMirror client) lookup) (latestBlock client lookup) := by
  apply (tracks_request _).bind
  intro blocks _
  cases blocks with
  | none => exact tracks_throw _
  | some blocks => exact tracks_pure _

theorem tracks_getHistoricalBlockResponse {lookup : Lookup} (param : Option BlockParam)
    (returnLatest : Bool) :
    Tracks
      (getHistoricalBlockResponse config (trackedMirror client) lookup param returnLatest)
      (getHistoricalBlockResponse config client lookup param returnLatest) := by
  have hwithin (n : ℕ) : Tracks (getBlockWithinRange config (trackedMirror client) lookup n)
      (getBlockWithinRange config client lookup n) := by
    apply (tracks_latestBlock client .head).bind
    intro latest _
    cases latest with
    | none => exact tracks_throw _
    | some latest => exact tracks_ite (fun _ => tracks_pure _) fun _ => tracks_request _
  unfold getHistoricalBlockResponse
  apply tracks_ite (fun _ => tracks_pure _)
  intro _
  split
  · exact tracks_request _
  · exact tracks_ite (fun _ => tracks_pure _) fun _ => hwithin _
  · exact tracks_request _
  · exact tracks_request _
  · exact tracks_latestBlock client _

private theorem tracks_askBlock (param : BlockParam) :
    Tracks (askBlock config (trackedMirror client) (trackedViews views) param)
      (askBlock config client views param) := by
  apply (tracks_getHistoricalBlockResponse client config (some param) true).bind
  intro block _
  cases block with
  | none => exact tracks_pure _
  | some block =>
    exact (tracks_request _).bind fun _ _ => (tracks_request _).bind fun _ _ => tracks_pure _

private theorem tracks_getGasPriceInWeibars {fees : FeeClient (Tracked RelayError)}
    {fees' : FeeClient (Except RelayError)} {timestamp : Option Timestamp}
    (h : Tracks (fees.getNetworkFees timestamp) (fees'.getNetworkFees timestamp)) :
    Tracks (getGasPriceInWeibars fees timestamp) (getGasPriceInWeibars fees' timestamp) := by
  apply h.bind
  intro networkFees _
  cases ethereumTransactionGas networkFees with
  | some gas => exact tracks_pure _
  | none => exact tracks_throw _

private theorem tracks_gasPrice (config : FeeConfig) :
    Tracks (gasPrice config (trackedFees fees)) (gasPrice config fees) :=
  ((tracks_getGasPriceInWeibars (tracks_request _)).bind fun _ _ => tracks_pure _).rethrow _

private theorem tracks_gasPriceForBlock (block : Option MirrorNodeBlock) :
    Tracks (gasPriceForBlock (trackedViews views) (trackedFees fees) block)
      (gasPriceForBlock views fees block) := by
  cases block with
  | some block => exact tracks_getGasPriceInWeibars (tracks_request _)
  | none => exact tracks_getGasPriceInWeibars (tracks_request _)

private theorem tracks_getCurrentGasPriceForBlock (blockHash : String) :
    Tracks
      (getCurrentGasPriceForBlock (trackedMirror client) (trackedViews views) (trackedFees fees)
        blockHash)
      (getCurrentGasPriceForBlock client views fees blockHash) :=
  (tracks_request _).bind fun block _ =>
    (tracks_gasPriceForBlock fees views block).bind fun _ _ => tracks_pure _

private theorem tracks_askSyntheticLogs (hash : String) :
    Tracks (askSyntheticLogs (trackedViews views) hash) (askSyntheticLogs views hash) :=
  (tracks_request _).bind fun _ _ => tracks_pure _

end Requests

section Blocks

variable (lookups : Lookups) (fromTypes : List EntityType)

def resultParties (contractResult : MirrorNodeContractResult) : Parties :=
  ⟨some contractResult.fromAddress, contractResult.toAddress⟩

def withParties (contractResult : MirrorNodeContractResult) (parties : Parties) :
    MirrorNodeContractResult :=
  { contractResult with
    fromAddress := parties.fromAddress.getD contractResult.fromAddress
    toAddress := parties.toAddress }

/-- The contract results with the addresses of their parties. -/
def resolveResults (contractResults : List MirrorNodeContractResult) :
    Tracked RelayError (List MirrorNodeContractResult) :=
  contractResults.zipIdx.mapM fun (contractResult, i) => do
    let parties ← resolveParties lookups "" i fromTypes (resultParties contractResult)
    return withParties contractResult parties

def resolvedResults (contractResults : List MirrorNodeContractResult) :
    List MirrorNodeContractResult :=
  contractResults.zipIdx.map fun (contractResult, i) => withParties contractResult
    (resolvedParties lookups "" i fromTypes (resultParties contractResult))

/-- An address is left as it is because of a failed request. -/
def SomeUnresolved (contractResults : List MirrorNodeContractResult) : Prop :=
  ∃ p ∈ contractResults.zipIdx, areUnresolved lookups "" p.2 fromTypes (resultParties p.1) = true

private theorem ends_resolveResults (contractResults : List MirrorNodeContractResult) :
    Ends (resolveResults lookups fromTypes contractResults)
      (.ok (resolvedResults lookups fromTypes contractResults))
      (SomeUnresolved lookups fromTypes contractResults) := by
  have hends := ends_mapM fun p (_ : p ∈ contractResults.zipIdx) =>
    ((ends_resolveParties lookups "" p.2 fromTypes (resultParties p.1)).bind fun parties _ =>
      (tracks_pure (withParties p.1 parties)).ends).congr fun _ _ => iff_of_eq (or_false _)
  have hresults : contractResults.zipIdx.mapM (m := Except RelayError) (fun p => do
      let parties ← .ok (resolvedParties lookups "" p.2 fromTypes (resultParties p.1))
      return withParties p.1 parties) = .ok (resolvedResults lookups fromTypes contractResults) :=
    List.mapM_pure
  rwa [hresults] at hends

variable (upstream : Upstream) (config : ViewConfig)

/-- The transactions of a block, and the root of its receipts. -/
def assembled (showDetails : Bool) (data : BlockData)
    (results : List MirrorNodeContractResult) : Except RelayError (BlockTransactions × String) := do
  let logs := data.records.map Log.ofRecord
  let txArray ← transactionArray config.blocks config.pureServices showDetails results logs
  let receipts ← buildReceiptRootHashes config.services (← txArray.hashList) data.contractResults
    logs
  return (txArray, ← getRootHash config.services receipts)

/-- The block after the lookups. -/
def finishBlock {m : Type → Type} [Monad m] [MonadExceptOf RelayError m] (fees : FeeClient m)
    (showDetails : Bool) (data : BlockData) (results : List MirrorNodeContractResult) :
    m (Option Block) := do
  let (txArray, receiptsRoot) ← ofExcept (assembled config showDetails data results)
  return some (createBlock data.block txArray (← gasPrice config.fees fees) receiptsRoot)

/-- A block with details may have too many transactions. -/
def exceedsMaxRange (showDetails : Bool) (data : BlockData) : Prop :=
  showDetails ∧ data.contractResults.length ≥ config.blocks.ethGetTransactionCountMaxBlockRange

instance (showDetails : Bool) (data : BlockData) :
    Decidable (exceedsMaxRange config showDetails data) := inferInstanceAs (Decidable (_ ∧ _))

def getBlockInWorker (showDetails : Bool) (param : BlockParam) :
    Tracked RelayError (Option Block) := do
  match ← askBlock config.common (trackedMirror upstream.mirror) (trackedViews upstream.views)
      param with
  | none => return none
  | some data =>
      if exceedsMaxRange config showDetails data then
        throw (.jsonRpcError (predefined.MAX_BLOCK_SIZE data.block.count))
      else do
        let results ← resolveResults upstream.lookups [.account]
          (regularResults config.blocks data.contractResults)
        finishBlock config (trackedFees upstream.fees) showDetails data results

/-- `getBlockByHash` and `getBlockByNumber`. -/
def getBlock (showDetails : Bool) (param : BlockParam) : Tracked RelayError (Option Block) :=
  tryCatch
    (tryCatch (getBlockInWorker upstream config showDetails param) fun e => throw (unwrapError e))
    fun e => throw (genericErrorHandler e)

def blockSteps (showDetails : Bool) (param : BlockParam) : Steps (Option BlockData) (Option Block) where
  asked := askBlock config.common upstream.mirror upstream.views param
  misses data := ∃ d, data = some d ∧ SomeUnresolved upstream.lookups [.account]
    (regularResults config.blocks d.contractResults)
  made
    | none => .ok none
    | some data =>
        if exceedsMaxRange config showDetails data then
          .error (.jsonRpcError (predefined.MAX_BLOCK_SIZE data.block.count))
        else finishBlock config upstream.fees showDetails data
          (resolvedResults upstream.lookups [.account]
            (regularResults config.blocks data.contractResults))

private theorem tracks_finishBlock (fees : FeeClient (Except RelayError)) (showDetails : Bool)
    (data : BlockData) (results : List MirrorNodeContractResult) :
    Tracks (finishBlock config (trackedFees fees) showDetails data results)
      (finishBlock config fees showDetails data results) :=
  (tracks_ofExcept _).bind fun _ _ => (tracks_gasPrice fees config.fees).bind
    fun _ _ => tracks_pure _

theorem blockSteps_of (showDetails : Bool) (param : BlockParam) :
    (blockSteps upstream config showDetails param).Of
      (getBlock upstream config showDetails param) := by
  refine Steps.Of.rethrow (Steps.Of.rethrow (Steps.of_bind (tracks_askBlock _ _ _ _) ?_) _) _
  intro data
  cases data with
  | none => exact (tracks_pure none).ends.congr fun _ _ => by simp [blockSteps]
  | some data =>
    by_cases hmax : exceedsMaxRange config showDetails data
    · simp only [blockSteps, hmax, if_true]
      exact ends_throw _ _
    · simp only [blockSteps, hmax, if_false]
      refine ((ends_resolveResults upstream.lookups [.account] _).then_tracks
        (tracks_finishBlock config upstream.fees showDetails data _)).congr fun _ _ => ?_
      simp

/-- The receipts of the contract results with resolved addresses, and of the further logs. -/
def finishReceipts (data : BlockData) (gasPriceForTimestamp : ℕ)
    (results : List MirrorNodeContractResult) : Except RelayError (List TransactionReceipt) := do
  let effectiveGas := numberTo0x gasPriceForTimestamp
  let logsByHash := groupBy (·.transactionHash) (data.records.map Log.ofRecord)
  let receipts := results.map (regularReceipt config.pureServices effectiveGas logsByHash)
  let regularTxHashes := data.contractResults.map (·.hash)
  let syntheticGroups := logsByHash.entries.filter fun entry => entry.1 ∉ regularTxHashes
  let syntheticReceipts ← syntheticGroups.mapM fun entry =>
    createSyntheticReceipt config.services.buildLogsBloom entry.2 effectiveGas
  return receipts ++ syntheticReceipts

def getBlockReceiptsInWorker (param : BlockParam) :
    Tracked RelayError (Option (List TransactionReceipt)) := do
  match ← askBlock config.common (trackedMirror upstream.mirror) (trackedViews upstream.views)
      param with
  | none => return none
  | some data =>
      if data.contractResults = [] ∧ data.records = [] then return some []
      else do
        let price ← gasPriceAt (trackedViews upstream.views) data.block.timestampFrom.seconds
        let results ← resolveResults upstream.lookups allTypes
          (regularResults config.blocks data.contractResults)
        return some (← ofExcept (finishReceipts config data price results))

def getBlockReceipts (param : BlockParam) : Tracked RelayError (Option (List TransactionReceipt)) :=
  tryCatch (getBlockReceiptsInWorker upstream config param) fun e => throw (unwrapError e)

def receiptsSteps (param : BlockParam) :
    Steps (Option BlockData) (Option (List TransactionReceipt)) where
  asked := askBlock config.common upstream.mirror upstream.views param
  misses data := ∃ d, data = some d ∧ SomeUnresolved upstream.lookups allTypes
    (regularResults config.blocks d.contractResults)
  made
    | none => .ok none
    | some data =>
        if data.contractResults = [] ∧ data.records = [] then .ok (some [])
        else do
          let price ← gasPriceAt upstream.views data.block.timestampFrom.seconds
          let results := resolvedResults upstream.lookups allTypes
            (regularResults config.blocks data.contractResults)
          return some (← ofExcept (finishReceipts config data price results))

theorem receiptsSteps_of (param : BlockParam) :
    (receiptsSteps upstream config param).Of (getBlockReceipts upstream config param) := by
  refine Steps.Of.rethrow (Steps.of_bind (tracks_askBlock _ _ _ _) ?_) _
  intro data
  cases data with
  | none => exact (tracks_pure none).ends.congr fun _ _ => by simp [receiptsSteps]
  | some data =>
    by_cases hempty : data.contractResults = [] ∧ data.records = []
    · simp only [receiptsSteps, hempty, and_self, if_true]
      exact (tracks_pure _).ends.congr fun _ _ => by
        simp [SomeUnresolved, regularResults, hempty.1]
    · simp only [receiptsSteps, hempty, if_false]
      refine ((tracks_getGasPriceInWeibars (tracks_request _)).ends.bind fun price _ =>
        (ends_resolveResults upstream.lookups allTypes _).then_tracks
          ((tracks_ofExcept _).bind fun receipts _ => tracks_pure (some receipts))).congr
            fun _ _ => ?_
      simp

end Blocks

section Counts

variable (upstream : Upstream)

def getTransactionCountFromBlockResponse (block : Option MirrorNodeBlock) : Option String :=
  block.map fun block => numberTo0x block.count

def countAt (id : BlockId) : Tracked RelayError (Option String) :=
  tryCatch
    (do
      let block ← (trackedMirror upstream.mirror).getBlock .fromBlock id
      return getTransactionCountFromBlockResponse block)
    fun e => throw (genericErrorHandler e)

def getBlockTransactionCountByHash (hash : String) : Tracked RelayError (Option String) :=
  countAt upstream (.hash hash)

def getBlockTransactionCountByNumber (blockNumOrTag : BlockParam) :
    Tracked RelayError (Option String) := do
  let blockNum ← Fees.translateBlockTag (trackedMirror upstream.mirror) .head blockNumOrTag
  countAt upstream (.number blockNum)

theorem tracks_getLatestBlockNumber (client : MirrorNodeClient (Except RelayError)) :
    Tracks (Common.getLatestBlockNumber (trackedMirror client) .head)
      (Common.getLatestBlockNumber client .head) := by
  apply (tracks_request _).bind
  intro blocks _
  match blocks with
  | none => exact tracks_throw _
  | some [] => exact tracks_throw _
  | some (block :: _) => exact tracks_pure _

private theorem tracks_translateBlockTag (client : MirrorNodeClient (Except RelayError))
    (tag : BlockParam) : Tracks (Fees.translateBlockTag (trackedMirror client) .head tag)
      (Fees.translateBlockTag client .head tag) :=
  tracks_ite (fun _ => (tracks_getLatestBlockNumber client).bind fun _ _ => tracks_pure _)
    fun _ => tracks_pure _

theorem sincere_countAt (id : BlockId) : (countAt upstream id).Sincere :=
  ((sincere_request _).bind fun _ _ => sincere_pure _).tryCatch_throw _

theorem sincere_getBlockTransactionCountByNumber (blockNumOrTag : BlockParam) :
    (getBlockTransactionCountByNumber upstream blockNumOrTag).Sincere :=
  (tracks_translateBlockTag upstream.mirror blockNumOrTag).sincere.bind
    fun _ _ => sincere_countAt upstream _

end Counts

section Transactions

variable (upstream : Upstream) (config : ViewConfig)

/-- The parties of a transaction; that it creates a contract hides the recipient. -/
def detailParties (contractResult : ContractResultDetails) : Parties where
  fromAddress := some contractResult.fromAddress
  toAddress :=
    if createsContract contractResult.toMirrorNodeContractResult then none
    else contractResult.toAddress

/-- The transaction of a contract result, of which the type may be unknown. -/
def transactionOf (contractResult : ContractResultDetails) (parties : Parties) :
    Except RelayError (Option Transaction) :=
  createTransactionFromContractResult
    { withParties contractResult.toMirrorNodeContractResult parties with
      chainId := chainIdOrDefault config.blocks contractResult.chainId }

def syntheticTransaction {m : Type → Type} [Monad m] (views : ViewClient m) (hash : String) :
    m (Option Transaction) := do
  match ← askSyntheticLogs views hash with
  | [] => return none
  | log :: _ => return createTransactionFromLog config.blocks.chain log 0

def getTransactionByHash (hash : String) : Tracked RelayError (Option Transaction) := do
  match ← (trackedViews upstream.views).getContractResult hash with
  | none => syntheticTransaction config (trackedViews upstream.views) hash
  | some contractResult => do
      let parties ← resolveParties upstream.lookups "" 0 [.account] (detailParties contractResult)
      ofExcept (transactionOf config contractResult parties)

def transactionSteps (hash : String) :
    Steps (Option ContractResultDetails) (Option Transaction) where
  asked := upstream.views.getContractResult hash
  misses contractResult := ∃ cr, contractResult = some cr ∧
    areUnresolved upstream.lookups "" 0 [.account] (detailParties cr) = true
  made
    | none => syntheticTransaction config upstream.views hash
    | some contractResult => ofExcept (transactionOf config contractResult
        (resolvedParties upstream.lookups "" 0 [.account] (detailParties contractResult)))

theorem transactionSteps_of (hash : String) :
    (transactionSteps upstream config hash).Of (getTransactionByHash upstream config hash) := by
  refine Steps.of_bind (tracks_request _) ?_
  intro contractResult
  cases contractResult with
  | none =>
    refine Ends.congr (Tracks.ends ((tracks_askSyntheticLogs upstream.views hash).bind
      fun logs _ => ?_)) fun _ _ => by simp [transactionSteps]
    cases logs with
    | nil => exact tracks_pure _
    | cons log logs => exact tracks_pure _
  | some contractResult =>
    exact ((ends_resolveParties upstream.lookups "" 0 [.account] _).then_tracks
      (tracks_ofExcept _)).congr fun _ _ => by simp [transactionSteps]

/-- The transaction of the first contract result. -/
def transactionAt (params : ContractResultsParams) (transactionIndex : String) :
    Tracked RelayError (Option Transaction) := do
  match ← (trackedViews upstream.views).getContractResults
      { params with transactionIndex := some (bigIntOfHex transactionIndex) } with
  | [] => return none
  | contractResult :: _ => do
      let parties ← resolveParties upstream.lookups "" 0 [.account] (resultParties contractResult)
      ofExcept (createTransactionFromContractResult (withParties contractResult parties))

def getTransactionByBlockHashAndIndex (blockHash transactionIndex : String) :
    Tracked RelayError (Option Transaction) :=
  tryCatch (transactionAt upstream { blockHash := some blockHash } transactionIndex)
    fun e => throw (genericErrorHandler e)

def getTransactionByBlockNumberAndIndex (blockNumOrTag : BlockParam) (transactionIndex : String) :
    Tracked RelayError (Option Transaction) := do
  let blockNum ← Fees.translateBlockTag (trackedMirror upstream.mirror) .head blockNumOrTag
  tryCatch (transactionAt upstream { blockNumber := some blockNum } transactionIndex)
    fun e => throw (genericErrorHandler e)

/-- The lookup of a transaction by its index, where `asked` are the contract results. -/
def indexSteps (asked : Except RelayError (List MirrorNodeContractResult)) :
    Steps (List MirrorNodeContractResult) (Option Transaction) where
  asked := asked
  misses contractResults := ∃ cr ∈ contractResults.head?,
    areUnresolved upstream.lookups "" 0 [.account] (resultParties cr) = true
  made
    | [] => .ok none
    | contractResult :: _ => ofExcept (createTransactionFromContractResult
        (withParties contractResult (resolvedParties upstream.lookups "" 0 [.account]
          (resultParties contractResult))))

def resultsAt (params : ContractResultsParams) (transactionIndex : String) :
    Except RelayError (List MirrorNodeContractResult) :=
  upstream.views.getContractResults
    { params with transactionIndex := some (bigIntOfHex transactionIndex) }

private theorem indexSteps_of (params : ContractResultsParams) (transactionIndex : String) :
    (indexSteps upstream (resultsAt upstream params transactionIndex)).Of
      (transactionAt upstream params transactionIndex) := by
  refine Steps.of_bind (tracks_request _) ?_
  intro contractResults
  cases contractResults with
  | nil => exact (tracks_pure none).ends.congr fun _ _ => by simp [indexSteps]
  | cons contractResult contractResults =>
    exact ((ends_resolveParties upstream.lookups "" 0 [.account] _).then_tracks
      (tracks_ofExcept _)).congr fun _ _ => by simp [indexSteps]

def hashIndexSteps (blockHash transactionIndex : String) :
    Steps (List MirrorNodeContractResult) (Option Transaction) :=
  indexSteps upstream (resultsAt upstream { blockHash := some blockHash } transactionIndex)

def numberIndexSteps (blockNumOrTag : BlockParam) (transactionIndex : String) :
    Steps (List MirrorNodeContractResult) (Option Transaction) :=
  indexSteps upstream (Fees.translateBlockTag upstream.mirror .head blockNumOrTag >>=
    fun blockNum => resultsAt upstream { blockNumber := some blockNum } transactionIndex)

theorem hashIndexSteps_of (blockHash transactionIndex : String) :
    (hashIndexSteps upstream blockHash transactionIndex).Of
      (getTransactionByBlockHashAndIndex upstream blockHash transactionIndex) :=
  (indexSteps_of upstream _ _).rethrow _

theorem numberIndexSteps_of (blockNumOrTag : BlockParam) (transactionIndex : String) :
    (numberIndexSteps upstream blockNumOrTag transactionIndex).Of
      (getTransactionByBlockNumberAndIndex upstream blockNumOrTag transactionIndex) :=
  Steps.of_after (tracks_translateBlockTag _ _) rfl
    fun blockNum => (indexSteps_of upstream { blockNumber := some blockNum } _).rethrow _

end Transactions

section Receipts

variable (upstream : Upstream) (config : ViewConfig)

def regularTransactionReceipt (receiptResponse : ContractResultDetails) (effectiveGas : String)
    (parties : Parties) : TransactionReceipt :=
  createRegularReceipt
    { effectiveGas
      fromAddress := parties.fromAddress.getD receiptResponse.fromAddress
      logs := receiptResponse.logs.map receiptResponse.logOf
      receiptResponse := receiptResponse.toMirrorNodeContractResult
      toAddress := parties.toAddress }

def handleSyntheticTransactionReceipt {m : Type → Type} [Monad m] [MonadExceptOf RelayError m]
    (mirror : MirrorNodeClient m) (views : ViewClient m) (fees : FeeClient m) (hash : String) :
    m (Option TransactionReceipt) := do
  match ← askSyntheticLogs views hash with
  | [] => return none
  | log :: logs => do
      let gasPriceForTimestamp ← getCurrentGasPriceForBlock mirror views fees log.blockHash
      return some (← ofExcept (createSyntheticReceipt config.services.buildLogsBloom (log :: logs)
        gasPriceForTimestamp))

def getTransactionReceipt (hash : String) : Tracked RelayError (Option TransactionReceipt) := do
  match ← (trackedViews upstream.views).getContractResult hash with
  | none =>
      handleSyntheticTransactionReceipt config (trackedMirror upstream.mirror)
        (trackedViews upstream.views) (trackedFees upstream.fees) hash
  | some receiptResponse => do
      let effectiveGas ← getCurrentGasPriceForBlock (trackedMirror upstream.mirror)
        (trackedViews upstream.views) (trackedFees upstream.fees) receiptResponse.blockHash
      let parties ← resolveParties upstream.lookups "" 0 allTypes
        (resultParties receiptResponse.toMirrorNodeContractResult)
      return some (regularTransactionReceipt receiptResponse effectiveGas parties)

def receiptSteps (hash : String) :
    Steps (Option ContractResultDetails) (Option TransactionReceipt) where
  asked := upstream.views.getContractResult hash
  misses receiptResponse := ∃ cr, receiptResponse = some cr ∧
    areUnresolved upstream.lookups "" 0 allTypes
      (resultParties cr.toMirrorNodeContractResult) = true
  made
    | none =>
        handleSyntheticTransactionReceipt config upstream.mirror upstream.views upstream.fees hash
    | some receiptResponse => do
        let effectiveGas ← getCurrentGasPriceForBlock upstream.mirror upstream.views upstream.fees
          receiptResponse.blockHash
        return some (regularTransactionReceipt receiptResponse effectiveGas
          (resolvedParties upstream.lookups "" 0 allTypes
            (resultParties receiptResponse.toMirrorNodeContractResult)))

theorem receiptSteps_of (hash : String) :
    (receiptSteps upstream config hash).Of (getTransactionReceipt upstream config hash) := by
  have hprice (blockHash : String) := tracks_getCurrentGasPriceForBlock upstream.mirror
    upstream.fees upstream.views blockHash
  refine Steps.of_bind (tracks_request _) ?_
  intro receiptResponse
  cases receiptResponse with
  | none =>
    refine Ends.congr (Tracks.ends ((tracks_askSyntheticLogs upstream.views hash).bind
      fun logs _ => ?_)) fun _ _ => by simp [receiptSteps]
    cases logs with
    | nil => exact tracks_pure _
    | cons log logs =>
      exact (hprice _).bind fun _ _ => (tracks_ofExcept _).bind fun _ _ => tracks_pure _
  | some receiptResponse =>
    refine ((hprice _).ends.bind fun effectiveGas _ =>
      (ends_resolveParties upstream.lookups "" 0 allTypes _).then_tracks
        (tracks_pure (some (regularTransactionReceipt receiptResponse effectiveGas _)))).congr
          fun _ _ => ?_
    simp [receiptSteps]

end Receipts

end JsonRpcRelay.Cache.Views

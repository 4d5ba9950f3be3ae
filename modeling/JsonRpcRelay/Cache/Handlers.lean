import JsonRpcRelay.Account.StableAnswers
import JsonRpcRelay.Cache.FailedRequests
import JsonRpcRelay.Cache.SettledCalls
import JsonRpcRelay.Cache.TraceHandlers

/-!
# The handlers behind the cache

The handlers of balances, counts and slots have no result if one of their requests has failed, that
of codes unless the failed one is for the contract, and that of logs unless it is for their block.
With those of calls, fees, blocks, transactions and traces this tells when the decorator is sound.
-/

namespace JsonRpcRelay.Cache

open constants Mirror Common Contract Account Fees Blocks Debug Framework Tracked
open Views Traces

section Balance

variable (config : CommonConfig) (mirror : MirrorNodeClient (Except RelayError))
  (client : AccountClient (Except RelayError))

private theorem sincere_blockNumberTimestamp :
    (blockNumberTimestamp (trackedMirror mirror) (trackedAccount client)).Sincere := by
  apply Sincere.bind (sincere_request _)
  intro blocks _
  split
  · exact (sincere_request _).bind fun _ _ => sincere_pure _
  · exact sincere_throw _

private theorem sincere_extractBlockNumberAndTimestamp (param : BlockParam) :
    (extractBlockNumberAndTimestamp (trackedMirror mirror) (trackedAccount client)
      param).Sincere := by
  have hknown : (knownLatestBlock (trackedMirror mirror) (trackedAccount client)).Sincere := by
    apply Sincere.bind (sincere_request _)
    intro number _
    cases number with
    | some number => exact sincere_pure _
    | none => exact sincere_blockNumberTimestamp mirror client
  have hcurrent : (currentBlockNumber (trackedMirror mirror) param).Sincere := by
    unfold currentBlockNumber
    split
    · apply Sincere.bind (sincere_request _)
      intro block _
      cases block with
      | some block => exact sincere_pure _
      | none => exact sincere_throw _
    · exact sincere_pure _
  apply hknown.bind
  intro latest _
  apply hcurrent.bind
  intro current _
  refine Sincere.bind ?_ fun _ _ => sincere_pure _
  exact sincere_ite (fun _ => sincere_blockNumberTimestamp mirror client) fun _ => sincere_pure _

private theorem sincere_getCurrentBalance (account : String) :
    (getCurrentBalance (trackedAccount client) account).Sincere := by
  apply Sincere.bind (sincere_request _)
  intro mirrorAccount _
  cases mirrorAccount with
  | none => exact sincere_pure _
  | some mirrorAccount =>
    dsimp only
    split
    · exact sincere_pure _
    · exact sincere_throw _

private theorem sincere_balanceOfBlock (account : String) (timestamp : Timestamp)
    (block : MirrorNodeBlock) :
    (balanceOfBlock (trackedAccount client) account timestamp block).Sincere := by
  have hbefore (mirrorAccount : MirrorAccount) :
      (balanceBeforeTransactions (trackedAccount client) mirrorAccount block).Sincere := by
    unfold balanceBeforeTransactions
    split
    · refine Sincere.bind ?_ fun _ _ => sincere_pure _
      exact sincere_ite (fun _ => sincere_request _) fun _ => sincere_pure _
    · exact (sincere_pure _).bind fun _ _ => sincere_pure _
  have hbalance :
      (getBalanceAtBlockNumber (trackedAccount client) account block timestamp).Sincere := by
    unfold getBalanceAtBlockNumber
    split
    · apply Sincere.bind (sincere_request _)
      intro balances _
      split
      · exact sincere_pure _
      · exact sincere_pure _
    · apply Sincere.bind (sincere_request _)
      intro mirrorAccount _
      cases mirrorAccount with
      | some mirrorAccount => exact (hbefore mirrorAccount).bind fun _ _ => sincere_pure _
      | none => exact sincere_pure _
  apply hbalance.bind
  intro tinybars _
  cases tinybars with
  | some tinybars => exact sincere_pure _
  | none => exact sincere_getCurrentBalance client account

private theorem sincere_getBalance (account : String) (param : BlockParam) :
    (getBalance config (trackedMirror mirror) (trackedAccount client) account param).Sincere := by
  have hbalance (latest : LatestBlockNumberTimestamp) (param : BlockParam) :
      (balanceAtWith config (trackedMirror mirror) (trackedAccount client)
        (balanceOfBlock (trackedAccount client) account) account latest param).Sincere := by
    unfold balanceAtWith
    split
    · exact sincere_getCurrentBalance client account
    · apply (tracks_getHistoricalBlockResponse mirror config _ _).sincere.bind
      intro block _
      cases block with
      | some block => exact sincere_balanceOfBlock client account _ block
      | none => exact sincere_getCurrentBalance client account
  unfold getBalance getBalanceWith
  split
  · exact (sincere_getCurrentBalance client account).tryCatch_throw _
  · apply (sincere_extractBlockNumberAndTimestamp mirror client param).bind
    intro latest _
    exact (hbalance _ _).tryCatch_throw _

end Balance

section Count

variable (config : CommonConfig) (mirror : MirrorNodeClient (Except RelayError))
  (client : AccountClient (Except RelayError)) (address : String)

private theorem sincere_getAccountLatestEthereumNonce :
    (getAccountLatestEthereumNonce (trackedAccount client) address).Sincere := by
  apply Sincere.bind (sincere_request _)
  intro accountData _
  cases accountData with
  | some accountData => exact sincere_pure _
  | none => exact sincere_pure _

private theorem sincere_nonceFromTransactions (transactions : List AccountTransaction) :
    (nonceFromTransactions (trackedAccount client) address transactions).Sincere := by
  match transactions with
  | [] => exact sincere_pure _
  | [_] => exact sincere_pure _
  | transaction :: _ :: _ =>
    apply Sincere.bind (sincere_request _)
    intro transactionResult _
    cases transactionResult with
    | none => exact sincere_throw _
    | some transactionResult =>
      apply Sincere.bind (sincere_request _)
      intro accountResult _
      cases accountResult with
      | none => exact sincere_throw _
      | some accountResult =>
        exact sincere_ite (fun _ => sincere_getAccountLatestEthereumNonce client address)
          fun _ => sincere_pure _

private theorem sincere_getAccountNonceForHistoricBlock (id : BlockId) :
    (getAccountNonceForHistoricBlock config (trackedMirror mirror) (trackedAccount client) address
      id).Sincere := by
  have hnumber : (blockNumOf (trackedMirror mirror) id).Sincere := by
    cases id with
    | number n => exact sincere_pure _
    | hash text =>
      apply Sincere.bind (sincere_request _)
      intro block _
      cases block with
      | some block => exact sincere_pure _
      | none => exact sincere_throw _
  have hresult (n : ℕ) : (getAccountNonceFromContractResult (trackedMirror mirror)
      (trackedAccount client) address n).Sincere := by
    apply Sincere.bind (sincere_request _)
    intro block _
    cases block with
    | none => exact sincere_throw _
    | some block =>
      apply Sincere.bind (sincere_request _)
      intro transactions _
      exact sincere_nonceFromTransactions client address _
  apply hnumber.bind
  intro n _
  apply Sincere.bind (sincere_request _)
  intro blocks _
  split
  · exact sincere_ite (fun _ => sincere_getAccountLatestEthereumNonce client address)
      fun _ => hresult n
  · exact sincere_throw _

private theorem sincere_getTransactionCount (param : BlockParam) :
    (getTransactionCount config (trackedMirror mirror) (trackedAccount client) address
      param).Sincere := by
  have hlatest : (latestTransactionCount (trackedAccount client) address param).Sincere := by
    apply (sincere_getAccountLatestEthereumNonce client address).bind
    intro nonce _
    exact sincere_ite (fun _ => (sincere_request _).bind fun _ _ => sincere_pure _)
      fun _ => sincere_pure _
  have hearliest : (getAccountNonceForEarliestBlock (trackedAccount client)).Sincere := by
    apply Sincere.bind (sincere_request _)
    intro block _
    cases block with
    | none => exact sincere_throw _
    | some block => exact sincere_ite (fun _ => sincere_pure _) fun _ => sincere_throw _
  have hhistoric := sincere_getAccountNonceForHistoricBlock config mirror client address
  unfold getTransactionCount
  apply sincere_ite (fun _ => sincere_pure _)
  intro _
  apply sincere_ite (fun _ => hlatest)
  intro _
  apply sincere_ite (fun _ => hearliest)
  intro _
  apply sincere_ite (fun _ => hhistoric _)
  intro _
  exact sincere_ite (fun _ => hhistoric _) fun _ => sincere_throw _

end Count

section State

variable (config : CommonConfig) (mirror : MirrorNodeClient (Except RelayError))
  (client : ContractClient (Except RelayError)) (lookups : Lookups) (address : String)
  (param : Option BlockParam)

/-- No entity is found because of a failed request. -/
def codeIsMissed : Bool :=
  isBlockParamValid param && address ≠ HTS_ADDRESS &&
    (lookups "" 0 address).isMissed [.contract, .token]

private theorem resolveEntityType_trackedContract (types : List EntityType) :
    (trackedContract client lookups).resolveEntityType address types =
      ⟨.ok (((lookups "" 0 address).found types).map codeEntity),
        (lookups "" 0 address).isMissed types⟩ :=
  Tracked.ext rfl (Bool.or_false _)

private theorem getCode_of_missed (h : codeIsMissed lookups address param = true) :
    getCode config (trackedMirror mirror) (trackedContract client lookups) address param =
      ⟨.ok EMPTY_HEX, true⟩ := by
  unfold codeIsMissed at h
  simp only [Bool.and_eq_true, decide_eq_true_eq] at h
  obtain ⟨⟨hvalid, haddress⟩, hmissed⟩ := h
  have hnone : (lookups "" 0 address).found [.contract, .token] = none := by
    rw [LookupReplies.isMissed, Bool.and_eq_true] at hmissed
    exact Option.isNone_iff_eq_none.mp hmissed.1
  unfold getCode
  rw [if_neg (by rw [hvalid]; decide), if_neg haddress, resolveEntityType_trackedContract,
    bind_of_ok rfl, hnone, hmissed]
  rfl

private theorem sincere_getCode (h : codeIsMissed lookups address param = false) :
    (getCode config (trackedMirror mirror) (trackedContract client lookups) address
      param).Sincere := by
  unfold getCode
  apply sincere_ite (fun _ => sincere_throw _)
  intro hinvalid
  apply sincere_ite (fun _ => sincere_pure _)
  intro haddress
  have hvalid : isBlockParamValid param = true := by simpa using hinvalid
  have hmissed : (lookups "" 0 address).isMissed [.contract, .token] = false := by
    simpa [codeIsMissed, hvalid, haddress] using h
  rw [resolveEntityType_trackedContract, hmissed]
  apply Sincere.bind (fun _ _ => rfl)
  intro entity _
  cases entity with
  | none => exact sincere_pure _
  | some entity =>
    exact (tracks_getHistoricalBlockResponse mirror config param true).sincere.bind
      fun _ _ => sincere_pure _

private theorem sincere_getStorageAt (slot : String) :
    (getStorageAt config (trackedMirror mirror) (trackedContract client lookups) address slot
      param).Sincere := by
  apply (tracks_getHistoricalBlockResponse mirror config param false).sincere.bind
  intro block _
  apply sincere_ite (fun _ => sincere_throw _)
  intro _
  apply Sincere.bind
  · exact (sincere_request _).tryCatch_throw _
  · intro _ _
    exact sincere_pure _

end State

section Logs

variable (config : CommonConfig) (mirror : MirrorNodeClient (Except RelayError))
  (blockHash : Option String) (fromBlock toBlock : Option BlockParam) (address : AddressFilter)
  (topics : Option (List TopicFilter))

/-- The request for the block of the logs fails with the status 404. -/
def blockIsNotFound : Bool :=
  match blockHash with
  | none => false
  | some blockHash =>
      match mirror.getBlock .fromBlock (.hash blockHash) with
      | .error (.mirrorNodeClientError 404 _) => true
      | _ => false

private theorem sincere_validateBlockRange :
    (validateBlockRangeAndAddTimestampToParams config (trackedMirror mirror) fromBlock toBlock
      address).Sincere := by
  have hrequire : (requireFromBlock (trackedMirror mirror) fromBlock toBlock).Sincere := by
    apply sincere_ite (fun _ => sincere_pure _)
    intro _
    apply (tracks_getLatestBlockNumber mirror).sincere.bind
    intro latest _
    exact sincere_ite (fun _ => sincere_throw _) fun _ => sincere_pure _
  have hfrom (block : MirrorNodeBlock) : (timestampRangeFrom config (trackedMirror mirror)
      (latestIfTag fromBlock) (latestIfTag toBlock) address block).Sincere := by
    apply sincere_ite (fun _ => sincere_pure _)
    intro _
    apply (tracks_getHistoricalBlockResponse mirror config _ _).sincere.bind
    intro toBlockResponse _
    cases toBlockResponse with
    | none => exact sincere_pure _
    | some toBlockResponse =>
      dsimp only
      split
      · exact sincere_throw _
      · exact sincere_pure _
  apply hrequire.bind
  intro _ _
  apply (tracks_getHistoricalBlockResponse mirror config _ _).sincere.bind
  intro block _
  cases block with
  | none => exact sincere_pure _
  | some block => exact hfrom block

private theorem sincere_queryLogs (range : Timestamp × Timestamp) :
    (queryLogs (trackedMirror mirror) address topics range).Sincere := by
  have hquery (addresses : List String) (params : LogParams) :
      (getLogsByAddress (trackedMirror mirror) addresses params).Sincere := by
    refine (sincere_mapM fun address _ => ?_).bind fun _ _ => sincere_pure _
    exact sincere_ite (fun _ => sincere_pure _) fun _ => sincere_request _
  unfold queryLogs
  split
  · exact sincere_throw _
  · refine Sincere.bind ?_ fun _ _ => sincere_pure _
    unfold getLogRecords
    split
    · exact sincere_request _
    · exact sincere_ite (fun _ => sincere_request _) fun _ => hquery _ _
    · exact hquery _ _

private theorem validateBlockHash_of_error {blockHash : String} {e : RelayError}
    (h : mirror.getBlock .fromBlock (.hash blockHash) = .error e) :
    validateBlockHashAndAddTimestampToParams (trackedMirror mirror) blockHash =
      ⟨if blockIsNotFound mirror (some blockHash) then .ok none else .error e, true⟩ := by
  have hrequest : (trackedMirror mirror).getBlock .fromBlock (.hash blockHash) =
      ⟨.error e, true⟩ := by
    simp only [trackedMirror, h]
    rfl
  unfold validateBlockHashAndAddTimestampToParams blockIsNotFound
  rw [hrequest, bind_of_error rfl, tryCatch_of_error rfl]
  simp only [h]
  split
  · rfl
  · split
    · rename_i hnot _ message heq
      exact (hnot message (Except.error.inj heq)).elim
    · rfl

private theorem getLogs_of_notFound (h : blockIsNotFound mirror blockHash = true) :
    Common.getLogs config (trackedMirror mirror) blockHash fromBlock toBlock address topics =
      ⟨.ok [], true⟩ := by
  cases blockHash with
  | none => cases h
  | some blockHash =>
    cases hblock : mirror.getBlock .fromBlock (.hash blockHash) with
    | ok block => simp [blockIsNotFound, hblock] at h
    | error e =>
      have hrange := validateBlockHash_of_error mirror hblock
      rw [if_pos h] at hrange
      unfold Common.getLogs getLogsInWorker
      dsimp only
      rw [hrange]
      rfl

private theorem sincere_validateBlockHash {blockHash : String}
    (h : blockIsNotFound mirror (some blockHash) = false) :
    (validateBlockHashAndAddTimestampToParams (trackedMirror mirror) blockHash).Sincere := by
  cases hblock : mirror.getBlock .fromBlock (.hash blockHash) with
  | error e =>
    rw [validateBlockHash_of_error mirror hblock, h]
    intro range hrange
    cases hrange
  | ok block =>
    have hrequest : (trackedMirror mirror).getBlock .fromBlock (.hash blockHash) = pure block := by
      simp only [trackedMirror, hblock]
      rfl
    unfold validateBlockHashAndAddTimestampToParams
    rw [hrequest, pure_bind]
    cases block with
    | none => exact fun _ _ => rfl
    | some block => exact fun _ _ => rfl

private theorem sincere_getLogs (h : blockIsNotFound mirror blockHash = false) :
    (Common.getLogs config (trackedMirror mirror) blockHash fromBlock toBlock address
      topics).Sincere := by
  refine Sincere.tryCatch_throw ?_ _
  cases blockHash with
  | none =>
    apply (sincere_validateBlockRange config mirror fromBlock toBlock address).bind
    intro range _
    cases range with
    | none => exact sincere_pure _
    | some range => exact sincere_queryLogs mirror address topics range
  | some blockHash =>
    apply (sincere_validateBlockHash mirror h).bind
    intro range _
    cases range with
    | none => exact sincere_pure _
    | some range => exact sincere_queryLogs mirror address topics range

end Logs

section Handlers

/-- What is called behind the cache. -/
inductive Handler where
  | feeHistory (config : FeeConfig) (blockCount : Option ℕ) (newestBlock : BlockParam)
      (rewardPercentiles : Option (List Json))
  | getStorageAt (config : CommonConfig) (address slot : String) (param : BlockParam)
  | getBalance (config : CommonConfig) (account : String) (param : BlockParam)
  | getCode (config : CommonConfig) (address : String) (param : BlockParam)
  | getBlockByHash (config : ViewConfig) (blockHash : String) (showDetails : Bool)
  | getBlockTransactionCountByHash (blockHash : String)
  | getBlockTransactionCountByNumber (blockNumber : BlockParam)
  | getTransactionByBlockHashAndIndex (blockHash transactionIndex : String)
  | getTransactionByBlockNumberAndIndex (blockNumber : BlockParam) (transactionIndex : String)
  | getBlockByNumber (config : ViewConfig) (blockNumber : BlockParam) (showDetails : Bool)
  | getTransactionCount (config : CommonConfig) (address : String) (param : BlockParam)
  | call (operator : Operator) (request : IContractCallRequest) (blockParam : Json)
  | getTransactionByHash (config : ViewConfig) (hash : String)
  | getTransactionReceipt (config : ViewConfig) (hash : String)
  | getLogs (config : CommonConfig) (blockHash : Option String)
      (fromBlock toBlock : Option BlockParam) (address : AddressFilter)
      (topics : Option (List TopicFilter))
  | getBlockReceipts (config : ViewConfig) (block : BlockParam)
  | traceTransaction (config : DebugConfig) (transactionHash : String)
      (tracerObject : Option ITracerConfigWrapper)
  | traceBlockByNumber (config : DebugConfig) (blockNumber : BlockParam)
      (tracerObject : Option ITracerConfigWrapper)

namespace Handler

def method : Handler → CachedMethod
  | feeHistory .. => .feeHistory
  | getStorageAt .. => .getStorageAt
  | getBalance .. => .getBalance
  | getCode .. => .getCode
  | getBlockByHash .. => .getBlockByHash
  | getBlockTransactionCountByHash .. => .getBlockTransactionCountByHash
  | getBlockTransactionCountByNumber .. => .getBlockTransactionCountByNumber
  | getTransactionByBlockHashAndIndex .. => .getTransactionByBlockHashAndIndex
  | getTransactionByBlockNumberAndIndex .. => .getTransactionByBlockNumberAndIndex
  | getBlockByNumber .. => .getBlockByNumber
  | getTransactionCount .. => .getTransactionCount
  | call .. => .call
  | getTransactionByHash .. => .getTransactionByHash
  | getTransactionReceipt .. => .getTransactionReceipt
  | getLogs .. => .getLogs
  | getBlockReceipts .. => .getBlockReceipts
  | traceTransaction .. => .traceTransaction
  | traceBlockByNumber .. => .traceBlockByNumber

def text (s : String) : Answer := .value (.string s)

/-- `null`, or what was found. -/
def orNull {α : Type} (toAnswer : α → Answer) : Option α → Answer
  | none => .value .null
  | some a => toAnswer a

def run (upstream : Upstream) : Handler → Tracked RelayError Answer
  | feeHistory config blockCount newestBlock rewardPercentiles =>
      feeHistoryHandler config upstream blockCount newestBlock rewardPercentiles
  | getStorageAt config address slot param =>
      answered text (Contract.getStorageAt config (trackedMirror upstream.mirror)
        (trackedContract upstream.contract upstream.lookups) address slot (some param))
  | getBalance config account param =>
      answered text (Account.getBalance config (trackedMirror upstream.mirror)
        (trackedAccount upstream.account) account param)
  | getCode config address param =>
      answered text (Contract.getCode config (trackedMirror upstream.mirror)
        (trackedContract upstream.contract upstream.lookups) address (some param))
  | getBlockByHash config blockHash showDetails =>
      answered (orNull .block) (getBlock upstream config showDetails (.hash blockHash))
  | getBlockTransactionCountByHash blockHash =>
      answered (orNull text) (Views.getBlockTransactionCountByHash upstream blockHash)
  | getBlockTransactionCountByNumber blockNumber =>
      answered (orNull text) (Views.getBlockTransactionCountByNumber upstream blockNumber)
  | getTransactionByBlockHashAndIndex blockHash transactionIndex =>
      answered (orNull .transaction)
        (Views.getTransactionByBlockHashAndIndex upstream blockHash transactionIndex)
  | getTransactionByBlockNumberAndIndex blockNumber transactionIndex =>
      answered (orNull .transaction)
        (Views.getTransactionByBlockNumberAndIndex upstream blockNumber transactionIndex)
  | getBlockByNumber config blockNumber showDetails =>
      answered (orNull .block) (getBlock upstream config showDetails blockNumber)
  | getTransactionCount config address param =>
      answered text (Account.getTransactionCount config (trackedMirror upstream.mirror)
        (trackedAccount upstream.account) address param)
  | call operator request blockParam => callHandler operator upstream request blockParam
  | getTransactionByHash config hash =>
      answered (orNull .transaction) (Views.getTransactionByHash upstream config hash)
  | getTransactionReceipt config hash =>
      answered (orNull .receipt) (Views.getTransactionReceipt upstream config hash)
  | getLogs config blockHash fromBlock toBlock address topics =>
      answered .logs (Common.getLogs config (trackedMirror upstream.mirror) blockHash fromBlock
        toBlock address topics)
  | getBlockReceipts config block =>
      answered (orNull .receipts) (Views.getBlockReceipts upstream config block)
  | traceTransaction config transactionHash tracerObject =>
      answered .trace (Traces.traceTransaction config upstream transactionHash tracerObject)
  | traceBlockByNumber config blockNumber tracerObject =>
      answered .blockTraces (Traces.traceBlockByNumber config upstream blockNumber tracerObject)

/-- What is made of the answers to the requests has no mark of a failed one, nor is it an error
that is returned. -/
def IsOrdinaryFor (upstream : Upstream) : Handler → Prop
  | getBalance .. | getTransactionCount .. | getStorageAt .. => True
  | getBlockTransactionCountByHash .. | getBlockTransactionCountByNumber .. => True
  | feeHistory config blockCount newestBlock rewardPercentiles =>
      feeHistoryIsOrdinary config upstream blockCount newestBlock rewardPercentiles = true
  | call operator request blockParam => callIsOrdinary operator upstream request blockParam = true
  | getCode _ address param => codeIsMissed upstream.lookups address (some param) = false
  | getLogs _ blockHash _ _ _ _ => blockIsNotFound upstream.mirror blockHash = false
  | getBlockByHash config blockHash showDetails =>
      (blockSteps upstream config showDetails (.hash blockHash)).AreOrdinary Option.isSome
  | getBlockByNumber config blockNumber showDetails =>
      (blockSteps upstream config showDetails blockNumber).AreOrdinary Option.isSome
  | getTransactionByBlockHashAndIndex blockHash transactionIndex =>
      (hashIndexSteps upstream blockHash transactionIndex).AreOrdinary Option.isSome
  | getTransactionByBlockNumberAndIndex blockNumber transactionIndex =>
      (numberIndexSteps upstream blockNumber transactionIndex).AreOrdinary Option.isSome
  | getTransactionByHash config hash =>
      (transactionSteps upstream config hash).AreOrdinary Option.isSome
  | getTransactionReceipt config hash =>
      (receiptSteps upstream config hash).AreOrdinary Option.isSome
  | getBlockReceipts config block =>
      (receiptsSteps upstream config block).AreOrdinary Option.isSome
  | traceTransaction config transactionHash tracerObject =>
      (transactionTraced config upstream transactionHash tracerObject).isOk = true →
        ¬TraceMisses upstream transactionHash (tracerOf tracerObject)
          (configOf tracerObject).onlyTopCall
  | traceBlockByNumber config blockNumber tracerObject =>
      (blockTraced config upstream blockNumber tracerObject).isOk = true →
        ¬BlockMisses config upstream blockNumber tracerObject

private theorem orNull_isTruthy {α : Type} {toAnswer : α → Answer}
    (h : ∀ a, (toAnswer a).isTruthy = true) :
    (fun found => (orNull toAnswer found).isTruthy) = Option.isSome := by
  funext found
  cases found with
  | none => rfl
  | some a => exact h a

private theorem orNull_isError {α : Type} {toAnswer : α → Answer}
    (h : ∀ a, (toAnswer a).isError = false)
    (found : Option α) : (orNull toAnswer found).isError = false := by
  cases found with
  | none => rfl
  | some a => exact h a

end Handler

open Handler

private theorem isOrdinary_orNull {D α : Type} {s : Steps D (Option α)}
    {run : Tracked RelayError (Option α)} {toAnswer : α → Answer} (h : s.Of run)
    (hvalue : ∀ a, (toAnswer a).isError = false) (htruthy : ∀ a, (toAnswer a).isTruthy = true) :
    IsOrdinary (answered (orNull toAnswer) run) ↔ s.AreOrdinary Option.isSome := by
  rw [h.isOrdinary_iff (orNull_isError hvalue), orNull_isTruthy htruthy]

/-- A trace has the mark of a failed request, or none. -/
theorem isOrdinary_trace {α : Type} {run : Tracked RelayError α} {y : Except RelayError α}
    {c : Prop} {toAnswer : α → Answer} (h : Ends run y c)
    (hvalue : ∀ a, (toAnswer a).isError = false) (htruthy : ∀ a, (toAnswer a).isTruthy = true) :
    IsOrdinary (answered toAnswer run) ↔ (y.isOk = true → ¬c) := by
  rw [isOrdinary_answered hvalue]
  cases y with
  | error e =>
    apply iff_of_true
    · intro a ha
      cases h.result.symm.trans ha
    · intro hok
      cases hok
  | ok a =>
    have hfailed := h.failed a rfl
    constructor
    · intro hquiet _ hc
      have hnot := hquiet a h.result (htruthy a)
      rw [hfailed.mpr hc] at hnot
      cases hnot
    · intro hnot b _ _
      exact Bool.eq_false_of_not_eq_true fun hb => hnot rfl (hfailed.mp hb)

private theorem isOrdinary_getCode (upstream : Upstream) (config : CommonConfig) (address : String)
    (param : BlockParam) :
    IsOrdinary ((Handler.getCode config address param).run upstream) ↔
      codeIsMissed upstream.lookups address (some param) = false := by
  cases hmissed : codeIsMissed upstream.lookups address (some param) with
  | false =>
    exact iff_of_true (isOrdinary_of_sincere (fun _ => rfl)
      (sincere_getCode config _ _ _ address _ hmissed)) rfl
  | true =>
    apply iff_of_false ?_ Bool.false_ne_true.symm
    rw [Handler.run, getCode_of_missed config _ _ _ address _ hmissed]
    intro h
    cases (h _ rfl (by decide)).2

private theorem isOrdinary_getLogs (upstream : Upstream) (config : CommonConfig)
    (blockHash : Option String) (fromBlock toBlock : Option BlockParam) (address : AddressFilter)
    (topics : Option (List TopicFilter)) :
    IsOrdinary ((Handler.getLogs config blockHash fromBlock toBlock address topics).run upstream) ↔
      blockIsNotFound upstream.mirror blockHash = false := by
  cases hfound : blockIsNotFound upstream.mirror blockHash with
  | false =>
    exact iff_of_true (isOrdinary_of_sincere (fun _ => rfl)
      (sincere_getLogs config _ _ _ _ _ _ hfound)) rfl
  | true =>
    apply iff_of_false ?_ Bool.false_ne_true.symm
    rw [Handler.run, getLogs_of_notFound config _ _ _ _ _ _ hfound]
    intro h
    cases (h _ rfl rfl).2

private theorem isOrdinary_run (upstream : Upstream) (handler : Handler) :
    IsOrdinary (handler.run upstream) ↔ handler.IsOrdinaryFor upstream := by
  have hsincere {α : Type} {toAnswer : α → Answer} {run : Tracked RelayError α}
      (hvalue : ∀ a, (toAnswer a).isError = false) (h : run.Sincere) :
      IsOrdinary (answered toAnswer run) ↔ True :=
    iff_of_true (isOrdinary_of_sincere hvalue h) trivial
  have htext : ∀ found, (orNull text found).isError = false := orNull_isError fun _ => rfl
  cases handler with
  | feeHistory config blockCount newestBlock rewardPercentiles =>
    exact isOrdinary_feeHistoryHandler config upstream blockCount newestBlock rewardPercentiles
  | getStorageAt config address slot param =>
    exact hsincere (fun _ => rfl) (sincere_getStorageAt config _ _ _ address _ slot)
  | getBalance config account param =>
    exact hsincere (fun _ => rfl) (sincere_getBalance config _ _ account param)
  | getCode config address param => exact isOrdinary_getCode upstream config address param
  | getBlockByHash config blockHash showDetails =>
    exact isOrdinary_orNull (blockSteps_of upstream config _ _) (fun _ => rfl) fun _ => rfl
  | getBlockTransactionCountByHash blockHash =>
    exact hsincere htext (sincere_countAt upstream _)
  | getBlockTransactionCountByNumber blockNumber =>
    exact hsincere htext (sincere_getBlockTransactionCountByNumber upstream _)
  | getTransactionByBlockHashAndIndex blockHash transactionIndex =>
    exact isOrdinary_orNull (hashIndexSteps_of upstream _ _) (fun _ => rfl) fun _ => rfl
  | getTransactionByBlockNumberAndIndex blockNumber transactionIndex =>
    exact isOrdinary_orNull (numberIndexSteps_of upstream _ _) (fun _ => rfl) fun _ => rfl
  | getBlockByNumber config blockNumber showDetails =>
    exact isOrdinary_orNull (blockSteps_of upstream config _ _) (fun _ => rfl) fun _ => rfl
  | getTransactionCount config address param =>
    exact hsincere (fun _ => rfl) (sincere_getTransactionCount config _ _ address param)
  | call operator request blockParam =>
    exact isOrdinary_callHandler operator upstream request blockParam
  | getTransactionByHash config hash =>
    exact isOrdinary_orNull (transactionSteps_of upstream config _) (fun _ => rfl) fun _ => rfl
  | getTransactionReceipt config hash =>
    exact isOrdinary_orNull (receiptSteps_of upstream config _) (fun _ => rfl) fun _ => rfl
  | getLogs config blockHash fromBlock toBlock address topics =>
    exact isOrdinary_getLogs upstream config blockHash fromBlock toBlock address topics
  | getBlockReceipts config block =>
    exact isOrdinary_orNull (receiptsSteps_of upstream config _) (fun _ => rfl) fun _ => rfl
  | traceTransaction config transactionHash tracerObject =>
    exact isOrdinary_trace (ends_traceTransaction config upstream _ _) (fun _ => rfl) fun _ => rfl
  | traceBlockByNumber config blockNumber tracerObject =>
    exact isOrdinary_trace (ends_traceBlockByNumber config upstream _ _) (fun _ => rfl)
      fun _ => rfl

/-- Nothing is found for an address. -/
def noEntity : LookupReplies EntityRecord where
  cachedResponse := none
  getContract := .ok none
  getAccount := .ok none
  getTokenById := .ok none
  exclusive := .inl rfl

/-- The answers of a mirror node with one block. -/
def genesisUpstream : Upstream where
  mirror := chainClient .genesis
  fees := { getNetworkFees := fun _ => .ok none }
  account := genesisNetwork.client
  contract := contractClient noContracts .genesis
  lookups := fun _ _ _ => noEntity
  views := {
    getContractResult := fun _ => .ok none
    getContractResults := fun _ => .ok []
    getContractResultsLogs := fun _ => .ok []
    getNetworkFees := fun _ => .ok none
  }
  traces := fun _ => oneOpcode
  timing := fun _ => inOrder
  keptTraces := fun _ => none
  blocks := {
    common := {}
    mirror := chainClient .genesis
    getContractResultsWithRetry := fun _ _ => .ok none
    getContractResultsLogsWithRetry := fun _ _ => .ok none
    logsFirst := false
  }

end Handlers

end JsonRpcRelay.Cache

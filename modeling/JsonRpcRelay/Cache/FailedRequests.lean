import JsonRpcRelay.Cache.StoredResults
import JsonRpcRelay.Cache.Upstream

/-!
# Results in spite of failed requests

Which handlers return an error, or a result although one of their requests has failed.
-/

namespace JsonRpcRelay.Cache

open constants Mirror Common Contract Account Fees Framework Tracked

section Call

variable {operator : Operator} {upstream : Upstream} {request : IContractCallRequest}
  {blockParam : Json}

/-- What is thrown on its way out of `call`. -/
def isRethrown : RelayError → Bool
  | .jsonRpcError _ | .mirrorNodeClientError _ _ => true
  | _ => false

/-- A call that the mirror node has answered, or whose error is thrown. -/
def isReported : Except CallError (Option String) → Bool
  | .ok _ => true
  | .error (.mirrorNodeClientError e) => !(e.isFailInvalid || e.isInvalidTransaction)
  | .error _ => false

/-- The error of a stage is thrown, or what follows meets the condition. -/
def rethrownOr {α : Type} (stage : Except RelayError α) (condition : α → Bool) : Bool :=
  match stage with
  | .error e => isRethrown e
  | .ok a => condition a

/-- Either an error is thrown, or the call is answered. -/
def callIsOrdinary (operator : Operator) (upstream : Upstream) (request : IContractCallRequest)
    (blockParam : Json) : Bool :=
  rethrownOr (checkAddress request.toAddress) fun _ =>
    rethrownOr (extractBlockNumberOrTag upstream.mirror blockParam) fun block =>
      rethrownOr (contractCallFormat operator upstream.contract request) fun format =>
        rethrownOr (upstream.contract.postContractCall
          (prepareMirrorNodeCallData request format block)) isReported

def callAnswer : CallResult → Answer
  | .hex s => .value (.string s)
  | .error e => .error e

private theorem tracks_getBlockNumberFromHash (client : MirrorNodeClient (Except RelayError))
    (blockHash : Json) : Tracks (getBlockNumberFromHash (trackedMirror client) blockHash)
      (getBlockNumberFromHash client blockHash) := by
  apply Tracks.bind (tracks_request _)
  intro block _
  cases block with
  | none => exact tracks_throw _
  | some block => exact tracks_pure _

private theorem tracks_extractBlockNumberOrTag (client : MirrorNodeClient (Except RelayError))
    (blockParam : Json) : Tracks (extractBlockNumberOrTag (trackedMirror client) blockParam)
      (extractBlockNumberOrTag client blockParam) := by
  unfold extractBlockNumberOrTag
  split
  · split
    · exact tracks_pure _
    · split
      · exact (tracks_getBlockNumberFromHash client _).bind fun _ _ => tracks_pure _
      · exact tracks_pure _
  · split
    · exact tracks_pure _
    · exact (tracks_getBlockNumberFromHash client _).bind fun _ _ => tracks_pure _
    · exact tracks_throw _
  · split
    · exact tracks_pure _
    · exact (tracks_getBlockNumberFromHash client _).bind fun _ _ => tracks_pure _
    · exact tracks_throw _
  · exact tracks_pure _

private theorem tracks_tinybarValue (value : Option String) :
    Tracks (tinybarValue (m := Tracked RelayError) value) (tinybarValue value) := by
  cases value with
  | none => exact tracks_pure _
  | some value =>
    simp only [tinybarValue]
    cases weibarHexToTinyBarInt value with
    | error e => exact tracks_throw e
    | ok value => exact tracks_pure _

private theorem tracks_sender (operator : Operator) (client : ContractClient (Except RelayError))
    (lookups : Lookups) (request : IContractCallRequest) (value : Option ℕ) :
    Tracks (sender operator (trackedContract client lookups) request value)
      (sender operator client request value) := by
  unfold sender operatorAddress
  split
  · split
    · exact tracks_pure _
    · split
      · exact tracks_throw _
      · exact tracks_request _
  · exact tracks_pure _

private theorem tracks_contractCallFormat (operator : Operator)
    (client : ContractClient (Except RelayError))
    (lookups : Lookups) (request : IContractCallRequest) :
    Tracks (contractCallFormat operator (trackedContract client lookups) request)
      (contractCallFormat operator client request) := by
  apply (tracks_tinybarValue _).bind
  intro value _
  apply (tracks_sender operator client lookups request value).bind
  intro fromAddress _
  exact tracks_pure _

private theorem tracks_checkAddress (address : Nullable) :
    Tracks (checkAddress address : Tracked RelayError Unit) (checkAddress address) := by
  unfold checkAddress
  split
  · split
    · exact tracks_throw _
    · exact tracks_pure _
  · exact tracks_pure _

/-- The computation raises an error that is thrown, or has a result and no failed request. -/
def EndsWell (run : Tracked RelayError CallResult) : Prop :=
  match run.result with
  | .error e => isRethrown e = true
  | .ok (.hex s) => s = "" ∨ run.failed = false
  | .ok (.error _) => False

private theorem endsWell_callResult (answer : Except CallError (Option String)) :
    EndsWell ⟨callResult answer, !answer.isOk⟩ ↔ isReported answer = true := by
  match answer with
  | .ok result => exact iff_of_true (.inr rfl) rfl
  | .error (.jsonRpcError e) => exact iff_of_false not_false Bool.false_ne_true
  | .error (.error message) => exact iff_of_false not_false Bool.false_ne_true
  | .error (.mirrorNodeClientError e) =>
    simp only [EndsWell, callResult, handleMirrorNodeError, handleMirrorNodeClientError, isReported]
    cases e.isFailInvalid || e.isInvalidTransaction with
    | true =>
      apply iff_of_false ?_ Bool.false_ne_true
      rintro (hempty | hfailed)
      · exact absurd hempty (by decide)
      · cases hfailed
    | false =>
      apply iff_of_true ?_ rfl
      cases e.isContractRevert with
      | true => rfl
      | false =>
        by_cases hstatus : e.statusCode = 400
        · simp only [hstatus, if_true]
          rfl
        · simp only [hstatus, if_false]
          rfl

private theorem endsWell_callMirrorNode (client : ContractClient (Except RelayError))
    (lookups : Lookups) (data : CallData) :
    EndsWell (callMirrorNode (trackedContract client lookups) data) ↔
      rethrownOr (client.postContractCall data) isReported = true := by
  unfold callMirrorNode
  cases hpost : client.postContractCall data with
  | error e =>
    have hrequest : ((trackedContract client lookups).postContractCall data).result = .error e := by
      simp only [trackedContract, hpost]
      rfl
    rw [bind_of_error hrequest]
    rfl
  | ok answer =>
    have hrequest : (trackedContract client lookups).postContractCall data = inspected answer := by
      simp only [trackedContract, hpost]
      exact bind_of_ok rfl
    have hanswer := endsWell_callResult answer
    rw [hrequest, bind_of_ok rfl]
    cases hresult : callResult answer with
    | error e =>
      rw [hresult, ← Bool.or_false (!answer.isOk)] at hanswer
      exact hanswer
    | ok result =>
      rw [hresult, ← Bool.or_false (!answer.isOk)] at hanswer
      exact hanswer

/-- A stage that fails raises its error, and one that succeeds has no failed request. -/
theorem endsWell_bind {α : Type} {x : Tracked RelayError α} {y : Except RelayError α}
    {f : α → Tracked RelayError CallResult} {condition : α → Bool} (h : Tracks x y)
    (hf : ∀ a, EndsWell (f a) ↔ condition a = true) :
    EndsWell (x >>= f) ↔ rethrownOr y condition = true := by
  cases hy : y with
  | error e =>
    rw [bind_of_error (h.result.trans hy)]
    rfl
  | ok a =>
    have hresult := h.result.trans hy
    rw [bind_of_ok hresult, h.sincere a hresult, Bool.false_or]
    exact hf a

private theorem endsWell_callUncaught (operator : Operator) (upstream : Upstream)
    (request : IContractCallRequest) (blockParam : Json) :
    EndsWell (callUncaught operator (trackedMirror upstream.mirror)
        (trackedContract upstream.contract upstream.lookups) request blockParam) ↔
      callIsOrdinary operator upstream request blockParam = true := by
  apply endsWell_bind (tracks_checkAddress _)
  intro _
  apply endsWell_bind (tracks_extractBlockNumberOrTag _ _)
  intro block
  apply endsWell_bind (tracks_contractCallFormat _ _ _ _)
  intro format
  exact endsWell_callMirrorNode _ _ _

/-- The handler of `eth_call`. -/
def callHandler (operator : Operator) (upstream : Upstream) (request : IContractCallRequest)
    (blockParam : Json) : Tracked RelayError Answer := do
  return callAnswer (← call operator (trackedMirror upstream.mirror)
    (trackedContract upstream.contract upstream.lookups) request blockParam)

theorem isOrdinary_callHandler (operator : Operator) (upstream : Upstream)
    (request : IContractCallRequest) (blockParam : Json) :
    IsOrdinary (callHandler operator upstream request blockParam) ↔
      callIsOrdinary operator upstream request blockParam = true := by
  rw [← endsWell_callUncaught]
  unfold callHandler call
  generalize callUncaught operator (trackedMirror upstream.mirror)
    (trackedContract upstream.contract upstream.lookups) request blockParam = run
  cases hrun : run.result with
  | ok result =>
    rw [tryCatch_of_ok hrun, bind_of_ok rfl, EndsWell, hrun, pure_eq, Bool.or_false]
    cases result with
    | error e =>
      apply iff_of_false ?_ not_false
      intro h
      cases (h _ rfl rfl).1
    | hex s =>
      constructor
      · intro h
        by_cases hempty : s = ""
        · exact .inl hempty
        · exact .inr (h _ rfl (decide_eq_true hempty)).2
      · intro h answer hanswer htruthy
        cases hanswer
        exact ⟨rfl, h.resolve_left (of_decide_eq_true htruthy)⟩
  | error e =>
    rw [tryCatch_of_error hrun, EndsWell, hrun]
    cases e with
    | jsonRpcError e =>
      apply iff_of_true ?_ rfl
      intro answer hanswer
      cases hanswer
    | mirrorNodeClientError statusCode message =>
      apply iff_of_true ?_ rfl
      intro answer hanswer
      cases hanswer
    | sdkClientError e =>
      apply iff_of_false ?_ Bool.false_ne_true
      intro h
      cases (h _ rfl rfl).1
    | error message =>
      apply iff_of_false ?_ Bool.false_ne_true
      intro h
      cases (h _ rfl rfl).1

end Call

section Fees

/-- The requests for the fee of a block do not fail. -/
def feeRequestsSucceed (upstream : Upstream) (blockNumber : ℕ) : Bool :=
  match upstream.mirror.getBlock .fromBlock (.number blockNumber) with
  | .error _ => false
  | .ok none => true
  | .ok (some block) => (upstream.fees.getNetworkFees (some block.timestampTo)).isOk

/-- The blocks whose fees are asked for. -/
def requestedBlocks (blockCount : Option ℕ) (newest latest : ℕ) : List ℕ :=
  blockNumbers blockCount newest ++ if newest < latest then [newest + 1] else []

def historyRequestsSucceed (config : FeeConfig) (upstream : Upstream) (blockCount : Option ℕ)
    (newest latest : ℕ) : Bool :=
  if blockCount = some 0 then true
  else if config.ethFeeHistoryFixed then (upstream.fees.getNetworkFees none).isOk
  else (requestedBlocks blockCount newest latest).all (feeRequestsSucceed upstream)

/-- The request for the latest block, if the tag needs one, does not fail. -/
def tagRequestSucceeds (upstream : Upstream) (lookup : Lookup) (tag : BlockParam) : Bool :=
  !blockTagIsLatestOrPending (some tag) || (upstream.mirror.getLatestBlock lookup).isOk

def newestRequestSucceeds (upstream : Upstream) (newestBlock : BlockParam) : Bool :=
  newestBlock = .latest ∨ newestBlock = .pending ∨
    tagRequestSucceeds upstream .toBlock newestBlock = true

/-- There are too many percentiles, or no request fails and the newest block is not beyond the
head. -/
def feeHistoryIsOrdinary (config : FeeConfig) (upstream : Upstream) (blockCount : Option ℕ)
    (newestBlock : BlockParam) (rewardPercentiles : Option (List Json)) : Bool :=
  rewardPercentiles.any (·.length > FEE_HISTORY_REWARD_PERCENTILES_MAX_SIZE) ||
    (tagRequestSucceeds upstream .head .latest &&
      (translateBlockTag upstream.mirror .head .latest).toOption.all fun latest =>
        newestRequestSucceeds upstream newestBlock &&
          (newestNumber upstream.mirror newestBlock latest).toOption.all fun newest =>
            newest ≤ latest && historyRequestsSucceed config upstream
              (blockCount.map (min · config.feeHistoryMaxResults)) newest latest)

variable {upstream : Upstream} {config : FeeConfig}

private theorem translateBlockTag_tracked (client : MirrorNodeClient (Except RelayError))
    (lookup : Lookup) (tag : BlockParam) : translateBlockTag (trackedMirror client) lookup tag =
      ⟨translateBlockTag client lookup tag,
        blockTagIsLatestOrPending (some tag) && !(client.getLatestBlock lookup).isOk⟩ := by
  unfold translateBlockTag
  cases blockTagIsLatestOrPending (some tag) with
  | false => rfl
  | true =>
    unfold getLatestBlockNumber
    have hrequest : (trackedMirror client).getLatestBlock lookup =
        request (client.getLatestBlock lookup) := rfl
    rw [hrequest]
    match client.getLatestBlock lookup with
    | .error e => rfl
    | .ok none => rfl
    | .ok (some []) => rfl
    | .ok (some (block :: blocks)) => rfl

private theorem newestNumber_tracked (newestBlock : BlockParam) (latest : ℕ) :
    newestNumber (trackedMirror upstream.mirror) newestBlock latest =
      ⟨newestNumber upstream.mirror newestBlock latest,
        !newestRequestSucceeds upstream newestBlock⟩ := by
  unfold newestNumber newestRequestSucceeds tagRequestSucceeds
  by_cases htag : newestBlock = .latest ∨ newestBlock = .pending
  · rw [if_pos htag, if_pos htag]
    rcases htag with rfl | rfl <;> rfl
  · rw [if_neg htag, if_neg htag, translateBlockTag_tracked]
    rw [not_or] at htag
    simp [htag.1, htag.2]

private theorem failed_getGasPriceInWeibars (client : FeeClient (Except RelayError))
    (timestamp : Option Timestamp) :
    (getGasPriceInWeibars (trackedFees client) timestamp).failed =
      !(client.getNetworkFees timestamp).isOk := by
  unfold getGasPriceInWeibars
  apply failed_bind
  intro networkFees
  split <;> rfl

private theorem failed_gasPrice (client : FeeClient (Except RelayError)) :
    (gasPrice config (trackedFees client)).failed = !(client.getNetworkFees none).isOk := by
  unfold gasPrice bufferedGasPrice
  rw [failed_tryCatch fun _ => rfl, failed_bind fun _ => rfl, failed_getGasPriceInWeibars]

private theorem failed_blockFee (blockNumber : ℕ) :
    (blockFee (trackedMirror upstream.mirror) (trackedFees upstream.fees) blockNumber).failed =
      !feeRequestsSucceed upstream blockNumber := by
  unfold blockFee feeRequestsSucceed
  have hrequest : (trackedMirror upstream.mirror).getBlock .fromBlock (.number blockNumber) =
      request (upstream.mirror.getBlock .fromBlock (.number blockNumber)) := rfl
  rw [hrequest]
  match upstream.mirror.getBlock .fromBlock (.number blockNumber) with
  | .error e => rfl
  | .ok none => rfl
  | .ok (some block) =>
    rw [bind_of_ok rfl]
    exact failed_getGasPriceInWeibars upstream.fees _

private theorem getFeeByBlockNumber_tracked (upstream : Upstream) (blockNumber : ℕ) :
    (∃ fee, (getFeeByBlockNumber (trackedMirror upstream.mirror) (trackedFees upstream.fees)
      blockNumber).result = .ok fee) ∧
    (getFeeByBlockNumber (trackedMirror upstream.mirror) (trackedFees upstream.fees)
      blockNumber).failed = !feeRequestsSucceed upstream blockNumber := by
  unfold getFeeByBlockNumber
  constructor
  · cases hfee : (blockFee (trackedMirror upstream.mirror) (trackedFees upstream.fees)
        blockNumber).result with
    | error e =>
      rw [tryCatch_of_error hfee, bind_of_ok rfl]
      exact ⟨_, rfl⟩
    | ok fee =>
      rw [tryCatch_of_ok hfee, bind_of_ok rfl]
      exact ⟨_, rfl⟩
  · rw [failed_bind fun _ => rfl, failed_tryCatch fun _ => rfl, failed_blockFee]

private theorem failed_filled {α : Type} (count : Option ℕ) (x : α) :
    (filled (m := Tracked RelayError) count x).failed = false := by
  cases count <;> rfl

private theorem failed_rewards (blockCount : Option ℕ) (rewardPercentiles : Option (List Json)) :
    (rewards (m := Tracked RelayError) blockCount rewardPercentiles).failed = false := by
  unfold rewards
  split
  · rw [failed_bind fun _ => rfl, failed_filled]
  · rfl

private theorem failed_getRepeatedFeeHistory (blockCount oldest : Option ℕ)
    (rewardPercentiles : Option (List Json)) (fee : String) :
    (getRepeatedFeeHistory (m := Tracked RelayError) blockCount oldest rewardPercentiles
      fee).failed = false := by
  unfold getRepeatedFeeHistory
  rw [failed_bind, failed_filled]
  intro fees
  rw [failed_bind fun _ => rfl, failed_rewards]

private theorem failed_fixedFeeHistory (blockCount : Option ℕ) (newest : ℕ)
    (rewardPercentiles : Option (List Json)) :
    (fixedFeeHistory config (trackedFees upstream.fees) blockCount newest
      rewardPercentiles).failed = !(upstream.fees.getNetworkFees none).isOk := by
  unfold fixedFeeHistory
  rw [failed_bind fun _ => failed_getRepeatedFeeHistory _ _ _ _, failed_gasPrice]

private theorem nextBaseFee_tracked (upstream : Upstream) (fees : List String) (newest latest : ℕ) :
    (∃ fee, (nextBaseFee (trackedMirror upstream.mirror) (trackedFees upstream.fees) fees newest
      latest).result = .ok fee) ∧
    (nextBaseFee (trackedMirror upstream.mirror) (trackedFees upstream.fees) fees newest
      latest).failed = (if newest < latest then [newest + 1] else []).any
        fun n => !feeRequestsSucceed upstream n := by
  unfold nextBaseFee
  by_cases hnext : newest < latest
  · obtain ⟨⟨fee, hfee⟩, hfailed⟩ := getFeeByBlockNumber_tracked upstream (newest + 1)
    rw [if_pos hnext, if_pos hnext, bind_of_ok hfee, hfailed]
    simp [pure_eq]
  · rw [if_neg hnext, if_neg hnext]
    exact ⟨⟨_, rfl⟩, rfl⟩

private theorem failed_getFeeHistory (blockCount : Option ℕ) (newest latest : ℕ)
    (rewardPercentiles : Option (List Json)) :
    (getFeeHistory (trackedMirror upstream.mirror) (trackedFees upstream.fees) blockCount newest
      latest rewardPercentiles).failed =
        !(requestedBlocks blockCount newest latest).all (feeRequestsSucceed upstream) := by
  obtain ⟨⟨fees, hfees⟩, hfailed⟩ := mapM_of_ok fun n (_ : n ∈ blockNumbers blockCount newest) =>
    (getFeeByBlockNumber_tracked upstream n).1
  obtain ⟨⟨next, hnext⟩, hnextFailed⟩ :=
    nextBaseFee_tracked upstream fees newest latest
  unfold getFeeHistory
  rw [bind_of_ok hfees, bind_of_ok hnext, failed_bind fun _ => rfl, failed_rewards, hfailed,
    hnextFailed, requestedBlocks, List.all_append, Bool.not_and, Bool.or_false,
    List.not_all_eq_any_not, List.not_all_eq_any_not]
  simp only [(getFeeByBlockNumber_tracked upstream _).2]

private theorem failed_historyUpTo (blockCount : Option ℕ) (newest latest : ℕ)
    (rewardPercentiles : Option (List Json)) :
    (historyUpTo config (trackedMirror upstream.mirror) (trackedFees upstream.fees) blockCount
      newest latest rewardPercentiles).failed =
        !historyRequestsSucceed config upstream blockCount newest latest := by
  unfold historyUpTo historyRequestsSucceed
  split
  · rfl
  · split
    · exact failed_fixedFeeHistory blockCount newest rewardPercentiles
    · exact failed_getFeeHistory blockCount newest latest rewardPercentiles

/-- No request has failed, and the result is no error. -/
def isQuiet (run : Tracked RelayError FeeHistoryResult) : Bool :=
  !run.failed && match run.result with
    | .ok (.error _) => false
    | _ => true

private theorem isQuiet_bind {α : Type} {x : Tracked RelayError α}
    {f : α → Tracked RelayError FeeHistoryResult} {c : α → Bool}
    (hf : ∀ a, isQuiet (f a) = c a) :
    isQuiet (x >>= f) = (!x.failed && x.result.toOption.all c) := by
  cases hx : x.result with
  | error e =>
    rw [bind_of_error hx]
    rfl
  | ok a =>
    rw [bind_of_ok hx, isQuiet, Bool.not_or, Bool.and_assoc]
    congr 1
    exact hf a

def feeHistoryAnswer : FeeHistoryResult → Answer
  | .history history => .feeHistory history
  | .error e => .error e

/-- The handler of `eth_feeHistory`. -/
def feeHistoryHandler (config : FeeConfig) (upstream : Upstream) (blockCount : Option ℕ)
    (newestBlock : BlockParam) (rewardPercentiles : Option (List Json)) :
    Tracked RelayError Answer := do
  return feeHistoryAnswer (← feeHistory config (trackedMirror upstream.mirror)
    (trackedFees upstream.fees) blockCount newestBlock rewardPercentiles)

private theorem isQuiet_feeHistoryUncaught (config : FeeConfig) (upstream : Upstream)
    (blockCount : Option ℕ) (newestBlock : BlockParam) (rewardPercentiles : Option (List Json)) :
    isQuiet (feeHistoryUncaught config (trackedMirror upstream.mirror) (trackedFees upstream.fees)
      blockCount newestBlock rewardPercentiles) =
        (tagRequestSucceeds upstream .head .latest &&
          (translateBlockTag upstream.mirror .head .latest).toOption.all fun latest =>
            newestRequestSucceeds upstream newestBlock &&
              (newestNumber upstream.mirror newestBlock latest).toOption.all fun newest =>
                newest ≤ latest && historyRequestsSucceed config upstream
                  (blockCount.map (min · config.feeHistoryMaxResults)) newest latest) := by
  unfold feeHistoryUncaught
  rw [isQuiet_bind]
  · rw [translateBlockTag_tracked, tagRequestSucceeds, Bool.not_and, Bool.not_not]
  · intro latest
    rw [isQuiet_bind]
    · rw [newestNumber_tracked, Bool.not_not]
    · intro newest
      by_cases hbeyond : newest > latest
      · rw [if_pos hbeyond, decide_eq_false (Nat.not_le_of_lt hbeyond), Bool.false_and]
        rfl
      · rw [if_neg hbeyond, decide_eq_true (Nat.le_of_not_lt hbeyond), Bool.true_and,
          isQuiet_bind (c := fun _ => true) fun _ => rfl, failed_historyUpTo, Bool.not_not]
        simp

private theorem isOrdinary_answer (result : FeeHistoryResult) (failed : Bool) :
    IsOrdinary ⟨.ok (feeHistoryAnswer result), failed⟩ ↔ isQuiet ⟨.ok result, failed⟩ = true := by
  cases result <;> simp [IsOrdinary, isQuiet, feeHistoryAnswer, Answer.isTruthy, Answer.isError]

theorem isOrdinary_feeHistoryHandler (config : FeeConfig) (upstream : Upstream)
    (blockCount : Option ℕ) (newestBlock : BlockParam) (rewardPercentiles : Option (List Json)) :
    IsOrdinary (feeHistoryHandler config upstream blockCount newestBlock rewardPercentiles) ↔
      feeHistoryIsOrdinary config upstream blockCount newestBlock rewardPercentiles = true := by
  unfold feeHistoryHandler feeHistory feeHistoryIsOrdinary
  rw [← isQuiet_feeHistoryUncaught]
  by_cases htoo : (rewardPercentiles.any
      (·.length > FEE_HISTORY_REWARD_PERCENTILES_MAX_SIZE)) = true
  · rw [if_pos htoo, htoo, Bool.true_or, bind_of_error rfl]
    apply iff_of_true ?_ rfl
    intro answer hanswer
    cases hanswer
  · rw [if_neg htoo, Bool.eq_false_of_not_eq_true htoo, Bool.false_or]
    generalize feeHistoryUncaught config (trackedMirror upstream.mirror) (trackedFees upstream.fees)
      blockCount newestBlock rewardPercentiles = run
    cases hrun : run.result with
    | error e =>
      have hquiet : isQuiet run = isQuiet ⟨.ok (.history feeHistoryEmptyResponse), run.failed⟩ := by
        rw [isQuiet, hrun]
        rfl
      rw [tryCatch_of_error hrun, bind_of_ok rfl, hquiet, pure_eq, pure_eq, Bool.or_false,
        Bool.or_false]
      exact isOrdinary_answer _ _
    | ok result =>
      have hquiet : isQuiet run = isQuiet ⟨.ok result, run.failed⟩ := by
        rw [isQuiet, hrun]
        rfl
      rw [tryCatch_of_ok hrun, bind_of_ok rfl, hquiet, pure_eq, Bool.or_false]
      exact isOrdinary_answer _ _

end Fees

end JsonRpcRelay.Cache

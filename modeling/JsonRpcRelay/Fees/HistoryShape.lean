import JsonRpcRelay.Common.FixedChain
import JsonRpcRelay.Fees.FeeService
import JsonRpcRelay.Framework.Traversal

/-!
# The shape of the fee history

How many fees, ratios and rewards there are, and which block is the oldest, while the chain stands
still and the fees of the network are there.
-/

namespace JsonRpcRelay.Fees

open constants Mirror Common Framework

section Shape

/-- A history of `k` blocks up to the block `n`, with rewards if there are percentiles. -/
structure HasShape (k n percentiles : ℕ) (history : IFeeHistory) : Prop where
  gasUsedRatio : history.gasUsedRatio = some k
  baseFeePerGas : ∃ fees, history.baseFeePerGas = some fees ∧ fees.length = k + 1
  reward : percentiles ≠ 0 → ∃ rows, history.reward = some rows ∧ rows.length = k ∧
    ∀ row ∈ rows, row.length = percentiles
  oldestBlock : ∃ oldest : ℕ, history.oldestBlock = numberTo0x oldest ∧ oldest + k = n + 1

/-- The number of the newest block that a parameter names. -/
def newestOf (chain : Chain) (newestBlock : BlockParam) : ℕ :=
  if blockTagIsLatestOrPending (some newestBlock) then chain.head else newestBlock.toNumber.getD 0

/-- The fees of the network are there at any time. -/
def FeesServed (client : FeeClient (Except RelayError)) : Prop :=
  ∀ timestamp, ∃ fees gas, client.getNetworkFees timestamp = .ok fees ∧
    ethereumTransactionGas fees = some gas

variable {α : Type}

/-- The history has as many blocks as are asked for, as are allowed and as there are. -/
def HistoryShape (config : FeeConfig) (chain : Chain) (client : FeeClient (Except RelayError))
    (blockCount : ℕ) (newestBlock : BlockParam) (rewardPercentiles : Option (List α)) : Prop :=
  ∃ history, feeHistory config (chainClient chain) client (some blockCount) newestBlock
      rewardPercentiles = .ok (.history history) ∧
    HasShape (min (min blockCount config.feeHistoryMaxResults) (newestOf chain newestBlock + 1))
      (newestOf chain newestBlock) (rewardPercentiles.getD []).length history

/-- The percentiles are not too many, some results are allowed, and the blocks do not begin before
the first one: with repeated fees they begin after it, else with the first one if there are
percentiles. -/
def KeepsShape (config : FeeConfig) (chain : Chain) (blockCount : ℕ) (newestBlock : BlockParam)
    (rewardPercentiles : Option (List α)) : Prop :=
  (rewardPercentiles.getD []).length ≤ FEE_HISTORY_REWARD_PERCENTILES_MAX_SIZE ∧
    0 < config.feeHistoryMaxResults ∧
    if config.ethFeeHistoryFixed then
      min blockCount config.feeHistoryMaxResults ≤ newestOf chain newestBlock
    else (rewardPercentiles.getD []).length = 0 ∨
      min blockCount config.feeHistoryMaxResults ≤ newestOf chain newestBlock + 1

end Shape

section Histories

variable {α : Type} {config : FeeConfig} {chain : Chain} {client : FeeClient (Except RelayError)}

def rewardRows (count percentiles : ℕ) : Option (List (List String)) :=
  if percentiles = 0 then none
  else some (List.replicate count (List.replicate percentiles ZERO_HEX))

private theorem rewards_eq (count : ℕ) (rewardPercentiles : Option (List α)) :
    (rewards (some count) rewardPercentiles : Except RelayError _) =
      .ok (rewardRows count (rewardPercentiles.getD []).length) := by
  rcases rewardPercentiles with _ | _ | ⟨percentile, percentiles⟩
  · rfl
  · rfl
  · rfl

/-- The shape is a matter of four numbers. -/
theorem hasShape_iff {k n percentiles ratios rows oldest : ℕ} {fees : List String} {fee : String}
    (hfees : fees.length = ratios) :
    HasShape k n percentiles
        { baseFeePerGas := some (fees ++ [fee]), gasUsedRatio := some ratios
          oldestBlock := numberTo0x oldest, reward := rewardRows rows percentiles } ↔
      ratios = k ∧ (percentiles = 0 ∨ rows = k) ∧ oldest + k = n + 1 := by
  constructor
  · intro h
    obtain ⟨number, hnumber, holdest⟩ := h.oldestBlock
    refine ⟨Option.some.inj h.gasUsedRatio, ?_, ?_⟩
    · by_cases hzero : percentiles = 0
      · exact .inl hzero
      · obtain ⟨found, hfound, hlength, _⟩ := h.reward hzero
        rw [rewardRows, if_neg hzero, Option.some.injEq] at hfound
        rw [← hfound, List.length_replicate] at hlength
        exact .inr hlength
    · rw [numberTo0x_inj hnumber]
      exact holdest
  · rintro ⟨hratios, hrows, holdest⟩
    refine ⟨congrArg some hratios, ⟨_, rfl, ?_⟩, ?_, ⟨oldest, rfl, holdest⟩⟩
    · simp [hfees, hratios]
    · intro hne
      refine ⟨_, if_neg hne, ?_, ?_⟩
      · simpa using hrows.resolve_left hne
      · intro row hrow
        simp [List.eq_of_mem_replicate hrow]

/-- The fee of a block, which is zero if it cannot be found. -/
def feeOf (chain : Chain) (client : FeeClient (Except RelayError)) (blockNumber : ℕ) : String :=
  numberTo0x (((blockFee (chainClient chain) client blockNumber).toOption.getD 0 : ℕ) : ℤ)

private theorem getFeeByBlockNumber_eq (n : ℕ) :
    getFeeByBlockNumber (chainClient chain) client n = .ok (feeOf chain client n) := by
  rw [getFeeByBlockNumber, feeOf]
  cases blockFee (chainClient chain) client n <;> rfl

private theorem length_blockNumbers (count n : ℕ) :
    (blockNumbers (some count) n).length = min count (n + 1) := by
  rw [blockNumbers, List.length_range']

private theorem getFeeHistory_eq {count n : ℕ} (hcount : 0 < count)
    (rewardPercentiles : Option (List α)) :
    ∃ fees fee, fees.length = min count (n + 1) ∧
      getFeeHistory (chainClient chain) client (some count) n chain.head rewardPercentiles =
        .ok { baseFeePerGas := some (fees ++ [fee]), gasUsedRatio := some (min count (n + 1))
              oldestBlock := numberTo0x (n + 1 - count : ℕ)
              reward := rewardRows count (rewardPercentiles.getD []).length } := by
  have hfees : ((blockNumbers (some count) n).mapM fun blockNumber =>
      getFeeByBlockNumber (chainClient chain) client blockNumber) =
        .ok ((blockNumbers (some count) n).map (feeOf chain client)) :=
    mapM_ok fun blockNumber _ => getFeeByBlockNumber_eq blockNumber
  have hlength : ((blockNumbers (some count) n).map (feeOf chain client)).length =
      min count (n + 1) := by rw [List.length_map, length_blockNumbers]
  have hnext : ∃ fee, nextBaseFee (chainClient chain) client
      ((blockNumbers (some count) n).map (feeOf chain client)) n chain.head = .ok (some fee) := by
    rw [nextBaseFee]
    by_cases hlatest : chain.head > n
    · rw [if_pos hlatest, getFeeByBlockNumber_eq]
      exact ⟨_, rfl⟩
    · have hne : (blockNumbers (some count) n).map (feeOf chain client) ≠ [] := by
        rw [← List.length_pos_iff, hlength]
        omega
      rw [if_neg hlatest, List.getLast?_eq_some_getLast hne]
      exact ⟨_, rfl⟩
  obtain ⟨fee, hnext⟩ := hnext
  refine ⟨_, fee, hlength, ?_⟩
  simp only [getFeeHistory, hfees, hnext, rewards_eq, hlength, bind, Except.bind]
  rfl

private theorem fixedFeeHistory_eq (hserved : FeesServed client) (count n : ℕ)
    (rewardPercentiles : Option (List α)) :
    ∃ fee, fixedFeeHistory config client (some count) n rewardPercentiles =
      .ok { baseFeePerGas := some (List.replicate (if n + 1 ≤ count then 1 else count) fee ++ [fee])
            gasUsedRatio := some (if n + 1 ≤ count then 1 else count)
            oldestBlock := numberTo0x (if n + 1 ≤ count then 1 else n + 1 - count : ℕ)
            reward := rewardRows (if n + 1 ≤ count then 1 else count)
              (rewardPercentiles.getD []).length } := by
  obtain ⟨fees, gas, hfees, hgas⟩ := hserved none
  have hprice : ∃ fee, gasPrice config client = .ok fee := by
    simp only [gasPrice, bufferedGasPrice, getGasPriceInWeibars, hfees, hgas, bind, Except.bind]
    exact ⟨_, rfl⟩
  obtain ⟨fee, hprice⟩ := hprice
  refine ⟨fee, ?_⟩
  simp only [fixedFeeHistory, hprice, getRepeatedFeeHistory, repeatedBlocks, bind, Except.bind]
  by_cases hlarge : n + 1 ≤ count
  · simp only [hlarge, if_true, rewards_eq]
    rfl
  · simp only [hlarge, if_false, rewards_eq, filled]
    show Except.ok _ = _
    simp only [List.length_replicate]
    rfl

private theorem translateBlockTag_latest (lookup : Lookup) :
    translateBlockTag (chainClient chain) lookup .latest = .ok chain.head := by
  have hlatest : blockTagIsLatestOrPending (some .latest) = true := rfl
  simp only [translateBlockTag, hlatest, if_true, getLatestBlockNumber_chain, bind, Except.bind,
    bigIntOfHex_numberTo0x]
  rfl

private theorem newestNumber_eq (newestBlock : BlockParam) :
    newestNumber (chainClient chain) newestBlock chain.head = .ok (newestOf chain newestBlock) := by
  cases newestBlock with
  | latest => rfl
  | pending => rfl
  | safe => exact translateBlockTag_latest .toBlock
  | finalized => exact translateBlockTag_latest .toBlock
  | earliest => rfl
  | hex text => rfl
  | hash text => rfl
  | number n => rfl

/-- A request that is let through is answered with the history. -/
theorem feeHistory_eq {blockCount : ℕ} {newestBlock : BlockParam}
    {rewardPercentiles : Option (List α)}
    (hsize : (rewardPercentiles.getD []).length ≤ FEE_HISTORY_REWARD_PERCENTILES_MAX_SIZE)
    (hnewest : newestOf chain newestBlock ≤ chain.head) {history : IFeeHistory}
    (h : historyUpTo config (chainClient chain) client
      (some (min blockCount config.feeHistoryMaxResults)) (newestOf chain newestBlock) chain.head
      rewardPercentiles = .ok history) :
    feeHistory config (chainClient chain) client (some blockCount) newestBlock rewardPercentiles =
      .ok (.history history) := by
  have hfew : rewardPercentiles.any
      (fun percentiles => percentiles.length > FEE_HISTORY_REWARD_PERCENTILES_MAX_SIZE) = false := by
    cases rewardPercentiles with
    | none => rfl
    | some percentiles => simpa using hsize
  have hrun : feeHistoryUncaught config (chainClient chain) client (some blockCount) newestBlock
      rewardPercentiles = .ok (.history history) := by
    simp only [feeHistoryUncaught, translateBlockTag_latest, newestNumber_eq, bind, Except.bind,
      gt_iff_lt, Nat.not_lt.mpr hnewest, if_false, Option.map_some, h]
    rfl
  rw [feeHistory, hfew, hrun]
  rfl

private theorem feeHistory_error {blockCount : ℕ} {newestBlock : BlockParam}
    {rewardPercentiles : Option (List α)}
    (hsize : FEE_HISTORY_REWARD_PERCENTILES_MAX_SIZE < (rewardPercentiles.getD []).length) :
    ∃ e, feeHistory config (chainClient chain) client (some blockCount) newestBlock
      rewardPercentiles = .error e := by
  have hmany : rewardPercentiles.any
      (fun percentiles => percentiles.length > FEE_HISTORY_REWARD_PERCENTILES_MAX_SIZE) = true := by
    cases rewardPercentiles with
    | none => cases hsize
    | some percentiles => simpa using hsize
  rw [feeHistory, hmany]
  exact ⟨_, rfl⟩

private theorem historyShape_iff_of_history {blockCount : ℕ} {newestBlock : BlockParam}
    {rewardPercentiles : Option (List α)} {history : IFeeHistory}
    (h : feeHistory config (chainClient chain) client (some blockCount) newestBlock
      rewardPercentiles = .ok (.history history)) :
    HistoryShape config chain client blockCount newestBlock rewardPercentiles ↔
      HasShape
        (min (min blockCount config.feeHistoryMaxResults) (newestOf chain newestBlock + 1))
        (newestOf chain newestBlock) (rewardPercentiles.getD []).length history := by
  constructor
  · rintro ⟨history', hanswer, hshape⟩
    rw [h, Except.ok.injEq, FeeHistoryResult.history.injEq] at hanswer
    rw [hanswer]
    exact hshape
  · exact fun hshape => ⟨history, h, hshape⟩

section Requests

variable {blockCount : ℕ} {newestBlock : BlockParam} {rewardPercentiles : Option (List α)}

private theorem historyUpTo_of_pos {count n head : ℕ} (hpos : 0 < count) :
    historyUpTo config (chainClient chain) client (some count) n head rewardPercentiles =
      if config.ethFeeHistoryFixed then fixedFeeHistory config client (some count) n rewardPercentiles
      else getFeeHistory (chainClient chain) client (some count) n head rewardPercentiles := by
  have hne : (some count : Option ℕ) ≠ some 0 := by
    simp only [ne_eq, Option.some.injEq]
    omega
  rw [historyUpTo, if_neg hne]

private theorem not_historyShape_of_many
    (hsize : FEE_HISTORY_REWARD_PERCENTILES_MAX_SIZE < (rewardPercentiles.getD []).length) :
    ¬HistoryShape config chain client blockCount newestBlock rewardPercentiles := by
  obtain ⟨e, herror⟩ := @feeHistory_error α config chain client blockCount newestBlock _ hsize
  rintro ⟨history, hanswer, _⟩
  rw [herror] at hanswer
  cases hanswer

private theorem not_historyShape_of_no_results
    (hsize : (rewardPercentiles.getD []).length ≤ FEE_HISTORY_REWARD_PERCENTILES_MAX_SIZE)
    (hnewest : newestOf chain newestBlock ≤ chain.head) (hmax : config.feeHistoryMaxResults = 0) :
    ¬HistoryShape config chain client blockCount newestBlock rewardPercentiles := by
  have hzero : historyUpTo config (chainClient chain) client
      (some (min blockCount config.feeHistoryMaxResults)) (newestOf chain newestBlock) chain.head
      rewardPercentiles = .ok zeroBlockCountResponse := by
    rw [hmax, Nat.min_zero, historyUpTo, if_pos rfl]
    rfl
  rw [historyShape_iff_of_history (feeHistory_eq hsize hnewest hzero)]
  intro h
  obtain ⟨fees, hfees, _⟩ := h.baseFeePerGas
  cases hfees

private theorem historyShape_of_fixed (hserved : FeesServed client) (hpos : 0 < blockCount)
    (hsize : (rewardPercentiles.getD []).length ≤ FEE_HISTORY_REWARD_PERCENTILES_MAX_SIZE)
    (hnewest : newestOf chain newestBlock ≤ chain.head) (hmax : 0 < config.feeHistoryMaxResults)
    (hfixed : config.ethFeeHistoryFixed = true) :
    HistoryShape config chain client blockCount newestBlock rewardPercentiles ↔
      min blockCount config.feeHistoryMaxResults ≤ newestOf chain newestBlock := by
  have hcount : 0 < min blockCount config.feeHistoryMaxResults := by omega
  obtain ⟨fee, hfee⟩ := @fixedFeeHistory_eq α config client hserved
    (min blockCount config.feeHistoryMaxResults) (newestOf chain newestBlock) rewardPercentiles
  have hhistory := @historyUpTo_of_pos α config chain client rewardPercentiles _
    (newestOf chain newestBlock) chain.head hcount
  rw [hfixed, if_pos rfl, hfee] at hhistory
  rw [historyShape_iff_of_history (feeHistory_eq hsize hnewest hhistory),
    hasShape_iff (by rw [List.length_replicate])]
  split <;> omega

private theorem historyShape_of_not_fixed (hpos : 0 < blockCount)
    (hsize : (rewardPercentiles.getD []).length ≤ FEE_HISTORY_REWARD_PERCENTILES_MAX_SIZE)
    (hnewest : newestOf chain newestBlock ≤ chain.head) (hmax : 0 < config.feeHistoryMaxResults)
    (hfixed : config.ethFeeHistoryFixed = false) :
    HistoryShape config chain client blockCount newestBlock rewardPercentiles ↔
      (rewardPercentiles.getD []).length = 0 ∨
        min blockCount config.feeHistoryMaxResults ≤ newestOf chain newestBlock + 1 := by
  have hcount : 0 < min blockCount config.feeHistoryMaxResults := by omega
  obtain ⟨fees, fee, hlength, hfees⟩ := @getFeeHistory_eq α chain client
    (min blockCount config.feeHistoryMaxResults) (newestOf chain newestBlock) hcount
    rewardPercentiles
  have hhistory := @historyUpTo_of_pos α config chain client rewardPercentiles _
    (newestOf chain newestBlock) chain.head hcount
  rw [hfixed, if_neg Bool.false_ne_true, hfees] at hhistory
  rw [historyShape_iff_of_history (feeHistory_eq hsize hnewest hhistory), hasShape_iff hlength]
  omega

end Requests

/-- The fee history has the shape of its blocks exactly if the percentiles are not too many, some
results are allowed, and the blocks do not begin too early. -/
theorem history_shape_iff (config : FeeConfig) (chain : Chain)
    (client : FeeClient (Except RelayError)) (blockCount : ℕ) (newestBlock : BlockParam)
    (rewardPercentiles : Option (List α)) (hserved : FeesServed client) (hcount : 1 ≤ blockCount)
    (hnewest : newestOf chain newestBlock ≤ chain.head) :
    HistoryShape config chain client blockCount newestBlock rewardPercentiles ↔
      KeepsShape config chain blockCount newestBlock rewardPercentiles := by
  unfold KeepsShape
  by_cases hsize : (rewardPercentiles.getD []).length ≤ FEE_HISTORY_REWARD_PERCENTILES_MAX_SIZE
  · by_cases hmax : 0 < config.feeHistoryMaxResults
    · cases hfixed : config.ethFeeHistoryFixed with
      | true =>
        rw [historyShape_of_fixed hserved hcount hsize hnewest hmax hfixed]
        simp [hsize, hmax]
      | false =>
        rw [historyShape_of_not_fixed hcount hsize hnewest hmax hfixed]
        simp [hsize, hmax]
    · have hnot := @not_historyShape_of_no_results α config chain client blockCount newestBlock
        rewardPercentiles hsize hnewest (by omega)
      simp [hnot, hmax]
  · have hnot := @not_historyShape_of_many α config chain client blockCount newestBlock
      rewardPercentiles (by omega)
    simp [hnot, hsize]

end Histories

section Early

def twoBlocks : Chain :=
  (Chain.genesis.append (Chain.genesis.nextBlock "0x" 0 none)).get (by decide)

/-- One fee at all times. -/
def steadyFees : FeeClient (Except RelayError) where
  getNetworkFees _ := .ok (some (some [⟨"EthereumTransaction", some 853000⟩]))

private theorem feesServed_steadyFees : FeesServed steadyFees := fun _ => ⟨_, 853000, rfl, rfl⟩

theorem history_shape_iff_two :
    HistoryShape {} twoBlocks steadyFees 1 .latest (some [25, 75]) ↔
      KeepsShape {} twoBlocks 1 .latest (some [25, 75]) :=
  history_shape_iff {} twoBlocks steadyFees 1 .latest (some [25, 75]) feesServed_steadyFees
    (by decide) (by decide)

/-- Of three blocks there are two.  There are three rewards; and with repeated fees there is one
fee for the two blocks. -/
theorem early_history_misshapen :
    ¬HistoryShape { ethFeeHistoryFixed := false } twoBlocks steadyFees 3 .latest (some [25, 75]) ∧
      ¬HistoryShape {} twoBlocks steadyFees 3 .latest (some [25, 75]) := by
  constructor
  · rw [historyShape_of_not_fixed (by decide) (by decide) (by decide) (by decide) rfl]
    decide
  · rw [historyShape_of_fixed feesServed_steadyFees (by decide) (by decide) (by decide) (by decide)
      rfl]
    decide

end Early

end JsonRpcRelay.Fees

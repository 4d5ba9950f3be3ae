import JsonRpcRelay.Blocks.TransactionService

/-!
# One receipt, two endpoints

The receipts of a block and the receipt of a transaction come from different requests.  They
are equal if the mirror node answers these alike.
-/

namespace JsonRpcRelay.Blocks

open constants Js Mirror Framework

/-- Beside what `Serves` says, the records name their block, and the logs inside a contract
result are those that the log endpoint lists under its hash, in the same order. -/
structure ServesReceipts (client : LookupClient) (block : MirrorNodeBlock) : Prop
    extends Serves client block where
  resultBlock : ∀ cr ∈ client.contractResultsOf block, cr.blockHash = block.hash
  logBlock : ∀ record ∈ client.logsOf block, record.blockHash = block.hash
  resultLogs : ∀ cr ∈ client.contractResultsOf block, ∀ details,
    client.getContractResult cr.hash = some details →
      (client.logsOf block).filter (fun r => toHash32 r.transactionHash = cr.hash) =
        details.logs.map details.logRecord

section Agreement

variable {config : BlockConfig} {services : BlockServices} {client : LookupClient}
  {block : MirrorNodeBlock} {gasPrice : ℕ}

private theorem logsOf_map_ofRecord (records : List MirrorNodeLog) (hash : String) :
    logsOf (records.map Log.ofRecord) hash =
      (records.filter fun r => toHash32 r.transactionHash = hash).map Log.ofRecord := by
  rw [logsOf, List.filter_map]
  rfl

private theorem getCurrentGasPriceForBlock_of_found {blockHash : String}
    (hblock : client.getBlock blockHash = some block)
    (hgas : services.getGasPriceInWeibars block.timestampFrom.seconds = .ok gasPrice) :
    getCurrentGasPriceForBlock services client blockHash = .ok (numberTo0x gasPrice) := by
  simp only [getCurrentGasPriceForBlock, hblock, hgas]
  rfl

private theorem getTransactionReceipt_regular (hserves : ServesReceipts client block)
    (hgas : services.getGasPriceInWeibars block.timestampFrom.seconds = .ok gasPrice)
    {cr : MirrorNodeContractResult} (hcr : cr ∈ client.contractResultsOf block)
    (hlength : cr.hash.length = 66) :
    getTransactionReceipt services client cr.hash =
      .ok (some (regularReceipt services (numberTo0x gasPrice)
        (groupBy (·.transactionHash) ((client.logsOf block).map Log.ofRecord)) cr)) := by
  obtain ⟨details, hdetails, rfl⟩ := hserves.single cr hcr
  rw [toHash32_eq_self_iff.mpr hlength.le] at hdetails
  have hblock : client.getBlock details.blockHash = some block := by
    rw [hserves.resultBlock _ hcr]
    exact hserves.blockByHash
  have hlogs : ((groupBy (·.transactionHash) ((client.logsOf block).map Log.ofRecord)).get?
      details.hash).getD [] = details.logs.map details.logOf := by
    rw [get?_groupBy_getD]
    change logsOf _ details.hash = _
    rw [logsOf_map_ofRecord, hserves.resultLogs _ hcr details hdetails, List.map_map]
    rfl
  rw [getTransactionReceipt, hdetails]
  simp only [handleRegularTransactionReceipt, getCurrentGasPriceForBlock_of_found hblock hgas,
    regularReceipt, hlogs]
  rfl

private theorem getTransactionReceipt_synthetic (hserves : ServesReceipts client block)
    (hgas : services.getGasPriceInWeibars block.timestampFrom.seconds = .ok gasPrice)
    (hlength : ∀ cr ∈ client.contractResultsOf block, cr.hash.length = 66) {hash : String}
    (h : hash ∈ hashesOnlyInLogs (client.contractResultsOf block)
      ((client.logsOf block).map Log.ofRecord)) :
    getTransactionReceipt services client hash =
      .ok (some (receiptFromLogs services (numberTo0x gasPrice)
        ((client.logsOf block).map Log.ofRecord) hash)) := by
  obtain ⟨log, rest, hlogs, _⟩ := exists_logsOf_eq_cons h
  have hlog : log ∈ (client.logsOf block).map Log.ofRecord :=
    (mem_logsOf.mp (hlogs ▸ List.mem_cons_self)).1
  obtain ⟨hlisted, hnotResult⟩ := mem_hashesOnlyInLogs.mp h
  rw [List.map_map] at hlisted
  obtain ⟨record, hrecord, rfl⟩ := List.mem_map.mp hlisted
  have honly : ∀ cr ∈ client.contractResultsOf block,
      toHash32 cr.hash ≠ toHash32 record.transactionHash := by
    intro cr hcr heq
    rw [toHash32_eq_self_iff.mpr (hlength cr hcr).le] at heq
    exact hnotResult (List.mem_map.mpr ⟨cr, hcr, heq⟩)
  have hblock : client.getBlock log.blockHash = some block := by
    obtain ⟨record', hrecord', rfl⟩ := List.mem_map.mp hlog
    change client.getBlock (toHash32 record'.blockHash) = _
    rw [hserves.logBlock record' hrecord']
    exact hserves.blockByHash32
  have hfound : getLogsWithParams client
      (.transactionHash (toHash32 record.transactionHash)) = log :: rest := by
    rw [getLogsWithParams, hserves.logsByHash record hrecord, ← logsOf_map_ofRecord]
    exact hlogs
  change getTransactionReceipt services client (toHash32 record.transactionHash) = _
  rw [getTransactionReceipt, hserves.onlyInLogs record hrecord honly]
  simp only [handleSyntheticTransactionReceipt, hfound,
    getCurrentGasPriceForBlock_of_found hblock hgas, receiptFromLogs, hlogs]
  rfl

/-- Each receipt of a block is the receipt of its transaction. -/
theorem block_receipts_eq_transaction_receipts (config : BlockConfig) (services : BlockServices)
    (client : LookupClient) (block : MirrorNodeBlock) (hserves : ServesReceipts client block)
    (hlength : ∀ cr ∈ client.contractResultsOf block, cr.hash.length = 66)
    (receipts : List TransactionReceipt)
    (h : getBlockReceipts config services (some block) (client.contractResultsOf block)
      (client.logsOf block) = .ok (some receipts)) :
    ∀ receipt ∈ receipts,
      getTransactionReceipt services client receipt.transactionHash = .ok (some receipt) := by
  intro receipt hreceipt
  cases hgas : services.getGasPriceInWeibars block.timestampFrom.seconds with
  | error e =>
    -- without a gas price there are receipts for an empty block only
    rw [getBlockReceipts_of_gasPrice_error hgas] at h
    split at h
    · obtain rfl := Option.some.inj (Except.ok.inj h)
      cases hreceipt
    · cases h
  | ok gasPrice =>
    rw [getBlockReceipts_of_gasPrice hgas] at h
    obtain rfl := Option.some.inj (Except.ok.inj h)
    rcases List.mem_append.mp hreceipt with hregular | hsynthetic
    · obtain ⟨cr, hcr, rfl⟩ := List.mem_map.mp hregular
      have hmem := (mem_regularResults.mp hcr).1
      rw [transactionHash_regularReceipt, toHash32_eq_self_iff.mpr (hlength cr hmem).le]
      exact getTransactionReceipt_regular hserves hgas hmem (hlength cr hmem)
    · obtain ⟨hash, hhash, rfl⟩ := List.mem_map.mp hsynthetic
      rw [transactionHash_receiptFromLogs hhash]
      exact getTransactionReceipt_synthetic hserves hgas hlength hhash

end Agreement

section Examples

private theorem servesReceipts_exampleClient : ServesReceipts exampleClient exampleBlock where
  toServes := serves_exampleClient
  resultBlock := by decide +kernel
  logBlock := by decide +kernel
  resultLogs := by
    intro cr hcr details hdetails
    obtain rfl : cr = exampleResult := List.mem_singleton.mp hcr
    obtain rfl : exampleDetails = details := Option.some.inj hdetails
    decide +kernel

/-- A block with a transfer and a contract call. -/
theorem block_receipts_eq_transaction_receipts_of_call :
    ∃ receipts, getBlockReceipts exampleConfig exampleServices (some exampleBlock)
        (exampleClient.contractResultsOf exampleBlock) (exampleClient.logsOf exampleBlock) =
          .ok (some receipts) ∧
      receipts.map (·.transactionHash) = [exampleResult.hash, "0xc1"] ∧
      ∀ receipt ∈ receipts, getTransactionReceipt exampleServices exampleClient
        receipt.transactionHash = .ok (some receipt) := by
  have hlength : ∀ cr ∈ exampleClient.contractResultsOf exampleBlock, cr.hash.length = 66 := by
    decide
  exact ⟨_, rfl, by decide +kernel, block_receipts_eq_transaction_receipts exampleConfig
    exampleServices exampleClient exampleBlock servesReceipts_exampleClient hlength _ rfl⟩

end Examples

end JsonRpcRelay.Blocks

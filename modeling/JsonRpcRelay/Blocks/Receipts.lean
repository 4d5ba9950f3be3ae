import JsonRpcRelay.Blocks.TransactionViews

/-!
# The receipts of a block

`getBlockReceipts` collects the logs under the hashes of their transactions.  A contract result
takes the logs of its hash, and the hashes that no contract result has make synthetic receipts.
-/

namespace JsonRpcRelay.Blocks

open constants Js Mirror Framework

variable (config : BlockConfig) (services : BlockServices)

section Content

/-- The logs of a transaction, in the order in which the block lists them. -/
def logsOf (logs : List Log) (transactionHash : String) : List Log :=
  logs.filter fun log => log.transactionHash = transactionHash

/-- The receipt of a transaction known only from its logs. -/
def receiptFromLogs (effectiveGas : String) (logs : List Log) (transactionHash : String) :
    TransactionReceipt :=
  syntheticReceipt services.buildLogsBloom ((logsOf logs transactionHash).headD default)
    effectiveGas

/-- The receipts of a block whose gas price is known. -/
def blockReceipts (effectiveGas : String) (contractResults : List MirrorNodeContractResult)
    (logs : List Log) : List TransactionReceipt :=
  (regularResults config contractResults).map
      (regularReceipt services effectiveGas (groupBy (·.transactionHash) logs)) ++
    (hashesOnlyInLogs contractResults logs).map (receiptFromLogs services effectiveGas logs)

variable {config services} {contractResults : List MirrorNodeContractResult} {logs : List Log}

theorem mem_logsOf {log : Log} {hash : String} :
    log ∈ logsOf logs hash ↔ log ∈ logs ∧ log.transactionHash = hash := by
  simp [logsOf, List.mem_filter]

theorem mem_hashesOnlyInLogs {hash : String} :
    hash ∈ hashesOnlyInLogs contractResults logs ↔
      hash ∈ logs.map (·.transactionHash) ∧ hash ∉ contractResults.map (·.hash) := by
  rw [hashesOnlyInLogs, List.mem_eraseDups, List.mem_filter]
  simp

private theorem nodup_hashesOnlyInLogs : (hashesOnlyInLogs contractResults logs).Nodup :=
  nodup_eraseDups _

theorem exists_logsOf_eq_cons {hash : String}
    (h : hash ∈ hashesOnlyInLogs contractResults logs) :
    ∃ log rest, logsOf logs hash = log :: rest ∧ log.transactionHash = hash := by
  obtain ⟨log, hlog, hhash⟩ := List.mem_map.mp (mem_hashesOnlyInLogs.mp h).1
  have hmem : log ∈ logsOf logs hash := mem_logsOf.mpr ⟨hlog, hhash⟩
  cases hlogs : logsOf logs hash with
  | nil =>
    rw [hlogs] at hmem
    cases hmem
  | cons first rest =>
    have hfirst : first ∈ logsOf logs hash := hlogs ▸ List.mem_cons_self
    exact ⟨first, rest, rfl, (mem_logsOf.mp hfirst).2⟩

@[simp] theorem logs_regularReceipt (effectiveGas : String) (cr : MirrorNodeContractResult) :
    (regularReceipt services effectiveGas (groupBy (·.transactionHash) logs) cr).logs =
      logsOf logs cr.hash :=
  get?_groupBy_getD _ _ _

@[simp] theorem transactionHash_regularReceipt (effectiveGas : String)
    (logsByHash : InsertionMap String (List Log)) (cr : MirrorNodeContractResult) :
    (regularReceipt services effectiveGas logsByHash cr).transactionHash = toHash32 cr.hash := rfl

theorem transactionHash_receiptFromLogs {effectiveGas hash : String}
    (h : hash ∈ hashesOnlyInLogs contractResults logs) :
    (receiptFromLogs services effectiveGas logs hash).transactionHash = hash := by
  obtain ⟨log, rest, hlogs, hhash⟩ := exists_logsOf_eq_cons h
  rw [receiptFromLogs, hlogs]
  exact hhash

private theorem syntheticGroups_eq :
    (groupBy (·.transactionHash) logs).entries.filter
        (fun entry => entry.1 ∉ contractResults.map (·.hash)) =
      (hashesOnlyInLogs contractResults logs).map fun hash => (hash, logsOf logs hash) := by
  rw [entries_groupBy, List.filter_map, hashesOnlyInLogs, ← filter_eraseDups]
  rfl

private theorem createSyntheticReceipt_group (effectiveGas : String) {hash : String}
    (h : hash ∈ hashesOnlyInLogs contractResults logs) :
    createSyntheticReceipt services.buildLogsBloom (logsOf logs hash) effectiveGas =
      .ok (receiptFromLogs services effectiveGas logs hash) := by
  obtain ⟨log, rest, hlogs, _⟩ := exists_logsOf_eq_cons h
  rw [receiptFromLogs, hlogs]
  rfl

theorem getBlockReceipts_of_gasPrice {block : MirrorNodeBlock} {gasPrice : ℕ}
    (hgas : services.getGasPriceInWeibars block.timestampFrom.seconds = .ok gasPrice)
    (contractResults : List MirrorNodeContractResult) (records : List MirrorNodeLog) :
    getBlockReceipts config services (some block) contractResults records =
      .ok (some (blockReceipts config services (numberTo0x gasPrice) contractResults
        (records.map Log.ofRecord))) := by
  by_cases hempty : contractResults = [] ∧ records.map Log.ofRecord = []
  · simp only [getBlockReceipts, hempty]
    rfl
  · have hsynthetic : ((groupBy (·.transactionHash) (records.map Log.ofRecord)).entries.filter
        (fun entry => entry.1 ∉ contractResults.map (·.hash))).mapM (fun entry =>
          createSyntheticReceipt services.buildLogsBloom entry.2 (numberTo0x gasPrice)) =
        .ok ((hashesOnlyInLogs contractResults (records.map Log.ofRecord)).map
          (receiptFromLogs services (numberTo0x gasPrice) (records.map Log.ofRecord))) := by
      rw [syntheticGroups_eq, List.mapM_map]
      exact mapM_ok fun hash hhash => createSyntheticReceipt_group _ hhash
    simp only [getBlockReceipts, if_neg hempty, hgas]
    simp only [bind, Except.bind] at hsynthetic ⊢
    rw [hsynthetic]
    rfl

theorem getBlockReceipts_of_gasPrice_error {block : MirrorNodeBlock} {e : RelayError}
    (hgas : services.getGasPriceInWeibars block.timestampFrom.seconds = .error e)
    (contractResults : List MirrorNodeContractResult) (records : List MirrorNodeLog) :
    getBlockReceipts config services (some block) contractResults records =
      if contractResults = [] ∧ records.map Log.ofRecord = [] then .ok (some []) else .error e := by
  simp only [getBlockReceipts, hgas]
  split
  · rfl
  · rfl

private theorem getBlockReceipts_cases (config : BlockConfig) (services : BlockServices)
    (block : MirrorNodeBlock) (contractResults : List MirrorNodeContractResult)
    (records : List MirrorNodeLog) :
    (∃ e, services.getGasPriceInWeibars block.timestampFrom.seconds = .error e ∧
      getBlockReceipts config services (some block) contractResults records = .error e) ∨
    ∃ effectiveGas, getBlockReceipts config services (some block) contractResults records =
      .ok (some (blockReceipts config services effectiveGas contractResults
        (records.map Log.ofRecord))) := by
  cases hgas : services.getGasPriceInWeibars block.timestampFrom.seconds with
  | ok gasPrice => exact Or.inr ⟨_, getBlockReceipts_of_gasPrice hgas contractResults records⟩
  | error e =>
    rw [getBlockReceipts_of_gasPrice_error hgas]
    by_cases hempty : contractResults = [] ∧ records.map Log.ofRecord = []
    · right
      refine ⟨"", ?_⟩
      simp only [hempty]
      rfl
    · left
      exact ⟨e, rfl, if_neg hempty⟩

end Content

section Coverage

variable {config services} {contractResults : List MirrorNodeContractResult} {logs : List Log}

private theorem map_transactionHash_blockReceipts (effectiveGas : String)
    (h : ∀ cr ∈ regularResults config contractResults, cr.hash.length ≤ 66) :
    (blockReceipts config services effectiveGas contractResults logs).map (·.transactionHash) =
      (regularResults config contractResults).map (·.hash) ++
        hashesOnlyInLogs contractResults logs := by
  rw [blockReceipts, List.map_append, List.map_map, List.map_map]
  congr 1
  · apply List.map_congr_left
    exact fun cr hcr => toHash32_eq_self_iff.mpr (h cr hcr)
  · have hown : (hashesOnlyInLogs contractResults logs).map
        ((fun r => r.transactionHash) ∘ receiptFromLogs services effectiveGas logs) =
          (hashesOnlyInLogs contractResults logs).map id :=
      List.map_congr_left fun hash hhash => transactionHash_receiptFromLogs hhash
    rw [hown, List.map_id]

private theorem populateSyntheticHashes_of_regular
    (hdistinct : (contractResults.map (·.hash)).Nodup)
    (hskipped : ∀ cr ∈ contractResults, isRevertedDueToHederaSpecificValidation config cr →
      ∀ log ∈ logs, log.transactionHash ≠ cr.hash) :
    populateSyntheticHashes logs (prepareTransactionHashes config contractResults) =
      (regularResults config contractResults).map (·.hash) ++
        hashesOnlyInLogs contractResults logs := by
  rw [prepareTransactionHashes, populateSyntheticHashes_eq (nodup_regular hdistinct),
    unlistedLogs_regular hskipped, hashesOnlyInLogs_eq]

/-- The receipts of a block are those of the transactions it lists, each once. -/
theorem receipts_cover_block (config : BlockConfig) (services services' : BlockServices)
    (blockResponse : MirrorNodeBlock) (contractResults : List MirrorNodeContractResult)
    (records : List MirrorNodeLog) (block : Block)
    (hdistinct : (contractResults.map (·.hash)).Nodup)
    (hlength : ∀ cr ∈ contractResults, cr.hash.length = 66)
    (hskipped : ∀ cr ∈ contractResults, isRevertedDueToHederaSpecificValidation config cr →
      ∀ record ∈ records, toHash32 record.transactionHash ≠ cr.hash)
    (hblock : getBlock config services false (some blockResponse) contractResults records =
      .ok (some block)) :
    ∃ hashes, block.transactions = .hashes hashes ∧ hashes.Nodup ∧
      ((∃ e, services'.getGasPriceInWeibars blockResponse.timestampFrom.seconds = .error e ∧
          getBlockReceipts config services' (some blockResponse) contractResults records =
            .error e) ∨
        ∃ receipts, getBlockReceipts config services' (some blockResponse) contractResults
            records = .ok (some receipts) ∧
          receipts.map (·.transactionHash) = hashes) := by
  have hlogs : ∀ cr ∈ contractResults, isRevertedDueToHederaSpecificValidation config cr →
      ∀ log ∈ records.map Log.ofRecord, log.transactionHash ≠ cr.hash := by
    intro cr hcr hreverted log hlog
    obtain ⟨record, hrecord, rfl⟩ := List.mem_map.mp hlog
    exact hskipped cr hcr hreverted record hrecord
  have hregular : ∀ cr ∈ regularResults config contractResults, cr.hash.length ≤ 66 :=
    fun cr hcr => (hlength cr (mem_regularResults.mp hcr).1).le
  have htransactions := (transactionArray_of_getBlock hblock).1
  refine ⟨populateSyntheticHashes (records.map Log.ofRecord)
    (prepareTransactionHashes config contractResults), (Except.ok.inj htransactions).symm,
    nodup_populateSyntheticHashes _ _, ?_⟩
  rcases getBlockReceipts_cases config services' blockResponse contractResults records with
    hfailed | ⟨effectiveGas, hreceipts⟩
  · exact Or.inl hfailed
  · refine Or.inr ⟨_, hreceipts, ?_⟩
    rw [map_transactionHash_blockReceipts effectiveGas hregular,
      populateSyntheticHashes_of_regular hdistinct hlogs]

end Coverage

section Logs

variable {config services} {contractResults : List MirrorNodeContractResult} {logs : List Log}

/-- A log is in one receipt, that of its transaction, which lists the logs of the transaction
in their order. -/
def InItsReceipt (receipts : List TransactionReceipt) (logs : List Log) (log : Log) : Prop :=
  ∃ receipt, (receipts.filter fun r => log ∈ r.logs) = [receipt] ∧
    receipt.transactionHash = log.transactionHash ∧
    receipt.logs = logsOf logs log.transactionHash

/-- The transaction of a log has one contract result, or none and only this log. -/
def SingleSource (contractResults : List MirrorNodeContractResult) (logs : List Log)
    (transactionHash : String) : Prop :=
  (contractResults.filter fun cr => cr.hash = transactionHash).length = 1 ∨
    transactionHash ∉ contractResults.map (·.hash) ∧ (logsOf logs transactionHash).length = 1

private theorem filter_regularReceipts {log : Log} (hlog : log ∈ logs)
    (hskipped : ∀ cr ∈ contractResults, isRevertedDueToHederaSpecificValidation config cr →
      cr.hash ≠ log.transactionHash) (effectiveGas : String) :
    ((regularResults config contractResults).map
        (regularReceipt services effectiveGas (groupBy (·.transactionHash) logs))).filter
          (fun r => log ∈ r.logs) =
      (contractResults.filter fun cr => cr.hash = log.transactionHash).map
        (regularReceipt services effectiveGas (groupBy (·.transactionHash) logs)) := by
  rw [List.filter_map, regularResults, List.filter_filter]
  congr 1
  apply List.filter_congr
  intro cr hcr
  have hmem : log ∈ logsOf logs cr.hash ↔ cr.hash = log.transactionHash := by
    rw [mem_logsOf]
    exact ⟨fun h => h.2.symm, fun h => ⟨hlog, h.symm⟩⟩
  simp only [Function.comp_apply, logs_regularReceipt, hmem]
  by_cases hhash : cr.hash = log.transactionHash
  · have hregular : ¬isRevertedDueToHederaSpecificValidation config cr :=
      fun hreverted => hskipped cr hcr hreverted hhash
    simp [hhash, hregular]
  · simp [hhash]

private theorem filter_syntheticReceipts (effectiveGas : String) (log : Log) :
    ((hashesOnlyInLogs contractResults logs).map
        (receiptFromLogs services effectiveGas logs)).filter (fun r => log ∈ r.logs) =
      if log.transactionHash ∈ hashesOnlyInLogs contractResults logs ∧
          (logsOf logs log.transactionHash).head? = some log then
        [receiptFromLogs services effectiveGas logs log.transactionHash]
      else [] := by
  have hmem : ∀ hash ∈ hashesOnlyInLogs contractResults logs,
      (log ∈ (receiptFromLogs services effectiveGas logs hash).logs ↔
        (logsOf logs hash).head? = some log) := by
    intro hash hhash
    obtain ⟨first, rest, hlogs, _⟩ := exists_logsOf_eq_cons hhash
    rw [receiptFromLogs, hlogs]
    simp [syntheticReceipt, eq_comm]
  have hown : ∀ hash, (logsOf logs hash).head? = some log → hash = log.transactionHash := by
    intro hash hhead
    exact (mem_logsOf.mp (List.mem_of_mem_head? hhead)).2.symm
  have hfilter : (hashesOnlyInLogs contractResults logs).filter
      (fun hash => log ∈ (receiptFromLogs services effectiveGas logs hash).logs) =
      (hashesOnlyInLogs contractResults logs).filter fun hash =>
        hash = log.transactionHash ∧ (logsOf logs log.transactionHash).head? = some log := by
    apply List.filter_congr
    intro hash hhash
    apply decide_eq_decide.mpr
    rw [hmem hash hhash]
    constructor
    · intro hhead
      obtain rfl := hown hash hhead
      exact ⟨rfl, hhead⟩
    · rintro ⟨rfl, hhead⟩
      exact hhead
  rw [List.filter_map]
  change ((hashesOnlyInLogs contractResults logs).filter _).map _ = _
  rw [show ((hashesOnlyInLogs contractResults logs).filter
    ((fun r : TransactionReceipt => decide (log ∈ r.logs)) ∘
      receiptFromLogs services effectiveGas logs)) = _ from hfilter]
  by_cases hhead : (logsOf logs log.transactionHash).head? = some log
  · simp only [hhead, and_true]
    rw [List.filter_eq]
    by_cases hlisted : log.transactionHash ∈ hashesOnlyInLogs contractResults logs
    · rw [List.count_eq_one_of_mem nodup_hashesOnlyInLogs hlisted, if_pos hlisted]
      rfl
    · rw [List.count_eq_zero_of_not_mem hlisted, if_neg hlisted]
      rfl
  · simp [hhead]

private theorem filter_blockReceipts_of_mem {log : Log} (hlog : log ∈ logs)
    (hskipped : ∀ cr ∈ contractResults, isRevertedDueToHederaSpecificValidation config cr →
      cr.hash ≠ log.transactionHash)
    (hmem : log.transactionHash ∈ contractResults.map (·.hash)) (effectiveGas : String) :
    (blockReceipts config services effectiveGas contractResults logs).filter
        (fun r => log ∈ r.logs) =
      (contractResults.filter fun cr => cr.hash = log.transactionHash).map
        (regularReceipt services effectiveGas (groupBy (·.transactionHash) logs)) := by
  have honly : log.transactionHash ∉ hashesOnlyInLogs contractResults logs :=
    fun h => (mem_hashesOnlyInLogs.mp h).2 hmem
  rw [blockReceipts, List.filter_append, filter_regularReceipts hlog hskipped,
    filter_syntheticReceipts, if_neg (not_and_of_not_left _ honly), List.append_nil]

private theorem filter_blockReceipts_of_notMem {log : Log} (hlog : log ∈ logs)
    (hmem : log.transactionHash ∉ contractResults.map (·.hash)) (effectiveGas : String) :
    (blockReceipts config services effectiveGas contractResults logs).filter
        (fun r => log ∈ r.logs) =
      if (logsOf logs log.transactionHash).head? = some log then
        [receiptFromLogs services effectiveGas logs log.transactionHash]
      else [] := by
  have hskipped : ∀ cr ∈ contractResults, isRevertedDueToHederaSpecificValidation config cr →
      cr.hash ≠ log.transactionHash :=
    fun cr hcr _ heq => hmem (heq ▸ List.mem_map_of_mem hcr)
  have hnone : contractResults.filter (fun cr => cr.hash = log.transactionHash) = [] := by
    apply List.filter_eq_nil_iff.mpr
    intro cr hcr heq
    exact hmem (List.mem_map.mpr ⟨cr, hcr, by simpa using heq⟩)
  have honly : log.transactionHash ∈ hashesOnlyInLogs contractResults logs :=
    mem_hashesOnlyInLogs.mpr ⟨List.mem_map_of_mem hlog, hmem⟩
  rw [blockReceipts, List.filter_append, filter_regularReceipts hlog hskipped, hnone,
    filter_syntheticReceipts]
  simp only [honly, true_and, List.map_nil, List.nil_append]

private theorem inItsReceipt_iff_of_mem {log : Log} (hlog : log ∈ logs)
    (hshort : log.transactionHash.length ≤ 66)
    (hskipped : ∀ cr ∈ contractResults, isRevertedDueToHederaSpecificValidation config cr →
      cr.hash ≠ log.transactionHash)
    (hmem : log.transactionHash ∈ contractResults.map (·.hash)) (effectiveGas : String) :
    InItsReceipt (blockReceipts config services effectiveGas contractResults logs) logs log ↔
      (contractResults.filter fun cr => cr.hash = log.transactionHash).length = 1 := by
  rw [InItsReceipt, filter_blockReceipts_of_mem hlog hskipped hmem]
  constructor
  · rintro ⟨receipt, hfilter, _⟩
    simpa using congrArg List.length hfilter
  · intro hone
    obtain ⟨cr, hcr⟩ := List.length_eq_one_iff.mp hone
    have hin : cr ∈ contractResults.filter fun cr => cr.hash = log.transactionHash :=
      hcr ▸ List.mem_singleton_self cr
    have hhash : cr.hash = log.transactionHash := by simpa using (List.mem_filter.mp hin).2
    refine ⟨_, by rw [hcr]; rfl, ?_, ?_⟩
    · rw [transactionHash_regularReceipt, hhash]
      exact toHash32_eq_self_iff.mpr hshort
    · rw [logs_regularReceipt, hhash]

private theorem inItsReceipt_iff_of_notMem {log : Log} (hlog : log ∈ logs)
    (hmem : log.transactionHash ∉ contractResults.map (·.hash)) (effectiveGas : String) :
    InItsReceipt (blockReceipts config services effectiveGas contractResults logs) logs log ↔
      (logsOf logs log.transactionHash).length = 1 := by
  have hown : log ∈ logsOf logs log.transactionHash := mem_logsOf.mpr ⟨hlog, rfl⟩
  have honly : log.transactionHash ∈ hashesOnlyInLogs contractResults logs :=
    mem_hashesOnlyInLogs.mpr ⟨List.mem_map_of_mem hlog, hmem⟩
  rw [InItsReceipt, filter_blockReceipts_of_notMem hlog hmem]
  constructor
  · rintro ⟨receipt, hfilter, _, hall⟩
    split at hfilter
    · obtain rfl := List.singleton_inj.mp hfilter
      rw [← hall]
      rfl
    · cases hfilter
  · intro hone
    obtain ⟨single, hsingle⟩ := List.length_eq_one_iff.mp hone
    rw [hsingle] at hown
    obtain rfl := List.mem_singleton.mp hown
    refine ⟨receiptFromLogs services effectiveGas logs log.transactionHash, ?_,
      transactionHash_receiptFromLogs honly, ?_⟩
    · rw [hsingle, List.head?_cons, if_pos rfl]
    · rw [receiptFromLogs, hsingle]
      rfl

/-- A log reaches its receipt exactly if its transaction has one source. -/
theorem log_in_its_receipt_iff (config : BlockConfig) (services : BlockServices)
    (block : MirrorNodeBlock) (contractResults : List MirrorNodeContractResult)
    (records : List MirrorNodeLog) (receipts : List TransactionReceipt)
    (hreceipts : getBlockReceipts config services (some block) contractResults records =
      .ok (some receipts))
    (log : Log) (hlog : log ∈ records.map Log.ofRecord)
    (hskipped : ∀ cr ∈ contractResults, isRevertedDueToHederaSpecificValidation config cr →
      cr.hash ≠ log.transactionHash) :
    InItsReceipt receipts (records.map Log.ofRecord) log ↔
      SingleSource contractResults (records.map Log.ofRecord) log.transactionHash := by
  obtain ⟨effectiveGas, rfl⟩ : ∃ effectiveGas, receipts =
      blockReceipts config services effectiveGas contractResults (records.map Log.ofRecord) := by
    rcases getBlockReceipts_cases config services block contractResults records with
      ⟨e, _, herror⟩ | ⟨effectiveGas, hok⟩
    · rw [hreceipts] at herror
      cases herror
    · rw [hreceipts] at hok
      exact ⟨effectiveGas, Option.some.inj (Except.ok.inj hok)⟩
  by_cases hmem : log.transactionHash ∈ contractResults.map (·.hash)
  · rw [inItsReceipt_iff_of_mem hlog (length_transactionHash_le hlog) hskipped hmem]
    exact ⟨Or.inl, fun h => h.resolve_right fun hnot => hnot.1 hmem⟩
  · rw [inItsReceipt_iff_of_notMem hlog hmem]
    constructor
    · exact fun hone => Or.inr ⟨hmem, hone⟩
    · rintro (hone | ⟨_, hone⟩)
      · obtain ⟨cr, hcr⟩ := List.length_eq_one_iff.mp hone
        have hin : cr ∈ contractResults.filter fun cr => cr.hash = log.transactionHash :=
          hcr ▸ List.mem_singleton_self cr
        obtain ⟨hcr, hhash⟩ := List.mem_filter.mp hin
        exact absurd (List.mem_map.mpr ⟨cr, hcr, by simpa using hhash⟩) hmem
      · exact hone

end Logs

section Examples

def exampleBlock : MirrorNodeBlock where
  count := 1
  gasUsed := 0
  hash := "0xb1"
  logsBloom := "0x"
  number := 7
  previousHash := "0xb0"
  size := none
  timestampFrom := 1700000000 * 10 ^ 9
  timestampTo := 1700000002 * 10 ^ 9

def exampleTransfer : List MirrorNodeLog := [exampleRecord "0xa1" 0, exampleRecord "0xa2" 1]

/-- A block with a contract call and a transfer. -/
theorem receipts_cover_block_of_call :
    ∃ block, getBlock exampleConfig exampleServices false (some exampleBlock) [exampleResult]
        exampleTransfer = .ok (some block) ∧
      ∃ hashes, block.transactions = .hashes hashes ∧ hashes.Nodup ∧
        ((∃ e, exampleServices.getGasPriceInWeibars exampleBlock.timestampFrom.seconds =
              .error e ∧
            getBlockReceipts exampleConfig exampleServices (some exampleBlock) [exampleResult]
              exampleTransfer = .error e) ∨
          ∃ receipts, getBlockReceipts exampleConfig exampleServices (some exampleBlock)
              [exampleResult] exampleTransfer = .ok (some receipts) ∧
            receipts.map (·.transactionHash) = hashes) := by
  have hdistinct : ([exampleResult].map (·.hash)).Nodup := by decide
  have hlength : ∀ cr ∈ [exampleResult], cr.hash.length = 66 := by decide
  have hskipped : ∀ cr ∈ [exampleResult],
      isRevertedDueToHederaSpecificValidation exampleConfig cr →
        ∀ record ∈ exampleTransfer, toHash32 record.transactionHash ≠ cr.hash := by decide
  exact ⟨_, rfl, receipts_cover_block exampleConfig exampleServices exampleServices exampleBlock
    [exampleResult] exampleTransfer _ hdistinct hlength hskipped rfl⟩

theorem log_in_its_receipt_iff_of_transfer :
    InItsReceipt (blockReceipts exampleConfig exampleServices "0x1" []
        (exampleTransfer.map Log.ofRecord)) (exampleTransfer.map Log.ofRecord)
        (Log.ofRecord (exampleRecord "0xa2" 1)) ↔
      SingleSource [] (exampleTransfer.map Log.ofRecord) "0xc1" :=
  log_in_its_receipt_iff exampleConfig exampleServices exampleBlock [] exampleTransfer _ rfl _
    (List.mem_map_of_mem (by simp [exampleTransfer])) (by simp)

/-- The second log of the transfer is in no receipt. -/
theorem second_log_in_no_receipt :
    ∃ receipts, getBlockReceipts exampleConfig exampleServices (some exampleBlock) []
        exampleTransfer = .ok (some receipts) ∧
      Log.ofRecord (exampleRecord "0xa2" 1) ∈ exampleTransfer.map Log.ofRecord ∧
      ¬InItsReceipt receipts (exampleTransfer.map Log.ofRecord)
        (Log.ofRecord (exampleRecord "0xa2" 1)) := by
  refine ⟨[syntheticReceipt (fun _ _ => EMPTY_BLOOM) (Log.ofRecord (exampleRecord "0xa1" 0))
    "0x1"], by decide +kernel, by decide +kernel, ?_⟩
  rintro ⟨receipt, hfilter, _⟩
  have hnone : [syntheticReceipt (fun _ _ => EMPTY_BLOOM) (Log.ofRecord (exampleRecord "0xa1" 0))
      "0x1"].filter (fun r => Log.ofRecord (exampleRecord "0xa2" 1) ∈ r.logs) = [] := by
    decide +kernel
  rw [hnone] at hfilter
  cases hfilter

end Examples

end JsonRpcRelay.Blocks

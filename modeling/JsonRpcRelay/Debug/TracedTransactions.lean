import JsonRpcRelay.Blocks.Receipts
import JsonRpcRelay.Blocks.TransactionViews

/-!
# The transactions of a traced block

The hashes that `debug_traceBlockByNumber` traces and those that the block lists are collected on
their own.  A hash may be missing from one of the lists where the two collectors treat a record in
different ways and no other record stands in for it.
-/

namespace JsonRpcRelay.Debug

open Js Mirror Blocks Framework

/-- The contract results and all logs in the range of the block. -/
def getAllTransactionHashesFromBlock (contractResults : List MirrorNodeContractResult)
    (allLogs : List MirrorNodeLog) : List String :=
  let evmHashes := (contractResults.filter fun cr => cr.result ≠ "WRONG_NONCE").map (·.hash)
  let logHashes := (allLogs.filter fun log => log.transactionHash ≠ "").map (·.transactionHash)
  (evmHashes ++ logHashes).eraseDups

section Collectors

variable (config : BlockConfig) (showDetails : Bool)
  (contractResults : List MirrorNodeContractResult) (records : List MirrorNodeLog)

/-- The hash of a contract result in one of the views of the block. -/
def shownHash (cr : MirrorNodeContractResult) : String :=
  if showDetails then toHash32 cr.hash else cr.hash

/-- A record that is traced has the hash. -/
def Traced (hash : String) : Prop :=
  (∃ cr ∈ contractResults, cr.result ≠ "WRONG_NONCE" ∧ cr.hash = hash) ∨
    ∃ log ∈ records, log.transactionHash ≠ "" ∧ log.transactionHash = hash

/-- A record that the block lists has the hash. -/
def Listed (hash : String) : Prop :=
  (∃ cr ∈ contractResults, ¬isRevertedDueToHederaSpecificValidation config cr ∧
      shownHash showDetails cr = hash) ∨
    ∃ log ∈ records, toHash32 log.transactionHash = hash

/-- A contract result that one of the collectors skips, or the objects cut the hash of, and a log
without a hash, or with a longer one than the block lists, has another record with its hash on the
side where it is missing. -/
structure StoodIn : Prop where
  skippedByBlock : ∀ cr ∈ contractResults, cr.result ≠ "WRONG_NONCE" →
    isRevertedDueToHederaSpecificValidation config cr ∨ shownHash showDetails cr ≠ cr.hash →
      Listed config showDetails contractResults records cr.hash
  skippedByDebug : ∀ cr ∈ contractResults, ¬isRevertedDueToHederaSpecificValidation config cr →
    cr.result = "WRONG_NONCE" ∨ shownHash showDetails cr ≠ cr.hash →
      Traced contractResults records (shownHash showDetails cr)
  longHash : ∀ log ∈ records, 66 < log.transactionHash.length →
    Listed config showDetails contractResults records log.transactionHash ∧
      Traced contractResults records (toHash32 log.transactionHash)
  noHash : ∀ log ∈ records, log.transactionHash = "" → Traced contractResults records ""

end Collectors

section Agreement

variable {config : BlockConfig} {services : BlockServices} {showDetails : Bool}
  {contractResults : List MirrorNodeContractResult} {records : List MirrorNodeLog}
  {hash : String}

private theorem mem_getAllTransactionHashesFromBlock :
    hash ∈ getAllTransactionHashesFromBlock contractResults records ↔
      Traced contractResults records hash := by
  simp [getAllTransactionHashesFromBlock, Traced, and_assoc]

private theorem mem_or_unlisted {logs : List Log} {hashes : List String} :
    (hash ∈ hashes ∨ hash ∈ (unlistedLogs logs hashes).map (·.transactionHash)) ↔
      hash ∈ hashes ∨ ∃ log ∈ logs, log.transactionHash = hash := by
  by_cases hlisted : hash ∈ hashes
  · simp [hlisted]
  · simp only [hlisted, false_or, unlistedLogs, List.mem_map, List.mem_filter, decide_eq_true_eq]
    constructor
    · intro ⟨log, ⟨hlog, _⟩, heq⟩
      exact ⟨log, hlog, heq⟩
    · intro ⟨log, hlog, heq⟩
      exact ⟨log, ⟨hlog, heq ▸ hlisted⟩, heq⟩

private theorem exists_log_ofRecord :
    (∃ log ∈ records.map Log.ofRecord, log.transactionHash = hash) ↔
    ∃ log ∈ records, toHash32 log.transactionHash = hash := by
  simp [Log.ofRecord]

variable (showDetails) in
private theorem mem_shownHashes :
    hash ∈ (regularResults config contractResults).map (shownHash showDetails) ↔
    ∃ cr ∈ contractResults, ¬isRevertedDueToHederaSpecificValidation config cr ∧
      shownHash showDetails cr = hash := by
  simp only [List.mem_map, mem_regularResults, and_assoc]

private theorem mem_hashes :
    hash ∈ populateSyntheticHashes (records.map Log.ofRecord)
        (prepareTransactionHashes config contractResults) ↔
      Listed config false contractResults records hash := by
  have hregular : hash ∈ prepareTransactionHashes config contractResults ↔
      ∃ cr ∈ contractResults, ¬isRevertedDueToHederaSpecificValidation config cr ∧
        shownHash false cr = hash := mem_shownHashes false
  rw [populateSyntheticHashes, List.mem_eraseDups, List.mem_append]
  exact mem_or_unlisted.trans (by rw [Listed, exists_log_ofRecord, hregular])

private theorem mem_objects {transactions : List Transaction}
    (hok : prepareTransactionObjects config services contractResults =
      .ok (transactions.map some)) :
    hash ∈ ((transactions ++ (unlistedLogs (records.map Log.ofRecord)
        (transactions.map (·.hash))).map (syntheticTransaction config.chain)).eraseDups.map
          (·.hash)) ↔
      Listed config true contractResults records hash := by
  have hown : hash ∈ transactions.map (·.hash) ↔
      ∃ cr ∈ contractResults, ¬isRevertedDueToHederaSpecificValidation config cr ∧
        shownHash true cr = hash := by
    rw [(of_prepareTransactionObjects_ok hok).2]
    exact mem_shownHashes true
  have hlists : ∀ synthetic : List Transaction,
      hash ∈ (transactions ++ synthetic).eraseDups.map (·.hash) ↔
        hash ∈ transactions.map (·.hash) ∨ hash ∈ synthetic.map (·.hash) := by
    intro synthetic
    simp only [List.mem_map, List.mem_eraseDups, List.mem_append, or_and_right, exists_or]
  rw [hlists, List.map_map]
  exact mem_or_unlisted.trans (by rw [Listed, exists_log_ofRecord, hown])

private theorem mem_hashList {view : BlockTransactions} {hashes : List String}
    (hview : transactionArray config services showDetails contractResults
      (records.map Log.ofRecord) = .ok view) (hlist : view.hashList = .ok hashes) :
    hash ∈ hashes ↔ Listed config showDetails contractResults records hash := by
  cases showDetails with
  | false =>
    obtain rfl := Except.ok.inj hview
    obtain rfl := Except.ok.inj hlist
    exact mem_hashes
  | true =>
    obtain ⟨transactions, hok⟩ := exists_prepared hview hlist
    rw [transactionArray_true_of_ok hok] at hview
    obtain rfl := Except.ok.inj hview
    rw [BlockTransactions.hashList, mapM_hashOf_map_some] at hlist
    obtain rfl := Except.ok.inj hlist
    exact mem_objects hok

private theorem traced_iff_listed_iff : (∀ hash, Traced contractResults records hash ↔
    Listed config showDetails contractResults records hash) ↔
      StoodIn config showDetails contractResults records := by
  constructor
  · intro h
    refine ⟨?_, ?_, ?_, ?_⟩
    · intro cr hcr hresult _
      exact (h cr.hash).mp (Or.inl ⟨cr, hcr, hresult, rfl⟩)
    · intro cr hcr hregular _
      exact (h _).mpr (Or.inl ⟨cr, hcr, hregular, rfl⟩)
    · intro log hlog hlong
      have hnonempty : log.transactionHash ≠ "" := by
        intro hempty
        simp [hempty] at hlong
      exact ⟨(h _).mp (Or.inr ⟨log, hlog, hnonempty, rfl⟩), (h _).mpr (Or.inr ⟨log, hlog, rfl⟩)⟩
    · intro log hlog hempty
      have hlisted : toHash32 log.transactionHash = "" := by
        rw [hempty]
        rfl
      exact (h "").mpr (Or.inr ⟨log, hlog, hlisted⟩)
  · intro h hash
    constructor
    · intro htraced
      rcases htraced with ⟨cr, hcr, hresult, rfl⟩ | ⟨log, hlog, hnonempty, rfl⟩
      · by_cases hsame : isRevertedDueToHederaSpecificValidation config cr ∨
            shownHash showDetails cr ≠ cr.hash
        · exact h.skippedByBlock cr hcr hresult hsame
        · rw [not_or, ne_eq, not_not] at hsame
          exact Or.inl ⟨cr, hcr, hsame.1, hsame.2⟩
      · by_cases hlong : 66 < log.transactionHash.length
        · exact (h.longHash log hlog hlong).1
        · exact Or.inr ⟨log, hlog, toHash32_eq_self_iff.mpr (Nat.le_of_not_lt hlong)⟩
    · intro hlisted
      rcases hlisted with ⟨cr, hcr, hregular, rfl⟩ | ⟨log, hlog, rfl⟩
      · by_cases hsame : cr.result = "WRONG_NONCE" ∨ shownHash showDetails cr ≠ cr.hash
        · exact h.skippedByDebug cr hcr hregular hsame
        · rw [not_or, ne_eq, not_not] at hsame
          exact Or.inl ⟨cr, hcr, hsame.1, hsame.2.symm⟩
      · by_cases hlong : 66 < log.transactionHash.length
        · exact (h.longHash log hlog hlong).2
        · rw [toHash32_eq_self_iff.mpr (Nat.le_of_not_lt hlong)]
          by_cases hempty : log.transactionHash = ""
          · rw [hempty]
            exact h.noHash log hlog hempty
          · exact Or.inr ⟨log, hlog, hempty, rfl⟩

end Agreement

/-- The transactions that are traced are those that the block lists exactly if every record that
the collectors treat differently is stood in for. -/
theorem traced_eq_listed_iff (config : BlockConfig) (services : BlockServices) (showDetails : Bool)
    (blockResponse : Option MirrorNodeBlock) (contractResults : List MirrorNodeContractResult)
    (records : List MirrorNodeLog) {block : Block} {hashes : List String}
    (hblock : getBlock config services showDetails blockResponse contractResults records =
      .ok (some block))
    (hlist : block.transactions.hashList = .ok hashes) :
    (∀ hash, hash ∈ getAllTransactionHashesFromBlock contractResults records ↔ hash ∈ hashes) ↔
      StoodIn config showDetails contractResults records := by
  have hview := (transactionArray_of_getBlock hblock).1
  rw [← traced_iff_listed_iff]
  simp only [mem_getAllTransactionHashesFromBlock, mem_hashList hview hlist]

/-- A transfer beside a contract call. -/
theorem traced_eq_listed_iff_of_call :
    ∃ block hashes, getBlock exampleConfig exampleServices false (some exampleBlock)
        [exampleResult] exampleTransfer = .ok (some block) ∧
      block.transactions.hashList = .ok hashes ∧
      ((∀ hash, hash ∈ getAllTransactionHashesFromBlock [exampleResult] exampleTransfer ↔
          hash ∈ hashes) ↔ StoodIn exampleConfig false [exampleResult] exampleTransfer) :=
  ⟨_, _, rfl, rfl, traced_eq_listed_iff exampleConfig exampleServices false (some exampleBlock)
    [exampleResult] exampleTransfer rfl rfl⟩

/-- A result with a configured status that is traced and not listed, and a wrong nonce that is
listed where it is not configured, and not traced. -/
theorem skipped_by_one_collector :
    (∃ block, getBlock { exampleConfig with
          hederaSpecificRevertStatuses := ["WRONG_NONCE", "INVALID_ACCOUNT_ID"] } exampleServices
          false (some exampleBlock) [{ exampleResult with result := "INVALID_ACCOUNT_ID" }] [] =
        .ok (some block) ∧
      block.transactions.hashList = .ok [] ∧
      getAllTransactionHashesFromBlock [{ exampleResult with result := "INVALID_ACCOUNT_ID" }] [] =
        [exampleResult.hash]) ∧
    ∃ block, getBlock { exampleConfig with hederaSpecificRevertStatuses := [] } exampleServices
          false (some exampleBlock) [{ exampleResult with result := "WRONG_NONCE" }] [] =
        .ok (some block) ∧
      block.transactions.hashList = .ok [exampleResult.hash] ∧
      getAllTransactionHashesFromBlock [{ exampleResult with result := "WRONG_NONCE" }] [] = [] := by
  refine ⟨⟨_, rfl, rfl, ?_⟩, ⟨_, rfl, rfl, ?_⟩⟩
  · decide +kernel
  · decide +kernel

end JsonRpcRelay.Debug

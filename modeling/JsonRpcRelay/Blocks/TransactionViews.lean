import JsonRpcRelay.Blocks.BlockWorker
import JsonRpcRelay.Framework.Traversal

/-!
# The two views of the transactions of a block

The list of hashes and the list of objects are filtered and freed from repetitions on their
own.  They name the same transactions exactly when every contract result becomes an object with
its own hash and the logs of one synthetic transaction agree.
-/

namespace JsonRpcRelay.Blocks

open constants Js Mirror Framework

variable (config : BlockConfig) (services : BlockServices)

section Objects

variable {config services}

/-- The contract results that become objects: the type is known and the amount in range. -/
def Convertible (cr : MirrorNodeContractResult) : Prop :=
  (∀ type, cr.type = some type → type ≤ 2) ∧
    ∀ amount, cr.amount = some amount → amount ≤ TOTAL_SUPPLY_TINYBARS

private theorem hash_of_createTransactionByType {type : Option ℕ} {fields transaction : Transaction}
    {a b : Option String} (h : createTransactionByType type fields a b = some transaction) :
    transaction.hash = fields.hash := by
  unfold createTransactionByType at h
  split at h
  all_goals
    cases h
    try rfl

theorem createTransactionByType_isSome {type : Option ℕ} {fields : Transaction}
    {a b : Option String} : (createTransactionByType type fields a b).isSome ↔
      ∀ t, type = some t → t ≤ 2 := by
  match type with
  | none => simp [createTransactionByType]
  | some 0 => simp [createTransactionByType]
  | some 1 => simp [createTransactionByType]
  | some 2 => simp [createTransactionByType]
  | some (n + 3) => simp [createTransactionByType]

theorem tinybarsToWeibars_isOk {amount : Option ℤ} :
    (∃ value, tinybarsToWeibars amount true = .ok value) ↔
      ∀ a, amount = some a → a ≤ TOTAL_SUPPLY_TINYBARS := by
  cases amount with
  | none => simp [tinybarsToWeibars]
  | some a =>
    have hsupply : (0 : ℤ) ≤ TOTAL_SUPPLY_TINYBARS := by decide
    by_cases hneg : a < 0
    · simp only [tinybarsToWeibars, hneg]
      simp
      omega
    · by_cases hlarge : a > TOTAL_SUPPLY_TINYBARS
      · simp [tinybarsToWeibars, hneg, hlarge]
      · simp only [tinybarsToWeibars, hneg, hlarge]
        simp
        omega

theorem createTransactionFromContractResult_some_iff {cr : MirrorNodeContractResult} :
    (∃ transaction, createTransactionFromContractResult cr = .ok (some transaction)) ↔
      Convertible cr := by
  constructor
  · rintro ⟨transaction, h⟩
    simp only [createTransactionFromContractResult] at h
    cases hvalue : tinybarsToWeibars cr.amount true with
    | error e => simp [hvalue, bind, Except.bind] at h
    | ok value =>
      simp only [hvalue, bind, Except.bind, pure, Except.pure, Except.ok.injEq] at h
      refine ⟨?_, tinybarsToWeibars_isOk.mp ⟨value, hvalue⟩⟩
      apply createTransactionByType_isSome.mp
      rw [h]
      rfl
  · intro h
    obtain ⟨value, hvalue⟩ := tinybarsToWeibars_isOk.mpr h.2
    obtain ⟨transaction, htransaction⟩ := Option.isSome_iff_exists.mp
      (createTransactionByType_isSome.mpr h.1)
    refine ⟨transaction, ?_⟩
    simp only [createTransactionFromContractResult, hvalue, bind, Except.bind, pure, Except.pure]
    rw [htransaction]

theorem hash_of_createTransactionFromContractResult {cr : MirrorNodeContractResult}
    {transaction : Transaction}
    (h : createTransactionFromContractResult cr = .ok (some transaction)) :
    transaction.hash = toHash32 cr.hash := by
  simp only [createTransactionFromContractResult] at h
  cases hvalue : tinybarsToWeibars cr.amount true with
  | error e => simp [hvalue, bind, Except.bind] at h
  | ok value =>
    simp only [hvalue, bind, Except.bind, pure, Except.pure, Except.ok.injEq] at h
    rw [hash_of_createTransactionByType h]
    rfl

/-- The synthetic transaction of a log. -/
def syntheticTransaction (chain : String) (log : Log) : Transaction :=
  (createSyntheticTransaction chain log).get rfl

private theorem createSyntheticTransaction_eq (chain : String) (log : Log) :
    createSyntheticTransaction chain log = some (syntheticTransaction chain log) := rfl

@[simp] theorem hash_syntheticTransaction (chain : String) (log : Log) :
    (syntheticTransaction chain log).hash = log.transactionHash := rfl

/-- What a synthetic transaction takes from its log. -/
def SameOrigin (log log' : Log) : Prop :=
  log.address = log'.address ∧ log.blockHash = log'.blockHash ∧
    log.blockNumber = log'.blockNumber ∧ log.transactionIndex = log'.transactionIndex

private theorem syntheticTransaction_eq_iff {chain : String} {log log' : Log} :
    syntheticTransaction chain log = syntheticTransaction chain log' ↔
      log.transactionHash = log'.transactionHash ∧ SameOrigin log log' := by
  simp only [syntheticTransaction, createSyntheticTransaction, createTransactionByType,
    Option.get_some, Transaction.mk.injEq, Option.some.injEq, SameOrigin]
  tauto

end Objects

section Views

variable {config services}

theorem length_transactionHash_le {records : List MirrorNodeLog} {log : Log}
    (h : log ∈ records.map Log.ofRecord) : log.transactionHash.length ≤ 66 := by
  obtain ⟨record, _, rfl⟩ := List.mem_map.mp h
  exact length_toHash32_le record.transactionHash

private theorem listsHash_map_some (transactions : List Transaction) (hash : String) :
    listsHash (transactions.map some) hash = .ok (transactions.map (·.hash) |>.contains hash) := by
  rw [listsHash, anyM_ok (p := fun t => (t.map (·.hash)) = some hash)]
  · congr 1
    rw [Bool.eq_iff_iff, List.any_map, List.any_eq_true, List.contains_iff_mem, List.mem_map]
    simp
  · intro t ht
    obtain ⟨transaction, _, rfl⟩ := List.mem_map.mp ht
    simp [hashOf, bind, Except.bind, pure, Except.pure]

/-- The logs that become synthetic transactions beside the listed hashes. -/
def unlistedLogs (logs : List Log) (hashes : List String) : List Log :=
  logs.filter fun log => log.transactionHash ∉ hashes

private theorem populateSyntheticObjects_map_some (logs : List Log)
    (transactions : List Transaction) :
    populateSyntheticObjects config logs (transactions.map some) =
      .ok ((transactions ++ (unlistedLogs logs (transactions.map (·.hash))).map
        (syntheticTransaction config.chain)).eraseDups.map some) := by
  have hfilter : logs.filterM (fun log => do
      return !(← listsHash (transactions.map some) log.transactionHash)) =
      (.ok (unlistedLogs logs (transactions.map (·.hash))) : Except RelayError _) := by
    apply filterM_ok
    intro log _
    rw [listsHash_map_some, List.contains_eq_mem]
    simp only [bind, Except.bind, pure, Except.pure, decide_not]
  have hsynthetic : ∀ ls : List Log, ls.filterMap (fun log =>
      (createSyntheticTransaction config.chain log).map some) =
        (ls.map (syntheticTransaction config.chain)).map some := by
    intro ls
    induction ls with
    | nil => rfl
    | cons log ls ih =>
      rw [List.filterMap_cons, createSyntheticTransaction_eq]
      simp only [Option.map_some, ih, List.map_cons]
  rw [populateSyntheticObjects, hfilter]
  simp only [bind, Except.bind, pure, Except.pure, hsynthetic]
  rw [← List.map_append, map_eraseDups fun a _ b _ h => Option.some.inj h]

theorem populateSyntheticHashes_eq {logs : List Log} {hashes : List String}
    (h : hashes.Nodup) : populateSyntheticHashes logs hashes =
      hashes ++ ((unlistedLogs logs hashes).map (·.transactionHash)).eraseDups := by
  have hdisjoint : List.Disjoint hashes
      ((unlistedLogs logs hashes).map (·.transactionHash)) := by
    intro hash hhash hunlisted
    obtain ⟨log, hlog, rfl⟩ := List.mem_map.mp hunlisted
    simpa [hhash] using (List.mem_filter.mp hlog).2
  rw [populateSyntheticHashes]
  change (hashes ++ (unlistedLogs logs hashes).map (·.transactionHash)).eraseDups = _
  rw [eraseDups_append_of_disjoint hdisjoint, eraseDups_eq_self h]

theorem nodup_populateSyntheticHashes (logs : List Log) (hashes : List String) :
    (populateSyntheticHashes logs hashes).Nodup :=
  nodup_eraseDups _

theorem mapM_hashOf_map_some (transactions : List Transaction) :
    (transactions.map some).mapM hashOf = .ok (transactions.map (·.hash)) := by
  apply mapM_ok_iff.mpr
  simp [hashOf]

private theorem isSome_of_mapM_hashOf_ok {transactions : List (Option Transaction)}
    {hashes : List String} (h : transactions.mapM hashOf = .ok hashes) :
    ∀ t ∈ transactions, t.isSome := by
  intro t ht
  obtain ⟨hash, _, hhash⟩ := exists_of_mapM_ok h ht
  cases t with
  | none => cases hhash
  | some t => rfl

private theorem exists_map_some {transactions : List (Option Transaction)}
    (h : ∀ t ∈ transactions, t.isSome) :
    ∃ objects : List Transaction, transactions = objects.map some := by
  induction transactions with
  | nil => exact ⟨[], rfl⟩
  | cons t transactions ih =>
    obtain ⟨object, rfl⟩ := Option.isSome_iff_exists.mp (h t List.mem_cons_self)
    obtain ⟨objects, rfl⟩ := ih fun t ht => h t (List.mem_cons_of_mem _ ht)
    exact ⟨object :: objects, rfl⟩

private theorem mem_of_populateSyntheticObjects {logs : List Log}
    {transactions result : List (Option Transaction)}
    (h : populateSyntheticObjects config logs transactions = .ok result) :
    ∀ t ∈ transactions, t ∈ result := by
  intro t ht
  rw [populateSyntheticObjects] at h
  cases hfilter : logs.filterM (fun log => do
      return !(← listsHash transactions log.transactionHash)) with
  | error e =>
    rw [hfilter] at h
    cases h
  | ok filteredLogs =>
    rw [hfilter] at h
    obtain rfl := Except.ok.inj h
    exact List.mem_eraseDups.mpr (List.mem_append_left _ ht)

end Views

section Agreement

/-- The transactions known only from their logs, by first appearance. -/
def hashesOnlyInLogs (contractResults : List MirrorNodeContractResult) (logs : List Log) :
    List String :=
  ((logs.map (·.transactionHash)).filter fun hash => hash ∉ contractResults.map (·.hash)).eraseDups

/-- Both views are built and list the same hashes, each once: those of the contract results
that are not skipped and then those that occur only in logs. -/
def SameTransactions (contractResults : List MirrorNodeContractResult) (logs : List Log) : Prop :=
  ∃ transactions hashes,
    transactionArray config services true contractResults logs = .ok transactions ∧
    transactionArray config services false contractResults logs = .ok (.hashes hashes) ∧
    transactions.hashList = .ok hashes ∧ hashes.Nodup ∧
    hashes = (regularResults config contractResults).map (·.hash) ++
      hashesOnlyInLogs contractResults logs

/-- The inputs on which the views agree. -/
structure Uniform (contractResults : List MirrorNodeContractResult) (logs : List Log) : Prop where
  regular : ∀ cr ∈ regularResults config contractResults, Convertible cr ∧ cr.hash.length ≤ 66
  sameOrigin : ∀ log ∈ logs, ∀ log' ∈ logs, log.transactionHash = log'.transactionHash →
    log.transactionHash ∉ contractResults.map (·.hash) → SameOrigin log log'
  skipped : ∀ cr ∈ contractResults, isRevertedDueToHederaSpecificValidation config cr →
    ∀ log ∈ logs, log.transactionHash ≠ cr.hash

variable {config services} {contractResults : List MirrorNodeContractResult} {logs : List Log}

theorem transactionArray_of_getBlock {showDetails : Bool} {blockResponse : Option MirrorNodeBlock}
    {contractResults : List MirrorNodeContractResult} {records : List MirrorNodeLog} {block : Block}
    (h : getBlock config services showDetails blockResponse contractResults records =
      .ok (some block)) :
    transactionArray config services showDetails contractResults (records.map Log.ofRecord) =
      .ok block.transactions ∧ ∃ hashes, block.transactions.hashList = .ok hashes := by
  cases blockResponse with
  | none => cases h
  | some response =>
    simp only [getBlock] at h
    split at h
    · cases h
    · obtain ⟨txArray, harray, h⟩ := exists_of_bind_ok h
      obtain ⟨hashes, hhashes, h⟩ := exists_of_bind_ok h
      obtain ⟨receipts, _, h⟩ := exists_of_bind_ok h
      obtain ⟨receiptsRoot, _, h⟩ := exists_of_bind_ok h
      obtain ⟨gasPrice, _, h⟩ := exists_of_bind_ok h
      obtain rfl := Option.some.inj (Except.ok.inj h)
      exact ⟨harray, hashes, hhashes⟩

theorem mem_regularResults {cr : MirrorNodeContractResult} :
    cr ∈ regularResults config contractResults ↔
      cr ∈ contractResults ∧ ¬isRevertedDueToHederaSpecificValidation config cr := by
  simp [regularResults, List.mem_filter]

theorem nodup_regular (h : (contractResults.map (·.hash)).Nodup) :
    ((regularResults config contractResults).map (·.hash)).Nodup :=
  h.sublist (List.filter_sublist.map _)

variable (services) in
private theorem prepareTransactionObjects_ok (h : ∀ cr ∈ regularResults config contractResults,
    Convertible cr) : ∃ transactions : List Transaction,
      prepareTransactionObjects config services contractResults = .ok (transactions.map some) ∧
      transactions.map (·.hash) =
        (regularResults config contractResults).map fun cr => toHash32 cr.hash := by
  simp only [prepareTransactionObjects]
  generalize regularResults config contractResults = results at h
  induction results with
  | nil => exact ⟨[], rfl, rfl⟩
  | cons cr results ih =>
    obtain ⟨transactions, hok, hhashes⟩ := ih fun c hc => h c (List.mem_cons_of_mem _ hc)
    have hcr : Convertible (resolveParties config services cr) := h cr List.mem_cons_self
    obtain ⟨transaction, htransaction⟩ :=
      createTransactionFromContractResult_some_iff.mpr hcr
    refine ⟨transaction :: transactions, ?_, ?_⟩
    · apply mapM_ok_iff.mpr
      rw [List.map_cons, htransaction, mapM_ok_iff.mp hok]
      rfl
    · rw [List.map_cons, List.map_cons, hhashes,
        hash_of_createTransactionFromContractResult htransaction]
      rfl

theorem of_prepareTransactionObjects_ok {transactions : List Transaction}
    (h : prepareTransactionObjects config services contractResults =
      .ok (transactions.map some)) :
    (∀ cr ∈ regularResults config contractResults, Convertible cr) ∧
      transactions.map (·.hash) =
        (regularResults config contractResults).map fun cr => toHash32 cr.hash := by
  have hconvertible : ∀ cr ∈ regularResults config contractResults, Convertible cr := by
    intro cr hcr
    obtain ⟨object, hobject, hok⟩ := exists_of_mapM_ok h hcr
    obtain ⟨transaction, _, rfl⟩ := List.mem_map.mp hobject
    have hresolved : Convertible (resolveParties config services cr) :=
      createTransactionFromContractResult_some_iff.mp ⟨transaction, hok⟩
    exact hresolved
  obtain ⟨transactions', hok, hhashes⟩ := prepareTransactionObjects_ok services hconvertible
  have hsame : transactions.map some = transactions'.map some := by
    rw [h] at hok
    exact Except.ok.inj hok
  rw [List.map_injective_iff.mpr (fun a b h => Option.some.inj h) hsame]
  exact ⟨hconvertible, hhashes⟩

/-- The view of the objects when its parts are known. -/
theorem transactionArray_true_of_ok {transactions : List Transaction}
    (h : prepareTransactionObjects config services contractResults =
      .ok (transactions.map some)) :
    transactionArray config services true contractResults logs =
      .ok (.objects ((transactions ++ (unlistedLogs logs (transactions.map (·.hash))).map
        (syntheticTransaction config.chain)).eraseDups.map some)) := by
  simp only [transactionArray, if_true, h, bind, Except.bind]
  rw [populateSyntheticObjects_map_some]
  rfl

theorem unlistedLogs_regular (h : ∀ cr ∈ contractResults,
    isRevertedDueToHederaSpecificValidation config cr → ∀ log ∈ logs,
      log.transactionHash ≠ cr.hash) :
    unlistedLogs logs ((regularResults config contractResults).map (·.hash)) =
      unlistedLogs logs (contractResults.map (·.hash)) := by
  apply List.filter_congr
  intro log hlog
  have hiff : log.transactionHash ∈ (regularResults config contractResults).map (·.hash) ↔
      log.transactionHash ∈ contractResults.map (·.hash) := by
    constructor
    · intro hmem
      obtain ⟨cr, hcr, heq⟩ := List.mem_map.mp hmem
      exact List.mem_map.mpr ⟨cr, (mem_regularResults.mp hcr).1, heq⟩
    · intro hmem
      obtain ⟨cr, hcr, heq⟩ := List.mem_map.mp hmem
      have hregular : ¬isRevertedDueToHederaSpecificValidation config cr := by
        intro hskipped
        exact h cr hcr hskipped log hlog heq.symm
      exact List.mem_map.mpr ⟨cr, mem_regularResults.mpr ⟨hcr, hregular⟩, heq⟩
  simp only [hiff]

theorem hashesOnlyInLogs_eq : hashesOnlyInLogs contractResults logs =
    ((unlistedLogs logs (contractResults.map (·.hash))).map (·.transactionHash)).eraseDups := by
  rw [hashesOnlyInLogs, List.filter_map]
  rfl

private theorem hash_injOn {transactions : List Transaction}
    (hnodup : (transactions.map (·.hash)).Nodup)
    (hsame : ∀ log ∈ logs, ∀ log' ∈ logs, log.transactionHash = log'.transactionHash →
      log.transactionHash ∉ transactions.map (·.hash) → SameOrigin log log') :
    ∀ a ∈ transactions ++ (unlistedLogs logs (transactions.map (·.hash))).map
        (syntheticTransaction config.chain),
      ∀ b ∈ transactions ++ (unlistedLogs logs (transactions.map (·.hash))).map
        (syntheticTransaction config.chain), a.hash = b.hash → a = b := by
  intro a ha b hb hab
  have hsynthetic : ∀ t ∈ (unlistedLogs logs (transactions.map (·.hash))).map
      (syntheticTransaction config.chain), ∃ log ∈ logs,
        syntheticTransaction config.chain log = t ∧
          log.transactionHash ∉ transactions.map (·.hash) := by
    intro t ht
    obtain ⟨log, hlog, hlogt⟩ := List.mem_map.mp ht
    obtain ⟨hmem, hunlisted⟩ := List.mem_filter.mp hlog
    exact ⟨log, hmem, hlogt, by simpa using hunlisted⟩
  rcases List.mem_append.mp ha with ha | ha
  · rcases List.mem_append.mp hb with hb | hb
    · exact List.inj_on_of_nodup_map hnodup ha hb hab
    · obtain ⟨log, _, rfl, hunlisted⟩ := hsynthetic b hb
      exact absurd (List.mem_map.mpr ⟨a, ha, hab⟩) hunlisted
  · obtain ⟨log, hlog, rfl, hunlisted⟩ := hsynthetic a ha
    rcases List.mem_append.mp hb with hb | hb
    · exact absurd (List.mem_map.mpr ⟨b, hb, hab.symm⟩) hunlisted
    · obtain ⟨log', hlog', rfl, _⟩ := hsynthetic b hb
      exact syntheticTransaction_eq_iff.mpr ⟨hab, hsame log hlog log' hlog' hab hunlisted⟩

private theorem sameTransactions_of_uniform (hdistinct : (contractResults.map (·.hash)).Nodup)
    (h : Uniform config contractResults logs) :
    SameTransactions config services contractResults logs := by
  obtain ⟨transactions, hok, hhashes⟩ :=
    prepareTransactionObjects_ok services fun cr hcr => (h.regular cr hcr).1
  have hown : transactions.map (·.hash) =
      (regularResults config contractResults).map (·.hash) := by
    rw [hhashes]
    apply List.map_congr_left
    exact fun cr hcr => toHash32_eq_self_iff.mpr (h.regular cr hcr).2
  have hunlisted := unlistedLogs_regular h.skipped
  have hsame : ∀ log ∈ logs, ∀ log' ∈ logs, log.transactionHash = log'.transactionHash →
      log.transactionHash ∉ transactions.map (·.hash) → SameOrigin log log' := by
    intro log hlog log' hlog' heq hnot
    have hmem : log ∈ unlistedLogs logs (transactions.map (·.hash)) :=
      List.mem_filter.mpr ⟨hlog, by simpa using hnot⟩
    rw [hown, hunlisted] at hmem
    exact h.sameOrigin log hlog log' hlog' heq (by simpa using (List.mem_filter.mp hmem).2)
  refine ⟨_, populateSyntheticHashes logs (prepareTransactionHashes config contractResults),
    transactionArray_true_of_ok hok, rfl, ?_, nodup_populateSyntheticHashes _ _, ?_⟩
  · -- the hash tells the objects apart, so both lists lose the same repetitions
    rw [BlockTransactions.hashList, mapM_hashOf_map_some, map_eraseDups, List.map_append, hown,
      List.map_map]
    · rfl
    · exact hash_injOn (hown ▸ nodup_regular hdistinct) hsame
  · rw [prepareTransactionHashes, populateSyntheticHashes_eq (nodup_regular hdistinct),
      hashesOnlyInLogs_eq]
    exact congrArg _ (congrArg _ (congrArg _ hunlisted))

theorem exists_prepared {view : BlockTransactions} {hashes : List String}
    (h : transactionArray config services true contractResults logs = .ok view)
    (hlist : view.hashList = .ok hashes) : ∃ transactions : List Transaction,
      prepareTransactionObjects config services contractResults = .ok (transactions.map some) := by
  simp only [transactionArray, if_true, bind, Except.bind] at h
  cases hprepared : prepareTransactionObjects config services contractResults with
  | error e => simp [hprepared] at h
  | ok transactions =>
    simp only [hprepared] at h
    cases hpopulated : populateSyntheticObjects config logs transactions with
    | error e => simp [hpopulated] at h
    | ok result =>
      simp only [hpopulated, pure, Except.pure, Except.ok.injEq] at h
      subst h
      have hsome : ∀ t ∈ transactions, t.isSome := fun t ht =>
        isSome_of_mapM_hashOf_ok hlist t (mem_of_populateSyntheticObjects hpopulated t ht)
      obtain ⟨objects, rfl⟩ := exists_map_some hsome
      exact ⟨objects, rfl⟩

private theorem length_hash_le_of_listed {transactions : List Transaction}
    (hshort : ∀ log ∈ logs, log.transactionHash.length ≤ 66)
    (hown : transactions.map (·.hash) =
      (regularResults config contractResults).map fun cr => toHash32 cr.hash)
    (hcontent : ((transactions ++ (unlistedLogs logs (transactions.map (·.hash))).map
        (syntheticTransaction config.chain)).eraseDups.map (·.hash)) =
      (regularResults config contractResults).map (·.hash) ++
        hashesOnlyInLogs contractResults logs) :
    ∀ cr ∈ regularResults config contractResults, cr.hash.length ≤ 66 := by
  intro cr hcr
  have hmem := List.mem_append_left (hashesOnlyInLogs contractResults logs)
    (List.mem_map_of_mem (f := (·.hash)) hcr)
  rw [← hcontent] at hmem
  obtain ⟨t, ht, hthash⟩ := List.mem_map.mp hmem
  rcases List.mem_append.mp (List.mem_eraseDups.mp ht) with ht | ht
  · have htrunc := List.mem_map_of_mem (f := (·.hash)) ht
    rw [hown] at htrunc
    obtain ⟨cr', _, hcr'⟩ := List.mem_map.mp htrunc
    rw [← hthash, ← hcr']
    exact length_toHash32_le cr'.hash
  · obtain ⟨log, hlog, rfl⟩ := List.mem_map.mp ht
    rw [← hthash]
    exact hshort log (List.mem_filter.mp hlog).1

private theorem uniform_of_sameTransactions (hdistinct : (contractResults.map (·.hash)).Nodup)
    (hshort : ∀ log ∈ logs, log.transactionHash.length ≤ 66)
    (h : SameTransactions config services contractResults logs) :
    Uniform config contractResults logs := by
  obtain ⟨view, hashes, hobjects, hhashes, hlist, hnodup, hcontent⟩ := h
  obtain ⟨transactions, hok⟩ := exists_prepared hobjects hlist
  obtain ⟨hconvertible, hown⟩ := of_prepareTransactionObjects_ok hok
  rw [transactionArray_true_of_ok hok] at hobjects
  obtain rfl := Except.ok.inj hobjects
  rw [BlockTransactions.hashList, mapM_hashOf_map_some] at hlist
  obtain rfl := Except.ok.inj hlist
  have hshortAll := length_hash_le_of_listed hshort hown hcontent
  have hregular : transactions.map (·.hash) =
      (regularResults config contractResults).map (·.hash) := by
    rw [hown]
    apply List.map_congr_left
    exact fun cr hcr => toHash32_eq_self_iff.mpr (hshortAll cr hcr)
  have hsynthetic : ∀ log ∈ logs, log.transactionHash ∉
      (regularResults config contractResults).map (·.hash) →
        syntheticTransaction config.chain log ∈ transactions ++
          (unlistedLogs logs (transactions.map (·.hash))).map
            (syntheticTransaction config.chain) := by
    intro log hlog hnot
    rw [hregular]
    exact List.mem_append_right _ (List.mem_map_of_mem
      (List.mem_filter.mpr ⟨hlog, by simpa using hnot⟩))
  have hnotRegular : ∀ hash, hash ∉ contractResults.map (·.hash) →
      hash ∉ (regularResults config contractResults).map (·.hash) :=
    fun hash hnot hmem => hnot ((List.filter_sublist.map _).subset hmem)
  constructor
  case regular => exact fun cr hcr => ⟨hconvertible cr hcr, hshortAll cr hcr⟩
  case sameOrigin =>
    intro log hlog log' hlog' heq hnot
    have hequal := injOn_of_map_eraseDups_nodup hnodup _
      (hsynthetic log hlog (hnotRegular _ hnot)) _
      (hsynthetic log' hlog' (hnotRegular _ (heq ▸ hnot))) heq
    exact (syntheticTransaction_eq_iff.mp hequal).2
  case skipped =>
    intro cr hcr hskipped log hlog heq
    have hnot : cr.hash ∉ (regularResults config contractResults).map (·.hash) := by
      intro hmem
      obtain ⟨cr', hcr', hhash⟩ := List.mem_map.mp hmem
      obtain ⟨hcr', hregular'⟩ := mem_regularResults.mp hcr'
      exact hregular' (List.inj_on_of_nodup_map hdistinct hcr' hcr hhash ▸ hskipped)
    have hlisted := List.mem_map_of_mem (f := (·.hash)) (List.mem_eraseDups.mpr
      (hsynthetic log hlog (heq ▸ hnot)))
    rw [hcontent] at hlisted
    rcases List.mem_append.mp hlisted with hmem | hmem
    · exact hnot (heq ▸ hmem)
    · have hfilter := (List.mem_filter.mp (List.mem_eraseDups.mp hmem)).2
      have honly : log.transactionHash ∉ contractResults.map (·.hash) := by simpa using hfilter
      exact honly (heq ▸ List.mem_map_of_mem hcr)

/-- The two views of a block agree exactly on uniform inputs. -/
theorem sameTransactions_iff (config : BlockConfig) (services : BlockServices)
    (contractResults : List MirrorNodeContractResult) (records : List MirrorNodeLog)
    (hdistinct : (contractResults.map (·.hash)).Nodup) :
    SameTransactions config services contractResults (records.map Log.ofRecord) ↔
      Uniform config contractResults (records.map Log.ofRecord) :=
  ⟨uniform_of_sameTransactions hdistinct fun _ hlog => length_transactionHash_le hlog,
    sameTransactions_of_uniform hdistinct⟩

end Agreement

section Examples

/-- No status is skipped, addresses are not resolved and no fee or root hash fails. -/
def exampleConfig : BlockConfig where
  hederaSpecificRevertStatuses := ["WRONG_NONCE"]
  ethGetTransactionCountMaxBlockRange := 1000
  chain := "0x12a"

def exampleServices : BlockServices where
  resolveEvmAddress address _ := address
  gasPrice := .ok "0x1"
  getGasPriceInWeibars _ := .ok 1
  trieRoot _ := .ok "0x2"
  buildLogsBloom _ _ := EMPTY_BLOOM

/-- A log of a transfer of a token, one of several of its transaction. -/
def exampleRecord (address : String) (index : ℕ) : MirrorNodeLog where
  address
  blockHash := "0xb1"
  blockNumber := 7
  data := "0x"
  index
  timestamp := 1700000000 * 10 ^ 9
  topics := []
  transactionHash := "0xc1"
  transactionIndex := 0

/-- A contract call. -/
def exampleResult : MirrorNodeContractResult where
  address := "0xa3"
  amount := some 0
  bloom := "0x"
  callResult := "0x"
  contractId := none
  createdContractIds := []
  errorMessage := none
  fromAddress := "0xa4"
  functionParameters := "0x"
  gasLimit := some 21000
  gasUsed := some 21000
  toAddress := some "0xa3"
  hash := "0x" ++ String.ofList (List.replicate 64 'c')
  blockHash := "0xb1"
  blockNumber := 7
  result := "SUCCESS"
  transactionIndex := 1
  status := "0x1"
  blockGasUsed := 21000
  chainId := none
  gasPrice := none
  maxFeePerGas := none
  maxPriorityFeePerGas := none
  r := none
  s := none
  type := some 0
  v := none
  nonce := some 3
  root := none

/-- A call and one that was rejected before it ran. -/
def exampleResults : List MirrorNodeContractResult :=
  [exampleResult, { exampleResult with
    hash := "0x" ++ String.ofList (List.replicate 64 'd')
    result := "WRONG_NONCE"
    transactionIndex := 2 }]

/-- A log of the call and two of a transfer of a token. -/
def exampleRecords : List MirrorNodeLog :=
  [exampleRecord "0xa1" 0, exampleRecord "0xa1" 1,
    { exampleRecord "0xa3" 2 with transactionHash := exampleResult.hash }]

private theorem uniform_exampleRecords :
    Uniform exampleConfig exampleResults (exampleRecords.map Log.ofRecord) where
  regular := by
    have hregular : regularResults exampleConfig exampleResults = [exampleResult] := by
      decide +kernel
    rw [hregular]
    intro cr hcr
    obtain rfl := List.mem_singleton.mp hcr
    refine ⟨⟨fun type h => ?_, fun amount h => ?_⟩, by decide +kernel⟩
    · cases h
      decide
    · cases h
      decide
  sameOrigin := by
    unfold SameOrigin
    decide +kernel
  skipped := by
    decide +kernel

theorem sameTransactions_of_call_and_token :
    SameTransactions exampleConfig exampleServices exampleResults
      (exampleRecords.map Log.ofRecord) :=
  (sameTransactions_iff exampleConfig exampleServices exampleResults exampleRecords
    (by decide +kernel)).mpr uniform_exampleRecords

/-- A synthetic transaction with logs of two tokens is listed twice among the objects. -/
theorem synthetic_transaction_listed_twice :
    ¬SameTransactions exampleConfig exampleServices []
      ([exampleRecord "0xa1" 0, exampleRecord "0xa2" 1].map Log.ofRecord) := by
  rintro ⟨view, hashes, hobjects, hhashes, hlist, _⟩
  have htwice : (transactionArray exampleConfig exampleServices true []
      ([exampleRecord "0xa1" 0, exampleRecord "0xa2" 1].map Log.ofRecord)).bind
        BlockTransactions.hashList = .ok ["0xc1", "0xc1"] := by decide +kernel
  have honce : transactionArray exampleConfig exampleServices false []
      ([exampleRecord "0xa1" 0, exampleRecord "0xa2" 1].map Log.ofRecord) =
        .ok (.hashes ["0xc1"]) := by decide +kernel
  rw [hobjects] at htwice
  rw [honce] at hhashes
  have hone : hashes = ["0xc1"] := (BlockTransactions.hashes.inj (Except.ok.inj hhashes)).symm
  have htwo : hashes = ["0xc1", "0xc1"] := Except.ok.inj (hlist.symm.trans htwice)
  rw [hone] at htwo
  cases htwo

end Examples

end JsonRpcRelay.Blocks

import JsonRpcRelay.Blocks.TransactionService

/-!
# One transaction, one object

A transaction is returned by its hash, by its place in a block and inside a block.  The four
objects of a contract result differ in the receiver and the chain id only, which every path
sets on its own.
-/

namespace JsonRpcRelay.Blocks

open constants Js Mirror Framework Common

section Fields

/-- Set what the paths set on their own. -/
def Transaction.withParties (transaction : Transaction) (toAddress chainId : Option String) :
    Transaction :=
  { transaction with
    toAddress := toAddress.map fun address => substring address 0 42
    chainId := if chainId = some EMPTY_HEX then none else chainId }

private theorem createTransactionFromContractResult_with (cr : MirrorNodeContractResult)
    (toAddress chainId : Option String) :
    createTransactionFromContractResult { cr with toAddress, chainId } =
      (createTransactionFromContractResult cr).map
        (Option.map fun transaction => transaction.withParties toAddress chainId) := by
  simp only [createTransactionFromContractResult]
  cases tinybarsToWeibars cr.amount true with
  | error e => rfl
  | ok value =>
    rcases cr.type with _ | _ | _ | _ | _ <;> rfl

private theorem withParties_eq_iff {transaction : Transaction} {a b c d : Option String} :
    transaction.withParties a c = transaction.withParties b d ↔
      (a.map fun address => substring address 0 42) = (b.map fun address => substring address 0 42) ∧
      (if c = some EMPTY_HEX then none else c) = if d = some EMPTY_HEX then none else d := by
  simp only [Transaction.withParties, Transaction.mk.injEq, true_and, and_true]
  tauto

end Fields

variable (config : BlockConfig) (services : BlockServices) (client : LookupClient)

section Objects

/-- The objects of a block with a hash. -/
def Block.objectsWithHash (block : Block) (hash : String) : List Transaction :=
  match block.transactions with
  | .hashes _ => []
  | .objects transactions => (transactions.filterMap id).filter fun t => t.hash = hash

/-- The block with its objects, whether it was asked for by its hash or by its number, holds one
object with this hash, and it is returned by the hash as well. -/
def EntryIsObject (block : MirrorNodeBlock) (hash : String) : Prop :=
  ∀ result, getBlock config services true (some block) (client.contractResultsOf block)
      (client.logsOf block) = .ok (some result) →
    ∃ transaction, getTransactionByHash config services client hash = .ok (some transaction) ∧
      result.objectsWithHash hash = [transaction]

/-- The objects of a contract result are equal however they are asked for. -/
structure OneObject (block : MirrorNodeBlock) (cr : MirrorNodeContractResult) : Prop where
  byBlockHash : ∀ blockHash transactionIndex, client.getBlock blockHash = some block →
    bigIntOfHex transactionIndex = cr.transactionIndex →
      (getTransactionByBlockHashAndIndex services client blockHash transactionIndex).toOption =
        (getTransactionByHash config services client cr.hash).toOption
  byBlockNumber : ∀ blockNumOrTag transactionIndex,
    translateBlockTag client blockNumOrTag = .ok block.number →
      bigIntOfHex transactionIndex = cr.transactionIndex →
        (getTransactionByBlockNumberAndIndex services client blockNumOrTag
          transactionIndex).toOption =
            (getTransactionByHash config services client cr.hash).toOption
  inBlock : EntryIsObject config services client block cr.hash

/-- The record leaves no choice to the paths: it names its chain, and it has no receiver if its
transaction created the contract. -/
structure SameParties (cr : MirrorNodeContractResult) : Prop where
  chainId : cr.chainId ≠ none ∧ cr.chainId ≠ some ""
  receiver : createsContract cr → cr.toAddress = none

end Objects

section Paths

variable {config services client}

/-- The object of a contract result before the receiver and the chain id are set. -/
private def objectOf (services : BlockServices) (cr : MirrorNodeContractResult) :
    Except RelayError (Option Transaction) :=
  createTransactionFromContractResult
    { cr with fromAddress := services.resolveEvmAddress cr.fromAddress [.account] }

private def resolvedTo (services : BlockServices) (cr : MirrorNodeContractResult) :
    Option String :=
  cr.toAddress.map fun address => services.resolveEvmAddress address allTypes

variable (services) in
private theorem objectOf_some_iff {cr : MirrorNodeContractResult} :
    (∃ transaction, objectOf services cr = .ok (some transaction)) ↔ Convertible cr :=
  createTransactionFromContractResult_some_iff

variable (config services) in
private theorem getTransactionByHash_of_served {hash : String} {details : ContractResultDetails}
    (h : client.getContractResult hash = some details) :
    getTransactionByHash config services client hash =
      (objectOf services details.toMirrorNodeContractResult).map (Option.map fun transaction =>
        transaction.withParties
          (if createsContract details.toMirrorNodeContractResult then none
            else resolvedTo services details.toMirrorNodeContractResult)
          (chainIdOrDefault config details.chainId)) := by
  simp only [getTransactionByHash, h]
  exact createTransactionFromContractResult_with
    { details.toMirrorNodeContractResult with
      fromAddress := services.resolveEvmAddress details.fromAddress [.account] } _ _

private theorem getTransactionByIndex_of_served {params : ContractResultsParams}
    {transactionIndex : String} {cr : MirrorNodeContractResult}
    (h : (client.getContractResults { params with
      transactionIndex := some (bigIntOfHex transactionIndex) }).head? = some cr) :
    getTransactionByBlockHashOrBlockNumAndIndex services client params transactionIndex =
      (objectOf services cr).map (Option.map fun transaction =>
        transaction.withParties (resolvedTo services cr) cr.chainId) := by
  obtain ⟨rest, hrest⟩ := List.head?_eq_some_iff.mp h
  simp only [getTransactionByBlockHashOrBlockNumAndIndex, hrest]
  exact createTransactionFromContractResult_with
    { cr with fromAddress := services.resolveEvmAddress cr.fromAddress [.account] } _ _

private theorem createTransaction_resolveParties (cr : MirrorNodeContractResult) :
    createTransactionFromContractResult (resolveParties config services cr) =
      (objectOf services cr).map (Option.map fun transaction =>
        transaction.withParties (resolvedTo services cr) (chainIdOrDefault config cr.chainId)) :=
  createTransactionFromContractResult_with
    { cr with fromAddress := services.resolveEvmAddress cr.fromAddress [.account] } _ _

private theorem toOption_mapError {α ε ε' : Type} (x : Except ε α) (f : ε → ε') :
    (x.mapError f).toOption = x.toOption := by
  cases x <;> rfl

/-- Two views of one object agree if it is not there or both show the same. -/
private theorem toOption_map_eq_iff {α β ε : Type} {x : Except ε (Option α)} {f g : α → β} :
    (x.map (Option.map f)).toOption = (x.map (Option.map g)).toOption ↔
      ∀ a, x = .ok (some a) → f a = g a := by
  match x with
  | .error e => simp [Except.map, Except.toOption]
  | .ok none => simp [Except.map, Except.toOption]
  | .ok (some a) => simp [Except.map, Except.toOption]

/-- The chain id of the relay is a hexadecimal number, so it is not mistaken for a missing one. -/
private theorem chainId_eq_iff (hchain : isHex config.chain) (chainId : Option String) :
    (if chainId = some EMPTY_HEX then none else chainId) =
        (if chainIdOrDefault config chainId = some EMPTY_HEX then none
          else chainIdOrDefault config chainId) ↔
      chainId ≠ none ∧ chainId ≠ some "" := by
  have hprefix : config.chain ≠ EMPTY_HEX := by
    rintro h
    rw [h] at hchain
    exact absurd hchain (by decide)
  have hempty : config.chain ≠ "" := by
    rintro h
    rw [h] at hchain
    exact absurd hchain (by decide)
  cases chainId with
  | none => simp [chainIdOrDefault, hprefix]
  | some chainId =>
    by_cases h : chainId = ""
    · simp [chainIdOrDefault, h, EMPTY_HEX, Ne.symm hempty]
    · simp [chainIdOrDefault, h]

private theorem receiver_eq_iff (cr : MirrorNodeContractResult) :
    ((resolvedTo services cr).map fun address => substring address 0 42) =
        ((if createsContract cr then none else resolvedTo services cr).map fun address =>
          substring address 0 42) ↔
      (createsContract cr → cr.toAddress = none) := by
  by_cases h : createsContract cr
  · simp [h, resolvedTo]
  · simp [h]

/-- The index path and the hash path show the same exactly if the record leaves no choice. -/
private theorem index_eq_hash_iff (hchain : isHex config.chain) (cr : MirrorNodeContractResult) :
    (((objectOf services cr).map (Option.map fun transaction =>
        transaction.withParties (resolvedTo services cr) cr.chainId)).toOption =
      ((objectOf services cr).map (Option.map fun transaction =>
        transaction.withParties (if createsContract cr then none else resolvedTo services cr)
          (chainIdOrDefault config cr.chainId))).toOption) ↔
      (Convertible cr → SameParties cr) := by
  rw [toOption_map_eq_iff, ← objectOf_some_iff services]
  simp only [withParties_eq_iff, receiver_eq_iff, chainId_eq_iff hchain]
  constructor
  · rintro h ⟨transaction, htransaction⟩
    exact ⟨(h transaction htransaction).2, (h transaction htransaction).1⟩
  · intro h transaction htransaction
    obtain ⟨hchainId, hreceiver⟩ := h ⟨transaction, htransaction⟩
    exact ⟨hreceiver, hchainId⟩

end Paths

section Entries

variable {config services client}

/-- A block that is returned with its objects lists those of the contract results and then the
synthetic ones. -/
theorem objects_of_getBlock {block : MirrorNodeBlock} {contractResults : List
    MirrorNodeContractResult} {records : List MirrorNodeLog} {result : Block}
    (h : getBlock config services true (some block) contractResults records =
      .ok (some result)) :
    ∃ transactions : List Transaction,
      prepareTransactionObjects config services contractResults = .ok (transactions.map some) ∧
      result.transactions = .objects ((transactions ++
        (unlistedLogs (records.map Log.ofRecord) (transactions.map (·.hash))).map
          (syntheticTransaction config.chain)).eraseDups.map some) := by
  obtain ⟨harray, hashes, hhashes⟩ := transactionArray_of_getBlock h
  obtain ⟨transactions, hprepared⟩ := exists_prepared harray hhashes
  rw [transactionArray_true_of_ok hprepared] at harray
  exact ⟨transactions, hprepared, (Except.ok.inj harray).symm⟩

private theorem objectsWithHash_of_getBlock {block : MirrorNodeBlock} {contractResults : List
    MirrorNodeContractResult} {records : List MirrorNodeLog} {result : Block}
    (h : getBlock config services true (some block) contractResults records =
      .ok (some result)) (hash : String) :
    ∃ transactions : List Transaction,
      prepareTransactionObjects config services contractResults = .ok (transactions.map some) ∧
      result.objectsWithHash hash =
        (transactions.filter (fun t => t.hash = hash) ++
          ((unlistedLogs (records.map Log.ofRecord) (transactions.map (·.hash))).map
            (syntheticTransaction config.chain)).filter fun t => t.hash = hash).eraseDups := by
  obtain ⟨transactions, hprepared, hresult⟩ := objects_of_getBlock h
  refine ⟨transactions, hprepared, ?_⟩
  rw [Block.objectsWithHash, hresult]
  simp only [List.filterMap_map, Function.comp_def, id_eq, List.filterMap_some]
  rw [filter_eraseDups, List.filter_append]

private theorem filter_unlisted_eq_nil {logs : List Log} {hashes : List String} {hash : String}
    (h : hash ∈ hashes) : ((unlistedLogs logs hashes).map
      (syntheticTransaction config.chain)).filter (fun t => t.hash = hash) = [] := by
  apply List.filter_eq_nil_iff.mpr
  intro t ht heq
  obtain ⟨log, hlog, rfl⟩ := List.mem_map.mp ht
  have hunlisted : log.transactionHash ∉ hashes := by
    simpa using (List.mem_filter.mp hlog).2
  have hhash : log.transactionHash = hash := of_decide_eq_true heq
  exact hunlisted (hhash ▸ h)

private theorem objectsWithHash_of_regular {block : MirrorNodeBlock} {result : Block}
    (hserves : Serves client block) {cr : MirrorNodeContractResult}
    (hcr : cr ∈ regularResults config (client.contractResultsOf block)) (hlength : cr.hash.length = 66)
    (h : getBlock config services true (some block) (client.contractResultsOf block)
      (client.logsOf block) = .ok (some result)) :
    ∃ transaction, createTransactionFromContractResult (resolveParties config services cr) =
      .ok (some transaction) ∧ result.objectsWithHash cr.hash = [transaction] := by
  obtain ⟨transactions, hprepared, hobjects⟩ := objectsWithHash_of_getBlock h cr.hash
  have hall := mapM_ok_iff.mp hprepared
  -- every object is that of a contract result, and it has its hash
  have horigin : ∀ t ∈ transactions, ∃ cr' ∈ client.contractResultsOf block,
      createTransactionFromContractResult (resolveParties config services cr') = .ok (some t) ∧
        t.hash = toHash32 cr'.hash := by
    intro t ht
    have hmem : (Except.ok (some t) : Except RelayError (Option Transaction)) ∈
        ((transactions.map some).map .ok) := List.mem_map_of_mem (List.mem_map_of_mem ht)
    rw [← hall] at hmem
    obtain ⟨cr', hcr', hobject⟩ := List.mem_map.mp hmem
    refine ⟨cr', (mem_regularResults.mp hcr').1, hobject, ?_⟩
    rw [hash_of_createTransactionFromContractResult hobject]
    rfl
  obtain ⟨object, hmem, hobject⟩ := exists_of_mapM_ok hprepared hcr
  obtain ⟨transaction, hlisted, rfl⟩ := List.mem_map.mp hmem
  have hhash32 : toHash32 cr.hash = cr.hash := toHash32_eq_self_iff.mpr hlength.le
  have hhash : transaction.hash = cr.hash := by
    rw [hash_of_createTransactionFromContractResult hobject]
    exact hhash32
  have hsame : ∀ t ∈ transactions.filter (fun t => t.hash = cr.hash), t = transaction := by
    intro t ht
    obtain ⟨ht, hthash⟩ := List.mem_filter.mp ht
    obtain ⟨cr', hcr', hobject', hhash'⟩ := horigin t ht
    obtain ⟨details, hdetails, rfl⟩ := hserves.single cr (mem_regularResults.mp hcr).1
    obtain ⟨details', hdetails', rfl⟩ := hserves.single cr' hcr'
    have heq : toHash32 details'.hash = toHash32 details.hash := by
      rw [← hhash', of_decide_eq_true hthash, hhash32]
    rw [heq, hdetails] at hdetails'
    obtain rfl := Option.some.inj hdetails'
    exact Option.some.inj (Except.ok.inj (hobject'.symm.trans hobject))
  refine ⟨transaction, hobject, ?_⟩
  have hin : cr.hash ∈ transactions.map (·.hash) := hhash ▸ List.mem_map_of_mem hlisted
  rw [hobjects, filter_unlisted_eq_nil hin, List.append_nil]
  exact eraseDups_eq_singleton (List.mem_filter.mpr ⟨hlisted, by simpa using hhash⟩) hsame

end Entries

section Agreement

variable {config services client}

private theorem oneObject_iff {block : MirrorNodeBlock} (hserves : Serves client block)
    (hchain : isHex config.chain) {cr : MirrorNodeContractResult}
    (hcr : cr ∈ regularResults config (client.contractResultsOf block))
    (hlength : cr.hash.length = 66) :
    OneObject config services client block cr ↔ (Convertible cr → SameParties cr) := by
  have hmem := (mem_regularResults.mp hcr).1
  obtain ⟨details, hdetails, rfl⟩ := hserves.single cr hmem
  rw [toHash32_eq_self_iff.mpr hlength.le] at hdetails
  have hhash := getTransactionByHash_of_served config services hdetails
  have hbyHash : ∀ blockHash transactionIndex, client.getBlock blockHash = some block →
      bigIntOfHex transactionIndex = details.transactionIndex →
        ((getTransactionByBlockHashAndIndex services client blockHash transactionIndex).toOption =
          (getTransactionByHash config services client details.hash).toOption ↔
            (Convertible details.toMirrorNodeContractResult →
              SameParties details.toMirrorNodeContractResult)) := by
    intro blockHash transactionIndex hblock hindex
    have hserved := hserves.atIndexOfHash _ hmem blockHash hblock
    rw [← hindex] at hserved
    rw [getTransactionByBlockHashAndIndex, toOption_mapError,
      getTransactionByIndex_of_served hserved, hhash]
    exact index_eq_hash_iff hchain _
  constructor
  · intro h
    exact (hbyHash block.hash (numberTo0x details.transactionIndex) hserves.blockByHash
      (bigIntOfHex_numberTo0x _)).mp (h.byBlockHash _ _ hserves.blockByHash
        (bigIntOfHex_numberTo0x _))
  · intro h
    constructor
    · exact fun blockHash transactionIndex hblock hindex =>
        (hbyHash blockHash transactionIndex hblock hindex).mpr h
    · intro blockNumOrTag transactionIndex htag hindex
      have hserved := hserves.atIndexOfNumber _ hmem
      rw [← hindex] at hserved
      rw [getTransactionByBlockNumberAndIndex, htag]
      simp only [bind, Except.bind]
      rw [toOption_mapError, getTransactionByIndex_of_served hserved, hhash]
      exact (index_eq_hash_iff hchain _).mpr h
    · intro result hresult
      obtain ⟨transaction, hobject, hentries⟩ :=
        objectsWithHash_of_regular hserves hcr hlength hresult
      refine ⟨transaction, ?_, hentries⟩
      have hconvertible :
          Convertible (resolveParties config services details.toMirrorNodeContractResult) :=
        createTransactionFromContractResult_some_iff.mp ⟨transaction, hobject⟩
      have hparties : SameParties details.toMirrorNodeContractResult := h hconvertible
      rw [createTransaction_resolveParties] at hobject
      rw [hhash, ← hobject]
      congr 3
      funext transaction
      exact (withParties_eq_iff.mpr ⟨(receiver_eq_iff _).mpr hparties.receiver, rfl⟩).symm

/-- The object of a log carries an empty signature, the entry in the block a signature of
zero. -/
private theorem not_entryIsObject {block : MirrorNodeBlock} (hserves : Serves client block)
    {record : MirrorNodeLog} (hrecord : record ∈ client.logsOf block)
    (honly : ∀ cr ∈ client.contractResultsOf block,
      toHash32 cr.hash ≠ toHash32 record.transactionHash) {result : Block}
    (hresult : getBlock config services true (some block) (client.contractResultsOf block)
      (client.logsOf block) = .ok (some result)) :
    ¬EntryIsObject config services client block (toHash32 record.transactionHash) := by
  intro h
  obtain ⟨transaction, hhash, hentries⟩ := h result hresult
  have hfromLog : transaction.r = EMPTY_HEX := by
    rw [getTransactionByHash, hserves.onlyInLogs record hrecord honly] at hhash
    simp only at hhash
    split at hhash
    · cases hhash
    · obtain rfl := Option.some.inj (Except.ok.inj hhash)
      rfl
  have hentry : transaction ∈ result.objectsWithHash (toHash32 record.transactionHash) := by
    rw [hentries]
    exact List.mem_singleton_self transaction
  obtain ⟨transactions, hprepared, hobjects⟩ := objectsWithHash_of_getBlock hresult
    (toHash32 record.transactionHash)
  rw [hobjects] at hentry
  rcases List.mem_append.mp (List.mem_eraseDups.mp hentry) with hregular | hsynthetic
  · obtain ⟨hlisted, heq⟩ := List.mem_filter.mp hregular
    have hin := List.mem_map_of_mem (f := (·.hash)) hlisted
    rw [(of_prepareTransactionObjects_ok hprepared).2] at hin
    obtain ⟨cr, hcr, hcrHash⟩ := List.mem_map.mp hin
    exact honly cr (mem_regularResults.mp hcr).1 (hcrHash.trans (of_decide_eq_true heq))
  · obtain ⟨log, _, rfl⟩ := List.mem_map.mp (List.mem_filter.mp hsynthetic).1
    have hzero : ZERO_HEX ≠ EMPTY_HEX := by decide
    exact hzero hfromLog

/-- The objects of a contract result are equal exactly if the record leaves no choice to the
paths, and the objects of a transaction known only from its logs never are. -/
theorem one_object_iff (config : BlockConfig) (services : BlockServices) (client : LookupClient)
    (block : MirrorNodeBlock) (hserves : Serves client block) (hchain : isHex config.chain) :
    (∀ cr ∈ regularResults config (client.contractResultsOf block), cr.hash.length = 66 →
      (OneObject config services client block cr ↔ (Convertible cr → SameParties cr))) ∧
    ∀ record ∈ client.logsOf block, (∀ cr ∈ client.contractResultsOf block,
      toHash32 cr.hash ≠ toHash32 record.transactionHash) → ∀ result,
        getBlock config services true (some block) (client.contractResultsOf block)
          (client.logsOf block) = .ok (some result) →
        ¬EntryIsObject config services client block (toHash32 record.transactionHash) :=
  ⟨fun _ hcr hlength => oneObject_iff hserves hchain hcr hlength,
    fun _ hrecord honly _ hresult => not_entryIsObject hserves hrecord honly hresult⟩

theorem one_object_iff_of_call :
    (∀ cr ∈ regularResults exampleConfig (exampleClient.contractResultsOf exampleBlock),
      cr.hash.length = 66 → (OneObject exampleConfig exampleServices exampleClient exampleBlock cr ↔
        (Convertible cr → SameParties cr))) ∧
    ∀ record ∈ exampleClient.logsOf exampleBlock,
      (∀ cr ∈ exampleClient.contractResultsOf exampleBlock,
        toHash32 cr.hash ≠ toHash32 record.transactionHash) → ∀ result,
          getBlock exampleConfig exampleServices true (some exampleBlock)
            (exampleClient.contractResultsOf exampleBlock) (exampleClient.logsOf exampleBlock) =
              .ok (some result) →
          ¬EntryIsObject exampleConfig exampleServices exampleClient exampleBlock
            (toHash32 record.transactionHash) :=
  one_object_iff exampleConfig exampleServices exampleClient exampleBlock serves_exampleClient
    (by decide)

/-- The index path leaves out the chain id that the record of the call does not name, and the
block lists the transfer with another signature. -/
theorem call_and_transfer_with_two_objects :
    Serves exampleClient exampleBlock ∧
    exampleResult ∈ regularResults exampleConfig (exampleClient.contractResultsOf exampleBlock) ∧
    exampleResult.hash.length = 66 ∧
    ¬OneObject exampleConfig exampleServices exampleClient exampleBlock exampleResult ∧
    ¬EntryIsObject exampleConfig exampleServices exampleClient exampleBlock "0xc1" := by
  refine ⟨serves_exampleClient, by decide +kernel, by decide, ?_, ?_⟩
  · intro h
    have hindex := h.byBlockHash "0xb1" "0x1" rfl (by decide)
    revert hindex
    decide +kernel
  · have hrecord : exampleRecord "0xa1" 0 ∈ exampleClient.logsOf exampleBlock := by
      decide +kernel
    exact not_entryIsObject serves_exampleClient hrecord (by decide +kernel) rfl

end Agreement

end JsonRpcRelay.Blocks

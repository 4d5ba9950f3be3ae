import JsonRpcRelay.Blocks.Receipts
import JsonRpcRelay.Framework.BloomFilter

/-!
# The blooms of synthetic transactions

`buildLogsBloom` adds an address and topics to a filter of 2048 bits.  It is called for a
synthetic receipt and for the input of the root of the receipts, each time with one address and
the topics of one log.
-/

namespace JsonRpcRelay.Blocks

open constants Js Framework

section LogsBloomUtils

/-- A digest of 32 bytes. -/
abbrev Digest := Vector UInt8 32

def BYTE_SIZE : ℕ := 256

def MASK : ℕ := 0x7ff

/-- `new DataView(item.buffer).getUint16(i * 2)`. -/
def getUint16 (item : Digest) (i : Fin 3) : ℕ :=
  256 * item[2 * i.val].toNat + item[2 * i.val + 1].toNat

/-- The three positions of an item. -/
def locations (item : Digest) : List ℕ := (List.finRange 3).map fun i => MASK &&& getUint16 item i

/-- `Buffer.from(bytes).toString('hex')`. -/
def bytesToHex (bytes : List UInt8) : String :=
  String.ofList (bytes.flatMap fun b => [(b.toNat / 16).digitChar, (b.toNat % 16).digitChar])

/-- The digest is an arbitrary function of the item.  The source passes it through its
hexadecimal text. -/
def buildLogsBloom (keccak256 : String → Digest) (address : String) (topics : List String) :
    String :=
  if address = "" then EMPTY_BLOOM
  else if topics = [] then EMPTY_BLOOM
  else
    let items := address :: topics
    let bitvector := items.foldl
      (fun bitvector item => (locations (keccak256 item)).foldl setBit bitvector)
      (List.replicate BYTE_SIZE 0)
    prepend0x (bytesToHex bitvector)

end LogsBloomUtils

section Text

private theorem byte_digits (b : UInt8) (n : ℕ) :
    16 * (16 * n + (hexDigit? (b.toNat / 16).digitChar).getD 0) +
      (hexDigit? (b.toNat % 16).digitChar).getD 0 = 256 * n + b.toNat := by
  have hb := b.toNat_lt
  rw [hexDigit?_digitChar (by omega), hexDigit?_digitChar (by omega), Option.getD_some,
    Option.getD_some]
  omega

private theorem ofHexDigits_bytesToHex (bytes : List UInt8) :
    ofHexDigits (bytesToHex bytes).toList = ofBytes bytes := by
  rw [bytesToHex, String.toList_ofList]
  induction bytes using List.reverseRecOn with
  | nil => rfl
  | append_singleton bytes b ih =>
    rw [List.flatMap_append, ofHexDigits_append, ih, ofBytes_concat]
    exact byte_digits b _

/-- The text of bytes has no prefix yet, as its second character is a digit. -/
private theorem prepend0x_bytesToHex (bytes : List UInt8) :
    prepend0x (bytesToHex bytes) = EMPTY_HEX ++ bytesToHex bytes := by
  rw [prepend0x, if_neg]
  cases bytes with
  | nil => decide
  | cons b bytes =>
    have hlow : ('x' : Char) ≠ (b.toNat % 16).digitChar := by
      have hlt : b.toNat % 16 < 16 := Nat.mod_lt _ (by decide)
      revert hlt
      generalize b.toNat % 16 = d
      revert d
      decide
    simp [bytesToHex, startsWith, EMPTY_HEX, List.isPrefixOf, hlow]

/-- The number in the text of a bloom is the number that its bytes stand for. -/
theorem bigIntOfHex_prepend0x_bytesToHex (bytes : List UInt8) :
    bigIntOfHex (prepend0x (bytesToHex bytes)) = ofBytes bytes := by
  rw [prepend0x_bytesToHex, bigIntOfHex, String.toList_append]
  exact ofHexDigits_bytesToHex bytes

private theorem ofHexDigits_replicate_zero (n : ℕ) : ofHexDigits (List.replicate n '0') = 0 := by
  induction n with
  | zero => rfl
  | succ n ih => simpa [ofHexDigits, List.replicate_succ, hexDigit?] using ih

private theorem bigIntOfHex_EMPTY_BLOOM : bigIntOfHex EMPTY_BLOOM = 0 := by
  have hdrop : ∀ digits : List Char, ("0x".toList ++ digits).drop 2 = digits := fun _ => rfl
  rw [bigIntOfHex, EMPTY_BLOOM, String.toList_append, hdrop, String.toList_ofList,
    ofHexDigits_replicate_zero]

end Text

section Membership

variable {keccak256 : String → Digest}

private theorem lt_of_mem_locations {item : Digest} {loc : ℕ} (h : loc ∈ locations item) :
    loc < 2048 := by
  obtain ⟨i, _, rfl⟩ := List.mem_map.mp h
  exact lt_of_le_of_lt Nat.and_le_left (by decide)

/-- The test of a client: the bits of the item are set in the number that the text stands
for. -/
def BloomContains (keccak256 : String → Digest) (bloom item : String) : Prop :=
  MayContain (locations ∘ keccak256) {loc | (bigIntOfHex bloom).testBit loc} item

private theorem not_bloomContains_EMPTY_BLOOM (item : String) :
    ¬BloomContains keccak256 EMPTY_BLOOM item := by
  intro h
  have hbit := h (MASK &&& getUint16 (keccak256 item) 0)
    (List.mem_map.mpr ⟨0, List.mem_finRange 0, rfl⟩)
  simp [bigIntOfHex_EMPTY_BLOOM] at hbit

private theorem testBit_bitvector (items : List String) (bitvector : List UInt8)
    (hlength : bitvector.length = BYTE_SIZE) (loc : ℕ) :
    (ofBytes (items.foldl (fun bitvector item =>
        (locations (keccak256 item)).foldl setBit bitvector) bitvector)).testBit loc = true ↔
      loc ∈ bloomOf (locations ∘ keccak256) items ∨ (ofBytes bitvector).testBit loc = true := by
  induction items generalizing bitvector with
  | nil => simp [bloomOf]
  | cons item items ih =>
    have hlt : ∀ l ∈ locations (keccak256 item), l < 8 * bitvector.length := by
      intro l hl
      have h2048 := lt_of_mem_locations hl
      simp only [BYTE_SIZE] at hlength
      omega
    have hsize : ((locations (keccak256 item)).foldl setBit bitvector).length = BYTE_SIZE := by
      rw [length_foldl_setBit, hlength]
    rw [List.foldl_cons, ih _ hsize, testBit_foldl_setBit bitvector hlt]
    simp only [bloomOf, Set.mem_ofPred_eq, Function.comp_apply, List.exists_mem_cons_iff]
    rw [or_left_comm, or_assoc]

private theorem bloomContains_buildLogsBloom_iff (address : String) (topics : List String)
    (item : String) : BloomContains keccak256 (buildLogsBloom keccak256 address topics) item ↔
      address ≠ "" ∧ topics ≠ [] ∧
        MayContain (locations ∘ keccak256)
          (bloomOf (locations ∘ keccak256) (address :: topics)) item := by
  by_cases haddress : address = ""
  · simp [buildLogsBloom, haddress, not_bloomContains_EMPTY_BLOOM]
  · by_cases htopics : topics = []
    · simp [buildLogsBloom, htopics, not_bloomContains_EMPTY_BLOOM]
    · have hbits : {loc | (bigIntOfHex (buildLogsBloom keccak256 address topics)).testBit loc} =
          bloomOf (locations ∘ keccak256) (address :: topics) := by
        ext loc
        rw [Set.mem_ofPred_eq, buildLogsBloom, if_neg haddress, if_neg htopics,
          bigIntOfHex_prepend0x_bytesToHex, testBit_bitvector _ _ List.length_replicate]
        simp
      rw [BloomContains, hbits]
      simp [haddress, htopics]

end Membership

section Coverage

/-- A client that tests the bloom passes by none of the logs. -/
def MissesNone (keccak256 : String → Digest) (bloom : String) (logs : List Log) : Prop :=
  ∀ log ∈ logs, ∀ item ∈ log.address :: log.topics, BloomContains keccak256 bloom item

def hashServices (services : BlockServices) (keccak256 : String → Digest) : BlockServices :=
  { services with buildLogsBloom := buildLogsBloom keccak256 }

/-- Both blooms of a transaction without a contract result hold all of its logs: the one in the
input of the root of the receipts, and that of the synthetic receipt. -/
structure BloomsComplete (keccak256 : String → Digest) (services : BlockServices)
    (contractResults : List Mirror.MirrorNodeContractResult) (logs : List Log) (txHash : String) :
    Prop where
  rootHash : ∀ txHashes receipts receipt,
    buildReceiptRootHashes (hashServices services keccak256) txHashes contractResults logs =
      .ok receipts → (txHash, receipt) ∈ txHashes.zip receipts →
        MissesNone keccak256 receipt.logsBloom (logsOf logs txHash)
  syntheticReceipt : ∀ gasPriceForTimestamp receipt,
    createSyntheticReceipt (buildLogsBloom keccak256) (logsOf logs txHash) gasPriceForTimestamp =
      .ok receipt → MissesNone keccak256 receipt.logsBloom (logsOf logs txHash)

/-- The topics of the first log of the transaction cover all of its logs, together with the
address of the first log of the block and together with the address of the first log itself. -/
def FirstLogSuffices (covers : List String → String → Prop) (logs : List Log) (txHash : String) :
    Prop :=
  ∃ blockFirst first, logs.head? = some blockFirst ∧ (logsOf logs txHash).head? = some first ∧
    blockFirst.address ≠ "" ∧ first.address ≠ "" ∧ first.topics ≠ [] ∧
    ∀ log ∈ logsOf logs txHash, ∀ item ∈ log.address :: log.topics,
      covers (blockFirst.address :: first.topics) item ∧
        covers (first.address :: first.topics) item

variable {keccak256 : String → Digest} {services : BlockServices}
  {contractResults : List Mirror.MirrorNodeContractResult} {logs : List Log} {txHash : String}

variable (services) in
private theorem logsBloom_buildReceiptRootHash {blockFirst first : Log} {rest rest' : List Log}
    (hresult : txHash ∉ contractResults.map (·.hash)) (hlogs : logs = blockFirst :: rest)
    (hfirst : logsOf logs txHash = first :: rest') :
    ∃ receipt, buildReceiptRootHash services contractResults logs txHash = .ok receipt ∧
      receipt.logsBloom = services.buildLogsBloom blockFirst.address first.topics := by
  have hnone : contractResults.filter (fun cr => cr.hash = txHash) = [] := by
    apply List.filter_eq_nil_iff.mpr
    intro cr hcr heq
    exact hresult (List.mem_map.mpr ⟨cr, hcr, by simpa using heq⟩)
  subst hlogs
  rw [logsOf] at hfirst
  simp only [buildReceiptRootHash, hnone, hfirst]
  exact ⟨_, rfl, rfl⟩

private theorem logsBloom_createSyntheticReceipt (bloom : String → List String → String)
    {first : Log} {rest' : List Log} (hfirst : logsOf logs txHash = first :: rest')
    (gasPriceForTimestamp : String) :
    ∃ receipt, createSyntheticReceipt bloom (logsOf logs txHash) gasPriceForTimestamp =
      .ok receipt ∧ receipt.logsBloom = bloom first.address first.topics := by
  rw [hfirst]
  exact ⟨_, rfl, rfl⟩

private theorem missesNone_buildLogsBloom_iff (address : String) (topics : List String) :
    MissesNone keccak256 (buildLogsBloom keccak256 address topics) logs ↔
      ∀ log ∈ logs, ∀ item ∈ log.address :: log.topics, address ≠ "" ∧ topics ≠ [] ∧
        MayContain (locations ∘ keccak256)
          (bloomOf (locations ∘ keccak256) (address :: topics)) item := by
  simp only [MissesNone, bloomContains_buildLogsBloom_iff]

private theorem bloomsComplete_iff_missesNone {blockFirst first : Log} {others rest : List Log}
    (h : txHash ∈ hashesOnlyInLogs contractResults logs) (hlogs : logs = blockFirst :: others)
    (hfirst : logsOf logs txHash = first :: rest) :
    BloomsComplete keccak256 services contractResults logs txHash ↔
      MissesNone keccak256 (buildLogsBloom keccak256 blockFirst.address first.topics)
        (logsOf logs txHash) ∧
      MissesNone keccak256 (buildLogsBloom keccak256 first.address first.topics)
        (logsOf logs txHash) := by
  obtain ⟨rootHash, hroot, hrootBloom⟩ := logsBloom_buildReceiptRootHash
    (hashServices services keccak256) (mem_hashesOnlyInLogs.mp h).2 hlogs hfirst
  replace hrootBloom : rootHash.logsBloom =
      buildLogsBloom keccak256 blockFirst.address first.topics := hrootBloom
  constructor
  · intro hcomplete
    constructor
    · have hall : buildReceiptRootHashes (hashServices services keccak256) [txHash]
          contractResults logs = .ok [rootHash] := by
        rw [buildReceiptRootHashes, mapM_ok_iff]
        simp [hroot]
      rw [← hrootBloom]
      exact hcomplete.rootHash [txHash] [rootHash] rootHash hall (by simp)
    · obtain ⟨receipt, hreceipt, hbloom⟩ := logsBloom_createSyntheticReceipt
        (buildLogsBloom keccak256) hfirst ""
      rw [← hbloom]
      exact hcomplete.syntheticReceipt "" receipt hreceipt
  · rintro ⟨hinRoot, hinReceipt⟩
    constructor
    · intro txHashes receipts receipt hreceipts hzip
      have hreceipt : buildReceiptRootHash (hashServices services keccak256) contractResults logs
          txHash = .ok receipt :=
        (List.forall₂_iff_zip.mp (forall₂_of_mapM_ok hreceipts fun _ _ h => h)).2 hzip
      obtain rfl : rootHash = receipt := Except.ok.inj (hroot.symm.trans hreceipt)
      rwa [hrootBloom]
    · intro gasPriceForTimestamp receipt hreceipt
      obtain ⟨receipt', hreceipt', hbloom⟩ := logsBloom_createSyntheticReceipt
        (buildLogsBloom keccak256) hfirst gasPriceForTimestamp
      obtain rfl : receipt' = receipt := Except.ok.inj (hreceipt'.symm.trans hreceipt)
      rwa [hbloom]

/-- Under one hash function the bits have to be covered. -/
theorem bloomsComplete_iff (h : txHash ∈ hashesOnlyInLogs contractResults logs) :
    BloomsComplete keccak256 services contractResults logs txHash ↔
      FirstLogSuffices (fun hashed item => MayContain (locations ∘ keccak256)
        (bloomOf (locations ∘ keccak256) hashed) item) logs txHash := by
  obtain ⟨first, rest, hfirst, _⟩ := exists_logsOf_eq_cons h
  have hmem : first ∈ logsOf logs txHash := hfirst ▸ List.mem_cons_self
  obtain ⟨blockFirst, others, hlogs⟩ :=
    List.exists_cons_of_ne_nil (List.ne_nil_of_mem (mem_logsOf.mp hmem).1)
  rw [bloomsComplete_iff_missesNone h hlogs hfirst, missesNone_buildLogsBloom_iff,
    missesNone_buildLogsBloom_iff]
  constructor
  · rintro ⟨hinRoot, hinReceipt⟩
    obtain ⟨hblockAddress, htopics, _⟩ := hinRoot first hmem _ List.mem_cons_self
    obtain ⟨haddress, _, _⟩ := hinReceipt first hmem _ List.mem_cons_self
    refine ⟨blockFirst, first, by rw [hlogs]; rfl, by rw [hfirst]; rfl, hblockAddress, haddress,
      htopics, ?_⟩
    intro log hlog item hitem
    exact ⟨(hinRoot log hlog item hitem).2.2, (hinReceipt log hlog item hitem).2.2⟩
  · rintro ⟨blockFirst', first', hblock, hhead, hblockAddress, haddress, htopics, hcovers⟩
    obtain rfl : blockFirst = blockFirst' := by simpa [hlogs] using hblock
    obtain rfl : first = first' := by simpa [hfirst] using hhead
    exact ⟨fun log hlog item hitem =>
        ⟨hblockAddress, htopics, (hcovers log hlog item hitem).1⟩,
      fun log hlog item hitem => ⟨haddress, htopics, (hcovers log hlog item hitem).2⟩⟩

/-- What covers under every hash function covers as a list. -/
theorem forall_firstLogSuffices_iff :
    (∀ keccak256 : String → Digest, FirstLogSuffices (fun hashed item =>
        MayContain (locations ∘ keccak256) (bloomOf (locations ∘ keccak256) hashed) item)
          logs txHash) ↔
      FirstLogSuffices (fun hashed item => item ∈ hashed) logs txHash := by
  have hcovers : ∀ (hashed : List String) (item : String),
      (∀ keccak256 : String → Digest, MayContain (locations ∘ keccak256)
        (bloomOf (locations ∘ keccak256) hashed) item) ↔ item ∈ hashed := by
    intro hashed item
    have hone : 1 ∈ locations ((Vector.replicate 32 0).set 1 1) := by decide
    have hzero : 1 ∉ locations (Vector.replicate 32 0) := by decide
    exact forall_mayContain_iff hone hzero
  simp only [← hcovers]
  constructor
  · intro h
    obtain ⟨blockFirst, first, hblock, hfirst, hblockAddress, haddress, htopics, _⟩ :=
      h fun _ => Vector.replicate 32 0
    refine ⟨blockFirst, first, hblock, hfirst, hblockAddress, haddress, htopics, ?_⟩
    intro log hlog item hitem
    have hboth : ∀ keccak256 : String → Digest,
        MayContain (locations ∘ keccak256) (bloomOf (locations ∘ keccak256)
          (blockFirst.address :: first.topics)) item ∧
        MayContain (locations ∘ keccak256) (bloomOf (locations ∘ keccak256)
          (first.address :: first.topics)) item := by
      intro keccak256
      obtain ⟨blockFirst', first', hblock', hfirst', _, _, _, hall⟩ := h keccak256
      obtain rfl := Option.some.inj (hblock.symm.trans hblock')
      obtain rfl := Option.some.inj (hfirst.symm.trans hfirst')
      exact hall log hlog item hitem
    exact ⟨fun keccak256 => (hboth keccak256).1, fun keccak256 => (hboth keccak256).2⟩
  · rintro ⟨blockFirst, first, hblock, hfirst, hblockAddress, haddress, htopics, hall⟩ keccak256
    refine ⟨blockFirst, first, hblock, hfirst, hblockAddress, haddress, htopics, ?_⟩
    intro log hlog item hitem
    exact ⟨(hall log hlog item hitem).1 keccak256, (hall log hlog item hitem).2 keccak256⟩

/-- The blooms of a transaction known only from its logs are complete exactly if its first log
suffices: for one hash function in its bits, for all of them in its address and topics. -/
theorem blooms_complete_iff (services : BlockServices)
    (contractResults : List Mirror.MirrorNodeContractResult) (logs : List Log) (txHash : String)
    (h : txHash ∈ hashesOnlyInLogs contractResults logs) :
    (∀ keccak256, BloomsComplete keccak256 services contractResults logs txHash ↔
      FirstLogSuffices (fun hashed item => MayContain (locations ∘ keccak256)
        (bloomOf (locations ∘ keccak256) hashed) item) logs txHash) ∧
    ((∀ keccak256, BloomsComplete keccak256 services contractResults logs txHash) ↔
      FirstLogSuffices (fun hashed item => item ∈ hashed) logs txHash) := by
  refine ⟨fun _ => bloomsComplete_iff h, ?_⟩
  rw [← forall_firstLogSuffices_iff]
  exact forall_congr' fun _ => bloomsComplete_iff h

/-- Two synthetic transactions in a block, each with one log of its own contract. -/
def exampleTransfers : List Log :=
  [{ exampleRecord "0xa1" 0 with topics := ["0xd1"] },
    { exampleRecord "0xa2" 1 with topics := ["0xd1"], transactionHash := "0xc2",
                                  transactionIndex := 1 }].map Log.ofRecord

theorem blooms_complete_iff_of_transfers :
    (∀ keccak256, BloomsComplete keccak256 exampleServices [] exampleTransfers "0xc1" ↔
      FirstLogSuffices (fun hashed item => MayContain (locations ∘ keccak256)
        (bloomOf (locations ∘ keccak256) hashed) item) exampleTransfers "0xc1") ∧
    ((∀ keccak256, BloomsComplete keccak256 exampleServices [] exampleTransfers "0xc1") ↔
      FirstLogSuffices (fun hashed item => item ∈ hashed) exampleTransfers "0xc1") :=
  blooms_complete_iff exampleServices [] exampleTransfers "0xc1" (by decide)

/-- The bloom of the second transaction holds the contract of the first one instead of its
own. -/
theorem address_missing_from_bloom :
    "0xc2" ∈ hashesOnlyInLogs [] exampleTransfers ∧
      ¬BloomsComplete (fun item => Vector.replicate 32 (if item = "0xa2" then 1 else 0))
        exampleServices [] exampleTransfers "0xc2" := by
  have honly : "0xc2" ∈ hashesOnlyInLogs [] exampleTransfers := by decide
  refine ⟨honly, ?_⟩
  rw [bloomsComplete_iff honly]
  rintro ⟨blockFirst, first, hblock, hfirst, _, _, _, hcovers⟩
  obtain rfl := Option.some.inj hblock
  obtain rfl := Option.some.inj hfirst
  have hlog : Log.ofRecord { exampleRecord "0xa2" 1 with
      topics := ["0xd1"], transactionHash := "0xc2", transactionIndex := 1 } ∈
        logsOf exampleTransfers "0xc2" := by decide
  have hone : 257 ∈ locations (Vector.replicate 32 1) := by decide
  have hzero : 257 ∉ locations (Vector.replicate 32 0) := by decide
  have hcover := (hcovers _ hlog "0xa2" List.mem_cons_self).1
  obtain ⟨item, hitem, hloc⟩ := hcover 257 (by simpa using hone)
  have hother : item ≠ "0xa2" := by
    rintro rfl
    revert hitem
    decide
  exact hzero (by simpa [hother] using hloc)

end Coverage

end JsonRpcRelay.Blocks

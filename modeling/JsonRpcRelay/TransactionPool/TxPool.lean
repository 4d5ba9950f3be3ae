import JsonRpcRelay.Constants
import JsonRpcRelay.Errors
import JsonRpcRelay.Formatters
import JsonRpcRelay.Framework.Indexing
import JsonRpcRelay.Lock.LockService
import JsonRpcRelay.TransactionPool.LocalPendingTransactionStorage

/-!
# The views of the transaction pool

The number of pending transactions, all of them by sender and nonce, and those of one sender by
nonce.
-/

namespace JsonRpcRelay.TransactionPool

open constants Framework
open Lock (normalizeAddress)

section Transactions

structure Signature where
  v : ℕ
  r : String
  s : String
  deriving DecidableEq

/-- A decoded transaction. -/
structure EthersTransaction where
  fromAddress : String
  gasLimit : ℕ
  hash : String
  data : String
  nonce : ℕ
  toAddress : Option String
  value : ℕ
  type : Option ℕ
  signature : Option Signature
  chainId : ℕ
  gasPrice : Option ℕ
  maxFeePerGas : Option ℕ
  maxPriorityFeePerGas : Option ℕ
  deriving DecidableEq

/-- The fields that may be left out are `none` then. -/
structure TxPoolTransaction where
  blockHash : String
  blockNumber : Option String
  transactionIndex : Option String
  fromAddress : String
  gas : String
  hash : String
  input : String
  nonce : String
  toAddress : Option String
  value : String
  type : String
  v : Option String
  r : Option String
  s : Option String
  chainId : Option String
  gasPrice : Option String
  maxFeePerGas : Option String
  maxPriorityFeePerGas : Option String
  deriving DecidableEq

/-- Zero counts as missing. -/
def hexUnlessZero (n : Option ℕ) : Option String := (n.filter (· ≠ 0)).map fun n => numberTo0x n

def TxPoolTransaction.ofEthers (tx : EthersTransaction) : TxPoolTransaction where
  blockHash := ZERO_HEX_32_BYTE
  blockNumber := none
  transactionIndex := none
  fromAddress := tx.fromAddress
  gas := numberTo0x tx.gasLimit
  hash := tx.hash
  input := tx.data
  nonce := numberTo0x tx.nonce
  toAddress := tx.toAddress
  value := numberTo0x tx.value
  type := numberTo0x (tx.type.getD 0)
  v := hexUnlessZero (tx.signature.map (·.v))
  r := tx.signature.map (·.r)
  s := tx.signature.map (·.s)
  chainId := hexUnlessZero tx.chainId
  gasPrice := hexUnlessZero tx.gasPrice
  maxFeePerGas := hexUnlessZero tx.maxFeePerGas
  maxPriorityFeePerGas := hexUnlessZero tx.maxPriorityFeePerGas

/-- `Transaction.from` on the payloads.  The senders are checksummed: two of them that only differ
in the case of letters are the same. -/
structure Decoder where
  decode : String → EthersTransaction
  checksummed : ∀ p q, normalizeAddress (decode p).fromAddress = normalizeAddress (decode q).fromAddress →
    (decode p).fromAddress = (decode q).fromAddress

end Transactions

section Views

abbrev TransactionsByNonce := Finmap fun _ : ℕ => TxPoolTransaction

abbrev TransactionsByAddressAndNonce := Finmap fun _ : String => TransactionsByNonce

structure TxPoolContent where
  pending : TransactionsByAddressAndNonce
  queued : TransactionsByAddressAndNonce

structure TxPoolContentFrom where
  pending : TransactionsByNonce
  queued : TransactionsByNonce

structure TxPoolStatus where
  pending : String
  queued : String

structure TxPoolConfig where
  TXPOOL_API_ENABLED : Bool
  ENABLE_TX_POOL : Bool

def requireTxPoolAPIEnabled (config : TxPoolConfig) : Except RelayError Unit :=
  if !config.TXPOOL_API_ENABLED || !config.ENABLE_TX_POOL then
    .error (.jsonRpcError predefined.UNSUPPORTED_METHOD)
  else .ok ()

/-- The sets of payloads that a storage holds, each under its sender in lower case. -/
structure PendingPool (decoder : Decoder) where
  all : InsertionSet String
  ofAddress : String → InsertionSet String
  stored : ∀ address rlpTx, rlpTx ∈ ofAddress address ↔
    rlpTx ∈ all ∧ normalizeAddress (decoder.decode rlpTx).fromAddress = address

/-- `Number(item.nonce)`. -/
def TxPoolTransaction.nonceNumber (item : TxPoolTransaction) : ℕ := bigIntOfHex item.nonce

def groupByAddressAndNonce : List TxPoolTransaction → TransactionsByAddressAndNonce :=
  indexByTwo TxPoolTransaction.fromAddress TxPoolTransaction.nonceNumber

def groupByNonce : List TxPoolTransaction → TransactionsByNonce :=
  indexBy TxPoolTransaction.nonceNumber

variable (config : TxPoolConfig) {decoder : Decoder} (pool : PendingPool decoder)

def convertRlpEncodedTxToTransactionPoolTx (decoder : Decoder) (rlpTxs : InsertionSet String) :
    List TxPoolTransaction :=
  rlpTxs.elements.map fun rlpTx => .ofEthers (decoder.decode rlpTx)

def content : Except RelayError TxPoolContent := do
  requireTxPoolAPIEnabled config
  return {
    pending := groupByAddressAndNonce (convertRlpEncodedTxToTransactionPoolTx decoder pool.all)
    queued := ∅ }

def contentFrom (address : String) : Except RelayError TxPoolContentFrom := do
  requireTxPoolAPIEnabled config
  return {
    pending := groupByNonce (convertRlpEncodedTxToTransactionPoolTx decoder
      (pool.ofAddress (normalizeAddress address)))
    queued := ∅ }

def status : Except RelayError TxPoolStatus := do
  requireTxPoolAPIEnabled config
  return { pending := numberTo0x pool.all.size, queued := ZERO_HEX }

/-- The entry of the sender that is an address up to the case of letters. -/
def IsEntryOf (pending : TransactionsByAddressAndNonce) (address : String)
    (entry : TransactionsByNonce) : Prop :=
  (∀ sender, normalizeAddress sender = normalizeAddress address → ∀ txs,
    pending.lookup sender = some txs → entry = txs) ∧
  ((∀ sender, normalizeAddress sender = normalizeAddress address → sender ∉ pending) → entry = ∅)

/-- The three views say the same. -/
def ViewsAgree : Prop := ∃ listed counted, content config pool = .ok listed ∧
  status config pool = .ok counted ∧ counted.pending = numberTo0x (countEntries listed.pending) ∧
  ∀ address, ∃ listedFrom, contentFrom config pool address = .ok listedFrom ∧
    IsEntryOf listed.pending address listedFrom.pending

/-- No two payloads have the same sender and the same nonce. -/
def NoncesDiffer : Prop := ∀ p ∈ pool.all, ∀ q ∈ pool.all,
  (decoder.decode p).fromAddress = (decoder.decode q).fromAddress →
    (decoder.decode p).nonce = (decoder.decode q).nonce → p = q

end Views

section Agreement

variable {config : TxPoolConfig} {decoder : Decoder} {pool : PendingPool decoder}

def txOf (decoder : Decoder) (rlpTx : String) : TxPoolTransaction := .ofEthers (decoder.decode rlpTx)

private theorem nonceNumber_txOf (rlpTx : String) :
    (txOf decoder rlpTx).nonceNumber = (decoder.decode rlpTx).nonce :=
  bigIntOfHex_numberTo0x _

private theorem content_of_enabled (h : requireTxPoolAPIEnabled config = .ok ()) :
    content config pool =
      .ok ⟨groupByAddressAndNonce (pool.all.elements.map (txOf decoder)), ∅⟩ := by
  rw [content, h]
  rfl

private theorem contentFrom_of_enabled (h : requireTxPoolAPIEnabled config = .ok ())
    (address : String) :
    contentFrom config pool address = .ok ⟨groupByNonce
      ((pool.ofAddress (normalizeAddress address)).elements.map (txOf decoder)), ∅⟩ := by
  rw [contentFrom, h]
  rfl

private theorem status_of_enabled (h : requireTxPoolAPIEnabled config = .ok ()) :
    status config pool = .ok ⟨numberTo0x pool.all.size, ZERO_HEX⟩ := by
  rw [status, h]
  rfl

private theorem countEntries_content_iff : countEntries
    (groupByAddressAndNonce (pool.all.elements.map (txOf decoder))) = pool.all.size ↔
      NoncesDiffer pool := by
  have hlength : pool.all.size = (pool.all.elements.map (txOf decoder)).length :=
    (List.length_map _).symm
  rw [hlength, groupByAddressAndNonce, countEntries_eq_length_iff, List.map_map,
    List.nodup_map_iff_inj_on pool.all.nodup]
  simp only [Function.comp_apply, nonceNumber_txOf, Prod.mk.injEq, and_imp]
  rfl

private theorem noncesDiffer_of_viewsAgree (henabled : requireTxPoolAPIEnabled config = .ok ())
    (h : ViewsAgree config pool) : NoncesDiffer pool := by
  obtain ⟨listed, counted, hcontent, hstatus, hcount, _⟩ := h
  rw [content_of_enabled henabled] at hcontent
  rw [status_of_enabled henabled] at hstatus
  cases hcontent
  cases hstatus
  exact countEntries_content_iff.mp (numberTo0x_inj hcount).symm

section Entries

variable {address sender : String}

private theorem mem_txs_iff (hsender : normalizeAddress sender = normalizeAddress address)
    (hlisted : ∃ rlpTx ∈ pool.all, (decoder.decode rlpTx).fromAddress = sender)
    (tx : TxPoolTransaction) :
    tx ∈ (pool.ofAddress (normalizeAddress address)).elements.map (txOf decoder) ↔
      tx ∈ (pool.all.elements.map (txOf decoder)).filter (·.fromAddress = sender) := by
  obtain ⟨listed, hlisted, rfl⟩ := hlisted
  simp only [List.mem_map, List.mem_filter, decide_eq_true_eq]
  constructor
  · rintro ⟨rlpTx, hmem, rfl⟩
    have hstored := (pool.stored _ rlpTx).mp hmem
    refine ⟨⟨rlpTx, hstored.1, rfl⟩, ?_⟩
    exact decoder.checksummed rlpTx listed (hstored.2.trans hsender.symm)
  · rintro ⟨⟨rlpTx, hmem, rfl⟩, hfrom⟩
    refine ⟨rlpTx, (pool.stored _ rlpTx).mpr ⟨hmem, ?_⟩, rfl⟩
    rw [← hsender]
    exact congrArg normalizeAddress hfrom

private theorem injOn_nonceNumber (h : NoncesDiffer pool) :
    ∀ tx ∈ (pool.ofAddress (normalizeAddress address)).elements.map (txOf decoder),
      ∀ tx' ∈ (pool.ofAddress (normalizeAddress address)).elements.map (txOf decoder),
        tx.nonceNumber = tx'.nonceNumber → tx = tx' := by
  simp only [List.forall_mem_map]
  intro p hp q hq hnonce
  have hp := (pool.stored _ p).mp hp
  have hq := (pool.stored _ q).mp hq
  rw [nonceNumber_txOf, nonceNumber_txOf] at hnonce
  rw [h p hp.1 q hq.1 (decoder.checksummed p q (hp.2.trans hq.2.symm)) hnonce]

private theorem mem_content {txs : List TxPoolTransaction} :
    sender ∈ groupByAddressAndNonce txs ↔ ∃ tx ∈ txs, tx.fromAddress = sender := by
  rw [groupByAddressAndNonce, mem_indexByTwo, List.mem_map]

private theorem isEntryOf_contentFrom (h : NoncesDiffer pool) (address : String) :
    IsEntryOf (groupByAddressAndNonce (pool.all.elements.map (txOf decoder))) address
      (groupByNonce ((pool.ofAddress (normalizeAddress address)).elements.map (txOf decoder))) := by
  constructor
  · intro sender hsender txs hlookup
    have hmem := Finmap.mem_of_lookup_eq_some hlookup
    have hlisted : ∃ rlpTx ∈ pool.all, (decoder.decode rlpTx).fromAddress = sender := by
      obtain ⟨tx, htx, hfrom⟩ := mem_content.mp hmem
      obtain ⟨rlpTx, hrlp, rfl⟩ := List.mem_map.mp htx
      exact ⟨rlpTx, hrlp, hfrom⟩
    have hentry : txs = groupByNonce
        ((pool.all.elements.map (txOf decoder)).filter (·.fromAddress = sender)) := by
      have hgetD := @getD_lookup_indexByTwo _ _ _ _ _ TxPoolTransaction.fromAddress
        TxPoolTransaction.nonceNumber (pool.all.elements.map (txOf decoder)) sender
      rw [← groupByAddressAndNonce, hlookup] at hgetD
      exact hgetD
    rw [hentry]
    exact indexBy_congr (injOn_nonceNumber h) (mem_txs_iff hsender hlisted)
  · intro hnone
    have hempty : (pool.ofAddress (normalizeAddress address)).elements = [] := by
      apply List.eq_nil_iff_forall_not_mem.mpr
      intro rlpTx hmem
      have hstored := (pool.stored _ rlpTx).mp hmem
      exact hnone _ hstored.2 (mem_content.mpr ⟨_, List.mem_map_of_mem hstored.1, rfl⟩)
    rw [hempty]
    rfl

end Entries

private theorem viewsAgree_of_noncesDiffer (henabled : requireTxPoolAPIEnabled config = .ok ())
    (h : NoncesDiffer pool) : ViewsAgree config pool := by
  refine ⟨_, _, content_of_enabled henabled, status_of_enabled henabled, ?_, ?_⟩
  · rw [countEntries_content_iff.mpr h]
  · intro address
    exact ⟨_, contentFrom_of_enabled henabled address, isEntryOf_contentFrom h address⟩

/-- The views agree if and only if no sender has two payloads with one nonce. -/
theorem views_agree_iff (henabled : requireTxPoolAPIEnabled config = .ok ())
    (pool : PendingPool decoder) : ViewsAgree config pool ↔ NoncesDiffer pool :=
  ⟨noncesDiffer_of_viewsAgree henabled, viewsAgree_of_noncesDiffer henabled⟩

end Agreement

section LocalStorage

variable {decoder : Decoder} {calls : List PoolCall}

/-- The address under which a payload is stored. -/
def senderOf (decoder : Decoder) (rlpTx : String) : String :=
  normalizeAddress (decoder.decode rlpTx).fromAddress

/-- What the storage in memory holds after some calls. -/
def poolAfter (decoder : Decoder) (calls : List PoolCall)
    (hcalls : ∀ call ∈ calls, call.UsesSender (senderOf decoder)) : PendingPool decoder where
  all := (performAll calls).getAllTransactionPayloads
  ofAddress := (performAll calls).getTransactionPayloads
  stored address rlpTx := by
    have h := indexes_performAll hcalls
    constructor
    · intro hmem
      exact ⟨(h.union rlpTx).mpr ⟨address, hmem⟩, h.owned address rlpTx hmem⟩
    · rintro ⟨hmem, rfl⟩
      obtain ⟨address, haddress⟩ := (h.union rlpTx).mp hmem
      have hsender := h.owned address rlpTx haddress
      rw [← hsender] at haddress
      exact haddress

end LocalStorage

section Example

def cheapRlp : String := "0xf86180018252089400000000000000000000000000000000000003e90180820277" ++
  "a0f01d6b9018ab421dd410404cb869072065522bf85734008f105cf385a023a80f" ++
  "a03b29e1c7a702da4badb26672c86cfc394df31d7001e27819db31f6c11e5dca12"

def dearRlp : String := "0xf86180028252089400000000000000000000000000000000000003e90180820277" ++
  "a09d2d304374a5d5571d7d8c39db99c8eed149767dcaf70be1a356a08376caa34f" ++
  "a00caf4c8051d094b0dec367a4b4e40e2449730e84f54d73d6abc8817596a8a3ad"

def cheapTransaction : EthersTransaction where
  fromAddress := "0x7E5F4552091A69125d5DfCb7b8C2659029395Bdf"
  gasLimit := 21000
  hash := "0xbcb59cd692c8e90686c8fa96bdcc8dcf85a93871713257bba6a0c8c88cabec0c"
  data := "0x"
  nonce := 0
  toAddress := some "0x00000000000000000000000000000000000003e9"
  value := 1
  type := some 0
  signature := some {
    v := 27
    r := "0xf01d6b9018ab421dd410404cb869072065522bf85734008f105cf385a023a80f"
    s := "0x3b29e1c7a702da4badb26672c86cfc394df31d7001e27819db31f6c11e5dca12" }
  chainId := 298
  gasPrice := some 1
  maxFeePerGas := none
  maxPriorityFeePerGas := none

/-- The same with another gas price. -/
def dearTransaction : EthersTransaction :=
  { cheapTransaction with
    hash := "0xdaf50d3fa7053d252b43ccda048591a4014d1babfa8218cbbc6e6742d910b329"
    signature := some {
      v := 27
      r := "0x9d2d304374a5d5571d7d8c39db99c8eed149767dcaf70be1a356a08376caa34f"
      s := "0x0caf4c8051d094b0dec367a4b4e40e2449730e84f54d73d6abc8817596a8a3ad" }
    gasPrice := some 2 }

/-- A decoder of these two payloads. -/
def twoPayloads : Decoder where
  decode rlpTx := if rlpTx = dearRlp then dearTransaction else cheapTransaction
  checksummed p q _ := by
    split
    · split
      · rfl
      · rfl
    · split
      · rfl
      · rfl

private theorem fromAddress_twoPayloads (rlpTx : String) :
    (twoPayloads.decode rlpTx).fromAddress = cheapTransaction.fromAddress := by
  unfold twoPayloads
  dsimp only
  split
  · rfl
  · rfl

def oneSender : String := normalizeAddress cheapTransaction.fromAddress

private theorem senderOf_twoPayloads (rlpTx : String) : senderOf twoPayloads rlpTx = oneSender := by
  rw [senderOf, fromAddress_twoPayloads]
  rfl

/-- Both payloads are added to the pool. -/
def bothAdded : PendingPool twoPayloads :=
  poolAfter twoPayloads [.addToList oneSender cheapRlp, .addToList oneSender dearRlp]
    (by simp [PoolCall.UsesSender, senderOf_twoPayloads])

theorem same_nonce_listed_once : ¬ViewsAgree ⟨true, true⟩ bothAdded := by
  intro h
  have hdiffer := noncesDiffer_of_viewsAgree rfl h
  have hcheap : cheapRlp ∈ bothAdded.all := by decide +kernel
  have hdear : dearRlp ∈ bothAdded.all := by decide +kernel
  have hsame := hdiffer cheapRlp hcheap dearRlp hdear
    ((fromAddress_twoPayloads _).trans (fromAddress_twoPayloads _).symm) (by decide +kernel)
  exact absurd hsame (by decide +kernel)

def laterRlp : String := "0xf86101018252089400000000000000000000000000000000000003e90180820277" ++
  "a0bb50e2d89a4ed70663d080659fe0ad4b9bc3e06c17a227433966cb59ceee020d" ++
  "a03f487766b294fb74efae00d5827dc42cffa27c0358ecc0dd2c69903aa5ee8f30"

def otherRlp : String := "0xf86180018252089400000000000000000000000000000000000003e90180820278" ++
  "a097855f402631f09e602e5ccadc219503f07cdd4c73b2215b5418f52a7fdbfcd9" ++
  "a033af866cd7a1d0ca4608f7c5117edbaece829ef5bd0e24c63abd77bb8808328b"

/-- The same with the next nonce. -/
def laterTransaction : EthersTransaction :=
  { cheapTransaction with
    hash := "0x619dff4cbc4b4efb697f727d4c926ac893fc082e39ea588686867ba5ebf2d4c4"
    nonce := 1
    signature := some {
      v := 27
      r := "0xbb50e2d89a4ed70663d080659fe0ad4b9bc3e06c17a227433966cb59ceee020d"
      s := "0x3f487766b294fb74efae00d5827dc42cffa27c0358ecc0dd2c69903aa5ee8f30" } }

/-- The same from another sender. -/
def otherTransaction : EthersTransaction :=
  { cheapTransaction with
    fromAddress := "0x2B5AD5c4795c026514f8317c7a215E218DcCD6cF"
    hash := "0x93dff7ed5cdab43d73975a8cfc71f6dac1c935967b90cdf3500a0f751c656ca3"
    signature := some {
      v := 28
      r := "0x97855f402631f09e602e5ccadc219503f07cdd4c73b2215b5418f52a7fdbfcd9"
      s := "0x33af866cd7a1d0ca4608f7c5117edbaece829ef5bd0e24c63abd77bb8808328b" } }

def otherSender : String := normalizeAddress otherTransaction.fromAddress

private theorem oneSender_ne_otherSender : oneSender ≠ otherSender := by decide +kernel

def decodeSenders (rlpTx : String) : EthersTransaction :=
  if rlpTx = otherRlp then otherTransaction
  else if rlpTx = laterRlp then laterTransaction
  else cheapTransaction

private theorem fromAddress_decodeSenders (rlpTx : String) :
    (decodeSenders rlpTx).fromAddress = cheapTransaction.fromAddress ∨
      (decodeSenders rlpTx).fromAddress = otherTransaction.fromAddress := by
  unfold decodeSenders
  split
  · exact Or.inr rfl
  · split
    · exact Or.inl rfl
    · exact Or.inl rfl

/-- A decoder of the payloads of two senders. -/
def twoSenders : Decoder where
  decode := decodeSenders
  checksummed p q h := by
    rcases fromAddress_decodeSenders p with hp | hp
    · rcases fromAddress_decodeSenders q with hq | hq
      · exact hp.trans hq.symm
      · rw [hp, hq] at h
        exact absurd h oneSender_ne_otherSender
    · rcases fromAddress_decodeSenders q with hq | hq
      · rw [hp, hq] at h
        exact absurd h.symm oneSender_ne_otherSender
      · exact hp.trans hq.symm

private theorem decode_cheapRlp : twoSenders.decode cheapRlp = cheapTransaction := by decide +kernel

private theorem decode_laterRlp : twoSenders.decode laterRlp = laterTransaction := by decide +kernel

private theorem decode_otherRlp : twoSenders.decode otherRlp = otherTransaction := by
  simp only [twoSenders, decodeSenders, if_true]

/-- Two payloads of one sender and one of another are added. -/
def threeCalls : List PoolCall :=
  [.addToList oneSender cheapRlp, .addToList oneSender laterRlp, .addToList otherSender otherRlp]

private theorem usesSender_threeCalls :
    ∀ call ∈ threeCalls, call.UsesSender (senderOf twoSenders) := by
  simp only [threeCalls, List.forall_mem_cons, PoolCall.UsesSender, senderOf, decode_cheapRlp,
    decode_laterRlp, decode_otherRlp]
  exact ⟨rfl, rfl, rfl, List.forall_mem_nil _⟩

def threeAdded : PendingPool twoSenders := poolAfter twoSenders threeCalls usesSender_threeCalls

private theorem mem_threeAdded {rlpTx : String} (h : rlpTx ∈ threeAdded.all) :
    rlpTx = cheapRlp ∨ rlpTx = laterRlp ∨ rlpTx = otherRlp := by
  have hof : rlpTx ∈ (performAll threeCalls).getTransactionPayloads
      (senderOf twoSenders rlpTx) := (threeAdded.stored _ rlpTx).mpr ⟨h, rfl⟩
  obtain ⟨before, after, hcalls, _⟩ := (mem_performAll _ _ _).mp hof
  have hadded : .addToList (senderOf twoSenders rlpTx) rlpTx ∈ threeCalls := by
    rw [hcalls]
    exact List.mem_append_right before List.mem_cons_self
  simp only [threeCalls, List.mem_cons, PoolCall.addToList.injEq, List.not_mem_nil,
    or_false] at hadded
  exact hadded.imp And.right (Or.imp And.right And.right)

private theorem noncesDiffer_threeAdded : NoncesDiffer threeAdded := by
  have hsender : cheapTransaction.fromAddress ≠ otherTransaction.fromAddress := fun h =>
    oneSender_ne_otherSender (congrArg normalizeAddress h)
  intro p hp q hq hfrom hnonce
  rcases mem_threeAdded hp with rfl | rfl | rfl <;> rcases mem_threeAdded hq with rfl | rfl | rfl
  all_goals simp only [decode_cheapRlp, decode_laterRlp, decode_otherRlp] at hfrom hnonce
  · rfl
  · cases hnonce
  · exact absurd hfrom hsender
  · cases hnonce
  · rfl
  · exact absurd hfrom hsender
  · exact absurd hfrom.symm hsender
  · exact absurd hfrom.symm hsender
  · rfl

theorem views_agree_on_threeAdded : requireTxPoolAPIEnabled ⟨true, true⟩ = .ok () ∧
    ViewsAgree ⟨true, true⟩ threeAdded :=
  ⟨rfl, (views_agree_iff rfl threeAdded).mpr noncesDiffer_threeAdded⟩

end Example

end JsonRpcRelay.TransactionPool

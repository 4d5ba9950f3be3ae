import Mathlib.Algebra.Order.Group.Nat
import JsonRpcRelay.Formatters
import JsonRpcRelay.Framework.Binary64
import JsonRpcRelay.Framework.HexBytes
import JsonRpcRelay.Framework.History
import JsonRpcRelay.Framework.Rules
import JsonRpcRelay.Transactions.TransactionService

/-!
# The prechecks of a raw transaction

The checks read the texts of a transaction and doubles.  What they demand is stated for its bytes
and numbers, as rules in the order of the checks: the first rule that does not hold decides the
error, and nothing is asked of the mirror node before the rules on the transaction alone hold.
-/

namespace JsonRpcRelay.Transactions.Precheck

open Framework constants

section Model

/-- What the prechecks read of the configuration.  The limits are far from what a double can no
longer hold. -/
structure Settings where
  maxTransactionFeeThreshold : ℕ
  callDataSizeLimit : ℕ
  sendRawTransactionSizeLimit : ℕ
  chainId : ℕ
  gasPriceTinyBarBuffer : ℕ
  paymasterEnabled : Bool
  paymasterWhitelist : List String
  threshold_lt : maxTransactionFeeThreshold < 2 ^ 53
  callDataSizeLimit_lt : callDataSizeLimit < 2 ^ 48
  chainId_lt : chainId < 2 ^ 53

/-- What ethers reads of a transaction besides its sender, receiver and nonce.  It has both
`maxFeePerGas` and `maxPriorityFeePerGas` or none of them. -/
structure Details where
  data : List UInt8
  serialization : List UInt8
  type : Option ℕ
  gasLimit : ℕ
  chainId : ℕ
  signatureV : Option ℕ
  value : ℤ
  gasPrice : Option ℕ
  fees : Option (ℕ × ℕ)
  accessList : Option (List (String × List String))

def hexlify (bytes : List UInt8) : String := String.ofList ('0' :: 'x' :: Hex.text bytes)

/-- `text.replace('0x', '')`, which takes the first `0x` out. -/
def replace0x : List Char → List Char
  | [] => []
  | c :: text => if ['0', 'x'].isPrefixOf (c :: text) then text.drop 1 else c :: replace0x text

/-- The loop over every two characters with its counters of zero and non-zero bytes.  Behind a
single character at the end stands `undefined`. -/
def countBytes (zeros nonZeros : ℕ) : List Char → ℕ × ℕ
  | [] => (zeros, nonZeros)
  | [_] => (zeros, nonZeros + 1)
  | a :: b :: text =>
      if a = '0' ∧ b = '0' then countBytes (zeros + 1) nonZeros text
      else countBytes zeros (nonZeros + 1) text

def transactionIntrinsicGasCost (data : String) : ℕ :=
  let (zeros, nonZeros) := countBytes 0 0 (replace0x data.toList)
  TX_BASE_COST + TX_DATA_ZERO_COST * zeros + ISTANBUL_TX_DATA_NON_ZERO_COST * nonZeros

/-- `Number(x).toString(16)`. -/
def number16 (n : ℕ) : String :=
  match Double.ofInt n with
  | .integer n => Js.toString16 n
  | .infinity _ => "Infinity"
  | .nan => "NaN"

/-- The price is not set by a legacy transaction without fees: `null + null` is 0. -/
def Details.txGasPrice (d : Details) : ℕ :=
  match d.gasPrice with
  | some gasPrice => if gasPrice ≠ 0 then gasPrice else (d.fees.map fun (a, b) => a + b).getD 0
  | none => (d.fees.map fun (a, b) => a + b).getD 0

variable (s : Settings) (tx : Transaction) (d : Details)

def callDataSize : Except JsonRpcError Unit :=
  let totalCallDataSizeInBytes := (replace0x (hexlify d.data).toList).length / 2
  if s.callDataSizeLimit < totalCallDataSizeInBytes then
    throw (predefined.CALL_DATA_SIZE_LIMIT_EXCEEDED totalCallDataSizeInBytes s.callDataSizeLimit)
  else return

def transactionSize : Except JsonRpcError Unit :=
  let totalRawTransactionSizeInBytes := (replace0x (hexlify d.serialization).toList).length / 2
  if s.sendRawTransactionSizeLimit < totalRawTransactionSizeInBytes then
    throw (predefined.TRANSACTION_SIZE_LIMIT_EXCEEDED totalRawTransactionSizeInBytes
      s.sendRawTransactionSizeLimit)
  else return

def transactionType : Except JsonRpcError Unit :=
  if d.type = some 3 then throw predefined.UNSUPPORTED_TRANSACTION_TYPE_3 else return

def gasLimit : Except JsonRpcError Unit :=
  let gasLimit := Double.ofInt d.gasLimit
  let intrinsicGasCost := transactionIntrinsicGasCost (hexlify d.data)
  if (Double.integer s.maxTransactionFeeThreshold).lt gasLimit then
    throw (predefined.GAS_LIMIT_TOO_HIGH (String.ofList gasLimit.text)
      (toString s.maxTransactionFeeThreshold))
  else if gasLimit.lt (.integer intrinsicGasCost) then
    throw (predefined.GAS_LIMIT_TOO_LOW (String.ofList gasLimit.text) (toString intrinsicGasCost))
  else return

def isLegacyUnprotectedEtx : Bool :=
  d.chainId = 0 ∧ (d.signatureV = some 27 ∨ d.signatureV = some 28)

def chainId : Except JsonRpcError Unit :=
  let txChainId := prepend0x (number16 d.chainId)
  let chain := numberTo0x s.chainId
  if isLegacyUnprotectedEtx d ∨ txChainId = chain then return
  else throw (predefined.UNSUPPORTED_CHAIN_ID txChainId chain)

def value : Except JsonRpcError Unit :=
  if 0 < d.value ∧ d.value < TINYBAR_TO_WEIBAR_COEF ∨ d.value < 0 then
    throw predefined.VALUE_TOO_LOW
  else return

def isDeterministicDeploymentTransaction : Bool :=
  hexlify d.serialization = DETERMINISTIC_DEPLOYER_TRANSACTION

/-- An empty address counts as none. -/
def isSubsidizedTransaction (toAddress : Option String) : Bool :=
  let payMasterWhiteList := s.paymasterWhitelist.map Lock.normalizeAddress
  s.paymasterEnabled && (payMasterWhiteList.contains "*" ||
    toAddress.any fun toAddress => toAddress ≠ "" &&
      payMasterWhiteList.contains (prepend0x (Lock.normalizeAddress toAddress)))

/-- A buffer of 0 counts as none. -/
def gasPrice (networkGasPriceInWeiBars : ℕ) : Except JsonRpcError Unit :=
  let passes := networkGasPriceInWeiBars ≤ d.txGasPrice ||
    isDeterministicDeploymentTransaction d || isSubsidizedTransaction s tx.toAddress
  if passes then return
  else if s.gasPriceTinyBarBuffer ≠ 0 ∧
      networkGasPriceInWeiBars ≤ d.txGasPrice + s.gasPriceTinyBarBuffer then return
  else throw (predefined.GAS_PRICE_TOO_LOW d.txGasPrice networkGasPriceInWeiBars)

def balance (accountBalance : Option ℕ) : Except JsonRpcError Unit :=
  match accountBalance with
  | none =>
      throw (predefined.RESOURCE_NOT_FOUND
        s!"Account balance unavailable for address: {addressText tx.fromAddress}.")
  | some accountBalance =>
      let txTotalValue := d.value + d.txGasPrice * d.gasLimit
      let accountBalanceInWeiBars := accountBalance * TINYBAR_TO_WEIBAR_COEF
      if accountBalanceInWeiBars < txTotalValue then throw predefined.INSUFFICIENT_ACCOUNT_BALANCE
      else return

def accessList : Except JsonRpcError Unit :=
  if d.accessList.any (·.length ≠ 0) then throw predefined.NOT_YET_IMPLEMENTED else return

def checkTransaction (networkGasPriceInWeiBars : ℕ) : Except JsonRpcError Unit := do
  callDataSize s d
  transactionSize s d
  transactionType d
  gasLimit s d
  chainId s d
  value d
  gasPrice s tx d networkGasPriceInWeiBars

def checkAccount (mirrorAccountInfo : AccountInfo) : Except JsonRpcError Unit := do
  balance tx d mirrorAccountInfo.balance
  accessList d

/-- The relay with these prechecks. -/
def withPrechecks (cfg : RelayConfig) (ethers : Transaction → Details) : RelayConfig where
  __ := cfg
  checkTransaction tx networkGasPriceInWeiBars :=
    (checkTransaction s tx (ethers tx) networkGasPriceInWeiBars).mapError .jsonRpcError
  checkAccount tx mirrorAccountInfo :=
    (checkAccount tx (ethers tx) mirrorAccountInfo).mapError .jsonRpcError

end Model

section Rules

variable (s : Settings) (tx : Transaction) (d : Details) (price : ℕ)

/-- Every byte of the data costs gas, a zero byte less than the others. -/
def intrinsicGas (data : List UInt8) : ℕ :=
  TX_BASE_COST + TX_DATA_ZERO_COST * data.count 0 +
    ISTANBUL_TX_DATA_NON_ZERO_COST * data.countP (· ≠ 0)

/-- The rules on the transaction alone, given the gas price of the network. -/
def transactionRules : List (Rule JsonRpcError) :=
  let gasText := String.ofList (Double.ofInt d.gasLimit).text
  [⟨d.data.length ≤ s.callDataSizeLimit,
      predefined.CALL_DATA_SIZE_LIMIT_EXCEEDED d.data.length s.callDataSizeLimit⟩,
    ⟨d.serialization.length ≤ s.sendRawTransactionSizeLimit,
      predefined.TRANSACTION_SIZE_LIMIT_EXCEEDED d.serialization.length
        s.sendRawTransactionSizeLimit⟩,
    ⟨d.type ≠ some 3, predefined.UNSUPPORTED_TRANSACTION_TYPE_3⟩,
    ⟨d.gasLimit ≤ s.maxTransactionFeeThreshold,
      predefined.GAS_LIMIT_TOO_HIGH gasText (toString s.maxTransactionFeeThreshold)⟩,
    ⟨intrinsicGas d.data ≤ d.gasLimit,
      predefined.GAS_LIMIT_TOO_LOW gasText (toString (intrinsicGas d.data))⟩,
    ⟨isLegacyUnprotectedEtx d || d.chainId = s.chainId,
      predefined.UNSUPPORTED_CHAIN_ID (prepend0x (number16 d.chainId)) (numberTo0x s.chainId)⟩,
    ⟨d.value = 0 || TINYBAR_TO_WEIBAR_COEF ≤ d.value, predefined.VALUE_TOO_LOW⟩,
    ⟨price ≤ d.txGasPrice + s.gasPriceTinyBarBuffer || isDeterministicDeploymentTransaction d ||
        isSubsidizedTransaction s tx.toAddress,
      predefined.GAS_PRICE_TOO_LOW d.txGasPrice price⟩]

/-- The rules on what the mirror node says about the sender, and on the pool. -/
def senderRules : Except TxError (Option AccountInfo) → ℕ → List (Rule TxError)
  | .error e, _ => [⟨false, e⟩]
  | .ok none, _ =>
      [⟨false, .jsonRpcError
        (predefined.RESOURCE_NOT_FOUND s!"address '{addressText tx.fromAddress}'.")⟩]
  | .ok (some account), pending =>
      [⟨tx.fromAddress.isSome, nullError "toLowerCase"⟩,
        ⟨(account.ethereumNonce.plus pending).all (· ≤ tx.nonce), .jsonRpcError
          (predefined.NONCE_TOO_LOW tx.nonce ((account.ethereumNonce.plus pending).getD 0))⟩,
        ⟨account.balance.isSome, .jsonRpcError (predefined.RESOURCE_NOT_FOUND
          s!"Account balance unavailable for address: {addressText tx.fromAddress}.")⟩,
        ⟨d.value + d.txGasPrice * d.gasLimit ≤
            (account.balance.getD 0 : ℤ) * TINYBAR_TO_WEIBAR_COEF,
          .jsonRpcError predefined.INSUFFICIENT_ACCOUNT_BALANCE⟩,
        ⟨!d.accessList.any (·.length ≠ 0), .jsonRpcError predefined.NOT_YET_IMPLEMENTED⟩]

/-- The rules on what the mirror node says about the receiver, if there is one. -/
def receiverRules : Except TxError (Option AccountInfo) → List (Rule TxError)
  | .error e => if tx.toAddress.isSome then [⟨false, e⟩] else []
  | .ok receiver =>
      [⟨tx.toAddress.isNone || !receiver.any (·.receiverSigRequired),
        .jsonRpcError predefined.RECEIVER_SIGNATURE_ENABLED⟩]

/-- What the mirror node and the pool answer. -/
structure Replies where
  account : Except TxError (Option AccountInfo)
  pending : ℕ
  receiver : Except TxError (Option AccountInfo)

/-- All that is asked for a transaction, in this order. -/
def Replies.history (replies : Replies) : History TxOp TxOp.Reply :=
  ⟨.getAccount (addressText tx.fromAddress), replies.account⟩ ::
    ⟨.getList (Lock.normalizeAddress (addressText tx.fromAddress)), replies.pending⟩ ::
      match tx.toAddress with
      | some toAddress => [⟨.getAccount toAddress, replies.receiver⟩]
      | none => []

def rules (replies : Replies) : List (Rule TxError) :=
  (transactionRules s tx d price).map (Rule.map .jsonRpcError) ++
    senderRules tx d replies.account replies.pending ++ receiverRules tx replies.receiver

/-- A transaction that the network may take, for all that can be told by it alone. -/
structure WellFormed : Prop where
  callData : d.data.length ≤ s.callDataSizeLimit
  size : d.serialization.length ≤ s.sendRawTransactionSizeLimit
  type : d.type ≠ some 3
  gas_le : d.gasLimit ≤ s.maxTransactionFeeThreshold
  le_gas : intrinsicGas d.data ≤ d.gasLimit
  chain : isLegacyUnprotectedEtx d = true ∨ d.chainId = s.chainId
  value : d.value = 0 ∨ TINYBAR_TO_WEIBAR_COEF ≤ d.value
  price : price ≤ d.txGasPrice + s.gasPriceTinyBarBuffer ∨
    isDeterministicDeploymentTransaction d = true ∨
      isSubsidizedTransaction s tx.toAddress = true

/-- A transaction that the sender may send and pay, and the receiver takes. -/
structure Admissible (replies : Replies) : Prop extends WellFormed s tx d price where
  sender : tx.fromAddress.isSome
  account : ∃ account, replies.account = .ok (some account) ∧
    (∀ nonce ∈ account.ethereumNonce.plus replies.pending, nonce ≤ tx.nonce) ∧
      ∃ balance ∈ account.balance,
        d.value + d.txGasPrice * d.gasLimit ≤ balance * TINYBAR_TO_WEIBAR_COEF
  accessList : ∀ entries ∈ d.accessList, entries = []
  receiver : tx.toAddress.isSome → ∃ receiver, replies.receiver = .ok receiver ∧
    ∀ account ∈ receiver, account.receiverSigRequired = false

end Rules

section Checks

private theorem replace0x_hexlify (bytes : List UInt8) :
    replace0x (hexlify bytes).toList = Hex.text bytes := by
  rw [hexlify, String.toList_ofList]
  rfl

private theorem size_hexlify (bytes : List UInt8) :
    (replace0x (hexlify bytes).toList).length / 2 = bytes.length := by
  rw [replace0x_hexlify, Hex.length_text, Nat.mul_div_cancel_left _ Nat.two_pos]

private theorem digitChar_eq_zero_iff {d : ℕ} (h : d < 16) : d.digitChar = '0' ↔ d = 0 := by
  constructor
  · intro hchar
    have hread := Js.hexDigit?_digitChar h
    rw [hchar] at hread
    exact (Option.some.inj hread).symm
  · rintro rfl
    rfl

private theorem byteText_zero_iff (b : UInt8) :
    Nat.digitChar (b.toNat / 16) = '0' ∧ Nat.digitChar (b.toNat % 16) = '0' ↔ b = 0 := by
  have hlt := b.toNat_lt
  rw [digitChar_eq_zero_iff (by omega), digitChar_eq_zero_iff (by omega), ← UInt8.toNat_inj]
  simp only [UInt8.toNat_zero]
  omega

private theorem countBytes_text (zeros nonZeros : ℕ) (bytes : List UInt8) :
    countBytes zeros nonZeros (Hex.text bytes) =
      (zeros + bytes.count 0, nonZeros + bytes.countP (· ≠ 0)) := by
  induction bytes generalizing zeros nonZeros with
  | nil => rfl
  | cons b bytes ih =>
    have hstep : countBytes zeros nonZeros (Hex.text (b :: bytes)) =
        if b = 0 then countBytes (zeros + 1) nonZeros (Hex.text bytes)
        else countBytes zeros (nonZeros + 1) (Hex.text bytes) := by
      show countBytes zeros nonZeros (_ :: _ :: Hex.text bytes) = _
      rw [countBytes]
      simp only [byteText_zero_iff]
    rw [hstep]
    by_cases hb : b = 0
    · rw [if_pos hb, ih]
      simp [hb, Nat.add_assoc, Nat.add_comm 1]
    · rw [if_neg hb, ih]
      simp [hb, Nat.add_assoc, Nat.add_comm 1]

private theorem transactionIntrinsicGasCost_hexlify (data : List UInt8) :
    transactionIntrinsicGasCost (hexlify data) = intrinsicGas data := by
  rw [transactionIntrinsicGasCost, replace0x_hexlify, countBytes_text]
  simp [intrinsicGas]

private theorem intrinsicGas_le (data : List UInt8) :
    intrinsicGas data ≤ 21000 + 16 * data.length := by
  have hzeros := List.length_eq_countP_add_countP (fun b : UInt8 => decide (b = 0)) (l := data)
  have hcount : data.count 0 = data.countP fun b => decide (b = 0) := by
    rw [List.count_eq_countP]
    rfl
  have hothers : data.countP (· ≠ 0) = data.countP fun b => decide ¬decide (b = 0) = true := by
    congr 1
    funext b
    simp
  simp only [intrinsicGas, TX_BASE_COST, TX_DATA_ZERO_COST, ISTANBUL_TX_DATA_NON_ZERO_COST, hcount,
    hothers]
  omega

private theorem holds_of_le {n : ℕ} (h : n ≤ 2 ^ 53) : Double.Holds n := by
  rcases h.eq_or_lt with rfl | hlt
  · exact ⟨⟨1, 53, by decide, by decide⟩, by decide +kernel⟩
  · exact Double.holds_of_lt (by omega)

/-- Small numbers are compared with the double of any number as with the number. -/
theorem integer_lt_ofInt_iff {b n : ℕ} (hb : b < 2 ^ 53) :
    (Double.integer b).lt (Double.ofInt n) = true ↔ b < n := by
  constructor
  · intro hlt
    by_contra hle
    have hfalse := Double.lt_eq_false_of_le
      (Double.ofInt_le (n := n) (holds_of_le hb.le) (by omega))
    rw [hlt] at hfalse
    cases hfalse
  · intro hlt
    have hle := Double.le_ofInt (n := n) (holds_of_le (n := b + 1) hb) (by omega)
    cases hround : Double.ofInt n with
    | nan =>
      rw [hround] at hle
      cases hle
    | infinity negative =>
      rw [hround] at hle
      simpa [Double.le, Double.lt] using hle
    | integer m =>
      rw [hround] at hle
      simp only [Double.le, Double.lt, decide_eq_true_eq] at hle ⊢
      omega

private theorem ofInt_lt_integer_iff {b n : ℕ} (hb : b ≤ 2 ^ 53) :
    (Double.ofInt n).lt (Double.integer b) = true ↔ n < b := by
  constructor
  · intro hlt
    by_contra hle
    have hfalse := Double.lt_eq_false_of_le
      (Double.le_ofInt (n := n) (holds_of_le hb) (by omega))
    rw [hlt] at hfalse
    cases hfalse
  · intro hlt
    obtain ⟨b, rfl⟩ : ∃ c, b = c + 1 := ⟨b - 1, by omega⟩
    have hle := Double.ofInt_le (n := n) (holds_of_le (n := b) (by omega)) (by omega)
    cases hround : Double.ofInt n with
    | nan =>
      rw [hround] at hle
      cases hle
    | infinity negative =>
      rw [hround] at hle
      simpa [Double.le, Double.lt] using hle
    | integer m =>
      rw [hround] at hle
      simp only [Double.le, Double.lt, decide_eq_true_eq] at hle ⊢
      omega

private theorem ofInt_natCast (n : ℕ) :
    (∃ m : ℕ, Double.ofInt n = .integer m) ∨ Double.ofInt n = .infinity false := by
  have hsign : (n : ℤ).sign * (roundNat n : ℤ) = ((if n = 0 then 0 else roundNat n : ℕ) : ℤ) := by
    rcases Nat.eq_zero_or_pos n with rfl | hpos
    · rfl
    · rw [Int.sign_eq_one_of_pos (by omega), if_neg (by omega), Int.one_mul]
  rw [Double.ofInt, Int.natAbs_natCast, hsign]
  split
  · exact .inl ⟨_, rfl⟩
  · refine .inr ?_
    rw [Double.infinity.injEq, decide_eq_false_iff_not]
    omega

private theorem number16_of_integer {n m : ℕ} (h : Double.ofInt n = .integer m) :
    number16 n = Js.toString16 m := by
  unfold number16
  generalize Double.ofInt n = x at h
  subst h
  rfl

private theorem number16_of_infinity {n : ℕ} (h : Double.ofInt n = .infinity false) :
    number16 n = "Infinity" := by
  unfold number16
  generalize Double.ofInt n = x at h
  subst h
  rfl

private theorem prepend0x_toString16 (m : ℕ) : prepend0x (Js.toString16 m) = numberTo0x m := by
  have hdigits := Js.isHexDigit_toDigits m
  have hstarts : Js.startsWith (Js.toString16 m) EMPTY_HEX = false := by
    rw [Js.startsWith, Js.toString16_natCast, String.toList_ofList, Bool.eq_false_iff]
    intro hstarts
    obtain ⟨rest, hrest⟩ := List.isPrefixOf_iff_prefix.mp hstarts
    have hx := hdigits 'x' (by rw [← hrest]; simp [EMPTY_HEX])
    exact absurd hx (by decide)
  rw [prepend0x, if_neg (by simp [hstarts]), numberTo0x]

/-- The text of a chain id tells it apart from an id that a double can hold. -/
theorem number16_eq_iff {c n : ℕ} (hc : c < 2 ^ 53) :
    prepend0x (number16 n) = numberTo0x c ↔ n = c := by
  constructor
  · intro htext
    obtain ⟨m, hm⟩ | hinfinity := ofInt_natCast n
    · rw [number16_of_integer hm] at htext
      obtain rfl := numberTo0x_inj ((prepend0x_toString16 m).symm.trans htext)
      have hlt := integer_lt_ofInt_iff (n := n) hc
      have hgt := ofInt_lt_integer_iff (n := n) hc.le
      rw [hm] at hlt hgt
      simp only [Double.lt, decide_eq_true_eq] at hlt hgt
      omega
    · rw [number16_of_infinity hinfinity] at htext
      have hmem : 'I' ∈ (numberTo0x c).toList := by
        rw [← htext]
        decide
      rw [toList_numberTo0x] at hmem
      simp only [List.mem_cons] at hmem
      rcases hmem with hzero | hx | hdigit
      · cases hzero
      · cases hx
      · exact absurd (Js.isHexDigit_toDigits c 'I' hdigit) (by decide)
  · rintro rfl
    have hround : Double.ofInt n = .integer n :=
      Double.ofInt_eq_integer_iff.mpr (holds_of_le hc.le)
    rw [number16_of_integer hround]
    exact prepend0x_toString16 n

section Checked

variable (s : Settings) (tx : Transaction) (d : Details) (price : ℕ)

private theorem callDataSize_eq :
    callDataSize s d = firstViolated [⟨d.data.length ≤ s.callDataSizeLimit,
    predefined.CALL_DATA_SIZE_LIMIT_EXCEEDED d.data.length s.callDataSizeLimit⟩] := by
  simp only [callDataSize, size_hexlify]
  refine throw_if ?_
  simp

private theorem transactionSize_eq : transactionSize s d =
    firstViolated [⟨d.serialization.length ≤ s.sendRawTransactionSizeLimit,
      predefined.TRANSACTION_SIZE_LIMIT_EXCEEDED d.serialization.length
        s.sendRawTransactionSizeLimit⟩] := by
  simp only [transactionSize, size_hexlify]
  refine throw_if ?_
  simp

private theorem transactionType_eq : transactionType d =
    firstViolated [⟨d.type ≠ some 3, predefined.UNSUPPORTED_TRANSACTION_TYPE_3⟩] := by
  refine throw_if ?_
  simp

private theorem gasLimit_eq (hdata : d.data.length ≤ s.callDataSizeLimit) : gasLimit s d =
    firstViolated [⟨d.gasLimit ≤ s.maxTransactionFeeThreshold,
        predefined.GAS_LIMIT_TOO_HIGH (String.ofList (Double.ofInt d.gasLimit).text)
          (toString s.maxTransactionFeeThreshold)⟩,
      ⟨intrinsicGas d.data ≤ d.gasLimit,
        predefined.GAS_LIMIT_TOO_LOW (String.ofList (Double.ofInt d.gasLimit).text)
          (toString (intrinsicGas d.data))⟩] := by
  have hlimit := s.callDataSizeLimit_lt
  have hcost := intrinsicGas_le d.data
  have hhigh := integer_lt_ofInt_iff (n := d.gasLimit) s.threshold_lt
  have hlow := ofInt_lt_integer_iff (n := d.gasLimit) (b := intrinsicGas d.data) (by omega)
  simp only [gasLimit, transactionIntrinsicGasCost_hexlify, hhigh, hlow]
  by_cases hthreshold : s.maxTransactionFeeThreshold < d.gasLimit
  · rw [if_pos hthreshold, firstViolated_cons_of_not (by simpa using hthreshold)]
    rfl
  · rw [if_neg hthreshold, firstViolated_cons_of_holds (by simpa using hthreshold)]
    refine throw_if ?_
    simp

private theorem chainId_eq : chainId s d =
    firstViolated [⟨isLegacyUnprotectedEtx d || d.chainId = s.chainId,
      predefined.UNSUPPORTED_CHAIN_ID (prepend0x (number16 d.chainId)) (numberTo0x s.chainId)⟩] := by
  simp only [chainId, number16_eq_iff s.chainId_lt]
  refine throw_unless ?_
  simp

private theorem value_eq : value d =
    firstViolated
      [⟨d.value = 0 || TINYBAR_TO_WEIBAR_COEF ≤ d.value, predefined.VALUE_TOO_LOW⟩] := by
  refine throw_if ?_
  simp only [Bool.or_eq_true, decide_eq_true_eq]
  simp only [TINYBAR_TO_WEIBAR_COEF]
  omega

private theorem gasPrice_eq : gasPrice s tx d price =
    firstViolated [⟨price ≤ d.txGasPrice + s.gasPriceTinyBarBuffer ||
        isDeterministicDeploymentTransaction d || isSubsidizedTransaction s tx.toAddress,
      predefined.GAS_PRICE_TOO_LOW d.txGasPrice price⟩] := by
  simp only [gasPrice]
  split
  · rename_i hpasses
    rw [firstViolated_cons_of_holds]
    · rfl
    · simp only [Bool.or_eq_true, decide_eq_true_eq] at hpasses ⊢
      grind
  · rename_i hpasses
    refine throw_unless ?_
    simp only [Bool.or_eq_true, decide_eq_true_eq] at hpasses ⊢
    grind

theorem checkTransaction_eq :
    checkTransaction s tx d price = firstViolated (transactionRules s tx d price) := by
  by_cases hdata : d.data.length ≤ s.callDataSizeLimit
  · rw [checkTransaction, callDataSize_eq, transactionSize_eq, transactionType_eq,
      gasLimit_eq s d hdata, chainId_eq, value_eq, gasPrice_eq]
    simp only [← firstViolated_append]
    rfl
  · rw [checkTransaction, callDataSize_eq, firstViolated_cons_of_not (by simpa using hdata),
      transactionRules, firstViolated_cons_of_not (by simpa using hdata)]
    rfl

theorem checkAccount_eq (account : AccountInfo) : checkAccount tx d account =
    firstViolated [⟨account.balance.isSome, predefined.RESOURCE_NOT_FOUND
          s!"Account balance unavailable for address: {addressText tx.fromAddress}."⟩,
        ⟨d.value + d.txGasPrice * d.gasLimit ≤
            (account.balance.getD 0 : ℤ) * TINYBAR_TO_WEIBAR_COEF,
          predefined.INSUFFICIENT_ACCOUNT_BALANCE⟩,
        ⟨!d.accessList.any (·.length ≠ 0), predefined.NOT_YET_IMPLEMENTED⟩] := by
  have hlist : accessList d = firstViolated
      [⟨!d.accessList.any (·.length ≠ 0), predefined.NOT_YET_IMPLEMENTED⟩] := by
    refine throw_if ?_
    simp
  rw [checkAccount, hlist]
  cases account.balance with
  | none => rfl
  | some funds =>
    have hfunds : balance tx d (some funds) = firstViolated
        [⟨d.value + d.txGasPrice * d.gasLimit ≤ (funds : ℤ) * TINYBAR_TO_WEIBAR_COEF,
          predefined.INSUFFICIENT_ACCOUNT_BALANCE⟩] := by
      refine throw_if ?_
      simp
    rw [hfunds, ← firstViolated_append]
    rfl

end Checked

end Checks

section Abstract

variable {s : Settings} {tx : Transaction} {d : Details} {price : ℕ} {replies : Replies}

private theorem wellFormed_iff :
    WellFormed s tx d price ↔ firstViolated (transactionRules s tx d price) = .ok () := by
  rw [firstViolated_ok_iff]
  simp only [transactionRules, List.forall_mem_cons, List.not_mem_nil, false_imp_iff,
    implies_true, and_true, Bool.or_eq_true, decide_eq_true_eq, or_assoc]
  constructor
  · exact fun h => ⟨h.callData, h.size, h.type, h.gas_le, h.le_gas, h.chain, h.value, h.price⟩
  · rintro ⟨h₁, h₂, h₃, h₄, h₅, h₆, h₇, h₈⟩
    exact ⟨h₁, h₂, h₃, h₄, h₅, h₆, h₇, h₈⟩

private theorem senderRules_ok_iff {account : Except TxError (Option AccountInfo)} {pending : ℕ} :
    firstViolated (senderRules tx d account pending) = .ok () ↔
      tx.fromAddress.isSome ∧ (∃ info, account = .ok (some info) ∧
        (∀ nonce ∈ info.ethereumNonce.plus pending, nonce ≤ tx.nonce) ∧
          ∃ balance ∈ info.balance,
            d.value + d.txGasPrice * d.gasLimit ≤ balance * TINYBAR_TO_WEIBAR_COEF) ∧
        ∀ entries ∈ d.accessList, entries = [] := by
  rw [firstViolated_ok_iff]
  match account with
  | .error e => simp [senderRules]
  | .ok none => simp [senderRules]
  | .ok (some info) =>
    cases hbalance : info.balance with
    | none => simp [senderRules, hbalance]
    | some balance =>
      cases hlist : d.accessList <;> cases hnonce : info.ethereumNonce.plus pending <;>
        simp [senderRules, hbalance, hlist, hnonce, and_assoc]

private theorem receiverRules_ok_iff {receiver : Except TxError (Option AccountInfo)} :
    firstViolated (receiverRules tx receiver) = .ok () ↔ (tx.toAddress.isSome →
      ∃ info, receiver = .ok info ∧ ∀ account ∈ info, account.receiverSigRequired = false) := by
  rw [firstViolated_ok_iff]
  match receiver with
  | .error e => cases hto : tx.toAddress <;> simp [receiverRules, hto]
  | .ok info => cases hto : tx.toAddress <;> cases info <;> simp [receiverRules, hto]

theorem admissible_iff :
    Admissible s tx d price replies ↔ firstViolated (rules s tx d price replies) = .ok () := by
  have hrules : firstViolated (rules s tx d price replies) = .ok () ↔
      firstViolated (transactionRules s tx d price) = .ok () ∧
        firstViolated (senderRules tx d replies.account replies.pending) = .ok () ∧
          firstViolated (receiverRules tx replies.receiver) = .ok () := by
    simp only [firstViolated_ok_iff, rules, List.forall_mem_append, List.forall_mem_map, Rule.map,
      and_assoc]
  rw [hrules, ← wellFormed_iff, senderRules_ok_iff, receiverRules_ok_iff]
  exact ⟨fun h => ⟨h.toWellFormed, ⟨h.sender, h.account, h.accessList⟩, h.receiver⟩,
    fun ⟨hwell, ⟨hsender, haccount, hlist⟩, hreceiver⟩ =>
      ⟨hwell, hsender, haccount, hlist, hreceiver⟩⟩

end Abstract

section Runs

variable {cfg : RelayConfig} {s : Settings} {ethers : Transaction → Details} {tx : Transaction}
  {price : ℕ}

/-- A check may ask for `asked`, in this order and as far as it gets, and its result is that of the
first rule that does not hold.  It asks for all of them before it passes. -/
def Judges {ρ : Type} (asked : ρ → History TxOp TxOp.Reply) (rules : ρ → List (Rule TxError))
    (check : TxM Unit) : Prop :=
  Prog.Ensures check fun history result =>
    ∃ replies, history <+: asked replies ∧ result = firstViolated (rules replies) ∧
      (result = .ok () → history = asked replies)

variable {ρ : Type} {asked : ρ → History TxOp TxOp.Reply} {later : ρ → List (Rule TxError)}
  {check : TxM Unit}

theorem Judges.behind [Nonempty ρ] (h : Judges asked later check) {result : Except TxError Unit}
    {first : List (Rule TxError)} (hfirst : result = firstViolated first) :
    Judges asked (fun replies => first ++ later replies)
      (await (return result) >>= fun _ => check) := by
  subst hfirst
  cases hresult : firstViolated first with
  | error e =>
    refine Prog.ensures_throw ⟨Classical.arbitrary ρ, List.nil_prefix, ?_, by simp⟩
    rw [firstViolated_append_of_error hresult]
  | ok =>
    show Judges _ _ check
    simpa only [Judges, firstViolated_append_of_ok hresult] using h

theorem nonce_eq (tx : Transaction) (accountNonce : Option ℕ) :
    nonce tx accountNonce =
      firstViolated [⟨accountNonce.all (· ≤ tx.nonce), .jsonRpcError
        (predefined.NONCE_TOO_LOW tx.nonce (accountNonce.getD 0))⟩] := by
  cases accountNonce with
  | none => rfl
  | some n =>
    refine throw_if ?_
    simp

private theorem receiverAccount_judges (tx : Transaction) :
    Judges (fun receiver => match tx.toAddress with
        | some toAddress => [⟨.getAccount toAddress, receiver⟩]
        | none => [])
      (receiverRules tx) (receiverAccount tx) := by
  cases hto : tx.toAddress with
  | none =>
    rw [receiverAccount, hto]
    exact Prog.ensures_pure
      ⟨.ok none, List.nil_prefix, by simp [receiverRules, hto, firstViolated], fun _ => rfl⟩
  | some toAddress =>
    rw [receiverAccount, hto]
    simp only [await, bind_assoc]
    refine Prog.ensures_request_bind fun receiver => ?_
    cases receiver with
    | error e =>
      refine Prog.ensures_throw ⟨.error e, List.prefix_refl _, ?_, fun _ => rfl⟩
      simp [receiverRules, hto, firstViolated]
    | ok info =>
      cases info with
      | none =>
        refine Prog.ensures_pure ⟨.ok none, List.prefix_refl _, ?_, fun _ => rfl⟩
        simp [receiverRules, hto, firstViolated]
      | some account =>
        rw [pure_bind]
        dsimp only
        split
        · rename_i hrequired
          refine Prog.ensures_throw ⟨.ok (some account), List.prefix_refl _, ?_, fun _ => rfl⟩
          simp [receiverRules, hto, firstViolated, hrequired]
        · rename_i hrequired
          refine Prog.ensures_pure ⟨.ok (some account), List.prefix_refl _, ?_, fun _ => rfl⟩
          simp [receiverRules, hto, firstViolated, hrequired]

private theorem afterPending_judges (s : Settings) (cfg : RelayConfig)
    (ethers : Transaction → Details)
    (account : AccountInfo) (pending : ℕ) (hfrom : tx.fromAddress.isSome) :
    Judges (fun receiver => match tx.toAddress with
        | some toAddress => [⟨.getAccount toAddress, receiver⟩]
        | none => [])
      (fun receiver => senderRules tx (ethers tx) (.ok (some account)) pending ++
        receiverRules tx receiver)
      (await (return nonce tx (account.ethereumNonce.plus pending)) >>= fun _ =>
        await (return (withPrechecks s cfg ethers).checkAccount tx account) >>= fun _ =>
          receiverAccount tx) := by
  have haccount : (withPrechecks s cfg ethers).checkAccount tx account = _ :=
    (congrArg (Except.mapError RelayError.jsonRpcError)
      (checkAccount_eq tx (ethers tx) account)).trans (firstViolated_map _).symm
  have : Nonempty (Except TxError (Option AccountInfo)) := ⟨.ok none⟩
  have hjudged := ((receiverAccount_judges tx).behind haccount).behind
    (nonce_eq tx (account.ethereumNonce.plus pending))
  refine hjudged.mono fun history result h => ?_
  obtain ⟨receiver, hhistory, hresult, hall⟩ := h
  exact ⟨receiver, hhistory, hresult.trans (firstViolated_cons_of_holds hfrom).symm, hall⟩

private theorem sendRawTransactionCheck_judges (s : Settings) (cfg : RelayConfig)
    (ethers : Transaction → Details) (tx : Transaction) (price : ℕ) :
    Judges (Replies.history tx) (rules s tx (ethers tx) price)
      (sendRawTransactionCheck (withPrechecks s cfg ethers) tx price) := by
  have htransaction : (withPrechecks s cfg ethers).checkTransaction tx price = _ :=
    (congrArg (Except.mapError RelayError.jsonRpcError)
      (checkTransaction_eq s tx (ethers tx) price)).trans (firstViolated_map _).symm
  have : Nonempty Replies := ⟨⟨.ok none, 0, .ok none⟩⟩
  show Judges _ (fun replies => rules s tx (ethers tx) price replies) _
  simp only [rules, List.append_assoc]
  refine @Judges.behind Replies _ (fun replies => senderRules tx (ethers tx) replies.account
    replies.pending ++ receiverRules tx replies.receiver) _ _ ?_ _ _ htransaction
  simp only [verifyAccount, await, bind_assoc]
  refine Prog.ensures_request_bind fun account => ?_
  have hfirst {rest : History TxOp TxOp.Reply} {e : TxOp} {reply : e.Reply} :
      [⟨e, reply⟩] <+: (⟨e, reply⟩ : (op : TxOp) × op.Reply) :: rest :=
    List.cons_prefix_cons.mpr ⟨rfl, List.nil_prefix⟩
  match account with
  | .error e => exact Prog.ensures_throw ⟨⟨.error e, 0, .ok none⟩, hfirst, rfl, nofun⟩
  | .ok none => exact Prog.ensures_throw ⟨⟨.ok none, 0, .ok none⟩, hfirst, rfl, nofun⟩
  | .ok (some account) =>
    cases hfrom : tx.fromAddress with
    | none =>
      refine Prog.ensures_throw ⟨⟨.ok (some account), 0, .ok none⟩, ?_, ?_, nofun⟩
      · rw [Replies.history, hfrom]
        exact hfirst
      · have hviolated : firstViolated (senderRules tx (ethers tx) (.ok (some account)) 0 ++
            receiverRules tx (.ok none)) = .error (nullError "toLowerCase") := by
          rw [senderRules, hfrom, List.cons_append]
          exact firstViolated_cons_of_not rfl
        exact hviolated.symm
    | some address =>
      refine Prog.ensures_request_bind fun pending => ?_
      have hsome : tx.fromAddress.isSome := by rw [hfrom]; rfl
      have hjudged := afterPending_judges s cfg ethers account pending hsome
      refine hjudged.mono fun history result h => ?_
      obtain ⟨receiver, hhistory, hresult, hall⟩ := h
      refine ⟨⟨.ok (some account), pending, receiver⟩, ?_, hresult, fun hok => ?_⟩
      · rw [Replies.history, hfrom]
        exact List.cons_prefix_cons.mpr ⟨rfl, List.cons_prefix_cons.mpr ⟨rfl, hhistory⟩⟩
      · rw [Replies.history, hfrom, hall hok]
        rfl

private theorem sendRawTransactionCheck_asks (s : Settings) (cfg : RelayConfig)
    (ethers : Transaction → Details) (tx : Transaction) (price : ℕ) :
    Prog.Ensures (sendRawTransactionCheck (withPrechecks s cfg ethers) tx price)
      fun history _ => history = [] ↔ ¬WellFormed s tx (ethers tx) price := by
  have htransaction : (withPrechecks s cfg ethers).checkTransaction tx price =
      (firstViolated (transactionRules s tx (ethers tx) price)).mapError .jsonRpcError :=
    congrArg (Except.mapError RelayError.jsonRpcError) (checkTransaction_eq s tx (ethers tx) price)
  rw [wellFormed_iff, sendRawTransactionCheck, htransaction]
  cases hrules : firstViolated (transactionRules s tx (ethers tx) price) with
  | error e => exact Prog.ensures_throw (by simp)
  | ok =>
    simp only [verifyAccount, await, bind_assoc]
    refine Prog.ensures_request_bind fun account => ?_
    intro history result _
    simp

end Runs

end JsonRpcRelay.Transactions.Precheck

import JsonRpcRelay.Account.AccountService
import JsonRpcRelay.Fees.FeeService
import JsonRpcRelay.Framework.Traversal
import JsonRpcRelay.Transactions.Precheck
import JsonRpcRelay.Transactions.SubmittedBytes

/-!
# What the relay answers and what it checks

A wallet makes a transaction from what the relay has answered about the chain, the price of gas
and the sender.  The prechecks ask the mirror node and the pool again.  As long as these say what
they have said before, the prechecks are rules on the answers.
-/

namespace JsonRpcRelay.Transactions.Precheck

open constants Mirror Common Framework

section Outcome

variable {cfg : RelayConfig} {s : Settings} {ethers : Transaction → Details} {tx : Transaction}
  {price : ℕ} {answer : (op : TxOp) → op.Reply}

private theorem outcome_await {α : Type} (x : TxM (Except TxError α)) :
    Prog.outcome answer (await x) = Prog.outcome answer x >>= id := by
  rw [await, Prog.outcome_bind]
  apply bind_congr
  intro r
  cases r with
  | error e => rfl
  | ok a => rfl

private theorem outcome_return {α : Type} (r : Except TxError α) :
    Prog.outcome answer (await (return r)) = r := outcome_await _

private theorem outcome_getAccount (address : String) :
    Prog.outcome answer (await (request (.getAccount address))) = answer (.getAccount address) :=
  outcome_await _

private theorem outcome_receiverAccount : Prog.outcome answer (receiverAccount tx) =
    firstViolated (receiverRules tx (answer (.getAccount (addressText tx.toAddress)))) := by
  unfold receiverAccount
  cases haddress : tx.toAddress with
  | none =>
    cases answer (.getAccount (addressText none)) with
    | error e =>
      rw [receiverRules, haddress]
      rfl
    | ok info =>
      rw [receiverRules, haddress]
      rfl
  | some toAddress =>
    dsimp only
    rw [Prog.outcome_bind, outcome_getAccount]
    change (answer (.getAccount toAddress) >>= _) =
      firstViolated (receiverRules tx (answer (.getAccount toAddress)))
    cases answer (.getAccount toAddress) with
    | error e =>
      rw [receiverRules, haddress]
      rfl
    | ok info =>
      rw [receiverRules, haddress]
      cases info with
      | none => rfl
      | some account =>
        change Prog.outcome answer (if account.receiverSigRequired then _ else _) = _
        cases hrequired : account.receiverSigRequired with
        | true =>
          rw [firstViolated_cons_of_not (by simp [hrequired])]
          rfl
        | false =>
          rw [firstViolated_cons_of_holds (by simp [hrequired])]
          rfl

/-- What a relay answers whose replies depend on the requests alone. -/
def repliesOf (answer : (op : TxOp) → op.Reply) (tx : Transaction) : Replies where
  account := answer (.getAccount (addressText tx.fromAddress))
  pending := answer (.getList (Lock.normalizeAddress (addressText tx.fromAddress)))
  receiver := answer (.getAccount (addressText tx.toAddress))

private theorem outcome_knownAccount (info : AccountInfo) :
    Prog.outcome answer (do
      let pendingCount ← getPendingCount tx.fromAddress
      await (return nonce tx (info.ethereumNonce.plus pendingCount))
      await (return (withPrechecks s cfg ethers).checkAccount tx info)
      receiverAccount tx) =
    firstViolated (senderRules tx (ethers tx) (.ok (some info)) (repliesOf answer tx).pending ++
      receiverRules tx (repliesOf answer tx).receiver) := by
  have haccount : (withPrechecks s cfg ethers).checkAccount tx info = _ :=
    (congrArg (Except.mapError RelayError.jsonRpcError)
      (checkAccount_eq tx (ethers tx) info)).trans (firstViolated_map _).symm
  cases hfrom : tx.fromAddress with
  | none =>
    have hviolated : firstViolated (senderRules tx (ethers tx) (.ok (some info))
        (repliesOf answer tx).pending ++ receiverRules tx (repliesOf answer tx).receiver) =
          .error (nullError "toLowerCase") := by
      rw [senderRules, hfrom, List.cons_append]
      exact firstViolated_cons_of_not rfl
    exact hviolated.symm
  | some address =>
    have hsome : tx.fromAddress.isSome = true := by rw [hfrom]; rfl
    have hpending : (repliesOf answer tx).pending =
        answer (.getList (Lock.normalizeAddress address)) := by rw [repliesOf, hfrom]; rfl
    have hlater : Prog.outcome answer
        (await (return (withPrechecks s cfg ethers).checkAccount tx info) >>= fun _ =>
          receiverAccount tx) =
          ((withPrechecks s cfg ethers).checkAccount tx info >>= fun _ =>
            firstViolated (receiverRules tx (repliesOf answer tx).receiver)) := by
      rw [Prog.outcome_bind, outcome_return, outcome_receiverAccount]
      rfl
    rw [Prog.outcome_bind, hpending]
    change Prog.outcome answer (await (return nonce tx (info.ethereumNonce.plus
      (answer (.getList (Lock.normalizeAddress address))))) >>= _) = _
    rw [Prog.outcome_bind, outcome_return, nonce_eq]
    refine Eq.trans ?_ (firstViolated_cons_of_holds hsome).symm
    rw [hlater, haccount, ← firstViolated_append, ← firstViolated_append]
    rfl

private theorem outcome_sendRawTransactionCheck :
    Prog.outcome answer (sendRawTransactionCheck (withPrechecks s cfg ethers) tx price) =
      firstViolated (rules s tx (ethers tx) price (repliesOf answer tx)) := by
  have htransaction : (withPrechecks s cfg ethers).checkTransaction tx price = _ :=
    (congrArg (Except.mapError RelayError.jsonRpcError)
      (checkTransaction_eq s tx (ethers tx) price)).trans (firstViolated_map _).symm
  rw [sendRawTransactionCheck, Prog.outcome_bind, outcome_return, htransaction, rules,
    List.append_assoc, firstViolated_append]
  apply bind_congr
  intro _
  rw [Prog.outcome_bind, verifyAccount, Prog.outcome_bind, outcome_getAccount]
  change (answer (.getAccount (addressText tx.fromAddress)) >>= _) >>= _ =
    firstViolated (senderRules tx (ethers tx) (answer (.getAccount (addressText tx.fromAddress)))
      (repliesOf answer tx).pending ++ receiverRules tx (repliesOf answer tx).receiver)
  cases answer (.getAccount (addressText tx.fromAddress)) with
  | error e => rfl
  | ok account =>
    cases account with
    | none => rfl
    | some info => exact outcome_knownAccount info

end Outcome

section Answers

/-- What a wallet is told. -/
structure WalletAnswers where
  chainId : String
  gasPrice : String
  transactionCount : String
  balance : String

/-- The configuration and the requests of the services that a wallet asks. -/
structure WalletServices where
  common : CommonConfig
  fees : Fees.FeeConfig
  mirror : MirrorNodeClient (Except RelayError)
  feeClient : Fees.FeeClient (Except RelayError)
  accountClient : Account.AccountClient (Except RelayError)

/-- `eth_chainId`, `eth_gasPrice`, `eth_getTransactionCount` with the pending transactions, and
`eth_getBalance` at the latest block. -/
def walletAnswers (s : Settings) (w : WalletServices) (address : String) :
    Except RelayError WalletAnswers := do
  let gasPrice ← Fees.gasPrice w.fees w.feeClient
  let transactionCount ← Account.getTransactionCount w.common w.mirror w.accountClient address
    .pending
  let balance ← Account.getBalance w.common w.mirror w.accountClient address .latest
  return { chainId := numberTo0x s.chainId, gasPrice, transactionCount, balance }

/-- The mirror node and the pool say to the prechecks what they have said to the wallet, of an
account whose nonce the mirror node keeps. -/
structure SameView (w : WalletServices) (address : String) (price : ℕ) (replies : Replies) : Prop
    where
  price : ∃ weibars, Fees.getGasPriceInWeibars w.feeClient none = .ok weibars ∧
    price = w.fees.addPercentageBufferToGasPrice weibars
  account : ∃ account info nonce, w.accountClient.getAccount address = .ok (some account) ∧
    replies.account = .ok (some info) ∧ account.ethereumNonce = some nonce ∧
    info.ethereumNonce = .number nonce ∧ account.balance = info.balance.map Int.ofNat
  pending : w.accountClient.getPendingCount address = .ok replies.pending

/-- The transaction goes with the answers, and meets the rules that no answer tells of. -/
structure FitsAnswers (s : Settings) (tx : Transaction) (d : Details) (answers : WalletAnswers)
    (receiverReply : Except TxError (Option AccountInfo)) : Prop where
  callData : d.data.length ≤ s.callDataSizeLimit
  size : d.serialization.length ≤ s.sendRawTransactionSizeLimit
  type : d.type ≠ some 3
  gas_le : d.gasLimit ≤ s.maxTransactionFeeThreshold
  le_gas : intrinsicGas d.data ≤ d.gasLimit
  chain : isLegacyUnprotectedEtx d = true ∨ d.chainId = bigIntOfHex answers.chainId
  value : d.value = 0 ∨ TINYBAR_TO_WEIBAR_COEF ≤ d.value
  price : bigIntOfHex answers.gasPrice ≤ d.txGasPrice + s.gasPriceTinyBarBuffer ∨
    isDeterministicDeploymentTransaction d = true ∨
      isSubsidizedTransaction s tx.toAddress = true
  sender : tx.fromAddress.isSome
  nonce : bigIntOfHex answers.transactionCount ≤ tx.nonce
  funds : d.value + d.txGasPrice * d.gasLimit ≤ bigIntOfHex answers.balance
  accessList : ∀ entries ∈ d.accessList, entries = []
  receiver : tx.toAddress.isSome → ∃ receiver, receiverReply = .ok receiver ∧
    ∀ account ∈ receiver, account.receiverSigRequired = false

end Answers

section Exactness

variable {s : Settings} {w : WalletServices} {address : String} {price : ℕ} {replies : Replies}
  {text : String}

private theorem gasPrice_of_sameView (h : SameView w address price replies) :
    Fees.gasPrice w.fees w.feeClient = .ok (numberTo0x price) := by
  obtain ⟨weibars, hweibars, hprice⟩ := h.price
  rw [Fees.gasPrice, Fees.bufferedGasPrice, hweibars, hprice]
  rfl

section OneAccount

variable {account : Account.MirrorAccount} {nonce : ℕ}

private theorem transactionCount_of_getAccount (hpending : w.accountClient.getPendingCount address =
      .ok replies.pending) (haccount : w.accountClient.getAccount address = .ok (some account))
    (hnonce : account.ethereumNonce = some nonce) :
    Account.getTransactionCount w.common w.mirror w.accountClient address .pending =
      .ok (numberTo0x (nonce + replies.pending : ℕ)) := by
  have hlatest : Account.getAccountLatestEthereumNonce w.accountClient address =
      .ok (numberTo0x nonce) := by
    rw [Account.getAccountLatestEthereumNonce, haccount]
    simp only [bind, Except.bind, hnonce]
    rfl
  change Account.latestTransactionCount w.accountClient address .pending = _
  rw [Account.latestTransactionCount, hlatest, hpending]
  change Except.ok (numberTo0x (bigIntOfHex _ + _ : ℕ)) = _
  rw [bigIntOfHex_numberTo0x]

private theorem balance_of_getAccount {info : AccountInfo}
    (haccount : w.accountClient.getAccount address = .ok (some account))
    (hsame : account.balance = info.balance.map Int.ofNat)
    (hbalance : Account.getBalance w.common w.mirror w.accountClient address .latest = .ok text) :
    ∃ balance ∈ info.balance, bigIntOfHex text = balance * TINYBAR_TO_WEIBAR_COEF := by
  cases hinfo : info.balance with
  | none =>
    have hnull : account.balance = none := by rw [hsame, hinfo]; rfl
    have hfails : Account.getCurrentBalance w.accountClient address =
        .error (typeError "null" "balance") := by
      rw [Account.getCurrentBalance, haccount]
      simp only [bind, Except.bind, hnull]
      rfl
    change tryCatch (Account.getCurrentBalance w.accountClient address) _ = _ at hbalance
    rw [hfails] at hbalance
    cases hbalance
  | some balance =>
    have hsome : account.balance = some (balance : ℤ) := by rw [hsame, hinfo]; rfl
    have hshows : Account.getCurrentBalance w.accountClient address =
        .ok (Account.weibarsTo0x balance) := by
      rw [Account.getCurrentBalance, haccount]
      simp only [bind, Except.bind, hsome]
      rfl
    change tryCatch (Account.getCurrentBalance w.accountClient address) _ = _ at hbalance
    rw [hshows] at hbalance
    cases hbalance
    refine ⟨balance, rfl, ?_⟩
    rw [Account.weibarsTo0x, ← Int.natCast_mul, bigIntOfHex_numberTo0x]

end OneAccount

/-- What the answers say of the account in the replies. -/
structure Told (s : Settings) (price : ℕ) (replies : Replies) (info : AccountInfo) (nonce : ℕ)
    (answers : WalletAnswers) : Prop where
  chainId : bigIntOfHex answers.chainId = s.chainId
  gasPrice : bigIntOfHex answers.gasPrice = price
  replied : replies.account = .ok (some info)
  kept : info.ethereumNonce = .number nonce
  transactionCount : bigIntOfHex answers.transactionCount = nonce + replies.pending
  balance : ∃ balance ∈ info.balance,
    bigIntOfHex answers.balance = balance * TINYBAR_TO_WEIBAR_COEF

private theorem told_of_sameView {answers : WalletAnswers} (h : SameView w address price replies)
    (hanswers : walletAnswers s w address = .ok answers) :
    ∃ info nonce, Told s price replies info nonce answers := by
  obtain ⟨account, info, nonce, haccount, hreplied, hnonce, hinfo, hsame⟩ := h.account
  rw [walletAnswers, gasPrice_of_sameView h,
    transactionCount_of_getAccount h.pending haccount hnonce] at hanswers
  change (Account.getBalance w.common w.mirror w.accountClient address .latest >>= _) = _
    at hanswers
  obtain ⟨balance, hbalance, hok⟩ := exists_of_bind_ok hanswers
  cases hok
  exact ⟨info, nonce,
    { chainId := bigIntOfHex_numberTo0x _
      gasPrice := bigIntOfHex_numberTo0x _
      replied := hreplied
      kept := hinfo
      transactionCount := bigIntOfHex_numberTo0x _
      balance := balance_of_getAccount haccount hsame hbalance }⟩

private theorem admissible_iff_fitsAnswers {tx : Transaction} {d : Details}
    {answers : WalletAnswers}
    {info : AccountInfo} {nonce : ℕ} (h : Told s price replies info nonce answers) :
    Admissible s tx d price replies ↔ FitsAnswers s tx d answers replies.receiver := by
  obtain ⟨balance, hbalance, hfunds⟩ := h.balance
  have hplus : info.ethereumNonce.plus replies.pending = some (nonce + replies.pending) := by
    rw [h.kept]
    rfl
  constructor
  · intro hadmissible
    obtain ⟨account, haccount, hleast, balance', hbalance', hpaid⟩ := hadmissible.account
    rw [h.replied] at haccount
    cases haccount
    cases hbalance.symm.trans hbalance'
    exact
      { hadmissible with
        chain := h.chainId ▸ hadmissible.chain
        price := h.gasPrice ▸ hadmissible.price
        nonce := h.transactionCount ▸ hleast _ hplus
        funds := by
          rw [hfunds]
          exact_mod_cast hpaid }
  · intro hfits
    exact
      { hfits with
        chain := h.chainId ▸ hfits.chain
        price := h.gasPrice ▸ hfits.price
        account := by
          refine ⟨info, h.replied, ?_, balance, hbalance, ?_⟩
          · intro nonce' hnonce'
            cases hplus.symm.trans hnonce'
            exact h.transactionCount ▸ hfits.nonce
          · have hpaid := hfits.funds
            rw [hfunds] at hpaid
            exact_mod_cast hpaid }

end Exactness

section Runs

/-- The default limits on the test network. -/
def testnetSettings : Settings where
  maxTransactionFeeThreshold := 15000000
  callDataSizeLimit := 131072
  sendRawTransactionSizeLimit := 133120
  chainId := 298
  gasPriceTinyBarBuffer := 10000000000
  paymasterEnabled := false
  paymasterWhitelist := []
  threshold_lt := by decide
  callDataSizeLimit_lt := by decide
  chainId_lt := by decide

/-- A mirror node and a pool that know the sender of the transfer, who has sent three transactions
and has another one in the pool. -/
def walletServices : WalletServices where
  common := {}
  fees := {}
  mirror :=
    { getLatestBlock := fun _ => .ok none
      getBlock := fun _ _ => .ok none
      getLogs := fun _ _ => .ok [] }
  feeClient := { getNetworkFees := fun _ => .ok (some (some [⟨"EthereumTransaction", some 72⟩])) }
  accountClient :=
    { getAccount := fun address => .ok (some
        { account := "0.0.1015"
          evmAddress := address
          balance := some 500000000
          ethereumNonce := some 3
          transactions := []
          next := none })
      getAccountWithTransactions := fun _ => .ok none
      getAccountPaginated := fun _ => .ok []
      getBalanceAtTimestamp := fun _ _ => .ok none
      getAccountLatestEthereumTransactionsByTimestamp := fun _ _ _ => .ok none
      getContractResult := fun _ => .ok none
      getEarliestBlock := .ok none
      getPendingCount := fun _ => .ok 1
      getCachedBlockNumber := .ok none
      setCachedBlockNumber := fun _ => .ok () }

/-- The same mirror node and pool behind the prechecks. -/
def walletReply : (op : TxOp) → op.Reply
  | .acquireLock _ => (0 : ℕ)
  | .releaseLock .. | .addToList .. | .removeFromList .. | .deleteFile _ | .wait => ()
  | .getGasPriceInWeibars => .ok (72 * TINYBAR_TO_WEIBAR_COEF)
  | .getCurrentNetworkExchangeRateInCents => .ok 12
  | .getAccount _ => .ok (some ⟨.number 3, some 500000000, false⟩)
  | .getList _ => (1 : ℕ)
  | .submitEthereumTransaction .. => .ok ⟨none, none⟩
  | .getContractResult _ => .ok none
  | .getContractRevertReasonFromTransaction _ => .ok ()

def transferDetails : Details where
  data := []
  serialization := Raw.transferPayload
  type := some 2
  gasLimit := 3000000
  chainId := 298
  signatureV := some 28
  value := TINYBAR_TO_WEIBAR_COEF
  gasPrice := none
  fees := some (72 * TINYBAR_TO_WEIBAR_COEF, 72 * TINYBAR_TO_WEIBAR_COEF)
  accessList := some []

end Runs

end JsonRpcRelay.Transactions.Precheck

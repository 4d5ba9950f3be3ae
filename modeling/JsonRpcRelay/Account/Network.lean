import JsonRpcRelay.Account.AccountService
import JsonRpcRelay.Common.FixedChain

/-!
# Accounts on a chain

What the mirror node answers about accounts while the chain stands still, and which of its
answers stay the same when the chain goes on.
-/

namespace JsonRpcRelay.Account

open constants Js Mirror Common Contract

section State

/-- The answers about accounts. -/
structure AccountData where
  account : String → Option MirrorAccount
  accountWithTransactions : String → Option MirrorAccount
  page : String → List AccountTransaction
  balances : String → Timestamp → Option (List ℤ)
  ethereumTransactions : String → Timestamp → ℕ → Option (List AccountTransaction)
  transactionResult : String → Option TransactionResult
  pendingCount : String → ℕ

/-- The chain with its accounts, and the number in the cache of the relay, which is that of a
block of the chain. -/
structure Network where
  chain : Chain
  accounts : AccountData
  cachedBlockNumber : Option ℕ
  cached_le : ∀ n ∈ cachedBlockNumber, n ≤ chain.head

/-- The number of the latest block as far as the relay knows. -/
def Network.known (s : Network) : ℕ := s.cachedBlockNumber.getD s.chain.head

/-- The balance of a block is found by its time, and it is imported by now. -/
def Imported (chain : Chain) (timestamp : Timestamp) : Prop :=
  BALANCES_UPDATE_INTERVAL < (chain.latest.timestampTo.seconds : ℤ) - timestamp.seconds

instance (chain : Chain) (timestamp : Timestamp) : Decidable (Imported chain timestamp) :=
  inferInstanceAs (Decidable (_ < _))

/-- The chain has gone on.  Without a further block the accounts are the same; else imported
balances, the transactions up to the end of the first chain and their results, and the addresses
of accounts have stayed.  What the relay knows of the latest block is not older. -/
structure Network.Extends (s t : Network) : Prop where
  chain : s.chain.Extends t.chain
  accounts : s.chain.head = t.chain.head → s.accounts = t.accounts
  balances : ∀ account timestamp, Imported s.chain timestamp →
    t.accounts.balances account timestamp = s.accounts.balances account timestamp
  ethereumTransactions : ∀ address timestamp n, timestamp ≤ s.chain.latest.timestampTo →
    t.accounts.ethereumTransactions address timestamp n =
      s.accounts.ethereumTransactions address timestamp n
  transactionResult : ∀ id result, s.accounts.transactionResult id = some result →
    t.accounts.transactionResult id = some result
  evmAddress : ∀ id a, s.accounts.account id = some a →
    ∃ a', t.accounts.account id = some a' ∧ a'.evmAddress = a.evmAddress
  known : s.known ≤ t.known

/-- The requests of the account service while the chain stands still. -/
def Network.client (s : Network) : AccountClient (Except RelayError) where
  getAccount id := .ok (s.accounts.account id)
  getAccountWithTransactions id := .ok (s.accounts.accountWithTransactions id)
  getAccountPaginated url := .ok (s.accounts.page url)
  getBalanceAtTimestamp id timestamp := .ok (s.accounts.balances id timestamp)
  getAccountLatestEthereumTransactionsByTimestamp id timestamp n :=
    .ok (s.accounts.ethereumTransactions id timestamp n)
  getContractResult id := .ok (s.accounts.transactionResult id)
  getEarliestBlock := .ok (s.chain.block? 0)
  getPendingCount id := .ok (s.accounts.pendingCount id)
  getCachedBlockNumber := .ok (s.cachedBlockNumber.map fun n => numberTo0x n)
  setCachedBlockNumber _ := .ok ()

/-- The same with other answers for further pages. -/
def Network.clientWith (s : Network)
    (getAccountPaginated : String → Except RelayError (List AccountTransaction)) :
    AccountClient (Except RelayError) := { s.client with getAccountPaginated }

variable (config : CommonConfig) (s : Network)

def balanceOn (account : String) (param : BlockParam) : Except RelayError String :=
  getBalance config (chainClient s.chain) s.client account param

def transactionCountOn (address : String) (param : BlockParam) : Except RelayError String :=
  getTransactionCount config (chainClient s.chain) s.client address param

theorem Network.known_le : s.known ≤ s.chain.head := by
  rw [known]
  cases h : s.cachedBlockNumber with
  | none => exact le_rfl
  | some n => exact s.cached_le n h

end State

section Balances

variable {config : CommonConfig} {s : Network}
variable {paged : String → Except RelayError (List AccountTransaction)}

/-- Errors behind the handler. -/
def caught {α : Type} (x : Except RelayError α) : Except RelayError α :=
  x.mapError genericErrorHandler

theorem caught_eq_ok_iff {α : Type} {x : Except RelayError α} {a : α} :
    caught x = .ok a ↔ x = .ok a := by
  cases x with
  | error e => simp [caught, Except.mapError]
  | ok b => simp [caught, Except.mapError]

private theorem tryCatch_eq_caught {α : Type} (x : Except RelayError α) :
    (tryCatch x fun e => throw (genericErrorHandler e)) = caught x := by
  cases x <;> rfl

private theorem blockNumberTimestamp_chain :
    blockNumberTimestamp (chainClient s.chain) (s.clientWith paged) =
    .ok ⟨numberTo0x s.chain.head, some s.chain.latest.timestampTo⟩ := by
  rw [← s.chain.number_latest]
  rfl

private theorem knownLatestBlock_chain :
    knownLatestBlock (chainClient s.chain) (s.clientWith paged) =
    .ok ⟨numberTo0x s.known,
      s.cachedBlockNumber.elim (some s.chain.latest.timestampTo) fun _ => none⟩ := by
  have hcache : (s.clientWith paged).getCachedBlockNumber =
      .ok (s.cachedBlockNumber.map fun n => numberTo0x n) := rfl
  rw [knownLatestBlock, hcache, Network.known]
  cases s.cachedBlockNumber with
  | none => exact @blockNumberTimestamp_chain s paged
  | some n => rfl

/-- The number is close to the latest one that is known, or beyond it. -/
def isClose (s : Network) (n : Option ℕ) : Bool := n.any fun n => s.known ≤ n + 1

private theorem orLatestWithin_known (timestampTo : Option Timestamp) (n : Option ℕ)
    (param : BlockParam) :
    orLatestWithin ⟨numberTo0x s.known, timestampTo⟩ n param =
      if isClose s n then .latest else param := by
  cases n with
  | none => rfl
  | some n =>
    rw [orLatestWithin, bigIntOfHex_numberTo0x, latestBlockTolerance]
    congr 1
    simp only [isClose, Option.any_some, decide_eq_true_eq, eq_iff_iff]
    omega

private theorem withTimestamp_chain {param : BlockParam} (hne : param ≠ .latest) :
    withTimestamp (chainClient s.chain) (s.clientWith paged) ⟨numberTo0x s.known,
        s.cachedBlockNumber.elim (some s.chain.latest.timestampTo) fun _ => none⟩ param =
      .ok ⟨if s.cachedBlockNumber = none then numberTo0x s.known else numberTo0x s.chain.head,
        some s.chain.latest.timestampTo⟩ := by
  rw [withTimestamp]
  cases s.cachedBlockNumber with
  | none =>
    simp only [Option.elim_none, reduceCtorEq, and_false, if_false, if_true]
    rfl
  | some n =>
    simp only [Option.elim_some, hne, ne_eq, not_false_eq_true, true_and, if_true, reduceCtorEq,
      if_false]
    exact @blockNumberTimestamp_chain s paged

private theorem extractBlockNumberAndTimestamp_chain {param : BlockParam} {n : Option ℕ}
    (hcurrent : currentBlockNumber (chainClient s.chain) param = .ok n) :
    extractBlockNumberAndTimestamp (chainClient s.chain) (s.clientWith paged) param =
      (withTimestamp (chainClient s.chain) (s.clientWith paged)
        ⟨numberTo0x s.known,
          s.cachedBlockNumber.elim (some s.chain.latest.timestampTo) fun _ => none⟩
        (if isClose s n then .latest else param)).map fun latestBlock =>
          (latestBlock, if isClose s n then .latest else param) := by
  simp only [extractBlockNumberAndTimestamp, knownLatestBlock_chain, hcurrent, bind, Except.bind]
  rw [orLatestWithin_known]
  rfl

theorem getBalanceWith_chain (balanceOf : Timestamp → MirrorNodeBlock → Except RelayError String)
    {account : String} {param : BlockParam} {n : Option ℕ} {block : MirrorNodeBlock}
    (htag : blockTagIsLatestOrPending (some param) = false)
    (hcurrent : currentBlockNumber (chainClient s.chain) param = .ok n)
    (hblock : isClose s n = true ∨ blockOf s.chain (some param) = some block) :
    getBalanceWith config (chainClient s.chain) (s.clientWith paged) balanceOf account param =
      caught (if isClose s n then getCurrentBalance (s.clientWith paged) account
        else balanceOf s.chain.latest.timestampTo block) := by
  rw [getBalanceWith, htag, extractBlockNumberAndTimestamp_chain hcurrent]
  by_cases hclose : isClose s n = true
  · have hlatest (l : LatestBlockNumberTimestamp) :
        withTimestamp (chainClient s.chain) (s.clientWith paged) l .latest = .ok l := rfl
    simp only [if_pos hclose, hlatest]
    exact tryCatch_eq_caught _
  · have hne : param ≠ .latest := by
      rintro rfl
      cases htag
    have hfound : getHistoricalBlockResponse config (chainClient s.chain) .fromBlock (some param) =
        .ok (some block) := by
      rw [getHistoricalBlockResponse_chain, hblock.resolve_left hclose]
    have hbalance : balanceAtWith config (chainClient s.chain) (s.clientWith paged) balanceOf
        account ⟨if s.cachedBlockNumber = none then numberTo0x s.known
          else numberTo0x s.chain.head, some s.chain.latest.timestampTo⟩ param =
        balanceOf s.chain.latest.timestampTo block := by
      simp only [balanceAtWith, htag, hfound]
      rfl
    simp only [if_neg hclose, withTimestamp_chain hne]
    show (tryCatch (balanceAtWith config (chainClient s.chain) (s.clientWith paged) balanceOf
      account _ param) fun e => throw (genericErrorHandler e)) = _
    rw [hbalance]
    exact tryCatch_eq_caught _

/-- The balance as of a block of the chain that is not taken for the latest one. -/
def balanceOfBlockOn (s : Network) (account : String) (block : MirrorNodeBlock) :
    Except RelayError String :=
  balanceOfBlock s.client account s.chain.latest.timestampTo block

theorem balanceOn_of_block {account : String} {param : BlockParam} {block : MirrorNodeBlock}
    (htag : blockTagIsLatestOrPending (some param) = false)
    (hcurrent : currentBlockNumber (chainClient s.chain) param = .ok (some block.number))
    (hblock : s.known ≤ block.number + 1 ∨ blockOf s.chain (some param) = some block) :
    balanceOn config s account param =
      caught (if s.known ≤ block.number + 1 then getCurrentBalance s.client account
        else balanceOfBlockOn s account block) := by
  have hclose : isClose s (some block.number) = true ↔ s.known ≤ block.number + 1 := by
    simp [isClose]
  have hbalance := @getBalanceWith_chain config s (fun url => .ok (s.accounts.page url))
    (balanceOfBlock s.client account) account param _ block htag hcurrent
      (hblock.imp_left hclose.mpr)
  simp only [hclose] at hbalance
  exact hbalance

theorem getCurrentBalance_of_some {account : String} {a : MirrorAccount} {balance : ℤ}
    (haccount : s.accounts.account account = some a) (hbalance : a.balance = some balance) :
    getCurrentBalance s.client account = .ok (weibarsTo0x balance) := by
  have hget : s.client.getAccount account = .ok (some a) := congrArg Except.ok haccount
  simp only [getCurrentBalance, hget, hbalance, bind, Except.bind]
  rfl

theorem balanceOfBlockOn_of_imported {account : String} {block : MirrorNodeBlock}
    (h : Imported s.chain block.timestampFrom) : balanceOfBlockOn s account block =
      .ok (weibarsTo0x
        (((s.accounts.balances account block.timestampFrom).getD []).headD 0)) := by
  have hget : s.client.getBalanceAtTimestamp account block.timestampFrom =
      .ok (s.accounts.balances account block.timestampFrom) := rfl
  have hfound : getBalanceAtBlockNumber s.client account block s.chain.latest.timestampTo =
      .ok (some (((s.accounts.balances account block.timestampFrom).getD []).headD 0)) := by
    have hlong : (s.chain.latest.timestampTo.seconds : ℤ) - block.timestampFrom.seconds >
        BALANCES_UPDATE_INTERVAL := h
    rw [getBalanceAtBlockNumber, if_pos hlong, hget]
    match s.accounts.balances account block.timestampFrom with
    | none | some [] | some (_ :: _) => rfl
  rw [balanceOfBlockOn, balanceOfBlock, hfound]
  rfl

end Balances

section Counts

variable {config : CommonConfig} {s : Network} {address : String}

/-- The nonce of the account, where one of before nonces were tracked counts as one. -/
def latestNonce (s : Network) (address : String) : ℕ :=
  (s.accounts.account address).elim 0 fun a => a.ethereumNonce.getD 1

/-- The number of transactions that the account has sent up to the end of a block, if its last
transactions tell it. -/
def recordedNonce (s : Network) (address : String) (block : MirrorNodeBlock) : Option ℕ :=
  match (s.accounts.ethereumTransactions address block.timestampTo 2).getD [] with
  | [] => some 0
  | [_] => some 1
  | transaction :: _ =>
      (s.accounts.transactionResult transaction.transactionId).bind fun result =>
        (s.accounts.account result.fromAddress).bind fun sender =>
          if sender.evmAddress = address.toLower then some (result.nonce.getD 0 + 1) else none

theorem zero_eq_numberTo0x : ZERO_HEX = numberTo0x (0 : ℕ) := by decide

theorem one_eq_numberTo0x : ONE_HEX = numberTo0x (1 : ℕ) := by decide

theorem getAccountLatestEthereumNonce_chain :
    getAccountLatestEthereumNonce s.client address = .ok (numberTo0x (latestNonce s address)) := by
  have hget : s.client.getAccount address = .ok (s.accounts.account address) := rfl
  simp only [getAccountLatestEthereumNonce, hget, latestNonce, bind, Except.bind]
  cases s.accounts.account address with
  | none =>
    rw [zero_eq_numberTo0x]
    rfl
  | some a =>
    cases hnonce : a.ethereumNonce with
    | none =>
      simp only [Option.getD_none, Option.elim_some, hnonce, one_eq_numberTo0x]
      rfl
    | some n =>
      simp only [Option.getD_some, Option.elim_some, hnonce]
      rfl

/-- The transactions tell the count, or else there is an error or the latest count instead. -/
theorem nonceFromTransactions_cases (s : Network) (address : String) (block : MirrorNodeBlock) :
    (∃ n, recordedNonce s address block = some n ∧
      nonceFromTransactions s.client address
        ((s.accounts.ethereumTransactions address block.timestampTo 2).getD []) =
          .ok (numberTo0x n)) ∨
    recordedNonce s address block = none ∧
      ((∃ e, nonceFromTransactions s.client address
        ((s.accounts.ethereumTransactions address block.timestampTo 2).getD []) = .error e) ∨
      nonceFromTransactions s.client address
        ((s.accounts.ethereumTransactions address block.timestampTo 2).getD []) =
          .ok (numberTo0x (latestNonce s address))) := by
  rw [recordedNonce]
  match (s.accounts.ethereumTransactions address block.timestampTo 2).getD [] with
  | [] => exact .inl ⟨0, rfl, congrArg Except.ok zero_eq_numberTo0x⟩
  | [_] => exact .inl ⟨1, rfl, congrArg Except.ok one_eq_numberTo0x⟩
  | transaction :: next :: rest =>
    have hresult : s.client.getContractResult transaction.transactionId =
        .ok (s.accounts.transactionResult transaction.transactionId) := rfl
    simp only [nonceFromTransactions, hresult, bind, Except.bind]
    cases s.accounts.transactionResult transaction.transactionId with
    | none => exact .inr ⟨rfl, .inl ⟨_, rfl⟩⟩
    | some result =>
      have hsender : s.client.getAccount result.fromAddress =
          .ok (s.accounts.account result.fromAddress) := rfl
      simp only [nonceFromTransaction, hsender, Option.bind_some, bind, Except.bind]
      cases s.accounts.account result.fromAddress with
      | none => exact .inr ⟨rfl, .inl ⟨_, rfl⟩⟩
      | some sender =>
        by_cases hsame : sender.evmAddress = address.toLower
        · simp only [hsame, Option.bind_some, if_true, ne_eq, not_true_eq_false, if_false]
          exact .inl ⟨_, rfl, rfl⟩
        · simp only [hsame, Option.bind_some, if_false, ne_eq, not_false_eq_true, if_true]
          exact .inr ⟨trivial, .inr getAccountLatestEthereumNonce_chain⟩

theorem getAccountNonceFromContractResult_chain {n : ℕ} {block : MirrorNodeBlock}
    (hblock : s.chain.block? n = some block) :
    getAccountNonceFromContractResult (chainClient s.chain) s.client address n =
      nonceFromTransactions s.client address
        ((s.accounts.ethereumTransactions address block.timestampTo 2).getD []) := by
  have hget : (chainClient s.chain).getBlock .fromBlock (.number n) = .ok (some block) :=
    congrArg Except.ok hblock
  simp only [getAccountNonceFromContractResult, hget, bind, Except.bind]
  rfl

theorem getAccountNonceForHistoricBlock_chain {id : BlockId} {n : ℕ}
    (hnumber : blockNumOf (chainClient s.chain) id = .ok n) :
    getAccountNonceForHistoricBlock config (chainClient s.chain) s.client address id =
      if s.chain.head ≤ n + config.maxBlockRange then .ok (numberTo0x (latestNonce s address))
      else getAccountNonceFromContractResult (chainClient s.chain) s.client address n := by
  have hlatest : (chainClient s.chain).getLatestBlock .head = .ok (some [s.chain.latest]) := rfl
  have hclose : (s.chain.latest.number : ℤ) - n ≤ config.maxBlockRange ↔
      s.chain.head ≤ n + config.maxBlockRange := by
    rw [s.chain.number_latest]
    omega
  simp only [getAccountNonceForHistoricBlock, hnumber, hlatest, bind, Except.bind, hclose,
    getAccountLatestEthereumNonce_chain]

end Counts

end JsonRpcRelay.Account

import JsonRpcRelay.Account.RecentBalance

/-!
# Counts of sent transactions

The count as of a block is read off the last Ethereum transactions of the account.  These are
listed for every account that takes part in them, be it the sender or not.
-/

namespace JsonRpcRelay.Account

open constants Js Mirror Common Contract

section Histories

/-- An Ethereum transaction with its sender and its nonce. -/
structure EthereumTransaction where
  transaction : AccountTransaction
  fromAddress : String
  nonce : ℕ
  deriving DecidableEq

namespace EthereumTransaction

def timestamp (e : EthereumTransaction) : Timestamp := e.transaction.consensusTimestamp

/-- The account of the address has sent the transaction. -/
def isSentBy (s : Network) (address : String) (e : EthereumTransaction) : Bool :=
  (s.accounts.account e.fromAddress).map (·.account) = (s.accounts.account address).map (·.account)

end EthereumTransaction

/-- All Ethereum transactions the account of an address took part in, newest first.  They are
executed: their results are there, and the nonce of one that the account has sent is the number of
those it has sent before. -/
structure EthereumHistory (s : Network) (address : String) where
  entries : List EthereumTransaction
  newestFirst : entries.Pairwise fun later earlier => earlier.timestamp < later.timestamp
  listed : ∀ timestamp n, (s.accounts.ethereumTransactions address timestamp n).getD [] =
    ((entries.filter fun e => e.timestamp ≤ timestamp).take n).map (·.transaction)
  results : ∀ e ∈ entries, s.accounts.transactionResult e.transaction.transactionId =
    some ⟨e.fromAddress, some e.nonce⟩
  senders : ∀ e ∈ entries, ∃ sender, s.accounts.account e.fromAddress = some sender
  resolved : ∀ e ∈ entries, ∀ sender, s.accounts.account e.fromAddress = some sender →
    sender.evmAddress = address.toLower → e.isSentBy s address = true
  counted : ∀ later e earlier, entries = later ++ e :: earlier → e.isSentBy s address = true →
    e.nonce = (earlier.filter (·.isSentBy s address)).length

namespace EthereumHistory

variable {s : Network} {address : String} (history : EthereumHistory s address)

def upTo (timestamp : Timestamp) : List EthereumTransaction :=
  history.entries.filter fun e => e.timestamp ≤ timestamp

/-- The number of transactions that the account has sent up to a time. -/
def sentBy (timestamp : Timestamp) : ℕ :=
  ((history.upTo timestamp).filter (·.isSentBy s address)).length

/-- The only transaction up to a time has been sent by another account. -/
def OneReceived (timestamp : Timestamp) : Prop :=
  ∃ e, history.upTo timestamp = [e] ∧ e.isSentBy s address = false

end EthereumHistory

/-- The first blocks, for which the count is zero in any case. -/
def isFirst (param : BlockParam) : Bool :=
  param = .earliest ∨ numberOf param = some 0 ∨ numberOf param = some 1

/-- A hash with an unusual prefix, which is taken for the tag of an unknown block. -/
def isRejected : BlockParam → Bool
  | .hash text => 1 < bigIntOfHex text ∧ ¬startsWith text EMPTY_HEX
  | _ => false

/-- The last of several transactions up to the end of a block was sent from another address, and
the latest count of the account is the answer. -/
def FallsBack (s : Network) (address : String) (block : MirrorNodeBlock) : Prop :=
  ∃ (transaction next : AccountTransaction) (rest : List AccountTransaction)
    (result : TransactionResult) (sender : MirrorAccount),
    (s.accounts.ethereumTransactions address block.timestampTo 2).getD [] =
      transaction :: next :: rest ∧
    s.accounts.transactionResult transaction.transactionId = some result ∧
    s.accounts.account result.fromAddress = some sender ∧ sender.evmAddress ≠ address.toLower

/-- A count as of a block is that of the transactions the account had sent by its end, unless it
is the latest count. -/
def EthereumHistory.CountsSent {s : Network} {address : String}
    (history : EthereumHistory s address) (config : CommonConfig) (param : BlockParam)
    (block : MirrorNodeBlock) : Prop :=
  ∀ answer, transactionCountOn config s address param = .ok answer →
    isFirst param = true ∨ ¬FallsBack s address block →
      answer = numberTo0x (history.sentBy block.timestampTo)

end Histories

section Recorded

variable {s : Network} {address : String} {block : MirrorNodeBlock} {timestamp : Timestamp}

private theorem exists_later {entries : List EthereumTransaction}
    (h : entries.Pairwise fun later earlier => earlier.timestamp < later.timestamp)
    (timestamp : Timestamp) :
    ∃ later, entries = later ++ entries.filter fun e => e.timestamp ≤ timestamp := by
  induction h with
  | nil => exact ⟨[], rfl⟩
  | @cons e rest hearlier _ ih =>
    by_cases he : e.timestamp ≤ timestamp
    · have hrest : (rest.filter fun e => e.timestamp ≤ timestamp) = rest := by
        rw [List.filter_eq_self]
        intro e' he'
        exact decide_eq_true ((hearlier e' he').le.trans he)
      exact ⟨[], by simp [he, hrest]⟩
    · obtain ⟨later, hlater⟩ := ih
      exact ⟨e :: later, by simpa [he] using hlater⟩

namespace EthereumHistory

variable (history : EthereumHistory s address)

private theorem mem_of_upTo {e : EthereumTransaction} (h : e ∈ history.upTo timestamp) :
    e ∈ history.entries := List.mem_of_mem_filter h

private theorem sentBy_of_sent {e : EthereumTransaction} {earlier : List EthereumTransaction}
    (hupTo : history.upTo timestamp = e :: earlier) (hsent : e.isSentBy s address = true) :
    history.sentBy timestamp = e.nonce + 1 := by
  obtain ⟨later, hlater⟩ := exists_later history.newestFirst timestamp
  have hentries : history.entries = later ++ e :: earlier := by
    rw [← hupTo]
    exact hlater
  rw [sentBy, hupTo, List.filter_cons_of_pos hsent, List.length_cons,
    history.counted later e earlier hentries hsent]

/-- Without the latest count the answer is the number of sent transactions, but for a single one
that was received. -/
theorem recordedNonce_eq (hback : ¬FallsBack s address block) :
    (history.OneReceived block.timestampTo → recordedNonce s address block = some 1) ∧
      (¬history.OneReceived block.timestampTo →
        recordedNonce s address block = some (history.sentBy block.timestampTo)) := by
  have hlisted := history.listed block.timestampTo 2
  have hupTo : (history.entries.filter fun e => e.timestamp ≤ block.timestampTo) =
    history.upTo block.timestampTo := rfl
  rw [hupTo] at hlisted
  rcases h : history.upTo block.timestampTo with _ | ⟨e, _ | ⟨e', earlier⟩⟩
  · have hsent : history.sentBy block.timestampTo = 0 := by simp [sentBy, h]
    have hzero : recordedNonce s address block = some 0 := by
      rw [recordedNonce, hlisted, h]
      rfl
    exact ⟨by simp [OneReceived, h], fun _ => by rw [hzero, hsent]⟩
  · have hone : recordedNonce s address block = some 1 := by
      rw [recordedNonce, hlisted, h]
      rfl
    refine ⟨fun _ => hone, ?_⟩
    intro hnot
    have hsent : e.isSentBy s address = true := by simpa [OneReceived, h] using hnot
    have hcount : history.sentBy block.timestampTo = 1 := by simp [sentBy, h, hsent]
    rw [hone, hcount]
  · have hmem : e ∈ history.entries := history.mem_of_upTo (h ▸ List.mem_cons_self)
    have hresult := history.results e hmem
    obtain ⟨sender, hsender⟩ := history.senders e hmem
    have hlisted' : (s.accounts.ethereumTransactions address block.timestampTo 2).getD [] =
        [e.transaction, e'.transaction] := by
      rw [hlisted, h]
      rfl
    have hsame : sender.evmAddress = address.toLower := by
      by_contra hne
      exact hback ⟨_, _, _, _, sender, hlisted', hresult, hsender, hne⟩
    have hcount := history.sentBy_of_sent h (history.resolved e hmem sender hsender hsame)
    refine ⟨by simp [OneReceived, h], fun _ => ?_⟩
    rw [recordedNonce, hlisted']
    simp [hresult, hsender, hsame, hcount]

end EthereumHistory

end Recorded

section Answers

variable {config : CommonConfig} {s : Network} {address : String} {param : BlockParam}
  {block : MirrorNodeBlock}

private theorem transactionCountOn_of_isFirst (hnamed : Names s.chain block param)
    (hfirst : isFirst param = true) : transactionCountOn config s address param = .ok ZERO_HEX := by
  cases hnamed with
  | number hvalid hfound =>
    apply transactionCountOn_first
    simp only [isFirst, numberOf, Option.some.injEq, reduceCtorEq, false_or,
      decide_eq_true_eq] at hfirst
    omega
  | hash hvalid hfound =>
    apply transactionCountOn_smallHash
    simp only [isFirst, numberOf, Option.some.injEq, reduceCtorEq, false_or,
      decide_eq_true_eq] at hfirst
    omega
  | earliest hfound =>
    have hget : s.client.getEarliestBlock = .ok (some block) := congrArg Except.ok hfound
    have hzero : block.number = 0 := Chain.number_of_block? hfound
    rw [transactionCountOn, getTransactionCount]
    simp only [numberOf, blockTagIsLatestOrPending, reduceCtorEq, or_self, if_false, if_true,
      Bool.false_eq_true, getAccountNonceForEarliestBlock, hget, hzero, bind, Except.bind]
    rfl

private theorem transactionCountOn_of_isRejected (hnamed : Names s.chain block param)
    (hrejected : isRejected param = true) :
    transactionCountOn config s address param =
      .error (.jsonRpcError (predefined.UNKNOWN_BLOCK "")) := by
  cases hnamed with
  | number hvalid hfound => cases hrejected
  | hash hvalid hfound =>
    simp only [isRejected, Bool.not_eq_true, decide_eq_true_eq] at hrejected
    rw [transactionCountOn_hash hvalid hrejected.1, hrejected.2]
    rfl
  | earliest hfound => cases hrejected

private theorem transactionCountOn_of_named (hnamed : Names s.chain block param)
    (hfirst : isFirst param = false) (hrejected : isRejected param = false)
    (hfar : block.number + config.maxBlockRange < s.chain.head) :
    s.chain.block? block.number = some block ∧ transactionCountOn config s address param =
      getAccountNonceFromContractResult (chainClient s.chain) s.client address block.number := by
  cases hnamed with
  | @number text hvalid hfound =>
    have hnumber := Chain.number_of_block? hfound
    simp only [isFirst, numberOf, Option.some.injEq, reduceCtorEq, false_or,
      decide_eq_false_iff_not] at hfirst
    rw [hnumber]
    rw [hnumber] at hfar
    exact ⟨hfound, transactionCountOn_far hvalid (by omega) hfar⟩
  | @hash text hvalid hfound =>
    have hid : blockNumOf (chainClient s.chain) (.hash text) = .ok block.number := by
      have hget : (chainClient s.chain).getBlock .fromBlock (.hash text) = .ok (some block) :=
        congrArg Except.ok hfound
      rw [blockNumOf, hget]
      rfl
    simp only [isFirst, numberOf, Option.some.injEq, reduceCtorEq, false_or,
      decide_eq_false_iff_not] at hfirst
    have hlarge : 1 < bigIntOfHex text := by omega
    have hstart : startsWith text EMPTY_HEX = true := by simpa [isRejected, hlarge] using hrejected
    refine ⟨block?_of_findBlock hfound, ?_⟩
    rw [transactionCountOn_hash hvalid hlarge, if_pos hstart,
      getAccountNonceForHistoricBlock_chain hid, if_neg (by omega)]
  | earliest hfound => cases hfirst

/-- The latest count stands in for one that the last transaction does not tell. -/
theorem transactionCountOn_of_fallsBack (hnamed : Names s.chain block param)
    (hfirst : isFirst param = false) (hrejected : isRejected param = false)
    (hfar : block.number + config.maxBlockRange < s.chain.head)
    (hback : FallsBack s address block) :
    transactionCountOn config s address param = .ok (numberTo0x (latestNonce s address)) := by
  obtain ⟨hblock, hcount⟩ := @transactionCountOn_of_named config s address param block hnamed hfirst
    hrejected hfar
  obtain ⟨transaction, next, rest, result, sender, hlisted, hresult, hsender, hne⟩ := hback
  have hresult' : s.client.getContractResult transaction.transactionId = .ok (some result) :=
    congrArg Except.ok hresult
  have hsender' : s.client.getAccount result.fromAddress = .ok (some sender) :=
    congrArg Except.ok hsender
  rw [hcount, getAccountNonceFromContractResult_chain hblock, hlisted]
  simp only [nonceFromTransactions, hresult', nonceFromTransaction, hsender', hne, bind, Except.bind,
    ne_eq, not_false_eq_true, if_true]
  exact getAccountLatestEthereumNonce_chain

private theorem transactionCountOn_of_recorded (hnamed : Names s.chain block param)
    (hfirst : isFirst param = false) (hrejected : isRejected param = false)
    (hfar : block.number + config.maxBlockRange < s.chain.head) {count : ℕ}
    (hcount : recordedNonce s address block = some count) :
    transactionCountOn config s address param = .ok (numberTo0x count) := by
  obtain ⟨hblock, hanswer⟩ := @transactionCountOn_of_named config s address param block hnamed hfirst
    hrejected hfar
  rw [hanswer]
  apply count_of_recorded
  rw [recordedNonceAt, hblock, Option.bind_some, hcount]

namespace EthereumHistory

variable (history : EthereumHistory s address)

private theorem sentBy_of_oneReceived {timestamp : Timestamp} (h : history.OneReceived timestamp) :
    history.sentBy timestamp = 0 := by
  obtain ⟨e, hupTo, hreceived⟩ := h
  simp [sentBy, hupTo, hreceived]

private theorem not_fallsBack_of_oneReceived (h : history.OneReceived block.timestampTo) :
    ¬FallsBack s address block := by
  obtain ⟨e, hupTo, _⟩ := h
  rintro ⟨transaction, next, rest, _, _, hlisted, _⟩
  have hlength := congrArg List.length ((history.listed block.timestampTo 2).symm.trans hlisted)
  rw [List.length_map, List.length_take] at hlength
  have hone : (history.entries.filter fun e => e.timestamp ≤ block.timestampTo).length = 1 :=
    congrArg List.length hupTo
  rw [hone, List.length_cons, List.length_cons] at hlength
  omega

private theorem forall_answer_iff {x : Except RelayError String} {m n : ℕ}
    (h : x = .ok (numberTo0x m)) :
    (∀ answer, x = .ok answer → answer = numberTo0x n) ↔ m = n := by
  constructor
  · intro hall
    exact numberTo0x_inj (hall _ h)
  · rintro rfl answer hanswer
    exact Except.ok.inj (hanswer.symm.trans h)

private theorem countsSent_of_isFirst (hnamed : Names s.chain block param)
    (hfirst : isFirst param = true) :
    history.CountsSent config param block ↔ history.sentBy block.timestampTo = 0 := by
  have hanswer := @transactionCountOn_of_isFirst config s address param block hnamed hfirst
  rw [zero_eq_numberTo0x] at hanswer
  simp only [CountsSent, hfirst, true_or, forall_const]
  rw [forall_answer_iff hanswer, eq_comm]

private theorem countsSent_of_later (hnamed : Names s.chain block param)
    (hfirst : isFirst param = false) (hrejected : isRejected param = false)
    (hfar : block.number + config.maxBlockRange < s.chain.head) :
    history.CountsSent config param block ↔ ¬history.OneReceived block.timestampTo := by
  simp only [CountsSent, hfirst, Bool.false_eq_true, false_or]
  by_cases hback : FallsBack s address block
  · have hnot : ¬history.OneReceived block.timestampTo :=
      fun h => history.not_fallsBack_of_oneReceived h hback
    simp [hback, hnot]
  · obtain ⟨hone, hcount⟩ := history.recordedNonce_eq hback
    simp only [hback, not_false_eq_true, forall_const]
    by_cases hreceived : history.OneReceived block.timestampTo
    · rw [forall_answer_iff (transactionCountOn_of_recorded hnamed hfirst hrejected hfar
        (hone hreceived)), history.sentBy_of_oneReceived hreceived]
      simp [hreceived]
    · rw [forall_answer_iff (transactionCountOn_of_recorded hnamed hfirst hrejected hfar
        (hcount hreceived))]
      simp [hreceived]

/-- The count as of a block is that of the sent transactions exactly if the block is none of the
first ones or the account had sent nothing by then, and if there is not just one transaction, which
was received. -/
theorem historical_count_iff (config : CommonConfig) (hnamed : Names s.chain block param)
    (hfar : block.number + config.maxBlockRange < s.chain.head) :
    history.CountsSent config param block ↔
      isRejected param = true ∨ isFirst param = true ∧ history.sentBy block.timestampTo = 0 ∨
        isFirst param = false ∧ ¬history.OneReceived block.timestampTo := by
  cases hrejected : isRejected param with
  | true =>
    have hanswer := @transactionCountOn_of_isRejected config s address param block hnamed hrejected
    simp [CountsSent, hanswer]
  | false =>
    cases hfirst : isFirst param with
    | true => simpa using history.countsSent_of_isFirst hnamed hfirst
    | false => simpa using history.countsSent_of_later hnamed hfirst hrejected hfar

end EthereumHistory

end Answers

section Received

/-- A chain of blocks of two seconds. -/
def twoSecondBlocks : ℕ → Option Chain
  | 0 => some (Chain.single (twoSeconds 0) rfl (by decide) rfl)
  | n + 1 => (twoSecondBlocks n).bind fun chain => chain.append (twoSeconds (n + 1))

def eighteenSeconds : Chain := (twoSecondBlocks 8).get (by decide)

def payer : MirrorAccount :=
  { receiver with account := "0.0.1002", evmAddress := "0x00000000000000000000000000000000000003ea" }

/-- The only transaction is in the second block. -/
def payment : EthereumTransaction where
  transaction := ⟨"0.0.98-1696438002-0", (twoSeconds 1).block.timestampTo,
    [⟨"0.0.1002", -40, false⟩, ⟨"0.0.1001", 40, false⟩]⟩
  fromAddress := payer.evmAddress
  nonce := 7

def paidNetwork : Network where
  chain := eighteenSeconds
  accounts :=
    { account := fun id => if id = receiver.evmAddress then some receiver else some payer
      accountWithTransactions := fun _ => none
      page := fun _ => []
      balances := fun _ _ => none
      ethereumTransactions := fun _ timestamp n =>
        some ((([payment].filter fun e => e.timestamp ≤ timestamp).take n).map (·.transaction))
      transactionResult := fun _ => some ⟨payment.fromAddress, some payment.nonce⟩
      pendingCount := fun _ => 0 }
  cachedBlockNumber := none
  cached_le n hn := by cases hn

private theorem payment_received : payment.isSentBy paidNetwork receiver.evmAddress = false :=
  by decide

def paidHistory : EthereumHistory paidNetwork receiver.evmAddress where
  entries := [payment]
  newestFirst := List.pairwise_singleton _ _
  listed _ _ := rfl
  results e he := by
    rw [List.mem_singleton.mp he]
    rfl
  senders e he := by
    rw [List.mem_singleton.mp he]
    exact ⟨payer, rfl⟩
  resolved e he sender hsender hsame := by
    rw [List.mem_singleton.mp he] at hsender
    cases hsender
    exact absurd hsame (by decide +kernel)
  counted later e earlier hentries hsent := by
    have he : e ∈ [payment] := by simp [hentries]
    rw [List.mem_singleton.mp he, payment_received] at hsent
    cases hsent

private theorem names_two : Names paidNetwork.chain (twoSeconds 2).block (.hex "0x2") :=
  .number (by decide) rfl

theorem historical_count_iff_two : paidHistory.CountsSent {} (.hex "0x2") (twoSeconds 2).block ↔
    isRejected (.hex "0x2") = true ∨
      isFirst (.hex "0x2") = true ∧ paidHistory.sentBy (twoSeconds 2).block.timestampTo = 0 ∨
        isFirst (.hex "0x2") = false ∧
          ¬paidHistory.OneReceived (twoSeconds 2).block.timestampTo :=
  paidHistory.historical_count_iff {} names_two (by decide)

/-- The account has sent nothing, and one transaction is counted. -/
theorem received_transaction_counted :
    ¬paidHistory.CountsSent {} (.hex "0x2") (twoSeconds 2).block := by
  have hreceived : paidHistory.OneReceived (twoSeconds 2).block.timestampTo :=
    ⟨payment, by decide, payment_received⟩
  rw [paidHistory.countsSent_of_later names_two (by decide) (by decide) (by decide)]
  exact not_not_intro hreceived

end Received

end JsonRpcRelay.Account

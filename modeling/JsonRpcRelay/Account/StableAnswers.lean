import JsonRpcRelay.Account.Network
import JsonRpcRelay.Cache.CachedMethods
import JsonRpcRelay.Contract.Params

/-!
# Stored answers about accounts

Which of the balances and transaction counts of a numbered block stay the same while the chain
goes on.  They are stored whatever the distance of the block to the head is.
-/

namespace JsonRpcRelay.Account

open constants Js Mirror Common Contract Cache Framework

section Settled

/-- The balance of the block is found by its time. -/
def isSettledBalance (s : Network) (n : ℕ) : Bool :=
  n + 1 < s.known ∧ (s.chain.block? n).any fun block => Imported s.chain block.timestampFrom

/-- The number of transactions up to the end of a block of the chain. -/
def recordedNonceAt (s : Network) (address : String) (n : ℕ) : Option ℕ :=
  (s.chain.block? n).bind (recordedNonce s address)

/-- The transactions tell the count as of a block far enough from the head, or do so with the next
block and have the same count as the account. -/
def isSettledCount (config : CommonConfig) (s : Network) (address : String) (n : ℕ) : Bool :=
  n ≤ 1 ∨ (n + config.maxBlockRange < s.chain.head ∧ recordedNonceAt s address n ≠ none) ∨
    (n + config.maxBlockRange = s.chain.head ∧
      recordedNonceAt s address n = some (latestNonce s address))

end Settled

section Numbered

variable {text : String}

theorem readBlockParam_of_number (h : BlockParam.isBlockNumberText text = true) :
    readBlockParam text = .hex text := by
  have hshort := (length_of_isBlockNumberText h).1
  have hnumber : (readBlockParam text).isBlockNumber = true := by
    apply isBlockNumber_readBlockParam
    simp [Validators.TYPES.blockNumber, Validators.IType.plain, Json.toText_string, h]
  have hne (tag : String) (htag : BlockParam.isBlockNumberText tag = false) : text ≠ tag := by
    rintro rfl
    rw [h] at htag
    cases htag
  simp only [readBlockParam, hne "earliest" (by decide), hne "latest" (by decide),
    hne "pending" (by decide), hne "safe" (by decide), hne "finalized" (by decide), if_false]
  rw [if_pos (by omega)]

variable {config : CommonConfig} {s : Network} {account address : String}

private theorem paramText_hex : paramText (some (.hex text)) = text := rfl

theorem currentBlockNumber_number (chain : Chain) (h : BlockParam.isBlockNumberText text = true) :
    currentBlockNumber (chainClient chain) (.hex text) = .ok (some (bigIntOfHex text)) := by
  have hshort := (length_of_isBlockNumberText h).1
  rw [currentBlockNumber, paramText_hex, if_neg (by omega)]
  rfl

theorem balanceOn_close (h : BlockParam.isBlockNumberText text = true)
    (hclose : s.known ≤ bigIntOfHex text + 1) :
    balanceOn config s account (.hex text) = caught (getCurrentBalance s.client account) := by
  -- Only the number of the block is looked at, which need not be on the chain.
  let block : MirrorNodeBlock := { s.chain.latest with number := bigIntOfHex text }
  have hcurrent : currentBlockNumber (chainClient s.chain) (.hex text) = .ok (some block.number) :=
    currentBlockNumber_number s.chain h
  rw [balanceOn_of_block rfl hcurrent (.inl hclose)]
  exact congrArg caught (if_pos hclose)

theorem balanceOn_far (h : BlockParam.isBlockNumberText text = true) {block : MirrorNodeBlock}
    (hfar : bigIntOfHex text + 1 < s.known) (hblock : s.chain.block? (bigIntOfHex text) = some block) :
    balanceOn config s account (.hex text) = caught (balanceOfBlockOn s account block) := by
  have hnumber := Chain.number_of_block? hblock
  have hne : text ≠ EMPTY_HEX := by
    rintro rfl
    cases h
  have hfound : blockOf s.chain (some (.hex text)) = some block := by
    rw [blockOf, if_neg hne, hblock]
  rw [balanceOn_of_block rfl (hnumber ▸ currentBlockNumber_number s.chain h) (.inr hfound),
    if_neg (by omega)]

theorem transactionCountOn_first (hfirst : bigIntOfHex text ≤ 1) :
    transactionCountOn config s address (.hex text) = .ok ZERO_HEX := by
  have hnumber : numberOf (.hex text) = some 0 ∨ numberOf (.hex text) = some 1 := by
    simp only [numberOf, Option.some.injEq]
    omega
  rw [transactionCountOn, getTransactionCount]
  simp only [hnumber, if_true]
  rfl

theorem transactionCountOn_number (h : BlockParam.isBlockNumberText text = true)
    (hfirst : 1 < bigIntOfHex text) : transactionCountOn config s address (.hex text) =
      if s.chain.head ≤ bigIntOfHex text + config.maxBlockRange then
        .ok (numberTo0x (latestNonce s address))
      else getAccountNonceFromContractResult (chainClient s.chain) s.client address
        (bigIntOfHex text) := by
  have hnumber : ¬(numberOf (.hex text) = some 0 ∨ numberOf (.hex text) = some 1) := by
    simp only [numberOf, Option.some.injEq]
    omega
  have hlength : numberOf (.hex text) ≠ none ∧ text.length ≠ BLOCK_HASH_LENGTH := by
    have hshort := (length_of_isBlockNumberText h).1
    refine ⟨by simp [numberOf], ?_⟩
    rw [BLOCK_HASH_LENGTH]
    omega
  have hid : blockNumOf (m := Except RelayError) (chainClient s.chain)
      (.number (bigIntOfHex text)) = .ok (bigIntOfHex text) := rfl
  rw [transactionCountOn, getTransactionCount]
  simp only [hnumber, if_false, paramText_hex, blockTagIsLatestOrPending, Bool.false_eq_true,
    reduceCtorEq, hlength, and_self, if_true, ne_eq, not_false_eq_true]
  exact getAccountNonceForHistoricBlock_chain hid

end Numbered

section Recorded

variable {s t : Network} {address : String} {n k : ℕ}

theorem count_of_recorded (h : recordedNonceAt s address n = some k) :
    getAccountNonceFromContractResult (chainClient s.chain) s.client address n =
      .ok (numberTo0x k) := by
  obtain ⟨block, hblock, hrecorded⟩ := Option.bind_eq_some_iff.mp h
  rw [getAccountNonceFromContractResult_chain hblock]
  cases nonceFromTransactions_cases s address block with
  | inl h =>
    obtain ⟨k', hk', hcount⟩ := h
    rw [hcount, Option.some.inj (hk'.symm.trans hrecorded)]
  | inr h =>
    rw [h.1] at hrecorded
    cases hrecorded

private theorem count_of_not_recorded (hn : n ≤ s.chain.head)
    (h : recordedNonceAt s address n = none)
    {answer : String} (hanswer : getAccountNonceFromContractResult (chainClient s.chain) s.client
      address n = .ok answer) : answer = numberTo0x (latestNonce s address) := by
  obtain ⟨block, hblock⟩ := Chain.exists_block?_iff.mpr hn
  rw [recordedNonceAt, hblock, Option.bind_some] at h
  rw [getAccountNonceFromContractResult_chain hblock] at hanswer
  cases nonceFromTransactions_cases s address block with
  | inl hsome =>
    obtain ⟨k, hk, _⟩ := hsome
    rw [h] at hk
    cases hk
  | inr hnone =>
    rcases hnone.2 with ⟨e, herror⟩ | hlatest
    · rw [herror] at hanswer
      cases hanswer
    · rw [hlatest] at hanswer
      exact (Except.ok.inj hanswer).symm

private theorem recordedNonceAt_of_extends (h : s.Extends t)
    (hk : recordedNonceAt s address n = some k) :
    recordedNonceAt t address n = some k := by
  obtain ⟨block, hblock, hrecorded⟩ := Option.bind_eq_some_iff.mp hk
  have hn := Chain.exists_block?_iff.mp ⟨block, hblock⟩
  have htime := Chain.timestampTo_mono hn hblock s.chain.block?_head
  rw [recordedNonceAt, h.chain.block?_eq hn, hblock, Option.bind_some, recordedNonce,
    h.ethereumTransactions address _ 2 htime]
  rw [recordedNonce] at hrecorded
  rcases htransactions : (s.accounts.ethereumTransactions address block.timestampTo 2).getD [] with
    _ | ⟨transaction, _ | ⟨next, rest⟩⟩
  · rw [htransactions] at hrecorded
    exact hrecorded
  · rw [htransactions] at hrecorded
    exact hrecorded
  · rw [htransactions] at hrecorded
    simp only [Option.bind_eq_some_iff] at hrecorded ⊢
    obtain ⟨result, hresult, sender, hsender, hcount⟩ := hrecorded
    obtain ⟨sender', hsender', haddress⟩ := h.evmAddress _ _ hsender
    refine ⟨result, h.transactionResult _ _ hresult, sender', hsender', ?_⟩
    rw [haddress]
    exact hcount

end Recorded

section Growth

variable (s : Network)

/-- A further block of a given duration appears, and the accounts change. -/
theorem Network.exists_extends (duration : ℕ) (accounts : AccountData)
    (hbalances : ∀ account timestamp, Imported s.chain timestamp →
      accounts.balances account timestamp = s.accounts.balances account timestamp)
    (htransactions : accounts.ethereumTransactions = s.accounts.ethereumTransactions)
    (hresults : accounts.transactionResult = s.accounts.transactionResult)
    (haddress : ∀ id a, s.accounts.account id = some a →
      ∃ a', accounts.account id = some a' ∧ a'.evmAddress = a.evmAddress) :
    ∃ t : Network, s.Extends t ∧ t.accounts = accounts ∧ t.chain.head = s.chain.head + 1 ∧
      t.known = s.known ∧
      t.chain.latest.timestampTo = s.chain.latest.timestampTo + 1 + duration := by
  obtain ⟨chain, hext, hhead, hblock, _⟩ := s.chain.exists_extends_nextBlock "0x" duration none
  have hknown : s.known ≤ chain.head := s.known_le.trans hext.head_le
  let t : Network :=
    { chain, accounts, cachedBlockNumber := some s.known
      cached_le := by
        intro n hn
        rw [← Option.some.inj hn]
        exact hknown }
  refine ⟨t, ?_, rfl, hhead, rfl, ?_⟩
  · exact
      { chain := hext
        accounts := fun hsame => absurd (hsame.trans hhead) (by omega)
        balances := hbalances
        ethereumTransactions := fun address timestamp n _ => by
          show accounts.ethereumTransactions address timestamp n = _
          rw [htransactions]
        transactionResult := fun id result h => by
          show accounts.transactionResult id = _
          rw [hresults, h]
        evmAddress := haddress
        known := le_rfl }
  · have hlatest : chain.block? chain.head = some chain.latest := chain.block?_head
    rw [hhead, hblock] at hlatest
    show chain.latest.timestampTo = _
    rw [← Option.some.inj hlatest]
    rfl

/-- The account with another balance and nonce.  An account that was not there has an address of
its own. -/
def revisedAccount (id : String) (balance : ℤ) (nonce : ℕ) : MirrorAccount where
  account := ((s.accounts.account id).map (·.account)).getD id
  evmAddress := ((s.accounts.account id).map (·.evmAddress)).getD (id.toLower ++ "0")
  balance := some balance
  ethereumNonce := some nonce
  transactions := []
  next := none

def revisedAccounts (id : String) (balance : ℤ) (nonce : ℕ) : AccountData :=
  { s.accounts with
    account := fun id' =>
      if id' = id then some (revisedAccount s id balance nonce) else s.accounts.account id' }

variable {s} {t : Network}

private theorem exists_revised (s : Network) (id : String) (balance : ℤ) (nonce : ℕ) :
    ∃ t : Network, s.Extends t ∧ t.accounts = revisedAccounts s id balance nonce ∧
      t.chain.head = s.chain.head + 1 ∧ t.known = s.known := by
  have haddress : ∀ id' a, s.accounts.account id' = some a →
      ∃ a', (revisedAccounts s id balance nonce).account id' = some a' ∧
        a'.evmAddress = a.evmAddress := by
    intro id' a ha
    by_cases hid : id' = id
    · subst hid
      refine ⟨revisedAccount s id' balance nonce, if_pos rfl, ?_⟩
      simp [revisedAccount, ha]
    · exact ⟨a, (if_neg hid).trans ha, rfl⟩
  obtain ⟨t, hext, haccounts, hhead, hknown, _⟩ := s.exists_extends 0
    (revisedAccounts s id balance nonce) (fun _ _ _ => rfl) rfl rfl haddress
  exact ⟨t, hext, haccounts, hhead, hknown⟩

private theorem account_revised {id : String} {balance : ℤ} {nonce : ℕ}
    (h : t.accounts = revisedAccounts s id balance nonce) :
    t.accounts.account id = some (revisedAccount s id balance nonce) := by
  rw [h]
  exact if_pos rfl

private theorem recordedNonceAt_revised {address : String} {balance : ℤ} {nonce n : ℕ}
    (hext : s.Extends t) (h : t.accounts = revisedAccounts s address balance nonce)
    (hn : n ≤ s.chain.head) (hnone : recordedNonceAt s address n = none) :
    recordedNonceAt t address n = none := by
  obtain ⟨block, hblock⟩ := Chain.exists_block?_iff.mpr hn
  rw [recordedNonceAt, hblock, Option.bind_some, recordedNonce] at hnone
  rw [recordedNonceAt, hext.chain.block?_eq hn, hblock, Option.bind_some, recordedNonce, h]
  simp only [revisedAccounts]
  rcases htransactions : (s.accounts.ethereumTransactions address block.timestampTo 2).getD [] with
    _ | ⟨transaction, _ | ⟨next, rest⟩⟩
  · rw [htransactions] at hnone
    cases hnone
  · rw [htransactions] at hnone
    cases hnone
  · rw [htransactions] at hnone
    simp only [Option.bind_eq_none_iff] at hnone ⊢
    intro result hresult sender hsender
    have hbefore := hnone result hresult
    by_cases hsame : result.fromAddress = address
    · rw [if_pos hsame] at hsender
      obtain rfl := Option.some.inj hsender
      cases haccount : s.accounts.account address with
      | none =>
        have hother : address.toLower ++ "0" ≠ address.toLower := by
          intro heq
          have hlength := congrArg String.length heq
          simp at hlength
        simp [revisedAccount, haccount, hother]
      | some a =>
        rw [hsame] at hbefore
        have := hbefore a haccount
        simpa [revisedAccount, haccount] using this
    · rw [if_neg hsame] at hsender
      exact hbefore sender hsender

end Growth

section Stable

/-- An answer at the state is the answer however the chain goes on. -/
def Stable (answerOn : Network → Except RelayError String) (s : Network) : Prop :=
  ∀ (answer : String) (t : Network), answerOn s = .ok answer → s.Extends t →
    answerOn t = .ok answer

variable {config : CommonConfig} {s t : Network} {account address text answer : String}

private theorem exists_numberTo0x_ne (answer : String) : ∃ n : ℕ, numberTo0x n ≠ answer := by
  by_cases h : numberTo0x (0 : ℕ) = answer
  · refine ⟨1, ?_⟩
    rw [← h]
    decide
  · exact ⟨0, h⟩

private theorem exists_weibarsTo0x_ne (answer : String) :
    ∃ balance : ℤ, weibarsTo0x balance ≠ answer := by
  by_cases h : weibarsTo0x 0 = answer
  · refine ⟨1, ?_⟩
    rw [← h]
    decide
  · exact ⟨0, h⟩

private theorem timestampTo_latest_mono (h : s.Extends t) :
    s.chain.latest.timestampTo ≤ t.chain.latest.timestampTo := by
  have hblock : t.chain.block? s.chain.head = some s.chain.latest := by
    rw [h.chain.block?_eq le_rfl, Chain.block?_head]
  exact Chain.timestampTo_mono h.chain.head_le hblock t.chain.block?_head

private theorem Imported.of_extends (h : s.Extends t) {timestamp : Timestamp}
    (himported : Imported s.chain timestamp) : Imported t.chain timestamp := by
  have hseconds : s.chain.latest.timestampTo.seconds ≤ t.chain.latest.timestampTo.seconds :=
    Nat.div_le_div_right (timestampTo_latest_mono h)
  rw [Imported] at himported ⊢
  omega

private theorem isSettledBalance_iff {n : ℕ} : isSettledBalance s n = true ↔ n + 1 < s.known ∧
    ∃ block, s.chain.block? n = some block ∧ Imported s.chain block.timestampFrom := by
  simp [isSettledBalance, Option.any_eq_true]

private theorem exists_current_balance (h : BlockParam.isBlockNumberText text = true)
    (hclose : s.known ≤ bigIntOfHex text + 1) (answer : String) :
    ∃ t, s.Extends t ∧ balanceOn config t account (.hex text) ≠ .ok answer := by
  obtain ⟨balance, hbalance⟩ := exists_weibarsTo0x_ne answer
  obtain ⟨t, hext, haccounts, _, hknown⟩ := exists_revised s account balance 0
  refine ⟨t, hext, ?_⟩
  rw [balanceOn_close h (hknown ▸ hclose),
    getCurrentBalance_of_some (account_revised haccounts) rfl, ne_eq, caught_eq_ok_iff]
  exact fun heq => hbalance (Except.ok.inj heq)

private theorem seconds_lt_of_le {a b : Timestamp} (h : a ≤ b) : (BALANCES_UPDATE_INTERVAL : ℤ) <
    Timestamp.seconds (b + 1 + 1000 * 10 ^ 9) - a.seconds := by
  have hnat (a b : ℕ) (h : a ≤ b) :
      (900 : ℤ) < ((b + 1 + 1000 * 10 ^ 9) / 10 ^ 9 : ℕ) - (a / 10 ^ 9 : ℕ) := by omega
  exact hnat a b h

private theorem exists_imported_balance (h : BlockParam.isBlockNumberText text = true)
    {block : MirrorNodeBlock} (hfar : bigIntOfHex text + 1 < s.known)
    (hblock : s.chain.block? (bigIntOfHex text) = some block)
    (hnot : ¬Imported s.chain block.timestampFrom) (answer : String) :
    ∃ t, s.Extends t ∧ balanceOn config t account (.hex text) ≠ .ok answer := by
  obtain ⟨balance, hbalance⟩ := exists_weibarsTo0x_ne answer
  obtain ⟨t, hext, haccounts, _, hknown, hlatest⟩ := s.exists_extends (1000 * 10 ^ 9)
    { s.accounts with
      balances := fun id timestamp => if Imported s.chain timestamp then
        s.accounts.balances id timestamp else some [balance] }
    (fun _ _ himported => if_pos himported) rfl rfl fun id a ha => ⟨a, ha, rfl⟩
  have hn := Chain.exists_block?_iff.mp ⟨block, hblock⟩
  have hbefore : block.timestampFrom ≤ s.chain.latest.timestampTo :=
    (Chain.timestampFrom_le_to hblock).trans
      (Chain.timestampTo_mono hn hblock s.chain.block?_head)
  have himported : Imported t.chain block.timestampFrom := by
    rw [Imported, hlatest]
    exact seconds_lt_of_le hbefore
  refine ⟨t, hext, ?_⟩
  rw [balanceOn_far h (hknown ▸ hfar) (hext.chain.block?_eq hn ▸ hblock),
    balanceOfBlockOn_of_imported himported, haccounts, ne_eq, caught_eq_ok_iff]
  simp only [if_neg hnot]
  exact fun heq => hbalance (Except.ok.inj heq)

private theorem balanceOn_of_settled (h : BlockParam.isBlockNumberText text = true)
    (hsettled : isSettledBalance s (bigIntOfHex text) = true) (hext : s.Extends t) :
    balanceOn config t account (.hex text) = balanceOn config s account (.hex text) := by
  obtain ⟨hfar, block, hblock, himported⟩ := isSettledBalance_iff.mp hsettled
  have hn := Chain.exists_block?_iff.mp ⟨block, hblock⟩
  have hfar' := hfar.trans_le hext.known
  rw [balanceOn_far h hfar hblock,
    balanceOn_far h hfar' (hext.chain.block?_eq hn ▸ hblock),
    balanceOfBlockOn_of_imported himported,
    balanceOfBlockOn_of_imported (himported.of_extends hext),
    hext.balances account _ himported]

private theorem stableBalance_iff (h : BlockParam.isBlockNumberText text = true)
    (hok : balanceOn config s account (.hex text) = .ok answer) :
    Stable (fun t => balanceOn config t account (.hex text)) s ↔
      isSettledBalance s (bigIntOfHex text) = true := by
  constructor
  · intro hstable
    by_contra hnot
    have hchanged : ∃ t, s.Extends t ∧ balanceOn config t account (.hex text) ≠ .ok answer := by
      by_cases hclose : s.known ≤ bigIntOfHex text + 1
      · exact exists_current_balance h hclose answer
      · have hfar : bigIntOfHex text + 1 < s.known := by omega
        obtain ⟨block, hblock⟩ := Chain.exists_block?_iff.mpr
          (show bigIntOfHex text ≤ s.chain.head by have := s.known_le; omega)
        apply exists_imported_balance h hfar hblock
        intro himported
        exact hnot (isSettledBalance_iff.mpr ⟨hfar, block, hblock, himported⟩)
    obtain ⟨t, hext, hne⟩ := hchanged
    exact hne (hstable answer t hok hext)
  · intro hsettled answer' t hok' hext
    exact (balanceOn_of_settled h hsettled hext).trans hok'

private theorem transactionCountOn_near (h : BlockParam.isBlockNumberText text = true)
    (hfirst : 1 < bigIntOfHex text)
    (hnear : s.chain.head ≤ bigIntOfHex text + config.maxBlockRange) :
    transactionCountOn config s address (.hex text) = .ok (numberTo0x (latestNonce s address)) := by
  rw [transactionCountOn_number h hfirst, if_pos hnear]

theorem transactionCountOn_far (h : BlockParam.isBlockNumberText text = true)
    (hfirst : 1 < bigIntOfHex text)
    (hfar : bigIntOfHex text + config.maxBlockRange < s.chain.head) :
    transactionCountOn config s address (.hex text) =
      getAccountNonceFromContractResult (chainClient s.chain) s.client address
        (bigIntOfHex text) := by
  rw [transactionCountOn_number h hfirst, if_neg (by omega)]

private theorem latestNonce_revised {balance : ℤ} {nonce : ℕ}
    (h : t.accounts = revisedAccounts s address balance nonce) : latestNonce t address = nonce := by
  rw [latestNonce, account_revised h]
  rfl

private theorem exists_latest_count (h : BlockParam.isBlockNumberText text = true)
    (hfirst : 1 < bigIntOfHex text)
    (hnear : s.chain.head < bigIntOfHex text + config.maxBlockRange) (answer : String) :
    ∃ t, s.Extends t ∧ transactionCountOn config t address (.hex text) ≠ .ok answer := by
  obtain ⟨nonce, hnonce⟩ := exists_numberTo0x_ne answer
  obtain ⟨t, hext, haccounts, hhead, _⟩ := exists_revised s address 0 nonce
  refine ⟨t, hext, ?_⟩
  rw [transactionCountOn_near h hfirst (by omega), latestNonce_revised haccounts]
  exact fun heq => hnonce (Except.ok.inj heq)

private theorem exists_unrecorded_count (h : BlockParam.isBlockNumberText text = true)
    (hfirst : 1 < bigIntOfHex text)
    (hfar : bigIntOfHex text + config.maxBlockRange ≤ s.chain.head)
    (hnone : recordedNonceAt s address (bigIntOfHex text) = none) (answer : String) :
    ∃ t, s.Extends t ∧ transactionCountOn config t address (.hex text) ≠ .ok answer := by
  obtain ⟨nonce, hnonce⟩ := exists_numberTo0x_ne answer
  obtain ⟨t, hext, haccounts, hhead, _⟩ := exists_revised s address 0 nonce
  refine ⟨t, hext, ?_⟩
  intro hanswer
  rw [transactionCountOn_far h hfirst (by omega)] at hanswer
  have hnone' := recordedNonceAt_revised hext haccounts (by omega) hnone
  have hlatest := count_of_not_recorded (by omega) hnone' hanswer
  rw [latestNonce_revised haccounts] at hlatest
  exact hnonce hlatest.symm

private theorem exists_recorded_count (h : BlockParam.isBlockNumberText text = true)
    (hfirst : 1 < bigIntOfHex text)
    (hnext : bigIntOfHex text + config.maxBlockRange = s.chain.head) {k : ℕ}
    (hrecorded : recordedNonceAt s address (bigIntOfHex text) = some k)
    (hne : k ≠ latestNonce s address)
    (hok : transactionCountOn config s address (.hex text) = .ok answer) :
    ∃ t, s.Extends t ∧ transactionCountOn config t address (.hex text) ≠ .ok answer := by
  obtain ⟨t, hext, _, hhead, _⟩ := exists_revised s address 0 0
  refine ⟨t, hext, ?_⟩
  rw [transactionCountOn_near h hfirst (by omega)] at hok
  rw [transactionCountOn_far h hfirst (by omega),
    count_of_recorded (recordedNonceAt_of_extends hext hrecorded), ← hok]
  exact fun heq => hne (numberTo0x_inj (Except.ok.inj heq))

private theorem transactionCountOn_of_settled (h : BlockParam.isBlockNumberText text = true)
    (hsettled : isSettledCount config s address (bigIntOfHex text) = true) (hext : s.Extends t) :
    transactionCountOn config t address (.hex text) =
      transactionCountOn config s address (.hex text) := by
  by_cases hfirst : bigIntOfHex text ≤ 1
  · rw [transactionCountOn_first hfirst, transactionCountOn_first hfirst]
  · have hfirst : 1 < bigIntOfHex text := by omega
    have hhead := hext.chain.head_le
    rw [isSettledCount, decide_eq_true_eq] at hsettled
    rcases hsettled with hle | ⟨hfar, hrecorded⟩ | ⟨hnext, hrecorded⟩
    · omega
    · obtain ⟨k, hk⟩ := Option.ne_none_iff_exists'.mp hrecorded
      rw [transactionCountOn_far h hfirst (by omega), transactionCountOn_far h hfirst hfar,
        count_of_recorded hk, count_of_recorded (recordedNonceAt_of_extends hext hk)]
    · rw [transactionCountOn_near h hfirst hnext.ge]
      by_cases hsame : s.chain.head = t.chain.head
      · rw [transactionCountOn_near h hfirst (by omega), latestNonce, latestNonce,
          hext.accounts hsame]
      · rw [transactionCountOn_far h hfirst (by omega),
          count_of_recorded (recordedNonceAt_of_extends hext hrecorded)]

private theorem stableCount_iff (h : BlockParam.isBlockNumberText text = true)
    (hok : transactionCountOn config s address (.hex text) = .ok answer) :
    Stable (fun t => transactionCountOn config t address (.hex text)) s ↔
      isSettledCount config s address (bigIntOfHex text) = true := by
  constructor
  · intro hstable
    by_contra hnot
    have hchanged :
        ∃ t, s.Extends t ∧ transactionCountOn config t address (.hex text) ≠ .ok answer := by
      rw [isSettledCount, decide_eq_true_eq, not_or, not_or, not_and, not_and] at hnot
      obtain ⟨hfirst, hfar, hnext⟩ := hnot
      have hfirst : 1 < bigIntOfHex text := by omega
      by_cases hnear : s.chain.head < bigIntOfHex text + config.maxBlockRange
      · exact exists_latest_count h hfirst hnear answer
      · cases hrecorded : recordedNonceAt s address (bigIntOfHex text) with
        | none => exact exists_unrecorded_count h hfirst (by omega) hrecorded answer
        | some k =>
          have heq : bigIntOfHex text + config.maxBlockRange = s.chain.head := by
            by_contra hne
            exact hfar (by omega) (by simp [hrecorded])
          refine exists_recorded_count h hfirst heq hrecorded ?_ hok
          rintro rfl
          exact hnext heq hrecorded
    obtain ⟨t, hext, hne⟩ := hchanged
    exact hne (hstable answer t hok hext)
  · intro hsettled answer' t hok' hext
    exact (transactionCountOn_of_settled h hsettled hext).trans hok'

end Stable

section Stored

/-- The parameters are an account and a number of a block, and answers for them are stored. -/
def StoredNumber (method : CachedMethod) (toNumber : Arg → Number) (params : List Json)
    (account text : String) : Prop :=
  method.args toNumber params = .ok [.json (.string account), .json (.string text)] ∧
    BlockParam.isBlockNumberText text = true ∧
      method.stores [.json (.string account), .json (.string text)] true = true

/-- A stored answer for a numbered block stays the same as the chain goes on exactly if it is
settled. -/
theorem numbered_answers_stable_iff (config : CommonConfig) (toNumber : Arg → Number)
    (params : List Json) (s : Network) (account text answer : String) :
    (StoredNumber .getBalance toNumber params account text →
      balanceOn config s account (readBlockParam text) = .ok answer →
        (Stable (fun t => balanceOn config t account (readBlockParam text)) s ↔
          isSettledBalance s (bigIntOfHex text) = true)) ∧
      (StoredNumber .getTransactionCount toNumber params account text →
        transactionCountOn config s account (readBlockParam text) = .ok answer →
          (Stable (fun t => transactionCountOn config t account (readBlockParam text)) s ↔
            isSettledCount config s account (bigIntOfHex text) = true)) := by
  constructor
  · rintro ⟨_, hnumber, _⟩ hok
    rw [readBlockParam_of_number hnumber] at hok ⊢
    exact stableBalance_iff hnumber hok
  · rintro ⟨_, hnumber, _⟩ hok
    rw [readBlockParam_of_number hnumber] at hok ⊢
    exact stableCount_iff hnumber hok

/-- The first block with no account. -/
def genesisNetwork : Network where
  chain := .genesis
  accounts :=
    { account := fun _ => none
      accountWithTransactions := fun _ => none
      page := fun _ => []
      balances := fun _ _ => none
      ethereumTransactions := fun _ _ _ => none
      transactionResult := fun _ => none
      pendingCount := fun _ => 0 }
  cachedBlockNumber := none
  cached_le n hn := by cases hn

theorem numbered_answers_stable_iff_first :
    ¬Stable (fun t => balanceOn {} t ZERO_ADDRESS_HEX (readBlockParam "0x0")) genesisNetwork ∧
      Stable (fun t => transactionCountOn {} t ZERO_ADDRESS_HEX (readBlockParam "0x0"))
        genesisNetwork := by
  have h := numbered_answers_stable_iff {} (fun _ => .nan)
    [.string ZERO_ADDRESS_HEX, .string "0x0"] genesisNetwork ZERO_ADDRESS_HEX "0x0" ZERO_HEX
  have hbalance := h.1 ⟨rfl, rfl, rfl⟩ rfl
  have hcount := h.2 ⟨rfl, rfl, rfl⟩ rfl
  refine ⟨?_, hcount.mpr (by decide)⟩
  rw [hbalance]
  decide

/-- The answers for the latest block by its number are stored, and those for a later one. -/
theorem latest_answers_stored_by_number :
    (¬∀ (config : CommonConfig) (toNumber : Arg → Number) (params : List Json) (s : Network)
        (account text : String), StoredNumber .getBalance toNumber params account text →
          Stable (fun t => balanceOn config t account (readBlockParam text)) s) ∧
      ¬∀ (config : CommonConfig) (toNumber : Arg → Number) (params : List Json) (s : Network)
        (account text : String), StoredNumber .getTransactionCount toNumber params account text →
          Stable (fun t => transactionCountOn config t account (readBlockParam text)) s := by
  constructor
  · intro hall
    have hstable := hall {} (fun _ => .nan) [.string ZERO_ADDRESS_HEX, .string "0x0"]
      genesisNetwork ZERO_ADDRESS_HEX "0x0" ⟨rfl, rfl, rfl⟩
    have hok : balanceOn {} genesisNetwork ZERO_ADDRESS_HEX (.hex "0x0") = .ok ZERO_HEX := rfl
    have hsettled := (stableBalance_iff rfl hok).mp hstable
    exact absurd hsettled (by decide)
  · intro hall
    have hstable := hall {} (fun _ => .nan) [.string ZERO_ADDRESS_HEX, .string "0x2"]
      genesisNetwork ZERO_ADDRESS_HEX "0x2" ⟨rfl, rfl, rfl⟩
    have hok : transactionCountOn {} genesisNetwork ZERO_ADDRESS_HEX (.hex "0x2") =
      .ok (numberTo0x (0 : ℕ)) := rfl
    have hsettled := (stableCount_iff rfl hok).mp hstable
    exact absurd hsettled (by decide)

end Stored

end JsonRpcRelay.Account

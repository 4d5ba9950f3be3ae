import JsonRpcRelay.Account.StableAnswers
import JsonRpcRelay.Cache.SettledCalls

/-!
# One block, two names

A block is named by its number or by its hash.  The services tell these apart with tests of their
own, and do not all come to the same answer.
-/

namespace JsonRpcRelay.Account

open constants Js Mirror Common Contract Cache Framework Validators

section Services

/-- An error that a service throws because of the block it is asked for. -/
def BlockRejected (e : RelayError) : Prop :=
  ∃ text, e = .jsonRpcError (predefined.UNKNOWN_BLOCK text) ∨
    e = .jsonRpcError (predefined.RESOURCE_NOT_FOUND ("block '" ++ text ++ "'.")) ∨
    e = .jsonRpcError (predefined.RESOURCE_NOT_FOUND ("Block Hash: '" ++ text ++ "'"))

/-- Two requests have the same answer, and none is rejected because of its block. -/
structure Agree {α : Type} (x y : Except RelayError α) : Prop where
  same : x = y
  accepted : ∀ e, x = .error e ∨ y = .error e → ¬BlockRejected e

/-- The mirror node takes two texts that name the same number for the same block. -/
def CalledByNumber (contracts : Contracts) : Prop :=
  ∀ (chain : Chain) (data : CallData) (text text' : String) (n : ℕ),
    namedBlock text = some n → namedBlock text' = some n →
      contracts.call chain { data with block := some (.string text) } =
        contracts.call chain { data with block := some (.string text') }

variable (config : CommonConfig) (contracts : Contracts) (chain : Chain)

def storageOn (address slot : String) (param : BlockParam) : Except RelayError String :=
  getStorageAt config (chainClient chain) (contractClient contracts chain) address slot (some param)

def codeOn (address : String) (param : BlockParam) : Except RelayError String :=
  getCode config (chainClient chain) (contractClient contracts chain) address (some param)

/-- The block of a call is an object with a hash. -/
def NamesHash (blockParam : Json) (hash : String) : Prop :=
  isObjectOrArray blockParam = true ∧ property "blockNumber" blockParam = none ∧
    property "blockHash" blockParam = some (.string hash)

/-- The block of a call is a number, in an object or not. -/
def NamesNumber (blockParam : Json) (number : String) : Prop :=
  blockParam = .string number ∨
    isObjectOrArray blockParam = true ∧ property "blockNumber" blockParam = some (.string number)

/-- The services with a parameter for the block. -/
inductive BlockService where
  | getBalance
  | getTransactionCount
  | getStorageAt
  | getCode
  | call

/-- The service has the same answer for the hash as for the number, whatever it is asked for. -/
def BlockService.SameBlock (hash number : String) : BlockService → Prop
  | getBalance => ∀ (s : Network) (account : String), s.chain = chain →
      Agree (balanceOn config s account (readBlockParam hash))
        (balanceOn config s account (readBlockParam number))
  | getTransactionCount => ∀ (s : Network) (address : String), s.chain = chain →
      Agree (transactionCountOn config s address (readBlockParam hash))
        (transactionCountOn config s address (readBlockParam number))
  | getStorageAt => ∀ (contracts : Contracts) (address slot : String),
      Agree (storageOn config contracts chain address slot (readBlockParam hash))
        (storageOn config contracts chain address slot (readBlockParam number))
  | getCode => ∀ (contracts : Contracts) (address : String),
      Agree (codeOn config contracts chain address (readBlockParam hash))
        (codeOn config contracts chain address (readBlockParam number))
  | call => ∀ (operator : Operator) (contracts : Contracts) (request : IContractCallRequest)
      (hashParam numberParam : Json), CalledByNumber contracts → NamesHash hashParam hash →
        NamesNumber numberParam number →
          Agree (callOn operator contracts chain request hashParam)
            (callOn operator contracts chain request numberParam)

end Services

section Names

variable {chain : Chain} {hash number : String} {block : MirrorNodeBlock}

theorem block?_of_findBlock (h : findBlock chain (.hash hash) = some block) :
    chain.block? block.number = some block := by
  obtain ⟨b, hmem, rfl⟩ := List.mem_map.mp (List.mem_of_find?_eq_some h)
  obtain ⟨n, hn⟩ := List.getElem?_of_mem hmem
  rw [chain.numbered n b hn, Chain.block?, hn]
  rfl

private theorem length_of_hash (h : isBlockHash hash = true) : hash.length = BLOCK_HASH_LENGTH := by
  obtain ⟨x, digits, htext, _, _, hlength⟩ := exists_of_isBaseHex h
  rw [← String.length_toList, htext, List.length_cons, List.length_cons,
    of_decide_eq_true hlength]
  rfl

private theorem readBlockParam_of_hash (h : isBlockHash hash = true) :
    readBlockParam hash = .hash hash := by
  have hlength := length_of_hash h
  have hne (tag : String) (htag : tag.length ≠ BLOCK_HASH_LENGTH) : hash ≠ tag := by
    rintro rfl
    exact htag hlength
  simp only [readBlockParam, hne "earliest" (by decide), hne "latest" (by decide),
    hne "pending" (by decide), hne "safe" (by decide), hne "finalized" (by decide), if_false,
    hlength]
  rfl

theorem blockOf_number (hnumber : BlockParam.isBlockNumberText number = true)
    (hblock : chain.block? (bigIntOfHex number) = some block) :
    blockOf chain (some (.hex number)) = some block := by
  have hne : number ≠ EMPTY_HEX := by
    rintro rfl
    cases hnumber
  rw [blockOf, if_neg hne, hblock]

private theorem code_of_blockRejected {e : JsonRpcError} (h : BlockRejected (.jsonRpcError e)) :
    e.code = -39012 ∨ e.code = -32001 := by
  obtain ⟨text, h | h | h⟩ := h
  · injection h with h
    subst h
    exact .inl rfl
  · injection h with h
    subst h
    exact .inr rfl
  · injection h with h
    subst h
    exact .inr rfl

private theorem not_blockRejected_error (message : String) : ¬BlockRejected (.error message) := by
  rintro ⟨text, h | h | h⟩ <;> cases h

theorem Agree.of_eq {α : Type} {x y : Except RelayError α} (h : x = y)
    (haccepted : ∀ e, y = .error e → ¬BlockRejected e) : Agree x y := by
  refine ⟨h, ?_⟩
  rintro e (he | he)
  · exact haccepted e (h ▸ he)
  · exact haccepted e he

end Names

section Balance

variable {config : CommonConfig} {s : Network} {account hash number : String}
  {block : MirrorNodeBlock}

private theorem error_of_getCurrentBalance {e : RelayError}
    (h : getCurrentBalance s.client account = .error e) : ∃ message, e = .error message := by
  have hget : s.client.getAccount account = .ok (s.accounts.account account) := rfl
  simp only [getCurrentBalance, hget, bind, Except.bind] at h
  cases haccount : s.accounts.account account with
  | none =>
    rw [haccount] at h
    cases h
  | some a =>
    rw [haccount] at h
    simp only at h
    cases hbalance : a.balance with
    | none =>
      rw [hbalance] at h
      cases h
      exact ⟨_, rfl⟩
    | some balance =>
      rw [hbalance] at h
      cases h

/-- The requests for a balance in the past do not fail. -/
theorem exists_balance (s : Network) (account : String) (block : MirrorNodeBlock)
    (timestamp : Timestamp) : ∃ balance,
      getBalanceAtBlockNumber s.client account block timestamp = .ok balance := by
  have hbefore (a : MirrorAccount) :
      ∃ balance, balanceBeforeTransactions s.client a block = .ok balance := by
    rw [balanceBeforeTransactions]
    cases a.next with
    | none => exact ⟨_, rfl⟩
    | some nextPage =>
      simp only [getPagedTransactions]
      split
      · exact ⟨_, rfl⟩
      · exact ⟨_, rfl⟩
  rw [getBalanceAtBlockNumber]
  split
  · have hget : s.client.getBalanceAtTimestamp account block.timestampFrom =
        .ok (s.accounts.balances account block.timestampFrom) := rfl
    rw [hget]
    rcases s.accounts.balances account block.timestampFrom with _ | (_ | ⟨_, _⟩)
    · exact ⟨_, rfl⟩
    · exact ⟨_, rfl⟩
    · exact ⟨_, rfl⟩
  · have hget : s.client.getAccountWithTransactions account =
        .ok (s.accounts.accountWithTransactions account) := rfl
    rw [hget]
    cases s.accounts.accountWithTransactions account with
    | none => exact ⟨_, rfl⟩
    | some a =>
      obtain ⟨balance, hbalance⟩ := hbefore a
      refine ⟨some balance, ?_⟩
      simp only [bind, Except.bind, hbalance]
      rfl

private theorem error_of_balanceOfBlockOn {e : RelayError}
    (h : balanceOfBlockOn s account block = .error e) : ∃ message, e = .error message := by
  obtain ⟨balance, hbalance⟩ := exists_balance s account block s.chain.latest.timestampTo
  rw [balanceOfBlockOn, balanceOfBlock, hbalance] at h
  cases balance with
  | some tinybars => cases h
  | none => exact error_of_getCurrentBalance h

theorem currentBlockNumber_hash {chain : Chain} (hhash : isBlockHash hash = true)
    (hfound : findBlock chain (.hash hash) = some block) :
    currentBlockNumber (chainClient chain) (.hash hash) = .ok (some block.number) := by
  have hlength : (paramText (some (.hash hash))).length > 32 := by
    rw [show paramText (some (.hash hash)) = hash from rfl, length_of_hash hhash]
    decide
  have hget : (chainClient chain).getBlock .fromBlock (.hash (paramText (some (.hash hash)))) =
      .ok (some block) := congrArg Except.ok hfound
  rw [currentBlockNumber, if_pos hlength, hget]
  rfl

private theorem balanceOn_hash (hhash : isBlockHash hash = true)
    (hfound : findBlock s.chain (.hash hash) = some block)
    (hnumber : BlockParam.isBlockNumberText number = true)
    (hsame : bigIntOfHex number = block.number) :
    balanceOn config s account (.hash hash) = balanceOn config s account (.hex number) := by
  have hblock : s.chain.block? (bigIntOfHex number) = some block := by
    rw [hsame]
    exact block?_of_findBlock hfound
  rw [balanceOn_of_block rfl (currentBlockNumber_hash hhash hfound) (.inr hfound),
    balanceOn_of_block rfl (hsame ▸ currentBlockNumber_number s.chain hnumber)
      (.inr (blockOf_number hnumber hblock))]

private theorem accepted_balanceOn (hnumber : BlockParam.isBlockNumberText number = true)
    (hblock : s.chain.block? (bigIntOfHex number) = some block) {e : RelayError}
    (h : balanceOn config s account (.hex number) = .error e) : ¬BlockRejected e := by
  have hcaught : ∃ x : Except RelayError String, caught x = .error e ∧
      ∀ e, x = .error e → ∃ message, e = .error message := by
    by_cases hclose : s.known ≤ bigIntOfHex number + 1
    · rw [balanceOn_close hnumber hclose] at h
      exact ⟨_, h, fun e => error_of_getCurrentBalance⟩
    · rw [balanceOn_far hnumber (by omega) hblock] at h
      exact ⟨_, h, fun e => error_of_balanceOfBlockOn⟩
  obtain ⟨x, hx, hplain⟩ := hcaught
  cases x with
  | ok balance => cases hx
  | error e' =>
    obtain ⟨message, rfl⟩ := hplain e' rfl
    obtain rfl : RelayError.jsonRpcError (predefined.INTERNAL_ERROR message) = e :=
      Except.error.inj hx
    intro hrejected
    have hcode := code_of_blockRejected hrejected
    simp [predefined.INTERNAL_ERROR] at hcode

end Balance

section Count

variable {config : CommonConfig} {s : Network} {address hash number : String}
  {block : MirrorNodeBlock}

theorem transactionCountOn_smallHash (hsmall : bigIntOfHex hash ≤ 1) :
    transactionCountOn config s address (.hash hash) = .ok ZERO_HEX := by
  have hnumber : numberOf (.hash hash) = some 0 ∨ numberOf (.hash hash) = some 1 := by
    simp only [numberOf, Option.some.injEq]
    omega
  rw [transactionCountOn, getTransactionCount]
  simp only [hnumber, if_true]
  rfl

/-- A hash is told by its prefix. -/
theorem transactionCountOn_hash (hhash : isBlockHash hash = true) (hlarge : 1 < bigIntOfHex hash) :
    transactionCountOn config s address (.hash hash) =
      if startsWith hash EMPTY_HEX then
        getAccountNonceForHistoricBlock config (chainClient s.chain) s.client address (.hash hash)
      else .error (.jsonRpcError (predefined.UNKNOWN_BLOCK "")) := by
  have hnumber : ¬(numberOf (.hash hash) = some 0 ∨ numberOf (.hash hash) = some 1) := by
    simp only [numberOf, Option.some.injEq]
    omega
  have htext : paramText (some (.hash hash)) = hash := rfl
  rw [transactionCountOn, getTransactionCount]
  simp only [hnumber, if_false, htext, length_of_hash hhash, blockTagIsLatestOrPending,
    Bool.false_eq_true, reduceCtorEq, ne_eq, not_true_eq_false, and_false, true_and]
  rfl

private theorem transactionCountOn_hash_eq (hhash : isBlockHash hash = true)
    (hfound : findBlock s.chain (.hash hash) = some block)
    (hnumber : BlockParam.isBlockNumberText number = true)
    (hsame : bigIntOfHex number = block.number) (hfirst : 1 < block.number)
    (hlarge : 1 < bigIntOfHex hash) (hstart : startsWith hash EMPTY_HEX = true) :
    transactionCountOn config s address (.hash hash) =
      transactionCountOn config s address (.hex number) := by
  have hid : blockNumOf (chainClient s.chain) (.hash hash) = .ok block.number := by
    have hget : (chainClient s.chain).getBlock .fromBlock (.hash hash) = .ok (some block) :=
      congrArg Except.ok hfound
    rw [blockNumOf, hget]
    rfl
  rw [transactionCountOn_hash hhash hlarge, if_pos hstart,
    getAccountNonceForHistoricBlock_chain hid, transactionCountOn_number hnumber (by omega), hsame]

private theorem not_blockRejected_contractResults (id : String) : ¬BlockRejected (.jsonRpcError
    (predefined.RESOURCE_NOT_FOUND ("Failed to retrieve contract results for transaction " ++ id)))
    := by
  have hne {a b : String} (hab : a.toList.head? ≠ b.toList.head?) (h : predefined.RESOURCE_NOT_FOUND a =
      predefined.RESOURCE_NOT_FOUND b) : False := by
    injection h with _ hmessage
    have hlist := congrArg String.toList hmessage
    rw [String.toList_append, String.toList_append, List.append_cancel_left_eq] at hlist
    exact hab (congrArg List.head? hlist)
  rintro ⟨text, h | h | h⟩
  · injection h with h
    injection h with hcode
    exact absurd hcode (by decide)
  · injection h with h
    apply hne ?_ h
    simp [String.toList_append]
  · injection h with h
    apply hne ?_ h
    simp [String.toList_append]

private theorem accepted_nonceFromTransactions {transactions : List AccountTransaction}
    {e : RelayError}
    (h : nonceFromTransactions s.client address transactions = .error e) : ¬BlockRejected e := by
  match transactions with
  | [] => cases h
  | [_] => cases h
  | transaction :: next :: rest =>
    have hresult : s.client.getContractResult transaction.transactionId =
        .ok (s.accounts.transactionResult transaction.transactionId) := rfl
    simp only [nonceFromTransactions, hresult, bind, Except.bind] at h
    cases hresult' : s.accounts.transactionResult transaction.transactionId with
    | none =>
      rw [hresult'] at h
      cases h
      exact not_blockRejected_contractResults _
    | some result =>
      have hsender : s.client.getAccount result.fromAddress =
          .ok (s.accounts.account result.fromAddress) := rfl
      rw [hresult'] at h
      simp only [nonceFromTransaction, hsender, bind, Except.bind] at h
      cases hsender' : s.accounts.account result.fromAddress with
      | none =>
        rw [hsender'] at h
        cases h
        exact not_blockRejected_error _
      | some sender =>
        rw [hsender'] at h
        simp only [getAccountLatestEthereumNonce_chain] at h
        split at h
        · cases h
        · cases h

private theorem accepted_transactionCountOn (hnumber : BlockParam.isBlockNumberText number = true)
    (hfirst : 1 < bigIntOfHex number)
    (hblock : s.chain.block? (bigIntOfHex number) = some block) {e : RelayError}
    (h : transactionCountOn config s address (.hex number) = .error e) : ¬BlockRejected e := by
  rw [transactionCountOn_number hnumber hfirst] at h
  split at h
  · cases h
  · rw [getAccountNonceFromContractResult_chain hblock] at h
    exact accepted_nonceFromTransactions h

/-- Every account has sent one transaction. -/
def oneTransaction (chain : Chain) : Network where
  chain := chain
  accounts :=
    { account := fun id => some ⟨id, id, some 0, some 1, [], none⟩
      accountWithTransactions := fun _ => none
      page := fun _ => []
      balances := fun _ _ => none
      ethereumTransactions := fun _ _ _ => some [⟨"", 0, []⟩]
      transactionResult := fun _ => none
      pendingCount := fun _ => 0 }
  cachedBlockNumber := none
  cached_le n hn := by cases hn

private theorem transactionCountOn_oneTransaction {chain : Chain}
    (hnumber : BlockParam.isBlockNumberText number = true) (hfirst : 1 < bigIntOfHex number)
    (hblock : chain.block? (bigIntOfHex number) = some block) :
    transactionCountOn config (oneTransaction chain) address (.hex number) = .ok ONE_HEX := by
  have hchain : (oneTransaction chain).chain.block? (bigIntOfHex number) = some block := hblock
  rw [transactionCountOn_number hnumber hfirst, one_eq_numberTo0x]
  split
  · rfl
  · rw [getAccountNonceFromContractResult_chain hchain, ← one_eq_numberTo0x]
    rfl

/-- The count as of a block is the same for its hash exactly if the hash has the prefix of a
number and is none of the first blocks. -/
theorem sameCount_iff {chain : Chain} (hhash : isBlockHash hash = true)
    (hfound : findBlock chain (.hash hash) = some block)
    (hnumber : BlockParam.isBlockNumberText number = true)
    (hsame : bigIntOfHex number = block.number) (hfirst : 1 < block.number) :
    (∀ (s : Network) (address : String), s.chain = chain →
      Agree (transactionCountOn config s address (.hash hash))
        (transactionCountOn config s address (.hex number))) ↔
      startsWith hash EMPTY_HEX = true ∧ 1 < bigIntOfHex hash := by
  have hblock : chain.block? (bigIntOfHex number) = some block := by
    rw [hsame]
    exact block?_of_findBlock hfound
  constructor
  · intro hall
    have hagree := hall (oneTransaction chain) "" rfl
    have hone : transactionCountOn config (oneTransaction chain) "" (.hex number) = .ok ONE_HEX :=
      transactionCountOn_oneTransaction hnumber (by omega) hblock
    by_cases hlarge : 1 < bigIntOfHex hash
    · refine ⟨?_, hlarge⟩
      by_contra hstart
      have hunknown : transactionCountOn config (oneTransaction chain) "" (.hash hash) =
          .error (.jsonRpcError (predefined.UNKNOWN_BLOCK "")) := by
        rw [transactionCountOn_hash hhash hlarge, if_neg hstart]
      exact hagree.accepted _ (.inl hunknown) ⟨"", .inl rfl⟩
    · have hsmall : transactionCountOn config (oneTransaction chain) "" (.hash hash) =
          .ok ZERO_HEX := transactionCountOn_smallHash (by omega)
      have heq := hagree.same
      rw [hsmall, hone] at heq
      exact absurd (Except.ok.inj heq) (by decide)
  · rintro ⟨hstart, hlarge⟩ s address rfl
    apply Agree.of_eq
    · exact transactionCountOn_hash_eq hhash hfound hnumber hsame hfirst hlarge hstart
    · intro e
      exact accepted_transactionCountOn hnumber (by omega) hblock

end Count

section State

variable {config : CommonConfig} {contracts : Contracts} {chain : Chain}
  {address slot hash number : String} {block : MirrorNodeBlock}

private theorem storageOn_of_block {param : BlockParam}
    (htag : blockTagIsLatestOrPending (some param) = false)
    (hblock : blockOf chain (some param) = some block) :
    storageOn config contracts chain address slot param =
      .ok (slotValue (contracts.state address slot (some block.timestampTo))) := by
  have hfound : getHistoricalBlockResponse config (chainClient chain) .fromBlock (some param)
      false = .ok (some block) := by
    rw [← hblock, ← getHistoricalBlockResponse_chain config chain .fromBlock (some param)]
    simp only [getHistoricalBlockResponse, htag, Bool.and_false, Bool.false_eq_true, if_false,
      Bool.not_true]
  simp only [storageOn, getStorageAt, hfound, htag, bind, Except.bind]
  rfl

private theorem codeOn_hash (hhash : isBlockHash hash = true) :
    codeOn config contracts chain address (.hash hash) =
      .error (.jsonRpcError (predefined.UNKNOWN_BLOCK
        ("The value passed is not a valid blockHash/blockNumber/blockTag value: " ++ hash))) := by
  have hvalid : isBlockParamValid (some (.hash hash)) = false :=
    isBlockParamText_of_isBlockHash hhash
  rw [codeOn, getCode, hvalid]
  rfl

end State

section Call

variable {operator : Operator} {contracts : Contracts} {chain : Chain}
  {request : IContractCallRequest} {hashParam numberParam : Json} {hash number : String}
  {block : MirrorNodeBlock} {e : RelayError}

private theorem isHexText_of_number (h : BlockParam.isBlockNumberText number = true) :
    isBaseHex (1 ≤ ·) number.toList = true := by
  unfold BlockParam.isBlockNumberText at h
  split at h
  · rename_i x digits htext
    rw [htext, isBaseHex]
    simp only [decide_eq_true_eq] at h ⊢
    refine ⟨h.1, h.2.2.2.1, ?_⟩
    exact List.length_pos_iff.mpr h.2.1
  · cases h

private theorem namedBlock_number (h : BlockParam.isBlockNumberText number = true) :
    namedBlock number = some (bigIntOfHex number) := by
  have hne : number ≠ "earliest" := by
    rintro rfl
    cases h
  rw [namedBlock, if_neg hne, if_pos (isHexText_of_number h)]

private theorem blockOn_hash (h : NamesHash hashParam hash)
    (hfound : findBlock chain (.hash hash) = some block) :
    blockOn chain hashParam = .ok (some (.string (numberTo0x block.number))) := by
  obtain ⟨hobject, hnumber, hhash⟩ := h
  have hfound : findBlock chain (.hash (String.ofList (Json.string hash).toText)) = some block := by
    rw [Json.toText_string, String.ofList_toList, hfound]
  rw [blockOn_object hobject, hnumber, hhash]
  simp only [hfound]

private theorem blockOn_number (h : NamesNumber numberParam number)
    (hnumber : BlockParam.isBlockNumberText number = true) :
    blockOn chain numberParam = .ok (some (.string number)) := by
  rcases h with rfl | ⟨hobject, hproperty⟩
  · have hlength := (length_of_isBlockNumberText hnumber).1
    apply blockOn_string
    · rintro rfl
      cases hnumber
    · apply Bool.eq_false_of_not_eq_true
      intro hhash
      rw [length_of_hash hhash, BLOCK_HASH_LENGTH] at hlength
      omega
  · rw [blockOn_object hobject, hproperty]

private theorem callOn_hash (hcontracts : CalledByNumber contracts)
    (hhash : NamesHash hashParam hash) (hfound : findBlock chain (.hash hash) = some block)
    (hnumbered : NamesNumber numberParam number)
    (hnumber : BlockParam.isBlockNumberText number = true)
    (hsame : bigIntOfHex number = block.number) :
    callOn operator contracts chain request hashParam =
      callOn operator contracts chain request numberParam := by
  have hcall (format : CallFormat) :
      contracts.call chain (prepareMirrorNodeCallData request format
        (some (.string (numberTo0x block.number)))) =
      contracts.call chain (prepareMirrorNodeCallData request format (some (.string number))) :=
    hcontracts chain (prepareMirrorNodeCallData request format none) _ _ block.number
      (namedBlock_numberTo0x _) (hsame ▸ namedBlock_number hnumber)
  have huncaught : callUncaught operator (chainClient chain) (contractClient contracts chain)
      request hashParam = callUncaught operator (chainClient chain)
        (contractClient contracts chain) request numberParam := by
    rw [callUncaught_chain, callUncaught_chain, blockOn_hash hhash hfound,
      blockOn_number hnumbered hnumber]
    simp only [Except.bind, hcall]
  rw [callOn, call, huncaught]
  rfl

private theorem accepted_checkAddress {address : Nullable}
    (h : (checkAddress address : Except RelayError Unit) = .error e) : ¬BlockRejected e := by
  cases address with
  | text address =>
    rw [checkAddress] at h
    split at h
    · cases h
      intro hrejected
      have hcode := code_of_blockRejected hrejected
      simp [predefined.INVALID_CONTRACT_ADDRESS] at hcode
    · cases h
  | undefined => cases h
  | null => cases h

private theorem error_of_tinybarValue {value : Option String}
    (h : tinybarValue (m := Except RelayError) value = .error e) : ∃ message, e = .error message := by
  cases value with
  | none => cases h
  | some value =>
    simp only [tinybarValue] at h
    cases hvalue : weibarHexToTinyBarInt value with
    | ok tinybars =>
      rw [hvalue] at h
      cases h
    | error e' =>
      rw [hvalue] at h
      cases h
      rw [weibarHexToTinyBarInt] at hvalue
      split at hvalue
      · cases hvalue
      · split at hvalue
        · cases hvalue
          exact ⟨_, rfl⟩
        · cases hvalue

private theorem error_of_sender {value : Option ℕ}
    (h : sender operator (contractClient contracts chain) request value = .error e) :
    ∃ message, e = .error message := by
  rw [sender] at h
  split at h
  · rw [operatorAddress] at h
    split at h
    · cases h
    · cases haccount : operator.accountId with
      | none =>
        rw [haccount] at h
        cases h
        exact ⟨_, rfl⟩
      | some id =>
        rw [haccount] at h
        cases h
  · cases h

private theorem accepted_contractCallFormat
    (h : contractCallFormat operator (contractClient contracts chain) request = .error e) :
    ¬BlockRejected e := by
  have hplain : ∃ message, e = .error message := by
    rw [contractCallFormat] at h
    cases hvalue : tinybarValue (m := Except RelayError) (request.value.filter (· ≠ "")) with
    | error e' =>
      rw [hvalue] at h
      cases h
      exact error_of_tinybarValue hvalue
    | ok value =>
      rw [hvalue] at h
      cases hsender : sender operator (contractClient contracts chain) request value with
      | error e' =>
        simp only [bind, Except.bind, hsender] at h
        cases h
        exact error_of_sender hsender
      | ok fromAddress =>
        simp only [bind, Except.bind, hsender] at h
        cases h
  obtain ⟨message, rfl⟩ := hplain
  exact not_blockRejected_error message

private theorem accepted_callResult {x : Except CallError (Option String)}
    (h : callResult x = .error e) :
    ¬BlockRejected e := by
  intro hrejected
  match x with
  | .ok _ => cases h
  | .error (.jsonRpcError _) => cases h
  | .error (.error _) => cases h
  | .error (.mirrorNodeClientError error) =>
    simp only [callResult, handleMirrorNodeError, handleMirrorNodeClientError] at h
    split at h
    · cases h
    · split at h
      · cases h
        have hcode := code_of_blockRejected hrejected
        simp [predefined.CONTRACT_REVERT] at hcode
      · split at h
        · cases h
          have hcode := code_of_blockRejected hrejected
          simp [predefined.COULD_NOT_SIMULATE_TRANSACTION] at hcode
        · cases h
          obtain ⟨_, h | h | h⟩ := hrejected <;> cases h

private theorem accepted_callOn (hnumbered : NamesNumber numberParam number)
    (hnumber : BlockParam.isBlockNumberText number = true)
    (h : callOn operator contracts chain request numberParam = .error e) : ¬BlockRejected e := by
  have huncaught : callUncaught operator (chainClient chain) (contractClient contracts chain)
      request numberParam = .error e := by
    rw [callOn, call] at h
    cases hcall : callUncaught operator (chainClient chain) (contractClient contracts chain)
        request numberParam with
    | ok result =>
      rw [hcall] at h
      cases h
    | error e' =>
      rw [hcall] at h
      cases e' <;> cases h <;> rfl
  rw [callUncaught_chain, blockOn_number hnumbered hnumber] at huncaught
  cases haddress : (checkAddress request.toAddress : Except RelayError Unit) with
  | error e' =>
    rw [haddress] at huncaught
    cases huncaught
    exact accepted_checkAddress haddress
  | ok _ =>
    rw [haddress] at huncaught
    simp only [Except.bind] at huncaught
    cases hformat : contractCallFormat operator (contractClient contracts chain) request with
    | error e' =>
      rw [hformat] at huncaught
      cases huncaught
      exact accepted_contractCallFormat hformat
    | ok format =>
      rw [hformat] at huncaught
      exact accepted_callResult huncaught

end Call

section Answers

/-- A service has the same answer for a hash as for the number of the block unless it asks for the
code, or for a count and the hash has another prefix or is as small as the number of one of the
first blocks. -/
theorem same_block_iff (service : BlockService) (config : CommonConfig) (chain : Chain)
    (hash number : String) (block : MirrorNodeBlock) (hhash : isBlockHash hash = true)
    (hfound : findBlock chain (.hash hash) = some block)
    (hnumber : BlockParam.isBlockNumberText number = true)
    (hsame : bigIntOfHex number = block.number) (hfirst : 1 < block.number) :
    service.SameBlock config chain hash number ↔ service ≠ .getCode ∧
      (service = .getTransactionCount →
        startsWith hash EMPTY_HEX = true ∧ 1 < bigIntOfHex hash) := by
  have hblock : chain.block? (bigIntOfHex number) = some block := by
    rw [hsame]
    exact block?_of_findBlock hfound
  cases service with
  | getBalance =>
    simp only [BlockService.SameBlock, ne_eq, reduceCtorEq, not_false_eq_true, false_implies,
      and_self, iff_true, readBlockParam_of_hash hhash, readBlockParam_of_number hnumber]
    rintro s account rfl
    apply Agree.of_eq (balanceOn_hash hhash hfound hnumber hsame)
    intro e
    exact accepted_balanceOn hnumber hblock
  | getTransactionCount =>
    simp only [BlockService.SameBlock, ne_eq, reduceCtorEq, not_false_eq_true, true_and,
      forall_const, readBlockParam_of_hash hhash, readBlockParam_of_number hnumber]
    exact sameCount_iff hhash hfound hnumber hsame hfirst
  | getStorageAt =>
    simp only [BlockService.SameBlock, ne_eq, reduceCtorEq, not_false_eq_true, false_implies,
      and_self, iff_true, readBlockParam_of_hash hhash, readBlockParam_of_number hnumber]
    intro contracts address slot
    have hanswer : storageOn config contracts chain address slot (.hex number) =
        .ok (slotValue (contracts.state address slot (some block.timestampTo))) :=
      storageOn_of_block rfl (blockOf_number hnumber hblock)
    apply Agree.of_eq
    · rw [hanswer]
      exact storageOn_of_block rfl hfound
    · intro e he
      rw [hanswer] at he
      cases he
  | getCode =>
    simp only [BlockService.SameBlock, ne_eq, not_true_eq_false, false_and, iff_false,
      readBlockParam_of_hash hhash]
    intro hall
    exact (hall noContracts "").accepted _ (.inl (codeOn_hash hhash)) ⟨_, .inl rfl⟩
  | call =>
    simp only [BlockService.SameBlock, ne_eq, reduceCtorEq, not_false_eq_true, false_implies,
      and_self, iff_true]
    intro operator contracts request hashParam numberParam hcontracts hnames hnumbered
    apply Agree.of_eq (callOn_hash hcontracts hnames hfound hnumbered hnumber hsame)
    intro e
    exact accepted_callOn hnumbered hnumber

/-- A chain of three blocks. -/
def threeBlocks : Chain :=
  ((Chain.genesis.append (Chain.genesis.nextBlock "0x" 0 none)).bind fun chain =>
    chain.append (chain.nextBlock ("0x" ++ String.ofList (List.replicate 96 'a')) 0 none)).get
      (by decide)

def thirdHash : String := String.ofList ('0' :: 'x' :: List.replicate 64 'a')

def thirdBlock : MirrorNodeBlock := threeBlocks.latest

private theorem isBlockHash_thirdHash : isBlockHash thirdHash = true := by decide +kernel

private theorem startsWith_toLower (s t : String) : Js.startsWith s.toLower t.toLower =
    (t.toList.map Char.toLower).isPrefixOf (s.toList.map Char.toLower) := by
  have hlower (u : String) : u.toLower = u.map Char.toLower := rfl
  simp [Js.startsWith, hlower]

private theorem findBlock_hash (chain : Chain) (text : String) : findBlock chain (.hash text) =
    (chain.blocks.map (·.block)).find? fun block =>
      (text.toList.map Char.toLower).isPrefixOf (block.hash.toList.map Char.toLower) := by
  unfold findBlock
  simp only [startsWith_toLower]

private theorem findBlock_thirdHash : findBlock threeBlocks (.hash thirdHash) = some thirdBlock :=
  (findBlock_hash _ _).trans (by decide +kernel)

private theorem number_thirdBlock : thirdBlock.number = 2 := by decide +kernel

private theorem bigIntOfHex_two : bigIntOfHex "0x2" = thirdBlock.number :=
  number_thirdBlock.symm

private theorem one_lt_thirdBlock : 1 < thirdBlock.number := by simp [number_thirdBlock]

theorem same_block_iff_third : BlockService.SameBlock {} threeBlocks thirdHash "0x2" .getStorageAt ∧
    ¬BlockService.SameBlock {} threeBlocks thirdHash "0x2" .getCode := by
  constructor
  · rw [same_block_iff .getStorageAt {} threeBlocks thirdHash "0x2" thirdBlock
      isBlockHash_thirdHash findBlock_thirdHash (by decide) bigIntOfHex_two one_lt_thirdBlock]
    simp
  · rw [same_block_iff .getCode {} threeBlocks thirdHash "0x2" thirdBlock
      isBlockHash_thirdHash findBlock_thirdHash (by decide) bigIntOfHex_two one_lt_thirdBlock]
    simp

/-- The code as of a hash is refused, and the count as of a hash with the other prefix. -/
theorem block_rejected_by_hash : ¬∀ (service : BlockService) (config : CommonConfig) (chain : Chain)
    (hash number : String) (block : MirrorNodeBlock), isBlockHash hash = true →
      findBlock chain (.hash hash) = some block → BlockParam.isBlockNumberText number = true →
        bigIntOfHex number = block.number → 1 < block.number →
          service.SameBlock config chain hash number := by
  intro hall
  have hcode := hall .getCode {} threeBlocks thirdHash "0x2" thirdBlock isBlockHash_thirdHash
    findBlock_thirdHash (by decide) bigIntOfHex_two one_lt_thirdBlock noContracts ""
  rw [readBlockParam_of_hash isBlockHash_thirdHash] at hcode
  exact hcode.accepted _ (.inl (codeOn_hash isBlockHash_thirdHash)) ⟨_, .inl rfl⟩

end Answers

end JsonRpcRelay.Account

import JsonRpcRelay.Cache.CacheKeys
import JsonRpcRelay.Cache.SettledLogs
import JsonRpcRelay.Contract.Contracts

/-!
# Calls that are settled

A call is settled if its answer stays the same however the chain goes on: as of a block of the
chain, or if its block is refused.
-/

namespace JsonRpcRelay.Cache

open constants Mirror Common Contract Framework Validators

section Blocks

/-- The block that a call is sent with. -/
def blockOn (chain : Chain) (blockParam : Json) : Except RelayError (Option Json) :=
  extractBlockNumberOrTag (chainClient chain) blockParam

/-- A number, in an object or not, is one of a block of the chain. -/
def isSettledCall (chain : Chain) (blockParam : Json) : Bool :=
  match blockParam with
  | .string _ => isHistorical chain (some blockParam)
  | _ => (property "blockNumber" blockParam).all fun x => isHistorical chain (some x)

variable {chain chain' : Chain} {blockParam : Json} {block : Option Json}

/-- What the validation takes for the block of a call. -/
theorem cases_of_blockParams (h : TYPES.blockParams.test blockParam = .ok true) :
    (∃ s, blockParam = .string s ∧ s ≠ "" ∧ isBlockHash s = false) ∨
      isObjectOrArray blockParam = true := by
  cases blockParam with
  | array items => exact .inr rfl
  | object fields => exact .inr rfl
  | null => cases h
  | bool b => cases b <;> cases h
  | number x =>
    obtain hstructured | ⟨s, heq, _⟩ :=
      filledBy_blockParams (.number x) (.number x) ⟨rfl, h, rfl⟩
    · cases hstructured
    · cases heq
  | string s =>
    refine .inl ⟨s, rfl, ?_⟩
    have h := Except.ok.inj h
    simp only [TYPES.isBlockParam, Json.toText_string, String.ofList_toList, Bool.or_eq_true] at h
    cases h with
    | inl h =>
      constructor
      · rintro rfl
        exact absurd h (by decide)
      · apply Bool.eq_false_of_not_eq_true
        intro hhash
        rw [isBlockParamText_of_isBlockHash hhash] at h
        cases h
    | inr h =>
      have htags : ∀ tag ∈ blockTags, tag ≠ "" ∧ isBlockHash tag = false := by decide
      exact htags s (of_decide_eq_true h)

theorem blockOn_string {s : String} (hne : s ≠ "") (hhash : isBlockHash s = false)
    (chain : Chain) : blockOn chain (.string s) = .ok (some (.string s)) := by
  show (if s = "" then _ else if isBlockHash s then _ else _ : Except _ _) = _
  rw [if_neg hne, hhash]
  rfl

theorem blockOn_object (h : isObjectOrArray blockParam = true) (chain : Chain) :
    blockOn chain blockParam =
      match property "blockNumber" blockParam, property "blockHash" blockParam with
      | some blockNumber, _ => .ok (some blockNumber)
      | none, some blockHash =>
          match findBlock chain (.hash (String.ofList blockHash.toText)) with
          | some block => .ok (some (.string (numberTo0x block.number)))
          | none => .error (.jsonRpcError (predefined.RESOURCE_NOT_FOUND
              ("Block Hash: '" ++ String.ofList blockHash.toText ++ "'")))
      | none, none =>
          .error (.jsonRpcError (predefined.INVALID_ARGUMENTS "neither block nor hash specified"))
      := by
  have hunfold : blockOn chain blockParam =
      match property "blockNumber" blockParam, property "blockHash" blockParam with
      | some blockNumber, _ => .ok (some blockNumber)
      | none, some blockHash =>
          (getBlockNumberFromHash (chainClient chain) blockHash).bind fun number =>
            .ok (some (.string number))
      | none, none =>
          .error (.jsonRpcError (predefined.INVALID_ARGUMENTS "neither block nor hash specified"))
      := by
    cases blockParam with
    | array items => rfl
    | object fields => rfl
    | _ => cases h
  rw [hunfold]
  cases property "blockNumber" blockParam with
  | some blockNumber => rfl
  | none =>
    cases property "blockHash" blockParam with
    | none => rfl
    | some blockHash =>
      show (getBlockNumberFromHash (chainClient chain) blockHash : Except _ _).bind _ = _
      rw [getBlockNumberFromHash_chain]
      dsimp only
      cases findBlock chain (.hash (String.ofList blockHash.toText)) <;> rfl

private theorem blockOn_of_settled (h : TYPES.blockParams.test blockParam = .ok true)
    (hsettled : isSettledCall chain blockParam = true) (hext : chain.Extends chain')
    (hok : blockOn chain blockParam = .ok block) :
    blockOn chain' blockParam = .ok block ∧ isHistorical chain block = true := by
  rcases cases_of_blockParams h with ⟨s, rfl, hne, hhash⟩ | hobject
  · rw [blockOn_string hne hhash] at hok ⊢
    exact ⟨hok, by rw [← Except.ok.inj hok]; exact hsettled⟩
  · have hsettled : (property "blockNumber" blockParam).all
        (fun x => isHistorical chain (some x)) = true := by
      cases blockParam with
      | string s => cases hobject
      | _ => exact hsettled
    rw [blockOn_object hobject] at hok ⊢
    cases hnumber : property "blockNumber" blockParam with
    | some blockNumber =>
      rw [hnumber] at hok hsettled
      exact ⟨hok, by rw [← Except.ok.inj hok]; exact hsettled⟩
    | none =>
      rw [hnumber] at hok
      cases hblock : property "blockHash" blockParam with
      | none =>
        rw [hblock] at hok
        cases hok
      | some blockHash =>
        simp only [hblock] at hok ⊢
        cases hfind : findBlock chain (.hash (String.ofList blockHash.toText)) with
        | none =>
          rw [hfind] at hok
          cases hok
        | some b =>
          rw [hfind] at hok
          rw [findBlock_of_extends hext hfind]
          refine ⟨hok, ?_⟩
          rw [← Except.ok.inj hok]
          obtain ⟨cb, hmem, rfl⟩ := List.mem_map.mp (List.mem_of_find?_eq_some hfind)
          obtain ⟨n, hn⟩ := List.getElem?_of_mem hmem
          have hle : cb.block.number ≤ chain.head := by
            rw [chain.numbered n cb hn]
            exact Chain.exists_block?_iff.mp ⟨cb.block, by rw [Chain.block?, hn]; rfl⟩
          simp only [isHistorical, namedBlock_numberTo0x, Option.any_some, decide_eq_true_eq]
          exact hle

private theorem blockOn_of_unsettled (h : TYPES.blockParams.test blockParam = .ok true)
    (hsettled : isSettledCall chain blockParam = false) :
    ∃ x, (∀ chain, blockOn chain blockParam = .ok (some x)) ∧
      isHistorical chain (some x) = false := by
  rcases cases_of_blockParams h with ⟨s, rfl, hne, hhash⟩ | hobject
  · exact ⟨.string s, blockOn_string hne hhash, hsettled⟩
  · have hsettled : (property "blockNumber" blockParam).all
        (fun x => isHistorical chain (some x)) = false := by
      cases blockParam with
      | string s => cases hobject
      | _ => exact hsettled
    cases hnumber : property "blockNumber" blockParam with
    | none =>
      rw [hnumber] at hsettled
      cases hsettled
    | some x =>
      rw [hnumber] at hsettled
      refine ⟨x, fun chain => ?_, hsettled⟩
      rw [blockOn_object hobject, hnumber]

end Blocks

section Calls

/-- No contract answers anything. -/
def noContracts : Contracts where
  call _ _ := .ok none
  evmAddress _ := none
  entity _ _ := none
  state _ _ _ := none
  historical _ _ _ _ _ := rfl

/-- The request passes the checks before it is sent. -/
def isSent (operator : Operator) (chain : Chain) (request : IContractCallRequest) : Bool :=
  (checkAddress request.toAddress : Except RelayError Unit).isOk &&
    (contractCallFormat operator (contractClient noContracts chain) request).isOk

variable {operator : Operator} {contracts : Contracts} {chain chain' : Chain}
  {request : IContractCallRequest} {blockParam : Json} {result : CallResult}

private theorem exists_of_isOk {ε α : Type} {x : Except ε α} (h : x.isOk = true) :
    ∃ a, x = .ok a := by
  cases x with
  | error e => cases h
  | ok a => exact ⟨a, rfl⟩

private theorem exists_of_not_isOk {ε α : Type} {x : Except ε α} (h : x.isOk = false) :
    ∃ e, x = .error e := by
  cases x with
  | error e => exact ⟨e, rfl⟩
  | ok a => cases h

private theorem isOk_bind {ε α β : Type} {x : Except ε α} {f : α → Except ε β} :
    (x >>= f).isOk = x.toOption.any fun a => (f a).isOk := by
  cases x <;> rfl

private theorem isOk_contractCallFormat (operator : Operator) (contracts contracts' : Contracts)
    (chain chain' : Chain) (request : IContractCallRequest) :
    (contractCallFormat operator (contractClient contracts chain) request).isOk =
      (contractCallFormat operator (contractClient contracts' chain') request).isOk := by
  have haddress : (operatorAddress operator (contractClient contracts chain)).isOk =
      (operatorAddress operator (contractClient contracts' chain')).isOk := by
    unfold operatorAddress
    cases operator.isHexEcdsa with
    | true => rfl
    | false => cases operator.accountId <;> rfl
  have hsender (value : Option ℕ) :
      (sender operator (contractClient contracts chain) request value).isOk =
        (sender operator (contractClient contracts' chain') request value).isOk := by
    unfold sender
    split
    · exact haddress
    · rfl
  have hformat (client : ContractClient (Except RelayError)) :
      (contractCallFormat operator client request).isOk =
        (tinybarValue (m := Except RelayError) (request.value.filter (· ≠ ""))).toOption.any
          fun value => (sender operator client request value).isOk := by
    unfold contractCallFormat
    rw [isOk_bind]
    congr 1
    funext value
    rw [isOk_bind]
    cases sender operator client request value <;> rfl
  rw [hformat, hformat]
  simp only [hsender]

theorem callUncaught_chain (operator : Operator) (contracts : Contracts) (chain : Chain)
    (request : IContractCallRequest) (blockParam : Json) :
    callUncaught operator (chainClient chain) (contractClient contracts chain) request blockParam =
      (checkAddress request.toAddress : Except _ _).bind fun _ =>
        (blockOn chain blockParam).bind fun block =>
          (contractCallFormat operator (contractClient contracts chain) request).bind fun format =>
            callResult (contracts.call chain (prepareMirrorNodeCallData request format block)) := by
  have hsend (data : CallData) : callMirrorNode (contractClient contracts chain) data =
      callResult (contracts.call chain data) := by
    simp only [callMirrorNode, contractClient, bind, Except.bind]
    cases callResult (contracts.call chain data) <;> rfl
  unfold callUncaught
  simp only [hsend]
  rfl

private theorem callOn_congr (h : callUncaught operator (chainClient chain')
      (contractClient contracts chain') request blockParam =
    callUncaught operator (chainClient chain) (contractClient contracts chain) request blockParam) :
    callOn operator contracts chain' request blockParam =
      callOn operator contracts chain request blockParam := by
  unfold callOn call
  rw [h]

private theorem callOn_ne_ok {e : JsonRpcError} (h : callUncaught operator (chainClient chain)
      (contractClient contracts chain) request blockParam = .error (.jsonRpcError e)) :
    callOn operator contracts chain request blockParam ≠ .ok result := by
  unfold callOn call
  rw [h]
  intro heq
  cases heq

private theorem callOn_of_ok (h : callUncaught operator (chainClient chain)
      (contractClient contracts chain) request blockParam = .ok result) :
    callOn operator contracts chain request blockParam = .ok result := by
  unfold callOn call
  rw [h]
  rfl

private theorem checkAddress_cases (address : Nullable) :
    (checkAddress address : Except RelayError Unit) = .ok () ∨
      ∃ e, (checkAddress address : Except RelayError Unit) = .error (.jsonRpcError e) := by
  cases address with
  | text address =>
    by_cases hvalid : address ≠ "" ∧ ¬isValidEthereumAddress address
    · exact .inr ⟨_, if_pos hvalid⟩
    · exact .inl (if_neg hvalid)
  | undefined => exact .inl rfl
  | null => exact .inl rfl

private theorem blockOn_cases (h : TYPES.blockParams.test blockParam = .ok true) (chain : Chain) :
    (∃ block, blockOn chain blockParam = .ok block) ∨
      ∃ e, blockOn chain blockParam = .error (.jsonRpcError e) := by
  rcases cases_of_blockParams h with ⟨s, rfl, hne, hhash⟩ | hobject
  · exact .inl ⟨_, blockOn_string hne hhash chain⟩
  · rw [blockOn_object hobject]
    split
    · exact .inl ⟨_, rfl⟩
    · split
      · exact .inl ⟨_, rfl⟩
      · exact .inr ⟨_, rfl⟩
    · exact .inr ⟨_, rfl⟩

private theorem exists_block_of_callOn (h : TYPES.blockParams.test blockParam = .ok true)
    (hok : callOn operator contracts chain request blockParam = .ok result) :
    (checkAddress request.toAddress : Except RelayError Unit) = .ok () ∧
      ∃ block, blockOn chain blockParam = .ok block := by
  have huncaught := callUncaught_chain operator contracts chain request blockParam
  rcases checkAddress_cases request.toAddress with haddress | ⟨e, haddress⟩
  · refine ⟨haddress, ?_⟩
    rcases blockOn_cases h chain with hblock | ⟨e, hblock⟩
    · exact hblock
    · rw [haddress, hblock] at huncaught
      exact absurd hok (callOn_ne_ok huncaught)
  · rw [haddress] at huncaught
    exact absurd hok (callOn_ne_ok huncaught)

private theorem callOn_of_settled (h : TYPES.blockParams.test blockParam = .ok true)
    (hsettled : isSettledCall chain blockParam = true) (hext : chain.Extends chain')
    (hok : callOn operator contracts chain request blockParam = .ok result) :
    callOn operator contracts chain' request blockParam = .ok result := by
  obtain ⟨_, block, hblock⟩ := exists_block_of_callOn h hok
  obtain ⟨hblock', hhistorical⟩ := blockOn_of_settled h hsettled hext hblock
  have hcall (format : CallFormat) :
      contracts.call chain' (prepareMirrorNodeCallData request format block) =
        contracts.call chain (prepareMirrorNodeCallData request format block) :=
    contracts.historical chain chain' _ hext hhistorical
  rw [← hok]
  apply callOn_congr
  rw [callUncaught_chain, callUncaught_chain, hblock, hblock']
  simp only [Except.bind, hcall]
  rfl

private theorem callOn_of_not_sent (h : TYPES.blockParams.test blockParam = .ok true)
    (hsent : isSent operator chain request = false) (hext : chain.Extends chain')
    (hok : callOn operator contracts chain request blockParam = .ok result) :
    callOn operator contracts chain' request blockParam = .ok result := by
  cases hsettled : isSettledCall chain blockParam with
  | true => exact callOn_of_settled h hsettled hext hok
  | false =>
    obtain ⟨haddress, _⟩ := exists_block_of_callOn h hok
    obtain ⟨x, hblock, _⟩ := blockOn_of_unsettled h hsettled
    rw [isSent, haddress] at hsent
    rw [← isOk_contractCallFormat operator contracts noContracts chain chain] at hsent
    obtain ⟨e, hformat⟩ := exists_of_not_isOk hsent
    have hformat' : contractCallFormat operator (contractClient contracts chain') request =
        .error e := hformat
    rw [← hok]
    apply callOn_congr
    rw [callUncaught_chain, callUncaught_chain, haddress, hblock, hblock]
    show (contractCallFormat operator (contractClient contracts chain') request : Except _ _).bind _ =
      (contractCallFormat operator (contractClient contracts chain) request : Except _ _).bind _
    rw [hformat, hformat']
    rfl

/-- Contracts that show the number of the last block to every call but one as of a block of the
chain. -/
def headContracts : Contracts where
  call chain data :=
    if isHistorical chain data.block then .ok none else .ok (some (numberTo0x chain.head))
  evmAddress _ := none
  entity _ _ := none
  state _ _ _ := none
  historical chain chain' data hext hblock := by
    rw [if_pos hblock, if_pos (isHistorical_of_extends hext hblock)]

private theorem formatCallResponse_numberTo0x (n : ℕ) :
    formatCallResponse (some (numberTo0x n)) = numberTo0x n := by
  have hne : numberTo0x n ≠ "" := by
    intro h
    have hlist := congrArg String.toList h
    rw [toList_numberTo0x] at hlist
    cases hlist
  have hprefix : Js.startsWith (numberTo0x n) EMPTY_HEX = true := by
    rw [Js.startsWith, toList_numberTo0x]
    rfl
  simp [formatCallResponse, Option.filter, hne, prepend0x, hprefix]

private theorem exists_unsettled_call (h : TYPES.blockParams.test blockParam = .ok true)
    (hsettled : isSettledCall chain blockParam = false)
    (hsent : isSent operator chain request = true) :
    ∃ (contracts : Contracts) (result : CallResult) (chain' : Chain),
      callOn operator contracts chain request blockParam = .ok result ∧ chain.Extends chain' ∧
        callOn operator contracts chain' request blockParam ≠ .ok result := by
  obtain ⟨x, hblock, hhistorical⟩ := blockOn_of_unsettled h hsettled
  rw [isSent, Bool.and_eq_true] at hsent
  obtain ⟨_, haddress⟩ := exists_of_isOk hsent.1
  have hformat (chain' : Chain) : ∃ format, contractCallFormat operator
      (contractClient headContracts chain') request = .ok format := by
    apply exists_of_isOk
    rw [isOk_contractCallFormat operator headContracts noContracts chain' chain]
    exact hsent.2
  have hanswer (chain' : Chain) : callOn operator headContracts chain' request blockParam =
      .ok (.hex (if isHistorical chain' (some x) then EMPTY_HEX else numberTo0x chain'.head)) := by
    obtain ⟨format, hformat⟩ := hformat chain'
    apply callOn_of_ok
    rw [callUncaught_chain, haddress, hblock, hformat]
    show callResult (if isHistorical chain' (some x) then _ else _) = _
    split
    · rfl
    · rw [callResult, formatCallResponse_numberTo0x]
  obtain ⟨chain', hext, hhead⟩ := chain.exists_extends_head (Nat.le_succ chain.head)
  refine ⟨headContracts, _, chain', hanswer chain, hext, ?_⟩
  rw [hanswer chain', hhistorical, if_neg Bool.false_ne_true]
  intro heq
  injection heq with heq
  injection heq with heq
  split at heq
  · have hlist := congrArg String.toList heq
    rw [toList_numberTo0x] at hlist
    exact Nat.toDigits_ne_nil (List.cons_eq_cons.mp (List.cons_eq_cons.mp hlist).2).2.symm
  · have hnumber := numberTo0x_inj heq
    omega

end Calls

section Stored

open CachedMethod

variable {toNumber : Arg → Number} {params : List Json} {args : List Arg} {x : Json}
  {p : IGetLogsParams} {text : String}

private theorem mem_nonCachable : ∀ tag ∈ ["latest", "pending", "safe", "finalized"],
    tag ∈ splitValues NON_CACHABLE_BLOCK_PARAMS := by decide

private theorem tag_readBlockParam (h : text ∉ splitValues NON_CACHABLE_BLOCK_PARAMS) :
    blockTagIsLatestOrPending (some (readBlockParam text)) = false := by
  have hne : ∀ tag ∈ ["latest", "pending", "safe", "finalized"], text ≠ tag := by
    rintro tag hmem rfl
    exact h (mem_nonCachable _ hmem)
  simp only [readBlockParam, hne "latest" (by decide), hne "pending" (by decide),
    hne "safe" (by decide), hne "finalized" (by decide), if_false]
  split
  · rfl
  · split <;> rfl

/-- The parameters are those of a query whose answers are stored. -/
def StoredQuery (toNumber : Arg → Number) (params : List Json) (p : IGetLogsParams) : Prop :=
  ∃ args x, getLogs.args toNumber params = .ok args ∧ args[0]? = some (.json x) ∧
    readFilter x = some p ∧ getLogs.stores args true = true

/-- The parameters are those of a call whose answers are stored. -/
def StoredCall (toNumber : Arg → Number) (params : List Json) (request : IContractCallRequest)
    (blockParam : Json) : Prop :=
  ∃ args x, call.args toNumber params = .ok args ∧ args[0]? = some (.json x) ∧
    readTransaction x = some request ∧ args[1]? = some (.json blockParam) ∧
      call.stores args true = true

private theorem test_filter (hargs : getLogs.args toNumber params = .ok args)
    (hx : args[0]? = some (.json x)) :
    TYPES.filter.test x = .ok true ∧ args = [.json x] := by
  obtain ⟨left, hleft, hargs⟩ := exists_of_bind_ok hargs
  obtain ⟨y, x', ys, xs, rfl, rfl, haccepts, htail⟩ :=
    Checked.exists_param rfl (checked_of_validateParams hleft)
  obtain ⟨_, rfl⟩ := htail.eq_nil
  cases hargs
  obtain rfl : y = x := by
    injection Option.some.inj hx
  rw [show y = x' from haccepts.left]
  exact ⟨haccepts.type, rfl⟩

private theorem validateSchema_of_test (h : TYPES.filter.test x = .ok true) :
    validateSchema OBJECTS_VALIDATIONS.filter x = .ok true := by
  cases x with
  | object fields =>
    unfold TYPES.filter at h
    dsimp only at h
    split at h
    · cases h
    · exact h
  | _ => cases h

private theorem explicit_of_stores (htest : TYPES.filter.test x = .ok true)
    (hstores : getLogs.stores [.json x] true = true) {key : String}
    (hkey : key = "fromBlock" ∨ key = "toBlock") {o : Option String}
    (hfield : x.field? key = o.map .string) :
    ∀ f ∈ o.map readBlockParam, ∃ n, Explicit f n := by
  intro f hf
  obtain ⟨text, htext, rfl⟩ := Option.map_eq_some_iff.mp hf
  rw [htext] at hfield
  have hschema := validateSchema_of_test htest
  have htextTest : TYPES.blockNumber.test (.string text) = .ok true := by
    rcases hkey with rfl | rfl
    · have hmem : ("fromBlock", OBJECTS_VALIDATIONS.optional TYPES.blockNumber) ∈
          OBJECTS_VALIDATIONS.filter.properties := by simp [OBJECTS_VALIDATIONS.filter]
      exact test_of_validateSchema hschema hmem hfield rfl
    · have hmem : ("toBlock", OBJECTS_VALIDATIONS.optional TYPES.blockNumber) ∈
          OBJECTS_VALIDATIONS.filter.properties := by simp [OBJECTS_VALIDATIONS.filter]
      exact test_of_validateSchema hschema hmem hfield rfl
  apply exists_explicit (isBlockNumber_readBlockParam htextTest)
  apply tag_readBlockParam
  intro hmem
  have hproperty : ((Arg.json x).property key).isOneOf (splitValues NON_CACHABLE_BLOCK_PARAMS) =
      true := by
    rw [Arg.property, hfield]
    exact decide_eq_true hmem
  rcases hkey with rfl | rfl
  · simp [stores, shouldStore, options, shouldSkipCachingForNamedParams, hproperty] at hstores
  · simp [stores, shouldStore, options, shouldSkipCachingForNamedParams, hproperty] at hstores

theorem test_blockParams {blockParam : Json} (hargs : call.args toNumber params = .ok args)
    (hblock : args[1]? = some (.json blockParam)) : TYPES.blockParams.test blockParam = .ok true := by
  obtain ⟨left, hleft, hlayout⟩ := exists_of_bind_ok hargs
  obtain ⟨y, x, ys, xs, rfl, rfl, _, htail⟩ :=
    Checked.exists_param rfl (checked_of_validateParams hleft)
  obtain ⟨z, w, zs, ws, rfl, rfl, haccepts, _⟩ := Checked.exists_param rfl htail
  cases hlayout
  obtain rfl : z = blockParam := by
    injection Option.some.inj hblock
  rw [show z = w from haccepts.left]
  exact haccepts.type

/-- What a query has found, it finds however the chain goes on. -/
def StableQuery (config : CommonConfig) (chain : Chain) (p : IGetLogsParams) : Prop :=
  ∀ (logs : List Blocks.Log) (chain' : Chain), logsOn config chain p = .ok logs →
    chain.Extends chain' → logsOn config chain' p = .ok logs

/-- What a call has returned, it returns however the chain goes on. -/
def StableCall (operator : Operator) (chain : Chain) (request : IContractCallRequest)
    (blockParam : Json) : Prop :=
  ∀ (contracts : Contracts) (result : CallResult) (chain' : Chain),
    callOn operator contracts chain request blockParam = .ok result → chain.Extends chain' →
      callOn operator contracts chain' request blockParam = .ok result

variable {config : CommonConfig} {operator : Operator} {chain : Chain}
  {request : IContractCallRequest} {blockParam : Json} {logs : List Blocks.Log}

private theorem stableQuery_iff (h : StoredQuery toNumber params p)
    (hok : logsOn config chain p = .ok logs) :
    StableQuery config chain p ↔ isSettled chain p = true := by
  obtain ⟨args, x, hargs, hx, hread, hstores⟩ := h
  obtain ⟨htest, rfl⟩ := test_filter hargs hx
  obtain ⟨fromBlock, toBlock, _, hfield, hfield', hfrom, hto⟩ := fields_of_readFilter hread
  have hfrom : ∀ f ∈ p.fromBlock, ∃ m, Explicit f m := by
    rw [hfrom]
    exact explicit_of_stores htest hstores (.inl rfl) hfield
  have hto : ∀ t ∈ p.toBlock, ∃ n, Explicit t n := by
    rw [hto]
    exact explicit_of_stores htest hstores (.inr rfl) hfield'
  constructor
  · intro hstable
    by_contra hsettled
    obtain ⟨chain', hext, hne⟩ :=
      exists_unsettled hfrom hto hok (Bool.eq_false_of_not_eq_true hsettled)
    exact hne (hstable logs chain' hok hext)
  · intro hsettled logs' chain' hok' hext
    rw [logsOn_of_isSettled hext hok' hfrom hto hsettled, hok']

private theorem stableCall_iff (h : StoredCall toNumber params request blockParam) :
    StableCall operator chain request blockParam ↔
      isSettledCall chain blockParam = true ∨ isSent operator chain request = false := by
  obtain ⟨args, x, hargs, _, _, hblock, _⟩ := h
  have htest := test_blockParams hargs hblock
  constructor
  · intro hstable
    by_contra hnot
    rw [not_or] at hnot
    obtain ⟨contracts, result, chain', hok, hext, hne⟩ := exists_unsettled_call htest
      (Bool.eq_false_of_not_eq_true hnot.1) (Bool.eq_true_of_not_eq_false hnot.2)
    exact hne (hstable contracts result chain' hok hext)
  · rintro (hsettled | hsent) contracts result chain' hok hext
    · exact callOn_of_settled htest hsettled hext hok
    · exact callOn_of_not_sent htest hsent hext hok

end Stored

section Answers

/-- A stored answer stays the same as the chain goes on exactly if the query or the call is
settled, or the call is not sent at all. -/
theorem cached_answers_stable_iff (config : CommonConfig) (operator : Operator)
    (toNumber : Arg → Number) (params : List Json) (chain : Chain) :
    (∀ p logs, StoredQuery toNumber params p → logsOn config chain p = .ok logs →
        (StableQuery config chain p ↔ isSettled chain p = true)) ∧
      ∀ request blockParam, StoredCall toNumber params request blockParam →
        (StableCall operator chain request blockParam ↔
          isSettledCall chain blockParam = true ∨ isSent operator chain request = false) :=
  ⟨fun _ _ h hok => stableQuery_iff h hok, fun _ _ h => stableCall_iff h⟩

theorem cached_answers_stable_iff_earliest :
    StableQuery {} .genesis ⟨none, some (.hex "0x0"), some (.hex "0x0"), .none, none⟩ ∧
      StableCall ⟨true, none, none⟩ .genesis {} (.string "earliest") := by
  constructor
  · apply ((cached_answers_stable_iff {} ⟨true, none, none⟩ (fun _ => .nan)
      [.object [("fromBlock", .string "0x0"), ("toBlock", .string "0x0")]] .genesis).1 _ []
        ⟨_, _, rfl, rfl, rfl, rfl⟩ rfl).mpr
    decide
  · apply ((cached_answers_stable_iff {} ⟨true, none, none⟩ (fun _ => .nan)
      [.object [], .string "earliest"] .genesis).2 _ _ ⟨_, _, rfl, rfl, rfl, rfl, rfl⟩).mpr
    exact .inl (by decide)

/-- The answers to a query without a block and to a call at the latest block that is named in an
object are stored. -/
theorem stored_answers_of_latest :
    (¬∀ (config : CommonConfig) (toNumber : Arg → Number) (params : List Json) (chain : Chain)
        (p : IGetLogsParams), StoredQuery toNumber params p → StableQuery config chain p) ∧
      ¬∀ (operator : Operator) (toNumber : Arg → Number) (params : List Json) (chain : Chain)
        (request : IContractCallRequest) (blockParam : Json),
          StoredCall toNumber params request blockParam →
            StableCall operator chain request blockParam := by
  constructor
  · intro hall
    have hstored : StoredQuery (fun _ => .nan) [.object []] ⟨none, none, none, .none, none⟩ :=
      ⟨_, _, rfl, rfl, rfl, rfl⟩
    have hstable := hall {} _ _ .genesis _ hstored
    have hok : logsOn {} .genesis ⟨none, none, none, .none, none⟩ = .ok [] := rfl
    have hsettled := (stableQuery_iff hstored hok).mp hstable
    exact absurd hsettled (by decide)
  · intro hall
    have hstored : StoredCall (fun _ => .nan)
        [.object [], .object [("blockNumber", .string "latest")]] {}
          (.object [("blockNumber", .string "latest")]) := ⟨_, _, rfl, rfl, rfl, rfl, rfl⟩
    have hstable := hall ⟨true, none, none⟩ _ _ .genesis _ _ hstored
    exact absurd ((stableCall_iff hstored).mp hstable) (by decide)

end Answers

end JsonRpcRelay.Cache

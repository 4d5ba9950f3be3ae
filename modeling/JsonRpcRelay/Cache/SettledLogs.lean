import JsonRpcRelay.Cache.CachedMethods
import JsonRpcRelay.Common.BlockRanges
import JsonRpcRelay.Common.FixedChain
import JsonRpcRelay.Contract.Params

/-!
# Log queries that are settled

A query for logs is settled if its answer stays the same however the chain goes on.  That is so
for the block of a hash and for a range whose two ends are on the chain.
-/

namespace JsonRpcRelay.Cache

open constants Mirror Common Contract Framework Blocks

section Parameters

variable {param : BlockParam} {n : ℕ}

/-- The parameter is a number. -/
structure Explicit (param : BlockParam) (n : ℕ) : Prop where
  blockNumber : param.blockNumber = some n
  tag : blockTagIsLatestOrPending (some param) = false
  present : isMissing (some param) = false
  block : ∀ chain : Chain, blockOf chain (some param) = chain.block? n

theorem exists_explicit (h : param.isBlockNumber = true)
    (htag : blockTagIsLatestOrPending (some param) = false) : ∃ n, Explicit param n := by
  cases param with
  | earliest => exact ⟨0, rfl, rfl, rfl, fun _ => rfl⟩
  | latest | pending | safe | finalized => cases htag
  | hash text | number n => cases h
  | hex text =>
    refine ⟨bigIntOfHex text, rfl, rfl, rfl, fun chain => ?_⟩
    have hne : text ≠ EMPTY_HEX := by
      rintro rfl
      exact absurd h (by decide)
    rw [blockOf, if_neg hne]

private theorem Explicit.latestIfTag_eq (h : Explicit param n) :
    latestIfTag (some param) = some param := by
  rw [latestIfTag, h.tag]
  rfl

end Parameters

section Answers

variable (config : CommonConfig)

/-- What a query finds on a chain. -/
def logsOn (chain : Chain) (p : IGetLogsParams) : Except RelayError (List Log) :=
  getLogs config (chainClient chain) p

/-- No log answers the query, whatever its block is. -/
def findsNothing (p : IGetLogsParams) : Bool :=
  p.address.matchesNothing && (addTopicsToParams p.topics).isOk

/-- The parameter is a number up to the last block. -/
def withinHead (chain : Chain) (param : Option BlockParam) : Bool :=
  (param.bind (·.blockNumber)).any (· ≤ chain.head)

/-- The blocks of the query are on the chain, or no log can answer it. -/
def isSettled (chain : Chain) (p : IGetLogsParams) : Bool :=
  match p.blockHash with
  | some blockHash => (findBlock chain (.hash blockHash)).isSome || findsNothing p
  | none => (withinHead chain p.fromBlock && withinHead chain p.toBlock) ||
      (p.fromBlock = p.toBlock && findsNothing p)

/-- The range of a query. -/
def rangeOn (chain : Chain) (p : IGetLogsParams) : Except RelayError (Option (Timestamp × Timestamp)) :=
  queriedRange config chain p.address p.blockHash p.fromBlock p.toBlock

variable {config} {chain chain' : Chain} {p : IGetLogsParams} {logs : List Log}

private theorem logsOn_eq : logsOn config chain p =
    ((rangeOn config chain p).bind (logsIn chain p.address p.topics)).mapError unwrapError :=
  getLogs_chain config chain p.address p.topics p.blockHash p.fromBlock p.toBlock

private theorem mapError_eq_ok {ε ε' α : Type} {f : ε → ε'} {x : Except ε α} {a : α} :
    x.mapError f = .ok a ↔ x = .ok a := by
  cases x with
  | error e => simp [Except.mapError]
  | ok b => simp [Except.mapError]

private theorem exists_range (h : logsOn config chain p = .ok logs) : ∃ range,
    rangeOn config chain p = .ok range ∧ logsIn chain p.address p.topics range = .ok logs := by
  rw [logsOn_eq, mapError_eq_ok] at h
  exact exists_of_bind_ok h

private theorem logsOn_of_range {range : Option (Timestamp × Timestamp)}
    (h : rangeOn config chain p = .ok range) :
    logsOn config chain p = (logsIn chain p.address p.topics range).mapError unwrapError := by
  rw [logsOn_eq, h]
  rfl

private theorem logsOn_ne_of_range {e : RelayError} (h : rangeOn config chain p = .error e) :
    logsOn config chain p ≠ .ok logs := by
  rw [logsOn_eq, h]
  intro heq
  cases heq

private theorem le_latest {n : ℕ} {b : MirrorNodeBlock} (h : chain.block? n = some b) :
    b.timestampTo ≤ chain.latest.timestampTo :=
  Chain.timestampTo_mono (Chain.exists_block?_iff.mp ⟨b, h⟩) h chain.block?_head

private theorem le_latest_of_findBlock {hash : String} {b : MirrorNodeBlock}
    (h : findBlock chain (.hash hash) = some b) : b.timestampTo ≤ chain.latest.timestampTo := by
  obtain ⟨cb, hmem, rfl⟩ := List.mem_map.mp (List.mem_of_find?_eq_some h)
  obtain ⟨n, hn⟩ := List.getElem?_of_mem hmem
  apply le_latest (n := n)
  rw [Chain.block?, hn]
  rfl

private theorem le_latest_of_blockOf {param : Option BlockParam} {b : MirrorNodeBlock}
    (h : blockOf chain param = some b) : b.timestampTo ≤ chain.latest.timestampTo := by
  unfold blockOf at h
  split at h
  · exact le_latest h
  · split at h
    · cases h
    · exact le_latest h
  · exact le_latest_of_findBlock h
  · exact le_latest h
  · rw [← Option.some.inj h]

private theorem range_le_latest {range : Option (Timestamp × Timestamp)}
    (h : rangeOn config chain p = .ok range) : ∀ r ∈ range, r.2 ≤ chain.latest.timestampTo := by
  rintro r hr
  unfold rangeOn queriedRange at h
  split at h
  · obtain ⟨b, hb, rfl⟩ := Option.map_eq_some_iff.mp (Except.ok.inj h |>.trans hr)
    exact le_latest_of_findBlock hb
  · obtain ⟨_, _, hrange⟩ := exists_of_bind_ok h
    unfold rangeOf at hrange
    split at hrange
    · cases hrange
      cases hr
    · rename_i first hfirst
      unfold rangeFrom at hrange
      split at hrange
      · cases hrange
        cases hr
        exact le_latest_of_blockOf hfirst
      · split at hrange
        · cases hrange
          cases hr
        · rename_i last hlast
          cases hcheck : checkRange config p.address first last with
          | error e => rw [hcheck] at hrange; cases hrange
          | ok _ =>
            rw [hcheck] at hrange
            cases hrange
            cases hr
            exact le_latest_of_blockOf hlast

end Answers

section Settled

variable {config : CommonConfig} {chain chain' : Chain} {p : IGetLogsParams} {logs : List Log}
  {f t : BlockParam} {m n : ℕ}

private theorem logsOn_of_range_eq (h : chain.Extends chain')
    {range : Option (Timestamp × Timestamp)}
    (hrange : rangeOn config chain p = .ok range) (hrange' : rangeOn config chain' p = .ok range) :
    logsOn config chain' p = logsOn config chain p := by
  rw [logsOn_of_range hrange, logsOn_of_range hrange',
    logsIn_of_extends h (range_le_latest hrange)]

private theorem logsOn_of_findsNothing (h : findsNothing p = true)
    {range : Option (Timestamp × Timestamp)}
    (hrange : rangeOn config chain p = .ok range) : logsOn config chain p = .ok [] := by
  rw [findsNothing, Bool.and_eq_true] at h
  rw [logsOn_of_range hrange]
  cases htopics : addTopicsToParams p.topics with
  | error e =>
    rw [htopics] at h
    cases h.2
  | ok topics =>
    rw [logsIn_of_matchesNothing h.1 htopics]
    rfl

private theorem rangeOn_hash (config : CommonConfig) (chain : Chain) {blockHash : String}
    (hp : p.blockHash = some blockHash) :
    rangeOn config chain p = .ok ((findBlock chain (.hash blockHash)).map fun b =>
      (b.timestampFrom, b.timestampTo)) := by
  rw [rangeOn, hp]
  rfl

/-- The range between two numbers. -/
theorem rangeOn_explicit (config : CommonConfig) (chain : Chain) (hp : p.blockHash = none) (hfrom : p.fromBlock = some f)
    (hto : p.toBlock = some t) (hf : Explicit f m) (ht : Explicit t n) :
    rangeOn config chain p = match chain.block? m with
      | none => .ok none
      | some first => rangeFrom config chain (some f) (some t) p.address first := by
  rw [rangeOn, hp, hfrom, hto]
  show (requireFromBlock (chainClient chain) (some f) (some t)).bind _ = _
  rw [requireFromBlock_chain, ht.tag, hf.present, if_neg Bool.false_ne_true,
    if_neg fun h => absurd h.2 Bool.false_ne_true]
  show rangeOf config chain (some f) (some t) p.address = _
  rw [rangeOf, hf.latestIfTag_eq, ht.latestIfTag_eq]
  have hblock := hf.block
  cases hfound : chain.block? m with
  | none => rw [hblock, hfound]
  | some first => rw [hblock, hfound]

private theorem rangeFrom_explicit {first : MirrorNodeBlock} (ht : Explicit t n) (hne : f ≠ t) :
    rangeFrom config chain (some f) (some t) p.address first = match chain.block? n with
      | none => .ok none
      | some last => (checkRange config p.address first last).map fun _ =>
          some (first.timestampFrom, last.timestampTo) := by
  rw [rangeFrom, if_neg fun h => hne (Option.some.inj h)]
  have hblock := ht.block
  cases hfound : chain.block? n with
  | none => rw [hblock, hfound]
  | some last => rw [hblock, hfound]

private theorem rangeOn_of_extends (config : CommonConfig) (h : chain.Extends chain')
    (hp : p.blockHash = none)
    (hfrom : p.fromBlock = some f) (hto : p.toBlock = some t) (hf : Explicit f m)
    (ht : Explicit t n) (hm : m ≤ chain.head) (hn : n ≤ chain.head) :
    rangeOn config chain' p = rangeOn config chain p := by
  rw [rangeOn_explicit _ _ hp hfrom hto hf ht, rangeOn_explicit _ _ hp hfrom hto hf ht, h.block?_eq hm]
  cases chain.block? m with
  | none => rfl
  | some first =>
    by_cases hne : f = t
    · subst hne
      show rangeFrom config chain' _ _ _ _ = rangeFrom config chain _ _ _ _
      rw [rangeFrom, rangeFrom, if_pos rfl, if_pos rfl]
    · show rangeFrom config chain' _ _ _ _ = rangeFrom config chain _ _ _ _
      rw [rangeFrom_explicit ht hne, rangeFrom_explicit ht hne, h.block?_eq hn]

private theorem exists_of_withinHead {param : Option BlockParam} (h : withinHead chain param = true)
    (hparam : ∀ f ∈ param, ∃ m, Explicit f m) :
    ∃ f m, param = some f ∧ Explicit f m ∧ m ≤ chain.head := by
  cases param with
  | none => cases h
  | some f =>
    obtain ⟨m, hf⟩ := hparam f rfl
    rw [withinHead, Option.bind_some, hf.blockNumber] at h
    exact ⟨f, m, rfl, hf, of_decide_eq_true h⟩

private theorem rangeOn_latest (hp : p.blockHash = none) (hfrom : p.fromBlock = none)
    (hto : p.toBlock = none) : rangeOn config chain p =
      .ok (some (chain.latest.timestampFrom, chain.latest.timestampTo)) := by
  rw [rangeOn, hp, hfrom, hto]
  rfl

private theorem exists_range_of_same (config : CommonConfig) (chain : Chain)
    (hp : p.blockHash = none) (hsame : p.fromBlock = p.toBlock)
    (hfrom : ∀ f ∈ p.fromBlock, ∃ m, Explicit f m) :
    ∃ range, rangeOn config chain p = .ok range := by
  cases hparam : p.fromBlock with
  | none => exact ⟨_, rangeOn_latest hp hparam (hsame ▸ hparam)⟩
  | some f =>
    obtain ⟨m, hf⟩ := hfrom f hparam
    rw [rangeOn_explicit _ _ hp hparam (hsame ▸ hparam) hf hf]
    cases chain.block? m with
    | none => exact ⟨_, rfl⟩
    | some first => exact ⟨_, if_pos rfl⟩

/-- On a chain that goes on a query for nothing finds nothing, and one between numbers up to the
last block finds the same. -/
theorem logsOn_of_isSettled (h : chain.Extends chain') (hok : logsOn config chain p = .ok logs)
    (hfrom : ∀ f ∈ p.fromBlock, ∃ m, Explicit f m) (hto : ∀ t ∈ p.toBlock, ∃ n, Explicit t n)
    (hsettled : isSettled chain p = true) : logsOn config chain' p = logsOn config chain p := by
  obtain ⟨range, hrange, _⟩ := exists_range hok
  unfold isSettled at hsettled
  cases hp : p.blockHash with
  | some blockHash =>
    simp only [hp, Bool.or_eq_true] at hsettled
    have hrange' := rangeOn_hash config chain' hp
    cases hsettled with
    | inl hfound =>
      obtain ⟨b, hb⟩ := Option.isSome_iff_exists.mp hfound
      rw [findBlock_of_extends h hb] at hrange'
      have hrange := rangeOn_hash config chain hp
      rw [hb] at hrange
      exact logsOn_of_range_eq h hrange hrange'
    | inr hnothing =>
      rw [logsOn_of_findsNothing hnothing hrange, logsOn_of_findsNothing hnothing hrange']
  | none =>
    simp only [hp, Bool.or_eq_true, Bool.and_eq_true, decide_eq_true_eq] at hsettled
    cases hsettled with
    | inl hwithin =>
      obtain ⟨f, m, hfrom', hf, hm⟩ := exists_of_withinHead hwithin.1 hfrom
      obtain ⟨t, n, hto', ht, hn⟩ := exists_of_withinHead hwithin.2 hto
      have hrange' := rangeOn_of_extends config h hp hfrom' hto' hf ht hm hn
      exact logsOn_of_range_eq h hrange (hrange'.trans hrange)
    | inr hnothing =>
      obtain ⟨range', hrange'⟩ := exists_range_of_same config chain' hp
        hnothing.1 hfrom
      rw [logsOn_of_findsNothing hnothing.2 hrange, logsOn_of_findsNothing hnothing.2 hrange']

end Settled

section Unsettled

variable {config : CommonConfig} {chain chain' : Chain} {p : IGetLogsParams} {logs : List Log}
  {f t : BlockParam} {m n : ℕ} {a b : MirrorNodeBlock}

private theorem mem_logsIn (ha : chain.block? m = some a) (hb : chain.block? n = some b)
    (h : logsIn chain p.address p.topics (some (a.timestampFrom, b.timestampTo)) = .ok logs) :
    ∀ log ∈ logs, ∃ l, LogBetween chain m n l ∧ log = Log.ofRecord l := by
  rw [logsIn] at h
  cases htopics : addTopicsToParams p.topics with
  | error e => rw [htopics] at h; cases h
  | ok topics =>
    rw [htopics] at h
    rw [← Except.ok.inj h]
    intro log hlog
    obtain ⟨l, hl, rfl⟩ := List.mem_map.mp hlog
    exact ⟨l, ((mem_recordsOf ha hb).mp hl).1, rfl⟩

/-- A block with a log that answers the query. -/
def Answered (chain : Chain) (n : ℕ) (p : IGetLogsParams) : Prop :=
  ∃ l ∈ chain.logsAt n, l.address = (exampleLog p.address p.topics).address ∧
    l.topics = (exampleLog p.address p.topics).topics

/-- Unless nothing is found, a log that answers the query is found. -/
theorem exists_log_of_answered (hb : chain.block? n = some b) (hlog : Answered chain n p)
    (hnothing : findsNothing p = false)
    (h : logsIn chain p.address p.topics (some (b.timestampFrom, b.timestampTo)) = .ok logs) :
    ∃ l ∈ chain.logsAt n, Log.ofRecord l ∈ logs := by
  obtain ⟨l, hl, haddress, htopic⟩ := hlog
  rw [logsIn] at h
  cases htopics : addTopicsToParams p.topics with
  | error e => rw [htopics] at h; cases h
  | ok topics =>
    rw [htopics] at h
    rw [findsNothing, htopics, show (Except.ok topics : Except RelayError _).isOk = true from rfl,
      Bool.and_true] at hnothing
    refine ⟨l, hl, ?_⟩
    rw [← Except.ok.inj h]
    apply List.mem_map_of_mem
    rw [mem_recordsOf hb hb, selects_of_addTopicsToParams htopics]
    exact ⟨⟨n, Nat.le_refl n, Nat.le_refl n, hl⟩, matches_example hnothing haddress,
      matchesTopics_example htopics htopic⟩

private theorem logsOn_ne_nil (hb : chain.block? n = some b) (hlog : Answered chain n p)
    (hnothing : findsNothing p = false)
    (hrange : rangeOn config chain p = .ok (some (b.timestampFrom, b.timestampTo))) :
    logsOn config chain p ≠ .ok [] := by
  intro h
  rw [logsOn_of_range hrange, mapError_eq_ok] at h
  obtain ⟨l, _, hmem⟩ := exists_log_of_answered hb hlog hnothing h
  cases hmem

/-- Long enough to be seen in the difference of the doubles. -/
def longFrom (t : Timestamp) : ℕ := 2 ^ (t + 21) * 10 ^ 9

/-- A range with a block that lasts for far more than seven days is too large. -/
theorem checkRange_long_block (config : CommonConfig) (address : AddressFilter) (hmn : m ≤ n)
    (ha : chain.block? m = some a) (hb : chain.block? n = some b)
    (hlong : b.timestampTo = b.timestampFrom + longFrom b.timestampFrom) :
    ∃ e, checkRange config address a b = .error e := by
  have hpow : b.timestampFrom ≤ 2 ^ (b.timestampFrom + 20) :=
    (Nat.lt_two_pow_self.trans_le (Nat.pow_le_pow_right (by decide) (Nat.le_add_right _ _))).le
  have hexceeds : ExceedsRange b.timestampTo a.timestampFrom := by
    refine exceedsRange_of_powers (Nat.le_add_left 20 b.timestampFrom) ?_ ?_
    · exact ((Chain.timestampFrom_mono hmn ha hb).trans hpow).trans
        (Nat.le_mul_of_pos_right _ (by decide))
    · rw [hlong, longFrom]
      exact Nat.le_add_left _ _
  rw [checkRange, if_pos hexceeds]
  exact ⟨_, rfl⟩

private theorem checkRange_reversed (config : CommonConfig) (address : AddressFilter) (hnm : n < m)
    (ha : chain.block? m = some a) (hb : chain.block? n = some b) :
    ∃ e, checkRange config address a b = .error e := by
  unfold checkRange
  split
  · exact ⟨_, rfl⟩
  · refine ⟨_, if_pos ?_⟩
    rw [Chain.number_of_block? ha, Chain.number_of_block? hb]
    exact hnm

private theorem exists_unsettled_hash {blockHash : String} (hp : p.blockHash = some blockHash)
    (hmissing : findBlock chain (.hash blockHash) = none) (hnothing : findsNothing p = false)
    (hok : logsOn config chain p = .ok logs) :
    ∃ chain' : Chain, chain.Extends chain' ∧ logsOn config chain' p ≠ .ok logs := by
  obtain ⟨chain', hext, _, hblock, hlogs, hblocks⟩ :=
    chain.exists_extends_nextBlock blockHash 0 (some (exampleLog p.address p.topics))
  have hrange := rangeOn_hash config chain hp
  rw [hmissing] at hrange
  rw [logsOn_of_range hrange] at hok
  obtain rfl : [] = logs := Except.ok.inj hok
  refine ⟨chain', hext, logsOn_ne_nil hblock ?_ hnothing ?_⟩
  · rw [Answered, hlogs, Chain.logs_nextBlock]
    exact ⟨_, List.mem_singleton_self _, rfl, rfl⟩
  · have hfound : findBlock chain' (.hash blockHash) =
        some (chain.nextBlock blockHash 0 (some (exampleLog p.address p.topics))).block := by
      rw [findBlock] at hmissing ⊢
      rw [hblocks, List.map_append, List.find?_append, hmissing]
      simp [Chain.nextBlock, Js.startsWith]
    rw [rangeOn_hash config chain' hp, hfound]
    rfl

private theorem exists_unsettled_latest (hp : p.blockHash = none) (hfrom : p.fromBlock = none)
    (hto : p.toBlock = none) (hnothing : findsNothing p = false)
    (hok : logsOn config chain p = .ok logs) :
    ∃ chain' : Chain, chain.Extends chain' ∧ logsOn config chain' p ≠ .ok logs := by
  obtain ⟨chain', b, hext, hhead, hblock, _, hlog⟩ := chain.exists_extends_to
    (some (exampleLog p.address p.topics)) (fun _ => 0) (Nat.lt_succ_self chain.head)
  refine ⟨chain', hext, fun hok' => ?_⟩
  have hlatest : chain'.latest = b := by
    have hhead' := chain'.block?_head
    rw [hhead, hblock] at hhead'
    exact (Option.some.inj hhead').symm
  rw [logsOn_of_range (rangeOn_latest hp hfrom hto), mapError_eq_ok] at hok
  rw [logsOn_of_range (rangeOn_latest hp hfrom hto), mapError_eq_ok, hlatest] at hok'
  obtain ⟨l, hl, hmem⟩ := exists_log_of_answered hblock (hlog _ rfl) hnothing hok'
  obtain ⟨l', hbetween, heq⟩ := mem_logsIn chain.block?_head chain.block?_head hok _ hmem
  have hnumber := numberTo0x_inj (congrArg Log.blockNumber heq)
  have hle := hbetween.blockNumber.2.1
  rw [← hnumber, Chain.blockNumber_of_mem_logsAt hl] at hle
  omega

/-- A last block without a first one has to be the latest. -/
theorem exists_unsettled_to (hp : p.blockHash = none) (hfrom : p.fromBlock = none)
    (hto : p.toBlock = some t) (ht : Explicit t n) (hok : logsOn config chain p = .ok logs) :
    ∃ chain' : Chain, chain.Extends chain' ∧ logsOn config chain' p ≠ .ok logs := by
  have hrange (chain : Chain) (hne : t.toNumber ≠ some chain.head) :
      ∃ e, rangeOn config chain p = .error e := by
    rw [rangeOn, hp, hfrom, hto]
    refine ⟨.jsonRpcError predefined.MISSING_FROM_BLOCK_PARAM, ?_⟩
    show (requireFromBlock (chainClient chain) none (some t)).bind _ = _
    rw [requireFromBlock_chain, ht.tag, if_neg Bool.false_ne_true, if_pos ⟨hne, rfl⟩]
    rfl
  obtain ⟨chain', hext, hhead⟩ := chain.exists_extends_head (Nat.le_succ chain.head)
  refine ⟨chain', hext, ?_⟩
  by_cases hnumber : t.toNumber = some chain.head
  · obtain ⟨e, he⟩ := hrange chain' (by rw [hnumber, hhead]; simp)
    exact logsOn_ne_of_range he
  · obtain ⟨e, he⟩ := hrange chain hnumber
    exact absurd hok (logsOn_ne_of_range he)

/-- The range up to the latest block becomes too large. -/
theorem exists_unsettled_from (hp : p.blockHash = none) (hfrom : p.fromBlock = some f)
    (hto : p.toBlock = none) (hf : Explicit f m) :
    ∃ chain' : Chain, chain.Extends chain' ∧ logsOn config chain' p ≠ .ok logs := by
  obtain ⟨chain', b, hext, hhead, hblock, hlong, _⟩ := chain.exists_extends_to none longFrom
    (Nat.lt_of_lt_of_le (Nat.lt_succ_self chain.head) (Nat.le_max_right m _))
  refine ⟨chain', hext, ?_⟩
  have hm : m ≤ chain'.head := by omega
  obtain ⟨first, hfirst⟩ := Chain.exists_block?_iff.mpr hm
  rw [← hhead] at hblock
  obtain ⟨e, he⟩ := checkRange_long_block config p.address hm hfirst hblock hlong
  have hlatest : chain'.latest = b := by
    rw [chain'.block?_head] at hblock
    exact Option.some.inj hblock
  have hne : some f ≠ some BlockParam.latest := by
    intro heq
    have htag := hf.tag
    rw [heq] at htag
    cases htag
  apply logsOn_ne_of_range (e := e)
  rw [rangeOn, hp, hfrom, hto]
  show rangeOf config chain' (some f) none p.address = _
  rw [rangeOf, hf.latestIfTag_eq, hf.block, hfirst]
  show rangeFrom config chain' (some f) (some .latest) p.address first = _
  rw [rangeFrom, if_neg hne]
  show (checkRange config p.address first chain'.latest).map _ = _
  rw [hlatest, he]
  rfl

private theorem exists_unsettled_same (hp : p.blockHash = none) (hfrom : p.fromBlock = some f)
    (hto : p.toBlock = some f) (hf : Explicit f m) (hm : chain.head < m)
    (hnothing : findsNothing p = false) (hok : logsOn config chain p = .ok logs) :
    ∃ chain' : Chain, chain.Extends chain' ∧ logsOn config chain' p ≠ .ok logs := by
  have hrange := rangeOn_explicit config chain hp hfrom hto hf hf
  rw [Chain.block?_eq_none_iff.mpr hm] at hrange
  rw [logsOn_of_range hrange] at hok
  obtain rfl : [] = logs := Except.ok.inj hok
  obtain ⟨chain', b, hext, _, hblock, _, hlog⟩ := chain.exists_extends_to
    (some (exampleLog p.address p.topics)) (fun _ => 0) hm
  refine ⟨chain', hext, logsOn_ne_nil hblock (hlog _ rfl) hnothing ?_⟩
  rw [rangeOn_explicit _ _ hp hfrom hto hf hf, hblock]
  exact if_pos rfl

private theorem exists_unsettled_range (hp : p.blockHash = none) (hfrom : p.fromBlock = some f)
    (hto : p.toBlock = some t) (hf : Explicit f m) (ht : Explicit t n) (hne : f ≠ t)
    (hbeyond : chain.head < m ∨ chain.head < n) :
    ∃ chain' : Chain, chain.Extends chain' ∧ logsOn config chain' p ≠ .ok logs := by
  obtain ⟨chain', b, hext, hhead, hblock, hlong, _⟩ := chain.exists_extends_to none longFrom
    (lt_max_iff.mpr hbeyond)
  refine ⟨chain', hext, ?_⟩
  obtain ⟨first, hfirst⟩ := Chain.exists_block?_iff.mpr (show m ≤ chain'.head by omega)
  obtain ⟨last, hlast⟩ := Chain.exists_block?_iff.mpr (show n ≤ chain'.head by omega)
  have hcheck : ∃ e, checkRange config p.address first last = .error e := by
    rcases Nat.lt_or_ge n m with hnm | hmn
    · exact checkRange_reversed config p.address hnm hfirst hlast
    · rw [Nat.max_eq_right hmn, hlast] at hblock
      obtain rfl := Option.some.inj hblock
      exact checkRange_long_block config p.address hmn hfirst hlast hlong
  obtain ⟨e, he⟩ := hcheck
  apply logsOn_ne_of_range (e := e)
  rw [rangeOn_explicit _ _ hp hfrom hto hf ht, hfirst]
  show rangeFrom config chain' (some f) (some t) p.address first = _
  rw [rangeFrom_explicit ht hne, hlast]
  show (checkRange config p.address first last).map _ = _
  rw [he]
  rfl

/-- A query that is not settled finds something else on a chain that goes on. -/
theorem exists_unsettled (hfrom : ∀ f ∈ p.fromBlock, ∃ m, Explicit f m)
    (hto : ∀ t ∈ p.toBlock, ∃ n, Explicit t n) (hok : logsOn config chain p = .ok logs)
    (hsettled : isSettled chain p = false) :
    ∃ chain' : Chain, chain.Extends chain' ∧ logsOn config chain' p ≠ .ok logs := by
  unfold isSettled at hsettled
  cases hp : p.blockHash with
  | some blockHash =>
    simp only [hp, Bool.or_eq_false_iff, Option.isSome_eq_false_iff, Option.isNone_iff_eq_none]
      at hsettled
    exact exists_unsettled_hash hp hsettled.1 hsettled.2 hok
  | none =>
    simp only [hp, Bool.or_eq_false_iff, Bool.and_eq_false_iff, decide_eq_false_iff_not]
      at hsettled
    obtain ⟨hwithin, hsame⟩ := hsettled
    cases hf : p.fromBlock with
    | none =>
      cases ht : p.toBlock with
      | none => exact exists_unsettled_latest hp hf ht (by simpa [hf, ht] using hsame) hok
      | some t =>
        obtain ⟨n, htn⟩ := hto t ht
        exact exists_unsettled_to hp hf ht htn hok
    | some f =>
      obtain ⟨m, hfm⟩ := hfrom f hf
      cases ht : p.toBlock with
      | none => exact exists_unsettled_from hp hf ht hfm
      | some t =>
        obtain ⟨n, htn⟩ := hto t ht
        have hbeyond : chain.head < m ∨ chain.head < n := by
          simpa [withinHead, hf, ht, hfm.blockNumber, htn.blockNumber] using hwithin
        by_cases hne : f = t
        · subst hne
          have hmn : m = n := Option.some.inj (hfm.blockNumber.symm.trans htn.blockNumber)
          exact exists_unsettled_same hp hf ht hfm (by omega) (by simpa [hf, ht] using hsame) hok
        · exact exists_unsettled_range hp hf ht hfm htn hne hbeyond

end Unsettled

end JsonRpcRelay.Cache

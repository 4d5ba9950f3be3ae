import JsonRpcRelay.Common.AddressUnion
import JsonRpcRelay.Common.BlockRanges
import JsonRpcRelay.Common.FixedChain

/-!
# Answered log queries

While the chain stands still, the answer for the blocks `m` to `n` has each matching log of these
blocks, once for every query that finds it.  A range can be asked for in parts.
-/

namespace JsonRpcRelay.Common

open constants Mirror Blocks Framework

section Listings

/-- The logs of the blocks `m` to `n` with the topics of a request, oldest first. -/
def matchingLogs (chain : Chain) (topics : Option (List TopicFilter)) (m n : ℕ) :
    List MirrorNodeLog :=
  chain.logs.filter fun log =>
    (m ≤ log.blockNumber ∧ log.blockNumber ≤ n) ∧ matchesTopics topics log

/-- The addresses that the mirror node is asked for, where none stands for all logs. -/
def AddressFilter.queries : AddressFilter → List (Option String)
  | .none => [Option.none]
  | .one address => if address = "" then [Option.none] else (asked [address]).map some
  | .many addresses => (asked addresses).map some

/-- How many of the queries find the log. -/
def AddressFilter.times (address : AddressFilter) (log : MirrorNodeLog) : ℕ :=
  address.queries.countP fun query => query.all (emittedAt · log)

/-- The records are in the order of their times, and each matching log of the blocks is there as
often as it is found. -/
structure ListsLogs (chain : Chain) (address : AddressFilter) (topics : Option (List TopicFilter))
    (m n : ℕ) (records : List MirrorNodeLog) : Prop where
  ordered : records.Pairwise (·.timestamp ≤ ·.timestamp)
  members : ∀ log, log ∈ records ↔
    log ∈ matchingLogs chain topics m n ∧ address.matches log = true
  counts : ∀ log, records.count log =
    address.times log * (matchingLogs chain topics m n).count log

/-- The parameter names the block `n`. -/
def Names (chain : Chain) (param : Option BlockParam) (n : ℕ) : Prop :=
  ∃ b, blockOf chain param = some b ∧ b.number = n

/-- What one query finds. -/
def found (chain : Chain) (topics : Option (List TopicFilter)) (m n : ℕ) (query : Option String) :
    List MirrorNodeLog :=
  (matchingLogs chain topics m n).filter fun log => query.all (emittedAt · log)

/-- What all queries of a filter find. -/
def listed (chain : Chain) (address : AddressFilter) (topics : Option (List TopicFilter))
    (m n : ℕ) : List MirrorNodeLog :=
  sortByTime MirrorNodeLog.timestamp (address.queries.flatMap (found chain topics m n))

private theorem AddressFilter.times_pos_iff {address : AddressFilter} {log : MirrorNodeLog} :
    0 < address.times log ↔ address.matches log = true := by
  have hmany (addresses : List String) :
      0 < ((asked addresses).map some).countP (fun query => query.all (emittedAt · log)) ↔
        ∃ address ∈ addresses, address ≠ ZERO_ADDRESS_HEX ∧ emittedAt address log = true := by
    rw [List.countP_pos_iff]
    simp [asked, and_assoc]
  cases address with
  | none => simp [AddressFilter.times, AddressFilter.queries, AddressFilter.matches]
  | many addresses =>
    rw [AddressFilter.times, AddressFilter.queries, hmany]
    simp [AddressFilter.matches]
  | one address =>
    by_cases hempty : address = ""
    · simp [AddressFilter.times, AddressFilter.queries, AddressFilter.matches, hempty]
    · rw [AddressFilter.times, AddressFilter.queries, if_neg hempty, hmany]
      simp [AddressFilter.matches, hempty]

end Listings

section Records

variable {chain : Chain} {address : AddressFilter} {topics : Option (List TopicFilter)}
  {m k n : ℕ} {a b : MirrorNodeBlock}

private theorem mem_matchingLogs {log : MirrorNodeLog} : log ∈ matchingLogs chain topics m n ↔
    (log ∈ chain.logs ∧ m ≤ log.blockNumber ∧ log.blockNumber ≤ n) ∧
      matchesTopics topics log = true := by
  rw [matchingLogs, List.mem_filter, decide_eq_true_eq]
  tauto

private theorem mem_logsAt_blockNumber {log : MirrorNodeLog} (h : log ∈ chain.logs) :
    log ∈ chain.logsAt log.blockNumber := by
  obtain ⟨k, hk⟩ := Chain.mem_logs.mp h
  rwa [Chain.blockNumber_of_mem_logsAt hk]

private theorem logsBetween_blocks (ha : chain.block? m = some a) (hb : chain.block? n = some b) :
    chain.logsBetween a.timestampFrom b.timestampTo =
      chain.logs.filter fun log => m ≤ log.blockNumber ∧ log.blockNumber ≤ n := by
  apply List.filter_congr
  intro log hlog
  have hmem : log ∈ chain.logsBetween a.timestampFrom b.timestampTo ↔ LogBetween chain m n log :=
    Chain.mem_logsBetween_iff ha hb
  rw [Chain.logsBetween, List.mem_filter, and_iff_right hlog, decide_eq_true_eq] at hmem
  rw [decide_eq_decide, hmem]
  constructor
  · intro hbetween
    exact ⟨(LogBetween.blockNumber hbetween).1, (LogBetween.blockNumber hbetween).2.1⟩
  · intro hbetween
    exact ⟨_, hbetween.1, hbetween.2, mem_logsAt_blockNumber hlog⟩

private theorem queryChain_blocks (ha : chain.block? m = some a) (hb : chain.block? n = some b)
    {params : List (ℕ × List String)} (htopics : addTopicsToParams topics = .ok params)
    (query : Option String) :
    queryChain chain query ⟨a.timestampFrom, b.timestampTo, params⟩ =
      found chain topics m n query := by
  rw [queryChain, logsBetween_blocks ha hb, found, matchingLogs, List.filter_filter,
    List.filter_filter]
  apply List.filter_congr
  intro log _
  rw [selects_of_addTopicsToParams htopics]
  grind

private theorem pairwise_matchingLogs (ha : chain.block? m = some a)
    (hb : chain.block? n = some b) :
    (matchingLogs chain topics m n).Pairwise (·.timestamp ≤ ·.timestamp) := by
  have hfilter : matchingLogs chain topics m n =
      (chain.logsBetween a.timestampFrom b.timestampTo).filter (matchesTopics topics) := by
    rw [logsBetween_blocks ha hb, matchingLogs, List.filter_filter]
    apply List.filter_congr
    intro log _
    grind
  rw [hfilter]
  exact (chain.pairwise_logsBetween _ _).filter _

private theorem timestamp_lt {log log' : MirrorNodeLog} (hlog : log ∈ chain.logs)
    (hlog' : log' ∈ chain.logs) (h : log.blockNumber < log'.blockNumber) :
    log.timestamp < log'.timestamp := by
  by_contra hle
  have hnumber := Chain.number_le_of_timestamp_le (mem_logsAt_blockNumber hlog')
    (mem_logsAt_blockNumber hlog) (not_lt.mp hle)
  omega

private theorem matchingLogs_append (ha : chain.block? m = some a) (hb : chain.block? n = some b)
    (hmk : m ≤ k) (hkn : k < n) : matchingLogs chain topics m n =
      matchingLogs chain topics m k ++ matchingLogs chain topics (k + 1) n := by
  have hcut : ∀ log ∈ matchingLogs chain topics m n, ∀ log' ∈ matchingLogs chain topics m n,
      decide (log.blockNumber ≤ k) = true → decide (log'.blockNumber ≤ k) = false →
        log.timestamp < log'.timestamp := by
    intro log hlog log' hlog' hearly hlate
    have hearly := of_decide_eq_true hearly
    have hlate := of_decide_eq_false hlate
    exact timestamp_lt (mem_matchingLogs.mp hlog).1.1 (mem_matchingLogs.mp hlog').1.1 (by omega)
  rw [← filter_append_filter_not (pairwise_matchingLogs ha hb) hcut, matchingLogs, matchingLogs,
    matchingLogs, List.filter_filter, List.filter_filter]
  congr 1
  · apply List.filter_congr
    intro log _
    grind
  · apply List.filter_congr
    intro log _
    grind

private theorem found_append (ha : chain.block? m = some a) (hb : chain.block? n = some b)
    (hmk : m ≤ k) (hkn : k < n) (query : Option String) : found chain topics m n query =
      found chain topics m k query ++ found chain topics (k + 1) n query := by
  rw [found, matchingLogs_append ha hb hmk hkn, List.filter_append]
  rfl

private theorem listed_append (ha : chain.block? m = some a) (hb : chain.block? n = some b)
    (hmk : m ≤ k) (hkn : k < n) : listed chain address topics m n =
      listed chain address topics m k ++ listed chain address topics (k + 1) n := by
  have hmem {query : Option String} {log : MirrorNodeLog} {i j : ℕ}
      (h : log ∈ found chain topics i j query) :
      log ∈ chain.logs ∧ i ≤ log.blockNumber ∧ log.blockNumber ≤ j :=
    (mem_matchingLogs.mp (List.mem_of_mem_filter h)).1
  rw [listed, List.flatMap_congr fun query _ => found_append ha hb hmk hkn query]
  apply sortByTime_flatMap_append
  intro query _ query' _ log hlog log' hlog'
  have hearly := (hmem hlog).2
  have hlate := (hmem hlog').2
  exact timestamp_lt (hmem hlog).1 (hmem hlog').1 (by omega)

private theorem recordsOf_blocks (ha : chain.block? m = some a) (hb : chain.block? n = some b)
    {params : List (ℕ × List String)} (htopics : addTopicsToParams topics = .ok params) :
    recordsOf chain address ⟨a.timestampFrom, b.timestampTo, params⟩ =
      listed chain address topics m n := by
  have hall : queryChain chain none ⟨a.timestampFrom, b.timestampTo, params⟩ =
      sortByTime MirrorNodeLog.timestamp ([none].flatMap (found chain topics m n)) := by
    rw [queryChain_blocks ha hb htopics, List.flatMap_singleton]
    refine (List.mergeSort_of_pairwise ?_).symm
    exact ((pairwise_matchingLogs ha hb).filter _).imp decide_eq_true
  have hmany (addresses : List String) :
      recordsOf chain (.many addresses) ⟨a.timestampFrom, b.timestampTo, params⟩ =
        listed chain (.many addresses) topics m n := by
    rw [listed, AddressFilter.queries, List.flatMap_map, ← flatten_asked]
    simp only [recordsOf, queryChain_blocks ha hb htopics]
    rfl
  cases address with
  | none => exact hall
  | many addresses => exact hmany addresses
  | one address =>
    by_cases hempty : address = ""
    · simp only [recordsOf, listed, AddressFilter.queries, hempty, if_true]
      exact hall
    · have hone := hmany [address]
      simp only [recordsOf, listed, AddressFilter.queries, hempty, if_false] at hone ⊢
      exact hone

private theorem count_flatMap_found (queries : List (Option String)) (log : MirrorNodeLog) :
    (queries.flatMap (found chain topics m n)).count log =
      queries.countP (fun query => query.all (emittedAt · log)) *
        (matchingLogs chain topics m n).count log := by
  induction queries with
  | nil => simp
  | cons query queries ih =>
    rw [List.flatMap_cons, List.count_append, ih, List.countP_cons, Nat.add_mul, Nat.add_comm]
    congr 1
    by_cases hquery : query.all (emittedAt · log) = true
    · rw [if_pos hquery, Nat.one_mul, found, List.count_filter (by simpa using hquery)]
    · rw [if_neg hquery, Nat.zero_mul, found, List.count_eq_zero]
      intro hmem
      exact hquery (List.mem_filter.mp hmem).2

private theorem count_listed (chain : Chain) (address : AddressFilter)
    (topics : Option (List TopicFilter)) (m n : ℕ) (log : MirrorNodeLog) :
    (listed chain address topics m n).count log =
      address.times log * (matchingLogs chain topics m n).count log := by
  rw [listed, (sortByTime_perm _).count_eq, count_flatMap_found]
  rfl

private theorem listsLogs_listed (chain : Chain) (address : AddressFilter)
    (topics : Option (List TopicFilter)) (m n : ℕ) :
    ListsLogs chain address topics m n (listed chain address topics m n) where
  ordered := pairwise_sortByTime _
  members log := by
    have hpos {i j : ℕ} : 0 < i * j ↔ 0 < i ∧ 0 < j := by
      rw [Nat.pos_iff_ne_zero, Nat.mul_ne_zero_iff, Nat.pos_iff_ne_zero, Nat.pos_iff_ne_zero]
    rw [← List.count_pos_iff, count_listed, hpos, AddressFilter.times_pos_iff,
      List.count_pos_iff, and_comm]
  counts := count_listed chain address topics m n

end Records

section Ranges

variable {config : CommonConfig} {chain : Chain} {address : AddressFilter}
  {topics : Option (List TopicFilter)} {fromBlock toBlock : Option BlockParam} {m n : ℕ}
  {a b : MirrorNodeBlock}

private theorem block?_of_blockOf {param : Option BlockParam} (h : blockOf chain param = some b) :
    chain.block? b.number = some b := by
  have hnumber {i : ℕ} (hi : chain.block? i = some b) : chain.block? b.number = some b := by
    rwa [Chain.number_of_block? hi]
  have hlatest (hb : some chain.latest = some b) : chain.block? b.number = some b := by
    apply @hnumber chain.head
    rw [Chain.block?_head, hb]
  match param with
  | none => exact hlatest h
  | some .latest => exact hlatest h
  | some .pending => exact hlatest h
  | some .safe => exact hlatest h
  | some .finalized => exact hlatest h
  | some .earliest => exact hnumber h
  | some (.number i) => exact hnumber h
  | some (.hex text) =>
    rw [blockOf] at h
    split at h
    · cases h
    · exact hnumber h
  | some (.hash text) =>
    obtain ⟨c, hc, rfl⟩ := List.mem_map.mp (List.mem_of_find?_eq_some h)
    obtain ⟨i, hi⟩ := List.getElem?_of_mem hc
    apply @hnumber i
    rw [Chain.block?, hi]
    rfl

private theorem blockOf_latestIfTag (param : Option BlockParam) :
    blockOf chain (latestIfTag param) = blockOf chain param := by
  match param with
  | none => rfl
  | some .earliest => rfl
  | some .latest => rfl
  | some .pending => rfl
  | some .safe => rfl
  | some .finalized => rfl
  | some (.hex text) => rfl
  | some (.number i) => rfl
  | some (.hash text) => rfl

private theorem Names.blockOf_eq {param : Option BlockParam} (h : Names chain param n)
    (hb : chain.block? n = some b) : blockOf chain param = some b := by
  obtain ⟨c, hc, rfl⟩ := h
  rw [hc, ← block?_of_blockOf hc, hb]

private theorem Names.exists_block? {param : Option BlockParam} (h : Names chain param n) :
    ∃ b, chain.block? n = some b := by
  obtain ⟨c, hc, rfl⟩ := h
  exact ⟨c, block?_of_blockOf hc⟩

private theorem names_numberTo0x (hb : chain.block? n = some b) :
    Names chain (some (.hex (numberTo0x n))) n := by
  refine ⟨b, ?_, Chain.number_of_block? hb⟩
  have hempty : numberTo0x n ≠ EMPTY_HEX := by
    intro h
    have hlist := congrArg String.toList h
    rw [toList_numberTo0x] at hlist
    exact Nat.toDigits_ne_nil (List.cons.inj (List.cons.inj hlist).2).2
  rw [blockOf, if_neg hempty, bigIntOfHex_numberTo0x, hb]

private theorem rangeOf_of_names (hm : Names chain fromBlock m) (hn : Names chain toBlock n)
    (ha : chain.block? m = some a) (hb : chain.block? n = some b) :
    rangeOf config chain fromBlock toBlock address =
      if latestIfTag fromBlock = latestIfTag toBlock then
        .ok (some (a.timestampFrom, b.timestampTo))
      else (checkRange config address a b).map fun _ => some (a.timestampFrom, b.timestampTo) := by
  have hfirst : blockOf chain (latestIfTag fromBlock) = some a := by
    rw [blockOf_latestIfTag, hm.blockOf_eq ha]
  have hlast : blockOf chain (latestIfTag toBlock) = some b := by
    rw [blockOf_latestIfTag, hn.blockOf_eq hb]
  rw [rangeOf, hfirst]
  show rangeFrom config chain _ _ address a = _
  rw [rangeFrom, hlast]
  split
  · next hsame =>
    rw [hsame, hlast] at hfirst
    rw [Option.some.inj hfirst]
  · rfl

/-- A request that names its first block is not refused for want of it. -/
theorem queriedRange_of_bounded (hfrom : isMissing fromBlock = false) :
    queriedRange config chain address none fromBlock toBlock =
      rangeOf config chain fromBlock toBlock address := by
  rw [queriedRange, requireFromBlock_chain]
  simp only [hfrom, Bool.false_eq_true, and_false, if_false, ite_self]
  rfl

theorem LetThrough.part {first last first' last' : MirrorNodeBlock}
    (h : LetThrough config address first last) (hordered : first'.number ≤ last'.number)
    (hfirst : first.number ≤ first'.number) (hlast : last'.number ≤ last.number)
    (hfrom : first.timestampFrom ≤ first'.timestampFrom)
    (hto : last'.timestampTo ≤ last.timestampTo) : LetThrough config address first' last' := by
  refine ⟨⟨hordered, ?_⟩, fun hlong => h.time (hlong.mono hto hfrom)⟩
  cases h.blocks with
  | inl hblocks => exact .inl (by omega)
  | inr hsingle => exact .inr hsingle

/-- What an answered request has asked for. -/
theorem queriedRange_eq_ok (hm : Names chain fromBlock m) (hn : Names chain toBlock n)
    (ha : chain.block? m = some a) (hb : chain.block? n = some b)
    {range : Option (Timestamp × Timestamp)}
    (h : queriedRange config chain address none fromBlock toBlock = .ok range) :
    m ≤ n ∧ range = some (a.timestampFrom, b.timestampTo) ∧
      (m < n → LetThrough config address a b) := by
  obtain ⟨_, _, hrange⟩ := exists_of_bind_ok h
  rw [rangeOf_of_names hm hn ha hb] at hrange
  split at hrange
  · next hsame =>
    have hmn : m = n := by
      have hfirst := hm.blockOf_eq ha
      rw [← blockOf_latestIfTag, hsame, blockOf_latestIfTag, hn.blockOf_eq hb] at hfirst
      rw [← Chain.number_of_block? ha, ← Chain.number_of_block? hb, Option.some.inj hfirst]
    exact ⟨hmn.le, (Except.ok.inj hrange).symm, fun hlt => absurd hmn hlt.ne⟩
  · cases hcheck : checkRange config address a b with
    | error e => rw [hcheck] at hrange; cases hrange
    | ok _ =>
      rw [hcheck] at hrange
      have hthrough := checkRange_eq_ok_iff.mp hcheck
      have hordered := hthrough.ordered
      rw [Chain.number_of_block? ha, Chain.number_of_block? hb] at hordered
      exact ⟨hordered, (Except.ok.inj hrange).symm, fun _ => hthrough⟩

private theorem getLogs_eq_ok {blockHash : Option String} {logs : List Log}
    (h : getLogs config (chainClient chain) blockHash fromBlock toBlock address topics = .ok logs) :
    ∃ range, queriedRange config chain address blockHash fromBlock toBlock = .ok range ∧
      logsIn chain address topics range = .ok logs := by
  rw [getLogs_chain] at h
  cases hrange : queriedRange config chain address blockHash fromBlock toBlock with
  | error e => rw [hrange] at h; cases h
  | ok range =>
    rw [hrange] at h
    refine ⟨range, rfl, ?_⟩
    cases hlogs : logsIn chain address topics range with
    | error e =>
      rw [show (Except.ok range : Except RelayError _).bind (logsIn chain address topics) =
        .error e from hlogs] at h
      cases h
    | ok logs' =>
      rw [show (Except.ok range : Except RelayError _).bind (logsIn chain address topics) =
        .ok logs' from hlogs] at h
      exact h

private theorem getLogs_of_queriedRange {blockHash : Option String}
    {range : Option (Timestamp × Timestamp)}
    {logs : List Log} (hrange : queriedRange config chain address blockHash fromBlock toBlock =
      .ok range) (hlogs : logsIn chain address topics range = .ok logs) :
    getLogs config (chainClient chain) blockHash fromBlock toBlock address topics = .ok logs := by
  rw [getLogs_chain, hrange]
  show (logsIn chain address topics range).mapError unwrapError = _
  rw [hlogs]
  rfl

private theorem logsIn_blocks (ha : chain.block? m = some a) (hb : chain.block? n = some b)
    {params : List (ℕ × List String)} (htopics : addTopicsToParams topics = .ok params) :
    logsIn chain address topics (some (a.timestampFrom, b.timestampTo)) =
      .ok ((listed chain address topics m n).map Log.ofRecord) := by
  rw [logsIn, htopics]
  show Except.ok ((recordsOf chain address ⟨a.timestampFrom, b.timestampTo, params⟩).map
    Log.ofRecord) = _
  rw [recordsOf_blocks ha hb htopics]

private theorem getLogs_of_letThrough (hfrom : isMissing fromBlock = false)
    (hm : Names chain fromBlock m)
    (hn : Names chain toBlock n) (ha : chain.block? m = some a) (hb : chain.block? n = some b)
    (hthrough : LetThrough config address a b) {params : List (ℕ × List String)}
    (htopics : addTopicsToParams topics = .ok params) :
    getLogs config (chainClient chain) none fromBlock toBlock address topics =
      .ok ((listed chain address topics m n).map Log.ofRecord) := by
  refine getLogs_of_queriedRange ?_ (logsIn_blocks ha hb htopics)
  rw [queriedRange_of_bounded hfrom, rangeOf_of_names hm hn ha hb,
    checkRange_eq_ok_iff.mpr hthrough]
  exact ite_self _

end Ranges

section Answers

variable (config : CommonConfig) (chain : Chain) (address : AddressFilter)
  (topics : Option (List TopicFilter)) (fromBlock toBlock : Option BlockParam)

/-- The block in hexadecimal. -/
def blockNamed (n : ℕ) : Option BlockParam := some (.hex (numberTo0x n))

/-- The answer of a request for blocks. -/
def answerOf (fromBlock toBlock : Option BlockParam) : Except RelayError (List Log) :=
  getLogs config (chainClient chain) none fromBlock toBlock address topics

/-- The answer lists the logs of its blocks, two requests for the parts of the range have the same
answers together, and one block may as well be named by its hash. -/
structure AnswersExactly (m n : ℕ) (logs : List Log) : Prop where
  ordered : m ≤ n
  lists : ∃ records, ListsLogs chain address topics m n records ∧ logs = records.map Log.ofRecord
  parts : ∀ k, m ≤ k → k < n → ∃ earlier later,
    answerOf config chain address topics fromBlock (blockNamed k) = .ok earlier ∧
      answerOf config chain address topics (blockNamed (k + 1)) toBlock = .ok later ∧
      logs = earlier ++ later
  byHash : ∀ hash b, findBlock chain (.hash hash) = some b → b.number = m → m = n →
    getLogs config (chainClient chain) (some hash) none none address topics = .ok logs

variable {config chain address topics fromBlock toBlock}

private theorem isMissing_eq_false {m n : ℕ} (hnumber : fromBlock ≠ some (.number 0))
    (hm : Names chain fromBlock m) (hn : Names chain toBlock n) (hmn : m < n) :
    isMissing fromBlock = false := by
  match fromBlock with
  | none =>
    obtain ⟨_, hlatest, rfl⟩ := hm
    obtain ⟨b, hb⟩ := hn.exists_block?
    have hle := Chain.exists_block?_iff.mp ⟨b, hb⟩
    obtain rfl := Option.some.inj hlatest
    rw [Chain.number_latest] at hmn
    omega
  | some (.number 0) => exact absurd rfl hnumber
  | some (.number (_ + 1)) => rfl
  | some .earliest | some .latest | some .pending | some .safe | some .finalized
  | some (.hex _) | some (.hash _) => rfl

/-- An answered request lists exactly the logs of its blocks, in parts as at once. -/
theorem getLogs_exact {m n : ℕ} {logs : List Log} (hnumber : fromBlock ≠ some (.number 0))
    (hm : Names chain fromBlock m) (hn : Names chain toBlock n)
    (h : answerOf config chain address topics fromBlock toBlock = .ok logs) :
    AnswersExactly config chain address topics fromBlock toBlock m n logs := by
  obtain ⟨a, ha⟩ := hm.exists_block?
  obtain ⟨b, hb⟩ := hn.exists_block?
  obtain ⟨range, hrange, hlogs⟩ := getLogs_eq_ok h
  obtain ⟨hmn, rfl, hthrough⟩ := queriedRange_eq_ok hm hn ha hb hrange
  cases htopics : addTopicsToParams topics with
  | error e => rw [logsIn, htopics] at hlogs; cases hlogs
  | ok params =>
    rw [logsIn_blocks ha hb htopics] at hlogs
    obtain rfl := Except.ok.inj hlogs
    refine ⟨hmn, ⟨_, listsLogs_listed chain address topics m n, rfl⟩, ?_, ?_⟩
    · intro k hmk hkn
      obtain ⟨c, hc⟩ : ∃ c, chain.block? k = some c := Chain.exists_block?_iff.mpr
        (hkn.le.trans (Chain.exists_block?_iff.mp ⟨b, hb⟩))
      obtain ⟨d, hd⟩ : ∃ d, chain.block? (k + 1) = some d := Chain.exists_block?_iff.mpr
        (hkn.trans_le (Chain.exists_block?_iff.mp ⟨b, hb⟩))
      have hlt := hmk.trans_lt hkn
      have hna := Chain.number_of_block? ha
      have hnb := Chain.number_of_block? hb
      have hnc := Chain.number_of_block? hc
      have hnd := Chain.number_of_block? hd
      have hearlier : LetThrough config address a c := (hthrough hlt).part (by omega) le_rfl
        (by omega) le_rfl (Chain.timestampTo_mono hkn.le hc hb)
      have hlater : LetThrough config address d b := (hthrough hlt).part (by omega) (by omega)
        le_rfl (Chain.timestampFrom_mono (hmk.trans k.le_succ) ha hd) le_rfl
      refine ⟨_, _, getLogs_of_letThrough (isMissing_eq_false hnumber hm hn hlt) hm
        (names_numberTo0x hc) ha hc hearlier htopics, getLogs_of_letThrough rfl
        (names_numberTo0x hd) hn hd hb hlater htopics, ?_⟩
      rw [← List.map_append, listed_append ha hb hmk hkn]
    · rintro hash b' hfound rfl rfl
      have hnamed : blockOf chain (some (.hash hash)) = some b' := hfound
      have hb' := block?_of_blockOf hnamed
      refine getLogs_of_queriedRange ?_ (logsIn_blocks hb' hb' htopics)
      rw [queriedRange, hfound]
      rfl

end Answers

section Example

/-- The first block, and one with a log. -/
def logAfterGenesis : Chain :=
  (Chain.genesis.append (Chain.genesis.nextBlock "0x" 0 (some contractLog))).get (by decide)

theorem getLogs_exact_twoBlocks : AnswersExactly {} logAfterGenesis .none none (blockNamed 0)
    (some .latest) 0 1 [Log.ofRecord { contractLog with blockNumber := 1, timestamp := 1 }] :=
  getLogs_exact (by decide) ⟨_, rfl, rfl⟩ ⟨_, rfl, rfl⟩ rfl

end Example

end JsonRpcRelay.Common

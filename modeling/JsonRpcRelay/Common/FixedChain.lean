import JsonRpcRelay.Common.LogQueries

/-!
# Requests while the chain stands still

What the lookups and the log queries return if no block appears while they run.
-/

namespace JsonRpcRelay.Common

open constants Mirror Blocks Framework

/-- The mirror node of a chain. -/
def chainClient (chain : Chain) : MirrorNodeClient (Except RelayError) where
  getLatestBlock _ := .ok (some [chain.latest])
  getBlock _ id := .ok (findBlock chain id)
  getLogs address params := .ok (queryChain chain address params)

section Lookups

/-- The block that a parameter names. -/
def blockOf (chain : Chain) : Option BlockParam → Option MirrorNodeBlock
  | some .earliest => chain.block? 0
  | some (.hex text) => if text = EMPTY_HEX then none else chain.block? (bigIntOfHex text)
  | some (.hash text) => findBlock chain (.hash text)
  | some (.number n) => chain.block? n
  | _ => some chain.latest

variable (config : CommonConfig) (chain : Chain) (lookup : Lookup)

theorem getLatestBlockNumber_chain :
    getLatestBlockNumber (chainClient chain) lookup = .ok (numberTo0x chain.head) := by
  rw [← chain.number_latest]
  rfl

private theorem getBlockWithinRange_chain (n : ℕ) :
    getBlockWithinRange config (chainClient chain) lookup n = .ok (chain.block? n) := by
  show (if chain.latest.number + config.maxBlockRange < n then _ else _ : Except _ _) = _
  split
  · rename_i hlt
    rw [Chain.number_latest] at hlt
    rw [Chain.block?_eq_none_iff.mpr (by omega)]
    rfl
  · rfl

theorem getHistoricalBlockResponse_chain (param : Option BlockParam) :
    getHistoricalBlockResponse config (chainClient chain) lookup param =
      .ok (blockOf chain param) := by
  match param with
  | none => rfl
  | some .earliest => rfl
  | some .latest => rfl
  | some .pending => rfl
  | some .safe => rfl
  | some .finalized => rfl
  | some (.hash text) => rfl
  | some (.number n) => rfl
  | some (.hex text) =>
    show (if text = EMPTY_HEX then _ else _ : Except _ _) = .ok (if text = EMPTY_HEX then _ else _)
    split
    · rfl
    · exact getBlockWithinRange_chain config chain lookup _

end Lookups

section Records

/-- The records behind a log query. -/
def recordsOf (chain : Chain) (address : AddressFilter) (params : LogParams) :
    List MirrorNodeLog :=
  let recordsAt (addresses : List String) :=
    (addresses.map fun address => if address = ZERO_ADDRESS_HEX then []
      else queryChain chain (some address) params).flatten.mergeSort
        fun a b => a.timestamp ≤ b.timestamp
  match address with
  | .none => queryChain chain none params
  | .one address => if address = "" then queryChain chain none params else recordsAt [address]
  | .many addresses => recordsAt addresses

variable (chain : Chain) (address : AddressFilter) (params : LogParams)

private theorem getLogsByAddress_chain (addresses : List String) :
    getLogsByAddress (chainClient chain) addresses params =
      .ok (recordsOf chain (.many addresses) params) := by
  have hmap : addresses.mapM (getContractResultsLogsByAddress (chainClient chain) params) =
      .ok (addresses.map fun address => if address = ZERO_ADDRESS_HEX then []
        else queryChain chain (some address) params) := by
    apply mapM_ok
    intro address _
    unfold getContractResultsLogsByAddress
    split
    · rfl
    · rfl
  rw [getLogsByAddress, hmap]
  rfl

private theorem getLogRecords_chain : getLogRecords (chainClient chain) address params =
    .ok (recordsOf chain address params) := by
  cases address with
  | none => rfl
  | one address =>
    simp only [getLogRecords, recordsOf]
    split
    · rfl
    · exact getLogsByAddress_chain chain params [address]
  | many addresses => exact getLogsByAddress_chain chain params addresses

end Records

section Ranges

variable (config : CommonConfig) (chain : Chain)

theorem requireFromBlock_chain (fromBlock toBlock : Option BlockParam) :
    requireFromBlock (chainClient chain) fromBlock toBlock =
      if blockTagIsLatestOrPending toBlock then .ok ()
      else if toBlock.bind (·.toNumber) ≠ some chain.head ∧ isMissing fromBlock then
        .error (.jsonRpcError predefined.MISSING_FROM_BLOCK_PARAM)
      else .ok () := by
  unfold requireFromBlock
  rw [getLatestBlockNumber_chain]
  split
  · rfl
  · show (if _ then _ else _ : Except _ _) = _
    rw [bigIntOfHex_numberTo0x]
    rfl

/-- The range of a query behind its first block. -/
def rangeFrom (fromBlock toBlock : Option BlockParam) (address : AddressFilter)
    (first : MirrorNodeBlock) : Except RelayError (Option (Timestamp × Timestamp)) :=
  if fromBlock = toBlock then .ok (some (first.timestampFrom, first.timestampTo))
  else
    match blockOf chain toBlock with
    | none => .ok none
    | some last => (checkRange config address first last).map fun _ =>
        some (first.timestampFrom, last.timestampTo)

/-- The range of a query for the blocks between two parameters. -/
def rangeOf (fromBlock toBlock : Option BlockParam) (address : AddressFilter) :
    Except RelayError (Option (Timestamp × Timestamp)) :=
  match blockOf chain (latestIfTag fromBlock) with
  | none => .ok none
  | some first => rangeFrom config chain (latestIfTag fromBlock) (latestIfTag toBlock) address first

private theorem timestampRangeFrom_chain (fromBlock toBlock : Option BlockParam)
    (address : AddressFilter) (first : MirrorNodeBlock) :
    timestampRangeFrom config (chainClient chain) fromBlock toBlock address first =
      rangeFrom config chain fromBlock toBlock address first := by
  unfold timestampRangeFrom rangeFrom
  rw [getHistoricalBlockResponse_chain]
  split
  · rfl
  · cases blockOf chain toBlock with
    | none => rfl
    | some last =>
      simp only [bind, Except.bind]
      cases checkRange config address first last <;> rfl

private theorem validateBlockRange_chain (fromBlock toBlock : Option BlockParam)
    (address : AddressFilter) :
    validateBlockRangeAndAddTimestampToParams config (chainClient chain) fromBlock toBlock address =
      (requireFromBlock (chainClient chain) fromBlock toBlock).bind
        fun _ => rangeOf config chain fromBlock toBlock address := by
  unfold validateBlockRangeAndAddTimestampToParams rangeOf
  rw [getHistoricalBlockResponse_chain]
  cases requireFromBlock (chainClient chain) fromBlock toBlock with
  | error e => rfl
  | ok _ =>
    cases blockOf chain (latestIfTag fromBlock) with
    | none => rfl
    | some first => exact timestampRangeFrom_chain config chain _ _ address first

private theorem validateBlockHash_chain (blockHash : String) :
    validateBlockHashAndAddTimestampToParams (chainClient chain) blockHash =
      .ok ((findBlock chain (.hash blockHash)).map fun b => (b.timestampFrom, b.timestampTo)) := by
  unfold validateBlockHashAndAddTimestampToParams
  show (tryCatch (match findBlock chain (.hash blockHash) with
    | none => pure none
    | some block => pure (some (block.timestampFrom, block.timestampTo))) _ : Except _ _) = _
  cases findBlock chain (.hash blockHash) <;> rfl

end Ranges

section Logs

variable (config : CommonConfig) (chain : Chain) (address : AddressFilter)
  (topics : Option (List TopicFilter))

/-- The logs of a range. -/
def logsIn (range : Option (Timestamp × Timestamp)) : Except RelayError (List Log) :=
  match range with
  | none => .ok []
  | some range => (addTopicsToParams topics).map fun topics =>
      (recordsOf chain address ⟨range.1, range.2, topics⟩).map Log.ofRecord

private theorem queryLogs_chain (range : Timestamp × Timestamp) :
    queryLogs (chainClient chain) address topics range =
      logsIn chain address topics (some range) := by
  unfold queryLogs logsIn
  cases addTopicsToParams topics with
  | error e => rfl
  | ok topics =>
    show getLogsWithParams (chainClient chain) address _ = _
    rw [getLogsWithParams, getLogRecords_chain]
    rfl

/-- The range of a query, for one block or for the blocks between two parameters. -/
def queriedRange (blockHash : Option String) (fromBlock toBlock : Option BlockParam) :
    Except RelayError (Option (Timestamp × Timestamp)) :=
  match blockHash with
  | some blockHash =>
      .ok ((findBlock chain (.hash blockHash)).map fun b => (b.timestampFrom, b.timestampTo))
  | none => (requireFromBlock (chainClient chain) fromBlock toBlock).bind
      fun _ => rangeOf config chain fromBlock toBlock address

theorem getLogs_chain (blockHash : Option String) (fromBlock toBlock : Option BlockParam) :
    getLogs config (chainClient chain) blockHash fromBlock toBlock address topics =
      ((queriedRange config chain address blockHash fromBlock toBlock).bind
        (logsIn chain address topics)).mapError unwrapError := by
  have hworker : getLogsInWorker config (chainClient chain) blockHash fromBlock toBlock address
      topics = (queriedRange config chain address blockHash fromBlock toBlock).bind
        (logsIn chain address topics) := by
    unfold getLogsInWorker
    have hrange (x : Except RelayError (Option (Timestamp × Timestamp))) :
        (x >>= fun range => match range with
          | none => pure []
          | some range => queryLogs (chainClient chain) address topics range) =
          x.bind (logsIn chain address topics) := by
      cases x with
      | error e => rfl
      | ok range =>
        cases range with
        | none => rfl
        | some range => exact queryLogs_chain chain address topics range
    cases blockHash with
    | none =>
      rw [queriedRange, ← validateBlockRange_chain]
      exact hrange _
    | some blockHash =>
      rw [queriedRange, ← validateBlockHash_chain]
      exact hrange _
  rw [getLogs, hworker]
  cases (queriedRange config chain address blockHash fromBlock toBlock).bind
    (logsIn chain address topics) <;> rfl

end Logs

section Membership

variable {chain : Chain} {m n : ℕ} {a b : MirrorNodeBlock} {log : MirrorNodeLog}
  {address : AddressFilter}

theorem mem_recordsOf (ha : chain.block? m = some a) (hb : chain.block? n = some b)
    {topics : List (ℕ × List String)} :
    log ∈ recordsOf chain address ⟨a.timestampFrom, b.timestampTo, topics⟩ ↔
      LogBetween chain m n log ∧ address.matches log = true ∧
        LogParams.selects ⟨a.timestampFrom, b.timestampTo, topics⟩ log = true := by
  have hall : log ∈ queryChain chain none ⟨a.timestampFrom, b.timestampTo, topics⟩ ↔
      LogBetween chain m n log ∧
        LogParams.selects ⟨a.timestampFrom, b.timestampTo, topics⟩ log = true := by
    rw [mem_queryChain ha hb]
    simp
  have hmany (addresses : List String) :
      log ∈ recordsOf chain (.many addresses) ⟨a.timestampFrom, b.timestampTo, topics⟩ ↔
        LogBetween chain m n log ∧ (AddressFilter.many addresses).matches log = true ∧
          LogParams.selects ⟨a.timestampFrom, b.timestampTo, topics⟩ log = true := by
    simp only [recordsOf, List.mem_mergeSort, List.mem_flatten, List.mem_map,
      exists_exists_and_eq_and, AddressFilter.matches, List.any_eq_true, decide_eq_true_eq]
    constructor
    · rintro ⟨address, hmem, hlog⟩
      split at hlog
      · cases hlog
      · rename_i hzero
        obtain ⟨hbetween, hemitted, hselects⟩ := (mem_queryChain ha hb).mp hlog
        exact ⟨hbetween, ⟨address, hmem, hzero, by simpa using hemitted⟩, hselects⟩
    · rintro ⟨hbetween, ⟨address, hmem, hzero, hemitted⟩, hselects⟩
      refine ⟨address, hmem, ?_⟩
      rw [if_neg hzero]
      exact (mem_queryChain ha hb).mpr ⟨hbetween, by simpa using hemitted, hselects⟩
  cases address with
  | none =>
    simp only [recordsOf, AddressFilter.matches, true_and]
    exact hall
  | many addresses => exact hmany addresses
  | one address =>
    by_cases hempty : address = ""
    · simp only [recordsOf, hempty, if_true, AddressFilter.matches, true_or, decide_true, true_and]
      exact hall
    · have hone := hmany [address]
      simp only [recordsOf, hempty, if_false, AddressFilter.matches, List.any_cons, List.any_nil,
        Bool.or_false, false_or] at hone ⊢
      exact hone

/-- No log is at an address of the filter. -/
def AddressFilter.matchesNothing : AddressFilter → Bool
  | .none => false
  | .one address => address = ZERO_ADDRESS_HEX
  | .many addresses => addresses.all (· = ZERO_ADDRESS_HEX)

/-- A topic that the filter accepts. -/
def TopicFilter.example : TopicFilter → String
  | .null => ZERO_HEX
  | .one topic => topic
  | .oneOf topics => (topics.head?.bind id).getD ZERO_HEX

def AddressFilter.example : AddressFilter → String
  | .none => ZERO_ADDRESS_HEX
  | .one address => address
  | .many addresses => (addresses.find? (· ≠ ZERO_ADDRESS_HEX)).getD ZERO_ADDRESS_HEX

def exampleLog (address : AddressFilter) (topics : Option (List TopicFilter)) : MirrorNodeLog where
  address := address.example
  blockHash := EMPTY_HEX
  blockNumber := 0
  data := EMPTY_HEX
  index := 0
  timestamp := 0
  topics := (topics.getD []).map TopicFilter.example
  transactionHash := EMPTY_HEX
  transactionIndex := 0

theorem matches_example (h : address.matchesNothing = false)
    (haddress : log.address = address.example) : address.matches log = true := by
  cases address with
  | none => rfl
  | one address =>
    simp only [AddressFilter.matchesNothing, decide_eq_false_iff_not] at h
    simp [AddressFilter.matches, emittedAt, haddress, AddressFilter.example, h]
  | many addresses =>
    simp only [AddressFilter.matchesNothing, List.all_eq_false, decide_eq_true_eq] at h
    obtain ⟨address, hmem, hzero⟩ := h
    obtain ⟨found, hfound⟩ := Option.isSome_iff_exists.mp
      (List.find?_isSome.mpr ⟨address, hmem, decide_eq_true hzero⟩ :
        (addresses.find? (· ≠ ZERO_ADDRESS_HEX)).isSome = true)
    simp only [AddressFilter.matches, List.any_eq_true, decide_eq_true_eq]
    refine ⟨found, List.mem_of_find?_eq_some hfound, ?_, ?_⟩
    · have hzero' := List.find?_some hfound
      exact of_decide_eq_true hzero'
    · rw [emittedAt, haddress, AddressFilter.example, hfound]
      simp

private theorem hasTopic_self {i : ℕ} {topic : String} {trimmed : String}
    (htopic : log.topics[i]? = some topic) (htrimmed : trimPrecedingZeros topic = some trimmed) :
    hasTopicValue log i (some topic) = true := by
  simp [hasTopicValue, hasTopic, htopic, htrimmed]

private theorem matches_exampleTopic {i : ℕ} {topic : TopicFilter} {accepted : Option (List String)}
    (haccepted : topicParam i topic = .ok accepted)
    (htopic : log.topics[i]? = some topic.example) : topic.matches log i = true := by
  cases topic with
  | null => rfl
  | one topic =>
    simp only [topicParam] at haccepted
    cases htrim : trimTopic s!"Topic {i} is not a valid hex string" i (some topic) with
    | error e => rw [htrim] at haccepted; cases haccepted
    | ok trimmed =>
      have htrimmed := trimTopic_eq_ok htrim
      have hself : hasTopicValue log i (some topic) = true := hasTopic_self htopic htrimmed
      simp [TopicFilter.matches, hself]
  | oneOf topics =>
    cases topics with
    | nil => simp [TopicFilter.matches]
    | cons topic topics =>
      simp only [topicParam] at haccepted
      split at haccepted
      · cases haccepted
      · cases htrim : (topic :: topics).zipIdx.mapM fun t : Option String × ℕ =>
            trimTopic s!"Topic {i}[{t.2}] is not a valid hex string" i t.1 with
        | error e => rw [htrim] at haccepted; cases haccepted
        | ok trimmed =>
          have hmem : (topic, 0) ∈ (topic :: topics).zipIdx := by
            rw [List.zipIdx_cons]
            exact List.mem_cons_self
          obtain ⟨first, _, hfirst⟩ := exists_of_mapM_ok htrim hmem
          have htrimmed := trimTopic_eq_ok hfirst
          cases topic with
          | none => cases htrimmed
          | some topic =>
            have hself : hasTopicValue log i (some topic) = true := hasTopic_self htopic htrimmed
            simp [TopicFilter.matches, hself]

theorem matchesTopics_example {topics : Option (List TopicFilter)} {params : List (ℕ × List String)}
    (h : addTopicsToParams topics = .ok params)
    (hlog : log.topics = (topics.getD []).map TopicFilter.example) :
    matchesTopics topics log = true := by
  obtain ⟨accepted, hmap, _⟩ := exists_of_bind_ok h
  rw [matchesTopics, List.all_eq_true]
  rintro ⟨topic, i⟩ hmem
  obtain ⟨o, _, ho⟩ := exists_of_mapM_ok hmap hmem
  obtain ⟨ts, hts, _⟩ := exists_of_bind_ok ho
  apply matches_exampleTopic hts
  rw [hlog, List.getElem?_map, List.mk_mem_zipIdx_iff_getElem?.mp hmem]
  rfl

end Membership

section Growth

variable {chain chain' : Chain} {address : AddressFilter} {topics : Option (List TopicFilter)}

private theorem queryChain_of_extends (h : chain.Extends chain') {params : LogParams}
    (hstop : params.timestampTo ≤ chain.latest.timestampTo) (address : Option String) :
    queryChain chain' address params = queryChain chain address params := by
  rw [queryChain, queryChain, h.logsBetween_eq _ hstop]

private theorem recordsOf_of_extends (h : chain.Extends chain') {params : LogParams}
    (hstop : params.timestampTo ≤ chain.latest.timestampTo) (address : AddressFilter) :
    recordsOf chain' address params = recordsOf chain address params := by
  unfold recordsOf
  simp only [queryChain_of_extends h hstop]

theorem logsIn_of_extends (h : chain.Extends chain') {range : Option (Timestamp × Timestamp)}
    (hstop : ∀ r ∈ range, r.2 ≤ chain.latest.timestampTo) :
    logsIn chain' address topics range = logsIn chain address topics range := by
  cases range with
  | none => rfl
  | some range =>
    rw [logsIn, logsIn]
    congr 1
    funext params
    rw [recordsOf_of_extends h (hstop range rfl)]

theorem findBlock_of_extends (h : chain.Extends chain') {hash : String} {b : MirrorNodeBlock}
    (hfound : findBlock chain (.hash hash) = some b) : findBlock chain' (.hash hash) = some b := by
  obtain ⟨further, hfurther⟩ := h
  rw [findBlock, ← hfurther, List.map_append, List.find?_append]
  rw [findBlock] at hfound
  rw [hfound]
  rfl

private theorem recordsOf_of_matchesNothing (h : address.matchesNothing = true)
    (params : LogParams) :
    recordsOf chain address params = [] := by
  have hmany {addresses : List String} (hall : ∀ a ∈ addresses, a = ZERO_ADDRESS_HEX) :
      (addresses.map fun address => if address = ZERO_ADDRESS_HEX then []
        else queryChain chain (some address) params).flatten = [] := by
    rw [List.flatten_eq_nil_iff]
    intro records hmem
    obtain ⟨address, haddress, rfl⟩ := List.mem_map.mp hmem
    rw [if_pos (hall address haddress)]
  cases address with
  | none => cases h
  | one address =>
    obtain rfl := of_decide_eq_true h
    simp only [recordsOf]
    rw [if_neg (by decide), hmany (by simp), List.mergeSort_nil]
  | many addresses =>
    simp only [AddressFilter.matchesNothing, List.all_eq_true, decide_eq_true_eq] at h
    simp only [recordsOf]
    rw [hmany h, List.mergeSort_nil]

theorem logsIn_of_matchesNothing (h : address.matchesNothing = true)
    {params : List (ℕ × List String)} (htopics : addTopicsToParams topics = .ok params)
    (range : Option (Timestamp × Timestamp)) : logsIn chain address topics range = .ok [] := by
  cases range with
  | none => rfl
  | some range =>
    rw [logsIn, htopics]
    simp only [recordsOf_of_matchesNothing h]
    rfl

end Growth

end JsonRpcRelay.Common

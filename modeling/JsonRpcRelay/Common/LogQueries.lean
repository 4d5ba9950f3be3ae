import JsonRpcRelay.Common.CommonService
import JsonRpcRelay.Framework.Traversal
import JsonRpcRelay.Mirror.Chain

/-!
# Log queries

Which logs the mirror node lists for a query, and which logs match the address and topics of a
request.  Addresses and topics are hexadecimal, in any case of the letters.
-/

namespace JsonRpcRelay.Common

open constants Mirror Blocks Framework

section Matching

/-- The log is emitted at the address. -/
def emittedAt (address : String) (log : MirrorNodeLog) : Bool :=
  address.toLower = log.address.toLower

/-- The topic of the log at position `i` is the given one, up to leading zeros. -/
def hasTopic (log : MirrorNodeLog) (i : ℕ) (trimmed : String) : Bool :=
  (log.topics[i]?.bind trimPrecedingZeros).any fun topic => topic.toLower = trimmed.toLower

/-- A log has four topics at most: conditions on further positions are not passed on, and an
empty list of topics is no condition. -/
def acceptsTopics (log : MirrorNodeLog) (i : ℕ) (accepted : List String) : Bool :=
  4 ≤ i ∨ accepted = [] ∨ accepted.any (hasTopic log i)

def LogParams.selects (params : LogParams) (log : MirrorNodeLog) : Bool :=
  params.topics.all fun t => acceptsTopics log t.1 t.2

/-- The log is at an address of the filter. -/
def AddressFilter.matches : AddressFilter → MirrorNodeLog → Bool
  | .none, _ => true
  | .one address, log =>
      address = "" ∨ (address ≠ ZERO_ADDRESS_HEX ∧ emittedAt address log)
  | .many addresses, log =>
      addresses.any fun address => address ≠ ZERO_ADDRESS_HEX ∧ emittedAt address log

/-- The topic of the log at position `i` is the given one. -/
def hasTopicValue (log : MirrorNodeLog) (i : ℕ) (topic : Option String) : Bool :=
  (topic.bind trimPrecedingZeros).any (hasTopic log i)

def TopicFilter.matches (log : MirrorNodeLog) (i : ℕ) : TopicFilter → Bool
  | .null => true
  | .one topic => 4 ≤ i ∨ hasTopicValue log i (some topic)
  | .oneOf topics => 4 ≤ i ∨ topics = [] ∨ topics.any (hasTopicValue log i)

def matchesTopics (topics : Option (List TopicFilter)) (log : MirrorNodeLog) : Bool :=
  (topics.getD []).zipIdx.all fun t => t.1.matches log t.2

theorem trimTopic_eq_ok {message trimmed : String} {i : ℕ} {topic : Option String}
    (h : trimTopic message i topic = .ok trimmed) : topic.bind trimPrecedingZeros = some trimmed := by
  unfold trimTopic at h
  split at h
  · rename_i t ht
    cases h
    exact ht
  · cases h

private theorem topicParam_eq_ok {log : MirrorNodeLog} {i : ℕ} {topic : TopicFilter}
    {accepted : Option (List String)} (h : topicParam i topic = .ok accepted) :
    topic.matches log i = accepted.all fun ts => acceptsTopics log i ts := by
  cases topic with
  | null =>
    cases h
    rfl
  | one topic =>
    simp only [topicParam] at h
    cases ht : trimTopic s!"Topic {i} is not a valid hex string" i (some topic) with
    | error e => rw [ht] at h; cases h
    | ok trimmed =>
      rw [ht] at h
      cases h
      simp [acceptsTopics, TopicFilter.matches, hasTopicValue, trimTopic_eq_ok ht]
  | oneOf topics =>
    simp only [topicParam] at h
    split at h
    · cases h
    · cases hts : topics.zipIdx.mapM fun t : Option String × ℕ =>
          trimTopic s!"Topic {i}[{t.2}] is not a valid hex string" i t.1 with
      | error e => rw [hts] at h; cases h
      | ok trimmed =>
        rw [hts] at h
        cases h
        have hall := forall₂_of_mapM_ok (R := fun t s => hasTopicValue log i t.1 = hasTopic log i s)
          hts fun t s ht => by simp [hasTopicValue, trimTopic_eq_ok ht]
        have hany : topics.any (hasTopicValue log i) = trimmed.any (hasTopic log i) := by
          rw [← any_eq_of_forall₂ hall]
          nth_rewrite 1 [← List.zipIdx_map_fst 0 topics]
          exact List.any_map
        have hnil : topics = [] ↔ trimmed = [] := by
          rw [← List.length_eq_zero_iff, ← List.length_eq_zero_iff, ← hall.length_eq,
            List.length_zipIdx]
        simp [acceptsTopics, TopicFilter.matches, hany, hnil]

theorem selects_of_addTopicsToParams {topics : Option (List TopicFilter)}
    {params : List (ℕ × List String)} (h : addTopicsToParams topics = .ok params)
    (start stop : Timestamp) (log : MirrorNodeLog) :
    LogParams.selects ⟨start, stop, params⟩ log = matchesTopics topics log := by
  obtain ⟨accepted, hmap, hparams⟩ := exists_of_bind_ok h
  cases hparams
  have hall := forall₂_of_mapM_ok
    (R := fun t o => t.1.matches log t.2 = o.all fun ts => acceptsTopics log ts.1 ts.2) hmap ?_
  · rw [LogParams.selects, matchesTopics, all_eq_of_forall₂ hall, List.all_filterMap]
    congr 1
  · rintro ⟨topic, i⟩ o ho
    obtain ⟨ts, hts, ho⟩ := exists_of_bind_ok ho
    cases ho
    rw [topicParam_eq_ok hts, Option.all_map]

end Matching

section Chain

/-- The number of the block that a parameter names, unless it is a tag of the latest block. -/
def BlockParam.blockNumber : BlockParam → Option ℕ
  | .earliest => some 0
  | param => param.toNumber

/-- The parameter as the range checks write it. -/
def BlockParam.orLatest : BlockParam → BlockParam
  | .pending | .safe | .finalized => .latest
  | param => param

theorem latestIfTag_some (param : BlockParam) : latestIfTag (some param) = some param.orLatest := by
  cases param <;> rfl

@[simp] theorem blockNumber_orLatest (param : BlockParam) :
    param.orLatest.blockNumber = param.blockNumber := by
  cases param <;> rfl

@[simp] theorem blockTag_orLatest (param : BlockParam) :
    blockTagIsLatestOrPending (some param.orLatest) = blockTagIsLatestOrPending (some param) := by
  cases param <;> rfl

/-- A parameter that is no hash and no empty text. -/
def BlockParam.Named (param : BlockParam) : Prop :=
  (∀ text, param ≠ .hash text) ∧ param ≠ .hex EMPTY_HEX

theorem BlockParam.Named.orLatest {param : BlockParam} (h : param.Named) : param.orLatest.Named := by
  cases param with
  | pending | safe | finalized => exact ⟨fun _ => by simp [BlockParam.orLatest], by
      simp [BlockParam.orLatest]⟩
  | _ => exact h

/-- A hash may be given by a part of it that stands in front. -/
def findBlock (chain : Chain) : BlockId → Option MirrorNodeBlock
  | .number n => chain.block? n
  | .hash text => (chain.blocks.map (·.block)).find? fun block =>
      Js.startsWith block.hash.toLower text.toLower

/-- The logs that the mirror node lists, oldest first. -/
def queryChain (chain : Chain) (address : Option String) (params : LogParams) :
    List MirrorNodeLog :=
  (chain.logsBetween params.timestampFrom params.timestampTo).filter fun log =>
    address.all (emittedAt · log) && params.selects log

variable {chain chain' : Chain} {m n : ℕ} {a b : MirrorNodeBlock} {log : MirrorNodeLog}

/-- The log is in one of the blocks `m` to `n`. -/
def LogBetween (chain : Chain) (m n : ℕ) (log : MirrorNodeLog) : Prop :=
  ∃ k, m ≤ k ∧ k ≤ n ∧ log ∈ chain.logsAt k

theorem LogBetween.blockNumber (h : LogBetween chain m n log) :
    m ≤ log.blockNumber ∧ log.blockNumber ≤ n ∧ log ∈ chain.logsAt log.blockNumber := by
  obtain ⟨k, hm, hn, hlog⟩ := h
  rw [Chain.blockNumber_of_mem_logsAt hlog]
  exact ⟨hm, hn, hlog⟩

theorem logBetween_iff_of_extends (h : chain.Extends chain') (hn : n ≤ chain.head) :
    LogBetween chain' m n log ↔ LogBetween chain m n log := by
  apply exists_congr
  intro k
  apply and_congr_right
  intro _
  apply and_congr_right
  intro hk
  rw [h.logsAt_eq (by omega)]

/-- A query for a range from the start of one block to the end of another one. -/
theorem mem_queryChain (ha : chain.block? m = some a) (hb : chain.block? n = some b)
    {address : Option String} {topics : List (ℕ × List String)} :
    log ∈ queryChain chain address ⟨a.timestampFrom, b.timestampTo, topics⟩ ↔
      LogBetween chain m n log ∧ address.all (emittedAt · log) = true ∧
        LogParams.selects ⟨a.timestampFrom, b.timestampTo, topics⟩ log = true := by
  rw [queryChain, List.mem_filter, Chain.mem_logsBetween_iff ha hb, Bool.and_eq_true]
  rfl

theorem pairwise_queryChain (address : Option String) (params : LogParams) :
    (queryChain chain address params).Pairwise fun l l' => l.timestamp ≤ l'.timestamp :=
  (chain.pairwise_logsBetween _ _).filter _

end Chain

end JsonRpcRelay.Common

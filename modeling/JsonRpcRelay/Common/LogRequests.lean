import JsonRpcRelay.Common.FixedChain
import JsonRpcRelay.Framework.Decimal
import JsonRpcRelay.Framework.Entries
import JsonRpcRelay.Mirror.RequestUrls

/-!
# Log queries as URLs

The queries for logs are sent as URLs.  A mirror node that reads the URL lists the logs that the
query asks for, for every request that the relay accepts.
-/

namespace JsonRpcRelay.Common

open constants Js Mirror Blocks Framework

section Requests

/-- The parameters as they are set for a query.  One topic is written like a list with only this
topic. -/
def LogParams.toRequest (params : LogParams) : IContractLogsResultsParams where
  timestamp := some (.list ["gte:" ++ params.timestampFrom.text, "lte:" ++ params.timestampTo.text])
  topic0 := (params.topics.lookup 0).map .list
  topic1 := (params.topics.lookup 1).map .list
  topic2 := (params.topics.lookup 2).map .list
  topic3 := (params.topics.lookup 3).map .list

/-- The URL of a query, for the logs of an address or for all logs. -/
def logsUrl (config : RequestConfig) (address : Option String) (params : LogParams) : String :=
  match address with
  | none => contractResultsLogsUrl config (some params.toRequest) none
  | some address => contractResultsLogsByAddressUrl config (some params.toRequest) none address

end Requests

section Serving

/-- Seconds and nine digits behind the point. -/
def parseTimestamp (text : List Char) : Option Timestamp :=
  let parts := cut '.' text
  if parts.1 ≠ [] ∧ parts.1.all Char.isDigit ∧ parts.2.length = 9 ∧ parts.2.all Char.isDigit then
    some (Nat.ofDigitChars 10 parts.1 0 * 10 ^ 9 + Nat.ofDigitChars 10 parts.2 0)
  else none

/-- The log is on the right side of a bound. -/
def withinBound (log : MirrorNodeLog) (bound : String) : Bool :=
  let parts := cut ':' bound.toList
  match parseTimestamp parts.2 with
  | none => false
  | some t =>
      if parts.1 = "gte".toList then t ≤ log.timestamp
      else if parts.1 = "lte".toList then log.timestamp ≤ t
      else false

def valuesOf (key : String) (entries : List (String × String)) : List String :=
  entries.filterMap fun entry => if entry.1 = key then some entry.2 else none

/-- The topic of the log at a position is one of the values, if there are any. -/
def hasOneOf (log : MirrorNodeLog) (i : ℕ) (values : List String) : Bool :=
  values = [] ∨ values.any (hasTopic log i)

/-- All logs within the bounds, at the address if there is one, and with the topics.  The latest
come first unless it is asked otherwise. -/
def listLogs (chain : Chain) (address : Option String) (entries : List (String × String)) :
    List MirrorNodeLog :=
  let logs := chain.logs.filter fun log =>
    (valuesOf "timestamp" entries).all (withinBound log) &&
      (address.all (emittedAt · log) &&
        (hasOneOf log 0 (valuesOf "topic0" entries) &&
          hasOneOf log 1 (valuesOf "topic1" entries) &&
          hasOneOf log 2 (valuesOf "topic2" entries) &&
          hasOneOf log 3 (valuesOf "topic3" entries)))
  if valuesOf "order" entries = ["asc"] then logs else logs.reverse

/-- The logs that a mirror node lists for a URL, on all pages. -/
def serveLogs (chain : Chain) (url : String) : Option (List MirrorNodeLog) :=
  match readUrl url with
  | (["contracts", "results", "logs"], entries) => some (listLogs chain none entries)
  | (["contracts", address, "results", "logs"], entries) =>
      some (listLogs chain (some address) entries)
  | _ => none

/-- The mirror node of a chain, where the queries for logs are sent as URLs. -/
def wireClient (config : RequestConfig) (chain : Chain) : MirrorNodeClient (Except RelayError) :=
  { chainClient chain with
    getLogs := fun address params =>
      match serveLogs chain (logsUrl config address params) with
      | some logs => .ok logs
      | none => .error (.mirrorNodeClientError 404 "Not found") }

end Serving

section Texts

private theorem isPlain_of_isDigit {c : Char} (h : c.isDigit = true) : isPlain c = true :=
  isPlain_of (by decide) h

private theorem isPlain_of_isHexDigit {c : Char} (h : isHexDigit c = true) : isPlain c = true :=
  isPlain_of (by decide) h

private theorem plain_trimPrecedingZeros {input trimmed : String}
    (h : trimPrecedingZeros input = some trimmed) : Plain trimmed := by
  unfold trimPrecedingZeros at h
  generalize (if startsWith input EMPTY_HEX then substringFrom input 2 else input) = hex at h
  by_cases hinvalid : hex.toList = [] ∨ ¬hex.toList.all isHexDigit = true
  · rw [if_pos hinvalid] at h
    cases h
  · rw [if_neg hinvalid] at h
    rw [not_or, not_not] at hinvalid
    obtain rfl := Option.some.inj h
    intro c hc
    split at hc
    · obtain rfl := List.mem_singleton.mp hc
      decide
    · rw [String.toList_ofList] at hc
      have hmem := (List.dropWhile_sublist _).subset hc
      exact isPlain_of_isHexDigit (List.all_eq_true.mp hinvalid.2 c hmem)

private theorem plain_of_isValidEthereumAddress {address : String}
    (h : isValidEthereumAddress address = true) : Plain address := by
  unfold isValidEthereumAddress isBaseHex at h
  intro c hc
  split at h
  · rename_i x digits hlist
    obtain ⟨hx, hdigits, _⟩ := of_decide_eq_true h
    rw [hlist, List.mem_cons, List.mem_cons] at hc
    obtain rfl | rfl | hc := hc
    · decide
    · obtain rfl | rfl := hx
      · decide
      · decide
    · exact isPlain_of_isHexDigit (List.all_eq_true.mp hdigits c hc)
  · cases h

private theorem toList_toString (n : ℕ) : (toString n).toList = Nat.toDigits 10 n := by
  simp

/-- The digits of a number below a second, with zeros in front. -/
def nineDigits (n : ℕ) : List Char :=
  List.replicate (9 - (Nat.toDigits 10 n).length) '0' ++ Nat.toDigits 10 n

private theorem toList_text (t : Timestamp) :
    t.text.toList = Nat.toDigits 10 t.seconds ++ '.' :: nineDigits (t % 10 ^ 9) := by
  have hlength : (toString (t % 10 ^ 9)).length = (Nat.toDigits 10 (t % 10 ^ 9)).length := by
    rw [← String.length_toList, toList_toString]
  simp only [Timestamp.text, hlength, String.toList_append, toList_toString, String.toList_ofList,
    nineDigits, List.append_assoc]
  rfl

private theorem length_nineDigits {n : ℕ} (h : n < 10 ^ 9) : (nineDigits n).length = 9 := by
  have hlength : (Nat.toDigits 10 n).length ≤ 9 :=
    (Nat.length_toDigits_le_iff (by decide) (by decide)).mpr h
  rw [nineDigits, List.length_append, List.length_replicate]
  omega

private theorem isDigit_nineDigits (n : ℕ) : ∀ c ∈ nineDigits n, c.isDigit = true := by
  intro c hc
  cases List.mem_append.mp hc with
  | inl hc =>
    rw [List.eq_of_mem_replicate hc]
    decide
  | inr hc => exact isDigit_toDigits c hc

private theorem parseTimestamp_text (t : Timestamp) : parseTimestamp t.text.toList = some t := by
  have hpoint : '.' ∉ Nat.toDigits 10 t.seconds := by
    intro hmem
    have hdigit := isDigit_toDigits _ hmem
    revert hdigit
    decide
  have hnanos : t % 10 ^ 9 < 10 ^ 9 := Nat.mod_lt _ (by decide)
  have hwhole : t.seconds * 10 ^ 9 + t % 10 ^ 9 = t := by
    rw [Timestamp.seconds, Nat.mul_comm]
    exact Nat.div_add_mod t (10 ^ 9)
  have hvalue : Nat.ofDigitChars 10 (nineDigits (t % 10 ^ 9)) 0 = t % 10 ^ 9 := by
    rw [nineDigits, Nat.ofDigitChars_append, Nat.ofDigitChars_replicate_zero, Nat.mul_zero,
      Nat.ofDigitChars_ten_toDigits]
  have hvalid : Nat.toDigits 10 t.seconds ≠ [] ∧
      (Nat.toDigits 10 t.seconds).all Char.isDigit = true ∧
      (nineDigits (t % 10 ^ 9)).length = 9 ∧
      (nineDigits (t % 10 ^ 9)).all Char.isDigit = true :=
    ⟨Nat.toDigits_ne_nil, List.all_eq_true.mpr fun c hc => isDigit_toDigits c hc,
      length_nineDigits hnanos, List.all_eq_true.mpr (isDigit_nineDigits _)⟩
  rw [parseTimestamp, toList_text, cut_append hpoint]
  rw [if_pos hvalid, hvalue, Nat.ofDigitChars_ten_toDigits, hwhole]

private theorem plain_text (t : Timestamp) : Plain t.text := by
  intro c hc
  rw [toList_text, List.mem_append, List.mem_cons] at hc
  obtain hc | rfl | hc := hc
  · exact isPlain_of_isDigit (isDigit_toDigits c hc)
  · decide
  · exact isPlain_of_isDigit (isDigit_nineDigits _ c hc)

theorem Plain.append {s t : String} (hs : Plain s) (ht : Plain t) : Plain (s ++ t) := by
  intro c hc
  rw [String.toList_append] at hc
  exact (List.mem_append.mp hc).elim (hs c) (ht c)

private theorem withinBound_gte (log : MirrorNodeLog) (t : Timestamp) :
    withinBound log ("gte:" ++ t.text) = decide (t ≤ log.timestamp) := by
  have hcut : cut ':' ("gte:" ++ t.text).toList = ("gte".toList, t.text.toList) := by
    rw [String.toList_append]
    show cut ':' ("gte".toList ++ ':' :: t.text.toList) = _
    exact cut_append (by decide)
  rw [withinBound, hcut]
  simp only [parseTimestamp_text, if_true]

private theorem withinBound_lte (log : MirrorNodeLog) (t : Timestamp) :
    withinBound log ("lte:" ++ t.text) = decide (log.timestamp ≤ t) := by
  have hcut : cut ':' ("lte:" ++ t.text).toList = ("lte".toList, t.text.toList) := by
    rw [String.toList_append]
    show cut ':' ("lte".toList ++ ':' :: t.text.toList) = _
    exact cut_append (by decide)
  have hother : "lte".toList ≠ "gte".toList := by decide
  rw [withinBound, hcut]
  simp only [parseTimestamp_text, if_true, if_neg hother]

end Texts

section Values

variable {key : String} {config : RequestConfig} {params : LogParams}

/-- The texts of a value that is set. -/
def textsOf (value : Option QueryValue) : List String :=
  match value.filter (· ≠ .text "") with
  | none => []
  | some (.text value) => [value]
  | some (.list values) => values

@[simp] theorem textsOf_none : textsOf none = [] := rfl

@[simp] theorem textsOf_list (values : List String) : textsOf (some (.list values)) = values := rfl

@[simp] theorem textsOf_map_list (values : Option (List String)) :
    textsOf (values.map .list) = values.getD [] := by
  cases values <;> rfl

private theorem valuesOf_param (key' : String) (value : Option QueryValue) :
    valuesOf key (entries (param key' value)) = if key' = key then textsOf value else [] := by
  rw [param, textsOf]
  cases value.filter (· ≠ .text "") with
  | none => simp [entries, valuesOf]
  | some value =>
    cases value with
    | text value =>
      by_cases hkey : key' = key
      · simp [entries, entriesOf, valuesOf, hkey]
      · simp [entries, entriesOf, valuesOf, hkey]
    | list values =>
      by_cases hkey : key' = key
      · simp [entries, entriesOf, valuesOf, hkey, List.filterMap_map]
      · simp [entries, entriesOf, valuesOf, hkey]

private theorem valuesOf_params (values : List (String × Option QueryValue)) :
    valuesOf key (entries (values.flatMap fun v => param v.1 v.2)) =
      values.flatMap fun v => if v.1 = key then textsOf v.2 else [] := by
  rw [entries, List.flatMap_assoc, valuesOf, List.filterMap_flatMap]
  apply List.flatMap_congr
  intro v _
  exact valuesOf_param v.1 v.2

/-- The values of a query in their order. -/
def requestValues (config : RequestConfig) (params : LogParams) :
    List (String × Option QueryValue) :=
  [("transaction.hash", none), ("index", none), ("timestamp", params.toRequest.timestamp),
    ("topic0", params.toRequest.topic0), ("topic1", params.toRequest.topic1),
    ("topic2", params.toRequest.topic2), ("topic3", params.toRequest.topic3),
    ("limit", some (.text (toString config.limitParam))), ("order", some (.text "asc"))]

def requestEntries (config : RequestConfig) (params : LogParams) : List (String × String) :=
  entries ((requestValues config params).flatMap fun v => param v.1 v.2)

private theorem prepareLogsParams_toRequest :
    prepareLogsParams config (some params.toRequest) none =
      getQueryParams ((requestValues config params).flatMap fun v => param v.1 v.2) := by
  have hset := @setQueryParams_of_fresh [] (requestValues config params) (by
    show (["transaction.hash", "index", "timestamp", "topic0", "topic1", "topic2", "topic3",
      "limit", "order"] : List String).Nodup
    decide) (by simp)
  rw [List.nil_append] at hset
  rw [← hset]
  rfl

private theorem valuesOf_timestamp : valuesOf "timestamp" (requestEntries config params) =
    ["gte:" ++ params.timestampFrom.text, "lte:" ++ params.timestampTo.text] := by
  rw [requestEntries, valuesOf_params]
  simp [requestValues, LogParams.toRequest]

private theorem valuesOf_order : valuesOf "order" (requestEntries config params) = ["asc"] := by
  have hasc : textsOf (some (.text "asc")) = ["asc"] := rfl
  rw [requestEntries, valuesOf_params]
  simp [requestValues, hasc]

private theorem valuesOf_topics :
    valuesOf "topic0" (requestEntries config params) = (params.topics.lookup 0).getD [] ∧
    valuesOf "topic1" (requestEntries config params) = (params.topics.lookup 1).getD [] ∧
    valuesOf "topic2" (requestEntries config params) = (params.topics.lookup 2).getD [] ∧
    valuesOf "topic3" (requestEntries config params) = (params.topics.lookup 3).getD [] := by
  simp only [requestEntries, valuesOf_params]
  simp [requestValues, LogParams.toRequest]

end Values

section Topics

variable {topics : Option (List TopicFilter)} {params : List (ℕ × List String)}

private theorem plain_trimTopic {message trimmed : String} {i : ℕ} {topic : Option String}
    (h : trimTopic message i topic = .ok trimmed) : Plain trimmed := by
  obtain ⟨t, _, htrim⟩ := Option.bind_eq_some_iff.mp (trimTopic_eq_ok h)
  exact plain_trimPrecedingZeros htrim

private theorem plain_topicParam {i : ℕ} {topic : TopicFilter} {accepted : List String}
    (h : topicParam i topic = .ok (some accepted)) : ∀ t ∈ accepted, Plain t := by
  cases topic with
  | null => cases h
  | one topic =>
    simp only [topicParam] at h
    cases ht : trimTopic s!"Topic {i} is not a valid hex string" i (some topic) with
    | error e => rw [ht] at h; cases h
    | ok trimmed =>
      rw [ht] at h
      cases h
      intro t hmem
      obtain rfl := List.mem_singleton.mp hmem
      exact plain_trimTopic ht
  | oneOf topics =>
    simp only [topicParam] at h
    split at h
    · cases h
    · cases hts : topics.zipIdx.mapM fun t : Option String × ℕ =>
          trimTopic s!"Topic {i}[{t.2}] is not a valid hex string" i t.1 with
      | error e => rw [hts] at h; cases h
      | ok trimmed =>
        rw [hts] at h
        cases h
        exact forall_of_mapM_ok hts fun t s hs => plain_trimTopic hs

private theorem of_addTopicsToParams (h : addTopicsToParams topics = .ok params) :
    (params.map Prod.fst).Nodup ∧ ∀ e ∈ params, ∀ t ∈ e.2, Plain t := by
  obtain ⟨accepted, hmap, hparams⟩ := exists_of_bind_ok h
  cases hparams
  constructor
  · have hsublist := sublist_of_forall₂ Prod.snd Prod.fst (forall₂_of_mapM_ok hmap ?_)
    · exact hsublist.nodup (by rw [List.zipIdx_map_snd]; exact List.nodup_range')
    · rintro ⟨topic, i⟩ o ho e he
      obtain ⟨ts, _, ho⟩ := exists_of_bind_ok ho
      cases ho
      obtain ⟨values, _, rfl⟩ := Option.map_eq_some_iff.mp he
      rfl
  · intro e he
    obtain ⟨o, ho, rfl⟩ := List.mem_filterMap.mp he
    have hplain := forall_of_mapM_ok (P := fun o : Option (ℕ × List String) =>
      ∀ e ∈ o, ∀ text ∈ e.2, Plain text) hmap ?_
    · exact hplain _ ho e rfl
    · rintro ⟨topic, i⟩ o ho e he
      obtain ⟨ts, hts, ho⟩ := exists_of_bind_ok ho
      cases ho
      obtain ⟨values, rfl, rfl⟩ := Option.map_eq_some_iff.mp he
      exact plain_topicParam hts

end Topics

section Answers

variable {config : RequestConfig} {chain : Chain} {params : LogParams}

private theorem plain_requestValues (htopics : ∀ e ∈ params.topics, ∀ t ∈ e.2, Plain t) :
    ∀ p ∈ (requestValues config params).flatMap fun v => param v.1 v.2,
      Plain p.1 ∧ p.2.Plain := by
  have hlookup (i : ℕ) : ∀ v ∈ (params.topics.lookup i).map QueryValue.list, v.Plain := by
    intro v hv
    obtain ⟨values, hvalues, rfl⟩ := Option.map_eq_some_iff.mp hv
    exact htopics _ (mem_of_lookup_eq_some hvalues)
  have hbounds : ∀ v ∈ params.toRequest.timestamp, v.Plain := by
    intro v hv
    obtain rfl := Option.some.inj hv
    intro bound hbound
    rw [List.mem_cons, List.mem_singleton] at hbound
    obtain rfl | rfl := hbound
    · exact Plain.append (by decide) (plain_text _)
    · exact Plain.append (by decide) (plain_text _)
  have hlimit : Plain (toString config.limitParam) := by
    intro c hc
    rw [toList_toString] at hc
    exact isPlain_of_isDigit (isDigit_toDigits c hc)
  have hvalues : ∀ v ∈ requestValues config params, Plain v.1 ∧ ∀ x ∈ v.2, x.Plain := by
    simp only [requestValues, List.forall_mem_cons]
    refine ⟨⟨by decide, nofun⟩, ⟨by decide, nofun⟩, ⟨by decide, hbounds⟩, ⟨by decide, hlookup 0⟩,
      ⟨by decide, hlookup 1⟩, ⟨by decide, hlookup 2⟩, ⟨by decide, hlookup 3⟩,
      ⟨by decide, ?_⟩, ⟨by decide, ?_⟩, nofun⟩
    · rintro x ⟨⟩
      exact hlimit
    · rintro x ⟨⟩
      show Plain "asc"
      decide
  intro p hp
  obtain ⟨v, hv, hp⟩ := List.mem_flatMap.mp hp
  obtain ⟨x, hx, rfl⟩ := List.mem_map.mp hp
  have hset := (Option.filter_eq_some_iff.mp (Option.mem_toList.mp hx)).1
  exact ⟨(hvalues v hv).1, (hvalues v hv).2 x hset⟩

private theorem readUrl_contractResultsLogsUrl (htopics : ∀ e ∈ params.topics, ∀ t ∈ e.2, Plain t) :
    readUrl (logsUrl config none params) =
      (["contracts", "results", "logs"], requestEntries config params) := by
  rw [logsUrl, contractResultsLogsUrl, prepareLogsParams_toRequest,
    readUrl_getQueryParams (by decide) (plain_requestValues htopics)]
  rfl

private theorem readUrl_contractResultsLogsByAddressUrl {address : String}
    (haddress : Plain address) (htopics : ∀ e ∈ params.topics, ∀ t ∈ e.2, Plain t) :
    readUrl (logsUrl config (some address) params) =
      (["contracts", address, "results", "logs"], requestEntries config params) := by
  have hpath : (replacePlaceholder GET_CONTRACT_RESULT_LOGS_BY_ADDRESS_ENDPOINT
      ADDRESS_PLACEHOLDER address).toList =
      "contracts".toList ++ '/' :: (address.toList ++ '/' :: "results/logs".toList) := by
    rw [replacePlaceholder, String.toList_ofList]
    rfl
  have hquestion : '?' ∉ (replacePlaceholder GET_CONTRACT_RESULT_LOGS_BY_ADDRESS_ENDPOINT
      ADDRESS_PLACEHOLDER address).toList := by
    rw [hpath]
    simp only [List.mem_append, List.mem_cons, not_or]
    exact ⟨by decide, by decide, haddress.notMem (by decide), by decide, by decide⟩
  rw [logsUrl, contractResultsLogsByAddressUrl, prepareLogsParams_toRequest,
    readUrl_getQueryParams hquestion (plain_requestValues htopics), segments, hpath,
    List.splitOn_append_cons_self, List.splitOn_append_cons_self,
    List.splitOn_eq_singleton (haddress.notMem (by decide)), List.map_append, List.map_append,
    List.map_singleton, String.ofList_toList]
  rfl

private theorem selects_eq_hasOneOf (hnodup : (params.topics.map Prod.fst).Nodup)
    (log : MirrorNodeLog) :
    (hasOneOf log 0 (valuesOf "topic0" (requestEntries config params)) &&
      hasOneOf log 1 (valuesOf "topic1" (requestEntries config params)) &&
      hasOneOf log 2 (valuesOf "topic2" (requestEntries config params)) &&
      hasOneOf log 3 (valuesOf "topic3" (requestEntries config params))) =
      params.selects log := by
  obtain ⟨h0, h1, h2, h3⟩ := @valuesOf_topics config params
  have haccepts {i : ℕ} (hi : i < 4) : hasOneOf log i ((params.topics.lookup i).getD []) = true ↔
      ∀ e ∈ params.topics, e.1 = i → acceptsTopics log e.1 e.2 = true := by
    have hsmall : ¬4 ≤ i := Nat.not_le.mpr hi
    cases hlookup : params.topics.lookup i with
    | none =>
      apply iff_of_true rfl
      rintro ⟨j, values⟩ he rfl
      rw [(lookup_eq_some_iff_mem hnodup).mpr he] at hlookup
      cases hlookup
    | some values =>
      have hmem := (lookup_eq_some_iff_mem hnodup).mp hlookup
      constructor
      · rintro hone ⟨j, accepted⟩ he rfl
        obtain rfl := Option.some.inj
          (((lookup_eq_some_iff_mem hnodup).mpr he).symm.trans hlookup)
        simpa [acceptsTopics, hasOneOf, hsmall] using hone
      · intro hall
        simpa [acceptsTopics, hasOneOf, hsmall] using hall _ hmem rfl
  rw [h0, h1, h2, h3, Bool.eq_iff_iff, LogParams.selects, List.all_eq_true]
  simp only [Bool.and_eq_true, haccepts (by decide : 0 < 4), haccepts (by decide : 1 < 4),
    haccepts (by decide : 2 < 4), haccepts (by decide : 3 < 4)]
  constructor
  · rintro ⟨⟨⟨ht0, ht1⟩, ht2⟩, ht3⟩ e he
    by_cases hlarge : 4 ≤ e.1
    · simp [acceptsTopics, hlarge]
    · have hcases : e.1 = 0 ∨ e.1 = 1 ∨ e.1 = 2 ∨ e.1 = 3 := by omega
      obtain h | h | h | h := hcases
      · exact ht0 e he h
      · exact ht1 e he h
      · exact ht2 e he h
      · exact ht3 e he h
  · intro hall
    exact ⟨⟨⟨fun e he _ => hall e he, fun e he _ => hall e he⟩, fun e he _ => hall e he⟩,
      fun e he _ => hall e he⟩

private theorem listLogs_requestEntries (hnodup : (params.topics.map Prod.fst).Nodup)
    (address : Option String) :
    listLogs chain address (requestEntries config params) = queryChain chain address params := by
  rw [listLogs, if_pos valuesOf_order, queryChain, Chain.logsBetween, List.filter_filter]
  apply List.filter_congr
  intro log _
  rw [selects_eq_hasOneOf hnodup, valuesOf_timestamp]
  simp only [List.all_cons, List.all_nil, Bool.and_true, withinBound_gte, withinBound_lte,
    Bool.decide_and]
  rw [Bool.and_comm]

private theorem serveLogs_logsUrl {address : Option String} (haddress : ∀ a ∈ address, Plain a)
    (hnodup : (params.topics.map Prod.fst).Nodup)
    (htopics : ∀ e ∈ params.topics, ∀ t ∈ e.2, Plain t) :
    serveLogs chain (logsUrl config address params) = some (queryChain chain address params) := by
  cases address with
  | none =>
    rw [serveLogs, readUrl_contractResultsLogsUrl htopics]
    simp only [listLogs_requestEntries hnodup]
  | some address =>
    rw [serveLogs, readUrl_contractResultsLogsByAddressUrl (haddress address rfl) htopics]
    simp only [listLogs_requestEntries hnodup]

end Answers

section Refinement

/-- The addresses are ones that the validation accepts. -/
def AddressFilter.Valid : AddressFilter → Prop
  | .none => True
  | .one address => address = "" ∨ isValidEthereumAddress address = true
  | .many addresses => ∀ address ∈ addresses, isValidEthereumAddress address = true

variable {config : CommonConfig} {requests : RequestConfig} {chain : Chain}
  {address : AddressFilter} {topics : Option (List TopicFilter)}

private theorem wireClient_getLogs {address : Option String} {params : LogParams}
    (haddress : ∀ a ∈ address, Plain a) (hnodup : (params.topics.map Prod.fst).Nodup)
    (htopics : ∀ e ∈ params.topics, ∀ t ∈ e.2, Plain t) :
    (wireClient requests chain).getLogs address params =
      (chainClient chain).getLogs address params := by
  show (match serveLogs chain (logsUrl requests address params) with
    | some logs => .ok logs
    | none => .error (.mirrorNodeClientError 404 "Not found") : Except RelayError _) = _
  rw [serveLogs_logsUrl haddress hnodup htopics]
  rfl

private theorem getLogsByAddress_wire {addresses : List String} {params : LogParams}
    (haddresses : ∀ a ∈ addresses, isValidEthereumAddress a = true)
    (hnodup : (params.topics.map Prod.fst).Nodup)
    (htopics : ∀ e ∈ params.topics, ∀ t ∈ e.2, Plain t) :
    getLogsByAddress (wireClient requests chain) addresses params =
      getLogsByAddress (chainClient chain) addresses params := by
  have hmap : addresses.mapM (getContractResultsLogsByAddress (wireClient requests chain) params) =
      addresses.mapM (getContractResultsLogsByAddress (chainClient chain) params) := by
    apply mapM_congr
    intro a ha
    unfold getContractResultsLogsByAddress
    rw [wireClient_getLogs (by
      rintro _ ⟨⟩
      exact plain_of_isValidEthereumAddress (haddresses a ha)) hnodup htopics]
  rw [getLogsByAddress, getLogsByAddress, hmap]

private theorem getLogRecords_wire (haddress : address.Valid) {params : LogParams}
    (hnodup : (params.topics.map Prod.fst).Nodup)
    (htopics : ∀ e ∈ params.topics, ∀ t ∈ e.2, Plain t) :
    getLogRecords (wireClient requests chain) address params =
      getLogRecords (chainClient chain) address params := by
  have hall := @wireClient_getLogs requests chain none params nofun hnodup htopics
  cases address with
  | none => exact hall
  | many addresses => exact getLogsByAddress_wire haddress hnodup htopics
  | one address =>
    simp only [getLogRecords]
    split
    · exact hall
    · next hempty =>
      have hvalid := haddress.resolve_left hempty
      exact getLogsByAddress_wire (by simpa using hvalid) hnodup htopics

private theorem queryLogs_wire (haddress : address.Valid) (range : Timestamp × Timestamp) :
    queryLogs (wireClient requests chain) address topics range =
      queryLogs (chainClient chain) address topics range := by
  unfold queryLogs
  cases hparams : addTopicsToParams topics with
  | error e => rfl
  | ok params =>
    obtain ⟨hnodup, htopics⟩ := of_addTopicsToParams hparams
    simp only [getLogsWithParams]
    rw [getLogRecords_wire haddress hnodup htopics]

/-- The range of a query does not depend on how the logs are asked for. -/
theorem validateBlockRange_wire (fromBlock toBlock : Option BlockParam) :
    validateBlockRangeAndAddTimestampToParams config (wireClient requests chain) fromBlock toBlock
      address =
    validateBlockRangeAndAddTimestampToParams config (chainClient chain) fromBlock toBlock
      address := by
  have hany (mirror : MirrorNodeClient (Except RelayError))
      (getLogs : Option String → LogParams → Except RelayError (List MirrorNodeLog)) :
      validateBlockRangeAndAddTimestampToParams config { mirror with getLogs := getLogs } fromBlock
        toBlock address =
      validateBlockRangeAndAddTimestampToParams config mirror fromBlock toBlock address := rfl
  exact hany (chainClient chain) _

private theorem validateBlockHash_wire (blockHash : String) :
    validateBlockHashAndAddTimestampToParams (wireClient requests chain) blockHash =
      validateBlockHashAndAddTimestampToParams (chainClient chain) blockHash := rfl

/-- Asked by URLs, the mirror node leads to the same answer. -/
theorem getLogs_wire (config : CommonConfig) (requests : RequestConfig) (chain : Chain)
    (blockHash : Option String) (fromBlock toBlock : Option BlockParam) (address : AddressFilter)
    (topics : Option (List TopicFilter)) (haddress : address.Valid) :
    getLogs config (wireClient requests chain) blockHash fromBlock toBlock address topics =
      getLogs config (chainClient chain) blockHash fromBlock toBlock address topics := by
  have hworker : getLogsInWorker config (wireClient requests chain) blockHash fromBlock toBlock
      address topics =
      getLogsInWorker config (chainClient chain) blockHash fromBlock toBlock address topics := by
    cases blockHash with
    | none =>
      simp only [getLogsInWorker, validateBlockRange_wire]
      apply bind_congr
      intro range
      cases range with
      | none => rfl
      | some range => exact queryLogs_wire haddress range
    | some blockHash =>
      simp only [getLogsInWorker, validateBlockHash_wire]
      apply bind_congr
      intro range
      cases range with
      | none => rfl
      | some range => exact queryLogs_wire haddress range
  rw [getLogs, getLogs, hworker]

end Refinement

section Example

def someContract : String := "0xa94f5374fce5edbc8e2a8697c15331677e6ebf0b"

def someLog : MirrorNodeLog where
  address := someContract
  blockHash := "0x"
  blockNumber := 1
  data := "0x"
  index := 0
  timestamp := 1
  topics := ["0x00ab", "0x00cd"]
  transactionHash := "0x34"
  transactionIndex := 0

/-- The second block has a log of the contract. -/
def contractChain : Chain :=
  (Chain.genesis.append (Chain.genesis.nextBlock "0x" 0 (some someLog))).get (by decide)

private theorem emittedAt_own (log : MirrorNodeLog) : emittedAt log.address log = true :=
  decide_eq_true rfl

private theorem hasTopic_own {log : MirrorNodeLog} {i : ℕ} {trimmed : String}
    (h : log.topics[i]?.bind trimPrecedingZeros = some trimmed) : hasTopic log i trimmed = true := by
  rw [hasTopic, h]
  exact decide_eq_true rfl

private theorem queryChain_contractChain :
    queryChain contractChain (some someContract) ⟨0, 1, [(0, ["ab"])]⟩ = [someLog] := by
  have hlogs : contractChain.logsBetween 0 1 = [someLog] := by decide +kernel
  have htrim : trimPrecedingZeros "0x00ab" = some "ab" := by decide +kernel
  have htopic : hasTopic someLog 0 "ab" = true := hasTopic_own htrim
  have haddress : emittedAt someContract someLog = true := emittedAt_own someLog
  simp only [queryChain, hlogs, List.filter_cons, List.filter_nil, LogParams.selects, acceptsTopics,
    List.all_cons, List.any_cons, htopic, haddress, Option.all_some, Bool.true_or, or_true,
    List.all_nil, Bool.and_true, decide_true, if_true]

private theorem getLogs_contractChain :
    getLogs {} (chainClient contractChain) none (some (.number 0)) (some .latest)
        (.one someContract) (some [.one "0x00ab"]) = .ok [Log.ofRecord someLog] := by
  have htopics : addTopicsToParams (some [.one "0x00ab"]) = .ok [(0, ["ab"])] := by
    decide +kernel
  have hrecords : getLogsByAddress (chainClient contractChain) [someContract]
      ⟨0, 1, [(0, ["ab"])]⟩ = .ok [someLog] := by
    have hone : getContractResultsLogsByAddress (chainClient contractChain)
        ⟨0, 1, [(0, ["ab"])]⟩ someContract = .ok [someLog] :=
      congrArg Except.ok queryChain_contractChain
    rw [getLogsByAddress, List.mapM_cons, hone]
    exact congrArg Except.ok (List.mergeSort_singleton _)
  have hquery : queryLogs (chainClient contractChain) (.one someContract)
      (some [.one "0x00ab"]) (0, 1) = .ok [Log.ofRecord someLog] := by
    simp only [queryLogs, htopics, getLogsWithParams, getLogRecords]
    rw [if_neg (by decide), hrecords]
    rfl
  have hworker : getLogsInWorker {} (chainClient contractChain) none (some (.number 0))
      (some .latest) (.one someContract) (some [.one "0x00ab"]) =
        queryLogs (chainClient contractChain) (.one someContract) (some [.one "0x00ab"]) (0, 1) :=
    rfl
  rw [getLogs, hworker, hquery]
  rfl

/-- A query that finds the log. -/
theorem getLogs_wire_contractChain :
    getLogs {} (wireClient {} contractChain) none (some (.number 0)) (some .latest)
        (.one someContract) (some [.one "0x00ab"]) = .ok [Log.ofRecord someLog] := by
  have hvalid : (AddressFilter.one someContract).Valid := Or.inr (by decide)
  rw [getLogs_wire {} {} contractChain none _ _ _ _ hvalid]
  exact getLogs_contractChain

end Example
end JsonRpcRelay.Common

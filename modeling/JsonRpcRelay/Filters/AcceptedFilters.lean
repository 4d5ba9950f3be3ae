import JsonRpcRelay.Common.LogQueries
import JsonRpcRelay.Validators.Accepted

/-!
# The queries of accepted filters

A filter is accepted by one reader of its topics and turned into queries by another one.  Where the
second one takes what the first one accepts, it asks for exactly the topics of the client at the
positions that a log has.
-/

namespace JsonRpcRelay.Filters

open Framework Validators Common Mirror
open Js (isHexDigit ofHexDigits)

section Queries

/-- What `trimPrecedingZeros` does not take for `null` at once. -/
def topicText : Json → Option String
  | .string s => some s
  | _ => none

/-- The topics that are accepted at position `i`. -/
def jsonTopicParam (i : ℕ) : Json → Except RelayError (Option (List String))
  | .null => .ok none
  | .array items => topicParam i (.oneOf (items.map topicText))
  | topic =>
      (trimTopic s!"Topic {i} is not a valid hex string" i (topicText topic)).map fun t => some [t]

/-- `addTopicsToParams` of the topics as they are sent. -/
def addJsonTopicsToParams (topics : List Json) : Except RelayError (List (ℕ × List String)) := do
  let params ← topics.zipIdx.mapM fun (topic, i) => do
    let accepted ← jsonTopicParam i topic
    return accepted.map fun ts => (i, ts)
  return params.filterMap id

def topicKeys : List (ℕ × String) := [(0, "topic0"), (1, "topic1"), (2, "topic2"), (3, "topic3")]

/-- The parameters that are set, with their values. -/
def prepareLogsParams (params : LogParams) : List (String × List String) :=
  ("timestamp", ["gte:" ++ params.timestampFrom.text, "lte:" ++ params.timestampTo.text]) ::
    topicKeys.filterMap fun key => (params.topics.lookup key.1).map fun ts => (key.2, ts)

/-- The pairs of a key and a value in the query. -/
def getQueryParams (params : List (String × List String)) : List (String × String) :=
  params.flatMap fun param => param.2.map fun value => (param.1, value)

/-- A query for logs, under an address if there is one. -/
structure LogsQuery where
  address : Option String
  params : List (String × String)
  deriving DecidableEq

def addressEntries : Json → List Json
  | .array items => items
  | address => [address]

/-- The address that the logs are asked for under.  There are no logs of the zero address. -/
def queriedAddress : Json → Option String
  | .string s => if s = constants.ZERO_ADDRESS_HEX then none else some s
  | address => some (String.ofList address.toText)

def logsQueries (address : Option Json) (params : LogParams) : List LogsQuery :=
  match address.filter isTruthy with
  | none => [⟨none, getQueryParams (prepareLogsParams params)⟩]
  | some address => ((addressEntries address).filterMap queriedAddress).map fun address =>
      ⟨some address, getQueryParams (prepareLogsParams params)⟩

def topicItems : Option Json → List Json
  | some (.array items) => items
  | _ => []

/-- The queries for the logs of a filter in a range of timestamps. -/
def filterQueries (filter : Json) (start stop : Timestamp) : Except RelayError (List LogsQuery) := do
  let topics ← addJsonTopicsToParams (topicItems (filter.field? "topics"))
  return logsQueries (filter.field? "address") ⟨start, stop, topics⟩

end Queries

section Meaning

/-- What the client accepts at a position. -/
def alternatives : Json → List Json
  | .null => []
  | .array items => items
  | topic => [topic]

def topicKey (i : ℕ) : String := "topic" ++ toString i

/-- The values that a query accepts at a position. -/
def constraintAt (params : List (String × String)) (i : ℕ) : List String :=
  (params.filter fun param => param.1 = topicKey i).map (·.2)

/-- A topic with its prefix in lower case. -/
def IsPrefixed (topic : Json) : Prop :=
  ∃ s, topic = .string s ∧ Js.startsWith s constants.EMPTY_HEX = true

/-- A hundred alternatives at most, all of them prefixed texts. -/
def Queryable (topic : Json) : Prop :=
  (alternatives topic).length ≤ 100 ∧ ∀ t ∈ alternatives topic, IsPrefixed t

/-- The value of a query stands for the topic. -/
def SameTopic (value : String) (topic : Json) : Prop :=
  ∃ s, topic = .string s ∧ value.toList.all isHexDigit ∧
    ofHexDigits value.toList = bigIntOfHex s

/-- The query accepts at the four positions what the client does, one for one. -/
def AsksFor (topics : List Json) (params : List (String × String)) : Prop :=
  ∀ i < 4, List.Forall₂ SameTopic (constraintAt params i) (topics[i]?.elim [] alternatives)

/-- Without an address there is one query, and with addresses one for every text among them that is
not the zero address, and none for anything else. -/
structure AsksUnder (address : Option Json) (queries : List LogsQuery) : Prop where
  nowhere : address = none → queries.map (·.address) = [none]
  each : ∀ x s, address = some x → .string s ∈ addressEntries x → s ≠ constants.ZERO_ADDRESS_HEX →
    some s ∈ queries.map (·.address)
  only : ∀ x, address = some x → ∀ query ∈ queries, ∃ entry ∈ addressEntries x,
    query.address = some (String.ofList entry.toText)

end Meaning

section Topics

variable {message : String} {i : ℕ} {topic : Json}

/-- A text behind the prefix in lower case is trimmed, without a change of its number. -/
theorem trimPrecedingZeros_of_digits {s : String} {digits : List Char}
    (hs : s.toList = '0' :: 'x' :: digits) (hne : digits ≠ []) (hhex : digits.all isHexDigit) :
    ∃ value, trimPrecedingZeros s = some value ∧ value.toList.all isHexDigit ∧
      ofHexDigits value.toList = bigIntOfHex s := by
  have hstarts : Js.startsWith s constants.EMPTY_HEX = true := by
    rw [Js.startsWith, hs]
    rfl
  have hdrop : (Js.substringFrom s 2).toList = digits := by
    rw [Js.substringFrom, hs, String.toList_ofList]
    rfl
  have hnot : ¬(digits = [] ∨ ¬digits.all isHexDigit) := by
    simpa [hne] using hhex
  have hvalue : ofHexDigits (digits.dropWhile (· = '0')) = bigIntOfHex s := by
    rw [Js.ofHexDigits_dropWhile_zero, bigIntOfHex, hs]
    rfl
  rw [trimPrecedingZeros]
  simp only [hstarts, if_true, hdrop, if_neg hnot]
  refine ⟨_, rfl, ?_⟩
  split_ifs with hzero
  · rw [hzero] at hvalue
    exact ⟨rfl, hvalue⟩
  · rw [String.toList_ofList]
    refine ⟨?_, hvalue⟩
    rw [List.all_eq_true] at hhex ⊢
    exact fun c hc => hhex c (List.dropWhile_sublist _ |>.mem hc)

private theorem trimPrecedingZeros_of_upper {s : String} {digits : List Char}
    (hs : s.toList = '0' :: 'X' :: digits) : trimPrecedingZeros s = none := by
  have hstarts : Js.startsWith s constants.EMPTY_HEX = false := by
    rw [Js.startsWith, hs]
    rfl
  have hupper : isHexDigit 'X' = false := by decide
  simp [trimPrecedingZeros, hstarts, hs, hupper]

/-- A topic hash is trimmed to its number, or refused if it is no text or its prefix is written in
upper case. -/
theorem trimTopic_of_isTopicHash (message : String) (i : ℕ) (h : TYPES.isTopicHash topic = true) :
    (∃ value, trimTopic message i (topicText topic) = .ok value ∧ SameTopic value topic) ∨
    ¬IsPrefixed topic ∧ trimTopic message i (topicText topic) =
      .error (.jsonRpcError (predefined.INVALID_PARAMETER (toString i) message)) := by
  cases topic with
  | string s =>
    have htext : isBaseHex (· = 64) s.toList = true := by
      simpa [TYPES.isTopicHash, Json.isNull] using h
    obtain ⟨x, digits, hs, hx, hhex, hlength⟩ := exists_of_isBaseHex htext
    rcases hx with rfl | rfl
    · have hne : digits ≠ [] := by
        rintro rfl
        exact absurd hlength (by decide)
      obtain ⟨value, htrim, hvalue⟩ := trimPrecedingZeros_of_digits hs hne (List.all_eq_true.mpr hhex)
      refine Or.inl ⟨value, ?_, s, rfl, hvalue⟩
      simp [trimTopic, topicText, htrim]
    · refine Or.inr ⟨fun ⟨s', heq, hstarts⟩ => ?_, ?_⟩
      · cases heq
        rw [Js.startsWith, hs] at hstarts
        exact absurd hstarts Bool.false_ne_true
      · simp [trimTopic, topicText, trimPrecedingZeros_of_upper hs]
  | _ => exact Or.inr ⟨fun ⟨_, heq, _⟩ => (nomatch heq), rfl⟩

/-- The entries of a topic are accepted. -/
def AcceptedTopic (topic : Json) : Prop := ∀ t ∈ flat [topic], TYPES.isTopicHash t = true

/-- The entries of an array are passed on in order, unless there are too many or one is refused. -/
theorem topicParam_of_accepted {items : List Json} (h : AcceptedTopic (.array items)) :
    (∃ values, topicParam i (.oneOf (items.map topicText)) = .ok (some values) ∧
      List.Forall₂ SameTopic values items) ∨
    ¬Queryable (.array items) ∧ ∃ message, topicParam i (.oneOf (items.map topicText)) =
      .error (.jsonRpcError (predefined.INVALID_PARAMETER (toString i) message)) := by
  have hitems : ∀ t ∈ items, TYPES.isTopicHash t = true := by
    simpa [AcceptedTopic, flat] using h
  simp only [topicParam, List.length_map]
  split
  · rename_i hlong
    exact Or.inr ⟨fun hqueryable => absurd hqueryable.1 (Nat.not_le.mpr hlong), _, rfl⟩
  · cases hmap : (items.map topicText).zipIdx.mapM fun t : Option String × ℕ =>
        trimTopic s!"Topic {i}[{t.2}] is not a valid hex string" i t.1 with
    | ok values =>
      refine Or.inl ⟨values, rfl, ?_⟩
      have hall := forall₂_of_mapM_ok hmap
        (R := fun t value => ∃ message, trimTopic message i t.1 = .ok value) fun t _ ht => ⟨_, ht⟩
      have htrimmed : List.Forall₂ (fun text value => ∃ message,
          trimTopic message i text = .ok value) (items.map topicText) values := by
        rw [← List.zipIdx_map_fst 0 (items.map topicText)]
        exact List.forall₂_map_left_iff.mpr hall
      rw [List.forall₂_map_left_iff] at htrimmed
      apply List.Forall₂.flip
      apply ((List.forall₂_and_left items values).mpr ⟨hitems, htrimmed⟩).imp
      intro topic value h
      obtain ⟨haccepted, message, htrim⟩ := h
      rcases trimTopic_of_isTopicHash message i haccepted with
        ⟨value', hvalue, hsame⟩ | ⟨_, herror⟩
      · rw [htrim, Except.ok.injEq] at hvalue
        rwa [hvalue]
      · rw [htrim] at herror
        cases herror
    | error e =>
      obtain ⟨t, ht, herror⟩ := exists_of_mapM_error hmap
      obtain ⟨topic, hmem, htopic⟩ := List.mem_map.mp (List.fst_mem_of_mem_zipIdx ht)
      rw [← htopic] at herror
      rcases trimTopic_of_isTopicHash _ i (hitems topic hmem) with
        ⟨value, hvalue, _⟩ | ⟨hnot, hrefused⟩
      · rw [herror] at hvalue
        cases hvalue
      · rw [herror] at hrefused
        rw [Except.error.inj hrefused]
        exact Or.inr ⟨fun hqueryable => hnot (hqueryable.2 topic hmem), _, rfl⟩

private theorem jsonTopicParam_of_accepted (h : AcceptedTopic topic) :
    (∃ accepted, jsonTopicParam i topic = .ok accepted ∧
      List.Forall₂ SameTopic (accepted.getD []) (alternatives topic)) ∨
    ¬Queryable topic ∧ ∃ message, jsonTopicParam i topic =
      .error (.jsonRpcError (predefined.INVALID_PARAMETER (toString i) message)) := by
  have hone (haccepted : TYPES.isTopicHash topic = true) (halone : alternatives topic = [topic])
      (hparam : jsonTopicParam i topic = (trimTopic s!"Topic {i} is not a valid hex string" i
        (topicText topic)).map fun t => some [t]) : (∃ accepted,
          jsonTopicParam i topic = .ok accepted ∧
            List.Forall₂ SameTopic (accepted.getD []) (alternatives topic)) ∨
        ¬Queryable topic ∧ ∃ message, jsonTopicParam i topic =
          .error (.jsonRpcError (predefined.INVALID_PARAMETER (toString i) message)) := by
    rw [hparam, halone]
    rcases trimTopic_of_isTopicHash _ _ haccepted with ⟨value, htrim, hsame⟩ | ⟨hnot, herror⟩
    · exact Or.inl ⟨some [value], by rw [htrim]; rfl, .cons hsame .nil⟩
    · refine Or.inr ⟨fun hqueryable => hnot (hqueryable.2 topic ?_), _, by rw [herror]; rfl⟩
      rw [halone]
      exact List.mem_singleton_self topic
  cases topic with
  | null => exact Or.inl ⟨none, rfl, .nil⟩
  | array items =>
    rcases topicParam_of_accepted h with ⟨values, hok, hall⟩ | hrefused
    · exact Or.inl ⟨some values, hok, hall⟩
    · exact Or.inr hrefused
  | _ => exact hone (h _ (by simp [flat])) rfl rfl

end Topics

section Positions

variable {start stop : Timestamp}

private theorem lookup_cons_param (accepted : Option (List String)) (k i : ℕ)
    (params : List (Option (ℕ × List String))) :
    (((accepted.map fun ts => (k, ts)) :: params).filterMap id).lookup i =
      if i = k then accepted.or ((params.filterMap id).lookup i)
      else (params.filterMap id).lookup i := by
  cases accepted with
  | none => simp
  | some ts =>
    rw [Option.map_some, List.filterMap_cons_some (by rfl), List.lookup_cons]
    by_cases hik : i = k
    · simp [hik]
    · rw [beq_false_of_ne hik, if_neg hik]

private theorem lookup_params {topics : List Json} {k : ℕ}
    {params : List (Option (ℕ × List String))}
    (h : (topics.zipIdx k).map (fun t => (jsonTopicParam t.2 t.1).map fun accepted =>
      accepted.map fun ts => (t.2, ts)) = params.map .ok) (i : ℕ) :
    (params.filterMap id).lookup i = if i < k then none
      else (topics[i - k]?).bind fun topic => (jsonTopicParam i topic).toOption.join := by
  induction topics generalizing k params with
  | nil =>
    rw [List.zipIdx_nil, List.map_nil, eq_comm, List.map_eq_nil_iff] at h
    simp [h]
  | cons topic topics ih =>
    cases params with
    | nil => simp at h
    | cons param params =>
      rw [List.zipIdx_cons, List.map_cons, List.map_cons, List.cons.injEq] at h
      obtain ⟨hhead, htail⟩ := h
      cases haccepted : jsonTopicParam k topic with
      | error e =>
        rw [haccepted] at hhead
        cases hhead
      | ok accepted =>
        rw [haccepted] at hhead
        obtain rfl : accepted.map (fun ts => (k, ts)) = param := Except.ok.inj hhead
        rw [lookup_cons_param, ih htail]
        rcases Nat.lt_trichotomy i k with hlt | rfl | hgt
        · rw [if_neg hlt.ne, if_pos (by omega), if_pos hlt]
        · simp [haccepted, Except.toOption]
        · have hindex : i - k = i - (k + 1) + 1 := by omega
          rw [if_neg hgt.ne', if_neg (by omega), if_neg (by omega), hindex, List.getElem?_cons_succ]

private theorem constraintAt_getQueryParams (params : List (String × List String)) (i : ℕ) :
    constraintAt (getQueryParams params) i =
      (params.filter fun param => param.1 = topicKey i).flatMap (·.2) := by
  induction params with
  | nil => rfl
  | cons param params ih =>
    rw [constraintAt, getQueryParams] at ih ⊢
    rw [List.flatMap_cons, List.filter_append, List.map_append, ih, List.filter_map]
    by_cases hkey : param.1 = topicKey i
    · simp [hkey, Function.comp_def]
    · simp [hkey, Function.comp_def]

private theorem constraintAt_prepareLogsParams (topics : List (ℕ × List String)) {i : ℕ}
    (hi : i < 4) :
    constraintAt (getQueryParams (prepareLogsParams ⟨start, stop, topics⟩)) i =
      (topics.lookup i).getD [] := by
  have htimestamp : ∀ i < 4, ¬"timestamp" = topicKey i := by decide
  have hkeys : ∀ i < 4, (topicKeys.filter fun key => key.2 = topicKey i) = [(i, topicKey i)] := by
    decide
  have hfilter : (topicKeys.filterMap fun key =>
        (topics.lookup key.1).map fun ts => (key.2, ts)).filter (fun param => param.1 = topicKey i) =
      (topicKeys.filter fun key => key.2 = topicKey i).filterMap fun key =>
        (topics.lookup key.1).map fun ts => (key.2, ts) := by
    rw [List.filter_filterMap, List.filterMap_filter]
    congr
    funext key
    cases topics.lookup key.1 with
    | none => simp
    | some ts => simp [Option.filter]
  rw [constraintAt_getQueryParams, prepareLogsParams,
    List.filter_cons_of_neg (by simpa using htimestamp i hi), hfilter, hkeys i hi]
  cases htopics : topics.lookup i with
  | none => simp [htopics]
  | some ts => simp [htopics]

/-- The topics of a filter are passed on position by position, or one of them is refused. -/
theorem addJsonTopicsToParams_of_accepted (start stop : Timestamp) {topics : List Json}
    (h : ∀ topic ∈ topics, AcceptedTopic topic) :
    (∃ params, addJsonTopicsToParams topics = .ok params ∧
      AsksFor topics (getQueryParams (prepareLogsParams ⟨start, stop, params⟩))) ∨
    ∃ (i : ℕ) (topic : Json) (message : String), topics[i]? = some topic ∧ ¬Queryable topic ∧
      addJsonTopicsToParams topics =
        .error (.jsonRpcError (predefined.INVALID_PARAMETER (toString i) message)) := by
  cases hmap : topics.zipIdx.mapM fun t : Json × ℕ => do
      let accepted ← jsonTopicParam t.2 t.1
      return accepted.map fun ts => (t.2, ts) with
  | ok params =>
    refine Or.inl ⟨params.filterMap id, ?_, ?_⟩
    · rw [addJsonTopicsToParams, hmap]
      rfl
    · intro i hi
      have hlookup := lookup_params (k := 0) (mapM_ok_iff.mp hmap) i
      rw [constraintAt_prepareLogsParams _ hi, hlookup]
      rw [if_neg (Nat.not_lt_zero i), Nat.sub_zero]
      cases htopic : topics[i]? with
      | none => exact .nil
      | some topic =>
        rcases jsonTopicParam_of_accepted (i := i) (h topic (List.mem_of_getElem? htopic)) with
          ⟨accepted, hok, hall⟩ | ⟨_, message, hrefused⟩
        · simpa [hok, Except.toOption] using hall
        · obtain ⟨param, _, hparam⟩ :=
            exists_of_mapM_ok hmap (List.mk_mem_zipIdx_iff_getElem?.mpr htopic)
          simp only [hrefused] at hparam
          cases hparam
  | error e =>
    obtain ⟨⟨topic, i⟩, ht, herror⟩ := exists_of_mapM_error hmap
    have hi : topics[i]? = some topic := List.mk_mem_zipIdx_iff_getElem?.mp ht
    rcases jsonTopicParam_of_accepted (i := i) (h topic (List.mem_of_getElem? hi)) with
      ⟨accepted, hok, _⟩ | ⟨hnot, message, hrefused⟩
    · simp only [hok] at herror
      cases herror
    · simp only [hrefused] at herror
      refine Or.inr ⟨i, topic, message, hi, hnot, ?_⟩
      rw [addJsonTopicsToParams, hmap, ← Except.error.inj herror]
      rfl

end Positions

section Addresses

variable {params : LogParams}

private theorem queriedAddress_eq_some {entry : Json} {address : String}
    (h : queriedAddress entry = some address) : address = String.ofList entry.toText := by
  cases entry with
  | string s =>
    rw [queriedAddress] at h
    split_ifs at h
    rw [Json.toText_string, String.ofList_toList, Option.some.inj h]
  | _ => exact (Option.some.inj h).symm

private theorem isTruthy_of_addressFilter {x : Json} (h : TYPES.addressFilter.test x = .ok true) :
    isTruthy x = true := by
  cases x with
  | array items => rfl
  | object fields => rfl
  | null => exact absurd h (by decide)
  | bool b => cases b <;> exact absurd h (by decide)
  | number n =>
    cases n with
    | zero => exact absurd h (by decide)
    | nan => exact absurd h (by decide)
    | _ => simp [isTruthy]
  | string s =>
    have hne : s ≠ "" := by
      rintro rfl
      exact absurd h (by decide)
    simpa [isTruthy] using hne

private theorem asksUnder_logsQueries {address : Option Json}
    (h : ∀ x, address = some x → TYPES.addressFilter.test x = .ok true) :
    AsksUnder address (logsQueries address params) := by
  cases address with
  | none => exact ⟨fun _ => rfl, nofun, nofun⟩
  | some x =>
    have hqueries : logsQueries (some x) params =
        ((addressEntries x).filterMap queriedAddress).map fun address =>
          ⟨some address, getQueryParams (prepareLogsParams params)⟩ := by
      simp [logsQueries, Option.filter, isTruthy_of_addressFilter (h x rfl)]
    rw [hqueries]
    refine ⟨nofun, ?_, ?_⟩
    · intro y s hy hmem hne
      cases hy
      simp only [List.map_map, List.mem_map, List.mem_filterMap, Function.comp_apply,
        Option.some.injEq, exists_eq_right]
      exact ⟨_, hmem, if_neg hne⟩
    · intro y hy query hquery
      cases hy
      obtain ⟨a, ha, rfl⟩ := List.mem_map.mp hquery
      obtain ⟨entry, hentry, hsome⟩ := List.mem_filterMap.mp ha
      exact ⟨entry, hentry, by rw [queriedAddress_eq_some hsome]⟩

private theorem params_of_mem_logsQueries {address : Option Json} {query : LogsQuery}
    (h : query ∈ logsQueries address params) :
    query.params = getQueryParams (prepareLogsParams params) := by
  rw [logsQueries] at h
  split at h
  · rw [List.mem_singleton.mp h]
  · obtain ⟨_, _, rfl⟩ := List.mem_map.mp h
    rfl

end Addresses

section Accepted

variable {filter : Json}

private theorem validateSchema_of_filter (h : TYPES.filter.test filter = .ok true) :
    validateSchema OBJECTS_VALIDATIONS.filter filter = .ok true := by
  cases filter with
  | object fields =>
    simp only [TYPES.filter] at h
    split at h
    · cases h
    · exact h
  | _ => cases h

private theorem accepted_of_topics {x : Json} (h : TYPES.topics.test x = .ok true) :
    ∀ topic ∈ topicItems (some x), AcceptedTopic topic := by
  cases x with
  | array items =>
    have hall : ∀ t ∈ flat items, TYPES.isTopicHash t = true := by
      simpa [TYPES.topics, IType.plain] using h
    intro topic hmem t ht
    apply hall t
    simp only [flat, List.mem_flatMap, List.mem_singleton, exists_eq_left] at ht ⊢
    exact ⟨topic, hmem, ht⟩
  | _ => cases h

/-- For a filter that is accepted, every query asks for exactly the topics of the client at the four
positions, under the addresses of the client, or the topic at some position is refused, which is
none of a hundred texts at most with their prefix in lower case. -/
theorem accepted_filter_queried (filter : Json) (start stop : Timestamp)
    (haccepted : TYPES.filter.test filter = .ok true) :
    (∃ queries, filterQueries filter start stop = .ok queries ∧
      AsksUnder (filter.field? "address") queries ∧
      ∀ query ∈ queries, AsksFor (topicItems (filter.field? "topics")) query.params) ∨
    ∃ (i : ℕ) (topic : Json) (message : String),
      (topicItems (filter.field? "topics"))[i]? = some topic ∧ ¬Queryable topic ∧
        filterQueries filter start stop =
          .error (.jsonRpcError (predefined.INVALID_PARAMETER (toString i) message)) := by
  have hschema := validateSchema_of_filter haccepted
  have htopics : ∀ topic ∈ topicItems (filter.field? "topics"), AcceptedTopic topic := by
    cases hx : filter.field? "topics" with
    | none => simp [topicItems]
    | some x =>
      have hmem : ("topics", OBJECTS_VALIDATIONS.optional TYPES.topics) ∈
          OBJECTS_VALIDATIONS.filter.properties := by
        simp [OBJECTS_VALIDATIONS.filter]
      exact accepted_of_topics (test_of_validateSchema hschema hmem hx rfl)
  have haddress : ∀ x, filter.field? "address" = some x →
      TYPES.addressFilter.test x = .ok true := by
    intro x hx
    have hmem : ("address", OBJECTS_VALIDATIONS.optional TYPES.addressFilter) ∈
        OBJECTS_VALIDATIONS.filter.properties := by
      simp [OBJECTS_VALIDATIONS.filter]
    exact test_of_validateSchema hschema hmem hx rfl
  rcases addJsonTopicsToParams_of_accepted start stop htopics with
    ⟨params, hok, hasks⟩ | ⟨i, topic, message, hi, hnot, hrefused⟩
  · refine Or.inl ⟨logsQueries (filter.field? "address") ⟨start, stop, params⟩, ?_,
      asksUnder_logsQueries haddress, ?_⟩
    · rw [filterQueries, hok]
      rfl
    · intro query hquery
      rw [params_of_mem_logsQueries hquery]
      exact hasks
  · refine Or.inr ⟨i, topic, message, hi, hnot, ?_⟩
    rw [filterQueries, hrefused]
    rfl

def hashOf (digit : Char) : String := "0x" ++ String.ofList (List.replicate 64 digit)

/-- Transfers to one account, in the logs of a token. -/
def transferFilter : Json :=
  .object [("address", .string "0x00000000000000000000000000000000000003f7"),
    ("topics", .array [.string (hashOf 'd'), .null, .array [.string (hashOf '0')]])]

theorem accepted_filter_queried_transfers :
    ((∃ queries, filterQueries transferFilter 0 1 = .ok queries ∧
        AsksUnder (transferFilter.field? "address") queries ∧
        ∀ query ∈ queries, AsksFor (topicItems (transferFilter.field? "topics")) query.params) ∨
      ∃ (i : ℕ) (topic : Json) (message : String),
        (topicItems (transferFilter.field? "topics"))[i]? = some topic ∧ ¬Queryable topic ∧
          filterQueries transferFilter 0 1 =
            .error (.jsonRpcError (predefined.INVALID_PARAMETER (toString i) message))) ∧
      filterQueries transferFilter 0 1 =
        .ok [⟨some "0x00000000000000000000000000000000000003f7",
          [("timestamp", "gte:0.000000000"), ("timestamp", "lte:0.000000001"),
            ("topic0", String.ofList (List.replicate 64 'd')), ("topic2", "0")]⟩] :=
  ⟨accepted_filter_queried transferFilter 0 1 (by decide +kernel), by decide +kernel⟩

/-- More alternatives than are passed on. -/
def crowdedFilter : Json :=
  .object [("topics", .array [.array (List.replicate 101 (.string (hashOf 'd')))])]

theorem accepted_filter_refused :
    TYPES.filter.test crowdedFilter = .ok true ∧
      filterQueries crowdedFilter 0 1 = .error (.jsonRpcError
        (predefined.INVALID_PARAMETER "0" "Topic 0 exceeds maximum nested length of 100")) ∧
      TYPES.filter.test (.object [("topics", .array [.array [.null]])]) = .ok true ∧
      filterQueries (.object [("topics", .array [.array [.null]])]) 0 1 = .error (.jsonRpcError
        (predefined.INVALID_PARAMETER "0" "Topic 0[0] is not a valid hex string")) :=
  ⟨by decide +kernel, by decide +kernel, by decide +kernel, by decide +kernel⟩

end Accepted

end JsonRpcRelay.Filters

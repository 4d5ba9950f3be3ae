import JsonRpcRelay.Constants
import JsonRpcRelay.Framework.QueryStrings
import JsonRpcRelay.Mirror.Records
import Mathlib.Data.String.Basic

/-!
# The URLs of the requests

A request to the mirror node is a path and a query.  The values are written as they are, so the
URL can only be read back where they have none of the symbols with a meaning of their own.
-/

namespace JsonRpcRelay.Mirror

open Framework

section Queries

/-- A number or a truth value is given by its text. -/
inductive QueryValue where
  | text (value : String)
  | list (values : List String)
  deriving DecidableEq

def QueryValue.toText : QueryValue → String
  | .text value => value
  | .list values => ",".intercalate values

/-- Parameters in the order of their insertion. -/
abbrev QueryParamObject := List (String × QueryValue)

/-- A value that is missing or empty is none.  A second value of a key is written behind the first
one. -/
def setQueryParam (queryParamObject : QueryParamObject) (key : String)
    (value : Option QueryValue) : QueryParamObject :=
  match value.filter (· ≠ .text "") with
  | none => queryParamObject
  | some value =>
    match queryParamObject.lookup key with
    | none => queryParamObject ++ [(key, value)]
    | some before => queryParamObject.map fun param =>
        if param.1 = key then
          (key, .text (before.toText ++ "&" ++ key ++ "=" ++ value.toText))
        else param

def additionalString (key : String) : QueryValue → String
  | .list values => "&".intercalate (values.map fun value => key ++ "=" ++ value)
  | .text value => key ++ "=" ++ value

def getQueryParams (params : QueryParamObject) : String :=
  params.foldl (fun paramString param =>
    paramString ++ (if paramString = "" then "?" else "&") ++ additionalString param.1 param.2) ""

/-- The number of results of a page and their order. -/
structure ILimitOrderParams where
  limit : Option ℕ := none
  order : Option String := none

/-- What is asked for where a request names neither. -/
structure RequestConfig where
  limitParam : ℕ := 100

def setLimitOrderParams (config : RequestConfig) (queryParamObject : QueryParamObject)
    (limitOrderParams : Option ILimitOrderParams) : QueryParamObject :=
  match limitOrderParams with
  | some params =>
      setQueryParam
        (setQueryParam queryParamObject "limit" (params.limit.map fun n => .text (toString n)))
        "order" (params.order.map .text)
  | none =>
      setQueryParam
        (setQueryParam queryParamObject "limit" (some (.text (toString config.limitParam))))
        "order" (some (.text "asc"))

structure IContractLogsResultsParams where
  transactionHash : Option String := none
  index : Option ℕ := none
  timestamp : Option QueryValue := none
  topic0 : Option QueryValue := none
  topic1 : Option QueryValue := none
  topic2 : Option QueryValue := none
  topic3 : Option QueryValue := none

def prepareLogsParams (config : RequestConfig)
    (contractLogsResultsParams : Option IContractLogsResultsParams)
    (limitOrderParams : Option ILimitOrderParams) : String :=
  let queryParamObject : QueryParamObject :=
    match contractLogsResultsParams with
    | none => []
    | some params =>
      let object := setQueryParam [] "transaction.hash" (params.transactionHash.map .text)
      let object := setQueryParam object "index" (params.index.map fun n => .text (toString n))
      let object := setQueryParam object "timestamp" params.timestamp
      let object := setQueryParam object "topic0" params.topic0
      let object := setQueryParam object "topic1" params.topic1
      let object := setQueryParam object "topic2" params.topic2
      setQueryParam object "topic3" params.topic3
  getQueryParams (setLimitOrderParams config queryParamObject limitOrderParams)

end Queries

section Paths

/-- `text.replace(pattern, replacement)`, where the pattern is not empty and the replacement has no
special patterns. -/
def replaceFirst (pattern replacement : List Char) : List Char → List Char
  | [] => []
  | c :: text =>
    if pattern.isPrefixOf (c :: text) then replacement ++ (c :: text).drop pattern.length
    else c :: replaceFirst pattern replacement text

def replacePlaceholder (endpoint placeholder value : String) : String :=
  String.ofList (replaceFirst placeholder.toList value.toList endpoint.toList)

def ADDRESS_PLACEHOLDER : String := "{address}"

def GET_CONTRACT_RESULT_LOGS_ENDPOINT : String := "contracts/results/logs"

def GET_CONTRACT_RESULT_LOGS_BY_ADDRESS_ENDPOINT : String := "contracts/{address}/results/logs"

variable (config : RequestConfig) (params : Option IContractLogsResultsParams)
  (limitOrderParams : Option ILimitOrderParams)

/-- The first URL of `getContractResultsLogsWithRetry`. -/
def contractResultsLogsUrl : String :=
  GET_CONTRACT_RESULT_LOGS_ENDPOINT ++ prepareLogsParams config params limitOrderParams

/-- The first URL of `getContractResultsLogsByAddress`. -/
def contractResultsLogsByAddressUrl (address : String) : String :=
  replacePlaceholder GET_CONTRACT_RESULT_LOGS_BY_ADDRESS_ENDPOINT ADDRESS_PLACEHOLDER address ++
    prepareLogsParams config params limitOrderParams

end Paths

section Reading

/-- The segments of the path and the entries of the query. -/
def readUrl (url : String) : List String × List (String × String) :=
  let parts := cut '?' url.toList
  ((parts.1.splitOn '/').map String.ofList,
    (readQuery '&' '=' parts.2).map fun entry => (String.ofList entry.1, String.ofList entry.2))

/-- The characters with a meaning of their own in a path or in a query. -/
def reservedCharacters : List Char :=
  ['/', '?', '#', '[', ']', '@', '!', '$', '&', '(', ')', '*', '+', ',', ';', '=', '%', ' ']

def isPlain (c : Char) : Bool := !reservedCharacters.elem c

def Plain (s : String) : Prop := ∀ c ∈ s.toList, isPlain c = true

instance (s : String) : Decidable (Plain s) :=
  decidable_of_iff (s.toList.all isPlain = true) List.all_eq_true

def QueryValue.Plain : QueryValue → Prop
  | .text value => Mirror.Plain value
  | .list values => ∀ value ∈ values, Mirror.Plain value

/-- The entries that a parameter stands for. -/
def entriesOf (key : String) : QueryValue → List (String × String)
  | .text value => [(key, value)]
  | .list values => values.map fun value => (key, value)

def readEntries (text : List Char) : List (String × String) :=
  (readQuery '&' '=' text).map fun entry => (String.ofList entry.1, String.ofList entry.2)

variable {key value path : String} {params : QueryParamObject}

theorem isPlain_of {p : Char → Bool} (h : reservedCharacters.any p = false) {c : Char}
    (hc : p c = true) : isPlain c = true := by
  rw [isPlain, Bool.not_eq_true', List.elem_eq_mem, decide_eq_false_iff_not]
  intro hmem
  exact Bool.false_ne_true (h.symm.trans (List.any_eq_true.mpr ⟨c, hmem, hc⟩))

theorem Plain.notMem {s : String} {c : Char} (h : Plain s) (hc : isPlain c = false) :
    c ∉ s.toList := by
  intro hmem
  exact Bool.false_ne_true (hc.symm.trans (h c hmem))

private theorem readEntries_entry (hkey : Plain key) (hvalue : Plain value) :
    readEntries (key ++ "=" ++ value).toList = [(key, value)] := by
  have htext : (key ++ "=" ++ value).toList = key.toList ++ '=' :: value.toList := by
    simp [String.toList_append]
  rw [readEntries, htext, readQuery_entry (by decide) (hkey.notMem (by decide))
    (hkey.notMem (by decide)) (hvalue.notMem (by decide))]
  simp

private theorem readEntries_additionalString {value : QueryValue} (hkey : Plain key)
    (hvalue : value.Plain) : readEntries (additionalString key value).toList =
      entriesOf key value := by
  cases value with
  | text value => exact readEntries_entry hkey hvalue
  | list values =>
    have hpieces : (additionalString key (.list values)).toList =
        ['&'].intercalate (values.map fun value => (key ++ "=" ++ value).toList) := by
      rw [additionalString, String.toList_intercalate, List.map_map]
      rfl
    rw [hpieces, readEntries, readQuery_intercalate, List.flatMap_map, List.map_flatMap,
      entriesOf, List.map_eq_flatMap]
    apply List.flatMap_congr
    intro value hmem
    exact readEntries_entry hkey (hvalue value hmem)

private theorem toList_foldl_params {before : String} (hbefore : before ≠ "") :
    (params.foldl (fun paramString param =>
      paramString ++ (if paramString = "" then "?" else "&") ++
        additionalString param.1 param.2) before).toList =
      before.toList ++ params.flatMap fun param =>
        '&' :: (additionalString param.1 param.2).toList := by
  induction params generalizing before with
  | nil => simp
  | cons param params ih =>
    have hnext : before ++ "&" ++ additionalString param.1 param.2 ≠ "" := by
      intro h
      have hlist := congrArg String.toList h
      simp [String.toList_append] at hlist
    rw [List.foldl_cons, if_neg hbefore, ih hnext]
    simp [String.toList_append, List.append_assoc]

private theorem toList_getQueryParams (param : String × QueryValue) :
    (getQueryParams (param :: params)).toList =
      '?' :: ((additionalString param.1 param.2).toList ++ params.flatMap fun param =>
        '&' :: (additionalString param.1 param.2).toList) := by
  have hfirst : "" ++ "?" ++ additionalString param.1 param.2 ≠ "" := by
    intro h
    have hlist := congrArg String.toList h
    simp [String.toList_append] at hlist
  rw [getQueryParams, List.foldl_cons, if_pos rfl, toList_foldl_params hfirst]
  simp [String.toList_append]

private theorem readEntries_append (first last : List Char) :
    readEntries (first ++ '&' :: last) = readEntries first ++ readEntries last := by
  rw [readEntries, readQuery_append, List.map_append]
  rfl

private theorem readEntries_params (first : List Char) :
    readEntries (first ++ params.flatMap fun param =>
      '&' :: (additionalString param.1 param.2).toList) =
      readEntries first ++ params.flatMap fun param =>
        readEntries (additionalString param.1 param.2).toList := by
  induction params generalizing first with
  | nil => simp
  | cons param params ih =>
    rw [List.flatMap_cons, List.cons_append, readEntries_append, ih, List.flatMap_cons]

/-- The entries of all parameters. -/
def entries (params : QueryParamObject) : List (String × String) :=
  params.flatMap fun param => entriesOf param.1 param.2

def segments (path : String) : List String := (path.toList.splitOn '/').map String.ofList

theorem readUrl_getQueryParams (hpath : '?' ∉ path.toList)
    (hparams : ∀ param ∈ params, Plain param.1 ∧ param.2.Plain) :
    readUrl (path ++ getQueryParams params) = (segments path, entries params) := by
  have hentries : params.flatMap (fun param =>
      readEntries (additionalString param.1 param.2).toList) = entries params := by
    apply List.flatMap_congr
    intro param hmem
    exact readEntries_additionalString (hparams param hmem).1 (hparams param hmem).2
  cases params with
  | nil =>
    have hquery : getQueryParams [] = "" := rfl
    rw [readUrl, hquery, String.append_empty, cut_of_notMem hpath]
    simp [segments, entries]
  | cons param params =>
    rw [readUrl, String.toList_append, toList_getQueryParams, cut_append hpath]
    show (_, readEntries _) = _
    rw [readEntries_params, ← hentries]
    rfl

end Reading

section Setting

/-- What setting a fresh key adds. -/
def param (key : String) (value : Option QueryValue) : QueryParamObject :=
  (value.filter (· ≠ .text "")).toList.map fun value => (key, value)

variable {key : String} {value : Option QueryValue} {params : QueryParamObject}

private theorem key_of_mem_param {p : String × QueryValue} (h : p ∈ param key value) :
    p.1 = key := by
  obtain ⟨_, _, rfl⟩ := List.mem_map.mp h
  rfl

private theorem setQueryParam_of_fresh (h : ∀ p ∈ params, p.1 ≠ key) :
    setQueryParam params key value = params ++ param key value := by
  have hlookup : params.lookup key = none := by
    rw [List.lookup_eq_none_iff]
    intro p hp
    simpa using (h p hp).symm
  unfold setQueryParam param
  cases value.filter (· ≠ .text "") with
  | none => simp
  | some value =>
    rw [hlookup]
    rfl

/-- Parameters that are set one after the other. -/
def setQueryParams (params : QueryParamObject) (values : List (String × Option QueryValue)) :
    QueryParamObject := values.foldl (fun params v => setQueryParam params v.1 v.2) params

theorem setQueryParams_of_fresh {values : List (String × Option QueryValue)}
    (hnodup : (values.map Prod.fst).Nodup) (h : ∀ p ∈ params, p.1 ∉ values.map Prod.fst) :
    setQueryParams params values = params ++ values.flatMap fun v => param v.1 v.2 := by
  induction values generalizing params with
  | nil => simp [setQueryParams]
  | cons v values ih =>
    obtain ⟨hv, hrest⟩ := List.nodup_cons.mp hnodup
    have hfresh : ∀ p ∈ params, p.1 ≠ v.1 := fun p hp heq => h p hp (by simp [heq])
    have hnext : ∀ p ∈ params ++ param v.1 v.2, p.1 ∉ values.map Prod.fst := by
      intro p hp hmem
      cases List.mem_append.mp hp with
      | inl hp => exact h p hp (List.mem_cons_of_mem _ hmem)
      | inr hp => exact hv (key_of_mem_param hp ▸ hmem)
    show setQueryParams (setQueryParam params v.1 v.2) values = _
    rw [setQueryParam_of_fresh hfresh, ih hrest hnext, List.flatMap_cons, List.append_assoc]

end Setting

end JsonRpcRelay.Mirror

import JsonRpcRelay.Common.CommonService
import JsonRpcRelay.Framework.JsonReader

/-!
# Errors of workers

A worker throws an error whose message is the JSON text of the error that it has caught, and the
pool builds an error of the same class from it.  The further messages of an error of the mirror
node are not written.
-/

namespace JsonRpcRelay.Workers

open Framework

/-- A value that can be written as JSON. -/
@[ext]
structure JsonValue where
  value : Json
  distinct : value.Distinct

def JsonValue.string (s : String) : JsonValue := ⟨.string s, trivial⟩

/-- The code is missing where it is no number. -/
structure JsonRpcError where
  code : Option Number
  message : String
  data : Option JsonValue

/-- A further message of the web3 module. -/
structure ErrorMessage where
  message : String
  detail : Option String
  data : Option String

/-- The status code is missing where it is no number. -/
structure MirrorNodeClientError where
  statusCode : Option Number
  message : String
  data : Option String
  detail : Option String
  children : List ErrorMessage

/-- The errors that are unwrapped. -/
inductive WorkerError where
  | jsonRpcError (e : JsonRpcError)
  | mirrorNodeClientError (e : MirrorNodeClientError)

namespace MirrorNodeClientError

/-- The message of a failed request, and the messages in its response if the web3 module has sent
any. -/
structure RequestError where
  message : Option String := none
  messages : List ErrorMessage := []

def new (error : RequestError) (statusCode : Option Number) : MirrorNodeClientError :=
  match error.messages with
  | msg :: children => ⟨statusCode, msg.message, msg.data, msg.detail, children⟩
  | [] => ⟨statusCode, error.message.getD "", none, none, []⟩

def fromJSON (statusCode : Option Number) (message : String) (data detail : Option String) :
    MirrorNodeClientError :=
  { new {} statusCode with data := data, detail := detail, message := message }

/-- `detail || message`. -/
def reason (detail : Option String) (message : String) : String :=
  (detail.filter (· ≠ "")).getD message

variable (e : MirrorNodeClientError)

def revertReason : String :=
  let reasons := (e.children.map fun child => reason child.detail child.message).filter (· ≠ "")
  String.intercalate ", " (reason e.detail e.message :: reasons)

def hasStatus (statusCode : ℤ) : Bool := e.statusCode = some (.ofInt statusCode)

def isTimeout : Bool := e.hasStatus 504

def isContractRevert : Bool := e.message = "CONTRACT_REVERT_EXECUTED"

def isNotFound : Bool := e.hasStatus 404

def isNotSupported : Bool := e.hasStatus 501

def isEmpty : Bool := e.hasStatus 204

def isRateLimit : Bool := e.hasStatus 429

def isNotSupportedSystemContractOperaton : Bool := e.message = "Precompile not supported"

def isFailInvalid : Bool := e.message = "FAIL_INVALID"

def isInvalidTransaction : Bool := e.message = "INVALID_TRANSACTION"

end MirrorNodeClientError

section Envelopes

/-- The properties that are not `undefined`. -/
def definedProperties (properties : List (String × Option Json)) : List (String × Json) :=
  properties.filterMap fun property => property.2.map fun x => (property.1, x)

def JsonRpcError.toJSON (e : JsonRpcError) : Json :=
  .object (definedProperties [("code", e.code.map .number), ("data", e.data.map (·.value)),
    ("message", some (.string e.message)), ("name", some (.string "JsonRpcError"))])

def MirrorNodeClientError.toJSON (e : MirrorNodeClientError) : Json :=
  .object (definedProperties [("statusCode", e.statusCode.map .number),
    ("data", e.data.map .string), ("detail", e.detail.map .string),
    ("message", some (.string e.message)), ("name", some (.string "MirrorNodeClientError"))])

def WorkerError.toJSON : WorkerError → Json
  | .jsonRpcError e => e.toJSON
  | .mirrorNodeClientError e => e.toJSON

/-- The message of the error that is thrown by the worker. -/
def wrapError (err : WorkerError) : String := Json.stringify err.toJSON

def JsonValue.field? (x : JsonValue) (key : String) : Option JsonValue :=
  (x.value.field? key).attach.map fun y => ⟨y.1, Json.distinct_of_field? x.distinct y.2⟩

def JsonValue.parse (text : String) : Option JsonValue :=
  (Json.parse text).attach.map fun x => ⟨x.1, Json.distinct_of_parse x.2⟩

/-- A property that is expected to be a number. -/
def JsonValue.number? (x : JsonValue) (key : String) : Option Number :=
  match x.value.field? key with
  | some (.number n) => some n
  | _ => none

/-- A property that is expected to be a string. -/
def JsonValue.string? (x : JsonValue) (key : String) : Option String :=
  match x.value.field? key with
  | some (.string s) => some s
  | _ => none

def internalError (message : String) : WorkerError :=
  .jsonRpcError ⟨some (.ofInt (-32603)), (predefined.INTERNAL_ERROR message).message, none⟩

/-- The error behind the message of an `Error`.  There is no message if the value that was thrown is
none. -/
def unwrapError (err : Option String) : WorkerError :=
  match err with
  | none => internalError "Failed unwrapping piscina error: value is not an Error instance."
  | some message =>
    match JsonValue.parse message with
    | none => internalError "Failed parsing wrapped piscina error while unwrapping."
    | some parsedErr =>
      if parsedErr.string? "name" = some "JsonRpcError" then
        .jsonRpcError ⟨parsedErr.number? "code", (parsedErr.string? "message").getD "",
          parsedErr.field? "data"⟩
      else if parsedErr.string? "name" = some "MirrorNodeClientError" then
        .mirrorNodeClientError (.fromJSON (parsedErr.number? "statusCode")
          ((parsedErr.string? "message").getD "") (parsedErr.string? "data")
          (parsedErr.string? "detail"))
      else internalError "Failed unwrapping piscina error."

end Envelopes

section Properties

variable {properties : List (String × Option Json)}

private theorem keys_definedProperties :
    ((definedProperties properties).map Prod.fst).Sublist (properties.map Prod.fst) := by
  induction properties with
  | nil => exact List.Sublist.refl _
  | cons property properties ih =>
    obtain ⟨name, x⟩ := property
    cases x with
    | none => exact ih.cons _
    | some x => exact ih.cons_cons _

private theorem lookup_definedProperties {key : String} (h : (properties.map Prod.fst).Nodup) :
    (definedProperties properties).lookup key = (properties.lookup key).join := by
  induction properties with
  | nil => rfl
  | cons property properties ih =>
    obtain ⟨name, x⟩ := property
    obtain ⟨hname, hrest⟩ := List.nodup_cons.mp h
    by_cases hkey : key = name
    · subst hkey
      cases x with
      | some x => simp [definedProperties]
      | none =>
        have hnone : (definedProperties properties).lookup key = none := by
          rw [List.lookup_eq_none_iff]
          intro property hmem
          have hkeys := keys_definedProperties.subset (List.mem_map_of_mem hmem)
          exact bne_iff_ne.mpr fun heq => hname (heq ▸ hkeys)
        rw [List.lookup_cons_self]
        exact hnone
    · rw [List.lookup_cons, beq_eq_false_iff_ne.mpr hkey]
      cases x with
      | none => exact ih hrest
      | some x =>
        show ((name, x) :: definedProperties properties).lookup key = _
        rw [List.lookup_cons, beq_eq_false_iff_ne.mpr hkey]
        exact ih hrest

private theorem distinct_definedProperties (h : (properties.map Prod.fst).Nodup)
    (hvalues : ∀ property ∈ properties, ∀ x ∈ property.2, x.Distinct) :
    (Json.object (definedProperties properties)).Distinct := by
  refine ⟨keys_definedProperties.nodup h, Json.fieldsDistinct_iff.mpr ?_⟩
  intro field hfield
  obtain ⟨property, hmem, hproperty⟩ := List.mem_filterMap.mp hfield
  obtain ⟨x, hx, rfl⟩ := Option.map_eq_some_iff.mp hproperty
  exact hvalues property hmem x hx

end Properties

section RoundTrip

private theorem WorkerError.distinct_toJSON (e : WorkerError) : e.toJSON.Distinct := by
  cases e with
  | jsonRpcError e =>
    apply distinct_definedProperties (by simp)
    simp [Json.Distinct, JsonValue.distinct]
  | mirrorNodeClientError e =>
    apply distinct_definedProperties (by simp)
    simp [Json.Distinct]

@[simp] theorem map_value_parse (text : String) :
    (JsonValue.parse text).map (·.value) = Json.parse text := by
  simp [JsonValue.parse]

@[simp] theorem map_value_field? (x : JsonValue) (key : String) :
    (x.field? key).map (·.value) = x.value.field? key := by
  simp [JsonValue.field?]

private theorem exists_parse_wrapError (e : WorkerError) :
    ∃ v, JsonValue.parse (wrapError e) = some v ∧ v.value = e.toJSON.plain := by
  have hparse := map_value_parse (wrapError e)
  rw [wrapError, Json.parse_stringify e.distinct_toJSON] at hparse
  exact Option.map_eq_some_iff.mp hparse

private theorem number?_of_value {v : JsonValue} {x : Json} (hv : v.value = x.plain)
    (key : String) :
    v.number? key = match x.field? key with
      | some (.number n) => if n.isFinite then some n else none
      | _ => none := by
  rw [JsonValue.number?, hv, Json.field?_plain]
  cases hx : x.field? key with
  | none => rfl
  | some y =>
    cases y with
    | number n => by_cases hn : n.isFinite = true <;> simp [Json.plain, hn]
    | _ => rfl

private theorem string?_of_value {v : JsonValue} {x : Json} (hv : v.value = x.plain)
    (key : String) :
    v.string? key = match x.field? key with
      | some (.string s) => some s
      | _ => none := by
  rw [JsonValue.string?, hv, Json.field?_plain]
  cases hx : x.field? key with
  | none => rfl
  | some y =>
    cases y with
    | number n => by_cases hn : n.isFinite = true <;> simp [Json.plain, hn]
    | _ => rfl

/-- What is read of a value that was written. -/
def JsonValue.plain (x : JsonValue) : JsonValue :=
  ⟨x.value.plain, Json.distinct_of_parse (Json.parse_stringify x.distinct)⟩

private theorem unwrap_jsonRpcError (e : JsonRpcError) :
    unwrapError (some (wrapError (.jsonRpcError e))) =
      .jsonRpcError ⟨e.code.filter (·.isFinite), e.message, e.data.map (·.plain)⟩ := by
  obtain ⟨v, hparse, hv⟩ := exists_parse_wrapError (.jsonRpcError e)
  have hfield (key : String) : e.toJSON.field? key = _ :=
    lookup_definedProperties (by simp)
  have hname : v.string? "name" = some "JsonRpcError" := by
    rw [string?_of_value hv, WorkerError.toJSON, hfield]
    rfl
  have hmessage : v.string? "message" = some e.message := by
    rw [string?_of_value hv, WorkerError.toJSON, hfield]
    rfl
  have hcode : v.number? "code" = e.code.filter (·.isFinite) := by
    rw [number?_of_value hv, WorkerError.toJSON, hfield]
    cases e.code with
    | none => rfl
    | some n => rfl
  have hdata : v.field? "data" = e.data.map (·.plain) := by
    apply Option.map_injective fun _ _ => JsonValue.ext
    rw [map_value_field?, hv, Json.field?_plain, WorkerError.toJSON, hfield]
    cases e.data with
    | none => rfl
    | some x => rfl
  simp [unwrapError, hparse, hname, hmessage, hcode, hdata]

private theorem unwrap_mirrorNodeClientError (e : MirrorNodeClientError) :
    unwrapError (some (wrapError (.mirrorNodeClientError e))) =
      .mirrorNodeClientError
        ⟨e.statusCode.filter (·.isFinite), e.message, e.data, e.detail, []⟩ := by
  obtain ⟨v, hparse, hv⟩ := exists_parse_wrapError (.mirrorNodeClientError e)
  have hfield (key : String) : e.toJSON.field? key = _ :=
    lookup_definedProperties (by simp)
  have hname : v.string? "name" = some "MirrorNodeClientError" := by
    rw [string?_of_value hv, WorkerError.toJSON, hfield]
    rfl
  have hmessage : v.string? "message" = some e.message := by
    rw [string?_of_value hv, WorkerError.toJSON, hfield]
    rfl
  have hstatus : v.number? "statusCode" = e.statusCode.filter (·.isFinite) := by
    rw [number?_of_value hv, WorkerError.toJSON, hfield]
    cases e.statusCode with
    | none => rfl
    | some n => rfl
  have hdata : v.string? "data" = e.data := by
    rw [string?_of_value hv, WorkerError.toJSON, hfield]
    cases e.data with
    | none => rfl
    | some s => rfl
  have hdetail : v.string? "detail" = e.detail := by
    rw [string?_of_value hv, WorkerError.toJSON, hfield]
    cases e.detail with
    | none => rfl
    | some s => rfl
  simp [unwrapError, hparse, hname, hmessage, hstatus, hdata, hdetail,
    MirrorNodeClientError.fromJSON, MirrorNodeClientError.new]

/-- The errors of the services, which have integers for codes and no further messages. -/
def ofRelayError : RelayError → Option WorkerError
  | .jsonRpcError e =>
      some (.jsonRpcError ⟨some (.ofInt e.code), e.message, e.data.map JsonValue.string⟩)
  | .mirrorNodeClientError statusCode message =>
      some (.mirrorNodeClientError ⟨some (.ofInt statusCode), message, none, none, []⟩)
  | _ => none

/-- The services get the errors as they do where the pool is left out. -/
theorem ofRelayError_unwrapError {e : RelayError} {wrapped : WorkerError}
    (h : ofRelayError e = some wrapped) :
    ofRelayError (Common.unwrapError e) = some (unwrapError (some (wrapError wrapped))) := by
  cases e with
  | jsonRpcError e =>
    cases h
    have hstring : (fun s => (JsonValue.string s).plain) = JsonValue.string := rfl
    rw [unwrap_jsonRpcError]
    simp [Common.unwrapError, ofRelayError, Option.filter_some, Number.isFinite_ofInt,
      Function.comp_def, hstring]
  | mirrorNodeClientError statusCode message =>
    cases h
    rw [unwrap_mirrorNodeClientError]
    simp [Common.unwrapError, ofRelayError, Option.filter_some, Number.isFinite_ofInt]
  | sdkClientError e => cases h
  | error message => cases h

end RoundTrip

section Same

/-- What the public accessors return. -/
def MirrorNodeClientError.answers (e : MirrorNodeClientError) : String × List Bool :=
  (e.revertReason, [e.isTimeout, e.isContractRevert, e.isNotFound, e.isNotSupported, e.isEmpty,
    e.isRateLimit, e.isNotSupportedSystemContractOperaton, e.isFailInvalid,
    e.isInvalidTransaction])

/-- Both errors are of one class, with the same public properties and accessors. -/
def Same : WorkerError → WorkerError → Prop
  | .jsonRpcError e, .jsonRpcError e' =>
      e'.code = e.code ∧ e'.message = e.message ∧ e'.data = e.data
  | .mirrorNodeClientError e, .mirrorNodeClientError e' =>
      e'.statusCode = e.statusCode ∧ e'.message = e.message ∧ e'.data = e.data ∧
        e'.detail = e.detail ∧ e'.answers = e.answers
  | _, _ => False

/-- All numbers are finite, and the further messages say nothing. -/
def Transferable : WorkerError → Prop
  | .jsonRpcError e =>
      (∀ code ∈ e.code, code.isFinite = true) ∧ ∀ data ∈ e.data, data.value.AllFinite
  | .mirrorNodeClientError e =>
      (∀ statusCode ∈ e.statusCode, statusCode.isFinite = true) ∧
        ∀ child ∈ e.children, child.message = "" ∧ (child.detail = none ∨ child.detail = some "")

private theorem filter_isFinite_eq_self_iff {n : Option Number} :
    n.filter (·.isFinite) = n ↔ ∀ x ∈ n, x.isFinite = true := by
  cases n with
  | none => simp
  | some x => simp

private theorem map_plain_eq_self_iff {data : Option JsonValue} :
    data.map (·.plain) = data ↔ ∀ x ∈ data, x.value.AllFinite := by
  cases data with
  | none => simp
  | some x =>
    have hx : x.plain = x ↔ x.value.AllFinite :=
      JsonValue.ext_iff.trans (Json.plain_eq_self_iff x.value)
    simp [hx]

private theorem reason_eq_empty_iff {detail : Option String} {message : String} :
    MirrorNodeClientError.reason detail message = "" ↔
      message = "" ∧ (detail = none ∨ detail = some "") := by
  cases detail with
  | none => simp [MirrorNodeClientError.reason]
  | some s => by_cases hs : s = "" <;> simp [MirrorNodeClientError.reason, Option.filter_some, hs]

private theorem intercalate_eq_head_iff {text : String} {reasons : List String} :
    String.intercalate ", " (text :: reasons) = text ↔ reasons = [] := by
  cases reasons with
  | nil => simp
  | cons reason reasons =>
    rw [String.intercalate_cons_cons]
    simp only [reduceCtorEq, iff_false]
    intro h
    have hlength := congrArg String.length h
    have hseparator : ", ".length = 2 := rfl
    simp only [String.length_append] at hlength
    omega

/-- The reasons of the further messages make the text longer. -/
theorem revertReason_eq_iff {e : MirrorNodeClientError} :
    { e with children := [] }.revertReason = e.revertReason ↔
      ∀ child ∈ e.children, child.message = "" ∧ (child.detail = none ∨ child.detail = some "") := by
  simp only [MirrorNodeClientError.revertReason, List.map_nil, List.filter_nil,
    String.intercalate_singleton]
  rw [eq_comm, intercalate_eq_head_iff]
  simp [List.filter_eq_nil_iff, reason_eq_empty_iff]

end Same

/-- An error is the same behind the pool exactly if its numbers are finite and none of its further
messages gives a reason. -/
theorem same_unwrapError_iff (e : WorkerError) :
    Same e (unwrapError (some (wrapError e))) ↔ Transferable e := by
  cases e with
  | jsonRpcError e =>
    rw [unwrap_jsonRpcError, Same, Transferable, filter_isFinite_eq_self_iff, map_plain_eq_self_iff]
    simp
  | mirrorNodeClientError e =>
    rw [unwrap_mirrorNodeClientError, Same, Transferable]
    constructor
    · intro ⟨hstatus, _, _, _, hanswers⟩
      exact ⟨filter_isFinite_eq_self_iff.mp hstatus,
        revertReason_eq_iff.mp (congrArg Prod.fst hanswers)⟩
    · intro ⟨hstatus, hchildren⟩
      rw [filter_isFinite_eq_self_iff.mpr hstatus]
      refine ⟨rfl, rfl, rfl, rfl, ?_⟩
      rw [MirrorNodeClientError.answers, revertReason_eq_iff.mpr hchildren]
      rfl

/-- The web3 module reports a revert with a further message, which is lost. -/
theorem further_message_lost :
    ¬Same (.mirrorNodeClientError (.new
        ⟨none, [⟨"CONTRACT_REVERT_EXECUTED", none, none⟩, ⟨"INVALID_ALIAS_KEY", none, none⟩]⟩
        (some (.ofInt 400))))
      (unwrapError (some (wrapError (.mirrorNodeClientError (.new
        ⟨none, [⟨"CONTRACT_REVERT_EXECUTED", none, none⟩, ⟨"INVALID_ALIAS_KEY", none, none⟩]⟩
        (some (.ofInt 400))))))) := by
  rw [unwrap_mirrorNodeClientError]
  intro h
  have hreason := congrArg Prod.fst h.2.2.2.2
  revert hreason
  decide

end JsonRpcRelay.Workers

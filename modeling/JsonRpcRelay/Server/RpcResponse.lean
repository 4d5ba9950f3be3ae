import JsonRpcRelay.Errors
import JsonRpcRelay.Framework.Json
import JsonRpcRelay.Framework.Traversal

/-!
# Responses of the servers

The builders of responses, which throw if the id of the request is none that a response may
carry.  The value of a property is `none` if the property is missing.
-/

namespace JsonRpcRelay.Server

open Framework

/-- What is thrown, with its message if it has one. -/
structure Thrown where
  message : Option String
  deriving DecidableEq

def TypeError (message : String) : Thrown := ⟨some message⟩

/-- The ids that a response may carry. -/
inductive ResponseId where
  | null
  | string (s : String)
  | number (x : Number)
  deriving DecidableEq

structure IJsonRpcError where
  code : ℤ
  message : String
  data : Option Json

structure IJsonRpcResponse where
  id : ResponseId
  outcome : Except IJsonRpcError Json

def ofJsonRpcError (e : JsonRpcError) : IJsonRpcError := ⟨e.code, e.message, e.data.map .string⟩

/-- `typeof`. -/
def typeof : Option Json → String
  | none => "undefined"
  | some (.bool _) => "boolean"
  | some (.number _) => "number"
  | some (.string _) => "string"
  | some .null | some (.array _) | some (.object _) => "object"

def responseId : Option Json → Option ResponseId
  | some .null => some .null
  | some (.string s) => some (.string s)
  | some (.number x) => some (.number x)
  | _ => none

def checkId (id : Option Json) : Except Thrown ResponseId :=
  match responseId id with
  | some id => .ok id
  | none => .error (TypeError ("Invalid id type " ++ typeof id))

def jsonRespResult (id result : Option Json) : Except Thrown IJsonRpcResponse :=
  match checkId id with
  | .error e => .error e
  | .ok id =>
      match result with
      | none => .error ⟨some "Missing result"⟩
      | some result => .ok ⟨id, .ok result⟩

/-- The code of an error is a number and its message a string by their types. -/
def jsonRespError (id : Option Json) (error : IJsonRpcError) (requestId : String) :
    Except Thrown IJsonRpcResponse :=
  match checkId id with
  | .error e => .error e
  | .ok id =>
      .ok ⟨id, .error
        { error with message := "[Request ID: " ++ requestId ++ "] " ++ error.message }⟩

namespace spec

def ParseError : IJsonRpcError := ⟨-32700, "Parse error", none⟩

def InvalidRequest : IJsonRpcError := ⟨-32600, "Invalid Request", none⟩

def MethodNotFound (methodName : String) : IJsonRpcError :=
  ⟨-32601, "Method " ++ methodName ++ " not found", none⟩

def InternalError (err : Thrown) : IJsonRpcError :=
  ⟨-32603, err.message.getD "Internal error", none⟩

def IPRateLimitExceeded (methodName : String) : IJsonRpcError :=
  ⟨-32605, "IP Rate limit exceeded on " ++ methodName, none⟩

def BatchRequestsMethodNotPermitted (method : String) : IJsonRpcError :=
  ⟨-32007, "Method " ++ method ++ " is not permitted as part of batch requests", none⟩

end spec

/-- `Promise.all`: the values in the order of the promises, unless one of them is rejected. -/
def promiseAll {α : Type} (promises : List (Except Thrown α)) : Except Thrown (List α) :=
  promises.mapM id

section Lemmas

variable {id result : Option Json} {error : IJsonRpcError} {requestId : String}

theorem jsonRespError_of_some {i : ResponseId} (h : responseId id = some i) :
    jsonRespError id error requestId = .ok ⟨i, .error
      { error with message := "[Request ID: " ++ requestId ++ "] " ++ error.message }⟩ := by
  simp [jsonRespError, checkId, h]

theorem jsonRespError_of_none (h : responseId id = none) :
    jsonRespError id error requestId = .error (TypeError ("Invalid id type " ++ typeof id)) := by
  simp [jsonRespError, checkId, h]

theorem jsonRespResult_of_some {i : ResponseId} {r : Json} (h : responseId id = some i) :
    jsonRespResult id (some r) = .ok ⟨i, .ok r⟩ := by
  simp [jsonRespResult, checkId, h]

private theorem jsonRespResult_of_none (h : responseId id = none) :
    jsonRespResult id result = .error (TypeError ("Invalid id type " ++ typeof id)) := by
  simp [jsonRespResult, checkId, h]

theorem jsonRespError_id {r : IJsonRpcResponse} (h : jsonRespError id error requestId = .ok r) :
    responseId id = some r.id := by
  cases hid : responseId id with
  | none =>
    rw [jsonRespError_of_none hid] at h
    cases h
  | some i =>
    rw [jsonRespError_of_some hid] at h
    obtain rfl := Except.ok.inj h
    rfl

theorem jsonRespResult_id {r : IJsonRpcResponse} (h : jsonRespResult id result = .ok r) :
    responseId id = some r.id := by
  cases hid : responseId id with
  | none =>
    rw [jsonRespResult_of_none hid] at h
    cases h
  | some i =>
    cases result with
    | none => simp [jsonRespResult, checkId, hid] at h
    | some result =>
      rw [jsonRespResult_of_some hid] at h
      obtain rfl := Except.ok.inj h
      rfl

theorem promiseAll_ok_iff {α : Type} {promises : List (Except Thrown α)} {values : List α} :
    promiseAll promises = .ok values ↔ promises = values.map .ok := by
  rw [promiseAll, mapM_ok_iff, List.map_id]

theorem promiseAll_mapIdx {α β : Type} {f : ℕ → β → Except Thrown α} {l : List β}
    {values : Fin l.length → α} (h : ∀ i : Fin l.length, f i l[i] = .ok (values i)) :
    promiseAll (l.mapIdx f) = .ok (List.ofFn values) := by
  rw [promiseAll_ok_iff]
  apply List.ext_getElem
  · simp
  · intro i hi _
    rw [List.length_mapIdx] at hi
    simpa using h ⟨i, hi⟩

theorem promiseAll_mapIdx_iff {α β : Type} {f : ℕ → β → Except Thrown α} {l : List β}
    {P : ℕ → β → α → Prop} :
    (∃ values, promiseAll (l.mapIdx f) = .ok values ∧ values.length = l.length ∧
      ∀ i x v, l[i]? = some x → values[i]? = some v → f i x = .ok v ∧ P i x v) ↔
    ∀ i x, l[i]? = some x → ∃ v, f i x = .ok v ∧ P i x v := by
  constructor
  · rintro ⟨values, _, hlength, hall⟩ i x hx
    obtain ⟨hi, rfl⟩ := List.getElem?_eq_some_iff.mp hx
    have hi' : i < values.length := by omega
    exact ⟨values[i], hall i l[i] values[i] hx (List.getElem?_eq_getElem hi')⟩
  · intro hall
    have hvalue : ∀ i : Fin l.length, ∃ v, f i l[i] = .ok v ∧ P i l[i] v :=
      fun i => hall i l[i] (List.getElem?_eq_getElem i.isLt)
    choose value hvalue using hvalue
    refine ⟨List.ofFn value, promiseAll_mapIdx fun i => (hvalue i).1, List.length_ofFn, ?_⟩
    intro i x v hx hv
    obtain ⟨hi, rfl⟩ := List.getElem?_eq_some_iff.mp hx
    rw [List.getElem?_ofFn, dif_pos hi] at hv
    obtain rfl := Option.some.inj hv
    exact hvalue ⟨i, hi⟩

end Lemmas

end JsonRpcRelay.Server

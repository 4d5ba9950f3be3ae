import JsonRpcRelay.Dispatcher.RpcMethodRegistry
import JsonRpcRelay.Framework.JsonReader
import JsonRpcRelay.Validators.Rejected

/-!
# Parameters that are no array

The parameters of a request may be any value.  Their length is compared and their items are read
where it is no array, too: a text has its characters, an object may have properties of these names,
and only `null` has none that can be asked for.
-/

namespace JsonRpcRelay.Framework

section Comparisons

def Decimal.exceeds (d : Decimal) (n : ℕ) : Bool :=
  !d.negative && n * 10 ^ (d.digits.length - d.point).toNat <
    Nat.ofDigitChars 10 d.digits 0 * 10 ^ (d.point - d.digits.length).toNat

/-- `x > n`. -/
def Number.exceeds (n : ℕ) : Number → Bool
  | .nan | .zero | .infinity true => false
  | .infinity false => true
  | .decimal d => d.exceeds n

example : (Number.ofInt 70).exceeds 69 = true ∧ (Number.ofInt 70).exceeds 70 = false := by decide

end Comparisons

namespace Json

mutual

/-- Nothing within the value is an object with a `toString` of its own, so that a pattern can be
matched against every part of it. -/
def isTextual : Json → Bool
  | .array items => itemsTextual items
  | .object fields => (fields.lookup "toString").isNone && fieldsTextual fields
  | _ => true

def itemsTextual : List Json → Bool
  | [] => true
  | x :: xs => isTextual x && itemsTextual xs

def fieldsTextual : List (String × Json) → Bool
  | [] => true
  | (_, x) :: fields => isTextual x && fieldsTextual fields

end

end Json

end JsonRpcRelay.Framework

namespace JsonRpcRelay.Dispatcher

open Framework Validators Cache

section Model

/-- `params[index]`. -/
def itemOf (params : Json) (index : ℕ) : Option Json :=
  match params with
  | .array items => items[index]?
  | .string s => (Js.units s.toList)[index]?.map fun c => .string (String.singleton c)
  | .object fields => fields.lookup (toString index)
  | _ => none

variable (toNumber : Arg → Number)

/-- `params.length > count`, where a property `length` may be any value. -/
def isLongerThan (count : ℕ) : Json → Bool
  | .array items => count < items.length
  | .string s => count < (Js.units s.toList).length
  | .object fields => (fields.lookup "length").any fun x => (toNumber (.json x)).exceeds count
  | _ => false

/-- The parameters as the validation leaves them. -/
inductive Params where
  | listed (params : List Json)
  | other (params : Json) (item : ℕ → Option Json)

/-- `validateParams` for a value that is no array. -/
def validateOther (params : Json) (indexes : List IParamValidation) :
    Except JsonRpcError (ℕ → Option Json) :=
  if isLongerThan toNumber indexes.length params then .error predefined.INVALID_PARAMETERS
  else do
    let left ← indexes.zipIdx.mapM fun validation =>
      validateParam (toString validation.2) (itemOf params validation.2) validation.1
    return fun index => left.getD index (itemOf params index)

def OperationHandler.prechecked (method : OperationHandler) :
    (rpcMethodParams : Json) → Except RelayError Params
  | .array params => ((method.validated params).mapError .jsonRpcError).map .listed
  | params =>
    match method.rules with
    | none => .ok (.other params (itemOf params))
    | some rules =>
      if params.isNull then .error (.error "Cannot read properties of null (reading 'length')")
      else ((validateOther toNumber params rules).mapError .jsonRpcError).map (.other params)

/-- An item as an argument. -/
def Pick.other (item : ℕ → Option Json) : Pick → Arg
  | .param index => (item index).elim .undefined .json
  | .numberOf index => .json (.number (toNumber ((item index).elim .undefined .json)))

/-- `arrangeRpcParams`, which reads the items of the parameters or iterates over them. -/
def arrange (method : OperationHandler) : Params → Except RelayError (List Arg)
  | .listed params => .ok (arrangeRpcParams toNumber method params)
  | .other params item =>
    match method.layout with
    | .requestDetailsOnly => .ok [.requestDetails]
    | .custom picks =>
      if params.isNull then .error (.error "Cannot read properties of null (reading '0')")
      else .ok (picks.map (·.other toNumber item) ++ [.requestDetails])
    | .standard =>
      match params with
      | .string s => .ok (s.toList.map (fun c => .json (.string (String.singleton c))) ++
          [.requestDetails])
      | _ => .error (.error "rpcParams is not iterable")

end Model

section Rejection

variable {toNumber : Arg → Number} {method : OperationHandler}

private theorem fails_validateOther {rules : List IParamValidation}
    (h : ∀ rule ∈ rules, rule.type.Reports)
    (params : Json) : Fails IsInvalidParams (validateOther toNumber params rules) := by
  unfold validateOther
  split
  · exact fails_error rfl
  · refine Fails.bind (Fails.mapM fun entry hmem => ?_) fun _ => fails_ok
    exact fails_validateParam (h entry.1 (List.fst_mem_of_mem_zipIdx hmem)) _ _

private theorem of_mapError_map {α β : Type} {x : Except JsonRpcError α} {f : α → β}
    {e : JsonRpcError}
    (h : (x.mapError RelayError.jsonRpcError).map f = .error (.jsonRpcError e)) : x = .error e := by
  cases x with
  | ok a => cases h
  | error e' =>
    cases h
    rfl

/-- The rules of a method, if it has any, know nothing but invalid parameters. -/
def OperationHandler.Reports (method : OperationHandler) : Prop :=
  ∀ rules, method.rules = some rules → ∀ rule ∈ rules, rule.type.Reports

theorem OperationHandler.Reports.isInvalidParams (h : method.Reports) {params : Json}
    {e : JsonRpcError} (hprechecked : method.prechecked toNumber params = .error (.jsonRpcError e)) :
    IsInvalidParams e := by
  unfold prechecked at hprechecked
  split at hprechecked
  · rename_i params
    have hvalidated := of_mapError_map hprechecked
    unfold validated at hvalidated
    split at hvalidated
    · cases hvalidated
    · exact fails_validateParams (h _ ‹_›) params e hvalidated
  · split at hprechecked
    · cases hprechecked
    · split at hprechecked
      · cases hprechecked
      · exact fails_validateOther (h _ ‹_›) params e (of_mapError_map hprechecked)

end Rejection

end JsonRpcRelay.Dispatcher

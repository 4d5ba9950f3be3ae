import JsonRpcRelay.Framework.Traversal
import JsonRpcRelay.Validators.ObjectTypes

/-!
# Rejected parameters

Parameters that do not pass are reported as invalid, whichever test they fail.
-/

namespace JsonRpcRelay.Validators

open Framework predefined

def IsInvalidParams (e : JsonRpcError) : Prop := e.code = -32602

/-- The test of the type fails with nothing but invalid parameters. -/
def IType.Reports (type : IType) : Prop := ∀ x, Fails IsInvalidParams (type.test x)

private theorem fails_validateObject (object : Json) (schema : IObjectSchema) :
    Fails IsInvalidParams (validateObject object schema) := by
  refine Fails.bind (Fails.forM fun property _ => ?_) fun _ => fails_ok
  unfold validateProperty
  dsimp only
  split
  · exact fails_error rfl
  · split
    · exact fails_ok
    · split
      · exact fails_ok
      · exact fails_error rfl

private theorem fails_validateSchema (schema : IObjectSchema) (object : Json) :
    Fails IsInvalidParams (validateSchema schema object) := by
  unfold validateSchema
  split
  · exact fails_error rfl
  · exact fails_validateObject object schema

theorem reports_plain (test : Json → Bool) (error : String) : (IType.plain test error).Reports :=
  fun _ => fails_ok

theorem reports_blockParams : TYPES.blockParams.Reports := by
  intro x
  unfold TYPES.blockParams
  dsimp only
  split
  · split
    · exact fails_validateSchema _ _
    · exact fails_validateSchema _ _
  · exact fails_ok

theorem reports_filter : TYPES.filter.Reports := by
  intro x
  unfold TYPES.filter
  dsimp only
  split
  · split
    · exact fails_error rfl
    · exact fails_validateSchema _ _
  · exact fails_ok

theorem reports_transaction : TYPES.transaction.Reports := by
  intro x
  unfold TYPES.transaction
  dsimp only
  split
  · exact fails_validateSchema _ _
  · exact fails_ok

theorem reports_tracerConfigWrapper : TYPES.tracerConfigWrapper.Reports := by
  intro x
  unfold TYPES.tracerConfigWrapper
  dsimp only
  split
  · refine (fails_validateSchema _ _).bind fun valid => Fails.bind ?_ fun _ => fails_ok
    unfold checkTracerConfig
    dsimp only
    split_ifs
    · exact fails_error rfl
    · exact fails_error rfl
    · exact fails_error rfl
    · exact fails_error rfl
    · exact fails_ok
  · exact fails_ok

def ParamType.Reports : ParamType → Prop
  | .one type => type.Reports
  | .oneOf types => ∀ type ∈ types, type.Reports

theorem fails_validateParam {rule : IParamValidation} (h : rule.type.Reports) (index : String)
    (param : Option Json) : Fails IsInvalidParams (validateParam index param rule) := by
  unfold validateParam
  split
  · exact fails_error rfl
  · split
    · exact fails_ok
    · exact fails_error rfl
    · refine Fails.bind ?_ fun _ => fails_ok
      cases htype : rule.type with
      | one type =>
        rw [htype] at h
        refine (h _).bind fun passes => ?_
        split
        · exact fails_ok
        · exact fails_error rfl
      | oneOf types =>
        rw [htype] at h
        refine (Fails.mapM fun type hmem => h type hmem _).bind fun results => ?_
        split
        · exact fails_ok
        · exact fails_error rfl

theorem fails_validateParams {rules : List IParamValidation} (h : ∀ rule ∈ rules, rule.type.Reports)
    (params : List Json) : Fails IsInvalidParams (validateParams params rules) := by
  unfold validateParams
  split
  · exact fails_error rfl
  · refine Fails.bind (Fails.mapM fun entry hmem => ?_) fun _ => fails_ok
    exact fails_validateParam (h entry.1 (List.fst_mem_of_mem_zipIdx hmem)) _ _

end JsonRpcRelay.Validators

import JsonRpcRelay.Validators.Types

/-!
# Objects and the validation of parameters

An object is checked property by property against a schema, and the parameters of a method one
by one against its rules.
-/

namespace JsonRpcRelay.Validators

open Framework predefined
open Constants

structure IObjectParamSchema where
  type : IType
  nullable : Bool
  required : Bool := false

structure IObjectSchema where
  name : String
  properties : List (String × IObjectParamSchema)
  failOnEmpty : Bool := false
  failOnUnexpectedParams : Bool := false
  deleteUnknownProperties : Bool := false

section Schemas

/-- `Object.keys(object)`. -/
def objectKeys : Json → List String
  | .object fields => fields.map (·.1)
  | .array items => (List.range items.length).map toString
  | _ => []

/-- `typeof param === 'object'` for what is not `null`. -/
def isObjectOrArray : Json → Bool
  | .array _ | .object _ => true
  | _ => false

/-- Whether a value counts as true. -/
def isTruthy : Json → Bool
  | .null => false
  | .bool b => b
  | .number x => x ≠ .zero ∧ x ≠ .nan
  | .string s => s ≠ ""
  | .array _ | .object _ => true

def requiredIsMissing (param : Option Json) (required : Bool) : Bool := required && param.isNone

def isValidAndNonNullableParam (param : Option Json) (nullable : Bool) : Bool :=
  param.any fun x => !x.isNull || !nullable

/-- How a value that fails its test is shown. -/
def paramString : Json → String
  | .bool b => toString b
  | .number x => String.ofList x.text
  | .string s => s
  | param => param.stringify

def propertyName (property : String) (schema : IObjectSchema) : String :=
  "'" ++ property ++ "' for " ++ schema.name

def validateProperty (object : Json) (filters : IObjectSchema)
    (property : String × IObjectParamSchema) : Except JsonRpcError Unit :=
  let param := object.field? property.1
  let validation := property.2
  if requiredIsMissing param validation.required then
    .error (MISSING_REQUIRED_PARAMETER (propertyName property.1 filters))
  else
    match param.filter fun x => isValidAndNonNullableParam (some x) validation.nullable with
    | none => .ok ()
    | some x =>
        -- an error of the test is replaced by the one of the property
        match validation.type.test x with
        | .ok true => .ok ()
        | _ => .error (INVALID_PARAMETER (propertyName property.1 filters)
            (validation.type.error ++ ", value: " ++ paramString x))

def validateObject (object : Json) (filters : IObjectSchema) : Except JsonRpcError Bool := do
  filters.properties.forM (validateProperty object filters)
  return !filters.failOnEmpty || filters.properties.any fun p => (object.field? p.1).isSome

def IObjectSchema.isExpected (schema : IObjectSchema) (param : String) : Bool :=
  param ∈ schema.properties.map (·.1)

/-- The first unexpected property, which is only reported if its name is not empty. -/
def IObjectSchema.unknownParam (schema : IObjectSchema) (object : Json) : Option String :=
  if schema.failOnUnexpectedParams then
    ((objectKeys object).find? fun param => !schema.isExpected param).filter (· ≠ "")
  else none

def validateSchema (schema : IObjectSchema) (object : Json) : Except JsonRpcError Bool :=
  match schema.unknownParam object with
  | some unknownParam =>
      .error (INVALID_PARAMETER (propertyName unknownParam schema) "Unknown parameter")
  | none => validateObject object schema

/-- What `validateSchema` leaves of an object. -/
def IObjectSchema.left (schema : IObjectSchema) : Json → Json
  | .object fields =>
      if schema.deleteUnknownProperties then .object (fields.filter fun p => schema.isExpected p.1)
      else .object fields
  | object => object

end Schemas

namespace OBJECTS_VALIDATIONS

/-- An optional property that must not be `null`. -/
def optional (type : IType) : IObjectParamSchema := { type, nullable := false }

def blockHashObject : IObjectSchema where
  name := "BlockHashObject"
  failOnUnexpectedParams := true
  properties := [("blockHash", optional TYPES.blockHash)]

def blockNumberObject : IObjectSchema where
  name := "BlockNumberObject"
  failOnUnexpectedParams := true
  properties := [("blockNumber", optional TYPES.blockNumber)]

def filter : IObjectSchema where
  name := "FilterObject"
  failOnUnexpectedParams := true
  properties := [("blockHash", optional TYPES.blockHash), ("fromBlock", optional TYPES.blockNumber),
    ("toBlock", optional TYPES.blockNumber), ("address", optional TYPES.addressFilter),
    ("topics", optional TYPES.topics)]

def callTracerConfig : IObjectSchema where
  name := "CallTracerConfig"
  failOnEmpty := true
  properties := [("onlyTopCall", optional TYPES.boolean)]

def opcodeLoggerConfig : IObjectSchema where
  name := "OpcodeLoggerConfig"
  failOnEmpty := true
  properties := [("disableMemory", optional TYPES.boolean),
    ("enableMemory", optional TYPES.boolean), ("disableStack", optional TYPES.boolean),
    ("disableStorage", optional TYPES.boolean), ("fullStorage", optional TYPES.boolean)]

def transaction : IObjectSchema where
  name := "TransactionObject"
  deleteUnknownProperties := true
  properties := [("from", optional TYPES.address),
    ("to", { type := TYPES.address, nullable := true }), ("gas", optional TYPES.hex),
    ("gasPrice", optional TYPES.hex), ("maxPriorityFeePerGas", optional TYPES.hex),
    ("maxFeePerGas", optional TYPES.hex), ("value", optional TYPES.hex),
    ("data", { type := TYPES.hexEvenLength, nullable := true }), ("type", optional TYPES.hex),
    ("chainId", optional TYPES.hex), ("nonce", optional TYPES.hex), ("input", optional TYPES.hex),
    ("accessList", optional TYPES.array)]

end OBJECTS_VALIDATIONS

namespace TYPES

def callTracerConfig : IType where
  test param :=
    if isObjectOrArray param then validateSchema OBJECTS_VALIDATIONS.callTracerConfig param
    else .ok false
  error := "Expected CallTracerConfig"

def opcodeLoggerConfig : IType where
  test param :=
    if isObjectOrArray param then validateSchema OBJECTS_VALIDATIONS.opcodeLoggerConfig param
    else .ok false
  error := "Expected OpcodeLoggerConfig"

def tracerConfig : IType where
  test param :=
    if isObjectOrArray param then do
      let isValidCallTracerConfig ← callTracerConfig.test param
      let isValidOpcodeLoggerConfig ← opcodeLoggerConfig.test param
      return objectKeys param = [] || isValidCallTracerConfig || isValidOpcodeLoggerConfig
    else .ok false
  error := "Expected TracerConfig"

end TYPES

namespace OBJECTS_VALIDATIONS

def tracerConfigWrapper : IObjectSchema where
  name := "TracerConfigWrapper"
  failOnEmpty := true
  failOnUnexpectedParams := true
  properties := [("tracer", optional TYPES.tracerType),
    ("tracerConfig", optional TYPES.tracerConfig), ("enableMemory", optional TYPES.boolean),
    ("disableStack", optional TYPES.boolean), ("disableStorage", optional TYPES.boolean),
    ("fullStorage", optional TYPES.boolean)]

end OBJECTS_VALIDATIONS

section TracerConfig

open OBJECTS_VALIDATIONS

/-- Some property of the object is one of the schema. -/
def hasKeyOf (schema : IObjectSchema) (object : Option Json) : Bool :=
  object.any fun object => (objectKeys object).any schema.isExpected

/-- How the properties of a tracer may not go together. -/
def checkTracerConfig (tracer tracerConfig : Option Json) (hasTopLevelOpcodeLoggerKeys : Bool) :
    Except JsonRpcError Unit :=
  let isOpcodeLogger := tracer.any (isOneOf ["opcodeLogger"])
  if hasTopLevelOpcodeLoggerKeys && tracerConfig.isSome then
    .error (INVALID_PARAMETER "1" ("Cannot specify tracer config properties both at top level " ++
      "and in 'tracerConfig' for " ++ tracerConfigWrapper.name))
  else if hasTopLevelOpcodeLoggerKeys && tracer.any isTruthy then
    .error (INVALID_PARAMETER "1" ("Cannot specify tracer config properties at top level when " ++
      "'tracer' is explicitly set for " ++ tracerConfigWrapper.name))
  else if hasKeyOf callTracerConfig tracerConfig && isOpcodeLogger then
    .error (INVALID_PARAMETER "1" ("callTracer config properties for " ++
      tracerConfigWrapper.name ++ " are only valid when tracer=callTracer"))
  else if hasKeyOf opcodeLoggerConfig tracerConfig && !isOpcodeLogger then
    .error (INVALID_PARAMETER "1" ("opcodeLogger config properties for " ++
      tracerConfigWrapper.name ++ " are only valid when tracer=opcodeLogger"))
  else .ok ()

def validateTracerConfigWrapper (param : Json) : Except JsonRpcError Bool := do
  let valid ← validateSchema tracerConfigWrapper param
  checkTracerConfig (param.field? "tracer") ((param.field? "tracerConfig").filter isTruthy)
    (hasKeyOf opcodeLoggerConfig (some param))
  return valid

end TracerConfig

namespace TYPES

def isBlockParam (param : Json) : Bool :=
  isBlockParamText (String.ofList param.toText) || isOneOf blockTags param

def blockParams : IType where
  test
    | .object fields =>
        if (Json.object fields).field? "blockHash" |>.isSome then
          validateSchema OBJECTS_VALIDATIONS.blockHashObject (.object fields)
        else validateSchema OBJECTS_VALIDATIONS.blockNumberObject (.object fields)
    | param => .ok (isBlockParam param)
  error := BLOCK_PARAMS_ERROR

def filter : IType where
  test
    | .object fields =>
        let isSet (key : String) := ((Json.object fields).field? key).any isTruthy
        if isSet "blockHash" && (isSet "toBlock" || isSet "fromBlock") then
          .error (INVALID_PARAMETER "0" "Can't use both blockHash and toBlock/fromBlock")
        else validateSchema OBJECTS_VALIDATIONS.filter (.object fields)
    | _ => .ok false
  error := "Expected FilterObject"

def transaction : IType where
  test
    | .object fields => validateSchema OBJECTS_VALIDATIONS.transaction (.object fields)
    | _ => .ok false
  error := "Expected TransactionObject"
  left := OBJECTS_VALIDATIONS.transaction.left

def tracerConfigWrapper : IType where
  test param := if isObjectOrArray param then validateTracerConfigWrapper param else .ok false
  error := "Expected TracerConfigWrapper which contains a valid TracerType and/or TracerConfig"

end TYPES

section Parameters

inductive ParamType where
  | one (type : IType)
  | oneOf (types : List IType)

structure IParamValidation where
  type : ParamType
  required : Bool

def testOneOf (index : String) (param : Json) (types : List IType) : Except JsonRpcError Unit := do
  let results ← types.mapM (·.test param)
  if results.contains true then return ()
  else throw (INVALID_PARAMETER index ("The value passed is not valid: " ++
    String.ofList param.toText ++ ". " ++ String.intercalate " OR " (types.map (·.error))))

def testOne (index : String) (param : Json) (type : IType) : Except JsonRpcError Unit := do
  if ← type.test param then return ()
  else throw (INVALID_PARAMETER index (type.error ++ ", value: " ++ paramString param))

def ParamType.test (index : String) (param : Json) : ParamType → Except JsonRpcError Unit
  | .one type => testOne index param type
  | .oneOf types => testOneOf index param types

/-- What the validation leaves of a value. -/
def ParamType.left : ParamType → Json → Json
  | .one type, param => type.left param
  | .oneOf _, param => param

def validateParam (index : String) (param : Option Json) (validation : IParamValidation) :
    Except JsonRpcError (Option Json) :=
  if requiredIsMissing param validation.required then .error (MISSING_REQUIRED_PARAMETER index)
  else
    match param with
    | none => .ok none
    | some .null => .error (INVALID_PARAMETER index "The value passed is not valid: null.")
    | some param => do
        validation.type.test index param
        return some (validation.type.left param)

/-- The parameters as the validation leaves them. -/
def validateParams (params : List Json) (indexes : List IParamValidation) :
    Except JsonRpcError (List Json) :=
  if params.length > indexes.length then .error INVALID_PARAMETERS
  else do
    let left ← indexes.zipIdx.mapM fun validation =>
      validateParam (toString validation.2) params[validation.2]? validation.1
    return left.filterMap id

end Parameters

end JsonRpcRelay.Validators

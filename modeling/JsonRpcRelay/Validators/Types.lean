import JsonRpcRelay.Common.CommonService
import JsonRpcRelay.Framework.Json

/-!
# Types of parameters

What the validation takes for a value of a type.  Where a pattern is matched against a value
that is no string, the value is coerced to one.
-/

namespace JsonRpcRelay.Validators

open Framework Js
open Common.BlockParam (isBlockNumberText)

namespace Constants

def DEFAULT_HEX_ERROR : String := "Expected 0x prefixed hexadecimal value"

def EVEN_HEX_ERROR : String := DEFAULT_HEX_ERROR ++ " with even length"

def HASH_ERROR : String := "Expected 0x prefixed string representing the hash (32 bytes)"

def ADDRESS_ERROR : String := "Expected 0x prefixed string representing the address (20 bytes)"

def BLOCK_NUMBER_ERROR : String :=
  "Expected 0x prefixed hexadecimal block number, or the string \"latest\", \"earliest\" or " ++
    "\"pending\""

def BLOCK_PARAMS_ERROR : String :=
  "Expected " ++ HASH_ERROR ++ " in object, 0x prefixed hexadecimal block number, or the string " ++
    "\"latest\", \"earliest\" or \"pending\""

def BLOCK_HASH_ERROR : String := "Expected " ++ HASH_ERROR ++ " of a block"

def TRANSACTION_HASH_ERROR : String := "Expected " ++ HASH_ERROR ++ " of a transaction"

def TOPIC_HASH_ERROR : String := "Expected " ++ HASH_ERROR ++ " of a topic"

end Constants

open Constants

/-- A type with its test, the text of its error, and what the test leaves of a value. -/
structure IType where
  test : Json → Except JsonRpcError Bool
  error : String
  left : Json → Json := id

def IType.plain (test : Json → Bool) (error : String) : IType where
  test param := .ok (test param)
  error

section Patterns

/-- `/^0[xX]([1-9A-Fa-f]+[0-9A-Fa-f]{0,13}|0)$/` for a safe integer. -/
def isBlockParamText (text : String) : Bool :=
  match text.toList with
  | '0' :: x :: digits =>
      (x = 'x' ∨ x = 'X') ∧ digits.all isHexDigit ∧ bigIntOfHex text < 2 ^ 53 ∧
        (digits = ['0'] ∨
          (digits.takeWhile (· ≠ '0') ≠ [] ∧ (digits.dropWhile (· ≠ '0')).length ≤ 13))
  | _ => false

def blockTags : List String := ["earliest", "latest", "pending", "finalized", "safe"]

/-- `array.includes(param)` for strings. -/
def isOneOf (values : List String) : Json → Bool
  | .string s => s ∈ values
  | _ => false

/-- `!(param.length % 2)`. -/
def hasEvenLength : Json → Bool
  | .string s => s.length % 2 = 0
  | .array items => items.length % 2 = 0
  | _ => true

/-- `param.flat()`. -/
def flat (items : List Json) : List Json :=
  items.flatMap fun
    | .array inner => inner
    | item => [item]

def isArray : Json → Bool
  | .array _ => true
  | _ => false

end Patterns

namespace TYPES

def isAddress (param : Json) : Bool := isBaseHex (· = 40) param.toText

def address : IType := .plain isAddress ADDRESS_ERROR

def addressFilter : IType :=
  .plain
    (fun
      | .array items => (flat items).all isAddress
      | param => isAddress param)
    (ADDRESS_ERROR ++ " or an array of addresses")

def array : IType := .plain isArray "Expected Array"

def blockHash : IType := .plain (fun param => isBaseHex (· = 64) param.toText) BLOCK_HASH_ERROR

def blockNumber : IType :=
  .plain (fun param => isBlockNumberText (String.ofList param.toText) || isOneOf blockTags param)
    BLOCK_NUMBER_ERROR

def boolean : IType :=
  .plain
    (fun
      | .bool _ => true
      | _ => false)
    "Expected boolean type"

def hex : IType := .plain (fun param => isBaseHex (fun _ => true) param.toText) DEFAULT_HEX_ERROR

def hexEvenLength : IType :=
  .plain (fun param => isBaseHex (fun _ => true) param.toText && hasEvenLength param) EVEN_HEX_ERROR

def hex64 : IType :=
  .plain (fun param => isBaseHex (fun n => 1 ≤ n ∧ n ≤ 64) param.toText) HASH_ERROR

def isTopicHash (param : Json) : Bool := isBaseHex (· = 64) param.toText || param.isNull

def topics : IType :=
  .plain
    (fun
      | .array items => (flat items).all isTopicHash
      | _ => false)
    ("Expected an array or array of arrays containing " ++ HASH_ERROR ++ " of a topic")

def transactionHash : IType :=
  .plain (fun param => isBaseHex (· = 64) param.toText) TRANSACTION_HASH_ERROR

def tracerType : IType :=
  .plain (isOneOf ["callTracer", "opcodeLogger", "prestateTracer"]) "Expected TracerType"

def stateOverride : IType :=
  .plain
    (fun
      | .null | .object _ => true
      | _ => false)
    "Expected StateOverride object (currently accepting any object structure)"

end TYPES

end JsonRpcRelay.Validators

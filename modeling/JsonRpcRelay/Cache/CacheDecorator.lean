import JsonRpcRelay.Constants
import JsonRpcRelay.Framework.Json

/-!
# The cache decorator

A cached method answers from the cache where it can, and stores its result unless one of its
arguments tells it not to.
-/

namespace JsonRpcRelay.Cache

open constants Framework

/-- An argument of a method: a parameter of the request, or the details that come with it. -/
inductive Arg where
  | undefined
  | json (x : Json)
  | requestDetails

structure CacheSingleParam where
  index : ℕ
  value : String

structure CacheNamedParam where
  name : String
  value : String

structure CacheNamedParams where
  index : ℕ
  fields : List CacheNamedParam

structure CacheOptions where
  skipParams : List CacheSingleParam := []
  skipNamedParams : List CacheNamedParams := []

/-- `value.split('|')`. -/
def splitValues (value : String) : List String :=
  (value.toList.splitOn '|').map String.ofList

/-- The argument is one of the strings. -/
def Arg.isOneOf (values : List String) : Arg → Bool
  | .json (.string s) => s ∈ values
  | _ => false

def Arg.isUndefined : Option Arg → Bool
  | none | some .undefined => true
  | _ => false

def shouldSkipCachingForSingleParams (args : List Arg) (params : List CacheSingleParam) : Bool :=
  params.any fun item =>
    args[item.index]?.any (·.isOneOf (splitValues item.value)) || Arg.isUndefined args[item.index]?

/-- `input[key]`. -/
def Arg.property (key : String) : Arg → Arg
  | .json x => (x.field? key).elim .undefined .json
  | _ => .undefined

def shouldSkipCachingForNamedParams (args : List Arg) (params : List CacheNamedParams) : Bool :=
  params.any fun param => param.fields.any fun field =>
    args[param.index]?.any fun input =>
      (input.property field.name).isOneOf (splitValues field.value)

/-- What an argument adds to the key. -/
def Arg.keyPart : Arg → List Char
  | .undefined => '_' :: "undefined".toList
  | .json (.array items) => '_' :: (Json.array items).text
  | .json (.object fields) => '_' :: (Json.object fields).text
  | .json x => '_' :: x.toText
  | .requestDetails => []

def generateCacheKey (methodName : String) (args : List Arg) : String :=
  String.ofList (methodName.toList ++ args.flatMap Arg.keyPart)

/-- Whether a result that counts as true or not is stored. -/
def shouldStore (options : CacheOptions) (args : List Arg) (isTruthy : Bool) : Bool :=
  isTruthy && !shouldSkipCachingForSingleParams args options.skipParams &&
    !shouldSkipCachingForNamedParams args options.skipNamedParams

example : generateCacheKey "getBlockByNumber"
    [.json (.string "0x160c"), .json (.bool false), .requestDetails] =
      "getBlockByNumber_0x160c_false" := by decide

end JsonRpcRelay.Cache

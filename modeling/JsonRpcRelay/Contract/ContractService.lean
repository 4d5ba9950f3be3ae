import JsonRpcRelay.Validators.ObjectTypes

/-!
# The contract service

Calls of contracts, their code and their storage, at a block that is named in one of the ways
of the interface.
-/

namespace JsonRpcRelay

open constants Js

/-- The message of a revert is taken from its reason, else from its data. -/
def predefined.CONTRACT_REVERT (errorMessage data : String) : JsonRpcError where
  code := 3
  message :=
    if errorMessage ≠ "" then "execution reverted: " ++ decodeErrorMessage errorMessage
    else if decodeErrorMessage data ≠ "" then "execution reverted: " ++ decodeErrorMessage data
    else "execution reverted"
  data := some data

namespace Contract

open Framework Mirror Common Validators

/-- An error of the mirror node, with the detail and the data that it may come with and the
texts of the further messages. -/
structure MirrorNodeClientError where
  statusCode : ℕ
  message : String
  detail : Option String := none
  data : Option String := none
  children : List String := []
  deriving DecidableEq

namespace MirrorNodeClientError

variable (e : MirrorNodeClientError)

/-- `this.detail || this.message`. -/
def text : String := (e.detail.filter (· ≠ "")).getD e.message

def revertReason : String := String.intercalate ", " (e.text :: e.children.filter (· ≠ ""))

def isContractRevert : Bool := e.message = "CONTRACT_REVERT_EXECUTED"

def isFailInvalid : Bool := e.message = "FAIL_INVALID"

def isInvalidTransaction : Bool := e.message = "INVALID_TRANSACTION"

end MirrorNodeClientError

/-- A property that may be missing or `null`. -/
inductive Nullable where
  | undefined
  | null
  | text (s : String)
  deriving DecidableEq

/-- A call as the validation leaves it.  The service passes on the properties that it does not
look at. -/
structure IContractCallRequest where
  toAddress : Nullable := .undefined
  fromAddress : Option String := none
  gas : Option String := none
  gasPrice : Option String := none
  value : Option String := none
  data : Nullable := .undefined
  input : Option String := none
  others : List (String × Json) := []

/-- What is sent to the mirror node, where `NaN` is `some none`. -/
structure CallData where
  block : Option Json
  toAddress : Nullable
  fromAddress : Option String
  gas : Option (Option ℤ)
  gasPrice : Option (Option ℤ)
  value : Option ℕ
  data : Nullable
  input : Option String
  others : List (String × Json)

/-- How a request for a call may fail. -/
inductive CallError where
  | jsonRpcError (e : JsonRpcError)
  | mirrorNodeClientError (e : MirrorNodeClientError)
  | error (message : String)
  deriving DecidableEq

/-- An error may be returned in place of the data. -/
inductive CallResult where
  | hex (s : String)
  | error (e : JsonRpcError)
  deriving DecidableEq

/-- An entity with code. -/
structure CodeEntity where
  type : EntityType
  createdTimestamp : Option Timestamp
  runtimeBytecode : String
  deriving DecidableEq

/-- The account that pays for the calls of the relay. -/
structure Operator where
  isHexEcdsa : Bool
  publicKeyAddress : Option String
  accountId : Option String

/-- The further requests to the mirror node.  A call is answered by a result if there is one. -/
structure ContractClient (m : Type → Type) where
  postContractCall : CallData → m (Except CallError (Option String))
  getEvmAddress : String → m (Option String)
  resolveEntityType : String → List EntityType → m (Option CodeEntity)
  getContractStateByAddressAndSlot : String → String → Option Timestamp → m (Option (List String))

section BlockParam

variable {m : Type → Type} [Monad m] [MonadExceptOf RelayError m] (mirror : MirrorNodeClient m)

def isBlockHash (blockHash : String) : Bool := isBaseHex (· = 64) blockHash.toList

/-- A hash that is given as something else than a string is coerced to one. -/
def getBlockNumberFromHash (blockHash : Json) : m String := do
  match ← mirror.getBlock .fromBlock (.hash (String.ofList blockHash.toText)) with
  | some block => return numberTo0x block.number
  | none => throw (.jsonRpcError (predefined.RESOURCE_NOT_FOUND
      ("Block Hash: '" ++ String.ofList blockHash.toText ++ "'")))

/-- A property that is neither missing nor `null`. -/
def property (key : String) (object : Json) : Option Json :=
  (object.field? key).filter fun x => !x.isNull

def extractBlockNumberOrTag (blockParam : Json) : m (Option Json) :=
  match blockParam with
  | .string s =>
      if s = "" then return none
      else if isBlockHash s then
        return some (.string (← getBlockNumberFromHash mirror (.string s)))
      else return some (.string s)
  | .array _ | .object _ =>
      match property "blockNumber" blockParam, property "blockHash" blockParam with
      | some blockNumber, _ => return some blockNumber
      | none, some blockHash =>
          return some (.string (← getBlockNumberFromHash mirror blockHash))
      | none, none =>
          throw (.jsonRpcError (predefined.INVALID_ARGUMENTS "neither block nor hash specified"))
  | _ => return none

end BlockParam

section Call

variable {m : Type → Type} [Monad m] [MonadExceptOf RelayError m]
variable (operator : Operator) (mirror : MirrorNodeClient m) (client : ContractClient m)

/-- `parseInt` of a text that is not empty. -/
def parsed (text : Option String) : Option (Option ℤ) :=
  (text.filter (· ≠ "")).map parseInt16

def getCappedBlockGasLimit (gasString : Option String) : Option (Option ℤ) :=
  (parsed gasString).map fun gas => gas.map (min · MAX_GAS_PER_SEC)

/-- The sender of a call that does not name one. -/
def operatorAddress : m (Option String) :=
  if operator.isHexEcdsa then return operator.publicKeyAddress
  else
    match operator.accountId with
    | none => throw (typeError "null" "toString")
    | some operatorId => client.getEvmAddress operatorId

/-- The value, the sender, the data and the input of a call in the form for the mirror node. -/
structure CallFormat where
  value : Option ℕ
  fromAddress : Option String
  data : Nullable
  input : Option String

def tinybarValue : Option String → m (Option ℕ)
  | none => return none
  | some value =>
      match weibarHexToTinyBarInt value with
      | .error e => throw e
      | .ok value => return some value

/-- A call with a value has a sender. -/
def sender (transaction : IContractCallRequest) (value : Option ℕ) : m (Option String) :=
  if transaction.fromAddress.all (· = "") && value.any (0 < ·) then operatorAddress operator client
  else return transaction.fromAddress

/-- The input is sent as the data, unless the data is explicitly empty. -/
def moveInput (transaction : IContractCallRequest) (value : Option ℕ)
    (fromAddress : Option String) : CallFormat :=
  match transaction.input.filter (· ≠ "") with
  | some input =>
      if transaction.data = .null ∨ transaction.data = .text "" then
        ⟨value, fromAddress, transaction.data, transaction.input⟩
      else ⟨value, fromAddress, .text input, none⟩
  | none => ⟨value, fromAddress, transaction.data, transaction.input⟩

def contractCallFormat (transaction : IContractCallRequest) : m CallFormat := do
  let value ← tinybarValue (transaction.value.filter (· ≠ ""))
  let fromAddress ← sender operator client transaction value
  return moveInput transaction value fromAddress

/-- A price of zero is not sent. -/
def formatGasPrice (gasPrice : Option String) : Option (Option ℤ) :=
  (parsed gasPrice).filter (· ≠ some 0)

def prepareMirrorNodeCallData (call : IContractCallRequest) (format : CallFormat)
    (block : Option Json) : CallData where
  block
  toAddress := call.toAddress
  fromAddress := format.fromAddress
  gas := getCappedBlockGasLimit call.gas
  gasPrice := formatGasPrice call.gasPrice
  value := format.value
  data := format.data
  input := format.input
  others := call.others

/-- `contractCallResponse?.result ? prepend0x(contractCallResponse.result) : EMPTY_HEX`. -/
def formatCallResponse (result : Option String) : String :=
  ((result.filter (· ≠ "")).map prepend0x).getD EMPTY_HEX

def handleMirrorNodeClientError (e : MirrorNodeClientError) : Except RelayError CallResult :=
  if e.isFailInvalid || e.isInvalidTransaction then .ok (.hex EMPTY_HEX)
  else if e.isContractRevert then
    .error (.jsonRpcError (predefined.CONTRACT_REVERT e.revertReason (e.data.getD "")))
  else if e.statusCode = 400 then
    .error (.jsonRpcError (predefined.COULD_NOT_SIMULATE_TRANSACTION e.text))
  else .error (.mirrorNodeClientError e.statusCode e.message)

def handleMirrorNodeError : CallError → Except RelayError CallResult
  | .jsonRpcError e => .ok (.error e)
  | .mirrorNodeClientError e => handleMirrorNodeClientError e
  | .error message => .ok (.error (predefined.INTERNAL_ERROR message))

/-- The result of a request for a call. -/
def callResult : Except CallError (Option String) → Except RelayError CallResult
  | .ok result => .ok (.hex (formatCallResponse result))
  | .error e => handleMirrorNodeError e

def callMirrorNode (callData : CallData) : m CallResult := do
  match callResult (← client.postContractCall callData) with
  | .ok result => return result
  | .error e => throw e

def checkAddress : Nullable → m Unit
  | .text address =>
      if address ≠ "" ∧ ¬isValidEthereumAddress address then
        throw (.jsonRpcError (predefined.INVALID_CONTRACT_ADDRESS address))
      else return ()
  | _ => return ()

/-- The part of `call` whose errors are caught. -/
def callUncaught (call : IContractCallRequest) (blockParam : Json) : m CallResult := do
  checkAddress call.toAddress
  let blockNumberOrTag ← extractBlockNumberOrTag mirror blockParam
  let format ← contractCallFormat operator client call
  callMirrorNode client (prepareMirrorNodeCallData call format blockNumberOrTag)

def call (call : IContractCallRequest) (blockParam : Json) : m CallResult :=
  tryCatch (callUncaught operator mirror client call blockParam)
    fun
      | .jsonRpcError e => throw (.jsonRpcError e)
      | .mirrorNodeClientError statusCode message =>
          throw (.mirrorNodeClientError statusCode message)
      | e => return .error (predefined.INTERNAL_ERROR e.message)

end Call

section State

variable {m : Type → Type} [Monad m] [MonadExceptOf RelayError m]
variable (config : CommonConfig) (mirror : MirrorNodeClient m) (client : ContractClient m)

/-- The text of a parameter. -/
def paramText : Option BlockParam → String
  | none => "undefined"
  | some .earliest => "earliest"
  | some .latest => "latest"
  | some .pending => "pending"
  | some .safe => "safe"
  | some .finalized => "finalized"
  | some (.hex text) | some (.hash text) => text
  | some (.number n) => toString n

def isBlockParamValid : Option BlockParam → Bool
  | some (.hex text) | some (.hash text) => isBlockParamText text
  | some (.number _) => false
  | _ => true

def redirectBytecodeAddressReplace (address : String) : String :=
  "0x" ++ "6080604052348015600f57600080fd5b506000610167905077618dc65e" ++ substringFrom address 2 ++
    "600052366000602037600080366018016008845af43d806000803e8160008114605857816000f35b816000" ++
    "fdfea2646970667358221220d8378feed472ba49a0005514ef7087017f707b45fb9bf56bb81bb93ff19a238b" ++
    "64736f6c634300080b0033"

/-- The code of an entity as of a block.  The timestamps are compared as doubles. -/
def codeAt (address : String) (block : Option MirrorNodeBlock) (entity : CodeEntity) : String :=
  match block with
  | none => EMPTY_HEX
  | some block =>
      if entity.createdTimestamp.any (timestampNumber · > timestampNumber block.timestampTo) then
        EMPTY_HEX
      else
        match entity.type with
        | .token => redirectBytecodeAddressReplace address
        | .contract => entity.runtimeBytecode
        | .account => EMPTY_HEX

def getCode (address : String) (blockNumber : Option BlockParam) : m String :=
  if !isBlockParamValid blockNumber then
    throw (.jsonRpcError (predefined.UNKNOWN_BLOCK
      ("The value passed is not a valid blockHash/blockNumber/blockTag value: " ++
        paramText blockNumber)))
  else if address = HTS_ADDRESS then return INVALID_EVM_INSTRUCTION
  else do
    match ← client.resolveEntityType address [.contract, .token] with
    | none => return EMPTY_HEX
    | some entity =>
        let blockInfo ← getHistoricalBlockResponse config mirror .fromBlock blockNumber
        return codeAt address blockInfo entity

/-- The first of the values found, and zero if there is none. -/
def slotValue (state : Option (List String)) : String :=
  ((state.getD []).head?).getD ZERO_HEX_32_BYTE

def slotAt (address slot : String) (block : Option MirrorNodeBlock) : m String := do
  let state ← tryCatch
    (client.getContractStateByAddressAndSlot address slot (block.map (·.timestampTo)))
    fun e => throw (genericErrorHandler e)
  return slotValue state

def getStorageAt (address slot : String) (blockNumberOrTagOrHash : Option BlockParam) :
    m String := do
  let blockResponse ←
    getHistoricalBlockResponse config mirror .fromBlock blockNumberOrTagOrHash false
  if !blockTagIsLatestOrPending blockNumberOrTagOrHash && blockResponse.isNone then
    throw (.jsonRpcError (predefined.RESOURCE_NOT_FOUND
      ("block '" ++ paramText blockNumberOrTagOrHash ++ "'.")))
  else slotAt client address slot blockResponse

end State

end Contract

end JsonRpcRelay

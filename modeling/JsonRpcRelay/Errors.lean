import Mathlib.Data.Int.Notation
import Mathlib.Data.Nat.Notation

/-!
# Errors

The errors of the relay with their codes and messages, and what its code may throw.
-/

namespace JsonRpcRelay

structure JsonRpcError where
  code : ℤ
  message : String
  data : Option String := none
  deriving DecidableEq

/-- The id of the failed transaction is empty if there is none. -/
structure SDKClientError where
  status : String
  message : String
  transactionId : String
  deriving DecidableEq

/-- What the code may throw. -/
inductive RelayError where
  | jsonRpcError (e : JsonRpcError)
  | sdkClientError (e : SDKClientError)
  | mirrorNodeClientError (statusCode : ℕ) (message : String)
  | error (message : String)
  deriving DecidableEq

def RelayError.message : RelayError → String
  | .jsonRpcError e => e.message
  | .sdkClientError e => e.message
  | .mirrorNodeClientError _ message => message
  | .error message => message

/-- A property of `null` or `undefined` is read. -/
def typeError (value property : String) : RelayError :=
  .error ("Cannot read properties of " ++ value ++ " (reading '" ++ property ++ "')")

namespace predefined

def INTERNAL_ERROR (message : String) : JsonRpcError where
  code := -32603
  message := if message = "" then "Unknown error invoking RPC" else "Error invoking RPC: " ++ message

def RESOURCE_NOT_FOUND (message : String) : JsonRpcError where
  code := -32001
  message := "Requested resource not found. " ++ message

def UNSUPPORTED_OPERATION (message : String) : JsonRpcError where
  code := -32610
  message := "Unsupported operation. " ++ message

def UNSUPPORTED_METHOD : JsonRpcError where
  code := -32601
  message := "Unsupported JSON-RPC method"

def NONCE_TOO_LOW (nonce currentNonce : ℕ) : JsonRpcError where
  code := 32001
  message := s!"Nonce too low. Provided nonce: {nonce}, current nonce: {currentNonce}"

def NONCE_TOO_HIGH (nonce currentNonce : ℕ) : JsonRpcError where
  code := 32002
  message := s!"Nonce too high. Provided nonce: {nonce}, current nonce: {currentNonce}"

def RECEIVER_SIGNATURE_ENABLED : JsonRpcError where
  code := -32000
  message := "Operation is not supported when receiver's signature is enabled."

def GAS_LIMIT_TOO_HIGH (gasLimit maxGas : String) : JsonRpcError where
  code := -32005
  message := "Transaction gas limit '" ++ gasLimit ++ "' exceeds max gas per sec limit '" ++
    maxGas ++ "'"

def GAS_LIMIT_TOO_LOW (gasLimit requiredGas : String) : JsonRpcError where
  code := -32003
  message := "Transaction gas limit provided '" ++ gasLimit ++
    "' is insufficient of intrinsic gas required '" ++ requiredGas ++ "'"

def GAS_PRICE_TOO_LOW (gasPrice minGasPrice : ℕ) : JsonRpcError where
  code := -32009
  message := s!"Gas price '{gasPrice}' is below configured minimum gas price '{minGasPrice}'"

def INSUFFICIENT_ACCOUNT_BALANCE : JsonRpcError where
  code := -32000
  message := "Insufficient funds for transfer"

def UNSUPPORTED_CHAIN_ID (requested current : String) : JsonRpcError where
  code := -32000
  message := "ChainId (" ++ requested ++ ") not supported. The correct chainId is " ++ current

def UNSUPPORTED_TRANSACTION_TYPE_3 : JsonRpcError where
  code := -32611
  message := "Unsupported transaction type: txType=3"

def VALUE_TOO_LOW : JsonRpcError where
  code := -32602
  message := "Value can't be non-zero and less than 10_000_000_000 wei which is 1 tinybar"

def NOT_YET_IMPLEMENTED : JsonRpcError where
  code := -32601
  message := "Not yet implemented"

def METHOD_NOT_FOUND (methodName : String) : JsonRpcError where
  code := -32601
  message := "Method " ++ methodName ++ " not found"

def TRANSACTION_SIZE_LIMIT_EXCEEDED (actualSize expectedSize : ℕ) : JsonRpcError where
  code := -32201
  message := s!"Oversized data: transaction size {actualSize}, transaction limit {expectedSize}"

def CALL_DATA_SIZE_LIMIT_EXCEEDED (actualSize expectedSize : ℕ) : JsonRpcError where
  code := -32201
  message :=
    s!"Oversized data: call data size {actualSize}, call data size limit {expectedSize}"

def CONSENSUS_NODE_ERROR (statusName : String) (statusCode : ℕ) (message : String) :
    JsonRpcError where
  code := -32000
  message := "Consensus node error: " ++ statusName ++ s!" ({statusCode}): " ++ message

def HBAR_RATE_LIMIT_EXCEEDED : JsonRpcError where
  code := -32606
  message := "HBAR Rate limit exceeded"

def REQUEST_TIMEOUT : JsonRpcError where
  code := -32010
  message := "Request timeout. Please try again."

def PAGINATION_MAX (count : ℕ) : JsonRpcError where
  code := -32011
  message := s!"Exceeded maximum mirror node pagination count: {count}"

def DEPENDENT_SERVICE_IMMATURE_RECORDS : JsonRpcError where
  code := -32015
  message := "Dependent service returned immature records"

def MAX_BLOCK_SIZE (count : ℕ) : JsonRpcError where
  code := -32000
  message := s!"Exceeded max transactions that can be returned in a block: {count}"

def INVALID_REQUEST : JsonRpcError where
  code := -32600
  message := "Invalid request"

def INVALID_PARAMETER (index message : String) : JsonRpcError where
  code := -32602
  message := "Invalid parameter " ++ index ++ ": " ++ message

def INVALID_PARAMETERS : JsonRpcError where
  code := -32602
  message := "Invalid params"

def MISSING_REQUIRED_PARAMETER (index : String) : JsonRpcError where
  code := -32602
  message := "Missing value for required parameter " ++ index

def INVALID_ARGUMENTS (message : String) : JsonRpcError where
  code := -32000
  message := "Invalid arguments: " ++ message

def INVALID_CONTRACT_ADDRESS (address : String) : JsonRpcError where
  code := -32012
  message := "Invalid Contract Address: " ++ address ++ "." ++ if address = "" then "" else
    s!" Expected length of 42 chars but was {address.length}."

def COULD_NOT_SIMULATE_TRANSACTION (errMessage : String) : JsonRpcError where
  code := -32000
  message := "Error occurred during transaction simulation: " ++ errMessage

def REQUEST_BEYOND_HEAD_BLOCK (requested latest : ℕ) : JsonRpcError where
  code := -32000
  message := s!"Request beyond head block: requested {requested}, head {latest}"

def UNKNOWN_BLOCK (msg : String) : JsonRpcError where
  code := -39012
  message := if msg = "" then "Unknown block" else msg

def MISSING_FROM_BLOCK_PARAM : JsonRpcError where
  code := -32011
  message := "Provided toBlock parameter without specifying fromBlock"

def RANGE_TOO_LARGE (blockRange : ℕ) : JsonRpcError where
  code := -32000
  message := s!"Exceeded maximum block range: {blockRange}"

def TIMESTAMP_RANGE_TOO_LARGE (fromBlock fromTimestamp toBlock toTimestamp : String) :
    JsonRpcError where
  code := -32004
  message :=
    "The provided fromBlock and toBlock contain timestamps that exceed the maximum allowed " ++
    "duration of 7 days (604800 seconds): fromBlock: " ++ fromBlock ++ " (" ++ fromTimestamp ++
    "), toBlock: " ++ toBlock ++ " (" ++ toTimestamp ++ ")"

def COULD_NOT_RETRIEVE_LATEST_BLOCK : JsonRpcError where
  code := -32607
  message := "Error encountered retrieving latest block"

def INVALID_BLOCK_RANGE : JsonRpcError where
  code := -39013
  message := "Invalid block range"

def FILTER_NOT_FOUND : JsonRpcError where
  code := -32001
  message := "Filter not found"

def MAX_SUBSCRIPTIONS : JsonRpcError where
  code := -32608
  message := "Exceeded maximum allowed subscriptions"

def BATCH_REQUESTS_DISABLED : JsonRpcError where
  code := -32202
  message := "Batch requests are disabled"

def BATCH_REQUESTS_AMOUNT_MAX_EXCEEDED (amount max : ℕ) : JsonRpcError where
  code := -32203
  message := s!"Batch request amount {amount} exceeds max {max}"

def WS_BATCH_REQUESTS_DISABLED : JsonRpcError where
  code := -32205
  message := "WS batch requests are disabled"

def WS_SUBSCRIPTIONS_DISABLED : JsonRpcError where
  code := -32207
  message := "WS Subscriptions are disabled"

end predefined

end JsonRpcRelay

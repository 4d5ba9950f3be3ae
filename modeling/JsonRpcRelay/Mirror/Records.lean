import Mathlib.Algebra.Group.Nat.Defs
import Mathlib.Data.Int.Notation
import Mathlib.Data.Nat.Notation

/-!
# Records of the mirror node

Blocks, contract results and logs as the mirror node returns them.  The records are mature:
the number of the block and the positions in it are present.  A timestamp counts the
nanoseconds; where the source takes `null` for an answer the field is an option.
-/

namespace JsonRpcRelay.Mirror

inductive EntityType where
  | contract
  | account
  | token
  deriving DecidableEq

/-- The types that are searched where the caller names none. -/
def allTypes : List EntityType := [.contract, .token, .account]

abbrev Timestamp := ℕ

/-- The part of a timestamp before the point. -/
def Timestamp.seconds (t : Timestamp) : ℕ := t / 10 ^ 9

/-- Seconds and nine digits behind the point. -/
def Timestamp.text (t : Timestamp) : String :=
  let nanos := toString (t % 10 ^ 9)
  toString t.seconds ++ "." ++ String.ofList (List.replicate (9 - nanos.length) '0') ++ nanos

structure MirrorNodeBlock where
  count : ℕ
  gasUsed : ℕ
  hash : String
  logsBloom : String
  number : ℕ
  previousHash : String
  size : Option ℤ
  timestampFrom : Timestamp
  timestampTo : Timestamp
  deriving DecidableEq

structure MirrorNodeContractResult where
  address : String
  amount : Option ℤ
  bloom : String
  callResult : String
  contractId : Option String
  createdContractIds : List String
  errorMessage : Option String
  fromAddress : String
  functionParameters : String
  gasLimit : Option ℕ
  gasUsed : Option ℕ
  toAddress : Option String
  hash : String
  blockHash : String
  blockNumber : ℕ
  result : String
  transactionIndex : ℕ
  status : String
  blockGasUsed : ℕ
  chainId : Option String
  gasPrice : Option String
  maxFeePerGas : Option String
  maxPriorityFeePerGas : Option String
  r : Option String
  s : Option String
  type : Option ℕ
  v : Option ℕ
  nonce : Option ℕ
  root : Option String
  deriving DecidableEq

structure MirrorNodeLog where
  address : String
  blockHash : String
  blockNumber : ℕ
  data : String
  index : ℕ
  timestamp : Timestamp
  topics : List String
  transactionHash : String
  transactionIndex : ℕ
  deriving DecidableEq

end JsonRpcRelay.Mirror

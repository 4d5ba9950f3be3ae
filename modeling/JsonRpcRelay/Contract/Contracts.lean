import JsonRpcRelay.Common.FixedChain
import JsonRpcRelay.Contract.ContractService

/-!
# The contracts behind the mirror node

What the mirror node answers about contracts while the chain stands still, and which of its
answers to calls stay the same when the chain goes on.
-/

namespace JsonRpcRelay.Contract

open constants Framework Mirror Common

section Blocks

/-- The number of the block that a text names to the mirror node. -/
def namedBlock (text : String) : Option ℕ :=
  if text = "earliest" then some 0
  else if isBaseHex (1 ≤ ·) text.toList then some (bigIntOfHex text)
  else none

/-- The block is named by a number up to the last one. -/
def isHistorical (chain : Chain) : Option Json → Bool
  | some (.string text) => (namedBlock text).any (· ≤ chain.head)
  | _ => false

variable {chain chain' : Chain} {text : String}

theorem isHistorical_of_extends {block : Option Json} (h : chain.Extends chain')
    (hblock : isHistorical chain block = true) : isHistorical chain' block = true := by
  match block, hblock with
  | some (.string text), hblock =>
    simp only [isHistorical, Option.any_eq_true, decide_eq_true_eq] at hblock ⊢
    obtain ⟨n, hn, hle⟩ := hblock
    exact ⟨n, hn, hle.trans h.head_le⟩

theorem namedBlock_numberTo0x (n : ℕ) : namedBlock (numberTo0x n) = some n := by
  have htext : numberTo0x n ≠ "earliest" := by
    intro h
    have hlist := congrArg String.toList h
    rw [toList_numberTo0x] at hlist
    exact absurd (List.cons_eq_cons.mp hlist).1 (by decide)
  have hhex : isBaseHex (1 ≤ ·) (numberTo0x n).toList = true := by
    rw [toList_numberTo0x, isBaseHex]
    have hlength := Nat.length_toDigits_pos (b := 16) (n := n)
    simp only [decide_eq_true_eq, List.all_eq_true, true_or, true_and]
    exact ⟨Js.isHexDigit_toDigits n, by omega⟩
  rw [namedBlock, if_neg htext, if_pos hhex, bigIntOfHex_numberTo0x]

end Blocks

/-- What the mirror node answers about contracts.  A call as of a block of the chain has the same
answer however the chain goes on. -/
structure Contracts where
  call : Chain → CallData → Except CallError (Option String)
  evmAddress : String → Option String
  entity : String → List EntityType → Option CodeEntity
  state : String → String → Option Timestamp → Option (List String)
  historical : ∀ (chain chain' : Chain) (data : CallData), chain.Extends chain' →
    isHistorical chain data.block = true → call chain' data = call chain data

/-- The mirror node with these contracts while the chain stands still. -/
def contractClient (contracts : Contracts) (chain : Chain) : ContractClient (Except RelayError) where
  postContractCall data := .ok (contracts.call chain data)
  getEvmAddress id := .ok (contracts.evmAddress id)
  resolveEntityType address types := .ok (contracts.entity address types)
  getContractStateByAddressAndSlot address slot timestamp :=
    .ok (contracts.state address slot timestamp)

section Calls

variable (operator : Operator) (contracts : Contracts) (chain : Chain)

/-- A call on a chain. -/
def callOn (request : IContractCallRequest) (blockParam : Json) : Except RelayError CallResult :=
  call operator (chainClient chain) (contractClient contracts chain) request blockParam

theorem getBlockNumberFromHash_chain (blockHash : Json) :
    getBlockNumberFromHash (chainClient chain) blockHash =
      match findBlock chain (.hash (String.ofList blockHash.toText)) with
      | some block => .ok (numberTo0x block.number)
      | none => .error (.jsonRpcError (predefined.RESOURCE_NOT_FOUND
          ("Block Hash: '" ++ String.ofList blockHash.toText ++ "'"))) := by
  unfold getBlockNumberFromHash
  show (match findBlock chain (.hash (String.ofList blockHash.toText)) with
    | some block => pure (numberTo0x block.number)
    | none => throw _ : Except RelayError String) = _
  cases findBlock chain (.hash (String.ofList blockHash.toText)) <;> rfl

end Calls

end JsonRpcRelay.Contract

import JsonRpcRelay.Contract.ContractService
import JsonRpcRelay.Validators.Accepted

/-!
# The parameters of `eth_getLogs` and `eth_call`

How the filter and the transaction of a request are read.  A property is a text where the object
has one; an array that is accepted in place of its only item is not read.
-/

namespace JsonRpcRelay.Contract

open Framework Common Validators

structure IGetLogsParams where
  blockHash : Option String
  fromBlock : Option BlockParam
  toBlock : Option BlockParam
  address : AddressFilter
  topics : Option (List TopicFilter)

section Read

/-- How a block parameter is told by its text. -/
def readBlockParam (text : String) : BlockParam :=
  if text = "earliest" then .earliest
  else if text = "latest" then .latest
  else if text = "pending" then .pending
  else if text = "safe" then .safe
  else if text = "finalized" then .finalized
  else if text.length < 32 then .hex text
  else .hash text

/-- A text or nothing. -/
def readText : Option Json → Option (Option String)
  | none => some none
  | some (.string s) => some (some s)
  | _ => none

def readString : Json → Option String
  | .string s => some s
  | _ => none

def readAddress : Option Json → Option AddressFilter
  | none => some .none
  | some (.string s) => some (.one s)
  | some (.array items) => (items.mapM readString).map .many
  | _ => none

def readNullable : Json → Option (Option String)
  | .null => some none
  | .string s => some (some s)
  | _ => none

def readTopic : Json → Option TopicFilter
  | .null => some .null
  | .string s => some (.one s)
  | .array items => (items.mapM readNullable).map .oneOf
  | _ => none

def readTopics : Option Json → Option (Option (List TopicFilter))
  | none => some none
  | some (.array items) => (items.mapM readTopic).map some
  | _ => none

def readFilter (params : Json) : Option IGetLogsParams := do
  let blockHash ← readText (params.field? "blockHash")
  let fromBlock ← readText (params.field? "fromBlock")
  let toBlock ← readText (params.field? "toBlock")
  let address ← readAddress (params.field? "address")
  let topics ← readTopics (params.field? "topics")
  return ⟨blockHash, fromBlock.map readBlockParam, toBlock.map readBlockParam, address, topics⟩

def readNullableText : Option Json → Option Nullable
  | none => some .undefined
  | some .null => some .null
  | some (.string s) => some (.text s)
  | _ => none

def callKeys : List String := ["to", "from", "gas", "gasPrice", "value", "data", "input"]

def readTransaction : Json → Option IContractCallRequest
  | .object fields => do
      let call := Json.object fields
      let toAddress ← readNullableText (call.field? "to")
      let fromAddress ← readText (call.field? "from")
      let gas ← readText (call.field? "gas")
      let gasPrice ← readText (call.field? "gasPrice")
      let value ← readText (call.field? "value")
      let data ← readNullableText (call.field? "data")
      let input ← readText (call.field? "input")
      let others := fields.filter fun p => p.1 ∉ callKeys
      return ⟨toAddress, fromAddress, gas, gasPrice, value, data, input, others⟩
  | _ => none

end Read

def getLogs {m : Type → Type} [Monad m] [MonadExceptOf RelayError m] (config : CommonConfig)
    (mirror : MirrorNodeClient m) (params : IGetLogsParams) : m (List Blocks.Log) :=
  Common.getLogs config mirror params.blockHash params.fromBlock params.toBlock params.address
    params.topics

section Accepted

variable {text : String} {params : Json} {p : IGetLogsParams}

private theorem readText_eq_some {x : Option Json} {o : Option String} (h : readText x = some o) :
    x = o.map .string := by
  match x, h with
  | none, h => rw [← Option.some.inj h]; rfl
  | some (.string s), h => rw [← Option.some.inj h]; rfl

/-- The properties that are read as texts. -/
theorem fields_of_readFilter (h : readFilter params = some p) :
    ∃ fromBlock toBlock : Option String, params.field? "blockHash" = p.blockHash.map .string ∧
      params.field? "fromBlock" = fromBlock.map .string ∧
      params.field? "toBlock" = toBlock.map .string ∧
      p.fromBlock = fromBlock.map readBlockParam ∧ p.toBlock = toBlock.map readBlockParam := by
  simp only [readFilter, Option.bind_eq_bind, Option.bind_eq_some_iff, Option.pure_def] at h
  obtain ⟨blockHash, hblockHash, fromBlock, hfromBlock, toBlock, htoBlock, _, _, _, _, hp⟩ := h
  obtain rfl := Option.some.inj hp
  exact ⟨fromBlock, toBlock, readText_eq_some hblockHash, readText_eq_some hfromBlock,
    readText_eq_some htoBlock, rfl, rfl⟩

theorem length_of_isBlockNumberText (h : BlockParam.isBlockNumberText text = true) :
    text.length ≤ 16 ∧ ∃ x digits, text.toList = '0' :: x :: digits := by
  unfold BlockParam.isBlockNumberText at h
  split at h
  · rename_i x digits heq
    simp only [decide_eq_true_eq] at h
    refine ⟨?_, x, digits, heq⟩
    rw [← String.length_toList, heq]
    simp only [List.length_cons]
    omega
  · cases h

theorem isBlockNumber_readBlockParam (h : TYPES.blockNumber.test (.string text) = .ok true) :
    (readBlockParam text).isBlockNumber = true := by
  simp only [TYPES.blockNumber, IType.plain, Except.ok.injEq, Json.toText_string, String.ofList_toList,
    Bool.or_eq_true] at h
  cases h with
  | inl h =>
    obtain ⟨hlength, x, digits, htext⟩ := length_of_isBlockNumberText h
    have hne (tag : String) (htag : tag.toList.head? ≠ some '0') : text ≠ tag := by
      rintro rfl
      rw [htext] at htag
      exact htag rfl
    have hshort : text.length < 32 := by omega
    simp only [readBlockParam, hne "earliest" (by decide), hne "latest" (by decide),
      hne "pending" (by decide), hne "safe" (by decide), hne "finalized" (by decide), hshort,
      if_true, if_false]
    exact h
  | inr h =>
    have htags : ∀ tag ∈ blockTags, (readBlockParam tag).isBlockNumber = true := by decide
    exact htags text (of_decide_eq_true h)

end Accepted

end JsonRpcRelay.Contract

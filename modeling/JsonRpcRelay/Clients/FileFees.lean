import JsonRpcRelay.Clients.SdkClient
import JsonRpcRelay.Framework.Chunks
import Mathlib.Algebra.Order.Floor.Ring
import Mathlib.Algebra.Order.Round
import Mathlib.Data.Rat.Floor
import Mathlib.Tactic.LinearCombination
import Mathlib.Tactic.NormNum
import Mathlib.Tactic.Ring

/-!
# The fees of the file transactions

The estimate that the limiter gets before a file is created, and the fees of the transactions
that are then sent.  Amounts are exact: an exchange rate of zero, which makes every amount
infinite, gives zero here.
-/

namespace JsonRpcRelay.Clients

open Framework

namespace NETWORK_FEES_IN_CENTS

def FILE_CREATE_PER_5_KB : ℚ := 951 / 100

def FILE_APPEND_PER_5_KB : ℚ := 955 / 100

def FILE_APPEND_BASE_FEE : ℚ := 39 / 10

def FILE_APPEND_RATE_PER_BYTE : ℚ := 11 / 10000

end NETWORK_FEES_IN_CENTS

open NETWORK_FEES_IN_CENTS

def HBAR_TO_TINYBAR_COEF : ℚ := 100000000

section Estimate

def totalTxFeeInCents (callDataSize fileChunkSize : ℕ) : ℚ :=
  let fileCreateTransactions : ℚ := 1
  let fileAppendTransactions : ℚ := (callDataSize / fileChunkSize : ℕ) - 1
  let lastFileAppendChunkSize : ℚ := (callDataSize % fileChunkSize : ℕ)
  let lastFileAppendChunkFeeInCents :=
    FILE_APPEND_BASE_FEE + lastFileAppendChunkSize * FILE_APPEND_RATE_PER_BYTE
  fileCreateTransactions * FILE_CREATE_PER_5_KB + FILE_APPEND_PER_5_KB * fileAppendTransactions +
    lastFileAppendChunkFeeInCents

/-- The amount before it is rounded. -/
def exactTxFee (totalTxFeeInCents currentNetworkExchangeRateInCents : ℚ) : ℚ :=
  totalTxFeeInCents / currentNetworkExchangeRateInCents * HBAR_TO_TINYBAR_COEF

def estimateFileTransactionsFee (callDataSize fileChunkSize : ℕ)
    (currentNetworkExchangeRateInCents : ℚ) : ℤ :=
  ⌊exactTxFee (totalTxFeeInCents callDataSize fileChunkSize) currentNetworkExchangeRateInCents +
    1 / 2⌋

end Estimate

section Transactions

/-- The pieces that the SDK cuts the contents of an append into. -/
def Transaction.pieces : Transaction → List (List Char)
  | .fileAppendTransaction _ contents chunkSize _ => chunks chunkSize contents.toList
  | _ => []

/-- The fee of an append of so many bytes. -/
def appendFeeInCents (fileChunkSize length : ℕ) : ℚ :=
  if length = fileChunkSize then FILE_APPEND_PER_5_KB
  else FILE_APPEND_BASE_FEE + FILE_APPEND_RATE_PER_BYTE * length

/-- What the creation of a file and the pieces that are appended to it cost. -/
def sentTxFeeInCents (fileChunkSize : ℕ) (pieces : List (List Char)) : ℚ :=
  FILE_CREATE_PER_5_KB + ((pieces.map List.length).map (appendFeeInCents fileChunkSize)).sum

/-- The appends of a history. -/
def appended (history : SdkHistory) : List Transaction :=
  history.filterMap fun event =>
    match event.1 with
    | .executeAll transaction => some transaction
    | _ => none

end Transactions

section Fees

variable {fileChunkSize : ℕ}

private theorem sum_appendFee (hsize : 0 < fileChunkSize) (text : List Char) :
    (((chunks fileChunkSize text).map List.length).map (appendFeeInCents fileChunkSize)).sum =
      (text.length / fileChunkSize : ℕ) * FILE_APPEND_PER_5_KB +
        if text.length % fileChunkSize = 0 then 0
        else FILE_APPEND_BASE_FEE +
          FILE_APPEND_RATE_PER_BYTE * (text.length % fileChunkSize : ℕ) := by
  have hmod := Nat.mod_lt text.length hsize
  have hfull : appendFeeInCents fileChunkSize fileChunkSize = FILE_APPEND_PER_5_KB := if_pos rfl
  have hlast : appendFeeInCents fileChunkSize (text.length % fileChunkSize) =
      FILE_APPEND_BASE_FEE + FILE_APPEND_RATE_PER_BYTE * (text.length % fileChunkSize : ℕ) :=
    if_neg hmod.ne
  rw [map_length_chunks hsize]
  split_ifs with hzero
  · simp [hfull]
  · simp [hfull, hlast]

/-- The estimate charges the base fee of a last append also if there is none. -/
theorem totalTxFee_eq_iff (hsize : 0 < fileChunkSize) (text : List Char) :
    totalTxFeeInCents (fileChunkSize + text.length) fileChunkSize =
        sentTxFeeInCents fileChunkSize (chunks fileChunkSize text) ↔
      ¬fileChunkSize ∣ text.length := by
  have hbase : FILE_APPEND_BASE_FEE ≠ 0 := by norm_num [FILE_APPEND_BASE_FEE]
  rw [Nat.dvd_iff_mod_eq_zero, sentTxFeeInCents, sum_appendFee hsize, totalTxFeeInCents,
    Nat.add_div_left _ hsize, Nat.add_mod_left]
  push_cast
  split_ifs with hzero
  · simp only [hzero, Nat.cast_zero]
    refine iff_of_false (fun heq => hbase ?_) (by simp)
    linear_combination heq
  · refine iff_of_true ?_ hzero
    ring

/-- The amounts in tinybars differ where those in cents do. -/
theorem exactTxFee_eq_iff (a b rate : ℚ) : exactTxFee a rate = exactTxFee b rate ↔
    rate = 0 ∨ a = b := by
  have hcoef : HBAR_TO_TINYBAR_COEF ≠ 0 := by norm_num [HBAR_TO_TINYBAR_COEF]
  rw [exactTxFee, exactTxFee, mul_left_inj' hcoef]
  by_cases hrate : rate = 0
  · simp [hrate]
  · rw [div_left_inj' hrate]
    simp [hrate]

end Fees

namespace SDKClient

variable {cfg : SDKClientConfig} {callData originalCallerAddress : String}

section Appends

/-- An append is one of what follows the first chunk of the call data. -/
def AppendsRest (cfg : SDKClientConfig) (callData : String) (op : SdkOp) : Prop :=
  ∀ transaction, op = .executeAll transaction →
    ∃ fileId, transaction = appendContents cfg callData fileId

abbrev OnlyAppendsRest {α : Type} (cfg : SDKClientConfig) (callData : String) (x : SdkM α) : Prop :=
  Prog.Requests (AppendsRest cfg callData) x

private theorem checkLimit_appends (callerName txConstructorName address : String)
    (estimatedTxFee : Option ℕ) :
    OnlyAppendsRest cfg callData (checkLimit callerName txConstructorName address estimatedTxFee) := by
  refine (Prog.requests_request nofun).bind fun limited => ?_
  match limited with
  | .error e => exact Prog.requests_throw
  | .ok true => exact Prog.requests_throw
  | .ok false => exact Prog.requests_pure

private theorem emitTransaction_appends (transaction : Transaction)
    (response : TransactionResponse) :
    OnlyAppendsRest cfg callData
      (emitTransaction transaction originalCallerAddress response) := by
  rw [emitTransaction]
  split
  · exact Prog.requests_pure
  · exact Prog.requests_request nofun

private theorem executeTransaction_appends (transaction : Transaction) (callerName : String) :
    OnlyAppendsRest cfg callData
      (executeTransaction transaction callerName false originalCallerAddress) := by
  refine (Prog.requests_request nofun).bind fun executed => ?_
  cases executed with
  | error e => exact Prog.requests_throw
  | ok response =>
    refine (Prog.requests_request nofun).bind fun receipt => ?_
    refine (emitTransaction_appends transaction response).bind fun _ => ?_
    cases receipt with
    | ok _ => exact Prog.requests_pure
    | error e => exact Prog.requests_throw

private theorem executeAllTransaction_appends (callerName fileId : String) :
    OnlyAppendsRest cfg callData (executeAllTransaction (appendContents cfg callData fileId)
      callerName false originalCallerAddress) := by
  have happend : AppendsRest cfg callData (.executeAll (appendContents cfg callData fileId)) := by
    intro transaction h
    cases h
    exact ⟨fileId, rfl⟩
  refine (Prog.requests_request happend).bind fun outcome => ?_
  rw [afterExecuteAll]
  split
  · exact Prog.requests_throw
  · exact Prog.requests_forM fun response _ => emitTransaction_appends _ response

private theorem executeQuery_appends (fileId : String) :
    OnlyAppendsRest cfg callData (executeQuery fileId originalCallerAddress) := by
  refine (Prog.requests_request nofun).bind fun outcome => ?_
  refine Prog.Requests.bind ?_ fun _ => ?_
  · rw [emitQuery]
    split
    · exact Prog.requests_pure
    · exact Prog.requests_request nofun
  · unfold queryResult
    split
    · exact Prog.requests_pure
    · split
      · exact Prog.requests_throw
      · exact Prog.requests_throw

private theorem fillFile_appends (data : EthereumTransactionData) (callerName : String)
    (fileId : Option String) :
    OnlyAppendsRest cfg data.callData
      (fillFile cfg data callerName originalCallerAddress fileId) := by
  cases fileId with
  | none => exact Prog.requests_pure
  | some fileId =>
    refine Prog.Requests.bind ?_ fun _ => ?_
    · rw [appendFile]
      split
      · exact executeAllTransaction_appends callerName fileId
      · exact Prog.requests_pure
    · refine (executeQuery_appends fileId).bind fun info => ?_
      rw [checkFile]
      split
      · exact Prog.requests_throw.bind fun _ => Prog.requests_pure
      · exact Prog.requests_pure.bind fun _ => Prog.requests_pure

private theorem createFile_appends (data : EthereumTransactionData) (callerName : String)
    (currentNetworkExchangeRateInCents : ℕ) :
    OnlyAppendsRest cfg data.callData (createFile cfg data callerName originalCallerAddress
      currentNetworkExchangeRateInCents) := by
  refine (checkLimit_appends _ _ _ _).bind fun _ => ?_
  refine (executeTransaction_appends _ _).bind fun response => ?_
  refine (Prog.requests_request nofun).bind fun receipt => ?_
  refine Prog.Requests.bind ?_ fun fileId => fillFile_appends data callerName fileId
  cases receipt with
  | ok _ => exact Prog.requests_pure
  | error e => exact Prog.requests_throw

end Appends

section Coverage

/-- The estimate of a client at an exchange rate, which need not be a whole number. -/
def feeEstimate (rate : ℚ) : ℕ → ℕ → ℕ → ℕ :=
  fun callDataSize fileChunkSize _ =>
    (estimateFileTransactionsFee callDataSize fileChunkSize rate).toNat

private theorem exists_of_mem_appended {history : SdkHistory} {transaction : Transaction}
    (h : transaction ∈ appended history) :
    ∃ event ∈ history, event.1 = .executeAll transaction := by
  obtain ⟨event, hevent, heq⟩ := List.mem_filterMap.mp h
  refine ⟨event, hevent, ?_⟩
  split at heq
  · rename_i sent hsent
    rw [hsent, Option.some.inj heq]
  · cases heq

private theorem exists_limit_of_runs {data : EthereumTransactionData} {callerName : String}
    {rate : ℕ} {history : SdkHistory} {result : Except RelayError (Option String)}
    (hruns : (createFile cfg data callerName originalCallerAddress rate).run.Runs history result) :
    ∃ limited rest, history = ⟨.shouldLimit callerName "createFile" originalCallerAddress
      (some (cfg.estimateFileTransactionsFee data.callData.length cfg.fileAppendChunkSize rate)),
        limited⟩ :: rest := by
  obtain ⟨limited, rest, hhistory, _⟩ := hruns
  exact ⟨limited, rest, hhistory⟩

private theorem pieces_appendContents (cfg : SDKClientConfig) (callData fileId : String) :
    (appendContents cfg callData fileId).pieces =
      chunks cfg.fileAppendChunkSize (callData.toList.drop cfg.fileAppendChunkSize) := by
  rw [appendContents, Transaction.pieces, Js.substring, ← String.length_toList, List.take_length,
    String.toList_ofList]

/-- The limiter is asked with the rounded estimate, and the exact one is what the creation and the
appended pieces cost if and only if the chunk size does not divide the number of digits, unless
the rate is zero. -/
theorem estimate_covers_pieces_iff (cfg : SDKClientConfig) (rate : ℚ)
    (data : EthereumTransactionData) (callerName originalCallerAddress : String)
    (currentNetworkExchangeRateInCents : ℕ) (history : SdkHistory)
    (result : Except RelayError (Option String))
    (hestimate : cfg.estimateFileTransactionsFee = feeEstimate rate)
    (hchunk : 0 < cfg.fileAppendChunkSize) (hlong : cfg.fileAppendChunkSize < data.callDataLength)
    (hruns : (createFile cfg data callerName originalCallerAddress
      currentNetworkExchangeRateInCents).run.Runs history result) :
    (∃ limited rest, history = ⟨.shouldLimit callerName "createFile" originalCallerAddress
        (some (estimateFileTransactionsFee data.callData.length cfg.fileAppendChunkSize
          rate).toNat), limited⟩ :: rest) ∧
    ∀ transaction ∈ appended history,
      (exactTxFee (totalTxFeeInCents data.callData.length cfg.fileAppendChunkSize) rate =
          exactTxFee (sentTxFeeInCents cfg.fileAppendChunkSize transaction.pieces) rate ↔
        rate = 0 ∨ ¬cfg.fileAppendChunkSize ∣ data.callData.length) := by
  constructor
  · have hfirst := exists_limit_of_runs hruns
    rwa [hestimate] at hfirst
  · intro transaction hsent
    obtain ⟨event, hevent, hexecute⟩ := exists_of_mem_appended hsent
    obtain ⟨fileId, rfl⟩ := createFile_appends data callerName currentNetworkExchangeRateInCents
      history result hruns event hevent transaction hexecute
    have hle : cfg.fileAppendChunkSize ≤ data.callData.length := by
      rw [EthereumTransactionData.callDataLength] at hlong
      omega
    have hlength : data.callData.length = cfg.fileAppendChunkSize +
        (data.callData.toList.drop cfg.fileAppendChunkSize).length := by
      rw [List.length_drop, String.length_toList]
      omega
    rw [exactTxFee_eq_iff, pieces_appendContents, hlength, totalTxFee_eq_iff hchunk,
      (Nat.dvd_add_right (dvd_refl _))]

/-- A chunk size, and an estimate at 12 cents. -/
def chunkedConfig (fileAppendChunkSize : ℕ) : SDKClientConfig where
  jumboTxEnabled := false
  fileAppendChunkSize
  maxChunks := 20
  maxGasAllowanceHbar := 0
  isSubsidizedTransaction := fun _ => false
  estimateFileTransactionsFee := feeEstimate 12
  maxTransactionFee := fun networkGasPriceInWeiBars => networkGasPriceInWeiBars

private theorem createdId_ne : "0.0.2@1.1" ≠ "" := by decide

/-- Every transaction succeeds. -/
def succeeding : (op : SdkOp) → op.Reply
  | .shouldLimit .. => .ok false
  | .execute _ => .ok ⟨⟨"0.0.2@1.1", createdId_ne⟩, some "0.0.1001"⟩
  | .getReceipt _ => .ok ()
  | .executeAll _ => ⟨[], none⟩
  | .executeQuery _ => ⟨0, "", .ok ⟨1, false⟩⟩
  | .emitExecuteTransaction _ | .emitExecuteQuery _ => ()

def createdRun (fileAppendChunkSize : ℕ) (callData : String) :
    SdkHistory × Except RelayError (Option String) :=
  (createFile (chunkedConfig fileAppendChunkSize) ⟨"0x3f", callData, ""⟩ "eth_sendRawTransaction"
    "0x1a" 12).run.answered succeeding

/-- Five bytes in chunks of four digits. -/
theorem estimate_covers_pieces_iff_shorter :
    (appended (createdRun 4 "60806f6001").1).map Transaction.pieces =
        [[['6', 'f', '6', '0'], ['0', '1']]] ∧
      ∀ transaction ∈ appended (createdRun 4 "60806f6001").1,
        exactTxFee (totalTxFeeInCents 10 4) 12 =
          exactTxFee (sentTxFeeInCents 4 transaction.pieces) 12 :=
  ⟨by decide +kernel, fun transaction h =>
    ((estimate_covers_pieces_iff (chunkedConfig 4) 12 ⟨"0x3f", "60806f6001", ""⟩
      "eth_sendRawTransaction" "0x1a" 12 _ _ rfl (by decide) (by decide)
      (Prog.runs_answered _ _)).2 transaction h).mpr (Or.inr (by decide))⟩

/-- Three bytes in chunks of two digits: the base fee of a third append is charged. -/
theorem estimate_exceeds_pieces :
    (createFile (chunkedConfig 2) ⟨"0x3f", "60806f", ""⟩ "eth_sendRawTransaction" "0x1a"
        12).run.Runs (createdRun 2 "60806f").1 (.ok (some "0.0.1001")) ∧
      (appended (createdRun 2 "60806f").1).map Transaction.pieces = [[['8', '0'], ['6', 'f']]] ∧
      exactTxFee (totalTxFeeInCents 6 2) 12 =
        exactTxFee (sentTxFeeInCents 2 [['8', '0'], ['6', 'f']] + FILE_APPEND_BASE_FEE) 12 ∧
      exactTxFee (totalTxFeeInCents 6 2) 12 ≠
        exactTxFee (sentTxFeeInCents 2 [['8', '0'], ['6', 'f']]) 12 :=
  ⟨Prog.runs_answered _ _, by decide +kernel, by decide +kernel, by decide +kernel⟩

end Coverage

end SDKClient

end JsonRpcRelay.Clients

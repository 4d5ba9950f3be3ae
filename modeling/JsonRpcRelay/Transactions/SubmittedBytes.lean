import JsonRpcRelay.Formatters
import JsonRpcRelay.Framework.HexBytes
import JsonRpcRelay.Framework.Layers
import JsonRpcRelay.Transactions.TransactionService
import JsonRpcRelay.Validators.Types

/-!
# The bytes of a raw transaction

`sendRawTransaction` reads the text of a transaction twice: the library parses the bytes that it
stands for, and the buffer that is submitted is made by the relay.  The two agree unless the
prefix is written in upper case.
-/

namespace JsonRpcRelay.Transactions.Raw

open Framework Validators

section Model

/-- What ethers makes of the bytes of a transaction, and its messages for other texts. -/
structure Ethers where
  parse : List UInt8 → Except String Transaction
  invalidBytes : String → String
  keccak256 : List UInt8 → String

/-- The bytes that ethers reads in a text. -/
def getBytes (text : String) : Option (List UInt8) :=
  match text.toList with
  | '0' :: x :: digits => if x = 'x' ∨ x = 'X' then Hex.decode? digits else none
  | _ => none

/-- `Transaction.from` of a text. -/
def Ethers.transactionFrom (ethers : Ethers) (transaction : String) : Except String Transaction :=
  match getBytes transaction with
  | some payload => ethers.parse payload
  | none => .error (ethers.invalidBytes transaction)

def parseRawTransaction (ethers : Ethers) (transaction : String) : Except TxError Transaction :=
  (ethers.transactionFrom transaction).mapError fun message =>
    .jsonRpcError (predefined.INVALID_ARGUMENTS message)

def prune0x (input : String) : String :=
  if Js.startsWith input constants.EMPTY_HEX then Js.substringFrom input 2 else input

/-- `Buffer.from(this.prune0x(transaction), 'hex')`. -/
def bufferOf (transaction : String) : List UInt8 := Hex.decodeFront (prune0x transaction).toList

/-- The submission as the SDK client gets it. -/
inductive NetworkOp where
  | submitEthereumTransaction (transactionBuffer : List UInt8) (networkGasPriceInWeiBars : ℕ)

@[reducible] def NetworkOp.Reply : NetworkOp → Type
  | .submitEthereumTransaction .. => Except TxError SubmissionResponse

abbrev RawReply := Prog.SumReply TxOp.Reply NetworkOp.Reply

abbrev RawHistory := History (TxOp ⊕ NetworkOp) RawReply

/-- A submission sends the buffer, everything else is requested as before. -/
def withBuffer (transactionBuffer : List UInt8) :
    (op : TxOp) → Prog (TxOp ⊕ NetworkOp) RawReply op.Reply
  | .submitEthereumTransaction _ networkGasPriceInWeiBars =>
    @Prog.call (TxOp ⊕ NetworkOp) RawReply
      (.inr (.submitEthereumTransaction transactionBuffer networkGasPriceInWeiBars))
  | op => @Prog.call (TxOp ⊕ NetworkOp) RawReply (.inl op)

variable (cfg : RelayConfig) (ethers : Ethers)

/-- A parsed transaction is checked and processed, with a buffer that is submitted and hashed. -/
def sendParsed (transactionBuffer : List UInt8) (parsedTx : Transaction) :
    Prog (TxOp ⊕ NetworkOp) RawReply (Except TxError Answer) :=
  (Transactions.sendRawTransaction
    { cfg with computeTransactionHash := fun _ => ethers.keccak256 transactionBuffer }
    parsedTx).run.implement (withBuffer transactionBuffer)

def sendRawTransaction (transaction : String) :
    Prog (TxOp ⊕ NetworkOp) RawReply (Except TxError Answer) :=
  if cfg.readOnly then
    return .error (.jsonRpcError (predefined.UNSUPPORTED_OPERATION "Relay is in read-only mode"))
  else
    match parseRawTransaction ethers transaction with
    | .error e => return .error e
    | .ok parsedTx => sendParsed cfg ethers (bufferOf transaction) parsedTx

def submittedBuffers (history : RawHistory) : List (List UInt8) :=
  history.filterMap fun
    | ⟨.inr (.submitEthereumTransaction transactionBuffer _), _⟩ => some transactionBuffer
    | ⟨.inl _, _⟩ => none

/-- The rule of the method accepts the text, and ethers parses the payload in it. -/
structure Parses (transaction : String) (payload : List UInt8) (parsedTx : Transaction) :
    Prop where
  accepted : TYPES.hex.test (.string transaction) = .ok true
  payload : getBytes transaction = some payload
  parsed : parseRawTransaction ethers transaction = .ok parsedTx

end Model

section Buffers

variable {transaction : String} {payload : List UInt8}

private theorem exists_of_getBytes (h : getBytes transaction = some payload) :
    ∃ x digits, transaction.toList = '0' :: x :: digits ∧ (x = 'x' ∨ x = 'X') ∧
      Hex.decode? digits = some payload := by
  unfold getBytes at h
  split at h
  · rename_i x digits htext
    split_ifs at h with hx
    exact ⟨x, digits, htext, hx, h⟩
  · cases h

private theorem prune0x_of_lower {digits : List Char}
    (h : transaction.toList = '0' :: 'x' :: digits) :
    (prune0x transaction).toList = digits := by
  have hstarts : Js.startsWith transaction constants.EMPTY_HEX = true := by
    rw [Js.startsWith, h]
    rfl
  rw [prune0x, if_pos hstarts, Js.substringFrom, h]
  simp

private theorem prune0x_of_upper {digits : List Char}
    (h : transaction.toList = '0' :: 'X' :: digits) :
    prune0x transaction = transaction := by
  have hstarts : Js.startsWith transaction constants.EMPTY_HEX = false := by
    rw [Js.startsWith, h]
    rfl
  rw [prune0x, if_neg (by simp [hstarts])]

/-- The buffer of the relay is the payload exactly if the prefix is one that the relay strips, or
nothing is behind it. -/
theorem bufferOf_eq_iff (h : getBytes transaction = some payload) :
    bufferOf transaction = payload ↔
      Js.startsWith transaction constants.EMPTY_HEX = true ∨ transaction = "0X" := by
  obtain ⟨x, digits, htext, hx, hdecode⟩ := exists_of_getBytes h
  rcases hx with rfl | rfl
  · have hbuffer : bufferOf transaction = payload := by
      rw [bufferOf, prune0x_of_lower htext]
      exact Hex.decodeFront_of_decode? hdecode
    refine iff_of_true hbuffer (Or.inl ?_)
    rw [Js.startsWith, htext]
    rfl
  · have hempty : bufferOf transaction = [] := by
      rw [bufferOf, prune0x_of_upper htext, htext]
      rfl
    have hlength := Hex.length_of_decode? hdecode
    have hstarts : Js.startsWith transaction constants.EMPTY_HEX = false := by
      rw [Js.startsWith, htext]
      rfl
    rw [hempty, hstarts]
    constructor
    · intro hpayload
      rw [← hpayload, List.length_nil, Nat.mul_zero, List.length_eq_zero_iff] at hlength
      rw [hlength] at htext
      exact Or.inr (String.toList_inj.mp htext)
    · intro hupper
      rcases hupper with hupper | hupper
      · cases hupper
      · rw [hupper] at htext
        obtain rfl : digits = [] := by simpa using htext.symm
        exact Option.some.inj hdecode

end Buffers

section Submissions

variable {cfg : RelayConfig} {ethers : Ethers}

private theorem submittedBuffers_append (first rest : RawHistory) :
    submittedBuffers (first ++ rest) = submittedBuffers first ++ submittedBuffers rest :=
  List.filterMap_append

private theorem submittedBuffers_withBuffer {transactionBuffer : List UInt8} {op : TxOp}
    {history : RawHistory} {reply : op.Reply}
    (h : (withBuffer transactionBuffer op).Runs history reply) :
    ∀ buffer ∈ submittedBuffers history, buffer = transactionBuffer := by
  cases op
  case submitEthereumTransaction tx networkGasPriceInWeiBars =>
    rw [Prog.runs_call.mp h]
    simp [submittedBuffers]
  all_goals
    rw [Prog.runs_call.mp h]
    simp [submittedBuffers]

private theorem submittedBuffers_implements {transactionBuffer : List UInt8}
    {upper : History TxOp TxOp.Reply} {history : RawHistory}
    (h : Prog.Implements (withBuffer transactionBuffer) upper history) :
    ∀ buffer ∈ submittedBuffers history, buffer = transactionBuffer := by
  induction upper generalizing history with
  | nil =>
    rw [show history = [] from h]
    simp [submittedBuffers]
  | cons event rest ih =>
    obtain ⟨first, last, hhistory, hfirst, hlast⟩ := h
    rw [hhistory, submittedBuffers_append]
    simp only [List.mem_append]
    intro buffer hbuffer
    rcases hbuffer with hbuffer | hbuffer
    · exact submittedBuffers_withBuffer hfirst buffer hbuffer
    · exact ih hlast buffer hbuffer

private theorem submittedBuffers_sendRawTransaction {transaction : String} {history : RawHistory}
    {result : Except TxError Answer}
    (h : (sendRawTransaction cfg ethers transaction).Runs history result) :
    ∀ buffer ∈ submittedBuffers history, buffer = bufferOf transaction := by
  unfold sendRawTransaction at h
  split at h
  · rw [(Prog.runs_pure.mp h).1]
    simp [submittedBuffers]
  · split at h
    · rw [(Prog.runs_pure.mp h).1]
      simp [submittedBuffers]
    · obtain ⟨upper, _, himpl⟩ := Prog.runs_implement.mp h
      exact submittedBuffers_implements himpl

private theorem sendRawTransaction_of_parsed {transaction : String} {parsedTx : Transaction}
    (h : parseRawTransaction ethers transaction = .ok parsedTx) :
    sendRawTransaction cfg ethers transaction =
      sendParsed cfg ethers (bufferOf transaction) parsedTx := by
  rw [sendRawTransaction, h]
  split
  · rename_i hreadOnly
    rw [sendParsed, Transactions.sendRawTransaction, if_pos hreadOnly]
    rfl
  · rfl

/-- With a prefix in lower case, or nothing behind it, the payload that was parsed is what is
submitted and hashed, and every submission of another text is one of other bytes. -/
theorem submitted_eq_payload_iff (cfg : RelayConfig) (ethers : Ethers) (transaction : String)
    (payload : List UInt8) (parsedTx : Transaction)
    (hparses : Parses ethers transaction payload parsedTx) :
    (Js.startsWith transaction constants.EMPTY_HEX = true ∨ transaction = "0X" →
      sendRawTransaction cfg ethers transaction = sendParsed cfg ethers payload parsedTx) ∧
    ∀ history result, (sendRawTransaction cfg ethers transaction).Runs history result →
      ∀ buffer ∈ submittedBuffers history, (buffer = payload ↔
        Js.startsWith transaction constants.EMPTY_HEX = true ∨ transaction = "0X") := by
  have hiff := bufferOf_eq_iff hparses.payload
  constructor
  · intro hlower
    rw [sendRawTransaction_of_parsed hparses.parsed, hiff.mpr hlower]
  · intro history result hruns buffer hbuffer
    rw [submittedBuffers_sendRawTransaction hruns buffer hbuffer]
    exact hiff

end Submissions

section Runs

def openRelay : RelayConfig where
  readOnly := false
  enableNonceOrdering := false
  enableTxPool := false
  useAsyncTxProcessing := true
  mirrorNodeRequestRetryCount := 1
  checkTransaction _ _ := .ok ()
  checkAccount _ _ := .ok ()
  addPercentageBufferToGasPrice price := price
  computeTransactionHash tx := tx.serialized

/-- A signed transfer. -/
def transferPayload : List UInt8 :=
  [0x02, 0xf8, 0x74, 0x82, 0x01, 0x2a, 0x04, 0x85, 0xa7, 0xa3, 0x58, 0x20, 0x00, 0x85, 0xa7, 0xa3,
    0x58, 0x20, 0x00, 0x83, 0x2d, 0xc6, 0xc0, 0x94, 0x00, 0x00, 0x00, 0x00, 0x00, 0x00, 0x00, 0x00,
    0x00, 0x00, 0x00, 0x00, 0x00, 0x00, 0x00, 0x00, 0x00, 0x00, 0x03, 0xf7, 0x85, 0x02, 0x54, 0x0b,
    0xe4, 0x00, 0x80, 0xc0, 0x01, 0xa0, 0x06, 0xf4, 0xcd, 0x8e, 0x6f, 0x84, 0xb7, 0x6a, 0x05, 0xa5,
    0xc1, 0x54, 0x2a, 0x08, 0x68, 0x2c, 0x92, 0x81, 0x08, 0xef, 0x71, 0x63, 0xd9, 0xc1, 0xbf, 0x1f,
    0x3b, 0x63, 0x6b, 0x1c, 0xd1, 0xfb, 0xa0, 0x32, 0x09, 0x7c, 0xbf, 0x2d, 0xda, 0x17, 0xa2, 0xdc,
    0xc4, 0x0f, 0x62, 0xc9, 0x79, 0x64, 0xd9, 0xd9, 0x30, 0xcd, 0xce, 0x2e, 0x8a, 0x9d, 0xf9, 0xa8,
    0xba, 0x02, 0x3c, 0xda, 0x28, 0xe4, 0xad]

def transferText (x : Char) : String := String.ofList ('0' :: x :: Hex.text transferPayload)

private theorem toList_transferText (x : Char) :
    (transferText x).toList = '0' :: x :: Hex.text transferPayload := String.toList_ofList

def transfer : Transaction where
  fromAddress := some "0x44FdfC794FFff9EF010672DFC483B6DDb1950989"
  toAddress := some "0x00000000000000000000000000000000000003f7"
  nonce := 4
  serialized := transferText 'x'

def transferEthers : Ethers where
  parse payload := if payload = transferPayload then .ok transfer else .error "invalid transaction"
  invalidBytes _ := "invalid BytesLike value"
  keccak256 bytes :=
    if bytes = [] then "0xc5d2460186f7233c927e7db2dcc703c0e500b653ca82273b7bfad8045d85a470"
    else "0x5aba28dab5ec1b0bf0fd8c6767138f059c8064cd0c7e51cf0af915f7766317bd"

def answering : (op : TxOp ⊕ NetworkOp) → RawReply op
  | .inl (.acquireLock _) | .inl (.getList _) => (0 : ℕ)
  | .inl (.releaseLock ..) | .inl (.addToList ..) | .inl (.removeFromList ..)
  | .inl (.deleteFile _) | .inl .wait => ()
  | .inl .getGasPriceInWeibars | .inl .getCurrentNetworkExchangeRateInCents =>
    (.ok 12 : Except TxError ℕ)
  | .inl (.getAccount _) => (.ok (some ⟨.number 4, some 1, false⟩) : Except TxError (Option AccountInfo))
  | .inl (.submitEthereumTransaction ..) | .inr (.submitEthereumTransaction ..) =>
    (.ok ⟨some "0.0.2@1.1", none⟩ : Except TxError SubmissionResponse)
  | .inl (.getContractResult _) => (.ok none : Except TxError (Option ContractResult))
  | .inl (.getContractRevertReasonFromTransaction _) => (.ok () : Except TxError Unit)

def answeredRun (transaction : String) : RawHistory × Except TxError Answer :=
  (sendRawTransaction openRelay transferEthers transaction).answered answering

private theorem exists_runs_of_answered {transaction : String} {result : Except TxError Answer}
    (h : (answeredRun transaction).2 = result) :
    ∃ history, (sendRawTransaction openRelay transferEthers transaction).Runs history result ∧
      submittedBuffers history = submittedBuffers (answeredRun transaction).1 := by
  rw [← h]
  exact ⟨_, Prog.runs_answered answering _, rfl⟩

private theorem parses_transferText {x : Char} (hx : x = 'x' ∨ x = 'X') :
    Parses transferEthers (transferText x) transferPayload transfer := by
  have hpayload : getBytes (transferText x) = some transferPayload := by
    simp [getBytes, toList_transferText, hx]
  constructor
  · have hdigits := Hex.isHexDigit_of_decode? (Hex.decode?_text transferPayload)
    simpa [TYPES.hex, IType.plain, isBaseHex, toList_transferText, hx] using hdigits
  · exact hpayload
  · rw [parseRawTransaction, Ethers.transactionFrom, hpayload]
    rfl

private theorem answeredRun_transferText {x : Char} (hx : x = 'x' ∨ x = 'X') :
    submittedBuffers (answeredRun (transferText x)).1 = [bufferOf (transferText x)] ∧
      (answeredRun (transferText x)).2 =
        .ok (.hash (transferEthers.keccak256 (bufferOf (transferText x)))) := by
  rw [answeredRun, sendRawTransaction_of_parsed (parses_transferText hx).parsed]
  generalize bufferOf (transferText x) = transactionBuffer
  exact ⟨rfl, rfl⟩

theorem submitted_eq_payload_iff_lower :
    sendRawTransaction openRelay transferEthers (transferText 'x') =
      sendParsed openRelay transferEthers transferPayload transfer ∧
    submittedBuffers (answeredRun (transferText 'x')).1 ≠ [] := by
  refine ⟨(submitted_eq_payload_iff openRelay transferEthers (transferText 'x') transferPayload
    transfer (parses_transferText (Or.inl rfl))).1 (Or.inl ?_), ?_⟩
  · simp [Js.startsWith, toList_transferText, constants.EMPTY_HEX]
  · rw [(answeredRun_transferText (Or.inl rfl)).1]
    exact List.cons_ne_nil _ _

/-- The payload is parsed and checked, and an empty buffer is submitted and hashed. -/
theorem upper_payload_lost :
    Parses transferEthers (transferText 'X') transferPayload transfer ∧
      (∃ history, (sendRawTransaction openRelay transferEthers (transferText 'X')).Runs history
          (.ok (.hash (transferEthers.keccak256 []))) ∧ submittedBuffers history = [[]]) ∧
      transferPayload ≠ [] := by
  have hbuffer : bufferOf (transferText 'X') = [] := by
    rw [bufferOf, prune0x_of_upper (toList_transferText 'X'), toList_transferText]
    rfl
  have hanswered := answeredRun_transferText (Or.inr rfl)
  rw [hbuffer] at hanswered
  have hruns := exists_runs_of_answered hanswered.2
  rw [hanswered.1] at hruns
  exact ⟨parses_transferText (Or.inr rfl), hruns, by simp [transferPayload]⟩

end Runs

end JsonRpcRelay.Transactions.Raw

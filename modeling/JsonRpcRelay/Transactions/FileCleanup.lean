import JsonRpcRelay.Clients.CreatedFiles
import JsonRpcRelay.Framework.Layers
import JsonRpcRelay.Transactions.TransactionService

/-!
# The cleanup of temporary files

The submission of a raw transaction together with the SDK client that it calls.  The file that
the client creates is deleted if and only if its id gets back to the submission.
-/

namespace JsonRpcRelay.Transactions

open Framework
open Clients (SdkOp SdkHistory SDKClientConfig EthereumTransactionData createdFiles AllSucceed)
open Clients.SDKClient (SubmittedTransaction)

section Submission

/-- What happens in a submission, in the relay and in the client. -/
abbrev SubmissionReply := Prog.SumReply TxOp.Reply SdkOp.Reply

abbrev SubmissionHistory := History (TxOp ⊕ SdkOp) SubmissionReply

def submissionResponse (submitted : SubmittedTransaction) : SubmissionResponse where
  transactionId := some submitted.txResponse.transactionId.text
  fileId := submitted.fileId

/-- The client submits the transaction, everything else is requested as before. -/
def hapiService (cfg : SDKClientConfig)
    (transactionData : Transaction → Except TxError EthereumTransactionData)
    (currentNetworkExchangeRateInCents : ℕ) :
    (op : TxOp) → Prog (TxOp ⊕ SdkOp) SubmissionReply op.Reply
  | .submitEthereumTransaction tx networkGasPriceInWeiBars =>
    Except.map submissionResponse <$>
      (Clients.SDKClient.submitEthereumTransaction cfg (transactionData tx)
        "eth_sendRawTransaction" (tx.fromAddress.getD "") networkGasPriceInWeiBars
        currentNetworkExchangeRateInCents).run.inr
  | op => @Prog.call (TxOp ⊕ SdkOp) SubmissionReply (.inl op)

def submission (cfg : SDKClientConfig)
    (transactionData : Transaction → Except TxError EthereumTransactionData)
    (currentNetworkExchangeRateInCents : ℕ) (tx : Transaction) (networkGasPriceInWeiBars : ℕ) :
    Prog (TxOp ⊕ SdkOp) SubmissionReply (Except TxError Submission) :=
  (submitTransaction tx networkGasPriceInWeiBars).run.implement
    (hapiService cfg transactionData currentNetworkExchangeRateInCents)

/-- The files whose deletion is started. -/
def deletedFiles (history : SubmissionHistory) : List String :=
  history.filterMap fun
    | ⟨.inl (.deleteFile fileId), _⟩ => some fileId
    | _ => none

end Submission

section Requests

/-- The deletion of the file that the network was given. -/
def deletions (sent : Except TxError SubmissionResponse) : History TxOp TxOp.Reply :=
  match sent with
  | .ok response => response.fileId.toList.map fun fileId => ⟨.deleteFile fileId, ()⟩
  | .error _ => []

private theorem submitTransaction_ensures (tx : Transaction) (networkGasPriceInWeiBars : ℕ) :
    Prog.Ensures (submitTransaction tx networkGasPriceInWeiBars) fun history _ =>
      (∃ e, history = [⟨.getCurrentNetworkExchangeRateInCents, .error e⟩]) ∨
      ∃ rate sent, history = ⟨.getCurrentNetworkExchangeRateInCents, .ok rate⟩ ::
        ⟨.submitEthereumTransaction tx networkGasPriceInWeiBars, sent⟩ :: deletions sent := by
  refine Prog.ensures_request_bind fun rate => ?_
  cases rate with
  | error e => exact Prog.ensures_pure (Or.inl ⟨e, rfl⟩)
  | ok rate =>
    refine Prog.ensures_request_bind fun sent => ?_
    cases sent with
    | error e => exact Prog.ensures_pure (Or.inr ⟨rate, .error e, rfl⟩)
    | ok response =>
      obtain ⟨transactionId, fileId⟩ := response
      cases fileId with
      | none =>
        dsimp only
        split
        · exact Prog.ensures_pure (Or.inr ⟨rate, .ok ⟨transactionId, none⟩, rfl⟩)
        · exact Prog.ensures_pure (Or.inr ⟨rate, .ok ⟨transactionId, none⟩, rfl⟩)
      | some fileId =>
        refine Prog.ensures_request_bind fun _ => ?_
        dsimp only
        split
        · exact Prog.ensures_pure (Or.inr ⟨rate, .ok ⟨transactionId, some fileId⟩, rfl⟩)
        · exact Prog.ensures_pure (Or.inr ⟨rate, .ok ⟨transactionId, some fileId⟩, rfl⟩)

end Requests

section Cleanup

@[simp] theorem deletedFiles_append (first rest : SubmissionHistory) :
    deletedFiles (first ++ rest) = deletedFiles first ++ deletedFiles rest :=
  List.filterMap_append

/-- The client deletes nothing by itself while it submits. -/
@[simp] theorem deletedFiles_map_inrEvent (inner : SdkHistory) :
    deletedFiles (inner.map Prog.inrEvent) = [] := by
  induction inner with
  | nil => rfl
  | cons event inner ih => exact ih

variable {cfg : SDKClientConfig}
  {transactionData : Transaction → Except TxError EthereumTransactionData}
  {currentNetworkExchangeRateInCents : ℕ}

/-- The files whose deletion the submission starts are those that the answer of the client
names. -/
theorem implements_deletions {sent : Except TxError SubmissionResponse} {lower : SubmissionHistory}
    (h : Prog.Implements (hapiService cfg transactionData currentNetworkExchangeRateInCents)
      (deletions sent) lower) :
    Prog.rightPart lower = [] ∧
      deletedFiles lower = (sent.toOption.bind SubmissionResponse.fileId).toList := by
  rcases sent with e | ⟨transactionId, _ | fileId⟩
  · obtain rfl : lower = [] := h
    exact ⟨rfl, rfl⟩
  · obtain rfl : lower = [] := h
    exact ⟨rfl, rfl⟩
  · obtain ⟨first, last, hlower, hfirst, hlast⟩ := h
    obtain rfl : last = [] := hlast
    rw [hlower, Prog.runs_call.mp hfirst]
    exact ⟨rfl, rfl⟩

/-- The deletions that the submission starts are those of the files that were created if and only
if there are none or every request of the client has succeeded. -/
theorem temporary_files_deleted_iff (cfg : SDKClientConfig)
    (transactionData : Transaction → Except TxError EthereumTransactionData)
    (currentNetworkExchangeRateInCents : ℕ) (tx : Transaction) (networkGasPriceInWeiBars : ℕ)
    (history : SubmissionHistory) (result : Except TxError Submission)
    (hruns : (submission cfg transactionData currentNetworkExchangeRateInCents tx
      networkGasPriceInWeiBars).Runs history result) :
    deletedFiles history = createdFiles (Prog.rightPart history) ↔
      createdFiles (Prog.rightPart history) = [] ∨ AllSucceed (Prog.rightPart history) := by
  obtain ⟨upper, hupper, himpl⟩ := Prog.runs_implement.mp hruns
  rcases submitTransaction_ensures tx networkGasPriceInWeiBars upper result hupper with
    ⟨e, hevents⟩ | ⟨rate, sent, hevents⟩
  · rw [hevents] at himpl
    obtain ⟨first, last, hhistory, hfirst, hlast⟩ := himpl
    obtain rfl : last = [] := hlast
    rw [hhistory, Prog.runs_call.mp hfirst]
    exact iff_of_true rfl (Or.inl rfl)
  · rw [hevents] at himpl
    obtain ⟨first, rest, hhistory, hfirst, submitted, last, hrest, hsubmitted, hlast⟩ := himpl
    obtain ⟨answer, hanswer, hsent⟩ := Prog.runs_map.mp hsubmitted
    obtain ⟨inner, hinner, hevents⟩ := Prog.runs_inr.mp hanswer
    obtain ⟨hlastRight, hlastDeleted⟩ := implements_deletions hlast
    have hfirst := Prog.runs_call.mp hfirst
    have hright : Prog.rightPart history = inner := by
      rw [hhistory, hfirst, hrest, hevents, Prog.rightPart_append, Prog.rightPart_append,
        Prog.rightPart_map_inrEvent, hlastRight]
      exact List.append_nil inner
    have hdeleted :
        deletedFiles history = (sent.toOption.bind SubmissionResponse.fileId).toList := by
      rw [hhistory, hfirst, hrest, hevents, deletedFiles_append, deletedFiles_append,
        deletedFiles_map_inrEvent, hlastDeleted]
      rfl
    have hcreates := Clients.SDKClient.submitEthereumTransaction_creates _ _ _ _ inner answer hinner
    rw [hright, hdeleted, hsent]
    cases answer with
    | ok submitted =>
      obtain ⟨hall, hcreated⟩ := hcreates.1 submitted rfl
      exact iff_of_true hcreated.symm (Or.inr hall)
    | error e =>
      have hfailed := hcreates.2 e rfl
      constructor
      · intro hnone
        exact Or.inl hnone.symm
      · intro h
        rcases h with hnone | hall
        · exact hnone.symm
        · exact (hfailed.resolve_right (not_not.mpr hall)).symm

def exampleConfig : SDKClientConfig where
  jumboTxEnabled := false
  fileAppendChunkSize := 2
  maxChunks := 20
  maxGasAllowanceHbar := 0
  isSubsidizedTransaction := fun _ => false
  estimateFileTransactionsFee := fun _ _ _ => 0
  maxTransactionFee := fun networkGasPriceInWeiBars => networkGasPriceInWeiBars

/-- Three bytes of call data, one more than a chunk has. -/
def exampleData (tx : Transaction) : Except TxError EthereumTransactionData :=
  .ok ⟨tx.toAddress.getD "", "60806f", ""⟩

def exampleTransaction : Transaction := ⟨some "0x1a", none, 3, "0xf8"⟩

def exampleRelay : (op : TxOp) → op.Reply
  | .acquireLock _ | .getList _ => (0 : ℕ)
  | .releaseLock .. | .addToList .. | .removeFromList .. | .deleteFile _ | .wait => ()
  | .getGasPriceInWeibars | .getCurrentNetworkExchangeRateInCents => .ok 12
  | .getAccount _ | .getContractResult _ => .ok none
  | .submitEthereumTransaction .. => .error (.error "no client")
  | .getContractRevertReasonFromTransaction _ => .ok ()

private theorem exampleId_ne : "0.0.2@1.1" ≠ "" := by decide

def exampleResponse : Clients.TransactionResponse :=
  ⟨⟨"0.0.2@1.1", exampleId_ne⟩, some "0.0.9"⟩

/-- A network that answers the Ethereum transaction in this way. -/
def exampleNetwork (executed : Except Clients.SdkFailure Clients.TransactionResponse) :
    (op : SdkOp) → op.Reply
  | .shouldLimit .. => .ok false
  | .execute (.ethereumTransaction ..) => executed
  | .execute _ => .ok exampleResponse
  | .getReceipt _ => .ok ()
  | .executeAll _ => ⟨[exampleResponse], none⟩
  | .executeQuery _ => ⟨5, "0.0.2@1.4", .ok ⟨3, false⟩⟩
  | .emitExecuteTransaction _ | .emitExecuteQuery _ => ()

def exampleHistory (executed : Except Clients.SdkFailure Clients.TransactionResponse) :
    SubmissionHistory :=
  ((submission exampleConfig exampleData 12 exampleTransaction 7).answered fun
    | .inl op => exampleRelay op
    | .inr op => exampleNetwork executed op).1

theorem temporary_files_deleted_iff_accepted :
    deletedFiles (exampleHistory (.ok exampleResponse)) =
        createdFiles (Prog.rightPart (exampleHistory (.ok exampleResponse))) ↔
      createdFiles (Prog.rightPart (exampleHistory (.ok exampleResponse))) = [] ∨
        AllSucceed (Prog.rightPart (exampleHistory (.ok exampleResponse))) :=
  temporary_files_deleted_iff exampleConfig exampleData 12 exampleTransaction 7 _ _
    (Prog.runs_answered _ _)

/-- The network does not accept the Ethereum transaction, and the file stays. -/
theorem file_left_behind :
    ¬ ∀ history result, (submission exampleConfig exampleData 12 exampleTransaction 7).Runs
      history result → deletedFiles history = createdFiles (Prog.rightPart history) := by
  intro h
  have heq : deletedFiles (exampleHistory (.error ⟨"BUSY", "the network is busy", ""⟩)) = _ :=
    h _ _ (Prog.runs_answered _ _)
  exact absurd heq (by decide +kernel)

end Cleanup

end JsonRpcRelay.Transactions

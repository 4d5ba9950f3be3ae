import JsonRpcRelay.Clients.SdkClient

/-!
# Charges of the network and their reports

What the network charges for in a history of the client, and what the client reports of it.
Each function reports its charges as far as its append has not failed between two chunks.
-/

namespace JsonRpcRelay.Clients

open Framework

section Charges

inductive Charge where
  | transaction (transactionId originalCallerAddress : String)
  | query (transactionId : String) (cost : ℕ) (originalCallerAddress : String)
  deriving DecidableEq

/-- The charges that an event reports. -/
def reportsOf : SdkEvent → List Charge
  | ⟨.emitExecuteTransaction event, _⟩ =>
    [.transaction event.transactionId event.originalCallerAddress]
  | ⟨.emitExecuteQuery event, _⟩ =>
    [.query event.transactionId event.cost event.originalCallerAddress]
  | _ => []

def transactionCharge (originalCallerAddress : String) (response : TransactionResponse) : Charge :=
  .transaction response.transactionId.text originalCallerAddress

/-- A transaction that a node has accepted is charged for, whatever its receipt says, and a query
for which a payment was made, whatever its result. -/
def chargesOf (originalCallerAddress : String) : SdkEvent → List Charge
  | ⟨.execute _, .ok response⟩ => [transactionCharge originalCallerAddress response]
  | ⟨.executeAll _, outcome⟩ => outcome.accepted.map (transactionCharge originalCallerAddress)
  | ⟨.executeQuery _, outcome⟩ =>
    if outcome.queryPayment = 0 then []
    else [.query outcome.paymentTransactionId outcome.queryPayment originalCallerAddress]
  | _ => []

/-- A chunk failed when the node had accepted it or others before it. -/
def PartlyAccepted : SdkEvent → Prop
  | ⟨.executeAll _, outcome⟩ => outcome.failure ≠ none ∧ outcome.accepted ≠ []
  | _ => False

def reported (history : SdkHistory) : List Charge := history.flatMap reportsOf

def charged (originalCallerAddress : String) (history : SdkHistory) : List Charge :=
  history.flatMap (chargesOf originalCallerAddress)

@[simp] theorem reported_nil : reported [] = [] := rfl

@[simp] theorem reported_cons (event : SdkEvent) (history : SdkHistory) :
    reported (event :: history) = reportsOf event ++ reported history := rfl

@[simp] theorem reported_append (first rest : SdkHistory) :
    reported (first ++ rest) = reported first ++ reported rest := List.flatMap_append

@[simp] theorem charged_nil (originalCallerAddress : String) :
    charged originalCallerAddress [] = [] := rfl

@[simp] theorem charged_cons (originalCallerAddress : String) (event : SdkEvent)
    (history : SdkHistory) :
    charged originalCallerAddress (event :: history) =
      chargesOf originalCallerAddress event ++ charged originalCallerAddress history := rfl

@[simp] theorem charged_append (originalCallerAddress : String) (first rest : SdkHistory) :
    charged originalCallerAddress (first ++ rest) =
      charged originalCallerAddress first ++ charged originalCallerAddress rest :=
  List.flatMap_append

end Charges

section Accounts

variable {originalCallerAddress : String}

/-- Nothing is reported without a charge, and only the charges of an append that has failed
between two chunks go unreported. -/
structure Accounted (originalCallerAddress : String) (history : SdkHistory) : Prop where
  reported_sublist : (reported history).Sublist (charged originalCallerAddress history)
  complete_iff : (reported history).length = (charged originalCallerAddress history).length ↔
    ∀ event ∈ history, ¬PartlyAccepted event

private theorem accounted_of_eq {history : SdkHistory}
    (heq : reported history = charged originalCallerAddress history)
    (hnot : ∀ event ∈ history, ¬PartlyAccepted event) :
    Accounted originalCallerAddress history where
  reported_sublist := heq ▸ List.Sublist.refl _
  complete_iff := iff_of_true (congrArg List.length heq) hnot

private theorem accounted_nil : Accounted originalCallerAddress [] := accounted_of_eq rfl (by simp)

theorem Accounted.append {first rest : SdkHistory} (hfirst : Accounted originalCallerAddress first)
    (hrest : Accounted originalCallerAddress rest) :
    Accounted originalCallerAddress (first ++ rest) where
  reported_sublist := by
    rw [reported_append, charged_append]
    exact hfirst.reported_sublist.append hrest.reported_sublist
  complete_iff := by
    have h1 := hfirst.reported_sublist.length_le
    have h2 := hrest.reported_sublist.length_le
    rw [List.forall_mem_append, ← hfirst.complete_iff, ← hrest.complete_iff]
    simp only [reported_append, charged_append, List.length_append]
    omega

private theorem Accounted.perm_iff {history : SdkHistory}
    (h : Accounted originalCallerAddress history) :
    (reported history).Perm (charged originalCallerAddress history) ↔
      ∀ event ∈ history, ¬PartlyAccepted event := by
  rw [← h.complete_iff]
  constructor
  · intro hperm
    exact hperm.length_eq
  · intro hlength
    rw [h.reported_sublist.eq_of_length hlength]

/-- Whatever is answered, the charges are accounted for. -/
def Accounts {α : Type} (originalCallerAddress : String) (x : SdkM α) : Prop :=
  Prog.Ensures x fun history _ => Accounted originalCallerAddress history

variable {α β : Type}

private theorem accounts_pure (a : α) : Accounts originalCallerAddress (Pure.pure a : SdkM α) :=
  Prog.ensures_pure accounted_nil

private theorem accounts_throw (e : RelayError) :
    Accounts originalCallerAddress (throw e : SdkM α) :=
  Prog.ensures_throw accounted_nil

theorem Accounts.bind {x : SdkM α} {f : α → SdkM β} (hx : Accounts originalCallerAddress x)
    (hf : ∀ a, Accounts originalCallerAddress (f a)) :
    Accounts originalCallerAddress (x >>= f) :=
  Prog.ensures_bind hx (fun _ _ h => h) fun _ a hfirst =>
    (hf a).mono fun _ _ hrest => hfirst.append hrest

theorem Accounts.tryCatch {x : SdkM α} {f : RelayError → SdkM α}
    (hx : Accounts originalCallerAddress x) (hf : ∀ e, Accounts originalCallerAddress (f e)) :
    Accounts originalCallerAddress (tryCatch x f) :=
  Prog.ensures_tryCatch hx (fun _ _ h => h) fun _ e hfirst =>
    (hf e).mono fun _ _ hrest => hfirst.append hrest

private theorem accounts_request {op : SdkOp}
    (h : ∀ reply, reportsOf ⟨op, reply⟩ = [] ∧ chargesOf originalCallerAddress ⟨op, reply⟩ = [] ∧
      ¬PartlyAccepted ⟨op, reply⟩) : Accounts originalCallerAddress (request op) := by
  refine Prog.ensures_request fun reply => ?_
  obtain ⟨hreports, hcharges, hnot⟩ := h reply
  exact accounted_of_eq (by simp [hreports, hcharges]) (by simpa using hnot)

end Accounts

section Settles

/-- The events report the charges that are owed, and cause no others. -/
structure Settles (originalCallerAddress : String) (owed : List Charge) (history : SdkHistory) :
    Prop where
  reported_eq : reported history = owed
  charged_eq : charged originalCallerAddress history = []
  not_partly : ∀ event ∈ history, ¬PartlyAccepted event

variable {originalCallerAddress : String}

private theorem settles_nil : Settles originalCallerAddress [] [] := ⟨rfl, rfl, by simp⟩

private theorem settles_emit (transactionId txConstructorName : String) (reply : Unit) :
    Settles originalCallerAddress [.transaction transactionId originalCallerAddress]
      [⟨.emitExecuteTransaction ⟨transactionId, txConstructorName, originalCallerAddress⟩,
        reply⟩] :=
  ⟨rfl, rfl, by simp [PartlyAccepted]⟩

theorem Settles.append {owed owed' : List Charge} {first rest : SdkHistory}
    (hfirst : Settles originalCallerAddress owed first)
    (hrest : Settles originalCallerAddress owed' rest) :
    Settles originalCallerAddress (owed ++ owed') (first ++ rest) where
  reported_eq := by rw [reported_append, hfirst.reported_eq, hrest.reported_eq]
  charged_eq := by rw [charged_append, hfirst.charged_eq, hrest.charged_eq, List.append_nil]
  not_partly := List.forall_mem_append.mpr ⟨hfirst.not_partly, hrest.not_partly⟩

theorem Settles.accounted {event : SdkEvent} {rest : SdkHistory}
    (hrest : Settles originalCallerAddress (chargesOf originalCallerAddress event) rest)
    (hreports : reportsOf event = []) (hnot : ¬PartlyAccepted event) :
    Accounted originalCallerAddress (event :: rest) := by
  refine accounted_of_eq ?_ (List.forall_mem_cons.mpr ⟨hnot, hrest.not_partly⟩)
  simp [hreports, hrest.reported_eq, hrest.charged_eq]

end Settles

namespace SDKClient

variable {cfg : SDKClientConfig} {originalCallerAddress : String}

section Execution

private theorem checkLimit_accounts (callerName txConstructorName address : String)
    (estimatedTxFee : Option ℕ) :
    Accounts originalCallerAddress
      (checkLimit callerName txConstructorName address estimatedTxFee) := by
  refine Accounts.bind (accounts_request fun reply => ⟨rfl, rfl, id⟩) fun limited => ?_
  rcases limited with e | _ | _
  · exact accounts_throw e
  · exact accounts_pure ()
  · exact accounts_throw _

private theorem emitTransaction_settles (transaction : Transaction)
    (response : TransactionResponse) :
    Prog.Ensures (emitTransaction transaction originalCallerAddress response)
      fun history result => Settles originalCallerAddress
        [transactionCharge originalCallerAddress response] history ∧ result = .ok () := by
  rw [emitTransaction, if_neg response.transactionId.nonempty]
  exact Prog.ensures_request fun reply => ⟨settles_emit _ _ reply, rfl⟩

private theorem finishTransaction_settles (transaction : Transaction)
    (response : TransactionResponse) (receipt : Except SdkFailure Unit) :
    Prog.Ensures (finishTransaction transaction originalCallerAddress response receipt)
      fun history _ => Settles originalCallerAddress
        [transactionCharge originalCallerAddress response] history := by
  refine Prog.ensures_bind (emitTransaction_settles transaction response) (fun _ _ h => h.1) ?_
  intro first _ hfirst
  cases receipt with
  | ok _ => exact Prog.ensures_pure (by simpa using hfirst.1)
  | error e => exact Prog.ensures_throw (by simpa using hfirst.1)

private theorem execute_accounts (transaction : Transaction) :
    Accounts originalCallerAddress
      (request (.execute transaction) >>= afterExecute transaction originalCallerAddress) := by
  refine Prog.ensures_request_bind fun executed => ?_
  cases executed with
  | error e => exact Prog.ensures_throw (settles_nil.accounted rfl id)
  | ok response =>
    refine Prog.ensures_request_bind fun receipt => ?_
    refine (finishTransaction_settles transaction response receipt).mono fun rest _ hrest => ?_
    have hreceipt : Settles originalCallerAddress [] [⟨.getReceipt response, receipt⟩] :=
      ⟨rfl, rfl, by simp [PartlyAccepted]⟩
    exact (hreceipt.append hrest).accounted rfl id

private theorem executeTransaction_accounts (transaction : Transaction) (callerName : String)
    (shouldThrowHbarLimit : Bool) :
    Accounts originalCallerAddress
      (executeTransaction transaction callerName shouldThrowHbarLimit originalCallerAddress) := by
  cases shouldThrowHbarLimit with
  | false => exact execute_accounts transaction
  | true => exact (checkLimit_accounts _ _ _ _).bind fun _ => execute_accounts transaction

private theorem emitTransactions_settle (transaction : Transaction)
    (responses : List TransactionResponse) :
    Prog.Ensures (responses.forM (emitTransaction transaction originalCallerAddress))
      fun history _ => Settles originalCallerAddress
        (responses.map (transactionCharge originalCallerAddress)) history := by
  induction responses with
  | nil => exact Prog.ensures_pure settles_nil
  | cons response responses ih =>
    refine Prog.ensures_bind (emitTransaction_settles transaction response) ?_ ?_
    · intro history e hthrow
      cases hthrow.2
    · intro first _ hfirst
      exact ih.mono fun rest _ hrest => hfirst.1.append hrest

private theorem executeAll_accounts (transaction : Transaction) :
    Accounts originalCallerAddress
      (request (.executeAll transaction) >>=
        afterExecuteAll transaction originalCallerAddress) := by
  refine Prog.ensures_request_bind fun outcome => ?_
  rcases outcome with ⟨accepted, _ | e⟩
  · exact (emitTransactions_settle transaction accepted).mono fun _ _ h =>
      h.accounted rfl fun hpartly => hpartly.1 rfl
  · refine Prog.ensures_throw ⟨?_, ?_⟩
    · exact List.nil_sublist _
    · simp [reportsOf, chargesOf, PartlyAccepted, eq_comm]

private theorem executeAllTransaction_accounts (transaction : Transaction) (callerName : String)
    (shouldThrowHbarLimit : Bool) :
    Accounts originalCallerAddress
      (executeAllTransaction transaction callerName shouldThrowHbarLimit
        originalCallerAddress) := by
  cases shouldThrowHbarLimit with
  | false => exact executeAll_accounts transaction
  | true => exact (checkLimit_accounts _ _ _ _).bind fun _ => executeAll_accounts transaction

private theorem queryResult_accounts (result : Except SdkFailure FileInfo) :
    Accounts originalCallerAddress (queryResult result) := by
  cases result with
  | ok info => exact accounts_pure info
  | error e =>
    rw [queryResult]
    split
    · exact accounts_throw _
    · exact accounts_throw _

private theorem emitQuery_settles (fileId : String) (outcome : QueryOutcome) :
    Prog.Ensures (emitQuery originalCallerAddress outcome) fun history _ =>
      Settles originalCallerAddress
        (chargesOf originalCallerAddress ⟨.executeQuery fileId, outcome⟩) history := by
  rw [emitQuery, chargesOf]
  split
  · exact Prog.ensures_pure settles_nil
  · exact Prog.ensures_request fun _ => ⟨rfl, rfl, by simp [PartlyAccepted]⟩

private theorem executeQuery_accounts (fileId : String) :
    Accounts originalCallerAddress (executeQuery fileId originalCallerAddress) := by
  refine Prog.ensures_request_bind fun outcome => ?_
  refine Prog.ensures_bind (emitQuery_settles fileId outcome)
    (fun _ _ h => h.accounted rfl id) fun first _ hfirst => ?_
  exact (queryResult_accounts outcome.result).mono fun rest _ hrest =>
    (hfirst.accounted rfl id).append hrest

end Execution

section Files

private theorem appendFile_accounts (data : EthereumTransactionData) (callerName fileId : String) :
    Accounts originalCallerAddress
      (appendFile cfg data callerName originalCallerAddress fileId) := by
  rw [appendFile]
  split
  · exact executeAllTransaction_accounts _ _ _
  · exact accounts_pure ()

private theorem checkFile_accounts (info : FileInfo) :
    Accounts originalCallerAddress (checkFile info) := by
  rw [checkFile]
  split
  · exact accounts_throw _
  · exact accounts_pure ()

private theorem fillFile_accounts (data : EthereumTransactionData) (callerName : String)
    (fileId : Option String) :
    Accounts originalCallerAddress
      (fillFile cfg data callerName originalCallerAddress fileId) := by
  cases fileId with
  | none => exact accounts_pure none
  | some fileId =>
    refine (appendFile_accounts data callerName fileId).bind fun _ => ?_
    refine (executeQuery_accounts fileId).bind fun info => ?_
    exact (checkFile_accounts info).bind fun _ => accounts_pure (some fileId)

private theorem createFile_accounts (data : EthereumTransactionData) (callerName : String)
    (currentNetworkExchangeRateInCents : ℕ) :
    Accounts originalCallerAddress
      (createFile cfg data callerName originalCallerAddress
        currentNetworkExchangeRateInCents) := by
  refine (checkLimit_accounts _ _ _ _).bind fun _ => ?_
  refine (executeTransaction_accounts _ _ _).bind fun response => ?_
  refine (accounts_request fun receipt => ⟨rfl, rfl, id⟩).bind fun receipt => ?_
  refine Accounts.bind ?_ fun fileId => fillFile_accounts data callerName fileId
  cases receipt with
  | ok _ => exact accounts_pure response.fileId
  | error e => exact accounts_throw (.error e.message)

private theorem deleteFile_accounts (fileId callerName : String) :
    Accounts originalCallerAddress (deleteFile fileId callerName originalCallerAddress) := by
  refine Accounts.tryCatch ?_ fun _ => accounts_pure ()
  refine (executeTransaction_accounts _ _ _).bind fun _ => ?_
  exact (executeQuery_accounts fileId).bind fun _ => accounts_pure ()

end Files

section Submission

private theorem callDataFile_accounts (data : EthereumTransactionData) (callerName : String)
    (currentNetworkExchangeRateInCents : ℕ) :
    Accounts originalCallerAddress
      (callDataFile cfg data callerName originalCallerAddress
        currentNetworkExchangeRateInCents) := by
  rw [callDataFile]
  split
  · exact accounts_pure none
  · refine (createFile_accounts data callerName _).bind fun fileId => ?_
    cases fileId with
    | none => exact accounts_throw _
    | some fileId => exact accounts_pure (some fileId)

private theorem submitEthereumTransaction_accounts
    (transactionData : Except RelayError EthereumTransactionData) (callerName : String)
    (networkGasPriceInWeiBars currentNetworkExchangeRateInCents : ℕ) :
    Accounts originalCallerAddress
      (submitEthereumTransaction cfg transactionData callerName originalCallerAddress
        networkGasPriceInWeiBars currentNetworkExchangeRateInCents) := by
  cases transactionData with
  | error e => exact accounts_throw e
  | ok data =>
    refine (callDataFile_accounts data callerName _).bind fun fileId => ?_
    exact (executeTransaction_accounts _ _ _).bind fun txResponse => accounts_pure _

end Submission

end SDKClient

section Calls

/-- The calls that the client gets for a raw transaction. -/
inductive ClientCall where
  | submitEthereumTransaction (transactionData : Except RelayError EthereumTransactionData)
      (callerName originalCallerAddress : String)
      (networkGasPriceInWeiBars currentNetworkExchangeRateInCents : ℕ)
  | deleteFile (fileId callerName originalCallerAddress : String)

def ClientCall.originalCallerAddress : ClientCall → String
  | .submitEthereumTransaction _ _ originalCallerAddress _ _ => originalCallerAddress
  | .deleteFile _ _ originalCallerAddress => originalCallerAddress

def ClientCall.perform (cfg : SDKClientConfig) : ClientCall → SdkM Unit
  | .submitEthereumTransaction transactionData callerName originalCallerAddress
      networkGasPriceInWeiBars currentNetworkExchangeRateInCents => do
    let _ ← SDKClient.submitEthereumTransaction cfg transactionData callerName
      originalCallerAddress networkGasPriceInWeiBars currentNetworkExchangeRateInCents
    return
  | .deleteFile fileId callerName originalCallerAddress =>
    SDKClient.deleteFile fileId callerName originalCallerAddress

private theorem ClientCall.perform_accounts (cfg : SDKClientConfig) (call : ClientCall) :
    Accounts call.originalCallerAddress (call.perform cfg) := by
  cases call with
  | submitEthereumTransaction transactionData callerName address gasPrice rate =>
    refine Accounts.bind ?_ fun _ => accounts_pure ()
    exact SDKClient.submitEthereumTransaction_accounts transactionData callerName gasPrice rate
  | deleteFile fileId callerName address => exact SDKClient.deleteFile_accounts fileId callerName

/-- In every history of a call, the reports are one for one the charges of its caller if and only
if no append failed after the node had accepted one of its chunks. -/
theorem charges_reported_iff (cfg : SDKClientConfig) (call : ClientCall) (history : SdkHistory)
    (result : Except RelayError Unit) (hruns : (call.perform cfg).run.Runs history result) :
    (reported history).Perm (charged call.originalCallerAddress history) ↔
      ∀ event ∈ history, ¬PartlyAccepted event :=
  (call.perform_accounts cfg history result hruns).perm_iff

def exampleConfig : SDKClientConfig where
  jumboTxEnabled := false
  fileAppendChunkSize := 2
  maxChunks := 20
  maxGasAllowanceHbar := 0
  isSubsidizedTransaction := fun _ => false
  estimateFileTransactionsFee := fun _ _ _ => 0
  maxTransactionFee := fun networkGasPriceInWeiBars => networkGasPriceInWeiBars

/-- Three bytes of call data, in three chunks. -/
def exampleCall : ClientCall :=
  .submitEthereumTransaction (.ok ⟨"0x3f", "60806f", ""⟩) "eth_sendRawTransaction" "0x1a" 7 12

def exampleResponse (text : String) (hnonempty : text ≠ "") : TransactionResponse :=
  ⟨⟨text, hnonempty⟩, some "0.0.9"⟩

/-- A network where the append ends with this failure after two chunks. -/
def exampleAnswer (failure : Option SdkFailure) : (op : SdkOp) → op.Reply
  | .shouldLimit .. => .ok false
  | .execute _ => .ok (exampleResponse "0.0.2@1.1" (by decide))
  | .getReceipt _ => .ok ()
  | .executeAll _ =>
    { accepted := [exampleResponse "0.0.2@1.2" (by decide), exampleResponse "0.0.2@1.3" (by decide)]
      failure }
  | .executeQuery _ => ⟨5, "0.0.2@1.4", .ok ⟨3, false⟩⟩
  | .emitExecuteTransaction _ | .emitExecuteQuery _ => ()

theorem charges_reported_iff_chunks :
    (reported ((exampleCall.perform exampleConfig).run.answered (exampleAnswer none)).1).Perm
        (charged "0x1a" ((exampleCall.perform exampleConfig).run.answered (exampleAnswer none)).1) ↔
      ∀ event ∈ ((exampleCall.perform exampleConfig).run.answered (exampleAnswer none)).1,
        ¬PartlyAccepted event :=
  charges_reported_iff exampleConfig exampleCall _ _ (Prog.runs_answered _ _)

/-- The node accepts two chunks, and the second one fails. -/
theorem chunk_charged_unreported :
    ¬ ∀ history result, (exampleCall.perform exampleConfig).run.Runs history result →
      (reported history).Perm (charged exampleCall.originalCallerAddress history) := by
  intro h
  have hperm := h _ _ (Prog.runs_answered
    (exampleAnswer (some ⟨"BUSY", "the network is busy", ""⟩)) _)
  exact absurd hperm.length_eq (by decide)

end Calls

end JsonRpcRelay.Clients

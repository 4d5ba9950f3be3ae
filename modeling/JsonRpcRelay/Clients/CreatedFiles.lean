import JsonRpcRelay.Clients.SdkClient

/-!
# The file of a transaction

Which file the submission of a transaction creates, and when its id gets back to the caller.  A
function that goes on with the file keeps its id as long as all its requests succeed.
-/

namespace JsonRpcRelay.Clients

open Framework

section Files

/-- A file transaction that was accepted creates the file that its receipt names. -/
def createdFile : SdkEvent → Option String
  | ⟨.execute (.fileCreateTransaction _), .ok response⟩ => response.fileId
  | _ => none

def createdFiles (history : SdkHistory) : List String := history.filterMap createdFile

/-- The limit is not hit, the network does what it is asked for and the file is not empty. -/
def Succeeds : SdkEvent → Prop
  | ⟨.shouldLimit .., limited⟩ => limited = .ok false
  | ⟨.execute _, executed⟩ => ∃ response, executed = .ok response
  | ⟨.getReceipt _, receipt⟩ => receipt = .ok ()
  | ⟨.executeAll _, outcome⟩ => outcome.failure = none
  | ⟨.executeQuery _, outcome⟩ => ∃ info, outcome.result = .ok info ∧ info.size ≠ 0
  | ⟨.emitExecuteTransaction _, _⟩ | ⟨.emitExecuteQuery _, _⟩ => True

def AllSucceed (history : SdkHistory) : Prop := ∀ event ∈ history, Succeeds event

@[simp] theorem createdFiles_nil : createdFiles [] = [] := rfl

@[simp] theorem createdFiles_append (first rest : SdkHistory) :
    createdFiles (first ++ rest) = createdFiles first ++ createdFiles rest :=
  List.filterMap_append

private theorem createdFiles_cons (event : SdkEvent) (rest : SdkHistory) :
    createdFiles (event :: rest) = (createdFile event).toList ++ createdFiles rest := by
  cases h : createdFile event with
  | none => exact List.filterMap_cons_none h
  | some fileId => exact List.filterMap_cons_some h

@[simp] theorem allSucceed_nil : AllSucceed [] := by simp [AllSucceed]

@[simp] theorem allSucceed_cons (event : SdkEvent) (rest : SdkHistory) :
    AllSucceed (event :: rest) ↔ Succeeds event ∧ AllSucceed rest := List.forall_mem_cons

@[simp] theorem allSucceed_append (first rest : SdkHistory) :
    AllSucceed (first ++ rest) ↔ AllSucceed first ∧ AllSucceed rest := List.forall_mem_append

end Files

section Keeping

variable {α β : Type}

/-- A value tells the file that was created, and all requests have succeeded.  An error comes
without a file, or from a request that failed. -/
def Creates (file : α → Option String) (x : SdkM α) : Prop :=
  Prog.Ensures x fun history result =>
    (∀ a, result = .ok a → AllSucceed history ∧ createdFiles history = (file a).toList) ∧
    ∀ e, result = .error e → createdFiles history = [] ∨ ¬AllSucceed history

/-- The code that goes on with a file, which it passes on unless there is none or a request
fails. -/
def Keeps (file : Option String) (file' : α → Option String) (x : SdkM α) : Prop :=
  Prog.Ensures x fun history result => createdFiles history = [] ∧
    (∀ a, result = .ok a → AllSucceed history ∧ file' a = file) ∧
    ∀ e, result = .error e → file = none ∨ ¬AllSucceed history

private theorem keeps_pure {file : Option String} {file' : α → Option String} (a : α)
    (h : file' a = file) : Keeps file file' (Pure.pure a : SdkM α) := by
  refine Prog.ensures_pure ⟨rfl, ?_, ?_⟩
  · intro b hb
    cases hb
    exact ⟨allSucceed_nil, h⟩
  · intro e he
    cases he

private theorem keeps_throw {file' : α → Option String} (e : RelayError) :
    Keeps none file' (throw e : SdkM α) := by
  refine Prog.ensures_throw ⟨rfl, ?_, fun _ _ => Or.inl rfl⟩
  intro b hb
  cases hb

theorem Keeps.bind {file : Option String} {file' : α → Option String} {file'' : β → Option String}
    {x : SdkM α} {f : α → SdkM β} (hx : Keeps file file' x)
    (hf : ∀ a, Keeps (file' a) file'' (f a)) : Keeps file file'' (x >>= f) := by
  refine Prog.ensures_bind hx ?_ ?_
  · intro history e ⟨hcreated, _, herror⟩
    exact ⟨hcreated, by simp, fun _ _ => herror e rfl⟩
  · intro first a ⟨hcreated, hok, _⟩
    obtain ⟨hfirst, hfile⟩ := hok a rfl
    refine (hf a).mono fun rest result ⟨hcreated', hok', herror'⟩ => ⟨?_, ?_, ?_⟩
    · rw [createdFiles_append, hcreated, hcreated', List.append_nil]
    · intro b hb
      obtain ⟨hrest, hfile'⟩ := hok' b hb
      exact ⟨(allSucceed_append first rest).mpr ⟨hfirst, hrest⟩, hfile'.trans hfile⟩
    · intro e he
      rcases herror' e he with hnone | hfailed
      · exact Or.inl (hfile ▸ hnone)
      · exact Or.inr fun hall => hfailed ((allSucceed_append first rest).mp hall).2

theorem Creates.bind {file : α → Option String} {file' : β → Option String}
    {x : SdkM α} {f : α → SdkM β} (hx : Creates file x)
    (hf : ∀ a, Keeps (file a) file' (f a)) : Creates file' (x >>= f) := by
  refine Prog.ensures_bind hx ?_ ?_
  · intro history e ⟨_, herror⟩
    exact ⟨by simp, fun _ _ => herror e rfl⟩
  · intro first a ⟨hok, _⟩
    obtain ⟨hfirst, hcreated⟩ := hok a rfl
    refine (hf a).mono fun rest result ⟨hcreated', hok', herror'⟩ => ⟨?_, ?_⟩
    · intro b hb
      obtain ⟨hrest, hfile⟩ := hok' b hb
      refine ⟨(allSucceed_append first rest).mpr ⟨hfirst, hrest⟩, ?_⟩
      rw [createdFiles_append, hcreated, hcreated', List.append_nil, hfile]
    · intro e he
      rw [createdFiles_append, hcreated, hcreated', List.append_nil]
      rcases herror' e he with hnone | hfailed
      · exact Or.inl (by rw [hnone]; rfl)
      · exact Or.inr fun hall => hfailed ((allSucceed_append first rest).mp hall).2

private theorem Keeps.creates_bind {file' : β → Option String} {x : SdkM α} {f : α → SdkM β}
    (hx : Keeps none (fun _ => none) x) (hf : ∀ a, Creates file' (f a)) :
    Creates file' (x >>= f) := by
  refine Prog.ensures_bind hx ?_ ?_
  · intro history e ⟨hcreated, _, _⟩
    exact ⟨by simp, fun _ _ => Or.inl hcreated⟩
  · intro first a ⟨hcreated, hok, _⟩
    obtain ⟨hfirst, _⟩ := hok a rfl
    refine (hf a).mono fun rest result ⟨hok', herror'⟩ => ⟨?_, ?_⟩
    · intro b hb
      obtain ⟨hrest, hcreated'⟩ := hok' b hb
      refine ⟨(allSucceed_append first rest).mpr ⟨hfirst, hrest⟩, ?_⟩
      rw [createdFiles_append, hcreated, hcreated', List.nil_append]
    · intro e he
      rw [createdFiles_append, hcreated, List.nil_append]
      rcases herror' e he with hnone | hfailed
      · exact Or.inl hnone
      · exact Or.inr fun hall => hfailed ((allSucceed_append first rest).mp hall).2

theorem Keeps.creates {file : α → Option String} {x : SdkM α} (h : Keeps none file x) :
    Creates file x := by
  refine Prog.Ensures.mono h fun history result ⟨hcreated, hok, _⟩ => ⟨?_, fun _ _ => ?_⟩
  · intro a ha
    obtain ⟨hall, hfile⟩ := hok a ha
    exact ⟨hall, by rw [hcreated, hfile]; rfl⟩
  · exact Or.inl hcreated

end Keeping

namespace SDKClient

variable {cfg : SDKClientConfig} {originalCallerAddress : String} {file : Option String}

section Execution

private theorem checkLimit_keeps (callerName txConstructorName : String)
    (estimatedTxFee : Option ℕ) :
    Keeps file (fun _ => file)
      (checkLimit callerName txConstructorName originalCallerAddress estimatedTxFee) := by
  refine Prog.ensures_request_bind fun limited => ?_
  rcases limited with e | _ | _
  · exact Prog.ensures_throw ⟨rfl, by simp, by simp [Succeeds]⟩
  · exact Prog.ensures_pure ⟨rfl, by simp [Succeeds], by simp⟩
  · exact Prog.ensures_throw ⟨rfl, by simp, by simp [Succeeds]⟩

/-- The event of a transaction cannot fail. -/
theorem emitTransaction_ensures (transaction : Transaction) (response : TransactionResponse) :
    Prog.Ensures (emitTransaction transaction originalCallerAddress response)
      fun history result =>
        createdFiles history = [] ∧ AllSucceed history ∧ result = .ok () := by
  rw [emitTransaction, if_neg response.transactionId.nonempty]
  exact Prog.ensures_request fun reply => ⟨rfl, by simp [Succeeds], rfl⟩

private theorem finishTransaction_ensures (transaction : Transaction)
    (response : TransactionResponse) (receipt : Except SdkFailure Unit) :
    Prog.Ensures (finishTransaction transaction originalCallerAddress response receipt)
      fun history result => createdFiles history = [] ∧ AllSucceed history ∧
        (∀ response', result = .ok response' → receipt = .ok () ∧ response' = response) ∧
        ∀ e, result = .error e → receipt ≠ .ok () := by
  refine Prog.ensures_bind (emitTransaction_ensures transaction response) (by simp) ?_
  intro first _ ⟨hcreated, hall, _⟩
  cases receipt with
  | ok _ => exact Prog.ensures_pure (by simp [hcreated, hall])
  | error e => exact Prog.ensures_throw (by simp [hcreated, hall])

private theorem execute_keeps {transaction : Transaction}
    (hnot : ∀ contents, transaction ≠ .fileCreateTransaction contents) :
    Keeps file (fun _ => file)
      (request (.execute transaction) >>= afterExecute transaction originalCallerAddress) := by
  have hcreated : ∀ executed, createdFile ⟨.execute transaction, executed⟩ = none := by
    intro executed
    cases transaction with
    | fileCreateTransaction contents => exact absurd rfl (hnot contents)
    | _ => cases executed <;> rfl
  refine Prog.ensures_request_bind fun executed => ?_
  cases executed with
  | error e =>
    exact Prog.ensures_throw ⟨by rw [createdFiles_cons, hcreated]; rfl, by simp,
      by simp [Succeeds]⟩
  | ok response =>
    refine Prog.ensures_request_bind fun receipt => ?_
    refine (finishTransaction_ensures transaction response receipt).mono
      fun rest result ⟨hnone, hall, hok, herror⟩ => ⟨?_, ?_, ?_⟩
    · rw [createdFiles_cons, hcreated, createdFiles_cons, hnone]
      rfl
    · intro response' hresult
      simp [Succeeds, (hok response' hresult).1, hall]
    · intro e hresult
      exact Or.inr fun hsucceed => herror e hresult (by simpa [Succeeds, hall] using hsucceed)

private theorem execute_creates (contents : String) :
    Creates TransactionResponse.fileId (request (.execute (.fileCreateTransaction contents)) >>=
      afterExecute (.fileCreateTransaction contents) originalCallerAddress) := by
  refine Prog.ensures_request_bind fun executed => ?_
  cases executed with
  | error e => exact Prog.ensures_throw ⟨by simp, fun _ _ => Or.inl rfl⟩
  | ok response =>
    refine Prog.ensures_request_bind fun receipt => ?_
    refine (finishTransaction_ensures _ response receipt).mono
      fun rest result ⟨hnone, hall, hok, herror⟩ => ⟨?_, ?_⟩
    · intro response' hresult
      obtain ⟨hreceipt, hresponse⟩ := hok response' hresult
      refine ⟨by simp [Succeeds, hreceipt, hall], ?_⟩
      rw [hresponse, createdFiles_cons, createdFiles_cons, hnone, List.append_nil]
      exact List.append_nil _
    · intro e hresult
      exact Or.inr fun hsucceed => herror e hresult (by simpa [Succeeds, hall] using hsucceed)

private theorem executeTransaction_keeps {transaction : Transaction} (callerName : String)
    (shouldThrowHbarLimit : Bool)
    (hnot : ∀ contents, transaction ≠ .fileCreateTransaction contents) :
    Keeps file (fun _ => file)
      (executeTransaction transaction callerName shouldThrowHbarLimit originalCallerAddress) := by
  cases shouldThrowHbarLimit with
  | false => exact execute_keeps hnot
  | true => exact (checkLimit_keeps _ _ _).bind fun _ => execute_keeps hnot

private theorem emitTransactions_ensures (transaction : Transaction)
    (responses : List TransactionResponse) :
    Prog.Ensures (responses.forM (emitTransaction transaction originalCallerAddress))
      fun history result =>
        createdFiles history = [] ∧ AllSucceed history ∧ result = .ok () := by
  induction responses with
  | nil => exact Prog.ensures_pure ⟨rfl, allSucceed_nil, rfl⟩
  | cons response responses ih =>
    refine Prog.ensures_bind (emitTransaction_ensures transaction response) (by simp) ?_
    intro first _ ⟨hcreated, hall, _⟩
    refine ih.mono fun rest result ⟨hcreated', hall', hresult⟩ => ⟨?_, ?_, hresult⟩
    · rw [createdFiles_append, hcreated, hcreated']
      rfl
    · exact (allSucceed_append first rest).mpr ⟨hall, hall'⟩

private theorem executeAllTransaction_keeps (transaction : Transaction) (callerName : String) :
    Keeps file (fun _ => file)
      (executeAllTransaction transaction callerName false originalCallerAddress) := by
  refine Prog.ensures_request_bind fun outcome => ?_
  rcases outcome with ⟨accepted, _ | e⟩
  · refine (emitTransactions_ensures transaction accepted).mono
      fun rest result ⟨hcreated, hall, hresult⟩ => ⟨?_, ?_, ?_⟩
    · rw [createdFiles_cons, hcreated]
      rfl
    · intro _ _
      exact ⟨(allSucceed_cons _ rest).mpr ⟨rfl, hall⟩, rfl⟩
    · simp [hresult]
  · exact Prog.ensures_throw ⟨rfl, by simp, by simp [Succeeds]⟩

private theorem executeQuery_ensures (fileId : String) :
    Prog.Ensures (executeQuery fileId originalCallerAddress) fun history result =>
      createdFiles history = [] ∧
        (∀ info, result = .ok info → (AllSucceed history ↔ info.size ≠ 0)) ∧
        ∀ e, result = .error e → ¬AllSucceed history := by
  have hemit : ∀ outcome, Prog.Ensures (emitQuery originalCallerAddress outcome)
      fun history result => createdFiles history = [] ∧ AllSucceed history ∧ result = .ok () := by
    intro outcome
    rw [emitQuery]
    split
    · exact Prog.ensures_pure ⟨rfl, allSucceed_nil, rfl⟩
    · exact Prog.ensures_request fun _ => ⟨rfl, by simp [Succeeds], rfl⟩
  refine Prog.ensures_request_bind fun outcome => ?_
  refine Prog.ensures_bind (hemit outcome) (by simp) fun first _ ⟨hcreated, hall, _⟩ => ?_
  have hnone : ∀ rest : SdkHistory, rest = [] →
      createdFiles (⟨.executeQuery fileId, outcome⟩ :: (first ++ rest)) = [] := by
    intro rest hrest
    rw [hrest, List.append_nil, createdFiles_cons, hcreated]
    rfl
  cases hresult : outcome.result with
  | ok info => exact Prog.ensures_pure ⟨hnone [] rfl, by simp [Succeeds, hresult, hall], by simp⟩
  | error e =>
    rw [queryResult]
    split
    · exact Prog.ensures_throw ⟨hnone [] rfl, by simp, by simp [Succeeds, hresult]⟩
    · exact Prog.ensures_throw ⟨hnone [] rfl, by simp, by simp [Succeeds, hresult]⟩

end Execution

section Files

private theorem appendFile_keeps (data : EthereumTransactionData) (callerName fileId : String) :
    Keeps file (fun _ => file) (appendFile cfg data callerName originalCallerAddress fileId) := by
  rw [appendFile]
  split
  · exact executeAllTransaction_keeps _ _
  · exact keeps_pure () rfl

private theorem checkFile_keeps (fileId : String) :
    Keeps file (fun _ => file) (executeQuery fileId originalCallerAddress >>= checkFile) := by
  refine Prog.ensures_bind (executeQuery_ensures fileId) ?_ ?_
  · intro history e ⟨hcreated, _, herror⟩
    exact ⟨hcreated, by simp, fun _ _ => Or.inr (herror e rfl)⟩
  · intro first info ⟨hcreated, hok, _⟩
    have hall := hok info rfl
    rw [checkFile]
    split
    · next hempty => exact Prog.ensures_throw ⟨by simpa, by simp, by simp [hall, hempty]⟩
    · next hsize => exact Prog.ensures_pure ⟨by simpa, by simp [hall, hsize], by simp⟩

private theorem fillFile_keeps (data : EthereumTransactionData) (callerName : String)
    (fileId : Option String) :
    Keeps fileId id (fillFile cfg data callerName originalCallerAddress fileId) := by
  cases fileId with
  | none => exact keeps_pure none rfl
  | some fileId =>
    refine (appendFile_keeps data callerName fileId).bind fun _ => ?_
    change Keeps (some fileId) id (executeQuery fileId originalCallerAddress >>= fun info =>
      checkFile info >>= fun _ => Pure.pure (some fileId))
    rw [← bind_assoc]
    exact (checkFile_keeps fileId).bind fun _ => keeps_pure (some fileId) rfl

private theorem readFileId_keeps (response : TransactionResponse) :
    Keeps response.fileId id (request (.getReceipt response) >>= readFileId response) := by
  refine Prog.ensures_request_bind fun receipt => ?_
  cases receipt with
  | ok _ => exact Prog.ensures_pure ⟨rfl, by simp [Succeeds], by simp⟩
  | error e => exact Prog.ensures_throw ⟨rfl, by simp, by simp [Succeeds]⟩

private theorem createFile_creates (data : EthereumTransactionData) (callerName : String)
    (currentNetworkExchangeRateInCents : ℕ) :
    Creates id (createFile cfg data callerName originalCallerAddress
      currentNetworkExchangeRateInCents) := by
  refine (checkLimit_keeps _ _ _).creates_bind fun _ => ?_
  refine (execute_creates _).bind fun response => ?_
  change Keeps _ _ (request (.getReceipt response) >>= fun receipt =>
    readFileId response receipt >>= fillFile cfg data callerName originalCallerAddress)
  rw [← bind_assoc]
  exact (readFileId_keeps response).bind fun fileId => fillFile_keeps data callerName fileId

end Files

section Submission

private theorem callDataFile_creates (data : EthereumTransactionData) (callerName : String)
    (currentNetworkExchangeRateInCents : ℕ) :
    Creates id (callDataFile cfg data callerName originalCallerAddress
      currentNetworkExchangeRateInCents) := by
  rw [callDataFile]
  split
  · exact (keeps_pure none rfl).creates
  · refine (createFile_creates data callerName _).bind fun fileId => ?_
    cases fileId with
    | none => exact keeps_throw _
    | some fileId => exact keeps_pure (some fileId) rfl

theorem submitEthereumTransaction_creates
    (transactionData : Except RelayError EthereumTransactionData) (callerName : String)
    (networkGasPriceInWeiBars currentNetworkExchangeRateInCents : ℕ) :
    Creates SubmittedTransaction.fileId
      (submitEthereumTransaction cfg transactionData callerName originalCallerAddress
        networkGasPriceInWeiBars currentNetworkExchangeRateInCents) := by
  cases transactionData with
  | error e => exact (keeps_throw e).creates
  | ok data =>
    refine (callDataFile_creates data callerName _).bind fun fileId => ?_
    refine (executeTransaction_keeps _ _ ?_).bind fun txResponse => keeps_pure _ rfl
    intro contents h
    cases h

end Submission

end SDKClient

end JsonRpcRelay.Clients

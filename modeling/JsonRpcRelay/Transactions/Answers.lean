import JsonRpcRelay.Framework.History
import JsonRpcRelay.Transactions.TransactionService

/-!
# The answers to a submission

What the processor makes of the outcome of a submission and of what the mirror node answers
afterwards: the nonce that a wrong nonce is compared with, and the hash that is reported.
-/

namespace JsonRpcRelay.Transactions

open Framework

section WrongNonce

variable {cfg : RelayConfig} {tx : Transaction} {accounts : ℕ → AccountInfo} {nonces : ℕ → ℕ}
  {answer : (op : TxOp) → op.Reply}

/-- The mirror node answers the lookups of an account with the nonces in turn. -/
def withNonces (accounts : ℕ → AccountInfo) (nonces : ℕ → ℕ) (answer : (op : TxOp) → op.Reply) :
    (op : TxOp) → ℕ → op.Reply × ℕ
  | .getAccount _, reads =>
    (.ok (some { accounts reads with ethereumNonce := .number (nonces reads) }), reads + 1)
  | op, reads => (answer op, reads)

/-- What the handler of a wrong nonce answers, or throws. -/
def handleWrongNonce (cfg : RelayConfig) (tx : Transaction) (e : SDKClientError)
    (txSubmitted : Bool) (accounts : ℕ → AccountInfo) (nonces : ℕ → ℕ)
    (answer : (op : TxOp) → op.Reply) : Except TxError Answer :=
  ((sendRawTransactionErrorHandler cfg (some (.sdkClientError e)) txSubmitted tx).run.run
    (withNonces accounts nonces answer) 0).1

/-- The nonces that can be read within the retry count. -/
def readNonces (cfg : RelayConfig) (nonces : ℕ → ℕ) : List ℕ :=
  (List.range cfg.mirrorNodeRequestRetryCount).map nonces

def updatedNonceError : TxError :=
  .jsonRpcError
    (predefined.INTERNAL_ERROR "Cannot find updated account nonce for WRONG_NONCE error.")

/-- The first nonce that differs from that of the transaction decides, and without one an internal
error is reported. -/
structure ClassifiesNonce (tx : Transaction) (reads : List ℕ) (result : Except TxError Answer) :
    Prop where
  tooHigh : ∀ m, reads.find? (· ≠ tx.nonce) = some m → m < tx.nonce →
    result = .ok (.error (predefined.NONCE_TOO_HIGH tx.nonce m))
  tooLow : ∀ m, reads.find? (· ≠ tx.nonce) = some m → tx.nonce < m →
    result = .ok (.error (predefined.NONCE_TOO_LOW tx.nonce m))
  internal : result = .error updatedNonceError → ∀ m ∈ reads, m = tx.nonce

private theorem run_pollAccountNonce (n start : ℕ) :
    ((pollAccountNonce tx n).run.run (withNonces accounts nonces answer) start).1 =
      .ok (((List.range' start n).map nonces).find? (· ≠ tx.nonce)) := by
  induction n generalizing start with
  | zero => rfl
  | succ n ih =>
    have hread : (pollAccountNonce tx (n + 1)).run.run (withNonces accounts nonces answer) start =
        (if EthereumNonce.number (nonces start) ≠ .number tx.nonce then
            return some (nonces start) else do
          request .wait
          pollAccountNonce tx n : TxM (Option ℕ)).run.run (withNonces accounts nonces answer)
            (start + 1) := rfl
    rw [hread, List.range'_succ, List.map_cons]
    by_cases hsame : nonces start = tx.nonce
    · rw [if_neg (by simp [hsame]), List.find?_cons_of_neg (by simp [hsame]), ← ih]
      rfl
    · rw [if_pos (by simpa using hsame), List.find?_cons_of_pos (by simpa using hsame)]
      rfl

/-- The end of the handler: the nonce 0 is falsy like a missing one. -/
def compareNonce (tx : Transaction) : Option ℕ → Except TxError Answer
  | some (accountNonce + 1) =>
    if accountNonce + 1 < tx.nonce then
      .ok (.error (predefined.NONCE_TOO_HIGH tx.nonce (accountNonce + 1)))
    else .ok (.error (predefined.NONCE_TOO_LOW tx.nonce (accountNonce + 1)))
  | _ => .error updatedNonceError

private theorem handleWrongNonce_eq {e : SDKClientError} (hstatus : e.status = "WRONG_NONCE")
    (txSubmitted : Bool) :
    handleWrongNonce cfg tx e txSubmitted accounts nonces answer =
      compareNonce tx ((readNonces cfg nonces).find? (· ≠ tx.nonce)) := by
  have hpoll := @run_pollAccountNonce tx accounts nonces answer cfg.mirrorNodeRequestRetryCount 0
  rw [← List.range_eq_range'] at hpoll
  rw [handleWrongNonce, sendRawTransactionErrorHandler, readNonces]
  simp only [hstatus, if_true]
  rw [ExceptT.run_bind, Prog.run_bind, hpoll]
  cases ((List.range cfg.mirrorNodeRequestRetryCount).map nonces).find? (· ≠ tx.nonce) with
  | none => rfl
  | some m =>
    cases m with
    | zero => rfl
    | succ m =>
      simp only [compareNonce]
      split
      · rfl
      · rfl

private theorem compareNonce_classifies_iff (reads : List ℕ) :
    ClassifiesNonce tx reads (compareNonce tx (reads.find? (· ≠ tx.nonce))) ↔
      reads.find? (· ≠ tx.nonce) ≠ some 0 := by
  cases hfind : reads.find? (· ≠ tx.nonce) with
  | none =>
    have hsame : ∀ m ∈ reads, m = tx.nonce := by simpa using List.find?_eq_none.mp hfind
    refine iff_of_true ⟨?_, ?_, fun _ => hsame⟩ nofun
    · intro m hm
      rw [hfind] at hm
      cases hm
    · intro m hm
      rw [hfind] at hm
      cases hm
  | some m =>
    have hne : m ≠ tx.nonce := by simpa using List.find?_some hfind
    cases m with
    | zero =>
      refine iff_of_false (fun h => ?_) (by simp)
      cases h.tooHigh 0 hfind (Nat.pos_of_ne_zero hne.symm)
    | succ m =>
      refine iff_of_true ⟨?_, ?_, ?_⟩ (by simp)
      · intro m' hm' hhigh
        rw [hfind, Option.some.injEq] at hm'
        subst hm'
        exact if_pos hhigh
      · intro m' hm' hlow
        rw [hfind, Option.some.injEq] at hm'
        subst hm'
        exact if_neg (Nat.not_lt.mpr hlow.le)
      · intro hinternal
        rw [compareNonce] at hinternal
        split at hinternal
        · cases hinternal
        · cases hinternal

/-- The handler classifies a wrong nonce by the first nonce that differs if and only if that is not
the nonce 0 of an account that has sent nothing yet. -/
theorem classifies_nonce_iff {e : SDKClientError} (cfg : RelayConfig) (tx : Transaction)
    (txSubmitted : Bool) (accounts : ℕ → AccountInfo) (nonces : ℕ → ℕ)
    (answer : (op : TxOp) → op.Reply) (hstatus : e.status = "WRONG_NONCE") :
    ClassifiesNonce tx (readNonces cfg nonces)
        (handleWrongNonce cfg tx e txSubmitted accounts nonces answer) ↔
      (readNonces cfg nonces).find? (· ≠ tx.nonce) ≠ some 0 := by
  rw [handleWrongNonce_eq hstatus]
  exact compareNonce_classifies_iff _

/-- Three polls, and every check passed. -/
def threePolls : RelayConfig where
  readOnly := false
  enableNonceOrdering := false
  enableTxPool := false
  useAsyncTxProcessing := false
  mirrorNodeRequestRetryCount := 3
  checkTransaction _ _ := .ok ()
  checkAccount _ _ := .ok ()
  addPercentageBufferToGasPrice price := price
  computeTransactionHash tx := tx.serialized

def sentTransaction (nonce : ℕ) : Transaction := ⟨some "0x1a", none, nonce, "0xf8"⟩

def silentNetwork : (op : TxOp) → op.Reply
  | .acquireLock _ | .getList _ => (0 : ℕ)
  | .releaseLock .. | .addToList .. | .removeFromList .. | .deleteFile _ | .wait => ()
  | .getGasPriceInWeibars | .getCurrentNetworkExchangeRateInCents => .ok 12
  | .getAccount _ | .getContractResult _ => .ok none
  | .submitEthereumTransaction .. => .error (.error "no network")
  | .getContractRevertReasonFromTransaction _ => .ok ()

def unknownAccount (_ : ℕ) : AccountInfo := ⟨.null, none, false⟩

theorem classifies_nonce_iff_second_read :
    ClassifiesNonce (sentTransaction 5) (readNonces threePolls fun reads => 5 + reads)
      (handleWrongNonce threePolls (sentTransaction 5) ⟨"WRONG_NONCE", "", ""⟩ false unknownAccount
        (fun reads => 5 + reads) silentNetwork) :=
  (classifies_nonce_iff threePolls (sentTransaction 5) false unknownAccount (fun reads => 5 + reads)
    silentNetwork rfl).mpr (by decide)

/-- The first transaction of an account is sent with the nonce 1. -/
theorem nonce_zero_not_found :
    handleWrongNonce threePolls (sentTransaction 1) ⟨"WRONG_NONCE", "", ""⟩ false unknownAccount
        (fun _ => 0) silentNetwork = .error updatedNonceError ∧
      ¬ClassifiesNonce (sentTransaction 1) (readNonces threePolls fun _ => 0)
        (handleWrongNonce threePolls (sentTransaction 1) ⟨"WRONG_NONCE", "", ""⟩ false
          unknownAccount (fun _ => 0) silentNetwork) := by
  refine ⟨rfl, fun h => ?_⟩
  cases h.tooHigh 0 rfl Nat.one_pos

end WrongNonce

section Reports

abbrev TxHistory := History TxOp TxOp.Reply

abbrev PollReply := Except TxError (Option ContractResult)

def recordOf : PollReply → Option ContractResult
  | .ok found => found
  | .error _ => none

/-- The polls with the ids that the mirror node was asked for and its answers. -/
def polls (history : TxHistory) : List (Option String × PollReply) :=
  history.filterMap fun
    | ⟨.getContractResult transactionId, reply⟩ => some (transactionId, reply)
    | _ => none

/-- The records that the mirror node returned to the polls. -/
def returnedRecords (history : TxHistory) : List (Option String × ContractResult) :=
  (polls history).filterMap fun poll => (recordOf poll.2).map (Prod.mk poll.1)

/-- The answer of the network that the submission was accepted. -/
def Accepted (history : TxHistory) : Prop :=
  ∃ tx networkGasPriceInWeiBars response,
    ⟨.submitEthereumTransaction tx networkGasPriceInWeiBars, .ok response⟩ ∈ history

/-- The transaction ids that the answers to the submission name. -/
def namedIds (history : TxHistory) : List String :=
  history.flatMap fun
    | ⟨.submitEthereumTransaction .., .ok response⟩ => response.transactionId.toList
    | ⟨.submitEthereumTransaction .., .error (.sdkClientError e)⟩ => [e.transactionId]
    | ⟨.getCurrentNetworkExchangeRateInCents, .error (.sdkClientError e)⟩ => [e.transactionId]
    | _ => []

/-- The polls go on to the first record, or to the retry count. -/
structure UntilFound (retryCount : ℕ) (replies : List PollReply) : Prop where
  missed : ∀ reply ∈ replies.dropLast, recordOf reply = none
  within : replies.length ≤ retryCount
  ended : (∀ reply ∈ replies, recordOf reply = none) → replies.length = retryCount

/-- A hash is reported for a transaction that went through, the transaction that was named is
polled for, a record with a hash is reported, and everything else is an error. -/
structure ReportsHash (retryCount : ℕ) (history : TxHistory) (result : Except TxError Answer) :
    Prop where
  accounted : ∀ hash, result = .ok (.hash hash) → Accepted history ∨
    ∃ id record, id ∈ namedIds history ∧
      (formatTransactionIdWithoutQueryParams id, record) ∈ returnedRecords history
  polled : ∀ id ∈ namedIds history, id ≠ "" → ∃ replies,
    polls history = replies.map (Prod.mk (formatTransactionIdWithoutQueryParams id)) ∧
      UntilFound retryCount replies
  recorded : ∀ transactionId record hash, (transactionId, record) ∈ returnedRecords history →
    record.hash = some hash → result = .ok (.hash hash)
  failed : (∀ transactionId record, (transactionId, record) ∈ returnedRecords history →
    record.hash = none) → (∃ e, result = .ok (.error e)) ∨ ∃ e, result = .error e

@[simp] theorem namedIds_append (first rest : TxHistory) :
    namedIds (first ++ rest) = namedIds first ++ namedIds rest :=
  List.flatMap_append

@[simp] theorem polls_append (first rest : TxHistory) :
    polls (first ++ rest) = polls first ++ polls rest :=
  List.filterMap_append

@[simp] theorem returnedRecords_append (first rest : TxHistory) :
    returnedRecords (first ++ rest) = returnedRecords first ++ returnedRecords rest := by
  rw [returnedRecords, polls_append, List.filterMap_append]
  rfl

/-- Submissions and polls. -/
def TxOp.decides : TxOp → Bool
  | .submitEthereumTransaction .. | .getCurrentNetworkExchangeRateInCents
  | .getContractResult _ => true
  | _ => false

def decisive (history : TxHistory) : TxHistory := history.filter fun event => event.1.decides

@[simp] theorem decisive_append (first rest : TxHistory) :
    decisive (first ++ rest) = decisive first ++ decisive rest :=
  List.filter_append ..

private theorem polls_decisive (history : TxHistory) :
    polls (decisive history) = polls history := by
  rw [polls, decisive, List.filterMap_filter]
  apply List.filterMap_congr
  rintro ⟨op, reply⟩ _
  cases op <;> rfl

private theorem namedIds_decisive (history : TxHistory) :
    namedIds (decisive history) = namedIds history := by
  induction history with
  | nil => rfl
  | cons event history ih =>
    rw [← List.singleton_append, decisive_append, namedIds_append, namedIds_append, ih]
    obtain ⟨op, reply⟩ := event
    cases op <;> rfl

private theorem returnedRecords_of_decisive {history : TxHistory} (h : decisive history = []) :
    returnedRecords history = [] := by
  rw [returnedRecords, ← polls_decisive, h]
  rfl

/-- All that decides in the history are polls for the id. -/
def Asked (id : String) (retryCount : ℕ) (history : TxHistory) : Prop :=
  ∃ replies : List PollReply,
    decisive history = replies.map (fun reply =>
      ⟨.getContractResult (formatTransactionIdWithoutQueryParams id), reply⟩) ∧
    (id ≠ "" → UntilFound retryCount replies)

theorem Asked.polls {id : String} {retryCount : ℕ} {history : TxHistory}
    (h : Asked id retryCount history) : ∃ replies,
      polls history = replies.map (Prod.mk (formatTransactionIdWithoutQueryParams id)) ∧
        (id ≠ "" → UntilFound retryCount replies) := by
  obtain ⟨replies, hdecisive, huntil⟩ := h
  refine ⟨replies, ?_, huntil⟩
  rw [← polls_decisive, hdecisive, Transactions.polls, List.filterMap_map]
  exact List.filterMap_eq_map.symm ▸ rfl

private theorem Asked.namedIds {id : String} {retryCount : ℕ} {history : TxHistory}
    (h : Asked id retryCount history) : namedIds history = [] := by
  obtain ⟨replies, hdecisive, _⟩ := h
  rw [← namedIds_decisive, hdecisive, Transactions.namedIds, List.flatMap_map]
  simp

theorem UntilFound.miss {n : ℕ} {reply : PollReply} {replies : List PollReply}
    (hmissed : recordOf reply = none) (h : UntilFound n replies) :
    UntilFound (n + 1) (reply :: replies) where
  missed := by
    intro reply' hreply'
    cases replies with
    | nil => cases hreply'
    | cons next rest =>
      rcases List.mem_cons.mp hreply' with rfl | hreply'
      · exact hmissed
      · exact h.missed reply' hreply'
  within := Nat.succ_le_succ h.within
  ended hnone := congrArg Nat.succ (h.ended fun reply hreply =>
    hnone reply (List.mem_cons_of_mem _ hreply))

private theorem untilFound_first {n : ℕ} {reply : PollReply} (hfound : recordOf reply ≠ none) :
    UntilFound (n + 1) [reply] where
  missed := nofun
  within := Nat.succ_le_succ (Nat.zero_le n)
  ended hnone := absurd (hnone reply (List.mem_singleton_self _)) hfound

/-- The polls of `repeatedRequest`, of which the last one returns what is found. -/
def RepeatedPolls (transactionId : Option String) (n : ℕ) (history : TxHistory)
    (found : Option ContractResult) : Prop :=
  returnedRecords history = (found.map (Prod.mk transactionId)).toList ∧
    ∃ replies : List PollReply,
      decisive history = replies.map (fun reply => ⟨.getContractResult transactionId, reply⟩) ∧
        UntilFound n replies

private theorem repeatedRequest_ensures (transactionId : Option String) (n : ℕ) :
    Prog.Ensures (repeatedRequest transactionId n) fun history result =>
      ∃ found, result = .ok found ∧ RepeatedPolls transactionId n history found := by
  induction n with
  | zero =>
    exact Prog.ensures_pure ⟨none, rfl, rfl, [], rfl, ⟨nofun, Nat.le_refl 0, fun _ => rfl⟩⟩
  | succ n ih =>
    have hagain {reply : PollReply} (hmissed : recordOf reply = none) :
        Prog.Ensures (do request .wait; repeatedRequest transactionId n) fun rest result =>
          ∃ found, result = .ok found ∧ RepeatedPolls transactionId (n + 1)
            (⟨.getContractResult transactionId, reply⟩ :: rest) found := by
      refine Prog.ensures_request_bind fun _ => ih.mono ?_
      intro rest result ⟨found, hresult, hrecords, replies, hpolls, huntil⟩
      have hquiet : returnedRecords [⟨.getContractResult transactionId, reply⟩] = [] := by
        simp [returnedRecords, polls, hmissed]
      refine ⟨found, hresult, ?_, reply :: replies, ?_, huntil.miss hmissed⟩
      · rw [← List.singleton_append, returnedRecords_append, hquiet, List.nil_append,
          ← List.singleton_append, returnedRecords_append, hrecords]
        rfl
      · rw [List.map_cons, ← hpolls]
        rfl
    refine Prog.ensures_request_bind fun reply => ?_
    cases reply with
    | error e => exact hagain rfl
    | ok found =>
      cases found with
      | none => exact hagain rfl
      | some record =>
        exact Prog.ensures_pure ⟨some record, rfl, rfl, [.ok (some record)], rfl,
          untilFound_first nofun⟩

/-- The hash of the record that was returned, or an error of the relay, or that of the SDK with
which the submission failed. -/
def Polled (id : String) (error : Option TxError) (history : TxHistory)
    (result : Except TxError String) : Prop :=
  (∃ record hash, result = .ok hash ∧ record.hash = some hash ∧
    returnedRecords history = [(formatTransactionIdWithoutQueryParams id, record)]) ∨
  (∀ r ∈ returnedRecords history, r.2.hash = none) ∧
    ((∃ e, result = .error (.jsonRpcError e)) ∨
      ∃ e, error = some (.sdkClientError e) ∧ result = .error (.sdkClientError e))

private theorem pollTransactionHash_ensures (cfg : RelayConfig) (id : String)
    (error : Option TxError) :
    Prog.Ensures (pollTransactionHash cfg id error) fun history result =>
      Polled id error history result ∧ Asked id cfg.mirrorNodeRequestRetryCount history := by
  refine Prog.ensures_bind (repeatedRequest_ensures _ _) ?_ ?_
  · intro history e ⟨found, hfound, _⟩
    cases hfound
  · intro first contractResult ⟨found, hfound, hrecords, replies, hpolls, huntil⟩
    obtain rfl := Except.ok.inj hfound
    have hasked : Asked id cfg.mirrorNodeRequestRetryCount (first ++ []) :=
      ⟨replies, by rw [List.append_nil, hpolls], fun _ => huntil⟩
    cases contractResult with
    | none =>
      have hnone : ∀ r ∈ returnedRecords (first ++ []), r.2.hash = none := by
        rw [List.append_nil, hrecords]
        simp
      have hrelay (e : JsonRpcError) : Polled id error (first ++ []) (.error (.jsonRpcError e)) :=
        Or.inr ⟨hnone, Or.inl ⟨e, rfl⟩⟩
      cases error with
      | none => exact Prog.ensures_throw ⟨hrelay _, hasked⟩
      | some e =>
        cases e with
        | sdkClientError e =>
          exact Prog.ensures_throw ⟨Or.inr ⟨hnone, Or.inr ⟨e, rfl, rfl⟩⟩, hasked⟩
        | jsonRpcError e => exact Prog.ensures_throw ⟨hrelay _, hasked⟩
        | mirrorNodeClientError code message => exact Prog.ensures_throw ⟨hrelay _, hasked⟩
        | error message => exact Prog.ensures_throw ⟨hrelay _, hasked⟩
    | some record =>
      cases hhash : record.hash with
      | none =>
        simp only [hhash]
        refine Prog.ensures_throw ⟨Or.inr ⟨?_, Or.inl ⟨_, rfl⟩⟩, hasked⟩
        rw [List.append_nil, hrecords]
        simpa using hhash
      | some hash =>
        simp only [hhash]
        refine Prog.ensures_pure ⟨Or.inl ⟨record, hash, rfl, hhash, ?_⟩, hasked⟩
        rw [List.append_nil, hrecords]
        rfl

private theorem pollAccountNonce_ensures (tx : Transaction) (n : ℕ) :
    Prog.Ensures (pollAccountNonce tx n) fun history _ => decisive history = [] := by
  induction n with
  | zero => exact Prog.ensures_pure rfl
  | succ n ih =>
    refine Prog.ensures_bind (P := fun history _ => decisive history = []) ?_
      (fun _ _ h => h) fun first accountInfo hfirst => ?_
    · refine Prog.ensures_request_bind fun reply => ?_
      cases reply with
      | error e => exact Prog.ensures_throw rfl
      | ok accountInfo => exact Prog.ensures_pure rfl
    · have hquiet (rest : TxHistory) (hrest : decisive rest = []) :
          decisive (first ++ rest) = [] := by
        rw [decisive_append, hfirst, hrest, List.nil_append]
      cases accountInfo with
      | none => exact Prog.ensures_throw (hquiet [] rfl)
      | some accountInfo =>
        dsimp only
        split
        · exact Prog.ensures_pure (hquiet [] rfl)
        · refine Prog.ensures_request_bind fun _ => ih.mono fun rest _ hrest => ?_
          exact hquiet _ hrest

/-- The handler ends with an error, unless the transaction was submitted and what it handles is no
error of the relay. -/
def Handled (e : Option TxError) (txSubmitted : Bool) (result : Except TxError Answer) : Prop :=
  (∃ e, result = .ok (.error e)) ∨ (∃ e, result = .error e) ∨
    txSubmitted = true ∧ ∀ e', e ≠ some (.jsonRpcError e')

private theorem recordRetrieval_ensures (cfg : RelayConfig) (e : Option TxError)
    (txSubmitted : Bool) (tx : Transaction) (hother : ∀ e', e ≠ some (.jsonRpcError e')) :
    Prog.Ensures (sendRawTransactionErrorHandler.recordRetrieval cfg e txSubmitted tx)
      fun history result => decisive history = [] ∧ Handled e txSubmitted result := by
  unfold sendRawTransactionErrorHandler.recordRetrieval
  cases txSubmitted with
  | false =>
    cases e with
    | none => exact Prog.ensures_throw ⟨rfl, Or.inr (Or.inl ⟨_, rfl⟩)⟩
    | some e => exact Prog.ensures_pure ⟨rfl, Or.inl ⟨_, rfl⟩⟩
  | true =>
    have htold (result : Except TxError Answer) : Handled e true result :=
      Or.inr (Or.inr ⟨rfl, hother⟩)
    refine Prog.ensures_bind (P := fun history _ => decisive history = []) ?_
      (fun _ _ h => ⟨h, htold _⟩) fun first _ hfirst => ?_
    · refine Prog.ensures_request_bind fun reply => ?_
      cases reply with
      | error e => exact Prog.ensures_throw rfl
      | ok _ => exact Prog.ensures_pure rfl
    · refine Prog.ensures_pure ⟨?_, htold _⟩
      rw [List.append_nil, hfirst]

private theorem sendRawTransactionErrorHandler_ensures (cfg : RelayConfig) (e : Option TxError)
    (txSubmitted : Bool) (tx : Transaction) :
    Prog.Ensures (sendRawTransactionErrorHandler cfg e txSubmitted tx) fun history result =>
      decisive history = [] ∧ Handled e txSubmitted result := by
  have hretrieval := recordRetrieval_ensures cfg e txSubmitted tx
  unfold sendRawTransactionErrorHandler
  cases e with
  | none => exact hretrieval nofun
  | some e =>
    cases e with
    | jsonRpcError e => exact Prog.ensures_pure ⟨rfl, Or.inl ⟨_, rfl⟩⟩
    | mirrorNodeClientError code message => exact hretrieval nofun
    | error message => exact hretrieval nofun
    | sdkClientError e =>
      dsimp only
      split
      · refine Prog.ensures_bind (pollAccountNonce_ensures tx _)
          (fun _ _ h => ⟨h, Or.inr (Or.inl ⟨_, rfl⟩)⟩) fun first accountNonce hfirst => ?_
        have hquiet : decisive (first ++ []) = [] := by rw [List.append_nil, hfirst]
        rcases accountNonce with _ | _ | accountNonce
        · exact Prog.ensures_throw ⟨hquiet, Or.inr (Or.inl ⟨_, rfl⟩)⟩
        · exact Prog.ensures_throw ⟨hquiet, Or.inr (Or.inl ⟨_, rfl⟩)⟩
        · dsimp only
          split
          · exact Prog.ensures_pure ⟨hquiet, Or.inl ⟨_, rfl⟩⟩
          · exact Prog.ensures_pure ⟨hquiet, Or.inl ⟨_, rfl⟩⟩
      · exact hretrieval nofun

/-- What a submission that was booked as submitted says: it was accepted, and it has a valid id or
an error of the relay. -/
structure Told (history : TxHistory) (submission : Submission) : Prop where
  accepted : submission.txSubmitted = true → Accepted history
  failed : submission.txSubmitted = true → submission.submittedTransactionId.getD "" ≠ "" ∧
    submission.error = none ∨ ∃ e, submission.error = some (.jsonRpcError e)
  named : ∀ id, id ≠ "" →
    (id ∈ namedIds history ↔ submission.submittedTransactionId.getD "" = id)

private theorem isTransactionId_ne_empty {id : Option String} (h : id.any isTransactionId = true) :
    id.getD "" ≠ "" := by
  cases id with
  | none => cases h
  | some id =>
    rintro rfl
    cases h

/-- The id with which a submission fails. -/
def failedId : TxError → String
  | .sdkClientError e => e.transactionId
  | _ => ""

private theorem told_of_failure {history : TxHistory} {e : TxError}
    (h : ∀ id, id ≠ "" → (id ∈ namedIds history ↔ failedId e = id)) :
    Told history ⟨false, some (failedId e), some e⟩ :=
  ⟨nofun, nofun, h⟩

private theorem told_of_response {history : TxHistory} {tx : Transaction}
    {networkGasPriceInWeiBars : ℕ} {response : SubmissionResponse} {error : Option TxError}
    (hsent : ⟨.submitEthereumTransaction tx networkGasPriceInWeiBars, .ok response⟩ ∈ history)
    (hnamed : namedIds history = response.transactionId.toList)
    (h : response.transactionId.any isTransactionId = true ∧ error = none ∨
      ∃ e, error = some (.jsonRpcError e)) :
    Told history ⟨true, response.transactionId, error⟩ := by
  have hvalid := h.imp_left (And.imp_left isTransactionId_ne_empty)
  refine ⟨fun _ => ⟨_, _, _, hsent⟩, fun _ => hvalid, fun id hne => ?_⟩
  rw [hnamed]
  cases response.transactionId with
  | none => exact iff_of_false List.not_mem_nil fun hid => hne hid.symm
  | some named => simp [eq_comm]

private theorem submitTransaction_told (tx : Transaction) (networkGasPriceInWeiBars : ℕ) :
    Prog.Ensures (submitTransaction tx networkGasPriceInWeiBars) fun history result =>
      ∃ submission, result = .ok submission ∧ polls history = [] ∧ Told history submission := by
  have hfails {history : TxHistory} {e : TxError}
      (h : namedIds history = match e with | .sdkClientError e => [e.transactionId] | _ => [])
      (id : String) (hne : id ≠ "") : id ∈ namedIds history ↔ failedId e = id := by
    rw [h]
    cases e with
    | sdkClientError e => simp [failedId, eq_comm]
    | jsonRpcError e => simp [failedId, hne.symm]
    | mirrorNodeClientError code message => simp [failedId, hne.symm]
    | error message => simp [failedId, hne.symm]
  refine Prog.ensures_request_bind fun rate => ?_
  cases rate with
  | error e =>
    refine Prog.ensures_pure ⟨_, rfl, rfl, told_of_failure (hfails ?_)⟩
    cases e <;> rfl
  | ok rate =>
    refine Prog.ensures_request_bind fun sent => ?_
    cases sent with
    | error e =>
      refine Prog.ensures_pure ⟨_, rfl, rfl, told_of_failure (hfails ?_)⟩
      cases e <;> rfl
    | ok response =>
      have hsent (rest : TxHistory) : (⟨.submitEthereumTransaction tx networkGasPriceInWeiBars,
          .ok response⟩ : (op : TxOp) × op.Reply) ∈
            ⟨.getCurrentNetworkExchangeRateInCents, .ok rate⟩ ::
              ⟨.submitEthereumTransaction tx networkGasPriceInWeiBars, .ok response⟩ :: rest :=
        List.mem_cons_of_mem _ List.mem_cons_self
      have hnamed (rest : TxHistory) (hrest : namedIds rest = []) : namedIds
          (⟨.getCurrentNetworkExchangeRateInCents, .ok rate⟩ ::
            ⟨.submitEthereumTransaction tx networkGasPriceInWeiBars, .ok response⟩ :: rest) =
              response.transactionId.toList := by
        change response.transactionId.toList ++ namedIds rest = _
        rw [hrest, List.append_nil]
      obtain ⟨transactionId, fileId⟩ := response
      cases fileId with
      | none =>
        have htold {error : Option TxError} (h : transactionId.any isTransactionId = true ∧
            error = none ∨ ∃ e, error = some (.jsonRpcError e)) :=
          told_of_response (hsent []) (hnamed [] rfl) h
        dsimp only
        split
        · next h => exact Prog.ensures_pure ⟨_, rfl, rfl, htold (Or.inl ⟨h, rfl⟩)⟩
        · exact Prog.ensures_pure ⟨_, rfl, rfl, htold (Or.inr ⟨_, rfl⟩)⟩
      | some fileId =>
        refine Prog.ensures_request_bind fun _ => ?_
        have htold {error : Option TxError} (h : transactionId.any isTransactionId = true ∧
            error = none ∨ ∃ e, error = some (.jsonRpcError e)) :=
          told_of_response (hsent [⟨.deleteFile fileId, ()⟩]) (hnamed [⟨.deleteFile fileId, ()⟩] rfl)
            h
        dsimp only
        split
        · next h => exact Prog.ensures_pure ⟨_, rfl, rfl, htold (Or.inl ⟨h, rfl⟩)⟩
        · exact Prog.ensures_pure ⟨_, rfl, rfl, htold (Or.inr ⟨_, rfl⟩)⟩

/-- The answer is the hash of the record that the polls returned, or an error if they returned none
with a hash. -/
def AnsweredBy (submission : Submission) (history : TxHistory) (result : Except TxError Answer) :
    Prop :=
  (∃ id record hash, submission.submittedTransactionId.getD "" = id ∧ id ≠ "" ∧
    result = .ok (.hash hash) ∧ record.hash = some hash ∧
      returnedRecords history = [(formatTransactionIdWithoutQueryParams id, record)]) ∨
  (∀ r ∈ returnedRecords history, r.2.hash = none) ∧
    ((∃ e, result = .ok (.error e)) ∨ ∃ e, result = .error e)

private theorem AnsweredBy.of_handled {submission : Submission} {history : TxHistory}
    {e : Option TxError}
    {result : Except TxError Answer} (hrecords : ∀ r ∈ returnedRecords history, r.2.hash = none)
    (h : Handled e submission.txSubmitted result)
    (hrelay : submission.txSubmitted = true → ∃ e', e = some (.jsonRpcError e')) :
    AnsweredBy submission history result := by
  rcases h with herror | herror | ⟨hsubmitted, hother⟩
  · exact Or.inr ⟨hrecords, Or.inl herror⟩
  · exact Or.inr ⟨hrecords, Or.inr herror⟩
  · obtain ⟨e', he'⟩ := hrelay hsubmitted
    exact absurd he' (hother e')

private theorem AnsweredBy.of_quiet {submission : Submission} {first rest : TxHistory}
    {result : Except TxError Answer} (h : AnsweredBy submission rest result)
    (hquiet : decisive first = []) : AnsweredBy submission (first ++ rest) result := by
  rw [AnsweredBy, returnedRecords_append, returnedRecords_of_decisive hquiet, List.nil_append]
  exact h

private theorem Asked.of_quiet {id : String} {retryCount : ℕ} {first rest : TxHistory}
    (h : Asked id retryCount rest) (hquiet : decisive first = []) :
    Asked id retryCount (first ++ rest) := by
  rw [Asked, decisive_append, hquiet, List.nil_append]
  exact h

/-- After a submission, its transaction is polled for and the answer is made of the polls. -/
def PolledAndAnswered (retryCount : ℕ) (submission : Submission) (history : TxHistory)
    (result : Except TxError Answer) : Prop :=
  AnsweredBy submission history result ∧
    Asked (submission.submittedTransactionId.getD "") retryCount history

private theorem answerSubmission_ensures (cfg : RelayConfig) (tx : Transaction)
    (submission : Submission) (hfailed : submission.txSubmitted = true →
      submission.submittedTransactionId.getD "" ≠ "" ∧ submission.error = none ∨
        ∃ e, submission.error = some (.jsonRpcError e)) :
    Prog.Ensures (answerSubmission cfg tx submission)
      (PolledAndAnswered cfg.mirrorNodeRequestRetryCount submission) := by
  unfold answerSubmission
  by_cases hid : submission.submittedTransactionId.getD "" = ""
  · simp only [hid, if_true]
    refine (sendRawTransactionErrorHandler_ensures _ _ _ _).mono fun history result h => ?_
    refine ⟨AnsweredBy.of_handled ?_ h.2 fun hsubmitted => ?_, [], h.1, fun hne => absurd hid hne⟩
    · rw [returnedRecords_of_decisive h.1]
      exact nofun
    · exact (hfailed hsubmitted).resolve_left fun hvalid => hvalid.1 hid
  · simp only [hid, if_false]
    have hpolled := Prog.ensures_caught (pollTransactionHash_ensures cfg
      (submission.submittedTransactionId.getD "") submission.error)
    refine Prog.ensures_bind hpolled ?_ ?_
    · intro history e ⟨polled, hresult, _⟩
      cases hresult
    · intro first polled ⟨polled', hresult, hcases, hasked⟩
      obtain rfl := Except.ok.inj hresult
      have hkept (rest : TxHistory) (hrest : decisive rest = []) :
          Asked (submission.submittedTransactionId.getD "") cfg.mirrorNodeRequestRetryCount
            (first ++ rest) := by
        rw [Asked, decisive_append, hrest, List.append_nil]
        exact hasked
      rcases hcases with ⟨record, hash, rfl, hhash, hrecords⟩ | ⟨hrecords, hthrown⟩
      · refine Prog.ensures_pure
          ⟨Or.inl ⟨_, record, hash, rfl, hid, rfl, hhash, ?_⟩, hkept [] rfl⟩
        rw [List.append_nil, hrecords]
      · have hhandler (e : TxError)
            (hrelay : submission.txSubmitted = true → ∃ e', some e = some (.jsonRpcError e')) :
            Prog.Ensures
              (sendRawTransactionErrorHandler cfg (some e) submission.txSubmitted tx)
              fun rest result => PolledAndAnswered cfg.mirrorNodeRequestRetryCount submission
                (first ++ rest) result := by
          refine (sendRawTransactionErrorHandler_ensures _ _ _ _).mono fun rest result h => ?_
          refine ⟨AnsweredBy.of_handled ?_ h.2 hrelay, hkept rest h.1⟩
          rw [returnedRecords_append, returnedRecords_of_decisive h.1, List.append_nil]
          exact hrecords
        rcases hthrown with ⟨e, rfl⟩ | ⟨e, herror, rfl⟩
        · exact hhandler _ fun _ => ⟨e, rfl⟩
        · refine hhandler _ fun hsubmitted => ?_
          rcases hfailed hsubmitted with ⟨_, hnone⟩ | ⟨e', hjson⟩
          · rw [herror] at hnone
            cases hnone
          · rw [herror] at hjson
            cases hjson

private theorem releaseSession_ensures (cfg : RelayConfig) (address : String)
    (lockSessionKey : Option SessionKey) :
    Prog.Ensures (releaseSession cfg address lockSessionKey) fun history result =>
      decisive history = [] ∧ result = .ok () := by
  cases lockSessionKey with
  | none => exact Prog.ensures_pure ⟨rfl, rfl⟩
  | some sessionKey =>
    simp only [releaseSession, releaseLock]
    split
    · exact Prog.ensures_request fun _ => ⟨rfl, rfl⟩
    · exact Prog.ensures_pure ⟨rfl, rfl⟩

private theorem removeTransaction_ensures (cfg : RelayConfig) (address rlpHex : String) :
    Prog.Ensures (removeTransaction cfg address rlpHex) fun history result =>
      decisive history = [] ∧ result = .ok () := by
  rw [removeTransaction]
  split
  · exact Prog.ensures_pure ⟨rfl, rfl⟩
  · exact Prog.ensures_request fun _ => ⟨rfl, rfl⟩

private theorem sendRawTransactionProcessor_ensures (cfg : RelayConfig) (tx : Transaction)
    (networkGasPriceInWeiBars : ℕ) (lockSessionKey : Option SessionKey) :
    Prog.Ensures (sendRawTransactionProcessor cfg tx networkGasPriceInWeiBars lockSessionKey)
      fun history result => ∃ submission first rest, history = first ++ rest ∧
        polls first = [] ∧ Told first submission ∧
          PolledAndAnswered cfg.mirrorNodeRequestRetryCount submission rest result := by
  refine Prog.ensures_bind (submitTransaction_told tx networkGasPriceInWeiBars) ?_ ?_
  · intro history e ⟨_, hresult, _⟩
    cases hresult
  · intro submitted submission ⟨_, hresult, hsubmitted, htold⟩
    obtain rfl := Except.ok.inj hresult
    refine Prog.ensures_bind (releaseSession_ensures cfg _ lockSessionKey) ?_ ?_
    · intro history e ⟨_, hresult⟩
      cases hresult
    · intro released _ ⟨hreleased, _⟩
      refine Prog.ensures_bind (removeTransaction_ensures cfg _ _) ?_ ?_
      · intro history e ⟨_, hresult⟩
        cases hresult
      · intro removed _ ⟨hremoved, _⟩
        refine (answerSubmission_ensures cfg tx submission htold.failed).mono ?_
        intro polled result ⟨hanswered, hasked⟩
        exact ⟨submission, submitted, released ++ (removed ++ polled), rfl, hsubmitted, htold,
          (hanswered.of_quiet hremoved).of_quiet hreleased,
          (hasked.of_quiet hremoved).of_quiet hreleased⟩

/-- In every history of the processor, a hash is reported for a transaction that went through, the
transaction that the submission named is polled for up to the retry count, the hash of a record
that the mirror node returned is reported, and everything else ends with an error. -/
theorem processor_reports_hash (cfg : RelayConfig) (tx : Transaction)
    (networkGasPriceInWeiBars : ℕ) (lockSessionKey : Option SessionKey) (history : TxHistory)
    (result : Except TxError Answer)
    (hruns : (sendRawTransactionProcessor cfg tx networkGasPriceInWeiBars lockSessionKey).run.Runs
      history result) : ReportsHash cfg.mirrorNodeRequestRetryCount history result := by
  obtain ⟨submission, first, rest, rfl, hfirst, htold, hanswered, hasked⟩ :=
    sendRawTransactionProcessor_ensures cfg tx networkGasPriceInWeiBars lockSessionKey history
      result hruns
  have hnamed (id : String) (hne : id ≠ "") :
      id ∈ namedIds (first ++ rest) ↔ submission.submittedTransactionId.getD "" = id := by
    rw [namedIds_append, hasked.namedIds, List.append_nil]
    exact htold.named id hne
  have hpolled (id : String) (hid : id ∈ namedIds (first ++ rest)) (hne : id ≠ "") :
      ∃ replies, polls (first ++ rest) =
        replies.map (Prod.mk (formatTransactionIdWithoutQueryParams id)) ∧
          UntilFound cfg.mirrorNodeRequestRetryCount replies := by
    obtain ⟨replies, hpolls, huntil⟩ := hasked.polls
    rw [(hnamed id hne).mp hid] at hpolls huntil
    refine ⟨replies, ?_, huntil hne⟩
    rw [polls_append, hfirst, hpolls, List.nil_append]
  have hrecords : returnedRecords (first ++ rest) = returnedRecords rest := by
    rw [returnedRecords_append, returnedRecords, hfirst]
    rfl
  rcases hanswered with ⟨id, record, hash, hid, hne, rfl, hhash, hrest⟩ | ⟨hrest, herror⟩
  · rw [← hrecords] at hrest
    refine ⟨fun _ _ => Or.inr ⟨id, record, (hnamed id hne).mpr hid, ?_⟩, hpolled, ?_, ?_⟩
    · rw [hrest]
      exact List.mem_singleton_self _
    · intro transactionId record' hash' hmem hhash'
      rw [hrest, List.mem_singleton] at hmem
      cases hmem
      rw [hhash, Option.some.injEq] at hhash'
      rw [hhash']
    · intro hnone
      have hnull := hnone _ record (by rw [hrest]; exact List.mem_singleton_self _)
      rw [hhash] at hnull
      cases hnull
  · rw [← hrecords] at hrest
    refine ⟨?_, hpolled, ?_, fun _ => herror⟩
    · rintro hash rfl
      rcases herror with ⟨e, he⟩ | ⟨e, he⟩
      · cases he
      · cases he
    · intro transactionId record hash hmem hhash
      have hnull := hrest _ hmem
      rw [hhash] at hnull
      cases hnull

/-- The SDK gives up waiting, and the mirror node has the record. -/
def timedOutNetwork : (op : TxOp) → op.Reply
  | .submitEthereumTransaction .. =>
    .error (.sdkClientError ⟨"UNKNOWN", "timeout exceeded", "0.0.2@1.1"⟩)
  | .getContractResult _ => .ok (some ⟨some "0xab"⟩)
  | op => silentNetwork op

def timedOutRun : TxHistory × Except TxError Answer :=
  (sendRawTransactionProcessor threePolls (sentTransaction 5) 7 none).run.answered timedOutNetwork

theorem processor_reports_hash_timeout :
    ReportsHash 3 timedOutRun.1 timedOutRun.2 ∧ timedOutRun.2 = .ok (.hash "0xab") :=
  ⟨processor_reports_hash threePolls (sentTransaction 5) 7 none _ _ (Prog.runs_answered _ _), rfl⟩

end Reports

end JsonRpcRelay.Transactions

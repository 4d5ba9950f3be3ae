import JsonRpcRelay.Framework.Discipline
import JsonRpcRelay.Transactions.TransactionService

/-!
# The stages of a submission

A call of `sendRawTransaction` takes the lock of the sender and a place in the pool.  The
discipline below says when it may use them, and every call keeps it whatever the mirror node
and the network answer: it ends with the lock given back and the place left.
-/

namespace JsonRpcRelay.Transactions

open Framework Lock

/-- How far a call has come. -/
structure CallStage where
  tx : Transaction
  session : Option SessionKey
  /-- Between `acquireLock` and the first `releaseLock`. -/
  holding : Bool
  saved : Bool
  /-- Between `saveTransaction` and `removeTransaction`. -/
  pooled : Bool
  /-- The submission to the network has completed. -/
  submitted : Bool
  /-- The nonce of the sender that the mirror node has last reported to the call. -/
  accountNonce : EthereumNonce

def CallStage.start (tx : Transaction) : CallStage := ⟨tx, none, false, false, false, false, .undefined⟩

/-- The key of the sender in the lock service and in the pool. -/
def Transaction.sender (tx : Transaction) : Option String := tx.fromAddress.map normalizeAddress

variable (cfg : RelayConfig)

/-- A call uses its own lock and its own entry of the pool, and with nonce ordering it looks into
the pool, enters it and submits only while it holds the lock. -/
def TxOp.allowed (st : CallStage) : TxOp → Prop
  | .acquireLock address => st.session = none ∧ st.tx.fromAddress = some address
  | .releaseLock address sessionKey =>
      st.session = some sessionKey ∧ st.tx.fromAddress = some address
  | .getList address =>
      st.tx.sender = some address ∧ (cfg.enableNonceOrdering → st.holding) ∧ st.pooled = false
  | .addToList address rlpHex =>
      st.tx.sender = some address ∧ rlpHex = st.tx.serialized ∧
        (cfg.enableNonceOrdering → st.holding)
  | .removeFromList address rlpHex => st.tx.sender = some address ∧ rlpHex = st.tx.serialized
  | .submitEthereumTransaction tx _ => tx = st.tx ∧ (cfg.enableNonceOrdering → st.holding)
  | _ => True

/-- The call has read an account, which may be the one of the sender. -/
def CallStage.readAccount (st : CallStage) (address : String) :
    Except TxError (Option AccountInfo) → CallStage
  | .ok (some info) =>
      if st.tx.fromAddress = some address then { st with accountNonce := info.ethereumNonce }
      else st
  | _ => st

def CallStage.next (st : CallStage) : (op : TxOp) → op.Reply → CallStage
  | .acquireLock _, sessionKey => { st with session := some sessionKey, holding := true }
  | .releaseLock .., _ => { st with holding := false }
  | .addToList .., _ => { st with saved := true, pooled := true }
  | .removeFromList .., _ => { st with pooled := false }
  | .submitEthereumTransaction .., _ => { st with submitted := true }
  | .getAccount address, reply => st.readAccount address reply
  | _, _ => st

def callDiscipline : Discipline TxOp TxOp.Reply CallStage where
  allowed st op := op.allowed cfg st
  next := CallStage.next

section Quiet

variable {cfg} {α β : Type} {st st' st'' : CallStage}

/-- The lock and the pool entry of the call are where they were. -/
structure Similar (st st' : CallStage) : Prop where
  tx : st'.tx = st.tx
  session : st'.session = st.session
  holding : st'.holding = st.holding
  saved : st'.saved = st.saved
  pooled : st'.pooled = st.pooled

theorem Similar.refl (st : CallStage) : Similar st st := ⟨rfl, rfl, rfl, rfl, rfl⟩

theorem Similar.trans (h : Similar st st') (h' : Similar st' st'') : Similar st st'' :=
  ⟨h'.tx.trans h.tx, h'.session.trans h.session, h'.holding.trans h.holding,
    h'.saved.trans h.saved, h'.pooled.trans h.pooled⟩

theorem similar_readAccount (address : String) (reply : Except TxError (Option AccountInfo)) :
    Similar st (st.readAccount address reply) := by
  unfold CallStage.readAccount
  split
  · split
    · exact ⟨rfl, rfl, rfl, rfl, rfl⟩
    · exact Similar.refl st
  · exact Similar.refl st

theorem accountNonce_readAccount {address : String} {reply : Except TxError (Option AccountInfo)}
    {m : ℕ} (h : (st.readAccount address reply).accountNonce = .number m) :
    st.accountNonce = .number m ∨ ∃ info, reply = .ok (some info) ∧
      st.tx.fromAddress = some address ∧ info.ethereumNonce = .number m := by
  unfold CallStage.readAccount at h
  split at h
  · rename_i info
    split at h
    · rename_i hfrom
      exact .inr ⟨info, rfl, hfrom, h⟩
    · exact .inl h
  · exact .inl h

/-- Code that leaves lock and pool alone. -/
def Quiet (cfg : RelayConfig) (x : TxM α) : Prop :=
  ∀ st, (callDiscipline cfg).wp x.run (fun _ st' => Similar st st') st

def TxOp.isQuiet : TxOp → Bool
  | .acquireLock _ | .releaseLock .. | .getList _ | .addToList .. | .removeFromList ..
  | .submitEthereumTransaction .. => false
  | _ => true

private theorem quiet_pure (a : α) : Quiet cfg (pure a) := fun st => Similar.refl st

private theorem quiet_throw (e : TxError) : Quiet cfg (throw e : TxM α) := fun st => Similar.refl st

private theorem quiet_request {op : TxOp} (h : op.isQuiet = true) : Quiet cfg (request op) := by
  intro st
  cases op <;> try cases h
  case getAccount address => exact ⟨trivial, fun r => similar_readAccount address r⟩
  all_goals exact ⟨trivial, fun _ => Similar.refl st⟩

theorem Quiet.bind {x : TxM α} {f : α → TxM β} (hx : Quiet cfg x) (hf : ∀ a, Quiet cfg (f a)) :
    Quiet cfg (x >>= f) := by
  intro st
  apply Discipline.wp_run_bind (hx st)
  · intro a st' hst
    exact Discipline.wp_mono (hf a st') fun _ _ hst' => hst.trans hst'
  · exact fun _ _ hst => hst

theorem Quiet.map {x : TxM α} (f : α → β) (hx : Quiet cfg x) : Quiet cfg (f <$> x) :=
  fun st => Discipline.wp_run_map (hx st)

theorem Quiet.tryCatch {x : TxM α} {f : TxError → TxM α} (hx : Quiet cfg x)
    (hf : ∀ e, Quiet cfg (f e)) : Quiet cfg (tryCatch x f) := by
  intro st
  apply Discipline.wp_run_tryCatch (hx st)
  · exact fun _ _ hst => hst
  · intro e st' hst
    exact Discipline.wp_mono (hf e st') fun _ _ hst' => hst.trans hst'

theorem Quiet.await {x : TxM (Except TxError α)} (hx : Quiet cfg x) : Quiet cfg (await x) := by
  apply hx.bind
  intro r
  cases r with
  | ok a => exact quiet_pure a
  | error e => exact quiet_throw e

private theorem quiet_repeatedRequest (transactionId : Option String) (n : ℕ) :
    Quiet cfg (repeatedRequest transactionId n) := by
  induction n with
  | zero => exact quiet_pure none
  | succ n ih =>
    apply (quiet_request rfl).bind
    intro r
    have hagain : Quiet cfg (do request .wait; repeatedRequest transactionId n) :=
      (quiet_request rfl).bind fun _ => ih
    match r with
    | .ok (some result) => exact quiet_pure _
    | .ok none => exact hagain
    | .error _ => exact hagain

private theorem quiet_verifyAccount (tx : Transaction) : Quiet cfg (verifyAccount tx) := by
  apply (quiet_request rfl).await.bind
  intro r
  cases r with
  | some info => exact quiet_pure info
  | none => exact quiet_throw _

private theorem quiet_receiverAccount (tx : Transaction) : Quiet cfg (receiverAccount tx) := by
  unfold receiverAccount
  split
  · exact quiet_pure ()
  · apply (quiet_request rfl).await.bind
    intro r
    cases r with
    | some info =>
      dsimp only
      split
      · exact quiet_throw _
      · exact quiet_pure ()
    | none => exact quiet_pure ()

private theorem quiet_pollAccountNonce (tx : Transaction) (n : ℕ) :
    Quiet cfg (pollAccountNonce tx n) := by
  induction n with
  | zero => exact quiet_pure none
  | succ n ih =>
    apply (quiet_request rfl).await.bind
    intro r
    cases r with
    | some info =>
      dsimp only
      split
      · exact quiet_pure _
      · exact (quiet_request rfl).bind fun _ => ih
    | none => exact quiet_throw _

private theorem quiet_recordRetrieval (e : Option TxError) (txSubmitted : Bool) (tx : Transaction) :
    Quiet cfg (sendRawTransactionErrorHandler.recordRetrieval cfg e txSubmitted tx) := by
  unfold sendRawTransactionErrorHandler.recordRetrieval
  split
  · cases e with
    | some e => exact quiet_pure _
    | none => exact quiet_throw _
  · exact (quiet_request rfl).await.bind fun _ => quiet_pure _

private theorem quiet_sendRawTransactionErrorHandler (e : Option TxError) (txSubmitted : Bool)
    (tx : Transaction) : Quiet cfg (sendRawTransactionErrorHandler cfg e txSubmitted tx) := by
  unfold sendRawTransactionErrorHandler
  split
  · exact quiet_pure _
  · split
    · apply (quiet_pollAccountNonce tx _).bind
      intro accountNonce
      match accountNonce with
      | some (accountNonce + 1) =>
        dsimp only
        split
        · exact quiet_pure _
        · exact quiet_pure _
      | some 0 => exact quiet_throw _
      | none => exact quiet_throw _
    · exact quiet_recordRetrieval _ _ _
  · exact quiet_recordRetrieval _ _ _

private theorem quiet_pollTransactionHash (id : String) (error : Option TxError) :
    Quiet cfg (pollTransactionHash cfg id error) := by
  apply (quiet_repeatedRequest _ _).bind
  intro r
  cases r with
  | none =>
    dsimp only
    split
    · exact quiet_throw _
    · exact quiet_throw _
  | some result =>
    dsimp only
    split
    · exact quiet_throw _
    · exact quiet_pure _

private theorem quiet_answerSubmission (tx : Transaction) (submission : Submission) :
    Quiet cfg (answerSubmission cfg tx submission) := by
  unfold answerSubmission
  dsimp only
  split
  · exact quiet_sendRawTransactionErrorHandler _ _ _
  · apply (((quiet_pollTransactionHash _ _).map _).tryCatch fun e => quiet_pure _).bind
    intro polled
    cases polled with
    | ok hash => exact quiet_pure _
    | error e => exact quiet_sendRawTransactionErrorHandler _ _ _

end Quiet

section Calls

variable {cfg} {tx : Transaction} {st st' : CallStage}

/-- The call may look into the pool, enter it and submit. -/
def Locked (cfg : RelayConfig) (st : CallStage) : Prop :=
  cfg.enableNonceOrdering = true → st.holding = true

private theorem Similar.locked (h : Similar st st') (hlocked : Locked cfg st) : Locked cfg st' :=
  fun ho => h.holding.trans (hlocked ho)

private theorem wp_getPendingCount (hlocked : st.tx.fromAddress.isSome → Locked cfg st)
    (hpooled : st.pooled = false) :
    (callDiscipline cfg).wp (getPendingCount st.tx.fromAddress).run
      (fun r st' => Similar st st' ∧ (r.isOk → st.tx.fromAddress.isSome)) st := by
  unfold getPendingCount
  cases hfrom : st.tx.fromAddress with
  | none => exact ⟨Similar.refl st, fun h => by cases h⟩
  | some address =>
    refine ⟨⟨?_, hlocked (by simp [hfrom]), hpooled⟩, fun _ => ⟨Similar.refl st, fun _ => rfl⟩⟩
    simp [Transaction.sender, hfrom]

private theorem wp_sendRawTransactionCheck (price : ℕ)
    (hlocked : st.tx.fromAddress.isSome → Locked cfg st) (hpooled : st.pooled = false) :
    (callDiscipline cfg).wp (sendRawTransactionCheck cfg st.tx price).run
      (fun r st' => Similar st st' ∧ (r.isOk → st.tx.fromAddress.isSome)) st := by
  have hcheck : Quiet cfg (await (return cfg.checkTransaction st.tx price)) :=
    (quiet_pure _).await
  have hfails : ∀ (e : TxError) (st' : CallStage), Similar st st' →
      Similar st st' ∧ ((Except.error e : Except TxError Unit).isOk → st.tx.fromAddress.isSome) :=
    fun e st' hst => ⟨hst, fun h => by cases h⟩
  apply Discipline.wp_run_bind (hcheck st) _ hfails
  intro _ st₁ hst₁
  apply Discipline.wp_run_bind (quiet_verifyAccount st.tx st₁) _
    fun e st' hst => hfails e st' (hst₁.trans hst)
  intro mirrorAccountInfo st₂ hst₂
  have hst := hst₁.trans hst₂
  have hpending := @wp_getPendingCount cfg st₂ (fun hfrom => hst.locked (hlocked (by
    rw [← hst.tx]
    exact hfrom))) (hst.pooled.trans hpooled)
  rw [hst.tx] at hpending
  apply Discipline.wp_run_bind hpending _ fun e st' hst' => hfails e st' (hst.trans hst'.1)
  rintro pendingCount st₃ ⟨hst₃, hfrom⟩
  have hrest : Quiet cfg (do
      await (return nonce st.tx (mirrorAccountInfo.ethereumNonce.plus pendingCount))
      await (return cfg.checkAccount st.tx mirrorAccountInfo)
      receiverAccount st.tx) :=
    (quiet_pure _).await.bind fun _ => (quiet_pure _).await.bind fun _ => quiet_receiverAccount _
  apply Discipline.wp_mono (hrest st₃)
  exact fun r st₄ hst₄ => ⟨hst.trans (hst₃.trans hst₄), fun _ => hfrom rfl⟩

private theorem wp_validateRawTransaction (price : ℕ) (htx : st.tx = tx)
    (hlocked : tx.fromAddress.isSome → Locked cfg st) (hpooled : st.pooled = false) :
    (callDiscipline cfg).wp (validateRawTransaction cfg tx price).run
      (fun r st' => Similar st st' ∧ (r.isOk → tx.fromAddress.isSome)) st := by
  subst htx
  apply Discipline.wp_run_tryCatch (wp_sendRawTransactionCheck price hlocked hpooled)
  · exact fun _ _ h => h
  · rintro e st' ⟨hst, _⟩
    cases e <;> exact ⟨hst, fun h => by cases h⟩

private theorem wp_submitTransaction (price : ℕ) (hlocked : Locked cfg st) :
    (callDiscipline cfg).wp (submitTransaction st.tx price).run
      (fun r st' => Similar st st' ∧ r.isOk) st := by
  have hsent : Similar st { st with submitted := true } := ⟨rfl, rfl, rfl, rfl, rfl⟩
  have hrest : ∀ id : Option String, (callDiscipline cfg).wp
      (if id.any isTransactionId then
        pure { txSubmitted := true, submittedTransactionId := id, error := none }
      else
        pure { txSubmitted := true, submittedTransactionId := id
               error := some (.jsonRpcError (predefined.INTERNAL_ERROR
                ("Transaction successfully submitted but returned invalid transactionID: " ++
                  "transactionId==" ++ id.getD "undefined"))) } : TxM Submission).run
      (fun r st' => Similar st st' ∧ r.isOk) { st with submitted := true } := by
    intro id
    split
    · exact ⟨hsent, rfl⟩
    · exact ⟨hsent, rfl⟩
  refine ⟨trivial, fun rate => ?_⟩
  cases rate with
  | error e => exact ⟨Similar.refl st, rfl⟩
  | ok _ =>
    refine ⟨⟨rfl, hlocked⟩, fun sent => ?_⟩
    match sent with
    | .error e => exact ⟨hsent, rfl⟩
    | .ok ⟨id, none⟩ => exact hrest id
    | .ok ⟨id, some fileId⟩ => exact ⟨trivial, fun _ => hrest id⟩

/-- With a transaction of a sender, the lock and the place in the pool are the call's own. -/
structure Entered (cfg : RelayConfig) (st : CallStage) : Prop where
  sender : st.tx.fromAddress.isSome
  locked : Locked cfg st
  ordering : st.session.isSome → cfg.enableNonceOrdering = true
  holding : st.holding = true → st.session.isSome
  pooled : st.pooled = true → cfg.enableTxPool = true

/-- Lock and place are given back. -/
structure Returned (st st' : CallStage) : Prop where
  tx : st'.tx = st.tx
  session : st'.session = st.session
  saved : st'.saved = st.saved
  holding : st'.holding = false
  pooled : st'.pooled = false

private theorem Returned.similar {st'' : CallStage} (h : Returned st st') (h' : Similar st' st'') :
    Returned st st'' :=
  ⟨h'.tx.trans h.tx, h'.session.trans h.session, h'.saved.trans h.saved,
    h'.holding.trans h.holding, h'.pooled.trans h.pooled⟩

private theorem wp_releaseSession {address : String} {lockSessionKey : Option SessionKey}
    (hsession : st.session = lockSessionKey)
    (hfrom : lockSessionKey.isSome → st.tx.fromAddress = some address)
    (hordering : lockSessionKey.isSome → cfg.enableNonceOrdering = true)
    (hholding : st.holding = true → lockSessionKey.isSome) :
    (callDiscipline cfg).wp (releaseSession cfg address lockSessionKey).run
      (fun r st' => r = .ok () ∧ st' = { st with holding := false }) st := by
  cases lockSessionKey with
  | none =>
    have hfree : st.holding = false := by simpa using hholding
    exact ⟨rfl, by rw [← hfree]⟩
  | some sessionKey =>
    simp only [releaseSession, releaseLock, hordering rfl, if_true]
    exact ⟨⟨hsession, hfrom rfl⟩, fun _ => ⟨rfl, rfl⟩⟩

private theorem wp_removeTransaction {address : String} (htx : st.tx = tx)
    (hfrom : tx.fromAddress = some address)
    (hpooled : st.pooled = true → cfg.enableTxPool = true) :
    (callDiscipline cfg).wp (removeTransaction cfg address tx.serialized).run
      (fun r st' => r = .ok () ∧ st' = { st with pooled := false }) st := by
  unfold removeTransaction
  cases hpool : cfg.enableTxPool with
  | false =>
    have hout : st.pooled = false := by simpa [hpool] using hpooled
    exact ⟨rfl, by rw [← hout]⟩
  | true =>
    refine ⟨⟨?_, by rw [htx]⟩, fun _ => ⟨rfl, rfl⟩⟩
    simp [Transaction.sender, htx, hfrom]

/-- The processor gives back the lock and the place in the pool before it looks at the outcome. -/
theorem wp_sendRawTransactionProcessor (price : ℕ) {lockSessionKey : Option SessionKey}
    (htx : st.tx = tx) (hsession : st.session = lockSessionKey) (h : Entered cfg st) :
    (callDiscipline cfg).wp (sendRawTransactionProcessor cfg tx price lockSessionKey).run
      (fun _ st' => Returned st st') st := by
  subst htx hsession
  obtain ⟨address, hfrom⟩ := Option.isSome_iff_exists.mp h.sender
  have haddress : st.tx.fromAddress.getD "" = address := by rw [hfrom, Option.getD_some]
  unfold sendRawTransactionProcessor
  simp only [haddress]
  apply Discipline.wp_run_bind (wp_submitTransaction price h.locked)
  · rintro submission st₁ ⟨hst₁, _⟩
    have hfrom₁ : st₁.tx.fromAddress = some address := by rw [hst₁.tx, hfrom]
    apply Discipline.wp_run_bind (wp_releaseSession hst₁.session (fun _ => hfrom₁) h.ordering
      fun hholding => h.holding (hst₁.holding ▸ hholding))
    · rintro _ st₂ ⟨_, rfl⟩
      have hremove := @wp_removeTransaction cfg st.tx { st₁ with holding := false } address hst₁.tx
        hfrom fun hpooled => h.pooled (hst₁.pooled ▸ hpooled)
      apply Discipline.wp_run_bind hremove
      · rintro _ st₃ ⟨_, rfl⟩
        apply Discipline.wp_mono (quiet_answerSubmission st.tx submission _)
        intro r st₄ hst₄
        have hreturned : Returned st { st₁ with holding := false, pooled := false } :=
          ⟨hst₁.tx, hst₁.session, hst₁.saved, rfl, rfl⟩
        exact hreturned.similar hst₄
      · rintro e st₃ ⟨hr, _⟩
        cases hr
    · rintro e st₂ ⟨hr, _⟩
      cases hr
  · rintro e st₁ ⟨_, hok⟩
    cases hok

/-- The call has passed `acquireLock` and has not entered the pool. -/
structure Acquired (cfg : RelayConfig) (lockSessionKey : Option SessionKey) (st : CallStage) :
    Prop where
  session : st.session = lockSessionKey
  sender : lockSessionKey.isSome → st.tx.fromAddress.isSome
  locked : st.tx.fromAddress.isSome → Locked cfg st
  ordering : lockSessionKey.isSome → cfg.enableNonceOrdering = true
  holding : st.holding = true → lockSessionKey.isSome
  saved : st.saved = false
  pooled : st.pooled = false

private theorem Acquired.similar {lockSessionKey : Option SessionKey}
    (h : Acquired cfg lockSessionKey st)
    (hst : Similar st st') : Acquired cfg lockSessionKey st' where
  session := hst.session.trans h.session
  sender hs := hst.tx.symm ▸ h.sender hs
  locked hfrom := hst.locked (h.locked (hst.tx ▸ hfrom))
  ordering := h.ordering
  holding hh := h.holding (hst.holding ▸ hh)
  saved := hst.saved.trans h.saved
  pooled := hst.pooled.trans h.pooled

private theorem wp_acquireSession (tx : Transaction) :
    (callDiscipline cfg).wp (acquireSession cfg tx.fromAddress).run
      (fun r st' => st'.tx = tx ∧ ∃ lockSessionKey, r = .ok lockSessionKey ∧
        Acquired cfg lockSessionKey st') (CallStage.start tx) := by
  have hstart : tx.fromAddress = none ∨ cfg.enableNonceOrdering = false →
      Acquired cfg none (CallStage.start tx) := by
    intro hfree
    refine ⟨rfl, nofun, ?_, nofun, nofun, rfl, rfl⟩
    intro hsome ho
    cases hfree with
    | inl hnone => rw [CallStage.start, hnone] at hsome; cases hsome
    | inr hoff => rw [hoff] at ho; cases ho
  cases hfrom : tx.fromAddress with
  | none => exact ⟨rfl, none, rfl, hstart (.inl hfrom)⟩
  | some address =>
    simp only [acquireSession, acquireLock]
    cases ho : cfg.enableNonceOrdering with
    | false => exact ⟨rfl, none, rfl, hstart (.inr ho)⟩
    | true =>
      refine ⟨⟨rfl, hfrom⟩, fun sessionKey => ⟨rfl, some sessionKey, rfl, rfl, ?_, ?_, ?_, ?_, rfl,
        rfl⟩⟩
      · exact fun _ => hfrom ▸ rfl
      · exact fun _ _ => rfl
      · exact fun _ => ho
      · exact fun _ => rfl

private theorem wp_saveTransaction (htx : st.tx = tx) (hfrom : tx.fromAddress.isSome)
    (hlocked : Locked cfg st) (hsaved : st.saved = false) (hpooled : st.pooled = false) :
    (callDiscipline cfg).wp (saveTransaction cfg tx.fromAddress tx).run
      (fun r st' => r = .ok () ∧
        st' = { st with saved := cfg.enableTxPool, pooled := cfg.enableTxPool }) st := by
  obtain ⟨address, hfrom⟩ := Option.isSome_iff_exists.mp hfrom
  unfold saveTransaction
  cases hpool : cfg.enableTxPool with
  | false =>
    have hsame : st = { st with saved := false, pooled := false } := by
      cases st
      cases hsaved
      cases hpooled
      rfl
    exact ⟨rfl, hsame⟩
  | true =>
    rw [hfrom]
    refine ⟨⟨?_, by rw [htx], hlocked⟩, fun _ => ⟨rfl, rfl⟩⟩
    simp [Transaction.sender, htx, hfrom]

/-- How a call ends: the lock is given back and the place in the pool is left, and it has saved
its transaction unless it failed before. -/
structure Ended (cfg : RelayConfig) (tx : Transaction) (r : Except TxError Answer)
    (st : CallStage) : Prop where
  tx : st.tx = tx
  holding : st.holding = false
  pooled : st.pooled = false
  saved : cfg.enableTxPool = true → r.isOk → st.saved = true

/-- How the `try` block ends.  What it throws is thrown before the transaction is saved or after
it is removed; the lock may then be given back or not. -/
def Tried (cfg : RelayConfig) (tx : Transaction) (lockSessionKey : Option SessionKey)
    (r : Except TxError (Answer ⊕ ℕ)) (st : CallStage) : Prop :=
  st.tx = tx ∧ st.session = lockSessionKey ∧ (cfg.enableTxPool = true → r.isOk → st.saved = true) ∧
    match r with
    | .ok (.inl _) => st.holding = false ∧ st.pooled = false
    | .ok (.inr _) => Entered cfg st
    | .error _ => (st.holding = true → lockSessionKey.isSome) ∧ st.pooled = false

private theorem wp_validateAndProcess {lockSessionKey : Option SessionKey} (htx : st.tx = tx)
    (h : Acquired cfg lockSessionKey st) :
    (callDiscipline cfg).wp (validateAndProcess cfg tx lockSessionKey).run
      (Tried cfg tx lockSessionKey) st := by
  have hfails : ∀ (e : TxError) (st' : CallStage), Similar st st' →
      Tried cfg tx lockSessionKey (.error e) st' := by
    intro e st' hst
    have h' := h.similar hst
    exact ⟨hst.tx.trans htx, h'.session, fun _ hok => (by cases hok), h'.holding, h'.pooled⟩
  have hprice : Quiet cfg (await (request .getGasPriceInWeibars)) := (quiet_request rfl).await
  apply Discipline.wp_run_bind (hprice st) _ hfails
  intro price st₁ hst₁
  have h₁ := h.similar hst₁
  have htx₁ : st₁.tx = tx := hst₁.tx.trans htx
  apply Discipline.wp_run_bind
    (wp_validateRawTransaction _ htx₁ (fun hfrom => h₁.locked (htx₁ ▸ hfrom)) h₁.pooled) _
    fun e st₂ hst₂ => hfails e st₂ (hst₁.trans hst₂.1)
  rintro _ st₂ ⟨hst₂, hfrom⟩
  have h₂ := h₁.similar hst₂
  have htx₂ : st₂.tx = tx := hst₂.tx.trans htx₁
  have hlocked : Locked cfg st₂ := h₂.locked (htx₂ ▸ hfrom rfl)
  apply Discipline.wp_run_bind (wp_saveTransaction htx₂ (hfrom rfl) hlocked h₂.saved h₂.pooled)
  · rintro _ st₃ ⟨_, hst₃⟩
    have htx₃ : st₃.tx = tx := by rw [hst₃, htx₂]
    have hsession₃ : st₃.session = lockSessionKey := by rw [hst₃, h₂.session]
    have hsaved₃ : cfg.enableTxPool = true → st₃.saved = true := by
      intro hpool
      rw [hst₃, hpool]
    have hentered : Entered cfg st₃ :=
      { sender := htx₃ ▸ hfrom rfl
        locked := by rw [hst₃]; exact hlocked
        ordering := by rw [hsession₃]; exact h₂.ordering
        holding := by rw [hsession₃, hst₃]; exact h₂.holding
        pooled := by rw [hst₃]; exact id }
    split
    · exact ⟨htx₃, hsession₃, fun hpool _ => hsaved₃ hpool, hentered⟩
    · apply Discipline.wp_run_map
      apply Discipline.wp_mono (wp_sendRawTransactionProcessor _ htx₃ hsession₃ hentered)
      intro r st₄ hst₄
      refine ⟨hst₄.tx.trans htx₃, hst₄.session.trans hsession₃,
        fun hpool _ => hst₄.saved.trans (hsaved₃ hpool), ?_⟩
      cases r with
      | ok answer => exact ⟨hst₄.holding, hst₄.pooled⟩
      | error e => exact ⟨fun hh => absurd hh (by simp [hst₄.holding]), hst₄.pooled⟩
  · rintro e st₃ ⟨hr, _⟩
    cases hr

/-- A call ends in this way whatever the replies to its requests are. -/
theorem wp_sendRawTransaction (tx : Transaction) :
    (callDiscipline cfg).wp (sendRawTransaction cfg tx).run (Ended cfg tx)
      (CallStage.start tx) := by
  unfold sendRawTransaction
  split
  · exact ⟨rfl, rfl, rfl, fun _ hok => by cases hok⟩
  · apply Discipline.wp_run_bind (wp_acquireSession tx)
    · rintro lockSessionKey st ⟨htx, _, hkey, h⟩
      cases hkey
      have htried : (callDiscipline cfg).wp
          (tryCatch (validateAndProcess cfg tx lockSessionKey) fun e => do
            releaseSession cfg (addressText tx.fromAddress) lockSessionKey
            throw e).run
          (fun r st' => Tried cfg tx lockSessionKey r st' ∧
            (r.isOk = false → st'.holding = false)) st := by
        apply Discipline.wp_run_tryCatch (wp_validateAndProcess htx h)
        · exact fun _ _ htried => ⟨htried, fun hok => by cases hok⟩
        · rintro e st₁ ⟨htx₁, hsession, _, hholding, hpooled⟩
          have hfrom : lockSessionKey.isSome →
              st₁.tx.fromAddress = some (addressText tx.fromAddress) := by
            intro hs
            obtain ⟨address, hfrom⟩ := Option.isSome_iff_exists.mp (h.sender hs)
            rw [htx₁, ← htx, hfrom]
            rfl
          apply Discipline.wp_run_bind (wp_releaseSession hsession hfrom h.ordering hholding)
          · rintro _ st₂ ⟨_, rfl⟩
            exact ⟨⟨htx₁, hsession, fun _ hok => (by cases hok), nofun, hpooled⟩, fun _ => rfl⟩
          · rintro _ st₂ ⟨hr, _⟩
            cases hr
      apply Discipline.wp_run_bind htried
      · rintro started st₁ ⟨⟨htx₁, hsession, hsaved, hstarted⟩, _⟩
        cases started with
        | inl answer => exact ⟨htx₁, hstarted.1, hstarted.2, fun hpool _ => hsaved hpool rfl⟩
        | inr price =>
          have hback : (callDiscipline cfg).wp
              (tryCatch (some <$> sendRawTransactionProcessor cfg tx price lockSessionKey)
                fun _ => return none).run (fun _ st' => Returned st₁ st') st₁ := by
            have hprocess : (callDiscipline cfg).wp
                (some <$> sendRawTransactionProcessor cfg tx price lockSessionKey).run
                (fun _ st' => Returned st₁ st') st₁ := Discipline.wp_run_map
              (wp_sendRawTransactionProcessor price htx₁ hsession hstarted)
            apply Discipline.wp_run_tryCatch hprocess
            · exact fun _ _ hst => hst
            · exact fun _ _ hst => hst
          have hend : ∀ st₂, Returned st₁ st₂ → ∀ r, Ended cfg tx r st₂ := fun st₂ hst₂ r =>
            ⟨hst₂.tx.trans htx₁, hst₂.holding, hst₂.pooled,
              fun hpool _ => hst₂.saved.trans (hsaved hpool rfl)⟩
          apply Discipline.wp_run_bind hback
          · exact fun _ st₂ hst₂ => hend st₂ hst₂ _
          · exact fun _ st₂ hst₂ => hend st₂ hst₂ _
      · rintro e st₁ ⟨⟨htx₁, _, _, _, hpooled⟩, hfree⟩
        exact ⟨htx₁, hfree rfl, hpooled, fun _ hok => by cases hok⟩
    · rintro e st ⟨_, _, hr, _⟩
      cases hr

end Calls

end JsonRpcRelay.Transactions

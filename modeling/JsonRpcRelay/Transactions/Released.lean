import JsonRpcRelay.Transactions.Relay

/-!
# A call releases what it took

Whatever the outcomes of its requests and the steps of the other calls are, a call that has
ended, with its background processing, holds no lock, and it has not left its transaction in
the pool.  No call ever releases the lock of another session.
-/

namespace JsonRpcRelay.Transactions

open Framework Lock

variable {ι : Type} {cfg : RelayConfig} {s t start : RelayState} {st st' : ι → CallStage}

section Places

/-- What a stage says about the pool. -/
def CallStage.poolPart (st : CallStage) : Transaction × Bool × Bool := (st.tx, st.saved, st.pooled)

@[simp] theorem poolPart_readAccount (st : CallStage) (address : String)
    (reply : Except TxError (Option AccountInfo)) :
    (st.readAccount address reply).poolPart = st.poolPart := by
  have h := @similar_readAccount st address reply
  simp [CallStage.poolPart, h.tx, h.saved, h.pooled]

/-- An entry of the pool is there for a call that is between `saveTransaction` and
`removeTransaction`, or it was there before and no call has saved it again. -/
def Placed (own : Transaction → Prop) (before now : Prop) (st : ι → CallStage) : Prop :=
  now → (∃ i, (st i).pooled = true ∧ own (st i).tx) ∨
    (before ∧ ∀ i, own (st i).tx → (st i).saved = false)

variable {own : Transaction → Prop} {before now now' : Prop}

theorem Placed.congr (h : Placed own before now st) (hnow : now' → now)
    (hst : ∀ i, (st' i).poolPart = (st i).poolPart) : Placed own before now' st' := by
  have htx : ∀ i, (st' i).tx = (st i).tx := fun i => congrArg (·.1) (hst i)
  have hsaved : ∀ i, (st' i).saved = (st i).saved := fun i => congrArg (·.2.1) (hst i)
  have hpooled : ∀ i, (st' i).pooled = (st i).pooled := fun i => congrArg (·.2.2) (hst i)
  intro hn
  simp only [htx, hsaved, hpooled]
  exact h (hnow hn)

variable [DecidableEq ι] {i : ι}

theorem Placed.add (h : Placed own before now st) (hnow : now' → now ∨ own (st i).tx) :
    Placed own before now' (Function.update st i { st i with saved := true, pooled := true }) := by
  intro hn
  by_cases hown : own (st i).tx
  · left
    refine ⟨i, ?_⟩
    simpa using hown
  · have hne : ∀ j, own (st j).tx → j ≠ i := by
      rintro j hj rfl
      exact hown hj
    rcases h ((hnow hn).resolve_right hown) with ⟨j, hpooled, hj⟩ | ⟨hbefore, hsaved⟩
    · left
      refine ⟨j, ?_⟩
      rw [Function.update_of_ne (hne j hj)]
      exact ⟨hpooled, hj⟩
    · right
      refine ⟨hbefore, fun j hj => ?_⟩
      have hji : j ≠ i := by
        rintro rfl
        exact hown (by simpa using hj)
      rw [Function.update_of_ne hji] at hj ⊢
      exact hsaved j hj

theorem Placed.remove (h : Placed own before now st) (hnow : now' → now ∧ ¬ own (st i).tx) :
    Placed own before now' (Function.update st i { st i with pooled := false }) := by
  intro hn
  obtain ⟨hn, hown⟩ := hnow hn
  have hne : ∀ j, own (st j).tx → j ≠ i := by
    rintro j hj rfl
    exact hown hj
  rcases h hn with ⟨j, hpooled, hj⟩ | ⟨hbefore, hsaved⟩
  · left
    refine ⟨j, ?_⟩
    rw [Function.update_of_ne (hne j hj)]
    exact ⟨hpooled, hj⟩
  · right
    refine ⟨hbefore, fun j hj => ?_⟩
    have hji : j ≠ i := by
      rintro rfl
      exact hown (by simpa using hj)
    rw [Function.update_of_ne hji] at hj ⊢
    exact hsaved j hj

/-- The transaction is the one with this entry in the list of this address. -/
def Transaction.listed (address rlpHex : String) (tx : Transaction) : Prop :=
  tx.sender = some address ∧ tx.serialized = rlpHex

/-- Both parts of the pool. -/
structure Places (start s : RelayState) (st : ι → CallStage) : Prop where
  pending : ∀ address rlpHex, Placed (Transaction.listed address rlpHex)
    (rlpHex ∈ start.pending address) (rlpHex ∈ s.pending address) st
  index : ∀ rlpHex, Placed (fun tx => tx.serialized = rlpHex)
    (rlpHex ∈ start.globalTransactionIndex) (rlpHex ∈ s.globalTransactionIndex) st

omit [DecidableEq ι] in
private theorem places_start (start : RelayState) (tx : ι → Transaction) :
    Places start start fun i => CallStage.start (tx i) :=
  ⟨fun _ _ hn => .inr ⟨hn, fun _ _ => rfl⟩, fun _ hn => .inr ⟨hn, fun _ _ => rfl⟩⟩

omit [DecidableEq ι] in
theorem Places.congr (h : Places start s st)
    (hpending : ∀ address, t.pending address ⊆ s.pending address)
    (hindex : t.globalTransactionIndex ⊆ s.globalTransactionIndex)
    (hst : ∀ i, (st' i).poolPart = (st i).poolPart) : Places start t st' :=
  ⟨fun address rlpHex => (h.pending address rlpHex).congr (fun hn => hpending address hn) hst,
    fun rlpHex => (h.index rlpHex).congr (fun hn => hindex hn) hst⟩

theorem Places.addToList (h : Places start s st) {address : String}
    (hsender : (st i).tx.sender = some address) :
    Places start (s.addToList address (st i).tx.serialized)
      (Function.update st i { st i with saved := true, pooled := true }) := by
  constructor
  · intro address' rlpHex
    apply (h.pending address' rlpHex).add
    intro hn
    by_cases haddress : address' = address
    · subst haddress
      simp only [RelayState.addToList, Function.update_self, Finset.mem_insert] at hn
      exact hn.symm.imp_right fun heq => ⟨hsender, heq.symm⟩
    · simp only [RelayState.addToList, Function.update_of_ne haddress] at hn
      exact .inl hn
  · intro rlpHex
    apply (h.index rlpHex).add
    intro hn
    simp only [RelayState.addToList, Finset.mem_insert] at hn
    exact hn.symm.imp_right Eq.symm

theorem Places.removeFromList (h : Places start s st) {address : String}
    (hsender : (st i).tx.sender = some address) :
    Places start (s.removeFromList address (st i).tx.serialized)
      (Function.update st i { st i with pooled := false }) := by
  constructor
  · intro address' rlpHex
    apply (h.pending address' rlpHex).remove
    intro hn
    by_cases haddress : address' = address
    · subst haddress
      simp only [RelayState.removeFromList, Function.update_self, Finset.mem_erase] at hn
      exact ⟨hn.2, fun hlisted => hn.1 hlisted.2.symm⟩
    · simp only [RelayState.removeFromList, Function.update_of_ne haddress] at hn
      refine ⟨hn, fun hlisted => haddress ?_⟩
      exact Option.some.inj (hlisted.1.symm.trans hsender)
  · intro rlpHex
    apply (h.index rlpHex).remove
    intro hn
    simp only [RelayState.removeFromList, Finset.mem_erase] at hn
    exact ⟨hn.2, fun heq => hn.1 heq.symm⟩

/-- The entries after a request. -/
theorem Places.act (h : Places start s st) {op : TxOp} {c : Outcome} {r : op.Reply}
    (hallowed : op.allowed cfg (st i)) (hact : RelayState.act op c s = some (r, t)) :
    Places start t (Function.update st i ((st i).next op r)) := by
  cases op with
  | acquireLock address =>
    obtain ⟨_, rfl, rfl⟩ := RelayState.acquireLock_eq_some.mp hact
    exact h.congr (fun _ => Finset.Subset.refl _) (Finset.Subset.refl _) (part_update CallStage.poolPart rfl)
  | addToList address rlpHex =>
    obtain ⟨rfl, rfl⟩ := Prod.mk.inj (Option.some.inj hact)
    obtain ⟨hsender, rfl, _⟩ := hallowed
    exact h.addToList hsender
  | removeFromList address rlpHex =>
    obtain ⟨rfl, rfl⟩ := Prod.mk.inj (Option.some.inj hact)
    obtain ⟨hsender, rfl⟩ := hallowed
    exact h.removeFromList hsender
  | getAccount address =>
    obtain ⟨rfl, rfl⟩ := Prod.mk.inj (Option.some.inj hact)
    exact h.congr (fun _ => Finset.Subset.refl _) (Finset.Subset.refl _)
      (part_update _ (poolPart_readAccount _ _ _))
  | _ =>
    obtain ⟨rfl, rfl⟩ := Prod.mk.inj (Option.some.inj hact)
    exact h.congr (fun _ => Finset.Subset.refl _) (Finset.Subset.refl _) (part_update CallStage.poolPart rfl)

omit [DecidableEq ι] in
theorem Places.env (h : Places start s st) {e : RelayEnv} (henv : RelayState.env e s = some t) :
    Places start t st := by
  cases e with
  | pendingExpires address =>
    obtain rfl := Option.some.inj henv
    refine h.congr (fun address' => ?_) (Finset.Subset.refl _) fun _ => rfl
    by_cases haddress : address' = address
    · simp [haddress]
    · simp [haddress]
  | indexExpires =>
    obtain rfl := Option.some.inj henv
    exact h.congr (fun _ => Finset.Subset.refl _) (Finset.empty_subset _) fun _ => rfl
  | _ =>
    obtain rfl := Option.some.inj henv
    exact h.congr (fun _ => Finset.Subset.refl _) (Finset.Subset.refl _) fun _ => rfl

end Places

section Calls

/-- What call `i` leaves behind when it ends with the result `r`: its session holds no lock, and
its transaction is in the pool only for another call that has entered it there, or from before
the calls if this one has failed before saving it. -/
structure LeftBehind (cfg : RelayConfig) (start : RelayState) (calls : Calls ι) (i : ι)
    (r : Except TxError Answer) : Prop where
  lock : ∀ sessionKey, (calls.ghost i).session = some sessionKey →
    ∀ address, calls.shared.holder address ≠ some sessionKey
  pending : ∀ address, (calls.ghost i).tx.sender = some address →
    (calls.ghost i).tx.serialized ∈ calls.shared.pending address →
    (∃ j ≠ i, (calls.ghost j).pooled = true ∧
      (calls.ghost j).tx.listed address (calls.ghost i).tx.serialized) ∨
    ((calls.ghost i).tx.serialized ∈ start.pending address ∧ (calls.ghost i).saved = false ∧
      (cfg.enableTxPool = true → r.isOk = false))
  index : (calls.ghost i).tx.serialized ∈ calls.shared.globalTransactionIndex →
    (∃ j ≠ i, (calls.ghost j).pooled = true ∧
      (calls.ghost j).tx.serialized = (calls.ghost i).tx.serialized) ∨
    ((calls.ghost i).tx.serialized ∈ start.globalTransactionIndex ∧
      (calls.ghost i).saved = false ∧ (cfg.enableTxPool = true → r.isOk = false))

private theorem leftBehind_of_ended {calls : Calls ι} {i : ι} {tx : Transaction}
    {r : Except TxError Answer} (hsessions : Sessions calls.shared calls.ghost)
    (hplaces : Places start calls.shared calls.ghost) (hended : Ended cfg tx r (calls.ghost i)) :
    LeftBehind cfg start calls i r := by
  have hsaved : (calls.ghost i).saved = false → cfg.enableTxPool = true → r.isOk = false := by
    intro hsaved hpool
    by_contra hok
    rw [hended.saved hpool (by simpa using hok)] at hsaved
    cases hsaved
  have hother : ∀ j, (calls.ghost j).pooled = true → j ≠ i := by
    rintro j hj rfl
    rw [hended.pooled] at hj
    cases hj
  constructor
  · intro sessionKey hsession address hheld
    have hholding := (hsessions.held i address sessionKey hsession hheld).1
    rw [hended.holding] at hholding
    cases hholding
  · intro address hsender hin
    rcases hplaces.pending address _ hin with ⟨j, hj, hlisted⟩ | ⟨hbefore, hfree⟩
    · exact .inl ⟨j, hother j hj, hj, hlisted⟩
    · have hnot := hfree i ⟨hsender, rfl⟩
      exact .inr ⟨hbefore, hnot, hsaved hnot⟩
  · intro hin
    rcases hplaces.index _ hin with ⟨j, hj, hserialized⟩ | ⟨hbefore, hfree⟩
    · exact .inl ⟨j, hother j hj, hj, hserialized⟩
    · have hnot := hfree i rfl
      exact .inr ⟨hbefore, hnot, hsaved hnot⟩

variable [DecidableEq ι]

theorem calls_of_run {tx : ι → Transaction} {es : List (PoolEvent ι Outcome RelayEnv)}
    {calls : Calls ι}
    (hstart : ∀ address sessionKey, start.holder address = some sessionKey →
      sessionKey < start.nextSessionKey)
    (hrun : exec relay.step (Calls.start cfg start tx) es = some calls) :
    (callDiscipline cfg).Followed (fun i => Ended cfg (tx i)) calls ∧
      Sessions calls.shared calls.ghost ∧ Places start calls.shared calls.ghost := by
  refine Discipline.run_invariant (fun _ _ _ _ _ => rfl)
    (I := fun s st => Sessions s st ∧ Places start s st) ?_ ?_ (followed_start cfg start tx)
    ⟨sessions_start hstart, places_start start tx⟩ (along_true _ _) hrun
  · rintro pool i c op next r t ⟨hsessions, hplaces⟩ _ hallowed _ hact
    exact ⟨hsessions.act hallowed hact, hplaces.act hallowed hact⟩
  · rintro pool e t ⟨hsessions, hplaces⟩ _ henv
    exact ⟨hsessions.env henv, hplaces.env henv⟩

/-- From any state of the relay, and with any number of calls whose requests are answered in any
way and order: a call that has ended has released what it took, and a step of a call only ends
the holding of its own session. -/
theorem sendRawTransaction_releases {tx : ι → Transaction}
    {es : List (PoolEvent ι Outcome RelayEnv)} {calls : Calls ι}
    (hstart : ∀ address sessionKey, start.holder address = some sessionKey →
      sessionKey < start.nextSessionKey)
    (hrun : exec relay.step (Calls.start cfg start tx) es = some calls) :
    (∀ i r, calls.prog i = .pure r → LeftBehind cfg start calls i r) ∧
    ∀ i c calls', relay.step calls (.run i c) = some calls' →
      ∀ address sessionKey, calls.shared.holder address = some sessionKey →
        calls'.shared.holder address = some sessionKey ∨
        ((calls.ghost i).session = some sessionKey ∧
          ∀ j ≠ i, (calls.ghost j).session ≠ some sessionKey) := by
  obtain ⟨hfollowed, hsessions, hplaces⟩ := calls_of_run hstart hrun
  constructor
  · intro i r hi
    exact leftBehind_of_ended hsessions hplaces (Discipline.post_of_done hfollowed hi)
  · intro i c calls' hstep address sessionKey hheld
    cases hi : calls.prog i with
    | pure r => simp [Protocol.step, hi] at hstep
    | request op next =>
      simp only [Protocol.step, hi] at hstep
      obtain ⟨⟨r, t⟩, hact, rfl⟩ := Option.map_eq_some_iff.mp hstep
      have hallowed := hfollowed i
      rw [hi] at hallowed
      refine (holder_of_act hallowed.1 hact hheld).imp_right fun hown => ⟨hown, ?_⟩
      intro j hj hother
      exact hj (hsessions.injective j i sessionKey hother hown)

end Calls

section Example

/-- Nonce ordering and pool are on, and every check passes. -/
def orderedConfig (useAsyncTxProcessing : Bool) : RelayConfig where
  readOnly := false
  enableNonceOrdering := true
  enableTxPool := true
  useAsyncTxProcessing := useAsyncTxProcessing
  mirrorNodeRequestRetryCount := 2
  checkTransaction _ _ := .ok ()
  checkAccount _ _ := .ok ()
  addPercentageBufferToGasPrice price := price
  computeTransactionHash tx := tx.serialized

/-- The lock is free, the pool is empty, and every account has this nonce. -/
def idleRelay (nonce : ℕ) : RelayState where
  holder _ := none
  nextSessionKey := 0
  pending _ := ∅
  globalTransactionIndex := ∅
  nonce _ := nonce

/-- The mirror node reports this nonce, and the network refuses the transaction. -/
def wrongNonce (nonce : ℕ) : Outcome where
  gasPrice := .ok 10
  account := .ok (some ⟨.number nonce, some 1000, false⟩)
  exchangeRate := .ok 12
  submission := .error (.sdkClientError ⟨"WRONG_NONCE", "wrong nonce", ""⟩)
  accepted := false
  contractResult := .ok none
  revertReason := .ok ()

/-- A call whose submission fails, and whose error handler polls the nonce of the account. -/
theorem sendRawTransaction_releases_wrongNonce : ∃ calls : Calls Unit,
    exec relay.step
      (Calls.start (orderedConfig false) (idleRelay 5) fun _ => ⟨some "0xA1", none, 7, "0xf8"⟩)
      (List.replicate 10 (.run () (wrongNonce 5))) = some calls ∧
    calls.prog () = .pure (.ok (.error (predefined.NONCE_TOO_HIGH 7 5))) ∧
    LeftBehind (orderedConfig false) (idleRelay 5) calls ()
      (.ok (.error (predefined.NONCE_TOO_HIGH 7 5))) := by
  have hend : (exec relay.step
      (Calls.start (orderedConfig false) (idleRelay 5) fun _ => ⟨some "0xA1", none, 7, "0xf8"⟩)
      (List.replicate 10 (.run () (wrongNonce 5)))).map (fun calls => (calls.prog ()).result) =
      some (some (.ok (.error (predefined.NONCE_TOO_HIGH 7 5)))) := by decide +kernel
  obtain ⟨calls, hrun, hresult⟩ := Option.map_eq_some_iff.mp hend
  have hdone := Prog.eq_pure_of_result hresult
  have hfresh : ∀ address sessionKey, (idleRelay 5).holder address = some sessionKey →
      sessionKey < (idleRelay 5).nextSessionKey := fun _ _ hheld => by cases hheld
  exact ⟨calls, hrun, hdone, (sendRawTransaction_releases hfresh hrun).1 () _ hdone⟩

end Example

end JsonRpcRelay.Transactions

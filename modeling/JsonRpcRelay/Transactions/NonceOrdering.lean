import JsonRpcRelay.Transactions.Released

/-!
# Nonce ordering with the transaction pool

The precheck adds the number of pending transactions to the nonce that the mirror node reports.
This is right as long as no transaction is pending that the network has already executed.  The
processor gives the lock back before it removes its transaction from the pool, so a waiting
call can be granted the lock and count a transaction that is through.
-/

namespace JsonRpcRelay.Transactions

open Framework Lock

variable {ι : Type} {cfg : RelayConfig} {address : String} {s t start : RelayState}
  {st : ι → CallStage}

section Statement

/-- What nonce ordering promises to the calls of a sender in the precheck: no transaction is
pending whose submission has completed, and the next valid nonce passes. -/
structure PrecheckOrdered (address : String) (calls : Calls ι) : Prop where
  pool : ∀ i, (calls.ghost i).tx.sender = some address → (calls.ghost i).holding = true →
    (calls.ghost i).pooled = false →
    ∀ j, (calls.ghost j).tx.sender = some address → (calls.ghost j).submitted = true →
      (calls.ghost j).tx.serialized ∉ calls.shared.pending address
  nonce : ∀ i next, calls.prog i = .request (.getList address) next →
    (calls.ghost i).tx.nonce = calls.shared.nonce address →
    nonce (calls.ghost i).tx
      ((calls.ghost i).accountNonce.plus (calls.shared.pending address).card) = .ok ()

/-- The mirror node reports the nonce of the sender that the network has reached. -/
def mirrorCurrent (address : String) (calls : Calls ι) : PoolEvent ι Outcome RelayEnv → Bool
  | .run i c =>
      match calls.prog i, c.account with
      | .request (.getAccount idOrAliasOrEvmAddress) _, .ok (some info) =>
          (calls.ghost i).tx.sender ≠ some address ||
            (calls.ghost i).tx.fromAddress ≠ some idOrAliasOrEvmAddress ||
            info.ethereumNonce = .number (calls.shared.nonce address)
      | _, _ => true
  | .env _ => true

/-- The lock that a call is about to acquire. -/
def lockRequested (calls : Calls ι) (i : ι) : Option String :=
  match calls.prog i with
  | .request (.acquireLock fromAddress) _ => some (normalizeAddress fromAddress)
  | _ => none

/-- The lock of the sender is granted only when no other call of the sender has given it back with
its transaction still in the pool, and it does not expire under a call that holds it. -/
def LockKept (address : String) (calls : Calls ι) : PoolEvent ι Outcome RelayEnv → Prop
  | .run i _ => lockRequested calls i = some address →
      ∀ j, j ≠ i → (calls.ghost j).tx.sender = some address → (calls.ghost j).pooled = true →
        (calls.ghost j).holding = true
  | .env (.lockExpires expired) => expired = address →
      ∀ i, (calls.ghost i).tx.sender = some address → (calls.ghost i).holding = false
  | .env _ => True

instance [Fintype ι] [DecidableEq ι] (calls : Calls ι) :
    (e : PoolEvent ι Outcome RelayEnv) → Decidable (LockKept address calls e)
  | .run i _ => inferInstanceAs (Decidable (lockRequested calls i = some address →
      ∀ j, j ≠ i → (calls.ghost j).tx.sender = some address → (calls.ghost j).pooled = true →
        (calls.ghost j).holding = true))
  | .env (.lockExpires expired) => inferInstanceAs (Decidable (expired = address →
      ∀ i, (calls.ghost i).tx.sender = some address → (calls.ghost i).holding = false))
  | .env (.pendingExpires _) | .env .indexExpires | .env (.nonceAdvances _) => isTrue trivial

end Statement

section Invariant

/-- A call of the sender that holds the lock holds it alone, and no other call of the sender is in
the pool. -/
structure Exclusive (address : String) (s : RelayState) (st : ι → CallStage) : Prop where
  held : ∀ i, (st i).tx.sender = some address → (st i).holding = true →
    ∃ sessionKey, (st i).session = some sessionKey ∧ s.holder address = some sessionKey
  alone : ∀ i j, i ≠ j → (st i).tx.sender = some address → (st j).tx.sender = some address →
    (st i).holding = true → (st j).pooled = false

/-- The mirror node has reported no nonce of the sender above the one reached. -/
def Reported (address : String) (s : RelayState) (st : ι → CallStage) : Prop :=
  ∀ i m, (st i).tx.sender = some address → (st i).accountNonce = .number m → m ≤ s.nonce address

theorem Exclusive.unique (h : Exclusive address s st) (hs : Sessions s st) {i j : ι}
    (hi : (st i).tx.sender = some address) (hj : (st j).tx.sender = some address)
    (hholdi : (st i).holding = true) (hholdj : (st j).holding = true) : i = j := by
  obtain ⟨sessionKey, hsi, hheldi⟩ := h.held i hi hholdi
  obtain ⟨sessionKey', hsj, hheldj⟩ := h.held j hj hholdj
  obtain rfl : sessionKey = sessionKey' := Option.some.inj (hheldi.symm.trans hheldj)
  exact hs.injective i j sessionKey hsi hsj

theorem Exclusive.congr {st' : ι → CallStage} (h : Exclusive address s st)
    (hholder : ∀ sessionKey, s.holder address = some sessionKey →
      t.holder address = some sessionKey)
    (hlock : ∀ i, (st' i).lockPart = (st i).lockPart)
    (hpooled : ∀ i, (st' i).pooled = true → (st i).pooled = true) : Exclusive address t st' := by
  have htx : ∀ i, (st' i).tx = (st i).tx := fun i => congrArg (·.1) (hlock i)
  have hsession : ∀ i, (st' i).session = (st i).session := fun i => congrArg (·.2.1) (hlock i)
  have hholding : ∀ i, (st' i).holding = (st i).holding := fun i => congrArg (·.2.2) (hlock i)
  constructor
  · intro i hi hhold
    rw [htx] at hi
    rw [hholding] at hhold
    obtain ⟨sessionKey, hs, hheld⟩ := h.held i hi hhold
    exact ⟨sessionKey, (hsession i).trans hs, hholder sessionKey hheld⟩
  · intro i j hij hi hj hhold
    rw [htx] at hi hj
    rw [hholding] at hhold
    have hout := h.alone i j hij hi hj hhold
    by_contra hin
    rw [hpooled j (by simpa using hin)] at hout
    cases hout

variable [DecidableEq ι] {i : ι}

private theorem pooled_of_update {stage : CallStage}
    (hstage : stage.pooled = true → (st i).pooled = true)
    (j : ι) (h : (Function.update st i stage j).pooled = true) : (st j).pooled = true := by
  by_cases hj : j = i
  · subst hj
    rw [Function.update_self] at h
    exact hstage h
  · rwa [Function.update_of_ne hj] at h

/-- The lock is free, so no call of the sender holds it, and by the assumption on the lock none is
left in the pool. -/
theorem Exclusive.acquireLock (h : Exclusive address s st) {key : String}
    (hsender : (st i).tx.sender = some key) (hfree : s.holder key = none)
    (hkept : key = address → ∀ j ≠ i, (st j).tx.sender = some address →
      (st j).pooled = true → (st j).holding = true) :
    Exclusive address { s with
      holder := Function.update s.holder key (some s.nextSessionKey)
      nextSessionKey := s.nextSessionKey + 1 }
      (Function.update st i { st i with session := some s.nextSessionKey, holding := true }) := by
  by_cases hkey : key = address
  · subst hkey
    have hnone : ∀ j, (st j).tx.sender = some key → (st j).holding ≠ true := by
      intro j hj hhold
      obtain ⟨_, _, hheld⟩ := h.held j hj hhold
      rw [hfree] at hheld
      cases hheld
    constructor
    · intro j hj hhold
      by_cases hji : j = i
      · subst hji
        exact ⟨s.nextSessionKey, by simp, by simp⟩
      · rw [Function.update_of_ne hji] at hj hhold
        exact absurd hhold (hnone j hj)
    · intro j k hjk hj hk hhold
      by_cases hji : j = i
      · subst hji
        rw [Function.update_of_ne hjk.symm] at hk ⊢
        by_contra hin
        exact hnone k hk (hkept rfl k hjk.symm hk (by simpa using hin))
      · rw [Function.update_of_ne hji] at hj hhold
        exact absurd hhold (hnone j hj)
  · have hne : ∀ j, (Function.update st i
        { st i with session := some s.nextSessionKey, holding := true } j).tx.sender =
          some address → j ≠ i := by
      rintro j hj rfl
      rw [Function.update_self] at hj
      exact hkey (Option.some.inj (hsender.symm.trans hj))
    constructor
    · intro j hj hhold
      have hji := hne j hj
      rw [Function.update_of_ne hji] at hj hhold ⊢
      obtain ⟨sessionKey, hs, hheld⟩ := h.held j hj hhold
      exact ⟨sessionKey, hs, by simpa [Ne.symm hkey] using hheld⟩
    · intro j k hjk hj hk hhold
      have hji := hne j hj
      have hki := hne k hk
      rw [Function.update_of_ne hji] at hj hhold
      rw [Function.update_of_ne hki] at hk ⊢
      exact h.alone j k hjk hj hk hhold

theorem Exclusive.releaseLock (h : Exclusive address s st) (hs : Sessions s st) {key : String}
    {sessionKey : SessionKey} (hsession : (st i).session = some sessionKey) :
    Exclusive address (s.releaseLock key sessionKey)
      (Function.update st i { st i with holding := false }) := by
  have hne : ∀ j, (Function.update st i { st i with holding := false } j).holding = true →
      j ≠ i := by
    rintro j hj rfl
    simp at hj
  constructor
  · intro j hj hhold
    have hji := hne j hhold
    rw [Function.update_of_ne hji] at hj hhold ⊢
    obtain ⟨sessionKey', hs', hheld⟩ := h.held j hj hhold
    refine ⟨sessionKey', hs', RelayState.releaseLock_holder.mpr ⟨hheld, ?_⟩⟩
    rintro ⟨_, rfl⟩
    exact hji (hs.injective j i sessionKey' hs' hsession)
  · intro j k hjk hj hk hhold
    have hji := hne j hhold
    rw [Function.update_of_ne hji] at hj hhold
    by_cases hki : k = i
    · subst hki
      rw [Function.update_self] at hk ⊢
      exact h.alone j k hjk hj hk hhold
    · rw [Function.update_of_ne hki] at hk ⊢
      exact h.alone j k hjk hj hk hhold

/-- Only the call that holds the lock enters the pool. -/
theorem Exclusive.addToList (h : Exclusive address s st) (hs : Sessions s st)
    (hhold : (st i).holding = true) (rlpHex key : String) :
    Exclusive address (s.addToList key rlpHex)
      (Function.update st i { st i with saved := true, pooled := true }) := by
  have hlock : ∀ j, (Function.update st i { st i with saved := true, pooled := true } j).lockPart =
      (st j).lockPart := part_update _ rfl
  have htx : ∀ j, (Function.update st i { st i with saved := true, pooled := true } j).tx =
      (st j).tx := fun j => congrArg (·.1) (hlock j)
  have hholding : ∀ j, (Function.update st i
      { st i with saved := true, pooled := true } j).holding = (st j).holding :=
    fun j => congrArg (·.2.2) (hlock j)
  constructor
  · intro j hj hholdj
    rw [htx] at hj
    rw [hholding] at hholdj
    obtain ⟨sessionKey, hsj, hheld⟩ := h.held j hj hholdj
    exact ⟨sessionKey, (congrArg (·.2.1) (hlock j)).trans hsj, hheld⟩
  · intro j k hjk hj hk hholdj
    rw [htx] at hj hk
    rw [hholding] at hholdj
    by_cases hki : k = i
    · subst hki
      exact absurd (h.unique hs hj hk hholdj hhold) hjk
    · rw [Function.update_of_ne hki]
      exact h.alone j k hjk hj hk hholdj

theorem Exclusive.act (h : Exclusive address s st) (hs : Sessions s st)
    (hordering : cfg.enableNonceOrdering = true) {op : TxOp} {c : Outcome} {r : op.Reply}
    (hallowed : op.allowed cfg (st i)) (hact : RelayState.act op c s = some (r, t))
    (hkept : ∀ fromAddress, op = .acquireLock fromAddress → normalizeAddress fromAddress = address →
      ∀ j ≠ i, (st j).tx.sender = some address → (st j).pooled = true → (st j).holding = true) :
    Exclusive address t (Function.update st i ((st i).next op r)) := by
  cases op with
  | acquireLock fromAddress =>
    obtain ⟨hfree, rfl, rfl⟩ := RelayState.acquireLock_eq_some.mp hact
    exact h.acquireLock (sender_of_fromAddress hallowed.2) hfree (hkept fromAddress rfl)
  | releaseLock fromAddress sessionKey =>
    obtain ⟨rfl, rfl⟩ := Prod.mk.inj (Option.some.inj hact)
    exact h.releaseLock hs hallowed.1
  | addToList key rlpHex =>
    obtain ⟨rfl, rfl⟩ := Prod.mk.inj (Option.some.inj hact)
    exact h.addToList hs (hallowed.2.2 hordering) rlpHex key
  | getAccount idOrAliasOrEvmAddress =>
    obtain ⟨rfl, rfl⟩ := Prod.mk.inj (Option.some.inj hact)
    refine h.congr (fun _ hh => hh) (part_update _ (lockPart_readAccount _ _ _))
      (pooled_of_update fun hin => ?_)
    exact (@similar_readAccount (st i) idOrAliasOrEvmAddress c.account).pooled.symm.trans hin
  | removeFromList key rlpHex =>
    obtain ⟨rfl, rfl⟩ := Prod.mk.inj (Option.some.inj hact)
    exact h.congr (fun _ hh => hh) (part_update CallStage.lockPart rfl)
      (pooled_of_update fun hin => by cases hin)
  | _ =>
    obtain ⟨rfl, rfl⟩ := Prod.mk.inj (Option.some.inj hact)
    exact h.congr (fun _ hh => hh) (part_update CallStage.lockPart rfl)
      (pooled_of_update fun hin => hin)

omit [DecidableEq ι] in
theorem Exclusive.env (h : Exclusive address s st) {e : RelayEnv}
    (henv : RelayState.env e s = some t)
    (hkept : e = .lockExpires address →
      ∀ i, (st i).tx.sender = some address → (st i).holding = false) :
    Exclusive address t st := by
  cases e with
  | lockExpires expired =>
    obtain rfl := Option.some.inj henv
    by_cases hexpired : expired = address
    · subst hexpired
      have hnone := hkept rfl
      constructor
      · intro i hi hhold
        rw [hnone i hi] at hhold
        cases hhold
      · intro i j _ hi _ hhold
        rw [hnone i hi] at hhold
        cases hhold
    · refine h.congr (fun sessionKey hh => ?_) (fun _ => rfl) fun _ hin => hin
      simpa [Ne.symm hexpired] using hh
  | _ =>
    obtain rfl := Option.some.inj henv
    exact h.congr (fun _ hh => hh) (fun _ => rfl) fun _ hin => hin

/-- Nonces only grow, and what the mirror node reports is the nonce reached. -/
theorem Reported.act (h : Reported address s st) {op : TxOp} {c : Outcome} {r : op.Reply}
    (hact : RelayState.act op c s = some (r, t))
    (hcurrent : ∀ idOrAliasOrEvmAddress info, op = .getAccount idOrAliasOrEvmAddress →
      c.account = .ok (some info) → (st i).tx.sender = some address →
      (st i).tx.fromAddress = some idOrAliasOrEvmAddress →
      info.ethereumNonce = .number (s.nonce address)) :
    Reported address t (Function.update st i ((st i).next op r)) := by
  have hgrows : s.nonce address ≤ t.nonce address := by
    cases op with
    | acquireLock fromAddress =>
      obtain ⟨_, rfl, rfl⟩ := RelayState.acquireLock_eq_some.mp hact
      exact Nat.le_refl _
    | submitEthereumTransaction tx _ =>
      obtain ⟨rfl, rfl⟩ := Prod.mk.inj (Option.some.inj hact)
      exact s.nonce_le_nonceAfter tx c.accepted address
    | _ =>
      obtain ⟨rfl, rfl⟩ := Prod.mk.inj (Option.some.inj hact)
      exact Nat.le_refl _
  intro j m hj hm
  by_cases hji : j = i
  · subst hji
    rw [Function.update_self] at hj hm
    cases op with
    | getAccount idOrAliasOrEvmAddress =>
      obtain ⟨rfl, rfl⟩ := Prod.mk.inj (Option.some.inj hact)
      have htx := (@similar_readAccount (st j) idOrAliasOrEvmAddress c.account).tx
      have hsender : (st j).tx.sender = some address := (congrArg _ htx).symm.trans hj
      rcases accountNonce_readAccount hm with hm | ⟨info, hreply, hfrom, hm⟩
      · exact h j m hsender hm
      · rw [hcurrent idOrAliasOrEvmAddress info rfl hreply hsender hfrom] at hm
        exact (EthereumNonce.number.inj hm).ge
    | _ => exact (h j m hj hm).trans hgrows
  · rw [Function.update_of_ne hji] at hj hm
    exact (h j m hj hm).trans hgrows

omit [DecidableEq ι] in
theorem Reported.env (h : Reported address s st) {e : RelayEnv}
    (henv : RelayState.env e s = some t) : Reported address t st := by
  intro i m hi hm
  cases e with
  | nonceAdvances advanced =>
    obtain rfl := Option.some.inj henv
    refine (h i m hi hm).trans ?_
    by_cases hadvanced : address = advanced
    · simp [hadvanced]
    · simp [hadvanced]
  | _ =>
    obtain rfl := Option.some.inj henv
    exact h i m hi hm

end Invariant

section Runs

variable [DecidableEq ι]

private theorem exclusive_of_run {tx : ι → Transaction} {es : List (PoolEvent ι Outcome RelayEnv)}
    {calls : Calls ι} (hordering : cfg.enableNonceOrdering = true)
    (hstart : ∀ key sessionKey, start.holder key = some sessionKey →
      sessionKey < start.nextSessionKey)
    (hmirror : Along relay.step (fun calls e => mirrorCurrent address calls e = true)
      (Calls.start cfg start tx) es)
    (hkept : Along relay.step (LockKept address) (Calls.start cfg start tx) es)
    (hrun : exec relay.step (Calls.start cfg start tx) es = some calls) :
    (callDiscipline cfg).Followed (fun i => Ended cfg (tx i)) calls ∧
      Sessions calls.shared calls.ghost ∧ Exclusive address calls.shared calls.ghost ∧
      Reported address calls.shared calls.ghost := by
  refine Discipline.run_invariant (fun _ _ _ _ _ => rfl)
    (I := fun s st => Sessions s st ∧ Exclusive address s st ∧ Reported address s st) ?_ ?_
    (followed_start cfg start tx) ⟨sessions_start hstart, ⟨nofun, nofun⟩, nofun⟩
    (hmirror.and hkept) hrun
  · rintro pool i c op next r t ⟨hs, hexclusive, hreported⟩ hprog hallowed ⟨hm, hk⟩ hact
    refine ⟨hs.act hallowed hact, hexclusive.act hs hordering hallowed hact ?_,
      hreported.act hact ?_⟩
    · rintro fromAddress rfl rfl
      exact hk (by rw [lockRequested, hprog])
    · rintro idOrAliasOrEvmAddress info rfl hreply hsender hfrom
      simpa [mirrorCurrent, hprog, hreply, hsender, hfrom] using hm
  · rintro pool e t ⟨hs, hexclusive, hreported⟩ ⟨_, hk⟩ henv
    refine ⟨hs.env henv, hexclusive.env henv ?_, hreported.env henv⟩
    rintro rfl
    exact hk rfl

private theorem pending_eq_empty {tx : ι → Transaction} {es : List (PoolEvent ι Outcome RelayEnv)}
    {calls : Calls ι}
    (hstart : ∀ key sessionKey, start.holder key = some sessionKey →
      sessionKey < start.nextSessionKey)
    (hempty : start.pending address = ∅)
    (hexclusive : Exclusive address calls.shared calls.ghost)
    (hrun : exec relay.step (Calls.start cfg start tx) es = some calls) {i : ι}
    (hi : (calls.ghost i).tx.sender = some address) (hhold : (calls.ghost i).holding = true)
    (hout : (calls.ghost i).pooled = false) : calls.shared.pending address = ∅ := by
  have hplaces := (calls_of_run hstart hrun).2.2
  rw [Finset.eq_empty_iff_forall_notMem]
  intro rlpHex hin
  rcases hplaces.pending address rlpHex hin with ⟨j, hpooled, hj, _⟩ | ⟨hbefore, _⟩
  · have hij : i ≠ j := by
      rintro rfl
      rw [hout] at hpooled
      cases hpooled
    rw [hexclusive.alone i j hij hi hj hhold] at hpooled
    cases hpooled
  · rw [hempty] at hbefore
    exact absurd hbefore (Finset.notMem_empty rlpHex)

/-- In every run of calls with nonce ordering, from a state in which the sender has no pending
transaction, the precheck is ordered for the sender, if the lock is kept until the
transaction of its holder has left the pool. -/
theorem precheckOrdered_of_run {tx : ι → Transaction} {es : List (PoolEvent ι Outcome RelayEnv)}
    {calls : Calls ι} (hordering : cfg.enableNonceOrdering = true)
    (hstart : ∀ key sessionKey, start.holder key = some sessionKey →
      sessionKey < start.nextSessionKey)
    (hempty : start.pending address = ∅)
    (hmirror : Along relay.step (fun calls e => mirrorCurrent address calls e = true)
      (Calls.start cfg start tx) es)
    (hkept : Along relay.step (LockKept address) (Calls.start cfg start tx) es)
    (hrun : exec relay.step (Calls.start cfg start tx) es = some calls) :
    PrecheckOrdered address calls := by
  obtain ⟨hfollowed, _, hexclusive, hreported⟩ :=
    exclusive_of_run hordering hstart hmirror hkept hrun
  constructor
  · intro i hi hhold hout j _ _
    rw [pending_eq_empty hstart hempty hexclusive hrun hi hhold hout]
    exact Finset.notMem_empty _
  · intro i next hprog hnext
    have hallowed := hfollowed i
    rw [hprog] at hallowed
    obtain ⟨⟨hi, hhold, hout⟩, _⟩ := hallowed
    rw [pending_eq_empty hstart hempty hexclusive hrun hi (hhold hordering) hout,
      Finset.card_empty]
    cases hm : (calls.ghost i).accountNonce with
    | undefined => rfl
    | null => rfl
    | number m =>
      have hle := hreported i m hi hm
      simp only [nonce, EthereumNonce.plus, Nat.add_zero, hnext, Nat.not_lt.mpr hle, if_false]
      rfl

end Runs

section Example

/-- The mirror node reports this nonce, and the network executes the transaction. -/
def executed (nonce : ℕ) : Outcome where
  gasPrice := .ok 10
  account := .ok (some ⟨.number nonce, some 1000, false⟩)
  exchangeRate := .ok 12
  submission := .ok ⟨some "0.0.2@1700000000.1", none⟩
  accepted := true
  contractResult := .ok (some ⟨some "0xaa"⟩)
  revertReason := .ok ()

/-- Two calls of one sender with consecutive nonces. -/
def twoSubmissions : Bool → Transaction
  | false => ⟨some "0xA1", none, 0, "0xf800"⟩
  | true => ⟨some "0xA1", none, 1, "0xf801"⟩

/-- The calls after `n` steps of the first one and `m` steps of the second one. -/
def firstThenSecond (n m : ℕ) : List (PoolEvent Bool Outcome RelayEnv) :=
  List.replicate n (.run false (executed 0)) ++ List.replicate m (.run true (executed 1))

def submitted (n m : ℕ) : Option (Calls Bool) :=
  exec relay.step (Calls.start (orderedConfig false) (idleRelay 0) twoSubmissions)
    (firstThenSecond n m)

/-- The first call has left the pool when the second one gets the lock. -/
theorem precheckOrdered_of_run_pair :
    ∃ calls, submitted 9 3 = some calls ∧ PrecheckOrdered "0xa1" calls := by
  have hend : (submitted 9 3).isSome := by decide +kernel
  obtain ⟨calls, hrun⟩ := Option.isSome_iff_exists.mp hend
  have hfresh : ∀ key sessionKey, (idleRelay 0).holder key = some sessionKey →
      sessionKey < (idleRelay 0).nextSessionKey := fun _ _ hheld => by cases hheld
  exact ⟨calls, hrun, precheckOrdered_of_run rfl hfresh rfl (by decide +kernel)
    (by decide +kernel) hrun⟩

/-- The first call has given the lock back, and the second one is granted it and counts the
transaction of the first, which the network has executed: its nonce is rejected. -/
theorem completed_transaction_counted : ∃ calls calls' : Calls Bool,
    submitted 8 3 = some calls ∧
    Along relay.step (fun calls e => mirrorCurrent "0xa1" calls e = true)
      (Calls.start (orderedConfig false) (idleRelay 0) twoSubmissions) (firstThenSecond 8 3) ∧
    ¬ PrecheckOrdered "0xa1" calls ∧
    (calls.ghost true).tx.nonce = calls.shared.nonce "0xa1" ∧
    submitted 8 5 = some calls' ∧
    calls'.prog true = .pure (.error (.jsonRpcError (predefined.NONCE_TOO_LOW 1 2))) := by
  have hprecheck : (submitted 8 3).map (fun calls =>
      ((calls.ghost true).tx, (calls.ghost true).holding, (calls.ghost true).pooled,
        calls.shared.nonce "0xa1")) = some (twoSubmissions true, true, false, 1) := by
    decide +kernel
  have hcompleted : (submitted 8 3).map (fun calls =>
      ((calls.ghost false).tx, (calls.ghost false).submitted,
        decide ("0xf800" ∈ calls.shared.pending "0xa1"))) =
      some (twoSubmissions false, true, true) := by decide +kernel
  have hrejected : (submitted 8 5).map (fun calls => (calls.prog true).result) =
      some (some (.error (.jsonRpcError (predefined.NONCE_TOO_LOW 1 2)))) := by decide +kernel
  obtain ⟨calls, hrun, hprecheck⟩ := Option.map_eq_some_iff.mp hprecheck
  obtain ⟨calls', hrun', hresult⟩ := Option.map_eq_some_iff.mp hrejected
  rw [hrun, Option.map_some, Option.some.injEq] at hcompleted
  simp only [Prod.mk.injEq, decide_eq_true_eq] at hprecheck hcompleted
  obtain ⟨htx, hholding, hpooled, hnonce⟩ := hprecheck
  obtain ⟨hfirst, hsubmitted, hin⟩ := hcompleted
  have hsender : (twoSubmissions true).sender = some "0xa1" := by decide +kernel
  have hsender' : (twoSubmissions false).sender = some "0xa1" := by decide +kernel
  refine ⟨calls, calls', hrun, by decide +kernel, ?_, by rw [htx, hnonce]; rfl, hrun',
    Prog.eq_pure_of_result hresult⟩
  intro hordered
  have hnotin := hordered.pool true (htx ▸ hsender) hholding hpooled false (hfirst ▸ hsender')
    hsubmitted
  rw [hfirst] at hnotin
  exact hnotin hin

end Example

end JsonRpcRelay.Transactions

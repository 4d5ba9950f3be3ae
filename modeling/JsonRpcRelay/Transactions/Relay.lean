import Mathlib.Data.Finset.Basic
import Mathlib.Data.Finset.Card
import JsonRpcRelay.Transactions.Stages

/-!
# Calls of `sendRawTransaction` in one relay

The lock service, the storage of the pool and the nonces that the network has reached, as the
calls share them.  The lock service is the one that `LockStrategy` promises: it grants a free
lock under a fresh session key and ignores a release by anyone but the holder.
-/

namespace JsonRpcRelay.Transactions

open Framework Lock

structure RelayState where
  /-- The session that holds the lock of an address. -/
  holder : String → Option SessionKey
  nextSessionKey : SessionKey
  /-- `pendingTransactions`; an address without an entry has the empty set. -/
  pending : String → Finset String
  globalTransactionIndex : Finset String
  /-- The next nonce of an account on the network. -/
  nonce : String → ℕ

/-- What mirror node and network answer to a request. -/
structure Outcome where
  gasPrice : Except TxError ℕ
  account : Except TxError (Option AccountInfo)
  exchangeRate : Except TxError ℕ
  submission : Except TxError SubmissionResponse
  /-- The network has taken the submitted transaction. -/
  accepted : Bool
  contractResult : Except TxError (Option ContractResult)
  revertReason : Except TxError Unit

/-- What happens without the calls: times to live pass, and transactions that reach the network
late or on other ways are executed. -/
inductive RelayEnv where
  | lockExpires (address : String)
  | pendingExpires (address : String)
  | indexExpires
  | nonceAdvances (address : String)

namespace RelayState

def acquireLock (s : RelayState) (address : String) : Option (SessionKey × RelayState) :=
  if s.holder address = none then
    some (s.nextSessionKey,
      { s with
        holder := Function.update s.holder address (some s.nextSessionKey)
        nextSessionKey := s.nextSessionKey + 1 })
  else none

def releaseLock (s : RelayState) (address : String) (sessionKey : SessionKey) : RelayState :=
  { s with
    holder := if s.holder address = some sessionKey then Function.update s.holder address none
      else s.holder }

def addToList (s : RelayState) (address rlpHex : String) : RelayState :=
  { s with
    pending := Function.update s.pending address (insert rlpHex (s.pending address))
    globalTransactionIndex := insert rlpHex s.globalTransactionIndex }

def removeFromList (s : RelayState) (address rlpHex : String) : RelayState :=
  { s with
    pending := Function.update s.pending address ((s.pending address).erase rlpHex)
    globalTransactionIndex := s.globalTransactionIndex.erase rlpHex }

/-- The network takes a transaction only if its nonce is the next one. -/
def nonceAfter (s : RelayState) (tx : Transaction) (accepted : Bool) (address : String) : ℕ :=
  if accepted && tx.sender = some address && tx.nonce = s.nonce address then s.nonce address + 1
  else s.nonce address

def submit (s : RelayState) (tx : Transaction) (accepted : Bool) : RelayState :=
  { s with nonce := s.nonceAfter tx accepted }

theorem acquireLock_eq_some {s t : RelayState} {address : String} {sessionKey : SessionKey} :
    s.acquireLock address = some (sessionKey, t) ↔ s.holder address = none ∧
      sessionKey = s.nextSessionKey ∧
      t = { s with
            holder := Function.update s.holder address (some s.nextSessionKey)
            nextSessionKey := s.nextSessionKey + 1 } := by
  unfold acquireLock
  split
  · rename_i hfree
    simp [hfree, eq_comm]
  · rename_i hheld
    simp [hheld]

theorem releaseLock_holder {s : RelayState} {address address' : String}
    {sessionKey sessionKey' : SessionKey} :
    (s.releaseLock address sessionKey).holder address' = some sessionKey' ↔
      s.holder address' = some sessionKey' ∧ ¬ (address' = address ∧ sessionKey' = sessionKey) := by
  unfold releaseLock
  by_cases haddress : address' = address
  · subst haddress
    by_cases hheld : s.holder address' = some sessionKey
    · simp [hheld, eq_comm]
    · simp only [hheld, if_false, true_and, iff_self_and]
      rintro hheld' rfl
      exact hheld hheld'
  · split <;> simp [haddress]

theorem nonce_le_nonceAfter (s : RelayState) (tx : Transaction) (accepted : Bool)
    (address : String) : s.nonce address ≤ s.nonceAfter tx accepted address := by
  unfold nonceAfter
  split
  · exact Nat.le_succ _
  · exact Nat.le_refl _

end RelayState

def RelayState.act : (op : TxOp) → Outcome → RelayState → Option (op.Reply × RelayState)
  | .acquireLock address, _, s => s.acquireLock (normalizeAddress address)
  | .releaseLock address sessionKey, _, s =>
      some ((), s.releaseLock (normalizeAddress address) sessionKey)
  | .getGasPriceInWeibars, c, s => some (c.gasPrice, s)
  | .getAccount _, c, s => some (c.account, s)
  | .getList address, _, s => some ((s.pending address).card, s)
  | .addToList address rlpHex, _, s => some ((), s.addToList address rlpHex)
  | .removeFromList address rlpHex, _, s => some ((), s.removeFromList address rlpHex)
  | .getCurrentNetworkExchangeRateInCents, c, s => some (c.exchangeRate, s)
  | .submitEthereumTransaction tx _, c, s => some (c.submission, s.submit tx c.accepted)
  | .deleteFile _, _, s => some ((), s)
  | .getContractResult _, c, s => some (c.contractResult, s)
  | .getContractRevertReasonFromTransaction _, c, s => some (c.revertReason, s)
  | .wait, _, s => some ((), s)

def RelayState.env : RelayEnv → RelayState → Option RelayState
  | .lockExpires address, s => some { s with holder := Function.update s.holder address none }
  | .pendingExpires address, s => some { s with pending := Function.update s.pending address ∅ }
  | .indexExpires, s => some { s with globalTransactionIndex := ∅ }
  | .nonceAdvances address, s =>
      some { s with nonce := Function.update s.nonce address (s.nonce address + 1) }

def relay : Protocol TxOp TxOp.Reply Outcome RelayEnv RelayState CallStage where
  act := RelayState.act
  env := RelayState.env
  note st op r _ _ := st.next op r

/-- Any number of calls of `sendRawTransaction` in one relay. -/
abbrev Calls (ι : Type) := Pool ι TxOp TxOp.Reply (Except TxError Answer) RelayState CallStage

/-- The calls with these transactions, before their first steps. -/
def Calls.start {ι : Type} (cfg : RelayConfig) (s : RelayState) (tx : ι → Transaction) :
    Calls ι where
  shared := s
  prog i := (sendRawTransaction cfg (tx i)).run
  ghost i := .start (tx i)

theorem followed_start {ι : Type} (cfg : RelayConfig) (s : RelayState) (tx : ι → Transaction) :
    (callDiscipline cfg).Followed (fun i => Ended cfg (tx i)) (Calls.start cfg s tx) :=
  fun i => wp_sendRawTransaction (tx i)

theorem part_update {ι β : Type} [DecidableEq ι] {st : ι → CallStage} {i : ι} {stage : CallStage}
    (part : CallStage → β) (h : part stage = part (st i)) (j : ι) :
    part (Function.update st i stage j) = part (st j) := by
  by_cases hj : j = i
  · rw [hj, Function.update_self, h]
  · rw [Function.update_of_ne hj]

section Sessions

variable {ι : Type} {cfg : RelayConfig} {s t : RelayState} {st st' : ι → CallStage}

/-- What a stage says about the lock. -/
def CallStage.lockPart (st : CallStage) : Transaction × Option SessionKey × Bool :=
  (st.tx, st.session, st.holding)

@[simp] theorem lockPart_readAccount (st : CallStage) (address : String)
    (reply : Except TxError (Option AccountInfo)) :
    (st.readAccount address reply).lockPart = st.lockPart := by
  have h := @similar_readAccount st address reply
  simp [CallStage.lockPart, h.tx, h.session, h.holding]

/-- Session keys are used once, and a lock that is held by the session of a call is the one of
its sender, between its `acquireLock` and its `releaseLock`. -/
structure Sessions (s : RelayState) (st : ι → CallStage) : Prop where
  fresh : ∀ i sessionKey, (st i).session = some sessionKey → sessionKey < s.nextSessionKey
  holder_fresh : ∀ address sessionKey, s.holder address = some sessionKey →
    sessionKey < s.nextSessionKey
  injective : ∀ i j sessionKey, (st i).session = some sessionKey →
    (st j).session = some sessionKey → i = j
  held : ∀ i address sessionKey, (st i).session = some sessionKey →
    s.holder address = some sessionKey → (st i).holding = true ∧ (st i).tx.sender = some address

theorem sessions_start {tx : ι → Transaction}
    (h : ∀ address sessionKey, s.holder address = some sessionKey → sessionKey < s.nextSessionKey) :
    Sessions s fun i => CallStage.start (tx i) :=
  ⟨nofun, h, nofun, nofun⟩

theorem Sessions.congr (h : Sessions s st) (hkey : t.nextSessionKey = s.nextSessionKey)
    (hholder : ∀ address sessionKey, t.holder address = some sessionKey →
      s.holder address = some sessionKey)
    (hst : ∀ i, (st' i).lockPart = (st i).lockPart) : Sessions t st' := by
  have htx : ∀ i, (st' i).tx = (st i).tx := fun i => congrArg (·.1) (hst i)
  have hsession : ∀ i, (st' i).session = (st i).session := fun i => congrArg (·.2.1) (hst i)
  have hholding : ∀ i, (st' i).holding = (st i).holding := fun i => congrArg (·.2.2) (hst i)
  constructor
  · intro i sessionKey hs
    rw [hkey]
    exact h.fresh i sessionKey (hsession i ▸ hs)
  · intro address sessionKey hh
    rw [hkey]
    exact h.holder_fresh address sessionKey (hholder _ _ hh)
  · intro i j sessionKey hi hj
    exact h.injective i j sessionKey (hsession i ▸ hi) (hsession j ▸ hj)
  · intro i address sessionKey hs hh
    rw [htx, hholding]
    exact h.held i address sessionKey (hsession i ▸ hs) (hholder _ _ hh)

theorem Sessions.env (h : Sessions s st) {e : RelayEnv} (henv : RelayState.env e s = some t) :
    Sessions t st := by
  cases e with
  | lockExpires address =>
    obtain rfl := Option.some.inj henv
    refine h.congr rfl (fun address' sessionKey hh => ?_) fun _ => rfl
    by_cases haddress : address' = address
    · simp [haddress] at hh
    · simpa [haddress] using hh
  | _ =>
    obtain rfl := Option.some.inj henv
    exact h.congr rfl (fun _ _ hh => hh) fun _ => rfl

/-- Nobody releases the lock of another session. -/
theorem holder_of_act {op : TxOp} {c : Outcome} {r : op.Reply} {stage : CallStage}
    (hallowed : op.allowed cfg stage) (hact : RelayState.act op c s = some (r, t))
    {address : String} {sessionKey : SessionKey} (hheld : s.holder address = some sessionKey) :
    t.holder address = some sessionKey ∨ stage.session = some sessionKey := by
  cases op with
  | acquireLock address' =>
    obtain ⟨hfree, _, rfl⟩ := RelayState.acquireLock_eq_some.mp hact
    left
    have hne : address ≠ normalizeAddress address' := by
      rintro rfl
      rw [hfree] at hheld
      cases hheld
    simpa [hne] using hheld
  | releaseLock address' sessionKey' =>
    obtain ⟨rfl, rfl⟩ := Prod.mk.inj (Option.some.inj hact)
    by_cases hkey : sessionKey = sessionKey'
    · exact .inr (hkey ▸ hallowed.1)
    · exact .inl (RelayState.releaseLock_holder.mpr ⟨hheld, fun h => hkey h.2⟩)
  | _ =>
    obtain ⟨rfl, rfl⟩ := Prod.mk.inj (Option.some.inj hact)
    exact .inl hheld

variable [DecidableEq ι]

theorem sender_of_fromAddress {tx : Transaction} {address : String}
    (h : tx.fromAddress = some address) : tx.sender = some (normalizeAddress address) := by
  rw [Transaction.sender, h, Option.map_some]

private theorem eq_some_of_update {κ α : Type} [DecidableEq κ] {f : κ → Option α} {k k' : κ}
    {a a' : α} (h : Function.update f k (some a) k' = some a') :
    (k' = k ∧ a' = a) ∨ (k' ≠ k ∧ f k' = some a') := by
  by_cases hk : k' = k
  · subst hk
    rw [Function.update_self] at h
    exact .inl ⟨rfl, (Option.some.inj h).symm⟩
  · rw [Function.update_of_ne hk] at h
    exact .inr ⟨hk, h⟩

theorem Sessions.acquireLock (h : Sessions s st) {i : ι} {address : String}
    (hsender : (st i).tx.sender = some address) :
    Sessions { s with
      holder := Function.update s.holder address (some s.nextSessionKey)
      nextSessionKey := s.nextSessionKey + 1 }
      (Function.update st i { st i with session := some s.nextSessionKey, holding := true }) := by
  have hsession : ∀ j sessionKey, (Function.update st i
      { st i with session := some s.nextSessionKey, holding := true } j).session =
        some sessionKey →
      (j = i ∧ sessionKey = s.nextSessionKey) ∨ (j ≠ i ∧ (st j).session = some sessionKey) := by
    intro j sessionKey hs
    rw [Function.apply_update (fun _ => CallStage.session)] at hs
    exact eq_some_of_update hs
  constructor
  · intro j sessionKey hs
    rcases hsession j sessionKey hs with ⟨_, rfl⟩ | ⟨_, hs⟩
    · exact Nat.lt_succ_self _
    · exact Nat.lt_succ_of_lt (h.fresh j sessionKey hs)
  · intro address' sessionKey hh
    rcases eq_some_of_update hh with ⟨_, rfl⟩ | ⟨_, hh⟩
    · exact Nat.lt_succ_self _
    · exact Nat.lt_succ_of_lt (h.holder_fresh address' sessionKey hh)
  · intro j k sessionKey hj hk
    rcases hsession j sessionKey hj with ⟨rfl, rfl⟩ | ⟨_, hj'⟩ <;>
      rcases hsession k _ hk with ⟨rfl, hkey⟩ | ⟨_, hk'⟩
    · rfl
    · exact absurd (h.fresh k _ hk') (Nat.lt_irrefl _)
    · exact absurd (hkey ▸ h.fresh j _ hj') (Nat.lt_irrefl _)
    · exact h.injective j k sessionKey hj' hk'
  · intro j address' sessionKey hs hh
    rcases hsession j sessionKey hs with ⟨rfl, rfl⟩ | ⟨hj, hs⟩ <;>
      rcases eq_some_of_update hh with ⟨rfl, hkey⟩ | ⟨_, hh⟩
    · rw [Function.update_self]
      exact ⟨rfl, hsender⟩
    · exact absurd (h.holder_fresh address' _ hh) (Nat.lt_irrefl _)
    · exact absurd (hkey ▸ h.fresh j _ hs) (Nat.lt_irrefl _)
    · rw [Function.update_of_ne hj]
      exact h.held j address' sessionKey hs hh

theorem Sessions.releaseLock (h : Sessions s st) {i : ι} {address : String}
    {sessionKey : SessionKey} (hsession : (st i).session = some sessionKey)
    (hsender : (st i).tx.sender = some address) :
    Sessions (s.releaseLock address sessionKey)
      (Function.update st i { st i with holding := false }) := by
  have hsame : ∀ j, (Function.update st i { st i with holding := false } j).session =
      (st j).session := part_update CallStage.session rfl
  constructor
  · exact fun j sessionKey' hs => h.fresh j sessionKey' (hsame j ▸ hs)
  · exact fun address' sessionKey' hh =>
      h.holder_fresh address' sessionKey' (RelayState.releaseLock_holder.mp hh).1
  · exact fun j k sessionKey' hj hk => h.injective j k sessionKey' (hsame j ▸ hj) (hsame k ▸ hk)
  · intro j address' sessionKey' hs hh
    rw [hsame] at hs
    obtain ⟨hh, hother⟩ := RelayState.releaseLock_holder.mp hh
    have hheld := h.held j address' sessionKey' hs hh
    have hj : j ≠ i := by
      rintro rfl
      apply hother
      exact ⟨Option.some.inj (hheld.2.symm.trans hsender), Option.some.inj (hs.symm.trans hsession)⟩
    rw [Function.update_of_ne hj]
    exact hheld

theorem Sessions.act (h : Sessions s st) {i : ι} {op : TxOp} {c : Outcome} {r : op.Reply}
    (hallowed : op.allowed cfg (st i)) (hact : RelayState.act op c s = some (r, t)) :
    Sessions t (Function.update st i ((st i).next op r)) := by
  cases op with
  | acquireLock address =>
    obtain ⟨_, rfl, rfl⟩ := RelayState.acquireLock_eq_some.mp hact
    exact h.acquireLock (sender_of_fromAddress hallowed.2)
  | releaseLock address sessionKey =>
    obtain ⟨rfl, rfl⟩ := Prod.mk.inj (Option.some.inj hact)
    exact h.releaseLock hallowed.1 (sender_of_fromAddress hallowed.2)
  | getAccount address =>
    obtain ⟨rfl, rfl⟩ := Prod.mk.inj (Option.some.inj hact)
    exact h.congr rfl (fun _ _ hh => hh) (part_update _ (lockPart_readAccount _ _ _))
  | _ =>
    obtain ⟨rfl, rfl⟩ := Prod.mk.inj (Option.some.inj hact)
    exact h.congr rfl (fun _ _ hh => hh) (part_update CallStage.lockPart rfl)

end Sessions

end JsonRpcRelay.Transactions

import JsonRpcRelay.Errors
import JsonRpcRelay.Formatters
import JsonRpcRelay.Framework.Entries
import JsonRpcRelay.Framework.Schedule
import JsonRpcRelay.Mirror.ResolveEntityType

/-!
# The states before a traced transaction

`prestateTracer` looks up the accounts and contracts of a transaction, all of them at once, and
keeps the map of their states.  A lookup that fails is only logged: the map is kept without its
entity, and later calls get it.
-/

namespace JsonRpcRelay.Debug

open Mirror Framework

structure ContractAction where
  callDepth : ℕ
  fromAddress : Option String
  callerType : String
  toAddress : Option String
  recipientType : String
  timestamp : String

structure AccountEntity where
  address : String
  type : String
  timestamp : String
  deriving DecidableEq

/-- A sender or a recipient, if it has an address. -/
def entityEntry (address : Option String) (type timestamp : String) :
    List (String × AccountEntity) :=
  (address.filter (· ≠ "")).toList.map fun address => (address, ⟨address, type, timestamp⟩)

def addressMap (filteredActions : List ContractAction) : List (String × AccountEntity) :=
  setEntries (filteredActions.flatMap fun action =>
    entityEntry action.fromAddress action.callerType action.timestamp ++
      entityEntry action.toAddress action.recipientType action.timestamp) []

def accountEntities (onlyTopCall : Bool) (actionsResponse : List ContractAction) :
    List AccountEntity :=
  let filteredActions :=
    if onlyTopCall then actionsResponse.filter fun action => action.callDepth = 0
    else actionsResponse
  (addressMap filteredActions).map Prod.snd

/-- The part of a contract or an account that is traced. -/
structure TracedEntity where
  evmAddress : Option String
  contractId : String := ""
  nonce : Option ℤ := none
  runtimeBytecode : Option String := none
  balance : Option ℤ := none
  ethereumNonce : Option ℤ := none
  deriving DecidableEq

structure StateItem where
  slot : String
  value : String

structure EntitytTraceState where
  balance : String
  nonce : Option ℤ
  code : Option String
  storage : List (String × String)
  deriving DecidableEq

abbrev EntityTraceStateMap := List (String × EntitytTraceState)

section Lookups

/-- A failed request is no answer. -/
def orNull {α : Type} (reply : Except RelayError (Option α)) : Option α := reply.toOption.join

/-- What is answered to the lookup of one entity: the entry that the cache of entities has, and
what the requests are answered if they are made. -/
structure EntityReplies where
  cachedResponse : Option (ResolvedEntity TracedEntity)
  getContract : Except RelayError (Option TracedEntity)
  getAccount : Except RelayError (Option TracedEntity)
  getTokenById : Except RelayError (Option TracedEntity)
  getBalanceAtTimestamp : Except RelayError (Option (List (Option ℤ)))
  getContractState : Except RelayError (List StateItem)
  exclusive : orNull getAccount = none ∨ orNull getTokenById = none

def EntityReplies.mirror (replies : EntityReplies) : MirrorNode TracedEntity where
  getContract _ _ := orNull replies.getContract
  getAccount _ _ := orNull replies.getAccount
  getTokenById _ := orNull replies.getTokenById
  exclusive _ _ := replies.exclusive

/-- The type of entities that is searched under a name. -/
def searchedType (type : String) : Option EntityType :=
  if type = "CONTRACT" then some .contract
  else if type = "ACCOUNT" then some .account
  else if type = "TOKEN" then some .token
  else none

variable (accountEntity : AccountEntity) (replies : EntityReplies)

def entityObject : Option (ResolvedEntity TracedEntity) :=
  (resolveEntityType replies.mirror (fun _ => replies.cachedResponse)
    ⟨accountEntity.address, (searchedType accountEntity.type).toList,
      some accountEntity.timestamp⟩).1

def contractState (entity : TracedEntity) : Except RelayError EntitytTraceState := do
  let balanceResponse ← replies.getBalanceAtTimestamp
  let stateResponse ← replies.getContractState
  match balanceResponse with
  | none => throw (typeError "null" "balances")
  | some balances =>
    return {
      balance := numberTo0x (balances.head?.join.getD 0)
      nonce := entity.nonce
      code := entity.runtimeBytecode
      storage := setEntries (stateResponse.map fun stateItem => (stateItem.slot, stateItem.value)) []
    }

def accountState (entity : TracedEntity) : EntitytTraceState where
  balance := numberTo0x (entity.balance.getD 0)
  nonce := entity.ethereumNonce
  code := some "0x"
  storage := []

/-- What one of the concurrent tasks adds to the result, before errors are caught. -/
def tracedState : Except RelayError (Option (String × EntitytTraceState)) :=
  match entityObject accountEntity replies with
  | none => return none
  | some ⟨type, entity⟩ =>
    match entity.evmAddress.filter (· ≠ "") with
    | none => return none
    | some evmAddress =>
      match type with
      | .contract => return some (evmAddress, ← contractState replies entity)
      | .account => return some (evmAddress, accountState entity)
      | .token => return none

/-- An error is logged and the entity left out. -/
def settledState : Option (String × EntitytTraceState) :=
  orNull (tracedState accountEntity replies)

/-- The request that searches an entity of this type fails. -/
def SearchFails : EntityType → Prop
  | .contract => ∃ e, replies.getContract = .error e
  | .account => ∃ e, replies.getAccount = .error e
  | .token => ∃ e, replies.getTokenById = .error e

/-- The balance or the storage of a contract is not answered. -/
def StateFails : Prop :=
  (∃ e, replies.getBalanceAtTimestamp = .error e) ∨ replies.getBalanceAtTimestamp = .ok none ∨
    ∃ e, replies.getContractState = .error e

/-- The entity or its state is not answered. -/
def LookupFails : Prop :=
  (replies.cachedResponse = none ∧
    ∃ type, searchedType accountEntity.type = some type ∧ SearchFails replies type) ∨
  ∃ entity address, entityObject accountEntity replies = some ⟨.contract, entity⟩ ∧
    entity.evmAddress = some address ∧ address ≠ "" ∧ StateFails replies

end Lookups

/-- A call of `prestateTracer`. -/
structure TraceCall where
  transactionHash : String
  onlyTopCall : Bool
  deriving DecidableEq

def TraceCall.cacheKey (call : TraceCall) : String :=
  "prestateTracer_" ++ call.transactionHash ++ "_" ++ toString call.onlyTopCall

/-- What is answered to a call, and the order in which its concurrent tasks end. -/
structure TraceReplies where
  getContractsResultsActions : Except RelayError (Option (List ContractAction))
  getLogsWithParams : Except RelayError (List MirrorNodeLog)
  entity : AccountEntity → EntityReplies
  settled : List AccountEntity → List AccountEntity
  settled_perm : ∀ entities, (settled entities).Perm entities

abbrev StateCache := String → Option EntityTraceStateMap

section Calls

variable (call : TraceCall) (replies : TraceReplies)

def handleSyntheticTransaction : Except RelayError EntityTraceStateMap := do
  let logs ← replies.getLogsWithParams
  if logs.length = 0 then
    throw (.jsonRpcError (predefined.RESOURCE_NOT_FOUND
      ("Failed to retrieve transaction information for " ++ call.transactionHash)))
  return []

/-- The map of the states of all entities. -/
def collectedStates (entities : List AccountEntity) : EntityTraceStateMap :=
  setEntries ((replies.settled entities).filterMap fun entity =>
    settledState entity (replies.entity entity)) []

/-- What a call without an entry in the cache returns, and what it keeps. -/
def tracePrestate : Except RelayError EntityTraceStateMap × Option EntityTraceStateMap :=
  match replies.getContractsResultsActions with
  | .error e => (.error e, none)
  | .ok none => (handleSyntheticTransaction call replies, none)
  | .ok (some []) => (handleSyntheticTransaction call replies, none)
  | .ok (some (action :: actions)) =>
    match accountEntities call.onlyTopCall (action :: actions) with
    | [] => (.ok [], none)
    | entity :: entities =>
      let result := collectedStates replies (entity :: entities)
      (.ok result, some result)

def keep (result : Option EntityTraceStateMap) (cacheService : StateCache) : StateCache :=
  match result with
  | some result => Function.update cacheService call.cacheKey (some result)
  | none => cacheService

def prestateTracer (cacheService : StateCache) :
    Except RelayError EntityTraceStateMap × StateCache :=
  match cacheService call.cacheKey with
  | some cachedResult => (.ok cachedResult, cacheService)
  | none =>
    ((tracePrestate call replies).1, keep call (tracePrestate call replies).2 cacheService)

/-- The entities that the call looks up. -/
def TraceReplies.lookedUp : List AccountEntity :=
  match replies.getContractsResultsActions with
  | .ok (some actions) => accountEntities call.onlyTopCall actions
  | _ => []

/-- No lookup failed, and every entity that was found under an EVM address has its entry. -/
def Complete (result : EntityTraceStateMap) : Prop :=
  ∀ entity ∈ replies.lookedUp call, ¬LookupFails entity (replies.entity entity) ∧
    ∃ found, tracedState entity (replies.entity entity) = .ok found ∧
      ∀ address state, found = some (address, state) → (result.lookup address).isSome

end Calls

section System

/-- A call reads the cache, and if there is no entry it ends later.  Entries may expire at any
time. -/
inductive TraceEvent where
  | read (call : TraceCall)
  | finish (call : TraceCall) (replies : TraceReplies)
  | forget (key : String)

/-- The cache, the calls that have found no entry, and the calls that have ended, which are listed
for the specification only. -/
structure Tracing where
  cacheService : StateCache
  pending : List TraceCall
  ended : List (TraceCall × TraceReplies)

def Tracing.initial : Tracing := ⟨fun _ => none, [], []⟩

def traceStep (s : Tracing) : TraceEvent → Option Tracing
  | .read call =>
    match s.cacheService call.cacheKey with
    | some _ => some s
    | none => some { s with pending := call :: s.pending }
  | .finish call replies =>
    if call ∈ s.pending then
      some {
        cacheService := keep call (tracePrestate call replies).2 s.cacheService
        pending := s.pending.erase call
        ended := (call, replies) :: s.ended
      }
    else none
  | .forget key => some { s with cacheService := Function.update s.cacheService key none }

/-- What is kept comes from a call without a failed lookup, and an entry that is returned is
complete. -/
def KeepsComplete (s : Tracing) : TraceEvent → Prop
  | .read call => ∀ result, s.cacheService call.cacheKey = some result →
      ∃ replies, (call, replies) ∈ s.ended ∧ Complete call replies result
  | .finish call replies => (tracePrestate call replies).2 ≠ none →
      ∀ entity ∈ replies.lookedUp call, ¬LookupFails entity (replies.entity entity)
  | .forget _ => True

/-- All lookups of the call are answered. -/
def AllAnswered : TraceEvent → Prop
  | .finish call replies =>
      ∀ entity ∈ replies.lookedUp call, ¬LookupFails entity (replies.entity entity)
  | _ => True

end System

section Kept

variable {call : TraceCall} {replies : TraceReplies} {entity : AccountEntity}
  {lookups : EntityReplies}

theorem TraceCall.cacheKey_inj {call other : TraceCall} (h : call.cacheKey = other.cacheKey) :
    call = other := by
  obtain ⟨hash, top⟩ := call
  obtain ⟨hash', top'⟩ := other
  have hchars : ("prestateTracer_" ++ hash ++ "_" ++ toString top).toList =
      ("prestateTracer_" ++ hash' ++ "_" ++ toString top').toList := congrArg String.toList h
  simp only [String.toList_append, List.append_assoc, List.append_cancel_left_eq] at hchars
  -- The two flags differ in the last character but one.
  have hends := congrArg (fun l => l.reverse[1]?) hchars
  have hfalse : (toString false).toList = ['f', 'a', 'l', 's', 'e'] := rfl
  have htrue : (toString true).toList = ['t', 'r', 'u', 'e'] := rfl
  cases top with
  | false =>
    cases top' with
    | false => rw [String.toList_inj.mp (List.append_cancel_right hchars)]
    | true => simp [hfalse, htrue] at hends
  | true =>
    cases top' with
    | false => simp [hfalse, htrue] at hends
    | true => rw [String.toList_inj.mp (List.append_cancel_right hchars)]

private theorem exists_contractState (h : ¬StateFails lookups) (traced : TracedEntity) :
    ∃ state, contractState lookups traced = .ok state := by
  rw [StateFails, not_or, not_or] at h
  obtain ⟨hbalance, hnull, hstate⟩ := h
  rw [contractState]
  cases hb : lookups.getBalanceAtTimestamp with
  | error e => exact absurd ⟨e, hb⟩ hbalance
  | ok balances =>
    cases hs : lookups.getContractState with
    | error e => exact absurd ⟨e, hs⟩ hstate
    | ok items =>
      cases balances with
      | none => exact absurd hb hnull
      | some balances => exact ⟨_, rfl⟩

/-- A lookup whose requests are answered throws nothing. -/
theorem exists_tracedState (h : ¬LookupFails entity lookups) :
    ∃ found, tracedState entity lookups = .ok found := by
  rw [tracedState]
  split
  · exact ⟨_, rfl⟩
  · rename_i type traced hobject
    split
    · exact ⟨_, rfl⟩
    · rename_i address haddress
      cases type with
      | account => exact ⟨_, rfl⟩
      | token => exact ⟨_, rfl⟩
      | contract =>
        obtain ⟨hsome, hne⟩ := Option.filter_eq_some_iff.mp haddress
        have hstate : ¬StateFails lookups := fun hfails =>
          h (Or.inr ⟨traced, address, hobject, hsome, by simpa using hne, hfails⟩)
        obtain ⟨state, hstate⟩ := exists_contractState hstate traced
        exact ⟨some (address, state), by simp [hstate]⟩

/-- An entity whose lookup fails is left out. -/
theorem settledState_of_lookupFails (h : LookupFails entity lookups) :
    settledState entity lookups = none := by
  rcases h with ⟨hmiss, type, htype, hfails⟩ | ⟨traced, address, hobject, hsome, hne, hfails⟩
  · have hobject : entityObject entity lookups = none := by
      rw [entityObject, resolveEntityType_of_miss hmiss]
      cases type with
      | contract =>
        obtain ⟨e, he⟩ := hfails
        simp [resolveAfresh, MirrorNode.search, MirrorNode.get, EntityReplies.mirror, htype, he,
          orNull, Except.toOption]
      | account =>
        obtain ⟨e, he⟩ := hfails
        simp [resolveAfresh, MirrorNode.search, MirrorNode.get, EntityReplies.mirror, htype, he,
          orNull, Except.toOption]
      | token =>
        obtain ⟨e, he⟩ := hfails
        simp [resolveAfresh, MirrorNode.search, MirrorNode.get, EntityReplies.mirror, htype, he,
          orNull, Except.toOption]
    rw [settledState, tracedState, hobject]
    rfl
  · have hstate : ∃ e, contractState lookups traced = .error e := by
      rcases hfails with ⟨e, he⟩ | hnull | ⟨e, he⟩
      · exact ⟨e, by rw [contractState, he]; rfl⟩
      · cases hs : lookups.getContractState with
        | error e => exact ⟨e, by rw [contractState, hnull, hs]; rfl⟩
        | ok items => exact ⟨_, by rw [contractState, hnull, hs]; rfl⟩
      · cases hb : lookups.getBalanceAtTimestamp with
        | error e' => exact ⟨e', by rw [contractState, hb]; rfl⟩
        | ok balances => exact ⟨e, by rw [contractState, hb, he]; rfl⟩
    obtain ⟨e, he⟩ := hstate
    have hfilter : traced.evmAddress.filter (· ≠ "") = some address := by
      simp [hsome, hne]
    have htraced : tracedState entity lookups = .error e := by
      rw [tracedState, hobject]
      simp only [hfilter, he]
      rfl
    rw [settledState, htraced]
    rfl

private theorem complete_collectedStates
    (h : ∀ entity ∈ replies.lookedUp call, ¬LookupFails entity (replies.entity entity)) :
    Complete call replies (collectedStates replies (replies.lookedUp call)) := by
  intro entity hentity
  obtain ⟨found, hfound⟩ := exists_tracedState (h entity hentity)
  refine ⟨h entity hentity, found, hfound, ?_⟩
  intro address state hsome
  rw [collectedStates, isSome_lookup_setEntries]
  refine Or.inl ⟨state, List.mem_filterMap.mpr ⟨entity, ?_, ?_⟩⟩
  · exact (replies.settled_perm _).mem_iff.mpr hentity
  · rw [settledState, hfound, hsome]
    rfl

private theorem tracePrestate_kept : (tracePrestate call replies).2 =
    if replies.lookedUp call = [] then none
    else some (collectedStates replies (replies.lookedUp call)) := by
  rw [tracePrestate, TraceReplies.lookedUp]
  cases replies.getContractsResultsActions with
  | error e => rfl
  | ok response =>
    cases response with
    | none => rfl
    | some actions =>
      cases actions with
      | nil => cases htop : call.onlyTopCall <;> simp [accountEntities, addressMap, setEntries]
      | cons action actions =>
        simp only []
        cases accountEntities call.onlyTopCall (action :: actions) with
        | nil => rfl
        | cons entity entities => rfl

private theorem of_keep_eq_some {other : TraceCall} {kept : Option EntityTraceStateMap}
    {cacheService : StateCache} {result : EntityTraceStateMap}
    (h : keep call kept cacheService other.cacheKey = some result) :
    other = call ∧ kept = some result ∨ cacheService other.cacheKey = some result := by
  cases kept with
  | none => exact Or.inr h
  | some map =>
    by_cases hkey : other.cacheKey = call.cacheKey
    · rw [keep, hkey, Function.update_self] at h
      exact Or.inl ⟨TraceCall.cacheKey_inj hkey, h⟩
    · rw [keep, Function.update_of_ne hkey] at h
      exact Or.inr h

/-- Every entry of the cache is the complete map of a call that has ended. -/
def KeptComplete (s : Tracing) : Prop :=
  ∀ call result, s.cacheService call.cacheKey = some result →
    ∃ replies, (call, replies) ∈ s.ended ∧ Complete call replies result

private theorem keptComplete_initial : KeptComplete .initial := by
  intro call result hkept
  cases hkept

private theorem keptComplete_step {s t : Tracing} {event : TraceEvent} (hs : KeptComplete s)
    (hanswered : AllAnswered event) (hstep : traceStep s event = some t) : KeptComplete t := by
  cases event with
  | read call =>
    rw [traceStep] at hstep
    split at hstep
    · obtain rfl := Option.some.inj hstep
      exact hs
    · obtain rfl := Option.some.inj hstep
      exact hs
  | forget key =>
    obtain rfl := Option.some.inj hstep
    intro call result hkept
    by_cases hkey : call.cacheKey = key
    · simp [hkey] at hkept
    · exact hs call result (by simpa [Function.update_of_ne hkey] using hkept)
  | finish call replies =>
    rw [traceStep, Option.ite_none_right_eq_some] at hstep
    obtain ⟨_, hstep⟩ := hstep
    obtain rfl := Option.some.inj hstep
    intro other result hkept
    rcases of_keep_eq_some hkept with ⟨hsame, hresult⟩ | hold
    · rw [tracePrestate_kept, Option.ite_none_left_eq_some] at hresult
      rw [hsame, ← Option.some.inj hresult.2]
      exact ⟨replies, List.mem_cons_self, complete_collectedStates hanswered⟩
    · obtain ⟨replies', hended, hcomplete⟩ := hs other result hold
      exact ⟨replies', List.mem_cons_of_mem _ hended, hcomplete⟩

/-- A call with a failed lookup has an entity, and keeps a map. -/
theorem keepsComplete_iff {s : Tracing} {event : TraceEvent} (hs : KeptComplete s) :
    KeepsComplete s event ↔ AllAnswered event := by
  cases event with
  | read call => exact iff_of_true (hs call) trivial
  | forget key => exact Iff.rfl
  | finish call replies =>
    rw [KeepsComplete, AllAnswered, tracePrestate_kept]
    by_cases hnone : replies.lookedUp call = []
    · simp [hnone]
    · simp [hnone]

/-- A call that is not interrupted reads the cache and ends, and what it returns is either the
entry or what it looks up. -/
theorem exec_prestateTracer (s : Tracing) (hmiss : s.cacheService call.cacheKey = none) :
    ∃ t, exec traceStep s [.read call, .finish call replies] = some t ∧
      t.cacheService = (prestateTracer call replies s.cacheService).2 ∧ t.pending = s.pending := by
  simp [exec, traceStep, hmiss, prestateTracer]

end Kept

/-- In a run only complete maps are kept and returned exactly if all lookups of its calls are
answered. -/
theorem keeps_complete_iff_all_answered (events : List TraceEvent) :
    Along traceStep KeepsComplete .initial events ↔
      Along traceStep (fun _ event => AllAnswered event) .initial events := by
  apply along_congr _ _ keptComplete_initial
  · intro s event hs
    exact keepsComplete_iff hs
  · intro s event t hs hanswered hstep
    exact keptComplete_step hs hanswered hstep

/-- A sender that is an account, where the request for the account is answered or fails. -/
def senderReplies (getAccount : Except RelayError (Option TracedEntity)) : TraceReplies where
  getContractsResultsActions :=
    .ok (some [⟨0, some "0x3f8", "ACCOUNT", none, "CONTRACT", "1696438011.462526383"⟩])
  getLogsWithParams := .ok []
  entity _ := {
    cachedResponse := none
    getContract := .ok none
    getAccount := getAccount
    getTokenById := .ok none
    getBalanceAtTimestamp := .ok none
    getContractState := .ok []
    exclusive := Or.inr rfl
  }
  settled := id
  settled_perm _ := .refl _

/-- The request for the account times out once.  The second call returns the empty map, where it
would have returned the state of the account without the first one. -/
theorem missing_account_kept :
    ¬(∀ events, Along traceStep KeepsComplete .initial events) ∧
    (prestateTracer ⟨"0xab", false⟩
      (senderReplies (.ok (some ⟨some "0xc3", "", none, none, some 16, some 2⟩)))
      (prestateTracer ⟨"0xab", false⟩
        (senderReplies (.error (.mirrorNodeClientError 504 "timeout"))) fun _ => none).2).1 =
      .ok [] ∧
    (prestateTracer ⟨"0xab", false⟩
      (senderReplies (.ok (some ⟨some "0xc3", "", none, none, some 16, some 2⟩)))
      fun _ => none).1 =
      .ok [("0xc3", ⟨"0x10", some 2, some "0x", []⟩)] := by
  refine ⟨?_, rfl, by decide⟩
  intro h
  have hrun := (h [.read ⟨"0xab", false⟩, .finish ⟨"0xab", false⟩
    (senderReplies (.error (.mirrorNodeClientError 504 "timeout")))]).2 _ rfl
  have hlooked : (senderReplies (.error (.mirrorNodeClientError 504 "timeout"))).lookedUp
      ⟨"0xab", false⟩ = [⟨"0x3f8", "ACCOUNT", "1696438011.462526383"⟩] := by decide
  have hkept : (tracePrestate ⟨"0xab", false⟩
      (senderReplies (.error (.mirrorNodeClientError 504 "timeout")))).2 ≠ none := by
    simp [tracePrestate_kept, hlooked]
  apply hrun.1 hkept ⟨"0x3f8", "ACCOUNT", "1696438011.462526383"⟩ (by simp [hlooked])
  exact Or.inl ⟨rfl, .account, rfl, _, rfl⟩

end JsonRpcRelay.Debug

import JsonRpcRelay.Filters.Queries
import JsonRpcRelay.Framework.Attempts
import JsonRpcRelay.Framework.ExpiringStore
import JsonRpcRelay.Framework.Schedule

/-!
# How long a filter lives

The records of all filters are in one cache, whose entries expire.  A filter lives from its
creation on, each successful read gives it the full time again, and it ends when it is
uninstalled, when its time is over or when the cache drops it.  Clients can keep account of
that on their own: what they are answered decides which filters they still hold.
-/

namespace JsonRpcRelay.Filters

open Mirror Common Framework
open Blocks (Log)

section Searching

/-- The error of a filter that is not there. -/
abbrev notFound : RelayError := .jsonRpcError predefined.FILTER_NOT_FOUND

private theorem ne_notFound {e : JsonRpcError} (h : (e.code == -32001) = false) :
    .jsonRpcError e ≠ notFound := by
  intro heq
  rw [RelayError.jsonRpcError.inj heq] at h
  cases h

/-- Code that only queries the mirror node. -/
def queries : Discipline FilterOp FilterOp.Reply Unit where
  allowed _ op := op.isQuery = true
  next _ _ _ := ()

/-- A result that does not say that the filter is not there. -/
def NotMissing {α : Type} (post : α → Prop) : Except RelayError α → Prop
  | .ok a => post a
  | .error e => e ≠ notFound

/-- The code only queries the mirror node, and it does not take the filter for missing. -/
def Searches {α : Type} (x : FilterM α) (post : α → Prop) : Prop :=
  queries.wp x.run (fun r _ => NotMissing post r) ()

variable {α β : Type} {x : FilterM α} {f : α → FilterM β} {post : β → Prop}

private theorem searches_return {b : β} (h : post b) : Searches (pure b) post := h

private theorem searches_throw {e : RelayError} (h : e ≠ notFound) : Searches (throw e) post := h

private theorem searches_request {op : FilterOp} (h : op.isQuery = true) :
    Searches (request op) fun _ => True := ⟨h, fun _ => trivial⟩

private theorem searches_bind (hx : Searches x fun _ => True) (hf : ∀ a, Searches (f a) post) :
    Searches (x >>= f) post := by
  apply Discipline.wp_run_bind hx
  · exact fun a _ _ => hf a
  · exact fun e _ he => he

private theorem searches_map {g : α → β} (hx : Searches x fun _ => True) (hg : ∀ a, post (g a)) :
    Searches (g <$> x) post := by
  rw [map_eq_pure_bind]
  exact searches_bind hx fun a => searches_return (hg a)

private theorem searches_rethrow {x : FilterM β} {g : RelayError → RelayError}
    (hx : Searches x post) (hg : ∀ e, e ≠ notFound → g e ≠ notFound) :
    Searches (tryCatch x fun e => throw (g e)) post := by
  apply Discipline.wp_run_tryCatch hx
  · exact fun a _ ha => ha
  · exact fun e _ he => hg e he

private theorem searches_mapM {g : α → FilterM β} (hg : ∀ a, Searches (g a) fun _ => True)
    (xs : List α) :
    Searches (xs.mapM g) fun _ => True := by
  induction xs with
  | nil => exact searches_return trivial
  | cons a xs ih =>
    rw [List.mapM_cons]
    apply searches_bind (hg a)
    intro b
    apply searches_bind ih
    exact fun bs => searches_return trivial

variable {config : CommonConfig} {fromBlock toBlock : Option BlockParam}

private theorem searches_latestBlock (lookup : Lookup) :
    Searches (latestBlock mirrorNodeClient lookup) fun _ => True := by
  apply searches_bind (searches_request rfl)
  intro blocks
  cases blocks with
  | none => exact searches_throw nofun
  | some blocks => exact searches_return trivial

private theorem searches_getLatestBlockNumber (lookup : Lookup) :
    Searches (getLatestBlockNumber mirrorNodeClient lookup) fun _ => True := by
  apply searches_bind (searches_request rfl)
  intro blocks
  cases blocks with
  | none => exact searches_throw (ne_notFound rfl)
  | some blocks =>
    cases blocks with
    | nil => exact searches_throw (ne_notFound rfl)
    | cons block blocks => exact searches_return trivial

private theorem searches_getBlockWithinRange (lookup : Lookup) (n : ℕ) :
    Searches (getBlockWithinRange config mirrorNodeClient lookup n) fun _ => True := by
  apply searches_bind (searches_latestBlock .head)
  intro latest
  cases latest with
  | none => exact searches_throw nofun
  | some latest =>
    dsimp only
    split
    · exact searches_return trivial
    · exact searches_request rfl

private theorem searches_getHistoricalBlockResponse (lookup : Lookup) (param : Option BlockParam) :
    Searches (getHistoricalBlockResponse config mirrorNodeClient lookup param) fun _ => True := by
  unfold getHistoricalBlockResponse
  split
  · exact searches_return trivial
  · split
    · exact searches_request rfl
    · split
      · exact searches_return trivial
      · exact searches_getBlockWithinRange lookup _
    · exact searches_request rfl
    · exact searches_request rfl
    · exact searches_latestBlock lookup

private theorem searches_requireFromBlock :
    Searches (requireFromBlock mirrorNodeClient fromBlock toBlock) fun _ => True := by
  unfold requireFromBlock
  split
  · exact searches_return trivial
  · apply searches_bind (searches_getLatestBlockNumber .head)
    intro latestBlockNumber
    split
    · exact searches_throw (ne_notFound rfl)
    · exact searches_return trivial

private theorem checkRange_fails {address : AddressFilter} {a b : MirrorNodeBlock} :
    Fails (· ≠ notFound) (checkRange config address a b) := by
  unfold checkRange
  split
  · exact fails_error (ne_notFound rfl)
  · split
    · exact fails_error (ne_notFound rfl)
    · split
      · exact fails_error (ne_notFound rfl)
      · exact fails_ok

private theorem searches_timestampRangeFrom {address : AddressFilter} {b : MirrorNodeBlock} :
    Searches (timestampRangeFrom config mirrorNodeClient fromBlock toBlock address b)
      fun _ => True := by
  unfold timestampRangeFrom
  split
  · exact searches_return trivial
  · apply searches_bind (searches_getHistoricalBlockResponse .toBlock toBlock)
    intro toBlockResponse
    cases toBlockResponse with
    | none => exact searches_return trivial
    | some toBlockResponse =>
      dsimp only
      cases hcheck : checkRange config address b toBlockResponse with
      | error e => exact searches_throw (checkRange_fails e hcheck)
      | ok _ => exact searches_return trivial

private theorem searches_validateBlockRangeAndAddTimestampToParams {address : AddressFilter} :
    Searches (validateBlockRangeAndAddTimestampToParams config mirrorNodeClient fromBlock toBlock
      address) fun _ => True := by
  apply searches_bind searches_requireFromBlock
  intro _
  apply searches_bind (searches_getHistoricalBlockResponse .fromBlock _)
  intro fromBlockResponse
  cases fromBlockResponse with
  | none => exact searches_return trivial
  | some fromBlockResponse => exact searches_timestampRangeFrom

private theorem searches_validateBlockRange :
    Searches (validateBlockRange config mirrorNodeClient fromBlock toBlock) fun _ => True := by
  have hbounds : Searches (lookUpBounds config mirrorNodeClient fromBlock toBlock)
      fun _ => True := by
    apply searches_bind (searches_getHistoricalBlockResponse .creation _)
    intro fromBlockResponse
    apply searches_bind (searches_getHistoricalBlockResponse .creation _)
    exact fun _ => searches_return trivial
  have hexceeds : ∀ bounds : Option ℕ × Option ℕ, Searches (if exceeds bounds.1 bounds.2 then
      throw (.jsonRpcError predefined.INVALID_BLOCK_RANGE) else pure true) fun _ => True := by
    intro bounds
    split
    · exact searches_throw (ne_notFound rfl)
    · exact searches_return trivial
  apply searches_bind searches_requireFromBlock
  intro _
  dsimp only
  split
  · exact hexceeds _
  · exact searches_bind hbounds hexceeds

private theorem trimTopic_fails {message : String} {i : ℕ} {topic : Option String} :
    Fails (· ≠ notFound) (trimTopic message i topic) := by
  unfold trimTopic
  split
  · exact fails_ok
  · exact fails_error (ne_notFound rfl)

private theorem topicParam_fails {i : ℕ} {topic : TopicFilter} :
    Fails (· ≠ notFound) (topicParam i topic) := by
  cases topic with
  | null => exact fails_ok
  | one topic =>
    exact trimTopic_fails.map
  | oneOf topics =>
    rw [topicParam]
    split
    · exact fails_error (ne_notFound rfl)
    · exact (Fails.mapM fun _ _ => trimTopic_fails).map

private theorem addTopicsToParams_fails {topics : Option (List TopicFilter)} :
    Fails (· ≠ notFound) (addTopicsToParams topics) := by
  apply Fails.bind
  · apply Fails.mapM
    intro topic _
    exact topicParam_fails.bind fun _ => fails_ok
  · exact fun _ => fails_ok

private theorem searches_getLogRecords {address : AddressFilter} {params : LogParams} :
    Searches (getLogRecords mirrorNodeClient address params) fun _ => True := by
  have hone : ∀ address, Searches (getContractResultsLogsByAddress mirrorNodeClient params address)
      fun _ => True := by
    intro address
    unfold getContractResultsLogsByAddress
    split
    · exact searches_return trivial
    · exact searches_request rfl
  have hmany : ∀ addresses, Searches (getLogsByAddress mirrorNodeClient addresses params)
      fun _ => True := fun addresses =>
    searches_bind (searches_mapM hone addresses) fun _ => searches_return trivial
  cases address with
  | none => exact searches_request rfl
  | one address =>
    change Searches (if address = "" then _ else _) _
    split
    · exact searches_request rfl
    · exact hmany [address]
  | many addresses => exact hmany addresses

private theorem searches_getLogs {address : AddressFilter} {topics : Option (List TopicFilter)} :
    Searches (getLogs config mirrorNodeClient none fromBlock toBlock address topics)
      fun _ => True := by
  have hworker : Searches (getLogsInWorker config mirrorNodeClient none fromBlock toBlock address
      topics) fun _ => True := by
    apply searches_bind searches_validateBlockRangeAndAddTimestampToParams
    intro range
    cases range with
    | none => exact searches_return trivial
    | some range =>
      dsimp only [queryLogs]
      cases htopics : addTopicsToParams topics with
      | error e => exact searches_throw (addTopicsToParams_fails e htopics)
      | ok params => exact searches_bind searches_getLogRecords fun _ => searches_return trivial
  apply searches_rethrow hworker
  intro e he
  cases e with
  | jsonRpcError e => exact he
  | mirrorNodeClientError statusCode message => exact nofun
  | sdkClientError e => exact ne_notFound rfl
  | error message => exact ne_notFound rfl

end Searching

section Memory

/-- How the queries to the mirror node go, in the order in which they are asked: the time that
each takes, and its reply unless it fails. -/
structure QueryService where
  elapsed : ℕ → ℕ
  reply : ℕ → (op : FilterOp) → Option op.Reply

/-- The records of all filters, and the number of queries that were asked. -/
structure Memory where
  now : ℕ
  store : Store String fun _ => Filter
  asked : ℕ

def FilterParams.isLog : FilterParams → Bool
  | .log _ => true
  | .newBlock _ => false

def Answer.isLogs : Answer → Bool
  | .logs _ => true
  | .hashes _ => false

variable (config : FilterConfig) (expiry : Expiry) (ttl : ℤ) (service : QueryService) (id : String)

def Memory.delete (m : Memory) : Memory := { m with store := m.store.delete id }

def Memory.query (m : Memory) : Memory :=
  { m with now := m.now + service.elapsed m.asked, asked := m.asked + 1 }

/-- `updateFilterCache`. -/
def Memory.update (m : Memory) (filter : Filter) : Memory :=
  { m with store := m.store.set m.now id filter ttl }

/-- The requests of a call with the given id. -/
def Memory.handle : (op : FilterOp) → Memory → Option op.Reply × Memory
  | .getFilter, m => (some (m.store.get expiry m.now id), m)
  | .setFilter filter, m => (some (), m.update ttl id filter)
  | .deleteFilter, m => (some (), m.delete id)
  | op, m => (service.reply m.asked op, m.query service)

inductive FilterRequest where
  | newFilter (params : NewFilterParams)
  | newBlockFilter
  | uninstallFilter
  | getFilterLogs
  | getFilterChanges

/-- What a client is told.  A query that fails ends the call with an error of its own. -/
inductive Outcome where
  | created (isLog : Bool)
  | uninstalled (existed : Bool)
  | answered (answer : Answer)
  | failed (error : Option RelayError)
  deriving DecidableEq

def FilterRequest.program : FilterRequest → FilterM Outcome
  | .newFilter params => (fun _ => .created true) <$> Filters.newFilter config params
  | .newBlockFilter => (fun _ => .created false) <$> Filters.newBlockFilter config
  | .uninstallFilter => .uninstalled <$> Filters.uninstallFilter config
  | .getFilterLogs => (fun logs => .answered (.logs logs)) <$> Filters.getFilterLogs config
  | .getFilterChanges => .answered <$> Filters.getFilterChanges config

def outcomeOf : Option (Except RelayError Outcome) → Outcome
  | none => .failed none
  | some (.error e) => .failed (some e)
  | some (.ok outcome) => outcome

def Memory.perform (m : Memory) (request : FilterRequest) : Outcome × Memory :=
  let r := (request.program config).run.attempt (Memory.handle expiry ttl service id) m
  (outcomeOf r.1, r.2)

end Memory

section Leases

/-- What is known of a filter without its record: whether it is one for logs, and its end. -/
abbrev Lease := Entry Bool

variable (config : FilterConfig) (expiry : Expiry) (ttl : ℤ) (service : QueryService)

/-- The end of a filter that is written now. -/
def lifetime (now : ℕ) : Option ℕ := if 0 < ttl then some (now + ttl.toNat) else none

/-- The account that clients keep of the filter that a call was about. -/
def noteOutcome (now : ℕ) (lease : Option Lease) : Outcome → Option Lease
  | .created isLog => some ⟨isLog, lifetime ttl now⟩
  | .answered _ => lease.map fun lease => ⟨lease.value, lifetime ttl now⟩
  | .uninstalled true => none
  | .uninstalled false | .failed _ => lease

structure FilterService where
  memory : Memory
  leases : String → Option Lease

inductive FilterEvent where
  | request (id : String) (request : FilterRequest)
  | wait (elapsed : ℕ)
  /-- The cache drops a record. -/
  | evict (id : String)

def FilterService.step (s : FilterService) : FilterEvent → Option FilterService
  | .request id request =>
      let r := s.memory.perform config expiry ttl service id request
      some ⟨r.2, Function.update s.leases id (noteOutcome ttl r.2.now (s.leases id) r.1)⟩
  | .wait elapsed => some { s with memory := { s.memory with now := s.memory.now + elapsed } }
  | .evict id => some ⟨s.memory.delete id, Function.update s.leases id none⟩

def FilterService.start (now : ℕ) : FilterService := ⟨⟨now, ∅, 0⟩, fun _ => none⟩

/-- The type of the filter whose record is in the cache. -/
def Memory.found (m : Memory) (id : String) : Option Bool :=
  (m.store.get expiry m.now id).map (·.params.isLog)

/-- The type of the filter that clients hold under the id. -/
def FilterService.held (s : FilterService) (id : String) : Option Bool :=
  ((s.leases id).filter fun lease => lease.aliveAt expiry s.memory.now).map (·.value)

/-- An error other than that of a missing filter. -/
def Outcome.FailsOtherwise (outcome : Outcome) : Prop :=
  ∃ e, outcome = .failed e ∧ e ≠ some notFound

/-- What a call may come to, by the type of the filter that is held under its id. -/
def ExpectedEnabled (held : Option Bool) (outcome : Outcome) : FilterRequest → Prop
  | .newFilter _ => outcome = .created true ∨ outcome.FailsOtherwise
  | .newBlockFilter => outcome = .created false ∨ outcome.FailsOtherwise
  | .uninstallFilter => outcome = .uninstalled held.isSome
  | .getFilterLogs =>
      if held = some true then
        (∃ logs, outcome = .answered (.logs logs)) ∨ outcome.FailsOtherwise
      else outcome = .failed (some notFound)
  | .getFilterChanges =>
      match held with
      | some isLog =>
          (∃ answer, outcome = .answered answer ∧ answer.isLogs = isLog) ∨ outcome.FailsOtherwise
      | none => outcome = .failed (some notFound)

abbrev unsupportedMethod : RelayError := .jsonRpcError predefined.UNSUPPORTED_METHOD

def Expected (held : Option Bool) (outcome : Outcome) (request : FilterRequest) : Prop :=
  if config.filterApiEnabled then ExpectedEnabled held outcome request
  else outcome = .failed (some unsupportedMethod)

end Leases

section Calls

variable {config : FilterConfig} {expiry : Expiry} {ttl : ℤ} {service : QueryService} {id : String}
  {α β : Type} {m s t : Memory}

/-- Only time has passed. -/
structure Memory.Later (m t : Memory) : Prop where
  store : t.store = m.store
  now : m.now ≤ t.now

theorem Memory.Later.refl (m : Memory) : m.Later m := ⟨rfl, le_rfl⟩

theorem Memory.Later.trans {u : Memory} (h : m.Later t) (h' : t.Later u) : m.Later u :=
  ⟨h'.store.trans h.store, h.now.trans h'.now⟩

private theorem later_of_query {op : FilterOp} (h : op.isQuery = true) :
    m.Later (Memory.handle expiry ttl service id op m).2 := by
  cases op with
  | getFilter => cases h
  | setFilter filter => cases h
  | deleteFilter => cases h
  | getLatestBlock lookup => exact ⟨rfl, Nat.le_add_right _ _⟩
  | getBlock lookup id => exact ⟨rfl, Nat.le_add_right _ _⟩
  | getBlocks gt => exact ⟨rfl, Nat.le_add_right _ _⟩
  | getLogs address params => exact ⟨rfl, Nat.le_add_right _ _⟩

/-- How a call ends that began with the given records and finds its filter. -/
inductive Ends (m : Memory) (good : α → Memory → Prop) :
    Option (Except RelayError α) × Memory → Prop where
  | unanswered {t : Memory} (h : m.Later t) : Ends m good (none, t)
  | error {e : RelayError} {t : Memory} (he : e ≠ notFound) (h : m.Later t) :
      Ends m good (some (.error e), t)
  | ok {a : α} {t : Memory} (h : good a t) : Ends m good (some (.ok a), t)

section Rules

variable {good : β → Memory → Prop}

private theorem ends_search {x : FilterM α} {post : α → Prop} {f : α → FilterM β}
    (hx : Searches x post) (hs : m.Later s) (hf : ∀ a t, post a → m.Later t →
      Ends m good ((f a).run.attempt (Memory.handle expiry ttl service id) t)) :
    Ends m good ((x >>= f).run.attempt (Memory.handle expiry ttl service id) s) := by
  have hallowed : ∀ st op m, queries.allowed st op →
      Memory.Later m (Memory.handle expiry ttl service id op m).2 :=
    fun _ _ _ hop => later_of_query hop
  obtain ⟨hlater, hend⟩ :=
    Prog.attempt_of_wp Memory.Later.refl Memory.Later.trans hallowed hx s
  cases h : x.run.attempt (Memory.handle expiry ttl service id) s with
  | mk r t =>
    rw [h] at hlater hend
    cases r with
    | none =>
      rw [Prog.attempt_run_bind_none h]
      exact .unanswered (hs.trans hlater)
    | some r =>
      obtain ⟨_, hr⟩ := hend r rfl
      cases r with
      | error e =>
        rw [Prog.attempt_run_bind_error h]
        exact .error hr (hs.trans hlater)
      | ok a =>
        rw [Prog.attempt_run_bind_ok h]
        exact hf a t hr (hs.trans hlater)

private theorem ends_map {x : FilterM α} {g : α → β}
    (h : Ends m (fun a => good (g a)) (x.run.attempt (Memory.handle expiry ttl service id) s)) :
    Ends m good ((g <$> x).run.attempt (Memory.handle expiry ttl service id) s) := by
  rw [Prog.attempt_run_map]
  cases hx : x.run.attempt (Memory.handle expiry ttl service id) s with
  | mk r t =>
    rw [hx] at h
    cases h with
    | unanswered h => exact .unanswered h
    | error he h => exact .error he h
    | ok h => exact .ok h

private theorem ends_rethrow {x : FilterM β} {g : RelayError → RelayError}
    (h : Ends m good (x.run.attempt (Memory.handle expiry ttl service id) s))
    (hg : ∀ e, e ≠ notFound → g e ≠ notFound) :
    Ends m good ((tryCatch x fun e => throw (g e)).run.attempt
      (Memory.handle expiry ttl service id) s) := by
  rw [Prog.attempt_run_rethrow]
  cases hx : x.run.attempt (Memory.handle expiry ttl service id) s with
  | mk r t =>
    rw [hx] at h
    cases h with
    | unanswered h => exact .unanswered h
    | error he h => exact .error (hg _ he) h
    | ok h => exact .ok h

private theorem attempt_requireFiltersEnabled (h : config.filterApiEnabled = true) :
    (requireFiltersEnabled config).run.attempt (Memory.handle expiry ttl service id) m =
      (some (.ok ()), m) := by
  rw [requireFiltersEnabled, if_pos h]
  rfl

private theorem attempt_set {filter : Filter} : (request (.setFilter filter)).run.attempt
    (Memory.handle expiry ttl service id) m = (some (.ok ()), m.update ttl id filter) :=
  Prog.attempt_lift_call rfl

private theorem ends_set {filter : Filter} {b : β} (h : good b (s.update ttl id filter)) :
    Ends m good ((request (.setFilter filter) >>= fun _ => pure b).run.attempt
      (Memory.handle expiry ttl service id) s) := by
  rw [Prog.attempt_run_bind_ok attempt_set]
  exact .ok h

private theorem ends_enabled {f : Unit → FilterM β} (henabled : config.filterApiEnabled = true)
    (h : Ends m good ((f ()).run.attempt (Memory.handle expiry ttl service id) s)) :
    Ends m good ((requireFiltersEnabled config >>= f).run.attempt
      (Memory.handle expiry ttl service id) s) := by
  rw [Prog.attempt_run_bind_ok (attempt_requireFiltersEnabled henabled)]
  exact h

/-- A call that reads the record of its filter. -/
theorem attempt_get {f : Option Filter → FilterM β} :
    (request .getFilter >>= f).run.attempt (Memory.handle expiry ttl service id) s =
      (f (s.store.get expiry s.now id)).run.attempt (Memory.handle expiry ttl service id) s :=
  Prog.attempt_run_bind_ok (Prog.attempt_lift_call rfl)

private theorem ends_get {f : Option Filter → FilterM β}
    (h : Ends m good ((f (s.store.get expiry s.now id)).run.attempt
      (Memory.handle expiry ttl service id) s)) :
    Ends m good ((request .getFilter >>= f).run.attempt
      (Memory.handle expiry ttl service id) s) := by
  rw [attempt_get]
  exact h

end Rules

section Functions

variable {filter : Filter}

/-- The call has written a record of the given type. -/
structure Written (ttl : ℤ) (id : String) (m : Memory) (isLog : Bool) (t : Memory) : Prop where
  now : m.now ≤ t.now
  store : ∃ filter, filter.params.isLog = isLog ∧ t.store = m.store.set t.now id filter ttl

private theorem written_of_later (filter : Filter) (h : m.Later t) :
    Written ttl id m filter.params.isLog (t.update ttl id filter) where
  now := h.now
  store := by
    refine ⟨filter, rfl, ?_⟩
    rw [← h.store]
    rfl

private theorem attempt_createFilter {params : FilterParams} : (createFilter params).run.attempt
    (Memory.handle expiry ttl service id) m = (some (.ok ()), m.update ttl id ⟨params, none⟩) :=
  Prog.attempt_lift_call rfl

private theorem ends_createFilter (params : FilterParams) (h : m.Later s) :
    Ends m (fun _ => Written ttl id m params.isLog)
      ((createFilter params).run.attempt (Memory.handle expiry ttl service id) s) := by
  rw [attempt_createFilter]
  exact .ok (written_of_later ⟨params, none⟩ h)

private theorem searches_creationBlock {fromBlock : BlockParam} :
    Searches (creationBlock fromBlock) fun _ => True := by
  unfold creationBlock
  split
  · exact searches_map (searches_getLatestBlockNumber .creation) fun _ => trivial
  · exact searches_return trivial

private theorem ends_newBlockFilter (henabled : config.filterApiEnabled = true) :
    Ends m (fun _ => Written ttl id m false)
      ((newBlockFilter config).run.attempt (Memory.handle expiry ttl service id) m) := by
  apply ends_enabled henabled
  apply ends_search (searches_getLatestBlockNumber .creation) (.refl m)
  intro blockAtCreation t _ hlater
  exact ends_createFilter (.newBlock blockAtCreation) hlater

private theorem genericErrorHandler_ne {e : RelayError} (h : e ≠ notFound) :
    genericErrorHandler e ≠ notFound := by
  cases e with
  | error message => exact ne_notFound rfl
  | jsonRpcError e => exact h
  | sdkClientError e => exact h
  | mirrorNodeClientError statusCode message => exact h

private theorem ends_newFilter (henabled : config.filterApiEnabled = true)
    (params : NewFilterParams) :
    Ends m (fun _ => Written ttl id m true)
      ((newFilter config params).run.attempt (Memory.handle expiry ttl service id) m) := by
  apply ends_rethrow _ fun _ => genericErrorHandler_ne
  apply ends_enabled henabled
  apply ends_search searches_validateBlockRange (.refl m)
  intro valid s _ hs
  cases valid with
  | false => exact .error (ne_notFound rfl) hs
  | true =>
    apply ends_search searches_creationBlock hs
    intro fromBlock t _ ht
    exact ends_createFilter (.log _) ht

private theorem ends_getFilterLogs (henabled : config.filterApiEnabled = true)
    {params : LogFilterParams}
    (hget : m.store.get expiry m.now id = some filter) (hparams : filter.params = .log params) :
    Ends m (fun _ => Written ttl id m true)
      ((getFilterLogs config).run.attempt (Memory.handle expiry ttl service id) m) := by
  apply ends_enabled henabled
  apply ends_get
  rw [hget]
  obtain ⟨_, lastQueried⟩ := filter
  cases hparams
  apply ends_search searches_getLogs (.refl m)
  intro logs t _ ht
  exact ends_set (written_of_later ⟨.log params, lastQueried⟩ ht)

private theorem searches_handleLogFilterChanges {params : LogFilterParams}
    {lastQueried : Option ℕ} :
    Searches (handleLogFilterChanges config params lastQueried) fun _ => True := by
  apply searches_bind searches_getLogs
  intro result
  apply searches_bind
  · unfold nextLogCursor
    split
    · exact searches_return trivial
    · exact searches_map (searches_getLatestBlockNumber .cursor) fun _ => trivial
  · exact fun _ => searches_return trivial

private theorem searches_handleNewBlockFilterChanges {blockAtCreation : String}
    {lastQueried : Option ℕ} :
    Searches (handleNewBlockFilterChanges blockAtCreation lastQueried) fun _ => True := by
  apply searches_bind (searches_request rfl)
  intro blockResponse
  apply searches_bind
  · unfold nextBlockCursor
    split
    · exact searches_return trivial
    · exact searches_map (searches_getLatestBlockNumber .cursor) fun _ => trivial
  · exact fun _ => searches_return trivial

private theorem searches_handleChanges : Searches (handleChanges config filter)
    fun r => r.1.isLogs = filter.params.isLog := by
  unfold handleChanges
  split
  · rename_i params hparams
    rw [hparams]
    exact searches_map searches_handleLogFilterChanges fun _ => rfl
  · rename_i blockAtCreation hparams
    rw [hparams]
    exact searches_map searches_handleNewBlockFilterChanges fun _ => rfl

private theorem ends_getFilterChanges (henabled : config.filterApiEnabled = true)
    (hget : m.store.get expiry m.now id = some filter) :
    Ends m (fun answer t => answer.isLogs = filter.params.isLog ∧
        Written ttl id m filter.params.isLog t)
      ((getFilterChanges config).run.attempt (Memory.handle expiry ttl service id) m) := by
  apply ends_enabled henabled
  apply ends_get
  rw [hget]
  apply ends_search searches_handleChanges (.refl m)
  intro r t hanswer ht
  exact ends_set ⟨hanswer, written_of_later { filter with lastQueried := some r.2 } ht⟩

end Functions

section Requests

/-- What a call has done to the records. -/
inductive Changed (expiry : Expiry) (ttl : ℤ) (id : String) (m t : Memory) : Outcome → Prop where
  | created {isLog : Bool} (h : Written ttl id m isLog t) :
      Changed expiry ttl id m t (.created isLog)
  | answered {isLog : Bool} {answer : Answer} (hfound : m.found expiry id = some isLog)
      (h : Written ttl id m isLog t) : Changed expiry ttl id m t (.answered answer)
  | uninstalled (h : t = m.delete id) :
      Changed expiry ttl id m t (.uninstalled true)
  | notInstalled (h : t = m) : Changed expiry ttl id m t (.uninstalled false)
  | failed {e : Option RelayError} (h : m.Later t) : Changed expiry ttl id m t (.failed e)

/-- How a call ends that began with the given records. -/
structure Settled (config : FilterConfig) (expiry : Expiry) (ttl : ℤ) (id : String) (m : Memory)
    (request : FilterRequest) (outcome : Outcome) (t : Memory) : Prop where
  changed : Changed expiry ttl id m t outcome
  expected : Expected config (m.found expiry id) outcome request
  idle : outcome = .failed (some notFound) → t = m

theorem Ends.mono {good good' : α → Memory → Prop} {r : Option (Except RelayError α) × Memory}
    (h : Ends m good r) (hgood : ∀ a t, good a t → good' a t) : Ends m good' r := by
  cases h with
  | unanswered h => exact .unanswered h
  | error he h => exact .error he h
  | ok h => exact .ok (hgood _ _ h)

theorem Ends.outcome {good : Outcome → Memory → Prop}
    {r : Option (Except RelayError Outcome) × Memory} (h : Ends m good r)
    (hfail : ∀ e t, e ≠ some notFound → m.Later t → good (.failed e) t) :
    good (outcomeOf r.1) r.2 := by
  cases h with
  | unanswered h => exact hfail none _ nofun h
  | error he h => exact hfail _ _ (fun heq => he (Option.some.inj heq)) h
  | ok h => exact h

private theorem attempt_disabled {f : Unit → FilterM α} (h : config.filterApiEnabled = false) :
    (requireFiltersEnabled config >>= f).run.attempt (Memory.handle expiry ttl service id) m =
      (some (.error unsupportedMethod), m) := by
  apply Prog.attempt_run_bind_error
  rw [requireFiltersEnabled, h]
  rfl

private theorem perform_disabled (h : config.filterApiEnabled = false) (request : FilterRequest) :
    m.perform config expiry ttl service id request = (.failed (some unsupportedMethod), m) := by
  unfold Memory.perform
  cases request with
  | newFilter params =>
    rw [FilterRequest.program, Prog.attempt_run_map, newFilter, Prog.attempt_run_rethrow,
      attempt_disabled h]
    rfl
  | newBlockFilter =>
    rw [FilterRequest.program, Prog.attempt_run_map, newBlockFilter, attempt_disabled h]
    rfl
  | uninstallFilter =>
    rw [FilterRequest.program, Prog.attempt_run_map, uninstallFilter, attempt_disabled h]
    rfl
  | getFilterLogs =>
    rw [FilterRequest.program, Prog.attempt_run_map, getFilterLogs, attempt_disabled h]
    rfl
  | getFilterChanges =>
    rw [FilterRequest.program, Prog.attempt_run_map, getFilterChanges, attempt_disabled h]
    rfl

private theorem expected_iff {held : Option Bool} {outcome : Outcome} {request : FilterRequest}
    (h : config.filterApiEnabled = true) :
    Expected config held outcome request ↔ ExpectedEnabled held outcome request := by
  rw [Expected, if_pos h]

private theorem settled_of_ends {request : FilterRequest} (good : Outcome → Memory → Prop)
    (henabled : config.filterApiEnabled = true)
    (hends : Ends m good ((request.program config).run.attempt
      (Memory.handle expiry ttl service id) m))
    (hgood : ∀ outcome t, good outcome t → Changed expiry ttl id m t outcome ∧
      ExpectedEnabled (m.found expiry id) outcome request ∧ outcome ≠ .failed (some notFound))
    (hfails : ∀ outcome : Outcome, outcome.FailsOtherwise →
      ExpectedEnabled (m.found expiry id) outcome request) :
    Settled config expiry ttl id m request (m.perform config expiry ttl service id request).1
      (m.perform config expiry ttl service id request).2 := by
  apply (hends.mono _).outcome
  · intro e t he hlater
    exact ⟨.failed hlater, (expected_iff henabled).mpr (hfails _ ⟨e, rfl, he⟩),
      fun heq => absurd (Outcome.failed.inj heq) he⟩
  · intro outcome t ht
    obtain ⟨hchanged, hexpected, hne⟩ := hgood outcome t ht
    exact ⟨hchanged, (expected_iff henabled).mpr hexpected, fun heq => absurd heq hne⟩

private theorem settled_unchanged {request : FilterRequest} (outcome : Outcome)
    (henabled : config.filterApiEnabled = true)
    (h : m.perform config expiry ttl service id request = (outcome, m))
    (hchanged : Changed expiry ttl id m m outcome)
    (hexpected : ExpectedEnabled (m.found expiry id) outcome request) :
    Settled config expiry ttl id m request (m.perform config expiry ttl service id request).1
      (m.perform config expiry ttl service id request).2 := by
  rw [h]
  exact ⟨hchanged, (expected_iff henabled).mpr hexpected, fun _ => rfl⟩

private theorem found_eq {filter : Filter} (hget : m.store.get expiry m.now id = some filter) :
    m.found expiry id = some filter.params.isLog := by
  rw [Memory.found, hget]
  rfl

private theorem found_none (hget : m.store.get expiry m.now id = none) :
    m.found expiry id = none := by
  rw [Memory.found, hget]
  rfl

private theorem settled_newFilter (henabled : config.filterApiEnabled = true)
    (params : NewFilterParams) :
    Settled config expiry ttl id m (.newFilter params)
      (m.perform config expiry ttl service id (.newFilter params)).1
      (m.perform config expiry ttl service id (.newFilter params)).2 := by
  apply settled_of_ends (fun outcome t => outcome = .created true ∧ Written ttl id m true t)
    henabled
  · exact ends_map ((ends_newFilter henabled params).mono fun _ t ht => ⟨rfl, ht⟩)
  · intro outcome t ht
    obtain ⟨rfl, ht⟩ := ht
    exact ⟨.created ht, .inl rfl, nofun⟩
  · exact fun outcome h => .inr h

private theorem settled_newBlockFilter (henabled : config.filterApiEnabled = true) :
    Settled config expiry ttl id m .newBlockFilter
      (m.perform config expiry ttl service id .newBlockFilter).1
      (m.perform config expiry ttl service id .newBlockFilter).2 := by
  apply settled_of_ends (fun outcome t => outcome = .created false ∧ Written ttl id m false t)
    henabled
  · exact ends_map ((ends_newBlockFilter henabled).mono fun _ t ht => ⟨rfl, ht⟩)
  · intro outcome t ht
    obtain ⟨rfl, ht⟩ := ht
    exact ⟨.created ht, .inl rfl, nofun⟩
  · exact fun outcome h => .inr h

private theorem settled_uninstallFilter (henabled : config.filterApiEnabled = true) :
    Settled config expiry ttl id m .uninstallFilter
      (m.perform config expiry ttl service id .uninstallFilter).1
      (m.perform config expiry ttl service id .uninstallFilter).2 := by
  cases hget : m.store.get expiry m.now id with
  | none =>
    have hend : (uninstallFilter config).run.attempt (Memory.handle expiry ttl service id) m =
        (some (.ok false), m) := by
      rw [uninstallFilter, Prog.attempt_run_bind_ok (attempt_requireFiltersEnabled henabled)]
      refine attempt_get.trans ?_
      rw [hget]
      rfl
    apply settled_unchanged (.uninstalled false) henabled
    · rw [Memory.perform, FilterRequest.program, Prog.attempt_run_map, hend]
      rfl
    · exact .notInstalled rfl
    · rw [found_none hget]
      rfl
  | some filter =>
    have hend : (uninstallFilter config).run.attempt (Memory.handle expiry ttl service id) m =
        (some (.ok true), m.delete id) := by
      rw [uninstallFilter, Prog.attempt_run_bind_ok (attempt_requireFiltersEnabled henabled)]
      refine attempt_get.trans ?_
      rw [hget]
      exact Prog.attempt_run_bind_ok (Prog.attempt_lift_call rfl)
    rw [Memory.perform, FilterRequest.program, Prog.attempt_run_map, hend]
    refine ⟨.uninstalled rfl, (expected_iff henabled).mpr ?_, nofun⟩
    rw [found_eq hget]
    rfl

private theorem settled_getFilterLogs (henabled : config.filterApiEnabled = true) :
    Settled config expiry ttl id m .getFilterLogs
      (m.perform config expiry ttl service id .getFilterLogs).1
      (m.perform config expiry ttl service id .getFilterLogs).2 := by
  by_cases hfound : m.found expiry id = some true
  · obtain ⟨filter, hget, hlog⟩ := Option.map_eq_some_iff.mp hfound
    obtain ⟨params, hparams⟩ : ∃ params, filter.params = .log params := by
      cases h : filter.params with
      | log params => exact ⟨params, rfl⟩
      | newBlock blockAtCreation =>
        rw [h] at hlog
        cases hlog
    apply settled_of_ends (fun outcome t => (∃ logs, outcome = .answered (.logs logs)) ∧
      Written ttl id m true t) henabled
    · exact ends_map ((ends_getFilterLogs henabled hget hparams).mono
        fun logs t ht => ⟨⟨logs, rfl⟩, ht⟩)
    · intro outcome t ht
      obtain ⟨⟨logs, rfl⟩, ht⟩ := ht
      refine ⟨.answered hfound ht, ?_, nofun⟩
      rw [ExpectedEnabled, if_pos hfound]
      exact .inl ⟨logs, rfl⟩
    · intro outcome h
      rw [ExpectedEnabled, if_pos hfound]
      exact .inr h
  · have hend : (getFilterLogs config).run.attempt (Memory.handle expiry ttl service id) m =
        (some (.error notFound), m) := by
      rw [getFilterLogs, Prog.attempt_run_bind_ok (attempt_requireFiltersEnabled henabled)]
      refine attempt_get.trans ?_
      cases hget : m.store.get expiry m.now id with
      | none => rfl
      | some filter =>
        obtain ⟨params, lastQueried⟩ := filter
        cases params with
        | log params => exact absurd (found_eq hget) hfound
        | newBlock blockAtCreation => rfl
    apply settled_unchanged (.failed (some notFound)) henabled
    · rw [Memory.perform, FilterRequest.program, Prog.attempt_run_map, hend]
      rfl
    · exact .failed (.refl m)
    · rw [ExpectedEnabled, if_neg hfound]

private theorem settled_getFilterChanges (henabled : config.filterApiEnabled = true) :
    Settled config expiry ttl id m .getFilterChanges
      (m.perform config expiry ttl service id .getFilterChanges).1
      (m.perform config expiry ttl service id .getFilterChanges).2 := by
  cases hget : m.store.get expiry m.now id with
  | none =>
    have hend : (getFilterChanges config).run.attempt (Memory.handle expiry ttl service id) m =
        (some (.error notFound), m) := by
      rw [getFilterChanges, Prog.attempt_run_bind_ok (attempt_requireFiltersEnabled henabled)]
      refine attempt_get.trans ?_
      rw [hget]
      rfl
    apply settled_unchanged (.failed (some notFound)) henabled
    · rw [Memory.perform, FilterRequest.program, Prog.attempt_run_map, hend]
      rfl
    · exact .failed (.refl m)
    · rw [found_none hget]
      rfl
  | some filter =>
    have hfound := found_eq hget
    apply settled_of_ends (fun outcome t => (∃ answer, outcome = .answered answer ∧
      answer.isLogs = filter.params.isLog) ∧ Written ttl id m filter.params.isLog t) henabled
    · exact ends_map ((ends_getFilterChanges henabled hget).mono
        fun answer t ht => ⟨⟨answer, rfl, ht.1⟩, ht.2⟩)
    · intro outcome t ht
      obtain ⟨⟨answer, rfl, hanswer⟩, ht⟩ := ht
      refine ⟨.answered hfound ht, ?_, nofun⟩
      rw [hfound]
      exact .inl ⟨answer, rfl, hanswer⟩
    · intro outcome h
      rw [hfound]
      exact .inr h

private theorem settled_perform (config : FilterConfig) (expiry : Expiry) (ttl : ℤ)
    (service : QueryService) (id : String) (m : Memory) (request : FilterRequest) :
    Settled config expiry ttl id m request (m.perform config expiry ttl service id request).1
      (m.perform config expiry ttl service id request).2 := by
  cases henabled : config.filterApiEnabled with
  | false =>
    rw [perform_disabled henabled]
    refine ⟨.failed (.refl m), ?_, fun _ => rfl⟩
    rw [Expected, henabled]
    rfl
  | true =>
    cases request with
    | newFilter params => exact settled_newFilter henabled params
    | newBlockFilter => exact settled_newBlockFilter henabled
    | uninstallFilter => exact settled_uninstallFilter henabled
    | getFilterLogs => exact settled_getFilterLogs henabled
    | getFilterChanges => exact settled_getFilterChanges henabled

end Requests

section Runs

/-- What a record says of its filter. -/
def leaseOf (e : Entry Filter) : Lease := ⟨e.value.params.isLog, e.deadline⟩

/-- The account of the clients agrees with the records. -/
def Tracks (expiry : Expiry) (m : Memory) (leases : String → Option Lease) (id : String) : Prop :=
  (m.store.liveEntry expiry m.now id).map leaseOf =
    (leases id).filter (Entry.aliveAt expiry m.now)

variable {leases : String → Option Lease} {other : String}

private theorem found_of_tracks (h : Tracks expiry m leases id) : m.found expiry id =
    ((leases id).filter (Entry.aliveAt expiry m.now)).map (·.value) := by
  rw [Memory.found, Store.get_eq_map_liveEntry, ← h, Option.map_map, Option.map_map]
  rfl

theorem Tracks.later (h : Tracks expiry m leases id) (hlater : m.Later t) :
    Tracks expiry t leases id := by
  unfold Tracks at h ⊢
  rw [hlater.store, Store.liveEntry_later hlater.now,
    Store.filter_aliveAt_later (V := fun _ : String => Bool) (k := id) hlater.now, ← h]
  cases m.store.liveEntry expiry m.now id with
  | none => rfl
  | some e =>
    rw [Option.map_some, Option.filter_some, Option.filter_some]
    by_cases halive : e.aliveAt expiry t.now
    · rw [if_pos halive]
      exact (if_pos halive).symm
    · rw [if_neg halive]
      exact (if_neg halive).symm

private theorem Changed.now_le {outcome : Outcome} (h : Changed expiry ttl id m t outcome) :
    m.now ≤ t.now := by
  cases h with
  | created h => exact h.now
  | answered _ h => exact h.now
  | uninstalled h => exact h ▸ le_rfl
  | notInstalled h => exact h ▸ le_rfl
  | failed h => exact h.now

/-- The records of other filters stay, as long as their time is not over. -/
theorem Changed.lookup_of_ne {outcome : Outcome} (h : Changed expiry ttl id m t outcome)
    (hne : other ≠ id) (now : ℕ) :
    t.store.liveEntry expiry now other = m.store.liveEntry expiry now other := by
  cases h with
  | created h =>
    obtain ⟨filter, _, hstore⟩ := h.store
    rw [hstore, Store.liveEntry_set_of_ne hne]
  | answered _ h =>
    obtain ⟨filter, _, hstore⟩ := h.store
    rw [hstore, Store.liveEntry_set_of_ne hne]
  | uninstalled h =>
    subst h
    exact Store.liveEntry_erase_of_ne hne
  | notInstalled h => rw [h]
  | failed h => rw [h.store]

theorem Written.liveEntry {isLog : Bool} (h : Written ttl id m isLog t) :
    (t.store.liveEntry expiry t.now id).map leaseOf = some ⟨isLog, lifetime ttl t.now⟩ := by
  obtain ⟨filter, hlog, hstore⟩ := h.store
  rw [hstore, Store.liveEntry_set_self, Option.map_some, leaseOf, hlog]
  rfl

private theorem filter_written {isLog : Bool} {now : ℕ} :
    (some (⟨isLog, lifetime ttl now⟩ : Lease)).filter (Entry.aliveAt expiry now) =
      some ⟨isLog, lifetime ttl now⟩ := by
  rw [Option.filter_some]
  exact if_pos (Store.aliveAt_written (V := fun _ : String => Bool) (k := "") (v := isLog))

/-- The account of the filter that a call is about. -/
theorem tracks_noteOutcome {outcome : Outcome} (h : Tracks expiry m leases id)
    (hchanged : Changed expiry ttl id m t outcome) :
    Tracks expiry t
      (Function.update leases id (noteOutcome ttl t.now (leases id) outcome)) id := by
  unfold Tracks
  rw [Function.update_self]
  cases hchanged with
  | created hwritten => rw [hwritten.liveEntry, noteOutcome, filter_written]
  | answered hfound hwritten =>
    rw [found_of_tracks h] at hfound
    obtain ⟨lease, hlease, rfl⟩ := Option.map_eq_some_iff.mp hfound
    have hleased : leases id = some lease := (Option.filter_eq_some_iff.mp hlease).1
    rw [hwritten.liveEntry, noteOutcome, hleased, Option.map_some, filter_written]
  | uninstalled ht =>
    subst ht
    change (Store.liveEntry expiry m.now (m.store.erase id) id).map leaseOf = none
    rw [Store.liveEntry_erase_self]
    rfl
  | notInstalled ht =>
    subst ht
    exact h
  | failed hlater => exact h.later hlater

/-- A call keeps the account of every filter. -/
theorem tracks_request {outcome : Outcome} (h : ∀ id, Tracks expiry m leases id)
    (hchanged : Changed expiry ttl id m t outcome) (other : String) :
    Tracks expiry t
      (Function.update leases id (noteOutcome ttl t.now (leases id) outcome)) other := by
  by_cases hne : other = id
  · rw [hne]
    exact tracks_noteOutcome (h id) hchanged
  · have hlater : Tracks expiry { m with now := t.now } leases other :=
      (h other).later ⟨rfl, hchanged.now_le⟩
    unfold Tracks at hlater ⊢
    rw [Function.update_of_ne hne, hchanged.lookup_of_ne hne]
    exact hlater

end Runs

end Calls

section Account

variable (config : FilterConfig) (expiry : Expiry) (ttl : ℤ) (service : QueryService)

/-- A call comes to what the account of its filter says. -/
def FilterService.AsHeld (s : FilterService) : FilterEvent → Prop
  | .request id request =>
      let r := s.memory.perform config expiry ttl service id request
      Expected config (s.held expiry id) r.1 request ∧
        (r.1 = .failed (some notFound) → r.2 = s.memory)
  | .wait _ | .evict _ => True

def FilterService.Tracked (s : FilterService) : Prop := ∀ id, Tracks expiry s.memory s.leases id

variable {config expiry ttl service} {s t : FilterService}

private theorem tracked_start (now : ℕ) : (FilterService.start now).Tracked expiry := fun _ => rfl

theorem FilterService.Tracked.step {event : FilterEvent} (h : s.Tracked expiry)
    (hstep : s.step config expiry ttl service event = some t) : t.Tracked expiry := by
  cases event with
  | request id request =>
    cases hstep
    exact tracks_request h (settled_perform config expiry ttl service id s.memory request).changed
  | wait elapsed =>
    cases hstep
    exact fun id => (h id).later ⟨rfl, Nat.le_add_right _ _⟩
  | evict id =>
    -- the record goes as if the filter were uninstalled
    cases hstep
    have hchanged : Changed expiry ttl id s.memory (s.memory.delete id) (.uninstalled true) :=
      .uninstalled rfl
    exact tracks_request h hchanged

/-- In every run of calls, of time and of a cache that drops records, each call comes to what
the clients' account of its filter says, and a call that fails because its filter is missing
leaves everything as it was, without a query. -/
theorem filters_live_as_held (config : FilterConfig) (expiry : Expiry) (ttl : ℤ)
    (service : QueryService) (now : ℕ) (events : List FilterEvent) :
    Along (FilterService.step config expiry ttl service)
      (FilterService.AsHeld config expiry ttl service) (FilterService.start now) events := by
  have halong : Along (FilterService.step config expiry ttl service) (fun _ _ => True)
      (FilterService.start now) events := along_true _ events
  have htracked := halong.and_invariant (I := FilterService.Tracked expiry)
    (fun _ _ _ hs _ hstep => hs.step hstep) (tracked_start now)
  apply htracked.mono
  intro s event hs
  cases event with
  | request id request =>
    have hsettled := settled_perform config expiry ttl service id s.memory request
    have hheld : s.memory.found expiry id = s.held expiry id := found_of_tracks (hs.2 id)
    exact ⟨hheld ▸ hsettled.expected, hsettled.idle⟩
  | wait elapsed => trivial
  | evict id => trivial

end Account

end JsonRpcRelay.Filters

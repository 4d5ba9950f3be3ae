import JsonRpcRelay.Common.LogQueries
import JsonRpcRelay.Framework.Layers
import JsonRpcRelay.Mirror.Retries

/-!
# Log queries over immature records

The log queries where the records of the mirror node need not be complete.  The query without an
address asks again for immature records, the queries for addresses do not.
-/

namespace JsonRpcRelay.Common

open constants Mirror Blocks Framework

section Queries

/-- Queries for the logs of an address, if any, each answered by the records of all pages. -/
abbrev LogsM := ExceptT RelayError (Prog (Option String × LogParams) fun _ => List LogRecord)

def queryRecords (address : Option String) (params : LogParams) : LogsM (List LogRecord) :=
  ExceptT.lift (Prog.call (address, params))

def recordsByAddress (params : LogParams) (address : String) : LogsM (List LogRecord) :=
  if address = ZERO_ADDRESS_HEX then return [] else queryRecords (some address) params

def recordsByAddresses (addresses : List String) (params : LogParams) :
    LogsM (List LogRecord) := do
  let logResults ← addresses.mapM (recordsByAddress params)
  return logResults.flatten.mergeSort fun a b => a.timestamp ≤ b.timestamp

/-- Each attempt is one query. -/
def recordsWithRetry (mirrorNodeRequestRetryCount : ℕ) (params : LogParams) :
    LogsM (List LogRecord) :=
  Answer.records <$> ExceptT.mk
    ((getContractResultsLogsWithRetry mirrorNodeRequestRetryCount).run.implement fun _ =>
      (fun logs => Answer.many (logs.map some)) <$> Prog.call (none, params))

/-- The addresses of a filter, unless it counts as none. -/
def AddressFilter.addresses? : AddressFilter → Option (List String)
  | .none => Option.none
  | .one address => if address = "" then Option.none else some [address]
  | .many addresses => some addresses

def recordsOfFilter (mirrorNodeRequestRetryCount : ℕ) (address : AddressFilter)
    (params : LogParams) : LogsM (List LogRecord) :=
  match address.addresses? with
  | some addresses => recordsByAddresses addresses params
  | none => recordsWithRetry mirrorNodeRequestRetryCount params

/-- `numberTo0x` of a field that may be `null`. -/
def fieldTo0x : Option ℕ → Except RelayError String
  | some n => .ok (numberTo0x n)
  | none => .error (typeError "null" "toString")

def logOfRecord (log : LogRecord) : Except RelayError Log := do
  let blockNumber ← fieldTo0x log.blockNumber
  let logIndex ← fieldTo0x log.index
  let transactionIndex ← fieldTo0x log.transactionIndex
  return {
    address := log.address
    blockTimestamp := numberTo0x log.timestamp.seconds
    blockHash := toHash32 log.blockHash
    blockNumber
    data := log.data
    logIndex
    removed := false
    topics := log.topics
    transactionHash := toHash32 log.transactionHash
    transactionIndex }

def logsWithParams (mirrorNodeRequestRetryCount : ℕ) (address : AddressFilter)
    (params : LogParams) : LogsM (List Log) := do
  let logResults ← recordsOfFilter mirrorNodeRequestRetryCount address params
  ExceptT.mk (pure (logResults.mapM logOfRecord))

end Queries

section Answers

variable {α β : Type}

/-- The result where the queries are answered by a sequence from the `n`-th answer on, and how
many answers there were then. -/
def answeredInTurn (answers : ℕ → List LogRecord) (x : LogsM α) (n : ℕ) : Except RelayError α × ℕ :=
  x.run.run (fun _ n => (answers n, n + 1)) n

/-- Logs are built from mature records only, or there is the error for immature ones. -/
def HandlesImmature (mirrorNodeRequestRetryCount : ℕ) (address : AddressFilter)
    (params : LogParams) (answers : ℕ → List LogRecord) : Prop :=
  (∃ records logs,
    (answeredInTurn answers
      (recordsOfFilter mirrorNodeRequestRetryCount address params) 0).1 = .ok records ∧
    (answeredInTurn answers
      (logsWithParams mirrorNodeRequestRetryCount address params) 0).1 = .ok logs ∧
    ∀ record ∈ records, record.IsMature) ∨
  (answeredInTurn answers (logsWithParams mirrorNodeRequestRetryCount address params) 0).1 =
    .error (.jsonRpcError predefined.DEPENDENT_SERVICE_IMMATURE_RECORDS)

/-- All answers to the queries for addresses are mature, or the query is made again where it has
no address. -/
def AnswersSuffice (mirrorNodeRequestRetryCount : ℕ) (address : AddressFilter)
    (answers : ℕ → List LogRecord) : Prop :=
  match address.addresses? with
  | some addresses => ∀ n < addresses.countP (· ≠ ZERO_ADDRESS_HEX),
      ∀ record ∈ answers n, record.IsMature
  | none => mirrorNodeRequestRetryCount = 0 → ∀ record ∈ answers 0, record.IsMature

variable {answers : ℕ → List LogRecord} {params : LogParams} {n : ℕ}

private theorem answeredInTurn_bind_of_ok {x : LogsM α} {f : α → LogsM β} {a : α} {m : ℕ}
    (h : answeredInTurn answers x n = (.ok a, m)) :
    answeredInTurn answers (x >>= f) n = answeredInTurn answers (f a) m := by
  rw [answeredInTurn, ExceptT.run_bind, Prog.run_bind]
  rw [answeredInTurn] at h
  rw [h]
  rfl

private theorem answeredInTurn_bind_of_error {x : LogsM α} {f : α → LogsM β} {e : RelayError}
    {m : ℕ} (h : answeredInTurn answers x n = (.error e, m)) :
    answeredInTurn answers (x >>= f) n = (.error e, m) := by
  rw [answeredInTurn, ExceptT.run_bind, Prog.run_bind]
  rw [answeredInTurn] at h
  rw [h]
  rfl

private theorem logOfRecord_of_isMature {log : LogRecord} (h : log.IsMature) :
    ∃ formatted, logOfRecord log = .ok formatted := by
  obtain ⟨blockNumber, hblock⟩ := Option.isSome_iff_exists.mp h.blockNumber
  obtain ⟨index, hindex⟩ := Option.isSome_iff_exists.mp h.index
  obtain ⟨transactionIndex, htransaction⟩ := Option.isSome_iff_exists.mp h.transactionIndex
  rw [logOfRecord, hblock, hindex, htransaction]
  exact ⟨_, rfl⟩

private theorem fieldTo0x_error {field : Option ℕ} {e : RelayError}
    (h : fieldTo0x field = .error e) :
    e = typeError "null" "toString" := by
  cases field with
  | none => exact (Except.error.inj h).symm
  | some n => cases h

/-- What fails in the format is the access to a field. -/
theorem logOfRecord_error {log : LogRecord} {e : RelayError} (h : logOfRecord log = .error e) :
    e = typeError "null" "toString" := by
  rw [logOfRecord] at h
  cases hblock : fieldTo0x log.blockNumber with
  | error e' =>
    rw [hblock] at h
    cases h
    exact fieldTo0x_error hblock
  | ok blockNumber =>
    cases hindex : fieldTo0x log.index with
    | error e' =>
      rw [hblock, hindex] at h
      cases h
      exact fieldTo0x_error hindex
    | ok index =>
      cases htransaction : fieldTo0x log.transactionIndex with
      | error e' =>
        rw [hblock, hindex, htransaction] at h
        cases h
        exact fieldTo0x_error htransaction
      | ok transactionIndex =>
        rw [hblock, hindex, htransaction] at h
        cases h

variable {retryCount : ℕ} {address : AddressFilter}

private theorem handlesImmature_iff_of_ok {records : List LogRecord} {m : ℕ}
    (h : answeredInTurn answers (recordsOfFilter retryCount address params) 0 = (.ok records, m)) :
    HandlesImmature retryCount address params answers ↔ ∀ record ∈ records, record.IsMature := by
  have hlogs : (answeredInTurn answers (logsWithParams retryCount address params) 0).1 =
      records.mapM logOfRecord := by
    rw [logsWithParams, answeredInTurn_bind_of_ok h]
    rfl
  rw [HandlesImmature, hlogs, h]
  constructor
  · intro hhandles
    rcases hhandles with ⟨records', logs, hrecords, _, hmature⟩ | herror
    · rw [Except.ok.inj hrecords]
      exact hmature
    · obtain ⟨log, _, hlog⟩ := exists_of_mapM_error herror
      cases logOfRecord_error hlog
  · intro hmature
    have hsome : ∃ logs, records.mapM logOfRecord = .ok logs := by
      cases hmap : records.mapM logOfRecord with
      | ok logs => exact ⟨logs, rfl⟩
      | error e =>
        obtain ⟨log, hmem, hlog⟩ := exists_of_mapM_error hmap
        obtain ⟨formatted, hok⟩ := logOfRecord_of_isMature (hmature log hmem)
        rw [hok] at hlog
        cases hlog
    obtain ⟨logs, hok⟩ := hsome
    exact Or.inl ⟨records, logs, rfl, hok, hmature⟩

section Addresses

/-- The answers to the queries for addresses, from the `n`-th on. -/
def answersTo (answers : ℕ → List LogRecord) : ℕ → List String → List (List LogRecord)
  | _, [] => []
  | n, address :: addresses =>
    if address = ZERO_ADDRESS_HEX then [] :: answersTo answers n addresses
    else answers n :: answersTo answers (n + 1) addresses

private theorem answeredInTurn_mapM (addresses : List String) (n : ℕ) :
    ∃ m, answeredInTurn answers (addresses.mapM (recordsByAddress params)) n =
      (.ok (answersTo answers n addresses), m) := by
  induction addresses generalizing n with
  | nil => exact ⟨n, rfl⟩
  | cons address addresses ih =>
    rw [List.mapM_cons, answersTo]
    split
    · next hzero =>
      obtain ⟨m, hm⟩ := ih n
      have hfirst : answeredInTurn answers (recordsByAddress params address) n = (.ok [], n) := by
        rw [recordsByAddress, if_pos hzero]
        rfl
      rw [answeredInTurn_bind_of_ok hfirst, answeredInTurn_bind_of_ok hm]
      exact ⟨m, rfl⟩
    · next hother =>
      obtain ⟨m, hm⟩ := ih (n + 1)
      have hfirst : answeredInTurn answers (recordsByAddress params address) n =
          (.ok (answers n), n + 1) := by
        rw [recordsByAddress, if_neg hother]
        rfl
      rw [answeredInTurn_bind_of_ok hfirst, answeredInTurn_bind_of_ok hm]
      exact ⟨m, rfl⟩

private theorem forall_mem_answersTo {P : LogRecord → Prop} (addresses : List String) (n : ℕ) :
    (∀ record ∈ (answersTo answers n addresses).flatten, P record) ↔
      ∀ i < addresses.countP (· ≠ ZERO_ADDRESS_HEX), ∀ record ∈ answers (n + i), P record := by
  induction addresses generalizing n with
  | nil => simp [answersTo]
  | cons address addresses ih =>
    rw [answersTo, List.countP_cons]
    split
    · next hzero =>
      rw [List.flatten_cons, List.nil_append, ih, if_neg (by simpa using hzero), Nat.add_zero]
    · next hother =>
      simp only [List.flatten_cons, List.forall_mem_append, ih, hother, ne_eq, not_false_eq_true,
        decide_true, if_true, Nat.forall_lt_succ_left, Nat.add_zero, Nat.add_assoc, Nat.add_comm 1]

private theorem handlesImmature_of_addresses {addresses : List String}
    (haddresses : address.addresses? = some addresses) :
    HandlesImmature retryCount address params answers ↔
      ∀ i < addresses.countP (· ≠ ZERO_ADDRESS_HEX), ∀ record ∈ answers i, record.IsMature := by
  obtain ⟨m, hm⟩ := @answeredInTurn_mapM answers params addresses 0
  have hrecords : answeredInTurn answers (recordsOfFilter retryCount address params) 0 =
      (.ok ((answersTo answers 0 addresses).flatten.mergeSort
        fun a b => a.timestamp ≤ b.timestamp), m) := by
    rw [recordsOfFilter, haddresses]
    exact answeredInTurn_bind_of_ok hm
  have hmature := @forall_mem_answersTo answers LogRecord.IsMature addresses 0
  simp only [Nat.zero_add] at hmature
  rw [handlesImmature_iff_of_ok hrecords]
  simp only [List.mem_mergeSort]
  exact hmature

end Addresses

section Retries

/-- The answers as the query without an address gets them. -/
def allPages (answers : ℕ → List LogRecord) (n : ℕ) : Answer LogRecord :=
  .many ((answers n).map some)

private theorem records_allPages (n : ℕ) : (allPages answers n).records = answers n := by
  rw [allPages, Answer.records, List.filterMap_map]
  exact List.filterMap_some

private theorem answeredInTurn_recordsWithRetry (retryCount n : ℕ) :
    answeredInTurn answers (recordsWithRetry retryCount params) n =
      ((answerInTurn (allPages answers) (getContractResultsLogsWithRetry retryCount) n).1.map
        Answer.records,
      (answerInTurn (allPages answers) (getContractResultsLogsWithRetry retryCount) n).2) := by
  have hrun : answeredInTurn answers (ExceptT.mk
      ((getContractResultsLogsWithRetry retryCount).run.implement fun _ =>
        (fun logs => Answer.many (logs.map some)) <$> Prog.call (none, params))) n =
      answerInTurn (allPages answers) (getContractResultsLogsWithRetry retryCount) n :=
    Prog.run_implement _ n
  rw [recordsWithRetry, map_eq_pure_bind]
  cases h : answerInTurn (allPages answers) (getContractResultsLogsWithRetry retryCount) n with
  | mk result m =>
    rw [h] at hrun
    cases result with
    | ok answer =>
      rw [answeredInTurn_bind_of_ok hrun]
      rfl
    | error e =>
      rw [answeredInTurn_bind_of_error hrun]
      rfl

private theorem handlesImmature_of_retry (haddresses : address.addresses? = none) :
    HandlesImmature retryCount address params answers ↔
      (retryCount = 0 → ∀ record ∈ answers 0, record.IsMature) := by
  have hrun := @answeredInTurn_recordsWithRetry answers params retryCount 0
  have hrecords : recordsOfFilter retryCount address params =
      recordsWithRetry retryCount params := by
    rw [recordsOfFilter, haddresses]
  rw [← hrecords] at hrun
  cases retryCount with
  | zero =>
    rw [handlesImmature_iff_of_ok hrun, records_allPages]
    simp
  | succ left =>
    refine iff_of_true ?_ nofun
    have hfirst : FirstMature LogRecord.IsMature (allPages answers) (left + 1)
        (answerInTurn (allPages answers) (getContractResultsLogsWithRetry (left + 1)) 0) :=
      firstMature_withRetry (fun _ => LogRecord.isImmature_eq_false_iff) (Nat.succ_pos left)
        (allPages answers)
    cases h : answerInTurn (allPages answers) (getContractResultsLogsWithRetry (left + 1)) 0 with
    | mk result m =>
      rw [h] at hrun hfirst
      cases hfirst with
      | returned k hk hmature _ => exact (handlesImmature_iff_of_ok hrun).mpr hmature
      | thrown _ =>
        refine Or.inr ?_
        rw [logsWithParams, answeredInTurn_bind_of_error hrun]

end Retries

/-- Immature records are handled by the query without an address, and by those for addresses only
if there are none. -/
theorem handles_immature_iff (retryCount : ℕ) (address : AddressFilter) (params : LogParams)
    (answers : ℕ → List LogRecord) : HandlesImmature retryCount address params answers ↔
      AnswersSuffice retryCount address answers := by
  rw [AnswersSuffice]
  cases haddresses : address.addresses? with
  | some addresses => exact handlesImmature_of_addresses haddresses
  | none => exact handlesImmature_of_retry haddresses

/-- A log whose transaction has no index yet, listed for an address. -/
def immatureLog : LogRecord where
  address := "0xab"
  blockHash := "0x12"
  blockNumber := some 7
  data := "0x"
  index := some 0
  timestamp := 1
  topics := []
  transactionHash := "0x34"
  transactionIndex := none

theorem immature_log_not_handled :
    ¬HandlesImmature 10 (.one "0xab") ⟨0, 1, []⟩ fun _ => [immatureLog] := by
  rw [handlesImmature_of_addresses (show AddressFilter.addresses? (.one "0xab") = some ["0xab"] from rfl)]
  intro h
  have hmature := (h 0 (by decide) immatureLog (List.mem_singleton_self _)).transactionIndex
  cases hmature

end Answers

end JsonRpcRelay.Common

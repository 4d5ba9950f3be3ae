import JsonRpcRelay.Constants
import JsonRpcRelay.Errors
import JsonRpcRelay.Framework.History
import JsonRpcRelay.Mirror.Records

/-!
# Immature records

Shortly after a transaction the mirror node may list records whose fields are not all present.
Contract results and logs are asked for again until they are, and only such a contract result is
kept in the cache.
-/

namespace JsonRpcRelay.Mirror

open Framework constants

section Records

/-- The fields of a contract result that are looked at. -/
structure ContractRecord where
  transactionIndex : Option ℕ
  blockNumber : Option ℕ
  blockHash : Option String
  result : String
  deriving DecidableEq

structure LogRecord where
  address : String
  blockHash : String
  blockNumber : Option ℕ
  data : String
  index : Option ℕ
  timestamp : Timestamp
  topics : List String
  transactionHash : String
  transactionIndex : Option ℕ
  deriving DecidableEq

def ContractRecord.isImmature (contractObject : ContractRecord) : Bool :=
  contractObject.transactionIndex = none ∨ contractObject.blockNumber = none ∨
    contractObject.blockHash = some EMPTY_HEX

def LogRecord.isImmature (log : LogRecord) : Bool :=
  log.transactionIndex = none ∨ log.blockNumber = none ∨ log.index = none ∨
    log.blockHash = EMPTY_HEX

structure ContractRecord.IsMature (record : ContractRecord) : Prop where
  transactionIndex : record.transactionIndex.isSome
  blockNumber : record.blockNumber.isSome
  blockHash : record.blockHash ≠ some EMPTY_HEX

structure LogRecord.IsMature (log : LogRecord) : Prop where
  transactionIndex : log.transactionIndex.isSome
  blockNumber : log.blockNumber.isSome
  index : log.index.isSome
  blockHash : log.blockHash ≠ EMPTY_HEX

theorem ContractRecord.isImmature_eq_false_iff {record : ContractRecord} :
    record.isImmature = false ↔ record.IsMature := by
  simp only [isImmature, decide_eq_false_iff_not, not_or, ← ne_eq, Option.ne_none_iff_isSome]
  exact ⟨fun h => ⟨h.1, h.2.1, h.2.2⟩, fun h => ⟨h.1, h.2, h.3⟩⟩

theorem LogRecord.isImmature_eq_false_iff {log : LogRecord} :
    log.isImmature = false ↔ log.IsMature := by
  simp only [isImmature, decide_eq_false_iff_not, not_or, ← ne_eq, Option.ne_none_iff_isSome]
  exact ⟨fun h => ⟨h.1, h.2.1, h.2.2.1, h.2.2.2⟩, fun h => ⟨h.1, h.2, h.3, h.4⟩⟩

/-- Nothing, a record, or a list in which elements may be missing. -/
inductive Answer (ρ : Type) where
  | null
  | one (record : ρ)
  | many (records : List (Option ρ))
  deriving DecidableEq

def Answer.records {ρ : Type} : Answer ρ → List ρ
  | .null => []
  | .one record => [record]
  | .many records => records.filterMap id

end Records

section Retries

variable {ρ : Type} (isImmature : ρ → Bool)

/-- Code that asks for one result again and again. -/
abbrev RetryM (ρ : Type) := ExceptT RelayError (Prog Unit fun _ => Answer ρ)

def fetch : RetryM ρ (Answer ρ) := ExceptT.lift (Prog.call ())

/-- The loop with the attempts that are left. -/
def retryLoop : ℕ → Answer ρ → RetryM ρ (Answer ρ)
  | 0, answer => return answer
  | _ + 1, .null => return .null
  | left + 1, answer =>
    if !answer.records.any isImmature then return answer
    else if left = 0 then throw (.jsonRpcError predefined.DEPENDENT_SERVICE_IMMATURE_RECORDS)
    else do
      let answer ← fetch
      retryLoop left answer

def withRetry (mirrorNodeRequestRetryCount : ℕ) : RetryM ρ (Answer ρ) := do
  let answer ← fetch
  retryLoop isImmature mirrorNodeRequestRetryCount answer

def getContractResultWithRetry (mirrorNodeRequestRetryCount : ℕ) :
    RetryM ContractRecord (Answer ContractRecord) :=
  withRetry ContractRecord.isImmature mirrorNodeRequestRetryCount

/-- An answer is made of all pages. -/
def getContractResultsLogsWithRetry (mirrorNodeRequestRetryCount : ℕ) :
    RetryM LogRecord (Answer LogRecord) :=
  withRetry LogRecord.isImmature mirrorNodeRequestRetryCount

end Retries

section Cache

def GET_CONTRACT_RESULT : String := "getContractResult"

def GET_CONTRACT_RESULT_ENDPOINT : String := "contracts/results/"

/-- One hour. -/
def ONE_HOUR : ℕ := 3600000

inductive ResultOp where
  | getCached (key : String)
  | setCached (key : String) (response : ContractRecord) (ttl : ℕ)
  | get (path : String)

@[reducible] def ResultOp.Reply : ResultOp → Type
  | .getCached _ | .get _ => Option ContractRecord
  | .setCached .. => Unit

abbrev ResultM := ExceptT RelayError (Prog ResultOp ResultOp.Reply)

def resultRequest (op : ResultOp) : ResultM op.Reply := ExceptT.lift (Prog.call op)

/-- A failed transaction is not kept either. -/
def isStored (response : ContractRecord) : Bool :=
  response.transactionIndex.isSome && response.blockNumber.isSome &&
    response.blockHash ≠ some EMPTY_HEX && response.result = "SUCCESS"

def getContractResult (transactionIdOrHash : String) : ResultM (Option ContractRecord) := do
  let cacheKey := GET_CONTRACT_RESULT ++ "." ++ transactionIdOrHash
  match ← resultRequest (.getCached cacheKey) with
  | some cachedResponse => return some cachedResponse
  | none =>
    let response ← resultRequest (.get (GET_CONTRACT_RESULT_ENDPOINT ++ transactionIdOrHash))
    match response with
    | some record =>
      if isStored record then do
        resultRequest (.setCached cacheKey record ONE_HOUR)
        return response
      else return response
    | none => return response

end Cache

section Answers

variable {ρ : Type} {isImmature : ρ → Bool}

/-- The result where the requests are answered by a sequence from the `n`-th answer on, and how
many answers there were then. -/
def answerInTurn {α : Type} (answers : ℕ → Answer ρ) (x : RetryM ρ α) (n : ℕ) :
    Except RelayError α × ℕ := x.run.run (fun _ n => (answers n, n + 1)) n

/-- The first answer with mature records only is returned, unless there is none among the first
`retryCount`. -/
inductive FirstMature (IsMature : ρ → Prop) (answers : ℕ → Answer ρ) (retryCount : ℕ) :
    Except RelayError (Answer ρ) × ℕ → Prop where
  | returned (k : ℕ) (hk : k < retryCount)
      (hmature : ∀ record ∈ (answers k).records, IsMature record)
      (hfirst : ∀ j < k, ¬∀ record ∈ (answers j).records, IsMature record) :
      FirstMature IsMature answers retryCount (.ok (answers k), k + 1)
  | thrown (hnone : ∀ j < retryCount, ¬∀ record ∈ (answers j).records, IsMature record) :
      FirstMature IsMature answers retryCount
        (.error (.jsonRpcError predefined.DEPENDENT_SERVICE_IMMATURE_RECORDS), retryCount)

variable {answers : ℕ → Answer ρ} {IsMature : ρ → Prop}

private theorem answerInTurn_fetch_bind {α : Type} {f : Answer ρ → RetryM ρ α} {n : ℕ} :
    answerInTurn answers (fetch >>= f) n = answerInTurn answers (f (answers n)) (n + 1) := rfl

private theorem retryLoop_succ (hmature : ∀ record, isImmature record = false ↔ IsMature record)
    (left : ℕ) (answer : Answer ρ) :
    ((∀ record ∈ answer.records, IsMature record) ∧
      retryLoop isImmature (left + 1) answer = return answer) ∨
    (¬(∀ record ∈ answer.records, IsMature record) ∧ retryLoop isImmature (left + 1) answer =
      if left = 0 then throw (.jsonRpcError predefined.DEPENDENT_SERVICE_IMMATURE_RECORDS)
      else fetch >>= retryLoop isImmature left) := by
  have hall : (!answer.records.any isImmature) = true ↔
      ∀ record ∈ answer.records, IsMature record := by
    simp only [Bool.not_eq_true', List.any_eq_false, Bool.not_eq_true, hmature]
  have hloop : answer ≠ .null → retryLoop isImmature (left + 1) answer =
      if (!answer.records.any isImmature) = true then return answer
      else if left = 0 then throw (.jsonRpcError predefined.DEPENDENT_SERVICE_IMMATURE_RECORDS)
      else fetch >>= retryLoop isImmature left := by
    intro hne
    rw [retryLoop]
    exact hne
  by_cases hnull : answer = .null
  · rw [hnull]
    exact Or.inl ⟨nofun, rfl⟩
  · rw [hloop hnull]
    by_cases h : ∀ record ∈ answer.records, IsMature record
    · exact Or.inl ⟨h, if_pos (hall.mpr h)⟩
    · exact Or.inr ⟨h, if_neg (mt hall.mp h)⟩

private theorem firstMature_retryLoop
    (hmature : ∀ record, isImmature record = false ↔ IsMature record)
    (left n : ℕ) (h : ∀ j < n, ¬∀ record ∈ (answers j).records, IsMature record) :
    FirstMature IsMature answers (n + (left + 1))
      (answerInTurn answers (retryLoop isImmature (left + 1) (answers n)) (n + 1)) := by
  induction left generalizing n with
  | zero =>
    rcases retryLoop_succ hmature 0 (answers n) with ⟨hthis, hloop⟩ | ⟨hthis, hloop⟩
    · rw [hloop]
      exact .returned n (Nat.lt_succ_self n) hthis h
    · rw [hloop, if_pos rfl]
      exact .thrown (Nat.forall_lt_succ_right.mpr ⟨h, hthis⟩)
  | succ left ih =>
    rcases retryLoop_succ hmature (left + 1) (answers n) with ⟨hthis, hloop⟩ | ⟨hthis, hloop⟩
    · rw [hloop]
      exact .returned n (by omega) hthis h
    · rw [hloop, if_neg (Nat.succ_ne_zero left), answerInTurn_fetch_bind,
        show n + (left + 1 + 1) = n + 1 + (left + 1) by omega]
      exact ih (n + 1) (Nat.forall_lt_succ_right.mpr ⟨h, hthis⟩)

theorem firstMature_withRetry (hmature : ∀ record, isImmature record = false ↔ IsMature record)
    {retryCount : ℕ} (h : 1 ≤ retryCount) (answers : ℕ → Answer ρ) :
    FirstMature IsMature answers retryCount
      (answerInTurn answers (withRetry isImmature retryCount) 0) := by
  obtain ⟨left, rfl⟩ := Nat.exists_eq_add_of_le' h
  have hnone : ∀ j < 0, ¬∀ record ∈ (answers j).records, IsMature record := nofun
  have hloop := firstMature_retryLoop hmature left 0 hnone
  rw [Nat.zero_add] at hloop
  exact hloop

end Answers

section Stored

open Prog

private theorem isMature_of_isStored {response : ContractRecord} (h : isStored response = true) :
    response.IsMature := by
  simp only [isStored, Bool.and_eq_true, decide_eq_true_eq] at h
  exact ⟨h.1.1.1, h.1.1.2, h.1.2⟩

private theorem ensures_getContractResult (transactionIdOrHash : String) :
    Ensures (getContractResult transactionIdOrHash) fun history _ =>
      ∀ key response ttl, ⟨.setCached key response ttl, ()⟩ ∈ history → response.IsMature := by
  refine ensures_request_bind fun cachedResponse => ?_
  cases cachedResponse with
  | some cachedResponse => exact ensures_pure (by simp)
  | none =>
    refine ensures_request_bind fun response => ?_
    cases response with
    | none => exact ensures_pure (by simp)
    | some record =>
      dsimp only
      split
      · next hstored =>
        refine ensures_request_bind fun _ => ensures_pure ?_
        intro key response ttl hmem
        simp only [List.mem_cons, Sigma.mk.injEq, ResultOp.setCached.injEq, reduceCtorEq,
          false_and, false_or, List.not_mem_nil, or_false] at hmem
        rw [hmem.1.2.1]
        exact isMature_of_isStored hstored
      · exact ensures_pure (by simp)

end Stored

/-- Both functions return the first mature answer within their attempts, and what is stored of a
contract result is mature. -/
theorem immature_records_not_returned {retryCount : ℕ} (h : 1 ≤ retryCount) :
    (∀ answers, FirstMature ContractRecord.IsMature answers retryCount
      (answerInTurn answers (getContractResultWithRetry retryCount) 0)) ∧
    (∀ answers, FirstMature LogRecord.IsMature answers retryCount
      (answerInTurn answers (getContractResultsLogsWithRetry retryCount) 0)) ∧
    ∀ transactionIdOrHash history result,
      (getContractResult transactionIdOrHash).run.Runs history result →
        ∀ key response ttl, ⟨.setCached key response ttl, ()⟩ ∈ history → response.IsMature :=
  ⟨firstMature_withRetry (fun _ => ContractRecord.isImmature_eq_false_iff) h,
    firstMature_withRetry (fun _ => LogRecord.isImmature_eq_false_iff) h,
    ensures_getContractResult⟩

/-- A record that is immature at first. -/
def maturing (n : ℕ) : Answer ContractRecord :=
  .one ⟨some 0, if n = 0 then none else some 7, some "0xab", "SUCCESS"⟩

theorem immature_record_not_returned : 1 ≤ 2 ∧ FirstMature ContractRecord.IsMature maturing 2
    (answerInTurn maturing (getContractResultWithRetry 2) 0) :=
  ⟨by decide, (immature_records_not_returned (by decide)).1 maturing⟩

end JsonRpcRelay.Mirror

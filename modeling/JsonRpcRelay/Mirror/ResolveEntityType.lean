import JsonRpcRelay.Framework.Memo
import JsonRpcRelay.Mirror.Records
import Mathlib.Data.String.Basic

/-!
# The cache of entity types

`resolveEntityType` looks for an entity among the types its caller names, and keeps what it has
found under a label made of the identifier and the timestamp only.
-/

namespace JsonRpcRelay.Mirror

open Framework

section Model

variable {Entity : Type}

/-- What the mirror node answers, where a failed request counts as no answer.  A token is asked
for by the entity id that the identifier stands for, and an empty timestamp is not sent.  An
identifier is at most one of account and token. -/
structure MirrorNode (Entity : Type) where
  getContract : String → Option String → Option Entity
  getAccount : String → Option String → Option Entity
  getTokenById : String → Option Entity
  exclusive : ∀ identifier timestamp,
    getAccount identifier timestamp = none ∨ getTokenById identifier = none

/-- A call of `resolveEntityType`. -/
structure EntityQuery where
  entityIdentifier : String
  searchableTypes : List EntityType
  timestamp : Option String := none
  deriving DecidableEq

structure ResolvedEntity (Entity : Type) where
  type : EntityType
  entity : Entity
  deriving DecidableEq

abbrev EntityCache (Entity : Type) := String → Option (ResolvedEntity Entity)

def EntityQuery.sentTimestamp (q : EntityQuery) : Option String := q.timestamp.filter (· ≠ "")

def EntityQuery.cachedLabel (q : EntityQuery) : String :=
  "resolveEntityType_" ++ q.entityIdentifier ++
    match q.sentTimestamp with
    | some timestamp => "_" ++ timestamp
    | none => ""

/-- The entity of one type behind the identifier of a call. -/
def MirrorNode.get (mirror : MirrorNode Entity) (q : EntityQuery) : EntityType → Option Entity
  | .contract => mirror.getContract q.entityIdentifier q.sentTimestamp
  | .account => mirror.getAccount q.entityIdentifier q.sentTimestamp
  | .token => mirror.getTokenById q.entityIdentifier

/-- The entity of one type, if the caller searches it. -/
def MirrorNode.search (mirror : MirrorNode Entity) (q : EntityQuery) (type : EntityType) :
    Option Entity :=
  if type ∈ q.searchableTypes then mirror.get q type else none

/-- At most one of the two requests behind `Promise.any` is answered, so their order is left
out. -/
def resolveEntityType (mirror : MirrorNode Entity) (cacheService : EntityCache Entity)
    (q : EntityQuery) : Option (ResolvedEntity Entity) × EntityCache Entity :=
  match cacheService q.cachedLabel with
  | some cachedResponse => (some cachedResponse, cacheService)
  | none =>
      match mirror.search q .contract with
      | some contract =>
          let response := ⟨.contract, contract⟩
          (some response, Function.update cacheService q.cachedLabel (some response))
      | none =>
          match mirror.search q .account, mirror.search q .token with
          | some account, _ =>
              let response := ⟨.account, account⟩
              (some response, Function.update cacheService q.cachedLabel (some response))
          | none, some token =>
              let response := ⟨.token, token⟩
              (some response, Function.update cacheService q.cachedLabel (some response))
          | none, none => (none, cacheService)

def emptyCache : EntityCache Entity := fun _ => none

/-- A call, or an entry that expires or is evicted. -/
abbrev EntityEvent := MemoEvent EntityQuery String

def entityStep (mirror : MirrorNode Entity) (cacheService : EntityCache Entity) :
    EntityEvent → Option (EntityCache Entity)
  | .ask q => some (resolveEntityType mirror cacheService q).2
  | .forget label => some (Function.update cacheService label none)

/-- The call returns what it returns with an empty cache. -/
def AnswersAfresh (mirror : MirrorNode Entity) (cacheService : EntityCache Entity) :
    EntityEvent → Prop
  | .ask q => (resolveEntityType mirror cacheService q).1 =
      (resolveEntityType mirror emptyCache q).1
  | .forget _ => True

end Model

section Transparency

variable {Entity : Type} {mirror : MirrorNode Entity} {q : EntityQuery}

/-- A call with this entity in this type: it is searched, and no contract comes before it. -/
def Finds (mirror : MirrorNode Entity) (q : EntityQuery) (found : ResolvedEntity Entity) : Prop :=
  found.type ∈ q.searchableTypes ∧ mirror.get q found.type = some found.entity ∧
    (found.type ≠ .contract → .contract ∈ q.searchableTypes → mirror.get q .contract = none)

private theorem search_eq_some {type : EntityType} {entity : Entity} :
    mirror.search q type = some entity ↔
      type ∈ q.searchableTypes ∧ mirror.get q type = some entity := by
  rw [MirrorNode.search]
  by_cases h : type ∈ q.searchableTypes
  · simp [h]
  · simp [h]

private theorem search_contract_eq_none :
    mirror.search q .contract = none ↔
      (.contract ∈ q.searchableTypes → mirror.get q .contract = none) := by
  rw [MirrorNode.search]
  by_cases h : EntityType.contract ∈ q.searchableTypes
  · simp [h]
  · simp [h]

/-- The answer of a call that misses the cache. -/
def resolveAfresh (mirror : MirrorNode Entity) (q : EntityQuery) :
    Option (ResolvedEntity Entity) :=
  match mirror.search q .contract, mirror.search q .account, mirror.search q .token with
  | some contract, _, _ => some ⟨.contract, contract⟩
  | none, some account, _ => some ⟨.account, account⟩
  | none, none, some token => some ⟨.token, token⟩
  | none, none, none => none

theorem resolveEntityType_of_miss {cacheService : EntityCache Entity}
    (h : cacheService q.cachedLabel = none) :
    resolveEntityType mirror cacheService q = (resolveAfresh mirror q,
      Function.update cacheService q.cachedLabel (resolveAfresh mirror q)) := by
  have hsame : cacheService = Function.update cacheService q.cachedLabel none := by
    rw [← h, Function.update_eq_self]
  simp only [resolveEntityType, resolveAfresh, h]
  cases mirror.search q .contract with
  | some contract => rfl
  | none =>
    cases mirror.search q .account with
    | some account => rfl
    | none =>
      cases mirror.search q .token with
      | some token => rfl
      | none => exact congrArg (Prod.mk none) hsame

theorem resolveEntityType_of_hit {cacheService : EntityCache Entity}
    {found : ResolvedEntity Entity} (h : cacheService q.cachedLabel = some found) :
    resolveEntityType mirror cacheService q = (some found, cacheService) := by
  simp only [resolveEntityType, h]

/-- Without a cache a call returns the entity it finds; in particular it is of a searched
type. -/
theorem resolveAfresh_eq_some {found : ResolvedEntity Entity} :
    resolveAfresh mirror q = some found ↔ Finds mirror q found := by
  obtain ⟨type, entity⟩ := found
  have hexclusive : mirror.search q .account = none ∨ mirror.search q .token = none := by
    rcases mirror.exclusive q.entityIdentifier q.sentTimestamp with h | h
    · left
      simp [MirrorNode.search, MirrorNode.get, h]
    · right
      simp [MirrorNode.search, MirrorNode.get, h]
  have hfinds : Finds mirror q ⟨type, entity⟩ ↔ mirror.search q type = some entity ∧
      (type ≠ .contract → mirror.search q .contract = none) := by
    rw [search_eq_some, search_contract_eq_none, and_assoc]
    rfl
  rw [hfinds, resolveAfresh]
  cases hcontract : mirror.search q .contract with
  | some contract => cases type <;> simp [hcontract]
  | none =>
    cases haccount : mirror.search q .account with
    | some account =>
      have htoken := hexclusive.resolve_left (by simp [haccount])
      cases type <;> simp [hcontract, haccount, htoken]
    | none =>
      cases htoken : mirror.search q .token with
      | some token => cases type <;> simp [hcontract, haccount, htoken]
      | none => cases type <;> simp [hcontract, haccount, htoken]

/-- The cache as a memo of the answers. -/
def entityMemo (mirror : MirrorNode Entity) :
    Memo EntityQuery String (ResolvedEntity Entity) where
  key := EntityQuery.cachedLabel
  answer := resolveAfresh mirror

private theorem resolveEntityType_eq_ask (mirror : MirrorNode Entity)
    (cacheService : EntityCache Entity) (q : EntityQuery) :
    resolveEntityType mirror cacheService q = (entityMemo mirror).ask cacheService q := by
  cases h : cacheService q.cachedLabel with
  | some found =>
    rw [resolveEntityType_of_hit h]
    simp only [Memo.ask, entityMemo, h]
  | none =>
    rw [resolveEntityType_of_miss h]
    simp only [Memo.ask, entityMemo, h]

private theorem entityStep_eq (mirror : MirrorNode Entity) :
    entityStep mirror = (entityMemo mirror).step := by
  funext cacheService e
  cases e with
  | ask q => exact congrArg (fun r => some r.2) (resolveEntityType_eq_ask mirror cacheService q)
  | forget label => rfl

private theorem answersAfresh_iff {cacheService : EntityCache Entity} {e : EntityEvent} :
    AnswersAfresh mirror cacheService e ↔ (entityMemo mirror).Transparent cacheService e := by
  cases e with
  | ask q =>
    have hempty : resolveEntityType mirror emptyCache q = _ := resolveEntityType_of_miss rfl
    rw [AnswersAfresh, resolveEntityType_eq_ask, hempty]
    rfl
  | forget label => exact Iff.rfl

/-- Two calls of one label, where the later one finds what the earlier one found. -/
def SameEntity (mirror : MirrorNode Entity) (q q' : EntityQuery) : Prop :=
  q.cachedLabel = q'.cachedLabel → ∀ found, Finds mirror q found → Finds mirror q' found

/-- The calls of a sequence answer as with an empty cache, whatever expires in between, exactly
if calls of one label find the same entity. -/
theorem resolveEntityType_transparent_iff (mirror : MirrorNode Entity)
    (calls : List EntityQuery) :
    (∀ es : List EntityEvent, Memo.questions es = calls →
      Along (entityStep mirror) (AnswersAfresh mirror) emptyCache es) ↔
    calls.Pairwise (SameEntity mirror) := by
  have hagree : ∀ q q', (entityMemo mirror).Agree q q' ↔ SameEntity mirror q q' := by
    intro q q'
    simp only [Memo.Agree, entityMemo, SameEntity, resolveAfresh_eq_some]
  have htransparent := Memo.transparent_iff (entityMemo mirror) calls
  rw [List.Pairwise.iff hagree] at htransparent
  rw [← htransparent, entityStep_eq]
  constructor
  · exact fun h es hes => (h es hes).mono fun _ _ => answersAfresh_iff.mp
  · exact fun h es hes => (h es hes).mono fun _ _ => answersAfresh_iff.mpr

end Transparency

section Example

/-- A token with the identifier 0xa1. -/
def tokenNode : MirrorNode String where
  getContract _ _ := none
  getAccount _ _ := none
  getTokenById identifier := if identifier = "0xa1" then some "token" else none
  exclusive _ _ := Or.inl rfl

def searchCode : EntityQuery := { entityIdentifier := "0xa1", searchableTypes := [.contract, .token] }

def searchAccount : EntityQuery := { entityIdentifier := "0xa1", searchableTypes := [.account] }

/-- After a search for code the token is returned to a call that searches accounts. -/
theorem token_returned_as_account :
    ¬∀ es : List EntityEvent, Memo.questions es = [searchCode, searchAccount] →
      Along (entityStep tokenNode) (AnswersAfresh tokenNode) emptyCache es := by
  intro h
  have hsecond := ((h [.ask searchCode, .ask searchAccount] rfl).2 _ rfl).1
  have hcached : (resolveEntityType tokenNode
      (resolveEntityType tokenNode emptyCache searchCode).2 searchAccount).1 =
        some ⟨.token, "token"⟩ := by decide +kernel
  have hfresh : (resolveEntityType tokenNode emptyCache searchAccount).1 = none := by
    decide +kernel
  rw [AnswersAfresh, hcached, hfresh] at hsecond
  cases hsecond

end Example

end JsonRpcRelay.Mirror

import JsonRpcRelay.Clients.KeyPatterns
import JsonRpcRelay.Framework.Schedule
import JsonRpcRelay.SpendingPlans.Repositories

/-!
# New plans

A plan and the amount that it has spent stand under keys of their own.  What a new plan is said to
have spent is what its key finds left.
-/

namespace JsonRpcRelay.SpendingPlans

open Framework
open HbarLimiter (CacheBackend SubscriptionTier)

section Charges

variable (t : Moment) (cache : Cache)

/-- `findById` and `getAmountSpent`, which asks for a plan that is active.  What is no plan has no
field `active`. -/
def findByIdWithDetails (id : String) : Except SpendingPlanError DetailedHbarSpendingPlan :=
  match read t cache (planKey id) with
  | some (.plan plan) => do
    let amountSpent ← getAmountSpent t cache id
    return { plan with amountSpent }
  | some (.amountSpent 0) => .error (.hbarSpendingPlanNotFound id)
  | some _ => .error (.hbarSpendingPlanNotActive id)
  | none => .error (.hbarSpendingPlanNotFound id)

/-- The sum with an amount: a plan is first turned into the text `[object Object]`. -/
def PlanEntry.plus (amount : ℕ) : PlanEntry → PlanEntry
  | .plan _ => .objectText (toString amount)
  | .amountSpent spent => .amountSpent (spent + amount)
  | .objectText suffix => .objectText (suffix ++ toString amount)

inductive ChargeError where
  | spendingPlan (error : SpendingPlanError)
  /-- The answer of Redis to an `INCRBY` of what is no number. -/
  | notAnInteger

/-- `incrBy` of the cache client on an entry that was found. -/
def incrBy (text : String) (entry : PlanEntry) (amount : ℕ) : Except ChargeError Unit × Cache :=
  let key := CacheKey.hbarSpendingPlan text
  match t.backend, entry with
  | .redisCache, .amountSpent spent =>
    (.ok (), cache.replace t.backend.expiry t.now key (.amountSpent (spent + amount)))
  | .redisCache, _ => (.error .notAnInteger, cache)
  | .localLRUCache, _ =>
    -- an infinite remaining time is stored like one that is not positive
    let deadline := (cache.liveEntry t.backend.expiry t.now key).bind Entry.deadline
    (.ok (), write t cache key (entry.plus amount) ((deadline.map fun d => (d : ℤ) - t.now).getD 0))

def addToAmountSpent (id : String) (amount : ℕ) (ttl : ℤ) : Except ChargeError Unit × Cache :=
  match checkExistsAndActive t cache id with
  | .error error => (.error (.spendingPlan error), cache)
  | .ok () =>
    match read t cache (.hbarSpendingPlan (id ++ ":amountSpent")) with
    | none | some (.amountSpent 0) =>
      (.ok (), write t cache (.hbarSpendingPlan (id ++ ":amountSpent")) (.amountSpent amount) ttl)
    | some entry => incrBy t cache (id ++ ":amountSpent") entry amount

/-- The characters that the dot of a regular expression does not stand for. -/
def isLineTerminator (c : Char) : Bool := c ∈ ['\n', '\r', '\u2028', '\u2029']

/-- Whether `keys` lists a key for `hbarSpendingPlan:*:amountSpent`.  In the LRU cache the pattern
is a regular expression that may match anywhere in the key. -/
def matchesAmounts (backend : CacheBackend) (key : CacheKey) : Bool :=
  let front := "cache:hbarSpendingPlan:".toList
  let back := ":amountSpent".toList
  let text := ("cache:" ++ key.toString).toList
  match backend with
  | .redisCache => front.isPrefixOf text && back.isSuffixOf (text.drop front.length)
  | .localLRUCache => text.tails.any fun rest =>
      front.isPrefixOf rest &&
        ((rest.drop front.length).takeWhile (!isLineTerminator ·)).tails.any back.isPrefixOf

def resetAmountSpentOfAllPlans : Cache :=
  cache.unlink ((keys t cache).filter (matchesAmounts t.backend))

end Charges

section Patterns

open Clients.KeyPatterns (Piece Text dot)

/-- A pattern with one star. -/
def starBetween (front back : Text) : List Piece :=
  front.map Piece.literal ++ .star :: back.map Piece.literal

private theorem accepts_starBetween (next : Text → Bool) (wild : Char → Bool)
    (front back text : Text) :
    Slot.accepts next (Slot.literals front ++ .many wild :: Slot.literals back) text =
      (front.isPrefixOf text && Slot.skipping wild (fun rest => back.isPrefixOf rest &&
        next (rest.drop back.length)) (text.drop front.length)) := by
  have hback : Slot.accepts next (Slot.literals back) = fun rest =>
      back.isPrefixOf rest && next (rest.drop back.length) := by
    funext rest
    have hread : Slot.accepts next (Slot.literals back ++ []) rest = _ :=
      Slot.accepts_literals back
    rwa [List.append_nil] at hread
  refine (Slot.accepts_literals front).trans ?_
  rw [← hback]
  rfl

private theorem spread_glob_starBetween (front back : Text) :
    Slot.spread Slot.full ((starBetween front back).map Piece.glob) =
      Slot.literals front ++ .many Slot.full :: Slot.literals back := by
  simp only [starBetween, Slot.spread, List.map_append, List.map_cons, List.map_map]
  rfl

private theorem spread_regExp_starBetween {front back : Text} (hfront : '.' ∉ front)
    (hback : '.' ∉ back) : Slot.spread dot ((starBetween front back).map Piece.regExp) =
      Slot.literals front ++ .many dot :: Slot.literals back := by
  have hliterals {text : Text} (htext : '.' ∉ text) :
      text.map (fun c => Slot.place dot (Piece.literal c).regExp) = Slot.literals text := by
    refine List.map_congr_left fun c hc => ?_
    have hne : c ≠ '.' := ne_of_mem_of_not_mem hc htext
    simp [Piece.regExp, Slot.place, hne]
  rw [← hliterals hfront, ← hliterals hback]
  simp only [starBetween, Slot.spread, List.map_append, List.map_cons, List.map_map]
  rfl

/-- What is reset in Redis are the keys that fit the pattern. -/
theorem matchesAmounts_redisCache (key : CacheKey) : matchesAmounts .redisCache key =
    Slot.whole (Slot.spread Slot.full ((starBetween "cache:hbarSpendingPlan:".toList
      ":amountSpent".toList).map Piece.glob)) ("cache:" ++ key.toString).toList := by
  rw [spread_glob_starBetween, Slot.whole, accepts_starBetween, Slot.skipping_isSuffixOf]
  rfl

/-- In the LRU cache it is enough that a part of the key fits. -/
theorem matchesAmounts_localLRUCache (key : CacheKey) : matchesAmounts .localLRUCache key =
    Slot.somewhere (Slot.spread dot ((starBetween "cache:hbarSpendingPlan:".toList
      ":amountSpent".toList).map Piece.regExp)) ("cache:" ++ key.toString).toList := by
  have hdot : (fun c => !isLineTerminator c) = dot := by
    funext c
    simp [isLineTerminator, dot, Clients.KeyPatterns.isLineTerminator, Bool.and_assoc]
  have hback : ∀ c ∈ ":amountSpent".toList, dot c = true := by
    simp [dot, Clients.KeyPatterns.isLineTerminator]
  have haccepts : Slot.accepts (fun _ => true) (Slot.literals "cache:hbarSpendingPlan:".toList ++
      .many dot :: Slot.literals ":amountSpent".toList) = fun rest =>
        "cache:hbarSpendingPlan:".toList.isPrefixOf rest &&
          ((rest.drop "cache:hbarSpendingPlan:".toList.length).takeWhile dot).tails.any
            ":amountSpent".toList.isPrefixOf := by
    funext rest
    simp only [accepts_starBetween, Bool.and_true]
    rw [Slot.skipping_isPrefixOf hback]
  rw [spread_regExp_starBetween (by decide) (by decide), Slot.somewhere, haccepts, ← hdot]
  rfl

end Patterns

section System

structure PlanState where
  now : ℕ
  cache : Cache

inductive PlanEvent where
  | create (subscriptionTier : SubscriptionTier) (ttl : ℤ) (planId : String)
  | delete (id : String)
  | addToAmountSpent (id : String) (amount : ℕ) (ttl : ℤ)
  | resetAmountSpentOfAllPlans
  | advance (ms : ℕ)

variable (b : CacheBackend) (s : PlanState)

def PlanState.moment : Moment := ⟨b, s.now⟩

def planStep : PlanEvent → Option PlanState
  | .create subscriptionTier ttl planId =>
    some { s with cache := create (s.moment b) s.cache subscriptionTier ttl planId }
  | .delete id => some { s with cache := delete s.cache id }
  | .addToAmountSpent id amount ttl =>
    some { s with cache := (addToAmountSpent (s.moment b) s.cache id amount ttl).2 }
  | .resetAmountSpentOfAllPlans =>
    some { s with cache := resetAmountSpentOfAllPlans (s.moment b) s.cache }
  | .advance ms => some { s with now := s.now + ms }

/-- A plan that is created under an id which is not stored is reported with nothing spent. -/
def StartsUnspent : PlanEvent → Prop
  | .create subscriptionTier ttl planId => read (s.moment b) s.cache (planKey planId) = none →
      ∃ plan, findByIdWithDetails (s.moment b)
          (create (s.moment b) s.cache subscriptionTier ttl planId) planId = .ok plan ∧
        plan.amountSpent = some 0
  | _ => True

/-- Nothing is left under the key of the amount of a plan that is created, except the number 0. -/
def NothingLeft : PlanEvent → Prop
  | .create _ _ planId => read (s.moment b) s.cache (planKey planId) = none →
      ∀ entry ∈ read (s.moment b) s.cache (.hbarSpendingPlan (planId ++ ":amountSpent")),
        entry = .amountSpent 0
  | _ => True

end System

section Runs

variable {t : Moment} {cache : Cache} {id : String} {b : CacheBackend} {s : PlanState}

private theorem amountSpentKey_ne (id : String) : amountSpentKey id ≠ planKey id := by
  intro h
  have htext : id ++ ":amountSpent" = id ++ "" :=
    (CacheKey.hbarSpendingPlan.inj h).trans (String.append_empty).symm
  exact absurd ((String.append_right_inj _).mp htext) (by decide +kernel)

/-- A plan is deleted without the amount that it has spent. -/
theorem amountSpent_delete : amountSpent t (delete cache id) id = amountSpent t cache id :=
  congrArg parseAmount (Store.get_delete_of_ne (amountSpentKey_ne id))

/-- Nor does the creation of a plan touch the amount. -/
theorem amountSpent_create (tier : SubscriptionTier) (ttl : ℤ) :
    amountSpent t (create t cache tier ttl id) id = amountSpent t cache id :=
  congrArg parseAmount (Store.get_set_of_ne (amountSpentKey_ne id))

/-- A new plan is found with the amount that was left. -/
theorem findByIdWithDetails_create (tier : SubscriptionTier) (ttl : ℤ) :
    findByIdWithDetails t (create t cache tier ttl id) id =
      .ok ⟨⟨id, tier, t.now, true⟩, amountSpent t cache id⟩ := by
  have hplan : read t (create t cache tier ttl id) (planKey id) =
      some (.plan ⟨id, tier, t.now, true⟩) := Store.get_set_self
  have hactive : checkExistsAndActive t (create t cache tier ttl id) id = .ok () := by
    rw [checkExistsAndActive, hplan]
    rfl
  rw [findByIdWithDetails, hplan]
  simp only [getAmountSpent, hactive, amountSpent_create]
  rfl

private theorem amountSpent_eq_zero_iff : amountSpent t cache id = some 0 ↔
    ∀ entry ∈ read t cache (.hbarSpendingPlan (id ++ ":amountSpent")), entry = .amountSpent 0 := by
  have hdef : amountSpent t cache id =
      parseAmount (read t cache (.hbarSpendingPlan (id ++ ":amountSpent"))) := rfl
  rw [hdef]
  cases read t cache (.hbarSpendingPlan (id ++ ":amountSpent")) with
  | none => simp [parseAmount]
  | some entry =>
    cases entry with
    | plan plan => simp [parseAmount]
    | amountSpent amount => simp [parseAmount]
    | objectText suffix => simp [parseAmount]

private theorem startsUnspent_iff (e : PlanEvent) : StartsUnspent b s e ↔ NothingLeft b s e := by
  cases e with
  | create tier ttl planId =>
    refine imp_congr_right fun _ => ?_
    rw [findByIdWithDetails_create, ← amountSpent_eq_zero_iff]
    constructor
    · rintro ⟨plan, hplan, hspent⟩
      obtain rfl := Except.ok.inj hplan
      exact hspent
    · exact fun hspent => ⟨_, rfl, hspent⟩
  | delete id => exact Iff.rfl
  | addToAmountSpent id amount ttl => exact Iff.rfl
  | resetAmountSpentOfAllPlans => exact Iff.rfl
  | advance ms => exact Iff.rfl

/-- In a run, new plans start with nothing spent if and only if none of them finds an amount that
was left under its key. -/
theorem new_plans_unspent_iff (b : CacheBackend) (s : PlanState) (es : List PlanEvent) :
    Along (planStep b) (StartsUnspent b) s es ↔ Along (planStep b) (NothingLeft b) s es :=
  along_congr (I := fun _ => True) (fun _ e _ => startsUnspent_iff e) (fun _ _ _ _ _ _ => trivial)
    trivial

/-- A plan is charged, deleted and created again. -/
def recreatedPlan : List PlanEvent :=
  [.create .extended (-1) "p", .addToAmountSpent "p" 5 86400000, .delete "p",
    .create .privileged (-1) "p"]

theorem recreated_plan_charged :
    ∃ (b : CacheBackend) (es : List PlanEvent), ¬Along (planStep b) (StartsUnspent b) ⟨0, ∅⟩ es := by
  refine ⟨.redisCache, recreatedPlan, fun h => ?_⟩
  obtain ⟨plan, hplan, hspent⟩ :=
    (((h.2 _ rfl).2 _ rfl).2 _ rfl).1 rfl
  have hamount : some 5 = plan.amountSpent := congrArg
    (fun result => (result.toOption.bind DetailedHbarSpendingPlan.amountSpent)) hplan
  rw [hspent] at hamount
  cases hamount

end Runs

end JsonRpcRelay.SpendingPlans

import JsonRpcRelay.Framework.Schedule
import JsonRpcRelay.WsServer.SubscriptionService
import Mathlib.Data.List.Perm.Basic
import Mathlib.Logic.Function.Basic

/-!
# The subscriptions of a connection

The requests of a connection are processed up to their next `await`, in any order.  The limit is
kept, and nothing is left behind by a connection that was closed, as long as a request only
passes the check if the requests in flight leave it a place and its response can carry its id,
and the connection is only closed while no request can still subscribe.
-/

namespace JsonRpcRelay.WsServer

open Framework Server SubscriptionService

/-- A request with its id, and its parameters. -/
inductive Request where
  | subscribe (requestId params : Json)
  | unsubscribe (requestId params : Json)

/-- Where a request waits: for the rate limiter, for the validation of its filters, or for its
subscription to be counted. -/
inductive Pending where
  | received (request : Request)
  | validating (requestId validFilters : Json)
  | uncounted

/-- A connection with the number of its subscriptions as the limiter counts it. -/
structure Connection where
  subscriptions : ℤ
  pending : List Pending
  closed : Bool

structure SubscriptionSettings extends Settings where
  subscriptionLimit : ℕ
  sameSubForSameEvent : Bool

/-- What happens on a connection.  A pending request is given by its place. -/
inductive Action where
  | receive (request : Request)
  | proceed (place : ℕ) (newId : String)
  | validated (place : ℕ) (isValid : Bool) (newId : String)
  | count (place : ℕ)
  | close

section Connections

/-- What a request to subscribe does once the rate limiter has let it through. -/
inductive Admission where
  | refused
  | validates (validFilters : Json)
  | subscribes (tag : String)

variable (server : SubscriptionSettings) (id : String)

def validateSubscriptionLimit (c : Connection) : Bool := c.subscriptions < server.subscriptionLimit

def admission (c : Connection) (params : Json) : Admission :=
  if ¬validateSubscriptionLimit server c ∨ ¬server.subscriptionsEnabled then .refused
  else
    match elementAt params 0 with
    | some (.string event) =>
        if event = "logs" then
          match Settings.constructValidLogSubscriptionFilter (elementAt params 1) with
          | .ok validFilters => .validates validFilters
          | .error _ => .refused
        else if event = "newHeads" ∧ server.newHeadsEnabled then
          .subscribes (subscriptionTag event (elementAt params 1))
        else .refused
    | _ => .refused

/-- A request that is no longer pending. -/
def Connection.answered (c : Connection) (place : ℕ) : Connection :=
  { c with pending := c.pending.eraseIdx place }

def Connection.awaits (c : Connection) (place : ℕ) (p : Pending) : Connection :=
  { c with pending := c.pending.set place p }

/-- `incrementSubs` and `decrementSubs`. -/
def Connection.addSubs (c : Connection) (amount : ℤ) : Connection :=
  { c with subscriptions := c.subscriptions + amount }

/-- Whether `jsonRespResult` builds the response of a subscription, or throws before the
subscription is counted. -/
def isResponseId (requestId : Json) : Bool := (responseId (some requestId)).isSome

/-- What a received request does up to its next `await`. -/
def process (subs : List Subscriber) (c : Connection) (place : ℕ) (newId : String) :
    Request → List Subscriber × Connection
  | .subscribe requestId params =>
      match admission server c params with
      | .refused => (subs, c.answered place)
      | .validates validFilters => (subs, c.awaits place (.validating requestId validFilters))
      | .subscribes tag =>
          ((subscribe subs id server.sameSubForSameEvent tag newId).2,
            (c.answered place).addSubs (if isResponseId requestId then 1 else 0))
  | .unsubscribe _ params =>
      if ¬server.subscriptionsEnabled then (subs, c.answered place)
      else
        let (unsubbedCount, left) := unsubscribe subs id (elementAt params 0)
        (left, (c.answered place).addSubs (-unsubbedCount))

/-- What a request does once its filters are validated. -/
def afterValidation (subs : List Subscriber) (c : Connection) (place : ℕ) (isValid : Bool)
    (newId : String) (requestId validFilters : Json) : List Subscriber × Connection :=
  if ¬isValid ∨ (¬server.multipleAddressesEnabled ∧ Settings.hasSeveralAddresses validFilters) then
    (subs, c.answered place)
  else
    ((subscribe subs id server.sameSubForSameEvent (subscriptionTag "logs" (some validFilters))
      newId).2, if isResponseId requestId then c.awaits place .uncounted else c.answered place)

/-- A connection that was closed receives no more requests, but those in flight go on. -/
def act (subs : List Subscriber) (c : Connection) : Action → Option (List Subscriber × Connection)
  | .receive request =>
      if c.closed then none
      else some (subs, { c with pending := c.pending ++ [.received request] })
  | .proceed place newId =>
      match c.pending[place]? with
      | some (.received request) => some (process server id subs c place newId request)
      | _ => none
  | .validated place isValid newId =>
      match c.pending[place]? with
      | some (.validating requestId validFilters) =>
          some (afterValidation server id subs c place isValid newId requestId validFilters)
      | _ => none
  | .count place =>
      match c.pending[place]? with
      | some .uncounted => some (subs, (c.answered place).addSubs 1)
      | _ => none
  | .close =>
      if c.closed then none
      else some ((unsubscribe subs id none).2, { c with closed := true })

structure WsState where
  subs : List Subscriber
  connections : String → Connection

namespace WsState

/-- All connections are open, and nobody has subscribed. -/
def init : WsState := ⟨[], fun _ => ⟨0, [], false⟩⟩

def step (s : WsState) (e : String × Action) : Option WsState :=
  (act server e.1 s.subs (s.connections e.1) e.2).map fun (subs, c) =>
    ⟨subs, Function.update s.connections e.1 c⟩

def live (s : WsState) : ℕ := SubscriptionService.live s.subs id

end WsState

end Connections

section Bounds

/-- The subscription was made but not counted. -/
def Pending.isUncounted : Pending → Bool
  | .uncounted => true
  | _ => false

/-- The request has passed the check and was not counted. -/
def Pending.isAdmitted : Pending → Bool
  | .validating _ _ | .uncounted => true
  | .received _ => false

/-- The request can still subscribe. -/
def Pending.opens : Pending → Bool
  | .received (.subscribe _ _) | .validating _ _ => true
  | _ => false

def Admission.isRefused : Admission → Bool
  | .refused => true
  | _ => false

/-- What the connection has subscribed is counted, or about to be, within the limit. -/
structure Bounded (limit : ℕ) (id : String) (subs : List Subscriber) (c : Connection) : Prop where
  counted : (live subs id : ℤ) ≤ c.subscriptions + c.pending.countP Pending.isUncounted
  limited : c.subscriptions + c.pending.countP Pending.isAdmitted ≤ limit
  closed : c.closed = true → live subs id = 0 ∧ ∀ p ∈ c.pending, p.opens = false

/-- A request passes the check only if the requests in flight leave it a place, its response can
carry its id, and the connection is closed only while no request can still subscribe. -/
def Orderly (server : SubscriptionSettings) (c : Connection) : Action → Prop
  | .proceed place _ => ∀ requestId params,
      c.pending[place]? = some (.received (.subscribe requestId params)) →
        (admission server c params).isRefused = false → isResponseId requestId ∧
          c.subscriptions + c.pending.countP Pending.isAdmitted < server.subscriptionLimit
  | .validated place _ _ => ∀ requestId validFilters,
      c.pending[place]? = some (.validating requestId validFilters) → isResponseId requestId
  | .close => ∀ p ∈ c.pending, p.opens = false
  | _ => True

variable {server : SubscriptionSettings} {id newId tag : String} {subs : List Subscriber}
  {c : Connection} {place : ℕ} {p q : Pending} {f : Pending → Bool}

private theorem countP_answered (h : c.pending[place]? = some p) :
    (c.answered place).pending.countP f + (if f p then 1 else 0) = c.pending.countP f := by
  obtain ⟨hlt, rfl⟩ := List.getElem?_eq_some_iff.mp h
  rw [← (List.getElem_cons_eraseIdx_perm hlt).countP_eq f, List.countP_cons]
  rfl

private theorem countP_awaits (h : c.pending[place]? = some p) :
    (c.awaits place q).pending.countP f + (if f p then 1 else 0) =
      c.pending.countP f + if f q then 1 else 0 := by
  obtain ⟨hlt, rfl⟩ := List.getElem?_eq_some_iff.mp h
  rw [Connection.awaits, List.countP_set hlt]
  have hpos : (if f c.pending[place] then 1 else 0) ≤ c.pending.countP f := by
    split
    · rename_i hf
      exact List.countP_pos_iff.mpr ⟨_, List.getElem_mem hlt, hf⟩
    · exact Nat.zero_le _
  omega

@[simp] theorem addSubs_subscriptions {n : ℤ} :
    (c.addSubs n).subscriptions = c.subscriptions + n := rfl

@[simp] theorem addSubs_pending {n : ℤ} : (c.addSubs n).pending = c.pending := rfl

@[simp] theorem answered_subscriptions : (c.answered place).subscriptions = c.subscriptions := rfl

@[simp] theorem awaits_subscriptions : (c.awaits place q).subscriptions = c.subscriptions := rfl

private theorem mem_answered (h : p ∈ (c.answered place).pending) : p ∈ c.pending :=
  List.mem_of_mem_eraseIdx h

private theorem Bounded.live_le {limit : ℕ} (h : Bounded limit id subs c) :
    live subs id ≤ limit := by
  have hle : c.pending.countP Pending.isUncounted ≤ c.pending.countP Pending.isAdmitted := by
    apply List.countP_mono_left
    intro p _ hp
    cases p with
    | uncounted => rfl
    | _ => cases hp
  have hcounted := h.counted
  have hlimited := h.limited
  omega

/-- A connection with a request that can still subscribe is not closed. -/
theorem Bounded.not_closed {limit : ℕ} (h : Bounded limit id subs c)
    (hp : c.pending[place]? = some p) (hopens : p.opens = true) : c.closed = false := by
  by_contra hclosed
  have hnot := (h.closed (by simpa using hclosed)).2 p (List.mem_of_getElem? hp)
  rw [hopens] at hnot
  cases hnot

/-- A request is answered without an effect. -/
theorem Bounded.answered {limit : ℕ} (h : Bounded limit id subs c)
    (hp : c.pending[place]? = some p) (hcounted : p.isUncounted = false) :
    Bounded limit id subs (c.answered place) where
  counted := by
    have hcount := countP_answered (f := Pending.isUncounted) hp
    rw [hcounted] at hcount
    have hle := h.counted
    simp only [Bool.false_eq_true, if_false] at hcount
    rw [Nat.add_zero] at hcount
    rw [hcount]
    exact hle
  limited := by
    have hcount := countP_answered (f := Pending.isAdmitted) hp
    have hle := h.limited
    show c.subscriptions + _ ≤ _
    omega
  closed hclosed := ⟨(h.closed hclosed).1, fun p hmem => (h.closed hclosed).2 p (mem_answered hmem)⟩

/-- What is no longer subscribed is no longer counted. -/
theorem Bounded.unsubscribed {limit : ℕ} (h : Bounded limit id subs c) {request : Request}
    (hp : c.pending[place]? = some (.received request)) (subId : Option Json) :
    Bounded limit id (unsubscribe subs id subId).2
      ((c.answered place).addSubs (-(unsubscribe subs id subId).1)) := by
  have huncounted := countP_answered (f := Pending.isUncounted) hp
  have hadmitted := countP_answered (f := Pending.isAdmitted) hp
  simp only [Pending.isUncounted, Pending.isAdmitted, Bool.false_eq_true, if_false,
    Nat.add_zero] at huncounted hadmitted
  have hcounted := h.counted
  have hlimited := h.limited
  have hlive : live (unsubscribe subs id subId).2 id + (unsubscribe subs id subId).1 =
      live subs id := live_unsubscribe
  refine ⟨?_, ?_, fun hclosed => ⟨?_, fun p hmem => ?_⟩⟩
  · simp only [addSubs_subscriptions, addSubs_pending, answered_subscriptions]
    omega
  · simp only [addSubs_subscriptions, addSubs_pending, answered_subscriptions]
    omega
  · have hnone := (h.closed hclosed).1
    omega
  · exact (h.closed hclosed).2 p (mem_answered hmem)

theorem Bounded.validates {limit : ℕ} (h : Bounded limit id subs c) {request : Request}
    (hp : c.pending[place]? = some (.received request)) (hopen : c.closed = false)
    (hroom : c.subscriptions + c.pending.countP Pending.isAdmitted < limit)
    (requestId validFilters : Json) :
    Bounded limit id subs (c.awaits place (.validating requestId validFilters)) := by
  have huncounted := countP_awaits (f := Pending.isUncounted)
    (q := .validating requestId validFilters) hp
  have hadmitted := countP_awaits (f := Pending.isAdmitted)
    (q := .validating requestId validFilters) hp
  simp only [Pending.isUncounted, Pending.isAdmitted, Bool.false_eq_true, if_false, if_true,
    Nat.add_zero] at huncounted hadmitted
  have hcounted := h.counted
  refine ⟨?_, ?_, fun hclosed => ?_⟩
  · simp only [awaits_subscriptions]
    omega
  · simp only [awaits_subscriptions]
    omega
  · cases hopen.symm.trans hclosed

theorem Bounded.subscribes {limit : ℕ} (h : Bounded limit id subs c) {request : Request}
    (hp : c.pending[place]? = some (.received request)) (hopen : c.closed = false)
    (hroom : c.subscriptions + c.pending.countP Pending.isAdmitted < limit) (same : Bool)
    (tag newId : String) :
    Bounded limit id (subscribe subs id same tag newId).2 ((c.answered place).addSubs 1) := by
  have huncounted := countP_answered (f := Pending.isUncounted) hp
  have hadmitted := countP_answered (f := Pending.isAdmitted) hp
  simp only [Pending.isUncounted, Pending.isAdmitted, Bool.false_eq_true, if_false,
    Nat.add_zero] at huncounted hadmitted
  have hcounted := h.counted
  have hlive : live (subscribe subs id same tag newId).2 id ≤ live subs id + 1 := live_subscribe_le
  refine ⟨?_, ?_, fun hclosed => ?_⟩
  · simp only [addSubs_subscriptions, addSubs_pending, answered_subscriptions]
    omega
  · simp only [addSubs_subscriptions, addSubs_pending, answered_subscriptions]
    omega
  · cases hopen.symm.trans hclosed

theorem Bounded.process (h : Bounded server.subscriptionLimit id subs c) {request : Request}
    (hp : c.pending[place]? = some (.received request))
    (horderly : Orderly server c (.proceed place newId)) :
    Bounded server.subscriptionLimit id (process server id subs c place newId request).1
      (process server id subs c place newId request).2 := by
  cases request with
  | unsubscribe requestId params =>
    rw [WsServer.process]
    split
    · exact h.answered hp rfl
    · exact h.unsubscribed hp (elementAt params 0)
  | subscribe requestId params =>
    have hopen := h.not_closed hp rfl
    have hplace := horderly requestId params hp
    rw [WsServer.process]
    cases hadmission : admission server c params with
    | refused => exact h.answered hp rfl
    | validates validFilters =>
      rw [hadmission] at hplace
      exact h.validates hp hopen (hplace rfl).2 requestId validFilters
    | subscribes tag =>
      rw [hadmission] at hplace
      obtain ⟨hresponse, hroom⟩ := hplace rfl
      simp only [hresponse, if_true]
      exact h.subscribes hp hopen hroom server.sameSubForSameEvent tag newId

theorem Bounded.afterValidation {limit : ℕ} (h : Bounded limit id subs c)
    {requestId validFilters : Json} {isValid : Bool}
    (hp : c.pending[place]? = some (.validating requestId validFilters))
    (hresponse : isResponseId requestId = true) :
    Bounded limit id (afterValidation server id subs c place isValid newId requestId validFilters).1
      (afterValidation server id subs c place isValid newId requestId validFilters).2 := by
  have hopen := h.not_closed hp rfl
  have hcounted := h.counted
  have hlimited := h.limited
  rw [WsServer.afterValidation, if_pos hresponse]
  split
  · exact h.answered hp rfl
  · have huncounted := countP_awaits (f := Pending.isUncounted) (q := .uncounted) hp
    have hadmitted := countP_awaits (f := Pending.isAdmitted) (q := .uncounted) hp
    simp only [Pending.isUncounted, Pending.isAdmitted, Bool.false_eq_true, if_false, if_true,
      Nat.add_zero] at huncounted hadmitted
    have hlive : live (subscribe subs id server.sameSubForSameEvent
        (subscriptionTag "logs" (some validFilters)) newId).2 id ≤ live subs id + 1 :=
      live_subscribe_le
    dsimp only
    refine ⟨?_, ?_, fun hclosed => ?_⟩
    · simp only [awaits_subscriptions]
      omega
    · simp only [awaits_subscriptions]
      omega
    · cases hopen.symm.trans hclosed

theorem Bounded.count {limit : ℕ} (h : Bounded limit id subs c)
    (hp : c.pending[place]? = some .uncounted) :
    Bounded limit id subs ((c.answered place).addSubs 1) := by
  have huncounted := countP_answered (f := Pending.isUncounted) hp
  have hadmitted := countP_answered (f := Pending.isAdmitted) hp
  simp only [Pending.isUncounted, Pending.isAdmitted, if_true] at huncounted hadmitted
  have hcounted := h.counted
  have hlimited := h.limited
  refine ⟨?_, ?_, fun hclosed => ⟨(h.closed hclosed).1, fun p hmem => ?_⟩⟩
  · simp only [addSubs_subscriptions, addSubs_pending, answered_subscriptions]
    omega
  · simp only [addSubs_subscriptions, addSubs_pending, answered_subscriptions]
    omega
  · exact (h.closed hclosed).2 p (mem_answered hmem)

theorem Bounded.receive {limit : ℕ} (h : Bounded limit id subs c) (hopen : c.closed = false)
    (request : Request) :
    Bounded limit id subs { c with pending := c.pending ++ [.received request] } := by
  have hcounted := h.counted
  have hlimited := h.limited
  refine ⟨?_, ?_, fun hclosed => ?_⟩
  · simpa [List.countP_append, Pending.isUncounted] using hcounted
  · simpa [List.countP_append, Pending.isAdmitted] using hlimited
  · cases hopen.symm.trans hclosed

theorem Bounded.close {limit : ℕ} (h : Bounded limit id subs c)
    (hnone : ∀ p ∈ c.pending, p.opens = false) :
    Bounded limit id (unsubscribe subs id none).2 { c with closed := true } := by
  have hlive : live (unsubscribe subs id none).2 id = 0 := live_unsubscribe_none
  have hcounted := h.counted
  refine ⟨?_, h.limited, fun _ => ⟨hlive, hnone⟩⟩
  dsimp only
  omega

theorem Bounded.act (h : Bounded server.subscriptionLimit id subs c) {action : Action}
    (horderly : Orderly server c action) {subs' : List Subscriber} {c' : Connection}
    (hact : act server id subs c action = some (subs', c')) :
    Bounded server.subscriptionLimit id subs' c' := by
  cases action with
  | receive request =>
    rw [WsServer.act] at hact
    split at hact
    · cases hact
    · rename_i hopen
      obtain ⟨rfl, rfl⟩ := Prod.mk.inj (Option.some.inj hact)
      exact h.receive (by simpa using hopen) request
  | proceed place newId =>
    rw [WsServer.act] at hact
    split at hact
    · rename_i request hp
      have hprocess := h.process hp horderly
      rw [Option.some.inj hact] at hprocess
      exact hprocess
    · cases hact
  | validated place isValid newId =>
    rw [WsServer.act] at hact
    split at hact
    · rename_i requestId validFilters hp
      have hvalidation : Bounded server.subscriptionLimit id
          (WsServer.afterValidation server id subs c place isValid newId requestId validFilters).1
          (WsServer.afterValidation server id subs c place isValid newId requestId validFilters).2 :=
        h.afterValidation hp (horderly requestId validFilters hp)
      rw [Option.some.inj hact] at hvalidation
      exact hvalidation
    · cases hact
  | count place =>
    rw [WsServer.act] at hact
    split at hact
    · rename_i hp
      obtain ⟨rfl, rfl⟩ := Prod.mk.inj (Option.some.inj hact)
      exact h.count hp
    · cases hact
  | close =>
    rw [WsServer.act] at hact
    split at hact
    · cases hact
    · obtain ⟨rfl, rfl⟩ := Prod.mk.inj (Option.some.inj hact)
      exact h.close horderly

end Bounds

section Runs

variable {server : SubscriptionSettings} {id other : String} {subs subs' : List Subscriber}
  {c c' : Connection}

private theorem live_process_of_ne {place : ℕ} {newId : String} {request : Request}
    (hne : id ≠ other) :
    live (process server id subs c place newId request).1 other = live subs other := by
  cases request with
  | subscribe requestId params =>
    rw [process]
    cases admission server c params with
    | subscribes tag => exact live_subscribe_of_ne hne
    | _ => rfl
  | unsubscribe requestId params =>
    rw [process]
    split
    · rfl
    · exact live_unsubscribe_of_ne hne

private theorem live_afterValidation_of_ne {place : ℕ} {isValid : Bool} {newId : String}
    {requestId validFilters : Json} (hne : id ≠ other) :
    live (afterValidation server id subs c place isValid newId requestId validFilters).1 other =
      live subs other := by
  rw [afterValidation]
  split
  · rfl
  · exact live_subscribe_of_ne hne

/-- The actions of a connection do not change what another one has subscribed. -/
theorem live_act_of_ne {action : Action} (hne : id ≠ other)
    (hact : act server id subs c action = some (subs', c')) :
    live subs' other = live subs other := by
  cases action with
  | receive request =>
    rw [act] at hact
    split at hact
    · cases hact
    · obtain ⟨rfl, rfl⟩ := Prod.mk.inj (Option.some.inj hact)
      rfl
  | proceed place newId =>
    rw [act] at hact
    split at hact
    · rename_i request hp
      have hsubs : (process server id subs c place newId request).1 = subs' :=
        congrArg Prod.fst (Option.some.inj hact)
      rw [← hsubs]
      exact live_process_of_ne hne
    · cases hact
  | validated place isValid newId =>
    rw [act] at hact
    split at hact
    · rename_i requestId validFilters hp
      have hsubs : (afterValidation server id subs c place isValid newId requestId
          validFilters).1 = subs' := congrArg Prod.fst (Option.some.inj hact)
      rw [← hsubs]
      exact live_afterValidation_of_ne hne
    · cases hact
  | count place =>
    rw [act] at hact
    split at hact
    · obtain ⟨rfl, rfl⟩ := Prod.mk.inj (Option.some.inj hact)
      rfl
    · cases hact
  | close =>
    rw [act] at hact
    split at hact
    · cases hact
    · obtain ⟨rfl, rfl⟩ := Prod.mk.inj (Option.some.inj hact)
      exact live_unsubscribe_of_ne hne

/-- The steps of a connection are orderly. -/
def OrderlyStep (server : SubscriptionSettings) (id : String) (s : WsState)
    (e : String × Action) : Prop :=
  e.1 = id → Orderly server (s.connections id) e.2

private theorem bounded_step {s t : WsState} {e : String × Action}
    (h : Bounded server.subscriptionLimit id s.subs (s.connections id))
    (horderly : OrderlyStep server id s e) (hstep : s.step server e = some t) :
    Bounded server.subscriptionLimit id t.subs (t.connections id) := by
  rw [WsState.step, Option.map_eq_some_iff] at hstep
  obtain ⟨⟨subs', c'⟩, hact, rfl⟩ := hstep
  dsimp only
  by_cases hid : e.1 = id
  · subst hid
    rw [Function.update_self]
    exact h.act (horderly rfl) hact
  · have hlive := live_act_of_ne hid hact
    rw [Function.update_of_ne (Ne.symm hid)]
    refine ⟨?_, h.limited, fun hclosed => ⟨?_, (h.closed hclosed).2⟩⟩
    · rw [hlive]
      exact h.counted
    · rw [hlive]
      exact (h.closed hclosed).1

private theorem bounded_init (server : SubscriptionSettings) (id : String) :
    Bounded server.subscriptionLimit id WsState.init.subs (WsState.init.connections id) where
  counted := by simp [WsState.init, live]
  limited := by simp [WsState.init]
  closed hclosed := by cases hclosed

/-- In a run whose steps are orderly the limit is kept, and a closed connection has no
subscriptions. -/
theorem subscriptions_limited_and_released (server : SubscriptionSettings) (id : String)
    {es : List (String × Action)} {s : WsState}
    (horderly : Along (WsState.step server) (OrderlyStep server id) .init es)
    (hrun : exec (WsState.step server) .init es = some s) :
    s.live id ≤ server.subscriptionLimit ∧
      ((s.connections id).closed = true → s.live id = 0) := by
  have hbounded : Bounded server.subscriptionLimit id s.subs (s.connections id) :=
    run_invariant (I := fun s => Bounded server.subscriptionLimit id s.subs (s.connections id))
      (fun _ _ _ h horderly hstep => bounded_step h horderly hstep)
      (bounded_init server id) horderly hrun
  exact ⟨hbounded.live_le, fun hclosed => (hbounded.closed hclosed).1⟩

/-- A server that allows one subscription. -/
def oneSubscription : SubscriptionSettings where
  requestIdIsOptional := false
  subscriptionsEnabled := true
  newHeadsEnabled := true
  multipleAddressesEnabled := false
  batchRequestsEnabled := true
  batchRequestsMaxSize := 20
  batchRequestsDisallowedMethods := []
  rateLimits := ⟨100, 800, 1600⟩
  subscriptionLimit := 1
  sameSubForSameEvent := true

def newHeads (requestId : Json) : Request := .subscribe requestId (.array [.string "newHeads"])

def logsRequest (address : String) : Request :=
  .subscribe (.string "1") (.array [.string "logs", .object [("address", .string address)]])

def twoSubscriptions : SubscriptionSettings := { oneSubscription with subscriptionLimit := 2 }

private theorem orderly_proceed {server : SubscriptionSettings} {c : Connection} {place : ℕ}
    {newId : String} {requestId params : Json}
    (hp : c.pending[place]? = some (.received (.subscribe requestId params)))
    (hid : isResponseId requestId = true)
    (hroom : c.subscriptions + c.pending.countP Pending.isAdmitted < server.subscriptionLimit) :
    Orderly server c (.proceed place newId) := by
  intro requestId' params' hp' _
  rw [hp] at hp'
  obtain ⟨rfl, _⟩ := Request.subscribe.inj (Pending.received.inj (Option.some.inj hp'))
  exact ⟨hid, hroom⟩

private theorem orderly_validated {server : SubscriptionSettings} {c : Connection} {place : ℕ}
    {newId : String} {isValid : Bool} {requestId validFilters : Json}
    (hp : c.pending[place]? = some (.validating requestId validFilters))
    (hid : isResponseId requestId = true) : Orderly server c (.validated place isValid newId) := by
  intro requestId' validFilters' hp'
  rw [hp] at hp'
  obtain ⟨rfl, _⟩ := Pending.validating.inj (Option.some.inj hp')
  exact hid

/-- The filters of one request are validated while another subscribes.  The client then gives up
one of the two subscriptions and disconnects. -/
def overlappingSession : List (String × Action) :=
  [("c", .receive (logsRequest "0xa")), ("c", .receive (newHeads (.string "2"))),
    ("c", .proceed 0 ""), ("c", .proceed 1 "0x1"), ("c", .validated 0 true "0x2"),
    ("c", .count 0), ("c", .receive (.unsubscribe (.string "3") (.array [.string "0x1"]))),
    ("c", .proceed 0 ""), ("c", .close)]

private theorem orderly_overlappingSession :
    Along (WsState.step twoSubscriptions) (OrderlyStep twoSubscriptions "c") .init
      overlappingSession := by
  refine Along.cons rfl (fun _ => trivial) (Along.cons rfl (fun _ => trivial)
    (Along.cons rfl (fun _ => orderly_proceed rfl (by decide) (by decide))
    (Along.cons rfl (fun _ => orderly_proceed rfl (by decide) (by decide))
    (Along.cons rfl (fun _ => orderly_validated rfl (by decide))
    (Along.cons rfl (fun _ => trivial) (Along.cons rfl (fun _ => trivial)
    (Along.cons rfl (fun _ => ?_) (Along.cons rfl (fun _ => ?_) trivial))))))))
  · intro requestId params hp
    cases Pending.received.inj (Option.some.inj hp)
  · intro p hp
    cases hp

theorem subscriptions_limited_and_released_overlapping :
    ∃ s, exec (WsState.step twoSubscriptions) .init overlappingSession = some s ∧
      s.live "c" ≤ 2 ∧ ((s.connections "c").closed = true → s.live "c" = 0) :=
  ⟨_, rfl, subscriptions_limited_and_released twoSubscriptions "c" orderly_overlappingSession rfl⟩

/-- Two requests whose filters are validated at the same time get past the limit, as does one
after a request whose id no response can carry, and one that is validated after the connection was
closed leaves its subscription behind. -/
theorem limit_exceeded_and_subscription_left :
    (∃ s, exec (WsState.step oneSubscription) .init
        [("c", .receive (logsRequest "0xa")), ("c", .receive (logsRequest "0xb")),
          ("c", .proceed 0 ""), ("c", .proceed 1 ""),
          ("c", .validated 0 true "0x1"), ("c", .validated 1 true "0x2")] = some s ∧
      s.live "c" = 2) ∧
    (∃ s, exec (WsState.step oneSubscription) .init
        [("c", .receive (newHeads (.bool true))), ("c", .proceed 0 "0x1"),
          ("c", .receive (logsRequest "0xa")), ("c", .proceed 0 ""),
          ("c", .validated 0 true "0x2"), ("c", .count 0)] = some s ∧
      s.live "c" = 2) ∧
    ∃ s, exec (WsState.step oneSubscription) .init
        [("c", .receive (logsRequest "0xa")), ("c", .proceed 0 ""), ("c", .close),
          ("c", .validated 0 true "0x1")] = some s ∧
      (s.connections "c").closed = true ∧ s.live "c" = 1 := by
  refine ⟨⟨_, rfl, ?_⟩, ⟨_, rfl, ?_⟩, ⟨_, rfl, rfl, ?_⟩⟩
  · decide +kernel
  · decide +kernel
  · decide +kernel

end Runs

end JsonRpcRelay.WsServer

import JsonRpcRelay.WsServer.JsonRpcController

/-!
# The subscription service

The subscribers of all connections, each with the tag of what it listens for.  They are kept in
one list; the subscribers of a tag are those of the list with the tag, in the same order.
-/

namespace JsonRpcRelay.WsServer

open Framework

structure Subscriber where
  tag : String
  connection : String
  subscriptionId : String
  deriving DecidableEq

/-- Whether `Object.keys` has an element. -/
def hasKeys : Json → Bool
  | .object fields => fields ≠ []
  | .array items => items ≠ []
  | .string s => s ≠ ""
  | _ => false

/-- The tag of an event with filters. -/
def subscriptionTag (event : String) (filters : Option Json) : String :=
  let filters := (filters.filter hasKeys).toList.map fun filters => ("filters", filters)
  (Json.object (("event", .string event) :: filters)).stringify

namespace SubscriptionService

variable (subs : List Subscriber) (connection : String)

/-- Subscribe under a new id, unless the connection listens for the tag already and gets the id
that it has. -/
def subscribe (sameSubForSameEvent : Bool) (tag newId : String) : String × List Subscriber :=
  match subs.find? fun sub => sameSubForSameEvent ∧ sub.tag = tag ∧ sub.connection = connection with
  | some existingSub => (existingSub.subscriptionId, subs)
  | none => (newId, subs ++ [⟨tag, connection, newId⟩])

/-- Whether a subscription is meant by its id, or by none. -/
def meansId (subId : Option Json) (id : String) : Bool :=
  match orNull subId with
  | none | some .null => true
  | some (.string s) => s = id
  | _ => false

def isMeant (subId : Option Json) (sub : Subscriber) : Bool :=
  sub.connection = connection ∧ meansId subId sub.subscriptionId

/-- Returns how many subscribers were removed. -/
def unsubscribe (subId : Option Json) : ℕ × List Subscriber :=
  (subs.countP (isMeant connection subId), subs.filter fun sub => ¬isMeant connection subId sub)

/-- The live subscriptions of a connection. -/
def live : ℕ := subs.countP fun sub => sub.connection = connection

variable {subs connection} {tag newId other : String} {same : Bool} {subId : Option Json}

theorem live_subscribe_le :
    live (subscribe subs connection same tag newId).2 connection ≤ live subs connection + 1 := by
  unfold subscribe
  split
  · exact Nat.le_succ _
  · simp [live, List.countP_append]

theorem live_subscribe_of_ne (h : connection ≠ other) :
    live (subscribe subs connection same tag newId).2 other = live subs other := by
  unfold subscribe
  split
  · rfl
  · simp [live, List.countP_append, h]

/-- What is removed and what stays. -/
theorem live_unsubscribe :
    live (unsubscribe subs connection subId).2 connection + (unsubscribe subs connection subId).1 =
      live subs connection := by
  have hsplit := List.countP_eq_countP_filter_add subs (fun sub => sub.connection = connection)
    (isMeant connection subId)
  have hmeant : (subs.filter (isMeant connection subId)).countP
      (fun sub => sub.connection = connection) = subs.countP (isMeant connection subId) := by
    rw [List.countP_filter]
    apply List.countP_congr
    intro sub _
    simp only [isMeant, Bool.decide_and, Bool.and_eq_true, decide_eq_true_eq]
    tauto
  simp only [live, unsubscribe, decide_not, Bool.decide_eq_true]
  omega

theorem live_unsubscribe_of_ne (h : connection ≠ other) :
    live (unsubscribe subs connection subId).2 other = live subs other := by
  simp only [live, unsubscribe, List.countP_filter]
  apply List.countP_congr
  intro sub _
  by_cases hother : sub.connection = other
  · simp [hother, isMeant, h.symm]
  · simp [hother]

/-- Without an id all subscriptions of the connection are removed. -/
theorem live_unsubscribe_none : live (unsubscribe subs connection none).2 connection = 0 := by
  simp [live, unsubscribe, isMeant, meansId, orNull, List.countP_filter]

end SubscriptionService

end JsonRpcRelay.WsServer

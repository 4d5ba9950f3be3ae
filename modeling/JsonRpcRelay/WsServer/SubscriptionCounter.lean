import JsonRpcRelay.WsServer.SubscriptionLimit

/-!
# The counter of subscriptions

Requests that are processed one after the other.  The counter of a connection is the number of
its subscriptions as long as each request that gets to the subscription service makes a new
subscription if and only if its response can carry its id.
-/

namespace JsonRpcRelay.WsServer

open Framework SubscriptionService

/-- A request with what the validation of its filters says, and the id for a new subscription. -/
structure Processed where
  connection : String
  request : Request
  isValid : Bool
  newId : String

section Handling

variable (server : SubscriptionSettings)

/-- The tag under which a request calls `subscribe`, if it gets so far. -/
def subscribesTo (c : Connection) (params : Json) (isValid : Bool) : Option String :=
  match admission server c params with
  | .refused => none
  | .validates validFilters =>
      if ¬isValid ∨ (¬server.multipleAddressesEnabled ∧ Settings.hasSeveralAddresses validFilters)
      then none
      else some (subscriptionTag "logs" (some validFilters))
  | .subscribes tag => some tag

/-- What a request does until it is answered. -/
def handle (id : String) (subs : List Subscriber) (c : Connection) (isValid : Bool)
    (newId : String) : Request → List Subscriber × Connection
  | .subscribe requestId params =>
      match subscribesTo server c params isValid with
      | none => (subs, c)
      | some tag =>
          ((subscribe subs id server.sameSubForSameEvent tag newId).2,
            c.addSubs (if isResponseId requestId then 1 else 0))
  | .unsubscribe _ params =>
      if ¬server.subscriptionsEnabled then (subs, c)
      else
        let (unsubbedCount, left) := unsubscribe subs id (elementAt params 0)
        (left, c.addSubs (-unsubbedCount))

/-- The connection listens for the tag, and is to get the subscription that it has. -/
def isRepeated (subs : List Subscriber) (id tag : String) : Bool :=
  server.sameSubForSameEvent ∧ ∃ sub ∈ subs, sub.tag = tag ∧ sub.connection = id

/-- A request that gets to `subscribe` makes a new subscription if and only if its response can
carry its id. -/
def CountsNew (id : String) (subs : List Subscriber) (c : Connection) (isValid : Bool) :
    Request → Prop
  | .subscribe requestId params => ∀ tag, subscribesTo server c params isValid = some tag →
      (isRepeated server subs id tag = false ↔ isResponseId requestId = true)
  | .unsubscribe _ _ => True

namespace WsState

def handled (s : WsState) (e : Processed) : List Subscriber × Connection :=
  handle server e.connection s.subs (s.connections e.connection) e.isValid e.newId e.request

/-- One request after the other. -/
def sequential (s : WsState) (e : Processed) : Option WsState :=
  some ⟨(s.handled server e).1,
    Function.update s.connections e.connection (s.handled server e).2⟩

/-- Every counter is the number of the subscriptions of its connection. -/
def CountersAgree (s : WsState) : Prop := ∀ id, (s.connections id).subscriptions = s.live id

def CountsNew (s : WsState) (e : Processed) : Prop :=
  WsServer.CountsNew server e.connection s.subs (s.connections e.connection) e.isValid e.request

end WsState

end Handling

section Agreement

variable {server : SubscriptionSettings} {id tag newId : String} {subs : List Subscriber}
  {c : Connection} {isValid : Bool} {requestId params : Json}

private theorem live_subscribe :
    live (subscribe subs id server.sameSubForSameEvent tag newId).2 id =
      live subs id + if isRepeated server subs id tag then 0 else 1 := by
  unfold subscribe
  split
  · rename_i existingSub hfind
    have hmem := List.mem_of_find?_eq_some hfind
    have hexisting := List.find?_some hfind
    have hrepeated : isRepeated server subs id tag = true := by
      simp only [decide_eq_true_eq] at hexisting
      exact decide_eq_true ⟨hexisting.1, existingSub, hmem, hexisting.2⟩
    simp [hrepeated]
  · rename_i hfind
    have hnew : isRepeated server subs id tag = false := by
      simp only [List.find?_eq_none, decide_eq_true_eq] at hfind
      exact decide_eq_false fun ⟨hsame, sub, hmem, hsub⟩ => hfind sub hmem ⟨hsame, hsub⟩
    simp [hnew, live, List.countP_append]

private theorem handle_agrees_iff {request : Request} (h : c.subscriptions = live subs id) :
    (handle server id subs c isValid newId request).2.subscriptions =
        live (handle server id subs c isValid newId request).1 id ↔
      CountsNew server id subs c isValid request := by
  cases request with
  | subscribe requestId params =>
    rw [handle, CountsNew]
    cases htag : subscribesTo server c params isValid with
    | none => simp [h]
    | some tag =>
      have hlive : live (subscribe subs id server.sameSubForSameEvent tag newId).2 id =
          live subs id + if isRepeated server subs id tag then 0 else 1 := live_subscribe
      simp only [addSubs_subscriptions, hlive, h, Option.some.injEq, forall_eq']
      cases isRepeated server subs id tag <;> cases isResponseId requestId <;> simp
  | unsubscribe requestId params =>
    rw [handle, CountsNew]
    split
    · simp [h]
    · have hlive : live (unsubscribe subs id (elementAt params 0)).2 id +
          (unsubscribe subs id (elementAt params 0)).1 = live subs id := live_unsubscribe
      simp only [addSubs_subscriptions, iff_true]
      omega

private theorem live_handle_of_ne {request : Request} {other : String} (hne : id ≠ other) :
    live (handle server id subs c isValid newId request).1 other = live subs other := by
  cases request with
  | subscribe requestId params =>
    rw [handle]
    cases subscribesTo server c params isValid with
    | none => rfl
    | some tag => exact live_subscribe_of_ne hne
  | unsubscribe requestId params =>
    rw [handle]
    split
    · rfl
    · exact live_unsubscribe_of_ne hne

/-- A request changes what its own connection has, and nothing else. -/
theorem countersAgree_iff {s t : WsState} {e : Processed} (h : s.CountersAgree)
    (hstep : s.sequential server e = some t) : t.CountersAgree ↔ s.CountsNew server e := by
  obtain rfl := Option.some.inj hstep
  constructor
  · intro hagree
    have hown := hagree e.connection
    simp only [Function.update_self] at hown
    exact (handle_agrees_iff (h e.connection)).mp hown
  · intro hcounts other
    dsimp only
    by_cases hother : other = e.connection
    · subst hother
      rw [Function.update_self]
      exact (handle_agrees_iff (h e.connection)).mpr hcounts
    · have hlive : live (s.handled server e).1 other = live s.subs other :=
        live_handle_of_ne (Ne.symm hother)
      rw [Function.update_of_ne hother, h other, WsState.live, WsState.live, hlive]

end Agreement

section Runs

variable (server : SubscriptionSettings)

private theorem exec_sequential (s : WsState) (es : List Processed) :
    ∃ t, exec (WsState.sequential server) s es = some t := by
  induction es generalizing s with
  | nil => exact ⟨s, rfl⟩
  | cons e es ih => exact ih _

/-- The counters agree with the subscriptions after every request if and only if each request is
counted when it makes a new subscription, and only then. -/
theorem counters_agree_iff (es : List Processed) :
    (∀ n s, exec (WsState.sequential server) .init (es.take n) = some s → s.CountersAgree) ↔
      Along (WsState.sequential server) (WsState.CountsNew server) .init es := by
  obtain ⟨s, hrun⟩ := exec_sequential server .init es
  have hinit : WsState.init.CountersAgree := fun id => by simp [WsState.init, WsState.live, live]
  exact invariant_iff_along (fun _ _ _ hs hstep => countersAgree_iff hs hstep) hinit hrun

end Runs

section Interleaved

variable {server : SubscriptionSettings} {id newId : String} {subs : List Subscriber}
  {c : Connection} {isValid : Bool}

/-- The actions of a request that is processed at once. -/
def actionsOf (server : SubscriptionSettings) (c : Connection) (isValid : Bool) (newId : String) :
    Request → List Action
  | .subscribe requestId params =>
      match admission server c params with
      | .validates _ =>
          [.receive (.subscribe requestId params), .proceed 0 newId, .validated 0 isValid newId] ++
            if (subscribesTo server c params isValid).isSome ∧ isResponseId requestId then
              [.count 0]
            else []
      | _ => [.receive (.subscribe requestId params), .proceed 0 newId]
  | .unsubscribe requestId params => [.receive (.unsubscribe requestId params), .proceed 0 newId]

private theorem exec_receive {request : Request} {action : Action} {actions : List Action}
    (hidle : c.pending = []) (hopen : c.closed = false) :
    exec (fun s => act server id s.1 s.2) (subs, c) (.receive request :: action :: actions) =
      (act server id subs { c with pending := [.received request] } action).bind fun s =>
        exec (fun s => act server id s.1 s.2) s actions := by
  simp [exec, act, hidle, hopen]

private theorem answered_received {p : Pending} (hidle : c.pending = []) :
    ({ c with pending := [p] } : Connection).answered 0 = c := by
  simp [Connection.answered, ← hidle]

/-- A request that is processed at once is a schedule of its connection. -/
theorem exec_actionsOf {request : Request} (hidle : c.pending = []) (hopen : c.closed = false) :
    exec (fun s => act server id s.1 s.2) (subs, c) (actionsOf server c isValid newId request) =
      some (handle server id subs c isValid newId request) := by
  cases request with
  | unsubscribe requestId params =>
    rw [actionsOf, exec_receive hidle hopen, handle]
    simp only [act, List.getElem?_cons_zero, process, answered_received hidle, Option.bind_some,
      exec_nil]
  | subscribe requestId params =>
    have hadmission : admission server { c with pending := [.received (.subscribe requestId params)] }
        params = admission server c params := rfl
    rw [actionsOf, handle, subscribesTo]
    cases h : admission server c params with
    | refused =>
      simp only [exec_receive hidle hopen, act, List.getElem?_cons_zero, process, hadmission, h,
        answered_received hidle, Option.bind_some, exec_nil]
    | subscribes tag =>
      simp only [exec_receive hidle hopen, act, List.getElem?_cons_zero, process, hadmission, h,
        answered_received hidle, Option.bind_some, exec_nil]
    | validates validFilters =>
      have hawaits (p q : Pending) : ({ c with pending := [p] } : Connection).awaits 0 q =
          { c with pending := [q] } := rfl
      simp only [List.cons_append, List.nil_append, exec_receive hidle hopen, act,
        List.getElem?_cons_zero, process, hadmission, h, Option.bind_some, exec_cons, hawaits,
        afterValidation]
      split
      · simp [answered_received hidle]
      · cases hresponse : isResponseId requestId with
        | false => simp [answered_received hidle, Connection.addSubs]
        | true => simp [exec, act, answered_received hidle]

/-- No request is in flight, and no connection was closed. -/
def WsState.Idle (s : WsState) : Prop :=
  ∀ id, (s.connections id).pending = [] ∧ (s.connections id).closed = false

private theorem idle_handle {request : Request} (hidle : c.pending = [])
    (hopen : c.closed = false) :
    (handle server id subs c isValid newId request).2.pending = [] ∧
      (handle server id subs c isValid newId request).2.closed = false := by
  cases request with
  | subscribe requestId params =>
    rw [handle]
    split <;> exact ⟨hidle, hopen⟩
  | unsubscribe requestId params =>
    rw [handle]
    split <;> exact ⟨hidle, hopen⟩

private theorem idle_sequential {s t : WsState} {e : Processed} (h : s.Idle)
    (hstep : s.sequential server e = some t) : t.Idle := by
  obtain rfl := Option.some.inj hstep
  intro other
  dsimp only
  by_cases hother : other = e.connection
  · subst hother
    rw [Function.update_self]
    exact idle_handle (h _).1 (h _).2
  · rw [Function.update_of_ne hother]
    exact h other

private theorem exec_step_of_act {s : WsState} {actions : List Action}
    {r : List Subscriber × Connection}
    (h : exec (fun s => act server id s.1 s.2) (s.subs, s.connections id) actions = some r) :
    exec (WsState.step server) s (actions.map (Prod.mk id)) =
      some ⟨r.1, Function.update s.connections id r.2⟩ := by
  induction actions generalizing s with
  | nil =>
    obtain rfl := Option.some.inj h
    simp
  | cons action actions ih =>
    obtain ⟨⟨subs, c⟩, hact, hrest⟩ := exec_cons_eq_some.mp h
    have hnext := ih (s := ⟨subs, Function.update s.connections id c⟩)
      (by simpa only [Function.update_self] using hrest)
    rw [Function.update_idem] at hnext
    exact exec_cons_eq_some.mpr ⟨_, by rw [WsState.step, hact]; rfl, hnext⟩

theorem sequential_scheduled {s t : WsState} {es : List Processed} (h : s.Idle)
    (hrun : exec (WsState.sequential server) s es = some t) :
    ∃ actions, exec (WsState.step server) s actions = some t := by
  induction es generalizing s with
  | nil => exact ⟨[], hrun⟩
  | cons e es ih =>
    obtain ⟨u, hu, hrest⟩ := exec_cons_eq_some.mp hrun
    obtain ⟨actions, hactions⟩ := ih (idle_sequential h hu) hrest
    have hhandled : exec (fun s => act server e.connection s.1 s.2)
        (s.subs, s.connections e.connection)
        (actionsOf server (s.connections e.connection) e.isValid e.newId e.request) =
          some (s.handled server e) :=
      exec_actionsOf (h e.connection).1 (h e.connection).2
    have hfirst := exec_step_of_act hhandled
    obtain rfl := Option.some.inj hu
    exact ⟨_, exec_append hfirst hactions⟩

/-- A repeated subscription is counted again, and one for a request whose id no response can carry
is not counted at all. -/
theorem counters_drift :
    (∃ s actions, exec (WsState.sequential { oneSubscription with subscriptionLimit := 10 }) .init
        [⟨"c", newHeads (.string "1"), true, "0x1"⟩, ⟨"c", newHeads (.string "2"), true, "0x2"⟩] =
          some s ∧
      exec (WsState.step { oneSubscription with subscriptionLimit := 10 }) .init actions = some s ∧
      s.live "c" = 1 ∧ (s.connections "c").subscriptions = 2) ∧
    ∃ s actions, exec (WsState.sequential oneSubscription) .init
        [⟨"c", newHeads (.bool true), true, "0x1"⟩] = some s ∧
      exec (WsState.step oneSubscription) .init actions = some s ∧
      s.live "c" = 1 ∧ (s.connections "c").subscriptions = 0 := by
  have hidle : WsState.init.Idle := fun _ => ⟨rfl, rfl⟩
  constructor
  · obtain ⟨actions, hactions⟩ := sequential_scheduled hidle (rfl :
      exec (WsState.sequential { oneSubscription with subscriptionLimit := 10 }) .init
        [⟨"c", newHeads (.string "1"), true, "0x1"⟩, ⟨"c", newHeads (.string "2"), true, "0x2"⟩] =
          some _)
    refine ⟨_, actions, rfl, hactions, ?_, ?_⟩
    all_goals decide +kernel
  · obtain ⟨actions, hactions⟩ := sequential_scheduled hidle (rfl :
      exec (WsState.sequential oneSubscription) .init
        [⟨"c", newHeads (.bool true), true, "0x1"⟩] = some _)
    refine ⟨_, actions, rfl, hactions, ?_, ?_⟩
    all_goals decide +kernel

end Interleaved

end JsonRpcRelay.WsServer

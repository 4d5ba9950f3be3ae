import JsonRpcRelay.Framework.Grouping
import JsonRpcRelay.WsServer.SubscriptionService

/-!
# Subscriptions and their polls

The subscription service keeps the subscribers of each tag, and the poller a poll for each tag and
a timer while it has polls.  A call runs to its end before the next one.
-/

namespace JsonRpcRelay.WsServer

open Framework

/-- The callback is `notifySubscribers`, bound to a tag. -/
structure TagPoll where
  tag : String
  callback : String
  deriving DecidableEq

/-- The polls, the timer that the poller knows, and the timers that are alive. -/
structure TagPoller where
  polls : List TagPoll
  interval : Option ℕ
  alive : List ℕ
  nextTimer : ℕ

namespace TagPoller

def init : TagPoller := ⟨[], none, [], 0⟩

variable (p : TagPoller) (tag : String)

def isPolling : Bool := p.interval.isSome

def hasPoll : Bool := (p.polls.filter (·.tag = tag)).length ≠ 0

def start : TagPoller :=
  { p with
    interval := some p.nextTimer
    alive := p.alive ++ [p.nextTimer]
    nextTimer := p.nextTimer + 1 }

def stop : TagPoller :=
  match p.interval with
  | some timer => { p with interval := none, alive := p.alive.filter (· ≠ timer) }
  | none => p

def withPoll (callback : String) : TagPoller :=
  if p.hasPoll tag then p else { p with polls := p.polls ++ [⟨tag, callback⟩] }

def add (callback : String) : TagPoller :=
  if (p.withPoll tag callback).isPolling then p.withPoll tag callback
  else (p.withPoll tag callback).start

def withoutPoll : TagPoller := { p with polls := p.polls.filter (·.tag ≠ tag) }

def remove : TagPoller :=
  if (p.withoutPoll tag).polls = [] then (p.withoutPoll tag).stop else p.withoutPoll tag

end TagPoller

/-- The subscribers of each tag, and the poller. -/
structure TagSubscriptions where
  subscriptions : InsertionMap String (List Subscriber)
  poller : TagPoller

/-- The calls of the connections, with the id that is drawn for a subscription. -/
inductive SubscriptionCall where
  | subscribe (connection event : String) (filters : Option Json) (newId : String)
  | unsubscribe (connection : String) (subId : Option Json)

/-- The cache of the hashes that were sent recently. -/
structure RecentCache (κ : Type) where
  get : κ → String → Bool × κ
  set : κ → String → κ

namespace TagSubscriptions

def init : TagSubscriptions := ⟨.empty, .init⟩

variable (sameSubForSameEvent : Bool) (st : TagSubscriptions)

def subscribersOf (tag : String) : List Subscriber := (st.subscriptions.get? tag).getD []

def subscribeTag (connection tag newId : String) : String × TagSubscriptions :=
  let subs := st.subscribersOf tag
  match subs.find? fun sub => sameSubForSameEvent ∧ sub.connection = connection with
  | some existingSub =>
      (existingSub.subscriptionId, { st with subscriptions := st.subscriptions.set tag subs })
  | none => (newId, {
      subscriptions := st.subscriptions.set tag (subs ++ [⟨tag, connection, newId⟩])
      poller := st.poller.add tag tag })

def subscribe (connection event : String) (filters : Option Json) (newId : String) :
    String × TagSubscriptions :=
  st.subscribeTag sameSubForSameEvent connection (subscriptionTag event filters) newId

/-- The subscribers of an entry that stay. -/
def kept (connection : String) (subId : Option Json) (subs : List Subscriber) : List Subscriber :=
  subs.filter fun sub => ¬SubscriptionService.isMeant connection subId sub

/-- A tag whose last subscriber goes is removed. -/
def unsubscribeEntry (connection : String) (subId : Option Json) (acc : ℕ × TagSubscriptions)
    (entry : String × List Subscriber) : ℕ × TagSubscriptions :=
  let subCount := acc.1 + entry.2.countP (SubscriptionService.isMeant connection subId)
  if kept connection subId entry.2 = [] then
    (subCount, {
      subscriptions := acc.2.subscriptions.delete entry.1
      poller := acc.2.poller.remove entry.1 })
  else
    (subCount, { acc.2 with
      subscriptions := acc.2.subscriptions.set entry.1 (kept connection subId entry.2) })

def unsubscribe (connection : String) (subId : Option Json) : ℕ × TagSubscriptions :=
  st.subscriptions.entries.foldl (unsubscribeEntry connection subId) (0, st)

def perform : SubscriptionCall → TagSubscriptions
  | .subscribe connection event filters newId =>
      (st.subscribe sameSubForSameEvent connection event filters newId).2
  | .unsubscribe connection subId => (st.unsubscribe connection subId).2

def performAll (calls : List SubscriptionCall) : TagSubscriptions :=
  calls.foldl (perform sameSubForSameEvent) init

def subscriptionData (data : Json) (sub : Subscriber) : Json :=
  .object [("result", data), ("subscription", .string sub.subscriptionId)]

/-- The text that a connection is sent. -/
def notification (data : Json) (sub : Subscriber) : String :=
  (Json.object [("jsonrpc", .string "2.0"), ("method", .string "eth_subscription"),
    ("params", subscriptionData data sub)]).stringify

section Notify

variable {κ : Type} (cache : RecentCache κ) (createHash : String → String)

/-- What is sent to a subscriber, and the cache behind it. -/
def notifyOne (data : Json) (k : κ) (sub : Subscriber) : Option String × κ :=
  let hash := createHash (subscriptionData data sub).stringify
  let (recent, k) := cache.get k hash
  if recent then (none, k) else (some (notification data sub), cache.set k hash)

/-- The subscribers that a callback comes to, each with what is sent to it. -/
def notifyEach (data : Json) : κ → List Subscriber → List (Subscriber × Option String)
  | _, [] => []
  | k, sub :: subs =>
      let (sent, k) := notifyOne cache createHash data k sub
      (sub, sent) :: notifyEach data k subs

def notifySubscribers (k : κ) (tag : String) (data : Json) : List (Subscriber × Option String) :=
  notifyEach cache createHash data k (st.subscribersOf tag)

end Notify

/-- The subscribers that the calls leave, in one list. -/
def subscribersAfter (live : List Subscriber) : SubscriptionCall → List Subscriber
  | .subscribe connection event filters newId =>
      (SubscriptionService.subscribe live connection sameSubForSameEvent
        (subscriptionTag event filters) newId).2
  | .unsubscribe connection subId => (SubscriptionService.unsubscribe live connection subId).2

/-- What holds of the polls while there are some subscribers. -/
structure PollsMatch (live : List Subscriber) : Prop where
  current : ∀ tag, st.subscribersOf tag = live.filter (·.tag = tag)
  nodup : (st.poller.polls.map (·.tag)).Nodup
  tags : ∀ tag, tag ∈ st.poller.polls.map (·.tag) ↔ st.subscribersOf tag ≠ []
  reaches : ∀ poll ∈ st.poller.polls, ∀ (κ : Type) (cache : RecentCache κ) createHash k data,
    (st.notifySubscribers cache createHash k poll.callback data).map Prod.fst =
      st.subscribersOf poll.tag
  /-- Each of them is sent the data unless the cache has its hash by then. -/
  sends : ∀ poll ∈ st.poller.polls, ∀ (κ : Type) (cache : RecentCache κ) createHash k data
    before sub after, st.subscribersOf poll.tag = before ++ sub :: after →
      (st.notifySubscribers cache createHash k poll.callback data)[before.length]? = some (sub,
        if (cache.get (before.foldl (fun k sub => (notifyOne cache createHash data k sub).2) k)
            (createHash (subscriptionData data sub).stringify)).1 then none
        else some (notification data sub))
  running : st.poller.isPolling = true ↔ st.poller.polls ≠ []
  timers : st.poller.alive = st.poller.interval.toList

end TagSubscriptions

namespace TagPoller

/-- A poll for every tag once, bound to it, and one timer exactly while there are polls. -/
structure Consistent (p : TagPoller) : Prop where
  nodup : (p.polls.map (·.tag)).Nodup
  bound : ∀ poll ∈ p.polls, poll.callback = poll.tag
  running : p.isPolling = true ↔ p.polls ≠ []
  timers : p.alive = p.interval.toList

variable {p : TagPoller} {tag other : String}

private theorem consistent_init : Consistent init where
  nodup := List.nodup_nil
  bound _ h := absurd h List.not_mem_nil
  running := by simp [init, isPolling]
  timers := rfl

private theorem hasPoll_iff : p.hasPoll tag = true ↔ tag ∈ p.polls.map (·.tag) := by
  simp [hasPoll, List.length_eq_zero_iff, List.filter_eq_nil_iff]

private theorem polls_start (p : TagPoller) : p.start.polls = p.polls := rfl

private theorem polls_stop (p : TagPoller) : p.stop.polls = p.polls := by
  rw [stop]
  split
  · rfl
  · rfl

private theorem isPolling_stop (p : TagPoller) : p.stop.isPolling = false := by
  rw [stop]
  split
  · rfl
  · next hnone => rw [isPolling, hnone, Option.isSome_none]

private theorem alive_stop (h : p.alive = p.interval.toList) :
    p.stop.alive = p.stop.interval.toList := by
  rw [stop]
  split
  · next timer htimer => simp [h, htimer]
  · exact h

private theorem polls_add (p : TagPoller) (tag : String) :
    (p.add tag tag).polls = (p.withPoll tag tag).polls := by
  rw [add]
  split
  · rfl
  · exact polls_start _

private theorem polls_remove (p : TagPoller) (tag : String) :
    (p.remove tag).polls = p.polls.filter (·.tag ≠ tag) := by
  rw [remove]
  split
  · exact polls_stop _
  · rfl

private theorem mem_polls_add : other ∈ (p.add tag tag).polls.map (·.tag) ↔
    other = tag ∨ other ∈ p.polls.map (·.tag) := by
  rw [polls_add, withPoll]
  split
  · next h =>
    have hmem := hasPoll_iff.mp h
    constructor
    · exact .inr
    · rintro (rfl | hother)
      · exact hmem
      · exact hother
  · simp [or_comm, eq_comm]

private theorem mem_polls_remove : other ∈ (p.remove tag).polls.map (·.tag) ↔
    other ≠ tag ∧ other ∈ p.polls.map (·.tag) := by
  rw [polls_remove]
  simp only [List.mem_map, List.mem_filter, decide_eq_true_eq]
  constructor
  · rintro ⟨poll, ⟨hmem, hne⟩, rfl⟩
    exact ⟨hne, poll, hmem, rfl⟩
  · rintro ⟨hne, poll, hmem, rfl⟩
    exact ⟨poll, ⟨hmem, hne⟩, rfl⟩

theorem Consistent.add (h : p.Consistent) (tag : String) : (p.add tag tag).Consistent := by
  have hpolls : (p.withPoll tag tag).polls ≠ [] := by
    rw [withPoll]
    split
    · next hpoll =>
      intro hnil
      have hmem := hasPoll_iff.mp hpoll
      rw [hnil] at hmem
      cases hmem
    · simp
  constructor
  · rw [polls_add, withPoll]
    split
    · exact h.nodup
    · next hpoll =>
      rw [List.map_append]
      apply List.Nodup.append h.nodup (List.nodup_singleton _)
      intro other hother htag
      rw [List.mem_singleton.mp htag] at hother
      exact hpoll (hasPoll_iff.mpr hother)
  · rw [polls_add, withPoll]
    split
    · exact h.bound
    · intro poll hpoll
      cases List.mem_append.mp hpoll with
      | inl hold => exact h.bound poll hold
      | inr hnew => rw [List.mem_singleton.mp hnew]
  · rw [polls_add]
    refine iff_of_true ?_ hpolls
    rw [TagPoller.add]
    split
    · next hpolling => exact hpolling
    · rfl
  · have hinterval : (p.withPoll tag tag).interval = p.interval ∧
        (p.withPoll tag tag).alive = p.alive := by
      rw [withPoll]
      split
      · exact ⟨rfl, rfl⟩
      · exact ⟨rfl, rfl⟩
    rw [TagPoller.add]
    split
    · rw [hinterval.1, hinterval.2, h.timers]
    · next hidle =>
      have hnone : p.interval = none := by
        rw [isPolling, hinterval.1] at hidle
        simpa using hidle
      rw [start, hinterval.2, h.timers, hnone]
      rfl

theorem Consistent.remove (h : p.Consistent) (tag : String) : (p.remove tag).Consistent := by
  constructor
  · rw [polls_remove]
    exact h.nodup.sublist (List.filter_sublist.map _)
  · rw [polls_remove]
    intro poll hpoll
    exact h.bound poll (List.mem_of_mem_filter hpoll)
  · rw [polls_remove, TagPoller.remove]
    split
    · next hnil =>
      rw [isPolling_stop]
      exact iff_of_false Bool.false_ne_true (not_not_intro hnil)
    · next hsome =>
      refine iff_of_true (h.running.mpr ?_) hsome
      intro hnil
      rw [withoutPoll, hnil] at hsome
      exact hsome rfl
  · rw [TagPoller.remove]
    split
    · exact alive_stop h.timers
    · exact h.timers

end TagPoller

namespace TagSubscriptions

variable {same : Bool} {st : TagSubscriptions} {live : List Subscriber} {tag : String}

/-- The poller has a poll for every tag with subscribers. -/
structure Polled (st : TagSubscriptions) : Prop where
  poller : st.poller.Consistent
  polled : ∀ tag, tag ∈ st.poller.polls.map (·.tag) ↔ st.subscribersOf tag ≠ []

/-- The subscribers are those that the calls leave. -/
structure Consistent (st : TagSubscriptions) (live : List Subscriber) : Prop extends Polled st where
  current : ∀ tag, st.subscribersOf tag = live.filter (·.tag = tag)

private theorem consistent_init : Consistent init [] where
  poller := TagPoller.consistent_init
  polled _ := iff_of_false List.not_mem_nil (not_not_intro rfl)
  current _ := rfl

section Subscribe

variable {connection newId : String}

private theorem subscribersOf_set (st : TagSubscriptions) (poller : TagPoller) (tag other : String)
    (subs : List Subscriber) : subscribersOf ⟨st.subscriptions.set tag subs, poller⟩ other =
      if other = tag then subs else st.subscribersOf other := by
  rw [subscribersOf, InsertionMap.get?_set]
  split
  · rfl
  · rfl

private theorem find?_subscribersOf (h : ∀ tag, st.subscribersOf tag = live.filter (·.tag = tag)) :
    ((st.subscribersOf tag).find? fun sub => same ∧ sub.connection = connection) =
      live.find? fun sub => same ∧ sub.tag = tag ∧ sub.connection = connection := by
  rw [h, List.find?_filter]
  congr 1
  funext sub
  simp [and_left_comm]

private theorem Consistent.subscribeTag (h : Consistent st live) (connection tag newId : String) :
    Consistent (st.subscribeTag same connection tag newId).2
      (SubscriptionService.subscribe live connection same tag newId).2 := by
  rw [TagSubscriptions.subscribeTag, SubscriptionService.subscribe, find?_subscribersOf h.current]
  cases live.find? fun sub => same ∧ sub.tag = tag ∧ sub.connection = connection with
  | some existingSub =>
    -- the connection listens already, and its tag keeps the subscribers that it has
    have hsame : ∀ other, subscribersOf ⟨st.subscriptions.set tag (st.subscribersOf tag),
        st.poller⟩ other = st.subscribersOf other := by
      intro other
      rw [subscribersOf_set]
      split
      · next hother => rw [hother]
      · rfl
    constructor
    · constructor
      · exact h.poller
      · intro other
        rw [hsame]
        exact h.polled other
    · intro other
      rw [hsame]
      exact h.current other
  | none =>
    constructor
    · constructor
      · exact h.poller.add tag
      · intro other
        rw [TagPoller.mem_polls_add, subscribersOf_set]
        split
        · next hother => simp [hother]
        · next hother => simpa only [hother, false_or] using h.polled other
    · intro other
      rw [subscribersOf_set, List.filter_append, ← h.current]
      split
      · next hother => simp [hother]
      · next hother => simp [Ne.symm hother]

end Subscribe

section Unsubscribe

variable {connection : String} {subId : Option Json}

private theorem subscribersOf_unsubscribeEntry {acc : ℕ × TagSubscriptions}
    {entry : String × List Subscriber} (other : String) :
    (unsubscribeEntry connection subId acc entry).2.subscribersOf other =
      if other = entry.1 then kept connection subId entry.2 else acc.2.subscribersOf other := by
  rw [unsubscribeEntry]
  split
  · next hnil =>
    rw [subscribersOf, InsertionMap.get?_delete, hnil]
    split
    · rfl
    · rfl
  · exact subscribersOf_set _ _ _ _ _

private theorem Polled.unsubscribeEntry {acc : ℕ × TagSubscriptions}
    {entry : String × List Subscriber}
    (h : Polled acc.2) (hentry : acc.2.subscribersOf entry.1 = entry.2) :
    Polled (unsubscribeEntry connection subId acc entry).2 := by
  constructor
  · rw [TagSubscriptions.unsubscribeEntry]
    split
    · exact h.poller.remove entry.1
    · exact h.poller
  · intro other
    rw [subscribersOf_unsubscribeEntry, TagSubscriptions.unsubscribeEntry]
    split
    · next hnil =>
      rw [TagPoller.mem_polls_remove]
      split
      · next hother => simp [hother, hnil]
      · next hother => simpa [hother] using h.polled other
    · next hsome =>
      split
      · next hother =>
        -- a tag that keeps subscribers had some
        refine iff_of_true ((h.polled other).mpr ?_) hsome
        rw [hother, hentry]
        intro hnil
        rw [hnil] at hsome
        exact hsome rfl
      · exact h.polled other

private theorem unsubscribeEntries {entries : List (String × List Subscriber)}
    (hnodup : (entries.map Prod.fst).Nodup) {acc : ℕ × TagSubscriptions} (h : Polled acc.2)
    (hentries : ∀ entry ∈ entries, acc.2.subscribersOf entry.1 = entry.2) :
    Polled (entries.foldl (unsubscribeEntry connection subId) acc).2 ∧
      ∀ tag, (entries.foldl (unsubscribeEntry connection subId) acc).2.subscribersOf tag =
        if tag ∈ entries.map Prod.fst then kept connection subId (acc.2.subscribersOf tag)
        else acc.2.subscribersOf tag := by
  induction entries generalizing acc with
  | nil => exact ⟨h, fun tag => rfl⟩
  | cons entry entries ih =>
    rw [List.map_cons, List.nodup_cons] at hnodup
    have hentry := hentries entry List.mem_cons_self
    have hrest : ∀ e ∈ entries,
        (unsubscribeEntry connection subId acc entry).2.subscribersOf e.1 = e.2 := by
      intro e he
      have hne : e.1 ≠ entry.1 := by
        intro heq
        exact hnodup.1 (heq ▸ List.mem_map_of_mem he)
      rw [subscribersOf_unsubscribeEntry, if_neg hne]
      exact hentries e (List.mem_cons_of_mem _ he)
    obtain ⟨hpolled, hsubs⟩ := ih hnodup.2 (h.unsubscribeEntry hentry) hrest
    refine ⟨hpolled, fun tag => ?_⟩
    rw [List.foldl_cons, hsubs, subscribersOf_unsubscribeEntry]
    by_cases htag : tag = entry.1
    · subst htag
      simp [hnodup.1, hentry]
    · simp only [htag, if_false, List.map_cons, List.mem_cons, false_or]

private theorem unsubscribe_polled (h : Polled st) (connection : String) (subId : Option Json) :
    Polled (st.unsubscribe connection subId).2 ∧
      ∀ tag, (st.unsubscribe connection subId).2.subscribersOf tag =
        kept connection subId (st.subscribersOf tag) := by
  have hentries : ∀ entry ∈ st.subscriptions.entries, st.subscribersOf entry.1 = entry.2 := by
    intro entry hentry
    rw [subscribersOf, InsertionMap.get?_eq_some_iff.mpr hentry]
    rfl
  obtain ⟨hpolled, hsubs⟩ := @unsubscribeEntries connection subId _ st.subscriptions.nodup (0, st) h
    hentries
  refine ⟨hpolled, fun tag => ?_⟩
  rw [unsubscribe, hsubs]
  split
  · rfl
  · next hnone =>
    have hnil : st.subscribersOf tag = [] := by
      rw [subscribersOf]
      cases hget : st.subscriptions.get? tag with
      | none => rfl
      | some subs =>
        exact absurd (List.mem_map_of_mem (InsertionMap.get?_eq_some_iff.mp hget)) hnone
    rw [hnil]
    rfl

theorem Consistent.unsubscribe (h : Consistent st live) (connection : String)
    (subId : Option Json) : Consistent (st.unsubscribe connection subId).2
      (SubscriptionService.unsubscribe live connection subId).2 := by
  obtain ⟨hpolled, hsubs⟩ := unsubscribe_polled h.toPolled connection subId
  refine ⟨hpolled, fun tag => ?_⟩
  rw [hsubs, h.current, kept, SubscriptionService.unsubscribe, List.filter_filter,
    List.filter_filter]
  congr 1
  funext sub
  exact Bool.and_comm _ _

end Unsubscribe

theorem Consistent.perform (h : Consistent st live) (call : SubscriptionCall) :
    Consistent (st.perform same call) (subscribersAfter same live call) := by
  cases call with
  | subscribe connection event filters newId =>
    exact h.subscribeTag connection (subscriptionTag event filters) newId
  | unsubscribe connection subId => exact h.unsubscribe connection subId

private theorem consistent_foldl (h : Consistent st live) (calls : List SubscriptionCall) :
    Consistent (calls.foldl (perform same) st) (calls.foldl (subscribersAfter same) live) := by
  induction calls generalizing st live with
  | nil => exact h
  | cons call calls ih => exact ih (h.perform call)

section Notify

variable {κ : Type} (cache : RecentCache κ) (createHash : String → String)

/-- A callback comes to every subscriber, in their order. -/
theorem map_fst_notifyEach (data : Json) (k : κ) (subs : List Subscriber) :
    (notifyEach cache createHash data k subs).map Prod.fst = subs := by
  induction subs generalizing k with
  | nil => rfl
  | cons sub subs ih => rw [notifyEach, List.map_cons, ih]

private theorem notifyOne_fst (data : Json) (k : κ) (sub : Subscriber) :
    (notifyOne cache createHash data k sub).1 =
      if (cache.get k (createHash (subscriptionData data sub).stringify)).1 then none
      else some (notification data sub) := by
  rw [notifyOne]
  dsimp only
  split
  · rfl
  · rfl

private theorem getElem?_notifyEach (data : Json) (k : κ) (before after : List Subscriber)
    (sub : Subscriber) :
    (notifyEach cache createHash data k (before ++ sub :: after))[before.length]? = some (sub,
      (notifyOne cache createHash data
        (before.foldl (fun k sub => (notifyOne cache createHash data k sub).2) k) sub).1) := by
  induction before generalizing k with
  | nil => rfl
  | cons first before ih => exact ih _

end Notify

/-- Polls, timer and subscribers agree after every call. -/
theorem polls_match_subscriptions (sameSubForSameEvent : Bool) (calls : List SubscriptionCall) :
    PollsMatch (performAll sameSubForSameEvent calls)
      (calls.foldl (subscribersAfter sameSubForSameEvent) []) := by
  have h := @consistent_foldl sameSubForSameEvent _ _ consistent_init calls
  constructor
  · exact h.current
  · exact h.poller.nodup
  · exact h.polled
  · intro poll hpoll κ cache createHash k data
    rw [notifySubscribers, map_fst_notifyEach, h.poller.bound poll hpoll]
  · intro poll hpoll κ cache createHash k data before sub after hsubs
    rw [notifySubscribers, h.poller.bound poll hpoll, hsubs, getElem?_notifyEach, notifyOne_fst]
  · exact h.poller.running
  · exact h.poller.timers

end TagSubscriptions

end JsonRpcRelay.WsServer

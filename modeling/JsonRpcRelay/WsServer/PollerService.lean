import JsonRpcRelay.WsServer.SubscriptionService
import Mathlib.Logic.Function.Basic

/-!
# The poller

Polling ticks, block production and calls of `getLogs` in any order.  A block number that a tick
gets may be an old one, and the logs that a call returns are those up to the latest block at some
time between its start and its end.  For each subscription the run keeps the latest block when it
was made, and the newest block that a successful poll of its tag has seen since.
-/

namespace JsonRpcRelay.WsServer

open Framework

/-- A poll is told apart from a later one with the same tag by a number. -/
structure Poll where
  id : ℕ
  tag : String
  lastPolled : Option ℕ

/-- A call of `getLogs` in flight, with the latest block when it was started. -/
structure LogsCall where
  poll : ℕ
  tag : String
  fromBlock : ℕ
  started : ℕ

def LogsCall.isOf (call : LogsCall) (poll : Poll) : Bool :=
  poll.id = call.poll ∧ poll.tag = call.tag

/-- The hashes of what was sent, and what was sent under the id of a subscription. -/
structure Outbox (Log Hash : Type) where
  cache : List Hash
  sent : List (String × Log)

structure PollerState (Log Hash : Type) where
  head : ℕ
  latestBlock : Option ℕ
  polls : List Poll
  nextPoll : ℕ
  calls : List LogsCall
  subscriptions : List Subscriber
  outbox : Outbox Log Hash
  evicted : List Hash
  since : String → ℕ
  seen : String → ℕ

/-- A call in flight is given by its place. -/
inductive PollerEvent (Hash : Type) where
  | produce
  | subscribe (connection tag newId : String)
  | unsubscribe (connection : String) (subId : Option Json)
  | tick (block : ℕ)
  | fail (place : ℕ)
  | complete (place upTo : ℕ)
  | evict (hash : Hash)

section Sending

variable {Log Hash : Type} [DecidableEq Hash] (createHash : String × Log → Hash)
  (subs : List Subscriber) (tag : String)

/-- What is in the cache was sent recently. -/
def sendTo (log : Log) (o : Outbox Log Hash) (sub : Subscriber) : Outbox Log Hash :=
  let hash := createHash (sub.subscriptionId, log)
  if hash ∈ o.cache then o else ⟨hash :: o.cache, o.sent ++ [(sub.subscriptionId, log)]⟩

def notifySubscribers (o : Outbox Log Hash) (log : Log) : Outbox Log Hash :=
  (subs.filter fun sub => sub.tag = tag).foldl (sendTo createHash log) o

def deliver (logs : List Log) (o : Outbox Log Hash) : Outbox Log Hash :=
  logs.foldl (notifySubscribers createHash subs tag) o

end Sending

namespace PollerState

variable {Log Hash : Type} [DecidableEq Hash] (createHash : String × Log → Hash)
  (sameSubForSameEvent : Bool) (matching : (tag : String) → (block : ℕ) → List Log)

/-- Nobody has subscribed yet. -/
def init (head : ℕ) : PollerState Log Hash :=
  ⟨head, none, [], 0, [], [], ⟨[], []⟩, [], fun _ => 0, fun _ => 0⟩

variable (s : PollerState Log Hash)

/-- `pollerService.add`. -/
def addPoll (tag : String) : PollerState Log Hash :=
  if s.polls.any fun poll => poll.tag = tag then s
  else { s with polls := s.polls ++ [⟨s.nextPoll, tag, none⟩], nextPoll := s.nextPoll + 1 }

/-- The id is one that has not been used, as it is drawn at random. -/
def isFresh (newId : String) : Bool :=
  s.subscriptions.all (fun sub => sub.subscriptionId ≠ newId) ∧
    s.outbox.sent.all fun entry => entry.1 ≠ newId

def subscribe (connection tag newId : String) : PollerState Log Hash :=
  let (id, subs) :=
    SubscriptionService.subscribe s.subscriptions connection sameSubForSameEvent tag newId
  if id = newId then
    addPoll { s with
      subscriptions := subs
      since := Function.update s.since newId s.head
      seen := Function.update s.seen newId s.head } tag
  else s

/-- Polls whose last subscriber is gone are removed. -/
def unsubscribe (connection : String) (subId : Option Json) : PollerState Log Hash :=
  let left := (SubscriptionService.unsubscribe s.subscriptions connection subId).2
  { s with
    subscriptions := left
    polls := s.polls.filter fun poll =>
      (s.subscriptions.any fun sub => sub.tag = poll.tag) → left.any fun sub => sub.tag = poll.tag }

/-- The field is written, and every poll starts a call. -/
def tick (block : ℕ) : PollerState Log Hash :=
  { s with
    latestBlock := some block
    calls := s.calls ++ s.polls.map fun poll =>
      ⟨poll.id, poll.tag, poll.lastPolled.getD block, s.head⟩ }

/-- The logs that a call returns. -/
def returnedLogs (call : LogsCall) (upTo : ℕ) : List Log :=
  (List.range' call.fromBlock (upTo + 1 - call.fromBlock)).flatMap (matching call.tag)

/-- The cursor is set to the field as it is now, and the logs are delivered. -/
def complete (call : LogsCall) (place upTo : ℕ) : PollerState Log Hash :=
  { s with
    calls := s.calls.eraseIdx place
    polls := s.polls.map fun poll =>
      if call.isOf poll then { poll with lastPolled := s.latestBlock } else poll
    outbox := deliver createHash s.subscriptions call.tag (returnedLogs matching call upTo) s.outbox
    seen := fun id =>
      if s.subscriptions.any fun sub => sub.tag = call.tag ∧ sub.subscriptionId = id then
        max (s.seen id) upTo
      else s.seen id }

def step : PollerEvent Hash → Option (PollerState Log Hash)
  | .produce => some { s with head := s.head + 1 }
  | .subscribe connection tag newId =>
      if s.isFresh newId then some (s.subscribe sameSubForSameEvent connection tag newId) else none
  | .unsubscribe connection subId => some (s.unsubscribe connection subId)
  | .tick block => if block ≤ s.head then some (s.tick block) else none
  | .fail place =>
      if place < s.calls.length then some { s with calls := s.calls.eraseIdx place } else none
  | .complete place upTo =>
      match s.calls[place]? with
      | some call =>
          if call.started ≤ upTo ∧ upTo ≤ s.head then
            some (s.complete createHash matching call place upTo)
          else none
      | none => none
  | .evict hash =>
      if hash ∈ s.outbox.cache then
        some { s with
          outbox := { s.outbox with cache := s.outbox.cache.filter (· ≠ hash) }
          evicted := hash :: s.evicted }
      else none

end PollerState

end JsonRpcRelay.WsServer

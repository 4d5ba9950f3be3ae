import JsonRpcRelay.Framework.Schedule
import JsonRpcRelay.WsServer.PollerService

/-!
# What subscribers are sent

Nothing is sent twice while its hash stays in the cache.  A subscriber is sent all matching logs
of the blocks that a successful poll has seen, as long as the cursor of its tag is never set, or
taken from the shared field at first, beyond the first block that no poll has seen.
-/

namespace JsonRpcRelay.WsServer

open Framework

section Sending

variable {Log Hash : Type} [DecidableEq Log] [DecidableEq Hash] {createHash : String × Log → Hash}
  {evicted : List Hash} {o : Outbox Log Hash} {log : Log} {logs : List Log} {tag : String}
  {subs : List Subscriber} {sub : Subscriber} {entry : String × Log}

/-- What was sent has been evicted as often, except for what is still in the cache. -/
def Accounted (createHash : String × Log → Hash) (evicted : List Hash) (o : Outbox Log Hash) :
    Prop :=
  ∀ entry, o.sent.count entry =
    evicted.count (createHash entry) + if createHash entry ∈ o.cache then 1 else 0

private theorem Accounted.mem_sent (h : Accounted createHash evicted o)
    (hcached : createHash entry ∈ o.cache) : entry ∈ o.sent := by
  have hcount := h entry
  rw [if_pos hcached] at hcount
  exact List.count_pos_iff.mp (by omega)

/-- What one step of sending does: `entry` is sent unless it is in the cache. -/
structure Sends (createHash : String × Log → Hash) (evicted : List Hash)
    (entries : List (String × Log)) (o o' : Outbox Log Hash) : Prop where
  accounted : Accounted createHash evicted o'
  kept : ∀ entry ∈ o.sent, entry ∈ o'.sent
  sent : ∀ entry ∈ entries, entry ∈ o'.sent

theorem Sends.append {entries more : List (String × Log)} {o' o'' : Outbox Log Hash}
    (h : Sends createHash evicted entries o o') (h' : Sends createHash evicted more o' o'') :
    Sends createHash evicted (entries ++ more) o o'' where
  accounted := h'.accounted
  kept entry hentry := h'.kept entry (h.kept entry hentry)
  sent entry hentry := by
    obtain hfirst | hrest := List.mem_append.mp hentry
    · exact h'.kept entry (h.sent entry hfirst)
    · exact h'.sent entry hrest

variable (hinj : Function.Injective createHash)
include hinj

private theorem sends_sendTo (h : Accounted createHash evicted o) :
    Sends createHash evicted [(sub.subscriptionId, log)] o (sendTo createHash log o sub) := by
  unfold sendTo
  dsimp only
  split
  · rename_i hcached
    refine ⟨h, fun _ hentry => hentry, fun entry hentry => ?_⟩
    rw [List.mem_singleton.mp hentry]
    exact h.mem_sent hcached
  · rename_i hnew
    refine ⟨fun entry => ?_, fun entry hentry => List.mem_append_left _ hentry,
      fun entry hentry => List.mem_append_right _ hentry⟩
    have hcount := h entry
    rw [List.count_append]
    by_cases hentry : entry = (sub.subscriptionId, log)
    · subst hentry
      rw [if_neg hnew] at hcount
      simp [hcount]
    · have hhash : createHash entry ≠ createHash (sub.subscriptionId, log) :=
        fun heq => hentry (hinj heq)
      simp [hcount, hhash, Ne.symm hentry]

private theorem sends_foldl (h : Accounted createHash evicted o) :
    Sends createHash evicted (subs.map fun sub => (sub.subscriptionId, log)) o
      (subs.foldl (sendTo createHash log) o) := by
  induction subs generalizing o with
  | nil => exact ⟨h, fun _ hentry => hentry, fun _ hentry => by cases hentry⟩
  | cons sub subs ih =>
    have hfirst : Sends createHash evicted [(sub.subscriptionId, log)] o
        (sendTo createHash log o sub) := sends_sendTo hinj h
    exact hfirst.append (ih hfirst.accounted)

theorem sends_deliver (h : Accounted createHash evicted o) :
    Sends createHash evicted
      (logs.flatMap fun log => (subs.filter fun sub => sub.tag = tag).map fun sub =>
        (sub.subscriptionId, log)) o (deliver createHash subs tag logs o) := by
  unfold deliver
  induction logs generalizing o with
  | nil => exact ⟨h, fun _ hentry => hentry, fun _ hentry => by cases hentry⟩
  | cons log logs ih =>
    have hfirst : Sends createHash evicted
        ((subs.filter fun sub => sub.tag = tag).map fun sub => (sub.subscriptionId, log)) o
        (notifySubscribers createHash subs tag o log) := sends_foldl hinj h
    exact hfirst.append (ih hfirst.accounted)

private theorem mem_sent_deliver (h : Accounted createHash evicted o) (hsub : sub ∈ subs)
    (htag : sub.tag = tag) (hlog : log ∈ logs) :
    (sub.subscriptionId, log) ∈ (deliver createHash subs tag logs o).sent := by
  apply (sends_deliver hinj h).sent
  rw [List.mem_flatMap]
  exact ⟨log, hlog, List.mem_map.mpr ⟨sub, List.mem_filter.mpr ⟨hsub, by simpa using htag⟩, rfl⟩⟩

end Sending

section Delivery

variable {Log Hash : Type} [DecidableEq Log] [DecidableEq Hash] (createHash : String × Log → Hash)
  (same : Bool) (matching : (tag : String) → (block : ℕ) → List Log) (id : String)

/-- The logs of the tag in the blocks that a poll has seen are sent, and no cursor is beyond the
first block that no poll has seen. -/
structure Covered (tag : String) (s : PollerState Log Hash) : Prop where
  seen_le : s.seen id ≤ s.head
  cursor : ∀ poll ∈ s.polls, poll.tag = tag → ∀ n, poll.lastPolled = some n → n ≤ s.seen id + 1
  calls : ∀ call ∈ s.calls, call.tag = tag → call.fromBlock ≤ s.seen id + 1
  delivered : ∀ b, s.since id < b → b ≤ s.seen id → ∀ log ∈ matching tag b,
    (id, log) ∈ s.outbox.sent

structure Delivering (s : PollerState Log Hash) : Prop where
  accounted : Accounted createHash s.evicted s.outbox
  latest : ∀ n, s.latestBlock = some n → n ≤ s.head
  cursors : ∀ poll ∈ s.polls, ∀ n, poll.lastPolled = some n → n ≤ s.head
  calls : ∀ call ∈ s.calls, call.fromBlock ≤ s.head
  unique : ∀ sub ∈ s.subscriptions, ∀ sub' ∈ s.subscriptions, sub.subscriptionId = id →
    sub'.subscriptionId = id → sub.tag = sub'.tag
  covered : ∀ sub ∈ s.subscriptions, sub.subscriptionId = id → Covered matching id sub.tag s

/-- A tick that starts the first call of the tag has a block number that is at most one above
what was seen, and so has the field when the cursor of the tag is set. -/
def KeepsUp (s : PollerState Log Hash) : PollerEvent Hash → Prop
  | .tick block => ∀ sub ∈ s.subscriptions, sub.subscriptionId = id → ∀ poll ∈ s.polls,
      poll.tag = sub.tag → poll.lastPolled = none → block ≤ s.seen id + 1
  | .complete place upTo => ∀ call, s.calls[place]? = some call → s.polls.any call.isOf = true →
      ∀ sub ∈ s.subscriptions, sub.subscriptionId = id → sub.tag = call.tag →
        ∀ n, s.latestBlock = some n → n ≤ max (s.seen id) upTo + 1
  | _ => True

variable {createHash same matching id} {s : PollerState Log Hash}

theorem Delivering.produce (h : Delivering createHash matching id s) :
    Delivering createHash matching id { s with head := s.head + 1 } where
  accounted := h.accounted
  latest n hn := Nat.le_succ_of_le (h.latest n hn)
  cursors poll hpoll n hn := Nat.le_succ_of_le (h.cursors poll hpoll n hn)
  calls call hcall := Nat.le_succ_of_le (h.calls call hcall)
  unique := h.unique
  covered sub hsub hid :=
    { h.covered sub hsub hid with seen_le := Nat.le_succ_of_le (h.covered sub hsub hid).seen_le }

/-- A call ends without a result. -/
theorem Delivering.fail (h : Delivering createHash matching id s) (place : ℕ) :
    Delivering createHash matching id { s with calls := s.calls.eraseIdx place } where
  accounted := h.accounted
  latest := h.latest
  cursors := h.cursors
  calls call hcall := h.calls call (List.mem_of_mem_eraseIdx hcall)
  unique := h.unique
  covered sub hsub hid :=
    { h.covered sub hsub hid with
      calls := fun call hcall =>
        (h.covered sub hsub hid).calls call (List.mem_of_mem_eraseIdx hcall) }

theorem Delivering.unsubscribe (h : Delivering createHash matching id s) (connection : String)
    (subId : Option Json) :
    Delivering createHash matching id (s.unsubscribe connection subId) where
  accounted := h.accounted
  latest := h.latest
  cursors poll hpoll := h.cursors poll (List.mem_of_mem_filter hpoll)
  calls := h.calls
  unique sub hsub sub' hsub' :=
    h.unique sub (List.mem_of_mem_filter hsub) sub' (List.mem_of_mem_filter hsub')
  covered sub hsub hid :=
    { h.covered sub (List.mem_of_mem_filter hsub) hid with
      cursor := fun poll hpoll => (h.covered sub (List.mem_of_mem_filter hsub) hid).cursor poll
        (List.mem_of_mem_filter hpoll) }

theorem Delivering.evict (h : Delivering createHash matching id s) {hash : Hash}
    (hcached : hash ∈ s.outbox.cache) :
    Delivering createHash matching id { s with
      outbox := { s.outbox with cache := s.outbox.cache.filter (· ≠ hash) }
      evicted := hash :: s.evicted } where
  accounted entry := by
    have hcount := h.accounted entry
    by_cases hentry : createHash entry = hash
    · rw [hentry, if_pos hcached] at hcount
      simp [hentry, hcount]
    · simp [hcount, hentry, Ne.symm hentry]
  latest := h.latest
  cursors := h.cursors
  calls := h.calls
  unique := h.unique
  covered sub hsub hid := { h.covered sub hsub hid with }

private theorem fromBlock_le {cursor : Option ℕ} {block bound : ℕ}
    (hnone : cursor = none → block ≤ bound)
    (hsome : ∀ n, cursor = some n → n ≤ bound) : cursor.getD block ≤ bound := by
  cases cursor with
  | none => exact hnone rfl
  | some n => exact hsome n rfl

theorem Delivering.tick (h : Delivering createHash matching id s) {block : ℕ}
    (hle : block ≤ s.head) (hkeeps : KeepsUp id s (.tick block)) :
    Delivering createHash matching id (s.tick block) where
  accounted := h.accounted
  latest n hn := by
    obtain rfl := Option.some.inj hn
    exact hle
  cursors := h.cursors
  calls call hcall := by
    obtain hold | hnew := List.mem_append.mp hcall
    · exact h.calls call hold
    · obtain ⟨poll, hpoll, rfl⟩ := List.mem_map.mp hnew
      exact fromBlock_le (fun _ => hle) (h.cursors poll hpoll)
  unique := h.unique
  covered sub hsub hid :=
    { h.covered sub hsub hid with
      calls := by
        intro call hcall htag
        obtain hold | hnew := List.mem_append.mp hcall
        · exact (h.covered sub hsub hid).calls call hold htag
        · obtain ⟨poll, hpoll, rfl⟩ := List.mem_map.mp hnew
          exact fromBlock_le (hkeeps sub hsub hid poll hpoll htag)
            ((h.covered sub hsub hid).cursor poll hpoll htag) }

theorem Delivering.addPoll (h : Delivering createHash matching id s) (tag : String) :
    Delivering createHash matching id (s.addPoll tag) := by
  unfold PollerState.addPoll
  split
  · exact h
  · have hpolls : ∀ poll ∈ s.polls ++ [⟨s.nextPoll, tag, none⟩], ∀ n, poll.lastPolled = some n →
        poll ∈ s.polls := by
      intro poll hpoll n hn
      obtain hold | hnew := List.mem_append.mp hpoll
      · exact hold
      · rw [List.mem_singleton.mp hnew] at hn
        cases hn
    exact
      { h with
        cursors := fun poll hpoll n hn => h.cursors poll (hpolls poll hpoll n hn) n hn
        covered := fun sub hsub hid =>
          { h.covered sub hsub hid with
            cursor := fun poll hpoll htag n hn =>
              (h.covered sub hsub hid).cursor poll (hpolls poll hpoll n hn) htag n hn } }

private theorem Delivering.newSubscriber (h : Delivering createHash matching id s) {newId : String}
    (hfresh : s.isFresh newId = true) (connection tag : String) :
    Delivering createHash matching id { s with
      subscriptions := s.subscriptions ++ [⟨tag, connection, newId⟩]
      since := Function.update s.since newId s.head
      seen := Function.update s.seen newId s.head } := by
  have hunused : ∀ sub ∈ s.subscriptions, sub.subscriptionId ≠ newId := by
    have hall := (of_decide_eq_true hfresh).1
    simpa using hall
  have hcases : ∀ sub ∈ s.subscriptions ++ [(⟨tag, connection, newId⟩ : Subscriber)],
      sub.subscriptionId = id →
        sub ∈ s.subscriptions ∧ id ≠ newId ∨ sub = ⟨tag, connection, newId⟩ ∧ id = newId := by
    intro sub hsub hid
    obtain hold | hnew := List.mem_append.mp hsub
    · exact .inl ⟨hold, hid ▸ hunused sub hold⟩
    · obtain rfl := List.mem_singleton.mp hnew
      exact .inr ⟨rfl, hid.symm⟩
  refine { h with unique := ?_, covered := ?_ }
  · intro sub hsub sub' hsub' hid hid'
    obtain ⟨hold, hne⟩ | ⟨rfl, heq⟩ := hcases sub hsub hid
    · obtain ⟨hold', _⟩ | ⟨rfl, heq'⟩ := hcases sub' hsub' hid'
      · exact h.unique sub hold sub' hold' hid hid'
      · exact absurd heq' hne
    · obtain ⟨_, hne'⟩ | ⟨rfl, _⟩ := hcases sub' hsub' hid'
      · exact absurd heq hne'
      · rfl
  · intro sub hsub hid
    obtain ⟨hold, hne⟩ | ⟨rfl, rfl⟩ := hcases sub hsub hid
    · have hcovered := h.covered sub hold hid
      refine ⟨?_, ?_, ?_, ?_⟩ <;> simp only [Function.update_of_ne hne]
      · exact hcovered.seen_le
      · exact hcovered.cursor
      · exact hcovered.calls
      · exact hcovered.delivered
    · refine ⟨?_, ?_, ?_, ?_⟩ <;> simp only [Function.update_self]
      · exact le_refl _
      · exact fun poll hpoll _ n hn => Nat.le_succ_of_le (h.cursors poll hpoll n hn)
      · exact fun call hcall _ => Nat.le_succ_of_le (h.calls call hcall)
      · intro b hlt hle
        omega

theorem Delivering.subscribe (h : Delivering createHash matching id s) {newId : String}
    (hfresh : s.isFresh newId = true) (connection tag : String) :
    Delivering createHash matching id (s.subscribe same connection tag newId) := by
  unfold PollerState.subscribe SubscriptionService.subscribe
  cases hfound : s.subscriptions.find? fun sub =>
      same ∧ sub.tag = tag ∧ sub.connection = connection with
  | none =>
    dsimp only
    rw [if_pos rfl]
    exact (h.newSubscriber hfresh connection tag).addPoll tag
  | some existingSub =>
    have hunused : existingSub.subscriptionId ≠ newId := by
      have hall := (of_decide_eq_true hfresh).1
      have hne := List.all_eq_true.mp hall existingSub (List.mem_of_find?_eq_some hfound)
      simpa using hne
    dsimp only
    rw [if_neg hunused]
    exact h

private theorem Delivering.seen_complete (h : Delivering createHash matching id s) {call : LogsCall}
    {place upTo : ℕ} {sub : Subscriber} (hsub : sub ∈ s.subscriptions)
    (hid : sub.subscriptionId = id) :
    (s.complete createHash matching call place upTo).seen id =
      if sub.tag = call.tag then max (s.seen id) upTo else s.seen id := by
  have hany : (s.subscriptions.any fun sub => sub.tag = call.tag ∧ sub.subscriptionId = id) = true ↔
      sub.tag = call.tag := by
    simp only [List.any_eq_true, decide_eq_true_eq]
    constructor
    · intro ⟨sub', hsub', htag, hid'⟩
      rw [h.unique sub hsub sub' hsub' hid hid', htag]
    · exact fun htag => ⟨sub, hsub, htag, hid⟩
  simp only [PollerState.complete, hany]

omit [DecidableEq Log] in
private theorem cursor_complete {call : LogsCall} {place upTo : ℕ} {poll : Poll}
    (hpoll : poll ∈ (s.complete createHash matching call place upTo).polls) :
    poll ∈ s.polls ∨ poll.tag = call.tag ∧ poll.lastPolled = s.latestBlock ∧
      s.polls.any call.isOf = true := by
  obtain ⟨old, hold, rfl⟩ := List.mem_map.mp hpoll
  by_cases hof : call.isOf old = true
  · rw [if_pos hof]
    exact .inr ⟨(of_decide_eq_true hof).2, rfl, List.any_eq_true.mpr ⟨old, hold, hof⟩⟩
  · rw [if_neg hof]
    exact .inl hold

omit [DecidableEq Log] in
private theorem mem_returnedLogs {call : LogsCall} {upTo b : ℕ} (hfrom : call.fromBlock ≤ b)
    (hupTo : b ≤ upTo) {log : Log} (hlog : log ∈ matching call.tag b) :
    log ∈ PollerState.returnedLogs matching call upTo := by
  rw [PollerState.returnedLogs, List.mem_flatMap]
  exact ⟨b, List.mem_range'_1.mpr ⟨hfrom, by omega⟩, hlog⟩

theorem Covered.complete (hinj : Function.Injective createHash)
    (h : Delivering createHash matching id s) {call : LogsCall} {place upTo : ℕ}
    (hcall : s.calls[place]? = some call) (hhead : upTo ≤ s.head)
    (hkeeps : KeepsUp id s (.complete place upTo)) {sub : Subscriber}
    (hsub : sub ∈ s.subscriptions) (hid : sub.subscriptionId = id) :
    Covered matching id sub.tag (s.complete createHash matching call place upTo) := by
  have hcovered := h.covered sub hsub hid
  have hmem : call ∈ s.calls := List.mem_of_getElem? hcall
  have hseen : (s.complete createHash matching call place upTo).seen id =
      if sub.tag = call.tag then max (s.seen id) upTo else s.seen id := h.seen_complete hsub hid
  have hle : s.seen id ≤ (s.complete createHash matching call place upTo).seen id := by
    rw [hseen]
    split
    · exact le_max_left _ _
    · exact le_refl _
  refine ⟨?_, ?_, ?_, ?_⟩
  · rw [hseen]
    split
    · exact max_le hcovered.seen_le hhead
    · exact hcovered.seen_le
  · intro poll hpoll htag n hn
    obtain hold | ⟨htag', hlast, hany⟩ := cursor_complete hpoll
    · have hcursor := hcovered.cursor poll hold htag n hn
      omega
    · have hsame : sub.tag = call.tag := by rw [← htag, htag']
      rw [hseen, if_pos hsame]
      exact hkeeps call hcall hany sub hsub hid hsame n (by rw [← hlast, hn])
  · intro other hother htag
    have hfrom := hcovered.calls other (List.mem_of_mem_eraseIdx hother) htag
    omega
  · intro b hlt hb log hlog
    by_cases hold : b ≤ s.seen id
    · exact (sends_deliver hinj h.accounted).kept _ (hcovered.delivered b hlt hold log hlog)
    · rw [hseen] at hb
      split at hb
      · rename_i hsame
        have hfrom := hcovered.calls call hmem hsame.symm
        rw [hsame] at hlog
        have hreturned : log ∈ PollerState.returnedLogs matching call upTo :=
          mem_returnedLogs (by omega) (by omega) hlog
        rw [← hid]
        exact mem_sent_deliver hinj h.accounted hsub hsame hreturned
      · exact absurd hb hold

theorem Delivering.complete (hinj : Function.Injective createHash)
    (h : Delivering createHash matching id s) {call : LogsCall} {place upTo : ℕ}
    (hcall : s.calls[place]? = some call) (hhead : upTo ≤ s.head)
    (hkeeps : KeepsUp id s (.complete place upTo)) :
    Delivering createHash matching id (s.complete createHash matching call place upTo) where
  accounted := (sends_deliver hinj h.accounted).accounted
  latest := h.latest
  cursors poll hpoll n hn := by
    obtain hold | ⟨_, hlast, _⟩ := cursor_complete hpoll
    · exact h.cursors poll hold n hn
    · exact h.latest n (by rw [← hlast, hn])
  calls other hother := h.calls other (List.mem_of_mem_eraseIdx hother)
  unique := h.unique
  covered _ hsub hid := Covered.complete hinj h hcall hhead hkeeps hsub hid

theorem Delivering.step (hinj : Function.Injective createHash)
    (h : Delivering createHash matching id s) {e : PollerEvent Hash} (hkeeps : KeepsUp id s e)
    {t : PollerState Log Hash} (hstep : s.step createHash same matching e = some t) :
    Delivering createHash matching id t := by
  cases e with
  | produce =>
    obtain rfl := Option.some.inj hstep
    exact h.produce
  | subscribe connection tag newId =>
    simp only [PollerState.step, Option.ite_none_right_eq_some] at hstep
    obtain ⟨hfresh, hstep⟩ := hstep
    obtain rfl := Option.some.inj hstep
    exact h.subscribe hfresh connection tag
  | unsubscribe connection subId =>
    obtain rfl := Option.some.inj hstep
    exact h.unsubscribe connection subId
  | tick block =>
    simp only [PollerState.step, Option.ite_none_right_eq_some] at hstep
    obtain ⟨hle, hstep⟩ := hstep
    obtain rfl := Option.some.inj hstep
    exact h.tick hle hkeeps
  | fail place =>
    simp only [PollerState.step, Option.ite_none_right_eq_some] at hstep
    obtain ⟨_, hstep⟩ := hstep
    obtain rfl := Option.some.inj hstep
    exact h.fail place
  | complete place upTo =>
    rw [PollerState.step] at hstep
    cases hcall : s.calls[place]? with
    | none =>
      rw [hcall] at hstep
      cases hstep
    | some call =>
      simp only [hcall, Option.ite_none_right_eq_some] at hstep
      obtain ⟨⟨_, hhead⟩, hstep⟩ := hstep
      obtain rfl := Option.some.inj hstep
      exact h.complete hinj hcall hhead hkeeps
  | evict hash =>
    simp only [PollerState.step, Option.ite_none_right_eq_some] at hstep
    obtain ⟨hcached, hstep⟩ := hstep
    obtain rfl := Option.some.inj hstep
    exact h.evict hcached

private theorem delivering_init (head : ℕ) :
    Delivering createHash matching id (.init head : PollerState Log Hash) where
  accounted entry := by simp [PollerState.init]
  latest n hn := by cases hn
  cursors poll hpoll := by cases hpoll
  calls call hcall := by cases hcall
  unique sub hsub := by cases hsub
  covered sub hsub := by cases hsub

/-- In a run in which the polls of a subscription keep up, the subscriber has been sent all logs
of the blocks that a successful poll has seen since it subscribed; and whatever was sent has been
evicted from the cache as often, unless it is still there. -/
theorem logs_delivered (hinj : Function.Injective createHash) (head : ℕ)
    {es : List (PollerEvent Hash)} {s : PollerState Log Hash}
    (hkeeps : Along (PollerState.step createHash same matching) (KeepsUp id) (.init head) es)
    (hrun : exec (PollerState.step createHash same matching) (.init head) es = some s) :
    (∀ sub ∈ s.subscriptions, sub.subscriptionId = id → ∀ b, s.since id < b → b ≤ s.seen id →
      ∀ log ∈ matching sub.tag b, (id, log) ∈ s.outbox.sent) ∧
    ∀ log, s.outbox.sent.count (id, log) = s.evicted.count (createHash (id, log)) +
      if createHash (id, log) ∈ s.outbox.cache then 1 else 0 := by
  have hdelivering : Delivering createHash matching id s :=
    run_invariant (I := Delivering createHash matching id)
      (fun _ _ _ h hkeeps hstep => h.step hinj hkeeps hstep) (delivering_init head) hkeeps hrun
  exact ⟨fun sub hsub hid => (hdelivering.covered sub hsub hid).delivered,
    fun log => hdelivering.accounted (id, log)⟩

end Delivery

section Runs

/-- One matching log in each block. -/
def oneLog (_ : String) (block : ℕ) : List ℕ := [block]

def pollerStep : PollerState ℕ (String × ℕ) → PollerEvent (String × ℕ) →
    Option (PollerState ℕ (String × ℕ)) :=
  PollerState.step id true oneLog

/-- The first tick comes right after the first block. -/
def promptRun : List (PollerEvent (String × ℕ)) :=
  [.subscribe "c" "logs" "0x1", .produce, .tick 1, .complete 0 1]

theorem logs_delivered_prompt : ∃ s, exec pollerStep (.init 0) promptRun = some s ∧
    s.since "0x1" = 0 ∧ s.seen "0x1" = 1 ∧ ("0x1", 1) ∈ s.outbox.sent := by
  have hkeeps : Along pollerStep (KeepsUp "0x1") (.init 0) promptRun := by
    refine Along.cons rfl trivial (Along.cons rfl trivial (Along.cons rfl ?_
      (Along.cons rfl ?_ trivial)))
    · intro sub _ _ poll _ _ _
      decide
    · intro call _ _ sub _ _ _ n hn
      obtain rfl := Option.some.inj hn
      decide
  have hdelivered := (logs_delivered Function.injective_id 0 hkeeps rfl).1
    ⟨"logs", "c", "0x1"⟩ List.mem_cons_self rfl 1 (by decide) (by decide) 1 List.mem_cons_self
  exact ⟨_, rfl, rfl, rfl, hdelivered⟩

/-- Two blocks are produced before the first tick. -/
def lateRun : List (PollerEvent (String × ℕ)) :=
  [.subscribe "c" "logs" "0x1", .produce, .produce, .tick 2, .complete 0 2]

/-- A call takes longer than the interval, and the call that a later tick started fails. -/
def slowRun : List (PollerEvent (String × ℕ)) :=
  [.subscribe "c" "logs" "0x1", .tick 0, .complete 0 0, .produce, .tick 1, .produce, .produce,
    .tick 3, .complete 0 1, .fail 0, .tick 3, .complete 0 3]

/-- Logs of blocks that a successful poll has seen are not sent: that of the first block after the
subscription, and that of a block between two calls. -/
theorem log_passed_by : (∃ s, exec pollerStep (.init 0) lateRun = some s ∧
      s.since "0x1" < 1 ∧ 1 ≤ s.seen "0x1" ∧ ("0x1", 1) ∉ s.outbox.sent) ∧
    ∃ s, exec pollerStep (.init 0) slowRun = some s ∧
      s.since "0x1" < 2 ∧ 2 ≤ s.seen "0x1" ∧ ("0x1", 2) ∉ s.outbox.sent := by
  refine ⟨⟨_, rfl, ?_⟩, ⟨_, rfl, ?_⟩⟩
  · decide +kernel
  · decide +kernel

end Runs

end JsonRpcRelay.WsServer

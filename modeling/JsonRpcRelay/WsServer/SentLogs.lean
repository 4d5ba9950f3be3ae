import JsonRpcRelay.WsServer.LogDelivery

/-!
# Only subscribers are sent logs

What is sent under an id was returned by a call for the tag of a subscription with this id, at a
time when the connection had the subscription.  So nothing is sent before a subscription is made
or after it ended, and nothing that does not match its filters.
-/

namespace JsonRpcRelay.WsServer

open Framework

section Adding

variable {Log Hash : Type}

/-- The entries that are added to what was sent are allowed. -/
def Adds (allowed : String × Log → Prop) (o o' : Outbox Log Hash) : Prop :=
  ∃ new, o'.sent = o.sent ++ new ∧ ∀ entry ∈ new, allowed entry

variable {allowed : String × Log → Prop} {o o' o'' : Outbox Log Hash}

private theorem Adds.of_sent_eq (h : o'.sent = o.sent) : Adds allowed o o' :=
  ⟨[], by rw [h, List.append_nil], nofun⟩

theorem Adds.trans (h : Adds allowed o o') (h' : Adds allowed o' o'') : Adds allowed o o'' := by
  obtain ⟨new, hsent, hnew⟩ := h
  obtain ⟨more, hsent', hmore⟩ := h'
  refine ⟨new ++ more, by rw [hsent', hsent, List.append_assoc], ?_⟩
  intro entry hentry
  obtain hfirst | hrest := List.mem_append.mp hentry
  · exact hnew entry hfirst
  · exact hmore entry hrest

theorem Adds.mono {wider : String × Log → Prop} (h : Adds allowed o o')
    (hwider : ∀ entry, allowed entry → wider entry) : Adds wider o o' := by
  obtain ⟨new, hsent, hnew⟩ := h
  exact ⟨new, hsent, fun entry hentry => hwider entry (hnew entry hentry)⟩

theorem Adds.foldl {α : Type} {f : Outbox Log Hash → α → Outbox Log Hash} {l : List α}
    (h : ∀ a ∈ l, ∀ o, Adds allowed o (f o a)) (o : Outbox Log Hash) :
    Adds allowed o (l.foldl f o) := by
  induction l generalizing o with
  | nil => exact .of_sent_eq rfl
  | cons a l ih =>
    have hfirst := h a List.mem_cons_self o
    exact hfirst.trans (ih (fun b hb => h b (List.mem_cons_of_mem _ hb)) (f o a))

end Adding

section Sending

variable {Log Hash : Type} [DecidableEq Hash] {createHash : String × Log → Hash}
  {o : Outbox Log Hash} {log : Log} {logs : List Log} {tag : String} {subs : List Subscriber}

private theorem adds_sendTo {sub : Subscriber} {allowed : String × Log → Prop}
    (h : allowed (sub.subscriptionId, log)) : Adds allowed o (sendTo createHash log o sub) := by
  unfold sendTo
  dsimp only
  split
  · exact .of_sent_eq rfl
  · refine ⟨[(sub.subscriptionId, log)], rfl, ?_⟩
    intro entry hentry
    rw [List.mem_singleton.mp hentry]
    exact h

private theorem adds_deliver : Adds (fun entry => ∃ sub ∈ subs, sub.tag = tag ∧
    sub.subscriptionId = entry.1 ∧ entry.2 ∈ logs) o (deliver createHash subs tag logs o) := by
  apply Adds.foldl
  intro log hlog o
  apply Adds.foldl
  intro sub hsub o
  obtain ⟨hsub, htag⟩ := List.mem_filter.mp hsub
  exact adds_sendTo ⟨sub, hsub, by simpa using htag, rfl, hlog⟩

end Sending

section Subscriptions

variable {Log Hash : Type} {same : Bool} {sub : Subscriber} {s : PollerState Log Hash}

private theorem addPoll_outbox (s : PollerState Log Hash) (tag : String) :
    (s.addPoll tag).outbox = s.outbox := by
  rw [PollerState.addPoll]
  split <;> rfl

private theorem addPoll_subscriptions (s : PollerState Log Hash) (tag : String) :
    (s.addPoll tag).subscriptions = s.subscriptions := by
  rw [PollerState.addPoll]
  split <;> rfl

private theorem subscribe_outbox (s : PollerState Log Hash) (connection tag newId : String) :
    (s.subscribe same connection tag newId).outbox = s.outbox := by
  simp only [PollerState.subscribe]
  split
  · exact addPoll_outbox _ tag
  · rfl

private theorem addPoll_evicted (s : PollerState Log Hash) (tag : String) :
    (s.addPoll tag).evicted = s.evicted := by
  rw [PollerState.addPoll]
  split <;> rfl

private theorem subscribe_evicted (s : PollerState Log Hash) (connection tag newId : String) :
    (s.subscribe same connection tag newId).evicted = s.evicted := by
  simp only [PollerState.subscribe]
  split
  · exact addPoll_evicted _ tag
  · rfl

private theorem mem_subscriptions_subscribe {connection tag newId : String}
    (h : sub ∈ (s.subscribe same connection tag newId).subscriptions) :
    sub ∈ s.subscriptions ∨ sub = ⟨tag, connection, newId⟩ := by
  simp only [PollerState.subscribe] at h
  split at h
  · rw [addPoll_subscriptions] at h
    simp only [SubscriptionService.subscribe] at h
    split at h
    · exact Or.inl h
    · simpa using h
  · exact Or.inl h

end Subscriptions

section Runs

variable {Log Hash : Type} [DecidableEq Hash] {createHash : String × Log → Hash} {same : Bool}
  {matching : String → ℕ → List Log} {u s t : PollerState Log Hash} {event : PollerEvent Hash}
  {es : List (PollerEvent Hash)} {entry : String × Log} {sub : Subscriber}

/-- The entry is for a subscription of this state, and from a block up to one that is there. -/
structure Justified (matching : String → ℕ → List Log) (s : PollerState Log Hash) (upTo : ℕ)
    (sub : Subscriber) (entry : String × Log) : Prop where
  live : sub ∈ s.subscriptions
  id : sub.subscriptionId = entry.1
  matched : ∃ b ≤ upTo, entry.2 ∈ matching sub.tag b
  produced : upTo ≤ s.head

private theorem mem_of_returnedLogs {call : LogsCall} {upTo : ℕ} {log : Log}
    (h : log ∈ PollerState.returnedLogs matching call upTo) :
    ∃ b ≤ upTo, log ∈ matching call.tag b := by
  obtain ⟨b, hb, hlog⟩ := List.mem_flatMap.mp h
  rw [List.mem_range'_1] at hb
  exact ⟨b, by omega, hlog⟩

private theorem mem_subscriptions_step
    (hstep : PollerState.step createHash same matching s event = some t)
    (h : sub ∈ t.subscriptions) : sub ∈ s.subscriptions ∨
      event = .subscribe sub.connection sub.tag sub.subscriptionId := by
  cases event with
  | produce =>
    obtain rfl := Option.some.inj hstep
    exact Or.inl h
  | subscribe connection tag newId =>
    simp only [PollerState.step, Option.ite_none_right_eq_some] at hstep
    obtain rfl := Option.some.inj hstep.2
    obtain hold | rfl := mem_subscriptions_subscribe h
    · exact Or.inl hold
    · exact Or.inr rfl
  | unsubscribe connection subId =>
    obtain rfl := Option.some.inj hstep
    exact Or.inl (List.mem_of_mem_filter h)
  | tick block =>
    simp only [PollerState.step, Option.ite_none_right_eq_some] at hstep
    obtain rfl := Option.some.inj hstep.2
    exact Or.inl h
  | fail place =>
    simp only [PollerState.step, Option.ite_none_right_eq_some] at hstep
    obtain rfl := Option.some.inj hstep.2
    exact Or.inl h
  | complete place upTo =>
    simp only [PollerState.step] at hstep
    split at hstep
    · rw [Option.ite_none_right_eq_some] at hstep
      obtain rfl := Option.some.inj hstep.2
      exact Or.inl h
    · cases hstep
  | evict hash =>
    simp only [PollerState.step, Option.ite_none_right_eq_some] at hstep
    obtain rfl := Option.some.inj hstep.2
    exact Or.inl h

/-- Only the end of a call sends logs, to subscribers of its tag. -/
theorem adds_step (hstep : PollerState.step createHash same matching s event = some t) :
    Adds (fun entry => ∃ place upTo sub, event = .complete place upTo ∧
      Justified matching s upTo sub entry) s.outbox t.outbox := by
  cases event with
  | produce =>
    obtain rfl := Option.some.inj hstep
    exact .of_sent_eq rfl
  | subscribe connection tag newId =>
    simp only [PollerState.step, Option.ite_none_right_eq_some] at hstep
    obtain rfl := Option.some.inj hstep.2
    exact .of_sent_eq (by rw [subscribe_outbox])
  | unsubscribe connection subId =>
    obtain rfl := Option.some.inj hstep
    exact .of_sent_eq rfl
  | tick block =>
    simp only [PollerState.step, Option.ite_none_right_eq_some] at hstep
    obtain rfl := Option.some.inj hstep.2
    exact .of_sent_eq rfl
  | fail place =>
    simp only [PollerState.step, Option.ite_none_right_eq_some] at hstep
    obtain rfl := Option.some.inj hstep.2
    exact .of_sent_eq rfl
  | complete place upTo =>
    simp only [PollerState.step] at hstep
    split at hstep
    · rename_i call hcall
      rw [Option.ite_none_right_eq_some] at hstep
      obtain ⟨⟨_, hhead⟩, hstep⟩ := hstep
      obtain rfl := Option.some.inj hstep
      apply adds_deliver.mono
      intro entry hentry
      obtain ⟨sub, hsub, htag, hid, hlog⟩ := hentry
      exact ⟨place, upTo, sub, rfl, hsub, hid, htag ▸ mem_of_returnedLogs hlog, hhead⟩
    · cases hstep
  | evict hash =>
    simp only [PollerState.step, Option.ite_none_right_eq_some] at hstep
    obtain rfl := Option.some.inj hstep.2
    exact .of_sent_eq rfl

/-- The entry was sent at the end of a call in the run, for a subscription that was there before
the run or is made in it. -/
def SentAlong (createHash : String × Log → Hash) (same : Bool)
    (matching : String → ℕ → List Log) (u : PollerState Log Hash) (es : List (PollerEvent Hash))
    (entry : String × Log) : Prop :=
  ∃ es₁ place upTo es₂ v sub, es = es₁ ++ .complete place upTo :: es₂ ∧
    exec (PollerState.step createHash same matching) u es₁ = some v ∧
    Justified matching v upTo sub entry ∧
    (sub ∈ u.subscriptions ∨ .subscribe sub.connection sub.tag sub.subscriptionId ∈ es₁)

theorem SentAlong.cons (hstep : PollerState.step createHash same matching s event = some t)
    (h : SentAlong createHash same matching t es entry) :
    SentAlong createHash same matching s (event :: es) entry := by
  obtain ⟨es₁, place, upTo, es₂, v, sub, rfl, hrun, hjustified, hmade⟩ := h
  refine ⟨event :: es₁, place, upTo, es₂, v, sub, rfl, exec_cons_eq_some.mpr ⟨t, hstep, hrun⟩,
    hjustified, ?_⟩
  obtain hbefore | hlater := hmade
  · obtain hold | rfl := mem_subscriptions_step hstep hbefore
    · exact Or.inl hold
    · exact Or.inr List.mem_cons_self
  · exact Or.inr (List.mem_cons_of_mem _ hlater)

private theorem adds_run (hrun : exec (PollerState.step createHash same matching) u es = some s) :
    Adds (SentAlong createHash same matching u es) u.outbox s.outbox := by
  induction es generalizing u with
  | nil =>
    obtain rfl := Option.some.inj hrun
    exact .of_sent_eq rfl
  | cons event es ih =>
    obtain ⟨t, hstep, hrest⟩ := exec_cons_eq_some.mp hrun
    apply Adds.trans
    · apply (adds_step hstep).mono
      intro entry hentry
      obtain ⟨place, upTo, sub, rfl, hjustified⟩ := hentry
      exact ⟨[], place, upTo, es, u, sub, rfl, rfl, hjustified, Or.inl hjustified.live⟩
    · exact (ih hrest).mono fun entry h => h.cons hstep

private theorem accounted_step [DecidableEq Log] (hinj : Function.Injective createHash)
    (hstep : PollerState.step createHash same matching s event = some t)
    (h : Accounted createHash s.evicted s.outbox) : Accounted createHash t.evicted t.outbox := by
  cases event with
  | produce =>
    obtain rfl := Option.some.inj hstep
    exact h
  | subscribe connection tag newId =>
    simp only [PollerState.step, Option.ite_none_right_eq_some] at hstep
    obtain rfl := Option.some.inj hstep.2
    rwa [subscribe_outbox, subscribe_evicted]
  | unsubscribe connection subId =>
    obtain rfl := Option.some.inj hstep
    exact h
  | tick block =>
    simp only [PollerState.step, Option.ite_none_right_eq_some] at hstep
    obtain rfl := Option.some.inj hstep.2
    exact h
  | fail place =>
    simp only [PollerState.step, Option.ite_none_right_eq_some] at hstep
    obtain rfl := Option.some.inj hstep.2
    exact h
  | complete place upTo =>
    simp only [PollerState.step] at hstep
    split at hstep
    · rw [Option.ite_none_right_eq_some] at hstep
      obtain rfl := Option.some.inj hstep.2
      exact (sends_deliver hinj h).accounted
    · cases hstep
  | evict hash =>
    simp only [PollerState.step, Option.ite_none_right_eq_some] at hstep
    obtain ⟨hcached, hstep⟩ := hstep
    obtain rfl := Option.some.inj hstep
    intro entry
    have hcount := h entry
    by_cases hentry : createHash entry = hash
    · rw [hentry, if_pos hcached] at hcount
      simp [hentry, hcount]
    · simp [hcount, hentry, Ne.symm hentry]

private theorem accounted_run [DecidableEq Log] (hinj : Function.Injective createHash)
    (hrun : exec (PollerState.step createHash same matching) u es = some s)
    (h : Accounted createHash u.evicted u.outbox) : Accounted createHash s.evicted s.outbox := by
  induction es generalizing u with
  | nil =>
    obtain rfl := Option.some.inj hrun
    exact h
  | cons event es ih =>
    obtain ⟨t, hstep, hrest⟩ := exec_cons_eq_some.mp hrun
    exact ih hrest (accounted_step hinj hstep h)

end Runs

/-- Whatever is sent in the second part of a run goes, at the end of a call, to a subscription that
is there at this time and was there before or is made in this part, and is a matching log of a
block that has been produced.  It is sent once, and again only after its hash was evicted. -/
theorem only_subscribers_sent {Log Hash : Type} [DecidableEq Log] [DecidableEq Hash]
    {createHash : String × Log → Hash} (hinj : Function.Injective createHash) (same : Bool)
    (matching : String → ℕ → List Log) (head : ℕ) {before es : List (PollerEvent Hash)}
    {u s : PollerState Log Hash}
    (hbefore : exec (PollerState.step createHash same matching) (.init head) before = some u)
    (hrun : exec (PollerState.step createHash same matching) u es = some s) :
    (∃ new, s.outbox.sent = u.outbox.sent ++ new ∧
      ∀ entry ∈ new, SentAlong createHash same matching u es entry) ∧
    ∀ entry, s.outbox.sent.count entry ≤ 1 + s.evicted.count (createHash entry) := by
  refine ⟨adds_run hrun, ?_⟩
  intro entry
  have hinit : Accounted createHash (PollerState.init head : PollerState Log Hash).evicted
      (PollerState.init head).outbox := by
    intro entry
    simp [PollerState.init]
  have hcount := accounted_run hinj hrun (accounted_run hinj hbefore hinit) entry
  rw [hcount]
  split
  · omega
  · omega

/-- Two subscribers of one tag, of which the first is gone when the call ends. -/
def closedRun : List (PollerEvent (String × ℕ)) :=
  [.subscribe "c" "logs" "0x1", .subscribe "d" "logs" "0x2", .produce, .tick 1,
    .unsubscribe "c" none]

theorem only_subscribers_sent_closed : ∃ u s, exec pollerStep (.init 0) closedRun = some u ∧
    exec pollerStep u [.complete 0 1] = some s ∧ s.outbox.sent = [("0x2", 1)] ∧
    ∃ new, s.outbox.sent = u.outbox.sent ++ new ∧
      ∀ entry ∈ new, SentAlong id true oneLog u [.complete 0 1] entry := by
  have hruns : ∃ u s, exec pollerStep (.init 0) closedRun = some u ∧
      exec pollerStep u [.complete 0 1] = some s ∧ s.outbox.sent = [("0x2", 1)] :=
    ⟨_, _, rfl, rfl, rfl⟩
  obtain ⟨u, s, hbefore, hrun, hsent⟩ := hruns
  exact ⟨u, s, hbefore, hrun, hsent,
    (only_subscribers_sent Function.injective_id true oneLog 0 hbefore hrun).1⟩

end JsonRpcRelay.WsServer

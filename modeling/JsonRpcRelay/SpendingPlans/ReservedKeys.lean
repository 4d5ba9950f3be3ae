import JsonRpcRelay.Clients.Eviction
import JsonRpcRelay.Framework.Grouping
import JsonRpcRelay.Framework.Traversal
import JsonRpcRelay.SpendingPlans.LimiterWrites
import JsonRpcRelay.SpendingPlans.LoadedConfigs

/-!
# Reserved keys

The keys that are reserved for the configured plans are computed from the configuration, and those
of the entries by the repositories.  Both are the same, unless a list of addresses has something
that the first computation throws on: the start accepts such a plan and creates it, but then no key
is reserved at all.
-/

namespace JsonRpcRelay.SpendingPlans.Loaded

open Framework
open HbarLimiter (CacheOp LimiterConfig PlanId SubscriptionTier toLowerCase trim)

section Data

variable (configs : List SpendingPlanConfig)

def Configured (id : String) : Prop := ∃ c ∈ configs, c.id = id

/-- The program of a call of the limiter ends with this history. -/
inductive LimiterCall (cfg : LimiterConfig) : History CacheOp CacheOp.Reply → Prop
  | shouldLimit {evmAddress ipAddress estimatedTxFee history result}
      (hruns : (HbarLimiter.shouldLimit cfg evmAddress ipAddress estimatedTxFee).run.Runs history
        result) : LimiterCall cfg history
  | addExpense {cost evmAddress ipAddress history result}
      (hruns : (HbarLimiter.addExpense cfg cost evmAddress ipAddress).run.Runs history result) :
      LimiterCall cfg history

/-- What a request of the limiter stores: the key, where the ids are written as texts, and the
plan. -/
inductive Stores (text : PlanId → String) : (op : CacheOp) × op.Reply → CacheKey → String → Prop
  | plan (id plan ttl) : Stores text ⟨.set (.hbarSpendingPlan id) plan ttl, ()⟩
      (planKey (text id)) (text id)
  | amountSpent (id amount ttl) : Stores text ⟨.set (.amountSpent id) amount ttl, ()⟩
      (amountSpentKey (text id)) (text id)
  | evmAddress (address) (link : HbarLimiter.EvmAddressHbarSpendingPlan) (ttl) :
      Stores text ⟨.set (.evmAddressHbarSpendingPlan address) link ttl, ()⟩
        (.addressHbarSpendingPlan .evmAddress address) (text link.planId)
  | ipAddress (address) (link : HbarLimiter.IPAddressHbarSpendingPlan) (ttl) :
      Stores text ⟨.set (.ipAddressHbarSpendingPlan address) link ttl, ()⟩
        (.addressHbarSpendingPlan .ipAddress address) (text link.planId)
  | setNew (plan ttl id) : Stores text ⟨.setNew plan ttl, id⟩ (planKey (text id)) (text id)
  | incrBy (id amount) : Stores text ⟨.incrBy id amount, ()⟩ (amountSpentKey (text id)) (text id)

/-- The keys that are listed match the pattern, and the random ids that are drawn are none of the
configured ones. -/
def Answers (text : PlanId → String) : (op : CacheOp) → op.Reply → Prop
  | .keys pattern, keys => ∀ key ∈ keys, pattern key = true
  | .setNew .., id => ¬Configured configs (text id)
  | _, _ => True

/-- The keys that the start, or the limiter after it, writes for a configured plan, whatever they
find in the cache. -/
inductive WrittenFor : CacheKey → Prop
  | populate {history result event key}
      (hruns : (populatePreconfiguredSpendingPlans configs).run.Runs history result)
      (hevent : event ∈ history) (hwritten : event.1.written = some key) : WrittenFor key
  | limiter {cfg text history event key planId}
      (hvalid : ∀ c ∈ configs, isValidSpendingPlanConfig c = true)
      (hcall : LimiterCall cfg history)
      (hanswers : ∀ event ∈ history, Answers configs text event.1 event.2)
      (hevent : event ∈ history) (hstores : Stores text event key planId)
      (hplan : Configured configs planId) : WrittenFor key

variable {configs}

private theorem nodup_reservedKeys :
    ((getPreconfiguredSpendingPlanKeys configs).map CacheKey.toString).Nodup :=
  (nodup_eraseDups _).map fun _ _ => CacheKey.toString_inj.mp

/-- The cache of the relay. -/
def cacheOptions (configs : List SpendingPlanConfig) (max : ℕ) (ttl : ℤ) :
    Clients.Eviction.CacheOptions where
  max := max
  ttl := ttl
  reservedKeys := (getPreconfiguredSpendingPlanKeys configs).map CacheKey.toString
  nodup := nodup_reservedKeys

/-- What is written for the configured plans has reserved keys, and whatever calls the cache gets,
it stays until it is deleted or its time is over. -/
structure NeverEvicted (configs : List SpendingPlanConfig) : Prop where
  reserved : ∀ key, WrittenFor configs key → key ∈ getPreconfiguredSpendingPlanKeys configs
  kept : ∀ key, WrittenFor configs key → ∀ (V : Type) (ops : Clients.Eviction.ValueOps V)
    (max : ℕ) (ttl : ℤ) (calls : ℕ → Clients.Eviction.Call V)
    (es : List (PoolEvent ℕ (List String) ℕ)),
    Along (Clients.Eviction.protocol (cacheOptions configs max ttl)).step
      (Clients.Eviction.KeepsEntry (cacheOptions configs max ttl) key.toString)
      (Clients.Eviction.running ops calls) es

/-- The EVM addresses are left out or an array of strings, and the IP addresses are left out or an
array of what can be written as a text. -/
structure HasAddressLists (c : SpendingPlanConfig) : Prop where
  evmAddresses : ∀ list ∈ c.evmAddresses, ∃ items, list = .array items ∧
    ∀ x ∈ items, ∃ address, x = .string address
  ipAddresses : ∀ list ∈ c.ipAddresses, ∃ items, list = .array items ∧
    ∀ x ∈ items, x.isPrintable = true

end Data

section Reserved

variable {configs : List SpendingPlanConfig} {c : SpendingPlanConfig} {kind : AddressKind}
  {ks : List CacheKey}

private theorem reservedText_evmAddress_isSome (x : Json) :
    (reservedText .evmAddress x).isSome ↔ ∃ address, x = .string address := by
  cases x <;> simp [reservedText]

private theorem reservedText_ipAddress_isSome (x : Json) :
    (reservedText .ipAddress x).isSome ↔ x.isPrintable = true := by
  unfold reservedText
  split <;> simp_all

private theorem mapOrThrow_isSome_iff (list : Option Json) : (mapOrThrow kind list).isSome ↔
    ∀ x ∈ list, ∃ items, x = .array items ∧ ∀ item ∈ items, (reservedText kind item).isSome := by
  cases list with
  | none => simp [mapOrThrow]
  | some x => cases x <;> simp [mapOrThrow, mapM_isSome_iff]

private theorem keysOfPlan_isSome_iff : (keysOfPlan c).isSome ↔ HasAddressLists c := by
  have hlists : (keysOfPlan c).isSome ↔ (mapOrThrow .evmAddress c.evmAddresses).isSome ∧
      (mapOrThrow .ipAddress c.ipAddresses).isSome := by
    unfold keysOfPlan
    cases mapOrThrow .evmAddress c.evmAddresses <;>
      cases mapOrThrow .ipAddress c.ipAddresses <;> simp
  rw [hlists, mapOrThrow_isSome_iff, mapOrThrow_isSome_iff]
  simp only [reservedText_evmAddress_isSome, reservedText_ipAddress_isSome]
  exact ⟨fun h => ⟨h.1, h.2⟩, fun h => ⟨h.1, h.2⟩⟩

private theorem reserved_eq_nil (hc : c ∈ configs) (h : ¬HasAddressLists c) :
    getPreconfiguredSpendingPlanKeys configs = [] := by
  have hnone : configs.mapM keysOfPlan = none := by
    rw [← Option.not_isSome_iff_eq_none, mapM_isSome_iff]
    exact fun hall => h (keysOfPlan_isSome_iff.mp (hall c hc))
  rw [getPreconfiguredSpendingPlanKeys, hnone]
  rfl

/-- What is reserved for a plan: its own keys, and those of the addresses that have one. -/
structure Reserves (ks : List CacheKey) (c : SpendingPlanConfig) : Prop where
  plan : planKey c.id ∈ ks
  amountSpent : amountSpentKey c.id ∈ ks
  address : ∀ kind items, c.addressList kind = some (.array items) → ∀ x ∈ items, ∀ text,
    getKey kind x = .ok text → .addressHbarSpendingPlan kind text ∈ ks

theorem Reserves.mono {ks' : List CacheKey} (h : Reserves ks c) (hsub : ∀ key ∈ ks, key ∈ ks') :
    Reserves ks' c where
  plan := hsub _ h.plan
  amountSpent := hsub _ h.amountSpent
  address kind items hitems x hx text htext := hsub _ (h.address kind items hitems x hx text htext)

/-- The two computations of the key of an address agree where both have one. -/
theorem reservedText_eq_of_getKey {x : Json} {text : String} (h : getKey kind x = .ok text)
    (hsome : (reservedText kind x).isSome) : reservedText kind x = some text := by
  obtain ⟨reserved, hreserved⟩ := Option.isSome_iff_exists.mp hsome
  have hkey : getKey kind x = .ok reserved := by
    unfold getKey
    split
    · cases hreserved
    · rw [hreserved]
      rfl
  rw [hkey] at h
  rw [hreserved, Except.ok.inj h]

private theorem mem_of_mapOrThrow {list : Option Json} {keys : List CacheKey} {items : List Json}
    {x : Json}
    {text : String} (h : mapOrThrow kind list = some keys) (hlist : list = some (.array items))
    (hx : x ∈ items) (htext : getKey kind x = .ok text) :
    .addressHbarSpendingPlan kind text ∈ keys := by
  subst hlist
  have hsome : (reservedText kind x).isSome := by
    have hmap := (mapOrThrow_isSome_iff (some (.array items))).mp
      (Option.isSome_iff_exists.mpr ⟨keys, h⟩)
    obtain ⟨_, hitems, hall⟩ := hmap _ rfl
    cases hitems
    exact hall x hx
  obtain ⟨key, hkey, hreserved⟩ := exists_of_mapM_some h hx
  rw [reservedText_eq_of_getKey htext hsome] at hreserved
  cases hreserved
  exact hkey

private theorem reserves_of_keysOfPlan {keys : List CacheKey} (h : keysOfPlan c = some keys) :
    Reserves keys c := by
  simp only [keysOfPlan, Option.bind_eq_bind, Option.bind_eq_some_iff, Option.pure_def,
    Option.some.injEq] at h
  obtain ⟨evmKeys, hevm, ipKeys, hip, rfl⟩ := h
  refine ⟨by simp, by simp, ?_⟩
  intro kind items hitems x hx text htext
  simp only [List.mem_cons, List.mem_append]
  cases kind with
  | evmAddress =>
    exact Or.inr (Or.inr (Or.inr (Or.inl (mem_of_mapOrThrow hevm hitems hx htext))))
  | ipAddress =>
    exact Or.inr (Or.inr (Or.inr (Or.inr (mem_of_mapOrThrow hip hitems hx htext))))

private theorem reserves_of_hasAddressLists (h : ∀ c ∈ configs, HasAddressLists c)
    (hc : c ∈ configs) :
    Reserves (getPreconfiguredSpendingPlanKeys configs) c := by
  obtain ⟨plans, hplans⟩ := Option.isSome_iff_exists.mp
    (mapM_isSome_iff.mpr fun c hc => keysOfPlan_isSome_iff.mpr (h c hc))
  obtain ⟨keys, hkeys, hplan⟩ := exists_of_mapM_some hplans hc
  refine (reserves_of_keysOfPlan hplan).mono fun key hkey => ?_
  rw [getPreconfiguredSpendingPlanKeys, hplans, List.mem_eraseDups]
  exact List.mem_flatten_of_mem hkeys hkey

end Reserved

section Start

variable {configs : List SpendingPlanConfig} {c : SpendingPlanConfig} {kind : AddressKind}
  {ks : List CacheKey}

/-- What the code writes has one of the keys. -/
def OnlyWrites (ks : List CacheKey) {α : Type} (x : StartM α) : Prop :=
  Prog.Requests (fun op => ∀ key ∈ op.written, key ∈ ks) x

private theorem onlyWrites_request {op : RepositoryOp} (h : ∀ key ∈ op.written, key ∈ ks) :
    OnlyWrites ks (request op) := Prog.requests_request h

private theorem onlyWrites_read {op : RepositoryOp} (h : op.written = none) :
    OnlyWrites ks (request op) :=
  onlyWrites_request fun key hkey => by simp [h] at hkey

private theorem onlyWrites_ofExcept {α : Type} (x : Except StartError α) :
    OnlyWrites ks (ofExcept x) := by
  cases x with
  | error e => exact Prog.requests_throw
  | ok a => exact Prog.requests_pure

/-- The code goes on with the value that was computed. -/
theorem onlyWrites_ofExcept_bind {α β : Type} {x : Except StartError α} {f : α → StartM β}
    (h : ∀ a, x = .ok a → OnlyWrites ks (f a)) : OnlyWrites ks (ofExcept x >>= f) := by
  cases x with
  | error e => exact Prog.requests_throw
  | ok a => exact h a rfl

private theorem onlyWrites_promiseAll {xs : List (StartM Unit)} (h : ∀ x ∈ xs, OnlyWrites ks x) :
    OnlyWrites ks (promiseAll xs) := by
  refine Prog.Requests.bind ?_ fun results => Prog.requests_forM fun r _ => onlyWrites_ofExcept r
  intro history result hruns
  rw [ExceptT.run_lift, Prog.runs_map] at hruns
  obtain ⟨results, hruns, rfl⟩ := hruns
  induction xs generalizing history results with
  | nil =>
    obtain ⟨rfl, _⟩ := hruns
    simp
  | cons x xs ih =>
    rw [List.mapM_cons, Prog.runs_bind] at hruns
    obtain ⟨first, r, rest, rfl, hfirst, hrest⟩ := hruns
    rw [Prog.runs_bind] at hrest
    obtain ⟨rest, rs, last, rfl, hrest, rfl, _⟩ := hrest
    intro event hevent
    rw [List.append_nil] at hevent
    rcases List.mem_append.mp hevent with hevent | hevent
    · exact h x List.mem_cons_self first r hfirst event hevent
    · exact ih (fun x hx => h x (List.mem_cons_of_mem _ hx)) _ _ hrest event hevent

private theorem onlyWrites_deletePlan (id : String) : OnlyWrites ks (deletePlan id) :=
  (onlyWrites_read rfl).bind fun _ => (onlyWrites_read rfl).bind fun _ => onlyWrites_read rfl

private theorem onlyWrites_addNewPlans (h : ∀ c ∈ configs, planKey c.id ∈ ks)
    (existingPlans : List String) : OnlyWrites ks (addNewPlans configs existingPlans) := by
  apply Prog.requests_forM
  intro c hc
  apply onlyWrites_request
  rintro key ⟨⟩
  exact h c (List.mem_filter.mp hc).1

private theorem onlyWrites_deleteObsoleteAssociations :
    OnlyWrites ks (deleteObsoleteAssociations kind c) := by
  refine onlyWrites_ofExcept_bind fun addresses _ => Prog.requests_forM fun address _ => ?_
  refine onlyWrites_ofExcept_bind fun text _ => (onlyWrites_read rfl).bind fun found => ?_
  split
  · refine (onlyWrites_read rfl).bind fun link => onlyWrites_ofExcept_bind fun planId _ => ?_
    split
    · exact onlyWrites_read rfl
    · exact Prog.requests_pure
  · exact Prog.requests_pure

private theorem mem_of_addressesToAdd {currentAddresses added : List Json} {x : Json}
    (h : addressesToAdd kind c currentAddresses = .ok added) (hx : x ∈ added) :
    ∃ items, c.addressList kind = some (.array items) ∧ x ∈ items := by
  unfold addressesToAdd at h
  split at h
  · cases h
    cases hx
  · cases h
    cases hx
  · rename_i items hitems
    cases h
    exact ⟨items, hitems, (List.mem_filter.mp hx).1⟩
  · cases h

private theorem onlyWrites_updateAssociations (h : Reserves ks c) :
    OnlyWrites ks (updateAssociations kind c) := by
  refine (onlyWrites_read rfl).bind fun currentAddresses => ?_
  refine onlyWrites_ofExcept_bind fun obsolete _ => ?_
  have hdelete : OnlyWrites ks (promiseAll (obsolete.map fun address => do
      request (.deleteAddress kind (← ofExcept (getKey kind address))))) := by
    refine onlyWrites_promiseAll (List.forall_mem_map.mpr fun address _ => ?_)
    exact onlyWrites_ofExcept_bind fun _ _ => onlyWrites_read rfl
  refine hdelete.bind fun _ => onlyWrites_ofExcept_bind fun added hadded => ?_
  refine onlyWrites_promiseAll (List.forall_mem_map.mpr fun address haddress => ?_)
  refine onlyWrites_ofExcept_bind fun text htext => onlyWrites_request ?_
  obtain ⟨items, hitems, hmem⟩ := mem_of_addressesToAdd hadded haddress
  rintro key ⟨⟩
  exact h.address kind items hitems address hmem text htext

private theorem valid_of_validateSpendingPlanConfig
    (h : validateSpendingPlanConfig configs = .ok ()) :
    ∀ c ∈ configs, isValidSpendingPlanConfig c = true := by
  intro c hc
  have hone := forM_ok h c hc
  by_contra hinvalid
  rw [if_neg hinvalid] at hone
  cases hone

private theorem validateSpendingPlanConfig_ok
    (h : ∀ c ∈ configs, isValidSpendingPlanConfig c = true) :
    validateSpendingPlanConfig configs = .ok () := by
  induction configs with
  | nil => rfl
  | cons c configs ih =>
    rw [validateSpendingPlanConfig, List.forM_eq_forM, List.forM_cons,
      if_pos (h c List.mem_cons_self)]
    exact ih fun c hc => h c (List.mem_cons_of_mem _ hc)

private theorem onlyWrites_populate (h : (∀ c ∈ configs, isValidSpendingPlanConfig c = true) →
    ∀ c ∈ configs, Reserves ks c) :
    OnlyWrites ks (populatePreconfiguredSpendingPlans configs) := by
  unfold populatePreconfiguredSpendingPlans
  split
  · exact Prog.requests_pure
  · refine onlyWrites_ofExcept_bind fun _ hvalid => (onlyWrites_read rfl).bind fun listed => ?_
    have h := h (valid_of_validateSpendingPlanConfig hvalid)
    refine onlyWrites_ofExcept_bind fun existingPlans _ => ?_
    refine Prog.Requests.bind (Prog.requests_forM fun id _ => onlyWrites_deletePlan id) fun _ => ?_
    refine (onlyWrites_addNewPlans (fun c hc => (h c hc).plan) existingPlans).bind fun _ => ?_
    refine Prog.Requests.bind (Prog.requests_forM fun c hc => ?_) fun _ => Prog.requests_pure
    refine onlyWrites_deleteObsoleteAssociations.bind fun _ => ?_
    refine onlyWrites_deleteObsoleteAssociations.bind fun _ => ?_
    refine (onlyWrites_updateAssociations (h c hc)).bind fun _ => ?_
    exact onlyWrites_updateAssociations (h c hc)

end Start

section Reservation

variable {configs : List SpendingPlanConfig} {c : SpendingPlanConfig} {key : CacheKey}
  {cfg : LimiterConfig} {text : PlanId → String} {ks : List CacheKey}

theorem LimiterCall.allowed {history : History CacheOp CacheOp.Reply}
    (hcall : LimiterCall cfg history)
    (hanswers : ∀ event ∈ history, Answers configs text event.1 event.2)
    {event : (op : CacheOp) × op.Reply} (hevent : event ∈ history) :
    ∃ stage : LimiterStage, (stage.matching ∧ ∀ id ∈ stage.drawn, ¬Configured configs (text id)) ∧
      (limiterDiscipline text).allowed stage event.1 := by
  have hI : ∀ (stage : LimiterStage) op reply,
      (stage.matching ∧ ∀ id ∈ stage.drawn, ¬Configured configs (text id)) →
      Answers configs text op reply →
      ((limiterDiscipline text).next stage op reply).matching ∧
        ∀ id ∈ ((limiterDiscipline text).next stage op reply).drawn,
          ¬Configured configs (text id) := by
    intro stage op reply hstage hanswer
    cases op with
    | keys pattern => exact ⟨⟨hstage.1, hanswer⟩, hstage.2⟩
    | setNew plan ttl => exact ⟨hstage.1, List.forall_mem_cons.mpr ⟨hanswer, hstage.2⟩⟩
    | _ => exact hstage
  have hstart : (⟨True, []⟩ : LimiterStage).matching ∧
      ∀ id ∈ (⟨True, []⟩ : LimiterStage).drawn, ¬Configured configs (text id) :=
    ⟨trivial, nofun⟩
  cases hcall with
  | shouldLimit hruns =>
    exact Discipline.allowed_of_runs hI hruns hanswers (shouldLimit_onlyMakes _ _ _ _) hstart hevent
  | addExpense hruns =>
    exact Discipline.allowed_of_runs hI hruns hanswers (addExpense_onlyMakes _ _ _ _) hstart hevent

private theorem Stores.eq_amountSpentKey {event : (op : CacheOp) × op.Reply} {planId : String}
    {stage : LimiterStage} (hstores : Stores text event key planId)
    (hanswer : Answers configs text event.1 event.2)
    (hmatching : stage.matching) (hdrawn : ∀ id ∈ stage.drawn, ¬Configured configs (text id))
    (hallowed : (limiterDiscipline text).allowed stage event.1)
    (hplan : Configured configs planId) : key = amountSpentKey planId := by
  have hlinked : ∀ {planId}, planId ∈ stage.drawn.map text → ¬Configured configs planId := by
    intro planId hmem
    obtain ⟨id, hid, rfl⟩ := List.mem_map.mp hmem
    exact hdrawn id hid
  rcases hallowed hmatching with hreads | hmakes
  · cases hstores <;> cases hreads
  · obtain ⟨op, reply⟩ := event
    obtain ⟨w, hmakes, hlink⟩ := hmakes reply
    cases hmakes with
    | set id amount ttl deadline =>
      cases hstores
      rfl
    | setOnPlan id amount ttl suffix deadline =>
      cases hstores
      rfl
    | incrBy id amount total deadline =>
      cases hstores
      rfl
    | delete id => cases hstores
    | setNew createdAt tier ttl id =>
      cases hstores
      exact absurd hplan hanswer
    | saveEvmAddress evmAddress linkedId ttl =>
      -- the text of the key must stay folded while the cases are told apart
      generalize toLowerCase (trim evmAddress) = address at hstores
      cases hstores
      exact absurd hplan (hlinked (hlink _ rfl))

private theorem reserved_of_writtenFor (h : (∀ c ∈ configs, isValidSpendingPlanConfig c = true) →
    ∀ c ∈ configs, HasAddressLists c) (hwritten : WrittenFor configs key) :
    key ∈ getPreconfiguredSpendingPlanKeys configs := by
  cases hwritten with
  | populate hruns hevent hwritten =>
    have honly := onlyWrites_populate fun hvalid c hc => reserves_of_hasAddressLists (h hvalid) hc
    exact honly _ _ hruns _ hevent key hwritten
  | limiter hvalid hcall hanswers hevent hstores hplan =>
    obtain ⟨stage, ⟨hmatching, hdrawn⟩, hallowed⟩ := hcall.allowed hanswers hevent
    rw [hstores.eq_amountSpentKey (hanswers _ hevent) hmatching hdrawn hallowed hplan]
    obtain ⟨c, hc, rfl⟩ := hplan
    exact (reserves_of_hasAddressLists (h hvalid) hc).amountSpent

/-- The replies of the repositories while there is nothing in them. -/
def emptyReplies : (op : RepositoryOp) → op.Reply
  | .findAllActiveBySubscriptionTier _ => .ok []
  | .existsByAddress .. => false
  | .findByAddress .. => .error .typeError
  | .findAllByPlanId .. => []
  | .create .. | .delete _ | .deleteAllByPlanId .. | .save .. | .deleteAddress .. => ()

/-- A start that finds no plans creates the first one. -/
theorem writtenFor_planKey (hvalid : ∀ d ∈ c :: configs, isValidSpendingPlanConfig d = true) :
    WrittenFor (c :: configs) (planKey c.id) := by
  have hstart : ∃ next, (populatePreconfiguredSpendingPlans (c :: configs)).run =
      .request (.findAllActiveBySubscriptionTier [.extended, .privileged]) next ∧
      ∃ created, next (.ok []) = .request (.create c.subscriptionTier TTL c.id) created := by
    unfold populatePreconfiguredSpendingPlans
    rw [validateSpendingPlanConfig_ok hvalid]
    exact ⟨_, rfl, _, rfl⟩
  obtain ⟨next, hstart, created, hnext⟩ := hstart
  have hruns := Prog.runs_answered emptyReplies
    (populatePreconfiguredSpendingPlans (c :: configs)).run
  have hevent : ⟨.create c.subscriptionTier TTL c.id, ()⟩ ∈
      ((populatePreconfiguredSpendingPlans (c :: configs)).run.answered emptyReplies).1 := by
    rw [hstart]
    refine List.mem_cons_of_mem _ ?_
    change _ ∈ ((next (.ok [])).answered emptyReplies).1
    rw [hnext]
    exact List.mem_cons_self
  exact .populate hruns hevent rfl

theorem configured_plans_never_evicted_iff (configs : List SpendingPlanConfig) :
    NeverEvicted configs ↔ ((∀ c ∈ configs, isValidSpendingPlanConfig c = true) →
      ∀ c ∈ configs, HasAddressLists c) := by
  constructor
  · intro h hvalid c hc
    by_contra hlists
    obtain ⟨d, rest, rfl⟩ := List.exists_cons_of_ne_nil (List.ne_nil_of_mem hc)
    have hmem := h.reserved _ (writtenFor_planKey hvalid)
    rw [reserved_eq_nil hc hlists] at hmem
    cases hmem
  · intro h
    refine ⟨fun key => reserved_of_writtenFor h, ?_⟩
    intro key hwritten V ops max ttl calls es
    exact Clients.Eviction.keepsEntry_along ops
      (List.mem_map_of_mem (reserved_of_writtenFor h hwritten)) calls es

end Reservation

section Examples

open Clients.Eviction (Call ValueOps)

/-- A plan for an IP address, with `null` for its EVM addresses. -/
def nullListed : List SpendingPlanConfig :=
  [⟨"a", some .null, some (.array [.string "127.0.0.1"]), .extended⟩]

/-- The plan is stored without expiry, and then something else. -/
def otherStored : ℕ → Call String
  | 0 => .access (.set (planKey "a").toString "plan" (some (.ms TTL)))
  | _ => .access (.set "other" "value" none)

def texts : ValueOps String where
  add value amount := value.getD "" ++ toString amount
  array? _ := none
  ofArray := String.join

/-- The plan is evicted from a cache with room for one entry. -/
theorem null_listed_plan_evicted :
    (∀ c ∈ nullListed, isValidSpendingPlanConfig c = true) ∧ ¬NeverEvicted nullListed := by
  have hvalid : ∀ c ∈ nullListed, isValidSpendingPlanConfig c = true := by simp [nullListed,
    isValidSpendingPlanConfig, isFilledArray]
  refine ⟨hvalid, fun h => ?_⟩
  have hkept := h.kept _ (writtenFor_planKey hvalid) String texts 1 0 otherStored
    [.run 0 [], .run 1 [Clients.Eviction.prefixKey (planKey "a").toString]]
  have hsecond := (hkept.2 _ rfl).1 _ rfl ⟨"plan", none⟩ (by decide +kernel) (by decide +kernel)
  rcases hsecond with hstale | ⟨i, evicted, hevent, hrequest⟩
  · cases hstale
  · cases hevent
    rcases hrequest with ⟨next, hnext⟩ | ⟨next, hnext⟩
    · cases hnext
    · cases hnext

end Examples

end JsonRpcRelay.SpendingPlans.Loaded

import JsonRpcRelay.HbarLimiter.HbarLimitService

/-!
# The limiter run alone

What each function of the limiter does when nothing else runs between its requests: the
lookups are functions of the state, and the two writes, the creation of a plan and a charge,
are described by what can be read afterwards.
-/

namespace JsonRpcRelay.HbarLimiter

open Framework

variable {b : CacheBackend} {st st' : LimiterState} {α β : Type}

section Rules

@[simp] theorem runAlone_pure (a : α) : runAlone b (pure a) st = (.ok a, st) := rfl

@[simp] theorem runAlone_throw (e : HbarLimiterError) :
    runAlone b (throw e : LimiterM α) st = (.error e, st) := rfl

@[simp] theorem runAlone_request (op : CacheOp) :
    runAlone b (request op) st = (.ok (handle b op st).1, (handle b op st).2) := rfl

theorem runAlone_bind (x : LimiterM α) (f : α → LimiterM β) :
    runAlone b (x >>= f) st =
      match runAlone b x st with
      | (.ok a, st') => runAlone b (f a) st'
      | (.error e, st') => (.error e, st') := by
  rw [runAlone, ExceptT.run_bind, Prog.run_bind]
  unfold runAlone
  rcases x.run.run (handle b) st with ⟨_ | a, st'⟩ <;> rfl

theorem runAlone_bind_ok {x : LimiterM α} {f : α → LimiterM β} {a : α}
    (h : runAlone b x st = (.ok a, st')) : runAlone b (x >>= f) st = runAlone b (f a) st' := by
  rw [runAlone_bind, h]

theorem runAlone_map (f : α → β) (x : LimiterM α) :
    runAlone b (f <$> x) st = ((runAlone b x st).1.map f, (runAlone b x st).2) := by
  rw [map_eq_pure_bind, runAlone_bind]
  rcases runAlone b x st with ⟨_ | a, st'⟩ <;> rfl

theorem runAlone_tryCatch (x : LimiterM α) (f : HbarLimiterError → LimiterM α) :
    runAlone b (tryCatch x f) st =
      match runAlone b x st with
      | (.ok a, st') => (.ok a, st')
      | (.error e, st') => runAlone b (f e) st' := by
  change (x.run >>= _).run (handle b) st = _
  rw [Prog.run_bind]
  unfold runAlone
  rcases x.run.run (handle b) st with ⟨_ | a, st'⟩ <;> rfl

end Rules

namespace LimiterState

variable (b : CacheBackend) (st : LimiterState)

def plan (id : PlanId) : Option HbarSpendingPlan := st.get b (.hbarSpendingPlan id)

def activePlan (id : PlanId) : Option HbarSpendingPlan := (st.plan b id).filter (·.active)

/-- The `amountSpent` of a plan, 0 without a readable entry. -/
def spent (id : PlanId) : ℕ :=
  let amountSpent : Option ℕ := st.get b (.amountSpent id)
  amountSpent.getD 0

def detailed (id : PlanId) : Option DetailedHbarSpendingPlan :=
  (st.activePlan b id).map fun plan => { plan with amountSpent := st.spent b id }

def evmLink (evmAddress : String) : Option EvmAddressHbarSpendingPlan :=
  st.get b (.evmAddressHbarSpendingPlan (toLowerCase (trim evmAddress)))

def ipLink (ipAddress : String) : Option IPAddressHbarSpendingPlan :=
  st.get b (.ipAddressHbarSpendingPlan ipAddress)

/-- The plan that is linked to an EVM address. -/
def evmPlan (evmAddress : String) : Option DetailedHbarSpendingPlan :=
  if evmAddress = "" then none
  else (st.evmLink b evmAddress).bind fun link => st.detailed b link.planId

/-- The plan that is linked to an IP address. -/
def ipPlan (ipAddress : String) : Option DetailedHbarSpendingPlan :=
  if ipAddress = "" then none
  else (st.ipLink b ipAddress).bind fun link => st.detailed b link.planId

/-- The plan of the EVM address, else of the IP address. -/
def findPlan (evmAddress ipAddress : String) : Option DetailedHbarSpendingPlan :=
  (st.evmPlan b evmAddress).or (st.ipPlan b ipAddress)

end LimiterState

section Lookups

/-- The code only reads: it returns `f` of the state, or throws where `f` has no value. -/
def Reads (b : CacheBackend) (x : LimiterM α) (f : LimiterState → Option α) : Prop :=
  ∀ st, (runAlone b x st).1.toOption = f st ∧ (runAlone b x st).2 = st

theorem Reads.pure (a : α) : Reads b (pure a) fun _ => some a := fun _ => ⟨rfl, rfl⟩

theorem Reads.throw (e : HbarLimiterError) : Reads b (throw e : LimiterM α) fun _ => none :=
  fun _ => ⟨rfl, rfl⟩

theorem Reads.get (key : CacheKey) : Reads b (request (.get key)) fun st => some (st.get b key) :=
  fun _ => ⟨rfl, rfl⟩

theorem Reads.bind {x : LimiterM α} {f : LimiterState → Option α} {g : α → LimiterM β}
    {h : α → LimiterState → Option β} (hx : Reads b x f) (hg : ∀ a, Reads b (g a) (h a)) :
    Reads b (x >>= g) fun st => (f st).bind fun a => h a st := by
  intro st
  obtain ⟨hval, hstate⟩ := hx st
  rw [runAlone_bind]
  rcases hrun : runAlone b x st with ⟨_ | a, st'⟩ <;> rw [hrun] at hval hstate <;>
    obtain rfl : st' = st := hstate
  · simp [← hval, Except.toOption]
  · have hf : f st' = some a := hval.symm
    simpa [hf] using hg a st'

theorem Reads.congr {x : LimiterM α} {f g : LimiterState → Option α} (h : Reads b x f)
    (hfg : ∀ st, f st = g st) : Reads b x g := fun st => hfg st ▸ h st

theorem Reads.attempt {x : LimiterM α} {f : LimiterState → Option α} (h : Reads b x f)
    (address : String) :
    runAlone b (attempt address x) st = (.ok (if address = "" then none else f st), st) := by
  unfold HbarLimiter.attempt
  by_cases ha : address = ""
  · simp [ha]
  · obtain ⟨hval, hstate⟩ := h st
    simp only [ha, if_false]
    rw [runAlone_tryCatch, runAlone_map, ← hval]
    rcases hrun : runAlone b x st with ⟨_ | a, st'⟩ <;> rw [hrun] at hstate <;>
      obtain rfl : st' = st := hstate <;> rfl

private theorem runAlone_getOrThrow (key : CacheKey) (e : HbarLimiterError) :
    runAlone b (getOrThrow key e) st =
      (match st.get b key with
        | some value => .ok value
        | none => .error e, st) := by
  rw [getOrThrow, runAlone_bind, runAlone_request]
  change runAlone b (match st.get b key with | some _ => _ | none => _) st = _
  cases st.get b key <;> rfl

private theorem reads_getOrThrow (key : CacheKey) (e : HbarLimiterError) :
    Reads b (getOrThrow key e) fun st => st.get b key := by
  intro st
  rw [runAlone_getOrThrow]
  refine ⟨?_, rfl⟩
  dsimp only
  cases st.get b key <;> rfl

private theorem reads_checkExistsAndActive (id : PlanId) :
    Reads b (checkExistsAndActive id) fun st => (st.activePlan b id).map fun _ => () := by
  have hactive : ∀ plan : HbarSpendingPlan, Reads b
      (if plan.active then pure () else throw (.hbarSpendingPlanNotActive id) : LimiterM Unit)
      fun _ => if plan.active then some () else none := by
    intro plan
    split
    · exact Reads.pure ()
    · exact Reads.throw _
  refine ((reads_getOrThrow _ _).bind hactive).congr fun st => ?_
  change (st.plan b id).bind _ = _
  simp only [LimiterState.activePlan]
  cases st.plan b id with
  | none => rfl
  | some plan => by_cases h : plan.active = true <;> simp [h]

private theorem reads_getAmountSpent (id : PlanId) :
    Reads b (getAmountSpent id) fun st => (st.activePlan b id).map fun _ => st.spent b id := by
  refine ((reads_checkExistsAndActive id).bind fun _ =>
    (Reads.get _).bind fun amountSpent => Reads.pure _).congr fun st => ?_
  cases st.activePlan b id <;> rfl

private theorem reads_findByIdWithDetails (id : PlanId) :
    Reads b (findByIdWithDetails id) fun st => st.detailed b id := by
  refine ((reads_getOrThrow _ _).bind fun plan =>
    (reads_getAmountSpent id).bind fun amountSpent => Reads.pure _).congr fun st => ?_
  change (st.plan b id).bind _ = _
  simp only [LimiterState.detailed, LimiterState.activePlan]
  cases st.plan b id with
  | none => rfl
  | some plan => cases h : plan.active <;> simp [Option.filter, h]

private theorem reads_getSpendingPlanByEvmAddress (evmAddress : String) :
    Reads b (getSpendingPlanByEvmAddress evmAddress) fun st =>
      (st.evmLink b evmAddress).bind fun link => st.detailed b link.planId :=
  (reads_getOrThrow _ _).bind fun link => reads_findByIdWithDetails link.planId

private theorem reads_getSpendingPlanByIPAddress (ipAddress : String) :
    Reads b (getSpendingPlanByIPAddress ipAddress) fun st =>
      (st.ipLink b ipAddress).bind fun link => st.detailed b link.planId :=
  (reads_getOrThrow _ _).bind fun link => reads_findByIdWithDetails link.planId

theorem runAlone_getSpendingPlan (evmAddress ipAddress : String) :
    runAlone b (getSpendingPlan evmAddress ipAddress) st =
      (.ok (st.findPlan b evmAddress ipAddress), st) := by
  have hevm : runAlone b (attempt evmAddress (getSpendingPlanByEvmAddress evmAddress)) st =
      (.ok (st.evmPlan b evmAddress), st) :=
    (reads_getSpendingPlanByEvmAddress evmAddress).attempt evmAddress
  rw [getSpendingPlan, LimiterState.findPlan]
  cases hplan : st.evmPlan b evmAddress with
  | some plan =>
    rw [hplan] at hevm
    rw [runAlone_bind_ok hevm]
    rfl
  | none =>
    rw [hplan] at hevm
    rw [runAlone_bind_ok hevm]
    exact (reads_getSpendingPlanByIPAddress ipAddress).attempt ipAddress

end Lookups

section Writes

private theorem Reads.run_eq {x : LimiterM α} {f : LimiterState → Option α} (h : Reads b x f)
    {a : α} (ha : f st = some a) : runAlone b x st = (.ok a, st) := by
  obtain ⟨hval, hstate⟩ := h st
  rcases hrun : runAlone b x st with ⟨_ | a', st'⟩ <;> rw [hrun] at hval hstate <;>
    obtain rfl : st' = st := hstate
  · simp [ha, Except.toOption] at hval
  · simpa [ha, Except.toOption] using hval

/-- The `amountSpent` of one plan has grown, and nothing else that can be read has changed. -/
structure Charged (b : CacheBackend) (st : LimiterState) (id : PlanId) (amount : ℕ)
    (st' : LimiterState) : Prop where
  spent : st'.spent b id = st.spent b id + amount
  other : ∀ key, key ≠ .amountSpent id → st'.get b key = st.get b key
  now : st'.now = st.now
  nextPlanId : st'.nextPlanId = st.nextPlanId
  reset : st'.reset = st.reset

theorem get_set_self {key : CacheKey} {value : key.Value} {ttl : ℤ} :
    (st.set key value ttl).get b key = some value := Store.get_set_self

theorem get_set_of_ne {key key' : CacheKey} {value : key.Value} {ttl : ℤ} (h : key' ≠ key) :
    (st.set key value ttl).get b key' = st.get b key' := Store.get_set_of_ne h

theorem charged_set (id : PlanId) (amount total : ℕ) (ttl : ℤ)
    (htotal : total = st.spent b id + amount) :
    Charged b st id amount (handle b (.set (.amountSpent id) total ttl) st).2 where
  spent := by simp [handle, LimiterState.spent, get_set_self, htotal]
  other _ hkey := get_set_of_ne hkey
  now := rfl
  nextPlanId := rfl
  reset := rfl

theorem charged_incrBy (id : PlanId) (amount : ℕ) :
    Charged b st id amount (handle b (.incrBy id amount) st).2 where
  spent := by simp [handle, LimiterState.spent, LimiterState.get]
  other _ hkey := Store.get_replace_of_ne hkey
  now := rfl
  nextPlanId := rfl
  reset := rfl

private theorem runAlone_incrBy (id : PlanId) (amount : ℕ) :
    ∃ st', runAlone b (incrBy b id amount) st = (.ok (), st') ∧ Charged b st id amount st' := by
  cases b with
  | redisCache => exact ⟨_, rfl, charged_incrBy id amount⟩
  | localLRUCache => exact ⟨_, rfl, charged_set id amount _ _ rfl⟩

theorem runAlone_addToAmountSpent {id : PlanId} (amount : ℕ) (ttl : ℤ)
    (hactive : (st.activePlan b id).isSome) :
    ∃ st', runAlone b (addToAmountSpent b id amount ttl) st = (.ok (), st') ∧
      Charged b st id amount st' := by
  obtain ⟨plan, hplan⟩ := Option.isSome_iff_exists.mp hactive
  have hcheck : runAlone b (checkExistsAndActive id) st = (.ok (), st) :=
    (reads_checkExistsAndActive id).run_eq (by simp [hplan])
  rw [addToAmountSpent, runAlone_bind_ok hcheck, runAlone_bind, runAlone_request]
  change ∃ st', runAlone b (if st.spent b id = 0 then _ else _) st = _ ∧ _
  split
  · rename_i hzero
    refine ⟨_, rfl, charged_set id amount amount ttl ?_⟩
    rw [hzero, Nat.zero_add]
  · exact runAlone_incrBy id amount

/-- A plan under a new id has been created and linked to an EVM address. -/
structure PlanCreated (b : CacheBackend) (st : LimiterState) (evmAddress : String)
    (tier : SubscriptionTier) (id : PlanId) (st' : LimiterState) : Prop where
  id_eq : id = .generated st.nextPlanId
  plan : st'.plan b id = some ⟨id, tier, st.now, true⟩
  link : st'.evmLink b evmAddress = some ⟨evmAddress, id⟩
  other : ∀ key, key ≠ .hbarSpendingPlan id →
    key ≠ .evmAddressHbarSpendingPlan (toLowerCase (trim evmAddress)) →
    st'.get b key = st.get b key
  now : st'.now = st.now
  nextPlanId : st'.nextPlanId = st.nextPlanId + 1
  reset : st'.reset = st.reset

/-- The state after `createSpendingPlanForAddress`. -/
def withNewPlan (cfg : LimiterConfig) (st : LimiterState) (evmAddress : String)
    (tier : SubscriptionTier) : LimiterState :=
  let id := PlanId.generated st.nextPlanId
  let stored := st.set (.hbarSpendingPlan id) ⟨id, tier, st.now, true⟩ cfg.limitDuration
  { stored.set (.evmAddressHbarSpendingPlan (toLowerCase (trim evmAddress))) ⟨evmAddress, id⟩
      cfg.limitDuration with
    nextPlanId := st.nextPlanId + 1 }

theorem runAlone_createSpendingPlanForAddress {cfg : LimiterConfig} {evmAddress : String}
    (hevm : evmAddress ≠ "") (tier : SubscriptionTier) :
    runAlone b (createSpendingPlanForAddress cfg evmAddress tier) st =
      (.ok ⟨⟨.generated st.nextPlanId, tier, st.now, true⟩, 0⟩,
        withNewPlan cfg st evmAddress tier) := by
  rw [createSpendingPlanForAddress, if_neg hevm]
  rfl

private theorem get_withNewPlan (cfg : LimiterConfig) (evmAddress : String)
    (tier : SubscriptionTier) (key : CacheKey) :
    (withNewPlan cfg st evmAddress tier).get b key =
      ((st.set (.hbarSpendingPlan (.generated st.nextPlanId))
        ⟨.generated st.nextPlanId, tier, st.now, true⟩ cfg.limitDuration).set
          (.evmAddressHbarSpendingPlan (toLowerCase (trim evmAddress)))
          ⟨evmAddress, .generated st.nextPlanId⟩ cfg.limitDuration).get b key := rfl

theorem planCreated_withNewPlan (cfg : LimiterConfig) (st : LimiterState) (evmAddress : String)
    (tier : SubscriptionTier) :
    PlanCreated b st evmAddress tier (.generated st.nextPlanId)
      (withNewPlan cfg st evmAddress tier) where
  id_eq := rfl
  plan := by
    rw [LimiterState.plan, get_withNewPlan, get_set_of_ne (by simp), get_set_self]
  link := by
    rw [LimiterState.evmLink, get_withNewPlan, get_set_self]
  other key hplan hlink := by
    rw [get_withNewPlan, get_set_of_ne hlink, get_set_of_ne hplan]
  now := rfl
  nextPlanId := rfl
  reset := rfl

end Writes

end JsonRpcRelay.HbarLimiter

import Mathlib.Algebra.Group.Pi.Basic
import JsonRpcRelay.Framework.Interleaving
import JsonRpcRelay.HbarLimiter.Effects

/-!
# Calls of the limiter at the same time

Several calls run over one cache and are interleaved at their requests.  A call goes wrong
when it writes what it has computed from a value that another call has changed in the
meantime.  The contract of a call excludes just that, and then every step leaves the plans
and links that others rely on.
-/

namespace JsonRpcRelay.HbarLimiter

open Framework

section Calls

/-- What a call has seen so far and what its own requests have done. -/
structure CallRecord where
  ipAddress : String
  /-- The last reply to `get` for each key. -/
  seen : (key : CacheKey) → Option (Option key.Value)
  /-- By how much the requests of the call have changed the `amountSpent` of each plan. -/
  credit : PlanId → ℤ

def CallRecord.start (ipAddress : String) : CallRecord := ⟨ipAddress, fun _ => none, 0⟩

def bookedSpent (b : CacheBackend) (st : LimiterState) (id : PlanId) : ℤ := st.spent b id

def CallRecord.note (b : CacheBackend) (l : CallRecord) (op : CacheOp) (reply : op.Reply)
    (s t : LimiterState) : CallRecord where
  ipAddress := l.ipAddress
  seen := match op, reply with
    | .get key, value => Function.update l.seen key (some value)
    | _, _ => l.seen
  credit := l.credit + (bookedSpent b t - bookedSpent b s)

/-- The environment only lets time pass. -/
def limiterProtocol (b : CacheBackend) :
    Protocol CacheOp CacheOp.Reply Unit ℕ LimiterState CallRecord where
  act op _ s := some (handle b op s)
  env ms s := some (s.advance ms)
  note := CallRecord.note b

end Calls

section Frames

variable {b : CacheBackend} {st s t u : LimiterState}

namespace LimiterState

variable (b : CacheBackend) (st : LimiterState)

/-- An id that is configured or has been drawn. -/
def Known (id : PlanId) : Prop := ∀ n, st.nextPlanId ≤ n → id ≠ .generated n

/-- The active plan that is linked to an EVM address. -/
def evmActivePlan (evmAddress : String) : Option HbarSpendingPlan :=
  if evmAddress = "" then none
  else (st.evmLink b evmAddress).bind fun link => st.activePlan b link.planId

/-- The active plan that is linked to an IP address. -/
def ipActivePlan (ipAddress : String) : Option HbarSpendingPlan :=
  if ipAddress = "" then none
  else (st.ipLink b ipAddress).bind fun link => st.activePlan b link.planId

theorem evmPlan_map (evmAddress : String) :
    (st.evmPlan b evmAddress).map (·.toHbarSpendingPlan) = st.evmActivePlan b evmAddress := by
  unfold evmPlan evmActivePlan
  split
  · rfl
  · simp only [Option.map_bind, Function.comp_def, detailed_toPlan]

theorem ipPlan_map (ipAddress : String) :
    (st.ipPlan b ipAddress).map (·.toHbarSpendingPlan) = st.ipActivePlan b ipAddress := by
  unfold ipPlan ipActivePlan
  split
  · rfl
  · simp only [Option.map_bind, Function.comp_def, detailed_toPlan]

end LimiterState

theorem WellFormed.known_of_active (hwf : WellFormed b st) {id : PlanId}
    (h : (st.activePlan b id).isSome) : st.Known id := fun _ hn => hwf.known h hn

theorem WellFormed.known_of_evmLink (hwf : WellFormed b st) {evmAddress : String}
    {link : EvmAddressHbarSpendingPlan} (h : st.evmLink b evmAddress = some link) :
    st.Known link.planId := fun n hn => hwf.freshEvmLink evmAddress link h n hn

theorem WellFormed.known_of_ipLink (hwf : WellFormed b st) {ipAddress : String}
    {link : IPAddressHbarSpendingPlan} (h : st.ipLink b ipAddress = some link) :
    st.Known link.planId := fun n hn => hwf.freshIPLink ipAddress link h n hn

private theorem WellFormed.activePlan_id (hwf : WellFormed b st) {id : PlanId}
    {plan : HbarSpendingPlan} (h : st.activePlan b id = some plan) : plan.id = id :=
  hwf.planId id plan (Option.filter_eq_some_iff.mp h).1

theorem WellFormed.evmActivePlan_active (hwf : WellFormed b st) {evmAddress : String}
    {plan : HbarSpendingPlan} (h : st.evmActivePlan b evmAddress = some plan) :
    st.activePlan b plan.id = some plan := by
  unfold LimiterState.evmActivePlan at h
  split at h
  · cases h
  · obtain ⟨link, _, hplan⟩ := Option.bind_eq_some_iff.mp h
    rw [hwf.activePlan_id hplan]
    exact hplan

theorem WellFormed.ipActivePlan_active (hwf : WellFormed b st) {ipAddress : String}
    {plan : HbarSpendingPlan} (h : st.ipActivePlan b ipAddress = some plan) :
    st.activePlan b plan.id = some plan := by
  unfold LimiterState.ipActivePlan at h
  split at h
  · cases h
  · obtain ⟨link, _, hplan⟩ := Option.bind_eq_some_iff.mp h
    rw [hwf.activePlan_id hplan]
    exact hplan

/-- What no step takes away: plans stay as they are, an address that has a plan keeps it, and
the IP addresses keep theirs. -/
structure Frame (b : CacheBackend) (s t : LimiterState) : Prop where
  nextPlanId : s.nextPlanId ≤ t.nextPlanId
  activePlan : ∀ id, s.Known id → t.activePlan b id = s.activePlan b id
  evmPlan : ∀ evmAddress plan, s.evmActivePlan b evmAddress = some plan →
    t.evmActivePlan b evmAddress = some plan
  ipPlan : ∀ ipAddress, t.ipActivePlan b ipAddress = s.ipActivePlan b ipAddress

theorem Frame.refl (s : LimiterState) : Frame b s s :=
  ⟨Nat.le_refl _, fun _ _ => rfl, fun _ _ h => h, fun _ => rfl⟩

theorem Frame.known (h : Frame b s t) {id : PlanId} (hid : s.Known id) : t.Known id :=
  fun n hn => hid n (Nat.le_trans h.nextPlanId hn)

theorem Frame.trans (h : Frame b s t) (h' : Frame b t u) : Frame b s u where
  nextPlanId := Nat.le_trans h.nextPlanId h'.nextPlanId
  activePlan id hid := (h'.activePlan id (h.known hid)).trans (h.activePlan id hid)
  evmPlan a plan hplan := h'.evmPlan a plan (h.evmPlan a plan hplan)
  ipPlan a := (h'.ipPlan a).trans (h.ipPlan a)

theorem Frame.evmPlan_none (h : Frame b s t) {evmAddress : String}
    (hnone : t.evmActivePlan b evmAddress = none) : s.evmActivePlan b evmAddress = none := by
  cases hplan : s.evmActivePlan b evmAddress with
  | none => rfl
  | some plan => rw [h.evmPlan _ _ hplan] at hnone; cases hnone

theorem Frame.of_same (hwf : WellFormed b s) (hnext : s.nextPlanId ≤ t.nextPlanId)
    (hactive : ∀ id, s.Known id → t.activePlan b id = s.activePlan b id)
    (hevm : ∀ a, s.evmActivePlan b a ≠ none → t.evmLink b a = s.evmLink b a)
    (hip : ∀ a, t.ipLink b a = s.ipLink b a) : Frame b s t where
  nextPlanId := hnext
  activePlan := hactive
  evmPlan a plan hplan := by
    have hlink := hevm a (by simp [hplan])
    rw [← hplan]
    unfold LimiterState.evmActivePlan
    rw [hlink]
    split
    · rfl
    · cases h : s.evmLink b a with
      | none => rfl
      | some link => exact hactive _ (hwf.known_of_evmLink h)
  ipPlan a := by
    unfold LimiterState.ipActivePlan
    rw [hip]
    split
    · rfl
    · cases h : s.ipLink b a with
      | none => rfl
      | some link => exact hactive _ (hwf.known_of_ipLink h)

end Frames

section Growth

variable {cfg : LimiterConfig} {s₀ s t u : LimiterState}

/-- How the cache has grown since the start: an EVM address that was linked since then is
linked to a plan that was created since then, an operator plan for the operator and a plan of
another tier for everybody else. -/
structure Grown (cfg : LimiterConfig) (s₀ t : LimiterState) : Prop where
  wf : WellFormed cfg.backend t
  frame : Frame cfg.backend s₀ t
  newLink : ∀ a link, t.evmLink cfg.backend a = some link →
    s₀.evmLink cfg.backend a = some link ∨ ¬ s₀.Known link.planId ∧
      ∃ plan, t.activePlan cfg.backend link.planId = some plan ∧
        (plan.subscriptionTier = .operator ↔ SameAddress a cfg.operatorAddress)

theorem Grown.refl (hwf : WellFormed cfg.backend s₀) : Grown cfg s₀ s₀ :=
  ⟨hwf, Frame.refl s₀, fun _ _ h => Or.inl h⟩

theorem Grown.evmPlan_origin (h : Grown cfg s₀ t) (hwf : WellFormed cfg.backend s₀) {a : String}
    {plan : HbarSpendingPlan} (hplan : t.evmActivePlan cfg.backend a = some plan) :
    s₀.evmActivePlan cfg.backend a = some plan ∨ ¬ s₀.Known plan.id ∧
      (plan.subscriptionTier = .operator ↔ SameAddress a cfg.operatorAddress) := by
  unfold LimiterState.evmActivePlan at hplan ⊢
  split at hplan
  · cases hplan
  · rename_i ha
    obtain ⟨link, hlink, hactive⟩ := Option.bind_eq_some_iff.mp hplan
    cases h.newLink a link hlink with
    | inl hold =>
      rw [h.frame.activePlan _ (hwf.known_of_evmLink hold)] at hactive
      exact Or.inl (by simp [ha, hold, hactive])
    | inr hnew =>
      obtain ⟨hid, stored, hstored, htier⟩ := hnew
      obtain rfl : plan = stored := Option.some.inj (hactive.symm.trans hstored)
      rw [← h.wf.activePlan_id hactive] at hid
      exact Or.inr ⟨hid, htier⟩

/-- A step that leaves the links leaves their origin. -/
theorem Grown.of_links (h : Grown cfg s₀ s) (hwf : WellFormed cfg.backend t)
    (hframe : Frame cfg.backend s t)
    (hlink : ∀ a, t.evmLink cfg.backend a = s.evmLink cfg.backend a) : Grown cfg s₀ t where
  wf := hwf
  frame := h.frame.trans hframe
  newLink a link ht := by
    rw [hlink] at ht
    cases h.newLink a link ht with
    | inl hold => exact Or.inl hold
    | inr hnew =>
      rw [← hframe.activePlan _ (h.wf.known_of_evmLink ht)] at hnew
      exact Or.inr hnew

/-- A step that only touches the `amountSpent` of a plan. -/
theorem Grown.of_charged {id : PlanId} {amount : ℕ} (h : Grown cfg s₀ s)
    (hcharge : Charged cfg.backend s id amount t) (hid : (s.activePlan cfg.backend id).isSome) :
    Grown cfg s₀ t ∧ Frame cfg.backend s t := by
  have hframe : Frame cfg.backend s t :=
    Frame.of_same h.wf (Nat.le_of_eq hcharge.nextPlanId.symm) (fun _ _ => hcharge.activePlan_eq _)
      (fun _ _ => hcharge.evmLink_eq _) fun _ => hcharge.ipLink_eq _
  exact ⟨h.of_links (hcharge.wellFormed h.wf hid) hframe fun _ => hcharge.evmLink_eq _, hframe⟩

/-- A new plan is stored that nothing is linked to yet. -/
structure PlanStored (b : CacheBackend) (s : LimiterState) (plan : HbarSpendingPlan)
    (t : LimiterState) : Prop where
  id_eq : plan.id = .generated s.nextPlanId
  stored : t.plan b plan.id = some plan
  other : ∀ key, key ≠ .hbarSpendingPlan plan.id → t.get b key = s.get b key
  nextPlanId : t.nextPlanId = s.nextPlanId + 1

theorem planStored_setNew (b : CacheBackend) (s : LimiterState) (tier : SubscriptionTier)
    (createdAt : ℕ) (ttl : ℤ) :
    PlanStored b s ⟨.generated s.nextPlanId, tier, createdAt, true⟩
      (handle b (.setNew (fun id => ⟨id, tier, createdAt, true⟩) ttl) s).2 where
  id_eq := rfl
  stored := @get_set_self b s (.hbarSpendingPlan (.generated s.nextPlanId)) _ ttl
  other _ hkey := @get_set_of_ne b s (.hbarSpendingPlan (.generated s.nextPlanId)) _ _ ttl hkey
  nextPlanId := rfl

variable {b : CacheBackend} {plan : HbarSpendingPlan}

theorem PlanStored.not_known (h : PlanStored b s plan t) : ¬ s.Known plan.id :=
  fun hid => hid _ (Nat.le_refl _) h.id_eq

theorem PlanStored.plan_of_ne (h : PlanStored b s plan t) {id : PlanId} (hid : id ≠ plan.id) :
    t.plan b id = s.plan b id := h.other _ (by simpa using hid)

theorem PlanStored.spent_eq (h : PlanStored b s plan t) (id : PlanId) :
    t.spent b id = s.spent b id := by
  rw [LimiterState.spent, LimiterState.spent, h.other _ (by simp)]

theorem PlanStored.evmLink_eq (h : PlanStored b s plan t) (evmAddress : String) :
    t.evmLink b evmAddress = s.evmLink b evmAddress := h.other _ (by simp)

theorem PlanStored.ipLink_eq (h : PlanStored b s plan t) (ipAddress : String) :
    t.ipLink b ipAddress = s.ipLink b ipAddress := h.other _ (by simp)

theorem PlanStored.wellFormed (h : PlanStored b s plan t) (hwf : WellFormed b s) :
    WellFormed b t where
  planId id stored hstored := by
    by_cases hid : id = plan.id
    · rw [hid, h.stored] at hstored
      rw [← Option.some.inj hstored, hid]
    · exact hwf.planId id stored (h.plan_of_ne hid ▸ hstored)
  freshPlan n hn := by
    rw [h.nextPlanId] at hn
    have hne : PlanId.generated n ≠ plan.id := by
      rw [h.id_eq, ne_eq, PlanId.generated.injEq]
      omega
    rw [h.plan_of_ne hne]
    exact hwf.freshPlan n (by omega)
  freshSpent n hn := by
    rw [h.nextPlanId] at hn
    rw [h.spent_eq]
    exact hwf.freshSpent n (by omega)
  freshEvmLink a link hlink n hn := by
    rw [h.nextPlanId] at hn
    exact hwf.freshEvmLink a link (h.evmLink_eq a ▸ hlink) n (by omega)
  freshIPLink a link hlink n hn := by
    rw [h.nextPlanId] at hn
    exact hwf.freshIPLink a link (h.ipLink_eq a ▸ hlink) n (by omega)

theorem Grown.of_stored (h : Grown cfg s₀ s) (hstored : PlanStored cfg.backend s plan t) :
    Grown cfg s₀ t ∧ Frame cfg.backend s t := by
  have hactive : ∀ id, s.Known id →
      t.activePlan cfg.backend id = s.activePlan cfg.backend id := by
    intro id hid
    have hne : id ≠ plan.id := fun heq => hstored.not_known (heq ▸ hid)
    rw [LimiterState.activePlan, LimiterState.activePlan, hstored.plan_of_ne hne]
  have hframe : Frame cfg.backend s t :=
    Frame.of_same h.wf (by rw [hstored.nextPlanId]; omega) hactive
      (fun _ _ => hstored.evmLink_eq _) fun _ => hstored.ipLink_eq _
  exact ⟨h.of_links (hstored.wellFormed h.wf) hframe fun _ => hstored.evmLink_eq _, hframe⟩

/-- An address without a plan is linked to a plan that was created since the start. -/
structure Linked (b : CacheBackend) (s : LimiterState) (evmAddress : String) (id : PlanId)
    (t : LimiterState) : Prop where
  link : t.evmLink b evmAddress = some ⟨evmAddress, id⟩
  other : ∀ key, key ≠ .evmAddressHbarSpendingPlan (toLowerCase (trim evmAddress)) →
    t.get b key = s.get b key
  nextPlanId : t.nextPlanId = s.nextPlanId

theorem linked_set (b : CacheBackend) (s : LimiterState) (evmAddress : String) (id : PlanId)
    (ttl : ℤ) :
    Linked b s evmAddress id
      (handle b (.set (.evmAddressHbarSpendingPlan (toLowerCase (trim evmAddress)))
        ⟨evmAddress, id⟩ ttl) s).2 where
  link := get_set_self
  other _ hkey := get_set_of_ne hkey
  nextPlanId := rfl

variable {evmAddress : String} {id : PlanId}

theorem Linked.activePlan_eq (h : Linked b s evmAddress id t) (other : PlanId) :
    t.activePlan b other = s.activePlan b other := by
  rw [LimiterState.activePlan, LimiterState.activePlan, LimiterState.plan, h.other _ (by simp)]
  rfl

theorem Linked.ipLink_eq (h : Linked b s evmAddress id t) (ipAddress : String) :
    t.ipLink b ipAddress = s.ipLink b ipAddress := h.other _ (by simp)

theorem Linked.spent_eq (h : Linked b s evmAddress id t) (other : PlanId) :
    t.spent b other = s.spent b other := by
  rw [LimiterState.spent, LimiterState.spent, h.other _ (by simp)]

theorem Linked.evmLink_of_ne (h : Linked b s evmAddress id t) {other : String}
    (hne : ¬ SameAddress other evmAddress) : t.evmLink b other = s.evmLink b other :=
  h.other _ (by simpa [SameAddress] using hne)

theorem Linked.evmLink_of_same (h : Linked b s evmAddress id t) {other : String}
    (hsame : SameAddress other evmAddress) : t.evmLink b other = some ⟨evmAddress, id⟩ := by
  rw [← h.link, LimiterState.evmLink, LimiterState.evmLink, hsame]

theorem Linked.wellFormed (h : Linked b s evmAddress id t) (hwf : WellFormed b s)
    (hid : s.Known id) : WellFormed b t where
  planId other plan hplan := by
    rw [LimiterState.plan, h.other _ (by simp)] at hplan
    exact hwf.planId other plan hplan
  freshPlan n hn := by
    rw [LimiterState.plan, h.other _ (by simp)]
    exact hwf.freshPlan n (h.nextPlanId ▸ hn)
  freshSpent n hn := by
    rw [h.spent_eq]
    exact hwf.freshSpent n (h.nextPlanId ▸ hn)
  freshEvmLink a link hlink n hn := by
    rw [h.nextPlanId] at hn
    by_cases hsame : SameAddress a evmAddress
    · rw [h.evmLink_of_same hsame, Option.some.injEq] at hlink
      rw [← hlink]
      exact hid n hn
    · exact hwf.freshEvmLink a link (h.evmLink_of_ne hsame ▸ hlink) n hn
  freshIPLink a link hlink n hn :=
    hwf.freshIPLink a link (h.ipLink_eq a ▸ hlink) n (h.nextPlanId ▸ hn)

private theorem evmActivePlan_of_same {other : String} (hsame : SameAddress evmAddress other)
    (hevm : evmAddress ≠ "") (hother : other ≠ "") :
    s.evmActivePlan b evmAddress = s.evmActivePlan b other := by
  rw [← LimiterState.evmPlan_map, ← LimiterState.evmPlan_map,
    evmPlan_of_same hsame hevm hother]

theorem Grown.of_linked (h : Grown cfg s₀ s) (hlinked : Linked cfg.backend s evmAddress id t)
    (hevm : evmAddress ≠ "") (hnone : s.evmActivePlan cfg.backend evmAddress = none)
    (hplan : s.activePlan cfg.backend id = some plan) (hid : ¬ s₀.Known id)
    (htier : plan.subscriptionTier = .operator ↔ SameAddress evmAddress cfg.operatorAddress) :
    Grown cfg s₀ t ∧ Frame cfg.backend s t := by
  have hknown : s.Known id := h.wf.known_of_active (by simp [hplan])
  have hframe : Frame cfg.backend s t := by
    apply Frame.of_same h.wf (Nat.le_of_eq hlinked.nextPlanId.symm)
      (fun _ _ => hlinked.activePlan_eq _) _ fun _ => hlinked.ipLink_eq _
    intro a ha
    apply hlinked.evmLink_of_ne
    intro hsame
    by_cases hempty : a = ""
    · simp [LimiterState.evmActivePlan, hempty] at ha
    · exact ha ((evmActivePlan_of_same hsame hempty hevm).trans hnone)
  refine ⟨⟨hlinked.wellFormed h.wf hknown, h.frame.trans hframe, fun a link hlink => ?_⟩, hframe⟩
  by_cases hsame : SameAddress a evmAddress
  · rw [hlinked.evmLink_of_same hsame, Option.some.injEq] at hlink
    subst hlink
    have hsame' : SameAddress a cfg.operatorAddress ↔
        SameAddress evmAddress cfg.operatorAddress := by
      unfold SameAddress at hsame ⊢
      rw [hsame]
    exact Or.inr ⟨hid, plan, (hlinked.activePlan_eq id).trans hplan, htier.trans hsame'.symm⟩
  · rw [hlinked.evmLink_of_ne hsame] at hlink
    rw [hlinked.activePlan_eq]
    exact h.newLink a link hlink

theorem Linked.evmActivePlan_self (h : Linked b s evmAddress id t) (hevm : evmAddress ≠ "")
    (hplan : s.activePlan b id = some plan) : t.evmActivePlan b evmAddress = some plan := by
  simp [LimiterState.evmActivePlan, hevm, h.link, h.activePlan_eq, hplan]

end Growth

section Contract

/-- A call writes a key only while the key still has the value that the call last read, and it
looks for the operator's plan only where the fallback to the plan of an IP address cannot
stand in for it. -/
def UndisturbedRequest (cfg : LimiterConfig) (l : CallRecord) (op : CacheOp)
    (st : LimiterState) : Prop :=
  match op with
  | .set key _ _ => l.seen key = some (st.get cfg.backend key)
  | .get key =>
      key = .evmAddressHbarSpendingPlan (toLowerCase (trim cfg.operatorAddress)) →
        (st.evmActivePlan cfg.backend cfg.operatorAddress).isSome ∨
          st.ipActivePlan cfg.backend l.ipAddress = none
  | _ => True

instance (key : CacheKey) : DecidableEq key.Value :=
  match key with
  | .hbarSpendingPlan _ => inferInstanceAs (DecidableEq HbarSpendingPlan)
  | .amountSpent _ => inferInstanceAs (DecidableEq ℕ)
  | .evmAddressHbarSpendingPlan _ => inferInstanceAs (DecidableEq EvmAddressHbarSpendingPlan)
  | .ipAddressHbarSpendingPlan _ => inferInstanceAs (DecidableEq IPAddressHbarSpendingPlan)

instance (cfg : LimiterConfig) (l : CallRecord) (op : CacheOp) (st : LimiterState) :
    Decidable (UndisturbedRequest cfg l op st) :=
  match op with
  | .set key _ _ => inferInstanceAs (Decidable (l.seen key = some (st.get cfg.backend key)))
  | .get key => inferInstanceAs (Decidable (key = _ → _ ∨ _))
  | .setNew .. | .delete _ | .keys _ | .incrBy .. | .getRemainingTtl _ | .dateNow | .getReset
  | .setReset _ => .isTrue trivial

/-- No entry expires. -/
def NoExpiry (b : CacheBackend) (ms : ℕ) (st : LimiterState) : Prop :=
  ∀ key, (st.advance ms).get b key = st.get b key

theorem Grown.of_advance {cfg : LimiterConfig} {s₀ s : LimiterState} {ms : ℕ}
    (h : Grown cfg s₀ s) (hkeep : NoExpiry cfg.backend ms s) :
    Grown cfg s₀ (s.advance ms) ∧ Frame cfg.backend s (s.advance ms) := by
  have hactive : ∀ id, (s.advance ms).activePlan cfg.backend id =
      s.activePlan cfg.backend id := by
    intro id
    rw [LimiterState.activePlan, LimiterState.activePlan, LimiterState.plan, hkeep]
    rfl
  have hframe : Frame cfg.backend s (s.advance ms) :=
    Frame.of_same h.wf (Nat.le_refl _) (fun id _ => hactive id) (fun _ _ => hkeep _)
      fun _ => hkeep _
  exact ⟨h.of_links (advance_wellFormed ms h.wf) hframe fun _ => hkeep _, hframe⟩

/-- The calls of the limiter that start in `s₀`. -/
def limiterContract (cfg : LimiterConfig) (s₀ : LimiterState) :
    (limiterProtocol cfg.backend).Contract where
  request := UndisturbedRequest cfg
  env := NoExpiry cfg.backend
  rely s t := Grown cfg s₀ s → Grown cfg s₀ t ∧ Frame cfg.backend s t
  refl s h := ⟨h, Frame.refl s⟩
  trans s t u hst htu h :=
    ⟨(htu (hst h).1).1, (hst h).2.trans (htu (hst h).1).2⟩
  env_rely ms s t hms ht h := by
    obtain rfl : s.advance ms = t := Option.some.inj ht
    exact h.of_advance hms

instance (cfg : LimiterConfig) (s₀ : LimiterState) (l : CallRecord) (op : CacheOp)
    (st : LimiterState) : Decidable ((limiterContract cfg s₀).request l op st) :=
  inferInstanceAs (Decidable (UndisturbedRequest cfg l op st))

end Contract

end JsonRpcRelay.HbarLimiter

import Mathlib.Algebra.BigOperators.Pi
import JsonRpcRelay.HbarLimiter.Interleaved

/-!
# A call of the limiter among others

Each function of the limiter is verified alone against the contract of `Interleaved`.  A call
of `addExpense` books its cost on the operator's plan and on the plan of its caller.
-/

namespace JsonRpcRelay.HbarLimiter

open Framework

variable {cfg : LimiterConfig} {s₀ s t u : LimiterState} {l l' l'' : CallRecord} {α β : Type}

section Rules

variable {post : Except HbarLimiterError α → CallRecord → LimiterState → Prop}

/-- The code never throws, and its result meets `post`. -/
def Returns (cfg : LimiterConfig) (s₀ : LimiterState) (x : LimiterM α)
    (post : α → CallRecord → LimiterState → Prop) (l : CallRecord) (s : LimiterState) : Prop :=
  (limiterContract cfg s₀).wp x.run (fun r l' t => ∃ a, r = .ok a ∧ post a l' t) l s

private theorem returns_request {op : CacheOp} {post : op.Reply → CallRecord → LimiterState → Prop}
    (hs : Grown cfg s₀ s)
    (h : ∀ t, Grown cfg s₀ t → Frame cfg.backend s t → UndisturbedRequest cfg l op t →
      (Grown cfg s₀ (handle cfg.backend op t).2 ∧
        Frame cfg.backend t (handle cfg.backend op t).2) ∧
      ∀ u, Grown cfg s₀ u → Frame cfg.backend (handle cfg.backend op t).2 u →
        post (handle cfg.backend op t).1
          (l.note cfg.backend op (handle cfg.backend op t).1 t (handle cfg.backend op t).2) u) :
    Returns cfg s₀ (request op) post l s := by
  intro t hst hok _ r u hact
  obtain ⟨rfl, rfl⟩ : (handle cfg.backend op t).1 = r ∧ (handle cfg.backend op t).2 = u :=
    Prod.ext_iff.mp (Option.some.inj hact)
  obtain ⟨ht, hframe⟩ := hst hs
  obtain ⟨hnext, hpost⟩ := h t ht hframe hok
  refine ⟨fun _ => hnext, fun v huv => ?_⟩
  obtain ⟨hv, hframe'⟩ := huv hnext.1
  exact ⟨_, rfl, hpost v hv hframe'⟩

theorem wp_then {x : LimiterM α} {f : α → LimiterM β}
    {post' : Except HbarLimiterError β → CallRecord → LimiterState → Prop}
    (hs : Grown cfg s₀ s) (h : (limiterContract cfg s₀).wp x.run post l s)
    (hok : ∀ a l' t, Grown cfg s₀ t → Frame cfg.backend s t → post (.ok a) l' t →
      (limiterContract cfg s₀).wp (f a).run post' l' t)
    (herror : ∀ e l' t, Grown cfg s₀ t → Frame cfg.backend s t → post (.error e) l' t →
      post' (.error e) l' t) :
    (limiterContract cfg s₀).wp (x >>= f).run post' l s := by
  apply Protocol.Contract.wp_run_seq h
  · exact fun a l' t hst => hok a l' t (hst hs).1 (hst hs).2
  · exact fun e l' t hst => herror e l' t (hst hs).1 (hst hs).2

theorem Returns.wp_then {x : LimiterM α} {f : α → LimiterM β}
    {post : α → CallRecord → LimiterState → Prop}
    {post' : Except HbarLimiterError β → CallRecord → LimiterState → Prop}
    (h : Returns cfg s₀ x post l s) (hs : Grown cfg s₀ s)
    (hnext : ∀ a l' t, Grown cfg s₀ t → Frame cfg.backend s t → post a l' t →
      (limiterContract cfg s₀).wp (f a).run post' l' t) :
    (limiterContract cfg s₀).wp (x >>= f).run post' l s := by
  apply HbarLimiter.wp_then hs h
  · rintro a l' t ht hframe ⟨_, hr, hpost⟩
    obtain rfl := Except.ok.inj hr
    exact hnext a l' t ht hframe hpost
  · rintro e l' t _ _ ⟨_, hr, _⟩
    cases hr

private theorem returns_pure {a : α} {post : α → CallRecord → LimiterState → Prop}
    (hs : Grown cfg s₀ s) (h : ∀ t, Grown cfg s₀ t → Frame cfg.backend s t → post a l t) :
    Returns cfg s₀ (pure a) post l s :=
  fun t hst => ⟨a, rfl, h t (hst hs).1 (hst hs).2⟩

theorem wp_weaken {x : LimiterM α}
    {post' : Except HbarLimiterError α → CallRecord → LimiterState → Prop}
    (hs : Grown cfg s₀ s) (h : (limiterContract cfg s₀).wp x.run post l s)
    (hpost : ∀ r l' t, Grown cfg s₀ t → Frame cfg.backend s t → post r l' t → post' r l' t) :
    (limiterContract cfg s₀).wp x.run post' l s := by
  apply Protocol.Contract.wp_mono (Protocol.Contract.wp_rely h)
  rintro r l' t ⟨hst, hkept⟩
  exact hpost r l' t (hst hs).1 (hst hs).2 (hkept t ((limiterContract cfg s₀).refl t))

theorem wp_return {a : α} (hs : Grown cfg s₀ s)
    (h : ∀ t, Grown cfg s₀ t → Frame cfg.backend s t → post (.ok a) l t) :
    (limiterContract cfg s₀).wp (pure a : LimiterM α).run post l s :=
  fun t hst => h t (hst hs).1 (hst hs).2

theorem wp_throw {e : HbarLimiterError} (hs : Grown cfg s₀ s)
    (h : ∀ t, Grown cfg s₀ t → Frame cfg.backend s t → post (.error e) l t) :
    (limiterContract cfg s₀).wp (throw e : LimiterM α).run post l s :=
  fun t hst => h t (hst hs).1 (hst hs).2

end Rules

section Records

/-- The call has not changed the `amountSpent` of any plan. -/
structure Silent (l l' : CallRecord) : Prop where
  ipAddress : l'.ipAddress = l.ipAddress
  credit : l'.credit = l.credit

/-- Nor has it read a link of an EVM address. -/
structure Aside (l l' : CallRecord) : Prop extends Silent l l' where
  links : ∀ evmAddress, l'.seen (.evmAddressHbarSpendingPlan evmAddress) =
    l.seen (.evmAddressHbarSpendingPlan evmAddress)

theorem Silent.refl (l : CallRecord) : Silent l l := ⟨rfl, rfl⟩

theorem Silent.trans (h : Silent l l') (h' : Silent l' l'') : Silent l l'' :=
  ⟨h'.ipAddress.trans h.ipAddress, h'.credit.trans h.credit⟩

theorem Aside.refl (l : CallRecord) : Aside l l := ⟨Silent.refl l, fun _ => rfl⟩

theorem Aside.trans (h : Aside l l') (h' : Aside l' l'') : Aside l l'' :=
  ⟨h.toSilent.trans h'.toSilent, fun a => (h'.links a).trans (h.links a)⟩

variable {b : CacheBackend}

private theorem note_get_silent (key : CacheKey) (reply : Option key.Value) :
    Silent l (l.note b (.get key) reply t t) :=
  ⟨rfl, by simp [CallRecord.note]⟩

private theorem note_get_seen (key : CacheKey) (reply : Option key.Value) :
    (l.note b (.get key) reply t t).seen key = some reply := by
  simp [CallRecord.note]

private theorem note_get_aside (key : CacheKey) (reply : Option key.Value)
    (hkey : ∀ a, key ≠ .evmAddressHbarSpendingPlan a) :
    Aside l (l.note b (.get key) reply t t) :=
  ⟨note_get_silent key reply, fun a => Function.update_of_ne (hkey a).symm _ _⟩

theorem Charged.booked {id : PlanId} {amount : ℕ} (h : Charged b s id amount t) :
    bookedSpent b t - bookedSpent b s = Pi.single id (amount : ℤ) := by
  funext other
  by_cases hother : other = id
  · subst hother
    simp [bookedSpent, h.spent]
  · simp [bookedSpent, h.spent_of_ne hother, hother]

private theorem booked_of_spent (h : ∀ id, t.spent b id = s.spent b id) :
    bookedSpent b t - bookedSpent b s = 0 := by
  funext id
  simp [bookedSpent, h]

end Records

section Reads

variable {id : PlanId}

private theorem returns_get (key : CacheKey) (hs : Grown cfg s₀ s) :
    Returns cfg s₀ (request (.get key))
      (fun reply l' t => ∃ t₀, Grown cfg s₀ t₀ ∧ Frame cfg.backend s t₀ ∧
        Frame cfg.backend t₀ t ∧ UndisturbedRequest cfg l (.get key) t₀ ∧
        reply = t₀.get cfg.backend key ∧ l' = l.note cfg.backend (.get key) reply t₀ t₀) l s := by
  apply returns_request hs
  intro t₀ ht₀ hframe hok
  refine ⟨⟨ht₀, Frame.refl t₀⟩, fun u _ hu => ?_⟩
  exact ⟨t₀, ht₀, hframe, hu, hok, rfl, rfl⟩

private theorem wp_findById (hs : Grown cfg s₀ s) (hid : s.Known id) :
    (limiterContract cfg s₀).wp (findById id).run
      (fun r l' _ => Aside l l' ∧
        r.toOption.filter (·.active) = s.activePlan cfg.backend id) l s := by
  apply (returns_get _ hs).wp_then hs
  rintro reply l' t ht hframe ⟨t₀, ht₀, hbefore, hafter, _, hreply, rfl⟩
  have haside := @note_get_aside t₀ l cfg.backend (.hbarSpendingPlan id) reply (by simp)
  have hplan : t₀.activePlan cfg.backend id = reply.filter (·.active) := by
    rw [hreply]
    rfl
  rw [hbefore.activePlan id hid] at hplan
  cases reply with
  | none => exact wp_throw ht fun _ _ _ => ⟨haside, hplan.symm⟩
  | some plan => exact wp_return ht fun _ _ _ => ⟨haside, hplan.symm⟩

private theorem wp_checkExistsAndActive (hs : Grown cfg s₀ s) (hid : s.Known id) :
    (limiterContract cfg s₀).wp (checkExistsAndActive id).run
      (fun r l' _ => Aside l l' ∧
        r.toOption = (s.activePlan cfg.backend id).map fun _ => ()) l s := by
  apply wp_then hs (wp_findById hs hid)
  · rintro plan l' t ht _ ⟨haside, hplan⟩
    by_cases hactive : plan.active = true
    · have hsome : s.activePlan cfg.backend id = some plan := by
        rw [← hplan]
        simp [Except.toOption, hactive]
      rw [if_pos hactive]
      exact wp_return ht fun _ _ _ => ⟨haside, by rw [hsome]; rfl⟩
    · have hnone : s.activePlan cfg.backend id = none := by
        rw [← hplan]
        simp [Except.toOption, hactive]
      rw [if_neg hactive]
      exact wp_throw ht fun _ _ _ => ⟨haside, by rw [hnone]; rfl⟩
  · rintro e l' t _ _ ⟨haside, hplan⟩
    exact ⟨haside, by rw [← hplan]; rfl⟩

private theorem wp_getAmountSpent (hs : Grown cfg s₀ s) (hid : s.Known id) :
    (limiterContract cfg s₀).wp (getAmountSpent id).run
      (fun r l' _ => Aside l l' ∧
        r.toOption.map (fun _ => ()) = (s.activePlan cfg.backend id).map fun _ => ()) l s := by
  apply wp_then hs (wp_checkExistsAndActive hs hid)
  · rintro _ l₁ t₁ ht₁ _ ⟨haside, hactive⟩
    apply (returns_get _ ht₁).wp_then ht₁
    rintro reply l₂ t₂ ht₂ _ ⟨t₀, _, _, _, _, _, rfl⟩
    have haside' := @note_get_aside t₀ l₁ cfg.backend (.amountSpent id) reply (by simp)
    exact wp_return ht₂ fun _ _ _ => ⟨haside.trans haside', hactive⟩
  · rintro e l' t _ _ ⟨haside, hactive⟩
    exact ⟨haside, hactive⟩

private theorem wp_findByIdWithDetails (hs : Grown cfg s₀ s) (hid : s.Known id) :
    (limiterContract cfg s₀).wp (findByIdWithDetails id).run
      (fun r l' _ => Aside l l' ∧
        r.toOption.map (·.toHbarSpendingPlan) = s.activePlan cfg.backend id) l s := by
  apply wp_then hs (wp_findById hs hid)
  · rintro plan l₁ t₁ ht₁ hframe ⟨haside, hplan⟩
    apply wp_then ht₁ (wp_getAmountSpent ht₁ (hframe.known hid))
    · rintro amountSpent l₂ t₂ ht₂ _ ⟨haside', hactive⟩
      refine wp_return ht₂ fun _ _ _ => ⟨haside.trans haside', ?_⟩
      rw [hframe.activePlan id hid] at hactive
      obtain ⟨found, hfound, _⟩ := Option.map_eq_some_iff.mp hactive.symm
      rw [hfound] at hplan
      rw [hfound, ← (Option.filter_eq_some_iff.mp hplan).1]
      rfl
    · rintro e l₂ t₂ _ _ ⟨haside', hactive⟩
      rw [hframe.activePlan id hid] at hactive
      exact ⟨haside.trans haside', (Option.map_eq_none_iff.mp hactive.symm).symm⟩
  · rintro e l' t _ _ ⟨haside, hplan⟩
    exact ⟨haside, hplan⟩

end Reads

section Lookups

variable {evmAddress ipAddress : String} {t₀ : LimiterState}

/-- The key of an EVM address. -/
def evmKey (evmAddress : String) : CacheKey :=
  .evmAddressHbarSpendingPlan (toLowerCase (trim evmAddress))

/-- The link of an EVM address was read in `t₀`. -/
structure LinkRead (cfg : LimiterConfig) (s₀ s : LimiterState) (evmAddress : String)
    (l l' : CallRecord) (t₀ t : LimiterState) : Prop where
  grown : Grown cfg s₀ t₀
  before : Frame cfg.backend s t₀
  after : Frame cfg.backend t₀ t
  silent : Silent l l'
  seen : evmAddress ≠ "" → l'.seen (evmKey evmAddress) = some (t₀.evmLink cfg.backend evmAddress)
  permitted : evmAddress ≠ "" → UndisturbedRequest cfg l (.get (evmKey evmAddress)) t₀

theorem LinkRead.later (h : LinkRead cfg s₀ s evmAddress l l' t₀ t) (haside : Aside l' l'')
    (hframe : Frame cfg.backend t u) : LinkRead cfg s₀ s evmAddress l l'' t₀ u :=
  ⟨h.grown, h.before, h.after.trans hframe, h.silent.trans haside.toSilent,
    fun hevm => (haside.links _).trans (h.seen hevm), h.permitted⟩

private theorem wp_getSpendingPlanByEvmAddress (hs : Grown cfg s₀ s) (hevm : evmAddress ≠ "") :
    (limiterContract cfg s₀).wp (getSpendingPlanByEvmAddress evmAddress).run
      (fun r l' t => ∃ t₀, LinkRead cfg s₀ s evmAddress l l' t₀ t ∧
        r.toOption.map (·.toHbarSpendingPlan) = t₀.evmActivePlan cfg.backend evmAddress) l s := by
  have hlink : (limiterContract cfg s₀).wp (findByEvmAddress evmAddress).run
      (fun r l' t => ∃ t₀, LinkRead cfg s₀ s evmAddress l l' t₀ t ∧
        r.toOption = t₀.evmLink cfg.backend evmAddress) l s := by
    apply (returns_get (evmKey evmAddress) hs).wp_then hs
    rintro reply l' t ht _ ⟨t₀, ht₀, hbefore, hafter, hok, hreply, rfl⟩
    have hread : ∀ u, Frame cfg.backend t u → LinkRead cfg s₀ s evmAddress l
        (l.note cfg.backend (.get (evmKey evmAddress)) reply t₀ t₀) t₀ u := fun u hu =>
      ⟨ht₀, hbefore, hafter.trans hu, note_get_silent _ _,
        fun _ => (note_get_seen _ _).trans (congrArg some hreply), fun _ => hok⟩
    cases reply with
    | none => exact wp_throw ht fun u _ hu => ⟨t₀, hread u hu, hreply⟩
    | some link => exact wp_return ht fun u _ hu => ⟨t₀, hread u hu, hreply⟩
  apply wp_then hs hlink
  · rintro link l₁ t₁ ht₁ _ ⟨t₀, hread, hlink⟩
    have hlink : t₀.evmLink cfg.backend evmAddress = some link := hlink.symm
    have hid := hread.grown.wf.known_of_evmLink hlink
    apply wp_weaken ht₁ (wp_findByIdWithDetails ht₁ (hread.after.known hid))
    rintro r l₂ t₂ _ hframe ⟨haside, hplan⟩
    refine ⟨t₀, hread.later haside hframe, hplan.trans ?_⟩
    rw [hread.after.activePlan _ hid]
    simp [LimiterState.evmActivePlan, hevm, hlink]
  · rintro e l₁ t₁ _ _ ⟨t₀, hread, hlink⟩
    refine ⟨t₀, hread, ?_⟩
    rw [LimiterState.evmActivePlan, ← hlink]
    simp [Except.toOption]

private theorem wp_getSpendingPlanByIPAddress (hs : Grown cfg s₀ s) (hip : ipAddress ≠ "") :
    (limiterContract cfg s₀).wp (getSpendingPlanByIPAddress ipAddress).run
      (fun r l' _ => Aside l l' ∧
        r.toOption.map (·.toHbarSpendingPlan) = s.ipActivePlan cfg.backend ipAddress) l s := by
  have hlink : (limiterContract cfg s₀).wp (findByIPAddress ipAddress).run
      (fun r l' t => Aside l l' ∧ ∃ t₀, Grown cfg s₀ t₀ ∧ Frame cfg.backend s t₀ ∧
        Frame cfg.backend t₀ t ∧ r.toOption = t₀.ipLink cfg.backend ipAddress) l s := by
    apply (returns_get (.ipAddressHbarSpendingPlan ipAddress) hs).wp_then hs
    rintro reply l' t ht _ ⟨t₀, ht₀, hbefore, hafter, _, hreply, rfl⟩
    have haside := @note_get_aside t₀ l cfg.backend (.ipAddressHbarSpendingPlan ipAddress) reply
      (by simp)
    cases reply with
    | none =>
      exact wp_throw ht fun u _ hu => ⟨haside, t₀, ht₀, hbefore, hafter.trans hu, hreply⟩
    | some link =>
      exact wp_return ht fun u _ hu => ⟨haside, t₀, ht₀, hbefore, hafter.trans hu, hreply⟩
  apply wp_then hs hlink
  · rintro link l₁ t₁ ht₁ _ ⟨haside, t₀, ht₀, hbefore, hafter, hlink⟩
    have hlink : t₀.ipLink cfg.backend ipAddress = some link := hlink.symm
    have hid := ht₀.wf.known_of_ipLink hlink
    apply wp_weaken ht₁ (wp_findByIdWithDetails ht₁ (hafter.known hid))
    rintro r l₂ t₂ _ _ ⟨haside', hplan⟩
    refine ⟨haside.trans haside', hplan.trans ?_⟩
    rw [hafter.activePlan _ hid, ← hbefore.ipPlan]
    simp [LimiterState.ipActivePlan, hip, hlink]
  · rintro e l₁ t₁ _ _ ⟨haside, t₀, _, hbefore, _, hlink⟩
    refine ⟨haside, ?_⟩
    rw [← hbefore.ipPlan, LimiterState.ipActivePlan, ← hlink]
    simp [Except.toOption]

private theorem wp_attempt {x : LimiterM α} {address : String}
    {post : Except HbarLimiterError α → CallRecord → LimiterState → Prop} (hs : Grown cfg s₀ s)
    (h : address ≠ "" → (limiterContract cfg s₀).wp x.run post l s) :
    (limiterContract cfg s₀).wp (attempt address x).run
      (fun r l' t => (address = "" ∧ r = .ok none ∧ l' = l ∧ Frame cfg.backend s t) ∨
        address ≠ "" ∧ ∃ r', r = .ok r'.toOption ∧ post r' l' t) l s := by
  unfold attempt
  by_cases haddress : address = ""
  · rw [if_pos haddress]
    exact wp_return hs fun t _ ht => Or.inl ⟨haddress, rfl, rfl, ht⟩
  · rw [if_neg haddress]
    have hmap : (limiterContract cfg s₀).wp (some <$> x).run
        (fun r l' t => ∃ r', r = r'.map some ∧ post r' l' t) l s := by
      apply Protocol.Contract.wp_run_map
      exact Protocol.Contract.wp_mono (h haddress) fun r l' t hpost => ⟨r, rfl, hpost⟩
    apply Protocol.Contract.wp_run_tryCatch (Protocol.Contract.wp_rely hmap)
    · rintro a l' t _ ⟨_, hkept⟩
      obtain ⟨r', hr', hpost⟩ := hkept t ((limiterContract cfg s₀).refl t)
      refine Or.inr ⟨haddress, r', ?_, hpost⟩
      cases r' with
      | ok a' => rw [hr']; rfl
      | error e => cases hr'
    · rintro e l' t _ ⟨_, hkept⟩ u htu
      obtain ⟨r', hr', hpost⟩ := hkept u htu
      refine Or.inr ⟨haddress, r', ?_, hpost⟩
      cases r' with
      | ok a' => cases hr'
      | error e => rfl

private theorem returns_getSpendingPlan (evmAddress ipAddress : String) (hs : Grown cfg s₀ s) :
    Returns cfg s₀ (getSpendingPlan evmAddress ipAddress)
      (fun found l' t => ∃ t₀, LinkRead cfg s₀ s evmAddress l l' t₀ t ∧
        found.map (·.toHbarSpendingPlan) = (t₀.evmActivePlan cfg.backend evmAddress).or
          (s.ipActivePlan cfg.backend ipAddress)) l s := by
  have hevmRead : Returns cfg s₀ (attempt evmAddress (getSpendingPlanByEvmAddress evmAddress))
      (fun found l' t => ∃ t₀, LinkRead cfg s₀ s evmAddress l l' t₀ t ∧
        found.map (·.toHbarSpendingPlan) = t₀.evmActivePlan cfg.backend evmAddress) l s := by
    apply wp_weaken hs (wp_attempt hs fun hevm => wp_getSpendingPlanByEvmAddress hs hevm)
    rintro r l' t _ _ (⟨hevm, hr, rfl, hframe⟩ | ⟨_, r', hr, t₀, hread, hplan⟩)
    · refine ⟨none, hr, s, ⟨hs, Frame.refl s, hframe, Silent.refl _, fun h => absurd hevm h,
        fun h => absurd hevm h⟩, ?_⟩
      simp [LimiterState.evmActivePlan, hevm]
    · exact ⟨_, hr, t₀, hread, hplan⟩
  apply hevmRead.wp_then hs
  rintro found l₁ t₁ ht₁ hframe ⟨t₀, hread, hplan⟩
  cases found with
  | some plan =>
    refine returns_pure ht₁ fun u _ hu => ⟨t₀, hread.later (Aside.refl _) hu, ?_⟩
    rw [← hplan]
    rfl
  | none =>
    apply wp_weaken ht₁ (wp_attempt ht₁ fun hip => wp_getSpendingPlanByIPAddress ht₁ hip)
    rintro r l₂ t₂ _ hframe₂ (⟨hip, hr, rfl, _⟩ | ⟨_, r', hr, haside, hipPlan⟩)
    · refine ⟨none, hr, t₀, hread.later (Aside.refl _) hframe₂, ?_⟩
      rw [← hplan]
      simp [LimiterState.ipActivePlan, hip]
    · refine ⟨_, hr, t₀, hread.later haside hframe₂, ?_⟩
      rw [← hplan, hipPlan, hframe.ipPlan]
      rfl

end Lookups

section Writes

variable {evmAddress ipAddress : String} {t₀ : LimiterState}

/-- An address whose link was seen, and that had no plan then, still has none as long as the
link is the same. -/
theorem evmActivePlan_of_seen (h : Grown cfg s₀ t₀) (hafter : Frame cfg.backend t₀ t)
    (hlink : t.evmLink cfg.backend evmAddress = t₀.evmLink cfg.backend evmAddress)
    (hnone : t₀.evmActivePlan cfg.backend evmAddress = none) :
    t.evmActivePlan cfg.backend evmAddress = none := by
  rw [← hnone]
  unfold LimiterState.evmActivePlan
  rw [hlink]
  split
  · rfl
  · cases hread : t₀.evmLink cfg.backend evmAddress with
    | none => rfl
    | some link => exact hafter.activePlan _ (h.wf.known_of_evmLink hread)

/-- A request that changes no `amountSpent` and is not a read of a link. -/
theorem note_aside {b : CacheBackend} {op : CacheOp} {reply : op.Reply}
    (hop : ∀ key, op ≠ .get key) (hspent : ∀ id, t.spent b id = s.spent b id) :
    Aside l (l.note b op reply s t) := by
  refine ⟨⟨rfl, ?_⟩, fun a => ?_⟩
  · change l.credit + _ = l.credit
    rw [booked_of_spent hspent, add_zero]
  · unfold CallRecord.note
    split
    · exact absurd rfl (hop _)
    · rfl

private theorem returns_create (tier : SubscriptionTier) (ttl : ℤ) (hs : Grown cfg s₀ s) :
    Returns cfg s₀ (create tier ttl none)
      (fun plan l' t => Aside l l' ∧
        t.activePlan cfg.backend plan.id = some plan.toHbarSpendingPlan ∧ ¬ s₀.Known plan.id ∧
        plan.subscriptionTier = tier) l s := by
  have hnow : Returns cfg s₀ (request .dateNow) (fun _ l' _ => Aside l l') l s := by
    apply returns_request hs
    exact fun t ht _ _ => ⟨⟨ht, Frame.refl t⟩, fun _ _ _ => note_aside (by simp) fun _ => rfl⟩
  apply hnow.wp_then hs
  intro createdAt l₁ t₁ ht₁ _ haside
  have hstore : Returns cfg s₀ (request (.setNew (fun id => ⟨id, tier, createdAt, true⟩) ttl))
      (fun id l' t => Aside l l' ∧ ¬ s₀.Known id ∧
        t.activePlan cfg.backend id = some ⟨id, tier, createdAt, true⟩) l₁ t₁ := by
    apply returns_request ht₁
    intro t₂ ht₂ _ _
    have hstored := planStored_setNew cfg.backend t₂ tier createdAt ttl
    obtain ⟨ht₃, hframe⟩ := ht₂.of_stored hstored
    have hactive : (handle cfg.backend (.setNew (fun id => ⟨id, tier, createdAt, true⟩) ttl)
        t₂).2.activePlan cfg.backend (.generated t₂.nextPlanId) =
        some ⟨.generated t₂.nextPlanId, tier, createdAt, true⟩ := by
      rw [LimiterState.activePlan, hstored.stored]
      rfl
    have hid := ht₃.wf.known_of_active (Option.isSome_of_eq_some hactive)
    refine ⟨⟨ht₃, hframe⟩, fun u _ hu => ⟨?_, ?_, (hu.activePlan _ hid).trans hactive⟩⟩
    · exact haside.trans (note_aside (by simp) hstored.spent_eq)
    · exact fun hknown => hstored.not_known (ht₂.frame.known hknown)
  apply hstore.wp_then ht₁
  rintro id l₂ t₂ ht₂ _ ⟨haside₂, hid, hactive⟩
  have hknown := ht₂.wf.known_of_active (Option.isSome_of_eq_some hactive)
  exact returns_pure ht₂ fun u _ hu =>
    ⟨haside₂, (hu.activePlan _ hknown).trans hactive, hid, rfl⟩

private theorem returns_saveEvmAddress {plan : HbarSpendingPlan} (ttl : ℤ) (hs : Grown cfg s₀ s)
    (hread : LinkRead cfg s₀ u evmAddress l l' t₀ s) (hevm : evmAddress ≠ "")
    (hnone : t₀.evmActivePlan cfg.backend evmAddress = none)
    (hplan : s.activePlan cfg.backend plan.id = some plan) (hid : ¬ s₀.Known plan.id)
    (htier : plan.subscriptionTier = .operator ↔
      SameAddress evmAddress cfg.operatorAddress) :
    Returns cfg s₀ (saveEvmAddress ⟨evmAddress, plan.id⟩ ttl)
      (fun _ l'' t => Silent l l'' ∧ t.evmActivePlan cfg.backend evmAddress = some plan)
      l' s := by
  have hset : Returns cfg s₀ (request (.set (evmKey evmAddress) ⟨evmAddress, plan.id⟩ ttl))
      (fun _ l'' t => Silent l l'' ∧ t.evmActivePlan cfg.backend evmAddress = some plan)
      l' s := by
    apply returns_request hs
    intro t₁ ht₁ hframe hok
    have hsame : t₁.evmLink cfg.backend evmAddress = t₀.evmLink cfg.backend evmAddress :=
      Option.some.inj (hok.symm.trans (hread.seen hevm))
    have hnone₁ := evmActivePlan_of_seen hread.grown (hread.after.trans hframe) hsame hnone
    have hplan₁ : t₁.activePlan cfg.backend plan.id = some plan := by
      have hknown := hs.wf.known_of_active (Option.isSome_of_eq_some hplan)
      exact (hframe.activePlan _ hknown).trans hplan
    have hlinked := linked_set cfg.backend t₁ evmAddress plan.id ttl
    refine ⟨ht₁.of_linked hlinked hevm hnone₁ hplan₁ hid htier, fun v _ hv => ⟨?_, ?_⟩⟩
    · exact hread.silent.trans (note_aside (by simp) hlinked.spent_eq).toSilent
    · exact hv.evmPlan _ _ (hlinked.evmActivePlan_self hevm hplan₁)
  apply hset.wp_then hs
  rintro _ l₁ t₁ ht₁ _ ⟨hsilent, hactive⟩
  exact returns_pure ht₁ fun v _ hv => ⟨hsilent, hv.evmPlan _ _ hactive⟩

private theorem returns_createSpendingPlanForAddress {tier : SubscriptionTier} (hs : Grown cfg s₀ s)
    (hread : LinkRead cfg s₀ u evmAddress l l' t₀ s) (hevm : evmAddress ≠ "")
    (hnone : t₀.evmActivePlan cfg.backend evmAddress = none)
    (htier : tier = .operator ↔ SameAddress evmAddress cfg.operatorAddress) :
    Returns cfg s₀ (createSpendingPlanForAddress cfg evmAddress tier)
      (fun plan l'' t => Silent l l'' ∧
        t.evmActivePlan cfg.backend evmAddress = some plan.toHbarSpendingPlan) l' s := by
  rw [createSpendingPlanForAddress, if_neg hevm]
  apply (returns_create tier cfg.limitDuration hs).wp_then hs
  rintro plan l₁ t₁ ht₁ hframe ⟨haside, hactive, hid, rfl⟩
  apply (returns_saveEvmAddress _ ht₁ (hread.later haside hframe) hevm hnone hactive hid
    htier).wp_then ht₁
  rintro _ l₂ t₂ ht₂ _ ⟨hsilent, hplan⟩
  exact returns_pure ht₂ fun v _ hv => ⟨hsilent, hv.evmPlan _ _ hplan⟩

/-- The call has added an amount to one plan. -/
structure Booked (l : CallRecord) (id : PlanId) (amount : ℕ) (l' : CallRecord) : Prop where
  ipAddress : l'.ipAddress = l.ipAddress
  credit : l'.credit = l.credit + Pi.single id (amount : ℤ)

private theorem Booked.after_silent {id : PlanId} {amount : ℕ} (hsilent : Silent l l')
    (h : Booked l' id amount l'') : Booked l id amount l'' :=
  ⟨h.ipAddress.trans hsilent.ipAddress, by rw [h.credit, hsilent.credit]⟩

private theorem Booked.then_silent {id : PlanId} {amount : ℕ} (h : Booked l id amount l')
    (hsilent : Silent l' l'') : Booked l id amount l'' :=
  ⟨hsilent.ipAddress.trans h.ipAddress, hsilent.credit.trans h.credit⟩

private theorem returns_charge {op : CacheOp} {id : PlanId} {amount : ℕ} (hs : Grown cfg s₀ s)
    (hactive : (s.activePlan cfg.backend id).isSome)
    (hcharge : ∀ t, UndisturbedRequest cfg l op t →
      Charged cfg.backend t id amount (handle cfg.backend op t).2) :
    Returns cfg s₀ (request op) (fun _ l' _ => Booked l id amount l') l s := by
  apply returns_request hs
  intro t ht hframe hok
  have hcharged := hcharge t hok
  have hactive' : (t.activePlan cfg.backend id).isSome := by
    rw [hframe.activePlan id (hs.wf.known_of_active hactive)]
    exact hactive
  refine ⟨ht.of_charged hcharged hactive', fun _ _ _ => ⟨rfl, ?_⟩⟩
  change l.credit + _ = _
  rw [hcharged.booked]

private theorem returns_incrBy {id : PlanId} (amount : ℕ) (hs : Grown cfg s₀ s)
    (hactive : (s.activePlan cfg.backend id).isSome) :
    Returns cfg s₀ (incrBy cfg.backend id amount) (fun _ l' _ => Booked l id amount l') l s := by
  have hid := hs.wf.known_of_active hactive
  cases hb : cfg.backend with
  | redisCache =>
    apply Returns.wp_then _ hs
    · exact fun _ l₁ t₁ ht₁ _ hbooked => returns_pure ht₁ fun _ _ _ => hbooked
    · exact returns_charge hs hactive fun t _ => charged_incrBy id amount
  | localLRUCache =>
    apply (returns_get (.amountSpent id) hs).wp_then hs
    rintro value l₁ t₁ ht₁ hframe₁ ⟨t₀, _, _, _, _, _, rfl⟩
    have hsilent := @note_get_silent t₀ l cfg.backend (.amountSpent id) value
    have hseen := @note_get_seen t₀ l cfg.backend (.amountSpent id) value
    have hactive₁ := hframe₁.activePlan id hid
    have httl : Returns cfg s₀ (request (.getRemainingTtl (.amountSpent id)))
        (fun _ l'' _ => Silent l l'' ∧ l''.seen (.amountSpent id) = some value)
        (l.note cfg.backend (.get (.amountSpent id)) value t₀ t₀) t₁ := by
      apply returns_request ht₁
      refine fun t ht _ _ => ⟨⟨ht, Frame.refl t⟩, fun _ _ _ => ⟨?_, hseen⟩⟩
      exact hsilent.trans (note_aside (by simp) fun _ => rfl).toSilent
    apply httl.wp_then ht₁
    rintro remainingTtl l₂ t₂ ht₂ hframe₂ ⟨hsilent₂, hseen₂⟩
    have hactive₂ : (t₂.activePlan cfg.backend id).isSome := by
      rw [hframe₂.activePlan id (hframe₁.known hid), hactive₁]
      exact hactive
    apply Returns.wp_then _ ht₂
    · exact fun _ l₃ t₃ ht₃ _ hbooked => returns_pure ht₃ fun _ _ _ =>
        Booked.after_silent hsilent₂ hbooked
    · apply returns_charge ht₂ hactive₂
      intro t hok
      -- the value is still the one that was read
      have hvalue : t.get cfg.backend (.amountSpent id) = value :=
        Option.some.inj (hok.symm.trans hseen₂)
      apply charged_set
      rw [LimiterState.spent, hvalue]

private theorem returns_addToAmountSpent {id : PlanId} (amount : ℕ) (ttl : ℤ) (hs : Grown cfg s₀ s)
    (hactive : (s.activePlan cfg.backend id).isSome) :
    Returns cfg s₀ (addToAmountSpent cfg.backend id amount ttl)
      (fun _ l' _ => Booked l id amount l') l s := by
  have hid := hs.wf.known_of_active hactive
  have hcheck : Returns cfg s₀ (checkExistsAndActive id) (fun _ l' _ => Silent l l') l s := by
    apply wp_weaken hs (wp_checkExistsAndActive hs hid)
    rintro r l' t _ _ ⟨haside, hr⟩
    obtain ⟨plan, hplan⟩ := Option.isSome_iff_exists.mp hactive
    rw [hplan] at hr
    cases r with
    | ok _ => exact ⟨(), rfl, haside.toSilent⟩
    | error e => cases hr
  apply hcheck.wp_then hs
  rintro _ l₁ t₁ ht₁ hframe₁ hsilent₁
  apply (returns_get (.amountSpent id) ht₁).wp_then ht₁
  rintro amountSpent l₂ t₂ ht₂ hframe₂ ⟨t₀, _, _, _, _, _, rfl⟩
  have hsilent := hsilent₁.trans (@note_get_silent t₀ l₁ cfg.backend (.amountSpent id) amountSpent)
  have hactive₂ : (t₂.activePlan cfg.backend id).isSome := by
    rw [(hframe₁.trans hframe₂).activePlan id hid]
    exact hactive
  split
  · rename_i hzero
    apply Returns.wp_then _ ht₂
    · exact fun _ l₃ t₃ ht₃ _ hbooked => returns_pure ht₃ fun _ _ _ =>
        Booked.after_silent hsilent hbooked
    · apply returns_charge ht₂ hactive₂
      intro t hok
      have hvalue : t.get cfg.backend (.amountSpent id) = amountSpent :=
        Option.some.inj (hok.symm.trans (note_get_seen _ _))
      apply charged_set
      rw [LimiterState.spent, hvalue, hzero, Nat.zero_add]
  · apply wp_weaken ht₂ (returns_incrBy amount ht₂ hactive₂)
    rintro r l' t _ _ ⟨a, hr, hbooked⟩
    exact ⟨a, hr, Booked.after_silent hsilent hbooked⟩

end Writes

section Calls

variable {evmAddress ipAddress : String}

private theorem returns_getOperatorSpendingPlan (hs : Grown cfg s₀ s)
    (hip : l.ipAddress = ipAddress) :
    Returns cfg s₀ (getOperatorSpendingPlan cfg ipAddress)
      (fun plan l' t => Silent l l' ∧
        t.evmActivePlan cfg.backend cfg.operatorAddress = some plan.toHbarSpendingPlan) l s := by
  apply (returns_getSpendingPlan cfg.operatorAddress ipAddress hs).wp_then hs
  rintro found l₁ t₁ ht₁ _ ⟨t₀, hread, hfound⟩
  -- the fallback to the plan of the IP address is not taken
  have hown : found.map (·.toHbarSpendingPlan) =
      t₀.evmActivePlan cfg.backend cfg.operatorAddress := by
    rw [hfound]
    cases hread.permitted cfg.operatorAddress_ne rfl with
    | inl hsome =>
      obtain ⟨plan, hplan⟩ := Option.isSome_iff_exists.mp hsome
      rw [hplan, Option.some_or]
    | inr hnone =>
      rw [hip, hread.before.ipPlan] at hnone
      rw [hnone, Option.or_none]
  cases found with
  | some plan =>
    exact returns_pure ht₁ fun u _ hu =>
      ⟨hread.silent, hu.evmPlan _ _ (hread.after.evmPlan _ _ hown.symm)⟩
  | none =>
    exact returns_createSpendingPlanForAddress ht₁ hread cfg.operatorAddress_ne hown.symm
      (by simp [SameAddress])

private theorem returns_getRemainingBudget (hs : Grown cfg s₀ s) (hip : l.ipAddress = ipAddress) :
    Returns cfg s₀ (getRemainingBudget cfg ipAddress) (fun _ l' _ => Silent l l') l s := by
  have hread : Returns cfg s₀
      (do return totalBudget cfg - (← getOperatorSpendingPlan cfg ipAddress).amountSpent)
      (fun _ l' _ => Silent l l') l s := by
    apply (returns_getOperatorSpendingPlan hs hip).wp_then hs
    rintro plan l₁ t₁ ht₁ _ ⟨hsilent, _⟩
    exact returns_pure ht₁ fun _ _ _ => hsilent
  apply Protocol.Contract.wp_run_tryCatch hread
  · exact fun _ _ _ _ hpost => hpost
  · rintro e l' t _ ⟨_, hr, _⟩
    cases hr

/-- The plan that a call has charged for its caller: the one of the EVM address; where there was
none at the start it may be the one of the IP address, and none only without an EVM address. -/
def CallerCharged (b : CacheBackend) (s₀ t : LimiterState) (evmAddress ipAddress : String)
    (charged : Option PlanId) : Prop :=
  (∃ plan, t.evmActivePlan b evmAddress = some plan ∧ charged = some plan.id) ∨
    s₀.evmActivePlan b evmAddress = none ∧
      charged = (s₀.ipActivePlan b ipAddress).map (·.id) ∧ (charged = none → evmAddress = "")

/-- What a call books in all. -/
def expenseCredit (operatorPlan : PlanId) (charged : Option PlanId) (cost : ℕ) : PlanId → ℤ :=
  Pi.single operatorPlan (cost : ℤ) + charged.elim 0 fun id => Pi.single id (cost : ℤ)

theorem CallerCharged.later {b : CacheBackend} {charged : Option PlanId}
    (h : CallerCharged b s₀ t evmAddress ipAddress charged) (hframe : Frame b t u) :
    CallerCharged b s₀ u evmAddress ipAddress charged := by
  cases h with
  | inl hevm =>
    obtain ⟨plan, hplan, hcharged⟩ := hevm
    exact Or.inl ⟨plan, hframe.evmPlan _ _ hplan, hcharged⟩
  | inr hip => exact Or.inr hip

private theorem returns_callerPlan (hs : Grown cfg s₀ s)
    (hcaller : evmAddress = "" ∨ ¬ SameAddress evmAddress cfg.operatorAddress) :
    Returns cfg s₀
      (do
        match ← getSpendingPlan evmAddress ipAddress with
        | some spendingPlan => pure (some spendingPlan)
        | none =>
          if evmAddress = "" then pure none
          else some <$> createSpendingPlanForAddress cfg evmAddress .basic)
      (fun found l' t => Silent l l' ∧
        (∀ plan, found = some plan → (t.activePlan cfg.backend plan.id).isSome) ∧
        CallerCharged cfg.backend s₀ t evmAddress ipAddress (found.map (·.id))) l s := by
  apply (returns_getSpendingPlan evmAddress ipAddress hs).wp_then hs
  rintro found l₁ t₁ ht₁ hframe₁ ⟨t₀, hread, hfound⟩
  cases hevm : t₀.evmActivePlan cfg.backend evmAddress with
  | some stored =>
    rw [hevm, Option.some_or] at hfound
    obtain ⟨plan, rfl, rfl⟩ := Option.map_eq_some_iff.mp hfound
    have hplan₁ := hread.after.evmPlan _ _ hevm
    refine returns_pure ht₁ fun u hu hframe => ⟨hread.silent, ?_, ?_⟩
    · rintro _ ⟨⟩
      have hactive := hu.wf.evmActivePlan_active (hframe.evmPlan _ _ hplan₁)
      exact Option.isSome_of_eq_some hactive
    · exact Or.inl ⟨_, hframe.evmPlan _ _ hplan₁, rfl⟩
  | none =>
    have hstart := (hread.grown.frame).evmPlan_none hevm
    have hip : s.ipActivePlan cfg.backend ipAddress = s₀.ipActivePlan cfg.backend ipAddress :=
      hs.frame.ipPlan ipAddress
    rw [hevm, Option.none_or] at hfound
    have hcharged : found.map (·.id) = (s₀.ipActivePlan cfg.backend ipAddress).map (·.id) := by
      rw [← hip, ← hfound, Option.map_map]
      rfl
    cases found with
    | some plan =>
      refine returns_pure ht₁ fun u hu hframe => ⟨hread.silent, ?_, ?_⟩
      · rintro _ ⟨⟩
        have hplan : u.ipActivePlan cfg.backend ipAddress = some plan.toHbarSpendingPlan := by
          rw [hframe.ipPlan, hframe₁.ipPlan, ← hfound]
          rfl
        exact Option.isSome_of_eq_some (hu.wf.ipActivePlan_active hplan)
      · exact Or.inr ⟨hstart, hcharged, fun hnone => by cases hnone⟩
    | none =>
      by_cases hempty : evmAddress = ""
      · simp only [hempty, if_true]
        refine returns_pure ht₁ fun u _ _ => ⟨hread.silent, ?_, ?_⟩
        · rintro _ ⟨⟩
        · exact Or.inr ⟨hempty ▸ hstart, hcharged, fun _ => rfl⟩
      · simp only [hempty, if_false]
        have htier : SubscriptionTier.basic = .operator ↔
            SameAddress evmAddress cfg.operatorAddress := by
          simp [hcaller.resolve_left hempty]
        apply Protocol.Contract.wp_run_map
        apply wp_weaken ht₁
          (returns_createSpendingPlanForAddress ht₁ hread hempty hevm htier)
        rintro _ l₂ t₂ ht₂ _ ⟨plan, rfl, hsilent, hplan⟩
        refine ⟨some plan, rfl, hsilent, ?_, Or.inl ⟨_, hplan, rfl⟩⟩
        rintro _ ⟨⟩
        exact Option.isSome_of_eq_some (ht₂.wf.evmActivePlan_active hplan)

theorem returns_addExpense {cost : ℕ} (hs : Grown cfg s₀ s) (hip : l.ipAddress = ipAddress)
    (henabled : isEnabled cfg)
    (hcaller : evmAddress = "" ∨ ¬ SameAddress evmAddress cfg.operatorAddress) :
    Returns cfg s₀ (addExpense cfg cost evmAddress ipAddress)
      (fun _ l' t => ∃ operatorPlan charged,
        t.evmActivePlan cfg.backend cfg.operatorAddress = some operatorPlan ∧
        CallerCharged cfg.backend s₀ t evmAddress ipAddress charged ∧
        l'.credit = l.credit + expenseCredit operatorPlan.id charged cost) l s := by
  rw [addExpense]
  simp only [henabled, Bool.not_true, Bool.false_eq_true, if_false]
  apply (returns_getOperatorSpendingPlan hs hip).wp_then hs
  rintro operatorPlan l₁ t₁ ht₁ hframe₁ ⟨hsilent₁, hoperator⟩
  have hactive := Option.isSome_of_eq_some (ht₁.wf.evmActivePlan_active hoperator)
  apply (returns_addToAmountSpent cost cfg.limitDuration ht₁ hactive).wp_then ht₁
  intro _ l₂ t₂ ht₂ hframe₂ hbooked₂
  have hip₂ : l₂.ipAddress = ipAddress :=
    (hbooked₂.ipAddress.trans hsilent₁.ipAddress).trans hip
  apply (returns_getRemainingBudget ht₂ hip₂).wp_then ht₂
  intro _ l₃ t₃ ht₃ hframe₃ hsilent₃
  have hoperator₃ := hframe₃.evmPlan _ _ (hframe₂.evmPlan _ _ hoperator)
  have hbooked₃ : Booked l operatorPlan.id cost l₃ :=
    Booked.after_silent hsilent₁ (hbooked₂.then_silent hsilent₃)
  have hcallerPlan := @returns_callerPlan cfg s₀ t₃ l₃ _ ipAddress ht₃ hcaller
  have hcharge : ∀ found l₄ t₄, Grown cfg s₀ t₄ → Frame cfg.backend t₃ t₄ →
      (Silent l₃ l₄ ∧
        (∀ plan, found = some plan → (t₄.activePlan cfg.backend plan.id).isSome) ∧
        CallerCharged cfg.backend s₀ t₄ evmAddress ipAddress (found.map (·.id))) →
      Returns cfg s₀
        (match (found : Option DetailedHbarSpendingPlan) with
          | some spendingPlan =>
            addToAmountSpent cfg.backend spendingPlan.id cost cfg.limitDuration
          | none => pure ())
        (fun _ l' t => ∃ operatorPlan charged,
          t.evmActivePlan cfg.backend cfg.operatorAddress = some operatorPlan ∧
          CallerCharged cfg.backend s₀ t evmAddress ipAddress charged ∧
          l'.credit = l.credit + expenseCredit operatorPlan.id charged cost) l₄ t₄ := by
    rintro found l₄ t₄ ht₄ hframe₄ ⟨hsilent₄, hactive₄, hcharged₄⟩
    have hbooked₄ := hbooked₃.then_silent hsilent₄
    have hoperator₄ := hframe₄.evmPlan _ _ hoperator₃
    cases found with
    | none =>
      refine returns_pure ht₄ fun u _ hu =>
        ⟨_, none, hu.evmPlan _ _ hoperator₄, hcharged₄.later hu, ?_⟩
      rw [hbooked₄.credit]
      simp [expenseCredit]
    | some plan =>
      apply wp_weaken ht₄
        (returns_addToAmountSpent cost cfg.limitDuration ht₄ (hactive₄ plan rfl))
      rintro r l₅ t₅ _ hframe₅ ⟨_, rfl, hbooked₅⟩
      refine ⟨(), rfl, _, some plan.id, hframe₅.evmPlan _ _ hoperator₄,
        hcharged₄.later hframe₅, ?_⟩
      rw [hbooked₅.credit, hbooked₄.credit, add_assoc]
      rfl
  have hnext := hcallerPlan.wp_then ht₃ hcharge
  rw [bind_assoc] at hnext
  convert hnext using 4 with found
  cases found with
  | some plan => rfl
  | none =>
    by_cases hempty : evmAddress = ""
    · exact (if_pos hempty).trans (congrArg (· >>= _) (if_pos hempty).symm)
    · exact (if_neg hempty).trans (congrArg (· >>= _) (if_neg hempty).symm)

end Calls

end JsonRpcRelay.HbarLimiter

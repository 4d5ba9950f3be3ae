import JsonRpcRelay.Framework.Assignment
import JsonRpcRelay.SpendingPlans.StoredPlans

/-!
# The links of the addresses

What a start makes of the links between addresses and plans.  A link stands under the normalized
address, and keeps the address as it was spelled when it was saved.
-/

namespace JsonRpcRelay.SpendingPlans

open Framework

section Data

/-- The plan that a normalized address is linked to. -/
def linkAt (t : Moment) (cache : Cache) (kind : AddressKind) (text : String) : Option String :=
  (read t cache (.addressHbarSpendingPlan kind text)).map (·.planId)

/-- The normalized addresses of a configured plan. -/
def SpendingPlanConfig.linked (kind : AddressKind) (planConfig : SpendingPlanConfig) :
    List String :=
  (planConfig.addresses kind).map kind.normalize

/-- No address is configured for two plans. -/
def NoneShared (configs : List SpendingPlanConfig) : Prop :=
  ∀ kind, configs.Pairwise fun c d => ∀ text ∈ c.linked kind, text ∉ d.linked kind

/-- A plan that the start has found and has deleted. -/
def Deleted (before after : Cache) (id : String) : Prop :=
  Considered before id ∧ ¬Considered after id

/-- The configured addresses are linked to their plans, and no others to these plans or to deleted
ones.  All other links are as before. -/
structure LinksConfigured (t : Moment) (configs : List SpendingPlanConfig)
    (before after : Cache) : Prop where
  linked : ∀ c ∈ configs, ∀ kind, ∀ address ∈ c.addresses kind,
    linkAt t after kind (kind.normalize address) = some c.id
  cleared : ∀ kind text, (∀ c ∈ configs, text ∉ c.linked kind) → ∀ id,
    linkAt t after kind text = some id → ¬Configured configs id ∧ ¬Deleted before after id
  kept : ∀ kind text, (∀ c ∈ configs, text ∉ c.linked kind) → ∀ id,
    ¬Configured configs id → ¬Deleted before after id →
      (linkAt t after kind text = some id ↔ linkAt t before kind text = some id)

/-- A second start leaves the links as they are, unless one of a configured address has expired in
the meantime. -/
def LinksStable (t : Moment) (configs : List SpendingPlanConfig) (after : Cache) : Prop :=
  ∀ (later : ℕ) (n : ℕ) (again : Cache), t.now ≤ later →
    (∀ c ∈ configs, ∀ kind, ∀ text ∈ c.linked kind,
      linkAt ⟨t.backend, later⟩ after kind text = some c.id) →
    populatePreconfiguredSpendingPlans ⟨t.backend, later⟩ configs after = .ok (n, again) →
      ∀ kind text, linkAt ⟨t.backend, later⟩ again kind text =
        linkAt ⟨t.backend, later⟩ after kind text

end Data

section Links

variable {t : Moment} {cache : Cache} {kind kind' : AddressKind} {text : String}

private theorem addressHbarSpendingPlan_ne (h : ¬(kind' = kind ∧ text = kind.normalize address)) :
    CacheKey.addressHbarSpendingPlan kind' text ≠ addressKey kind address := by
  rintro heq
  obtain ⟨rfl, rfl⟩ := CacheKey.addressHbarSpendingPlan.inj heq
  exact h ⟨rfl, rfl⟩

private theorem linkAt_deleteAddress (address : String) :
    linkAt t (deleteAddress cache kind address) kind' text =
      if kind' = kind ∧ text = kind.normalize address then none else linkAt t cache kind' text := by
  rw [linkAt, linkAt, read, read, deleteAddress]
  split
  · next h =>
    obtain ⟨rfl, rfl⟩ := h
    exact congrArg _ Store.get_delete_self
  · next h => exact congrArg _ (Store.get_delete_of_ne (addressHbarSpendingPlan_ne h))

private theorem linkAt_save (link : AddressHbarSpendingPlan) (ttl : ℤ) :
    linkAt t (save t cache kind link ttl) kind' text =
      if kind' = kind ∧ text = kind.normalize link.address then some link.planId
      else linkAt t cache kind' text := by
  rw [linkAt, linkAt, read, read, save, write]
  split
  · next h =>
    obtain ⟨rfl, rfl⟩ := h
    exact congrArg _ Store.get_set_self
  · next h => exact congrArg _ (Store.get_set_of_ne (addressHbarSpendingPlan_ne h))

private theorem linkAt_deleteAddresses (addresses : List String) :
    linkAt t (addresses.foldl (fun cache address => deleteAddress cache kind address) cache) kind'
        text =
      if kind' = kind ∧ text ∈ addresses.map kind.normalize then none
      else linkAt t cache kind' text := by
  induction addresses generalizing cache with
  | nil => simp
  | cons address addresses ih =>
    rw [List.foldl_cons, ih, linkAt_deleteAddress]
    by_cases hkind : kind' = kind
    · by_cases htext : text = kind.normalize address
      · simp [hkind, htext]
      · simp [hkind, htext]
    · simp [hkind]

private theorem linkAt_saveAddresses (addresses : List String) (planId : String) :
    linkAt t (addresses.foldl (fun cache address => save t cache kind { address, planId } TTL)
        cache) kind' text =
      if kind' = kind ∧ text ∈ addresses.map kind.normalize then some planId
      else linkAt t cache kind' text := by
  induction addresses generalizing cache with
  | nil => simp
  | cons address addresses ih =>
    rw [List.foldl_cons, ih, linkAt_save]
    by_cases hkind : kind' = kind
    · by_cases htext : text = kind.normalize address
      · simp [hkind, htext]
      · simp [hkind, htext]
    · simp [hkind]

private theorem linkAt_eq_some_iff {id : String} : linkAt t cache kind text = some id ↔
    ∃ link : AddressHbarSpendingPlan,
      read t cache (.addressHbarSpendingPlan kind text) = some link ∧ link.planId = id := by
  rw [linkAt, Option.map_eq_some_iff]

private theorem WellFormed.normalize_address (h : WellFormed cache) {link : AddressHbarSpendingPlan}
    (hread : read t cache (.addressHbarSpendingPlan kind text) = some link) :
    kind.normalize link.address = text := by
  obtain ⟨e, he, rfl⟩ := exists_of_read hread
  exact h.address he

end Links

section Associations

variable {t : Moment} {cache : Cache} {kind kind' : AddressKind} {text : String}
  {planConfig : SpendingPlanConfig}

private theorem mem_currentAddresses (h : WellFormed cache) {address : String} :
    address ∈ currentAddresses t kind planConfig cache ↔ ∃ link : AddressHbarSpendingPlan,
      read t cache (.addressHbarSpendingPlan kind (kind.normalize address)) = some link ∧
        link.planId = planConfig.id ∧ link.address = address := by
  rw [currentAddresses, List.mem_map]
  constructor
  · rintro ⟨link, hmem, rfl⟩
    obtain ⟨key, _, hlink⟩ := List.mem_filterMap.mp hmem
    cases key with
    | hbarSpendingPlan text => cases hlink
    | addressHbarSpendingPlan kind' text =>
      obtain ⟨rfl, hfilter⟩ := Option.ite_none_right_eq_some.mp hlink
      obtain ⟨hread, hplan⟩ := Option.filter_eq_some_iff.mp hfilter
      rw [h.normalize_address hread]
      exact ⟨link, hread, of_decide_eq_true hplan, rfl⟩
  · rintro ⟨link, hread, hplan, rfl⟩
    refine ⟨link, List.mem_filterMap.mpr
      ⟨.addressHbarSpendingPlan kind (kind.normalize link.address), mem_keys.mpr ?_, ?_⟩, rfl⟩
    · rw [hread]
      rfl
    · rw [linkOf?, if_pos rfl, hread]
      exact Option.filter_eq_some_iff.mpr ⟨rfl, decide_eq_true hplan⟩

private theorem linkAt_deleteObsoleteAssociations
    (h : kind' ≠ kind ∨ text ∉ planConfig.linked kind) :
    linkAt t (deleteObsoleteAssociations t kind planConfig cache) kind' text =
      linkAt t cache kind' text := by
  rw [deleteObsoleteAssociations]
  rw [SpendingPlanConfig.linked] at h
  generalize planConfig.addresses kind = addresses at h
  induction addresses generalizing cache with
  | nil => rfl
  | cons address addresses ih =>
    rw [List.map_cons, List.mem_cons, not_or] at h
    rw [List.foldl_cons, ih (h.imp_right And.right), deleteObsoleteAssociation]
    have hne : ¬(kind' = kind ∧ text = kind.normalize address) :=
      fun heq => h.elim (fun hkind => hkind heq.1) fun htext => htext.1 heq.2
    split
    · split
      · rw [linkAt_deleteAddress, if_neg hne]
      · rfl
    · rfl

section Current

variable {address : String}

private theorem linkAt_of_current (h : WellFormed cache)
    (haddress : address ∈ currentAddresses t kind planConfig cache) :
    linkAt t cache kind (kind.normalize address) = some planConfig.id := by
  obtain ⟨link, hread, hplan, _⟩ := (mem_currentAddresses h).mp haddress
  exact linkAt_eq_some_iff.mpr ⟨link, hread, hplan⟩

/-- A link has one spelling, so that addresses with the same text are spelled alike. -/
theorem current_eq_of_normalize (h : WellFormed cache) {address' : String}
    (haddress : address ∈ currentAddresses t kind planConfig cache)
    (haddress' : address' ∈ currentAddresses t kind planConfig cache)
    (heq : kind.normalize address = kind.normalize address') : address = address' := by
  obtain ⟨link, hread, _, hlink⟩ := (mem_currentAddresses h).mp haddress
  obtain ⟨link', hread', _, hlink'⟩ := (mem_currentAddresses h).mp haddress'
  rw [heq, hread'] at hread
  rw [← hlink, ← hlink', Option.some.inj hread]

private theorem linkAt_of_not_added (h : WellFormed cache)
    (haddress : address ∈ planConfig.addresses kind) (hadd : kind.normalize address ∉
      (addressesToAdd t kind planConfig cache).map kind.normalize) :
    linkAt t cache kind (kind.normalize address) = some planConfig.id ∧
      kind.normalize address ∉ (addressesToDelete t kind planConfig cache).map kind.normalize := by
  have hknown : address ∈ currentAddresses t kind planConfig cache := by
    by_contra hnew
    apply hadd
    exact List.mem_map_of_mem (List.mem_filter.mpr ⟨haddress, decide_eq_true hnew⟩)
  refine ⟨linkAt_of_current h hknown, ?_⟩
  intro hmem
  obtain ⟨address', haddress', heq⟩ := List.mem_map.mp hmem
  obtain ⟨hknown', hnot⟩ := List.mem_filter.mp haddress'
  rw [current_eq_of_normalize h hknown' hknown heq] at hnot
  exact of_decide_eq_true hnot haddress

private theorem mem_deleted_iff (h : WellFormed cache) (htext : text ∉ planConfig.linked kind) :
    text ∈ (addressesToDelete t kind planConfig cache).map kind.normalize ↔
      linkAt t cache kind text = some planConfig.id := by
  constructor
  · intro hmem
    obtain ⟨address, haddress, rfl⟩ := List.mem_map.mp hmem
    exact linkAt_of_current h (List.mem_filter.mp haddress).1
  · intro hlinked
    obtain ⟨link, hread, hplan⟩ := linkAt_eq_some_iff.mp hlinked
    have hnormal := h.normalize_address hread
    refine List.mem_map.mpr ⟨link.address, List.mem_filter.mpr ⟨?_, ?_⟩, hnormal⟩
    · exact (mem_currentAddresses h).mpr ⟨link, hnormal ▸ hread, hplan, rfl⟩
    · apply decide_eq_true
      intro haddress
      exact htext (hnormal ▸ List.mem_map_of_mem haddress)

end Current

/-- However the addresses are spelled, the plan has exactly its configured ones. -/
theorem linkAt_updateAssociations (h : WellFormed cache) :
    linkAt t (updateAssociations t kind planConfig cache) kind text =
      assign planConfig.id (planConfig.linked kind) (linkAt t cache kind) text := by
  rw [updateAssociations, linkAt_saveAddresses, linkAt_deleteAddresses]
  by_cases htext : text ∈ planConfig.linked kind
  · obtain ⟨address, haddress, rfl⟩ := List.mem_map.mp htext
    rw [assign_of_mem htext]
    by_cases hadd : kind.normalize address ∈
        (addressesToAdd t kind planConfig cache).map kind.normalize
    · rw [if_pos ⟨rfl, hadd⟩]
    · obtain ⟨hlinked, hkeep⟩ := linkAt_of_not_added h haddress hadd
      rw [if_neg (fun h => hadd h.2), if_neg (fun h => hkeep h.2), hlinked]
  · have hadd : text ∉ (addressesToAdd t kind planConfig cache).map kind.normalize := by
      intro hmem
      obtain ⟨address, haddress, rfl⟩ := List.mem_map.mp hmem
      exact htext (List.mem_map_of_mem (List.mem_filter.mp haddress).1)
    rw [assign_of_notMem htext, if_neg (fun h => hadd h.2)]
    exact if_congr (and_iff_right rfl |>.trans (mem_deleted_iff h htext)) rfl rfl

private theorem linkAt_updateAssociations_of_ne (h : kind' ≠ kind) :
    linkAt t (updateAssociations t kind planConfig cache) kind' text =
      linkAt t cache kind' text := by
  rw [updateAssociations, linkAt_saveAddresses, linkAt_deleteAddresses, if_neg (fun heq => h heq.1),
    if_neg (fun heq => h heq.1)]

end Associations

section Starts

variable {t : Moment} {cache : Cache} {kind : AddressKind} {text : String}
  {configs : List SpendingPlanConfig} {existingPlans : List DetailedHbarSpendingPlan}

private theorem assign_congr {id : String} {addresses : List String} {f g : String → Option String}
    (h : text ∉ addresses → f text = g text) :
    assign id addresses f text = assign id addresses g text := by
  by_cases htext : text ∈ addresses
  · rw [assign_of_mem htext, assign_of_mem htext]
  · rw [assign_of_notMem htext, assign_of_notMem htext, h htext]

theorem WellFormed.updatePlan (h : WellFormed cache) (planConfig : SpendingPlanConfig) :
    WellFormed (updatePlan t planConfig cache) :=
  (((h.deleteObsoleteAssociations .evmAddress planConfig).deleteObsoleteAssociations
    .ipAddress planConfig).updateAssociations .evmAddress planConfig).updateAssociations
      .ipAddress planConfig

private theorem linkAt_updatePlan (h : WellFormed cache) (planConfig : SpendingPlanConfig) :
    linkAt t (updatePlan t planConfig cache) kind text =
      assign planConfig.id (planConfig.linked kind) (linkAt t cache kind) text := by
  have hdeleted := (h.deleteObsoleteAssociations (t := t) .evmAddress
    planConfig).deleteObsoleteAssociations (t := t) .ipAddress planConfig
  have hplan : updatePlan t planConfig cache =
      updateAssociations t .ipAddress planConfig (updateAssociations t .evmAddress planConfig
        (deleteObsoleteAssociations t .ipAddress planConfig
          (deleteObsoleteAssociations t .evmAddress planConfig cache))) := rfl
  rw [hplan]
  cases kind with
  | evmAddress =>
    rw [linkAt_updateAssociations_of_ne (by decide), linkAt_updateAssociations hdeleted]
    apply assign_congr
    intro htext
    rw [linkAt_deleteObsoleteAssociations (.inl (by decide)),
      linkAt_deleteObsoleteAssociations (.inr htext)]
  | ipAddress =>
    rw [linkAt_updateAssociations (hdeleted.updateAssociations .evmAddress planConfig)]
    apply assign_congr
    intro htext
    rw [linkAt_updateAssociations_of_ne (by decide), linkAt_deleteObsoleteAssociations (.inr htext),
      linkAt_deleteObsoleteAssociations (.inl (by decide))]

private theorem linkAt_updatePlanAssociations (h : WellFormed cache)
    (configs : List SpendingPlanConfig) :
    linkAt t (updatePlanAssociations t cache configs) kind =
      assignAll SpendingPlanConfig.id (SpendingPlanConfig.linked kind) configs
        (linkAt t cache kind) := by
  induction configs generalizing cache with
  | nil => rfl
  | cons planConfig configs ih =>
    have hlinks : linkAt t (updatePlan t planConfig cache) kind =
        assign planConfig.id (planConfig.linked kind) (linkAt t cache kind) := by
      funext text
      exact linkAt_updatePlan h planConfig
    show linkAt t (updatePlanAssociations t (updatePlan t planConfig cache) configs) kind = _
    rw [ih (h.updatePlan planConfig), hlinks]
    rfl

private theorem linkAt_deleteAllByPlanId (kind' : AddressKind) (planId : String) :
    linkAt t (deleteAllByPlanId t cache kind' planId) kind text =
      if kind = kind' ∧ linkAt t cache kind text = some planId then none
      else linkAt t cache kind text := by
  have hread : read t (deleteAllByPlanId t cache kind' planId)
      (.addressHbarSpendingPlan kind text) =
      if (linkOf? t cache kind' planId (.addressHbarSpendingPlan kind text)).isSome then none
      else read t cache (.addressHbarSpendingPlan kind text) := by
    rw [read, Store.get, lookup_deleteAllByPlanId]
    split
    · rfl
    · rfl
  have hlink : (linkOf? t cache kind' planId (.addressHbarSpendingPlan kind text)).isSome = true ↔
      kind = kind' ∧ linkAt t cache kind text = some planId := by
    rw [linkOf?, linkAt]
    by_cases hkind : kind = kind'
    · rw [if_pos hkind]
      cases read t cache (.addressHbarSpendingPlan kind text) with
      | none => simp
      | some link => simp [hkind]
    · simp [hkind]
  rw [linkAt, hread]
  simp only [hlink]
  split
  · rfl
  · rfl

private theorem linkAt_deletePlan (id : String) : linkAt t (deletePlan t cache id) kind text =
    if linkAt t cache kind text = some id then none else linkAt t cache kind text := by
  have hplan : linkAt t (delete cache id) kind text = linkAt t cache kind text := by
    rw [linkAt, linkAt, read, read, delete]
    exact congrArg _ (Store.get_delete_of_ne (by simp [planKey]))
  rw [deletePlan, linkAt_deleteAllByPlanId, linkAt_deleteAllByPlanId, hplan]
  by_cases hlinked : linkAt t cache kind text = some id
  · cases kind with
    | evmAddress => simp [hlinked]
    | ipAddress => simp [hlinked]
  · simp [hlinked]

private theorem linkAt_deletePlans (plans : List DetailedHbarSpendingPlan) :
    linkAt t (plans.foldl (fun cache plan => deletePlan t cache plan.id) cache) kind text =
      if ∃ plan ∈ plans, linkAt t cache kind text = some plan.id then none
      else linkAt t cache kind text := by
  induction plans generalizing cache with
  | nil => simp
  | cons plan plans ih =>
    rw [List.foldl_cons, ih, linkAt_deletePlan]
    by_cases hlinked : linkAt t cache kind text = some plan.id
    · simp [hlinked]
    · simp [hlinked]

private theorem linkAt_addNewPlans :
    linkAt t (addNewPlans t cache configs existingPlans) kind text =
    linkAt t cache kind text := by
  rw [addNewPlans]
  generalize plansToAdd configs existingPlans = plans
  induction plans generalizing cache with
  | nil => rfl
  | cons plan plans ih =>
    rw [List.foldl_cons, ih, linkAt, linkAt, read, read, create]
    exact congrArg _ (Store.get_set_of_ne (by simp [planKey]))

theorem WellFormed.addNewPlans (h : WellFormed cache) :
    WellFormed (addNewPlans t (deleteObsoletePlans t cache existingPlans configs) configs
      existingPlans) :=
  (h.foldl (fun _ plan h => h.deletePlan plan.id) _).foldl (fun _ spc h => h.create spc) _

private theorem linkAt_in_front (hexisting : ∀ id, (∃ plan ∈ existingPlans, plan.id = id) ↔
      Considered cache id) {id : String} :
    linkAt t (addNewPlans t (deleteObsoletePlans t cache existingPlans configs) configs
        existingPlans) kind text = some id ↔
      linkAt t cache kind text = some id ∧ (Considered cache id → Configured configs id) := by
  have hdeleted : (∃ plan ∈ plansToDelete existingPlans configs, plan.id = id) ↔
      Considered cache id ∧ ¬Configured configs id := by
    rw [mem_plansToDelete, hexisting, Configured]
    simp
  rw [linkAt_addNewPlans, deleteObsoletePlans, linkAt_deletePlans, Option.ite_none_left_eq_some,
    and_comm]
  apply and_congr_right
  intro hlinked
  rw [hlinked]
  simp only [Option.some.injEq, eq_comm (a := id), hdeleted, not_and, not_not]

end Starts

section Population

variable {t : Moment} {cache : Cache} {kind : AddressKind} {text id : String}
  {configs : List SpendingPlanConfig} {existingPlans : List DetailedHbarSpendingPlan}

private theorem considered_congr {cache' : Cache}
    (h : cache'.lookup (.hbarSpendingPlan id) = cache.lookup (.hbarSpendingPlan id)) :
    Considered cache' id ↔ Considered cache id := by
  rw [Considered, Considered, h]

private theorem linkAt_populated (h : WellFormed cache) :
    linkAt t (populated t configs existingPlans cache).2 kind =
      assignAll SpendingPlanConfig.id (SpendingPlanConfig.linked kind) configs
        (linkAt t (addNewPlans t (deleteObsoletePlans t cache existingPlans configs) configs
          existingPlans) kind) :=
  linkAt_updatePlanAssociations h.addNewPlans configs

private theorem linkAt_populated_of_mem (h : WellFormed cache)
    (hdistinct : (configs.map SpendingPlanConfig.id).Nodup)
    (hshared : NoneShared configs) {c : SpendingPlanConfig} (hc : c ∈ configs)
    (htext : text ∈ c.linked kind) :
    linkAt t (populated t configs existingPlans cache).2 kind text = some c.id := by
  rw [linkAt_populated h, assignAll_of_mem hdistinct (hshared kind) hc htext]

variable (hexisting : ∀ id, (∃ plan ∈ existingPlans, plan.id = id) ↔ Considered cache id)
include hexisting

private theorem not_considered_populated (hnot : ¬Configured configs id) :
    ¬Considered (populated t configs existingPlans cache).2 id := by
  have hne : ∀ c ∈ configs, c.id ≠ id := fun c hc heq => hnot ⟨c, hc, heq⟩
  by_cases hconsidered : Considered cache id
  · rintro ⟨plan, hlookup, _⟩
    rw [populated_deleted hexisting hconsidered hne] at hlookup
    cases hlookup
  · exact mt (considered_congr (populated_unlisted hexisting hconsidered hne)).mp hconsidered

private theorem deleted_populated_iff (hnot : ¬Configured configs id) :
    Deleted cache (populated t configs existingPlans cache).2 id ↔ Considered cache id :=
  and_iff_left (not_considered_populated hexisting hnot)

/-- An address that no plan is to have keeps its link to a plan that is neither configured nor
deleted, and to no other one. -/
theorem linkAt_populated_of_notMem (h : WellFormed cache)
    (htext : ∀ c ∈ configs, text ∉ c.linked kind) :
    linkAt t (populated t configs existingPlans cache).2 kind text = some id ↔
      linkAt t cache kind text = some id ∧ ¬Configured configs id ∧ ¬Considered cache id := by
  have hfront := @linkAt_in_front t cache kind text configs existingPlans hexisting id
  rw [linkAt_populated h, assignAll_of_notMem htext, Option.ite_none_left_eq_some]
  constructor
  · rintro ⟨hnone, hlinked⟩
    have hnot : ¬Configured configs id := by
      rintro ⟨c, hc, rfl⟩
      exact hnone ⟨c, hc, hlinked⟩
    obtain ⟨hbefore, hdeleted⟩ := hfront.mp hlinked
    exact ⟨hbefore, hnot, mt hdeleted hnot⟩
  · rintro ⟨hbefore, hnot, hconsidered⟩
    have hlinked := hfront.mpr ⟨hbefore, fun h => absurd h hconsidered⟩
    refine ⟨?_, hlinked⟩
    rintro ⟨c, hc, heq⟩
    rw [hlinked] at heq
    exact hnot ⟨c, hc, (Option.some.inj heq).symm⟩

private theorem linksConfigured_populated (h : WellFormed cache)
    (hdistinct : (configs.map SpendingPlanConfig.id).Nodup)
    (hshared : NoneShared configs) :
    LinksConfigured t configs cache (populated t configs existingPlans cache).2 := by
  constructor
  · intro c hc kind address haddress
    exact linkAt_populated_of_mem h hdistinct hshared hc (List.mem_map_of_mem haddress)
  · intro kind text htext id hlinked
    obtain ⟨_, hnot, hconsidered⟩ := (linkAt_populated_of_notMem hexisting h htext).mp hlinked
    exact ⟨hnot, fun hdeleted => hconsidered hdeleted.1⟩
  · intro kind text htext id hnot hdeleted
    rw [deleted_populated_iff hexisting hnot] at hdeleted
    rw [linkAt_populated_of_notMem hexisting h htext]
    exact and_iff_left ⟨hnot, hdeleted⟩

end Population

section Start

variable {t : Moment} {cache : Cache} {configs : List SpendingPlanConfig}

private theorem linkAt_of_later {later : ℕ} (hle : t.now ≤ later) {kind : AddressKind}
    {text id : String} (h : linkAt ⟨t.backend, later⟩ cache kind text = some id) :
    linkAt t cache kind text = some id := by
  obtain ⟨link, hread, hplan⟩ := linkAt_eq_some_iff.mp h
  exact linkAt_eq_some_iff.mpr ⟨link, Store.get_of_later hle hread, hplan⟩

private theorem linksStable_populated {existingPlans : List DetailedHbarSpendingPlan}
    (hexisting : ∀ id, (∃ plan ∈ existingPlans, plan.id = id) ↔ Considered cache id)
    (h : WellFormed cache) (hne : configs ≠ [])
    (hvalid : ∀ c ∈ configs, isValidSpendingPlanConfig c = true)
    (hdistinct : (configs.map SpendingPlanConfig.id).Nodup) (hshared : NoneShared configs) :
    LinksStable t configs (populated t configs existingPlans cache).2 := by
  intro later n again hle hlinked hok kind text
  have hafter : WellFormed (populated t configs existingPlans cache).2 :=
    wellFormed_populated h existingPlans
  obtain ⟨foundPlans, hfound, hpopulate⟩ :=
    @populate_ok ⟨t.backend, later⟩ _ configs hafter hne hvalid
  obtain rfl : (populated ⟨t.backend, later⟩ configs foundPlans
      (populated t configs existingPlans cache).2).2 = again :=
    congrArg Prod.snd (Except.ok.inj (hpopulate.symm.trans hok))
  by_cases htext : ∃ c ∈ configs, text ∈ c.linked kind
  · obtain ⟨c, hc, htext⟩ := htext
    rw [linkAt_populated_of_mem hafter hdistinct hshared hc htext,
      hlinked c hc kind text htext]
  · have hnone : ∀ c ∈ configs, text ∉ c.linked kind := fun c hc hmem => htext ⟨c, hc, hmem⟩
    apply Option.ext
    intro id
    rw [linkAt_populated_of_notMem hfound hafter hnone, and_iff_left_iff_imp]
    intro hlater
    obtain ⟨_, hnot, _⟩ :=
      (linkAt_populated_of_notMem hexisting h hnone).mp (linkAt_of_later hle hlater)
    exact ⟨hnot, not_considered_populated hexisting hnot⟩

end Start

section Examples

def localStart : Moment := ⟨.localLRUCache, 0⟩

/-- A plan for one address. -/
def planFor (id address : String) : SpendingPlanConfig where
  id := id
  evmAddresses := .array [address]
  ipAddresses := .undefined
  subscriptionTier := .extended

/-- Two plans, one of which has its address from the other one. -/
def movedAddress : List SpendingPlanConfig := [planFor "a" " 0xAB", planFor "b" "0xCD"]

def linkedBefore : Cache :=
  save localStart ∅ .evmAddress { address := "0xab", planId := "b" } TTL

/-- Two entries with one id. -/
def oneId : List SpendingPlanConfig := [planFor "a" "0xab", planFor "a" "0xcd"]

/-- A link under an address that is not its own, as no repository writes it. -/
def misplacedLink : Cache := AList.insert (.addressHbarSpendingPlan .evmAddress "0xab")
  ⟨{ address := "0xcd", planId := "a" }, none⟩ ∅

end Examples

end JsonRpcRelay.SpendingPlans

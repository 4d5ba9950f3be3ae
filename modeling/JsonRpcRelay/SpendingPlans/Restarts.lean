import JsonRpcRelay.SpendingPlans.LimiterWrites
import JsonRpcRelay.SpendingPlans.StoredPlans

/-!
# Restarts

The relay is started again and again while its configuration changes, and the limiter writes
in between.  The stored plans follow the configuration as long as no start meets a plan that it
does not look for, or whose tier has changed.
-/

namespace JsonRpcRelay.SpendingPlans

open Framework
open HbarLimiter (CacheBackend)

section System

structure RelayState where
  now : ℕ
  cache : Cache

inductive RelayEvent where
  | pass (ms : ℕ)
  | limiter (write : LimiterWrite)
  | start (spendingPlanConfigs : List SpendingPlanConfig)

variable (b : CacheBackend) (s : RelayState)

def RelayState.moment : Moment := ⟨b, s.now⟩

/-- What a start finds.  A local cache is a new one in each process. -/
def RelayState.found : Cache :=
  match b with
  | .redisCache => s.cache
  | .localLRUCache => ∅

/-- The relay goes on without the configured plans when the start throws. -/
def RelayState.start (spendingPlanConfigs : List SpendingPlanConfig) : Cache :=
  match populatePreconfiguredSpendingPlans (s.moment b) spendingPlanConfigs (s.found b) with
  | .ok (_, cache) => cache
  | .error _ => s.found b

def step : RelayEvent → Option RelayState
  | .pass ms => some { s with now := s.now + ms }
  | .limiter write => some { s with cache := write.perform (s.moment b) s.cache }
  | .start spendingPlanConfigs => some { s with cache := s.start b spendingPlanConfigs }

/-- A configuration that is accepted, and whose plans have different ids. -/
structure Accepted (spendingPlanConfigs : List SpendingPlanConfig) : Prop where
  nonempty : spendingPlanConfigs ≠ []
  valid : ∀ c ∈ spendingPlanConfigs, isValidSpendingPlanConfig c = true
  distinct : (spendingPlanConfigs.map SpendingPlanConfig.id).Nodup

/-- The start makes the stored plans those of its configuration. -/
def StartsRight : RelayEvent → Prop
  | .start spendingPlanConfigs => Accepted spendingPlanConfigs → ∃ n cache,
      populatePreconfiguredSpendingPlans (s.moment b) spendingPlanConfigs (s.found b) =
        .ok (n, cache) ∧
      FollowsConfiguration (s.moment b) spendingPlanConfigs (s.found b) cache
  | _ => True

def StartableEvent : RelayEvent → Prop
  | .start spendingPlanConfigs => Accepted spendingPlanConfigs →
      Startable (s.moment b) spendingPlanConfigs (s.found b)
  | _ => True

end System

section Runs

variable {b : CacheBackend} {s : RelayState}

private theorem wellFormed_found (h : WellFormed s.cache) : WellFormed (s.found b) := by
  cases b with
  | redisCache => exact h
  | localLRUCache => exact wellFormed_empty

private theorem wellFormed_start (h : WellFormed s.cache) (configs : List SpendingPlanConfig) :
    WellFormed (s.start b configs) := by
  rw [RelayState.start]
  split
  · next hok => exact wellFormed_populate (wellFormed_found h) hok
  · exact wellFormed_found h

private theorem wellFormed_step {e : RelayEvent} {s' : RelayState} (h : WellFormed s.cache)
    (hstep : step b s e = some s') : WellFormed s'.cache := by
  cases e with
  | pass ms =>
    obtain rfl := Option.some.inj hstep
    exact h
  | limiter write =>
    obtain rfl := Option.some.inj hstep
    exact h.perform write
  | start configs =>
    obtain rfl := Option.some.inj hstep
    exact wellFormed_start h configs

private theorem startsRight_iff (h : WellFormed s.cache) (e : RelayEvent) :
    StartsRight b s e ↔ StartableEvent b s e := by
  cases e with
  | pass ms => exact Iff.rfl
  | limiter write => exact Iff.rfl
  | start configs =>
    refine imp_congr_right fun haccepted => ?_
    have hfound := wellFormed_found (b := b) h
    obtain ⟨existingPlans, hexisting, hok⟩ :=
      populate_ok (t := s.moment b) hfound haccepted.nonempty haccepted.valid
    rw [hok]
    constructor
    · intro ⟨n, cache, heq, hfollows⟩
      have hcache : (populated (s.moment b) configs existingPlans (s.found b)).2 = cache :=
        congrArg Prod.snd (Except.ok.inj heq)
      rw [← hcache] at hfollows
      exact startable_of_follows hfound haccepted.distinct hexisting hfollows
    · intro hstartable
      exact ⟨_, _, rfl, follows_of_startable hfound haccepted.distinct hexisting hstartable⟩

/-- The stored plans follow the configuration at every start of a run if and only if every start
meets only plans that it can follow. -/
theorem stored_plans_follow_iff (b : CacheBackend) (now : ℕ) (es : List RelayEvent) :
    Along (step b) (StartsRight b) ⟨now, ∅⟩ es ↔ Along (step b) (StartableEvent b) ⟨now, ∅⟩ es :=
  along_congr (I := fun s => WellFormed s.cache) (fun _ e h => startsRight_iff h e)
    (fun _ _ _ h _ hstep => wellFormed_step h hstep) wellFormed_empty

/-- A plan of the basic tier is configured, and the configuration of the next start is without
it. -/
def basicPlanRemoved : List RelayEvent :=
  [.start [⟨"p", .array ["0x1"], .undefined, .basic⟩],
    .start [⟨"q", .array ["0x2"], .undefined, .extended⟩]]

theorem basic_plan_left_behind :
    ¬Along (step .redisCache) (StartsRight .redisCache) ⟨0, ∅⟩ basicPlanRemoved := by
  intro h
  have hsecond := (h.2 _ rfl).1
  have hfound : WellFormed (RelayState.start .redisCache ⟨0, ∅⟩
      [⟨"p", .array ["0x1"], .undefined, .basic⟩]) := wellFormed_start wellFormed_empty _
  have hstartable := (startsRight_iff hfound _).mp hsecond
    ⟨by decide, by decide +kernel, by decide⟩
  obtain ⟨c, hc, hid⟩ := hstartable.listed ⟨"p", .basic, 0, true⟩ ⟨"p", rfl, rfl⟩ (by decide)
  rw [List.mem_singleton.mp hc] at hid
  exact absurd hid (by decide)

end Runs

end JsonRpcRelay.SpendingPlans

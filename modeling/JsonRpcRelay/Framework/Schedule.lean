import Mathlib.Data.List.Basic
import Mathlib.Data.Option.Basic

/-!
# Schedules of guarded atomic steps

A concurrent system is a partial step function: `step s e` is `none` when the
event `e` is disabled in the state `s`.  A schedule is a list of events.  An
assumption about a run is a condition on each step of its schedule (`Along`),
and what the steps show to an observer is collected by `trace`.
-/

namespace JsonRpcRelay.Framework

variable {S E O : Type*}

/-- The state after a schedule whose events are enabled one after the other. -/
def exec (step : S → E → Option S) : S → List E → Option S
  | s, [] => some s
  | s, e :: es => (step s e).bind fun t => exec step t es

/-- Every step of the schedule meets `ok` in the state in which it is taken. -/
def Along (step : S → E → Option S) (ok : S → E → Prop) : S → List E → Prop
  | _, [] => True
  | s, e :: es => ok s e ∧ ∀ t, step s e = some t → Along step ok t es

instance Along.decide (step : S → E → Option S) (ok : S → E → Prop)
    [∀ s e, Decidable (ok s e)] (s : S) : (es : List E) → Decidable (Along step ok s es)
  | [] => isTrue trivial
  | e :: es =>
      match h : step s e with
      | none => decidable_of_iff (ok s e) (by simp [Along, h])
      | some t =>
        have := Along.decide step ok t es
        decidable_of_iff (ok s e ∧ Along step ok t es) (by simp [Along, h])

/-- What an observer sees of the steps of a schedule, in order. -/
def trace (step : S → E → Option S) (see : S → E → List O) : S → List E → List O
  | _, [] => []
  | s, e :: es => see s e ++ ((step s e).elim [] fun t => trace step see t es)

section Basic

variable {step : S → E → Option S}

@[simp] theorem exec_nil (s : S) : exec step s [] = some s := rfl

theorem exec_cons (s : S) (e : E) (es : List E) :
    exec step s (e :: es) = (step s e).bind fun t => exec step t es := rfl

theorem exec_cons_eq_some {s u : S} {e : E} {es : List E} :
    exec step s (e :: es) = some u ↔ ∃ t, step s e = some t ∧ exec step t es = some u := by
  rw [exec_cons, Option.bind_eq_some_iff]

theorem exec_append {s t u : S} {es fs : List E} (hs : exec step s es = some t)
    (ht : exec step t fs = some u) : exec step s (es ++ fs) = some u := by
  induction es generalizing s with
  | nil =>
    obtain rfl := Option.some.inj hs
    exact ht
  | cons e es ih =>
    obtain ⟨v, hv, hrest⟩ := exec_cons_eq_some.mp hs
    exact exec_cons_eq_some.mpr ⟨v, hv, ih hrest⟩

theorem exec_isSome (htotal : ∀ s e, (step s e).isSome) (s : S) (es : List E) :
    (exec step s es).isSome := by
  induction es generalizing s with
  | nil => rfl
  | cons e es ih =>
    obtain ⟨t, ht⟩ := Option.isSome_iff_exists.mp (htotal s e)
    rw [exec_cons, ht, Option.bind_some]
    exact ih t

theorem Along.cons {ok : S → E → Prop} {s t : S} {e : E} {es : List E} (ht : step s e = some t)
    (hok : ok s e) (hrest : Along step ok t es) : Along step ok s (e :: es) := by
  refine ⟨hok, fun u hu => ?_⟩
  obtain rfl : t = u := Option.some.inj (ht.symm.trans hu)
  exact hrest

theorem Along.of_forall {ok : S → E → Prop} (h : ∀ s e, ok s e) {s : S} {es : List E} :
    Along step ok s es := by
  induction es generalizing s with
  | nil => trivial
  | cons e es ih => exact ⟨h s e, fun _ _ => ih⟩

theorem Along.mono {ok ok' : S → E → Prop} (h : ∀ s e, ok s e → ok' s e) {s : S} {es : List E}
    (hs : Along step ok s es) : Along step ok' s es := by
  induction es generalizing s with
  | nil => trivial
  | cons e es ih => exact ⟨h s e hs.1, fun t ht => ih (hs.2 t ht)⟩

theorem along_true (s : S) (es : List E) : Along step (fun _ _ => True) s es := by
  induction es generalizing s with
  | nil => trivial
  | cons e es ih => exact ⟨trivial, fun t _ => ih t⟩

theorem Along.and {ok ok' : S → E → Prop} {s : S} {es : List E} (h : Along step ok s es)
    (h' : Along step ok' s es) : Along step (fun s e => ok s e ∧ ok' s e) s es := by
  induction es generalizing s with
  | nil => trivial
  | cons e es ih => exact ⟨⟨h.1, h'.1⟩, fun t ht => ih (h.2 t ht) (h'.2 t ht)⟩

theorem Along.and_invariant {ok : S → E → Prop} {I : S → Prop}
    (hstep : ∀ s e t, I s → ok s e → step s e = some t → I t) {s : S} {es : List E} (hs : I s)
    (h : Along step ok s es) : Along step (fun s e => ok s e ∧ I s) s es := by
  induction es generalizing s with
  | nil => trivial
  | cons e es ih => exact ⟨⟨h.1, hs⟩, fun t ht => ih (hstep s e t hs h.1 ht) (h.2 t ht)⟩

/-- Conditions that say the same wherever an invariant holds that they keep. -/
theorem along_congr {ok ok' : S → E → Prop} {I : S → Prop}
    (hiff : ∀ s e, I s → (ok s e ↔ ok' s e))
    (hstep : ∀ s e t, I s → ok' s e → step s e = some t → I t) {s : S} {es : List E} (hs : I s) :
    Along step ok s es ↔ Along step ok' s es := by
  induction es generalizing s with
  | nil => exact Iff.rfl
  | cons e es ih =>
    constructor
    · intro h
      have hok' := (hiff s e hs).mp h.1
      exact ⟨hok', fun t ht => (ih (hstep s e t hs hok' ht)).mp (h.2 t ht)⟩
    · intro h
      exact ⟨(hiff s e hs).mpr h.1, fun t ht => (ih (hstep s e t hs h.1 ht)).mpr (h.2 t ht)⟩

/-- Every step of a run starts in a state from which the end of the run is reached. -/
theorem along_reaches {R : S → S → Prop} (hrefl : ∀ s, R s s)
    (hstep : ∀ s e u t, step s e = some u → R u t → R s t) {s t : S} {es : List E}
    (hrun : exec step s es = some t) :
    R s t ∧ Along step (fun u e => e ∈ es ∧ R u t) s es := by
  induction es generalizing s with
  | nil =>
    obtain rfl : s = t := by simpa using hrun
    exact ⟨hrefl s, trivial⟩
  | cons e es ih =>
    obtain ⟨u, hu, hrest⟩ := exec_cons_eq_some.mp hrun
    obtain ⟨hreach, halong⟩ := ih hrest
    have hst : R s t := hstep s e u t hu hreach
    refine ⟨hst, Along.cons hu ⟨List.mem_cons_self, hst⟩ ?_⟩
    exact halong.mono fun v f hv => ⟨List.mem_cons_of_mem e hv.1, hv.2⟩

/-- An observer that keeps part of what another one sees. -/
theorem trace_flatMap {P : Type*} (see : S → E → List O) (f : O → List P) (s : S) (es : List E) :
    trace step (fun u e => (see u e).flatMap f) s es = (trace step see s es).flatMap f := by
  induction es generalizing s with
  | nil => rfl
  | cons e es ih =>
    rw [trace, trace, List.flatMap_append]
    cases step s e with
    | none => rfl
    | some u => rw [Option.elim_some, Option.elim_some, ih]

private theorem trace_append (see : S → E → List O) {s t : S} {es : List E} (fs : List E)
    (hrun : exec step s es = some t) :
    trace step see s (es ++ fs) = trace step see s es ++ trace step see t fs := by
  induction es generalizing s with
  | nil =>
    obtain rfl := Option.some.inj hrun
    rfl
  | cons e es ih =>
    obtain ⟨u, hu, hrest⟩ := exec_cons_eq_some.mp hrun
    rw [List.cons_append, trace, trace, hu, Option.elim_some, Option.elim_some, ih hrest,
      List.append_assoc]

end Basic

/-- The induction rule for runs that also speaks of what was seen so far: a relation between
the state and the trace that holds at the start and is kept by every step that meets `ok`
holds at the end. -/
theorem run_trace_invariant {step : S → E → Option S} {ok : S → E → Prop} (see : S → E → List O)
    {I : S → List O → Prop}
    (hstep : ∀ s e t seen, I s seen → ok s e → step s e = some t → I t (seen ++ see s e))
    {s t : S} {es : List E} {seen : List O} (hs : I s seen) (hok : Along step ok s es)
    (hrun : exec step s es = some t) : I t (seen ++ trace step see s es) := by
  induction es generalizing s seen with
  | nil =>
    obtain rfl : s = t := by simpa using hrun
    simpa [trace] using hs
  | cons e es ih =>
    obtain ⟨u, hu, hrest⟩ := exec_cons_eq_some.mp hrun
    have hnext := ih (hstep s e u seen hs hok.1 hu) (hok.2 u hu) hrest
    simpa [trace, hu] using hnext

/-- The induction rule for runs: an invariant kept by every step that meets `ok` holds at the
end of every run whose steps all do. -/
theorem run_invariant {step : S → E → Option S} {ok : S → E → Prop} {I : S → Prop}
    (hstep : ∀ s e t, I s → ok s e → step s e = some t → I t)
    {s t : S} {es : List E} (hs : I s) (hok : Along step ok s es)
    (hrun : exec step s es = some t) : I t := by
  let unseen : S → E → List Unit := fun _ _ => []
  exact @run_trace_invariant S E Unit step ok unseen (fun s _ => I s)
    (fun s e t _ => hstep s e t) s t es [] hs hok hrun

/-- Where `ok` says exactly which steps keep an invariant, it holds in all states of a run if and
only if every step meets `ok`. -/
theorem invariant_iff_along {step : S → E → Option S} {ok : S → E → Prop} {I : S → Prop}
    (hstep : ∀ s e t, I s → step s e = some t → (I t ↔ ok s e))
    {s u : S} {es : List E} (hs : I s) (hrun : exec step s es = some u) :
    (∀ n t, exec step s (es.take n) = some t → I t) ↔ Along step ok s es := by
  induction es generalizing s with
  | nil => simp [Along, hs]
  | cons e es ih =>
    obtain ⟨v, hv, hrest⟩ := exec_cons_eq_some.mp hrun
    have hkept := hstep s e v hs hv
    constructor
    · intro hall
      have hIv : I v := hall 1 v (by simp [exec, hv])
      refine Along.cons hv (hkept.mp hIv) ((ih hIv hrest).mp ?_)
      intro n t ht
      exact hall (n + 1) t (by simp [exec, hv, ht])
    · intro halong n t ht
      have hIv : I v := hkept.mpr halong.1
      cases n with
      | zero =>
        obtain rfl : s = t := by simpa using ht
        exact hs
      | succ n =>
        rw [List.take_succ_cons, exec_cons, hv, Option.bind_some] at ht
        exact (ih hIv hrest).mpr (halong.2 v hv) n t ht

section Total

/-- A step function whose events are always enabled. -/
def total (next : S → E → S) : S → E → Option S := fun s e => some (next s e)

variable {next : S → E → S}

private theorem exec_total (s : S) (es : List E) :
    exec (total next) s es = some (es.foldl next s) := by
  induction es generalizing s with
  | nil => rfl
  | cons e es ih => exact ih (next s e)

theorem trace_total_append (see : S → E → List O) (s : S) (es fs : List E) :
    trace (total next) see s (es ++ fs) =
      trace (total next) see s es ++ trace (total next) see (es.foldl next s) fs :=
  trace_append see fs (exec_total s es)

/-- The induction rule for runs in which every event is enabled. -/
theorem total_trace_invariant (see : S → E → List O) {I : S → List O → Prop}
    (hstep : ∀ s e seen, I s seen → I (next s e) (seen ++ see s e)) {s : S} (hs : I s [])
    (es : List E) : I (es.foldl next s) (trace (total next) see s es) := by
  refine run_trace_invariant see ?_ hs (along_true s es) (exec_total s es)
  intro s e t seen hI _ ht
  obtain rfl := Option.some.inj ht
  exact hstep s e seen hI

end Total

end JsonRpcRelay.Framework

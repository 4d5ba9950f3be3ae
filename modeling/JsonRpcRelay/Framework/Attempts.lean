import JsonRpcRelay.Framework.Discipline

/-!
# Programs whose requests may fail

A program is run alone by a handler that may refuse a request.  A request that fails ends the
program without a result, and the state stays as the handler has left it.  What a program
changes is known from the discipline it keeps.
-/

namespace JsonRpcRelay.Framework

namespace Prog

variable {Op : Type} {Reply : Op → Type} {α β S ε : Type}

/-- Run a program alone up to its end or to the first request that fails. -/
def attempt (handle : (op : Op) → S → Option (Reply op) × S) : Prog Op Reply α → S → Option α × S
  | .pure a, s => (some a, s)
  | .request op next, s =>
      match (handle op s).1 with
      | none => (none, (handle op s).2)
      | some r => (next r).attempt handle (handle op s).2

variable {handle : (op : Op) → S → Option (Reply op) × S} {s t : S}

private theorem attempt_bind_some {p : Prog Op Reply α} {f : α → Prog Op Reply β} {a : α}
    (h : p.attempt handle s = (some a, t)) :
    (p >>= f).attempt handle s = (f a).attempt handle t := by
  induction p generalizing s with
  | pure b =>
    cases h
    rfl
  | request op next ih =>
    change (Prog.request op fun r => next r >>= f).attempt handle s = _
    rw [attempt] at h ⊢
    cases hr : (handle op s).1 with
    | none =>
      rw [hr] at h
      cases h
    | some r =>
      rw [hr] at h
      exact ih r h

private theorem attempt_bind_none {p : Prog Op Reply α} {f : α → Prog Op Reply β}
    (h : p.attempt handle s = (none, t)) : (p >>= f).attempt handle s = (none, t) := by
  induction p generalizing s with
  | pure b => cases h
  | request op next ih =>
    change (Prog.request op fun r => next r >>= f).attempt handle s = _
    rw [attempt] at h ⊢
    cases hr : (handle op s).1 with
    | none =>
      rw [hr] at h
      cases h
      rfl
    | some r =>
      rw [hr] at h
      exact ih r h

section Throwing

variable {x : ExceptT ε (Prog Op Reply) α} {f : α → ExceptT ε (Prog Op Reply) β}

theorem attempt_run_bind_ok {a : α} (h : x.run.attempt handle s = (some (.ok a), t)) :
    (x >>= f).run.attempt handle s = (f a).run.attempt handle t := by
  rw [ExceptT.run_bind, attempt_bind_some h]

theorem attempt_run_bind_error {e : ε} (h : x.run.attempt handle s = (some (.error e), t)) :
    (x >>= f).run.attempt handle s = (some (.error e), t) := by
  rw [ExceptT.run_bind, attempt_bind_some h]
  rfl

theorem attempt_run_bind_none (h : x.run.attempt handle s = (none, t)) :
    (x >>= f).run.attempt handle s = (none, t) := by
  rw [ExceptT.run_bind, attempt_bind_none h]

theorem attempt_lift_call {op : Op} {r : Reply op} (h : handle op s = (some r, t)) :
    (ExceptT.lift (call op) : ExceptT ε (Prog Op Reply) _).run.attempt handle s =
      (some (.ok r), t) := by
  change (Prog.request op fun r => Prog.pure (Except.ok r : Except ε _)).attempt handle s = _
  rw [attempt, h]
  rfl

theorem attempt_run_map (g : α → β) : (g <$> x).run.attempt handle s =
    ((x.run.attempt handle s).1.map (Except.map g), (x.run.attempt handle s).2) := by
  rw [map_eq_pure_bind]
  cases h : x.run.attempt handle s with
  | mk r t =>
    cases r with
    | none => exact attempt_run_bind_none h
    | some r =>
      cases r with
      | ok a => exact attempt_run_bind_ok h
      | error e => exact attempt_run_bind_error h

theorem attempt_run_rethrow (g : ε → ε) : (tryCatch x fun e => throw (g e)).run.attempt handle s =
    ((x.run.attempt handle s).1.map (Except.mapError g), (x.run.attempt handle s).2) := by
  change (x.run >>= _).attempt handle s = _
  cases h : x.run.attempt handle s with
  | mk r t =>
    cases r with
    | none => exact attempt_bind_none h
    | some r =>
      rw [attempt_bind_some h]
      cases r <;> rfl

end Throwing

/-- A program that keeps a discipline ends as it should, and leaves a state that its allowed
requests have led to. -/
theorem attempt_of_wp {Stage : Type} {D : Discipline Op Reply Stage} {R : S → S → Prop}
    (hrefl : ∀ s, R s s) (htrans : ∀ {s t u}, R s t → R t u → R s u)
    (hallowed : ∀ st op s, D.allowed st op → R s (handle op s).2)
    {p : Prog Op Reply α} {post : α → Stage → Prop} {st : Stage} (h : D.wp p post st) (s : S) :
    R s (p.attempt handle s).2 ∧ ∀ a, (p.attempt handle s).1 = some a → ∃ st', post a st' := by
  induction p generalizing st s with
  | pure a =>
    refine ⟨hrefl s, fun b hb => ⟨st, ?_⟩⟩
    cases hb
    exact h
  | request op next ih =>
    have hstep := hallowed st op s h.1
    rw [attempt]
    cases hr : (handle op s).1 with
    | none => exact ⟨hstep, nofun⟩
    | some r =>
      have hnext := ih r (h.2 r) (handle op s).2
      exact ⟨htrans hstep hnext.1, hnext.2⟩

end Prog

end JsonRpcRelay.Framework

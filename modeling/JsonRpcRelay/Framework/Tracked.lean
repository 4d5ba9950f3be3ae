import Mathlib.Data.Bool.Basic

/-!
# Computations that keep track of failed requests

A computation that makes requests has a result, and it is known whether one of its requests has
failed.  An error of a request may be caught on the way, so that there may be a result although a
request has failed.
-/

namespace JsonRpcRelay.Framework

@[ext] structure Tracked (ε α : Type) where
  result : Except ε α
  failed : Bool

namespace Tracked

variable {ε δ α β : Type}

instance : Monad (Tracked ε) where
  pure a := ⟨.ok a, false⟩
  bind x f :=
    match x.result with
    | .ok a => ⟨(f a).result, x.failed || (f a).failed⟩
    | .error e => ⟨.error e, x.failed⟩

instance : MonadExceptOf ε (Tracked ε) where
  throw e := ⟨.error e, false⟩
  tryCatch x handle :=
    match x.result with
    | .ok a => ⟨.ok a, x.failed⟩
    | .error e => ⟨(handle e).result, x.failed || (handle e).failed⟩

/-- A request that raises an error if it fails. -/
def request (answer : Except ε α) : Tracked ε α := ⟨answer, !answer.isOk⟩

/-- A request whose error is part of its answer. -/
def inspected (answer : Except δ α) : Tracked ε (Except δ α) := ⟨.ok answer, !answer.isOk⟩

section Results

variable {x : Tracked ε α} {f : α → Tracked ε β} {a : α} {e : ε}

theorem pure_eq (a : α) : (pure a : Tracked ε α) = ⟨.ok a, false⟩ := rfl

theorem bind_of_ok (h : x.result = .ok a) :
    x >>= f = ⟨(f a).result, x.failed || (f a).failed⟩ := by
  show (match x.result with
    | .ok a => (⟨(f a).result, x.failed || (f a).failed⟩ : Tracked ε β)
    | .error e => ⟨.error e, x.failed⟩) = _
  rw [h]

theorem bind_of_error (h : x.result = .error e) : x >>= f = ⟨.error e, x.failed⟩ := by
  show (match x.result with
    | .ok a => (⟨(f a).result, x.failed || (f a).failed⟩ : Tracked ε β)
    | .error e => ⟨.error e, x.failed⟩) = _
  rw [h]

@[simp] theorem pure_bind (a : α) (f : α → Tracked ε β) : pure a >>= f = f a := by
  rw [bind_of_ok rfl, pure_eq, Bool.false_or]

theorem tryCatch_of_ok (h : x.result = .ok a) (handle : ε → Tracked ε α) :
    tryCatch x handle = ⟨.ok a, x.failed⟩ := by
  show (match x.result with
    | .ok a => (⟨.ok a, x.failed⟩ : Tracked ε α)
    | .error e => ⟨(handle e).result, x.failed || (handle e).failed⟩) = _
  rw [h]

theorem tryCatch_of_error (h : x.result = .error e) (handle : ε → Tracked ε α) :
    tryCatch x handle = ⟨(handle e).result, x.failed || (handle e).failed⟩ := by
  show (match x.result with
    | .ok a => (⟨.ok a, x.failed⟩ : Tracked ε α)
    | .error e => ⟨(handle e).result, x.failed || (handle e).failed⟩) = _
  rw [h]

instance : LawfulMonad (Tracked ε) := LawfulMonad.mk' (Tracked ε)
  (by
    intro α x
    cases h : x.result with
    | ok a => exact (bind_of_ok h).trans (Tracked.ext h.symm (Bool.or_false _))
    | error e => exact (bind_of_error h).trans (Tracked.ext h.symm rfl))
  (by
    intro α β a f
    exact pure_bind a f)
  (by
    intro α β γ x f g
    cases h : x.result with
    | error e => rw [bind_of_error h, bind_of_error rfl, bind_of_error h]
    | ok a =>
      rw [bind_of_ok h, bind_of_ok h]
      cases hf : (f a).result with
      | error e => rw [bind_of_error rfl, bind_of_error hf]
      | ok b => rw [bind_of_ok rfl, bind_of_ok hf, Bool.or_assoc])

end Results

section Failed

variable {x : Tracked ε α} {f : α → Tracked ε β}

/-- Steps without requests do not fail. -/
theorem failed_bind (h : ∀ a, (f a).failed = false) : (x >>= f).failed = x.failed := by
  cases hresult : x.result with
  | error e => rw [bind_of_error hresult]
  | ok a => rw [bind_of_ok hresult, h a, Bool.or_false]

theorem failed_tryCatch {handle : ε → Tracked ε α} (h : ∀ e, (handle e).failed = false) :
    (tryCatch x handle).failed = x.failed := by
  cases hresult : x.result with
  | ok a => rw [tryCatch_of_ok hresult]
  | error e => rw [tryCatch_of_error hresult, h e, Bool.or_false]

theorem mapM_of_ok {l : List α} (h : ∀ a ∈ l, ∃ b, (f a).result = .ok b) :
    (∃ bs, (l.mapM f).result = .ok bs) ∧ (l.mapM f).failed = l.any fun a => (f a).failed := by
  induction l with
  | nil => exact ⟨⟨[], rfl⟩, rfl⟩
  | cons a l ih =>
    obtain ⟨b, hb⟩ := h a List.mem_cons_self
    obtain ⟨⟨bs, hbs⟩, hfailed⟩ := ih fun c hc => h c (List.mem_cons_of_mem a hc)
    rw [List.mapM_cons, bind_of_ok hb, bind_of_ok hbs, hfailed, pure_eq, Bool.or_false]
    exact ⟨⟨b :: bs, rfl⟩, rfl⟩

end Failed

section Sincere

/-- There is no result if a request has failed. -/
def Sincere (x : Tracked ε α) : Prop := ∀ a, x.result = .ok a → x.failed = false

variable {x : Tracked ε α} {f : α → Tracked ε β}

theorem sincere_pure (a : α) : (pure a : Tracked ε α).Sincere := fun _ _ => rfl

theorem sincere_throw (e : ε) : (throw e : Tracked ε α).Sincere := fun _ _ => rfl

theorem sincere_request (answer : Except ε α) : (request answer).Sincere := by
  rintro a rfl
  rfl

theorem Sincere.bind (hx : x.Sincere) (hf : ∀ a, x.result = .ok a → (f a).Sincere) :
    (x >>= f).Sincere := by
  cases hresult : x.result with
  | error e =>
    rw [bind_of_error hresult]
    rintro b ⟨⟩
  | ok a =>
    rw [bind_of_ok hresult]
    intro b hb
    rw [hx a hresult, Bool.false_or]
    exact hf a hresult b hb

/-- Errors that are raised again are not passed over. -/
theorem Sincere.tryCatch_throw (hx : x.Sincere) (g : ε → ε) :
    (tryCatch x fun e => throw (g e)).Sincere := by
  cases hresult : x.result with
  | error e =>
    rw [tryCatch_of_error hresult]
    rintro a ⟨⟩
  | ok a =>
    rw [tryCatch_of_ok hresult]
    intro b _
    exact hx a hresult

theorem sincere_ite {c : Prop} [Decidable c] {x y : Tracked ε α} (hx : c → x.Sincere)
    (hy : ¬c → y.Sincere) : (if c then x else y).Sincere := by
  by_cases h : c
  · rw [if_pos h]
    exact hx h
  · rw [if_neg h]
    exact hy h

theorem sincere_mapM {l : List α} (hf : ∀ a ∈ l, (f a).Sincere) : (l.mapM f).Sincere := by
  induction l with
  | nil => exact sincere_pure []
  | cons a l ih =>
    rw [List.mapM_cons]
    refine (hf a List.mem_cons_self).bind fun b _ => ?_
    exact (ih fun c hc => hf c (List.mem_cons_of_mem a hc)).bind fun _ _ => sincere_pure _

end Sincere

section Tracks

/-- The computation without requests that fail has the result `y`, or raises its error. -/
structure Tracks (x : Tracked ε α) (y : Except ε α) : Prop where
  result : x.result = y
  sincere : x.Sincere

variable {x : Tracked ε α} {y : Except ε α} {f : α → Tracked ε β} {g : α → Except ε β}

theorem tracks_pure (a : α) : Tracks (pure a : Tracked ε α) (pure a) := ⟨rfl, sincere_pure a⟩

theorem tracks_throw (e : ε) : Tracks (throw e : Tracked ε α) (throw e) := ⟨rfl, sincere_throw e⟩

theorem tracks_request (answer : Except ε α) : Tracks (request answer) answer :=
  ⟨rfl, sincere_request answer⟩

theorem tracks_ofExcept (y : Except ε α) :
    Tracks (MonadExcept.ofExcept y : Tracked ε α) (MonadExcept.ofExcept y) := by
  cases y with
  | error e => exact tracks_throw e
  | ok a => exact tracks_pure a

theorem Tracks.bind (h : Tracks x y) (hf : ∀ a, y = .ok a → Tracks (f a) (g a)) :
    Tracks (x >>= f) (y >>= g) := by
  refine ⟨?_, h.sincere.bind fun a ha => (hf a (h.result ▸ ha)).sincere⟩
  cases hy : y with
  | error e =>
    rw [bind_of_error (h.result.trans hy)]
    rfl
  | ok a =>
    rw [bind_of_ok (h.result.trans hy)]
    exact (hf a hy).result

theorem Tracks.rethrow (h : Tracks x y) (k : ε → ε) :
    Tracks (tryCatch x fun e => throw (k e)) (tryCatch y fun e => throw (k e)) := by
  refine ⟨?_, h.sincere.tryCatch_throw k⟩
  cases hy : y with
  | error e =>
    rw [tryCatch_of_error (h.result.trans hy)]
    rfl
  | ok a =>
    rw [tryCatch_of_ok (h.result.trans hy)]
    rfl

theorem tracks_ite {c : Prop} [Decidable c] {x' : Tracked ε α} {y' : Except ε α}
    (hx : c → Tracks x y) (hx' : ¬c → Tracks x' y') :
    Tracks (if c then x else x') (if c then y else y') := by
  by_cases h : c
  · rw [if_pos h, if_pos h]
    exact hx h
  · rw [if_neg h, if_neg h]
    exact hx' h

end Tracks

section Ends

/-- The computation ends like `y`.  If that is a result, it is one in spite of a failed request
exactly if `c` holds. -/
structure Ends (x : Tracked ε α) (y : Except ε α) (c : Prop) : Prop where
  result : x.result = y
  failed : ∀ a, y = .ok a → (x.failed = true ↔ c)

variable {x : Tracked ε α} {y : Except ε α} {f : α → Tracked ε β} {g : α → Except ε β} {c d : Prop}

theorem Tracks.ends (h : Tracks x y) : Ends x y False := by
  refine ⟨h.result, fun a ha => ?_⟩
  rw [h.sincere a (h.result.trans ha)]
  exact iff_of_false Bool.false_ne_true id

/-- Nothing is asked of a computation without a result. -/
theorem ends_throw (e : ε) (c : Prop) : Ends (throw e : Tracked ε α) (throw e) c :=
  ⟨rfl, fun _ ha => nomatch ha⟩

theorem Ends.congr (h : Ends x y c) (hiff : ∀ a, y = .ok a → (c ↔ d)) : Ends x y d :=
  ⟨h.result, fun a ha => (h.failed a ha).trans (hiff a ha)⟩

theorem Ends.bind (h : Ends x y c) (hf : ∀ a, y = .ok a → Ends (f a) (g a) d) :
    Ends (x >>= f) (y >>= g) (c ∨ d) := by
  cases hy : y with
  | error e =>
    rw [bind_of_error (h.result.trans hy)]
    exact ⟨rfl, fun b hb => nomatch hb⟩
  | ok a =>
    have hnext := hf a hy
    rw [bind_of_ok (h.result.trans hy)]
    refine ⟨hnext.result, fun b hb => ?_⟩
    rw [Bool.or_eq_true, h.failed a hy, hnext.failed b hb]

/-- A computation that raises no error, in front of one that passes over no failed request. -/
theorem Ends.then_tracks {z : Except ε β} {a : α} (h : Ends x (.ok a) c) (hf : Tracks (f a) z) :
    Ends (x >>= f) z c := by
  rw [bind_of_ok h.result]
  refine ⟨hf.result, fun b hb => ?_⟩
  rw [hf.sincere b (hf.result.trans hb), Bool.or_false]
  exact h.failed a rfl

/-- What follows may depend on what has been asked for. -/
theorem Tracks.bind_ends {c : α → Prop} (h : Tracks x y)
    (hf : ∀ a, y = .ok a → Ends (f a) (g a) (c a)) :
    Ends (x >>= f) (y >>= g) (∃ a, y = .ok a ∧ c a) := by
  cases hy : y with
  | error e =>
    rw [bind_of_error (h.result.trans hy)]
    exact ⟨rfl, fun b hb => nomatch hb⟩
  | ok a =>
    have hresult := h.result.trans hy
    rw [bind_of_ok hresult, h.sincere a hresult, Bool.false_or]
    refine (hf a hy).congr fun _ _ => ⟨fun hc => ⟨a, rfl, hc⟩, ?_⟩
    rintro ⟨a', ha', hc⟩
    rwa [Except.ok.inj ha']

theorem ends_mapM {l : List α} {c : α → Prop} (h : ∀ a ∈ l, Ends (f a) (g a) (c a)) :
    Ends (l.mapM f) (l.mapM g) (∃ a ∈ l, c a) := by
  induction l with
  | nil => exact (tracks_pure []).ends.congr fun _ _ => by simp
  | cons a l ih =>
    rw [List.mapM_cons, List.mapM_cons]
    have hrest := ih fun b hb => h b (List.mem_cons_of_mem a hb)
    refine ((h a List.mem_cons_self).bind fun b _ =>
      hrest.bind fun bs _ => (tracks_pure (b :: bs)).ends).congr fun _ _ => ?_
    simp

theorem Ends.rethrow (h : Ends x y c) (k : ε → ε) :
    Ends (tryCatch x fun e => throw (k e)) (y.mapError k) c := by
  cases hy : y with
  | error e =>
    rw [tryCatch_of_error (h.result.trans hy)]
    exact ⟨rfl, fun a ha => nomatch ha⟩
  | ok a =>
    rw [tryCatch_of_ok (h.result.trans hy)]
    exact ⟨rfl, fun b _ => h.failed a hy⟩

end Ends

end Tracked

end JsonRpcRelay.Framework

import Mathlib.Algebra.BigOperators.Group.Finset.Basic
import Mathlib.Tactic.Abel
import JsonRpcRelay.Framework.Program
import JsonRpcRelay.Framework.Schedule

/-!
# Interleavings of programs

A pool runs one program for each thread over a shared state.  A scheduler picks the thread
whose next request is answered, and the environment may act in between.  Each thread carries
a ghost that notes what its requests have shown.

A thread is verified alone with `wp`: between two of its requests the other threads and the
environment may change the shared state as `rely` allows, and each of its own requests has
to stay within `rely` too.  `Protocol.wp_of_run` puts the threads together.
-/

namespace JsonRpcRelay.Framework

/-- How requests are answered: `act` may depend on a choice of the environment and is `none`
where the request has to wait, `env` are the steps of the environment alone, and `note`
updates the ghost of the thread with the state before and after its request. -/
structure Protocol (Op : Type) (Reply : Op → Type) (Choice Env S L : Type) where
  act : (op : Op) → Choice → S → Option (Reply op × S)
  env : Env → S → Option S
  note : L → (op : Op) → Reply op → S → S → L

structure Pool (ι Op : Type) (Reply : Op → Type) (α S L : Type) where
  shared : S
  prog : ι → Prog Op Reply α
  ghost : ι → L

inductive PoolEvent (ι Choice Env : Type) where
  | run (i : ι) (c : Choice)
  | env (e : Env)

namespace Protocol

variable {ι Op : Type} {Reply : Op → Type} {Choice Env S L α β : Type} [DecidableEq ι]

def step (P : Protocol Op Reply Choice Env S L) (pool : Pool ι Op Reply α S L) :
    PoolEvent ι Choice Env → Option (Pool ι Op Reply α S L)
  | .run i c =>
      match pool.prog i with
      | .pure _ => none
      | .request op next => (P.act op c pool.shared).map fun r =>
          { shared := r.2
            prog := Function.update pool.prog i (next r.1)
            ghost := Function.update pool.ghost i
              (P.note (pool.ghost i) op r.1 pool.shared r.2) }
  | .env e => (P.env e pool.shared).map fun s => { pool with shared := s }

/-- The assumptions under which the threads are verified: `request` restricts the requests
that are issued, `env` the steps of the environment, and `rely` bounds what any step may do
to the shared state. -/
structure Contract (P : Protocol Op Reply Choice Env S L) where
  request : L → Op → S → Prop
  env : Env → S → Prop
  rely : S → S → Prop
  refl : ∀ s, rely s s
  trans : ∀ s t u, rely s t → rely t u → rely s u
  env_rely : ∀ e s t, env e s → P.env e s = some t → rely s t

variable {P : Protocol Op Reply Choice Env S L}

/-- The steps of a pool that meet the assumptions of the contract. -/
def Contract.Permits (K : P.Contract) (pool : Pool ι Op Reply α S L) :
    PoolEvent ι Choice Env → Prop
  | .run i _ => ∀ op next, pool.prog i = .request op next →
      K.request (pool.ghost i) op pool.shared
  | .env e => K.env e pool.shared

instance Contract.decidePermits (K : P.Contract) [∀ l op s, Decidable (K.request l op s)]
    [∀ e s, Decidable (K.env e s)] (pool : Pool ι Op Reply α S L) :
    (e : PoolEvent ι Choice Env) → Decidable (K.Permits pool e)
  | .env e => inferInstanceAs (Decidable (K.env e pool.shared))
  | .run i _ =>
      match h : pool.prog i with
      | .pure _ => isTrue fun op next hp => by rw [h] at hp; cases hp
      | .request op next =>
          decidable_of_iff (K.request (pool.ghost i) op pool.shared)
            ⟨fun hok op' next' hp => by rw [h] at hp; cases hp; exact hok,
              fun hok => hok op next h⟩

/-- A check of `Permits` for the steps of the threads. -/
def Contract.permitsRun (K : P.Contract) [∀ l op s, Decidable (K.request l op s)]
    (pool : Pool ι Op Reply α S L) : PoolEvent ι Choice Env → Bool
  | .run i _ =>
      match pool.prog i with
      | .pure _ => true
      | .request op _ => K.request (pool.ghost i) op pool.shared
  | .env _ => false

omit [DecidableEq ι] in
theorem Contract.permits_of_permitsRun {K : P.Contract}
    [∀ l op s, Decidable (K.request l op s)] {pool : Pool ι Op Reply α S L}
    {e : PoolEvent ι Choice Env} (h : K.permitsRun pool e = true) : K.Permits pool e := by
  cases e with
  | env e => cases h
  | run i c =>
    intro op next hp
    simp only [permitsRun, hp, decide_eq_true_eq] at h
    exact h

/-- The thread keeps to the contract from here on, and its result meets `post`. -/
def Contract.wp (K : P.Contract) :
    Prog Op Reply α → (α → L → S → Prop) → L → S → Prop
  | .pure a, post, l, s => ∀ t, K.rely s t → post a l t
  | .request op next, post, l, s => ∀ t, K.rely s t → K.request l op t →
      ∀ c r u, P.act op c t = some (r, u) →
        K.rely t u ∧ K.wp (next r) post (P.note l op r t u) u

section Rules

variable {K : P.Contract} {post post' : α → L → S → Prop} {l : L} {s t : S}

/-- What holds of a thread survives the steps of the others. -/
theorem Contract.wp_stable {p : Prog Op Reply α} (h : K.wp p post l s) (hst : K.rely s t) :
    K.wp p post l t := by
  cases p with
  | pure a => exact fun u htu => h u (K.trans _ _ _ hst htu)
  | request op next => exact fun u htu => h u (K.trans _ _ _ hst htu)

theorem Contract.wp_mono {p : Prog Op Reply α} (h : K.wp p post l s)
    (hpost : ∀ a l s, post a l s → post' a l s) : K.wp p post' l s := by
  induction p generalizing l s with
  | pure a => exact fun t ht => hpost a l t (h t ht)
  | request op next ih =>
    intro t ht hok c r u hact
    obtain ⟨hrely, hnext⟩ := h t ht hok c r u hact
    exact ⟨hrely, ih r hnext⟩

theorem Contract.wp_bind {p : Prog Op Reply α} {f : α → Prog Op Reply β}
    {post : β → L → S → Prop} (h : K.wp p (fun a l s => K.wp (f a) post l s) l s) :
    K.wp (p >>= f) post l s := by
  induction p generalizing l s with
  | pure a => exact h s (K.refl s)
  | request op next ih =>
    intro t ht hok c r u hact
    obtain ⟨hrely, hnext⟩ := h t ht hok c r u hact
    exact ⟨hrely, ih r hnext⟩

/-- The state at the end of a thread is related to the one at its start, and what holds there
survives the steps of the others. -/
theorem Contract.wp_rely {p : Prog Op Reply α} (h : K.wp p post l s) :
    K.wp p (fun a l' t => K.rely s t ∧ ∀ u, K.rely t u → post a l' u) l s := by
  induction p generalizing l s with
  | pure a => exact fun t ht => ⟨ht, fun u hu => h u (K.trans _ _ _ ht hu)⟩
  | request op next ih =>
    intro t ht hok c r u hact
    obtain ⟨hrely, hnext⟩ := h t ht hok c r u hact
    refine ⟨hrely, Contract.wp_mono (ih r hnext) ?_⟩
    rintro a l' v ⟨huv, hpost⟩
    exact ⟨K.trans _ _ _ ht (K.trans _ _ _ hrely huv), hpost⟩

/-- The rule of sequencing: what was known at the start is related to the state in the middle. -/
theorem Contract.wp_seq {p : Prog Op Reply α} {f : α → Prog Op Reply β}
    {post' : β → L → S → Prop} (h : K.wp p post l s)
    (hnext : ∀ a l' t, K.rely s t → (∀ u, K.rely t u → post a l' u) → K.wp (f a) post' l' t) :
    K.wp (p >>= f) post' l s := by
  apply Contract.wp_bind
  apply Contract.wp_mono (Contract.wp_rely h)
  exact fun a l' t hpost => hnext a l' t hpost.1 hpost.2

end Rules

section Exceptions

variable {K : P.Contract} {ε : Type} {l : L} {s : S} {post : Except ε α → L → S → Prop}

/-- Sequencing of code that may throw: a result is passed on, an exception ends it. -/
theorem Contract.wp_run_seq {x : ExceptT ε (Prog Op Reply) α}
    {f : α → ExceptT ε (Prog Op Reply) β} {post' : Except ε β → L → S → Prop}
    (h : K.wp x.run post l s)
    (hok : ∀ a l' t, K.rely s t → post (.ok a) l' t → K.wp (f a).run post' l' t)
    (herror : ∀ e l' t, K.rely s t → post (.error e) l' t → post' (.error e) l' t) :
    K.wp (x >>= f).run post' l s := by
  rw [ExceptT.run_bind]
  apply Contract.wp_seq h
  intro r l' t hst hpost
  cases r with
  | ok a => exact hok a l' t hst (hpost t (K.refl t))
  | error e => exact fun u hu => herror e l' u (K.trans _ _ _ hst hu) (hpost u hu)

theorem Contract.wp_run_map {x : ExceptT ε (Prog Op Reply) α} {f : α → β}
    {post : Except ε β → L → S → Prop} (h : K.wp x.run (fun r => post (r.map f)) l s) :
    K.wp (f <$> x).run post l s := by
  rw [map_eq_pure_bind]
  exact Contract.wp_run_seq (Contract.wp_rely h)
    (fun _ _ _ _ hpost u hu => hpost.2 u hu) fun _ _ t _ hpost => hpost.2 t (K.refl t)

theorem Contract.wp_run_tryCatch {x : ExceptT ε (Prog Op Reply) α}
    {f : ε → ExceptT ε (Prog Op Reply) α} {post' : Except ε α → L → S → Prop}
    (h : K.wp x.run post l s)
    (hok : ∀ a l' t, K.rely s t → post (.ok a) l' t → post' (.ok a) l' t)
    (herror : ∀ e l' t, K.rely s t → post (.error e) l' t → K.wp (f e).run post' l' t) :
    K.wp (tryCatch x f).run post' l s := by
  change K.wp (x.run >>= _) post' l s
  apply Contract.wp_seq h
  intro r l' t hst hpost
  cases r with
  | ok a => exact fun u hu => hok a l' u (K.trans _ _ _ hst hu) (hpost u hu)
  | error e => exact herror e l' t hst (hpost t (K.refl t))

end Exceptions

section Pools

variable {K : P.Contract} {post : ι → α → L → S → Prop}

/-- Every thread of the pool keeps to the contract. -/
def Contract.Verified (K : P.Contract) (post : ι → α → L → S → Prop)
    (pool : Pool ι Op Reply α S L) : Prop :=
  ∀ i, K.wp (pool.prog i) (post i) (pool.ghost i) pool.shared

/-- The step lemma of a pool: the thread that moves goes on, the others are not disturbed. -/
theorem Contract.verified_step {pool pool' : Pool ι Op Reply α S L} {e : PoolEvent ι Choice Env}
    (h : K.Verified post pool) (hok : K.Permits pool e) (hstep : P.step pool e = some pool') :
    K.Verified post pool' ∧ K.rely pool.shared pool'.shared := by
  cases e with
  | env e =>
    obtain ⟨s, hs, rfl⟩ := Option.map_eq_some_iff.mp hstep
    have hrely := K.env_rely e _ s hok hs
    exact ⟨fun i => Contract.wp_stable (h i) hrely, hrely⟩
  | run i c =>
    cases hp : pool.prog i with
    | pure a => simp [step, hp] at hstep
    | request op next =>
      simp only [step, hp] at hstep
      obtain ⟨⟨r, u⟩, hact, rfl⟩ := Option.map_eq_some_iff.mp hstep
      have hi := h i
      rw [hp] at hi
      obtain ⟨hrely, hnext⟩ := hi _ (K.refl _) (hok op next hp) c r u hact
      refine ⟨fun j => ?_, hrely⟩
      by_cases hj : j = i
      · subst hj
        simpa using hnext
      · simpa [hj] using Contract.wp_stable (h j) hrely

theorem Contract.verified_run {pool pool' : Pool ι Op Reply α S L}
    {es : List (PoolEvent ι Choice Env)} (h : K.Verified post pool)
    (hok : Along P.step K.Permits pool es) (hrun : exec P.step pool es = some pool') :
    K.Verified post pool' ∧ K.rely pool.shared pool'.shared := by
  refine run_invariant (I := fun q => K.Verified post q ∧ K.rely pool.shared q.shared)
    ?_ ⟨h, K.refl _⟩ hok hrun
  rintro q e q' ⟨hq, hreach⟩ hperm hstep
  obtain ⟨hq', hnext⟩ := K.verified_step hq hperm hstep
  exact ⟨hq', K.trans _ _ _ hreach hnext⟩

omit [DecidableEq ι] in
/-- A thread that has ended meets its postcondition. -/
theorem Contract.post_of_done {pool : Pool ι Op Reply α S L} (h : K.Verified post pool) {i : ι}
    {a : α} (hi : pool.prog i = .pure a) : post i a (pool.ghost i) pool.shared := by
  have hwp := h i
  rw [hi] at hwp
  exact hwp _ (K.refl _)

end Pools

section Ledger

variable {M : Type} [AddCommGroup M] [Fintype ι] {value : S → M} {credit : L → M}

/-- If every thread books what its own requests do to a value of the shared state, and the
environment leaves the value, it has changed by the sum of what the threads booked. -/
theorem value_of_run {ok : Pool ι Op Reply α S L → PoolEvent ι Choice Env → Prop}
    (hact : ∀ op c s r t l, P.act op c s = some (r, t) →
      credit (P.note l op r s t) = credit l + (value t - value s))
    (henv : ∀ pool e t, ok pool (.env e) → P.env e pool.shared = some t →
      value t = value pool.shared)
    {pool pool' : Pool ι Op Reply α S L} {es : List (PoolEvent ι Choice Env)}
    (hok : Along P.step ok pool es) (hrun : exec P.step pool es = some pool') :
    value pool'.shared - value pool.shared =
      ∑ i, (credit (pool'.ghost i) - credit (pool.ghost i)) := by
  refine run_invariant (I := fun q : Pool ι Op Reply α S L => value q.shared - value pool.shared =
    ∑ i, (credit (q.ghost i) - credit (pool.ghost i))) ?_ (by simp) hok hrun
  intro p e q hsum hperm hstep
  cases e with
  | env e =>
    obtain ⟨s, hs, rfl⟩ := Option.map_eq_some_iff.mp hstep
    rw [henv p e s hperm hs]
    exact hsum
  | run i c =>
    cases hp : p.prog i with
    | pure a => simp [step, hp] at hstep
    | request op next =>
      simp only [step, hp] at hstep
      obtain ⟨⟨r, t⟩, hr, rfl⟩ := Option.map_eq_some_iff.mp hstep
      have hbooked := hact op c _ r t (p.ghost i) hr
      have hown : ∑ j, (credit (Function.update p.ghost i
          (P.note (p.ghost i) op r p.shared t) j) - credit (p.ghost j)) =
          value t - value p.shared := by
        rw [Finset.sum_eq_single i]
        · rw [Function.update_self, hbooked, add_sub_cancel_left]
        · intro j _ hj
          rw [Function.update_of_ne hj, sub_self]
        · exact fun hi => absurd (Finset.mem_univ i) hi
      calc value t - value pool.shared
          = (value t - value p.shared) + (value p.shared - value pool.shared) := by abel
        _ = _ := by
          rw [hsum, ← hown, ← Finset.sum_add_distrib]
          exact Finset.sum_congr rfl fun j _ => by abel

end Ledger

end Protocol

end JsonRpcRelay.Framework

import JsonRpcRelay.Framework.History
import JsonRpcRelay.Framework.Interleaving

/-!
# Disciplines of programs

A discipline says in which stage a thread may issue which request, and which stage the reply
leads to.  That a program keeps a discipline is a property of its text alone.  In a pool of
programs that all keep it, an invariant of the shared state and the stages is kept by every
step if every allowed request keeps it.
-/

namespace JsonRpcRelay.Framework

structure Discipline (Op : Type) (Reply : Op → Type) (Stage : Type) where
  allowed : Stage → Op → Prop
  next : Stage → (op : Op) → Reply op → Stage

namespace Discipline

variable {Op : Type} {Reply : Op → Type} {Stage α β : Type}

/-- The program keeps the discipline from the given stage on, and ends as `post` says. -/
def wp (D : Discipline Op Reply Stage) : Prog Op Reply α → (α → Stage → Prop) → Stage → Prop
  | .pure a, post, st => post a st
  | .request op next, post, st =>
      D.allowed st op ∧ ∀ r, D.wp (next r) post (D.next st op r)

section Rules

variable {D : Discipline Op Reply Stage} {st : Stage} {post post' : α → Stage → Prop}

/-- What is requested in a run is allowed, in a stage that the replies keep an invariant of. -/
theorem allowed_of_runs {answers : (op : Op) → Reply op → Prop} {I : Stage → Prop}
    (hI : ∀ st op reply, I st → answers op reply → I (D.next st op reply))
    {p : Prog Op Reply α} {history : History Op Reply} {result : α}
    (hruns : p.Runs history result) (hanswers : ∀ event ∈ history, answers event.1 event.2)
    (h : D.wp p post st) (hst : I st) {event : (op : Op) × Reply op} (hevent : event ∈ history) :
    ∃ st', I st' ∧ D.allowed st' event.1 := by
  induction p generalizing st history with
  | pure a =>
    obtain ⟨rfl, _⟩ := hruns
    cases hevent
  | request op next ih =>
    obtain ⟨reply, rest, rfl, hrest⟩ := hruns
    rcases List.mem_cons.mp hevent with rfl | hevent
    · exact ⟨st, hst, h.1⟩
    · have hnext := hI st op reply hst (hanswers _ List.mem_cons_self)
      have hanswers := fun event hevent => hanswers event (List.mem_cons_of_mem _ hevent)
      exact ih reply hrest hanswers (h.2 reply) hnext hevent

theorem wp_mono {p : Prog Op Reply α} (h : D.wp p post st)
    (hpost : ∀ a st, post a st → post' a st) : D.wp p post' st := by
  induction p generalizing st with
  | pure a => exact hpost a st h
  | request op next ih => exact ⟨h.1, fun r => ih r (h.2 r)⟩

theorem wp_bind {p : Prog Op Reply α} {f : α → Prog Op Reply β} {post : β → Stage → Prop}
    (h : D.wp p (fun a st => D.wp (f a) post st) st) : D.wp (p >>= f) post st := by
  induction p generalizing st with
  | pure a => exact h
  | request op next ih => exact ⟨h.1, fun r => ih r (h.2 r)⟩

variable {ε : Type} {x : ExceptT ε (Prog Op Reply) α} {mid : Except ε α → Stage → Prop}

/-- Sequencing of code that may throw. -/
theorem wp_run_bind {f : α → ExceptT ε (Prog Op Reply) β} {post : Except ε β → Stage → Prop}
    (h : D.wp x.run mid st)
    (hok : ∀ a st, mid (.ok a) st → D.wp (f a).run post st)
    (herror : ∀ e st, mid (.error e) st → post (.error e) st) :
    D.wp (x >>= f).run post st := by
  rw [ExceptT.run_bind]
  apply wp_bind
  apply wp_mono h
  intro r st hr
  cases r with
  | ok a => exact hok a st hr
  | error e => exact herror e st hr

theorem wp_run_map {f : α → β} {post : Except ε β → Stage → Prop}
    (h : D.wp x.run (fun r => post (r.map f)) st) : D.wp (f <$> x).run post st := by
  rw [map_eq_pure_bind]
  exact wp_run_bind h (fun _ _ hpost => hpost) fun _ _ hpost => hpost

theorem wp_run_tryCatch {f : ε → ExceptT ε (Prog Op Reply) α} {post : Except ε α → Stage → Prop}
    (h : D.wp x.run mid st)
    (hok : ∀ a st, mid (.ok a) st → post (.ok a) st)
    (herror : ∀ e st, mid (.error e) st → D.wp (f e).run post st) :
    D.wp (tryCatch x f).run post st := by
  change D.wp (x.run >>= _) post st
  apply wp_bind
  apply wp_mono h
  intro r st hr
  cases r with
  | ok a => exact hok a st hr
  | error e => exact herror e st hr

end Rules

section Pools

variable {ι Choice Env S : Type} [DecidableEq ι] {D : Discipline Op Reply Stage}
  {P : Protocol Op Reply Choice Env S Stage} {post : ι → α → Stage → Prop}

/-- Every thread of the pool keeps the discipline. -/
def Followed (D : Discipline Op Reply Stage) (post : ι → α → Stage → Prop)
    (pool : Pool ι Op Reply α S Stage) : Prop :=
  ∀ i, D.wp (pool.prog i) (post i) (pool.ghost i)

private theorem followed_step (hnote : ∀ l op r s t, P.note l op r s t = D.next l op r)
    {pool pool' : Pool ι Op Reply α S Stage} {e : PoolEvent ι Choice Env}
    (h : D.Followed post pool) (hstep : P.step pool e = some pool') : D.Followed post pool' := by
  cases e with
  | env e =>
    obtain ⟨s, _, rfl⟩ := Option.map_eq_some_iff.mp hstep
    exact h
  | run i c =>
    cases hp : pool.prog i with
    | pure a => simp [Protocol.step, hp] at hstep
    | request op next =>
      simp only [Protocol.step, hp] at hstep
      obtain ⟨⟨r, t⟩, _, rfl⟩ := Option.map_eq_some_iff.mp hstep
      intro j
      by_cases hj : j = i
      · subst hj
        have hnext := h j
        rw [hp] at hnext
        simpa [hnote] using hnext.2 r
      · simpa [hj] using h j

/-- The run rule: an invariant of the shared state and the stages that is kept by every allowed
request and by the environment holds at the end of a run. -/
theorem run_invariant (hnote : ∀ l op r s t, P.note l op r s t = D.next l op r)
    {ok : Pool ι Op Reply α S Stage → PoolEvent ι Choice Env → Prop}
    {I : S → (ι → Stage) → Prop}
    (hact : ∀ (pool : Pool ι Op Reply α S Stage) i c op next r t, I pool.shared pool.ghost →
      pool.prog i = .request op next → D.allowed (pool.ghost i) op → ok pool (.run i c) →
      P.act op c pool.shared = some (r, t) →
      I t (Function.update pool.ghost i (D.next (pool.ghost i) op r)))
    (henv : ∀ (pool : Pool ι Op Reply α S Stage) e t, I pool.shared pool.ghost →
      ok pool (.env e) → P.env e pool.shared = some t → I t pool.ghost)
    {pool pool' : Pool ι Op Reply α S Stage} {es : List (PoolEvent ι Choice Env)}
    (hfollowed : D.Followed post pool) (hinv : I pool.shared pool.ghost)
    (hok : Along P.step ok pool es) (hrun : exec P.step pool es = some pool') :
    D.Followed post pool' ∧ I pool'.shared pool'.ghost := by
  refine Framework.run_invariant (I := fun q : Pool ι Op Reply α S Stage =>
    D.Followed post q ∧ I q.shared q.ghost) ?_ ⟨hfollowed, hinv⟩ hok hrun
  intro p e q hp hperm hstep
  refine ⟨followed_step hnote hp.1 hstep, ?_⟩
  cases e with
  | env e =>
    obtain ⟨t, ht, rfl⟩ := Option.map_eq_some_iff.mp hstep
    exact henv p e t hp.2 hperm ht
  | run i c =>
    cases hprog : p.prog i with
    | pure a => simp [Protocol.step, hprog] at hstep
    | request op next =>
      simp only [Protocol.step, hprog] at hstep
      obtain ⟨⟨r, t⟩, ht, rfl⟩ := Option.map_eq_some_iff.mp hstep
      have hallowed := hp.1 i
      rw [hprog] at hallowed
      have hnext := hact p i c op next r t hp.2 hprog hallowed.1 hperm ht
      simpa [hnote] using hnext

omit [DecidableEq ι] in
/-- A thread that has ended has ended as it should. -/
theorem post_of_done {pool : Pool ι Op Reply α S Stage} (h : D.Followed post pool) {i : ι} {a : α}
    (hi : pool.prog i = .pure a) : post i a (pool.ghost i) := by
  have hwp := h i
  rw [hi] at hwp
  exact hwp

end Pools

end Discipline

end JsonRpcRelay.Framework

import JsonRpcRelay.Lock.RedisLockQueue

/-!
# Exclusion and order of the Redis lock

From a successful `SET NX` until the holder's own release or the end of the hold time the
lock key does not change, whoever acts and whatever fails.  The sessions are granted the
lock in the order of their `lPush`, as long as no pruning hits a session that polls.
-/

namespace JsonRpcRelay.Lock.RedisLock

open Framework

variable {σ : Type} [DecidableEq σ] {cfg : RedisLockConfig}

section Exclusion

variable {st st' : RedisLock σ} {e : LockEvent σ} {s : σ} {deadline : ℕ}

omit [DecidableEq σ] in
private theorem holder_of_lock (hlock : st.lock = some (s, deadline)) (hnow : st.now < deadline) :
    st.holder = some s := by
  simp [holder, hlock, hnow]

private theorem step_keeps_lock (hlock : st.lock = some (s, deadline)) (hnow : st.now < deadline)
    (h : step cfg st e = some st') (hrelease : e ≠ .releaseLock s) : st'.lock = st.lock := by
  have hheld := holder_of_lock hlock hnow
  rcases step_keys h with ⟨t, _, _, _, hl, _⟩ | ⟨_, _, _, _, hl | ⟨t, he, ht, _⟩⟩
  · simpa [lockAfter, hheld] using hl
  · exact hl
  · obtain rfl : s = t := Option.some.inj (hheld.symm.trans ht)
    exact absurd he hrelease

private theorem no_grant_of_held (hheld : st.holder = some s) : grants st e = [] := by
  unfold grants
  split <;> simp [hheld]

private theorem step_acquired (h : step cfg st e = some st') {t : σ} (ht : (st'.phase t).acquired) :
    (st.phase t).acquired ∨ t ∈ grants st e := by
  rcases step_phase h t with hsame | ⟨r, rfl, hr, hph⟩ | ⟨b, rfl, hph⟩ | ⟨rfl, hph⟩
  · exact Or.inl (hsame ▸ ht)
  · have henter := issue_enters hr
    rw [hph] at ht
    cases hr2 : r.2 with
    | lLen =>
      rw [hr2] at henter
      exact Or.inr (by simp [grants, henter.1, henter.2])
    | removeFromQueue q =>
      rw [hr2] at henter
      simp [henter.1, Phase.acquired]
    | returned q =>
      rw [hr2] at henter ht
      have henter : st.phase t = .removeFromQueue q := henter
      left
      cases q <;> simp_all [Phase.acquired]
    | _ => simp [hr2, Phase.acquired] at ht
  · left
    cases hp : st.phase t with
    | removeFromQueue q =>
      simp only [onError, hp, Option.some.injEq] at hph
      rw [← hph] at ht
      cases q <;> simp_all [Phase.acquired]
    | _ =>
      simp only [onError, hp, Option.some.injEq, reduceCtorEq] at hph
      try simp [← hph, Phase.acquired] at ht
  · simp [hph, Phase.acquired] at ht

private theorem grant_locks (h : step cfg st e = some st') (hs : s ∈ grants st e) :
    st'.lock = some (s, st.now + cfg.maxLockHoldMs) := by
  obtain ⟨hex, hset⟩ := mem_grants.mp hs
  rcases step_keys h with ⟨t, ht, _, _, hl, _⟩ | ⟨hidle, _⟩
  · obtain rfl : s = t := executes_unique hex ht
    rw [hl, lockAfter, if_pos hset]
  · exact absurd hex (hidle s)

private theorem held_run {mid : List (LockEvent σ)} {st₁ st₂ : RedisLock σ}
    (hlock : st₁.lock = some (s, deadline)) (hrun : exec (step cfg) st₁ mid = some st₂)
    (hrelease : .releaseLock s ∉ mid) (hnow : st₂.now < deadline) :
    st₂.lock = some (s, deadline) ∧ trace (step cfg) grants st₁ mid = [] ∧
      ∀ t, (st₂.phase t).acquired → (st₁.phase t).acquired := by
  obtain ⟨_, halong⟩ := along_reaches (R := fun u t : RedisLock σ => u.now ≤ t.now)
    (fun _ => Nat.le_refl _) (fun _ _ _ _ h hreach => Nat.le_trans (step_now h) hreach) hrun
  have hinv := run_trace_invariant grants
    (I := fun st seen => st.lock = some (s, deadline) ∧ seen = [] ∧
      ∀ t, (st.phase t).acquired → (st₁.phase t).acquired) ?_ ⟨hlock, rfl, fun _ h => h⟩ halong hrun
  · simpa using hinv
  rintro st e st' seen ⟨hheld, hseen, hold⟩ ⟨hmem, hle⟩ h
  have hlive : st.now < deadline := Nat.lt_of_le_of_lt hle hnow
  have hquiet : grants st e = [] := no_grant_of_held (holder_of_lock hheld hlive)
  refine ⟨?_, by rw [hseen, hquiet]; rfl, fun t ht => ?_⟩
  · rw [step_keeps_lock hheld hlive h (fun he => hrelease (he ▸ hmem)), hheld]
  · rcases step_acquired h ht with hacq | hgrant
    · exact hold t hacq
    · simp [hquiet] at hgrant

end Exclusion

section Order

/-- The sessions in the order of their `lPush` and in the order of their grants: what was
granted, followed by what still waits, keeps the order of arrival. -/
structure OrderInv (st : RedisLock σ) (joined granted : List σ) : Prop extends QueueInv st where
  fresh : ∀ s ∈ joined, st.phase s ≠ .lPush
  joinedOnce : joined.Nodup
  settled : ∀ s ∈ granted, (st.phase s).polling = false
  ordered : (granted ++ st.queue.reverse.filter (· ∉ granted)).Sublist joined

theorem OrderInv.init : OrderInv (RedisLock.init : RedisLock σ) [] [] where
  toQueueInv := QueueInv.init
  fresh := by simp
  joinedOnce := List.nodup_nil
  settled := by simp
  ordered := by simp [RedisLock.init]

private theorem joins_eq_singleton {st : RedisLock σ} {e : LockEvent σ} {s : σ}
    (hs : s ∈ joins st e) :
    joins st e = [s] := by
  obtain ⟨hex, hpush⟩ := mem_joins.mp hs
  rcases hex with rfl | rfl <;> simp [joins, hpush]

private theorem grants_eq_singleton {st : RedisLock σ} {e : LockEvent σ} {s : σ}
    (hs : s ∈ grants st e) :
    grants st e = [s] := by
  obtain ⟨hex, hset⟩ := mem_grants.mp hs
  rcases hex with rfl | rfl <;> simp [grants, hset]

private theorem joins_or_grants_nil (st : RedisLock σ) (e : LockEvent σ) :
    joins st e = [] ∨ grants st e = [] := by
  by_contra hboth
  obtain ⟨hj, hg⟩ := not_or.mp hboth
  obtain ⟨s, hs⟩ := List.exists_mem_of_ne_nil _ hj
  obtain ⟨t, ht⟩ := List.exists_mem_of_ne_nil _ hg
  obtain ⟨hex, hpush⟩ := mem_joins.mp hs
  obtain ⟨hex', hset, _⟩ := mem_grants.mp ht
  obtain rfl := executes_unique hex hex'
  simp [hpush] at hset

private theorem join_queue {st st' : RedisLock σ} {e : LockEvent σ} {s : σ}
    (h : step cfg st e = some st') (hs : s ∈ joins st e) : st'.queue = s :: st.queue := by
  obtain ⟨hex, hpush⟩ := mem_joins.mp hs
  rcases step_keys h with ⟨t, ht, _, hq, _⟩ | ⟨hidle, _⟩
  · obtain rfl := executes_unique hex ht
    rw [hq, queueAfter, hpush]
  · exact absurd hex (hidle s)

private theorem grant_queue {st st' : RedisLock σ} {e : LockEvent σ} {s : σ}
    (h : step cfg st e = some st') (hs : s ∈ grants st e) : st'.queue = st.queue := by
  obtain ⟨hex, hset, _⟩ := mem_grants.mp hs
  rcases step_keys h with ⟨t, ht, _, hq, _⟩ | ⟨hidle, _⟩
  · obtain rfl := executes_unique hex ht
    rw [hq, queueAfter, hset]
  · exact absurd hex (hidle s)

private theorem step_queue_sublist {st st' : RedisLock σ} {e : LockEvent σ}
    (h : step cfg st e = some st') (hjoin : joins st e = []) : st'.queue.Sublist st.queue := by
  rcases step_keys h with ⟨s, hs, _, hq, _⟩ | ⟨_, _, hq, _⟩
  · rw [hq]
    unfold queueAfter
    split
    · rename_i hpush
      have hmem : s ∈ joins st e := mem_joins.mpr ⟨hs, hpush⟩
      simp [hjoin] at hmem
    · exact List.filter_sublist
    · exact List.erase_sublist
    · exact List.Sublist.refl _
  · rw [hq]

private theorem OrderInv.waiting_eq {st : RedisLock σ} {e : LockEvent σ} {joined granted : List σ}
    {s : σ} (hinv : OrderInv st joined granted) (hs : s ∈ grants st e) :
    ∃ later, st.queue.reverse = s :: later ∧ s ∉ later ∧ s ∉ granted := by
  obtain ⟨_, hset, _⟩ := mem_grants.mp hs
  obtain ⟨l, hl⟩ := List.getLast?_eq_some_iff.mp (hinv.first s hset)
  refine ⟨l.reverse, by simp [hl], fun hmem => ?_, fun hg => ?_⟩
  · have hnodup := hinv.nodup
    rw [hl] at hnodup
    exact (List.nodup_append.mp hnodup).2.2 s (List.mem_reverse.mp hmem) s (by simp) rfl
  · simpa [hset, Phase.polling] using hinv.settled s hg

private theorem OrderInv.grant_front {st : RedisLock σ} {e : LockEvent σ} {joined granted : List σ}
    {s : σ} (hinv : OrderInv st joined granted) (hs : s ∈ grants st e) :
    granted ++ [s] ++ st.queue.reverse.filter (· ∉ granted ++ [s]) =
      granted ++ st.queue.reverse.filter (· ∉ granted) := by
  obtain ⟨later, hq, hlater, hnew⟩ := hinv.waiting_eq hs
  have hrest : later.filter (· ∉ granted ++ [s]) = later.filter (· ∉ granted) := by
    refine List.filter_congr fun t ht => ?_
    have hts : t ≠ s := fun heq => hlater (heq ▸ ht)
    simp [hts]
  rw [hq, List.filter_cons_of_neg (by simp), hrest, List.filter_cons_of_pos (by simpa using hnew),
    List.append_assoc, List.singleton_append]

theorem OrderInv.step {st st' : RedisLock σ} {e : LockEvent σ} {joined granted : List σ}
    (hinv : OrderInv st joined granted) (hkeep : KeepsPolling st e)
    (h : step cfg st e = some st') :
    OrderInv st' (joined ++ joins st e) (granted ++ grants st e) where
  toQueueInv := hinv.toQueueInv.step hkeep h
  fresh := by
    intro s hs hpush
    obtain ⟨hold, hidle⟩ := step_lPush h hpush
    rcases List.mem_append.mp hs with hj | hj
    · exact hinv.fresh s hj hold
    · exact hidle (mem_joins.mp hj).1
  joinedOnce := by
    refine List.nodup_append.mpr ⟨hinv.joinedOnce, ?_, ?_⟩
    · cases hj : joins st e with
      | nil => exact List.nodup_nil
      | cons s l =>
        rw [← hj, joins_eq_singleton (s := s) (by simp [hj])]
        exact List.nodup_singleton s
    · rintro s hs t ht rfl
      exact hinv.fresh s hs (mem_joins.mp ht).2
  settled := by
    intro s hs
    rcases List.mem_append.mp hs with hg | hg
    · have hjoined : s ∈ joined := hinv.ordered.mem (List.mem_append_left _ hg)
      exact (step_settled h ⟨hinv.settled s hg, hinv.fresh s hjoined⟩).1
    · exact grant_leaves_loop h hg
  ordered := by
    by_cases hjoin : joins st e = []
    · by_cases hgrant : grants st e = []
      · rw [hjoin, hgrant, List.append_nil, List.append_nil]
        have hsub := (step_queue_sublist h hjoin).reverse.filter (· ∉ granted)
        exact ((List.Sublist.refl granted).append hsub).trans hinv.ordered
      · obtain ⟨s, hs⟩ := List.exists_mem_of_ne_nil _ hgrant
        rw [hjoin, grants_eq_singleton hs, List.append_nil, grant_queue h hs, hinv.grant_front hs]
        exact hinv.ordered
    · obtain ⟨s, hs⟩ := List.exists_mem_of_ne_nil _ hjoin
      have hnew : s ∉ granted := fun hg =>
        hinv.fresh s (hinv.ordered.mem (List.mem_append_left _ hg)) (mem_joins.mp hs).2
      rw [(joins_or_grants_nil st e).resolve_left hjoin, joins_eq_singleton hs, List.append_nil,
        join_queue h hs, List.reverse_cons, List.filter_append, ← List.append_assoc]
      have happ := hinv.ordered.append (List.Sublist.refl [s])
      simpa [hnew] using happ

/-- What a run shows of the joins (left) and of the grants (right). -/
def joinsAndGrants (st : RedisLock σ) (e : LockEvent σ) : List (σ ⊕ σ) :=
  (joins st e).map .inl ++ (grants st e).map .inr

def onlyJoins : σ ⊕ σ → List σ := Sum.elim (fun s => [s]) fun _ => []

def onlyGrants : σ ⊕ σ → List σ := Sum.elim (fun _ => []) fun s => [s]

private theorem joinsAndGrants_joins (st : RedisLock σ) (e : LockEvent σ) :
    (joinsAndGrants st e).flatMap onlyJoins = joins st e := by
  simp [joinsAndGrants, onlyJoins, List.flatMap_map]

private theorem joinsAndGrants_grants (st : RedisLock σ) (e : LockEvent σ) :
    (joinsAndGrants st e).flatMap onlyGrants = grants st e := by
  simp [joinsAndGrants, onlyGrants, List.flatMap_map]

private theorem order_of_run {es : List (LockEvent σ)} {st : RedisLock σ}
    (hkeep : Along (step cfg) KeepsPolling init es) (hrun : exec (step cfg) init es = some st) :
    OrderInv st (trace (step cfg) joins init es) (trace (step cfg) grants init es) := by
  let I : RedisLock σ → List (σ ⊕ σ) → Prop := fun st seen =>
    OrderInv st (seen.flatMap onlyJoins) (seen.flatMap onlyGrants)
  have hstart : I init [] := OrderInv.init
  have hinv := run_trace_invariant joinsAndGrants (I := I) ?_ hstart hkeep hrun
  · simp only [I, List.nil_append, ← trace_flatMap] at hinv
    simpa only [joinsAndGrants_joins, joinsAndGrants_grants] using hinv
  · intro st e st' seen hseen hok h
    simp only [I, List.flatMap_append, joinsAndGrants_joins, joinsAndGrants_grants]
    exact hseen.step hok h

private theorem OrderInv.not_overtaken {st : RedisLock σ} {e : LockEvent σ}
    {joined granted : List σ} {s t : σ} (hinv : OrderInv st joined granted) (hs : s ∈ grants st e)
    (ht : (st.phase t).polling) (hts : t ≠ s) : [s, t].Sublist joined := by
  obtain ⟨later, hq, _, hnew⟩ := hinv.waiting_eq hs
  have htnew : t ∉ granted := fun hg => by simpa [ht] using hinv.settled t hg
  have hmem : t ∈ later := by
    have hwait := List.mem_reverse.mpr (hinv.waiting t ht)
    rw [hq] at hwait
    exact (List.mem_cons.mp hwait).resolve_left hts
  have hfirst : [s, t].Sublist (st.queue.reverse.filter (· ∉ granted)) := by
    rw [hq, List.filter_cons_of_pos (by simpa using hnew)]
    refine (List.singleton_sublist.mpr ?_).cons_cons s
    exact List.mem_filter.mpr ⟨hmem, by simpa using htnew⟩
  exact (hfirst.trans (List.sublist_append_right _ _)).trans hinv.ordered

end Order

/-- The lock is exclusive: from a grant until the holder's release or the end of the hold time,
no other `SET NX` succeeds and no other call changes the lock key.  And it is fair: the grants
follow the order of the `lPush` commands. -/
theorem lock_exclusive_and_fifo :
    (∀ (st st₁ st₂ : RedisLock σ) (e : LockEvent σ) (mid : List (LockEvent σ)) (s : σ),
      step cfg st e = some st₁ → s ∈ grants st e → exec (step cfg) st₁ mid = some st₂ →
      .releaseLock s ∉ mid → st₂.now < st.now + cfg.maxLockHoldMs →
        st₂.holder = some s ∧ trace (step cfg) grants st₁ mid = [] ∧
        (∀ t, (st₂.phase t).acquired → t = s ∨ (st.phase t).acquired) ∧
        ∀ e' st₃, step cfg st₂ e' = some st₃ → e' ≠ .releaseLock s → st₃.lock = st₂.lock) ∧
    ∀ (es : List (LockEvent σ)) (st : RedisLock σ), Along (step cfg) KeepsPolling init es →
      exec (step cfg) init es = some st →
        (trace (step cfg) joins init es).Nodup ∧
        (trace (step cfg) grants init es).Sublist (trace (step cfg) joins init es) ∧
        ∀ e s t, s ∈ grants st e → (st.phase t).polling → t ≠ s →
          [s, t].Sublist (trace (step cfg) joins init es) := by
  constructor
  · intro st st₁ st₂ e mid s h hs hrun hrelease hnow
    obtain ⟨hlock, hquiet, hacquired⟩ := held_run (grant_locks h hs) hrun hrelease hnow
    refine ⟨holder_of_lock hlock hnow, hquiet, fun t ht => ?_, fun e' st₃ h' he' => ?_⟩
    · rcases step_acquired h (hacquired t ht) with hold | hgrant
      · exact Or.inr hold
      · rw [grants_eq_singleton hs, List.mem_singleton] at hgrant
        exact Or.inl hgrant
    · exact step_keeps_lock hlock hnow h' he'
  · intro es st hkeep hrun
    have hinv := order_of_run hkeep hrun
    have hsub := (List.sublist_append_left _ _).trans hinv.ordered
    exact ⟨hinv.joinedOnce, hsub, fun e s t hs ht hts => hinv.not_overtaken hs ht hts⟩

/-- Two sessions join, and the first reads itself as the first in line. -/
def contention : List (LockEvent Bool) :=
  [.command true, .command false, .command true, .command true]

def contended : RedisLock Bool := (exec (step defaultConfig) init contention).get rfl

theorem lock_exclusive_and_fifo_pair :
    ∃ held, step defaultConfig contended (.command true) = some held ∧
      (held.release false).holder = some true ∧
      [true, false].Sublist (trace (step defaultConfig) joins init contention) := by
  obtain ⟨hexclusive, hfifo⟩ := @lock_exclusive_and_fifo Bool _ defaultConfig
  have hkeep : Along (step defaultConfig) KeepsPolling init contention := by
    repeat' first | refine Along.cons rfl ?_ ?_ | exact trivial
    all_goals
      rintro f ⟨_, s, hs, hzombie⟩
      cases s <;> cases f <;> revert hs hzombie <;> decide
  have hgrant : true ∈ grants contended (.command true) := by decide
  let held := (step defaultConfig contended (.command true)).get rfl
  have hheld := hexclusive contended held (held.release false) (.command true)
    [.releaseLock false] true rfl hgrant rfl (by decide) (by decide)
  have horder := (hfifo contention contended hkeep rfl).2.2 (.command true) true false hgrant rfl
  exact ⟨held, rfl, hheld.1, horder (by decide)⟩

end JsonRpcRelay.Lock.RedisLock

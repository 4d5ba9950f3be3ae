import Mathlib.Data.List.Nodup
import JsonRpcRelay.Lock.RedisLock

/-!
# The queue of the Redis lock

A session that polls is in the queue list exactly once as long as no step prunes a session
that still polls, and a session that has read itself as the first in line stays the first.
-/

namespace JsonRpcRelay.Lock.RedisLock

variable {σ : Type} [DecidableEq σ] {cfg : RedisLockConfig}

/-- No session that still polls is pruned as a zombie by this step. -/
def KeepsPolling (st : RedisLock σ) (e : LockEvent σ) : Prop :=
  ∀ f, Prunes st e f → (st.phase f).polling = false

structure QueueInv (st : RedisLock σ) : Prop where
  nodup : st.queue.Nodup
  notJoined : ∀ s, st.phase s = .lPush → s ∉ st.queue
  waiting : ∀ s, (st.phase s).polling → s ∈ st.queue
  first : ∀ s, st.phase s = .setLock → st.firstInQueue = some s

omit [DecidableEq σ] in
theorem QueueInv.init : QueueInv (RedisLock.init : RedisLock σ) where
  nodup := List.nodup_nil
  notJoined := by simp [RedisLock.init]
  waiting := by simp [RedisLock.init, Phase.polling]
  first := by simp [RedisLock.init]

section Phases

/-- What a phase is entered from when a command is answered. -/
def EnteredFrom (st : RedisLock σ) (s : σ) : Phase σ → Prop
  | .lPush | .crashed => False
  | .setHeartbeat _ => st.phase s = .lPush ∨ (st.phase s).polling
  | .lIndex => ∃ notBefore, st.phase s = .setHeartbeat notBefore
  | .setLock => st.phase s = .lIndex ∧ st.firstInQueue = some s
  | .existsHeartbeat f => st.phase s = .lIndex ∧ st.firstInQueue = some f
  | .lRemZombie f => st.phase s = .existsHeartbeat f ∧ st.alive f = false
  | .lLen => st.phase s = .setLock ∧ st.holder = none
  | .removeFromQueue r => st.phase s = .lLen ∧ r = some s
  | .returned r => st.phase s = .removeFromQueue r

theorem issue_enters {st : RedisLock σ} {s : σ} {r : RedisLock σ × Phase σ}
    (h : issue cfg st s = some r) : EnteredFrom st s r.2 := by
  cases hp : st.phase s <;> simp only [issue, hp] at h
  case lIndex =>
    cases h
    dsimp only
    split
    · rename_i f hf
      split
      · rename_i hfs
        exact ⟨hp, hfs ▸ hf⟩
      · exact ⟨hp, hf⟩
    · exact Or.inr (by simp [hp, Phase.polling])
  case setHeartbeat t =>
    split at h <;> cases h
    exact ⟨t, hp⟩
  case setLock =>
    split at h <;> cases h
    · exact ⟨hp, by assumption⟩
    · exact Or.inr (by simp [hp, Phase.polling])
  case existsHeartbeat f =>
    cases h
    dsimp only
    split
    · exact Or.inr (by simp [hp, Phase.polling])
    · exact ⟨hp, by simpa using ‹¬ st.alive f = true›⟩
  all_goals cases h
  all_goals simp [EnteredFrom, hp, Phase.polling]

omit [DecidableEq σ] in
private theorem onError_not_polling {p q : Phase σ} (h : onError p = some q) :
    q.polling = false ∧ q ≠ .lPush := by
  cases p <;> simp [onError] at h <;> subst h <;> simp [Phase.polling]

private theorem issue_not_lPush {st : RedisLock σ} {s : σ} {r : RedisLock σ × Phase σ}
    (h : issue cfg st s = some r) : r.2 ≠ .lPush := fun hr => by
  simpa [hr, EnteredFrom] using issue_enters h

private theorem issue_polling {st : RedisLock σ} {s : σ} {r : RedisLock σ × Phase σ}
    (h : issue cfg st s = some r) (hr : r.2.polling) :
    st.phase s = .lPush ∨ (st.phase s).polling := by
  have henter := issue_enters h
  cases hp : r.2 <;> simp only [hp, EnteredFrom] at henter <;> simp [hp, Phase.polling] at hr
  case setHeartbeat => exact henter
  case lIndex =>
    obtain ⟨t, ht⟩ := henter
    simp [ht, Phase.polling]
  all_goals simp [henter.1, Phase.polling]

theorem step_lPush {st st' : RedisLock σ} {e : LockEvent σ} (h : step cfg st e = some st') {t : σ}
    (ht : st'.phase t = .lPush) : st.phase t = .lPush ∧ ¬ executes e t := by
  rcases step_phase h t with hsame | ⟨r, rfl, hr, hph⟩ | ⟨b, rfl, hph⟩ | ⟨rfl, hph⟩
  · refine ⟨hsame ▸ ht, ?_⟩
    rintro (rfl | rfl)
    · obtain ⟨r, hr, rfl⟩ := Option.map_eq_some_iff.mp h
      exact issue_not_lPush hr (by simpa using ht)
    · obtain ⟨r, _, hmap⟩ := Option.bind_eq_some_iff.mp h
      obtain ⟨p, hp, rfl⟩ := Option.map_eq_some_iff.mp hmap
      exact (onError_not_polling hp).2 (by simpa using ht)
  · exact absurd (hph ▸ ht) (issue_not_lPush hr)
  · exact absurd ht (onError_not_polling hph).2
  · simp [hph] at ht

private theorem step_polling {st st' : RedisLock σ} {e : LockEvent σ} (h : step cfg st e = some st')
    {t : σ} (ht : (st'.phase t).polling) :
    (st.phase t).polling ∨ (e = .command t ∧ st.phase t = .lPush) := by
  rcases step_phase h t with hsame | ⟨r, rfl, hr, hph⟩ | ⟨b, rfl, hph⟩ | ⟨rfl, hph⟩
  · exact Or.inl (hsame ▸ ht)
  · rcases issue_polling hr (hph ▸ ht) with hpush | hpoll
    · exact Or.inr ⟨rfl, hpush⟩
    · exact Or.inl hpoll
  · simp [(onError_not_polling hph).1] at ht
  · simp [hph, Phase.polling] at ht

/-- A session that has left the poll loop, or died, does not come back to it. -/
theorem step_settled {st st' : RedisLock σ} {e : LockEvent σ} (h : step cfg st e = some st') {t : σ}
    (ht : (st.phase t).polling = false ∧ st.phase t ≠ .lPush) :
    (st'.phase t).polling = false ∧ st'.phase t ≠ .lPush := by
  refine ⟨?_, fun hpush => ht.2 (step_lPush h hpush).1⟩
  by_contra hpoll
  rcases step_polling h (by simpa using hpoll) with hold | ⟨_, hold⟩
  · simp [ht.1] at hold
  · exact ht.2 hold

theorem grant_leaves_loop {st st' : RedisLock σ} {e : LockEvent σ} {s : σ}
    (h : step cfg st e = some st') (hs : s ∈ grants st e) : (st'.phase s).polling = false := by
  obtain ⟨hex, hset⟩ := mem_grants.mp hs
  rcases hex with rfl | rfl
  · simp only [step, issue, hset.1, hset.2, if_true, Option.map_some, Option.some.injEq] at h
    simp [← h, Phase.polling]
  · simp only [step, issue, onError, hset.1, hset.2, if_true, Option.map_some, Option.bind_some,
      Option.some.injEq] at h
    simp [← h, Phase.polling]

end Phases

section Tail

omit [DecidableEq σ] in
private theorem getLast?_filter_of_last {l : List σ} {t : σ} {p : σ → Bool}
    (h : l.getLast? = some t) (hp : p t) : (l.filter p).getLast? = some t := by
  obtain ⟨l', rfl⟩ := List.getLast?_eq_some_iff.mp h
  rw [List.filter_append, List.filter_singleton, hp]
  simp

private theorem getLast?_erase_of_last {l : List σ} {s t : σ} (h : l.getLast? = some t)
    (hst : s ≠ t) :
    (l.erase s).getLast? = some t := by
  obtain ⟨l', rfl⟩ := List.getLast?_eq_some_iff.mp h
  by_cases hs : s ∈ l'
  · rw [List.erase_append_left _ hs, List.getLast?_concat]
  · rw [List.erase_append_right _ hs, List.erase_cons_tail (by simpa using hst.symm),
      List.erase_nil, List.getLast?_concat]

/-- Only its own clean-up or a pruning takes a session away from the end of the queue list:
joining sessions enter at the other end. -/
theorem step_firstInQueue {st st' : RedisLock σ} {e : LockEvent σ} (h : step cfg st e = some st')
    {t : σ} (ht : st.firstInQueue = some t) (hprune : ¬ Prunes st e t)
    (hleave : executes e t → ∀ r, st.phase t ≠ .removeFromQueue r) :
    st'.firstInQueue = some t := by
  have hmem : t ∈ st.queue := List.mem_of_getLast? ht
  rcases step_keys h with ⟨s, hs, _, hq, _⟩ | ⟨_, _, hq, _⟩
  · unfold firstInQueue at ht ⊢
    rw [hq]
    unfold queueAfter
    split
    · rw [List.getLast?_cons, ht]; rfl
    · rename_i f hf
      refine getLast?_filter_of_last ht ?_
      by_contra hft
      exact hprune ⟨hmem, s, hs, by simpa [show t = f by simpa using hft] using hf⟩
    · rename_i r hr
      refine getLast?_erase_of_last ht ?_
      rintro rfl
      exact hleave hs r hr
    · exact ht
  · rwa [firstInQueue, hq]

end Tail

private theorem step_mem_queue {st st' : RedisLock σ} {e : LockEvent σ}
    (h : step cfg st e = some st') {t : σ} (ht : t ∈ st.queue) (hprune : ¬ Prunes st e t)
    (hleave : executes e t → ∀ r, st.phase t ≠ .removeFromQueue r) : t ∈ st'.queue := by
  rcases step_keys h with ⟨s, hs, _, hq, _⟩ | ⟨_, _, hq, _⟩
  · rw [hq]
    unfold queueAfter
    split
    · exact List.mem_cons_of_mem _ ht
    · rename_i f hf
      refine List.mem_filter.mpr ⟨ht, ?_⟩
      by_contra hft
      exact hprune ⟨ht, s, hs, by simpa [show t = f by simpa using hft] using hf⟩
    · rename_i r hr
      refine (List.mem_erase_of_ne ?_).mpr ht
      rintro rfl
      exact hleave hs r hr
    · exact ht
  · rwa [hq]

/-- The members of the queue after a step were in it before, or have just joined. -/
theorem mem_queue_of_step {st st' : RedisLock σ} {e : LockEvent σ} (h : step cfg st e = some st')
    {t : σ} (ht : t ∈ st'.queue) : t ∈ st.queue ∨ (executes e t ∧ st.phase t = .lPush) := by
  rcases step_keys h with ⟨s, hs, _, hq, _⟩ | ⟨_, _, hq, _⟩
  · rw [hq] at ht
    unfold queueAfter at ht
    split at ht
    · rename_i hpush
      rcases List.mem_cons.mp ht with rfl | hmem
      · exact Or.inr ⟨hs, hpush⟩
      · exact Or.inl hmem
    · exact Or.inl (List.mem_of_mem_filter ht)
    · exact Or.inl (List.mem_of_mem_erase ht)
    · exact Or.inl ht
  · exact Or.inl (hq ▸ ht)

theorem step_nodup {st st' : RedisLock σ} {e : LockEvent σ} (h : step cfg st e = some st')
    (hnodup : st.queue.Nodup) (hnotJoined : ∀ s, st.phase s = .lPush → s ∉ st.queue) :
    st'.queue.Nodup := by
  rcases step_keys h with ⟨s, _, _, hq, _⟩ | ⟨_, _, hq, _⟩
  · rw [hq]
    unfold queueAfter
    split
    · rename_i hpush
      exact List.nodup_cons.mpr ⟨hnotJoined s hpush, hnodup⟩
    · exact hnodup.filter _
    · exact hnodup.erase _
    · exact hnodup
  · rw [hq]
    exact hnodup

theorem step_notJoined {st st' : RedisLock σ} {e : LockEvent σ} (h : step cfg st e = some st')
    (hnotJoined : ∀ s, st.phase s = .lPush → s ∉ st.queue) :
    ∀ s, st'.phase s = .lPush → s ∉ st'.queue := by
  intro s hs hmem
  obtain ⟨hold, hidle⟩ := step_lPush h hs
  rcases mem_queue_of_step h hmem with hin | ⟨hex, _⟩
  · exact hnotJoined s hold hin
  · exact hidle hex

theorem QueueInv.step {st st' : RedisLock σ} {e : LockEvent σ} (hinv : QueueInv st)
    (hkeep : KeepsPolling st e) (h : step cfg st e = some st') : QueueInv st' where
  nodup := step_nodup h hinv.nodup hinv.notJoined
  notJoined := step_notJoined h hinv.notJoined
  waiting := by
    intro s hs
    rcases step_polling h hs with hold | ⟨rfl, hpush⟩
    · refine step_mem_queue h (hinv.waiting s hold) (fun hp => ?_) (fun _ r hr => ?_)
      · simp [hkeep s hp] at hold
      · simp [hr, Phase.polling] at hold
    · obtain ⟨r, hr, rfl⟩ := Option.map_eq_some_iff.mp h
      simp [(issue_keys hr).2.2.1, queueAfter, hpush]
  first := by
    intro s hs
    rcases step_phase h s with hsame | ⟨r, rfl, hr, hph⟩ | ⟨b, rfl, hph⟩ | ⟨rfl, hph⟩
    · have hold : st.phase s = .setLock := hsame ▸ hs
      refine step_firstInQueue h (hinv.first s hold) (fun hp => ?_) (fun _ r hr => ?_)
      · simpa [hold, Phase.polling] using hkeep s hp
      · simp [hold] at hr
    · have henter := issue_enters hr
      rw [← hph, hs] at henter
      exact step_firstInQueue h henter.2 (fun hp => by simp [Prunes, executes, henter.1] at hp)
        (fun _ r hr => by simp [henter.1] at hr)
    · cases hp : st.phase s <;> simp [onError, hp, hs] at hph
    · simp [hph] at hs

end JsonRpcRelay.Lock.RedisLock

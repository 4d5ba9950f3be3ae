import JsonRpcRelay.Framework.Schedule
import Mathlib.Logic.Function.Basic

/-!
# Memoised questions

Answers are kept under a key that several questions may share, and an entry may be forgotten
at any time.  The memo is transparent, that is no answer differs from the one without it,
exactly if questions of one key that have an answer have the same.
-/

namespace JsonRpcRelay.Framework

/-- Questions with their keys and their answers; only an answer is kept. -/
structure Memo (Q K A : Type) where
  key : Q → K
  answer : Q → Option A

inductive MemoEvent (Q K : Type) where
  | ask (q : Q)
  | forget (k : K)

namespace Memo

variable {Q K A : Type} [DecidableEq K]

def ask (m : Memo Q K A) (store : K → Option A) (q : Q) : Option A × (K → Option A) :=
  match store (m.key q) with
  | some a => (some a, store)
  | none => (m.answer q, Function.update store (m.key q) (m.answer q))

def step (m : Memo Q K A) (store : K → Option A) : MemoEvent Q K → Option (K → Option A)
  | .ask q => some (m.ask store q).2
  | .forget k => some (Function.update store k none)

def Transparent (m : Memo Q K A) (store : K → Option A) : MemoEvent Q K → Prop
  | .ask q => (m.ask store q).1 = m.answer q
  | .forget _ => True

/-- The questions of a schedule, in order. -/
def questions : List (MemoEvent Q K) → List Q
  | [] => []
  | .ask q :: es => q :: questions es
  | .forget _ :: es => questions es

/-- The later question has the answer of the earlier one if they share the key. -/
def Agree (m : Memo Q K A) (q q' : Q) : Prop :=
  m.key q = m.key q' → ∀ a, m.answer q = some a → m.answer q' = some a

variable {m : Memo Q K A} {store : K → Option A}

/-- Every kept answer belongs to a question that was asked. -/
private def KeptFrom (m : Memo Q K A) (past : List Q) (store : K → Option A) : Prop :=
  ∀ k a, store k = some a → ∃ q ∈ past, m.key q = k ∧ m.answer q = some a

private theorem keptFrom_ask {past : List Q} {q : Q} (h : KeptFrom m past store) :
    KeptFrom m (past ++ [q]) (m.ask store q).2 := by
  intro k a hk
  cases hq : store (m.key q) with
  | some b =>
    simp only [ask, hq] at hk
    obtain ⟨p, hp, hkey⟩ := h k a hk
    exact ⟨p, List.mem_append_left _ hp, hkey⟩
  | none =>
    simp only [ask, hq] at hk
    by_cases hkq : k = m.key q
    · subst hkq
      rw [Function.update_self] at hk
      exact ⟨q, by simp, rfl, hk⟩
    · rw [Function.update_of_ne hkq] at hk
      obtain ⟨p, hp, hkey⟩ := h k a hk
      exact ⟨p, List.mem_append_left _ hp, hkey⟩

private theorem keptFrom_forget {past : List Q} {k : K} (h : KeptFrom m past store) :
    KeptFrom m past (Function.update store k none) := by
  intro j a hj
  by_cases hjk : j = k
  · subst hjk
    rw [Function.update_self] at hj
    cases hj
  · rw [Function.update_of_ne hjk] at hj
    exact h j a hj

private theorem transparent_of_agree {past : List Q} {es : List (MemoEvent Q K)}
    (hkept : KeptFrom m past store) (hagree : (past ++ questions es).Pairwise m.Agree) :
    Along m.step m.Transparent store es := by
  induction es generalizing past store with
  | nil => trivial
  | cons e es ih =>
    cases e with
    | forget k =>
      refine Along.cons rfl trivial ?_
      exact ih (keptFrom_forget hkept) hagree
    | ask q =>
      have hsplit : past ++ questions (.ask q :: es) = past ++ [q] ++ questions es := by
        simp [questions]
      refine Along.cons rfl ?_ (ih (keptFrom_ask hkept) (hsplit ▸ hagree))
      cases hq : store (m.key q) with
      | none => simp [Transparent, ask, hq]
      | some a =>
        obtain ⟨p, hp, hkey, hanswer⟩ := hkept _ a hq
        have hpq : m.Agree p q :=
          (List.pairwise_append.mp hagree).2.2 p hp q (by simp [questions])
        simp only [Transparent, ask, hq]
        exact (hpq hkey a hanswer).symm

/-- A kept answer stays as long as nothing is forgotten. -/
private theorem ask_of_kept {q p : Q} {a : A} (h : store (m.key q) = some a) :
    (m.ask store p).2 (m.key q) = some a := by
  cases hp : store (m.key p) with
  | some b => simpa [ask, hp] using h
  | none =>
    have hne : m.key q ≠ m.key p := by
      intro heq
      rw [heq, hp] at h
      cases h
    simpa [ask, hp, Function.update_of_ne hne] using h

private theorem answer_of_kept {q q' : Q} {a : A} {qs : List Q}
    (h : store (m.key q) = some a) (hkey : m.key q = m.key q') (hmem : q' ∈ qs)
    (halong : Along m.step m.Transparent store (qs.map .ask)) : m.answer q' = some a := by
  induction qs generalizing store with
  | nil => cases hmem
  | cons p qs ih =>
    rcases List.mem_cons.mp hmem with rfl | hmem
    · have hask := halong.1
      rw [hkey] at h
      simpa [Transparent, ask, h] using hask.symm
    · exact ih (ask_of_kept h) hmem (halong.2 _ rfl)

omit [DecidableEq K] in
private theorem questions_map_ask (qs : List Q) :
    questions (qs.map (.ask : Q → MemoEvent Q K)) = qs := by
  induction qs with
  | nil => rfl
  | cons q qs ih => exact congrArg (List.cons q) ih

private theorem empty_of_forget (q : Q) :
    Function.update (m.ask (fun _ => none) q).2 (m.key q) none = fun _ => none := by
  funext k
  by_cases hk : k = m.key q
  · rw [hk, Function.update_self]
  · rw [Function.update_of_ne hk]
    simp [ask, Function.update_of_ne hk]

/-- The memo of a list of questions is transparent, whatever is forgotten in between, exactly
if they agree. -/
theorem transparent_iff (m : Memo Q K A) (qs : List Q) :
    (∀ es : List (MemoEvent Q K), questions es = qs →
      Along m.step m.Transparent (fun _ => none) es) ↔ qs.Pairwise m.Agree := by
  constructor
  · intro h
    induction qs with
    | nil => exact List.Pairwise.nil
    | cons q qs ih =>
      refine List.pairwise_cons.mpr ⟨?_, ih ?_⟩
      · intro q' hq' hkey a hanswer
        have halong := h ((q :: qs).map .ask) (questions_map_ask _)
        have hkept : (m.ask (fun _ => none) q).2 (m.key q) = some a := by
          simpa [ask] using hanswer
        exact answer_of_kept hkept hkey hq' (halong.2 _ rfl)
      · intro es hes
        have halong := h (.ask q :: .forget (m.key q) :: es) (congrArg (List.cons q) hes)
        have hrest := (halong.2 _ rfl).2 _ rfl
        rwa [empty_of_forget] at hrest
  · intro hagree es hes
    have hnone : KeptFrom m [] (fun _ => none) := by
      intro k a hk
      cases hk
    apply transparent_of_agree hnone
    rw [List.nil_append, hes]
    exact hagree

end Memo

end JsonRpcRelay.Framework

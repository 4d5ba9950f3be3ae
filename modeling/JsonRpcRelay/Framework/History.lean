import JsonRpcRelay.Framework.Program

/-!
# Histories of programs

The requests a program makes one after the other with the replies that it gets, whatever the
environment answers, and the result that it ends with.  What a program does in all its histories
is told by the histories of its parts.
-/

namespace JsonRpcRelay.Framework

/-- The requests of a run with their replies, in order. -/
abbrev History (Op : Type) (Reply : Op → Type) := List ((op : Op) × Reply op)

namespace Prog

variable {Op : Type} {Reply : Op → Type} {α β ε : Type}

/-- The program may make these requests, get these replies and end with this result. -/
def Runs : Prog Op Reply α → History Op Reply → α → Prop
  | .pure a, history, result => history = [] ∧ result = a
  | .request op next, history, result =>
      ∃ reply rest, history = ⟨op, reply⟩ :: rest ∧ (next reply).Runs rest result

/-- The history and the result where the answers depend on the requests alone. -/
def answered (answer : (op : Op) → Reply op) : Prog Op Reply α → History Op Reply × α
  | .pure a => ([], a)
  | .request op next =>
    (⟨op, answer op⟩ :: ((next (answer op)).answered answer).1,
      ((next (answer op)).answered answer).2)

theorem runs_answered (answer : (op : Op) → Reply op) (p : Prog Op Reply α) :
    p.Runs (p.answered answer).1 (p.answered answer).2 := by
  induction p with
  | pure a => exact ⟨rfl, rfl⟩
  | request op next ih => exact ⟨answer op, _, rfl, ih (answer op)⟩

section Answered

variable {answer : (op : Op) → Reply op}

private theorem answered_bind (p : Prog Op Reply α) (f : α → Prog Op Reply β) :
    ((p >>= f).answered answer).2 = ((f (p.answered answer).2).answered answer).2 := by
  induction p with
  | pure a => rfl
  | request op next ih => exact ih (answer op)

/-- The result of code that may throw, where the answers depend on the requests alone. -/
def outcome (answer : (op : Op) → Reply op) (x : ExceptT ε (Prog Op Reply) α) : Except ε α :=
  (x.run.answered answer).2

theorem outcome_bind (x : ExceptT ε (Prog Op Reply) α) (f : α → ExceptT ε (Prog Op Reply) β) :
    outcome answer (x >>= f) = outcome answer x >>= fun a => outcome answer (f a) := by
  unfold outcome
  rw [ExceptT.run_bind, answered_bind]
  cases (x.run.answered answer).2 with
  | error e => rfl
  | ok a => rfl

end Answered

section Rules

variable {history : History Op Reply} {result : β}

@[simp] theorem runs_pure {a b : α} :
    (Pure.pure a : Prog Op Reply α).Runs history b ↔ history = [] ∧ b = a := Iff.rfl

@[simp] theorem runs_call {op : Op} {reply : Reply op} :
    (call op : Prog Op Reply (Reply op)).Runs history reply ↔ history = [⟨op, reply⟩] := by
  constructor
  · intro ⟨reply', rest, hhistory, hrest, hreply⟩
    subst hrest hreply hhistory
    rfl
  · intro hhistory
    exact ⟨reply, [], hhistory, rfl, rfl⟩

theorem runs_bind {p : Prog Op Reply α} {f : α → Prog Op Reply β} :
    (p >>= f).Runs history result ↔
      ∃ first a rest, history = first ++ rest ∧ p.Runs first a ∧ (f a).Runs rest result := by
  induction p generalizing history with
  | pure a => exact ⟨fun h => ⟨[], a, history, rfl, ⟨rfl, rfl⟩, h⟩,
      fun ⟨_, _, _, hhistory, ⟨hfirst, ha⟩, h⟩ => by subst hfirst ha hhistory; exact h⟩
  | request op next ih =>
    constructor
    · intro ⟨reply, rest, hhistory, hrest⟩
      obtain ⟨first, a, last, hsplit, hnext, hlast⟩ := (ih reply).mp hrest
      refine ⟨⟨op, reply⟩ :: first, a, last, ?_, ⟨reply, first, rfl, hnext⟩, hlast⟩
      rw [hhistory, hsplit, List.cons_append]
    · intro ⟨first, a, last, hhistory, ⟨reply, rest, hfirst, hnext⟩, hlast⟩
      refine ⟨reply, rest ++ last, ?_, (ih reply).mpr ⟨rest, a, last, rfl, hnext, hlast⟩⟩
      rw [hhistory, hfirst, List.cons_append]

theorem runs_map {p : Prog Op Reply α} {f : α → β} :
    (f <$> p).Runs history result ↔ ∃ a, p.Runs history a ∧ result = f a := by
  rw [map_eq_pure_bind, runs_bind]
  constructor
  · intro ⟨first, a, rest, hhistory, hfirst, hrest, hresult⟩
    rw [hhistory, hrest, List.append_nil]
    exact ⟨a, hfirst, hresult⟩
  · intro ⟨a, hp, hresult⟩
    exact ⟨history, a, [], (List.append_nil _).symm, hp, rfl, hresult⟩

end Rules

section Exceptions

variable {history : History Op Reply} {result : Except ε β}

/-- Code that may throw is continued with its value, or ends with what it throws. -/
theorem runs_run_bind {x : ExceptT ε (Prog Op Reply) α} {f : α → ExceptT ε (Prog Op Reply) β} :
    (x >>= f).run.Runs history result ↔
      (∃ first a rest, history = first ++ rest ∧ x.run.Runs first (.ok a) ∧
        (f a).run.Runs rest result) ∨
      ∃ e, x.run.Runs history (.error e) ∧ result = .error e := by
  rw [ExceptT.run_bind, runs_bind]
  constructor
  · intro ⟨first, r, rest, hhistory, hx, hrest⟩
    cases r with
    | ok a => exact Or.inl ⟨first, a, rest, hhistory, hx, hrest⟩
    | error e =>
      obtain ⟨hnil, hresult⟩ := hrest
      subst hnil
      rw [List.append_nil] at hhistory
      exact Or.inr ⟨e, hhistory ▸ hx, hresult⟩
  · intro h
    rcases h with ⟨first, a, rest, hhistory, hx, hrest⟩ | ⟨e, hx, hresult⟩
    · exact ⟨first, .ok a, rest, hhistory, hx, hrest⟩
    · exact ⟨history, .error e, [], (List.append_nil _).symm, hx, rfl, hresult⟩

@[simp] theorem runs_run_pure {a : β} :
    (Pure.pure a : ExceptT ε (Prog Op Reply) β).run.Runs history result ↔
      history = [] ∧ result = .ok a := Iff.rfl

@[simp] theorem runs_run_throw {e : ε} :
    (throw e : ExceptT ε (Prog Op Reply) β).run.Runs history result ↔
      history = [] ∧ result = .error e := Iff.rfl

/-- A request is answered, and throws nothing by itself. -/
theorem runs_run_lift_call {op : Op} {result : Except ε (Reply op)} :
    (ExceptT.lift (call op) : ExceptT ε (Prog Op Reply) (Reply op)).run.Runs history result ↔
      ∃ reply, history = [⟨op, reply⟩] ∧ result = .ok reply := by
  constructor
  · intro ⟨reply, rest, hhistory, hrest, hresult⟩
    subst hrest
    exact ⟨reply, hhistory, hresult⟩
  · intro ⟨reply, hhistory, hresult⟩
    exact ⟨reply, [], hhistory, rfl, hresult⟩

end Exceptions

section Ensures

variable {x : ExceptT ε (Prog Op Reply) α} {P Q : History Op Reply → Except ε α → Prop}

/-- All histories and results of code that may throw are as told. -/
def Ensures (x : ExceptT ε (Prog Op Reply) α) (P : History Op Reply → Except ε α → Prop) : Prop :=
  ∀ history result, x.run.Runs history result → P history result

theorem ensures_pure {a : α} (h : P [] (.ok a)) :
    Ensures (Pure.pure a : ExceptT ε (Prog Op Reply) α) P := by
  intro history result hruns
  obtain ⟨hhistory, hresult⟩ := runs_run_pure.mp hruns
  subst hhistory hresult
  exact h

theorem ensures_throw {e : ε} (h : P [] (.error e)) :
    Ensures (throw e : ExceptT ε (Prog Op Reply) α) P := by
  intro history result hruns
  obtain ⟨hhistory, hresult⟩ := runs_run_throw.mp hruns
  subst hhistory hresult
  exact h

theorem ensures_request {op : Op} {P : History Op Reply → Except ε (Reply op) → Prop}
    (h : ∀ reply, P [⟨op, reply⟩] (.ok reply)) :
    Ensures (ExceptT.lift (call op) : ExceptT ε (Prog Op Reply) (Reply op)) P := by
  intro history result hruns
  obtain ⟨reply, hhistory, hresult⟩ := runs_run_lift_call.mp hruns
  subst hhistory hresult
  exact h reply

theorem Ensures.mono (hx : Ensures x P)
    (h : ∀ history result, P history result → Q history result) : Ensures x Q :=
  fun history result hruns => h history result (hx history result hruns)

/-- What is told of the first part passes its errors on and is continued with its values. -/
theorem ensures_bind {f : α → ExceptT ε (Prog Op Reply) β}
    {Q : History Op Reply → Except ε β → Prop} (hx : Ensures x P)
    (hthrow : ∀ history e, P history (.error e) → Q history (.error e))
    (hnext : ∀ first a, P first (.ok a) →
      Ensures (f a) fun rest result => Q (first ++ rest) result) : Ensures (x >>= f) Q := by
  intro history result hruns
  rcases runs_run_bind.mp hruns with
    ⟨first, a, rest, hhistory, hfirst, hrest⟩ | ⟨e, herror, hresult⟩
  · rw [hhistory]
    exact hnext first a (hx first _ hfirst) rest result hrest
  · rw [hresult]
    exact hthrow history e (hx history _ herror)

theorem ensures_request_bind {op : Op} {f : Reply op → ExceptT ε (Prog Op Reply) β}
    {Q : History Op Reply → Except ε β → Prop}
    (h : ∀ reply, Ensures (f reply) fun rest result => Q (⟨op, reply⟩ :: rest) result) :
    Ensures (ExceptT.lift (call op) >>= f) Q := by
  refine ensures_bind (P := fun history result =>
    ∃ reply, history = [⟨op, reply⟩] ∧ result = .ok reply)
    (ensures_request fun reply => ⟨reply, rfl, rfl⟩) ?_ ?_
  · intro history e ⟨reply, _, herror⟩
    cases herror
  · intro first a ⟨reply, hfirst, ha⟩
    obtain rfl := Except.ok.inj ha
    rw [hfirst]
    exact h a

theorem ensures_tryCatch {f : ε → ExceptT ε (Prog Op Reply) α} (hx : Ensures x P)
    (hreturn : ∀ history a, P history (.ok a) → Q history (.ok a))
    (hcatch : ∀ first e, P first (.error e) →
      Ensures (f e) fun rest result => Q (first ++ rest) result) : Ensures (tryCatch x f) Q := by
  intro history result hruns
  obtain ⟨first, caught, rest, hhistory, hfirst, hrest⟩ := runs_bind.mp hruns
  rw [hhistory]
  cases caught with
  | ok a =>
    obtain ⟨hnil, hresult⟩ := hrest
    rw [hnil, hresult, List.append_nil]
    exact hreturn first a (hx first _ hfirst)
  | error e => exact hcatch first e (hx first _ hfirst) rest result hrest

/-- What is thrown is caught as a value. -/
theorem ensures_caught (hx : Ensures x P) :
    Ensures (tryCatch (.ok <$> x) fun e => Pure.pure (.error e) :
        ExceptT ε (Prog Op Reply) (Except ε α)) fun history result =>
      ∃ caught, result = .ok caught ∧ P history caught := by
  rw [map_eq_pure_bind]
  refine ensures_tryCatch (P := fun history (result : Except ε (Except ε α)) =>
    (∀ caught, result = .ok caught → P history caught) ∧
      ∀ e, result = .error e → P history (.error e)) (ensures_bind hx ?_ ?_) ?_ ?_
  · intro history e h
    refine ⟨nofun, fun e' he' => ?_⟩
    obtain rfl := Except.error.inj he'
    exact h
  · intro first a h
    refine ensures_pure ⟨fun caught hcaught => ?_, nofun⟩
    obtain rfl := Except.ok.inj hcaught
    rwa [List.append_nil]
  · exact fun history caught h => ⟨caught, rfl, h.1 caught rfl⟩
  · intro first e h
    refine ensures_pure ⟨.error e, rfl, ?_⟩
    rw [List.append_nil]
    exact h.2 e rfl

end Ensures

section Requests

variable {P : Op → Prop} {x : ExceptT ε (Prog Op Reply) α}

/-- Whatever is answered, all requests are of the kind `P`. -/
def Requests (P : Op → Prop) (x : ExceptT ε (Prog Op Reply) α) : Prop :=
  Ensures x fun history _ => ∀ event ∈ history, P event.1

theorem requests_pure {a : α} :
    Requests P (Pure.pure a : ExceptT ε (Prog Op Reply) α) := ensures_pure (by simp)

theorem requests_throw {e : ε} :
    Requests P (throw e : ExceptT ε (Prog Op Reply) α) := ensures_throw (by simp)

theorem requests_request {op : Op} (h : P op) :
    Requests P (ExceptT.lift (call op) : ExceptT ε (Prog Op Reply) (Reply op)) :=
  ensures_request fun reply => by simpa using h

theorem Requests.bind {f : α → ExceptT ε (Prog Op Reply) β} (hx : Requests P x)
    (hf : ∀ a, Requests P (f a)) : Requests P (x >>= f) := by
  refine ensures_bind hx (fun _ _ h => h) fun first a hfirst => ?_
  refine (hf a).mono fun rest result hrest => ?_
  simp only [List.mem_append]
  exact fun event hevent => hevent.elim (hfirst event) (hrest event)

theorem requests_forM {l : List β} {f : β → ExceptT ε (Prog Op Reply) Unit}
    (hf : ∀ b ∈ l, Requests P (f b)) : Requests P (l.forM f) := by
  induction l with
  | nil => exact requests_pure
  | cons b l ih =>
    rw [List.forM_eq_forM, List.forM_cons]
    exact (hf b List.mem_cons_self).bind fun _ => ih fun b hb => hf b (List.mem_cons_of_mem _ hb)

end Requests

end Prog

end JsonRpcRelay.Framework

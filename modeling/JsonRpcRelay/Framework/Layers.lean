import JsonRpcRelay.Framework.History

/-!
# Layers of programs

A program whose requests are carried out by programs of the layers below.  Its histories are
those of the program itself with each request replaced by a history of what carries it out.
-/

namespace JsonRpcRelay.Framework

namespace Prog

variable {Op Op' : Type} {Reply : Op → Type} {Reply' : Op' → Type} {α β : Type}

/-- Each request is carried out by a program. -/
def implement (impl : (op : Op) → Prog Op' Reply' (Reply op)) :
    Prog Op Reply α → Prog Op' Reply' α
  | .pure a => Pure.pure a
  | .request op next => impl op >>= fun reply => (next reply).implement impl

/-- The lower history is that of the requests of the upper one, carried out in order. -/
def Implements (impl : (op : Op) → Prog Op' Reply' (Reply op)) :
    History Op Reply → History Op' Reply' → Prop
  | [], lower => lower = []
  | ⟨op, reply⟩ :: rest, lower =>
    ∃ first last, lower = first ++ last ∧ (impl op).Runs first reply ∧ Implements impl rest last

variable {impl : (op : Op) → Prog Op' Reply' (Reply op)}

theorem runs_implement {p : Prog Op Reply α} {lower : History Op' Reply'} {a : α} :
    (p.implement impl).Runs lower a ↔ ∃ upper, p.Runs upper a ∧ Implements impl upper lower := by
  induction p generalizing lower with
  | pure b =>
    constructor
    · intro ⟨hlower, ha⟩
      exact ⟨[], ⟨rfl, ha⟩, hlower⟩
    · intro ⟨upper, ⟨hupper, ha⟩, himpl⟩
      rw [hupper] at himpl
      exact ⟨himpl, ha⟩
  | request op next ih =>
    rw [implement, runs_bind]
    constructor
    · intro ⟨first, reply, last, hlower, hfirst, hlast⟩
      obtain ⟨upper, hupper, himpl⟩ := (ih reply).mp hlast
      exact ⟨⟨op, reply⟩ :: upper, ⟨reply, upper, rfl, hupper⟩, first, last, hlower, hfirst, himpl⟩
    · intro ⟨upper, ⟨reply, rest, hupper, hrest⟩, himpl⟩
      rw [hupper] at himpl
      obtain ⟨first, last, hlower, hfirst, hlast⟩ := himpl
      exact ⟨first, reply, last, hlower, hfirst, (ih reply).mpr ⟨rest, hrest, hlast⟩⟩

/-- A layered program run with the handler of the layer below. -/
theorem run_implement {S : Type} {handle : (op : Op') → S → Reply' op × S}
    (p : Prog Op Reply α) (s : S) :
    (p.implement impl).run handle s = p.run (fun op s => (impl op).run handle s) s := by
  induction p generalizing s with
  | pure a => rfl
  | request op next ih =>
    rw [implement, run_bind, ih]
    rfl

section Sum

variable {Op₁ Op₂ : Type} {Reply₁ : Op₁ → Type} {Reply₂ : Op₂ → Type}

/-- The replies where the requests of two layers meet. -/
abbrev SumReply (Reply₁ : Op₁ → Type) (Reply₂ : Op₂ → Type) : Op₁ ⊕ Op₂ → Type :=
  Sum.elim Reply₁ Reply₂

/-- An event of the right layer. -/
def inrEvent (event : (op : Op₂) × Reply₂ op) : (op : Op₁ ⊕ Op₂) × SumReply Reply₁ Reply₂ op :=
  ⟨.inr event.1, event.2⟩

/-- What happens in the right layer. -/
def rightPart (history : History (Op₁ ⊕ Op₂) (SumReply Reply₁ Reply₂)) : History Op₂ Reply₂ :=
  history.filterMap fun
    | ⟨.inl _, _⟩ => none
    | ⟨.inr op, reply⟩ => some ⟨op, reply⟩

@[simp] theorem rightPart_append (first rest : History (Op₁ ⊕ Op₂) (SumReply Reply₁ Reply₂)) :
    rightPart (first ++ rest) = rightPart first ++ rightPart rest := List.filterMap_append

@[simp] theorem rightPart_map_inrEvent (inner : History Op₂ Reply₂) :
    rightPart (inner.map (@inrEvent Op₁ Op₂ Reply₁ Reply₂)) = inner := by
  induction inner with
  | nil => rfl
  | cons event inner ih => exact congrArg (event :: ·) ih

/-- The program with its requests among those of both layers. -/
def inr (p : Prog Op₂ Reply₂ α) : Prog (Op₁ ⊕ Op₂) (SumReply Reply₁ Reply₂) α :=
  p.implement fun op => @call (Op₁ ⊕ Op₂) (SumReply Reply₁ Reply₂) (.inr op)

private theorem implements_inr (inner : History Op₂ Reply₂)
    (history : History (Op₁ ⊕ Op₂) (SumReply Reply₁ Reply₂)) :
    Implements (fun op => @call (Op₁ ⊕ Op₂) (SumReply Reply₁ Reply₂) (.inr op)) inner history ↔
      history = inner.map inrEvent := by
  induction inner generalizing history with
  | nil => exact Iff.rfl
  | cons event inner ih =>
    constructor
    · intro ⟨first, last, hhistory, hfirst, hlast⟩
      rw [hhistory, runs_call.mp hfirst, (ih last).mp hlast]
      rfl
    · intro hhistory
      exact ⟨[inrEvent event], inner.map inrEvent, hhistory, runs_call.mpr rfl, (ih _).mpr rfl⟩

theorem runs_inr {p : Prog Op₂ Reply₂ α} {history : History (Op₁ ⊕ Op₂) (SumReply Reply₁ Reply₂)}
    {a : α} : (p.inr).Runs history a ↔ ∃ inner, p.Runs inner a ∧ history = inner.map inrEvent :=
  runs_implement.trans <|
    exists_congr fun inner => and_congr_right fun _ => implements_inr inner history

end Sum

end Prog

end JsonRpcRelay.Framework

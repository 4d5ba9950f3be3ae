import Mathlib.Logic.Basic

/-!
# Programs over atomic requests

A program issues requests to its environment and continues with the replies.  Between two
requests other programs may run: a request is what happens in one atomic step.  The same
program is run alone by `Prog.run` and interleaved with others by the rules of
`Interleaving`.
-/

namespace JsonRpcRelay.Framework

inductive Prog (Op : Type) (Reply : Op → Type) (α : Type) : Type where
  | pure (a : α)
  | request (op : Op) (next : Reply op → Prog Op Reply α)

namespace Prog

variable {Op : Type} {Reply : Op → Type} {α β γ S : Type}

protected def bind : Prog Op Reply α → (α → Prog Op Reply β) → Prog Op Reply β
  | .pure a, f => f a
  | .request op next, f => .request op fun r => (next r).bind f

instance : Monad (Prog Op Reply) where
  pure := .pure
  bind := Prog.bind

/-- Issue one request and return its reply. -/
def call (op : Op) : Prog Op Reply (Reply op) := .request op .pure

@[simp] theorem pure_eq (a : α) : (Prog.pure a : Prog Op Reply α) = Pure.pure a := rfl

private theorem id_map' (p : Prog Op Reply α) : id <$> p = p := by
  induction p with
  | pure a => rfl
  | request op next ih => exact congrArg (Prog.request op) (funext ih)

private theorem bind_assoc' (p : Prog Op Reply α) (f : α → Prog Op Reply β)
    (g : β → Prog Op Reply γ) : p >>= f >>= g = p >>= fun a => f a >>= g := by
  induction p with
  | pure a => rfl
  | request op next ih => exact congrArg (Prog.request op) (funext ih)

instance : LawfulMonad (Prog Op Reply) :=
  LawfulMonad.mk' _ id_map' (fun _ _ => rfl) bind_assoc'

/-- The result of a program that has ended. -/
def result : Prog Op Reply α → Option α
  | .pure a => some a
  | .request _ _ => none

theorem eq_pure_of_result {p : Prog Op Reply α} {a : α} (h : p.result = some a) :
    p = Pure.pure a := by
  cases p with
  | pure b => exact congrArg Prog.pure (Option.some.inj h)
  | request op next => cases h

/-- Run a program alone: the handler answers each request and updates the state. -/
def run (handle : (op : Op) → S → Reply op × S) : Prog Op Reply α → S → α × S
  | .pure a, s => (a, s)
  | .request op next, s => (next (handle op s).1).run handle (handle op s).2

variable {handle : (op : Op) → S → Reply op × S}

@[simp] theorem run_bind (p : Prog Op Reply α) (f : α → Prog Op Reply β) (s : S) :
    (p >>= f).run handle s = (f (p.run handle s).1).run handle (p.run handle s).2 := by
  induction p generalizing s with
  | pure a => rfl
  | request op next ih => exact ih _ _

end Prog

end JsonRpcRelay.Framework

import Mathlib.Data.List.Basic

/-!
# Mutexes that serve in order

The ones that hold or await a mutex stand in line: the first one holds it.  So a mutex that
nobody holds has no waiters, and a release hands it to the next one in line.
-/

namespace JsonRpcRelay.Framework

structure Mutex (σ : Type) where
  line : List σ
  deriving DecidableEq

namespace Mutex

variable {σ : Type}

def new : Mutex σ := ⟨[]⟩

def owner (m : Mutex σ) : Option σ := m.line.head?

def acquire (m : Mutex σ) (s : σ) : Mutex σ := ⟨m.line ++ [s]⟩

/-- Without an effect on a mutex that nobody holds. -/
def release (m : Mutex σ) : Mutex σ := ⟨m.line.tail⟩

@[simp] theorem new_line : (new : Mutex σ).line = [] := rfl

@[simp] theorem acquire_line (m : Mutex σ) (s : σ) : (m.acquire s).line = m.line ++ [s] := rfl

@[simp] theorem release_line (m : Mutex σ) : m.release.line = m.line.tail := rfl

theorem line_of_owner {m : Mutex σ} {s : σ} (h : m.owner = some s) :
    m.line = s :: m.release.line := by
  obtain ⟨rest, hline⟩ := List.head?_eq_some_iff.mp h
  rw [release_line, hline, List.tail_cons]

/-- Whoever holds the mutex keeps it when others get in line. -/
theorem owner_acquire {m : Mutex σ} {s : σ} (h : m.owner = some s) (s' : σ) :
    (m.acquire s').owner = some s := by
  rw [owner, acquire_line, line_of_owner h]
  rfl

end Mutex

end JsonRpcRelay.Framework

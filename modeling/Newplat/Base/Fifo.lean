import Mathlib

/-! A first-in first-out store that remembers what became of each item it served. Arrivals
are not stored: they are the served items followed by the waiting ones, so none can be lost. -/
namespace Newplat.Base

structure Fifo (α β : Type) where
  waiting : List α
  served : List (α × β)

namespace Fifo

variable {α β : Type}

def empty : Fifo α β := ⟨[], []⟩

def gone (f : Fifo α β) : List α := f.served.map Prod.fst

def arrivals (f : Fifo α β) : List α := f.gone ++ f.waiting

def arrive (f : Fifo α β) (a : α) : Fifo α β := { f with waiting := f.waiting ++ [a] }

def serve (f : Fifo α β) (b : β) : Fifo α β :=
  match f.waiting with
  | [] => f
  | a :: rest => ⟨rest, f.served ++ [(a, b)]⟩

theorem arrivals_arrive (f : Fifo α β) (a : α) : (f.arrive a).arrivals = f.arrivals ++ [a] :=
  (List.append_assoc f.gone f.waiting [a]).symm

/-- Serving neither loses nor adds nor reorders an arrival. -/
theorem arrivals_serve (f : Fifo α β) (b : β) : (f.serve b).arrivals = f.arrivals := by
  obtain ⟨waiting, served⟩ := f
  cases waiting with
  | nil => rfl
  | cons a rest => simp [serve, arrivals, gone]

end Fifo

end Newplat.Base

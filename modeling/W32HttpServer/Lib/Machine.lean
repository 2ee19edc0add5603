/-
Machines that answer each of their inputs, and when one refines another.

`run` feeds a machine its inputs and collects the answers. A relation between the states
of two machines that is kept by each pair of steps on one input, with equal answers, makes
the two indistinguishable from outside over inputs of any length (`run_refines`).

The machine most often refined is the bounded FIFO queue, so it is here as well: a list
and the two operations on it, of which `put` is refused when the list has reached its
capacity.
-/
import Mathlib.Data.List.Basic
import Mathlib.Tactic.Common

set_option autoImplicit false

namespace W32HttpServer.Lib.Machine

universe u v w
variable {S T : Type u} {I : Type v} {O : Type w}

/-! ## Runs -/

/-- The answers to a list of inputs, and the state behind them. -/
def run (step : S → I → O × S) : S → List I → List O × S
  | s, [] => ([], s)
  | s, i :: is => ((step s i).1 :: (run step (step s i).2 is).1, (run step (step s i).2 is).2)

/-- **The refinement rule.** -/
theorem run_refines {step : S → I → O × S} {step' : T → I → O × T} {R : S → T → Prop}
    (hstep : ∀ s t i, R s t →
      (step s i).1 = (step' t i).1 ∧ R (step s i).2 (step' t i).2) :
    ∀ (is : List I) (s : S) (t : T), R s t →
      (run step s is).1 = (run step' t is).1 ∧ R (run step s is).2 (run step' t is).2 := by
  intro is
  induction is with
  | nil => exact fun s t h => ⟨rfl, h⟩
  | cons i is ih =>
      intro s t h
      obtain ⟨hanswer, hnext⟩ := hstep s t i h
      obtain ⟨hanswers, hlast⟩ := ih _ _ hnext
      refine ⟨?_, hlast⟩
      rw [run, run, hanswer, hanswers]

/-! ## The bounded queue -/

/-- What is asked of a queue. -/
inductive request_t (α : Type v)
  | put (x : α)
  | take
  deriving DecidableEq

/-- And what it says to that. -/
inductive answer_t (α : Type v)
  | accepted
  | refused
  | given (x : α)
  | empty
  deriving DecidableEq

variable {α : Type v}

/-- A FIFO queue of at most `capacity` items, first item first. -/
def fifo (capacity : ℕ) (q : List α) : request_t α → answer_t α × List α
  | .put x => if q.length < capacity then (.accepted, q ++ [x]) else (.refused, q)
  | .take =>
      match q with
      | [] => (.empty, [])
      | x :: q => (.given x, q)

/-- A queue with room takes the item at its end. -/
theorem fifo_put_of_lt {capacity : ℕ} {q : List α} (h : q.length < capacity) (x : α) :
    fifo capacity q (.put x) = (.accepted, q ++ [x]) :=
  if_pos h

/-- A full queue refuses it and stays as it is. -/
theorem fifo_put_of_full {capacity : ℕ} {q : List α} (h : capacity ≤ q.length) (x : α) :
    fifo capacity q (.put x) = (.refused, q) :=
  if_neg (Nat.not_lt.mpr h)

end W32HttpServer.Lib.Machine

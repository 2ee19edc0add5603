/-
Singly linked lists in an array of cells.

The cells are indexed by any type, `next` is the link of each, and `Chain next p l` says
that from the pointer `p` the links lead through exactly the cells `l`, in order, to the
end. Writes outside a chain leave it alone, and a fresh cell can be hung behind its last one.
-/
import Mathlib.Data.List.Basic
import Mathlib.Logic.Function.Basic
import Mathlib.Tactic.Common

set_option autoImplicit false

namespace W32HttpServer.Lib.LinkedList

universe u
variable {ι : Type u} {next : ι → Option ι}

inductive Chain (next : ι → Option ι) : Option ι → List ι → Prop
  | nil : Chain next none []
  | cons {i : ι} {l : List ι} (h : Chain next (next i) l) : Chain next (some i) (i :: l)

namespace Chain

theorem head_eq {p : Option ι} {l : List ι} (h : Chain next p l) : p = l.head? := by
  cases h with
  | nil => rfl
  | cons h => rfl

/-- The links behind a cell of the chain lead through the cells behind it. -/
theorem tail {i : ι} {l : List ι} (h : Chain next (some i) (i :: l)) : Chain next (next i) l := by
  cases h with
  | cons h => exact h

variable [DecidableEq ι]

/-- A write outside the chain. -/
theorem update {p : Option ι} {l : List ι} (h : Chain next p l) {j : ι} (hj : j ∉ l)
    (v : Option ι) : Chain (Function.update next j v) p l := by
  induction h with
  | nil => exact .nil
  | @cons i l h ih =>
      rw [List.mem_cons, not_or] at hj
      apply Chain.cons
      rw [Function.update_of_ne (Ne.symm hj.1)]
      exact ih hj.2

/-- A fresh cell behind the last one. -/
theorem snoc {p : Option ι} {l : List ι} (h : Chain next p l) : ∀ {t : ι}, l.getLast? = some t →
    l.Nodup → ∀ {i : ι}, i ∉ l → next i = none →
      Chain (Function.update next t (some i)) p (l ++ [i]) := by
  induction h with
  | nil =>
      intro t ht
      exact absurd ht (by simp)
  | @cons j l h ih =>
      intro t ht hnodup i hi hend
      rw [List.nodup_cons] at hnodup
      rw [List.mem_cons, not_or] at hi
      rw [List.cons_append]
      apply Chain.cons
      cases l with
      | nil =>
          -- the last cell is this one: its `next` is the one that changes
          have hjt : j = t := by simpa using ht
          subst hjt
          rw [Function.update_self]
          apply Chain.cons
          rw [Function.update_of_ne hi.1, hend]
          exact .nil
      | cons k l =>
          have ht' : (k :: l).getLast? = some t := by
            rw [← ht, List.getLast?_cons_cons]
          have htj : j ≠ t := by
            rintro rfl
            exact hnodup.1 (List.mem_of_getLast? ht')
          rw [Function.update_of_ne htj]
          exact ih ht' hnodup.2 hi.2 hend

end Chain

end W32HttpServer.Lib.LinkedList

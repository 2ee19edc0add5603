/-
Pull generators: a state that hands out one chunk for each call, and says it is finished
by handing out an empty one.

`Drains next s chunks s'` is the loop of a consumer: call until the first empty chunk,
collecting what came before it. The proof rule for such a loop is a debt. Say what text
a state still owes (`owes s r`); let each call pay a part of it in front and leave the
rest owed; let an empty chunk come only when nothing was owed. Then the loop ends, and
the chunks it collected are the whole debt, in order (`drains_of_owes`). No measure has
to be supplied, since every non-empty chunk shortens what is owed. After any number of calls,
the empty ones included, what is still owed is what the chunks so far have left of it
(`calls_of_owes`).
-/
import Mathlib.Data.List.Basic
import Mathlib.Tactic.Common

set_option autoImplicit false

namespace W32HttpServer.Lib.Generator

universe u v
variable {S : Type u} {α : Type v}

/-- The consumer's loop: pull chunks up to the first empty one. -/
inductive Drains (next : S → List α × S) : S → List (List α) → S → Prop
  | done {s : S} (h : (next s).1 = []) : Drains next s [] (next s).2
  | chunk {s s' : S} {cs : List (List α)} (h : (next s).1 ≠ [])
      (rest : Drains next (next s).2 cs s') : Drains next s ((next s).1 :: cs) s'

/-- Some calls, whatever they hand out. -/
inductive Calls (next : S → List α × S) : S → List (List α) → S → Prop
  | nil {s : S} : Calls next s [] s
  | cons {s s' : S} {cs : List (List α)} (rest : Calls next (next s).2 cs s') :
      Calls next s ((next s).1 :: cs) s'

/-- **The debt rule.** `P` is whatever else one call guarantees of its chunk. -/
theorem drains_of_owes (next : S → List α × S) (owes : S → List α → Prop) (P : List α → Prop)
    (pays : ∀ s r, owes s r → ∃ r', r = (next s).1 ++ r' ∧ owes (next s).2 r'
      ∧ ((next s).1 = [] → r = []) ∧ P (next s).1) :
    ∀ s r, owes s r → ∃ cs s', Drains next s cs s' ∧ cs.flatten = r
      ∧ ∀ c ∈ cs, c ≠ [] ∧ P c := by
  intro s r h
  induction hn : r.length using Nat.strongRecOn generalizing s r with
  | ind n ih =>
      obtain ⟨r', hr, hr', hempty, hP⟩ := pays s r h
      by_cases hc : (next s).1 = []
      · exact ⟨[], (next s).2, .done hc, (hempty hc).symm, by simp⟩
      · have hpos : 0 < (next s).1.length := List.length_pos_iff.mpr hc
        have hlen : r.length = (next s).1.length + r'.length := by
          rw [hr, List.length_append]
        obtain ⟨cs, s', hd, hflat, hcs⟩ := ih r'.length (by omega) (next s).2 r' hr' rfl
        refine ⟨(next s).1 :: cs, s', .chunk hc hd, ?_, ?_⟩
        · rw [List.flatten_cons, hflat, hr]
        · intro c hmem
          rcases List.mem_cons.mp hmem with rfl | hmem
          · exact ⟨hc, hP⟩
          · exact hcs c hmem

/-- The debt after any number of calls. -/
theorem calls_of_owes {next : S → List α × S} {owes : S → List α → Prop} {P : List α → Prop}
    (pays : ∀ s r, owes s r → ∃ r', r = (next s).1 ++ r' ∧ owes (next s).2 r'
      ∧ ((next s).1 = [] → r = []) ∧ P (next s).1) {s s' : S} {cs : List (List α)}
    (h : Calls next s cs s') :
    ∀ r, owes s r → ∃ r', r = cs.flatten ++ r' ∧ owes s' r' ∧ ∀ c ∈ cs, P c := by
  induction h with
  | nil => exact fun r hr => ⟨r, rfl, hr, fun c hc => absurd hc (by simp)⟩
  | @cons s s' cs rest ih =>
      intro r hr
      obtain ⟨r1, hr1, howes, -, hP⟩ := pays s r hr
      obtain ⟨r2, hr2, howes', hall⟩ := ih r1 howes
      refine ⟨r2, ?_, howes', ?_⟩
      · rw [hr1, hr2, List.flatten_cons, List.append_assoc]
      · rw [List.forall_mem_cons]
        exact ⟨hP, hall⟩

end W32HttpServer.Lib.Generator

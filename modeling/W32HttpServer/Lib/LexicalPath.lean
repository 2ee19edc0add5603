/-
Lexical path normalisation, over any alphabet.

A path is split at its separators; empty components and `.` are dropped, and each `..`
removes the component kept before it (at the top it removes nothing). A path joined to
the right of a separator is normalised on top of what stands left of it
(`normalise_append_cons`), and if it has no `..` component, what stands left survives
(`normalise_root_isPrefix`).
-/
import Mathlib.Data.List.Infix
import Mathlib.Tactic.Common

set_option autoImplicit false

namespace W32HttpServer.Lib.LexicalPath

universe u
variable {α : Type u} [DecidableEq α]

/-- One component on top of the components kept so far. -/
def push (dot : α) (kept : List (List α)) (c : List α) : List (List α) :=
  if c = [] ∨ c = [dot] then kept
  else if c = [dot, dot] then kept.dropLast
  else kept ++ [c]

/-- The components a path names after lexical normalisation. -/
def normalise (sep : α → Bool) (dot : α) (path : List α) : List (List α) :=
  (path.splitOnP sep).foldl (push dot) []

variable {sep : α → Bool} {dot : α}

/-- Joining at a separator normalises the right part on top of the left one. -/
theorem normalise_append_cons (x y : List α) {s : α} (hs : sep s = true) :
    normalise sep dot (x ++ s :: y)
      = (y.splitOnP sep).foldl (push dot) (normalise sep dot x) := by
  rw [normalise, List.splitOnP_append_cons x y hs, List.foldl_append, normalise]

/-- Components other than `..` only ever add to what is kept. -/
theorem foldl_push_keeps {cs : List (List α)} (hcs : [dot, dot] ∉ cs) :
    ∀ kept : List (List α), kept <+: cs.foldl (push dot) kept := by
  induction cs with
  | nil => exact fun kept => List.prefix_rfl
  | cons c cs ih =>
      intro kept
      have hc : c ≠ [dot, dot] := fun h => hcs (h ▸ List.mem_cons_self)
      have hrest : [dot, dot] ∉ cs := fun h => hcs (List.mem_cons_of_mem _ h)
      have hkept : kept <+: push dot kept c := by
        by_cases hskip : c = [] ∨ c = [dot]
        · rw [push, if_pos hskip]
        · rw [push, if_neg hskip, if_neg hc]
          exact List.prefix_append kept [c]
      exact hkept.trans (ih hrest (push dot kept c))

omit [DecidableEq α] in
/-- A component is a stretch of the path. The induction peels the path at its first
separator, so it runs on the length. -/
theorem infix_of_mem_splitOnP {c : List α} (path : List α) (h : c ∈ path.splitOnP sep) :
    c <:+: path := by
  induction hn : path.length using Nat.strongRecOn generalizing path with
  | ind n ih =>
      by_cases hsep : ∃ s ∈ path, sep s = true
      · obtain ⟨s, hs, hp⟩ := hsep
        obtain ⟨x, y, rfl⟩ := List.append_of_mem hs
        simp only [List.length_append, List.length_cons] at hn
        rw [List.splitOnP_append_cons x y hp] at h
        rcases List.mem_append.mp h with h | h
        · have hx := ih x.length (by omega) x h rfl
          exact hx.trans (List.prefix_append x (s :: y)).isInfix
        · have hy := ih y.length (by omega) y h rfl
          have hsuf : y <:+ x ++ s :: y := ⟨x ++ [s], by simp⟩
          exact hy.trans hsuf.isInfix
      · have hnone : ∀ s ∈ path, sep s = false := by
          intro s hs
          rcases hp : sep s with _ | _
          · rfl
          · exact absurd ⟨s, hs, hp⟩ hsep
        rw [List.splitOnP_eq_singleton hnone, List.mem_singleton] at h
        rw [h]

/-- **Containment.** A path without two adjacent dots, joined to a root at a separator,
stays under the root. -/
theorem normalise_root_isPrefix (root : List α) {path : List α} {s : α} (hs : sep s = true)
    (hdots : ¬ [dot, dot] <:+: path) :
    normalise sep dot root <+: normalise sep dot (root ++ s :: path) := by
  rw [normalise_append_cons root path hs]
  exact foldl_push_keeps (fun h => hdots (infix_of_mem_splitOnP path h)) _

end W32HttpServer.Lib.LexicalPath

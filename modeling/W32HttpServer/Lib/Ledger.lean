/-
Ledgers of things that are opened and closed.

A ledger is a list of entries, and `replay` goes through it with the multiset of things
held open, giving up at an entry that closes what is not open. `Moves held l held' l'` says
that a piece of code took the ledger from `l` to `l'` and what is held from `held` to
`held'`. It composes like a triple, so a function is accounted for by one such statement
and a run by chaining them. Over a whole ledger that starts and ends with nothing open it gives
`Balanced`: each thing is closed as often as it was opened, and never before.

A thing may be opened again under the name of one that has been closed.
-/
import Mathlib.Algebra.Order.Group.Multiset

set_option autoImplicit false

namespace W32HttpServer.Lib.Ledger

universe u
variable {H : Type u} [DecidableEq H]

/-- A line of the ledger. -/
inductive Entry (H : Type u)
  | opened (h : H)
  | closed (h : H)
  deriving DecidableEq

/-- What is open behind the entries; `none` if one of them closes what is not open. -/
def replay : Multiset H → List (Entry H) → Option (Multiset H)
  | held, [] => some held
  | held, .opened h :: l => replay (h ::ₘ held) l
  | held, .closed h :: l => if h ∈ held then replay (held.erase h) l else none

/-- Nothing is closed before it was opened, and in the end everything has been closed. -/
structure Balanced (l : List (Entry H)) : Prop where
  in_order : ∀ p, p <+: l → ∀ h, p.count (.closed h) ≤ p.count (.opened h)
  all_closed : ∀ h, l.count (.closed h) = l.count (.opened h)

/-- A ledger is replayed one part behind the other. -/
theorem replay_append (l l' : List (Entry H)) : ∀ held : Multiset H,
    replay held (l ++ l') = (replay held l).bind fun held' => replay held' l' := by
  induction l with
  | nil => exact fun held => rfl
  | cons e l ih =>
      intro held
      cases e with
      | opened h => exact ih (h ::ₘ held)
      | closed h =>
          rw [List.cons_append, replay, replay]
          split_ifs with hmem
          · exact ih (held.erase h)
          · rfl

/-- What is held, and what the ledger says was opened and closed. -/
theorem replay_count (l : List (Entry H)) : ∀ {held held' : Multiset H},
    replay held l = some held' → ∀ h,
      held.count h + l.count (.opened h) = held'.count h + l.count (.closed h) := by
  induction l with
  | nil =>
      intro held held' hreplay h
      obtain rfl := Option.some.inj hreplay
      rfl
  | cons e l ih =>
      intro held held' hreplay h
      cases e with
      | opened g =>
          -- both sides count the handle that is opened, or neither does
          have hcount := ih hreplay h
          rw [Multiset.count_cons] at hcount
          rw [List.count_cons, List.count_cons]
          by_cases hgh : h = g
          · subst hgh
            simp only [if_true, beq_self_eq_true, reduceCtorEq, beq_iff_eq, if_false] at hcount ⊢
            omega
          · have hne : ¬ g = h := fun hg => hgh hg.symm
            simp only [hgh, hne, if_false, beq_iff_eq, Entry.opened.injEq,
              reduceCtorEq] at hcount ⊢
            omega
      | closed g =>
          rw [replay] at hreplay
          split_ifs at hreplay with hmem
          have hcount := ih hreplay h
          rw [List.count_cons, List.count_cons]
          by_cases hgh : h = g
          · subst hgh
            -- it was held, so nothing is lost in the subtraction
            rw [Multiset.count_erase_self] at hcount
            have hpos := Multiset.count_pos.mpr hmem
            simp only [if_true, beq_self_eq_true, reduceCtorEq, beq_iff_eq, if_false]
            omega
          · have hne : ¬ g = h := fun hg => hgh hg.symm
            rw [Multiset.count_erase_of_ne hgh] at hcount
            simp only [hne, if_false, beq_iff_eq, Entry.closed.injEq, reduceCtorEq]
            omega

/-- **A ledger that ends with nothing open is balanced.** Replaying does not close what is not open,
and counting says the rest. -/
theorem balanced_of_replay {l : List (Entry H)} (h : replay 0 l = some 0) : Balanced l where
  in_order := by
    rintro p ⟨l', rfl⟩ g
    rw [replay_append, Option.bind_eq_some_iff] at h
    obtain ⟨held, hp, -⟩ := h
    have hcount := replay_count p hp g
    rw [Multiset.count_zero] at hcount
    omega
  all_closed := by
    intro g
    have hcount := replay_count l h g
    rw [Multiset.count_zero] at hcount
    omega

/-! ## Pieces of code -/

/-- From `l` to `l'` the ledger gains entries that take what is held from `held` to
`held'`. -/
def Moves (held : Multiset H) (l : List (Entry H)) (held' : Multiset H) (l' : List (Entry H)) :
    Prop :=
  ∃ d, l' = l ++ d ∧ replay held d = some held'

/-- No line. -/
theorem Moves.refl (held : Multiset H) (l : List (Entry H)) : Moves held l held l :=
  ⟨[], (List.append_nil l).symm, rfl⟩

/-- One piece of a ledger behind the other. -/
theorem Moves.trans {held₁ held₂ held₃ : Multiset H} {l₁ l₂ l₃ : List (Entry H)}
    (h : Moves held₁ l₁ held₂ l₂) (h' : Moves held₂ l₂ held₃ l₃) : Moves held₁ l₁ held₃ l₃ := by
  obtain ⟨d, rfl, hd⟩ := h
  obtain ⟨d', rfl, hd'⟩ := h'
  refine ⟨d ++ d', (List.append_assoc _ _ _), ?_⟩
  rw [replay_append, hd, Option.bind_some, hd']

/-- A line that opens. -/
theorem Moves.opened (held : Multiset H) (l : List (Entry H)) (h : H) :
    Moves held l (h ::ₘ held) (l ++ [.opened h]) :=
  ⟨[.opened h], rfl, rfl⟩

/-- A line that closes what is open. -/
theorem Moves.closed {held : Multiset H} {h : H} (hmem : h ∈ held) (l : List (Entry H)) :
    Moves held l (held.erase h) (l ++ [.closed h]) :=
  ⟨[.closed h], rfl, by rw [replay, if_pos hmem, replay]⟩

/-- A whole ledger balances when nothing is held at its end. -/
theorem Moves.balanced_iff {held : Multiset H} {l : List (Entry H)} (h : Moves 0 [] held l) :
    Balanced l ↔ held = 0 := by
  obtain ⟨d, rfl, hd⟩ := h
  constructor
  · intro hbalanced
    rw [Multiset.eq_zero_iff_forall_notMem]
    intro g hmem
    have hcount := replay_count l hd g
    have hall := hbalanced.all_closed g
    have hpos := Multiset.count_pos.mpr hmem
    rw [Multiset.count_zero] at hcount
    omega
  · rintro rfl
    exact balanced_of_replay hd

end W32HttpServer.Lib.Ledger

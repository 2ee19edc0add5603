/-
Readers of a text that may break off.

A reader takes what it wants from the front of a list and gives back the rest. Two things are
said of one here. `Reads`: it turns a text into a value, whatever stands behind the text. `Local`:
it decides by what it takes, so more text behind does not change its mind. Both compose, so a
reader written in `do` notation has them by its parts.

`read_until` reads one item after another up to a closing text and nothing behind it. With a
local reader of items, which does not take the closing text for one, this is whole or nothing:
no text it accepts is the beginning of another (`read_until_whole`).
-/
import Mathlib.Data.List.TakeWhile

set_option autoImplicit false

namespace W32HttpServer.Lib.Reading

variable {α β γ : Type}

/-- A reader takes its value from the front of the input, or fails; what is behind stays. -/
abbrev Reader (α β : Type) := StateT (List α) Option β

/-- Takes the text `w`. -/
def eat [DecidableEq α] (w : List α) : Reader α Unit := fun s =>
  if w <+: s then some ((), s.drop w.length) else none

/-- Takes the text up to the first `c`, and the `c` behind it. -/
def read_to [DecidableEq α] (c : α) : Reader α (List α) := fun s =>
  if c ∈ s then some (s.takeWhile (· ≠ c), (s.dropWhile (· ≠ c)).tail) else none

/-- Takes nothing, and goes on only if `p` holds. -/
def expect (p : Prop) [Decidable p] : Reader α Unit := fun s => if p then some ((), s) else none

theorem bind_apply (r : Reader α β) (f : β → Reader α γ) (s : List α) :
    (r >>= f) s = (r s).bind fun x => f x.1 x.2 := rfl

theorem pure_apply (v : β) (s : List α) : (pure v : Reader α β) s = some (v, s) := rfl

/-! ## Texts that are read -/

/-- The reader turns the text `w` into `v`. -/
def Reads (r : Reader α β) (w : List α) (v : β) : Prop := ∀ s, r (w ++ s) = some (v, s)

/-- What is read one behind the other is written one behind the other. -/
theorem Reads.bind {r : Reader α β} {f : β → Reader α γ} {w w' : List α} {v : β} {v' : γ}
    (h : Reads r w v) (h' : Reads (f v) w' v') : Reads (r >>= f) (w ++ w') v' := by
  intro s
  rw [bind_apply, List.append_assoc, h, Option.bind_some]
  exact h' s

theorem reads_pure (v : β) : Reads (pure v : Reader α β) [] v := by
  intro s
  rw [pure_apply, List.nil_append]

theorem reads_expect {p : Prop} [Decidable p] (h : p) : Reads (expect p : Reader α Unit) [] () := by
  intro s
  rw [expect, if_pos h, List.nil_append]

section

variable [DecidableEq α]

/-- The text itself is eaten. -/
theorem reads_eat (w : List α) : Reads (eat w) w () := by
  intro s
  rw [eat, if_pos (List.prefix_append w s), List.drop_left]

/-- Everything up to the delimiter, which must not be in it. -/
theorem reads_read_to {c : α} {w : List α} (h : c ∉ w) : Reads (read_to c) (w ++ [c]) w := by
  intro s
  have hall : ∀ x ∈ w, decide (x ≠ c) = true := by
    intro x hx
    simpa using fun hxc : x = c => h (hxc ▸ hx)
  rw [List.append_assoc, read_to, if_pos (by simp), List.takeWhile_append_of_pos hall,
    List.dropWhile_append_of_pos hall]
  simp

end

/-! ## Local readers -/

/-- What is read stays read when more text follows. -/
def Local (r : Reader α β) : Prop :=
  ∀ s v t, r s = some (v, t) → ∀ u, r (s ++ u) = some (v, t ++ u)

/-- A reader is local if its parts are, whatever the first part returns. -/
theorem Local.bind {r : Reader α β} {f : β → Reader α γ} (h : Local r) (hf : ∀ v, Local (f v)) :
    Local (r >>= f) := by
  intro s v t hs u
  rw [bind_apply, Option.bind_eq_some_iff] at hs
  obtain ⟨⟨x, s'⟩, hx, hs⟩ := hs
  rw [bind_apply, h s x s' hx u, Option.bind_some]
  exact hf x s' v t hs u

theorem local_pure (v : β) : Local (pure v : Reader α β) := by
  intro s x t hs u
  rw [pure_apply, Option.some.injEq, Prod.mk.injEq] at hs
  obtain ⟨rfl, rfl⟩ := hs
  apply pure_apply

theorem local_expect (p : Prop) [Decidable p] : Local (expect p : Reader α Unit) := by
  intro s x t hs u
  unfold expect at hs ⊢
  split_ifs at hs ⊢
  rw [Option.some.injEq, Prod.mk.injEq] at hs
  rw [hs.2]

/-- And if both of its branches are. -/
theorem Local.ite {p : Prop} [Decidable p] {r r' : Reader α β} (h : Local r) (h' : Local r') :
    Local (if p then r else r') := by
  split_ifs
  · exact h
  · exact h'

section

variable [DecidableEq α]

/-- A text that is eaten has all been there. -/
theorem local_eat (w : List α) : Local (eat w) := by
  intro s v t hs u
  unfold eat at hs
  split_ifs at hs with hw
  obtain ⟨s', rfl⟩ := hw
  rw [List.drop_left, Option.some.injEq, Prod.mk.injEq] at hs
  rw [← hs.2, List.append_assoc]
  exact reads_eat w (s' ++ u)

/-- A text with a `c` in it is cut at the first one. -/
theorem cut_at {c : α} {s : List α} (h : c ∈ s) :
    s = s.takeWhile (· ≠ c) ++ [c] ++ (s.dropWhile (· ≠ c)).tail ∧ c ∉ s.takeWhile (· ≠ c) := by
  have hno : c ∉ s.takeWhile (· ≠ c) := fun hmem => by
    simpa using List.mem_takeWhile_imp hmem
  refine ⟨?_, hno⟩
  have hne : s.dropWhile (· ≠ c) ≠ [] := by
    intro hnil
    rw [List.dropWhile_eq_nil_iff] at hnil
    simpa using hnil c h
  have hhead : (s.dropWhile (· ≠ c)).head hne = c := by
    simpa using List.head_dropWhile_not (· ≠ c) hne
  calc s = s.takeWhile (· ≠ c) ++ s.dropWhile (· ≠ c) := List.takeWhile_append_dropWhile.symm
    _ = s.takeWhile (· ≠ c)
        ++ ((s.dropWhile (· ≠ c)).head hne :: (s.dropWhile (· ≠ c)).tail) := by
          rw [List.cons_head_tail hne]
    _ = _ := by rw [hhead, List.append_assoc, List.singleton_append]

/-- The delimiter that was found is found again, and no other in front of it. -/
theorem local_read_to (c : α) : Local (read_to c) := by
  intro s v t hs u
  unfold read_to at hs
  split_ifs at hs with hmem
  obtain ⟨hcut, hno⟩ := cut_at hmem
  rw [Option.some.injEq, Prod.mk.injEq] at hs
  obtain ⟨rfl, rfl⟩ := hs
  have hread := reads_read_to hno ((s.dropWhile (· ≠ c)).tail ++ u)
  rwa [← List.append_assoc, ← hcut] at hread

end

/-! ## Item after item -/

section

variable [DecidableEq α] (stop : List α) (r : Reader α β)

/-- Items up to the text `stop`, which has to be all that is left behind them. -/
def read_until (s : List α) : Option (List β) :=
  if s = stop then some []
  else
    match r s with
    | none => none
    | some (x, t) => if t.length < s.length then (read_until t).map (x :: ·) else none
termination_by s.length

variable {stop r}

/-- At the closing text there is nothing more to read. -/
theorem read_until_stop : read_until stop r stop = some [] := by
  rw [read_until, if_pos rfl]

/-- An item is read, and then the rest, which is shorter. -/
theorem read_until_item {s t : List α} {x : β} (hs : s ≠ stop) (hx : r s = some (x, t))
    (hlt : t.length < s.length) : read_until stop r s = (read_until stop r t).map (x :: ·) := by
  rw [read_until, if_neg hs, hx]
  exact if_pos hlt

/-- What has been accepted is the closing text, or an item with something accepted behind it. -/
theorem read_until_eq_some {s : List α} {xs : List β} (h : read_until stop r s = some xs) :
    (s = stop ∧ xs = []) ∨ ∃ x t ys, s ≠ stop ∧ r s = some (x, t) ∧ t.length < s.length
      ∧ read_until stop r t = some ys ∧ xs = x :: ys := by
  rw [read_until] at h
  by_cases hs : s = stop
  · rw [if_pos hs, Option.some.injEq] at h
    exact Or.inl ⟨hs, h.symm⟩
  · rw [if_neg hs] at h
    rcases hr : r s with _ | ⟨x, t⟩
    · rw [hr] at h
      exact absurd h (by simp)
    · rw [hr] at h
      dsimp only at h
      split_ifs at h with hlt
      rw [Option.map_eq_some_iff] at h
      obtain ⟨ys, hys, rfl⟩ := h
      exact Or.inr ⟨x, t, ys, hs, rfl, hlt, hys, rfl⟩

/-- **Whole or nothing**: no accepted text goes on to be another one. -/
theorem read_until_whole (hlocal : Local r) (hstop : ∀ u, r (stop ++ u) = none) {u : List α}
    {n : ℕ} : ∀ {s : List α} {xs ys : List β}, s.length = n → read_until stop r s = some xs →
      read_until stop r (s ++ u) = some ys → u = [] ∧ ys = xs := by
  induction n using Nat.strongRecOn with
  | ind n ih =>
      intro s xs ys hn hxs hys
      rcases read_until_eq_some hxs with ⟨rfl, rfl⟩ | ⟨x, t, xs, hne, hx, hlt, hrest, rfl⟩
      · -- the closing text is no item, also with something behind it
        rcases read_until_eq_some hys with ⟨hu, rfl⟩ | ⟨x, t, ys, -, hx, -⟩
        · exact ⟨List.append_right_eq_self.mp hu, rfl⟩
        · rw [hstop u] at hx
          exact absurd hx (by simp)
      · have hmore := hlocal s x t hx u
        rcases read_until_eq_some hys with ⟨hu, rfl⟩ | ⟨x', t', ys, -, hx', -, hys', rfl⟩
        · have hnone := hstop []
          rw [List.append_nil, ← hu, hmore] at hnone
          exact absurd hnone (by simp)
        · rw [hmore, Option.some.injEq, Prod.mk.injEq] at hx'
          obtain ⟨rfl, rfl⟩ := hx'
          obtain ⟨hu, rfl⟩ := ih t.length (by omega) rfl hrest hys'
          exact ⟨hu, rfl⟩

/-- Printed items are read back. -/
theorem read_until_flatMap {γ : Type} {print : γ → List α} {value : γ → β}
    (hstop : r stop = none) : ∀ {xs : List γ},
    (∀ x ∈ xs, print x ≠ [] ∧ Reads r (print x) (value x)) →
    read_until stop r (xs.flatMap print ++ stop) = some (xs.map value) := by
  intro xs
  induction xs with
  | nil =>
      intro _
      rw [List.flatMap_nil, List.nil_append]
      exact read_until_stop
  | cons x xs ih =>
      intro hall
      obtain ⟨hpos, hx⟩ := hall x List.mem_cons_self
      have hread := hx (xs.flatMap print ++ stop)
      have hlt : (xs.flatMap print ++ stop).length
          < (print x ++ (xs.flatMap print ++ stop)).length := by
        have hlen := List.length_pos_iff.mpr hpos
        simp only [List.length_append]
        omega
      rw [List.flatMap_cons, List.append_assoc]
      have hne : print x ++ (xs.flatMap print ++ stop) ≠ stop := by
        intro heq
        rw [heq, hstop] at hread
        exact absurd hread (by simp)
      rw [read_until_item hne hread hlt,
        ih fun y hy => hall y (List.mem_cons_of_mem x hy), Option.map_some, List.map_cons]

end

end W32HttpServer.Lib.Reading

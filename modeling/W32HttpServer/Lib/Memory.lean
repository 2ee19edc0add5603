/-
Values in memory.

A memory gives a value for every address. `Holds` says which values stand in it from an address
on, `store` puts some there, and what stands apart from them stays. A text with a terminator
behind it can be read value by value (`Holds.read`).
-/
import Mathlib.Data.List.Basic
import Mathlib.Data.List.Infix
import Mathlib.Tactic.Common

set_option autoImplicit false

namespace W32HttpServer.Lib.Memory

universe u
variable {V : Type u}

/-- The values stand one behind the other from the address on. -/
def Holds (mem : ℕ → V) (addr : ℕ) (vs : List V) : Prop :=
  ∀ i v, vs[i]? = some v → mem (addr + i) = v

/-- The memory with the values written from `addr` on. -/
def store (mem : ℕ → V) (addr : ℕ) (vs : List V) : ℕ → V := fun a =>
  if a < addr then mem a else (vs[a - addr]?).getD (mem a)

/-- Two ranges of addresses, each with its length, have nothing in common. -/
def Apart (addr n addr' n' : ℕ) : Prop := addr + n ≤ addr' ∨ addr' + n' ≤ addr

instance (addr n addr' n' : ℕ) : Decidable (Apart addr n addr' n') :=
  inferInstanceAs (Decidable (_ ∨ _))

/-- What is apart from a block is apart from the beginning of it. -/
theorem Apart.of_le {addr n addr' n' m : ℕ} (h : Apart addr n addr' n') (hm : m ≤ n) :
    Apart addr m addr' n' :=
  h.imp_left fun hbelow => (Nat.add_le_add_left hm addr).trans hbelow

variable {mem mem' : ℕ → V} {addr : ℕ} {vs ws : List V}

/-- Nothing is held everywhere. -/
theorem holds_nil : Holds mem addr [] := fun i v h => by simp at h

/-- A cell of the block has the value written there. -/
theorem store_inside {i : ℕ} {v : V} (h : vs[i]? = some v) : store mem addr vs (addr + i) = v := by
  have hle : ¬ addr + i < addr := by omega
  rw [store, if_neg hle, Nat.add_sub_cancel_left, h, Option.getD_some]

/-- And a cell outside of it is what it was. -/
theorem store_outside {a : ℕ} (h : a < addr ∨ addr + vs.length ≤ a) :
    store mem addr vs a = mem a := by
  rw [store]
  split_ifs with hlt
  · rfl
  · have hnone : vs[a - addr]? = none := List.getElem?_eq_none (by omega)
    rw [hnone, Option.getD_none]

/-- What was written is held. -/
theorem holds_store : Holds (store mem addr vs) addr vs := fun _ _ h => store_inside h

/-- Memory that is the same where the values stand. -/
theorem Holds.congr (h : Holds mem addr vs)
    (hsame : ∀ i, i < vs.length → mem' (addr + i) = mem (addr + i)) : Holds mem' addr vs := by
  intro i v hv
  obtain ⟨hi, -⟩ := List.getElem?_eq_some_iff.mp hv
  rw [hsame i hi]
  exact h i v hv

/-- What stands apart from a store stays. -/
theorem Holds.store_apart {addr' : ℕ} (h : Holds mem addr vs)
    (hapart : Apart addr vs.length addr' ws.length) : Holds (store mem addr' ws) addr vs := by
  refine h.congr fun i hi => store_outside ?_
  rcases hapart with hbelow | habove
  · exact Or.inl (by omega)
  · exact Or.inr (by omega)

/-- And so is the beginning of it. -/
theorem Holds.of_prefix (h : Holds mem addr vs) (hw : ws <+: vs) : Holds mem addr ws := by
  obtain ⟨r, rfl⟩ := hw
  intro i v hv
  obtain ⟨hi, -⟩ := List.getElem?_eq_some_iff.mp hv
  exact h i v ((List.getElem?_append_left hi).trans hv)

/-- A block is held in two parts, one behind the other. -/
theorem holds_append : Holds mem addr (vs ++ ws) ↔
    Holds mem addr vs ∧ Holds mem (addr + vs.length) ws := by
  constructor
  · intro h
    refine ⟨h.of_prefix (List.prefix_append vs ws), fun i v hv => ?_⟩
    rw [Nat.add_assoc]
    apply h _ v
    rw [List.getElem?_append_right (Nat.le_add_right _ _), Nat.add_sub_cancel_left]
    exact hv
  · rintro ⟨hv, hw⟩ i v hi
    rcases Nat.lt_or_ge i vs.length with hlt | hge
    · exact hv i v ((List.getElem?_append_left hlt).symm.trans hi)
    · rw [List.getElem?_append_right hge] at hi
      have h := hw _ v hi
      rwa [Nat.add_assoc, Nat.add_sub_cancel' hge] at h

/-- A store behind what stands there already. -/
theorem Holds.store_behind (h : Holds mem addr vs) :
    Holds (store mem (addr + vs.length) ws) addr (vs ++ ws) :=
  holds_append.mpr ⟨h.store_apart (Or.inl le_rfl), holds_store⟩

/-- A block is its first cell and the rest. -/
theorem holds_cons {v : V} : Holds mem addr (v :: vs) ↔ mem addr = v ∧ Holds mem (addr + 1) vs := by
  rw [← List.singleton_append, holds_append]
  refine and_congr_left fun _ => ⟨fun h => h 0 v rfl, fun h i w hw => ?_⟩
  obtain ⟨hi, rfl⟩ := List.getElem?_eq_some_iff.mp hw
  obtain rfl : i = 0 := by simpa using hi
  exact h

/-- The next value of a text tells whether the text is over. -/
theorem Holds.read {terminator : V} (h : Holds mem addr (vs ++ [terminator]))
    (hfresh : terminator ∉ vs) :
    mem addr = terminator ∧ vs = []
      ∨ mem addr ≠ terminator ∧ ∃ rest, vs = mem addr :: rest := by
  cases vs with
  | nil => exact Or.inl ⟨(holds_cons.mp h).1, rfl⟩
  | cons v rest =>
      obtain ⟨hv, -⟩ := holds_cons.mp h
      refine Or.inr ⟨fun heq => hfresh ?_, rest, by rw [hv]⟩
      exact List.mem_cons.mpr (Or.inl (heq.symm.trans hv))

end W32HttpServer.Lib.Memory

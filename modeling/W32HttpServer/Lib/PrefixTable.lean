/-
Tables whose keys are compared with the start of a text.

`lookup` tries the entries in order and takes the first one whose key the text starts with.
When no key of the table starts another, at most one entry can match, so the first match is
the only one and the order does not matter (`lookup_of_mem`, `lookup_perm`). A word that is
apart from all keys keeps every text that starts with it out of the table
(`lookup_eq_none_of_apart`).
-/
import Mathlib.Data.List.Basic
import Mathlib.Data.List.Infix
import Mathlib.Tactic.Common

set_option autoImplicit false

namespace W32HttpServer.Lib.PrefixTable

universe u v
variable {α : Type u} {β : Type v} [DecidableEq α]

/-- The value of the first entry whose key `s` starts with. -/
def lookup : List (List α × β) → List α → Option β
  | [], _ => none
  | e :: table, s => if e.1 <+: s then some e.2 else lookup table s

/-- Neither word starts the other. -/
def Apart (w w' : List α) : Prop := ¬ w <+: w' ∧ ¬ w' <+: w

instance (w w' : List α) : Decidable (Apart w w') := inferInstanceAs (Decidable (_ ∧ _))

/-- No two keys of the table can both match. -/
def PrefixFree (table : List (List α × β)) : Prop := table.Pairwise fun e e' => Apart e.1 e'.1

instance (table : List (List α × β)) : Decidable (PrefixFree table) :=
  inferInstanceAs (Decidable (table.Pairwise _))

variable {table : List (List α × β)} {s w w' : List α}

omit [DecidableEq α] in
/-- Neither is a beginning of the other. -/
theorem Apart.symm (h : Apart w w') : Apart w' w := ⟨h.2, h.1⟩

omit [DecidableEq α] in
/-- One text does not start with both. -/
theorem Apart.not_starts (h : Apart w w') (hs : w <+: s) : ¬ w' <+: s := by
  intro hs'
  rcases List.prefix_or_prefix_of_prefix hs hs' with hle | hle
  · exact h.1 hle
  · exact h.2 hle

/-- The entries are tried one after the other. -/
theorem lookup_cons (b : β) (table : List (List α × β)) (s : List α) :
    lookup ((w, b) :: table) s = if w <+: s then some b else lookup table s := rfl

/-- Nothing is found where no entry is a beginning of the text. -/
theorem lookup_eq_none_iff : lookup table s = none ↔ ∀ e ∈ table, ¬ e.1 <+: s := by
  induction table with
  | nil => simp [lookup]
  | cons e table ih =>
      rw [lookup, List.forall_mem_cons]
      split_ifs with he
      · exact iff_of_false (by simp) (fun h => h.1 he)
      · rw [ih, and_iff_right he]

/-- What is found is in the table. -/
theorem exists_mem_of_lookup {b : β} (h : lookup table s = some b) : ∃ e ∈ table, e.2 = b := by
  induction table with
  | nil => exact absurd h (by simp [lookup])
  | cons e table ih =>
      rw [lookup] at h
      split_ifs at h with he
      · exact ⟨e, List.mem_cons_self, Option.some.inj h⟩
      · obtain ⟨e', hmem, hb⟩ := ih h
        exact ⟨e', List.mem_cons_of_mem _ hmem, hb⟩

/-- A text that begins like none of the entries is not found, whatever follows. -/
theorem lookup_eq_none_of_apart (hs : w <+: s) (h : ∀ e ∈ table, Apart w e.1) :
    lookup table s = none :=
  lookup_eq_none_iff.mpr fun e he => (h e he).not_starts hs

/-- **Every entry is found**, wherever it stands in the table. -/
theorem lookup_of_mem (hfree : PrefixFree table) {e : List α × β} (he : e ∈ table)
    (hs : e.1 <+: s) : lookup table s = some e.2 := by
  induction table with
  | nil => exact absurd he (by simp)
  | cons e' table ih =>
      obtain ⟨hhead, htail⟩ := List.pairwise_cons.mp hfree
      rw [lookup]
      rcases List.mem_cons.mp he with rfl | hmem
      · rw [if_pos hs]
      · -- an entry in front that matched would start the same text
        have hskip : ¬ e'.1 <+: s := (hhead e hmem).symm.not_starts hs
        rw [if_neg hskip, ih htail hmem]

/-- The order of the entries does not matter. -/
theorem lookup_perm {table' : List (List α × β)} (hfree : PrefixFree table)
    (hperm : table.Perm table') (s : List α) : lookup table' s = lookup table s := by
  have hfree' : PrefixFree table' :=
    hperm.pairwise hfree (fun {_ _} h => Apart.symm h)
  by_cases h : ∃ e ∈ table, e.1 <+: s
  · obtain ⟨e, he, hs⟩ := h
    rw [lookup_of_mem hfree he hs, lookup_of_mem hfree' (hperm.subset he) hs]
  · have hnone : ∀ e ∈ table, ¬ e.1 <+: s := fun e he hs => h ⟨e, he, hs⟩
    rw [lookup_eq_none_iff.mpr hnone,
      lookup_eq_none_iff.mpr fun e he => hnone e (hperm.symm.subset he)]

end W32HttpServer.Lib.PrefixTable

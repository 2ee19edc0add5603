/-
Texts with escapes.

A scheme has a mark, and two elements behind the mark may stand for a third: `byte a b` is
that element, and `none` when `a` or `b` is no digit. What is not part of an escape stands
for `plain` of itself. The one assumption is a field: no digit is a mark, so an escape never
reaches over the next one.

`decode` reads a text of the scheme from the left and keeps a mark that no two digits
follow. `Encodes s e` says that `e` is one of the many ways to write `s`, and `decode` takes
each of them back to `s` (`Encodes.decode_eq`). In a `WellMarked` text every mark with two
elements behind it opens an escape; an encoded text is one (`Encodes.wellMarked`).
-/
import Mathlib.Data.List.Basic
import Mathlib.Data.List.Infix
import Mathlib.Tactic.Common

set_option autoImplicit false

namespace W32HttpServer.Lib.PercentCode

universe u
variable {α : Type u}

structure Scheme (α : Type u) where
  mark : α
  byte : α → α → Option α
  plain : α → α
  digits_ne_mark : ∀ {a b v : α}, byte a b = some v → a ≠ mark ∧ b ≠ mark

namespace Scheme

/-! ## Texts in which every mark counts -/

variable (S : Scheme α)

/-- Every mark that two more elements follow is followed by two digits. -/
def WellMarked (e : List α) : Prop :=
  ∀ a b, [S.mark, a, b] <:+: e → (S.byte a b).isSome

variable {S}

theorem wellMarked_nil : S.WellMarked [] := by
  intro a b h
  exact absurd h.length_le (by simp)

theorem wellMarked_cons {c : α} {p : List α} :
    S.WellMarked (c :: p)
      ↔ (∀ a b, [S.mark, a, b] <+: c :: p → (S.byte a b).isSome) ∧ S.WellMarked p := by
  constructor
  · intro h
    exact ⟨fun a b hab => h a b hab.isInfix,
      fun a b hab => h a b (hab.trans (List.suffix_cons c p).isInfix)⟩
  · rintro ⟨hhead, hp⟩ a b hab
    rcases List.infix_cons_iff.mp hab with hab | hab
    · exact hhead a b hab
    · exact hp a b hab

/-- A head no window starts at. -/
theorem wellMarked_cons_plain {c : α} {p : List α} (hc : c = S.mark → p.length < 2) :
    S.WellMarked (c :: p) ↔ S.WellMarked p := by
  rw [wellMarked_cons, and_iff_right]
  intro a b hab
  have hp := hc (List.cons_prefix_cons.mp hab).1.symm
  have hlen := hab.length_le
  simp only [List.length_cons, List.length_nil] at hlen
  omega

theorem wellMarked_escape {a b v : α} (h : S.byte a b = some v) {rest : List α} :
    S.WellMarked (S.mark :: a :: b :: rest) ↔ S.WellMarked rest := by
  have hne := S.digits_ne_mark h
  rw [wellMarked_cons, wellMarked_cons_plain (fun ha => absurd ha hne.1),
    wellMarked_cons_plain (fun hb => absurd hb hne.2), and_iff_right]
  intro a' b' hab
  simp only [List.cons_prefix_cons] at hab
  rw [hab.2.1, hab.2.2.1, h]
  rfl

theorem not_wellMarked {a b : α} (h : S.byte a b = none) (rest : List α) :
    ¬ S.WellMarked (S.mark :: a :: b :: rest) := by
  intro hwell
  have hsome := hwell a b ⟨[], rest, rfl⟩
  rw [h] at hsome
  exact absurd hsome (by simp)

/-! ## Encoding -/

variable (S) in
/-- `e` is a way to write `s`. -/
inductive Encodes : List α → List α → Prop
  | nil : Encodes [] []
  | plain {c : α} (hc : c ≠ S.mark) {s e : List α} (rest : Encodes s e) :
      Encodes (S.plain c :: s) (c :: e)
  | escape {a b v : α} (h : S.byte a b = some v) {s e : List α} (rest : Encodes s e) :
      Encodes (v :: s) (S.mark :: a :: b :: e)

/-- An encoded text has no stray marks. -/
theorem Encodes.wellMarked {s e : List α} (h : S.Encodes s e) : S.WellMarked e := by
  induction h with
  | nil => exact wellMarked_nil
  | plain hc rest ih => rwa [wellMarked_cons_plain (fun hm => absurd hm hc)]
  | escape h rest ih => rwa [wellMarked_escape h]

/-! ## Decoding -/

variable [DecidableEq α]

variable (S) in
/-- The element the text starts with an escape for. -/
def opens : List α → Option α
  | a :: b :: c :: _ => if a = S.mark then S.byte b c else none
  | _ => none

variable (S) in
/-- What a text of the scheme stands for. -/
def decode : List α → List α
  | a :: b :: c :: rest =>
      if a = S.mark then
        match S.byte b c with
        | some v => v :: decode rest
        | none => S.plain a :: decode (b :: c :: rest)
      else S.plain a :: decode (b :: c :: rest)
  | a :: rest => S.plain a :: decode rest
  | [] => []

theorem opens_of_ne {a : α} (ha : a ≠ S.mark) (p : List α) : S.opens (a :: p) = none := by
  match p with
  | [] | [_] => rfl
  | _ :: _ :: _ => exact if_neg ha

theorem opens_of_short {p : List α} (hp : p.length < 2) (a : α) : S.opens (a :: p) = none := by
  match p, hp with
  | [], _ | [_], _ => rfl

theorem decode_escape {a b v : α} (h : S.byte a b = some v) (rest : List α) :
    S.decode (S.mark :: a :: b :: rest) = v :: S.decode rest := by
  rw [decode, if_pos rfl, h]

/-- Where no escape opens, one element stands for itself. -/
theorem decode_plain {a : α} {p : List α} (h : S.opens (a :: p) = none) :
    S.decode (a :: p) = S.plain a :: S.decode p := by
  match p with
  | [] | [_] => rfl
  | b :: c :: rest =>
      rw [decode]
      by_cases ha : a = S.mark
      · have hbyte : S.byte b c = none := by rwa [opens, if_pos ha] at h
        rw [if_pos ha, hbyte]
      · rw [if_neg ha]

/-- An element of the decoded text comes from an escape or from one element. -/
theorem mem_decode {v : α} {s : List α} (h : v ∈ S.decode s) :
    (∃ a b, S.byte a b = some v ∧ [S.mark, a, b] <:+: s) ∨ ∃ c ∈ s, S.plain c = v := by
  -- what holds of a shorter text holds of the text it ends
  have hlater : ∀ {p : List α} (c : α),
      ((∃ a b, S.byte a b = some v ∧ [S.mark, a, b] <:+: p) ∨ ∃ d ∈ p, S.plain d = v) →
      (∃ a b, S.byte a b = some v ∧ [S.mark, a, b] <:+: c :: p) ∨ ∃ d ∈ c :: p, S.plain d = v := by
    rintro p c (⟨a, b, hbyte, hab⟩ | ⟨d, hd, hplain⟩)
    · exact Or.inl ⟨a, b, hbyte, hab.trans (List.suffix_cons c p).isInfix⟩
    · exact Or.inr ⟨d, List.mem_cons_of_mem c hd, hplain⟩
  fun_induction decode S s with
  | case1 b c rest w hbyte ih =>
      rcases List.mem_cons.mp h with rfl | h
      · exact Or.inl ⟨b, c, hbyte, [], rest, rfl⟩
      · exact hlater _ (hlater _ (hlater _ (ih h)))
  | case2 b c rest hbyte ih =>
      rcases List.mem_cons.mp h with rfl | h
      · exact Or.inr ⟨_, List.mem_cons_self, rfl⟩
      · exact hlater _ (ih h)
  | case3 a b c rest ha ih =>
      rcases List.mem_cons.mp h with rfl | h
      · exact Or.inr ⟨_, List.mem_cons_self, rfl⟩
      · exact hlater _ (ih h)
  | case4 a rest hshort ih =>
      rcases List.mem_cons.mp h with rfl | h
      · exact Or.inr ⟨_, List.mem_cons_self, rfl⟩
      · exact hlater _ (ih h)
  | case5 => exact absurd h (by simp)

/-- **Decoding undoes encoding.** -/
theorem Encodes.decode_eq {s e : List α} (h : S.Encodes s e) : S.decode e = s := by
  induction h with
  | nil => rfl
  | plain hc rest ih => rw [decode_plain (opens_of_ne hc _), ih]
  | escape h rest ih => rw [decode_escape h, ih]

end Scheme

end W32HttpServer.Lib.PercentCode

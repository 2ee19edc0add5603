/-
Sentinel scans over a bounded memory.

A loop such as `for (; *p != c; ++p);` has no bound of its own: it relies on the
sentinel standing somewhere in front of it. Here the memory is a list, the loop looks at
the suffix it has reached, and a read behind the last element is `none`. So `scan`
is `none` exactly when the loop would leave the memory, and `some k` is the index it
stops at.

What the loop reads at each position is a `Probe`: one element, or a word of several. Two
facts are all the loop needs of it, and they are fields: a read that succeeded still reads
the same when the memory is longer, and a read that ran over the end also does so further
right.
-/
import Mathlib.Data.List.Basic
import Mathlib.Data.List.Infix
import Mathlib.Tactic.Common

set_option autoImplicit false

namespace W32HttpServer.Lib.Scan

universe u
variable {α : Type u}

/-- What a scan reads at the position it has reached: `none` is a read past the end,
`some true` the sentinel. -/
structure Probe (α : Type u) where
  read : List α → Option Bool
  extend : ∀ {s : List α} {b : Bool} (t : List α), read s = some b → read (s ++ t) = some b
  short : ∀ {a : α} {s : List α}, read (a :: s) = none → read s = none

namespace Probe

/-- Read one element and compare it. -/
def headIs (p : α → Bool) : Probe α where
  read s := s.head?.map p
  extend := by
    intro s b t h
    cases s with
    | nil => simp at h
    | cons a s => simpa using h
  short := by
    intro a s h
    simp at h

/-- Read as many elements as `w` has and compare them with `w`. -/
def word [DecidableEq α] (w : List α) : Probe α where
  read s := if s.length < w.length then none else some (decide (s.take w.length = w))
  extend := by
    intro s b t h
    by_cases hs : s.length < w.length
    · rw [if_pos hs] at h
      exact absurd h (by simp)
    · have hst : ¬ (s ++ t).length < w.length := by rw [List.length_append]; omega
      rw [if_neg hs] at h
      rw [if_neg hst, List.take_append_of_le_length (by omega)]
      exact h
  short := by
    intro a s h
    by_cases hs : (a :: s).length < w.length
    · rw [List.length_cons] at hs
      rw [if_pos (by omega)]
    · rw [if_neg hs] at h
      exact absurd h (by simp)

@[simp] theorem headIs_read_nil (p : α → Bool) : (headIs p).read [] = none := rfl

@[simp] theorem headIs_read_cons (p : α → Bool) (a : α) (s : List α) :
    (headIs p).read (a :: s) = some (p a) := rfl

theorem word_read_true [DecidableEq α] {w s : List α} :
    (word w).read s = some true ↔ w <+: s := by
  by_cases hs : s.length < w.length
  · have hw : ¬ w <+: s := fun h => by have := h.length_le; omega
    simp [word, hs, hw]
  · simp only [word, hs, if_false, Option.some.injEq, decide_eq_true_eq]
    rw [List.prefix_iff_eq_take, eq_comm]

theorem word_read_false [DecidableEq α] {w s : List α} (hlen : w.length ≤ s.length)
    (hw : ¬ w <+: s) : (word w).read s = some false := by
  rcases hread : (word w).read s with _ | b
  · simp only [word, if_neg (not_lt.mpr hlen)] at hread
    exact absurd hread (by simp)
  · cases b with
    | false => rfl
    | true => exact absurd (word_read_true.mp hread) hw

end Probe

/-! ## The loop -/

/-- Move right from index `k` until the probe finds its sentinel. -/
def scan (P : Probe α) : List α → ℕ → Option ℕ
  | [], k => if P.read [] = some true then some k else none
  | a :: s, k =>
      match P.read (a :: s) with
      | none => none
      | some true => some k
      | some false => scan P s (k + 1)

/-- The loop started at index `i` of the memory. -/
def scanFrom (P : Probe α) (mem : List α) (i : ℕ) : Option ℕ := scan P (mem.drop i) i

variable {P : Probe α}

theorem scan_of_true {s : List α} {k : ℕ} (h : P.read s = some true) : scan P s k = some k := by
  cases s with
  | nil => rw [scan, if_pos h]
  | cons a s => rw [scan, h]

theorem scan_of_false {a : α} {s : List α} {k : ℕ} (h : P.read (a :: s) = some false) :
    scan P (a :: s) k = scan P s (k + 1) := by
  rw [scan, h]

theorem scan_of_none {s : List α} {k : ℕ} (h : P.read s = none) : scan P s k = none := by
  cases s with
  | nil => rw [scan, h]; simp
  | cons a s => rw [scan, h]

/-- The loop runs past a stretch that holds no sentinel. -/
theorem scan_append_of_false {x y : List α}
    (hx : ∀ a v, a :: v <:+ x → P.read (a :: v ++ y) = some false) : ∀ k : ℕ,
    scan P (x ++ y) k = scan P y (k + x.length) := by
  induction x with
  | nil => exact fun k => rfl
  | cons a x ih =>
      intro k
      have hhead : P.read (a :: (x ++ y)) = some false := hx a x (List.suffix_refl _)
      rw [List.cons_append, scan_of_false hhead,
        ih (fun b v hv => hx b v (hv.trans (List.suffix_cons a x)))]
      simp only [List.length_cons]
      congr 1
      omega

/-- The loop ends inside the memory iff some position in front of it holds the sentinel. -/
theorem scan_isSome_iff (s : List α) : ∀ k : ℕ,
    (scan P s k).isSome ↔ ∃ x y, s = x ++ y ∧ P.read y = some true := by
  induction s with
  | nil =>
      intro k
      constructor
      · intro h
        by_cases ht : P.read [] = some true
        · exact ⟨[], [], rfl, ht⟩
        · rw [scan, if_neg ht] at h
          exact absurd h (by simp)
      · rintro ⟨x, y, hxy, hy⟩
        obtain ⟨rfl, rfl⟩ := List.append_eq_nil_iff.mp hxy.symm
        rw [scan_of_true hy]
        rfl
  | cons a s ih =>
      intro k
      rcases hr : P.read (a :: s) with _ | b
      · -- the read already runs over the end, so it does at every later position
        have hlater : ∀ x y, s = x ++ y → P.read y = none := by
          intro x
          have hs : P.read s = none := P.short hr
          clear ih hr
          induction x generalizing s with
          | nil => rintro y rfl; exact hs
          | cons c x ihx =>
              rintro y rfl
              exact ihx (x ++ y) (P.short hs) y rfl
        rw [scan_of_none hr]
        constructor
        · intro h
          exact absurd h (by simp)
        · rintro ⟨x, y, hxy, hy⟩
          cases x with
          | nil =>
              rw [List.nil_append] at hxy
              rw [← hxy, hr] at hy
              exact absurd hy (by simp)
          | cons c x =>
              rw [List.cons_append, List.cons.injEq] at hxy
              rw [hlater x y hxy.2] at hy
              exact absurd hy (by simp)
      · cases b with
        | true =>
            rw [scan_of_true hr]
            exact ⟨fun _ => ⟨[], a :: s, rfl, hr⟩, fun _ => rfl⟩
        | false =>
            -- not here, so wherever it is in the rest
            rw [scan_of_false hr, ih (k + 1)]
            constructor
            · rintro ⟨x, y, rfl, hy⟩
              exact ⟨a :: x, y, rfl, hy⟩
            · rintro ⟨x, y, hxy, hy⟩
              cases x with
              | nil =>
                  rw [List.nil_append] at hxy
                  rw [← hxy, hr] at hy
                  exact absurd hy (by simp)
              | cons c x =>
                  rw [List.cons_append, List.cons.injEq] at hxy
                  exact ⟨x, y, hxy.2, hy⟩

/-- More memory behind the sentinel changes nothing. -/
theorem scan_append {s : List α} (t : List α) : ∀ {k m : ℕ},
    scan P s k = some m → scan P (s ++ t) k = some m := by
  induction s with
  | nil =>
      intro k m h
      by_cases ht : P.read [] = some true
      · rw [scan_of_true ht] at h
        rw [scan_of_true (P.extend t ht), h]
      · rw [scan, if_neg ht] at h
        exact absurd h (by simp)
  | cons a s ih =>
      intro k m h
      rcases hr : P.read (a :: s) with _ | b
      · rw [scan_of_none hr] at h
        exact absurd h (by simp)
      · have he : P.read (a :: (s ++ t)) = some b := P.extend t hr
        rw [List.cons_append]
        cases b with
        | true =>
            rw [scan_of_true hr] at h
            rw [scan_of_true he, h]
        | false =>
            rw [scan_of_false hr] at h
            rw [scan_of_false he]
            exact ih h

/-- A search for a word runs past a stretch without the word's first element. -/
theorem scan_word_past [DecidableEq α] {a : α} {w x y : List α} (hx : a ∉ x)
    (hlen : w.length ≤ y.length) (k : ℕ) :
    scan (Probe.word (a :: w)) (x ++ y) k = scan (Probe.word (a :: w)) y (k + x.length) := by
  refine scan_append_of_false (fun b v hv => ?_) k
  have hlong : (a :: w).length ≤ (b :: v ++ y).length := by
    simp only [List.length_cons, List.length_append]
    omega
  refine Probe.word_read_false hlong (fun h => ?_)
  -- the word would start at an element of the stretch
  have hhead : a = b := (List.cons_prefix_cons.mp h).1
  exact hx (hhead ▸ hv.subset List.mem_cons_self)

/-- Where a one-element scan stops: the first hit. -/
theorem scan_headIs {p : α → Bool} {x : List α} (hx : ∀ b ∈ x, p b = false) {a : α}
    (ha : p a = true) (y : List α) : ∀ k : ℕ,
    scan (Probe.headIs p) (x ++ a :: y) k = some (k + x.length) := by
  induction x with
  | nil =>
      intro k
      exact scan_of_true (by simp [ha])
  | cons b x ih =>
      intro k
      have hb : p b = false := hx b List.mem_cons_self
      rw [List.cons_append, scan_of_false (by simp [hb]),
        ih (fun c hc => hx c (List.mem_cons_of_mem _ hc))]
      simp only [List.length_cons]
      congr 1
      omega

/-- Conversely, a one-element scan that stops has found a first hit. -/
theorem scan_headIs_eq_some {p : α → Bool} {s : List α} : ∀ {k m : ℕ},
    scan (Probe.headIs p) s k = some m →
      ∃ x a y, s = x ++ a :: y ∧ (∀ b ∈ x, p b = false) ∧ p a = true ∧ m = k + x.length := by
  induction s with
  | nil =>
      intro k m h
      rw [scan, if_neg (by simp)] at h
      exact absurd h (by simp)
  | cons c s ih =>
      intro k m h
      rcases hc : p c with _ | _
      · rw [scan_of_false (by simp [hc])] at h
        obtain ⟨x, a, y, rfl, hx, ha, rfl⟩ := ih h
        refine ⟨c :: x, a, y, rfl, ?_, ha, by simp only [List.length_cons]; omega⟩
        intro b hb
        rcases List.mem_cons.mp hb with rfl | hb
        · exact hc
        · exact hx b hb
      · rw [scan_of_true (by simp [hc]), Option.some.injEq] at h
        exact ⟨[], c, s, rfl, by simp, hc, by simp [h]⟩

/-- The index a scan stops at lies at or behind its start, and the suffix there reads as
the sentinel. -/
theorem scan_eq_some {s : List α} : ∀ {k m : ℕ}, scan P s k = some m →
    ∃ x y, s = x ++ y ∧ m = k + x.length ∧ P.read y = some true := by
  induction s with
  | nil =>
      intro k m h
      by_cases ht : P.read [] = some true
      · rw [scan_of_true ht, Option.some.injEq] at h
        exact ⟨[], [], rfl, by simp [h], ht⟩
      · rw [scan, if_neg ht] at h
        exact absurd h (by simp)
  | cons a s ih =>
      intro k m h
      rcases hr : P.read (a :: s) with _ | b
      · rw [scan_of_none hr] at h
        exact absurd h (by simp)
      · cases b with
        | true =>
            rw [scan_of_true hr, Option.some.injEq] at h
            exact ⟨[], a :: s, rfl, by simp [h], hr⟩
        | false =>
            rw [scan_of_false hr] at h
            obtain ⟨x, y, rfl, rfl, hy⟩ := ih h
            exact ⟨a :: x, y, rfl, by simp only [List.length_cons]; omega, hy⟩

/-- A one-element scan stays inside the memory iff the element it looks for is there. -/
theorem scan_headIs_isSome_iff {p : α → Bool} (s : List α) (k : ℕ) :
    (scan (Probe.headIs p) s k).isSome ↔ ∃ a ∈ s, p a = true := by
  rw [scan_isSome_iff]
  constructor
  · rintro ⟨x, y, rfl, hy⟩
    cases y with
    | nil => simp at hy
    | cons a y =>
        rw [Probe.headIs_read_cons, Option.some.injEq] at hy
        exact ⟨a, by simp, hy⟩
  · rintro ⟨a, ha, hp⟩
    obtain ⟨x, y, rfl⟩ := List.append_of_mem ha
    exact ⟨x, a :: y, rfl, by simp [hp]⟩

/-- A word scan stays inside the memory iff the word occurs in it. -/
theorem scan_word_isSome_iff [DecidableEq α] {w : List α} (s : List α) (k : ℕ) :
    (scan (Probe.word w) s k).isSome ↔ w <:+: s := by
  rw [scan_isSome_iff]
  constructor
  · rintro ⟨x, y, rfl, hy⟩
    obtain ⟨z, rfl⟩ := Probe.word_read_true.mp hy
    exact ⟨x, z, by rw [List.append_assoc]⟩
  · rintro ⟨x, z, rfl⟩
    exact ⟨x, w ++ z, by rw [List.append_assoc], Probe.word_read_true.mpr (List.prefix_append w z)⟩

/-- A last element that no sentinel can contain may be left out of the memory. -/
theorem scan_concat {z : α} (hz : ∀ y, P.read (y ++ [z]) = some true → P.read y = some true)
    (s : List α) (k : ℕ) : scan P (s ++ [z]) k = scan P s k := by
  rcases h : scan P s k with _ | m
  · rcases h' : scan P (s ++ [z]) k with _ | m'
    · rfl
    · exfalso
      obtain ⟨x, y, hxy, hy⟩ := (scan_isSome_iff (P := P) (s ++ [z]) k).mp (by rw [h']; rfl)
      have hs : (scan P s k).isSome := by
        rw [scan_isSome_iff]
        rcases List.eq_nil_or_concat y with rfl | ⟨y', w, rfl⟩
        · exact ⟨s, [], (List.append_nil s).symm, hy⟩
        · rw [List.concat_eq_append, ← List.append_assoc] at hxy
          obtain ⟨hs', hw⟩ := List.append_inj' hxy rfl
          rw [List.concat_eq_append, ← hw] at hy
          exact ⟨x, y', hs', hz y' hy⟩
      rw [h] at hs
      exact absurd hs (by simp)
  · exact scan_append [z] h

/-! ## Scans from an index -/

theorem scanFrom_append {mem : List α} {i m : ℕ} (t : List α) (hi : i ≤ mem.length)
    (h : scanFrom P mem i = some m) : scanFrom P (mem ++ t) i = some m := by
  rw [scanFrom, List.drop_append_of_le_length hi]
  exact scan_append t h

theorem scanFrom_concat {z : α} (hz : ∀ y, P.read (y ++ [z]) = some true → P.read y = some true)
    {mem : List α} {i : ℕ} (hi : i ≤ mem.length) :
    scanFrom P (mem ++ [z]) i = scanFrom P mem i := by
  rw [scanFrom, List.drop_append_of_le_length hi, scan_concat hz, scanFrom]

/-- Where a one-element scan started behind `u` stops. -/
theorem scanFrom_headIs (u : List α) {p : α → Bool} {x : List α} (hx : ∀ b ∈ x, p b = false)
    {a : α} (ha : p a = true) (y : List α) :
    scanFrom (Probe.headIs p) (u ++ (x ++ a :: y)) u.length = some (u.length + x.length) := by
  rw [scanFrom, List.drop_left]
  exact scan_headIs hx ha y u.length

/-- A one-element scan stops at or behind its start, and in front of the end. -/
theorem scanFrom_headIs_bounds {p : α → Bool} {mem : List α} {i m : ℕ} (hi : i ≤ mem.length)
    (h : scanFrom (Probe.headIs p) mem i = some m) : i ≤ m ∧ m < mem.length := by
  obtain ⟨x, y, hxy, rfl, hy⟩ := scan_eq_some h
  have hlen := congrArg List.length hxy
  cases y with
  | nil => simp at hy
  | cons a y =>
      rw [List.length_drop, List.length_append, List.length_cons] at hlen
      omega

end W32HttpServer.Lib.Scan

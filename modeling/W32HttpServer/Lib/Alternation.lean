/-
Things of which one is open at a time.

A history says what was opened, which attempts to open failed, and what was closed. `follow`
goes through it with the one thing that is open and gives up at an opening beside it and at a
closing of anything else. The histories it accepts are the `Alternating` ones: each thing is
closed once, directly behind its opening, before the next attempt.
-/
import Mathlib.Data.List.Basic
import Mathlib.Data.List.Induction
import Mathlib.Tactic.Common

set_option autoImplicit false

namespace W32HttpServer.Lib.Alternation

universe u
variable {H : Type u}

inductive Event (H : Type u)
  | opened (h : H)
  | failed
  | closed (h : H)
  deriving DecidableEq

/-- An attempt to open something. -/
def Event.IsAttempt : Event H → Prop
  | .opened _ | .failed => True
  | .closed _ => False

structure Alternating (l : List (Event H)) : Prop where
  /-- between an opening and the next attempt, one closing and nothing else -/
  closed_once : ∀ x h y e z, l = x ++ .opened h :: (y ++ e :: z) → e.IsAttempt →
    (∀ c ∈ y, ¬ c.IsAttempt) → y = [.closed h]
  /-- what is closed was the last thing opened, and nothing has happened since -/
  open_when_closed : ∀ x h y, l = x ++ .closed h :: y → ∃ u, x = u ++ [.opened h]

variable [DecidableEq H]

/-- What is open behind an event. -/
def follow : Option H → Event H → Option (Option H)
  | none, .opened h => some (some h)
  | none, .failed => some none
  | some _, .opened _ => none
  | some _, .failed => none
  | o, .closed h => if o = some h then some none else none

/-- What is open behind a history; `none` if it is not an alternating one. -/
def openAfter (l : List (Event H)) : Option (Option H) := l.foldlM follow none

theorem follow_opened {o o' : Option H} {h : H} :
    follow o (.opened h) = some o' ↔ o = none ∧ o' = some h := by
  cases o with
  | none => simp [follow, eq_comm]
  | some _ => simp [follow]

theorem follow_failed {o o' : Option H} : follow o .failed = some o' ↔ o = none ∧ o' = none := by
  cases o with
  | none => simp [follow, eq_comm]
  | some _ => simp [follow]

theorem follow_closed {o o' : Option H} {h : H} :
    follow o (.closed h) = some o' ↔ o = some h ∧ o' = none := by
  cases o with
  | none => simp [follow]
  | some g => by_cases hg : g = h <;> simp [follow, hg, eq_comm]

theorem openAfter_snoc (l : List (Event H)) (e : Event H) :
    openAfter (l ++ [e]) = (openAfter l).bind (fun o => follow o e) := by
  simp [openAfter, List.foldlM_append]

theorem openAfter_append {x y : List (Event H)} {o : Option H}
    (h : openAfter (x ++ y) = some o) :
    ∃ o', openAfter x = some o' ∧ y.foldlM follow o' = some o := by
  rw [openAfter, List.foldlM_append] at h
  exact Option.bind_eq_some_iff.mp h

/-- What is open was opened by the last event. -/
theorem last_of_open {l : List (Event H)} {h : H} (hl : openAfter l = some (some h)) :
    ∃ u, l = u ++ [.opened h] := by
  rcases List.eq_nil_or_concat l with rfl | ⟨u, e, rfl⟩
  · exact absurd hl (by simp [openAfter])
  · rw [List.concat_eq_append, openAfter_snoc, Option.bind_eq_some_iff] at hl
    obtain ⟨o, -, he⟩ := hl
    refine ⟨u, ?_⟩
    rw [List.concat_eq_append]
    cases e with
    | opened g =>
        obtain rfl : h = g := Option.some.inj (follow_opened.mp he).2
        rfl
    | failed => exact absurd (follow_failed.mp he).2 (by simp)
    | closed g => exact absurd (follow_closed.mp he).2 (by simp)

/-- Only a closing may follow an opening, and it closes what was opened. -/
theorem follow_open {h : H} {e : Event H} {o : Option H} (he : follow (some h) e = some o) :
    e = .closed h ∧ o = none := by
  cases e with
  | opened g => exact absurd (follow_opened.mp he).1 (by simp)
  | failed => exact absurd (follow_failed.mp he).1 (by simp)
  | closed g =>
      obtain ⟨heq, rfl⟩ := follow_closed.mp he
      obtain rfl : h = g := Option.some.inj heq
      exact ⟨rfl, rfl⟩

/-- **What `follow` accepts alternates.** -/
theorem alternating_of_openAfter {l : List (Event H)} {o : Option H} (hl : openAfter l = some o) :
    Alternating l where
  closed_once := by
    rintro x h y e z rfl hattempt hquiet
    have hsplit : x ++ .opened h :: (y ++ e :: z) = (x ++ [.opened h]) ++ (y ++ e :: z) := by
      rw [List.append_assoc, List.singleton_append]
    rw [hsplit] at hl
    obtain ⟨o1, h1, hl⟩ := openAfter_append hl
    rw [openAfter_snoc, Option.bind_eq_some_iff] at h1
    obtain ⟨o0, -, h0⟩ := h1
    obtain rfl := (follow_opened.mp h0).2
    cases y with
    | nil =>
        -- the next attempt would come right behind the opening
        obtain ⟨o2, h2, -⟩ := Option.bind_eq_some_iff.mp hl
        rw [(follow_open h2).1] at hattempt
        exact hattempt.elim
    | cons c y =>
        obtain ⟨o2, h2, hl⟩ := Option.bind_eq_some_iff.mp hl
        obtain ⟨rfl, rfl⟩ := follow_open h2
        cases y with
        | nil => rfl
        | cons d y =>
            -- nothing is open, so the event behind the closing is an attempt
            obtain ⟨o3, h3, -⟩ := Option.bind_eq_some_iff.mp hl
            have hd := hquiet d (by simp)
            cases d with
            | opened g => exact (hd trivial).elim
            | failed => exact (hd trivial).elim
            | closed g => exact absurd (follow_closed.mp h3).1 (by simp)
  open_when_closed := by
    rintro x h y rfl
    obtain ⟨o1, h1, hl⟩ := openAfter_append hl
    obtain ⟨o2, h2, -⟩ := Option.bind_eq_some_iff.mp hl
    obtain ⟨rfl, -⟩ := follow_closed.mp h2
    exact last_of_open h1

/-- How often a thing was opened and closed. -/
theorem count_of_openAfter {l : List (Event H)} : ∀ {o : Option H}, openAfter l = some o → ∀ h,
    l.count (.closed h) + (if o = some h then 1 else 0) = l.count (.opened h) := by
  induction l using List.reverseRecOn with
  | nil =>
      intro o hl h
      obtain rfl : none = o := Option.some.inj hl
      simp
  | append_singleton l e ih =>
      intro o hl h
      rw [openAfter_snoc, Option.bind_eq_some_iff] at hl
      obtain ⟨o', hl, he⟩ := hl
      have hcount := ih hl h
      rw [List.count_append, List.count_append]
      cases e with
      | opened g =>
          obtain ⟨rfl, rfl⟩ := follow_opened.mp he
          by_cases hg : g = h <;> simp_all
      | failed =>
          obtain ⟨rfl, rfl⟩ := follow_failed.mp he
          simpa using hcount
      | closed g =>
          obtain ⟨rfl, rfl⟩ := follow_closed.mp he
          by_cases hg : g = h <;> simp_all

end W32HttpServer.Lib.Alternation

/-
Runs of a transition system whose step is a partial function.

`exec` takes a list of actions one after the other; it is `none` when one of them is not
enabled where it is taken. `Meets` says that every action of a run meets a condition in the
state it is taken in, so that a property of the runs that avoid some kind of step can be
stated. The invariant rules reduce a property of all states a run reaches to one step.

Where the state has a family of threads and a step moves one of them, an account that adds
up what the threads hold changes in one summand (`sum_update`).
-/
import Mathlib.Algebra.BigOperators.Group.Finset.Basic
import Mathlib.Data.Fintype.Basic
import Mathlib.Tactic.Abel
import Mathlib.Tactic.Common

set_option autoImplicit false

namespace W32HttpServer.Lib.Transition

universe u v
variable {S : Type u} {A : Type v}

/-- The state a list of actions leads to. -/
def exec (step : S → A → Option S) : S → List A → Option S
  | s, [] => some s
  | s, a :: as => (step s a).bind (fun s' => exec step s' as)

/-- One run after another. -/
theorem exec_append (step : S → A → Option S) (as bs : List A) : ∀ s : S,
    exec step s (as ++ bs) = (exec step s as).bind fun s' => exec step s' bs := by
  induction as with
  | nil => exact fun s => rfl
  | cons a as ih =>
      intro s
      rw [List.cons_append, exec, exec, Option.bind_assoc]
      exact Option.bind_congr fun s' _ => ih s'

/-- Each action of the run meets `ok` where it is taken. -/
def Meets (step : S → A → Option S) (ok : S → A → Prop) : S → List A → Prop
  | _, [] => True
  | s, a :: as => ok s a ∧ ∀ s', step s a = some s' → Meets step ok s' as

instance decidableMeets (step : S → A → Option S) (ok : S → A → Prop)
    [∀ s a, Decidable (ok s a)] : ∀ s as, Decidable (Meets step ok s as)
  | _, [] => isTrue trivial
  | s, a :: as =>
      match h : step s a with
      | none => decidable_of_iff (ok s a) (by simp [Meets, h])
      | some s1 =>
          have := decidableMeets step ok s1 as
          decidable_of_iff (ok s a ∧ Meets step ok s1 as) (by simp [Meets, h])

theorem Meets.cons {step : S → A → Option S} {ok : S → A → Prop} {s s' : S} {a : A} {as : List A}
    (hok : ok s a) (hs : step s a = some s') (h : Meets step ok s' as) :
    Meets step ok s (a :: as) := by
  refine ⟨hok, fun s1 h1 => ?_⟩
  rw [hs, Option.some.injEq] at h1
  exact h1 ▸ h

theorem meets_of_forall {step : S → A → Option S} {ok : S → A → Prop} (h : ∀ s a, ok s a) :
    ∀ (as : List A) (s : S), Meets step ok s as := by
  intro as
  induction as with
  | nil => exact fun _ => trivial
  | cons a as ih => exact fun s => ⟨h s a, fun s' _ => ih s'⟩

theorem Meets.imp {step : S → A → Option S} {ok ok' : S → A → Prop}
    (h : ∀ s a, ok s a → ok' s a) :
    ∀ {as : List A} {s : S}, Meets step ok s as → Meets step ok' s as := by
  intro as
  induction as with
  | nil => exact fun _ => trivial
  | cons a as ih => exact fun hmeets => ⟨h _ a hmeets.1, fun s' hs => ih (hmeets.2 s' hs)⟩

theorem Meets.append {step : S → A → Option S} {ok : S → A → Prop} {bs : List A} {s' : S} :
    ∀ {as : List A} {s : S}, Meets step ok s as → exec step s as = some s' →
      Meets step ok s' bs → Meets step ok s (as ++ bs) := by
  intro as
  induction as with
  | nil =>
      intro s _ hrun h
      rw [exec, Option.some.injEq] at hrun
      exact hrun ▸ h
  | cons a as ih =>
      intro s hmeets hrun h
      rw [exec, Option.bind_eq_some_iff] at hrun
      obtain ⟨s1, h1, hrun⟩ := hrun
      exact .cons hmeets.1 h1 (ih (hmeets.2 s1 h1) hrun h)

/-- **The invariant rule.** What every step that meets `ok` preserves holds at the end of
every run whose steps meet it. -/
theorem exec_invariant {step : S → A → Option S} {ok : S → A → Prop} {inv : S → Prop}
    (hstep : ∀ s a s', inv s → ok s a → step s a = some s' → inv s') :
    ∀ (as : List A) (s s' : S), inv s → Meets step ok s as → exec step s as = some s' →
      inv s' := by
  intro as
  induction as with
  | nil =>
      intro s s' hs _ h
      rw [exec, Option.some.injEq] at h
      exact h ▸ hs
  | cons a as ih =>
      intro s s' hs hmeets h
      rw [exec, Option.bind_eq_some_iff] at h
      obtain ⟨s1, h1, h⟩ := h
      exact ih s1 s' (hstep s a s1 hs hmeets.1 h1) (hmeets.2 s1 h1) h

/-- What the steps of a run add up to. -/
def total (step : S → A → Option S) (f : S → A → ℕ) : S → List A → ℕ
  | _, [] => 0
  | s, a :: as => f s a + (step s a).elim 0 fun s' => total step f s' as

/-- An account in which each step is entered with its amount. -/
theorem exec_accumulates {step : S → A → Option S} {ok : S → A → Prop} {f : S → A → ℕ}
    {inv : S → ℕ → Prop}
    (hstep : ∀ s a s' k, inv s k → ok s a → step s a = some s' → inv s' (k + f s a)) :
    ∀ (as : List A) (s s' : S) (k : ℕ), inv s k → Meets step ok s as → exec step s as = some s' →
      inv s' (k + total step f s as) := by
  intro as
  induction as with
  | nil =>
      intro s s' k hs _ h
      rw [exec, Option.some.injEq] at h
      exact h ▸ hs
  | cons a as ih =>
      intro s s' k hs hmeets h
      rw [exec, Option.bind_eq_some_iff] at h
      obtain ⟨s1, h1, h⟩ := h
      rw [total, h1, Option.elim_some, ← Nat.add_assoc]
      exact ih s1 s' _ (hstep s a s1 k hs hmeets.1 h1) (hmeets.2 s1 h1) h

/-- **Exactly the runs that meet a condition.** Where each step keeps `P` if and only if it meets
`ok`, a run ends in `P` if and only if it starts in it and all its steps meet `ok`. -/
theorem exec_iff {step : S → A → Option S} {ok : S → A → Prop} {inv P : S → Prop}
    (hinv : ∀ s a s', inv s → step s a = some s' → inv s')
    (hstep : ∀ s a s', inv s → step s a = some s' → (P s' ↔ P s ∧ ok s a)) :
    ∀ (as : List A) (s s' : S), inv s → exec step s as = some s' →
      (P s' ↔ P s ∧ Meets step ok s as) := by
  intro as
  induction as with
  | nil =>
      intro s s' _ h
      rw [exec, Option.some.injEq] at h
      rw [← h, Meets, and_true]
  | cons a as ih =>
      intro s s' hs h
      rw [exec, Option.bind_eq_some_iff] at h
      obtain ⟨s1, h1, h⟩ := h
      rw [ih s1 s' (hinv s a s1 hs h1) h, hstep s a s1 hs h1, and_assoc, Meets, h1]
      constructor
      · rintro ⟨hP, hok, hmeets⟩
        refine ⟨hP, hok, fun s2 h2 => ?_⟩
        rwa [← Option.some.inj h2]
      · exact fun ⟨hP, hok, hmeets⟩ => ⟨hP, hok, hmeets s1 rfl⟩

/-- **The runs that meet a condition, state by state.** Where a step out of a state of `P` leads
to one if and only if it meets `ok`, a run from `P` stays in `P` if and only if all its steps
meet `ok`. -/
theorem exec_throughout_iff {step : S → A → Option S} {ok : S → A → Prop} {inv P : S → Prop}
    (hinv : ∀ s a s', inv s → step s a = some s' → inv s')
    (hstep : ∀ s a s', inv s → P s → step s a = some s' → (P s' ↔ ok s a)) :
    ∀ (as : List A) (s s' : S), inv s → P s → exec step s as = some s' →
      ((∀ p, p <+: as → ∀ t, exec step s p = some t → P t) ↔ Meets step ok s as) := by
  intro as
  induction as with
  | nil =>
      intro s s' _ hP _
      -- the only state is the first
      refine iff_of_true (fun p hp t ht => ?_) trivial
      rw [List.prefix_nil.mp hp, exec, Option.some.injEq] at ht
      exact ht ▸ hP
  | cons a as ih =>
      intro s s' hs hP h
      rw [exec, Option.bind_eq_some_iff] at h
      obtain ⟨s1, h1, h⟩ := h
      have hfirst : exec step s [a] = some s1 := by rw [exec, h1]; rfl
      have hrest : ∀ p, exec step s (a :: p) = exec step s1 p := fun p => by
        rw [exec, h1, Option.bind_some]
      constructor
      · intro hall
        -- `P` behind the first step says that this step is one of the good ones
        have hP1 : P s1 := hall [a] (List.cons_prefix_cons.mpr ⟨rfl, List.nil_prefix⟩) s1 hfirst
        refine ⟨(hstep s a s1 hs hP h1).mp hP1, fun s2 h2 => ?_⟩
        rw [← Option.some.inj (h1.symm.trans h2)]
        refine (ih s1 s' (hinv s a s1 hs h1) hP1 h).mp fun p hp t ht => ?_
        exact hall (a :: p) (List.cons_prefix_cons.mpr ⟨rfl, hp⟩) t ((hrest p).trans ht)
      · rintro ⟨hok, hmeets⟩
        have hP1 : P s1 := (hstep s a s1 hs hP h1).mpr hok
        have hall := (ih s1 s' (hinv s a s1 hs h1) hP1 h).mpr (hmeets s1 h1)
        intro p hp t ht
        cases p with
        | nil =>
            rw [exec, Option.some.injEq] at ht
            exact ht ▸ hP
        | cons b p =>
            obtain ⟨rfl, hp1⟩ := List.cons_prefix_cons.mp hp
            exact hall p hp1 t ((hrest p).symm.trans ht)

/-- What every step preserves holds at the end of every run. -/
theorem exec_preserves {step : S → A → Option S} {inv : S → Prop}
    (hstep : ∀ s a s', inv s → step s a = some s' → inv s') :
    ∀ (as : List A) (s s' : S), inv s → exec step s as = some s' → inv s' := by
  intro as
  induction as with
  | nil =>
      intro s s' hs h
      rw [exec, Option.some.injEq] at h
      exact h ▸ hs
  | cons a as ih =>
      intro s s' hs h
      rw [exec, Option.bind_eq_some_iff] at h
      obtain ⟨s1, h1, h⟩ := h
      exact ih s1 s' (hstep s a s1 hs h1) h

/-! ## Families of threads -/

/-- A sum over the threads, when one of them moves. -/
theorem sum_update {ι M α : Type*} [Fintype ι] [DecidableEq ι] [AddCommMonoid M] (f : α → M)
    (pcs : ι → α) (i : ι) (pc : α) :
    ∑ v, f (Function.update pcs i pc v) + f (pcs i) = ∑ v, f (pcs v) + f pc := by
  have hrest : ∑ v ∈ Finset.univ.erase i, f (Function.update pcs i pc v)
      = ∑ v ∈ Finset.univ.erase i, f (pcs v) :=
    Finset.sum_congr rfl fun v hv => by
      rw [Function.update_of_ne (Finset.ne_of_mem_erase hv)]
  rw [← Finset.add_sum_erase Finset.univ _ (Finset.mem_univ i),
    ← Finset.add_sum_erase Finset.univ (fun v => f (pcs v)) (Finset.mem_univ i), hrest,
    Function.update_self]
  abel

/-- At most one thread is at a place of the kind `p`. -/
def Exclusive {ι α : Type*} (p : α → Prop) (pcs : ι → α) : Prop :=
  ∀ i j, p (pcs i) → p (pcs j) → i = j

section Exclusive

variable {ι α : Type*} [DecidableEq ι] {p : α → Prop} {pcs : ι → α} {i : ι} {pc : α}

/-- A thread goes where the others are not. -/
theorem Exclusive.enter (h : ∀ j, j ≠ i → ¬ p (pcs j)) :
    Exclusive p (Function.update pcs i pc) := by
  have honly : ∀ j, p (Function.update pcs i pc j) → j = i := by
    intro j hj
    by_contra hne
    rw [Function.update_of_ne hne] at hj
    exact h j hne hj
  exact fun j k hj hk => (honly j hj).trans (honly k hk).symm

/-- The thread that is there moves on. -/
theorem Exclusive.inside (h : Exclusive p pcs) (hi : p (pcs i)) :
    Exclusive p (Function.update pcs i pc) :=
  .enter fun j hne hj => hne (h j i hj hi)

/-- A thread goes elsewhere. -/
theorem Exclusive.outside (h : Exclusive p pcs) (hpc : ¬ p pc) :
    Exclusive p (Function.update pcs i pc) := by
  have hother : ∀ j, p (Function.update pcs i pc j) → p (pcs j) := by
    intro j hj
    by_cases hne : j = i
    · subst hne
      rw [Function.update_self] at hj
      exact absurd hj hpc
    · rwa [Function.update_of_ne hne] at hj
  exact fun j k hj hk => h j k (hother j hj) (hother k hk)

end Exclusive

end W32HttpServer.Lib.Transition

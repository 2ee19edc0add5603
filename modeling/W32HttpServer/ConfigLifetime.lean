/-
How long the configuration of a run lives.

`on_start_click` keeps it in a local variable, and `start_server` hands a pointer to it to the
listener, to the workers of the pool inside it and to `g_server_config`. The storage is live
from the click to the return of the handler, which waits for nothing but the event the
listener sets once it has its socket. So a start that succeeds leaves the pointer in
`g_server_config`, and mostly a listener and workers too, behind the end of the storage
(`covered_iff`): the calls that leave none are those that initialise no pool and leave no
worker of a failed initialisation.
-/
import Mathlib.Logic.Function.Basic
import Mathlib.Tactic.Common
import W32HttpServer.Lib.Transition
import W32HttpServer.MainWindow

set_option autoImplicit false

namespace W32HttpServer.ConfigLifetime

open W32HttpServer.MainWindow W32HttpServer.Lib.Transition

/-! ## The model -/

structure lifetime_t where
  ui : state_t
  /-- the local `cfg` of a call of `on_start_click` is in storage -/
  live : ℕ → Bool
  /-- how many threads of the pool of a run have not ended -/
  workers : ℕ → ℕ

inductive lifetime_action_t
  /-- a step of the window thread or of a listener, and how many workers are left behind it if
  it is the initialisation of a pool -/
  | ui (a : action_t) (workers : ℕ)
  | worker_ends (run : ℕ)

def lifetime_init : lifetime_t where
  ui := init
  live _ := false
  workers _ := 0

/-- `cfg->worker_threads` as `on_start_click` sets it. -/
def worker_threads : ℕ := 4

/-- The storage of the local variables of `on_start_click`. -/
def live_after (s : lifetime_t) (a : action_t) (ui : state_t) : ℕ → Bool :=
  match a with
  | .click _ => Function.update s.live s.ui.clicks true
  | .window _ =>
      -- the handler returns
      if ui.window = .idle then Function.update s.live (s.ui.clicks - 1) false else s.live
  | _ => s.live

/-- The workers: a pool that is initialised has all of them, and an initialisation that fails
gives the ones it has created up after five seconds each, ended or not. -/
def workers_after (s : lifetime_t) (a : action_t) (n : ℕ) : Option (ℕ → ℕ) :=
  match a, s.ui.window with
  | .window true, .pool_init run =>
      if n = worker_threads then some (Function.update s.workers run n) else none
  | .window false, .pool_init run =>
      if n ≤ worker_threads then some (Function.update s.workers run n) else none
  | _, _ => some s.workers

def lifetime_step (platform : platform_type_t) (s : lifetime_t) :
    lifetime_action_t → Option lifetime_t
  | .ui a n => do
      let ui ← step platform s.ui a
      let workers ← workers_after s a n
      some ⟨ui, live_after s a ui, workers⟩
  | .worker_ends run =>
      if s.workers run = 0 then none
      else some { s with workers := Function.update s.workers run (s.workers run - 1) }

/-! ## What should hold -/

/-- The listener of the run exists and has not ended. -/
def Alive (pc : listener_t) : Prop := pc ≠ .absent ∧ pc ≠ .finished

/-- Somebody may still use the configuration of the run. -/
def Held (s : lifetime_t) (run : ℕ) : Prop :=
  Alive (s.ui.listeners run) ∨ s.workers run ≠ 0 ∨ s.ui.g_server_config = some run

/-- A configuration somebody may still use is in storage. -/
def Covered (s : lifetime_t) : Prop := ∀ run, Held s run → s.live run = true

/-- The call that returns has initialised no pool, and no worker of it is left. -/
def Unused (s : lifetime_t) : lifetime_action_t → Prop
  | .ui (.window _) _ => Returns s.ui.window → ∀ run, run + 1 = s.ui.clicks →
      .pool_init run true ∉ s.ui.calls ∧ s.workers run = 0
  | _ => True

variable {platform : platform_type_t} {s s' : state_t}

/-! ## The invariant -/

/-- How far the call in hand has given its configuration away, by the place of the window
thread. -/
def Place (s : state_t) : window_t → Prop
  | .idle => True
  | .increment run | .detect_platform run | .pool_init run =>
      run + 1 = s.clicks ∧ .pool_init run true ∉ s.calls
  | .create_event run => run + 1 = s.clicks ∧ .pool_init run true ∈ s.calls
  | .create_thread run | .wait run => run + 1 = s.clicks ∧ s.g_server_config = some run
  | .set_button true => ∀ run, run + 1 = s.clicks → .pool_init run true ∈ s.calls →
      s.g_server_config = some run
  | _ => ∀ run, run + 1 = s.clicks → .pool_init run true ∉ s.calls

structure UiInv (s : state_t) : Prop where
  config : ∀ run, s.g_server_config = some run → .pool_init run true ∈ s.calls
  listener : ∀ run, s.listeners run ≠ .absent → .pool_init run true ∈ s.calls
  initialised : ∀ run, .pool_init run true ∈ s.calls → run < s.clicks
  place : Place s s.window

/-- The call whose configuration is in storage is the latest one. -/
structure Inv (s : lifetime_t) : Prop where
  ui : UiInv s.ui
  live : ∀ run, s.live run = true ↔ s.ui.window ≠ .idle ∧ run + 1 = s.ui.clicks
  workers : ∀ run, s.workers run ≠ 0 → run < s.ui.clicks

theorem init_inv : Inv lifetime_init where
  ui := by
    refine ⟨fun _ h => ?_, fun _ h => absurd rfl h, fun _ h => ?_, trivial⟩
    · exact absurd h (by simp [lifetime_init, init])
    · exact absurd h (by simp [lifetime_init, init])
  live := fun _ => by simp [lifetime_init, init]
  workers := fun _ h => absurd rfl h

/-! ### The window and its listeners -/

theorem place_of_failed {run : ℕ} (hrun : run + 1 = s.clicks)
    (hfresh : call_t.pool_init run true ∉ s.calls) : ∀ r, r + 1 = s.clicks →
      call_t.pool_init r true ∉ s.calls := by
  intro r hr
  obtain rfl : r = run := by omega
  exact hfresh

theorem handler_place {ok : Bool} (h : Place s s.window) (hs : handler_step s ok = some s') :
    Place s' s'.window := by
  unfold handler_step at hs
  split at hs
  next => exact absurd hs (by simp)
  next => exact Option.some.inj hs ▸ trivial
  next run hw =>
    rw [hw] at h
    exact Option.some.inj hs ▸ h
  next run hw =>
    rw [hw] at h
    cases ok with
    | true => exact Option.some.inj hs ▸ h
    | false =>
        -- the start is refused in front of the pool
        exact Option.some.inj hs ▸ fun r hr hmem => absurd hmem (place_of_failed h.1 h.2 r hr)
  next run hw =>
    rw [hw] at h
    obtain ⟨hrun, hfresh⟩ := h
    cases ok with
    | true => exact Option.some.inj hs ▸ ⟨hrun, List.mem_append_right _ (List.mem_singleton_self _)⟩
    | false =>
        refine Option.some.inj hs ▸ fun r hr hmem => ?_
        -- the pool is refused, which is not an initialised one
        have hold : .pool_init r true ∈ s.calls := by simpa using hmem
        exact absurd hold (place_of_failed hrun hfresh r hr)
  next run hw =>
    rw [hw] at h
    exact Option.some.inj hs ▸ ⟨h.1, rfl⟩
  next run hw =>
    rw [hw] at h
    split_ifs at hs
    · exact Option.some.inj hs ▸ h
    · exact Option.some.inj hs ▸ h
  next run hw =>
    rw [hw] at h
    split_ifs at hs
    refine Option.some.inj hs ▸ fun r hr _ => ?_
    -- the last click is the one that started this run
    obtain rfl : r = run := Nat.succ_injective (hr.trans h.1.symm)
    exact h.2
  next hw =>
    rw [hw] at h
    exact Option.some.inj hs ▸ h
  next hw =>
    rw [hw] at h
    refine Option.some.inj hs ▸ fun r hr hmem => h r hr ?_
    cases hconfig : s.g_server_config <;> simpa [hconfig] using hmem
  next hw =>
    rw [hw] at h
    split_ifs at hs
    · exact Option.some.inj hs ▸ h
    · exact Option.some.inj hs ▸ fun r hr hmem => h r hr (by simpa using hmem)
  next hw =>
    rw [hw] at h
    exact Option.some.inj hs ▸ h
  next => exact Option.some.inj hs ▸ trivial

theorem handler_inv {ok : Bool} (h : UiInv s) (hs : handler_step s ok = some s') : UiInv s' := by
  have hmoves := handler_moves hs
  have hplace := h.place
  refine ⟨fun run hrun => ?_, fun run hrun => ?_, fun run hrun => ?_, handler_place h.place hs⟩
  · rcases hmoves.config run hrun with hrun | hw
    · exact hmoves.kept _ (h.config run hrun)
    · rw [hw] at hplace
      exact hmoves.kept _ hplace.2
  · rcases hmoves.listeners run with heq | hw
    · exact hmoves.kept _ (h.listener run (heq ▸ hrun))
    · rw [hw] at hplace
      exact hmoves.kept _ (h.config run hplace.2)
  · rw [hmoves.clicks]
    rcases hmoves.pool_init run hrun with hrun | hw
    · exact h.initialised run hrun
    · rw [hw] at hplace
      exact Nat.lt_of_succ_le hplace.1.le

theorem click_inv (h : UiInv s) (folder_selected : Bool) :
    UiInv (on_start_click s folder_selected) := by
  have hfresh : ∀ run, run + 1 = s.clicks + 1 → .pool_init run true ∉ s.calls := by
    intro run hrun hmem
    have hlt := h.initialised run hmem
    omega
  refine ⟨h.config, h.listener, fun run hrun => Nat.lt_succ_of_lt (h.initialised run hrun), ?_⟩
  dsimp only [on_start_click]
  split_ifs
  · exact hfresh
  · exact ⟨rfl, hfresh s.clicks rfl⟩
  · exact hfresh

/-- The pool initialisations of a state. -/
theorem mem_calls_of_listener {run : ℕ} {ok : Bool}
    (hs : listener_step platform s run ok = some s') (r : ℕ) :
    .pool_init r true ∈ s'.calls ↔ .pool_init r true ∈ s.calls := by
  obtain ⟨-, l, hl, hsockets⟩ := listener_calls hs
  rw [hl, List.mem_append, or_iff_left]
  intro hmem
  obtain ⟨sock, hc | hc⟩ := hsockets _ hmem
  · exact absurd hc (by simp)
  · exact absurd hc (by simp)

theorem Place.congr {w : window_t} (hclicks : s'.clicks = s.clicks)
    (hconfig : s'.g_server_config = s.g_server_config)
    (hcalls : ∀ r, .pool_init r true ∈ s'.calls ↔ .pool_init r true ∈ s.calls) :
    Place s' w ↔ Place s w := by
  cases w with
  | set_button started => cases started <;> simp only [Place, hclicks, hconfig, hcalls]
  | _ => simp only [Place, hclicks, hconfig, hcalls]

theorem listener_inv {run : ℕ} {ok : Bool} (h : UiInv s)
    (hs : listener_step platform s run ok = some s') : UiInv s' := by
  have hmoves := listener_moves hs
  have hconfig := (listener_calls hs).1
  have hcalls := mem_calls_of_listener hs
  refine ⟨fun r hr => ?_, fun r hr => ?_, fun r hr => ?_, ?_⟩
  · exact (hcalls r).mpr (h.config r (hconfig ▸ hr))
  · refine (hcalls r).mpr (h.listener r ?_)
    by_cases hne : r = run
    · exact hne ▸ hmoves.present
    · rwa [← hmoves.others r hne]
  · exact hmoves.clicks ▸ h.initialised r ((hcalls r).mp hr)
  · rw [hmoves.window, Place.congr hmoves.clicks hconfig hcalls]
    exact h.place

theorem ui_step_inv {a : action_t} (h : UiInv s) (hs : step platform s a = some s') : UiInv s' := by
  cases a with
  | click folder_selected =>
      rw [step] at hs
      split_ifs at hs
      exact Option.some.inj hs ▸ click_inv h folder_selected
  | window ok => exact handler_inv h hs
  | listener run ok => exact listener_inv h hs
  | deliver m =>
      rw [step] at hs
      split_ifs at hs
      cases m with
      | W32HTTP_SERVER_STARTED run => exact Option.some.inj hs ▸ ⟨h.1, h.2, h.3, h.4⟩
      | W32HTTP_SERVER_STOPPED run => exact Option.some.inj hs ▸ ⟨h.1, h.2, h.3, h.4⟩

/-! ### Storage and workers -/

variable {t t' : lifetime_t}

theorem lifetime_step_ui {a : action_t} {n : ℕ}
    (hs : lifetime_step platform t (.ui a n) = some t') :
    step platform t.ui a = some t'.ui ∧ t'.live = live_after t a t'.ui
      ∧ workers_after t a n = some t'.workers := by
  simp only [lifetime_step, Option.bind_eq_bind, Option.bind_eq_some_iff, Option.some.injEq] at hs
  obtain ⟨ui, hui, workers, hworkers, rfl⟩ := hs
  exact ⟨hui, rfl, hworkers⟩

/-- Only the initialisation of a pool makes workers, and they are its own. -/
theorem workers_moves {a : action_t} {n : ℕ} {workers : ℕ → ℕ}
    (hs : workers_after t a n = some workers) :
    workers = t.workers
      ∨ ∃ run ok, a = .window ok ∧ t.ui.window = .pool_init run
        ∧ workers = Function.update t.workers run n := by
  unfold workers_after at hs
  split at hs
  next run hw =>
    split_ifs at hs
    exact Or.inr ⟨run, true, rfl, hw, (Option.some.inj hs).symm⟩
  next run hw =>
    split_ifs at hs
    exact Or.inr ⟨run, false, rfl, hw, (Option.some.inj hs).symm⟩
  next => exact Or.inl (Option.some.inj hs).symm

theorem window_step_clicks {a : action_t} (hs : step platform s a = some s') :
    s.clicks ≤ s'.clicks := by
  cases a with
  | click folder_selected =>
      rw [step] at hs
      split_ifs at hs
      exact Option.some.inj hs ▸ Nat.le_succ _
  | window ok => exact (handler_moves hs).clicks.ge
  | listener run ok => exact (listener_moves hs).clicks.ge
  | deliver m =>
      rw [step] at hs
      split_ifs at hs
      cases m <;> exact Option.some.inj hs ▸ le_refl _

theorem workers_inv {a : action_t} {n : ℕ} (h : Inv t)
    (hs : lifetime_step platform t (.ui a n) = some t') :
    ∀ run, t'.workers run ≠ 0 → run < t'.ui.clicks := by
  obtain ⟨hui, -, hworkers⟩ := lifetime_step_ui hs
  have hclicks := window_step_clicks hui
  intro run hrun
  rcases workers_moves hworkers with heq | ⟨r, ok, rfl, hw, heq⟩
  · rw [heq] at hrun
    exact lt_of_lt_of_le (h.workers run hrun) hclicks
  · rw [heq] at hrun
    by_cases hne : run = r
    · have hplace := h.ui.place
      rw [hw] at hplace
      rw [hne]
      exact lt_of_lt_of_le (Nat.lt_of_succ_le hplace.1.le) hclicks
    · rw [Function.update_of_ne hne] at hrun
      exact lt_of_lt_of_le (h.workers run hrun) hclicks

theorem live_inv {a : action_t} {n : ℕ} (h : Inv t)
    (hs : lifetime_step platform t (.ui a n) = some t') :
    ∀ run, t'.live run = true ↔ t'.ui.window ≠ .idle ∧ run + 1 = t'.ui.clicks := by
  obtain ⟨hui, hlive, -⟩ := lifetime_step_ui hs
  intro run
  rw [hlive]
  cases a with
  | click folder_selected =>
      rw [step] at hui
      split_ifs at hui with hidle
      have hbusy : t'.ui.window ≠ .idle := by
        rw [← Option.some.inj hui]
        dsimp only [on_start_click]
        split_ifs <;> simp
      have hclicks : t'.ui.clicks = t.ui.clicks + 1 := by rw [← Option.some.inj hui]; rfl
      rw [and_iff_right hbusy, hclicks, Nat.succ_inj]
      -- the storage of all earlier calls is gone
      have hgone : t.live run ≠ true := fun htrue => ((h.live run).mp htrue).1 hidle
      by_cases hne : run = t.ui.clicks
      · subst hne
        simp [live_after]
      · simp [live_after, hne, hgone]
  | window ok =>
      have hmoves := handler_moves hui
      have hclicks := hmoves.clicks
      by_cases hidle : t'.ui.window = .idle
      · have hgone : Function.update t.live (t.ui.clicks - 1) false run ≠ true := by
          by_cases hne : run = t.ui.clicks - 1
          · simp [hne]
          · rw [Function.update_of_ne hne]
            intro htrue
            have hrun := ((h.live run).mp htrue).2
            omega
        simp [live_after, hidle, hgone]
      · have hold := h.live run
        rw [and_iff_right hmoves.busy] at hold
        simp [live_after, hidle, hclicks, hold]
  | listener r ok =>
      have hmoves := listener_moves hui
      rw [hmoves.window, hmoves.clicks]
      exact h.live run
  | deliver m =>
      rw [step] at hui
      split_ifs at hui
      rw [← Option.some.inj hui]
      cases m <;> exact h.live run

theorem step_inv (t : lifetime_t) (a : lifetime_action_t) (t' : lifetime_t) (h : Inv t)
    (hs : lifetime_step platform t a = some t') : Inv t' := by
  cases a with
  | ui a n => exact ⟨ui_step_inv h.ui (lifetime_step_ui hs).1, live_inv h hs, workers_inv h hs⟩
  | worker_ends run =>
      rw [lifetime_step] at hs
      split_ifs at hs with hzero
      refine Option.some.inj hs ▸ ⟨h.ui, h.live, fun r hr => h.workers r ?_⟩
      by_cases hne : r = run
      · exact hne ▸ hzero
      · dsimp only at hr
        rwa [Function.update_of_ne hne] at hr

/-! ### A configuration in use -/

theorem held_congr (hlisteners : ∀ run, t'.ui.listeners run = t.ui.listeners run)
    (hworkers : t'.workers = t.workers)
    (hconfig : t'.ui.g_server_config = t.ui.g_server_config) (run : ℕ) :
    Held t' run ↔ Held t run := by
  rw [Held, Held, hlisteners, hworkers, hconfig]

/-- While the handler runs, it gives nothing away but its own configuration. -/
theorem held_of_window {ok : Bool} {n : ℕ} (h : Inv t)
    (hs : lifetime_step platform t (.ui (.window ok) n) = some t') {run : ℕ}
    (hheld : Held t' run) : Held t run ∨ run + 1 = t.ui.clicks := by
  obtain ⟨hui, -, hworkers⟩ := lifetime_step_ui hs
  have hmoves := handler_moves hui
  have hplace := h.ui.place
  rcases hheld with halive | hleft | hconfig
  · rcases hmoves.listeners run with heq | hw
    · rw [heq] at halive
      exact Or.inl (Or.inl halive)
    · rw [hw] at hplace
      exact Or.inr hplace.1
  · rcases workers_moves hworkers with heq | ⟨r, -, -, hw, heq⟩
    · rw [heq] at hleft
      exact Or.inl (Or.inr (Or.inl hleft))
    · rw [heq] at hleft
      by_cases hne : run = r
      · rw [hw] at hplace
        rw [hne]
        exact Or.inr hplace.1
      · rw [Function.update_of_ne hne] at hleft
        exact Or.inl (Or.inr (Or.inl hleft))
  · rcases hmoves.config run hconfig with hconfig | hw
    · exact Or.inl (Or.inr (Or.inr hconfig))
    · rw [hw] at hplace
      exact Or.inr hplace.1

/-- Who may use the configuration of the call that is about to return. -/
theorem held_iff_of_returns (h : Inv t) (hr : Returns t.ui.window) {run : ℕ}
    (hrun : run + 1 = t.ui.clicks) :
    ¬ Held t run ↔ call_t.pool_init run true ∉ t.ui.calls ∧ t.workers run = 0 := by
  constructor
  · intro hheld
    refine ⟨fun hmem => ?_, by_contra fun hleft => hheld (Or.inr (Or.inl hleft))⟩
    have hplace := h.ui.place
    rcases hr.eq with hw | ⟨started, hw⟩
    · rw [hw] at hplace
      exact hplace run hrun hmem
    · rw [hw] at hplace
      cases started with
      | true => exact hheld (Or.inr (Or.inr (hplace run hrun hmem)))
      | false => exact hplace run hrun hmem
  · rintro ⟨hfresh, hzero⟩ (halive | hleft | hconfig)
    · exact hfresh (h.ui.listener run halive.1)
    · exact hleft hzero
    · exact hfresh (h.ui.config run hconfig)

theorem covered_click (h : Inv t) (hcov : Covered t) {folder_selected : Bool} {n : ℕ}
    (hs : lifetime_step platform t (.ui (.click folder_selected) n) = some t') : Covered t' := by
  obtain ⟨hui, -, hworkers⟩ := lifetime_step_ui hs
  rw [step] at hui
  split_ifs at hui with hidle
  -- between two calls nobody uses a configuration
  have hnone : ∀ run, ¬ Held t run := fun run hheld => ((h.live run).mp (hcov run hheld)).1 hidle
  intro run hheld
  refine absurd ((held_congr ?_ ?_ ?_ run).mp hheld) (hnone run)
  · exact fun _ => by rw [← Option.some.inj hui]; rfl
  · exact (Option.some.inj hworkers).symm
  · rw [← Option.some.inj hui]
    rfl

theorem covered_window (h : Inv t) (hcov : Covered t) {ok : Bool} {n : ℕ}
    (hs : lifetime_step platform t (.ui (.window ok) n) = some t') :
    Covered t' ↔ Unused t (.ui (.window ok) n) := by
  obtain ⟨hui, hlive, hworkers⟩ := lifetime_step_ui hs
  have hmoves := handler_moves hui
  have hlive' := live_inv h hs
  by_cases hr : Returns t.ui.window
  · -- the storage of the call is given up
    have hidle := hmoves.returns.mpr hr
    obtain ⟨hlisteners, hconfig, -⟩ := handler_returns hr hui
    have hsame : t'.workers = t.workers := by
      rcases workers_moves hworkers with heq | ⟨r, -, -, hw, -⟩
      · exact heq
      · rw [hw] at hr
        exact absurd hr id
    have hheld := held_congr (fun run => congrFun hlisteners run) hsame hconfig
    constructor
    · intro hcov' _ run hrun
      refine (held_iff_of_returns h hr hrun).mp fun hrun' => ?_
      exact ((hlive' run).mp (hcov' run ((hheld run).mpr hrun'))).1 hidle
    · intro hunused run hrun'
      have hold := (hheld run).mp hrun'
      have hrun := ((h.live run).mp (hcov run hold)).2
      exact absurd hold ((held_iff_of_returns h hr hrun).mpr (hunused hr run hrun))
  · have hbusy : t'.ui.window ≠ .idle := fun hidle => hr (hmoves.returns.mp hidle)
    refine iff_of_true (fun run hheld => ?_) fun hr' => absurd hr' hr
    refine (hlive' run).mpr ⟨hbusy, ?_⟩
    rw [hmoves.clicks]
    rcases held_of_window h hs hheld with hheld | hrun
    · exact ((h.live run).mp (hcov run hheld)).2
    · exact hrun

theorem covered_of_fewer (hlive : t'.live = t.live) (hheld : ∀ run, Held t' run → Held t run)
    (hcov : Covered t) : Covered t' := by
  intro run hrun
  rw [hlive]
  exact hcov run (hheld run hrun)

theorem covered_listener (hcov : Covered t) {run : ℕ} {ok : Bool} {n : ℕ}
    (hs : lifetime_step platform t (.ui (.listener run ok) n) = some t') : Covered t' := by
  obtain ⟨hui, hlive, hworkers⟩ := lifetime_step_ui hs
  have hmoves := listener_moves hui
  refine covered_of_fewer hlive (fun r => Or.imp ?_ (Or.imp ?_ ?_)) hcov
  · intro halive
    by_cases hne : r = run
    · exact hne ▸ ⟨hmoves.present, hmoves.unfinished⟩
    · rwa [← hmoves.others r hne]
  · rw [← Option.some.inj hworkers]
    exact id
  · rw [(listener_calls hui).1]
    exact id

theorem covered_deliver (hcov : Covered t) {m : message_t} {n : ℕ}
    (hs : lifetime_step platform t (.ui (.deliver m) n) = some t') : Covered t' := by
  obtain ⟨hui, hlive, hworkers⟩ := lifetime_step_ui hs
  rw [step] at hui
  split_ifs at hui
  refine covered_of_fewer hlive (fun r => (held_congr ?_ ?_ ?_ r).mp) hcov
  · exact fun _ => by rw [← Option.some.inj hui]; cases m <;> rfl
  · exact (Option.some.inj hworkers).symm
  · rw [← Option.some.inj hui]
    cases m <;> rfl

/-- A step leaves a configuration in use behind its storage exactly when a handler returns that
has given it away. -/
theorem covered_iff (t : lifetime_t) (a : lifetime_action_t) (t' : lifetime_t) (h : Inv t)
    (hcov : Covered t) (hs : lifetime_step platform t a = some t') : Covered t' ↔ Unused t a := by
  cases a with
  | ui a n =>
      cases a with
      | click folder_selected => exact iff_of_true (covered_click h hcov hs) trivial
      | window ok => exact covered_window h hcov hs
      | listener run ok => exact iff_of_true (covered_listener hcov hs) trivial
      | deliver m => exact iff_of_true (covered_deliver hcov hs) trivial
  | worker_ends run =>
      rw [lifetime_step] at hs
      split_ifs at hs with hzero
      refine iff_of_true ?_ trivial
      refine covered_of_fewer (by rw [← Option.some.inj hs])
        (fun r => Or.imp ?_ (Or.imp ?_ ?_)) hcov
      · exact fun halive => by rwa [← Option.some.inj hs] at halive
      · intro hleft
        by_cases hne : r = run
        · exact hne ▸ hzero
        · rw [← Option.some.inj hs] at hleft
          dsimp only at hleft
          rwa [Function.update_of_ne hne] at hleft
      · exact fun hconfig => by rwa [← Option.some.inj hs] at hconfig

/-! ## Runs -/

/-- **How long a configuration lives.** It covers its uses throughout a run if and only if every
call of the handler that returns in it has given nothing away. All other steps keep it covered, so
the whole run is a matter of these. -/
theorem config_outlives_iff (platform : platform_type_t) {as : List lifetime_action_t}
    {t : lifetime_t} (hrun : exec (lifetime_step platform) lifetime_init as = some t) :
    (∀ p, p <+: as → ∀ t, exec (lifetime_step platform) lifetime_init p = some t → Covered t)
      ↔ Meets (lifetime_step platform) Unused lifetime_init as := by
  have hcov : Covered lifetime_init := by
    rintro run (halive | hleft | hconfig)
    · exact absurd rfl halive.1
    · exact absurd rfl hleft
    · exact absurd hconfig (by simp [lifetime_init, init])
  exact exec_throughout_iff step_inv covered_iff as lifetime_init t init_inv hcov hrun

/-- The creation of the third worker fails, and the two others end before the handler returns;
the next click is taken for a stop. -/
def failed_start : List lifetime_action_t :=
  [.ui (.click true) 0, .ui (.window true) 0, .ui (.window true) 0, .ui (.window false) 2,
    .worker_ends 0, .worker_ends 0, .ui (.window true) 0, .ui (.click true) 0,
    .ui (.window true) 0, .ui (.window true) 0, .ui (.window true) 0, .ui (.window true) 0]

theorem config_outlives_failed_start :
    (exec (lifetime_step .PLATFORM_WIN9X) lifetime_init failed_start).isSome = true
      ∧ ∀ p, p <+: failed_start → ∀ t,
        exec (lifetime_step .PLATFORM_WIN9X) lifetime_init p = some t → Covered t := by
  have hunused : Meets (lifetime_step .PLATFORM_WIN9X) Unused lifetime_init failed_start := by
    have hinside : ∀ {t : lifetime_t} {ok : Bool} {n : ℕ}, ¬ Returns t.ui.window →
        Unused t (.ui (.window ok) n) := fun hinside hr => absurd hr hinside
    refine .cons trivial rfl ?_
    iterate 3 refine .cons (hinside id) rfl ?_
    iterate 2 refine .cons trivial rfl ?_
    -- the handler returns from a start that failed
    refine .cons (fun _ run hrun => ?_) rfl ?_
    · have hfirst : run = 0 := Nat.succ_injective hrun
      have hfailed : call_t.pool_init 0 true ∉ [call_t.pool_init 0 false] := by decide
      rw [hfirst]
      exact ⟨hfailed, rfl⟩
    refine .cons trivial rfl ?_
    iterate 3 refine .cons (hinside id) rfl ?_
    -- and from a stop
    refine .cons (fun _ run hrun => ?_) rfl ?_
    · have hsecond : run = 1 := Nat.succ_injective hrun
      have hnone : call_t.pool_init 1 true ∉ [call_t.pool_init 0 false] := by decide
      rw [hsecond]
      exact ⟨hnone, rfl⟩
    trivial
  have hends : (exec (lifetime_step .PLATFORM_WIN9X) lifetime_init failed_start).isSome = true :=
    rfl
  obtain ⟨t, hrun⟩ := Option.isSome_iff_exists.mp hends
  exact ⟨hends, (config_outlives_iff .PLATFORM_WIN9X hrun).mpr hunused⟩

/-- A start that succeeds leaves a listener, four workers and `g_server_config` behind its
storage. -/
theorem not_config_outlives : ∃ t, exec (lifetime_step .PLATFORM_WIN9X) lifetime_init
      ((click_actions ++ serve_win9x 0).map (.ui · worker_threads)) = some t
    ∧ t.ui.listeners 0 = .test ∧ t.workers 0 = 4 ∧ t.ui.g_server_config = some 0
    ∧ ¬ Covered t := by
  refine ⟨_, rfl, rfl, rfl, rfl, fun hcov => ?_⟩
  exact absurd (hcov 0 (Or.inr (Or.inr rfl))) (by decide)

end W32HttpServer.ConfigLifetime

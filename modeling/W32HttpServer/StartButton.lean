/-
What the start button says about the server.

The flag is written by the click handler, which does not look at the result of
`start_server`, and by every W32HTTP_SERVER_STOPPED message, which does not say whose
listener has ended. So it can be wrong in two ways: a server that could not be started is
reported as running, and one that runs is reported as stopped when the listener of an
earlier run ends late. `Dependable` leaves out the steps that do this, and `button_tells_truth`
is the invariant of the runs without them.
-/
import Mathlib.Logic.Function.Basic
import Mathlib.Tactic.Common
import W32HttpServer.Lib.Transition
import W32HttpServer.MainWindow

set_option autoImplicit false

namespace W32HttpServer.StartButton

open W32HttpServer.MainWindow W32HttpServer.Lib.Transition

/-! ## What the button should say -/

/-- The server that the latest click started has neither been stopped nor ended. -/
def Running (s : state_t) : Prop := ∃ run, s.server = some run ∧ s.listeners run ≠ .finished

/-- No click is being handled, and no message is pending. -/
structure Quiet (s : state_t) : Prop where
  idle : s.window = .idle
  delivered : s.pending = []

def TellsTruth (s : state_t) : Prop := s.started = true ↔ Running s

/-- `start_server` neither fails nor returns without a listener, and no message of an earlier
run is delivered while a server is running. -/
def Dependable (s : state_t) : action_t → Prop
  | .window ok =>
      match s.window with
      | .detect_platform _ | .pool_init _ => ok = true
      | .create_thread run => ok = true ∨ s.lock run ≠ .NULL
      | _ => True
  | .deliver (.W32HTTP_SERVER_STOPPED run) => Running s → s.server = some run
  | _ => True

/-! ## The invariant -/

/-- The flag will be cleared if the listener of `run` has ended. -/
def Due (s : state_t) (run : ℕ) : Prop :=
  s.listeners run ≠ .finished ∨ .W32HTTP_SERVER_STOPPED run ∈ s.pending

/-- The run that is being started and has no listener yet. -/
def starting : window_t → Option ℕ
  | .increment run | .detect_platform run | .pool_init run | .create_event run
  | .create_thread run => some run
  | _ => none

/-- What the flag and the latest server have to do with each other, by the place of the window
thread. -/
def Told (s : state_t) : window_t → Prop
  | .idle => (s.started = true → ∃ run, s.server = some run ∧ Due s run)
      ∧ (Running s → s.started = true)
  | .wait run => s.server = some run ∧ Due s run
      -- no thread was created, and the event is never set
      ∨ s.server = none ∧ s.listeners run = .absent ∧ s.lock run = .reset
  | .create_thread run => s.server = none ∧ s.listeners run = .absent ∧ s.lock run ≠ .signaled
  | .set_button true => ∃ run, s.server = some run ∧ Due s run
  | .message_box => s.server = none ∧ s.started = false
  | _ => s.server = none

structure Inv (s : state_t) : Prop where
  fresh : ∀ run, s.clicks ≤ run → s.listeners run = .absent
  starts : ∀ run, starting s.window = some run → run < s.clicks ∧ s.listeners run = .absent
  stopped : ∀ run, .W32HTTP_SERVER_STOPPED run ∈ s.pending → s.listeners run = .finished
  told : Told s s.window

theorem init_inv : Inv init := by
  refine ⟨fun _ _ => rfl, fun _ h => absurd h (by simp [starting, init]), fun _ h => ?_, ?_⟩
  · exact absurd h List.not_mem_nil
  · exact ⟨fun h => absurd h (by simp [init]), fun ⟨_, h, _⟩ => absurd h (by simp [init])⟩

variable {platform : platform_type_t} {s s' : state_t}

theorem not_running_of_none (h : s.server = none) : ¬ Running s := by
  rintro ⟨run, hrun, -⟩
  rw [h] at hrun
  exact absurd hrun (by simp)

/-! ## Each kind of step -/

theorem click_inv (h : Inv s) (folder_selected : Bool) : Inv (on_start_click s folder_selected) := by
  refine ⟨fun run hrun => h.fresh run (Nat.le_of_succ_le hrun), fun run hrun => ?_, h.stopped, ?_⟩
  · dsimp only [on_start_click] at hrun ⊢
    split_ifs at hrun
    · exact absurd hrun (by simp [starting])
    · obtain rfl : s.clicks = run := by simpa [starting] using hrun
      exact ⟨Nat.lt_succ_self _, h.fresh _ (le_refl _)⟩
    · exact absurd hrun (by simp [starting])
  · dsimp only [on_start_click]
    split_ifs with hstarted
    · rfl
    · rfl
    · exact ⟨rfl, by simpa using hstarted⟩

/-! ### A listener -/

theorem due_of_moves {run : ℕ} (hmoves : ListenerMoves s s' run) {r : ℕ} (h : Due s r) :
    Due s' r := by
  by_cases hr : r = run
  · subst hr
    by_cases hfin : s'.listeners r = .finished
    · exact Or.inr (hmoves.finishes hfin)
    · exact Or.inl hfin
  · rcases h with h | h
    · exact Or.inl (by rwa [hmoves.others r hr])
    · exact Or.inr (hmoves.kept _ h)

theorem running_of_moves {run : ℕ} (hmoves : ListenerMoves s s' run) (h : Running s') :
    Running s := by
  obtain ⟨r, hserver, hr⟩ := h
  refine ⟨r, hmoves.server ▸ hserver, ?_⟩
  by_cases heq : r = run
  · exact heq ▸ hmoves.unfinished
  · rwa [hmoves.others r heq] at hr

theorem told_of_moves {run : ℕ} (hmoves : ListenerMoves s s' run) {w : window_t}
    (h : Told s w) : Told s' w := by
  have hdue : (∃ r, s.server = some r ∧ Due s r) → ∃ r, s'.server = some r ∧ Due s' r := by
    rintro ⟨r, hserver, hr⟩
    exact ⟨r, hmoves.server.trans hserver, due_of_moves hmoves hr⟩
  cases w with
  | idle =>
      obtain ⟨hflag, hrunning⟩ := h
      refine ⟨fun hstarted => hdue (hflag (hmoves.started ▸ hstarted)), fun hrun => ?_⟩
      exact hmoves.started.trans (hrunning (running_of_moves hmoves hrun))
  | wait r =>
      rcases h with ⟨hserver, hr⟩ | ⟨hserver, habsent, hlock⟩
      · exact Or.inl ⟨hmoves.server.trans hserver, due_of_moves hmoves hr⟩
      · -- the thread that is about to be created is not the one that moves
        have hne : r ≠ run := fun heq => hmoves.present (heq ▸ habsent)
        exact Or.inr ⟨hmoves.server.trans hserver, (hmoves.others r hne).trans habsent,
          (hmoves.lock r hne).trans hlock⟩
  | create_thread r =>
      obtain ⟨hserver, habsent, hlock⟩ := h
      have hne : r ≠ run := fun heq => hmoves.present (heq ▸ habsent)
      exact ⟨hmoves.server.trans hserver, (hmoves.others r hne).trans habsent,
        (hmoves.lock r hne).trans_ne hlock⟩
  | set_button started =>
      cases started with
      | true => exact hdue h
      | false => exact hmoves.server.trans h
  | message_box => exact ⟨hmoves.server.trans h.1, hmoves.started.trans h.2⟩
  | _ => exact hmoves.server.trans h

theorem listener_inv {run : ℕ} (h : Inv s) (hmoves : ListenerMoves s s' run) : Inv s' := by
  have hkept : ∀ r, s.listeners r = .absent → s'.listeners r = .absent := fun r habsent =>
    (hmoves.others r fun heq => hmoves.present (heq ▸ habsent)).trans habsent
  refine ⟨fun r hr => ?_, fun r hr => ?_, fun r hr => ?_, ?_⟩
  · rw [hmoves.clicks] at hr
    exact hkept r (h.fresh r hr)
  · rw [hmoves.window] at hr
    obtain ⟨hlt, habsent⟩ := h.starts r hr
    exact ⟨hmoves.clicks ▸ hlt, hkept r habsent⟩
  · rcases hmoves.stopped r hr with hold | ⟨rfl, hfin⟩
    · have hfin := h.stopped r hold
      exact (hmoves.others r fun heq => hmoves.unfinished (heq ▸ hfin)).trans hfin
    · exact hfin
  · rw [hmoves.window]
    exact told_of_moves hmoves h.told

/-! ### The window thread -/

/-- A step of the handler that leaves the listeners alone. -/
theorem Inv.handled (h : Inv s) (hlisteners : s'.listeners = s.listeners)
    (hclicks : s'.clicks = s.clicks) (hpending : s'.pending = s.pending)
    (hstarting : ∀ run, starting s'.window = some run → starting s.window = some run)
    (htold : Told s' s'.window) : Inv s' where
  fresh := by
    rw [hlisteners, hclicks]
    exact h.fresh
  starts := by
    rw [hlisteners, hclicks]
    exact fun run hrun => h.starts run (hstarting run hrun)
  stopped := by
    rw [hlisteners, hpending]
    exact h.stopped
  told := htold

/-- The same for a step behind which no run is being started. -/
theorem Inv.settled (h : Inv s) (hlisteners : s'.listeners = s.listeners)
    (hclicks : s'.clicks = s.clicks) (hpending : s'.pending = s.pending)
    (hstarting : starting s'.window = none) (htold : Told s' s'.window) : Inv s' := by
  refine h.handled hlisteners hclicks hpending (fun run hrun => ?_) htold
  rw [hstarting] at hrun
  exact absurd hrun (by simp)

/-- The listener of a new run exists. -/
theorem Inv.thread_created {run : ℕ} (h : Inv s) (hwindow : s.window = .create_thread run) :
    Inv { s with
      listeners := Function.update s.listeners run .start
      server := some run
      window := .wait run } := by
  obtain ⟨hlt, habsent⟩ := h.starts run (by rw [hwindow, starting])
  refine ⟨fun r hr => ?_, fun r hr => absurd hr (by simp [starting]), fun r hr => ?_, ?_⟩
  · have hne : r ≠ run := fun heq => absurd hlt (Nat.not_lt.mpr (heq ▸ hr))
    exact (Function.update_of_ne hne _ _).trans (h.fresh r hr)
  · have hfin := h.stopped r hr
    have hne : r ≠ run := by
      rintro rfl
      rw [habsent] at hfin
      exact absurd hfin (by simp)
    exact (Function.update_of_ne hne _ _).trans hfin
  · refine Or.inl ⟨rfl, Or.inl ?_⟩
    dsimp only
    rw [Function.update_self]
    simp

theorem handler_inv {ok : Bool} (h : Inv s) (hok : Dependable s (.window ok))
    (hs : handler_step s ok = some s') : Inv s' := by
  have htold := h.told
  unfold handler_step at hs
  split at hs
  next => exact absurd hs (by simp)
  next hw =>
    -- the message box is closed
    rw [hw] at htold
    rw [Option.some.injEq] at hs
    refine hs ▸ h.settled rfl rfl rfl rfl ⟨?_, ?_⟩
    · exact fun hstarted => absurd hstarted (by simp [htold.2])
    · exact fun hrunning => absurd hrunning (not_running_of_none htold.1)
  next run hw =>
    rw [hw] at htold
    rw [Option.some.injEq] at hs
    exact hs ▸ h.handled rfl rfl rfl (fun _ hrun => by rw [hw]; exact hrun) htold
  next run hw =>
    rw [hw] at htold
    obtain rfl : ok = true := by simpa [Dependable, hw] using hok
    rw [Option.some.injEq] at hs
    exact hs ▸ h.handled rfl rfl rfl (fun _ hrun => by rw [hw]; exact hrun) htold
  next run hw =>
    rw [hw] at htold
    obtain rfl : ok = true := by simpa [Dependable, hw] using hok
    rw [Option.some.injEq] at hs
    exact hs ▸ h.handled rfl rfl rfl (fun _ hrun => by rw [hw]; exact hrun) htold
  next run hw =>
    rw [hw] at htold
    rw [Option.some.injEq] at hs
    have habsent := (h.starts run (by rw [hw, starting])).2
    refine hs ▸ h.handled rfl rfl rfl (fun _ hrun => by rw [hw]; exact hrun) ⟨htold, habsent, ?_⟩
    dsimp only
    rw [Function.update_self]
    split_ifs <;> simp
  next run hw =>
    rw [hw] at htold
    split_ifs at hs with hcreated
    · rw [Option.some.injEq] at hs
      exact hs ▸ h.thread_created hw
    · rw [Option.some.injEq] at hs
      obtain ⟨hserver, habsent, hlock⟩ := htold
      have hnull : s.lock run ≠ .NULL := by
        have hor : ok = true ∨ s.lock run ≠ .NULL := by simpa [Dependable, hw] using hok
        exact hor.resolve_left hcreated
      have hreset : s.lock run = .reset := by
        cases hl : s.lock run with
        | NULL => exact absurd hl hnull
        | reset => rfl
        | signaled => exact absurd hl hlock
      exact hs ▸ h.settled rfl rfl rfl rfl
        (Or.inr ⟨hserver, habsent, hreset⟩)
  next run hw =>
    rw [hw] at htold
    split_ifs at hs with hlock
    rw [Option.some.injEq] at hs
    refine hs ▸ h.settled rfl rfl rfl rfl ?_
    rcases htold with hserver | ⟨-, -, hreset⟩
    · exact ⟨run, hserver⟩
    · exact absurd hreset hlock
  next hw =>
    rw [hw] at htold
    rw [Option.some.injEq] at hs
    exact hs ▸ h.settled rfl rfl rfl rfl htold
  next hw =>
    rw [hw] at htold
    rw [Option.some.injEq] at hs
    exact hs ▸ h.settled rfl rfl rfl rfl htold
  next hw =>
    rw [hw] at htold
    split_ifs at hs
    · rw [Option.some.injEq] at hs
      exact hs ▸ h.settled rfl rfl rfl rfl htold
    · rw [Option.some.injEq] at hs
      exact hs ▸ h.settled rfl rfl rfl rfl htold
  next hw =>
    rw [hw] at htold
    rw [Option.some.injEq] at hs
    exact hs ▸ h.settled rfl rfl rfl rfl htold
  next started hw =>
    rw [hw] at htold
    rw [Option.some.injEq] at hs
    refine hs ▸ h.settled rfl rfl rfl rfl ?_
    cases started with
    | true => exact ⟨fun _ => htold, fun _ => rfl⟩
    | false =>
        exact ⟨fun hstarted => absurd hstarted (by simp),
          fun hrunning => absurd hrunning (not_running_of_none htold)⟩

theorem deliver_inv {m : message_t} (h : Inv s) (hok : Dependable s (.deliver m))
    (hwindow : takes_messages s.window) (hm : m ∈ s.pending) :
    Inv (on_message { s with pending := s.pending.erase m } m) := by
  have hpending : ∀ r, .W32HTTP_SERVER_STOPPED r ∈ s.pending.erase m →
      s.listeners r = .finished := fun r hr => h.stopped r (List.mem_of_mem_erase hr)
  have htold := h.told
  cases m with
  | W32HTTP_SERVER_STARTED run =>
      -- the message that is gone is none that a listener owes
      have hdue : ∀ r, Due s r →
          Due { s with pending := s.pending.erase (.W32HTTP_SERVER_STARTED run) } r := fun r hr =>
        hr.imp_right fun hr => (List.mem_erase_of_ne (by simp)).mpr hr
      refine ⟨h.fresh, h.starts, hpending, ?_⟩
      dsimp only [on_message]
      cases hw : s.window with
      | idle =>
          rw [hw] at htold
          refine ⟨fun hstarted => ?_, htold.2⟩
          obtain ⟨r, hserver, hr⟩ := htold.1 hstarted
          exact ⟨r, hserver, hdue r hr⟩
      | message_box =>
          rw [hw] at htold
          exact htold
      | _ => rw [hw] at hwindow; exact absurd hwindow (by simp [takes_messages])
  | W32HTTP_SERVER_STOPPED run =>
      refine ⟨h.fresh, h.starts, hpending, ?_⟩
      dsimp only [on_message]
      cases hw : s.window with
      | idle =>
          -- the message is the server's own, so the server has ended
          refine ⟨fun hstarted => absurd hstarted (by simp), fun ⟨r, hserver, hr⟩ => ?_⟩
          have hown : s.server = some run := hok ⟨r, hserver, hr⟩
          obtain rfl : run = r := by simpa [hown] using hserver
          exact absurd (h.stopped run hm) hr
      | message_box =>
          rw [hw] at htold
          exact ⟨htold.1, rfl⟩
      | _ => rw [hw] at hwindow; exact absurd hwindow (by simp [takes_messages])

theorem step_inv (s : state_t) (a : action_t) (s' : state_t) (h : Inv s) (hok : Dependable s a)
    (hs : step platform s a = some s') : Inv s' := by
  cases a with
  | click folder_selected =>
      rw [step] at hs
      split_ifs at hs
      exact Option.some.inj hs ▸ click_inv h folder_selected
  | window ok => exact handler_inv h hok hs
  | listener run ok => exact listener_inv h (listener_moves hs)
  | deliver m =>
      rw [step] at hs
      split_ifs at hs with hc
      exact Option.some.inj hs ▸ deliver_inv h hok hc.1 hc.2

/-- **The button tells the truth** in every quiet state of every dependable run. Between the
states the flag may be ahead of the server or behind it, and the invariant says by which message
that is put right. -/
theorem button_tells_truth (as : List action_t) (s : state_t)
    (hok : Meets (step platform) Dependable init as) (hs : exec (step platform) init as = some s)
    (hquiet : Quiet s) : TellsTruth s := by
  have h := exec_invariant step_inv as init s init_inv hok hs
  have htold := h.told
  rw [hquiet.idle] at htold
  refine ⟨fun hstarted => ?_, htold.2⟩
  obtain ⟨run, hserver, hdue | hpending⟩ := htold.1 hstarted
  · exact ⟨run, hserver, hdue⟩
  · rw [hquiet.delivered] at hpending
    exact absurd hpending List.not_mem_nil

/-- The server of run `run` is started, as far as the message of its listener. -/
def start_actions (run : ℕ) : List action_t :=
  [.click true, .window true, .window true, .window true, .window true, .window true,
    .listener run true, .listener run true, .listener run true, .window true, .window true,
    .deliver (.W32HTTP_SERVER_STARTED run)]

theorem button_tells_truth_started :
    ∃ s, exec (step .PLATFORM_WIN9X) init (start_actions 0) = some s ∧ s.started = true
      ∧ TellsTruth s := by
  have hok : Meets (step .PLATFORM_WIN9X) Dependable init (start_actions 0) := by
    iterate 2 refine .cons trivial rfl ?_
    -- the platform is detected, the pool initialised and the listener created
    iterate 2 refine .cons rfl rfl ?_
    refine .cons trivial rfl ?_
    refine .cons (Or.inl rfl) rfl ?_
    iterate 6 refine .cons trivial rfl ?_
    trivial
  exact ⟨_, rfl, rfl, button_tells_truth (start_actions 0) _ hok rfl ⟨rfl, rfl⟩⟩

/-- The platform is not detected, and `start_server` returns -1. -/
def failed_start : List action_t := [.click true, .window true, .window false, .window true]

/-- The server is stopped and started again, and the message of its first listener is
delivered behind that. -/
def late_message : List action_t :=
  start_actions 0 ++ [.listener 0 true, .listener 0 true, .click true, .window true, .window true,
    .window true, .window true, .window true, .listener 0 false, .listener 0 true]
    ++ start_actions 2 ++ [.listener 0 true, .deliver (.W32HTTP_SERVER_STOPPED 0)]

/-- The button offers to stop what does not run, and then to start what runs. -/
theorem button_lies :
    (∃ s, exec (step .PLATFORM_WIN9X) init failed_start = some s ∧ Quiet s ∧ ¬ TellsTruth s)
      ∧ ∃ s, exec (step .PLATFORM_WIN9X) init late_message = some s ∧ Quiet s
        ∧ ¬ TellsTruth s := by
  constructor
  · refine ⟨_, rfl, ⟨rfl, rfl⟩, fun h => ?_⟩
    exact not_running_of_none rfl (h.mp rfl)
  · refine ⟨_, rfl, ⟨rfl, rfl⟩, fun h => ?_⟩
    exact absurd (h.mpr ⟨2, rfl, by decide⟩) Bool.false_ne_true

end W32HttpServer.StartButton

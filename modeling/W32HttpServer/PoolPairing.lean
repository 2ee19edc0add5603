/-
Whether each pool that is initialised is shut down, and only once.

`stop_server` shuts down the pool of the configuration `g_server_config` points to, and the
button decides whether a click starts or stops. The pointer is set on one path of
`start_server` and never cleared, and the button follows the messages of the listeners as
well as the clicks. So a start that fails behind a stopped run makes the next click shut that
run's pool down again, and a listener that ends by itself makes the next click start a second
server beside a pool that is open. `Tidy` leaves these two out, and then the pools alternate
(`pools_paired`).

What `thread_pool_init` and `iocp_pool_init` release on their own failure paths is part of
the call that fails.
-/
import Mathlib.Tactic.Common
import W32HttpServer.Lib.Alternation
import W32HttpServer.Lib.Transition
import W32HttpServer.MainWindow

set_option autoImplicit false

namespace W32HttpServer.PoolPairing

open W32HttpServer.MainWindow W32HttpServer.Lib.Transition W32HttpServer.Lib.Alternation

/-! ## What should hold -/

/-- What a call does to the pools. -/
def pool_event : call_t → Option (Event ℕ)
  | .pool_init run true => some (.opened run)
  | .pool_init _ false => some .failed
  | .pool_shutdown run => some (.closed run)
  | .accept _ _ => none
  | .closesocket _ _ => none

def pool_events (calls : List call_t) : List (Event ℕ) := calls.filterMap pool_event

/-- Initialised pools are shut down before the next one is initialised, no other pool is shut
down, and none is twice. -/
structure Paired (calls : List call_t) : Prop extends Alternating (pool_events calls) where
  never_twice : ∀ run, (pool_events calls).count (.closed run) ≤ 1

/-- A click that stops the server finds the configuration of the latest start, if any, and the
message of a listener is handled when all pools have been shut down. -/
def Tidy (s : state_t) : action_t → Prop
  | .click _ => s.started = true → ∀ run, s.g_server_config = some run → run + 1 = s.clicks
  | .deliver (.W32HTTP_SERVER_STOPPED _) =>
      ∀ run, .pool_init run true ∈ s.calls → .pool_shutdown run ∈ s.calls
  | _ => True

/-! ## The invariant -/

/-- What decides about the pools. -/
structure books_t where
  started : Bool
  clicks : ℕ
  config : Option ℕ
  events : List (Event ℕ)

def books (s : state_t) : books_t :=
  ⟨s.started, s.clicks, s.g_server_config, pool_events s.calls⟩

/-- Behind a start: the pointer names the open pool, or the start has failed and it names the
pool of an earlier run. -/
def Latest (b : books_t) : Prop :=
  openAfter b.events = some b.config
    ∨ openAfter b.events = some none ∧ ∃ run, b.config = some run ∧ run + 1 ≠ b.clicks

/-- Which pool is open, by the place of the window thread. -/
def Place (b : books_t) : window_t → Prop
  | .idle => (b.started = false → openAfter b.events = some none) ∧ (b.started = true → Latest b)
  | .message_box => b.started = false ∧ openAfter b.events = some none
  | .increment run | .detect_platform run | .pool_init run =>
      run + 1 = b.clicks ∧ b.config ≠ some run ∧ .opened run ∉ b.events
        ∧ openAfter b.events = some none
  | .create_event run => run + 1 = b.clicks ∧ openAfter b.events = some (some run)
  | .create_thread _ | .wait _ | .clear_flag | .pool_shutdown =>
      openAfter b.events = some b.config
  | .set_button true => Latest b
  | .close_socket | .clear_socket | .set_button false => openAfter b.events = some none

structure Inv (b : books_t) (w : window_t) : Prop where
  config : ∀ run, b.config = some run → run < b.clicks
  opened : ∀ run, .opened run ∈ b.events → run < b.clicks
  once : ∀ run, b.events.count (.opened run) ≤ 1
  place : Place b w

theorem init_inv : Inv (books init) init.window where
  config := fun _ h => absurd h (by simp [books, init])
  opened := fun _ h => absurd h (by simp [books, init, pool_events])
  once := fun _ => by simp [books, init, pool_events]
  place := ⟨fun _ => rfl, fun h => absurd h (by simp [books, init])⟩

theorem Latest.accepted {b : books_t} (h : Latest b) : ∃ o, openAfter b.events = some o := by
  rcases h with h | ⟨h, -⟩
  · exact ⟨_, h⟩
  · exact ⟨_, h⟩

/-- Wherever the window thread is, the pools have alternated so far. -/
theorem Place.accepted {b : books_t} {w : window_t} (h : Place b w) :
    ∃ o, openAfter b.events = some o := by
  cases w with
  | idle =>
      cases hs : b.started with
      | false => exact ⟨_, h.1 hs⟩
      | true => exact (h.2 hs).accepted
  | message_box => exact ⟨_, h.2⟩
  | increment run => exact ⟨_, h.2.2.2⟩
  | detect_platform run => exact ⟨_, h.2.2.2⟩
  | pool_init run => exact ⟨_, h.2.2.2⟩
  | create_event run => exact ⟨_, h.2⟩
  | set_button started =>
      cases started with
      | true => exact Latest.accepted h
      | false => exact ⟨_, h⟩
  | _ => exact ⟨_, h⟩

/-- **The invariant pairs the calls.** -/
theorem Inv.paired {s : state_t} (h : Inv (books s) s.window) : Paired s.calls := by
  obtain ⟨o, ho⟩ := h.place.accepted
  refine ⟨alternating_of_openAfter ho, fun run => ?_⟩
  have hcount := count_of_openAfter ho run
  have hone := h.once run
  dsimp only [books] at hcount hone
  omega

theorem mem_opened {calls : List call_t} {run : ℕ} :
    .opened run ∈ pool_events calls ↔ .pool_init run true ∈ calls := by
  rw [pool_events, List.mem_filterMap]
  constructor
  · rintro ⟨c, hc, heq⟩
    cases c with
    | pool_init r ok =>
        cases ok with
        | true =>
            obtain rfl : r = run := by simpa [pool_event] using heq
            exact hc
        | false => exact absurd heq (by simp [pool_event])
    | pool_shutdown r => exact absurd heq (by simp [pool_event])
    | accept caller sock => exact absurd heq (by simp [pool_event])
    | closesocket caller sock => exact absurd heq (by simp [pool_event])
  · exact fun h => ⟨_, h, rfl⟩

variable {platform : platform_type_t} {s s' : state_t}

/-- When all pools have been shut down, none is open. -/
theorem Inv.none_open {b : books_t} {w : window_t} (h : Inv b w)
    (hshut : ∀ run, .opened run ∈ b.events → .closed run ∈ b.events) :
    openAfter b.events = some none := by
  obtain ⟨o, ho⟩ := h.place.accepted
  cases o with
  | none => exact ho
  | some run =>
      obtain ⟨u, hu⟩ := last_of_open ho
      have hopened : .opened run ∈ b.events := by rw [hu]; simp
      have hcount := count_of_openAfter ho run
      have hpos := List.count_pos_iff.mpr (hshut run hopened)
      have hone := h.once run
      rw [if_pos rfl] at hcount
      omega

/-! ## Each kind of step -/

theorem Inv.moved {b : books_t} {w w' : window_t} (h : Inv b w) (hplace : Place b w') :
    Inv b w' :=
  ⟨h.config, h.opened, h.once, hplace⟩

theorem pool_events_snoc (calls : List call_t) (c : call_t) :
    pool_events (calls ++ [c]) = pool_events calls ++ (pool_event c).toList := by
  rw [pool_events, List.filterMap_append]
  cases hc : pool_event c with
  | none => rw [List.filterMap_cons_none hc]; rfl
  | some e => rw [List.filterMap_cons_some hc]; rfl

theorem click_inv {folder_selected : Bool} (h : Inv (books s) s.window) (hidle : s.window = .idle)
    (htidy : Tidy s (.click folder_selected)) :
    Inv (books (on_start_click s folder_selected)) (on_start_click s folder_selected).window := by
  have hplace := h.place
  rw [hidle] at hplace
  refine ⟨fun run hrun => Nat.lt_succ_of_lt (h.config run hrun),
    fun run hrun => Nat.lt_succ_of_lt (h.opened run hrun), h.once, ?_⟩
  dsimp only [on_start_click]
  split_ifs with hstarted hfolder
  · -- the pool that will be shut down is the open one
    rcases hplace.2 hstarted with hopen | ⟨-, run, hconfig, hne⟩
    · exact hopen
    · exact absurd (htidy hstarted run hconfig) hne
  · have hfalse : s.started = false := by simpa using hstarted
    have hnone := hplace.1 hfalse
    refine ⟨rfl, fun hconfig => ?_, fun hopened => ?_, hnone⟩
    · exact absurd (h.config _ hconfig) (Nat.lt_irrefl _)
    · exact absurd (h.opened _ hopened) (Nat.lt_irrefl _)
  · have hfalse : s.started = false := by simpa using hstarted
    exact ⟨hfalse, hplace.1 hfalse⟩

/-- A start that fails leaves the pointer where it was. -/
theorem latest_of_failed {b : books_t} {run : ℕ} (hrun : run + 1 = b.clicks)
    (hconfig : b.config ≠ some run) (hnone : openAfter b.events = some none) : Latest b := by
  cases hc : b.config with
  | none => exact Or.inl (by rw [hnone, hc])
  | some r =>
      refine Or.inr ⟨hnone, r, hc, fun heq => hconfig ?_⟩
      rw [hc]
      congr 1
      omega

theorem pool_init_inv {run : ℕ} {ok : Bool} (h : Inv (books s) s.window)
    (hw : s.window = .pool_init run) :
    Inv (books { s with
        calls := s.calls ++ [.pool_init run ok]
        window := if ok then .create_event run else .set_button true })
      (if ok then .create_event run else .set_button true) := by
  have hplace := h.place
  rw [hw] at hplace
  obtain ⟨hrun, hconfig, hfresh, hnone⟩ := hplace
  dsimp only [books] at hrun hconfig hfresh hnone
  cases ok with
  | true =>
      -- one more pool is open, and it is the only one
      have hevents : pool_events (s.calls ++ [.pool_init run true])
          = pool_events s.calls ++ [.opened run] := pool_events_snoc _ _
      refine ⟨h.config, fun r hr => ?_, fun r => ?_, hrun, ?_⟩
      · dsimp only [books] at hr ⊢
        rw [hevents, List.mem_append, List.mem_singleton] at hr
        rcases hr with hr | hr
        · exact h.opened r hr
        · obtain rfl : r = run := by simpa using hr
          omega
      · dsimp only [books]
        rw [hevents, List.count_append]
        by_cases hr : r = run
        · subst hr
          rw [List.count_eq_zero.mpr hfresh, Nat.zero_add]
          exact List.count_le_length
        · have hone := h.once r
          have hzero : [Event.opened run].count (.opened r) = 0 :=
            List.count_eq_zero.mpr (by simpa using hr)
          dsimp only [books] at hone
          omega
      · dsimp only [books]
        rw [hevents, openAfter_snoc, hnone]
        rfl
  | false =>
      -- a refused pool opens nothing
      have hevents : pool_events (s.calls ++ [.pool_init run false])
          = pool_events s.calls ++ [.failed] := pool_events_snoc _ _
      refine ⟨h.config, fun r hr => ?_, fun r => ?_, latest_of_failed hrun hconfig ?_⟩
      · dsimp only [books] at hr ⊢
        rw [hevents, List.mem_append, List.mem_singleton] at hr
        exact h.opened r (hr.resolve_right (by simp))
      · dsimp only [books]
        rw [hevents, List.count_append]
        exact h.once r
      · dsimp only [books]
        rw [hevents, openAfter_snoc, hnone]
        rfl

/-- The open pool is shut down, if there is one. -/
theorem pool_shutdown_inv (h : Inv (books s) s.window) (hw : s.window = .pool_shutdown) :
    Inv (books { s with
        calls := s.calls ++ (s.g_server_config.map call_t.pool_shutdown).toList
        window := .close_socket }) .close_socket := by
  have hplace := h.place
  rw [hw] at hplace
  dsimp only [Place, books] at hplace
  rcases hconfig : s.g_server_config with _ | run
  · rw [hconfig] at hplace
    have hcalls : s.calls ++ ((none : Option ℕ).map call_t.pool_shutdown).toList = s.calls :=
      List.append_nil _
    rw [hcalls]
    exact ⟨fun r hr => h.config r (hconfig.trans hr), h.opened, h.once, hplace⟩
  · rw [hconfig] at hplace
    have hevents : pool_events (s.calls ++ [.pool_shutdown run])
        = pool_events s.calls ++ [.closed run] := pool_events_snoc _ _
    have hopened : ∀ r, Event.opened r ∈ pool_events (s.calls ++ [.pool_shutdown run]) →
        .opened r ∈ pool_events s.calls := by
      intro r hr
      rw [hevents, List.mem_append, List.mem_singleton] at hr
      exact hr.resolve_right (by simp)
    refine ⟨fun r hr => h.config r (hconfig.trans hr), fun r hr => h.opened r (hopened r hr),
      fun r => ?_, ?_⟩
    · have hcount : (pool_events (s.calls ++ [.pool_shutdown run])).count (.opened r)
          = (pool_events s.calls).count (.opened r) := by
        rw [hevents, List.count_append]
        rfl
      exact hcount.trans_le (h.once r)
    · have hafter : openAfter (pool_events (s.calls ++ [.pool_shutdown run])) = some none := by
        rw [hevents, openAfter_snoc, hplace]
        exact if_pos rfl
      exact hafter

theorem handler_inv {ok : Bool} (h : Inv (books s) s.window) (hs : handler_step s ok = some s') :
    Inv (books s') s'.window := by
  have hplace := h.place
  unfold handler_step at hs
  split at hs
  next => exact absurd hs (by simp)
  next hw =>
    rw [hw] at hplace
    refine Option.some.inj hs ▸ h.moved ⟨fun _ => hplace.2, fun hstarted => ?_⟩
    exact absurd (hstarted.symm.trans hplace.1) (by simp)
  next run hw =>
    rw [hw] at hplace
    exact Option.some.inj hs ▸ h.moved hplace
  next run hw =>
    rw [hw] at hplace
    obtain ⟨hrun, hconfig, hfresh, hnone⟩ := hplace
    cases ok with
    | true => exact Option.some.inj hs ▸ h.moved ⟨hrun, hconfig, hfresh, hnone⟩
    | false => exact Option.some.inj hs ▸ h.moved (latest_of_failed hrun hconfig hnone)
  next run hw => exact Option.some.inj hs ▸ pool_init_inv h hw
  next run hw =>
    -- the pointer is set to the configuration whose pool is open
    rw [hw] at hplace
    obtain ⟨hrun, hopen⟩ := hplace
    refine Option.some.inj hs ▸ ⟨fun r hr => ?_, h.opened, h.once, hopen⟩
    obtain rfl : run = r := Option.some.inj hr
    exact Nat.lt_of_succ_le hrun.le
  next run hw =>
    rw [hw] at hplace
    split_ifs at hs
    · exact Option.some.inj hs ▸ h.moved hplace
    · exact Option.some.inj hs ▸ h.moved hplace
  next run hw =>
    rw [hw] at hplace
    split_ifs at hs
    exact Option.some.inj hs ▸ h.moved (Or.inl hplace)
  next hw =>
    rw [hw] at hplace
    exact Option.some.inj hs ▸ h.moved hplace
  next hw => exact Option.some.inj hs ▸ pool_shutdown_inv h hw
  next hw =>
    rw [hw] at hplace
    split_ifs at hs
    · exact Option.some.inj hs ▸ h.moved hplace
    · have hevents : pool_events (s.calls ++ [.closesocket none s.ssocket])
          = pool_events s.calls := (pool_events_snoc _ _).trans (List.append_nil _)
      have hbooks : books { s with
          calls := s.calls ++ [.closesocket none s.ssocket], window := .clear_socket }
            = books s := by
        simp only [books, hevents]
      refine Option.some.inj hs ▸ ?_
      rw [hbooks]
      exact h.moved hplace
  next hw =>
    rw [hw] at hplace
    exact Option.some.inj hs ▸ h.moved hplace
  next started hw =>
    rw [hw] at hplace
    cases started with
    | true =>
        refine Option.some.inj hs ▸ ⟨h.config, h.opened, h.once, ?_, fun _ => hplace⟩
        exact fun hfalse => absurd hfalse (by simp [books])
    | false =>
        refine Option.some.inj hs ▸ ⟨h.config, h.opened, h.once, fun _ => hplace, ?_⟩
        exact fun htrue => absurd htrue (by simp [books])

/-- A listener does nothing to the pools. -/
theorem books_of_listener {run : ℕ} {ok : Bool} (hs : listener_step platform s run ok = some s') :
    books s' = books s := by
  have hmoves := listener_moves hs
  obtain ⟨hconfig, l, hl, hsockets⟩ := listener_calls hs
  have hnone : ∀ c ∈ l, pool_event c = none := by
    intro c hc
    obtain ⟨sock, rfl | rfl⟩ := hsockets c hc
    · rfl
    · rfl
  have hevents : pool_events s'.calls = pool_events s.calls := by
    rw [hl, pool_events, List.filterMap_append, List.filterMap_eq_nil_iff.mpr hnone,
      List.append_nil, pool_events]
  rw [books, books, hmoves.started, hmoves.clicks, hconfig, hevents]

theorem deliver_inv {m : message_t} (h : Inv (books s) s.window) (htidy : Tidy s (.deliver m))
    (hwindow : takes_messages s.window) :
    Inv (books (on_message { s with pending := s.pending.erase m } m)) s.window := by
  cases m with
  | W32HTTP_SERVER_STARTED run => exact h
  | W32HTTP_SERVER_STOPPED run =>
      -- all pools have been shut down, so the next click may start one
      have hnone : openAfter (pool_events s.calls) = some none := by
        refine h.none_open fun r hr => ?_
        have hshut := htidy r (mem_opened.mp hr)
        exact List.mem_filterMap.mpr ⟨_, hshut, rfl⟩
      cases hw : s.window with
      | idle =>
          refine ⟨h.config, h.opened, h.once, fun _ => hnone, fun htrue => ?_⟩
          exact absurd htrue (by simp [books, on_message])
      | message_box => exact ⟨h.config, h.opened, h.once, rfl, hnone⟩
      | _ => rw [hw] at hwindow; exact absurd hwindow (by simp [takes_messages])

theorem step_inv (s : state_t) (a : action_t) (s' : state_t) (h : Inv (books s) s.window)
    (htidy : Tidy s a) (hs : step platform s a = some s') : Inv (books s') s'.window := by
  cases a with
  | click folder_selected =>
      rw [step] at hs
      split_ifs at hs with hidle
      exact Option.some.inj hs ▸ click_inv h hidle htidy
  | window ok => exact handler_inv h hs
  | listener run ok =>
      rw [books_of_listener hs, (listener_moves hs).window]
      exact h
  | deliver m =>
      rw [step] at hs
      split_ifs at hs with hc
      have hwindow : (on_message { s with pending := s.pending.erase m } m).window = s.window := by
        cases m <;> rfl
      refine Option.some.inj hs ▸ ?_
      rw [hwindow]
      exact deliver_inv h htidy hc.1

/-- Behind a stopped run a start fails, and the next click stops. -/
def failed_restart : List action_t :=
  click_actions ++ serve_win9x 0 ++ click_actions
    ++ [.click true, .window true, .window false, .window true, .click true, .window true,
      .window true]

/-- `accept` fails while the server runs, the message of the listener is handled, and the next
click starts. -/
def start_beside : List action_t :=
  click_actions ++ serve_win9x 0
    ++ [.listener 0 true, .listener 0 true, .listener 0 false, .listener 0 true, .listener 0 true,
      .deliver (.W32HTTP_SERVER_STOPPED 0)] ++ click_actions

end W32HttpServer.PoolPairing

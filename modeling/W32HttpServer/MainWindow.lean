/-
The start button and the servers it starts: `on_start_click` and the messages of the
listeners, with `start_server`, `stop_server` and the listener threads.

The window thread handles one click or message at a time, to its end, and a click and a
listener may interleave between any two of their steps. `SendNotifyMessage` leaves a message
that the window thread takes when it is idle or shows a message box. A run of the server is
named by the call of `on_start_click` that starts it: its configuration is a local variable of
that call. The listening socket is named by the run whose listener made it.

What becomes of clients is not part of this model, and neither are the accepts that
`run_server_nt` posts.
-/
import Mathlib.Logic.Function.Basic
import Mathlib.Tactic.Common
import W32HttpServer.Common

set_option autoImplicit false

namespace W32HttpServer.MainWindow

open W32HttpServer.Common

/-! ## The state -/

inductive platform_type_t
  | PLATFORM_WIN9X
  | PLATFORM_WINNT
  | PLATFORM_UNKNOWN
  deriving DecidableEq

/-- Where the window thread is. -/
inductive window_t
  /-- in the message loop -/
  | idle
  /-- "Please select a folder to serve first." -/
  | message_box
  /-- in front of `InterlockedIncrement` -/
  | increment (run : ℕ)
  /-- in `start_server` -/
  | detect_platform (run : ℕ)
  | pool_init (run : ℕ)
  | create_event (run : ℕ)
  | create_thread (run : ℕ)
  | wait (run : ℕ)
  /-- in `stop_server` -/
  | clear_flag
  | pool_shutdown
  | close_socket
  | clear_socket
  /-- in front of `set_button_server_status` -/
  | set_button (started : Bool)
  deriving DecidableEq

/-- Where a listener is. -/
inductive listener_t
  | absent
  | start
  | make_socket
  /-- in front of `iocp_pool_associate_socket`, and in the branch where that fails -/
  | associate
  | refuse
  | refuse_signal
  /-- in front of `SetEvent(cfg->lock)` -/
  | signal
  /-- in front of `while(g_is_server_run)`, and in its body -/
  | test
  | body
  /-- in `accept`, on the socket it was called with -/
  | accept (sock : Option ℕ)
  /-- behind the loop -/
  | close
  | notify
  | finished
  deriving DecidableEq

/-- The event `cfg->lock`; `NULL` when it was not created. -/
inductive lock_t
  | NULL
  | reset
  | signaled
  deriving DecidableEq

/-- A message with the run whose listener sent it, which the message does not carry. -/
inductive message_t
  | W32HTTP_SERVER_STARTED (run : ℕ)
  | W32HTTP_SERVER_STOPPED (run : ℕ)
  deriving DecidableEq

/-- A call on a pool or a listening socket, with the thread that makes it: the listener of a
run, or the window thread. -/
inductive call_t
  | pool_init (run : ℕ) (initialized : Bool)
  | pool_shutdown (run : ℕ)
  | accept (caller : ℕ) (sock : Option ℕ)
  | closesocket (caller : Option ℕ) (sock : Option ℕ)
  deriving DecidableEq

structure state_t where
  /-- `GWLP_USERDATA` of the start button -/
  started : Bool
  g_is_server_run : u32
  /-- `none` is `INVALID_SOCKET` -/
  ssocket : Option ℕ
  /-- whose configuration it points to -/
  g_server_config : Option ℕ
  /-- how often `on_start_click` was called -/
  clicks : ℕ
  window : window_t
  listeners : ℕ → listener_t
  lock : ℕ → lock_t
  pending : List message_t
  calls : List call_t
  /-- the server that the latest click started, unless that click stopped one -/
  server : Option ℕ

inductive action_t
  | click (folder_selected : Bool)
  /-- the next step of the handler, and whether the call in it succeeds -/
  | window (ok : Bool)
  | listener (run : ℕ) (ok : Bool)
  | deliver (m : message_t)
  deriving DecidableEq

def init : state_t where
  started := false
  g_is_server_run := 0
  ssocket := none
  g_server_config := none
  clicks := 0
  window := .idle
  listeners _ := .absent
  lock _ := .NULL
  pending := []
  calls := []
  server := none

/-! ## The window thread -/

/-- `on_start_click` up to its branch. -/
def on_start_click (s : state_t) (folder_selected : Bool) : state_t :=
  { s with
    clicks := s.clicks + 1
    server := none
    window :=
      if s.started then .clear_flag
      else if folder_selected then .increment s.clicks
      else .message_box }

/-- The branches of `on_start_click`, with `start_server` and `stop_server` called in them. -/
def handler_step (s : state_t) (ok : Bool) : Option state_t :=
  match s.window with
  | .idle => none
  | .message_box => some { s with window := .idle }
  | .increment run =>
      some { s with g_is_server_run := s.g_is_server_run + 1, window := .detect_platform run }
  -- the value that `start_server` returns is not looked at
  | .detect_platform run =>
      some { s with window := if ok then .pool_init run else .set_button true }
  | .pool_init run => some { s with
      calls := s.calls ++ [.pool_init run ok]
      window := if ok then .create_event run else .set_button true }
  | .create_event run => some { s with
      lock := Function.update s.lock run (if ok then .reset else .NULL)
      g_server_config := some run
      window := .create_thread run }
  | .create_thread run =>
      if ok then some { s with
        listeners := Function.update s.listeners run .start
        server := some run
        window := .wait run }
      else some { s with window := .wait run }
  | .wait run =>
      -- without an event there is nothing to wait for
      if s.lock run = .reset then none else some { s with window := .set_button true }
  | .clear_flag => some { s with g_is_server_run := 0, window := .pool_shutdown }
  | .pool_shutdown => some { s with
      calls := s.calls ++ (s.g_server_config.map call_t.pool_shutdown).toList
      window := .close_socket }
  | .close_socket =>
      if s.ssocket = none then some { s with window := .set_button false }
      else some { s with
        calls := s.calls ++ [.closesocket none s.ssocket]
        window := .clear_socket }
  | .clear_socket => some { s with ssocket := none, window := .set_button false }
  | .set_button started => some { s with started := started, window := .idle }

/-- `main_window_procedure` on a message of a listener. -/
def on_message (s : state_t) : message_t → state_t
  | .W32HTTP_SERVER_STARTED _ => s
  | .W32HTTP_SERVER_STOPPED _ => { s with started := false }

/-! ## The listeners -/

def SetEvent : lock_t → lock_t
  | .NULL => .NULL
  | _ => .signaled

def goto (s : state_t) (run : ℕ) (pc : listener_t) : state_t :=
  { s with listeners := Function.update s.listeners run pc }

/-- `listener_thread_proc` with `run_server_nt` or `run_server_win9x`. -/
def listener_step (platform : platform_type_t) (s : state_t) (run : ℕ) (ok : Bool) :
    Option state_t :=
  match s.listeners run with
  | .absent => none
  | .start => some { goto s run .make_socket with
      pending := s.pending ++ [.W32HTTP_SERVER_STARTED run] }
  | .make_socket => some { goto s run (if platform = .PLATFORM_WINNT then .associate else .signal) with
      ssocket := if ok then some run else none }
  | .associate => some (goto s run (if s.ssocket ≠ none ∧ ok then .signal else .refuse))
  | .refuse => some { goto s run .refuse_signal with
      calls := s.calls ++ [.closesocket (some run) s.ssocket] }
  | .refuse_signal => some { goto s run .notify with
      lock := Function.update s.lock run (SetEvent (s.lock run)) }
  | .signal => some { goto s run .test with
      lock := Function.update s.lock run (SetEvent (s.lock run)) }
  | .test => some (goto s run (if s.g_is_server_run ≠ 0 then .body else .close))
  | .body =>
      -- `Sleep(1000)`, or `accept`
      if platform = .PLATFORM_WINNT then some (goto s run .test)
      else some { goto s run (.accept s.ssocket) with
        calls := s.calls ++ [.accept run s.ssocket] }
  | .accept sock => some (goto s run (if sock ≠ none ∧ ok then .test else .close))
  | .close => some { goto s run .notify with
      calls := s.calls ++ [.closesocket (some run) s.ssocket] }
  | .notify => some { goto s run .finished with
      pending := s.pending ++ [.W32HTTP_SERVER_STOPPED run] }
  | .finished => none

/-! ## The system -/

/-- The window thread takes messages. -/
def takes_messages : window_t → Bool
  | .idle | .message_box => true
  | _ => false

def step (platform : platform_type_t) (s : state_t) : action_t → Option state_t
  | .click folder_selected =>
      if s.window = .idle then some (on_start_click s folder_selected) else none
  | .window ok => handler_step s ok
  | .listener run ok => listener_step platform s run ok
  | .deliver m =>
      if takes_messages s.window ∧ m ∈ s.pending then
        some (on_message { s with pending := s.pending.erase m } m)
      else none

/-! ## What a listener changes -/

/-- The data of the window thread and the other listeners are left alone, and a listener that
finishes leaves its message. -/
structure ListenerMoves (s s' : state_t) (run : ℕ) : Prop where
  started : s'.started = s.started
  window : s'.window = s.window
  clicks : s'.clicks = s.clicks
  server : s'.server = s.server
  lock : ∀ r, r ≠ run → s'.lock r = s.lock r
  others : ∀ r, r ≠ run → s'.listeners r = s.listeners r
  present : s.listeners run ≠ .absent
  unfinished : s.listeners run ≠ .finished
  kept : ∀ m ∈ s.pending, m ∈ s'.pending
  finishes : s'.listeners run = .finished → .W32HTTP_SERVER_STOPPED run ∈ s'.pending
  stopped : ∀ r, .W32HTTP_SERVER_STOPPED r ∈ s'.pending →
    .W32HTTP_SERVER_STOPPED r ∈ s.pending ∨ r = run ∧ s'.listeners run = .finished

variable {platform : platform_type_t} {s s' : state_t} {run : ℕ} {ok : Bool}

/-- A step inside `listener_thread_proc`. -/
theorem moves_of_goto {pc : listener_t} (hpresent : s.listeners run ≠ .absent)
    (hunfinished : s.listeners run ≠ .finished) (hpc : pc ≠ .finished)
    {lock : ℕ → lock_t} (hlock : ∀ r, r ≠ run → lock r = s.lock r)
    {pending : List message_t} (hkept : ∀ m ∈ s.pending, m ∈ pending)
    (hstopped : ∀ r, .W32HTTP_SERVER_STOPPED r ∈ pending → .W32HTTP_SERVER_STOPPED r ∈ s.pending)
    (ssocket : Option ℕ) (calls : List call_t) :
    ListenerMoves s { goto s run pc with
      lock := lock, pending := pending, ssocket := ssocket, calls := calls } run where
  started := rfl
  window := rfl
  clicks := rfl
  server := rfl
  lock := hlock
  others := fun _ hr => Function.update_of_ne hr _ _
  present := hpresent
  unfinished := hunfinished
  kept := hkept
  finishes := by
    intro h
    rw [goto] at h
    dsimp only at h
    rw [Function.update_self] at h
    exact absurd h hpc
  stopped := fun r hr => Or.inl (hstopped r hr)

/-- The same where no message is sent. -/
theorem moves_inside {pc pc' : listener_t} (hpc : s.listeners run = pc)
    (hinside : pc ≠ .absent ∧ pc ≠ .finished) (hpc' : pc' ≠ .finished) {lock : ℕ → lock_t}
    (hlock : ∀ r, r ≠ run → lock r = s.lock r) (ssocket : Option ℕ) (calls : List call_t) :
    ListenerMoves s { goto s run pc' with lock := lock, ssocket := ssocket, calls := calls } run :=
  moves_of_goto (hpc.trans_ne hinside.1) (hpc.trans_ne hinside.2) hpc' hlock (fun _ hm => hm)
    (fun _ hr => hr) ssocket calls

theorem listener_moves (h : listener_step platform s run ok = some s') :
    ListenerMoves s s' run := by
  have hlock : ∀ r, r ≠ run → s.lock r = s.lock r := fun _ _ => rfl
  have hset : ∀ r, r ≠ run →
      Function.update s.lock run (SetEvent (s.lock run)) r = s.lock r :=
    fun _ hr => Function.update_of_ne hr _ _
  unfold listener_step at h
  split at h
  next => exact absurd h (by simp)
  next hpc =>
    rw [Option.some.injEq] at h
    exact h ▸ moves_of_goto (by simp [hpc]) (by simp [hpc]) (by simp) hlock
      (fun m hm => List.mem_append_left _ hm) (fun r hr => by simpa using hr) _ _
  next hpc =>
    rw [Option.some.injEq] at h
    exact h ▸ moves_inside hpc (by simp) (by split_ifs <;> simp) hlock _ _
  next hpc =>
    rw [Option.some.injEq] at h
    exact h ▸ moves_inside hpc (by simp) (by split_ifs <;> simp) hlock _ _
  next hpc =>
    rw [Option.some.injEq] at h
    exact h ▸ moves_inside hpc (by simp) (by simp) hlock _ _
  next hpc =>
    rw [Option.some.injEq] at h
    exact h ▸ moves_inside hpc (by simp) (by simp) hset _ _
  next hpc =>
    rw [Option.some.injEq] at h
    exact h ▸ moves_inside hpc (by simp) (by simp) hset _ _
  next hpc =>
    rw [Option.some.injEq] at h
    exact h ▸ moves_inside hpc (by simp) (by split_ifs <;> simp) hlock _ _
  next hpc =>
    split_ifs at h
    · rw [Option.some.injEq] at h
      exact h ▸ moves_inside hpc (by simp) (by simp) hlock _ _
    · rw [Option.some.injEq] at h
      exact h ▸ moves_inside hpc (by simp) (by simp) hlock _ _
  next hpc =>
    rw [Option.some.injEq] at h
    exact h ▸ moves_inside hpc (by simp) (by split_ifs <;> simp) hlock _ _
  next hpc =>
    rw [Option.some.injEq] at h
    exact h ▸ moves_inside hpc (by simp) (by simp) hlock _ _
  next hpc =>
    -- the last step: the message is sent before the thread ends
    rw [Option.some.injEq] at h
    subst h
    refine ⟨rfl, rfl, rfl, rfl, hlock, fun r hr => Function.update_of_ne hr _ _, by simp [hpc],
      by simp [hpc], fun m hm => List.mem_append_left _ hm, fun _ => by simp, fun r hr => ?_⟩
    rw [List.mem_append, List.mem_singleton] at hr
    refine hr.imp_right fun heq => ?_
    obtain rfl : r = run := by simpa using heq
    exact ⟨rfl, Function.update_self _ _ _⟩
  next => exact absurd h (by simp)

/-- A listener leaves the configuration alone, and calls nothing but `accept` and
`closesocket`. -/
theorem listener_calls (h : listener_step platform s run ok = some s') :
    s'.g_server_config = s.g_server_config
      ∧ ∃ l, s'.calls = s.calls ++ l
        ∧ ∀ c ∈ l, ∃ sock, c = .accept run sock ∨ c = .closesocket (some run) sock := by
  have hnone : ∃ l, s.calls = s.calls ++ l
      ∧ ∀ c ∈ l, ∃ sock, c = .accept run sock ∨ c = .closesocket (some run) sock :=
    ⟨[], (List.append_nil _).symm, fun _ hc => absurd hc List.not_mem_nil⟩
  have haccept : ∃ l, s.calls ++ [.accept run s.ssocket] = s.calls ++ l
      ∧ ∀ c ∈ l, ∃ sock, c = .accept run sock ∨ c = .closesocket (some run) sock :=
    ⟨_, rfl, fun _ hc => ⟨s.ssocket, Or.inl (List.mem_singleton.mp hc)⟩⟩
  have hclose : ∃ l, s.calls ++ [.closesocket (some run) s.ssocket] = s.calls ++ l
      ∧ ∀ c ∈ l, ∃ sock, c = .accept run sock ∨ c = .closesocket (some run) sock :=
    ⟨_, rfl, fun _ hc => ⟨s.ssocket, Or.inr (List.mem_singleton.mp hc)⟩⟩
  unfold listener_step at h
  split at h
  next => exact absurd h (by simp)
  next => exact Option.some.inj h ▸ ⟨rfl, hnone⟩
  next => exact Option.some.inj h ▸ ⟨rfl, hnone⟩
  next => exact Option.some.inj h ▸ ⟨rfl, hnone⟩
  next => exact Option.some.inj h ▸ ⟨rfl, hclose⟩
  next => exact Option.some.inj h ▸ ⟨rfl, hnone⟩
  next => exact Option.some.inj h ▸ ⟨rfl, hnone⟩
  next => exact Option.some.inj h ▸ ⟨rfl, hnone⟩
  next =>
    split_ifs at h
    · exact Option.some.inj h ▸ ⟨rfl, hnone⟩
    · exact Option.some.inj h ▸ ⟨rfl, haccept⟩
  next => exact Option.some.inj h ▸ ⟨rfl, hnone⟩
  next => exact Option.some.inj h ▸ ⟨rfl, hclose⟩
  next => exact Option.some.inj h ▸ ⟨rfl, hnone⟩
  next => exact absurd h (by simp)

/-! ## What the handler changes -/

/-- The handler is about to return. -/
def Returns : window_t → Prop
  | .message_box | .set_button _ => True
  | _ => False

/-- The calls that are not made in the name of a listener. -/
def ByWindow : call_t → Prop
  | .accept _ _ | .closesocket (some _) _ => False
  | _ => True

/-- The call in hand creates at most its own listener, initialises at most its own pool, and
gives its configuration away in front of `CreateThread`. -/
structure HandlerMoves (s s' : state_t) : Prop where
  busy : s.window ≠ .idle
  clicks : s'.clicks = s.clicks
  returns : s'.window = .idle ↔ Returns s.window
  ssocket : s'.ssocket = s.ssocket ∨ s'.ssocket = none
  kept : ∀ c ∈ s.calls, c ∈ s'.calls
  made : ∀ c ∈ s'.calls, c ∈ s.calls ∨ ByWindow c
  pool_init : ∀ run, .pool_init run true ∈ s'.calls →
    .pool_init run true ∈ s.calls ∨ s.window = .pool_init run
  config : ∀ run, s'.g_server_config = some run →
    s.g_server_config = some run ∨ s.window = .create_event run
  created : s'.listeners = s.listeners ∨ ∃ run, s.window = .create_thread run
    ∧ s'.listeners = Function.update s.listeners run .start

theorem HandlerMoves.listeners (h : HandlerMoves s s') (run : ℕ) :
    s'.listeners run = s.listeners run ∨ s.window = .create_thread run := by
  rcases h.created with hsame | ⟨r, hw, hcreated⟩
  · exact Or.inl (congrFun hsame run)
  · by_cases hr : run = r
    · exact Or.inr (hr ▸ hw)
    · rw [hcreated]
      exact Or.inl (Function.update_of_ne hr _ _)

/-- A step that makes no call. -/
theorem handler_moves_silent {w : window_t} (hbusy : s.window ≠ .idle)
    (hreturns : w = .idle ↔ Returns s.window) (started : Bool) (g_is_server_run : u32)
    {ssocket : Option ℕ} (hssocket : ssocket = s.ssocket ∨ ssocket = none) :
    HandlerMoves s { s with
      started := started
      g_is_server_run := g_is_server_run
      ssocket := ssocket
      window := w } where
  busy := hbusy
  clicks := rfl
  returns := hreturns
  ssocket := hssocket
  kept := fun _ hc => hc
  made := fun _ hc => Or.inl hc
  pool_init := fun _ hc => Or.inl hc
  config := fun _ hrun => Or.inl hrun
  created := Or.inl rfl

/-- A step that makes calls and goes on in the handler. -/
theorem handler_moves_calls {w : window_t} {l : List call_t} (hbusy : s.window ≠ .idle)
    (hw : w ≠ .idle) (hreturns : ¬ Returns s.window) (hl : ∀ c ∈ l, ByWindow c)
    (hinit : ∀ run, .pool_init run true ∈ l → s.window = .pool_init run) :
    HandlerMoves s { s with calls := s.calls ++ l, window := w } where
  busy := hbusy
  clicks := rfl
  returns := iff_of_false hw hreturns
  ssocket := Or.inl rfl
  kept := fun _ hc => List.mem_append_left _ hc
  made := fun c hc => (List.mem_append.mp hc).imp_right (hl c)
  pool_init := fun run hc => (List.mem_append.mp hc).imp_right (hinit run)
  config := fun _ hrun => Or.inl hrun
  created := Or.inl rfl

theorem handler_moves (h : handler_step s ok = some s') : HandlerMoves s s' := by
  unfold handler_step at h
  split at h
  next => exact absurd h (by simp)
  next hw =>
    exact Option.some.inj h ▸
      handler_moves_silent (by simp [hw]) (by simp [hw, Returns]) _ _ (Or.inl rfl)
  next hw =>
    exact Option.some.inj h ▸
      handler_moves_silent (by simp [hw]) (by simp [hw, Returns]) _ _ (Or.inl rfl)
  next hw =>
    exact Option.some.inj h ▸
      handler_moves_silent (by simp [hw]) (by cases ok <;> simp [hw, Returns]) _ _ (Or.inl rfl)
  next run hw =>
    -- the call that initialises the pool of the run
    refine Option.some.inj h ▸ handler_moves_calls (by simp [hw]) (by cases ok <;> simp)
      (by simp [hw, Returns]) (fun c hc => ?_) (fun r hr => ?_)
    · rw [List.mem_singleton.mp hc]
      trivial
    · obtain rfl : r = run := by
        injection List.mem_singleton.mp hr
      exact hw
  next run hw =>
    -- the configuration is set to that run
    refine Option.some.inj h ▸ ⟨by simp [hw], rfl, by simp [hw, Returns], Or.inl rfl,
      fun _ hc => hc, fun _ hc => Or.inl hc, fun _ hc => Or.inl hc, fun r hr => ?_, Or.inl rfl⟩
    obtain rfl : run = r := Option.some.inj hr
    exact Or.inr hw
  next run hw =>
    -- the listener of the run starts, if its thread can be created
    split_ifs at h
    · exact Option.some.inj h ▸ ⟨by simp [hw], rfl, by simp [hw, Returns], Or.inl rfl,
        fun _ hc => hc, fun _ hc => Or.inl hc, fun _ hc => Or.inl hc, fun _ hrun => Or.inl hrun,
        Or.inr ⟨run, hw, rfl⟩⟩
    · exact Option.some.inj h ▸
        handler_moves_silent (by simp [hw]) (by simp [hw, Returns]) _ _ (Or.inl rfl)
  next hw =>
    split_ifs at h
    exact Option.some.inj h ▸
      handler_moves_silent (by simp [hw]) (by simp [hw, Returns]) _ _ (Or.inl rfl)
  next hw =>
    exact Option.some.inj h ▸
      handler_moves_silent (by simp [hw]) (by simp [hw, Returns]) _ _ (Or.inl rfl)
  next hw =>
    refine Option.some.inj h ▸ handler_moves_calls (by simp [hw]) (by simp)
      (by simp [hw, Returns]) (fun c hc => ?_) (fun r hr => ?_)
    · obtain ⟨r, -, rfl⟩ : ∃ r, s.g_server_config = some r ∧ .pool_shutdown r = c := by
        simpa using hc
      trivial
    · simp at hr
  next hw =>
    split_ifs at h
    · exact Option.some.inj h ▸
        handler_moves_silent (by simp [hw]) (by simp [hw, Returns]) _ _ (Or.inl rfl)
    · refine Option.some.inj h ▸ handler_moves_calls (by simp [hw]) (by simp)
        (by simp [hw, Returns]) (fun c hc => ?_) (fun r hr => by simp at hr)
      rw [List.mem_singleton.mp hc]
      trivial
  next hw =>
    exact Option.some.inj h ▸
      handler_moves_silent (by simp [hw]) (by simp [hw, Returns]) _ _ (Or.inr rfl)
  next hw =>
    exact Option.some.inj h ▸
      handler_moves_silent (by simp [hw]) (by simp [hw, Returns]) _ _ (Or.inl rfl)

theorem Returns.eq {w : window_t} (h : Returns w) :
    w = .message_box ∨ ∃ started, w = .set_button started := by
  cases w with
  | message_box => exact Or.inl rfl
  | set_button started => exact Or.inr ⟨started, rfl⟩
  | _ => exact absurd h id

/-- The step with which the handler returns only sets the button. -/
theorem handler_returns (hr : Returns s.window) (h : handler_step s ok = some s') :
    s'.listeners = s.listeners ∧ s'.g_server_config = s.g_server_config ∧ s'.calls = s.calls := by
  rcases hr.eq with hw | ⟨started, hw⟩
  · rw [handler_step, hw] at h
    exact Option.some.inj h ▸ ⟨rfl, rfl, rfl⟩
  · rw [handler_step, hw] at h
    exact Option.some.inj h ▸ ⟨rfl, rfl, rfl⟩

/-! ## Starts and stops -/

/-- A click and the first five steps of its handler: a start up to its wait, or all of a stop. -/
def click_actions : List action_t :=
  [.click true, .window true, .window true, .window true, .window true, .window true]

/-- The listener of `run` makes its socket and signals, and the start is over. -/
def serve_nt (run : ℕ) : List action_t :=
  [.listener run true, .listener run true, .listener run true, .listener run true,
    .window true, .window true]

def serve_win9x (run : ℕ) : List action_t :=
  [.listener run true, .listener run true, .listener run true, .window true, .window true]

end W32HttpServer.MainWindow

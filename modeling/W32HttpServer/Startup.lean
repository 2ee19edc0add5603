/-
`start_server` and `stop_server`, with the platform they are run on.

`start_server` makes all its preparations in the window thread: it fills in defaults, asks for
the platform, initialises the pool of that platform, creates the event `lock` and the listener
thread, and waits for the event. It returns -1 up to the pool and 0 from there on, whether there
is an event and a thread or not. `stop_server` shuts the pool down and closes the listening
socket. Of what a start opens, the event and the handle of the listener thread stay open: two
handles for each server that was started, those in `lock` and in `listener_thread`, and nothing
else (`servers_leave`). Either is missing only where the call that makes it has failed.

`g_server_config` is given here with the configuration it points to, as the start left it. The
sockets of the listener are opened by the listener and not part of this account: `stop_server`
closes whatever it finds in `ssocket`, and the call is written down among the notes.
-/
import Mathlib.Tactic.Abel
import W32HttpServer.Common
import W32HttpServer.ResponseFraming
import W32HttpServer.Platform
import W32HttpServer.Logging
import W32HttpServer.MainWindow
import W32HttpServer.PoolHandles
import W32HttpServer.Lib.Account

set_option autoImplicit false

namespace W32HttpServer.Startup

open W32HttpServer.Common W32HttpServer.Platform W32HttpServer.PoolHandles
open W32HttpServer.ResponseFraming (not_mem_fmt_d)
open W32HttpServer.Logging (StringCchVPrintf)
open W32HttpServer.MainWindow (platform_type_t)
open W32HttpServer.Lib.Account

/-! ## The platform -/

structure OSVERSIONINFO where
  dwMajorVersion : u32
  dwMinorVersion : u32
  dwBuildNumber : u32
  dwPlatformId : u32

def VER_PLATFORM_WIN32_WINDOWS : u32 := 1
def VER_PLATFORM_WIN32_NT : u32 := 2

structure platform_info_t where
  type : platform_type_t
  major_version : u32
  minor_version : u32
  build_number : u32
  version_string : List u8

/-- The `%d` conversion of an unsigned number. -/
def fmt_version (n : u32) : List u8 := fmt_d (toInt32 n)

/-- The name of a version, unless it is given none. -/
def version_name (osvi : OSVERSIONINFO) : Option (List u8) :=
  let major := fmt_version osvi.dwMajorVersion
  let minor := fmt_version osvi.dwMinorVersion
  if osvi.dwPlatformId = VER_PLATFORM_WIN32_WINDOWS then
    if osvi.dwMajorVersion = 4 then
      if osvi.dwMinorVersion = 0 then some (ascii "Windows 95")
      else if osvi.dwMinorVersion = 10 then some (ascii "Windows 98")
      else if osvi.dwMinorVersion = 90 then some (ascii "Windows ME")
      else some (ascii "Windows 9x (" ++ major ++ ascii "." ++ minor ++ ascii ")")
    else none
  else if osvi.dwPlatformId = VER_PLATFORM_WIN32_NT then
    if osvi.dwMajorVersion = 4 then some (ascii "Windows NT 4.0")
    else if osvi.dwMajorVersion = 5 then
      if osvi.dwMinorVersion = 0 then some (ascii "Windows 2000")
      else if osvi.dwMinorVersion = 1 then some (ascii "Windows XP")
      else some (ascii "Windows NT 5." ++ minor)
    else some (ascii "Windows NT " ++ major ++ ascii "." ++ minor)
  else some (ascii "Unknown Platform (" ++ major ++ ascii "." ++ minor ++ ascii ")")

def platform_type (dwPlatformId : u32) : platform_type_t :=
  if dwPlatformId = VER_PLATFORM_WIN32_WINDOWS then .PLATFORM_WIN9X
  else if dwPlatformId = VER_PLATFORM_WIN32_NT then .PLATFORM_WINNT
  else .PLATFORM_UNKNOWN

/-- What `GetVersionEx` fills in is `none` where it fails. -/
def detect_platform (info : platform_info_t) : Option OSVERSIONINFO → ℤ × platform_info_t
  | none => (-1, info)
  | some osvi =>
      (0, { type := platform_type osvi.dwPlatformId
            major_version := osvi.dwMajorVersion
            minor_version := osvi.dwMinorVersion
            build_number := osvi.dwBuildNumber
            -- a name that is not given leaves what was there
            version_string := ((version_name osvi).map (StringCchVPrintf 128)).getD
              info.version_string })

def is_iocp_supported (info : platform_info_t) (osvi : Option OSVERSIONINFO) : Bool :=
  let r := detect_platform info osvi
  r.1 = 0 ∧ r.2.type = .PLATFORM_WINNT ∧ r.2.major_version ≥ 4

/-- `start_server` goes by the type alone, so that on the first versions of NT it uses the ports
that `is_iocp_supported` says there are none of. -/
theorem not_is_iocp_supported {info : platform_info_t} {osvi : OSVERSIONINFO}
    (hnt : osvi.dwPlatformId = VER_PLATFORM_WIN32_NT) (hmajor : osvi.dwMajorVersion < 4) :
    (detect_platform info (some osvi)).2.type = .PLATFORM_WINNT
      ∧ is_iocp_supported info (some osvi) = false := by
  constructor
  · show platform_type osvi.dwPlatformId = .PLATFORM_WINNT
    rw [hnt]
    decide
  · have hlow : ¬ osvi.dwMajorVersion ≥ 4 := UInt32.not_le.mpr hmajor
    simp [is_iocp_supported, detect_platform, hlow]

/-- A text of at most so many characters. -/
def Short (n : ℕ) (s : List u8) : Prop := s.length ≤ n ∧ 0 ∉ s

instance (n : ℕ) (s : List u8) : Decidable (Short n s) :=
  inferInstanceAs (Decidable (s.length ≤ n ∧ 0 ∉ s))

theorem Short.append {m n : ℕ} {s t : List u8} (hs : Short m s) (ht : Short n t) :
    Short (m + n) (s ++ t) := by
  refine ⟨?_, fun hmem => (List.mem_append.mp hmem).elim hs.2 ht.2⟩
  rw [List.length_append]
  exact Nat.add_le_add hs.1 ht.1

theorem Short.mono {m n : ℕ} {s : List u8} (hs : Short m s) (hmn : m ≤ n) : Short n s :=
  ⟨hs.1.trans hmn, hs.2⟩

theorem short_fmt_version (n : u32) : Short 11 (fmt_version n) := by
  refine ⟨?_, not_mem_fmt_d (by decide) (by decide) (toInt32 n)⟩
  have hlow : -(2 ^ 31) ≤ toInt32 n := BitVec.le_toInt n.toBitVec
  have hhigh : toInt32 n < 2 ^ 31 := BitVec.toInt_lt
  have hdigits : (fmt_u (toInt32 n).natAbs).length ≤ 10 :=
    (fmt_u_length_le_iff (by decide)).mpr (by omega)
  rw [fmt_version, fmt_d]
  split_ifs
  · rw [List.length_cons]
    omega
  · omega

/-- Every name is a short text: a literal, with two numbers in it at most. -/
theorem short_version_name {osvi : OSVERSIONINFO} {name : List u8}
    (h : version_name osvi = some name) : Short 42 name := by
  have hmajor := short_fmt_version osvi.dwMajorVersion
  have hminor := short_fmt_version osvi.dwMinorVersion
  have hdot : Short 1 (ascii ".") := by decide
  have hclose : Short 1 (ascii ")") := by decide
  rw [version_name] at h
  split_ifs at h
  all_goals obtain rfl := Option.some.inj h
  · decide
  · decide
  · decide
  · exact (Short.append (.append (.append (.append (m := 12) (by decide) hmajor) hdot) hminor)
      hclose).mono (by decide)
  · decide
  · decide
  · decide
  · exact (Short.append (m := 13) (by decide) hminor).mono (by decide)
  · exact (Short.append (.append (.append (m := 11) (by decide) hmajor) hdot) hminor).mono
      (by decide)
  · exact (Short.append (.append (.append (.append (m := 18) (by decide) hmajor) hdot) hminor)
      hclose).mono (by decide)

/-- The name is stored whole, and so is the line that reports it. -/
theorem detected_name {info : platform_info_t} {osvi : OSVERSIONINFO} {name : List u8}
    (h : version_name osvi = some name) :
    cstr (detect_platform info (some osvi)).2.version_string = name
      ∧ cstr (StringCchVPrintf 255 (ascii "Detected platform: " ++ name))
        = ascii "Detected platform: " ++ name := by
  have hshort := short_version_name h
  have hline : Short 61 (ascii "Detected platform: " ++ name) :=
    Short.append (m := 19) (by decide) hshort
  have hstored : ∀ {n cch : ℕ} {s : List u8}, Short n s → n < cch →
      cstr (StringCchVPrintf cch s) = s := by
    intro n cch s hs hn
    have hfits := hs.1
    rw [StringCchVPrintf, List.take_of_length_le (by omega), cstr_append_nul,
      cstr_of_no_nul hs.2]
  refine ⟨?_, hstored hline (by decide)⟩
  show cstr (((version_name osvi).map (StringCchVPrintf 128)).getD info.version_string) = name
  rw [h]
  exact hstored hshort (by decide)

/-! ## The configuration -/

/-- The members of the union `threading`. -/
structure threading_t where
  thread_pool : thread_pool_t
  iocp_pool : iocp_pool_t

structure server_config_t where
  listen_port : UInt16
  max_clients : u32
  worker_threads : u32
  document_root : CString MAX_PATH
  lock : HANDLE
  platform_info : platform_info_t
  threading : threading_t

/-! ## Start and stop -/

/-- `start_server` returns, or waits for an event that nobody sets. -/
inductive start_t
  | returned (rc : ℤ)
  | waiting
  deriving DecidableEq

structure started_t where
  outcome : start_t
  cfg : server_config_t
  g_server_config : Option server_config_t
  /-- NULL too where no thread was asked for -/
  listener_thread : HANDLE

def print_log (str : List u8) : Program Unit := note (.print_log (cstr str))

/-- `StringCchPrintf` into `startup_message`, and the line of it. -/
def print_message (text : List u8) : Program Unit := print_log (StringCchVPrintf 255 text)

/-- `start_server` behind the pool. -/
def start_listener (cfg : server_config_t) : Program started_t := do
  let lock ← create .CreateEvent
  let cfg := { cfg with lock := lock }
  note .init_log
  print_message (ascii "Server starting on port " ++ fmt_u cfg.listen_port.toNat ++ ascii " with "
    ++ fmt_version cfg.worker_threads ++ ascii " worker threads")
  let listener_thread ← create .CreateThread
  -- the wait ends at once without an event, and otherwise when the listener sets it
  let outcome := if lock = .NULL ∨ listener_thread ≠ .NULL then .returned 0 else .waiting
  return ⟨outcome, cfg, some cfg, listener_thread⟩

/-- The pool for the platform. -/
def init_threading (cfg : server_config_t) : Program (ℤ × server_config_t) := do
  if cfg.platform_info.type = .PLATFORM_WINNT then
    let r ← iocp_pool_init cfg.threading.iocp_pool cfg.worker_threads
    print_log (if r.1 ≠ 0 then ascii "Failed to initialize IOCP thread pool"
      else ascii "Using IOCP for NT platform")
    return (r.1, { cfg with threading := { cfg.threading with iocp_pool := r.2 } })
  else
    let r ← thread_pool_init cfg.threading.thread_pool cfg.worker_threads
    print_log (if r.1 ≠ 0 then ascii "Failed to initialize thread pool"
      else ascii "Using thread pool for Win9x platform")
    return (r.1, { cfg with threading := { cfg.threading with thread_pool := r.2 } })

def with_defaults (cfg : server_config_t) : server_config_t :=
  { cfg with
    max_clients := if cfg.max_clients = 0 then 10 else cfg.max_clients
    worker_threads := if cfg.worker_threads = 0 then 4 else cfg.worker_threads }

def start_server (g_server_config : Option server_config_t) (cfg : server_config_t)
    (osvi : Option OSVERSIONINFO) : Program started_t := do
  let cfg := with_defaults cfg
  if cfg.document_root.bytes = [] then
    print_log (ascii "No document root specified. Please select a folder to serve.")
    return ⟨.returned (-1), cfg, g_server_config, .NULL⟩
  else
    let detected := detect_platform cfg.platform_info osvi
    let cfg := { cfg with platform_info := detected.2 }
    if detected.1 ≠ 0 then
      print_log (ascii "Failed to detect platform")
      return ⟨.returned (-1), cfg, g_server_config, .NULL⟩
    else
      print_message (ascii "Detected platform: " ++ cstr cfg.platform_info.version_string)
      let r ← init_threading cfg
      if r.1 ≠ 0 then return ⟨.returned (-1), r.2, g_server_config, .NULL⟩
      else start_listener r.2

/-- `if (g_server_config) { ... }` -/
def stop_threading : Option server_config_t → Program (Option server_config_t)
  | none => return none
  | some cfg => do
      if cfg.platform_info.type = .PLATFORM_WINNT then
        let pool ← iocp_pool_shutdown cfg.threading.iocp_pool
        return some { cfg with threading := { cfg.threading with iocp_pool := pool } }
      else
        let pool ← thread_pool_shutdown cfg.threading.thread_pool
        return some { cfg with threading := { cfg.threading with thread_pool := pool } }

/-- `if (ssocket != INVALID_SOCKET) { ... }` -/
def stop_listening (ssocket : SOCKET) : Program SOCKET := do
  if ssocket ≠ .INVALID_SOCKET then
    note (.closesocket ssocket)
    return .INVALID_SOCKET
  else return ssocket

/-- Whatever the listener has left in `ssocket`. -/
def stop_server (g_server_config : Option server_config_t) (ssocket : SOCKET) :
    Program (Option server_config_t × SOCKET) := do
  let g_server_config ← stop_threading g_server_config
  let ssocket ← stop_listening ssocket
  print_log (ascii "Server stopped")
  return (g_server_config, ssocket)

/-! ## What a start opens -/

section

variable {fails : call_t → Prop} {held : Multiset resource_t} {cfg : server_config_t}

/-- The handles of the pool of the platform. -/
def pool_handles (cfg : server_config_t) : List HANDLE :=
  if cfg.platform_info.type = .PLATFORM_WINNT then cfg.threading.iocp_pool.handles
  else cfg.threading.thread_pool.handles

/-- The pool of the platform has all its threads and all they need. -/
def PoolInitialized (cfg : server_config_t) : Prop :=
  if cfg.platform_info.type = .PLATFORM_WINNT then
    cfg.threading.iocp_pool.Initialized cfg.worker_threads.toNat
  else cfg.threading.thread_pool.Initialized cfg.worker_threads.toNat

/-- Why a start is refused: there is no folder, the version of the system is not to be had, or
the pool of the platform is refused. -/
def Unstartable (fails : call_t → Prop) (cfg : server_config_t) (osvi : Option OSVERSIONINFO) :
    Prop :=
  cfg.document_root.bytes = [] ∨ osvi = none ∨ Refusable fails (with_defaults cfg).worker_threads

/-- A start is refused for a reason and opens nothing, or opens a pool, an event and a thread. -/
inductive Started (fails : call_t → Prop) (g_server_config : Option server_config_t) (why : Prop)
    (held : Multiset resource_t) : started_t → Multiset resource_t → Prop
  | refused (cfg : server_config_t) (hwhy : why) :
      Started fails g_server_config why held ⟨.returned (-1), cfg, g_server_config, .NULL⟩ held
  | opened {outcome : start_t} {cfg : server_config_t} {listener_thread : HANDLE}
      (hpool : PoolInitialized cfg)
      (houtcome : outcome = if cfg.lock = .NULL ∨ listener_thread ≠ .NULL then .returned 0
        else .waiting)
      (hevent : cfg.lock = .NULL → fails .CreateEvent)
      (hthread : listener_thread = .NULL → fails .CreateThread) :
      Started fails g_server_config why held ⟨outcome, cfg, some cfg, listener_thread⟩
        (open_handles (pool_handles cfg) + (worth cfg.lock + (worth listener_thread + held)))

/-- Behind the pool a start is not refused any more. -/
theorem start_listener_leaves {g_server_config : Option server_config_t} {why : Prop}
    (hpool : PoolInitialized cfg) :
    Leaves fails (open_handles (pool_handles cfg) + held) (start_listener cfg)
      (Started fails g_server_config why held) := by
  rw [start_listener]
  apply leaves_bind
  apply leaves_create
  intro lock hevent
  apply leaves_bind
  apply leaves_note
  apply leaves_bind
  apply leaves_note
  apply leaves_bind
  apply leaves_create
  intro listener_thread hthread
  apply leaves_pure
  have hheld : worth listener_thread + (worth lock + (open_handles (pool_handles cfg) + held))
      = open_handles (pool_handles cfg) + (worth lock + (worth listener_thread + held)) := by abel
  rw [hheld]
  have hpool' : PoolInitialized { cfg with lock := lock } := hpool
  exact Started.opened hpool' rfl hevent hthread

/-- The pool of the platform is all there, or nothing of it. -/
theorem init_threading_leaves (cfg : server_config_t) :
    Leaves fails held (init_threading cfg)
      (AllOrNothing PoolInitialized pool_handles (Refusable fails cfg.worker_threads) held) := by
  rw [init_threading]
  split_ifs with hnt
  · apply leaves_bind
    refine (iocp_pool_init_leaves _ _).mono fun r held' hr => ?_
    apply leaves_bind
    apply leaves_note
    apply leaves_pure
    rcases hr with ⟨hrc, hpool, hheld⟩ | hrefused
    · refine Or.inl ⟨hrc, ?_, ?_⟩
      · rw [PoolInitialized, if_pos hnt]
        exact hpool
      · rw [pool_handles, if_pos hnt]
        exact hheld
    · exact Or.inr hrefused
  · apply leaves_bind
    refine (thread_pool_init_leaves _ _).mono fun r held' hr => ?_
    apply leaves_bind
    apply leaves_note
    apply leaves_pure
    rcases hr with ⟨hrc, hpool, hheld⟩ | hrefused
    · refine Or.inl ⟨hrc, ?_, ?_⟩
      · rw [PoolInitialized, if_neg hnt]
        exact hpool
      · rw [pool_handles, if_neg hnt]
        exact hheld
    · exact Or.inr hrefused

/-- **A start** opens all it needs or nothing. -/
theorem start_server_leaves (g_server_config : Option server_config_t) (cfg : server_config_t)
    (osvi : Option OSVERSIONINFO) :
    Leaves fails held (start_server g_server_config cfg osvi)
      (Started fails g_server_config (Unstartable fails cfg osvi) held) := by
  rw [start_server]
  dsimp only
  split_ifs with hroot hdetected
  · apply leaves_bind
    apply leaves_note
    exact leaves_pure (.refused _ (Or.inl hroot))
  · apply leaves_bind
    apply leaves_note
    -- it is only without a version that nothing is detected
    have hnone : osvi = none := by
      cases osvi with
      | none => rfl
      | some osvi => exact absurd rfl hdetected
    exact leaves_pure (.refused _ (Or.inr (Or.inl hnone)))
  · apply leaves_bind
    apply leaves_note
    apply leaves_bind
    refine (init_threading_leaves _).mono fun r held' hr => ?_
    rcases hr with ⟨hrc, hpool, rfl⟩ | ⟨hrc, hwhy, rfl⟩
    · rw [if_neg (not_not.mpr hrc)]
      exact start_listener_leaves hpool
    · rw [if_pos (by rw [hrc]; decide)]
      exact leaves_pure (.refused _ (Or.inr (Or.inr hwhy)))

/-! ## What a stop closes -/

theorem stop_threading_leaves (hpool : PoolInitialized cfg) :
    Leaves fails (open_handles (pool_handles cfg) + held) (stop_threading (some cfg))
      fun _ held' => held' = held := by
  rw [stop_threading]
  rw [PoolInitialized] at hpool
  rw [pool_handles]
  split_ifs at hpool ⊢ with hnt
  · apply leaves_bind
    apply hpool.shutdown_leaves
    exact leaves_pure rfl
  · apply leaves_bind
    apply hpool.shutdown_leaves
    exact leaves_pure rfl

/-- Behind it there is no listening socket to close. -/
theorem stop_listening_leaves (ssocket : SOCKET) :
    Leaves fails held (stop_listening ssocket)
      fun ssocket' held' => held' = held ∧ ssocket' = .INVALID_SOCKET := by
  rw [stop_listening]
  split_ifs with hopen
  · apply leaves_bind
    apply leaves_note
    exact leaves_pure ⟨rfl, rfl⟩
  · exact leaves_pure ⟨rfl, not_not.mp hopen⟩

/-- **A stop** closes the pool of the configuration it finds, and leaves no socket to close. -/
theorem stop_server_leaves (hpool : PoolInitialized cfg) (ssocket : SOCKET) :
    Leaves fails (open_handles (pool_handles cfg) + held) (stop_server (some cfg) ssocket)
      fun r held' => held' = held ∧ r.2 = .INVALID_SOCKET := by
  rw [stop_server]
  apply leaves_bind
  refine (stop_threading_leaves hpool).mono fun g_server_config held1 h1 => ?_
  rw [h1]
  apply leaves_bind
  refine (stop_listening_leaves ssocket).mono fun ssocket' held2 h2 => ?_
  apply leaves_bind
  apply leaves_note
  exact leaves_pure h2

end

/-! ## One server after the other -/

/-- What a server is started with, and the socket that its listener has left in `ssocket` when it
is stopped. -/
structure run_t where
  cfg : server_config_t
  osvi : Option OSVERSIONINFO
  ssocket : SOCKET

/-- A server that was started: its configuration, and the handle of its listener thread. -/
structure server_t where
  cfg : server_config_t
  listener_thread : HANDLE

/-- Each server is stopped before the next one is started, and a start that was refused is not.
The servers that were started, unless a start waits for ever. -/
def servers : List run_t → Option server_config_t → Program (Option (List server_t))
  | [], _ => return some []
  | run :: runs, g_server_config => do
      let started ← start_server g_server_config run.cfg run.osvi
      match started.outcome with
      | .waiting => return none
      | .returned rc =>
          if rc ≠ 0 then servers runs started.g_server_config
          else
            let (g_server_config, _) ← stop_server started.g_server_config run.ssocket
            let rest ← servers runs g_server_config
            return rest.map (⟨started.cfg, started.listener_thread⟩ :: ·)

/-- The two handles of a server that are never closed. -/
def server_t.worth (server : server_t) : Multiset resource_t :=
  PoolHandles.worth server.cfg.lock + PoolHandles.worth server.listener_thread

/-- What is open behind a list of servers: the event and the thread of each, and neither is
missing but for a failed call. There are as many servers as starts, but for a start that was
refused for a reason. -/
structure EventAndThread (fails : call_t → Prop) (runs : List run_t) (held : Multiset resource_t)
    (started : List server_t) (held' : Multiset resource_t) : Prop where
  held : held' = (started.map server_t.worth).sum + held
  event : ∀ server ∈ started, server.cfg.lock = .NULL → fails .CreateEvent
  thread : ∀ server ∈ started, server.listener_thread = .NULL → fails .CreateThread
  all_started : started.length < runs.length → ∃ run ∈ runs, Unstartable fails run.cfg run.osvi

/-- What the servers of a list leave, unless the window thread waits for a listener thread that
there is none of. -/
def Leave (fails : call_t → Prop) (runs : List run_t) (held : Multiset resource_t)
    (started : Option (List server_t)) (held' : Multiset resource_t) : Prop :=
  match started with
  | none => fails .CreateThread
  | some started => EventAndThread fails runs held started held'

section

variable {fails : call_t → Prop} {runs : List run_t} {held held' : Multiset resource_t}

theorem Leave.nil : Leave fails [] held (some []) held where
  held := (zero_add held).symm
  event := fun _ hserver => absurd hserver List.not_mem_nil
  thread := fun _ hserver => absurd hserver List.not_mem_nil
  all_started := fun hless => absurd hless (lt_irrefl _)

/-- A start that was refused adds nothing. -/
theorem Leave.refused {run : run_t} (hwhy : Unstartable fails run.cfg run.osvi)
    {started : Option (List server_t)} (h : Leave fails runs held started held') :
    Leave fails (run :: runs) held started held' := by
  cases started with
  | none => exact h
  | some started => exact ⟨h.held, h.event, h.thread, fun _ => ⟨run, List.mem_cons_self, hwhy⟩⟩

/-- A server that was started adds its event and its thread. -/
theorem Leave.started {run : run_t} {cfg : server_config_t} {listener_thread : HANDLE}
    (hevent : cfg.lock = .NULL → fails .CreateEvent)
    (hthread : listener_thread = .NULL → fails .CreateThread) {rest : Option (List server_t)}
    (h : Leave fails runs (worth cfg.lock + (worth listener_thread + held)) rest held') :
    Leave fails (run :: runs) held (rest.map (⟨cfg, listener_thread⟩ :: ·)) held' := by
  cases rest with
  | none => exact h
  | some rest =>
      refine ⟨?_, ?_, ?_, fun hless => ?_⟩
      · rw [h.held, List.map_cons, List.sum_cons, server_t.worth]
        abel
      · intro server hserver
        rcases List.mem_cons.mp hserver with rfl | hserver
        · exact hevent
        · exact h.event server hserver
      · intro server hserver
        rcases List.mem_cons.mp hserver with rfl | hserver
        · exact hthread
        · exact h.thread server hserver
      · rw [List.length_cons, List.length_cons] at hless
        obtain ⟨run', hmem, hwhy⟩ := h.all_started (by omega)
        exact ⟨run', List.mem_cons_of_mem run hmem, hwhy⟩

end

end W32HttpServer.Startup

/-
What the two pools open and close: `thread_pool_init` and `iocp_pool_init`, and the shutdown
of each.

An initialisation makes up to twelve calls that may fail, and each has its own way out. The
Win9x pool leaves by `thread_pool_shutdown`, which closes what is not NULL, and the NT pool
closes by hand what it has opened, up to its threads. Either way a pool that could not be
initialised leaves nothing open, and one that could leaves what its shutdown closes
(`thread_pool_init_leaves`, `iocp_pool_init_leaves`). A pool is not refused without a reason: the
number of threads is out of range, or a call has failed.

Calls that open nothing and whose result nobody looks at are left out: the waits, `SetEvent`
and `PostQueuedCompletionStatus`.
-/
import Mathlib.Tactic.Abel
import W32HttpServer.Common
import W32HttpServer.Platform
import W32HttpServer.ThreadPool
import W32HttpServer.Logging
import W32HttpServer.Lib.Ledger
import W32HttpServer.Lib.Account

set_option autoImplicit false

namespace W32HttpServer.PoolHandles

open W32HttpServer.Common W32HttpServer.Platform
open W32HttpServer.Logging (StringCchVPrintf sizeof_buf)
open W32HttpServer.Lib.Ledger W32HttpServer.Lib.Account

/-! ## The system -/

/-- What is opened and closed. A thread is counted by its handle: that it ends on its own is not
part of the account. -/
inductive resource_t
  | handle (h : HANDLE)
  | socket (s : SOCKET)
  deriving DecidableEq

/-- The functions whose result is looked at. -/
inductive call_t
  | CreateSemaphore
  | CreateMutex
  | CreateEvent
  | CreateThread
  | CreateIoCompletionPort
  | socket
  | WSAIoctl
  deriving DecidableEq

/-- What is done without a result, in order: the lines of the log, and the call that closes the
listening socket, which is not one of the resources here. -/
inductive note_t
  | print_log (str : List u8)
  | init_log
  | closesocket (s : SOCKET)
  deriving DecidableEq

/-- Code that calls the system: it decides by the answers of the calls it names, and leaves a
ledger of what it opened and closed. -/
abbrev Program := Accounted call_t resource_t note_t

/-- A function that returns a handle, or NULL. -/
def create (call : call_t) : Program HANDLE := do
  match ← acquire call fun n => .handle (.of n) with
  | none => return .NULL
  | some n => return .of n

/-- The handle need not be open as far as this definition goes. That it is, at every call, is what
the specifications below say. -/
def CloseHandle (h : HANDLE) : Program Unit := release (.handle h)

/-- `socket(AF_INET, SOCK_STREAM, IPPROTO_TCP)`, or `INVALID_SOCKET`. -/
def socket : Program SOCKET := do
  match ← acquire .socket fun n => .socket (.of n) with
  | none => return .INVALID_SOCKET
  | some n => return .of n

def closesocket (sock : SOCKET) : Program Unit := release (.socket sock)

/-- Whether the address of an extension function was found. -/
def WSAIoctl : Program Bool := attempt .WSAIoctl

/-- What reaches the log is the formatted text, cut to the buffer it is formatted into. -/
def log_printf (text : List u8) : Program Unit :=
  note (.print_log (cstr (StringCchVPrintf (sizeof_buf - 1) text)))

/-! ## The pools -/

abbrev MAX_WORKER_THREADS : ℕ := 8

/-- The pool of the Win9x back end: the work list of `ThreadPool`, and the handles around it. -/
structure thread_pool_t extends ThreadPool.thread_pool_t where
  worker_threads : List HANDLE
  work_semaphore : HANDLE
  work_mutex : HANDLE
  shutdown_event : HANDLE
  thread_count : ℕ
  is_shutdown : Bool

/-- The pool of the NT back end. The completion port takes the place of the work list, the
semaphore and the mutex. -/
structure iocp_pool_t where
  completion_port : HANDLE
  worker_threads : List HANDLE
  shutdown_event : HANDLE
  thread_count : ℕ
  is_shutdown : Bool

/-- The pool with another array of threads: what changes in it while `create_workers` runs. -/
def thread_pool_t.with_threads (pool : thread_pool_t) (worker_threads : List HANDLE) :
    thread_pool_t :=
  { pool with worker_threads := worker_threads }

/-- The same for the NT pool. -/
def iocp_pool_t.with_threads (pool : iocp_pool_t) (worker_threads : List HANDLE) : iocp_pool_t :=
  { pool with worker_threads := worker_threads }

/-- The array of the threads behind `ZeroMemory`. -/
def no_threads : List HANDLE := List.replicate MAX_WORKER_THREADS .NULL

/-- `if (h) CloseHandle(h);` -/
def close_open (h : HANDLE) : Program Unit := if h ≠ .NULL then CloseHandle h else pure ()

/-- The loop over the threads of a pool, each waited for and closed. -/
def close_workers : List HANDLE → Program Unit
  | [] => pure ()
  | h :: hs => do
      close_open h
      close_workers hs

/-- The threads are closed up to `thread_count` and the three objects behind them, each if it is
there. It is a stop as well as the way out of an initialisation that got no further. -/
def thread_pool_shutdown (pool : thread_pool_t) : Program thread_pool_t := do
  close_workers (pool.worker_threads.take pool.thread_count)
  close_open pool.work_semaphore
  close_open pool.work_mutex
  close_open pool.shutdown_event
  log_printf (ascii "Thread pool shutdown complete")
  return { pool with is_shutdown := true }

/-- As above, with the two objects of the NT pool. -/
def iocp_pool_shutdown (pool : iocp_pool_t) : Program iocp_pool_t := do
  close_workers (pool.worker_threads.take pool.thread_count)
  close_open pool.completion_port
  close_open pool.shutdown_event
  log_printf (ascii "IOCP thread pool shutdown complete")
  return { pool with is_shutdown := true }

/-- The loop that creates the threads of a pool: from thread `i` on, and so many to come. -/
def create_workers {P : Type} (pool : List HANDLE → P) (shutdown : P → Program P)
    (worker_threads : List HANDLE) (i : ℕ) : ℕ → Program (ℤ × P)
  | 0 => return (0, pool worker_threads)
  | to_come + 1 => do
      let h ← create .CreateThread
      if h = .NULL then
        let p ← shutdown (pool (worker_threads.set i h))
        return (-1, p)
      else create_workers pool shutdown (worker_threads.set i h) (i + 1) to_come

/-- The three objects are created before any of them is looked at. -/
def thread_pool_init (pool : thread_pool_t) (thread_count : u32) : Program (ℤ × thread_pool_t) := do
  if thread_count = 0 ∨ thread_count.toNat > MAX_WORKER_THREADS then return (-1, pool)
  else
    let work_semaphore ← create .CreateSemaphore
    let work_mutex ← create .CreateMutex
    let shutdown_event ← create .CreateEvent
    let pool : thread_pool_t :=
      { ThreadPool.thread_pool_init with
        worker_threads := no_threads
        work_semaphore := work_semaphore
        work_mutex := work_mutex
        shutdown_event := shutdown_event
        thread_count := thread_count.toNat
        is_shutdown := false }
    if work_semaphore = .NULL ∨ work_mutex = .NULL ∨ shutdown_event = .NULL then
      let pool ← thread_pool_shutdown pool
      return (-1, pool)
    else
      let r ← create_workers pool.with_threads thread_pool_shutdown no_threads 0 thread_count.toNat
      if r.1 = 0 then
        log_printf (ascii "Thread pool initialized with " ++ fmt_d (toInt32 thread_count)
          ++ ascii " worker threads")
      return r

/-- Each object is looked at before the next is created, and each way out closes by hand what there
is. The socket only serves to ask for the two extension functions. -/
def iocp_pool_init (pool : iocp_pool_t) (thread_count : u32) : Program (ℤ × iocp_pool_t) := do
  if thread_count = 0 ∨ thread_count.toNat > MAX_WORKER_THREADS then return (-1, pool)
  else
    let pool : iocp_pool_t := ⟨.NULL, no_threads, .NULL, thread_count.toNat, false⟩
    let completion_port ← create .CreateIoCompletionPort
    let pool := { pool with completion_port := completion_port }
    if completion_port = .NULL then return (-1, pool)
    else
      let shutdown_event ← create .CreateEvent
      let pool := { pool with shutdown_event := shutdown_event }
      if shutdown_event = .NULL then
        CloseHandle completion_port
        return (-1, pool)
      else
        let dummy_socket ← socket
        if dummy_socket = .INVALID_SOCKET then
          CloseHandle completion_port
          CloseHandle shutdown_event
          return (-1, pool)
        else if ¬ (← WSAIoctl) then
          closesocket dummy_socket
          CloseHandle completion_port
          CloseHandle shutdown_event
          return (-1, pool)
        else if ¬ (← WSAIoctl) then
          closesocket dummy_socket
          CloseHandle completion_port
          CloseHandle shutdown_event
          return (-1, pool)
        else
          closesocket dummy_socket
          let r ← create_workers pool.with_threads iocp_pool_shutdown no_threads 0
            thread_count.toNat
          if r.1 = 0 then
            log_printf (ascii "IOCP thread pool initialized with " ++ fmt_d (toInt32 thread_count)
              ++ ascii " worker threads")
          return r

/-! ## What is open -/

/-- What is open when a call has returned `h`. -/
def worth (h : HANDLE) : Multiset resource_t := if h = .NULL then 0 else {.handle h}

/-- What is open when calls have returned these handles, some of them NULL. -/
def open_handles (hs : List HANDLE) : Multiset resource_t := (hs.map worth).sum

@[simp] theorem open_handles_nil : open_handles [] = 0 := rfl

@[simp] theorem open_handles_cons (h : HANDLE) (hs : List HANDLE) :
    open_handles (h :: hs) = worth h + open_handles hs := by
  rw [open_handles, open_handles, List.map_cons, List.sum_cons]

@[simp] theorem open_handles_append (hs hs' : List HANDLE) :
    open_handles (hs ++ hs') = open_handles hs + open_handles hs' := by
  rw [open_handles, open_handles, open_handles, List.map_append, List.sum_append]

@[simp] theorem worth_null : worth .NULL = 0 := rfl

theorem worth_of_ne {h : HANDLE} (hne : h ≠ .NULL) : worth h = {.handle h} := if_neg hne

theorem open_handles_replicate_null (n : ℕ) : open_handles (List.replicate n .NULL) = 0 := by
  induction n with
  | zero => rfl
  | succ n ih => rw [List.replicate_succ, open_handles_cons, ih, worth_null, zero_add]

/-! ## Single calls -/

section

variable {fails : call_t → Prop} {held : Multiset resource_t}

/-- A handle that was created is open, and NULL is the sign of a failure. -/
theorem leaves_create {call : call_t} {Q : HANDLE → Multiset resource_t → Prop}
    (hQ : ∀ h, (h = .NULL → fails call) → Q h (worth h + held)) :
    Leaves fails held (create call) Q := by
  rw [create]
  apply leaves_bind
  apply leaves_acquire
  · intro hfail
    apply leaves_pure
    simpa using hQ .NULL fun _ => hfail
  · intro n
    apply leaves_pure
    have hn := hQ (.of n) nofun
    rwa [worth_of_ne (by simp), Multiset.singleton_add] at hn

/-- Behind `socket` there is one more socket open, or it has failed and returned
`INVALID_SOCKET`. -/
theorem leaves_socket {Q : SOCKET → Multiset resource_t → Prop}
    (hfail : fails .socket → Q .INVALID_SOCKET held)
    (hopen : ∀ n, Q (.of n) (.socket (.of n) ::ₘ held)) : Leaves fails held socket Q := by
  rw [socket]
  apply leaves_bind
  apply leaves_acquire
  · exact fun hfailed => leaves_pure (hfail hfailed)
  · exact fun n => leaves_pure (hopen n)

/-- A handle that is not NULL may be closed by hand if it is open. -/
theorem leaves_CloseHandle {Q : Unit → Multiset resource_t → Prop} {h : HANDLE} (hne : h ≠ .NULL)
    (hQ : Q () held) : Leaves fails (worth h + held) (CloseHandle h) Q := by
  rw [worth_of_ne hne, Multiset.singleton_add]
  exact leaves_release_cons hQ

/-- A handle that is tested first may be NULL: then nothing of it is open, and nothing is closed. -/
theorem leaves_close_open {Q : Unit → Multiset resource_t → Prop} {h : HANDLE} (hQ : Q () held) :
    Leaves fails (worth h + held) (close_open h) Q := by
  rw [close_open]
  split_ifs with hne
  · exact leaves_CloseHandle hne hQ
  · apply leaves_pure
    rwa [not_not.mp hne, worth_null, zero_add]

theorem leaves_log_printf {Q : Unit → Multiset resource_t → Prop} {text : List u8}
    (hQ : Q () held) : Leaves fails held (log_printf text) Q :=
  leaves_note hQ

/-- The threads are closed, and what else is open stays. -/
theorem leaves_close_workers {Q : Unit → Multiset resource_t → Prop} (hs : List HANDLE)
    (hQ : Q () held) : Leaves fails (open_handles hs + held) (close_workers hs) Q := by
  induction hs with
  | nil =>
      rw [open_handles_nil, zero_add]
      exact leaves_pure hQ
  | cons h hs ih =>
      rw [open_handles_cons, add_assoc, close_workers]
      apply leaves_bind
      exact leaves_close_open ih

/-! ## The loop over the threads -/

/-- The array with the threads that have been created. -/
def worker_array (created : List HANDLE) : List HANDLE :=
  created ++ List.replicate (MAX_WORKER_THREADS - created.length) .NULL

/-- The padding of the array is not open. -/
theorem open_handles_worker_array (created : List HANDLE) :
    open_handles (worker_array created) = open_handles created := by
  rw [worker_array, open_handles_append, open_handles_replicate_null, add_zero]

/-- The loops of a shutdown reach all threads. -/
theorem open_handles_take {created : List HANDLE} {n : ℕ} (hn : created.length ≤ n) :
    open_handles ((worker_array created).take n) = open_handles created := by
  rw [worker_array, List.take_append, List.take_of_length_le hn, List.take_replicate,
    open_handles_append, open_handles_replicate_null, add_zero]

/-- One more thread takes the place of one NULL. -/
theorem worker_array_pad {created : List HANDLE} (hlt : created.length < MAX_WORKER_THREADS)
    (h : HANDLE) : ∃ n, MAX_WORKER_THREADS - created.length = n + 1
      ∧ MAX_WORKER_THREADS - (created ++ [h]).length = n := by
  refine ⟨MAX_WORKER_THREADS - created.length - 1, by omega, ?_⟩
  rw [List.length_append, List.length_singleton]
  omega

/-- The loop writes the next thread over the first NULL. -/
theorem worker_array_set {created : List HANDLE} (hlt : created.length < MAX_WORKER_THREADS)
    (h : HANDLE) : (worker_array created).set created.length h = worker_array (created ++ [h]) := by
  obtain ⟨n, hn, hlen⟩ := worker_array_pad hlt h
  rw [worker_array, worker_array, hn, hlen, List.set_append_right _ _ (le_refl _), Nat.sub_self,
    List.replicate_succ, List.set_cons_zero, List.append_assoc, List.singleton_append]

/-- The thread that could not be created leaves the array as it was. -/
theorem worker_array_null {created : List HANDLE} (hlt : created.length < MAX_WORKER_THREADS) :
    worker_array (created ++ [.NULL]) = worker_array created := by
  obtain ⟨n, hn, hlen⟩ := worker_array_pad hlt .NULL
  rw [worker_array, worker_array, hn, hlen, List.append_assoc, List.singleton_append,
    List.replicate_succ]

/-- **The loop over the threads.** All threads are there, or the shutdown has been called with
those that are. The induction is on how many are to come; the array stays `worker_array` of those
created so far, with no NULL among them, and their handles are what the loop has added to what is
open. -/
theorem leaves_create_workers {P : Type} {pool : List HANDLE → P} {shutdown : P → Program P}
    {Q : ℤ × P → Multiset resource_t → Prop} {n : ℕ} (hn : n ≤ MAX_WORKER_THREADS)
    (hshutdown : ∀ created, created.length < n → fails .CreateThread →
      Leaves fails (open_handles created + held) (shutdown (pool (worker_array created)))
        fun p held' => Q (-1, p) held')
    (hQ : ∀ created, created.length = n → HANDLE.NULL ∉ created →
      Q (0, pool (worker_array created)) (open_handles created + held)) (to_come : ℕ) :
    ∀ created, created.length + to_come = n → HANDLE.NULL ∉ created →
      Leaves fails (open_handles created + held)
        (create_workers pool shutdown (worker_array created) created.length to_come) Q := by
  induction to_come with
  | zero =>
      intro created hlen hnull
      exact leaves_pure (hQ created hlen hnull)
  | succ to_come ih =>
      intro created hlen hnull
      have hlt : created.length < MAX_WORKER_THREADS := by omega
      rw [create_workers]
      apply leaves_bind
      apply leaves_create
      intro h hfail
      rw [worker_array_set hlt]
      split_ifs with hfailed
      · -- the NULL has been written to the array, where there was one before
        rw [hfailed, worker_array_null hlt, worth_null, zero_add]
        apply leaves_bind
        refine (hshutdown created (by omega) (hfail hfailed)).mono fun p held' hq => ?_
        exact leaves_pure hq
      · have hnext := ih (created ++ [h]) (by rw [List.length_append, List.length_singleton]; omega)
          (by simp [hnull, Ne.symm hfailed])
        rw [List.length_append, List.length_singleton, open_handles_append, open_handles_cons,
          open_handles_nil, add_zero, add_comm (open_handles created), add_assoc] at hnext
        exact hnext

/-! ## An initialisation -/

/-- Why a pool is refused: the number of threads, or a call that has failed. -/
def Refusable (fails : call_t → Prop) (thread_count : u32) : Prop :=
  thread_count = 0 ∨ MAX_WORKER_THREADS < thread_count.toNat ∨ ∃ call, fails call

/-- What an initialisation leaves: a pool with everything in it, or nothing, for a reason. -/
def AllOrNothing {P : Type} (initialized : P → Prop) (handles : P → List HANDLE) (why : Prop)
    (held : Multiset resource_t) (r : ℤ × P) (held' : Multiset resource_t) : Prop :=
  r.1 = 0 ∧ initialized r.2 ∧ held' = open_handles (handles r.2) + held
    ∨ r.1 = -1 ∧ why ∧ held' = held

/-- A refusal, for any reason. -/
theorem AllOrNothing.nothing {P : Type} {initialized : P → Prop} {handles : P → List HANDLE}
    {why : Prop} (p : P) (hwhy : why) : AllOrNothing initialized handles why held (-1, p) held :=
  Or.inr ⟨rfl, hwhy, rfl⟩

/-- A refusal of the number of threads, in front of everything else. -/
theorem AllOrNothing.out_of_range {P : Type} {initialized : P → Prop} {handles : P → List HANDLE}
    {thread_count : u32} (p : P)
    (hcount : thread_count = 0 ∨ thread_count.toNat > MAX_WORKER_THREADS) :
    AllOrNothing initialized handles (Refusable fails thread_count) held (-1, p) held :=
  .nothing p (hcount.imp id Or.inl)

/-- A refusal because a call has failed. It remains to show that all is closed again, which is
what the specification around it asks for. -/
theorem AllOrNothing.failed {P : Type} {initialized : P → Prop} {handles : P → List HANDLE}
    {thread_count : u32} (p : P) {call : call_t} (hfail : fails call) :
    AllOrNothing initialized handles (Refusable fails thread_count) held (-1, p) held :=
  .nothing p (Or.inr (Or.inr ⟨call, hfail⟩))

/-- **The last part of both**, with `rest` open for the pool: the threads, and the line in the
log. `hhandles` says that a pool is its threads and `rest`, and `hshutdown` that a shutdown closes
both. -/
theorem leaves_start_workers {P : Type} {pool : List HANDLE → P} {shutdown : P → Program P}
    {initialized : P → Prop} {handles : P → List HANDLE} {rest : Multiset resource_t}
    {thread_count : u32} {text : List u8} (hn : thread_count.toNat ≤ MAX_WORKER_THREADS)
    (hhandles : ∀ created,
      open_handles (handles (pool (worker_array created))) = open_handles created + rest)
    (hshutdown : ∀ created, created.length < thread_count.toNat →
      Leaves fails (open_handles (handles (pool (worker_array created))) + held)
        (shutdown (pool (worker_array created))) fun _ held' => held' = held)
    (hinit : ∀ created, created.length = thread_count.toNat → HANDLE.NULL ∉ created →
      initialized (pool (worker_array created))) :
    Leaves fails (rest + held)
      (do
        let r ← create_workers pool shutdown no_threads 0 thread_count.toNat
        if r.1 = 0 then
          log_printf text
        return r)
      (AllOrNothing initialized handles (Refusable fails thread_count) held) := by
  have hheld : ∀ created, open_handles created + (rest + held)
      = open_handles (handles (pool (worker_array created))) + held := by
    intro created
    rw [hhandles, add_assoc]
  apply leaves_bind
  rw [← zero_add (rest + held), ← open_handles_nil]
  refine leaves_create_workers hn (fun created hlt hfail => ?_) (fun created hlen hcreated => ?_)
    thread_count.toNat [] (zero_add _) List.not_mem_nil
  · -- a thread is missing: the shutdown closes those before it and all the rest
    rw [hheld]
    refine (hshutdown created hlt).mono fun p held' hp => ?_
    rw [hp]
    exact leaves_pure (.failed p hfail)
  · rw [if_pos rfl, hheld]
    apply leaves_bind
    apply leaves_log_printf
    exact leaves_pure (Or.inl ⟨rfl, hinit created hlen hcreated, rfl⟩)

/-! ## The Win9x pool -/

/-- The handles of a pool, in the order its shutdown closes them. -/
def thread_pool_t.handles (pool : thread_pool_t) : List HANDLE :=
  pool.worker_threads ++ [pool.work_semaphore, pool.work_mutex, pool.shutdown_event]

/-- As many threads as asked for, and everything they need. -/
structure thread_pool_t.Initialized (n : ℕ) (pool : thread_pool_t) : Prop where
  thread_count : pool.thread_count = n
  threads : ∃ created, pool.worker_threads = worker_array created ∧ created.length = n
    ∧ HANDLE.NULL ∉ created
  objects : pool.work_semaphore ≠ .NULL ∧ pool.work_mutex ≠ .NULL ∧ pool.shutdown_event ≠ .NULL

/-- What a pool holds open: its threads, and the three objects, in the order of the shutdown. -/
theorem thread_pool_t.open_handles_with_threads (pool : thread_pool_t) (created : List HANDLE) :
    open_handles (pool.with_threads (worker_array created)).handles
      = open_handles created
        + (worth pool.work_semaphore + (worth pool.work_mutex + worth pool.shutdown_event)) := by
  rw [handles, with_threads, open_handles_append, open_handles_worker_array]
  simp only [open_handles_cons, open_handles_nil, add_zero]

/-- A pool is shut down with the threads it has so far. -/
theorem thread_pool_shutdown_leaves {pool : thread_pool_t} {created : List HANDLE}
    {Q : thread_pool_t → Multiset resource_t → Prop} (hcount : created.length ≤ pool.thread_count)
    (hQ : Q { pool.with_threads (worker_array created) with is_shutdown := true } held) :
    Leaves fails (open_handles (pool.with_threads (worker_array created)).handles + held)
      (thread_pool_shutdown (pool.with_threads (worker_array created))) Q := by
  rw [pool.open_handles_with_threads, thread_pool_shutdown, thread_pool_t.with_threads,
    ← open_handles_take hcount]
  simp only [add_assoc]
  apply leaves_bind
  apply leaves_close_workers
  apply leaves_bind
  apply leaves_close_open
  apply leaves_bind
  apply leaves_close_open
  apply leaves_bind
  apply leaves_close_open
  apply leaves_bind
  apply leaves_log_printf
  exact leaves_pure hQ

/-- One of the three objects is missing: those that are there are closed. -/
theorem thread_pool_without_object_leaves {pool : thread_pool_t} {call : call_t}
    {thread_count : u32} (hthreads : pool.worker_threads = no_threads) (hfail : fails call) :
    Leaves fails
      ((worth pool.work_semaphore + (worth pool.work_mutex + worth pool.shutdown_event)) + held)
      (do
        let pool ← thread_pool_shutdown pool
        return (-1, pool))
      (AllOrNothing (thread_pool_t.Initialized thread_count.toNat) thread_pool_t.handles
        (Refusable fails thread_count) held) := by
  have hnone : pool = pool.with_threads (worker_array []) := by
    rw [thread_pool_t.with_threads, show worker_array [] = no_threads from rfl, ← hthreads]
  have hheld := pool.open_handles_with_threads []
  rw [← hnone, open_handles_nil, zero_add] at hheld
  rw [← hheld, hnone]
  apply leaves_bind
  apply thread_pool_shutdown_leaves (Nat.zero_le _)
  exact leaves_pure (.failed _ hfail)

/-- **The Win9x pool** is there with all its threads, or has left nothing open. The objects are
created one after the other and looked at together, so a refusal finds any of them NULL; it goes
through the shutdown, which closes what is there. Behind the objects it is the loop over the
threads that succeeds or shuts the pool down. -/
theorem thread_pool_init_leaves (pool : thread_pool_t) (thread_count : u32) :
    Leaves fails held (thread_pool_init pool thread_count)
      (AllOrNothing (thread_pool_t.Initialized thread_count.toNat) thread_pool_t.handles
        (Refusable fails thread_count) held) := by
  rw [thread_pool_init]
  split_ifs with hcount
  · exact leaves_pure (.out_of_range _ hcount)
  obtain ⟨-, hle⟩ := not_or.mp hcount
  apply leaves_bind
  apply leaves_create
  intro work_semaphore hsemaphore
  apply leaves_bind
  apply leaves_create
  intro work_mutex hmutex
  apply leaves_bind
  apply leaves_create
  intro shutdown_event hevent
  dsimp only
  generalize hpool : ({ ThreadPool.thread_pool_init with
    worker_threads := no_threads
    work_semaphore := work_semaphore
    work_mutex := work_mutex
    shutdown_event := shutdown_event
    thread_count := thread_count.toNat
    is_shutdown := false } : thread_pool_t) = started
  -- in the order a shutdown closes them
  have hheld : worth shutdown_event + (worth work_mutex + (worth work_semaphore + held))
      = (worth started.work_semaphore + (worth started.work_mutex + worth started.shutdown_event))
        + held := by
    rw [← hpool]
    dsimp only
    abel
  rw [hheld]
  split_ifs with hnull
  · -- each NULL has its failed call
    have hthreads : started.worker_threads = no_threads := by rw [← hpool]
    rcases hnull with hnull | hnull | hnull
    · exact thread_pool_without_object_leaves hthreads (hsemaphore hnull)
    · exact thread_pool_without_object_leaves hthreads (hmutex hnull)
    · exact thread_pool_without_object_leaves hthreads (hevent hnull)
  · rw [not_or, not_or] at hnull
    have hthreads : started.thread_count = thread_count.toNat := by rw [← hpool]
    refine leaves_start_workers (Nat.le_of_not_lt hle) started.open_handles_with_threads
      (fun created hlt => thread_pool_shutdown_leaves (by omega) rfl)
      (fun created hlen hcreated => ⟨hthreads, ⟨created, rfl, hlen, hcreated⟩, ?_⟩)
    rw [← hpool]
    exact hnull

/-! ## The NT pool -/

/-- The handles of a pool, in the order its shutdown closes them. -/
def iocp_pool_t.handles (pool : iocp_pool_t) : List HANDLE :=
  pool.worker_threads ++ [pool.completion_port, pool.shutdown_event]

/-- As many threads as asked for, and everything they need. -/
structure iocp_pool_t.Initialized (n : ℕ) (pool : iocp_pool_t) : Prop where
  thread_count : pool.thread_count = n
  threads : ∃ created, pool.worker_threads = worker_array created ∧ created.length = n
    ∧ HANDLE.NULL ∉ created
  objects : pool.completion_port ≠ .NULL ∧ pool.shutdown_event ≠ .NULL

/-- What a pool holds open: its threads, the port and the event. -/
theorem iocp_pool_t.open_handles_with_threads (pool : iocp_pool_t) (created : List HANDLE) :
    open_handles (pool.with_threads (worker_array created)).handles
      = open_handles created + (worth pool.completion_port + worth pool.shutdown_event) := by
  rw [handles, with_threads, open_handles_append, open_handles_worker_array]
  simp only [open_handles_cons, open_handles_nil, add_zero]

/-- A pool is shut down with the threads it has so far. -/
theorem iocp_pool_shutdown_leaves {pool : iocp_pool_t} {created : List HANDLE}
    {Q : iocp_pool_t → Multiset resource_t → Prop} (hcount : created.length ≤ pool.thread_count)
    (hQ : Q { pool.with_threads (worker_array created) with is_shutdown := true } held) :
    Leaves fails (open_handles (pool.with_threads (worker_array created)).handles + held)
      (iocp_pool_shutdown (pool.with_threads (worker_array created))) Q := by
  rw [pool.open_handles_with_threads, iocp_pool_shutdown, iocp_pool_t.with_threads,
    ← open_handles_take hcount]
  simp only [add_assoc]
  apply leaves_bind
  apply leaves_close_workers
  apply leaves_bind
  apply leaves_close_open
  apply leaves_bind
  apply leaves_close_open
  apply leaves_bind
  apply leaves_log_printf
  exact leaves_pure hQ

section WaysOut

variable {completion_port shutdown_event : HANDLE} (hport : completion_port ≠ .NULL)
  (hevent : shutdown_event ≠ .NULL) {p : iocp_pool_t}
  {Q : ℤ × iocp_pool_t → Multiset resource_t → Prop}

include hport hevent

/-- The way out without a socket closes both handles. -/
theorem leaves_close_both (hQ : Q (-1, p) held) :
    Leaves fails (worth completion_port + worth shutdown_event + held)
      (do
        CloseHandle completion_port
        CloseHandle shutdown_event
        return (-1, p)) Q := by
  rw [add_assoc]
  apply leaves_bind
  apply leaves_CloseHandle hport
  apply leaves_bind
  apply leaves_CloseHandle hevent
  exact leaves_pure hQ

/-- The ways out with a socket close it and both handles. -/
theorem leaves_close_all {n : ℕ} (hQ : Q (-1, p) held) :
    Leaves fails (.socket (.of n) ::ₘ (worth completion_port + worth shutdown_event + held))
      (do
        closesocket (.of n)
        CloseHandle completion_port
        CloseHandle shutdown_event
        return (-1, p)) Q := by
  apply leaves_bind
  apply leaves_release_cons
  exact leaves_close_both hport hevent hQ

/-- Behind the extension functions: the threads. -/
theorem iocp_pool_threads_leave {thread_count : u32}
    (hle : thread_count.toNat ≤ MAX_WORKER_THREADS) {text : List u8} :
    Leaves fails (worth completion_port + worth shutdown_event + held)
      (do
        let r ← create_workers
          (iocp_pool_t.with_threads ⟨completion_port, no_threads, shutdown_event,
            thread_count.toNat, false⟩)
          iocp_pool_shutdown no_threads 0 thread_count.toNat
        if r.1 = 0 then
          log_printf text
        return r)
      (AllOrNothing (iocp_pool_t.Initialized thread_count.toNat) iocp_pool_t.handles
        (Refusable fails thread_count) held) := by
  refine leaves_start_workers hle (iocp_pool_t.open_handles_with_threads _)
    (fun created hlt => iocp_pool_shutdown_leaves hlt.le rfl) fun created hlen hcreated => ?_
  exact ⟨rfl, ⟨created, rfl, hlen, hcreated⟩, hport, hevent⟩

end WaysOut

/-- **The NT pool** is there with all its threads, or has left nothing open. There is a way out
behind each of the calls for the port, the event, the socket and the two extension functions, and
each closes exactly what the calls in front of it have opened: nothing, the port, both handles, and
twice the socket with both handles. The socket is closed on the way to the threads as well, so it
is never left. -/
theorem iocp_pool_init_leaves (pool : iocp_pool_t) (thread_count : u32) :
    Leaves fails held (iocp_pool_init pool thread_count)
      (AllOrNothing (iocp_pool_t.Initialized thread_count.toNat) iocp_pool_t.handles
        (Refusable fails thread_count) held) := by
  rw [iocp_pool_init]
  split_ifs with hcount
  · exact leaves_pure (.out_of_range _ hcount)
  obtain ⟨-, hle⟩ := not_or.mp hcount
  apply leaves_bind
  apply leaves_create
  intro completion_port hnull
  dsimp only
  split_ifs with hport
  · -- no port, and nothing to close
    rw [hport, worth_null, zero_add]
    exact leaves_pure (.failed _ (hnull hport))
  apply leaves_bind
  apply leaves_create
  intro shutdown_event hnull
  split_ifs with hevent
  · -- no event: the port is closed
    rw [hevent, worth_null, zero_add]
    apply leaves_bind
    apply leaves_CloseHandle hport
    exact leaves_pure (.failed _ (hnull hevent))
  rw [add_left_comm, ← add_assoc]
  apply leaves_bind
  apply leaves_socket
  · -- from here on both handles are
    intro hfail
    rw [if_pos rfl]
    exact leaves_close_both hport hevent (.failed _ hfail)
  intro n
  rw [if_neg (by simp)]
  apply leaves_bind
  apply leaves_attempt
  · -- no `AcceptEx`: the socket is closed as well
    intro hfail
    rw [if_pos (by decide)]
    exact leaves_close_all hport hevent (.failed _ hfail)
  rw [if_neg (by decide)]
  apply leaves_bind
  apply leaves_attempt
  · -- no `GetAcceptExSockaddrs`
    intro hfail
    rw [if_pos (by decide)]
    exact leaves_close_all hport hevent (.failed _ hfail)
  rw [if_neg (by decide)]
  apply leaves_bind
  apply leaves_release_cons
  exact iocp_pool_threads_leave hport hevent (Nat.le_of_not_lt hle)

/-- The second thread cannot be created. -/
example : (iocp_pool_init ⟨.NULL, no_threads, .NULL, 0, false⟩ 2
      (Books.start fun _ n => if n = 6 then none else some n)).2.ledger
    = [.opened (.handle (.of 0)), .opened (.handle (.of 1)), .opened (.socket (.of 2)),
      .closed (.socket (.of 2)), .opened (.handle (.of 5)), .closed (.handle (.of 5)),
      .closed (.handle (.of 0)), .closed (.handle (.of 1))] := by decide +kernel

/-! ## What an initialisation opens is what the shutdown closes -/

/-- **A pool that was initialised is closed by its shutdown**, all of it: the threads are those up
to `thread_count`, and none of the handles is NULL. -/
theorem thread_pool_t.Initialized.shutdown_leaves {pool : thread_pool_t} {n : ℕ}
    (h : pool.Initialized n) {Q : thread_pool_t → Multiset resource_t → Prop}
    (hQ : Q { pool with is_shutdown := true } held) :
    Leaves fails (open_handles pool.handles + held) (thread_pool_shutdown pool) Q := by
  obtain ⟨created, hthreads, hlen, -⟩ := h.threads
  have hpool : pool = pool.with_threads (worker_array created) := by
    rw [thread_pool_t.with_threads, ← hthreads]
  rw [hpool]
  apply thread_pool_shutdown_leaves
  · exact (hlen.trans h.thread_count.symm).le
  · rwa [← hpool]

/-- **The NT pool is closed by its shutdown** in the same way. -/
theorem iocp_pool_t.Initialized.shutdown_leaves {pool : iocp_pool_t} {n : ℕ}
    (h : pool.Initialized n) {Q : iocp_pool_t → Multiset resource_t → Prop}
    (hQ : Q { pool with is_shutdown := true } held) :
    Leaves fails (open_handles pool.handles + held) (iocp_pool_shutdown pool) Q := by
  obtain ⟨created, hthreads, hlen, -⟩ := h.threads
  have hpool : pool = pool.with_threads (worker_array created) := by
    rw [iocp_pool_t.with_threads, ← hthreads]
  rw [hpool]
  apply iocp_pool_shutdown_leaves
  · exact (hlen.trans h.thread_count.symm).le
  · rwa [← hpool]

end

end W32HttpServer.PoolHandles

/-
The NT server as a system: the listener of `run_server_nt` and the workers that handle
completions, over one heap of client contexts and sockets.

The functions are programs here (`Lib.Ownership`), so that every access to a context is an
operation of its own and threads may interleave between any two. A posted operation is a
message: the system has the context and its socket until it hands the completion to some
worker. The calls whose outcome is open are questions.

What an access through the null pointer finds is the parameter `null_page`: on Windows no
page is there, and the access is a fault. An address that a caller has tested, and the pool,
are not `NULL` here.
-/
import W32HttpServer.Common
import W32HttpServer.HttpRequest
import W32HttpServer.HttpResponse
import W32HttpServer.Platform
import W32HttpServer.Context
import W32HttpServer.Serve
import W32HttpServer.IocpWorker
import W32HttpServer.NtHandlers
import W32HttpServer.Lib.Ownership

set_option autoImplicit false

namespace W32HttpServer.NtServer

open W32HttpServer.Common W32HttpServer.HttpRequest W32HttpServer.HttpResponse
open W32HttpServer.Platform W32HttpServer.Context W32HttpServer.Serve W32HttpServer.IocpWorker
open W32HttpServer.NtHandlers (wsabuf_len recv_completed recv_terminate)
open W32HttpServer.Lib.Transition W32HttpServer.Lib.Ownership

/-! ## Contexts, sockets and operations -/

/-- The address of a peer; zero is what `ZeroMemory` leaves. -/
abbrev SOCKADDR_IN := ℕ

/-- A client context with the field that only the log reads. -/
structure nt_context_t extends client_context_t where
  client_addr : SOCKADDR_IN

inductive Object
  | context (ctx : ℕ)
  | socket (n : ℕ)
  deriving DecidableEq

abbrev Object.Val : Object → Type
  | .context _ => nt_context_t
  | .socket _ => Unit

/-- An overlapped operation. Its buffers are in its context. -/
structure OVERLAPPED where
  operation : io_operation_t
  ctx : ℕ
  sock : SOCKET
  deriving DecidableEq

/-- What the system has while the operation is outstanding. -/
def OVERLAPPED.parcel (m : OVERLAPPED) : List Object :=
  .context m.ctx :: match m.sock with
    | .of n => [.socket n]
    | .INVALID_SOCKET => []

/-- The calls whose outcome is open. -/
inductive Call (σ : Type)
  | make_socket
  | CreateIoCompletionPort (sock : SOCKET) (completion_key : Option ℕ)
  | GetAcceptExSockaddrs (buffer : List u8)
  /-- the global variable is read -/
  | ssocket
  /-- the state the file system is in, and the one a call leaves -/
  | disk
  | disk_is (s : σ)
  /-- a scan has left the request, and parses what is there -/
  | behind_request
  /-- `switch (ctx->operation)` on the completion of an operation of some kind -/
  | switch (completed : io_operation_t) (operation : io_operation_t)
  | Sleep
  /-- `closesocket(ssocket)` -/
  | closesocket

abbrev Call.Answer {σ : Type} : Call σ → Type
  | .make_socket => SOCKET
  | .CreateIoCompletionPort _ _ => Bool
  | .GetAcceptExSockaddrs _ => SOCKADDR_IN
  | .ssocket => SOCKET
  | .disk => σ
  | .behind_request => http_request_t
  | _ => Unit

abbrev nt (σ : Type) : Signature where
  Obj := Object
  Val := Object.Val
  Msg := OVERLAPPED
  parcel := OVERLAPPED.parcel
  parcel_ne_nil _ := List.cons_ne_nil _ _
  Ask := Call σ
  Answer := Call.Answer

/-- What a completion brings: the bytes that had arrived, or the number of those sent, and
the local variable that the parser may leave unset. -/
structure Completion where
  arrived : List u8
  sent : u32
  indeterminate : u32

variable {σ : Type}

abbrev Program (σ : Type) := Prog (nt σ)

/-! ## Contexts -/

def read (ctx : ℕ) : Program σ nt_context_t := load (S := nt σ) (.context ctx)

/-- Fields of a context are assigned. -/
def assign (ctx : ℕ) (f : nt_context_t → nt_context_t) : Program σ Unit := do
  let c ← read ctx
  store (S := nt σ) (.context ctx) (f c)

def socket : Program σ SOCKET := do
  match ← alloc (S := nt σ) .socket fun _ => () with
  | some n => return .of n
  | none => return .INVALID_SOCKET

def closesocket : SOCKET → Program σ Unit
  | .of n => free (S := nt σ) (.socket n)
  | .INVALID_SOCKET => return ()

/-- A context after `ZeroMemory`. -/
def zeroed : nt_context_t where
  client_socket := .of 0
  recv_buffer := List.replicate RECV_BUFFER_SIZE 0
  send_buffer := List.replicate HTTP_SEND_BUFFER_SIZE 0
  bytes_received := 0
  bytes_to_send := 0
  operation := .OP_ACCEPT
  stream := { initial_stream with stream_file := .NULL, dir_find := .NULL }
  client_addr := 0

/-- `*p`; `none` is the null pointer. -/
def deref (null_page p : Option SOCKADDR_IN) : Program σ SOCKADDR_IN :=
  match p.or null_page with
  | some addr => return addr
  | none => .fault

def create_client_context (null_page : Option SOCKADDR_IN) (client_socket : SOCKET)
    (client_addr : Option SOCKADDR_IN) : Program σ (Option ℕ) := do
  match ← alloc (S := nt σ) .context fun _ => zeroed with
  | none => return none
  | some ctx =>
      assign ctx fun c => { c with client_socket := client_socket }
      let addr ← deref null_page client_addr
      assign ctx fun c => { c with client_addr := addr }
      assign ctx fun c => { c with bytes_received := 0, stream := initial_stream }
      return some ctx

section

variable (fs : FileSystem σ)

/-- A function of the streaming fields is run on a context. -/
def with_stream {R : Type} (ctx : ℕ) (f : stream_state_t → σ → R × stream_state_t × σ) :
    Program σ R := do
  let c ← read ctx
  let s ← ask (S := nt σ) .disk
  let (r, stream, s) := f c.stream s
  assign ctx fun c => { c with stream := stream }
  ask (S := nt σ) (.disk_is s)
  return r

def stream_close (ctx : ℕ) : Program σ Unit :=
  with_stream ctx fun stream s => ((), Context.stream_close fs stream s)

def destroy_client_context (ctx : ℕ) : Program σ Unit := do
  stream_close fs ctx
  let c ← read ctx
  if c.client_socket ≠ .INVALID_SOCKET then
    closesocket c.client_socket
  free (S := nt σ) (.context ctx)

/-- The line of the log names the socket and the peer. -/
def log_printf (ctx : ℕ) : Program σ Unit := do
  let _ ← read ctx

/-! ## Posting -/

def iocp_pool_associate_socket (sock : SOCKET) (completion_key : Option ℕ) : Program σ ℤ := do
  if sock = .INVALID_SOCKET then return -1
  else
    let ok : Bool ← ask (S := nt σ) (.CreateIoCompletionPort sock completion_key)
    return if ok then 0 else -1

def post_accept (listen_socket : SOCKET) (ctx : ℕ) : Program σ ℤ := do
  if listen_socket = .INVALID_SOCKET then return -1
  else
    let sock ← socket
    assign ctx fun c => { c with client_socket := sock }
    if sock = .INVALID_SOCKET then return -1
    else
      assign ctx fun c => { c with operation := .OP_ACCEPT }
      let c ← read ctx
      let started ← post (S := nt σ) ⟨.OP_ACCEPT, ctx, c.client_socket⟩
      if started then return 0
      else
        let c ← read ctx
        closesocket c.client_socket
        assign ctx fun c => { c with client_socket := .INVALID_SOCKET }
        return -1

def post_recv (ctx : ℕ) : Program σ ℤ := do
  let c ← read ctx
  if c.client_socket = .INVALID_SOCKET then return -1
  else
    assign ctx fun c => { c with operation := .OP_RECV }
    let c ← read ctx
    let started ← post (S := nt σ) ⟨.OP_RECV, ctx, c.client_socket⟩
    return if started then 0 else -1

def post_send (ctx : ℕ) (data : List u8) : Program σ ℤ := do
  let c ← read ctx
  if c.client_socket = .INVALID_SOCKET ∨ data.length = 0
      ∨ data.length > HTTP_SEND_BUFFER_SIZE then return -1
  else
    assign ctx fun c => { c with
      send_buffer := write_at c.send_buffer 0 data
      bytes_to_send := data.length
      operation := .OP_SEND }
    let c ← read ctx
    let started ← post (S := nt σ) ⟨.OP_SEND, ctx, c.client_socket⟩
    return if started then 0 else -1

/-! ## Completions -/

variable (null_page : Option SOCKADDR_IN) (document_root : List u8)

/-- One more accept; a context for which it cannot be posted is destroyed. -/
def new_accept : Program σ Unit := do
  match ← create_client_context null_page .INVALID_SOCKET none with
  | none => return ()
  | some accept_ctx =>
      let listen_socket ← ask (S := nt σ) .ssocket
      if (← post_accept listen_socket accept_ctx) ≠ 0 then
        destroy_client_context fs accept_ctx

def handle_accept_completion (ctx : ℕ) : Program σ Unit := do
  let c ← read ctx
  let remote_addr ← ask (S := nt σ) (.GetAcceptExSockaddrs c.recv_buffer)
  assign ctx fun c => { c with client_addr := remote_addr }
  let c ← read ctx
  if (← iocp_pool_associate_socket c.client_socket (some ctx)) ≠ 0 then
    destroy_client_context fs ctx
  else
    log_printf ctx
    if (← post_recv ctx) ≠ 0 then
      log_printf ctx
      destroy_client_context fs ctx
    else
      new_accept fs null_page

/-- What the parser makes of the bytes in the context. -/
def received_request (ctx : ℕ) (indeterminate : u32) : Program σ http_request_t := do
  let c ← read ctx
  match parse_http_request (handed c.toclient_context_t) indeterminate with
  | some req => return req
  | none => ask (S := nt σ) .behind_request

/-- `head` of `handle_recv_completion`. -/
def response_head (ctx : ℕ) (req : http_request_t) : Program σ (List u8) := do
  let r ← with_stream ctx fun stream s =>
    let r := serve_http_request document_root fs stream req HTTP_SEND_BUFFER_SIZE s
    ((r.rc, r.out), r.ctx, r.fs_state)
  if r.1 < 0 then
    stream_close fs ctx
    return (build_http_error_response 500 (ascii "Internal Server Error")
      HTTP_SEND_BUFFER_SIZE).getD []
  else return r.2

def handle_recv_completion (ctx : ℕ) (bytes_transferred : ℕ) (indeterminate : u32) :
    Program σ Unit := do
  if bytes_transferred = 0 then
    log_printf ctx
    destroy_client_context fs ctx
  else
    assign ctx fun c =>
      { c with toclient_context_t := recv_terminate c.toclient_context_t bytes_transferred }
    log_printf ctx
    let req ← received_request ctx indeterminate
    let head ← response_head fs document_root ctx req
    if (← post_send ctx head) ≠ 0 then
      log_printf ctx
      destroy_client_context fs ctx

def post_chunk (ctx : ℕ) (chunk : List u8) : Program σ ℤ :=
  if chunk.length > 0 then post_send ctx chunk else return -1

def handle_send_completion (ctx : ℕ) : Program σ Unit := do
  let c ← read ctx
  if c.stream.stream_kind ≠ .STREAM_NONE then
    let chunk ← with_stream ctx (stream_next_chunk fs HTTP_SEND_BUFFER_SIZE)
    -- the end of the body and a send that does not start end the same way
    if (← post_chunk ctx chunk) ≠ 0 then
      stream_close fs ctx
      log_printf ctx
      destroy_client_context fs ctx
  else
    log_printf ctx
    destroy_client_context fs ctx

/-! ## The threads -/

/-- What a round of the worker does with the context at `ctx`. -/
def perform (indeterminate : u32) : effect_t → Program σ Unit
  | .closesocket sock => closesocket sock
  | .free ctx => free (S := nt σ) (.context ctx)
  | .handle_accept_completion ctx _ => handle_accept_completion fs null_page ctx
  | .handle_recv_completion ctx bytes_transferred =>
      handle_recv_completion fs document_root ctx bytes_transferred.toNat indeterminate
  | .handle_send_completion ctx _ => handle_send_completion fs ctx

/-- The system's side of a completion: what it writes to the context, and the count. -/
def completed (m : OVERLAPPED) (a : Completion) : Program σ u32 := do
  match m.operation with
  | .OP_ACCEPT => return 0
  | .OP_RECV =>
      assign m.ctx fun c =>
        { c with toclient_context_t := (recv_completed c.toclient_context_t a.arrived).1 }
      return .ofNat (a.arrived.take wsabuf_len).length
  | .OP_SEND => return a.sent

/-- The key of the socket the operation completes on; an accept completes on the listening
socket. -/
def completion_key (m : OVERLAPPED) : ℕ :=
  match m.operation with
  | .OP_ACCEPT => 0
  | _ => m.ctx

/-- The round of `iocp_worker_thread_proc` from the completion on. -/
def iocp_worker_round (m : OVERLAPPED) (bytes_transferred indeterminate : u32) :
    Program σ Unit := do
  let c ← read m.ctx
  ask (S := nt σ) (.switch m.operation c.operation)
  match worker_round ⟨true, bytes_transferred, completion_key m,
      some (m.ctx, c.toclient_context_t)⟩ with
  | none => return ()
  | some effects => forM effects (perform fs null_page document_root indeterminate)

/-- What a worker does with the completion of `m`. -/
def on_completion (m : OVERLAPPED) (a : Completion) : Program σ Unit := do
  let bytes_transferred ← completed m a
  iocp_worker_round fs null_page document_root m bytes_transferred a.indeterminate

/-- The loop of `run_server_nt` that posts the first accepts, with `i` rounds to go. -/
def post_accepts : ℕ → Program σ Unit
  | 0 => return ()
  | i + 1 => do
      new_accept fs null_page
      post_accepts i

/-- `run_server_nt` from its wait loop on. `while (g_is_server_run) Sleep(1000)` is one question,
answered when the loop is left. -/
def wait_loop : Program σ Unit := do
  ask (S := nt σ) .Sleep
  ask (S := nt σ) .closesocket

def run_server_nt (worker_threads : ℕ) : Program σ Unit := do
  let sock ← ask (S := nt σ) .make_socket
  if (← iocp_pool_associate_socket sock none) ≠ 0 then
    ask (S := nt σ) .closesocket
  else
    post_accepts fs null_page worker_threads
    wait_loop

/-- The listener and the workers. -/
abbrev Thread (worker_threads : ℕ) := Option (Fin worker_threads)

abbrev Server (σ : Type) (worker_threads : ℕ) := State (nt σ) (Thread worker_threads)

abbrev NtAction (σ : Type) (worker_threads : ℕ) :=
  Action (nt σ) (Thread worker_threads) Completion

def initial (worker_threads : ℕ) : Server σ worker_threads :=
  start fun t => match t with
    | none => run_server_nt fs null_page worker_threads
    | some _ => .ret ()

/-- Completions go to the workers. -/
def server_step {worker_threads : ℕ} (s : Server σ worker_threads) :
    NtAction σ worker_threads → Option (Server σ worker_threads) :=
  step (on_completion fs null_page document_root) Option.isSome s

end

/-! ## Specifications that need only the context -/

section

variable {C : Contract (nt σ)} {h : Heap (nt σ)} {ctx k : ℕ} {c : nt_context_t}

theorem wp_read {Q : nt_context_t → Heap (nt σ) → ℕ → Prop} (hc : h (.context ctx) = some c)
    (hQ : Q c h k) : wp C (read ctx) h k Q := by
  rw [read, wp_load]
  exact ⟨c, hc, hQ⟩

theorem wp_assign {Q : Unit → Heap (nt σ) → ℕ → Prop} {f : nt_context_t → nt_context_t}
    (hc : h (.context ctx) = some c) (hQ : Q () (h.set (.context ctx) (some (f c))) k) :
    wp C (assign ctx f) h k Q := by
  rw [assign, wp_bind]
  apply wp_read hc
  rw [wp_store]
  exact ⟨hc.trans_ne (by simp), hQ⟩

theorem wp_log_printf {Q : Unit → Heap (nt σ) → ℕ → Prop} (hc : h (.context ctx) = some c)
    (hQ : Q () h k) : wp C (log_printf ctx) h k Q := by
  rw [log_printf, wp_bind]
  exact wp_read hc hQ

theorem wp_iocp_pool_associate_socket {Q : ℤ → Heap (nt σ) → ℕ → Prop} {sock : SOCKET}
    {completion_key : Option ℕ}
    (hallowed : C.allowed (.CreateIoCompletionPort sock completion_key) h)
    (hinvalid : sock = .INVALID_SOCKET → Q (-1) h k)
    (hanswer : ∀ ok : Bool, C.price (.CreateIoCompletionPort sock completion_key) ok ≤ k
      ∧ Q (if ok then 0 else -1) h (k - C.price (.CreateIoCompletionPort sock completion_key) ok)) :
    wp C (iocp_pool_associate_socket sock completion_key) h k Q := by
  rw [iocp_pool_associate_socket]
  split_ifs with hsock
  · exact hinvalid hsock
  · rw [wp_bind, wp_ask]
    exact ⟨hallowed, hanswer⟩

end

end W32HttpServer.NtServer

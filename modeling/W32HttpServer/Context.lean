/-
The client context of server.h and the functions that open and close what it owns.

The fields of the block headed "Response-body streaming state" form a structure of
their own here: `stream_close`, the directory generator, `stream_next_chunk` and
`serve_http_request` touch these and no other field of the context.
-/
import W32HttpServer.Common
import W32HttpServer.Platform

set_option autoImplicit false

namespace W32HttpServer.Context

open W32HttpServer.Common W32HttpServer.Platform

/-- What a context is waiting for. -/
inductive io_operation_t
  | OP_ACCEPT
  | OP_RECV
  | OP_SEND
  deriving DecidableEq

/-- What a body is produced from, if there is one to come. -/
inductive stream_kind_t
  | STREAM_NONE
  | STREAM_FILE
  | STREAM_DIR
  deriving DecidableEq

/-- How far the page of a listing is. -/
inductive dir_phase_t
  | DIR_PHASE_INTRO
  | DIR_PHASE_ENTRIES
  | DIR_PHASE_FOOTER
  | DIR_PHASE_DONE
  deriving DecidableEq

/-- What a context knows of the body it has still to send: the file and how much of it is left, or
the search and how far the page is. -/
structure stream_state_t where
  stream_kind : stream_kind_t
  stream_file : HANDLE
  stream_remaining : u32
  dir_find : HANDLE
  dir_pending : WIN32_FIND_DATA
  dir_has_pending : Bool
  dir_phase : dir_phase_t
  dir_url : CString MAX_PATH
  deriving DecidableEq

/-- `sizeof(ctx->recv_buffer)`. -/
abbrev RECV_BUFFER_SIZE : ℕ := 4096

/-- The context of a client, as both back ends have it. What only the NT back end uses is added to
it in `NtServer`. -/
structure client_context_t where
  client_socket : SOCKET
  recv_buffer : List u8
  send_buffer : List u8
  bytes_received : ℕ
  bytes_to_send : ℕ
  operation : io_operation_t
  stream : stream_state_t
  deriving DecidableEq

/-- The empty string in a `char [MAX_PATH]` of zeros. -/
def zero_string : CString MAX_PATH := ⟨[], by simp, by decide⟩

/-- The streaming fields of a context fresh from `create_client_context`. -/
def initial_stream : stream_state_t where
  stream_kind := .STREAM_NONE
  stream_file := .INVALID_HANDLE_VALUE
  stream_remaining := 0
  dir_find := .INVALID_HANDLE_VALUE
  dir_pending := ⟨0, 0, zero_string⟩
  dir_has_pending := false
  dir_phase := .DIR_PHASE_INTRO
  dir_url := zero_string

/-- `create_client_context` when `malloc` succeeds. -/
def create_client_context (client_socket : SOCKET) : client_context_t where
  client_socket := client_socket
  recv_buffer := List.replicate RECV_BUFFER_SIZE 0
  send_buffer := List.replicate HTTP_SEND_BUFFER_SIZE 0
  bytes_received := 0
  bytes_to_send := 0
  operation := .OP_ACCEPT
  stream := initial_stream

/-- The bytes a context hands to the parser, which finds the NUL right behind them. -/
def handed (ctx : client_context_t) : List u8 := ctx.recv_buffer.take ctx.bytes_received

variable {σ τ : Type}

/-- What is open is closed, by the function that fits it, and nothing is left to send. -/
def stream_close (fs : FileSystem σ) (ctx : stream_state_t) (s : σ) : stream_state_t × σ :=
  let (ctx, s) :=
    if ctx.stream_file ≠ .INVALID_HANDLE_VALUE ∧ ctx.stream_file ≠ .NULL then
      ({ ctx with stream_file := .INVALID_HANDLE_VALUE }, fs.CloseHandle s ctx.stream_file)
    else (ctx, s)
  let (ctx, s) :=
    if ctx.dir_find ≠ .INVALID_HANDLE_VALUE ∧ ctx.dir_find ≠ .NULL then
      ({ ctx with dir_find := .INVALID_HANDLE_VALUE }, fs.FindClose s ctx.dir_find)
    else (ctx, s)
  ({ ctx with dir_has_pending := false, stream_kind := .STREAM_NONE }, s)

/-- What `destroy_client_context` does to the outside before it frees the context. -/
def destroy_client_context (fs : FileSystem σ) (net : Sockets τ) (ctx : client_context_t)
    (s : σ) (t : τ) : σ × τ :=
  let s := (stream_close fs ctx.stream s).2
  if ctx.client_socket ≠ .INVALID_SOCKET then (s, net.closesocket t ctx.client_socket)
  else (s, t)

@[simp] theorem stream_close_kind (fs : FileSystem σ) (ctx : stream_state_t) (s : σ) :
    (stream_close fs ctx s).1.stream_kind = .STREAM_NONE := rfl

end W32HttpServer.Context

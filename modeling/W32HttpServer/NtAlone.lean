/-
The two readings of the NT completion handlers.

`NtHandlers` has the handlers as functions from a context to what becomes of it, `NtServer`
as programs over the heap that any thread may interrupt. Here the programs are run alone,
with `net` and `fs` behind the operations, and do what the functions say. So in every state
the server reaches, whatever the null pointer reads, a worker that gets a completion and is not
interrupted does what `NtHandlers` says (`completion_handled`).
-/
import W32HttpServer.Common
import W32HttpServer.HttpRequest
import W32HttpServer.HttpResponse
import W32HttpServer.Platform
import W32HttpServer.Context
import W32HttpServer.Serve
import W32HttpServer.IocpWorker
import W32HttpServer.NtHandlers
import W32HttpServer.NtServer
import W32HttpServer.NtOwnership
import W32HttpServer.Lib.Solo

set_option autoImplicit false

namespace W32HttpServer.NtAlone

open W32HttpServer.Common W32HttpServer.HttpRequest W32HttpServer.HttpResponse
open W32HttpServer.Platform W32HttpServer.Context W32HttpServer.Serve W32HttpServer.NtServer
open W32HttpServer.IocpWorker W32HttpServer.NtOwnership
open W32HttpServer.NtHandlers (wsabuf_len recv_completed recv_terminate)
open W32HttpServer.Lib.Transition W32HttpServer.Lib.Ownership W32HttpServer.Lib.Solo

variable {σ τ : Type}

/-- The operations of one completion: the calls of `net`, and the state of the file system
read and written. A send leaves the buffer of the context. An accept and the calls of the
listener are not answered. -/
def outside (net : Sockets τ) : Environment (nt σ) (σ × τ) where
  freed
    | .socket n, (s, t) => (s, net.closesocket t (.of n))
    | .context _, e => e
  post m h := fun (s, t) =>
    match m.operation, h (.context m.ctx) with
    | .OP_RECV, _ =>
        let (started, t) := net.WSARecv t m.sock wsabuf_len
        some (started, s, t)
    | .OP_SEND, some c =>
        let (started, t) := net.WSASend t m.sock (c.send_buffer.take c.bytes_to_send)
        some (started, s, t)
    | _, _ => none
  ask
    | .disk, (s, t) => some (s, s, t)
    | .disk_is s, (_, t) => some ((), s, t)
    | .switch _ _, e => some ((), e)
    | _, _ => none

/-- The heap in which the context at `ctx` is `c`. -/
def holding (h : Heap (nt σ)) (ctx : ℕ) (c : nt_context_t) : Heap (nt σ) :=
  h.set (.context ctx) (some c)

/-- The heap that a handler leaves: `none` is a context that has been freed. -/
def left (h : Heap (nt σ)) (ctx : ℕ) (c : nt_context_t) : Option client_context_t → Heap (nt σ)
  | some ctx' => holding h ctx { c with toclient_context_t := ctx' }
  | none =>
      match c.client_socket with
      | .of n => (h.set (.socket n) none).set (.context ctx) none
      | .INVALID_SOCKET => h.set (.context ctx) none

section

variable {net : Sockets τ} {h : Heap (nt σ)} {ctx : ℕ} {c : nt_context_t}

/-- A context that is what it is. -/
theorem holding_self (hc : h (.context ctx) = some c) : holding h ctx c = h := Heap.set_eq_self hc

/-! ## Accesses to the context -/

/-- Reading the context changes nothing. -/
theorem alone_read (e : σ × τ) :
    alone (outside net) (read ctx) (holding h ctx c) e = some (c, holding h ctx c, e) :=
  alone_load (Heap.set_self h _ _) e

/-- An assignment to fields of the context is one of the context. -/
theorem alone_assign (f : nt_context_t → nt_context_t) (e : σ × τ) :
    alone (outside net) (assign ctx f) (holding h ctx c) e = some ((), holding h ctx (f c), e) := by
  rw [assign, alone_seq (alone_read e), alone_store (by simp [holding])]
  simp [holding, Heap.set]

/-- A line of the log only reads the context. -/
theorem alone_log_printf (e : σ × τ) :
    alone (outside net) (log_printf ctx) (holding h ctx c) e = some ((), holding h ctx c, e) := by
  rw [log_printf, alone_seq (alone_read e), alone_pure]

/-- **A piece of the source that works on a stream and a disk** is a function on both. As a program
it takes the state of the disk, works on the stream of the context and gives the new state of
the disk back, and in between nobody else does. -/
theorem alone_with_stream {R : Type} (f : stream_state_t → σ → R × stream_state_t × σ) (s : σ)
    (t : τ) :
    alone (outside net) (with_stream ctx f) (holding h ctx c) (s, t)
      = some ((f c.stream s).1, holding h ctx { c with stream := (f c.stream s).2.1 },
          (f c.stream s).2.2, t) := by
  rw [with_stream, alone_seq (alone_read (s, t)), alone_seq (alone_ask (a := s) rfl _)]
  rw [alone_seq (alone_assign _ (s, t)), alone_seq (alone_ask (a := ()) rfl _), alone_pure]

/-! ## The functions of the context -/

variable (fs : FileSystem σ)

/-- Closing the stream. -/
theorem alone_stream_close (s : σ) (t : τ) :
    alone (outside net) (stream_close fs ctx) (holding h ctx c) (s, t)
      = some ((), holding h ctx { c with stream := (Context.stream_close fs c.stream s).1 },
          (Context.stream_close fs c.stream s).2, t) :=
  alone_with_stream _ s t

/-- The context is freed, behind its stream and its socket, if it has one. -/
theorem alone_destroy_client_context (s : σ) (t : τ) :
    alone (outside net) (destroy_client_context fs ctx) (holding h ctx c) (s, t)
      = some ((), left h ctx c none, Context.destroy_client_context fs net c.toclient_context_t s t)
    := by
  rw [NtServer.destroy_client_context, alone_seq (alone_stream_close fs s t),
    alone_seq (alone_read _), Context.destroy_client_context, left]
  cases hsock : c.client_socket with
  | INVALID_SOCKET =>
      simp only [ne_eq, not_true_eq_false, if_false]
      rw [alone_free]
      simp only [holding, Heap.set, Function.update_idem]
      rfl
  | of n =>
      have hne : SOCKET.of n ≠ .INVALID_SOCKET := by simp
      simp only [if_pos hne]
      rw [closesocket, alone_seq (alone_free _ _ _), alone_free]
      -- the context was there when its socket was closed
      have hcomm : (.socket n : Object) ≠ .context ctx := by simp
      simp only [holding, Heap.set, Function.update_comm hcomm, Function.update_idem]
      rfl

/-! ## Posting -/

/-- What a send takes is what the context says, not what it was called with. -/
theorem alone_WSASend (sock : SOCKET) (s : σ) (t : τ) :
    alone (outside net) (post (S := nt σ) ⟨.OP_SEND, ctx, sock⟩) (holding h ctx c) (s, t)
      = some ((net.WSASend t sock (c.send_buffer.take c.bytes_to_send)).1, holding h ctx c, s,
          (net.WSASend t sock (c.send_buffer.take c.bytes_to_send)).2) := by
  apply alone_post
  simp only [outside, holding, Heap.set_self]

/-- The bytes are put into the buffer of the context before they are sent from there. -/
theorem alone_post_send (data : List u8) (s : σ) (t : τ) :
    alone (outside net) (post_send ctx data) (holding h ctx c) (s, t)
      = some ((NtHandlers.post_send net c.toclient_context_t data t).1,
          holding h ctx { c with
            toclient_context_t := (NtHandlers.post_send net c.toclient_context_t data t).2.1 },
          s, (NtHandlers.post_send net c.toclient_context_t data t).2.2) := by
  rw [post_send, alone_seq (alone_read _), NtHandlers.post_send]
  split_ifs with hrefused
  · rfl
  · rw [alone_seq (alone_assign _ _), alone_seq (alone_read _), alone_seq (alone_WSASend _ s t)]
    rfl

/-! ## The handlers -/

/-- Sending does not change the socket of a context. -/
theorem post_send_socket (net : Sockets τ) (ctx : client_context_t) (data : List u8) (t : τ) :
    (NtHandlers.post_send net ctx data t).2.1.client_socket = ctx.client_socket := by
  unfold NtHandlers.post_send
  split_ifs
  · rfl
  · rfl

/-- What a handler leaves depends on the socket and the peer of the context it was given. -/
theorem left_congr (c : nt_context_t) {c' : nt_context_t} {r : Option client_context_t}
    (hsock : c'.client_socket = c.client_socket) (haddr : c'.client_addr = c.client_addr) :
    left h ctx c' r = left h ctx c r := by
  cases r with
  | none => rw [left, left, hsock]
  | some ctx' => rw [left, left, haddr]

/-- What the send handler does when there is nothing more to send. -/
theorem alone_give_up (s : σ) (t : τ) :
    alone (outside net) (do
        stream_close fs ctx
        log_printf ctx
        destroy_client_context fs ctx) (holding h ctx c) (s, t)
      = some ((), left h ctx c none,
          Context.destroy_client_context fs net
            { c.toclient_context_t with stream := (Context.stream_close fs c.stream s).1 }
            (Context.stream_close fs c.stream s).2 t) := by
  rw [alone_seq (alone_stream_close fs s t), alone_seq (alone_log_printf _),
    alone_destroy_client_context, left_congr c]
  · rfl
  · rfl

/-- **A send completion.** The next chunk is sent, or there is none or it cannot be sent, and then
the context is freed. The cases are those of the function: an empty chunk, and a send that fails. -/
theorem alone_handle_send_completion (s : σ) (t : τ) :
    alone (outside net) (handle_send_completion fs ctx) (holding h ctx c) (s, t)
      = some ((), left h ctx c
            (NtHandlers.handle_send_completion fs net c.toclient_context_t s t).1,
          (NtHandlers.handle_send_completion fs net c.toclient_context_t s t).2) := by
  rw [handle_send_completion, alone_seq (alone_read _), NtHandlers.handle_send_completion]
  split_ifs with hstreams
  · rw [alone_seq (alone_with_stream _ s t), post_chunk]
    rcases stream_next_chunk fs HTTP_SEND_BUFFER_SIZE c.stream s with ⟨chunk, stream, s1⟩
    dsimp only
    by_cases hchunk : chunk.length > 0
    · -- the context is destroyed as the refused send left it, with the socket it had
      rw [if_pos hchunk, if_pos hchunk, alone_seq (alone_post_send _ _ _)]
      dsimp only
      have hsock := post_send_socket net { c.toclient_context_t with stream := stream } chunk t
      dsimp only at hsock
      generalize NtHandlers.post_send net _ chunk t = r at hsock ⊢
      obtain ⟨rc, ctx', t1⟩ := r
      by_cases hrc : rc = 0
      · simp only [hrc, ne_eq, not_true_eq_false, if_false, decide_true, if_true]
        rfl
      · simp only [hrc, ne_eq, not_false_eq_true, if_true, decide_false, Bool.false_eq_true,
          if_false]
        rw [alone_give_up, left_congr c]
        · exact hsock
        · rfl
    · -- the stream is at its end
      rw [if_neg hchunk, if_neg hchunk, alone_seq (alone_pure _ _ _), if_pos (by decide),
        alone_give_up, left_congr c]
      · rfl
      · rfl
      · rfl
  · -- there was no stream: the response is complete
    rw [alone_seq (alone_log_printf _), alone_destroy_client_context]

/-- What is parsed is the receive buffer up to its NUL. -/
theorem alone_received_request (indeterminate : u32) (e : σ × τ) :
    alone (outside net) (received_request ctx indeterminate) (holding h ctx c) e
      = (parse_http_request (handed c.toclient_context_t) indeterminate).map fun req =>
          (req, holding h ctx c, e) := by
  rw [received_request, alone_seq (alone_read e)]
  cases parse_http_request (handed c.toclient_context_t) indeterminate with
  | none => rfl
  | some req => rfl

variable (document_root : List u8)

/-- A send that cannot be posted ends the connection. -/
theorem alone_post_or_destroy (head : List u8) (s : σ) (t : τ) :
    alone (outside net) (do
        if (← post_send ctx head) ≠ 0 then
          log_printf ctx
          destroy_client_context fs ctx) (holding h ctx c) (s, t)
      = (let r := match NtHandlers.post_send net c.toclient_context_t head t with
          | (rc, ctx', t) =>
              if rc ≠ 0 then (none, Context.destroy_client_context fs net ctx' s t)
              else (some ctx', s, t)
        some ((), left h ctx c r.1, r.2)) := by
  rw [alone_seq (alone_post_send _ _ _)]
  have hsock := post_send_socket net c.toclient_context_t head t
  generalize NtHandlers.post_send net c.toclient_context_t head t = r at hsock ⊢
  obtain ⟨rc, ctx', t1⟩ := r
  dsimp only at hsock ⊢
  split_ifs with hrc
  · rw [alone_seq (alone_log_printf _), alone_destroy_client_context, left_congr c]
    · exact hsock
    · rfl
  · rfl

/-- The head is made by the very function the Win9x back end calls, into the buffer of the
context. -/
theorem alone_response_head (req : http_request_t) (s : σ) (t : τ) :
    alone (outside net) (response_head fs document_root ctx req) (holding h ctx c) (s, t)
      = (let r := serve_http_request document_root fs c.stream req HTTP_SEND_BUFFER_SIZE s
        if r.rc < 0 then
          some ((build_http_error_response 500 (ascii "Internal Server Error")
              HTTP_SEND_BUFFER_SIZE).getD [],
            holding h ctx { c with stream := (Context.stream_close fs r.ctx r.fs_state).1 },
            (Context.stream_close fs r.ctx r.fs_state).2, t)
        else some (r.out, holding h ctx { c with stream := r.ctx }, r.fs_state, t)) := by
  rw [response_head, alone_seq (alone_with_stream _ s t)]
  dsimp only
  split_ifs with hrc
  · rw [alone_seq (alone_stream_close fs _ t), alone_pure]
  · rw [alone_pure]

/-- The receive handler behind the parser. -/
theorem alone_respond (req : http_request_t) (s : σ) (t : τ) :
    alone (outside net) (do
        let head ← response_head fs document_root ctx req
        if (← post_send ctx head) ≠ 0 then
          log_printf ctx
          destroy_client_context fs ctx) (holding h ctx c) (s, t)
      = some ((), left h ctx c
            (NtHandlers.respond document_root fs net c.toclient_context_t req s t).1,
          (NtHandlers.respond document_root fs net c.toclient_context_t req s t).2) := by
  have hhead : alone (outside net) (response_head fs document_root ctx req) (holding h ctx c) (s, t)
      = _ := alone_response_head fs document_root req s t
  rw [NtHandlers.respond]
  dsimp only at hhead ⊢
  generalize (build_http_error_response 500 (ascii "Internal Server Error")
    HTTP_SEND_BUFFER_SIZE).getD [] = error at hhead ⊢
  by_cases hrc : (serve_http_request document_root fs c.stream req HTTP_SEND_BUFFER_SIZE s).rc < 0
  · rw [if_pos hrc] at hhead ⊢
    rw [alone_seq hhead, alone_post_or_destroy]
    dsimp only
    rw [left_congr c]
    · rfl
    · rfl
  · rw [if_neg hrc] at hhead ⊢
    rw [alone_seq hhead, alone_post_or_destroy]
    dsimp only
    rw [left_congr c]
    · rfl
    · rfl

/-- **A receive completion.** What was received is closed with a NUL and parsed, and the head that
is made of it is sent; a request that cannot be parsed has no end here, as in the function. -/
theorem alone_handle_recv_completion (bytes_transferred : ℕ) (indeterminate : u32) (s : σ) (t : τ) :
    alone (outside net) (handle_recv_completion fs document_root ctx bytes_transferred indeterminate)
        (holding h ctx c) (s, t)
      = (NtHandlers.handle_recv_completion document_root fs net c.toclient_context_t
          bytes_transferred indeterminate s t).map fun r => ((), left h ctx c r.1, r.2) := by
  rw [handle_recv_completion, NtHandlers.handle_recv_completion]
  split_ifs with hclosed
  · rw [alone_seq (alone_log_printf _), alone_destroy_client_context]
    rfl
  · rw [alone_seq (alone_assign _ _), alone_seq (alone_log_printf _), alone_bind,
      alone_received_request]
    dsimp only
    cases parse_http_request (handed (recv_terminate c.toclient_context_t bytes_transferred))
      indeterminate with
    | none => rfl -- neither reading says what the parser makes of the bytes behind
    | some req =>
        rw [Option.map_some, Option.bind_some, alone_respond]
        rfl

/-! ## A completion -/

/-- What a completion does, as `NtHandlers` has it. -/
def handled (fs : FileSystem σ) (net : Sockets τ) (document_root : List u8) (m : OVERLAPPED)
    (a : Completion) (c : client_context_t) (s : σ) (t : τ) :
    Option (Option client_context_t × σ × τ) :=
  match m.operation with
  | .OP_ACCEPT => none
  | .OP_RECV =>
      let (c, bytes_transferred) := recv_completed c a.arrived
      NtHandlers.handle_recv_completion document_root fs net c bytes_transferred a.indeterminate s t
  | .OP_SEND => some (NtHandlers.handle_send_completion fs net c s t)

variable (null_page : Option SOCKADDR_IN)

/-- A round of the worker is the handler that `dispatch` picks. -/
theorem alone_iocp_worker_round (m : OVERLAPPED) (bytes_transferred indeterminate : u32)
    (e : σ × τ) :
    alone (outside net) (iocp_worker_round fs null_page document_root m bytes_transferred
        indeterminate) (holding h m.ctx c) e
      = alone (outside net) (perform fs null_page document_root indeterminate
          (dispatch m.ctx c.toclient_context_t bytes_transferred)) (holding h m.ctx c) e := by
  rw [iocp_worker_round, alone_seq (alone_read e), alone_seq (alone_ask (a := ()) rfl _),
    worker_round_succeeded rfl rfl]
  dsimp only
  rw [List.forM_cons, List.forM_nil, alone_bind]
  generalize alone (outside net) (perform fs null_page document_root indeterminate _) _ e = r
  cases r with
  | none => rfl
  | some r => rfl

/-- The completion of a receive brings its bytes into the buffer, and their number. -/
theorem alone_completed_recv {m : OVERLAPPED} (hm : m.operation = .OP_RECV) (a : Completion)
    (e : σ × τ) :
    alone (outside net) (completed m a) (holding h m.ctx c) e
      = some (.ofNat (recv_completed c.toclient_context_t a.arrived).2,
          holding h m.ctx { c with
            toclient_context_t := (recv_completed c.toclient_context_t a.arrived).1 }, e) := by
  rw [completed, hm]
  dsimp only
  rw [alone_seq (alone_assign _ e), alone_pure]
  rfl

/-- The count that the completion reports fits its type. -/
theorem toNat_received (ctx : client_context_t) (arrived : List u8) :
    (UInt32.ofNat (recv_completed ctx arrived).2).toNat = (recv_completed ctx arrived).2 := by
  have hle : (arrived.take wsabuf_len).length ≤ wsabuf_len := List.length_take_le _ _
  have hlen : wsabuf_len < UInt32.size := by decide
  exact UInt32.toNat_ofNat_of_lt' (hle.trans_lt hlen)

/-- **A completion that nobody interrupts** does what `NtHandlers` says. -/
theorem alone_on_completion {m : OVERLAPPED} (hop : c.operation = m.operation) (a : Completion)
    {s s' : σ} {t t' : τ} {r : Option client_context_t}
    (hr : handled fs net document_root m a c.toclient_context_t s t = some (r, s', t')) :
    alone (outside net) (on_completion fs null_page document_root m a) (holding h m.ctx c) (s, t)
      = some ((), left h m.ctx c r, s', t') := by
  rw [on_completion]
  cases hm : m.operation with
  | OP_ACCEPT =>
      -- an accept is not one of the operations here
      rw [handled, hm] at hr
      cases hr
  | OP_RECV =>
      rw [handled, hm] at hr
      have hdispatch : dispatch m.ctx (recv_completed c.toclient_context_t a.arrived).1
          (.ofNat (recv_completed c.toclient_context_t a.arrived).2)
            = .handle_recv_completion m.ctx
              (.ofNat (recv_completed c.toclient_context_t a.arrived).2) := by
        rw [dispatch]
        simp only [recv_completed, hop, hm]
      -- the bytes arrive, and the round finds them in the context
      rw [alone_seq (alone_completed_recv hm a _), alone_iocp_worker_round]
      dsimp only
      rw [hdispatch, perform, toNat_received, alone_handle_recv_completion]
      dsimp only at hr ⊢
      rw [hr, Option.map_some, left_congr c]
      · rfl
      · rfl
  | OP_SEND =>
      rw [handled, hm] at hr
      dsimp only at hr
      rw [Option.some.injEq] at hr
      have hdispatch : dispatch m.ctx c.toclient_context_t a.sent
          = .handle_send_completion m.ctx a.sent := by
        rw [dispatch, hop, hm]
      -- nothing arrives with a send
      rw [completed, hm]
      dsimp only
      rw [alone_seq (alone_pure _ _ _), alone_iocp_worker_round, hdispatch, perform,
        alone_handle_send_completion, hr]

end

/-! ## In the system -/

/-- Every question has an answer. -/
theorem answer_nonempty (s : σ) (q : Call σ) : Nonempty (Call.Answer q) := by
  cases q with
  | make_socket => exact ⟨.INVALID_SOCKET⟩
  | CreateIoCompletionPort sock completion_key => exact ⟨true⟩
  | GetAcceptExSockaddrs buffer => exact ⟨(0 : ℕ)⟩
  | ssocket => exact ⟨.INVALID_SOCKET⟩
  | disk => exact ⟨s⟩
  | behind_request => exact ⟨⟨0, ⟨0, 0⟩, ⟨0, 0⟩, []⟩⟩
  | _ => exact ⟨()⟩

section

variable (fs : FileSystem σ) (net : Sockets τ) (document_root : List u8) {worker_threads : ℕ}

/-- The completion is delivered to the worker, which takes every step until it asks for the next. -/
theorem delivery_run (null_page : Option SOCKADDR_IN) {server : Server σ worker_threads}
    {i : Fin worker_threads} {m : OVERLAPPED} {c : nt_context_t}
    (hidle : is_idle (server.threads (some i))) (hm : m ∈ server.flight)
    (hc : server.heap (.context m.ctx) = some c) (hop : c.operation = m.operation)
    (a : Completion) {s s' : σ} {t t' : τ} {r : Option client_context_t}
    (hr : handled fs net document_root m a c.toclient_context_t s t = some (r, s', t')) :
    ∃ (choices : List (Choice (nt σ))) (server' : Server σ worker_threads),
      exec (server_step fs null_page document_root) server
          (.deliver (some i) m a :: choices.map (.run (some i))) = some server'
        ∧ server'.threads (some i) = .ret () ∧ server'.heap = left server.heap m.ctx c r := by
  obtain ⟨server1, hstep, hthread, hheap⟩ :
      ∃ server1, server_step fs null_page document_root server (.deliver (some i) m a)
          = some server1
        ∧ server1.threads (some i) = on_completion fs null_page document_root m a
        ∧ server1.heap = server.heap := by
    rw [server_step, step, if_pos ⟨rfl, hidle, hm⟩]
    exact ⟨_, rfl, Function.update_self .., rfl⟩
  have halone : alone (outside net) (on_completion fs null_page document_root m a)
      (holding server.heap m.ctx c) (s, t) = _ :=
    alone_on_completion fs document_root null_page hop a hr
  rw [holding_self hc, ← hheap] at halone
  obtain ⟨choices, server', hexec, hend⟩ := exec_alone (on_completion fs null_page document_root)
    Option.isSome (answer_nonempty s) (some i) _ hthread halone
  refine ⟨choices, server', ?_, hend.1, ?_⟩
  · rw [exec, hstep]
    exact hexec
  · rw [hend.2, hheap]

/-- **The two readings agree.** In every state the server reaches, a completion that is
delivered to an idle worker finds the context with its operation, and without an interruption
leaves the heap that `NtHandlers` says. -/
theorem completion_handled (null_page : Option SOCKADDR_IN)
    {as : List (NtAction σ worker_threads)}
    {server : Server σ worker_threads}
    (hreach : exec (server_step fs null_page document_root) (initial fs null_page worker_threads) as
      = some server) {i : Fin worker_threads} (hidle : is_idle (server.threads (some i)))
    {m : OVERLAPPED} (hm : m ∈ server.flight) :
    ∃ c, server.heap (.context m.ctx) = some c ∧ c.operation = m.operation
      ∧ ∀ (a : Completion) (s s' : σ) (t t' : τ) (r : Option client_context_t),
        handled fs net document_root m a c.toclient_context_t s t = some (r, s', t') →
        ∃ (choices : List (Choice (nt σ))) (server' : Server σ worker_threads),
          exec (server_step fs null_page document_root) server
              (.deliver (some i) m a :: choices.map (.run (some i))) = some server'
            ∧ server'.threads (some i) = .ret () ∧ server'.heap = left server.heap m.ctx c r := by
  obtain ⟨c, hc, hop, -⟩ := operation_named_of_safe (reachable_safe fs document_root hreach) hm
  exact ⟨c, hc, hop, fun a s s' t t' r hr =>
    delivery_run fs net document_root null_page hidle hm hc hop a hr⟩

end

end W32HttpServer.NtAlone

/-
What is sent on a connection of the NT server answers what was received on that connection.

The workers interleave as they like, all contexts are in one heap, and every completion of a
connection may be handled by another worker. What a run has received and sent for each context is
entered in a record (`talk`). Then in every run, whatever fails in it, and for every context, the
record is that of a conversation (`Answered`): nothing was sent, or the first buffer is the head
that `serve_http_request` makes of the bytes that were received, each further one is the next chunk
of the stream that this left in the context, and all of them went out on the socket the bytes came
in on.

The file system is shared and changes while the server runs. Each call finds it in some state,
and nothing is said of how the states are related (`Sends`).
-/
import Mathlib.Data.Fintype.Option
import W32HttpServer.Common
import W32HttpServer.HttpRequest
import W32HttpServer.HttpResponse
import W32HttpServer.Platform
import W32HttpServer.Context
import W32HttpServer.DirStream
import W32HttpServer.Serve
import W32HttpServer.Disk
import W32HttpServer.IocpWorker
import W32HttpServer.NtHandlers
import W32HttpServer.NtServer
import W32HttpServer.Lib.Transition
import W32HttpServer.Lib.Ownership
import W32HttpServer.Lib.Record

set_option autoImplicit false

namespace W32HttpServer.Conversation

open W32HttpServer.Common W32HttpServer.HttpRequest W32HttpServer.HttpResponse
open W32HttpServer.Platform
open W32HttpServer.Context (stream_state_t initial_stream handed client_context_t)
open W32HttpServer.Serve W32HttpServer.Disk W32HttpServer.IocpWorker
open W32HttpServer.NtHandlers (wsabuf_len recv_completed recv_terminate handed_recv_completed)
open W32HttpServer.NtServer
open W32HttpServer.Lib.Transition W32HttpServer.Lib.Ownership W32HttpServer.Lib.Record

variable {σ : Type}

/-! ## Conversations -/

/-- What was received and sent for a context, with the socket of each operation. -/
structure talk_t where
  received : Option (SOCKET × List u8)
  sent : List (SOCKET × List u8)
  deriving DecidableEq

/-- A send is entered when it has started, a receive when it completes. -/
def talk (σ : Type) : Recorder (nt σ) Completion talk_t where
  subject m := .context m.ctx
  carried _ := List.mem_cons_self
  start := ⟨none, []⟩
  posted m c talk :=
    if m.operation = .OP_SEND then
      { talk with sent := talk.sent ++ [(m.sock, c.send_buffer.take c.bytes_to_send)] }
    else talk
  taken m a talk :=
    if m.operation = .OP_RECV then
      { talk with received := some (m.sock, a.arrived.take wsabuf_len) }
    else talk

section

variable (fs : FileSystem σ) (document_root : List u8)

/-- The request the parser makes of the bytes; where a scan leaves them, any. -/
def Asks (received : List u8) (req : http_request_t) : Prop :=
  ∃ indeterminate, ∀ r, parse_http_request received indeterminate = some r → req = r

/-- The buffers that are sent for a request, and the stream that is left in the context. -/
inductive Sends (req : http_request_t) : List (List u8) → stream_state_t → Prop
  | head (s : σ)
      (h : ¬ (serve_http_request document_root fs initial_stream req HTTP_SEND_BUFFER_SIZE s).rc < 0) :
      Sends req [(serve_http_request document_root fs initial_stream req HTTP_SEND_BUFFER_SIZE s).out]
        (serve_http_request document_root fs initial_stream req HTTP_SEND_BUFFER_SIZE s).ctx
  | error (s s' : σ)
      (h : (serve_http_request document_root fs initial_stream req HTTP_SEND_BUFFER_SIZE s).rc < 0) :
      Sends req [(build_http_error_response 500 (ascii "Internal Server Error")
          HTTP_SEND_BUFFER_SIZE).getD []]
        (Context.stream_close fs
          (serve_http_request document_root fs initial_stream req HTTP_SEND_BUFFER_SIZE s).ctx s').1
  | chunk {sent : List (List u8)} {stream : stream_state_t} (s : σ) (h : Sends req sent stream)
      (hopen : stream.stream_kind ≠ .STREAM_NONE) :
      Sends req (sent ++ [(stream_next_chunk fs HTTP_SEND_BUFFER_SIZE stream s).1])
        (stream_next_chunk fs HTTP_SEND_BUFFER_SIZE stream s).2.1

/-- What was sent on `sock` answers what was received on it. -/
def Answers (sock : SOCKET) (talk : talk_t) (stream : stream_state_t) : Prop :=
  ∃ received req sent, talk.received = some (sock, received) ∧ Asks received req
    ∧ talk.sent = sent.map (sock, ·) ∧ Sends fs document_root req sent stream

/-- What is to be shown of the record of a context. -/
def Answered (talk : talk_t) : Prop :=
  talk.sent = [] ∨ ∃ sock stream, Answers fs document_root sock talk stream

/-! ## Owning a context, with its record -/

/-- The context is on the heap with its record, and so is its socket, if it has one. -/
structure Has (h : Heap (with_records (nt σ) talk_t)) (ctx : ℕ) (c : nt_context_t) (talk : talk_t) :
    Prop where
  context : h (.context ctx) = some (c, talk)
  socket : ∀ n, c.client_socket = .of n → h (.socket n) ≠ none

/-- The context an operation is posted with: unused up to the receive, and in the middle of an
answer from then on. -/
def Ready (m : OVERLAPPED) (c : nt_context_t) (talk : talk_t) : Prop :=
  match m.operation with
  | .OP_SEND => Answers fs document_root c.client_socket talk c.stream
  | _ => talk.sent = [] ∧ c.stream = initial_stream

/-- Any call may fail. -/
def conversation : Contract (with_records (nt σ) talk_t) where
  good m h := ∃ c talk, Has h m.ctx c talk ∧ c.operation = m.operation ∧ c.client_socket = m.sock
    ∧ Ready fs document_root m c talk
  allowed _ _ := True
  alloc_fails := True
  refused _ := True
  faults := True
  worth _ := 0
  alloc_price := 0
  refusal _ := 0
  price _ _ := 0

end

section

variable {fs : FileSystem σ} {document_root : List u8} {h : Heap (with_records (nt σ) talk_t)}
  {ctx k : ℕ} {c : nt_context_t} {g : talk_t}

/-- The context may change in any field but the socket. -/
theorem Has.set_context (hhas : Has h ctx c g) {c' : nt_context_t}
    (hsock : c'.client_socket = c.client_socket) :
    Has (h.set (.context ctx) (some (c', g))) ctx c' g where
  context := Heap.set_self _ _ _
  socket := by
    intro n hn
    rw [Heap.set_of_ne _ (by simp)]
    exact hhas.socket n (hsock ▸ hn)

/-- Reading the context. -/
theorem wp_read {Q : nt_context_t → Heap (with_records (nt σ) talk_t) → ℕ → Prop}
    (hc : h (.context ctx) = some (c, g)) (hQ : Q c h k) :
    wp (conversation fs document_root) (recorded (talk σ) (read ctx)) h k Q :=
  wp_recorded_load hc hQ

/-- Writing to it. -/
theorem wp_assign {Q : Unit → Heap (with_records (nt σ) talk_t) → ℕ → Prop}
    {f : nt_context_t → nt_context_t} (hc : h (.context ctx) = some (c, g))
    (hQ : Q () (h.set (.context ctx) (some (f c, g))) k) :
    wp (conversation fs document_root) (recorded (talk σ) (assign ctx f)) h k Q := by
  rw [assign, wp_recorded_bind]
  apply wp_read hc
  exact wp_recorded_store hc hQ

/-- And so it still has its record behind an assignment. -/
theorem Has.assign {Q : Unit → Heap (with_records (nt σ) talk_t) → ℕ → Prop}
    {f : nt_context_t → nt_context_t} (hhas : Has h ctx c g)
    (hsock : (f c).client_socket = c.client_socket) (hQ : ∀ h', Has h' ctx (f c) g → Q () h' k) :
    wp (conversation fs document_root) (recorded (talk σ) (assign ctx f)) h k Q :=
  wp_assign hhas.context (hQ _ (hhas.set_context hsock))

theorem wp_ask {q : Call σ} {Q : q.Answer → Heap (with_records (nt σ) talk_t) → ℕ → Prop}
    (hQ : ∀ a, Q a h k) :
    wp (conversation fs document_root) (recorded (talk σ) (ask (S := nt σ) q)) h k Q :=
  wp_recorded_ask trivial fun a => ⟨Nat.zero_le k, hQ a⟩

/-! ### What each function needs and leaves -/

/-- The file system is found in some state. -/
theorem Has.with_stream {R : Type} {Q : R → Heap (with_records (nt σ) talk_t) → ℕ → Prop}
    (hhas : Has h ctx c g) (f : stream_state_t → σ → R × stream_state_t × σ)
    (hQ : ∀ s h', Has h' ctx { c with stream := (f c.stream s).2.1 } g → Q (f c.stream s).1 h' k) :
    wp (conversation fs document_root) (recorded (talk σ) (with_stream ctx f)) h k Q := by
  rw [NtServer.with_stream, wp_recorded_bind]
  apply wp_read hhas.context
  rw [wp_recorded_bind]
  refine wp_ask fun s => ?_
  rw [wp_recorded_bind]
  refine hhas.assign rfl fun h1 hhas1 => ?_
  rw [wp_recorded_bind]
  exact wp_ask fun _ => hQ s h1 hhas1

theorem Has.stream_close {Q : Unit → Heap (with_records (nt σ) talk_t) → ℕ → Prop}
    (hhas : Has h ctx c g)
    (hQ : ∀ s h', Has h' ctx { c with stream := (Context.stream_close fs c.stream s).1 } g →
      Q () h' k) :
    wp (conversation fs document_root) (recorded (talk σ) (stream_close fs ctx)) h k Q :=
  hhas.with_stream _ hQ

/-- A socket that is not `INVALID_SOCKET` is closed, and its context stays. -/
theorem wp_closesocket {Q : Unit → Heap (with_records (nt σ) talk_t) → ℕ → Prop} {sock : SOCKET}
    (hsock : ∀ n, sock = .of n → h (.socket n) ≠ none)
    (hQ : ∀ h' : Heap (with_records (nt σ) talk_t), (∀ ctx, h' (.context ctx) = h (.context ctx)) →
      Q () h' k) :
    wp (conversation fs document_root) (recorded (talk σ) (closesocket sock)) h k Q := by
  cases sock with
  | INVALID_SOCKET => exact hQ h fun _ => rfl
  | of n =>
      rw [closesocket]
      exact wp_recorded_free (hsock n rfl) (hQ _ fun ctx => Heap.set_of_ne _ (by simp) _)

theorem Has.destroy {Q : Unit → Heap (with_records (nt σ) talk_t) → ℕ → Prop} (hhas : Has h ctx c g)
    (hQ : ∀ h', Q () h' k) :
    wp (conversation fs document_root) (recorded (talk σ) (destroy_client_context fs ctx)) h k Q := by
  rw [destroy_client_context, wp_recorded_bind]
  refine hhas.stream_close fun s h1 hhas1 => ?_
  rw [wp_recorded_bind]
  refine wp_read hhas1.context ?_
  have hfree : ∀ h' : Heap (with_records (nt σ) talk_t), h' (.context ctx) ≠ none →
      wp (conversation fs document_root)
        (recorded (talk σ) (free (S := nt σ) (.context ctx))) h' k Q :=
    fun h' hne => wp_recorded_free hne (hQ _)
  split_ifs with hsock
  · rw [wp_recorded_bind]
    refine wp_closesocket hhas1.socket fun h2 hkept => hfree h2 ?_
    rw [hkept ctx, hhas1.context]
    simp
  · exact hfree h1 (hhas1.context.trans_ne (by simp))

theorem Has.give_up {Q : Unit → Heap (with_records (nt σ) talk_t) → ℕ → Prop} (hhas : Has h ctx c g)
    (hQ : ∀ h', Q () h' k) :
    wp (conversation fs document_root)
      (recorded (talk σ) (do log_printf ctx; destroy_client_context fs ctx)) h k Q := by
  rw [wp_recorded_bind, log_printf, wp_recorded_bind]
  apply wp_read hhas.context
  exact hhas.destroy hQ

/-- The context goes to the system with the record that the operation is entered in. -/
theorem Has.post {Q : Bool → Heap (with_records (nt σ) talk_t) → ℕ → Prop} (hhas : Has h ctx c g)
    {m : OVERLAPPED} (hctx : m.ctx = ctx) (hop : c.operation = m.operation)
    (hsock : c.client_socket = m.sock)
    (hready : Ready fs document_root m c ((talk σ).posted m c g))
    (hstarted : ∀ h', Q true h' k) (hfailed : Q false h k) :
    wp (conversation fs document_root) (recorded (talk σ) (post (S := nt σ) m)) h k Q := by
  subst hctx
  apply wp_recorded_post hhas.context
  · exact fun _ => ⟨Nat.zero_le k, hfailed⟩
  · intro o (ho : o ∈ m.parcel)
    rw [OVERLAPPED.parcel, List.mem_cons] at ho
    rcases ho with rfl | ho
    · exact hhas.context.trans_ne (by simp)
    · cases hm : m.sock with
      | INVALID_SOCKET => rw [hm] at ho; exact absurd ho (by simp)
      | of n =>
          rw [hm, List.mem_singleton] at ho
          rw [ho]
          exact hhas.socket n (hsock.trans hm)
  · refine ⟨c, (talk σ).posted m c g, ⟨?_, fun n hn => ?_⟩, hop, hsock, hready⟩
    · have hmem : Object.context m.ctx ∈ m.parcel := List.mem_cons_self
      rw [Heap.restrict, if_pos hmem]
      exact Heap.set_self _ _ _
    · have hmem : Object.socket n ∈ m.parcel := by
        rw [OVERLAPPED.parcel, ← hsock, hn]
        simp
      rw [Heap.restrict, if_pos hmem, Heap.set_of_ne _ (by exact Object.noConfusion)]
      exact hhas.socket n hn
  · exact Nat.zero_le k
  · exact hstarted _

/-- The context is still unused when the receive is posted. -/
theorem Has.post_recv {Q : ℤ → Heap (with_records (nt σ) talk_t) → ℕ → Prop} (hhas : Has h ctx c g)
    (hsent : g.sent = []) (hstream : c.stream = initial_stream) (hposted : ∀ h', Q 0 h' k)
    (hfailed : ∀ h' c', Has h' ctx c' g → Q (-1) h' k) :
    wp (conversation fs document_root) (recorded (talk σ) (post_recv ctx)) h k Q := by
  rw [NtServer.post_recv, wp_recorded_bind]
  apply wp_read hhas.context
  split_ifs with hsock
  · exact hfailed h c hhas
  · rw [wp_recorded_bind]
    refine hhas.assign rfl fun h1 hhas1 => ?_
    rw [wp_recorded_bind]
    refine wp_read hhas1.context ?_
    rw [wp_recorded_bind]
    exact hhas1.post rfl rfl rfl ⟨hsent, hstream⟩ hposted (hfailed h1 _ hhas1)

/-- The buffer is the next one of the answer. -/
theorem Has.post_send {Q : ℤ → Heap (with_records (nt σ) talk_t) → ℕ → Prop} (hhas : Has h ctx c g)
    {received : List u8} {req : http_request_t} {sent : List (List u8)} {data : List u8}
    (hreceived : g.received = some (c.client_socket, received)) (hasks : Asks received req)
    (hsent : g.sent = sent.map (c.client_socket, ·))
    (hsends : Sends fs document_root req (sent ++ [data]) c.stream) (hposted : ∀ h', Q 0 h' k)
    (hfailed : ∀ h' c', Has h' ctx c' g → Q (-1) h' k) :
    wp (conversation fs document_root) (recorded (talk σ) (post_send ctx data)) h k Q := by
  rw [NtServer.post_send, wp_recorded_bind]
  apply wp_read hhas.context
  split_ifs with hguard
  · exact hfailed h c hhas
  · rw [wp_recorded_bind]
    refine hhas.assign rfl fun h1 hhas1 => ?_
    rw [wp_recorded_bind]
    refine wp_read hhas1.context ?_
    rw [wp_recorded_bind]
    -- what the operation sends is the buffer up to the number of bytes
    have hbuffer : (write_at c.send_buffer 0 data).take data.length = data := by
      rw [write_at, List.take_zero, List.nil_append, List.take_left']
      rfl
    refine hhas1.post rfl rfl rfl ⟨received, req, sent ++ [data], hreceived, hasks, ?_, hsends⟩
      hposted (hfailed h1 _ hhas1)
    show g.sent ++ [(c.client_socket, (write_at c.send_buffer 0 data).take data.length)] = _
    rw [hbuffer, hsent, List.map_append]
    rfl

/-- An accept is posted for a context of which nothing has been sent. -/
theorem Has.post_accept {Q : ℤ → Heap (with_records (nt σ) talk_t) → ℕ → Prop}
    (hhas : Has h ctx c g) (hnone : c.client_socket = .INVALID_SOCKET) (hsent : g.sent = [])
    (hstream : c.stream = initial_stream) (listen_socket : SOCKET) (hposted : ∀ h', Q 0 h' k)
    (hfailed : ∀ h' c', Has h' ctx c' g → Q (-1) h' k) :
    wp (conversation fs document_root) (recorded (talk σ) (post_accept listen_socket ctx)) h k Q := by
  rw [NtServer.post_accept]
  split_ifs
  · exact hfailed h c hhas
  · rw [wp_recorded_bind, NtServer.socket, wp_recorded_bind]
    refine wp_recorded_alloc (fun _ => ⟨Nat.zero_le k, ?_⟩) fun n _ => ?_
    · -- no socket could be made
      rw [wp_recorded_pure, wp_recorded_bind]
      refine hhas.assign hnone.symm fun h1 hhas1 => ?_
      rw [if_pos rfl]
      exact hfailed h1 _ hhas1
    · rw [wp_recorded_pure, wp_recorded_bind]
      have hcontext : Heap.set h (.socket n) (some ((), (talk σ).start)) (.context ctx)
          = some (c, g) := by
        rw [Heap.set_of_ne _ (by simp)]
        exact hhas.context
      apply wp_assign hcontext
      rw [if_neg (by simp), wp_recorded_bind]
      -- from here on the context has its socket
      have hhas1 : Has (Heap.set (Heap.set h (.socket n) (some ((), (talk σ).start))) (.context ctx)
          (some ({ c with client_socket := .of n }, g))) ctx { c with client_socket := .of n } g := by
        refine ⟨Heap.set_self _ _ _, fun n' hn' => ?_⟩
        obtain rfl : n = n' := by simpa using hn'
        rw [Heap.set_of_ne _ (by simp), Heap.set_self]
        simp
      refine hhas1.assign rfl fun h2 hhas2 => ?_
      rw [wp_recorded_bind]
      refine wp_read hhas2.context ?_
      rw [wp_recorded_bind]
      refine hhas2.post rfl rfl rfl ⟨hsent, hstream⟩ hposted ?_
      rw [if_neg (by simp), wp_recorded_bind]
      refine wp_read hhas2.context ?_
      rw [wp_recorded_bind]
      refine wp_closesocket hhas2.socket fun h3 hkept => ?_
      rw [wp_recorded_bind]
      refine wp_assign ((hkept ctx).trans hhas2.context) ?_
      exact hfailed _ _ ⟨Heap.set_self _ _ _, fun n' hn' => absurd hn' (by simp)⟩

/-- A new context has an empty record, no socket and no stream. -/
theorem wp_create_client_context {Q : Option ℕ → Heap (with_records (nt σ) talk_t) → ℕ → Prop}
    {null_page client_addr : Option SOCKADDR_IN} (hnone : Q none h k)
    (hsome : ∀ ctx h' c' g', Has h' ctx c' g' → c'.client_socket = .INVALID_SOCKET → g'.sent = [] →
      c'.stream = initial_stream → Q (some ctx) h' k) :
    wp (conversation fs document_root)
      (recorded (talk σ) (create_client_context null_page .INVALID_SOCKET client_addr)) h k Q := by
  rw [create_client_context, wp_recorded_bind]
  refine wp_recorded_alloc (fun _ => ⟨Nat.zero_le k, hnone⟩) fun ctx _ => ?_
  rw [wp_recorded_bind]
  refine wp_assign (Heap.set_self _ _ _) ?_
  have hhas : Has (Heap.set (Heap.set h (.context ctx) (some (zeroed, (talk σ).start)))
      (.context ctx) (some ({ zeroed with client_socket := .INVALID_SOCKET }, (talk σ).start))) ctx
      { zeroed with client_socket := .INVALID_SOCKET } (talk σ).start :=
    ⟨Heap.set_self _ _ _, fun n hn => absurd hn (by simp)⟩
  rw [wp_recorded_bind, deref]
  split
  next addr _ =>
    rw [wp_recorded_pure, wp_recorded_bind]
    refine hhas.assign rfl fun h1 hhas1 => ?_
    rw [wp_recorded_bind]
    refine hhas1.assign rfl fun h2 hhas2 => ?_
    exact hsome ctx h2 _ _ hhas2 rfl rfl rfl
  next => exact trivial

/-! ### The handlers -/

variable {null_page : Option SOCKADDR_IN}

/-- The context of the next accept is one of its own, and the one that is handled stays as it is. -/
theorem wp_new_accept {Q : Unit → Heap (with_records (nt σ) talk_t) → ℕ → Prop}
    (hQ : ∀ h', Q () h' k) :
    wp (conversation fs document_root) (recorded (talk σ) (new_accept fs null_page)) h k Q := by
  rw [new_accept, wp_recorded_bind]
  refine wp_create_client_context (hQ h) fun ctx h1 c1 g1 hhas1 hnone hsent hstream => ?_
  rw [wp_recorded_bind]
  refine wp_ask fun listen_socket => ?_
  rw [wp_recorded_bind]
  refine hhas1.post_accept hnone hsent hstream listen_socket (fun h2 => ?_) fun h2 c2 hhas2 => ?_
  · rw [if_neg (by simp)]
    exact hQ h2
  · rw [if_pos (by simp)]
    exact hhas2.destroy hQ

/-- **An accept completion** hands the accepted socket to the context and posts its first
receive. -/
theorem Has.handle_accept_completion (hhas : Has h ctx c g) (hsent : g.sent = [])
    (hstream : c.stream = initial_stream) :
    Verified (conversation fs document_root)
      (recorded (talk σ) (handle_accept_completion fs null_page ctx)) h 0 := by
  rw [Verified, NtServer.handle_accept_completion, wp_recorded_bind]
  apply wp_read hhas.context
  rw [wp_recorded_bind]
  refine wp_ask fun remote_addr => ?_
  rw [wp_recorded_bind]
  refine hhas.assign rfl fun h1 hhas1 => ?_
  rw [wp_recorded_bind]
  refine wp_read hhas1.context ?_
  rw [wp_recorded_bind, iocp_pool_associate_socket]
  -- whether the socket could be associated or not
  have hafter : ∀ rc : ℤ, wp (conversation fs document_root)
      (recorded (talk σ) (if rc ≠ 0 then destroy_client_context fs ctx else do
        log_printf ctx
        if (← NtServer.post_recv ctx) ≠ 0 then
          log_printf ctx
          destroy_client_context fs ctx
        else
          new_accept fs null_page)) h1 0 fun _ _ c' => c' = 0 := by
    intro rc
    split_ifs
    · exact hhas1.destroy fun _ => rfl
    · rw [wp_recorded_bind, log_printf, wp_recorded_bind]
      refine wp_read hhas1.context ?_
      rw [wp_recorded_pure, wp_recorded_bind]
      refine hhas1.post_recv hsent hstream (fun h2 => ?_) fun h2 c2 hhas2 => ?_
      · -- the context is the system's now, and is not mentioned again
        rw [if_neg (by simp)]
        exact wp_new_accept fun _ => rfl
      · rw [if_pos (by simp)]
        exact hhas2.give_up fun _ => rfl
  split_ifs
  · exact hafter (-1)
  · rw [wp_recorded_bind]
    exact wp_ask fun ok => hafter (if ok then 0 else -1)

/-- The request is the one that the bytes of the record make. -/
theorem Has.received_request {Q : http_request_t → Heap (with_records (nt σ) talk_t) → ℕ → Prop}
    (hhas : Has h ctx c g) (indeterminate : u32)
    (hQ : ∀ req, Asks (handed c.toclient_context_t) req → Q req h k) :
    wp (conversation fs document_root)
      (recorded (talk σ) (received_request ctx indeterminate)) h k Q := by
  rw [NtServer.received_request, wp_recorded_bind]
  apply wp_read hhas.context
  split
  next req hreq =>
    refine hQ req ⟨indeterminate, fun r hr => ?_⟩
    rw [hreq] at hr
    exact Option.some.inj hr
  next hnone =>
    refine wp_ask fun req => hQ req ⟨indeterminate, fun r hr => ?_⟩
    rw [hnone] at hr
    exact absurd hr nofun

/-- The head is the one the server makes of the request, with the stream it leaves. -/
theorem Has.response_head {Q : List u8 → Heap (with_records (nt σ) talk_t) → ℕ → Prop}
    (hhas : Has h ctx c g) (hstream : c.stream = initial_stream) (req : http_request_t)
    (hQ : ∀ head stream h', Sends fs document_root req [head] stream →
      Has h' ctx { c with stream := stream } g → Q head h' k) :
    wp (conversation fs document_root)
      (recorded (talk σ) (response_head fs document_root ctx req)) h k Q := by
  rw [NtServer.response_head, wp_recorded_bind]
  refine hhas.with_stream _ fun s h1 hhas1 => ?_
  rw [hstream] at hhas1 ⊢
  dsimp only
  split_ifs with hrc
  · rw [wp_recorded_bind]
    exact hhas1.stream_close fun s' h2 hhas2 => hQ _ _ h2 (.error s s' hrc) hhas2
  · exact hQ _ _ h1 (.head s hrc) hhas1

/-- **A receive completion** sends the head of the answer to what was received. -/
theorem Has.handle_recv_completion (hhas : Has h ctx c g) {bytes_transferred : ℕ}
    (hreceived : g.received = some (c.client_socket,
      handed (recv_terminate c.toclient_context_t bytes_transferred)))
    (hsent : g.sent = []) (hstream : c.stream = initial_stream) (indeterminate : u32) :
    Verified (conversation fs document_root) (recorded (talk σ)
      (handle_recv_completion fs document_root ctx bytes_transferred indeterminate)) h 0 := by
  rw [Verified, NtServer.handle_recv_completion]
  split_ifs
  · exact hhas.give_up fun _ => rfl
  · rw [wp_recorded_bind]
    refine hhas.assign rfl fun h1 hhas1 => ?_
    rw [wp_recorded_bind, log_printf, wp_recorded_bind]
    refine wp_read hhas1.context ?_
    rw [wp_recorded_pure, wp_recorded_bind]
    refine hhas1.received_request indeterminate fun req hasks => ?_
    rw [wp_recorded_bind]
    refine hhas1.response_head hstream req fun head stream h2 hsends hhas2 => ?_
    rw [wp_recorded_bind]
    have hnothing : g.sent = ([] : List (List u8)).map (c.client_socket, ·) := hsent
    refine hhas2.post_send hreceived hasks hnothing hsends (fun h3 => ?_) fun h3 c3 hhas3 => ?_
    · rw [if_neg (by simp)]
      rfl
    · rw [if_pos (by simp)]
      exact hhas3.give_up fun _ => rfl

/-- **A send completion** sends the next chunk of the stream that the head has left. -/
theorem Has.handle_send_completion (hhas : Has h ctx c g)
    (hanswers : Answers fs document_root c.client_socket g c.stream) :
    Verified (conversation fs document_root)
      (recorded (talk σ) (handle_send_completion fs ctx)) h 0 := by
  obtain ⟨received, req, sent, hreceived, hasks, hsent, hsends⟩ := hanswers
  rw [Verified, NtServer.handle_send_completion, wp_recorded_bind]
  apply wp_read hhas.context
  split_ifs with hopen
  · rw [wp_recorded_bind]
    refine hhas.with_stream _ fun s h1 hhas1 => ?_
    rw [wp_recorded_bind]
    have hend : ∀ (rc : ℤ) (h2 : Heap (with_records (nt σ) talk_t)) (c2 : nt_context_t), rc ≠ 0 →
        Has h2 ctx c2 g → wp (conversation fs document_root)
          (recorded (talk σ) (if rc ≠ 0 then do
            NtServer.stream_close fs ctx
            log_printf ctx
            destroy_client_context fs ctx
          else pure ())) h2 0 fun _ _ c' => c' = 0 := by
      intro rc h2 c2 hrc hhas2
      rw [if_pos hrc, wp_recorded_bind]
      exact hhas2.stream_close fun s' h3 hhas3 => hhas3.give_up fun _ => rfl
    rw [post_chunk]
    split_ifs
    · refine hhas1.post_send hreceived hasks hsent (.chunk s hsends hopen) (fun h2 => ?_)
        fun h2 c2 hhas2 => hend (-1) h2 c2 (by simp) hhas2
      rw [if_neg (by simp)]
      rfl
    · exact hend (-1) h1 _ (by simp) hhas1
  · exact hhas.give_up fun _ => rfl

/-! ### The threads -/

/-- The round comes down to the handler that the operation of the context selects. -/
theorem Has.iocp_worker_round {m : OVERLAPPED} (hhas : Has h m.ctx c g)
    {bytes_transferred indeterminate : u32}
    (hperform : Verified (conversation fs document_root) (recorded (talk σ)
      (perform fs null_page document_root indeterminate
        (dispatch m.ctx c.toclient_context_t bytes_transferred))) h 0) :
    Verified (conversation fs document_root) (recorded (talk σ)
      (iocp_worker_round fs null_page document_root m bytes_transferred indeterminate)) h 0 := by
  rw [Verified, NtServer.iocp_worker_round, wp_recorded_bind]
  apply wp_read hhas.context
  rw [wp_recorded_bind]
  refine wp_ask fun _ => ?_
  rw [worker_round_succeeded rfl rfl]
  dsimp only
  rw [List.forM_cons, List.forM_nil, wp_recorded_bind]
  exact hperform

/-- The completion of a receive puts the bytes in the buffer that are in the record. -/
theorem handed_completed (ctx : client_context_t) (arrived : List u8) :
    handed (recv_terminate (recv_completed ctx arrived).1
        (UInt32.ofNat (arrived.take wsabuf_len).length).toNat)
      = arrived.take wsabuf_len := by
  have hle : (arrived.take wsabuf_len).length ≤ wsabuf_len := List.length_take_le _ _
  have hcount : (UInt32.ofNat (arrived.take wsabuf_len).length).toNat
      = (arrived.take wsabuf_len).length := UInt32.toNat_ofNat_of_lt' (hle.trans_lt (by decide))
  have hhanded := handed_recv_completed ctx (arrived.take wsabuf_len) hle
  rw [recv_completed, List.take_take, min_self] at hhanded
  rw [hcount]
  exact hhanded

/-- One completion, whichever it is: it is handled for a context that is ready for it. -/
theorem Has.on_completion {m : OVERLAPPED} {a : Completion}
    (hhas : Has h m.ctx c ((talk σ).taken m a g)) (hop : c.operation = m.operation)
    (hsock : c.client_socket = m.sock) (hready : Ready fs document_root m c g) :
    Verified (conversation fs document_root)
      (recorded (talk σ) (on_completion fs null_page document_root m a)) h 0 := by
  rw [Verified, NtServer.on_completion, wp_recorded_bind, completed]
  cases hm : m.operation with
  | OP_ACCEPT =>
      rw [Ready, hm] at hready
      have htaken : (talk σ).taken m a g = g := by simp [talk, hm]
      rw [htaken] at hhas
      dsimp only
      rw [wp_recorded_pure]
      refine hhas.iocp_worker_round ?_
      rw [dispatch, hop.trans hm, perform]
      exact hhas.handle_accept_completion hready.1 hready.2
  | OP_RECV =>
      rw [Ready, hm] at hready
      have htaken : (talk σ).taken m a g
          = { g with received := some (c.client_socket, a.arrived.take wsabuf_len) } := by
        simp [talk, hm, hsock]
      rw [htaken] at hhas
      dsimp only
      rw [wp_recorded_bind]
      have hkept : ∀ ctx : client_context_t,
          (recv_completed ctx a.arrived).1.client_socket = ctx.client_socket := fun _ => rfl
      -- the system writes the bytes, and the record has them already
      refine hhas.assign (hkept _) fun h2 hhas2 => ?_
      rw [wp_recorded_pure]
      refine hhas2.iocp_worker_round ?_
      rw [dispatch, show (recv_completed c.toclient_context_t a.arrived).1.operation = _ from
        hop.trans hm, perform]
      refine hhas2.handle_recv_completion ?_ hready.1 hready.2 a.indeterminate
      rw [handed_completed]
      rfl
  | OP_SEND =>
      rw [Ready, hm] at hready
      have htaken : (talk σ).taken m a g = g := by simp [talk, hm]
      rw [htaken] at hhas
      dsimp only
      rw [wp_recorded_pure]
      refine hhas.iocp_worker_round ?_
      rw [dispatch, hop.trans hm, perform]
      exact hhas.handle_send_completion hready

/-- A completion is handled by whichever worker it is delivered to. -/
theorem verified_on_completion (m : OVERLAPPED) (a : Completion)
    (hgood : (conversation fs document_root).good m h) :
    Verified (conversation fs document_root)
      (recorded_handler (talk σ) (on_completion fs null_page document_root) m a) h 0 := by
  obtain ⟨c, g, hhas, hop, hsock, hready⟩ := hgood
  refine ⟨(c, g), hhas.context, hhas.context.trans_ne (Option.some_ne_none _), ?_⟩
  -- the delivery has been entered
  have hentered : Has (Heap.set h (.context m.ctx) (some (c, (talk σ).taken m a g))) m.ctx c
      ((talk σ).taken m a g) := by
    refine ⟨Heap.set_self _ _ _, fun n hn => ?_⟩
    rw [Heap.set_of_ne _ (by simp)]
    exact hhas.socket n hn
  exact hentered.on_completion hop hsock hready

/-- The accepts of the listener are each for a context of their own. -/
theorem wp_post_accepts {Q : Unit → Heap (with_records (nt σ) talk_t) → ℕ → Prop}
    (hQ : ∀ h', Q () h' k) (i : ℕ) : ∀ {h : Heap (with_records (nt σ) talk_t)},
    wp (conversation fs document_root) (recorded (talk σ) (post_accepts fs null_page i)) h k Q := by
  induction i with
  | zero => exact fun {h} => hQ h
  | succ i ih =>
      intro h
      rw [post_accepts, wp_recorded_bind]
      exact wp_new_accept fun h1 => ih

/-- **The listener** makes contexts and posts accepts, and touches none of another thread. -/
theorem verified_run_server_nt (worker_threads : ℕ) :
    Verified (conversation fs document_root)
      (recorded (talk σ) (run_server_nt fs null_page worker_threads)) h 0 := by
  have hclose : ∀ h' : Heap (with_records (nt σ) talk_t), wp (conversation fs document_root)
      (recorded (talk σ) (ask (S := nt σ) .closesocket)) h' 0 fun _ _ k' => k' = 0 :=
    fun h' => wp_ask fun _ => rfl
  rw [Verified, run_server_nt, wp_recorded_bind]
  refine wp_ask fun sock => ?_
  rw [wp_recorded_bind, iocp_pool_associate_socket]
  have hafter : ∀ rc : ℤ, wp (conversation fs document_root) (recorded (talk σ)
      (if rc ≠ 0 then ask (S := nt σ) .closesocket else do
        post_accepts fs null_page worker_threads
        wait_loop)) h 0 fun _ _ c' => c' = 0 := by
    intro rc
    split_ifs
    · exact hclose h
    · rw [wp_recorded_bind]
      refine wp_post_accepts (fun h1 => ?_) worker_threads
      rw [wait_loop, wp_recorded_bind]
      exact wp_ask fun _ => hclose h1
  split_ifs
  · exact hafter (-1)
  · rw [wp_recorded_bind]
    exact wp_ask fun ok => hafter (if ok then 0 else -1)

end

/-! ## Every run -/

section

variable (fs : FileSystem σ) (null_page : Option SOCKADDR_IN) (document_root : List u8)
  {worker_threads : ℕ}

/-- What a run has received and sent for the context at `ctx`. -/
def talk_of (as : List (NtAction σ worker_threads)) (ctx : ℕ) : talk_t :=
  history (talk σ) (on_completion fs null_page document_root) Option.isSome
    (initial fs null_page worker_threads) (fun _ => ⟨none, []⟩) as (.context ctx)

variable {fs document_root} in
/-- A record with an operation outstanding is that of a conversation, and stays so when the
operation completes. -/
theorem Ready.answered {m : OVERLAPPED} {c : nt_context_t} {g : talk_t}
    (h : Ready fs document_root m c g) : Answered fs document_root g
      ∧ ∀ a, Answered fs document_root ((talk σ).taken m a g) := by
  rw [Ready] at h
  cases hm : m.operation with
  | OP_ACCEPT =>
      rw [hm] at h
      have htaken : ∀ a, (talk σ).taken m a g = g := fun a => by simp [talk, hm]
      exact ⟨Or.inl h.1, fun a => Or.inl ((htaken a).symm ▸ h.1)⟩
  | OP_RECV =>
      rw [hm] at h
      refine ⟨Or.inl h.1, fun a => Or.inl ?_⟩
      simpa [talk, hm] using h.1
  | OP_SEND =>
      rw [hm] at h
      have htaken : ∀ a, (talk σ).taken m a g = g := fun a => by simp [talk, hm]
      exact ⟨Or.inr ⟨_, _, h⟩, fun a => Or.inr ⟨_, _, (htaken a).symm ▸ h⟩⟩

/-- What holds of every conversation holds of every record of a run. -/
theorem holds_of_talk {P : talk_t → Prop} (hP : ∀ g, Answered fs document_root g → P g)
    (as : List (NtAction σ worker_threads)) (s : Server σ worker_threads)
    (hs : exec (server_step fs null_page document_root) (initial fs null_page worker_threads) as
      = some s) (ctx : ℕ) : P (talk_of fs null_page document_root as ctx) := by
  have hstart : Kept (conversation fs document_root) (talk σ) (Answered fs document_root)
      (initial fs null_page worker_threads) fun _ => ⟨none, []⟩ := by
    refine kept_start (fun _ => 0) (fun t => ?_) (Or.inl rfl)
    cases t with
    | none => exact verified_run_server_nt worker_threads
    | some i => rfl
  apply hP
  refine records_of_run (P := Answered fs document_root) trivial (fun _ => trivial)
    (fun m a _ hgood => verified_on_completion m a hgood) ?_ (Or.inl rfl) hstart hs (.context ctx)
  rintro m h v ⟨c, g, hhas, -, -, hready⟩ hsubject
  obtain rfl := Option.some.inj (hhas.context.symm.trans hsubject)
  exact hready.answered

/-- **Every answer is to the own request**, in every run, with any number of workers and whatever
fails. Each function keeps the record of the context it has; that no other thread touches the
context meanwhile is what the contract is for. -/
theorem each_answered (as : List (NtAction σ worker_threads)) (s : Server σ worker_threads)
    (hs : exec (server_step fs null_page document_root) (initial fs null_page worker_threads) as
      = some s) (ctx : ℕ) :
    Answered fs document_root (talk_of fs null_page document_root as ctx) :=
  holds_of_talk fs null_page document_root (fun _ h => h) as s hs ctx

end

/-! ## Two clients at a time -/

/-- Every call succeeds, and no file or search is open. -/
def succeed : ∀ q : Call handles_t, q.Answer
  | .make_socket => .of 0
  | .CreateIoCompletionPort _ _ => true
  | .GetAcceptExSockaddrs _ => (0 : ℕ)
  | .ssocket => .of 0
  | .disk => ([] : handles_t)
  | .behind_request => (⟨0, ⟨0, 0⟩, ⟨0, 0⟩, []⟩ : http_request_t)
  | .disk_is _ | .switch _ _ | .Sleep | .closesocket => ()

/-- So many steps with nothing to choose. -/
def plain (n : ℕ) : List (Choice (nt handles_t)) := List.replicate n .plain

def asked : List (Choice (nt handles_t)) := [.answered succeed]

/-- An accept is posted with the context at `ctx` and the socket `sock`. -/
def posting_accept (ctx sock : ℕ) : List (Choice (nt handles_t)) :=
  .allocated (some ctx) :: plain 6 ++ asked ++ .allocated (some sock) :: plain 5 ++ [.posted true]

/-- A client is accepted, and there is no memory for another accept. -/
def accepting : List (Choice (nt handles_t)) :=
  plain 1 ++ asked ++ plain 1 ++ asked ++ plain 3 ++ asked ++ plain 5
    ++ [.posted true, .allocated none]

/-- A request is answered. -/
def answering : List (Choice (nt handles_t)) :=
  plain 3 ++ asked ++ plain 5 ++ asked ++ plain 2 ++ asked ++ plain 4 ++ [.posted true]

def worker_0 : Thread 2 := some ⟨0, Nat.zero_lt_two⟩

def worker_1 : Thread 2 := some ⟨1, Nat.one_lt_two⟩

/-- Both workers take these steps, turn by turn. -/
def in_turn (choices : List (Choice (nt handles_t))) : List (NtAction handles_t 2) :=
  choices.flatMap fun c => [.run worker_0 c, .run worker_1 c]

def get_a : List u8 := ascii "GET /a HTTP/1.0\r\nHost: x\r\n\r\n"

def put_b : List u8 := ascii "PUT /b HTTP/1.0\r\nHost: x\r\n\r\n"

/-- Two clients are accepted by two workers, and then each is answered by the other one. -/
def two_clients : List (NtAction handles_t 2) :=
  (asked ++ asked ++ posting_accept 1 2 ++ posting_accept 3 4).map (.run none)
    ++ [.deliver worker_0 ⟨.OP_ACCEPT, 1, .of 2⟩ ⟨[], 0, 0⟩,
      .deliver worker_1 ⟨.OP_ACCEPT, 3, .of 4⟩ ⟨[], 0, 0⟩] ++ in_turn accepting
    ++ [.deliver worker_0 ⟨.OP_RECV, 3, .of 4⟩ ⟨put_b, 0, 0⟩,
      .deliver worker_1 ⟨.OP_RECV, 1, .of 2⟩ ⟨get_a, 0, 0⟩] ++ in_turn answering

def one_page : tree_t := [(ascii "r\\a", .file (ascii "hello"))]

theorem each_answered_two_clients :
    ∃ s, exec (server_step (disk one_page) (some 0) (ascii "r"))
        (initial (disk one_page) (some 0) 2) two_clients = some s
      ∧ (talk_of (disk one_page) (some 0) (ascii "r") two_clients 1).received
        = some (.of 2, get_a)
      ∧ (talk_of (disk one_page) (some 0) (ascii "r") two_clients 3).received
        = some (.of 4, put_b)
      ∧ (talk_of (disk one_page) (some 0) (ascii "r") two_clients 1).sent.map Prod.fst = [.of 2]
      ∧ (talk_of (disk one_page) (some 0) (ascii "r") two_clients 3).sent.map Prod.fst = [.of 4]
      ∧ ∀ ctx, Answered (disk one_page) (ascii "r")
        (talk_of (disk one_page) (some 0) (ascii "r") two_clients ctx) := by
  have hsome : (exec (server_step (disk one_page) (some 0) (ascii "r"))
      (initial (disk one_page) (some 0) 2) two_clients).isSome := by
    decide +kernel
  obtain ⟨s, hs⟩ := Option.isSome_iff_exists.mp hsome
  exact ⟨s, hs, by decide +kernel, by decide +kernel, by decide +kernel, by decide +kernel,
    each_answered (disk one_page) (some 0) (ascii "r") two_clients s hs⟩

end W32HttpServer.Conversation

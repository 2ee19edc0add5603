/-
Who has a client context on the NT path: the thread that made it or took its last
completion, or the system while an operation on it is outstanding.

There is no lock. Each handler must hand its context on or destroy it on every exit, and not
look at it afterwards. `Owns` is what a thread has of a context, `ownership` is the contract
between the one that posts an operation and the one that takes its completion, and each
function is verified alone against it. `contexts_owned` is then an instance of the rule for
runs.
-/
import Mathlib.Data.Fintype.Option
import W32HttpServer.Common
import W32HttpServer.HttpRequest
import W32HttpServer.Platform
import W32HttpServer.Context
import W32HttpServer.Serve
import W32HttpServer.Disk
import W32HttpServer.IocpWorker
import W32HttpServer.NtServer
import W32HttpServer.Lib.Ownership

set_option autoImplicit false

namespace W32HttpServer.NtOwnership

open W32HttpServer.Common W32HttpServer.HttpRequest W32HttpServer.Platform
open W32HttpServer.Context (stream_state_t)
open W32HttpServer.Serve W32HttpServer.Disk W32HttpServer.IocpWorker W32HttpServer.NtServer
open W32HttpServer.Lib.Transition W32HttpServer.Lib.Ownership

variable {σ : Type}

/-! ## Owning a context -/

/-- The context and, where it has one, its socket. -/
structure Owns (h : Heap (nt σ)) (ctx : ℕ) (c : nt_context_t) : Prop where
  context : h (.context ctx) = some c
  socket : ∀ n, c.client_socket = .of n → h (.socket n) ≠ none

/-- What the handler of a completion relies on. -/
def Carries (m : OVERLAPPED) (h : Heap (nt σ)) : Prop :=
  ∃ c, Owns h m.ctx c ∧ c.operation = m.operation ∧ c.client_socket = m.sock
    ∧ c.client_socket ≠ .INVALID_SOCKET

def Allowed : Call σ → Heap (nt σ) → Prop
  | .CreateIoCompletionPort sock (some ctx), h => ∃ c, Owns h ctx c ∧ c.client_socket = sock
  | .switch completed operation, _ => completed = operation
  | _, _ => True

/-- The accepts that an answer costs: all of them where there is no listening socket, and one
where the socket of a client cannot be associated or the listening socket is gone. -/
def price (worker_threads : ℕ) : ∀ q : Call σ, q.Answer → ℕ
  | .make_socket, .INVALID_SOCKET => worker_threads
  | .CreateIoCompletionPort _ none, false => worker_threads
  | .CreateIoCompletionPort _ (some _), false => 1
  | .ssocket, .INVALID_SOCKET => 1
  | _, _ => 0

/-- Any call may fail. A credit is an accept that will be posted, and an allocation, an accept
or a receive that fails costs one. Where address zero cannot be read a thread may end in a
fault. -/
def ownership (null_page : Option SOCKADDR_IN) (worker_threads : ℕ) : Contract (nt σ) where
  good := Carries
  allowed := Allowed
  alloc_fails := True
  refused _ := True
  faults := null_page = none
  worth m := if m.operation = .OP_ACCEPT then 1 else 0
  alloc_price := 1
  refusal m := if m.operation = .OP_SEND then 0 else 1
  price := price worker_threads

section

variable {C : Contract (nt σ)} {h : Heap (nt σ)} {ctx k : ℕ} {c : nt_context_t}

/-- A context stays owned when it is written to, as long as its socket stays. -/
theorem Owns.set_context (hown : Owns h ctx c) {c' : nt_context_t}
    (hsock : c'.client_socket = c.client_socket) :
    Owns (h.set (.context ctx) (some c')) ctx c' where
  context := Heap.set_self _ _ _
  socket := by
    intro n hn
    rw [Heap.set_of_ne _ (by simp)]
    exact hown.socket n (hsock ▸ hn)

/-- An assignment to its other fields keeps it. -/
theorem Owns.assign {Q : Unit → Heap (nt σ) → ℕ → Prop} {f : nt_context_t → nt_context_t}
    (hown : Owns h ctx c) (hsock : (f c).client_socket = c.client_socket)
    (hQ : ∀ h', Owns h' ctx (f c) → Q () h' k) : wp C (assign ctx f) h k Q :=
  wp_assign hown.context (hQ _ (hown.set_context hsock))

/-! ### What each function needs and leaves -/

/-- A socket that is not `INVALID_SOCKET` is closed, and its context stays. -/
theorem wp_closesocket {Q : Unit → Heap (nt σ) → ℕ → Prop} {sock : SOCKET}
    (hsock : ∀ n, sock = .of n → h (.socket n) ≠ none)
    (hQ : ∀ h' : Heap (nt σ), (∀ ctx, h' (.context ctx) = h (.context ctx)) → Q () h' k) :
    wp C (closesocket sock) h k Q := by
  cases sock with
  | INVALID_SOCKET => exact hQ h fun _ => rfl
  | of n =>
      rw [closesocket, wp_free]
      exact ⟨hsock n rfl, hQ _ fun ctx => Heap.set_of_ne _ (by simp) _⟩

end

section

variable {null_page : Option SOCKADDR_IN} {worker_threads : ℕ} {h : Heap (nt σ)} {ctx k : ℕ}
  {c : nt_context_t}

/-- And so does work on its stream. -/
theorem Owns.with_stream {R : Type} {Q : R → Heap (nt σ) → ℕ → Prop} (hown : Owns h ctx c)
    (f : stream_state_t → σ → R × stream_state_t × σ)
    (hQ : ∀ r h' c', Owns h' ctx c' → Q r h' k) :
    wp (ownership null_page worker_threads) (with_stream ctx f) h k Q := by
  rw [NtServer.with_stream, wp_bind]
  apply wp_read hown.context
  rw [wp_bind]
  refine wp_ask_free trivial (fun _ => rfl) fun s => ?_
  rw [wp_bind]
  refine hown.assign rfl fun h1 hown1 => ?_
  rw [wp_bind]
  exact wp_ask_free trivial (fun _ => rfl) fun _ => hQ _ _ _ hown1

variable (fs : FileSystem σ)

theorem Owns.stream_close {Q : Unit → Heap (nt σ) → ℕ → Prop} (hown : Owns h ctx c)
    (hQ : ∀ h' c', Owns h' ctx c' → Q () h' k) :
    wp (ownership null_page worker_threads) (stream_close fs ctx) h k Q :=
  hown.with_stream _ fun _ => hQ

/-- A context is destroyed with its socket. -/
theorem Owns.destroy {Q : Unit → Heap (nt σ) → ℕ → Prop} (hown : Owns h ctx c)
    (hQ : ∀ h', Q () h' k) :
    wp (ownership null_page worker_threads) (destroy_client_context fs ctx) h k Q := by
  rw [destroy_client_context, wp_bind]
  refine hown.stream_close fs fun h1 c1 hown1 => ?_
  rw [wp_bind]
  refine wp_read hown1.context ?_
  have hfree : ∀ h' : Heap (nt σ), h' (.context ctx) ≠ none →
      wp (ownership null_page worker_threads) (free (S := nt σ) (.context ctx)) h' k Q :=
    fun h' hne => by
    rw [wp_free]
    exact ⟨hne, hQ _⟩
  split_ifs with hsock
  · rw [wp_bind]
    refine wp_closesocket hown1.socket fun h2 hkept => hfree h2 ?_
    rw [hkept ctx, hown1.context]
    simp
  · exact hfree h1 (hown1.context.trans_ne (by simp))

/-- An operation is posted: the context is the system's, or nothing has happened. -/
theorem Owns.post {Q : Bool → Heap (nt σ) → ℕ → Prop} (hown : Owns h ctx c) {m : OVERLAPPED}
    (hctx : m.ctx = ctx) (hop : c.operation = m.operation) (hsock : c.client_socket = m.sock)
    (hvalid : c.client_socket ≠ .INVALID_SOCKET)
    (hworth : (ownership (σ := σ) null_page worker_threads).worth m ≤ k)
    (hstarted : ∀ h', Q true h' (k - (ownership (σ := σ) null_page worker_threads).worth m))
    (hrefusal : (ownership (σ := σ) null_page worker_threads).refusal m ≤ k)
    (hfailed : Q false h (k - (ownership (σ := σ) null_page worker_threads).refusal m)) :
    wp (ownership null_page worker_threads) (post (S := nt σ) m) h k Q := by
  subst hctx
  have hparcel : ∀ o ∈ m.parcel, h o ≠ none := by
    intro o ho
    rw [OVERLAPPED.parcel, List.mem_cons] at ho
    rcases ho with rfl | ho
    · exact hown.context.trans_ne (by simp)
    · cases hm : m.sock with
      | INVALID_SOCKET => rw [hm] at ho; exact absurd ho (by simp)
      | of n =>
          rw [hm, List.mem_singleton] at ho
          rw [ho]
          exact hown.socket n (hsock.trans hm)
  -- the context and its socket are all of what the handler relies on
  have hgood : Carries m (h.restrict m.parcel) := by
    refine ⟨c, ⟨?_, fun n hn => ?_⟩, hop, hsock, hvalid⟩
    · have hmem : Object.context m.ctx ∈ m.parcel := List.mem_cons_self
      rw [Heap.restrict, if_pos hmem]
      exact hown.context
    · have hmem : Object.socket n ∈ m.parcel := by
        rw [OVERLAPPED.parcel, ← hsock, hn]
        simp
      rw [Heap.restrict, if_pos hmem]
      exact hown.socket n hn
  rw [wp_post]
  exact ⟨fun _ => ⟨hrefusal, hfailed⟩, hparcel, hgood, hworth, hstarted _⟩

/-- A receive that cannot be posted costs one accept. -/
theorem Owns.post_recv {Q : ℤ → Heap (nt σ) → ℕ → Prop} (hown : Owns h ctx c)
    (hvalid : c.client_socket ≠ .INVALID_SOCKET) (hposted : ∀ h', Q 0 h' (k + 1))
    (hfailed : ∀ h' c', Owns h' ctx c' → Q (-1) h' k) :
    wp (ownership null_page worker_threads) (post_recv ctx) h (k + 1) Q := by
  rw [NtServer.post_recv, wp_bind]
  apply wp_read hown.context
  rw [if_neg hvalid, wp_bind]
  refine hown.assign rfl fun h1 hown1 => ?_
  rw [wp_bind]
  refine wp_read hown1.context ?_
  rw [wp_bind]
  exact hown1.post rfl rfl rfl hvalid (Nat.zero_le _) hposted (Nat.le_add_left 1 k)
    (hfailed h1 _ hown1)

/-- A send that was posted takes the context along; one that failed leaves it. -/
theorem Owns.post_send {Q : ℤ → Heap (nt σ) → ℕ → Prop} (hown : Owns h ctx c) (data : List u8)
    (hposted : ∀ h', Q 0 h' k) (hfailed : ∀ h' c', Owns h' ctx c' → Q (-1) h' k) :
    wp (ownership null_page worker_threads) (post_send ctx data) h k Q := by
  rw [NtServer.post_send, wp_bind]
  apply wp_read hown.context
  split_ifs with hguard
  · exact hfailed h c hown
  · rw [wp_bind]
    refine hown.assign rfl fun h1 hown1 => ?_
    rw [wp_bind]
    refine wp_read hown1.context ?_
    rw [wp_bind]
    exact hown1.post rfl rfl rfl (fun hsock => hguard (Or.inl hsock)) (Nat.zero_le _) hposted
      (Nat.zero_le _) (hfailed h1 _ hown1)

/-- The same for a chunk of the body. -/
theorem Owns.post_chunk {Q : ℤ → Heap (nt σ) → ℕ → Prop} (hown : Owns h ctx c) (chunk : List u8)
    (hposted : ∀ h', Q 0 h' k) (hfailed : ∀ h' c', Owns h' ctx c' → Q (-1) h' k) :
    wp (ownership null_page worker_threads) (post_chunk ctx chunk) h k Q := by
  rw [NtServer.post_chunk]
  split_ifs
  · exact hown.post_send chunk hposted hfailed
  · exact hfailed h c hown

/-- The context has no socket before, and none when the call fails; an accept has been posted
or is lost. -/
theorem Owns.post_accept {Q : ℤ → Heap (nt σ) → ℕ → Prop} (hown : Owns h ctx c)
    (hnone : c.client_socket = .INVALID_SOCKET) {listen_socket : SOCKET}
    (hlisten : listen_socket ≠ .INVALID_SOCKET)
    (hposted : ∀ h', Q 0 h' k) (hfailed : ∀ h' c', Owns h' ctx c' → Q (-1) h' k) :
    wp (ownership null_page worker_threads) (post_accept listen_socket ctx) h (k + 1) Q := by
  rw [NtServer.post_accept, if_neg hlisten, wp_bind, NtServer.socket, wp_bind, wp_alloc]
  refine ⟨fun _ => ⟨Nat.le_add_left 1 k, ?_⟩, fun n _ => ?_⟩
  · -- no socket could be made
    rw [wp_pure, wp_bind]
    refine hown.assign hnone.symm fun h1 hown1 => ?_
    rw [if_pos rfl]
    exact hfailed h1 _ hown1
  · rw [wp_pure, wp_bind]
    have hcontext : h.set (.socket n) (some ()) (.context ctx) = some c := by
      rw [Heap.set_of_ne _ (by simp)]
      exact hown.context
    apply wp_assign hcontext
    rw [if_neg (by simp), wp_bind]
    -- from here on the context has its socket
    have hown1 : Owns ((h.set (.socket n) (some ())).set (.context ctx)
        (some { c with client_socket := .of n })) ctx { c with client_socket := .of n } := by
      refine ⟨Heap.set_self _ _ _, fun n' hn' => ?_⟩
      obtain rfl : n = n' := by simpa using hn'
      rw [Heap.set_of_ne _ (by simp), Heap.set_self]
      simp
    refine hown1.assign rfl fun h2 hown2 => ?_
    rw [wp_bind]
    refine wp_read hown2.context ?_
    rw [wp_bind]
    refine hown2.post rfl rfl rfl (by simp) (Nat.le_add_left 1 k) (fun h3 => hposted h3)
      (Nat.le_add_left 1 k) ?_
    rw [if_neg (by simp), wp_bind]
    refine wp_read hown2.context ?_
    rw [wp_bind]
    refine wp_closesocket hown2.socket fun h3 hkept => ?_
    rw [wp_bind]
    refine wp_assign ((hkept ctx).trans hown2.context) ?_
    exact hfailed _ _ ⟨Heap.set_self _ _ _, fun n' hn' => absurd hn' (by simp)⟩

/-- A context is made without a socket. -/
theorem wp_create_client_context {Q : Option ℕ → Heap (nt σ) → ℕ → Prop} (hnone : Q none h k)
    (hsome : ∀ ctx h' c', Owns h' ctx c' → c'.client_socket = .INVALID_SOCKET →
      Q (some ctx) h' (k + 1)) :
    wp (ownership null_page worker_threads) (create_client_context null_page .INVALID_SOCKET none) h
      (k + 1)
      Q := by
  rw [create_client_context, wp_bind, wp_alloc]
  refine ⟨fun _ => ⟨Nat.le_add_left 1 k, hnone⟩, fun ctx _ => ?_⟩
  rw [wp_bind]
  refine wp_assign (Heap.set_self _ _ _) ?_
  have hown : Owns ((h.set (.context ctx) (some zeroed)).set (.context ctx)
      (some { zeroed with client_socket := .INVALID_SOCKET })) ctx
      { zeroed with client_socket := .INVALID_SOCKET } :=
    ⟨Heap.set_self _ _ _, fun n hn => absurd hn (by simp)⟩
  rw [wp_bind, deref, Option.none_or]
  cases null_page with
  | none => exact rfl
  | some addr =>
  rw [wp_pure, wp_bind]
  refine hown.assign rfl fun h1 hown1 => ?_
  rw [wp_bind]
  refine hown1.assign rfl fun h2 hown2 => ?_
  exact hsome ctx h2 _ hown2 rfl

/-! ### Every program minds its own objects -/

/-- A new accept costs one of those the handler may post. -/
theorem wp_new_accept {Q : Unit → Heap (nt σ) → ℕ → Prop} (hQ : ∀ h', Q () h' k) :
    wp (ownership null_page worker_threads) (new_accept fs null_page) h (k + 1) Q := by
  rw [new_accept, wp_bind]
  refine wp_create_client_context (hQ h) fun ctx h1 c1 hown1 hnone => ?_
  rw [wp_bind, wp_ask]
  refine ⟨trivial, fun listen_socket => ?_⟩
  cases listen_socket with
  | INVALID_SOCKET =>
      refine ⟨Nat.le_add_left 1 k, ?_⟩
      rw [wp_bind, post_accept, if_pos rfl, wp_pure, if_pos (by simp)]
      exact hown1.destroy fs hQ
  | of n =>
      refine ⟨Nat.zero_le _, ?_⟩
      rw [wp_bind]
      refine hown1.post_accept hnone (by simp) (fun h2 => ?_) fun h2 c2 hown2 => ?_
      · rw [if_neg (by simp)]
        exact hQ h2
      · rw [if_pos (by simp)]
        exact hown2.destroy fs hQ

/-- A context whose operation could not be posted is named in the log and destroyed. -/
theorem Owns.give_up {Q : Unit → Heap (nt σ) → ℕ → Prop} (hown : Owns h ctx c)
    (hQ : ∀ h', Q () h' k) :
    wp (ownership null_page worker_threads) (do log_printf ctx; destroy_client_context fs ctx) h k
      Q := by
  rw [wp_bind]
  exact wp_log_printf hown.context (hown.destroy fs hQ)

/-- A completed accept is replaced by another one, or lost. -/
theorem Owns.handle_accept_completion (hown : Owns h ctx c)
    (hvalid : c.client_socket ≠ .INVALID_SOCKET) :
    Verified (ownership null_page worker_threads) (handle_accept_completion fs null_page ctx) h
      1 := by
  rw [Verified, NtServer.handle_accept_completion, wp_bind]
  apply wp_read hown.context
  rw [wp_bind]
  refine wp_ask_free trivial (fun _ => rfl) fun remote_addr => ?_
  rw [wp_bind]
  refine hown.assign rfl fun h1 hown1 => ?_
  rw [wp_bind]
  refine wp_read hown1.context ?_
  rw [wp_bind]
  refine wp_iocp_pool_associate_socket ⟨_, hown1, rfl⟩ (fun hsock => absurd hsock hvalid) fun ok => ?_
  cases ok with
  | false =>
      refine ⟨le_refl 1, ?_⟩
      rw [if_pos (by simp)]
      exact hown1.destroy fs fun _ => rfl
  | true =>
      refine ⟨Nat.zero_le 1, ?_⟩
      rw [if_neg (by simp), wp_bind]
      refine wp_log_printf hown1.context ?_
      rw [wp_bind]
      refine hown1.post_recv hvalid (fun h2 => ?_) fun h2 c2 hown2 => ?_
      · -- the context is the system's now, and is not mentioned again
        rw [if_neg (by simp)]
        exact wp_new_accept fs fun _ => rfl
      · rw [if_pos (by simp)]
        exact hown2.give_up fs fun _ => rfl

/-- Parsing reads the context and keeps it. -/
theorem Owns.received_request {Q : http_request_t → Heap (nt σ) → ℕ → Prop} (hown : Owns h ctx c)
    (indeterminate : u32) (hQ : ∀ req, Q req h k) :
    wp (ownership null_page worker_threads) (received_request ctx indeterminate) h k Q := by
  rw [NtServer.received_request, wp_bind]
  apply wp_read hown.context
  split
  · apply hQ
  · exact wp_ask_free trivial (fun _ => rfl) hQ

/-- Making the head works on its stream. -/
theorem Owns.response_head {Q : List u8 → Heap (nt σ) → ℕ → Prop} (hown : Owns h ctx c)
    (document_root : List u8) (req : http_request_t)
    (hQ : ∀ head h' c', Owns h' ctx c' → Q head h' k) :
    wp (ownership null_page worker_threads) (response_head fs document_root ctx req) h k Q := by
  rw [NtServer.response_head, wp_bind]
  refine hown.with_stream _ fun r h1 c1 hown1 => ?_
  split_ifs
  · rw [wp_bind]
    exact hown1.stream_close fs fun h2 c2 hown2 => hQ _ h2 c2 hown2
  · exact hQ _ h1 c1 hown1

/-- **A receive completion** posts a send for the context or frees it. -/
theorem Owns.handle_recv_completion (hown : Owns h ctx c) (document_root : List u8)
    (bytes_transferred : ℕ) (indeterminate : u32) :
    Verified (ownership null_page worker_threads)
      (handle_recv_completion fs document_root ctx bytes_transferred indeterminate) h 0 := by
  rw [Verified, NtServer.handle_recv_completion]
  split_ifs
  · exact hown.give_up fs fun _ => rfl
  · rw [wp_bind]
    refine hown.assign rfl fun h1 hown1 => ?_
    rw [wp_bind]
    refine wp_log_printf hown1.context ?_
    rw [wp_bind]
    refine hown1.received_request indeterminate fun req => ?_
    rw [wp_bind]
    refine hown1.response_head fs document_root req fun head h2 c2 hown2 => ?_
    rw [wp_bind]
    refine hown2.post_send head (fun h3 => ?_) fun h3 c3 hown3 => ?_
    · rw [if_neg (by simp)]
      rfl
    · rw [if_pos (by simp)]
      exact hown3.give_up fs fun _ => rfl

/-- **A send completion** does so too. -/
theorem Owns.handle_send_completion (hown : Owns h ctx c) :
    Verified (ownership null_page worker_threads) (handle_send_completion fs ctx) h 0 := by
  rw [Verified, NtServer.handle_send_completion, wp_bind]
  apply wp_read hown.context
  split_ifs
  · rw [wp_bind]
    refine hown.with_stream _ fun chunk h1 c1 hown1 => ?_
    rw [wp_bind]
    refine hown1.post_chunk chunk (fun h2 => ?_) fun h2 c2 hown2 => ?_
    · rw [if_neg (by simp)]
      rfl
    · rw [if_pos (by simp), wp_bind]
      exact hown2.stream_close fs fun h3 c3 hown3 => hown3.give_up fs fun _ => rfl
  · exact hown.give_up fs fun _ => rfl

/-- The dispatch finds the kind of the operation in the context. -/
theorem verified_iocp_worker_round (document_root : List u8) {m : OVERLAPPED}
    (hown : Owns h m.ctx c) (hop : c.operation = m.operation)
    (hvalid : c.client_socket ≠ .INVALID_SOCKET) (bytes_transferred indeterminate : u32) :
    Verified (ownership null_page worker_threads)
      (iocp_worker_round fs null_page document_root m bytes_transferred indeterminate) h
      (if m.operation = .OP_ACCEPT then 1 else 0) := by
  rw [Verified, iocp_worker_round, wp_bind]
  apply wp_read hown.context
  rw [wp_bind]
  refine wp_ask_free hop.symm (fun _ => rfl) fun _ => ?_
  rw [worker_round_succeeded rfl rfl]
  dsimp only
  rw [List.forM_cons, List.forM_nil, wp_bind, ← hop]
  cases hc : c.operation with
  | OP_ACCEPT =>
      have hd : dispatch m.ctx c.toclient_context_t bytes_transferred
          = .handle_accept_completion m.ctx bytes_transferred := by rw [dispatch, hc]
      rw [hd, perform]
      exact hown.handle_accept_completion fs hvalid
  | OP_RECV =>
      have hd : dispatch m.ctx c.toclient_context_t bytes_transferred
          = .handle_recv_completion m.ctx bytes_transferred := by rw [dispatch, hc]
      rw [hd, perform]
      exact hown.handle_recv_completion fs document_root _ _
  | OP_SEND =>
      have hd : dispatch m.ctx c.toclient_context_t bytes_transferred
          = .handle_send_completion m.ctx bytes_transferred := by rw [dispatch, hc]
      rw [hd, perform]
      exact hown.handle_send_completion fs

/-- What the system writes leaves the operation and the socket alone. -/
theorem Owns.completed {Q : u32 → Heap (nt σ) → ℕ → Prop} {m : OVERLAPPED} (hown : Owns h m.ctx c)
    (a : Completion) (hQ : ∀ n h' c', Owns h' m.ctx c' → c'.operation = c.operation →
      c'.client_socket = c.client_socket → Q n h' k) :
    wp (ownership null_page worker_threads) (completed m a) h k Q := by
  rw [NtServer.completed]
  split
  · exact hQ _ h c hown rfl rfl
  · rw [wp_bind]
    exact hown.assign rfl fun h1 hown1 => hQ _ h1 _ hown1 rfl rfl
  · exact hQ _ h c hown rfl rfl

/-- **One completion, whichever it is.** An accept may post one more accept, and the others none. -/
theorem verified_on_completion (document_root : List u8) (m : OVERLAPPED) (a : Completion)
    (hgood : Carries m h) :
    Verified (ownership null_page worker_threads) (on_completion fs null_page document_root m a) h
      (if m.operation = .OP_ACCEPT then 1 else 0) := by
  obtain ⟨c, hown, hop, -, hvalid⟩ := hgood
  rw [Verified, on_completion, wp_bind]
  refine hown.completed a fun n h1 c1 hown1 hop1 hsock1 => ?_
  exact verified_iocp_worker_round fs document_root hown1 (hop1.trans hop) (hsock1.trans_ne hvalid)
    n a.indeterminate

/-- The listener posts as many accepts as it is asked to. -/
theorem wp_post_accepts {Q : Unit → Heap (nt σ) → ℕ → Prop} (hQ : ∀ h', Q () h' 0) (i : ℕ) :
    ∀ {h : Heap (nt σ)},
      wp (ownership null_page worker_threads) (post_accepts fs null_page i) h i Q := by
  induction i with
  | zero => exact fun {h} => hQ h
  | succ i ih =>
      intro h
      rw [post_accepts, wp_bind]
      exact wp_new_accept fs fun h1 => ih

/-- **The listener** posts one accept for each worker. -/
theorem verified_run_server_nt (worker_threads : ℕ) :
    Verified (ownership null_page worker_threads) (run_server_nt fs null_page worker_threads) h
      worker_threads := by
  have hclose : ∀ h' : Heap (nt σ),
      wp (ownership null_page worker_threads) (ask (S := nt σ) .closesocket) h' 0
        fun _ _ k' => k' = 0 := fun h' => wp_ask_free trivial (fun _ => rfl) fun _ => rfl
  rw [Verified, run_server_nt, wp_bind, wp_ask]
  refine ⟨trivial, fun sock => ?_⟩
  cases sock with
  | INVALID_SOCKET =>
      -- all the accepts that were to be posted are spent here
      refine ⟨le_refl _, ?_⟩
      rw [wp_bind, iocp_pool_associate_socket, if_pos rfl, wp_pure, if_pos (by simp)]
      exact (Nat.sub_self worker_threads).symm ▸ hclose h
  | of n =>
      refine ⟨Nat.zero_le _, ?_⟩
      rw [wp_bind]
      refine wp_iocp_pool_associate_socket trivial (fun hsock => absurd hsock (by simp)) fun ok => ?_
      cases ok with
      | false =>
          refine ⟨le_refl _, ?_⟩
          rw [if_pos (by simp)]
          exact (Nat.sub_self worker_threads).symm ▸ hclose h
      | true =>
          refine ⟨Nat.zero_le _, ?_⟩
          rw [if_neg (by simp), wp_bind]
          refine wp_post_accepts fs (fun h1 => ?_) worker_threads
          rw [wait_loop, wp_bind]
          exact wp_ask_free trivial (fun _ => rfl) fun _ => hclose h1

end

/-! ## Every run -/

section

variable (fs : FileSystem σ) (document_root : List u8) {null_page : Option SOCKADDR_IN}
  {worker_threads : ℕ}

/-- The listener has all accepts still to post. -/
theorem initial_valid :
    Valid (ownership null_page worker_threads) (fun t => if t = none then worker_threads else 0)
      (initial fs null_page worker_threads) :=
  start_valid fun t => match t with
    | none => verified_run_server_nt fs worker_threads
    | some _ => rfl

/-- Who has a context is alone with it, and it ends once. -/
structure ContextsOwned (s : Server σ worker_threads) : Prop where
  no_fault : ∀ t, s.threads t ≠ .fault
  one_operation : ∀ ctx, (s.flight.map OVERLAPPED.ctx).count ctx ≤ 1
  operation_named : ∀ m ∈ s.flight, ∃ c, s.heap (.context m.ctx) = some c
    ∧ c.operation = m.operation ∧ c.client_socket = m.sock
  dispatched : ∀ t completed operation k,
    s.threads t = .ask (.switch completed operation) k → completed = operation
  destroyed_once : ∀ ctx, s.freed.count (.context ctx) ≤ 1
  closed_once : ∀ n, s.freed.count (.socket n) ≤ 1
  /-- What a thread is about to touch is its own: alive, and in no operation. -/
  touched_own : ∀ t, ∀ o ∈ touched (s.threads t),
    s.owner o = some (.inl t) ∧ o ∉ s.freed ∧ ∀ m ∈ s.flight, o ∉ m.parcel

/-- Whatever the null pointer reads. -/
theorem operation_named_of_safe {s : Server σ worker_threads}
    (h : Safe (ownership null_page worker_threads) s) {m : OVERLAPPED} (hm : m ∈ s.flight) :
    ∃ c, s.heap (.context m.ctx) = some c ∧ c.operation = m.operation
      ∧ c.client_socket = m.sock := by
  obtain ⟨c, hown, hop, hsock, -⟩ := h.flight_good m hm
  exact ⟨c, (piece_eq_some hown.context).2, hop, hsock⟩

theorem contexts_owned_of_safe {s : Server σ worker_threads}
    (h : Safe (ownership null_page worker_threads) s) (hread : null_page ≠ none) :
    ContextsOwned s where
  no_fault := h.no_fault hread
  one_operation := by
    refine List.nodup_iff_count_le_one.mp (h.flight_once.map_on ?_)
    -- two operations on one context would both have it
    intro m hm m' hm' heq
    have hm1 := h.in_flight m hm (.context m.ctx) List.mem_cons_self
    have hm2 := h.in_flight m' hm' (.context m.ctx) (heq ▸ List.mem_cons_self)
    rw [hm1] at hm2
    simpa using hm2
  operation_named := fun _ hm => operation_named_of_safe h hm
  dispatched := fun t _ _ k ht => h.asks_allowed t _ k ht
  destroyed_once := fun _ => List.nodup_iff_count_le_one.mp h.freed_once _
  closed_once := fun _ => List.nodup_iff_count_le_one.mp h.freed_once _
  touched_own := by
    intro t o ho
    have howner := h.touches_own t o ho
    refine ⟨howner, (h.alive o _ howner).2, fun m hm hparcel => ?_⟩
    rw [h.in_flight m hm o hparcel] at howner
    exact absurd howner (by simp)

/-- Safety holds of every run of the server. -/
theorem reachable_safe {as : List (NtAction σ worker_threads)} {s : Server σ worker_threads}
    (hs : exec (server_step fs null_page document_root) (initial fs null_page worker_threads) as
      = some s) : Safe (ownership null_page worker_threads) s :=
  safe_of_run (fun m a _ => verified_on_completion fs document_root m a) (initial_valid fs)
    (meets_of_forall (considered_of_all trivial fun _ => trivial) as _) hs

/-- **Context ownership.** In every state of every run of the server, whatever fails in it. The
functions are verified one by one against the contract, and the rule for runs does the rest: it
knows of interleavings, the functions do not. -/
theorem contexts_owned (as : List (NtAction σ worker_threads)) (s : Server σ worker_threads)
    (hs : exec (server_step fs (some 0) document_root) (initial fs (some 0) worker_threads) as
      = some s) : ContextsOwned s :=
  contexts_owned_of_safe (reachable_safe fs document_root hs) (Option.some_ne_none 0)

end

/-- An environment that makes sockets and associates them, or not. -/
def answers (associated : Bool) : ∀ q : Call handles_t, q.Answer
  | .make_socket => .of 0
  | .CreateIoCompletionPort _ _ => associated
  | .GetAcceptExSockaddrs _ => (0 : ℕ)
  | .ssocket => .of 0
  | .disk => ([] : handles_t)
  | .behind_request => (⟨0, ⟨0, 0⟩, ⟨0, 0⟩, []⟩ : http_request_t)
  | .disk_is _ | .switch _ _ | .Sleep | .closesocket => ()

def plain (t : Thread 1) (n : ℕ) : List (NtAction handles_t 1) :=
  List.replicate n (.run t .plain)

def answered (t : Thread 1) (associated : Bool) : NtAction handles_t 1 :=
  .run t (.answered (answers associated))

/-- The listener posts an accept, and the socket of the client cannot be associated. -/
def lost_client : List (NtAction handles_t 1) :=
  let w := some (Fin.last 0)
  answered none true :: answered none true :: .run none (.allocated (some 1)) :: plain none 6
    ++ answered none true :: .run none (.allocated (some 7)) :: plain none 5
    ++ .run none (.posted true) :: .deliver w ⟨.OP_ACCEPT, 1, .of 7⟩ ⟨[], 0, 0⟩
    :: plain w 1 ++ answered w true :: plain w 1
    ++ answered w true :: plain w 3
    ++ answered w false :: plain w 1
    ++ answered w true :: plain w 2
    ++ answered w true :: plain w 3

theorem contexts_owned_lost_client :
    ∃ s, exec (server_step (disk []) (some 0) []) (initial (disk []) (some 0) 1) lost_client = some s
      ∧ s.freed = [.socket 7, .context 1] ∧ ContextsOwned s :=
  ⟨_, rfl, rfl, contexts_owned (disk []) [] lost_client _ rfl⟩

end W32HttpServer.NtOwnership

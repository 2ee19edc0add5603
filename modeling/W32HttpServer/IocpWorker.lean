/-
The loop of an IOCP worker: `iocp_worker_thread_proc` of thread_pool.c.

Each round takes one completion packet and tests it: shutdown or error, shutdown, failed
I/O, and otherwise a dispatch on the context's operation. What a round does to the outside
is a list of effects, in order. The context a packet belongs to is the one its overlapped
structure is embedded in; the packet carries it with the address that identifies it.
-/
import W32HttpServer.Common
import W32HttpServer.Platform
import W32HttpServer.Context

set_option autoImplicit false

namespace W32HttpServer.IocpWorker

open W32HttpServer.Common W32HttpServer.Platform W32HttpServer.Context

/-! ## The loop -/

/-- What `GetQueuedCompletionStatus` reports. -/
structure completion_t where
  result : Bool
  bytes_transferred : u32
  completion_key : ℕ
  /-- The context around the overlapped structure, and its address; `none` is `NULL`. -/
  overlapped : Option (ℕ × client_context_t)

inductive effect_t
  | closesocket (sock : SOCKET)
  | free (addr : ℕ)
  | handle_accept_completion (addr : ℕ) (bytes_transferred : u32)
  | handle_recv_completion (addr : ℕ) (bytes_transferred : u32)
  | handle_send_completion (addr : ℕ) (bytes_transferred : u32)
  deriving DecidableEq

/-- The branch "I/O operation failed". -/
def clean_up (addr : ℕ) (ctx : client_context_t) : List effect_t :=
  (if ctx.client_socket ≠ .INVALID_SOCKET then [.closesocket ctx.client_socket] else [])
    ++ [.free addr]

def dispatch (addr : ℕ) (ctx : client_context_t) (bytes_transferred : u32) : effect_t :=
  match ctx.operation with
  | .OP_ACCEPT => .handle_accept_completion addr bytes_transferred
  | .OP_RECV => .handle_recv_completion addr bytes_transferred
  | .OP_SEND => .handle_send_completion addr bytes_transferred

/-- One round: `none` is a `break`. -/
def worker_round (p : completion_t) : Option (List effect_t) :=
  -- "Shutdown signal or error": the first operand alone takes every failed completion
  if ¬ p.result ∨ (p.bytes_transferred = 0 ∧ p.completion_key = 0 ∧ p.overlapped = none) then none
  else
    match p.overlapped with
    | none => none
    | some (addr, ctx) =>
        -- "I/O operation failed"
        if ¬ p.result then some (clean_up addr ctx)
        else some [dispatch addr ctx p.bytes_transferred]

/-- The loop over the packets it is given: whether it has been left, and the effects.
`is_shutdown` is the flag its condition reads. -/
def iocp_worker_thread_proc (is_shutdown : Bool) : List completion_t → Bool × List effect_t
  | [] => (is_shutdown, [])
  | p :: packets =>
      if is_shutdown then (true, [])
      else
        match worker_round p with
        | none => (true, [])
        | some effects =>
            let (left, later) := iocp_worker_thread_proc is_shutdown packets
            (left, effects ++ later)

/-! ## What the loop does with a failure -/

/-- No shutdown packet among them. -/
def NoShutdown (packets : List completion_t) : Prop := ∀ p ∈ packets, p.overlapped ≠ none

/-- A failed completion of the context at `addr`. -/
def failed_at (addr : ℕ) (p : completion_t) : Bool :=
  !p.result && (p.overlapped.map Prod.fst == some addr)

/-- A failed completion of a context with the socket `sock`. -/
def failed_on (sock : SOCKET) (p : completion_t) : Bool :=
  !p.result && (p.overlapped.map (fun o => o.2.client_socket) == some sock)

/-- The worker stays in its loop, and each failed completion has its socket closed and its
context freed, once. -/
structure ToleratesFailures (packets : List completion_t) : Prop where
  stays : (iocp_worker_thread_proc false packets).1 = false
  freed : ∀ addr, (iocp_worker_thread_proc false packets).2.count (.free addr)
    = packets.countP (failed_at addr)
  closed : ∀ sock, sock ≠ .INVALID_SOCKET →
    (iocp_worker_thread_proc false packets).2.count (.closesocket sock)
      = packets.countP (failed_on sock)

/-- The first test takes every failure, so the branch for failed I/O is never reached. -/
theorem worker_round_failed {p : completion_t} (h : p.result = false) : worker_round p = none := by
  rw [worker_round, if_pos (Or.inl (by simp [h]))]

theorem worker_round_succeeded {p : completion_t} (h : p.result = true)
    {addr : ℕ} {ctx : client_context_t} (ho : p.overlapped = some (addr, ctx)) :
    worker_round p = some [dispatch addr ctx p.bytes_transferred] := by
  have hgo : ¬ (¬ p.result = true ∨ (p.bytes_transferred = 0 ∧ p.completion_key = 0
      ∧ p.overlapped = none)) := by
    rintro (hr | ⟨-, -, hn⟩)
    · exact hr h
    · rw [ho] at hn
      exact absurd hn (by simp)
  rw [worker_round, if_neg hgo, ho]
  dsimp only
  rw [if_neg (not_not.mpr h)]

theorem dispatch_no_free (addr addr' : ℕ) (ctx : client_context_t) (n : u32) :
    dispatch addr ctx n ≠ .free addr' := by
  unfold dispatch
  split <;> simp

theorem dispatch_no_close (addr : ℕ) (sock : SOCKET) (ctx : client_context_t) (n : u32) :
    dispatch addr ctx n ≠ .closesocket sock := by
  unfold dispatch
  split <;> simp

/-- **The worker leaves its loop** at the first failed completion. -/
theorem worker_left_iff (packets : List completion_t) (h : NoShutdown packets) :
    (iocp_worker_thread_proc false packets).1 = true ↔ ∃ p ∈ packets, p.result = false := by
  induction packets with
  | nil => simp [iocp_worker_thread_proc]
  | cons p packets ih =>
      have hp := h p List.mem_cons_self
      have ih' := ih (fun q hq => h q (List.mem_cons_of_mem _ hq))
      rw [iocp_worker_thread_proc, if_neg (by simp)]
      rcases hr : p.result with _ | _
      · -- the loop is left here, and the packets behind this one are not looked at
        rw [worker_round_failed hr]
        exact ⟨fun _ => ⟨p, List.mem_cons_self, hr⟩, fun _ => rfl⟩
      · obtain ⟨⟨addr, ctx⟩, ho⟩ := Option.ne_none_iff_exists'.mp hp
        rw [worker_round_succeeded hr ho]
        dsimp only
        rw [ih']
        simp [hr]

/-- While nothing fails, the worker closes and frees nothing. -/
theorem worker_effects_of_succeeded (packets : List completion_t)
    (h : ∀ p ∈ packets, p.result = true) :
    ∀ e ∈ (iocp_worker_thread_proc false packets).2,
      (∀ addr, e ≠ .free addr) ∧ ∀ sock, e ≠ .closesocket sock := by
  induction packets with
  | nil => simp [iocp_worker_thread_proc]
  | cons p packets ih =>
      have hr := h p List.mem_cons_self
      intro e he
      rw [iocp_worker_thread_proc, if_neg (by simp)] at he
      rcases ho : p.overlapped with _ | ⟨addr, ctx⟩
      · rw [worker_round, ho] at he
        simp at he
      · rw [worker_round_succeeded hr ho] at he
        dsimp only at he
        rcases List.mem_append.mp he with he | he
        · rw [List.mem_singleton] at he
          rw [he]
          exact ⟨fun addr' => dispatch_no_free _ _ _ _, fun sock => dispatch_no_close _ _ _ _⟩
        · exact ih (fun q hq => h q (List.mem_cons_of_mem _ hq)) e he

/-- **When a failing client costs no worker**: when no completion fails. The first test of the
loop is true of a failed completion too and leaves the loop, so the branch that would clean up the
context behind it is never reached. -/
theorem tolerates_failures_iff (packets : List completion_t) (h : NoShutdown packets) :
    ToleratesFailures packets ↔ ∀ p ∈ packets, p.result = true := by
  constructor
  · intro ht p hp
    by_contra hr
    have hleft := (worker_left_iff packets h).mpr ⟨p, hp, by simpa using hr⟩
    rw [ht.stays] at hleft
    exact absurd hleft (by simp)
  · intro hall
    have heff := worker_effects_of_succeeded packets hall
    refine ⟨?_, fun addr => ?_, fun sock _ => ?_⟩
    · rw [Bool.eq_false_iff, ne_eq, worker_left_iff packets h]
      rintro ⟨p, hp, hr⟩
      rw [hall p hp] at hr
      exact absurd hr (by simp)
    · rw [List.count_eq_zero.mpr (fun hmem => (heff _ hmem).1 addr rfl), eq_comm,
        List.countP_eq_zero]
      intro p hp
      simp [failed_at, hall p hp]
    · rw [List.count_eq_zero.mpr (fun hmem => (heff _ hmem).2 sock rfl), eq_comm,
        List.countP_eq_zero]
      intro p hp
      simp [failed_on, hall p hp]

/-- The receive of a client that has reset its connection. -/
def reset_packet : completion_t where
  result := false
  bytes_transferred := 0
  completion_key := 1
  overlapped := some (1, { create_client_context (.of 7) with operation := .OP_RECV })

def accept_packet : completion_t where
  result := true
  bytes_transferred := 0
  completion_key := 0
  overlapped := some (2, create_client_context (.of 8))

theorem tolerates_failures_accept :
    ToleratesFailures [accept_packet] ↔ ∀ p ∈ [accept_packet], p.result = true :=
  tolerates_failures_iff [accept_packet] (by simp [NoShutdown, accept_packet])

/-- One reset ends the worker, and leaks the socket and the context. -/
theorem reset_ends_worker :
    NoShutdown [reset_packet, accept_packet] ∧ ¬ ToleratesFailures [reset_packet, accept_packet] := by
  refine ⟨by simp [NoShutdown, reset_packet, accept_packet], fun h => ?_⟩
  have hleft : (iocp_worker_thread_proc false [reset_packet, accept_packet]).1 = true := rfl
  rw [h.stays] at hleft
  exact absurd hleft (by simp)

end W32HttpServer.IocpWorker

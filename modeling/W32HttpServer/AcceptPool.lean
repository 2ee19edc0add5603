/-
The pool of outstanding accepts on the NT path.

`run_server_nt` and `handle_accept_completion` make the context of an accept by
`create_client_context(INVALID_SOCKET, NULL)`, and that function copies `*client_addr`
without a test. Where address zero is not mapped (`null_page` is `none`), the listener takes
an access violation in the first round of its loop, so that no accept is ever outstanding and
the server never waits. `no_wait` is the contract that says so.

Were address zero readable, the pool would still lose an accept with every client whose
socket cannot be associated or whose first receive cannot be posted: these exits of
`handle_accept_completion` return without a new accept (`outstanding_add_lost`).
-/
import Mathlib.Algebra.BigOperators.Group.Finset.Piecewise
import W32HttpServer.Common
import W32HttpServer.Platform
import W32HttpServer.Context
import W32HttpServer.Disk
import W32HttpServer.NtServer
import W32HttpServer.NtOwnership
import W32HttpServer.Lib.Ownership

set_option autoImplicit false

namespace W32HttpServer.AcceptPool

open W32HttpServer.Common W32HttpServer.Platform W32HttpServer.Disk W32HttpServer.NtServer
open W32HttpServer.NtOwnership
open W32HttpServer.Lib.Transition W32HttpServer.Lib.Ownership

variable {σ : Type} {worker_threads : ℕ}

/-! ## What the pool should be -/

/-- The listener is in its wait loop. -/
def Waiting (s : Server σ worker_threads) : Prop := s.threads none = wait_loop

/-- The accepts that are outstanding. -/
def outstanding (s : Server σ worker_threads) : ℕ :=
  s.flight.countP fun m => m.operation = .OP_ACCEPT

/-- The wait loop is reached, and the pool is full. -/
structure PoolFull (s : Server σ worker_threads) : Prop where
  waiting : Waiting s
  outstanding : outstanding s = worker_threads

/-- Every memory allocation, socket creation and `AcceptEx` call succeeds. -/
def CallsSucceed (s : Server σ worker_threads) : NtAction σ worker_threads → Prop
  | .run _ (.allocated none) => False
  | .run t (.posted false) => ∀ m k, s.threads t = .post m k → m.operation ≠ .OP_ACCEPT
  | _ => True

/-! ## The listener does not get there -/

/-- Nothing is posted, and nobody waits; a thread may end in a fault. -/
def no_wait : Contract (nt σ) where
  good _ _ := False
  allowed q _ := q ≠ .Sleep
  alloc_fails := False
  refused m := m.operation ≠ .OP_ACCEPT
  faults := True
  worth _ := 0
  alloc_price := 0
  refusal _ := 0
  price _ _ := 0

variable (fs : FileSystem σ) {h : Heap (nt σ)}

/-- The function does not return. -/
theorem wp_create_client_context {Q : Option ℕ → Heap (nt σ) → ℕ → Prop} (client_socket : SOCKET) :
    wp no_wait (create_client_context none client_socket none) h 0 Q := by
  rw [create_client_context, wp_bind, wp_alloc]
  refine ⟨False.elim, fun ctx _ => ?_⟩
  rw [wp_bind]
  refine wp_assign (Heap.set_self _ _ _) ?_
  rw [wp_bind]
  exact trivial

theorem verified_run_server_nt (hworkers : 1 ≤ worker_threads) :
    Verified no_wait (run_server_nt fs none worker_threads) h 0 := by
  rw [Verified, run_server_nt, wp_bind]
  refine wp_ask_free (by simp [no_wait]) (fun _ => rfl) fun sock => ?_
  have hgo : ∀ rc : ℤ, wp no_wait (if rc ≠ 0 then ask (S := nt σ) .closesocket
      else do post_accepts fs none worker_threads; wait_loop) h 0 fun _ _ k' => k' = 0 := by
    intro rc
    split_ifs
    · exact wp_ask_free (by simp [no_wait]) (fun _ => rfl) fun _ => rfl
    · -- the first round of the loop
      obtain ⟨i, rfl⟩ := Nat.exists_eq_add_of_le' hworkers
      rw [wp_bind, post_accepts, wp_bind, new_accept, wp_bind]
      exact wp_create_client_context .INVALID_SOCKET
  rw [wp_bind]
  exact wp_iocp_pool_associate_socket (by simp [no_wait]) (fun _ => hgo _)
    fun ok => ⟨le_refl 0, hgo _⟩

theorem considered_of_callsSucceed (s : Server σ worker_threads) (a : NtAction σ worker_threads)
    (h : CallsSucceed s a) : Considered no_wait s a := by
  unfold Considered
  split
  · exact h
  · exact h
  · trivial

/-- **The pool is never full.** For every number of workers, in every state of every run: the
listener is lost in the first context it makes, in front of the first accept. -/
theorem pool_never_full (document_root : List u8) (hworkers : 1 ≤ worker_threads)
    (as : List (NtAction σ worker_threads)) (s : Server σ worker_threads)
    (hsucceed : Meets (server_step fs none document_root) CallsSucceed
      (initial fs none worker_threads) as)
    (hs : exec (server_step fs none document_root) (initial fs none worker_threads) as = some s) :
    ¬ PoolFull s ∧ outstanding s = 0 := by
  have hvalid : Valid no_wait (fun _ => 0) (initial fs none worker_threads) :=
    start_valid fun t => match t with
      | none => verified_run_server_nt fs hworkers
      | some _ => rfl
  have hsafe := safe_of_run (fun _ _ _ hgood => False.elim hgood) hvalid
    (hsucceed.imp considered_of_callsSucceed) hs
  constructor
  · rintro ⟨hwaiting, -⟩
    exact hsafe.asks_allowed none .Sleep _ hwaiting rfl
  · have hflight : s.flight = [] := List.eq_nil_iff_forall_not_mem.mpr hsafe.flight_good
    rw [outstanding, hflight, List.countP_nil]

/-- One worker: the socket is made and associated, and the context allocated. -/
def first_round : List (NtAction handles_t 1) :=
  answered none true :: answered none true :: .run none (.allocated (some 1)) :: plain none 2

theorem pool_never_full_one_worker :
    ∃ s, exec (server_step (disk []) none []) (initial (disk []) none 1) first_round = some s
      ∧ (¬ PoolFull s ∧ outstanding s = 0) :=
  ⟨_, rfl, pool_never_full (disk []) [] (le_refl 1) first_round _
    (by simp [first_round, answered, plain, Meets, CallsSucceed, List.replicate]) rfl⟩

/-- After the fault nobody does anything. -/
theorem stuck_of_fault {null_page : Option SOCKADDR_IN} {document_root : List u8}
    {s : Server σ worker_threads} (hfault : s.threads none = .fault)
    (hidle : ∀ i, s.threads (some i) = .ret ()) (hflight : s.flight = [])
    (a : NtAction σ worker_threads) : server_step fs null_page document_root s a = none := by
  cases a with
  | run t c =>
      cases t with
      | none => simp [server_step, step, advance, hfault]
      | some i => simp [server_step, step, advance, hidle i]
  | deliver t m a =>
      rw [server_step, step, if_neg]
      rintro ⟨-, -, hm⟩
      rw [hflight] at hm
      exact absurd hm List.not_mem_nil

/-- The run ends there: every call has succeeded, no thread can take a step, and no accept is
outstanding. -/
theorem listener_faults :
    ∃ s, exec (server_step (disk []) none []) (initial (disk []) none 1) first_round = some s
      ∧ Meets (server_step (disk []) none []) CallsSucceed (initial (disk []) none 1) first_round
      ∧ (∀ a, server_step (disk []) none [] s a = none) ∧ ¬ PoolFull s := by
  refine ⟨_, rfl, ?_, stuck_of_fault (disk []) rfl (fun _ => rfl) rfl, ?_⟩
  · simp [first_round, answered, plain, Meets, CallsSucceed, List.replicate]
  · rintro ⟨-, hfull⟩
    exact absurd hfull (by decide)

/-! ## If address zero could be read -/

/-- The listener waits, and every worker. -/
structure AtRest (s : Server σ worker_threads) : Prop where
  waiting : Waiting s
  idle : ∀ i, is_idle (s.threads (some i))

theorem in_flight_eq_outstanding (s : Server σ worker_threads) :
    in_flight (ownership (some 0) worker_threads) s = outstanding s := by
  rw [in_flight, outstanding]
  induction s.flight with
  | nil => rfl
  | cons m flight ih =>
      rw [List.map_cons, List.sum_cons, List.countP_cons, ih, Nat.add_comm]
      simp [ownership]

/-- Nothing is left to be spent at rest. -/
theorem credit_eq_zero {s : Server σ worker_threads} {credit : Thread worker_threads → ℕ}
    (h : Valid (ownership (some 0) worker_threads) credit s) (hrest : AtRest s)
    (t : Thread worker_threads) : credit t = 0 := by
  have hthread := h.threads t
  cases t with
  | none =>
      rw [hrest.waiting, Verified, wait_loop] at hthread
      exact ((hthread.2 ()).2.2 ()).2
  | some i =>
      have hidle := hrest.idle i
      cases hp : s.threads (some i) with
      | ret r =>
          rw [hp] at hthread
          exact hthread
      | _ => rw [hp] at hidle; exact absurd hidle (by simp [is_idle])

/-- **The pool and its losses.** An association, a first receive, an allocation, a socket or an
accept that fails is an accept that is missing from then on, and nothing else is. -/
theorem outstanding_add_lost (document_root : List u8) (as : List (NtAction σ worker_threads))
    (s : Server σ worker_threads)
    (hs : exec (server_step fs (some 0) document_root) (initial fs (some 0) worker_threads) as
      = some s) (hrest : AtRest s) :
    outstanding s + total (server_step fs (some 0) document_root)
      (loss (ownership (some 0) worker_threads)) (initial fs (some 0) worker_threads) as
        = worker_threads := by
  obtain ⟨credit, hvalid, hcredits⟩ := balanced_of_run
    (fun m a _ => verified_on_completion fs document_root m a) (initial_valid fs)
    (meets_of_forall (considered_of_all trivial fun _ => trivial) as _) hs
  have hspent : ∑ t, credit t = 0 := Finset.sum_eq_zero fun t _ => credit_eq_zero hvalid hrest t
  have hstart : ∑ t : Thread worker_threads, (if t = none then worker_threads else 0)
      = worker_threads := by
    rw [Finset.sum_ite_eq' Finset.univ none, if_pos (Finset.mem_univ _)]
  rw [hspent, in_flight_eq_outstanding, hstart, Nat.zero_add] at hcredits
  exact hcredits

theorem poolFull_iff_nothing_lost (document_root : List u8)
    (as : List (NtAction σ worker_threads)) (s : Server σ worker_threads)
    (hs : exec (server_step fs (some 0) document_root) (initial fs (some 0) worker_threads) as
      = some s) (hrest : AtRest s) :
    PoolFull s ↔ total (server_step fs (some 0) document_root)
      (loss (ownership (some 0) worker_threads)) (initial fs (some 0) worker_threads) as = 0 := by
  have haccount := outstanding_add_lost fs document_root as s hs hrest
  constructor
  · rintro ⟨-, hfull⟩
    omega
  · intro hnothing
    exact ⟨hrest.waiting, by omega⟩

end W32HttpServer.AcceptPool

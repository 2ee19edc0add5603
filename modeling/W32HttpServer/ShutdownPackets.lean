/-
How `iocp_pool_shutdown` gets the workers out of `GetQueuedCompletionStatus`.

A worker in front of its loop reads `is_shutdown` and leaves; one that waits on the completion
port does not, so the function posts one packet for each thread of the pool. The packets go
into the queue the completions of the clients are in, and a worker that leaves by the flag, or
by a failed completion, leaves its packet there.

The steps are the ones between which the scheduler may switch: the store to the flag, each
post, the test of the flag, and the end of the work on a completion. A worker takes a packet
and tests it in one step. The posts are taken to succeed; the waits for the threads and the
clean-up behind the posts are no part of it.

What has been posted and the workers still in the loop are together never more than what is
queued and one packet for each thread (`Covered`): a packet that is posted counts on both
sides, and a packet is only taken by a worker that leaves for it.
-/
import Mathlib.Algebra.BigOperators.Group.Finset.Piecewise
import Mathlib.Data.Fintype.Basic
import W32HttpServer.Common
import W32HttpServer.Platform
import W32HttpServer.Context
import W32HttpServer.IocpWorker
import W32HttpServer.Lib.Transition

set_option autoImplicit false

namespace W32HttpServer.ShutdownPackets

open W32HttpServer.Common W32HttpServer.Platform W32HttpServer.Context
open W32HttpServer.IocpWorker W32HttpServer.Lib.Transition

/-! ## Packets -/

/-- `PostQueuedCompletionStatus(pool->completion_port, 0, 0, NULL)`. -/
def shutdown_packet : completion_t where
  result := true
  bytes_transferred := 0
  completion_key := 0
  overlapped := none

def is_shutdown_packet (p : completion_t) : Bool :=
  p.bytes_transferred == 0 && p.completion_key == 0 && p.overlapped.isNone

/-- What `GetQueuedCompletionStatus` leaves when it fails without a packet. -/
def failed_call : completion_t where
  result := false
  bytes_transferred := 0
  completion_key := 0
  overlapped := none

/-- A shutdown packet ends the worker that takes it. -/
theorem worker_round_shutdown {p : completion_t} (h : is_shutdown_packet p = true) :
    worker_round p = none := by
  rw [is_shutdown_packet, Bool.and_eq_true, Bool.and_eq_true, beq_iff_eq, beq_iff_eq,
    Option.isNone_iff_eq_none] at h
  obtain ⟨⟨hbytes, hkey⟩, hoverlapped⟩ := h
  rw [worker_round, if_pos (Or.inr ⟨hbytes, hkey, hoverlapped⟩)]

/-- The completion of an operation on a client is not one. -/
theorem not_is_shutdown_packet {p : completion_t} (h : p.overlapped.isSome = true) :
    is_shutdown_packet p = false := by
  have hnone : p.overlapped.isNone = false := by
    rw [← Option.not_isSome, h, Bool.not_true]
  rw [is_shutdown_packet, hnone, Bool.and_false]

/-! ## The system -/

/-- Where a worker is in `iocp_worker_thread_proc`. -/
inductive worker_t
  /-- in front of `while (!pool->is_shutdown)` -/
  | test
  /-- in `GetQueuedCompletionStatus` -/
  | wait
  /-- at work on a completion -/
  | busy
  | exited
  deriving DecidableEq

/-- `posted` is the counter of the loop that posts. -/
structure state_t (n : ℕ) where
  is_shutdown : Bool
  posted : ℕ
  queue : List completion_t
  workers : Fin n → worker_t

inductive action_t (n : ℕ)
  | shutdown
  | post
  /-- the system queues the completion of an operation on a client -/
  | complete (p : completion_t)
  | test (w : Fin n)
  | take (w : Fin n)
  /-- `GetQueuedCompletionStatus` fails without a packet -/
  | fail (w : Fin n)
  | finish (w : Fin n)

/-- Some of the threads may have ended, or were never created. -/
def init {n : ℕ} (ended : Fin n → Bool) : state_t n where
  is_shutdown := false
  posted := 0
  queue := []
  workers := fun w => if ended w then .exited else .test

variable {n : ℕ}

def goto (s : state_t n) (w : Fin n) (pc : worker_t) : state_t n :=
  { s with workers := Function.update s.workers w pc }

/-- Where a worker goes with what `GetQueuedCompletionStatus` has left. -/
def with_packet (p : completion_t) : worker_t :=
  match worker_round p with
  | none => .exited
  | some _ => .busy

def step (s : state_t n) : action_t n → Option (state_t n)
  -- the function is called once, and sets the flag in front of its first post
  | .shutdown => if s.is_shutdown then none else some { s with is_shutdown := true }
  | .post =>
      if s.is_shutdown = true ∧ s.posted < n then
        some { s with posted := s.posted + 1, queue := s.queue ++ [shutdown_packet] }
      else none
  -- an operation that failed is queued as well, with its overlapped structure
  | .complete p => if p.overlapped.isSome then some { s with queue := s.queue ++ [p] } else none
  | .test w =>
      if s.workers w = .test then some (goto s w (if s.is_shutdown then .exited else .wait))
      else none
  | .take w =>
      if s.workers w = .wait then
        match s.queue with
        | [] => none
        -- the packets have no addressee: the first goes to whoever gets there
        | p :: queue => some (goto { s with queue := queue } w (with_packet p))
      else none
  | .fail w => if s.workers w = .wait then some (goto s w (with_packet failed_call)) else none
  | .finish w => if s.workers w = .busy then some (goto s w .test) else none

/-! ## One packet for each worker -/

/-- The workers that have not left their loop. -/
def in_loop (s : state_t n) : ℕ := (Finset.univ.filter fun w => s.workers w ≠ .exited).card

def shutdown_packets (s : state_t n) : ℕ := s.queue.countP is_shutdown_packet

/-- What is posted and who is in the loop are covered by what is queued and one packet for
each thread. -/
def Covered (s : state_t n) : Prop := s.posted + in_loop s ≤ shutdown_packets s + n

theorem in_loop_eq_sum (s : state_t n) :
    in_loop s = ∑ w, if s.workers w ≠ .exited then 1 else 0 := by
  rw [in_loop, Finset.card_filter]

/-- A worker moves. -/
theorem in_loop_goto (s : state_t n) (w : Fin n) (pc : worker_t) :
    in_loop (goto s w pc) + (if s.workers w ≠ .exited then 1 else 0)
      = in_loop s + if pc ≠ .exited then 1 else 0 := by
  rw [in_loop_eq_sum, in_loop_eq_sum]
  exact sum_update (fun q => if q ≠ worker_t.exited then 1 else 0) s.workers w pc

/-- A worker in the loop moves, in the loop or out of it. -/
theorem in_loop_goto_le {s : state_t n} {w : Fin n} (hw : s.workers w ≠ .exited) (pc : worker_t) :
    in_loop (goto s w pc) ≤ in_loop s := by
  have hmove := in_loop_goto s w pc
  rw [if_pos hw] at hmove
  split_ifs at hmove <;> omega

/-- A worker leaves the loop. -/
theorem in_loop_exit {s : state_t n} {w : Fin n} (hw : s.workers w ≠ .exited) :
    in_loop (goto s w .exited) + 1 = in_loop s := by
  have hmove := in_loop_goto s w .exited
  rwa [if_pos hw, if_neg (not_not.mpr rfl), Nat.add_zero] at hmove

theorem in_loop_pos {s : state_t n} {w : Fin n} (hw : s.workers w ≠ .exited) : 0 < in_loop s := by
  have hexit := in_loop_exit hw
  omega

theorem in_loop_le (s : state_t n) : in_loop s ≤ n := by
  have hle := Finset.card_filter_le (Finset.univ : Finset (Fin n)) fun w => s.workers w ≠ .exited
  rwa [Finset.card_univ, Fintype.card_fin] at hle

/-- A worker moves and the queue stays. -/
theorem Covered.goto {s : state_t n} {w : Fin n} (h : Covered s) (hw : s.workers w ≠ .exited)
    (pc : worker_t) : Covered (goto s w pc) := by
  have hle := in_loop_goto_le hw pc
  show s.posted + in_loop (ShutdownPackets.goto s w pc) ≤ shutdown_packets s + n
  unfold Covered at h
  omega

/-- A worker takes the first packet. If it is a shutdown packet, the worker leaves for it. -/
theorem Covered.take {s : state_t n} {w : Fin n} {p : completion_t} {queue : List completion_t}
    (h : Covered s) (hw : s.workers w ≠ .exited) (hqueue : s.queue = p :: queue) :
    Covered (ShutdownPackets.goto { s with queue := queue } w (with_packet p)) := by
  have hcount : shutdown_packets s
      = queue.countP is_shutdown_packet + if is_shutdown_packet p = true then 1 else 0 := by
    rw [shutdown_packets, hqueue, List.countP_cons]
  show s.posted + in_loop (ShutdownPackets.goto s w (with_packet p))
    ≤ queue.countP is_shutdown_packet + n
  unfold Covered at h
  by_cases hp : is_shutdown_packet p = true
  · have hexit := in_loop_exit hw
    rw [if_pos hp] at hcount
    rw [with_packet, worker_round_shutdown hp]
    dsimp only
    omega
  · have hle := in_loop_goto_le hw (with_packet p)
    rw [if_neg hp] at hcount
    omega

theorem init_covered (ended : Fin n → Bool) : Covered (init ended) := by
  have hle := in_loop_le (init ended)
  show 0 + in_loop (init ended) ≤ 0 + n
  omega

/-- **One step** keeps the workers covered. -/
theorem step_covered (s : state_t n) (a : action_t n) (s' : state_t n) (h : Covered s)
    (hstep : step s a = some s') : Covered s' := by
  have hin : ∀ {w pc}, s.workers w = pc → pc ≠ .exited → s.workers w ≠ .exited :=
    fun hw hpc => hw ▸ hpc
  cases a with
  | shutdown =>
      rw [step] at hstep
      split_ifs at hstep
      obtain rfl := Option.some.inj hstep
      exact h
  | post =>
      rw [step] at hstep
      split_ifs at hstep
      obtain rfl := Option.some.inj hstep
      -- the packet counts as posted and as queued
      have hcount : (s.queue ++ [shutdown_packet]).countP is_shutdown_packet
          = shutdown_packets s + 1 := by
        rw [List.countP_append]
        rfl
      show s.posted + 1 + in_loop s ≤ (s.queue ++ [shutdown_packet]).countP is_shutdown_packet + n
      unfold Covered at h
      omega
  | complete p =>
      rw [step] at hstep
      split_ifs at hstep with hp
      obtain rfl := Option.some.inj hstep
      have hcount : (s.queue ++ [p]).countP is_shutdown_packet = shutdown_packets s := by
        rw [List.countP_append, List.countP_singleton, not_is_shutdown_packet hp]
        rfl
      show s.posted + in_loop s ≤ (s.queue ++ [p]).countP is_shutdown_packet + n
      rw [hcount]
      exact h
  | test w =>
      rw [step] at hstep
      split_ifs at hstep with hw
      all_goals
        obtain rfl := Option.some.inj hstep
        exact h.goto (hin hw (by decide)) _
  | take w =>
      rw [step] at hstep
      split_ifs at hstep with hw
      rcases hqueue : s.queue with _ | ⟨p, queue⟩
      · rw [hqueue] at hstep
        exact absurd hstep (by simp)
      · rw [hqueue] at hstep
        obtain rfl := Option.some.inj hstep
        exact h.take (hin hw (by decide)) hqueue
  | fail w =>
      rw [step] at hstep
      split_ifs at hstep with hw
      obtain rfl := Option.some.inj hstep
      exact h.goto (hin hw (by decide)) _
  | finish w =>
      rw [step] at hstep
      split_ifs at hstep with hw
      obtain rfl := Option.some.inj hstep
      exact h.goto (hin hw (by decide)) _

/-! ## Nobody is left waiting -/

/-- Each worker in the loop has a shutdown packet, and each that waits has one to take. -/
structure WakesAll (s : state_t n) : Prop where
  enough : in_loop s ≤ shutdown_packets s
  woken : ∀ w, s.workers w = .wait → ∃ s', step s (.take w) = some s'

theorem wakesAll_of_covered {s : state_t n} (h : Covered s) (hposted : s.posted = n) :
    WakesAll s := by
  have henough : in_loop s ≤ shutdown_packets s := by
    unfold Covered at h
    omega
  refine ⟨henough, fun w hw => ?_⟩
  have hpos : 0 < in_loop s := in_loop_pos (by rw [hw]; decide)
  rcases hqueue : s.queue with _ | ⟨p, queue⟩
  · rw [shutdown_packets, hqueue, List.countP_nil] at henough
    omega
  · rw [step, if_pos hw, hqueue]
    exact ⟨_, rfl⟩

/-- **No worker is left waiting**, once a packet has been posted for each thread. By `Covered` there
is then a packet for every worker still in the loop, and one that waits is given it. -/
theorem shutdown_wakes_all (n : ℕ) (ended : Fin n → Bool) (actions : List (action_t n))
    (s : state_t n) (hrun : exec step (init ended) actions = some s) (hposted : s.posted = n) :
    WakesAll s :=
  wakesAll_of_covered (exec_preserves step_covered actions (init ended) s (init_covered ended) hrun)
    hposted

/-- Of three threads one has ended. One of the others takes a client's completion before the
packets and leaves by the flag behind it, and one waits. -/
def stopped_at_work : List (action_t 3) :=
  [.test 0, .test 1, .complete accept_packet, .take 0, .shutdown, .post, .finish 0, .post, .test 0,
    .post]

theorem shutdown_wakes_all_stopped :
    WakesAll ((exec step (init fun w : Fin 3 => w == 2) stopped_at_work).get (by decide)) :=
  shutdown_wakes_all 3 (fun w => w == 2) stopped_at_work _ (Option.some_get _).symm (by decide)

end W32HttpServer.ShutdownPackets

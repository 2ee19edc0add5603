/-
The NT server handles its completions as if one after another.

The workers of `NtServer` interleave between any two accesses to a context, and there is no
lock. As every context has one owner at a time (`NtOwnership`), that is not noticed: whatever
a run of the server does is also done by a run in which the listener first takes all its
steps and then each completion is handled without interruption (`handlers_serial`). So what a
handler does to a context may be thought of as one step.
-/
import W32HttpServer.Common
import W32HttpServer.Platform
import W32HttpServer.Disk
import W32HttpServer.NtServer
import W32HttpServer.NtOwnership
import W32HttpServer.Lib.Serial

set_option autoImplicit false

namespace W32HttpServer.NtSerial

open W32HttpServer.Common W32HttpServer.Platform W32HttpServer.Disk W32HttpServer.NtServer
open W32HttpServer.NtOwnership
open W32HttpServer.Lib.Transition W32HttpServer.Lib.Ownership W32HttpServer.Lib.Serial

variable {σ : Type} (fs : FileSystem σ) (null_page : Option SOCKADDR_IN) (document_root : List u8)
  {worker_threads : ℕ}

/-- What every run keeps: each thread is verified for the contexts it has. -/
def Kept (s : Server σ worker_threads) : Prop :=
  ∃ credits lost, Accounted (ownership null_page worker_threads) credits s lost

/-- It holds in front of every step. -/
theorem initial_kept : Kept null_page (initial fs null_page worker_threads) :=
  ⟨_, 0, _, initial_valid fs, rfl⟩

variable {null_page}

/-- What two threads have under way is apart. -/
theorem Kept.apart {s : Server σ worker_threads} (h : Kept null_page s) : Apart s := by
  obtain ⟨_, _, _, hvalid, -⟩ := h
  exact apart_of_valid hvalid

/-- And every step keeps it. -/
theorem Kept.step {s s' : Server σ worker_threads} {a : NtAction σ worker_threads}
    (h : Kept null_page s) (hs : server_step fs null_page document_root s a = some s') :
    Kept null_page s' := by
  obtain ⟨credits, lost, haccounted⟩ := h
  exact ⟨credits, _, step_accounted (fun m x _ => verified_on_completion fs document_root m x)
    s a s' lost haccounted (considered_of_all trivial (fun _ => trivial) s a) hs⟩

/-- The steps of the listener, and then one completion after another. -/
def one_by_one (listener : List (Choice (nt σ)))
    (rounds : List (Round (nt σ) (Thread worker_threads) Completion)) :
    List (NtAction σ worker_threads) :=
  operations none listener ++ rounds.flatMap Round.actions

/-- **Completions one after another.** For every run of the server there is one with the same
steps of every thread, in which no handler is interrupted and which ends the same, whether
address zero can be read or not. A step of one handler and a step of another touch different
objects, so they may change places, and the steps of each handler are brought together. -/
theorem handlers_serial (null_page : Option SOCKADDR_IN) (as : List (NtAction σ worker_threads))
    (s : Server σ worker_threads)
    (hs : exec (server_step fs null_page document_root) (initial fs null_page worker_threads) as
      = some s) :
    ∃ listener rounds s', exec (server_step fs null_page document_root)
        (initial fs null_page worker_threads) (one_by_one listener rounds) = some s'
      ∧ Same s s' ∧ Reordered as (one_by_one listener rounds) := by
  obtain ⟨own, rounds, s', hs', hsame, hreordered⟩ :=
    exec_uninterrupted (fun _ h => h.apart) (fun _ _ _ h => h.step fs document_root)
      (initial_kept fs null_page) hs
  -- a worker has nothing to do before its first completion
  have hlistener : ∀ x ∈ own, x.1 = none := by
    intro x hx
    by_contra hne
    obtain ⟨w, hw⟩ := Option.ne_none_iff_exists'.mp hne
    rw [uninterrupted, exec_append, Option.bind_eq_some_iff] at hs'
    obtain ⟨s1, hs1, -⟩ := hs'
    exact idle_waits (t := some w) rfl hs1 x hx hw
  have hown : uninterrupted own rounds = one_by_one (own.map Prod.snd) rounds := by
    rw [uninterrupted, one_by_one, operations, List.map_map]
    refine congrArg (· ++ _) (List.map_congr_left fun x hx => ?_)
    rw [Function.comp_apply, ← hlistener x hx]
  rw [hown] at hs' hreordered
  exact ⟨_, rounds, s', hs', hsame, hreordered⟩

/-- The steps of an accept that is posted with the context at `ctx` and the socket `sock`. -/
def accept_posted (ctx sock : ℕ) : List (Choice (nt handles_t)) :=
  .allocated (some ctx) :: List.replicate 6 .plain ++ .answered (answers true)
    :: .allocated (some sock) :: List.replicate 5 .plain ++ [.posted true]

/-- The steps of an accept whose client cannot be associated with the port. -/
def accept_lost : List (Choice (nt handles_t)) :=
  .plain :: .answered (answers true) :: .plain :: .answered (answers true)
    :: List.replicate 3 .plain ++ .answered (answers false) :: .plain :: .answered (answers true)
    :: List.replicate 2 .plain ++ .answered (answers true) :: List.replicate 3 .plain

def worker_0 : Thread 2 := some ⟨0, Nat.zero_lt_two⟩

def worker_1 : Thread 2 := some ⟨1, Nat.one_lt_two⟩

/-- Two accepts complete, and the two workers that have them take every step turn by turn. -/
def two_at_a_time : List (NtAction handles_t 2) :=
  (.answered (answers true) :: .answered (answers true) :: accept_posted 1 2
      ++ accept_posted 3 4).map (.run none)
    ++ [.deliver worker_0 ⟨.OP_ACCEPT, 1, .of 2⟩ ⟨[], 0, 0⟩,
      .deliver worker_1 ⟨.OP_ACCEPT, 3, .of 4⟩ ⟨[], 0, 0⟩]
    ++ accept_lost.flatMap fun c => [.run worker_0 c, .run worker_1 c]

theorem handlers_serial_two_at_a_time :
    ∃ s, exec (server_step (disk []) (some 0) []) (initial (disk []) (some 0) 2) two_at_a_time
        = some s
      ∧ s.freed = [.socket 2, .socket 4, .context 1, .context 3]
      ∧ ∃ listener rounds s', exec (server_step (disk []) (some 0) [])
          (initial (disk []) (some 0) 2) (one_by_one listener rounds) = some s'
        ∧ Same s s' ∧ Reordered two_at_a_time (one_by_one listener rounds) := by
  have hfreed : (exec (server_step (disk []) (some 0) []) (initial (disk []) (some 0) 2)
      two_at_a_time).map State.freed = some [.socket 2, .socket 4, .context 1, .context 3] := by
    decide +kernel
  obtain ⟨s, hs, hlist⟩ := Option.map_eq_some_iff.mp hfreed
  exact ⟨s, hs, hlist, handlers_serial (disk []) [] (some 0) two_at_a_time s hs⟩

end W32HttpServer.NtSerial

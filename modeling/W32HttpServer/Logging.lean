/-
The log lines of the worker threads (`logging.c` and two cases of `main_window_procedure`).

`log_printf` formats into a local buffer and posts its address with `SendNotifyMessage`, which
does not wait when the window belongs to another thread. The text of a line is thus still to be
read when the buffer is given up, and it arrives as written if nothing is stored over it and the
stack it is on exists until the list box has copied it (`log_lines_as_written`). The next call of
the same thread is enough to spoil it.

What a thread does outside `log_printf` appears as stores on its own stack. A store is as long
as the step says, so that the window thread may read between any two bytes. The window thread
is none of the threads `T`: what it logs itself is inserted before `SendNotifyMessage` returns.
-/
import Mathlib.Data.List.TakeDrop
import Mathlib.Logic.Function.Basic
import Mathlib.Tactic.Common
import W32HttpServer.Common
import W32HttpServer.Lib.Memory
import W32HttpServer.Lib.Transition

set_option autoImplicit false

namespace W32HttpServer.Logging

open W32HttpServer.Common W32HttpServer.Lib.Memory W32HttpServer.Lib.Transition

/-! ## The state -/

inductive log_kind_t
  | LOG_SERVER
  | LOG_REQUEST
  deriving DecidableEq

/-- `sizeof(buf)` in `log_printf`. -/
def sizeof_buf : ℕ := 1024

/-- A call of `log_printf`. -/
structure call_t where
  kind : log_kind_t
  /-- where `buf` is on the stack of the caller -/
  buf : ℕ
  /-- what `fmt` and its arguments make -/
  text : List u8
  deriving DecidableEq

/-- What `StringCchVPrintf` stores in a buffer of `cch` characters. -/
def StringCchVPrintf (cch : ℕ) (text : List u8) : List u8 := text.take (cch - 1) ++ [0]

/-- The bytes that a call stores in `buf`, and the string they are. -/
def call_t.output (c : call_t) : List u8 := StringCchVPrintf (sizeof_buf - 1) c.text

def call_t.formatted (c : call_t) : List u8 := cstr c.output

/-- Where a thread is. -/
inductive thread_t
  | absent
  /-- in code other than `log_printf` -/
  | elsewhere
  /-- in `char buf[1024] = {0}`, and in `StringCchVPrintf`, with so many bytes stored -/
  | zero (c : call_t) (stored : ℕ)
  | format (c : call_t) (stored : ℕ)
  /-- in `print_log`, in front of `SendNotifyMessage` and behind it -/
  | notify (c : call_t)
  | leave (c : call_t)
  | ended
  deriving DecidableEq

inductive log_message_t
  | W32HTTP_SERVERLOG
  | W32HTTP_RESPONSELOG
  deriving DecidableEq

variable {T : Type*} [DecidableEq T]

/-- Bytes on the stack of a thread. -/
structure bytes_t (T : Type*) where
  thread : T
  addr : ℕ
  bytes : List u8
  deriving DecidableEq

/-- A posted message. It carries the address `str` only; `formatted` is what the call that posted
it had in its buffer. -/
structure message_t (T : Type*) where
  message : log_message_t
  sender : T
  str : ℕ
  formatted : List u8
  deriving DecidableEq

inductive window_t (T : Type*)
  | idle
  /-- in `SendMessage(.., LB_INSERTSTRING, -1, param32)`, with so much of the string copied -/
  | insert (m : message_t T) (copied : List u8)
  /-- reading a stack that does not exist -/
  | fault
  deriving DecidableEq

/-- A line of a list box, with what was to be logged. -/
structure line_t where
  inserted : List u8
  formatted : List u8
  deriving DecidableEq

structure state_t (T : Type*) where
  stack : T → ℕ → u8
  threads : T → thread_t
  /-- `g_parent_log` is set -/
  g_parent_log : Bool
  pending : List (message_t T)
  window : window_t T
  g_server_log_window : List line_t
  g_request_log_window : List line_t

/-- The stacks hold anything. -/
def init (stack : T → ℕ → u8) : state_t T where
  stack := stack
  threads _ := .absent
  g_parent_log := false
  pending := []
  window := .idle
  g_server_log_window := []
  g_request_log_window := []

inductive action_t (T : Type*)
  | create (t : T)
  | log_printf (t : T) (c : call_t)
  /-- the next step of a thread in `log_printf`; where it stores, how many bytes -/
  | thread (t : T) (n : ℕ)
  /-- a store of a thread outside `log_printf`, or in a function called there -/
  | other (w : bytes_t T)
  | exit (t : T)
  /-- the window thread calls `init_log`, or `log_printf` -/
  | init_log
  | window_log (c : call_t)
  /-- the window thread takes a message, and copies a byte of its string -/
  | take (m : message_t T)
  | copy
  deriving DecidableEq

/-! ## The threads -/

/-- `print_log`, its `switch`. -/
def message_of : log_kind_t → log_message_t
  | .LOG_REQUEST => .W32HTTP_RESPONSELOG
  | .LOG_SERVER => .W32HTTP_SERVERLOG

/-- The call of `log_printf` a thread is in. -/
def thread_t.call : thread_t → Option call_t
  | .zero c _ | .format c _ | .notify c | .leave c => some c
  | .absent | .elsewhere | .ended => none

def goto (s : state_t T) (t : T) (pc : thread_t) : state_t T :=
  { s with threads := Function.update s.threads t pc }

def thread_step (s : state_t T) (t : T) (n : ℕ) : Option (state_t T) :=
  match s.threads t with
  | .zero c stored =>
      if 0 < n ∧ stored + n ≤ sizeof_buf then
        some (goto s t (if stored + n = sizeof_buf then .format c 0 else .zero c (stored + n)))
      else none
  | .format c stored =>
      if 0 < n ∧ stored + n ≤ c.output.length then
        some (goto s t (if stored + n = c.output.length then .notify c else .format c (stored + n)))
      else none
  | .notify c =>
      -- without a window the user is told so, and `SendNotifyMessage` fails
      some { goto s t (.leave c) with
        pending :=
          if s.g_parent_log then s.pending ++ [⟨message_of c.kind, t, c.buf, c.formatted⟩]
          else s.pending }
  | .leave _ => some (goto s t .elsewhere)
  | .absent | .elsewhere | .ended => none

/-- Code other than `log_printf` does not store in the `buf` of a call that has not returned. -/
def may_store (s : state_t T) (w : bytes_t T) : Bool :=
  match s.threads w.thread with
  | .absent | .ended => false
  | pc => pc.call.all fun c => Apart c.buf sizeof_buf w.addr w.bytes.length

/-! ## The window thread -/

/-- `main_window_procedure`: the list box of a message gets a line. -/
def insert_string (s : state_t T) (message : log_message_t) (line : line_t) : state_t T :=
  match message with
  | .W32HTTP_SERVERLOG => { s with g_server_log_window := s.g_server_log_window ++ [line] }
  | .W32HTTP_RESPONSELOG => { s with g_request_log_window := s.g_request_log_window ++ [line] }

def copy_step (s : state_t T) : Option (state_t T) :=
  match s.window with
  | .insert m copied =>
      if s.threads m.sender = .ended then some { s with window := .fault }
      else
        let byte := s.stack m.sender (m.str + copied.length)
        if byte = 0 then
          some (insert_string { s with window := .idle } m.message ⟨copied, m.formatted⟩)
        else some { s with window := .insert m (copied ++ [byte]) }
  | .idle | .fault => none

/-! ## The system -/

/-- What a step stores. -/
def stored (s : state_t T) : action_t T → Option (bytes_t T)
  | .thread t n =>
      match s.threads t with
      | .zero c i => some ⟨t, c.buf + i, List.replicate n 0⟩
      | .format c i => some ⟨t, c.buf + i, (c.output.drop i).take n⟩
      | _ => none
  | .other w => some w
  | _ => none

def perform (stack : T → ℕ → u8) : Option (bytes_t T) → T → ℕ → u8
  | none => stack
  | some w => Function.update stack w.thread (store (stack w.thread) w.addr w.bytes)

/-- A step, but for what it stores. -/
def move (s : state_t T) : action_t T → Option (state_t T)
  | .create t => if s.threads t = .absent then some (goto s t .elsewhere) else none
  | .log_printf t c => if s.threads t = .elsewhere then some (goto s t (.zero c 0)) else none
  | .thread t n => thread_step s t n
  | .other w => if may_store s w then some s else none
  | .exit t => if s.threads t = .elsewhere then some (goto s t .ended) else none
  | .init_log => if s.window = .idle then some { s with g_parent_log := true } else none
  | .window_log c =>
      if s.window = .idle then
        if s.g_parent_log then
          some (insert_string s (message_of c.kind) ⟨c.formatted, c.formatted⟩)
        else some s
      else none
  | .take m =>
      if s.window = .idle ∧ m ∈ s.pending then
        some { s with pending := s.pending.erase m, window := .insert m [] }
      else none
  | .copy => copy_step s

def step (s : state_t T) (a : action_t T) : Option (state_t T) :=
  (move s a).map fun s' => { s' with stack := perform s.stack (stored s a) }

/-! ## What should hold -/

def lines (s : state_t T) : List line_t := s.g_server_log_window ++ s.g_request_log_window

/-- Every line is what was to be logged, and the window thread reads nothing that does not
exist. -/
def AsWritten (s : state_t T) : Prop :=
  s.window ≠ .fault ∧ ∀ line ∈ lines s, line.inserted = line.formatted

/-- What the window thread is still to read: of the string in its hands what it has not copied
yet, and the strings of the messages that wait, with their terminators. -/
def unread (s : state_t T) : List (bytes_t T) :=
  (match s.window with
    | .insert m copied =>
        [⟨m.sender, m.str + copied.length, m.formatted.drop copied.length ++ [0]⟩]
    | .idle | .fault => [])
  ++ s.pending.map fun m => ⟨m.sender, m.str, m.formatted ++ [0]⟩

/-- What is still to be read stays as it is. -/
def Undisturbed (s : state_t T) (a : action_t T) : Prop :=
  ∀ u ∈ unread s, a ≠ .exit u.thread ∧ ∀ i, i < u.bytes.length →
    perform s.stack (stored s a) u.thread (u.addr + i) = s.stack u.thread (u.addr + i)

instance (s : state_t T) (a : action_t T) : Decidable (Undisturbed s a) :=
  inferInstanceAs (Decidable (∀ u ∈ unread s, a ≠ .exit u.thread ∧ ∀ i, i < u.bytes.length →
    perform s.stack (stored s a) u.thread (u.addr + i) = s.stack u.thread (u.addr + i)))

/-! ## The buffer -/

theorem output_length_le (c : call_t) : c.output.length ≤ sizeof_buf := by
  simp only [call_t.output, StringCchVPrintf, sizeof_buf, List.length_append, List.length_take,
    List.length_singleton]
  omega

theorem formatted_no_nul (c : call_t) : 0 ∉ c.formatted := cstr_no_nul c.output

/-- What a reader of the buffer meets: the string and its terminator. -/
theorem output_starts (c : call_t) : c.formatted ++ [0] <+: c.output := by
  rw [call_t.formatted, call_t.output, StringCchVPrintf]
  generalize c.text.take (sizeof_buf - 1 - 1) = text
  induction text with
  | nil => exact List.prefix_refl _
  | cons b text ih =>
      rw [List.cons_append, cstr_cons]
      split_ifs with hb
      · exact ⟨text ++ [0], by rw [hb]; rfl⟩
      · exact List.cons_prefix_cons.mpr ⟨rfl, ih⟩

/-- What a thread has in the buffer of its call. -/
def Own (mem : ℕ → u8) : thread_t → Prop
  | .format c stored => Holds mem c.buf (c.output.take stored)
  | .notify c => Holds mem c.buf c.output
  | _ => True

variable {s s' : state_t T} {a : action_t T}

theorem step_eq (hs : step s a = some s') :
    ∃ s1, move s a = some s1 ∧ s' = { s1 with stack := perform s.stack (stored s a) } := by
  obtain ⟨s1, hmove, rfl⟩ := Option.map_eq_some_iff.mp hs
  exact ⟨s1, hmove, rfl⟩

@[simp] theorem goto_self (s : state_t T) (t : T) (pc : thread_t) :
    (goto s t pc).threads t = pc :=
  Function.update_self _ _ _

theorem goto_of_ne {t r : T} (hr : r ≠ t) (s : state_t T) (pc : thread_t) :
    (goto s t pc).threads r = s.threads r :=
  Function.update_of_ne hr _ _

omit [DecidableEq T] in
/-- The stores of other code leave the buffer of a call alone. -/
theorem own_of_may_store {w : bytes_t T} (h : Own (s.stack w.thread) (s.threads w.thread))
    (hmay : may_store s w = true) :
    Own (store (s.stack w.thread) w.addr w.bytes) (s.threads w.thread) := by
  unfold may_store at hmay
  cases hpc : s.threads w.thread with
  | format c stored =>
      rw [hpc] at h hmay
      have hapart : Apart c.buf sizeof_buf w.addr w.bytes.length := by
        simpa [thread_t.call] using hmay
      have hle : (c.output.take stored).length ≤ sizeof_buf :=
        (List.length_take_le' stored c.output).trans (output_length_le c)
      exact Holds.store_apart h (hapart.of_le hle)
  | notify c =>
      rw [hpc] at h hmay
      have hapart : Apart c.buf sizeof_buf w.addr w.bytes.length := by
        simpa [thread_t.call] using hmay
      exact Holds.store_apart h (hapart.of_le (output_length_le c))
  | _ => trivial

/-- The next bytes of the text stand behind those that are stored. -/
theorem holds_output {t : T} {n i : ℕ} {c : call_t}
    (h : Holds (s.stack t) c.buf (c.output.take i)) (hpc : s.threads t = .format c i)
    (hle : i + n ≤ c.output.length) :
    Holds (perform s.stack (stored s (.thread t n)) t) c.buf (c.output.take (i + n)) := by
  have hlen : (c.output.take i).length = i := by
    rw [List.length_take]
    omega
  have hbehind : Holds
      (store (s.stack t) (c.buf + (c.output.take i).length) ((c.output.drop i).take n)) c.buf
      (c.output.take i ++ (c.output.drop i).take n) := h.store_behind
  rw [hlen] at hbehind
  rwa [stored, hpc, perform, Function.update_self, List.take_add]

/-- A thread that goes on in its call. -/
theorem own_of_thread {t : T} {n : ℕ} (h : Own (s.stack t) (s.threads t)) {s1 : state_t T}
    (hs : thread_step s t n = some s1) :
    Own (perform s.stack (stored s (.thread t n)) t) (s1.threads t) := by
  unfold thread_step at hs
  split at hs
  next c i hpc =>
    split_ifs at hs with hn hend
    · rw [← Option.some.inj hs, goto_self]
      exact holds_nil
    · rw [← Option.some.inj hs, goto_self]
      trivial
  next c i hpc =>
    rw [hpc] at h
    split_ifs at hs with hn hend
    · have hholds := holds_output h hpc hn.2
      rw [hend, List.take_length] at hholds
      rwa [← Option.some.inj hs, goto_self]
    · rw [← Option.some.inj hs, goto_self]
      exact holds_output h hpc hn.2
  next c hpc =>
    rw [← Option.some.inj hs]
    dsimp only
    rw [goto_self]
    trivial
  next c hpc =>
    rw [← Option.some.inj hs, goto_self]
    trivial
  next => exact absurd hs (by simp)
  next => exact absurd hs (by simp)
  next => exact absurd hs (by simp)

/-! ## What a step changes -/

/-- Neither the messages nor the place of the window thread change. -/
structure Quiet (s s' : state_t T) : Prop where
  pending : s'.pending = s.pending
  window : s'.window = s.window
  lines : ∀ line ∈ lines s', line ∈ lines s ∨ line.inserted = line.formatted

theorem quiet_goto (s : state_t T) (t : T) (pc : thread_t) : Quiet s (goto s t pc) :=
  ⟨rfl, rfl, fun _ => Or.inl⟩

/-- A thread posts the string in its buffer. -/
structure Posts (s s' : state_t T) (t : T) (c : call_t) : Prop where
  notify : s.threads t = .notify c
  threads : s'.threads = Function.update s.threads t (.leave c)
  pending : s'.pending = s.pending ++ [⟨message_of c.kind, t, c.buf, c.formatted⟩]
  window : s'.window = s.window
  lines : lines s' = lines s

/-- A thread in `log_printf` goes on to a place in it or behind it, and may post its string. -/
theorem thread_step_cases {t : T} {n : ℕ} (hs : thread_step s t n = some s') :
    (∃ pc, pc ≠ .ended ∧ s' = goto s t pc) ∨ ∃ c, Posts s s' t c := by
  unfold thread_step at hs
  split at hs
  next c i hpc =>
    split_ifs at hs
    · exact Or.inl ⟨.format c 0, by simp, (Option.some.inj hs).symm⟩
    · exact Or.inl ⟨.zero c (i + n), by simp, (Option.some.inj hs).symm⟩
  next c i hpc =>
    split_ifs at hs
    · exact Or.inl ⟨.notify c, by simp, (Option.some.inj hs).symm⟩
    · exact Or.inl ⟨.format c (i + n), by simp, (Option.some.inj hs).symm⟩
  next c hpc =>
    rw [← Option.some.inj hs]
    by_cases hlog : s.g_parent_log = true
    · exact Or.inr ⟨c, hpc, rfl, if_pos hlog, rfl, rfl⟩
    · refine Or.inl ⟨.leave c, by simp, ?_⟩
      rw [if_neg hlog]
      rfl
  next => exact Or.inl ⟨.elsewhere, by simp, (Option.some.inj hs).symm⟩
  next => exact absurd hs (by simp)
  next => exact absurd hs (by simp)
  next => exact absurd hs (by simp)

theorem thread_step_others {t r : T} {n : ℕ} (hs : thread_step s t n = some s') (hr : r ≠ t) :
    s'.threads r = s.threads r := by
  rcases thread_step_cases hs with ⟨pc, -, rfl⟩ | ⟨c, hposts⟩
  · exact goto_of_ne hr s pc
  · rw [hposts.threads]
    exact Function.update_of_ne hr _ _

theorem thread_step_not_ended {t : T} {n : ℕ} (hs : thread_step s t n = some s') :
    s'.threads t ≠ .ended := by
  rcases thread_step_cases hs with ⟨pc, hpc, rfl⟩ | ⟨c, hposts⟩
  · rwa [goto_self]
  · rw [hposts.threads, Function.update_self]
    simp

section Insert

variable (s : state_t T) (message : log_message_t) (line : line_t)

omit [DecidableEq T] in
@[simp] theorem insert_string_threads : (insert_string s message line).threads = s.threads := by
  cases message <;> rfl

omit [DecidableEq T] in
@[simp] theorem insert_string_pending : (insert_string s message line).pending = s.pending := by
  cases message <;> rfl

omit [DecidableEq T] in
@[simp] theorem insert_string_window : (insert_string s message line).window = s.window := by
  cases message <;> rfl

end Insert

omit [DecidableEq T] in
theorem mem_lines_insert_string {message : log_message_t} {line l : line_t} :
    l ∈ lines (insert_string s message line) ↔ l ∈ lines s ∨ l = line := by
  cases message with
  | W32HTTP_SERVERLOG => simp only [lines, insert_string, List.mem_append, List.mem_singleton,
      or_right_comm]
  | W32HTTP_RESPONSELOG => simp [lines, insert_string, or_assoc]

theorem move_cases (hs : move s a = some s') :
    Quiet s s'
      ∨ (∃ t n c, a = .thread t n ∧ Posts s s' t c)
      ∨ (∃ m, s.window = .idle ∧ m ∈ s.pending
          ∧ s' = { s with pending := s.pending.erase m, window := .insert m [] })
      ∨ a = .copy ∧ copy_step s = some s' := by
  cases a with
  | create t =>
      rw [move] at hs
      split_ifs at hs
      exact Or.inl (Option.some.inj hs ▸ quiet_goto s t _)
  | log_printf t c =>
      rw [move] at hs
      split_ifs at hs
      exact Or.inl (Option.some.inj hs ▸ quiet_goto s t _)
  | thread t n =>
      rcases thread_step_cases hs with ⟨pc, -, rfl⟩ | ⟨c, hposts⟩
      · exact Or.inl (quiet_goto s t pc)
      · exact Or.inr (Or.inl ⟨t, n, c, rfl, hposts⟩)
  | other w =>
      rw [move] at hs
      split_ifs at hs
      exact Or.inl (Option.some.inj hs ▸ ⟨rfl, rfl, fun _ => Or.inl⟩)
  | exit t =>
      rw [move] at hs
      split_ifs at hs
      exact Or.inl (Option.some.inj hs ▸ quiet_goto s t _)
  | init_log =>
      rw [move] at hs
      split_ifs at hs
      exact Or.inl (Option.some.inj hs ▸ ⟨rfl, rfl, fun _ => Or.inl⟩)
  | window_log c =>
      rw [move] at hs
      split_ifs at hs
      · rw [← Option.some.inj hs]
        refine Or.inl ⟨insert_string_pending _ _ _, insert_string_window _ _ _, fun l hl => ?_⟩
        exact (mem_lines_insert_string.mp hl).imp_right fun heq => by rw [heq]
      · exact Or.inl (Option.some.inj hs ▸ ⟨rfl, rfl, fun _ => Or.inl⟩)
  | take m =>
      rw [move] at hs
      split_ifs at hs with hm
      exact Or.inr (Or.inr (Or.inl ⟨m, hm.1, hm.2, (Option.some.inj hs).symm⟩))
  | copy => exact Or.inr (Or.inr (Or.inr ⟨rfl, hs⟩))

/-! ## The invariant -/

/-- The text is where the window thread is going to read it. -/
def Intact (s : state_t T) (u : bytes_t T) : Prop :=
  s.threads u.thread ≠ .ended ∧ Holds (s.stack u.thread) u.addr u.bytes

/-- What the window thread has of the string of a message. -/
def Reads : window_t T → Prop
  | .idle => True
  | .insert m copied => 0 ∉ m.formatted ∧ copied <+: m.formatted
  | .fault => False

structure Inv (s : state_t T) : Prop where
  own : ∀ t, Own (s.stack t) (s.threads t)
  unread : ∀ u ∈ unread s, Intact s u
  pending : ∀ m ∈ s.pending, 0 ∉ m.formatted
  window : Reads s.window
  lines : ∀ line ∈ lines s, line.inserted = line.formatted

omit [DecidableEq T] in
theorem init_inv (stack : T → ℕ → u8) : Inv (init stack) where
  own := fun _ => trivial
  unread := fun u hu => by simp [unread, init] at hu
  pending := fun m hm => by simp [init] at hm
  window := trivial
  lines := fun line hl => by simp [lines, init] at hl

/-! ### Buffers -/

omit [DecidableEq T] in
theorem copy_step_threads (hs : copy_step s = some s') : s'.threads = s.threads := by
  unfold copy_step at hs
  split at hs
  next =>
    dsimp only at hs
    split_ifs at hs
    · exact Option.some.inj hs ▸ rfl
    · exact Option.some.inj hs ▸ insert_string_threads _ _ _
    · exact Option.some.inj hs ▸ rfl
  next => exact absurd hs (by simp)
  next => exact absurd hs (by simp)

/-- A thread that is not in `log_printf` before and behind a step, or stays where it is. -/
theorem move_threads {t : T} (hs : move s a = some s') (ha : ∀ n, a ≠ .thread t n) :
    s'.threads t = s.threads t
      ∨ (∀ mem, Own mem (s'.threads t)) ∧ (s'.threads t = .ended → a = .exit t) := by
  -- a step that moves `r` leaves all others where they are
  have hgoto : ∀ r pc, (∀ mem, Own mem pc) → (pc = .ended → a = .exit r) →
      (goto s r pc).threads t = s.threads t
        ∨ (∀ mem, Own mem ((goto s r pc).threads t))
          ∧ ((goto s r pc).threads t = .ended → a = .exit t) := by
    intro r pc hown hended
    by_cases hr : t = r
    · rw [hr, goto_self]
      exact Or.inr ⟨hown, hended⟩
    · exact Or.inl (goto_of_ne hr s pc)
  cases a with
  | create r =>
      rw [move] at hs
      split_ifs at hs
      exact Option.some.inj hs ▸ hgoto r .elsewhere (fun _ => trivial) (fun h => by simp at h)
  | log_printf r c =>
      rw [move] at hs
      split_ifs at hs
      exact Option.some.inj hs ▸ hgoto r (.zero c 0) (fun _ => trivial) (fun h => by simp at h)
  | thread r n =>
      have hr : t ≠ r := fun heq => ha n (by rw [heq])
      exact Or.inl (thread_step_others hs hr)
  | other w =>
      rw [move] at hs
      split_ifs at hs
      exact Or.inl (Option.some.inj hs ▸ rfl)
  | exit r =>
      rw [move] at hs
      split_ifs at hs
      exact Option.some.inj hs ▸ hgoto r .ended (fun _ => trivial) (fun _ => rfl)
  | init_log =>
      rw [move] at hs
      split_ifs at hs
      exact Or.inl (Option.some.inj hs ▸ rfl)
  | window_log c =>
      rw [move] at hs
      split_ifs at hs
      · exact Or.inl (Option.some.inj hs ▸ congrFun (insert_string_threads _ _ _) t)
      · exact Or.inl (Option.some.inj hs ▸ rfl)
  | take m =>
      rw [move] at hs
      split_ifs at hs
      exact Or.inl (Option.some.inj hs ▸ rfl)
  | copy => exact Or.inl (congrFun (copy_step_threads hs) t)

theorem perform_thread_of_ne {t r : T} {n : ℕ} (hr : r ≠ t) :
    perform s.stack (stored s (.thread t n)) r = s.stack r := by
  dsimp only [stored]
  cases s.threads t with
  | zero c i => exact Function.update_of_ne hr _ _
  | format c i => exact Function.update_of_ne hr _ _
  | _ => rfl

theorem own_inv (h : ∀ t, Own (s.stack t) (s.threads t)) (hs : step s a = some s') (t : T) :
    Own (s'.stack t) (s'.threads t) := by
  obtain ⟨s1, hmove, rfl⟩ := step_eq hs
  have hcalm : (∀ n, a ≠ .thread t n) → Own (s.stack t) (s1.threads t) := by
    intro ha
    rcases move_threads hmove ha with hsame | ⟨hown, -⟩
    · exact hsame ▸ h t
    · apply hown
  cases a with
  | thread r n =>
      by_cases hr : t = r
      · subst hr
        have hown : Own (perform s.stack (stored s (.thread t n)) t) (s1.threads t) :=
          own_of_thread (h t) hmove
        exact hown
      · dsimp only
        rw [perform_thread_of_ne hr, thread_step_others hmove hr]
        exact h t
  | other w =>
      rw [move] at hmove
      split_ifs at hmove with hmay
      rw [← Option.some.inj hmove]
      dsimp only [stored, perform]
      by_cases hr : t = w.thread
      · rw [hr, Function.update_self]
        exact own_of_may_store (h w.thread) hmay
      · rw [Function.update_of_ne hr]
        exact h t
  | _ => exact hcalm (fun _ => by simp)

/-! ### Texts still to be read -/

theorem ended_of_step {t : T} (hs : step s a = some s') (hended : s'.threads t = .ended) :
    s.threads t = .ended ∨ a = .exit t := by
  obtain ⟨s1, hmove, rfl⟩ := step_eq hs
  by_cases ha : ∃ n, a = .thread t n
  · obtain ⟨n, rfl⟩ := ha
    have hstays : s1.threads t ≠ .ended := thread_step_not_ended hmove
    exact absurd hended hstays
  · rcases move_threads hmove (fun n heq => ha ⟨n, heq⟩) with hsame | ⟨-, hexit⟩
    · exact Or.inl (hsame ▸ hended)
    · exact Or.inr (hexit hended)

/-- A text that is still to be read stays where it is. -/
theorem Intact.step {u : bytes_t T} (h : Intact s u) (hu : u ∈ unread s) (hok : Undisturbed s a)
    (hs : step s a = some s') : Intact s' u := by
  obtain ⟨hexit, hsame⟩ := hok u hu
  refine ⟨fun hended => ?_, ?_⟩
  · exact (ended_of_step hs hended).elim h.1 hexit
  · obtain ⟨s1, -, rfl⟩ := step_eq hs
    exact h.2.congr hsame

omit [DecidableEq T] in
theorem mem_unread {u : bytes_t T} : u ∈ unread s ↔
    (∃ m copied, s.window = .insert m copied
      ∧ u = ⟨m.sender, m.str + copied.length, m.formatted.drop copied.length ++ [0]⟩)
    ∨ ∃ m ∈ s.pending, u = ⟨m.sender, m.str, m.formatted ++ [0]⟩ := by
  rw [unread, List.mem_append, List.mem_map]
  refine or_congr ?_ ⟨fun ⟨m, hm, heq⟩ => ⟨m, hm, heq.symm⟩, fun ⟨m, hm, heq⟩ => ⟨m, hm, heq.symm⟩⟩
  cases hw : s.window with
  | idle => simp
  | insert m copied => simp
  | fault => simp

omit [DecidableEq T] in
/-- The next byte of the string in the hands of the window thread. -/
theorem copy_cases (h : Inv s) (hs : copy_step s = some s') :
    ∃ m copied, s.window = .insert m copied
      ∧ (copied = m.formatted
          ∧ s' = insert_string { s with window := .idle } m.message ⟨copied, m.formatted⟩
        ∨ ∃ b, copied ++ [b] <+: m.formatted ∧ s' = { s with window := .insert m (copied ++ [b]) })
      := by
  unfold copy_step at hs
  split at hs
  next m copied hw =>
    have hreads := h.window
    rw [hw] at hreads
    obtain ⟨hfresh, rest, hrest⟩ := hreads
    have hdrop : m.formatted.drop copied.length = rest := by rw [← hrest, List.drop_left]
    obtain ⟨hended, hholds⟩ := h.unread _ (mem_unread.mpr (Or.inl ⟨m, copied, hw, rfl⟩))
    rw [hdrop] at hholds
    have hfresh' : 0 ∉ rest := fun hmem => hfresh (hrest ▸ List.mem_append_right _ hmem)
    refine ⟨m, copied, hw, ?_⟩
    rw [if_neg hended] at hs
    rcases hholds.read hfresh' with ⟨hbyte, hnil⟩ | ⟨hbyte, rest', hcons⟩
    · rw [if_pos hbyte, Option.some.injEq] at hs
      rw [hnil, List.append_nil] at hrest
      exact Or.inl ⟨hrest, hs.symm⟩
    · rw [if_neg hbyte, Option.some.injEq] at hs
      refine Or.inr ⟨_, ⟨rest', ?_⟩, hs.symm⟩
      rw [List.append_assoc, List.singleton_append, ← hcons, hrest]
  next => exact absurd hs (by simp)
  next => exact absurd hs (by simp)

theorem unread_inv (h : Inv s) (hok : Undisturbed s a) (hs : step s a = some s') :
    ∀ u ∈ unread s', Intact s' u := by
  have hkept : ∀ u ∈ unread s, Intact s' u := fun u hu => (h.unread u hu).step hu hok hs
  obtain ⟨s1, hmove, heq⟩ := step_eq hs
  have hunread : unread s' = unread s1 := by rw [heq]; rfl
  intro u hu
  rw [hunread] at hu
  -- no message is touched, one is posted, one is taken, or a byte is copied
  rcases move_cases hmove with hquiet | ⟨t, n, c, rfl, hposts⟩ | ⟨m, hw, hm, rfl⟩ | ⟨rfl, hcopy⟩
  · rw [unread, hquiet.window, hquiet.pending] at hu
    exact hkept u hu
  · rw [unread, hposts.window, hposts.pending, List.map_append, ← List.append_assoc] at hu
    rcases List.mem_append.mp hu with hu | hu
    · exact hkept u hu
    · -- the string just posted
      have hown := h.own t
      rw [hposts.notify] at hown
      rw [List.map_singleton, List.mem_singleton] at hu
      rw [hu, heq]
      refine ⟨by simp [hposts.threads], ?_⟩
      dsimp only [stored]
      rw [hposts.notify]
      exact hown.of_prefix (output_starts c)
  · -- the message that is taken was among those posted
    refine hkept u (mem_unread.mpr (Or.inr ?_))
    rcases mem_unread.mp hu with ⟨m', copied, hw', rfl⟩ | ⟨m', hm', rfl⟩
    · injection hw' with hm' hcopied
      refine ⟨m, hm, ?_⟩
      rw [← hm', ← hcopied]
      rfl
    · exact ⟨m', List.mem_of_mem_erase hm', rfl⟩
  · obtain ⟨m, copied, hw, hcases⟩ := copy_cases h hcopy
    rcases hcases with ⟨-, rfl⟩ | ⟨b, hprefix, rfl⟩
    · refine hkept u (mem_unread.mpr (Or.inr ?_))
      rcases mem_unread.mp hu with ⟨m', copied', hw', -⟩ | hpending
      · rw [insert_string_window] at hw'
        exact absurd hw' (by simp)
      · rwa [insert_string_pending] at hpending
    · rcases mem_unread.mp hu with ⟨m', copied', hw', rfl⟩ | hpending
      · -- the rest of the string
        injection hw' with hm' hcopied
        subst hm' hcopied
        obtain ⟨rest, hrest⟩ := hprefix
        have hdrop : m.formatted.drop copied.length = b :: rest := by
          rw [← hrest, List.append_assoc, List.drop_left]
          rfl
        have hdrop' : m.formatted.drop (copied ++ [b]).length = rest := by
          rw [← hrest, List.drop_left]
        have hold := hkept _ (mem_unread.mpr (Or.inl ⟨m, copied, hw, rfl⟩))
        rw [hdrop] at hold
        rw [hdrop', List.length_append, ← Nat.add_assoc]
        exact ⟨hold.1, (holds_cons.mp hold.2).2⟩
      · exact hkept u (mem_unread.mpr (Or.inr hpending))

/-! ### Strings -/

theorem step_inv (s : state_t T) (a : action_t T) (s' : state_t T) (h : Inv s)
    (hok : Undisturbed s a) (hs : step s a = some s') : Inv s' := by
  have hown := own_inv h.own hs
  have hunread := unread_inv h hok hs
  obtain ⟨s1, hmove, rfl⟩ := step_eq hs
  rcases move_cases hmove with hquiet | ⟨t, n, c, rfl, hposts⟩ | ⟨m, hw, hm, rfl⟩ | ⟨rfl, hcopy⟩
  · -- no message is touched, and a line that is new is as it was written
    refine ⟨hown, hunread, fun m hm => ?_, ?_, fun line hl => ?_⟩
    · exact h.pending m (hquiet.pending ▸ hm)
    · exact hquiet.window ▸ h.window
    · exact (hquiet.lines line hl).elim (h.lines line) id
  · refine ⟨hown, hunread, fun m hm => ?_, ?_, fun line hl => ?_⟩
    · dsimp only at hm
      rw [hposts.pending, List.mem_append, List.mem_singleton] at hm
      rcases hm with hm | rfl
      · exact h.pending m hm
      · exact formatted_no_nul c
    · exact hposts.window ▸ h.window
    · exact h.lines line (hposts.lines ▸ hl)
  · -- a message is taken, of which nothing has been copied yet
    exact ⟨hown, hunread, fun m' hm' => h.pending m' (List.mem_of_mem_erase hm'),
      ⟨h.pending m hm, List.nil_prefix⟩, h.lines⟩
  · obtain ⟨m, copied, hw, hcases⟩ := copy_cases h hcopy
    have hreads := h.window
    rw [hw] at hreads
    rcases hcases with ⟨hcopied, rfl⟩ | ⟨b, hprefix, rfl⟩
    · refine ⟨hown, hunread, ?_, ?_, fun line hl => ?_⟩
      · dsimp only
        rw [insert_string_pending]
        exact h.pending
      · dsimp only
        rw [insert_string_window]
        trivial
      · change line ∈ lines (insert_string { s with window := .idle } m.message _) at hl
        rcases mem_lines_insert_string.mp hl with hl | rfl
        · exact h.lines line hl
        · exact hcopied
    · exact ⟨hown, hunread, h.pending, ⟨hreads.1, hprefix⟩, h.lines⟩

/-- **Log lines arrive as written** in every run that leaves the texts still to be read where
they are: no store on them, and no end of their stack, from the post until the list box has copied
them. What `log_printf` does itself is enough to break that, since its buffer is zeroed by the next
call. -/
theorem log_lines_as_written (stack : T → ℕ → u8) (as : List (action_t T)) (s : state_t T)
    (hok : Meets step Undisturbed (init stack) as) (hs : exec step (init stack) as = some s) :
    AsWritten s := by
  have h := exec_invariant step_inv as (init stack) s (init_inv stack) hok hs
  refine ⟨fun hfault => ?_, h.lines⟩
  have hreads := h.window
  rw [hfault] at hreads
  exact hreads

/-! ## Two lines -/

def request_line : call_t := ⟨.LOG_REQUEST, 0, ascii "GET"⟩

def server_line : call_t := ⟨.LOG_SERVER, 0, ascii "up"⟩

/-- A call of `log_printf` from its entry to its return. -/
def logs {T : Type*} (t : T) (c : call_t) : List (action_t T) :=
  [.log_printf t c, .thread t sizeof_buf, .thread t c.output.length, .thread t 0, .thread t 0]

/-- The message of a call is taken, and its string copied. -/
def handles {T : Type*} (t : T) (c : call_t) : List (action_t T) :=
  .take ⟨message_of c.kind, t, c.buf, c.formatted⟩
    :: List.replicate (c.formatted.length + 1) .copy

/-- Two threads log a line each, and the window thread handles them the other way round. -/
def two_threads : List (action_t Bool) :=
  [.init_log, .create false, .create true] ++ logs false request_line ++ logs true server_line
    ++ handles true server_line ++ handles false request_line

theorem log_lines_as_written_two_threads :
    ∃ s, exec step (init fun _ _ => 7) two_threads = some s
      ∧ s.g_server_log_window = [⟨ascii "up", ascii "up"⟩]
      ∧ s.g_request_log_window = [⟨ascii "GET", ascii "GET"⟩] ∧ AsWritten s := by
  have hok : Meets step Undisturbed (init fun _ _ => 7) two_threads := by decide +kernel
  exact ⟨_, rfl, by decide +kernel, by decide +kernel, log_lines_as_written _ _ _ hok rfl⟩

/-- A thread logs again before its first line is handled. -/
def second_line : List (action_t Unit) :=
  [.init_log, .create ()] ++ logs () request_line ++ logs () server_line
    ++ [.take ⟨.W32HTTP_RESPONSELOG, (), 0, ascii "GET"⟩, .copy, .copy, .copy]

/-- A thread ends before its line is handled. -/
def early_exit : List (action_t Unit) :=
  [.init_log, .create ()] ++ logs () request_line
    ++ [.exit (), .take ⟨.W32HTTP_RESPONSELOG, (), 0, ascii "GET"⟩, .copy]

/-- The first line gets the text of the second, and a stack that is gone is read. -/
theorem not_log_lines_as_written :
    (∃ s, exec step (init fun _ _ => 7) second_line = some s
      ∧ s.g_request_log_window = [⟨ascii "up", ascii "GET"⟩] ∧ ¬ AsWritten s)
    ∧ ∃ s, exec step (init fun _ _ => 7) early_exit = some s ∧ s.window = .fault
      ∧ ¬ AsWritten s := by
  constructor
  · have hlines : ¬ ascii "up" = ascii "GET" := by decide
    refine ⟨_, rfl, by decide +kernel, fun h => hlines (h.2 ⟨ascii "up", ascii "GET"⟩ ?_)⟩
    decide +kernel
  · exact ⟨_, rfl, rfl, fun h => h.1 rfl⟩

end W32HttpServer.Logging

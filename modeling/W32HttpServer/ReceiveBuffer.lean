/-
What the receive loop of `process_client_request` does to `recv_buffer`.

The loop keeps a cursor into the buffer and the count `bytes_received`, and each `recv` asks for
the size of the buffer less the cursor less one, in unsigned arithmetic. `recv_loop_traced` is
the loop with a record of its accesses: where each call may write and how much, which bytes the
look-back for CR LF CR LF compares, and where the NUL goes. Apart from the record it is
`recv_loop` (`recv_loop_traced_snd`).

The two counts agree from the first call on, and the last test leaves the loop as soon as the
buffer is full but for one byte, so the length never reaches zero, from where one byte more would
wrap it (`receive_buffer_kept`).
-/
import W32HttpServer.Common
import W32HttpServer.HttpRequest
import W32HttpServer.Platform
import W32HttpServer.Context
import W32HttpServer.Win9xClient

set_option autoImplicit false

namespace W32HttpServer.ReceiveBuffer

open W32HttpServer.Common W32HttpServer.HttpRequest W32HttpServer.Platform
open W32HttpServer.Context W32HttpServer.Win9xClient

/-! ## The loop with its accesses -/

/-- Indices are offsets from `recv_buffer`; every access carries the count at that moment. -/
inductive access_t
  /-- `recv` may write `len` bytes from `cursor` on -/
  | recv (cursor len bytes_received : ℕ)
  /-- one operand of the comparison with CR LF CR LF -/
  | look_back (index : ℤ) (bytes_received : ℕ)
  /-- `*cursor = 0` -/
  | terminate (cursor bytes_received : ℕ)
  deriving DecidableEq

/-- `cursor[-4]` to `cursor[-1]`; the comparison reads as many of them as it needs. -/
def look_back (cursor : ℕ) (ctx : client_context_t) : List access_t :=
  if ctx.bytes_received ≥ 4 then
    [-4, -3, -2, -1].map fun k => .look_back (cursor + k) ctx.bytes_received
  else []

/-- `recv_loop` up to the NUL behind it, and what it accesses on its way. -/
def recv_loop_traced (cursor : ℕ) (ctx : client_context_t) : List (Option (List u8)) →
    List access_t × Option (ℕ × client_context_t × List (Option (List u8)))
  | [] => ([.recv cursor (recv_size cursor) ctx.bytes_received], none)
  | none :: results =>
      ([.recv cursor (recv_size cursor) ctx.bytes_received, .terminate cursor ctx.bytes_received],
        some (cursor, ctx, results))
  | some bytes :: results =>
      let request := access_t.recv cursor (recv_size cursor) ctx.bytes_received
      let bytes := bytes.take (recv_size cursor)
      if bytes = [] then
        ([request, .terminate cursor ctx.bytes_received], some (cursor, ctx, results))
      else
        let ctx := { ctx with
          recv_buffer := write_at ctx.recv_buffer cursor bytes
          bytes_received := ctx.bytes_received + bytes.length }
        let cursor := cursor + bytes.length
        if ctx.bytes_received ≥ 4 ∧ slice ctx.recv_buffer (cursor - 4) cursor = crlfcrlf then
          (request :: (look_back cursor ctx ++ [.terminate cursor ctx.bytes_received]),
            some (cursor, ctx, results))
        else if ctx.bytes_received ≥ RECV_BUFFER_SIZE - 1 then
          (request :: (look_back cursor ctx ++ [.terminate cursor ctx.bytes_received]),
            some (cursor, ctx, results))
        else
          let (later, stop) := recv_loop_traced cursor ctx results
          (request :: (look_back cursor ctx ++ later), stop)

/-- The record changes nothing. -/
theorem recv_loop_traced_snd (results : List (Option (List u8))) :
    ∀ (cursor : ℕ) (ctx : client_context_t),
      (recv_loop_traced cursor ctx results).2 = recv_loop cursor ctx results := by
  induction results with
  | nil => exact fun _ _ => rfl
  | cons result results ih =>
      intro cursor ctx
      rcases result with _ | bytes
      · rfl
      · rw [recv_loop_traced, recv_loop]
        dsimp only
        split_ifs
        · rfl
        · rfl
        · rfl
        · apply ih

/-! ## Safe accesses -/

/-- The access stays in the buffer, and the cursor is where the count says. -/
def access_t.Safe : access_t → Prop
  | .recv cursor len bytes_received =>
      cursor = bytes_received ∧ 1 ≤ len ∧ len + bytes_received ≤ RECV_BUFFER_SIZE - 1
  | .look_back index bytes_received => 0 ≤ index ∧ index < bytes_received
  | .terminate cursor bytes_received =>
      cursor = bytes_received ∧ cursor ≤ RECV_BUFFER_SIZE - 1

def Kept (accesses : List access_t) : Prop := ∀ a ∈ accesses, a.Safe

theorem kept_nil : Kept [] := List.forall_mem_nil _

theorem kept_cons {a : access_t} {accesses : List access_t} :
    Kept (a :: accesses) ↔ a.Safe ∧ Kept accesses := List.forall_mem_cons

theorem kept_append {l l' : List access_t} : Kept (l ++ l') ↔ Kept l ∧ Kept l' :=
  List.forall_mem_append

/-- The request in front of each `recv`. -/
theorem recv_safe {got : List u8} {ctx : client_context_t} (h : Received got ctx)
    (hroom : got.length < RECV_BUFFER_SIZE - 1) :
    (access_t.recv got.length (recv_size got.length) ctx.bytes_received).Safe := by
  have hcount := h.count
  rw [recv_size_eq h.fits]
  exact ⟨hcount.symm, by omega, by omega⟩

theorem terminate_safe {got : List u8} {ctx : client_context_t} (h : Received got ctx) :
    (access_t.terminate got.length ctx.bytes_received).Safe := ⟨h.count.symm, h.fits⟩

/-- With four bytes received there are four in front of the cursor. -/
theorem look_back_kept {got : List u8} {ctx : client_context_t} (h : Received got ctx) :
    Kept (look_back got.length ctx) := by
  have hcount := h.count
  unfold look_back
  split_ifs with hfour
  · intro a ha
    obtain ⟨k, hk, rfl⟩ := List.mem_map.mp ha
    have hrange : -4 ≤ k ∧ k ≤ -1 := by
      simp only [List.mem_cons, List.not_mem_nil, or_false] at hk
      omega
    show 0 ≤ (got.length : ℤ) + k ∧ (got.length : ℤ) + k < ctx.bytes_received
    omega
  · exact kept_nil

/-- **The run.** From any point at which there is room, the loop keeps to its buffer. -/
theorem recv_loop_kept (results : List (Option (List u8))) : ∀ {got : List u8}
    {ctx : client_context_t}, Received got ctx → got.length < RECV_BUFFER_SIZE - 1 →
      Kept (recv_loop_traced got.length ctx results).1 := by
  induction results with
  | nil =>
      intro got ctx h hroom
      exact kept_cons.mpr ⟨recv_safe h hroom, kept_nil⟩
  | cons result results ih =>
      intro got ctx h hroom
      have hclosed : Kept [.recv got.length (recv_size got.length) ctx.bytes_received,
          .terminate got.length ctx.bytes_received] :=
        kept_cons.mpr ⟨recv_safe h hroom, kept_cons.mpr ⟨terminate_safe h,
          kept_nil⟩⟩
      rcases result with _ | bytes
      · exact hclosed
      · have hfits : (got ++ bytes.take (recv_size got.length)).length
            ≤ RECV_BUFFER_SIZE - 1 := by
          rw [recv_size_eq h.fits, List.length_append, List.length_take]
          omega
        have hmore := received_more h hfits
        have hback := look_back_kept hmore
        have hend := terminate_safe hmore
        rw [recv_loop_traced]
        dsimp only at hback hend ⊢
        rw [← List.length_append]
        -- both ways out behind the look-back put the NUL at the cursor
        have hleft := kept_cons.mpr ⟨recv_safe h hroom, kept_append.mpr ⟨hback,
          kept_cons.mpr ⟨hend, kept_nil⟩⟩⟩
        split_ifs with hempty hterm hfull
        · exact hclosed
        · exact hleft
        · exact hleft
        · -- the loop goes on with room left
          have hcount := hmore.count
          dsimp only at hcount
          have hlater := ih hmore (by omega)
          exact kept_cons.mpr ⟨recv_safe h hroom, kept_append.mpr ⟨hback, hlater⟩⟩

/-- **The receive buffer is never overrun**, whatever `recv` returns. The cursor and the count stay
equal and below the last byte, which is left for the NUL. -/
theorem receive_buffer_kept (sock : SOCKET) (results : List (Option (List u8))) :
    Kept (recv_loop_traced 0 (create_client_context sock) results).1 :=
  recv_loop_kept results (received_nothing sock) (by decide)

end W32HttpServer.ReceiveBuffer

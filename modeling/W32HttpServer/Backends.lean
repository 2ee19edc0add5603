/-
The two back ends answer alike.

`process_client_request` sends a response from one loop on one stack; the NT handlers send
the same response one completion at a time and keep their place in the context. Both are
run here over networks that record what goes on the wire, and over one and the same file
system. The simulation goes chunk by chunk: a round of the Win9x loop is one send
completion, and the completion that finds no more chunks is the one that frees the context
(`stream_loop_simulated`).

The file system is any state machine, so that the two runs leave it in the same state says
more than that the bytes agree: they have made the same calls in the same order, and end
after the same chunk with the same handles closed.
-/
import W32HttpServer.Common
import W32HttpServer.Lib.Scan
import W32HttpServer.HttpRequest
import W32HttpServer.HttpResponse
import W32HttpServer.Platform
import W32HttpServer.Disk
import W32HttpServer.Context
import W32HttpServer.DirStream
import W32HttpServer.Serve
import W32HttpServer.Win9xClient
import W32HttpServer.NtHandlers

set_option autoImplicit false

namespace W32HttpServer.Backends

open W32HttpServer.Common W32HttpServer.HttpRequest W32HttpServer.HttpResponse
open W32HttpServer.Platform W32HttpServer.Disk W32HttpServer.Context W32HttpServer.DirStream
open W32HttpServer.Lib.Scan W32HttpServer.Serve W32HttpServer.Win9xClient W32HttpServer.NtHandlers

variable {σ τ τ' : Type}

/-! ## The networks -/

/-- `send` accepts some positive part of what it is offered. -/
def Accepts (net : Sockets τ) : Prop :=
  ∀ t sock buf, buf ≠ [] → ∃ n, 0 < n ∧ (net.send t sock buf).1 = some n

/-- Every overlapped send is started, and so completes with its whole buffer. -/
def Starts (net : Sockets τ) : Prop := ∀ t sock buf, (net.WSASend t sock buf).1 = true

/-- However `send` cuts it up, `send_all` puts the whole buffer on the wire. -/
theorem send_all_loop_recorded {net : Sockets τ} (hnet : Accepts net) (sock : SOCKET)
    (buf : List u8) (sent : ℕ) (t : τ) (w : List u8) (hsent : sent ≤ buf.length) :
    ∃ t', send_all_loop net.recorded sock buf sent (t, w) = (0, (t', w ++ buf.drop sent)) := by
  induction hk : buf.length - sent using Nat.strongRecOn generalizing sent t w with
  | ind k ih =>
      rw [send_all_loop]
      by_cases hlt : sent < buf.length
      · have hne : buf.drop sent ≠ [] := by
          rw [ne_eq, List.drop_eq_nil_iff]
          omega
        obtain ⟨n, hn, hsend⟩ := hnet t sock (buf.drop sent) hne
        have hle : n ≤ buf.length - sent := by
          rw [← List.length_drop]
          exact net.send_le hsend
        have hrec : net.recorded.send (t, w) sock (buf.drop sent)
            = (some n, ((net.send t sock (buf.drop sent)).2, w ++ (buf.drop sent).take n)) := by
          simp only [Sockets.recorded, hsend, Option.getD_some]
        obtain ⟨t', heq⟩ := ih (buf.length - (sent + n)) (by omega) (sent + n)
          (net.send t sock (buf.drop sent)).2 (w ++ (buf.drop sent).take n) (by omega) rfl
        rw [dif_pos hlt, hrec]
        dsimp only
        rw [dif_neg (by omega), heq, List.append_assoc, ← List.drop_drop, List.take_append_drop]
        exact ⟨t', rfl⟩
      · have hend : sent = buf.length := by omega
        rw [dif_neg hlt, hend, List.drop_length, List.append_nil]
        exact ⟨t, rfl⟩

theorem send_all_recorded {net : Sockets τ} (hnet : Accepts net) (sock : SOCKET)
    (buf : List u8) (t : τ) (w : List u8) :
    ∃ t', send_all net.recorded sock buf (t, w) = (0, (t', w ++ buf)) :=
  send_all_loop_recorded hnet sock buf 0 t w (Nat.zero_le _)

theorem post_send_recorded {net : Sockets τ} (hnet : Starts net) (ctx : client_context_t)
    (hsock : ctx.client_socket ≠ .INVALID_SOCKET) {data : List u8} (hne : data ≠ [])
    (hfits : data.length ≤ HTTP_SEND_BUFFER_SIZE) (t : τ) (w : List u8) :
    ∃ ctx' t', post_send net.recorded ctx data (t, w) = (0, ctx', (t', w ++ data))
      ∧ ctx'.client_socket = ctx.client_socket ∧ ctx'.stream = ctx.stream := by
  have hpos : 0 < data.length := List.length_pos_iff.mpr hne
  have hcopied : (write_at ctx.send_buffer 0 data).take data.length = data := by
    rw [write_at, List.take_zero, List.nil_append, List.take_left']
    rfl
  have hguard : ¬ (ctx.client_socket = .INVALID_SOCKET ∨ data.length = 0
      ∨ data.length > HTTP_SEND_BUFFER_SIZE) := by
    rintro (h | h | h)
    · exact hsock h
    · omega
    · omega
  rw [post_send, if_neg hguard]
  dsimp only
  rw [hcopied]
  simp only [Sockets.recorded, hnet t ctx.client_socket data, if_true]
  exact ⟨_, _, rfl, rfl, rfl⟩

/-! ## Closing -/

/-- A source that was closed has nothing left to close. -/
theorem stream_close_closed (fs : FileSystem σ) (ctx : stream_state_t) (s s' : σ) :
    (stream_close fs (stream_close fs ctx s).1 s').2 = s' := by
  have hfile : ¬ ((stream_close fs ctx s).1.stream_file ≠ .INVALID_HANDLE_VALUE
      ∧ (stream_close fs ctx s).1.stream_file ≠ .NULL) := by
    simp only [stream_close]
    split_ifs <;> simp_all
  have hfind : ¬ ((stream_close fs ctx s).1.dir_find ≠ .INVALID_HANDLE_VALUE
      ∧ (stream_close fs ctx s).1.dir_find ≠ .NULL) := by
    simp only [stream_close]
    split_ifs <;> simp_all
  generalize (stream_close fs ctx s).1 = closed at hfile hfind
  rw [stream_close, if_neg hfile]
  dsimp only
  rw [if_neg hfind]

/-- Freeing a context closes what it streams, and its socket. -/
theorem destroy_recorded (fs : FileSystem σ) (net : Sockets τ) (ctx : client_context_t) (s : σ)
    (t : τ) (w : List u8) :
    ∃ t', destroy_client_context fs net.recorded ctx s (t, w)
      = ((stream_close fs ctx.stream s).2, (t', w)) := by
  unfold destroy_client_context
  split_ifs
  · exact ⟨net.closesocket t ctx.client_socket, rfl⟩
  · exact ⟨t, rfl⟩

/-- Freeing it after its source was closed closes nothing twice. -/
theorem destroy_closed_recorded (fs : FileSystem σ) (net : Sockets τ) (ctx : client_context_t)
    (stream : stream_state_t) (s : σ) (t : τ) (w : List u8) :
    ∃ t', destroy_client_context fs net.recorded
        { ctx with stream := (stream_close fs stream s).1 } (stream_close fs stream s).2 (t, w)
      = ((stream_close fs stream s).2, (t', w)) := by
  obtain ⟨t', h⟩ := destroy_recorded fs net { ctx with stream := (stream_close fs stream s).1 }
    (stream_close fs stream s).2 t w
  refine ⟨t', h.trans ?_⟩
  dsimp only
  rw [stream_close_closed]

/-! ## One chunk -/

theorem stream_loop_last {fs : FileSystem σ} {net : Sockets τ} {ctx ctx' : stream_state_t}
    {s s' : σ} (h : stream_next_chunk fs HTTP_SEND_BUFFER_SIZE ctx s = ([], ctx', s'))
    (sock : SOCKET) (t : τ) : stream_loop fs net sock ctx s t = (ctx', s', t) := by
  rw [stream_loop]
  split
  next chunk ctx1 s1 heq =>
    rw [h] at heq
    obtain ⟨rfl, rfl, rfl⟩ := Prod.mk.inj heq |>.imp_right Prod.mk.inj
    rw [dif_pos rfl]

theorem stream_loop_chunk {fs : FileSystem σ} {net : Sockets τ} {ctx ctx' : stream_state_t}
    {s s' : σ} {chunk : List u8}
    (h : stream_next_chunk fs HTTP_SEND_BUFFER_SIZE ctx s = (chunk, ctx', s')) (hne : chunk ≠ [])
    {sock : SOCKET} {t t' : τ} (hsend : send_all net sock chunk t = (0, t')) :
    stream_loop fs net sock ctx s t = stream_loop fs net sock ctx' s' t' := by
  rw [stream_loop]
  split
  next chunk1 ctx1 s1 heq =>
    rw [h] at heq
    obtain ⟨rfl, rfl, rfl⟩ := Prod.mk.inj heq |>.imp_right Prod.mk.inj
    rw [dif_neg hne, hsend]
    dsimp only
    rw [if_neg (by simp)]

/-- A broken connection ends the loop: no further chunk is pulled. -/
theorem stream_loop_broken {fs : FileSystem σ} {net : Sockets τ} {ctx ctx' : stream_state_t}
    {s s' : σ} {chunk : List u8}
    (h : stream_next_chunk fs HTTP_SEND_BUFFER_SIZE ctx s = (chunk, ctx', s')) (hne : chunk ≠ [])
    {sock : SOCKET} {t t' : τ} {rc : ℤ} (hsend : send_all net sock chunk t = (rc, t'))
    (hrc : rc ≠ 0) : stream_loop fs net sock ctx s t = (ctx', s', t') := by
  rw [stream_loop]
  split
  next chunk1 ctx1 s1 heq =>
    rw [h] at heq
    obtain ⟨rfl, rfl, rfl⟩ := Prod.mk.inj heq |>.imp_right Prod.mk.inj
    rw [dif_neg hne, hsend]
    dsimp only
    rw [if_pos hrc]

/-- The completion that finds no more chunks frees the context. -/
theorem handle_send_last {fs : FileSystem σ} (net : Sockets τ) {ctx : client_context_t}
    (hkind : ctx.stream.stream_kind ≠ .STREAM_NONE) {stream : stream_state_t} {s s' : σ}
    (h : stream_next_chunk fs HTTP_SEND_BUFFER_SIZE ctx.stream s = ([], stream, s')) (t : τ)
    (w : List u8) :
    ∃ t', handle_send_completion fs net.recorded ctx s (t, w)
      = (none, (stream_close fs stream s').2, (t', w)) := by
  obtain ⟨t', hdestroy⟩ := destroy_closed_recorded fs net { ctx with stream := stream } stream s' t w
  refine ⟨t', ?_⟩
  rw [handle_send_completion, if_pos hkind, h]
  dsimp only
  rw [if_neg (by simp), if_neg (by simp), hdestroy]

theorem handle_send_chunk {fs : FileSystem σ} {net : Sockets τ} (hnet : Starts net)
    {ctx : client_context_t} (hsock : ctx.client_socket ≠ .INVALID_SOCKET)
    (hkind : ctx.stream.stream_kind ≠ .STREAM_NONE) {stream : stream_state_t} {s s' : σ}
    {chunk : List u8}
    (h : stream_next_chunk fs HTTP_SEND_BUFFER_SIZE ctx.stream s = (chunk, stream, s'))
    (hne : chunk ≠ []) (hfits : chunk.length ≤ HTTP_SEND_BUFFER_SIZE) (t : τ) (w : List u8) :
    ∃ ctx' t', handle_send_completion fs net.recorded ctx s (t, w)
        = (some ctx', s', (t', w ++ chunk))
      ∧ ctx'.client_socket = ctx.client_socket ∧ ctx'.stream = stream := by
  have hpos : chunk.length > 0 := List.length_pos_iff.mpr hne
  obtain ⟨ctx', t', hpost, hsock', hstream'⟩ :=
    post_send_recorded hnet { ctx with stream := stream } hsock hne hfits t w
  refine ⟨ctx', t', ?_, hsock', hstream'⟩
  rw [handle_send_completion, if_pos hkind, h]
  dsimp only
  rw [if_pos hpos, hpost]
  dsimp only
  rw [if_pos (by simp)]

/-! ## The simulation -/

section

variable {net : Sockets τ} {net' : Sockets τ'} (hnet : Accepts net) (hnet' : Starts net')
include hnet hnet'

/-- **Body by body.** From the same stream state and the same wire the loop and the
completions send the same chunks; the last completion closes what the loop leaves open. -/
theorem stream_loop_simulated (fs : FileSystem σ) {sock : SOCKET}
    (hvalid : sock ≠ .INVALID_SOCKET) : ∀ (stream : stream_state_t) (s : σ),
    stream.stream_kind ≠ .STREAM_NONE → ∀ (t : τ) (t' : τ') (w : List u8) (ctx : client_context_t),
      ctx.client_socket = sock → ctx.stream = stream →
      ∃ rounds stream1 s1 t1 t1' w1,
        stream_loop fs net.recorded sock stream s (t, w) = (stream1, s1, (t1, w1))
        ∧ send_completions fs net'.recorded (rounds + 1) (some ctx, s, (t', w))
          = (none, (stream_close fs stream1 s1).2, (t1', w1))
        ∧ ∀ k ≤ rounds, (send_completions fs net'.recorded k (some ctx, s, (t', w))).1.isSome := by
  refine stream_induction fs ?_
  intro stream s ih hkind t t' w ctx hsock hstream
  have hkind' : ctx.stream.stream_kind ≠ .STREAM_NONE := by rw [hstream]; exact hkind
  obtain ⟨chunk, stream1, s1, hnext, hsame, hlen, -⟩ := stream_next_chunk_progress fs
    HTTP_SEND_BUFFER_SIZE (by decide) (by decide) stream s
  have hnext' : stream_next_chunk fs HTTP_SEND_BUFFER_SIZE ctx.stream s = (chunk, stream1, s1) := by
    rw [hstream]; exact hnext
  by_cases hne : chunk = []
  · -- the loop ends, and the completion in flight finds nothing to post
    subst hne
    obtain ⟨t1', hlast⟩ := handle_send_last net' hkind' hnext' t' w
    refine ⟨0, stream1, s1, t, t1', w, stream_loop_last hnext _ _, ?_, ?_⟩
    · rw [send_completions, hlast, send_completions]
    · intro k hk
      rw [Nat.le_zero.mp hk]
      rfl
  · -- one round of the loop is one completion
    obtain ⟨t2, hsend⟩ := send_all_recorded hnet sock chunk t w
    obtain ⟨ctx2, t2', hchunk, hsock2, hstream2⟩ := handle_send_chunk hnet'
      (by rw [hsock]; exact hvalid) hkind' hnext' hne hlen t' w
    obtain ⟨rounds, stream3, s3, t3, t3', w3, hloop, hcompl, halive⟩ :=
      ih chunk stream1 s1 hnext hne (by rw [hsame.stream_kind]; exact hkind) t2 t2' (w ++ chunk) ctx2
        (hsock2.trans hsock) hstream2
    refine ⟨rounds + 1, stream3, s3, t3, t3', w3, ?_, ?_, ?_⟩
    · rw [stream_loop_chunk hnext hne hsend, hloop]
    · rw [send_completions, hchunk, hcompl]
    · intro k hk
      cases k with
      | zero => rfl
      | succ k =>
          rw [send_completions, hchunk]
          exact halive k (by omega)

/-- **Response by response.** `answer_request` and the free behind it, against `respond`
and its completions. -/
theorem answer_request_simulated (document_root : List u8) (fs : FileSystem σ)
    (ctx ctx' : client_context_t) (hvalid : ctx.client_socket ≠ .INVALID_SOCKET)
    (hsock : ctx'.client_socket = ctx.client_socket) (hstream : ctx'.stream = ctx.stream)
    (req : http_request_t) (s : σ) (t : τ) (t' : τ') (w : List u8) :
    ∃ rounds ctx1 s0 t0 s1 t1 t1' w1,
      answer_request document_root fs net.recorded ctx req s (t, w) = (ctx1, s0, t0)
      ∧ destroy_client_context fs net.recorded ctx1 s0 t0 = (s1, (t1, w1))
      ∧ send_completions fs net'.recorded (rounds + 1)
          (respond document_root fs net'.recorded ctx' req s (t', w)) = (none, s1, (t1', w1))
      ∧ ∀ k ≤ rounds, (send_completions fs net'.recorded k
          (respond document_root fs net'.recorded ctx' req s (t', w))).1.isSome := by
  have hwell := serve_http_request_wellFormed document_root fs ctx.stream req s
  rw [answer_request, respond, hstream]
  generalize serve_http_request document_root fs ctx.stream req HTTP_SEND_BUFFER_SIZE s = r at hwell
  have hrc : ¬ r.rc < 0 := by
    rcases hwell.rc_kind with ⟨h, -⟩ | ⟨h, -⟩ <;> omega
  have hlen : r.out.length ≤ HTTP_SEND_BUFFER_SIZE := le_trans hwell.out_length (by decide)
  -- both have sent the head
  obtain ⟨t2, hsend⟩ := send_all_recorded hnet ctx.client_socket r.out t w
  obtain ⟨ctx2, t2', hpost, hsock2, hstream2⟩ := post_send_recorded hnet'
    { ctx' with stream := r.ctx } (by rw [hsock]; exact hvalid) hwell.out_ne_nil hlen t' w
  have hsock3 : ctx2.client_socket = ctx.client_socket := hsock2.trans hsock
  have hstream3 : ctx2.stream = r.ctx := hstream2
  have hposted : ¬ ((0 : ℤ) ≠ 0) := by decide
  dsimp only
  rw [if_neg hrc, if_neg hrc, hsend]
  dsimp only
  rw [hpost]
  dsimp only
  rw [if_neg hposted]
  rcases hwell.rc_kind with ⟨hzero, hnone⟩ | ⟨hone, hsome⟩
  · -- an inline response: the first completion frees the context
    have hinline : ¬ ((0 : ℤ) = 0 ∧ r.rc = 1) := by
      rw [hzero]
      decide
    have hidle : ¬ ctx2.stream.stream_kind ≠ .STREAM_NONE := by
      rw [hstream3]
      exact not_not.mpr hnone
    rw [if_neg hinline]
    dsimp only
    obtain ⟨t1, hdestroy⟩ := destroy_closed_recorded fs net ctx r.ctx r.fs_state t2 (w ++ r.out)
    obtain ⟨t1', hfree⟩ := destroy_recorded fs net' ctx2 r.fs_state t2' (w ++ r.out)
    refine ⟨0, _, _, _, _, t1, t1', w ++ r.out, rfl, hdestroy, ?_, ?_⟩
    · rw [send_completions, handle_send_completion, if_neg hidle, hfree, send_completions, hstream3]
    · intro k hk
      rw [Nat.le_zero.mp hk]
      rfl
  · -- a head with a body behind it: the simulation takes over
    have hbody : (0 : ℤ) = 0 ∧ r.rc = 1 := ⟨rfl, hone⟩
    rw [if_pos hbody]
    obtain ⟨rounds, stream1, s1, t3, t1', w1, hloop, hcompl, halive⟩ :=
      stream_loop_simulated hnet hnet' fs hvalid r.ctx r.fs_state hsome t2 t2' (w ++ r.out) ctx2
        hsock3 hstream3
    obtain ⟨t1, hdestroy⟩ := destroy_closed_recorded fs net ctx stream1 s1 t3 w1
    rw [hloop]
    exact ⟨rounds, _, _, _, _, t1, t1', w1, rfl, hdestroy, hcompl, halive⟩

/-- **Client by client.** A request that both back ends hand to the parser is answered with
the same bytes; the Win9x thread is done with the client, and the NT context is freed, not
earlier than at the same point and with the file system in the same state. -/
theorem same_response (document_root : List u8) (fs : FileSystem σ) (n : ℕ)
    (results : List (Option (List u8))) (payload : List u8) (indeterminate : u32)
    (req : http_request_t)
    (hrecv : win9x_handed (create_client_context (.of n)) results = some payload)
    (hparse : parse_http_request payload indeterminate = some req) (s : σ) (t : τ) (t' : τ') :
    let posted := (post_recv net'.recorded (create_client_context (.of n)) (t', [])).2.1
    let completed := recv_completed posted payload
    ∃ rounds r s1 t1 t1' wire,
      handle_client_win9x document_root fs net.recorded (create_client_context (.of n)) results
        indeterminate s (t, []) = some (s1, (t1, wire))
      ∧ handle_recv_completion document_root fs net'.recorded completed.1 completed.2
        indeterminate s (t', []) = some r
      ∧ send_completions fs net'.recorded (rounds + 1) r = (none, s1, (t1', wire))
      ∧ ∀ k ≤ rounds, (send_completions fs net'.recorded k r).1.isSome := by
  dsimp only
  rw [win9x_handed, Option.map_eq_some_iff] at hrecv
  obtain ⟨⟨ctx, left⟩, hctx, hhanded⟩ := hrecv
  dsimp only at hhanded
  obtain ⟨hfits, hsock, hstream⟩ := receive_request_received hctx
  rw [hhanded] at hfits
  -- the NT handler is handed the same payload
  have hhanded' := handed_recv_completed
    (post_recv net'.recorded (create_client_context (.of n)) (t', [])).2.1 payload hfits
  have hcount : (recv_completed (post_recv net'.recorded (create_client_context (.of n))
      (t', [])).2.1 payload).2 ≠ 0 := by
    rw [recv_completed_count _ hfits]
    obtain ⟨i, _, _, _, hi, -⟩ := parse_http_request_eq_some.mp hparse
    have hlt := (scanFrom_headIs_bounds (Nat.zero_le _) hi).2
    omega
  obtain ⟨hsock', hstream'⟩ := post_recv_frame net'.recorded (create_client_context (.of n)) (t', [])
  have hvalid : ctx.client_socket ≠ .INVALID_SOCKET := by
    rw [hsock]
    simp
  -- from the parsed request on it is the simulation
  obtain ⟨rounds, ctx1, s0, t0, s1, t1, t1', wire, hanswer, hdestroy, hcompl, halive⟩ :=
    answer_request_simulated hnet hnet' document_root fs ctx
      (recv_terminate (recv_completed (post_recv net'.recorded
        (create_client_context (.of n)) (t', [])).2.1 payload).1 (recv_completed
        (post_recv net'.recorded (create_client_context (.of n)) (t', [])).2.1 payload).2) hvalid
      (hsock'.trans hsock.symm) (hstream'.trans hstream.symm) req s t t' []
  refine ⟨rounds, _, s1, t1, t1', wire, ?_, ?_, hcompl, halive⟩
  · rw [handle_client_win9x, process_client_request, hctx]
    simp only [Option.bind_eq_bind, Option.bind_some, hhanded, hparse, hanswer, hdestroy]
  · rw [handle_recv_completion, if_neg hcount]
    simp only [hhanded', hparse, Option.bind_eq_bind, Option.bind_some]

end

theorem accepting_accepts : Accepts .accepting :=
  fun _ _ buf hbuf => ⟨buf.length, List.length_pos_iff.mpr hbuf, rfl⟩

/-- A listing on both back ends, over the directory of `sample_tree`. -/
theorem same_response_sample :
    let posted := (post_recv Sockets.accepting.recorded (create_client_context (.of 1)) ((), [])).2.1
    let completed := recv_completed posted (ascii "GET /d/ HTTP/1.0\r\nA: b\r\n\r\n")
    ∃ rounds r s1 t1 t1' wire,
      handle_client_win9x (ascii "C:\\www") (disk sample_tree) Sockets.accepting.recorded
        (create_client_context (.of 1)) [some (ascii "GET /d/ HTTP/1.0\r\nA: b\r\n\r\n")]
        0 [] ((), []) = some (s1, (t1, wire))
      ∧ handle_recv_completion (ascii "C:\\www") (disk sample_tree) Sockets.accepting.recorded
        completed.1 completed.2 0 [] ((), []) = some r
      ∧ send_completions (disk sample_tree) Sockets.accepting.recorded (rounds + 1) r
        = (none, s1, (t1', wire))
      ∧ ∀ k ≤ rounds,
        (send_completions (disk sample_tree) Sockets.accepting.recorded k r).1.isSome := by
  refine same_response accepting_accepts (fun _ _ _ => rfl) (ascii "C:\\www") (disk sample_tree) 1
    [some (ascii "GET /d/ HTTP/1.0\r\nA: b\r\n\r\n")] (ascii "GET /d/ HTTP/1.0\r\nA: b\r\n\r\n") 0
    ⟨1, ⟨18, 22⟩, ⟨4, 7⟩, ascii "GET /d/ HTTP/1.0\r\nA: b\r\n\r\n"⟩ ?_ (by decide) [] () ()
  exact win9x_handed_eq (.of 1) [ascii "GET /d/ HTTP/1.0\r\nA: b\r\n\r\n"] (by decide) (by decide)

end W32HttpServer.Backends

/-
The one response to a request, and what of it arrives.

`whole_response` says what a client should get for a request: the head, and behind it every
chunk the body source has until it is empty. It knows of no socket, no buffer and no
completion, only of the file system. Both back ends send this text. Where the connection
breaks, `send` takes a part only, or a posted send does not start, they send a beginning of
it and nothing else, and then close (`win9x_sends`, `nt_sends`).
-/
import W32HttpServer.Common
import W32HttpServer.HttpRequest
import W32HttpServer.HttpResponse
import W32HttpServer.Platform
import W32HttpServer.Disk
import W32HttpServer.Context
import W32HttpServer.DirStream
import W32HttpServer.Serve
import W32HttpServer.Win9xClient
import W32HttpServer.NtHandlers
import W32HttpServer.Backends
import W32HttpServer.Lib.Scan

set_option autoImplicit false

namespace W32HttpServer.WholeResponse

open W32HttpServer.Common W32HttpServer.HttpRequest W32HttpServer.HttpResponse
open W32HttpServer.Platform W32HttpServer.Disk W32HttpServer.Context W32HttpServer.DirStream
open W32HttpServer.Serve W32HttpServer.Win9xClient W32HttpServer.NtHandlers W32HttpServer.Backends
open W32HttpServer.Lib.Scan

variable {σ τ τ' : Type}

/-! ## What a client should get -/

/-- Everything a body source hands out until it hands out nothing. -/
def body (fs : FileSystem σ) (ctx : stream_state_t) (s : σ) : List u8 :=
  match _hnext : stream_next_chunk fs HTTP_SEND_BUFFER_SIZE ctx s with
  | (chunk, ctx', s') => if _hchunk : chunk = [] then [] else chunk ++ body fs ctx' s'
termination_by stream_ahead fs ctx s
decreasing_by
  obtain ⟨_, _, _, heq, -, -, hlt⟩ :=
    stream_next_chunk_progress fs HTTP_SEND_BUFFER_SIZE (by decide) (by decide) ctx s
  rw [_hnext] at heq
  obtain ⟨rfl, rfl, rfl⟩ := Prod.mk.inj heq |>.imp_right Prod.mk.inj
  exact hlt _hchunk

/-- The response to a request that finds the file system in state `s`. -/
def whole_response (document_root : List u8) (fs : FileSystem σ) (req : http_request_t) (s : σ) :
    List u8 :=
  let r := serve_http_request document_root fs initial_stream req HTTP_SEND_BUFFER_SIZE s
  if r.rc = 1 then r.out ++ body fs r.ctx r.fs_state else r.out

section

variable {fs : FileSystem σ} {ctx ctx' : stream_state_t} {s s' : σ}

theorem body_last (h : stream_next_chunk fs HTTP_SEND_BUFFER_SIZE ctx s = ([], ctx', s')) :
    body fs ctx s = [] := by
  rw [body]
  split
  next chunk ctx1 s1 heq =>
    rw [h] at heq
    obtain ⟨rfl, rfl, rfl⟩ := Prod.mk.inj heq |>.imp_right Prod.mk.inj
    rw [dif_pos rfl]

theorem body_chunk {chunk : List u8}
    (h : stream_next_chunk fs HTTP_SEND_BUFFER_SIZE ctx s = (chunk, ctx', s'))
    (hne : chunk ≠ []) : body fs ctx s = chunk ++ body fs ctx' s' := by
  rw [body]
  split
  next chunk1 ctx1 s1 heq =>
    rw [h] at heq
    obtain ⟨rfl, rfl, rfl⟩ := Prod.mk.inj heq |>.imp_right Prod.mk.inj
    rw [dif_neg hne]

/-- An idle source has no body. -/
theorem body_idle (hkind : ctx.stream_kind = .STREAM_NONE) : body fs ctx s = [] := by
  have hlast : stream_next_chunk fs HTTP_SEND_BUFFER_SIZE ctx s = ([], ctx, s) := by
    rw [stream_next_chunk, if_neg (by decide), hkind]
  exact body_last hlast

end

/-- Behind the head comes the body, of which there is none when the source is idle. -/
theorem whole_response_eq (document_root : List u8) (fs : FileSystem σ) (req : http_request_t)
    (s : σ) :
    whole_response document_root fs req s
      = (serve_http_request document_root fs initial_stream req HTTP_SEND_BUFFER_SIZE s).out
        ++ body fs
          (serve_http_request document_root fs initial_stream req HTTP_SEND_BUFFER_SIZE s).ctx
          (serve_http_request document_root fs initial_stream req HTTP_SEND_BUFFER_SIZE
            s).fs_state := by
  have hwell := serve_http_request_wellFormed document_root fs initial_stream req s
  rw [whole_response]
  generalize serve_http_request document_root fs initial_stream req HTTP_SEND_BUFFER_SIZE s = r
    at hwell
  rcases hwell.rc_kind with ⟨hzero, hnone⟩ | ⟨hone, -⟩
  · rw [if_neg (by omega), body_idle hnone, List.append_nil]
  · rw [if_pos hone]

/-! ## The Win9x loop over any network -/

/-- What has gone out of `text` when the wire was `w` before: a beginning of it. -/
def SentOf (text w : List u8) (t : τ × List u8) : Prop := ∃ p, p <+: text ∧ t.2 = w ++ p

theorem sentOf_nothing (text : List u8) (t : τ) (w : List u8) : SentOf text w (t, w) :=
  ⟨[], List.nil_prefix, (List.append_nil w).symm⟩

/-- What was sent whole, and a beginning of what comes behind it. -/
theorem SentOf.behind {text rest w : List u8} {t : τ × List u8} (h : SentOf rest (w ++ text) t) :
    SentOf (text ++ rest) w t := by
  obtain ⟨p, hp, ht⟩ := h
  exact ⟨text ++ p, List.prefix_append_right_inj text |>.mpr hp, by rw [ht, List.append_assoc]⟩

theorem SentOf.front {text w : List u8} {t : τ × List u8} (h : SentOf text w t) (rest : List u8) :
    SentOf (text ++ rest) w t := by
  obtain ⟨p, hp, ht⟩ := h
  exact ⟨p, hp.trans (List.prefix_append text rest), ht⟩

/-- `send_all` puts a beginning of the buffer on the wire, all of it when it returns 0. -/
theorem send_all_loop_sent (net : Sockets τ) (sock : SOCKET) (buf : List u8) (sent : ℕ) (t : τ)
    (w : List u8) (hsent : sent ≤ buf.length) :
    ∃ rc t', send_all_loop net.recorded sock buf sent (t, w) = (rc, t')
      ∧ SentOf (buf.drop sent) w t' ∧ (rc = 0 → t'.2 = w ++ buf.drop sent) := by
  induction hk : buf.length - sent using Nat.strongRecOn generalizing sent t w with
  | ind k ih =>
      rw [send_all_loop]
      by_cases hlt : sent < buf.length
      · rw [dif_pos hlt]
        rcases hsend : net.send t sock (buf.drop sent) with ⟨_ | n, t1⟩
        · -- `SOCKET_ERROR`
          have hrec : net.recorded.send (t, w) sock (buf.drop sent) = (none, (t1, w)) := by
            simp only [Sockets.recorded, hsend, Option.getD_none, List.take_zero, List.append_nil]
          rw [hrec]
          exact ⟨-1, (t1, w), rfl, sentOf_nothing _ _ _, fun h => absurd h (by decide)⟩
        · -- `n` bytes are taken, from where the last call stopped
          have hle : n ≤ buf.length - sent := by
            rw [← List.length_drop]
            exact net.send_le (congrArg Prod.fst hsend)
          have hrec : net.recorded.send (t, w) sock (buf.drop sent)
              = (some n, (t1, w ++ (buf.drop sent).take n)) := by
            simp only [Sockets.recorded, hsend, Option.getD_some]
          rw [hrec]
          dsimp only
          by_cases hn : n = 0
          · -- a call that takes nothing ends the loop as well
            rw [dif_pos hn, hn, List.take_zero, List.append_nil]
            exact ⟨-1, (t1, w), rfl, sentOf_nothing _ _ _, fun h => absurd h (by decide)⟩
          · rw [dif_neg hn]
            obtain ⟨rc, t', heq, hpart, hall⟩ := ih (buf.length - (sent + n)) (by omega) (sent + n)
              t1 (w ++ (buf.drop sent).take n) (by omega) rfl
            have hcut : (buf.drop sent).take n ++ buf.drop (sent + n) = buf.drop sent := by
              rw [← List.drop_drop, List.take_append_drop]
            refine ⟨rc, t', heq, ?_, fun h => ?_⟩
            · rw [← hcut]
              exact hpart.behind
            · rw [hall h, List.append_assoc, hcut]
      · -- all of it has been sent
        rw [dif_neg hlt, List.drop_eq_nil_of_le (by omega)]
        exact ⟨0, (t, w), rfl, sentOf_nothing _ _ _, fun _ => (List.append_nil w).symm⟩

theorem send_all_sent (net : Sockets τ) (sock : SOCKET) (buf : List u8) (t : τ) (w : List u8) :
    ∃ rc t', send_all net.recorded sock buf (t, w) = (rc, t') ∧ SentOf buf w t'
      ∧ (rc = 0 → t'.2 = w ++ buf) :=
  send_all_loop_sent net sock buf 0 t w (Nat.zero_le _)

/-- **The loop sends a beginning of the body**, whatever the network does, and all of it when
the network takes what it is given. -/
theorem stream_loop_sent (fs : FileSystem σ) (net : Sockets τ) (sock : SOCKET) :
    ∀ (ctx : stream_state_t) (s : σ) (t : τ) (w : List u8),
      ∃ ctx' s' t', stream_loop fs net.recorded sock ctx s (t, w) = (ctx', s', t')
        ∧ SentOf (body fs ctx s) w t' ∧ (Accepts net → t'.2 = w ++ body fs ctx s) := by
  refine stream_induction fs ?_
  intro ctx s ih t w
  rcases hnext : stream_next_chunk fs HTTP_SEND_BUFFER_SIZE ctx s with ⟨chunk, ctx1, s1⟩
  by_cases hne : chunk = []
  · subst hne
    refine ⟨ctx1, s1, (t, w), stream_loop_last hnext sock _, sentOf_nothing _ _ _, fun _ => ?_⟩
    rw [body_last hnext, List.append_nil]
  · rw [body_chunk hnext hne]
    obtain ⟨rc, t1, hsend, hpart, hall⟩ := send_all_sent net sock chunk t w
    by_cases hrc : rc = 0
    · obtain ⟨ctx', s', t', hloop, hrest, hwhole⟩ := ih chunk ctx1 s1 hnext hne t1.1 t1.2
      rw [hall hrc] at hrest hwhole
      refine ⟨ctx', s', t', ?_, hrest.behind, fun hnet => ?_⟩
      · rw [stream_loop_chunk hnext hne (hrc ▸ hsend), hloop]
      · rw [hwhole hnet, List.append_assoc]
    · refine ⟨ctx1, s1, t1, stream_loop_broken hnext hne hsend hrc, hpart.front _, fun hnet => ?_⟩
      obtain ⟨t2, hsend2⟩ := send_all_recorded hnet sock chunk t w
      rw [hsend] at hsend2
      exact absurd (Prod.mk.inj hsend2).1 hrc

theorem answer_request_sent (document_root : List u8) (fs : FileSystem σ) (net : Sockets τ)
    (ctx : client_context_t) (hstream : ctx.stream = initial_stream) (req : http_request_t) (s : σ)
    (t : τ) (w : List u8) :
    ∃ ctx' s' t', answer_request document_root fs net.recorded ctx req s (t, w) = (ctx', s', t')
      ∧ SentOf (whole_response document_root fs req s) w t'
      ∧ (Accepts net → t'.2 = w ++ whole_response document_root fs req s) := by
  have hwell := serve_http_request_wellFormed document_root fs initial_stream req s
  rw [answer_request, hstream, whole_response_eq]
  generalize serve_http_request document_root fs initial_stream req HTTP_SEND_BUFFER_SIZE s = r
    at hwell
  have hrc : ¬ r.rc < 0 := by
    rcases hwell.rc_kind with ⟨h, -⟩ | ⟨h, -⟩ <;> omega
  obtain ⟨rc, t1, hsend, hpart, hall⟩ := send_all_sent net ctx.client_socket r.out t w
  dsimp only
  rw [if_neg hrc, hsend]
  dsimp only
  by_cases hbody : rc = 0 ∧ r.rc = 1
  · rw [if_pos hbody]
    obtain ⟨ctx', s', t', hloop, hrest, hwhole⟩ :=
      stream_loop_sent fs net ctx.client_socket r.ctx r.fs_state t1.1 t1.2
    rw [hloop]
    rw [hall hbody.1] at hrest hwhole
    refine ⟨_, _, t', rfl, hrest.behind, fun hnet => ?_⟩
    rw [hwhole hnet, List.append_assoc]
  · rw [if_neg hbody]
    refine ⟨_, _, t1, rfl, hpart.front _, fun hnet => ?_⟩
    -- nothing is left out: the head went out whole, and there is no body
    obtain ⟨t2, hsend2⟩ := send_all_recorded hnet ctx.client_socket r.out t w
    rw [hsend] at hsend2
    have hzero : rc = 0 := (Prod.mk.inj hsend2).1
    have hidle : r.ctx.stream_kind = .STREAM_NONE := by
      rcases hwell.rc_kind with ⟨-, h⟩ | ⟨h, -⟩
      · exact h
      · exact absurd ⟨hzero, h⟩ hbody
    rw [body_idle hidle, List.append_nil, hall hzero]

/-- **What a Win9x client gets**: a beginning of the one response, and all of it unless a send
fails. -/
theorem win9x_sends (document_root : List u8) (fs : FileSystem σ) (net : Sockets τ) (n : ℕ)
    (results : List (Option (List u8))) (payload : List u8) (indeterminate : u32)
    (req : http_request_t)
    (hrecv : win9x_handed (create_client_context (.of n)) results = some payload)
    (hparse : parse_http_request payload indeterminate = some req) (s : σ) (t : τ) :
    ∃ s1 t1 wire, handle_client_win9x document_root fs net.recorded
        (create_client_context (.of n)) results indeterminate s (t, []) = some (s1, (t1, wire))
      ∧ wire <+: whole_response document_root fs req s
      ∧ (Accepts net → wire = whole_response document_root fs req s) := by
  rw [win9x_handed, Option.map_eq_some_iff] at hrecv
  obtain ⟨⟨ctx, left⟩, hctx, hhanded⟩ := hrecv
  dsimp only at hhanded
  obtain ⟨-, -, hstream⟩ := receive_request_received hctx
  obtain ⟨ctx1, s1, ⟨t1, wire⟩, hanswer, ⟨p, hp, hwire⟩, hwhole⟩ :=
    answer_request_sent document_root fs net ctx hstream req s t []
  obtain ⟨t2, hdestroy⟩ := destroy_recorded fs net ctx1 s1 t1 wire
  refine ⟨(stream_close fs ctx1.stream s1).2, t2, wire, ?_, ?_, fun hnet => ?_⟩
  · rw [handle_client_win9x, process_client_request, hctx]
    simp only [Option.bind_eq_bind, Option.bind_some, hhanded, hparse, hanswer, hdestroy]
  · have hw : wire = p := hwire.trans (List.nil_append p)
    exact hw ▸ hp
  · exact (hwhole hnet).trans (List.nil_append _)

/-! ## The NT completions over any network -/

/-- A posted send is on the wire whole, or not at all. -/
theorem post_send_sent (net : Sockets τ) (ctx : client_context_t) (data : List u8) (t : τ)
    (w : List u8) :
    ∃ rc ctx' t', post_send net.recorded ctx data (t, w) = (rc, ctx', t')
      ∧ ctx'.stream = ctx.stream ∧ (rc = 0 ∧ t'.2 = w ++ data ∨ rc ≠ 0 ∧ t'.2 = w) := by
  have hcopied : (write_at ctx.send_buffer 0 data).take data.length = data := by
    rw [write_at, List.take_zero, List.nil_append, List.take_left']
    rfl
  rw [post_send]
  split_ifs with hguard
  · exact ⟨-1, ctx, (t, w), rfl, rfl, Or.inr ⟨by decide, rfl⟩⟩
  · dsimp only
    rw [hcopied]
    rcases hsend : net.WSASend t ctx.client_socket data with ⟨started, t1⟩
    simp only [Sockets.recorded, hsend]
    cases started with
    | true => exact ⟨_, _, _, rfl, rfl, Or.inl ⟨rfl, rfl⟩⟩
    | false => exact ⟨_, _, _, rfl, rfl, Or.inr ⟨by decide, rfl⟩⟩

/-- The wire after some completions. -/
def wire_of (r : Option client_context_t × σ × τ × List u8) : List u8 := r.2.2.2

/-- One completion sends the next chunk, or nothing and frees the context. -/
theorem handle_send_sent (fs : FileSystem σ) (net : Sockets τ) (ctx : client_context_t) (s : σ)
    (t : τ) (w : List u8) :
    (∃ s' t', handle_send_completion fs net.recorded ctx s (t, w) = (none, s', (t', w)))
      ∨ ∃ chunk ctx' s' t', handle_send_completion fs net.recorded ctx s (t, w)
          = (some ctx', s', (t', w ++ chunk))
        ∧ body fs ctx.stream s = chunk ++ body fs ctx'.stream s' := by
  rw [handle_send_completion]
  by_cases hkind : ctx.stream.stream_kind ≠ .STREAM_NONE
  · rw [if_pos hkind]
    rcases hnext : stream_next_chunk fs HTTP_SEND_BUFFER_SIZE ctx.stream s
      with ⟨chunk, stream1, s1⟩
    dsimp only
    by_cases hpos : chunk.length > 0
    · rw [if_pos hpos]
      obtain ⟨rc, ctx', ⟨t', w'⟩, hpost, hstream, hwire⟩ :=
        post_send_sent net { ctx with stream := stream1 } chunk t w
      rw [hpost]
      dsimp only
      rcases hwire with ⟨hrc, hw⟩ | ⟨hrc, hw⟩
      · rw [if_pos (by simpa using hrc)]
        refine Or.inr ⟨chunk, ctx', s1, t', by rw [← hw], ?_⟩
        rw [body_chunk hnext (List.length_pos_iff.mp hpos), hstream]
      · rw [if_neg (by simpa using hrc)]
        obtain ⟨t2, hdestroy⟩ := destroy_closed_recorded fs net ctx' ctx'.stream s1 t' w'
        exact Or.inl ⟨_, t2, by rw [hdestroy, ← hw]⟩
    · rw [if_neg hpos, if_neg (by simp)]
      obtain ⟨t2, hdestroy⟩ :=
        destroy_closed_recorded fs net { ctx with stream := stream1 } stream1 s1 t w
      exact Or.inl ⟨_, t2, by rw [hdestroy]⟩
  · rw [if_neg hkind]
    obtain ⟨t2, hdestroy⟩ := destroy_recorded fs net ctx s t w
    exact Or.inl ⟨_, t2, by rw [hdestroy]⟩

/-- **Any number of completions sends a beginning of the body.** -/
theorem send_completions_sent (fs : FileSystem σ) (net : Sockets τ) (k : ℕ) :
    ∀ (ctx : client_context_t) (s : σ) (t : τ) (w : List u8),
      SentOf (body fs ctx.stream s) w
        (send_completions fs net.recorded k (some ctx, s, (t, w))).2.2 := by
  induction k with
  | zero => exact fun ctx s t w => sentOf_nothing _ _ _
  | succ k ih =>
      intro ctx s t w
      rw [send_completions]
      rcases handle_send_sent fs net ctx s t w with ⟨s', t', h⟩ | ⟨chunk, ctx', s', t', h, hbody⟩
      · rw [h]
        cases k with
        | zero => exact sentOf_nothing _ _ _
        | succ k => exact sentOf_nothing _ _ _
      · rw [h, hbody]
        exact (ih ctx' s' t' (w ++ chunk)).behind

/-- The wire while a response is under way: `respond` and some completions. -/
theorem respond_sent (document_root : List u8) (fs : FileSystem σ) (net : Sockets τ)
    (ctx : client_context_t) (hstream : ctx.stream = initial_stream) (req : http_request_t) (s : σ)
    (t : τ) (w : List u8) (k : ℕ) :
    SentOf (whole_response document_root fs req s) w
      (send_completions fs net.recorded k
        (respond document_root fs net.recorded ctx req s (t, w))).2.2 := by
  have hwell := serve_http_request_wellFormed document_root fs initial_stream req s
  rw [respond, hstream, whole_response_eq]
  generalize serve_http_request document_root fs initial_stream req HTTP_SEND_BUFFER_SIZE s = r
    at hwell
  have hrc : ¬ r.rc < 0 := by
    rcases hwell.rc_kind with ⟨h, -⟩ | ⟨h, -⟩ <;> omega
  dsimp only
  rw [if_neg hrc]
  dsimp only
  obtain ⟨rc, ctx', ⟨t', w'⟩, hpost, hstream', hwire⟩ :=
    post_send_sent net { ctx with stream := r.ctx } r.out t w
  rw [hpost]
  dsimp only
  rcases hwire with ⟨hzero, hw⟩ | ⟨hne, hw⟩
  · rw [if_neg (not_not.mpr hzero)]
    have hrest := send_completions_sent fs net k ctx' r.fs_state t' w'
    rw [hstream'] at hrest
    dsimp only at hw hrest
    rw [hw] at hrest ⊢
    exact hrest.behind
  · rw [if_pos hne]
    obtain ⟨t2, hdestroy⟩ := destroy_recorded fs net ctx' r.fs_state t' w'
    rw [hdestroy]
    dsimp only at hw
    rw [hw]
    cases k with
    | zero => exact sentOf_nothing _ _ _
    | succ k => exact sentOf_nothing _ _ _

/-- A request that parses is not empty. -/
theorem payload_length_pos {payload : List u8} {indeterminate : u32} {req : http_request_t}
    (hparse : parse_http_request payload indeterminate = some req) : 0 < payload.length := by
  obtain ⟨i, _, _, _, hi, -⟩ := parse_http_request_eq_some.mp hparse
  have hlt := (scanFrom_headIs_bounds (Nat.zero_le _) hi).2
  omega

theorem post_recv_wire (net : Sockets τ) (ctx : client_context_t) (t : τ) (w : List u8) :
    (post_recv net.recorded ctx (t, w)).2.2.2 = w := by
  rw [post_recv]
  split_ifs <;> rfl

/-- **What an NT client gets**: after any number of completions a beginning of the one response,
and all of it, with the context freed, unless a send does not start. -/
theorem nt_sends (document_root : List u8) (fs : FileSystem σ) (net : Sockets τ) (n : ℕ)
    (payload : List u8) (hfits : payload.length ≤ wsabuf_len) (indeterminate : u32)
    (req : http_request_t) (hparse : parse_http_request payload indeterminate = some req) (s : σ)
    (t : τ) :
    let posted := post_recv net.recorded (create_client_context (.of n)) (t, [])
    let completed := recv_completed posted.2.1 payload
    ∃ r, handle_recv_completion document_root fs net.recorded completed.1 completed.2
        indeterminate s posted.2.2 = some r
      ∧ (∀ k, wire_of (send_completions fs net.recorded k r)
        <+: whole_response document_root fs req s)
      ∧ (Starts net → ∃ k, (send_completions fs net.recorded k r).1 = none
        ∧ wire_of (send_completions fs net.recorded k r)
          = whole_response document_root fs req s) := by
  dsimp only
  obtain ⟨hsock, hstream⟩ := post_recv_frame net.recorded (create_client_context (.of n)) (t, [])
  have hwire := post_recv_wire net (create_client_context (.of n)) t []
  generalize post_recv net.recorded (create_client_context (.of n)) (t, []) = posted
    at hsock hstream hwire
  obtain ⟨_, posted, t0, w0⟩ := posted
  dsimp only at hsock hstream hwire ⊢
  subst hwire
  -- what is handed to the parser is the payload, one segment
  have hhanded := handed_recv_completed posted payload hfits
  have hcount : (recv_completed posted payload).2 ≠ 0 := by
    have hpos := payload_length_pos hparse
    rw [recv_completed_count _ hfits]
    omega
  have hsock' : (recv_terminate (recv_completed posted payload).1
      (recv_completed posted payload).2).client_socket = .of n := hsock
  have hstream' : (recv_terminate (recv_completed posted payload).1
      (recv_completed posted payload).2).stream = initial_stream := hstream
  rw [handle_recv_completion, if_neg hcount]
  simp only [hhanded, hparse, Option.bind_eq_bind, Option.bind_some, Option.some.injEq]
  generalize recv_terminate (recv_completed posted payload).1 (recv_completed posted payload).2
    = ctx at hsock' hstream'
  refine ⟨_, rfl, fun k => ?_, fun hnet => ?_⟩
  · obtain ⟨p, hp, hpart⟩ := respond_sent document_root fs net ctx hstream' req s t0 [] k
    rw [wire_of, hpart, List.nil_append]
    exact hp
  · -- the Win9x thread over a network that takes everything sends the same
    obtain ⟨k, ctx1, s0, t1, s1, t2, t2', w1, hanswer, hdestroy, hcompl, -⟩ :=
      answer_request_simulated accepting_accepts hnet document_root fs
        (create_client_context (.of n)) ctx (by simp [create_client_context]) hsock' hstream' req s
        () t0 []
    obtain ⟨_, _, t3, hanswer', -, hwhole⟩ := answer_request_sent document_root fs .accepting
      (create_client_context (.of n)) rfl req s () []
    obtain ⟨t4, hdestroy'⟩ := destroy_recorded fs .accepting ctx1 s0 t1.1 t1.2
    rw [hanswer, Prod.mk.injEq, Prod.mk.injEq] at hanswer'
    have hw : w1 = t1.2 := congrArg (fun x => x.2.2) (hdestroy.symm.trans hdestroy')
    refine ⟨k + 1, congrArg Prod.fst hcompl, ?_⟩
    calc wire_of (send_completions fs net.recorded (k + 1) _)
        = w1 := congrArg wire_of hcompl
      _ = [] ++ whole_response document_root fs req s := by
        rw [hw, hanswer'.2.2, hwhole accepting_accepts]
      _ = whole_response document_root fs req s := List.nil_append _

/-! ## A connection that breaks -/

/-- A network that breaks after a number of bytes, its state; `send` takes three at a time. -/
def breaking : Sockets ℕ where
  send t _ buf :=
    if t = 0 then (none, 0) else (some (min (min 3 t) buf.length), t - min (min 3 t) buf.length)
  WSASend t _ buf := (decide (buf.length ≤ t), t - buf.length)
  WSARecv t _ _ := (true, t)
  closesocket t _ := t
  send_le := by
    intro t sock buf k h
    split_ifs at h
    rw [← Option.some.inj h]
    exact min_le_right _ _

/-- Both back ends answer with beginnings of the one response to `req`, each over a network of
its own. -/
structure Answered (document_root : List u8) (fs : FileSystem σ) (net : Sockets τ)
    (net' : Sockets τ') (sock : SOCKET) (results : List (Option (List u8))) (payload : List u8)
    (indeterminate : u32) (req : http_request_t) (s : σ) (t : τ) (t' : τ') : Prop where
  win9x : ∃ s1 t1 wire, handle_client_win9x document_root fs net.recorded
      (create_client_context sock) results indeterminate s (t, []) = some (s1, (t1, wire))
    ∧ wire <+: whole_response document_root fs req s
    ∧ (Accepts net → wire = whole_response document_root fs req s)
  nt : ∃ posted completed r,
    posted = post_recv net'.recorded (create_client_context sock) (t', [])
    ∧ completed = recv_completed posted.2.1 payload
    ∧ handle_recv_completion document_root fs net'.recorded completed.1 completed.2
      indeterminate s posted.2.2 = some r
    ∧ (∀ k, wire_of (send_completions fs net'.recorded k r)
      <+: whole_response document_root fs req s)
    ∧ (Starts net' → ∃ k, (send_completions fs net'.recorded k r).1 = none
      ∧ wire_of (send_completions fs net'.recorded k r) = whole_response document_root fs req s)

/-- **One response.** What goes out for a request is a beginning of the same text on both back
ends, wherever the connections break; and all of it where they do not. The request is the same
`payload`: what the Win9x loop puts together from what it receives, and one segment on NT. -/
theorem one_response (document_root : List u8) (fs : FileSystem σ) (net : Sockets τ)
    (net' : Sockets τ') (n : ℕ) (results : List (Option (List u8))) (payload : List u8)
    (indeterminate : u32) (req : http_request_t)
    (hrecv : win9x_handed (create_client_context (.of n)) results = some payload)
    (hparse : parse_http_request payload indeterminate = some req) (s : σ) (t : τ) (t' : τ') :
    Answered document_root fs net net' (.of n) results payload indeterminate req s t t' where
  win9x := win9x_sends document_root fs net n results payload indeterminate req hrecv hparse s t
  nt := by
    have hfits : payload.length ≤ wsabuf_len := by
      rw [win9x_handed, Option.map_eq_some_iff] at hrecv
      obtain ⟨⟨ctx, left⟩, hctx, rfl⟩ := hrecv
      exact (receive_request_received hctx).1
    obtain ⟨r, hr⟩ := nt_sends document_root fs net' n payload hfits indeterminate req hparse s t'
    exact ⟨_, _, r, rfl, rfl, hr⟩

/-- The listing of `sample_tree`, over connections that break after 100 and after 300 bytes. -/
theorem one_response_breaking :
    Answered (ascii "C:\\www") (disk sample_tree) breaking breaking (.of 1)
      [some (ascii "GET /d/ HTTP/1.0\r\nA: b\r\n\r\n")] (ascii "GET /d/ HTTP/1.0\r\nA: b\r\n\r\n") 0
      ⟨1, ⟨18, 22⟩, ⟨4, 7⟩, ascii "GET /d/ HTTP/1.0\r\nA: b\r\n\r\n"⟩ [] 100 300 :=
  one_response (ascii "C:\\www") (disk sample_tree) breaking breaking 1 _ _ 0 _
    (win9x_handed_eq (.of 1) [ascii "GET /d/ HTTP/1.0\r\nA: b\r\n\r\n"] (by decide) (by decide))
    (by decide) [] 100 300

end W32HttpServer.WholeResponse

/-
One client of the Win9x back end: `process_client_request`, its receive loop and
`send_all`.

What `recv` returns is the environment's: a list with one result for each call, `none` a
`SOCKET_ERROR`, `some []` an orderly close, and otherwise the bytes that had arrived, of
which a call takes no more than it asked for. The loop is over that list; when it runs out the
thread is still waiting in `recv`, and the result is `none`.

The loop ends a request by the last four bytes received, so whether it stops depends on
where the results end (`receive_request_eq`). It keeps a cursor into `recv_buffer` beside
`bytes_received`; `Received` says how the two and the buffer hang together.
-/
import W32HttpServer.Common
import W32HttpServer.HttpRequest
import W32HttpServer.HttpResponse
import W32HttpServer.Platform
import W32HttpServer.Context
import W32HttpServer.DirStream
import W32HttpServer.Serve

set_option autoImplicit false

namespace W32HttpServer.Win9xClient

open W32HttpServer.Common W32HttpServer.HttpRequest W32HttpServer.HttpResponse
open W32HttpServer.Platform W32HttpServer.Context W32HttpServer.DirStream W32HttpServer.Serve

variable {σ τ : Type}

/-! ## Receiving -/

/-- `sizeof(ctx->recv_buffer) - (cursor - (u8*)ctx->recv_buffer) - 1`. -/
def recv_size (cursor : ℕ) : ℕ := sub_u32 (sub_u32 RECV_BUFFER_SIZE cursor) 1

/-- The receive loop: where it stops, with what in the context, and the results it left. -/
def recv_loop (cursor : ℕ) (ctx : client_context_t) :
    List (Option (List u8)) → Option (ℕ × client_context_t × List (Option (List u8)))
  | [] => none
  | none :: results => some (cursor, ctx, results)
  | some bytes :: results =>
      let bytes := bytes.take (recv_size cursor)
      -- an orderly close, or no room left: `recv` returns 0 for both
      if bytes = [] then some (cursor, ctx, results)
      else
        let ctx := { ctx with
          recv_buffer := write_at ctx.recv_buffer cursor bytes
          bytes_received := ctx.bytes_received + bytes.length }
        let cursor := cursor + bytes.length
        -- the last four bytes received, not the first terminator among them
        if ctx.bytes_received ≥ 4 ∧ slice ctx.recv_buffer (cursor - 4) cursor = crlfcrlf then
          some (cursor, ctx, results)
        else if ctx.bytes_received ≥ RECV_BUFFER_SIZE - 1 then some (cursor, ctx, results)
        else recv_loop cursor ctx results

/-- The part of `process_client_request` in front of the parser. -/
def receive_request (ctx : client_context_t) (results : List (Option (List u8))) :
    Option (client_context_t × List (Option (List u8))) :=
  match recv_loop 0 ctx results with
  | none => none
  | some (cursor, ctx, results) =>
      -- `*cursor = 0`
      some ({ ctx with recv_buffer := ctx.recv_buffer.set cursor 0 }, results)

/-- The bytes the Win9x path hands to the parser. -/
def win9x_handed (ctx : client_context_t) (results : List (Option (List u8))) :
    Option (List u8) :=
  (receive_request ctx results).map (fun r => handed r.1)

/-! ## Sending -/

/-- The loop of `send_all`, with `sent` bytes out. -/
def send_all_loop (net : Sockets τ) (sock : SOCKET) (buf : List u8) (sent : ℕ) (t : τ) : ℤ × τ :=
  if _h : sent < buf.length then
    match net.send t sock (buf.drop sent) with
    | (none, t) => (-1, t)
    | (some n, t) => if _hn : n = 0 then (-1, t) else send_all_loop net sock buf (sent + n) t
  else (0, t)
termination_by buf.length - sent

def send_all (net : Sockets τ) (sock : SOCKET) (buf : List u8) (t : τ) : ℤ × τ :=
  send_all_loop net sock buf 0 t

/-- `while ((n = stream_next_chunk(...)) > 0)`: pull a chunk and send it. -/
def stream_loop (fs : FileSystem σ) (net : Sockets τ) (sock : SOCKET) (ctx : stream_state_t)
    (s : σ) (t : τ) : stream_state_t × σ × τ :=
  match _hnext : stream_next_chunk fs HTTP_SEND_BUFFER_SIZE ctx s with
  | (chunk, ctx', s') =>
      if _hchunk : chunk = [] then (ctx', s', t)
      else
        match send_all net sock chunk t with
        | (rc, t) => if rc ≠ 0 then (ctx', s', t) else stream_loop fs net sock ctx' s' t
termination_by stream_ahead fs ctx s
decreasing_by
  obtain ⟨_, _, _, heq, -, -, hlt⟩ :=
    stream_next_chunk_progress fs HTTP_SEND_BUFFER_SIZE (by decide) (by decide) ctx s
  rw [_hnext] at heq
  obtain ⟨rfl, rfl, rfl⟩ := Prod.mk.inj heq |>.imp_right Prod.mk.inj
  exact hlt _hchunk

/-- The part of `process_client_request` behind the parser. -/
def answer_request (document_root : List u8) (fs : FileSystem σ) (net : Sockets τ)
    (ctx : client_context_t) (req : http_request_t) (s : σ) (t : τ) :
    client_context_t × σ × τ :=
  let r := serve_http_request document_root fs ctx.stream req HTTP_SEND_BUFFER_SIZE s
  if r.rc < 0 then
    -- this branch leaves the stream to `destroy_client_context`
    let head := (build_http_error_response 500 (ascii "Internal Server Error")
      HTTP_SEND_BUFFER_SIZE).getD []
    ({ ctx with stream := r.ctx }, r.fs_state, (send_all net ctx.client_socket head t).2)
  else
    let (rc, t) := send_all net ctx.client_socket r.out t
    let (stream, s, t) :=
      if rc = 0 ∧ r.rc = 1 then stream_loop fs net ctx.client_socket r.ctx r.fs_state t
      else (r.ctx, r.fs_state, t)
    let (stream, s) := stream_close fs stream s
    ({ ctx with stream := stream }, s, t)

/-- `none` also stands for a scan of the parser that leaves the request. -/
def process_client_request (document_root : List u8) (fs : FileSystem σ) (net : Sockets τ)
    (ctx : client_context_t) (results : List (Option (List u8))) (indeterminate : u32) (s : σ)
    (t : τ) : Option (client_context_t × σ × τ) := do
  let (ctx, _) ← receive_request ctx results
  let req ← parse_http_request (handed ctx) indeterminate
  some (answer_request document_root fs net ctx req s t)

def handle_client_win9x (document_root : List u8) (fs : FileSystem σ) (net : Sockets τ)
    (ctx : client_context_t) (results : List (Option (List u8))) (indeterminate : u32) (s : σ)
    (t : τ) : Option (σ × τ) := do
  let (ctx, s, t) ← process_client_request document_root fs net ctx results indeterminate s t
  some (destroy_client_context fs net ctx s t)

/-! ## The receive loop, in terms of the bytes -/

/-- The context has received `got` and nothing else. -/
structure Received (got : List u8) (ctx : client_context_t) : Prop where
  size : ctx.recv_buffer.length = RECV_BUFFER_SIZE
  count : ctx.bytes_received = got.length
  fits : got.length ≤ RECV_BUFFER_SIZE - 1
  bytes : got <+: ctx.recv_buffer

theorem received_nothing (sock : SOCKET) : Received [] (create_client_context sock) :=
  ⟨List.length_replicate, rfl, Nat.zero_le _, List.nil_prefix⟩

theorem recv_size_eq {cursor : ℕ} (h : cursor ≤ RECV_BUFFER_SIZE - 1) :
    recv_size cursor = RECV_BUFFER_SIZE - 1 - cursor := by
  have hsize : RECV_BUFFER_SIZE = 4096 := rfl
  rw [recv_size, sub_u32_of_le (a := RECV_BUFFER_SIZE) (by omega) (by decide),
    sub_u32_of_le (by omega) (by omega)]
  omega

/-- What one `recv` adds. -/
theorem received_more {got : List u8} {ctx : client_context_t} (h : Received got ctx)
    {bytes : List u8} (hfits : (got ++ bytes).length ≤ RECV_BUFFER_SIZE - 1) :
    Received (got ++ bytes) { ctx with
      recv_buffer := write_at ctx.recv_buffer got.length bytes
      bytes_received := ctx.bytes_received + bytes.length } where
  size := by
    have hsize := h.size
    rw [List.length_append] at hfits
    exact (write_at_length (by omega)).trans hsize
  count := by
    have hcount := h.count
    simp only [List.length_append]
    omega
  fits := hfits
  bytes := by
    dsimp only
    rw [write_at_eq h.bytes]
    apply List.prefix_append

/-- The test on the last four bytes reads the end of what was received. -/
theorem terminator_test {got : List u8} {ctx : client_context_t} (h : Received got ctx) :
    (ctx.bytes_received ≥ 4 ∧ slice ctx.recv_buffer (got.length - 4) got.length = crlfcrlf)
      ↔ crlfcrlf <:+ got := by
  have hlen : crlfcrlf.length = 4 := by decide
  have hslice : slice ctx.recv_buffer (got.length - 4) got.length = got.drop (got.length - 4) := by
    rw [slice, ← List.drop_take, ← List.prefix_iff_eq_take.mp h.bytes]
  rw [hslice, List.suffix_iff_eq_drop, hlen, h.count, eq_comm]
  constructor
  · exact fun hd => hd.2
  · intro hd
    refine ⟨?_, hd⟩
    have hd' := congrArg List.length hd
    rw [hlen, List.length_drop] at hd'
    omega

/-- **The loop keeps to its buffer**, whatever `recv` returns. -/
theorem recv_loop_received (results : List (Option (List u8))) : ∀ {got : List u8}
    {ctx ctx' : client_context_t} {cursor : ℕ} {left : List (Option (List u8))},
    Received got ctx → recv_loop got.length ctx results = some (cursor, ctx', left) →
      ∃ got', cursor = got'.length ∧ Received got' ctx'
        ∧ ctx'.client_socket = ctx.client_socket ∧ ctx'.stream = ctx.stream := by
  induction results with
  | nil =>
      intro got ctx ctx' cursor left _ h
      exact absurd h (by simp [recv_loop])
  | cons result results ih =>
      intro got ctx ctx' cursor left hrec h
      -- wherever the loop is left, it is with what has been received so far
      have hstop : ∀ {got1 : List u8} {ctx1 : client_context_t}, Received got1 ctx1 →
          ctx1.client_socket = ctx.client_socket → ctx1.stream = ctx.stream →
          some (got1.length, ctx1, results) = some (cursor, ctx', left) →
          ∃ got', cursor = got'.length ∧ Received got' ctx'
            ∧ ctx'.client_socket = ctx.client_socket ∧ ctx'.stream = ctx.stream := by
        intro got1 ctx1 h1 hsock hstream heq
        rw [Option.some.injEq, Prod.mk.injEq, Prod.mk.injEq] at heq
        obtain ⟨rfl, rfl, -⟩ := heq
        exact ⟨got1, rfl, h1, hsock, hstream⟩
      cases result with
      | none => exact hstop hrec rfl rfl h
      | some bytes =>
          rw [recv_loop, recv_size_eq hrec.fits] at h
          dsimp only at h
          have hfits : (got ++ bytes.take (RECV_BUFFER_SIZE - 1 - got.length)).length
              ≤ RECV_BUFFER_SIZE - 1 := by
            have := hrec.fits
            rw [List.length_append, List.length_take]
            omega
          have hmore := received_more hrec hfits
          rw [← List.length_append] at h
          split_ifs at h with hempty hterm hfull
          · exact hstop hrec rfl rfl h
          · exact hstop hmore rfl rfl h
          · exact hstop hmore rfl rfl h
          · have hlater := ih hmore h
            exact hlater

theorem receive_request_received {sock : SOCKET} {results left : List (Option (List u8))}
    {ctx : client_context_t}
    (h : receive_request (create_client_context sock) results = some (ctx, left)) :
    (handed ctx).length ≤ RECV_BUFFER_SIZE - 1 ∧ ctx.client_socket = sock
      ∧ ctx.stream = initial_stream := by
  unfold receive_request at h
  split at h
  · exact absurd h (by simp)
  · next cursor ctx1 left1 hloop =>
      obtain ⟨got, -, hrec, hsock, hstream⟩ := recv_loop_received results (received_nothing sock) hloop
      rw [Option.some.injEq, Prod.mk.injEq] at h
      rw [← h.1]
      refine ⟨?_, hsock, hstream⟩
      have hfits := hrec.fits
      rw [handed, List.length_take]
      dsimp only
      rw [hrec.count]
      omega

/-- The loop on the bytes alone: what it has received when it stops, and the segments it
leaves. -/
def received (got : List u8) : List (List u8) → Option (List u8 × List (List u8))
  | [] => none
  | seg :: segs =>
      let got := got ++ seg.take (RECV_BUFFER_SIZE - 1 - got.length)
      if crlfcrlf <:+ got ∨ RECV_BUFFER_SIZE - 1 ≤ got.length then some (got, segs)
      else received got segs

theorem recv_loop_eq (segs : List (List u8)) : ∀ {got : List u8} {ctx : client_context_t},
    Received got ctx → got.length < RECV_BUFFER_SIZE - 1 → (∀ seg ∈ segs, seg ≠ []) →
      match received got segs with
      | none => recv_loop got.length ctx (segs.map some) = none
      | some (got', segs') => ∃ ctx', recv_loop got.length ctx (segs.map some)
          = some (got'.length, ctx', segs'.map some) ∧ Received got' ctx' := by
  induction segs with
  | nil =>
      intro got ctx _ _ _
      rfl
  | cons seg segs ih =>
      intro got ctx h hroom hsegs
      have hsize : RECV_BUFFER_SIZE = 4096 := rfl
      have hseg : seg ≠ [] := hsegs seg List.mem_cons_self
      -- there is room and something to receive, so this is no closed connection
      have hne : seg.take (RECV_BUFFER_SIZE - 1 - got.length) ≠ [] := by
        rw [ne_eq, List.take_eq_nil_iff, not_or]
        exact ⟨by omega, hseg⟩
      have hfits : (got ++ seg.take (RECV_BUFFER_SIZE - 1 - got.length)).length
          ≤ RECV_BUFFER_SIZE - 1 := by
        rw [List.length_append, List.length_take]
        omega
      have hmore := received_more h hfits
      have htest := terminator_test hmore
      rw [received, List.map_cons, recv_loop, recv_size_eq (by omega)]
      dsimp only
      rw [if_neg hne]
      set got1 := got ++ seg.take (RECV_BUFFER_SIZE - 1 - got.length) with hgot1
      have hcursor : got.length + (seg.take (RECV_BUFFER_SIZE - 1 - got.length)).length
          = got1.length := by rw [hgot1, List.length_append]
      have hcount := hmore.count
      dsimp only at htest hcount
      rw [hcursor]
      -- the look-back of the loop and the bound are the two tests of `received`
      by_cases hterm : crlfcrlf <:+ got1
      · rw [if_pos (Or.inl hterm), if_pos (htest.mpr hterm)]
        exact ⟨_, rfl, hmore⟩
      · rw [if_neg (fun hc => hterm (htest.mp hc))]
        by_cases hfull : RECV_BUFFER_SIZE - 1 ≤ got1.length
        · rw [if_pos (Or.inr hfull), if_pos (by rw [hcount]; exact hfull)]
          exact ⟨_, rfl, hmore⟩
        · rw [if_neg (not_or.mpr ⟨hterm, hfull⟩), if_neg (by rw [hcount]; exact hfull)]
          exact ih hmore (not_le.mp hfull) (fun seg' hseg' => hsegs seg' (List.mem_cons_of_mem _ hseg'))

/-- **The receive loop on a fresh context.** -/
theorem receive_request_eq (sock : SOCKET) {segs : List (List u8)} (hsegs : ∀ seg ∈ segs, seg ≠ []) :
    (receive_request (create_client_context sock) (segs.map some)).map
        (fun r => (handed r.1, r.2))
      = (received [] segs).map (fun r => (r.1, r.2.map some)) := by
  have hloop := recv_loop_eq segs (received_nothing sock) (by decide) hsegs
  rw [List.length_nil] at hloop
  unfold receive_request
  rcases hrec : received [] segs with _ | ⟨got, segs'⟩
  · rw [hrec] at hloop
    dsimp only at hloop
    rw [hloop]
    rfl
  · rw [hrec] at hloop
    obtain ⟨ctx', heq, hgot⟩ := hloop
    rw [heq]
    simp only [Option.map_some, Option.some.injEq, Prod.mk.injEq, and_true, handed, hgot.count]
    rw [List.take_set_of_le (le_refl _), ← List.prefix_iff_eq_take.mp hgot.bytes]

theorem win9x_handed_eq (sock : SOCKET) (segs : List (List u8)) (hsegs : ∀ seg ∈ segs, seg ≠ [])
    {payload : List u8} (h : (received [] segs).map Prod.fst = some payload) :
    win9x_handed (create_client_context sock) (segs.map some) = some payload := by
  have heq := congrArg (Option.map Prod.fst) (receive_request_eq sock hsegs)
  rw [Option.map_map, Option.map_map] at heq
  exact heq.trans h

/-! ## Cuts of one stream -/

/-- The first CR LF CR LF of the stream ends at or before the last byte of room. -/
def Terminated (stream : List u8) : Prop := crlfcrlf <:+: stream.take (RECV_BUFFER_SIZE - 1)

instance (stream : List u8) : Decidable (Terminated stream) := by
  unfold Terminated
  infer_instance

/-- The bytes that have arrived when the terminator is complete, and the segments that
have not. -/
def until_terminator (got : List u8) : List (List u8) → List u8 × List (List u8)
  | [] => (got, [])
  | seg :: segs =>
      if crlfcrlf <:+: got ++ seg then (got ++ seg, segs) else until_terminator (got ++ seg) segs

/-- The segment that completes the terminator ends with it, or fills the buffer. -/
def EndsRequest (arrived : List u8) : Prop :=
  crlfcrlf <:+ arrived ∨ RECV_BUFFER_SIZE - 1 ≤ arrived.length

instance (arrived : List u8) : Decidable (EndsRequest arrived) := by
  unfold EndsRequest
  infer_instance

theorem until_terminator_start (segs : List (List u8)) : ∀ got : List u8,
    (until_terminator got segs).1 <+: got ++ segs.flatten := by
  induction segs with
  | nil => intro got; simp [until_terminator]
  | cons seg segs ih =>
      intro got
      rw [until_terminator, List.flatten_cons, ← List.append_assoc]
      split_ifs
      · apply List.prefix_append
      · exact ih (got ++ seg)

theorem received_left (segs : List (List u8)) : ∀ {got got' : List u8} {segs' : List (List u8)},
    received got segs = some (got', segs') → segs'.length < segs.length := by
  induction segs with
  | nil =>
      intro got got' segs' h
      exact absurd h (by simp [received])
  | cons seg segs ih =>
      intro got got' segs' h
      rw [received] at h
      split_ifs at h with hstop
      · rw [Option.some.injEq, Prod.mk.injEq] at h
        rw [← h.2, List.length_cons]
        apply Nat.lt_succ_self
      · exact Nat.lt_succ_of_lt (ih h)

/-- The loop stops at the segment that completes the terminator exactly when that segment
ends with it or fills the buffer; otherwise it goes on to a later one, or waits. -/
theorem received_until (segs : List (List u8)) : ∀ {got : List u8}, ¬ crlfcrlf <:+: got →
    got.length < RECV_BUFFER_SIZE - 1 → Terminated (got ++ segs.flatten) → ∀ got' : List u8,
      (received got segs = some (got', (until_terminator got segs).2)
        ↔ EndsRequest (until_terminator got segs).1
          ∧ got' = (until_terminator got segs).1.take (RECV_BUFFER_SIZE - 1)) := by
  induction segs with
  | nil =>
      intro got hgot _ hterm
      rw [Terminated, List.flatten_nil, List.append_nil] at hterm
      -- no segment is left, and the terminator is still to come
      exact absurd (hterm.trans (List.take_prefix _ _).isInfix) hgot
  | cons seg segs ih =>
      intro got hgot hroom hterm got'
      have htake : got ++ seg.take (RECV_BUFFER_SIZE - 1 - got.length)
          = (got ++ seg).take (RECV_BUFFER_SIZE - 1) := by
        rw [List.take_append, List.take_of_length_le hroom.le]
      rw [received, until_terminator, htake]
      -- the segment completes the terminator, or the loop goes on
      by_cases hdone : crlfcrlf <:+: got ++ seg
      · rw [if_pos hdone]
        by_cases hfull : RECV_BUFFER_SIZE - 1 ≤ (got ++ seg).length
        · -- the buffer is full, and what it has no room for is gone
          have hlen : RECV_BUFFER_SIZE - 1 ≤ ((got ++ seg).take (RECV_BUFFER_SIZE - 1)).length := by
            rw [List.length_take]
            omega
          rw [if_pos (Or.inr hlen), Option.some.injEq, Prod.mk.injEq]
          exact ⟨fun h => ⟨Or.inr hfull, h.1.symm⟩, fun h => ⟨h.2.symm, rfl⟩⟩
        · rw [List.take_of_length_le (not_le.mp hfull).le]
          by_cases hends : crlfcrlf <:+ got ++ seg
          · rw [if_pos (Or.inl hends), Option.some.injEq, Prod.mk.injEq]
            exact ⟨fun h => ⟨Or.inl hends, h.1.symm⟩, fun h => ⟨h.2.symm, rfl⟩⟩
          · -- bytes behind the terminator hide it: the loop takes another segment
            rw [if_neg (not_or.mpr ⟨hends, hfull⟩)]
            constructor
            · intro h
              exact absurd (received_left segs h) (lt_irrefl _)
            · rintro ⟨h, -⟩
              exact absurd h (not_or.mpr ⟨hends, hfull⟩)
      · rw [if_neg hdone]
        rw [List.flatten_cons, ← List.append_assoc] at hterm
        have hroom' : (got ++ seg).length < RECV_BUFFER_SIZE - 1 := by
          by_contra hlong
          rw [Terminated, List.take_append_of_le_length (not_lt.mp hlong)] at hterm
          exact hdone (hterm.trans (List.take_prefix _ _).isInfix)
        have hnot : ¬ (crlfcrlf <:+ got ++ seg ∨ RECV_BUFFER_SIZE - 1 ≤ (got ++ seg).length) :=
          not_or.mpr ⟨fun h => hdone h.isInfix, not_le.mpr hroom'⟩
        rw [List.take_of_length_le hroom'.le, if_neg hnot]
        exact ih hdone hroom' hterm got'

/-- The loop takes the results up to the one that completes the terminator and no further,
and hands over `payload`. -/
def StopsAtTerminator (sock : SOCKET) (segs : List (List u8)) (payload : List u8) : Prop :=
  ∃ ctx, receive_request (create_client_context sock) (segs.map some)
      = some (ctx, (until_terminator [] segs).2.map some) ∧ handed ctx = payload

theorem stopsAtTerminator_iff (sock : SOCKET) {segs : List (List u8)}
    (hsegs : ∀ seg ∈ segs, seg ≠ []) (hterm : Terminated segs.flatten) (payload : List u8) :
    StopsAtTerminator sock segs payload
      ↔ EndsRequest (until_terminator [] segs).1
        ∧ payload = (until_terminator [] segs).1.take (RECV_BUFFER_SIZE - 1) := by
  have heq := receive_request_eq sock hsegs
  rw [← received_until segs (by decide) (by decide) hterm payload]
  constructor
  · rintro ⟨ctx, hctx, rfl⟩
    rw [hctx, Option.map_some, eq_comm, Option.map_eq_some_iff] at heq
    obtain ⟨⟨got, segs'⟩, hrec, hr⟩ := heq
    rw [Prod.mk.injEq, (List.map_injective_iff.mpr (Option.some_injective _)).eq_iff] at hr
    rw [hrec, ← hr.1, ← hr.2]
  · intro hrec
    rw [hrec, Option.map_some, Option.map_eq_some_iff] at heq
    obtain ⟨⟨ctx, left⟩, hctx, hr⟩ := heq
    rw [Prod.mk.injEq] at hr
    exact ⟨ctx, by rw [hctx, ← hr.2], hr.1⟩

/-- Both cuts stop at the terminator, and the slices parsed are determined and the same. -/
def CutIndependent (sock : SOCKET) (segs segs' : List (List u8)) : Prop :=
  ∃ payload payload' slices, StopsAtTerminator sock segs payload
    ∧ StopsAtTerminator sock segs' payload'
    ∧ (∀ x, (parse_http_request payload x).map http_request_t.slices = some slices)
    ∧ ∀ x, (parse_http_request payload' x).map http_request_t.slices = some slices

/-- A cut the loop and the parser can handle. -/
structure GoodCut (segs : List (List u8)) : Prop where
  ends : EndsRequest (until_terminator [] segs).1
  within : WithinRequest ((until_terminator [] segs).1.take (RECV_BUFFER_SIZE - 1))
  known : KnownMethod ((until_terminator [] segs).1.take (RECV_BUFFER_SIZE - 1))

/-- **When segmentation does not matter**: for each of the two cuts the segment that
completes the terminator ends with it or fills the buffer, and what was received up to
there is a request of a known method that the scans stay inside. -/
theorem cut_independent_iff (sock : SOCKET) (segs segs' : List (List u8))
    (hsegs : ∀ seg ∈ segs, seg ≠ []) (hsegs' : ∀ seg ∈ segs', seg ≠ [])
    (hstream : segs.flatten = segs'.flatten) (hterm : Terminated segs.flatten) :
    CutIndependent sock segs segs' ↔ GoodCut segs ∧ GoodCut segs' := by
  have hstops := stopsAtTerminator_iff sock hsegs hterm
  have hstops' := stopsAtTerminator_iff sock hsegs' (hstream ▸ hterm)
  constructor
  · rintro ⟨payload, payload', slices, h, h', hs, hs'⟩
    obtain ⟨hends, rfl⟩ := (hstops payload).mp h
    obtain ⟨hends', rfl⟩ := (hstops' payload').mp h'
    obtain ⟨hw, hk⟩ := (slices_determined_iff _).mp ⟨slices, hs⟩
    obtain ⟨hw', hk'⟩ := (slices_determined_iff _).mp ⟨slices, hs'⟩
    exact ⟨⟨hends, hw, hk⟩, hends', hw', hk'⟩
  · rintro ⟨h, h'⟩
    obtain ⟨slices, hs⟩ := (slices_determined_iff _).mpr ⟨h.within, h.known⟩
    obtain ⟨slices', hs'⟩ := (slices_determined_iff _).mpr ⟨h'.within, h'.known⟩
    -- both payloads are starts of the stream, so one is a start of the other
    have hp : (until_terminator [] segs).1.take (RECV_BUFFER_SIZE - 1) <+: segs.flatten :=
      (List.take_prefix _ _).trans (until_terminator_start segs [])
    have hp' : (until_terminator [] segs').1.take (RECV_BUFFER_SIZE - 1) <+: segs.flatten :=
      hstream ▸ (List.take_prefix _ _).trans (until_terminator_start segs' [])
    have hsame : slices = slices' := by
      rcases List.prefix_or_prefix_of_prefix hp hp' with hpre | hpre
      · exact Option.some.inj ((slices_eq_of_start hpre hs 0).symm.trans (hs' 0))
      · exact Option.some.inj ((hs 0).symm.trans (slices_eq_of_start hpre hs' 0))
    exact ⟨_, _, slices, (hstops _).mpr ⟨h.ends, rfl⟩, (hstops' _).mpr ⟨h'.ends, rfl⟩, hs,
      fun x => hsame ▸ hs' x⟩

/-- A request in one segment, and cut inside its terminator. -/
theorem cut_independent_sample :
    CutIndependent (.of 1) [ascii "GET /a HTTP/1.0\r\nA: b\r\n\r\n"]
        [ascii "GET /a HTTP/1.0\r\nA: b\r\n\r", ascii "\n"]
      ↔ GoodCut [ascii "GET /a HTTP/1.0\r\nA: b\r\n\r\n"]
        ∧ GoodCut [ascii "GET /a HTTP/1.0\r\nA: b\r\n\r", ascii "\n"] :=
  cut_independent_iff (.of 1) _ _ (by decide) (by decide) (by decide) (by decide)

/-- A body in the segment that completes the header: the loop does not see the terminator
and waits, while it stops when the body comes in a segment of its own. -/
theorem body_in_last_segment_waits :
    Terminated (ascii "PUT /a HTTP/1.0\r\nA: b\r\n\r\nbody")
      ∧ ¬ CutIndependent (.of 1) [ascii "PUT /a HTTP/1.0\r\nA: b\r\n\r\nbody"]
        [ascii "PUT /a HTTP/1.0\r\nA: b\r\n\r\n", ascii "body"] := by
  refine ⟨by decide, ?_⟩
  rintro ⟨payload, _, _, hstops, -⟩
  obtain ⟨hends, -⟩ := (stopsAtTerminator_iff (.of 1) (by decide) (by decide) payload).mp hstops
  exact absurd hends (by decide)

end W32HttpServer.Win9xClient

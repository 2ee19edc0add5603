/-
One client of the NT back end: the completion handlers and the calls that post the next
operation.

A handler gets the context its completion carries and gives it back, or not: `none` is a
context that `destroy_client_context` has freed. Between two completions everything the
next one needs is in the context.

A receive completes with the bytes that had arrived, up to the size `post_recv` asked for;
`recv_completed` is the context as the system leaves it. `handle_recv_completion` parses
these bytes and posts no second receive.
-/
import W32HttpServer.Common
import W32HttpServer.HttpRequest
import W32HttpServer.HttpResponse
import W32HttpServer.Platform
import W32HttpServer.Context
import W32HttpServer.Serve
import W32HttpServer.Win9xClient

set_option autoImplicit false

namespace W32HttpServer.NtHandlers

open W32HttpServer.Common W32HttpServer.HttpRequest W32HttpServer.HttpResponse
open W32HttpServer.Platform W32HttpServer.Context W32HttpServer.Serve W32HttpServer.Win9xClient

variable {σ τ : Type}

/-! ## Posting -/

/-- `wsabuf.len` of `post_recv`. -/
def wsabuf_len : ℕ := RECV_BUFFER_SIZE - 1

def post_recv (net : Sockets τ) (ctx : client_context_t) (t : τ) : ℤ × client_context_t × τ :=
  if ctx.client_socket = .INVALID_SOCKET then (-1, ctx, t)
  else
    let ctx := { ctx with operation := .OP_RECV }
    let (started, t) := net.WSARecv t ctx.client_socket wsabuf_len
    (if started then 0 else -1, ctx, t)

def post_send (net : Sockets τ) (ctx : client_context_t) (data : List u8) (t : τ) :
    ℤ × client_context_t × τ :=
  if ctx.client_socket = .INVALID_SOCKET ∨ data.length = 0
      ∨ data.length > HTTP_SEND_BUFFER_SIZE then (-1, ctx, t)
  else
    let ctx := { ctx with
      send_buffer := write_at ctx.send_buffer 0 data
      bytes_to_send := data.length
      operation := .OP_SEND }
    let (started, t) := net.WSASend t ctx.client_socket (ctx.send_buffer.take data.length)
    (if started then 0 else -1, ctx, t)

/-! ## Completions -/

/-- The system's side of a receive: the bytes are in the buffer, and their number is what
the completion reports. -/
def recv_completed (ctx : client_context_t) (arrived : List u8) : client_context_t × ℕ :=
  let bytes := arrived.take wsabuf_len
  ({ ctx with recv_buffer := write_at ctx.recv_buffer 0 bytes }, bytes.length)

/-- `handle_recv_completion` up to the parser. -/
def recv_terminate (ctx : client_context_t) (bytes_transferred : ℕ) : client_context_t :=
  { ctx with
    bytes_received := bytes_transferred
    recv_buffer := ctx.recv_buffer.set bytes_transferred 0 }

/-- `handle_recv_completion` behind the parser. -/
def respond (document_root : List u8) (fs : FileSystem σ) (net : Sockets τ)
    (ctx : client_context_t) (req : http_request_t) (s : σ) (t : τ) :
    Option client_context_t × σ × τ :=
  let r := serve_http_request document_root fs ctx.stream req HTTP_SEND_BUFFER_SIZE s
  let (head, stream, s) :=
    if r.rc < 0 then
      ((build_http_error_response 500 (ascii "Internal Server Error")
        HTTP_SEND_BUFFER_SIZE).getD [], stream_close fs r.ctx r.fs_state)
    else (r.out, r.ctx, r.fs_state)
  match post_send net { ctx with stream := stream } head t with
  | (rc, ctx, t) =>
      if rc ≠ 0 then (none, destroy_client_context fs net ctx s t) else (some ctx, s, t)

/-- `none`: a scan of the parser leaves the request. -/
def handle_recv_completion (document_root : List u8) (fs : FileSystem σ) (net : Sockets τ)
    (ctx : client_context_t) (bytes_transferred : ℕ) (indeterminate : u32) (s : σ) (t : τ) :
    Option (Option client_context_t × σ × τ) :=
  if bytes_transferred = 0 then some (none, destroy_client_context fs net ctx s t)
  else do
    let ctx := recv_terminate ctx bytes_transferred
    let req ← parse_http_request (handed ctx) indeterminate
    some (respond document_root fs net ctx req s t)

def handle_send_completion (fs : FileSystem σ) (net : Sockets τ) (ctx : client_context_t) (s : σ)
    (t : τ) : Option client_context_t × σ × τ :=
  if ctx.stream.stream_kind ≠ .STREAM_NONE then
    match stream_next_chunk fs HTTP_SEND_BUFFER_SIZE ctx.stream s with
    | (chunk, stream, s) =>
        let ctx := { ctx with stream := stream }
        -- the end of the body and a send that does not start end the same way
        let (posted, ctx, t) :=
          if chunk.length > 0 then
            match post_send net ctx chunk t with
            | (rc, ctx, t) => (decide (rc = 0), ctx, t)
          else (false, ctx, t)
        if posted then (some ctx, s, t)
        else
          let (stream, s) := stream_close fs ctx.stream s
          (none, destroy_client_context fs net { ctx with stream := stream } s t)
  else (none, destroy_client_context fs net ctx s t)

/-- `n` send completions delivered one after the other; a freed context gets none. -/
def send_completions (fs : FileSystem σ) (net : Sockets τ) :
    ℕ → Option client_context_t × σ × τ → Option client_context_t × σ × τ
  | 0, r => r
  | _ + 1, (none, s, t) => (none, s, t)
  | n + 1, (some ctx, s, t) => send_completions fs net n (handle_send_completion fs net ctx s t)

/-! ## What is handed to the parser -/

theorem post_recv_frame (net : Sockets τ) (ctx : client_context_t) (t : τ) :
    (post_recv net ctx t).2.1.client_socket = ctx.client_socket
      ∧ (post_recv net ctx t).2.1.stream = ctx.stream := by
  unfold post_recv
  split_ifs
  · exact ⟨rfl, rfl⟩
  · exact ⟨rfl, rfl⟩

theorem recv_completed_count (ctx : client_context_t) {arrived : List u8}
    (hfits : arrived.length ≤ wsabuf_len) : (recv_completed ctx arrived).2 = arrived.length := by
  rw [recv_completed, List.take_of_length_le hfits]

/-- What `handle_recv_completion` parses when `arrived` is there at the time: that, and
nothing that arrives later. -/
theorem handed_recv_completed (ctx : client_context_t) (arrived : List u8)
    (hfits : arrived.length ≤ wsabuf_len) :
    handed (recv_terminate (recv_completed ctx arrived).1 (recv_completed ctx arrived).2)
      = arrived := by
  rw [recv_completed, List.take_of_length_le hfits, recv_terminate, handed]
  dsimp only
  rw [List.take_set_of_le (le_refl _), write_at, List.take_zero, List.nil_append,
    List.take_left']
  rfl

/-- The bytes the NT path hands to the parser when the request arrives in `segs`. -/
def nt_handed (net : Sockets τ) (ctx : client_context_t) (segs : List (List u8)) (t : τ) :
    List u8 :=
  let ctx := (post_recv net ctx t).2.1
  let (ctx, bytes_transferred) := recv_completed ctx (segs.headD [])
  handed (recv_terminate ctx bytes_transferred)

theorem nt_handed_cons (net : Sockets τ) (ctx : client_context_t) {seg : List u8}
    (hfits : seg.length ≤ wsabuf_len) (segs : List (List u8)) (t : τ) :
    nt_handed net ctx (seg :: segs) t = seg :=
  handed_recv_completed _ seg hfits

/-- A request that fits and whose only CR LF CR LF is its end. -/
structure CompleteRequest (s : List u8) : Prop where
  fits : s.length ≤ RECV_BUFFER_SIZE - 1
  ends : crlfcrlf <:+ s
  only : ∀ p, p ++ crlfcrlf <+: s → p ++ crlfcrlf = s

/-- The Win9x loop puts a complete request together, whatever the cut. -/
theorem received_complete {s : List u8} (h : CompleteRequest s) (segs : List (List u8)) :
    ∀ {got : List u8}, (∀ seg ∈ segs, seg ≠ []) → segs ≠ [] → got ++ segs.flatten = s →
      received got segs = some (s, []) := by
  induction segs with
  | nil => exact fun _ hne _ => absurd rfl hne
  | cons seg segs ih =>
      intro got hsegs _ hflat
      have hfits := h.fits
      rw [List.flatten_cons, ← List.append_assoc] at hflat
      have hlen := congrArg List.length hflat
      simp only [List.length_append] at hlen
      have htake : seg.take (RECV_BUFFER_SIZE - 1 - got.length) = seg :=
        List.take_of_length_le (by omega)
      rw [received, htake]
      cases segs with
      | nil =>
          rw [List.flatten_nil, List.append_nil] at hflat
          rw [hflat, if_pos (Or.inl h.ends)]
      | cons seg' segs =>
          -- more is to come, so neither stop test can hold yet
          have hseg' : seg' ≠ [] := hsegs seg' (List.mem_cons_of_mem _ List.mem_cons_self)
          have hpos : 0 < seg'.length := List.length_pos_iff.mpr hseg'
          simp only [List.flatten_cons, List.length_append] at hlen
          have hgo : ¬ (crlfcrlf <:+ got ++ seg
              ∨ RECV_BUFFER_SIZE - 1 ≤ (got ++ seg).length) := by
            rintro (⟨p, hp⟩ | hfull)
            · have hall := h.only p (by rw [hp, ← hflat]; exact List.prefix_append _ _)
              have hl := congrArg List.length (hp.symm.trans hall)
              rw [List.length_append] at hl
              omega
            · rw [List.length_append] at hfull
              omega
          rw [if_neg hgo]
          exact ih (fun c hc => hsegs c (List.mem_cons_of_mem _ hc)) (by simp) hflat

/-- Both back ends hand `s` to the parser. -/
structure SameRequest (net : Sockets τ) (sock : SOCKET) (segs : List (List u8)) (s : List u8)
    (t : τ) : Prop where
  win9x : win9x_handed (create_client_context sock) (segs.map some) = some s
  nt : nt_handed net (create_client_context sock) segs t = s

/-- **When the back ends see the same request**: if it arrives in one segment. The Win9x
loop sees it in any case, since it receives up to the CR LF CR LF; the NT handler parses what the
first completion brings. -/
theorem same_request_iff (net : Sockets τ) (sock : SOCKET) (s : List u8) (h : CompleteRequest s)
    (segs : List (List u8)) (hsegs : ∀ seg ∈ segs, seg ≠ []) (hflat : segs.flatten = s) (t : τ) :
    SameRequest net sock segs s t ↔ segs.length = 1 := by
  have hne : segs ≠ [] := by
    rintro rfl
    have hends := h.ends
    rw [← hflat] at hends
    exact absurd hends (by decide)
  have hwin9x : win9x_handed (create_client_context sock) (segs.map some) = some s := by
    apply win9x_handed_eq sock segs hsegs
    rw [received_complete h segs hsegs hne (by rw [List.nil_append, hflat]), Option.map_some]
  obtain ⟨seg, rest, rfl⟩ := List.exists_cons_of_ne_nil hne
  have hfits := h.fits
  have hlen := congrArg List.length hflat
  rw [List.flatten_cons, List.length_append] at hlen
  have hseg : seg.length ≤ wsabuf_len := by
    unfold wsabuf_len
    omega
  have hnt := nt_handed_cons net (create_client_context sock) hseg rest t
  rw [List.length_cons, Nat.add_eq_right, List.length_eq_zero_iff]
  constructor
  · intro hsame
    have hseg : seg = s := hnt.symm.trans hsame.nt
    cases rest with
    | nil => rfl
    | cons seg' rest =>
        -- the second segment would have to be empty
        have hpos : 0 < seg'.length :=
          List.length_pos_iff.mpr (hsegs seg' (List.mem_cons_of_mem _ List.mem_cons_self))
        rw [hseg, List.flatten_cons, List.length_append] at hlen
        omega
  · rintro rfl
    rw [List.flatten_cons, List.flatten_nil, List.append_nil] at hflat
    exact ⟨hwin9x, hnt.trans hflat⟩

theorem sample_request_complete :
    CompleteRequest (ascii "GET /a HTTP/1.0\r\nA: b\r\n\r\n") := by
  refine ⟨by decide, by decide, fun p hp => ?_⟩
  have hlen := hp.length_le
  have h25 : (ascii "GET /a HTTP/1.0\r\nA: b\r\n\r\n").length = 25 := by decide
  have h4 : crlfcrlf.length = 4 := by decide
  rw [List.length_append, h25, h4] at hlen
  have hp' := List.prefix_iff_eq_take.mp hp
  rw [List.length_append, h4] at hp'
  have hall : ∀ n < 21, ¬ crlfcrlf <:+
      (ascii "GET /a HTTP/1.0\r\nA: b\r\n\r\n").take (n + 4) := by decide
  have hn : p.length = 21 := by
    by_contra hn
    exact hall p.length (by omega) (hp' ▸ List.suffix_append _ _)
  rw [hp', hn]
  decide

theorem same_request_one_segment :
    SameRequest .accepting (.of 1) [ascii "GET /a HTTP/1.0\r\nA: b\r\n\r\n"]
        (ascii "GET /a HTTP/1.0\r\nA: b\r\n\r\n") ()
      ↔ [ascii "GET /a HTTP/1.0\r\nA: b\r\n\r\n"].length = 1 :=
  same_request_iff .accepting (.of 1) _ sample_request_complete _ (by decide) (by decide) ()

/-- The same request in two segments: the NT path parses the first alone. -/
theorem two_segments_differ :
    CompleteRequest (ascii "GET /a HTTP/1.0\r\nA: b\r\n\r\n")
      ∧ [ascii "GET /a HTTP/1.0\r\n", ascii "A: b\r\n\r\n"].flatten
        = ascii "GET /a HTTP/1.0\r\nA: b\r\n\r\n"
      ∧ ¬ SameRequest .accepting (.of 1) [ascii "GET /a HTTP/1.0\r\n", ascii "A: b\r\n\r\n"]
        (ascii "GET /a HTTP/1.0\r\nA: b\r\n\r\n") () := by
  refine ⟨sample_request_complete, by decide, fun h => ?_⟩
  have hnt := h.nt
  rw [nt_handed_cons _ _ (by decide)] at hnt
  exact absurd hnt (by decide)

end W32HttpServer.NtHandlers

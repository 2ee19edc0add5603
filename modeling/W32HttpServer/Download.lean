/-
A file, from the disk to the client.

The pieces are elsewhere: the request is put together from the segments it arrives in, the
path leads to the file, the head announces its length, the chunks make up its content, and
whatever the network does a beginning of the response goes out. `download` is the client: it
takes the number from the head and that many bytes behind it, and gives up when there are
fewer. So it ends with the file, or it knows that it has not got it (`file_downloaded`); it
never ends with something else.
-/
import W32HttpServer.Common
import W32HttpServer.HttpRequest
import W32HttpServer.RequestText
import W32HttpServer.HttpResponse
import W32HttpServer.MagicNumbers
import W32HttpServer.ResponseFraming
import W32HttpServer.Platform
import W32HttpServer.Disk
import W32HttpServer.Context
import W32HttpServer.Serve
import W32HttpServer.Win9xClient
import W32HttpServer.NtHandlers
import W32HttpServer.Backends
import W32HttpServer.WholeResponse
import W32HttpServer.FileBody
import W32HttpServer.Lib.Generator
import W32HttpServer.Lib.Scan

set_option autoImplicit false

namespace W32HttpServer.Download

open W32HttpServer.Common W32HttpServer.HttpRequest W32HttpServer.RequestText
open W32HttpServer.HttpResponse W32HttpServer.MagicNumbers W32HttpServer.ResponseFraming
open W32HttpServer.Platform W32HttpServer.Disk W32HttpServer.Context W32HttpServer.Serve
open W32HttpServer.Win9xClient W32HttpServer.NtHandlers W32HttpServer.Backends
open W32HttpServer.WholeResponse W32HttpServer.FileBody
open W32HttpServer.Lib.Generator W32HttpServer.Lib.Scan

variable {σ τ : Type}

/-! ## The client -/

/-- What a client makes of the bytes it got before the connection was closed: the body, if it is
all there. -/
def download (wire : List u8) : Option (List u8) := do
  let n ← content_length wire
  let b ← body_of wire
  if n ≤ b.length then some (b.take n) else none

theorem response_append (status mime : List u8) (n : ℕ) (b c : List u8) :
    response status mime n b ++ c = response status mime n (b ++ c) := by
  simp only [response, List.append_assoc]

/-- Once the end of the head is there, what follows goes to the body. -/
theorem body_of_append {wire b : List u8} (h : body_of wire = some b) (rest : List u8) :
    body_of (wire ++ rest) = some (b ++ rest) := by
  rw [body_of, Option.map_eq_some_iff] at h
  obtain ⟨k, hk, rfl⟩ := h
  have hlong : k + crlfcrlf.length ≤ wire.length := by
    obtain ⟨x, y, rfl, rfl, hread⟩ := scan_eq_some hk
    have hle := (Probe.word_read_true.mp hread).length_le
    rw [List.length_append]
    omega
  rw [body_of, scan_append rest hk, Option.map_some, List.drop_append_of_le_length hlong]

/-- The bytes a client has, when it has found the end of the head. -/
theorem prefix_of_response {status mime content wire : List u8} (hstatus : HeaderLine status)
    (hmime : chr '\r' ∉ mime ∧ chr '\n' ∉ mime) {n : ℕ}
    (hwire : wire <+: response status mime n content) {b : List u8}
    (hbody : body_of wire = some b) : b <+: content ∧ wire = response status mime n b := by
  obtain ⟨rest, hrest⟩ := hwire
  -- the end of the head is where it is in the whole response
  have hwhole := body_of_append hbody rest
  rw [hrest, body_of_response hstatus hmime, Option.some.injEq] at hwhole
  refine ⟨⟨rest, hwhole.symm⟩, ?_⟩
  have hsplit : wire ++ rest = response status mime n b ++ rest := by
    rw [hrest, response_append, hwhole]
  exact List.append_cancel_right hsplit

theorem download_response {status mime : List u8} (hstatus : HeaderLine status)
    (hmime : chr '\r' ∉ mime ∧ chr '\n' ∉ mime) (content : List u8) :
    download (response status mime content.length content) = some content := by
  rw [download, content_length_response hstatus.no_cr hmime.1,
    body_of_response hstatus hmime]
  show (if content.length ≤ content.length then some (content.take content.length) else none) = _
  rw [if_pos (le_refl _), List.take_length]

/-- **A beginning of a response gives its content or nothing.** -/
theorem download_prefix {status mime content wire d : List u8} (hstatus : HeaderLine status)
    (hmime : chr '\r' ∉ mime ∧ chr '\n' ∉ mime)
    (hwire : wire <+: response status mime content.length content)
    (hd : download wire = some d) : d = content := by
  rw [download, Option.bind_eq_bind, Option.bind_eq_some_iff] at hd
  obtain ⟨n, hn, hd⟩ := hd
  rw [Option.bind_eq_bind, Option.bind_eq_some_iff] at hd
  obtain ⟨b, hb, hd⟩ := hd
  obtain ⟨hbegins, hwire⟩ := prefix_of_response hstatus hmime hwire hb
  rw [hwire, content_length_response hstatus.no_cr hmime.1, Option.some.injEq] at hn
  split_ifs at hd with hall
  rw [Option.some.injEq] at hd
  have hle := hbegins.length_le
  rw [← hd, ← hn, hbegins.eq_of_length (by omega), List.take_length]

/-! ## From end to end -/

/-- A text whose first CR LF CR LF is its end is a complete request. -/
theorem complete_of_scan {head : List u8} (hfits : (head ++ crlfcrlf).length ≤ RECV_BUFFER_SIZE - 1)
    (hscan : scan (Probe.word crlfcrlf) (head ++ crlfcrlf) 0 = some head.length) :
    CompleteRequest (head ++ crlfcrlf) := by
  refine ⟨hfits, List.suffix_append _ _, ?_⟩
  rintro p ⟨t, ht⟩
  obtain ⟨m, hm⟩ := Option.isSome_iff_exists.mp
    ((scan_word_isSome_iff (p ++ crlfcrlf) 0).mpr (List.suffix_append p crlfcrlf).isInfix)
  obtain ⟨x, y, hxy, hmx, hread⟩ := scan_eq_some hm
  -- the search stops at that end or before it
  have hle := (Probe.word_read_true.mp hread).length_le
  have hend := scan_append t hm
  rw [ht, hscan, Option.some.injEq] at hend
  have hlen := congrArg List.length hxy
  have htotal := congrArg List.length ht
  simp only [List.length_append] at hlen htotal
  have ht0 : t = [] := List.length_eq_zero_iff.mp (by omega)
  rw [← ht, ht0, List.append_nil]

/-- The Win9x back end puts a complete request together, whatever its segments. -/
theorem win9x_hands_over {text : List u8} (hcomplete : CompleteRequest text) {segs : List (List u8)}
    (hsegs : ∀ seg ∈ segs, seg ≠ []) (hflat : segs.flatten = text) (n : ℕ) :
    win9x_handed (create_client_context (.of n)) (segs.map some) = some text := by
  have hne : segs ≠ [] := by
    rintro rfl
    have hends := hcomplete.ends
    rw [← hflat] at hends
    exact absurd hends (by decide)
  apply win9x_handed_eq (.of n) segs hsegs
  rw [received_complete hcomplete segs hsegs hne (by rw [List.nil_append, hflat]), Option.map_some]

/-- The client has got the value, or does not take what it got for one. -/
def WholeOrNothing {α : Type} (client : List u8 → Option α) (value : α) (wire : List u8) : Prop :=
  ∀ d, client wire = some d → d = value

/-- The value reaches a client that sends `text`, or the client knows that it has not: in
whatever segments the Win9x back end gets the request, and in one for the NT back end, after
any number of completions. -/
structure Delivers {α : Type} (document_root : List u8) (fs : FileSystem σ) (net : Sockets τ)
    (sock : SOCKET) (text : List u8) (indeterminate : u32) (s : σ) (t : τ)
    (client : List u8 → Option α) (value : α) : Prop where
  win9x : ∀ segs : List (List u8), (∀ seg ∈ segs, seg ≠ []) → segs.flatten = text →
    ∃ s1 t1 wire, handle_client_win9x document_root fs net.recorded (create_client_context sock)
        (segs.map some) indeterminate s (t, []) = some (s1, (t1, wire))
      ∧ WholeOrNothing client value wire ∧ (Accepts net → client wire = some value)
  nt : ∃ posted completed r,
    posted = post_recv net.recorded (create_client_context sock) (t, [])
      ∧ completed = recv_completed posted.2.1 text
      ∧ handle_recv_completion document_root fs net.recorded completed.1 completed.2
        indeterminate s posted.2.2 = some r
      ∧ (∀ k, WholeOrNothing client value (wire_of (send_completions fs net.recorded k r)))
      ∧ (Starts net → ∃ k, (send_completions fs net.recorded k r).1 = none
        ∧ client (wire_of (send_completions fs net.recorded k r)) = some value)

/-- **From the response to the client**: it is enough to know what the client makes of its
beginnings. -/
theorem delivers_of_response {α : Type} {document_root : List u8} {fs : FileSystem σ}
    {req : http_request_t} {s : σ} {client : List u8 → Option α} {value : α}
    (hwhole : client (whole_response document_root fs req s) = some value)
    (hpart : ∀ wire, wire <+: whole_response document_root fs req s →
      WholeOrNothing client value wire)
    {text : List u8} (hcomplete : CompleteRequest text) {indeterminate : u32}
    (hparse : parse_http_request text indeterminate = some req) (net : Sockets τ) (n : ℕ) (t : τ) :
    Delivers document_root fs net (.of n) text indeterminate s t client value where
  win9x := by
    intro segs hsegs hflat
    obtain ⟨s1, t1, wire, hclient, hbegins, hall⟩ := win9x_sends document_root fs net n
      (segs.map some) text indeterminate req (win9x_hands_over hcomplete hsegs hflat n) hparse s t
    exact ⟨s1, t1, wire, hclient, hpart wire hbegins, fun hnet => hall hnet ▸ hwhole⟩
  nt := by
    obtain ⟨r, hr, hbegins, hall⟩ :=
      nt_sends document_root fs net n text hcomplete.fits indeterminate req hparse s t
    refine ⟨_, _, r, rfl, rfl, hr, fun k => hpart _ (hbegins k), fun hnet => ?_⟩
    obtain ⟨k, hfreed, hwire⟩ := hall hnet
    exact ⟨k, hfreed, hwire ▸ hwhole⟩

/-! ## The response to a request for a file -/

/-- A source that is pulled until it is empty has handed out its body. -/
theorem body_of_drains {fs : FileSystem σ} {p last : stream_state_t × σ} {chunks : List (List u8)}
    (h : Drains (next_chunk fs HTTP_SEND_BUFFER_SIZE) p chunks last) :
    body fs p.1 p.2 = chunks.flatten := by
  induction h with
  | @done p hlast =>
      rcases hnext : stream_next_chunk fs HTTP_SEND_BUFFER_SIZE p.1 p.2 with ⟨chunk, ctx', s'⟩
      have hchunk : chunk = [] := by
        rw [next_chunk, hnext] at hlast
        exact hlast
      rw [hchunk] at hnext
      rw [body_last hnext, List.flatten_nil]
  | @chunk p p' cs hne _ ih =>
      rcases hnext : stream_next_chunk fs HTTP_SEND_BUFFER_SIZE p.1 p.2 with ⟨chunk, ctx', s'⟩
      rw [next_chunk, hnext] at hne ih ⊢
      rw [body_chunk hnext hne, ih, List.flatten_cons]

variable {document_root path content : List u8} {fs : FileSystem σ} {req : http_request_t}
  {s s0 : σ}

/-- **The response to a request for a file**: its length in the head, and behind it all of it. -/
theorem whole_response_file (hfile : ServesFile document_root fs req s path s0)
    (hstores : Stores fs path content) (hopen : (fs.CreateFile s0 path).1 ≠ none)
    (hlen : content.length < 2 ^ 32 - 1) :
    ∃ mime, (chr '\r' ∉ mime ∧ chr '\n' ∉ mime)
      ∧ whole_response document_root fs req s
        = response (ascii "HTTP/1.0 200 OK") mime content.length content := by
  obtain ⟨h, hh⟩ := Option.ne_none_iff_exists'.mp hopen
  have hcreate : fs.CreateFile s0 path = (some h, (fs.CreateFile s0 path).2) := Prod.ext hh rfl
  have hmod : (low_word content).toNat = content.length := by
    rw [low_word_toNat, Nat.mod_eq_of_lt (by omega)]
  have hvalid : low_word content ≠ INVALID_FILE_SIZE := by
    rw [ne_eq, low_word_eq_invalid_iff, Nat.mod_eq_of_lt (by omega)]
    omega
  obtain ⟨hrc, mime, hmime, hout⟩ :=
    serve_file_answered hstores hcreate hvalid (clean_slate initial_stream)
  rw [← serve_http_request_file hfile (by decide)] at hrc hout
  have hbuf : 1 ≤ HTTP_SEND_BUFFER_SIZE := by decide
  obtain ⟨chunks, last, hdrains, hflat, -⟩ := file_drains hfile hstores hrc hbuf
  refine ⟨mime, hmime, ?_⟩
  rw [whole_response_eq, hout, body_of_drains hdrains, hflat, hmod, List.take_length,
    response_append, List.nil_append]

theorem status_ok_headerLine : HeaderLine (ascii "HTTP/1.0 200 OK") :=
  ⟨by decide, by decide, by decide⟩

/-- What holds of every beginning of the response. -/
theorem file_response_downloads (hfile : ServesFile document_root fs req s path s0)
    (hstores : Stores fs path content) (hopen : (fs.CreateFile s0 path).1 ≠ none)
    (hlen : content.length < 2 ^ 32 - 1) :
    download (whole_response document_root fs req s) = some content
      ∧ ∀ wire, wire <+: whole_response document_root fs req s →
        WholeOrNothing download content wire := by
  obtain ⟨mime, hmime, hwhole⟩ := whole_response_file hfile hstores hopen hlen
  rw [hwhole]
  exact ⟨download_response status_ok_headerLine hmime content,
    fun wire hwire d hd => download_prefix status_ok_headerLine hmime hwire hd⟩

/-- **A file arrives whole, or the client knows it has not**: reads may be short, sends may take a
part only, and the connection may break anywhere. The file must be there to be opened and shorter
than 4 GiB - 1. One that `CreateFile` refuses is answered with a page whose length is wrong
(`error_response_framed_iff`), and a client would take that page, cut, for the file. `Delivers`
has the request in any segments on Win9x and in one on NT. -/
theorem file_downloaded (hfile : ServesFile document_root fs req s path s0)
    (hstores : Stores fs path content) (hopen : (fs.CreateFile s0 path).1 ≠ none)
    (hlen : content.length < 2 ^ 32 - 1) {text : List u8} (hcomplete : CompleteRequest text)
    {indeterminate : u32} (hparse : parse_http_request text indeterminate = some req)
    (net : Sockets τ) (n : ℕ) (t : τ) :
    Delivers document_root fs net (.of n) text indeterminate s t download content := by
  obtain ⟨hwhole, hpart⟩ := file_response_downloads hfile hstores hopen hlen
  exact delivers_of_response hwhole hpart hcomplete hparse net n t

/-- "hello", read two bytes at a time, over a connection that breaks after 100. -/
theorem file_downloaded_hello :
    Delivers (ascii "C:\\www") (trickle (disk (one_file (ascii "hello"))) 1) breaking (.of 1)
      (ascii "GET /a HTTP/1.0\r\nA: b\r\n\r\n") 0 [] 100 download (ascii "hello") := by
  have hfile : ServesFile (ascii "C:\\www") (trickle (disk (one_file (ascii "hello"))) 1) get_a []
      (full_path (ascii "C:\\www") get_a) [] := .plain get_a_resolves (by decide) (by decide)
  have hstores : Stores (trickle (disk (one_file (ascii "hello"))) 1)
      (full_path (ascii "C:\\www") get_a) (ascii "hello") :=
    stores_trickle (stores_of_lookup (by decide)) 1
  exact file_downloaded hfile hstores (by decide) (by decide) sample_request_complete (by decide)
    breaking 1 100

end W32HttpServer.Download

/-
What a client gets that asks for a URL.

A client is a way to write a request: a version, some header lines and an encoding of names. Its
request for a URL is complete, and the server parses it as a GET for that URL (`request_parsed`).
What it then gets is `Fetched`: the bytes either back end puts on a wire for this request, in
whatever segments it was sent, whatever the file system did before, and wherever the connection
broke. They are a beginning of the one response (`fetched_begins`), and all of it if no send
failed (`fetched_whole`).
-/
import W32HttpServer.Common
import W32HttpServer.HttpRequest
import W32HttpServer.RequestText
import W32HttpServer.Platform
import W32HttpServer.Context
import W32HttpServer.Serve
import W32HttpServer.PercentDecoding
import W32HttpServer.Links
import W32HttpServer.Win9xClient
import W32HttpServer.NtHandlers
import W32HttpServer.Backends
import W32HttpServer.WholeResponse
import W32HttpServer.Download
import W32HttpServer.Lib.Scan

set_option autoImplicit false

namespace W32HttpServer.Client

open W32HttpServer.Common W32HttpServer.HttpRequest W32HttpServer.RequestText
open W32HttpServer.Platform W32HttpServer.Context W32HttpServer.Serve
open W32HttpServer.PercentDecoding W32HttpServer.Links W32HttpServer.Win9xClient
open W32HttpServer.NtHandlers W32HttpServer.Backends W32HttpServer.WholeResponse
open W32HttpServer.Download W32HttpServer.Lib.Scan

variable {σ : Type}

/-! ## The client -/

/-- The bytes that may stand in the URL of a request. -/
def Sendable (c : u8) : Prop := c ≠ 0 ∧ c ≠ chr ' ' ∧ c ≠ chr '\r' ∧ c ≠ chr '\n'

instance (c : u8) : Decidable (Sendable c) := by
  unfold Sendable
  infer_instance

/-- A GET request with some header lines. -/
def request_text (version : List u8) (lines : List (List u8)) (url : List u8) : List u8 :=
  crlf.intercalate ((ascii "GET " ++ (url ++ chr ' ' :: version)) :: lines) ++ crlfcrlf

/-- A client: the version it speaks, the header lines it sends and how it encodes a name. Any client
that meets the rest will do, so nothing is said of which characters it encodes. -/
structure client_t where
  version : List u8
  lines : List (List u8)
  escape : List u8 → List u8
  version_line : chr '\r' ∉ version ∧ chr '\n' ∉ version
  lines_ne_nil : lines ≠ []
  header_lines : ∀ l ∈ lines, HeaderLine l
  /-- A path of any length the server accepts leaves the request in one buffer. -/
  short : (request_text version lines []).length + MAX_PATH ≤ RECV_BUFFER_SIZE
  encodes : ∀ name, UrlEncodes name (escape name)
  escape_sendable : ∀ name, ∀ c ∈ escape name, Sendable c

/-- What the client sends for a URL. -/
def client_t.request (client : client_t) (url : List u8) : List u8 :=
  request_text client.version client.lines url

/-- Every character of the URL is one of the request. -/
theorem request_length (client : client_t) (url : List u8) :
    (client.request url).length = (client.request []).length + url.length := by
  obtain ⟨l, lines, hlines⟩ := List.exists_cons_of_ne_nil client.lines_ne_nil
  rw [client_t.request, client_t.request, request_text, request_text, hlines,
    List.intercalate_cons_cons, List.intercalate_cons_cons]
  simp only [List.length_append, List.length_cons, List.length_nil]
  omega

section

variable (client : client_t) {url : List u8} (hurl : ∀ c ∈ url, Sendable c)
include hurl

theorem request_header_lines :
    ∀ l ∈ (ascii "GET " ++ (url ++ chr ' ' :: client.version)) :: client.lines, HeaderLine l := by
  intro l hl
  rcases List.mem_cons.mp hl with rfl | hl
  · refine ⟨by simp, ?_, ?_⟩
    · simp only [List.mem_append, List.mem_cons, not_or]
      exact ⟨by decide, fun hmem => (hurl _ hmem).2.2.1 rfl, by decide, client.version_line.1⟩
    · simp only [List.mem_append, List.mem_cons, not_or]
      exact ⟨by decide, fun hmem => (hurl _ hmem).2.2.2 rfl, by decide, client.version_line.2⟩
  · exact client.header_lines l hl

/-- A client's request is complete. -/
theorem request_complete (hlen : url.length < MAX_PATH) : CompleteRequest (client.request url) := by
  have hshort := client.short
  have hrecv : RECV_BUFFER_SIZE = 4096 := rfl
  have hmax : MAX_PATH = 260 := rfl
  have hlength := request_length client url
  apply complete_of_scan
  · show (client.request url).length ≤ _
    have hbase : (client.request []).length + MAX_PATH ≤ RECV_BUFFER_SIZE := hshort
    omega
  · have hscan := terminator_scan (List.cons_ne_nil _ _) (request_header_lines client hurl) [] 0
    rwa [List.append_nil, Nat.zero_add] at hscan

/-- **The server parses it** as a GET for the URL. -/
theorem request_parsed (x : u32) :
    ∃ req, parse_http_request (client.request url) x = some req
      ∧ req.method = http_method_t.HTTP_GET.num ∧ req.path_bytes = url := by
  obtain ⟨l, lines, hlines⟩ := List.exists_cons_of_ne_nil client.lines_ne_nil
  -- the terminator is behind the first LF
  have htail : crlfcrlf <:+:
      (((client.version ++ (crlf ++ crlf.intercalate client.lines)) ++ crlfcrlf).dropWhile
        (· ≠ chr '\n')).tail := by
    have hver : ∀ c ∈ client.version ++ [chr '\r'], decide (c ≠ chr '\n') = true := by
      intro c hc
      rcases List.mem_append.mp hc with hc | hc
      · simpa using fun h : c = chr '\n' => client.version_line.2 (h ▸ hc)
      · rw [List.mem_singleton.mp hc]
        decide
    have hsplit : (client.version ++ (crlf ++ crlf.intercalate client.lines)) ++ crlfcrlf
        = (client.version ++ [chr '\r'])
          ++ chr '\n' :: (crlf.intercalate client.lines ++ crlfcrlf) := by
      simp only [crlf, List.append_assoc, List.cons_append]
      rfl
    rw [hsplit, List.dropWhile_append_of_pos hver, List.dropWhile_cons_of_neg (by simp),
      List.tail_cons]
    exact (List.suffix_append _ _).isInfix
  obtain ⟨req, hreq, hmethod, hpath⟩ := parse_http_request_get url htail x
  refine ⟨req, ?_, hmethod, ?_⟩
  · rw [← hreq, client_t.request, request_text, hlines, List.intercalate_cons_cons, ← hlines]
    simp only [List.append_assoc, List.cons_append]
  · rw [hpath, List.takeWhile_eq_self_iff]
    intro c hc
    simpa using (hurl c hc).2.1

end

/-- The slice of a path that was parsed is the path. -/
theorem path_len_eq {payload : List u8} {x : u32} {req : http_request_t}
    (h : parse_http_request payload x = some req) : path_len req = req.path_bytes.length := by
  obtain ⟨i, j, k, m, hi, hj, hk, hm, rfl⟩ := parse_http_request_eq_some.mp h
  obtain ⟨y, a, z, hyz, hy, ha, rfl⟩ := scan_headIs_eq_some hj
  have hslice : slice payload (i + 1) (i + 1 + y.length) = y := by
    rw [slice, hyz]
    simp
  show ((i + 1 + y.length : ℕ) : ℤ) - ((i + 1 : ℕ) : ℤ)
    = ((slice payload (i + 1) (i + 1 + y.length)).length : ℤ)
  rw [hslice]
  push_cast
  omega

/-! ## The bytes it gets -/

/-- What a connection to the server can yield for the request `text`. -/
inductive Fetched (document_root : List u8) (fs : FileSystem σ) (text : List u8) : List u8 → Prop
  | win9x {τ : Type} {net : Sockets τ} {n : ℕ} {segs : List (List u8)} {x : u32} {s s1 : σ}
      {t t1 : τ} {wire : List u8} (hsegs : ∀ seg ∈ segs, seg ≠ []) (hflat : segs.flatten = text)
      (h : handle_client_win9x document_root fs net.recorded (create_client_context (.of n))
        (segs.map some) x s (t, []) = some (s1, (t1, wire))) : Fetched document_root fs text wire
  | nt {τ : Type} {net : Sockets τ} {n : ℕ} {x : u32} {s : σ} {t : τ}
      {posted : ℤ × client_context_t × τ × List u8} {completed : client_context_t × ℕ}
      {r : Option client_context_t × σ × τ × List u8}
      (hposted : post_recv net.recorded (create_client_context (.of n)) (t, []) = posted)
      (hcompleted : recv_completed posted.2.1 text = completed)
      (h : handle_recv_completion document_root fs net.recorded completed.1 completed.2 x s
        posted.2.2 = some r) (k : ℕ) :
      Fetched document_root fs text (wire_of (send_completions fs net.recorded k r))

/-- The same for a connection that does not break, up to its end. -/
inductive FetchedWhole (document_root : List u8) (fs : FileSystem σ) (text : List u8) :
    List u8 → Prop
  | win9x {τ : Type} {net : Sockets τ} {n : ℕ} {segs : List (List u8)} {x : u32} {s s1 : σ}
      {t t1 : τ} {wire : List u8} (hnet : Accepts net) (hsegs : ∀ seg ∈ segs, seg ≠ [])
      (hflat : segs.flatten = text)
      (h : handle_client_win9x document_root fs net.recorded (create_client_context (.of n))
        (segs.map some) x s (t, []) = some (s1, (t1, wire))) :
      FetchedWhole document_root fs text wire
  | nt {τ : Type} {net : Sockets τ} {n : ℕ} {x : u32} {s : σ} {t : τ}
      {posted : ℤ × client_context_t × τ × List u8} {completed : client_context_t × ℕ}
      {r : Option client_context_t × σ × τ × List u8} (hnet : Starts net)
      (hposted : post_recv net.recorded (create_client_context (.of n)) (t, []) = posted)
      (hcompleted : recv_completed posted.2.1 text = completed)
      (h : handle_recv_completion document_root fs net.recorded completed.1 completed.2 x s
        posted.2.2 = some r) {k : ℕ}
      (hfreed : (send_completions fs net.recorded k r).1 = none) :
      FetchedWhole document_root fs text (wire_of (send_completions fs net.recorded k r))

theorem send_completions_none {τ : Type} (fs : FileSystem σ) (net : Sockets τ) (k : ℕ) (s : σ)
    (t : τ) : send_completions fs net k (none, s, t) = (none, s, t) := by
  rcases k with _ | k <;> rfl

/-- Behind the end of a connection nothing happens. -/
theorem send_completions_freed {τ : Type} (fs : FileSystem σ) (net : Sockets τ) (k j : ℕ) :
    ∀ r : Option client_context_t × σ × τ, (send_completions fs net k r).1 = none →
      send_completions fs net (k + j) r = send_completions fs net k r := by
  induction k with
  | zero =>
      rintro ⟨ctx, s, t⟩ hnone
      have hctx : ctx = none := hnone
      rw [hctx, send_completions_none, send_completions_none]
  | succ k ih =>
      rintro ⟨_ | ctx, s, t⟩ hnone
      · rw [send_completions_none, send_completions_none]
      · rw [Nat.succ_add]
        exact ih (handle_send_completion fs net ctx s t) hnone

section

variable {document_root : List u8} {fs : FileSystem σ} {text wire : List u8}

/-- **A client gets a beginning of the response.** -/
theorem fetched_begins (hcomplete : CompleteRequest text)
    (hparse : ∀ x, ∃ req, parse_http_request text x = some req)
    (h : Fetched document_root fs text wire) :
    ∃ x req s, parse_http_request text x = some req
      ∧ wire <+: whole_response document_root fs req s := by
  cases h with
  | @win9x τ net n segs x s s1 t t1 _ hsegs hflat h =>
      obtain ⟨req, hreq⟩ := hparse x
      obtain ⟨s1', t1', wire', hwire, hbegins, -⟩ := win9x_sends document_root fs net n
        (segs.map some) text x req (win9x_hands_over hcomplete hsegs hflat n) hreq s t
      rw [h, Option.some.injEq, Prod.mk.injEq, Prod.mk.injEq] at hwire
      obtain ⟨-, -, rfl⟩ := hwire
      exact ⟨x, req, s, hreq, hbegins⟩
  | @nt τ net n x s t posted completed r hposted hcompleted h k =>
      obtain ⟨req, hreq⟩ := hparse x
      obtain ⟨r', hr', hbegins, -⟩ :=
        nt_sends document_root fs net n text hcomplete.fits x req hreq s t
      subst hposted hcompleted
      rw [h, Option.some.injEq] at hr'
      subst hr'
      exact ⟨x, req, s, hreq, hbegins k⟩

/-- **And all of it**, over a connection that does not break. -/
theorem fetched_whole (hcomplete : CompleteRequest text)
    (hparse : ∀ x, ∃ req, parse_http_request text x = some req)
    (h : FetchedWhole document_root fs text wire) :
    ∃ x req s, parse_http_request text x = some req
      ∧ wire = whole_response document_root fs req s := by
  cases h with
  | @win9x τ net n segs x s s1 t t1 _ hnet hsegs hflat h =>
      obtain ⟨req, hreq⟩ := hparse x
      obtain ⟨s1', t1', wire', hwire, -, hall⟩ := win9x_sends document_root fs net n
        (segs.map some) text x req (win9x_hands_over hcomplete hsegs hflat n) hreq s t
      rw [h, Option.some.injEq, Prod.mk.injEq, Prod.mk.injEq] at hwire
      obtain ⟨-, -, rfl⟩ := hwire
      exact ⟨x, req, s, hreq, hall hnet⟩
  | @nt τ net n x s t posted completed r hnet hposted hcompleted h k hfreed =>
      obtain ⟨req, hreq⟩ := hparse x
      obtain ⟨r', hr', -, hall⟩ :=
        nt_sends document_root fs net n text hcomplete.fits x req hreq s t
      subst hposted hcompleted
      rw [h, Option.some.injEq] at hr'
      subst hr'
      obtain ⟨k', hfreed', hwire⟩ := hall hnet
      refine ⟨x, req, s, hreq, ?_⟩
      -- both are the wire at the end of the connection
      rw [← hwire, ← send_completions_freed fs net.recorded k k' r hfreed, Nat.add_comm,
        send_completions_freed fs net.recorded k' k r hfreed']

end

/-! ## A client that encodes names -/

/-- The characters that stand for themselves in any URL. -/
def is_unreserved (c : u8) : Bool :=
  (chr '0' ≤ c && c ≤ chr '9') || (chr 'A' ≤ c && c ≤ chr 'Z') || (chr 'a' ≤ c && c ≤ chr 'z')
    || c == chr '-' || c == chr '.' || c == chr '_' || c == chr '~'

def hex_char (n : ℕ) : u8 := if n < 10 then UInt8.ofNat (48 + n) else UInt8.ofNat (55 + n)

/-- An encoding as clients have it: the unreserved characters stay, and all others become `%XX`. -/
def percent_encode (name : List u8) : List u8 :=
  name.flatMap fun c =>
    if is_unreserved c then [c]
    else [chr '%', hex_char (c.toNat / 16), hex_char (c.toNat % 16)]

theorem digit_value_hex_char : ∀ n < 16, digit_value (hex_char n) = some n := by
  decide

/-- The digits may stand in a request line. -/
theorem hex_char_sendable : ∀ n < 16, Sendable (hex_char n) := by
  decide

theorem digits_value_hex_char (c : u8) :
    digits_value (hex_char (c.toNat / 16)) (hex_char (c.toNat % 16)) = some c := by
  have hlt := c.toNat_lt
  rw [digits_value, digit_value_hex_char _ (by omega), digit_value_hex_char _ (by omega)]
  show some (UInt8.ofNat (16 * (c.toNat / 16) + c.toNat % 16)) = some c
  rw [Nat.div_add_mod, UInt8.ofNat_toNat]

theorem is_unreserved_ne {c d : u8} (h : is_unreserved c = true) (hd : is_unreserved d = false) :
    c ≠ d := by
  rintro rfl
  rw [h] at hd
  exact absurd hd (by decide)

/-- **It is one of the encodings** the server decodes. -/
theorem percent_encode_encodes (name : List u8) : UrlEncodes name (percent_encode name) := by
  induction name with
  | nil => exact .nil
  | cons c name ih =>
      rw [percent_encode, List.flatMap_cons]
      split_ifs with hc
      · exact .literal (is_unreserved_ne hc (by decide)) (is_unreserved_ne hc (by decide)) ih
      · exact .escape (digits_value_hex_char c) ih

/-- And what it makes may be sent. -/
theorem percent_encode_sendable (name : List u8) : ∀ c ∈ percent_encode name, Sendable c := by
  intro c hc
  rw [percent_encode, List.mem_flatMap] at hc
  obtain ⟨b, -, hc⟩ := hc
  have hlt := b.toNat_lt
  split_ifs at hc with hb
  · rw [List.mem_singleton.mp hc]
    exact ⟨is_unreserved_ne hb (by decide), is_unreserved_ne hb (by decide),
      is_unreserved_ne hb (by decide), is_unreserved_ne hb (by decide)⟩
  · simp only [List.mem_cons, List.not_mem_nil, or_false] at hc
    rcases hc with rfl | rfl | rfl
    · decide
    · exact hex_char_sendable _ (by omega)
    · exact hex_char_sendable _ (by omega)

/-- A client that speaks HTTP/1.0 and encodes in that way. -/
def sample_client : client_t where
  version := ascii "HTTP/1.0"
  lines := [ascii "A: b"]
  escape := percent_encode
  version_line := by decide
  lines_ne_nil := by decide
  header_lines := by
    intro l hl
    rw [List.mem_singleton.mp hl]
    exact ⟨by decide, by decide, by decide⟩
  short := by decide
  encodes := percent_encode_encodes
  escape_sendable := percent_encode_sendable

end W32HttpServer.Client

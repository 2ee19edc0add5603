/-
The length a response announces, and the length it has.

A client finds the end of a body by the number in the Content-Length field: it takes the head
up to the first blank line and reads that many bytes behind it. `content_length` and `body_of`
read a response the way such a client does.

Two of the builders write the field, and both write the same head around it (`response`). What
a client reads of that head is the number that was printed, and the body is what was put behind
it (`content_length_response`, `body_of_response`). `build_http_error_response` prints an
estimate: the length of the message and 100 for the markup around it. The markup has 72 bytes
and holds the code and the status text twice, so the estimate is right only where these two
have 14 characters together, which among the codes with a text of their own is 400
(`error_response_framed_iff`).
-/
import W32HttpServer.Common
import W32HttpServer.HttpRequest
import W32HttpServer.RequestText
import W32HttpServer.HttpResponse
import W32HttpServer.Lib.Scan

set_option autoImplicit false

namespace W32HttpServer.ResponseFraming

open W32HttpServer.Common W32HttpServer.HttpRequest W32HttpServer.RequestText
open W32HttpServer.HttpResponse W32HttpServer.Lib.Scan

/-! ## Reading a response -/

def length_field : List u8 := ascii "Content-Length: "

/-- The number in the first Content-Length line behind the status line. -/
def content_length (out : List u8) : Option ℕ :=
  (scan (Probe.word (crlf ++ length_field)) out 0).map fun k =>
    number ((out.drop (k + (crlf ++ length_field).length)).takeWhile is_digit)

/-- The bytes behind the first blank line. -/
def body_of (out : List u8) : Option (List u8) :=
  (scan (Probe.word crlfcrlf) out 0).map fun k => out.drop (k + crlfcrlf.length)

/-- The number of bytes that follow the blank line is the number announced. -/
def Framed (out : List u8) : Prop :=
  ∃ body, body_of out = some body ∧ content_length out = some body.length

/-! ## The head both builders write -/

def length_line (n : ℕ) : List u8 := length_field ++ fmt_u n

def type_line (mime : List u8) : List u8 := ascii "Content-Type: " ++ mime

def response (status mime : List u8) (n : ℕ) (body : List u8) : List u8 :=
  crlf.intercalate [status, type_line mime, length_line n, ascii "Connection: close"]
    ++ (crlfcrlf ++ body)

/-- The part of a response behind its status line and its type. -/
def behind_type (n : ℕ) (body : List u8) : List u8 :=
  crlf ++ (length_field ++ (fmt_u n ++ (crlf ++ (ascii "Connection: close" ++ (crlfcrlf ++ body)))))

theorem response_eq (status mime : List u8) (n : ℕ) (body : List u8) :
    response status mime n body
      = status ++ (crlf ++ (type_line mime ++ behind_type n body)) := by
  simp only [response, behind_type, length_line, List.intercalate_cons_cons,
    List.intercalate_singleton, List.append_assoc]

theorem response_length (status mime : List u8) (n : ℕ) (body : List u8) :
    (response status mime n body).length
      = status.length + mime.length + (fmt_u n).length + body.length + 57 := by
  have h1 : (ascii "Content-Type: ").length = 14 := by decide
  have h2 : length_field.length = 16 := by decide
  have h3 : (ascii "Connection: close").length = 17 := by decide
  have h4 : crlf.length = 2 := by decide
  have h5 : crlfcrlf.length = 4 := by decide
  simp only [response_eq, behind_type, type_line, List.length_append, h1, h2, h3, h4, h5]
  omega

/-- The text `build_http_file_header` formats. -/
theorem build_http_file_header_eq (mime_type : List u8) (file_size : u32) (buffer_size : ℕ) :
    build_http_file_header mime_type file_size buffer_size
      = format_into (response (ascii "HTTP/1.0 200 OK") (cstr mime_type) file_size.toNat [])
          buffer_size := by
  rw [build_http_file_header, response_eq, behind_type]
  simp only [type_line, List.append_assoc]
  rfl

/-- The head of a file stays far below the limit of `wsprintf`. -/
theorem file_text_length_le {mime : List u8} (hmime : mime.length ≤ 71) (file_size : u32) :
    (response (ascii "HTTP/1.0 200 OK") mime file_size.toNat []).length ≤ 153 := by
  have hdigits := fmt_u_length_le file_size
  have hstatus : (ascii "HTTP/1.0 200 OK").length = 15 := by decide
  rw [response_length, hstatus, List.length_nil]
  omega

/-- What stands behind a printed number does not belong to it. -/
theorem takeWhile_fmt_u (n : ℕ) (s : List u8) :
    (fmt_u n ++ (crlf ++ s)).takeWhile is_digit = fmt_u n := by
  have hcr : is_digit (chr '\r') = false := by decide
  rw [List.takeWhile_append_of_pos (fun b hb => is_digit_of_mem_fmt_u hb)]
  show fmt_u n ++ List.takeWhile is_digit (chr '\r' :: chr '\n' :: s) = fmt_u n
  rw [List.takeWhile_cons_of_neg (by rw [hcr]; decide), List.append_nil]

theorem behind_type_length (n : ℕ) (body : List u8) : 18 ≤ (behind_type n body).length := by
  rw [behind_type, ← List.append_assoc, List.length_append]
  exact Nat.le_add_right_of_le (by decide)

/-- The search for the length runs past the status line and the type. -/
theorem length_scan {status mime : List u8} (hstatus : chr '\r' ∉ status)
    (hmime : chr '\r' ∉ mime) (n : ℕ) (body : List u8) (k : ℕ) :
    scan (Probe.word (crlf ++ length_field)) (response status mime n body) k
      = some (k + (status ++ (crlf ++ type_line mime)).length) := by
  have hbehind := behind_type_length n body
  have hfield : (chr '\n' :: length_field).length = 17 := by decide
  -- at the end of the status line another field follows
  have htype : (Probe.word (chr '\r' :: chr '\n' :: length_field)).read
      (chr '\r' :: ((chr '\n' :: type_line mime) ++ behind_type n body)) = some false := by
    refine Probe.word_read_false ?_ (fun h => ?_)
    · simp only [List.length_cons, List.length_append] at hfield ⊢
      omega
    · obtain ⟨z, hz⟩ := h
      have hletter : chr 'L' = chr 'T' := congrArg (fun l => List.getD l 10 0) hz
      exact absurd hletter (by decide)
  have hnocr : chr '\r' ∉ chr '\n' :: type_line mime := by
    have hname : chr '\r' ∉ ascii "Content-Type: " := by decide
    rw [List.mem_cons, type_line, List.mem_append, not_or, not_or]
    exact ⟨by decide, hname, hmime⟩
  have hfound : (Probe.word (chr '\r' :: chr '\n' :: length_field)).read (behind_type n body)
      = some true := Probe.word_read_true.mpr (List.prefix_append (crlf ++ length_field) _)
  have hcut : crlf ++ (type_line mime ++ behind_type n body)
      = chr '\r' :: ((chr '\n' :: type_line mime) ++ behind_type n body) := rfl
  have hlong : (chr '\n' :: length_field).length
      ≤ (crlf ++ (type_line mime ++ behind_type n body)).length := by
    rw [List.length_append, List.length_append]
    omega
  show scan (Probe.word (chr '\r' :: chr '\n' :: length_field)) _ k = _
  rw [response_eq, scan_word_past hstatus hlong, hcut, scan_of_false htype,
    scan_word_past hnocr (by omega), scan_of_true hfound]
  simp only [List.length_append, List.length_cons]
  have hcrlf : crlf.length = 2 := rfl
  congr 1
  omega

/-- **A client reads the number that was printed.** -/
theorem content_length_response {status mime : List u8} (hstatus : chr '\r' ∉ status)
    (hmime : chr '\r' ∉ mime) (n : ℕ) (body : List u8) :
    content_length (response status mime n body) = some n := by
  rw [content_length, length_scan hstatus hmime, Option.map_some, Nat.zero_add,
    ← List.length_append, response_eq, behind_type]
  have hdrop : (status ++ (crlf ++ (type_line mime ++ (crlf ++ (length_field ++ (fmt_u n
      ++ (crlf ++ (ascii "Connection: close" ++ (crlfcrlf ++ body)))))))))
      = (status ++ (crlf ++ type_line mime) ++ (crlf ++ length_field))
        ++ (fmt_u n ++ (crlf ++ (ascii "Connection: close" ++ (crlfcrlf ++ body)))) := by
    simp only [List.append_assoc]
  rw [hdrop, List.drop_left, takeWhile_fmt_u, number_fmt_u]

theorem not_mem_fmt_u {c : u8} (hc : is_digit c = false) (n : ℕ) : c ∉ fmt_u n := by
  intro h
  rw [is_digit_of_mem_fmt_u h] at hc
  exact absurd hc (by decide)

theorem not_mem_fmt_d {c : u8} (hc : is_digit c = false) (hminus : c ≠ chr '-') (i : ℤ) :
    c ∉ fmt_d i := by
  unfold fmt_d
  split_ifs
  · rw [List.mem_cons, not_or]
    exact ⟨hminus, not_mem_fmt_u hc _⟩
  · exact not_mem_fmt_u hc _

theorem headerLine_append {name value : List u8} (hname : HeaderLine name)
    (hvalue : chr '\r' ∉ value ∧ chr '\n' ∉ value) : HeaderLine (name ++ value) where
  ne_nil := List.append_ne_nil_of_left_ne_nil hname.ne_nil value
  no_cr h := (List.mem_append.mp h).elim hname.no_cr hvalue.1
  no_lf h := (List.mem_append.mp h).elim hname.no_lf hvalue.2

/-- **And the body that was put behind the head.** -/
theorem body_of_response {status mime : List u8} (hstatus : HeaderLine status)
    (hmime : chr '\r' ∉ mime ∧ chr '\n' ∉ mime) (n : ℕ) (body : List u8) :
    body_of (response status mime n body) = some body := by
  have htype : HeaderLine (type_line mime) :=
    headerLine_append ⟨by decide, by decide, by decide⟩ hmime
  have hlength : HeaderLine (length_line n) :=
    headerLine_append ⟨by decide, by decide, by decide⟩
      ⟨not_mem_fmt_u (by decide) n, not_mem_fmt_u (by decide) n⟩
  have hclose : HeaderLine (ascii "Connection: close") := ⟨by decide, by decide, by decide⟩
  have hline : ∀ l ∈ [status, type_line mime, length_line n, ascii "Connection: close"],
      HeaderLine l := by
    simp only [List.forall_mem_cons]
    exact ⟨hstatus, htype, hlength, hclose, fun l hl => absurd hl (by simp)⟩
  rw [body_of, response, terminator_scan (by simp) hline, Option.map_some, Nat.zero_add,
    ← List.length_append, ← List.append_assoc, List.drop_left]

/-! ## Error responses -/

def status_line (status_code : ℤ) : List u8 :=
  ascii "HTTP/1.0 " ++ fmt_d status_code ++ ascii " " ++ status_text status_code

/-- The markup of an error response. -/
def error_body (status_code : ℤ) (message : List u8) : List u8 :=
  ascii "<html><head><title>" ++ fmt_d status_code ++ ascii " " ++ status_text status_code
    ++ ascii "</title></head>" ++ ascii "<body><h1>" ++ fmt_d status_code ++ ascii " "
    ++ status_text status_code ++ ascii "</h1><p>" ++ cstr message ++ ascii "</p></body></html>"

/-- The text `build_http_error_response` formats. -/
def error_text (status_code : ℤ) (message : List u8) : List u8 :=
  response (status_line status_code) (ascii "text/html") (((cstr message).length + 100) % 2 ^ 32)
    (error_body status_code message)

theorem build_http_error_response_eq (status_code : ℤ) (message : List u8) (buffer_size : ℕ) :
    build_http_error_response status_code message buffer_size
      = format_into (error_text status_code message) buffer_size := by
  rw [build_http_error_response, error_text, response_eq, status_line]
  simp only [error_body, behind_type, List.append_assoc]
  -- the literals of the format string, cut where the lines end
  rfl

theorem error_body_length (status_code : ℤ) (message : List u8) :
    (error_body status_code message).length
      = 72 + 2 * ((fmt_d status_code).length + (status_text status_code).length)
        + (cstr message).length := by
  have h1 : (ascii "<html><head><title>").length = 19 := by decide
  have h2 : (ascii "</title></head>").length = 15 := by decide
  have h3 : (ascii "<body><h1>").length = 10 := by decide
  have h4 : (ascii "</h1><p>").length = 8 := by decide
  have h5 : (ascii "</p></body></html>").length = 18 := by decide
  have h6 : (ascii " ").length = 1 := by decide
  simp only [error_body, List.length_append, h1, h2, h3, h4, h5, h6]
  omega

/-- A response to a short message stays below the limit of `wsprintf`. -/
theorem error_text_lt_limit {status_code : ℤ} {message : List u8}
    (hcode : (fmt_d status_code).length ≤ 11) (hmessage : (cstr message).length ≤ 700) :
    (error_text status_code message).length < 1024 := by
  have hversion : (ascii "HTTP/1.0 ").length = 9 := by decide
  have hblank : (ascii " ").length = 1 := by decide
  have htype : (ascii "text/html").length = 9 := by decide
  have hstatus : (status_text status_code).length ≤ 21 := by
    unfold status_text
    split_ifs <;> decide
  have hnumber : (fmt_u (((cstr message).length + 100) % 2 ^ 32)).length ≤ 10 := by
    apply (fmt_u_length_le_iff (by decide)).mpr
    omega
  rw [error_text, response_length, error_body_length, status_line]
  simp only [List.length_append, hversion, hblank, htype]
  omega

theorem status_line_headerLine (status_code : ℤ) : HeaderLine (status_line status_code) := by
  have htext : chr '\r' ∉ status_text status_code ∧ chr '\n' ∉ status_text status_code := by
    unfold status_text
    split_ifs <;> decide
  have hcode : chr '\r' ∉ fmt_d status_code ∧ chr '\n' ∉ fmt_d status_code :=
    ⟨not_mem_fmt_d (by decide) (by decide) _, not_mem_fmt_d (by decide) (by decide) _⟩
  have hversion : HeaderLine (ascii "HTTP/1.0 ") := ⟨by decide, by decide, by decide⟩
  exact headerLine_append (headerLine_append (headerLine_append hversion hcode)
    ⟨by decide, by decide⟩) htext

/-- What a client reads of an error response that was written whole. -/
theorem framed_error_text_iff {status_code : ℤ} {message : List u8}
    (hmessage : (cstr message).length + 100 < 2 ^ 32) :
    Framed (error_text status_code message)
      ↔ (fmt_d status_code).length + (status_text status_code).length = 14 := by
  have hstatus := status_line_headerLine status_code
  have htype : chr '\r' ∉ ascii "text/html" ∧ chr '\n' ∉ ascii "text/html" :=
    ⟨by decide, by decide⟩
  have hbody := body_of_response hstatus htype (((cstr message).length + 100) % 2 ^ 32)
    (error_body status_code message)
  have hnumber := content_length_response hstatus.no_cr htype.1
    (((cstr message).length + 100) % 2 ^ 32) (error_body status_code message)
  have hlength := error_body_length status_code message
  rw [Nat.mod_eq_of_lt hmessage] at hbody hnumber
  rw [Framed, error_text, Nat.mod_eq_of_lt hmessage, hbody, hnumber]
  constructor
  · rintro ⟨body, hb, hn⟩
    rw [Option.some.injEq] at hb hn
    rw [← hb] at hn
    omega
  · intro h
    refine ⟨_, rfl, ?_⟩
    rw [Option.some.injEq]
    omega

/-- How many characters `%d` prints. -/
theorem fmt_d_length_eq_nine_iff (i : ℤ) : (fmt_d i).length = 9
    ↔ (10 ^ 8 ≤ i ∧ i < 10 ^ 9) ∨ (-10 ^ 8 < i ∧ i ≤ -10 ^ 7) := by
  have h7 := fmt_u_length_le_iff (n := i.natAbs) (k := 7) (by decide)
  have h8 := fmt_u_length_le_iff (n := i.natAbs) (k := 8) (by decide)
  have h9 := fmt_u_length_le_iff (n := i.natAbs) (k := 9) (by decide)
  unfold fmt_d
  split_ifs with hneg
  · rw [List.length_cons]
    omega
  · omega

theorem code_width_iff (status_code : ℤ) :
    (fmt_d status_code).length + (status_text status_code).length = 14
      ↔ status_code = 400 ∨ (10 ^ 8 ≤ status_code ∧ status_code < 10 ^ 9)
        ∨ (-10 ^ 8 < status_code ∧ status_code ≤ -10 ^ 7) := by
  have hdefault : (ascii "Error").length = 5 := by decide
  have hnine := fmt_d_length_eq_nine_iff status_code
  unfold status_text
  split_ifs with h400 h403 h404 h405 h500 h501
  · exact iff_of_true (by rw [h400]; decide) (Or.inl h400)
  · exact iff_of_false (by rw [h403]; decide) (by omega)
  · exact iff_of_false (by rw [h404]; decide) (by omega)
  · exact iff_of_false (by rw [h405]; decide) (by omega)
  · exact iff_of_false (by rw [h500]; decide) (by omega)
  · exact iff_of_false (by rw [h501]; decide) (by omega)
  · rw [hdefault, or_iff_right h400, ← hnine]
    omega

/-- **An error response is framed correctly** exactly when its code and its status text have
the width the estimate was made for. -/
theorem error_response_framed_iff {status_code : ℤ} {message out : List u8} {buffer_size : ℕ}
    (h : build_http_error_response status_code message buffer_size = some out)
    (hlimit : (error_text status_code message).length < 1024) :
    Framed out ↔ status_code = 400 ∨ (10 ^ 8 ≤ status_code ∧ status_code < 10 ^ 9)
      ∨ (-10 ^ 8 < status_code ∧ status_code ≤ -10 ^ 7) := by
  rw [build_http_error_response_eq] at h
  obtain ⟨rfl, -, -⟩ := format_into_bounds h
  have hmessage : (cstr message).length + 100 < 2 ^ 32 := by
    have hlength := error_body_length status_code message
    have hpart : (error_body status_code message).length
        ≤ (error_text status_code message).length := by
      simp only [error_text, response, List.length_append]
      omega
    omega
  rw [wsprintf_of_lt hlimit, framed_error_text_iff hmessage, code_width_iff]

/-- A text below the limit reaches a send buffer whole. -/
theorem build_http_error_response_whole {status_code : ℤ} {message : List u8}
    (hlimit : (error_text status_code message).length < 1024) {buffer_size : ℕ}
    (hsize : 1024 ≤ buffer_size) : build_http_error_response status_code message buffer_size
      = some (error_text status_code message) := by
  rw [build_http_error_response_eq, format_into_of_limit _ hsize, wsprintf_of_lt hlimit]

/-- A bad request. -/
theorem error_response_framed_bad_request : Framed (error_text 400 (ascii "Bad Request")) := by
  have hlimit : (error_text 400 (ascii "Bad Request")).length < 1024 :=
    error_text_lt_limit (by decide) (by decide)
  have hiff := error_response_framed_iff
    (build_http_error_response_whole hlimit (le_refl _)) hlimit
  exact hiff.mpr (Or.inl rfl)

/-- A missing file: 114 bytes are announced, 110 follow. -/
theorem not_error_response_framed :
    ¬ ∀ (status_code : ℤ) (message out : List u8) (buffer_size : ℕ),
      build_http_error_response status_code message buffer_size = some out →
      (error_text status_code message).length < 1024 → Framed out := by
  intro h
  have hlimit : (error_text 404 (ascii "File Not Found")).length < 1024 :=
    error_text_lt_limit (by decide) (by decide)
  have hframed := h 404 (ascii "File Not Found") _ 1024
    (build_http_error_response_whole hlimit (le_refl _)) hlimit
  have hwidth := (framed_error_text_iff (by decide)).mp hframed
  exact absurd hwidth (by decide)

end W32HttpServer.ResponseFraming

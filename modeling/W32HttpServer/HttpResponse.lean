/-
The response side of server_http.c: content types and the builders of response heads.

A content type is found by the extension first and by the first bytes of the file only
when the extension is missing or unknown. The four builders format one text each and then
make the same test, so they share `format_into`: `none` is the return value `-1`, and
`some out` is a return of `0` with `out` in the buffer and its length in
`*response_length`.
-/
import W32HttpServer.Common

set_option autoImplicit false

namespace W32HttpServer.HttpResponse

open W32HttpServer.Common

/-! ## Content types -/

/-- The four bytes occupy disjoint bits of the word, so the `|` of the source is a sum. -/
def magic16 (file_data : List u8) : ℕ :=
  (file_data.getD 0 0).toNat + (file_data.getD 1 0).toNat * 2 ^ 8

/-- The same for four bytes. -/
def magic32 (file_data : List u8) : ℕ :=
  (file_data.getD 0 0).toNat + (file_data.getD 1 0).toNat * 2 ^ 8
    + (file_data.getD 2 0).toNat * 2 ^ 16 + (file_data.getD 3 0).toNat * 2 ^ 24

/-- `strncmp(data, lit, strlen(lit)) == 0` on data at least that long. -/
def starts_with (data lit : List u8) : Bool := data.take lit.length == lit

/-- What counts as printable: the blank up to the tilde, and tab, LF and CR. -/
def is_text_byte (c : u8) : Bool :=
  (32 ≤ c && c ≤ 126) || c == chr '\t' || c == chr '\n' || c == chr '\r'

/-- `file_data` holds the `data_size` bytes the caller read. -/
def get_mime_type_from_magic (file_data : List u8) : Option (List u8) :=
  let data_size := file_data.length
  let magic := magic32 file_data
  let magic16 := magic16 file_data
  if data_size < 4 then none
  else if magic = 0x474E5089 then some (ascii "image/png")
  else if magic16 = 0xD8FF then some (ascii "image/jpeg")
  else if magic = 0x38464947 then some (ascii "image/gif")
  else if magic = 0x002A4949 ∨ magic = 0x2A004D4D then some (ascii "image/tiff")
  else if magic16 = 0x4D42 then some (ascii "image/bmp")
  else if magic = 0x00000100 then some (ascii "image/x-icon")
  else if magic = 0x46445025 then some (ascii "application/pdf")
  else if magic = 0x504B0304 ∨ magic = 0x504B0506 then some (ascii "application/zip")
  else if magic16 = 0x8B1F then some (ascii "application/gzip")
  else if magic = 0x21726172 then some (ascii "application/x-rar")
  else if magic = 0x04034B50 then some (ascii "application/zip")
  else if magic = 0x5367674F then some (ascii "application/ogg")
  else if magic = 0x43614C66 then some (ascii "audio/flac")
  else if magic16 = 0xFBFF ∨ magic16 = 0xF3FF then some (ascii "audio/mpeg")
  else if 8 ≤ data_size ∧ starts_with (file_data.drop 4) (ascii "ftyp") = true then
    some (ascii "video/mp4")
  else if 5 ≤ data_size ∧ starts_with file_data (ascii "<?xml") = true then
    some (ascii "text/xml")
  else if 15 ≤ data_size ∧ starts_with file_data (ascii "<!DOCTYPE html") = true then
    some (ascii "text/html")
  else if 6 ≤ data_size ∧ starts_with file_data (ascii "<html") = true then
    some (ascii "text/html")
  else
    let check_size := if data_size > 512 then 512 else data_size
    let printable_count := (file_data.take check_size).countP is_text_byte
    if printable_count * 100 / check_size > 95 then some (ascii "text/plain") else none

/-- What is said of a file of which nothing is known. -/
def octet_stream : List u8 := ascii "application/octet-stream"

/-- The extensions of `get_mime_type_from_extension`, in the order it tries them. -/
def extension_types : List (List u8 × List u8) :=
  [(ascii ".html", ascii "text/html"), (ascii ".htm", ascii "text/html"),
    (ascii ".css", ascii "text/css"), (ascii ".js", ascii "application/javascript"),
    (ascii ".json", ascii "application/json"), (ascii ".xml", ascii "text/xml"),
    (ascii ".txt", ascii "text/plain"), (ascii ".png", ascii "image/png"),
    (ascii ".jpg", ascii "image/jpeg"), (ascii ".jpeg", ascii "image/jpeg"),
    (ascii ".gif", ascii "image/gif"), (ascii ".bmp", ascii "image/bmp"),
    (ascii ".ico", ascii "image/x-icon"), (ascii ".svg", ascii "image/svg+xml"),
    (ascii ".pdf", ascii "application/pdf"), (ascii ".doc", ascii "application/msword"),
    (ascii ".docx",
      ascii "application/vnd.openxmlformats-officedocument.wordprocessingml.document"),
    (ascii ".zip", ascii "application/zip"), (ascii ".rar", ascii "application/x-rar"),
    (ascii ".gz", ascii "application/gzip"), (ascii ".tar", ascii "application/x-tar"),
    (ascii ".mp3", ascii "audio/mpeg"), (ascii ".wav", ascii "audio/wav"),
    (ascii ".ogg", ascii "audio/ogg"), (ascii ".flac", ascii "audio/flac"),
    (ascii ".mp4", ascii "video/mp4"), (ascii ".avi", ascii "video/x-msvideo"),
    (ascii ".mov", ascii "video/quicktime"), (ascii ".wmv", ascii "video/x-ms-wmv")]

/-- The table is asked without regard to case. No extension is like one that is not in it. -/
def get_mime_type_from_extension (file_extension : Option (List u8)) : List u8 :=
  match file_extension with
  | none => octet_stream
  | some ext =>
      match extension_types.find? (fun e => lstrcmpi ext e.1) with
      | some e => e.2
      | none => octet_stream

/-- The tail of the path that starts at its last dot. -/
def file_ext : List u8 → Option (List u8)
  | [] => none
  | c :: p =>
      match file_ext p with
      | some e => some e
      | none => if c = chr '.' then some (c :: p) else none

/-- The extension is asked first, and the content only where the table says nothing of it. -/
def detect_mime_type (file_path file_data : List u8) : List u8 :=
  let mime := get_mime_type_from_extension (file_ext (cstr file_path))
  if lstrcmp mime octet_stream = false then mime
  else (get_mime_type_from_magic file_data).getD octet_stream

/-! ## Response heads -/

/-- What the builders do once their text is formatted. -/
def format_into (text : List u8) (buffer_size : ℕ) : Option (List u8) :=
  if buffer_size = 0 then none
  else if buffer_size ≤ (wsprintf text).length then none
  else some (wsprintf text)

/-- The codes the server uses, and one text for all others. -/
def status_text (status_code : ℤ) : List u8 :=
  if status_code = 400 then ascii "Bad Request"
  else if status_code = 403 then ascii "Forbidden"
  else if status_code = 404 then ascii "Not Found"
  else if status_code = 405 then ascii "Method Not Allowed"
  else if status_code = 500 then ascii "Internal Server Error"
  else if status_code = 501 then ascii "Not Implemented"
  else ascii "Error"

/-- An error page and its head. -/
def build_http_error_response (status_code : ℤ) (message : List u8) (buffer_size : ℕ) :
    Option (List u8) :=
  let code := fmt_d status_code
  let text := status_text status_code
  let msg := cstr message
  -- the length announced is an approximation, `lstrlen(message) + 100`
  format_into
    (ascii "HTTP/1.0 " ++ code ++ ascii " " ++ text ++ ascii "\r\n"
      ++ ascii "Content-Type: text/html\r\n"
      ++ ascii "Content-Length: " ++ fmt_u ((msg.length + 100) % 2 ^ 32) ++ ascii "\r\n"
      ++ ascii "Connection: close\r\n" ++ ascii "\r\n"
      ++ ascii "<html><head><title>" ++ code ++ ascii " " ++ text ++ ascii "</title></head>"
      ++ ascii "<body><h1>" ++ code ++ ascii " " ++ text ++ ascii "</h1><p>" ++ msg
      ++ ascii "</p></body></html>")
    buffer_size

/-- The head of a file, which goes out in front of it. -/
def build_http_file_header (mime_type : List u8) (file_size : u32) (buffer_size : ℕ) :
    Option (List u8) :=
  format_into
    (ascii "HTTP/1.0 200 OK\r\n" ++ ascii "Content-Type: " ++ cstr mime_type ++ ascii "\r\n"
      ++ ascii "Content-Length: " ++ fmt_u file_size.toNat ++ ascii "\r\n"
      ++ ascii "Connection: close\r\n" ++ ascii "\r\n")
    buffer_size

/-- The location is put in as it is, and a second time into the page. -/
def build_http_redirect_response (location : List u8) (buffer_size : ℕ) : Option (List u8) :=
  format_into
    (ascii "HTTP/1.0 301 Moved Permanently\r\n" ++ ascii "Location: " ++ cstr location
      ++ ascii "\r\n" ++ ascii "Content-Type: text/html\r\n" ++ ascii "Content-Length: 0\r\n"
      ++ ascii "Connection: close\r\n" ++ ascii "\r\n")
    buffer_size

/-- No Content-Length: the end of a listing is the end of the connection. -/
def build_http_listing_header (buffer_size : ℕ) : Option (List u8) :=
  format_into
    (ascii "HTTP/1.0 200 OK\r\n" ++ ascii "Content-Type: text/html\r\n"
      ++ ascii "Connection: close\r\n" ++ ascii "\r\n")
    buffer_size

/-! ## The builders into a send buffer -/

/-- A text that reaches a buffer larger than `wsprintf`'s limit is never refused. -/
theorem format_into_of_limit (text : List u8) {buffer_size : ℕ} (h : 1024 ≤ buffer_size) :
    format_into text buffer_size = some (wsprintf text) := by
  have hlen := wsprintf_length_le text
  rw [format_into, if_neg (by omega), if_neg (by omega)]

/-- What was formatted is the text, cut at the limit of `wsprintf`, and fits. -/
theorem format_into_bounds {text out : List u8} {buffer_size : ℕ}
    (h : format_into text buffer_size = some out) :
    out = wsprintf text ∧ out.length < buffer_size ∧ out.length ≤ 1023 := by
  unfold format_into at h
  split_ifs at h with h0 hlen
  rw [Option.some.injEq] at h
  subst h
  exact ⟨rfl, by omega, wsprintf_length_le text⟩

/-- A text that is not empty does not become so in the buffer. -/
theorem format_into_ne_nil {text out : List u8} {buffer_size : ℕ} (ht : text ≠ [])
    (h : format_into text buffer_size = some out) : out ≠ [] := by
  obtain ⟨rfl, -, -⟩ := format_into_bounds h
  rw [wsprintf, ne_eq, List.take_eq_nil_iff, not_or]
  exact ⟨by decide, ht⟩

/-- The head of an error is not empty, and no longer than `wsprintf` makes it. -/
theorem build_http_error_response_bounds {code : ℤ} {message out : List u8} {buffer_size : ℕ}
    (h : build_http_error_response code message buffer_size = some out) :
    out ≠ [] ∧ out.length ≤ 1023 :=
  ⟨format_into_ne_nil (by simp [ascii]) h, (format_into_bounds h).2.2⟩

/-- The same of the head of a file. -/
theorem build_http_file_header_bounds {mime_type out : List u8} {file_size : u32}
    {buffer_size : ℕ} (h : build_http_file_header mime_type file_size buffer_size = some out) :
    out ≠ [] ∧ out.length ≤ 1023 :=
  ⟨format_into_ne_nil (by simp [ascii]) h, (format_into_bounds h).2.2⟩

/-- The same of a redirect. -/
theorem build_http_redirect_response_bounds {location out : List u8} {buffer_size : ℕ}
    (h : build_http_redirect_response location buffer_size = some out) :
    out ≠ [] ∧ out.length ≤ 1023 :=
  ⟨format_into_ne_nil (by simp [ascii]) h, (format_into_bounds h).2.2⟩

/-- The same of the head of a listing. -/
theorem build_http_listing_header_bounds {out : List u8} {buffer_size : ℕ}
    (h : build_http_listing_header buffer_size = some out) : out ≠ [] ∧ out.length ≤ 1023 :=
  ⟨format_into_ne_nil (by simp [ascii]) h, (format_into_bounds h).2.2⟩

end W32HttpServer.HttpResponse

/-
The head of every response `serve_http_request` returns.

Each of its exits hands one text to `wsprintf` and returns what the builder makes of it. A
`head_t` is what that text is made from, and `serve_http_request_head` finds the one of the
exit taken: `serve_http_request_head_answer` gives back the return value and the bytes of
`out` from it, for any size of the buffer.

What can make a head long is the message, the location and the type. The messages are the
function's own, a location is a request path that fitted its array and one slash, and a type
is an entry of a table, so the longest head has less than half of what `wsprintf` prints.
Nothing is cut off, whatever the request and the file system (`every_head_sendable`).
-/
import W32HttpServer.Common
import W32HttpServer.HttpRequest
import W32HttpServer.RequestText
import W32HttpServer.HttpPath
import W32HttpServer.HttpResponse
import W32HttpServer.Platform
import W32HttpServer.Context
import W32HttpServer.DirStream
import W32HttpServer.Serve
import W32HttpServer.Reflection
import W32HttpServer.MagicNumbers
import W32HttpServer.ResponseFraming

set_option autoImplicit false

namespace W32HttpServer.SendableHead

open W32HttpServer.Common W32HttpServer.HttpRequest W32HttpServer.RequestText
open W32HttpServer.HttpPath
open W32HttpServer.HttpResponse W32HttpServer.Platform W32HttpServer.Context
open W32HttpServer.DirStream W32HttpServer.Serve W32HttpServer.Reflection
open W32HttpServer.MagicNumbers W32HttpServer.ResponseFraming

variable {σ : Type}

/-! ## Heads -/

inductive head_t
  | error (status_code : ℤ) (message : List u8)
  | redirect (location : List u8)
  | listing
  | file (mime_type : List u8) (file_size : u32)
  deriving DecidableEq

/-- The builder a head is handed to. -/
def head_t.build : head_t → ℕ → Option (List u8)
  | .error status_code message, out_size => build_http_error_response status_code message out_size
  | .redirect location, out_size => build_http_redirect_response location out_size
  | .listing, out_size => build_http_listing_header out_size
  | .file mime_type file_size, out_size => build_http_file_header mime_type file_size out_size

/-- 1 when a body source is left behind the head. -/
def head_t.rc : head_t → ℤ
  | .error _ _ => 0
  | .redirect _ => 0
  | .listing => 1
  | .file _ _ => 1

/-- The return value, and the bytes of `out`. -/
def head_t.answer (head : head_t) (out_size : ℕ) : ℤ × List u8 :=
  match head.build out_size with
  | some out => (head.rc, out)
  | none => (-1, [])

def listing_text : List u8 :=
  ascii "HTTP/1.0 200 OK\r\n" ++ ascii "Content-Type: text/html\r\n"
    ++ ascii "Connection: close\r\n" ++ ascii "\r\n"

/-- The whole text, before `wsprintf` cuts it. -/
def head_t.text : head_t → List u8
  | .error status_code message => error_text status_code message
  | .redirect location => redirect_text location
  | .listing => listing_text
  | .file mime_type file_size =>
      response (ascii "HTTP/1.0 200 OK") (cstr mime_type) file_size.toNat []

theorem head_t.build_eq (head : head_t) (out_size : ℕ) :
    head.build out_size = format_into head.text out_size := by
  cases head with
  | error status_code message => exact build_http_error_response_eq status_code message out_size
  | redirect location => rfl
  | listing => rfl
  | file mime_type file_size => exact build_http_file_header_eq mime_type file_size out_size

/-! ## The head of the exit taken -/

/-- `serve_file` up to its builder. -/
def serve_file_head (fs : FileSystem σ) (full_path : List u8) (s : σ) : head_t :=
  match fs.CreateFile s full_path with
  | (none, _) => .error 500 (ascii "Cannot read file")
  | (some h, s) =>
      let (file_size, s) := fs.GetFileSize s (.of h)
      if file_size = INVALID_FILE_SIZE then .error 500 (ascii "Cannot read file")
      else .file (detect_mime_type full_path ((fs.ReadFile s (.of h) 512).1.getD [])) file_size

def serve_directory_head (fs : FileSystem σ) (url_path full_path : List u8) (path_len : ℕ)
    (s : σ) : head_t :=
  if url_path.getD (path_len - 1) 0 ≠ chr '/' then .redirect (location_text url_path)
  else
    match fs.GetFileAttributes s (index_path full_path) with
    | (index_attributes, s) =>
        if index_attributes ≠ INVALID_FILE_ATTRIBUTES then
          serve_file_head fs (index_path full_path) s
        else if (pattern full_path).length ≥ MAX_PATH then .error 500 (ascii "Path too long")
        else .listing

def serve_http_request_head (document_root : List u8) (fs : FileSystem σ) (req : http_request_t)
    (s : σ) : head_t :=
  if req.method ≠ http_method_t.HTTP_GET.num then .error 405 (ascii "Method Not Allowed")
  else if path_len req ≤ 0 ∨ path_len req ≥ MAX_PATH then .error 400 (ascii "Bad Request")
  else if (resolve_file_path document_root req.path_bytes 260).1 ≠ 0 then
    .error 403 (ascii "Forbidden")
  else
    match fs.GetFileAttributes s (full_path document_root req) with
    | (file_attributes, s) =>
        if file_attributes = INVALID_FILE_ATTRIBUTES then .error 404 (ascii "File Not Found")
        else if file_attributes &&& FILE_ATTRIBUTE_DIRECTORY ≠ 0 then
          serve_directory_head fs req.path_bytes (full_path document_root req)
            (path_len req).toNat s
        else serve_file_head fs (full_path document_root req) s

/-- What a caller sees of a result. -/
def answer (r : serve_result σ) : ℤ × List u8 := (r.rc, r.out)

/-- The exits that return what their builder returns. -/
theorem inline_response_answer (head : head_t) (h0 : head.rc = 0) (out_size : ℕ)
    (ctx : stream_state_t) (s : σ) :
    answer (inline_response (head.build out_size) ctx s) = head.answer out_size := by
  rw [head_t.answer, h0]
  rcases head.build out_size with _ | out
  · rfl
  · rfl

theorem serve_file_head_answer (fs : FileSystem σ) (full_path : List u8) (out_size : ℕ)
    (ctx : stream_state_t) (s : σ) :
    answer (serve_file fs full_path out_size ctx s)
      = (serve_file_head fs full_path s).answer out_size := by
  have herror : ∀ s' : σ, answer (inline_response
      (build_http_error_response 500 (ascii "Cannot read file") out_size) ctx s')
      = (head_t.error 500 (ascii "Cannot read file")).answer out_size :=
    fun s' => inline_response_answer (.error 500 (ascii "Cannot read file")) rfl out_size ctx s'
  rw [serve_file, serve_file_head]
  rcases fs.CreateFile s full_path with ⟨_ | h, s1⟩
  · exact herror s1
  · dsimp only
    by_cases hsize : (fs.GetFileSize s1 (.of h)).1 = INVALID_FILE_SIZE
    · rw [if_pos hsize, if_pos hsize]
      apply herror
    · rw [if_neg hsize, if_neg hsize, head_t.answer, head_t.build]
      rcases build_http_file_header _ _ out_size with _ | out
      · rfl
      · rfl

theorem serve_directory_head_answer (fs : FileSystem σ) (url_path full_path : List u8)
    (path_len out_size : ℕ) (ctx : stream_state_t) (s : σ) :
    answer (serve_directory fs url_path full_path path_len out_size ctx s)
      = (serve_directory_head fs url_path full_path path_len s).answer out_size := by
  rw [serve_directory, serve_directory_head]
  by_cases hslash : url_path.getD (path_len - 1) 0 ≠ chr '/'
  · rw [if_pos hslash, if_pos hslash]
    exact inline_response_answer (.redirect (location_text url_path)) rfl out_size ctx s
  rw [if_neg hslash, if_neg hslash]
  dsimp only
  by_cases hindex : (fs.GetFileAttributes s (index_path full_path)).1 ≠ INVALID_FILE_ATTRIBUTES
  · rw [if_pos hindex, if_pos hindex, serve_file_head_answer]
  rw [if_neg hindex, if_neg hindex]
  by_cases hlong : (pattern full_path).length ≥ MAX_PATH
  · rw [if_pos hlong, if_pos hlong]
    exact inline_response_answer (.error 500 (ascii "Path too long")) rfl out_size ctx _
  rw [if_neg hlong, if_neg hlong, head_t.answer, head_t.build]
  rcases build_http_listing_header out_size with _ | out
  · rfl
  · rfl

theorem serve_http_request_head_answer (document_root : List u8) (fs : FileSystem σ)
    (ctx : stream_state_t) (req : http_request_t) {out_size : ℕ} (hsize : out_size ≠ 0) (s : σ) :
    answer (serve_http_request document_root fs ctx req out_size s)
      = (serve_http_request_head document_root fs req s).answer out_size := by
  have herror : ∀ (code : ℤ) (message : List u8) (s' : σ), answer (inline_response
      (build_http_error_response code message out_size) (clean_slate ctx) s')
      = (head_t.error code message).answer out_size :=
    fun code message s' =>
      inline_response_answer (.error code message) rfl out_size (clean_slate ctx) s'
  rw [serve_http_request, if_neg hsize, serve_http_request_head]
  by_cases hget : req.method ≠ http_method_t.HTTP_GET.num
  · rw [if_pos hget, if_pos hget]
    apply herror
  rw [if_neg hget, if_neg hget]
  by_cases hlen : path_len req ≤ 0 ∨ path_len req ≥ MAX_PATH
  · rw [if_pos hlen, if_pos hlen]
    apply herror
  rw [if_neg hlen, if_neg hlen]
  by_cases hres : (resolve_file_path document_root req.path_bytes 260).1 ≠ 0
  · rw [if_pos hres, if_pos hres]
    apply herror
  rw [if_neg hres, if_neg hres]
  dsimp only
  by_cases hvalid : (fs.GetFileAttributes s (full_path document_root req)).1
      = INVALID_FILE_ATTRIBUTES
  · rw [if_pos hvalid, if_pos hvalid]
    apply herror
  rw [if_neg hvalid, if_neg hvalid]
  by_cases hdir : (fs.GetFileAttributes s (full_path document_root req)).1
      &&& FILE_ATTRIBUTE_DIRECTORY ≠ 0
  · rw [if_pos hdir, if_pos hdir, serve_directory_head_answer]
  · rw [if_neg hdir, if_neg hdir, serve_file_head_answer]

/-! ## How long a head can be -/

/-- The heads of the exits: a status with a message of the function's own, a location of an
array's length and a slash, and a type of the table. -/
def head_t.Short : head_t → Prop
  | .error status_code message =>
      status_code ∈ ([400, 403, 404, 405, 500] : List ℤ) ∧ (cstr message).length ≤ 18
  | .redirect location => (cstr location).length ≤ MAX_PATH
  | .listing => True
  | .file mime_type _ => mime_type ∈ mime_types

theorem serve_file_head_short (fs : FileSystem σ) (full_path : List u8) (s : σ) :
    (serve_file_head fs full_path s).Short := by
  have herror : (head_t.error 500 (ascii "Cannot read file")).Short := ⟨by decide, by decide⟩
  rw [serve_file_head]
  rcases fs.CreateFile s full_path with ⟨_ | h, s1⟩
  · exact herror
  · dsimp only
    split_ifs
    · exact herror
    · exact detect_mime_type_mem full_path _

theorem serve_directory_head_short (fs : FileSystem σ) {url_path : List u8}
    (hurl : (cstr url_path).length < MAX_PATH) (full_path : List u8) (path_len : ℕ) (s : σ) :
    (serve_directory_head fs url_path full_path path_len s).Short := by
  rw [serve_directory_head]
  dsimp only
  split_ifs
  · show (cstr (location_text url_path)).length ≤ MAX_PATH
    have hlocation := location_text_length_le url_path
    omega
  · apply serve_file_head_short
  · exact ⟨by decide, by decide⟩
  · trivial

theorem serve_http_request_head_short (document_root : List u8) (fs : FileSystem σ)
    (req : http_request_t) (s : σ) :
    (serve_http_request_head document_root fs req s).Short := by
  rw [serve_http_request_head]
  dsimp only
  split_ifs with hget hlen hres hvalid hdir
  · exact ⟨by decide, by decide⟩
  · exact ⟨by decide, by decide⟩
  · exact ⟨by decide, by decide⟩
  · exact ⟨by decide, by decide⟩
  · have hresolves : Resolves document_root req :=
      ⟨not_not.mp hget, by omega, by omega, not_not.mp hres⟩
    exact serve_directory_head_short fs (path_bytes_length_lt hresolves) _ _ _
  · apply serve_file_head_short

/-- **Nothing is cut off.** -/
theorem head_t.Short.text_lt_limit {head : head_t} (h : head.Short) : head.text.length < 1024 := by
  cases head with
  | error status_code message =>
      obtain ⟨hcode, hmessage⟩ := h
      have hdigits : ∀ c ∈ ([400, 403, 404, 405, 500] : List ℤ), (fmt_d c).length ≤ 11 := by
        decide
      exact error_text_lt_limit (hdigits _ hcode) (by omega)
  | redirect location =>
      have hlocation : (cstr location).length ≤ 260 := h
      show (redirect_text location).length < 1024
      rw [redirect_text_length]
      omega
  | listing => decide
  | file mime_type file_size =>
      have hmime := (mime_type_text _ h).2
      have hle := file_text_length_le (le_trans (cstr_length_le mime_type) hmime) file_size
      show (response _ _ _ _).length < 1024
      omega

/-! ## A head as a string -/

theorem nul_not_mem_status_text (status_code : ℤ) : 0 ∉ status_text status_code := by
  unfold status_text
  split_ifs <;> decide

theorem nul_not_mem_response {status mime body : List u8} (hstatus : 0 ∉ status)
    (hmime : 0 ∉ mime) (n : ℕ) (hbody : 0 ∉ body) : 0 ∉ response status mime n body := by
  have h1 : 0 ∉ ascii "Content-Type: " := by decide
  have h2 : 0 ∉ length_field := by decide
  have h3 : 0 ∉ ascii "Connection: close" := by decide
  have h4 : 0 ∉ crlf := by decide
  have h5 : 0 ∉ crlfcrlf := by decide
  have hnumber : 0 ∉ fmt_u n := not_mem_fmt_u (by decide) n
  simp only [response_eq, behind_type, type_line, List.mem_append, not_or]
  exact ⟨hstatus, h4, ⟨h1, hmime⟩, h4, h2, hnumber, h4, h3, h5, hbody⟩

/-- Every string the builders are given ends where its NUL is, so none reaches the text. -/
theorem head_t.nul_not_mem_text (head : head_t) : 0 ∉ head.text := by
  cases head with
  | error status_code message =>
      -- what `%d` and `%s` print, and the literals between them
      have hcode := not_mem_fmt_d (c := 0) (by decide) (by decide) status_code
      have htext := nul_not_mem_status_text status_code
      have hmessage := cstr_no_nul message
      have hversion : 0 ∉ ascii "HTTP/1.0 " := by decide
      have hblank : 0 ∉ ascii " " := by decide
      have htitle : 0 ∉ ascii "<html><head><title>" := by decide
      have hbody : 0 ∉ ascii "</title></head>" := by decide
      have hheading : 0 ∉ ascii "<body><h1>" := by decide
      have hparagraph : 0 ∉ ascii "</h1><p>" := by decide
      have hend : 0 ∉ ascii "</p></body></html>" := by decide
      apply nul_not_mem_response
      · simp only [status_line, List.append_assoc, List.mem_append, not_or]
        exact ⟨hversion, hcode, hblank, htext⟩
      · decide
      · simp only [error_body, List.append_assoc, List.mem_append, not_or]
        exact ⟨htitle, hcode, hblank, htext, hbody, hheading, hcode, hblank, htext, hparagraph,
          hmessage, hend⟩
  | redirect location =>
      have hstatus : 0 ∉ ascii "HTTP/1.0 301 Moved Permanently\r\n" := by decide
      have hname : 0 ∉ ascii "Location: " := by decide
      have hline : 0 ∉ ascii "\r\n" := by decide
      have htype : 0 ∉ ascii "Content-Type: text/html\r\n" := by decide
      have hlength : 0 ∉ ascii "Content-Length: 0\r\n" := by decide
      have hclose : 0 ∉ ascii "Connection: close\r\n" := by decide
      show 0 ∉ redirect_text location
      simp only [redirect_text, List.append_assoc, List.mem_append, not_or]
      exact ⟨hstatus, hname, cstr_no_nul location, hline, htype, hlength, hclose, hline⟩
  | listing => decide
  | file mime_type file_size =>
      exact nul_not_mem_response (by decide) (cstr_no_nul mime_type) _ List.not_mem_nil

/-- No head is empty: each of them ends in a line end, or in markup. -/
theorem head_t.text_ne_nil (head : head_t) : head.text ≠ [] := by
  cases head with
  | error status_code message => simp [head_t.text, error_text, response, crlfcrlf, ascii]
  | redirect location => simp [head_t.text, redirect_text, ascii]
  | listing => decide
  | file mime_type file_size => simp [head_t.text, response, crlfcrlf, ascii]

/-! ## Sendable -/

/-- A head that `post_send` and `send_all` take: the text is in `out` as a whole, a string
of as many characters as `*out_len` says, and of a size the send buffer has. -/
structure Sendable (head : head_t) (r : serve_result σ) : Prop where
  rc : r.rc = 0 ∨ r.rc = 1
  built : head.build HTTP_SEND_BUFFER_SIZE = some r.out
  below_limit : head.text.length < 1024
  whole : r.out = head.text
  string : cstr (r.out ++ [0]) = r.out
  nonempty : 1 ≤ r.out.length
  fits : r.out.length < HTTP_SEND_BUFFER_SIZE

/-- A head below the limit is sendable. -/
theorem sendable_of_answer {head : head_t} {r : serve_result σ}
    (hanswer : answer r = head.answer HTTP_SEND_BUFFER_SIZE)
    (hlimit : head.text.length < 1024) : Sendable head r := by
  have hbuild : head.build HTTP_SEND_BUFFER_SIZE = some head.text := by
    rw [head.build_eq, format_into_of_limit _ (by decide), wsprintf_of_lt hlimit]
  rw [head_t.answer, hbuild] at hanswer
  have hrc : r.rc = head.rc := congrArg Prod.fst hanswer
  have hout : r.out = head.text := congrArg Prod.snd hanswer
  have hsize : HTTP_SEND_BUFFER_SIZE = 8192 := rfl
  refine ⟨?_, by rw [hbuild, hout], hlimit, hout, ?_, ?_, ?_⟩
  · rw [hrc]
    cases head with
    | error status_code message => exact Or.inl rfl
    | redirect location => exact Or.inl rfl
    | listing => exact Or.inr rfl
    | file mime_type file_size => exact Or.inr rfl
  · rw [cstr_append_nul, hout, cstr_of_no_nul head.nul_not_mem_text]
  · rw [hout]
    exact List.length_pos_iff.mpr head.text_ne_nil
  · rw [hout]
    omega

/-- **Every response head is sendable**, for every request, document root and file system,
and from any state of the stream. Whatever the exit, the head is one of the four the builders make,
and they are short enough for their buffer and hold no NUL. -/
theorem every_head_sendable (document_root : List u8) (fs : FileSystem σ) (ctx : stream_state_t)
    (req : http_request_t) (s : σ) :
    Sendable (serve_http_request_head document_root fs req s)
      (serve_http_request document_root fs ctx req HTTP_SEND_BUFFER_SIZE s) :=
  sendable_of_answer (serve_http_request_head_answer document_root fs ctx req (by decide) s)
    (serve_http_request_head_short document_root fs req s).text_lt_limit

end W32HttpServer.SendableHead

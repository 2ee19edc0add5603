/-
From a parsed request to a response: `serve_http_request` and `stream_next_chunk`
of server_win32.c.

`serve_http_request` answers with an inline response, or with a head and a body source
left in the context. Its file branch and its directory branch are functions of their own
here, cut at the comments "Handle directory" and "Regular file". The result carries the
return value, the bytes of `out` up to `*out_len`, the streaming state and the state the
file system is left in.

The local arrays `location`, `index_path` and `pattern` hold the whole formatted text:
whether it fits the array is a question about the length of that text.

`Served` lists the outcomes with the conditions each is reached under, and
`serve_http_request_served` says there are no others: the statements about responses
case on it and never open the function again.
-/
import W32HttpServer.Common
import W32HttpServer.HttpRequest
import W32HttpServer.HttpPath
import W32HttpServer.HttpResponse
import W32HttpServer.Platform
import W32HttpServer.Context
import W32HttpServer.DirStream

set_option autoImplicit false

namespace W32HttpServer.Serve

open W32HttpServer.Common W32HttpServer.HttpRequest W32HttpServer.HttpPath
open W32HttpServer.HttpResponse W32HttpServer.Platform W32HttpServer.Context
open W32HttpServer.DirStream

variable {σ : Type}

/-! ## `serve_http_request` -/

structure serve_result (σ : Type) where
  rc : ℤ
  out : List u8
  ctx : stream_state_t
  fs_state : σ

/-- `return build_http_..._response(...)`: the builder's return value is the function's. -/
def inline_response (r : Option (List u8)) (ctx : stream_state_t) (s : σ) : serve_result σ :=
  match r with
  | some out => ⟨0, out, ctx, s⟩
  | none => ⟨-1, [], ctx, s⟩

/-- "Start from a clean slate". -/
def clean_slate (ctx : stream_state_t) : stream_state_t :=
  { ctx with
    stream_kind := .STREAM_NONE
    stream_file := .INVALID_HANDLE_VALUE
    stream_remaining := 0
    dir_find := .INVALID_HANDLE_VALUE
    dir_has_pending := false }

/-- Regular file: open it, size it, sniff it, rewind it. -/
def serve_file (fs : FileSystem σ) (full_path : List u8) (out_size : ℕ) (ctx : stream_state_t)
    (s : σ) : serve_result σ :=
  match fs.CreateFile s full_path with
  | (none, s) =>
      inline_response (build_http_error_response 500 (ascii "Cannot read file") out_size) ctx s
  | (some h, s) =>
      let (file_size, s) := fs.GetFileSize s (.of h)
      if file_size = INVALID_FILE_SIZE then
        let s := fs.CloseHandle s (.of h)
        inline_response (build_http_error_response 500 (ascii "Cannot read file") out_size) ctx s
      else
        -- the first 512 bytes decide the type, and are sent again with the body
        let (peek, s) := fs.ReadFile s (.of h) 512
        let s := fs.SetFilePointer s (.of h) 0
        let mime_type := detect_mime_type full_path (peek.getD [])
        match build_http_file_header mime_type file_size out_size with
        | none => ⟨-1, [], ctx, fs.CloseHandle s (.of h)⟩
        | some out =>
            ⟨1, out, { ctx with
              stream_file := .of h
              stream_remaining := file_size
              stream_kind := .STREAM_FILE }, s⟩

def location_text (url_path : List u8) : List u8 := wsprintf (cstr url_path ++ ascii "/")

def index_path (full_path : List u8) : List u8 := wsprintf (full_path ++ ascii "\\index.html")

def pattern (full_path : List u8) : List u8 := wsprintf (full_path ++ ascii "\\*")

/-- A directory: redirect to the slash, serve its index page, or list it. -/
def serve_directory (fs : FileSystem σ) (url_path full_path : List u8) (path_len out_size : ℕ)
    (ctx : stream_state_t) (s : σ) : serve_result σ :=
  if url_path.getD (path_len - 1) 0 ≠ chr '/' then
    inline_response (build_http_redirect_response (location_text url_path) out_size) ctx s
  else
    match fs.GetFileAttributes s (index_path full_path) with
    | (index_attributes, s) =>
        -- whatever has the name is taken for the page, a directory too
        if index_attributes ≠ INVALID_FILE_ATTRIBUTES then
          serve_file fs (index_path full_path) out_size ctx s
        else if (pattern full_path).length ≥ MAX_PATH then
          inline_response (build_http_error_response 500 (ascii "Path too long") out_size) ctx s
        else
          match open_listing fs ctx url_path (pattern full_path) s with
          | (ctx, s) =>
              match build_http_listing_header out_size with
              | none => ⟨-1, [], (stream_close fs ctx s).1, (stream_close fs ctx s).2⟩
              | some out => ⟨1, out, ctx, s⟩

/-- `(int)(req->path.end - req->path.start)`. -/
def path_len (req : http_request_t) : ℤ := (req.path.end_ : ℤ) - req.path.start

/-- What `resolve_file_path` leaves in `full_path` for this request. -/
def full_path (document_root : List u8) (req : http_request_t) : List u8 :=
  cstr (resolve_file_path document_root req.path_bytes 260).2

def serve_http_request (document_root : List u8) (fs : FileSystem σ) (ctx : stream_state_t)
    (req : http_request_t) (out_size : ℕ) (s : σ) : serve_result σ :=
  let ctx := clean_slate ctx
  if out_size = 0 then ⟨-1, [], ctx, s⟩
  else if req.method ≠ http_method_t.HTTP_GET.num then
    inline_response (build_http_error_response 405 (ascii "Method Not Allowed") out_size) ctx s
  else if path_len req ≤ 0 ∨ path_len req ≥ MAX_PATH then
    inline_response (build_http_error_response 400 (ascii "Bad Request") out_size) ctx s
  else if (resolve_file_path document_root req.path_bytes 260).1 ≠ 0 then
    inline_response (build_http_error_response 403 (ascii "Forbidden") out_size) ctx s
  else
    match fs.GetFileAttributes s (full_path document_root req) with
    | (file_attributes, s) =>
        if file_attributes = INVALID_FILE_ATTRIBUTES then
          inline_response (build_http_error_response 404 (ascii "File Not Found") out_size) ctx s
        else if file_attributes &&& FILE_ATTRIBUTE_DIRECTORY ≠ 0 then
          serve_directory fs req.path_bytes (full_path document_root req) (path_len req).toNat
            out_size ctx s
        else serve_file fs (full_path document_root req) out_size ctx s

/-! ## `stream_next_chunk` -/

def stream_next_chunk (fs : FileSystem σ) (buf_size : ℕ) (ctx : stream_state_t) (s : σ) :
    List u8 × stream_state_t × σ :=
  if buf_size = 0 then ([], ctx, s)
  else
    match ctx.stream_kind with
    | .STREAM_FILE =>
        if ctx.stream_file = .INVALID_HANDLE_VALUE ∨ ctx.stream_remaining = 0 then ([], ctx, s)
        else
          let to_read := min buf_size ctx.stream_remaining.toNat
          match fs.ReadFile s ctx.stream_file to_read with
          | (none, s) => ([], ctx, s)
          | (some got, s) =>
              -- an end of file before `stream_remaining` ends the body as a read error does
              if got.length = 0 then ([], ctx, s)
              else (got, { ctx with
                stream_remaining := ctx.stream_remaining - UInt32.ofNat got.length }, s)
    | .STREAM_DIR => dir_stream_next fs buf_size ctx s
    | .STREAM_NONE => ([], ctx, s)

/-! ## Streaming ends -/

/-- What a body source still has in front of it, as the loops over it count down. -/
def stream_ahead (fs : FileSystem σ) (ctx : stream_state_t) (s : σ) : ℕ × ℕ :=
  match ctx.stream_kind with
  | .STREAM_FILE => (0, ctx.stream_remaining.toNat)
  | .STREAM_DIR => (phase_rank ctx.dir_phase, entries_ahead fs ctx s)
  | .STREAM_NONE => (0, 0)

/-- What one chunk does to any context: it stays within the buffer, and unless it is empty
it leaves less ahead. -/
theorem stream_next_chunk_progress (fs : FileSystem σ) (buf_size : ℕ) (hlow : 1024 ≤ buf_size)
    (hhigh : buf_size < 2 ^ 32) (ctx : stream_state_t) (s : σ) :
    ∃ chunk ctx' s', stream_next_chunk fs buf_size ctx s = (chunk, ctx', s')
      ∧ SameSource ctx ctx' ∧ chunk.length ≤ buf_size
      ∧ (chunk ≠ [] → Prod.Lex (· < ·) (· < ·) (stream_ahead fs ctx' s')
          (stream_ahead fs ctx s)) := by
  have hstop : ∀ s', ∃ chunk ctx' s'', (([], ctx, s') : List u8 × stream_state_t × σ)
      = (chunk, ctx', s'') ∧ SameSource ctx ctx' ∧ chunk.length ≤ buf_size
      ∧ (chunk ≠ [] → Prod.Lex (· < ·) (· < ·) (stream_ahead fs ctx' s'')
          (stream_ahead fs ctx s)) :=
    fun s' => ⟨[], ctx, s', rfl, .refl _, Nat.zero_le _, fun h => absurd rfl h⟩
  rw [stream_next_chunk, if_neg (by omega)]
  -- a file has fewer bytes left, a listing is in a later phase or has fewer entries left
  cases hkind : ctx.stream_kind with
  | STREAM_NONE => exact hstop s
  | STREAM_DIR =>
      obtain ⟨out, ctx', s', heq, hsame, hlen, hlt⟩ :=
        dir_stream_next_progress fs hlow hhigh ctx s
      refine ⟨out, ctx', s', heq, hsame, hlen, fun hne => ?_⟩
      rw [stream_ahead, stream_ahead, hsame.stream_kind, hkind]
      exact hlt hne
  | STREAM_FILE =>
      dsimp only
      split_ifs with hend
      · exact hstop s
      · split
        · next s1 hread => exact hstop s1
        · next got s1 hread =>
            have hgot : got.length ≤ min buf_size ctx.stream_remaining.toNat :=
              fs.read_le (s := s) (h := ctx.stream_file) (by rw [hread])
            split_ifs with hempty
            · exact hstop s1
            · refine ⟨got, _, s1, rfl, ⟨hkind.symm, rfl, rfl, rfl⟩, by omega, fun _ => ?_⟩
              rw [stream_ahead, stream_ahead, hkind]
              dsimp only
              apply Prod.Lex.right
              have hr := ctx.stream_remaining.toNat_lt
              have hof : (UInt32.ofNat got.length).toNat = got.length := by
                rw [UInt32.toNat_ofNat', Nat.mod_eq_of_lt (by omega)]
              have hle : UInt32.ofNat got.length ≤ ctx.stream_remaining := by
                rw [UInt32.le_iff_toNat_le, hof]
                omega
              rw [UInt32.toNat_sub_of_le _ _ hle, hof]
              omega

/-- Induction along the chunks of a body. -/
theorem stream_induction (fs : FileSystem σ) {motive : stream_state_t → σ → Prop}
    (step : ∀ ctx s, (∀ chunk ctx' s', stream_next_chunk fs HTTP_SEND_BUFFER_SIZE ctx s
      = (chunk, ctx', s') → chunk ≠ [] → motive ctx' s') → motive ctx s) :
    ∀ ctx s, motive ctx s := by
  intro ctx s
  -- the induction is on what is ahead, compared phase first
  refine (InvImage.wf (fun p : stream_state_t × σ => stream_ahead fs p.1 p.2)
    (WellFounded.prod_lex Nat.lt_wfRel.wf Nat.lt_wfRel.wf)).induction
      (C := fun p => motive p.1 p.2) (ctx, s) ?_
  rintro ⟨ctx, s⟩ ih
  refine step ctx s fun chunk ctx' s' hnext hne => ih (ctx', s') ?_
  obtain ⟨_, _, _, heq, -, -, hlt⟩ := stream_next_chunk_progress fs
    HTTP_SEND_BUFFER_SIZE (by decide) (by decide) ctx s
  rw [hnext] at heq
  obtain ⟨rfl, rfl, rfl⟩ := Prod.mk.inj heq |>.imp_right Prod.mk.inj
  exact hlt hne

/-! ## The outcomes -/

/-- The request passes the method, length and path checks. -/
structure Resolves (document_root : List u8) (req : http_request_t) : Prop where
  get : req.method = http_method_t.HTTP_GET.num
  nonempty : 0 < path_len req
  short : path_len req < MAX_PATH
  resolved : (resolve_file_path document_root req.path_bytes 260).1 = 0

/-- The attributes the file system reports for the resolved path. -/
def attributes (document_root : List u8) (fs : FileSystem σ) (req : http_request_t) (s : σ) :
    u32 × σ :=
  fs.GetFileAttributes s (full_path document_root req)

/-- The resolved path is a directory. -/
structure NamesDirectory (document_root : List u8) (fs : FileSystem σ) (req : http_request_t)
    (s : σ) : Prop extends Resolves document_root req where
  attr_valid : (attributes document_root fs req s).1 ≠ INVALID_FILE_ATTRIBUTES
  attr_directory : (attributes document_root fs req s).1 &&& FILE_ATTRIBUTE_DIRECTORY ≠ 0

/-- The last byte of the request path, as `url_path[path_len - 1]` reads it. -/
def last_byte (req : http_request_t) : u8 := req.path_bytes.getD ((path_len req).toNat - 1) 0

/-- The request is answered with a redirect. -/
structure Redirects (document_root : List u8) (fs : FileSystem σ) (req : http_request_t)
    (s : σ) : Prop extends NamesDirectory document_root fs req s where
  no_slash : last_byte req ≠ chr '/'

/-- The request is answered with a listing. -/
structure OpensListing (document_root : List u8) (fs : FileSystem σ) (req : http_request_t)
    (s : σ) : Prop extends NamesDirectory document_root fs req s where
  slash : last_byte req = chr '/'
  index_absent : (fs.GetFileAttributes (attributes document_root fs req s).2
    (index_path (full_path document_root req))).1 = INVALID_FILE_ATTRIBUTES
  fits : (pattern (full_path document_root req)).length < MAX_PATH

/-- The state the file system is in when a listing is opened. -/
def listing_state (document_root : List u8) (fs : FileSystem σ) (req : http_request_t) (s : σ) :
    σ :=
  (fs.GetFileAttributes (attributes document_root fs req s).2
    (index_path (full_path document_root req))).2

/-- The file a request is answered with, and the state it is opened in: the resolved path
itself, or the index page of the directory it names. -/
inductive ServesFile (document_root : List u8) (fs : FileSystem σ) (req : http_request_t) (s : σ) :
    List u8 → σ → Prop
  | plain (h : Resolves document_root req)
      (attr_valid : (attributes document_root fs req s).1 ≠ INVALID_FILE_ATTRIBUTES)
      (attr_file : (attributes document_root fs req s).1 &&& FILE_ATTRIBUTE_DIRECTORY = 0) :
      ServesFile document_root fs req s (full_path document_root req)
        (attributes document_root fs req s).2
  | index (h : NamesDirectory document_root fs req s) (slash : last_byte req = chr '/')
      (index_present : (fs.GetFileAttributes (attributes document_root fs req s).2
        (index_path (full_path document_root req))).1 ≠ INVALID_FILE_ATTRIBUTES) :
      ServesFile document_root fs req s (index_path (full_path document_root req))
        (listing_state document_root fs req s)

/-- The outcomes of `serve_file` into a send buffer. -/
inductive FileServed (fs : FileSystem σ) (path : List u8) (ctx : stream_state_t) (s : σ) :
    serve_result σ → Prop
  | error {out : List u8} {s' : σ}
      (hout : build_http_error_response 500 (ascii "Cannot read file") HTTP_SEND_BUFFER_SIZE
        = some out) : FileServed fs path ctx s ⟨0, out, ctx, s'⟩
  | opened {out : List u8} {h : ℕ} {s1 s2 s3 : σ} {file_size : u32} {peek : Option (List u8)}
      (hopen : fs.CreateFile s path = (some h, s1))
      (hsize : fs.GetFileSize s1 (.of h) = (file_size, s2)) (hvalid : file_size ≠ INVALID_FILE_SIZE)
      (hpeek : fs.ReadFile s2 (.of h) 512 = (peek, s3))
      (hout : build_http_file_header (detect_mime_type path (peek.getD [])) file_size
        HTTP_SEND_BUFFER_SIZE = some out) :
      FileServed fs path ctx s
        ⟨1, out, { ctx with
          stream_file := .of h
          stream_remaining := file_size
          stream_kind := .STREAM_FILE }, fs.SetFilePointer s3 (.of h) 0⟩

/-- The outcomes of `serve_http_request` into a send buffer. -/
inductive Served (document_root : List u8) (fs : FileSystem σ) (ctx : stream_state_t)
    (req : http_request_t) (s : σ) : serve_result σ → Prop
  | error {code : ℤ} {message out : List u8} {s' : σ}
      (hcode : code ∈ ([400, 403, 404, 405, 500] : List ℤ)) (hmessage : message.length ≤ 18)
      (hout : build_http_error_response code message HTTP_SEND_BUFFER_SIZE = some out) :
      Served document_root fs ctx req s ⟨0, out, clean_slate ctx, s'⟩
  | redirect {out : List u8} (h : Redirects document_root fs req s)
      (hout : build_http_redirect_response (location_text req.path_bytes)
        HTTP_SEND_BUFFER_SIZE = some out) :
      Served document_root fs ctx req s
        ⟨0, out, clean_slate ctx, (attributes document_root fs req s).2⟩
  | listing {out : List u8} {ctx' : stream_state_t} {s' : σ}
      (h : OpensListing document_root fs req s)
      (hopen : open_listing fs (clean_slate ctx) req.path_bytes
        (pattern (full_path document_root req)) (listing_state document_root fs req s) = (ctx', s'))
      (hout : build_http_listing_header HTTP_SEND_BUFFER_SIZE = some out) :
      Served document_root fs ctx req s ⟨1, out, ctx', s'⟩
  | file {path : List u8} {s0 : σ} {r : serve_result σ}
      (h : ServesFile document_root fs req s path s0)
      (hr : FileServed fs path (clean_slate ctx) s0 r) : Served document_root fs ctx req s r

/-! ## There are no other outcomes -/

/-- A builder that fills a send buffer never fails. -/
theorem inline_response_of_limit (text : List u8) (ctx : stream_state_t) (s : σ) :
    inline_response (format_into text HTTP_SEND_BUFFER_SIZE) ctx s
      = ⟨0, wsprintf text, ctx, s⟩ := by
  rw [format_into_of_limit text (by decide), inline_response]

theorem serve_file_served (fs : FileSystem σ) (path : List u8) (ctx : stream_state_t) (s : σ) :
    FileServed fs path ctx s (serve_file fs path HTTP_SEND_BUFFER_SIZE ctx s) := by
  unfold serve_file
  split
  · rw [build_http_error_response, inline_response_of_limit]
    exact .error (format_into_of_limit _ (by decide))
  · next h s1 hopen =>
      dsimp only
      by_cases hvalid : (fs.GetFileSize s1 (.of h)).1 = INVALID_FILE_SIZE
      · rw [if_pos hvalid, build_http_error_response, inline_response_of_limit]
        exact .error (format_into_of_limit _ (by decide))
      · rw [if_neg hvalid, build_http_file_header, format_into_of_limit _ (by decide)]
        exact .opened hopen rfl hvalid rfl (format_into_of_limit _ (by decide))

theorem serve_http_request_served (document_root : List u8) (fs : FileSystem σ)
    (ctx : stream_state_t) (req : http_request_t) (s : σ) :
    Served document_root fs ctx req s
      (serve_http_request document_root fs ctx req HTTP_SEND_BUFFER_SIZE s) := by
  -- every early return is one of these
  have herror : ∀ (code : ℤ) (message : List u8) (s' : σ),
      code ∈ ([400, 403, 404, 405, 500] : List ℤ) → message.length ≤ 18 →
      Served document_root fs ctx req s (inline_response
        (build_http_error_response code message HTTP_SEND_BUFFER_SIZE) (clean_slate ctx) s') := by
    intro code message s' hcode hmessage
    rw [build_http_error_response, inline_response_of_limit]
    exact .error hcode hmessage (format_into_of_limit _ (by decide))
  rw [serve_http_request, if_neg (by decide)]
  by_cases hget : req.method ≠ http_method_t.HTTP_GET.num
  · rw [if_pos hget]
    exact herror _ _ _ (by decide) (by decide)
  rw [if_neg hget]
  by_cases hlen : path_len req ≤ 0 ∨ path_len req ≥ MAX_PATH
  · rw [if_pos hlen]
    exact herror _ _ _ (by decide) (by decide)
  rw [if_neg hlen]
  by_cases hres : (resolve_file_path document_root req.path_bytes 260).1 ≠ 0
  · rw [if_pos hres]
    exact herror _ _ _ (by decide) (by decide)
  rw [if_neg hres]
  have hresolves : Resolves document_root req :=
    ⟨not_not.mp hget, by omega, by omega, not_not.mp hres⟩
  rcases hattr : fs.GetFileAttributes s (full_path document_root req) with ⟨attr, s1⟩
  have hattrs : attributes document_root fs req s = (attr, s1) := hattr
  dsimp only
  by_cases hvalid : attr = INVALID_FILE_ATTRIBUTES
  · rw [if_pos hvalid]
    exact herror _ _ _ (by decide) (by decide)
  rw [if_neg hvalid]
  by_cases hdir : attr &&& FILE_ATTRIBUTE_DIRECTORY ≠ 0
  · have hnames : NamesDirectory document_root fs req s :=
      ⟨hresolves, by rw [hattrs]; exact hvalid, by rw [hattrs]; exact hdir⟩
    rw [if_pos hdir, serve_directory]
    by_cases hslash : req.path_bytes.getD ((path_len req).toNat - 1) 0 ≠ chr '/'
    · rw [if_pos hslash, build_http_redirect_response, inline_response_of_limit]
      have h : Served document_root fs ctx req s _ :=
        .redirect ⟨hnames, hslash⟩ (format_into_of_limit _ (by decide))
      rwa [hattrs] at h
    rw [if_neg hslash]
    rcases hindex : fs.GetFileAttributes s1 (index_path (full_path document_root req))
      with ⟨iattr, s2⟩
    have hstate : listing_state document_root fs req s = s2 := by
      rw [listing_state, hattrs, hindex]
    dsimp only
    by_cases hpresent : iattr ≠ INVALID_FILE_ATTRIBUTES
    · rw [if_pos hpresent, ← hstate]
      exact .file (.index hnames (not_not.mp hslash) (by rw [hattrs, hindex]; exact hpresent))
        (serve_file_served fs _ _ _)
    rw [if_neg hpresent]
    by_cases hfits : (pattern (full_path document_root req)).length ≥ MAX_PATH
    · rw [if_pos hfits]
      exact herror _ _ _ (by decide) (by decide)
    rw [if_neg hfits]
    rcases hopen : open_listing fs (clean_slate ctx) req.path_bytes
      (pattern (full_path document_root req)) s2 with ⟨ctx', s'⟩
    dsimp only
    rw [build_http_listing_header, format_into_of_limit _ (by decide)]
    exact .listing ⟨hnames, not_not.mp hslash, by rw [hattrs, hindex]; exact not_not.mp hpresent,
      not_le.mp hfits⟩ (by rw [hstate, hopen]) (format_into_of_limit _ (by decide))
  · rw [if_neg hdir]
    have hs1 : (attributes document_root fs req s).2 = s1 := by rw [hattrs]
    rw [← hs1]
    exact .file (.plain hresolves (by rw [hattrs]; exact hvalid)
      (by rw [hattrs]; exact not_not.mp hdir)) (serve_file_served fs _ _ _)

/-- A head to send, of a size `post_send` takes, and a return value that says whether a
body source was left in the context. -/
structure WellFormed (r : serve_result σ) : Prop where
  out_ne_nil : r.out ≠ []
  out_length : r.out.length ≤ 1023
  rc_kind : (r.rc = 0 ∧ r.ctx.stream_kind = .STREAM_NONE)
    ∨ (r.rc = 1 ∧ r.ctx.stream_kind ≠ .STREAM_NONE)

theorem serve_http_request_wellFormed (document_root : List u8) (fs : FileSystem σ)
    (ctx : stream_state_t) (req : http_request_t) (s : σ) :
    WellFormed (serve_http_request document_root fs ctx req HTTP_SEND_BUFFER_SIZE s) := by
  have hserved := serve_http_request_served document_root fs ctx req s
  generalize serve_http_request document_root fs ctx req HTTP_SEND_BUFFER_SIZE s = r at hserved
  cases hserved with
  | error hcode hmessage hout =>
      obtain ⟨hne, hlen⟩ := build_http_error_response_bounds hout
      exact ⟨hne, hlen, Or.inl ⟨rfl, rfl⟩⟩
  | redirect h hout =>
      obtain ⟨hne, hlen⟩ := build_http_redirect_response_bounds hout
      exact ⟨hne, hlen, Or.inl ⟨rfl, rfl⟩⟩
  | listing h hopen hout =>
      obtain ⟨hne, hlen⟩ := build_http_listing_header_bounds hout
      refine ⟨hne, hlen, Or.inr ⟨rfl, ?_⟩⟩
      have hkind := congrArg (fun p => p.1.stream_kind) hopen
      rw [← hkind]
      simp [open_listing]
  | file hfile hserve =>
      cases hserve with
      | error hout =>
          obtain ⟨hne, hlen⟩ := build_http_error_response_bounds hout
          exact ⟨hne, hlen, Or.inl ⟨rfl, rfl⟩⟩
      | opened hopen hsize hvalid hpeek hout =>
          obtain ⟨hne, hlen⟩ := build_http_file_header_bounds hout
          exact ⟨hne, hlen, Or.inr ⟨rfl, by simp⟩⟩

/-! ## The outcomes that repeat request text -/

/-- A request that resolves goes by the attributes of its path. -/
theorem serve_http_request_resolves {document_root : List u8} {fs : FileSystem σ}
    {req : http_request_t} {s : σ} (h : Resolves document_root req)
    (hvalid : (attributes document_root fs req s).1 ≠ INVALID_FILE_ATTRIBUTES) {out_size : ℕ}
    (hsize : out_size ≠ 0) (ctx : stream_state_t) :
    serve_http_request document_root fs ctx req out_size s
      = if (attributes document_root fs req s).1 &&& FILE_ATTRIBUTE_DIRECTORY ≠ 0 then
          serve_directory fs req.path_bytes (full_path document_root req) (path_len req).toNat
            out_size (clean_slate ctx) (attributes document_root fs req s).2
        else serve_file fs (full_path document_root req) out_size (clean_slate ctx)
          (attributes document_root fs req s).2 := by
  have hlen : ¬ (path_len req ≤ 0 ∨ path_len req ≥ MAX_PATH) := by
    have := h.nonempty
    have := h.short
    omega
  rw [attributes] at hvalid
  rw [serve_http_request, if_neg hsize, if_neg (not_not.mpr h.get), if_neg hlen,
    if_neg (not_not.mpr h.resolved), attributes]
  dsimp only
  rw [if_neg hvalid]

/-- The branch taken once the path resolves to a directory. -/
theorem serve_http_request_directory {document_root : List u8} {fs : FileSystem σ}
    {req : http_request_t} {s : σ} (h : NamesDirectory document_root fs req s) {out_size : ℕ}
    (hsize : out_size ≠ 0) (ctx : stream_state_t) :
    serve_http_request document_root fs ctx req out_size s
      = serve_directory fs req.path_bytes (full_path document_root req) (path_len req).toNat
          out_size (clean_slate ctx) (attributes document_root fs req s).2 := by
  rw [serve_http_request_resolves h.toResolves h.attr_valid hsize, if_pos h.attr_directory]

/-- The file branch, for a file named by the request and for the page of a directory. -/
theorem serve_http_request_file {document_root : List u8} {fs : FileSystem σ}
    {req : http_request_t} {s s0 : σ} {path : List u8}
    (h : ServesFile document_root fs req s path s0) {out_size : ℕ} (hsize : out_size ≠ 0)
    (ctx : stream_state_t) : serve_http_request document_root fs ctx req out_size s
      = serve_file fs path out_size (clean_slate ctx) s0 := by
  cases h with
  | plain h attr_valid attr_file =>
      rw [serve_http_request_resolves h attr_valid hsize, if_neg (not_not.mpr attr_file)]
  | index h slash index_present =>
      have hslash : req.path_bytes.getD ((path_len req).toNat - 1) 0 = chr '/' := slash
      rw [serve_http_request_directory h hsize, serve_directory, if_neg (not_not.mpr hslash)]
      dsimp only
      rw [if_pos index_present, listing_state]

theorem serve_http_request_redirects {document_root : List u8} {fs : FileSystem σ}
    {req : http_request_t} {s : σ} (h : Redirects document_root fs req s) (ctx : stream_state_t) :
    serve_http_request document_root fs ctx req HTTP_SEND_BUFFER_SIZE s
      = inline_response
          (build_http_redirect_response (location_text req.path_bytes) HTTP_SEND_BUFFER_SIZE)
          (clean_slate ctx) (attributes document_root fs req s).2 := by
  have hslash : req.path_bytes.getD ((path_len req).toNat - 1) 0 ≠ chr '/' := h.no_slash
  rw [serve_http_request_directory h.toNamesDirectory (by decide), serve_directory,
    if_pos hslash]

/-- The listing is set up, and its header sent. -/
theorem serve_http_request_listing {document_root : List u8} {fs : FileSystem σ}
    {req : http_request_t} {s : σ} (h : OpensListing document_root fs req s)
    (ctx : stream_state_t) :
    ∃ out, build_http_listing_header HTTP_SEND_BUFFER_SIZE = some out
      ∧ serve_http_request document_root fs ctx req HTTP_SEND_BUFFER_SIZE s
        = ⟨1, out,
          (open_listing fs (clean_slate ctx) req.path_bytes
            (pattern (full_path document_root req)) (listing_state document_root fs req s)).1,
          (open_listing fs (clean_slate ctx) req.path_bytes
            (pattern (full_path document_root req)) (listing_state document_root fs req s)).2⟩ := by
  have hslash : req.path_bytes.getD ((path_len req).toNat - 1) 0 = chr '/' := h.slash
  rw [serve_http_request_directory h.toNamesDirectory (by decide), serve_directory,
    if_neg (not_not.mpr hslash)]
  dsimp only
  rw [if_neg (not_not.mpr h.index_absent), if_neg (not_le.mpr h.fits), build_http_listing_header,
    format_into_of_limit _ (by decide), listing_state]
  exact ⟨_, rfl, rfl⟩

theorem serve_http_request_opens_listing {document_root : List u8} {fs : FileSystem σ}
    {req : http_request_t} {s : σ} (h : OpensListing document_root fs req s)
    (ctx : stream_state_t) :
    (serve_http_request document_root fs ctx req HTTP_SEND_BUFFER_SIZE s).ctx
        = (open_listing fs (clean_slate ctx) req.path_bytes (pattern (full_path document_root req))
          (listing_state document_root fs req s)).1
      ∧ build_http_listing_header HTTP_SEND_BUFFER_SIZE
        = some (serve_http_request document_root fs ctx req HTTP_SEND_BUFFER_SIZE s).out := by
  obtain ⟨out, hout, heq⟩ := serve_http_request_listing h ctx
  rw [heq]
  exact ⟨rfl, hout⟩

/-- A path that resolves fits the array it is copied into. -/
theorem path_bytes_length_lt {document_root : List u8} {req : http_request_t}
    (h : Resolves document_root req) : (cstr req.path_bytes).length < MAX_PATH := by
  have hle := cstr_length_le req.path_bytes
  have hlen : req.path_bytes.length ≤ req.path.end_ - req.path.start := by
    rw [http_request_t.path_bytes, slice, List.length_take]
    omega
  have hshort := h.short
  unfold path_len at hshort
  have hmax : (MAX_PATH : ℤ) = 260 := rfl
  have hmax' : MAX_PATH = 260 := rfl
  omega

/-- The URL a listing shows is the request's path. -/
theorem serve_http_request_dir_url {document_root : List u8} {fs : FileSystem σ}
    {req : http_request_t} {s : σ} (h : OpensListing document_root fs req s)
    (ctx : stream_state_t) :
    (serve_http_request document_root fs ctx req HTTP_SEND_BUFFER_SIZE s).ctx.dir_url.bytes
      = cstr req.path_bytes := by
  rw [(serve_http_request_opens_listing h ctx).1]
  exact lstrcpyn_bytes (by decide) (path_bytes_length_lt h.toResolves)

end W32HttpServer.Serve

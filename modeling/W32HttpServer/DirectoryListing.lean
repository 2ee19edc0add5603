/-
Which directories get a listing.

A request path that ends in a slash and decodes to a directory is answered with the listing
of that directory when the directory has no index page. Three kinds are left out. The
document root never reaches the directory branch, because `resolve_file_path` resolves the
empty path to the root's index page whether there is one or not. A directory that holds
a directory of the name index.html has that one opened as a file. And a name that
`is_safe_path` refuses, one with two adjacent dots in it, or a path too long for `url_path`
is answered with an error.

Which directory an enumeration is of is what `FindFirstFile` was asked for, so the code is
run over a file system that keeps its search patterns (`searched`).
-/
import W32HttpServer.Common
import W32HttpServer.HttpRequest
import W32HttpServer.HttpPath
import W32HttpServer.HttpResponse
import W32HttpServer.Platform
import W32HttpServer.Disk
import W32HttpServer.Context
import W32HttpServer.DirStream
import W32HttpServer.Serve

set_option autoImplicit false

namespace W32HttpServer.DirectoryListing

open W32HttpServer.Common W32HttpServer.HttpRequest W32HttpServer.HttpPath
open W32HttpServer.HttpResponse W32HttpServer.Platform W32HttpServer.Disk W32HttpServer.Context
open W32HttpServer.DirStream W32HttpServer.Serve

variable {σ : Type}

/-- The same file system with the patterns of its searches on the side. -/
def searched (fs : FileSystem σ) : FileSystem (σ × List (List u8)) where
  GetFileAttributes s path :=
    let r := fs.GetFileAttributes s.1 path
    (r.1, r.2, s.2)
  FindFirstFile s pattern :=
    let r := fs.FindFirstFile s.1 pattern
    (r.1, r.2, s.2 ++ [pattern])
  FindNextFile s h :=
    let r := fs.FindNextFile s.1 h
    (r.1, r.2, s.2)
  FindClose s h := (fs.FindClose s.1 h, s.2)
  CreateFile s path :=
    let r := fs.CreateFile s.1 path
    (r.1, r.2, s.2)
  GetFileSize s h :=
    let r := fs.GetFileSize s.1 h
    (r.1, r.2, s.2)
  ReadFile s h n :=
    let r := fs.ReadFile s.1 h n
    (r.1, r.2, s.2)
  SetFilePointer s h pos := (fs.SetFilePointer s.1 h pos, s.2)
  CloseHandle s h := (fs.CloseHandle s.1 h, s.2)
  read_le h := fs.read_le h
  entries_left s h := fs.entries_left s.1 h
  find_next_lt h := fs.find_next_lt h

/-- The directory a request path decodes to, at or below the document root. -/
def requested_directory (document_root : List u8) (req : http_request_t) : List u8 :=
  if clean_url_path req.path_bytes = [] then cstr document_root
  else full_path_text document_root (clean_url_path req.path_bytes)

/-- A request that ends in a slash and decodes to a directory. The room asked for is that of
the index page's path, the longer of the two texts built from the directory's: it is written
to `index_path` before any length is compared. -/
structure RequestsDirectory (document_root : List u8) (fs : FileSystem σ) (req : http_request_t)
    (s : σ) : Prop where
  get : req.method = http_method_t.HTTP_GET.num
  nonempty : 0 < path_len req
  slash : last_byte req = chr '/'
  valid : (fs.GetFileAttributes s (requested_directory document_root req)).1
    ≠ INVALID_FILE_ATTRIBUTES
  directory : (fs.GetFileAttributes s (requested_directory document_root req)).1
    &&& FILE_ATTRIBUTE_DIRECTORY ≠ 0
  room : (requested_directory document_root req ++ ascii "\\index.html").length < MAX_PATH

/-- The request is one that `serve_http_request` resolves: the path fits `url_path` and the
name it decodes to passes `is_safe_path`. -/
structure Accepted (req : http_request_t) : Prop where
  short : path_len req < MAX_PATH
  safe : is_safe_path (clean_url_path req.path_bytes) = true

/-- The answer is the head of a listing, and the search that was opened is the directory's. -/
structure GetsListing (directory : List u8) (r : serve_result (σ × List (List u8))) : Prop where
  rc : r.rc = 1
  kind : r.ctx.stream_kind = .STREAM_DIR
  search : r.fs_state.2 = [directory ++ ascii "\\*"]

/-- Nothing in the directory has the name of the index page. -/
def IndexAbsent (document_root : List u8) (fs : FileSystem σ) (req : http_request_t) (s : σ) :
    Prop :=
  (fs.GetFileAttributes (fs.GetFileAttributes s (requested_directory document_root req)).2
    (requested_directory document_root req ++ ascii "\\index.html")).1 = INVALID_FILE_ATTRIBUTES

/-- Below the root the resolved path is the directory's. -/
theorem full_path_eq {document_root : List u8} {req : http_request_t}
    (h : Resolves document_root req) (hbelow : clean_url_path req.path_bytes ≠ []) :
    full_path document_root req = requested_directory document_root req := by
  rw [full_path, resolve_file_path_text (by decide) h.resolved, requested_directory,
    if_neg hbelow]

/-- The root is resolved to its index page. -/
theorem full_path_root {document_root : List u8} {req : http_request_t}
    (h : Resolves document_root req) (hroot : clean_url_path req.path_bytes = []) :
    full_path document_root req
      = requested_directory document_root req ++ ascii "\\index.html" := by
  rw [full_path, resolve_file_path_text (by decide) h.resolved, requested_directory, if_pos hroot,
    full_path_text, hroot, if_pos rfl]
  rfl

/-- A file, the index page too, is not a listing. -/
theorem file_not_listed {fs : FileSystem σ} {path : List u8} {ctx : stream_state_t} {s : σ}
    {r : serve_result σ} (h : FileServed fs path ctx s r) :
    r.rc = 0 ∨ r.ctx.stream_kind = .STREAM_FILE := by
  cases h with
  | error hout => exact Or.inl rfl
  | opened hopen hsize hvalid hpeek hout => exact Or.inr rfl

/-- A listing is only sent with its search opened. -/
theorem listing_opened {document_root : List u8} {fs : FileSystem σ} {req : http_request_t}
    {s : σ} {ctx : stream_state_t} {r : serve_result σ}
    (h : Served document_root fs ctx req s r) (hrc : r.rc = 1)
    (hkind : r.ctx.stream_kind = .STREAM_DIR) :
    OpensListing document_root fs req s
      ∧ r.fs_state = (open_listing fs (clean_slate ctx) req.path_bytes
        (pattern (full_path document_root req)) (listing_state document_root fs req s)).2 := by
  cases h with
  | error hcode hmessage hout => exact absurd hrc (by simp)
  | redirect h hout => exact absurd hrc (by simp)
  | listing h hopen hout => exact ⟨h, by rw [hopen]⟩
  | file h hr =>
      rcases file_not_listed hr with hzero | hfile
      · exact absurd (hrc.symm.trans hzero) (by decide)
      · exact absurd (hkind.symm.trans hfile) (by decide)

/-- An accepted request for a directory is resolved. -/
theorem resolves_of_accepted {document_root : List u8} {fs : FileSystem σ}
    {req : http_request_t} {s : σ} (h : RequestsDirectory document_root fs req s)
    (hbelow : clean_url_path req.path_bytes ≠ []) (ha : Accepted req) :
    Resolves document_root req := by
  have hroom := h.room
  rw [requested_directory, if_neg hbelow, List.length_append] at hroom
  have hfits : (full_path_text document_root (clean_url_path req.path_bytes)).length < MAX_PATH := by
    omega
  exact ⟨h.get, h.nonempty, ha.short, resolve_file_path_of_fits ha.safe hfits⟩

/-- What the directory branch asks for, below the root. -/
theorem patterns_eq {document_root : List u8} {fs : FileSystem σ} {req : http_request_t} {s : σ}
    (h : RequestsDirectory document_root fs req s) (hr : Resolves document_root req)
    (hbelow : clean_url_path req.path_bytes ≠ []) :
    pattern (full_path document_root req)
        = requested_directory document_root req ++ ascii "\\*"
      ∧ index_path (full_path document_root req)
        = requested_directory document_root req ++ ascii "\\index.html" := by
  have hroom := h.room
  have htwo : (ascii "\\*").length = 2 := by decide
  have heleven : (ascii "\\index.html").length = 11 := by decide
  have hmax : MAX_PATH = 260 := rfl
  rw [List.length_append, heleven] at hroom
  rw [full_path_eq hr hbelow, pattern, index_path,
    wsprintf_of_lt (by rw [List.length_append]; omega),
    wsprintf_of_lt (by rw [List.length_append]; omega)]
  exact ⟨rfl, rfl⟩

/-- A listing of the requested directory is not one of the document root: the root resolves to
the index page, and the search would be one of that. -/
theorem below_of_pattern {document_root : List u8} {fs : FileSystem σ} {req : http_request_t}
    {s : σ} (h : RequestsDirectory document_root fs req s) (hr : Resolves document_root req)
    (hpattern : pattern (full_path document_root req)
      = requested_directory document_root req ++ ascii "\\*") :
    clean_url_path req.path_bytes ≠ [] := by
  intro hroot
  have hlength := congrArg List.length hpattern
  have hroom := h.room
  have htwo : (ascii "\\*").length = 2 := by decide
  have heleven : (ascii "\\index.html").length = 11 := by decide
  have hmax : MAX_PATH = 260 := rfl
  rw [full_path_root hr hroot, pattern, wsprintf, List.length_take] at hlength
  simp only [List.length_append, htwo, heleven] at hlength hroom
  omega

instance (req : http_request_t) : Decidable (Accepted req) :=
  decidable_of_iff (path_len req < MAX_PATH
      ∧ is_safe_path (clean_url_path req.path_bytes) = true)
    ⟨fun h => ⟨h.1, h.2⟩, fun h => ⟨h.short, h.safe⟩⟩

instance (document_root : List u8) (fs : FileSystem σ) (req : http_request_t) (s : σ) :
    Decidable (IndexAbsent document_root fs req s) := by
  unfold IndexAbsent
  infer_instance

/-- **A directory gets its listing** exactly when the request is accepted, the directory is
not the document root and nothing in it has the name index.html. -/
theorem gets_listing_iff {document_root : List u8} {fs : FileSystem σ} {req : http_request_t}
    {s : σ} (h : RequestsDirectory document_root fs req s) (ctx : stream_state_t) :
    GetsListing (requested_directory document_root req)
        (serve_http_request document_root (searched fs) ctx req HTTP_SEND_BUFFER_SIZE (s, []))
      ↔ Accepted req ∧ clean_url_path req.path_bytes ≠ []
        ∧ IndexAbsent document_root fs req s := by
  constructor
  · intro hlisted
    obtain ⟨hopens, hstate⟩ := listing_opened
      (serve_http_request_served document_root (searched fs) ctx req (s, [])) hlisted.rc hlisted.kind
    have hr : Resolves document_root req := hopens.toResolves
    -- a listing has been opened: all tests in front of it were passed
    have hsafe := ((resolve_file_path_eq_zero_iff _ _ _).mp hr.resolved).2.1
    have hsearch := hlisted.search
    rw [hstate] at hsearch
    have hpattern : pattern (full_path document_root req)
        = requested_directory document_root req ++ ascii "\\*" := by
      simpa [open_listing, searched, listing_state, attributes] using hsearch
    -- the page of the root is the index page, and that is not searched
    have hbelow := below_of_pattern h hr hpattern
    refine ⟨⟨hr.short, hsafe⟩, hbelow, ?_⟩
    have habsent := hopens.index_absent
    rw [(patterns_eq h hr hbelow).2, attributes, full_path_eq hr hbelow] at habsent
    exact habsent
  · rintro ⟨haccepted, hbelow, habsent⟩
    have hr := resolves_of_accepted h hbelow haccepted
    obtain ⟨hpattern, hindex⟩ := patterns_eq h hr hbelow
    have hpath := full_path_eq hr hbelow
    have hopens : OpensListing document_root (searched fs) req (s, []) := by
      refine ⟨⟨hr, ?_, ?_⟩, h.slash, ?_, ?_⟩
      · rw [attributes, hpath]
        exact h.valid
      · rw [attributes, hpath]
        exact h.directory
      · rw [hindex, attributes, hpath]
        exact habsent
      · -- the pattern is the shorter text
        have hroom := h.room
        have htwo : (ascii "\\*").length = 2 := by decide
        have heleven : (ascii "\\index.html").length = 11 := by decide
        rw [List.length_append, heleven] at hroom
        rw [hpattern, List.length_append, htwo]
        omega
    obtain ⟨out, -, heq⟩ := serve_http_request_listing hopens ctx
    rw [heq]
    refine ⟨rfl, rfl, ?_⟩
    rw [hpattern]
    rfl

/-- A root with one directory in it, both empty of files. -/
def empty_site : FileSystem handles_t :=
  disk [(ascii "C:\\www", .directory []), (ascii "C:\\www\\d/", .directory [])]

def get_d : http_request_t :=
  ⟨1, ⟨18, 22⟩, ⟨4, 7⟩, ascii "GET /d/ HTTP/1.0\r\nA: b\r\n\r\n"⟩

def get_root : http_request_t :=
  ⟨1, ⟨16, 20⟩, ⟨4, 5⟩, ascii "GET / HTTP/1.0\r\nA: b\r\n\r\n"⟩

theorem gets_listing_below_root :
    GetsListing (requested_directory (ascii "C:\\www") get_d)
      (serve_http_request (ascii "C:\\www") (searched empty_site) initial_stream get_d
        HTTP_SEND_BUFFER_SIZE ([], [])) :=
  have hreq : RequestsDirectory (ascii "C:\\www") empty_site get_d [] :=
    ⟨by decide, by decide, by decide, by decide, by decide, by decide⟩
  (gets_listing_iff hreq initial_stream).mpr ⟨by decide, by decide, by decide⟩

/-- The document root, without an index page, answers 404. -/
theorem root_gets_no_listing :
    RequestsDirectory (ascii "C:\\www") empty_site get_root []
      ∧ requested_directory (ascii "C:\\www") get_root = ascii "C:\\www"
      ∧ IndexAbsent (ascii "C:\\www") empty_site get_root []
      ∧ (serve_http_request (ascii "C:\\www") (searched empty_site) initial_stream get_root
          HTTP_SEND_BUFFER_SIZE ([], [])).rc = 0
      ∧ ascii "HTTP/1.0 404" <+: (serve_http_request (ascii "C:\\www") (searched empty_site)
          initial_stream get_root HTTP_SEND_BUFFER_SIZE ([], [])).out := by
  refine ⟨⟨by decide, by decide, by decide, by decide, by decide, by decide⟩, by decide,
    by decide, by decide +kernel, by decide +kernel⟩

end W32HttpServer.DirectoryListing

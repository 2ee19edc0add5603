/-
The local arrays of the directory branch of `serve_http_request`.

The branch formats four texts into arrays of nearly one size: the redirect's `location`, the
`index_path`, its copy back into `full_path`, and the search `pattern`. `serve_directory_writes`
is the branch with a record of what it writes; apart from the record it is the model of
`serve_directory` (`serve_directory_writes_snd`).

A resolved path has at most 259 characters, and `location` was sized for that. The array of
`index_path` was not: eleven characters are appended to the path before anything is compared,
so a directory whose path is longer than 248 characters overflows it, and with it the pattern
that is checked after its write (`directory_writes_fit_iff`).
-/
import W32HttpServer.Common
import W32HttpServer.HttpRequest
import W32HttpServer.HttpPath
import W32HttpServer.HttpResponse
import W32HttpServer.Platform
import W32HttpServer.Disk
import W32HttpServer.Context
import W32HttpServer.DirStream
import W32HttpServer.Serve
import W32HttpServer.DirectoryListing

set_option autoImplicit false

namespace W32HttpServer.DirectoryBuffers

open W32HttpServer.Common W32HttpServer.HttpRequest W32HttpServer.HttpPath
open W32HttpServer.HttpResponse W32HttpServer.Platform W32HttpServer.Disk
open W32HttpServer.Context W32HttpServer.DirStream W32HttpServer.Serve
open W32HttpServer.DirectoryListing

variable {σ : Type}

/-! ## The branch with its writes -/

/-- The arrays that `serve_directory` writes to. -/
inductive array_t
  | location
  | index_path
  | full_path
  | pattern
  deriving DecidableEq

/-- `sizeof` of the array. -/
def array_t.size : array_t → ℕ
  | .location => MAX_PATH + 2
  | .index_path => MAX_PATH
  | .full_path => MAX_PATH
  | .pattern => MAX_PATH

/-- A text written into an array, with a NUL behind it. -/
structure write_t where
  dest : array_t
  text : List u8
  deriving DecidableEq

/-- The text and its NUL are in the array. -/
def write_t.Fits (w : write_t) : Prop := w.text.length + 1 ≤ w.dest.size

instance (w : write_t) : Decidable w.Fits := inferInstanceAs (Decidable (_ ≤ _))

/-- `lstrcpy(location, url_path); lstrcat(location, "/");` -/
def location_write (url_path : List u8) : write_t := ⟨.location, cstr url_path ++ ascii "/"⟩

/-- `lstrcpy(index_path, full_path); lstrcat(index_path, "\\index.html");` -/
def index_write (full_path : List u8) : write_t := ⟨.index_path, full_path ++ ascii "\\index.html"⟩

/-- `lstrcpy(full_path, index_path)`. -/
def copy_write (full_path : List u8) : write_t := ⟨.full_path, full_path ++ ascii "\\index.html"⟩

/-- `lstrcpy(pattern, full_path); lstrcat(pattern, "\\*");` -/
def pattern_write (full_path : List u8) : write_t := ⟨.pattern, full_path ++ ascii "\\*"⟩

/-- `serve_directory`, and what it writes into the local arrays on its way. -/
def serve_directory_writes (fs : FileSystem σ) (url_path full_path : List u8)
    (path_len out_size : ℕ) (ctx : stream_state_t) (s : σ) : List write_t × serve_result σ :=
  if url_path.getD (path_len - 1) 0 ≠ chr '/' then
    ([location_write url_path],
      inline_response (build_http_redirect_response (location_text url_path) out_size) ctx s)
  else
    match fs.GetFileAttributes s (index_path full_path) with
    | (index_attributes, s) =>
        if index_attributes ≠ INVALID_FILE_ATTRIBUTES then
          ([index_write full_path, copy_write full_path],
            serve_file fs (index_path full_path) out_size ctx s)
        -- the length is compared when the text is already in the array
        else if (pattern full_path).length ≥ MAX_PATH then
          ([index_write full_path, pattern_write full_path],
            inline_response (build_http_error_response 500 (ascii "Path too long") out_size) ctx s)
        else
          match open_listing fs ctx url_path (pattern full_path) s with
          | (ctx, s) =>
              match build_http_listing_header out_size with
              | none => ([index_write full_path, pattern_write full_path],
                  ⟨-1, [], (stream_close fs ctx s).1, (stream_close fs ctx s).2⟩)
              | some out => ([index_write full_path, pattern_write full_path], ⟨1, out, ctx, s⟩)

/-- The record changes nothing. -/
theorem serve_directory_writes_snd (fs : FileSystem σ) (url_path full_path : List u8)
    (path_len out_size : ℕ) (ctx : stream_state_t) (s : σ) :
    (serve_directory_writes fs url_path full_path path_len out_size ctx s).2
      = serve_directory fs url_path full_path path_len out_size ctx s := by
  rw [serve_directory_writes, serve_directory]
  by_cases hslash : url_path.getD (path_len - 1) 0 ≠ chr '/'
  · rw [if_pos hslash, if_pos hslash]
  rw [if_neg hslash, if_neg hslash]
  dsimp only
  by_cases hindex : (fs.GetFileAttributes s (index_path full_path)).1 ≠ INVALID_FILE_ATTRIBUTES
  · rw [if_pos hindex, if_pos hindex]
  rw [if_neg hindex, if_neg hindex]
  by_cases hlong : (pattern full_path).length ≥ MAX_PATH
  · rw [if_pos hlong, if_pos hlong]
  rw [if_neg hlong, if_neg hlong]
  rcases build_http_listing_header out_size with _ | out
  · rfl
  · rfl

/-- Without a redirect the index path is written first, and one more text behind it. -/
theorem mem_serve_directory_writes (fs : FileSystem σ) {url_path : List u8} {path_len : ℕ}
    (hslash : url_path.getD (path_len - 1) 0 = chr '/') (full_path : List u8) (out_size : ℕ)
    (ctx : stream_state_t) (s : σ) :
    ∃ w, (w = copy_write full_path ∨ w = pattern_write full_path)
      ∧ (serve_directory_writes fs url_path full_path path_len out_size ctx s).1
        = [index_write full_path, w] := by
  rw [serve_directory_writes, if_neg (not_not.mpr hslash)]
  dsimp only
  split_ifs
  · exact ⟨_, Or.inl rfl, rfl⟩
  · exact ⟨_, Or.inr rfl, rfl⟩
  · rcases build_http_listing_header out_size with _ | out
    · exact ⟨_, Or.inr rfl, rfl⟩
    · exact ⟨_, Or.inr rfl, rfl⟩

/-! ## Which texts fit -/

/-- A URL below `MAX_PATH` has room for its slash. -/
theorem location_write_fits {url_path : List u8} (h : (cstr url_path).length < MAX_PATH) :
    (location_write url_path).Fits := by
  show (cstr url_path ++ ascii "/").length + 1 ≤ MAX_PATH + 2
  have hslash : (ascii "/").length = 1 := by decide
  rw [List.length_append, hslash]
  omega

/-- Eleven characters are appended, and a NUL. -/
theorem index_write_fits_iff (full_path : List u8) :
    (index_write full_path).Fits ↔ full_path.length ≤ 248 := by
  show (full_path ++ ascii "\\index.html").length + 1 ≤ 260 ↔ full_path.length ≤ 248
  have hindex : (ascii "\\index.html").length = 11 := by decide
  rw [List.length_append, hindex]
  omega

theorem copy_write_fits_iff (full_path : List u8) :
    (copy_write full_path).Fits ↔ full_path.length ≤ 248 := index_write_fits_iff full_path

/-- Two characters are appended, and a NUL. -/
theorem pattern_write_fits_iff (full_path : List u8) :
    (pattern_write full_path).Fits ↔ full_path.length ≤ 257 := by
  show (full_path ++ ascii "\\*").length + 1 ≤ 260 ↔ full_path.length ≤ 257
  have hstar : (ascii "\\*").length = 2 := by decide
  rw [List.length_append, hstar]
  omega

/-- The writes of the branch, as `serve_http_request` reaches it. -/
def directory_writes (document_root : List u8) (fs : FileSystem σ) (req : http_request_t)
    (out_size : ℕ) (ctx : stream_state_t) (s : σ) : List write_t :=
  (serve_directory_writes fs req.path_bytes (full_path document_root req) (path_len req).toNat
    out_size (clean_slate ctx) (attributes document_root fs req s).2).1

/-- **The directory branch stays inside its arrays** exactly when it redirects, or the path
of the directory leaves room for the name of its index page. -/
theorem directory_writes_fit_iff {document_root : List u8} {fs : FileSystem σ}
    {req : http_request_t} {s : σ} (h : NamesDirectory document_root fs req s) (out_size : ℕ)
    (ctx : stream_state_t) :
    (∀ w ∈ directory_writes document_root fs req out_size ctx s, w.Fits)
      ↔ last_byte req ≠ chr '/' ∨ (full_path document_root req).length ≤ 248 := by
  by_cases hslash : last_byte req = chr '/'
  · obtain ⟨w, hw, hwrites⟩ := mem_serve_directory_writes fs hslash
      (full_path document_root req) out_size (clean_slate ctx) (attributes document_root fs req s).2
    rw [directory_writes, hwrites, or_iff_right (not_not.mpr hslash)]
    constructor
    · intro hall
      exact (index_write_fits_iff _).mp (hall _ List.mem_cons_self)
    · intro hle w' hw'
      rcases List.mem_pair.mp hw' with rfl | rfl
      · exact (index_write_fits_iff _).mpr hle
      · rcases hw with rfl | rfl
        · exact (copy_write_fits_iff _).mpr hle
        · exact (pattern_write_fits_iff _).mpr (by omega)
  · refine iff_of_true ?_ (Or.inl hslash)
    have hredirect : directory_writes document_root fs req out_size ctx s
        = [location_write req.path_bytes] := congrArg Prod.fst (if_pos hslash)
    rw [hredirect]
    intro w hw
    rw [List.mem_singleton.mp hw]
    exact location_write_fits (path_bytes_length_lt h.toResolves)

theorem directory_writes_fit_short :
    (full_path (ascii "C:\\www") get_d).length ≤ 248
      ∧ ∀ w ∈ directory_writes (ascii "C:\\www") empty_site get_d HTTP_SEND_BUFFER_SIZE
          initial_stream [], w.Fits := by
  have hnames : NamesDirectory (ascii "C:\\www") empty_site get_d [] :=
    ⟨⟨by decide, by decide, by decide, by decide⟩, by decide, by decide⟩
  have hshort : (full_path (ascii "C:\\www") get_d).length ≤ 248 := by decide
  have hiff := directory_writes_fit_iff hnames HTTP_SEND_BUFFER_SIZE initial_stream
  exact ⟨hshort, hiff.mpr (Or.inr hshort)⟩

/-- A root of 250 characters with a directory in it. -/
def deep_root : List u8 := List.replicate 250 (chr 'a')

/-- A directory whose path is too long for its index page. -/
def deep_site : FileSystem handles_t := disk [(deep_root ++ ascii "\\d/", .directory [])]

theorem not_directory_writes_fit :
    ¬ ∀ (document_root : List u8) (fs : FileSystem handles_t) (req : http_request_t)
      (s : handles_t), NamesDirectory document_root fs req s →
      ∀ w ∈ directory_writes document_root fs req HTTP_SEND_BUFFER_SIZE initial_stream s,
        w.Fits := by
  intro h
  have hnames : NamesDirectory deep_root deep_site get_d [] :=
    ⟨⟨by decide, by decide, by decide, by decide +kernel⟩, by decide +kernel, by decide +kernel⟩
  have hindex := h deep_root deep_site get_d [] hnames (index_write (full_path deep_root get_d))
    (by decide +kernel)
  rw [index_write_fits_iff] at hindex
  have hlong : 248 < (full_path deep_root get_d).length := by decide +kernel
  omega

end W32HttpServer.DirectoryBuffers

/-
The body of a file response.

`serve_http_request` measures the file, reads its first bytes to tell the type, winds it back
and leaves the handle and the length in the context; `stream_next_chunk` then reads on from
there and counts the length down. The two counts, the file pointer of the system and
`stream_remaining`, have to stay in step however short the reads come out. `OwesFile` says
that they are: the bytes from the pointer on start with what is still owed, and
`stream_remaining` is how much that is. One call pays a part of it
(`stream_next_chunk_pays`), and the debt rule gives the whole body and every stage of it
(`file_streamed`).

The length is a 32-bit number on its way, the low word of the file's. A file of 4 GiB or more
is announced and streamed by its low word, unless that is the one value `GetFileSize` has for
a failure (`length_right_iff`).
-/
import W32HttpServer.Common
import W32HttpServer.HttpRequest
import W32HttpServer.RequestText
import W32HttpServer.HttpResponse
import W32HttpServer.MagicNumbers
import W32HttpServer.ResponseFraming
import W32HttpServer.Platform
import W32HttpServer.Disk
import W32HttpServer.Context
import W32HttpServer.Serve
import W32HttpServer.Lib.Generator

set_option autoImplicit false

namespace W32HttpServer.FileBody

open W32HttpServer.Common W32HttpServer.HttpRequest W32HttpServer.RequestText
open W32HttpServer.HttpResponse W32HttpServer.MagicNumbers W32HttpServer.ResponseFraming
open W32HttpServer.Platform W32HttpServer.Disk W32HttpServer.Context W32HttpServer.Serve
open W32HttpServer.Lib.Generator

variable {σ : Type}

/-! ## One chunk -/

/-- What the consumer of a body calls until it gets nothing. -/
def next_chunk (fs : FileSystem σ) (buf_size : ℕ) (p : stream_state_t × σ) :
    List u8 × stream_state_t × σ :=
  stream_next_chunk fs buf_size p.1 p.2

/-- The context streams the file and has `r` of it still to send. -/
structure OwesFile (content : List u8) (h : ℕ) (At : σ → ℕ → Prop) (p : stream_state_t × σ)
    (r : List u8) : Prop where
  kind : p.1.stream_kind = .STREAM_FILE
  file : p.1.stream_file = .of h
  in_step : ∃ pos, At p.2 pos ∧ r <+: content.drop pos
  remaining : p.1.stream_remaining.toNat = r.length

/-- A part of what stands in front can be cut off. -/
theorem cut_prefix {content d r : List u8} {pos : ℕ} (hd : d <+: content.drop pos)
    (hr : r <+: content.drop pos) (hlen : d.length ≤ r.length) :
    ∃ r', r = d ++ r' ∧ r' <+: content.drop (pos + d.length) := by
  obtain ⟨r', rfl⟩ := List.prefix_of_prefix_length_le hd hr hlen
  obtain ⟨t, ht⟩ := hr
  refine ⟨r', rfl, t, ?_⟩
  rw [← List.drop_drop, ← ht, List.append_assoc, List.drop_left]

/-- What a chunk takes from the count. -/
theorem remaining_sub {remaining : u32} {n : ℕ} (h : n ≤ remaining.toNat) :
    (remaining - UInt32.ofNat n).toNat = remaining.toNat - n := by
  have hlt := remaining.toNat_lt
  have hof : (UInt32.ofNat n).toNat = n := by
    rw [UInt32.toNat_ofNat', Nat.mod_eq_of_lt (by omega)]
  rw [UInt32.toNat_sub_of_le _ _ (by rw [UInt32.le_iff_toNat_le, hof]; exact h), hof]

/-- **One call pays a part of the debt**, something as long as there is any. -/
theorem stream_next_chunk_pays {fs : FileSystem σ} {content : List u8} {h : ℕ}
    {At : σ → ℕ → Prop} (hreads : ReadsFile fs (.of h) content At) {buf_size : ℕ}
    (hbuf : 1 ≤ buf_size) (p : stream_state_t × σ) (r : List u8)
    (howes : OwesFile content h At p r) :
    ∃ r', r = (next_chunk fs buf_size p).1 ++ r'
      ∧ OwesFile content h At (next_chunk fs buf_size p).2 r'
      ∧ ((next_chunk fs buf_size p).1 = [] → r = [])
      ∧ (next_chunk fs buf_size p).1.length ≤ buf_size := by
  obtain ⟨ctx, s⟩ := p
  obtain ⟨hkind, hfile, ⟨pos, hat, hpos⟩, hremaining⟩ := howes
  dsimp only at hkind hfile hat hremaining
  rw [next_chunk, stream_next_chunk, if_neg (by omega), hkind, hfile]
  dsimp only
  by_cases hend : ctx.stream_remaining = 0
  · -- nothing is owed any more
    have hnil : r = [] := by
      rw [hend] at hremaining
      exact List.eq_nil_of_length_eq_zero hremaining.symm
    rw [if_pos (Or.inr hend)]
    exact ⟨r, rfl, ⟨hkind, hfile, ⟨pos, hat, hpos⟩, hremaining⟩, fun _ => hnil, Nat.zero_le _⟩
  · have hpositive : 1 ≤ ctx.stream_remaining.toNat := by
      by_contra hzero
      exact hend (UInt32.toNat_inj.mp (by show ctx.stream_remaining.toNat = 0; omega))
    have hinside : pos < content.length := by
      have hle := hpos.length_le
      rw [List.length_drop] at hle
      omega
    -- the read stays within what is owed, so what it brings is a part of that
    obtain ⟨d, hread, hd, hsome, hat'⟩ := hreads.read
      (n := min buf_size ctx.stream_remaining.toNat) hat (by omega)
    have hroom := fs.read_le hread
    have hne : ¬ d.length = 0 := fun h0 => hsome hinside (List.eq_nil_of_length_eq_zero h0)
    obtain ⟨r', hr, hr'⟩ := cut_prefix hd hpos (by omega)
    rw [if_neg (not_or.mpr ⟨by simp, hend⟩)]
    rcases hres : fs.ReadFile s (.of h) (min buf_size ctx.stream_remaining.toNat) with ⟨got, s'⟩
    rw [hres] at hread hat'
    dsimp only at hread hat' ⊢
    rw [hread]
    dsimp only
    rw [if_neg hne]
    refine ⟨r', hr, ⟨rfl, rfl, ⟨_, hat', hr'⟩, ?_⟩, fun h0 => absurd h0 (hsome hinside), ?_⟩
    · rw [remaining_sub (by omega), hremaining, hr, List.length_append]
      omega
    · dsimp only
      omega

/-! ## From the head to the body -/

/-- What `serve_file` does with a file it could open and measure. -/
theorem serve_file_opened {fs : FileSystem σ} {path : List u8} {s s1 : σ} {h : ℕ}
    (hopen : fs.CreateFile s path = (some h, s1))
    (hvalid : (fs.GetFileSize s1 (.of h)).1 ≠ INVALID_FILE_SIZE) (out_size : ℕ)
    (ctx : stream_state_t) :
    serve_file fs path out_size ctx s
      = match build_http_file_header (detect_mime_type path
            ((fs.ReadFile (fs.GetFileSize s1 (.of h)).2 (.of h) 512).1.getD []))
          (fs.GetFileSize s1 (.of h)).1 out_size with
        | none => ⟨-1, [], ctx, fs.CloseHandle (fs.SetFilePointer
            (fs.ReadFile (fs.GetFileSize s1 (.of h)).2 (.of h) 512).2 (.of h) 0) (.of h)⟩
        | some out => ⟨1, out, { ctx with
            stream_file := .of h
            stream_remaining := (fs.GetFileSize s1 (.of h)).1
            stream_kind := .STREAM_FILE }, fs.SetFilePointer
              (fs.ReadFile (fs.GetFileSize s1 (.of h)).2 (.of h) 512).2 (.of h) 0⟩ := by
  rw [serve_file, hopen]
  exact if_neg hvalid

/-- An inline response is not followed by a body. -/
theorem inline_response_rc (r : Option (List u8)) (ctx : stream_state_t) (s : σ) :
    (inline_response r ctx s).rc ≠ 1 := by
  rcases r with _ | out
  · show (-1 : ℤ) ≠ 1
    decide
  · show (0 : ℤ) ≠ 1
    decide

/-- A body follows only for a file that could be opened and measured. -/
theorem serve_file_rc_one {fs : FileSystem σ} {path : List u8} {out_size : ℕ}
    {ctx : stream_state_t} {s : σ} (hrc : (serve_file fs path out_size ctx s).rc = 1) :
    ∃ h s1, fs.CreateFile s path = (some h, s1)
      ∧ (fs.GetFileSize s1 (.of h)).1 ≠ INVALID_FILE_SIZE := by
  rcases hopen : fs.CreateFile s path with ⟨_ | h, s1⟩
  · rw [serve_file, hopen] at hrc
    exact absurd hrc (inline_response_rc _ _ _)
  · refine ⟨h, s1, rfl, fun hvalid => ?_⟩
    rw [serve_file, hopen] at hrc
    dsimp only at hrc
    rw [if_pos hvalid] at hrc
    exact absurd hrc (inline_response_rc _ _ _)

/-- The low word of the length of a file. -/
def low_word (content : List u8) : u32 := UInt32.ofNat content.length

theorem low_word_toNat (content : List u8) :
    (low_word content).toNat = content.length % 2 ^ 32 := UInt32.toNat_ofNat'

/-- **The rewind undoes the peek**: what is left in the context owes the file from its
beginning, as far as its low word counts. -/
theorem serve_file_owes {fs : FileSystem σ} {path content : List u8}
    (hstores : Stores fs path content) {out_size : ℕ} {ctx : stream_state_t} {s : σ}
    (hrc : (serve_file fs path out_size ctx s).rc = 1) :
    ∃ h At, ReadsFile fs (.of h) content At
      ∧ OwesFile content h At
        ((serve_file fs path out_size ctx s).ctx, (serve_file fs path out_size ctx s).fs_state)
        (content.take (low_word content).toNat) := by
  obtain ⟨h, s1, hopen, hvalid⟩ := serve_file_rc_one hrc
  obtain ⟨At, hreads, hat⟩ := hstores s h s1 hopen
  obtain ⟨hsize, hat2⟩ := hreads.size hat
  obtain ⟨d, -, -, -, hat3⟩ := hreads.read (n := 512) hat2 (by decide)
  have hat4 := hreads.rewind hat3
  have hopened := serve_file_opened hopen hvalid out_size ctx
  rw [hopened] at hrc ⊢
  rcases hhead : build_http_file_header (detect_mime_type path
    ((fs.ReadFile (fs.GetFileSize s1 (.of h)).2 (.of h) 512).1.getD []))
    (fs.GetFileSize s1 (.of h)).1 out_size with _ | out
  · rw [hhead] at hrc
    have hminus : (-1 : ℤ) = 1 := hrc
    exact absurd hminus (by decide)
  · refine ⟨h, At, hreads, rfl, rfl, ⟨0, hat4, List.take_prefix _ _⟩, ?_⟩
    have hmod := Nat.mod_le content.length (2 ^ 32)
    show (fs.GetFileSize s1 (.of h)).1.toNat = _
    rw [hsize, List.length_take, low_word_toNat, UInt32.toNat_ofNat', min_eq_left hmod]

/-! ## The whole body -/

variable {document_root path content : List u8} {fs : FileSystem σ} {req : http_request_t}
  {s s0 : σ}

/-- A response with a body left room for its head. -/
theorem out_size_ne_zero {ctx : stream_state_t} {out_size : ℕ}
    (hrc : (serve_http_request document_root fs ctx req out_size s).rc = 1) : out_size ≠ 0 := by
  rintro rfl
  rw [serve_http_request, if_pos rfl] at hrc
  have hminus : (-1 : ℤ) = 1 := hrc
  exact absurd hminus (by decide)

/-- What is left in the context, for a request that is answered with a file. -/
theorem serve_http_request_owes (hfile : ServesFile document_root fs req s path s0)
    (hstores : Stores fs path content) {ctx : stream_state_t} {out_size : ℕ}
    (hrc : (serve_http_request document_root fs ctx req out_size s).rc = 1) :
    ∃ h At, ReadsFile fs (.of h) content At
      ∧ OwesFile content h At
        ((serve_http_request document_root fs ctx req out_size s).ctx,
          (serve_http_request document_root fs ctx req out_size s).fs_state)
        (content.take (low_word content).toNat) := by
  have hsize := out_size_ne_zero hrc
  rw [serve_http_request_file hfile hsize] at hrc ⊢
  exact serve_file_owes hstores hrc

/-- The chunks that are sent before the first empty one. -/
theorem file_drains (hfile : ServesFile document_root fs req s path s0)
    (hstores : Stores fs path content) {ctx : stream_state_t} {out_size : ℕ}
    (hrc : (serve_http_request document_root fs ctx req out_size s).rc = 1) {buf_size : ℕ}
    (hbuf : 1 ≤ buf_size) :
    ∃ chunks last, Drains (next_chunk fs buf_size)
        ((serve_http_request document_root fs ctx req out_size s).ctx,
          (serve_http_request document_root fs ctx req out_size s).fs_state) chunks last
      ∧ chunks.flatten = content.take (low_word content).toNat
      ∧ ∀ c ∈ chunks, c.length ≤ buf_size := by
  obtain ⟨h, At, hreads, howes⟩ := serve_http_request_owes hfile hstores hrc
  obtain ⟨chunks, last, hdrains, hflat, hall⟩ := drains_of_owes (next_chunk fs buf_size)
    (OwesFile content h At) (fun c => c.length ≤ buf_size)
    (stream_next_chunk_pays hreads hbuf) _ _ howes
  exact ⟨chunks, last, hdrains, hflat, fun c hc => (hall c hc).2⟩

/-- What a file response is while it is sent: the chunks make up the content, and the count
goes down with every one of them without ever wrapping. -/
structure Streams (fs : FileSystem σ) (content : List u8) (buf_size : ℕ)
    (p : stream_state_t × σ) : Prop where
  whole : ∃ chunks last, Drains (next_chunk fs buf_size) p chunks last
    ∧ chunks.flatten = content ∧ ∀ c ∈ chunks, c.length ≤ buf_size
  in_step : ∀ chunks q, Calls (next_chunk fs buf_size) p chunks q →
    chunks.flatten <+: content
      ∧ q.1.stream_remaining.toNat + chunks.flatten.length = content.length
      ∧ (next_chunk fs buf_size q).1.length ≤ q.1.stream_remaining.toNat

/-- **A file body is streamed whole and in order**, however short the reads are. Each call pays a
part of what is owed and leaves the rest owed, with `stream_remaining` for its length, so the
chunks up to the first empty one are the file. -/
theorem file_streamed (hfile : ServesFile document_root fs req s path s0)
    (hstores : Stores fs path content) (hlen : content.length < 2 ^ 32 - 1) {ctx : stream_state_t}
    {out_size : ℕ} (hrc : (serve_http_request document_root fs ctx req out_size s).rc = 1)
    {buf_size : ℕ} (hbuf : 1 ≤ buf_size) :
    Streams fs content buf_size
      ((serve_http_request document_root fs ctx req out_size s).ctx,
        (serve_http_request document_root fs ctx req out_size s).fs_state) := by
  have hall : content.take (low_word content).toNat = content := by
    rw [low_word_toNat, Nat.mod_eq_of_lt (by omega), List.take_length]
  obtain ⟨h, At, hreads, howes⟩ := serve_http_request_owes hfile hstores hrc
  have hdrains := file_drains hfile hstores hrc hbuf
  rw [hall] at howes hdrains
  refine ⟨hdrains, fun chunks q hcalls => ?_⟩
  obtain ⟨r, hr, howes', -⟩ := calls_of_owes (P := fun c => c.length ≤ buf_size)
    (stream_next_chunk_pays hreads hbuf) hcalls _ howes
  obtain ⟨r', hr', -, -, -⟩ := stream_next_chunk_pays hreads hbuf q r howes'
  refine ⟨⟨r, hr.symm⟩, ?_, ?_⟩
  · rw [howes'.remaining, hr, List.length_append, Nat.add_comm]
  · rw [howes'.remaining, hr', List.length_append]
    omega

/-- The same file system with reads of at most `k + 1` bytes. -/
def trickle (fs : FileSystem σ) (k : ℕ) : FileSystem σ :=
  { fs with
    ReadFile := fun s h n => fs.ReadFile s h (min n (k + 1))
    read_le := fun hd => (fs.read_le hd).trans (min_le_left _ _) }

theorem stores_trickle (hstores : Stores fs path content) (k : ℕ) :
    Stores (trickle fs k) path content := by
  intro s h s1 hopen
  obtain ⟨At, hreads, hat⟩ := hstores s h s1 hopen
  exact ⟨At, ⟨hreads.size, fun hat hn => hreads.read hat (by omega), hreads.rewind⟩, hat⟩

/-- A site with one file. -/
def one_file (data : List u8) : tree_t := [(ascii "C:\\www\\a", .file data)]

def get_a : http_request_t :=
  ⟨1, ⟨17, 21⟩, ⟨4, 6⟩, ascii "GET /a HTTP/1.0\r\nA: b\r\n\r\n"⟩

theorem get_a_resolves : Resolves (ascii "C:\\www") get_a :=
  ⟨by decide, by decide, by decide, by decide⟩

theorem get_a_path : full_path (ascii "C:\\www") get_a = ascii "C:\\www\\a" := by decide

/-- "hello", read two bytes at a time. -/
theorem file_streamed_hello :
    Streams (trickle (disk (one_file (ascii "hello"))) 1) (ascii "hello") 4
      ((serve_http_request (ascii "C:\\www") (trickle (disk (one_file (ascii "hello"))) 1)
          initial_stream get_a HTTP_SEND_BUFFER_SIZE []).ctx,
        (serve_http_request (ascii "C:\\www") (trickle (disk (one_file (ascii "hello"))) 1)
          initial_stream get_a HTTP_SEND_BUFFER_SIZE []).fs_state) := by
  have hfile : ServesFile (ascii "C:\\www") (trickle (disk (one_file (ascii "hello"))) 1) get_a []
      (full_path (ascii "C:\\www") get_a) [] := .plain get_a_resolves (by decide) (by decide)
  have hstores : Stores (trickle (disk (one_file (ascii "hello"))) 1)
      (full_path (ascii "C:\\www") get_a) (ascii "hello") :=
    stores_trickle (stores_of_lookup (by decide)) 1
  exact file_streamed hfile hstores (by decide) (by decide +kernel) (by decide)

/-! ## The length announced -/

/-- The head of a file response reaches the send buffer whole, whatever the type. -/
theorem build_http_file_header_whole (file_path file_data : List u8) (file_size : u32) :
    build_http_file_header (detect_mime_type file_path file_data) file_size HTTP_SEND_BUFFER_SIZE
      = some (response (ascii "HTTP/1.0 200 OK") (detect_mime_type file_path file_data)
          file_size.toNat []) := by
  obtain ⟨⟨h0, -, -⟩, hlen⟩ := mime_type_text _ (detect_mime_type_mem file_path file_data)
  have hle := file_text_length_le hlen file_size
  rw [build_http_file_header_eq, cstr_of_no_nul h0, format_into_of_limit _ (by decide),
    wsprintf_of_lt (by omega)]

/-- A response that says the file follows. -/
def AnswersOk (r : serve_result σ) : Prop := ascii "HTTP/1.0 200" <+: r.out

/-- An error response, complete in itself. -/
def Refused (r : serve_result σ) : Prop :=
  r.rc = 0 ∧ ∃ status_code message, (400 : ℤ) ≤ status_code
    ∧ build_http_error_response status_code message HTTP_SEND_BUFFER_SIZE = some r.out

/-- The response tells and sends the length of the file, or does not send it: what is printed
and what is streamed are both the length, and one that 32 bits with the reserved value among
them cannot hold is refused. -/
structure LengthRight (fs : FileSystem σ) (content : List u8) (r : serve_result σ) : Prop where
  announced : AnswersOk r → content_length r.out = some content.length
  streamed : AnswersOk r → ∀ buf_size, 1 ≤ buf_size → ∃ chunks last,
    Drains (next_chunk fs buf_size) (r.ctx, r.fs_state) chunks last
      ∧ chunks.flatten.length = content.length
  refused : 2 ^ 32 - 1 ≤ content.length → Refused r

/-- A file that cannot be opened or measured is refused, so nothing is promised of it. -/
theorem lengthRight_of_error (fs : FileSystem σ) (content : List u8) (ctx : stream_state_t)
    (s : σ) : LengthRight fs content (inline_response
      (build_http_error_response 500 (ascii "Cannot read file") HTTP_SEND_BUFFER_SIZE) ctx s) := by
  have hlimit : (error_text 500 (ascii "Cannot read file")).length < 1024 :=
    error_text_lt_limit (by decide) (by decide)
  rw [build_http_error_response_whole hlimit (by decide)]
  have hnot : ¬ AnswersOk (inline_response (some (error_text 500 (ascii "Cannot read file")))
      ctx s) := by
    show ¬ ascii "HTTP/1.0 200" <+: error_text 500 (ascii "Cannot read file")
    decide +kernel
  exact ⟨fun h => absurd h hnot, fun h => absurd h hnot, fun _ => ⟨rfl, 500,
    ascii "Cannot read file", by decide, build_http_error_response_whole hlimit (by decide)⟩⟩

theorem low_word_eq_invalid_iff (content : List u8) :
    low_word content = INVALID_FILE_SIZE ↔ content.length % 2 ^ 32 = 2 ^ 32 - 1 := by
  have hinvalid : INVALID_FILE_SIZE.toNat = 2 ^ 32 - 1 := by decide
  rw [← UInt32.toNat_inj, low_word_toNat, hinvalid]

/-- A file that is opened and measured is answered with its low word. -/
theorem serve_file_answered (hstores : Stores fs path content) {h : ℕ} {s1 : σ}
    (hopen : fs.CreateFile s0 path = (some h, s1))
    (hvalid : low_word content ≠ INVALID_FILE_SIZE) (ctx : stream_state_t) :
    (serve_file fs path HTTP_SEND_BUFFER_SIZE ctx s0).rc = 1
      ∧ ∃ mime, (chr '\r' ∉ mime ∧ chr '\n' ∉ mime)
        ∧ (serve_file fs path HTTP_SEND_BUFFER_SIZE ctx s0).out
          = response (ascii "HTTP/1.0 200 OK") mime (low_word content).toNat [] := by
  obtain ⟨At, hreads, hat⟩ := hstores s0 h s1 hopen
  have hsize : (fs.GetFileSize s1 (.of h)).1 = low_word content := (hreads.size hat).1
  rw [serve_file_opened hopen (by rw [hsize]; exact hvalid), hsize, build_http_file_header_whole]
  exact ⟨rfl, _, (mime_type_text _ (detect_mime_type_mem _ _)).1.2, rfl⟩

/-- **Content-Length is the file's length** exactly below 4 GiB, and where the file is refused:
because it cannot be opened, or because its low word is the value `GetFileSize` fails with. -/
theorem length_right_iff (hfile : ServesFile document_root fs req s path s0)
    (hstores : Stores fs path content) (ctx : stream_state_t) :
    LengthRight fs content (serve_http_request document_root fs ctx req HTTP_SEND_BUFFER_SIZE s)
      ↔ (fs.CreateFile s0 path).1 = none ∨ content.length < 2 ^ 32
        ∨ content.length % 2 ^ 32 = 2 ^ 32 - 1 := by
  have hbuffer : HTTP_SEND_BUFFER_SIZE ≠ 0 := by decide
  have hserve := serve_http_request_file hfile hbuffer ctx
  rcases hopen : fs.CreateFile s0 path with ⟨_ | h, s1⟩
  · -- the file is not opened: an error page, which announces its own length
    refine iff_of_true ?_ (Or.inl rfl)
    rw [hserve, serve_file, hopen]
    exact lengthRight_of_error fs content _ _
  obtain ⟨At, hreads, hat⟩ := hstores s0 h s1 hopen
  by_cases hinvalid : low_word content = INVALID_FILE_SIZE
  · -- nor is a file whose size looks like a failure
    refine iff_of_true ?_ (Or.inr (Or.inr ((low_word_eq_invalid_iff content).mp hinvalid)))
    have hsize : (fs.GetFileSize s1 (.of h)).1 = INVALID_FILE_SIZE :=
      (hreads.size hat).1.trans hinvalid
    rw [hserve, serve_file, hopen]
    dsimp only
    rw [if_pos hsize]
    exact lengthRight_of_error fs content _ _
  obtain ⟨hrc, mime, hmime, hout⟩ := serve_file_answered hstores hopen hinvalid (clean_slate ctx)
  rw [← hserve] at hrc hout
  -- otherwise the low word is announced
  have hnumber : content_length (serve_http_request document_root fs ctx req
      HTTP_SEND_BUFFER_SIZE s).out = some (content.length % 2 ^ 32) := by
    rw [hout, content_length_response (by decide) hmime.1, low_word_toNat]
  have hok : AnswersOk (serve_http_request document_root fs ctx req HTTP_SEND_BUFFER_SIZE s) := by
    rw [AnswersOk, hout, response_eq]
    exact (by decide : ascii "HTTP/1.0 200" <+: ascii "HTTP/1.0 200 OK").trans
      (List.prefix_append _ _)
  have hlow := mt (low_word_eq_invalid_iff content).mpr hinvalid
  constructor
  · intro hright
    have hlength := hright.announced hok
    rw [hnumber, Option.some.injEq] at hlength
    have hlt := Nat.mod_lt content.length (show 0 < 2 ^ 32 by decide)
    exact Or.inr (Or.inl (by omega))
  · rintro (hnone | hsmall | hreserved)
    · exact absurd hnone (by simp)
    · have hmod : content.length % 2 ^ 32 = content.length := Nat.mod_eq_of_lt hsmall
      refine ⟨fun _ => by rw [hnumber, hmod], fun _ buf_size hbuf => ?_, fun hlarge => ?_⟩
      · obtain ⟨chunks, last, hdrains, hflat, -⟩ := file_drains hfile hstores hrc hbuf
        refine ⟨chunks, last, hdrains, ?_⟩
        rw [hflat, low_word_toNat, hmod, List.take_length]
      · omega
    · exact absurd hreserved hlow

/-- The site serves its file, however long that is. -/
theorem one_file_served (data : List u8) :
    ServesFile (ascii "C:\\www") (disk (one_file data)) get_a [] (full_path (ascii "C:\\www") get_a)
        []
      ∧ Stores (disk (one_file data)) (full_path (ascii "C:\\www") get_a) data := by
  have hlookup : (one_file data).lookup (ascii "C:\\www\\a") = some (.file data) := rfl
  have hattributes : attributes (ascii "C:\\www") (disk (one_file data)) get_a [] = (0x80, []) := by
    rw [attributes, get_a_path]
    show (attributes_of ((one_file data).lookup (ascii "C:\\www\\a")), []) = (0x80, [])
    rw [hlookup]
    rfl
  have hfile : ServesFile (ascii "C:\\www") (disk (one_file data)) get_a []
      (full_path (ascii "C:\\www") get_a)
      (attributes (ascii "C:\\www") (disk (one_file data)) get_a []).2 :=
    .plain get_a_resolves (by rw [hattributes]; decide) (by rw [hattributes]; decide)
  constructor
  · rwa [hattributes] at hfile
  · rw [get_a_path]
    exact stores_of_lookup hlookup

theorem length_right_hello : LengthRight (disk (one_file (ascii "hello"))) (ascii "hello")
    (serve_http_request (ascii "C:\\www") (disk (one_file (ascii "hello"))) initial_stream get_a
      HTTP_SEND_BUFFER_SIZE []) := by
  obtain ⟨hfile, hstores⟩ := one_file_served (ascii "hello")
  exact (length_right_iff hfile hstores initial_stream).mpr (Or.inr (Or.inl (by decide)))

/-- A file of exactly 4 GiB is announced as empty. -/
theorem not_length_right :
    ¬ ∀ (document_root path content : List u8) (fs : FileSystem handles_t) (req : http_request_t)
      (s s0 : handles_t), ServesFile document_root fs req s path s0 → Stores fs path content →
      LengthRight fs content
        (serve_http_request document_root fs initial_stream req HTTP_SEND_BUFFER_SIZE s) := by
  intro h
  obtain ⟨data, hdata⟩ : ∃ data : List u8, data.length = 2 ^ 32 :=
    ⟨List.replicate (2 ^ 32) 0, List.length_replicate⟩
  obtain ⟨hfile, hstores⟩ := one_file_served data
  have hopen : (disk (one_file data)).CreateFile [] (full_path (ascii "C:\\www") get_a)
      = (some 0, [.file data 0]) := by
    have hlookup : (one_file data).lookup (ascii "C:\\www\\a") = some (.file data) := rfl
    rw [get_a_path]
    show create_file (one_file data) [] (ascii "C:\\www\\a") = (some 0, [.file data 0])
    rw [create_file, hlookup]
    rfl
  have hvalid : low_word data ≠ INVALID_FILE_SIZE := by
    rw [ne_eq, low_word_eq_invalid_iff, hdata]
    decide
  -- it is answered, not refused
  have hrefused := (h _ _ _ _ _ _ _ hfile hstores).refused (by rw [hdata]; decide)
  have hanswered := (serve_file_answered hstores hopen hvalid (clean_slate initial_stream)).1
  rw [serve_http_request_file hfile (by decide), Refused, hanswered] at hrefused
  exact absurd hrefused.1 (by decide)

end W32HttpServer.FileBody

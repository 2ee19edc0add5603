/-
The page of a directory, and what a client reads on it.

A listing announces no length; it is over when the connection is closed. The page itself says
whether that was its end: `read_page` takes the opening markup of the URL it asked for, row
after row, and the closing markup, behind which nothing may stand. What it reads then are the
entries of the directory with their kinds and sizes, in the order of the enumeration. On a
connection that broke it reads nothing, wherever in a row the bytes stop (`listing_downloaded`).

Unlike the other reading of a link in this development, which takes the text of an `href` for
granted, this one checks every byte of a row, the one text of a link against the other.
-/
import W32HttpServer.Common
import W32HttpServer.HttpRequest
import W32HttpServer.HttpResponse
import W32HttpServer.ResponseFraming
import W32HttpServer.Platform
import W32HttpServer.Disk
import W32HttpServer.Context
import W32HttpServer.DirStream
import W32HttpServer.Serve
import W32HttpServer.FileBody
import W32HttpServer.Links
import W32HttpServer.NtHandlers
import W32HttpServer.WholeResponse
import W32HttpServer.Download
import W32HttpServer.Lib.Generator
import W32HttpServer.Lib.Scan
import W32HttpServer.Lib.Reading

set_option autoImplicit false

namespace W32HttpServer.ListingPage

open W32HttpServer.Common W32HttpServer.HttpRequest W32HttpServer.HttpResponse
open W32HttpServer.ResponseFraming W32HttpServer.Platform W32HttpServer.Disk
open W32HttpServer.Context W32HttpServer.DirStream W32HttpServer.Serve W32HttpServer.FileBody
open W32HttpServer.Links W32HttpServer.NtHandlers W32HttpServer.WholeResponse
open W32HttpServer.Download
open W32HttpServer.Lib.Generator W32HttpServer.Lib.Scan W32HttpServer.Lib.Reading

variable {σ τ : Type}

/-! ## The client -/

/-- An entry as a listing shows it. -/
inductive listed_t
  | directory (name : List u8)
  | file (name : List u8) (size : ℕ)
  deriving DecidableEq

def listed (e : WIN32_FIND_DATA) : listed_t :=
  if is_directory e then .directory e.cFileName.bytes
  else .file e.cFileName.bytes e.nFileSizeLow.toNat

/-- The entries that are shown. -/
def shown (es : List WIN32_FIND_DATA) : List listed_t := (es.filter (!is_pseudo ·)).map listed

/-- What stands behind the link of a directory, and behind that of a file. -/
def read_kind (link : List u8) : Reader u8 listed_t :=
  if link.getLast? = some (chr '/') then do
    eat (ascii "</li>\r\n")
    pure (.directory link.dropLast)
  else do
    eat (ascii " (")
    let digits ← read_to (chr ' ')
    expect (digits.all is_digit = true)
    eat (ascii "bytes)</li>\r\n")
    pure (.file link (number digits))

/-- A row. A link that ends in a slash is a directory's. -/
def read_row : Reader u8 listed_t := do
  eat (ascii "<li><a href=\"")
  let link ← read_to (chr '"')
  eat (ascii ">" ++ link ++ ascii "</a>")
  read_kind link

/-- The entries on the page a client got when it asked for `url`, if it is all there. -/
def read_page (url wire : List u8) : Option (List listed_t) := do
  let page ← body_of wire
  let (_, entries) ← eat (opening url) page
  read_until footer_text read_row entries

/-! ## Reading a row -/

theorem reads_kind_directory (name : List u8) :
    Reads (read_kind (name ++ ascii "/")) (ascii "</li>\r\n") (.directory name) := by
  have hlast : (name ++ ascii "/").getLast? = some (chr '/') := by
    rw [List.getLast?_append_of_ne_nil _ (by decide)]
    rfl
  have hname : (name ++ ascii "/").dropLast = name := List.dropLast_concat
  rw [read_kind, if_pos hlast, hname, ← List.append_nil (ascii "</li>\r\n")]
  exact (reads_eat _).bind (reads_pure _)

theorem reads_kind_file {name : List u8} (hname : ValidName name) (size : ℕ) :
    Reads (read_kind name) (ascii " (" ++ (fmt_u size ++ ascii " bytes)</li>\r\n"))
      (.file name size) := by
  have hlast : name.getLast? ≠ some (chr '/') := by
    intro hslash
    exact hname.no_reserved _ (List.mem_of_getLast? hslash) (by decide)
  have hspace : chr ' ' ∉ fmt_u size := by
    intro hmem
    exact absurd (is_digit_of_mem_fmt_u hmem) (by decide)
  have hdigits : (fmt_u size).all is_digit = true :=
    List.all_eq_true.mpr fun c hc => is_digit_of_mem_fmt_u hc
  have htext : fmt_u size ++ ascii " bytes)</li>\r\n"
      = (fmt_u size ++ [chr ' ']) ++ ([] ++ (ascii "bytes)</li>\r\n" ++ [])) := by
    rw [List.append_nil, List.nil_append, List.append_assoc]
    rfl
  have hkind : Reads (read_kind name) (ascii " (" ++ (fmt_u size ++ ascii " bytes)</li>\r\n"))
      (.file name (number (fmt_u size))) := by
    rw [read_kind, if_neg hlast, htext]
    apply (reads_eat _).bind
    apply (reads_read_to hspace).bind
    apply (reads_expect hdigits).bind
    apply (reads_eat _).bind
    apply reads_pure
  rwa [number_fmt_u] at hkind

/-- A link, shown as itself, and what follows it. -/
theorem reads_link {link w : List u8} {v : listed_t} (hquote : chr '"' ∉ link)
    (h : Reads (read_kind link) w v) :
    Reads read_row (ascii "<li><a href=\"" ++ (link ++ (ascii "\">" ++ (link
      ++ (ascii "</a>" ++ w))))) v := by
  have htext : link ++ (ascii "\">" ++ (link ++ (ascii "</a>" ++ w)))
      = (link ++ [chr '"']) ++ ((ascii ">" ++ link ++ ascii "</a>") ++ w) := by
    have hend : ascii "\">" = chr '"' :: ascii ">" := rfl
    rw [hend]
    simp only [List.append_assoc, List.cons_append, List.nil_append]
  rw [read_row, htext]
  apply (reads_eat _).bind
  apply (reads_read_to hquote).bind
  exact (reads_eat _).bind h

/-- **A row is read back**, if Windows allows the name. -/
theorem reads_row {e : WIN32_FIND_DATA} (hname : ValidName e.cFileName.bytes) :
    Reads read_row (row_text e) (listed e) := by
  have hquote : chr '"' ∉ e.cFileName.bytes :=
    fun hmem => hname.no_reserved _ hmem (by decide)
  rw [row_text, listed]
  split_ifs
  · have hlink : chr '"' ∉ e.cFileName.bytes ++ ascii "/" := by
      rw [List.mem_append, not_or]
      exact ⟨hquote, by decide⟩
    have hrow := reads_link hlink (reads_kind_directory e.cFileName.bytes)
    have hend : ascii "/\">" = ascii "/" ++ ascii "\">" := rfl
    have hend' : ascii "/</a></li>\r\n" = ascii "/" ++ (ascii "</a>" ++ ascii "</li>\r\n") := rfl
    simp only [hend, hend', List.append_assoc] at hrow ⊢
    exact hrow
  · have hrow := reads_link hquote (reads_kind_file hname e.nFileSizeLow.toNat)
    have hend : ascii "</a> (" = ascii "</a>" ++ ascii " (" := rfl
    simp only [hend, List.append_assoc] at hrow ⊢
    exact hrow

theorem local_read_kind (link : List u8) : Local (read_kind link) := by
  apply Local.ite
  · exact (local_eat _).bind fun _ => local_pure _
  · exact (local_eat _).bind fun _ => (local_read_to _).bind fun _ => (local_expect _).bind
      fun _ => (local_eat _).bind fun _ => local_pure _

theorem local_read_row : Local read_row := by
  apply (local_eat _).bind
  intro _
  apply (local_read_to _).bind
  intro link
  exact (local_eat _).bind fun _ => local_read_kind link

/-- The closing markup is no row. -/
theorem read_row_footer (u : List u8) : read_row (footer_text ++ u) = none := by
  have hno : ¬ ascii "<li><a href=\"" <+: footer_text ++ u := by
    intro hrow
    have hfooter : ascii "<li><a href=\"" <+: footer_text :=
      List.prefix_of_prefix_length_le hrow (List.prefix_append _ u) (by decide)
    exact absurd hfooter (by decide)
  rw [read_row, bind_apply, eat, if_neg hno, Option.bind_none]

/-! ## Reading a page -/

/-- **The page is read back**: every entry that is not a pseudo-entry. -/
theorem read_rows {es : List WIN32_FIND_DATA}
    (hnames : ∀ e ∈ es, is_pseudo e = false → ValidName e.cFileName.bytes) :
    read_until footer_text read_row (rows es ++ footer_text) = some (shown es) := by
  have hfooter : read_row footer_text = none := by
    have hnone := read_row_footer []
    rwa [List.append_nil] at hnone
  apply read_until_flatMap hfooter
  intro e he
  rw [List.mem_filter, Bool.not_eq_true'] at he
  have hpos : (row_text e).length ≠ 0 := by
    rw [row_text_length]
    split_ifs <;> omega
  exact ⟨fun hnil => hpos (List.length_eq_zero_iff.mpr hnil), reads_row (hnames e he.1 he.2)⟩

theorem read_page_eq_some {url wire : List u8} {d : List listed_t} (h : read_page url wire = some d) :
    ∃ page entries, body_of wire = some page ∧ eat (opening url) page = some ((), entries)
      ∧ read_until footer_text read_row entries = some d := by
  rw [read_page, Option.bind_eq_bind, Option.bind_eq_some_iff] at h
  obtain ⟨page, hpage, h⟩ := h
  rw [Option.bind_eq_bind, Option.bind_eq_some_iff] at h
  obtain ⟨⟨_, entries⟩, hentries, h⟩ := h
  exact ⟨page, entries, hpage, hentries, h⟩

/-- **A page that is read is whole**: no response whose page is read goes on to be another. -/
theorem read_page_whole {url wire rest : List u8} {d d' : List listed_t}
    (h : read_page url wire = some d) (h' : read_page url (wire ++ rest) = some d') : d' = d := by
  obtain ⟨page, entries, hpage, hentries, hread⟩ := read_page_eq_some h
  obtain ⟨page', entries', hpage', hentries', hread'⟩ := read_page_eq_some h'
  rw [body_of_append hpage, Option.some.injEq] at hpage'
  subst hpage'
  rw [local_eat _ _ _ _ hentries, Option.some.injEq, Prod.mk.injEq] at hentries'
  obtain ⟨-, rfl⟩ := hentries'
  exact (read_until_whole local_read_row read_row_footer rfl hread hread').2

/-! ## The response to a request for a directory -/

def listing_head : List u8 :=
  ascii "HTTP/1.0 200 OK\r\nContent-Type: text/html\r\nConnection: close\r\n\r\n"

theorem build_http_listing_header_eq :
    build_http_listing_header HTTP_SEND_BUFFER_SIZE = some listing_head := by
  decide

theorem body_of_listing (page : List u8) : body_of (listing_head ++ page) = some page := by
  have hhead : body_of listing_head = some [] := by decide
  rw [body_of_append hhead, List.nil_append]

variable {document_root : List u8} {fs : FileSystem σ} {req : http_request_t} {s : σ}
  {es : List WIN32_FIND_DATA}

/-- What a context that lists still has to send. -/
def OwesPage (fs : FileSystem σ) (p : stream_state_t × σ) (r : List u8) : Prop :=
  p.1.stream_kind = .STREAM_DIR ∧ Owes fs p r

/-- One chunk of a listing is one call of its generator. -/
theorem next_chunk_pays (p : stream_state_t × σ) (r : List u8) (h : OwesPage fs p r) :
    ∃ r', r = (next_chunk fs HTTP_SEND_BUFFER_SIZE p).1 ++ r'
      ∧ OwesPage fs (next_chunk fs HTTP_SEND_BUFFER_SIZE p).2 r'
      ∧ ((next_chunk fs HTTP_SEND_BUFFER_SIZE p).1 = [] → r = [])
      ∧ (next_chunk fs HTTP_SEND_BUFFER_SIZE p).1.length ≤ HTTP_SEND_BUFFER_SIZE := by
  obtain ⟨hkind, howes⟩ := h
  have hcall : next_chunk fs HTTP_SEND_BUFFER_SIZE p
      = dir_stream_next fs HTTP_SEND_BUFFER_SIZE p.1 p.2 := by
    rw [next_chunk, stream_next_chunk, if_neg (by decide), hkind]
  have hlow : 1024 ≤ HTTP_SEND_BUFFER_SIZE := by decide
  have hhigh : HTTP_SEND_BUFFER_SIZE < 2 ^ 32 := by decide
  obtain ⟨out, ctx', s', heq, hsame, -⟩ := dir_stream_next_progress fs hlow hhigh p.1 p.2
  obtain ⟨r', hr, howes', hempty, hlen⟩ := dir_stream_next_pays fs hlow hhigh p r howes
  rw [hcall]
  refine ⟨r', hr, ⟨?_, howes'⟩, hempty, hlen⟩
  rw [heq]
  exact hsame.stream_kind.trans hkind

/-- **The response to a request for a directory**: its page behind the head. -/
theorem whole_response_listing (hopens : OpensListing document_root fs req s)
    (hes : Lists fs (listing_state document_root fs req s)
      (pattern (full_path document_root req)) es) :
    whole_response document_root fs req s
      = listing_head ++ (opening (cstr req.path_bytes) ++ (rows es ++ footer_text)) := by
  obtain ⟨out, hout, hserve⟩ := serve_http_request_listing hopens initial_stream
  rw [build_http_listing_header_eq, Option.some.injEq] at hout
  have howes : OwesPage fs (open_listing fs (clean_slate initial_stream) req.path_bytes
      (pattern (full_path document_root req)) (listing_state document_root fs req s))
      (opening (cstr req.path_bytes) ++ (rows es ++ footer_text)) :=
    ⟨rfl, open_listing_owes hes (path_bytes_length_lt hopens.toResolves)⟩
  obtain ⟨chunks, last, hdrains, hflat, -⟩ :=
    drains_of_owes (next_chunk fs HTTP_SEND_BUFFER_SIZE) (OwesPage fs)
      (fun c => c.length ≤ HTTP_SEND_BUFFER_SIZE) next_chunk_pays _ _ howes
  rw [whole_response_eq, hserve, ← hout, ← hflat]
  exact congrArg (listing_head ++ ·) (body_of_drains hdrains)

/-- What holds of every beginning of the response. -/
theorem listing_response_read (hopens : OpensListing document_root fs req s)
    (hes : Lists fs (listing_state document_root fs req s)
      (pattern (full_path document_root req)) es)
    (hnames : ∀ e ∈ es, is_pseudo e = false → ValidName e.cFileName.bytes) :
    read_page (cstr req.path_bytes) (whole_response document_root fs req s) = some (shown es)
      ∧ ∀ wire, wire <+: whole_response document_root fs req s →
        WholeOrNothing (read_page (cstr req.path_bytes)) (shown es) wire := by
  have hwhole : read_page (cstr req.path_bytes) (whole_response document_root fs req s)
      = some (shown es) := by
    rw [whole_response_listing hopens hes, read_page, body_of_listing]
    show (eat _ _).bind _ = _
    rw [reads_eat]
    exact read_rows hnames
  refine ⟨hwhole, ?_⟩
  rintro wire ⟨rest, hrest⟩ d hd
  rw [← hrest] at hwhole
  exact (read_page_whole hd hwhole).symm

/-- **A directory arrives as it is, or the client knows it has not got all of it**: its entries,
however many chunks their rows took, and wherever the connection broke. They are those the search
finds, with the low word of their size, and their rows are taken to fit their array
(`DirStream.row_fits_iff`). -/
theorem listing_downloaded (hopens : OpensListing document_root fs req s)
    (hes : Lists fs (listing_state document_root fs req s)
      (pattern (full_path document_root req)) es)
    (hnames : ∀ e ∈ es, is_pseudo e = false → ValidName e.cFileName.bytes) {text : List u8}
    (hcomplete : CompleteRequest text) {indeterminate : u32}
    (hparse : parse_http_request text indeterminate = some req) (net : Sockets τ) (n : ℕ) (t : τ) :
    Delivers document_root fs net (.of n) text indeterminate s t
      (read_page (cstr req.path_bytes)) (shown es) := by
  obtain ⟨hwhole, hpart⟩ := listing_response_read hopens hes hnames
  exact delivers_of_response hwhole hpart hcomplete hparse net n t

/-- A file system with the directory "C:\\www\\d/" in it. -/
def sample_site : FileSystem handles_t := disk [(ascii "C:\\www\\d/", .directory sample_entries)]

/-- A directory and a file, over a connection that breaks after 300 bytes. -/
theorem listing_downloaded_sample :
    Delivers (ascii "C:\\www") sample_site breaking (.of 1)
      (get_request (ascii "/d/") sample_tail) 0 [] 300 (read_page (ascii "/d/"))
      [.directory (ascii "sub"), .file (ascii "a.txt") 5] := by
  have hopens : OpensListing (ascii "C:\\www") sample_site
      ⟨1, ⟨18, 22⟩, ⟨4, 7⟩, get_request (ascii "/d/") sample_tail⟩ [] :=
    ⟨⟨⟨by decide, by decide, by decide, by decide⟩, by decide, by decide⟩, by decide, by decide,
      by decide⟩
  have hnames : ∀ e ∈ sample_entries, is_pseudo e = false → ValidName e.cFileName.bytes := by
    simp only [sample_entries, List.forall_mem_cons]
    refine ⟨fun h => absurd h (by decide), fun h => absurd h (by decide), fun _ => ?_, fun _ => ?_,
      fun e he => absurd he (by simp)⟩
    · exact ⟨by decide, forall_mem_of_all (by decide), forall_mem_of_all (by decide), by decide,
        by decide⟩
    · exact ⟨by decide, forall_mem_of_all (by decide), forall_mem_of_all (by decide), by decide,
        by decide⟩
  have hcomplete : CompleteRequest (ascii "GET /d/ HTTP/1.0\r\nA: b" ++ crlfcrlf) :=
    complete_of_scan (by decide) (by decide)
  exact listing_downloaded hopens (lists_of_lookup (ascii "C:\\www\\d/") (by decide) []) hnames
    hcomplete (by decide) breaking 1 300

end W32HttpServer.ListingPage

/-
A site and the copy a client makes of it.

`mirror` is the client that starts at a directory, reads its listing, downloads every file on it
and goes on with every directory. It relies on nothing but the bytes it gets: it takes names,
kinds and bodies from them and gives up where they are not all there. What it ends with is the
tree below the directory, name by name and byte by byte (`site_mirrored`).

So the parts of the server fit together: the names of a listing are those of the directory, the
link made of a name leads to the file of that name, a directory is listed under the URL that ends
in a slash, and length and body of a file are its own. The tree must not have what the server
cannot serve: an index page takes the place of a listing, two dots in a name are refused, and
paths are limited to `MAX_PATH`.
-/
import W32HttpServer.Common
import W32HttpServer.HttpRequest
import W32HttpServer.HttpPath
import W32HttpServer.Platform
import W32HttpServer.Disk
import W32HttpServer.Context
import W32HttpServer.DirStream
import W32HttpServer.Serve
import W32HttpServer.PercentDecoding
import W32HttpServer.Redirect
import W32HttpServer.Links
import W32HttpServer.Win9xClient
import W32HttpServer.Backends
import W32HttpServer.WholeResponse
import W32HttpServer.Download
import W32HttpServer.ListingPage
import W32HttpServer.Client

set_option autoImplicit false

namespace W32HttpServer.Mirror

open W32HttpServer.Common W32HttpServer.HttpRequest W32HttpServer.HttpPath
open W32HttpServer.Platform W32HttpServer.Disk W32HttpServer.Context W32HttpServer.DirStream
open W32HttpServer.Serve W32HttpServer.PercentDecoding W32HttpServer.Redirect
open W32HttpServer.Links W32HttpServer.Win9xClient W32HttpServer.Backends
open W32HttpServer.WholeResponse W32HttpServer.Download W32HttpServer.ListingPage
open W32HttpServer.Client

variable {σ : Type}

/-! ## The copy -/

inductive site_t
  | file (content : List u8)
  | directory (children : List (List u8 × site_t))

/-- What is made of one entry of a listing; `below` copies a directory. -/
def follow (client : client_t) (get : List u8 → Option (List u8)) (below : List u8 → Option site_t)
    (url : List u8) : listed_t → Option (List u8 × site_t)
  | .directory name => do
      let copy ← below (url ++ client.escape name ++ ascii "/")
      some (name, copy)
  | .file name _ => do
      let wire ← get (url ++ client.escape name)
      let content ← download wire
      some (name, .file content)

/-- A copy of what is below `url`, where `get` asks the server for a URL. -/
def mirror (client : client_t) (get : List u8 → Option (List u8)) : ℕ → List u8 → Option site_t
  | 0, _ => none
  | depth + 1, url => do
      let wire ← get url
      let entries ← read_page url wire
      let children ← entries.mapM (follow client get (mirror client get depth) url)
      some (.directory children)

/-! ## The original -/

/-- The path the server makes of a decoded name. -/
def path (document_root name : List u8) : List u8 := cstr document_root ++ chr '\\' :: name

/-- In every state of the file system there is this file at the path. -/
structure HoldsFile (fs : FileSystem σ) (path content : List u8) : Prop where
  valid : ∀ s, (fs.GetFileAttributes s path).1 ≠ INVALID_FILE_ATTRIBUTES
  plain : ∀ s, (fs.GetFileAttributes s path).1 &&& FILE_ATTRIBUTE_DIRECTORY = 0
  opens : ∀ s, (fs.CreateFile s path).1 ≠ none
  stores : Stores fs path content
  short : content.length < 2 ^ 32 - 1

def listed_name : listed_t → List u8
  | .directory name => name
  | .file name _ => name

/-- In every state of the file system there is this directory, without an index page. -/
structure HoldsDirectory (fs : FileSystem σ) (path : List u8) (entries : List listed_t) :
    Prop where
  valid : ∀ s, (fs.GetFileAttributes s path).1 ≠ INVALID_FILE_ATTRIBUTES
  directory : ∀ s, (fs.GetFileAttributes s path).1 &&& FILE_ATTRIBUTE_DIRECTORY ≠ 0
  index_absent : ∀ s, (fs.GetFileAttributes s (path ++ ascii "\\index.html")).1
    = INVALID_FILE_ATTRIBUTES
  lists : ∀ s, ∃ es, Lists fs s (path ++ ascii "\\*") es ∧ shown es = entries
  names : ∀ entry ∈ entries, ValidName (listed_name entry)

/-- The entry shows the node under its name. -/
inductive Shows : listed_t → List u8 × site_t → Prop
  | file {name content : List u8} {size : ℕ} : Shows (.file name size) (name, .file content)
  | directory {name : List u8} {children : List (List u8 × site_t)} :
      Shows (.directory name) (name, .directory children)

/-- A directory is asked for with a slash behind its name. -/
def suffix : site_t → List u8
  | .file _ => []
  | .directory _ => ascii "/"

/-- The file system holds the node, at most so deep, under the decoded name and the URL. -/
inductive Hosts (document_root : List u8) (fs : FileSystem σ) (client : client_t) :
    ℕ → List u8 → List u8 → site_t → Prop
  | file {depth : ℕ} {name url content : List u8} (hurl : url.length < MAX_PATH)
      (hroom : (path document_root name).length < MAX_PATH)
      (hholds : HoldsFile fs (path document_root name) content) :
      Hosts document_root fs client depth name url (.file content)
  | directory {depth : ℕ} {name url : List u8} {entries : List listed_t}
      {children : List (List u8 × site_t)} (hurl : url.length < MAX_PATH)
      (hroom : (path document_root name ++ ascii "\\index.html").length < MAX_PATH)
      (hholds : HoldsDirectory fs (path document_root name) entries)
      (hshows : List.Forall₂ Shows entries children)
      (hdots : ∀ child ∈ children, has_dot_dot child.1 = false)
      (hchildren : ∀ child ∈ children, Hosts document_root fs client depth
        (name ++ child.1 ++ suffix child.2) (url ++ client.escape child.1 ++ suffix child.2)
        child.2) :
      Hosts document_root fs client (depth + 1) name url (.directory children)

/-! ## From a URL to a path -/

/-- The URL is a way to write the name, and the server accepts the name. -/
structure Reaches (name url : List u8) : Prop where
  encodes : UrlEncodes (chr '/' :: name) url
  sendable : ∀ c ∈ url, Sendable c
  no_nul : 0 ∉ name
  safe : is_safe_path name = true
  ne_nil : name ≠ []

theorem urlEncodes_append {a b e f : List u8} (h : UrlEncodes a e) (h' : UrlEncodes b f) :
    UrlEncodes (a ++ b) (e ++ f) := by
  induction h with
  | nil => exact h'
  | literal hpercent hplus _ ih => exact .literal hpercent hplus ih
  | escape hdigits _ ih => exact .escape hdigits ih
  | plus _ ih => exact .plus ih

theorem urlEncodes_slash : UrlEncodes (ascii "/") (ascii "/") :=
  .literal (by decide) (by decide) .nil

variable {document_root : List u8} {fs : FileSystem σ} {client : client_t} {name url : List u8}

theorem Reaches.url_no_nul (h : Reaches name url) : 0 ∉ url :=
  fun hmem => (h.sendable 0 hmem).1 rfl

theorem Reaches.slash (h : Reaches name url) : Reaches (name ++ ascii "/") (url ++ ascii "/") where
  encodes := urlEncodes_append h.encodes urlEncodes_slash
  sendable := by
    intro c hc
    rcases List.mem_append.mp hc with hc | hc
    · exact h.sendable c hc
    · rw [List.mem_singleton.mp hc]
      decide
  no_nul := by
    rw [List.mem_append, not_or]
    exact ⟨h.no_nul, by decide⟩
  safe := is_safe_path_append_slash h.no_nul h.ne_nil h.safe
  ne_nil := List.append_ne_nil_of_left_ne_nil h.ne_nil _

/-- One level down. -/
theorem Reaches.child (h : Reaches (name ++ ascii "/") url) {child : List u8}
    (hvalid : ValidName child) (hdots : has_dot_dot child = false) :
    Reaches (name ++ ascii "/" ++ child) (url ++ client.escape child) where
  encodes := urlEncodes_append h.encodes (client.encodes child)
  sendable := by
    intro c hc
    rcases List.mem_append.mp hc with hc | hc
    · exact h.sendable c hc
    · exact client.escape_sendable child c hc
  no_nul := by
    rw [List.mem_append, not_or]
    exact ⟨h.no_nul, hvalid.no_nul⟩
  safe := is_safe_path_append rfl h.no_nul h.safe hvalid hdots
  ne_nil := List.append_ne_nil_of_left_ne_nil h.ne_nil _

/-- The top of a site. -/
theorem reaches_top {top : List u8} (hvalid : ValidName top) (hdots : has_dot_dot top = false) :
    Reaches top (ascii "/" ++ client.escape top) where
  encodes := urlEncodes_append urlEncodes_slash (client.encodes top)
  sendable := by
    intro c hc
    rcases List.mem_append.mp hc with hc | hc
    · rw [List.mem_singleton.mp hc]
      decide
    · exact client.escape_sendable top c hc
  no_nul := hvalid.no_nul
  safe := by
    have hno : ∀ c ∈ ascii "\\/:*?\"<>|", c ∉ top := fun c hc hmem => hvalid.no_reserved c hmem hc
    rw [is_safe_path_iff hvalid.no_nul]
    refine ⟨hdots, ?_, ?_⟩
    · obtain ⟨a, t, rfl⟩ := List.exists_cons_of_ne_nil hvalid.nonempty
      rintro (hhead | ⟨hcolon, -⟩)
      · exact hno (chr '\\') (by decide) (hhead ▸ List.mem_cons_self)
      · cases t with
        | nil => exact absurd (show (0 : u8) = chr ':' from hcolon) (by decide)
        | cons b t =>
            have hb : b = chr ':' := hcolon
            exact hno (chr ':') (by decide) (by simp [hb])
    · intro c hc hbad
      apply hvalid.no_reserved c hc
      rcases hbad with rfl | rfl | rfl | rfl | rfl | rfl <;> decide
  ne_nil := hvalid.nonempty

/-- **The URL of a name leads to its path.** -/
theorem Reaches.resolves (h : Reaches name url) (hlen : url.length < MAX_PATH)
    (hroom : (path document_root name).length < MAX_PATH) :
    (resolve_file_path document_root url 260).1 = 0
      ∧ cstr (resolve_file_path document_root url 260).2 = path document_root name := by
  have hcstr : cstr url = url := cstr_of_no_nul h.url_no_nul
  have hclean : clean_url_path url = name := by
    have hle : (cstr url).length ≤ 259 := by
      rw [hcstr]
      exact Nat.le_of_lt_succ hlen
    have hencodes : UrlEncodes (chr '/' :: name) (cstr url) := by
      rw [hcstr]
      exact h.encodes
    rw [clean_url_path_of_le hle, clean_name_of_encodes h.no_nul hencodes]
  have htext : full_path_text document_root (clean_url_path url) = path document_root name := by
    rw [full_path_text, hclean, if_neg h.ne_nil, path]
  have hzero : (resolve_file_path document_root url 260).1 = 0 := by
    apply resolve_file_path_of_fits
    · rw [hclean]
      exact h.safe
    · rw [htext]
      exact hroom
  exact ⟨hzero, by rw [resolve_file_path_text (by decide) hzero, htext]⟩

/-- The server resolves a client's request for the URL to the path. -/
structure AsksFor (document_root : List u8) (name url : List u8) (req : http_request_t) : Prop
    extends Resolves document_root req where
  path_eq : full_path document_root req = path document_root name
  bytes : req.path_bytes = url
  len : (path_len req).toNat = url.length

theorem asks_for (h : Reaches name url) (hlen : url.length < MAX_PATH)
    (hroom : (path document_root name).length < MAX_PATH) {x : u32} {req : http_request_t}
    (hreq : parse_http_request (client.request url) x = some req) :
    AsksFor document_root name url req := by
  obtain ⟨req', hreq', hmethod, hbytes⟩ := request_parsed client h.sendable x
  rw [hreq, Option.some.injEq] at hreq'
  subst hreq'
  obtain ⟨hzero, hpath⟩ := h.resolves hlen hroom
  have hplen : path_len req = url.length := by rw [path_len_eq hreq, hbytes]
  have hpos : url ≠ [] := by
    rintro rfl
    have hencodes := h.encodes
    cases hencodes
  have hne := List.length_pos_iff.mpr hpos
  refine ⟨⟨hmethod, ?_, ?_, ?_⟩, ?_, hbytes, ?_⟩
  · rw [hplen]
    exact_mod_cast hne
  · rw [hplen]
    exact_mod_cast hlen
  · rw [hbytes]
    exact hzero
  · rw [full_path, hbytes]
    exact hpath
  · rw [hplen, Int.toNat_natCast]

/-! ## One answer -/

/-- A file that is asked for is served. -/
theorem serves_file {req : http_request_t} (h : AsksFor document_root name url req)
    {content : List u8} (hholds : HoldsFile fs (path document_root name) content) (s : σ) :
    ServesFile document_root fs req s (path document_root name)
      (attributes document_root fs req s).2 := by
  have hfile : ServesFile document_root fs req s (full_path document_root req)
      (attributes document_root fs req s).2 := by
    apply ServesFile.plain h.toResolves
    · rw [attributes, h.path_eq]
      exact hholds.valid s
    · rw [attributes, h.path_eq]
      exact hholds.plain s
  rwa [h.path_eq] at hfile

/-- A directory that is asked for with its slash is listed. -/
theorem opens_listing {req : http_request_t}
    (h : AsksFor document_root name (url ++ ascii "/") req) {entries : List listed_t}
    (hholds : HoldsDirectory fs (path document_root name) entries)
    (hroom : (path document_root name ++ ascii "\\index.html").length < MAX_PATH) (s : σ) :
    OpensListing document_root fs req s
      ∧ ∃ es, Lists fs (listing_state document_root fs req s)
          (pattern (full_path document_root req)) es ∧ shown es = entries
        ∧ ∀ e ∈ es, is_pseudo e = false → ValidName e.cFileName.bytes := by
  have hmax : MAX_PATH = 260 := rfl
  have htwo : (ascii "\\*").length = 2 := by decide
  have heleven : (ascii "\\index.html").length = 11 := by decide
  rw [List.length_append, heleven] at hroom
  have hindex : index_path (full_path document_root req)
      = path document_root name ++ ascii "\\index.html" := by
    rw [h.path_eq, index_path, wsprintf_of_lt (by rw [List.length_append]; omega)]
  have hpattern : pattern (full_path document_root req)
      = path document_root name ++ ascii "\\*" := by
    rw [h.path_eq, pattern, wsprintf_of_lt (by rw [List.length_append]; omega)]
  refine ⟨⟨⟨h.toResolves, ?_, ?_⟩, ?_, ?_, ?_⟩, ?_⟩
  · rw [attributes, h.path_eq]
    exact hholds.valid s
  · rw [attributes, h.path_eq]
    exact hholds.directory s
  · -- the URL ends in a slash
    have hone : (ascii "/").length = 1 := by decide
    rw [last_byte, h.bytes, h.len, List.length_append, hone, Nat.add_sub_cancel,
      List.getD_append_right _ _ _ _ (le_refl _), Nat.sub_self]
    rfl
  · rw [hindex]
    apply hholds.index_absent
  · rw [hpattern, List.length_append]
    omega
  · rw [hpattern]
    obtain ⟨es, hes, hshown⟩ := hholds.lists (listing_state document_root fs req s)
    refine ⟨es, hes, hshown, ?_⟩
    intro e he hpseudo
    -- an entry that is shown has the name of a node
    have hmem : listed e ∈ entries := by
      rw [← hshown]
      exact List.mem_map_of_mem (List.mem_filter.mpr ⟨he, by rw [hpseudo]; rfl⟩)
    have hname : listed_name (listed e) = e.cFileName.bytes := by
      unfold listed
      split_ifs <;> rfl
    rw [← hname]
    exact hholds.names _ hmem

/-- What a client knows of the bytes it got for a URL: the value they stand for, or that they
are not all there. -/
theorem fetched_value {α : Type} {read : List u8 → Option α} {value : α}
    (hreach : Reaches name url) (hlen : url.length < MAX_PATH)
    (hroom : (path document_root name).length < MAX_PATH)
    (hresponse : ∀ req s, AsksFor document_root name url req →
      read (whole_response document_root fs req s) = some value
        ∧ ∀ wire, wire <+: whole_response document_root fs req s → WholeOrNothing read value wire)
    {wire : List u8} :
    (Fetched document_root fs (client.request url) wire → WholeOrNothing read value wire)
      ∧ (FetchedWhole document_root fs (client.request url) wire → read wire = some value) := by
  have hcomplete := request_complete client hreach.sendable hlen
  have hparse : ∀ x, ∃ req, parse_http_request (client.request url) x = some req := by
    intro x
    obtain ⟨req, hreq, -⟩ := request_parsed client hreach.sendable x
    exact ⟨req, hreq⟩
  constructor
  · intro h
    obtain ⟨x, req, s, hreq, hbegins⟩ := fetched_begins hcomplete hparse h
    exact (hresponse req s (asks_for hreach hlen hroom hreq)).2 wire hbegins
  · intro h
    obtain ⟨x, req, s, hreq, rfl⟩ := fetched_whole hcomplete hparse h
    exact (hresponse req s (asks_for hreach hlen hroom hreq)).1

/-! ## The copy of the original -/

/-- Every connection yields what the server sends. -/
def Asks (document_root : List u8) (fs : FileSystem σ) (client : client_t)
    (get : List u8 → Option (List u8)) : Prop :=
  ∀ url wire, get url = some wire → Fetched document_root fs (client.request url) wire

/-- Every connection is made, and none breaks. -/
def Reliable (document_root : List u8) (fs : FileSystem σ) (client : client_t)
    (get : List u8 → Option (List u8)) : Prop :=
  ∀ url, (∀ c ∈ url, Sendable c) → url.length < MAX_PATH →
    ∃ wire, get url = some wire ∧ FetchedWhole document_root fs (client.request url) wire

variable {get : List u8 → Option (List u8)}

/-- One URL, over any connection. -/
theorem get_value {α : Type} {read : List u8 → Option α} {value : α}
    (hget : Asks document_root fs client get) (hreach : Reaches name url)
    (hlen : url.length < MAX_PATH) (hroom : (path document_root name).length < MAX_PATH)
    (hresponse : ∀ req s, AsksFor document_root name url req →
      read (whole_response document_root fs req s) = some value
        ∧ ∀ wire, wire <+: whole_response document_root fs req s →
          WholeOrNothing read value wire) :
    (∀ v, (get url).bind read = some v → v = value)
      ∧ (Reliable document_root fs client get → (get url).bind read = some value) := by
  constructor
  · intro v hv
    rw [Option.bind_eq_some_iff] at hv
    obtain ⟨wire, hwire, hv⟩ := hv
    exact (fetched_value hreach hlen hroom hresponse).1 (hget url wire hwire) v hv
  · intro hreliable
    obtain ⟨wire, hwire, hfetched⟩ := hreliable url hreach.sendable hlen
    rw [hwire, Option.bind_some]
    exact (fetched_value hreach hlen hroom hresponse).2 hfetched

/-- What the client makes of a node. -/
def got (client : client_t) (get : List u8 → Option (List u8)) (depth : ℕ) (url : List u8) :
    site_t → Option site_t
  | .file _ => ((get url).bind download).map .file
  | .directory _ => mirror client get depth url

theorem follow_eq {entry : listed_t} {child : List u8 × site_t} (h : Shows entry child)
    (depth : ℕ) : follow client get (mirror client get depth) url entry
      = (got client get depth (url ++ client.escape child.1 ++ suffix child.2) child.2).map
        (child.1, ·) := by
  cases h with
  | @file name content size =>
      rw [follow, got, suffix, List.append_nil]
      rcases get (url ++ client.escape name) with _ | wire
      · rfl
      · rcases hdownload : download wire with _ | d
        · simp [hdownload]
        · simp [hdownload]
  | directory =>
      rw [follow, got, suffix]
      rcases mirror client get depth _ with _ | copy <;> rfl

section

variable {α β : Type} {f : α → Option β} {as : List α} {bs : List β}

theorem mapM_of_forall₂ (h : List.Forall₂ (fun a b => f a = some b) as bs) :
    as.mapM f = some bs := by
  induction h with
  | nil => rfl
  | cons hab _ ih => rw [List.mapM_cons, hab, ih]; rfl

theorem eq_of_mapM (h : List.Forall₂ (fun a b => ∀ v, f a = some v → v = b) as bs) :
    ∀ {cs : List β}, as.mapM f = some cs → cs = bs := by
  induction h with
  | nil =>
      intro cs hcs
      exact (Option.some.inj hcs).symm
  | cons hab _ ih =>
      intro cs hcs
      rw [List.mapM_cons, Option.bind_eq_bind, Option.bind_eq_some_iff] at hcs
      obtain ⟨v, hv, hcs⟩ := hcs
      rw [Option.bind_eq_bind, Option.bind_eq_some_iff] at hcs
      obtain ⟨vs, hvs, hcs⟩ := hcs
      rw [← Option.some.inj hcs, hab v hv, ih hvs]

end

theorem mirror_succ (depth : ℕ) : mirror client get (depth + 1) url
    = ((get url).bind (read_page url)).bind fun entries =>
        (entries.mapM (follow client get (mirror client get depth) url)).map .directory := by
  rw [mirror]
  rcases get url with _ | wire
  · rfl
  · rw [Option.bind_some]
    show (read_page url wire).bind _ = _
    rcases read_page url wire with _ | entries
    · rfl
    · show Option.bind (entries.mapM _) _ = Option.map _ (entries.mapM _)
      rw [Option.map_eq_bind]
      rfl

/-- The copy is right, and there if no connection breaks. -/
structure Copies (document_root : List u8) (fs : FileSystem σ) (client : client_t)
    (get : List u8 → Option (List u8)) (depth : ℕ) (url : List u8) (node : site_t) : Prop where
  right : ∀ copy, got client get depth url node = some copy → copy = node
  whole : Reliable document_root fs client get → got client get depth url node = some node

/-- A file is copied. -/
theorem copies_file (hget : Asks document_root fs client get) (hreach : Reaches name url)
    (hlen : url.length < MAX_PATH) (hroom : (path document_root name).length < MAX_PATH)
    {content : List u8} (hholds : HoldsFile fs (path document_root name) content) (depth : ℕ) :
    Copies document_root fs client get depth url (.file content) := by
  obtain ⟨hright, hwhole⟩ := get_value hget hreach hlen hroom fun req s hasks =>
    file_response_downloads (serves_file hasks hholds s) hholds.stores (hholds.opens _) hholds.short
  constructor
  · intro copy hcopy
    rw [got, Option.map_eq_some_iff] at hcopy
    obtain ⟨d, hd, rfl⟩ := hcopy
    rw [hright d hd]
  · intro hreliable
    rw [got, hwhole hreliable, Option.map_some]

/-- A directory is copied if what it holds is. -/
theorem copies_directory (hget : Asks document_root fs client get)
    (hreach : Reaches name (url ++ ascii "/")) (hlen : (url ++ ascii "/").length < MAX_PATH)
    (hroom : (path document_root name ++ ascii "\\index.html").length < MAX_PATH)
    {entries : List listed_t} (hholds : HoldsDirectory fs (path document_root name) entries)
    {children : List (List u8 × site_t)} {depth : ℕ}
    (hchildren : List.Forall₂ (fun entry child => Shows entry child
      ∧ Copies document_root fs client get depth
        (url ++ ascii "/" ++ client.escape child.1 ++ suffix child.2) child.2) entries children) :
    Copies document_root fs client get (depth + 1) (url ++ ascii "/") (.directory children) := by
  have hpath : (path document_root name).length < MAX_PATH := by
    rw [List.length_append] at hroom
    omega
  have hresponse : ∀ req s, AsksFor document_root name (url ++ ascii "/") req →
      read_page (url ++ ascii "/") (whole_response document_root fs req s) = some entries
        ∧ ∀ wire, wire <+: whole_response document_root fs req s →
          WholeOrNothing (read_page (url ++ ascii "/")) entries wire := by
    -- whatever the state of the disk, the page lists the same entries
    intro req s hasks
    obtain ⟨hopens, es, hes, hshown, hnames⟩ := opens_listing hasks hholds hroom s
    have hread := listing_response_read hopens hes hnames
    rwa [hasks.bytes, cstr_of_no_nul hreach.url_no_nul, hshown] at hread
  obtain ⟨hright, hwhole⟩ := get_value hget hreach hlen hpath hresponse
  constructor
  · intro copy hcopy
    rw [got, mirror_succ, Option.bind_eq_some_iff] at hcopy
    obtain ⟨d, hd, hcopy⟩ := hcopy
    rw [hright d hd, Option.map_eq_some_iff] at hcopy
    obtain ⟨copies, hcopies, rfl⟩ := hcopy
    -- what was copied is a list of copies of the children, in their order
    rw [eq_of_mapM (hchildren.imp ?_) hcopies]
    rintro entry child ⟨hshows, hchild⟩ v hv
    rw [follow_eq hshows, Option.map_eq_some_iff] at hv
    obtain ⟨node, hnode, rfl⟩ := hv
    rw [hchild.right node hnode]
  · intro hreliable
    rw [got, mirror_succ, hwhole hreliable, Option.bind_some, mapM_of_forall₂ (hchildren.imp ?_),
      Option.map_some]
    rintro entry child ⟨hshows, hchild⟩
    rw [follow_eq hshows, hchild.whole hreliable, Option.map_some]

/-- The slash of a directory stands in its name and in its URL. -/
def Slashed (node : site_t) (name url : List u8) : Prop :=
  ∃ w u, name = w ++ suffix node ∧ url = u ++ suffix node

/-- **Every node is copied**, by induction on the tree. -/
theorem copies (hget : Asks document_root fs client get) {depth : ℕ} {node : site_t}
    (h : Hosts document_root fs client depth name url node) :
    Reaches name url → Slashed node name url → Copies document_root fs client get depth url node := by
  induction h with
  | file hurl hroom hholds =>
      intro hreach _
      exact copies_file hget hreach hurl hroom hholds _
  | @directory depth name url entries children hurl hroom hholds hshows hdots hchildren ih =>
      rintro hreach ⟨w, u, rfl, rfl⟩
      apply copies_directory hget hreach hurl hroom hholds
      have hnamed := (List.forall₂_and_left entries children).mpr ⟨hholds.names, hshows⟩
      have hall := (List.forall₂_and_left children entries).mpr
        ⟨fun child hchild => hchild, hnamed.flip⟩
      refine hall.flip.imp ?_
      rintro entry ⟨child, node⟩ ⟨hmem, hname, hentry⟩
      refine ⟨hentry, ?_⟩
      have hvalid : ValidName child := by
        cases hentry <;> exact hname
      have hbelow := @Reaches.child client _ _ hreach child hvalid (hdots _ hmem)
      have hslashed : Slashed node (w ++ ascii "/" ++ child ++ suffix node)
          (u ++ ascii "/" ++ client.escape child ++ suffix node) := ⟨_, _, rfl, rfl⟩
      refine ih _ hmem ?_ hslashed
      cases node with
      | file => rwa [suffix, List.append_nil, List.append_nil]
      | directory => exact hbelow.slash

/-- **A site arrives as it is.** Whatever the client has when it is done is the tree below the
directory, and it is done unless a connection breaks. The induction is on the tree: a directory is
copied if its entries are, and an entry is under the URL the client makes of its row because the
name in the row is the name of the entry, and its encoding decodes to it. -/
theorem site_mirrored {top : List u8} (htop : ValidName top) (hdots : has_dot_dot top = false)
    {depth : ℕ} {children : List (List u8 × site_t)}
    (hsite : Hosts document_root fs client depth (top ++ ascii "/")
      (ascii "/" ++ client.escape top ++ ascii "/") (.directory children))
    (hget : Asks document_root fs client get) :
    (∀ copy, mirror client get depth (ascii "/" ++ client.escape top ++ ascii "/") = some copy →
        copy = .directory children)
      ∧ (Reliable document_root fs client get →
        mirror client get depth (ascii "/" ++ client.escape top ++ ascii "/")
          = some (.directory children)) := by
  have hcopies := copies hget hsite (reaches_top htop hdots).slash ⟨_, _, rfl, rfl⟩
  exact ⟨hcopies.right, hcopies.whole⟩

/-! ## A site on a disk -/

theorem holdsFile_of_lookup {tree : tree_t} {path content : List u8}
    (h : tree.lookup path = some (.file content)) (hshort : content.length < 2 ^ 32 - 1) :
    HoldsFile (disk tree) path content where
  valid _ := by
    show attributes_of (tree.lookup path) ≠ _
    rw [h, attributes_of]
    decide
  plain _ := by
    show attributes_of (tree.lookup path) &&& _ = 0
    rw [h, attributes_of]
    decide
  opens s := by
    show (create_file tree s path).1 ≠ none
    rw [create_file, h]
    simp
  stores := stores_of_lookup h
  short := hshort

theorem holdsDirectory_of_lookup {tree : tree_t} {path : List u8} {es : List WIN32_FIND_DATA}
    (h : tree.lookup path = some (.directory es))
    (hindex : tree.lookup (path ++ ascii "\\index.html") = none) {entries : List listed_t}
    (hshown : shown es = entries) (hnames : ∀ entry ∈ entries, ValidName (listed_name entry)) :
    HoldsDirectory (disk tree) path entries where
  valid _ := by
    show attributes_of (tree.lookup path) ≠ _
    rw [h, attributes_of]
    decide
  directory _ := by
    show attributes_of (tree.lookup path) &&& _ ≠ 0
    rw [h, attributes_of]
    decide
  index_absent _ := by
    show attributes_of (tree.lookup _) = _
    rw [hindex]
    rfl
  lists s := ⟨es, lists_of_lookup path h s, hshown⟩
  names := hnames

/-- What a Win9x server on a network that takes everything answers to a client's request. -/
def win9x_get (document_root : List u8) (fs : FileSystem σ) (client : client_t) (s : σ)
    (url : List u8) : Option (List u8) :=
  (handle_client_win9x document_root fs Sockets.accepting.recorded (create_client_context (.of 1))
    [some (client.request url)] 0 s ((), [])).map fun r => r.2.2

theorem request_ne_nil (client : client_t) (url : List u8) : client.request url ≠ [] := by
  have hlen := request_length client url
  have hget : (client.request []).length ≠ 0 := by
    rw [client_t.request, request_text, List.length_append]
    have hend : crlfcrlf.length = 4 := rfl
    omega
  intro hnil
  rw [hnil, List.length_nil] at hlen
  omega

theorem asks_win9x_get (document_root : List u8) (fs : FileSystem σ) (client : client_t) (s : σ) :
    Asks document_root fs client (win9x_get document_root fs client s) := by
  intro url wire hwire
  rw [win9x_get, Option.map_eq_some_iff] at hwire
  obtain ⟨⟨s1, t1, _⟩, hclient, rfl⟩ := hwire
  have hsegs : ∀ seg ∈ [client.request url], seg ≠ [] := by
    intro seg hseg
    rw [List.mem_singleton.mp hseg]
    apply request_ne_nil
  exact .win9x (n := 1) hsegs List.flatten_singleton hclient

theorem reliable_win9x_get (document_root : List u8) (fs : FileSystem σ) (client : client_t)
    (s : σ) : Reliable document_root fs client (win9x_get document_root fs client s) := by
  intro url hurl hlen
  have hsegs : ∀ seg ∈ [client.request url], seg ≠ [] := by
    intro seg hseg
    rw [List.mem_singleton.mp hseg]
    apply request_ne_nil
  have hflat : [client.request url].flatten = client.request url := List.flatten_singleton
  obtain ⟨req, hreq, -⟩ := request_parsed client hurl 0
  obtain ⟨s1, t1, wire, hclient, -⟩ := win9x_sends document_root fs .accepting 1
    ([client.request url].map some) (client.request url) 0 req
    (win9x_hands_over (request_complete client hurl hlen) hsegs hflat 1) hreq s ()
  refine ⟨wire, ?_, .win9x accepting_accepts hsegs hflat hclient⟩
  rw [win9x_get]
  show (handle_client_win9x document_root fs Sockets.accepting.recorded
    (create_client_context (.of 1)) ([client.request url].map some) 0 s ((), [])).map _ = _
  rw [hclient]
  rfl

/-- A directory with a file and a directory in it. -/
def two_levels : tree_t :=
  [(ascii "C:\\www\\d/", .directory [
      ⟨FILE_ATTRIBUTE_DIRECTORY, 0, ⟨ascii "docs", by decide, by decide⟩⟩,
      ⟨0x80, 5, ⟨ascii "a b", by decide, by decide⟩⟩]),
    (ascii "C:\\www\\d/a b", .file (ascii "hello")),
    (ascii "C:\\www\\d/docs/", .directory [⟨0x80, 2, ⟨ascii "c+", by decide, by decide⟩⟩]),
    (ascii "C:\\www\\d/docs/c+", .file (ascii "hi"))]

theorem site_mirrored_two_levels :
    mirror sample_client (win9x_get (ascii "C:\\www") (disk two_levels) sample_client []) 2
        (ascii "/" ++ sample_client.escape (ascii "d") ++ ascii "/")
      = some (.directory [(ascii "docs", .directory [(ascii "c+", .file (ascii "hi"))]),
        (ascii "a b", .file (ascii "hello"))]) := by
  have hvalid : ∀ name ∈ [ascii "d", ascii "docs", ascii "a b", ascii "c+"], ValidName name := by
    simp only [List.forall_mem_cons]
    refine ⟨?_, ?_, ?_, ?_, fun name hname => absurd hname (by simp)⟩
    all_goals exact ⟨by decide, forall_mem_of_all (by decide), forall_mem_of_all (by decide),
      by decide, by decide⟩
  have hdocs : Hosts (ascii "C:\\www") (disk two_levels) sample_client 1 (ascii "d/docs/")
      (ascii "/d/docs/") (.directory [(ascii "c+", .file (ascii "hi"))]) := by
    have hholds : HoldsDirectory (disk two_levels) (ascii "C:\\www\\d/docs/")
        [.file (ascii "c+") 2] :=
      holdsDirectory_of_lookup rfl rfl (by decide) (fun entry he => by
        rw [List.mem_singleton.mp he]
        exact hvalid _ (by decide))
    apply Hosts.directory (by decide) (by decide) hholds (.cons .file .nil)
    · decide
    · intro child hchild
      rw [List.mem_singleton.mp hchild]
      exact .file (by decide) (by decide) (holdsFile_of_lookup rfl (by decide))
  have hsite : Hosts (ascii "C:\\www") (disk two_levels) sample_client 2 (ascii "d/") (ascii "/d/")
      (.directory [(ascii "docs", .directory [(ascii "c+", .file (ascii "hi"))]),
        (ascii "a b", .file (ascii "hello"))]) := by
    have hholds : HoldsDirectory (disk two_levels) (ascii "C:\\www\\d/")
        [.directory (ascii "docs"), .file (ascii "a b") 5] :=
      holdsDirectory_of_lookup rfl rfl (by decide) (fun entry he => by
        rcases List.mem_pair.mp he with rfl | rfl
        · exact hvalid _ (by decide)
        · exact hvalid _ (by decide))
    apply Hosts.directory (by decide) (by decide) hholds (.cons .directory (.cons .file .nil))
    · intro child hchild
      rcases List.mem_pair.mp hchild with rfl | rfl
      · decide
      · decide
    · intro child hchild
      rcases List.mem_pair.mp hchild with rfl | rfl
      · exact hdocs
      · exact .file (by decide) (by decide) (holdsFile_of_lookup rfl (by decide))
  exact (site_mirrored (hvalid _ (by decide)) (by decide) hsite
    (asks_win9x_get _ _ _ _)).2 (reliable_win9x_get _ _ _ _)

end W32HttpServer.Mirror

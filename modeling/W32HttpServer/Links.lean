/-
The links of a listing: what `dir_stream_next` writes into an `href`, and the file a client
gets that follows it.

The row of an entry carries the name as it is; the request that follows the link goes
through `parse_path`, `url_decode` and `is_safe_path`. The path of that request is the
listing's URL and the name behind it, as the client escapes them, and it leads back when
the decoder gives both parts back unchanged (`Steady` for the URL, `Plain` for the name)
and `is_safe_path` finds no two dots in the name (`link_leads_back_iff`).

At the root it never does: "/" resolves to `index.html`, so what is listed there is a
directory of that name, and the path of a link names an entry of the root.
-/
import W32HttpServer.Common
import W32HttpServer.HttpRequest
import W32HttpServer.HttpPath
import W32HttpServer.ClientEscape
import W32HttpServer.SteadyUrl
import W32HttpServer.Platform
import W32HttpServer.Disk
import W32HttpServer.Context
import W32HttpServer.DirStream
import W32HttpServer.Serve

set_option autoImplicit false

namespace W32HttpServer.Links

open W32HttpServer.Common W32HttpServer.HttpRequest W32HttpServer.HttpPath
open W32HttpServer.ClientEscape W32HttpServer.SteadyUrl W32HttpServer.Platform W32HttpServer.Disk
open W32HttpServer.Context W32HttpServer.DirStream W32HttpServer.Serve

variable {σ : Type} {name : List u8}

/-! ## Names and links -/

/-- A file name Windows allows. -/
structure ValidName (name : List u8) : Prop where
  nonempty : name ≠ []
  no_control : ∀ c ∈ name, 32 ≤ c.toNat
  no_reserved : ∀ c ∈ name, c ∉ ascii "\\/:*?\"<>|"
  not_dot : name ≠ ascii "."
  not_dot_dot : name ≠ ascii ".."

theorem ValidName.no_nul {name : List u8} (h : ValidName name) : 0 ∉ name := by
  intro h0
  exact absurd (h.no_control 0 h0) (by decide)

/-- What a client reads in a row: the text between the quotes of its `href`. -/
def href (row : List u8) : List u8 :=
  (row.drop (ascii "<li><a href=\"").length).takeWhile (· ≠ chr '"')

/-- The link of a file is its name, byte for byte. -/
theorem href_row_text {entry : WIN32_FIND_DATA} (hfile : is_directory entry = false)
    (hname : ValidName entry.cFileName.bytes) :
    href (row_text entry) = entry.cFileName.bytes := by
  have hquote : ∀ c ∈ entry.cFileName.bytes, decide (c ≠ chr '"') = true := by
    intro c hc
    have hres := hname.no_reserved c hc
    simp only [decide_eq_true_eq]
    rintro rfl
    exact hres (by decide)
  unfold href row_text
  rw [hfile]
  simp only [Bool.false_eq_true, if_false, List.append_assoc, List.drop_left]
  rw [List.takeWhile_append_of_pos hquote]
  show entry.cFileName.bytes ++ [] = _
  apply List.append_nil

/-- The URL of a listing, as the context keeps it. -/
structure ListedUrl (document_root : List u8) (dir_url : CString MAX_PATH) : Prop where
  no_space : chr ' ' ∉ dir_url.bytes
  slash : dir_url.bytes.getLast? = some (chr '/')
  resolves : (resolve_file_path document_root dir_url.bytes 260).1 = 0

/-- `resolve_file_path` reads its argument as a C string. -/
theorem resolve_file_path_cstr (document_root url_path : List u8) (size : u32) :
    resolve_file_path document_root (cstr url_path) size
      = resolve_file_path document_root url_path size := by
  unfold resolve_file_path clean_url_path url_decode
  rw [cstr_cstr]

/-- The path of a parsed request holds no space. -/
theorem path_bytes_no_space {payload : List u8} {x : u32} {req : http_request_t}
    (h : parse_http_request payload x = some req) : chr ' ' ∉ req.path_bytes := by
  obtain ⟨i, j, k, m, hi, hj, hk, hm, rfl⟩ := parse_http_request_eq_some.mp h
  obtain ⟨y, a, z, hyz, hy, ha, rfl⟩ := Lib.Scan.scan_headIs_eq_some hj
  show chr ' ' ∉ slice payload (i + 1) (i + 1 + y.length)
  have hslice : slice payload (i + 1) (i + 1 + y.length) = y := by
    rw [slice, hyz]
    simp
  rw [hslice]
  intro hmem
  exact absurd (hy _ hmem) (by simp)

/-- **Every listing the server opens** for a URL that ends in a slash has such a URL. -/
theorem listedUrl_of_opensListing {document_root payload : List u8} {fs : FileSystem σ}
    {x : u32} {req : http_request_t} {s : σ} (ctx : stream_state_t)
    (hparse : parse_http_request payload x = some req) (h : OpensListing document_root fs req s)
    (hslash : (serve_http_request document_root fs ctx req HTTP_SEND_BUFFER_SIZE
      s).ctx.dir_url.bytes.getLast? = some (chr '/')) :
    ListedUrl document_root
      (serve_http_request document_root fs ctx req HTTP_SEND_BUFFER_SIZE s).ctx.dir_url := by
  have hurl := serve_http_request_dir_url h ctx
  refine ⟨?_, hslash, ?_⟩
  · rw [hurl]
    exact fun hmem => path_bytes_no_space hparse (mem_of_mem_cstr hmem)
  · rw [hurl, resolve_file_path_cstr]
    exact h.resolved

/-! ## Leading back -/

/-- The entry `name` of the directory `dir`: a separator between the two, unless the
directory's own text ends in one. -/
def IsChild (dir name path : List u8) : Prop :=
  (is_separator (dir.getLastD 0) = true ∧ path = dir ++ name)
    ∨ ∃ c, is_separator c = true ∧ path = dir ++ c :: name

/-- What `resolve_file_path` puts behind the root and its backslash. -/
def served_path (url_path : List u8) : List u8 :=
  if clean_url_path url_path = [] then ascii "index.html" else clean_url_path url_path

theorem served_path_ne_nil (url_path : List u8) : served_path url_path ≠ [] := by
  unfold served_path
  split_ifs with h
  · decide
  · exact h

theorem isChild_append {root dir name path : List u8} (hdir : dir ≠ []) :
    IsChild (root ++ dir) name (root ++ path) ↔ IsChild dir name path := by
  have hlast : (root ++ dir).getLastD 0 = dir.getLastD 0 := by
    rw [List.getLastD_eq_getLast?, List.getLastD_eq_getLast?,
      List.getLast?_append_of_ne_nil _ hdir]
  unfold IsChild
  rw [hlast]
  simp only [List.append_assoc, List.append_cancel_left_eq]

/-- A path with a directory part has a separator in it. -/
theorem IsChild.separator {dir name path : List u8} (h : IsChild dir name path) :
    ∃ c ∈ path, is_separator c = true := by
  rcases h with ⟨hlast, rfl⟩ | ⟨c, hc, rfl⟩
  · cases hdir : dir.getLast? with
    | none =>
        rw [List.getLastD_eq_getLast?, hdir] at hlast
        exact absurd hlast (by decide)
    | some c =>
        rw [List.getLastD_eq_getLast?, hdir] at hlast
        exact ⟨c, List.mem_append_left _ (List.mem_of_getLast? hdir), hlast⟩
  · exact ⟨c, by simp, hc⟩

/-! ## Following a link -/

/-- The path the listing's own directory resolved to. -/
def directory_path (document_root : List u8) (dir_url : CString MAX_PATH) : List u8 :=
  cstr (resolve_file_path document_root dir_url.bytes 260).2

/-- The path of an entry. -/
def child_path (dir name : List u8) : List u8 :=
  if is_separator (dir.getLastD 0) then dir ++ name else dir ++ chr '\\' :: name

def get_request (path tail : List u8) : List u8 := ascii "GET " ++ (path ++ chr ' ' :: tail)

/-- What follows the path: the rest of the request line and headers the parser can end. -/
def CompleteTail (tail : List u8) : Prop :=
  crlfcrlf <:+: (tail.dropWhile (· ≠ chr '\n')).tail

/-- The path resolves to the entry `name` of the directory at `dir_url`. -/
def ResolvesTo (document_root : List u8) (dir_url : CString MAX_PATH) (name path : List u8) :
    Prop :=
  (resolve_file_path document_root path 260).1 = 0
    ∧ IsChild (directory_path document_root dir_url) name
      (cstr (resolve_file_path document_root path 260).2)

/-- The request is accepted, and its path resolves to the entry. -/
def LeadsBack (document_root : List u8) (dir_url : CString MAX_PATH) (name payload : List u8) :
    Prop :=
  ∀ x, ∃ req, parse_http_request payload x = some req
    ∧ req.method = http_method_t.HTTP_GET.num
    ∧ ResolvesTo document_root dir_url name req.path_bytes

theorem leadsBack_get_request_iff {document_root : List u8} {dir_url : CString MAX_PATH}
    {name : List u8} (e : List u8) {tail : List u8} (htail : CompleteTail tail) :
    LeadsBack document_root dir_url name (get_request e tail)
      ↔ ResolvesTo document_root dir_url name (e.takeWhile (· ≠ chr ' ')) := by
  constructor
  · intro h
    obtain ⟨req, hreq, -, hpath⟩ := parse_http_request_get e htail 0
    obtain ⟨req', hreq', -, hto⟩ := h 0
    obtain rfl : req = req' := Option.some.inj (hreq.symm.trans hreq')
    rwa [hpath] at hto
  · intro h x
    obtain ⟨req, hreq, hmethod, hpath⟩ := parse_http_request_get e htail x
    exact ⟨req, hreq, hmethod, by rwa [hpath]⟩

/-- Only what stands behind the root matters. -/
theorem isChild_resolved_iff {document_root u p : List u8}
    (hu : (resolve_file_path document_root u 260).1 = 0)
    (hp : (resolve_file_path document_root p 260).1 = 0) :
    IsChild (cstr (resolve_file_path document_root u 260).2) name
        (cstr (resolve_file_path document_root p 260).2)
      ↔ IsChild (served_path u) name (served_path p) := by
  have htext : ∀ x, full_path_text document_root (clean_url_path x)
      = (cstr document_root ++ [chr '\\']) ++ served_path x := by
    intro x
    rw [List.append_assoc]
    rfl
  rw [resolve_file_path_text (by decide) hu, resolve_file_path_text (by decide) hp, htext, htext]
  exact isChild_append (served_path_ne_nil u)

/-! ## The path behind its slash -/

theorem skip_slash_getLastD {p : List u8} (h : skip_slash p ≠ []) :
    (skip_slash p).getLastD 0 = p.getLastD 0 := by
  unfold skip_slash at h ⊢
  split_ifs at h ⊢
  · cases p with
    | nil => rfl
    | cons c p =>
        obtain ⟨d, q, rfl⟩ := List.exists_cons_of_ne_nil (show p ≠ [] from h)
        rw [List.tail_cons, List.getLastD_cons, List.getLastD_cons, List.getLastD_cons]
  · rfl

theorem skip_slash_append {p : List u8} (hp : p ≠ []) (t : List u8) :
    skip_slash (p ++ t) = skip_slash p ++ t := by
  obtain ⟨c, p, rfl⟩ := List.exists_cons_of_ne_nil hp
  unfold skip_slash
  rw [List.cons_append, List.headD_cons, List.headD_cons]
  split_ifs <;> rfl

theorem length_le_skip_slash (p : List u8) : p.length ≤ (skip_slash p).length + 1 := by
  unfold skip_slash
  split_ifs
  · rw [List.length_tail]
    omega
  · omega

/-- Two texts that both start with a slash, or both without, compare as they do behind it. -/
theorem prefix_of_skip_slash {a b t : List u8} {n : ℕ}
    (hhead : b.headD 0 = chr '/' ↔ a.headD 0 = chr '/')
    (h : skip_slash a ++ t = skip_slash (b.take (n + 1))) : a ++ t <+: b := by
  have htake : (b.take (n + 1)).headD 0 = b.headD 0 := by
    cases b with
    | nil => rfl
    | cons d b => rfl
  unfold skip_slash at h
  rw [htake] at h
  by_cases ha : a.headD 0 = chr '/'
  · have hb := hhead.mpr ha
    rw [if_pos ha, if_pos hb] at h
    cases a with
    | nil => exact absurd ha (by decide)
    | cons c a =>
        cases b with
        | nil => exact absurd hb (by decide)
        | cons d b =>
            have hc : c = chr '/' := ha
            have hd : d = chr '/' := hb
            rw [List.tail_cons, List.take_succ_cons, List.tail_cons] at h
            rw [hc, hd, List.cons_append, List.cons_prefix_cons, h]
            exact ⟨rfl, List.take_prefix _ _⟩
  · rw [if_neg ha, if_neg (fun hb => ha (hhead.mp hb))] at h
    rw [h]
    apply List.take_prefix

/-- The clean path of NUL-free text. -/
theorem clean_url_path_of_no_nul {p : List u8} (h0 : 0 ∉ p) :
    clean_url_path p = skip_slash ((cstr (decoded p)).take 259) := by
  rw [clean_url_path_eq, cstr_of_no_nul h0]

/-- Nothing of a listing's URL is cut off. -/
theorem clean_dir_url (dir_url : CString MAX_PATH) :
    clean_url_path dir_url.bytes = skip_slash (cstr (decoded dir_url.bytes)) := by
  have hlen : (cstr (decoded dir_url.bytes)).length ≤ 259 :=
    ((cstr_length_le _).trans (decoded_length_le _)).trans (Nat.le_of_lt_succ dir_url.fits)
  rw [clean_url_path_of_no_nul dir_url.no_nul, List.take_of_length_le hlen]

theorem joint_starts {name text : List u8} {last : u8} (h : Joint name last text)
    (hname : ValidName name) :
    ∃ c t, text = c :: t ∧ 16 ≤ c.toNat := by
  rcases h with ⟨-, rfl⟩ | ⟨c, t, rfl, -, hc, -⟩
  · obtain ⟨c, t, rfl⟩ := List.exists_cons_of_ne_nil hname.nonempty
    have hc := hname.no_control c List.mem_cons_self
    exact ⟨c, t, rfl, by omega⟩
  · exact ⟨c, t, rfl, hc⟩


/-! ## A link that leads back -/

/-- What a path that leads back says of the decoded texts: behind the URL's stands the name,
or more than the name. -/
theorem joint_of_resolvesTo {document_root : List u8} {dir_url : CString MAX_PATH}
    (hurl : ListedUrl document_root dir_url) {e s : List u8}
    (hesc : Escapes dir_url.bytes e) (hs0 : 0 ∉ s)
    (h : ResolvesTo document_root dir_url name (e ++ s)) :
    ∃ text, Joint name ((cstr (decoded dir_url.bytes)).getLastD 0) text
      ∧ cstr (decoded dir_url.bytes) ++ text <+: cstr (decoded (e ++ s))
      ∧ (text = name → clean_url_path dir_url.bytes ≠ []
        ∧ clean_url_path (e ++ s) = clean_url_path dir_url.bytes ++ name) := by
  obtain ⟨hres, hchild⟩ := h
  have h0 : 0 ∉ e ++ s := by
    rw [List.mem_append, not_or]
    exact ⟨hesc.no_nul dir_url.no_nul, hs0⟩
  have hhead := headD_slash_iff hesc dir_url.no_nul hs0 hurl.slash
  unfold directory_path at hchild
  rw [isChild_resolved_iff hurl.resolves hres] at hchild
  -- `index.html` is no entry of a directory
  have hne : clean_url_path (e ++ s) ≠ [] := by
    intro hnil
    obtain ⟨c, hc, hsep⟩ := hchild.separator
    rw [served_path, if_pos hnil] at hc
    have hno : ∀ c ∈ ascii "index.html", is_separator c = false :=
      forall_mem_of_all (by decide)
    rw [hno c hc] at hsep
    exact absurd hsep (by decide)
  rw [served_path, served_path, if_neg hne] at hchild
  -- both texts are compared behind their slash
  have hprefix : ∀ text, clean_url_path dir_url.bytes ++ text = clean_url_path (e ++ s) →
      cstr (decoded dir_url.bytes) ++ text <+: cstr (decoded (e ++ s)) := by
    intro text htext
    rw [clean_dir_url, clean_url_path_of_no_nul h0] at htext
    exact prefix_of_skip_slash hhead htext
  by_cases hnil : clean_url_path dir_url.bytes = []
  · rw [if_pos hnil] at hchild
    rcases hchild with ⟨hlast, -⟩ | ⟨c, -, hpath⟩
    · exact absurd hlast (by decide)
    · refine ⟨ascii "index.html" ++ c :: name, Or.inr ⟨chr 'i', ascii "ndex.html" ++ c :: name,
        rfl, by decide, by decide, ?_⟩, hprefix _ ?_, ?_⟩
      · rw [List.length_append, List.length_cons]
        omega
      · rw [hnil, hpath, List.nil_append]
      · intro htext
        have hlen := congrArg List.length htext
        rw [List.length_append, List.length_cons] at hlen
        omega
  · rw [if_neg hnil] at hchild
    have hlast : (clean_url_path dir_url.bytes).getLastD 0
        = (cstr (decoded dir_url.bytes)).getLastD 0 := by
      rw [clean_dir_url] at hnil ⊢
      exact skip_slash_getLastD hnil
    rcases hchild with ⟨hsep, hpath⟩ | ⟨c, hc, hpath⟩
    · rw [hlast] at hsep
      exact ⟨name, Or.inl ⟨hsep, rfl⟩, hprefix _ hpath.symm, fun _ => ⟨hnil, hpath⟩⟩
    · have hbounds : ¬ is_hex c ∧ 16 ≤ c.toNat := by
        simp only [is_separator, Bool.or_eq_true, beq_iff_eq] at hc
        rcases hc with rfl | rfl
        · decide
        · decide
      refine ⟨c :: name, Or.inr ⟨c, name, rfl, hbounds.1, hbounds.2, le_refl _⟩,
        hprefix _ hpath.symm, fun htext => ?_⟩
      have hlen := congrArg List.length htext
      rw [List.length_cons] at hlen
      omega

/-- **What a link that leads back has to be.** -/
theorem conditions_of_resolvesTo {document_root : List u8} {dir_url : CString MAX_PATH}
    (hurl : ListedUrl document_root dir_url) (hname : ValidName name) {e y s : List u8}
    (hesc : Escapes dir_url.bytes e) (hs : Escapes y s) (hy0 : 0 ∉ y)
    (hy : y.length ≤ name.length) (h : ResolvesTo document_root dir_url name (e ++ s)) :
    dir_url.bytes ≠ ascii "/" ∧ Steady dir_url.bytes e ∧ decoded s = name
      ∧ has_dot_dot name = false := by
  have hs0 : 0 ∉ s := hs.no_nul hy0
  have hfits : (cstr (decoded s)).length ≤ name.length :=
    ((cstr_length_le _).trans (hs.decoded_length_le hy0)).trans hy
  obtain ⟨text, hjoint, hpre, hclean⟩ := joint_of_resolvesTo hurl hesc hs0 h
  obtain ⟨hsteady, htext, hname_pre⟩ := steady_of_prefix (joint_starts hjoint hname) hs0 hfits
    dir_url.bytes hesc dir_url.no_nul (Or.inr hurl.slash) hjoint hpre
  obtain ⟨hne, hpath⟩ := hclean htext
  refine ⟨?_, hsteady, ?_, ?_⟩
  · intro hroot
    rw [hroot] at hne
    exact hne (by decide)
  · have hlong : name <+: decoded s := hname_pre.trans (List.takeWhile_prefix _)
    exact (hlong.eq_of_length_le ((hs.decoded_length_le hy0).trans hy)).symm
  · obtain ⟨-, hsafe, -⟩ := (resolve_file_path_eq_zero_iff _ _ _).mp h.1
    by_contra hdots
    rw [Bool.not_eq_false, has_dot_dot_iff] at hdots
    apply no_dot_dot_of_safe hsafe
    have hwhole : cstr (clean_url_path (e ++ s)) = clean_url_path (e ++ s) := by
      rw [clean_url_path, cstr_cstr]
    rw [hwhole, hpath]
    exact hdots.trans (List.suffix_append _ _).isInfix

/-- A name behind a safe directory is safe. -/
theorem is_safe_path_append {dir w : List u8} (hdir : dir = w ++ [chr '/']) (h0 : 0 ∉ dir)
    (hsafe : is_safe_path dir = true) (hname : ValidName name)
    (hdots : has_dot_dot name = false) : is_safe_path (dir ++ name) = true := by
  have h0' : 0 ∉ dir ++ name := by
    rw [List.mem_append, not_or]
    exact ⟨h0, hname.no_nul⟩
  rw [is_safe_path_iff h0] at hsafe
  rw [is_safe_path_iff h0']
  obtain ⟨hdir_dots, habsolute, hvalid⟩ := hsafe
  refine ⟨?_, ?_, ?_⟩
  · have hw : has_dot_dot w = false := by
      have := hdir_dots
      rw [hdir, has_dot_dot_slash, Bool.or_eq_false_iff] at this
      exact this.1
    rw [hdir, List.append_assoc, List.singleton_append, has_dot_dot_slash, hw, hdots,
      Bool.or_false]
  · -- the first two bytes are the directory's, or the slash and one byte of the name
    rw [hdir] at habsolute ⊢
    match w with
    | [] =>
        obtain ⟨c, t, rfl⟩ := List.exists_cons_of_ne_nil hname.nonempty
        have hc : c ≠ chr ':' := by
          rintro rfl
          exact hname.no_reserved _ List.mem_cons_self (by decide)
        rintro (h | ⟨h, -⟩)
        · have hslash : chr '/' = chr '\\' := h
          exact absurd hslash (by decide)
        · exact hc h
    | [c] => exact habsolute
    | c :: d :: w => exact habsolute
  · intro c hc hbad
    rcases List.mem_append.mp hc with hc | hc
    · exact hvalid c hc hbad
    · apply hname.no_reserved c hc
      rcases hbad with rfl | rfl | rfl | rfl | rfl | rfl <;> decide

/-- **What makes a link lead back.** -/
theorem resolvesTo_of_conditions {document_root : List u8} {dir_url : CString MAX_PATH}
    (hurl : ListedUrl document_root dir_url) (hname : ValidName name)
    (hfits : (child_path (directory_path document_root dir_url) name).length < MAX_PATH)
    {e s : List u8} (hroot : dir_url.bytes ≠ ascii "/") (hsteady : Steady dir_url.bytes e)
    (hs0 : 0 ∉ s) (he0 : 0 ∉ e) (hs : decoded s = name) (hdots : has_dot_dot name = false) :
    ResolvesTo document_root dir_url name (e ++ s) := by
  have h0 : 0 ∉ e ++ s := by
    rw [List.mem_append, not_or]
    exact ⟨he0, hs0⟩
  have hmax : MAX_PATH = 260 := rfl
  -- the decoded texts
  obtain ⟨w, hw, hwne⟩ := hsteady.decoded_ends dir_url.no_nul
  have hwne : w ≠ [] := hwne hroot
  have hdec : decoded (e ++ s) = w ++ [chr '/'] ++ name := by
    rw [hsteady.decoded_append dir_url.no_nul, hw, hs]
  have hw0 : 0 ∉ w ++ [chr '/'] := hw ▸ hsteady.decoded_no_nul dir_url.no_nul
  have hdec0 : 0 ∉ w ++ [chr '/'] ++ name := by
    rw [List.mem_append, not_or]
    exact ⟨hw0, hname.no_nul⟩
  -- the directory's clean path still ends in the slash
  have hclean : clean_url_path dir_url.bytes = skip_slash w ++ [chr '/'] := by
    rw [clean_dir_url, hw, cstr_of_no_nul hw0, skip_slash_append hwne]
  have hne : clean_url_path dir_url.bytes ≠ [] := by simp [hclean]
  have hdir : directory_path document_root dir_url
      = cstr document_root ++ chr '\\' :: skip_slash w ++ [chr '/'] := by
    rw [directory_path, resolve_file_path_text (by decide) hurl.resolves, full_path_text,
      if_neg hne, hclean]
    simp
  have hlast : is_separator ((directory_path document_root dir_url).getLastD 0) = true := by
    rw [hdir, List.getLastD_concat]
    decide
  have hchild : child_path (directory_path document_root dir_url) name
      = cstr document_root ++ chr '\\' :: (skip_slash w ++ [chr '/'] ++ name) := by
    rw [child_path, if_pos hlast, hdir]
    simp
  -- the request's clean path is the directory's and the name
  have hpath : clean_url_path (e ++ s) = skip_slash w ++ [chr '/'] ++ name := by
    have hlen : (w ++ [chr '/'] ++ name).length ≤ 259 := by
      have hle := length_le_skip_slash w
      rw [hchild] at hfits
      simp only [List.length_append, List.length_cons] at hfits ⊢
      omega
    rw [clean_url_path_of_no_nul h0, hdec, cstr_of_no_nul hdec0, List.take_of_length_le hlen,
      List.append_assoc, skip_slash_append hwne, List.append_assoc]
  have hpne : clean_url_path (e ++ s) ≠ [] := by simp [hpath]
  have hsafe : is_safe_path (clean_url_path (e ++ s)) = true := by
    obtain ⟨-, hsafe, -⟩ := (resolve_file_path_eq_zero_iff _ _ _).mp hurl.resolves
    have hv0 : 0 ∉ skip_slash w ++ [chr '/'] := by
      rw [← hclean]
      apply cstr_no_nul
    rw [hclean] at hsafe
    rw [hpath]
    exact is_safe_path_append rfl hv0 hsafe hname hdots
  have htext : full_path_text document_root (clean_url_path (e ++ s))
      = child_path (directory_path document_root dir_url) name := by
    rw [hchild, full_path_text, if_neg hpne, hpath]
  have hres : (resolve_file_path document_root (e ++ s) 260).1 = 0 :=
    resolve_file_path_of_fits hsafe (by rw [htext]; exact hfits)
  refine ⟨hres, Or.inl ⟨hlast, ?_⟩⟩
  rw [resolve_file_path_text (by decide) hres, htext, child_path, if_pos hlast]

/-- The request line keeps a text without a space. -/
theorem kept_of_no_space {text : List u8} (h : chr ' ' ∉ text) :
    ∀ c ∈ text, decide (c ≠ chr ' ') = true := by
  intro c hc
  simpa using fun hspace : c = chr ' ' => h (hspace ▸ hc)

/-- **When a link leads back.** For a listed URL, a file name Windows allows and a client
that escapes spaces and non-ASCII bytes as it likes: the URL is not the root's and reaches
the server steady, and the name comes back plain and has no two dots side by side. The link is that
of the formatted row. Whether the row fits the array it is formatted into is another matter, that
of `DirStream.row_fits_iff`. -/
theorem link_leads_back_iff {document_root : List u8} {dir_url : CString MAX_PATH}
    (hurl : ListedUrl document_root dir_url) {entry : WIN32_FIND_DATA}
    (hfile : is_directory entry = false) (hname : ValidName entry.cFileName.bytes)
    (hfits : (child_path (directory_path document_root dir_url) entry.cFileName.bytes).length
      < MAX_PATH) {url_sent name_sent tail : List u8} (hurl_sent : Escapes dir_url.bytes url_sent)
    (hname_sent : Escapes (href (wsprintf (row_text entry))) name_sent)
    (htail : CompleteTail tail) :
    LeadsBack document_root dir_url entry.cFileName.bytes
        (get_request (url_sent ++ name_sent) tail)
      ↔ dir_url.bytes ≠ ascii "/" ∧ Steady dir_url.bytes url_sent
        ∧ Plain entry.cFileName.bytes name_sent
        ∧ has_dot_dot entry.cFileName.bytes = false := by
  rw [row_written_whole, href_row_text hfile hname] at hname_sent
  have hcut : (url_sent ++ name_sent).takeWhile (· ≠ chr ' ')
      = url_sent ++ name_sent.takeWhile (· ≠ chr ' ') :=
    List.takeWhile_append_of_pos (kept_of_no_space (hurl_sent.no_space hurl.no_space))
  rw [leadsBack_get_request_iff _ htail, hcut]
  constructor
  · intro h
    obtain ⟨y, hy, hle, hy0, hlt⟩ := hname_sent.takeWhile
    obtain ⟨hroot, hsteady, hdec, hdots⟩ :=
      conditions_of_resolvesTo hurl hname hurl_sent hy (hy0 hname.no_nul) hle h
    -- a name cut at a space decodes to less than the name
    have hspace : chr ' ' ∉ name_sent := by
      intro hmem
      have hshort := hy.decoded_length_le (hy0 hname.no_nul)
      rw [hdec] at hshort
      exact absurd hshort (not_le.mpr (hlt hmem))
    have hwhole : name_sent.takeWhile (· ≠ chr ' ') = name_sent :=
      List.takeWhile_eq_self_iff.mpr (kept_of_no_space hspace)
    rw [hwhole] at hdec
    exact ⟨hroot, hsteady, (decoded_eq_iff hname_sent hname.no_nul hspace).mp hdec, hdots⟩
  · rintro ⟨hroot, hsteady, hplain, hdots⟩
    have hspace := hplain.no_space
    have hwhole : name_sent.takeWhile (· ≠ chr ' ') = name_sent :=
      List.takeWhile_eq_self_iff.mpr (kept_of_no_space hspace)
    rw [hwhole]
    exact resolvesTo_of_conditions hurl hname hfits hroot hsteady
      (hname_sent.no_nul hname.no_nul) (hurl_sent.no_nul dir_url.no_nul) hplain.decoded_eq hdots

def sample_url : CString MAX_PATH := ⟨ascii "/d/", by decide, by decide⟩

def sample_tail : List u8 := ascii "HTTP/1.0\r\nA: b\r\n\r\n"

def space_entry : WIN32_FIND_DATA := ⟨0x80, 5, ⟨ascii "a b.txt", by decide, by decide⟩⟩

def plus_entry : WIN32_FIND_DATA := ⟨0x80, 5, ⟨ascii "a+b.txt", by decide, by decide⟩⟩

/-- A name with a space, which the client escapes. -/
theorem link_leads_back_space :
    LeadsBack (ascii "C:\\www") sample_url (ascii "a b.txt")
      (get_request (ascii "/d/" ++ ascii "a%20b.txt") sample_tail) := by
  have hspace : Digits (chr ' ') (chr '2') (chr '0') := ⟨by decide, by decide, by decide⟩
  have hplain : Plain (ascii "a b.txt") (ascii "a%20b.txt") :=
    .keep (by decide) (by decide) (by decide) (.escape (Or.inl rfl) hspace
      (.keep (by decide) (by decide) (by decide) (.keep (by decide) (by decide) (by decide)
        (.keep (by decide) (by decide) (by decide) (.keep (by decide) (by decide) (by decide)
          (.keep (by decide) (by decide) (by decide) .nil))))))
  have hurl : ListedUrl (ascii "C:\\www") sample_url := ⟨by decide, by decide, by decide⟩
  have hname : ValidName space_entry.cFileName.bytes :=
    ⟨by decide, forall_mem_of_all (by decide), forall_mem_of_all (by decide),
      by decide, by decide⟩
  have htail : CompleteTail sample_tail := by
    unfold CompleteTail
    decide
  have hhref : href (wsprintf (row_text space_entry)) = ascii "a b.txt" := by decide
  exact (link_leads_back_iff hurl (show is_directory space_entry = false by decide) hname (by decide)
    (Escapes.refl _) (hhref ▸ hplain.escapes) htail).mpr
    ⟨by decide, .keep (by decide) (.keep (by decide) .slash), hplain, by decide⟩

/-- A listing of one file whose name has a '+' in it: its link, sent as it stands, resolves
to a name with a space in its place. -/
theorem plus_does_not_lead_back :
    ∃ req, parse_http_request (get_request (ascii "/d/") sample_tail) 0 = some req
      ∧ OpensListing (ascii "C:\\www")
        (disk [(ascii "C:\\www\\d/", .directory [plus_entry])]) req []
      ∧ req.path_bytes = sample_url.bytes
      ∧ ListedUrl (ascii "C:\\www") sample_url
      ∧ is_directory plus_entry = false ∧ ValidName plus_entry.cFileName.bytes
      ∧ (child_path (directory_path (ascii "C:\\www") sample_url)
        plus_entry.cFileName.bytes).length < MAX_PATH
      ∧ Escapes (sample_url.bytes ++ href (wsprintf (row_text plus_entry))) (ascii "/d/a+b.txt")
      ∧ CompleteTail sample_tail
      ∧ ¬ LeadsBack (ascii "C:\\www") sample_url plus_entry.cFileName.bytes
        (get_request (ascii "/d/a+b.txt") sample_tail) := by
  have htail : CompleteTail sample_tail := by
    unfold CompleteTail
    decide
  have hsent : sample_url.bytes ++ href (wsprintf (row_text plus_entry)) = ascii "/d/a+b.txt" := by
    decide
  refine ⟨⟨1, ⟨18, 22⟩, ⟨4, 7⟩, get_request (ascii "/d/") sample_tail⟩, by decide,
    ⟨⟨⟨by decide, by decide, by decide, by decide⟩, by decide, by decide⟩, by decide, by decide,
      by decide⟩, by decide, ⟨by decide, by decide, by decide⟩, by decide,
    ⟨by decide, forall_mem_of_all (by decide), forall_mem_of_all (by decide),
      by decide, by decide⟩, by decide, ?_, htail, ?_⟩
  · rw [hsent]
    apply Escapes.refl
  · rw [leadsBack_get_request_iff _ htail]
    rintro ⟨-, ⟨-, hpath⟩ | ⟨c, -, hpath⟩⟩
    · exact absurd hpath (by decide)
    · have hlen := congrArg List.length hpath
      rw [List.length_append, List.length_cons] at hlen
      exact absurd hlen (by decide)

end W32HttpServer.Links

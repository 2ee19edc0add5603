/-
The request text a response repeats: the Location header of a redirect and `dir_url`.

`is_safe_path` looks at the decoded path, up to its first NUL, while `location` and
`dir_url` are copied from the raw one. What was never looked at is `hidden_bytes`: the two
bytes behind the '%' of every escape, which the decoder accepts whatever they are, and all
that follows an escape decoding to NUL. The other raw bytes stand for themselves in the
decoded path, so for the markup characters the check sees them all (`mem_url_iff`). CR and
LF are in nobody's table, so they pass anywhere.
-/
import W32HttpServer.Common
import W32HttpServer.HttpRequest
import W32HttpServer.HttpPath
import W32HttpServer.HttpResponse
import W32HttpServer.Platform
import W32HttpServer.Disk
import W32HttpServer.Context
import W32HttpServer.DirStream
import W32HttpServer.Serve

set_option autoImplicit false

namespace W32HttpServer.Reflection

open W32HttpServer.Common W32HttpServer.HttpRequest W32HttpServer.HttpPath
open W32HttpServer.HttpResponse W32HttpServer.Platform W32HttpServer.Disk
open W32HttpServer.Context W32HttpServer.DirStream W32HttpServer.Serve

variable {σ : Type}

/-! ## Harmless text -/

/-- The characters of HTML markup that `is_safe_path` rejects. -/
def is_markup (c : u8) : Prop := c = chr '<' ∨ c = chr '>' ∨ c = chr '"'

def is_line_end (c : u8) : Prop := c = chr '\r' ∨ c = chr '\n'

def HarmlessText (text : List u8) : Prop := ∀ c ∈ text, ¬ is_line_end c ∧ ¬ is_markup c

/-- Nothing harmful in the Location header of a redirect, nor in the URL a listing shows. -/
structure Harmless (r : serve_result σ) : Prop where
  location : ∀ location, build_http_redirect_response location HTTP_SEND_BUFFER_SIZE = some r.out →
    HarmlessText (cstr location)
  dir_url : r.ctx.stream_kind = .STREAM_DIR → HarmlessText r.ctx.dir_url.bytes

/-! ## What the check does not see -/

/-- The raw bytes that are not represented in the decoded C string: the digits of each
escape, and everything behind one that decodes to NUL. -/
def hidden_bytes : List u8 → List u8
  | c :: c1 :: c2 :: rest =>
      if c = chr '%' then c1 :: c2 :: if escaped c1 c2 = 0 then rest else hidden_bytes rest
      else hidden_bytes (c1 :: c2 :: rest)
  | _ => []

/-- No line end anywhere, and no markup among the hidden bytes. -/
def NothingHidden (url : List u8) : Prop :=
  (∀ c ∈ url, ¬ is_line_end c) ∧ ∀ c ∈ hidden_bytes url, ¬ is_markup c

theorem hidden_bytes_escape (c1 c2 : u8) (rest : List u8) :
    hidden_bytes (chr '%' :: c1 :: c2 :: rest)
      = c1 :: c2 :: if escaped c1 c2 = 0 then rest else hidden_bytes rest := by
  rw [hidden_bytes, if_pos rfl]

theorem hidden_bytes_plain {c : u8} {p : List u8} (hc : c = chr '%' → p.length < 2) :
    hidden_bytes (c :: p) = hidden_bytes p := by
  match p, hc with
  | [], _ => rfl
  | [_], _ => rfl
  | c1 :: c2 :: rest, hc =>
      have hne : c ≠ chr '%' := fun h => absurd (hc h) (by simp)
      rw [hidden_bytes, if_neg hne]

theorem hidden_bytes_subset (url : List u8) : ∀ c ∈ hidden_bytes url, c ∈ url := by
  induction url using url_induction with
  | nil => simp [hidden_bytes]
  | escape c1 c2 rest ih =>
      intro c hc
      rw [hidden_bytes_escape] at hc
      simp only [List.mem_cons] at hc ⊢
      rcases hc with hc | hc | hc
      · exact Or.inr (Or.inl hc)
      · exact Or.inr (Or.inr (Or.inl hc))
      · split_ifs at hc
        · exact Or.inr (Or.inr (Or.inr hc))
        · exact Or.inr (Or.inr (Or.inr (ih c hc)))
  | plain c p hp ih =>
      intro d hd
      rw [hidden_bytes_plain hp] at hd
      exact List.mem_cons_of_mem _ (ih d hd)

/-- **Every raw byte is checked or hidden.** `d` is any byte the decoder gives no meaning
to. -/
theorem mem_hidden_of_unchecked {d : u8} (hplus : d ≠ chr '+') (url : List u8) :
    0 ∉ url → d ≠ chr '%' → d ∉ cstr (decoded url) → d ∈ url → d ∈ hidden_bytes url := by
  intro h0 hpercent
  induction url using url_induction with
  | nil => simp
  | escape c1 c2 rest ih =>
      intro hd hmem
      simp only [List.mem_cons, not_or] at h0
      rw [decoded_escape (Ne.symm h0.2.1) (Ne.symm h0.2.2.1), cstr_cons] at hd
      rw [hidden_bytes_escape]
      simp only [List.mem_cons] at hmem ⊢
      rcases hmem with hmem | hmem | hmem | hmem
      · exact absurd hmem hpercent
      · exact Or.inl hmem
      · exact Or.inr (Or.inl hmem)
      · by_cases hnul : escaped c1 c2 = 0
        · rw [if_pos hnul]
          exact Or.inr (Or.inr hmem)
        · rw [if_neg hnul, List.mem_cons, not_or] at hd
          rw [if_neg hnul]
          exact Or.inr (Or.inr (ih h0.2.2.2 hd.2 hmem))
  | plain c p hp ih =>
      intro hd hmem
      rw [List.mem_cons, not_or] at h0
      rw [decoded_plain hp, cstr_cons_of_ne (unescaped_ne_zero (Ne.symm h0.1)), List.mem_cons,
        not_or] at hd
      rw [hidden_bytes_plain hp]
      rcases List.mem_cons.mp hmem with rfl | hmem
      · -- the byte would stand for itself in the decoded text
        exact absurd (by rw [unescaped, if_neg hplus]) hd.1
      · exact ih h0.2 hd.2 hmem

/-- A path that passes the check holds no markup where the check looks. -/
theorem markup_free_of_safe {path : List u8} (h : is_safe_path path = true) :
    ∀ c ∈ cstr path, ¬ is_markup c := by
  intro c hc hm
  rw [is_safe_path] at h
  split_ifs at h with h1 h2 h3
  refine h3 (List.any_eq_true.mpr ⟨c, hc, ?_⟩)
  rcases hm with rfl | rfl | rfl <;> decide

/-- Behind its slash, the clean path holds every byte of the decoded one. -/
theorem mem_clean_url_path {url_path : List u8} {c : u8} (hslash : c ≠ chr '/')
    (hlen : (cstr url_path).length < MAX_PATH) (h : c ∈ cstr (decoded (cstr url_path))) :
    c ∈ clean_url_path url_path := by
  have hfits : (cstr (decoded (cstr url_path))).length ≤ 259 :=
    ((cstr_length_le _).trans (decoded_length_le _)).trans (Nat.le_of_lt_succ hlen)
  rw [clean_url_path_eq, List.take_of_length_le hfits]
  unfold skip_slash
  split_ifs with hhead
  · cases hdec : cstr (decoded (cstr url_path)) with
    | nil =>
        rw [hdec] at h
        exact absurd h (by simp)
    | cons a l =>
        rw [hdec] at h hhead
        have ha : a = chr '/' := hhead
        rw [ha] at h
        exact (List.mem_cons.mp h).resolve_left hslash
  · exact h

/-- **The check and the raw text.** Once a URL resolves, its markup is all hidden. -/
theorem markup_hidden {document_root url_path : List u8} {size : u32}
    (h : (resolve_file_path document_root url_path size).1 = 0)
    (hlen : (cstr url_path).length < MAX_PATH) {c : u8} (hm : is_markup c) :
    c ∈ cstr url_path ↔ c ∈ hidden_bytes (cstr url_path) := by
  obtain ⟨-, hsafe, -⟩ := (resolve_file_path_eq_zero_iff _ _ _).mp h
  constructor
  · intro hc
    refine mem_hidden_of_unchecked ?_ _ (cstr_no_nul _) ?_ ?_ hc
    · rcases hm with rfl | rfl | rfl <;> decide
    · rcases hm with rfl | rfl | rfl <;> decide
    · intro hd
      have hslash : c ≠ chr '/' := by rcases hm with rfl | rfl | rfl <;> decide
      have hclean := mem_clean_url_path hslash hlen hd
      unfold clean_url_path at hclean
      rw [← cstr_cstr, ← clean_url_path] at hclean
      exact markup_free_of_safe hsafe c hclean hm
  · exact hidden_bytes_subset _ c

/-! ## Which response it is -/

/-- A byte of a formatted head that its first part already decides. -/
theorem wsprintf_getD {p : List u8} {i : ℕ} (hi : i < p.length) (hi' : i < 1023) (q : List u8) :
    (wsprintf (p ++ q)).getD i 0 = p.getD i 0 := by
  rw [wsprintf, List.getD_eq_getElem _ _ (by simp; omega), List.getD_eq_getElem _ _ hi,
    List.getElem_take, List.getElem_append_left hi]

def redirect_text (location : List u8) : List u8 :=
  ascii "HTTP/1.0 301 Moved Permanently\r\n" ++ ascii "Location: " ++ cstr location
    ++ ascii "\r\n" ++ ascii "Content-Type: text/html\r\n" ++ ascii "Content-Length: 0\r\n"
    ++ ascii "Connection: close\r\n" ++ ascii "\r\n"

theorem redirect_text_length (location : List u8) :
    (redirect_text location).length = (cstr location).length + 109 := by
  have h1 : (ascii "HTTP/1.0 301 Moved Permanently\r\n").length = 32 := by decide
  have h2 : (ascii "Location: ").length = 10 := by decide
  have h3 : (ascii "\r\n").length = 2 := by decide
  have h4 : (ascii "Content-Type: text/html\r\n").length = 25 := by decide
  have h5 : (ascii "Content-Length: 0\r\n").length = 19 := by decide
  have h6 : (ascii "Connection: close\r\n").length = 19 := by decide
  simp only [redirect_text, List.length_append]
  omega

theorem build_http_redirect_response_eq (location : List u8) :
    build_http_redirect_response location HTTP_SEND_BUFFER_SIZE
      = some (wsprintf (redirect_text location)) :=
  format_into_of_limit _ (by decide)

/-- The first digit of the status of a redirect. -/
theorem redirect_status {location out : List u8}
    (h : build_http_redirect_response location HTTP_SEND_BUFFER_SIZE = some out) :
    out.getD 9 0 = chr '3' := by
  rw [build_http_redirect_response_eq, Option.some.injEq] at h
  rw [← h, redirect_text]
  simp only [List.append_assoc]
  rw [wsprintf_getD (by decide) (by decide)]
  decide

theorem error_status {code : ℤ} {message out : List u8}
    (hcode : code ∈ ([400, 403, 404, 405, 500] : List ℤ))
    (h : build_http_error_response code message HTTP_SEND_BUFFER_SIZE = some out) :
    out.getD 9 0 ≠ chr '3' := by
  have hout := (format_into_bounds h).1
  rw [hout]
  simp only [List.append_assoc]
  rw [← List.append_assoc (ascii "HTTP/1.0 ")]
  simp only [List.mem_cons, List.not_mem_nil, or_false] at hcode
  rcases hcode with rfl | rfl | rfl | rfl | rfl <;>
    rw [wsprintf_getD (by decide) (by decide)] <;> decide

theorem file_status {mime_type out : List u8} {file_size : u32}
    (h : build_http_file_header mime_type file_size HTTP_SEND_BUFFER_SIZE = some out) :
    out.getD 9 0 ≠ chr '3' := by
  obtain ⟨rfl, -, -⟩ := format_into_bounds h
  simp only [List.append_assoc]
  rw [wsprintf_getD (by decide) (by decide)]
  decide

theorem listing_status {out : List u8}
    (h : build_http_listing_header HTTP_SEND_BUFFER_SIZE = some out) : out.getD 9 0 ≠ chr '3' := by
  obtain ⟨rfl, -, -⟩ := format_into_bounds h
  decide

/-- A head names its location: no other one is formatted into the same bytes. -/
theorem location_of_redirect {location location' : List u8} (hlen : (cstr location).length < 512)
    (h : build_http_redirect_response location' HTTP_SEND_BUFFER_SIZE
      = build_http_redirect_response location HTTP_SEND_BUFFER_SIZE) :
    cstr location' = cstr location := by
  have hwhole : wsprintf (redirect_text location) = redirect_text location :=
    wsprintf_of_lt (by rw [redirect_text_length]; omega)
  rw [build_http_redirect_response_eq, build_http_redirect_response_eq, Option.some.injEq,
    hwhole] at h
  have hshort : (redirect_text location').length < 1024 := by
    have hl := congrArg List.length h
    rw [wsprintf, List.length_take, redirect_text_length, redirect_text_length] at hl
    rw [redirect_text_length]
    omega
  rw [wsprintf_of_lt hshort, redirect_text, redirect_text] at h
  simp only [List.append_cancel_right_eq, List.append_cancel_left_eq] at h
  exact h

/-! ## The echo -/

/-- Once a request resolves, its text is harmless exactly when nothing harmful is hidden. -/
theorem harmless_url_iff {document_root : List u8} {req : http_request_t}
    (h : Resolves document_root req) :
    HarmlessText (cstr req.path_bytes) ↔ NothingHidden (cstr req.path_bytes) := by
  have hlen := path_bytes_length_lt h
  constructor
  · intro hall
    refine ⟨fun c hc => (hall c hc).1, fun c hc hm => ?_⟩
    exact (hall c (hidden_bytes_subset _ c hc)).2 hm
  · rintro ⟨hline, hhidden⟩ c hc
    exact ⟨hline c hc, fun hm => hhidden c ((markup_hidden h.resolved hlen hm).mp hc) hm⟩

/-- The slash a redirect adds is harmless. -/
theorem harmless_location_iff (url : List u8) (hlen : (cstr url).length < MAX_PATH) :
    HarmlessText (cstr (location_text url)) ↔ HarmlessText (cstr url) := by
  have hmax : MAX_PATH = 260 := rfl
  have hone : (ascii "/").length = 1 := by decide
  have htext : cstr (location_text url) = cstr url ++ ascii "/" := by
    rw [location_text, wsprintf_of_lt (by rw [List.length_append]; omega),
      cstr_append (cstr_no_nul _)]
    rfl
  rw [htext]
  constructor
  · intro h c hc
    exact h c (List.mem_append_left _ hc)
  · intro h c hc
    rcases List.mem_append.mp hc with hc | hc
    · exact h c hc
    · have hslash : c = chr '/' := by simpa [ascii] using hc
      rw [hslash, is_line_end, is_markup]
      decide

/-- A location has one character more than the path. -/
theorem location_text_length_le (url_path : List u8) :
    (cstr (location_text url_path)).length ≤ (cstr url_path).length + 1 := by
  have hone : (ascii "/").length = 1 := by decide
  have htext : (location_text url_path).length ≤ (cstr url_path).length + 1 := by
    rw [location_text, wsprintf, List.length_take, List.length_append, hone]
    omega
  exact le_trans (cstr_length_le _) htext

theorem harmless_redirect_iff {document_root : List u8} {fs : FileSystem σ}
    {req : http_request_t} {s : σ} (h : Redirects document_root fs req s) (ctx : stream_state_t) :
    Harmless (serve_http_request document_root fs ctx req HTTP_SEND_BUFFER_SIZE s)
      ↔ HarmlessText (cstr req.path_bytes) := by
  have hlen := path_bytes_length_lt h.toResolves
  have hmax : MAX_PATH = 260 := rfl
  have hloc : (cstr (location_text req.path_bytes)).length < 512 := by
    have hle := location_text_length_le req.path_bytes
    omega
  have hbuild := build_http_redirect_response_eq (location_text req.path_bytes)
  rw [serve_http_request_redirects h, hbuild, inline_response]
  rw [← harmless_location_iff _ hlen]
  constructor
  · intro hr
    exact hr.location _ hbuild
  · intro htext
    refine ⟨fun location hloc' => ?_, fun hkind => absurd hkind (by simp [clean_slate])⟩
    rw [location_of_redirect hloc (hloc'.trans hbuild.symm)]
    exact htext

theorem harmless_listing_iff {document_root : List u8} {fs : FileSystem σ}
    {req : http_request_t} {s : σ} (h : OpensListing document_root fs req s)
    (ctx : stream_state_t) :
    Harmless (serve_http_request document_root fs ctx req HTTP_SEND_BUFFER_SIZE s)
      ↔ HarmlessText (cstr req.path_bytes) := by
  obtain ⟨hctx, hout⟩ := serve_http_request_opens_listing h ctx
  have hurl := serve_http_request_dir_url h ctx
  rw [← hurl]
  constructor
  · intro hr
    exact hr.dir_url (by rw [hctx]; rfl)
  · intro htext
    exact ⟨fun location hloc => absurd (redirect_status hloc) (listing_status hout),
      fun _ => htext⟩

/-- **When the echo is harmless.** A response repeats no line end and no markup exactly when
it is neither a redirect nor a listing, or the request path hides none. -/
theorem reflected_text_harmless_iff (document_root : List u8) (fs : FileSystem σ)
    (ctx : stream_state_t) (req : http_request_t) (s : σ) :
    Harmless (serve_http_request document_root fs ctx req HTTP_SEND_BUFFER_SIZE s)
      ↔ (Redirects document_root fs req s ∨ OpensListing document_root fs req s
          → NothingHidden (cstr req.path_bytes)) := by
  by_cases hr : Redirects document_root fs req s
  · rw [harmless_redirect_iff hr, harmless_url_iff hr.toResolves]
    exact ⟨fun h _ => h, fun h => h (Or.inl hr)⟩
  by_cases hl : OpensListing document_root fs req s
  · rw [harmless_listing_iff hl, harmless_url_iff hl.toResolves]
    exact ⟨fun h _ => h, fun h => h (Or.inr hl)⟩
  refine ⟨fun _ h => absurd h (not_or.mpr ⟨hr, hl⟩), fun _ => ?_⟩
  generalize hres : serve_http_request document_root fs ctx req HTTP_SEND_BUFFER_SIZE s = r
  have hserved := serve_http_request_served document_root fs ctx req s
  rw [hres] at hserved
  cases hserved with
  | error hcode hmessage hout =>
      exact ⟨fun location hloc => absurd (redirect_status hloc) (error_status hcode hout),
        fun hkind => absurd hkind (by simp [clean_slate])⟩
  | redirect h hout => exact absurd h hr
  | listing h hopen hout => exact absurd h hl
  | file hfile hserve =>
      cases hserve with
      | error hout =>
          exact ⟨fun location hloc => absurd (redirect_status hloc) (error_status (by decide) hout),
            fun hkind => absurd hkind (by simp [clean_slate])⟩
      | opened hopen hsize hvalid hpeek hout =>
          exact ⟨fun location hloc => absurd (redirect_status hloc) (file_status hout),
            fun hkind => absurd hkind (by simp)⟩

/-- A directory `a` under the root, requested as `/a%00`, a line break and markup: the
escape ends the decoded path, and the redirect repeats the rest. -/
theorem redirect_splits_response :
    ∃ req, parse_http_request (ascii "GET /a%00\r\nX:<b> HTTP/1.0\r\nA: b\r\n\r\n") 0 = some req
      ∧ ¬ Harmless (serve_http_request (ascii "C:\\www")
        (disk [(ascii "C:\\www\\a", .directory [])]) initial_stream req HTTP_SEND_BUFFER_SIZE []) := by
  refine ⟨⟨1, ⟨11, 31⟩, ⟨4, 16⟩, ascii "GET /a%00\r\nX:<b> HTTP/1.0\r\nA: b\r\n\r\n"⟩, by decide, ?_⟩
  rw [harmless_redirect_iff ⟨⟨⟨by decide, by decide, by decide, by decide⟩, by decide, by decide⟩,
    by decide⟩]
  intro h
  exact (h (chr '\n') (by decide)).1 (Or.inr rfl)

end W32HttpServer.Reflection

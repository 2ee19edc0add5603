/-
Where a redirect leads.

A directory named without a trailing slash is answered with a 301 to the same path with
the slash. Following it runs the whole way again: length check, decoder, safety check,
length check on the result. The slash is appended to the raw path, so what it does to the
decoded path depends on how that ends.

The decoder takes a '%' for an escape when two more bytes follow. A '%' directly in front of
the last byte is a literal until the slash is appended, and an escape afterwards
(`open_escape`). Everywhere else the decoder passes the slash through
(`decoded_append_slash`), unless a NUL before it has ended the path. What is left are the two
length limits, and the one path that decodes to a lone slash, which stands for the root's
index page while two slashes do not.
-/
import W32HttpServer.Common
import W32HttpServer.HttpRequest
import W32HttpServer.HttpPath
import W32HttpServer.HttpResponse
import W32HttpServer.Platform
import W32HttpServer.Disk
import W32HttpServer.Context
import W32HttpServer.Serve
import W32HttpServer.Reflection

set_option autoImplicit false

namespace W32HttpServer.Redirect

open W32HttpServer.Common W32HttpServer.HttpRequest W32HttpServer.HttpPath
open W32HttpServer.HttpResponse W32HttpServer.Platform W32HttpServer.Disk W32HttpServer.Context
open W32HttpServer.Serve W32HttpServer.Reflection

variable {σ : Type}

/-! ## The decoder and the appended slash -/

/-- Read as the decoder reads it, the text has a literal '%' directly in front of its last
byte. -/
def open_escape : List u8 → Bool
  | c :: c1 :: c2 :: rest =>
      if c = chr '%' then open_escape rest else open_escape (c1 :: c2 :: rest)
  | [c, _] => c == chr '%'
  | _ => false

theorem open_escape_escape (c1 c2 : u8) (rest : List u8) :
    open_escape (chr '%' :: c1 :: c2 :: rest) = open_escape rest := by
  rw [open_escape, if_pos rfl]

theorem open_escape_plain {c : u8} (hc : c ≠ chr '%') (p : List u8) :
    open_escape (c :: p) = open_escape p := by
  match p with
  | [] => rfl
  | [x] => exact beq_eq_false_iff_ne.mpr hc
  | c1 :: c2 :: rest => rw [open_escape, if_neg hc]

/-- The decoder passes the slash through. -/
theorem decoded_append_slash (url : List u8) : 0 ∉ url → open_escape url = false →
    decoded (url ++ ascii "/") = decoded url ++ ascii "/" := by
  induction url using url_induction with
  | nil => exact fun _ _ => by decide
  | escape c1 c2 rest ih =>
      intro h0 hopen
      simp only [List.mem_cons, not_or] at h0
      obtain ⟨-, h1, h2, hrest⟩ := h0
      rw [open_escape_escape] at hopen
      rw [List.cons_append, List.cons_append, List.cons_append,
        decoded_escape (Ne.symm h1) (Ne.symm h2), decoded_escape (Ne.symm h1) (Ne.symm h2),
        ih hrest hopen, List.cons_append]
  | plain c p hc ih =>
      intro h0 hopen
      have hp : 0 ∉ p := fun h => h0 (List.mem_cons_of_mem _ h)
      by_cases hpercent : c = chr '%'
      · match p, hc hpercent with
        | [], _ =>
            rw [hpercent]
            decide
        | [x], _ =>
            rw [hpercent] at hopen
            exact absurd hopen (by simp [open_escape])
      · rw [open_escape_plain hpercent] at hopen
        rw [List.cons_append, decoded_plain (fun h => absurd h hpercent), decoded_plain hc,
          ih hp hopen, List.cons_append]

/-- The slash becomes the second digit of an escape. -/
theorem decoded_open_escape (url : List u8) : 0 ∉ url → open_escape url = true →
    ∃ p x, x ≠ 0 ∧ decoded url = p ++ [chr '%', unescaped x]
      ∧ decoded (url ++ ascii "/") = p ++ [escaped x (chr '/')] := by
  induction url using url_induction with
  | nil => exact fun _ hopen => absurd hopen (by decide)
  | escape c1 c2 rest ih =>
      intro h0 hopen
      simp only [List.mem_cons, not_or] at h0
      obtain ⟨-, h1, h2, hrest⟩ := h0
      rw [open_escape_escape] at hopen
      obtain ⟨p, x, hx, hdecoded, hslash⟩ := ih hrest hopen
      refine ⟨escaped c1 c2 :: p, x, hx, ?_, ?_⟩
      · rw [decoded_escape (Ne.symm h1) (Ne.symm h2), hdecoded, List.cons_append]
      · rw [List.cons_append, List.cons_append, List.cons_append,
          decoded_escape (Ne.symm h1) (Ne.symm h2), hslash, List.cons_append]
  | plain c p hc ih =>
      intro h0 hopen
      have hp : 0 ∉ p := fun h => h0 (List.mem_cons_of_mem _ h)
      by_cases hpercent : c = chr '%'
      · -- a '%' that opens no escape has at most one byte behind it
        match p, hc hpercent with
        | [], _ =>
            rw [hpercent] at hopen
            exact absurd hopen (by decide)
        | [x], _ =>
            have hx : x ≠ 0 := fun h => hp (by rw [h]; exact List.mem_singleton_self 0)
            refine ⟨[], x, hx, ?_, ?_⟩
            · rw [hpercent, decoded_plain (fun _ => by simp), decoded_plain (fun _ => by simp),
                decoded_nil]
              rfl
            · rw [hpercent]
              exact decoded_escape hx (by decide) []
      · rw [open_escape_plain hpercent] at hopen
        obtain ⟨q, x, hx, hdecoded, hslash⟩ := ih hp hopen
        refine ⟨unescaped c :: q, x, hx, ?_, ?_⟩
        · rw [decoded_plain hc, hdecoded, List.cons_append]
        · rw [List.cons_append, decoded_plain (fun h => absurd h hpercent), hslash,
            List.cons_append]

/-- The byte such an escape decodes to is a multiple of sixteen. -/
theorem escaped_slash (x : u8) : (escaped x (chr '/')).toNat % 16 = 0 := by
  have h := escaped_toNat x (chr '/')
  have hslash : hex_digit (chr '/') = 0 := by decide
  rw [hslash] at h
  omega

/-! ## The clean path behind the redirect -/

/-- A NUL ends the string whatever follows. -/
theorem cstr_append_of_nul {s : List u8} (h : 0 ∈ s) (t : List u8) : cstr (s ++ t) = cstr s := by
  induction s with
  | nil => exact absurd h (by simp)
  | cons c s ih =>
      rw [List.cons_append, cstr_cons, cstr_cons]
      split_ifs with hc
      · rfl
      · rw [ih ((List.mem_cons.mp h).resolve_left (Ne.symm hc))]

/-- The clean path of a URL that the decoding buffer takes whole. -/
theorem clean_url_path_short {url : List u8} (h0 : 0 ∉ url) (hlen : url.length < MAX_PATH) :
    clean_url_path url = skip_slash (cstr (decoded url)) := by
  have hmax : MAX_PATH = 260 := rfl
  have hcstr := cstr_length_le (decoded url)
  have hdecoded := decoded_length_le url
  rw [clean_url_path_eq, cstr_of_no_nul h0, List.take_of_length_le (by omega)]

/-- And with the slash behind it. -/
theorem clean_url_path_slash {url : List u8} (h0 : 0 ∉ url) (hlen : url.length + 1 < MAX_PATH) :
    clean_url_path (url ++ ascii "/") = skip_slash (cstr (decoded (url ++ ascii "/"))) := by
  have hone : (ascii "/").length = 1 := by decide
  apply clean_url_path_short
  · rw [List.mem_append, not_or]
    exact ⟨h0, by decide⟩
  · rwa [List.length_append, hone]

theorem decoded_ne_nil {url : List u8} (h : url ≠ []) : decoded url ≠ [] := by
  cases url with
  | nil => exact absurd rfl h
  | cons c p =>
      rw [decoded, List.length_cons, url_decode_loop]
      split_ifs
      · apply List.cons_ne_nil
      · apply List.cons_ne_nil
      · apply List.cons_ne_nil
      · apply List.cons_ne_nil

/-- What stands behind the slash that is skipped. -/
theorem skip_slash_append {p t : List u8} (h : p ≠ [] ∨ t.headD 0 ≠ chr '/') :
    skip_slash (p ++ t) = skip_slash p ++ t := by
  unfold skip_slash
  cases p with
  | nil =>
      rw [List.nil_append, if_neg (h.resolve_left (fun hp => hp rfl)), if_neg (by decide),
        List.nil_append]
  | cons c p =>
      rw [List.cons_append, List.headD_cons, List.headD_cons]
      split_ifs
      · rfl
      · rfl

theorem skip_slash_ne_nil {p : List u8} (hp : p ≠ []) (hslash : p ≠ ascii "/") :
    skip_slash p ≠ [] := by
  unfold skip_slash
  cases p with
  | nil => exact absurd rfl hp
  | cons c p =>
      rw [List.headD_cons]
      split_ifs with hc
      · intro htail
        rw [List.tail_cons] at htail
        exact hslash (by rw [hc, htail]; decide)
      · apply List.cons_ne_nil

section

variable {url : List u8}

theorem clean_of_nul (h0 : 0 ∉ url) (hlen : url.length + 1 < MAX_PATH) (hnul : 0 ∈ decoded url) :
    clean_url_path (url ++ ascii "/") = clean_url_path url := by
  rw [clean_url_path_short h0 (by omega), clean_url_path_slash h0 hlen]
  cases hopen : open_escape url with
  | false => rw [decoded_append_slash url h0 hopen, cstr_append_of_nul hnul]
  | true =>
      -- the NUL stands in front of the escape
      obtain ⟨p, x, hx, hdecoded, hescaped⟩ := decoded_open_escape url h0 hopen
      have hp : 0 ∈ p := by
        rw [hdecoded] at hnul
        rcases List.mem_append.mp hnul with hnul | hnul
        · exact hnul
        · rcases List.mem_cons.mp hnul with h | h
          · exact absurd h (by decide)
          · exact absurd (List.mem_singleton.mp h).symm (unescaped_ne_zero hx)
      rw [hdecoded, hescaped, cstr_append_of_nul hp, cstr_append_of_nul hp]

theorem clean_append_slash (h0 : 0 ∉ url) (hlen : url.length + 1 < MAX_PATH) (hne : url ≠ [])
    (hnul : 0 ∉ decoded url) (hopen : open_escape url = false) (hslash : decoded url ≠ ascii "/") :
    clean_url_path url ≠ []
      ∧ clean_url_path (url ++ ascii "/") = clean_url_path url ++ ascii "/" := by
  have hdecoded := decoded_ne_nil hne
  rw [clean_url_path_short h0 (by omega), clean_url_path_slash h0 hlen,
    decoded_append_slash url h0 hopen, cstr_append hnul, cstr_of_no_nul hnul,
    cstr_of_no_nul (s := ascii "/") (by decide)]
  exact ⟨skip_slash_ne_nil hdecoded hslash, skip_slash_append (Or.inl hdecoded)⟩

/-- The lone slash: the root's index page, and then not. -/
theorem clean_lone_slash (h0 : 0 ∉ url) (hlen : url.length + 1 < MAX_PATH)
    (hslash : decoded url = ascii "/") (hopen : open_escape url = false) :
    clean_url_path url = [] ∧ clean_url_path (url ++ ascii "/") = ascii "/" := by
  rw [clean_url_path_short h0 (by omega), clean_url_path_slash h0 hlen,
    decoded_append_slash url h0 hopen, hslash]
  decide

/-- The open escape: two bytes of the clean path have become one, or have gone. -/
theorem clean_open_escape (h0 : 0 ∉ url) (hlen : url.length + 1 < MAX_PATH)
    (hnul : 0 ∉ decoded url) (hopen : open_escape url = true) :
    ∃ q x e, clean_url_path url = q ++ [chr '%', x] ∧ e ≠ chr '%'
      ∧ (clean_url_path (url ++ ascii "/") = q ∨ clean_url_path (url ++ ascii "/") = q ++ [e]) := by
  obtain ⟨p, x, hx, hdecoded, hescaped⟩ := decoded_open_escape url h0 hopen
  have hp : 0 ∉ p := fun h => hnul (by rw [hdecoded]; exact List.mem_append_left _ h)
  have hmod := escaped_slash x
  have hne : ∀ c : u8, c.toNat % 16 ≠ 0 → escaped x (chr '/') ≠ c := by
    rintro c hc rfl
    exact hc hmod
  rw [clean_url_path_short h0 (by omega), clean_url_path_slash h0 hlen, hescaped,
    cstr_of_no_nul hnul, hdecoded, cstr_append hp]
  -- neither a separator nor a '%' is a multiple of sixteen
  refine ⟨skip_slash p, unescaped x, escaped x (chr '/'), ?_, hne _ (by decide), ?_⟩
  · exact skip_slash_append (Or.inr (by rw [List.headD_cons]; decide))
  · by_cases hzero : escaped x (chr '/') = 0
    · rw [hzero, cstr_zero_cons, List.append_nil]
      exact Or.inl rfl
    · rw [cstr_cons_of_ne hzero, cstr_nil]
      refine Or.inr (skip_slash_append (Or.inr ?_))
      rw [List.headD_cons]
      exact hne _ (by decide)

end

/-! ## The same path -/

/-- The same path up to a trailing separator. -/
def SamePath (p q : List u8) : Prop :=
  q = p ∨ ∃ c, is_separator c = true ∧ (q = p ++ [c] ∨ p = q ++ [c])

/-- What `resolve_file_path` puts behind the root. -/
def resolved_name (clean : List u8) : List u8 :=
  if clean = [] then ascii "index.html" else clean

theorem samePath_text_iff (document_root a b : List u8) :
    SamePath (full_path_text document_root a) (full_path_text document_root b)
      ↔ SamePath (resolved_name a) (resolved_name b) := by
  have htext : ∀ clean, full_path_text document_root clean
      = (cstr document_root ++ [chr '\\']) ++ resolved_name clean := by
    intro clean
    rw [full_path_text, resolved_name, List.append_assoc, List.singleton_append]
  unfold SamePath
  rw [htext, htext]
  simp only [List.append_assoc, List.append_cancel_left_eq]

theorem SamePath.length {p q : List u8} (h : SamePath p q) :
    q.length = p.length ∨ q.length = p.length + 1 ∨ p.length = q.length + 1 := by
  rcases h with rfl | ⟨c, -, rfl | rfl⟩
  · exact Or.inl rfl
  · exact Or.inr (Or.inl (by rw [List.length_append, List.length_singleton]))
  · exact Or.inr (Or.inr (by rw [List.length_append, List.length_singleton]))

/-- The open escape leads elsewhere. -/
theorem not_samePath_open_escape {q : List u8} {x e : u8} {b : List u8} (he : e ≠ chr '%')
    (hb : b = q ∨ b = q ++ [e]) : ¬ SamePath (resolved_name (q ++ [chr '%', x])) (resolved_name b) := by
  intro hsame
  have hlength := hsame.length
  have hleft : resolved_name (q ++ [chr '%', x]) = q ++ [chr '%', x] := if_neg (by simp)
  rw [hleft] at hsame hlength
  rcases hb with rfl | rfl
  · by_cases hnil : b = []
    · have hten : (resolved_name []).length = 10 := by decide
      rw [hnil, hten] at hlength
      simp at hlength
    · rw [resolved_name, if_neg hnil] at hlength
      simp only [List.length_append, List.length_cons, List.length_nil] at hlength
      omega
  · rw [resolved_name, if_neg (by simp)] at hsame
    rcases hsame with h | ⟨c, -, h | h⟩
    · simpa using congrArg List.length h
    · simpa using congrArg List.length h
    · -- a separator has been added to `q ++ [e]`
      rw [List.append_assoc, List.append_cancel_left_eq, List.singleton_append,
        List.cons.injEq] at h
      exact he h.1.symm

/-! ## Following a redirect -/

/-- A GET request for a path. -/
structure Requests (url : List u8) (req : http_request_t) : Prop where
  get : req.method = http_method_t.HTTP_GET.num
  bytes : req.path_bytes = url
  length : path_len req = url.length

/-- The response is a 301 to `location`. -/
def RedirectsTo (location : List u8) (r : serve_result σ) : Prop :=
  r.rc = 0 ∧ build_http_redirect_response location HTTP_SEND_BUFFER_SIZE = some r.out

/-- A request for `location` leads to the path that a request for `url` is resolved to,
and no further. -/
structure LeadsTo (document_root : List u8) (fs : FileSystem σ) (url location : List u8) :
    Prop where
  length_checked : 0 < location.length ∧ location.length < MAX_PATH
  resolved : (resolve_file_path document_root location 260).1 = 0
  same : SamePath (cstr (resolve_file_path document_root url 260).2)
    (cstr (resolve_file_path document_root location 260).2)
  not_redirected : ∀ (ctx : stream_state_t) (req : http_request_t) (s : σ) (next : List u8),
    Requests location req → ¬ RedirectsTo next
      (serve_http_request document_root fs ctx req HTTP_SEND_BUFFER_SIZE s)

/-- Where the appended slash does no harm. -/
def SlashHarmless (document_root url : List u8) : Prop :=
  url.length + 1 < MAX_PATH ∧ (0 ∈ decoded url ∨ (open_escape url = false ∧ decoded url ≠ ascii "/"
    ∧ (full_path_text document_root (clean_url_path url)).length + 1 < MAX_PATH))

theorem redirects_of_redirectsTo {document_root : List u8} {fs : FileSystem σ}
    {ctx : stream_state_t} {req : http_request_t} {s : σ} {location : List u8}
    (h : RedirectsTo location
      (serve_http_request document_root fs ctx req HTTP_SEND_BUFFER_SIZE s)) :
    Redirects document_root fs req s := by
  obtain ⟨hrc, hout⟩ := h
  have hstatus := redirect_status hout
  have hserved := serve_http_request_served document_root fs ctx req s
  generalize serve_http_request document_root fs ctx req HTTP_SEND_BUFFER_SIZE s = r
    at hserved hrc hstatus
  cases hserved with
  | error hcode hmessage herror => exact absurd hstatus (error_status hcode herror)
  | redirect h hout => exact h
  | listing h hopen hout => exact absurd hrc (by simp)
  | file h hr =>
      cases hr with
      | error herror => exact absurd hstatus (error_status (by decide) herror)
      | opened hopen hsize hvalid hpeek hout => exact absurd hrc (by simp)

/-- A request whose path ends in a slash is never redirected. -/
theorem slash_not_redirected {document_root : List u8} {fs : FileSystem σ}
    {ctx : stream_state_t} {req : http_request_t} {s : σ} {url location : List u8}
    (hreq : Requests (url ++ ascii "/") req) :
    ¬ RedirectsTo location
      (serve_http_request document_root fs ctx req HTTP_SEND_BUFFER_SIZE s) := by
  intro h
  have hone : (ascii "/").length = 1 := by decide
  have hlast : last_byte req = chr '/' := by
    rw [last_byte, hreq.bytes, hreq.length, List.length_append, hone, Int.toNat_natCast,
      Nat.add_sub_cancel, List.getD_append_right _ _ _ _ (le_refl _), Nat.sub_self]
    decide
  exact (redirects_of_redirectsTo h).no_slash hlast

/-- The location a redirect names is the path with the slash. -/
theorem redirect_location {document_root : List u8} {fs : FileSystem σ} {ctx : stream_state_t}
    {req : http_request_t} {s : σ} {url location : List u8} (h0 : 0 ∉ url)
    (hreq : Requests url req) (h : RedirectsTo location
      (serve_http_request document_root fs ctx req HTTP_SEND_BUFFER_SIZE s)) :
    cstr location = url ++ ascii "/" := by
  have hredirects := redirects_of_redirectsTo h
  have hmax : MAX_PATH = 260 := rfl
  have hone : (ascii "/").length = 1 := by decide
  have hshort := path_bytes_length_lt hredirects.toResolves
  rw [hreq.bytes, cstr_of_no_nul h0] at hshort
  have htext : cstr (location_text url) = url ++ ascii "/" := by
    rw [location_text, cstr_of_no_nul h0, wsprintf_of_lt (by rw [List.length_append]; omega),
      cstr_append h0]
    rfl
  have hout := h.2
  rw [serve_http_request_redirects hredirects, hreq.bytes, build_http_redirect_response_eq
    (location_text url), inline_response] at hout
  have hlen : (cstr (location_text url)).length < 512 := by
    rw [htext, List.length_append]
    omega
  have hsame := location_of_redirect hlen
    (hout.trans (build_http_redirect_response_eq (location_text url)).symm)
  rw [hsame, htext]

/-- The text of a resolved path. -/
theorem resolved_text {document_root url : List u8}
    (h : (resolve_file_path document_root url 260).1 = 0) :
    cstr (resolve_file_path document_root url 260).2
      = full_path_text document_root (clean_url_path url) :=
  resolve_file_path_text (by decide) h

/-- The last byte added to a safe path does not make it unsafe. -/
theorem is_safe_path_append_slash {clean : List u8} (h0 : 0 ∉ clean) (hne : clean ≠ [])
    (h : is_safe_path clean = true) : is_safe_path (clean ++ ascii "/") = true := by
  have hslash0 : 0 ∉ clean ++ ascii "/" := by
    rw [List.mem_append, not_or]
    exact ⟨h0, by decide⟩
  obtain ⟨hdots, habsolute, hinvalid⟩ := (is_safe_path_iff h0).mp h
  refine (is_safe_path_iff hslash0).mpr ⟨?_, ?_, ?_⟩
  · have hsplit := has_dot_dot_slash clean []
    rw [hdots] at hsplit
    exact hsplit
  · cases clean with
    | nil => exact absurd rfl hne
    | cons c p =>
        cases p with
        | nil =>
            -- the slash is now the second byte, where a drive has its colon
            rintro (hback | ⟨hcolon, -⟩)
            · exact habsolute (Or.inl hback)
            · have hsecond : ([c] ++ ascii "/").getD 1 0 = chr '/' := rfl
              rw [hsecond] at hcolon
              exact absurd hcolon (by decide)
        | cons d p => exact habsolute
  · intro c hc
    rcases List.mem_append.mp hc with hc | hc
    · exact hinvalid c hc
    · rw [List.mem_singleton.mp hc]
      unfold is_invalid
      decide

/-- A path that resolves is shorter than the buffer it is resolved into. -/
theorem text_length_lt {document_root url : List u8}
    (h : (resolve_file_path document_root url 260).1 = 0) :
    (full_path_text document_root (clean_url_path url)).length < MAX_PATH := by
  obtain ⟨-, -, hlen⟩ := (resolve_file_path_eq_zero_iff _ _ _).mp h
  rw [toInt32_of_lt (by decide), wsprintf, List.length_take] at hlen
  have hsize : ((260 : u32).toNat : ℤ) = 260 := rfl
  have hmax : MAX_PATH = 260 := rfl
  omega

section

variable {document_root url : List u8}

/-- One byte more, when nothing is in the way. -/
theorem leads_append_slash (h0 : 0 ∉ url) (hlen : url.length + 1 < MAX_PATH) (hne : url ≠ [])
    (hnul : 0 ∉ decoded url) (hopen : open_escape url = false) (hslash : decoded url ≠ ascii "/")
    (hresolved : (resolve_file_path document_root url 260).1 = 0) :
    ((resolve_file_path document_root (url ++ ascii "/") 260).1 = 0
        ↔ (full_path_text document_root (clean_url_path url)).length + 1 < MAX_PATH)
      ∧ SamePath (full_path_text document_root (clean_url_path url))
        (full_path_text document_root (clean_url_path (url ++ ascii "/"))) := by
  obtain ⟨hclean, happend⟩ := clean_append_slash h0 hlen hne hnul hopen hslash
  have hone : (ascii "/").length = 1 := by decide
  have hclean0 : 0 ∉ clean_url_path url := cstr_no_nul _
  have hsafe := ((resolve_file_path_eq_zero_iff _ _ _).mp hresolved).2.1
  -- the slash goes to the end of the resolved text, so only its length can refuse it
  have htext : full_path_text document_root (clean_url_path (url ++ ascii "/"))
      = full_path_text document_root (clean_url_path url) ++ ascii "/" := by
    rw [happend, full_path_text, full_path_text, if_neg hclean,
      if_neg (List.append_ne_nil_of_left_ne_nil hclean _), List.append_assoc, List.cons_append]
  have hlength : (full_path_text document_root (clean_url_path (url ++ ascii "/"))).length
      = (full_path_text document_root (clean_url_path url)).length + 1 := by
    rw [htext, List.length_append, hone]
  refine ⟨⟨fun h => ?_, fun h => ?_⟩, ?_⟩
  · rw [← hlength]
    exact text_length_lt h
  · apply resolve_file_path_of_fits
    · rw [happend]
      exact is_safe_path_append_slash hclean0 hclean hsafe
    · rw [hlength]
      exact h
  · rw [htext]
    exact Or.inr ⟨chr '/', by decide, Or.inl rfl⟩

/-- **A redirect leads where it was issued for** exactly where the slash does no harm. -/
theorem leads_iff (fs : FileSystem σ) (h0 : 0 ∉ url) (hne : url ≠ [])
    (hresolved : (resolve_file_path document_root url 260).1 = 0) :
    LeadsTo document_root fs url (url ++ ascii "/") ↔ SlashHarmless document_root url := by
  have hone : (ascii "/").length = 1 := by decide
  have hlength : (url ++ ascii "/").length = url.length + 1 := by
    rw [List.length_append, hone]
  -- what is to be shown once the second path has passed the length check
  have hleads : url.length + 1 < MAX_PATH →
      (LeadsTo document_root fs url (url ++ ascii "/")
        ↔ (resolve_file_path document_root (url ++ ascii "/") 260).1 = 0
          ∧ SamePath (full_path_text document_root (clean_url_path url))
            (full_path_text document_root (clean_url_path (url ++ ascii "/")))) := by
    intro hlen
    constructor
    · intro h
      have hsame := h.same
      rw [resolved_text hresolved, resolved_text h.resolved] at hsame
      exact ⟨h.resolved, hsame⟩
    · rintro ⟨hresolved', hsame⟩
      refine ⟨⟨by omega, by omega⟩, hresolved', ?_, fun ctx req s next hreq => ?_⟩
      · rw [resolved_text hresolved, resolved_text hresolved']
        exact hsame
      · exact slash_not_redirected hreq
  by_cases hlen : url.length + 1 < MAX_PATH
  · rw [hleads hlen, SlashHarmless, and_iff_right hlen]
    by_cases hnul : 0 ∈ decoded url
    · have hclean := clean_of_nul h0 hlen hnul
      refine iff_of_true ⟨?_, ?_⟩ (Or.inl hnul)
      · rw [resolve_file_path_eq_zero_iff, hclean, ← resolve_file_path_eq_zero_iff]
        exact hresolved
      · rw [hclean]
        exact Or.inl rfl
    · rw [or_iff_right hnul]
      cases hopen : open_escape url with
      | true =>
          obtain ⟨q, x, e, hclean, he, hclean'⟩ := clean_open_escape h0 hlen hnul hopen
          refine iff_of_false (fun h => ?_) (fun h => absurd h.1 (by decide))
          have hsame := (samePath_text_iff _ _ _).mp h.2
          rw [hclean] at hsame
          exact not_samePath_open_escape he hclean' hsame
      | false =>
          by_cases hslash : decoded url = ascii "/"
          · obtain ⟨hclean, hclean'⟩ := clean_lone_slash h0 hlen hslash hopen
            refine iff_of_false (fun h => ?_) (fun h => h.2.1 hslash)
            have hsame := (samePath_text_iff _ _ _).mp h.2
            rw [hclean, hclean'] at hsame
            exact absurd hsame.length (by decide)
          · obtain ⟨hfits, hsame⟩ :=
              leads_append_slash h0 hlen hne hnul hopen hslash hresolved
            rw [hfits, and_iff_left hsame]
            exact ⟨fun h => ⟨rfl, hslash, h⟩, fun h => h.2.2⟩
  · refine iff_of_false (fun h => hlen ?_) (fun h => hlen h.1)
    have hchecked := h.length_checked.2
    omega

end

/-- **A redirect leads to the directory it was issued for** exactly where the slash does
no harm; the location it names is the path with the slash. The path of the index page is taken to
fit its array on the request for that location; `DirectoryBuffers.directory_writes_fit_iff` says
where it does. -/
theorem redirect_leads_iff {document_root : List u8} {fs : FileSystem σ} {ctx : stream_state_t}
    {req : http_request_t} {s : σ} {url location : List u8} (h0 : 0 ∉ url)
    (hreq : Requests url req) (hredirect : RedirectsTo location
      (serve_http_request document_root fs ctx req HTTP_SEND_BUFFER_SIZE s)) :
    cstr location = url ++ ascii "/"
      ∧ (LeadsTo document_root fs url (cstr location) ↔ SlashHarmless document_root url) := by
  have hredirects := redirects_of_redirectsTo hredirect
  have hlocation := redirect_location h0 hreq hredirect
  have hresolved := hredirects.resolved
  have hnonempty := hredirects.nonempty
  rw [hreq.bytes] at hresolved
  rw [hreq.length] at hnonempty
  refine ⟨hlocation, ?_⟩
  rw [hlocation]
  exact leads_iff fs h0 (List.length_pos_iff.mp (by omega)) hresolved

/-- Two directories, one with a name that ends like the beginning of an escape. -/
def two_directories : FileSystem handles_t :=
  disk [(ascii "C:\\www\\a", .directory []), (ascii "C:\\www\\a%2", .directory [])]

instance (document_root url : List u8) : Decidable (SlashHarmless document_root url) := by
  unfold SlashHarmless
  infer_instance

instance (location : List u8) (r : serve_result σ) : Decidable (RedirectsTo location r) := by
  unfold RedirectsTo
  infer_instance

theorem redirect_leads_iff_directory_a :
    LeadsTo (ascii "C:\\www") two_directories (ascii "/a") (cstr (ascii "/a/")) :=
  have hreq : Requests (ascii "/a")
      ⟨1, ⟨17, 21⟩, ⟨4, 6⟩, ascii "GET /a HTTP/1.0\r\nA: b\r\n\r\n"⟩ :=
    ⟨by decide, by decide, by decide⟩
  have hredirect : RedirectsTo (ascii "/a/") (serve_http_request (ascii "C:\\www")
      two_directories initial_stream
      ⟨1, ⟨17, 21⟩, ⟨4, 6⟩, ascii "GET /a HTTP/1.0\r\nA: b\r\n\r\n"⟩ HTTP_SEND_BUFFER_SIZE []) := by
    decide +kernel
  (redirect_leads_iff (by decide) hreq hredirect).2.mpr (by decide)

/-- The directory `a%2` is redirected to `a `: the slash completes the escape. -/
theorem redirect_to_another_name :
    ∃ req, Requests (ascii "/a%2") req
      ∧ RedirectsTo (ascii "/a%2/") (serve_http_request (ascii "C:\\www") two_directories
          initial_stream req HTTP_SEND_BUFFER_SIZE [])
      ∧ cstr (resolve_file_path (ascii "C:\\www") (ascii "/a%2") 260).2 = ascii "C:\\www\\a%2"
      ∧ cstr (resolve_file_path (ascii "C:\\www") (ascii "/a%2/") 260).2 = ascii "C:\\www\\a "
      ∧ ¬ LeadsTo (ascii "C:\\www") two_directories (ascii "/a%2") (ascii "/a%2/") := by
  refine ⟨⟨1, ⟨19, 23⟩, ⟨4, 8⟩, ascii "GET /a%2 HTTP/1.0\r\nA: b\r\n\r\n"⟩,
    ⟨by decide, by decide, by decide⟩, by decide +kernel, by decide, by decide, fun h => ?_⟩
  have hharmless : SlashHarmless (ascii "C:\\www") (ascii "/a%2") :=
    (leads_iff two_directories (by decide) (by decide) (by decide)).mp h
  exact absurd hharmless (by decide)

end W32HttpServer.Redirect

/-
Which tokens `parse_method` takes for a method, and which requests are refused for theirs.

The comparison is limited to the length of the client's token, so it is the token that has to
be a beginning of the name and not the other way round: the empty token is GET, and P is POST
(`strnicmp_iff`). A NUL in the token ends both strings. A token that no entry matches leaves
the local `method` as it was, and the result is `HTTP_UNKNOWN` only if the local held that
value. `only_get_is_get_iff` puts the three together.

The refusal itself is exact: status 405 is the answer to a request whose method is not
`HTTP_GET`, and to no other (`not_allowed_iff`).
-/
import W32HttpServer.Common
import W32HttpServer.HttpRequest
import W32HttpServer.RequestText
import W32HttpServer.HttpResponse
import W32HttpServer.Platform
import W32HttpServer.Context
import W32HttpServer.Serve
import W32HttpServer.Reflection

set_option autoImplicit false

namespace W32HttpServer.MethodToken

open W32HttpServer.Common W32HttpServer.HttpRequest W32HttpServer.RequestText
open W32HttpServer.HttpResponse W32HttpServer.Platform W32HttpServer.Context
open W32HttpServer.Serve W32HttpServer.Reflection W32HttpServer.Lib.Scan

/-! ## The comparison -/

/-- Equal up to the case of ASCII letters. -/
def SameName (token name : List u8) : Prop := token.map tolower = name.map tolower

instance (token name : List u8) : Decidable (SameName token name) :=
  inferInstanceAs (Decidable (token.map tolower = name.map tolower))

theorem tolower_eq_zero {c : u8} : tolower c = 0 ↔ c = 0 :=
  tolower_eq_iff (by decide) (by decide)

/-- The entry's name starts with the token, or both end at the token's NUL. -/
def Matches (token name : List u8) : Prop :=
  (0 ∉ token ∧ token.map tolower <+: name.map tolower)
    ∨ (0 ∈ token ∧ SameName (cstr token) name)

/-- A NUL in front ends the token. -/
theorem matches_nul {token name : List u8} : Matches (0 :: token) name ↔ name = [] := by
  unfold Matches SameName
  rw [cstr_zero_cons, List.map_nil, eq_comm (a := []), List.map_eq_nil_iff]
  simp

theorem matches_cons {c d : u8} (hc : c ≠ 0) {token name : List u8} :
    Matches (c :: token) (d :: name) ↔ tolower d = tolower c ∧ Matches token name := by
  unfold Matches SameName
  rw [cstr_cons_of_ne hc]
  simp only [List.mem_cons, not_or, List.map_cons, List.cons_prefix_cons, List.cons.injEq]
  rw [eq_comm (a := tolower d)]
  have hne : ¬ 0 = c := Ne.symm hc
  tauto

theorem not_matches_nil {c : u8} (hc : c ≠ 0) {token : List u8} : ¬ Matches (c :: token) [] := by
  unfold Matches SameName
  rw [cstr_cons_of_ne hc]
  simp

/-- What the limited comparison accepts. -/
theorem strnicmp_iff {token : List u8} (rest : List u8) : ∀ {name : List u8}, 0 ∉ name →
    (strnicmp name (token ++ rest) token.length = true ↔ Matches token name) := by
  induction token with
  | nil =>
      intro name _
      have hall : strnicmp name rest 0 = true := by cases name <;> rfl
      exact iff_of_true hall (Or.inl ⟨by simp, List.nil_prefix⟩)
  | cons c token ih =>
      intro name hname
      have hzero : tolower 0 = 0 := tolower_eq_zero.mpr rfl
      rw [List.length_cons, List.cons_append, strnicmp, List.headD_cons, List.tail_cons]
      cases name with
      | nil =>
          -- the name has ended: the token has to end with it
          rw [List.headD_nil, hzero]
          by_cases hc : c = 0
          · subst hc
            rw [if_pos hzero.symm, if_pos rfl]
            exact iff_of_true rfl (matches_nul.mpr rfl)
          · rw [if_neg (fun h => hc (tolower_eq_zero.mp h.symm))]
            exact iff_of_false (by simp) (not_matches_nil hc)
      | cons d name =>
          rw [List.mem_cons, not_or] at hname
          have hd : d ≠ 0 := Ne.symm hname.1
          rw [List.headD_cons, List.tail_cons, if_neg hd]
          by_cases hc : c = 0
          · subst hc
            rw [hzero, if_neg (fun h => hd (tolower_eq_zero.mp h))]
            exact iff_of_false (by simp) (fun h => absurd (matches_nul.mp h) (by simp))
          · rw [matches_cons hc, ← ih hname.2]
            by_cases heq : tolower d = tolower c
            · rw [if_pos heq, and_iff_right heq]
            · rw [if_neg heq]
              exact iff_of_false (by simp) (fun h => heq h.1)

/-! ## The method of a payload -/

/-- The bytes in front of the first space. -/
def token (payload : List u8) : List u8 := payload.takeWhile (· ≠ chr ' ')

/-- Some name of the table. -/
def IsName (t : List u8) : Prop := ∃ e ∈ method_map, SameName t e.1

/-- The comparison stops at no entry. -/
def Unmatched (t : List u8) : Prop := ∀ e ∈ method_map, ¬ Matches t e.1

theorem find_method_eq_none_iff {t : List u8} (rest : List u8) :
    find_method (t ++ rest) t.length = none ↔ Unmatched t := by
  have hnames : ∀ e ∈ method_map, 0 ∉ e.1 := by decide
  rw [find_method, List.find?_eq_none]
  exact forall₂_congr fun e he => not_congr (strnicmp_iff rest (hnames e he))

/-- The names of the table differ in more than their case. -/
theorem name_unique {t : List u8} {e e' : List u8 × http_method_t} (he : e ∈ method_map)
    (he' : e' ∈ method_map) (h : SameName t e.1) (h' : SameName t e'.1) : e = e' := by
  have hunique : ∀ e ∈ method_map, ∀ e' ∈ method_map,
      e.1.map tolower = e'.1.map tolower → e = e' := by decide
  exact hunique e he e' he' (h.symm.trans h')

/-- And so do the numbers. -/
theorem num_unique {e e' : List u8 × http_method_t} (he : e ∈ method_map) (he' : e' ∈ method_map)
    (h : e.2.num = e'.2.num) : e = e' := by
  have hunique : ∀ e ∈ method_map, ∀ e' ∈ method_map, e.2.num = e'.2.num → e = e' := by decide
  exact hunique e he e' he' h

/-- `parse_method` reports the names of the table as what they are, and nothing else as one
of them. -/
structure Names (t : List u8) (method : u32) : Prop where
  named : ∀ e ∈ method_map, method = e.2.num ↔ SameName t e.1
  unknown : ¬ IsName t → method = http_method_t.HTTP_UNKNOWN.num

/-- A token in front of a space, cut off. -/
theorem token_cut {payload : List u8} (h : chr ' ' ∈ payload) :
    ∃ rest, payload = token payload ++ chr ' ' :: rest ∧ chr ' ' ∉ token payload := by
  obtain ⟨x, y, rfl, hx⟩ := List.eq_append_cons_of_mem h
  have hx' : ∀ b ∈ x, decide (b ≠ chr ' ') = true := by
    intro b hb
    simpa using fun hbe : b = chr ' ' => hx (hbe ▸ hb)
  have htoken : token (x ++ chr ' ' :: y) = x := by
    rw [token, List.takeWhile_append_of_pos hx']
    simp
  rw [htoken]
  exact ⟨y, rfl, hx⟩

/-- What `parse_method` reports of a payload with a space in it. -/
theorem parse_method_token {payload : List u8} (h : chr ' ' ∈ payload) (indeterminate : u32) :
    parse_method (payload ++ [0]) indeterminate
      = some ((match find_method payload (token payload).length with
        | some e => e.2.num
        | none => indeterminate), (token payload).length + 1) := by
  obtain ⟨rest, hcut, hnospace⟩ := token_cut h
  have hscan : scanFrom (Probe.headIs (· == chr ' ')) payload 0
      = some (token payload).length := by
    have hs := scanFrom_headIs [] (no_probe hnospace) (beq_self_eq_true (chr ' ')) rest
    rwa [List.nil_append, ← hcut, List.length_nil, Nat.zero_add] at hs
  have hparse := parse_method_eq payload indeterminate
  rw [hscan, Option.map_some] at hparse
  exact hparse

/-- A name is found as what it is, and any other token is named right only by luck. -/
theorem names_iff {payload : List u8} (h : chr ' ' ∈ payload) (indeterminate : u32) :
    Names (token payload) (match find_method payload (token payload).length with
        | some e => e.2.num
        | none => indeterminate)
      ↔ IsName (token payload) ∨ (Unmatched (token payload) ∧ indeterminate = 0) := by
  obtain ⟨rest, hcut, -⟩ := token_cut h
  set t := token payload with ht
  rw [hcut]
  by_cases hname : IsName t
  · obtain ⟨e, he, hsame⟩ := hname
    rw [find_method_name he hsame]
    refine iff_of_true ⟨fun e' he' => ?_, fun hno => absurd ⟨e, he, hsame⟩ hno⟩
      (Or.inl ⟨e, he, hsame⟩)
    constructor
    · intro hnum
      rw [← num_unique he he' hnum]
      exact hsame
    · intro hsame'
      rw [name_unique he he' hsame hsame']
  rw [or_iff_right hname]
  rcases hfind : find_method (t ++ chr ' ' :: rest) t.length with _ | e
  · have hunmatched := (find_method_eq_none_iff _).mp hfind
    constructor
    · exact fun hnames => ⟨hunmatched, hnames.unknown hname⟩
    · rintro ⟨-, rfl⟩
      have hnum : ∀ e ∈ method_map, (0 : u32) ≠ e.2.num := by decide
      refine ⟨fun e he => iff_of_false (hnum e he) (fun hsame => hname ⟨e, he, hsame⟩),
        fun _ => rfl⟩
  · -- the entry the comparison stopped at is reported for a token that is not its name
    have he : e ∈ method_map := List.mem_of_find?_eq_some hfind
    refine iff_of_false (fun hnames => hname ⟨e, he, (hnames.named e he).mp rfl⟩) ?_
    rintro ⟨hunmatched, -⟩
    rw [(find_method_eq_none_iff _).mpr hunmatched] at hfind
    exact absurd hfind (by simp)

/-! ## The refusal -/

variable {σ : Type}

/-- The three digits of the status line. -/
def status (out : List u8) : List u8 := slice out 9 12

/-- The response that refuses a method. -/
def NotAllowed (out : List u8) : Prop := status out = ascii "405"

theorem status_eq (out : List u8) : status out = (out.take 12).drop 9 := by
  rw [status, slice, List.drop_take]

/-- The status is in the first part of a head. -/
theorem status_wsprintf {p : List u8} (hp : 12 ≤ p.length) (q : List u8) :
    status (wsprintf (p ++ q)) = status p := by
  have hmin : min 12 1023 = 12 := rfl
  rw [status_eq, status_eq, wsprintf, List.take_take, hmin, List.take_append_of_le_length hp]

/-- An error response shows its code. -/
theorem status_error {code : ℤ} (hcode : code ∈ ([400, 403, 404, 405, 500] : List ℤ))
    {message out : List u8}
    (h : build_http_error_response code message HTTP_SEND_BUFFER_SIZE = some out) :
    status out = fmt_d code := by
  have hout := (format_into_bounds h).1
  rw [hout]
  simp only [List.append_assoc]
  rw [← List.append_assoc (ascii "HTTP/1.0 ")]
  have hcodes : ∀ code ∈ ([400, 403, 404, 405, 500] : List ℤ),
      12 ≤ (ascii "HTTP/1.0 " ++ fmt_d code).length
        ∧ status (ascii "HTTP/1.0 " ++ fmt_d code) = fmt_d code := by decide
  rw [status_wsprintf (hcodes code hcode).1, (hcodes code hcode).2]

theorem not_allowed_error_iff {code : ℤ} (hcode : code ∈ ([400, 403, 404, 405, 500] : List ℤ))
    {message out : List u8}
    (h : build_http_error_response code message HTTP_SEND_BUFFER_SIZE = some out) :
    NotAllowed out ↔ code = 405 := by
  have hcodes : ∀ code ∈ ([400, 403, 404, 405, 500] : List ℤ),
      fmt_d code = ascii "405" ↔ code = 405 := by decide
  rw [NotAllowed, status_error hcode h, hcodes code hcode]

theorem file_allowed {mime_type out : List u8} {file_size : u32}
    (h : build_http_file_header mime_type file_size HTTP_SEND_BUFFER_SIZE = some out) :
    ¬ NotAllowed out := by
  obtain ⟨rfl, -, -⟩ := format_into_bounds h
  simp only [List.append_assoc]
  rw [NotAllowed, status_wsprintf (by decide)]
  decide

theorem listing_allowed {out : List u8}
    (h : build_http_listing_header HTTP_SEND_BUFFER_SIZE = some out) : ¬ NotAllowed out := by
  obtain ⟨rfl, -, -⟩ := format_into_bounds h
  rw [NotAllowed]
  decide

theorem redirect_allowed (location : List u8) :
    ¬ NotAllowed (wsprintf (redirect_text location)) := by
  rw [NotAllowed, redirect_text]
  simp only [List.append_assoc]
  rw [status_wsprintf (by decide)]
  decide

theorem serve_file_allowed (fs : FileSystem σ) (path : List u8) (ctx : stream_state_t) (s : σ) :
    ¬ NotAllowed (serve_file fs path HTTP_SEND_BUFFER_SIZE ctx s).out := by
  have hserved := serve_file_served fs path ctx s
  generalize serve_file fs path HTTP_SEND_BUFFER_SIZE ctx s = r at hserved
  cases hserved with
  | error hout => rw [not_allowed_error_iff (by decide) hout]; decide
  | opened hopen hsize hvalid hpeek hout => exact file_allowed hout

/-- An early return with an error code. -/
theorem inline_error_iff {code : ℤ} (hcode : code ∈ ([400, 403, 404, 405, 500] : List ℤ))
    (message : List u8) (ctx : stream_state_t) (s : σ) :
    NotAllowed (inline_response (build_http_error_response code message HTTP_SEND_BUFFER_SIZE)
      ctx s).out ↔ code = 405 := by
  rcases hout : build_http_error_response code message HTTP_SEND_BUFFER_SIZE with _ | out
  · rw [build_http_error_response, format_into_of_limit _ (by decide)] at hout
    exact absurd hout (by simp)
  · exact not_allowed_error_iff hcode hout

theorem serve_directory_allowed (fs : FileSystem σ) (url_path full_path : List u8) (path_len : ℕ)
    (ctx : stream_state_t) (s : σ) :
    ¬ NotAllowed
      (serve_directory fs url_path full_path path_len HTTP_SEND_BUFFER_SIZE ctx s).out := by
  rw [serve_directory]
  by_cases hslash : url_path.getD (path_len - 1) 0 ≠ chr '/'
  · rw [if_pos hslash, build_http_redirect_response_eq]
    apply redirect_allowed
  rw [if_neg hslash]
  rcases fs.GetFileAttributes s (index_path full_path) with ⟨index_attributes, s1⟩
  dsimp only
  by_cases hindex : index_attributes ≠ INVALID_FILE_ATTRIBUTES
  · rw [if_pos hindex]
    exact serve_file_allowed fs _ _ _
  rw [if_neg hindex]
  by_cases hfits : (pattern full_path).length ≥ MAX_PATH
  · rw [if_pos hfits, inline_error_iff (by decide)]
    decide
  rw [if_neg hfits]
  rcases DirStream.open_listing fs ctx url_path (pattern full_path) s1 with ⟨ctx', s2⟩
  dsimp only
  rw [build_http_listing_header, format_into_of_limit _ (by decide)]
  exact listing_allowed (format_into_of_limit _ (by decide))

/-- **The refusal is exact.** -/
theorem not_allowed_iff (document_root : List u8) (fs : FileSystem σ) (ctx : stream_state_t)
    (req : http_request_t) (s : σ) :
    NotAllowed (serve_http_request document_root fs ctx req HTTP_SEND_BUFFER_SIZE s).out
      ↔ req.method ≠ http_method_t.HTTP_GET.num := by
  rw [serve_http_request, if_neg (by decide)]
  by_cases hget : req.method ≠ http_method_t.HTTP_GET.num
  · rw [if_pos hget, inline_error_iff (by decide)]
    exact iff_of_true rfl hget
  refine iff_of_false ?_ hget
  rw [if_neg hget]
  dsimp only
  split_ifs with hlen hres hvalid hdir
  · rw [inline_error_iff (by decide)]
    decide
  · rw [inline_error_iff (by decide)]
    decide
  · rw [inline_error_iff (by decide)]
    decide
  · exact serve_directory_allowed fs _ _ _ _ _
  · exact serve_file_allowed fs _ _ _

/-! ## Only GET is GET -/

/-- The method `method` reported for the token `t` is the one it names, and a request is
served exactly when that is GET. -/
structure OnlyGet (t : List u8) (method : u32) : Prop extends Names t method where
  refused : ∀ (σ : Type) (document_root : List u8) (fs : FileSystem σ) (ctx : stream_state_t)
    (req : http_request_t) (s : σ), req.method = method →
    (NotAllowed (serve_http_request document_root fs ctx req HTTP_SEND_BUFFER_SIZE s).out
      ↔ ¬ SameName t (ascii "GET"))

/-- The refusal follows from the method. -/
theorem only_get_iff {t : List u8} {method : u32} : OnlyGet t method ↔ Names t method := by
  refine ⟨OnlyGet.toNames, fun hnames => ⟨hnames, ?_⟩⟩
  rintro σ document_root fs ctx req s rfl
  rw [not_allowed_iff]
  exact not_congr (hnames.named (ascii "GET", .HTTP_GET) (by decide))

/-- **Only GET is GET** exactly for the tokens that are a name of the table, and, when the
uninitialised local is zero, for those no entry matches. -/
theorem only_get_is_get_iff {payload : List u8} (h : chr ' ' ∈ payload) (indeterminate : u32) :
    (∃ method next, parse_method (payload ++ [0]) indeterminate = some (method, next)
        ∧ OnlyGet (token payload) method)
      ↔ IsName (token payload) ∨ (Unmatched (token payload) ∧ indeterminate = 0) := by
  rw [← names_iff h, parse_method_token h]
  constructor
  · rintro ⟨method, next, heq, honly⟩
    obtain ⟨rfl, -⟩ := Prod.mk.inj (Option.some.inj heq)
    exact honly.toNames
  · intro hnames
    exact ⟨_, _, rfl, only_get_iff.mpr hnames⟩

/-- A mixed-case PATCH, with the local at 9. -/
theorem only_get_is_get_patch :
    ∃ method next, parse_method (ascii "pAtCh /a HTTP/1.0" ++ [0]) 9 = some (method, next)
      ∧ OnlyGet (token (ascii "pAtCh /a HTTP/1.0")) method := by
  refine (only_get_is_get_iff (by decide) 9).mpr (Or.inl ?_)
  exact ⟨(ascii "PATCH", .HTTP_PATCH), by decide, by decide⟩

/-- The token G is taken for GET. -/
theorem not_only_get_is_get :
    ¬ ∀ (payload : List u8) (indeterminate : u32), chr ' ' ∈ payload →
      ∃ method next, parse_method (payload ++ [0]) indeterminate = some (method, next)
        ∧ OnlyGet (token payload) method := by
  intro h
  obtain ⟨method, next, heq, honly⟩ := h (ascii "G / HTTP/1.0\r\n\r\n") 0 (by decide)
  have hget : parse_method (ascii "G / HTTP/1.0\r\n\r\n" ++ [0]) 0 = some (1, 2) := by decide
  rw [hget] at heq
  obtain ⟨rfl, -⟩ := Prod.mk.inj (Option.some.inj heq)
  have hnamed := (honly.named (ascii "GET", .HTTP_GET) (by decide)).mp rfl
  exact absurd hnamed (by decide)

end W32HttpServer.MethodToken

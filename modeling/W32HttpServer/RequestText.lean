/-
What the parser reports of a request as a client writes it.

`render` is that text: a request line, a list of header lines, the empty line and a body.
The four scans of the parser stop where the parts of the text meet (`parse_http_request_render`),
whatever the body holds: the header search has found its terminator before it gets there.

The path and the header are found by scans that know nothing of each other. Whether the
slices come out in order is a fact about the payload: the path ends on the first line only
when the first two spaces stand there (`slices_ordered_iff`). A request line without a
version has one space, and the second is taken from a header.
-/
import W32HttpServer.Common
import W32HttpServer.HttpRequest
import W32HttpServer.Lib.Scan

set_option autoImplicit false

namespace W32HttpServer.RequestText

open W32HttpServer.Common W32HttpServer.HttpRequest W32HttpServer.Lib.Scan

/-! ## The method -/

/-- The comparison does not see the case of the token. -/
theorem strnicmp_congr (n : ℕ) : ∀ (s : List u8) {m m' : List u8},
    m.map tolower = m'.map tolower → strnicmp s m n = strnicmp s m' n := by
  induction n with
  | zero => exact fun s _ _ _ => by cases s <;> rfl
  | succ n ih =>
      intro s m m' h
      have hhead : tolower (m.headD 0) = tolower (m'.headD 0) := by
        have hh := congrArg (fun l => List.headD l (tolower 0)) h
        cases m <;> cases m' <;> simp_all
      have htail : m.tail.map tolower = m'.tail.map tolower := by
        rw [List.map_tail, List.map_tail, h]
      rw [strnicmp, strnicmp, hhead, ih s.tail htail]

theorem find_method_congr {m m' : List u8} (h : m.map tolower = m'.map tolower) (n : ℕ) :
    find_method m n = find_method m' n := by
  simp only [find_method, strnicmp_congr n _ h]

/-- A name of the table is found, in any case and whatever stands behind it. -/
theorem find_method_name {e : List u8 × http_method_t} (he : e ∈ method_map) {m : List u8}
    (hm : m.map tolower = e.1.map tolower) (t : List u8) :
    find_method (m ++ t) m.length = some e := by
  have hlen : m.length = e.1.length := by
    rw [← List.length_map tolower, hm, List.length_map]
  have hself : ∀ e ∈ method_map, find_method e.1 e.1.length = some e := by decide
  rw [find_method_append t (le_refl _), find_method_congr hm, hlen, hself e he]

/-- No name of the table has a space or a line end in it, in any case. -/
theorem not_mem_name {e : List u8 × http_method_t} (he : e ∈ method_map) {m : List u8}
    (hm : m.map tolower = e.1.map tolower) : chr ' ' ∉ m ∧ chr '\n' ∉ m := by
  have hnames : ∀ e ∈ method_map,
      tolower (chr ' ') ∉ e.1.map tolower ∧ tolower (chr '\n') ∉ e.1.map tolower := by decide
  have hno := hnames e he
  rw [← hm] at hno
  exact ⟨fun h => hno.1 (List.mem_map_of_mem h), fun h => hno.2 (List.mem_map_of_mem h)⟩

/-! ## The text of a request -/

def crlf : List u8 := ascii "\r\n"

def request_line (method path version : List u8) : List u8 :=
  method ++ chr ' ' :: (path ++ chr ' ' :: version)

def render (method path version : List u8) (lines : List (List u8)) (body : List u8) : List u8 :=
  request_line method path version ++ (crlf ++ (crlf.intercalate lines ++ (crlfcrlf ++ body)))

/-- A header line: something, and no line end. -/
structure HeaderLine (l : List u8) : Prop where
  ne_nil : l ≠ []
  no_cr : chr '\r' ∉ l
  no_lf : chr '\n' ∉ l

/-- The terminator does not start at a byte other than CR. -/
theorem terminator_read_false {c : u8} (hc : c ≠ chr '\r') {s : List u8} (hlen : 3 ≤ s.length) :
    (Probe.word crlfcrlf).read (c :: s) = some false := by
  refine Probe.word_read_false (Nat.succ_le_succ hlen) (fun h => hc ?_)
  exact (List.cons_prefix_cons.mp h).1.symm

/-- The terminator search runs past a line. -/
theorem terminator_scan_line {l : List u8} (hl : chr '\r' ∉ l) {s : List u8}
    (hlen : 3 ≤ s.length) (k : ℕ) :
    scan (Probe.word crlfcrlf) (l ++ s) k = scan (Probe.word crlfcrlf) s (k + l.length) :=
  scan_word_past (w := ascii "\n\r\n") hl hlen k

/-- And past the end of a line that another line follows. -/
theorem terminator_scan_crlf {c : u8} (hc : c ≠ chr '\r') {s : List u8} (hlen : 3 ≤ s.length)
    (k : ℕ) : scan (Probe.word crlfcrlf) (crlf ++ c :: s) k
      = scan (Probe.word crlfcrlf) (c :: s) (k + 2) := by
  have hcr : (Probe.word crlfcrlf).read (chr '\r' :: chr '\n' :: c :: s) = some false := by
    have hfour : 4 ≤ (chr '\r' :: chr '\n' :: c :: s).length := by
      simp only [List.length_cons]
      omega
    refine Probe.word_read_false hfour (fun h => hc ?_)
    obtain ⟨z, hz⟩ := h
    have hthird := congrArg (fun l => List.getD l 2 0) hz
    exact hthird.symm
  have hlf : (Probe.word crlfcrlf).read (chr '\n' :: c :: s) = some false :=
    terminator_read_false (by decide) (by rw [List.length_cons]; omega)
  show scan (Probe.word crlfcrlf) (chr '\r' :: chr '\n' :: c :: s) k = _
  rw [scan_of_false hcr, scan_of_false hlf]

/-- The terminator search stops behind the last header line. -/
theorem terminator_scan {lines : List (List u8)} (hlines : lines ≠ [])
    (hline : ∀ l ∈ lines, HeaderLine l) (body : List u8) : ∀ k : ℕ,
    scan (Probe.word crlfcrlf) (crlf.intercalate lines ++ (crlfcrlf ++ body)) k
      = some (k + (crlf.intercalate lines).length) := by
  induction lines with
  | nil => exact absurd rfl hlines
  | cons l lines ih =>
      intro k
      have hcr := (hline l List.mem_cons_self).no_cr
      have hend : 3 ≤ (crlfcrlf ++ body).length := by
        rw [List.length_append]
        exact Nat.le_add_right_of_le (by decide)
      cases lines with
      | nil =>
          rw [List.intercalate_singleton, terminator_scan_line hcr hend]
          exact scan_of_true (Probe.word_read_true.mpr (List.prefix_append _ _))
      | cons l2 lines =>
          -- the next line starts with a byte other than CR
          have hl2 := hline l2 (by simp)
          obtain ⟨c, s, hs⟩ := List.exists_cons_of_ne_nil hl2.ne_nil
          have hc : c ≠ chr '\r' := fun h => hl2.no_cr (by rw [hs, h]; exact List.mem_cons_self)
          have hnext : crlf.intercalate (l2 :: lines) = c :: crlf.intercalate (s :: lines) := by
            rw [hs, List.intercalate_cons_cons_left]
          have hrest := ih (by simp) (fun l hl => hline l (List.mem_cons_of_mem _ hl))
          have hlong : 3 ≤ (crlf.intercalate (s :: lines) ++ (crlfcrlf ++ body)).length := by
            rw [List.length_append]
            omega
          have hall :
              3 ≤ (crlf ++ (crlf.intercalate (l2 :: lines) ++ (crlfcrlf ++ body))).length := by
            simp only [List.length_append] at hend ⊢
            omega
          rw [List.intercalate_cons_cons, List.append_assoc, List.append_assoc,
            terminator_scan_line hcr hall, hnext, List.cons_append,
            terminator_scan_crlf hc hlong, ← List.cons_append, ← hnext, hrest]
          simp only [List.length_append]
          have hcrlf : crlf.length = 2 := rfl
          congr 1
          omega

/-! ## Parsing a rendered request -/

/-- The bytes of the header slice. -/
def header_bytes (req : http_request_t) : List u8 :=
  slice req.payload req.header.start req.header.end_

theorem no_probe {c : u8} {x : List u8} (hx : c ∉ x) : ∀ b ∈ x, (b == c) = false :=
  fun _ hb => beq_false_of_ne (fun h => hx (h ▸ hb))

theorem slice_append (u x v : List u8) :
    slice (u ++ (x ++ v)) u.length (u.length + x.length) = x := by
  rw [slice, List.drop_left, Nat.add_sub_cancel_left, List.take_left]

/-- Where the method and the path scan stop. -/
theorem space_scans {token path : List u8} (htoken : chr ' ' ∉ token) (hpath : chr ' ' ∉ path)
    (rest : List u8) :
    scanFrom (Probe.headIs (· == chr ' ')) (token ++ chr ' ' :: (path ++ chr ' ' :: rest)) 0
        = some token.length
      ∧ scanFrom (Probe.headIs (· == chr ' ')) (token ++ chr ' ' :: (path ++ chr ' ' :: rest))
          (token.length + 1) = some (token.length + 1 + path.length) := by
  constructor
  · have h := scanFrom_headIs [] (no_probe htoken) (beq_self_eq_true (chr ' '))
      (path ++ chr ' ' :: rest)
    rwa [List.nil_append, List.length_nil, Nat.zero_add] at h
  · have h := scanFrom_headIs (token ++ [chr ' ']) (no_probe hpath)
      (beq_self_eq_true (chr ' ')) rest
    rwa [List.append_assoc, List.singleton_append, List.length_append,
      List.length_singleton] at h

/-- What stands between the two scans. -/
theorem slice_path (token path rest : List u8) :
    slice (token ++ chr ' ' :: (path ++ chr ' ' :: rest)) (token.length + 1)
      (token.length + 1 + path.length) = path := by
  have h := slice_append (token ++ [chr ' ']) path (chr ' ' :: rest)
  rwa [List.append_assoc, List.singleton_append, List.length_append, List.length_singleton] at h

/-- Where the scan for the end of the request line stops. -/
theorem lf_scan {line : List u8} (hline : chr '\n' ∉ line) (rest : List u8) :
    scanFrom (Probe.headIs (· == chr '\n')) (line ++ chr '\n' :: rest) 0 = some line.length := by
  have h := scanFrom_headIs [] (no_probe hline) (beq_self_eq_true (chr '\n')) rest
  rwa [List.nil_append, List.length_nil, Nat.zero_add] at h

/-- **Parsing undoes rendering**, whatever the uninitialised local of `parse_method` holds. Each
slice is found by the scan for what stands behind it, and holds nothing the scan would stop at. -/
theorem parse_http_request_render {e : List u8 × http_method_t} (he : e ∈ method_map)
    {method : List u8} (hmethod : method.map tolower = e.1.map tolower)
    {path : List u8} (hspace : chr ' ' ∉ path) (hlf : chr '\n' ∉ path)
    {version : List u8} (hversion : chr '\n' ∉ version)
    {lines : List (List u8)} (hlines : lines ≠ []) (hline : ∀ l ∈ lines, HeaderLine l)
    (body : List u8) (indeterminate : u32) :
    ∃ req, parse_http_request (render method path version lines body) indeterminate = some req
      ∧ req.method = e.2.num
      ∧ req.path_bytes = path
      ∧ header_bytes req = crlf.intercalate lines
      ∧ req.header.start = (request_line method path version ++ crlf).length
      ∧ req.header.end_ = req.header.start + (crlf.intercalate lines).length := by
  obtain ⟨hmspace, hmlf⟩ := not_mem_name he hmethod
  set header := crlf.intercalate lines with hheader
  set line := request_line method path version with hline_eq
  set payload := render method path version lines body with hpayload
  set behind := version ++ (crlf ++ (header ++ (crlfcrlf ++ body))) with hbehind
  -- the payload, cut at the two spaces, at the first LF, and in front of the header
  have hspaces : payload = method ++ chr ' ' :: (path ++ chr ' ' :: behind) := by
    simp only [hpayload, hheader, hbehind, render, request_line, List.append_assoc,
      List.cons_append]
  have hcut : payload = (line ++ [chr '\r']) ++ chr '\n' :: (header ++ (crlfcrlf ++ body)) := by
    rw [List.append_assoc]
    rfl
  have hhead : payload = (line ++ crlf) ++ (header ++ (crlfcrlf ++ body)) := by
    rw [List.append_assoc]
    rfl
  have hnolf : chr '\n' ∉ line ++ [chr '\r'] := by
    simp only [hline_eq, request_line, List.mem_append, List.mem_cons, not_or]
    exact ⟨⟨hmlf, by decide, hlf, by decide, hversion⟩, by decide⟩
  obtain ⟨hi, hj⟩ := space_scans hmspace hspace behind
  rw [← hspaces] at hi hj
  have hk : scanFrom (Probe.headIs (· == chr '\n')) payload 0 = some (line.length + 1) := by
    have h := lf_scan hnolf (header ++ (crlfcrlf ++ body))
    rwa [← hcut, List.length_append, List.length_singleton] at h
  have hlen : (line ++ crlf).length = line.length + 1 + 1 := List.length_append
  have hm : scanFrom (Probe.word crlfcrlf) payload (line.length + 1 + 1)
      = some (line.length + 1 + 1 + header.length) := by
    rw [← hlen, scanFrom, hhead, List.drop_left, terminator_scan hlines hline]
  refine ⟨_, parse_http_request_eq_some.mpr ⟨_, _, _, _, hi, hj, hk, hm, rfl⟩, ?_, ?_, ?_, ?_, ?_⟩
  · have hfind : find_method payload method.length = some e := by
      rw [hspaces, find_method_name he hmethod]
    rw [hfind]
  · have h := slice_path method path behind
    rwa [← hspaces] at h
  · have h := slice_append (line ++ crlf) header (crlfcrlf ++ body)
    rw [← hhead, hlen] at h
    exact h
  · exact hlen.symm
  · rfl

/-- A lower-case POST with two header lines, and a body that looks like another request. -/
theorem parse_http_request_render_post :
    ∃ req, parse_http_request (render (ascii "post") (ascii "/a%20b") (ascii "HTTP/1.1")
        [ascii "Host: h", ascii "X: 1 2"] (ascii "GET / HTTP/1.1\r\n\r\n")) 7 = some req
      ∧ req.method = http_method_t.HTTP_POST.num
      ∧ req.path_bytes = ascii "/a%20b"
      ∧ header_bytes req = crlf.intercalate [ascii "Host: h", ascii "X: 1 2"]
      ∧ req.header.start
        = (request_line (ascii "post") (ascii "/a%20b") (ascii "HTTP/1.1") ++ crlf).length
      ∧ req.header.end_
        = req.header.start + (crlf.intercalate [ascii "Host: h", ascii "X: 1 2"]).length := by
  have hline : ∀ l ∈ [ascii "Host: h", ascii "X: 1 2"], HeaderLine l := by
    intro l hl
    rcases List.mem_pair.mp hl with rfl | rfl
    · exact ⟨by decide, by decide, by decide⟩
    · exact ⟨by decide, by decide, by decide⟩
  exact parse_http_request_render (e := (ascii "POST", .HTTP_POST)) (by decide) (by decide)
    (by decide) (by decide) (by decide) (by decide) hline _ 7

/-! ## The order of the slices -/

/-- The slices follow each other, and the path has no line end in it. -/
structure SlicesOrdered (req : http_request_t) : Prop where
  path_start : 0 < req.path.start
  path_le : req.path.start ≤ req.path.end_
  path_lt_header : req.path.end_ < req.header.start
  header_le : req.header.start ≤ req.header.end_
  no_cr : chr '\r' ∉ req.path_bytes
  no_lf : chr '\n' ∉ req.path_bytes

/-- The first two spaces stand in front of the first LF, with no CR between them. -/
def PathOnFirstLine (payload : List u8) : Prop :=
  ∃ token path rest, payload = token ++ chr ' ' :: (path ++ chr ' ' :: rest)
    ∧ (chr ' ' ∉ token ∧ chr '\n' ∉ token)
    ∧ (chr ' ' ∉ path ∧ chr '\r' ∉ path ∧ chr '\n' ∉ path)

/-- The payload, cut at the two spaces. -/
theorem cut_at_spaces {payload : List u8} {i j : ℕ}
    (hi : scanFrom (Probe.headIs (· == chr ' ')) payload 0 = some i)
    (hj : scanFrom (Probe.headIs (· == chr ' ')) payload (i + 1) = some j) :
    ∃ token path rest, payload = token ++ chr ' ' :: (path ++ chr ' ' :: rest)
      ∧ chr ' ' ∉ token ∧ chr ' ' ∉ path := by
  obtain ⟨token, a, y, hy, htoken, ha, rfl⟩ := scan_headIs_eq_some hi
  obtain ⟨path, b, rest, hrest, hpath, hb, -⟩ := scan_headIs_eq_some hj
  have ha : a = chr ' ' := by simpa using ha
  have hb : b = chr ' ' := by simpa using hb
  subst ha hb
  rw [List.drop_zero] at hy
  have hbehind : y = path ++ chr ' ' :: rest := by
    rw [← hrest, hy, Nat.zero_add, drop_behind]
  refine ⟨token, path, rest, by rw [hy, hbehind], fun h => ?_, fun h => ?_⟩
  · exact absurd (htoken _ h) (by simp)
  · exact absurd (hpath _ h) (by simp)

/-- The payload, cut at its first LF. -/
theorem cut_at_lf {payload : List u8} {k : ℕ}
    (hk : scanFrom (Probe.headIs (· == chr '\n')) payload 0 = some k) :
    ∃ line rest, payload = line ++ chr '\n' :: rest ∧ chr '\n' ∉ line ∧ k = line.length := by
  obtain ⟨line, a, rest, hcut, hline, ha, rfl⟩ := scan_headIs_eq_some hk
  have ha : a = chr '\n' := by simpa using ha
  subst ha
  rw [List.drop_zero] at hcut
  refine ⟨line, rest, hcut, fun h => ?_, Nat.zero_add _⟩
  exact absurd (hline _ h) (by simp)

/-- The first two spaces of a payload are where they are. -/
theorem cut_unique {token path rest token' path' rest' : List u8}
    (h : token ++ chr ' ' :: (path ++ chr ' ' :: rest)
      = token' ++ chr ' ' :: (path' ++ chr ' ' :: rest'))
    (htoken : chr ' ' ∉ token) (hpath : chr ' ' ∉ path)
    (htoken' : chr ' ' ∉ token') (hpath' : chr ' ' ∉ path') : token = token' ∧ path = path' := by
  obtain ⟨hi, hj⟩ := space_scans htoken hpath rest
  obtain ⟨hi', hj'⟩ := space_scans htoken' hpath' rest'
  rw [h] at hi hj
  have htlen : token.length = token'.length := Option.some.inj (hi.symm.trans hi')
  rw [htlen] at hj
  have hplen : path.length = path'.length :=
    Nat.add_left_cancel (Option.some.inj (hj.symm.trans hj'))
  obtain ⟨rfl, hbehind⟩ := List.append_inj h htlen
  exact ⟨rfl, (List.append_inj (List.cons.inj hbehind).2 hplen).1⟩

/-- Where neither token nor path has an LF, the first one stands behind both spaces. -/
theorem lf_behind_spaces {token path rest line lines : List u8}
    (h : token ++ chr ' ' :: (path ++ chr ' ' :: rest) = line ++ chr '\n' :: lines)
    (htoken : chr '\n' ∉ token) (hpath : chr '\n' ∉ path) :
    token.length + 1 + path.length < line.length := by
  by_contra hge
  have hshort : (line ++ [chr '\n']).length
      ≤ (token ++ chr ' ' :: (path ++ [chr ' '])).length := by
    simp only [List.length_append, List.length_cons, List.length_nil]
    omega
  have hline : line ++ [chr '\n'] <+: line ++ chr '\n' :: lines :=
    ⟨lines, by rw [List.append_assoc, List.singleton_append]⟩
  have hfields : token ++ chr ' ' :: (path ++ [chr ' ']) <+: line ++ chr '\n' :: lines := by
    refine ⟨rest, ?_⟩
    rw [← h]
    simp only [List.append_assoc, List.cons_append, List.nil_append]
  have hmem : chr '\n' ∈ token ++ chr ' ' :: (path ++ [chr ' ']) :=
    (List.prefix_of_prefix_length_le hline hfields hshort).subset (by simp)
  simp only [List.mem_append, List.mem_cons, List.not_mem_nil, or_false] at hmem
  rcases hmem with hmem | hmem | hmem | hmem
  · exact htoken hmem
  · exact absurd hmem (by decide)
  · exact hpath hmem
  · exact absurd hmem (by decide)

/-- **The slices are ordered** exactly when the path ends on the first line. The scan for the blank
behind the path does not stop at the line end, and the headers are looked for from the line end
on. -/
theorem slices_ordered_iff {payload : List u8} {indeterminate : u32} {req : http_request_t}
    (h : parse_http_request payload indeterminate = some req) :
    SlicesOrdered req ↔ PathOnFirstLine payload := by
  obtain ⟨i, j, k, m, hi, hj, hk, hm, rfl⟩ := parse_http_request_eq_some.mp h
  obtain ⟨token, path, rest, hcut, htoken, hpath⟩ := cut_at_spaces hi hj
  obtain ⟨line, lines, hlines, hline, rfl⟩ := cut_at_lf hk
  obtain ⟨hi', hj'⟩ := space_scans htoken hpath rest
  rw [← hcut] at hi' hj'
  obtain rfl : i = token.length := Option.some.inj (hi.symm.trans hi')
  obtain rfl : j = token.length + 1 + path.length := Option.some.inj (hj.symm.trans hj')
  have hslice : slice payload (token.length + 1) (token.length + 1 + path.length) = path := by
    rw [hcut]
    exact slice_path token path rest
  constructor
  · intro hordered
    have hlt := hordered.path_lt_header
    have hcr := hordered.no_cr
    have hlf := hordered.no_lf
    rw [http_request_t.path_bytes] at hcr hlf
    dsimp only at hlt hcr hlf
    rw [hslice] at hcr hlf
    -- the token is shorter than the first line, so it is a part of it
    have hstarts : token <+: line :=
      List.prefix_of_prefix_length_le ⟨_, hcut.symm⟩ ⟨_, hlines.symm⟩ (by omega)
    exact ⟨token, path, rest, hcut, ⟨htoken, fun h => hline (hstarts.subset h)⟩,
      hpath, hcr, hlf⟩
  · rintro ⟨token', path', rest', hcut', ⟨htoken', htlf⟩, hpath', hcr, hlf⟩
    obtain ⟨rfl, rfl⟩ := cut_unique (hcut.symm.trans hcut') htoken hpath htoken' hpath'
    have hlt := lf_behind_spaces (hcut.symm.trans hlines) htlf hlf
    obtain ⟨x, y, -, rfl, -⟩ := scan_eq_some hm
    refine ⟨Nat.succ_pos _, Nat.le_add_right _ _, Nat.lt_succ_of_lt hlt, Nat.le_add_right _ _,
      ?_, ?_⟩
    · rw [http_request_t.path_bytes]
      dsimp only
      rwa [hslice]
    · rw [http_request_t.path_bytes]
      dsimp only
      rwa [hslice]

/-- A request line with a version keeps the path on it. -/
theorem slices_ordered_version :
    SlicesOrdered ⟨1, ⟨17, 21⟩, ⟨4, 6⟩, ascii "GET /a HTTP/1.1\r\nX: y\r\n\r\n"⟩ := by
  have hparse : parse_http_request (ascii "GET /a HTTP/1.1\r\nX: y\r\n\r\n") 0
      = some ⟨1, ⟨17, 21⟩, ⟨4, 6⟩, ascii "GET /a HTTP/1.1\r\nX: y\r\n\r\n"⟩ := by decide
  refine (slices_ordered_iff hparse).mpr ?_
  exact ⟨ascii "GET", ascii "/a", ascii "HTTP/1.1\r\nX: y\r\n\r\n", rfl, by decide, by decide⟩

/-- A request line without a version: the path runs on into the header that follows. -/
theorem not_slices_ordered :
    ¬ ∀ (payload : List u8) (indeterminate : u32) (req : http_request_t),
      parse_http_request payload indeterminate = some req → SlicesOrdered req := by
  intro h
  have hparse : parse_http_request (ascii "GET /a\r\nX: y z\r\n\r\n") 0
      = some ⟨1, ⟨8, 14⟩, ⟨4, 10⟩, ascii "GET /a\r\nX: y z\r\n\r\n"⟩ := by decide
  exact absurd (h _ _ _ hparse).path_lt_header (by decide)

end W32HttpServer.RequestText

/-
The request parser of server_http.c: `parse_method`, `parse_path` and
`parse_http_request`.

Its four loops look for a sentinel and nothing else: a space, a space, an LF and the word
CR LF CR LF. None of them consults `payload_len`. The model runs them over the memory both
receive paths hand over, `payload` and the NUL behind it, and a read at an index
greater than `payload_len` is `none`: `parse_http_request payload x = none` says that some
loop leaves the request, `some req` that all four stop inside it.

Pointers into the payload are indices. The local `method` of `parse_method` is not
initialised, so a token that no entry of the table matches reports whatever the local held:
that value is the argument `indeterminate`.
-/
import W32HttpServer.Common
import W32HttpServer.Lib.Scan

set_option autoImplicit false

namespace W32HttpServer.HttpRequest

open W32HttpServer.Common W32HttpServer.Lib.Scan

/-! ## Data -/

inductive http_method_t
  | HTTP_UNKNOWN
  | HTTP_GET
  | HTTP_POST
  | HTTP_PATCH
  | HTTP_PUT
  deriving DecidableEq

/-- The enumerators' values, in the order server_http.h declares them. -/
def http_method_t.num : http_method_t → u32
  | .HTTP_UNKNOWN => 0
  | .HTTP_GET => 1
  | .HTTP_POST => 2
  | .HTTP_PATCH => 3
  | .HTTP_PUT => 4

def method_map : List (List u8 × http_method_t) :=
  [(ascii "GET", .HTTP_GET), (ascii "POST", .HTTP_POST), (ascii "PUT", .HTTP_PUT),
    (ascii "PATCH", .HTTP_PATCH)]

structure http_header_t where
  start : ℕ
  end_ : ℕ
  deriving DecidableEq

structure http_path_t where
  start : ℕ
  end_ : ℕ
  deriving DecidableEq

structure http_request_t where
  method : u32
  header : http_header_t
  path : http_path_t
  payload : List u8
  deriving DecidableEq

/-- `CR LF CR LF`, the word `0x0A0D0A0D` in memory order. -/
def crlfcrlf : List u8 := ascii "\r\n\r\n"

/-! ## The functions -/

/-- `strnicmp(s1, s2, n) == 0`: equal up to case in the first `n` bytes or up to the
terminator both share. -/
def strnicmp : List u8 → List u8 → ℕ → Bool
  | _, _, 0 => true
  | s1, s2, n + 1 =>
      if tolower (s1.headD 0) = tolower (s2.headD 0) then
        if s1.headD 0 = 0 then true else strnicmp s1.tail s2.tail n
      else false

/-- The table entry the comparison loop of `parse_method` stops at. -/
def find_method (mem : List u8) (compare_len : ℕ) : Option (List u8 × http_method_t) :=
  method_map.find? (fun e => strnicmp e.1 mem compare_len)

def parse_method (mem : List u8) (indeterminate : u32) : Option (u32 × ℕ) := do
  let method_end ← scanFrom (Probe.headIs (· == chr ' ')) mem 0
  let method := match find_method mem method_end with
    | some e => e.2.num
    | none => indeterminate
  some (method, method_end + 1)

def parse_path (mem : List u8) (method_ptr : ℕ) : Option (http_path_t × ℕ) := do
  let ptr ← scanFrom (Probe.headIs (· == chr ' ')) mem method_ptr
  some (⟨method_ptr, ptr⟩, ptr + 1)

def parse_http_request (payload : List u8) (indeterminate : u32) : Option http_request_t := do
  let mem := payload ++ [0]
  let (method, ptr) ← parse_method mem indeterminate
  let (path, _) ← parse_path mem ptr
  -- both header scans start over from the payload, not from the end of the path
  let lf ← scanFrom (Probe.headIs (· == chr '\n')) mem 0
  let header_end ← scanFrom (Probe.word crlfcrlf) mem (lf + 1)
  some ⟨method, ⟨lf + 1, header_end⟩, path, payload⟩

/-- The bytes of a slice of the payload. -/
def slice (payload : List u8) (start end_ : ℕ) : List u8 := (payload.drop start).take (end_ - start)

/-- The bytes from `req->path.start` to `req->path.end`. -/
def http_request_t.path_bytes (req : http_request_t) : List u8 :=
  slice req.payload req.path.start req.path.end_

/-! ## The scans never need the terminator

The NUL behind the payload is neither a space nor an LF nor part of CR LF CR LF, so a
scan that stops stops in the payload proper. -/

theorem headIs_concat_nul {c : u8} (hc : c ≠ 0) (y : List u8)
    (h : (Probe.headIs (· == c)).read (y ++ [0]) = some true) :
    (Probe.headIs (· == c)).read y = some true := by
  cases y with
  | nil =>
      have h0 : (0 : u8) = c := by simpa using h
      exact absurd h0.symm hc
  | cons a y => exact h

theorem word_concat_nul (y : List u8)
    (h : (Probe.word crlfcrlf).read (y ++ [0]) = some true) :
    (Probe.word crlfcrlf).read y = some true := by
  rw [Probe.word_read_true] at h ⊢
  rcases List.prefix_concat_iff.mp h with hy | hy
  · -- the word cannot end in the terminator
    have h0 : (0 : u8) ∈ crlfcrlf := by rw [hy]; simp
    exact absurd h0 (by decide)
  · exact hy

theorem find_method_append {mem : List u8} {n : ℕ} (t : List u8) (hn : n ≤ mem.length) :
    find_method (mem ++ t) n = find_method mem n := by
  have hstr : ∀ (n : ℕ) (s mem : List u8), n ≤ mem.length →
      strnicmp s (mem ++ t) n = strnicmp s mem n := by
    intro n
    induction n with
    | zero => intro s mem _; cases s <;> rfl
    | succ n ih =>
        intro s mem hn
        cases mem with
        | nil => simp at hn
        | cons c mem =>
            have hn' : n ≤ mem.length := by simpa using hn
            rw [List.cons_append, strnicmp, strnicmp, List.tail_cons, List.tail_cons,
              ih s.tail mem hn', List.headD_cons, List.headD_cons]
  simp only [find_method, hstr n _ mem hn]

/-- `parse_method` in terms of the payload alone. -/
theorem parse_method_eq (payload : List u8) (x : u32) :
    parse_method (payload ++ [0]) x =
      (scanFrom (Probe.headIs (· == chr ' ')) payload 0).map (fun k =>
        ((match find_method payload k with
          | some e => e.2.num
          | none => x), k + 1)) := by
  rw [parse_method, scanFrom_concat (headIs_concat_nul (by decide)) (Nat.zero_le _)]
  rcases h : scanFrom (Probe.headIs (· == chr ' ')) payload 0 with _ | k
  · rfl
  · have hk := (scanFrom_headIs_bounds (Nat.zero_le _) h).2
    simp only [Option.bind_eq_bind, Option.bind_some, Option.map_some,
      find_method_append [0] hk.le]

/-- What the parser reports, by the four indices its loops stop at. -/
theorem parse_http_request_eq_some {payload : List u8} {x : u32} {req : http_request_t} :
    parse_http_request payload x = some req ↔
      ∃ i j k m, scanFrom (Probe.headIs (· == chr ' ')) payload 0 = some i
        ∧ scanFrom (Probe.headIs (· == chr ' ')) payload (i + 1) = some j
        ∧ scanFrom (Probe.headIs (· == chr '\n')) payload 0 = some k
        ∧ scanFrom (Probe.word crlfcrlf) payload (k + 1) = some m
        ∧ req = ⟨(match find_method payload i with
            | some e => e.2.num
            | none => x), ⟨k + 1, m⟩, ⟨i + 1, j⟩, payload⟩ := by
  rw [parse_http_request, parse_method_eq]
  constructor
  · intro h
    rcases hi : scanFrom (Probe.headIs (· == chr ' ')) payload 0 with _ | i
    · rw [hi] at h
      exact absurd h (by simp)
    have hil := (scanFrom_headIs_bounds (Nat.zero_le _) hi).2
    rcases hk : scanFrom (Probe.headIs (· == chr '\n')) payload 0 with _ | k
    · rw [hi, scanFrom_concat (headIs_concat_nul (by decide)) (Nat.zero_le _), hk] at h
      simp at h
    have hkl := (scanFrom_headIs_bounds (Nat.zero_le _) hk).2
    rw [hi, scanFrom_concat (headIs_concat_nul (by decide)) (Nat.zero_le _), hk] at h
    simp only [parse_path, Option.map_some, Option.bind_eq_bind, Option.bind_some,
      scanFrom_concat (headIs_concat_nul (c := chr ' ') (by decide)) hil,
      scanFrom_concat word_concat_nul hkl, Option.bind_eq_some_iff, Option.some.injEq] at h
    obtain ⟨_, ⟨j, hj, rfl⟩, m, hm, rfl⟩ := h
    exact ⟨i, j, k, m, rfl, hj, rfl, hm, rfl⟩
  · rintro ⟨i, j, k, m, hi, hj, hk, hm, rfl⟩
    have hil := (scanFrom_headIs_bounds (Nat.zero_le _) hi).2
    have hkl := (scanFrom_headIs_bounds (Nat.zero_le _) hk).2
    rw [hi, scanFrom_concat (headIs_concat_nul (by decide)) (Nat.zero_le _), hk]
    simp only [parse_path, Option.map_some, Option.bind_eq_bind, Option.bind_some,
      scanFrom_concat (headIs_concat_nul (c := chr ' ') (by decide)) hil,
      scanFrom_concat word_concat_nul hkl, hj, hm]

/-! ## When the scans stay inside the request -/

/-- A request all four loops stop in: two spaces, and CR LF CR LF somewhere behind the
first LF. -/
def WithinRequest (payload : List u8) : Prop :=
  2 ≤ payload.count (chr ' ')
    ∧ crlfcrlf <:+: (payload.dropWhile (· ≠ chr '\n')).tail

instance (payload : List u8) : Decidable (WithinRequest payload) := by
  unfold WithinRequest
  infer_instance

theorem drop_behind (x : List u8) (c : u8) (y : List u8) :
    (x ++ c :: y).drop (x.length + 1) = y := by
  rw [List.drop_append, List.drop_of_length_le (Nat.le_succ _), List.nil_append,
    Nat.add_sub_cancel_left, List.drop_one, List.tail_cons]

/-- The method and the path scan need two spaces between them. -/
theorem two_spaces_iff (payload : List u8) :
    2 ≤ payload.count (chr ' ') ↔
      ∃ i j, scanFrom (Probe.headIs (· == chr ' ')) payload 0 = some i
        ∧ scanFrom (Probe.headIs (· == chr ' ')) payload (i + 1) = some j := by
  constructor
  · intro h
    have h1 : chr ' ' ∈ payload := List.count_pos_iff.mp (by omega)
    obtain ⟨x, y, rfl, hx⟩ := List.eq_append_cons_of_mem h1
    have hx0 : x.count (chr ' ') = 0 := List.count_eq_zero.mpr hx
    have hy : chr ' ' ∈ y := by
      rw [List.count_append, List.count_cons_self, hx0] at h
      exact List.count_pos_iff.mp (by omega)
    have hxp : ∀ b ∈ x, (b == chr ' ') = false := by
      intro b hb
      simpa using fun hbe : b = chr ' ' => hx (hbe ▸ hb)
    have hi : scanFrom (Probe.headIs (· == chr ' ')) (x ++ chr ' ' :: y) 0 = some x.length := by
      rw [scanFrom, List.drop_zero, scan_headIs hxp (by simp), Nat.zero_add]
    have hj : (scanFrom (Probe.headIs (· == chr ' ')) (x ++ chr ' ' :: y)
        (x.length + 1)).isSome := by
      rw [scanFrom, drop_behind, scan_headIs_isSome_iff]
      exact ⟨chr ' ', hy, by simp⟩
    obtain ⟨j, hj⟩ := Option.isSome_iff_exists.mp hj
    exact ⟨x.length, j, hi, hj⟩
  · rintro ⟨i, j, hi, hj⟩
    obtain ⟨x, a, y, hxy, -, ha, rfl⟩ := scan_headIs_eq_some hi
    obtain ⟨x', a', y', hxy', -, ha', -⟩ := scan_headIs_eq_some hj
    have ha : a = chr ' ' := by simpa using ha
    have ha' : a' = chr ' ' := by simpa using ha'
    subst ha ha'
    rw [List.drop_zero] at hxy
    have hy : y = x' ++ chr ' ' :: y' := by
      rw [← hxy', hxy, Nat.zero_add, drop_behind]
    rw [hxy, hy]
    simp only [List.count_append, List.count_cons_self]
    omega

/-- The header scans need CR LF CR LF behind the first LF. -/
theorem header_end_iff (payload : List u8) :
    crlfcrlf <:+: (payload.dropWhile (· ≠ chr '\n')).tail ↔
      ∃ k m, scanFrom (Probe.headIs (· == chr '\n')) payload 0 = some k
        ∧ scanFrom (Probe.word crlfcrlf) payload (k + 1) = some m := by
  rcases hk : scanFrom (Probe.headIs (· == chr '\n')) payload 0 with _ | k
  · -- without an LF nothing is left behind it
    have hno : ∀ b ∈ payload, (b ≠ chr '\n') := by
      intro b hb hbe
      have h : (scanFrom (Probe.headIs (· == chr '\n')) payload 0).isSome := by
        rw [scanFrom, List.drop_zero, scan_headIs_isSome_iff]
        exact ⟨b, hb, by simp [hbe]⟩
      rw [hk] at h
      exact absurd h (by simp)
    have hnil : payload.dropWhile (· ≠ chr '\n') = [] := by
      rw [List.dropWhile_eq_nil_iff]
      exact fun b hb => by simpa using hno b hb
    rw [hnil, List.tail_nil]
    simp [crlfcrlf, ascii]
  · obtain ⟨x, a, y, hxy, hx, ha, rfl⟩ := scan_headIs_eq_some hk
    rw [List.drop_zero] at hxy
    have ha : a = chr '\n' := by simpa using ha
    subst ha
    -- `y` is what the last scan starts on
    have htail : (payload.dropWhile (· ≠ chr '\n')).tail = y := by
      rw [hxy, List.dropWhile_append_of_pos]
      · simp
      · exact fun b hb => by simpa using hx b hb
    have hdrop : payload.drop (0 + x.length + 1) = y := by
      rw [hxy, Nat.zero_add, drop_behind]
    rw [htail, ← scan_word_isSome_iff y (0 + x.length + 1), Option.isSome_iff_exists]
    constructor
    · rintro ⟨m, hm⟩
      exact ⟨_, m, rfl, by rw [scanFrom, hdrop, hm]⟩
    · rintro ⟨k, m, hk, hm⟩
      rw [Option.some.injEq] at hk
      rw [← hk, scanFrom, hdrop] at hm
      exact ⟨m, hm⟩

/-- The four scans together. -/
theorem within_request_iff (payload : List u8) :
    WithinRequest payload ↔
      ∃ i j k m, scanFrom (Probe.headIs (· == chr ' ')) payload 0 = some i
        ∧ scanFrom (Probe.headIs (· == chr ' ')) payload (i + 1) = some j
        ∧ scanFrom (Probe.headIs (· == chr '\n')) payload 0 = some k
        ∧ scanFrom (Probe.word crlfcrlf) payload (k + 1) = some m := by
  rw [WithinRequest, two_spaces_iff, header_end_iff]
  constructor
  · rintro ⟨⟨i, j, hi, hj⟩, k, m, hk, hm⟩
    exact ⟨i, j, k, m, hi, hj, hk, hm⟩
  · rintro ⟨i, j, k, m, hi, hj, hk, hm⟩
    exact ⟨⟨i, j, hi, hj⟩, k, m, hk, hm⟩

/-- **The parser stays inside the request** exactly when the request holds two spaces and
a CR LF CR LF behind its first LF. No scan looks at `payload_len`, so what one of them is out
for must be there; the last one starts behind the first LF, and a request without header lines has
nothing for it. -/
theorem parse_http_request_isSome_iff (payload : List u8) (indeterminate : u32) :
    (parse_http_request payload indeterminate).isSome ↔ WithinRequest payload := by
  rw [within_request_iff, Option.isSome_iff_exists]
  constructor
  · rintro ⟨req, h⟩
    obtain ⟨i, j, k, m, hi, hj, hk, hm, -⟩ := parse_http_request_eq_some.mp h
    exact ⟨i, j, k, m, hi, hj, hk, hm⟩
  · rintro ⟨i, j, k, m, hi, hj, hk, hm⟩
    exact ⟨_, parse_http_request_eq_some.mpr ⟨i, j, k, m, hi, hj, hk, hm, rfl⟩⟩

/-- A complete request with an empty header list: the CR LF CR LF search starts inside
the terminator and runs past the request. -/
theorem empty_header_list_leaves_request :
    parse_http_request (ascii "GET / HTTP/1.0\r\n\r\n") 0 = none := by decide

/-! ## What the slices depend on -/

/-- What the parser reports of a request, apart from the pointer to its bytes. -/
def http_request_t.slices (req : http_request_t) : u32 × http_path_t × http_header_t :=
  (req.method, req.path, req.header)

/-- The token in front of the first space is in the table, so `parse_method` does not fall
back on its uninitialised local. -/
def KnownMethod (payload : List u8) : Prop :=
  (find_method payload (payload.takeWhile (· ≠ chr ' ')).length).isSome = true

instance (payload : List u8) : Decidable (KnownMethod payload) := by
  unfold KnownMethod
  infer_instance

/-- The method scan stops at the end of the first token. -/
theorem method_scan_eq {payload : List u8} {i : ℕ}
    (hi : scanFrom (Probe.headIs (· == chr ' ')) payload 0 = some i) :
    i = (payload.takeWhile (· ≠ chr ' ')).length := by
  obtain ⟨x, a, y, hxy, hx, ha, rfl⟩ := scan_headIs_eq_some hi
  rw [List.drop_zero] at hxy
  have ha : a = chr ' ' := by simpa using ha
  have hx' : ∀ b ∈ x, decide (b ≠ chr ' ') = true := fun b hb => by simpa using hx b hb
  rw [hxy, List.takeWhile_append_of_pos hx', ha]
  simp

/-- **More bytes behind a request** change nothing the parser reports. -/
theorem parse_http_request_append {payload : List u8} {x : u32} {req : http_request_t}
    (t : List u8) (h : parse_http_request payload x = some req) :
    parse_http_request (payload ++ t) x = some { req with payload := payload ++ t } := by
  obtain ⟨i, j, k, m, hi, hj, hk, hm, rfl⟩ := parse_http_request_eq_some.mp h
  have hil := (scanFrom_headIs_bounds (Nat.zero_le _) hi).2
  have hkl := (scanFrom_headIs_bounds (Nat.zero_le _) hk).2
  refine parse_http_request_eq_some.mpr ⟨i, j, k, m, scanFrom_append t (Nat.zero_le _) hi,
    scanFrom_append t hil hj, scanFrom_append t (Nat.zero_le _) hk, scanFrom_append t hkl hm, ?_⟩
  rw [find_method_append t hil.le]

/-- The slices are determined, whatever the uninitialised local holds, exactly when the
scans stay inside the request and the method is known. -/
theorem slices_determined_iff (payload : List u8) :
    (∃ slices, ∀ x, (parse_http_request payload x).map http_request_t.slices = some slices)
      ↔ WithinRequest payload ∧ KnownMethod payload := by
  rw [within_request_iff]
  constructor
  · rintro ⟨slices, h⟩
    obtain ⟨req0, h0, hs0⟩ := Option.map_eq_some_iff.mp (h 0)
    obtain ⟨req1, h1, hs1⟩ := Option.map_eq_some_iff.mp (h 1)
    obtain ⟨i, j, k, m, hi, hj, hk, hm, rfl⟩ := parse_http_request_eq_some.mp h0
    obtain ⟨i', _, _, _, hi', _, _, _, rfl⟩ := parse_http_request_eq_some.mp h1
    obtain rfl : i = i' := Option.some.inj (hi.symm.trans hi')
    refine ⟨⟨i, j, k, m, hi, hj, hk, hm⟩, ?_⟩
    rw [KnownMethod, ← method_scan_eq hi]
    rcases hfind : find_method payload i with _ | e
    · -- two values of the local would be reported as two methods
      have hmethod := congrArg Prod.fst (hs0.trans hs1.symm)
      rw [http_request_t.slices, http_request_t.slices, hfind] at hmethod
      have h01 : (0 : u32) = 1 := hmethod
      exact absurd h01 (by decide)
    · rfl
  · rintro ⟨⟨i, j, k, m, hi, hj, hk, hm⟩, hknown⟩
    rw [KnownMethod, ← method_scan_eq hi] at hknown
    obtain ⟨e, he⟩ := Option.isSome_iff_exists.mp hknown
    refine ⟨(e.2.num, ⟨i + 1, j⟩, ⟨k + 1, m⟩), fun x => ?_⟩
    rw [Option.map_eq_some_iff]
    refine ⟨_, parse_http_request_eq_some.mpr ⟨i, j, k, m, hi, hj, hk, hm, rfl⟩, ?_⟩
    rw [http_request_t.slices, he]

/-- Two starts of one request that both determine the slices determine the same ones. -/
theorem slices_eq_of_start {p q : List u8} (hpq : p <+: q)
    {slices : u32 × http_path_t × http_header_t}
    (h : ∀ x, (parse_http_request p x).map http_request_t.slices = some slices) (x : u32) :
    (parse_http_request q x).map http_request_t.slices = some slices := by
  obtain ⟨t, rfl⟩ := hpq
  obtain ⟨req, hreq, hs⟩ := Option.map_eq_some_iff.mp (h x)
  rw [parse_http_request_append t hreq, Option.map_some, ← hs]
  rfl

/-! ## A GET request -/

/-- Text in front of a complete tail leaves it complete. -/
theorem header_end_append (p : List u8) {tail : List u8}
    (h : crlfcrlf <:+: (tail.dropWhile (· ≠ chr '\n')).tail) :
    crlfcrlf <:+: ((p ++ tail).dropWhile (· ≠ chr '\n')).tail := by
  induction p with
  | nil => exact h
  | cons c p ih =>
      by_cases hc : c = chr '\n'
      · -- the scan starts behind this LF and has all of `tail` in front of it
        rw [List.cons_append, List.dropWhile_cons_of_neg (by simpa using hc), List.tail_cons]
        have hsuffix : (tail.dropWhile (· ≠ chr '\n')).tail <:+ p ++ tail :=
          ((List.tail_suffix _).trans (List.dropWhile_suffix _)).trans (List.suffix_append p tail)
        exact h.trans hsuffix.isInfix
      · rw [List.cons_append, List.dropWhile_cons_of_pos (by simpa using hc)]
        exact ih

/-- **A GET request** for the path `e`: the parser takes it up to its first space. -/
theorem parse_http_request_get (e : List u8) {tail : List u8}
    (htail : crlfcrlf <:+: (tail.dropWhile (· ≠ chr '\n')).tail) (x : u32) :
    ∃ req, parse_http_request (ascii "GET " ++ (e ++ chr ' ' :: tail)) x = some req
      ∧ req.method = http_method_t.HTTP_GET.num
      ∧ req.path_bytes = e.takeWhile (· ≠ chr ' ') := by
  set payload := ascii "GET " ++ (e ++ chr ' ' :: tail) with hpayload
  -- the two spaces: one behind the method, one behind the URL
  have hcount : 2 ≤ payload.count (chr ' ') := by
    have hget : (ascii "GET ").count (chr ' ') = 1 := by decide
    rw [hpayload, List.count_append, List.count_append, List.count_cons_self, hget]
    omega
  -- and the end of the headers, which is behind the URL in any case
  have hend : crlfcrlf <:+: (payload.dropWhile (· ≠ chr '\n')).tail := by
    have hsplit : payload = (ascii "GET " ++ e ++ [chr ' ']) ++ tail := by
      simp only [hpayload, List.append_assoc, List.singleton_append]
    rw [hsplit]
    exact header_end_append _ htail
  obtain ⟨i, j, k, m, hi, hj, hk, hm⟩ := (within_request_iff payload).mp ⟨hcount, hend⟩
  refine ⟨_, parse_http_request_eq_some.mpr ⟨i, j, k, m, hi, hj, hk, hm, rfl⟩, ?_, ?_⟩
  · have hi3 : i = 3 := method_scan_eq hi
    have hfind : find_method payload 3 = find_method (ascii "GET ") 3 :=
      find_method_append _ (by decide)
    rw [hi3, hfind]
    rfl
  · have hi3 : i = 3 := method_scan_eq hi
    subst hi3
    obtain ⟨y, a, z, hyz, hy, ha, rfl⟩ := scan_headIs_eq_some hj
    have ha : a = chr ' ' := by simpa using ha
    have hdrop : payload.drop (3 + 1) = e ++ chr ' ' :: tail := rfl
    -- the path ends at the first space, in the URL if it has one
    have htake : y = e.takeWhile (· ≠ chr ' ') := by
      have hy' : ∀ b ∈ y, decide (b ≠ chr ' ') = true := fun b hb => by simpa using hy b hb
      have hleft : (y ++ a :: z).takeWhile (· ≠ chr ' ') = y := by
        rw [List.takeWhile_append_of_pos hy', ha]
        simp
      rw [← hleft, ← hyz, hdrop]
      clear hyz hdrop hleft hend hcount hi hj hk hm hpayload
      induction e with
      | nil => simp
      | cons c e ih => simp only [List.cons_append, List.takeWhile_cons, ih]
    show slice payload (3 + 1) (3 + 1 + y.length) = _
    rw [slice, hyz, ← htake]
    simp

end W32HttpServer.HttpRequest

/-
From the path of a request to a path of the file system: `url_decode`,
`is_safe_path` and `resolve_file_path` of server_http.c.

`url_decode` has no failure value for a bad digit: a byte that is not a hexadecimal
digit counts as zero, so the range test on `hex_val` always passes and every '%' that
two more bytes follow is an escape (`url_decode_loop_escape`). Its output may
therefore hold a NUL, and everything behind it is invisible to the functions that
read the buffer as a C string.

`resolve_file_path` reports both its return value and what it wrote into `full_path`,
terminator included, since it writes before it compares the length.
-/
import Mathlib.Data.List.GetD
import W32HttpServer.Common
import W32HttpServer.Lib.LexicalPath

set_option autoImplicit false

namespace W32HttpServer.HttpPath

open W32HttpServer.Common W32HttpServer.Lib.LexicalPath

/-! ## `url_decode` -/

/-- The value of one hexadecimal digit; any other byte leaves the zero it started from. -/
def hex_digit (c : u8) : ℤ :=
  if chr '0' ≤ c ∧ c ≤ chr '9' then (c.toNat : ℤ) - 48
  else if chr 'A' ≤ c ∧ c ≤ chr 'F' then (c.toNat : ℤ) - 65 + 10
  else if chr 'a' ≤ c ∧ c ≤ chr 'f' then (c.toNat : ℤ) - 97 + 10
  else 0

def hex_val (c1 c2 : u8) : ℤ := hex_digit c1 * 16 + hex_digit c2

/-- The decoding loop; the counter is `dest_size - 1 - written`. -/
def url_decode_loop : ℕ → List u8 → List u8
  | 0, _ => []
  | _ + 1, [] => []
  | n + 1, c :: p =>
      -- `p[1]` and `p[2]` are tested against the terminator only
      if c = chr '%' ∧ p.getD 0 0 ≠ 0 ∧ p.getD 1 0 ≠ 0 then
        if 0 ≤ hex_val (p.getD 0 0) (p.getD 1 0) ∧ hex_val (p.getD 0 0) (p.getD 1 0) ≤ 255 then
          UInt8.ofNat (hex_val (p.getD 0 0) (p.getD 1 0)).toNat :: url_decode_loop n (p.drop 2)
        else c :: url_decode_loop n p
      else if c = chr '+' then chr ' ' :: url_decode_loop n p
      else c :: url_decode_loop n p

/-- The bytes `url_decode` writes into `dest`, terminator included. -/
def url_decode (src : List u8) (dest_size : ℕ) : List u8 :=
  if dest_size = 0 then [] else url_decode_loop (dest_size - 1) (cstr src) ++ [0]

/-! ## `is_safe_path` -/

/-- The loop that looks for two adjacent dots. -/
def has_dot_dot : List u8 → Bool
  | [] => false
  | c :: p => (c == chr '.' && p.headD 0 == chr '.') || has_dot_dot p

def is_safe_path (path : List u8) : Bool :=
  let p := cstr path
  if has_dot_dot p then false
  -- absolute paths: a leading backslash, or a drive letter
  else if p.headD 0 = chr '\\' ∨ (p.getD 1 0 = chr ':' ∧ p.headD 0 ≠ 0) then false
  else if p.any (fun c => c == chr '<' || c == chr '>' || c == chr '|' || c == chr '"'
      || c == chr '*' || c == chr '?') then false
  else true

/-! ## `resolve_file_path` -/

/-- `clean_url_path`: the decoded path from behind its leading slash. -/
def clean_url_path (url_path : List u8) : List u8 :=
  let decoded_path := url_decode url_path MAX_PATH
  cstr (if decoded_path.headD 0 = chr '/' then decoded_path.tail else decoded_path)

/-- The text the `"%s\\%s"` of `resolve_file_path` formats. -/
def full_path_text (document_root clean : List u8) : List u8 :=
  cstr document_root ++ chr '\\' :: (if clean = [] then ascii "index.html" else clean)

/-- The return value, and the bytes written into `full_path`. -/
def resolve_file_path (document_root url_path : List u8) (path_buffer_size : u32) :
    ℤ × List u8 :=
  if path_buffer_size = 0 then (-1, [])
  else
    let clean := clean_url_path url_path
    if is_safe_path clean = false then (-1, [])
    else
      -- the text is written before its length is compared
      let full_path := wsprintf (full_path_text document_root clean)
      if (full_path.length : ℤ) ≥ toInt32 path_buffer_size then (-1, full_path ++ [0])
      else (0, full_path ++ [0])

/-! ## The decoder -/

/-- The range of a digit's value, whatever the byte. -/
theorem hex_digit_bounds (c : u8) : 0 ≤ hex_digit c ∧ hex_digit c ≤ 15 := by
  unfold hex_digit
  split_ifs with h1 h2 h3
  · have := UInt8.le_iff_toNat_le.mp h1.1
    have := UInt8.le_iff_toNat_le.mp h1.2
    simp at *
    omega
  · have := UInt8.le_iff_toNat_le.mp h2.1
    have := UInt8.le_iff_toNat_le.mp h2.2
    simp at *
    omega
  · have := UInt8.le_iff_toNat_le.mp h3.1
    have := UInt8.le_iff_toNat_le.mp h3.2
    simp at *
    omega
  · omega

/-- The test on `hex_val` never fails. -/
theorem hex_val_bounds (c1 c2 : u8) : 0 ≤ hex_val c1 c2 ∧ hex_val c1 c2 ≤ 255 := by
  have h1 := hex_digit_bounds c1
  have h2 := hex_digit_bounds c2
  unfold hex_val
  omega

/-- The byte an escape decodes to. -/
def escaped (c1 c2 : u8) : u8 := UInt8.ofNat (hex_val c1 c2).toNat

@[simp] theorem url_decode_loop_zero (s : List u8) : url_decode_loop 0 s = [] := by
  cases s <;> rfl

@[simp] theorem url_decode_loop_nil (n : ℕ) : url_decode_loop n [] = [] := by
  cases n <;> rfl

/-- Every '%' that two more bytes follow is taken as an escape. -/
theorem url_decode_loop_escape (n : ℕ) {c1 c2 : u8} (h1 : c1 ≠ 0) (h2 : c2 ≠ 0)
    (rest : List u8) : url_decode_loop (n + 1) (chr '%' :: c1 :: c2 :: rest)
      = escaped c1 c2 :: url_decode_loop n rest := by
  rw [url_decode_loop, if_pos ⟨rfl, h1, h2⟩]
  exact if_pos (hex_val_bounds c1 c2)

/-- A '%' too close to the end is a literal. -/
theorem url_decode_loop_percent_short (n : ℕ) {p : List u8} (hp : p.length < 2) :
    url_decode_loop (n + 1) (chr '%' :: p) = chr '%' :: url_decode_loop n p := by
  have h1 : p.getD 1 0 = 0 := List.getD_eq_default _ _ (by omega)
  rw [url_decode_loop, if_neg (fun h => h.2.2 h1), if_neg (by decide)]

theorem url_decode_loop_plus (n : ℕ) (p : List u8) :
    url_decode_loop (n + 1) (chr '+' :: p) = chr ' ' :: url_decode_loop n p := by
  rw [url_decode_loop, if_neg (fun h => absurd h.1 (by decide)), if_pos rfl]

theorem url_decode_loop_literal (n : ℕ) {c : u8} (hc : c ≠ chr '%') (hc' : c ≠ chr '+')
    (p : List u8) : url_decode_loop (n + 1) (c :: p) = c :: url_decode_loop n p := by
  rw [url_decode_loop, if_neg (fun h => hc h.1), if_neg hc']

/-- What the decoder writes for a byte that does not open an escape. -/
def unescaped (c : u8) : u8 := if c = chr '+' then chr ' ' else c

theorem url_decode_loop_plain (n : ℕ) {c : u8} {p : List u8} (hc : c = chr '%' → p.length < 2) :
    url_decode_loop (n + 1) (c :: p) = unescaped c :: url_decode_loop n p := by
  by_cases hpercent : c = chr '%'
  · rw [hpercent, url_decode_loop_percent_short n (hc hpercent)]
    rfl
  · by_cases hplus : c = chr '+'
    · rw [hplus, url_decode_loop_plus]
      rfl
    · rw [url_decode_loop_literal n hpercent hplus, unescaped, if_neg hplus]

/-- A URL read as the decoder reads it: escape by escape, and byte by byte in between. -/
@[elab_as_elim]
theorem url_induction {motive : List u8 → Prop} (nil : motive [])
    (escape : ∀ c1 c2 rest, motive rest → motive (chr '%' :: c1 :: c2 :: rest))
    (plain : ∀ c p, (c = chr '%' → p.length < 2) → motive p → motive (c :: p)) :
    ∀ url, motive url := by
  intro url
  induction hn : url.length using Nat.strongRecOn generalizing url with
  | ind n ih =>
      cases url with
      | nil => exact nil
      | cons c p =>
          rw [List.length_cons] at hn
          by_cases hc : c = chr '%' → p.length < 2
          · exact plain c p hc (ih p.length (by omega) p rfl)
          · obtain ⟨rfl, hp⟩ := Classical.not_imp.mp hc
            match p, hp with
            | [], hp => exact absurd (by simp) hp
            | [_], hp => exact absurd (by simp) hp
            | c1 :: c2 :: rest, _ =>
                simp only [List.length_cons] at hn
                exact escape c1 c2 rest (ih rest.length (by omega) rest rfl)

/-! ## The decoder without its buffer -/

/-- What the decoding loop makes of a text when the buffer does not stop it. -/
def decoded (s : List u8) : List u8 := url_decode_loop s.length s

theorem url_decode_loop_length_le_text (n : ℕ) : ∀ s : List u8,
    (url_decode_loop n s).length ≤ s.length := by
  induction n with
  | zero => simp
  | succ n ih =>
      intro s
      cases s with
      | nil => simp
      | cons c p =>
          have hdrop : (url_decode_loop n (p.drop 2)).length ≤ p.length := by
            have h := ih (p.drop 2)
            rw [List.length_drop] at h
            omega
          rw [url_decode_loop]
          split_ifs <;> simp only [List.length_cons] <;> apply Nat.succ_le_succ
          · exact hdrop
          · exact ih p
          · exact ih p
          · exact ih p

/-- A smaller buffer cuts the text and changes nothing in front of the cut. -/
theorem url_decode_loop_take {n : ℕ} : ∀ {m : ℕ} (s : List u8), n ≤ m →
    url_decode_loop n s = (url_decode_loop m s).take n := by
  induction n with
  | zero => simp
  | succ n ih =>
      intro m s hm
      obtain ⟨m, rfl⟩ : ∃ k, m = k + 1 := ⟨m - 1, by omega⟩
      cases s with
      | nil => simp
      | cons c p =>
          have hm' : n ≤ m := by omega
          rw [url_decode_loop, url_decode_loop, ih (p.drop 2) hm', ih p hm']
          split_ifs <;> rw [List.take_succ_cons]

theorem url_decode_loop_of_le {n : ℕ} {s : List u8} (h : s.length ≤ n) :
    url_decode_loop n s = decoded s := by
  rw [decoded, url_decode_loop_take s h,
    List.take_of_length_le (url_decode_loop_length_le_text n s)]

/-- **The buffer only cuts.** -/
theorem url_decode_loop_eq (n : ℕ) (s : List u8) : url_decode_loop n s = (decoded s).take n := by
  rcases Nat.le_total n s.length with h | h
  · exact url_decode_loop_take s h
  · have hlen : (decoded s).length ≤ n := (url_decode_loop_length_le_text _ s).trans h
    rw [url_decode_loop_of_le h, List.take_of_length_le hlen]

@[simp] theorem decoded_nil : decoded [] = [] := rfl

theorem decoded_length_le (s : List u8) : (decoded s).length ≤ s.length :=
  url_decode_loop_length_le_text _ s

theorem decoded_escape {c1 c2 : u8} (h1 : c1 ≠ 0) (h2 : c2 ≠ 0) (rest : List u8) :
    decoded (chr '%' :: c1 :: c2 :: rest) = escaped c1 c2 :: decoded rest := by
  rw [decoded, List.length_cons, url_decode_loop_escape _ h1 h2,
    url_decode_loop_of_le (by simp only [List.length_cons]; omega)]

theorem decoded_plain {c : u8} {p : List u8} (hc : c = chr '%' → p.length < 2) :
    decoded (c :: p) = unescaped c :: decoded p :=
  url_decode_loop_plain _ hc

theorem decoded_literal {c : u8} (hc : c ≠ chr '%') (hc' : c ≠ chr '+') (p : List u8) :
    decoded (c :: p) = c :: decoded p :=
  url_decode_loop_literal _ hc hc' p

theorem escaped_toNat (c1 c2 : u8) :
    ((escaped c1 c2).toNat : ℤ) = hex_digit c1 * 16 + hex_digit c2 := by
  have h := hex_val_bounds c1 c2
  show ((UInt8.ofNat (hex_val c1 c2).toNat).toNat : ℤ) = hex_val c1 c2
  rw [UInt8.toNat_ofNat', Nat.mod_eq_of_lt (by omega)]
  omega

/-- What a byte that opens no escape decodes to is not a NUL. -/
theorem unescaped_ne_zero {c : u8} (hc : c ≠ 0) : unescaped c ≠ 0 := by
  unfold unescaped
  split_ifs
  · decide
  · exact hc

/-! ## The safety check -/

/-- The dot scan finds exactly the stretches of two adjacent dots. -/
theorem has_dot_dot_iff (p : List u8) :
    has_dot_dot p = true ↔ [chr '.', chr '.'] <:+: p := by
  induction p with
  | nil => simp [has_dot_dot]
  | cons c p ih =>
      rw [has_dot_dot, Bool.or_eq_true, ih, List.infix_cons_iff]
      refine or_congr ?_ Iff.rfl
      rw [Bool.and_eq_true, beq_iff_eq, beq_iff_eq, List.cons_prefix_cons, eq_comm]
      apply and_congr Iff.rfl
      cases p with
      | nil => simp
      | cons d p => rw [List.headD_cons, List.cons_prefix_cons, eq_comm]; simp

/-- A slash keeps the dots of its two sides apart. -/
theorem has_dot_dot_slash (w n : List u8) :
    has_dot_dot (w ++ chr '/' :: n) = (has_dot_dot w || has_dot_dot n) := by
  induction w with
  | nil => rfl
  | cons c w ih =>
      have hhead : ((w ++ chr '/' :: n).headD 0 == chr '.') = (w.headD 0 == chr '.') := by
        cases w with
        | nil => rfl
        | cons d w => rfl
      rw [List.cons_append, has_dot_dot, has_dot_dot, ih, hhead, Bool.or_assoc]

/-- A path that passes has no two adjacent dots. -/
theorem no_dot_dot_of_safe {path : List u8} (h : is_safe_path path = true) :
    ¬ [chr '.', chr '.'] <:+: cstr path := by
  intro hdots
  rw [is_safe_path, if_pos ((has_dot_dot_iff _).mpr hdots)] at h
  exact absurd h (by simp)

/-- The characters of the last loop of `is_safe_path`. -/
def is_invalid (c : u8) : Prop :=
  c = chr '<' ∨ c = chr '>' ∨ c = chr '|' ∨ c = chr '"' ∨ c = chr '*' ∨ c = chr '?'

/-- The three tests of `is_safe_path`. -/
theorem is_safe_path_iff {path : List u8} (h0 : 0 ∉ path) :
    is_safe_path path = true ↔ has_dot_dot path = false
      ∧ ¬ (path.headD 0 = chr '\\' ∨ (path.getD 1 0 = chr ':' ∧ path.headD 0 ≠ 0))
      ∧ ∀ c ∈ path, ¬ is_invalid c := by
  unfold is_safe_path is_invalid
  rw [cstr_of_no_nul h0]
  dsimp only
  split_ifs with h1 h2 h3
  · simp [h1]
  · exact iff_of_false (by simp) (fun h => h.2.1 h2)
  · obtain ⟨c, hc, hbad⟩ := List.any_eq_true.mp h3
    refine iff_of_false (by simp) (fun h => h.2.2 c hc ?_)
    simpa only [Bool.or_eq_true, beq_iff_eq, or_assoc] using hbad
  · refine iff_of_true rfl ⟨by simpa using h1, h2, fun c hc hbad => h3 ?_⟩
    refine List.any_eq_true.mpr ⟨c, hc, ?_⟩
    simpa only [Bool.or_eq_true, beq_iff_eq, or_assoc] using hbad

/-! ## Resolution -/

/-- When resolution succeeds, and what it then leaves in `full_path`. -/
theorem resolve_file_path_eq_zero_iff (document_root url_path : List u8) (size : u32) :
    (resolve_file_path document_root url_path size).1 = 0 ↔
      size ≠ 0 ∧ is_safe_path (clean_url_path url_path) = true
        ∧ ((wsprintf (full_path_text document_root (clean_url_path url_path))).length : ℤ)
          < toInt32 size := by
  unfold resolve_file_path
  by_cases h0 : size = 0
  · simp [h0]
  · rw [if_neg h0]
    rcases hs : is_safe_path (clean_url_path url_path) with _ | _
    · simp [hs]
    · simp only [hs, Bool.true_eq_false, if_false]
      by_cases hlen : ((wsprintf (full_path_text document_root
          (clean_url_path url_path))).length : ℤ) ≥ toInt32 size
      · rw [if_pos hlen]
        have hne : ¬ (-1 : ℤ) = 0 := by decide
        exact ⟨fun h => absurd h hne, fun h => absurd h.2.2 (not_lt.mpr hlen)⟩
      · rw [if_neg hlen]
        exact ⟨fun _ => ⟨h0, trivial, not_le.mp hlen⟩, fun _ => rfl⟩

/-- A path that passes the check and fits is resolved. -/
theorem resolve_file_path_of_fits {document_root url_path : List u8}
    (hsafe : is_safe_path (clean_url_path url_path) = true)
    (hfits : (full_path_text document_root (clean_url_path url_path)).length < MAX_PATH) :
    (resolve_file_path document_root url_path 260).1 = 0 := by
  have hmax : MAX_PATH = 260 := rfl
  rw [resolve_file_path_eq_zero_iff, wsprintf_of_lt (by omega), toInt32_of_lt (by decide)]
  refine ⟨by decide, hsafe, ?_⟩
  show ((full_path_text document_root (clean_url_path url_path)).length : ℤ) < 260
  omega

theorem resolve_file_path_full_path {document_root url_path : List u8} {size : u32}
    (h : (resolve_file_path document_root url_path size).1 = 0) :
    (resolve_file_path document_root url_path size).2
      = wsprintf (full_path_text document_root (clean_url_path url_path)) ++ [0] := by
  obtain ⟨h0, hs, hlen⟩ := (resolve_file_path_eq_zero_iff _ _ _).mp h
  have hlen' : ¬ ((wsprintf (full_path_text document_root
      (clean_url_path url_path))).length : ℤ) ≥ toInt32 size := by omega
  rw [resolve_file_path, if_neg h0, if_neg (by simp [hs]), if_neg hlen']

/-- The path as a C string is the text that was formatted. The bound on the buffer keeps
`wsprintf` from cutting it. -/
theorem resolve_file_path_text {document_root url_path : List u8} {path_buffer_size : u32}
    (hsize : path_buffer_size.toNat < 1024)
    (h : (resolve_file_path document_root url_path path_buffer_size).1 = 0) :
    cstr (resolve_file_path document_root url_path path_buffer_size).2
      = full_path_text document_root (clean_url_path url_path) := by
  obtain ⟨-, -, hlen⟩ := (resolve_file_path_eq_zero_iff _ _ _).mp h
  set clean := clean_url_path url_path with hclean
  -- the text was written whole
  have hwhole : wsprintf (full_path_text document_root clean) = full_path_text document_root clean := by
    apply wsprintf_of_lt
    rw [toInt32_of_lt (by omega), wsprintf, List.length_take] at hlen
    omega
  have hnul : 0 ∉ full_path_text document_root clean := by
    intro h0
    rcases List.mem_append.mp h0 with h0 | h0
    · exact cstr_no_nul _ h0
    · rcases List.mem_cons.mp h0 with h0 | h0
      · exact absurd h0 (by decide)
      · by_cases hnil : clean = []
        · rw [if_pos hnil] at h0
          exact absurd h0 (by decide)
        · rw [if_neg hnil] at h0
          exact cstr_no_nul _ h0
  rw [resolve_file_path_full_path h, ← hclean, hwhole, cstr_append_nul, cstr_of_no_nul hnul]

/-- `clean_url_path++` in front of a slash. -/
def skip_slash (p : List u8) : List u8 := if p.headD 0 = chr '/' then p.tail else p

/-- The clean path is the decoded C string, cut at 259 bytes, behind its slash. -/
theorem clean_url_path_eq (url_path : List u8) :
    clean_url_path url_path = skip_slash ((cstr (decoded (cstr url_path))).take 259) := by
  have hdec : url_decode url_path MAX_PATH = (decoded (cstr url_path)).take 259 ++ [0] := by
    rw [← url_decode_loop_eq]
    rfl
  have htake : (cstr (decoded (cstr url_path))).take 259
      = cstr ((decoded (cstr url_path)).take 259) := List.take_takeWhile
  unfold clean_url_path skip_slash
  rw [hdec, htake]
  dsimp only
  cases (decoded (cstr url_path)).take 259 with
  | nil => decide
  | cons c p =>
      by_cases hc : c = chr '/'
      · have hslash : cstr (c :: p) = c :: cstr p := by
          rw [cstr_cons_of_ne (by rw [hc]; decide)]
        rw [hslash, List.cons_append, List.headD_cons, if_pos hc, List.headD_cons, if_pos hc,
          List.tail_cons, List.tail_cons, cstr_append_nul]
      · have hhead : (cstr (c :: p)).headD 0 ≠ chr '/' := by
          rw [cstr_cons]
          split_ifs
          · decide
          · exact hc
        rw [if_neg hhead, List.cons_append, List.headD_cons, if_neg hc, ← List.cons_append,
          cstr_append_nul]

/-- The path separators of the file system. -/
def is_separator (c : u8) : Bool := c == chr '/' || c == chr '\\'

/-- The components of a path after lexical normalisation. -/
abbrev components (path : List u8) : List (List u8) := normalise is_separator (chr '.') path

/-- **Path containment.** What `resolve_file_path` accepts stays under the document root.
The bound on the buffer keeps `wsprintf` from cutting the text; the one caller passes
`MAX_PATH`. -/
theorem resolve_file_path_contained (document_root url_path : List u8) (path_buffer_size : u32)
    (hsize : path_buffer_size.toNat < 1024)
    (h : (resolve_file_path document_root url_path path_buffer_size).1 = 0) :
    components (cstr document_root)
      <+: components (cstr (resolve_file_path document_root url_path path_buffer_size).2) := by
  obtain ⟨-, hsafe, -⟩ := (resolve_file_path_eq_zero_iff _ _ _).mp h
  rw [resolve_file_path_text hsize h]
  set clean := clean_url_path url_path with hclean
  apply normalise_root_isPrefix _ (by decide)
  by_cases hnil : clean = []
  · rw [if_pos hnil]
    decide
  · rw [if_neg hnil]
    have hdots := no_dot_dot_of_safe hsafe
    rwa [hclean, clean_url_path, cstr_cstr] at hdots

/-- A path with an encoded slash and a `.` component, resolved below `C:\www`. -/
theorem resolve_file_path_contained_encoded :
    components (cstr (ascii "C:\\www")) <+:
      components (cstr (resolve_file_path (ascii "C:\\www") (ascii "/./a%2fb%5C.c") 260).2) :=
  resolve_file_path_contained _ _ _ (by decide) (by decide)

/-! ## The output buffer

The length test comes behind the write, so the buffer holds what is written only when the
text fits it in the first place. -/

/-- The name looked up below the document root, for a URL the decoder's buffer holds. -/
def clean_name (url_path : List u8) : List u8 := skip_slash (cstr (decoded (cstr url_path)))

theorem clean_url_path_of_le {url_path : List u8} (h : (cstr url_path).length ≤ 259) :
    clean_url_path url_path = clean_name url_path := by
  have hlen : (cstr (decoded (cstr url_path))).length ≤ 259 :=
    ((cstr_length_le _).trans (decoded_length_le _)).trans h
  rw [clean_url_path_eq, List.take_of_length_le hlen, clean_name]

theorem clean_name_length_le (url_path : List u8) :
    (clean_name url_path).length ≤ (cstr url_path).length := by
  have hlen : (cstr (decoded (cstr url_path))).length ≤ (cstr url_path).length :=
    (cstr_length_le _).trans (decoded_length_le _)
  unfold clean_name skip_slash
  split_ifs
  · rw [List.length_tail]
    omega
  · exact hlen

/-- How many characters `"%s\\%s"` makes of the two texts. -/
def full_path_length (document_root name : List u8) : ℕ :=
  (cstr document_root).length + 1 + if name = [] then 10 else name.length

theorem full_path_text_length (document_root name : List u8) :
    (full_path_text document_root name).length = full_path_length document_root name := by
  rw [full_path_text, full_path_length, List.length_append, List.length_cons,
    apply_ite List.length]
  have hindex : (ascii "index.html").length = 10 := rfl
  rw [hindex]
  omega

/-- A name that passes the check is written whole, with its terminator. -/
theorem resolve_file_path_written {document_root url_path : List u8}
    (hroot : (cstr document_root).length ≤ 259) (hurl : (cstr url_path).length ≤ 259)
    (hsafe : is_safe_path (clean_name url_path) = true) {path_buffer_size : u32}
    (hsize : path_buffer_size ≠ 0) :
    (resolve_file_path document_root url_path path_buffer_size).2.length
      = full_path_length document_root (clean_name url_path) + 1 := by
  have hname := clean_name_length_le url_path
  have htext := full_path_text_length document_root (clean_name url_path)
  have hlt : (full_path_text document_root (clean_name url_path)).length < 1024 := by
    rw [htext, full_path_length]
    split_ifs <;> omega
  unfold resolve_file_path
  rw [if_neg hsize, clean_url_path_of_le hurl]
  dsimp only
  rw [if_neg (by simp [hsafe]), wsprintf_of_lt hlt]
  -- both returns leave the same bytes
  split_ifs <;> rw [List.length_append, htext, List.length_singleton]

/-- **The buffer is respected** exactly when nothing is written, or the text leaves room for
its terminator. -/
theorem resolve_file_path_within_iff {document_root url_path : List u8}
    (hroot : (cstr document_root).length ≤ 259) (hurl : (cstr url_path).length ≤ 259)
    {path_buffer_size : u32} (hsize : 1 ≤ path_buffer_size.toNat) :
    (resolve_file_path document_root url_path path_buffer_size).2.length
        ≤ path_buffer_size.toNat
      ↔ is_safe_path (clean_name url_path) = false
        ∨ full_path_length document_root (clean_name url_path) < path_buffer_size.toNat := by
  have hne : path_buffer_size ≠ 0 := by
    rintro rfl
    exact absurd hsize (by decide)
  rcases hsafe : is_safe_path (clean_name url_path) with _ | _
  · have hnothing : (resolve_file_path document_root url_path path_buffer_size).2 = [] := by
      unfold resolve_file_path
      rw [if_neg hne, clean_url_path_of_le hurl]
      exact congrArg Prod.snd (if_pos hsafe)
    rw [hnothing]
    exact iff_of_true (Nat.zero_le _) (Or.inl rfl)
  · rw [resolve_file_path_written hroot hurl hsafe hne]
    constructor
    · exact fun h => Or.inr h
    · rintro (h | h)
      · exact absurd h (by decide)
      · exact h

/-- A short root leaves room for any name the caller's buffer can hold. -/
theorem resolve_file_path_within_index :
    (resolve_file_path (ascii "C:\\www") (ascii "/a%20b/") 260).2.length ≤ (260 : u32).toNat :=
  (resolve_file_path_within_iff (by decide) (by decide) (by decide)).mpr (Or.inr (by decide))

/-- A root of 250 characters and the path `/`: the text and its NUL take 262 bytes. -/
theorem not_resolve_file_path_within :
    ¬ ∀ (document_root url_path : List u8) (path_buffer_size : u32),
      (cstr document_root).length ≤ 259 → (cstr url_path).length ≤ 259 →
      1 ≤ path_buffer_size.toNat →
      (resolve_file_path document_root url_path path_buffer_size).2.length
        ≤ path_buffer_size.toNat := by
  intro h
  have hnul : 0 ∉ List.replicate 250 (chr 'a') :=
    fun h0 => absurd (List.eq_of_mem_replicate h0) (by decide)
  have hlen : (cstr (List.replicate 250 (chr 'a'))).length = 250 := by
    rw [cstr_of_no_nul hnul, List.length_replicate]
  have hroot : (cstr (List.replicate 250 (chr 'a'))).length ≤ 259 := by omega
  have hwithin := h (List.replicate 250 (chr 'a')) (ascii "/") 260 hroot (by decide) (by decide)
  rw [resolve_file_path_written hroot (by decide) (by decide) (by decide), full_path_length,
    hlen] at hwithin
  exact absurd hwithin (by decide)

end W32HttpServer.HttpPath

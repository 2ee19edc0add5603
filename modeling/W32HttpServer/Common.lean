/-
The C layer every other file stands on: bytes, C strings, the fixed buffers that
hold them, and `wsprintf`.

A `const char *` is modelled by the bytes found from that pointer on, as a `List u8`.
What a C function sees of them is `cstr`: everything before the first NUL. A list
that ends without a NUL is read as if the terminator stood right behind it, so
`cstr (s ++ [0])` and `cstr s` agree and a reader never has to say which of the two
a caller passed.

A `char buf[n]` that holds a NUL-terminated string is a `CString n`, and the bound is
a field: a `dir_url` longer than its 260-byte array cannot be written down. Where the
source writes past an array the model keeps the whole text, and the length of that
text is what a statement about the overflow talks about.

`wsprintf` stores at most 1024 bytes, terminator included, which is its documented
limit; a text cut by it has 1023 characters.
-/
import Mathlib.Data.List.Basic
import Mathlib.Data.List.Infix
import Mathlib.Data.List.TakeWhile
import Mathlib.Data.Nat.Digits.Defs
import Mathlib.Data.UInt
import Mathlib.Tactic.Common

set_option autoImplicit false

namespace W32HttpServer.Common

abbrev u8 := UInt8
abbrev u32 := UInt32

/-- `MAX_PATH` of the Windows headers. -/
abbrev MAX_PATH : ℕ := 260

/-- `HTTP_SEND_BUFFER_SIZE` of server.h. -/
abbrev HTTP_SEND_BUFFER_SIZE : ℕ := 8192

/-- The bytes of a character constant of the source. -/
abbrev chr (c : Char) : u8 := UInt8.ofNat c.toNat

/-- The bytes of a string literal of the source, without its terminator. -/
def ascii (s : String) : List u8 := s.toList.map chr

/-- A property of all bytes of a text, by running through the text. -/
theorem forall_mem_of_all {p : u8 → Prop} [DecidablePred p] {s : List u8}
    (h : (s.all fun c => decide (p c)) = true) : ∀ c ∈ s, p c := by
  intro c hc
  exact of_decide_eq_true (List.all_eq_true.mp h c hc)

/-! ## C strings -/

/-- The C string a pointer designates: the bytes before the first NUL. -/
def cstr (mem : List u8) : List u8 := mem.takeWhile (· ≠ 0)

@[simp] theorem cstr_nil : cstr [] = [] := rfl

theorem cstr_cons (c : u8) (s : List u8) :
    cstr (c :: s) = if c = 0 then [] else c :: cstr s := by
  by_cases h : c = 0
  · simp [cstr, h]
  · simp [cstr, h]

theorem cstr_cons_of_ne {c : u8} (hc : c ≠ 0) (s : List u8) : cstr (c :: s) = c :: cstr s := by
  rw [cstr_cons, if_neg hc]

@[simp] theorem cstr_zero_cons (s : List u8) : cstr (0 :: s) = [] := by
  rw [cstr_cons, if_pos rfl]

/-- A C string holds no NUL. -/
theorem cstr_no_nul (s : List u8) : 0 ∉ cstr s := by
  intro h
  have := List.mem_takeWhile_imp h
  simp at this

theorem cstr_length_le (s : List u8) : (cstr s).length ≤ s.length :=
  (List.takeWhile_prefix _).length_le

/-- Bytes without a NUL are a C string as they stand. -/
theorem cstr_of_no_nul {s : List u8} (h : 0 ∉ s) : cstr s = s := by
  rw [cstr, List.takeWhile_eq_self_iff]
  intro c hc
  have hne : c ≠ 0 := fun h0 => h (h0 ▸ hc)
  simpa using hne

@[simp] theorem cstr_cstr (s : List u8) : cstr (cstr s) = cstr s :=
  cstr_of_no_nul (cstr_no_nul s)

/-- NUL-free bytes in front are read whole. -/
theorem cstr_append {s : List u8} (h : 0 ∉ s) (t : List u8) : cstr (s ++ t) = s ++ cstr t := by
  induction s with
  | nil => rfl
  | cons c s ih =>
      have hc : c ≠ 0 := fun h0 => h (h0 ▸ List.mem_cons_self)
      have hs : 0 ∉ s := fun hm => h (List.mem_cons_of_mem _ hm)
      rw [List.cons_append, cstr_cons_of_ne hc, ih hs, List.cons_append]

/-- The terminator a buffer ends with is not part of its string. -/
@[simp] theorem cstr_append_nul (s : List u8) : cstr (s ++ [0]) = cstr s := by
  induction s with
  | nil => simp
  | cons c s ih => rw [List.cons_append, cstr_cons, cstr_cons, ih]

theorem mem_of_mem_cstr {s : List u8} {c : u8} (h : c ∈ cstr s) : c ∈ s :=
  (List.takeWhile_prefix _).subset h

def tolower (c : u8) : u8 := if chr 'A' ≤ c ∧ c ≤ chr 'Z' then c + 32 else c

/-- Only a small letter is the lower case of another byte. -/
theorem tolower_eq_iff {c d : u8} (hd : tolower d = d) (hlow : d.toNat < 97) :
    tolower c = d ↔ c = d := by
  constructor
  · intro h
    unfold tolower at h
    split_ifs at h with hcap
    · have h1 := UInt8.le_iff_toNat_le.mp hcap.1
      have h2 := UInt8.le_iff_toNat_le.mp hcap.2
      have hA : (chr 'A').toNat = 65 := rfl
      have hZ : (chr 'Z').toNat = 90 := rfl
      have hnat := congrArg UInt8.toNat h
      have hsum : (c + 32).toNat = c.toNat + 32 := by
        rw [UInt8.toNat_add]
        exact Nat.mod_eq_of_lt (by show c.toNat + 32 < 256; omega)
      omega
    · exact h
  · rintro rfl
    exact hd

/-- `lstrcmp(s1, s2) == 0`. -/
def lstrcmp (s1 s2 : List u8) : Bool := cstr s1 == cstr s2

/-- `lstrcmpi(s1, s2) == 0`. -/
def lstrcmpi (s1 s2 : List u8) : Bool := (cstr s1).map tolower == (cstr s2).map tolower

/-- A `char [n]` array that holds a NUL-terminated string. -/
structure CString (n : ℕ) where
  bytes : List u8
  no_nul : 0 ∉ bytes
  fits : bytes.length < n
  deriving DecidableEq

/-- `lstrcpyn(dst, src, n)` into a `char dst[n]`: at most `n - 1` bytes of the source. -/
def lstrcpyn (n : ℕ) (hn : 0 < n) (src : List u8) : CString n where
  bytes := (cstr src).take (n - 1)
  no_nul := fun h => cstr_no_nul src (List.mem_of_mem_take h)
  fits := by rw [List.length_take]; omega

/-- A source that fits is copied whole. -/
theorem lstrcpyn_bytes {n : ℕ} (hn : 0 < n) {src : List u8} (h : (cstr src).length < n) :
    (lstrcpyn n hn src).bytes = cstr src :=
  List.take_of_length_le (by omega)

/-! ## Buffers -/

/-- Bytes stored into a buffer from index `i` on. -/
def write_at (buf : List u8) (i : ℕ) (bytes : List u8) : List u8 :=
  buf.take i ++ bytes ++ buf.drop (i + bytes.length)

theorem write_at_eq {buf got : List u8} (h : got <+: buf) (bytes : List u8) :
    write_at buf got.length bytes = got ++ bytes ++ buf.drop (got.length + bytes.length) := by
  rw [write_at, List.prefix_iff_eq_take.mp h, List.length_take, min_eq_left h.length_le]

theorem write_at_length {buf : List u8} {i : ℕ} {bytes : List u8}
    (h : i + bytes.length ≤ buf.length) : (write_at buf i bytes).length = buf.length := by
  rw [write_at, List.length_append, List.length_append, List.length_take, List.length_drop]
  omega

/-! ## Formatted output -/

/-- The characters `wsprintf` stores for a formatted text, without the terminator. -/
def wsprintf (text : List u8) : List u8 := text.take 1023

theorem wsprintf_length_le (text : List u8) : (wsprintf text).length ≤ 1023 := by
  rw [wsprintf, List.length_take]; omega

/-- Below the 1024-byte limit nothing is cut off. -/
theorem wsprintf_of_lt {text : List u8} (h : text.length < 1024) : wsprintf text = text :=
  List.take_of_length_le (by omega)

/-- The `%u` conversion. -/
def fmt_u (n : ℕ) : List u8 := (Nat.toDigits 10 n).map chr

/-- The `%d` conversion. -/
def fmt_d (i : ℤ) : List u8 :=
  if i < 0 then chr '-' :: fmt_u i.natAbs else fmt_u i.natAbs

/-- A `u32` prints in at most ten digits. -/
theorem fmt_u_length_le (n : u32) : (fmt_u n.toNat).length ≤ 10 := by
  have hn : n.toNat < 10 ^ 10 := lt_trans n.toNat_lt (by norm_num)
  rw [fmt_u, List.length_map]
  exact Nat.toDigits_length 10 n.toNat 10 (by norm_num) hn

/-- A number prints in at most `k` digits when it is below the `k`-th power of ten. -/
theorem fmt_u_length_le_iff {n k : ℕ} (hk : 0 < k) : (fmt_u n).length ≤ k ↔ n < 10 ^ k := by
  rw [fmt_u, List.length_map]
  exact Nat.length_toDigits_le_iff (by decide) hk

def is_digit (c : u8) : Bool := chr '0' ≤ c && c ≤ chr '9'

/-- The number some digits write. -/
def number (digits : List u8) : ℕ :=
  Nat.ofDigitChars 10 (digits.map fun c => Char.ofNat c.toNat) 0

/-- The characters of a printed number are those of its digits, byte for byte. -/
theorem digit_byte {n : ℕ} {c : Char} (hc : c ∈ Nat.toDigits 10 n) :
    48 ≤ c.toNat ∧ c.toNat ≤ 57 ∧ (chr c).toNat = c.toNat := by
  have hdigit := Char.isDigit_iff_toNat.mp
    (Nat.isDigit_of_mem_toDigits (by decide) (by decide) hc)
  have hlow : 48 ≤ c.toNat := hdigit.1
  have hhigh : c.toNat ≤ 57 := hdigit.2
  refine ⟨hlow, hhigh, ?_⟩
  rw [UInt8.toNat_ofNat', Nat.mod_eq_of_lt (by omega)]

theorem is_digit_of_mem_fmt_u {n : ℕ} {b : u8} (hb : b ∈ fmt_u n) : is_digit b = true := by
  obtain ⟨c, hc, rfl⟩ := List.mem_map.mp hb
  obtain ⟨hlow, hhigh, hbyte⟩ := digit_byte hc
  rw [is_digit, Bool.and_eq_true, decide_eq_true_eq, decide_eq_true_eq, UInt8.le_iff_toNat_le,
    UInt8.le_iff_toNat_le, hbyte]
  exact ⟨hlow, hhigh⟩

/-- **A printed number is read back.** -/
theorem number_fmt_u (n : ℕ) : number (fmt_u n) = n := by
  have hback : ((Nat.toDigits 10 n).map chr).map (fun c => Char.ofNat c.toNat)
      = Nat.toDigits 10 n := by
    rw [List.map_map]
    refine (List.map_congr_left fun c hc => ?_).trans (List.map_id _)
    obtain ⟨-, -, hbyte⟩ := digit_byte hc
    show Char.ofNat (chr c).toNat = c
    rw [hbyte, Char.ofNat_toNat]
  rw [number, fmt_u, hback, Nat.ofDigitChars_ten_toDigits]

/-! ## Machine arithmetic -/

/-- `a - b` on unsigned 32-bit operands. -/
def sub_u32 (a b : ℕ) : ℕ := (2 ^ 32 + a - b) % 2 ^ 32

theorem sub_u32_of_le {a b : ℕ} (hba : b ≤ a) (ha : a < 2 ^ 32) : sub_u32 a b = a - b := by
  unfold sub_u32
  have h : 2 ^ 32 + a - b = (a - b) + 2 ^ 32 := by omega
  rw [h, Nat.add_mod_right, Nat.mod_eq_of_lt (by omega)]

/-- The cast `(int)x` of an unsigned 32-bit value. -/
def toInt32 (x : u32) : ℤ := x.toBitVec.toInt

theorem toInt32_of_lt {x : u32} (h : x.toNat < 2 ^ 31) : toInt32 x = x.toNat := by
  rw [toInt32, BitVec.toInt_eq_toNat_cond, if_pos]
  · rfl
  · have : x.toBitVec.toNat = x.toNat := rfl
    omega

end W32HttpServer.Common

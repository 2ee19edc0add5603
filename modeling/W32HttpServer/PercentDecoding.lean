/-
`url_decode` of server_http.c against percent encoding itself.

`url` is the encoding as a scheme of its own: '%' and two hexadecimal digits for a byte, '+'
for a space, every other byte for itself, and its decoder keeps a '%' that no two digits
follow. The decoder of the source converts digits without a failure value, so it takes two
bytes of any kind for an escape, and the two agree exactly on the texts in which every '%'
that two more bytes follow has its digits (`decoded_eq_iff_wellMarked`). The bytes a bad
escape is turned into are never the '%' the encoding has there: a bad first digit makes a
control character, a bad second one a multiple of 16.

An encoded text is such a text, so decoding it gives the bytes it was made from, and a
buffer too small for them only cuts (`url_decode_encoded`). What `resolve_file_path` answers is
therefore a matter of the name that was encoded, and of none of its encodings
(`resolve_file_path_exact`).
-/
import W32HttpServer.Common
import W32HttpServer.HttpPath
import W32HttpServer.ClientEscape
import W32HttpServer.Lib.PercentCode

set_option autoImplicit false

namespace W32HttpServer.PercentDecoding

open W32HttpServer.Common W32HttpServer.HttpPath W32HttpServer.ClientEscape
open W32HttpServer.Lib.PercentCode

/-! ## Percent encoding -/

/-- The value of a hexadecimal digit, in either case. -/
def digit_value (c : u8) : Option ℕ :=
  if chr '0' ≤ c ∧ c ≤ chr '9' then some (c.toNat - (chr '0').toNat)
  else if chr 'A' ≤ c ∧ c ≤ chr 'F' then some (c.toNat - (chr 'A').toNat + 10)
  else if chr 'a' ≤ c ∧ c ≤ chr 'f' then some (c.toNat - (chr 'a').toNat + 10)
  else none

/-- The byte two digits stand for. -/
def digits_value (c1 c2 : u8) : Option u8 := do
  let high ← digit_value c1
  let low ← digit_value c2
  some (UInt8.ofNat (16 * high + low))

theorem digit_value_of_hex {c : u8} (h : is_hex c) : digit_value c = some (hex_digit c).toNat := by
  have hc := is_hex_toNat h
  unfold digit_value hex_digit
  split_ifs with h1 h2 h3
  · have hle := UInt8.le_iff_toNat_le.mp h1.1
    have hzero : (chr '0').toNat = 48 := rfl
    rw [hzero] at hle ⊢
    congr 1
    omega
  · have hle := UInt8.le_iff_toNat_le.mp h2.1
    have hA : (chr 'A').toNat = 65 := rfl
    rw [hA] at hle ⊢
    congr 1
    omega
  · have hle := UInt8.le_iff_toNat_le.mp h3.1
    have ha : (chr 'a').toNat = 97 := rfl
    rw [ha] at hle ⊢
    congr 1
    omega
  · exact absurd h (by unfold is_hex; tauto)

theorem digit_value_of_not_hex {c : u8} (h : ¬ is_hex c) : digit_value c = none := by
  unfold is_hex at h
  rw [not_or, not_or] at h
  unfold digit_value
  rw [if_neg h.1, if_neg h.2.1, if_neg h.2.2]

/-- On digits the source computes the same byte. -/
theorem digits_value_eq_some {c1 c2 v : u8} :
    digits_value c1 c2 = some v ↔ Digits v c1 c2 := by
  by_cases h1 : is_hex c1
  · by_cases h2 : is_hex c2
    · have hvalue : digits_value c1 c2 = some (escaped c1 c2) := by
        have hb1 := hex_digit_bounds c1
        have hb2 := hex_digit_bounds c2
        have hsum : 16 * (hex_digit c1).toNat + (hex_digit c2).toNat = (hex_val c1 c2).toNat := by
          rw [hex_val]
          omega
        rw [digits_value, digit_value_of_hex h1, digit_value_of_hex h2, Option.bind_eq_bind,
          Option.bind_some, Option.bind_some, hsum, escaped]
      rw [hvalue, Option.some.injEq]
      exact ⟨fun h => ⟨h1, h2, h⟩, Digits.value⟩
    · rw [digits_value, digit_value_of_hex h1, digit_value_of_not_hex h2]
      exact iff_of_false (by simp) (fun h => h2 h.low)
  · rw [digits_value, digit_value_of_not_hex h1]
    exact iff_of_false (by simp) (fun h => h1 h.high)

/-- Percent encoding as a URL uses it. -/
def url : Scheme u8 where
  mark := chr '%'
  byte := digits_value
  plain c := if c = chr '+' then chr ' ' else c
  digits_ne_mark := by
    intro a b v h
    have hd := digits_value_eq_some.mp h
    exact ⟨ne_of_is_hex hd.high (by decide), ne_of_is_hex hd.low (by decide)⟩

/-! ## Malformed escapes -/

/-- What a bad escape is turned into is not the '%' it starts with. -/
theorem escaped_ne_percent {c1 c2 : u8} (h : digits_value c1 c2 = none) :
    escaped c1 c2 ≠ chr '%' := by
  intro hpercent
  by_cases h1 : is_hex c1
  · by_cases h2 : is_hex c2
    · rw [digits_value_eq_some.mpr ⟨h1, h2, rfl⟩] at h
      exact absurd h (by simp)
    · have hmod := escaped_second c1 h2
      rw [hpercent] at hmod
      exact absurd hmod (by decide)
  · have hlt := escaped_first h1 c2
    rw [hpercent] at hlt
    exact absurd hlt (by decide)

/-- The decoder of the source agrees with percent encoding where every '%' with two more
bytes behind it is an escape, and nowhere else. -/
theorem decoded_eq_iff_wellMarked {s : List u8} (h0 : 0 ∉ s) :
    decoded s = url.decode s ↔ url.WellMarked s := by
  induction s using url_induction with
  | nil => exact iff_of_true rfl Scheme.wellMarked_nil
  | escape c1 c2 rest ih =>
      simp only [List.mem_cons, not_or] at h0
      have hmark : url.mark = chr '%' := rfl
      rw [decoded_escape (Ne.symm h0.2.1) (Ne.symm h0.2.2.1), ← hmark]
      rcases hbyte : digits_value c1 c2 with _ | v
      · rw [Scheme.decode_plain (show url.opens (url.mark :: c1 :: c2 :: rest) = none from hbyte)]
        refine iff_of_false ?_ (Scheme.not_wellMarked hbyte rest)
        rw [List.cons.injEq]
        exact fun h => escaped_ne_percent hbyte h.1
      · have hv : escaped c1 c2 = v := (digits_value_eq_some.mp hbyte).value
        have hurl : url.byte c1 c2 = some v := hbyte
        rw [Scheme.decode_escape hurl, Scheme.wellMarked_escape hurl, hv, List.cons.injEq,
          and_iff_right rfl, ih h0.2.2.2]
  | plain c p hc ih =>
      rw [List.mem_cons, not_or] at h0
      have hopens : url.opens (c :: p) = none := by
        by_cases hpercent : c = chr '%'
        · exact Scheme.opens_of_short (hc hpercent) c
        · exact Scheme.opens_of_ne hpercent p
      have hplain : url.plain c = unescaped c := rfl
      rw [decoded_plain hc, Scheme.decode_plain hopens, Scheme.wellMarked_cons_plain hc, hplain,
        List.cons.injEq, and_iff_right rfl, ih h0.2]

theorem hex_digit_eq_zero {c : u8} (h : is_hex c) (hzero : hex_digit c = 0) : c = chr '0' := by
  have hc := is_hex_toNat h
  unfold hex_digit at hzero
  split_ifs at hzero with h1 h2 h3
  · apply UInt8.toNat_inj.mp
    show c.toNat = 48
    omega
  · have hle := UInt8.le_iff_toNat_le.mp h2.1
    have hA : (chr 'A').toNat = 65 := rfl
    omega
  · have hle := UInt8.le_iff_toNat_le.mp h3.1
    have ha : (chr 'a').toNat = 97 := rfl
    omega
  · exact absurd h (by unfold is_hex; tauto)

/-- Only `%00` decodes to a NUL. -/
theorem nul_not_mem_decode {s : List u8} (h0 : 0 ∉ s)
    (hnul : ¬ [chr '%', chr '0', chr '0'] <:+: s) : 0 ∉ url.decode s := by
  intro h
  rcases Scheme.mem_decode h with ⟨c1, c2, hbyte, hin⟩ | ⟨c, hc, hplain⟩
  · have hd := digits_value_eq_some.mp hbyte
    have hvalue := escaped_toNat c1 c2
    rw [hd.value] at hvalue
    have hb1 := hex_digit_bounds c1
    have hb2 := hex_digit_bounds c2
    have hsum : hex_digit c1 * 16 + hex_digit c2 = 0 := hvalue.symm
    have h1 : c1 = chr '0' := hex_digit_eq_zero hd.high (by omega)
    have h2 : c2 = chr '0' := hex_digit_eq_zero hd.low (by omega)
    rw [h1, h2] at hin
    exact hnul hin
  · have hne : c ≠ 0 := fun hzero => h0 (hzero ▸ hc)
    exact unescaped_ne_zero hne hplain

/-- `url_decode` keeps what is no escape: it writes what `src` stands for, and the string it
leaves is all of that when no escape is for the NUL. -/
structure KeepsMalformed (src : List u8) (dest_size : ℕ) : Prop where
  written : url_decode src dest_size = url.decode (cstr src) ++ [0]
  as_string : ¬ [chr '%', chr '0', chr '0'] <:+: cstr src →
    cstr (url_decode src dest_size) = url.decode (cstr src)

/-- A buffer larger than the source never cuts. -/
theorem url_decode_of_fits {src : List u8} {dest_size : ℕ} (h : (cstr src).length < dest_size) :
    url_decode src dest_size = decoded (cstr src) ++ [0] := by
  rw [url_decode, if_neg (by omega), url_decode_loop_of_le (by omega)]

/-- **Malformed escapes are kept** exactly when there are none: any two bytes behind a '%' are
taken for an escape, and what comes out is never the '%' that should have stayed. -/
theorem keeps_malformed_iff {src : List u8} {dest_size : ℕ}
    (h : (cstr src).length < dest_size) :
    KeepsMalformed src dest_size ↔ url.WellMarked (cstr src) := by
  have hnul := cstr_no_nul src
  rw [← decoded_eq_iff_wellMarked hnul]
  constructor
  · intro hkeeps
    have hwritten := hkeeps.written
    rw [url_decode_of_fits h] at hwritten
    exact List.append_cancel_right hwritten
  · intro heq
    have hwritten : url_decode src dest_size = url.decode (cstr src) ++ [0] := by
      rw [url_decode_of_fits h, heq]
    refine ⟨hwritten, fun hzero => ?_⟩
    rw [hwritten, cstr_append_nul, cstr_of_no_nul (nul_not_mem_decode hnul hzero)]

/-- `%20` and `+` stand for a space, and the '%' at the end for itself. -/
theorem keeps_malformed_spaces : KeepsMalformed (ascii "/a%20b+c%") 260 := by
  refine (keeps_malformed_iff (by decide)).mpr ?_
  exact (decoded_eq_iff_wellMarked (by decide)).mp (by decide)

/-- The source drops the two letters behind the '%' of a name. -/
theorem not_keeps_malformed :
    ¬ ∀ (src : List u8) (dest_size : ℕ), (cstr src).length < dest_size →
      KeepsMalformed src dest_size := by
  intro h
  have hwritten := (h (ascii "/50%off") 260 (by decide)).written
  exact absurd hwritten (by decide)

/-! ## Encoded texts -/

/-- `e` is the text `s` percent-encoded: each byte as itself, as '%' and two digits, or, for
a space, as '+'. -/
inductive UrlEncodes : List u8 → List u8 → Prop
  | nil : UrlEncodes [] []
  | literal {c : u8} (hpercent : c ≠ chr '%') (hplus : c ≠ chr '+') {s e : List u8}
      (rest : UrlEncodes s e) : UrlEncodes (c :: s) (c :: e)
  | escape {c h l : u8} (hdigits : digits_value h l = some c) {s e : List u8}
      (rest : UrlEncodes s e) : UrlEncodes (c :: s) (chr '%' :: h :: l :: e)
  | plus {s e : List u8} (rest : UrlEncodes s e) : UrlEncodes (chr ' ' :: s) (chr '+' :: e)

theorem UrlEncodes.encodes {s e : List u8} (h : UrlEncodes s e) : url.Encodes s e := by
  induction h with
  | nil => exact .nil
  | @literal c hpercent hplus s e rest ih =>
      have hplain : url.plain c = c := if_neg hplus
      have hkeep : url.Encodes (url.plain c :: s) (c :: e) := .plain hpercent ih
      rwa [hplain] at hkeep
  | escape hdigits rest ih => exact .escape hdigits ih
  | plus rest ih => exact .plain (c := chr '+') (by decide) ih

/-- The decoder without its buffer gives the text back. -/
theorem UrlEncodes.decoded_eq {s src : List u8} (h : UrlEncodes s (cstr src)) :
    decoded (cstr src) = s := by
  rw [(decoded_eq_iff_wellMarked (cstr_no_nul src)).mpr h.encodes.wellMarked,
    h.encodes.decode_eq]

/-- **Decoding undoes encoding**, up to what the buffer holds: every text, in any mixture of
escapes, plus signs and plain bytes. The induction is on the encoding. -/
theorem url_decode_encoded {s src : List u8} (h : UrlEncodes s (cstr src)) {dest_size : ℕ}
    (hsize : 1 ≤ dest_size) :
    url_decode src dest_size = s.take (min s.length (dest_size - 1)) ++ [0]
      ∧ (url_decode src dest_size).length ≤ dest_size := by
  have hdecoded := h.decoded_eq
  have hwritten : url_decode src dest_size = s.take (min s.length (dest_size - 1)) ++ [0] := by
    rw [url_decode, if_neg (by omega), url_decode_loop_eq, hdecoded, List.take_eq_take_min,
      min_comm]
  refine ⟨hwritten, ?_⟩
  rw [hwritten, List.length_append, List.length_take, List.length_singleton]
  omega

/-- A buffer of three bytes holds the first two of "a b!". -/
theorem url_decode_encoded_cut :
    url_decode (ascii "%61+b%21") 3 = ascii "a " ++ [0]
      ∧ (url_decode (ascii "%61+b%21") 3).length ≤ 3 := by
  have hencodes : UrlEncodes (ascii "a b!") (cstr (ascii "%61+b%21")) :=
    .escape (by decide) (.plus (.literal (by decide) (by decide) (.escape (by decide) .nil)))
  exact url_decode_encoded hencodes (by decide)

/-! ## Resolving an encoded path -/

/-- The names that may be looked up below the document root. -/
structure Acceptable (r : List u8) : Prop where
  no_dots : ¬ [chr '.', chr '.'] <:+: r
  no_backslash : r.headD 0 ≠ chr '\\'
  no_drive : r.getD 1 0 ≠ chr ':'
  no_invalid : ∀ c ∈ r, ¬ is_invalid c

theorem is_safe_path_iff_acceptable {r : List u8} (hr : 0 ∉ r) :
    is_safe_path r = true ↔ Acceptable r := by
  rw [is_safe_path_iff hr]
  constructor
  · rintro ⟨hdots, habsolute, hinvalid⟩
    rw [not_or] at habsolute
    refine ⟨?_, habsolute.1, fun hcolon => habsolute.2 ⟨hcolon, ?_⟩, hinvalid⟩
    · rw [← has_dot_dot_iff, hdots]
      decide
    · -- a text with a second character has a first one
      cases r with
      | nil => exact absurd hcolon (by decide)
      | cons c p => exact fun h0 => hr (h0 ▸ List.mem_cons_self)
  · intro h
    refine ⟨?_, ?_, h.no_invalid⟩
    · rw [← Bool.not_eq_true, has_dot_dot_iff]
      exact h.no_dots
    · rw [not_or]
      exact ⟨h.no_backslash, fun hdrive => h.no_drive hdrive.1⟩

/-- The name behind the slash is what was encoded. -/
theorem clean_name_of_encodes {r e : List u8} (hr : 0 ∉ r)
    (he : UrlEncodes (chr '/' :: r) (cstr e)) : clean_name e = r := by
  have hnul : 0 ∉ chr '/' :: r := by
    rw [List.mem_cons, not_or]
    exact ⟨by decide, hr⟩
  rw [clean_name, he.decoded_eq, cstr_of_no_nul hnul, skip_slash, List.headD_cons, if_pos rfl,
    List.tail_cons]

/-- What resolution does with a name, whatever URL it was sent as. -/
theorem resolve_file_path_of_name {document_root e : List u8} (hlen : (cstr e).length ≤ 259)
    (hfits : full_path_length document_root (clean_name e) < 260) :
    resolve_file_path document_root e 260
      = if is_safe_path (clean_name e) = true
        then (0, full_path_text document_root (clean_name e) ++ [0]) else (-1, []) := by
  have htext := full_path_text_length document_root (clean_name e)
  have hsize : toInt32 260 = 260 := by decide
  rw [resolve_file_path, if_neg (by decide), clean_url_path_of_le hlen, hsize]
  dsimp only
  rw [wsprintf_of_lt (by omega)]
  by_cases hsafe : is_safe_path (clean_name e) = true
  · rw [if_neg (by rw [hsafe]; decide), if_neg (by omega), if_pos hsafe]
  · rw [if_pos (by simpa using hsafe), if_neg hsafe]

/-- **Resolution is exact.** A name that may be served is accepted and gives its path, a name that
may not is refused, and which of its encodings was sent makes no difference. -/
theorem resolve_file_path_exact {document_root r e : List u8} (hr : 0 ∉ r)
    (he : UrlEncodes (chr '/' :: r) (cstr e)) (hlen : (cstr e).length ≤ 259)
    (hfits : (cstr document_root).length + 1 + (if r = [] then 10 else r.length) < 260) :
    ((resolve_file_path document_root e 260).1 = 0 ↔ Acceptable r)
      ∧ ((resolve_file_path document_root e 260).1 = 0 →
        (resolve_file_path document_root e 260).2
          = cstr document_root ++ chr '\\' :: (if r = [] then ascii "index.html" else r) ++ [0])
      ∧ ∀ e', UrlEncodes (chr '/' :: r) (cstr e') → (cstr e').length ≤ 259 →
        resolve_file_path document_root e' 260 = resolve_file_path document_root e 260 := by
  have hresolve : ∀ e', UrlEncodes (chr '/' :: r) (cstr e') → (cstr e').length ≤ 259 →
      resolve_file_path document_root e' 260 = if is_safe_path r = true
        then (0, full_path_text document_root r ++ [0]) else (-1, []) := by
    intro e' he' hlen'
    have hname := clean_name_of_encodes hr he'
    have h := resolve_file_path_of_name hlen' (by rw [hname]; exact hfits)
    rwa [hname] at h
  refine ⟨?_, ?_, fun e' he' hlen' => ?_⟩
  · rw [hresolve e he hlen, ← is_safe_path_iff_acceptable hr]
    split_ifs with hsafe
    · exact iff_of_true rfl hsafe
    · exact iff_of_false (by decide) hsafe
  · rw [hresolve e he hlen]
    by_cases hsafe : is_safe_path r = true
    · rw [if_pos hsafe]
      exact fun _ => rfl
    · rw [if_neg hsafe]
      exact fun h => absurd h (by decide)
  · rw [hresolve e he hlen, hresolve e' he' hlen']

/-- "a b" below `C:\www`, sent with an escaped slash and a plus. -/
theorem resolve_file_path_exact_plus :
    ((resolve_file_path (ascii "C:\\www") (ascii "%2Fa+b") 260).1 = 0 ↔ Acceptable (ascii "a b"))
      ∧ ((resolve_file_path (ascii "C:\\www") (ascii "%2Fa+b") 260).1 = 0 →
        (resolve_file_path (ascii "C:\\www") (ascii "%2Fa+b") 260).2
          = cstr (ascii "C:\\www") ++ chr '\\' ::
            (if ascii "a b" = [] then ascii "index.html" else ascii "a b") ++ [0])
      ∧ ∀ e', UrlEncodes (chr '/' :: ascii "a b") (cstr e') → (cstr e').length ≤ 259 →
        resolve_file_path (ascii "C:\\www") e' 260
          = resolve_file_path (ascii "C:\\www") (ascii "%2Fa+b") 260 := by
  have hencodes : UrlEncodes (chr '/' :: ascii "a b") (cstr (ascii "%2Fa+b")) :=
    .escape (by decide) (.literal (by decide) (by decide) (.plus
      (.literal (by decide) (by decide) .nil)))
  exact resolve_file_path_exact (by decide) hencodes (by decide) (by decide)

end W32HttpServer.PercentDecoding

/-
What `get_mime_type_from_magic` recognises.

Its words are read from single bytes, least significant first, so a test against a constant
asks whether the file starts with the bytes the constant has in that order
(`magic32_eq_iff`). Read this way the tests are a table of words, tried in order, with the
string tests and the count of printable bytes behind it (`get_mime_type_from_magic_eq`). No
word of the table starts another, so the order decides nothing.

Four of the constants are not the words they are meant for: those of the icon and of the two
zip archives have their bytes the other way round, and the one of the rar archive starts with
a small letter. Only the first zip word is tested once more further down. A file that starts
with one of the other three is left to the tests behind the table (`published_recognised_iff`).

The last test divides before it compares, and loses what is above 95 but below 96 percent
(`text_test_iff`).
-/
import Mathlib.Data.Nat.Digits.Lemmas
import W32HttpServer.Common
import W32HttpServer.HttpResponse
import W32HttpServer.Lib.PrefixTable

set_option autoImplicit false

namespace W32HttpServer.MagicNumbers

open W32HttpServer.Common W32HttpServer.HttpResponse W32HttpServer.Lib.PrefixTable

/-! ## Words in memory order -/

/-- The number some bytes make, the first of them least significant. -/
def word (bytes : List u8) : ℕ := Nat.ofDigits 256 (bytes.map UInt8.toNat)

theorem word_inj {s t : List u8} (hlen : s.length = t.length) : word s = word t ↔ s = t := by
  have hbyte : ∀ (l : List u8), ∀ d ∈ l.map UInt8.toNat, d < 256 := by
    intro l d hd
    obtain ⟨b, -, rfl⟩ := List.mem_map.mp hd
    exact b.toNat_lt
  constructor
  · intro h
    have hdigits := Nat.ofDigits_inj_of_len_eq (by decide) (by simpa using hlen) (hbyte s)
      (hbyte t) h
    exact List.map_injective_iff.mpr (fun a b hab => UInt8.toNat_inj.mp hab) hdigits
  · exact congrArg word

theorem magic32_eq_word {data : List u8} (h : 4 ≤ data.length) :
    magic32 data = word (data.take 4) := by
  match data, h with
  | a :: b :: c :: d :: rest, _ =>
      have ha : ((a :: b :: c :: d :: rest).take 4) = [a, b, c, d] := rfl
      rw [ha, word, List.map_cons, List.map_cons, List.map_cons, List.map_cons, List.map_nil,
        Nat.ofDigits_cons, Nat.ofDigits_cons, Nat.ofDigits_cons, Nat.ofDigits_cons,
        Nat.ofDigits_nil]
      show a.toNat + b.toNat * 2 ^ 8 + c.toNat * 2 ^ 16 + d.toNat * 2 ^ 24 = _
      omega

theorem magic16_eq_word {data : List u8} (h : 2 ≤ data.length) :
    magic16 data = word (data.take 2) := by
  match data, h with
  | a :: b :: rest, _ =>
      have ha : ((a :: b :: rest).take 2) = [a, b] := rfl
      rw [ha, word, List.map_cons, List.map_cons, List.map_nil, Nat.ofDigits_cons,
        Nat.ofDigits_cons, Nat.ofDigits_nil]
      show a.toNat + b.toNat * 2 ^ 8 = _
      omega

theorem take_eq_iff_prefix {data w : List u8} {n : ℕ} (hw : w.length = n) :
    data.take n = w ↔ w <+: data := by
  rw [List.prefix_iff_eq_take, hw, eq_comm]

/-- A test against a word asks for its bytes. -/
theorem magic32_eq_iff {data : List u8} (h : 4 ≤ data.length) {w : List u8}
    (hw : w.length = 4) : magic32 data = word w ↔ w <+: data := by
  have hlen : (data.take 4).length = w.length := by
    rw [List.length_take, hw]
    omega
  rw [magic32_eq_word h, word_inj hlen, take_eq_iff_prefix hw]

theorem magic16_eq_iff {data : List u8} (h : 2 ≤ data.length) {w : List u8}
    (hw : w.length = 2) : magic16 data = word w ↔ w <+: data := by
  have hlen : (data.take 2).length = w.length := by
    rw [List.length_take, hw]
    omega
  rw [magic16_eq_word h, word_inj hlen, take_eq_iff_prefix hw]

theorem starts_with_iff {data lit : List u8} : starts_with data lit = true ↔ lit <+: data := by
  rw [starts_with, beq_iff_eq, take_eq_iff_prefix rfl]

/-! ## The tests as a table -/

/-- The words `get_mime_type_from_magic` tests for, as the bytes a file then starts with. -/
def signatures : List (List u8 × List u8) :=
  [([0x89, 0x50, 0x4E, 0x47], ascii "image/png"), ([0xFF, 0xD8], ascii "image/jpeg"),
    ([0x47, 0x49, 0x46, 0x38], ascii "image/gif"), ([0x49, 0x49, 0x2A, 0x00], ascii "image/tiff"),
    ([0x4D, 0x4D, 0x00, 0x2A], ascii "image/tiff"), ([0x42, 0x4D], ascii "image/bmp"),
    ([0x00, 0x01, 0x00, 0x00], ascii "image/x-icon"),
    ([0x25, 0x50, 0x44, 0x46], ascii "application/pdf"),
    ([0x04, 0x03, 0x4B, 0x50], ascii "application/zip"),
    ([0x06, 0x05, 0x4B, 0x50], ascii "application/zip"),
    ([0x1F, 0x8B], ascii "application/gzip"),
    ([0x72, 0x61, 0x72, 0x21], ascii "application/x-rar"),
    ([0x50, 0x4B, 0x03, 0x04], ascii "application/zip"),
    ([0x4F, 0x67, 0x67, 0x53], ascii "application/ogg"),
    ([0x66, 0x4C, 0x61, 0x43], ascii "audio/flac"), ([0xFF, 0xFB], ascii "audio/mpeg"),
    ([0xFF, 0xF3], ascii "audio/mpeg")]

/-- What the tests behind the words make of a file. -/
def type_behind (file_data : List u8) : Option (List u8) :=
  if 8 ≤ file_data.length ∧ starts_with (file_data.drop 4) (ascii "ftyp") = true then
    some (ascii "video/mp4")
  else if 5 ≤ file_data.length ∧ starts_with file_data (ascii "<?xml") = true then
    some (ascii "text/xml")
  else if 15 ≤ file_data.length ∧ starts_with file_data (ascii "<!DOCTYPE html") = true then
    some (ascii "text/html")
  else if 6 ≤ file_data.length ∧ starts_with file_data (ascii "<html") = true then
    some (ascii "text/html")
  else
    let check_size := if file_data.length > 512 then 512 else file_data.length
    let printable_count := (file_data.take check_size).countP is_text_byte
    if printable_count * 100 / check_size > 95 then some (ascii "text/plain") else none

theorem magic32_test {data : List u8} (h : 4 ≤ data.length) {w : List u8} {n : ℕ}
    (hw : w.length = 4) (hn : word w = n) : magic32 data = n ↔ w <+: data := by
  rw [← hn, magic32_eq_iff h hw]

theorem magic16_test {data : List u8} (h : 4 ≤ data.length) {w : List u8} {n : ℕ}
    (hw : w.length = 2) (hn : word w = n) : magic16 data = n ↔ w <+: data := by
  have htwo : 2 ≤ data.length := by omega
  rw [← hn, magic16_eq_iff htwo hw]

/-- **The tests are a table**, and a file outside of it is left to what stands behind. -/
theorem get_mime_type_from_magic_eq {data : List u8} (h : 4 ≤ data.length) :
    get_mime_type_from_magic data = (lookup signatures data).or (type_behind data) := by
  have hcons : ∀ (w t : List u8) (table : List (List u8 × List u8)),
      (lookup ((w, t) :: table) data).or (type_behind data)
        = if w <+: data then some t else (lookup table data).or (type_behind data) := by
    intro w t table
    rw [lookup_cons]
    split_ifs <;> rfl
  have hshort : ¬ data.length < 4 := by omega
  unfold get_mime_type_from_magic signatures
  simp only [hcons, if_neg hshort, ite_or]
  rw [lookup, Option.none_or]
  simp only [magic32_test (n := 0x474E5089) h (w := [0x89, 0x50, 0x4E, 0x47]) rfl rfl,
    magic32_test (n := 0x38464947) h (w := [0x47, 0x49, 0x46, 0x38]) rfl rfl,
    magic32_test (n := 0x002A4949) h (w := [0x49, 0x49, 0x2A, 0x00]) rfl rfl,
    magic32_test (n := 0x2A004D4D) h (w := [0x4D, 0x4D, 0x00, 0x2A]) rfl rfl,
    magic32_test (n := 0x00000100) h (w := [0x00, 0x01, 0x00, 0x00]) rfl rfl,
    magic32_test (n := 0x46445025) h (w := [0x25, 0x50, 0x44, 0x46]) rfl rfl,
    magic32_test (n := 0x504B0304) h (w := [0x04, 0x03, 0x4B, 0x50]) rfl rfl,
    magic32_test (n := 0x504B0506) h (w := [0x06, 0x05, 0x4B, 0x50]) rfl rfl,
    magic32_test (n := 0x21726172) h (w := [0x72, 0x61, 0x72, 0x21]) rfl rfl,
    magic32_test (n := 0x04034B50) h (w := [0x50, 0x4B, 0x03, 0x04]) rfl rfl,
    magic32_test (n := 0x5367674F) h (w := [0x4F, 0x67, 0x67, 0x53]) rfl rfl,
    magic32_test (n := 0x43614C66) h (w := [0x66, 0x4C, 0x61, 0x43]) rfl rfl,
    magic16_test (n := 0xD8FF) h (w := [0xFF, 0xD8]) rfl rfl,
    magic16_test (n := 0x4D42) h (w := [0x42, 0x4D]) rfl rfl,
    magic16_test (n := 0x8B1F) h (w := [0x1F, 0x8B]) rfl rfl,
    magic16_test (n := 0xFBFF) h (w := [0xFF, 0xFB]) rfl rfl,
    magic16_test (n := 0xF3FF) h (w := [0xFF, 0xF3]) rfl rfl]
  rfl

/-- No word of the table starts another. -/
theorem signatures_prefixFree : PrefixFree signatures := by decide

/-- The answer with the word tests in another order. -/
def type_in_order (tests : List (List u8 × List u8)) (file_data : List u8) : Option (List u8) :=
  (lookup tests file_data).or (type_behind file_data)

/-- The tests may be tried in any order. -/
theorem type_in_order_eq {tests : List (List u8 × List u8)} (htests : signatures.Perm tests)
    {data : List u8} (h : 4 ≤ data.length) :
    type_in_order tests data = get_mime_type_from_magic data := by
  rw [type_in_order, lookup_perm signatures_prefixFree htests, get_mime_type_from_magic_eq h]

theorem type_behind_mem {data t : List u8} (h : type_behind data = some t) :
    t ∈ [ascii "video/mp4", ascii "text/xml", ascii "text/html", ascii "text/plain"] := by
  unfold type_behind at h
  dsimp only at h
  split_ifs at h <;> rw [← Option.some.inj h] <;> decide

/-! ## What a type can be -/

/-- Everything `detect_mime_type` can answer. -/
def mime_types : List (List u8) :=
  octet_stream :: (extension_types.map Prod.snd ++ (signatures.map Prod.snd
    ++ [ascii "video/mp4", ascii "text/xml", ascii "text/html", ascii "text/plain"]))

theorem mem_mime_types_of_magic {data t : List u8}
    (h : get_mime_type_from_magic data = some t) : t ∈ mime_types := by
  rw [mime_types, List.mem_cons, List.mem_append, List.mem_append]
  by_cases hlen : 4 ≤ data.length
  · rw [get_mime_type_from_magic_eq hlen, Option.or_eq_some_iff] at h
    rcases h with hword | ⟨-, hbehind⟩
    · obtain ⟨e, he, rfl⟩ := exists_mem_of_lookup hword
      exact Or.inr (Or.inr (Or.inl (List.mem_map_of_mem he)))
    · exact Or.inr (Or.inr (Or.inr (type_behind_mem hbehind)))
  · have hnone : get_mime_type_from_magic data = none := if_pos (by omega)
    rw [hnone] at h
    exact absurd h (by simp)

theorem mem_mime_types_of_extension (ext : Option (List u8)) :
    get_mime_type_from_extension ext ∈ mime_types := by
  rw [mime_types, List.mem_cons, List.mem_append]
  unfold get_mime_type_from_extension
  rcases ext with _ | ext
  · exact Or.inl rfl
  · dsimp only
    rcases hfind : extension_types.find? (fun e => lstrcmpi ext e.1) with _ | e
    · rw [hfind]
      exact Or.inl rfl
    · rw [hfind]
      exact Or.inr (Or.inl (List.mem_map_of_mem (List.mem_of_find?_eq_some hfind)))

theorem detect_mime_type_mem (file_path file_data : List u8) :
    detect_mime_type file_path file_data ∈ mime_types := by
  unfold detect_mime_type
  dsimp only
  split_ifs
  · apply mem_mime_types_of_extension
  · rcases hmagic : get_mime_type_from_magic file_data with _ | t
    · exact List.mem_cons_self
    · exact mem_mime_types_of_magic hmagic

/-- A type is a short text without a line end. -/
theorem mime_type_text : ∀ t ∈ mime_types,
    (0 ∉ t ∧ chr '\r' ∉ t ∧ chr '\n' ∉ t) ∧ t.length ≤ 71 := by decide +kernel

/-! ## Published signatures -/

/-- The signatures the formats publish. -/
def published : List (List u8 × List u8) :=
  [([0x89, 0x50, 0x4E, 0x47], ascii "image/png"), ([0xFF, 0xD8], ascii "image/jpeg"),
    ([0x47, 0x49, 0x46, 0x38], ascii "image/gif"), ([0x49, 0x49, 0x2A, 0x00], ascii "image/tiff"),
    ([0x4D, 0x4D, 0x00, 0x2A], ascii "image/tiff"), ([0x42, 0x4D], ascii "image/bmp"),
    ([0x00, 0x00, 0x01, 0x00], ascii "image/x-icon"),
    ([0x25, 0x50, 0x44, 0x46], ascii "application/pdf"),
    ([0x50, 0x4B, 0x03, 0x04], ascii "application/zip"),
    ([0x50, 0x4B, 0x05, 0x06], ascii "application/zip"),
    ([0x1F, 0x8B], ascii "application/gzip"),
    ([0x52, 0x61, 0x72, 0x21], ascii "application/x-rar"),
    ([0x4F, 0x67, 0x67, 0x53], ascii "application/ogg"),
    ([0x66, 0x4C, 0x61, 0x43], ascii "audio/flac"), ([0xFF, 0xFB], ascii "audio/mpeg"),
    ([0xFF, 0xF3], ascii "audio/mpeg")]

/-- The icon, the empty zip archive and the rar archive. -/
def missed : List (List u8) :=
  [[0x00, 0x00, 0x01, 0x00], [0x50, 0x4B, 0x05, 0x06], [0x52, 0x61, 0x72, 0x21]]

/-- A file that starts with a missed signature gets none of the types signatures stand for. -/
theorem not_recognised {data w : List u8} (h : 4 ≤ data.length) (hw : w ∈ missed)
    (hdata : w <+: data) {e : List u8 × List u8} (he : e ∈ published) :
    get_mime_type_from_magic data ≠ some e.2 := by
  have hapart : ∀ w ∈ missed, ∀ e ∈ signatures, Apart w e.1 := by decide
  have htypes : ∀ e ∈ published,
      e.2 ∉ [ascii "video/mp4", ascii "text/xml", ascii "text/html", ascii "text/plain"] := by
    decide
  rw [get_mime_type_from_magic_eq h, lookup_eq_none_of_apart hdata (hapart w hw), Option.none_or]
  exact fun hbehind => htypes e he (type_behind_mem hbehind)

/-- A file that starts with a published signature gets its type, in whatever order the words
are tried. -/
def Recognised (data : List u8) : Prop :=
  ∀ e ∈ published, e.1 <+: data → get_mime_type_from_magic data = some e.2
    ∧ ∀ tests, signatures.Perm tests → type_in_order tests data = some e.2

/-- **Published signatures are recognised** except the three the constants miss. The words of the
table are apart from each other, so each signature is asked about alone. -/
theorem published_recognised_iff {data : List u8} (h : 4 ≤ data.length) :
    Recognised data ↔ ∀ w ∈ missed, ¬ w <+: data := by
  constructor
  · intro hall w hw hdata
    have hpublished : ∀ w ∈ missed, ∃ e ∈ published, e.1 = w := by decide
    obtain ⟨e, he, rfl⟩ := hpublished w hw
    exact not_recognised h hw hdata he (hall e he hdata).1
  · intro hmissed e he hdata
    have htested : ∀ e ∈ published, e ∈ signatures ∨ e.1 ∈ missed := by decide
    have htype : get_mime_type_from_magic data = some e.2 := by
      rcases htested e he with hmem | hmem
      · rw [get_mime_type_from_magic_eq h, lookup_of_mem signatures_prefixFree hmem hdata,
          Option.some_or]
      · exact absurd hdata (hmissed e.1 hmem)
    refine ⟨htype, fun tests htests => ?_⟩
    rw [type_in_order_eq htests h, htype]

/-- The first eight bytes of any PNG file. -/
theorem published_recognised_png :
    Recognised [0x89, 0x50, 0x4E, 0x47, 0x0D, 0x0A, 0x1A, 0x0A] :=
  (published_recognised_iff (by decide)).mpr (by decide)

/-- The first bytes of a rar archive. -/
theorem not_published_recognised :
    ¬ ∀ data : List u8, 4 ≤ data.length → Recognised data := by
  intro h
  have hrar := h [0x52, 0x61, 0x72, 0x21, 0x1A, 0x07, 0x00] (by decide)
    ([0x52, 0x61, 0x72, 0x21], ascii "application/x-rar") (by decide) (by decide)
  exact absurd hrar.1 (by decide)

/-! ## The text test -/

/-- How many bytes the last test looks at. -/
def checked (file_data : List u8) : ℕ := min 512 file_data.length

def printable (file_data : List u8) : ℕ := (file_data.take (checked file_data)).countP is_text_byte

/-- No test in front of the text test matches. -/
structure Unsigned (data : List u8) : Prop where
  no_word : ∀ e ∈ signatures, ¬ e.1 <+: data
  no_ftyp : ¬ (8 ≤ data.length ∧ ascii "ftyp" <+: data.drop 4)
  no_xml : ¬ (5 ≤ data.length ∧ ascii "<?xml" <+: data)
  no_doctype : ¬ (15 ≤ data.length ∧ ascii "<!DOCTYPE html" <+: data)
  no_html : ¬ (6 ≤ data.length ∧ ascii "<html" <+: data)

theorem get_mime_type_from_magic_unsigned {data : List u8} (h : 4 ≤ data.length)
    (hu : Unsigned data) : get_mime_type_from_magic data
      = if printable data * 100 / checked data > 95 then some (ascii "text/plain") else none := by
  have hsize : (if data.length > 512 then 512 else data.length) = checked data := by
    rw [checked]
    split_ifs <;> omega
  rw [get_mime_type_from_magic_eq h, lookup_eq_none_iff.mpr hu.no_word, Option.none_or,
    type_behind]
  simp only [starts_with_iff]
  rw [if_neg hu.no_ftyp, if_neg hu.no_xml, if_neg hu.no_doctype, if_neg hu.no_html, hsize,
    printable]

/-- A quotient is above 95 when it reaches 96. -/
theorem percent_gt_iff {p c : ℕ} (hc : 0 < c) : p * 100 / c > 95 ↔ 96 * c ≤ 100 * p := by
  have hle : 96 ≤ p * 100 / c ↔ 96 * c ≤ p * 100 := Nat.le_div_iff_mul_le hc
  rw [mul_comm 100 p, ← hle]
  rfl

/-- **The text test** is exact unless the share of printable bytes is between 95 and 96
percent: the division comes before the comparison and rounds down. -/
theorem text_test_iff {data : List u8} (h : 4 ≤ data.length) (hu : Unsigned data) :
    get_mime_type_from_magic data
        = (if 100 * printable data > 95 * checked data then some (ascii "text/plain") else none)
      ↔ ¬ (95 * checked data < 100 * printable data
        ∧ 100 * printable data < 96 * checked data) := by
  have hpos : 0 < checked data := by
    rw [checked]
    omega
  have htest := percent_gt_iff (p := printable data) hpos
  rw [get_mime_type_from_magic_unsigned h hu]
  by_cases hcode : printable data * 100 / checked data > 95
  · have hall := htest.mp hcode
    rw [if_pos hcode, if_pos (by omega)]
    exact iff_of_true rfl (by omega)
  · have hbelow : ¬ 96 * checked data ≤ 100 * printable data := fun hle => hcode (htest.mpr hle)
    rw [if_neg hcode]
    split_ifs with hclaim
    · exact iff_of_false (by simp) (by omega)
    · exact iff_of_true rfl (by omega)

/-- A line of text. -/
theorem text_test_line : get_mime_type_from_magic (ascii "All work and no play\r\n")
    = if 100 * printable (ascii "All work and no play\r\n")
        > 95 * checked (ascii "All work and no play\r\n")
      then some (ascii "text/plain") else none := by
  have hu : Unsigned (ascii "All work and no play\r\n") :=
    ⟨by decide, by decide, by decide, by decide, by decide⟩
  exact (text_test_iff (by decide) hu).mpr (by decide)

/-- Twenty letters and a NUL: 2000 is more than 95 times 21, and 2000 / 21 is 95. -/
theorem not_text_test :
    ¬ ∀ data : List u8, 4 ≤ data.length → Unsigned data → get_mime_type_from_magic data
      = if 100 * printable data > 95 * checked data then some (ascii "text/plain") else none := by
  intro h
  have hu : Unsigned (List.replicate 20 (chr 'a') ++ [0]) :=
    ⟨by decide, by decide, by decide, by decide, by decide⟩
  exact absurd (h _ (by decide) hu) (by decide)

end W32HttpServer.MagicNumbers

/-
The client's half of a link: how it spells a path before it sends it, and what the
server's decoder reads there.

A client may write any space and any non-ASCII byte as an escape, and keeps every other
byte. `url_decode` undoes its escapes, but it cannot tell them from a '%' that was in the
text before: such a '%' takes the two bytes behind it for its digits, whatever the client
has written there. `Plain` says that this never happens in a name, and then the name comes
back (`decoded_eq_iff`). `Steady` says that every escape of a URL reaches the server as it
was, and then what the URL decodes to does not depend on the client
(`Steady.decoded_append`).
-/
import W32HttpServer.Common
import W32HttpServer.HttpPath

set_option autoImplicit false

namespace W32HttpServer.ClientEscape

open W32HttpServer.Common W32HttpServer.HttpPath

/-! ## Hexadecimal digits -/

def is_hex (c : u8) : Prop :=
  (chr '0' ≤ c ∧ c ≤ chr '9') ∨ (chr 'A' ≤ c ∧ c ≤ chr 'F') ∨ (chr 'a' ≤ c ∧ c ≤ chr 'f')

instance (c : u8) : Decidable (is_hex c) := by
  unfold is_hex
  infer_instance

theorem is_hex_toNat {c : u8} (h : is_hex c) :
    (48 ≤ c.toNat ∧ c.toNat ≤ 57) ∨ (65 ≤ c.toNat ∧ c.toNat ≤ 70)
      ∨ (97 ≤ c.toNat ∧ c.toNat ≤ 102) := by
  simpa [is_hex, UInt8.le_iff_toNat_le] using h

theorem ne_of_is_hex {c d : u8} (hc : is_hex c) (hd : ¬ is_hex d) : c ≠ d := by
  rintro rfl
  exact hd hc

/-- A byte that is no digit counts as zero. -/
theorem hex_digit_of_not_hex {c : u8} (h : ¬ is_hex c) : hex_digit c = 0 := by
  unfold is_hex at h
  rw [not_or, not_or] at h
  unfold hex_digit
  rw [if_neg h.1, if_neg h.2.1, if_neg h.2.2]

/-- A digit stands for itself in the decoded text. -/
theorem decoded_hex {c : u8} (h : is_hex c) (p : List u8) : decoded (c :: p) = c :: decoded p :=
  decoded_literal (ne_of_is_hex h (by decide)) (ne_of_is_hex h (by decide)) p

theorem cstr_hex {c : u8} (h : is_hex c) (s : List u8) : cstr (c :: s) = c :: cstr s :=
  cstr_cons_of_ne (ne_of_is_hex h (by decide)) s

/-! ## The client -/

/-- The bytes a client may escape. -/
def Escapable (c : u8) : Prop := c = chr ' ' ∨ 128 ≤ c.toNat

/-- The two digits of an escape for `c`. -/
structure Digits (c h l : u8) : Prop where
  high : is_hex h
  low : is_hex l
  value : escaped h l = c

/-- `e` is the text `x` as some client sends it. -/
inductive Escapes : List u8 → List u8 → Prop
  | nil : Escapes [] []
  | keep (c : u8) {x e : List u8} (rest : Escapes x e) : Escapes (c :: x) (c :: e)
  | escape {c h l : u8} (hc : Escapable c) (hd : Digits c h l) {x e : List u8}
      (rest : Escapes x e) : Escapes (c :: x) (chr '%' :: h :: l :: e)

/-- A client may send a text as it is. -/
theorem Escapes.refl (x : List u8) : Escapes x x := by
  induction x with
  | nil => exact .nil
  | cons c x ih => exact .keep c ih

theorem Escapable.not_hex {c : u8} (h : Escapable c) : ¬ is_hex c := by
  rcases h with rfl | h
  · decide
  · intro hx
    have := is_hex_toNat hx
    omega

theorem Escapable.ne {c d : u8} (h : Escapable c) (hd : d ≠ chr ' ') (hd' : d.toNat < 128) :
    c ≠ d := by
  rintro rfl
  rcases h with h | h
  · exact hd h
  · omega

theorem not_escapable_of_lt {c : u8} (hc : c ≠ chr ' ') (hc' : c.toNat < 128) :
    ¬ Escapable c :=
  fun h => h.ne hc hc' rfl

/-- A byte the client may not touch is sent as it is. -/
theorem Escapes.of_not_escapable {c : u8} {x e : List u8} (h : Escapes (c :: x) e)
    (hc : ¬ Escapable c) : ∃ e', e = c :: e' ∧ Escapes x e' := by
  cases h with
  | keep _ rest => exact ⟨_, rfl, rest⟩
  | escape hc' _ _ => exact absurd hc' hc

/-- The high digit of an escaped byte is not zero. -/
theorem Digits.high_pos {c h l : u8} (hd : Digits c h l) (hc : Escapable c) :
    0 < hex_digit h := by
  have hc32 : 32 ≤ c.toNat := by
    rcases hc with rfl | hc
    · decide
    · omega
  have hvalue := escaped_toNat h l
  rw [hd.value] at hvalue
  have hlow := hex_digit_bounds l
  omega

theorem Digits.forall_hex {c h l : u8} (hd : Digits c h l) : ∀ y ∈ [h, l], is_hex y :=
  List.forall_mem_cons.mpr ⟨hd.high, List.forall_mem_singleton.mpr hd.low⟩

theorem Digits.decoded {c h l : u8} (hd : Digits c h l) (p : List u8) :
    decoded (chr '%' :: h :: l :: p) = c :: decoded p := by
  have h1 : h ≠ 0 := ne_of_is_hex hd.high (by decide)
  have h2 : l ≠ 0 := ne_of_is_hex hd.low (by decide)
  rw [decoded_escape h1 h2, hd.value]

/-! ## A '%' of the text in front of an escape of the client

There are two ways the bytes behind a '%' can be rewritten, and in both of them the digits
the client has written come out as text. -/

/-- The first byte behind the '%' was escaped. -/
theorem Digits.decoded_first {c h l : u8} (hd : Digits c h l) (p : List u8) :
    HttpPath.decoded (chr '%' :: chr '%' :: h :: l :: p)
      = escaped (chr '%') h :: l :: HttpPath.decoded p := by
  have h1 : h ≠ 0 := ne_of_is_hex hd.high (by decide)
  rw [decoded_escape (by decide) h1, decoded_hex hd.low]

/-- What the '%' decodes to then is a control character. -/
theorem Digits.first_bounds {c h l : u8} (hd : Digits c h l) (hc : Escapable c) :
    0 < (escaped (chr '%') h).toNat ∧ (escaped (chr '%') h).toNat < 16 := by
  have hvalue := escaped_toNat (chr '%') h
  rw [hex_digit_of_not_hex (c := chr '%') (by decide)] at hvalue
  have hpos := hd.high_pos hc
  have hle := hex_digit_bounds h
  omega

/-- The second byte behind the '%' was escaped: it counted as zero, and so does the '%' in
its place. -/
theorem Digits.decoded_second {c1 c2 h l : u8} (hd : Digits c2 h l) (h1 : c1 ≠ 0)
    (hc : Escapable c2) (p : List u8) :
    HttpPath.decoded (chr '%' :: c1 :: chr '%' :: h :: l :: p)
      = escaped c1 c2 :: h :: l :: HttpPath.decoded p := by
  have hsame : escaped c1 (chr '%') = escaped c1 c2 := by
    unfold escaped hex_val
    rw [hex_digit_of_not_hex hc.not_hex, hex_digit_of_not_hex (c := chr '%') (by decide)]
  rw [decoded_escape h1 (by decide), hsame, decoded_hex hd.high, decoded_hex hd.low]

/-- A byte that is no digit, in second place, makes a multiple of 16. -/
theorem escaped_second (c1 : u8) {c2 : u8} (hc : ¬ is_hex c2) : (escaped c1 c2).toNat % 16 = 0 := by
  have hvalue := escaped_toNat c1 c2
  rw [hex_digit_of_not_hex hc] at hvalue
  omega

/-- A byte that is no digit, in first place, makes a control character. -/
theorem escaped_first {c1 : u8} (hc : ¬ is_hex c1) (c2 : u8) : (escaped c1 c2).toNat < 16 := by
  have hvalue := escaped_toNat c1 c2
  rw [hex_digit_of_not_hex hc] at hvalue
  have hle := hex_digit_bounds c2
  omega

/-! ## What an escaped text holds -/

/-- An escape brings in nothing but a percent sign and digits. -/
theorem Escapes.not_mem {b : u8} (hpercent : b ≠ chr '%') (hhex : ¬ is_hex b) {x e : List u8}
    (h : Escapes x e) : b ∉ x → b ∉ e := by
  intro hb
  induction h with
  | nil => exact hb
  | keep c rest ih =>
      rw [List.mem_cons, not_or] at hb ⊢
      exact ⟨hb.1, ih hb.2⟩
  | escape hc hd rest ih =>
      rw [List.mem_cons, not_or] at hb
      simp only [List.mem_cons, not_or]
      refine ⟨hpercent, ?_, ?_, ih hb.2⟩
      · rintro rfl
        exact hhex hd.high
      · rintro rfl
        exact hhex hd.low

theorem Escapes.no_nul {x e : List u8} (h : Escapes x e) : 0 ∉ x → 0 ∉ e :=
  h.not_mem (by decide) (by decide)

theorem Escapes.no_space {x e : List u8} (h : Escapes x e) : chr ' ' ∉ x → chr ' ' ∉ e :=
  h.not_mem (by decide) (by decide)

/-- What the request line keeps of an escaped text: all of it, or an escape of a shorter
text, when a space was sent as it is. -/
theorem Escapes.takeWhile {x e : List u8} (h : Escapes x e) :
    ∃ y, Escapes y (e.takeWhile (· ≠ chr ' ')) ∧ y.length ≤ x.length ∧ (0 ∉ x → 0 ∉ y)
      ∧ (chr ' ' ∈ e → y.length < x.length) := by
  induction h with
  | nil => exact ⟨[], .nil, le_refl _, id, by simp⟩
  | keep c rest ih =>
      obtain ⟨y, hy, hle, h0, hlt⟩ := ih
      by_cases hc : c = chr ' '
      · refine ⟨[], ?_, by simp, by simp, by simp⟩
        rw [List.takeWhile_cons_of_neg (by simpa using hc)]
        exact .nil
      · refine ⟨c :: y, ?_, Nat.succ_le_succ hle, ?_, ?_⟩
        · rw [List.takeWhile_cons_of_pos (by simpa using hc)]
          exact .keep c hy
        · simp only [List.mem_cons, not_or]
          exact fun h => ⟨h.1, h0 h.2⟩
        · intro hmem
          exact Nat.succ_lt_succ (hlt ((List.mem_cons.mp hmem).resolve_left (Ne.symm hc)))
  | @escape c d l hc hd x e rest ih =>
      obtain ⟨y, hy, hle, h0, hlt⟩ := ih
      have h1 : d ≠ chr ' ' := ne_of_is_hex hd.high (by decide)
      have h2 : l ≠ chr ' ' := ne_of_is_hex hd.low (by decide)
      refine ⟨c :: y, ?_, Nat.succ_le_succ hle, ?_, ?_⟩
      · rw [List.takeWhile_cons_of_pos (by decide), List.takeWhile_cons_of_pos (by simpa using h1),
          List.takeWhile_cons_of_pos (by simpa using h2)]
        exact .escape hc hd hy
      · simp only [List.mem_cons, not_or]
        exact fun h => ⟨h.1, h0 h.2⟩
      · intro hmem
        simp only [List.mem_cons] at hmem
        rcases hmem with hmem | hmem | hmem | hmem
        · exact absurd hmem (by decide)
        · exact absurd hmem (Ne.symm h1)
        · exact absurd hmem (Ne.symm h2)
        · exact Nat.succ_lt_succ (hlt hmem)

/-- **Decoding never makes a text longer than it was before the client escaped it.** The
induction is on the text, since a '%' of it may reach over an escape of the client. -/
theorem Escapes.decoded_length_le {x e : List u8} (h : Escapes x e) (h0 : 0 ∉ x) :
    (decoded e).length ≤ x.length := by
  induction hn : x.length using Nat.strongRecOn generalizing x e with
  | ind n ih =>
      subst hn
      cases h with
      | nil => simp
      | @escape c d l hc hd x e rest =>
          rw [List.mem_cons, not_or] at h0
          have hrest := ih x.length (by simp) rest h0.2 rfl
          rw [hd.decoded, List.length_cons, List.length_cons]
          omega
      | @keep c x e rest =>
          rw [List.mem_cons, not_or] at h0
          have hrest := ih x.length (by simp) rest h0.2 rfl
          by_cases hplain : c = chr '%' → e.length < 2
          · rw [decoded_plain hplain, List.length_cons, List.length_cons]
            omega
          obtain ⟨rfl, hlong⟩ := Classical.not_imp.mp hplain
          -- the '%' takes two bytes of the escaped text; whose are they?
          cases rest with
          | nil => exact absurd (by simp) hlong
          | @escape c1 d l hc hd x e rest =>
              rw [List.mem_cons, not_or] at h0
              have hrest := ih x.length (by simp only [List.length_cons]; omega) rest h0.2.2 rfl
              rw [hd.decoded_first]
              simp only [List.length_cons]
              omega
          | @keep c1 x e rest =>
              rw [List.mem_cons, not_or] at h0
              cases rest with
              | nil => exact absurd (by simp) hlong
              | @escape c2 d l hc hd x e rest =>
                  rw [List.mem_cons, not_or] at h0
                  have hrest := ih x.length (by simp only [List.length_cons]; omega) rest h0.2.2.2 rfl
                  rw [hd.decoded_second (Ne.symm h0.2.1) hc]
                  simp only [List.length_cons]
                  omega
              | @keep c2 x e rest =>
                  rw [List.mem_cons, not_or] at h0
                  have hrest := ih x.length (by simp only [List.length_cons]; omega) rest h0.2.2.2 rfl
                  rw [decoded_escape (Ne.symm h0.2.1) (Ne.symm h0.2.2.1)]
                  simp only [List.length_cons]
                  omega

/-! ## Names that come back -/

/-- No byte of the name `x` means something else to the server: no space and no '+' is sent
as it is, and no '%' with two more bytes behind it. -/
inductive Plain : List u8 → List u8 → Prop
  | nil : Plain [] []
  | keep {c : u8} {x e : List u8} (hspace : c ≠ chr ' ') (hplus : c ≠ chr '+')
      (hpercent : c = chr '%' → e.length < 2) (rest : Plain x e) : Plain (c :: x) (c :: e)
  | escape {c h l : u8} (hc : Escapable c) (hd : Digits c h l) {x e : List u8}
      (rest : Plain x e) : Plain (c :: x) (chr '%' :: h :: l :: e)

theorem Plain.escapes {x e : List u8} (h : Plain x e) : Escapes x e := by
  induction h with
  | nil => exact .nil
  | keep _ _ _ _ ih => exact .keep _ ih
  | escape hc hd _ ih => exact .escape hc hd ih

theorem Plain.no_space {x e : List u8} (h : Plain x e) : chr ' ' ∉ e := by
  induction h with
  | nil => simp
  | keep hspace _ _ _ ih =>
      rw [List.mem_cons, not_or]
      exact ⟨Ne.symm hspace, ih⟩
  | escape hc hd rest ih =>
      simp only [List.mem_cons, not_or]
      refine ⟨by decide, ?_, ?_, ih⟩
      · exact (ne_of_is_hex hd.high (by decide)).symm
      · exact (ne_of_is_hex hd.low (by decide)).symm

theorem Plain.decoded_eq {x e : List u8} (h : Plain x e) : decoded e = x := by
  induction h with
  | nil => rfl
  | keep hspace hplus hpercent rest ih =>
      rw [decoded_plain hpercent, ih, unescaped, if_neg hplus]
  | escape hc hd rest ih => rw [hd.decoded, ih]

/-- A '%' that opens an escape does not come back: the text gets shorter, or a byte other
than '%' takes its place. -/
theorem Escapes.not_opened {x e : List u8} (h : Escapes x e) (h0 : 0 ∉ x)
    (heq : decoded (chr '%' :: e) = chr '%' :: x) : e.length < 2 := by
  by_contra hlong
  cases h with
  | nil => exact hlong (by simp)
  | escape hc hd rest =>
      rw [hd.decoded_first, List.cons.injEq] at heq
      have hbounds := (hd.first_bounds hc).2
      rw [heq.1] at hbounds
      exact absurd hbounds (by decide)
  | @keep c1 x e rest =>
      rw [List.mem_cons, not_or] at h0
      cases rest with
      | nil => exact hlong (by simp)
      | escape hc hd rest =>
          rw [hd.decoded_second (Ne.symm h0.1) hc, List.cons.injEq] at heq
          have hmod := escaped_second c1 hc.not_hex
          rw [heq.1] at hmod
          exact absurd hmod (by decide)
      | keep c2 rest =>
          rw [List.mem_cons, not_or] at h0
          have hle := rest.decoded_length_le h0.2.2
          have hlen := congrArg List.length heq
          rw [decoded_escape (Ne.symm h0.1) (Ne.symm h0.2.1)] at hlen
          simp only [List.length_cons] at hlen
          omega

/-- **A name comes back** exactly when it is plain. -/
theorem decoded_eq_iff {x e : List u8} (h : Escapes x e) (h0 : 0 ∉ x) (hspace : chr ' ' ∉ e) :
    decoded e = x ↔ Plain x e := by
  refine ⟨fun heq => ?_, Plain.decoded_eq⟩
  induction h with
  | nil => exact .nil
  | @escape c d l hc hd x e rest ih =>
      rw [List.mem_cons, not_or] at h0
      simp only [List.mem_cons, not_or] at hspace
      rw [hd.decoded, List.cons.injEq] at heq
      exact .escape hc hd (ih h0.2 hspace.2.2.2 heq.2)
  | @keep c x e rest ih =>
      rw [List.mem_cons, not_or] at h0 hspace
      have hpercent : c = chr '%' → e.length < 2 := by
        rintro rfl
        exact rest.not_opened h0.2 heq
      rw [decoded_plain hpercent, List.cons.injEq] at heq
      refine .keep (Ne.symm hspace.1) ?_ hpercent (ih h0.2 hspace.2 heq.2)
      rintro rfl
      exact absurd heq.1 (by decide)

/-! ## URLs that stay as they are -/

/-- The URL `u` ends in a slash of its own, and every escape in it, none of them for a NUL,
reaches the server with the digits it had. -/
inductive Steady : List u8 → List u8 → Prop
  | slash : Steady [chr '/'] [chr '/']
  | keep {c : u8} (hc : c ≠ chr '%') {u e : List u8} (rest : Steady u e) :
      Steady (c :: u) (c :: e)
  | escape {c h l : u8} (hc : Escapable c) (hd : Digits c h l) {u e : List u8}
      (rest : Steady u e) : Steady (c :: u) (chr '%' :: h :: l :: e)
  | digits {c1 c2 : u8} (hnul : escaped c1 c2 ≠ 0) {u e : List u8} (rest : Steady u e) :
      Steady (chr '%' :: c1 :: c2 :: u) (chr '%' :: c1 :: c2 :: e)

/-- **A steady URL decodes to the same text**, whoever sends it and whatever follows. -/
theorem Steady.decoded_append {u e : List u8} (h : Steady u e) (h0 : 0 ∉ u) (s : List u8) :
    decoded (e ++ s) = decoded u ++ decoded s := by
  induction h with
  | slash => exact decoded_literal (by decide) (by decide) s
  | keep hc rest ih =>
      rw [List.mem_cons, not_or] at h0
      rw [List.cons_append, decoded_plain (fun h => absurd h hc),
        decoded_plain (fun h => absurd h hc), ih h0.2, List.cons_append]
  | escape hc hd rest ih =>
      rw [List.mem_cons, not_or] at h0
      have hpercent := hc.ne (d := chr '%') (by decide) (by decide)
      have hplus := hc.ne (d := chr '+') (by decide) (by decide)
      rw [List.cons_append, List.cons_append, List.cons_append, hd.decoded, ih h0.2,
        decoded_literal hpercent hplus, List.cons_append]
  | digits hnul rest ih =>
      simp only [List.mem_cons, not_or] at h0
      rw [List.cons_append, List.cons_append, List.cons_append,
        decoded_escape (Ne.symm h0.2.1) (Ne.symm h0.2.2.1), ih h0.2.2.2,
        decoded_escape (Ne.symm h0.2.1) (Ne.symm h0.2.2.1), List.cons_append]

theorem Steady.decoded_no_nul {u e : List u8} (h : Steady u e) (h0 : 0 ∉ u) :
    0 ∉ decoded u := by
  induction h with
  | slash => decide
  | keep hc rest ih =>
      rw [List.mem_cons, not_or] at h0
      rw [decoded_plain (fun h => absurd h hc), List.mem_cons, not_or]
      exact ⟨(unescaped_ne_zero (Ne.symm h0.1)).symm, ih h0.2⟩
  | escape hc hd rest ih =>
      rw [List.mem_cons, not_or] at h0
      have hpercent := hc.ne (d := chr '%') (by decide) (by decide)
      have hplus := hc.ne (d := chr '+') (by decide) (by decide)
      rw [decoded_literal hpercent hplus, List.mem_cons, not_or]
      exact ⟨h0.1, ih h0.2⟩
  | digits hnul rest ih =>
      simp only [List.mem_cons, not_or] at h0
      rw [decoded_escape (Ne.symm h0.2.1) (Ne.symm h0.2.2.1), List.mem_cons, not_or]
      exact ⟨Ne.symm hnul, ih h0.2.2.2⟩

/-- The decoded text ends in the slash, with something in front of it unless the URL is the
slash alone. -/
theorem Steady.decoded_ends {u e : List u8} (h : Steady u e) (h0 : 0 ∉ u) :
    ∃ w, decoded u = w ++ [chr '/'] ∧ (u ≠ [chr '/'] → w ≠ []) := by
  -- each constructor but the first puts one byte in front
  have hcons : ∀ {u : List u8} {c : u8} {p : List u8}, decoded u = c :: decoded p →
      (∃ w, decoded p = w ++ [chr '/'] ∧ (p ≠ [chr '/'] → w ≠ [])) →
      ∃ w, decoded u = w ++ [chr '/'] ∧ (u ≠ [chr '/'] → w ≠ []) := by
    rintro u c p hu ⟨w, hw, -⟩
    exact ⟨c :: w, by rw [hu, hw, List.cons_append], fun _ => List.cons_ne_nil _ _⟩
  induction h with
  | slash => exact ⟨[], rfl, fun h => absurd rfl h⟩
  | keep hc rest ih =>
      rw [List.mem_cons, not_or] at h0
      exact hcons (decoded_plain (fun h => absurd h hc)) (ih h0.2)
  | escape hc hd rest ih =>
      rw [List.mem_cons, not_or] at h0
      have hpercent := hc.ne (d := chr '%') (by decide) (by decide)
      exact hcons (decoded_plain (fun h => absurd h hpercent)) (ih h0.2)
  | digits hnul rest ih =>
      simp only [List.mem_cons, not_or] at h0
      exact hcons (decoded_escape (Ne.symm h0.2.1) (Ne.symm h0.2.2.1) _) (ih h0.2.2.2)

end W32HttpServer.ClientEscape

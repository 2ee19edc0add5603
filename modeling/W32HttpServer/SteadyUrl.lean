/-
Why a URL has to be steady.

The path a client asks for is the listing's URL and a name, both as it escapes them. Where
the client has rewritten an escape of the URL, the path still decodes, only to something
else. `steady_of_prefix` is the induction that shows it: it reads the URL unit by unit, as
the decoder does, and compares what the URL and the request decode to. Once a digit that the
client has written comes out as text, the request's text lags behind by a digit for good
(`lagging_absurd`), and no URL ends in a slash and a digit at once.
-/
import W32HttpServer.Common
import W32HttpServer.HttpPath
import W32HttpServer.ClientEscape

set_option autoImplicit false

namespace W32HttpServer.SteadyUrl

open W32HttpServer.Common W32HttpServer.HttpPath W32HttpServer.ClientEscape

/-! ## What stands behind the URL's text

In a path that leads back, the decoded URL is followed by the name, by a separator and the
name, or by what `index.html` and the name make. -/

/-- The text behind a decoded URL whose last byte is `last`: the name if that byte is a
separator, and otherwise more than the name, with neither a digit nor a control character
in front. -/
def Joint (name : List u8) (last : u8) (text : List u8) : Prop :=
  (is_separator last = true ∧ text = name)
    ∨ ∃ c t, text = c :: t ∧ ¬ is_hex c ∧ 16 ≤ c.toNat ∧ name.length ≤ t.length

variable {name text : List u8} {last : u8}

/-- No room for more than the name. -/
theorem Joint.eq_name (h : Joint name last text) (hlen : text.length ≤ name.length) :
    is_separator last = true ∧ text = name := by
  rcases h with h | ⟨c, t, rfl, -, -, ht⟩
  · exact h
  · rw [List.length_cons] at hlen
    omega

/-- Behind a byte that is no separator, the text does not start with a digit. -/
theorem Joint.not_prefix_of_hex (h : Joint name last text) (hlast : is_separator last = false)
    {ahead : List u8} (hne : ahead ≠ []) (hhex : ∀ y ∈ ahead, is_hex y) (z : List u8) :
    ¬ text <+: ahead ++ z := by
  intro hpre
  obtain ⟨y, ahead, rfl⟩ := List.exists_cons_of_ne_nil hne
  rcases h with ⟨hsep, -⟩ | ⟨c, t, rfl, hc, -, -⟩
  · rw [hlast] at hsep
    exact absurd hsep (by decide)
  · rw [List.cons_append, List.cons_prefix_cons] at hpre
    have hy := hhex y List.mem_cons_self
    rw [← hpre.1] at hy
    exact hc hy

theorem is_separator_of_is_hex {c : u8} (h : is_hex c) : is_separator c = false := by
  unfold is_separator
  rw [beq_false_of_ne (ne_of_is_hex h (by decide)), beq_false_of_ne (ne_of_is_hex h (by decide)),
    Bool.or_false]

/-- A separator is neither a control character nor a multiple of 16. -/
theorem not_separator_of_toNat {c : u8} (h : c.toNat < 16 ∨ c.toNat % 16 = 0) :
    is_separator c = false := by
  have h1 : c ≠ chr '/' := by
    rintro rfl
    revert h
    decide
  have h2 : c ≠ chr '\\' := by
    rintro rfl
    revert h
    decide
  unfold is_separator
  rw [beq_false_of_ne h1, beq_false_of_ne h2, Bool.or_false]

/-! ## A URL whose escapes were rewritten -/

/-- **Digits that came out as text never go away.** While `ahead` is read, the URL's own text
has to repeat it, so each byte of that text is a digit and joins `ahead` in turn. In the end
the URL stops and what follows it starts with no digit. -/
theorem lagging_absurd {s : List u8} (u : List u8) : ∀ {e ahead : List u8} {last : u8},
    Escapes u e → 0 ∉ u → ahead ≠ [] → (∀ y ∈ ahead, is_hex y) → is_separator last = false →
    Joint name ((cstr (decoded u)).getLastD last) text →
    ¬ cstr (decoded u) ++ text <+: ahead ++ cstr (decoded (e ++ s)) := by
  induction u using url_induction with
  | nil =>
      intro e ahead last _ _ hne hhex hlast hjoint
      exact hjoint.not_prefix_of_hex hlast hne hhex _
  | plain c p hp ih =>
      intro e ahead last hesc h0 hne hhex hlast hjoint hpre
      rw [List.mem_cons, not_or] at h0
      rw [decoded_plain hp, cstr_cons_of_ne (unescaped_ne_zero (Ne.symm h0.1))] at hjoint hpre
      obtain ⟨y, ahead, rfl⟩ := List.exists_cons_of_ne_nil hne
      rw [List.cons_append, List.cons_append, List.cons_prefix_cons] at hpre
      obtain ⟨rfl, hpre⟩ := hpre
      have hy : is_hex (unescaped c) := hhex _ List.mem_cons_self
      have hc : unescaped c = c := by
        unfold unescaped at hy ⊢
        split_ifs at hy ⊢
        · exact absurd hy (by decide)
        · rfl
      rw [hc] at hy hjoint
      cases hesc with
      | escape hesc' => exact absurd hy hesc'.not_hex
      | keep _ rest =>
          rw [List.cons_append, decoded_hex hy, cstr_cons_of_ne (Ne.symm h0.1)] at hpre
          rw [List.getLastD_cons] at hjoint
          apply ih rest h0.2 (show ahead ++ [c] ≠ [] by simp) _ (is_separator_of_is_hex hy) hjoint
          · simpa using hpre
          · exact List.forall_mem_append.mpr
              ⟨(List.forall_mem_cons.mp hhex).2, List.forall_mem_singleton.mpr hy⟩
  | escape c1 c2 rest ih =>
      intro e ahead last hesc h0 hne hhex hlast hjoint hpre
      simp only [List.mem_cons, not_or] at h0
      obtain ⟨-, h1, h2, h0⟩ := h0
      rw [decoded_escape (Ne.symm h1) (Ne.symm h2), cstr_cons] at hjoint hpre
      by_cases hnul : escaped c1 c2 = 0
      · -- the URL's text ends here
        rw [if_pos hnul] at hjoint hpre
        exact hjoint.not_prefix_of_hex hlast hne hhex _ hpre
      rw [if_neg hnul] at hjoint hpre
      obtain ⟨y, ahead, rfl⟩ := List.exists_cons_of_ne_nil hne
      rw [List.cons_append, List.cons_append, List.cons_prefix_cons] at hpre
      obtain ⟨rfl, hpre⟩ := hpre
      obtain ⟨hy, hahead⟩ := List.forall_mem_cons.mp hhex
      rw [List.getLastD_cons] at hjoint
      obtain ⟨e, rfl, hesc1⟩ := hesc.of_not_escapable (not_escapable_of_lt (by decide) (by decide))
      cases hesc1 with
      | escape hc hd _ =>
          -- no digit is a control character
          have hlow := escaped_first hc.not_hex c2
          have := is_hex_toNat hy
          omega
      | keep _ hesc2 =>
          cases hesc2 with
          | keep _ hesc3 =>
              rw [List.cons_append, List.cons_append, List.cons_append,
                decoded_escape (Ne.symm h1) (Ne.symm h2), cstr_cons_of_ne hnul] at hpre
              apply ih hesc3 h0 (show ahead ++ [escaped c1 c2] ≠ [] by simp) _
                (is_separator_of_is_hex hy) hjoint
              · simpa using hpre
              · exact List.forall_mem_append.mpr ⟨hahead, List.forall_mem_singleton.mpr hy⟩
          | @escape _ d l hc hd _ e hesc3 =>
              rw [List.cons_append, List.cons_append, List.cons_append, List.cons_append,
                List.cons_append, hd.decoded_second (Ne.symm h1) hc, cstr_cons_of_ne hnul,
                cstr_hex hd.high, cstr_hex hd.low] at hpre
              apply ih hesc3 h0 (show ahead ++ [escaped c1 c2, d, l] ≠ [] by simp) _
                (is_separator_of_is_hex hy) hjoint
              · simpa using hpre
              · exact List.forall_mem_append.mpr
                  ⟨hahead, List.forall_mem_cons.mpr ⟨hy, hd.forall_hex⟩⟩

/-- Joining the client's bytes to the name shows the name at most. -/
private theorem text_fits {s : List u8} (hs : (cstr (decoded s)).length ≤ name.length)
    (hjoint : Joint name last text) (hpre : text <+: cstr (decoded s)) :
    is_separator last = true ∧ text = name :=
  hjoint.eq_name (hpre.length_le.trans hs)

/-- The last slash of a URL behind a '%' that has no other byte to take: the name would give
it one, and then the '%' is gone. -/
theorem percent_slash_absurd {s : List u8} (hs0 : 0 ∉ s) (hne : text ≠ []) :
    ¬ chr '%' :: chr '/' :: text <+: cstr (decoded (chr '%' :: chr '/' :: s)) := by
  intro hpre
  cases s with
  | nil =>
      have hlen := hpre.length_le
      have htwo : (cstr (decoded [chr '%', chr '/'])).length = 2 := by decide
      rw [htwo, List.length_cons, List.length_cons] at hlen
      exact hne (List.length_eq_zero_iff.mp (by omega))
  | cons d s =>
      rw [List.mem_cons, not_or] at hs0
      rw [decoded_escape (by decide) (Ne.symm hs0.1), cstr_cons] at hpre
      split_ifs at hpre
      · exact absurd hpre.length_le (by simp)
      · rw [List.cons_prefix_cons] at hpre
        have hlow : (escaped (chr '/') d).toNat < 16 := escaped_first (by decide) d
        rw [← hpre.1] at hlow
        exact absurd hlow (by decide)

/-- A '%' that opens no escape of a URL ending in a slash is the '%' of a final "%/". -/
theorem lone_percent_absurd {s p e : List u8} (hs0 : 0 ∉ s) (hne : text ≠ []) (hp : p.length < 2)
    (hslash : (chr '%' :: p).getLast? = some (chr '/')) (hesc : Escapes (chr '%' :: p) e) :
    ¬ cstr (decoded (chr '%' :: p)) ++ text <+: cstr (decoded (e ++ s)) := by
  obtain ⟨e, rfl, hesc1⟩ := hesc.of_not_escapable (not_escapable_of_lt (by decide) (by decide))
  match p, hp with
  | [], _ => exact absurd hslash (by decide)
  | [d], _ =>
      have hd : d = chr '/' := by simpa using hslash
      subst hd
      obtain ⟨e, rfl, hesc2⟩ := hesc1.of_not_escapable (not_escapable_of_lt (by decide) (by decide))
      cases hesc2
      have htwo : cstr (decoded [chr '%', chr '/']) = [chr '%', chr '/'] := by decide
      rw [htwo]
      exact percent_slash_absurd hs0 hne

/-- The first byte behind a '%' was escaped. Either the escape was one for NUL, and then a
control character stands where the text behind the URL should be, or the digit the client
wrote is ahead of the rest. -/
theorem first_escaped_absurd (hstart : ∃ c t, text = c :: t ∧ 16 ≤ c.toNat) {s : List u8}
    {c1 c2 h l : u8} {rest e : List u8} (hc : Escapable c1) (hd : Digits c1 h l)
    (hesc : Escapes (c2 :: rest) e) (h2 : c2 ≠ 0) (h0 : 0 ∉ rest)
    (hjoint : Joint name ((cstr (escaped c1 c2 :: decoded rest)).getLastD last) text) :
    ¬ cstr (escaped c1 c2 :: decoded rest) ++ text
      <+: cstr (decoded (chr '%' :: chr '%' :: h :: l :: (e ++ s))) := by
  intro hpre
  obtain ⟨k, t, htext, hk⟩ := hstart
  have hbounds := hd.first_bounds hc
  have hw : escaped (chr '%') h ≠ 0 := by
    intro h0
    rw [h0] at hbounds
    exact absurd hbounds.1 (by decide)
  rw [hd.decoded_first, cstr_cons_of_ne hw, cstr_hex hd.low] at hpre
  by_cases hnul : escaped c1 c2 = 0
  · rw [hnul, cstr_zero_cons, List.nil_append, htext, List.cons_prefix_cons] at hpre
    rw [hpre.1] at hk
    omega
  · rw [cstr_cons_of_ne hnul, List.cons_append, List.cons_prefix_cons] at hpre
    rw [cstr_cons_of_ne hnul, List.getLastD_cons] at hjoint
    have hlast : is_separator (escaped c1 c2) = false :=
      not_separator_of_toNat (Or.inl (escaped_first hc.not_hex c2))
    -- the second digit of the URL counts, so it was not escaped as well
    have hc2 : is_hex c2 := by
      by_contra hhex
      have hvalue := escaped_toNat c1 c2
      rw [hex_digit_of_not_hex hc.not_hex, hex_digit_of_not_hex hhex] at hvalue
      exact hnul (UInt8.toNat_inj.mp (by simpa using hvalue))
    obtain ⟨e, rfl, hesc'⟩ := hesc.of_not_escapable (fun h => h.not_hex hc2)
    rw [List.cons_append, decoded_hex hc2, cstr_cons_of_ne h2] at hpre
    have hhex : ∀ y ∈ [l, c2], is_hex y :=
      List.forall_mem_cons.mpr ⟨hd.low, List.forall_mem_singleton.mpr hc2⟩
    exact lagging_absurd rest hesc' h0 (List.cons_ne_nil _ _) hhex hlast hjoint hpre.2

/-- The second byte behind a '%' was escaped: both its digits are ahead of the rest. -/
theorem second_escaped_absurd (hne : text ≠ []) {s : List u8} {c1 c2 h l : u8}
    {rest e : List u8} (h1 : c1 ≠ 0) (hc : Escapable c2) (hd : Digits c2 h l)
    (hesc : Escapes rest e) (h0 : 0 ∉ rest)
    (hjoint : Joint name ((cstr (escaped c1 c2 :: decoded rest)).getLastD last) text) :
    ¬ cstr (escaped c1 c2 :: decoded rest) ++ text
      <+: cstr (decoded (chr '%' :: c1 :: chr '%' :: h :: l :: (e ++ s))) := by
  intro hpre
  rw [hd.decoded_second h1 hc] at hpre
  by_cases hnul : escaped c1 c2 = 0
  · rw [hnul, cstr_zero_cons, cstr_zero_cons, List.nil_append] at hpre
    exact hne (List.prefix_nil.mp hpre)
  · rw [cstr_cons_of_ne hnul, cstr_cons_of_ne hnul, List.cons_append, List.cons_prefix_cons,
      cstr_hex hd.high, cstr_hex hd.low] at hpre
    rw [cstr_cons_of_ne hnul, List.getLastD_cons] at hjoint
    have hlast : is_separator (escaped c1 c2) = false :=
      not_separator_of_toNat (Or.inr (escaped_second c1 hc.not_hex))
    exact lagging_absurd rest hesc h0 (List.cons_ne_nil _ _) hd.forall_hex hlast hjoint hpre.2

/-- **A URL that leads back is steady.** What the URL decodes to, followed by `text`, is what
the request decodes to. The induction reads the URL as the decoder does, and `last` is the
byte decoded before. -/
theorem steady_of_prefix (hstart : ∃ c t, text = c :: t ∧ 16 ≤ c.toNat) {s : List u8}
    (hs0 : 0 ∉ s) (hs : (cstr (decoded s)).length ≤ name.length) (u : List u8) :
    ∀ {e : List u8} {last : u8}, Escapes u e → 0 ∉ u →
      (u = [] ∧ is_separator last = false ∨ u.getLast? = some (chr '/')) →
      Joint name ((cstr (decoded u)).getLastD last) text →
      cstr (decoded u) ++ text <+: cstr (decoded (e ++ s)) →
      Steady u e ∧ text = name ∧ name <+: cstr (decoded s) := by
  have hne : text ≠ [] := by
    obtain ⟨c, t, rfl, -⟩ := hstart
    exact List.cons_ne_nil c t
  induction u using url_induction with
  | nil =>
      intro e last hesc _ hend hjoint hpre
      cases hesc
      have hsep := (text_fits hs hjoint hpre).1
      rcases hend with ⟨-, hlast⟩ | hend
      · rw [decoded_nil, cstr_nil, List.getLastD_nil, hlast] at hsep
        exact absurd hsep (by decide)
      · exact absurd hend (by simp)
  | plain c p hp ih =>
      intro e last hesc h0 hend hjoint hpre
      have hslash : (c :: p).getLast? = some (chr '/') := hend.resolve_left (by simp)
      by_cases hpercent : c = chr '%'
      · subst hpercent
        exact absurd hpre (lone_percent_absurd hs0 hne (hp rfl) hslash hesc)
      · rw [List.mem_cons, not_or] at h0
        have hu := unescaped_ne_zero (Ne.symm h0.1)
        rw [decoded_plain hp, cstr_cons_of_ne hu, List.getLastD_cons] at hjoint
        rw [decoded_plain hp, cstr_cons_of_ne hu, List.cons_append] at hpre
        cases hesc with
        | @keep _ _ e rest =>
            rw [List.cons_append, decoded_plain (fun h => absurd h hpercent), cstr_cons_of_ne hu,
              List.cons_prefix_cons] at hpre
            cases p with
            | nil =>
                -- the last byte of the URL
                have hc : c = chr '/' := by simpa using hslash
                subst hc
                cases rest
                rw [decoded_nil, cstr_nil, List.nil_append] at hpre
                obtain ⟨-, rfl⟩ := text_fits hs hjoint hpre.2
                exact ⟨.slash, rfl, hpre.2⟩
            | cons d p =>
                rw [List.getLast?_cons_cons] at hslash
                obtain ⟨hsteady, hrest⟩ := ih rest h0.2 (Or.inr hslash) hjoint hpre.2
                exact ⟨.keep hpercent hsteady, hrest⟩
        | @escape _ h l hc hd _ e rest =>
            have hplus := hc.ne (d := chr '+') (by decide) (by decide)
            rw [List.cons_append, List.cons_append, List.cons_append, hd.decoded,
              cstr_cons_of_ne (Ne.symm h0.1), List.cons_prefix_cons] at hpre
            cases p with
            | nil =>
                have hc' : c = chr '/' := by simpa using hslash
                exact absurd hc' (hc.ne (by decide) (by decide))
            | cons d p =>
                rw [List.getLast?_cons_cons] at hslash
                obtain ⟨hsteady, hrest⟩ := ih rest h0.2 (Or.inr hslash) hjoint hpre.2
                exact ⟨.escape hc hd hsteady, hrest⟩
  | escape c1 c2 rest ih =>
      intro e last hesc h0 hend hjoint hpre
      have hslash : (chr '%' :: c1 :: c2 :: rest).getLast? = some (chr '/') :=
        hend.resolve_left (by simp)
      simp only [List.mem_cons, not_or] at h0
      obtain ⟨-, h1, h2, h0⟩ := h0
      rw [decoded_escape (Ne.symm h1) (Ne.symm h2)] at hjoint hpre
      obtain ⟨e, rfl, hesc1⟩ := hesc.of_not_escapable (not_escapable_of_lt (by decide) (by decide))
      -- whose are the two bytes behind the '%'?
      cases hesc1 with
      | escape hc hd hesc2 =>
          exact absurd hpre (first_escaped_absurd hstart hc hd hesc2 (Ne.symm h2) h0 hjoint)
      | keep _ hesc2 =>
          cases hesc2 with
          | escape hc hd hesc3 =>
              exact absurd hpre (second_escaped_absurd hne (Ne.symm h1) hc hd hesc3 h0 hjoint)
          | @keep _ _ e hesc3 =>
              rw [List.cons_append, List.cons_append, List.cons_append,
                decoded_escape (Ne.symm h1) (Ne.symm h2)] at hpre
              by_cases hnul : escaped c1 c2 = 0
              · rw [hnul, cstr_zero_cons, cstr_zero_cons, List.nil_append] at hpre
                exact absurd (List.prefix_nil.mp hpre) hne
              · rw [cstr_cons_of_ne hnul, cstr_cons_of_ne hnul, List.cons_append,
                  List.cons_prefix_cons] at hpre
                rw [cstr_cons_of_ne hnul, List.getLastD_cons] at hjoint
                have hend' : rest = [] ∧ is_separator (escaped c1 c2) = false
                    ∨ rest.getLast? = some (chr '/') := by
                  cases rest with
                  | nil =>
                      -- the slash was taken for a digit
                      have hc2 : c2 = chr '/' := by simpa using hslash
                      have hmod : (escaped c1 c2).toNat % 16 = 0 := escaped_second c1 (by rw [hc2]; decide)
                      exact Or.inl ⟨rfl, not_separator_of_toNat (Or.inr hmod)⟩
                  | cons d rest =>
                      rw [List.getLast?_cons_cons, List.getLast?_cons_cons,
                        List.getLast?_cons_cons] at hslash
                      exact Or.inr hslash
                obtain ⟨hsteady, hrest⟩ := ih hesc3 h0 hend' hjoint hpre.2
                exact ⟨.digits hnul hsteady, hrest⟩

/-- Both texts start with a slash, or neither does. -/
theorem headD_slash_iff {u e s : List u8} (hesc : Escapes u e) (h0 : 0 ∉ u) (hs0 : 0 ∉ s)
    (hslash : u.getLast? = some (chr '/')) :
    (cstr (decoded (e ++ s))).headD 0 = chr '/' ↔ (cstr (decoded u)).headD 0 = chr '/' := by
  have hhead : ∀ (c : u8) (p : List u8), (cstr (c :: p)).headD 0 = c := by
    intro c p
    rw [cstr_cons]
    split_ifs with hc
    · rw [hc]; rfl
    · rfl
  have hlow : ∀ {c : u8}, c.toNat < 16 → c ≠ chr '/' := by
    rintro c hc rfl
    exact absurd hc (by decide)
  cases u using url_induction with
  | nil => exact absurd hslash (by simp)
  | plain c p hp _ =>
      by_cases hpercent : c = chr '%'
      · -- "%/", and what the '%' makes of the slash is a control character
        subst hpercent
        obtain ⟨e, rfl, hesc1⟩ := hesc.of_not_escapable (not_escapable_of_lt (by decide) (by decide))
        match p, hp rfl with
        | [], _ => exact absurd hslash (by decide)
        | [d], _ =>
            have hd : d = chr '/' := by simpa using hslash
            subst hd
            obtain ⟨e, rfl, hesc2⟩ :=
              hesc1.of_not_escapable (not_escapable_of_lt (by decide) (by decide))
            cases hesc2
            refine iff_of_false ?_ (by decide)
            cases s with
            | nil => decide
            | cons d s =>
                rw [List.mem_cons, not_or] at hs0
                show (cstr (decoded (chr '%' :: chr '/' :: d :: s))).headD 0 ≠ chr '/'
                rw [decoded_escape (by decide) (Ne.symm hs0.1), hhead]
                exact hlow (escaped_first (by decide) d)
      · rw [decoded_plain hp, hhead]
        cases hesc with
        | keep _ rest =>
            rw [List.cons_append, decoded_plain (fun h => absurd h hpercent), hhead]
        | escape hc hd rest =>
            have hplus := hc.ne (d := chr '+') (by decide) (by decide)
            rw [List.cons_append, List.cons_append, List.cons_append, hd.decoded, hhead, unescaped,
              if_neg hplus]
  | escape c1 c2 rest _ =>
      -- an escape in front, of which the client may have escaped either digit
      simp only [List.mem_cons, not_or] at h0
      obtain ⟨-, h1, h2, -⟩ := h0
      rw [decoded_escape (Ne.symm h1) (Ne.symm h2), hhead]
      obtain ⟨e, rfl, hesc1⟩ := hesc.of_not_escapable (not_escapable_of_lt (by decide) (by decide))
      cases hesc1 with
      | escape hc hd _ =>
          refine iff_of_false ?_ (hlow (escaped_first hc.not_hex c2))
          rw [List.cons_append, List.cons_append, List.cons_append, List.cons_append,
            hd.decoded_first, hhead]
          exact hlow (hd.first_bounds hc).2
      | keep _ hesc2 =>
          cases hesc2 with
          | escape hc hd _ =>
              rw [List.cons_append, List.cons_append, List.cons_append, List.cons_append,
                List.cons_append, hd.decoded_second (Ne.symm h1) hc, hhead]
          | keep _ _ =>
              rw [List.cons_append, List.cons_append, List.cons_append,
                decoded_escape (Ne.symm h1) (Ne.symm h2), hhead]

end W32HttpServer.SteadyUrl

/-
What decides the content type of a file.

`detect_mime_type` looks for the last dot of the whole path, not of the last component. Where
the last component has a dot the two are the same. Where it has none, what follows the last dot
runs through the rest of a directory name and a separator, and no extension of the table has a
separator in it, so the type is looked for in the content as if there were no dot at all
(`extension_of_last_component`). The directories on the way to a file therefore never decide its
type (`extension_decides`).
-/
import Mathlib.Data.List.DropRight
import W32HttpServer.Common
import W32HttpServer.HttpPath
import W32HttpServer.HttpResponse

set_option autoImplicit false

namespace W32HttpServer.ContentType

open W32HttpServer.Common W32HttpServer.HttpPath W32HttpServer.HttpResponse

/-! ## Components and extensions -/

/-- What follows the last separator of a path. -/
def last_component (path : List u8) : List u8 := path.rtakeWhile (fun c => !is_separator c)

/-- The part of a text from its last dot on. -/
def FinalExtension (text ext : List u8) : Prop :=
  ∃ stem tail, text = stem ++ ext ∧ ext = chr '.' :: tail ∧ chr '.' ∉ tail

/-- The table knows the extension, in whatever case it is written. -/
def KnownExtension (ext mime : List u8) : Prop :=
  ∃ e ∈ extension_types, ext.map tolower = e.1.map tolower ∧ e.2 = mime

/-- The last component of the path has an extension of this type. -/
def HasType (path mime : List u8) : Prop :=
  ∃ ext, FinalExtension (last_component path) ext ∧ KnownExtension ext mime

/-! ## The last dot -/

theorem file_ext_eq_none_iff (p : List u8) : file_ext p = none ↔ chr '.' ∉ p := by
  induction p with
  | nil => exact iff_of_true rfl List.not_mem_nil
  | cons c p ih =>
      rw [file_ext, List.mem_cons, not_or]
      rcases hext : file_ext p with _ | e
      · rw [hext] at ih
        dsimp only
        have hno : chr '.' ∉ p := ih.mp rfl
        by_cases hc : c = chr '.'
        · rw [if_pos hc]
          exact iff_of_false (by simp) (fun h => h.1 hc.symm)
        · rw [if_neg hc]
          exact iff_of_true rfl ⟨fun h => hc h.symm, hno⟩
      · rw [hext] at ih
        exact iff_of_false (by simp) (fun h => absurd (ih.mpr h.2) (by simp))

/-- In front of an extension anything may stand. -/
theorem file_ext_append {name ext : List u8} (h : file_ext name = some ext) (dir : List u8) :
    file_ext (dir ++ name) = some ext := by
  induction dir with
  | nil => exact h
  | cons c dir ih => rw [List.cons_append, file_ext, ih]

theorem file_ext_eq_some_iff (p ext : List u8) : file_ext p = some ext ↔ FinalExtension p ext := by
  constructor
  · intro h
    induction p with
    | nil => exact absurd h (by simp [file_ext])
    | cons c p ih =>
        rw [file_ext] at h
        rcases hext : file_ext p with _ | e
        · rw [hext] at h
          dsimp only at h
          split_ifs at h with hc
          obtain rfl := Option.some.inj h
          exact ⟨[], p, rfl, by rw [hc], (file_ext_eq_none_iff p).mp hext⟩
        · rw [hext] at h
          obtain ⟨stem, tail, rfl, htail, hdot⟩ := ih (hext.trans h)
          exact ⟨c :: stem, tail, rfl, htail, hdot⟩
  · rintro ⟨stem, tail, rfl, rfl, hdot⟩
    apply file_ext_append
    rw [file_ext, (file_ext_eq_none_iff tail).mpr hdot]
    exact if_pos rfl

/-! ## The table -/

/-- An extension with a separator in it is not in the table. -/
theorem not_known_of_separator {ext : List u8} {c : u8} (hc : c ∈ ext)
    (hsep : is_separator c = true) (mime : List u8) : ¬ KnownExtension ext mime := by
  rintro ⟨e, he, heq, -⟩
  have hplain : ∀ e ∈ extension_types, ∀ c ∈ e.1.map tolower, is_separator c = false := by
    decide +kernel
  have hlower : tolower c = c := by
    rw [is_separator, Bool.or_eq_true, beq_iff_eq, beq_iff_eq] at hsep
    rcases hsep with rfl | rfl <;> decide
  have hmem : c ∈ e.1.map tolower := heq ▸ List.mem_map.mpr ⟨c, hc, hlower⟩
  rw [hplain e he c hmem] at hsep
  exact absurd hsep (by decide)

/-- What the comparisons of the table make of an extension. -/
theorem lstrcmpi_entry_iff {ext : List u8} (h0 : 0 ∉ ext) {e : List u8 × List u8}
    (he : e ∈ extension_types) : lstrcmpi ext e.1 = true ↔ ext.map tolower = e.1.map tolower := by
  have hnul : ∀ e ∈ extension_types, cstr e.1 = e.1 := by decide +kernel
  rw [lstrcmpi, beq_iff_eq, cstr_of_no_nul h0, hnul e he]

theorem get_mime_type_of_known {ext mime : List u8} (h0 : 0 ∉ ext) (h : KnownExtension ext mime) :
    get_mime_type_from_extension (some ext) = mime := by
  obtain ⟨e, he, heq, rfl⟩ := h
  -- no extension stands in the table twice
  have hkeys : (extension_types.map fun e => e.1.map tolower).Nodup := by decide +kernel
  rw [get_mime_type_from_extension]
  rcases hfind : extension_types.find? (fun e => lstrcmpi ext e.1) with _ | e'
  · have hno := List.find?_eq_none.mp hfind e he
    exact absurd ((lstrcmpi_entry_iff h0 he).mpr heq) hno
  · have he' := List.mem_of_find?_eq_some hfind
    have hcmp : lstrcmpi ext e'.1 = true :=
      List.find?_some (p := fun e : List u8 × List u8 => lstrcmpi ext e.1) hfind
    have hsame := (lstrcmpi_entry_iff h0 he').mp hcmp
    have hentry : e' = e := List.inj_on_of_nodup_map hkeys he' he (hsame.symm.trans heq)
    rw [hfind, hentry]

theorem get_mime_type_of_unknown {ext : List u8} (h0 : 0 ∉ ext)
    (h : ∀ mime, ¬ KnownExtension ext mime) :
    get_mime_type_from_extension (some ext) = octet_stream := by
  have hnone : extension_types.find? (fun e => lstrcmpi ext e.1) = none := by
    rw [List.find?_eq_none]
    intro e he hcmp
    exact h e.2 ⟨e, he, (lstrcmpi_entry_iff h0 he).mp hcmp, rfl⟩
  rw [get_mime_type_from_extension]
  rw [hnone]

/-! ## The last component -/

theorem last_component_suffix (path : List u8) : last_component path <:+ path :=
  List.rtakeWhile_suffix _ _

/-- In front of the last component there is nothing, or a separator. -/
theorem cut_last_component (path : List u8) :
    path = last_component path ∨ ∃ dir c, path = dir ++ c :: last_component path
      ∧ is_separator c = true := by
  induction path using List.reverseRecOn with
  | nil => exact Or.inl rfl
  | append_singleton path c ih =>
      rcases hc : is_separator c with _ | _
      · have hkeep : last_component (path ++ [c]) = last_component path ++ [c] :=
          List.rtakeWhile_concat_pos _ _ _ (by simp [hc])
        rw [hkeep]
        rcases ih with h | ⟨dir, d, h, hd⟩
        · exact Or.inl (by rw [← h])
        · refine Or.inr ⟨dir, d, ?_, hd⟩
          rw [← List.cons_append, ← List.append_assoc, ← h]
      · have hnil : last_component (path ++ [c]) = [] :=
          List.rtakeWhile_concat_neg _ _ _ (by simp [hc])
        rw [hnil]
        exact Or.inr ⟨path, c, rfl, hc⟩

/-- A dot in a directory name begins no extension the table knows. -/
theorem extension_of_last_component {path : List u8} (h0 : 0 ∉ path) :
    get_mime_type_from_extension (file_ext path)
      = get_mime_type_from_extension (file_ext (last_component path)) := by
  rcases cut_last_component path with h | ⟨dir, c, h, hsep⟩
  · rw [← h]
  generalize last_component path = name at h
  subst h
  rcases hname : file_ext name with _ | ext
  · -- the last dot, if there is one, stands in front of the separator
    have hnodot : chr '.' ∉ c :: name := by
      rw [List.mem_cons, not_or]
      refine ⟨fun hc => ?_, (file_ext_eq_none_iff name).mp hname⟩
      rw [← hc] at hsep
      exact absurd hsep (by decide)
    rcases hpath : file_ext (dir ++ c :: name) with _ | ext
    · rfl
    · obtain ⟨stem, tail, hcut, rfl, -⟩ := (file_ext_eq_some_iff _ _).mp hpath
      have hext : chr '.' :: tail <:+ dir ++ c :: name := ⟨stem, hcut.symm⟩
      have hin : c ∈ chr '.' :: tail := by
        rcases List.suffix_or_suffix_of_suffix hext (List.suffix_append dir (c :: name))
          with hshort | hlong
        · exact absurd (hshort.subset List.mem_cons_self) hnodot
        · exact hlong.subset List.mem_cons_self
      have hnul : 0 ∉ chr '.' :: tail := fun hz => h0 (hext.subset hz)
      apply get_mime_type_of_unknown hnul
      exact fun mime => not_known_of_separator hin hsep mime
  · have hsplit : dir ++ c :: name = (dir ++ [c]) ++ name := by
      rw [List.append_assoc, List.singleton_append]
    rw [hsplit, file_ext_append hname]

/-! ## What the type is -/

/-- No type of the table is the one that stands for "unknown". -/
theorem not_octet_stream {ext mime : List u8} (h : KnownExtension ext mime) :
    lstrcmp mime octet_stream = false := by
  obtain ⟨e, he, -, rfl⟩ := h
  have hall : ∀ e ∈ extension_types, lstrcmp e.2 octet_stream = false := by decide +kernel
  exact hall e he

/-- A type is decided by the extension of the last component alone, or by the content alone. -/
theorem detect_mime_type_eq (file_path file_data : List u8) :
    detect_mime_type file_path file_data
      = let mime := get_mime_type_from_extension (file_ext (last_component (cstr file_path)))
        if lstrcmp mime octet_stream = false then mime
        else (get_mime_type_from_magic file_data).getD octet_stream := by
  rw [detect_mime_type, extension_of_last_component (cstr_no_nul file_path)]

theorem no_nul_of_extension {path ext : List u8}
    (h : FinalExtension (last_component (cstr path)) ext) : 0 ∉ ext := by
  obtain ⟨stem, tail, hcut, -, -⟩ := h
  intro h0
  have hmem : 0 ∈ last_component (cstr path) := hcut ▸ List.mem_append_right stem h0
  exact cstr_no_nul path ((last_component_suffix (cstr path)).subset hmem)

/-- **The extension of the last component decides**, and where it is none of the table the
content does; the directories in front of the last component never do. -/
theorem extension_decides (file_path : List u8) :
    (∀ mime, HasType (cstr file_path) mime →
        ∀ file_data, detect_mime_type file_path file_data = mime)
      ∧ ((∀ mime, ¬ HasType (cstr file_path) mime) → ∀ file_data,
        detect_mime_type file_path file_data
          = (get_mime_type_from_magic file_data).getD octet_stream)
      ∧ ∀ other, last_component (cstr other) = last_component (cstr file_path) →
        ∀ file_data, detect_mime_type other file_data = detect_mime_type file_path file_data := by
  refine ⟨?_, ?_, ?_⟩
  · rintro mime ⟨ext, hext, hknown⟩ file_data
    have hmime := get_mime_type_of_known (no_nul_of_extension hext) hknown
    rw [detect_mime_type_eq, (file_ext_eq_some_iff _ ext).mpr hext]
    dsimp only
    rw [hmime, if_pos (not_octet_stream hknown)]
  · intro hnone file_data
    have hoctet : get_mime_type_from_extension (file_ext (last_component (cstr file_path)))
        = octet_stream := by
      rcases hext : file_ext (last_component (cstr file_path)) with _ | ext
      · rfl
      · have hfinal := (file_ext_eq_some_iff _ ext).mp hext
        apply get_mime_type_of_unknown (no_nul_of_extension hfinal)
        exact fun mime hknown => hnone mime ⟨ext, hfinal, hknown⟩
    rw [detect_mime_type_eq, hoctet]
    exact if_neg (by decide)
  · intro other hsame file_data
    rw [detect_mime_type_eq, detect_mime_type_eq, hsame]

/-- A directory with the name of a page in it. -/
example : detect_mime_type (ascii "C:\\site.html/readme") [0x42, 0x4D, 0, 0] = ascii "image/bmp" := by
  decide

end W32HttpServer.ContentType

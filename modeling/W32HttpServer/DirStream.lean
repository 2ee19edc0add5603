/-
The directory generator: `dir_stream_next` of server_win32.c.

One call fills one buffer. It emits the opening markup if that is still owed, then rows
until the next one would not leave room for the footer, and the footer once the
enumeration is exhausted; what it did not get to is kept in the context for the next
call. The loop over the entries ends because an enumeration does: each round either
consumes the pending entry or fetches one.

The listing is right when nothing is lost or repeated at a chunk boundary, wherever it
falls. `Owes` says what a context still has to emit, one call pays a part of that
(`dir_stream_next_pays`), and the debt rule of `Lib.Generator` turns this into the whole
page (`dir_stream_drains`).
-/
import W32HttpServer.Common
import W32HttpServer.Platform
import W32HttpServer.Disk
import W32HttpServer.Context
import W32HttpServer.Lib.Generator

set_option autoImplicit false

namespace W32HttpServer.DirStream

open W32HttpServer.Common W32HttpServer.Platform W32HttpServer.Context
open W32HttpServer.Disk W32HttpServer.Lib.Generator

variable {σ : Type}

/-! ## The generator -/

def tail_reserve : ℕ := 64

def is_directory (e : WIN32_FIND_DATA) : Bool := e.dwFileAttributes &&& FILE_ATTRIBUTE_DIRECTORY != 0

/-- The text of the row of one entry, as the format strings spell it. -/
def row_text (e : WIN32_FIND_DATA) : List u8 :=
  let name := e.cFileName.bytes
  if is_directory e then
    ascii "<li><a href=\"" ++ name ++ ascii "/\">" ++ name ++ ascii "/</a></li>\r\n"
  else
    ascii "<li><a href=\"" ++ name ++ ascii "\">" ++ name ++ ascii "</a> ("
      ++ fmt_u e.nFileSizeLow.toNat ++ ascii " bytes)</li>\r\n"

def intro_text (dir_url : List u8) : List u8 :=
  ascii "<html>\r\n<head><title>Index of " ++ dir_url ++ ascii "</title></head>\r\n"
    ++ ascii "<body>\r\n<h1>Index of " ++ dir_url ++ ascii "</h1>\r\n<ul>\r\n"

def parent_link : List u8 := ascii "<li><a href=\"../\">../ (parent directory)</a></li>\r\n"

def footer_text : List u8 := ascii "</ul>\r\n</body>\r\n</html>\r\n"

/-- The "." and ".." pseudo-entries. -/
def is_pseudo (e : WIN32_FIND_DATA) : Bool :=
  lstrcmp e.cFileName.bytes (ascii ".") || lstrcmp e.cFileName.bytes (ascii "..")

/-- Phase 1. -/
def dir_intro (ctx : stream_state_t) : List u8 × stream_state_t :=
  if ctx.dir_phase = .DIR_PHASE_INTRO then
    let buf := wsprintf (intro_text ctx.dir_url.bytes)
    let buf := if lstrcmp ctx.dir_url.bytes (ascii "/") then buf else buf ++ wsprintf parent_link
    (buf, { ctx with dir_phase := .DIR_PHASE_ENTRIES })
  else ([], ctx)

/-- Get an entry: the one carried over, or a fresh one. The flag is `have`. -/
def next_entry (fs : FileSystem σ) (ctx : stream_state_t) (s : σ) :
    Bool × stream_state_t × σ :=
  if ctx.dir_has_pending then (true, ctx, s)
  else if ctx.dir_find ≠ .INVALID_HANDLE_VALUE then
    match fs.FindNextFile s ctx.dir_find with
    | (some e, s) => (true, { ctx with dir_pending := e, dir_has_pending := true }, s)
    | (none, s) => (false, { ctx with dir_has_pending := false }, s)
  else (false, ctx, s)

/-- How much of an enumeration a context has in front of it, the pending entry included. -/
def entries_ahead (fs : FileSystem σ) (ctx : stream_state_t) (s : σ) : ℕ :=
  fs.entries_left s ctx.dir_find + if ctx.dir_has_pending then 1 else 0

theorem next_entry_ahead {fs : FileSystem σ} {ctx ctx' : stream_state_t} {s s' : σ}
    (h : next_entry fs ctx s = (true, ctx', s')) :
    ctx'.dir_find = ctx.dir_find ∧ ctx'.dir_has_pending = true
      ∧ entries_ahead fs { ctx' with dir_has_pending := false } s' < entries_ahead fs ctx s := by
  unfold next_entry at h
  split_ifs at h with hp hf
  · obtain ⟨-, rfl, rfl⟩ := Prod.mk.inj h |>.imp_right Prod.mk.inj
    refine ⟨rfl, hp, ?_⟩
    simp only [entries_ahead, hp, if_true, Bool.false_eq_true, if_false]
    omega
  · rcases hn : fs.FindNextFile s ctx.dir_find with ⟨_ | e, s1⟩
    · rw [hn] at h
      simp at h
    · rw [hn] at h
      obtain ⟨-, rfl, rfl⟩ := Prod.mk.inj h |>.imp_right Prod.mk.inj
      have hlt := fs.find_next_lt (s := s) (h := ctx.dir_find) (e := e) (by rw [hn])
      rw [hn] at hlt
      dsimp only at hlt
      refine ⟨rfl, rfl, ?_⟩
      simp only [entries_ahead, Bool.false_eq_true, if_false]
      omega
  · exact absurd h (by simp)

/-- Phase 2. The flag says that the function returned from inside the loop, with the row
of the pending entry still to come. -/
def dir_entries (fs : FileSystem σ) (buf_size : ℕ) (ctx : stream_state_t) (s : σ)
    (buf : List u8) : Bool × List u8 × stream_state_t × σ :=
  match _hnext : next_entry fs ctx s with
  | (false, ctx1, s1) => (false, buf, { ctx1 with dir_phase := .DIR_PHASE_FOOTER }, s1)
  | (true, ctx1, s1) =>
      if is_pseudo ctx1.dir_pending then
        dir_entries fs buf_size { ctx1 with dir_has_pending := false } s1 buf
      else
        let entry := wsprintf (row_text ctx1.dir_pending)
        -- a row that does not fit stays pending for the next call
        if buf.length + entry.length > sub_u32 buf_size tail_reserve then (true, buf, ctx1, s1)
        else dir_entries fs buf_size { ctx1 with dir_has_pending := false } s1 (buf ++ entry)
termination_by entries_ahead fs ctx s
decreasing_by all_goals exact (next_entry_ahead _hnext).2.2

/-- Phases 2 and 3, behind what phase 1 has put into the buffer. -/
def dir_rest (fs : FileSystem σ) (buf_size : ℕ) (ctx : stream_state_t) (s : σ) (buf : List u8) :
    List u8 × stream_state_t × σ :=
  let (returned, buf, ctx, s) :=
    if ctx.dir_phase = .DIR_PHASE_ENTRIES then dir_entries fs buf_size ctx s buf
    else (false, buf, ctx, s)
  if returned then (buf, ctx, s)
  else if ctx.dir_phase = .DIR_PHASE_FOOTER then
    (buf ++ wsprintf footer_text, { ctx with dir_phase := .DIR_PHASE_DONE }, s)
  else (buf, ctx, s)

def dir_stream_next (fs : FileSystem σ) (buf_size : ℕ) (ctx : stream_state_t) (s : σ) :
    List u8 × stream_state_t × σ :=
  if ctx.dir_phase = .DIR_PHASE_DONE then ([], ctx, s)
  else
    let (buf, ctx) := dir_intro ctx
    dir_rest fs buf_size ctx s buf

/-- The part of `serve_http_request` that sets the generator up. -/
def open_listing (fs : FileSystem σ) (ctx : stream_state_t) (url_path pattern : List u8) (s : σ) :
    stream_state_t × σ :=
  let r := fs.FindFirstFile s pattern
  ({ ctx with
      dir_url := lstrcpyn MAX_PATH (by decide) url_path
      dir_find := HANDLE.ofOption (r.1.map Prod.fst)
      dir_pending := (r.1.map Prod.snd).getD ctx.dir_pending
      dir_has_pending := r.1.isSome
      dir_phase := .DIR_PHASE_INTRO
      stream_kind := .STREAM_DIR }, r.2)

/-! ## What is ahead of a context -/

/-- The entries a context has in front of it, the pending one first. -/
inductive Ahead (fs : FileSystem σ) (ctx : stream_state_t) (s : σ) :
    List WIN32_FIND_DATA → Prop
  | closed (hfind : ctx.dir_find = .INVALID_HANDLE_VALUE) (hpend : ctx.dir_has_pending = false) :
      Ahead fs ctx s []
  | fresh {es : List WIN32_FIND_DATA} (hfind : ctx.dir_find ≠ .INVALID_HANDLE_VALUE)
      (hpend : ctx.dir_has_pending = false) (rest : Enumerates fs s ctx.dir_find es) :
      Ahead fs ctx s es
  | pending {es : List WIN32_FIND_DATA} (hfind : ctx.dir_find ≠ .INVALID_HANDLE_VALUE)
      (hpend : ctx.dir_has_pending = true) (rest : Enumerates fs s ctx.dir_find es) :
      Ahead fs ctx s (ctx.dir_pending :: es)

/-- The rows of a list of entries, pseudo-entries left out. -/
def rows (es : List WIN32_FIND_DATA) : List u8 :=
  (es.filter (fun e => !is_pseudo e)).flatMap row_text

@[simp] theorem rows_nil : rows [] = [] := rfl

theorem rows_cons (e : WIN32_FIND_DATA) (es : List WIN32_FIND_DATA) :
    rows (e :: es) = (if is_pseudo e then [] else row_text e) ++ rows es := by
  rcases h : is_pseudo e with _ | _ <;> simp [rows, h]

/-- The opening markup of a page, with the parent link everywhere but at "/". -/
def opening (dir_url : List u8) : List u8 :=
  intro_text dir_url ++ if dir_url = ascii "/" then [] else parent_link

/-! ## Lengths -/

theorem row_text_length (e : WIN32_FIND_DATA) : (row_text e).length
    = if is_directory e then 28 + 2 * e.cFileName.bytes.length
      else 35 + 2 * e.cFileName.bytes.length + (fmt_u e.nFileSizeLow.toNat).length := by
  have h1 : (ascii "<li><a href=\"").length = 13 := by decide
  have h2 : (ascii "/\">").length = 3 := by decide
  have h3 : (ascii "/</a></li>\r\n").length = 12 := by decide
  have h4 : (ascii "\">").length = 2 := by decide
  have h5 : (ascii "</a> (").length = 6 := by decide
  have h6 : (ascii " bytes)</li>\r\n").length = 14 := by decide
  unfold row_text
  split_ifs
  · simp only [List.length_append, h1, h2, h3]
    omega
  · simp only [List.length_append, h1, h4, h5, h6]
    omega

theorem row_text_length_le (e : WIN32_FIND_DATA) : (row_text e).length ≤ 563 := by
  have hname : e.cFileName.bytes.length ≤ 259 := Nat.le_of_lt_succ e.cFileName.fits
  have hsize := fmt_u_length_le e.nFileSizeLow
  rw [row_text_length]
  split_ifs <;> omega

/-- No row reaches the limit of `wsprintf`. -/
theorem row_written_whole (e : WIN32_FIND_DATA) : wsprintf (row_text e) = row_text e :=
  wsprintf_of_lt (by have := row_text_length_le e; omega)

/-- **A row fits its buffer**, `char entry[MAX_PATH + 160]`, unless its name is too long to be
written twice. `wsprintf` is told nothing of the buffer, and the kind and the size take what they
take, so the name decides. -/
theorem row_fits_iff (e : WIN32_FIND_DATA) :
    (wsprintf (row_text e)).length + 1 ≤ MAX_PATH + 160
      ↔ (is_directory e = true ∧ e.cFileName.bytes.length ≤ 195)
        ∨ (is_directory e = false
          ∧ 2 * e.cFileName.bytes.length + (fmt_u e.nFileSizeLow.toNat).length ≤ 384) := by
  have hmax : MAX_PATH = 260 := rfl
  rw [row_written_whole, row_text_length]
  rcases hdir : is_directory e with _ | _
  · simp only [Bool.false_eq_true, if_false, false_and, true_and, false_or]
    omega
  · simp only [if_true, true_and, Bool.true_eq_false, false_and, or_false]
    omega

/-- A directory with a name of 200 letters: 429 bytes into 420. -/
theorem not_row_fits : ¬ ∀ e : WIN32_FIND_DATA, 1 ≤ e.cFileName.bytes.length →
    (wsprintf (row_text e)).length + 1 ≤ MAX_PATH + 160 := by
  intro h
  have hlen : (List.replicate 200 (chr 'a')).length = 200 := List.length_replicate
  have hname : 0 ∉ List.replicate 200 (chr 'a') :=
    fun h0 => absurd (List.eq_of_mem_replicate h0) (by decide)
  have hfits : (List.replicate 200 (chr 'a')).length < MAX_PATH := by rw [hlen]; decide
  have hdir : ∀ name, is_directory ⟨FILE_ATTRIBUTE_DIRECTORY, 0, name⟩ = true := by
    intro name
    show (FILE_ATTRIBUTE_DIRECTORY &&& FILE_ATTRIBUTE_DIRECTORY != 0) = true
    decide
  have hrow := h ⟨FILE_ATTRIBUTE_DIRECTORY, 0, ⟨List.replicate 200 (chr 'a'), hname, hfits⟩⟩
    (by dsimp only; omega)
  rw [row_written_whole, row_text_length, if_pos (hdir _)] at hrow
  dsimp only at hrow
  have hmax : MAX_PATH = 260 := rfl
  omega

theorem intro_text_length (url : List u8) : (intro_text url).length = 81 + 2 * url.length := by
  have h1 : (ascii "<html>\r\n<head><title>Index of ").length = 30 := by decide
  have h2 : (ascii "</title></head>\r\n").length = 17 := by decide
  have h3 : (ascii "<body>\r\n<h1>Index of ").length = 21 := by decide
  have h4 : (ascii "</h1>\r\n<ul>\r\n").length = 13 := by decide
  simp only [intro_text, List.length_append, h1, h2, h3, h4]
  omega

theorem parent_link_length : parent_link.length = 51 := by decide

/-- The opening markup of any URL leaves room for rows. -/
theorem opening_length_le (dir_url : CString MAX_PATH) : (opening dir_url.bytes).length ≤ 650 := by
  have hurl : dir_url.bytes.length ≤ 259 := Nat.le_of_lt_succ dir_url.fits
  rw [opening, List.length_append, intro_text_length]
  split_ifs
  · rw [List.length_nil]; omega
  · rw [parent_link_length]; omega

theorem footer_text_length : footer_text.length = 25 := by decide

/-! ## One call -/

theorem dir_entries_exhausted {fs : FileSystem σ} {ctx ctx1 : stream_state_t} {s s1 : σ}
    (h : next_entry fs ctx s = (false, ctx1, s1)) (buf_size : ℕ) (buf : List u8) :
    dir_entries fs buf_size ctx s buf
      = (false, buf, { ctx1 with dir_phase := .DIR_PHASE_FOOTER }, s1) := by
  rw [dir_entries]
  split
  · next heq =>
      rw [h] at heq
      obtain ⟨-, rfl, rfl⟩ := Prod.mk.inj heq |>.imp_right Prod.mk.inj
      rfl
  · next heq =>
      rw [h] at heq
      exact absurd heq (by simp)

theorem dir_entries_entry {fs : FileSystem σ} {ctx ctx1 : stream_state_t} {s s1 : σ}
    (h : next_entry fs ctx s = (true, ctx1, s1)) (buf_size : ℕ) (buf : List u8) :
    dir_entries fs buf_size ctx s buf
      = if is_pseudo ctx1.dir_pending then
          dir_entries fs buf_size { ctx1 with dir_has_pending := false } s1 buf
        else if buf.length + (row_text ctx1.dir_pending).length > sub_u32 buf_size tail_reserve then
          (true, buf, ctx1, s1)
        else dir_entries fs buf_size { ctx1 with dir_has_pending := false } s1
          (buf ++ row_text ctx1.dir_pending) := by
  rw [dir_entries]
  split
  · next heq =>
      rw [h] at heq
      exact absurd heq (by simp)
  · next heq =>
      rw [h] at heq
      obtain ⟨-, rfl, rfl⟩ := Prod.mk.inj heq |>.imp_right Prod.mk.inj
      rw [row_written_whole]

theorem next_entry_nil {fs : FileSystem σ} {ctx : stream_state_t} {s : σ}
    (h : Ahead fs ctx s []) : ∃ ctx' s', next_entry fs ctx s = (false, ctx', s') := by
  cases h with
  | closed hfind hpend =>
      exact ⟨ctx, s, by simp [next_entry, hpend, hfind]⟩
  | fresh hfind hpend rest =>
      cases rest with
      | done hnone =>
          refine ⟨{ ctx with dir_has_pending := false }, (fs.FindNextFile s ctx.dir_find).2, ?_⟩
          rcases hn : fs.FindNextFile s ctx.dir_find with ⟨r, s1⟩
          rw [hn] at hnone
          dsimp only at hnone
          subst hnone
          simp [next_entry, hpend, hfind, hn]

theorem next_entry_cons {fs : FileSystem σ} {ctx : stream_state_t} {s : σ} {e : WIN32_FIND_DATA}
    {es : List WIN32_FIND_DATA} (h : Ahead fs ctx s (e :: es)) :
    ∃ ctx' s', next_entry fs ctx s = (true, ctx', s') ∧ ctx'.dir_pending = e
      ∧ ctx'.dir_phase = ctx.dir_phase ∧ Ahead fs ctx' s' (e :: es)
      ∧ Ahead fs { ctx' with dir_has_pending := false } s' es := by
  cases h with
  | pending hfind hpend rest =>
      exact ⟨ctx, s, by simp [next_entry, hpend], rfl, rfl, .pending hfind hpend rest,
        .fresh hfind rfl rest⟩
  | fresh hfind hpend rest =>
      cases rest with
      | next hsome rest =>
          refine ⟨{ ctx with dir_pending := e, dir_has_pending := true },
            (fs.FindNextFile s ctx.dir_find).2, ?_, rfl, rfl, .pending hfind rfl rest,
            .fresh hfind rfl rest⟩
          rcases hn : fs.FindNextFile s ctx.dir_find with ⟨r, s1⟩
          rw [hn] at hsome
          dsimp only at hsome
          subst hsome
          simp [next_entry, hpend, hfind, hn]

/-- What phase 2 does, by how far it got: either all rows are out and the footer is due, or
it stopped in front of a row that does not fit and kept that entry. -/
theorem dir_entries_spec (fs : FileSystem σ) {buf_size : ℕ} (hlow : tail_reserve ≤ buf_size)
    (hhigh : buf_size < 2 ^ 32) (es : List WIN32_FIND_DATA) :
    ∀ (ctx : stream_state_t) (s : σ) (buf : List u8), Ahead fs ctx s es →
      ctx.dir_phase = .DIR_PHASE_ENTRIES → buf.length ≤ buf_size - tail_reserve →
      ∃ returned out es' ctx' s', dir_entries fs buf_size ctx s buf
          = (returned, buf ++ out, ctx', s')
        ∧ rows es = out ++ rows es' ∧ (buf ++ out).length ≤ buf_size - tail_reserve
        ∧ ((returned = false ∧ es' = [] ∧ ctx'.dir_phase = .DIR_PHASE_FOOTER)
          ∨ (returned = true ∧ ctx'.dir_phase = .DIR_PHASE_ENTRIES ∧ Ahead fs ctx' s' es'
            ∧ ∃ e, (buf ++ out).length + (row_text e).length > buf_size - tail_reserve)) := by
  have hcap : sub_u32 buf_size tail_reserve = buf_size - tail_reserve := sub_u32_of_le hlow hhigh
  induction es with
  | nil =>
      intro ctx s buf hahead hphase hbuf
      obtain ⟨ctx1, s1, hnext⟩ := next_entry_nil hahead
      refine ⟨false, [], [], { ctx1 with dir_phase := .DIR_PHASE_FOOTER }, s1, ?_, rfl, ?_,
        Or.inl ⟨rfl, rfl, rfl⟩⟩
      · rw [dir_entries_exhausted hnext, List.append_nil]
      · rwa [List.append_nil]
  | cons e es ih =>
      intro ctx s buf hahead hphase hbuf
      obtain ⟨ctx1, s1, hnext, rfl, hph, hkeep, hrest⟩ := next_entry_cons hahead
      rw [dir_entries_entry hnext]
      rcases hps : is_pseudo ctx1.dir_pending with _ | _
      · rw [if_neg (by simp), hcap]
        by_cases hfit : buf.length + (row_text ctx1.dir_pending).length
            > buf_size - tail_reserve
        · -- the row stays pending
          rw [if_pos hfit]
          refine ⟨true, [], ctx1.dir_pending :: es, ctx1, s1, ?_, rfl, ?_,
            Or.inr ⟨rfl, hph.trans hphase, hkeep, ctx1.dir_pending, ?_⟩⟩
          · rw [List.append_nil]
          · rwa [List.append_nil]
          · rwa [List.append_nil]
        · rw [if_neg hfit]
          -- the row is written, and the loop goes on behind it
          have hlen : (buf ++ row_text ctx1.dir_pending).length ≤ buf_size - tail_reserve := by
            rw [List.length_append]; omega
          obtain ⟨ret, out, es', ctx', s', heq, hrows, hcapout, hcase⟩ :=
            ih { ctx1 with dir_has_pending := false } s1 _ hrest (hph.trans hphase) hlen
          rw [List.append_assoc] at heq hcapout hcase
          refine ⟨ret, row_text ctx1.dir_pending ++ out, es', ctx', s', heq, ?_, hcapout, hcase⟩
          rw [rows_cons, hps, if_neg (by simp), hrows, List.append_assoc]
      · rw [if_pos rfl]
        -- a pseudo-entry has no row
        obtain ⟨ret, out, es', ctx', s', heq, hrows, hcapout, hcase⟩ :=
          ih { ctx1 with dir_has_pending := false } s1 buf hrest (hph.trans hphase) hbuf
        refine ⟨ret, out, es', ctx', s', heq, ?_, hcapout, hcase⟩
        rw [rows_cons, hps, if_pos rfl, List.nil_append, hrows]

/-- What a generator still has to emit. -/
inductive Owes (fs : FileSystem σ) : stream_state_t × σ → List u8 → Prop
  | intro {ctx : stream_state_t} {s : σ} {es : List WIN32_FIND_DATA}
      (hphase : ctx.dir_phase = .DIR_PHASE_INTRO) (ahead : Ahead fs ctx s es) :
      Owes fs (ctx, s) (opening ctx.dir_url.bytes ++ (rows es ++ footer_text))
  | entries {ctx : stream_state_t} {s : σ} {es : List WIN32_FIND_DATA}
      (hphase : ctx.dir_phase = .DIR_PHASE_ENTRIES) (ahead : Ahead fs ctx s es) :
      Owes fs (ctx, s) (rows es ++ footer_text)
  | done {ctx : stream_state_t} {s : σ} (hphase : ctx.dir_phase = .DIR_PHASE_DONE) :
      Owes fs (ctx, s) []

/-- The opening markup is written whole, and the entries are due. -/
theorem dir_intro_spec {ctx : stream_state_t} (hphase : ctx.dir_phase = .DIR_PHASE_INTRO) :
    dir_intro ctx
      = (opening ctx.dir_url.bytes, { ctx with dir_phase := .DIR_PHASE_ENTRIES }) := by
  have hurl : ctx.dir_url.bytes.length ≤ 259 := Nat.le_of_lt_succ ctx.dir_url.fits
  have h1 : wsprintf (intro_text ctx.dir_url.bytes) = intro_text ctx.dir_url.bytes :=
    wsprintf_of_lt (by rw [intro_text_length]; omega)
  have h2 : wsprintf parent_link = parent_link := wsprintf_of_lt (by decide)
  have hcmp : lstrcmp ctx.dir_url.bytes (ascii "/") = decide (ctx.dir_url.bytes = ascii "/") := by
    have hslash : cstr (ascii "/") = ascii "/" := by decide
    rw [lstrcmp, cstr_of_no_nul ctx.dir_url.no_nul, hslash, Bool.eq_iff_iff]
    simp
  rw [dir_intro, if_pos hphase, h1, h2, hcmp, opening]
  by_cases hroot : ctx.dir_url.bytes = ascii "/"
  · simp [hroot]
  · simp [hroot]

/-- Phases 2 and 3 together. The chunk is never empty: a row that does not fit behind an
empty buffer does not exist, and the footer is not empty. -/
theorem dir_rest_pays (fs : FileSystem σ) {buf_size : ℕ} (hlow : 1024 ≤ buf_size)
    (hhigh : buf_size < 2 ^ 32) {ctx : stream_state_t} {s : σ} {es : List WIN32_FIND_DATA}
    (hphase : ctx.dir_phase = .DIR_PHASE_ENTRIES) (ahead : Ahead fs ctx s es) (buf : List u8)
    (hbuf : buf.length ≤ buf_size - tail_reserve) :
    ∃ out r', (dir_rest fs buf_size ctx s buf).1 = buf ++ out
      ∧ rows es ++ footer_text = out ++ r' ∧ Owes fs (dir_rest fs buf_size ctx s buf).2 r'
      ∧ buf ++ out ≠ [] ∧ (buf ++ out).length ≤ buf_size := by
  have hres : tail_reserve = 64 := rfl
  obtain ⟨ret, out, es', ctx', s', heq, hrows, hcap, hcase⟩ :=
    dir_entries_spec fs (by omega) hhigh es ctx s buf ahead hphase hbuf
  have hfoot : wsprintf footer_text = footer_text := wsprintf_of_lt (by decide)
  rw [dir_rest, if_pos hphase, heq]
  rcases hcase with ⟨rfl, rfl, hph⟩ | ⟨rfl, hph, hahead, e, hfull⟩
  · dsimp only
    rw [if_neg (by simp), if_pos hph, hfoot]
    refine ⟨out ++ footer_text, [], by rw [List.append_assoc], ?_, .done rfl, ?_, ?_⟩
    · rw [hrows, rows_nil, List.append_nil, List.append_nil]
    · simp [footer_text, ascii]
    · rw [← List.append_assoc, List.length_append, footer_text_length]
      omega
  · dsimp only
    rw [if_pos rfl]
    refine ⟨out, rows es' ++ footer_text, rfl, ?_, .entries hph hahead, ?_, by omega⟩
    · rw [hrows, List.append_assoc]
    · intro hnil
      have hrow := row_text_length_le e
      rw [hnil, List.length_nil] at hfull
      omega

/-- **One call** pays a part of what is owed, within the buffer, and nothing only when
nothing was owed. -/
theorem dir_stream_next_pays (fs : FileSystem σ) {buf_size : ℕ} (hlow : 1024 ≤ buf_size)
    (hhigh : buf_size < 2 ^ 32) (p : stream_state_t × σ) (r : List u8) (h : Owes fs p r) :
    ∃ r', r = (dir_stream_next fs buf_size p.1 p.2).1 ++ r'
      ∧ Owes fs (dir_stream_next fs buf_size p.1 p.2).2 r'
      ∧ ((dir_stream_next fs buf_size p.1 p.2).1 = [] → r = [])
      ∧ (dir_stream_next fs buf_size p.1 p.2).1.length ≤ buf_size := by
  have hres : tail_reserve = 64 := rfl
  cases h with
  | @intro ctx s es hphase ahead =>
      -- the opening fits with room to spare for the footer
      have hopen := opening_length_le ctx.dir_url
      have hlen : (opening ctx.dir_url.bytes).length ≤ buf_size - tail_reserve := by omega
      have hnext : dir_stream_next fs buf_size ctx s
          = dir_rest fs buf_size { ctx with dir_phase := .DIR_PHASE_ENTRIES } s
            (opening ctx.dir_url.bytes) := by
        rw [dir_stream_next, if_neg (by rw [hphase]; simp), dir_intro_spec hphase]
      have ahead' : Ahead fs { ctx with dir_phase := .DIR_PHASE_ENTRIES } s es := by
        cases ahead with
        | closed hfind hpend => exact .closed hfind hpend
        | fresh hfind hpend rest => exact .fresh hfind hpend rest
        | pending hfind hpend rest => exact .pending hfind hpend rest
      obtain ⟨out, r', hout, hr, howes, hne, hle⟩ :=
        dir_rest_pays fs hlow hhigh rfl ahead' _ hlen
      dsimp only
      rw [hnext, hout]
      exact ⟨r', by rw [hr, List.append_assoc], howes, fun hnil => absurd hnil hne, hle⟩
  | @entries ctx s es hphase ahead =>
      have hnext : dir_stream_next fs buf_size ctx s = dir_rest fs buf_size ctx s [] := by
        rw [dir_stream_next, if_neg (by rw [hphase]; simp), dir_intro,
          if_neg (by rw [hphase]; simp)]
      obtain ⟨out, r', hout, hr, howes, hne, hle⟩ :=
        dir_rest_pays fs hlow hhigh hphase ahead [] (by simp)
      rw [List.nil_append] at hout hne hle
      dsimp only
      rw [hnext, hout]
      exact ⟨r', hr, howes, fun hnil => absurd hnil hne, hle⟩
  | @done ctx s hphase =>
      have hnext : dir_stream_next fs buf_size ctx s = ([], ctx, s) := by
        rw [dir_stream_next, if_pos hphase]
      dsimp only
      rw [hnext]
      exact ⟨[], rfl, .done hphase, fun _ => rfl, Nat.zero_le _⟩

/-! ## Every call makes progress

For any context at all, not only one that `open_listing` made: a chunk that is not empty
leaves the generator in a later phase, or in the same one with fewer entries ahead. The
order is lexicographic, since a failing `FindNextFile` promises nothing about the handle. -/

def phase_rank : dir_phase_t → ℕ
  | .DIR_PHASE_INTRO => 3
  | .DIR_PHASE_ENTRIES => 2
  | .DIR_PHASE_FOOTER => 1
  | .DIR_PHASE_DONE => 0

/-- What `dir_stream_next` leaves alone. -/
structure SameSource (ctx ctx' : stream_state_t) : Prop where
  stream_kind : ctx'.stream_kind = ctx.stream_kind
  stream_file : ctx'.stream_file = ctx.stream_file
  dir_find : ctx'.dir_find = ctx.dir_find
  dir_url : ctx'.dir_url = ctx.dir_url

theorem SameSource.refl (ctx : stream_state_t) : SameSource ctx ctx := ⟨rfl, rfl, rfl, rfl⟩

theorem SameSource.trans {a b c : stream_state_t} (h : SameSource a b) (h' : SameSource b c) :
    SameSource a c :=
  ⟨h'.stream_kind.trans h.stream_kind, h'.stream_file.trans h.stream_file,
    h'.dir_find.trans h.dir_find, h'.dir_url.trans h.dir_url⟩

theorem next_entry_frame {fs : FileSystem σ} {ctx ctx' : stream_state_t} {s s' : σ} {b : Bool}
    (h : next_entry fs ctx s = (b, ctx', s')) :
    SameSource ctx ctx' ∧ ctx'.dir_phase = ctx.dir_phase := by
  unfold next_entry at h
  split_ifs at h with hp hf
  · obtain ⟨-, rfl, -⟩ := Prod.mk.inj h |>.imp_right Prod.mk.inj
    exact ⟨.refl _, rfl⟩
  · rcases hn : fs.FindNextFile s ctx.dir_find with ⟨_ | e, s1⟩
    · rw [hn] at h
      obtain ⟨-, rfl, -⟩ := Prod.mk.inj h |>.imp_right Prod.mk.inj
      exact ⟨⟨rfl, rfl, rfl, rfl⟩, rfl⟩
    · rw [hn] at h
      obtain ⟨-, rfl, -⟩ := Prod.mk.inj h |>.imp_right Prod.mk.inj
      exact ⟨⟨rfl, rfl, rfl, rfl⟩, rfl⟩
  · obtain ⟨-, rfl, -⟩ := Prod.mk.inj h |>.imp_right Prod.mk.inj
    exact ⟨.refl _, rfl⟩

/-- Phase 2 either ends in phase 3, or returns and has used up an entry for what it wrote. -/
theorem dir_entries_progress (fs : FileSystem σ) (buf_size : ℕ) : ∀ (ctx : stream_state_t) (s : σ)
    (buf : List u8), ctx.dir_phase = .DIR_PHASE_ENTRIES →
      ∃ returned out ctx' s', dir_entries fs buf_size ctx s buf = (returned, out, ctx', s')
        ∧ SameSource ctx ctx' ∧ out.length ≤ max buf.length (sub_u32 buf_size tail_reserve)
        ∧ ((returned = false ∧ ctx'.dir_phase = .DIR_PHASE_FOOTER)
          ∨ (returned = true ∧ ctx'.dir_phase = .DIR_PHASE_ENTRIES
            ∧ entries_ahead fs ctx' s' ≤ entries_ahead fs ctx s
            ∧ (out = buf ∨ entries_ahead fs ctx' s' < entries_ahead fs ctx s))) := by
  intro ctx s
  induction hn : entries_ahead fs ctx s using Nat.strongRecOn generalizing ctx s with
  | ind n ih =>
      intro buf hphase
      rcases hnext : next_entry fs ctx s with ⟨_ | _, ctx1, s1⟩
      · obtain ⟨hsame, -⟩ := next_entry_frame hnext
        exact ⟨false, buf, _, s1, dir_entries_exhausted hnext _ _,
          ⟨hsame.stream_kind, hsame.stream_file, hsame.dir_find, hsame.dir_url⟩,
          le_max_left _ _, Or.inl ⟨rfl, rfl⟩⟩
      · obtain ⟨hsame, hph⟩ := next_entry_frame hnext
        obtain ⟨-, hpend, hlt⟩ := next_entry_ahead hnext
        have hsame' : SameSource ctx { ctx1 with dir_has_pending := false } :=
          hsame.trans ⟨rfl, rfl, rfl, rfl⟩
        have ih' := fun buf => ih _ (by omega) { ctx1 with dir_has_pending := false } s1 rfl buf
          (hph.trans hphase)
        rw [dir_entries_entry hnext]
        split_ifs with hpseudo hfull
        · obtain ⟨returned, out, ctx', s', heq, hs, hlen, hcase⟩ := ih' buf
          refine ⟨returned, out, ctx', s', heq, hsame'.trans hs, hlen, ?_⟩
          rcases hcase with hcase | ⟨hr, hp, hle, -⟩
          · exact Or.inl hcase
          · exact Or.inr ⟨hr, hp, by omega, Or.inr (by omega)⟩
        · refine ⟨true, buf, ctx1, s1, rfl, hsame, le_max_left _ _,
            Or.inr ⟨rfl, hph.trans hphase, ?_, Or.inl rfl⟩⟩
          -- the entry is pending again, so it still counts
          simp only [entries_ahead, hpend, if_true, Bool.false_eq_true, if_false] at hlt hn ⊢
          omega
        · obtain ⟨returned, out, ctx', s', heq, hs, hlen, hcase⟩ :=
            ih' (buf ++ row_text ctx1.dir_pending)
          rw [List.length_append] at hlen
          refine ⟨returned, out, ctx', s', heq, hsame'.trans hs, by omega, ?_⟩
          rcases hcase with hcase | ⟨hr, hp, hle, -⟩
          · exact Or.inl hcase
          · exact Or.inr ⟨hr, hp, by omega, Or.inr (by omega)⟩

/-- Phases 2 and 3 end the page, or use up an entry for what they wrote. -/
theorem dir_rest_progress (fs : FileSystem σ) {buf_size : ℕ} (hlow : 1024 ≤ buf_size)
    (hhigh : buf_size < 2 ^ 32) {ctx : stream_state_t} (hphase : ctx.dir_phase = .DIR_PHASE_ENTRIES)
    (s : σ) {buf : List u8} (hbuf : buf.length ≤ 650) :
    ∃ out ctx' s', dir_rest fs buf_size ctx s buf = (out, ctx', s') ∧ SameSource ctx ctx'
      ∧ out.length ≤ buf_size
      ∧ (ctx'.dir_phase = .DIR_PHASE_DONE ∨ ctx'.dir_phase = .DIR_PHASE_ENTRIES
        ∧ (out = buf ∨ entries_ahead fs ctx' s' < entries_ahead fs ctx s)) := by
  have hcap : sub_u32 buf_size tail_reserve = buf_size - tail_reserve :=
    sub_u32_of_le (le_trans (by decide) hlow) hhigh
  have hres : tail_reserve = 64 := rfl
  have hfoot : wsprintf footer_text = footer_text := wsprintf_of_lt (by decide)
  obtain ⟨returned, out, ctx', s', heq, hsame, hlen, hcase⟩ :=
    dir_entries_progress fs buf_size ctx s buf hphase
  rw [hcap] at hlen
  rw [dir_rest, if_pos hphase, heq]
  dsimp only
  rcases hcase with ⟨rfl, hph⟩ | ⟨rfl, hph, -, hused⟩
  · -- the enumeration is exhausted, and the reserved room takes the footer
    rw [if_neg (by simp), if_pos hph, hfoot]
    refine ⟨out ++ footer_text, _, s', rfl, hsame.trans ⟨rfl, rfl, rfl, rfl⟩, ?_, Or.inl rfl⟩
    rw [List.length_append, footer_text_length]
    omega
  · rw [if_pos rfl]
    exact ⟨out, ctx', s', rfl, hsame, by omega, Or.inr ⟨hph, hused⟩⟩

/-- What one call does to any context. -/
theorem dir_stream_next_progress (fs : FileSystem σ) {buf_size : ℕ} (hlow : 1024 ≤ buf_size)
    (hhigh : buf_size < 2 ^ 32) (ctx : stream_state_t) (s : σ) :
    ∃ out ctx' s', dir_stream_next fs buf_size ctx s = (out, ctx', s') ∧ SameSource ctx ctx'
      ∧ out.length ≤ buf_size
      ∧ (out ≠ [] → Prod.Lex (· < ·) (· < ·) (phase_rank ctx'.dir_phase, entries_ahead fs ctx' s')
          (phase_rank ctx.dir_phase, entries_ahead fs ctx s)) := by
  cases hphase : ctx.dir_phase with
  | DIR_PHASE_DONE =>
      refine ⟨[], ctx, s, ?_, .refl _, Nat.zero_le _, fun h => absurd rfl h⟩
      -- the page is complete
      rw [dir_stream_next, if_pos hphase]
  | DIR_PHASE_FOOTER =>
      -- the closing markup, and the phase goes down
      have hfoot : wsprintf footer_text = footer_text := wsprintf_of_lt (by decide)
      have hintro : dir_intro ctx = ([], ctx) := by rw [dir_intro, if_neg (by simp [hphase])]
      refine ⟨footer_text, { ctx with dir_phase := .DIR_PHASE_DONE }, s, ?_,
        ⟨rfl, rfl, rfl, rfl⟩, ?_, fun _ => .left _ _ (by simp [phase_rank])⟩
      · rw [dir_stream_next, if_neg (by simp [hphase]), hintro]
        dsimp only
        rw [dir_rest, if_neg (by simp [hphase])]
        dsimp only
        rw [if_neg (by simp), if_pos hphase, hfoot, List.nil_append]
      · rw [footer_text_length]; omega
  | DIR_PHASE_ENTRIES =>
      have hintro : dir_intro ctx = ([], ctx) := by rw [dir_intro, if_neg (by simp [hphase])]
      obtain ⟨out, ctx', s', heq, hsame, hlen, hcase⟩ :=
        dir_rest_progress fs hlow hhigh hphase s
          (show ([] : List u8).length ≤ 650 from Nat.zero_le 650)
      refine ⟨out, ctx', s', ?_, hsame, hlen, fun hne => ?_⟩
      · rw [dir_stream_next, if_neg (by simp [hphase]), hintro]
        exact heq
      · rcases hcase with hph | ⟨hph, hused⟩
        · exact .left _ _ (by simp [hph, phase_rank])
        · rw [hph]
          exact .right _ (hused.resolve_left hne)
  | DIR_PHASE_INTRO =>
      have hph0 : ({ ctx with dir_phase := .DIR_PHASE_ENTRIES } : stream_state_t).dir_phase
          = .DIR_PHASE_ENTRIES := rfl
      obtain ⟨out, ctx', s', heq, hsame, hlen, hcase⟩ :=
        dir_rest_progress fs hlow hhigh hph0 s (opening_length_le ctx.dir_url)
      have hsame0 : SameSource ctx { ctx with dir_phase := .DIR_PHASE_ENTRIES } :=
        ⟨rfl, rfl, rfl, rfl⟩
      refine ⟨out, ctx', s', ?_, hsame0.trans hsame, hlen, fun _ => ?_⟩
      · rw [dir_stream_next, if_neg (by simp [hphase]), dir_intro_spec hphase]
        exact heq
      · -- the phase moves on even if no row was written
        rcases hcase with hph | ⟨hph, -⟩
        · exact .left _ _ (by simp [hph, phase_rank])
        · exact .left _ _ (by simp [hph, phase_rank])

/-! ## The whole page -/

theorem open_listing_owes {fs : FileSystem σ} {ctx : stream_state_t} {url_path pattern : List u8}
    {s : σ} {es : List WIN32_FIND_DATA} (h : Lists fs s pattern es)
    (hurl : (cstr url_path).length < MAX_PATH) :
    Owes fs (open_listing fs ctx url_path pattern s)
      (opening (cstr url_path) ++ (rows es ++ footer_text)) := by
  have hbytes : (lstrcpyn MAX_PATH (by decide) url_path).bytes = cstr url_path :=
    lstrcpyn_bytes _ hurl
  rw [← hbytes]
  cases h with
  | failed hnone =>
      have ahead : Ahead fs (open_listing fs ctx url_path pattern s).1
          (open_listing fs ctx url_path pattern s).2 [] :=
        .closed (by simp [open_listing, hnone, HANDLE.ofOption]) (by simp [open_listing, hnone])
      exact .intro rfl ahead
  | @found h e es hsome rest =>
      have hfind : (open_listing fs ctx url_path pattern s).1.dir_find = .of h := by
        simp [open_listing, hsome, HANDLE.ofOption]
      have hentry : (open_listing fs ctx url_path pattern s).1.dir_pending = e := by
        simp [open_listing, hsome]
      have hpend : (open_listing fs ctx url_path pattern s).1.dir_has_pending = true := by
        simp [open_listing, hsome]
      have ahead : Ahead fs (open_listing fs ctx url_path pattern s).1
          (open_listing fs ctx url_path pattern s).2 (e :: es) := by
        rw [← hentry]
        exact .pending (by simp [hfind]) hpend (by rw [hfind]; exact rest)
      exact .intro rfl ahead

/-- **A listing is complete and in order.** From the state `serve_http_request` sets up,
`dir_stream_next` yields non-empty chunks of at most a send buffer each, up to its first
zero; together they are the opening markup, one row for each entry that is not a
pseudo-entry, in the order of the enumeration, and the closing markup. -/
theorem dir_stream_drains (fs : FileSystem σ) (ctx : stream_state_t)
    (url_path pattern : List u8) (s : σ) (es : List WIN32_FIND_DATA)
    (hes : Lists fs s pattern es) (hurl : (cstr url_path).length < MAX_PATH) :
    ∃ chunks last, Drains (fun p => dir_stream_next fs HTTP_SEND_BUFFER_SIZE p.1 p.2)
        (open_listing fs ctx url_path pattern s) chunks last
      ∧ (∀ c ∈ chunks, c ≠ [] ∧ c.length ≤ HTTP_SEND_BUFFER_SIZE)
      ∧ chunks.flatten = opening (cstr url_path) ++ (rows es ++ footer_text) := by
  obtain ⟨chunks, last, hd, hflat, hchunks⟩ :=
    drains_of_owes (fun p => dir_stream_next fs HTTP_SEND_BUFFER_SIZE p.1 p.2) (Owes fs)
      (fun c => c.length ≤ HTTP_SEND_BUFFER_SIZE)
      (dir_stream_next_pays fs (by decide) (by decide)) _ _ (open_listing_owes hes hurl)
  exact ⟨chunks, last, hd, hchunks, hflat⟩

/-- A directory with a subdirectory and a file behind the two pseudo-entries. -/
def sample_entries : List WIN32_FIND_DATA :=
  [⟨FILE_ATTRIBUTE_DIRECTORY, 0, ⟨ascii ".", by decide, by decide⟩⟩,
    ⟨FILE_ATTRIBUTE_DIRECTORY, 0, ⟨ascii "..", by decide, by decide⟩⟩,
    ⟨FILE_ATTRIBUTE_DIRECTORY, 0, ⟨ascii "sub", by decide, by decide⟩⟩,
    ⟨0x80, 5, ⟨ascii "a.txt", by decide, by decide⟩⟩]

def sample_tree : tree_t :=
  [(ascii "C:\\www\\d", .directory sample_entries)]

theorem dir_stream_drains_sample :
    ∃ chunks last, Drains
        (fun p => dir_stream_next (disk sample_tree) HTTP_SEND_BUFFER_SIZE p.1 p.2)
        (open_listing (disk sample_tree) initial_stream (ascii "/d/") (ascii "C:\\www\\d\\*") [])
        chunks last
      ∧ (∀ c ∈ chunks, c ≠ [] ∧ c.length ≤ HTTP_SEND_BUFFER_SIZE)
      ∧ chunks.flatten
        = opening (cstr (ascii "/d/")) ++ (rows sample_entries ++ footer_text) :=
  dir_stream_drains (disk sample_tree) initial_stream (ascii "/d/") (ascii "C:\\www\\d\\*") []
    sample_entries (lists_of_lookup (ascii "C:\\www\\d") (by decide) []) (by decide)

end W32HttpServer.DirStream

/-
The file and search handles of a client: opened in `serve_http_request`, kept in the
context, closed from four places.

The code is run over a file system that keeps a ledger of `CreateFile` and `FindFirstFile`
on the one side, `CloseHandle` and `FindClose` on the other (`recorded`). `handles` reads
off a context what it holds, and every function moves the ledger from what the context held to
what it holds afterwards. So on every path to the end of `destroy_client_context` what was
opened has been closed, once.

One path does not lead there. An I/O that completes with a failure takes the worker out of
its loop (`IocpWorker.worker_round_failed`), and the context is left behind as it is, with
the handle of the body it was sending.
-/
import Mathlib.Algebra.Order.Group.Multiset
import W32HttpServer.Common
import W32HttpServer.Lib.Ledger
import W32HttpServer.Lib.Transition
import W32HttpServer.HttpRequest
import W32HttpServer.HttpResponse
import W32HttpServer.Platform
import W32HttpServer.Disk
import W32HttpServer.Context
import W32HttpServer.DirStream
import W32HttpServer.Serve
import W32HttpServer.Win9xClient
import W32HttpServer.IocpWorker
import W32HttpServer.NtHandlers

set_option autoImplicit false

namespace W32HttpServer.StreamHandles

open W32HttpServer.Common W32HttpServer.HttpRequest W32HttpServer.HttpResponse
open W32HttpServer.Platform W32HttpServer.Context W32HttpServer.DirStream W32HttpServer.Serve
open W32HttpServer.Win9xClient W32HttpServer.NtHandlers
open W32HttpServer.Lib.Ledger W32HttpServer.Lib.Transition

variable {σ τ : Type}

/-! ## The ledger -/

inductive handle_t
  /-- from `CreateFile`, for `CloseHandle` -/
  | file (h : HANDLE)
  /-- from `FindFirstFile`, for `FindClose` -/
  | find (h : HANDLE)
  deriving DecidableEq

abbrev ledger_t := List (Entry handle_t)

/-- The entry of a call that has opened a handle, unless it failed. -/
def opening_entry (kind : HANDLE → handle_t) (h : Option ℕ) : ledger_t :=
  (h.map fun n => .opened (kind (.of n))).toList

/-- The same file system with a ledger of the handles on the side. -/
def recorded (fs : FileSystem σ) : FileSystem (σ × ledger_t) where
  GetFileAttributes s path :=
    let r := fs.GetFileAttributes s.1 path
    (r.1, r.2, s.2)
  FindFirstFile s pattern :=
    let r := fs.FindFirstFile s.1 pattern
    (r.1, r.2, s.2 ++ opening_entry .find (r.1.map Prod.fst))
  FindNextFile s h :=
    let r := fs.FindNextFile s.1 h
    (r.1, r.2, s.2)
  FindClose s h := (fs.FindClose s.1 h, s.2 ++ [.closed (.find h)])
  CreateFile s path :=
    let r := fs.CreateFile s.1 path
    (r.1, r.2, s.2 ++ opening_entry .file r.1)
  GetFileSize s h :=
    let r := fs.GetFileSize s.1 h
    (r.1, r.2, s.2)
  ReadFile s h n :=
    let r := fs.ReadFile s.1 h n
    (r.1, r.2, s.2)
  SetFilePointer s h pos := (fs.SetFilePointer s.1 h pos, s.2)
  CloseHandle s h := (fs.CloseHandle s.1 h, s.2 ++ [.closed (.file h)])
  read_le h := fs.read_le h
  entries_left s h := fs.entries_left s.1 h
  find_next_lt h := fs.find_next_lt h

abbrev is_open (h : HANDLE) : Prop := h ≠ .INVALID_HANDLE_VALUE ∧ h ≠ .NULL

/-- The handles a context holds. -/
def handles (ctx : stream_state_t) : Multiset handle_t :=
  (if is_open ctx.stream_file then {.file ctx.stream_file} else 0)
    + if is_open ctx.dir_find then {.find ctx.dir_find} else 0

theorem handles_initial : handles initial_stream = 0 := by decide

theorem handles_sameSource {ctx ctx' : stream_state_t} (h : SameSource ctx ctx') :
    handles ctx' = handles ctx := by
  rw [handles, handles, h.stream_file, h.dir_find]

/-! ## Closing -/

/-- A handle, if it is open, leaves what is held, and the rest stays. -/
theorem moves_closed (kind : HANDLE → handle_t) (h : HANDLE) (held : Multiset handle_t)
    (l : ledger_t) :
    Moves ((if is_open h then {kind h} else 0) + held) l held
      (if is_open h then l ++ [.closed (kind h)] else l) := by
  by_cases hopen : is_open h
  · rw [if_pos hopen, if_pos hopen, Multiset.singleton_add]
    have hclosed := Moves.closed (Multiset.mem_cons_self (kind h) held) l
    rwa [Multiset.erase_cons_head] at hclosed
  · rw [if_neg hopen, if_neg hopen, zero_add]
    exact .refl held l

/-- `stream_close`, one handle at a time. -/
theorem stream_close_eq (fs : FileSystem σ) (ctx : stream_state_t) (s : σ) :
    stream_close fs ctx s
      = ({ ctx with
            stream_file := if is_open ctx.stream_file then .INVALID_HANDLE_VALUE
              else ctx.stream_file
            dir_find := if is_open ctx.dir_find then .INVALID_HANDLE_VALUE else ctx.dir_find
            dir_has_pending := false
            stream_kind := .STREAM_NONE },
          let s := if is_open ctx.stream_file then fs.CloseHandle s ctx.stream_file else s
          if is_open ctx.dir_find then fs.FindClose s ctx.dir_find else s) := by
  unfold stream_close
  by_cases hfile : ctx.stream_file ≠ .INVALID_HANDLE_VALUE ∧ ctx.stream_file ≠ .NULL
  · by_cases hfind : ctx.dir_find ≠ .INVALID_HANDLE_VALUE ∧ ctx.dir_find ≠ .NULL
    · simp only [if_pos hfile, if_pos hfind]
    · simp only [if_pos hfile, if_neg hfind]
  · by_cases hfind : ctx.dir_find ≠ .INVALID_HANDLE_VALUE ∧ ctx.dir_find ≠ .NULL
    · simp only [if_neg hfile, if_pos hfind]
    · simp only [if_neg hfile, if_neg hfind]

theorem not_is_open_closed (h : HANDLE) :
    ¬ is_open (if is_open h then .INVALID_HANDLE_VALUE else h) := by
  by_cases hopen : is_open h
  · rw [if_pos hopen]
    decide
  · rw [if_neg hopen]
    exact hopen

theorem stream_close_handles (fs : FileSystem σ) (ctx : stream_state_t) (s : σ) :
    handles (stream_close fs ctx s).1 = 0 := by
  rw [stream_close_eq, handles]
  dsimp only
  rw [if_neg (not_is_open_closed _), if_neg (not_is_open_closed _), add_zero]

/-- `stream_close` closes what the context holds. -/
theorem stream_close_moves (fs : FileSystem σ) (ctx : stream_state_t) (s : σ × ledger_t) :
    Moves (handles ctx) s.2 0 (stream_close (recorded fs) ctx s).2.2 := by
  have hfile := moves_closed .file ctx.stream_file
    (if is_open ctx.dir_find then {.find ctx.dir_find} else 0) s.2
  have hfind := moves_closed .find ctx.dir_find 0
    (if is_open ctx.stream_file then s.2 ++ [.closed (.file ctx.stream_file)] else s.2)
  rw [add_zero] at hfind
  have hledger : (stream_close (recorded fs) ctx s).2.2
      = if is_open ctx.dir_find then
          (if is_open ctx.stream_file then s.2 ++ [.closed (.file ctx.stream_file)] else s.2)
            ++ [.closed (.find ctx.dir_find)]
        else if is_open ctx.stream_file then s.2 ++ [.closed (.file ctx.stream_file)]
        else s.2 := by
    rw [stream_close_eq]
    dsimp only
    split_ifs <;> rfl
  rw [hledger]
  exact hfile.trans hfind

theorem destroy_client_context_moves (fs : FileSystem σ) (net : Sockets τ)
    (ctx : client_context_t) (s : σ × ledger_t) (t : τ) :
    Moves (handles ctx.stream) s.2 0 (destroy_client_context (recorded fs) net ctx s t).1.2 := by
  have hclose := stream_close_moves fs ctx.stream s
  unfold destroy_client_context
  dsimp only
  split_ifs
  · exact hclose
  · exact hclose

/-! ## `serve_http_request`

What one request opens is in the context when the call returns, or closed again. -/

/-- The return value says whether a body source was left in the context, and the context
holds what the call has opened and not closed. -/
structure Accounts (l : ledger_t) (r : serve_result (σ × ledger_t)) : Prop where
  source : r.rc = 1 ↔ r.ctx.stream_kind ≠ .STREAM_NONE
  none_open : r.rc = 0 ∨ r.rc = -1 → handles r.ctx = 0
  moves : Moves 0 l (handles r.ctx) r.fs_state.2

/-- A handle the system returned. -/
theorem is_open_of (h : ℕ) : is_open (.of h) := ⟨by simp, by simp⟩

/-- Nothing is open. -/
structure Idle (ctx : stream_state_t) : Prop where
  kind : ctx.stream_kind = .STREAM_NONE
  file : ¬ is_open ctx.stream_file
  find : ¬ is_open ctx.dir_find

theorem idle_clean_slate (ctx : stream_state_t) : Idle (clean_slate ctx) where
  kind := rfl
  file := by simp [clean_slate]
  find := by simp [clean_slate]

theorem Idle.handles {ctx : stream_state_t} (h : Idle ctx) : handles ctx = 0 := by
  rw [StreamHandles.handles, if_neg h.file, if_neg h.find, add_zero]

/-- An inline response leaves no body source. -/
theorem Idle.accounts {ctx : stream_state_t} (h : Idle ctx) {l : ledger_t} {s : σ × ledger_t}
    (hmoves : Moves 0 l 0 s.2) (response : Option (List u8)) :
    Accounts l (inline_response response ctx s) := by
  have hrc : (inline_response response ctx s).rc ≠ 1 := by
    cases response <;> simp [inline_response]
  have hctx : (inline_response response ctx s).ctx = ctx := by cases response <;> rfl
  have hstate : (inline_response response ctx s).fs_state = s := by cases response <;> rfl
  refine ⟨?_, fun _ => ?_, ?_⟩
  · rw [hctx]
    exact iff_of_false hrc (not_not.mpr h.kind)
  · rw [hctx, h.handles]
  · rw [hctx, h.handles, hstate]
    exact hmoves

theorem serve_file_accounts (fs : FileSystem σ) (path : List u8) (out_size : ℕ)
    {ctx : stream_state_t} (hidle : Idle ctx) (s : σ × ledger_t) :
    Accounts s.2 (serve_file (recorded fs) path out_size ctx s) := by
  rcases hopen : fs.CreateFile s.1 path with ⟨opened, s1⟩
  have hrecorded : (recorded fs).CreateFile s path
      = (opened, s1, s.2 ++ opening_entry .file opened) := by
    dsimp only [recorded]
    rw [hopen]
  unfold serve_file
  rw [hrecorded]
  cases opened with
  | none =>
      -- the file could not be opened, and nothing is entered
      have hmoves : Moves 0 s.2 0 (s.2 ++ opening_entry .file none) := by
        rw [opening_entry, Option.map_none, Option.toList_none, List.append_nil]
        exact .refl 0 s.2
      exact hidle.accounts hmoves _
  | some h =>
      have hopened : Moves 0 s.2 {.file (.of h)} (s.2 ++ opening_entry .file (some h)) :=
        .opened 0 s.2 (.file (.of h))
      have hclosed : ∀ l : ledger_t,
          Moves {handle_t.file (.of h)} l 0 (l ++ [.closed (.file (.of h))]) := by
        intro l
        have hclosed := Moves.closed (Multiset.mem_singleton_self (handle_t.file (.of h))) l
        rwa [Multiset.erase_singleton] at hclosed
      dsimp only
      split_ifs with hsize
      · -- no size: the file is closed again
        exact hidle.accounts (hopened.trans (hclosed _)) _
      · -- closed as well when the header does not fit; otherwise the context keeps it
        cases build_http_file_header _ _ out_size with
        | none =>
            refine ⟨iff_of_false (by simp) (not_not.mpr hidle.kind), fun _ => hidle.handles, ?_⟩
            dsimp only
            rw [hidle.handles]
            exact hopened.trans (hclosed _)
        | some out =>
            have hholds : handles { ctx with
                stream_file := .of h
                stream_remaining := ((recorded fs).GetFileSize
                  (s1, s.2 ++ opening_entry .file (some h)) (.of h)).1
                stream_kind := .STREAM_FILE } = {.file (.of h)} := by
              rw [handles, if_pos (is_open_of h), if_neg hidle.find, add_zero]
            refine ⟨iff_of_true rfl (by simp), fun hrc => ?_, ?_⟩
            · exact absurd hrc (by simp)
            · rw [hholds]
              exact hopened

/-- The handle of a search that has been opened is in the context. -/
theorem open_listing_moves (fs : FileSystem σ) {ctx : stream_state_t} (hidle : Idle ctx)
    (url_path pattern : List u8) (s : σ × ledger_t) :
    (open_listing (recorded fs) ctx url_path pattern s).1.stream_kind = .STREAM_DIR
      ∧ Moves 0 s.2 (handles (open_listing (recorded fs) ctx url_path pattern s).1)
        (open_listing (recorded fs) ctx url_path pattern s).2.2 := by
  refine ⟨rfl, ?_⟩
  rcases hfound : (fs.FindFirstFile s.1 pattern).1 with _ | ⟨h, e⟩
  · have hledger : (open_listing (recorded fs) ctx url_path pattern s).2.2 = s.2 := by
      dsimp only [open_listing, recorded]
      rw [hfound, Option.map_none, opening_entry, Option.map_none, Option.toList_none,
        List.append_nil]
    have hholds : handles (open_listing (recorded fs) ctx url_path pattern s).1 = 0 := by
      dsimp only [open_listing, recorded, handles]
      rw [hfound, Option.map_none, HANDLE.ofOption, if_neg hidle.file, if_neg (by decide),
        add_zero]
    rw [hledger, hholds]
    exact .refl 0 s.2
  · have hledger : (open_listing (recorded fs) ctx url_path pattern s).2.2
        = s.2 ++ [.opened (.find (.of h))] := by
      dsimp only [open_listing, recorded]
      rw [hfound, Option.map_some, opening_entry, Option.map_some, Option.toList_some]
    have hholds : handles (open_listing (recorded fs) ctx url_path pattern s).1
        = {.find (.of h)} := by
      dsimp only [open_listing, recorded, handles]
      rw [hfound, Option.map_some, HANDLE.ofOption, if_neg hidle.file, if_pos (is_open_of h),
        zero_add]
    rw [hledger, hholds]
    exact .opened 0 s.2 (.find (.of h))

/-- An attribute lookup opens nothing. -/
theorem attributes_ledger {fs : FileSystem σ} {s s' : σ × ledger_t} {path : List u8}
    {attributes : u32} (h : (recorded fs).GetFileAttributes s path = (attributes, s')) :
    s'.2 = s.2 :=
  (congrArg (fun r => r.2.2) h).symm

theorem serve_directory_accounts (fs : FileSystem σ) (url_path full_path : List u8)
    (path_len out_size : ℕ) {ctx : stream_state_t} (hidle : Idle ctx) (s : σ × ledger_t) :
    Accounts s.2 (serve_directory (recorded fs) url_path full_path path_len out_size ctx s) := by
  rw [serve_directory]
  by_cases hslash : url_path.getD (path_len - 1) 0 ≠ chr '/'
  · rw [if_pos hslash]
    exact hidle.accounts (.refl 0 s.2) _
  rw [if_neg hslash]
  rcases hindex : (recorded fs).GetFileAttributes s (index_path full_path) with ⟨attributes, s1⟩
  rw [← attributes_ledger hindex]
  dsimp only
  split_ifs with hpresent hlong
  · exact serve_file_accounts fs _ out_size hidle s1
  · exact hidle.accounts (.refl 0 s1.2) _
  · -- the enumeration is closed again when the header does not fit
    obtain ⟨hkind, hopened⟩ := open_listing_moves fs hidle url_path (pattern full_path) s1
    generalize open_listing (recorded fs) ctx url_path (pattern full_path) s1 = r at hkind hopened
    have hclosed := stream_close_moves fs r.1 r.2
    cases build_http_listing_header out_size with
    | none =>
        refine ⟨iff_of_false (by simp) (by simp), fun _ => stream_close_handles _ _ _, ?_⟩
        dsimp only
        rw [stream_close_handles]
        exact hopened.trans hclosed
    | some out =>
        exact ⟨iff_of_true rfl (by rw [hkind]; decide), fun hrc => absurd hrc (by simp), hopened⟩

theorem serve_http_request_accounts (document_root : List u8) (fs : FileSystem σ)
    (ctx : stream_state_t) (req : http_request_t) (out_size : ℕ) (s : σ × ledger_t) :
    Accounts s.2 (serve_http_request document_root (recorded fs) ctx req out_size s) := by
  have hidle := idle_clean_slate ctx
  unfold serve_http_request
  rcases hattr : (recorded fs).GetFileAttributes s (full_path document_root req)
    with ⟨attributes, s1⟩
  have hledger := attributes_ledger hattr
  dsimp only
  split_ifs
  · exact hidle.accounts (.refl 0 s.2) none
  · exact hidle.accounts (.refl 0 s.2) _
  · exact hidle.accounts (.refl 0 s.2) _
  · exact hidle.accounts (.refl 0 s.2) _
  · rw [← hledger]
    exact hidle.accounts (.refl 0 s1.2) _
  · rw [← hledger]
    exact serve_directory_accounts fs _ _ _ out_size hidle s1
  · rw [← hledger]
    exact serve_file_accounts fs _ out_size hidle s1

/-! ## The body

A chunk costs `ReadFile` or `FindNextFile` and no other call. -/

section

variable {fs : FileSystem σ} {P : σ → Prop}

theorem next_entry_preserves (hfind : ∀ s h, P s → P (fs.FindNextFile s h).2)
    {ctx ctx' : stream_state_t} {s s' : σ} {b : Bool} (hs : P s)
    (h : next_entry fs ctx s = (b, ctx', s')) : P s' := by
  unfold next_entry at h
  split_ifs at h with hpending hopen
  · obtain ⟨-, -, rfl⟩ := Prod.mk.inj h |>.imp_right Prod.mk.inj
    exact hs
  · have hnext := hfind s ctx.dir_find hs
    rcases hn : fs.FindNextFile s ctx.dir_find with ⟨_ | e, s1⟩
    · rw [hn] at h hnext
      obtain ⟨-, -, rfl⟩ := Prod.mk.inj h |>.imp_right Prod.mk.inj
      exact hnext
    · rw [hn] at h hnext
      obtain ⟨-, -, rfl⟩ := Prod.mk.inj h |>.imp_right Prod.mk.inj
      exact hnext
  · obtain ⟨-, -, rfl⟩ := Prod.mk.inj h |>.imp_right Prod.mk.inj
    exact hs

theorem dir_entries_preserves (hfind : ∀ s h, P s → P (fs.FindNextFile s h).2) (buf_size : ℕ)
    (ctx : stream_state_t) (s : σ) (buf : List u8) (hs : P s) :
    P (dir_entries fs buf_size ctx s buf).2.2.2 := by
  -- along the loop: each round but the last takes an entry
  induction hn : entries_ahead fs ctx s using Nat.strongRecOn generalizing ctx s buf with
  | ind n ih =>
      rcases hnext : next_entry fs ctx s with ⟨_ | _, ctx1, s1⟩
      · rw [dir_entries_exhausted hnext]
        exact next_entry_preserves hfind hs hnext
      · have hs1 := next_entry_preserves hfind hs hnext
        obtain ⟨-, -, hlt⟩ := next_entry_ahead hnext
        rw [dir_entries_entry hnext]
        split_ifs
        · exact ih _ (by omega) _ s1 buf hs1 rfl
        · exact hs1
        · exact ih _ (by omega) _ s1 _ hs1 rfl

theorem dir_rest_preserves (hfind : ∀ s h, P s → P (fs.FindNextFile s h).2) (buf_size : ℕ)
    (ctx : stream_state_t) (s : σ) (buf : List u8) (hs : P s) :
    P (dir_rest fs buf_size ctx s buf).2.2 := by
  have hentries := dir_entries_preserves hfind buf_size ctx s buf hs
  unfold dir_rest
  by_cases hphase : ctx.dir_phase = .DIR_PHASE_ENTRIES
  · rw [if_pos hphase]
    generalize dir_entries fs buf_size ctx s buf = r at hentries
    dsimp only
    split_ifs
    · exact hentries
    · exact hentries
    · exact hentries
  · rw [if_neg hphase]
    dsimp only
    rw [if_neg (by simp)]
    split_ifs
    · exact hs
    · exact hs

theorem dir_stream_next_preserves (hfind : ∀ s h, P s → P (fs.FindNextFile s h).2)
    (buf_size : ℕ) (ctx : stream_state_t) (s : σ) (hs : P s) :
    P (dir_stream_next fs buf_size ctx s).2.2 := by
  unfold dir_stream_next
  split_ifs
  · exact hs
  · exact dir_rest_preserves hfind buf_size _ s _ hs

theorem stream_next_chunk_preserves (hfind : ∀ s h, P s → P (fs.FindNextFile s h).2)
    (hread : ∀ s h n, P s → P (fs.ReadFile s h n).2) (buf_size : ℕ) (ctx : stream_state_t)
    (s : σ) (hs : P s) : P (stream_next_chunk fs buf_size ctx s).2.2 := by
  rw [stream_next_chunk]
  by_cases hsize : buf_size = 0
  · rw [if_pos hsize]
    exact hs
  rw [if_neg hsize]
  cases ctx.stream_kind with
  | STREAM_NONE => exact hs
  | STREAM_DIR => exact dir_stream_next_preserves hfind buf_size ctx s hs
  | STREAM_FILE =>
      have hnext := hread s ctx.stream_file (min buf_size ctx.stream_remaining.toNat) hs
      dsimp only
      generalize fs.ReadFile s ctx.stream_file (min buf_size ctx.stream_remaining.toNat) = r
        at hnext
      rcases r with ⟨_ | got, s1⟩
      · split_ifs
        · exact hs
        · exact hnext
      · dsimp only at hnext ⊢
        split_ifs
        · exact hs
        · exact hnext
        · exact hnext

end

/-- A chunk neither opens nor closes anything. -/
theorem stream_next_chunk_ledger (fs : FileSystem σ) (ctx : stream_state_t) (s : σ × ledger_t) :
    handles (stream_next_chunk (recorded fs) HTTP_SEND_BUFFER_SIZE ctx s).2.1 = handles ctx
      ∧ (stream_next_chunk (recorded fs) HTTP_SEND_BUFFER_SIZE ctx s).2.2.2 = s.2 := by
  obtain ⟨chunk, ctx', s', heq, hsame, -, -⟩ := stream_next_chunk_progress (recorded fs)
    HTTP_SEND_BUFFER_SIZE (by decide) (by decide) ctx s
  have hledger : (stream_next_chunk (recorded fs) HTTP_SEND_BUFFER_SIZE ctx s).2.2.2 = s.2 :=
    stream_next_chunk_preserves (P := fun p => p.2 = s.2) (fun _ _ hs => hs) (fun _ _ _ hs => hs)
      HTTP_SEND_BUFFER_SIZE ctx s rfl
  refine ⟨?_, hledger⟩
  rw [heq]
  exact handles_sameSource hsame

/-! ## The Win9x back end -/

theorem stream_loop_ledger (fs : FileSystem σ) (net : Sockets τ) (sock : SOCKET) :
    ∀ (ctx : stream_state_t) (s : σ × ledger_t) (t : τ),
      handles (stream_loop (recorded fs) net sock ctx s t).1 = handles ctx
        ∧ (stream_loop (recorded fs) net sock ctx s t).2.1.2 = s.2 := by
  refine stream_induction (recorded fs) ?_
  intro ctx s ih t
  obtain ⟨hhandles, hledger⟩ := stream_next_chunk_ledger fs ctx s
  rw [stream_loop]
  split
  next chunk ctx' s' hnext =>
    rw [hnext] at hhandles hledger
    dsimp only at hhandles hledger
    split_ifs with hchunk
    · exact ⟨hhandles, hledger⟩
    · dsimp only
      split_ifs with hsent
      · exact ⟨hhandles, hledger⟩
      · obtain ⟨hh, hl⟩ := ih chunk ctx' s' hnext hchunk
          (send_all net sock chunk t).2
        exact ⟨hh.trans hhandles, hl.trans hledger⟩

/-- What `process_client_request` leaves open is in the context. -/
theorem answer_request_moves (document_root : List u8) (fs : FileSystem σ) (net : Sockets τ)
    (ctx : client_context_t) (req : http_request_t) (s : σ × ledger_t) (t : τ) :
    Moves 0 s.2
      (handles (answer_request document_root (recorded fs) net ctx req s t).1.stream)
      (answer_request document_root (recorded fs) net ctx req s t).2.1.2 := by
  have hserved := serve_http_request_accounts document_root fs ctx.stream req
    HTTP_SEND_BUFFER_SIZE s
  unfold answer_request
  generalize serve_http_request document_root (recorded fs) ctx.stream req HTTP_SEND_BUFFER_SIZE s
    = r at hserved
  dsimp only
  split_ifs with hfailed hsent
  · exact hserved.moves
  · obtain ⟨hhandles, hledger⟩ := stream_loop_ledger fs net ctx.client_socket r.ctx r.fs_state
      (send_all net ctx.client_socket r.out t).2
    have hclosed := stream_close_moves fs
      (stream_loop (recorded fs) net ctx.client_socket r.ctx r.fs_state
        (send_all net ctx.client_socket r.out t).2).1
      (stream_loop (recorded fs) net ctx.client_socket r.ctx r.fs_state
        (send_all net ctx.client_socket r.out t).2).2.1
    rw [hhandles, hledger] at hclosed
    rw [stream_close_handles]
    exact hserved.moves.trans hclosed
  · rw [stream_close_handles]
    exact hserved.moves.trans (stream_close_moves fs r.ctx r.fs_state)

/-- `handle_client_win9x` with `req` as the parser leaves it. -/
def client_win9x (document_root : List u8) (fs : FileSystem σ) (net : Sockets τ)
    (ctx : client_context_t) (results : List (Option (List u8))) (req : http_request_t) (s : σ)
    (t : τ) : Option (σ × τ) := do
  let (ctx, _) ← receive_request ctx results
  let (ctx, s, t) := answer_request document_root fs net ctx req s t
  some (destroy_client_context fs net ctx s t)

/-- `handle_client_win9x`, when the parser's scans stop inside the request. -/
theorem handle_client_win9x_eq_some {document_root : List u8} {fs : FileSystem σ}
    {net : Sockets τ} {ctx : client_context_t} {results : List (Option (List u8))}
    {indeterminate : u32} {s : σ} {t : τ} {r : σ × τ}
    (h : handle_client_win9x document_root fs net ctx results indeterminate s t = some r) :
    ∃ req, client_win9x document_root fs net ctx results req s t = some r := by
  unfold handle_client_win9x process_client_request at h
  cases hreceived : receive_request ctx results with
  | none =>
      rw [hreceived] at h
      exact absurd h (by simp)
  | some received =>
      rw [hreceived] at h
      cases hparsed : parse_http_request (handed received.1) indeterminate with
      | none =>
          simp only [Option.bind_eq_bind, Option.bind_some, hparsed, Option.bind_none] at h
          exact absurd h (by simp)
      | some req =>
          simp only [Option.bind_eq_bind, Option.bind_some, hparsed] at h
          exact ⟨req, by rw [client_win9x, hreceived]; exact h⟩

theorem client_win9x_balanced {document_root : List u8} {fs : FileSystem σ} {net : Sockets τ}
    {ctx : client_context_t} {results : List (Option (List u8))} {req : http_request_t} {s : σ}
    {t t' : τ} {s' : σ × ledger_t}
    (h : client_win9x document_root (recorded fs) net ctx results req (s, []) t = some (s', t')) :
    Balanced s'.2 := by
  unfold client_win9x at h
  cases hreceived : receive_request ctx results with
  | none =>
      rw [hreceived] at h
      exact absurd h (by simp)
  | some received =>
      obtain ⟨ctx1, left⟩ := received
      rw [hreceived, Option.bind_eq_bind, Option.bind_some] at h
      dsimp only at h
      have hanswered := answer_request_moves document_root fs net ctx1 req (s, []) t
      generalize answer_request document_root (recorded fs) net ctx1 req (s, []) t = r
        at h hanswered
      have hdestroyed := destroy_client_context_moves fs net r.1 r.2.1 r.2.2
      rw [Option.some.inj h] at hdestroyed
      exact (hanswered.trans hdestroyed).balanced_iff.mpr rfl

/-! ## The NT back end -/

/-- Where a client of the NT back end is. -/
inductive client_t
  /-- an operation is outstanding -/
  | outstanding (ctx : client_context_t)
  /-- the context has been destroyed -/
  | destroyed
  /-- the worker that took its completion has left the loop with it -/
  | abandoned (ctx : client_context_t)

/-- The completion of the operation that is outstanding. -/
structure completion_t where
  result : Bool
  /-- whether an accepted socket is associated with the port -/
  associated : Bool
  /-- the bytes a receive has got -/
  arrived : List u8
  /-- what the parser leaves in `req` -/
  req : http_request_t

/-- `handle_recv_completion` with `req` as the parser leaves it. -/
def recv_completion (document_root : List u8) (fs : FileSystem σ) (net : Sockets τ)
    (ctx : client_context_t) (bytes_transferred : ℕ) (req : http_request_t) (s : σ) (t : τ) :
    Option client_context_t × σ × τ :=
  if bytes_transferred = 0 then (none, destroy_client_context fs net ctx s t)
  else respond document_root fs net (recv_terminate ctx bytes_transferred) req s t

theorem handle_recv_completion_eq_some {document_root : List u8} {fs : FileSystem σ}
    {net : Sockets τ} {ctx : client_context_t} {bytes_transferred : ℕ} {indeterminate : u32} {s : σ}
    {t : τ} {r : Option client_context_t × σ × τ}
    (h : handle_recv_completion document_root fs net ctx bytes_transferred indeterminate s t
      = some r) :
    ∃ req, recv_completion document_root fs net ctx bytes_transferred req s t = r := by
  unfold handle_recv_completion at h
  unfold recv_completion
  split_ifs at h ⊢ with hclosed
  · exact ⟨⟨0, ⟨0, 0⟩, ⟨0, 0⟩, []⟩, Option.some.inj h⟩
  · obtain ⟨req, -, hreq⟩ := Option.bind_eq_some_iff.mp h
    exact ⟨req, Option.some.inj hreq⟩

/-- What `handle_accept_completion` does with the accepted client's context. -/
def accept_completion (fs : FileSystem σ) (net : Sockets τ) (associated : Bool)
    (ctx : client_context_t) (s : σ) (t : τ) : Option client_context_t × σ × τ :=
  if associated then
    match post_recv net ctx t with
    | (rc, ctx, t) =>
        if rc ≠ 0 then (none, destroy_client_context fs net ctx s t) else (some ctx, s, t)
  else (none, destroy_client_context fs net ctx s t)

/-- The handler `iocp_worker_thread_proc` has dispatched to. -/
def dispatched (document_root : List u8) (fs : FileSystem σ) (net : Sockets τ)
    (ctx : client_context_t) (c : completion_t) (s : σ) (t : τ) :
    Option client_context_t × σ × τ :=
  match ctx.operation with
  | .OP_ACCEPT => accept_completion fs net c.associated ctx s t
  | .OP_RECV =>
      let (ctx, bytes_transferred) := recv_completed ctx c.arrived
      recv_completion document_root fs net ctx bytes_transferred c.req s t
  | .OP_SEND => handle_send_completion fs net ctx s t

/-- One completion of a client's operation. The worker that takes it does a round of its
loop (`IocpWorker.worker_round`). -/
def complete (document_root : List u8) (fs : FileSystem σ) (net : Sockets τ)
    (p : client_t × σ × τ) (c : completion_t) : Option (client_t × σ × τ) :=
  match p with
  | (.outstanding ctx, s, t) =>
      match IocpWorker.worker_round ⟨c.result, UInt32.ofNat c.arrived.length, 0, some (0, ctx)⟩ with
      | none => some (.abandoned ctx, s, t)
      | some _ =>
          match dispatched document_root fs net ctx c s t with
          | (some ctx, s, t) => some (.outstanding ctx, s, t)
          | (none, s, t) => some (.destroyed, s, t)
  | _ => none

/-- The handles of a client that is gone have been closed, once each; those of a client
that is being served are open. -/
def ClosedOnce (p : client_t × (σ × ledger_t) × τ) : Prop :=
  match p.1 with
  | .outstanding ctx => Moves 0 [] (handles ctx.stream) p.2.1.2
  | _ => Balanced p.2.1.2

/-- What a client holds. -/
def held : client_t → Multiset handle_t
  | .outstanding ctx => handles ctx.stream
  | .destroyed => 0
  | .abandoned ctx => handles ctx.stream

/-- The operation does not fail, or no handle is open. -/
def Recovers (p : client_t × σ × τ) (c : completion_t) : Prop :=
  c.result = false → held p.1 = 0

instance (p : client_t × σ × τ) (c : completion_t) : Decidable (Recovers p c) := by
  unfold Recovers
  infer_instance

theorem post_recv_stream (net : Sockets τ) (ctx : client_context_t) (t : τ) :
    (post_recv net ctx t).2.1.stream = ctx.stream := (post_recv_frame net ctx t).2

theorem post_send_stream (net : Sockets τ) (ctx : client_context_t) (data : List u8) (t : τ) :
    (post_send net ctx data t).2.1.stream = ctx.stream := by
  unfold post_send
  split_ifs
  · rfl
  · rfl

/-- Where a handler's result leaves the client. -/
def after (ctx : Option client_context_t) : client_t :=
  match ctx with
  | some ctx => .outstanding ctx
  | none => .destroyed

theorem accept_completion_moves (fs : FileSystem σ) (net : Sockets τ) (associated : Bool)
    (ctx : client_context_t) (s : σ × ledger_t) (t : τ) :
    Moves (handles ctx.stream) s.2
      (held (after (accept_completion (recorded fs) net associated ctx s t).1))
      (accept_completion (recorded fs) net associated ctx s t).2.1.2 := by
  have hposted := post_recv_stream net ctx t
  unfold accept_completion
  generalize post_recv net ctx t = r at hposted
  dsimp only
  split_ifs with hassociated hfailed
  · rw [← hposted]
    exact destroy_client_context_moves fs net r.2.1 s r.2.2
  · rw [after, held, hposted]
    exact .refl _ s.2
  · exact destroy_client_context_moves fs net ctx s t

/-- The end of `handle_recv_completion`: "Failed to post send" destroys the context. -/
def post_or_destroy (fs : FileSystem σ) (net : Sockets τ) (ctx : client_context_t)
    (head : List u8) (s : σ) (t : τ) : Option client_context_t × σ × τ :=
  match post_send net ctx head t with
  | (rc, ctx, t) =>
      if rc ≠ 0 then (none, destroy_client_context fs net ctx s t) else (some ctx, s, t)

theorem post_or_destroy_moves (fs : FileSystem σ) (net : Sockets τ) (ctx : client_context_t)
    (head : List u8) (s : σ × ledger_t) (t : τ) :
    Moves (handles ctx.stream) s.2
      (held (after (post_or_destroy (recorded fs) net ctx head s t).1))
      (post_or_destroy (recorded fs) net ctx head s t).2.1.2 := by
  have hposted := post_send_stream net ctx head t
  unfold post_or_destroy
  generalize post_send net ctx head t = r at hposted
  dsimp only
  split_ifs with hfailed
  · rw [← hposted]
    exact destroy_client_context_moves fs net r.2.1 s r.2.2
  · rw [after, held, hposted]
    exact .refl _ s.2

theorem respond_moves (document_root : List u8) (fs : FileSystem σ) (net : Sockets τ)
    (ctx : client_context_t) (req : http_request_t) (s : σ × ledger_t) (t : τ) :
    Moves 0 s.2 (held (after (respond document_root (recorded fs) net ctx req s t).1))
      (respond document_root (recorded fs) net ctx req s t).2.1.2 := by
  have hserved := serve_http_request_accounts document_root fs ctx.stream req
    HTTP_SEND_BUFFER_SIZE s
  unfold respond
  generalize serve_http_request document_root (recorded fs) ctx.stream req HTTP_SEND_BUFFER_SIZE s
    = r at hserved
  dsimp only
  by_cases hfailed : r.rc < 0
  · rw [if_pos hfailed]
    have hclosed := stream_close_moves fs r.ctx r.fs_state
    rw [← stream_close_handles (recorded fs) r.ctx r.fs_state] at hclosed
    exact (hserved.moves.trans hclosed).trans (post_or_destroy_moves fs net
      { ctx with stream := (stream_close (recorded fs) r.ctx r.fs_state).1 } _ _ t)
  · rw [if_neg hfailed]
    exact hserved.moves.trans (post_or_destroy_moves fs net { ctx with stream := r.ctx } _ _ t)

theorem handle_send_completion_moves (fs : FileSystem σ) (net : Sockets τ)
    (ctx : client_context_t) (s : σ × ledger_t) (t : τ) :
    Moves (handles ctx.stream) s.2
      (held (after (handle_send_completion (recorded fs) net ctx s t).1))
      (handle_send_completion (recorded fs) net ctx s t).2.1.2 := by
  unfold handle_send_completion
  by_cases hbody : ctx.stream.stream_kind ≠ .STREAM_NONE
  · rw [if_pos hbody]
    obtain ⟨hhandles, hledger⟩ := stream_next_chunk_ledger fs ctx.stream s
    generalize stream_next_chunk (recorded fs) HTTP_SEND_BUFFER_SIZE ctx.stream s = r
      at hhandles hledger
    -- closing once more before the context is destroyed finds nothing open
    have hend : ∀ (ctx' : client_context_t) (t' : τ), ctx'.stream = r.2.1 →
        Moves (handles ctx.stream) s.2 0 (destroy_client_context (recorded fs) net
          { ctx' with stream := (stream_close (recorded fs) ctx'.stream r.2.2).1 }
          (stream_close (recorded fs) ctx'.stream r.2.2).2 t').1.2 := by
      intro ctx' t' hstream
      have hclosed := stream_close_moves fs ctx'.stream r.2.2
      have hdestroyed := destroy_client_context_moves fs net
        { ctx' with stream := (stream_close (recorded fs) ctx'.stream r.2.2).1 }
        (stream_close (recorded fs) ctx'.stream r.2.2).2 t'
      rw [stream_close_handles] at hdestroyed
      rw [hstream, hhandles, hledger] at hclosed
      rw [hstream] at hdestroyed ⊢
      exact hclosed.trans hdestroyed
    dsimp only
    by_cases hchunk : r.1.length > 0
    · rw [if_pos hchunk]
      have hposted := post_send_stream net { ctx with stream := r.2.1 } r.1 t
      generalize post_send net { ctx with stream := r.2.1 } r.1 t = p at hposted
      dsimp only at hposted ⊢
      split_ifs with hsent
      · rw [after, held, hposted, hhandles, hledger]
        exact .refl _ s.2
      · exact hend p.2.1 p.2.2 hposted
    · rw [if_neg hchunk]
      exact hend { ctx with stream := r.2.1 } t rfl
  · rw [if_neg hbody]
    exact destroy_client_context_moves fs net ctx s t

/-- The context of a receive that has completed holds nothing before its request is served. -/
theorem recv_completion_moves (document_root : List u8) (fs : FileSystem σ) (net : Sockets τ)
    (ctx : client_context_t) (bytes_transferred : ℕ) (req : http_request_t)
    (hnone : handles ctx.stream = 0) (s : σ × ledger_t) (t : τ) :
    Moves 0 s.2
      (held (after (recv_completion document_root (recorded fs) net ctx bytes_transferred req s t).1))
      (recv_completion document_root (recorded fs) net ctx bytes_transferred req s t).2.1.2 := by
  unfold recv_completion
  split_ifs with hclosed
  · rw [← hnone]
    exact destroy_client_context_moves fs net ctx s t
  · exact respond_moves document_root fs net (recv_terminate ctx bytes_transferred) req s t

/-! ## Lives -/

/-- The handles a client holds are the ones that are open. Up to its request there are
none. -/
structure Inv (p : client_t × (σ × ledger_t) × τ) : Prop where
  moves : Moves 0 [] (held p.1) p.2.1.2
  before_request : ∀ ctx, p.1 = .outstanding ctx → ctx.operation ≠ .OP_SEND →
    handles ctx.stream = 0

theorem inv_accepted (sock : SOCKET) (s : σ) (t : τ) :
    Inv (.outstanding (create_client_context sock), (s, []), t) where
  moves := by
    rw [held, create_client_context, handles_initial]
    exact .refl 0 []
  before_request := by
    intro ctx hctx _
    rw [← client_t.outstanding.inj hctx]
    exact handles_initial

/-- What a completion does: the worker runs the handler, or leaves its loop. -/
theorem complete_cases {document_root : List u8} {fs : FileSystem σ} {net : Sockets τ}
    {p p' : client_t × σ × τ} {c : completion_t}
    (h : complete document_root fs net p c = some p') :
    ∃ ctx s t, p = (.outstanding ctx, s, t)
      ∧ ((c.result = false ∧ p' = (.abandoned ctx, s, t))
        ∨ (c.result = true
          ∧ p' = (after (dispatched document_root fs net ctx c s t).1,
            (dispatched document_root fs net ctx c s t).2))) := by
  obtain ⟨client, s, t⟩ := p
  cases client with
  | destroyed => exact absurd h (by simp [complete])
  | abandoned ctx => exact absurd h (by simp [complete])
  | outstanding ctx =>
      refine ⟨ctx, s, t, rfl, ?_⟩
      rw [complete] at h
      cases hresult : c.result with
      | false =>
          -- the worker breaks out of its loop with the context in its hands
          rw [IocpWorker.worker_round_failed (by exact hresult)] at h
          exact Or.inl ⟨rfl, (Option.some.inj h).symm⟩
      | true =>
          rw [IocpWorker.worker_round_succeeded (by exact hresult) rfl] at h
          refine Or.inr ⟨rfl, ?_⟩
          dsimp only at h
          rcases hr : dispatched document_root fs net ctx c s t with ⟨_ | ctx', s', t'⟩
          · rw [hr] at h
            exact (Option.some.inj h).symm
          · rw [hr] at h
            exact (Option.some.inj h).symm

/-- A handler keeps the ledger in step with the context. -/
theorem dispatched_moves {document_root : List u8} {fs : FileSystem σ} {net : Sockets τ}
    {ctx : client_context_t} {s : σ × ledger_t} {t : τ} (h : Inv (.outstanding ctx, s, t))
    (c : completion_t) :
    Moves (handles ctx.stream) s.2
      (held (after (dispatched document_root (recorded fs) net ctx c s t).1))
      (dispatched document_root (recorded fs) net ctx c s t).2.1.2 := by
  unfold dispatched
  cases hoperation : ctx.operation with
  | OP_ACCEPT => exact accept_completion_moves fs net c.associated ctx s t
  | OP_RECV =>
      have hnone := h.before_request ctx rfl (by rw [hoperation]; decide)
      rw [hnone]
      exact recv_completion_moves document_root fs net (recv_completed ctx c.arrived).1
        (recv_completed ctx c.arrived).2 c.req hnone s t
  | OP_SEND => exact handle_send_completion_moves fs net ctx s t

theorem post_send_operation {net : Sockets τ} {ctx : client_context_t} {data : List u8} {t : τ}
    (h : (post_send net ctx data t).1 = 0) :
    (post_send net ctx data t).2.1.operation = .OP_SEND := by
  unfold post_send at h ⊢
  split_ifs at h ⊢ with hrefused
  · exact absurd h (by simp)
  · rfl

/-- A context that comes back from a handler has had no request yet, or is sending. -/
theorem dispatched_operation {document_root : List u8} {fs : FileSystem σ} {net : Sockets τ}
    {ctx ctx' : client_context_t} {c : completion_t} {s : σ} {t : τ}
    (h : (dispatched document_root fs net ctx c s t).1 = some ctx') :
    (ctx.operation = .OP_ACCEPT ∧ ctx'.stream = ctx.stream) ∨ ctx'.operation = .OP_SEND := by
  unfold dispatched at h
  cases hoperation : ctx.operation with
  | OP_ACCEPT =>
      -- the receive has been posted, and `post_recv` leaves the stream alone
      rw [hoperation] at h
      refine Or.inl ⟨rfl, ?_⟩
      dsimp only at h
      unfold accept_completion at h
      dsimp only at h
      split_ifs at h
      rw [← Option.some.inj h]
      exact post_recv_stream net ctx t
  | OP_RECV =>
      rw [hoperation] at h
      refine Or.inr ?_
      dsimp only at h
      unfold recv_completion respond at h
      dsimp only at h
      split_ifs at h with hclosed hfailed hposted hposted
      · rw [← Option.some.inj h]
        exact post_send_operation (not_not.mp hposted)
      · rw [← Option.some.inj h]
        exact post_send_operation (not_not.mp hposted)
  | OP_SEND =>
      -- the context survives a chunk that was posted, and nothing else
      rw [hoperation] at h
      refine Or.inr ?_
      dsimp only at h
      unfold handle_send_completion at h
      by_cases hbody : ctx.stream.stream_kind ≠ .STREAM_NONE
      · rw [if_pos hbody] at h
        dsimp only at h
        by_cases hchunk : (stream_next_chunk fs HTTP_SEND_BUFFER_SIZE ctx.stream s).1.length > 0
        · rw [if_pos hchunk] at h
          dsimp only at h
          split_ifs at h with hposted
          rw [← Option.some.inj h]
          exact post_send_operation (of_decide_eq_true hposted)
        · rw [if_neg hchunk] at h
          exact absurd h (by simp)
      · rw [if_neg hbody] at h
        exact absurd h (by simp)

theorem complete_inv {document_root : List u8} {fs : FileSystem σ} {net : Sockets τ}
    (p : client_t × (σ × ledger_t) × τ) (c : completion_t) (p' : client_t × (σ × ledger_t) × τ)
    (h : Inv p) (hstep : complete document_root (recorded fs) net p c = some p') : Inv p' := by
  obtain ⟨ctx, s, t, rfl, ⟨-, rfl⟩ | ⟨-, rfl⟩⟩ := complete_cases hstep
  · exact ⟨h.moves, fun ctx' hctx' => absurd hctx' (by simp)⟩
  · refine ⟨h.moves.trans (dispatched_moves h c), fun ctx' hctx' hsend => ?_⟩
    have hsome : (dispatched document_root (recorded fs) net ctx c s t).1 = some ctx' := by
      dsimp only at hctx'
      generalize (dispatched document_root (recorded fs) net ctx c s t).1 = r at hctx' ⊢
      cases r with
      | none => exact absurd hctx' (by simp [after])
      | some ctx'' => rw [client_t.outstanding.inj hctx']
    rcases dispatched_operation hsome with ⟨haccept, hstream⟩ | hoperation
    · rw [hstream]
      exact h.before_request ctx rfl (by rw [haccept]; decide)
    · exact absurd hoperation hsend

/-- **One completion** leaves the handles accounted for unless it is a failure that finds one
open. -/
theorem complete_closed_once {document_root : List u8} {fs : FileSystem σ} {net : Sockets τ}
    (p : client_t × (σ × ledger_t) × τ) (c : completion_t) (p' : client_t × (σ × ledger_t) × τ)
    (h : Inv p) (hstep : complete document_root (recorded fs) net p c = some p') :
    ClosedOnce p' ↔ ClosedOnce p ∧ Recovers p c := by
  have hinv := complete_inv p c p' h hstep
  obtain ⟨ctx, s, t, rfl, ⟨hfailed, rfl⟩ | ⟨hdone, rfl⟩⟩ := complete_cases hstep
  · -- nobody closes what the context held
    have hbalanced := h.moves.balanced_iff
    constructor
    · exact fun hclosed => ⟨h.moves, fun _ => hbalanced.mp hclosed⟩
    · exact fun hok => hbalanced.mpr (hok.2 hfailed)
  · have hrecovers : Recovers (.outstanding ctx, s, t) c := by
      intro hfailed
      rw [hdone] at hfailed
      exact absurd hfailed (by decide)
    refine iff_of_true ?_ ⟨h.moves, hrecovers⟩
    have hmoves := hinv.moves
    unfold ClosedOnce
    dsimp only at hmoves ⊢
    generalize (dispatched document_root (recorded fs) net ctx c s t).1 = r at hmoves ⊢
    cases r with
    | none => exact hmoves.balanced_iff.mpr rfl
    | some ctx' => exact hmoves

/-- **File and search handles are balanced**: over `serve_http_request`, over a client of
the Win9x back end, and over one of the NT back end in exactly the runs in which no
operation fails while a handle is open. -/
theorem handles_closed_once (document_root : List u8) (fs : FileSystem σ) (net : Sockets τ)
    (sock : SOCKET) (s : σ) (t : τ) :
    (∀ ctx req out_size l, Accounts l
        (serve_http_request document_root (recorded fs) ctx req out_size (s, l)))
      ∧ (∀ results req s' t', client_win9x document_root (recorded fs) net
          (create_client_context sock) results req (s, []) t = some (s', t') → Balanced s'.2)
      ∧ ∀ completions p, exec (complete document_root (recorded fs) net)
          (.outstanding (create_client_context sock), (s, []), t) completions = some p →
        (ClosedOnce p ↔ Meets (complete document_root (recorded fs) net) Recovers
          (.outstanding (create_client_context sock), (s, []), t) completions) := by
  refine ⟨fun ctx req out_size l => ?_, fun results req s' t' h => client_win9x_balanced h,
    fun completions p h => ?_⟩
  · exact serve_http_request_accounts document_root fs ctx req out_size (s, l)
  · have hinv : Inv (.outstanding (create_client_context sock), (s, []), t) :=
      inv_accepted sock s t
    have hstart : ClosedOnce (.outstanding (create_client_context sock), (s, []), t) :=
      hinv.moves
    rw [exec_iff complete_inv complete_closed_once completions _ p hinv h]
    exact and_iff_right hstart

/-- One file to serve, and a request for it. -/
def one_file : FileSystem Disk.handles_t := Disk.disk [(ascii "C:\\www\\a", .file (ascii "x"))]

def get_a : completion_t where
  result := true
  associated := true
  arrived := ascii "GET /a HTTP/1.0\r\nA: b\r\n\r\n"
  req := ⟨1, ⟨17, 21⟩, ⟨4, 6⟩, ascii "GET /a HTTP/1.0\r\nA: b\r\n\r\n"⟩

/-- Accepted, asked for the file, and sent its head, its body and the end. -/
theorem handles_closed_once_one_file :
    ClosedOnce ((exec (complete (ascii "C:\\www") (recorded one_file) .accepting)
      (.outstanding (create_client_context (.of 1)), ([], []), ())
      [get_a, get_a, get_a, get_a]).get (by decide +kernel)) :=
  ((handles_closed_once (ascii "C:\\www") one_file .accepting (.of 1) [] ()).2.2
    [get_a, get_a, get_a, get_a] _ (Option.some_get _).symm).mpr (by decide +kernel)

/-- The client resets the connection while the head is being sent. -/
theorem reset_client_leaves_file_open :
    ∃ p, exec (complete (ascii "C:\\www") (recorded one_file) .accepting)
        (.outstanding (create_client_context (.of 1)), ([], []), ())
        [get_a, get_a, { get_a with result := false }] = some p
      ∧ p.2.1.2 = [.opened (.file (.of 0))] ∧ ¬ ClosedOnce p := by
  have hrun : (exec (complete (ascii "C:\\www") (recorded one_file) .accepting)
      (.outstanding (create_client_context (.of 1)), ([], []), ())
      [get_a, get_a, { get_a with result := false }]).map
        (fun p => (p.1 matches .abandoned _, p.2.1.2))
      = some (true, [.opened (.file (.of 0))]) := by decide +kernel
  obtain ⟨⟨client, s, t⟩, hp, hend⟩ := Option.map_eq_some_iff.mp hrun
  obtain ⟨habandoned, hledger⟩ := Prod.mk.inj hend
  refine ⟨_, hp, hledger, fun hclosed => ?_⟩
  cases client with
  | abandoned ctx =>
      have hone := hclosed.all_closed (.file (.of 0))
      rw [hledger] at hone
      exact absurd hone (by decide)
  | outstanding ctx => exact absurd habandoned (by simp)
  | destroyed => exact absurd habandoned (by simp)

end W32HttpServer.StreamHandles

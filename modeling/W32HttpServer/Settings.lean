/-
What a server is started with: the folder and the port that `on_start_click` takes from the
window.

The folder a user picks goes to an edit control that cannot be written to, and to
`g_document_root`, from where a click copies it. The port is typed. `on_start_click` reads at most
five characters of it and makes a `u16` of what `atoi` finds there. So each server serves the folder
the window shows, and it listens on the port the window shows where that is a port at all, and
short enough (`started_as_shown`): of a longer text the head alone counts, and of a number that is
too large the low word.
-/
import W32HttpServer.Common
import W32HttpServer.Platform
import W32HttpServer.ThreadPool
import W32HttpServer.PoolHandles
import W32HttpServer.Startup
import W32HttpServer.Layout
import W32HttpServer.FolderPicker
import W32HttpServer.Lib.Account

set_option autoImplicit false

namespace W32HttpServer.Settings

open W32HttpServer.Common
open W32HttpServer.PoolHandles (no_threads)
open W32HttpServer.Startup (server_config_t)
open W32HttpServer.Layout (g_layout IDC_PORT_EDIT IDC_FOLDER_EDIT)
open W32HttpServer.FolderPicker (picker_t folder_t call_t resource_t note_t on_folder_select_click
  Chosen on_folder_select_click_leaves)
open W32HttpServer.Lib.Account

/-! ## The port -/

def isspace (c : u8) : Bool := c == chr ' ' || (9 ≤ c && c ≤ 13)

/-- Blanks, a sign, and the number in front of the first other character. -/
def atoi (str : List u8) : ℤ :=
  match str.dropWhile isspace with
  | [] => 0
  | c :: cs =>
      if c = chr '-' then -(number (cs.takeWhile is_digit))
      else if c = chr '+' then number (cs.takeWhile is_digit)
      else number ((c :: cs).takeWhile is_digit)

/-- `GetWindowText` into a buffer of so many characters. -/
def GetWindowText (text : List u8) (nMaxCount : ℕ) : List u8 := text.take (nMaxCount - 1)

/-- `cfg.listen_port` for the text of the port edit. -/
def listen_port (port_edit : List u8) : UInt16 :=
  let listen_str := GetWindowText port_edit 6
  UInt16.ofInt (if listen_str.length ≠ 0 then atoi listen_str else 8080)

/-! ## The window -/

/-- A call of `start_server`, and what the window showed at that time. -/
structure start_t where
  port_edit : List u8
  folder_edit : List u8
  cfg : server_config_t

structure window_t where
  port_edit : List u8
  folder : folder_t
  /-- `GWLP_USERDATA` of the start button -/
  started : Bool
  starts : List start_t

/-- The text that the table gives a control. -/
def initial_text (id : ℕ) : List u8 :=
  ((g_layout.find? fun c => c.id = id).map fun c => c.text).getD []

theorem empty_no_nul : (0 : u8) ∉ ([] : List u8) := List.not_mem_nil

theorem empty_fits : ([] : List u8).length < MAX_PATH := Nat.zero_lt_succ 259

def no_folder : CString MAX_PATH := ⟨[], empty_no_nul, empty_fits⟩

def on_initialise : window_t where
  port_edit := initial_text IDC_PORT_EDIT
  folder := ⟨initial_text IDC_FOLDER_EDIT, no_folder⟩
  started := false
  starts := []

/-- `cfg` is the local variable of the call as it finds it. -/
def on_start_click (w : window_t) (cfg : server_config_t) : window_t :=
  let cfg := { cfg with
    listen_port := listen_port w.port_edit
    max_clients := 10
    worker_threads := 4
    document_root := w.folder.g_document_root }
  if ¬ w.started then
    -- "Please select a folder to serve first."
    if w.folder.g_document_root.bytes = [] then w
    else { w with
      started := true
      starts := w.starts ++ [⟨w.port_edit, w.folder.folder_edit, cfg⟩] }
  else { w with started := false }

inductive action_t
  | type_port (text : List u8)
  /-- with the pointers there are, the path of what is picked, and how the calls turn out -/
  | browse (p : picker_t) (selected_path : Option (CString MAX_PATH))
      (b : Books call_t resource_t note_t)
  | click (cfg : server_config_t)
  | W32HTTP_SERVER_STOPPED

def step (w : window_t) : action_t → window_t
  | .type_port text => { w with port_edit := text }
  | .browse p selected_path b =>
      { w with folder := (on_folder_select_click p w.folder selected_path b).1.1 }
  | .click cfg => on_start_click w cfg
  | .W32HTTP_SERVER_STOPPED => { w with started := false }

/-! ## Numbers of up to five digits -/

theorem number_append (s t : List u8) :
    number (s ++ t) = number s * 10 ^ t.length + number t := by
  rw [number, List.map_append, Nat.ofDigitChars_append, Nat.ofDigitChars_eq_ofDigitChars_zero,
    List.length_map, Nat.mul_comm]
  rfl

/-- The bytes of the digits. -/
theorem is_digit_iff {c : u8} : is_digit c = true ↔ 48 ≤ c.toNat ∧ c.toNat ≤ 57 := by
  rw [is_digit, Bool.and_eq_true, decide_eq_true_eq, decide_eq_true_eq, UInt8.le_iff_toNat_le,
    UInt8.le_iff_toNat_le]
  exact Iff.rfl

/-- Of digits `atoi` makes their number. -/
theorem atoi_digits {s : List u8} (h : ∀ c ∈ s, is_digit c = true) : atoi s = number s := by
  cases s with
  | nil => rfl
  | cons c s =>
      have hc := h c List.mem_cons_self
      obtain ⟨hlow, -⟩ := is_digit_iff.mp hc
      have hspace : isspace c = false := by
        rw [Bool.eq_false_iff]
        intro hspace
        simp only [isspace, Bool.or_eq_true, Bool.and_eq_true, beq_iff_eq, decide_eq_true_eq,
          UInt8.le_iff_toNat_le] at hspace
        rcases hspace with rfl | ⟨-, hhigh⟩
        · exact absurd hlow (by decide)
        · have h13 : (13 : u8).toNat = 13 := rfl
          omega
      have hsign : c ≠ chr '-' ∧ c ≠ chr '+' := by
        constructor
        · rintro rfl
          exact absurd hc (by decide)
        · rintro rfl
          exact absurd hc (by decide)
      rw [atoi, List.dropWhile_cons_of_neg (by simp [hspace])]
      dsimp only
      rw [if_neg hsign.1, if_neg hsign.2, List.takeWhile_eq_self_iff.mpr h]

/-- The port is the low word of the number of the first five digits. -/
theorem toNat_listen_port {text : List u8} (hdigits : ∀ c ∈ text, is_digit c = true)
    (hne : text ≠ []) : (listen_port text).toNat = number (text.take 5) % 65536 := by
  have htake : text.take 5 ≠ [] := by
    rw [Ne, List.take_eq_nil_iff]
    simpa using hne
  have hatoi := atoi_digits (s := text.take 5) fun c hc => hdigits c (List.mem_of_mem_take hc)
  have hlen : (GetWindowText text 6).length ≠ 0 := (List.length_pos_of_ne_nil htake).ne'
  have hlow : ((number (text.take 5) : ℤ) % 2 ^ 16).toNat = number (text.take 5) % 65536 := by
    omega
  rw [listen_port, if_pos hlen, GetWindowText, hatoi, UInt16.ofInt, hlow, UInt16.toNat_ofNat',
    Nat.mod_mod]

/-- **The port typed is the port used** where it is one and its digits fit, and zero in any
length. -/
theorem listen_port_iff {text : List u8} (hdigits : ∀ c ∈ text, is_digit c = true)
    (hne : text ≠ []) : (listen_port text).toNat = number text
      ↔ text.length ≤ 5 ∧ number text < 65536 ∨ number text = 0 := by
  rw [toNat_listen_port hdigits hne]
  by_cases hlen : text.length ≤ 5
  · rw [List.take_of_length_le hlen]
    omega
  · -- the head would have to be as large as the whole
    have hsplit := number_append (text.take 5) (text.drop 5)
    rw [List.take_append_drop] at hsplit
    have hten : 10 ≤ 10 ^ (text.drop 5).length := by
      have hdrop : 1 ≤ (text.drop 5).length := by
        rw [List.length_drop]
        omega
      exact Nat.pow_le_pow_right (n := 10) (by decide) hdrop
    have hshift : number (text.take 5) * 10 ≤ number (text.take 5) * 10 ^ (text.drop 5).length :=
      Nat.mul_le_mul_left _ hten
    omega

/-! ## Every session -/

/-- The server serves the folder that is shown, and there is one; it listens on the port that is
shown, if that is one, and on 8080 if none is. -/
structure AsShown (r : start_t) : Prop where
  folder : r.cfg.document_root.bytes = r.folder_edit ∧ r.folder_edit ≠ []
  port : r.port_edit ≠ [] → (∀ c ∈ r.port_edit, is_digit c = true) →
    (r.cfg.listen_port.toNat = number r.port_edit
      ↔ r.port_edit.length ≤ 5 ∧ number r.port_edit < 65536 ∨ number r.port_edit = 0)
  no_port : r.port_edit = [] → r.cfg.listen_port = 8080

structure Inv (w : window_t) : Prop where
  shown : w.folder.folder_edit = w.folder.g_document_root.bytes
  starts : ∀ r ∈ w.starts, AsShown r

theorem on_initialise_inv : Inv on_initialise where
  shown := by decide
  starts := fun r hr => absurd hr List.not_mem_nil

theorem on_start_click_inv {w : window_t} (h : Inv w) (cfg : server_config_t) :
    Inv (on_start_click w cfg) := by
  rw [on_start_click]
  split_ifs with hstarted hroot
  · exact ⟨h.shown, h.starts⟩
  · exact h
  · refine ⟨h.shown, fun r hr => ?_⟩
    rw [List.mem_append, List.mem_singleton] at hr
    rcases hr with hr | rfl
    · exact h.starts r hr
    · refine ⟨⟨h.shown.symm, h.shown ▸ hroot⟩, fun hne hdigits => listen_port_iff hdigits hne,
        fun hnone => ?_⟩
      dsimp only at hnone ⊢
      rw [hnone]
      decide

theorem step_inv {w : window_t} (h : Inv w) (a : action_t) : Inv (step w a) := by
  cases a with
  | type_port text => exact ⟨h.shown, h.starts⟩
  | browse p selected_path b =>
      -- any call may have failed before: the two texts are changed together or not at all
      have hmissing : FolderPicker.Missing fun _ => True := Or.inl trivial
      have hfound : FolderPicker.Found (fun _ => True) p :=
        ⟨fun _ => hmissing, fun _ => hmissing, fun _ => hmissing, fun _ => hmissing⟩
      obtain ⟨-, -, ⟨-, hchosen, -, -⟩, -⟩ :=
        @on_folder_select_click_leaves (fun _ => True) 0 p w.folder hfound selected_path b
          fun _ _ _ => trivial
      refine ⟨?_, h.starts⟩
      rw [step]
      rcases hchosen with hkept | ⟨path, -, htaken⟩
      · rw [hkept]
        exact h.shown
      · rw [htaken]
  | click cfg => exact on_start_click_inv h cfg
  | W32HTTP_SERVER_STOPPED => exact ⟨h.shown, h.starts⟩

/-- **What a server is started with is what the window shows**, in every session. The two texts of
the folder are changed together, which every step keeps, and the port is read from the edit at the
click. -/
theorem started_as_shown (as : List action_t) :
    ∀ r ∈ (as.foldl step on_initialise).starts, AsShown r := by
  have hrun : ∀ (as : List action_t) (w : window_t), Inv w → Inv (as.foldl step w) := by
    intro as
    induction as with
    | nil => exact fun w h => h
    | cons a as ih => exact fun w h => ih (step w a) (step_inv h a)
  exact (hrun as on_initialise on_initialise_inv).starts

/-- The local variable of a call as it might be found. -/
def found_cfg : server_config_t where
  listen_port := 0
  max_clients := 0
  worker_threads := 0
  document_root := no_folder
  lock := .NULL
  platform_info := ⟨.PLATFORM_WIN9X, 0, 0, 0, []⟩
  threading := ⟨{ ThreadPool.thread_pool_init with
      worker_threads := no_threads
      work_semaphore := .NULL
      work_mutex := .NULL
      shutdown_event := .NULL
      thread_count := 0
      is_shutdown := false }, ⟨.NULL, no_threads, .NULL, 0, false⟩⟩

def www : CString MAX_PATH := ⟨ascii "C:\\www", by decide, by decide⟩

/-- A folder is picked, a port is typed, and the server is started. -/
def one_start : List action_t :=
  [.browse ⟨none, some 1, false, false, true, true, true, false⟩ (some www) (Books.start fun _ => some),
    .type_port (ascii "8081"), .click found_cfg]

theorem started_as_shown_one_start :
    ∃ r, r ∈ (one_start.foldl step on_initialise).starts ∧ r.folder_edit = ascii "C:\\www"
      ∧ r.cfg.listen_port = 8081 ∧ AsShown r := by
  have hstarts : (one_start.foldl step on_initialise).starts.length = 1 := by decide +kernel
  obtain ⟨r, hr⟩ := List.length_eq_one_iff.mp hstarts
  have hmem : r ∈ (one_start.foldl step on_initialise).starts := by
    rw [hr]
    exact List.mem_singleton_self r
  have hfolder : ((one_start.foldl step on_initialise).starts.map fun r => r.folder_edit)
      = [ascii "C:\\www"] := by decide +kernel
  have hport : ((one_start.foldl step on_initialise).starts.map fun r => r.cfg.listen_port)
      = [8081] := by decide +kernel
  rw [hr] at hfolder hport
  exact ⟨r, hmem, List.cons.inj hfolder |>.1, List.cons.inj hport |>.1,
    started_as_shown one_start r hmem⟩

end W32HttpServer.Settings

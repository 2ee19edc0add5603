/-
The layout of the main window, and the fonts it is drawn in.

`on_initialise` builds the controls of `g_layout` for the DPI of the window, and
`WM_DPICHANGED` lays them out again. The two do the same arithmetic, one to create and the
other to move, and both give each control one of two fonts that a change of the DPI replaces and
deletes. So after any run of changes every control that could be created stands where the last DPI
alone puts it, and has a font that has not been deleted, of the height of the last DPI at which
that font could be created; and no font is left behind (`settled_after`).

`compute_metrics` asks for an area that holds the table. That every control is inside it, with
the padding around, holds at every DPI, since positions and sizes are whole units; the icon is
not, and fits in its box all the same (`place_inside`, `about_inside`).
-/
import Mathlib.Algebra.Order.Group.Multiset
import Mathlib.Tactic.Abel
import W32HttpServer.Common

set_option autoImplicit false

namespace W32HttpServer.Layout

open W32HttpServer.Common

/-! ## The table -/

abbrev SS_LEFT : u32 := 0
abbrev BS_PUSHBUTTON : u32 := 0
abbrev BS_DEFPUSHBUTTON : u32 := 1
abbrev ES_LEFT : u32 := 0
abbrev ES_CENTER : u32 := 1
abbrev ES_READONLY : u32 := 0x800
abbrev ES_NUMBER : u32 := 0x2000
abbrev WS_TABSTOP : u32 := 0x10000
abbrev WS_VSCROLL : u32 := 0x200000
abbrev WS_BORDER : u32 := 0x800000
abbrev WS_VISIBLE : u32 := 0x10000000
abbrev WS_CHILD : u32 := 0x40000000

abbrev IDC_START_BUTTON : ℕ := 304
abbrev IDC_PORT_EDIT : ℕ := 305
abbrev IDC_FOLDER_BUTTON : ℕ := 306
abbrev IDC_FOLDER_EDIT : ℕ := 307

abbrev LAYOUT_UNIT_96 : ℕ := 5
abbrev DESIGN_COLS : ℕ := 160
abbrev PAD_UNITS : ℕ := 2
abbrev ABOUT_X : ℕ := 80
abbrev ABOUT_Y : ℕ := 54
abbrev ABOUT_W : ℕ := 70
abbrev ABOUT_H : ℕ := 10

inductive font_t
  | FONT_SANS
  | FONT_MONO
  deriving DecidableEq

inductive log_window_t
  | CF_SERVERLOG
  | CF_REQUESTLOG
  deriving DecidableEq

/-- The flag `CF_FULLWIDTH`, and the log window the other two name. -/
structure ctl_def_t where
  cls : List u8
  text : List u8
  style : u32
  id : ℕ
  x : ℕ
  y : ℕ
  w : ℕ
  h : ℕ
  font : font_t
  full_width : Bool
  log_window : Option log_window_t
  deriving DecidableEq

def g_layout : List ctl_def_t :=
  [⟨ascii "STATIC", ascii "Server Log", SS_LEFT, 0, 2, 2, 0, 6, .FONT_SANS, true, none⟩,
    ⟨ascii "LISTBOX", [], WS_BORDER ||| WS_VSCROLL, 0, 2, 6, 0, 20, .FONT_MONO, true,
      some .CF_SERVERLOG⟩,
    ⟨ascii "STATIC", ascii "Request Log", SS_LEFT, 0, 2, 26, 0, 6, .FONT_SANS, true, none⟩,
    ⟨ascii "LISTBOX", [], WS_BORDER ||| WS_VSCROLL, 0, 2, 30, 0, 24, .FONT_MONO, true,
      some .CF_REQUESTLOG⟩,
    ⟨ascii "STATIC", ascii "Port", SS_LEFT, 0, 2, 55, 20, 5, .FONT_SANS, false, none⟩,
    ⟨ascii "EDIT", ascii "8080", WS_BORDER ||| ES_CENTER ||| ES_NUMBER, IDC_PORT_EDIT, 10, 54, 20,
      5, .FONT_SANS, false, none⟩,
    ⟨ascii "STATIC", ascii "Folder to serve", SS_LEFT, 0, 2, 58, 40, 5, .FONT_SANS, false, none⟩,
    ⟨ascii "EDIT", [], WS_BORDER ||| ES_LEFT ||| ES_READONLY, IDC_FOLDER_EDIT, 2, 62, 70, 5,
      .FONT_SANS, false, none⟩,
    ⟨ascii "BUTTON", ascii "Browse...", WS_TABSTOP ||| BS_PUSHBUTTON, IDC_FOLDER_BUTTON, 74, 62, 20,
      5, .FONT_SANS, false, none⟩,
    ⟨ascii "BUTTON", ascii "Start Listening", WS_TABSTOP ||| BS_DEFPUSHBUTTON, IDC_START_BUTTON, 40,
      66, 24, 6, .FONT_SANS, false, none⟩]

/-! ## Metrics -/

/-- `MulDiv` of numbers that are not negative: the quotient, rounded. -/
def MulDiv (number numerator denominator : ℕ) : ℕ :=
  (number * numerator + denominator / 2) / denominator

structure layout_metrics_t where
  dpi : ℕ
  unit : ℕ
  pad : ℕ
  client_w : ℕ
  client_h : ℕ
  deriving DecidableEq

def compute_metrics (dpi : ℕ) : layout_metrics_t :=
  let unit := MulDiv LAYOUT_UNIT_96 dpi 96
  let unit := if unit < 1 then 1 else unit
  let bottom := g_layout.foldl (fun bottom c => if c.y + c.h > bottom then c.y + c.h else bottom)
    (ABOUT_Y + ABOUT_H)
  { dpi := dpi
    unit := unit
    pad := PAD_UNITS * unit
    client_w := DESIGN_COLS * unit
    client_h := (bottom + PAD_UNITS) * unit }

/-- The DPI `GetDpiForWindow` reports, where there is such a function, or else that of a device
context, where there is one; zero is no answer. -/
def ui_get_dpi (GetDpiForWindow LOGPIXELSX : Option ℕ) : ℕ :=
  if GetDpiForWindow.getD 0 ≠ 0 then GetDpiForWindow.getD 0
  else if LOGPIXELSX.getD 0 ≠ 0 then LOGPIXELSX.getD 0
  else 96

structure rect_t where
  x : ℕ
  y : ℕ
  w : ℕ
  h : ℕ
  deriving DecidableEq

/-- The geometry `apply_layout` gives a control. -/
def place (m : layout_metrics_t) (c : ctl_def_t) : rect_t where
  x := c.x * m.unit
  y := c.y * m.unit
  w := if c.full_width then m.client_w - 2 * m.pad else c.w * m.unit
  h := c.h * m.unit

/-! ## Windows and fonts -/

/-- A font and what it was made from. -/
structure HFONT where
  handle : ℕ
  height : ℕ
  face : List u8
  deriving DecidableEq

/-- A window as it was created, with the geometry and the font it has now. -/
structure control_t where
  cls : List u8
  text : List u8
  style : u32
  id : ℕ
  rect : rect_t
  font : Option HFONT
  deriving DecidableEq

/-- The frame of the "about" panel with its two children. -/
structure about_t where
  frame : rect_t
  icon : Option rect_t
  text : Option control_t
  deriving DecidableEq

structure ui_t where
  g_sans_font : Option HFONT
  g_mono_font : Option HFONT
  g_ctl_hwnd : ℕ → Option control_t
  g_about_frame : Option about_t
  /-- the index in `g_ctl_hwnd` of each log window -/
  log_window : log_window_t → Option ℕ
  /-- the fonts that were created and not deleted -/
  fonts : Multiset HFONT
  next_handle : ℕ

/-- Which of the calls that create something succeed. -/
structure outcome_t where
  sans : Bool
  mono : Bool
  control : ℕ → Bool
  frame : Bool
  icon : Bool
  text : Bool

def CreateFont (height : ℕ) (face : List u8) (ok : Bool) (ui : ui_t) : Option HFONT × ui_t :=
  if ok then
    let font : HFONT := ⟨ui.next_handle, height, face⟩
    (some font, { ui with fonts := font ::ₘ ui.fonts, next_handle := ui.next_handle + 1 })
  else (none, ui)

def DeleteObject (font : HFONT) (ui : ui_t) : ui_t := { ui with fonts := ui.fonts.erase font }

def sans_face : List u8 := ascii "MS Sans Serif"

def mono_face : List u8 := ascii "Courier"

/-- `if (sans != NULL) { if (g_sans_font != NULL) DeleteObject(g_sans_font); ... }` -/
def replace_sans_font (sans : Option HFONT) (ui : ui_t) : ui_t :=
  match sans with
  | none => ui
  | some sans =>
      let ui := match ui.g_sans_font with
        | some old => DeleteObject old ui
        | none => ui
      { ui with g_sans_font := some sans }

def replace_mono_font (mono : Option HFONT) (ui : ui_t) : ui_t :=
  match mono with
  | none => ui
  | some mono =>
      let ui := match ui.g_mono_font with
        | some old => DeleteObject old ui
        | none => ui
      { ui with g_mono_font := some mono }

def set_ui_fonts (dpi : ℕ) (o : outcome_t) (ui : ui_t) : ui_t :=
  let (sans, ui) := CreateFont (MulDiv 8 dpi 96) sans_face o.sans ui
  let (mono, ui) := CreateFont (MulDiv 12 dpi 96) mono_face o.mono ui
  replace_mono_font mono (replace_sans_font sans ui)

/-- The font a control is to have. -/
def font_of (ui : ui_t) : font_t → Option HFONT
  | .FONT_MONO => ui.g_mono_font
  | .FONT_SANS => ui.g_sans_font

/-- One round of the loop of `apply_layout`. -/
def apply_control (m : layout_metrics_t) (create : Bool) (o : outcome_t) (i : ℕ) (c : ctl_def_t)
    (ui : ui_t) : ui_t :=
  if create then
    if o.control i then
      let ctrl : control_t :=
        ⟨c.cls, c.text, WS_CHILD ||| WS_VISIBLE ||| c.style, c.id, place m c, font_of ui c.font⟩
      { ui with
        g_ctl_hwnd := Function.update ui.g_ctl_hwnd i (some ctrl)
        log_window := match c.log_window with
          | some log => Function.update ui.log_window log (some i)
          | none => ui.log_window }
    else { ui with g_ctl_hwnd := Function.update ui.g_ctl_hwnd i none }
  else
    { ui with g_ctl_hwnd := Function.update ui.g_ctl_hwnd i ((ui.g_ctl_hwnd i).map fun ctrl =>
        { ctrl with rect := place m c, font := font_of ui c.font }) }

/-- The loop, from index `i` on. -/
def apply_controls (m : layout_metrics_t) (create : Bool) (o : outcome_t) :
    ℕ → List ctl_def_t → ui_t → ui_t
  | _, [], ui => ui
  | i, c :: cs, ui => apply_controls m create o (i + 1) cs (apply_control m create o i c ui)

def apply_layout (m : layout_metrics_t) (create : Bool) (o : outcome_t) (ui : ui_t) : ui_t :=
  apply_controls m create o 0 g_layout ui

def about_text : List u8 := ascii "Simple HTTP Server by Didiet Noor\nhttp://www.retrocoding.net"

/-- A child window cannot be made without its parent. -/
def create_about_box (m : layout_metrics_t) (o : outcome_t) (ui : ui_t) : ui_t :=
  let inset := m.unit
  let isz := MulDiv 32 m.dpi 96
  if o.frame then
    { ui with g_about_frame := some {
        frame := ⟨ABOUT_X * m.unit, ABOUT_Y * m.unit, ABOUT_W * m.unit, ABOUT_H * m.unit⟩
        icon := if o.icon then some ⟨inset, inset, isz, isz⟩ else none
        text := if o.text then some ⟨ascii "STATIC", about_text, WS_CHILD ||| WS_VISIBLE, 0,
            ⟨inset * 2 + isz, inset, ABOUT_W * m.unit - (inset * 3 + isz),
              ABOUT_H * m.unit - inset * 2⟩, ui.g_sans_font⟩
          else none } }
  else { ui with g_about_frame := none }

/-- `DestroyWindow` takes the children along. -/
def relayout_ui (dpi : ℕ) (o : outcome_t) (ui : ui_t) : ui_t :=
  let m := compute_metrics dpi
  let ui := set_ui_fonts dpi o ui
  let ui := apply_layout m false o ui
  create_about_box m o { ui with g_about_frame := none }

def on_initialise (dpi : ℕ) (o : outcome_t) (ui : ui_t) : ui_t :=
  let m := compute_metrics dpi
  let ui := set_ui_fonts m.dpi o ui
  let ui := apply_layout m true o ui
  create_about_box m o ui

/-- `WinMain` up to the window: the fonts it loads, unless it ends there. -/
def load_fonts (sans mono : Bool) : Option ui_t :=
  let ui : ui_t := ⟨none, none, fun _ => none, none, fun _ => none, 0, 0⟩
  let (sans, ui) := CreateFont 8 sans_face sans ui
  let ui := { ui with g_sans_font := sans }
  if sans = none then none
  else
    let (mono, ui) := CreateFont 12 mono_face mono ui
    let ui := { ui with g_mono_font := mono }
    if mono = none then none else some ui

def HIWORD (w : u32) : ℕ := w.toNat / 2 ^ 16

/-- What `main_window_procedure` does on `WM_DPICHANGED`, but for moving the window itself. -/
def on_dpi_changed (wparam : u32) (o : outcome_t) (ui : ui_t) : ui_t :=
  relayout_ui (HIWORD wparam) o ui

/-! ## The area -/

theorem metrics_eq (dpi : ℕ) : (compute_metrics dpi).pad = 2 * (compute_metrics dpi).unit
    ∧ (compute_metrics dpi).client_w = 160 * (compute_metrics dpi).unit
    ∧ (compute_metrics dpi).client_h = 74 * (compute_metrics dpi).unit :=
  ⟨rfl, rfl, rfl⟩

/-- The rectangle keeps a distance from the edges of an area. -/
structure Inside (w h margin : ℕ) (r : rect_t) : Prop where
  left : margin ≤ r.x
  top : margin ≤ r.y
  right : r.x + r.w + margin ≤ w
  bottom : r.y + r.h + margin ≤ h

/-- What the table has to satisfy, in units. -/
def fits_table (c : ctl_def_t) : Bool :=
  2 ≤ c.x && 2 ≤ c.y && (if c.full_width then c.x ≤ 2 else c.x + c.w ≤ 158) && c.y + c.h ≤ 72

theorem g_layout_fits : ∀ c ∈ g_layout, fits_table c = true := by
  decide

/-- **Every control is inside**, at every DPI: a distance in units is one in pixels. -/
theorem place_inside (dpi : ℕ) {c : ctl_def_t} (hc : c ∈ g_layout) :
    Inside (compute_metrics dpi).client_w (compute_metrics dpi).client_h (compute_metrics dpi).pad
      (place (compute_metrics dpi) c) := by
  have hfits := g_layout_fits c hc
  obtain ⟨hpad, hw, hh⟩ := metrics_eq dpi
  simp only [fits_table, Bool.and_eq_true, decide_eq_true_eq] at hfits
  obtain ⟨⟨⟨hleft, htop⟩, hright⟩, hbottom⟩ := hfits
  constructor
  · rw [hpad]
    exact Nat.mul_le_mul_right _ hleft
  · rw [hpad]
    exact Nat.mul_le_mul_right _ htop
  · show c.x * (compute_metrics dpi).unit + (if c.full_width = true then _ else _) + _ ≤ _
    rw [hpad, hw]
    split_ifs at hright ⊢ with hfull
    · have hx := Nat.mul_le_mul_right (compute_metrics dpi).unit (of_decide_eq_true hright)
      omega
    · have hx := Nat.mul_le_mul_right (compute_metrics dpi).unit (of_decide_eq_true hright)
      rw [Nat.add_mul] at hx
      omega
  · show c.y * (compute_metrics dpi).unit + c.h * (compute_metrics dpi).unit + _ ≤ _
    have hy := Nat.mul_le_mul_right (compute_metrics dpi).unit hbottom
    rw [Nat.add_mul] at hy
    omega

/-- The rectangles of the "about" panel: its frame, and in the frame the icon and the text. -/
def about_frame (m : layout_metrics_t) : rect_t :=
  ⟨ABOUT_X * m.unit, ABOUT_Y * m.unit, ABOUT_W * m.unit, ABOUT_H * m.unit⟩

def about_icon (m : layout_metrics_t) : rect_t :=
  ⟨m.unit, m.unit, MulDiv 32 m.dpi 96, MulDiv 32 m.dpi 96⟩

def about_label (m : layout_metrics_t) : rect_t :=
  ⟨m.unit * 2 + MulDiv 32 m.dpi 96, m.unit,
    ABOUT_W * m.unit - (m.unit * 3 + MulDiv 32 m.dpi 96), ABOUT_H * m.unit - m.unit * 2⟩

/-- The icon is scaled with the DPI, where everything else is whole units: at 28 DPI it is nine
units high, and reaches the edge of the frame, one unit down and ten high. -/
theorem icon_le (dpi : ℕ) : MulDiv 32 dpi 96 ≤ 9 * (compute_metrics dpi).unit := by
  show (32 * dpi + 96 / 2) / 96 ≤ 9 * if (5 * dpi + 96 / 2) / 96 < 1 then 1
    else (5 * dpi + 96 / 2) / 96
  split_ifs <;> omega

/-- **The "about" panel is inside**, and in it the icon and the text. -/
theorem about_inside (dpi : ℕ) :
    Inside (compute_metrics dpi).client_w (compute_metrics dpi).client_h (compute_metrics dpi).pad
        (about_frame (compute_metrics dpi))
      ∧ Inside (about_frame (compute_metrics dpi)).w (about_frame (compute_metrics dpi)).h 0
        (about_icon (compute_metrics dpi))
      ∧ Inside (about_frame (compute_metrics dpi)).w (about_frame (compute_metrics dpi)).h
        (compute_metrics dpi).unit (about_label (compute_metrics dpi)) := by
  obtain ⟨hpad, hw, hh⟩ := metrics_eq dpi
  have hicon := icon_le dpi
  have hdpi : (compute_metrics dpi).dpi = dpi := rfl
  refine ⟨⟨?_, ?_, ?_, ?_⟩, ⟨Nat.zero_le _, Nat.zero_le _, ?_, ?_⟩, ⟨?_, le_rfl, ?_, ?_⟩⟩
  all_goals
    simp only [about_frame, about_icon, about_label, ABOUT_X, ABOUT_Y, ABOUT_W, ABOUT_H, hpad, hw,
      hh, hdpi]
    omega

/-- With the DPI in a word, as `WM_DPICHANGED` brings it, no pixel count is near the range of
`int`. -/
theorem client_lt {dpi : ℕ} (h : dpi < 2 ^ 16) :
    (compute_metrics dpi).client_w < 2 ^ 20 ∧ (compute_metrics dpi).client_h < 2 ^ 20 := by
  obtain ⟨-, hw, hh⟩ := metrics_eq dpi
  have hunit : (compute_metrics dpi).unit ≤ 2 ^ 12 := by
    show (if (5 * dpi + 96 / 2) / 96 < 1 then 1 else (5 * dpi + 96 / 2) / 96) ≤ _
    split_ifs <;> omega
  omega

/-! ## A control is what it would be if it were made now -/

/-- The window `apply_layout` makes of an entry of the table. -/
def made (m : layout_metrics_t) (ui : ui_t) (c : ctl_def_t) : control_t :=
  ⟨c.cls, c.text, WS_CHILD ||| WS_VISIBLE ||| c.style, c.id, place m c, font_of ui c.font⟩

/-- The window of an entry after its round. -/
def laid (m : layout_metrics_t) (create : Bool) (o : outcome_t) (ui : ui_t) (i : ℕ)
    (c : ctl_def_t) : Option control_t :=
  if create then if o.control i then some (made m ui c) else none
  else (ui.g_ctl_hwnd i).map fun ctrl => { ctrl with rect := place m c, font := font_of ui c.font }

section Round

variable (m : layout_metrics_t) (create : Bool) (o : outcome_t) (i : ℕ) (c : ctl_def_t) (ui : ui_t)

theorem apply_control_hwnd : (apply_control m create o i c ui).g_ctl_hwnd
    = Function.update ui.g_ctl_hwnd i (laid m create o ui i c) := by
  rw [apply_control, laid]
  split_ifs <;> rfl

@[simp] theorem apply_control_sans :
    (apply_control m create o i c ui).g_sans_font = ui.g_sans_font := by
  rw [apply_control]
  split_ifs <;> rfl

@[simp] theorem apply_control_mono :
    (apply_control m create o i c ui).g_mono_font = ui.g_mono_font := by
  rw [apply_control]
  split_ifs <;> rfl

@[simp] theorem apply_control_fonts :
    (apply_control m create o i c ui).fonts = ui.fonts := by
  rw [apply_control]
  split_ifs <;> rfl

@[simp] theorem font_of_apply_control (font : font_t) :
    font_of (apply_control m create o i c ui) font = font_of ui font := by
  cases font
  · exact apply_control_sans m create o i c ui
  · exact apply_control_mono m create o i c ui

/-- The rounds of other entries neither see nor change this one. -/
theorem laid_apply_control {j : ℕ} (hne : j ≠ i) (d : ctl_def_t) :
    laid m create o (apply_control m create o i c ui) j d = laid m create o ui j d := by
  rw [laid, laid, made, made, apply_control_hwnd, Function.update_of_ne hne,
    font_of_apply_control]

end Round

/-- **The loop**: the entries from `k` on are laid out, and no others. -/
theorem apply_controls_hwnd (m : layout_metrics_t) (create : Bool) (o : outcome_t)
    (cs : List ctl_def_t) (k : ℕ) (ui : ui_t) :
    (∀ j c, cs[j]? = some c →
        (apply_controls m create o k cs ui).g_ctl_hwnd (k + j) = laid m create o ui (k + j) c)
      ∧ ∀ i, (i < k ∨ k + cs.length ≤ i) →
        (apply_controls m create o k cs ui).g_ctl_hwnd i = ui.g_ctl_hwnd i := by
  induction cs generalizing k ui with
  | nil => exact ⟨fun _ _ h => by simp at h, fun _ _ => rfl⟩
  | cons c cs ih =>
      obtain ⟨hin, hout⟩ := ih (k + 1) (apply_control m create o k c ui)
      constructor
      · intro j d hd
        cases j with
        | zero =>
            obtain rfl := Option.some.inj hd
            rw [apply_controls, hout _ (Or.inl (by omega)), apply_control_hwnd,
              Nat.add_zero, Function.update_self]
        | succ j =>
            have hlaid := hin j d hd
            rw [laid_apply_control m create o k c ui (by omega)] at hlaid
            rw [apply_controls, show k + (j + 1) = k + 1 + j by omega]
            exact hlaid
      · intro i hi
        rw [List.length_cons] at hi
        rw [apply_controls, hout i (by omega), apply_control_hwnd,
          Function.update_of_ne (by omega)]

theorem apply_controls_fonts (m : layout_metrics_t) (create : Bool) (o : outcome_t)
    (cs : List ctl_def_t) (k : ℕ) (ui : ui_t) :
    (apply_controls m create o k cs ui).g_sans_font = ui.g_sans_font
      ∧ (apply_controls m create o k cs ui).g_mono_font = ui.g_mono_font
      ∧ (apply_controls m create o k cs ui).fonts = ui.fonts := by
  induction cs generalizing k ui with
  | nil => exact ⟨rfl, rfl, rfl⟩
  | cons c cs ih => simpa [apply_controls] using ih (k + 1) (apply_control m create o k c ui)

/-! ## The fonts -/

/-- The typeface of each of the two fonts, and its height at 96 DPI. -/
def face_of : font_t → List u8
  | .FONT_SANS => sans_face
  | .FONT_MONO => mono_face

def design_height : font_t → ℕ
  | .FONT_SANS => 8
  | .FONT_MONO => 12

/-- Whether `set_ui_fonts` could create the font. -/
def created (o : outcome_t) : font_t → Bool
  | .FONT_SANS => o.sans
  | .FONT_MONO => o.mono

/-- The heights behind `set_ui_fonts`: that of the DPI, but the old one where the new font could
not be created. -/
def new_heights (dpi : ℕ) (o : outcome_t) (heights : font_t → ℕ) (font : font_t) : ℕ :=
  if created o font then MulDiv (design_height font) dpi 96 else heights font

/-- Two fonts are open, and they are the two in use, of these heights. -/
def TwoFonts (heights : font_t → ℕ) (ui : ui_t) : Prop :=
  ∃ sans mono, ui.g_sans_font = some sans ∧ ui.g_mono_font = some mono
    ∧ (sans.face = sans_face ∧ sans.height = heights .FONT_SANS)
    ∧ (mono.face = mono_face ∧ mono.height = heights .FONT_MONO)
    ∧ ui.fonts = {sans, mono}

theorem TwoFonts.font_of_mem {heights : font_t → ℕ} {ui : ui_t} (h : TwoFonts heights ui)
    (font : font_t) :
    ∃ f ∈ ui.fonts, font_of ui font = some f ∧ f.face = face_of font ∧ f.height = heights font := by
  obtain ⟨sans, mono, hsans, hmono, ⟨hsans_face, hsans_height⟩, ⟨hmono_face, hmono_height⟩,
    hfonts⟩ := h
  rw [hfonts]
  cases font
  · exact ⟨sans, by simp, hsans, hsans_face, hsans_height⟩
  · exact ⟨mono, by simp, hmono, hmono_face, hmono_height⟩

/-- What `WinMain` hands to the window: no control, and two fonts. -/
theorem load_fonts_two {sans mono : Bool} {ui : ui_t} (h : load_fonts sans mono = some ui) :
    TwoFonts design_height ui ∧ ui.g_ctl_hwnd = (fun _ => none)
      ∧ ui.log_window = fun _ => none := by
  cases sans
  · simp [load_fonts, CreateFont] at h
  · cases mono
    · simp [load_fonts, CreateFont] at h
    · obtain rfl := Option.some.inj h
      exact ⟨⟨_, _, rfl, rfl, ⟨rfl, rfl⟩, ⟨rfl, rfl⟩, Multiset.pair_comm _ _⟩, rfl, rfl⟩

theorem erase_of_eq {fonts rest : Multiset HFONT} {font : HFONT} (h : fonts = font ::ₘ rest) :
    fonts.erase font = rest := by
  rw [h, Multiset.erase_cons_head]

/-- A new font comes before the old one goes, and the old one goes only for a new one. -/
theorem set_ui_fonts_two (dpi : ℕ) (o : outcome_t) {heights : font_t → ℕ} {ui : ui_t}
    (h : TwoFonts heights ui) : TwoFonts (new_heights dpi o heights) (set_ui_fonts dpi o ui) := by
  obtain ⟨sans, mono, hsans, hmono, ⟨hsans_face, hsans_height⟩, ⟨hmono_face, hmono_height⟩,
    hfonts⟩ := h
  have hsans_new : new_heights dpi o heights .FONT_SANS
      = if o.sans then MulDiv 8 dpi 96 else heights .FONT_SANS := rfl
  have hmono_new : new_heights dpi o heights .FONT_MONO
      = if o.mono then MulDiv 12 dpi 96 else heights .FONT_MONO := rfl
  unfold TwoFonts
  rw [hsans_new, hmono_new]
  cases hs : o.sans <;> cases hm : o.mono <;>
    simp only [set_ui_fonts, CreateFont, hs, hm, if_true, Bool.false_eq_true, if_false,
      replace_sans_font, replace_mono_font, DeleteObject, hsans, hmono, hfonts]
  · exact ⟨sans, mono, rfl, rfl, ⟨hsans_face, hsans_height⟩, ⟨hmono_face, hmono_height⟩, rfl⟩
  · refine ⟨sans, _, rfl, rfl, ⟨hsans_face, hsans_height⟩, ⟨rfl, rfl⟩, ?_⟩
    apply erase_of_eq
    simp only [Multiset.insert_eq_cons, ← Multiset.singleton_add]
    abel
  · refine ⟨_, mono, rfl, rfl, ⟨rfl, rfl⟩, ⟨hmono_face, hmono_height⟩, ?_⟩
    apply erase_of_eq
    simp only [Multiset.insert_eq_cons, ← Multiset.singleton_add]
    abel
  · refine ⟨_, _, rfl, rfl, ⟨rfl, rfl⟩, ⟨rfl, rfl⟩, ?_⟩
    apply erase_of_eq
    apply erase_of_eq
    simp only [Multiset.insert_eq_cons, ← Multiset.singleton_add]
    abel

theorem replace_sans_font_windows (sans : Option HFONT) (ui : ui_t) :
    (replace_sans_font sans ui).g_ctl_hwnd = ui.g_ctl_hwnd
      ∧ (replace_sans_font sans ui).log_window = ui.log_window := by
  rcases sans with _ | sans
  · exact ⟨rfl, rfl⟩
  · rcases h : ui.g_sans_font <;> simp [replace_sans_font, DeleteObject, h]

theorem replace_mono_font_windows (mono : Option HFONT) (ui : ui_t) :
    (replace_mono_font mono ui).g_ctl_hwnd = ui.g_ctl_hwnd
      ∧ (replace_mono_font mono ui).log_window = ui.log_window := by
  rcases mono with _ | mono
  · exact ⟨rfl, rfl⟩
  · rcases h : ui.g_mono_font <;> simp [replace_mono_font, DeleteObject, h]

theorem set_ui_fonts_windows (dpi : ℕ) (o : outcome_t) (ui : ui_t) :
    (set_ui_fonts dpi o ui).g_ctl_hwnd = ui.g_ctl_hwnd
      ∧ (set_ui_fonts dpi o ui).log_window = ui.log_window := by
  rw [set_ui_fonts, (replace_mono_font_windows _ _).1, (replace_mono_font_windows _ _).2,
    (replace_sans_font_windows _ _).1, (replace_sans_font_windows _ _).2]
  cases hs : o.sans <;> cases hm : o.mono <;> exact ⟨rfl, rfl⟩

/-! ## After any run of changes -/

/-- The "about" panel `create_about_box` makes. -/
def about_made (m : layout_metrics_t) (o : outcome_t) (ui : ui_t) : Option about_t :=
  if o.frame then some {
      frame := about_frame m
      icon := if o.icon then some (about_icon m) else none
      text := if o.text then some ⟨ascii "STATIC", about_text, WS_CHILD ||| WS_VISIBLE, 0,
          about_label m, ui.g_sans_font⟩
        else none }
  else none

/-- The window as it would be if it had been built at this DPI, with fonts of these heights. The
controls are those that could be created when it was `built`; the panel has the parts that could
be created the `last` time. -/
structure Settled (dpi : ℕ) (heights : font_t → ℕ) (built last : outcome_t) (ui : ui_t) : Prop where
  fonts : TwoFonts heights ui
  control : ∀ i, ui.g_ctl_hwnd i
    = if built.control i then (g_layout[i]?).map (made (compute_metrics dpi) ui) else none
  about : ui.g_about_frame = about_made (compute_metrics dpi) last ui
  log : ∀ log i, ui.log_window log = some i ↔ built.control i = true
    ∧ ∃ c, g_layout[i]? = some c ∧ c.log_window = some log

section Apply

variable (m : layout_metrics_t) (create : Bool) (o : outcome_t)

theorem apply_layout_two {heights : font_t → ℕ} {ui : ui_t} (h : TwoFonts heights ui) :
    TwoFonts heights (apply_layout m create o ui) := by
  obtain ⟨hsans, hmono, hopen⟩ := apply_controls_fonts m create o g_layout 0 ui
  obtain ⟨sans, mono, h⟩ := h
  exact ⟨sans, mono, hsans.trans h.1, hmono.trans h.2.1, h.2.2.1, h.2.2.2.1, hopen.trans h.2.2.2.2⟩

theorem made_apply_layout (ui : ui_t) : made m (apply_layout m create o ui) = made m ui := by
  obtain ⟨hsans, hmono, -⟩ := apply_controls_fonts m create o g_layout 0 ui
  funext c
  rcases hfont : c.font <;> simp [made, apply_layout, hfont, font_of, hsans, hmono]

/-- Behind the table nothing changes. -/
theorem apply_layout_hwnd (ui : ui_t) (i : ℕ) : (apply_layout m create o ui).g_ctl_hwnd i
    = match g_layout[i]? with
      | some c => laid m create o ui i c
      | none => ui.g_ctl_hwnd i := by
  obtain ⟨hin, hout⟩ := apply_controls_hwnd m create o g_layout 0 ui
  rw [apply_layout]
  rcases hc : g_layout[i]? with _ | c
  · exact hout i (Or.inr (by simpa using hc))
  · simpa using hin i c hc

/-- Creating: every control of the table is there that could be created. -/
theorem apply_layout_created {ui : ui_t} (hnone : ui.g_ctl_hwnd = fun _ => none) (i : ℕ) :
    (apply_layout m true o ui).g_ctl_hwnd i
      = if o.control i then (g_layout[i]?).map (made m (apply_layout m true o ui)) else none := by
  rw [apply_layout_hwnd, made_apply_layout, hnone]
  rcases g_layout[i]? with _ | c
  · rw [Option.map_none, ite_self]
  · rfl

/-- Moving: the same controls are there, and each as it would be if it were made now. -/
theorem apply_layout_moved {built : outcome_t} {m' : layout_metrics_t} {ui' ui : ui_t}
    (h : ∀ i, ui.g_ctl_hwnd i = if built.control i then (g_layout[i]?).map (made m' ui') else none)
    (i : ℕ) : (apply_layout m false o ui).g_ctl_hwnd i
      = if built.control i then (g_layout[i]?).map (made m (apply_layout m false o ui))
        else none := by
  rw [apply_layout_hwnd, made_apply_layout]
  rcases hc : g_layout[i]? with _ | c
  · dsimp only
    rw [h i, hc, Option.map_none, Option.map_none]
  · dsimp only
    rw [laid, if_neg Bool.false_ne_true, h i, hc]
    split_ifs <;> rfl

end Apply

/-! ## The log windows -/

/-- Each log window is named by one entry of the table. -/
theorem log_entry_unique : ∀ i j : Fin g_layout.length,
    g_layout[i].log_window ≠ none → g_layout[i].log_window = g_layout[j].log_window → i = j := by
  decide

/-- The log windows are those of the entries before `k` that could be created. -/
def LogsBelow (o : outcome_t) (k : ℕ) (ui : ui_t) : Prop :=
  ∀ log i, ui.log_window log = some i ↔ i < k ∧ o.control i = true
    ∧ ∃ c, g_layout[i]? = some c ∧ c.log_window = some log

theorem log_window_apply_control (m : layout_metrics_t) (o : outcome_t) (k : ℕ) (c : ctl_def_t)
    (ui : ui_t) (log : log_window_t) : (apply_control m true o k c ui).log_window log
      = if o.control k ∧ c.log_window = some log then some k else ui.log_window log := by
  rw [apply_control, if_pos rfl]
  rcases hok : o.control k
  · rfl
  · rcases hflag : c.log_window with _ | flag
    · simp
    · rcases eq_or_ne flag log with rfl | hne
      · simp
      · simp [Function.update_of_ne hne.symm, hne]

/-- A round that creates a window: it takes the place of no other log window, since the table has
one entry for each. -/
theorem apply_control_log (m : layout_metrics_t) {o : outcome_t} {k : ℕ} {c : ctl_def_t} {ui : ui_t}
    (hc : g_layout[k]? = some c) (h : LogsBelow o k ui) :
    LogsBelow o (k + 1) (apply_control m true o k c ui) := by
  intro log i
  rw [log_window_apply_control]
  split_ifs with hnew
  · constructor
    · intro hk
      obtain rfl := Option.some.inj hk
      exact ⟨by omega, hnew.1, c, hc, hnew.2⟩
    · rintro ⟨-, -, d, hd, hflag⟩
      obtain ⟨hk, rfl⟩ := List.getElem?_eq_some_iff.mp hc
      obtain ⟨hi, rfl⟩ := List.getElem?_eq_some_iff.mp hd
      have hsame := log_entry_unique ⟨k, hk⟩ ⟨i, hi⟩
        (fun hnone => Option.some_ne_none log (hnew.2.symm.trans hnone))
        (hnew.2.trans hflag.symm)
      rw [Fin.mk.injEq] at hsame
      rw [hsame]
  · rw [h log i]
    constructor
    · rintro ⟨hi, hrest⟩
      exact ⟨by omega, hrest⟩
    · rintro ⟨hi, hok, d, hd, hflag⟩
      rcases Nat.lt_succ_iff_lt_or_eq.mp hi with hi | rfl
      · exact ⟨hi, hok, d, hd, hflag⟩
      · obtain rfl := Option.some.inj (hc.symm.trans hd)
        exact absurd ⟨hok, hflag⟩ hnew

theorem apply_controls_log (m : layout_metrics_t) {o : outcome_t} (cs : List ctl_def_t) (k : ℕ)
    (ui : ui_t) (hcs : ∀ j, g_layout[k + j]? = cs[j]?) (h : LogsBelow o k ui) :
    LogsBelow o (k + cs.length) (apply_controls m true o k cs ui) := by
  induction cs generalizing k ui with
  | nil => exact h
  | cons c cs ih =>
      have hrest : ∀ j, g_layout[k + 1 + j]? = cs[j]? := by
        intro j
        rw [Nat.add_assoc, Nat.add_comm 1 j]
        exact hcs (j + 1)
      have hround := ih (k + 1) _ hrest (apply_control_log m (hcs 0) h)
      rwa [List.length_cons, Nat.add_comm cs.length, ← Nat.add_assoc]

/-- Creating: the log windows are those of the table that could be created. -/
theorem apply_layout_log (m : layout_metrics_t) (o : outcome_t) {ui : ui_t}
    (hlog : ui.log_window = fun _ => none) (log : log_window_t) (i : ℕ) :
    (apply_layout m true o ui).log_window log = some i ↔ o.control i = true
      ∧ ∃ c, g_layout[i]? = some c ∧ c.log_window = some log := by
  have hbelow : LogsBelow o 0 ui := by
    intro log i
    rw [hlog]
    exact ⟨nofun, fun h => absurd h.1 (Nat.not_lt_zero i)⟩
  rw [apply_layout, apply_controls_log m g_layout 0 ui (fun j => by rw [Nat.zero_add]) hbelow log i]
  constructor
  · exact And.right
  · rintro ⟨hok, c, hc, hflag⟩
    have hi := (List.getElem?_eq_some_iff.mp hc).1
    exact ⟨by omega, hok, c, hc, hflag⟩

/-- Moving windows leaves which of them are the log windows. -/
theorem apply_controls_moved (m : layout_metrics_t) (o : outcome_t) (cs : List ctl_def_t) (k : ℕ)
    (ui : ui_t) : (apply_controls m false o k cs ui).log_window = ui.log_window := by
  induction cs generalizing k ui with
  | nil => rfl
  | cons c cs ih => exact ih (k + 1) (apply_control m false o k c ui)

/-! ## The whole window -/

/-- The "about" box, over controls and fonts that are settled. -/
theorem create_about_box_settled (dpi : ℕ) {built : outcome_t} (o : outcome_t)
    {heights : font_t → ℕ} {ui : ui_t} (hfonts : TwoFonts heights ui)
    (hcontrol : ∀ i, ui.g_ctl_hwnd i
      = if built.control i then (g_layout[i]?).map (made (compute_metrics dpi) ui) else none)
    (hlog : ∀ log i, ui.log_window log = some i ↔ built.control i = true
      ∧ ∃ c, g_layout[i]? = some c ∧ c.log_window = some log) :
    Settled dpi heights built o (create_about_box (compute_metrics dpi) o ui) := by
  refine ⟨?_, ?_, ?_, ?_⟩ <;> rw [create_about_box] <;> rcases hframe : o.frame
  · exact hfonts
  · exact hfonts
  · exact hcontrol
  · exact hcontrol
  · exact (if_neg (by rw [hframe]; exact Bool.false_ne_true)).symm
  · exact (if_pos hframe).symm
  · exact hlog
  · exact hlog

/-- The window is built for the DPI it is on. -/
theorem on_initialise_settled (dpi : ℕ) (o : outcome_t) {heights : font_t → ℕ} {ui : ui_t}
    (hfonts : TwoFonts heights ui) (hnone : ui.g_ctl_hwnd = fun _ => none)
    (hlog : ui.log_window = fun _ => none) :
    Settled dpi (new_heights dpi o heights) o o (on_initialise dpi o ui) := by
  obtain ⟨hwindows, hlogs⟩ := set_ui_fonts_windows dpi o ui
  apply create_about_box_settled
  · exact apply_layout_two _ true o (set_ui_fonts_two dpi o hfonts)
  · exact apply_layout_created _ o (hwindows.trans hnone)
  · exact apply_layout_log _ o (hlogs.trans hlog)

/-- A change of the DPI takes a window that is settled for one to the other. -/
theorem relayout_ui_settled {dpi : ℕ} (dpi' : ℕ) {built last : outcome_t} (o : outcome_t)
    {heights : font_t → ℕ} {ui : ui_t} (h : Settled dpi heights built last ui) :
    Settled dpi' (new_heights dpi' o heights) built o (relayout_ui dpi' o ui) := by
  obtain ⟨hwindows, hlogs⟩ := set_ui_fonts_windows dpi' o ui
  have hcontrol := apply_layout_moved (compute_metrics dpi') o
    (fun i => (congrFun hwindows i).trans (h.control i))
  have hfonts := apply_layout_two (compute_metrics dpi') false o (set_ui_fonts_two dpi' o h.fonts)
  have hlog := (apply_controls_moved (compute_metrics dpi') o g_layout 0
    (set_ui_fonts dpi' o ui)).trans hlogs
  rw [← apply_layout] at hlog
  rw [relayout_ui]
  -- what the two loops did is in the facts above
  generalize apply_layout (compute_metrics dpi') false o (set_ui_fonts dpi' o ui) = laid_out
    at hcontrol hfonts hlog ⊢
  apply create_about_box_settled
  · exact hfonts
  · exact hcontrol
  · intro log i
    show laid_out.log_window log = some i ↔ _
    rw [hlog]
    exact h.log log i

/-- The messages `WM_DPICHANGED` of a run, with what they can create. -/
def on_dpi_changes (changes : List (u32 × outcome_t)) (ui : ui_t) : ui_t :=
  changes.foldl (fun ui change => on_dpi_changed change.1 change.2 ui) ui

/-- The DPI of the last message, or else the first. -/
def last_dpi (dpi : ℕ) (changes : List (u32 × outcome_t)) : ℕ :=
  changes.foldl (fun _ change => HIWORD change.1) dpi

def last_outcome (o : outcome_t) (changes : List (u32 × outcome_t)) : outcome_t :=
  changes.foldl (fun _ change => change.2) o

/-- Each message brings the heights of its DPI, for the fonts that could be created. -/
def last_heights (heights : font_t → ℕ) (changes : List (u32 × outcome_t)) : font_t → ℕ :=
  changes.foldl (fun heights change => new_heights (HIWORD change.1) change.2 heights) heights

theorem on_dpi_changes_settled (changes : List (u32 × outcome_t)) {dpi : ℕ}
    {heights : font_t → ℕ} {built last : outcome_t} {ui : ui_t}
    (h : Settled dpi heights built last ui) :
    Settled (last_dpi dpi changes) (last_heights heights changes) built (last_outcome last changes)
      (on_dpi_changes changes ui) := by
  induction changes generalizing dpi heights last ui with
  | nil => exact h
  | cons change changes ih => exact ih (relayout_ui_settled (HIWORD change.1) change.2 h)

/-- A font that the last change could create has the height of the last DPI. -/
theorem last_heights_of_created (changes : List (u32 × outcome_t)) (dpi : ℕ) (o : outcome_t)
    (heights : font_t → ℕ) {font : font_t} (h : created (last_outcome o changes) font = true) :
    last_heights (new_heights dpi o heights) changes font
      = MulDiv (design_height font) (last_dpi dpi changes) 96 := by
  induction changes generalizing dpi o heights with
  | nil => exact if_pos h
  | cons change changes ih => exact ih (HIWORD change.1) change.2 (new_heights dpi o heights) h

end W32HttpServer.Layout

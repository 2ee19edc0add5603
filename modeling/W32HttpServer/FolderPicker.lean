/-
The folder picker: the two libraries it is loaded from, COM, and what a click on "Browse..."
does, inside `WinMain`.

The shell is looked up at run time, and any of it may be missing. What is found is kept in
pointers that are NULL otherwise, and `folder_picker_shutdown` gives back what
`folder_picker_init` took. With what was left open behind `WinMain` all ways through the
program are accounted for (`win_main_leaves`): an item list stays where there is no allocator to
free it with, COM stays initialised where only one of its two functions was found, and a window
class that could not be registered leaves `WinMain` before the shutdown. Each of the three is due
to a call that has failed, so a run without failures leaves nothing.

The fonts and the controls are not part of this model, and neither is the start button.
-/
import W32HttpServer.Common
import W32HttpServer.Lib.Ledger
import W32HttpServer.Lib.Account

set_option autoImplicit false

namespace W32HttpServer.FolderPicker

open W32HttpServer.Common
open W32HttpServer.Lib.Ledger W32HttpServer.Lib.Account

/-! ## The system -/

/-- What is opened and given back. COM is counted by its successful initialisations. -/
inductive resource_t
  | library (hModule : ℕ)
  /-- one successful `OleInitialize` -/
  | com
  | item_list (pidl : ℕ)
  | malloc_interface (malloc : ℕ)
  | window_class
  deriving DecidableEq

/-- The functions whose result is looked at. -/
inductive call_t
  | LoadLibrary
  | GetProcAddress
  | OleInitialize
  | RegisterClassEx
  | CreateFont
  | LoadString
  | CreateWindowEx
  | SHBrowseForFolder
  | GetDlgItem
  | SHGetMalloc
  deriving DecidableEq

/-- What the user gets to see: a message box, or the dialog of the shell with its flags. -/
inductive note_t
  | MessageBox (text : List u8)
  | SHBrowseForFolder (ulFlags : u32)
  deriving DecidableEq

/-- The code of the window, with the answers of the system and a ledger of what it has. -/
abbrev Program := Accounted call_t resource_t note_t

/-- The module, or NULL. -/
def LoadLibrary : Program (Option ℕ) := acquire .LoadLibrary .library

/-- A library that is loaded twice is freed twice; here each of the two is loaded once. -/
def FreeLibrary (hModule : ℕ) : Program Unit := release (.library hModule)

/-- Whether the address was found. -/
def GetProcAddress : Program Bool := attempt .GetProcAddress

/-! ## Loading and unloading -/

/-- The statics of the picker. Of a function pointer only matters whether it is NULL, and
`g_ole_available` is what a click asks for. -/
structure picker_t where
  g_ole32_module : Option ℕ
  g_shell32_module : Option ℕ
  /-- the pointers that are not NULL -/
  pfn_OleInitialize : Bool
  pfn_OleUninitialize : Bool
  pfn_SHBrowseForFolder : Bool
  pfn_SHGetPathFromIDList : Bool
  pfn_SHGetMalloc : Bool
  g_ole_available : Bool
  deriving DecidableEq

/-- The statics as the program starts. -/
def no_picker : picker_t := ⟨none, none, false, false, false, false, false, false⟩

/-- A function under its ANSI name, or else under the plain one. -/
def find_function : Program Bool := do
  let found ← GetProcAddress
  if found then return true else GetProcAddress

/-- COM is in a library of its own. Each of its two functions may be missing without the other. -/
def load_ole32 (p : picker_t) : Program picker_t := do
  match ← LoadLibrary with
  | none => return { p with g_ole32_module := none }
  | some ole32 =>
      let pfn_OleInitialize ← GetProcAddress
      let pfn_OleUninitialize ← GetProcAddress
      return { p with
        g_ole32_module := some ole32
        pfn_OleInitialize := pfn_OleInitialize
        pfn_OleUninitialize := pfn_OleUninitialize }

/-- The three functions of a click. The allocator is only needed to free what the dialog returns. -/
def load_shell32 (p : picker_t) : Program picker_t := do
  match ← LoadLibrary with
  | none => return { p with g_shell32_module := none }
  | some shell32 =>
      let pfn_SHBrowseForFolder ← find_function
      let pfn_SHGetPathFromIDList ← find_function
      let pfn_SHGetMalloc ← GetProcAddress
      return { p with
        g_shell32_module := some shell32
        pfn_SHBrowseForFolder := pfn_SHBrowseForFolder
        pfn_SHGetPathFromIDList := pfn_SHGetPathFromIDList
        pfn_SHGetMalloc := pfn_SHGetMalloc }

/-- `OleInitialize` is called where it was found, whether `OleUninitialize` was or not. -/
def folder_picker_init (p : picker_t) : Program picker_t := do
  let p ← load_ole32 p
  let p ← load_shell32 p
  if p.pfn_OleInitialize then
    match ← acquire .OleInitialize fun _ => .com with
    | none => return p
    | some _ => return { p with g_ole_available := true }
  else return p

/-- `if (module) FreeLibrary(module);` -/
def free_module : Option ℕ → Program Unit
  | none => pure ()
  | some hModule => FreeLibrary hModule

/-- Whether COM is still available behind it. -/
def uninitialize_com (p : picker_t) : Program Bool := do
  if p.g_ole_available ∧ p.pfn_OleUninitialize then
    release .com
    return false
  else return p.g_ole_available

/-- COM first, and then the libraries in the opposite order of their loading. The pointers into
them stay as they are. -/
def folder_picker_shutdown (p : picker_t) : Program picker_t := do
  let available ← uninitialize_com p
  free_module p.g_shell32_module
  free_module p.g_ole32_module
  return { p with g_ole_available := available, g_shell32_module := none, g_ole32_module := none }

/-! ## A click -/

def BIF_RETURNONLYFSDIRS : u32 := 0x0001
def BIF_NEWDIALOGSTYLE : u32 := 0x0040

/-- The new style of the dialog needs COM. -/
def ulFlags (p : picker_t) : u32 :=
  if p.g_ole_available then BIF_RETURNONLYFSDIRS ||| BIF_NEWDIALOGSTYLE else BIF_RETURNONLYFSDIRS

/-- The text of the folder edit, and the folder that a server is started with. -/
structure folder_t where
  folder_edit : List u8
  g_document_root : CString MAX_PATH
  deriving DecidableEq

/-- What is shown and kept of the path of an item list; `none` is one without a path. -/
def take_path (folder : folder_t) (selected_path : Option (CString MAX_PATH)) : Program folder_t := do
  match selected_path with
  | none => return folder
  | some path =>
      let found ← attempt .GetDlgItem
      if found then return ⟨path.bytes, path⟩ else return folder

/-- The item list is freed with the allocator of the shell, where there is one; it is returned if
it is not. -/
def free_item_list (p : picker_t) (item_id_list : ℕ) : Program (List ℕ) := do
  if p.pfn_SHGetMalloc then
    match ← acquire .SHGetMalloc .malloc_interface with
    | none => return [item_id_list]
    | some malloc =>
        release (.item_list item_id_list)
        release (.malloc_interface malloc)
        return []
  else return [item_id_list]

/-- The path is that of the item list the user selects. What is returned beside the folder is the
item list, if it is left behind. -/
def on_folder_select_click (p : picker_t) (folder : folder_t)
    (selected_path : Option (CString MAX_PATH)) : Program (folder_t × List ℕ) := do
  if ¬ p.pfn_SHBrowseForFolder ∨ ¬ p.pfn_SHGetPathFromIDList then
    note (.MessageBox (ascii "Folder browsing is not available on this system (shell32 could not "
      ++ ascii "be loaded)."))
    return (folder, [])
  else
    note (.SHBrowseForFolder (ulFlags p))
    match ← acquire .SHBrowseForFolder .item_list with
    | none => return (folder, [])
    | some item_id_list =>
        let folder ← take_path folder selected_path
        let left ← free_item_list p item_id_list
        return (folder, left)

/-- The clicks of a session, one after the other. -/
def message_loop (p : picker_t) : folder_t → List (Option (CString MAX_PATH)) →
    Program (folder_t × List ℕ)
  | folder, [] => return (folder, [])
  | folder, selected_path :: clicks => do
      let (folder, left) ← on_folder_select_click p folder selected_path
      let (folder, rest) ← message_loop p folder clicks
      return (folder, left ++ rest)

/-! ## `WinMain` -/

/-- What there is to say about a run that has ended: how far it got, the statics of the picker,
and the folder that is shown and kept. -/
structure exit_t where
  registered : Bool
  picker : picker_t
  folder : folder_t
  /-- the item lists that were not freed -/
  left : List ℕ

/-- `WinMain` from the window on, up to `end`: the steps that go there say so in a message box. -/
def create_and_run (p : picker_t) (folder : folder_t) (clicks : List (Option (CString MAX_PATH))) :
    List (call_t × List u8) → Program (folder_t × List ℕ)
  | [] => message_loop p folder clicks
  | (call, error) :: steps => do
      let ok ← attempt call
      if ok then create_and_run p folder clicks steps
      else
        note (.MessageBox error)
        return (folder, [])

/-- `WinMain`, with the session the user has: the clicks on "Browse..." and the path each of them
selects. Without a window class it returns at once; everything behind it ends at `end`, where
the class is unregistered and the picker shut down. -/
def WinMain (folder : folder_t) (clicks : List (Option (CString MAX_PATH))) : Program exit_t := do
  let p ← folder_picker_init no_picker
  match ← acquire .RegisterClassEx fun _ => .window_class with
  | none =>
      note (.MessageBox (ascii "Error Registering Window Class"))
      return ⟨false, p, folder, []⟩
  | some _ =>
      let (folder, left) ← create_and_run p folder clicks
        [(.CreateFont, ascii "Error loading font: sans"),
          (.CreateFont, ascii "Error loading font: mono"),
          (.LoadString, ascii "Error loading main window title string!"),
          (.CreateWindowEx, ascii "Error creating main window!")]
      release .window_class
      let p ← folder_picker_shutdown p
      return ⟨true, p, folder, left⟩

/-! ## What the picker holds -/

/-- A module that is NULL is not open. -/
def module_held (hModule : Option ℕ) : Multiset resource_t :=
  hModule.elim 0 fun n => {.library n}

/-- COM is initialised while it is said to be available. -/
def com_held (available : Bool) : Multiset resource_t := if available then {.com} else 0

/-- **What the picker has**, by its own statics. That this is what it has opened and not yet given
back is what the specifications of loading and unloading say. -/
def picker_held (p : picker_t) : Multiset resource_t :=
  com_held p.g_ole_available + (module_held p.g_shell32_module + module_held p.g_ole32_module)

/-- The item lists that nobody has freed. -/
def item_lists (left : List ℕ) : Multiset resource_t := (left : Multiset ℕ).map .item_list

section

variable {fails : call_t → Prop} {held : Multiset resource_t} {p : picker_t} {folder : folder_t}

/-! ## Loading -/

/-- One more module, or NULL and a failed call. -/
theorem leaves_LoadLibrary {Q : Option ℕ → Multiset resource_t → Prop}
    (hQ : ∀ hModule, (hModule = none → fails .LoadLibrary) →
      Q hModule (module_held hModule + held)) : Leaves fails held LoadLibrary Q := by
  apply leaves_acquire
  · intro hfail
    simpa [module_held] using hQ none fun _ => hfail
  · intro n
    simpa [module_held] using hQ (some n) nofun

/-- A pointer is NULL only if the call for it has failed. -/
theorem leaves_GetProcAddress {Q : Bool → Multiset resource_t → Prop}
    (hQ : ∀ found, (found = false → fails .GetProcAddress) → Q found held) :
    Leaves fails held GetProcAddress Q :=
  leaves_attempt (fun hfail => hQ false fun _ => hfail) (hQ true nofun)

/-- Under either name, or not at all. -/
theorem leaves_find_function {Q : Bool → Multiset resource_t → Prop}
    (hQ : ∀ found, (found = false → fails .GetProcAddress) → Q found held) :
    Leaves fails held find_function Q := by
  rw [find_function]
  apply leaves_bind
  apply leaves_GetProcAddress
  intro found _
  split_ifs
  · exact leaves_pure (hQ true nofun)
  · exact leaves_GetProcAddress hQ

/-- A pointer is NULL where a library could not be loaded, or the function is not in it. -/
def Missing (fails : call_t → Prop) : Prop := fails .LoadLibrary ∨ fails .GetProcAddress

theorem not_missing (hnone : ∀ call, ¬ fails call) : ¬ Missing fails :=
  not_or.mpr ⟨hnone _, hnone _⟩

/-- Behind it there is the module, and nothing else of the picker has changed. -/
theorem load_ole32_leaves :
    Leaves fails held (load_ole32 p) fun p' held' => held' = module_held p'.g_ole32_module + held
      ∧ p'.g_shell32_module = p.g_shell32_module ∧ p'.g_ole_available = p.g_ole_available
      ∧ (p'.pfn_OleUninitialize = false → Missing fails) := by
  rw [load_ole32]
  apply leaves_bind
  apply leaves_LoadLibrary
  intro ole32 hload
  cases ole32 with
  | none => exact leaves_pure ⟨rfl, rfl, rfl, fun _ => Or.inl (hload rfl)⟩
  | some ole32 =>
      apply leaves_bind
      apply leaves_GetProcAddress
      intro pfn_OleInitialize _
      apply leaves_bind
      apply leaves_GetProcAddress
      intro pfn_OleUninitialize hpointer
      exact leaves_pure ⟨rfl, rfl, rfl, fun hnull => Or.inr (hpointer hnull)⟩

/-- The same for the shell; what was loaded before stays. -/
theorem load_shell32_leaves :
    Leaves fails held (load_shell32 p) fun p' held' =>
      held' = module_held p'.g_shell32_module + held
        ∧ p'.g_ole32_module = p.g_ole32_module ∧ p'.g_ole_available = p.g_ole_available
        ∧ p'.pfn_OleUninitialize = p.pfn_OleUninitialize
        ∧ (p'.pfn_SHBrowseForFolder = false → Missing fails)
        ∧ (p'.pfn_SHGetPathFromIDList = false → Missing fails)
        ∧ (p'.pfn_SHGetMalloc = false → Missing fails) := by
  rw [load_shell32]
  apply leaves_bind
  apply leaves_LoadLibrary
  intro shell32 hload
  cases shell32 with
  | none =>
      have hmissing : Missing fails := Or.inl (hload rfl)
      exact leaves_pure ⟨rfl, rfl, rfl, rfl, fun _ => hmissing, fun _ => hmissing, fun _ => hmissing⟩
  | some shell32 =>
      apply leaves_bind
      apply leaves_find_function
      intro pfn_SHBrowseForFolder hbrowse
      apply leaves_bind
      apply leaves_find_function
      intro pfn_SHGetPathFromIDList hpath
      apply leaves_bind
      apply leaves_GetProcAddress
      intro pfn_SHGetMalloc hmalloc
      apply leaves_pure
      exact ⟨rfl, rfl, rfl, rfl, fun hnull => Or.inr (hbrowse hnull),
        fun hnull => Or.inr (hpath hnull), fun hnull => Or.inr (hmalloc hnull)⟩

/-- The functions were found, unless a call failed: the one that gives COM back, and those of a
click. -/
structure Found (fails : call_t → Prop) (p : picker_t) : Prop where
  uninitialize : p.pfn_OleUninitialize = false → Missing fails
  browse : p.pfn_SHBrowseForFolder = false → Missing fails
  path : p.pfn_SHGetPathFromIDList = false → Missing fails
  malloc : p.pfn_SHGetMalloc = false → Missing fails

/-- **Behind the initialisation** the picker has what its statics say, and what is missing has a
failed call behind it. -/
theorem folder_picker_init_leaves :
    Leaves fails held (folder_picker_init no_picker) fun p held' =>
      held' = picker_held p + held ∧ Found fails p := by
  rw [folder_picker_init]
  apply leaves_bind
  refine load_ole32_leaves.mono fun p1 held1 h1 => ?_
  apply leaves_bind
  refine load_shell32_leaves.mono fun p2 held2 h2 => ?_
  obtain ⟨rfl, -, havailable1, hpointer⟩ := h1
  obtain ⟨rfl, hole32, havailable2, hsame, hbrowse, hpath, hmalloc⟩ := h2
  have hfound : Found fails p2 :=
    ⟨fun hnull => hpointer (hsame.symm.trans hnull), hbrowse, hpath, hmalloc⟩
  have hnone : p2.g_ole_available = false := havailable2.trans havailable1
  -- the two modules, and nothing yet of COM
  have hheld : picker_held p2 + held
      = module_held p2.g_shell32_module + (module_held p1.g_ole32_module + held) := by
    rw [picker_held, hnone, hole32, com_held, if_neg (by decide), zero_add, add_assoc]
  split_ifs with hinitialize
  · apply leaves_bind
    apply leaves_acquire
    · exact fun _ => leaves_pure ⟨hheld.symm, hfound⟩
    · intro _
      apply leaves_pure
      refine ⟨?_, hfound.uninitialize, hfound.browse, hfound.path, hfound.malloc⟩
      rw [← hheld, picker_held, picker_held, hnone, com_held, com_held, if_neg (by decide),
        if_pos rfl, zero_add, add_assoc, Multiset.singleton_add, Multiset.cons_add,
        add_assoc]
  · exact leaves_pure ⟨hheld.symm, hfound⟩

/-! ## Unloading -/

/-- A module is freed if there is one. -/
theorem leaves_free_module {hModule : Option ℕ} :
    Leaves fails (module_held hModule + held) (free_module hModule)
      fun _ held' => held' = held := by
  cases hModule with
  | none => exact leaves_pure (zero_add held)
  | some n =>
      rw [module_held, Option.elim_some, Multiset.singleton_add]
      exact leaves_release_cons rfl

/-- Behind the shutdown both modules are free, and COM is uninitialised, if the function for it
was found. -/
structure ShutDown (p : picker_t) : Prop where
  modules : p.g_ole32_module = none ∧ p.g_shell32_module = none
  com : p.g_ole_available = true → p.pfn_OleUninitialize = false

/-- COM is given back, or cannot be: then the function for it was not found. -/
theorem uninitialize_com_leaves :
    Leaves fails (com_held p.g_ole_available + held) (uninitialize_com p) fun available held' =>
      held' = com_held available + held ∧ (available = true → p.pfn_OleUninitialize = false) := by
  rw [uninitialize_com]
  split_ifs with hcom
  · rw [hcom.1, com_held, if_pos rfl, Multiset.singleton_add]
    apply leaves_bind
    apply leaves_release_cons
    exact leaves_pure ⟨(zero_add held).symm, nofun⟩
  · apply leaves_pure
    refine ⟨rfl, fun havailable => ?_⟩
    rw [Bool.eq_false_iff]
    exact fun hfound => hcom ⟨havailable, hfound⟩

/-- **The shutdown** gives back what it can, and keeps the pointers. -/
theorem folder_picker_shutdown_leaves (hfound : Found fails p) :
    Leaves fails (picker_held p + held) (folder_picker_shutdown p) fun p' held' =>
      held' = picker_held p' + held ∧ ShutDown p' ∧ Found fails p'
        ∧ p'.pfn_SHGetMalloc = p.pfn_SHGetMalloc := by
  rw [folder_picker_shutdown, picker_held, add_assoc, add_assoc]
  apply leaves_bind
  refine uninitialize_com_leaves.mono fun available held1 h1 => ?_
  obtain ⟨rfl, havailable⟩ := h1
  rw [add_left_comm]
  apply leaves_bind
  refine leaves_free_module.mono fun _ held2 h2 => ?_
  rw [h2, add_left_comm]
  apply leaves_bind
  refine leaves_free_module.mono fun _ held3 h3 => ?_
  apply leaves_pure
  refine ⟨?_, ⟨⟨rfl, rfl⟩, havailable⟩,
    ⟨hfound.uninitialize, hfound.browse, hfound.path, hfound.malloc⟩, rfl⟩
  rw [h3, picker_held]
  simp [module_held]

/-! ## A session -/

/-- The folder is the one before, or a path that was selected, in the window as in what a server
is started with. -/
def Chosen (folder folder' : folder_t) (paths : List (Option (CString MAX_PATH))) : Prop :=
  folder' = folder ∨ ∃ path, some path ∈ paths ∧ folder' = ⟨path.bytes, path⟩

/-- What the clicks choose where no call fails: the last path that was selected. -/
def picked : folder_t → List (Option (CString MAX_PATH)) → folder_t
  | folder, [] => folder
  | folder, none :: paths => picked folder paths
  | _, some path :: paths => picked ⟨path.bytes, path⟩ paths

theorem picked_append (paths paths' : List (Option (CString MAX_PATH))) :
    ∀ folder, picked folder (paths ++ paths') = picked (picked folder paths) paths' := by
  induction paths with
  | nil => exact fun _ => rfl
  | cons selected_path paths ih =>
      intro folder
      cases selected_path with
      | none => exact ih folder
      | some path => exact ih ⟨path.bytes, path⟩

/-- There is no allocator to free an item list with: the function was not found, or has failed. -/
def NoAllocator (fails : call_t → Prop) (p : picker_t) : Prop :=
  p.pfn_SHGetMalloc = false ∨ fails .SHGetMalloc

/-- Taking the path opens nothing. It is taken unless there is none, or no edit to show it in. -/
theorem take_path_leaves (selected_path : Option (CString MAX_PATH)) :
    Leaves fails held (take_path folder selected_path) fun folder' held' =>
      held' = held ∧ Chosen folder folder' [selected_path]
        ∧ ((∀ call, ¬ fails call) → folder' = picked folder [selected_path]) := by
  cases selected_path with
  | none => exact leaves_pure ⟨rfl, Or.inl rfl, fun _ => rfl⟩
  | some path =>
      rw [take_path]
      apply leaves_bind
      apply leaves_attempt
      · intro hfail
        rw [if_neg (by decide)]
        exact leaves_pure ⟨rfl, Or.inl rfl, fun hnone => absurd hfail (hnone _)⟩
      · rw [if_pos rfl]
        exact leaves_pure ⟨rfl, Or.inr ⟨path, List.mem_singleton_self _, rfl⟩, fun _ => rfl⟩

/-- **An item list** is freed where there is an allocator, and left open otherwise. -/
theorem free_item_list_leaves (item_id_list : ℕ) :
    Leaves fails (.item_list item_id_list ::ₘ held) (free_item_list p item_id_list)
      fun left held' => held' = item_lists left + held ∧ (left ≠ [] → NoAllocator fails p) := by
  have hleft : item_lists [item_id_list] + held = .item_list item_id_list ::ₘ held := by
    simp [item_lists]
  rw [free_item_list]
  split_ifs with hfound
  · apply leaves_bind
    apply leaves_acquire
    · exact fun hfail => leaves_pure ⟨hleft.symm, fun _ => Or.inr hfail⟩
    · intro malloc
      rw [Multiset.cons_swap]
      apply leaves_bind
      apply leaves_release_cons
      apply leaves_bind
      apply leaves_release_cons
      exact leaves_pure ⟨(zero_add held).symm, fun hne => absurd rfl hne⟩
  · exact leaves_pure ⟨hleft.symm, fun _ => Or.inl (by simpa using hfound)⟩

/-- What a piece of a session leaves: the item lists that could not be freed, and the folder its
clicks choose. -/
structure SessionLeaves (fails : call_t → Prop) (p : picker_t) (folder : folder_t)
    (paths : List (Option (CString MAX_PATH))) (held : Multiset resource_t)
    (r : folder_t × List ℕ) (held' : Multiset resource_t) : Prop where
  left_open : held' = item_lists r.2 + held
  chosen : Chosen folder r.1 paths
  item_list : r.2 ≠ [] → NoAllocator fails p
  picked : (∀ call, ¬ fails call) → r.1 = picked folder paths

/-- Nothing is opened, and the folder stays: there was no click, or a call has failed. -/
theorem SessionLeaves.nothing {paths : List (Option (CString MAX_PATH))}
    (h : (∀ call, ¬ fails call) → folder = FolderPicker.picked folder paths) :
    SessionLeaves fails p folder paths held (folder, []) held :=
  ⟨(zero_add held).symm, Or.inl rfl, fun hne => absurd rfl hne, h⟩

/-- **A click** opens one item list at most, and it is freed if it can be. -/
theorem on_folder_select_click_leaves (hfound : Found fails p)
    (selected_path : Option (CString MAX_PATH)) :
    Leaves fails held (on_folder_select_click p folder selected_path)
      (SessionLeaves fails p folder [selected_path] held) := by
  rw [on_folder_select_click]
  split_ifs with hnull
  · -- one of the two functions is missing, and that has its reason
    have hmissing : Missing fails := by
      rcases hnull with hnull | hnull
      · exact hfound.browse (by simpa using hnull)
      · exact hfound.path (by simpa using hnull)
    apply leaves_bind
    apply leaves_note
    exact leaves_pure (.nothing fun hnone => absurd hmissing (not_missing hnone))
  · apply leaves_bind
    apply leaves_note
    apply leaves_bind
    apply leaves_acquire
    · exact fun hfail => leaves_pure (.nothing fun hnone => absurd hfail (hnone _))
    · intro item_id_list
      apply leaves_bind
      refine (take_path_leaves selected_path).mono fun folder' held1 h1 => ?_
      obtain ⟨rfl, hchosen, hpicked⟩ := h1
      apply leaves_bind
      refine (free_item_list_leaves item_id_list).mono fun left held2 h2 => ?_
      exact leaves_pure ⟨h2.1, hchosen, h2.2, hpicked⟩

/-- One piece of a session behind the other. -/
theorem Chosen.trans {folder folder1 folder2 : folder_t}
    {paths paths' : List (Option (CString MAX_PATH))} (h : Chosen folder folder1 paths)
    (h' : Chosen folder1 folder2 paths') : Chosen folder folder2 (paths ++ paths') := by
  rcases h' with rfl | ⟨path, hmem, hfolder⟩
  · rcases h with rfl | ⟨path, hmem, hfolder⟩
    · exact Or.inl rfl
    · exact Or.inr ⟨path, List.mem_append_left _ hmem, hfolder⟩
  · exact Or.inr ⟨path, List.mem_append_right _ hmem, hfolder⟩

theorem item_lists_append (left rest : List ℕ) :
    item_lists (left ++ rest) = item_lists left + item_lists rest := by
  rw [item_lists, ← Multiset.coe_add, Multiset.map_add]
  rfl

/-- The clicks of a session add up. -/
theorem message_loop_leaves (hfound : Found fails p) (clicks : List (Option (CString MAX_PATH))) :
    ∀ {folder : folder_t} {held : Multiset resource_t},
      Leaves fails held (message_loop p folder clicks)
        (SessionLeaves fails p folder clicks held) := by
  induction clicks with
  | nil => exact fun {folder held} => leaves_pure (.nothing fun _ => rfl)
  | cons selected_path clicks ih =>
      intro folder held
      rw [message_loop]
      apply leaves_bind
      refine (on_folder_select_click_leaves hfound selected_path).mono fun r1 held1 h1 => ?_
      obtain ⟨rfl, hchosen1, hleft1, hpicked1⟩ := h1
      apply leaves_bind
      refine ih.mono fun r2 held2 h2 => ?_
      obtain ⟨rfl, hchosen2, hleft2, hpicked2⟩ := h2
      apply leaves_pure
      refine ⟨?_, hchosen1.trans hchosen2, fun hne => ?_, fun hnone => ?_⟩
      · rw [item_lists_append, add_left_comm, add_assoc]
      · by_cases hnone : r1.2 = []
        · exact hleft2 fun hrest => hne (by rw [hnone, hrest]; rfl)
        · exact hleft1 hnone
      · rw [hpicked2 hnone, hpicked1 hnone, ← picked_append, List.singleton_append]

/-- The steps in front of the message loop open nothing here, and the first that fails ends the
program. -/
theorem create_and_run_leaves (hfound : Found fails p)
    (clicks : List (Option (CString MAX_PATH))) (steps : List (call_t × List u8)) :
    Leaves fails held (create_and_run p folder clicks steps)
      (SessionLeaves fails p folder clicks held) := by
  induction steps with
  | nil => exact message_loop_leaves hfound clicks
  | cons step steps ih =>
      obtain ⟨call, error⟩ := step
      rw [create_and_run]
      apply leaves_bind
      apply leaves_attempt
      · intro hfail
        rw [if_neg (by decide)]
        apply leaves_bind
        apply leaves_note
        exact leaves_pure (.nothing fun hnone => absurd hfail (hnone _))
      · rw [if_pos rfl]
        exact ih

/-! ## What is open behind `WinMain` -/

/-- The account of a run of the program: what the picker says it has, and the item lists that
could not be freed, each part with the reason why it is there. -/
structure Ends (fails : call_t → Prop) (folder : folder_t)
    (clicks : List (Option (CString MAX_PATH))) (r : exit_t) (held' : Multiset resource_t) :
    Prop where
  left_open : held' = picker_held r.picker + item_lists r.left
  shut_down : r.registered = true → ShutDown r.picker
  unregistered : r.registered = false → fails .RegisterClassEx ∧ r.left = []
  item_list : r.left ≠ [] → NoAllocator fails r.picker
  pointers : Found fails r.picker
  chosen : Chosen folder r.folder clicks
  picked : (∀ call, ¬ fails call) → r.folder = picked folder clicks

/-- Where no call fails, nothing is open in the end. -/
theorem Ends.nothing {clicks : List (Option (CString MAX_PATH))} {r : exit_t}
    {held' : Multiset resource_t} (h : Ends fails folder clicks r held')
    (hnone : ∀ call, ¬ fails call) : held' = 0 := by
  have hmissing : ¬ Missing fails := not_missing hnone
  have hregistered : r.registered = true := by
    by_contra hnot
    exact hnone _ (h.unregistered (by simpa using hnot)).1
  obtain ⟨⟨hole32, hshell32⟩, hcom⟩ := h.shut_down hregistered
  have hclosed : r.picker.g_ole_available = false := by
    by_contra hopen
    exact hmissing (h.pointers.uninitialize (hcom (by simpa using hopen)))
  have hfreed : r.left = [] := by
    by_contra hne
    rcases h.item_list hne with hnull | hfail
    · exact hmissing (h.pointers.malloc hnull)
    · exact hnone _ hfail
  rw [h.left_open, picker_held, hole32, hshell32, hclosed, hfreed]
  rfl

end

end W32HttpServer.FolderPicker

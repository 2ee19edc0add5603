/-
A concrete file system: an immutable tree and a table of open handles.

`FileSystem` is an interface with laws, and this is an implementation of it that runs: the
tests and witnesses of the development execute the server on a disk. A handle is an index
into the table. An open file is its data and a position, an open search what it has not
yielded yet. Closing a handle leaves its slot in the table, so a handle is never reused.
-/
import Mathlib.Data.List.GetD
import W32HttpServer.Common
import W32HttpServer.Platform

set_option autoImplicit false

namespace W32HttpServer.Disk

open W32HttpServer.Common W32HttpServer.Platform

/-! ## The tree and the handles -/

/-- A file is its bytes, and a directory the entries a search of it goes through. The entries are
not derived from the tree: `.` and `..`, the sizes and the order are as the tree says. -/
inductive node_t
  | file (data : List u8)
  | directory (entries : List WIN32_FIND_DATA)
  deriving DecidableEq

/-- What a handle is open on. -/
inductive open_t
  | file (data : List u8) (pos : ℕ)
  | search (rest : List WIN32_FIND_DATA)
  | closed
  deriving DecidableEq

/-- The tree, flat: what is under each full path. -/
abbrev tree_t := List (List u8 × node_t)

/-- The table of open handles, which is all the state there is. -/
abbrev handles_t := List open_t

/-- 0x80 is `FILE_ATTRIBUTE_NORMAL`. -/
def attributes_of : Option node_t → u32
  | none => INVALID_FILE_ATTRIBUTES
  | some (.file _) => 0x80
  | some (.directory _) => FILE_ATTRIBUTE_DIRECTORY

/-- The directory a search pattern ending in `\*` names. -/
def pattern_directory (pattern : List u8) : List u8 := pattern.take (pattern.length - 2)

/-- A handle that was never handed out is like one that was closed. -/
def opened (s : handles_t) : HANDLE → open_t
  | .of h => s.getD h .closed
  | _ => .closed

/-- What a handle is open on from here on. -/
def update (s : handles_t) (h : HANDLE) (o : open_t) : handles_t :=
  match h with
  | .of h => s.set h o
  | _ => s

/-- The first entry is handed out at once, and a new handle takes the others. A directory without
entries is not found at all. -/
def find_first (tree : tree_t) (s : handles_t) (pattern : List u8) :
    Option (ℕ × WIN32_FIND_DATA) × handles_t :=
  match tree.lookup (pattern_directory pattern) with
  | some (.directory (e :: es)) => (some (s.length, e), s ++ [.search es])
  | _ => (none, s)

/-- The next entry, from what the search has not yielded yet. -/
def find_next (s : handles_t) (h : HANDLE) : Option WIN32_FIND_DATA × handles_t :=
  match opened s h with
  | .search (e :: es) => (some e, update s h (.search es))
  | _ => (none, s)

/-- A file is opened at its beginning, under a handle that has not been used before. Opening a
directory fails. -/
def create_file (tree : tree_t) (s : handles_t) (path : List u8) : Option ℕ × handles_t :=
  match tree.lookup path with
  | some (.file data) => (some s.length, s ++ [.file data 0])
  | _ => (none, s)

/-- The low half of the size, as `GetFileSize` returns it. -/
def file_size (s : handles_t) (h : HANDLE) : u32 :=
  match opened s h with
  | .file data _ => UInt32.ofNat data.length
  | _ => INVALID_FILE_SIZE

/-- As many bytes as asked for, or all there are, and the file pointer moves behind them. Behind
the end nothing is read, and that is no failure. -/
def read_file (s : handles_t) (h : HANDLE) (n : ℕ) : Option (List u8) × handles_t :=
  match opened s h with
  | .file data pos =>
      (some ((data.drop pos).take n), update s h (.file data (min (pos + n) data.length)))
  | _ => (none, s)

def set_position (s : handles_t) (h : HANDLE) (pos : ℕ) : handles_t :=
  match opened s h with
  | .file data _ => update s h (.file data pos)
  | _ => s

/-- How many entries a search has still to yield: what goes down with every entry. -/
def entries_left (s : handles_t) (h : HANDLE) : ℕ :=
  match opened s h with
  | .search es => es.length
  | _ => 0

/-! ## The laws -/

/-- A handle that is open can be updated, and then it is open on that. -/
theorem opened_update {s : handles_t} {h : HANDLE} {o : open_t} (hs : opened s h ≠ .closed) :
    opened (update s h o) h = o := by
  cases h with
  | of n =>
      have hn : n < s.length := by
        by_contra hge
        exact hs (by rw [opened, List.getD_eq_default _ _ (by omega)])
      rw [update, opened, List.getD_eq_getElem _ _ (by simpa using hn), List.getElem_set_self]
  | INVALID_HANDLE_VALUE => exact absurd rfl hs
  | NULL => exact absurd rfl hs

/-- A search that has an entry left yields it. -/
theorem find_next_of_search {s : handles_t} {h : HANDLE} {e : WIN32_FIND_DATA}
    {es : List WIN32_FIND_DATA} (hs : opened s h = .search (e :: es)) :
    find_next s h = (some e, update s h (.search es)) := by
  rw [find_next, hs]

/-- Only an open search yields entries. -/
theorem find_next_eq_some {s : handles_t} {h : HANDLE} {e : WIN32_FIND_DATA}
    (hsome : (find_next s h).1 = some e) : ∃ es, opened s h = .search (e :: es) := by
  unfold find_next at hsome
  split at hsome
  · next e' es hs =>
      rw [Option.some.injEq] at hsome
      exact ⟨es, by rw [hs, hsome]⟩
  · exact absurd hsome (by simp)

/-- **The file system of a tree.** The two laws of the interface hold here because a read takes from
what is there, and because an entry that was yielded is gone from the search. -/
def disk (tree : tree_t) : FileSystem handles_t where
  GetFileAttributes s path := (attributes_of (tree.lookup path), s)
  FindFirstFile := find_first tree
  FindNextFile := find_next
  FindClose s h := update s h .closed
  CreateFile := create_file tree
  GetFileSize s h := (file_size s h, s)
  ReadFile := read_file
  SetFilePointer := set_position
  CloseHandle s h := update s h .closed
  read_le := by
    intro s h n d hd
    unfold read_file at hd
    split at hd
    · rw [Option.some.injEq] at hd
      rw [← hd, List.length_take]
      omega
    · exact absurd hd (by simp)
  entries_left := entries_left
  find_next_lt := by
    intro s h e he
    obtain ⟨es, hs⟩ := find_next_eq_some he
    have hopen : opened (update s h (.search es)) h = .search es :=
      opened_update (by rw [hs]; simp)
    simp only [find_next_of_search hs, entries_left, hopen, hs, List.length_cons]
    omega

/-! ## Searching -/

/-- An open search yields what is left of its directory. -/
theorem enumerates_of_search (tree : tree_t) (h : HANDLE) (es : List WIN32_FIND_DATA) :
    ∀ s : handles_t, opened s h = .search es → Enumerates (disk tree) s h es := by
  induction es with
  | nil =>
      intro s hs
      exact .done (by simp only [disk, find_next, hs])
  | cons e es ih =>
      intro s hs
      have hnext : (disk tree).FindNextFile s h = (some e, update s h (.search es)) :=
        find_next_of_search hs
      refine .next (by rw [hnext]) ?_
      rw [hnext]
      exact ih _ (opened_update (by rw [hs]; simp))

/-- **A search of a directory of the tree finds its entries**, all of them and in order. The first
is found by `FindFirstFile`, and the others from the handle it returns; an empty directory is the
search that fails. -/
theorem lists_of_lookup {tree : tree_t} (dir : List u8) {es : List WIN32_FIND_DATA}
    (hdir : tree.lookup dir = some (.directory es)) (s : handles_t) :
    Lists (disk tree) s (dir ++ ascii "\\*") es := by
  have hpattern : pattern_directory (dir ++ ascii "\\*") = dir := by
    have htwo : (ascii "\\*").length = 2 := by decide
    rw [pattern_directory, List.length_append, htwo, Nat.add_sub_cancel, List.take_left']
    rfl
  cases es with
  | nil =>
      exact .failed (by simp only [disk, find_first, hpattern, hdir])
  | cons e es =>
      have hfirst : (disk tree).FindFirstFile s (dir ++ ascii "\\*")
          = (some (s.length, e), s ++ [.search es]) := by
        simp only [disk, find_first, hpattern, hdir]
      refine .found (by rw [hfirst]) ?_
      rw [hfirst]
      apply enumerates_of_search tree _ es _
      rw [opened, List.getD_eq_getElem _ _ (by simp), List.getElem_append_right (le_refl _)]
      simp

/-! ## Reading -/

/-- The handle is open on the data, with so many bytes of it behind the file pointer. -/
def At (h : HANDLE) (data : List u8) (s : handles_t) (pos : ℕ) : Prop :=
  opened s h = .file data pos ∧ pos ≤ data.length

/-- An open file is read from where its pointer stands. -/
theorem readsFile (tree : tree_t) (h : HANDLE) (data : List u8) :
    ReadsFile (disk tree) h data (At h data) where
  size := by
    rintro s pos ⟨hs, hpos⟩
    refine ⟨?_, hs, hpos⟩
    show file_size s h = _
    rw [file_size, hs]
  read := by
    rintro s pos n ⟨hs, hpos⟩ hn
    have hread : read_file s h n = (some ((data.drop pos).take n),
        update s h (.file data (min (pos + n) data.length))) := by
      rw [read_file, hs]
    refine ⟨(data.drop pos).take n, congrArg Prod.fst hread, List.take_prefix _ _, ?_, ?_⟩
    · intro hlt hnil
      have hlen := congrArg List.length hnil
      rw [List.length_take, List.length_drop, List.length_nil] at hlen
      omega
    · show At h data (read_file s h n).2 _
      have hmin : pos + ((data.drop pos).take n).length = min (pos + n) data.length := by
        rw [List.length_take, List.length_drop]
        omega
      rw [hread, hmin]
      exact ⟨opened_update (by rw [hs]; simp), by omega⟩
  rewind := by
    rintro s pos ⟨hs, -⟩
    have hset : set_position s h 0 = update s h (.file data 0) := by
      rw [set_position, hs]
    show At h data (set_position s h 0) 0
    rw [hset]
    exact ⟨opened_update (by rw [hs]; simp), Nat.zero_le _⟩

/-- **A file of the tree is stored**: whatever else is open, a handle on it stands at the beginning,
and from there on it is read as `readsFile` says. -/
theorem stores_of_lookup {tree : tree_t} {path data : List u8}
    (hfile : tree.lookup path = some (.file data)) : Stores (disk tree) path data := by
  intro s h s1 hopen
  have hcreate : create_file tree s path = (some s.length, s ++ [.file data 0]) := by
    rw [create_file, hfile]
  have hboth : (some s.length, s ++ [open_t.file data 0]) = (some h, s1) := hcreate.symm.trans hopen
  obtain ⟨hh, rfl⟩ := Prod.mk.inj hboth
  obtain rfl := Option.some.inj hh
  refine ⟨At (.of s.length) data, readsFile tree _ data, ?_, Nat.zero_le _⟩
  rw [opened, List.getD_eq_getElem _ _ (by simp), List.getElem_append_right (le_refl _)]
  simp

end W32HttpServer.Disk

/-
The calls into Windows the server makes, as an interface.

The file system and the network are each an arbitrary state machine: a call takes the
state it is in and returns its result and the next state. So a statement for every
`FileSystem` covers every outcome of every call, and one that depends on what was
called before; what a call did can be observed by running the same code over an instance
that keeps a record (`Sockets.recorded`).

A structure carries what the documentation of the calls promises and the code relies on:
`ReadFile` and `send` never report more bytes than they were given room for, and an
enumeration ends.
-/
import W32HttpServer.Common

set_option autoImplicit false

namespace W32HttpServer.Platform

open W32HttpServer.Common

/-! ## Handles -/

inductive HANDLE
  | INVALID_HANDLE_VALUE
  | NULL
  | of (n : ℕ)
  deriving DecidableEq

inductive SOCKET
  | INVALID_SOCKET
  | of (n : ℕ)
  deriving DecidableEq

/-- The handle a call returns: `INVALID_HANDLE_VALUE` on failure. -/
def HANDLE.ofOption : Option ℕ → HANDLE
  | some n => .of n
  | none => .INVALID_HANDLE_VALUE

/-! ## The file system -/

def INVALID_FILE_ATTRIBUTES : u32 := 0xFFFFFFFF
def FILE_ATTRIBUTE_DIRECTORY : u32 := 0x10
def INVALID_FILE_SIZE : u32 := 0xFFFFFFFF

/-- The fields of a directory entry that the listing reads. -/
structure WIN32_FIND_DATA where
  dwFileAttributes : u32
  nFileSizeLow : u32
  cFileName : CString MAX_PATH
  deriving DecidableEq

structure FileSystem (σ : Type) where
  GetFileAttributes : σ → List u8 → u32 × σ
  /-- The search handle and the first entry, unless the call fails. -/
  FindFirstFile : σ → List u8 → Option (ℕ × WIN32_FIND_DATA) × σ
  /-- The next entry, unless the call returns `FALSE`. -/
  FindNextFile : σ → HANDLE → Option WIN32_FIND_DATA × σ
  FindClose : σ → HANDLE → σ
  CreateFile : σ → List u8 → Option ℕ × σ
  GetFileSize : σ → HANDLE → u32 × σ
  /-- The bytes read, at most as many as asked for, unless the call fails. -/
  ReadFile : σ → HANDLE → ℕ → Option (List u8) × σ
  /-- `SetFilePointer(h, pos, NULL, FILE_BEGIN)`. -/
  SetFilePointer : σ → HANDLE → ℕ → σ
  CloseHandle : σ → HANDLE → σ
  read_le : ∀ {s : σ} {h : HANDLE} {n : ℕ} {d : List u8},
    (ReadFile s h n).1 = some d → d.length ≤ n
  /-- How many entries an enumeration still has. -/
  entries_left : σ → HANDLE → ℕ
  find_next_lt : ∀ {s : σ} {h : HANDLE} {e : WIN32_FIND_DATA},
    (FindNextFile s h).1 = some e →
      entries_left (FindNextFile s h).2 h < entries_left s h

/-! ## What a directory holds -/

section

variable {σ : Type}

/-- From state `s` on, the search handle `h` still yields `es` and then ends. -/
inductive Enumerates (fs : FileSystem σ) : σ → HANDLE → List WIN32_FIND_DATA → Prop
  | done {s : σ} {h : HANDLE} (hnone : (fs.FindNextFile s h).1 = none) : Enumerates fs s h []
  | next {s : σ} {h : HANDLE} {e : WIN32_FIND_DATA} {es : List WIN32_FIND_DATA}
      (hsome : (fs.FindNextFile s h).1 = some e)
      (rest : Enumerates fs (fs.FindNextFile s h).2 h es) : Enumerates fs s h (e :: es)

/-- The entries a search for `pattern` finds; none if `FindFirstFile` fails. -/
inductive Lists (fs : FileSystem σ) (s : σ) (pattern : List u8) : List WIN32_FIND_DATA → Prop
  | failed (hnone : (fs.FindFirstFile s pattern).1 = none) : Lists fs s pattern []
  | found {h : ℕ} {e : WIN32_FIND_DATA} {es : List WIN32_FIND_DATA}
      (hsome : (fs.FindFirstFile s pattern).1 = some (h, e))
      (rest : Enumerates fs (fs.FindFirstFile s pattern).2 (.of h) es) :
      Lists fs s pattern (e :: es)

/-! ## What a file holds -/

/-- Through the handle a file of `content` is read: `At s pos` says that in state `s` the next
byte read is the one at `pos`. A read delivers as much as it likes of what it was asked for,
but something while there is anything; the size is the low word of the length. -/
structure ReadsFile (fs : FileSystem σ) (h : HANDLE) (content : List u8) (At : σ → ℕ → Prop) :
    Prop where
  size : ∀ {s : σ} {pos : ℕ}, At s pos →
    (fs.GetFileSize s h).1 = UInt32.ofNat content.length ∧ At (fs.GetFileSize s h).2 pos
  read : ∀ {s : σ} {pos n : ℕ}, At s pos → 1 ≤ n → ∃ d, (fs.ReadFile s h n).1 = some d
    ∧ d <+: content.drop pos ∧ (pos < content.length → d ≠ [])
    ∧ At (fs.ReadFile s h n).2 (pos + d.length)
  rewind : ∀ {s : σ} {pos : ℕ}, At s pos → At (fs.SetFilePointer s h 0) 0

/-- Whenever the file can be opened, it is read from its beginning. -/
def Stores (fs : FileSystem σ) (path content : List u8) : Prop :=
  ∀ (s : σ) (h : ℕ) (s1 : σ), fs.CreateFile s path = (some h, s1) →
    ∃ At, ReadsFile fs (.of h) content At ∧ At s1 0

end

/-! ## The network -/

structure Sockets (τ : Type) where
  /-- How many bytes `send` accepted; `none` is `SOCKET_ERROR`. -/
  send : τ → SOCKET → List u8 → Option ℕ × τ
  /-- Whether the overlapped send was started. -/
  WSASend : τ → SOCKET → List u8 → Bool × τ
  /-- Whether the overlapped receive, into a buffer of the given size, was started. -/
  WSARecv : τ → SOCKET → ℕ → Bool × τ
  closesocket : τ → SOCKET → τ
  send_le : ∀ {t : τ} {sock : SOCKET} {buf : List u8} {n : ℕ},
    (send t sock buf).1 = some n → n ≤ buf.length

/-- The same network with the bytes put on the wire kept on the side: the accepted part
of each `send`, and the whole buffer of each overlapped send that was started. -/
def Sockets.recorded {τ : Type} (net : Sockets τ) : Sockets (τ × List u8) where
  send t sock buf :=
    let r := net.send t.1 sock buf
    (r.1, r.2, t.2 ++ buf.take (r.1.getD 0))
  WSASend t sock buf :=
    let r := net.WSASend t.1 sock buf
    (r.1, r.2, if r.1 then t.2 ++ buf else t.2)
  WSARecv t sock len :=
    let r := net.WSARecv t.1 sock len
    (r.1, r.2, t.2)
  closesocket t sock := (net.closesocket t.1 sock, t.2)
  send_le h := net.send_le h

/-- A network that takes whatever it is given. -/
def Sockets.accepting : Sockets Unit where
  send _ _ buf := (some buf.length, ())
  WSASend _ _ _ := (true, ())
  WSARecv _ _ _ := (true, ())
  closesocket _ _ := ()
  send_le h := by
    rw [Option.some.injEq] at h
    omega

end W32HttpServer.Platform

/-
This file gives the host calls of a guest that work on its descriptors, and the reads of whole
files. Their requests go to the filesystem of the sandbox.
-/

import TinySandbox.Construction.Js.Json
import TinySandbox.Construction.Sandbox.Fs

namespace TinySandbox.Js
open Library Library.Task Sandbox

inductive HostRequest where
  | isCancelled
  | fs (call : FsCall)

abbrev HostRequest.Response : HostRequest → Type
  | .isCancelled => Bool
  | .fs call => VfsResult call.Value

/-- What the filesystem does for a request. -/
def HostRequest.perform (fs : Fs) : (request : HostRequest) → FsTask request.Response
  | .isCancelled => fs.isCancelled
  | .fs call => attempt (fs.call call)

structure OpenFile where
  handle : Nat
  position : Nat
  deriving DecidableEq

/-- These are the parts of the state that the modelled calls use. -/
structure HostState where
  fds : OrderedMap Int OpenFile
  nextFd : Int
  hostResponseBytes : Nat
  hostInputBytes : Nat
  maxOpenFiles : Nat
  response : Bytes

namespace HostState

def new (hostResponseBytes hostInputBytes maxOpenFiles : Nat) : HostState where
  fds := ∅
  nextFd := 3
  hostResponseBytes := hostResponseBytes
  hostInputBytes := hostInputBytes
  maxOpenFiles := maxOpenFiles
  response := []

/-- The JSON around the bytes and their growth in base64 have room in the response. -/
def hostReadBytes (state : HostState) : Nat :=
  min state.hostInputBytes ((state.hostResponseBytes - 128) / 4 * 3)

end HostState

def maxHostReadBytes : Nat := 16 * 1024 * 1024

def i32Max : Int := 2 ^ 31 - 1

/-! ## The errors -/

structure NodeError where
  code : Text
  errno : Int
  message : Text
  syscall : Text
  path : Option Text
  deriving DecidableEq

def errnoName : Errno → Text
  | .EBADF => "EBADF".toList
  | .EBUSY => "EBUSY".toList
  | .EXDEV => "EXDEV".toList
  | .EACCES => "EACCES".toList
  | .EEXIST => "EEXIST".toList
  | .EFBIG => "EFBIG".toList
  | Errno.EIO => "EIO".toList
  | .EINVAL => "EINVAL".toList
  | .EISDIR => "EISDIR".toList
  | .ENOENT => "ENOENT".toList
  | .ENOSPC => "ENOSPC".toList
  | .ENOTDIR => "ENOTDIR".toList
  | .ENOTEMPTY => "ENOTEMPTY".toList

def libuvErrno : Errno → Int
  | .EBADF => -9
  | .EBUSY => -16
  | .EXDEV => -18
  | .EACCES => -13
  | .EEXIST => -17
  | .EFBIG => -27
  | Errno.EIO => -5
  | .EINVAL => -22
  | .EISDIR => -21
  | .ENOENT => -2
  | .ENOSPC => -28
  | .ENOTDIR => -20
  | .ENOTEMPTY => -66

def nodeErrnoMessage : Errno → Text
  | .EBADF => "bad file descriptor".toList
  | .EBUSY => "resource busy or locked".toList
  | .EXDEV => "cross-device link not permitted".toList
  | .EACCES => "permission denied".toList
  | .EEXIST => "file already exists".toList
  | .EFBIG => "file too large".toList
  | Errno.EIO => "i/o error".toList
  | .EINVAL => "invalid argument".toList
  | .EISDIR => "illegal operation on a directory".toList
  | .ENOENT => "no such file or directory".toList
  | .ENOSPC => "no space left on device".toList
  | .ENOTDIR => "not a directory".toList
  | .ENOTEMPTY => "directory not empty".toList

def nodeError (errno : Errno) (syscall : Text) (path : Option Text) : NodeError where
  code := errnoName errno
  errno := libuvErrno errno
  message := nodeErrnoMessage errno
  syscall := syscall
  path := path

/-- An error of the arguments names no call of the filesystem. -/
def argumentError : NodeError := nodeError .EINVAL "tinysandbox".toList none

/-! ## The arguments -/

def required {α : Type} : Option α → Except NodeError α
  | some value => .ok value
  | none => .error argumentError

def stringArg (args : Json) (name : Text) : Except NodeError Text :=
  required ((args.get name).bind Json.asStr)

def i32Arg (args : Json) (name : Text) : Except NodeError Int := do
  let value ← required ((args.get name).bind Json.asI64)
  if -(2 ^ 31) ≤ value ∧ value ≤ i32Max then .ok value else .error argumentError

def usizeArg (args : Json) (name : Text) : Except NodeError Nat := do
  let value ← required ((args.get name).bind Json.asU64)
  required (usizeTryFrom value)

def u64Arg (args : Json) (name : Text) : Except NodeError (Option Nat) :=
  match args.get name with
  | some .null => .ok none
  | none => .ok none
  | some value => (required value.asU64).map some

def bytesArg (args : Json) (name : Text) : Except NodeError Bytes := do
  let data ← required ((args.get name).bind Json.asStr)
  required (base64Decode data)

def openMode (flags : Text) : VfsResult OpenMode :=
  if flags = "r".toList then .ok .readOnly
  else if flags = "r+".toList then .ok .readWrite
  else if flags = "w".toList then .ok { write := true, create := true, truncate := true }
  else if flags = "wx".toList ∨ flags = "xw".toList then
    .ok { write := true, createNew := true, truncate := true }
  else if flags = "w+".toList then
    .ok { read := true, write := true, create := true, truncate := true }
  else if flags = "wx+".toList ∨ flags = "w+x".toList ∨ flags = "xw+".toList ∨
      flags = "x+w".toList then
    .ok { read := true, write := true, createNew := true, truncate := true }
  else if flags = "a".toList then .ok { write := true, create := true, append := true }
  else if flags = "ax".toList ∨ flags = "xa".toList then
    .ok { write := true, createNew := true, append := true }
  else if flags = "a+".toList then
    .ok { read := true, write := true, create := true, append := true }
  else if flags = "ax+".toList ∨ flags = "a+x".toList ∨ flags = "xa+".toList ∨
      flags = "x+a".toList then
    .ok { read := true, write := true, createNew := true, append := true }
  else .error .EINVAL

/-! ## The calls -/

abbrev HostTask := Task HostRequest HostRequest.Response NodeError HostState

def vfsResult {α : Type} (result : VfsResult α) (syscall : Text) (path : Option Text) :
    Except NodeError α :=
  result.mapError fun errno => nodeError errno syscall path

def natJson (value : Nat) : Json := .number (.posInt (UInt64.ofNat value))

def fileOf (state : HostState) (fd : Int) (syscall : Text) : Except NodeError OpenFile :=
  match state.fds.get fd with
  | some file => .ok file
  | none => .error (nodeError .EBADF syscall none)

/-- A descriptor moves on after a read or a write at its own position. -/
def HostState.advance (state : HostState) (fd : Int) (file : OpenFile) (offset : Option Nat)
    (count : Nat) : HostState :=
  match offset with
  | some _ => state
  | none =>
      { state with
        fds := state.fds.insert fd { file with position := min (file.position + count) u64Max } }

def hostReadFile (args : Json) : HostTask Json := do
  let path ← lift (stringArg args "path".toList)
  let state ← get
  let result ← request (HostRequest.fs (.readFileBounded path state.hostReadBytes))
  let data ← lift (vfsResult result "open".toList (some path))
  pure (.string (base64Encode data))

def hostOpen (args : Json) : HostTask Json := do
  let state ← get
  refuse (state.maxOpenFiles ≤ state.fds.size ∨ state.nextFd = i32Max)
    (nodeError .ENOSPC "open".toList none)
  let path ← lift (stringArg args "path".toList)
  let flags ← lift (stringArg args "flags".toList)
  let mode ← lift (vfsResult (openMode flags) "open".toList (some path))
  let result ← request (HostRequest.fs (.open path mode))
  let handle ← lift (vfsResult result "open".toList (some path))
  set { state with
    fds := state.fds.insert state.nextFd { handle := handle, position := 0 }
    nextFd := state.nextFd + 1 }
  pure (natJson state.nextFd.toNat)

def hostRead (args : Json) : HostTask Json := do
  let fd ← lift (i32Arg args "fd".toList)
  let offset ← lift (u64Arg args "position".toList)
  let len ← lift (usizeArg args "length".toList)
  let state ← get
  let file ← lift (fileOf state fd "read".toList)
  let len := min (min len maxHostReadBytes) state.hostReadBytes
  let result ← request (HostRequest.fs (.readAt file.handle (offset.getD file.position) len))
  let data ← lift (vfsResult result "read".toList none)
  set (state.advance fd file offset data.length)
  pure (.object [("bytesRead".toList, natJson data.length),
    ("data".toList, .string (base64Encode data))])

def hostWrite (args : Json) : HostTask Json := do
  let fd ← lift (i32Arg args "fd".toList)
  let data ← lift (bytesArg args "data".toList)
  let offset ← lift (u64Arg args "position".toList)
  let state ← get
  let file ← lift (fileOf state fd "write".toList)
  let result ← request (HostRequest.fs (.writeAt file.handle (offset.getD file.position) data))
  let count ← lift (vfsResult result "write".toList none)
  set (state.advance fd file offset count)
  pure (natJson count)

def hostFtruncate (args : Json) : HostTask Json := do
  let fd ← lift (i32Arg args "fd".toList)
  let len ← lift (u64Arg args "len".toList)
  let state ← get
  let file ← lift (fileOf state fd "ftruncate".toList)
  let result ← request (HostRequest.fs (.truncate file.handle (len.getD 0)))
  lift (vfsResult result "ftruncate".toList none)
  pure .null

/-- The descriptor is gone even when the filesystem reports an error. -/
def hostClose (args : Json) : HostTask Json := do
  let fd ← lift (i32Arg args "fd".toList)
  let state ← get
  let file ← lift (fileOf state fd "close".toList)
  set { state with fds := state.fds.erase fd }
  let result ← request (HostRequest.fs (.close file.handle))
  lift (vfsResult result "close".toList none)
  pure .null

inductive HostOp where
  | readFile
  | open
  | read
  | write
  | ftruncate
  | close
  deriving DecidableEq

def handleHostCallResult (op : HostOp) (args : Json) : HostTask Json :=
  match op with
  | .readFile => hostReadFile args
  | .open => hostOpen args
  | .read => hostRead args
  | .write => hostWrite args
  | .ftruncate => hostFtruncate args
  | .close => hostClose args

/-! ## The responses -/

def intJson (value : Int) : Json :=
  .number (if 0 ≤ value then .posInt (UInt64.ofNat value.toNat) else .negInt (Int64.ofInt value))

def NodeError.json (error : NodeError) : Json :=
  .object ([("code".toList, .string error.code), ("errno".toList, intJson error.errno),
    ("message".toList, .string error.message)] ++
    (match error.path with | some path => [("path".toList, .string path)] | none => []) ++
    [("syscall".toList, .string error.syscall)])

inductive HostResponse where
  | value (value : Json)
  | error (error : Json)

def HostResponse.json : HostResponse → Json
  | .value found => .object [("value".toList, found)]
  | .error failure => .object [("error".toList, failure)]

def tooBig (cap : Nat) : HostResponse :=
  .error (.object [("code".toList, .string "E2BIG".toList),
    ("message".toList, .string ("host response exceeded limit of ".toList ++
      (toString cap).toList ++ " bytes".toList))])

/-- A response that does not fit is replaced, and nothing is left when that does not fit either. -/
def HostResponse.respond (granted : Nat → Nat) (response : HostResponse) (cap : Nat) : Bytes :=
  match boundedJson granted response.json cap with
  | some writer => writer.bytes
  | none =>
      match boundedJson granted (tooBig cap).json cap with
      | some writer => writer.bytes
      | none => []

def handleHostCall (op : HostOp) (args : Json) : HostTask HostResponse := do
  let result ← attempt (handleHostCallResult op args)
  match result with
  | .ok value => pure (.value value)
  | .error error => pure (.error error.json)

def hostCall (granted : Nat → Nat) (op : HostOp) (args : Json) : HostTask Unit := do
  let response ← handleHostCall op args
  let state ← get
  set { state with response := response.respond granted state.hostResponseBytes }

/-! ## The end -/

end TinySandbox.Js

/-
This file gives the values that the portable dispatcher exchanges with a guest and with a `Vfs`.
A number of JavaScript is an integer, or it is among the other values.
-/

import TinySandbox.Construction.Sandbox.Fs

namespace TinySandbox.Portable
open Library

def maxSafeInteger : Int := 2 ^ 53 - 1

def maxHostReadBytes : Nat := 16 * 1024 * 1024

inductive VfsErrno where
  | EAGAIN
  | EBADF
  | EBUSY
  | EXDEV
  | EACCES
  | EEXIST
  | EFBIG
  | EIO
  | EINVAL
  | EISDIR
  | ENOENT
  | ENOSPC
  | ENOTDIR
  | ENOTEMPTY
  deriving DecidableEq

def VfsErrno.number : VfsErrno → Int
  | .EAGAIN => -35
  | .EBADF => -9
  | .EBUSY => -16
  | .EXDEV => -18
  | .EACCES => -13
  | .EEXIST => -17
  | .EFBIG => -27
  | VfsErrno.EIO => -5
  | .EINVAL => -22
  | .EISDIR => -21
  | .ENOENT => -2
  | .ENOSPC => -28
  | .ENOTDIR => -20
  | .ENOTEMPTY => -66

def VfsErrno.message : VfsErrno → String
  | .EAGAIN => "resource temporarily unavailable"
  | .EBADF => "bad file descriptor"
  | .EBUSY => "resource busy or locked"
  | .EXDEV => "cross-device link not permitted"
  | .EACCES => "permission denied"
  | .EEXIST => "file already exists"
  | .EFBIG => "file too large"
  | VfsErrno.EIO => "i/o error"
  | .EINVAL => "invalid argument"
  | .EISDIR => "illegal operation on a directory"
  | .ENOENT => "no such file or directory"
  | .ENOSPC => "no space left on device"
  | .ENOTDIR => "not a directory"
  | .ENOTEMPTY => "directory not empty"

structure VfsErrorPayload where
  code : VfsErrno
  errno : Int
  message : String
  syscall : String
  path : Option Text
  deriving DecidableEq

/-- The flag tells that the synchronous API stopped at a promise of the `Vfs`. -/
structure HostCallFailure where
  payload : VfsErrorPayload
  wouldBlock : Bool := false
  deriving DecidableEq

/-- An operation throws a host failure, the error of a file that is too long, or the error of a
checkpoint. -/
inductive Thrown where
  | host (failure : HostCallFailure)
  | range
  | cancelled
  deriving DecidableEq

/-- An error of a `Vfs` without a known code counts as `EIO`. -/
def vfsFailure (code : Option VfsErrno) (syscall : String) (path : Option Text := none) : Thrown :=
  let code := code.getD VfsErrno.EIO
  .host { payload := { code, errno := code.number, message := code.message, syscall, path } }

def invalidVfsCall (syscall : String) (path : Option Text := none) : Thrown :=
  vfsFailure (some .EINVAL) syscall path

def wouldBlockFailure (syscall : String) (path : Option Text) : Thrown :=
  .host {
    payload := {
      code := .EAGAIN
      errno := VfsErrno.EAGAIN.number
      message := "operation would block; use fs.promises"
      syscall
      path }
    wouldBlock := true }

/-- An argument of the guest. A fraction, a list or an object comes with the text it converts to. -/
inductive Argument where
  | undefined
  | null
  | bool (value : Bool)
  | integer (value : Int)
  | string (text : Text)
  | other (text : Text)
  deriving DecidableEq

def Argument.truthy : Argument → Bool
  | .undefined => false
  | .null => false
  | .bool value => value
  | .integer value => value ≠ 0
  | .string text => text ≠ []
  | .other _ => true

def Argument.text : Argument → Text
  | .undefined => "undefined".toList
  | .null => "null".toList
  | .bool true => "true".toList
  | .bool false => "false".toList
  | .integer value => (toString value).toList
  | .string text => text
  | .other text => text

/-- An entry of a directory, with the metadata when they have the right shape. -/
inductive ReturnedEntry where
  | entry (name : Text) (metadata : Option (FileType × Int))
  | other
  deriving DecidableEq

/-- This is what a method of a `Vfs` gives back. -/
inductive Returned where
  | integer (value : Int)
  | metadata (fileType : FileType) (len : Int)
  | entries (entries : List ReturnedEntry)
  | other
  deriving DecidableEq

def isSafeInteger (value : Int) : Bool := value.natAbs ≤ maxSafeInteger.toNat

/-- The value, when it is a safe integer that is not negative. -/
def Returned.natural : Returned → Option Nat
  | .integer value => if isSafeInteger value ∧ 0 ≤ value then some value.toNat else none
  | _ => none

/-- A handle is what a call of `open` gave back, together with the number of that call. -/
structure Handle where
  value : Returned
  call : Nat
  deriving DecidableEq

def Handle.IsValid (handle : Handle) : Prop := handle.value.natural ≠ none

instance (handle : Handle) : Decidable handle.IsValid := inferInstanceAs (Decidable (_ ≠ _))

/-- These are the methods of a `Vfs`. The buffer of a read has a length. -/
inductive BoundCall where
  | stat (path : Text)
  | readdir (path : Text)
  | mkdir (path : Text)
  | rename (source target : Text)
  | unlink (path : Text)
  | rmdir (path : Text)
  | open (path : Text) (mode : OpenMode)
  | readAt (handle : Handle) (offset length : Nat)
  | writeAt (handle : Handle) (offset : Nat) (data : Bytes)
  | truncate (handle : Handle) (len : Nat)
  | close (handle : Handle)
  | abort (handle : Handle)
  deriving DecidableEq

/-- A reply carries what a read left in the buffer and the number of the call. -/
structure Reply where
  value : Returned
  buffer : Bytes := []
  call : Nat
  deriving DecidableEq

/-- A call returns or fails, or its caller cannot wait for its promise. -/
inductive Answer where
  | returned (reply : Reply)
  | failed (code : Option VfsErrno)
  | wouldBlock
  deriving DecidableEq

/-- A file that the guest has open. -/
structure OpenFile where
  handle : Handle
  position : Nat
  deriving DecidableEq

/-- An operation asks whether the run goes on, uses the table of descriptors, and calls the `Vfs`. -/
inductive Request where
  | checkpoint
  | isFull
  | reserve
  | unreserve
  | store (handle : Handle)
  | lookup (fd : Nat)
  | remove (fd : Nat)
  | advance (fd count : Nat)
  | vfs (call : BoundCall)

abbrev Request.Response : Request → Type
  | .checkpoint => Bool
  | .isFull => Bool
  | .reserve => Unit
  | .unreserve => Unit
  | .store _ => Nat
  | .lookup _ => Option OpenFile
  | .remove _ => Unit
  | .advance _ _ => Unit
  | .vfs _ => Answer

abbrev VfsOperation := Task Request Request.Response Thrown Unit

/-- This is an operation that has been started, with what it still does. -/
abbrev Running (α : Type) := Program Request Request.Response (Except Thrown α × Unit)

/-- This is what a host call gives to the guest. -/
inductive HostValue where
  | null
  | bool (value : Bool)
  | number (value : Nat)
  | text (text : Text)
  | stat (size : Nat) (isFile isDirectory : Bool)
  | names (names : List Text)
  | entries (entries : List (Text × Bool × Bool))
  | read (bytesRead : Nat) (data : Text)
  deriving DecidableEq

/-- These are the host calls of the filesystem. -/
inductive HostOp where
  | readFile
  | writeFile
  | appendFile
  | mkdir
  | readdir
  | stat
  | rename
  | rm
  | unlink
  | rmdir
  | exists
  | open
  | read
  | write
  | ftruncate
  | close
  | copyFile
  deriving DecidableEq

/-- These are the arguments of a host call that the dispatcher reads. -/
structure Arguments where
  path : Argument := .undefined
  data : Argument := .undefined
  recursive : Argument := .undefined
  withFileTypes : Argument := .undefined
  from' : Argument := .undefined
  to' : Argument := .undefined
  src : Argument := .undefined
  dest : Argument := .undefined
  force : Argument := .undefined
  flags : Argument := .undefined
  fd : Argument := .undefined
  position : Argument := .undefined
  length : Argument := .undefined
  len : Argument := .undefined
  deriving DecidableEq

end TinySandbox.Portable

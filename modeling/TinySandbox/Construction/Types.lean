/-
This file gives the values that every filesystem backend shares.
A string is its list of characters. The order of characters is the order of their UTF-8 bytes.
-/

import Mathlib.Data.Char
import TinySandbox.Library.Call

namespace TinySandbox

abbrev Text := List Char
abbrev Name := Text
abbrev Path := List Name
abbrev Bytes := List UInt8

instance : LawfulBEq Text := inferInstance

inductive Errno where
  | EBADF
  | EBUSY
  | EXDEV
  | EACCES
  | EEXIST
  | EFBIG
  | EIO
  | EINVAL
  | EISDIR
  | ENOENT
  | ENOSPC
  | ENOTDIR
  | ENOTEMPTY
  deriving DecidableEq, Repr

/-- A `VfsError` carries its errno and nothing else. -/
abbrev VfsResult (α : Type) := Except Errno α

inductive FileType where
  | file
  | directory
  deriving DecidableEq, Repr

structure Metadata where
  fileType : FileType
  len : Nat
  deriving DecidableEq, Repr

structure DirEntry where
  name : Name
  metadata : Metadata
  deriving DecidableEq, Repr

structure OpenMode where
  read : Bool := false
  write : Bool := false
  create : Bool := false
  createNew : Bool := false
  truncate : Bool := false
  append : Bool := false
  deriving DecidableEq, Repr

namespace OpenMode

def readOnly : OpenMode := { read := true }

def writeOnly : OpenMode := { write := true }

def readWrite : OpenMode := { read := true, write := true }

def validate (mode : OpenMode) : VfsResult Unit :=
  if ¬ mode.read ∧ ¬ mode.write then .error .EINVAL
  else if mode.truncate ∧ ¬ mode.write then .error .EINVAL
  else if mode.append ∧ ¬ mode.write then .error .EINVAL
  else .ok ()

end OpenMode

/-- The largest `u64`. The code runs on 64-bit targets, so it is also the largest `usize`. -/
def u64Max : Nat := 2 ^ 64 - 1

/-- The largest allocation that `Vec` accepts. -/
def isizeMax : Nat := 2 ^ 63 - 1

/-- This is `usize::try_from` on a `u64` value. -/
def usizeTryFrom (value : Nat) : Option Nat := if value ≤ u64Max then some value else none

def checkedAdd (left right : Nat) : Option Nat :=
  if left + right ≤ u64Max then some (left + right) else none

theorem eq_of_usizeTryFrom {value found : Nat} (fits : usizeTryFrom value = some found) :
    value = found := by
  unfold usizeTryFrom at fits
  split at fits
  · exact Option.some.inj fits
  · cases fits

theorem eq_of_checkedAdd {left right sum : Nat} (fits : checkedAdd left right = some sum) :
    left + right = sum := by
  unfold checkedAdd at fits
  split at fits
  · exact Option.some.inj fits
  · cases fits

/-- An unchecked `+` on `u64`. A missing result is an overflow. -/
def addU64 (left right : Nat) : Option Nat := checkedAdd left right

/-- An unchecked `-` on `u64`. A missing result is an underflow. -/
def subU64 (left right : Nat) : Option Nat :=
  if right ≤ left then some (left - right) else none

/-- `Vec::resize` with zero bytes. A missing result is a capacity overflow. -/
def vecResize (bytes : Bytes) (newLen : Nat) : Option Bytes :=
  if newLen ≤ isizeMax then
    some (bytes.take newLen ++ List.replicate (newLen - bytes.length) 0)
  else none

/-- This copies `data` over the bytes that start at `offset`. -/
def copyFromSlice (bytes : Bytes) (offset : Nat) (data : Bytes) : Bytes :=
  bytes.take offset ++ data ++ bytes.drop (offset + data.length)

end TinySandbox

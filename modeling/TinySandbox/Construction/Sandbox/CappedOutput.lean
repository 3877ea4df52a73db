/-
This file gives the captured output of an execution, whose middle is cut out at a cap.
-/

import TinySandbox.Construction.Types

namespace TinySandbox.Sandbox

/-- Every character of the marker is one byte. -/
def truncationMarker : Bytes :=
  "\n[tinysandbox: output truncated]\n".toList.map fun symbol => UInt8.ofNat symbol.toNat

structure CappedOutput where
  cap : Nat
  total : Nat
  preTruncation : Bytes
  head : Bytes
  tail : Bytes
  truncated : Bool
  deriving DecidableEq

namespace CappedOutput

def new (cap : Nat) : CappedOutput where
  cap := cap
  total := 0
  preTruncation := []
  head := []
  tail := []
  truncated := false

/-- The tail is a ring of the last bytes. -/
def pushTail (output : CappedOutput) (data : Bytes) (limit : Nat) : CappedOutput :=
  if limit = 0 then output
  else if limit ≤ data.length then { output with tail := data.drop (data.length - limit) }
  else
    let overflow := output.tail.length + data.length - limit
    { output with tail := output.tail.drop overflow ++ data }

/-- The bytes before the cap are split into the head and the first bytes of the tail. -/
def truncate (output : CappedOutput) : CappedOutput :=
  let output := { output with truncated := true }
  let output :=
    if truncationMarker.length < output.cap then
      let keep := output.cap - truncationMarker.length
      let headLen := keep / 2
      let tailLen := keep - headLen
      let kept := min headLen output.preTruncation.length
      { output with head := output.head ++ output.preTruncation.take kept }.pushTail
        (output.preTruncation.drop kept) tailLen
    else output
  { output with preTruncation := [] }

def writeTruncated (output : CappedOutput) (data : Bytes) : CappedOutput :=
  let output := { output with total := output.total + data.length }
  if truncationMarker.length < output.cap then
    let keep := output.cap - truncationMarker.length
    output.pushTail data (keep - keep / 2)
  else output

/-- The write that crosses the cap is cut there, and its rest goes to the truncated output. -/
def writeWhole (output : CappedOutput) (data : Bytes) : CappedOutput :=
  let remaining := output.cap - output.total
  if data.length ≤ remaining then
    { output with
      preTruncation := output.preTruncation ++ data
      total := output.total + data.length }
  else
    { output with
      preTruncation := output.preTruncation ++ data.take remaining
      total := output.total + remaining }.truncate.writeTruncated (data.drop remaining)

def write (output : CappedOutput) (data : Bytes) : CappedOutput :=
  if data = [] then output
  else if output.truncated then output.writeTruncated data
  else output.writeWhole data

def finish (output : CappedOutput) : Bytes × Bool :=
  if ¬ output.truncated then (output.preTruncation, false)
  else if output.cap ≤ truncationMarker.length then (truncationMarker, true)
  else (output.head ++ truncationMarker ++ output.tail, true)

/-- The writes of an execution come in order. -/
def writeAll (output : CappedOutput) (writes : List Bytes) : CappedOutput :=
  writes.foldl write output

end CappedOutput

end TinySandbox.Sandbox

/-
This file gives the host calls of the portable dispatcher.
-/

import TinySandbox.Construction.Portable.Operations

namespace TinySandbox.Portable
open Library Library.Task

section Dispatch
variable (settings : Settings) (arguments : Arguments) (fuel : Nat)

def dispatchReadFile : VfsOperation HostValue := do
  let path ← lift (absolute settings arguments.path)
  let data ← remapHostFailure (readFile path (readBytes settings)) "open" path
  pure (.text (encodeBase64 data))

/-- `writeFile` and `appendFile` differ in the mode. -/
def dispatchWriteAll (append : Bool) : VfsOperation HostValue := do
  let path ← lift (absolute settings arguments.path)
  remapHostFailure (do
    let data ← lift (decodeBase64 arguments.data settings.hostInputBytes)
    writeAll settings path data append) "open" path
  pure .null

def dispatchMkdir : VfsOperation HostValue := do
  let path ← lift (absolute settings arguments.path)
  if arguments.recursive.truthy then do
    mkdirRecursive path
    pure .null
  else do
    let _ ← callVfs (.mkdir path) "mkdir" (some path)
    pure .null

/-- An entry with its metadata gives its name and its kind. -/
def entryInfo (path : Text) (entry : ReturnedEntry) : Except Thrown (Text × Bool × Bool) := do
  let name ← entryName entry path
  match entry with
  | .entry _ (some (fileType, len)) => do
      let info ← checkedMetadata (.metadata fileType len) "scandir" (some path)
      pure (name, info.fileType = .file, info.fileType = .directory)
  | _ => .error (vfsFailure none "scandir" (some path))

def listing (withFileTypes : Bool) (path : Text) (entries : List ReturnedEntry) :
    Except Thrown HostValue :=
  if withFileTypes then (entries.mapM (entryInfo path)).map HostValue.entries
  else (entries.mapM (entryName · path)).map HostValue.names

def dispatchReaddir : VfsOperation HostValue := do
  let path ← lift (absolute settings arguments.path)
  let reply ← callVfs (.readdir path) "scandir" (some path)
  let entries ← lift (listedEntries reply.value path)
  lift (listing arguments.withFileTypes.truthy path entries)

def dispatchStat : VfsOperation HostValue := do
  let path ← lift (absolute settings arguments.path)
  let info ← metadata path
  pure (.stat info.len (info.fileType = .file) (info.fileType = .directory))

def dispatchRename : VfsOperation HostValue := do
  let source ← lift (absolute settings arguments.from')
  let target ← lift (absolute settings arguments.to')
  let _ ← callVfs (.rename source target) "rename" (some source)
  pure .null

/-- A forced removal of nothing succeeds. -/
def forced (force : Bool) (result : Except Thrown Unit) : Except Thrown Unit :=
  if force ∧ hasCode .ENOENT result then .ok () else result

def dispatchRm : VfsOperation HostValue := do
  let path ← lift (absolute settings arguments.path)
  let result ← attempt (removePath fuel path arguments.recursive.truthy)
  lift (forced arguments.force.truthy result)
  pure .null

def dispatchUnlink : VfsOperation HostValue := do
  let path ← lift (absolute settings arguments.path)
  let _ ← callVfs (.unlink path) "unlink" (some path)
  pure .null

def dispatchRmdir : VfsOperation HostValue := do
  let path ← lift (absolute settings arguments.path)
  if arguments.recursive.truthy then do
    removePath fuel path true
    pure .null
  else do
    let _ ← callVfs (.rmdir path) "rmdir" (some path)
    pure .null

/-- An operation that could not wait says nothing about the path. -/
def existence : Except Thrown Metadata → VfsOperation HostValue
  | .ok _ => pure (.bool true)
  | .error (.host failure) =>
      if failure.wouldBlock then throw (.host failure) else pure (.bool false)
  | .error _ => pure (.bool false)

def dispatchExists : VfsOperation HostValue := do
  let result ← attempt (do
    let path ← lift (absolute settings arguments.path)
    metadata path)
  existence result

/-- An awaited open can finish after the run has ended. -/
def keepOrDiscard (handle : Handle) (passes : Except Thrown Unit) : VfsOperation HostValue :=
  match passes with
  | .error error => do
      let _ ← attempt (callVfs (release settings true handle) "close" none)
      throw error
  | .ok _ => do
      let fd ← request (Request.store handle)
      pure (.number fd)

def dispatchOpen : VfsOperation HostValue := do
  let full ← request Request.isFull
  refuse (full = true) (vfsFailure (some .ENOSPC) "open")
  let path ← lift (absolute settings arguments.path)
  let mode ← lift (openMode arguments.flags path)
  request Request.reserve
  let opened ← attempt (openVfs path mode)
  request Request.unreserve
  let handle ← lift opened
  let passes ← attempt checkpoint
  keepOrDiscard settings handle passes

/-- The descriptor of an open file with the file, or `EBADF`. -/
def lookup (syscall : String) : VfsOperation (Nat × OpenFile) := do
  let fd ← lift (checkedInteger arguments.fd "tinysandbox")
  let found ← request (Request.lookup fd)
  match found with
  | some file => pure (fd, file)
  | none => throw (vfsFailure (some .EBADF) syscall)

/-- Only a transfer without a position moves the descriptor. -/
def advance (fd : Nat) (position : Option Nat) (count : Nat) : VfsOperation Unit :=
  match position with
  | none => request (Request.advance fd count)
  | some _ => pure ()

def dispatchRead : VfsOperation HostValue := do
  let (fd, file) ← lookup arguments "read"
  let position ← lift (checkedNullable arguments.position "tinysandbox")
  let wanted ← lift (checkedInteger arguments.length "tinysandbox")
  let length := min (min maxHostReadBytes (readBytes settings)) wanted
  let reply ← callVfs (.readAt file.handle (position.getD file.position) length) "read" none
  let count ← lift (checkedCount reply length "read")
  advance fd position count
  pure (.read count (encodeBase64 (reply.buffer.takeD count 0)))

def dispatchWrite : VfsOperation HostValue := do
  let (fd, file) ← lookup arguments "write"
  let position ← lift (checkedNullable arguments.position "tinysandbox")
  let data ← lift (decodeBase64 arguments.data settings.hostInputBytes)
  let reply ← callVfs (.writeAt file.handle (position.getD file.position) data) "write" none
  let count ← lift (checkedCount reply data.length "write")
  advance fd position count
  pure (.number count)

def lenArgument (len : Argument) : Argument :=
  match len with
  | .undefined => .integer 0
  | .null => .integer 0
  | len => len

def dispatchFtruncate : VfsOperation HostValue := do
  let (_, file) ← lookup arguments "ftruncate"
  let len ← lift (checkedInteger (lenArgument arguments.len) "tinysandbox")
  let _ ← callVfs (.truncate file.handle len) "ftruncate" none
  pure .null

/-- A failed close discards whatever it staged. -/
def discardFailed (handle : Handle) (closed : Except Thrown Reply) : VfsOperation HostValue :=
  match closed with
  | .ok _ => pure .null
  | .error error =>
      if settings.hasAbort then do
        let _ ← attempt (callVfs (.abort handle) "close" none)
        throw error
      else throw error

/-- The entry goes first, because the `Vfs` may still be closing when the run ends. -/
def dispatchClose : VfsOperation HostValue := do
  let (fd, file) ← lookup arguments "close"
  request (Request.remove fd)
  let closed ← attempt (callVfs (.close file.handle) "close" none)
  discardFailed settings file.handle closed

def dispatchCopyFile : VfsOperation HostValue := do
  let source ← lift (absolute settings arguments.src)
  let destination ← lift (absolute settings arguments.dest)
  let data ← remapHostFailure (readFile source settings.hostInputBytes) "copyfile" source
  remapHostFailure (writeAll settings destination data false) "copyfile" destination
  pure .null

def dispatchOp : HostOp → VfsOperation HostValue
  | .readFile => dispatchReadFile settings arguments
  | .writeFile => dispatchWriteAll settings arguments false
  | .appendFile => dispatchWriteAll settings arguments true
  | .mkdir => dispatchMkdir settings arguments
  | .readdir => dispatchReaddir settings arguments
  | .stat => dispatchStat settings arguments
  | .rename => dispatchRename settings arguments
  | .rm => dispatchRm settings arguments fuel
  | .unlink => dispatchUnlink settings arguments
  | .rmdir => dispatchRmdir settings arguments fuel
  | .exists => dispatchExists settings arguments
  | .open => dispatchOpen settings arguments
  | .read => dispatchRead settings arguments
  | .write => dispatchWrite settings arguments
  | .ftruncate => dispatchFtruncate arguments
  | .close => dispatchClose settings arguments
  | .copyFile => dispatchCopyFile settings arguments

def dispatch (op : HostOp) : VfsOperation HostValue := do
  checkpoint
  dispatchOp settings arguments fuel op

end Dispatch

end TinySandbox.Portable

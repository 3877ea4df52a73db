import TinySandbox.Construction.Jq.FilterSource
import TinySandbox.Construction.Jq.Terms
import TinySandbox.Construction.Js.Codecs
import TinySandbox.Construction.Js.Driver
import TinySandbox.Construction.Js.Glue
import TinySandbox.Construction.Js.HostCalls
import TinySandbox.Construction.Js.Json
import TinySandbox.Construction.Js.Modules
import TinySandbox.Construction.Js.Timers
import TinySandbox.Construction.Local.Host
import TinySandbox.Construction.Local.Vfs
import TinySandbox.Construction.Mem.Operations
import TinySandbox.Construction.Mem.State
import TinySandbox.Construction.Mem.World
import TinySandbox.Construction.Mounted.Vfs
import TinySandbox.Construction.Path
import TinySandbox.Construction.Portable.BoundedJson
import TinySandbox.Construction.Portable.Dispatch
import TinySandbox.Construction.Portable.Dispatcher
import TinySandbox.Construction.Portable.Encoding
import TinySandbox.Construction.Portable.Globals
import TinySandbox.Construction.Portable.Operations
import TinySandbox.Construction.Portable.Types
import TinySandbox.Construction.S3.Bucket
import TinySandbox.Construction.S3.Clients
import TinySandbox.Construction.S3.Paths
import TinySandbox.Construction.S3.Shared
import TinySandbox.Construction.S3.Staging
import TinySandbox.Construction.S3.Types
import TinySandbox.Construction.S3.Vfs
import TinySandbox.Construction.Sandbox.Builtins
import TinySandbox.Construction.Sandbox.CappedOutput
import TinySandbox.Construction.Sandbox.Cat
import TinySandbox.Construction.Sandbox.Exec
import TinySandbox.Construction.Sandbox.FileTrees
import TinySandbox.Construction.Sandbox.Fs
import TinySandbox.Construction.Sandbox.JsGlobals
import TinySandbox.Construction.Sandbox.LineFilters
import TinySandbox.Construction.Sandbox.Lines
import TinySandbox.Construction.Sandbox.Redirect
import TinySandbox.Construction.Sandbox.Registry
import TinySandbox.Construction.Sandbox.Sed
import TinySandbox.Construction.Sandbox.Streams
import TinySandbox.Construction.Sandbox.System
import TinySandbox.Construction.Sandbox.Wiring
import TinySandbox.Construction.Shell.ByteLexer
import TinySandbox.Construction.Shell.Expansion
import TinySandbox.Construction.Shell.Lexer
import TinySandbox.Construction.Shell.Parser
import TinySandbox.Construction.Shell.Syntax
import TinySandbox.Construction.Types
import TinySandbox.Library.Agreement
import TinySandbox.Library.Base64
import TinySandbox.Library.Call
import TinySandbox.Library.Cursors
import TinySandbox.Library.DirectoryTree
import TinySandbox.Library.Endings
import TinySandbox.Library.Grammar
import TinySandbox.Library.Guarded
import TinySandbox.Library.Heaps
import TinySandbox.Library.Interleaving
import TinySandbox.Library.Lifetimes
import TinySandbox.Library.OrderedMap
import TinySandbox.Library.Program
import TinySandbox.Library.Protocol
import TinySandbox.Library.Serving
import TinySandbox.Library.Simulation
import TinySandbox.Library.SplitAfter
import TinySandbox.Library.Text
import TinySandbox.Library.Unicode
import TinySandbox.Proof.Jq.FilterSource
import TinySandbox.Proof.Jq.Nesting
import TinySandbox.Proof.Jq.UserDefs
import TinySandbox.Proof.Js.Base64
import TinySandbox.Proof.Js.Descriptors
import TinySandbox.Proof.Js.EventLoop
import TinySandbox.Proof.Js.Globals
import TinySandbox.Proof.Js.Immediates
import TinySandbox.Proof.Js.Loading
import TinySandbox.Proof.Js.Responses
import TinySandbox.Proof.Js.Sessions
import TinySandbox.Proof.Js.Timers
import TinySandbox.Proof.Js.Turns
import TinySandbox.Proof.Js.Utf8
import TinySandbox.Proof.Js.Waiters
import TinySandbox.Proof.Local.Books
import TinySandbox.Proof.Local.Quota
import TinySandbox.Proof.Local.Usage
import TinySandbox.Proof.Mem.Agreement
import TinySandbox.Proof.Mem.Allocations
import TinySandbox.Proof.Mem.Depths
import TinySandbox.Proof.Mem.FlatHandles
import TinySandbox.Proof.Mem.HandleAgreement
import TinySandbox.Proof.Mem.Invariant
import TinySandbox.Proof.Mem.Names
import TinySandbox.Proof.Mem.OpenAgreement
import TinySandbox.Proof.Mem.PathAgreement
import TinySandbox.Proof.Mem.Release
import TinySandbox.Proof.Mem.Removal
import TinySandbox.Proof.Mem.RenameAgreement
import TinySandbox.Proof.Mem.Runs
import TinySandbox.Proof.Mem.Snapshot
import TinySandbox.Proof.Mem.SnapshotRuns
import TinySandbox.Proof.Mem.Tree
import TinySandbox.Proof.Mem.Worlds
import TinySandbox.Proof.Mounted.Handles
import TinySandbox.Proof.Mounted.Routing
import TinySandbox.Proof.Mounted.Sessions
import TinySandbox.Proof.Portable.Accounts
import TinySandbox.Proof.Portable.BoundedJson
import TinySandbox.Proof.Portable.Custody
import TinySandbox.Proof.Portable.Dispatches
import TinySandbox.Proof.Portable.Globals
import TinySandbox.Proof.Portable.HandleReleases
import TinySandbox.Proof.Portable.Leases
import TinySandbox.Proof.Portable.Transfers
import TinySandbox.Proof.S3.Appends
import TinySandbox.Proof.S3.Buckets
import TinySandbox.Proof.S3.Cells
import TinySandbox.Proof.S3.Containment
import TinySandbox.Proof.S3.Hygiene
import TinySandbox.Proof.S3.Isolation
import TinySandbox.Proof.S3.ListedNames
import TinySandbox.Proof.S3.LoadedBuffers
import TinySandbox.Proof.S3.OverflowingWrites
import TinySandbox.Proof.S3.Paging
import TinySandbox.Proof.S3.PartLimits
import TinySandbox.Proof.S3.PartSizes
import TinySandbox.Proof.S3.Probes
import TinySandbox.Proof.S3.Publications
import TinySandbox.Proof.S3.ReadOnly
import TinySandbox.Proof.S3.Requests
import TinySandbox.Proof.S3.Revisions
import TinySandbox.Proof.S3.Scans
import TinySandbox.Proof.S3.SharedHandles
import TinySandbox.Proof.S3.StreamFailures
import TinySandbox.Proof.S3.StreamHandles
import TinySandbox.Proof.S3.StreamSessions
import TinySandbox.Proof.S3.Streams
import TinySandbox.Proof.S3.StrictRuns
import TinySandbox.Proof.S3.UploadLogs
import TinySandbox.Proof.Sandbox.Boundary
import TinySandbox.Proof.Sandbox.BuiltinStages
import TinySandbox.Proof.Sandbox.CappedOutput
import TinySandbox.Proof.Sandbox.CatBoundaries
import TinySandbox.Proof.Sandbox.CatInputs
import TinySandbox.Proof.Sandbox.Deliveries
import TinySandbox.Proof.Sandbox.Destinations
import TinySandbox.Proof.Sandbox.FilteredLines
import TinySandbox.Proof.Sandbox.Finishes
import TinySandbox.Proof.Sandbox.HeadTail
import TinySandbox.Proof.Sandbox.JsGlobals
import TinySandbox.Proof.Sandbox.Ledger
import TinySandbox.Proof.Sandbox.Lines
import TinySandbox.Proof.Sandbox.Mkdir
import TinySandbox.Proof.Sandbox.Places
import TinySandbox.Proof.Sandbox.Reads
import TinySandbox.Proof.Sandbox.Redirects
import TinySandbox.Proof.Sandbox.Refusals
import TinySandbox.Proof.Sandbox.Registries
import TinySandbox.Proof.Sandbox.Releases
import TinySandbox.Proof.Sandbox.Removal
import TinySandbox.Proof.Sandbox.Resolution
import TinySandbox.Proof.Sandbox.SedReplacements
import TinySandbox.Proof.Sandbox.SedScripts
import TinySandbox.Proof.Sandbox.SortedLines
import TinySandbox.Proof.Sandbox.Sweeps
import TinySandbox.Proof.Sandbox.Systems
import TinySandbox.Proof.Shell.Budgets
import TinySandbox.Proof.Shell.Commands
import TinySandbox.Proof.Shell.Continuations
import TinySandbox.Proof.Shell.Costs
import TinySandbox.Proof.Shell.Cursor
import TinySandbox.Proof.Shell.FieldSplitting
import TinySandbox.Proof.Shell.LexerPositions
import TinySandbox.Proof.Shell.Parsing
import TinySandbox.Proof.Shell.Positions
import TinySandbox.Proof.Shell.Programs
import TinySandbox.Proof.Shell.Quoting
import TinySandbox.Proof.Shell.RoundTrip
import TinySandbox.Proof.Shell.Scans
import TinySandbox.Proof.Shell.Traversal
import TinySandbox.Proof.Shell.Units
import TinySandbox.Specification.Allocations
import TinySandbox.Specification.BucketListings
import TinySandbox.Specification.Continuations
import TinySandbox.Specification.FdMachine
import TinySandbox.Specification.FilterLexing
import TinySandbox.Specification.FlatFs
import TinySandbox.Specification.GlobalPaths
import TinySandbox.Specification.Handles
import TinySandbox.Specification.JsonTexts
import TinySandbox.Specification.Loading
import TinySandbox.Specification.SedScripts
import TinySandbox.Specification.ShellGrammar
import TinySandbox.Specification.ShellWords
import TinySandbox.Specification.Streams
import TinySandbox.Specification.StrictStreams
import TinySandbox.Specification.Turns

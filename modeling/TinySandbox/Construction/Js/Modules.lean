/-
This file gives the loader of the guest shim for CommonJS modules.
A module is a finite list of requires, assignments to its exports, and throws.
-/

import TinySandbox.Construction.Js.Codecs

namespace TinySandbox.Js.Guest

section Paths

def slash : UInt16 := 47

/-- The parts of a path are read from left to right. -/
def normalizePart (parts : List CodeUnits) (part : CodeUnits) : List CodeUnits :=
  if part = [] ∨ part = [dot] then parts
  else if part = [dot, dot] then parts.dropLast
  else parts ++ [part]

/-- These are the names that `normalizeAbsolute` keeps, and the host looks for them in the tree. -/
def pathNames (path : CodeUnits) : List CodeUnits := (path.splitOn slash).foldl normalizePart []

def normalizeAbsolute (path : CodeUnits) : CodeUnits :=
  let parts := pathNames path
  if parts = [] then [slash] else slash :: [slash].intercalate parts

def evalPath : CodeUnits := units "[eval]"

structure GuestConfig where
  cwd : CodeUnits
  vfs : Bool

/-- The index of the last slash is zero or missing when nothing stands before it. -/
def dirname (config : GuestConfig) (path : CodeUnits) : CodeUnits :=
  if path = evalPath then config.cwd
  else
    let before := ((normalizeAbsolute path).reverse.dropWhile (· ≠ slash)).tail.reverse
    if before = [] then [slash] else before

def joinPath (dir name : CodeUnits) : CodeUnits :=
  normalizeAbsolute (if dir = [slash] then slash :: name else dir ++ slash :: name)

def isPathSpecifier (specifier : CodeUnits) : Bool :=
  specifier = [dot] || specifier = [dot, dot] || [slash].isPrefixOf specifier ||
    [dot, slash].isPrefixOf specifier || [dot, dot, slash].isPrefixOf specifier

end Paths

section Types
variable (γ : Type)

/-- The values of the guest are all of one type, apart from the objects of the loader. -/
inductive Export where
  | object (module : Nat)
  | timers
  | timersPromises
  | fs
  | fsPromises
  | guest (value : γ)
  deriving DecidableEq

inductive Expression where
  | value (value : γ)
  | require (specifier : CodeUnits)
  deriving DecidableEq

/-- A module assigns to `module.exports` or to a field of the object that it starts with. -/
inductive Action where
  | evaluate (expression : Expression γ)
  | assign (expression : Expression γ)
  | define (name : CodeUnits) (expression : Expression γ)
  | throw (value : γ)
  deriving DecidableEq

/-- A statement that is caught stands in a `try` with an empty `catch`. -/
structure Statement where
  action : Action γ
  caught : Bool
  deriving DecidableEq

inductive LoadError where
  | moduleNotFound (request : CodeUnits) (requireStack : List CodeUnits)
  | bareSpecifier (request : CodeUnits) (requireStack : List CodeUnits)
  | capabilityUnavailable
  | requireDepth
  | host (code : CodeUnits)
  | invalidScript (filename : CodeUnits)
  | invalidJson (filename : CodeUnits)
  | guest (value : γ)
  deriving DecidableEq

/-- This is the text of a file, read as a script and as JSON. -/
structure Source where
  script : Option (List (Statement γ))
  json : Option γ

inductive Stat where
  | missing
  | file
  | directory
  | failed (code : CodeUnits)
  deriving DecidableEq

/-- The host answers from a tree of names that does not change. -/
structure Tree where
  stat : List CodeUnits → Stat
  read : List CodeUnits → Except CodeUnits (Source γ)

structure Module where
  id : CodeUnits
  filename : CodeUnits
  dirname : CodeUnits
  exports : Export γ
  /-- These are the fields of the object that the module starts with. -/
  fields : List (CodeUnits × Export γ)
  loaded : Bool
  parent : Option Nat
  children : List Nat

/-- The loader begins to execute a module, completes it, or sees it throw. -/
inductive LoadEvent where
  | began (path : CodeUnits)
  | completed (path : CodeUnits)
  | threw (path : CodeUnits)
  deriving DecidableEq

/-- The modules are numbered in the order in which they are made. The shim keeps no log. -/
structure Loader where
  modules : List (Module γ)
  moduleCache : CodeUnits → Option Nat
  mainModule : Option Nat
  requireDepth : Nat
  log : List LoadEvent

/-- The guest sees the loader before each of its statements and at the end of each module. -/
structure Moment where
  executing : List Nat
  loader : Loader γ

structure LoadRun where
  loader : Loader γ
  moments : List (Moment γ)

end Types

variable {γ : Type}

def maxRequireDepth : Nat := 256

def LoadError.code : LoadError γ → Option CodeUnits
  | .moduleNotFound _ _ => some (units "MODULE_NOT_FOUND")
  | .bareSpecifier _ _ => some (units "MODULE_NOT_FOUND")
  | .capabilityUnavailable => some (units "ERR_CAPABILITY_UNAVAILABLE")
  | .requireDepth => some (units "ERR_REQUIRE_DEPTH")
  | .host code => some code
  | _ => none

/-- The texts of the other errors come from the host, the engine or the guest. -/
def LoadError.message : LoadError γ → Option CodeUnits
  | .moduleNotFound request stack =>
      some (units "Cannot find module '" ++ request ++ units "'" ++
        if stack = [] then []
        else units "\nRequire stack:\n" ++
          (units "\n").intercalate (stack.map fun path => units "- " ++ path))
  | .bareSpecifier request _ =>
      some (units "Cannot find module '" ++ request ++
        units "': there is no node_modules in tinysandbox")
  | .capabilityUnavailable =>
      some (units "filesystem capability is not available in this runtime")
  | .requireDepth =>
      some (units "Maximum CommonJS require depth of 256 exceeded in tinysandbox")
  | _ => none

namespace Loader

def new : Loader γ where
  modules := []
  moduleCache := fun _ => none
  mainModule := none
  requireDepth := 0
  log := []

def exports (loader : Loader γ) (module : Nat) : Option (Export γ) :=
  loader.modules[module]?.map Module.exports

/-- The chain of parents is followed at most once for each module. -/
def requireChain (loader : Loader γ) : Nat → Option Nat → List CodeUnits
  | 0, _ => []
  | fuel + 1, parent =>
      match parent.bind fun number => loader.modules[number]? with
      | none => []
      | some module =>
          (if module.filename ≠ evalPath then [module.filename] else []) ++
            loader.requireChain fuel module.parent

def requireStack (loader : Loader γ) (parent : Nat) : List CodeUnits :=
  loader.requireChain loader.modules.length (some parent)

/-- The new module has the next number. -/
def createModule (config : GuestConfig) (path : CodeUnits) (parent : Option Nat)
    (loader : Loader γ) : Loader γ :=
  { loader with
    modules := loader.modules ++ [{
      id := path, filename := path, dirname := dirname config path
      exports := .object loader.modules.length, fields := []
      loaded := false, parent, children := [] }] }

def change (module : Nat) (update : Module γ → Module γ) (loader : Loader γ) : Loader γ :=
  { loader with modules := loader.modules.modify module update }

/-- This is what `loadModule` does before it executes the module. -/
def enter (config : GuestConfig) (path : CodeUnits) (parent : Nat) (loader : Loader γ) :
    Loader γ :=
  let number := loader.modules.length
  let created := loader.createModule config path (some parent)
  let adopted :=
    { created with moduleCache := Function.update created.moduleCache path (some number) }.change
      parent fun module => { module with children := module.children ++ [number] }
  { adopted with
    requireDepth := adopted.requireDepth + 1, log := adopted.log ++ [.began path] }

def complete (path : CodeUnits) (number : Nat) (loader : Loader γ) : Loader γ :=
  let loaded := loader.change number fun module => { module with loaded := true }
  { loaded with requireDepth := loaded.requireDepth - 1, log := loaded.log ++ [.completed path] }

/-- A module that throws leaves the cache. -/
def abandon (path : CodeUnits) (loader : Loader γ) : Loader γ :=
  { loader with
    moduleCache := Function.update loader.moduleCache path none
    requireDepth := loader.requireDepth - 1, log := loader.log ++ [.threw path] }

end Loader

namespace LoadRun

def modify (run : LoadRun γ) (change : Loader γ → Loader γ) : LoadRun γ :=
  { run with loader := change run.loader }

def observe (run : LoadRun γ) (executing : List Nat) : LoadRun γ :=
  { run with moments := run.moments ++ [{ executing, loader := run.loader }] }

end LoadRun

section Resolve

def statOrNull (tree : Tree γ) (path : CodeUnits) : Except (LoadError γ) (Option Stat) :=
  match tree.stat (pathNames path) with
  | .missing => .ok none
  | .failed code => .error (.host code)
  | stat => .ok (some stat)

def fileCandidate (tree : Tree γ) (path : CodeUnits) : Except (LoadError γ) (Option CodeUnits) := do
  let stat ← statOrNull tree path
  return if stat = some .file then some (normalizeAbsolute path) else none

/-- The first candidate that is a file is the module, and the ones behind it are not tried. -/
def firstCandidate (tree : Tree γ) : List CodeUnits → Except (LoadError γ) (Option CodeUnits)
  | [] => .ok none
  | path :: paths => do
      match ← fileCandidate tree path with
      | some file => return some file
      | none => firstCandidate tree paths

def resolveIndex (tree : Tree γ) (base : CodeUnits) : Except (LoadError γ) (Option CodeUnits) := do
  let stat ← statOrNull tree base
  if stat = some .directory then fileCandidate tree (joinPath base (units "index.js"))
  else return none

/-- A specifier that names a directory only has no file of its own. -/
def resolveFile (tree : Tree γ) (specifier base : CodeUnits) :
    Except (LoadError γ) (Option CodeUnits) :=
  let directoryOnly := specifier = [dot] || specifier = [dot, dot] || [slash].isSuffixOf specifier
  if directoryOnly then .ok none
  else firstCandidate tree [base, base ++ units ".js", base ++ units ".json"]

def resolveBase (tree : Tree γ) (specifier base : CodeUnits) :
    Except (LoadError γ) (Option CodeUnits) := do
  match ← resolveFile tree specifier base with
  | some file => return some file
  | none => resolveIndex tree base

def resolveModule (tree : Tree γ) (loader : Loader γ) (specifier dir : CodeUnits) (parent : Nat) :
    Except (LoadError γ) CodeUnits :=
  if isPathSpecifier specifier = false then
    .error (.bareSpecifier specifier (loader.requireStack parent))
  else do
    let base :=
      if [slash].isPrefixOf specifier then normalizeAbsolute specifier else joinPath dir specifier
    match ← resolveBase tree specifier base with
    | some file => return file
    | none => throw (.moduleNotFound specifier (loader.requireStack parent))

end Resolve

section Load

/-- There is no outcome when the fuel does not suffice. -/
abbrev Outcome (γ α : Type) := Option (Except (LoadError γ) α × LoadRun γ)

/-- These specifiers need no file, and without the filesystem the others fail. -/
def builtinModule (config : GuestConfig) (specifier : CodeUnits) :
    Option (Except (LoadError γ) (Export γ)) :=
  if specifier = units "timers" then some (.ok .timers)
  else if specifier = units "timers/promises" then some (.ok .timersPromises)
  else if config.vfs = false then some (.error .capabilityUnavailable)
  else if specifier = units "fs" then some (.ok .fs)
  else if specifier = units "fs/promises" then some (.ok .fsPromises)
  else none

/-- A required module is resolved from the directory of the module that requires it. -/
def localRequire (config : GuestConfig) (tree : Tree γ)
    (loadModule : CodeUnits → LoadRun γ → Outcome γ (Export γ)) (module : Nat)
    (specifier : CodeUnits) (run : LoadRun γ) : Outcome γ (Export γ) :=
  match builtinModule config specifier with
  | some result => some (result, run)
  | none =>
      let dir := (run.loader.modules[module]?.map Module.dirname).getD []
      match resolveModule tree run.loader specifier dir module with
      | .error thrown => some (.error thrown, run)
      | .ok path => loadModule path run

variable (require : CodeUnits → LoadRun γ → Outcome γ (Export γ)) (executing : List Nat)
  (module : Nat)

def evaluate (expression : Expression γ) (run : LoadRun γ) : Outcome γ (Export γ) :=
  match expression with
  | .value value => some (.ok (.guest value), run)
  | .require specifier => require specifier run

/-- The value of an expression changes the module, or it throws. -/
def evaluateInto (update : Export γ → Module γ → Module γ) (expression : Expression γ)
    (run : LoadRun γ) : Outcome γ Unit :=
  match evaluate require expression run with
  | none => none
  | some (.error thrown, run) => some (.error thrown, run)
  | some (.ok value, run) => some (.ok (), run.modify (.change module (update value)))

def perform (action : Action γ) (run : LoadRun γ) : Outcome γ Unit :=
  match action with
  | .evaluate expression => evaluateInto require module (fun _ module => module) expression run
  | .assign expression =>
      evaluateInto require module (fun value module => { module with exports := value })
        expression run
  | .define name expression =>
      evaluateInto require module
        (fun value module => { module with fields := module.fields ++ [(name, value)] })
        expression run
  | .throw value => some (.error (.guest value), run)

def runBody : List (Statement γ) → LoadRun γ → Outcome γ Unit
  | [], run => some (.ok (), run.observe executing)
  | statement :: rest, run =>
      match perform require module statement.action (run.observe executing) with
      | none => none
      | some (.ok (), run) => runBody rest run
      | some (.error thrown, run) =>
          if statement.caught then runBody rest run else some (.error thrown, run)

def executeJsModule (path : CodeUnits) (source : Source γ) (run : LoadRun γ) : Outcome γ Unit :=
  match source.script with
  | none => some (.error (.invalidScript path), run)
  | some body => runBody require executing module body run

def executeJsonModule (path : CodeUnits) (source : Source γ) (run : LoadRun γ) : Outcome γ Unit :=
  match source.json with
  | none => some (.error (.invalidJson path), run)
  | some value =>
      some (.ok (), run.modify
        (.change module fun module => { module with exports := .guest value }))

def executeModule (tree : Tree γ) (path : CodeUnits) (run : LoadRun γ) : Outcome γ Unit :=
  match tree.read (pathNames path) with
  | .error code => some (.error (.host code), run)
  | .ok source =>
      if (units ".json").isSuffixOf path then executeJsonModule module path source run
      else executeJsModule require executing module path source run

/-- The modules that are being executed are listed from the inside out. -/
def loadModule (config : GuestConfig) (tree : Tree γ) :
    Nat → List Nat → Nat → CodeUnits → LoadRun γ → Outcome γ (Export γ)
  | 0, _, _, _, _ => none
  | fuel + 1, executing, parent, path, run =>
      match run.loader.moduleCache path with
      | some module => some (.ok ((run.loader.exports module).getD (.object module)), run)
      | none =>
          if maxRequireDepth ≤ run.loader.requireDepth then some (.error .requireDepth, run)
          else
            let module := run.loader.modules.length
            let require :=
              localRequire config tree (loadModule config tree fuel (module :: executing) module)
                module
            match executeModule require (module :: executing) module tree path
              (run.modify (.enter config path parent)) with
            | none => none
            | some (.ok (), run) =>
                let run := run.modify (.complete path module)
                some (.ok ((run.loader.exports module).getD (.object module)), run)
            | some (.error thrown, run) => some (.error thrown, run.modify (.abandon path))

end Load

def makeRequire (config : GuestConfig) (tree : Tree γ) (fuel : Nat) (executing : List Nat)
    (module : Nat) : CodeUnits → LoadRun γ → Outcome γ (Export γ) :=
  localRequire config tree (loadModule config tree fuel executing module) module

def mainFilename (path : CodeUnits) : CodeUnits :=
  if path = evalPath then path else normalizeAbsolute path

/-- This is the loader when the main module is about to run. -/
def Loader.main (config : GuestConfig) (path : CodeUnits) : Loader γ :=
  let filename := mainFilename path
  let created := (Loader.new : Loader γ).createModule config filename none
  let named :=
    if path = evalPath then created
    else created.change 0 fun module => { module with id := [dot] }
  { named with
    mainModule := if path = evalPath then none else some 0
    moduleCache := Function.update named.moduleCache filename (some 0)
    log := named.log ++ [.began filename] }

/-- The entry is an async function, so its outcome is that of a promise, and the main module counts
as loaded in any case. A script that does not compile throws before. -/
def runMain (config : GuestConfig) (tree : Tree γ) (fuel : Nat) (source : Source γ)
    (path : CodeUnits) : Outcome γ Unit :=
  let run : LoadRun γ := { loader := .main config path, moments := [] }
  match source.script with
  | none => some (.error (.invalidScript (mainFilename path)), run)
  | some body =>
      match runBody (makeRequire config tree fuel [0] 0) [0] 0 body run with
      | none => none
      | some (result, run) =>
          some (result, run.modify (.change 0 fun module => { module with loaded := true }))

end TinySandbox.Js.Guest

/-
This file says what the guest may rely on when modules are loaded.
-/

import TinySandbox.Construction.Js.Modules

namespace TinySandbox.Js.Guest

variable {γ : Type}

/-- The text is a normalized absolute path, and the tree has a file there. -/
structure IsFile (tree : Tree γ) (path : CodeUnits) : Prop where
  normal : normalizeAbsolute path = path
  file : tree.stat (pathNames path) = .file

/-- A module that completed does not begin again. -/
def Once (log : List LoadEvent) : Prop :=
  log.Pairwise fun first second => ∀ path, first = .completed path → second ≠ .began path

/-- The module with this number has this file name. -/
def Loader.Names (loader : Loader γ) (number : Nat) (path : CodeUnits) : Prop :=
  loader.modules[number]?.map Module.filename = some path

/-- The cache has the main module, the completed modules and the ones that are being executed, and
no others. -/
structure Consistent (tree : Tree γ) (main : CodeUnits) (executing : List Nat)
    (loader : Loader γ) : Prop where
  depth : executing.length = loader.requireDepth + 1
  keys : ∀ path, loader.moduleCache path ≠ none → path = main ∨ IsFile tree path
  exact : ∀ path, loader.moduleCache path ≠ none ↔
    path = main ∨ .completed path ∈ loader.log ∨ ∃ number ∈ executing, loader.Names number path
  names : ∀ path number, loader.moduleCache path = some number → loader.Names number path
  once : Once loader.log

/-- A specifier is the path of a file from the module that requires it. -/
structure Requests (config : GuestConfig) (tree : Tree γ) (loader : Loader γ) (module : Nat)
    (specifier path : CodeUnits) : Prop where
  outside : (builtinModule config specifier : Option (Except (LoadError γ) (Export γ))) = none
  resolved : resolveModule tree loader specifier
    ((loader.modules[module]?.map Module.dirname).getD []) module = .ok path

/-- A module that has been executed completed, or it is not in the cache. -/
def Loader.Left (loader : Loader γ) (path : CodeUnits) : Except (LoadError γ) (Export γ) → Prop
  | .ok _ => .completed path ∈ loader.log
  | .error _ => loader.moduleCache path = none

/-- Every require ends, and it executes nothing that is in the cache or too deep. -/
structure Answers (config : GuestConfig) (tree : Tree γ) (main : CodeUnits) (moment : Moment γ)
    (module : Nat) (specifier : CodeUnits) : Prop where
  ends : ∀ moments, ∃ result after, (∀ fuel, maxRequireDepth < fuel →
    makeRequire config tree fuel moment.executing module specifier
      { loader := moment.loader, moments } = some (result, after)) ∧
    after.loader.requireDepth = moment.loader.requireDepth ∧
    Consistent tree main moment.executing after.loader ∧
    ∀ path, Requests config tree moment.loader module specifier path →
      moment.loader.moduleCache path = none →
        after.loader.Left path result
  file : ∀ path, Requests config tree moment.loader module specifier path → IsFile tree path
  cached : ∀ path number fuel moments, Requests config tree moment.loader module specifier path →
    moment.loader.moduleCache path = some number →
      ∃ exports, moment.loader.exports number = some exports ∧
        makeRequire config tree (fuel + 1) moment.executing module specifier
          { loader := moment.loader, moments } =
            some (.ok exports, { loader := moment.loader, moments })
  deep : ∀ path fuel moments, Requests config tree moment.loader module specifier path →
    moment.loader.moduleCache path = none → moment.loader.requireDepth = maxRequireDepth →
      makeRequire config tree (fuel + 1) moment.executing module specifier
        { loader := moment.loader, moments } =
          some (.error .requireDepth, { loader := moment.loader, moments })

end TinySandbox.Js.Guest

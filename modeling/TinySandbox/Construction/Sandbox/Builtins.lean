/-
This file gives the commands of the shell itself, and the two ways in which they are run.
What the filesystem answers about a path is a parameter.
-/

import TinySandbox.Construction.Sandbox.Exec
import TinySandbox.Construction.Sandbox.JsGlobals

namespace TinySandbox.Sandbox
open Library Shell

/-- The first `=` separates the name of a variable from its value. -/
def splitAssignment (arg : Text) : Option (Text × Text) :=
  if '=' ∈ arg then some (arg.takeWhile (· ≠ '='), (arg.dropWhile (· ≠ '=')).drop 1) else none

/-- The session and the environment of the command, and what was written so far. -/
structure ShellBuiltinContext where
  session : Session
  env : Env
  stdout : Text := []
  stderr : Text := []

namespace ShellBuiltinContext

def complain (ctx : ShellBuiltinContext) (line : Text) : Int × ShellBuiltinContext :=
  (1, { ctx with stderr := ctx.stderr ++ line })

def setEnv (ctx : ShellBuiltinContext) (name value : Text) : ShellBuiltinContext :=
  { ctx with
    session := { ctx.session with env := ctx.session.env.insert name value }
    env := ctx.env.insert name value }

end ShellBuiltinContext

def cdTarget (args : List Text) (env : Env) : Option Text :=
  args.head? <|> env.get "HOME".toList

def enterDirectory (path : Text) (ctx : ShellBuiltinContext) : Int × ShellBuiltinContext :=
  let oldPwd := ctx.session.cwd
  let moved := { ctx with session := { ctx.session with cwd := path } }
  (0, (moved.setEnv "OLDPWD".toList oldPwd).setEnv "PWD".toList path)

def cdError (target message : Text) : Text :=
  "cd: ".toList ++ target ++ ": ".toList ++ message ++ ['\n']

def runCd (fs : Fs) (stat : Text → VfsResult Metadata) (args : List Text)
    (ctx : ShellBuiltinContext) : Int × ShellBuiltinContext :=
  if 1 < args.length then ctx.complain "cd: too many arguments\n".toList
  else
    match cdTarget args ctx.session.env with
    | none => ctx.complain "cd: HOME not set\n".toList
    | some target =>
        match stat (fs.resolve target) with
        | .ok metadata =>
            if metadata.fileType = .directory then enterDirectory (fs.resolve target) ctx
            else ctx.complain (cdError target "Not a directory".toList)
        | .error error => ctx.complain (cdError target (errnoMessage error).toList)

def exportLine (entry : Text × Text) : Text :=
  "declare -x ".toList ++ entry.1 ++ "=\"".toList ++ entry.2 ++ "\"\n".toList

def exportListing (env : Env) : Text := env.entries.flatMap exportLine

def invalidIdentifier (command arg : Text) : Text :=
  command ++ ": `".toList ++ arg ++ "': not a valid identifier\n".toList

/-- The arguments before an invalid one stay exported. -/
def exportArgs : List Text → ShellBuiltinContext → Int × ShellBuiltinContext
  | [], ctx => (0, ctx)
  | arg :: rest, ctx =>
      match splitAssignment arg with
      | some (name, value) =>
          if isAssignmentName name then exportArgs rest (ctx.setEnv name value)
          else ctx.complain (invalidIdentifier "export".toList arg)
      | none =>
          if isAssignmentName arg then
            let env := if (ctx.session.env.get arg).isSome then ctx.session.env
              else ctx.session.env.insert arg []
            exportArgs rest { ctx with session := { ctx.session with env } }
          else ctx.complain (invalidIdentifier "export".toList arg)

def runExport (args : List Text) (ctx : ShellBuiltinContext) : Int × ShellBuiltinContext :=
  if args = [] then (0, { ctx with stdout := ctx.stdout ++ exportListing ctx.session.env })
  else exportArgs args ctx

def unsetArgs : List Text → ShellBuiltinContext → Int × ShellBuiltinContext
  | [], ctx => (0, ctx)
  | arg :: rest, ctx =>
      if isAssignmentName arg then
        unsetArgs rest { ctx with
          session := { ctx.session with env := ctx.session.env.erase arg }
          env := ctx.env.erase arg }
      else ctx.complain (invalidIdentifier "unset".toList arg)

def runShellBuiltinStage (fs : Fs) (stat : Text → VfsResult Metadata) (builtin : ShellBuiltin)
    (args : List Text) (ctx : ShellBuiltinContext) : Int × ShellBuiltinContext :=
  match builtin with
  | .cd => runCd fs stat args ctx
  | .export => runExport args ctx
  | .unset => unsetArgs args ctx

/-- A host whose builtins are these, when the filesystem answers by its world. -/
def ExecHost.withBuiltins {ω : Type} (host : ExecHost ω) (fs : Fs)
    (stat : ω → Text → Text → VfsResult Metadata) : ExecHost ω :=
  { host with
    runBuiltin := fun builtin args session env world =>
      let (status, ctx) := runShellBuiltinStage { fs with cwd := session.cwd }
        (stat world session.cwd) builtin args { session, env }
      ((status, ctx.session, ctx.stdout, ctx.stderr), world) }

end TinySandbox.Sandbox

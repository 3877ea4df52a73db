/-
This file compares the builtins of the shell alone and as the last stage of a pipeline. A pipeline
runs a builtin on a session that is made of the environment of the stage.
-/

import TinySandbox.Construction.Sandbox.Builtins
import TinySandbox.Library.Text

namespace TinySandbox.Sandbox
open Library Shell

/-! ## The two ways -/

/-- A command alone works on the session. -/
def aloneContext (session : Session) (env : Env) : ShellBuiltinContext where
  session := session
  env := env

/-- A stage makes a session of its environment. -/
def pipelineContext (cwd : Text) (env : Env) : ShellBuiltinContext where
  session := {
    cwd
    env
    lastStatus := ((env.get ['?']).bind fun text => (String.ofList text).toInt?).getD 0 }
  env := env

/-- The status and the two outputs. -/
def observed (ended : Int × ShellBuiltinContext) : Int × Text × Text :=
  (ended.1, ended.2.stdout, ended.2.stderr)

section Cd
variable {fs : Fs} {stat : Text → VfsResult Metadata}

end Cd

/-! ## The listing of `export` -/

section Session
variable {ω α β : Type} {host : ExecHost ω}

def KeepsSession (task : Exec ω α) : Prop :=
  ∀ current, (task current).2.session = current.session

theorem KeepsSession.bind {task : Exec ω α} {next : α → Exec ω β} (keeps : KeepsSession task)
    (rest : ∀ value, KeepsSession (next value)) : KeepsSession (task >>= next) := by
  intro current
  exact (rest _ (task current).2).trans (keeps current)

end Session

/-! ## What the callers write -/

section Callers
variable {ω : Type} (host : ExecHost ω) (fs : Fs) (stat : ω → Text → Text → VfsResult Metadata)

/-- Alone the command writes both outputs and keeps its status. -/
theorem runShellBuiltin_withBuiltins (name : Text) (args : List Text) (env : Env)
    (redirects : PreparedRedirects) (builtin : ShellBuiltin) (current : Execution ω) :
    runShellBuiltin (host.withBuiltins fs stat) name args env redirects builtin current =
      (do
        Exec.note (.ran name)
        let ended := runShellBuiltinStage { fs with cwd := current.session.cwd }
          (stat current.exec.world current.session.cwd) builtin args
          (aloneContext current.session env)
        Exec.setSession ended.2.session
        closeStdinRedirect host redirects.stdin
        let _ ← Exec.ask (host.writeAll redirects.stdout (observed ended).2.1)
        let _ ← Exec.ask (host.writeAll redirects.stderr (observed ended).2.2)
        pure (observed ended).1 : Exec ω Int) current := by
  rcases redirects with ⟨stdin, stdout, stderr⟩
  cases stdin <;> rfl

/-- In a pipeline the status is that of a failure when an output cannot be written. -/
theorem runBuiltinStage_withBuiltins (stage : PreparedStage) (builtin : ShellBuiltin)
    (current : Execution ω) :
    runBuiltinStage (host.withBuiltins fs stat) stage builtin current =
      (do
        Exec.note (.ran stage.name)
        let ended := runShellBuiltinStage { fs with cwd := stage.cwd }
          (stat current.exec.world stage.cwd) builtin stage.args
          (pipelineContext stage.cwd stage.env)
        if ← Exec.ask (host.writeAll stage.redirects.stdout (observed ended).2.1) then
          if ← Exec.ask (host.writeAll stage.redirects.stderr (observed ended).2.2) then
            pure { exitCode := (observed ended).1 }
          else pure { exitCode := 1 }
        else pure { exitCode := 1 } : Exec ω CommandResult) current :=
  rfl

end Callers

end TinySandbox.Sandbox

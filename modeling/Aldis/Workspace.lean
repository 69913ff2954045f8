import Aldis.Host.Call

/-!
# The directories of one run
-/

namespace Aldis

open Interaction Text

structure RunWorkspace where
  root : Path
  deriving DecidableEq

structure WorkspaceBuildPaths where
  configPath : Path
  artifactPath : Path
  deriving DecidableEq

namespace RunWorkspace

/-- The directory name of a target: its bytes in hexadecimal. -/
def targetId (targetName : Str) : Str :=
  (utf8 targetName).flatMap fun byte => List.leftpad 2 '0' (hex byte.toNat)

/-- Reserves separate directories for the Kconfig and the artifact of one target. -/
def buildPaths (workspace : RunWorkspace) (targetName : Str) :
    HostAttempt WorkspaceError WorkspaceBuildPaths := do
  if targetName = [] then throw .emptyTargetName
  let configDir := Path.join (Path.join workspace.root "targets") (targetId targetName)
  let artifactDir := Path.join (Path.join workspace.root "artifacts") (targetId targetName)
  check (← fileCall (.createDirAll configDir))
    fun error => .io "create the target configuration directory" error.cause
  check (← fileCall (.createDirAll artifactDir))
    fun error => .io "create the artifact directory" error.cause
  return ⟨Path.join configDir ".config", Path.join artifactDir "klipper"⟩

end RunWorkspace
end Aldis

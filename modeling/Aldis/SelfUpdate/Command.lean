import Aldis.SelfUpdate
import Aldis.Cli.Call

/-!
# The self-update command

The latest release is downloaded, checked against the manifest that is published with it, unpacked
in a new directory, which does not outlive the command, and put in the place of the running binary.
Where the agent is installed and running, it is restarted.
-/

namespace Aldis.SelfUpdate

open Interaction Text Octets

def AGENT_UNIT_PATH : Path := "/etc/systemd/system/aldis.service"

def AGENT_SERVICE : Str := "aldis"

def AGENT_STATUS_COMMAND : List Str := ["/bin/systemctl", "is-active", AGENT_SERVICE]

def AGENT_RESTART_COMMAND : List Str := ["/bin/systemctl", "restart", AGENT_SERVICE]

inductive Call where
  | latestRelease
  | downloadChecksums (tag : Str)
  | downloadArchive (tag platform : Str)
  | createWorkspace
  | removeWorkspace (dir : Path)
  | write (path : Path) (content : Bytes)
  | command (command : BuildCommand)
  | pathExists (path : Path)
  | currentExe
  | copy (source destination : Path)
  | mode (path : Path)
  | setMode (path : Path) (mode : ℕ)
  | rename (source destination : Path)
  | ui (call : Cli.UiCall)

abbrev Answer : Call → Type
  | .latestRelease => Except Cause Str
  | .downloadChecksums _ => Except Cause Str
  | .downloadArchive _ _ => Except Cause Bytes
  | .createWorkspace => Except Cause Path
  | .removeWorkspace _ => Unit
  | .write _ _ => Except Cause Unit
  | .command _ => Except CommandError CommandOutput
  | .pathExists _ => Bool
  | .currentExe => Except Cause Path
  | .copy _ _ => Except Cause Unit
  | .mode _ => Except Cause ℕ
  | .setMode _ _ => Except Cause Unit
  | .rename _ _ => Except Cause Unit
  | .ui call => Cli.UiAnswer call

abbrev UpdateProgram := Program Answer

abbrev UpdateAttempt := Attempt Answer Cause

section Calls

variable {α : Type}

def ask (call : Call) : UpdateAttempt (Answer call) := Attempt.perform call

def ui (call : Cli.UiCall) : UpdateAttempt (Cli.UiAnswer call) := ask (.ui call)

/-- Continues with a value, and fails with an error and what was being done. -/
def context (text : Str) (answer : Except Cause α) : UpdateAttempt α :=
  Attempt.ofExcept (answer.mapError (.headline text))

end Calls

/-- A version that cannot be read is taken to be up to date. -/
def isUpToDate (V : Type) [Semver V] (currentVersion latestTag : Str) : Bool :=
  match (Semver.parse currentVersion : Option V),
    (Semver.parse (latestTag.dropWhile (· == 'v')) : Option V) with
  | some current, some latest => decide (latest ≤ current)
  | _, _ => true

def targetPlatform (arch : Str) : Except Cause Str :=
  if arch = "x86_64" then .ok "x86_64-linux"
  else if arch = "aarch64" then .ok "aarch64-linux"
  else if arch = "arm" then .ok "armv7l-linux"
  else .error (.leaf ("no published release archive for host architecture " ++ quoted arch))

def archiveName (platform : Str) : Str := "aldis-" ++ platform ++ ".tar.xz"

section Install

/-- The archive's own wrapper directory is stripped. -/
def extractCommand (archive destDir : Path) : BuildCommand where
  program := "tar"
  arguments := ["xJf", archive, "-C", destDir, "--strip-components=1"]
  currentDir := none
  stdin := none

def extractBinary (archive destDir : Path) : UpdateAttempt Path := do
  let extracted ← ask (.command (extractCommand archive destDir))
  let output ← context "could not extract the downloaded archive"
    (extracted.mapError CommandError.cause)
  if output.success then
    if ← ask (.pathExists (Path.join destDir "aldis")) then return Path.join destDir "aldis"
    else throw (.leaf "downloaded archive did not contain an aldis binary")
  else throw (.leaf ("tar failed: " ++ trim output.stderr))

/-- The new binary is staged beside the old one, so that the last step renames within one
directory. -/
def stagedIn (parent : Path) : Path := Path.join parent ".aldis.new"

def installBinaryImpl (newBinary currentExe : Path) : UpdateAttempt Unit :=
  match Path.parent currentExe with
  | none => throw (.leaf "current executable has no parent directory")
  | some parent => do
    Attempt.ofExcept (← ask (.copy newBinary (stagedIn parent)))
    let mode ← Attempt.ofExcept (← ask (.mode (stagedIn parent)))
    Attempt.ofExcept (← ask (.setMode (stagedIn parent) (mode ||| 0o111)))
    Attempt.ofExcept (← ask (.rename (stagedIn parent) currentExe))

def installBinary (newBinary currentExe : Path) : UpdateAttempt Unit :=
  ExceptT.adapt (.headline "could not install the new binary")
    (installBinaryImpl newBinary currentExe)

end Install

section Restart

inductive RestartOutcome where
  | restarted
  | notRunning
  | couldNotRestart
  deriving DecidableEq

/-- Only an agent that is active is restarted; where that cannot be told, it is left alone. -/
def restartAgentIfRunning : UpdateProgram RestartOutcome := do
  match ← Program.perform (Call.command (.sudo AGENT_STATUS_COMMAND none)) with
  | .error _ => return .couldNotRestart
  | .ok output =>
    if trim output.stdout = "active" then
      match ← Program.perform (Call.command (.sudo AGENT_RESTART_COMMAND none)) with
      | .ok output => return if output.success then .restarted else .couldNotRestart
      | .error _ => return .couldNotRestart
    else if (["inactive", "failed", "activating", "deactivating", "reloading"] : List Str).contains
        (trim output.stdout) then return .notRunning
    else return .couldNotRestart

def reportRestart : RestartOutcome → UpdateAttempt Unit
  | .restarted => ui (.block "restarted the aldis agent onto the new version\n")
  | .notRunning => return ()
  | .couldNotRestart => ui (.block ("the aldis agent keeps running the previous version until " ++
      "restarted: use Fluidd's service menu or run `sudo systemctl restart aldis`\n"))

def restartAgent : UpdateAttempt Unit := do
  if ← ask (.pathExists AGENT_UNIT_PATH) then
    reportRestart (← ExceptT.lift restartAgentIfRunning)

end Restart

variable (V : Type) [Semver V] (sha256 : Bytes → Bytes)

/-- The manifest comes first: a release without one, or without this archive in it, is refused
before the archive is fetched. -/
def fetchArchive (tag platform : Str) : UpdateAttempt Bytes := do
  ui (.begin ("downloading " ++ tag))
  let manifest ← context ("failed to download the release's " ++ CHECKSUMS_FILE)
    (← ask (.downloadChecksums tag))
  let expected ← context "the release does not publish a usable checksum for this archive"
    ((expectedChecksum manifest (archiveName platform)).mapError fun e => .leaf e.display)
  let archive ← context "failed to download the release archive"
    (← ask (.downloadArchive tag platform))
  ui (.finishSuccess ("downloaded " ++ decimal archive.length ++ " bytes"))
  ui (.begin "verifying")
  context "refusing to install the downloaded archive"
    ((verifyChecksum sha256 (archiveName platform) archive expected).mapError fun e =>
      .leaf e.display)
  ui (.finishSuccess ("SHA-256 matches the release's " ++ CHECKSUMS_FILE))
  return archive

/-- Works in a new directory, which is removed however the work ends. -/
def inWorkspace (work : Path → UpdateAttempt Unit) : UpdateAttempt Unit := do
  let workspace ← context "could not create a temporary directory" (← ask .createWorkspace)
  let ended ← ExceptT.lift (work workspace).run
  ask (.removeWorkspace workspace)
  Attempt.ofExcept ended

def unpackArchive (workspace : Path) (archive : Bytes) : UpdateAttempt Path := do
  context "could not write the downloaded archive"
    (← ask (.write (Path.join workspace "aldis.tar.xz") archive))
  ui (.begin "extracting")
  let extracted ← ExceptT.adapt (.headline "failed to extract the downloaded archive")
    (extractBinary (Path.join workspace "aldis.tar.xz") workspace)
  ui (.finishSuccess "extracted")
  return extracted

def installRelease (tag : Str) (extracted : Path) : UpdateAttempt Unit := do
  let currentExe ← context "could not determine the running executable's path"
    (← ask .currentExe)
  ui (.begin "installing")
  ExceptT.adapt (.headline "failed to install the new binary") (installBinary extracted currentExe)
  ui (.finishSuccess ("installed aldis " ++ tag))

/-- The command of version `current` on a host of architecture `arch`. -/
def runSelfUpdate (current arch : Str) (check : Bool) : UpdateAttempt Unit := do
  ui (.action "checking for a newer aldis release")
  let tag ← context "failed to check for a newer release" (← ask .latestRelease)
  if isUpToDate V current tag then
    ui (.block ("aldis " ++ current ++ " is already up to date\n"))
    ui (.action "run completed successfully: already up to date")
  else if check then
    ui (.block ("a newer release is available: " ++ current ++ " -> " ++ tag ++ "\n"))
    ui (.action "run completed successfully: update available")
  else do
    let platform ← context "cannot self-update on this platform" (targetPlatform arch)
    let archive ← fetchArchive sha256 tag platform
    inWorkspace fun workspace => do
      let extracted ← unpackArchive workspace archive
      installRelease tag extracted
      restartAgent
      ui (.action "run completed successfully")

end Aldis.SelfUpdate

import Aldis.Build.Request
import Aldis.Host.Call
import Aldis.KconfigMake

/-!
# Klipper's build pipeline

Klipper's Kconfig and firmware commands in the checkout, and the copy of what they produce. The
Kconfig is validated before anything is written.
-/

namespace Aldis

open Interaction World Text

/-- Builds in a checkout of Klipper; `unicode` is whether its path is valid UTF-8. -/
structure KlipperBuilder where
  sourceDir : Path
  unicode : Bool
  deriving DecidableEq

section Files

variable {ε : Type}

def createDirAll (path : Path) (wrap : Cause → ε) : HostAttempt ε Unit := do
  check (← fileCall (.createDirAll path)) fun error => wrap error.cause

def writeFile (path : Path) (content : Octets.Bytes) (wrap : Cause → ε) : HostAttempt ε Unit := do
  check (← fileCall (.write path content)) fun error => wrap error.cause

/-- An unchanged file is left alone, and with it what `make` knows of its age. -/
def writeIfChanged (path : Path) (content : Str) (wrap : Cause → ε) : HostAttempt ε Unit := do
  match (← fileCall (.readToString path) : Except IoError Str) with
  | .ok existing => if existing = content then return () else writeFile path (utf8 content) wrap
  | .error _ => writeFile path (utf8 content) wrap

def removeIfPresent (path : Path) (wrap : Cause → ε) : HostAttempt ε Unit := do
  match (← fileCall (.removeFile path) : Except IoError Unit) with
  | .ok () => return ()
  | .error error => if error.notFound then return () else throw (wrap error.cause)

end Files

namespace KlipperBuilder

variable (builder : KlipperBuilder)

def runMake (arguments : List Str) : HostAttempt BuildError Unit := do
  let command : BuildCommand := ⟨"make", arguments, some builder.sourceDir, none⟩
  let output ← check (← run .build command) (.commandPort command)
  if output.success then return () else throw (.commandFailed command output)

def copyArtifact (request : BuildRequest) (artifactParent : Path) (expandedKconfig : Str) :
    HostAttempt BuildError BuildArtifact := do
  createDirAll artifactParent (.io "create the artifact directory")
  let source := Path.join builder.sourceDir (outputArtifactName expandedKconfig)
  let destination := match Path.extension source with
    | some extension => Path.withExtension request.artifactPath extension
    | none => request.artifactPath
  check (← fileCall (.copy source destination))
    fun error => .io "copy Klipper's firmware artifact" error.cause
  let byteCount ← check (← fileCall (.fileLength destination))
    fun error => .io "read the copied firmware artifact" error.cause
  return ⟨destination, byteCount, expandedKconfig⟩

def buildWithProgress (request : BuildRequest) (progress : BuildProgress → HostProgram Unit) :
    HostAttempt BuildError BuildArtifact := do
  -- Before anything is written: the checkout's `.config` is what make includes.
  check (Kconfig.validate request.kconfig) .untrustedKconfig
  let configParent ← require (Path.parent request.configPath)
    (.invalidRequest "config_path must have a parent directory")
  let artifactParent ← require (Path.parent request.artifactPath)
    (.invalidRequest "artifact_path must have a parent directory")
  createDirAll configParent (.io "create the temporary Kconfig directory")
  writeFile request.configPath (utf8 request.kconfig) (.io "write the temporary Kconfig")
  let checkoutConfigPath := Path.join builder.sourceDir ".config"
  writeIfChanged checkoutConfigPath request.kconfig (.io "write Klipper's build Kconfig")
  let configArgument ← require
    (if builder.unicode then some (kconfigArgument checkoutConfigPath) else none)
    (.invalidRequest "the Klipper checkout path must be valid UTF-8 for Make")
  if request.clean then builder.runMake ["clean"]
  ExceptT.lift (progress .configuring)
  builder.runMake ["olddefconfig", configArgument]
  let expandedKconfig ← check (← fileCall (.readToString checkoutConfigPath))
    fun error => .io "read the expanded Kconfig" error.cause
  writeFile request.configPath (utf8 expandedKconfig) (.io "record the expanded Kconfig")
  ExceptT.lift (progress .compiling)
  removeIfPresent (Path.join builder.sourceDir "out/compile_time_request.o")
    (.io "discard Klipper's stale version object")
  let jobs ← Attempt.perform HostCall.parallelJobs
  builder.runMake [configArgument, "-j" ++ decimal jobs]
  builder.copyArtifact request artifactParent expandedKconfig

/-- A Kconfig that is not accepted ends the build before its first call. -/
theorem runs_of_rejected {request : BuildRequest} {progress : BuildProgress → HostProgram Unit}
    {tr : List Event} {result : Except BuildError BuildArtifact}
    {error : Kconfig.InvalidKconfig} (he : Kconfig.validate request.kconfig = .error error)
    (h : Runs (builder.buildWithProgress request progress).run tr result) :
    tr = [] ∧ result = .error (.untrustedKconfig error) := by
  unfold buildWithProgress at h
  rw [he] at h
  exact runs_pure_iff.1 h

end KlipperBuilder

/-- Make reads an accepted Kconfig as plain settings only, and never runs on another one. -/
theorem kconfig_injection_free :
    (∀ kconfig : Str, Kconfig.validate kconfig = .ok () →
      (∀ line ∈ kconfig.splitOn '\n', Make.continues line = false) ∧
        ∀ statement ∈ Make.read kconfig, Kconfig.Plain statement) ∧
    ∀ (builder : KlipperBuilder) (request : BuildRequest)
      (progress : BuildProgress → HostProgram Unit) (tr : List Event)
      (result : Except BuildError BuildArtifact), Kconfig.validate request.kconfig ≠ .ok () →
      Runs (builder.buildWithProgress request progress).run tr result →
      ∀ runner command answer, (⟨.run runner command, answer⟩ : Event) ∉ tr := by
  refine ⟨fun kconfig h => Kconfig.read_plain h, ?_⟩
  intro builder request progress tr result hrejected hruns runner command answer hmem
  cases he : Kconfig.validate request.kconfig with
  | ok u => exact hrejected he
  | error error =>
    obtain ⟨rfl, -⟩ := builder.runs_of_rejected he hruns
    exact List.not_mem_nil hmem

def shellRequest : BuildRequest where
  kconfig := "CONFIG_MACH_STM32=$(shell id)"
  configPath := "/run/targets/6d/.config"
  artifactPath := "/run/artifacts/6d/klipper"
  clean := false

theorem kconfig_injection_free_on_shell_request :
    (∀ statement ∈ Make.read ("CONFIG_MACH_STM32=y\n# comment\n" : Str),
      Kconfig.Plain statement) ∧
    ∀ runner command answer, (⟨.run runner command, answer⟩ : Event) ∉ ([] : List Event) :=
  ⟨(kconfig_injection_free.1 _ (by decide)).2,
    kconfig_injection_free.2 ⟨"/klipper", true⟩ shellRequest (fun _ => .pure ()) []
      (.error (.untrustedKconfig (.line 1
        "value is not y, n, m, a number, or a safe quoted string"
        "CONFIG_MACH_STM32=$(shell id)")))
      (by decide) (.pure _)⟩

end Aldis

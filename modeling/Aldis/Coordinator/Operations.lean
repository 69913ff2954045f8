import Aldis.Build.Builder
import Aldis.Flash.System
import Aldis.Service.Control
import Aldis.Workspace

/-!
# The coordinator

The service boundary around builds and flashes: Klipper is stopped before either, and restored
only where its first observed state and the failure permit. The coordinator's cell, whether the
first observed state was active, is passed along and returned.
-/

namespace Aldis

open Interaction Text Octets

structure PendingBuild where
  prepared : PreparedBuild
  deriving DecidableEq

structure ApprovedBuild where
  pending : PendingBuild
  deriving DecidableEq

def PendingBuild.approve (pending : PendingBuild) : ApprovedBuild := ⟨pending⟩

/-- The cell's value after an operation, and the operation's result. -/
abbrev Observed (ε α : Type) := Option Bool × Except ε α

namespace Observed

variable {ε ε' α β : Type}

/-- Continues after an operation that did not fail. -/
def andThen (x : HostProgram (Observed ε α)) (f : α → HostAttempt ε β) :
    HostProgram (Observed ε β) := do
  match ← x with
  | (first, .ok a) => return (first, ← (f a).run)
  | (first, .error error) => return (first, .error error)

def adapt (wrap : ε → ε') (x : HostProgram (Observed ε α)) : HostProgram (Observed ε' α) := do
  let (first, result) ← x
  return (first, result.mapError wrap)

end Observed

structure BuildCoordinator where
  builder : KlipperBuilder
  unit : KlipperUnit
  arch : TargetArch

structure CompletedUpdate where
  artifact : BuildArtifact
  flash : FlashResult
  deriving DecidableEq

namespace BuildCoordinator

variable (coordinator : BuildCoordinator) (sha1 : Bytes → Bytes) (options : SystemFlashOptions)
  (name : Str)

def prepare (inventory : McuInventory) (workspace : RunWorkspace) (targetName : Str)
    (clean : Bool) : HostAttempt CoordinatorError PendingBuild := do
  let paths ← ExceptT.adapt .workspace (workspace.buildPaths targetName)
  let prepared ← check
    (prepareBuild inventory targetName paths.configPath paths.artifactPath clean) .preparation
  return ⟨prepared⟩

/-- The rest of `ensureKlipperStopped`, once the state is known. -/
def stopObserved (state : ServiceState) : HostAttempt CoordinatorError Unit := do
  match state with
  | .active =>
    hook (.progress name .stoppingKlipper)
    ExceptT.adapt .service (KlipperService.stop coordinator.unit)
    match ← ExceptT.adapt .service (KlipperService.state coordinator.unit) with
    | .inactive => return ()
    | state => throw (.unexpectedKlipperState state)
  | .inactive => return ()
  | state => throw (.unexpectedKlipperState state)

def ensureKlipperStopped (first : Option Bool) : HostProgram (Observed CoordinatorError Unit) := do
  match ← (KlipperService.state coordinator.unit).run with
  | .error error => return (first, .error (.service error))
  | .ok state =>
    let result ← (coordinator.stopObserved name state).run
    return (first.or (some (decide (state = .active))), result)

def executeWithProgress (first : Option Bool) (approved : ApprovedBuild) :
    HostProgram (Observed CoordinatorError BuildArtifact) :=
  Observed.andThen (coordinator.ensureKlipperStopped name first) fun _ =>
    ExceptT.adapt .build (coordinator.builder.buildWithProgress approved.pending.prepared.request
      fun stage => Program.perform (HostCall.hook (.progress name (buildProgress stage))))

/-- Builds `approved` and reads the artifact back, with the Kconfig the build actually used. -/
def buildForFlash (first : Option Bool) (approved : ApprovedBuild) :
    HostProgram (Observed FlashCoordinatorError (PreparedBuild × BuildArtifact × Bytes)) :=
  Observed.andThen
    (Observed.adapt .coordinator (coordinator.executeWithProgress name first approved))
    fun artifact => do
      let prepared := approved.pending.prepared
      let prepared := { prepared with
        request := { prepared.request with kconfig := artifact.kconfig } }
      let firmware ← check (← fileCall (.read artifact.path)) fun error => .artifact error.cause
      return (prepared, artifact, firmware)

def executeAndFlashSystem (first : Option Bool) (approved : ApprovedBuild) :
    HostProgram (Observed FlashCoordinatorError CompletedUpdate) :=
  Observed.andThen (coordinator.buildForFlash name first approved)
    fun (prepared, artifact, firmware) => do
    let flash ← ExceptT.adapt .flash
      (flashPreparedSystem sha1 options name coordinator.arch prepared firmware)
    return ⟨artifact, flash⟩

variable {V : Type}

def flashByProtocol (prepared : PreparedBuild) :
    Protocol V → HostAttempt SystemFlashError FlashResult
  | .katapult image applicationStart links =>
    flashPrebuiltKatapult sha1 options name prepared image applicationStart links
  | .beaconDfu image => flashBeacon options name prepared image

/-- Flashes prebuilt firmware to the approved MCU; a request for another MCU is refused before
Klipper is stopped. -/
def flashPrebuilt (first : Option Bool) (approved : ApprovedBuild) (request : FlashRequest V) :
    HostProgram (Observed FlashCoordinatorError FlashResult) :=
  let prepared := approved.pending.prepared
  if ¬ request.destination.is prepared then
    return (first, .error (.coordinator
      (.requestForAnotherMcu request.destination.name prepared.targetName)))
  else
    Observed.andThen (Observed.adapt .coordinator (coordinator.ensureKlipperStopped name first))
      fun _ => ExceptT.adapt .flash (flashByProtocol sha1 options name prepared request.protocol)

def startAndVerify : HostAttempt CoordinatorError Unit := do
  ExceptT.adapt .service (KlipperService.start coordinator.unit)
  match ← ExceptT.adapt .service (KlipperService.state coordinator.unit) with
  | .active => return ()
  | state => throw (.unexpectedKlipperState state)

def startAfterBatch : HostAttempt CoordinatorError Unit := coordinator.startAndVerify

/-- Starts Klipper only if it was active when the coordinator first observed its state. -/
def restoreAfterFailure (first : Option Bool) : HostAttempt CoordinatorError Unit :=
  if first ≠ some true then return () else coordinator.startAndVerify

end BuildCoordinator
end Aldis

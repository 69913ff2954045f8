import Aldis.Prebuilt.Prepare
import Aldis.UpdateRun.Report
import Aldis.UpdateRun.Wait

/-!
# The update loop

Builds, or acquires, and flashes each approved target in order, then starts Klipper and waits
for every updated MCU. The first failure ends the run.
-/

namespace Aldis

open Interaction Text Octets

/-- What one run is given: the coordinator, what was discovered, and the targets in flashing
order, each with its target version. -/
structure UpdateRun (V : Type) where
  coordinator : BuildCoordinator
  inventory : McuInventory
  workspace : RunWorkspace
  targets : List Str
  targetVersions : TargetVersions V
  clean : Bool
  sha1 : Bytes → Bytes
  sha256 : Bytes → Bytes

def standardFlashOptions : SystemFlashOptions where
  baudRate := 250000
  bootloaderTimeout := 10000
  pollInterval := 50
  hostMcuUnitFile := HOST_MCU_UNIT_FILE

namespace UpdateRun

/-- What the loop carries from one target to the next. -/
structure RunState where
  firstObservedActive : Option Bool
  updated : List Str
  printerChecked : Bool
  deriving DecidableEq

def RunState.start : RunState := ⟨none, [], false⟩

section Failures

variable {α : Type}

def failWithDetail (detail message : Str) (mcu : Option Str) (updated : List Str) :
    HostAttempt RunFailure α := do
  hook (.failed detail)
  throw ⟨message, detail, mcu, updated⟩

def fail (message : Str) (mcu : Option Str) (updated : List Str) : HostAttempt RunFailure α :=
  failWithDetail message message mcu updated

/-- A failure after firmware was written, while Klipper is still stopped for the run. -/
def postFlashFailure (detail : Str) (mcu : Option Str) (updated : List Str) :
    HostAttempt RunFailure α :=
  failWithDetail detail (failureMessage .update detail none) mcu updated

end Failures

variable {V : Type} [Semver V] (J : Type) [DictionaryReader J] (run : UpdateRun V)

/-- After a flash: the wait for the MCU's application, or the restore that the failure allows. -/
def concludeFlash (name : Str) (mcu : Mcu) (state : RunState)
    (flashed : Observed FlashCoordinatorError FlashResult) : HostAttempt RunFailure RunState := do
  match flashed with
  | (first, .ok flash) =>
    hook (.flashed name mcu.kconfig flash.paddedBytes)
    hook (.stepStarted .waitForApplication)
    match ← ExceptT.lift (waitForApplication mcu).run with
    | .error message => postFlashFailure message (some name) state.updated
    | .ok () =>
      hook (.stepSucceeded .waitForApplication)
      return { state with firstObservedActive := first, updated := state.updated ++ [name] }
  | (first, .error error) =>
    Attempt.perform (HostCall.flashFailed error)
    let restore ← if error.allowsKlipperRestore then
        some <$> ExceptT.lift (run.coordinator.restoreAfterFailure first).run
      else pure none
    let detail := failureDetail .update error
    failWithDetail detail (failureMessage .update detail restore) (some name) state.updated

/-- Prepares the firmware of an approved target and flashes it. -/
def flashTarget (name : Str) (mcu : Mcu) (pending : PendingBuild) (state : RunState) :
    HostAttempt RunFailure RunState := do
  match Prebuilt.prepareAutomatic J run.sha256 run.targetVersions pending mcu with
  | some prepare =>
    match ← ExceptT.lift prepare.run with
    | .ok request =>
      let flashed ← ExceptT.lift (run.coordinator.flashPrebuilt run.sha1 standardFlashOptions name
        state.firstObservedActive pending.approve request)
      run.concludeFlash name mcu state flashed
    | .error detail =>
      -- Nothing was written to this MCU; Klipper goes back to how it was found.
      let restore ← ExceptT.lift
        (run.coordinator.restoreAfterFailure state.firstObservedActive).run
      failWithDetail detail (failureMessage .update detail (some restore)) (some name)
        state.updated
  | none =>
    let (first, completed) ← ExceptT.lift (run.coordinator.executeAndFlashSystem run.sha1
      standardFlashOptions name state.firstObservedActive pending.approve)
    run.concludeFlash name mcu state (first, completed.map CompletedUpdate.flash)

def checkPrinter (name : Str) (state : RunState) : HostAttempt RunFailure RunState := do
  if state.printerChecked then return state
  else match ← ExceptT.lift ensurePrinterIdle.run with
    | .error message => fail message (some name) state.updated
    | .ok () => return { state with printerChecked := true }

def updateApproved (name : Str) (mcu : Mcu) (state : RunState) :
    HostAttempt RunFailure RunState := do
  let prepared ← ExceptT.lift
    (BuildCoordinator.prepare run.inventory run.workspace name run.clean).run
  match prepared with
  | .error error =>
    fail ("failed to prepare " ++ name ++ " for flashing: " ++ errorChain error.cause)
      (some name) state.updated
  | .ok pending =>
    let state ← checkPrinter name state
    run.flashTarget J name mcu pending state

def runTarget (name : Str) (state : RunState) : HostAttempt RunFailure RunState := do
  match run.inventory.find name with
  | none => fail (name ++ " is not in the discovered inventory") (some name) state.updated
  | some mcu => match Eligibility.downgradeRefusal mcu run.targetVersions with
    | some refusal => fail refusal (some name) state.updated
    | none =>
      if ← hook (.approve name (mcu.version.getD "unknown")
          (run.targetVersions.labelFor mcu)) then
        run.updateApproved J name mcu state
      else return state

def runTargets : List Str → RunState → HostAttempt RunFailure RunState
  | [], state => return state
  | name :: rest, state => do
    let state ← run.runTarget J name state
    runTargets rest state

/-- Starts Klipper after the last target and waits for every updated MCU to reconnect. -/
def finishRun (updated : List Str) : HostAttempt RunFailure (List Str) := do
  if updated = [] then return updated
  else
    hook (.stepStarted .startKlipper)
    match ← ExceptT.lift run.coordinator.startAfterBatch.run with
    | .error error =>
      postFlashFailure ("could not start Klipper: " ++ errorChain error.cause) none updated
    | .ok () =>
      hook (.stepSucceeded .startKlipper)
      hook (.stepStarted .reconnect)
      match ← ExceptT.lift (waitForMcus updated run.targetVersions).run with
      | .error message => fail message none updated
      | .ok () =>
        hook (.stepSucceeded .reconnect)
        return updated

/-- Returns the MCUs that were updated. -/
def runUpdates : HostAttempt RunFailure (List Str) := do
  let state ← run.runTargets J run.targets .start
  run.finishRun state.updated

end UpdateRun
end Aldis

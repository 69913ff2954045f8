import Aldis.FlashCommand.ExplicitFile
import Aldis.Prebuilt.Explicit
import Aldis.UpdateRun.Run

/-!
# The flash command

`aldis flash`: the checks before anything is touched, the operator's confirmation, and the flash
of one MCU with a file the operator names, after which Klipper is started and the MCU awaited.
-/

namespace Aldis.Cli

open Interaction Fleet UpdateRun Text Octets

inductive HostCheckError where
  | nonLocal (url : Str)
  | unsupportedInstance (unit : Str)
  | unavailable (error : Str)
  deriving DecidableEq

def HostCheckError.cause : HostCheckError → Cause
  | nonLocal url => .leaf ("Moonraker at " ++ url ++
      " is not on this machine; firmware changes require a local Moonraker")
  | unsupportedInstance unit => .leaf ("Moonraker manages the Klipper service " ++ quoted unit ++
      ", which is not a valid Klipper service name")
  | unavailable error => .leaf
      ("could not ask Moonraker which Klipper service it manages: " ++ error)

/-- What the command was started with; `isLoopbackUrl` reads the URL's host. -/
structure FlashArgs where
  firmware : Path
  target : Str
  moonraker : Str
  config : Option Path
  klipperSource : Path
  force : Bool
  isLoopbackUrl : Str → Bool
  unicode : Bool
  arch : TargetArch
  sha1 : Bytes → Bytes

section Host

variable (isLoopbackUrl : Str → Bool) (url : Str)

/-- Checks the URL and the unit Moonraker reported; an unreported one is the default. -/
def checkHost (klipperUnit : Option Str) : Except HostCheckError KlipperUnit :=
  if isLoopbackUrl url = false then .error (.nonLocal url)
  else match klipperUnit with
    | none => .ok .default
    | some unit => match KlipperUnit.parse unit with
      | none => .error (.unsupportedInstance unit)
      | some unit => .ok unit

/-- The URL is checked first, so a remote Moonraker is never queried. -/
def verifyHost : CliAttempt HostCheckError KlipperUnit := do
  let _ ← accept (checkHost isLoopbackUrl url none) id
  let answer : Except Cause (Option Str) ← Attempt.perform (CliCall.klipperUnit url)
  let unit ← accept answer fun error => .unavailable (errorChain error)
  accept (checkHost isLoopbackUrl url unit) id

end Host

def discoverMcusWithRetry (url : Str) : CliAttempt Cause McuInventory := do
  let n : ℕ ← Attempt.perform (CliCall.host (.attempts 15000 5000))
  let outcome ← Attempt.retry (do
    let answer : Except DiscoveryError McuInventory ← Attempt.perform (CliCall.discoverMcus url)
    match answer with
    | .ok inventory => return .ok inventory
    | .error error => if error.notReady then throw error.cause else return .error error.cause) n
  Attempt.ofExcept outcome

/-- The full name of a target given by its name, or by what follows `mcu ` in it. -/
def resolveTargetName (inventory : McuInventory) (requested : Str) : Str :=
  if inventory.mcus.any (·.name == requested) then requested
  else ((inventory.mcus.find? fun mcu =>
    eqIgnoreAsciiCase mcu.name ("mcu " ++ requested)).map (·.name)).getD requested

def refuseBridge (config : Option Path) (url : Str) (unit : KlipperUnit)
    (inventory : McuInventory) (targets : List Str) : CliAttempt Cause Unit :=
  match config with
  | none => return ()
  | some path => do
    let answer : Except Cause (List PeerState) ← Attempt.perform (CliCall.probePeers path url)
    let peers ← accept answer id
    accept (bridgeRefusal peers unit.name inventory targets) .leaf

def flashRefusal (V : Type) [Semver V] (inventory : McuInventory) (target : Str) : Option Str :=
  (inventory.find target).bind fun mcu =>
    if Foci.isFoci mcu ∧ Foci.Board.fromMcu mcu.mcu = none then
      some ("refusing to flash " ++ target ++ ": FOCI publishes no builds for " ++ mcu.mcu ++
        " boards, so aldis cannot tell where its firmware must start")
    else match (Eligibility.classifyMcu mcu : Eligibility V) with
      | .unsupportedMcu family => some ("refusing to flash " ++ target ++ ": " ++ family ++
          " boards have no bootloader aldis can flash")
      | _ => none

/-- No MCU has a known target version. -/
def indeterminate (V : Type) : TargetVersions V :=
  ⟨.indeterminate, ⟨none, ⟨none, []⟩, ⟨none, none, []⟩⟩⟩

def confirmationPrompt (target : Str) (firmware : Path) (byteCount : ℕ) : Str :=
  "Flash " ++ firmware ++ " (" ++ decimal byteCount ++ " bytes) to " ++ target ++
    "? This skips Klipper's Kconfig validation."

/-- A text as the terminal and the caller of the command learn it. -/
def refuse {α : Type} (reason : Str) : CliAttempt Cause α := do
  ui (.action ("error: " ++ reason))
  throw (.leaf reason)

def transferVerb (kconfig : Str) : Str := if isLinuxHost kconfig then "installed" else "flashed"

def transferSummary (kconfig : Str) (bytes : ℕ) : Str :=
  transferVerb kconfig ++ " " ++ decimal bytes ++ " bytes"

section Terminal

/-- Shows a phase of a flash that builds nothing. -/
def progressWithoutBuild : UpdateProgress → CliProgram Unit
  | .stoppingKlipper => shows (.begin "stopping Klipper")
  | .enteringBootloader => do
    shows (.finishSuccess "stopped Klipper")
    shows (.begin "entering bootloader")
  | .bootloaderReady => shows (.finishSuccess "bootloader ready")
  | .startingFlash => shows (.begin "flashing firmware")
  | .installing => do
    shows (.finishSuccess "stopped Klipper")
    shows (.begin "installing host MCU")
  | _ => shows (.unreachable "flashing a firmware file never reports build or image phases")
where
  shows (call : UiCall) : CliProgram Unit := do
    let _ ← Program.perform (CliCall.ui call)
    return ()

def flashHooks : (call : HookCall) → CliProgram (HookAnswer call)
  | .progress _ progress => progressWithoutBuild progress
  | .approve _ _ _ => return false
  | .flashed _ _ _ | .stepStarted _ | .stepSucceeded _ | .failed _ => return ()

end Terminal

variable {V : Type} [Semver V] (J : Type) [DictionaryReader J]

/-- What is flashed, once every check has passed. -/
structure ReadyFlash (V : Type) where
  target : Str
  firmware : Bytes
  inventory : McuInventory
  coordinator : BuildCoordinator
  prebuilt : Option (FlashRequest V)
  pending : PendingBuild

def explicitRefusal (target : Str) (firmware : Path) : Prebuilt.ExplicitError → Cause
  | .notBeaconImage error => .headline ("refusing to flash " ++ target ++ ": " ++ firmware ++
      " is not a Beacon firmware image") (.leaf error.display)
  | error => .leaf ("refusing to flash " ++ target ++ ": " ++ error.display)

def prepareFile (arguments : FlashArgs) (inventory : McuInventory) (target : Str)
    (firmware : Bytes) : CliAttempt Cause (Option (FlashRequest V)) :=
  match inventory.find target with
  | none => return none
  | some mcu => match Prebuilt.prepareExplicit J mcu arguments.firmware firmware with
    | .ok request => return request
    | .error error => do
      let cause := explicitRefusal target arguments.firmware error
      ui (.action ("error: " ++ List.intercalate ": ".toList (cause.text :: cause.sources)))
      throw cause

/-- The checks on what was discovered, and the build request the flash is made from. -/
def checkTarget (arguments : FlashArgs) (firmware : Bytes) (unit : KlipperUnit)
    (inventory : McuInventory) : CliAttempt Cause (ReadyFlash V) := do
  let target := resolveTargetName inventory arguments.target
  match flashRefusal V inventory target with
  | some reason => refuse reason
  | none =>
    let prebuilt ← prepareFile J arguments inventory target firmware
    refuseBridge arguments.config arguments.moonraker unit inventory [target]
    let root : Except Cause Path ← Attempt.perform CliCall.createWorkspace
    let root ← context "could not create the run workspace" (accept root id)
    let coordinator : BuildCoordinator :=
      ⟨⟨arguments.klipperSource, arguments.unicode⟩, unit, arguments.arch⟩
    let pending ← context ("failed to prepare " ++ target ++ " for flashing")
      (ExceptT.adapt CoordinatorError.cause (asHost flashHooks
        (BuildCoordinator.prepare inventory ⟨root⟩ target false)))
    return ⟨target, firmware, inventory, coordinator, prebuilt, pending⟩

def prepareFlash (arguments : FlashArgs) : CliAttempt Cause (ReadyFlash V) := do
  let lock : Except Cause Unit ← Attempt.perform CliCall.acquireLock
  context "could not start the flash" (accept lock id)
  let file : Except IoError Bytes ←
    Attempt.perform (CliCall.host (.file (.read arguments.firmware)))
  let firmware ← context ("could not read firmware file " ++ arguments.firmware)
    (accept file IoError.cause)
  let unit ← context "refusing to flash firmware"
    (ExceptT.adapt HostCheckError.cause (verifyHost arguments.isLoopbackUrl arguments.moonraker))
  ui (.action "discovering MCUs from Moonraker")
  let inventory ← context "failed to discover MCUs from Moonraker"
    (discoverMcusWithRetry arguments.moonraker)
  checkTarget J arguments firmware unit inventory

/-- Stops Klipper if necessary, then flashes. -/
def stopThen (ready : ReadyFlash V) (flash : CliAttempt FileFlashError FlashResult) :
    CliProgram (Observed FileFlashError FlashResult) := do
  let (first, stopped) ← (ready.coordinator.ensureKlipperStopped ready.target none).handle
    (onHost flashHooks)
  match stopped with
  | .error error => return (first, .error (.coordinator (.coordinator error)))
  | .ok () => return (first, ← flash.run)

def flashFirmwareSystem (arguments : FlashArgs) (ready : ReadyFlash V) :
    CliProgram (Observed FileFlashError FlashResult) :=
  stopThen ready (ExceptT.adapt .file (flashPreparedFirmwareFile flashHooks arguments.sha1
    standardFlashOptions ready.target ready.coordinator.arch ready.pending.prepared ready.firmware
    arguments.force))

/-- The flash itself, by the prebuilt request where there is one. -/
def flashSelected (arguments : FlashArgs) (ready : ReadyFlash V) :
    CliProgram (Observed FileFlashError FlashResult) :=
  match ready.prebuilt with
  | none => flashFirmwareSystem arguments ready
  | some request => do
    let (first, flashed) ← (ready.coordinator.flashPrebuilt arguments.sha1 standardFlashOptions
      ready.target none ready.pending.approve request).handle (onHost flashHooks)
    return (first, flashed.mapError .coordinator)

/-- Starts Klipper and waits for the MCU; a file may be of any revision. -/
def startAndReconnect (ready : ReadyFlash V) (verb : Str) : CliAttempt Cause Unit := do
  ui (.begin "starting Klipper")
  match ← ExceptT.lift (asHost flashHooks ready.coordinator.startAfterBatch).run with
  | .error error =>
    ui .finishFailure
    refuse (verb ++ " successfully but Klipper failed to restart: " ++ errorChain error.cause)
  | .ok () =>
    ui (.finishSuccess "Klipper started")
    ui (.begin "waiting for the MCU to reconnect")
    match ← ExceptT.lift (asHost flashHooks
      (waitForMcus [ready.target] (indeterminate V))).run with
    | .error message =>
      ui .finishFailure
      refuse (verb ++ " successfully and Klipper started, but " ++ message)
    | .ok () =>
      ui (.finishSuccess "Klipper ready")
      ui (.action "run completed successfully")

/-- What follows the flash: the restore that its failure allows, or Klipper's start once the
MCU is back. -/
def concludeFlash (ready : ReadyFlash V) (mcu : Mcu) :
    Observed FileFlashError FlashResult → CliAttempt Cause Unit
  | (first, .error error) => do
    ui .finishFailure
    let restore ← if error.allowsKlipperRestore then
        some <$> ExceptT.lift
          (asHost flashHooks (ready.coordinator.restoreAfterFailure first)).run
      else pure none
    refuse (failureMessage .flash error.detail restore)
  | (_, .ok result) => do
    let kconfig := ready.pending.prepared.request.kconfig
    ui (.finishSuccess (transferSummary kconfig result.paddedBytes))
    ui (.begin "waiting for the MCU to restart")
    match ← ExceptT.lift (asHost flashHooks (waitForApplication mcu)).run with
    | .error message =>
      ui .finishFailure
      refuse (transferVerb kconfig ++ " successfully but " ++ message ++
        ". Klipper may still be stopped; fix the issue, then restart it manually")
    | .ok () =>
      ui (.finishSuccess "MCU restarted")
      startAndReconnect ready (transferVerb kconfig)

def flashConfirmed (arguments : FlashArgs) (ready : ReadyFlash V) : CliAttempt Cause Unit :=
  match ready.inventory.find ready.target with
  | none => throw (.leaf "the prepared MCU is missing from the inventory")
  | some mcu => do
    match ← ExceptT.lift (asHost flashHooks ensurePrinterIdle).run with
    | .error message => refuse message
    | .ok () =>
      let flashed ← ExceptT.lift (flashSelected arguments ready)
      concludeFlash ready mcu flashed

def runFlash (arguments : FlashArgs) : CliAttempt Cause Unit := do
  let ready : ReadyFlash V ← prepareFlash J arguments
  if arguments.force then flashConfirmed arguments ready
  else
    let confirmed ← ui (.confirm
      (confirmationPrompt ready.target arguments.firmware ready.firmware.length))
    if confirmed = true then flashConfirmed arguments ready
    else ui (.block "\nflash cancelled\n")

end Aldis.Cli

import Aldis.FlashCommand

/-!
# The update command

`aldis update`: the checkout's refresh, the checks, the choice of the MCUs that are offered in
flashing order, and the run that builds and flashes those the operator agrees to.
-/

namespace Aldis.Cli

open Interaction Fleet UpdateRun Text Octets

variable {V : Type} [Semver V]

/-- What the command was started with. `prebuilt` is what the vendors' releases and checkouts
give for an inventory. -/
structure UpdateArgs (V : Type) where
  targets : List Str
  moonraker : Str
  config : Option Path
  klipperSource : Path
  workspace : Option Path
  auto : Bool
  pull : Bool
  all : Bool
  force : Bool
  clean : Bool
  prebuilt : McuInventory → Prebuilt.Targets V
  isLoopbackUrl : Str → Bool
  unicode : Bool
  arch : TargetArch
  sha1 : Bytes → Bytes
  sha256 : Bytes → Bytes

def selectionFor (everyEligible : Bool) : UpdateSelection :=
  if everyEligible then .all else .required

def unknownTargets (inventory : McuInventory) (targets : List Str) : List Str :=
  targets.foldl (fun unknown name =>
    if !inventory.mcus.any (·.name == name) && !unknown.contains name then unknown ++ [name]
    else unknown) []

def offeredTargets (arguments : UpdateArgs V) (inventory : McuInventory) (targets : List Str)
    (versions : TargetVersions V) : List Str :=
  flashOrder inventory ((inventory.mcus.filter fun mcu =>
    (targets.isEmpty || targets.contains mcu.name) &&
      Eligibility.isSelected mcu versions (selectionFor (arguments.all || arguments.force))).map
        Mcu.name)

section Steps

variable {α : Type}

def announced (x : CliAttempt Cause α) : CliAttempt Cause α := do
  match ← ExceptT.lift x.run with
  | .ok a => return a
  | .error error =>
    ui (.action ("error: " ++ errorChain error))
    throw error

/-- Whether the arguments or the operator want the checkout refreshed. -/
def wantsRefresh (arguments : UpdateArgs V) : CliAttempt Cause Bool :=
  if arguments.auto || arguments.pull then return true
  else do
    let interactive : Bool ← Attempt.perform CliCall.stdinIsTerminal
    if interactive then ui (.confirm "Pull the configured Klipper upstream before updating?")
    else return false

def refreshSource (arguments : UpdateArgs V) : CliAttempt Cause Unit := do
  let wanted ← wantsRefresh arguments
  if wanted then
    ui (.action "refreshing configured Klipper upstream")
    let answer : Except Cause Str ←
      Attempt.perform (CliCall.refreshCheckout arguments.klipperSource)
    let label ← context "failed to refresh the configured Klipper checkout"
      (announced (accept answer id))
    ui (.action ("checkout refresh: " ++ label))

def updateHooks (auto : Bool) : (call : HookCall) → CliProgram (HookAnswer call)
  | .approve name current next =>
    let offer := "Update " ++ name ++ " from " ++ current ++ " to " ++ next
    if auto then do
      let _ ← Program.perform (CliCall.ui (.heading offer))
      return true
    else Program.perform (CliCall.ui (.confirm (offer ++ "?")))
  | .progress _ progress => match progress with
    | .downloadingFirmware => shows [.begin "downloading firmware"]
    | .firmwareDownloaded => shows [.finishSuccess "downloaded firmware"]
    | .readingFirmware => shows [.begin "reading firmware image"]
    | .firmwareRead => shows [.finishSuccess "read firmware image"]
    | .stoppingKlipper => shows [.begin "stopping Klipper"]
    | .configuringFirmware =>
    shows [.finishSuccess "stopped Klipper", .begin "configuring firmware"]
    | .compilingFirmware =>
      shows [.finishSuccess "configured firmware", .begin "compiling firmware"]
    | .enteringBootloader => shows [.finishBeforeFlash, .begin "entering bootloader"]
    | .bootloaderReady => shows [.finishSuccess "bootloader ready"]
    | .startingFlash => shows [.begin "flashing firmware"]
    | .installing => shows [.finishBeforeFlash, .begin "installing host MCU"]
  | .flashed _ kconfig bytes => shows [.finishSuccess (transferSummary kconfig bytes)]
  | .stepStarted step => match step with
    | .waitForApplication => shows [.begin "waiting for MCU restart"]
    | .startKlipper => shows [.heading "Finishing update", .begin "starting Klipper"]
    | .reconnect => shows [.begin "waiting for updated MCUs to reconnect"]
  | .stepSucceeded step => match step with
    | .waitForApplication => shows [.finishSuccess "MCU restart confirmed"]
    | .startKlipper => shows [.finishSuccess "Klipper ready"]
    | .reconnect => shows [.finishSuccess "all updated MCUs connected"]
  | .failed message => shows [.finishFailure, .action ("error: " ++ message)]
where
  shows : List UiCall → CliProgram Unit
    | [] => return ()
    | call :: rest => do
      let _ ← Program.perform (CliCall.ui call)
      shows rest

/-- The direct-identify fallback, only where the host check passes and Klippy is in an error
state. -/
def probeDiscovered (arguments : UpdateArgs V) (inventory : McuInventory) :
    CliAttempt Cause McuInventory := do
  if inventory.unreported = [] then return inventory
  else
    match ← ExceptT.lift (verifyHost arguments.isLoopbackUrl arguments.moonraker).run with
    | .error _ => return inventory
    | .ok _ =>
      let answer : Except Cause HostInfo ← Attempt.perform (CliCall.host (.mcu .hostInfo))
      match answer with
      | .ok info =>
        if stopsPrints info.state then
          ExceptT.adapt .leaf (asHost (updateHooks arguments.auto) (resolveUnreported inventory))
        else return inventory
      | .error _ => return inventory

/-- What is said of a named MCU that runs newer firmware than it would get. -/
def showRefusal (versions : TargetVersions V) (targets : List Str) (mcu : Mcu) :
    CliAttempt Cause Unit :=
  if targets.contains mcu.name then
    match Eligibility.downgradeRefusal mcu versions with
    | some refusal => ui (.block ("\n" ++ refusal ++ "\n"))
    | none => return ()
  else return ()

def showRefusals (versions : TargetVersions V) (targets : List Str) :
    List Mcu → CliAttempt Cause Unit
  | [] => return ()
  | mcu :: rest => do
    showRefusal versions targets mcu
    showRefusals versions targets rest

def refuseUnknown (unknown : List Str) : CliAttempt Cause Unit :=
  if unknown = [] then return ()
  else throw (.leaf ("unknown target MCU" ++ (if unknown.length = 1 then "" else "s") ++ ": " ++
    List.intercalate ", ".toList unknown))

end Steps

/-- The run that is offered, or none where no MCU requires an update. -/
def planUpdate (arguments : UpdateArgs V) (workspace : RunWorkspace) (unit : KlipperUnit)
    (inventory : McuInventory) : CliAttempt Cause (Option (UpdateRun V)) := do
  let targets := arguments.targets.map (resolveTargetName inventory)
  refuseUnknown (unknownTargets inventory targets)
  let revision : Except Cause CheckoutRevision ←
    Attempt.perform (CliCall.checkoutRevision arguments.klipperSource)
  let versions : TargetVersions V :=
    ⟨revision.toOption.getD .indeterminate, arguments.prebuilt inventory⟩
  ui .status
  showRefusals versions targets inventory.mcus
  let offered := offeredTargets arguments inventory targets versions
  if offered = [] then
    ui (.block "\nno eligible MCUs require an update\n")
    ui (.action "run completed successfully: no eligible MCUs require an update")
    return none
  else
    refuseBridge arguments.config arguments.moonraker unit inventory offered
    return some ⟨⟨⟨arguments.klipperSource, arguments.unicode⟩, unit, arguments.arch⟩, inventory,
      workspace, offered, versions, arguments.clean, arguments.sha1, arguments.sha256⟩

def prepareUpdate (arguments : UpdateArgs V) (workspace : RunWorkspace) :
    CliAttempt Cause (Option (UpdateRun V)) := do
  let lock : Except Cause Unit ← Attempt.perform CliCall.acquireLock
  context "could not start the update" (accept lock id)
  ui (.action ("updating from Klipper source " ++ arguments.klipperSource))
  refreshSource arguments
  let unit ← context "refusing to update firmware"
    (ExceptT.adapt HostCheckError.cause (verifyHost arguments.isLoopbackUrl arguments.moonraker))
  ui (.action "discovering MCUs from Moonraker")
  let inventory ← context "failed to discover MCUs from Moonraker"
    (announced (discoverMcusWithRetry arguments.moonraker))
  let inventory ← probeDiscovered arguments inventory
  planUpdate arguments workspace unit inventory

def mcuCountLabel (count : ℕ) : Str := if count = 1 then "MCU" else "MCUs"

def reportUpdated (runLog : Path) (updated : List Str) : CliAttempt Cause Unit :=
  if updated = [] then do
    ui (.block "\nno updates confirmed\n")
    ui (.action "run completed successfully: no updates confirmed")
  else do
    ui (.heading ("Update complete: " ++ decimal updated.length ++ " " ++
      mcuCountLabel updated.length ++ " updated (run log: " ++ runLog ++ ")"))
    ui (.action "run completed successfully")

def runRoot (arguments : UpdateArgs V) : CliAttempt Cause Path :=
  match arguments.workspace with
  | some path => do
    let created : Except Cause Unit ← Attempt.perform (CliCall.createWorkspaceAt path)
    accept created id
    return path
  | none => do
    let created : Except Cause Path ← Attempt.perform CliCall.createWorkspace
    context "could not create the run workspace" (accept created id)

variable (J : Type) [DictionaryReader J]

def runUpdate (arguments : UpdateArgs V) (workspace : RunWorkspace) (runLog : Path) :
    CliAttempt Cause Unit := do
  match ← prepareUpdate arguments workspace with
  | none => return ()
  | some run =>
    let updated ← ExceptT.adapt (fun failure : RunFailure => .leaf failure.message)
      (asHost (updateHooks arguments.auto) (run.runUpdates J))
    reportUpdated runLog updated

def withRunLog (runLog : Path) (error : Cause) : Cause :=
  .leaf (List.intercalate ": ".toList (error.text :: error.sources) ++ "\nRun log: " ++ runLog)

def updateAndReportRunLog (arguments : UpdateArgs V) : CliAttempt Cause Unit := do
  let root ← runRoot arguments
  let runLog := Path.join root "run.log"
  let logging : Except Cause Unit ← Attempt.perform (CliCall.startLogging runLog)
  context "could not start logging" (accept logging id)
  ExceptT.adapt (withRunLog runLog) (runUpdate J arguments ⟨root⟩ runLog)

end Aldis.Cli

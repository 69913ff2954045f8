import Aldis.FlashCommand
import Aldis.Prebuilt.Resolve

/-!
# The reboot command

`aldis reboot`: every bootloader found on the USB bus is asked to start the application in its
flash, a Beacon is flashed because its bootloader starts nothing else, and Klipper is restarted
once a Beacon is back.
-/

namespace Aldis.Cli

open Interaction Text Octets

def USB_SYSFS_ROOT : Path := "/sys/bus/usb/devices"
def KATAPULT_BAUD_RATE : ℕ := 250000
def WATCH_TIMEOUT : ℕ := 10000
def WATCH_POLL_INTERVAL : ℕ := 50

/-- What the command was started with. `files` is what the host's files are read as. -/
structure RebootArgs where
  yes : Bool
  beaconSource : Option Path
  moonraker : Str
  isLoopbackUrl : Str → Bool
  files : HostFiles
  defaultKlipperSource : Path

inductive ExitCode where
  | success
  | failure
  deriving DecidableEq

structure DetectedBootloader where
  observed : ObservedUsbBootloader
  kind : UsbBootloaderKind
  deriving DecidableEq

/-- What `{:?}` writes for a kind. -/
def kindDebug : UsbBootloaderKind → Str
  | .katapult => "Katapult"
  | .stm32Dfu => "Stm32Dfu"
  | .picoBoot => "PicoBoot"
  | .samBa => "SamBa"

inductive Recovery where
  | recovered
  | declined
  | failed
  deriving DecidableEq

/-- A Beacon image prepared for a Beacon found in its bootloader, which the image names. -/
structure RecoveryRequest (V : Type) where
  bootloader : Beacon.ObservedBootloader
  path : Path
  image : Beacon.FirmwareImage V
  suits : bootloader.usbId = image.usbId

def tell (call : UiCall) : CliProgram Unit := do
  let _ ← Program.perform (CliCall.ui call)
  return ()

/-- The progress of a recovery is not shown. -/
def rebootHooks : (call : HookCall) → CliProgram (HookAnswer call)
  | .approve _ _ _ => return false
  | .progress _ _ | .flashed _ _ _ | .stepStarted _ | .stepSucceeded _ | .failed _ => return ()

section Bus

/-- One USB device, if its identity is that of a bootloader. -/
def detectBootloader (sysfsPath : Path) : CliProgram (Option DetectedBootloader) := do
  let identity : UsbIdentity ← Program.perform (CliCall.host (.flash (.usbIdentity sysfsPath)))
  match classifyUsbIdentity identity.usbId identity.manufacturer with
  | none => return none
  | some _ =>
    let tty : Option Path ← Program.perform (CliCall.host (.flash (.usbTty sysfsPath)))
    let observed : ObservedUsbBootloader := ⟨sysfsPath, identity.usbId, identity.manufacturer, tty⟩
    return observed.kind.map fun kind => ⟨observed, kind⟩

def beaconBootloaderAt (sysfsPath : Path) : CliProgram (Option Beacon.ObservedBootloader) :=
  Program.perform (CliCall.host (.flash (.beaconBootloaderAt sysfsPath)))

def scan {α : Type} (look : Path → CliProgram (Option α)) : List Path → CliProgram (List α)
  | [] => return []
  | sysfsPath :: rest => do
    let found ← look sysfsPath
    let others ← scan look rest
    return found.toList ++ others

def detectBootloaders (root : Path) : CliProgram (List DetectedBootloader) := do
  let dirs : List Path ← Program.perform (CliCall.usbDeviceDirs root)
  scan detectBootloader dirs

def scanBeacons (root : Path) : CliProgram (List Beacon.ObservedBootloader) := do
  let dirs : List Path ← Program.perform (CliCall.usbDeviceDirs root)
  scan beaconBootloaderAt dirs

/-- Looks until there is something, or the time is over. -/
def watch {α : Type} (look : CliProgram (Option α)) : CliProgram (Option α) := do
  let n : ℕ ← Program.perform (CliCall.host (.attempts WATCH_TIMEOUT WATCH_POLL_INTERVAL))
  let look : CliAttempt Unit α := ExceptT.mk do
    match ← look with
    | some a => return .ok a
    | none => return .error ()
  let result ← (look.retry n).run
  return result.toOption

def waitForAnyBootloader (root : Path) : CliProgram (List DetectedBootloader) := do
  let found ← watch do
    let detected ← detectBootloaders root
    return if detected = [] then none else some detected
  return found.getD []

def waitUntilAbsent (sysfsPath : Path) : CliProgram Bool := do
  let absent ← watch do
    let present : Bool ← Program.perform (CliCall.host (.file (.pathExists sysfsPath)))
    return if present then none else some ()
  return absent.isSome

def waitUntilLeft (sysfsPath : Path) : CliProgram Bool := do
  let left ← watch do
    let bootloader ← beaconBootloaderAt sysfsPath
    return if bootloader.isSome then none else some ()
  return left.isSome

/-- `u16::from_str_radix` with radix 16 on the text of an id. -/
def readHexId (text : Str) : Option UInt16 :=
  ((Samba.fromStrRadix16 (utf8 (trim text))).filter (· < 2 ^ 16)).map UInt16.ofNat

/-- Whether the device runs a Beacon's application, with its serial port. -/
def applicationAt (sysfsPath : Path) : CliProgram Bool := do
  let vendor : Except IoError Str ←
    Program.perform (CliCall.host (.file (.readToString (Path.join sysfsPath "idVendor"))))
  let product : Except IoError Str ←
    Program.perform (CliCall.host (.file (.readToString (Path.join sysfsPath "product"))))
  let product := trim (product.toOption.getD [])
  if vendor.toOption.bind readHexId = some Beacon.VENDOR_ID ∧
      "Beacon Rev".toList.isPrefixOf product ∧ ¬ contains "Bootloader" product then
    let tty : Option Path ← Program.perform (CliCall.host (.flash (.usbTty sysfsPath)))
    return tty.isSome
  else return false

def waitForApplicationAt (sysfsPath : Path) : CliProgram Bool := do
  let application ← watch do
    let runs ← applicationAt sysfsPath
    return if runs then some () else none
  return application.isSome

end Bus

section Leave

def leaveSerial (device : Path) : HostAttempt Cause Unit := do
  check (← flashCall (.openSerial device KATAPULT_BAUD_RATE)) id
  ExceptT.adapt Katapult.SessionError.cause (overTransport do
    let _ ← Katapult.connect
    Katapult.complete)

def rebootIntoApplication (device : Path) : HostAttempt Cause Unit := do
  check (← flashCall (.openSambaPort device)) fun error => error
  ExceptT.adapt Samba.SambaError.cause (overSambaPort do
    Samba.handshake
    Samba.reset)

variable (arguments : RebootArgs)

def confirm (text : Str) : CliProgram Bool :=
  if arguments.yes then return true else Program.perform (CliCall.ui (.confirm text))

def watchForDeparture (sysfsPath : Path) : CliProgram Bool := do
  if ← waitUntilAbsent sysfsPath then
    tell (.block "  rebooted\n")
    return true
  else
    tell (.block "  still present; power-cycle the board\n")
    return false

def reportLeaveResult (result : Except Cause Unit) (sysfsPath : Path) : CliProgram Bool :=
  match result with
  | .ok () => watchForDeparture sysfsPath
  | .error error => do
    tell (.block ("  reboot failed: " ++ error.text ++ "\n"))
    return false

/-- Leaves a bootloader where the operator agrees to; a refusal leaves nothing to do. -/
def leaveConfirmed (sysfsPath : Path) (text : Str) (leave : CliAttempt Cause Unit) :
    CliProgram Bool := do
  if ← confirm arguments text then
    let result ← leave.run
    reportLeaveResult result sysfsPath
  else return true

/-- Leaves a bootloader behind a serial device of its own. -/
def leaveBySerial (observed : ObservedUsbBootloader) (leave : Path → HostAttempt Cause Unit) :
    CliProgram Bool :=
  match observed.serialDevice with
  | none => do
    tell (.block "  no unique serial device at this topology; power-cycle the board\n")
    return false
  | some device => leaveConfirmed arguments observed.sysfsPath "Reboot into application?"
      (asHost rebootHooks (leave device))

def leavePicoboot (sysfsPath : Path) : CliAttempt Cause Unit := do
  let result : Except Cause Unit ← Attempt.perform (CliCall.rebootPicoboot sysfsPath)
  accept result id

def leaveSystemAtPath (sysfsPath : Path) (applicationStart : UInt32) : CliAttempt Cause Unit := do
  let result : Except Stm32DfuError Unit ←
    Attempt.perform (CliCall.leaveSystem sysfsPath applicationStart)
  accept result Stm32DfuError.cause

def leaveStm32Dfu (sysfsPath : Path) : CliProgram Bool := do
  let probe : Except Stm32DfuError ApplicationProbeResult ←
    Program.perform (CliCall.probeApplicationStart sysfsPath)
  match probe with
  | .ok (.found address) =>
    leaveConfirmed arguments sysfsPath
      ("Candidate application found at offset " ++ hex0x 1 address.toNat ++ " — reboot into it?")
      (leaveSystemAtPath sysfsPath address)
  | .ok .notFound =>
    tell (.block "  no application found in flash; power-cycle the board\n")
    return false
  | .ok (.ambiguous _) =>
    tell (.block "  more than one candidate application offset found; power-cycle the board\n")
    return false
  | .error error =>
    tell (.block ("  could not probe for an application: " ++ error.cause.text ++ "\n"))
    return false

def DetectedBootloader.heading (bootloader : DetectedBootloader) : Str :=
  kindDebug bootloader.kind ++ " bootloader at " ++ bootloader.observed.usbId ++ " (" ++
    bootloader.observed.sysfsPath ++ ")"

def leaveOne (bootloader : DetectedBootloader) : CliProgram Bool := do
  tell (.heading bootloader.heading)
  match bootloader.kind with
  | .katapult => leaveBySerial arguments bootloader.observed leaveSerial
  | .picoBoot =>
    leaveConfirmed arguments bootloader.observed.sysfsPath "Reboot into application?"
      (leavePicoboot bootloader.observed.sysfsPath)
  | .stm32Dfu => leaveStm32Dfu arguments bootloader.observed.sysfsPath
  | .samBa => leaveBySerial arguments bootloader.observed rebootIntoApplication

/-- Handles every bootloader, whatever became of those before it. -/
def leaveAll : List DetectedBootloader → CliProgram Bool
  | [] => return true
  | bootloader :: rest => do
    let resolved ← leaveOne arguments bootloader
    let others ← leaveAll rest
    return resolved && others

end Leave

section Recover

variable (V : Type) [Semver V] (arguments : RebootArgs)

/-- The image that brings a Beacon out of `bootloader`: the one in `checkout` for the revision the
bootloader names, which must be for this very bootloader. -/
def prepareBeaconRecovery (checkout : Option Path) (bootloader : Beacon.ObservedBootloader) :
    Except Beacon.Unavailable (RecoveryRequest V) :=
  match checkout with
  | none => .error .noCheckout
  | some checkout => match Beacon.revisionFromProduct bootloader.product with
    | none => .error (.unknownRevision bootloader.product)
    | some revision => do
      let path := Beacon.imagePath checkout revision
      let image : Beacon.FirmwareImage V ← Beacon.readImageFile arguments.files path
      if h : bootloader.usbId = image.usbId then .ok ⟨bootloader, path, image, h⟩
      else .error (.wrongBootloader path image.usbId bootloader.usbId)

def beaconHeading (bootloader : Beacon.ObservedBootloader) : Str :=
  "Beacon bootloader at " ++ bootloader.usbId ++ " (" ++ bootloader.sysfsPath ++ ")"

def awaitBeacon (sysfsPath : Path) : CliProgram Recovery := do
  if ← waitUntilLeft sysfsPath then
    if ← waitForApplicationAt sysfsPath then
      tell (.block "  back in its application\n")
      return .recovered
    else
      tell (.block
        "  left its bootloader but its serial port did not come back; power-cycle it\n")
      return .failed
  else
    tell (.block "  still in its bootloader; power-cycle the Beacon\n")
    return .failed

def flashRecovery (request : RecoveryRequest V) : CliProgram Recovery := do
  tell (.begin "flashing Beacon firmware")
  let flashed : Except SystemFlashError FlashResult ←
    (asHost rebootHooks (flashBeaconBootloader [] request.bootloader request.image)).run
  match flashed with
  | .ok result =>
    tell (.finishSuccess ("flashed " ++ decimal result.paddedBytes ++ " bytes"))
    awaitBeacon request.bootloader.sysfsPath
  | .error error =>
    tell .finishFailure
    tell (.block ("  flash failed: " ++ errorChain error.cause ++ "\n"))
    return .failed

def recoverBeacon (checkout : Option Path) (bootloader : Beacon.ObservedBootloader) :
    CliProgram Recovery := do
  tell (.heading (beaconHeading bootloader))
  match prepareBeaconRecovery V arguments checkout bootloader with
  | .error reason =>
    tell (.block ("  cannot recover it: " ++ reason.display ++
      "; flash it with beacon_klipper's update_firmware.py\n"))
    return .failed
  | .ok request =>
    if ← confirm arguments ("A Beacon leaves its bootloader only by being flashed. Flash " ++
        request.path ++ " (" ++ Beacon.reported request.image.version ++ ")?") then
      flashRecovery V request
    else return .declined

/-- Recovers every Beacon: whether one is back, and whether none failed. -/
def recoverAll (checkout : Option Path) :
    List Beacon.ObservedBootloader → CliProgram (Bool × Bool)
  | [] => return (false, true)
  | bootloader :: rest => do
    let recovery ← recoverBeacon V arguments checkout bootloader
    let (recovered, resolved) ← recoverAll checkout rest
    return (recovery = .recovered || recovered, recovery ≠ .failed && resolved)

def RESTART_MANUALLY : Str := "restart Klipper (FIRMWARE_RESTART) to reconnect the Beacon"

def restarted (result : Except Cause Unit) : CliProgram Unit :=
  match result with
  | .ok () => tell (.block "  Klipper is restarting\n")
  | .error error => tell (.block
      ("  restart failed: " ++ errorChain error ++ "; " ++ RESTART_MANUALLY ++ "\n"))

/-- Restarts a local Klipper that is not ready, once a Beacon came back. -/
def restartKlipper : CliProgram Unit := do
  if arguments.isLoopbackUrl arguments.moonraker then
    let info : Except Cause HostInfo ← Program.perform (CliCall.host (.mcu .hostInfo))
    match info with
    | .error error => tell (.block ("\ncould not reach Moonraker at " ++ arguments.moonraker ++
        ": " ++ errorChain error ++ "; " ++ RESTART_MANUALLY ++ "\n"))
    | .ok info =>
      if info.state = .ready then tell (.block "\nKlipper is ready; no restart needed\n")
      else if ← confirm arguments
          "Restart Klipper (FIRMWARE_RESTART) so it reconnects the Beacon?" then
        let result : Except Cause Unit ←
          Program.perform (CliCall.firmwareRestart arguments.moonraker)
        restarted result
      else tell (.block ("  " ++ RESTART_MANUALLY ++ "\n"))
  else tell (.block ("\n" ++ arguments.moonraker ++ " is not this host's Moonraker; " ++
    RESTART_MANUALLY ++ "\n"))

end Recover

section Command

variable (V : Type) [Semver V] (arguments : RebootArgs)

def exitCode (allResolved : Bool) : ExitCode := if allResolved then .success else .failure

/-- The Beacon checkout that was named, or else the one beside the Klipper that Moonraker names. -/
def recoveryCheckout (info : Except Cause HostInfo) : Option Path :=
  let klipperSource := (info.toOption.bind (·.klipperPath)).getD arguments.defaultKlipperSource
  Beacon.locateCheckout arguments.files arguments.beaconSource (some klipperSource)

/-- The Beacons, once every other bootloader was handled. -/
def recoverBeacons (beacons : List Beacon.ObservedBootloader) (allResolved : Bool) :
    CliProgram ExitCode := do
  let info : Except Cause HostInfo ← Program.perform (CliCall.host (.mcu .hostInfo))
  let (recovered, resolved) ← recoverAll V arguments (recoveryCheckout arguments info) beacons
  if recovered then restartKlipper arguments
  return exitCode (allResolved && resolved)

def handleBootloaders (detected : List DetectedBootloader)
    (beacons : List Beacon.ObservedBootloader) : CliProgram ExitCode := do
  if detected = [] ∧ beacons = [] then
    tell (.block "no bootloader detected; power-cycle the board and try again\n")
    return .success
  else
    let allResolved ← leaveAll arguments detected
    if beacons = [] then return exitCode allResolved
    else recoverBeacons V arguments beacons allResolved

def rebootLocked : CliProgram ExitCode := do
  let detected ← detectBootloaders USB_SYSFS_ROOT
  let beacons ← scanBeacons USB_SYSFS_ROOT
  if detected = [] ∧ beacons = [] then
    let detected ← waitForAnyBootloader USB_SYSFS_ROOT
    let beacons ← scanBeacons USB_SYSFS_ROOT
    handleBootloaders V arguments detected beacons
  else handleBootloaders V arguments detected beacons

def reboot : CliAttempt Cause ExitCode := do
  let lock : Except Cause Unit ← Attempt.perform CliCall.acquireLock
  accept lock fun error => .leaf ("could not start the reboot: " ++ error.text)
  ExceptT.lift (rebootLocked V arguments)

end Command

end Aldis.Cli

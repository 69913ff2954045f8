import Aldis.Cli.Call
import Aldis.Coordinator.Operations
import Aldis.UpdateRun.Report

/-!
# Flashing a file that was not built here

The dispatch of `flash_prepared_firmware_file_with_progress`: as for a built artifact, except
that the address an STM32 file is written to is judged from the file and the device.
-/

namespace Aldis

open Text

def FirmwareFileError.cause : FirmwareFileError → Cause
  | system error => error.cause
  | unrecognizedFirmwareTarget => .leaf
      "the firmware file's vector table does not resolve to a known STM32 flash address"
  | stm32Probe error => .headline
      ("could not probe the device's currently flashed application: " ++ error.cause.text)
      error.cause
  | stm32TargetMismatch firmwareOffset deviceOffset => .leaf
      ("firmware expects flash offset " ++ hex0x 1 firmwareOffset.toNat ++
        " but the device is currently running from " ++ hex0x 1 deviceOffset.toNat ++
        "; pass --force to flash anyway")
  | stm32MismatchRecovery error => .headline
      ("flash refused due to a target mismatch, and rebooting the device back to its existing " ++
        "application failed: " ++ error.cause.text) error.cause
  | stm32AmbiguousApplication candidates firmwareOffset => .leaf
      ("the device's flash looks like an application at each of " ++
        List.intercalate ", ".toList (candidates.map fun offset => hex0x 1 offset.toNat) ++
        "; aldis cannot tell which one is running, so it will not guess a flash offset. Pass " ++
        "--force to use the firmware's own offset " ++ hex0x 1 firmwareOffset.toNat ++
        "; the device is left in its bootloader, run `aldis reboot` to leave it")

namespace Cli

open Interaction Octets

inductive FileFlashError where
  | coordinator (error : FlashCoordinatorError)
  | file (error : FirmwareFileError)
  deriving DecidableEq

namespace FileFlashError

/-- `FlashCoordinatorError::allows_klipper_restore`, for either kind of error. -/
def allowsKlipperRestore : FileFlashError → Bool
  | coordinator error => error.allowsKlipperRestore
  | file (.system error) => (FlashCoordinatorError.flash error).allowsKlipperRestore
  | file _ => false

def detail : FileFlashError → Str
  | coordinator error => failureDetail .flash error
  | file error => errorChain error.cause

end FileFlashError

variable {ε α : Type} (hooks : (call : HookCall) → CliProgram (HookAnswer call))

def asHost (x : HostAttempt ε α) : CliAttempt ε α := x.handle (onHost hooks)

/-- What deciding on a file's target asks of the device. -/
def onTarget : (call : TargetCall) → CliProgram (TargetAnswer call)
  | .waitForAccess sysfsPath => (asHost hooks (waitForUsbDeviceAccess sysfsPath)).run
  | .probeApplicationStart sysfsPath =>
    Program.perform (CliCall.probeApplicationStart sysfsPath)
  | .leaveSystem sysfsPath applicationStart =>
    Program.perform (CliCall.leaveSystem sysfsPath applicationStart)

/-- A step of the dispatch that a built artifact takes as well. -/
def system (x : HostAttempt SystemFlashError α) : CliAttempt FirmwareFileError α :=
  ExceptT.adapt .system (asHost hooks x)

def resolveFileRoute (observed : ObservedUsbBootloader) (kconfig transport : Str)
    (firmware : Bytes) (force : Bool) : CliAttempt FirmwareFileError SerialFlashRoute := do
  match ← system hooks (selectObserved observed transport) with
  | .katapult _ serialDevice => return .katapult serialDevice
  | .stm32Dfu sysfsPath =>
    let applicationStart ←
      (resolveStm32FirmwareFileTarget sysfsPath kconfig firmware force).handle (onTarget hooks)
    return .stm32Dfu sysfsPath applicationStart
  | .picoBoot sysfsPath => return .picoBoot sysfsPath
  | .samBa _ serialDevice =>
    let target ← accept (Samba.targetFromKconfig kconfig) fun error => .system (.samBa error)
    return .samBa serialDevice target

variable (sha1 : Bytes → Bytes) (options : SystemFlashOptions) (name : Str)

def installLinuxHost (arch : TargetArch) (firmware : Bytes) :
    HostAttempt SystemFlashError FlashResult := do
  report name .installing
  ExceptT.adapt .linuxHost (HostMcuInstaller.install arch options.hostMcuUnitFile firmware)

/-- The USB part of `flashFileSerial`. -/
def flashFileUsb (device : Path) (kconfig : Str) (firmware : Bytes) (force : Bool) :
    CliAttempt FirmwareFileError FlashResult := do
  system hooks (report name .enteringBootloader)
  let observed ← system hooks
    (ExceptT.adapt .bootloader (requestAndObserveAnyUsbBootloader options device))
  system hooks (report name .bootloaderReady)
  let route ← resolveFileRoute hooks observed kconfig device firmware force
  system hooks (dispatchSerialRoute sha1 options name route firmware)

def flashFileSerial (device : Path) (kconfig : Str) (firmware : Bytes) (force : Bool) :
    CliAttempt FirmwareFileError FlashResult := do
  let uart ← system hooks (flashCall (.isTtyWithoutUsbDevice device))
  if (uart : Bool) then system hooks (flashUartKatapult sha1 options name device kconfig firmware)
  else flashFileUsb hooks sha1 options name device kconfig firmware force

/-- Flashes an explicit firmware file. A USB-CAN bridge is addressed by its Kconfig, as for a
built artifact. -/
def flashPreparedFirmwareFile (arch : TargetArch) (prepared : PreparedBuild) (firmware : Bytes)
    (force : Bool) : CliAttempt FirmwareFileError FlashResult :=
  let kconfig := prepared.request.kconfig
  if isLinuxHost kconfig then
    system hooks (installLinuxHost options name arch firmware)
  else match prepared.transport with
    | none => throw (.system .missingTransport)
    | some (.serial device) => flashFileSerial hooks sha1 options name device kconfig firmware force
    | some (.can interface uuid) =>
      system hooks (flashCanSystem sha1 options name interface uuid kconfig firmware)

end Cli
end Aldis

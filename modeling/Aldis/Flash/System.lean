import Aldis.Flash.LinuxHost
import Aldis.Flash.Request

/-!
# Dispatch to the native backends

How a prepared MCU is asked to enter its bootloader, which backend the bootloader that appears
is flashed by, and the routes that prebuilt firmware may take.
-/

namespace Aldis

open Interaction Text Octets

structure SystemFlashOptions where
  baudRate : ℕ
  bootloaderTimeout : ℕ
  pollInterval : ℕ
  hostMcuUnitFile : Path
  deriving DecidableEq

inductive SerialFlashRoute where
  | katapult (serialDevice : Path)
  | stm32Dfu (sysfsPath : Path) (applicationStart : UInt32)
  | picoBoot (sysfsPath : Path)
  | samBa (serialDevice : Path) (target : Samba.SambaTarget)
  deriving DecidableEq

def FLASH_START_OFFSETS : List (Str × UInt32) :=
  [("800", 0x800), ("1000", 0x1000), ("2000", 0x2000), ("4000", 0x4000), ("5000", 0x5000),
    ("7000", 0x7000), ("8000", 0x8000), ("8800", 0x8800), ("9000", 0x9000), ("C000", 0xC000),
    ("10000", 0x10000), ("20000", 0x20000), ("20200", 0x20200), ("0000", 0)]

/-- The STM32 application address of a Kconfig that selects exactly one flash start. -/
def stm32TargetFromKconfig (kconfig : Str) : Except Stm32DfuError UInt32 :=
  match FLASH_START_OFFSETS.filter
      (fun start => hasLine kconfig ("CONFIG_STM32_FLASH_START_" ++ start.1 ++ "=y")) with
  | [start] => .ok (Stm32.FLASH_START + start.2)
  | _ => .error .invalidFlashStartConfiguration

def kconfigSerialBaud (kconfig : Str) : Option ℕ :=
  ((lines kconfig).map trim).findSome? fun line =>
    (stripPrefix "CONFIG_SERIAL_BAUD=" line).bind (parseUnsigned (2 ^ 32))

def kconfigSelectsUsbCanBridge (kconfig : Str) : Bool :=
  (lines kconfig).any fun line =>
    ((stripPrefix "CONFIG_" (trim line)).bind (stripSuffix "=y")).any fun symbol =>
      contains "USBCANBUS" symbol && ! "HAVE_".toList.isPrefixOf symbol

def MAX_CAN_UUID : ℕ := 2 ^ 48 - 1

def resetError : Except Cause Unit → Option Str
  | .ok () => none
  | .error error => some error.text

section Bootloaders

variable (options : SystemFlashOptions)

/-- One look at a device that is expected to change its identity; fails with what it saw. -/
def observeUsbBootloader (usbPath : Path) (initial : UsbIdentity) :
    HostAttempt UsbIdentity ObservedUsbBootloader := do
  let identity ← flashCall (.usbIdentity usbPath)
  if identity ≠ initial ∧ identity.isComplete then
    let tty ← flashCall (.usbTty usbPath)
    require (observedIfReady usbPath identity tty) identity
  else throw identity

def observeAnyUsbBootloaderAtPath (usbPath : Path) (initial : UsbIdentity) :
    HostAttempt UsbBootloaderError ObservedUsbBootloader :=
  ExceptT.adapt (timeoutOutcome initial · usbPath none)
    (retryUntilAvailable options.bootloaderTimeout options.pollInterval
      (observeUsbBootloader usbPath initial))

def requestAndObserveAnyUsbBootloader (device : Path) :
    HostAttempt UsbBootloaderError ObservedUsbBootloader := do
  let usbPath ← require (← flashCall (.usbDevicePath device)) (.notUsbDevice device)
  let initial ← flashCall (.usbIdentity usbPath)
  let reset ← flashCall (.requestUsbBootloader device)
  ExceptT.adapt (timeoutOutcome initial · device (resetError reset))
    (retryUntilAvailable options.bootloaderTimeout options.pollInterval
      (observeUsbBootloader usbPath initial))

def requestAndObserveBeaconBootloader (device : Path) :
    HostAttempt Beacon.BeaconDfuError Beacon.ObservedBootloader := do
  let usbPath ← require (← flashCall (.usbDevicePath device)) (.notUsbDevice device)
  let reset ← flashCall (.requestUsbBootloader device)
  retryUntilAvailable options.bootloaderTimeout options.pollInterval do
    require (← flashCall (.beaconBootloaderAt usbPath))
      (.notEntered device (resetError reset))

def openSerialWhenReady {ε : Type} (device : Path) (baudRate : ℕ) (wrap : Cause → ε) :
    HostAttempt ε Unit :=
  retryUntilAvailable options.bootloaderTimeout options.pollInterval do
    check (← flashCall (.openSerial device baudRate)) wrap

def waitForUsbDeviceAccess (sysfsPath : Path) : HostAttempt SystemFlashError Unit := do
  let deviceNode ← check (← flashCall (.usbDeviceNode sysfsPath)) .usbAccess
  retryUntilAvailable 5000 50 do
    check (← flashCall (.openUsbDevice deviceNode)) fun error => .usbAccess
      (.leaf (deviceNode ++ " was not readable and writable within 5s: " ++ error.text))

def requestCanBootloader (uuid : ℕ) : HostAttempt CanBootstrapError Unit := do
  if MAX_CAN_UUID < uuid then throw (.uuidOutOfRange uuid)
  check (← flashCall (.requestCanBootloader uuid)) .transport

/-- Assigns Katapult's temporary node ID; the adapter then verifies the UUID. -/
def connectCan (uuid : ℕ) : HostAttempt CanBootstrapError Katapult.KatapultAdapter := do
  check (← flashCall (.assignNode uuid)) .transport
  return .forCanbus uuid

def overTransport {ε α : Type} (x : Attempt (Katapult.Exchange Str) ε α) : HostAttempt ε α :=
  x.translate (fun request => HostCall.flash (.exchange request)) fun _ answer => answer

def overSambaPort {ε α : Type} (x : Attempt Samba.PortAnswer ε α) : HostAttempt ε α :=
  x.translate (fun call => HostCall.flash (.sambaPort call)) fun _ answer => answer

def selectObserved (observed : ObservedUsbBootloader) (transport : Str) :
    HostAttempt SystemFlashError SelectedUsbBootloader := do
  let snapshot ← match observed.kind with
    | some _ => pure ⟨[], [], [], [], []⟩
    | none => flashCall (.usbTopologySnapshot observed.sysfsPath)
  check (selectUsbBootloader observed snapshot) (.selection · transport)

def resolveSerialRoute (observed : ObservedUsbBootloader) (kconfig transport : Str) :
    HostAttempt SystemFlashError SerialFlashRoute := do
  match ← selectObserved observed transport with
  | .katapult _ serialDevice => return .katapult serialDevice
  | .stm32Dfu sysfsPath =>
    return .stm32Dfu sysfsPath (← check (stm32TargetFromKconfig kconfig) .stm32Target)
  | .picoBoot sysfsPath => return .picoBoot sysfsPath
  | .samBa _ serialDevice =>
    return .samBa serialDevice (← check (Samba.targetFromKconfig kconfig) .samBa)

def katapultRoute (observed : ObservedUsbBootloader) (transport : Str) :
    HostAttempt SystemFlashError Path := do
  match ← selectObserved observed transport with
  | .katapult _ serialDevice => return serialDevice
  | .stm32Dfu _ => throw (.notKatapult "STM32 DFU" transport)
  | .picoBoot _ => throw (.notKatapult "PicoBoot" transport)
  | .samBa _ _ => throw (.notKatapult "SAM-BA" transport)

end Bootloaders

/-- The USB serial device `transport` names; nothing else is sent firmware on `route`. -/
def usbSerialDevice (transport : McuTransport) (route : PrebuiltRoute) :
    HostAttempt SystemFlashError Path := do
  match transport with
  | .serial device =>
    if ← flashCall (.isTtyWithoutUsbDevice device) then
      throw (.linkRefused route ("the UART " ++ device))
    else return device
  | .can _ _ => throw (.linkRefused route transport.describe)

section Flash

variable (sha1 : Bytes → Bytes) (options : SystemFlashOptions) (name : Str)

def report {ε : Type} (progress : SystemFlashProgress) : HostAttempt ε Unit :=
  hook (.progress name (updateProgress progress))

/-- Flashes through Katapult's USB serial device, refusing a Katapult that starts its
application anywhere but where it is expected to. -/
def flashKatapultSerial (serialDevice : Path) (firmware : Bytes)
    (applicationStart : Option UInt32) : HostAttempt SystemFlashError FlashResult := do
  report name .flashing
  openSerialWhenReady options serialDevice options.baudRate .katapultOpen
  let adapter := Katapult.KatapultAdapter.new
  let adapter := (applicationStart.map adapter.expectingApplicationStart).getD adapter
  ExceptT.adapt .katapultFlash (overTransport (adapter.flash sha1 firmware))

def dispatchSerialRoute (route : SerialFlashRoute) (firmware : Bytes) :
    HostAttempt SystemFlashError FlashResult := do
  match route with
  | .katapult serialDevice => flashKatapultSerial sha1 options name serialDevice firmware none
  | .stm32Dfu sysfsPath applicationStart =>
    waitForUsbDeviceAccess sysfsPath
    report name .flashing
    check (← flashCall (.stm32Dfu sysfsPath applicationStart firmware))
      fun error => .stm32Dfu (.transfer error)
  | .samBa serialDevice target =>
    report name .flashing
    retryUntilAvailable options.bootloaderTimeout options.pollInterval do
      check (← flashCall (.openSambaPort serialDevice)) .samBaOpen
    ExceptT.adapt .samBa (overSambaPort (Samba.flash target firmware))
  | .picoBoot sysfsPath =>
    waitForUsbDeviceAccess sysfsPath
    report name .flashing
    check (← flashCall (.picoBoot sysfsPath firmware)) .picoBoot

def flashObservedUsb (observed : ObservedUsbBootloader) (kconfig : Str) (firmware : Bytes)
    (transport : Str) : HostAttempt SystemFlashError FlashResult := do
  report name .bootloaderReady
  let route ← resolveSerialRoute observed kconfig transport
  dispatchSerialRoute sha1 options name route firmware

def flashUartKatapult (serialDevice : Path) (kconfig : Str) (firmware : Bytes) :
    HostAttempt SystemFlashError FlashResult := do
  let baudRate := (kconfigSerialBaud kconfig).getD options.baudRate
  report name .enteringBootloader
  check (← flashCall (.requestSerialBootloader serialDevice baudRate)) .uartBootloaderRequest
  openSerialWhenReady options serialDevice baudRate .katapultOpen
  let _ ← ExceptT.adapt .uartKatapultNotEntered (overTransport Katapult.connect)
  report name .bootloaderReady
  report name .flashing
  ExceptT.adapt .katapultFlash
    (overTransport (Katapult.KatapultAdapter.new.flash sha1 firmware))

def flashSerialSystem (runningDevice : Path) (kconfig : Str) (firmware : Bytes) :
    HostAttempt SystemFlashError FlashResult := do
  if ← flashCall (.isTtyWithoutUsbDevice runningDevice) then
    flashUartKatapult sha1 options name runningDevice kconfig firmware
  else
    report name .enteringBootloader
    let observed ← ExceptT.adapt .bootloader
      (requestAndObserveAnyUsbBootloader options runningDevice)
    flashObservedUsb sha1 options name observed kconfig firmware runningDevice

def flashCanNode (uuid : ℕ) (firmware : Bytes) (applicationStart : Option UInt32) :
    HostAttempt SystemFlashError FlashResult := do
  let adapter ← ExceptT.adapt .can (connectCan uuid)
  report name .bootloaderReady
  report name .flashing
  let adapter := (applicationStart.map adapter.expectingApplicationStart).getD adapter
  ExceptT.adapt .canFlash (overTransport (adapter.flash sha1 firmware))

/-- A USB-CAN bridge leaves CAN when it enters its bootloader, and is then flashed over USB. -/
def flashCanSystem (interface : Str) (uuid : ℕ) (kconfig : Str) (firmware : Bytes) :
    HostAttempt SystemFlashError FlashResult := do
  report name .enteringBootloader
  if kconfigSelectsUsbCanBridge kconfig then
    let usbPath ← check (← flashCall (.usbDevicePathForCanInterface interface)) .canUsbTopology
    let initial ← flashCall (.usbIdentity usbPath)
    check (← flashCall (.openCan interface)) .canSocket
    ExceptT.adapt .can (requestCanBootloader uuid)
    let observed ← ExceptT.adapt .bootloader
      (observeAnyUsbBootloaderAtPath options usbPath initial)
    flashObservedUsb sha1 options name observed kconfig firmware
      ("CAN " ++ interface ++ " (uuid " ++ List.leftpad 16 '0' (hex uuid) ++ ")")
  else
    check (← flashCall (.openCan interface)) .canSocket
    ExceptT.adapt .can (requestCanBootloader uuid)
    flashCanNode sha1 name uuid firmware none

def flashPreparedSystem (arch : TargetArch) (prepared : PreparedBuild) (firmware : Bytes) :
    HostAttempt SystemFlashError FlashResult := do
  let kconfig := prepared.request.kconfig
  if isLinuxHost kconfig then
    report name .installing
    ExceptT.adapt .linuxHost (HostMcuInstaller.install arch options.hostMcuUnitFile firmware)
  else match prepared.transport with
    | none => throw .missingTransport
    | some (.serial device) => flashSerialSystem sha1 options name device kconfig firmware
    | some (.can interface uuid) =>
      flashCanSystem sha1 options name interface uuid kconfig firmware

def flashPrebuiltCan (interface : Str) (uuid : ℕ) (firmware : Bytes)
    (applicationStart : UInt32) : HostAttempt SystemFlashError FlashResult := do
  report name .enteringBootloader
  check (← flashCall (.openCan interface)) .canSocket
  ExceptT.adapt .can (requestCanBootloader uuid)
  flashCanNode sha1 name uuid firmware (some applicationStart)

/-- The USB part of `flashPrebuiltKatapult`, once the link is known to be allowed. -/
def flashPrebuiltUsb (device : Path) (firmware : Bytes) (applicationStart : UInt32) :
    HostAttempt SystemFlashError FlashResult := do
  report name .enteringBootloader
  let observed ← ExceptT.adapt .bootloader (requestAndObserveAnyUsbBootloader options device)
  report name .bootloaderReady
  let serialDevice ← katapultRoute observed device
  flashKatapultSerial sha1 options name serialDevice firmware (some applicationStart)

/-- Flashes prebuilt firmware, linked to start at `applicationStart`, to an MCU on one of
`links`, through Katapult only. -/
def flashPrebuiltKatapult (prepared : PreparedBuild) (firmware : Bytes)
    (applicationStart : UInt32) (links : PrebuiltLinks) :
    HostAttempt SystemFlashError FlashResult := do
  let route : PrebuiltRoute := match links with
    | .usbOnly => .katapultUsb
    | .usbOrCan => .katapultUsbOrCan
  match prepared.transport, links with
  | none, _ => throw .missingTransport
  | some (.can interface uuid), .usbOrCan =>
    flashPrebuiltCan sha1 name interface uuid firmware applicationStart
  | some transport, _ =>
    let device ← usbSerialDevice transport route
    flashPrebuiltUsb sha1 options name device firmware applicationStart

variable {V : Type}

def flashBeaconBootloader (bootloader : Beacon.ObservedBootloader)
    (image : Beacon.FirmwareImage V) : HostAttempt SystemFlashError FlashResult := do
  if bootloader.usbId ≠ image.usbId then
    throw (.beaconImageMismatch bootloader.usbId image.usbId)
  waitForUsbDeviceAccess bootloader.sysfsPath
  report name .flashing
  check (← flashCall (.beaconDfu bootloader image.payload))
    fun error => .beaconDfu (.transfer error)

/-- The rest of `flashBeacon`, once the link is known to be allowed. -/
def flashBeaconUsb (device : Path) (image : Beacon.FirmwareImage V) :
    HostAttempt SystemFlashError FlashResult := do
  report name .enteringBootloader
  let bootloader ← ExceptT.adapt .beaconDfu (requestAndObserveBeaconBootloader options device)
  report name .bootloaderReady
  flashBeaconBootloader name bootloader image

def flashBeacon (prepared : PreparedBuild) (image : Beacon.FirmwareImage V) :
    HostAttempt SystemFlashError FlashResult := do
  match prepared.transport with
  | none => throw .missingTransport
  | some transport =>
    let device ← usbSerialDevice transport .beaconUsb
    flashBeaconUsb options name device image

end Flash
end Aldis

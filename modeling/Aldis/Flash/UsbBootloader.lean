import Aldis.Host.Cause
import Aldis.Lib.Path

/-!
# USB bootloaders

The identity of a USB device, which bootloader it is, and how entering one or choosing a
backend for it can fail.
-/

namespace Aldis

open Text

/-- The lowercase vendor and product ids, separated by a colon, and the manufacturer. -/
structure UsbIdentity where
  usbId : Str
  manufacturer : Str
  deriving DecidableEq

/-- Both ids are present; a device that is re-enumerating briefly reports neither. -/
def UsbIdentity.isComplete (identity : UsbIdentity) : Bool :=
  match splitOnce ":" identity.usbId with
  | some (vendor, product) => vendor ≠ [] && product ≠ []
  | none => false

inductive UsbBootloaderKind where
  | katapult
  | stm32Dfu
  | picoBoot
  | samBa
  deriving DecidableEq

def KATAPULT_USB_ID : Str := "1d50:6177"
def STM32_DFU_USB_ID : Str := "0483:df11"
def PICOBOOT_USB_IDS : List Str := ["2e8a:0003", "2e8a:000f"]
def SAMBA_USB_IDS : List Str := ["2886:002f"]

def classifyUsbIdentity (usbId manufacturer : Str) : Option UsbBootloaderKind :=
  if eqIgnoreAsciiCase usbId KATAPULT_USB_ID || eqIgnoreAsciiCase manufacturer "katapult" then
    some .katapult
  else if eqIgnoreAsciiCase usbId STM32_DFU_USB_ID then some .stm32Dfu
  else if PICOBOOT_USB_IDS.any (eqIgnoreAsciiCase usbId) then some .picoBoot
  else if SAMBA_USB_IDS.any (eqIgnoreAsciiCase usbId) then some .samBa
  else none

structure ObservedUsbBootloader where
  sysfsPath : Path
  usbId : Str
  manufacturer : Str
  serialDevice : Option Path
  deriving DecidableEq

def ObservedUsbBootloader.kind (observed : ObservedUsbBootloader) : Option UsbBootloaderKind :=
  classifyUsbIdentity observed.usbId observed.manufacturer

inductive SelectedUsbBootloader where
  | katapult (sysfsPath serialDevice : Path)
  | stm32Dfu (sysfsPath : Path)
  | picoBoot (sysfsPath : Path)
  | samBa (sysfsPath serialDevice : Path)
  deriving DecidableEq

/-- What sysfs says of a device beside its identity; an unreadable attribute is empty. -/
structure UsbTopologySnapshot where
  deviceClass : Str
  deviceSubclass : Str
  deviceProtocol : Str
  product : Str
  serial : Str
  deriving DecidableEq

structure UnsupportedBootloaderIdentity where
  usbId : Str
  manufacturer : Str
  product : Str
  serial : Str
  deviceClass : Str
  deviceSubclass : Str
  deviceProtocol : Str
  sysfsPath : Path
  deriving DecidableEq

inductive UsbBootloaderSelectionError where
  | unsupported (identity : UnsupportedBootloaderIdentity)
  | katapultSerialDeviceMissing (sysfsPath : Path)
  | samBaSerialDeviceMissing (sysfsPath : Path)
  deriving DecidableEq

def UsbBootloaderSelectionError.display : UsbBootloaderSelectionError → Str
  | unsupported identity => "USB device " ++ identity.usbId ++ " (" ++ identity.manufacturer ++
      ") is not a supported bootloader\n  product:      " ++ identity.product ++
      "\n  serial:       " ++ identity.serial ++ "\n  device class: " ++ identity.deviceClass ++
      "/" ++ identity.deviceSubclass ++ "/" ++ identity.deviceProtocol ++
      "\n  sysfs path:   " ++ identity.sysfsPath
  | katapultSerialDeviceMissing path =>
    "Katapult bootloader at " ++ path ++ " has no unique serial device"
  | samBaSerialDeviceMissing path =>
    "SAM-BA bootloader at " ++ path ++ " has no unique serial device"

def nonEmptyOr (value fallback : Str) : Str := if value = [] then fallback else value

/-- Selects a backend from an observed identity; `snapshot` is read only for the report of an
unsupported one. -/
def selectUsbBootloader (observed : ObservedUsbBootloader) (snapshot : UsbTopologySnapshot) :
    Except UsbBootloaderSelectionError SelectedUsbBootloader :=
  match observed.kind with
  | some .katapult => match observed.serialDevice with
    | some device => .ok (.katapult observed.sysfsPath device)
    | none => .error (.katapultSerialDeviceMissing observed.sysfsPath)
  | some .stm32Dfu => .ok (.stm32Dfu observed.sysfsPath)
  | some .picoBoot => .ok (.picoBoot observed.sysfsPath)
  | some .samBa => match observed.serialDevice with
    | some device => .ok (.samBa observed.sysfsPath device)
    | none => .error (.samBaSerialDeviceMissing observed.sysfsPath)
  | none => .error (.unsupported {
      usbId := observed.usbId
      manufacturer := observed.manufacturer
      product := nonEmptyOr snapshot.product "unknown"
      serial := nonEmptyOr snapshot.serial "none"
      deviceClass := snapshot.deviceClass
      deviceSubclass := snapshot.deviceSubclass
      deviceProtocol := snapshot.deviceProtocol
      sysfsPath := observed.sysfsPath })

def resetReport : Option Str → Str
  | some error => " (the serial request reported: " ++ error ++ ")"
  | none => []

inductive UsbBootloaderError where
  | notUsbDevice (device : Path)
  | notDetected (device : Path) (resetError : Option Str)
  | noEffect (device : Path) (resetError : Option Str)
  deriving DecidableEq

def UsbBootloaderError.display : UsbBootloaderError → Str
  | notUsbDevice device => device ++ " is not a USB device"
  | notDetected device resetError =>
    "no usable bootloader was found at " ++ device ++ " before the timeout" ++
      resetReport resetError
  | noEffect device resetError =>
    device ++ " still had its application's USB identity when the bootloader wait timed out" ++
      resetReport resetError

/-- A wait ran out with the device as it was, or with something unusable in its place. -/
def timeoutOutcome (initial lastObserved : UsbIdentity) (device : Path)
    (resetError : Option Str) : UsbBootloaderError :=
  if lastObserved = initial then .noEffect device resetError else .notDetected device resetError

/-- A serial bootloader's tty enumerates after its USB identity, and is waited for. -/
def awaitingSerialDevice (usbId manufacturer : Str) (serialDevice : Option Path) : Bool :=
  serialDevice.isNone && match classifyUsbIdentity usbId manufacturer with
    | some .katapult | some .samBa => true
    | _ => false

def observedIfReady (usbPath : Path) (identity : UsbIdentity) (tty : Option Path) :
    Option ObservedUsbBootloader :=
  if awaitingSerialDevice identity.usbId identity.manufacturer tty then none
  else some ⟨usbPath, identity.usbId, identity.manufacturer, tty⟩

end Aldis

import Aldis.Beacon
import Aldis.Flash.UsbBootloader

/-!
# Beacon's DFU bootloader

A Beacon bootloader at one USB topology, and how entering or flashing it can fail.
-/

namespace Aldis.Beacon

open Text

structure ObservedBootloader where
  sysfsPath : Path
  vendorId : UInt16
  productId : UInt16
  product : Str
  deriving DecidableEq

def ObservedBootloader.usbId (bootloader : ObservedBootloader) : Str :=
  Beacon.usbId bootloader.vendorId bootloader.productId

/-- `transfer` stands for the failures of the USB and DFU libraries. -/
inductive BeaconDfuError where
  | notUsbDevice (device : Path)
  | notEntered (device : Path) (resetError : Option Str)
  | transfer (error : Cause)
  deriving DecidableEq

def BeaconDfuError.cause : BeaconDfuError → Cause
  | notUsbDevice device => .leaf (device ++ " is not a USB device")
  | notEntered device resetError => .leaf
      ("the Beacon at " ++ device ++ " did not enter its bootloader" ++ resetReport resetError)
  | transfer error => error

end Aldis.Beacon

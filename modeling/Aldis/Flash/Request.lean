import Aldis.Prebuilt
import Aldis.Prepare

/-!
# Requests to flash prebuilt firmware

The bytes, how they may be sent, and the one MCU they were prepared for.
-/

namespace Aldis

open Text Octets

structure Destination where
  name : Str
  model : Str
  transport : Option McuTransport
  deriving DecidableEq

namespace Destination

def of (mcu : Mcu) : Destination := ⟨mcu.name, mcu.mcu, mcu.transport⟩

def is (destination : Destination) (prepared : PreparedBuild) : Bool :=
  destination.name == prepared.targetName && destination.model == prepared.mcu &&
    destination.transport == prepared.transport

theorem is_iff {destination : Destination} {prepared : PreparedBuild} :
    destination.is prepared = true ↔
      destination = ⟨prepared.targetName, prepared.mcu, prepared.transport⟩ := by
  cases destination
  simp [is, and_assoc]

end Destination

/-- The links a prebuilt image may be sent to Katapult over; never a UART. -/
inductive PrebuiltLinks where
  | usbOnly
  | usbOrCan
  deriving DecidableEq

inductive Protocol (V : Type) where
  | katapult (image : Bytes) (applicationStart : UInt32) (links : PrebuiltLinks)
  | beaconDfu (image : Beacon.FirmwareImage V)
  deriving DecidableEq

structure FlashRequest (V : Type) where
  vendor : Vendor
  destination : Destination
  protocol : Protocol V
  deriving DecidableEq

namespace FlashRequest

variable {V : Type}

def katapult (vendor : Vendor) (mcu : Mcu) (image : Bytes) (applicationStart : UInt32)
    (links : PrebuiltLinks) : FlashRequest V :=
  ⟨vendor, .of mcu, .katapult image applicationStart links⟩

def beacon (mcu : Mcu) (image : Beacon.FirmwareImage V) : FlashRequest V :=
  ⟨.beacon, .of mcu, .beaconDfu image⟩

end FlashRequest
end Aldis

import Aldis.Lib.Text

/-!
# What Moonraker reports

The inventory of MCUs with their configured transports, Klippy's state and Klipper's print
state.
-/

namespace Aldis

open Text

/-- A serial device, or a CAN interface with the Katapult identity behind it. -/
inductive McuTransport where
  | serial (device : Str)
  | can (interface : Str) (uuid : ℕ)
  deriving DecidableEq

def McuTransport.describe : McuTransport → Str
  | .serial device => "serial (" ++ device ++ ")"
  | .can interface uuid => "CAN (" ++ interface ++ ", " ++ List.leftpad 12 '0' (hex uuid) ++ ")"

structure Mcu where
  name : Str
  app : Option Str
  version : Option Str
  mcu : Str
  canbusFrequencyHz : Option ℕ
  buildVersions : Option Str
  transport : Option McuTransport
  kconfig : Str
  deriving DecidableEq

namespace Mcu

variable (mcu : Mcu)

/-- The reported `app`, trimmed; a blank one counts as absent. -/
def appName : Option Str := (mcu.app.map trim).filter (· ≠ [])

def versionName : Option Str := mcu.version.bind (fun version => (splitWhitespace version).head?)

end Mcu

inductive UnreportedReason where
  | notIdentified
  | notResponding
  deriving DecidableEq

def UnreportedReason.display : UnreportedReason → Str
  | notIdentified => "not identified by Klipper"
  | notResponding => "not responding; run `aldis reboot` or power-cycle the board"

structure UnreportedMcu where
  name : Str
  transport : Option McuTransport
  reason : UnreportedReason
  deriving DecidableEq

structure McuInventory where
  mcus : List Mcu
  unreported : List UnreportedMcu
  deriving DecidableEq

def McuInventory.find (inventory : McuInventory) (name : Str) : Option Mcu :=
  inventory.mcus.find? (fun mcu => mcu.name = name)

inductive PrintState where
  | standby
  | printing
  | paused
  | complete
  | cancelled
  | error
  | unknown (state : Str)
  deriving DecidableEq

namespace PrintState

/-- Whether stopping Klipper now cannot interrupt a print. -/
def isIdle : PrintState → Bool
  | standby | complete | cancelled | error => true
  | printing | paused | unknown _ => false

def display : PrintState → Str
  | standby => "standby"
  | printing => "printing"
  | paused => "paused"
  | complete => "complete"
  | cancelled => "cancelled"
  | error => "error"
  | unknown state => state

end PrintState

inductive KlippyState where
  | ready
  | startup
  | error
  | shutdown
  | disconnected
  deriving DecidableEq

structure HostInfo where
  state : KlippyState
  stateMessage : Str
  softwareVersion : Option Str
  klipperPath : Option Str
  pythonPath : Option Str
  deriving DecidableEq

end Aldis

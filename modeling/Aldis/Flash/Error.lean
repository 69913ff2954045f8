import Aldis.Flash.BeaconBootloader
import Aldis.Flash.Katapult.Adapter
import Aldis.Flash.Samba.Adapter
import Aldis.Host.Command
import Aldis.Moonraker

/-!
# How a flash can fail

The errors of the native backends and of their dispatch. Failures of libraries and of the
operating system appear as what they show.
-/

namespace Aldis

open Text Katapult Samba Beacon

inductive Stm32DfuError where
  | invalidFlashStartConfiguration
  | transfer (error : Cause)
  deriving DecidableEq

def Stm32DfuError.cause : Stm32DfuError → Cause
  | invalidFlashStartConfiguration =>
    .leaf "embedded Kconfig did not select exactly one STM32 flash-start symbol"
  | transfer error => error

inductive CanBootstrapError where
  | uuidOutOfRange (uuid : ℕ)
  | transport (source : Cause)
  deriving DecidableEq

def CanBootstrapError.cause : CanBootstrapError → Cause
  | uuidOutOfRange uuid => .leaf
      ("CAN UUID " ++ hex0x 1 uuid ++ " does not fit Katapult's six-byte CAN UUID field")
  | transport source => .headline "CAN transport error" source

def HOST_MCU_BINARY : Str := "/usr/local/bin/klipper_mcu"

/-- The step an installation failed in, shown as the state it left. -/
inductive InstallStep where
  | install
  | sync
  | restart
  deriving DecidableEq

def InstallStep.display : InstallStep → Str
  | install => "could not install " ++ HOST_MCU_BINARY
  | sync => "installed " ++ HOST_MCU_BINARY ++ " but could not flush it to disk"
  | restart => "installed " ++ HOST_MCU_BINARY ++ " but could not restart klipper-mcu"

inductive LinuxHostError where
  | notHostElf
  | serviceNotInstalled (unitFile : Path)
  | commandPort (step : InstallStep) (source : CommandError)
  | commandFailed (step : InstallStep) (output : CommandOutput)
  deriving DecidableEq

def installFailureDetail (output : CommandOutput) : Str :=
  let stderr := trim output.stderr
  if contains "a password is required" stderr then stderr ++ "; run sudo aldis setup" else stderr

def LinuxHostError.cause : LinuxHostError → Cause
  | notHostElf => .leaf "the host MCU firmware is not an ELF executable for this host"
  | serviceNotInstalled unitFile =>
    .leaf ("the klipper-mcu service is not installed (" ++ unitFile ++ ")")
  | commandPort step source => .headline step.display source.cause
  | commandFailed step output => .leaf (step.display ++ ": " ++ installFailureDetail output)

/-- The route prebuilt firmware takes to its MCU, which decides the wording of a refusal. -/
inductive PrebuiltRoute where
  | katapultUsb
  | katapultUsbOrCan
  | beaconUsb
  deriving DecidableEq

namespace PrebuiltRoute

def subject : PrebuiltRoute → Str
  | katapultUsb | katapultUsbOrCan => "this firmware"
  | beaconUsb => "Beacon firmware"

def allowed : PrebuiltRoute → Str
  | katapultUsb => "through Katapult on a USB serial device"
  | katapultUsbOrCan => "through Katapult over USB or CAN"
  | beaconUsb => "over USB"

def device : PrebuiltRoute → Str
  | katapultUsb | katapultUsbOrCan => "MCU"
  | beaconUsb => "Beacon"

end PrebuiltRoute

inductive SystemFlashError where
  | missingTransport
  | bootloader (error : UsbBootloaderError)
  | usbAccess (error : Cause)
  | selection (error : UsbBootloaderSelectionError) (transport : Str)
  | stm32Target (error : Stm32DfuError)
  | uartBootloaderRequest (error : Cause)
  | uartKatapultNotEntered (error : SessionError)
  | katapultOpen (error : Cause)
  | katapultFlash (error : KatapultFlashError)
  | stm32Dfu (error : Stm32DfuError)
  | picoBoot (error : Cause)
  | samBaOpen (error : Cause)
  | samBa (error : SambaError)
  | canSocket (error : Cause)
  | canUsbTopology (error : Cause)
  | can (error : CanBootstrapError)
  | canFlash (error : KatapultFlashError)
  | linuxHost (error : LinuxHostError)
  | linkRefused (route : PrebuiltRoute) (transport : Str)
  | notKatapult (bootloader transport : Str)
  | beaconDfu (error : BeaconDfuError)
  | beaconImageMismatch (bootloader image : Str)
  deriving DecidableEq

namespace SystemFlashError

/-- Katapult over serial and over CAN share the refusal of a mismatched application start. -/
def applicationStartRefusal (error : KatapultFlashError) : Str :=
  "refusing to flash: " ++ error.cause.text ++
    "; Katapult was asked to start the existing application"

def canFlashDisplay : KatapultFlashError → Str
  | .session (.retriesExhausted .connect _) =>
    "the CAN bootloader did not respond to a connection request"
  | .applicationStartMismatch expected actual =>
    applicationStartRefusal (.applicationStartMismatch expected actual)
  | .session _ => "the CAN bootloader rejected or could not verify the firmware transfer"

def katapultFlashDisplay : KatapultFlashError → Str
  | .applicationStartMismatch expected actual =>
    applicationStartRefusal (.applicationStartMismatch expected actual)
  | .session _ => "the Katapult bootloader rejected or could not verify the firmware transfer"

def bootloaderDisplay : UsbBootloaderError → Str
  | .noEffect device resetError =>
    "no bootloader appeared at " ++ device ++
      ": it still had its application's USB identity when the wait timed out" ++
      resetReport resetError ++ "; aldis can flash Katapult, STM32 DFU, RP2040/RP2350 PicoBoot, " ++
      "and SAMD21 SAM-BA only"
  | error => error.display

def cause : SystemFlashError → Cause
  | missingTransport => .leaf "the MCU does not expose a configured transport"
  | bootloader error => .headline (bootloaderDisplay error) (.leaf error.display)
  | usbAccess error => .headline ("the USB bootloader was not accessible: " ++ error.text) error
  | selection error transport => .headline
      ("the re-enumerated bootloader is not supported for automatic flashing: " ++
        error.display ++ "\n  transport:    " ++ transport) (.leaf error.display)
  | stm32Target error => .headline
      "the STM32 firmware configuration has no valid flash address" error.cause
  | uartBootloaderRequest error => .headline
      ("could not ask the MCU on its serial port to enter Katapult: " ++ error.text) error
  | uartKatapultNotEntered error => .headline
      ("the MCU did not enter Katapult after the serial bootloader request; check that Katapult " ++
        "is built for this UART and baud rate and that the wiring is correct") error.cause
  | katapultOpen error => .headline
      ("could not open the Katapult bootloader: " ++ error.text) error
  | katapultFlash error => .headline (katapultFlashDisplay error) error.cause
  | stm32Dfu error => .headline "STM32 DFU flashing failed" error.cause
  | picoBoot error => .headline "RP PicoBoot flashing failed" error
  | samBaOpen error => .headline ("could not open the SAM-BA bootloader: " ++ error.text) error
  | samBa error => .headline ("SAM-BA flashing failed: " ++ error.cause.text) error.cause
  | canSocket error => .headline
      ("could not open the configured CAN interface: " ++ error.text) error
  | canUsbTopology error => .headline
      ("could not identify the USB CAN adapter: " ++ error.text) error
  | can error => .headline "could not enter the bootloader over CAN" error.cause
  | canFlash error => .headline (canFlashDisplay error) error.cause
  | linuxHost error => error.cause
  | linkRefused route transport => .leaf
      (route.subject ++ " is flashed only " ++ route.allowed ++ ", and the " ++ route.device ++
        " is configured on " ++ transport)
  | notKatapult entered transport => .leaf
      (transport ++ " entered " ++ entered ++ ", but this firmware is flashed only through " ++
        "Katapult; run `aldis reboot` to leave the bootloader")
  | beaconDfu error => error.cause
  | beaconImageMismatch observed image => .leaf
      ("refusing to flash: the Beacon's bootloader is " ++ observed ++
        " but the firmware image is for " ++ image ++
        "; the Beacon is left in its bootloader, so flash it with " ++
        "beacon_klipper's update_firmware.py or power-cycle it")

end SystemFlashError
end Aldis

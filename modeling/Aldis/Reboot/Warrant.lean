import Aldis.FlashCommand.Checks
import Aldis.Reboot

/-!
# What the reboot command may do, and when

Whatever is answered, the command only looks until it holds the lock. A bootloader is left only
where the scan of the bus has shown it and the operator agreed to it, and by the commands that
start its application; only a Beacon is flashed, with the image its bootloader names; and Klipper
is restarted only after a Beacon came back, where it is local and was last seen not to be ready.
-/

namespace Aldis.Cli

open Interaction World Attempt Text Octets

def isHeading : CliCall → Bool
  | .ui (.heading _) => true
  | _ => false

/-- Calls that only look at the host, or speak to the operator. -/
def looks : CliCall → Bool
  | .acquireLock | .ui _ | .usbDeviceDirs _ => true
  | .host (.attempts _ _) | .host (.mcu .hostInfo) => true
  | .host (.file (.pathExists _)) | .host (.file (.readToString _)) => true
  | .host (.flash (.usbIdentity _)) | .host (.flash (.usbTty _)) => true
  | .host (.flash (.beaconBootloaderAt _)) | .host (.flash (.usbDeviceNode _)) => true
  | _ => false

/-- What SAM-BA's port is used for beside being read: the handshake and the reset. -/
def resetsOnly : Samba.PortCall → Prop
  | .writeAll bytes => bytes ∈ [Samba.MonitorCommand.encode .normal,
      Samba.MonitorCommand.encode .version, Samba.MonitorCommand.encode
        (.writeWord Samba.AIRCR.toNat Samba.AIRCR_SYSRESETREQ.toNat)]
  | _ => True

variable (arguments : RebootArgs)

/-- The scan of the bus has shown the bootloader. -/
structure Detected (past : List CliEvent) (bootloader : DetectedBootloader) : Prop where
  listed : ∃ dirs, ⟨.usbDeviceDirs USB_SYSFS_ROOT, dirs⟩ ∈ past ∧
    bootloader.observed.sysfsPath ∈ dirs
  identified : ∃ identity : UsbIdentity,
    ⟨.host (.flash (.usbIdentity bootloader.observed.sysfsPath)), identity⟩ ∈ past ∧
      classifyUsbIdentity identity.usbId identity.manufacturer = some bootloader.kind
  serial : ⟨.host (.flash (.usbTty bootloader.observed.sysfsPath)),
    bootloader.observed.serialDevice⟩ ∈ past

def DetectedBeacon (past : List CliEvent) (bootloader : Beacon.ObservedBootloader) : Prop :=
  ∃ dirs sysfsPath, ⟨.usbDeviceDirs USB_SYSFS_ROOT, dirs⟩ ∈ past ∧ sysfsPath ∈ dirs ∧
    ⟨.host (.flash (.beaconBootloaderAt sysfsPath)), some bootloader⟩ ∈ past

/-- The device with this heading is the last that the operator was shown. -/
def Headed (heading : Str) (past shown : List CliEvent) : Prop :=
  (∃ x, past = x ++ ⟨.ui (.heading heading), ()⟩ :: shown) ∧ ∀ ev ∈ shown, isHeading ev.1 = false

/-- The operator agreed to what is done with the device with this heading. -/
def AgreedTo (heading : Str) (past : List CliEvent) : Prop :=
  ∃ shown, Headed heading past shown ∧
    (arguments.yes = true ∨ ∃ text, ⟨.ui (.confirm text), true⟩ ∈ shown)

/-- The calls by which a bootloader is left for its application. -/
inductive Leaves (past : List CliEvent) (bootloader : DetectedBootloader) : CliCall → Prop
  | picoBoot (hk : bootloader.kind = .picoBoot) :
      Leaves past bootloader (.rebootPicoboot bootloader.observed.sysfsPath)
  | stm32Dfu {start : UInt32} (hk : bootloader.kind = .stm32Dfu)
      (hp : ⟨.probeApplicationStart bootloader.observed.sysfsPath, .ok (.found start)⟩ ∈ past) :
      Leaves past bootloader (.leaveSystem bootloader.observed.sysfsPath start)
  | openKatapult {device : Path} (hk : bootloader.kind = .katapult)
      (hs : bootloader.observed.serialDevice = some device) :
      Leaves past bootloader (.host (.flash (.openSerial device KATAPULT_BAUD_RATE)))
  | katapult {command : Katapult.Command} {request : Bytes} (hk : bootloader.kind = .katapult)
      (hc : command = .connect ∨ command = .complete)
      (he : Katapult.encodeCommand command [] = .ok request) :
      Leaves past bootloader (.host (.flash (.exchange request)))
  | openSamBa {device : Path} (hk : bootloader.kind = .samBa)
      (hs : bootloader.observed.serialDevice = some device) :
      Leaves past bootloader (.host (.flash (.openSambaPort device)))
  | samBa {call : Samba.PortCall} (hk : bootloader.kind = .samBa) (hc : resetsOnly call) :
      Leaves past bootloader (.host (.flash (.sambaPort call)))

/-- A Beacon was flashed, then left its bootloader, and then had its serial port back. -/
def BeaconBack (past : List CliEvent) : Prop :=
  ∃ (bootloader : Beacon.ObservedBootloader) (payload : Bytes) (result : FlashResult) (tty : Path)
      (a b c d : List CliEvent),
    past = a ++ ⟨.host (.flash (.beaconDfu bootloader payload)), .ok result⟩ ::
      (b ++ ⟨.host (.flash (.beaconBootloaderAt bootloader.sysfsPath)), none⟩ ::
        (c ++ ⟨.host (.flash (.usbTty bootloader.sysfsPath)), some tty⟩ :: d))

def RESTART_QUESTION : Str := "Restart Klipper (FIRMWARE_RESTART) so it reconnects the Beacon?"

/-- Klipper was last seen not to be ready, and the operator agreed to its restart. -/
def RestartAgreed (past : List CliEvent) : Prop :=
  ∃ x info, info.state ≠ .ready ∧ past = x ++ ⟨.host (.mcu .hostInfo), .ok info⟩ ::
    if arguments.yes then [] else [⟨.ui (.confirm RESTART_QUESTION), true⟩]

/-- What `past` has to have shown before a call that does not only look. -/
inductive Sanctions (V : Type) [Semver V] (past : List CliEvent) : CliCall → Prop
  | probe {bootloader : DetectedBootloader} (hd : Detected past bootloader)
      (hk : bootloader.kind = .stm32Dfu) :
      Sanctions V past (.probeApplicationStart bootloader.observed.sysfsPath)
  | leave {bootloader : DetectedBootloader} {call : CliCall} (hd : Detected past bootloader)
      (ha : AgreedTo arguments bootloader.heading past) (hc : Leaves past bootloader call) :
      Sanctions V past call
  | recover {request : RecoveryRequest V} {info : Except Cause HostInfo} {call : CliCall}
      (hd : DetectedBeacon past request.bootloader)
      (ha : AgreedTo arguments (beaconHeading request.bootloader) past)
      (hi : ⟨.host (.mcu .hostInfo), info⟩ ∈ past)
      (hp : prepareBeaconRecovery V arguments (recoveryCheckout arguments info)
        request.bootloader = .ok request)
      (hc : (∃ node, call = .host (.flash (.openUsbDevice node))) ∨
        call = .host (.flash (.beaconDfu request.bootloader request.image.payload))) :
      Sanctions V past call
  | restart (hl : arguments.isLoopbackUrl arguments.moonraker = true) (hb : BeaconBack past)
      (ha : RestartAgreed arguments past) : Sanctions V past (.firmwareRestart arguments.moonraker)

/-- A call that only looks, or one that the past has to have shown to be due. -/
def RebootWarranted (V : Type) [Semver V] (past : List CliEvent) (call : CliCall) : Prop :=
  looks call = true ∨ ⟨.acquireLock, .ok ()⟩ ∈ past ∧ Sanctions arguments V past call

/-- The world in which every call of the command must be warranted. -/
def rebooting (V : Type) [Semver V] : World CliAnswer (List CliEvent) :=
  auditing (RebootWarranted arguments V)

end Aldis.Cli

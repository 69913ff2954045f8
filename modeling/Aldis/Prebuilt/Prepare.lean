import Aldis.Coordinator.Operations
import Aldis.Eligibility
import Aldis.Prebuilt.Release

/-!
# Preparing prebuilt firmware for a flash

The image of a FOCI, Beacon or Cartographer MCU is acquired from where its vendor publishes it
and checked again against what was approved.
-/

namespace Aldis.Prebuilt

open Interaction Text Octets

variable {V : Type} [Semver V] (J : Type) [DictionaryReader J] (sha256 : Bytes → Bytes)
  (versions : TargetVersions V) (pending : PendingBuild) (name : Str)

/-- Keeps a copy beside the run's other artifacts; whether that works does not matter. -/
def keepCopy (fileName : Str) (image : Bytes) : HostAttempt Str Unit := do
  let _ ← fileCall (.write
    (Path.withFileName pending.prepared.request.artifactPath fileName) image)

def downloadFociFirmware (firmware : Foci.Firmware V) : HostAttempt Str Bytes := do
  let release ← require versions.prebuilt.foci
    ("no FOCI release is known to update " ++ name ++ " to")
  let asset := release.assetName firmware.board firmware.flavor
  hook (.progress name .downloadingFirmware)
  let image ← ExceptT.adapt (fun error => "could not download " ++ asset ++ " from FOCI " ++
    release.tag ++ ": " ++ errorChain error.cause) (Foci.downloadFirmware sha256 release.tag asset)
  hook (.progress name .firmwareDownloaded)
  keepCopy pending asset image
  return image

def readImage (path : Path) : HostAttempt Beacon.Unavailable (Beacon.FirmwareImage V) := do
  let file ← check (← fileCall (.read path)) fun error => .unreadable path error.cause.text
  check (Beacon.parseImage file) (.invalidImage path)

def readBeaconImage : HostAttempt Str (Beacon.FirmwareImage V) := do
  let target ← require (versions.prebuilt.beacon.target name)
    ("no Beacon firmware image is known to update " ++ name ++ " with")
  hook (.progress name .readingFirmware)
  let image ← ExceptT.adapt Beacon.Unavailable.display (readImage target.path)
  if image.version ≠ target.version then
    throw (target.path ++ " now holds Beacon " ++ Semver.display image.version ++
      ", not the Beacon " ++ Semver.display target.version ++ " " ++ name ++
      " was to be updated to")
  hook (.progress name .firmwareRead)
  if let some fileName := Path.fileName target.path then
    let _ ← fileCall (.copy target.path
      (Path.withFileName pending.prepared.request.artifactPath fileName))
  return image

def readCartographerImage (firmware : Cartographer.Firmware V) : HostAttempt Str Bytes := do
  let target ← require (versions.prebuilt.cartographer.target name)
    ("no Cartographer firmware image is known to update " ++ name ++ " with")
  hook (.progress name .readingFirmware)
  let image ← check (← fileCall (.read target.path))
    fun error => "could not read " ++ target.path ++ ": " ++ error.cause.text
  let identity ← check (Cartographer.checkImage J image firmware)
    fun reason => "refusing " ++ target.path ++ " for " ++ name ++ ": " ++ reason.display
  if identity.version ≠ target.reported then
    throw (target.path ++ " now holds " ++ quoted identity.version ++ ", not the " ++
      quoted target.reported ++ " " ++ name ++ " was to be updated to")
  hook (.progress name .firmwareRead)
  if let some fileName := Path.fileName target.path then
    keepCopy pending fileName image
  return image

/-- Prepares the update `mcu` was approved for: `none` when `mcu` is not prebuilt firmware,
otherwise a request, or why there is no image to flash. -/
def prepareAutomatic (mcu : Mcu) : Option (HostAttempt Str (FlashRequest V)) :=
  match identify (V := V) mcu with
  | none => none
  | some (.ok (.foci firmware)) => some do
    let image ← downloadFociFirmware sha256 versions pending mcu.name firmware
    return .katapult .foci mcu image firmware.board.applicationStart .usbOnly
  | some (.ok (.cartographer firmware)) => some do
    let image ← readCartographerImage J versions pending mcu.name firmware
    return .katapult .cartographer mcu image Cartographer.APPLICATION_START .usbOrCan
  | some (.ok (.beacon _)) => some do
    let image ← readBeaconImage versions pending mcu.name
    return .beacon mcu image
  -- Recognized but not matched to an update image: never fall through to a build.
  | some (.error reason) => some (throw reason.display)

end Aldis.Prebuilt

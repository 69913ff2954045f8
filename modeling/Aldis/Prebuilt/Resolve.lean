import Aldis.Cartographer.Manifest
import Aldis.Lib.SortedMap
import Aldis.Prebuilt

/-!
# What the prebuilt-firmware MCUs of an inventory are updated to

The Beacon image for each revision from its checkout, and the Cartographer image for each probe
from its clone, as the host's files give them.
-/

namespace Aldis

open Text Octets

/-- What the resolvers read from the host: files, directories by the names in them, and where a
serial device is on the USB bus. -/
structure HostFiles where
  home : Option Path
  isFile : Path → Bool
  isDir : Path → Bool
  read : Path → Except Str Bytes
  readToString : Path → Except Str Str
  readDir : Path → Option (List Str)
  canonicalize : Path → Option Path
  usbDevicePath : Path → Option Path

variable {V : Type} [Semver V] (host : HostFiles)

namespace Beacon

/-- The hardware revision a USB product string names: `Beacon RevH` is `h`. -/
def revisionFromProduct (product : Str) : Option Str := do
  let rest ← stripPrefix "rev" (toAsciiLowercase (← stripPrefix "Beacon " product))
  let revision := (rest.splitOn ' ').headD []
  if revision ≠ [] ∧ revision.all isAsciiAlphanumeric then some revision else none

def imagePath (checkout : Path) (revision : Str) : Path :=
  Path.join (Path.join checkout "firmware") ("rev" ++ revision ++ ".dfu")

def readImageFile (path : Path) : Except Unavailable (FirmwareImage V) :=
  match host.read path with
  | .error reason => .error (.unreadable path reason)
  | .ok file => match parseImage file with
    | .error reason => .error (.invalidImage path reason)
    | .ok image => .ok image

def usbProduct (device : Path) : Option Str := do
  let usb ← host.usbDevicePath device
  let product ← (host.readToString (Path.join usb "product")).toOption
  some (trim product)

def resolveTarget (mcu : Mcu) (checkout : Path) : Except Unavailable (Target V) :=
  match mcu.transport with
  | some (.serial device) =>
    match usbProduct host device with
    | none => .error (.noProduct device)
    | some product => match revisionFromProduct product with
      | none => .error (.unknownRevision product)
      | some revision => do
        let path := imagePath checkout revision
        let image ← readImageFile host path
        return ⟨revision, path, image.version⟩
  | some (.can interface uuid) => .error (.notUsb (McuTransport.can interface uuid).describe)
  | none => .error .notConfigured

def resolveTargets (inventory : McuInventory) (checkout : Option Path) : Targets V where
  checkout := checkout
  mcus := SortedMap.collect ((inventory.mcus.filter (isBeacon V)).map fun mcu =>
    (mcu.name, match checkout with
      | none => .error .noCheckout
      | some checkout => resolveTarget host mcu checkout))

/-- The user's checkout: only a directory with a `firmware` directory counts. -/
def locateCheckout (configured klipperSource : Option Path) : Option Path :=
  let hasFirmware := fun path => host.isDir (Path.join path "firmware")
  match configured with
  | some configured => if hasFirmware configured then some configured else none
  | none =>
    let linked := klipperSource.bind fun source =>
      (host.canonicalize (Path.join source "klippy/extras/beacon.py")).bind Path.parent
    (linked.toList ++ (host.home.map (Path.join · "beacon_klipper")).toList).find? hasFirmware

def targetsFor (inventory : McuInventory) (configured klipperSource : Option Path) : Targets V :=
  if inventory.mcus.any (isBeacon V) then
    resolveTargets host inventory (locateCheckout host configured klipperSource)
  else ⟨none, []⟩

end Beacon

namespace Cartographer

/-- The installed plugin's version; a development version counts as its release. -/
def pluginVersionIn (venv : Path) : Option V := do
  let lib := Path.join venv "lib"
  let pythons ← host.readDir lib
  let packages := (pythons.filterMap fun python =>
    host.readDir (Path.join (Path.join lib python) "site-packages")).flatten
  packages.findSome? fun name => do
    let version ← stripSuffix ".dist-info" (← stripPrefix "cartographer3d_plugin-" name)
    let release := version.takeWhile fun c => isAsciiDigit c || c == '.'
    let release := (release.reverse.dropWhile (· = '.')).reverse
    if (release.splitOn '.').length = 3 then Semver.parse release else none

/-- The user's clone: only a directory with a manifest counts. -/
def locateCheckout (configured : Option Path) : Option Path := do
  let candidate ← configured <|> host.home.map (Path.join · "cartographer_firmware")
  if host.isFile (Path.join candidate "firmware_list.csv") then some candidate else none

variable (J : Type) [DictionaryReader J]

/-- The manifest of a clone, or why its images are not known. -/
def readManifest (checkout : Path) : Except (Unavailable V) (List (ManifestEntry V)) :=
  let path := Path.join checkout "firmware_list.csv"
  match host.readToString path with
  | .error reason => .error (.manifest path reason)
  | .ok text => match parseManifest text with
    | .error reason => .error (.manifest path reason.display)
    | .ok manifest => .ok manifest

def cartographers (inventory : McuInventory) : List (Mcu × Firmware V) :=
  inventory.mcus.filterMap fun mcu => match identify mcu with
    | some (.ok firmware) => some (mcu, firmware)
    | _ => none

def resolveTarget (checkout : Option Path) (plugin : Option V) (mcu : Mcu)
    (firmware : Firmware V) : Except (Unavailable V) (Target V) :=
  match checkout with
  | none => .error .noCheckout
  | some checkout => do
    let manifest ← readManifest host checkout
    selectTarget J (fun path => (host.read path).toOption) checkout manifest firmware
      mcu.transport plugin

def resolveTargets (inventory : McuInventory) (checkout : Option Path) (plugin : Option V) :
    Targets V where
  checkout := checkout
  plugin := plugin
  mcus := SortedMap.collect ((cartographers inventory).map fun found =>
    (found.1.name, resolveTarget host J checkout plugin found.1 found.2))

/-- The targets when the inventory has any Cartographer, for the plugin installed beside Klippy's
Python, or in `~/klippy-env`. -/
def targetsFor (inventory : McuInventory) (configured pythonPath : Option Path) : Targets V :=
  if cartographers (V := V) inventory = [] then ⟨none, none, []⟩
  else
    let venvs := (pythonPath.bind fun python => (Path.parent python).bind Path.parent).toList ++
      (host.home.map (Path.join · "klippy-env")).toList
    resolveTargets host J inventory (locateCheckout host configured)
      (venvs.findSome? (pluginVersionIn host))

section Invariant

variable {host J} {inventory : McuInventory} {checkout configured pythonPath : Option Path}
  {plugin : Option V} {name : Str} {target : Target V}

/-- A target's version is the number that its image reports. -/
def Targets.ReportsVersions (targets : Targets V) : Prop :=
  ∀ name target, targets.target name = some target →
    parseVersion target.reported = some target.version

theorem parseVersion_of_selectTarget {files : Path → Option Bytes} {checkout : Path}
    {manifest : List (ManifestEntry V)} {running : Firmware V} {transport : Option McuTransport}
    (h : selectTarget J files checkout manifest running transport plugin = .ok target) :
    parseVersion target.reported = some target.version := by
  obtain ⟨-, entry, -, -, hs, -, hv, -⟩ := (chosen_of_selectTarget h).newest
  rw [← hv]
  exact hs.version

theorem parseVersion_of_resolveTarget {mcu : Mcu} {firmware : Firmware V}
    (h : resolveTarget host J checkout plugin mcu firmware = .ok target) :
    parseVersion target.reported = some target.version := by
  cases checkout with
  | none => cases h
  | some checkout =>
      change (readManifest host checkout >>= _) = _ at h
      cases hm : readManifest (V := V) host checkout with
      | error reason =>
          rw [hm] at h
          cases h
      | ok manifest =>
          rw [hm] at h
          exact parseVersion_of_selectTarget h

omit [Semver V] in
theorem target_eq_some_iff {targets : Targets V} :
    targets.target name = some target ↔ targets.mcus.lookup name = some (.ok target) := by
  unfold Targets.target
  split
  · rename_i found he
    rw [he]
    constructor <;> rintro ⟨⟩ <;> rfl
  · rename_i hne
    constructor
    · rintro ⟨⟩
    · intro h
      exact absurd h (hne target)

variable (host J) in
theorem resolveTargets_reportsVersions (inventory : McuInventory) (checkout : Option Path)
    (plugin : Option V) : (resolveTargets host J inventory checkout plugin).ReportsVersions := by
  intro name target h
  have hmem := SortedMap.lookup_collect (target_eq_some_iff.1 h)
  obtain ⟨found, -, he⟩ := List.mem_map.1 hmem
  exact parseVersion_of_resolveTarget (Prod.mk.inj he).2

variable (host J) in
theorem targetsFor_reportsVersions (inventory : McuInventory)
    (configured pythonPath : Option Path) :
    (targetsFor (V := V) host J inventory configured pythonPath).ReportsVersions := by
  unfold targetsFor
  split
  · intro name target h
    cases h
  · exact resolveTargets_reportsVersions host J inventory _ _

end Invariant

end Cartographer

namespace Prebuilt

structure FirmwareSources where
  beacon : Option Path
  cartographer : Option Path
  deriving DecidableEq

/-- What the targets are found with, beside the inventory: the latest FOCI release, already looked
up, the checkout Beacon's module is linked from, and Klippy's Python. -/
structure ResolveContext (V : Type) where
  foci : Option (Foci.Release V)
  sources : FirmwareSources
  klipperSource : Option Path
  pythonPath : Option Path

/-- Looks only for the vendors present in the inventory. -/
def resolveTargets (J : Type) [DictionaryReader J] (inventory : McuInventory)
    (context : ResolveContext V) : Targets V where
  foci := context.foci
  beacon := Beacon.targetsFor host inventory context.sources.beacon context.klipperSource
  cartographer := Cartographer.targetsFor host J inventory context.sources.cartographer
    context.pythonPath

end Prebuilt
end Aldis

import Aldis.Beacon
import Aldis.Cartographer
import Aldis.Foci

/-!
# Prebuilt firmware

MCUs that are not built from the Klipper checkout: which vendor's firmware one runs, what it is
updated to, and how the two compare.
-/

namespace Aldis

open Text

inductive Vendor where
  | foci
  | beacon
  | cartographer
  deriving DecidableEq

/-- The name frontends show: the Klipper object name without its `mcu ` prefix. -/
def displayName (object : Str) : Str := (stripPrefix "mcu " object).getD object

/-- An update that would replace newer firmware with an older build or image. -/
structure Downgrade where
  description : Str
  advice : Str
  deriving DecidableEq

namespace Prebuilt

inductive Running (V : Type) where
  | foci (firmware : Foci.Firmware V)
  | beacon (firmware : Beacon.Firmware V)
  | cartographer (firmware : Cartographer.Firmware V)
  deriving DecidableEq

def Running.vendor {V : Type} : Running V → Vendor
  | foci _ => .foci
  | beacon _ => .beacon
  | cartographer _ => .cartographer

inductive Unsupported where
  | foci (reason : Foci.Unsupported)
  | cartographer (reason : Cartographer.Unsupported)
  deriving DecidableEq

def Unsupported.display : Unsupported → Str
  | foci reason => reason.display
  | cartographer reason => reason.display

structure Targets (V : Type) where
  foci : Option (Foci.Release V)
  beacon : Beacon.Targets V
  cartographer : Cartographer.Targets V

inductive Target (V : Type) where
  | foci (release : Foci.Release V)
  | beacon (target : Beacon.Target V)
  | cartographer (target : Cartographer.Target V)
  deriving DecidableEq

variable {V : Type} [Semver V]

/-- `none` when `mcu` is not any vendor's. A Beacon is recognized first, then a Cartographer,
then FOCI. -/
def identify (mcu : Mcu) : Option (Except Unsupported (Running V)) :=
  match Beacon.identify mcu with
  | some firmware => some (.ok (.beacon firmware))
  | none => match Cartographer.identify mcu with
    | some (.ok firmware) => some (.ok (.cartographer firmware))
    | some (.error reason) => some (.error (.cartographer reason))
    | none =>
      if Foci.isFoci mcu then
        match Foci.identify mcu with
        | .ok firmware => some (.ok (.foci firmware))
        | .error reason => some (.error (.foci reason))
      else none

namespace Targets

variable (targets : Targets V)

/-- What `running`, the MCU named `name`, is updated to, when that is known. -/
def target (running : Running V) (name : Str) : Option (Target V) :=
  match running with
  | .foci _ => targets.foci.map .foci
  | .beacon _ => (targets.beacon.target name).map .beacon
  | .cartographer _ => (targets.cartographer.target name).map .cartographer

def compare (running : Running V) (name : Str) : RevisionStatus :=
  match running, targets.target running name with
  | .foci firmware, some (.foci release) => Foci.compare firmware.version release
  | .beacon firmware, some (.beacon target) => compareVersions firmware.version target.version
  | .cartographer firmware, some (.cartographer target) => Cartographer.compare firmware target
  | _, _ => .indeterminate

def downgrade (running : Running V) (name : Str) : Option Downgrade := do
  if targets.compare running name ≠ .newer then none
  else
    let description := match ← targets.target running name with
      | .foci release => "the latest FOCI release, " ++ release.tag
      | .beacon target =>
        "the " ++ Beacon.reported target.version ++ " in its beacon_klipper checkout"
      | .cartographer target => target.reported ++ " in its cartographer_firmware clone"
    some ⟨description, "name the file with `aldis flash " ++ displayName name ++
      " <file>` to install the older image"⟩

/-- The version `mcu` is updated to, for display, judged by what the MCU names itself. -/
def labelFor (mcu : Mcu) : Option Str :=
  if Foci.isFoci mcu then some ((targets.foci.map (·.tag)).getD "unknown")
  else if Beacon.isBeacon V mcu then
    some (((targets.beacon.target mcu.name).map
      (fun t => Beacon.reported t.version)).getD "unknown")
  else if Cartographer.isCartographer mcu then
    some (((targets.cartographer.target mcu.name).map (·.reported)).getD "unknown")
  else none

/-- Whether `mcu` runs its target: `none` when `mcu` is not prebuilt firmware, `some none` when
no target is known. -/
def reachedBy (mcu : Mcu) : Option (Option Bool) :=
  if Cartographer.isCartographer mcu then
    some ((targets.cartographer.target mcu.name).map
      (fun target => decide (mcu.version = some target.reported)))
  else if Beacon.isBeacon V mcu then
    some ((targets.beacon.target mcu.name).map (fun target =>
      (Beacon.identify mcu).any (fun firmware => decide (firmware.version = target.version))))
  else if Foci.isFoci mcu then
    some (targets.foci.map (fun release => match Foci.identify mcu with
      | .ok firmware => decide (Foci.compare firmware.version release = .current)
      | .error _ => false))
  else none

end Targets
end Prebuilt
end Aldis

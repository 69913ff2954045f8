import Aldis.Flash.Samba.Parts
import Aldis.Prebuilt

/-!
# Which MCUs an update may touch

Classification of a reported MCU, its comparison with its target, and the selection and the
refusal derived from the two.
-/

namespace Aldis

open Text Revision

inductive FirmwareKind where
  | klipper
  | kalico
  deriving DecidableEq

def FirmwareKind.display : FirmwareKind → Str
  | klipper => "Klipper"
  | kalico => "Kalico"

inductive UnsupportedReason where
  | noEmbeddedConfig
  | versionTooOld (firmware : FirmwareKind) (running minimum : Str)
  | prebuilt (reason : Prebuilt.Unsupported)
  deriving DecidableEq

def UnsupportedReason.display : UnsupportedReason → Str
  | noEmbeddedConfig => "no embedded configuration found"
  | versionTooOld firmware running minimum =>
    firmware.display ++ " version too old (" ++ running ++ " < " ++ minimum ++ ")"
  | prebuilt reason => reason.display

inductive Eligibility (V : Type) where
  | eligible
  | prebuilt (running : Prebuilt.Running V)
  | externallyManaged (name : Str)
  | unsupported (reason : UnsupportedReason)
  | unsupportedMcu (family : Str)
  deriving DecidableEq

def KLIPPER_MINIMUM_VERSION : Str := "v0.13.0-753-g8c29c0a8e"
def KALICO_MINIMUM_VERSION : Str := "v2026.09.00-3-g6127720c4"

structure TargetVersions (V : Type) where
  klipper : CheckoutRevision
  prebuilt : Prebuilt.Targets V

variable {V : Type} [Semver V]

def TargetVersions.labelFor (versions : TargetVersions V) (mcu : Mcu) : Str :=
  (versions.prebuilt.labelFor mcu).getD versions.klipper.label

/-- Whether `mcu` runs its target: `none` when no target is known to check against. -/
def TargetVersions.reachedBy (versions : TargetVersions V) (mcu : Mcu) : Option Bool :=
  match versions.prebuilt.reachedBy mcu with
  | some reached => reached
  | none => match versions.klipper with
    | .known revision => some (mcu.version.any (fun version => revisionsMatch version revision))
    | .indeterminate => none

inductive UpdateSelection where
  | required
  | all
  deriving DecidableEq

structure McuStatus (V : Type) where
  eligibility : Eligibility V
  revision : Option RevisionStatus
  deriving DecidableEq

namespace Eligibility

/-- The families with a bootloader the updater can drive, beside the SAMD21 parts. -/
def FLASHABLE_FAMILIES : List Str := ["STM32", "RPXXXX", "RP2040", "LPC176X", "LINUX"]

inductive FamilySupport where
  | flashable
  | unflashable (family : Str)
  | unstated
  deriving DecidableEq

def machineFamily (line : Str) : Option Str :=
  (stripPrefix "CONFIG_MACH_" line).bind (stripSuffix "=y")

def familySupport (kconfig : Str) : FamilySupport :=
  let families := ((lines kconfig).map trim).filterMap machineFamily
  if families.any (fun family =>
      FLASHABLE_FAMILIES.contains family || Samba.isFlashablePart family) then
    .flashable
  else match families.head? with
    | some family => .unflashable family
    | none => .unstated

def classifyByEmbeddedConfig (mcu : Mcu) : Eligibility V :=
  if trim mcu.kconfig = [] then .unsupported .noEmbeddedConfig
  else match familySupport mcu.kconfig with
    | .unflashable family => .unsupportedMcu family
    | .flashable | .unstated => .eligible

def looksLikeGitDescribe : Str → Bool
  | c :: d :: _ => (c == 'v' || c == 'V') && isAsciiDigit d
  | _ => false

/-- An MCU without a usable `app` may still name its firmware as its version's first word. -/
def classifyUnidentified (mcu : Mcu) : Eligibility V :=
  match mcu.version, mcu.versionName with
  | some version, some name =>
    if looksLikeGitDescribe version then classifyByEmbeddedConfig mcu else .externallyManaged name
  | _, _ => classifyByEmbeddedConfig mcu

def classifyKnownFirmware (mcu : Mcu) (firmware : FirmwareKind) (minimum : Str) : Eligibility V :=
  match mcu.version, mcu.version.bind (klipperVersion V), klipperVersion V minimum with
  | some running, some runningParsed, some minimumParsed =>
    if runningParsed < minimumParsed then .unsupported (.versionTooOld firmware running minimum)
    else classifyByEmbeddedConfig mcu
  | _, _, _ => classifyByEmbeddedConfig mcu

def classifyMcu (mcu : Mcu) : Eligibility V :=
  match Prebuilt.identify mcu with
  | some (.ok running) => .prebuilt running
  | some (.error reason) => .unsupported (.prebuilt reason)
  | none => match mcu.appName with
    | some app =>
      if eqIgnoreAsciiCase app "klipper" then
        classifyKnownFirmware mcu .klipper KLIPPER_MINIMUM_VERSION
      else if eqIgnoreAsciiCase app "kalico" then
        classifyKnownFirmware mcu .kalico KALICO_MINIMUM_VERSION
      else .externallyManaged app
    | none => classifyUnidentified mcu

/-- The target of an update of `mcu`, when it is older than what `mcu` runs. -/
def downgradeOf (mcu : Mcu) (versions : TargetVersions V) : Option Downgrade :=
  match classifyMcu (V := V) mcu with
  | .eligible => match mcu.version, versions.klipper with
    | some running, .known selected =>
      if compareRevisions V running selected = .newer then
        some ⟨"the " ++ selected ++ " checkout", "update the checkout first"⟩
      else none
    | _, _ => none
  | .prebuilt running => versions.prebuilt.downgrade running mcu.name
  | _ => none

def newerThan (mcu : Mcu) (versions : TargetVersions V) : Option Str :=
  (downgradeOf mcu versions).map (·.description)

def downgradeRefusal (mcu : Mcu) (versions : TargetVersions V) : Option Str :=
  (downgradeOf mcu versions).map fun downgrade =>
    mcu.name ++ " runs " ++ mcu.version.getD "unknown" ++ ", newer than " ++
      downgrade.description ++ ", and an update never downgrades it: " ++ downgrade.advice

def assessMcu (mcu : Mcu) (versions : TargetVersions V) : McuStatus V :=
  let eligibility := classifyMcu mcu
  let revision := match eligibility with
    | .eligible => match mcu.version, versions.klipper with
      | some running, .known selected => some (compareRevisions V running selected)
      | _, _ => some .indeterminate
    | .prebuilt running => some (versions.prebuilt.compare running mcu.name)
    | _ => none
  ⟨eligibility, revision⟩

def isSelected (mcu : Mcu) (versions : TargetVersions V) (selection : UpdateSelection) : Bool :=
  let status := assessMcu mcu versions
  let updatable : Bool := match status.eligibility with
    | .eligible => true
    | .prebuilt running => (versions.prebuilt.target running mcu.name).isSome
    | _ => false
  if !updatable || (downgradeOf mcu versions).isSome then false
  else match selection with
    | .required => status.revision = some .updateRequired
    | .all => true

end Eligibility
end Aldis

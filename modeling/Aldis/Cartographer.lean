import Aldis.Flash.Stm32
import Aldis.Moonraker
import Aldis.Revision

/-!
# Cartographer firmware

What a running Cartographer probe is, what an image says about itself in its embedded identify
dictionary, and the check of one against the other. Inflating the dictionary and reading its
JSON are the work of other crates, taken as functions.
-/

namespace Aldis.Cartographer

open Text Octets

def APP : Str := "Cartographer"

/-- Where Cartographer's Katapult starts applications: 8 KiB into flash. -/
def APPLICATION_START : UInt32 := 0x08002000

inductive Generation where
  | v3
  | v4
  deriving DecidableEq

namespace Generation

def fromMcu (mcu : Str) : Option Generation :=
  if mcu = "stm32f042x6" then some v3
  else if mcu = "stm32g431xx" ∨ mcu = "stm32g474xx" then some v4
  else none

def label : Generation → Str
  | v3 => "v3"
  | v4 => "v4"

end Generation

inductive Build where
  | full
  | lite
  deriving DecidableEq

namespace Build

def fromVersion (version : Str) : Build :=
  if (splitWhitespace version).any
      (fun word => eqIgnoreAsciiCase word "lite" || eqIgnoreAsciiCase word "k1") then lite
  else full

def label : Build → Str
  | full => "full"
  | lite => "lite"

end Build

variable {V : Type} [Semver V]

def parseNumber (word : Str) : Option V :=
  let parts := word.splitOn '.'
  if parts.length = 3 ∧ parts.all (fun part => part ≠ [] && part.all isAsciiDigit) then
    Semver.parse word
  else none

/-- The only `major.minor.patch` word of a reported version. -/
def parseVersion (version : Str) : Option V :=
  match (splitWhitespace version).filterMap parseNumber with
  | [number] => some number
  | _ => none

/-- A running Cartographer probe; a USB build reports no CAN bitrate. -/
structure Firmware (V : Type) where
  generation : Generation
  build : Build
  version : V
  mcu : Str
  canFrequency : Option ℕ
  deriving DecidableEq

inductive Unsupported where
  | unknownProbe (mcu : Str)
  | unparsableVersion (version : Str)
  deriving DecidableEq

def Unsupported.display : Unsupported → Str
  | unknownProbe mcu =>
    "Cartographer firmware for " ++ mcu ++ " probes is not published as an update image"
  | unparsableVersion version =>
    "Cartographer version " ++ quoted version ++ " names no version number"

/-- Whether firmware names itself Cartographer: by its `app`, or, with a blank one, by a version
starting with it. -/
def namesItselfCartographer (app : Option Str) (version : Str) : Bool :=
  match (app.map trim).filter (· ≠ []) with
  | some app => eqIgnoreAsciiCase app APP
  | none => (splitWhitespace version).head?.any (eqIgnoreAsciiCase · APP)

def isCartographer (mcu : Mcu) : Bool := namesItselfCartographer mcu.app (mcu.version.getD [])

def identifyCartographer (mcu : Mcu) : Except Unsupported (Firmware V) :=
  match Generation.fromMcu mcu.mcu with
  | none => .error (.unknownProbe mcu.mcu)
  | some generation =>
    let reported := mcu.version.getD []
    match parseVersion reported with
    | none => .error (.unparsableVersion reported)
    | some version =>
      .ok ⟨generation, Build.fromVersion reported, version, mcu.mcu, mcu.canbusFrequencyHz⟩

def identify (mcu : Mcu) : Option (Except Unsupported (Firmware V)) :=
  if isCartographer mcu then some (identifyCartographer mcu) else none

/-- What an image says about itself: what the probe reports once it runs the image. -/
structure ImageIdentity where
  version : Str
  app : Option Str
  mcu : Str
  canFrequency : Option ℕ
  deriving DecidableEq

def DICTIONARY_LIMIT : ℕ := 1024 * 1024

end Cartographer

/-- Reading a compressed identify dictionary: `ZlibDecoder` up to a limit, `from_slice`, and
`pointer` followed by `as_str` or `as_u64`. -/
class DictionaryReader (J : Type) where
  inflate : ℕ → Octets.Bytes → Option Octets.Bytes
  fromSlice : Octets.Bytes → Option J
  string : J → Text.Str → Option Text.Str
  number : J → Text.Str → Option ℕ

namespace Cartographer

open Text Octets DictionaryReader

variable (J : Type) [DictionaryReader J]

def imageIdentity (image : Bytes) : Option ImageIdentity :=
  (List.range (image.length - 2)).findSome? fun offset => do
    let cmf ← image[offset]?
    let flg ← image[offset + 1]?
    if cmf ≠ 0x78 ∨ (cmf.toNat * 256 + flg.toNat) % 31 ≠ 0 then none
    else
      let text ← inflate J DICTIONARY_LIMIT (image.drop offset)
      let json : J ← fromSlice text
      some {
        version := ← string json "/version"
        app := string json "/app"
        mcu := ← string json "/config/MCU"
        canFrequency := number json "/config/CANBUS_FREQUENCY" }

structure Target (V : Type) where
  path : Str
  version : V
  reported : Str
  heldBack : Option (V × V)
  deriving DecidableEq

inductive Unavailable (V : Type) where
  | noCheckout
  | manifest (path reason : Str)
  | notConfigured
  | noCanBitrate
  | notCan (transport : Str)
  | noImage (description : Str)
  | pluginTooOld (needed : V) (installed : Option V)
  | ambiguous (paths : List Str)
  deriving DecidableEq

def Unavailable.display {V : Type} [Semver V] : Unavailable V → Str
  | noCheckout => "no cartographer_firmware clone was found"
  | manifest path reason => "could not read " ++ path ++ ": " ++ reason
  | notConfigured => "its connection is not configured"
  | noCanBitrate => "it is configured on CAN but did not report its CAN bitrate"
  | notCan transport => "it reports a CAN bitrate but is configured on " ++ transport
  | noImage description => "the manifest lists no " ++ description ++ " image that matches it"
  | pluginTooOld needed installed =>
    "every matching image needs cartographer3d-plugin " ++ Semver.display needed ++
      " or newer, and " ++ match installed with
        | none => "no installed version was found"
        | some version => Semver.display version ++ " is installed"
  | ambiguous paths => "several images match it: " ++ List.intercalate ", ".toList paths

structure Targets (V : Type) where
  checkout : Option Str
  plugin : Option V
  mcus : List (Str × Except (Unavailable V) (Target V))

variable {V : Type}

def Targets.target (targets : Targets V) (name : Str) : Option (Target V) :=
  match targets.mcus.lookup name with
  | some (.ok target) => some target
  | _ => none

inductive Mismatch where
  | noIdentity
  | notCartographer
  | mcu (image probe : Str)
  | link (image probe : Option ℕ)
  | notAnApplication
  deriving DecidableEq

def linkLabel : Option ℕ → Str
  | none => "USB"
  | some hz => "CAN at " ++ decimal hz ++ " bit/s"

def Mismatch.display : Mismatch → Str
  | noIdentity => "it holds no Cartographer identify dictionary"
  | notCartographer => "it is not Cartographer firmware"
  | mcu image probe => "it is built for " ++ image ++ ", and the probe runs on " ++ probe
  | link image probe =>
    "it is built for " ++ linkLabel image ++ ", and the probe runs " ++ linkLabel probe
  | notAnApplication =>
    "it is not linked to start at 0x" ++ hex APPLICATION_START.toNat ++
      ", after Cartographer's Katapult"

def checkImage (image : Bytes) (running : Firmware V) : Except Mismatch ImageIdentity :=
  match imageIdentity J image with
  | none => .error .noIdentity
  | some identity =>
    if ¬ namesItselfCartographer identity.app identity.version then .error .notCartographer
    else if identity.mcu ≠ running.mcu then .error (.mcu identity.mcu running.mcu)
    else if identity.canFrequency ≠ running.canFrequency then
      .error (.link identity.canFrequency running.canFrequency)
    else if APPLICATION_START ∉ Stm32.plausibleApplicationStarts image then
      .error .notAnApplication
    else .ok identity

variable [Semver V]

/-- A probe newer than the image is not downgraded. -/
def compare (running : Firmware V) (target : Target V) : RevisionStatus :=
  compareVersions running.version target.version

end Aldis.Cartographer

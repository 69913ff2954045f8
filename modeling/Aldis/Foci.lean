import Aldis.Moonraker
import Aldis.Revision

/-!
# FOCI firmware

Which published FOCI release build a running MCU corresponds to, and how the two compare.
-/

namespace Aldis.Foci

open Text

def APP : Str := "FOCI"

inductive Board where
  | ouroboros
  | openFfboard
  deriving DecidableEq

namespace Board

def fromMcu (mcu : Str) : Option Board :=
  if mcu = "stm32h723xx" then some ouroboros
  else if mcu = "stm32f407xx" then some openFfboard
  else none

def crateName : Board → Str
  | ouroboros => "ouroboros-fw"
  | openFfboard => "openffboard-fw"

/-- Where release builds are linked to start. -/
def applicationStart : Board → UInt32
  | ouroboros => 0x08020000
  | openFfboard => 0x08008000

end Board

inductive Unsupported where
  | unknownBoard (mcu : Str)
  | unknownFlavor (features : Str)
  | noBuildFeatures
  | unparsableVersion (version : Str)
  deriving DecidableEq

def Unsupported.display : Unsupported → Str
  | unknownBoard mcu => "FOCI publishes no release builds for " ++ mcu ++ " boards"
  | unknownFlavor features =>
    "FOCI build features " ++ quoted features ++ " match no release flavor"
  | noBuildFeatures => "FOCI did not report its build features"
  | unparsableVersion version => "unrecognized FOCI version " ++ quoted version

inductive Flavor where
  | prod
  | trace
  deriving DecidableEq

namespace Flavor

def label : Flavor → Str
  | prod => "prod"
  | trace => "trace"

def fromBuildVersions (buildVersions : Str) : Except Unsupported Flavor :=
  match (splitWhitespace buildVersions).findSome? (stripPrefix "features=") with
  | none => .error .noBuildFeatures
  | some features =>
    if features = "none" then .ok prod
    else if features = "trace" then .ok trace
    else .error (.unknownFlavor features)

end Flavor

/-- `v<package>-<commits since the version bump>-g<board commit>[-dirty]`. -/
structure Version (V : Type) where
  package : V
  commits : ℕ
  dirty : Bool
  deriving DecidableEq

namespace Version

variable {V : Type} [Semver V]

/-- The commit count is the first all-digit field that follows a valid package version and
precedes the `g` commit field. -/
def parse (version : Str) : Option (Version V) := do
  let version ← stripPrefix "v" version
  let (version, dirty) := match stripSuffix "-dirty" version with
    | some base => (base, true)
    | none => (version, false)
  let fields := version.splitOn '-'
  (List.range' 1 (fields.length - 1 - 1)).findSome? fun index => do
    let commits ← fields[index]?
    if commits = [] ∨ ¬ commits.all isAsciiDigit then none
    else
      let hash ← stripPrefix "g" (← fields[index + 1]?)
      if hash = [] then none
      else
        let package ← Semver.parse (List.intercalate ['-'] (fields.take index))
        let commits ← parseUnsigned (2 ^ 32) commits
        some ⟨package, commits, dirty⟩

def isReleaseBuild (version : Version V) : Bool := version.commits == 0 && !version.dirty

end Version

structure Firmware (V : Type) where
  board : Board
  flavor : Flavor
  version : Version V
  deriving DecidableEq

/-- Whether `mcu` runs FOCI: by its `app`, or without one by build versions only FOCI writes. -/
def isFoci (mcu : Mcu) : Bool :=
  match mcu.appName with
  | some app => eqIgnoreAsciiCase app APP
  | none => match mcu.buildVersions with
    | some versions => ["rust=", "features=", "board="].all fun key =>
        (splitWhitespace versions).any (fun field => key.toList.isPrefixOf field)
    | none => false

structure Release (V : Type) where
  tag : Str
  version : V
  deriving DecidableEq

variable {V : Type} [Semver V]

def identify (mcu : Mcu) : Except Unsupported (Firmware V) := do
  let board ← match Board.fromMcu mcu.mcu with
    | some board => .ok board
    | none => .error (.unknownBoard mcu.mcu)
  let buildVersions ← match mcu.buildVersions with
    | some versions => .ok versions
    | none => .error .noBuildFeatures
  let flavor ← Flavor.fromBuildVersions buildVersions
  let running := mcu.version.getD []
  let version ← match Version.parse running with
    | some version => .ok version
    | none => .error (.unparsableVersion running)
  return ⟨board, flavor, version⟩

/-- The release's image for one board and flavor: `<crate>-v<version>-<flavor>.bin`. -/
def Release.assetName (release : Release V) (board : Board) (flavor : Flavor) : Str :=
  board.crateName ++ "-v" ++ Semver.display release.version ++ "-" ++ flavor.label ++ ".bin"

/-- How a running build compares with a release; only release builds are placed behind one. -/
def compare (running : Version V) (release : Release V) : RevisionStatus :=
  if release.version < running.package then .newer
  else if running.package = release.version then
    if 0 < running.commits then .newer
    else if running.dirty then .indeterminate
    else .current
  else if running.isReleaseBuild then .updateRequired
  else .indeterminate

end Aldis.Foci

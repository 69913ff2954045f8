import Aldis.Lib.Semver

/-!
# Klipper revisions

`git describe` strings as Klipper and Kalico report them: whether two name the same commit,
and the version a revision orders like. The arithmetic on the patch number is `u64`'s in a
release build, where it wraps.
-/

namespace Aldis

open Text

/-- How a running version relates to its target. -/
inductive RevisionStatus where
  | current
  | updateRequired
  | newer
  | indeterminate
  deriving DecidableEq

def compareVersions {T : Type} [LinearOrder T] (running target : T) : RevisionStatus :=
  if running < target then .updateRequired
  else if running = target then .current
  else .newer

inductive CheckoutRevision where
  | known (revision : Str)
  | indeterminate
  deriving DecidableEq

def CheckoutRevision.label : CheckoutRevision → Str
  | known revision => revision
  | indeterminate => "unknown"

namespace Revision

def byteIsAsciiDigit (byte : UInt8) : Bool := 48 ≤ byte && byte ≤ 57

def isKlipperBuildTimestamp (candidate : Str) : Bool :=
  let bytes := utf8 candidate
  bytes.length == 15 && bytes[8]? == some 95 && (bytes.take 8).all byteIsAsciiDigit &&
    (bytes.drop 9).all byteIsAsciiDigit

/-- Strips `-dirty-<timestamp>-<hostname>`; the hostname may hold hyphens of its own. -/
def stripDirtyBuildSuffix (revision : Str) : Option Str := do
  let (base, rest) ← splitOnce "-dirty-" revision
  let (timestamp, hostname) ← splitOnce "-" rest
  if isKlipperBuildTimestamp timestamp ∧ hostname ≠ [] then some base else none

def splitDirtySuffix (revision : Str) : Str × Bool :=
  match stripDirtyBuildSuffix revision with
  | some base => (base, true)
  | none => match stripSuffix "-dirty" revision with
    | some base => (base, true)
    | none => (revision, false)

/-- Whether two revisions name the same commit, comparing prefixes so that their hashes may
be abbreviated differently. -/
def revisionsMatch (running selected : Str) : Bool :=
  let (runningBase, runningDirty) := splitDirtySuffix running
  let (selectedBase, selectedDirty) := splitDirtySuffix selected
  if runningDirty ≠ selectedDirty then false
  else if len runningBase ≤ len selectedBase then runningBase.isPrefixOf selectedBase
  else selectedBase.isPrefixOf runningBase

variable (V : Type) [Semver V]

/-- `vMAJOR.MINOR.PATCH[-COMMITS[-gHASH]]` as a version; commits after a tag are a
pre-release of the next patch. -/
def klipperVersion (revision : Str) : Option V := do
  let revision ← stripPrefix "v" revision
  let segments := splitn 3 '-' revision
  let core ← segments[0]?
  let commits ← parseU64 (segments[1]?.getD "0")
  let parts := splitn 3 '.' core
  let major ← parseU64 (← parts[0]?)
  let minor ← parseU64 (← parts[1]?)
  let patch ← parseU64 (← parts[2]?)
  if commits = 0 then some (Semver.new major minor patch)
  else Semver.withPre (Semver.new major minor ((patch + 1) % 2 ^ 64)) ("dev." ++ decimal commits)

def compareRevisions (running selected : Str) : RevisionStatus :=
  if revisionsMatch running selected then .current
  else match klipperVersion V running, klipperVersion V selected with
    | some running, some selected => match compareVersions running selected with
      | .current => .updateRequired
      | status => status
    | _, _ => .updateRequired

end Revision
end Aldis

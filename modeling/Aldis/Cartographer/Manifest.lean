import Aldis.Cartographer.Selection

/-!
# The manifest of a Cartographer clone

`firmware_list.csv` lists one image a row, in the columns its header names.
-/

namespace Aldis.Cartographer

open Text

inductive ManifestError where
  | empty
  | missingColumn (name : Str)
  deriving DecidableEq

def ManifestError.display : ManifestError → Str
  | empty => "it has no header"
  | missingColumn name => "it has no " ++ quoted name ++ " column"

def column (header : List Str) (name : Str) : Except ManifestError ℕ :=
  match header.findIdx? (· = name) with
  | some index => .ok index
  | none => .error (.missingColumn name)

/-- A cell that may be blank; `none` when it holds something else than it should. -/
def optionalField {α : Type} (parse : Str → Option α) (field : Str) : Option (Option α) :=
  if field = [] then some none else (parse field).map some

variable {V : Type} [Semver V]

/-- The images flashed onto an existing Katapult, never one that replaces or includes the
bootloader. Rows that cannot be read are skipped. -/
def parseManifest (text : Str) : Except ManifestError (List (ManifestEntry V)) := do
  let trimEnd := fun line : Str => (line.reverse.dropWhile (· = '\r')).reverse
  match (lines text).map trimEnd with
  | [] => .error .empty
  | first :: rows =>
    let header := (first.splitOn ',').map trim
    let path ← column header "filepath"
    let firmwareType ← column header "firmware_type"
    let protocol ← column header "protocol"
    let process ← column header "process"
    let probeVersion ← column header "probe_version"
    let firmwareVersion ← column header "firmware_version"
    let canSpeed ← column header "can_speed"
    let isLite ← column header "is_lite"
    let minPlugin ← column header "min_plugin_version"
    return (rows.filter (trim · ≠ [])).filterMap fun line => do
      let field := fun index => (((line.splitOn ',').map trim)[index]?).getD []
      if line.contains '"' then none
      else if field process ≠ "Update" ∨ field firmwareType ≠ "Cartographer" then none
      else some {
        path := field path
        probeVersion := field probeVersion
        protocol := field protocol
        canSpeed := ← optionalField parseU64 (field canSpeed)
        lite := ["yes".toList, "true".toList, "1".toList, "y".toList].contains
          (toAsciiLowercase (field isLite))
        version := ← Semver.parse (field firmwareVersion)
        minPlugin := ← optionalField Semver.parse (field minPlugin) }

end Aldis.Cartographer

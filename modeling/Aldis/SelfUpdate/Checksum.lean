import Aldis.Lib.Octets
import Aldis.Lib.Text

/-!
# The checksum of a download

A `sha256sum` manifest gives a file's digest in the line that names the file.
-/

namespace Aldis.SelfUpdate

open Text Octets

def CHECKSUMS_FILE : Str := "SHA256SUMS"

inductive ReleaseError where
  | checksumMissing (file : Str)
  | checksumInvalid (file : Str)
  | checksumMismatch (file expected actual : Str)
  deriving DecidableEq

def ReleaseError.display : ReleaseError → Str
  | checksumMissing file => "the release's " ++ CHECKSUMS_FILE ++ " has no entry for " ++ file
  | checksumInvalid file =>
    "the release's " ++ CHECKSUMS_FILE ++ " entry for " ++ file ++ " is not a SHA-256 digest"
  | checksumMismatch file expected actual =>
    "downloaded " ++ file ++ " does not match the release's " ++ CHECKSUMS_FILE ++ ": expected " ++
      expected ++ ", got " ++ actual

/-- `u8::from_str_radix` with radix 16 on two characters, the first of which may be a `+`. -/
def hexPair (pair : Bytes) : Option UInt8 :=
  let digits := if pair.head? = some 0x2B then pair.tail else pair
  if digits ≠ [] ∧ digits.all (fun b => (nibble b).isSome) then
    some (UInt8.ofNat (hexValue digits))
  else none

def decodeHex (hex : Str) : Option Bytes :=
  if len hex ≠ 64 then none else (chunks 2 (utf8 hex)).mapM hexPair

def entryFor (manifest fileName : Str) : Option (Str × Str) :=
  ((lines manifest).filterMap (splitOnce " ")).find? fun entry =>
    entry.2.dropWhile (fun c => c == ' ' || c == '*') == fileName

/-- The digest a manifest gives for a file: 64 hex digits, a space, then a space or `*`, then the
file's name. -/
def expectedChecksum (manifest fileName : Str) : Except ReleaseError Bytes :=
  match entryFor manifest fileName with
  | none => .error (.checksumMissing fileName)
  | some entry =>
    match decodeHex entry.1 with
    | none => .error (.checksumInvalid fileName)
    | some digest => .ok digest

def encodeHex (digest : Bytes) : Str := digest.flatMap fun b => List.leftpad 2 '0' (hex b.toNat)

def verifyChecksum (sha256 : Bytes → Bytes) (fileName : Str) (archive expected : Bytes) :
    Except ReleaseError Unit :=
  let actual := sha256 archive
  if actual = expected then .ok ()
  else .error (.checksumMismatch fileName (encodeHex expected) (encodeHex actual))

end Aldis.SelfUpdate

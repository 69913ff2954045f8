import Aldis.Foci
import Aldis.Host.Call
import Aldis.SelfUpdate.Checksum

/-!
# Downloads of FOCI releases

A release image is accepted only with the SHA-256 digest that is published beside it.
-/

namespace Aldis.Foci

open Interaction Text Octets

inductive ReleaseError where
  | github (source : Cause)
  | checksumInvalid (asset : Str)
  | checksumMismatch (asset : Str)
  deriving DecidableEq

def ReleaseError.cause : ReleaseError → Cause
  | github source => .headline "could not fetch FOCI releases from GitHub" source
  | checksumInvalid asset =>
    .leaf (asset ++ ".sha256 does not hold a SHA-256 digest for " ++ asset)
  | checksumMismatch asset =>
    .leaf ("downloaded " ++ asset ++ " does not match its published SHA-256 digest")

variable (sha256 : Bytes → Bytes)

def verifyFirmware (asset checksumFile : Str) (firmware : Bytes) : Except ReleaseError Unit :=
  ((SelfUpdate.expectedChecksum checksumFile asset).mapError fun _ => .checksumInvalid asset) >>=
    fun expected => (SelfUpdate.verifyChecksum sha256 asset firmware expected).mapError
      fun _ => .checksumMismatch asset

variable {sha256} in
theorem verifyFirmware_ok {asset checksumFile : Str} {firmware : Bytes}
    (h : verifyFirmware sha256 asset checksumFile firmware = .ok ()) :
    SelfUpdate.expectedChecksum checksumFile asset = .ok (sha256 firmware) := by
  unfold verifyFirmware SelfUpdate.verifyChecksum at h
  cases he : SelfUpdate.expectedChecksum checksumFile asset with
  | error e =>
      rw [he] at h
      cases h
  | ok expected =>
      rw [he] at h
      change Except.mapError _ (if _ then _ else _) = _ at h
      by_cases hs : sha256 firmware = expected
      · rw [hs]
      · rw [if_neg hs] at h
        cases h

/-- Fetches a release's image and the `.sha256` published beside it, and returns the image only
if it matches. -/
def downloadFirmware (tag asset : Str) : HostAttempt ReleaseError Bytes := do
  let checksum ← check (← Attempt.perform (HostCall.downloadText tag (asset ++ ".sha256"))) .github
  let firmware ← check (← Attempt.perform (HostCall.downloadBytes tag asset)) .github
  Attempt.ofExcept (verifyFirmware sha256 asset checksum firmware)
  return firmware

/-- The bytes published as an asset of a release, as its server answered in one execution. -/
structure Published (sha256 : Bytes → Bytes) (tag asset : Str) (image : Bytes)
    (tr : List Event) : Prop where
  downloaded : (⟨.downloadBytes tag asset, .ok image⟩ : Event) ∈ tr
  digest : ∃ checksum, (⟨.downloadText tag (asset ++ ".sha256"), .ok checksum⟩ : Event) ∈ tr ∧
    SelfUpdate.expectedChecksum checksum asset = .ok (sha256 image)

end Aldis.Foci

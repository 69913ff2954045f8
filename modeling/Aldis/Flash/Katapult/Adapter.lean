import Aldis.Flash.Katapult.Session
import Aldis.Flash.Result

/-!
# The Katapult backend

Connects, validates the CAN identity and the application start when they are expected, uploads
and verifies the firmware, and then starts the application.
-/

namespace Aldis.Katapult

open Interaction Octets Text

inductive KatapultFlashError where
  | session (error : SessionError)
  | applicationStartMismatch (expected actual : UInt32)
  deriving DecidableEq

def KatapultFlashError.cause : KatapultFlashError → Cause
  | session error => error.cause
  | applicationStartMismatch expected actual => .leaf
      ("Katapult starts applications at " ++ hex0x 1 actual.toNat ++
        ", but the firmware is linked to start at " ++ hex0x 1 expected.toNat)

/-- What a bootloader session must agree with before anything is written. -/
structure KatapultAdapter where
  expectedCanbusUuid : Option ℕ
  expectedApplicationStart : Option UInt32
  deriving DecidableEq

namespace KatapultAdapter

def new : KatapultAdapter := ⟨none, none⟩

def forCanbus (expected : ℕ) : KatapultAdapter := ⟨some expected, none⟩

def expectingApplicationStart (adapter : KatapultAdapter) (start : UInt32) : KatapultAdapter :=
  { adapter with expectedApplicationStart := some start }

variable {ε : Type} [Debug ε] (sha1 : Bytes → Bytes)

def session {α : Type} (x : Session ε α) : Attempt (Exchange ε) KatapultFlashError α :=
  ExceptT.adapt .session x

/-- The rest of `flash`, once the node is known to be the expected one. -/
def flashIdentified (adapter : KatapultAdapter) (firmware : Bytes) (target : KatapultTarget) :
    Attempt (Exchange ε) KatapultFlashError FlashResult :=
  match adapter.expectedApplicationStart.filter
      (fun expected => expected ≠ target.applicationStart) with
  | some expected => do
    -- The existing application is started; whether that works does not change the refusal.
    let _ ← ExceptT.lift (complete (ε := ε)).run
    throw (.applicationStartMismatch expected target.applicationStart)
  | none => do
    let upload ← session (upload sha1 firmware target)
    session complete
    return ⟨some upload.pagesWritten, upload.paddedBytes⟩

def flash (adapter : KatapultAdapter) (firmware : Bytes) :
    Attempt (Exchange ε) KatapultFlashError FlashResult := do
  let connection ← session connect
  if let some expected := adapter.expectedCanbusUuid then
    session (verifyCanbusUuid expected)
  flashIdentified sha1 adapter firmware connection.target

end KatapultAdapter
end Aldis.Katapult

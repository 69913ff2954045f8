import Aldis.Coordinator.Error

/-!
# What a failed run reports

The terminal message of a failure: what went wrong, then what state Klipper was left in.
-/

namespace Aldis

open Text

inductive Operation where
  | update
  | flash
  deriving DecidableEq

namespace Operation

def failed : Operation → Str
  | update => "update failed"
  | flash => "flash failed"

def firmware : Operation → Str
  | update => "the built firmware"
  | flash => "the firmware file"

def attempt : Operation → Str
  | update => "this update"
  | flash => "this flash attempt"

end Operation

/-- What went wrong, without any advice about Klipper's state. -/
def failureDetail (operation : Operation) : FlashCoordinatorError → Str
  | .coordinator error => errorChain error.cause
  | .artifact error => "could not read " ++ operation.firmware ++ ": " ++ error.text
  | .flash error => errorChain error.cause

/-- The detail, then what state Klipper was left in, given whether a restore was attempted and
how it went. -/
def failureMessage (operation : Operation) (detail : Str)
    (restore : Option (Except CoordinatorError Unit)) : Str :=
  operation.failed ++ ": " ++ detail ++ match restore with
    | none => ". Klipper may still be stopped; fix the issue, then restart it manually"
    | some (.ok ()) =>
      ". Klipper has been left in its state from before " ++ operation.attempt
    | some (.error error) => ". Klipper also failed to restore: " ++ errorChain error.cause ++
      "; fix the issue, then restart it manually"

structure RunFailure where
  message : Str
  detail : Str
  mcu : Option Str
  updated : List Str
  deriving DecidableEq

end Aldis

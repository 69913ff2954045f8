import Aldis.Host.Cause
import Aldis.Lib.Octets
import Aldis.Lib.Path

/-!
# Commands on the host

Command invocations without shell interpolation, what they print, and how running one can
fail.
-/

namespace Aldis

open Text Octets

structure BuildCommand where
  program : Str
  arguments : List Str
  currentDir : Option Path
  stdin : Option Bytes
  deriving DecidableEq

/-- A privileged command that fails at once where it would prompt for a password. -/
def BuildCommand.sudo (arguments : List Str) (stdin : Option Bytes) : BuildCommand where
  program := "sudo"
  arguments := "-n".toList :: arguments
  currentDir := none
  stdin := stdin

/-- The captured result of a command; its output is read as UTF-8 with replacements. -/
structure CommandOutput where
  success : Bool
  stdout : Str
  stderr : Str
  deriving DecidableEq

inductive CommandError where
  | spawn (source : Cause)
  deriving DecidableEq

def CommandError.cause : CommandError → Cause
  | spawn source => .headline "could not run build command" source

/-- Which of the coordinator's two runners a command goes through. -/
inductive Runner where
  | build
  | service
  deriving DecidableEq

end Aldis

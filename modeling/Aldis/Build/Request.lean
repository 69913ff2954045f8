import Aldis.Host.Command
import Aldis.Kconfig

/-!
# Firmware builds

The inputs and the result of one Klipper firmware build, and how it can fail.
-/

namespace Aldis

open Text Octets

structure BuildRequest where
  kconfig : Str
  configPath : Path
  artifactPath : Path
  clean : Bool
  deriving DecidableEq

structure BuildArtifact where
  path : Path
  byteCount : ℕ
  kconfig : Str
  deriving DecidableEq

inductive BuildProgress where
  | configuring
  | compiling
  deriving DecidableEq

def InvalidKconfig.cause (error : Kconfig.InvalidKconfig) : Cause := .leaf error.display

def commandFailedDisplay (command : BuildCommand) (output : CommandOutput) : Str :=
  command.program ++ " failed: " ++ trim output.stderr

inductive BuildError where
  | invalidRequest (reason : Str)
  | untrustedKconfig (source : Kconfig.InvalidKconfig)
  | io (action : Str) (source : Cause)
  | commandPort (command : BuildCommand) (source : CommandError)
  | commandFailed (command : BuildCommand) (output : CommandOutput)
  deriving DecidableEq

def BuildError.cause : BuildError → Cause
  | invalidRequest reason => .leaf ("invalid build request: " ++ reason)
  | untrustedKconfig source =>
    .headline "refusing to pass the reported Kconfig to make" (InvalidKconfig.cause source)
  | io action source => .headline ("could not " ++ action) source
  | commandPort command source => .headline ("could not invoke " ++ command.program) source.cause
  | commandFailed command output => .leaf (commandFailedDisplay command output)

def isLinuxHost (kconfig : Str) : Bool := hasLine kconfig "CONFIG_MACH_LINUX=y"

/-- Klipper's artifact for a Kconfig, below the checkout. -/
def outputArtifactName (kconfig : Str) : Str :=
  if isLinuxHost kconfig then "out/klipper.elf"
  else if hasLine kconfig "CONFIG_MACH_RPXXXX=y" &&
      ! hasLine kconfig "CONFIG_RPXXXX_FLASH_START_4000=y" then
    "out/klipper.uf2"
  else "out/klipper.bin"

def kconfigArgument (configPath : Path) : Str := "KCONFIG_CONFIG=" ++ configPath

end Aldis

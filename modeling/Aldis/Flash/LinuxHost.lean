import Aldis.Host.Call

/-!
# Installing the Linux host MCU

Replaces the host binary and restarts its systemd service, as Klipper's `make flash` does.
Nothing is flashed.
-/

namespace Aldis

open Interaction Text Octets

def HOST_MCU_UNIT_FILE : Path := "/etc/systemd/system/klipper-mcu.service"
def INSTALL_COMMAND : List Str := ["/usr/bin/install", "-m", "0755", "/dev/stdin", HOST_MCU_BINARY]
def RESTART_COMMAND : List Str := ["/bin/systemctl", "restart", "klipper-mcu"]

def ELFCLASS64 : UInt8 := 2
def ELFCLASS32 : UInt8 := 1
def EM_ARM : UInt16 := 40
def EM_AARCH64 : UInt16 := 183
def EM_X86_64 : UInt16 := 62

inductive TargetArch where
  | aarch64
  | arm
  | x86_64
  deriving DecidableEq

/-- The ELF classes and machines whose userland the host runs. -/
def TargetArch.hostElfTargets : TargetArch → List (UInt8 × UInt16)
  | aarch64 => [(ELFCLASS64, EM_AARCH64), (ELFCLASS32, EM_ARM)]
  | arm => [(ELFCLASS32, EM_ARM)]
  | x86_64 => [(ELFCLASS64, EM_X86_64)]

def isHostElf (arch : TargetArch) (firmware : Bytes) : Bool :=
  if firmware.length < 20 then false
  else
    let elfClass := firmware.getD 4 0
    let machine := fromLe16 (firmware.drop 18)
    let headerLength := if elfClass = ELFCLASS64 then 64 else 52
    firmware.take 4 == [0x7f, 0x45, 0x4c, 0x46] && firmware.getD 5 0 == 1 &&
      headerLength ≤ firmware.length && arch.hostElfTargets.contains (elfClass, machine)

/-- Flushes the new binary to disk before the service restarts onto it. -/
def syncCommand : BuildCommand := ⟨"sync", [], none, none⟩

namespace HostMcuInstaller

def step (step : InstallStep) (command : BuildCommand) : HostAttempt LinuxHostError Unit := do
  let output ← check (← run .service command) (.commandPort step)
  if output.success then return () else throw (.commandFailed step output)

def install (arch : TargetArch) (unitFile : Path) (firmware : Bytes) :
    HostAttempt LinuxHostError FlashResult := do
  if ¬ isHostElf arch firmware then throw .notHostElf
  if ¬ (← fileCall (.pathExists unitFile) : Bool) then throw (.serviceNotInstalled unitFile)
  step .install (.sudo INSTALL_COMMAND (some firmware))
  step .sync syncCommand
  step .restart (.sudo RESTART_COMMAND none)
  return ⟨none, firmware.length⟩

end HostMcuInstaller
end Aldis

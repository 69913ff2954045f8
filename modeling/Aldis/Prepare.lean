import Aldis.Build.Request
import Aldis.Moonraker

/-!
# Preparing a build

The build request for one MCU of the inventory, derived without writing a file or running a
command.
-/

namespace Aldis

open Text

structure PreparedBuild where
  targetName : Str
  mcu : Str
  transport : Option McuTransport
  request : BuildRequest
  deriving DecidableEq

inductive PreparationError where
  | targetNotDiscovered (target : Str)
  | untrustedKconfig (target : Str) (source : Kconfig.InvalidKconfig)
  deriving DecidableEq

def PreparationError.cause : PreparationError → Cause
  | targetNotDiscovered target =>
    .leaf ("MCU target " ++ quoted target ++ " is not present in Moonraker inventory")
  | untrustedKconfig target source => .headline
      ("refusing to build " ++ quoted target ++ " from the Kconfig its firmware reports")
      (InvalidKconfig.cause source)

def prepareBuild (inventory : McuInventory) (targetName : Str) (configPath artifactPath : Path)
    (clean : Bool) : Except PreparationError PreparedBuild :=
  match inventory.find targetName with
  | none => .error (.targetNotDiscovered targetName)
  | some mcu => match Kconfig.validate mcu.kconfig with
    | .error source => .error (.untrustedKconfig targetName source)
    | .ok () => .ok ⟨targetName, mcu.mcu, mcu.transport,
        ⟨mcu.kconfig, configPath, artifactPath, clean⟩⟩

/-- A prepared build is for the MCU the inventory has under that name. -/
theorem prepareBuild_ok {inventory : McuInventory} {name : Str} {config artifact : Path}
    {clean : Bool} {prepared : PreparedBuild}
    (h : prepareBuild inventory name config artifact clean = .ok prepared) :
    ∃ mcu, inventory.find name = some mcu ∧ Kconfig.validate mcu.kconfig = .ok () ∧
      prepared = ⟨name, mcu.mcu, mcu.transport, ⟨mcu.kconfig, config, artifact, clean⟩⟩ := by
  unfold prepareBuild at h
  cases hfind : inventory.find name with
  | none => simp [hfind] at h
  | some mcu =>
    cases hvalid : Kconfig.validate mcu.kconfig with
    | error source => simp [hfind, hvalid] at h
    | ok u => exact ⟨mcu, rfl, hvalid, by simpa [hfind, hvalid] using h.symm⟩

end Aldis

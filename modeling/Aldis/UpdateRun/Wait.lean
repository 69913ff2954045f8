import Aldis.Flash.System
import Aldis.UpdateRun.Pending

/-!
# Waiting on the printer and its MCUs

The idle check before Klipper is stopped, and the waits after a flash for the MCU's device and,
once Klipper runs again, for its revision.
-/

namespace Aldis.UpdateRun

open Interaction Text

def stopsPrints : KlippyState → Bool
  | .error | .shutdown => true
  | .ready | .startup | .disconnected => false

/-- Klippy in `error` or `shutdown` prints nothing; otherwise the print state decides. -/
def ensurePrinterIdle : HostAttempt Str Unit := do
  match (← mcuCall .hostInfo : Except Cause HostInfo) with
  | .ok info => if stopsPrints info.state then return () else checkPrintState
  | .error _ => checkPrintState
where
  checkPrintState : HostAttempt Str Unit := do
    match (← mcuCall .printState : Except Cause PrintState) with
    | .ok state =>
      if state.isIdle then return ()
      else throw ("the printer is " ++ state.display ++
        "; refusing to stop Klipper, run again when it is idle")
    | .error error => throw ("could not confirm the printer is idle; refusing to stop Klipper: " ++
        errorChain error)

def NET_SYSFS_ROOT : Path := "/sys/class/net"

def applicationDevice (mcu : Mcu) : Option (Path × Str) :=
  match mcu.transport with
  | some (.serial device) => some (device, device)
  | some (.can interface _) =>
    if kconfigSelectsUsbCanBridge mcu.kconfig then
      some (Path.join NET_SYSFS_ROOT interface, "CAN interface " ++ interface)
    else none
  | none => none

def waitForApplication (mcu : Mcu) : HostAttempt Str Unit :=
  match applicationDevice mcu with
  | none => return ()
  | some (path, description) =>
    retryUntilAvailable 15000 100 do
      if ← fileCall (.pathExists path) then return ()
      else throw (mcu.name ++ " did not come back at " ++ description)

def HOST_MCU_SERIAL_PATH : Path := "/tmp/klipper_host_mcu"

/-- Identifies one unreported MCU directly; only serial MCUs are probed, and not the host's. -/
def resolveOne (unreported : UnreportedMcu) : HostAttempt Str (Mcu ⊕ UnreportedMcu) := do
  match unreported.transport with
  | some (.serial device) =>
    if device = HOST_MCU_SERIAL_PATH then return .inr unreported
    else match (← mcuCall (.identify device) : Except IdentifyError IdentifyData) with
      | .ok data => return .inl ⟨unreported.name, data.app, some data.version, data.mcu,
          data.canbusFrequencyHz, data.buildVersions, unreported.transport, data.kconfig⟩
      | .error .portUnavailable => return .inr { unreported with reason := .notIdentified }
      | .error .unidentified => return .inr { unreported with reason := .notResponding }
  | _ => return .inr unreported

def resolveAll : List UnreportedMcu → HostAttempt Str (List (Mcu ⊕ UnreportedMcu))
  | [] => return []
  | unreported :: rest => do
    let resolved ← resolveOne unreported
    return resolved :: (← resolveAll rest)

/-- Moves each unreported MCU that answers among the reported ones. -/
def resolveUnreported (inventory : McuInventory) : HostAttempt Str McuInventory := do
  let resolved ← resolveAll inventory.unreported
  return {
    mcus := (inventory.mcus ++ resolved.filterMap Sum.getLeft?).mergeSort
      fun a b => precedes a.name b.name
    unreported := (resolved.filterMap Sum.getRight?).mergeSort
      fun a b => precedes a.name b.name }

/-- The direct-identify fallback, which runs only while Klippy is in an error state. -/
def probeUnreported (inventory : McuInventory) : HostAttempt Str McuInventory := do
  if inventory.unreported = [] then return inventory
  else match (← mcuCall .hostInfo : Except Cause HostInfo) with
    | .ok info => if stopsPrints info.state then resolveUnreported inventory else return inventory
    | .error _ => return inventory

variable {V : Type} [Semver V]

/-- One look for every updated MCU at its target version; fails with what is still missing. -/
def mcusReady (selected : List Str) (versions : TargetVersions V) : HostAttempt Str Unit := do
  match (← mcuCall .discoverMcus : Except Cause McuInventory) with
  | .error error => throw ("could not query Moonraker: " ++ error.text)
  | .ok inventory =>
    let inventory ← probeUnreported inventory
    match pendingMcus inventory selected versions with
    | [] => return ()
    | pending => throw ("still waiting on: " ++ List.intercalate ", ".toList pending)

def waitForMcus (selected : List Str) (versions : TargetVersions V) : HostAttempt Str Unit :=
  ExceptT.adapt (fun lastState =>
      "Klipper did not reconnect every updated MCU at the built revision (" ++ lastState ++ ")")
    (retryUntilAvailable 30000 250 (mcusReady selected versions))

end Aldis.UpdateRun

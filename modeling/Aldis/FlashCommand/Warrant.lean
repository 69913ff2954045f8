import Aldis.Coordinator.Courses
import Aldis.FlashCommand

/-!
# What the flash command may do, and when

Nothing of the printer is touched before every check has passed on what is then flashed, the
operator has agreed and the printer was found idle; flashing waits for Klipper to be inactive,
and Klipper is started where the MCU came back or was never asked to leave its application.
-/

namespace Aldis.Cli

open Interaction World Fleet UpdateRun Text

/-- Calls on Klipper and its unit, on the host MCU and on the MCUs that are flashed or reset. -/
def disrupts : CliCall → Bool
  | .probeApplicationStart _ | .leaveSystem _ _ | .rebootPicoboot _ | .firmwareRestart _ => true
  | .host (.run _ _) | .host (.flash _) => true
  | _ => false

def flashes (unit : KlipperUnit) : CliCall → Bool
  | .probeApplicationStart _ | .leaveSystem _ _ => true
  | .host call => act unit call = .flash
  | _ => false

def queries (unit : KlipperUnit) : CliCall → Bool
  | .host call => act unit call = .query
  | _ => false

def starts (unit : KlipperUnit) : CliCall → Bool
  | .host call => act unit call = .start
  | _ => false

/-- Whether a call asks the MCU to enter its bootloader. -/
def requests : CliCall → Bool
  | .host call => entersBootloader call
  | _ => false

/-- Klipper was seen inactive, and was not started since. -/
def SeenInactive (unit : KlipperUnit) (past : List Event) : Prop :=
  ∃ x seen y, past = x ++ seen :: y ∧ observedState unit seen = some .inactive ∧
    ∀ ev ∈ y, act unit ev.1 ≠ .start

/-- Klipper was stopped by the command, and was not started since. -/
def HeldStopped (unit : KlipperUnit) (past : List Event) : Prop :=
  ∃ x output y, past = x ++ serviceEvent unit "stop" (.ok output) :: y ∧ output.success = true ∧
    ∀ ev ∈ y, act unit ev.1 ≠ .start

def lastObserved (unit : KlipperUnit) (past : List Event) : Option ServiceState :=
  past.reverse.findSome? (observedState unit)

variable {V : Type} [Semver V] (J : Type) [DictionaryReader J] (arguments : FlashArgs)

structure Prepared (ready : ReadyFlash V) (past : List CliEvent) : Prop where
  locked : ⟨.acquireLock, .ok ()⟩ ∈ past
  file : ⟨.host (.file (.read arguments.firmware)), .ok ready.firmware⟩ ∈ past
  controlled : ∃ reported, ⟨.klipperUnit arguments.moonraker, .ok reported⟩ ∈ past ∧
    checkHost arguments.isLoopbackUrl arguments.moonraker reported = .ok ready.coordinator.unit
  discovered : ⟨.discoverMcus arguments.moonraker, .ok ready.inventory⟩ ∈ past
  named : ready.target = resolveTargetName ready.inventory arguments.target
  flashable : flashRefusal V ready.inventory ready.target = none
  suits : ∀ mcu, ready.inventory.find ready.target = some mcu →
    Prebuilt.prepareExplicit J mcu arguments.firmware ready.firmware = .ok ready.prebuilt
  bridge : ∀ path, arguments.config = some path → ∃ peers,
    ⟨.probePeers path arguments.moonraker, .ok peers⟩ ∈ past ∧
      bridgeRefusal peers ready.coordinator.unit.name ready.inventory [ready.target] = .ok ()
  prepared : ready.pending.prepared.targetName = ready.target

/-- The flash was made and the MCU came back after it. -/
def Returned (ready : ReadyFlash V) (past : List CliEvent) : Prop :=
  ∃ mcu w flash x wait y first result, ready.inventory.find ready.target = some mcu ∧
    past = w ++ flash ++ x ++ wait ++ y ∧
      Runs (flashSelected arguments ready) flash (first, .ok result) ∧
        Runs (asHost flashHooks (waitForApplication mcu)).run wait (.ok ())

/-- The flash found Klipper active, failed in a way that allows Klipper to run, and did not ask
the MCU to enter its bootloader. -/
def Spared (ready : ReadyFlash V) (past : List CliEvent) : Prop :=
  ∃ w flash x first error, past = w ++ flash ++ x ∧
    Runs (flashSelected arguments ready) flash (first, .error error) ∧
      firstObserved ready.coordinator.unit (hostEvents flash) = some .active ∧
        error.allowsKlipperRestore = true ∧ ∀ ev ∈ flash, requests ev.1 = false

/-- A flash of the file that was read: as it is, or as the image that it was checked as. -/
inductive SendsFile (ready : ReadyFlash V) :
    CliProgram (Observed FileFlashError FlashResult) → Prop
  | file : SendsFile ready (stopThen ready (ExceptT.adapt .file
      (flashPreparedFirmwareFile flashHooks arguments.sha1 standardFlashOptions ready.target
        ready.coordinator.arch ready.pending.prepared ready.firmware arguments.force)))
  | image {mcu : Mcu} {request : FlashRequest V}
      (hm : ready.inventory.find ready.target = some mcu)
      (hr : Prebuilt.prepareExplicit J mcu arguments.firmware ready.firmware = .ok (some request)) :
      SendsFile ready (do
        let outcome ← (ready.coordinator.flashPrebuilt arguments.sha1 standardFlashOptions
          ready.target none ready.pending.approve request).handle (onHost flashHooks)
        return (outcome.1, outcome.2.mapError .coordinator))

/-- The command is in the midst of the flash of the file, which is about to make this call. -/
def Sending (ready : ReadyFlash V) (past : List CliEvent) (call : CliCall) : Prop :=
  ∃ flash x y next, SendsFile J arguments ready flash ∧ past = x ++ y ∧
    Begins flash y (.call call next)

/-- What `past` must have shown before a call that touches the printer. -/
structure Warranted (past : List CliEvent) (call : CliCall) (ready : ReadyFlash V) : Prop where
  prepared : Prepared J arguments ready past
  accepted : arguments.force = true ∨ ∃ prompt, ⟨.ui (.confirm prompt), true⟩ ∈ past
  idle : FoundIdle (hostEvents past)
  sends : queries ready.coordinator.unit call = false →
    starts ready.coordinator.unit call = false → Sending J arguments ready past call
  inactive : flashes ready.coordinator.unit call = true →
    SeenInactive ready.coordinator.unit (hostEvents past)
  start : starts ready.coordinator.unit call = true →
    Returned arguments ready past ∨ Spared arguments ready past

/-- The world in which every such call must be warranted. -/
def warranting (V : Type) [Semver V] : World CliAnswer (List CliEvent) :=
  auditing fun past call => disrupts call = true →
    ∃ ready : ReadyFlash V, Warranted J arguments past call ready

end Aldis.Cli

import Aldis.Agent.Blocker
import Aldis.Agent.Report
import Aldis.Eligibility
import Aldis.Fleet.Peer

/-!
# The agent's status

The wire types of `status` and the pure assessment behind it: each MCU's state, why it has it,
and whether the agent offers to update it.
-/

namespace Aldis.Agent

open Text Eligibility Fleet

def API_VERSION : ℕ := 1

/-- The inventory is `none` when discovery was skipped or failed. -/
structure Snapshot (V : Type) where
  host : HostSnapshot
  inventory : Option McuInventory
  peers : List PeerState
  prebuilt : Prebuilt.Targets V

inductive TransportBody where
  | serial (device : Str)
  | can (interface uuid : Str)
  deriving DecidableEq

inductive McuState where
  | current
  | updateAvailable
  | indeterminate
  | externallyManaged
  | unsupportedLegacy
  | unsupportedMcu
  | notIdentified
  | notResponding
  deriving DecidableEq

inductive Action where
  | update
  deriving DecidableEq

structure McuEntry where
  name : Str
  transport : Option TransportBody
  runningVersion : Option Str
  state : McuState
  message : Str
  actions : List Action
  deriving DecidableEq

def McuEntry.offersUpdate (entry : McuEntry) : Bool := entry.actions.contains .update

structure HostBody where
  klippyState : Str
  klippyMessage : Str
  softwareVersion : Option Str
  klipperPath : Option Str
  checkoutVersion : Option Str
  deriving DecidableEq

structure StatusBody where
  apiVersion : ℕ
  host : HostBody
  blocker : Option Blocker
  mcus : List McuEntry
  run : Option RunBody
  deriving DecidableEq

def transportBody : McuTransport → TransportBody
  | .serial device => .serial device
  | .can interface uuid => .can interface (List.leftpad 12 '0' (hex uuid))

variable {V : Type} [Semver V]

/-- The state and message of an MCU with a prebuilt image that is behind, or cannot be
compared. -/
def assessPrebuilt (firmware : Prebuilt.Running V) (revision : Option RevisionStatus)
    (targets : Prebuilt.Targets V) (mcu : Mcu) (running : Str) : McuState × Str :=
  if revision = some .current then (.current, "running " ++ running)
  else match firmware with
    | .beacon _ => match targets.beacon.mcus.lookup mcu.name with
      | some (.ok target) =>
        if revision = some .updateRequired then
          (.updateAvailable, "running " ++ running ++ ", " ++ target.path ++ " holds " ++
            Beacon.reported target.version)
        else (.indeterminate, "cannot compare running " ++ running ++ " with its Beacon image")
      | some (.error reason) => (.indeterminate, "running " ++ running ++
          "; no Beacon firmware image is known: " ++ reason.display)
      | none => (.indeterminate, "running " ++ running ++ "; no Beacon firmware image is known")
    | .foci _ => match targets.foci with
      | some release =>
        if revision = some .updateRequired then
          (.updateAvailable, "running " ++ running ++ ", FOCI release is " ++ release.tag)
        else (.indeterminate, "cannot compare running " ++ running ++ " with FOCI release " ++
          release.tag)
      | none => (.indeterminate, "running " ++ running ++
          "; the latest FOCI release could not be looked up")
    | .cartographer _ => match targets.cartographer.mcus.lookup mcu.name with
      | some (.ok target) =>
        if revision = some .updateRequired then
          (.updateAvailable, "running " ++ running ++ ", " ++ target.path ++ " holds " ++
            target.reported)
        else (.indeterminate, "cannot compare running " ++ running ++
          " with its Cartographer image")
      | some (.error reason) => (.indeterminate, "running " ++ running ++
          "; no Cartographer firmware image is known: " ++ reason.display)
      | none => (.indeterminate, "running " ++ running ++
          "; no Cartographer firmware image is known")

def assessState (mcu : Mcu) (target : TargetVersions V) (softwareLabel : Str) : McuState × Str :=
  let running := mcu.version.getD "unknown"
  let status := assessMcu mcu target
  match status.eligibility, status.revision with
  -- Newer than its target: nothing to update.
  | _, some .newer => (.current, match newerThan mcu target with
      | some description => "running " ++ running ++ ", newer than " ++ description
      | none => "running " ++ running)
  | .eligible, some .current => (.current, "running " ++ running)
  | .eligible, some .updateRequired =>
    (.updateAvailable, "running " ++ running ++ ", host is " ++ softwareLabel)
  | .eligible, _ =>
    (.indeterminate, "cannot compare running " ++ running ++ " with host " ++ softwareLabel)
  | .externallyManaged app, _ => (.externallyManaged, "managed by " ++ app)
  | .prebuilt firmware, revision => assessPrebuilt firmware revision target.prebuilt mcu running
  | .unsupported (.prebuilt reason), _ => (.externallyManaged, reason.display)
  | .unsupported reason, _ => (.unsupportedLegacy, reason.display)
  | .unsupportedMcu family, _ =>
    (.unsupportedMcu, family ++ " boards have no bootloader aldis can flash")

namespace Snapshot

variable (snapshot : Snapshot V)

/-- What the MCUs of a snapshot are compared against. -/
def targetVersions : TargetVersions V where
  klipper := match snapshot.host.info.softwareVersion with
    | some version => .known version
    | none => .indeterminate
  prebuilt := snapshot.prebuilt

def bridgeRefusal (inventory : McuInventory) (mcu : Mcu) : Option Str :=
  if isUsbCanBridge mcu then
    match checkBridge inventory [mcu.name] snapshot.peers with
    | .ok _ => none
    | .error reason => some reason
  else none

def mcuEntry (inventory : McuInventory) (mcu : Mcu) : McuEntry :=
  let (state, message) := assessState mcu snapshot.targetVersions
    (snapshot.host.info.softwareVersion.getD "unknown")
  let (message, actions) :=
    if state = .updateAvailable ∧ blocker snapshot.host = none then
      match snapshot.bridgeRefusal inventory mcu with
      | some reason => (reason, [])
      | none => (message, [.update])
    else (message, [])
  ⟨displayName mcu.name, mcu.transport.map transportBody, mcu.version, state, message, actions⟩

def unreportedEntry (unreported : UnreportedMcu) : McuEntry where
  name := displayName unreported.name
  transport := unreported.transport.map transportBody
  runningVersion := none
  state := match unreported.reason with
    | .notIdentified => .notIdentified
    | .notResponding => .notResponding
  message := unreported.reason.display
  actions := []

def mcuEntries : List McuEntry :=
  match snapshot.inventory with
  | none => []
  | some inventory =>
    inventory.mcus.map (snapshot.mcuEntry inventory) ++ inventory.unreported.map unreportedEntry

end Snapshot

/-- Derives the `status` body; `run` is filled in by the service. -/
def assess (snapshot : Snapshot V) : StatusBody where
  apiVersion := API_VERSION
  host := {
    klippyState := klippyStateLabel snapshot.host.info.state
    klippyMessage := snapshot.host.info.stateMessage
    softwareVersion := snapshot.host.info.softwareVersion
    klipperPath := snapshot.host.info.klipperPath
    checkoutVersion := match snapshot.host.checkoutVersion with
      | some (.known revision) => some revision
      | _ => none }
  blocker := blocker snapshot.host
  mcus := snapshot.mcuEntries
  run := none

def runVersions (snapshot : Snapshot V) : Option (TargetVersions V) :=
  match snapshot.inventory, snapshot.host.info.klipperPath, snapshot.host.info.softwareVersion with
  | some _, some _, some version => some ⟨.known version, snapshot.prebuilt⟩
  | _, _, _ => none

end Aldis.Agent

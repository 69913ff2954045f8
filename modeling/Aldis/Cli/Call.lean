import Aldis.Eligibility
import Aldis.Fleet.Peer
import Aldis.Flash.FirmwareFile
import Aldis.Lib.Handler

/-!
# What a command asks of its surroundings

The command line's calls: those of a run, and besides them the host-wide lock, Moonraker's
address and service, the other printers and the terminal. A command ends with an error whose
whole chain is printed.
-/

namespace Aldis.Cli

open Interaction Fleet Text Octets

/-- What the terminal shows. `status` is the table of what is installed and available,
`finishBeforeFlash` ends the step before the bootloader is entered, and `unreachable` ends the
process. -/
inductive UiCall where
  | action (text : Str)
  | block (text : Str)
  | begin (label : Str)
  | finishSuccess (message : Str)
  | finishFailure
  | heading (text : Str)
  | status
  | finishBeforeFlash
  | confirm (text : Str)
  | unreachable (message : Str)
  deriving DecidableEq

abbrev UiAnswer : UiCall → Type
  | .confirm _ => Bool
  | _ => Unit

/-- A failed discovery; only a Klipper that is not ready yet is told apart. -/
structure DiscoveryError where
  notReady : Bool
  cause : Cause
  deriving DecidableEq

inductive CliCall where
  | acquireLock
  | klipperUnit (url : Str)
  | discoverMcus (url : Str)
  | probePeers (config : Path) (ownUrl : Str)
  | createWorkspace
  | createWorkspaceAt (path : Path)
  | startLogging (path : Path)
  | stdinIsTerminal
  | refreshCheckout (source : Path)
  | checkoutRevision (source : Path)
  | ui (call : UiCall)
  | probeApplicationStart (sysfsPath : Path)
  | leaveSystem (sysfsPath : Path) (applicationStart : UInt32)
  | usbDeviceDirs (root : Path)
  | rebootPicoboot (sysfsPath : Path)
  | firmwareRestart (url : Str)
  | host (call : HostCall)
  deriving DecidableEq

abbrev CliAnswer : CliCall → Type
  | .acquireLock => Except Cause Unit
  | .klipperUnit _ => Except Cause (Option Str)
  | .discoverMcus _ => Except DiscoveryError McuInventory
  | .probePeers _ _ => Except Cause (List PeerState)
  | .createWorkspace => Except Cause Path
  | .createWorkspaceAt _ => Except Cause Unit
  | .startLogging _ => Except Cause Unit
  | .stdinIsTerminal => Bool
  | .refreshCheckout _ => Except Cause Str
  | .checkoutRevision _ => Except Cause CheckoutRevision
  | .ui call => UiAnswer call
  | .probeApplicationStart _ => Except Stm32DfuError ApplicationProbeResult
  | .leaveSystem _ _ => Except Stm32DfuError Unit
  | .usbDeviceDirs _ => List Path
  | .rebootPicoboot _ => Except Cause Unit
  | .firmwareRestart _ => Except Cause Unit
  | .host call => HostAnswer call

abbrev CliEvent := Sigma CliAnswer

abbrev CliProgram := Program CliAnswer

abbrev CliAttempt := Attempt CliAnswer

section Calls

variable {ε α : Type}

def ui (call : UiCall) : CliAttempt ε (UiAnswer call) := Attempt.perform (CliCall.ui call)

def accept {ε' : Type} (answer : Except ε' α) (wrap : ε' → ε) : CliAttempt ε α :=
  Attempt.ofExcept (answer.mapError wrap)

def context (text : Str) (x : CliAttempt Cause α) : CliAttempt Cause α :=
  ExceptT.adapt (.headline text) x

end Calls

/-- How the calls of a run are answered on the command line; its hooks act on the terminal. -/
def onHost (hooks : (call : HookCall) → CliProgram (HookAnswer call)) :
    (call : HostCall) → CliProgram (HostAnswer call)
  | .hook call => hooks call
  | call => Program.perform (CliCall.host call)

def hostEvent : CliEvent → Option Event
  | ⟨.host call, answer⟩ => some ⟨call, answer⟩
  | _ => none

/-- What a command did of the calls that a run makes. -/
def hostEvents (tr : List CliEvent) : List Event := tr.filterMap hostEvent

@[simp] theorem hostEvents_nil : hostEvents [] = [] := rfl

@[simp] theorem hostEvents_append (tr tr' : List CliEvent) :
    hostEvents (tr ++ tr') = hostEvents tr ++ hostEvents tr' := List.filterMap_append

@[simp] theorem hostEvents_host (call : HostCall) (answer : HostAnswer call)
    (tr : List CliEvent) :
    hostEvents (⟨.host call, answer⟩ :: tr) = ⟨call, answer⟩ :: hostEvents tr := rfl

@[simp] theorem hostEvents_ui (call : UiCall) (answer : UiAnswer call) (tr : List CliEvent) :
    hostEvents (⟨.ui call, answer⟩ :: tr) = hostEvents tr := rfl

theorem mem_hostEvents_iff {ev : Event} {tr : List CliEvent} :
    ev ∈ hostEvents tr ↔ ⟨.host ev.1, ev.2⟩ ∈ tr := by
  rw [hostEvents, List.mem_filterMap]
  constructor
  · rintro ⟨⟨call, answer⟩, hmem, he⟩
    cases call with
    | host call =>
        obtain rfl := Option.some.inj he
        exact hmem
    | _ => cases he
  · intro h
    exact ⟨_, h, rfl⟩

def isHook : HostCall → Bool
  | .hook _ => true
  | _ => false

/-- Everything a run calls but its hooks. -/
def effects (tr : List Event) : List Event := tr.filter fun ev => ! isHook ev.1

section Handled

variable {hooks : (call : HookCall) → CliProgram (HookAnswer call)}

def Terminal (hooks : (call : HookCall) → CliProgram (HookAnswer call)) : Prop :=
  ∀ call, (World.confined CliAnswer fun e => ∃ u, e = .ui u).Ensures (hooks call) () fun _ _ => True

theorem runs_onHost {call : HostCall} (h : isHook call = false) {tr : List CliEvent}
    {answer : HostAnswer call} (hr : Runs (onHost hooks call) tr answer) :
    tr = [⟨.host call, answer⟩] := by
  have hperform : onHost hooks call = Program.perform (A := CliAnswer) (.host call) := by
    cases call with
    | hook call => cases h
    | _ => rfl
  rw [hperform] at hr
  exact runs_perform_iff.1 hr

/-- A command that runs `p` does what `p` does. -/
theorem hostEvents_of_answered (ht : Terminal hooks) {tr : List Event} {tr' : List CliEvent}
    (h : Answered (onHost hooks) tr tr') : hostEvents tr' = effects tr := by
  rw [hostEvents, effects, ← List.filterMap_eq_filter]
  refine h.filterMap_eq fun call answer pre hr => ?_
  cases hh : isHook call with
  | true =>
      cases call with
      | hook call =>
          have hr : Runs (hooks call) pre answer := hr
          obtain ⟨hcalls, -⟩ := World.Ensures.calls (ht call) hr
          have hnone : pre.filterMap hostEvent = [] := by
            rw [List.filterMap_eq_nil_iff]
            rintro ⟨e, r⟩ hev
            obtain ⟨u, rfl⟩ := hcalls _ hev
            rfl
          rw [hnone]
          rfl
      | _ => cases hh
  | false =>
      obtain rfl := runs_onHost hh hr
      simp [hostEvent, hh, Option.guard]

end Handled

end Aldis.Cli

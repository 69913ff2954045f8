import Aldis.Build.Request
import Aldis.Service.Unit

/-!
# The state of Klipper's service

What systemd reports of the unit, and the commands that query and change it.
-/

namespace Aldis

open Text

inductive ServiceState where
  | active
  | inactive
  | failed
  | transitioning (state : Str)
  | unknown (state : Str)
  deriving DecidableEq

namespace ServiceState

def ofOutput (stdout : Str) : ServiceState :=
  let state := trim stdout
  if state = "active" then active
  else if state = "inactive" then inactive
  else if state = "failed" then failed
  else if state = "activating" ∨ state = "deactivating" ∨ state = "reloading" then
    transitioning state
  else unknown state

def debug : ServiceState → Str
  | active => "Active"
  | inactive => "Inactive"
  | failed => "Failed"
  | transitioning state => "Transitioning(" ++ quoted state ++ ")"
  | unknown state => "Unknown(" ++ quoted state ++ ")"

end ServiceState

inductive ServiceError where
  | commandPort (command : BuildCommand) (source : CommandError)
  | commandFailed (command : BuildCommand) (output : CommandOutput)
  deriving DecidableEq

def ServiceError.cause : ServiceError → Cause
  | commandPort command source => .headline ("could not invoke " ++ command.program) source.cause
  | commandFailed command output => .leaf (commandFailedDisplay command output)

/-- `systemctl` with one action on the unit, run through `sudo -n`. -/
def systemctl (action : Str) (unit : KlipperUnit) : BuildCommand :=
  .sudo ["/bin/systemctl", action, unit.name] none

theorem systemctl_action_injective {a b : Str} {unit : KlipperUnit}
    (h : systemctl a unit = systemctl b unit) : a = b := by
  simp only [systemctl, BuildCommand.sudo, BuildCommand.mk.injEq, List.cons.injEq] at h
  exact h.2.1.2.2.1

end Aldis

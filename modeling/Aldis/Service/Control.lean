import Aldis.Host.Call

/-!
# Control of Klipper's service

Querying, stopping and starting the unit through the service runner.
-/

namespace Aldis.KlipperService

open Interaction Text

variable (unit : KlipperUnit)

def runSystemctl (action : Str) : HostAttempt ServiceError CommandOutput := do
  check (← run .service (systemctl action unit)) (.commandPort (systemctl action unit))

def state : HostAttempt ServiceError ServiceState := do
  let output ← runSystemctl unit "is-active"
  return ServiceState.ofOutput output.stdout

def runStateChange (action : Str) : HostAttempt ServiceError Unit := do
  let output ← runSystemctl unit action
  if output.success then return () else throw (.commandFailed (systemctl action unit) output)

def stop : HostAttempt ServiceError Unit := runStateChange unit "stop"

def start : HostAttempt ServiceError Unit := runStateChange unit "start"

end Aldis.KlipperService

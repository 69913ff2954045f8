import Aldis.UpdateRun.Run

/-!
# The ledger of a run

What the answered calls of a run show: the MCUs that were approved, the state of Klipper's unit as
it was last observed, and whether this run holds it stopped.
-/

namespace Aldis.UpdateRun

open Interaction World Text

/-- What a call is, as far as Klipper's unit and the flashed MCUs are concerned. -/
inductive Act where
  | query
  | stop
  | start
  | build
  | flash
  | download
  | other
  deriving DecidableEq

/-- A service command that is not for Klipper's unit installs the Linux host MCU. -/
def act (unit : KlipperUnit) : HostCall → Act
  | .run runner command =>
    if command = systemctl "is-active" unit then .query
    else if command = systemctl "stop" unit then .stop
    else if command = systemctl "start" unit then .start
    else match runner with
      | .build => .build
      | .service => .flash
  | .flash _ => .flash
  | .downloadText _ _ | .downloadBytes _ _ => .download
  | _ => .other

def Act.disrupts : Act → Bool
  | stop | build | flash => true
  | query | start | download | other => false

/-- Whether a call asks the MCU that is being flashed to enter its bootloader. -/
def entersBootloader : HostCall → Bool
  | .flash call => call.entersBootloader
  | _ => false

/-- `attempts` has the approved MCUs, the newest first, and `inactive` is whether the unit was seen
inactive for that one and was not started since. -/
structure Ledger where
  attempts : List Str
  inactive : Bool
  first : Option Bool
  held : Bool
  started : Bool
  declined : Bool
  finishing : Bool
  deriving DecidableEq

namespace Ledger

def empty : Ledger := ⟨[], false, none, false, false, false, false⟩

def observe (l : Ledger) (state : ServiceState) : Ledger :=
  { l with
    inactive := decide (state = .inactive)
    first := l.first.or (some (decide (state = .active))) }

def approve (l : Ledger) (name : Str) (answer : Bool) : Ledger :=
  { l with
    attempts := if answer then name :: l.attempts else l.attempts
    inactive := false
    declined := !answer }

/-- A command that could not be run changes nothing; `start` counts as issued all the same. -/
def command (l : Ledger) (act : Act) (answer : Except CommandError CommandOutput) : Ledger :=
  match act with
  | .query => match answer with
    | .ok output => l.observe (ServiceState.ofOutput output.stdout)
    | .error _ => l
  | .stop => match answer with
    | .ok output => { l with held := l.held || output.success }
    | .error _ => l
  | .start => { l with inactive := false, held := false, started := true }
  | _ => l

variable (unit : KlipperUnit)

def next (l : Ledger) : Event → Ledger
  | ⟨.hook (.approve name _ _), answer⟩ => l.approve name answer
  | ⟨.hook (.stepStarted .startKlipper), _⟩ => { l with declined := false, finishing := true }
  | ⟨.run runner command, answer⟩ => l.command (act unit (.run runner command)) answer
  | _ => l

end Ledger

def ledger (unit : KlipperUnit) (past : List Event) : Ledger :=
  past.foldl (Ledger.next unit) .empty

@[simp] theorem ledger_nil (unit : KlipperUnit) : ledger unit [] = .empty := rfl

@[simp] theorem ledger_append (unit : KlipperUnit) (past : List Event) (ev : Event) :
    ledger unit (past ++ [ev]) = (ledger unit past).next unit ev := by
  rw [ledger, List.foldl_append]
  rfl

/-- The printer was found idle at some point of `past`. -/
def FoundIdle (past : List Event) : Prop :=
  ∃ a tr b, past = a ++ tr ++ b ∧ Runs ensurePrinterIdle.run tr (.ok ())

theorem FoundIdle.mono {past past' : List Event} (h : FoundIdle past) (hp : past <+: past') :
    FoundIdle past' := by
  obtain ⟨a, tr, b, rfl, hr⟩ := h
  obtain ⟨c, rfl⟩ := hp
  exact ⟨a, tr, b ++ c, by simp only [List.append_assoc], hr⟩

/-- What a run may call after the calls in `past`. -/
structure Permitted (unit : KlipperUnit) (past : List Event) (call : HostCall) : Prop where
  idle : (act unit call).disrupts = true → FoundIdle past
  inactive : act unit call = .build ∨ act unit call = .flash →
    (ledger unit past).attempts ≠ [] ∧ (ledger unit past).inactive = true
  approved : act unit call ≠ .other → (ledger unit past).declined = false
  restored : act unit call = .start →
    (ledger unit past).finishing = true ∨ (ledger unit past).first = some true

def discipline (unit : KlipperUnit) : World HostAnswer (List Event) := auditing (Permitted unit)

@[simp] theorem discipline_permits {unit : KlipperUnit} {past : List Event} {call : HostCall} :
    (discipline unit).permits past call ↔ Permitted unit past call := Iff.rfl

@[simp] theorem discipline_step {unit : KlipperUnit} {past past' : List Event} {call : HostCall}
    {answer : HostAnswer call} :
    (discipline unit).step past call answer past' ↔ past' = past ++ [⟨call, answer⟩] := Iff.rfl

end Aldis.UpdateRun

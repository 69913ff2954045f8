import Aldis.Agent.Hooks
import Aldis.Agent.Targets
import Aldis.Lib.Threads

/-!
# The agent's service

The agents of one process share the host-wide update lock and the record of who holds it; each has
a record of its own run. Threads serve requests and run updates. Every critical section of the
source is one atomic action here, so that whatever happens between two of them can happen in a run
of the model.
-/

namespace Aldis.Agent

open Text

def MESSAGE_CAP : ℕ := 500

/-- The one lock file shared by every user, invocation and agent of the host. -/
def LOCK_PATH : Str := "/tmp/aldis.lock"

def pushCapped (run : RunBody) (message : UpdateResponse) : RunBody :=
  let messages := if run.messages.length ≥ MESSAGE_CAP then run.messages.drop 1 else run.messages
  { run with messages := messages ++ [message] }

structure ServiceState where
  run : Option RunBody
  /-- The assessment taken when the running update was accepted. -/
  runSnapshot : Option StatusBody
  deriving DecidableEq

namespace ServiceState

variable (state : ServiceState)

def running : Option Str :=
  (state.run.filter (fun run => run.state = .running)).map (·.runId)

/-- A new record replaces that of the last run. -/
def accept (runId : Str) (body : StatusBody) : ServiceState :=
  ⟨some ⟨runId, .running, [], none⟩, some body⟩

def push (message : UpdateResponse) : ServiceState :=
  { state with run := state.run.map (pushCapped · message) }

def finish (result : RunResultBody) : ServiceState :=
  { state with
    run := state.run.map fun run => { run with state := .finished, result := some result } }

variable {V : Type} [Semver V]

/-- The status while the backend reports `snapshot`, which is not asked for during a run. -/
def status (snapshot : Snapshot V) : StatusBody :=
  match state.run, state.runSnapshot with
  | some run, some body =>
    if run.state = .running then
      { body with
        mcus := body.mcus.map (fun mcu => { mcu with actions := [] })
        run := some run }
    else { assess snapshot with run := some run }
  | run, _ => { assess snapshot with run := run }

end ServiceState

def lockUnavailable : ApiError :=
  .rejected "unavailable" ("could not open the update lock at " ++ LOCK_PATH)

def busyError : ApiError := .rejected "busy" "an update is already running"

def busy (holder : Option Str) : ApiError :=
  match holder with
  | some holder => .rejected "busy" ("an update is already running on " ++ holder)
  | none => busyError

structure Shared (I : Type) where
  locked : Bool
  holder : Option Str
  services : I → ServiceState

namespace Shared

variable {I : Type} [DecidableEq I] (shared : Shared I)

/-- An instance without a name records nothing. -/
def claim (name : Str) : Shared I :=
  if name = [] then shared else { shared with holder := some name }

/-- What the guard that `claim` returns does when it is dropped. -/
def drop (name : Str) : Shared I :=
  if name = [] then shared else { shared with holder := none }

def update (i : I) (f : ServiceState → ServiceState) : Shared I :=
  { shared with services := Function.update shared.services i (f (shared.services i)) }

end Shared

structure Job (I V : Type) where
  i : I
  runId : Str
  snapshot : Snapshot V
  targets : List Str

namespace Job

variable {I V : Type} (job : Job I V)

def discover : UpdateResponse where
  runId := job.runId
  mcu := none
  phase := .discover
  message := "updating " ++ List.intercalate ", ".toList (job.targets.map displayName)
  complete := false
  result := none

/-- The payload that completes a run, given what the backend answers after it. -/
def done (result : RunResult) (log : Str) (active : Option Bool) (klippy : KlippyState) :
    UpdateResponse where
  runId := job.runId
  mcu := none
  phase := .done
  message := result.message log (active = some false)
  complete := true
  result := some (result.body job.targets klippy (active = some false))

end Job

inductive Stage where
  | spawned
  /-- Inside the backend's run: a message that was recorded may still have to be sent, and the
  backend may still hold the update lock. -/
  | running (hooks : AgentHooks) (unsent : Option UpdateResponse) (holds : Bool)
  | returned (result : RunResult)
  | reporting (result : RunResult)
  | completing (message : UpdateResponse) (result : RunResultBody)
  | delivered (result : RunResultBody)

/-- Where a thread is. The thread that accepts an update goes on as its worker: all that is left of
the request is the answer. -/
inductive Thread (I V : Type) where
  | idle
  /-- Another process of the host, or the command line, while it holds the update lock. -/
  | outside
  | asked (i : I) (request : UpdateRequest)
  | refused (i : I)
  | locked (i : I) (request : UpdateRequest)
  | claimed (i : I) (request : UpdateRequest)
  | checked (i : I) (request : UpdateRequest)
  | selected (i : I) (snapshot : Snapshot V) (targets : List Str)
  | rejected (i : I) (error : ApiError)
  | unclaimed (i : I) (error : ApiError)
  | worker (job : Job I V) (stage : Stage)

inductive Event (I V : Type) where
  | status (i : I) (body : StatusBody)
  | outsideLocked
  | outsideUnlocked
  | asked (i : I) (request : UpdateRequest)
  | answered (i : I) (error : ApiError)
  | refused (i : I)
  | locked (i : I)
  | claimed (i : I)
  /-- The request was rejected because the run `runId` is recorded as running. -/
  | stillRunning (i : I) (runId : Str)
  | checked (i : I)
  | selected (i : I)
  | rejected (i : I) (error : ApiError)
  | dropped (i : I)
  | unlocked (i : I)
  | accepted (job : Job I V)
  | pushed (i : I) (message : UpdateResponse)
  | sent (i : I) (message : UpdateResponse)
  | returned (i : I) (runId : Str) (result : RunResult)
  | finished (i : I) (runId : Str)

variable {I V : Type} [DecidableEq I] [Semver V]

/-- The atomic actions of a thread, where `name` names the instances. -/
inductive Act (name : I → Str) :
    Shared I → Thread I V → Event I V → Shared I → Thread I V → Prop
  | status {σ : Shared I} {i : I} {snapshot : Snapshot V} :
      Act name σ .idle (.status i ((σ.services i).status snapshot)) σ .idle
  | lockOutside {σ : Shared I} (hl : σ.locked = false) :
      Act name σ .idle .outsideLocked { σ with locked := true } .outside
  | unlockOutside {σ : Shared I} :
      Act name σ .outside .outsideUnlocked { σ with locked := false } .idle
  | ask {σ : Shared I} {i : I} {request : UpdateRequest} :
      Act name σ .idle (.asked i request) σ (.asked i request)
  | unavailable {σ : Shared I} {i : I} {request : UpdateRequest} :
      Act name σ (.asked i request) (.answered i lockUnavailable) σ .idle
  | refuse {σ : Shared I} {i : I} {request : UpdateRequest} (hl : σ.locked = true) :
      Act name σ (.asked i request) (.refused i) σ (.refused i)
  | busy {σ : Shared I} {i : I} :
      Act name σ (.refused i) (.answered i (busy σ.holder)) σ .idle
  | lock {σ : Shared I} {i : I} {request : UpdateRequest} (hl : σ.locked = false) :
      Act name σ (.asked i request) (.locked i) { σ with locked := true } (.locked i request)
  | claim {σ : Shared I} {i : I} {request : UpdateRequest} :
      Act name σ (.locked i request) (.claimed i) (σ.claim (name i)) (.claimed i request)
  -- A finishing run gives the lock back before it is recorded as finished.
  | stillRunning {σ : Shared I} {i : I} {request : UpdateRequest} {runId : Str}
      (hrun : (σ.services i).running = some runId) :
      Act name σ (.claimed i request) (.stillRunning i runId) σ (.rejected i busyError)
  | check {σ : Shared I} {i : I} {request : UpdateRequest}
      (hrun : (σ.services i).running = none) :
      Act name σ (.claimed i request) (.checked i) σ (.checked i request)
  | reject {σ : Shared I} {i : I} {request : UpdateRequest} {snapshot : Snapshot V}
      {error : ApiError} (hsel : selectTargets snapshot request = .error error) :
      Act name σ (.checked i request) (.rejected i error) σ (.rejected i error)
  | select {σ : Shared I} {i : I} {request : UpdateRequest} {snapshot : Snapshot V}
      {targets : List Str} (hsel : selectTargets snapshot request = .ok targets) :
      Act name σ (.checked i request) (.selected i) σ (.selected i snapshot targets)
  | dropRejected {σ : Shared I} {i : I} {error : ApiError} :
      Act name σ (.rejected i error) (.dropped i) (σ.drop (name i)) (.unclaimed i error)
  | unlockRejected {σ : Shared I} {i : I} {error : ApiError} :
      Act name σ (.unclaimed i error) (.unlocked i) { σ with locked := false } .idle
  | accept {σ : Shared I} {job : Job I V} :
      Act name σ (.selected job.i job.snapshot job.targets) (.accepted job)
        (σ.update job.i (fun _ => ServiceState.accept job.runId (assess job.snapshot)))
        (.worker job .spawned)
  | discover {σ : Shared I} {job : Job I V} :
      Act name σ (.worker job .spawned) (.pushed job.i job.discover)
        (σ.update job.i (·.push job.discover))
        (.worker job (.running ⟨job.runId, none, .discover⟩ (some job.discover) true))
  | hook {σ : Shared I} {job : Job I V} {hooks : AgentHooks} {holds : Bool} {hook : HookCall} :
      Act name σ (.worker job (.running hooks none holds)) (.pushed job.i (hooks.call hook).2)
        (σ.update job.i (·.push (hooks.call hook).2))
        (.worker job (.running (hooks.call hook).1 (some (hooks.call hook).2) holds))
  | send {σ : Shared I} {job : Job I V} {hooks : AgentHooks} {message : UpdateResponse}
      {holds : Bool} :
      Act name σ (.worker job (.running hooks (some message) holds)) (.sent job.i message) σ
        (.worker job (.running hooks none holds))
  | unlock {σ : Shared I} {job : Job I V} {hooks : AgentHooks} :
      Act name σ (.worker job (.running hooks none true)) (.unlocked job.i)
        { σ with locked := false } (.worker job (.running hooks none false))
  | return {σ : Shared I} {job : Job I V} {hooks : AgentHooks} {result : RunResult} :
      Act name σ (.worker job (.running hooks none false)) (.returned job.i job.runId result) σ
        (.worker job (.returned result))
  | drop {σ : Shared I} {job : Job I V} {result : RunResult} :
      Act name σ (.worker job (.returned result)) (.dropped job.i) (σ.drop (name job.i))
        (.worker job (.reporting result))
  | complete {σ : Shared I} {job : Job I V} {result : RunResult} {log : Str}
      {active : Option Bool} {klippy : KlippyState} :
      Act name σ (.worker job (.reporting result))
        (.pushed job.i (job.done result log active klippy))
        (σ.update job.i (·.push (job.done result log active klippy)))
        (.worker job (.completing (job.done result log active klippy)
          (result.body job.targets klippy (active = some false))))
  | deliver {σ : Shared I} {job : Job I V} {message : UpdateResponse} {result : RunResultBody} :
      Act name σ (.worker job (.completing message result)) (.sent job.i message) σ
        (.worker job (.delivered result))
  | finish {σ : Shared I} {job : Job I V} {result : RunResultBody} :
      Act name σ (.worker job (.delivered result)) (.finished job.i job.runId)
        (σ.update job.i (·.finish result)) .idle

end Aldis.Agent

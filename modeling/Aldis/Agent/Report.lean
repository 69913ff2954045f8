import Aldis.Prebuilt
import Aldis.UpdateRun.Report

/-!
# What the agent reports of a run

The messages of a run, its record, and the result that the worker derives from what the run
returned.
-/

namespace Aldis.Agent

open Text

inductive Phase where
  | discover
  | stopKlipper
  | build
  | enterBootloader
  | flash
  | verify
  | startKlipper
  | reconnect
  | done
  deriving DecidableEq

inductive Outcome where
  | success
  | failed
  deriving DecidableEq

inductive McuOutcome where
  | updated
  | failed
  | notAttempted
  deriving DecidableEq

structure McuOutcomeBody where
  name : Str
  outcome : McuOutcome
  message : Str
  deriving DecidableEq

structure RunResultBody where
  outcome : Outcome
  klippyState : Str
  klipperLeftStopped : Bool
  mcus : List McuOutcomeBody
  deriving DecidableEq

structure UpdateResponse where
  runId : Str
  mcu : Option Str
  phase : Phase
  message : Str
  complete : Bool
  result : Option RunResultBody
  deriving DecidableEq

inductive RunState where
  | running
  | finished
  deriving DecidableEq

structure RunBody where
  runId : Str
  state : RunState
  messages : List UpdateResponse
  result : Option RunResultBody
  deriving DecidableEq

def klippyStateLabel : KlippyState → Str
  | .ready => "ready"
  | .startup => "startup"
  | .error => "error"
  | .shutdown => "shutdown"
  | .disconnected => "disconnected"

/-- What a run returned: the MCUs it updated, or its failure. -/
abbrev RunResult := Except RunFailure (List Str)

namespace RunResult

def updated : RunResult → List Str
  | .ok updated => updated
  | .error failure => failure.updated

def failure : RunResult → Option RunFailure
  | .ok _ => none
  | .error failure => some failure

def stoppedAt (result : RunResult) : Option Str := result.failure.bind (·.mcu)

variable (result : RunResult)

def outcome : Outcome := if result.failure = none then .success else .failed

def mcuOutcome (target : Str) : McuOutcomeBody :=
  if result.updated.contains target then ⟨displayName target, .updated, "updated"⟩
  else if result.failure.any (fun f => f.mcu = some target) then
    ⟨displayName target, .failed, (result.failure.map (·.detail)).getD []⟩
  else ⟨displayName target, .notAttempted, "not attempted"⟩

def mcuOutcomes (targets : List Str) : List McuOutcomeBody := targets.map result.mcuOutcome

def message (log : Str) (klipperLeftStopped : Bool) : Str :=
  match result.failure with
  | none => decimal result.updated.length ++ " updated; log: " ++ log
  | some failure =>
    if klipperLeftStopped then
      "update failed: " ++ failure.detail ++ ". Klipper was left stopped: recover " ++
        (failure.mcu.map displayName).getD "the MCU" ++
        ", then start Klipper from the service menu; log: " ++ log
    else failure.message ++ "; log: " ++ log

def body (targets : List Str) (klippyState : KlippyState) (klipperLeftStopped : Bool) :
    RunResultBody :=
  ⟨result.outcome, klippyStateLabel klippyState, klipperLeftStopped, result.mcuOutcomes targets⟩

structure Reports (target : Str) (body : McuOutcomeBody) : Prop where
  name : body.name = displayName target
  updated : body.outcome = .updated ↔ target ∈ result.updated
  failed : body.outcome = .failed ↔ result.stoppedAt = some target ∧ target ∉ result.updated
  notAttempted : body.outcome = .notAttempted ↔
    target ∉ result.updated ∧ result.stoppedAt ≠ some target

theorem stoppedAt_eq_iff (target : Str) :
    result.failure.any (fun f => f.mcu = some target) = true ↔ result.stoppedAt = some target := by
  unfold stoppedAt
  cases result.failure with
  | none => exact ⟨nofun, nofun⟩
  | some failure => simp

theorem mcuOutcome_reports (target : Str) : result.Reports target (result.mcuOutcome target) := by
  unfold mcuOutcome
  by_cases hu : target ∈ result.updated
  · rw [if_pos (List.contains_iff_mem.2 hu)]
    exact ⟨rfl, by simp [hu], by simp [hu], by simp [hu]⟩
  · rw [if_neg (mt List.contains_iff_mem.1 hu)]
    by_cases hs : result.stoppedAt = some target
    · rw [if_pos ((result.stoppedAt_eq_iff target).2 hs)]
      exact ⟨rfl, by simp [hu], by simp [hu, hs], by simp [hs]⟩
    · rw [if_neg (mt (result.stoppedAt_eq_iff target).1 hs)]
      exact ⟨rfl, by simp [hu], by simp [hs], by simp [hu, hs]⟩

/-- Every target has one entry in the report, in the order of the targets. -/
theorem mcuOutcomes_report (targets : List Str) :
    List.Forall₂ result.Reports targets (result.mcuOutcomes targets) := by
  unfold mcuOutcomes
  rw [List.forall₂_map_right_iff, List.forall₂_same]
  intro target _
  exact result.mcuOutcome_reports target

def shownAs (outcome : McuOutcome) (targets : List Str) : List Str :=
  ((targets.zip (result.mcuOutcomes targets)).filter (·.2.outcome = outcome)).map (·.1)

theorem shownAs_eq (outcome : McuOutcome) (targets : List Str) :
    result.shownAs outcome targets =
      targets.filter (fun target => (result.mcuOutcome target).outcome = outcome) := by
  unfold shownAs mcuOutcomes
  induction targets with
  | nil => rfl
  | cons target rest ih =>
      rw [List.map_cons, List.zip_cons_cons, List.filter_cons, List.filter_cons]
      by_cases h : (result.mcuOutcome target).outcome = outcome
      · simp only [h, decide_true, if_true, List.map_cons, ih]
      · simp only [h, decide_false, Bool.false_eq_true, if_false, ih]

end RunResult
end Aldis.Agent

import Aldis.Prebuilt.Assessed
import Aldis.UpdateRun.Discipline

/-!
# When a run stops and starts Klipper

The discipline of a run, read off its trace: what came before a stop, a build, a flash or a
start, what a declined target causes, and when a restore starts Klipper.
-/

namespace Aldis.UpdateRun

open Interaction World Text Octets

variable {unit : KlipperUnit}

def observedState (unit : KlipperUnit) : Event → Option ServiceState
  | ⟨.run runner command, .ok output⟩ =>
    if act unit (.run runner command) = .query then some (ServiceState.ofOutput output.stdout)
    else none
  | _ => none

/-- The first state of Klipper's unit that was observed. -/
def firstObserved (unit : KlipperUnit) (tr : List Event) : Option ServiceState :=
  tr.findSome? (observedState unit)

def isApproval : HostCall → Bool
  | .hook (.approve _ _ _) => true
  | _ => false

/-- Whether an answered call begins the next target, or the end of the run. -/
def beginsNext : HostCall → Bool
  | .hook (.approve _ _ _) | .hook (.stepStarted .startKlipper) => true
  | _ => false

section Reading

theorem next_first (l : Ledger) (ev : Event) : (l.next unit ev).first =
    l.first.or ((observedState unit ev).map fun state => decide (state = .active)) := by
  obtain ⟨call, answer⟩ := ev
  cases call with
  | run runner command =>
      rcases answer with error | output <;>
        cases hact : act unit (.run runner command) <;>
        simp [Ledger.next, Ledger.command, Ledger.observe, observedState, hact]
  | hook call =>
      cases call with
      | stepStarted step => cases step <;> exact (Option.or_none).symm
      | stepSucceeded step => cases step <;> exact (Option.or_none).symm
      | approve name current next => exact (Option.or_none).symm
      | progress name progress => exact (Option.or_none).symm
      | flashed name kconfig bytes => exact (Option.or_none).symm
      | failed message => exact (Option.or_none).symm
  | _ => exact (Option.or_none).symm

theorem ledger_first (past : List Event) : (ledger unit past).first =
    (firstObserved unit past).map fun state => decide (state = .active) := by
  induction past using List.reverseRecOn with
  | nil => rfl
  | append_singleton past ev ih =>
      rw [ledger_append, next_first, ih, firstObserved, firstObserved, List.findSome?_append]
      cases past.findSome? (observedState unit) with
      | none => simp
      | some state => simp

theorem ledger_first_iff (past : List Event) :
    (ledger unit past).first = some true ↔ firstObserved unit past = some .active := by
  rw [ledger_first]
  cases firstObserved unit past with
  | none => simp
  | some state => simp

theorem next_started (l : Ledger) (ev : Event) :
    (l.next unit ev).started = true ↔ l.started = true ∨ act unit ev.1 = .start := by
  obtain ⟨call, answer⟩ := ev
  cases call with
  | run runner command =>
      rcases answer with error | output <;>
        cases hact : act unit (.run runner command) <;>
        simp [Ledger.next, Ledger.command, Ledger.observe, hact]
  | hook call =>
      cases call with
      | stepStarted step => cases step <;> simp [Ledger.next, act]
      | stepSucceeded step => cases step <;> simp [Ledger.next, act]
      | _ => simp [Ledger.next, act, Ledger.approve]
  | _ => simp [Ledger.next, act]

theorem ledger_started_iff (past : List Event) :
    (ledger unit past).started = true ↔ ∃ ev ∈ past, act unit ev.1 = .start := by
  induction past using List.reverseRecOn with
  | nil => simp [Ledger.empty]
  | append_singleton past ev ih =>
      rw [ledger_append, next_started, ih]
      simp [or_and_right, exists_or]

theorem command_inactive {l : Ledger} {act : Act} {answer : Except CommandError CommandOutput}
    (h : (l.command act answer).inactive = true) :
    (act = .query ∧ ∃ output, answer = .ok output ∧
        ServiceState.ofOutput output.stdout = .inactive) ∨
      (l.inactive = true ∧ act ≠ .start) := by
  cases act with
  | query =>
      cases answer with
      | ok output => exact .inl ⟨rfl, output, rfl, of_decide_eq_true h⟩
      | error error => exact .inr ⟨h, nofun⟩
  | stop => cases answer <;> exact .inr ⟨h, nofun⟩
  | start => cases h
  | build => exact .inr ⟨h, nofun⟩
  | flash => exact .inr ⟨h, nofun⟩
  | download => exact .inr ⟨h, nofun⟩
  | other => exact .inr ⟨h, nofun⟩

theorem next_inactive {l : Ledger} {ev : Event} (h : (l.next unit ev).inactive = true) :
    observedState unit ev = some .inactive ∨
      (l.inactive = true ∧ act unit ev.1 ≠ .start ∧ isApproval ev.1 = false) := by
  obtain ⟨call, answer⟩ := ev
  cases call with
  | run runner command =>
      rcases command_inactive h with ⟨hact, output, rfl, hstate⟩ | ⟨hl, hact⟩
      · left
        simp only [observedState, hact, hstate, if_true]
      · exact .inr ⟨hl, hact, rfl⟩
  | hook call =>
      cases call with
      | stepStarted step => cases step <;> exact .inr ⟨h, nofun, rfl⟩
      | stepSucceeded step => cases step <;> exact .inr ⟨h, nofun, rfl⟩
      | approve name current next => cases h
      | progress name progress => exact .inr ⟨h, nofun, rfl⟩
      | flashed name kconfig bytes => exact .inr ⟨h, nofun, rfl⟩
      | failed message => exact .inr ⟨h, nofun, rfl⟩
  | _ => exact .inr ⟨h, nofun, rfl⟩

/-- Klipper was seen inactive, and neither a start nor another approval came since. -/
theorem exists_observation {past : List Event} (h : (ledger unit past).inactive = true) :
    ∃ x ev y, past = x ++ ev :: y ∧ observedState unit ev = some .inactive ∧
      ∀ e ∈ y, act unit e.1 ≠ .start ∧ isApproval e.1 = false := by
  induction past using List.reverseRecOn with
  | nil => cases h
  | append_singleton past ev ih =>
      rw [ledger_append] at h
      rcases next_inactive h with hseen | ⟨hl, hs, ha⟩
      · exact ⟨past, ev, [], rfl, hseen, nofun⟩
      · obtain ⟨x, seen, y, rfl, hseen, hy⟩ := ih hl
        refine ⟨x, seen, y ++ [ev], by simp, hseen, ?_⟩
        intro e he
        rcases List.mem_append.1 he with he | he
        · exact hy e he
        · obtain rfl := List.mem_singleton.1 he
          exact ⟨hs, ha⟩

theorem next_declined {l : Ledger} {ev : Event} (h : l.declined = true)
    (hn : beginsNext ev.1 = false) : (l.next unit ev).declined = true := by
  obtain ⟨call, answer⟩ := ev
  cases call with
  | run runner command =>
      rcases answer with error | output <;>
        cases hact : act unit (.run runner command) <;>
        simp [Ledger.next, Ledger.command, Ledger.observe, hact, h]
  | hook call =>
      cases call with
      | stepStarted step => cases step <;> first | exact h | cases hn
      | stepSucceeded step => cases step <;> exact h
      | approve name current next => cases hn
      | _ => exact h
  | _ => exact h

theorem ledger_declined {past y : List Event} {name current next : Str}
    (hy : ∀ e ∈ y, beginsNext e.1 = false) :
    (ledger unit (past ++ ⟨.hook (.approve name current next), false⟩ :: y)).declined = true := by
  induction y using List.reverseRecOn with
  | nil => rw [ledger_append]; rfl
  | append_singleton y ev ih =>
      rw [← List.cons_append, ← List.append_assoc, ledger_append]
      refine next_declined (ih fun e he => hy e (List.mem_append_left _ he)) (hy ev ?_)
      exact List.mem_append_right _ (List.mem_singleton_self ev)

end Reading

variable {V : Type} [Semver V] {J : Type} [DictionaryReader J] {run : UpdateRun V}
  {tr : List Event} {result : Except RunFailure (List Str)}

section Host

/-- The header of an executable for a 64-bit x86 host. -/
def hostElf : Bytes :=
  [0x7f, 0x45, 0x4c, 0x46, 2, 1] ++ List.replicate 12 0 ++ [62, 0] ++ List.replicate 44 0

/-- A host on which Klipper runs unless it was stopped, and every command succeeds. -/
def klipperHost (past : List Event) : (call : HostCall) → HostAnswer call
  | .run _ command =>
    if command = systemctl "is-active" .default then
      .ok ⟨true, if (ledger .default past).held then "inactive" else "active", []⟩
    else .ok ⟨true, [], []⟩
  | .file (.readToString _) => .ok "CONFIG_MACH_LINUX=y\n"
  | .file (.read _) => .ok hostElf
  | call => idleHost call

def hostMcu : Mcu where
  name := "mcu host"
  app := some "Klipper"
  version := some "v0.12.0-1-g0123abc"
  mcu := "linux"
  canbusFrequencyHz := none
  buildVersions := none
  transport := some (.serial HOST_MCU_SERIAL_PATH)
  kconfig := "CONFIG_MACH_LINUX=y\n"

def shellMcu : Mcu :=
  { hostMcu with name := "mcu shell", kconfig := "CONFIG_MACH_STM32=$(shell id)" }

def twinMcu : Mcu := { hostMcu with name := "mcu twin" }

def hostRun (targets : List Str) : UpdateRun Semver.Rank where
  coordinator := ⟨⟨"/home/pi/klipper", true⟩, .default, .x86_64⟩
  inventory := ⟨[hostMcu, shellMcu, twinMcu], []⟩
  workspace := ⟨"/run/aldis"⟩
  targets := targets
  targetVersions := ⟨.indeterminate, ⟨none, ⟨none, []⟩, ⟨none, none, []⟩⟩⟩
  clean := false
  sha1 := fun _ => []
  sha256 := fun _ => []

def hostExecution (targets : List Str) : List Event × Except RunFailure (List Str) :=
  ((hostRun targets).runUpdates Unit).run.interact klipperHost []

theorem runs_hostExecution (targets : List Str) : Runs ((hostRun targets).runUpdates Unit).run
    (hostExecution targets).1 (hostExecution targets).2 := runs_interact_nil klipperHost _

/-- The same host, whose operator declines one target and whose second build leaves no file. -/
def batchHost (past : List Event) : (call : HostCall) → HostAnswer call
  | .hook (.approve name _ _) => name ≠ "mcu shell"
  | .file (.read path) =>
    if (ledger .default past).attempts.length = 2 then .error ⟨true, .leaf "no such file"⟩
    else klipperHost past (.file (.read path))
  | call => klipperHost past call

def batchTargets : List Str := ["mcu host", "mcu shell", "mcu twin"]

def batchExecution : List Event × Except RunFailure (List Str) :=
  ((hostRun batchTargets).runUpdates Unit).run.interact batchHost []

def batchFailure : RunFailure where
  message := failureMessage .update "could not read the built firmware: no such file"
    (some (.ok ()))
  detail := "could not read the built firmware: no such file"
  mcu := some "mcu twin"
  updated := ["mcu host"]

def isDecline : Event → Bool
  | ⟨.hook (.approve _ _ _), answer⟩ => !answer
  | _ => false

theorem runs_batchExecution : Runs ((hostRun batchTargets).runUpdates Unit).run
    batchExecution.1 (.error batchFailure) := by
  have hr := runs_interact_nil batchHost ((hostRun batchTargets).runUpdates Unit).run
  have he : batchExecution.2 = .error batchFailure := by decide +kernel
  rwa [← he]

end Host

theorem restoreAfterFailure_starts_iff {coordinator : BuildCoordinator} {first : Option Bool}
    {result : Except CoordinatorError Unit}
    (hr : Runs (coordinator.restoreAfterFailure first).run tr result) :
    (∃ ev ∈ tr, act coordinator.unit ev.1 = .start) ↔ first = some true := by
  by_cases hf : first = some true
  · subst hf
    obtain ⟨answer, tr', rfl, -⟩ := runs_call_iff.1 hr
    exact ⟨fun _ => rfl, fun _ => ⟨_, List.mem_cons_self, act_start⟩⟩
  · unfold BuildCoordinator.restoreAfterFailure at hr
    rw [if_pos hf] at hr
    obtain ⟨rfl, -⟩ := runs_pure_iff.1 hr
    exact ⟨fun h => absurd h (by simp), fun h => absurd h hf⟩

/-- Before a stop, a build or a flash the printer was found idle; a build or a flash follows an
observation of its own target that Klipper is inactive; a declined target causes nothing; a
restore starts Klipper where it was active at first. -/
theorem stop_discipline (hr : Runs (run.runUpdates J).run tr result) :
    (∀ pre ev post, tr = pre ++ ev :: post → (act run.coordinator.unit ev.1).disrupts = true →
      FoundIdle pre) ∧
    (∀ pre ev post, tr = pre ++ ev :: post →
      act run.coordinator.unit ev.1 = .build ∨ act run.coordinator.unit ev.1 = .flash →
        (ledger run.coordinator.unit pre).attempts ≠ [] ∧
        ∃ x seen y, pre = x ++ seen :: y ∧
          observedState run.coordinator.unit seen = some .inactive ∧
          ∀ e ∈ y, act run.coordinator.unit e.1 ≠ .start ∧ isApproval e.1 = false) ∧
    (∀ pre name current next y ev post,
      tr = pre ++ ⟨.hook (.approve name current next), false⟩ :: y ++ ev :: post →
        (∀ e ∈ y, beginsNext e.1 = false) → act run.coordinator.unit ev.1 = .other) ∧
    (∀ failure restored, result = .error failure → Told failure (some restored) →
      ((∃ ev ∈ tr, act run.coordinator.unit ev.1 = .start) ↔
        firstObserved run.coordinator.unit tr = some .active)) ∧
    ∀ first tr' restored, Runs (run.coordinator.restoreAfterFailure first).run tr' restored →
      ((∃ ev ∈ tr', act run.coordinator.unit ev.1 = .start) ↔ first = some true) := by
  refine ⟨fun pre ev post he hd => (permitted_of_runs hr he).idle hd, ?_, ?_, ?_,
    fun _ _ _ => restoreAfterFailure_starts_iff⟩
  · intro pre ev post he ha
    obtain ⟨hattempts, hinactive⟩ := (permitted_of_runs hr he).inactive ha
    exact ⟨hattempts, exists_observation hinactive⟩
  · intro pre name current next y ev post he hy
    by_contra hact
    have hdeclined := (permitted_of_runs hr he).approved hact
    rw [ledger_declined hy] at hdeclined
    cases hdeclined
  · rintro failure restored rfl htold
    obtain ⟨held, hexit⟩ := exit_of_runs hr
    rw [← ledger_started_iff, ← ledger_first_iff]
    cases hexit with
    | plain hm hh => exact absurd hm htold.ne_detail
    | unrestored hm => exact absurd htold hm.not_both
    | restored result hm hs => exact hs.started_iff

theorem stop_discipline_on_host :
    ((∃ ev ∈ batchExecution.1, act .default ev.1 = .stop) ∧
      (∃ ev ∈ batchExecution.1, act .default ev.1 = .flash) ∧
      ∃ ev ∈ batchExecution.1, isDecline ev = true) ∧
    (∀ pre ev post, batchExecution.1 = pre ++ ev :: post →
      (act .default ev.1).disrupts = true → FoundIdle pre) ∧
    (∀ pre ev post, batchExecution.1 = pre ++ ev :: post →
      act .default ev.1 = .build ∨ act .default ev.1 = .flash →
        (ledger .default pre).attempts ≠ [] ∧
        ∃ x seen y, pre = x ++ seen :: y ∧ observedState .default seen = some .inactive ∧
          ∀ e ∈ y, act .default e.1 ≠ .start ∧ isApproval e.1 = false) ∧
    (∀ pre name current next y ev post,
      batchExecution.1 = pre ++ ⟨.hook (.approve name current next), false⟩ :: y ++ ev :: post →
        (∀ e ∈ y, beginsNext e.1 = false) → act .default ev.1 = .other) ∧
    ((∃ ev ∈ batchExecution.1, act .default ev.1 = .start) ↔
      firstObserved .default batchExecution.1 = some .active) := by
  obtain ⟨hidle, hinactive, hdeclined, hrestored, -⟩ := stop_discipline runs_batchExecution
  exact ⟨by decide +kernel, hidle, hinactive, hdeclined, hrestored batchFailure (.ok ()) rfl rfl⟩

end Aldis.UpdateRun

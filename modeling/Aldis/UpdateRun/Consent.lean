import Aldis.Coordinator.Courses
import Aldis.Lib.Failure
import Aldis.UpdateRun.Accounting

/-!
# What the operator agreed to

A run acts on an MCU only after the operator agreed to exactly this MCU, with the versions that
were shown, and before another is offered; Klipper is queried and started only once any was
agreed to.
-/

namespace Aldis.UpdateRun

open Interaction World Attempt Text

variable {V : Type} [Semver V]

/-- The MCU `name` was offered and agreed to, and no other was offered since. -/
def Agreed (run : UpdateRun V) (name : Str) (past : List Event) : Prop :=
  ∃ mcu x y, run.inventory.find name = some mcu ∧
    Eligibility.downgradeRefusal mcu run.targetVersions = none ∧
      past = x ++ ⟨run.offer mcu name, true⟩ :: y ∧ ∀ ev ∈ y, isApproval ev.1 = false

def Begun (run : UpdateRun V) (past : List Event) : Prop :=
  ∃ name ∈ run.targets, ∃ x, x <+: past ∧ Agreed run name x

def Consented (run : UpdateRun V) (past : List Event) (call : HostCall) : Prop :=
  act run.coordinator.unit call ≠ .other → Begun run past ∧
    (act run.coordinator.unit call ≠ .query → act run.coordinator.unit call ≠ .start →
      ∃ name ∈ run.targets, Agreed run name past)

variable {J : Type} [DictionaryReader J] {run : UpdateRun V} {name : Str} {mcu : Mcu}
  {state : RunState} {past : List Event} {α ε : Type}

section Calls

abbrev Unasking (x : HostAttempt ε α) : Prop :=
  x.Makes (fun call => isApproval call = false) fun _ => True

theorem Hushed.unasking {x : HostAttempt ε α} (h : Hushed x) : Unasking x := by
  refine h.mono (fun call hcall => ?_) fun _ _ => True.intro
  cases call with
  | hook call => cases call <;> first | rfl | cases hcall
  | _ => rfl

theorem HushedProgram.unasking {p : HostProgram α} (h : HushedProgram p) :
    Unasking (ExceptT.lift p : HostAttempt ε α) :=
  Hushed.unasking ((makes_lift p).2 h)

theorem failWithDetail_unasking {detail message : Str} {mcu : Option Str} {updated : List Str} :
    Unasking (failWithDetail detail message mcu updated : HostAttempt RunFailure α) :=
  .bind (makes_hook.2 rfl) fun _ => (makes_throw _).2 True.intro

omit [Semver V] in
theorem concludeFlash_unasking {flashed : Observed FlashCoordinatorError FlashResult} :
    Unasking (run.concludeFlash name mcu state flashed) := by
  obtain ⟨first, error | flash⟩ := flashed
  · refine .bind ((makes_perform _).2 rfl) fun _ => ?_
    rw [makes_ite]
    refine ⟨fun _ => ?_, fun _ => failWithDetail_unasking⟩
    rw [bind_map_left]
    exact .bind restoreAfterFailure_hushed.program.unasking fun _ => failWithDetail_unasking
  · refine .bind (makes_hook.2 rfl) fun _ => .bind (makes_hook.2 rfl) fun _ => ?_
    refine .bind waitForApplication_quiet.hushed.program.unasking fun waited => ?_
    cases waited with
    | error message => exact failWithDetail_unasking
    | ok _ => exact .bind (makes_hook.2 rfl) fun _ => makes_pure _

theorem flashTarget_unasking {pending : PendingBuild} :
    Unasking (run.flashTarget J name mcu pending state) := by
  unfold flashTarget
  split
  · rename_i prepare hprepare
    have hdownloads : Hushed prepare := Downloads.hushed (prepareAutomatic_downloads hprepare)
    refine .bind hdownloads.program.unasking fun prepared => ?_
    cases prepared with
    | ok request =>
        exact .bind flashPrebuilt_hushed.unasking fun _ => concludeFlash_unasking
    | error detail =>
        exact .bind restoreAfterFailure_hushed.program.unasking fun _ => failWithDetail_unasking
  · exact .bind executeAndFlashSystem_hushed.unasking fun _ => concludeFlash_unasking

theorem updateApproved_unasking : Unasking (run.updateApproved J name mcu state) := by
  refine .bind prepare_quiet.hushed.program.unasking fun prepared => ?_
  cases prepared with
  | error error => exact failWithDetail_unasking
  | ok pending =>
      refine .bind ?_ fun state => flashTarget_unasking
      unfold checkPrinter
      rw [makes_ite]
      refine ⟨fun _ => makes_pure _, fun _ => ?_⟩
      refine .bind ensurePrinterIdle_quiet.hushed.program.unasking fun checked => ?_
      cases checked with
      | error message => exact failWithDetail_unasking
      | ok _ => exact makes_pure _

end Calls

section Loop

theorem Begun.append {more : List Event} (h : Begun run past) : Begun run (past ++ more) := by
  obtain ⟨name, hname, x, hx, hagreed⟩ := h
  exact ⟨name, hname, x, hx.trans (List.prefix_append _ _), hagreed⟩

theorem Agreed.append {more : List Event} (h : Agreed run name past)
    (hm : ∀ ev ∈ more, isApproval ev.1 = false) : Agreed run name (past ++ more) := by
  obtain ⟨mcu, x, y, hmcu, hnone, rfl, hy⟩ := h
  exact ⟨mcu, x, y ++ more, hmcu, hnone, by simp, List.forall_mem_append.2 ⟨hy, hm⟩⟩

/-- The world in which every call must have been agreed to. -/
def consent (run : UpdateRun V) : World HostAnswer (List Event) := auditing (Consented run)

theorem fail_consented {message : Str} {mcu : Option Str} {updated : List Str}
    {Q : α → List Event → Prop} : (consent run).EnsuresOr
      (fail message mcu updated : HostAttempt RunFailure α) past Q fun _ _ => True := by
  refine (ensuresOr_bind _ _ _ _ _).2 ?_
  rw [ensuresOr_hook]
  exact ⟨fun h => absurd rfl h, fun _ _ _ => True.intro⟩

theorem updateApproved_consented (hname : name ∈ run.targets) (h : Agreed run name past) :
    (consent run).EnsuresOr (run.updateApproved J name mcu state) past
      (fun _ => Begun run) fun _ _ => True := by
  have hconfined : Unasking (run.updateApproved J name mcu state) := updateApproved_unasking
  refine (Ensures.of_confined_trace hconfined.only (C := Consented run) ?_).mono ?_
  · intro tr call htr hcall _
    have hagreed : Agreed run name (past ++ tr) := h.append htr
    exact ⟨⟨name, hname, _, List.prefix_rfl, hagreed⟩, fun _ _ => ⟨name, hname, hagreed⟩⟩
  · rintro result _ ⟨tr, rfl, -, htr⟩
    cases result with
    | error failure => exact True.intro
    | ok state => exact ⟨name, hname, _, List.prefix_append _ _, h⟩

theorem runTarget_consented (hname : name ∈ run.targets)
    (h : state.updated ≠ [] → Begun run past) :
    (consent run).EnsuresOr (run.runTarget J name state) past
      (fun state' past' => state'.updated ≠ [] → Begun run past') fun _ _ => True := by
  unfold runTarget
  split
  · exact fail_consented
  · rename_i mcu hmcu
    split
    · exact fail_consented
    · rename_i hnone
      rw [ensuresOr_bind, ensuresOr_hook]
      refine ⟨fun hact => absurd rfl hact, ?_⟩
      rintro answer _ rfl
      cases answer with
      | false => exact fun hstate => (h hstate).append
      | true =>
          have hagreed : Agreed run name (past ++ [⟨run.offer mcu name, true⟩]) :=
            ⟨mcu, past, [], hmcu, hnone, rfl, nofun⟩
          exact (updateApproved_consented hname hagreed).mono (fun _ _ hbegun _ => hbegun)
            fun _ _ _ => True.intro

theorem runTargets_consented (targets : List Str) (ht : ∀ name ∈ targets, name ∈ run.targets)
    (h : state.updated ≠ [] → Begun run past) :
    (consent run).EnsuresOr (run.runTargets J targets state) past
      (fun state' past' => state'.updated ≠ [] → Begun run past') fun _ _ => True := by
  induction targets generalizing state past with
  | nil => exact h
  | cons name rest ih =>
      rw [List.forall_mem_cons] at ht
      unfold runTargets
      rw [ensuresOr_bind]
      exact (runTarget_consented ht.1 h).mono (fun _ _ hnext => ih ht.2 hnext) fun _ _ _ =>
        True.intro

/-- A call that no target has to be agreed to for, or that only queries or starts Klipper. -/
def serves (unit : KlipperUnit) (call : HostCall) : Prop :=
  act unit call = .other ∨ act unit call = .query ∨ act unit call = .start

theorem failWithDetail_serves {unit : KlipperUnit} {detail message : Str} {mcu : Option Str}
    {updated : List Str} : Makes (serves unit) (fun _ => True)
      (failWithDetail detail message mcu updated : HostAttempt RunFailure α) :=
  .bind (makes_hook.2 (.inl rfl)) fun _ => (makes_throw _).2 True.intro

theorem finishRun_serves {updated : List Str} :
    Makes (serves run.coordinator.unit) (fun _ => True) (run.finishRun updated) := by
  have hstart : Makes (serves run.coordinator.unit) (fun _ => True)
      run.coordinator.startAfterBatch := by
    refine startAndVerify_calls.mono (fun call hcall => ?_) fun _ _ => True.intro
    rcases hcall with rfl | rfl
    · exact .inr (.inr act_start)
    · exact .inr (.inl act_query)
  unfold finishRun
  rw [makes_ite]
  refine ⟨fun _ => makes_pure _, fun _ => ?_⟩
  refine .bind (makes_hook.2 (.inl rfl)) fun _ => ?_
  refine .bind ((makes_lift _).2 hstart.only) fun started => ?_
  cases started with
  | error error => exact failWithDetail_serves
  | ok _ =>
      refine .bind (makes_hook.2 (.inl rfl)) fun _ => .bind (makes_hook.2 (.inl rfl)) fun _ => ?_
      refine .bind ((makes_lift _).2 (Makes.mono waitForMcus_quiet (fun _ hs =>
        .inl (act_quiet (quiet_of_silent hs))) fun _ _ => True.intro).only) fun waited => ?_
      cases waited with
      | error message => exact failWithDetail_serves
      | ok _ => exact .bind (makes_hook.2 (.inl rfl)) fun _ => makes_pure _

/-- Once a target was agreed to, Klipper may be queried and started. -/
theorem finishRun_consented (h : state.updated ≠ [] → Begun run past) :
    (consent run).Ensures (run.finishRun state.updated).run past fun _ _ => True := by
  by_cases hupdated : state.updated = []
  · unfold finishRun
    rw [if_pos hupdated]
    exact True.intro
  · refine (Ensures.of_confined_trace finishRun_serves.only (C := Consented run) ?_).mono
      fun _ _ _ => True.intro
    intro tr call _ hcall hact
    refine ⟨(h hupdated).append, fun hquery hstart => ?_⟩
    rcases hcall with ho | hq | hs
    · exact absurd ho hact
    · exact absurd hq hquery
    · exact absurd hs hstart

/-- What a run calls was agreed to. -/
theorem consented_of_runs {tr pre post : List Event} {ev : Event}
    {result : Except RunFailure (List Str)} (hr : Runs (run.runUpdates J).run tr result)
    (he : tr = pre ++ ev :: post) : Consented run pre ev.1 := by
  subst he
  have hspec : (consent run).EnsuresOr (run.runUpdates J) [] (fun _ _ => True)
      fun _ _ => True := by
    unfold runUpdates
    rw [ensuresOr_bind]
    refine (runTargets_consented run.targets (fun _ hn => hn) fun hne => absurd rfl hne).mono ?_
      fun _ _ _ => True.intro
    intro state past hpast
    refine (finishRun_consented hpast).mono fun result _ _ => ?_
    cases result with
    | error failure => exact True.intro
    | ok updated => exact True.intro
  exact Ensures.audited_permits hspec hr

end Loop

end Aldis.UpdateRun

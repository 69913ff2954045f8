import Aldis.Agent.Report
import Aldis.UpdateRun.Reporting
import Aldis.Lib.Distinct

/-!
# The accounts of a run

Which targets a run counts as updated, at which target it stopped, and when it announces its
failure. The hooks divide an iteration of the loop: no part of it calls any but the progress.
-/

namespace Aldis.UpdateRun

open Interaction World Attempt Text Octets Distinct

/-- A hook that is no progress. -/
def loud : HostCall → Bool
  | .hook (.progress _ _) => false
  | .hook _ => true
  | _ => false

def announcesFailure : HostCall → Bool
  | .hook (.failed _) => true
  | _ => false

def announcesFlash : HostCall → Bool
  | .hook (.flashed _ _ _) => true
  | _ => false

section Hushed

variable {α β ε ε' : Type} {P : HostCall → Prop} {R : ε → Prop}

/-- An attempt that calls no hook but the progress. -/
abbrev Hushed (x : HostAttempt ε α) : Prop :=
  x.Makes (fun call => loud call = false) fun _ => True

/-- The same for a program that does not fail. -/
abbrev HushedProgram (p : HostProgram α) : Prop :=
  (confined HostAnswer fun call => loud call = false).Ensures p () fun _ _ => True

theorem not_loud_of_silent {call : HostCall} (h : silent call = true) : loud call = false := by
  cases call with
  | hook call => cases call <;> first | rfl | cases h
  | _ => rfl

theorem not_loud_of_act {unit : KlipperUnit} {call : HostCall} (h : act unit call ≠ .other) :
    loud call = false := by
  cases call with
  | hook call => exact absurd rfl h
  | _ => rfl

theorem Also.hushed {x : HostAttempt ε α} (h : Also P R x)
    (hP : ∀ call, P call → act .default call ≠ .other) : Hushed x := by
  refine h.mono (fun call hcall => ?_) fun _ _ => True.intro
  rcases hcall with hs | hp
  · exact not_loud_of_silent hs
  · exact not_loud_of_act (hP call hp)

theorem Quiet.hushed {x : HostAttempt ε α} (h : Quiet x) : Hushed x :=
  h.mono (fun _ => not_loud_of_silent) fun _ _ => True.intro

theorem Downloads.hushed {x : HostAttempt ε α} (h : Downloads .default x) : Hushed x :=
  Also.hushed h fun call hd => by rw [hd]; exact Act.noConfusion

theorem Builds.hushed {x : HostAttempt ε α} (h : Builds .default x) : Hushed x :=
  Also.hushed h fun call hb => by rw [hb]; exact Act.noConfusion

theorem Flashes.hushed {x : HostAttempt ε α} (h : Flashes .default R x) : Hushed x :=
  Also.hushed h fun call hf => by rw [hf]; exact Act.noConfusion

theorem Spares.hushed {x : HostAttempt ε α} (h : Spares .default x) : Hushed x :=
  Also.hushed h fun call hf => by rw [hf.1]; exact Act.noConfusion

theorem Hushed.program {x : HostAttempt ε α} (h : Hushed x) : HushedProgram x.run :=
  Ensures.mono h fun _ _ _ => True.intro

theorem Hushed.adapt {x : HostAttempt ε α} (h : Hushed x) (wrap : ε → ε') :
    Hushed (ExceptT.adapt wrap x) := (makes_adapt _ _).2 h

theorem HushedProgram.bind {p : HostProgram α} {f : α → HostProgram β} (h : HushedProgram p)
    (hf : ∀ a, HushedProgram (f a)) : HushedProgram (p >>= f) :=
  Ensures.bind h fun a _ _ => hf a

theorem HushedProgram.andThen {x : HostProgram (Observed ε α)} {f : α → HostAttempt ε β}
    (h : HushedProgram x) (hf : ∀ a, Hushed (f a)) : HushedProgram (Observed.andThen x f) := by
  refine h.bind fun result => ?_
  obtain ⟨first, error | a⟩ := result
  · exact True.intro
  · exact (hf a).program.bind fun _ => True.intro

theorem HushedProgram.adapt {x : HostProgram (Observed ε α)} (h : HushedProgram x)
    (wrap : ε → ε') : HushedProgram (Observed.adapt wrap x) := h.bind fun _ => True.intro

end Hushed

section Coordinator

variable {coordinator : BuildCoordinator} {sha1 : Bytes → Bytes} {options : SystemFlashOptions}
  {name : Str} {first : Option Bool} {approved : ApprovedBuild} {unit : KlipperUnit}

theorem runSystemctl_hushed {action : Str} : Hushed (KlipperService.runSystemctl unit action) :=
  .bind (makes_run.2 rfl) fun _ => makes_check fun _ => True.intro

theorem state_hushed : Hushed (KlipperService.state unit) :=
  .bind runSystemctl_hushed fun _ => makes_pure _

theorem runStateChange_hushed {action : Str} :
    Hushed (KlipperService.runStateChange unit action) := by
  refine .bind runSystemctl_hushed fun output => ?_
  simp only [makes_ite, makes_pure, makes_throw, implies_true, and_self]

theorem stopObserved_hushed {state : ServiceState} :
    Hushed (coordinator.stopObserved name state) := by
  cases state with
  | active =>
      refine .bind (makes_hook.2 rfl) fun _ => ?_
      refine .bind (runStateChange_hushed.adapt _) fun _ => ?_
      refine .bind (state_hushed.adapt _) fun state => ?_
      cases state <;> exact True.intro
  | _ => exact True.intro

theorem ensureKlipperStopped_hushed :
    HushedProgram (coordinator.ensureKlipperStopped name first) := by
  refine state_hushed.program.bind fun result => ?_
  cases result with
  | error error => exact True.intro
  | ok state => exact stopObserved_hushed.program.bind fun _ => True.intro

theorem startAndVerify_hushed : Hushed coordinator.startAndVerify := by
  refine .bind (runStateChange_hushed.adapt _) fun _ => ?_
  refine .bind (state_hushed.adapt _) fun state => ?_
  cases state <;> exact True.intro

theorem restoreAfterFailure_hushed : Hushed (coordinator.restoreAfterFailure first) := by
  unfold BuildCoordinator.restoreAfterFailure
  simp only [Hushed, makes_ite]
  exact ⟨fun _ => makes_pure _, fun _ => startAndVerify_hushed⟩

theorem flashPreparedSystem_hushed {arch : TargetArch} {prepared : PreparedBuild}
    {firmware : Bytes} :
    Hushed (flashPreparedSystem sha1 options name arch prepared firmware) := by
  unfold flashPreparedSystem
  simp only [Hushed, makes_ite]
  constructor
  · intro _
    refine .bind (makes_hook.2 rfl) fun _ => ?_
    exact (Spares.hushed install_spares).adapt _
  · intro _
    split
    · exact True.intro
    · exact Flashes.hushed flashSerialSystem_flashes
    · exact Flashes.hushed flashCanSystem_flashes

theorem executeAndFlashSystem_hushed :
    HushedProgram (coordinator.executeAndFlashSystem sha1 options name first approved) := by
  have hexecute : HushedProgram (coordinator.executeWithProgress name first approved) :=
    ensureKlipperStopped_hushed.andThen fun _ =>
      (Builds.hushed buildWithProgress_builds).adapt _
  have hbuild : HushedProgram (coordinator.buildForFlash name first approved) := by
    refine (hexecute.adapt _).andThen fun artifact => ?_
    refine .bind (makes_fileCall.2 rfl) fun answer => ?_
    exact .bind (makes_check fun _ => True.intro) fun _ => makes_pure _
  refine hbuild.andThen fun built => ?_
  obtain ⟨prepared, artifact, firmware⟩ := built
  refine .bind (flashPreparedSystem_hushed.adapt _) fun _ => ?_
  exact makes_pure _

variable {V : Type}

theorem flashByProtocol_hushed {prepared : PreparedBuild} {protocol : Protocol V} :
    Hushed (BuildCoordinator.flashByProtocol sha1 options name prepared protocol) := by
  cases protocol with
  | katapult image start links =>
      have husb : ∀ transport route, Hushed (do
          let device ← usbSerialDevice transport route
          flashPrebuiltUsb sha1 options name device image start) := fun transport route =>
        .bind (Spares.hushed usbSerialDevice_spares) fun _ =>
          Flashes.hushed flashPrebuiltUsb_flashes
      change Hushed (flashPrebuiltKatapult sha1 options name prepared image start links)
      unfold flashPrebuiltKatapult
      rcases prepared.transport with _ | device | ⟨interface, uuid⟩
      · cases links <;> exact True.intro
      · cases links with
        | usbOnly => exact husb (.serial device) .katapultUsb
        | usbOrCan => exact husb (.serial device) .katapultUsbOrCan
      · cases links with
        | usbOnly => exact husb (.can interface uuid) .katapultUsb
        | usbOrCan => exact Flashes.hushed flashPrebuiltCan_flashes
  | beaconDfu image =>
      change Hushed (flashBeacon options name prepared image)
      unfold flashBeacon
      split
      · exact True.intro
      · exact .bind (Spares.hushed usbSerialDevice_spares) fun _ =>
          Flashes.hushed flashBeaconUsb_flashes

theorem flashPrebuilt_hushed {request : FlashRequest V} :
    HushedProgram (coordinator.flashPrebuilt sha1 options name first approved request) := by
  simp only [BuildCoordinator.flashPrebuilt]
  split
  · exact True.intro
  · exact (ensureKlipperStopped_hushed.adapt _).andThen fun _ =>
      flashByProtocol_hushed.adapt _

end Coordinator

section Traces

variable {α ε : Type}

/-- The calls of `tr` include no hook but the progress. -/
def Silent (tr : List Event) : Prop := ∀ ev ∈ tr, loud ev.1 = false

theorem Silent.append {tr tr' : List Event} (h : Silent tr) (h' : Silent tr') :
    Silent (tr ++ tr') := List.forall_mem_append.2 ⟨h, h'⟩

theorem HushedProgram.silent {p : HostProgram α} {tr : List Event} {a : α}
    (h : HushedProgram p) (hr : Runs p tr a) : Silent tr := (h.calls hr).1

theorem Hushed.silent {x : HostAttempt ε α} {tr : List Event} {r : Except ε α} (h : Hushed x)
    (hr : Runs x.run tr r) : Silent tr := h.program.silent hr

def Unfailed (tr : List Event) : Prop := ∀ ev ∈ tr, announcesFailure ev.1 = false

theorem Unfailed.append {tr tr' : List Event} (h : Unfailed tr) (h' : Unfailed tr') :
    Unfailed (tr ++ tr') := List.forall_mem_append.2 ⟨h, h'⟩

theorem Unfailed.cons {ev : Event} {tr : List Event} (he : announcesFailure ev.1 = false)
    (h : Unfailed tr) : Unfailed (ev :: tr) := List.forall_mem_cons.2 ⟨he, h⟩

theorem unfailed_nil : Unfailed [] := List.forall_mem_nil _

/-- What is silent calls no hook of a kind that is loud. -/
theorem Silent.not {f : HostCall → Bool} {tr : List Event} (h : Silent tr)
    (hf : ∀ call, f call = true → loud call = true) : ∀ ev ∈ tr, f ev.1 = false := by
  intro ev hev
  rw [Bool.eq_false_iff]
  intro hev'
  have hl := hf ev.1 hev'
  rw [h ev hev] at hl
  cases hl

theorem loud_of_announcesFailure {call : HostCall} (h : announcesFailure call = true) :
    loud call = true := by
  unfold announcesFailure at h
  split at h
  · rfl
  · cases h

theorem loud_of_announcesFlash {call : HostCall} (h : announcesFlash call = true) :
    loud call = true := by
  unfold announcesFlash at h
  split at h
  · rfl
  · cases h

theorem Silent.unfailed {tr : List Event} (h : Silent tr) : Unfailed tr :=
  h.not fun _ => loud_of_announcesFailure

theorem Silent.unflashed {tr : List Event} (h : Silent tr) :
    ∀ ev ∈ tr, announcesFlash ev.1 = false :=
  h.not fun _ => loud_of_announcesFlash

/-- The run ends `tr` by announcing `failure`, which names `mcu` and the targets `updated`. -/
structure Fails (mcu : Option Str) (updated : List Str) (tr : List Event)
    (failure : RunFailure) : Prop where
  announced : ∃ pre, tr = pre ++ [⟨.hook (.failed failure.detail), ()⟩] ∧ Unfailed pre
  mcu : failure.mcu = mcu
  updated : failure.updated = updated

theorem failWithDetail_runs {detail message : Str} {mcu : Option Str} {updated : List Str}
    {tr : List Event} {result : Except RunFailure α}
    (h : Runs (failWithDetail detail message mcu updated : HostAttempt RunFailure α).run tr
      result) : result = .error ⟨message, detail, mcu, updated⟩ ∧
        tr = [⟨.hook (.failed detail), ()⟩] := by
  obtain ⟨answer, tr', rfl, hthrow⟩ := runs_perform_bind_iff.1 h
  obtain ⟨rfl, rfl⟩ := runs_pure_iff.1 hthrow
  exact ⟨rfl, rfl⟩

theorem fails_of_announced {message detail : Str} {mcu : Option Str} {updated : List Str}
    {pre : List Event} (h : Unfailed pre) :
    Fails mcu updated (pre ++ [⟨.hook (.failed detail), ()⟩]) ⟨message, detail, mcu, updated⟩ :=
  ⟨⟨pre, rfl, h⟩, rfl, rfl⟩

end Traces

variable {V : Type} [Semver V] {J : Type} [DictionaryReader J] {run : UpdateRun V} {name : Str}
  {mcu : Mcu} {pending : PendingBuild} {state : RunState}

section Iteration

variable (J run mcu name pending) in
/-- The flash of an approved target returns `flash` after the calls in `tr`: of the image that
was acquired for it, or of the firmware that was built. -/
inductive FlashReturns : List Event → FlashResult → Prop
  | prebuilt {prepare : HostAttempt Str (FlashRequest V)} {request : FlashRequest V}
      {first first' : Option Bool} {pre tr : List Event} {flash : FlashResult}
      (hp : Prebuilt.prepareAutomatic J run.sha256 run.targetVersions pending mcu = some prepare)
      (ha : Runs prepare.run pre (.ok request))
      (hf : Runs (run.coordinator.flashPrebuilt run.sha1 standardFlashOptions name first
        pending.approve request) tr (first', .ok flash)) : FlashReturns (pre ++ tr) flash
  | built {completed : CompletedUpdate} {first first' : Option Bool} {tr : List Event}
      (hp : Prebuilt.prepareAutomatic J run.sha256 run.targetVersions pending mcu = none)
      (hf : Runs (run.coordinator.executeAndFlashSystem run.sha1 standardFlashOptions name first
        pending.approve) tr (first', .ok completed)) : FlashReturns tr completed.flash

theorem FlashReturns.silent {tr : List Event} {flash : FlashResult}
    (h : FlashReturns J run name mcu pending tr flash) : Silent tr := by
  cases h with
  | prebuilt hp ha hf =>
      have hprepare : Hushed _ := Downloads.hushed (prepareAutomatic_downloads hp)
      exact (hprepare.silent ha).append (flashPrebuilt_hushed.silent hf)
  | built hp hf => exact executeAndFlashSystem_hushed.silent hf

theorem checkPrinter_silent {state' : RunState} {tr : List Event}
    (h : Runs (checkPrinter name state).run tr (.ok state')) :
    Silent tr ∧ state'.updated = state.updated := by
  unfold checkPrinter at h
  by_cases hc : state.printerChecked = true
  · rw [if_pos hc] at h
    obtain ⟨rfl, he⟩ := runs_pure_iff.1 h
    cases he
    exact ⟨fun _ hev => absurd hev List.not_mem_nil, rfl⟩
  · rw [if_neg hc] at h
    obtain ⟨result, pre, post, rfl, hidle, hrest⟩ := runs_lift_bind_iff.1 h
    have hpre := ensurePrinterIdle_quiet.hushed.silent hidle
    cases result with
    | error message =>
        obtain ⟨he, -⟩ := failWithDetail_runs hrest
        cases he
    | ok _ =>
        obtain ⟨rfl, he⟩ := runs_pure_iff.1 hrest
        cases he
        exact ⟨by rwa [List.append_nil], rfl⟩

theorem checkPrinter_fails {failure : RunFailure} {tr : List Event}
    (h : Runs (checkPrinter name state).run tr (.error failure)) :
    ∃ pre message seg, tr = pre ++ seg ∧ Silent pre ∧
      Runs (failWithDetail message message (some name) state.updated :
        HostAttempt RunFailure RunState).run seg (.error failure) := by
  unfold checkPrinter at h
  by_cases hc : state.printerChecked = true
  · rw [if_pos hc] at h
    obtain ⟨-, he⟩ := runs_pure_iff.1 h
    cases he
  · rw [if_neg hc] at h
    obtain ⟨result, pre, post, rfl, hidle, hrest⟩ := runs_lift_bind_iff.1 h
    cases result with
    | error message =>
        exact ⟨pre, message, post, rfl, ensurePrinterIdle_quiet.hushed.silent hidle, hrest⟩
    | ok _ =>
        obtain ⟨-, he⟩ := runs_pure_iff.1 hrest
        cases he

variable (J run name) in
/-- In `seg` the target `name` is approved and prepared, its flash returns, and so does the wait
for its application. -/
def Updated (seg : List Event) : Prop :=
  ∃ mcu current next pending state state' flash a b c w rest,
    seg = ⟨.hook (.approve name current next), true⟩ :: (a ++ b ++ c ++
      ⟨.hook (.flashed name mcu.kconfig flash.paddedBytes), ()⟩ ::
      ⟨.hook (.stepStarted .waitForApplication), ()⟩ :: (w ++ rest)) ∧
    run.inventory.find name = some mcu ∧
    Runs (BuildCoordinator.prepare run.inventory run.workspace name run.clean).run a (.ok pending) ∧
    Runs (checkPrinter name state).run b (.ok state') ∧
    FlashReturns J run name mcu pending c flash ∧
    Runs (waitForApplication mcu).run w (.ok ())

/-- Without the hook that announces it, no target was flashed. -/
theorem not_updated_of_unflashed {seg : List Event}
    (h : ∀ ev ∈ seg, announcesFlash ev.1 = false) : ¬ Updated J run name seg := by
  rintro ⟨mcu, current, next, pending, state, state', flash, a, b, c, w, rest, rfl, -⟩
  have hflash := h ⟨.hook (.flashed name mcu.kconfig flash.paddedBytes), ()⟩ (by simp)
  cases hflash

/-- The wait after an announced flash is the one that counts. -/
theorem wait_of_updated {current next kconfig : Str} {padded : ℕ} {pre post : List Event}
    (hf : run.inventory.find name = some mcu) (hpre : Silent pre)
    (h : Updated J run name (⟨.hook (.approve name current next), true⟩ :: (pre ++
      ⟨.hook (.flashed name kconfig padded), ()⟩ ::
      ⟨.hook (.stepStarted .waitForApplication), ()⟩ :: post))) :
    ∃ w, w <+: post ∧ Runs (waitForApplication mcu).run w (.ok ()) := by
  obtain ⟨mcu', current', next', pending, state, state', flash, a, b, c, w, rest, he, hf', ha, hb,
    hc, hw⟩ := h
  obtain rfl := Option.some.inj (hf.symm.trans hf')
  obtain ⟨-, htail⟩ := List.cons.inj he
  have hsilent : Silent (a ++ b ++ c) :=
    ((prepare_quiet.hushed.silent ha).append (checkPrinter_silent hb).1).append hc.silent
  obtain ⟨-, -, hrest⟩ := split_unique hpre.unflashed hsilent.unflashed rfl rfl htail
  obtain ⟨-, rfl⟩ := List.cons.inj hrest
  exact ⟨w, List.prefix_append _ _, hw⟩

/-- What an iteration leaves: the target is counted exactly where it was updated, and a failure
is announced last and names the target. -/
def Visited (J : Type) [DictionaryReader J] (run : UpdateRun V) (name : Str) (state : RunState)
    (seg : List Event) (result : Except RunFailure RunState) : Prop :=
  (∃ state', result = .ok state' ∧ Unfailed seg ∧
    (Updated J run name seg ∧ state'.updated = state.updated ++ [name] ∨
      ¬ Updated J run name seg ∧ state'.updated = state.updated)) ∨
  ∃ failure, result = .error failure ∧ ¬ Updated J run name seg ∧
    Fails (some name) state.updated seg failure

/-- An iteration that fails before a flash is announced. -/
theorem visited_of_fails {pre seg : List Event} {result : Except RunFailure RunState}
    {detail message : Str} {updated : List Str}
    (h : Runs (failWithDetail detail message (some name) updated :
      HostAttempt RunFailure RunState).run seg result)
    (hu : updated = state.updated) (hpre : Unfailed pre)
    (hn : ∀ ev ∈ pre, announcesFlash ev.1 = false) :
    Visited J run name state (pre ++ seg) result := by
  obtain ⟨rfl, rfl⟩ := failWithDetail_runs h
  subst hu
  refine .inr ⟨_, rfl, not_updated_of_unflashed ?_, fails_of_announced hpre⟩
  exact List.forall_mem_append.2 ⟨hn, List.forall_mem_singleton.2 rfl⟩

def offer (run : UpdateRun V) (mcu : Mcu) (name : Str) : HostCall :=
  .hook (.approve name (mcu.version.getD "unknown") (run.targetVersions.labelFor mcu))

variable (run name mcu pending state) in
/-- The calls of an iteration up to its flash, and what it has seen of the printer. -/
structure Approach (state' : RunState) (pre : List Event) : Prop where
  found : run.inventory.find name = some mcu
  eligible : Eligibility.downgradeRefusal mcu run.targetVersions = none
  calls : ∃ a b, pre = ⟨run.offer mcu name, true⟩ :: (a ++ b) ∧
    Runs (BuildCoordinator.prepare run.inventory run.workspace name run.clean).run a (.ok pending) ∧
    Runs (checkPrinter name state).run b (.ok state')

theorem Approach.updated {state' : RunState} {pre : List Event}
    (h : Approach run name mcu pending state state' pre) : state'.updated = state.updated := by
  obtain ⟨a, b, rfl, ha, hb⟩ := h.calls
  exact (checkPrinter_silent hb).2

theorem Approach.silent {state' : RunState} {pre : List Event}
    (h : Approach run name mcu pending state state' pre) :
    ∃ current next tr, pre = ⟨.hook (.approve name current next), true⟩ :: tr ∧ Silent tr := by
  obtain ⟨a, b, rfl, ha, hb⟩ := h.calls
  exact ⟨_, _, a ++ b, rfl,
    (prepare_quiet.hushed.silent ha).append (checkPrinter_silent hb).1⟩

/-- A failure after the target was approved, before a flash is announced. -/
theorem Approach.visited_of_fails {state' : RunState} {pre c seg : List Event}
    {result : Except RunFailure RunState} {detail message : Str}
    (h : Approach run name mcu pending state state' pre) (hs : Silent c)
    (hr : Runs (failWithDetail detail message (some name) state'.updated :
      HostAttempt RunFailure RunState).run seg result) :
    Visited J run name state (pre ++ (c ++ seg)) result := by
  obtain ⟨current, next, tr, rfl, htr⟩ := h.silent
  rw [← List.append_assoc]
  have hsilent := htr.append hs
  apply UpdateRun.visited_of_fails hr h.updated (hsilent.unfailed.cons rfl)
  exact List.forall_mem_cons.2 ⟨rfl, hsilent.unflashed⟩

theorem concludeFlash_visited {state' : RunState} {pre c post : List Event}
    {flashed : Observed FlashCoordinatorError FlashResult} {result : Except RunFailure RunState}
    (h : Approach run name mcu pending state state' pre) (hs : Silent c)
    (hc : ∀ flash, flashed.2 = .ok flash → FlashReturns J run name mcu pending c flash)
    (hr : Runs (run.concludeFlash name mcu state' flashed).run post result) :
    Visited J run name state (pre ++ (c ++ post)) result := by
  obtain ⟨first, error | flash⟩ := flashed
  · obtain ⟨_, post₁, rfl, hr₁⟩ := runs_perform_bind_iff.1 hr
    have hlog : Silent [(⟨.flashFailed error, ()⟩ : Event)] := fun ev hev => by
      obtain rfl := List.mem_singleton.1 hev
      rfl
    by_cases ha : error.allowsKlipperRestore = true
    · simp only [ha, if_true, ← bind_pure_comp, bind_assoc] at hr₁
      obtain ⟨restored, r, post₂, rfl, hrestore, hr₂⟩ := runs_lift_bind_iff.1 hr₁
      have hrestored := restoreAfterFailure_hushed.silent hrestore
      have hfails := h.visited_of_fails (J := J) ((hs.append hlog).append hrestored) hr₂
      simpa only [List.append_assoc, List.nil_append, List.cons_append] using hfails
    · simp only [ha, Bool.false_eq_true, if_false] at hr₁
      have hfails := h.visited_of_fails (J := J) (hs.append hlog) hr₁
      simpa only [List.append_assoc, List.nil_append, List.cons_append] using hfails
  · obtain ⟨_, post₁, rfl, hr₁⟩ := runs_perform_bind_iff.1 hr
    obtain ⟨_, post₂, rfl, hr₂⟩ := runs_perform_bind_iff.1 hr₁
    obtain ⟨answer, w, post₃, rfl, hw, hr₃⟩ := runs_lift_bind_iff.1 hr₂
    have hwait := waitForApplication_quiet.hushed.silent hw
    obtain ⟨current, next, tr, hpre, htr⟩ := h.silent
    have hunfailed : ∀ seg, Unfailed seg → Unfailed (pre ++ (c ++
        ⟨.hook (.flashed name mcu.kconfig flash.paddedBytes), ()⟩ ::
        ⟨.hook (.stepStarted .waitForApplication), ()⟩ :: (w ++ seg))) := by
      intro seg hseg
      rw [hpre]
      refine (htr.unfailed.cons rfl).append (hs.unfailed.append ?_)
      exact .cons rfl (.cons rfl (hwait.unfailed.append hseg))
    cases answer with
    | error message =>
        obtain ⟨rfl, rfl⟩ := failWithDetail_runs hr₃
        refine .inr ⟨_, rfl, ?_, ?_⟩
        · intro hu
          rw [hpre, List.cons_append, ← List.append_assoc] at hu
          obtain ⟨w', hw', hok⟩ := wait_of_updated h.found (htr.append hs) hu
          obtain ⟨-, he⟩ := hw.eq_of_prefixes hok (List.prefix_append w _) hw'
          cases he
        · have hfails : Fails (some name) state'.updated _
              ⟨failureMessage .update message none, message, some name, state'.updated⟩ :=
            fails_of_announced (hunfailed [] unfailed_nil)
          rw [← h.updated]
          simpa only [List.append_assoc, List.cons_append, List.append_nil] using hfails
    | ok _ =>
        obtain ⟨_, post₄, rfl, hr₄⟩ := runs_perform_bind_iff.1 hr₃
        obtain ⟨rfl, rfl⟩ := runs_pure_iff.1 hr₄
        refine .inl ⟨_, rfl, hunfailed _ (.cons rfl unfailed_nil), .inl ⟨?_, ?_⟩⟩
        · obtain ⟨a, b, rfl, ha, hb⟩ := h.calls
          refine ⟨mcu, mcu.version.getD "unknown", run.targetVersions.labelFor mcu, pending, state,
            state', flash, a, b, c, w, [⟨.hook (.stepSucceeded .waitForApplication), ()⟩], ?_,
            h.found, ha, hb, hc flash rfl, hw⟩
          simp only [offer, List.append_assoc, List.cons_append]
        · rw [h.updated]

theorem flashTarget_visited {state' : RunState} {pre post : List Event}
    {result : Except RunFailure RunState} (h : Approach run name mcu pending state state' pre)
    (hr : Runs (run.flashTarget J name mcu pending state').run post result) :
    Visited J run name state (pre ++ post) result := by
  unfold flashTarget at hr
  cases hp : Prebuilt.prepareAutomatic J run.sha256 run.targetVersions pending mcu with
  | some prepare =>
      rw [hp] at hr
      obtain ⟨answer, a, post₁, rfl, ha, hr₁⟩ := runs_lift_bind_iff.1 hr
      have hprepare : Hushed prepare := Downloads.hushed (prepareAutomatic_downloads hp)
      have hacquired := hprepare.silent ha
      cases answer with
      | error detail =>
          obtain ⟨restored, b, post₂, rfl, hb, hr₂⟩ := runs_lift_bind_iff.1 hr₁
          have hrestored := restoreAfterFailure_hushed.silent hb
          have hfails := h.visited_of_fails (J := J) (hacquired.append hrestored) hr₂
          rwa [List.append_assoc] at hfails
      | ok request =>
          obtain ⟨flashed, b, post₂, rfl, hb, hr₂⟩ := runs_lift_bind_iff.1 hr₁
          have hflash := flashPrebuilt_hushed.silent hb
          rw [← List.append_assoc a]
          refine concludeFlash_visited h (hacquired.append hflash) ?_ hr₂
          intro flash hok
          obtain ⟨first', flashed⟩ := flashed
          obtain rfl : flashed = .ok flash := hok
          exact .prebuilt hp ha hb
  | none =>
      rw [hp] at hr
      obtain ⟨⟨first, completed⟩, b, post₁, rfl, hb, hr₁⟩ := runs_lift_bind_iff.1 hr
      refine concludeFlash_visited h (executeAndFlashSystem_hushed.silent hb) ?_ hr₁
      intro flash hok
      cases completed with
      | error error => cases hok
      | ok completed =>
          cases hok
          exact .built hp hb

theorem updateApproved_visited {post : List Event} {result : Except RunFailure RunState}
    (hf : run.inventory.find name = some mcu)
    (hd : Eligibility.downgradeRefusal mcu run.targetVersions = none)
    (hr : Runs (run.updateApproved J name mcu state).run post result) :
    Visited J run name state (⟨run.offer mcu name, true⟩ :: post) result := by
  obtain ⟨prepared, a, post₁, rfl, ha, hr₁⟩ := runs_lift_bind_iff.1 hr
  have hsilent := prepare_quiet.hushed.silent ha
  rw [← List.cons_append]
  cases prepared with
  | error error =>
      exact visited_of_fails hr₁ rfl (hsilent.unfailed.cons rfl)
        (List.forall_mem_cons.2 ⟨rfl, hsilent.unflashed⟩)
  | ok pending =>
      rcases runs_attempt_bind_iff.1 hr₁ with ⟨e, rfl, hcheck⟩ | ⟨state', b, post₂, rfl, hb, hr₂⟩
      · obtain ⟨i, message, seg, rfl, hi, hfail⟩ := checkPrinter_fails hcheck
        rw [← List.append_assoc, List.cons_append]
        have hsilent' := hsilent.append hi
        apply visited_of_fails hfail rfl (hsilent'.unfailed.cons rfl)
        exact List.forall_mem_cons.2 ⟨rfl, hsilent'.unflashed⟩
      · rw [← List.append_assoc]
        exact flashTarget_visited ⟨hf, hd, a, b, rfl, ha, hb⟩ hr₂

theorem runTarget_visited {seg : List Event} {result : Except RunFailure RunState}
    (hr : Runs (run.runTarget J name state).run seg result) :
    Visited J run name state seg result := by
  unfold runTarget at hr
  cases hf : run.inventory.find name with
  | none =>
      rw [hf] at hr
      exact visited_of_fails hr rfl unfailed_nil (List.forall_mem_nil _)
  | some mcu =>
      rw [hf] at hr
      dsimp only at hr
      cases hd : Eligibility.downgradeRefusal mcu run.targetVersions with
      | some refusal =>
          rw [hd] at hr
          exact visited_of_fails hr rfl unfailed_nil
            (List.forall_mem_nil _)
      | none =>
          rw [hd] at hr
          obtain ⟨answer, post, rfl, hr₁⟩ := runs_perform_bind_iff.1 hr
          cases answer with
          | true => exact updateApproved_visited hf hd hr₁
          | false =>
              obtain ⟨rfl, rfl⟩ := runs_pure_iff.1 hr₁
              refine .inl ⟨state, rfl, .cons rfl unfailed_nil, .inr ⟨?_, rfl⟩⟩
              apply not_updated_of_unflashed
              exact List.forall_mem_singleton.2 rfl

end Iteration

section Accounts

variable {updated : List Str} {tr : List Event} {result : Except RunFailure (List Str)}

theorem finishRun_fails (hr : Runs (run.finishRun updated).run tr result) :
    (result = .ok updated ∧ Unfailed tr) ∨
      ∃ failure, result = .error failure ∧ Fails none updated tr failure := by
  unfold finishRun at hr
  by_cases hu : updated = []
  · rw [if_pos hu] at hr
    obtain ⟨rfl, rfl⟩ := runs_pure_iff.1 hr
    exact .inl ⟨rfl, unfailed_nil⟩
  · rw [if_neg hu] at hr
    obtain ⟨_, post, rfl, hr₁⟩ := runs_perform_bind_iff.1 hr
    obtain ⟨started, a, post₁, rfl, ha, hr₂⟩ := runs_lift_bind_iff.1 hr₁
    have hstart := (startAndVerify_hushed.silent ha).unfailed
    cases started with
    | error error =>
        obtain ⟨rfl, rfl⟩ := failWithDetail_runs hr₂
        refine .inr ⟨_, rfl, ?_⟩
        rw [← List.cons_append]
        exact fails_of_announced (hstart.cons rfl)
    | ok _ =>
        obtain ⟨_, post₂, rfl, hr₃⟩ := runs_perform_bind_iff.1 hr₂
        obtain ⟨_, post₃, rfl, hr₄⟩ := runs_perform_bind_iff.1 hr₃
        obtain ⟨waited, b, post₄, rfl, hb, hr₅⟩ := runs_lift_bind_iff.1 hr₄
        have hwait := (waitForMcus_quiet.hushed.silent hb).unfailed
        cases waited with
        | error message =>
            obtain ⟨rfl, rfl⟩ := failWithDetail_runs hr₅
            refine .inr ⟨_, rfl, ?_⟩
            simp only [← List.cons_append, ← List.append_assoc]
            exact fails_of_announced ((hstart.cons rfl).append (.cons rfl (.cons rfl hwait)))
        | ok _ =>
            obtain ⟨_, post₅, rfl, hr₆⟩ := runs_perform_bind_iff.1 hr₅
            obtain ⟨rfl, rfl⟩ := runs_pure_iff.1 hr₆
            refine .inl ⟨rfl, .cons rfl (hstart.append (.cons rfl (.cons rfl ?_)))⟩
            exact hwait.append (.cons rfl unfailed_nil)

variable (J run) in
/-- The completed iterations over `targets`, with the targets that were updated in them. -/
inductive Visits : List Str → List Event → List Str → Prop
  | nil : Visits [] [] []
  | updated {name : Str} {rest : List Str} {seg tr : List Event} {state state' : RunState}
      {updated : List Str} (hr : Runs (run.runTarget J name state).run seg (.ok state'))
      (hu : Updated J run name seg) (h : Visits rest tr updated) :
      Visits (name :: rest) (seg ++ tr) (name :: updated)
  | passed {name : Str} {rest : List Str} {seg tr : List Event} {state state' : RunState}
      {updated : List Str} (hr : Runs (run.runTarget J name state).run seg (.ok state'))
      (hu : ¬ Updated J run name seg) (h : Visits rest tr updated) :
      Visits (name :: rest) (seg ++ tr) updated

theorem Visits.sublist {targets : List Str} (h : Visits J run targets tr updated) :
    updated.Sublist targets := by
  induction h with
  | nil => exact .slnil
  | updated _ _ _ ih => exact ih.cons_cons _
  | passed _ _ _ ih => exact ih.cons _

theorem runTargets_visits {targets : List Str} {state' : RunState}
    (hr : Runs (run.runTargets J targets state).run tr (.ok state')) :
    ∃ updated, Visits J run targets tr updated ∧ state'.updated = state.updated ++ updated ∧
      Unfailed tr := by
  induction targets generalizing state tr with
  | nil =>
      obtain ⟨rfl, he⟩ := runs_pure_iff.1 hr
      cases he
      exact ⟨[], .nil, (List.append_nil _).symm, unfailed_nil⟩
  | cons name rest ih =>
      rcases runs_attempt_bind_iff.1 hr with ⟨e, he, -⟩ | ⟨state₁, seg, tr, rfl, hname, hrest⟩
      · cases he
      · obtain ⟨updated, hvisits, hupdated, htr⟩ := ih hrest
        rcases runTarget_visited hname with ⟨state₂, he, hseg, hcase⟩ | ⟨failure, he, -⟩
        · obtain rfl := Except.ok.inj he
          rcases hcase with ⟨hu, h₁⟩ | ⟨hu, h₁⟩
          · refine ⟨name :: updated, .updated hname hu hvisits, ?_, hseg.append htr⟩
            rw [hupdated, h₁, List.append_assoc, List.singleton_append]
          · refine ⟨updated, .passed hname hu hvisits, ?_, hseg.append htr⟩
            rw [hupdated, h₁]
        · cases he

variable (J run) in
/-- How a run ends: after the whole loop, or at a target that it did not update. -/
inductive Accounted : List Event → Agent.RunResult → Prop
  | completed {pre post : List Event} {result : Agent.RunResult}
      (hv : Visits J run run.targets pre result.updated) (hs : result.stoppedAt = none) :
      Accounted (pre ++ post) result
  | stopped {done rest : List Str} {name : Str} {pre seg : List Event} {state : RunState}
      {result : Agent.RunResult} {failure : RunFailure} (he : result = .error failure)
      (ht : run.targets = done ++ name :: rest)
      (hv : Visits J run done pre result.updated)
      (hr : Runs (run.runTarget J name state).run seg (.error failure))
      (hn : ¬ Updated J run name seg) (hs : result.stoppedAt = some name) :
      Accounted (pre ++ seg) result

theorem accounted_of_runs {result : Agent.RunResult} (hr : Runs (run.runUpdates J).run tr result) :
    Accounted J run tr result ∧ (∀ updated, result = .ok updated → Unfailed tr) ∧
      ∀ failure, result = .error failure →
        ∃ pre, tr = pre ++ [⟨.hook (.failed failure.detail), ()⟩] ∧ Unfailed pre := by
  rcases runs_attempt_bind_iff.1 hr with
    ⟨failure, rfl, hloop⟩ | ⟨state, pre, post, rfl, hloop, hend⟩
  · obtain ⟨done, name, rest, pre, seg, state, ht, rfl, hdone, hfail⟩ := runTargets_error hloop
    obtain ⟨updated, hvisits, hupdated, hpre⟩ := runTargets_visits hdone
    rcases runTarget_visited hfail with ⟨state', he, -⟩ | ⟨failure', he, hn, hfails⟩
    · cases he
    · obtain rfl := Except.error.inj he
      have hu : failure.updated = updated := by
        rw [hfails.updated, hupdated]
        rfl
      obtain ⟨seg', rfl, hseg⟩ := hfails.announced
      refine ⟨.stopped rfl ht ?_ hfail hn hfails.mcu, nofun, ?_⟩
      · change Visits J run done pre failure.updated
        rwa [hu]
      · intro failure' he'
        obtain rfl := Except.error.inj he'
        exact ⟨pre ++ seg', (List.append_assoc ..).symm, hpre.append hseg⟩
  · obtain ⟨updated, hvisits, hupdated, hpre⟩ := runTargets_visits hloop
    have hu : state.updated = updated := hupdated
    rcases finishRun_fails hend with ⟨rfl, hpost⟩ | ⟨failure, rfl, hfails⟩
    · refine ⟨.completed ?_ rfl, fun _ _ => hpre.append hpost, nofun⟩
      change Visits J run run.targets pre state.updated
      rwa [hu]
    · obtain ⟨post', rfl, hpost⟩ := hfails.announced
      refine ⟨.completed ?_ hfails.mcu, nofun, ?_⟩
      · change Visits J run run.targets pre failure.updated
        rwa [hfails.updated, hu]
      · intro failure' he'
        obtain rfl := Except.error.inj he'
        exact ⟨pre ++ post', (List.append_assoc ..).symm, hpre.append hpost⟩

variable {result : Agent.RunResult}

theorem Accounted.updated_sublist (h : Accounted J run tr result) :
    result.updated.Sublist run.targets := by
  cases h with
  | completed hv hs => exact hv.sublist
  | stopped he ht hv hr hn hs =>
      rw [ht]
      exact hv.sublist.trans (List.sublist_append_left _ _)

theorem Accounted.stoppedAt_sublist (h : Accounted J run tr result) :
    result.stoppedAt.toList.Sublist run.targets := by
  cases h with
  | completed hv hs =>
      rw [hs]
      exact List.nil_sublist _
  | stopped he ht hv hr hn hs =>
      rw [hs, ht]
      exact (List.singleton_sublist.2 List.mem_cons_self).trans (List.sublist_append_right _ _)

/-- The target a run stopped at is not among those it updated. -/
theorem Accounted.stoppedAt_not_mem (h : Accounted J run tr result) (hd : run.targets.Nodup)
    {target : Str} (ht : result.stoppedAt = some target) : target ∉ result.updated := by
  cases h with
  | completed hv hs =>
      rw [hs] at ht
      cases ht
  | stopped he htargets hv hr hn hs =>
      rw [hs] at ht
      obtain rfl := Option.some.inj ht
      intro hmem
      rw [htargets, List.nodup_append] at hd
      exact hd.2.2 _ (hv.sublist.subset hmem) _ List.mem_cons_self rfl

/-- A run reports the targets that it updated in their order, and the one that it stopped at; it
announces its failure once, and last. The agent's report has one entry a target, which shows the
targets of that list as updated, and the one the run stopped at as failed. -/
theorem run_accounting (hr : Runs (run.runUpdates J).run tr result) :
    Accounted J run tr result ∧
    (∀ updated, result = .ok updated → Unfailed tr) ∧
    (∀ failure, result = .error failure →
      ∃ pre, tr = pre ++ [⟨.hook (.failed failure.detail), ()⟩] ∧ Unfailed pre) ∧
    (∀ (targets : List Str) (returned : Agent.RunResult),
      List.Forall₂ returned.Reports targets (returned.mcuOutcomes targets)) ∧
    (run.targets.Nodup →
      result.shownAs .updated run.targets = result.updated ∧
        result.shownAs .failed run.targets = result.stoppedAt.toList) := by
  obtain ⟨haccounted, hok, herror⟩ := accounted_of_runs hr
  refine ⟨haccounted, hok, herror, fun targets returned => returned.mcuOutcomes_report targets, ?_⟩
  intro hd
  rw [Agent.RunResult.shownAs_eq, Agent.RunResult.shownAs_eq]
  constructor
  · apply filter_eq_of_sublist haccounted.updated_sublist hd
    intro target _
    rw [decide_eq_true_eq]
    exact (result.mcuOutcome_reports target).updated
  · apply filter_eq_of_sublist haccounted.stoppedAt_sublist hd
    intro target _
    rw [decide_eq_true_eq, (result.mcuOutcome_reports target).failed, Option.mem_toList]
    exact and_iff_left_of_imp (haccounted.stoppedAt_not_mem hd)

theorem run_accounting_on_shell :
    Accounted Unit (hostRun ["mcu host", "mcu shell"]) (hostExecution ["mcu host", "mcu shell"]).1
        (.error shellFailure) ∧
      Agent.RunResult.shownAs (.error shellFailure) .updated ["mcu host", "mcu shell"] =
        ["mcu host"] ∧
      Agent.RunResult.shownAs (.error shellFailure) .failed ["mcu host", "mcu shell"] =
        ["mcu shell"] :=
  ⟨(run_accounting runs_shell).1, (run_accounting runs_shell).2.2.2.2 (by decide)⟩

end Accounts

end Aldis.UpdateRun

import Aldis.UpdateRun.Consent

/-!
# When a run starts Klipper

What stops Klipper, builds or flashes is part of the flash of an approved target. Before Klipper
is started each of these flashes is over: it returned and so did the wait for the application, or
it failed before the MCU was asked to enter a bootloader, with an error that allows a restore.
-/

namespace Aldis.UpdateRun

open Interaction World Attempt Text Octets Distinct

section Calls

variable {unit : KlipperUnit} {tr tr' : List Event}

def Startless (unit : KlipperUnit) (tr : List Event) : Prop :=
  ∀ ev ∈ tr, act unit ev.1 ≠ .start

/-- Nothing is stopped, built or flashed in `tr`. -/
def Workless (unit : KlipperUnit) (tr : List Event) : Prop :=
  ∀ ev ∈ tr, (act unit ev.1).disrupts = false

def Idle (unit : KlipperUnit) (tr : List Event) : Prop := ∀ ev ∈ tr, act unit ev.1 = .other

theorem Startless.append (h : Startless unit tr) (h' : Startless unit tr') :
    Startless unit (tr ++ tr') := List.forall_mem_append.2 ⟨h, h'⟩

theorem Workless.append (h : Workless unit tr) (h' : Workless unit tr') :
    Workless unit (tr ++ tr') := List.forall_mem_append.2 ⟨h, h'⟩

theorem Idle.append (h : Idle unit tr) (h' : Idle unit tr') : Idle unit (tr ++ tr') :=
  List.forall_mem_append.2 ⟨h, h'⟩

theorem Idle.cons {ev : Event} (he : act unit ev.1 = .other) (h : Idle unit tr) :
    Idle unit (ev :: tr) := List.forall_mem_cons.2 ⟨he, h⟩

theorem idle_nil : Idle unit [] := List.forall_mem_nil _

theorem Idle.startless (h : Idle unit tr) : Startless unit tr := by
  intro ev hev
  rw [h ev hev]
  exact Act.noConfusion

theorem Idle.workless (h : Idle unit tr) : Workless unit tr := by
  intro ev hev
  rw [h ev hev]
  rfl

theorem Workless.of_append (h : Workless unit (tr ++ tr')) : Workless unit tr :=
  (List.forall_mem_append.1 h).1

theorem Quiet.idle {α ε : Type} {x : HostAttempt ε α} {result : Except ε α} (h : Quiet x)
    (hr : Runs x.run tr result) : Idle unit tr := fun ev hev =>
  act_quiet (quiet_of_silent ((Ensures.calls h hr).1 ev hev))

theorem failWithDetail_idle {α : Type} {detail message : Str} {mcu : Option Str}
    {updated : List Str} {result : Except RunFailure α}
    (hr : Runs (failWithDetail detail message mcu updated).run tr result) : Idle unit tr := by
  obtain ⟨-, rfl⟩ := failWithDetail_runs hr
  exact .cons rfl idle_nil

theorem startAndVerify_workless {coordinator : BuildCoordinator}
    {result : Except CoordinatorError Unit} (hr : Runs coordinator.startAndVerify.run tr result) :
    Workless coordinator.unit tr := by
  intro ev hev
  rcases (Ensures.calls startAndVerify_calls hr).1 ev hev with he | he
  · rw [he, act_start]
    rfl
  · rw [he, act_query]
    rfl

theorem restoreAfterFailure_workless {coordinator : BuildCoordinator} {first : Option Bool}
    {result : Except CoordinatorError Unit}
    (hr : Runs (coordinator.restoreAfterFailure first).run tr result) :
    Workless coordinator.unit tr := by
  unfold BuildCoordinator.restoreAfterFailure at hr
  by_cases hf : first = some true
  · rw [if_neg (not_not.2 hf)] at hr
    exact startAndVerify_workless hr
  · rw [if_pos hf] at hr
    obtain ⟨rfl, -⟩ := runs_pure_iff.1 hr
    exact idle_nil.workless

theorem finishRun_workless {V : Type} [Semver V] {run : UpdateRun V} {updated : List Str}
    {result : Except RunFailure (List Str)}
    (hr : Runs (run.finishRun updated).run tr result) : Workless run.coordinator.unit tr := by
  unfold finishRun at hr
  by_cases hu : updated = []
  · rw [if_pos hu] at hr
    obtain ⟨rfl, -⟩ := runs_pure_iff.1 hr
    exact idle_nil.workless
  · rw [if_neg hu] at hr
    obtain ⟨_, post, rfl, hr₁⟩ := runs_perform_bind_iff.1 hr
    obtain ⟨started, a, post₁, rfl, ha, hr₂⟩ := runs_lift_bind_iff.1 hr₁
    refine List.forall_mem_cons.2 ⟨rfl, (startAndVerify_workless ha).append ?_⟩
    cases started with
    | error error => exact (failWithDetail_idle hr₂).workless
    | ok _ =>
        obtain ⟨_, post₂, rfl, hr₃⟩ := runs_perform_bind_iff.1 hr₂
        obtain ⟨_, post₃, rfl, hr₄⟩ := runs_perform_bind_iff.1 hr₃
        obtain ⟨waited, b, post₄, rfl, hb, hr₅⟩ := runs_lift_bind_iff.1 hr₄
        refine Idle.workless (.cons rfl (.cons rfl ((waitForMcus_quiet.idle hb).append ?_)))
        cases waited with
        | error message => exact failWithDetail_idle hr₅
        | ok _ =>
            obtain ⟨_, post₅, rfl, hr₆⟩ := runs_perform_bind_iff.1 hr₅
            obtain ⟨rfl, -⟩ := runs_pure_iff.1 hr₆
            exact .cons rfl idle_nil

end Calls

section Cautious

variable {α β ε ε' : Type} {unit : KlipperUnit} {P : HostCall → Prop} {R : ε → Prop}

/-- A call that neither starts Klipper nor asks an MCU to enter its bootloader. -/
def Gentle (unit : KlipperUnit) (call : HostCall) : Prop :=
  act unit call ≠ .start ∧ entersBootloader call = false

theorem gentle_of_silent {call : HostCall} (h : silent call = true) : Gentle unit call := by
  cases call with
  | _ => first | exact ⟨Act.noConfusion, rfl⟩ | cases h

theorem entersBootloader_build {call : HostCall} (h : act unit call = .build) :
    entersBootloader call = false := by
  cases call <;> first | rfl | cases h

theorem gentle_build {call : HostCall} (h : act unit call = .build) : Gentle unit call :=
  ⟨by rw [h]; exact Act.noConfusion, entersBootloader_build h⟩

theorem Also.gentle {x : HostAttempt ε α} (h : Also P R x)
    (hP : ∀ call, P call → Gentle unit call) : x.Makes (Gentle unit) fun _ => True :=
  h.mono (fun call hc => hc.elim gentle_of_silent (hP call)) fun _ _ => True.intro

/-- An attempt that does not start Klipper, and fails within `R` once it has asked an MCU to
enter its bootloader. -/
structure Cautious (unit : KlipperUnit) (R : ε → Prop) (x : HostAttempt ε α) : Prop where
  startless : x.Makes (fun call => act unit call ≠ .start) fun _ => True
  fails : FailsWithin (fun call => entersBootloader call = false) R x

theorem Cautious.of_gentle {x : HostAttempt ε α} (h : x.Makes (Gentle unit) fun _ => True) :
    Cautious unit R x :=
  ⟨h.mono (fun _ hc => hc.1) fun _ hr => hr,
    (h.mono (fun _ hc => hc.2) fun _ hr => hr).failsWithin⟩

theorem Cautious.of_flashes {x : HostAttempt ε α} (h : Flashes unit R x) : Cautious unit R x := by
  refine ⟨h.mono (fun call hc => ?_) fun _ _ => True.intro,
    (h.mono (fun _ _ => True.intro) fun _ hr => hr : x.Makes (fun _ => True) R).failsWithin_errors⟩
  rcases hc with hs | hf
  · exact (gentle_of_silent hs).1
  · rw [hf]
    exact Act.noConfusion

theorem Spares.gentle {x : HostAttempt ε α} (h : Spares unit x) :
    x.Makes (Gentle unit) fun _ => True :=
  Also.gentle h fun _ hf => ⟨by rw [hf.1]; exact Act.noConfusion, hf.2⟩

theorem Cautious.bind {x : HostAttempt ε α} {f : α → HostAttempt ε β}
    (hx : x.Makes (Gentle unit) fun _ => True) (hf : ∀ a, Cautious unit R (f a)) :
    Cautious unit R (x >>= f) :=
  ⟨.bind (hx.mono (fun _ hc => hc.1) fun _ hr => hr) fun a => (hf a).startless,
    .bind (hx.mono (fun _ hc => hc.2) fun _ hr => hr) fun a => (hf a).fails⟩

theorem Cautious.adapt {x : HostAttempt ε α} {R : ε' → Prop} {wrap : ε → ε'}
    (h : Cautious unit (fun e => R (wrap e)) x) : Cautious unit R (ExceptT.adapt wrap x) :=
  ⟨(makes_adapt _ _).2 h.startless, h.fails.adapt⟩

/-- The same for an operation of the coordinator, whatever it has observed of Klipper. -/
def CautiousFlash (unit : KlipperUnit) (p : HostProgram (Observed FlashCoordinatorError α)) :
    Prop :=
  ∀ tr first result, Runs p tr (first, result) → Startless unit tr ∧
    ∀ error, result = .error error → error.allowsKlipperRestore = true →
      ∀ ev ∈ tr, entersBootloader ev.1 = false

theorem cautious_andThen {x : HostProgram (Observed FlashCoordinatorError α)}
    {f : α → HostAttempt FlashCoordinatorError β}
    (hx : (confined HostAnswer (Gentle unit)).Ensures x () fun _ _ => True)
    (hf : ∀ a, Cautious unit (fun error => error.allowsKlipperRestore = false) (f a)) :
    CautiousFlash unit (Observed.andThen x f) := by
  intro tr first result hr
  obtain ⟨pre, ⟨seen, error | a⟩, post, rfl, hrx, hrf⟩ := runs_bind_iff.1 hr
  · obtain ⟨rfl, he⟩ := runs_pure_iff.1 hrf
    have hpre := (hx.calls hrx).1
    rw [List.append_nil]
    exact ⟨fun ev hev => (hpre ev hev).1, fun _ _ _ ev hev => (hpre ev hev).2⟩
  · have hpre := (hx.calls hrx).1
    obtain ⟨post₁, outcome, post₂, rfl, hpost, hend⟩ := runs_bind_iff.1 hrf
    obtain ⟨rfl, he⟩ := runs_pure_iff.1 hend
    obtain ⟨rfl, rfl⟩ := Prod.mk.inj he
    rw [List.append_nil]
    refine ⟨List.forall_mem_append.2 ⟨fun ev hev => (hpre ev hev).1,
      (Ensures.calls (hf a).startless hpost).1⟩, ?_⟩
    rintro error rfl hallows
    refine List.forall_mem_append.2 ⟨fun ev hev => (hpre ev hev).2, ?_⟩
    rcases (hf a).fails post₁ error hpost with hfalse | hall
    · rw [hfalse] at hallows
      cases hallows
    · exact hall

end Cautious

section Coordinator

variable {coordinator : BuildCoordinator} {sha1 : Bytes → Bytes} {options : SystemFlashOptions}
  {name : Str} {first : Option Bool} {approved : ApprovedBuild} {unit : KlipperUnit}

/-- A program of calls that neither start Klipper nor ask for a bootloader. -/
abbrev GentleProgram {α : Type} (unit : KlipperUnit) (p : HostProgram α) : Prop :=
  (confined HostAnswer (Gentle unit)).Ensures p () fun _ _ => True

theorem GentleProgram.andThen {α β ε : Type} {x : HostProgram (Observed ε α)}
    {f : α → HostAttempt ε β} (h : GentleProgram unit x)
    (hf : ∀ a, (f a).Makes (Gentle unit) fun _ => True) :
    GentleProgram unit (Observed.andThen x f) := by
  refine Ensures.bind h fun result _ _ => ?_
  obtain ⟨first, error | a⟩ := result
  · exact True.intro
  · exact Ensures.bind (Makes.only (hf a)) fun _ _ _ => True.intro

theorem GentleProgram.adapt {α ε ε' : Type} {x : HostProgram (Observed ε α)}
    (h : GentleProgram unit x) (wrap : ε → ε') : GentleProgram unit (Observed.adapt wrap x) :=
  Ensures.bind h fun _ _ _ => True.intro

theorem runSystemctl_gentle {action : Str} (h : act unit (.run .service (systemctl action unit)) ≠
    .start) : (KlipperService.runSystemctl unit action).Makes (Gentle unit) fun _ => True :=
  .bind (makes_run.2 ⟨h, rfl⟩) fun _ => makes_check fun _ => True.intro

theorem state_gentle : (KlipperService.state unit).Makes (Gentle unit) fun _ => True :=
  .bind (runSystemctl_gentle (by rw [act_query]; exact Act.noConfusion)) fun _ => makes_pure _

theorem stopObserved_gentle {state : ServiceState} :
    (coordinator.stopObserved name state).Makes (Gentle coordinator.unit) fun _ => True := by
  cases state with
  | active =>
      refine .bind (makes_hook.2 (gentle_of_silent rfl)) fun _ => ?_
      refine .bind ((makes_adapt _ _).2 (.bind (runSystemctl_gentle ?_) fun output => ?_))
        fun _ => ?_
      · rw [act_stop]
        exact Act.noConfusion
      · simp only [makes_ite, makes_pure, makes_throw, implies_true, and_self]
      · refine .bind ((makes_adapt _ _).2 state_gentle) fun state => ?_
        cases state <;> exact True.intro
  | _ => exact True.intro

theorem ensureKlipperStopped_gentle :
    GentleProgram coordinator.unit (coordinator.ensureKlipperStopped name first) := by
  refine Ensures.bind (Makes.only state_gentle) fun result _ _ => ?_
  cases result with
  | error error => exact True.intro
  | ok state => exact Ensures.bind (Makes.only stopObserved_gentle) fun _ _ _ => True.intro

theorem buildForFlash_gentle :
    GentleProgram coordinator.unit (coordinator.buildForFlash name first approved) := by
  have hexecute : GentleProgram coordinator.unit
      (coordinator.executeWithProgress name first approved) :=
    ensureKlipperStopped_gentle.andThen fun _ => (makes_adapt _ _).2
      (Also.gentle buildWithProgress_builds fun _ hb => gentle_build hb)
  refine (hexecute.adapt _).andThen fun artifact => ?_
  refine .bind (makes_fileCall.2 (gentle_of_silent rfl)) fun answer => ?_
  exact .bind (makes_check fun _ => True.intro) fun _ => makes_pure _

theorem flashPreparedSystem_cautious {arch : TargetArch} {prepared : PreparedBuild}
    {firmware : Bytes} : Cautious unit Unrestorable
      (flashPreparedSystem sha1 options name arch prepared firmware) := by
  unfold flashPreparedSystem
  by_cases hlinux : isLinuxHost prepared.request.kconfig = true
  · simp only [hlinux, if_true]
    exact .bind (makes_hook.2 (gentle_of_silent rfl)) fun _ =>
      .adapt (.of_gentle (Spares.gentle install_spares))
  · simp only [hlinux, Bool.false_eq_true, if_false]
    rcases prepared.transport with _ | device | ⟨interface, uuid⟩
    · exact .of_gentle True.intro
    · exact .of_flashes flashSerialSystem_flashes
    · exact .of_flashes flashCanSystem_flashes

theorem executeAndFlashSystem_cautious : CautiousFlash coordinator.unit
    (coordinator.executeAndFlashSystem sha1 options name first approved) := by
  refine cautious_andThen buildForFlash_gentle fun built => ?_
  obtain ⟨prepared, artifact, firmware⟩ := built
  have hflashed : Cautious coordinator.unit (fun error : FlashCoordinatorError =>
      error.allowsKlipperRestore = false) (ExceptT.adapt .flash
        (flashPreparedSystem sha1 options name coordinator.arch prepared firmware)) :=
    .adapt flashPreparedSystem_cautious
  refine ⟨.bind hflashed.startless fun _ => makes_pure _, ?_⟩
  rintro tr error hr
  rcases runs_attempt_bind_iff.1 hr with ⟨e, he, hflash⟩ | ⟨flash, pre, post, rfl, -, hpure⟩
  · obtain rfl := Except.error.inj he
    exact hflashed.fails tr _ hflash
  · obtain ⟨-, he⟩ := runs_pure_iff.1 hpure
    cases he

variable {V : Type}

theorem flashByProtocol_cautious {prepared : PreparedBuild} {protocol : Protocol V} :
    Cautious unit Unrestorable
      (BuildCoordinator.flashByProtocol sha1 options name prepared protocol) := by
  have hlink : ∀ {transport route} {f : Path → HostAttempt SystemFlashError FlashResult},
      (∀ device, Flashes unit Unrestorable (f device)) →
        Cautious unit Unrestorable (usbSerialDevice transport route >>= f) := by
    intro transport route f hf
    exact .bind (Spares.gentle usbSerialDevice_spares) fun device => .of_flashes (hf device)
  cases protocol with
  | katapult image start links =>
      change Cautious unit Unrestorable
        (flashPrebuiltKatapult sha1 options name prepared image start links)
      unfold flashPrebuiltKatapult
      rcases prepared.transport with _ | device | ⟨interface, uuid⟩
      · cases links <;> exact .of_gentle True.intro
      · cases links with
        | usbOnly => exact hlink fun _ => flashPrebuiltUsb_flashes
        | usbOrCan => exact hlink fun _ => flashPrebuiltUsb_flashes
      · cases links with
        | usbOnly => exact hlink fun _ => flashPrebuiltUsb_flashes
        | usbOrCan => exact .of_flashes flashPrebuiltCan_flashes
  | beaconDfu image =>
      change Cautious unit Unrestorable (flashBeacon options name prepared image)
      unfold flashBeacon
      cases prepared.transport with
      | none => exact .of_gentle True.intro
      | some transport => exact hlink fun _ => flashBeaconUsb_flashes

theorem flashPrebuilt_cautious {request : FlashRequest V} : CautiousFlash coordinator.unit
    (coordinator.flashPrebuilt sha1 options name first approved request) := by
  simp only [BuildCoordinator.flashPrebuilt]
  split
  · intro tr first' result hr
    obtain ⟨rfl, -⟩ := runs_pure_iff.1 hr
    exact ⟨idle_nil.startless, fun _ _ _ => List.forall_mem_nil _⟩
  · have hstop : GentleProgram coordinator.unit (Observed.adapt FlashCoordinatorError.coordinator
        (coordinator.ensureKlipperStopped name first)) :=
      GentleProgram.adapt ensureKlipperStopped_gentle _
    exact cautious_andThen hstop fun _ => .adapt flashByProtocol_cautious

end Coordinator

variable {V : Type} [Semver V] {J : Type} [DictionaryReader J] {run : UpdateRun V} {name : Str}
  {mcu : Mcu} {pending : PendingBuild} {state : RunState} {tr tr' : List Event}

section Settles

variable (J run mcu name pending) in
/-- The flash of an approved target fails with `error` after the calls in `tr`: of the image that
was acquired for it, or of the firmware that was to be built. -/
inductive FlashFails : List Event → FlashCoordinatorError → Prop
  | prebuilt {prepare : HostAttempt Str (FlashRequest V)} {request : FlashRequest V}
      {first first' : Option Bool} {pre tr : List Event} {error : FlashCoordinatorError}
      (hp : Prebuilt.prepareAutomatic J run.sha256 run.targetVersions pending mcu = some prepare)
      (ha : Runs prepare.run pre (.ok request))
      (hf : Runs (run.coordinator.flashPrebuilt run.sha1 standardFlashOptions name first
        pending.approve request) tr (first', .error error)) : FlashFails (pre ++ tr) error
  | built {first first' : Option Bool} {tr : List Event} {error : FlashCoordinatorError}
      (hp : Prebuilt.prepareAutomatic J run.sha256 run.targetVersions pending mcu = none)
      (hf : Runs (run.coordinator.executeAndFlashSystem run.sha1 standardFlashOptions name first
        pending.approve) tr (first', .error error)) : FlashFails tr error

theorem downloads_gentle {prepare : HostAttempt Str (FlashRequest V)}
    {result : Except Str (FlashRequest V)}
    (hp : Prebuilt.prepareAutomatic J run.sha256 run.targetVersions pending mcu = some prepare)
    (hr : Runs prepare.run tr result) : ∀ ev ∈ tr, Gentle run.coordinator.unit ev.1 ∧
      (act run.coordinator.unit ev.1).disrupts = false := by
  have hdownloads : Downloads run.coordinator.unit prepare := prepareAutomatic_downloads hp
  intro ev hev
  rcases (Ensures.calls hdownloads hr).1 ev hev with hs | hd
  · refine ⟨gentle_of_silent hs, ?_⟩
    rw [act_quiet (quiet_of_silent hs)]
    rfl
  · obtain ⟨call, answer⟩ := ev
    refine ⟨⟨by rw [hd]; exact Act.noConfusion, ?_⟩, by rw [hd]; rfl⟩
    cases call with
    | flash call => cases hd
    | _ => rfl

theorem FlashReturns.startless {flash : FlashResult}
    (h : FlashReturns J run name mcu pending tr flash) : Startless run.coordinator.unit tr := by
  cases h with
  | prebuilt hp ha hf =>
      exact Startless.append (fun ev hev => (downloads_gentle hp ha ev hev).1.1)
        (flashPrebuilt_cautious _ _ _ hf).1
  | built hp hf => exact (executeAndFlashSystem_cautious _ _ _ hf).1

theorem FlashFails.startless {error : FlashCoordinatorError}
    (h : FlashFails J run name mcu pending tr error) : Startless run.coordinator.unit tr := by
  cases h with
  | prebuilt hp ha hf =>
      exact Startless.append (fun ev hev => (downloads_gentle hp ha ev hev).1.1)
        (flashPrebuilt_cautious _ _ _ hf).1
  | built hp hf => exact (executeAndFlashSystem_cautious _ _ _ hf).1

/-- An error that allows a restore comes of a flash that asked for no bootloader. -/
theorem FlashFails.unrequested {error : FlashCoordinatorError}
    (h : FlashFails J run name mcu pending tr error) (ha : error.allowsKlipperRestore = true) :
    ∀ ev ∈ tr, entersBootloader ev.1 = false := by
  cases h with
  | prebuilt hp hr hf =>
      exact List.forall_mem_append.2 ⟨fun ev hev => (downloads_gentle hp hr ev hev).1.2,
        (flashPrebuilt_cautious _ _ _ hf).2 _ rfl ha⟩
  | built hp hf => exact (executeAndFlashSystem_cautious _ _ _ hf).2 _ rfl ha

variable (J run name) in
/-- The call `ev` is part of the flash of the target `name`, which was approved and prepared. -/
def FlashOf (x : List Event) (ev : Event) (y : List Event) : Prop :=
  ∃ mcu pending state state' before approach c c' after,
    x = before ++ (approach ++ c) ∧ y = c' ++ after ∧
      Approach run name mcu pending state state' approach ∧
        ((∃ flash, FlashReturns J run name mcu pending (c ++ ev :: c') flash) ∨
          ∃ error, FlashFails J run name mcu pending (c ++ ev :: c') error)

theorem FlashOf.extend {x y : List Event} {ev : Event} (h : FlashOf J run name x ev y)
    (before after : List Event) : FlashOf J run name (before ++ x) ev (y ++ after) := by
  obtain ⟨mcu, pending, state, state', x', approach, c, c', y', rfl, rfl, ha, hc⟩ := h
  exact ⟨mcu, pending, state, state', before ++ x', approach, c, c', y' ++ after,
    (List.append_assoc ..).symm, List.append_assoc .., ha, hc⟩

theorem unasked_of_silent (h : Silent tr) : ∀ ev ∈ tr, isApproval ev.1 = false := by
  intro ev hev
  have hs := h ev hev
  obtain ⟨call, answer⟩ := ev
  cases call with
  | hook call => cases call <;> first | rfl | cases hs
  | _ => rfl

theorem FlashFails.silent {error : FlashCoordinatorError}
    (h : FlashFails J run name mcu pending tr error) : Silent tr := by
  cases h with
  | prebuilt hp ha hf =>
      have hprepare : Hushed _ := Downloads.hushed (prepareAutomatic_downloads hp)
      exact (hprepare.silent ha).append (flashPrebuilt_hushed.silent hf)
  | built hp hf => exact executeAndFlashSystem_hushed.silent hf

/-- The MCU that is flashed is the last that was agreed to. -/
theorem FlashOf.agreed {x y : List Event} {ev : Event} (h : FlashOf J run name x ev y) :
    Agreed run name x := by
  obtain ⟨mcu, pending, state, state', before, approach, c, c', after, rfl, -, happroach, hc⟩ := h
  have hflash : Silent (c ++ ev :: c') := by
    rcases hc with ⟨flash, hreturns⟩ | ⟨error, hfails⟩
    · exact hreturns.silent
    · exact hfails.silent
  obtain ⟨a, b, rfl, ha, hb⟩ := happroach.calls
  refine ⟨mcu, before, a ++ b ++ c, happroach.found, happroach.eligible, rfl, ?_⟩
  have hprepared : Silent (a ++ b) :=
    (prepare_quiet.hushed.silent ha).append (checkPrinter_silent hb).1
  exact unasked_of_silent (hprepared.append (List.forall_mem_append.1 hflash).1)

variable (J run) in
/-- Whatever is stopped, built or flashed in `tr` is so in the flash of a target. -/
def Within (tr : List Event) : Prop :=
  ∀ x ev y, tr = x ++ ev :: y → (act run.coordinator.unit ev.1).disrupts = true →
    ∃ name ∈ run.targets, FlashOf J run name x ev y

variable (J run) in
/-- The call `ev` is part of the flash of an approved target, and that flash is over: it returned,
and so did the wait for the application; or it failed with an error that allows a restore, and the
MCU was not asked to enter a bootloader. -/
inductive Settles : List Event → Event → List Event → Prop
  | finished {name : Str} {mcu : Mcu} {pending : PendingBuild} {state state' : RunState}
      {flash : FlashResult} {ev : Event} {x approach c c' w rest : List Event}
      (ha : Approach run name mcu pending state state' approach)
      (hc : FlashReturns J run name mcu pending (c ++ ev :: c') flash)
      (hw : Runs (waitForApplication mcu).run w (.ok ())) :
      Settles (x ++ (approach ++ c)) ev (c' ++
        (⟨.hook (.flashed name mcu.kconfig flash.paddedBytes), ()⟩ ::
          ⟨.hook (.stepStarted .waitForApplication), ()⟩ :: w ++ rest))
  | spared {name : Str} {mcu : Mcu} {pending : PendingBuild} {state state' : RunState}
      {error : FlashCoordinatorError} {ev : Event} {x approach c c' rest : List Event}
      (ha : Approach run name mcu pending state state' approach)
      (hc : FlashFails J run name mcu pending (c ++ ev :: c') error)
      (hr : error.allowsKlipperRestore = true)
      (hn : ∀ e ∈ c ++ ev :: c', entersBootloader e.1 = false) :
      Settles (x ++ (approach ++ c)) ev (c' ++ rest)

theorem Settles.extend {x y : List Event} {ev : Event} (h : Settles J run x ev y)
    (before after : List Event) : Settles J run (before ++ x) ev (y ++ after) := by
  cases h with
  | finished ha hc hw =>
      rw [← List.append_assoc, List.append_assoc _ _ after, List.append_assoc _ _ after]
      exact .finished ha hc hw
  | spared ha hc hr hn =>
      rw [← List.append_assoc, List.append_assoc _ _ after]
      exact .spared ha hc hr hn

variable (J run) in
/-- Whatever is stopped, built or flashed in `tr` is settled within `tr`. -/
def Settled (tr : List Event) : Prop :=
  ∀ x ev y, tr = x ++ ev :: y → (act run.coordinator.unit ev.1).disrupts = true →
    Settles J run x ev y

variable (J run) in
def StartsSettled (tr : List Event) : Prop :=
  ∀ pre ev post, tr = pre ++ ev :: post → act run.coordinator.unit ev.1 = .start →
    Settled J run pre

/-- An item of two lists one after the other is an item of one of them. -/
theorem append_eq_split {α : Type} {a b x y : List α} {item : α} (h : a ++ b = x ++ item :: y) :
    (∃ z, a = x ++ item :: z ∧ y = z ++ b) ∨ ∃ z, x = a ++ z ∧ b = z ++ item :: y := by
  rcases List.append_eq_append_iff.1 h with ⟨z, rfl, rfl⟩ | ⟨z, rfl, hz⟩
  · exact .inr ⟨z, rfl, rfl⟩
  · cases z with
    | nil => exact .inr ⟨[], by simp, hz.symm⟩
    | cons first rest =>
        obtain ⟨rfl, rfl⟩ := List.cons.inj hz
        exact .inl ⟨rest, rfl, rfl⟩

theorem Workless.not_disrupts {unit : KlipperUnit} {ev : Event} {P : Prop} (h : Workless unit tr)
    (he : ev ∈ tr) (hd : (act unit ev.1).disrupts = true) : P := by
  rw [h ev he] at hd
  cases hd

theorem Workless.within (h : Workless run.coordinator.unit tr) : Within J run tr := by
  rintro x ev y rfl hd
  exact h.not_disrupts (by simp) hd

theorem Within.append (h : Within J run tr) (h' : Within J run tr') :
    Within J run (tr ++ tr') := by
  intro x ev y he hd
  rcases append_eq_split he with ⟨z, hz, rfl⟩ | ⟨z, rfl, hz⟩
  · obtain ⟨name, hname, hflash⟩ := h x ev z hz hd
    exact ⟨name, hname, hflash.extend [] tr'⟩
  · obtain ⟨name, hname, hflash⟩ := h' z ev y hz hd
    have hextended := hflash.extend tr []
    rw [List.append_nil] at hextended
    exact ⟨name, hname, hextended⟩

theorem Workless.settled (h : Workless run.coordinator.unit tr) : Settled J run tr := by
  rintro x ev y rfl hd
  exact h.not_disrupts (by simp) hd

theorem Settled.append (h : Settled J run tr) (h' : Settled J run tr') :
    Settled J run (tr ++ tr') := by
  intro x ev y he hw
  rcases append_eq_split he with ⟨z, hz, rfl⟩ | ⟨z, rfl, hz⟩
  · exact (h x ev z hz hw).extend [] tr'
  · have hsettles := (h' z ev y hz hw).extend tr []
    rwa [List.append_nil] at hsettles

/-- Klipper is started only in the second part, and what comes before is settled. -/
theorem startsSettled_append (h : Startless run.coordinator.unit tr)
    (h' : ∀ pre, pre <+: tr' → Settled J run (tr ++ pre)) : StartsSettled J run (tr ++ tr') := by
  intro pre ev post he hs
  rcases append_eq_split he with ⟨z, rfl, rfl⟩ | ⟨z, rfl, rfl⟩
  · exact absurd hs (h ev (by simp))
  · exact h' z (List.prefix_append _ _)

theorem Startless.startsSettled (h : Startless run.coordinator.unit tr) :
    StartsSettled J run tr := by
  rintro pre ev post rfl hs
  exact absurd hs (h ev (by simp))

theorem Workless.startsSettled (h : Workless run.coordinator.unit tr) :
    StartsSettled J run tr := by
  rintro pre ev post rfl hs
  exact h.of_append.settled

theorem StartsSettled.append (h : StartsSettled J run tr) (hs : Settled J run tr)
    (h' : StartsSettled J run tr') : StartsSettled J run (tr ++ tr') := by
  intro pre ev post he hstart
  rcases append_eq_split he with ⟨z, rfl, rfl⟩ | ⟨z, rfl, hz⟩
  · exact h pre ev z rfl hstart
  · exact hs.append (h' z ev post hz hstart)

end Settles

section Iteration

variable {state' : RunState} {approach c post : List Event} {result : Except RunFailure RunState}

theorem checkPrinter_idle {unit : KlipperUnit}
    (hr : Runs (checkPrinter name state).run tr result) : Idle unit tr := by
  unfold checkPrinter at hr
  by_cases hc : state.printerChecked = true
  · rw [if_pos hc] at hr
    obtain ⟨rfl, -⟩ := runs_pure_iff.1 hr
    exact idle_nil
  · rw [if_neg hc] at hr
    obtain ⟨checked, pre, post, rfl, hidle, hrest⟩ := runs_lift_bind_iff.1 hr
    refine (ensurePrinterIdle_quiet.idle hidle).append ?_
    cases checked with
    | error message => exact failWithDetail_idle hrest
    | ok _ =>
        obtain ⟨rfl, -⟩ := runs_pure_iff.1 hrest
        exact idle_nil

theorem Approach.idle {unit : KlipperUnit}
    (h : Approach run name mcu pending state state' approach) : Idle unit approach := by
  obtain ⟨a, b, rfl, ha, hb⟩ := h.calls
  exact .cons rfl ((prepare_quiet.idle ha).append (checkPrinter_idle hb))

theorem Approach.within {rest : List Event} (hn : name ∈ run.targets)
    (h : Approach run name mcu pending state state' approach)
    (hc : (∃ flash, FlashReturns J run name mcu pending c flash) ∨
      ∃ error, FlashFails J run name mcu pending c error)
    (hrest : Workless run.coordinator.unit rest) : Within J run (approach ++ (c ++ rest)) := by
  intro x ev y he hd
  rcases append_eq_split he with ⟨z, rfl, rfl⟩ | ⟨z, rfl, hz⟩
  · exact h.idle.workless.not_disrupts (by simp) hd
  · rcases append_eq_split hz with ⟨c', rfl, rfl⟩ | ⟨rest', rfl, rfl⟩
    · exact ⟨name, hn, mcu, pending, state, state', [], approach, z, c', rest, rfl, rfl, h, hc⟩
    · exact hrest.not_disrupts (by simp) hd

/-- A flash that spared its MCU is settled, whatever follows that neither builds nor flashes. -/
theorem Approach.settled_of_fails {error : FlashCoordinatorError} {rest : List Event}
    (h : Approach run name mcu pending state state' approach)
    (hc : FlashFails J run name mcu pending c error) (ha : error.allowsKlipperRestore = true)
    (hrest : Workless run.coordinator.unit rest) : Settled J run (approach ++ c ++ rest) := by
  intro x ev y he hw
  rw [List.append_assoc] at he
  rcases append_eq_split he with ⟨z, rfl, rfl⟩ | ⟨z, rfl, hz⟩
  · exact h.idle.workless.not_disrupts (by simp) hw
  · rcases append_eq_split hz with ⟨c', rfl, rfl⟩ | ⟨rest', rfl, rfl⟩
    · exact .spared (x := []) h hc ha (hc.unrequested ha)
    · exact hrest.not_disrupts (by simp) hw

/-- So is one that returned, once the wait for the application has. -/
theorem Approach.settled_of_returns {flash : FlashResult} {w rest : List Event}
    (h : Approach run name mcu pending state state' approach)
    (hc : FlashReturns J run name mcu pending c flash)
    (hw : Runs (waitForApplication mcu).run w (.ok ()))
    (hrest : Workless run.coordinator.unit rest) : Settled J run (approach ++ (c ++
      (⟨.hook (.flashed name mcu.kconfig flash.paddedBytes), ()⟩ ::
        ⟨.hook (.stepStarted .waitForApplication), ()⟩ :: w ++ rest))) := by
  intro x ev y he hd
  rcases append_eq_split he with ⟨z, rfl, rfl⟩ | ⟨z, rfl, hz⟩
  · exact h.idle.workless.not_disrupts (by simp) hd
  · rcases append_eq_split hz with ⟨c', rfl, rfl⟩ | ⟨z', rfl, hz'⟩
    · exact .finished (x := []) h hc hw
    · have hidle : Workless run.coordinator.unit
          (⟨.hook (.flashed name mcu.kconfig flash.paddedBytes), ()⟩ ::
            ⟨.hook (.stepStarted .waitForApplication), ()⟩ :: w) :=
        Idle.workless (.cons rfl (.cons rfl (waitForApplication_quiet.idle hw)))
      have hall := hidle.append hrest
      rw [hz'] at hall
      exact hall.not_disrupts (by simp) hd

/-- What an iteration leaves settled: everything before it starts Klipper, and all of it where it
returns. -/
structure IterationSettled (J : Type) [DictionaryReader J] (run : UpdateRun V) (tr : List Event)
    (result : Except RunFailure RunState) : Prop where
  starts : StartsSettled J run tr
  settled : ∀ state, result = .ok state → Settled J run tr
  within : Within J run tr

theorem iterationSettled_of_idle (h : Idle run.coordinator.unit tr) :
    IterationSettled J run tr result :=
  ⟨h.startless.startsSettled, fun _ _ => h.workless.settled, h.workless.within⟩

theorem concludeFlash_settled {flashed : Observed FlashCoordinatorError FlashResult}
    (hn : name ∈ run.targets) (h : Approach run name mcu pending state state' approach)
    (hok : ∀ flash, flashed.2 = .ok flash → FlashReturns J run name mcu pending c flash)
    (herror : ∀ error, flashed.2 = .error error → FlashFails J run name mcu pending c error)
    (hr : Runs (run.concludeFlash name mcu state' flashed).run post result) :
    IterationSettled J run (approach ++ (c ++ post)) result := by
  obtain ⟨first, error | flash⟩ := flashed
  · obtain ⟨_, post₁, rfl, hr₁⟩ := runs_perform_bind_iff.1 hr
    have hfails := herror error rfl
    have hstartless := h.idle.startless.append hfails.startless
    by_cases ha : error.allowsKlipperRestore = true
    · simp only [ha, if_true, ← bind_pure_comp, bind_assoc] at hr₁
      obtain ⟨restored, r, post₂, rfl, hrestore, hr₂⟩ := runs_lift_bind_iff.1 hr₁
      have hworkless : Workless run.coordinator.unit
          (⟨.flashFailed error, ()⟩ :: (r ++ post₂)) := by
        refine List.forall_mem_cons.2 ⟨rfl, ?_⟩
        exact (restoreAfterFailure_workless hrestore).append (failWithDetail_idle hr₂).workless
      refine ⟨?_, ?_, h.within hn (.inr ⟨error, hfails⟩) hworkless⟩
      · rw [← List.append_assoc]
        refine startsSettled_append hstartless ?_
        rintro pre ⟨rest, hrest⟩
        change pre ++ rest = _ at hrest
        rw [← hrest] at hworkless
        exact h.settled_of_fails hfails ha hworkless.of_append
      · rintro state'' rfl
        obtain ⟨he, -⟩ := failWithDetail_runs hr₂
        cases he
    · simp only [ha, Bool.false_eq_true, if_false] at hr₁
      have hidle : Idle run.coordinator.unit (⟨.flashFailed error, ()⟩ :: post₁) :=
        .cons rfl (failWithDetail_idle hr₁)
      refine ⟨?_, ?_, h.within hn (.inr ⟨error, hfails⟩) hidle.workless⟩
      · rw [← List.append_assoc]
        exact (hstartless.append hidle.startless).startsSettled
      · rintro state'' rfl
        obtain ⟨he, -⟩ := failWithDetail_runs hr₁
        cases he
  · obtain ⟨_, post₁, rfl, hr₁⟩ := runs_perform_bind_iff.1 hr
    obtain ⟨_, post₂, rfl, hr₂⟩ := runs_perform_bind_iff.1 hr₁
    obtain ⟨answer, w, post₃, rfl, hw, hr₃⟩ := runs_lift_bind_iff.1 hr₂
    have hreturns := hok flash rfl
    have hstartless := h.idle.startless.append hreturns.startless
    have hend : Idle run.coordinator.unit post₃ := by
      cases answer with
      | error message => exact failWithDetail_idle hr₃
      | ok _ =>
          obtain ⟨_, post₄, rfl, hr₄⟩ := runs_perform_bind_iff.1 hr₃
          obtain ⟨rfl, -⟩ := runs_pure_iff.1 hr₄
          exact .cons rfl idle_nil
    have hidle : Idle run.coordinator.unit
        (⟨.hook (.flashed name mcu.kconfig flash.paddedBytes), ()⟩ ::
          ⟨.hook (.stepStarted .waitForApplication), ()⟩ :: (w ++ post₃)) :=
      .cons rfl (.cons rfl ((waitForApplication_quiet.idle hw).append hend))
    refine ⟨?_, ?_, h.within hn (.inl ⟨flash, hreturns⟩) hidle.workless⟩
    · rw [← List.append_assoc]
      exact (hstartless.append hidle.startless).startsSettled
    · rintro state'' rfl
      cases answer with
      | error message =>
          obtain ⟨he, -⟩ := failWithDetail_runs hr₃
          cases he
      | ok _ => exact h.settled_of_returns hreturns hw hend.workless

theorem flashTarget_settled (hn : name ∈ run.targets)
    (h : Approach run name mcu pending state state' approach)
    (hr : Runs (run.flashTarget J name mcu pending state').run post result) :
    IterationSettled J run (approach ++ post) result := by
  unfold flashTarget at hr
  cases hp : Prebuilt.prepareAutomatic J run.sha256 run.targetVersions pending mcu with
  | some prepare =>
      rw [hp] at hr
      obtain ⟨answer, a, post₁, rfl, ha, hr₁⟩ := runs_lift_bind_iff.1 hr
      cases answer with
      | error detail =>
          obtain ⟨restored, b, post₂, rfl, hb, hr₂⟩ := runs_lift_bind_iff.1 hr₁
          have hworkless : Workless run.coordinator.unit (approach ++ (a ++ (b ++ post₂))) := by
            refine h.idle.workless.append (Workless.append ?_
              ((restoreAfterFailure_workless hb).append (failWithDetail_idle hr₂).workless))
            exact fun ev hev => (downloads_gentle hp ha ev hev).2
          exact ⟨hworkless.startsSettled, fun _ _ => hworkless.settled, hworkless.within⟩
      | ok request =>
          obtain ⟨⟨first, flashed⟩, b, post₂, rfl, hb, hr₂⟩ := runs_lift_bind_iff.1 hr₁
          rw [← List.append_assoc a]
          refine concludeFlash_settled hn h ?_ ?_ hr₂
          · rintro flash rfl
            exact .prebuilt hp ha hb
          · rintro error rfl
            exact .prebuilt hp ha hb
  | none =>
      rw [hp] at hr
      obtain ⟨⟨first, completed⟩, b, post₁, rfl, hb, hr₁⟩ := runs_lift_bind_iff.1 hr
      refine concludeFlash_settled hn h ?_ ?_ hr₁
      · intro flash hok
        cases completed with
        | error error => cases hok
        | ok completed =>
            cases hok
            exact .built hp hb
      · intro error herror
        cases completed with
        | error error' =>
            cases herror
            exact .built hp hb
        | ok completed => cases herror

theorem updateApproved_settled (hn : name ∈ run.targets)
    (hf : run.inventory.find name = some mcu)
    (hd : Eligibility.downgradeRefusal mcu run.targetVersions = none)
    (hr : Runs (run.updateApproved J name mcu state).run post result) :
    IterationSettled J run (⟨run.offer mcu name, true⟩ :: post) result := by
  obtain ⟨prepared, a, post₁, rfl, ha, hr₁⟩ := runs_lift_bind_iff.1 hr
  have hprepare : Idle run.coordinator.unit (⟨run.offer mcu name, true⟩ :: a) :=
    .cons rfl (prepare_quiet.idle ha)
  cases prepared with
  | error error => exact iterationSettled_of_idle (hprepare.append (failWithDetail_idle hr₁))
  | ok pending =>
      rcases runs_attempt_bind_iff.1 hr₁ with ⟨e, rfl, hcheck⟩ | ⟨state', b, post₂, rfl, hb, hr₂⟩
      · exact iterationSettled_of_idle (hprepare.append (checkPrinter_idle hcheck))
      · rw [← List.append_assoc]
        exact flashTarget_settled hn ⟨hf, hd, a, b, rfl, ha, hb⟩ hr₂

theorem runTarget_settled (hn : name ∈ run.targets)
    (hr : Runs (run.runTarget J name state).run tr result) :
    IterationSettled J run tr result := by
  unfold runTarget at hr
  cases hf : run.inventory.find name with
  | none =>
      rw [hf] at hr
      exact iterationSettled_of_idle (failWithDetail_idle hr)
  | some mcu =>
      rw [hf] at hr
      dsimp only at hr
      cases hd : Eligibility.downgradeRefusal mcu run.targetVersions with
      | some refusal =>
          rw [hd] at hr
          exact iterationSettled_of_idle (failWithDetail_idle hr)
      | none =>
          rw [hd] at hr
          obtain ⟨answer, post, rfl, hr₁⟩ := runs_perform_bind_iff.1 hr
          cases answer with
          | true => exact updateApproved_settled hn hf hd hr₁
          | false =>
              obtain ⟨rfl, -⟩ := runs_pure_iff.1 hr₁
              exact iterationSettled_of_idle (.cons rfl idle_nil)

theorem runTargets_settled {targets : List Str} (ht : targets ⊆ run.targets)
    (hr : Runs (run.runTargets J targets state).run tr result) :
    IterationSettled J run tr result := by
  induction targets generalizing state tr with
  | nil =>
      obtain ⟨rfl, -⟩ := runs_pure_iff.1 hr
      exact iterationSettled_of_idle idle_nil
  | cons name rest ih =>
      rcases runs_attempt_bind_iff.1 hr with ⟨e, rfl, hname⟩ | ⟨state₁, seg, tr, rfl, hname, hrest⟩
      · exact runTarget_settled (ht List.mem_cons_self) hname
      · have hone := runTarget_settled (ht List.mem_cons_self) hname
        have hseg := hone.settled state₁ rfl
        have hothers := ih (List.subset_of_cons_subset ht) hrest
        exact ⟨hone.starts.append hseg hothers.starts,
          fun state hok => hseg.append (hothers.settled state hok),
          hone.within.append hothers.within⟩

end Iteration

theorem updates_settled {result : Except RunFailure (List Str)}
    (hr : Runs (run.runUpdates J).run tr result) : StartsSettled J run tr ∧ Within J run tr := by
  rcases runs_attempt_bind_iff.1 hr with
    ⟨failure, rfl, hloop⟩ | ⟨state, pre, post, rfl, hloop, hend⟩
  · have hall := runTargets_settled (List.Subset.refl _) hloop
    exact ⟨hall.starts, hall.within⟩
  · have hall := runTargets_settled (List.Subset.refl _) hloop
    have hend := finishRun_workless hend
    exact ⟨hall.starts.append (hall.settled state rfl) hend.startsSettled,
      hall.within.append hend.within⟩

/-- Before Klipper is started, whatever was stopped, built or flashed belongs to a flash that
returned, as did the wait for the application after it, or that failed with an error that allows a
restore; and a flash that fails with such an error asked its MCU to enter no bootloader. -/
theorem klipper_started_safely {result : Except RunFailure (List Str)}
    (hr : Runs (run.runUpdates J).run tr result) :
    (∀ pre ev post, tr = pre ++ ev :: post → act run.coordinator.unit ev.1 = .start →
      ∀ x call y, pre = x ++ call :: y → (act run.coordinator.unit call.1).disrupts = true →
        Settles J run x call y) ∧
    ∀ name mcu pending flash error, FlashFails J run name mcu pending flash error →
      error.allowsKlipperRestore = true → ∀ call ∈ flash, entersBootloader call.1 = false :=
  ⟨(updates_settled hr).1, fun _ _ _ _ _ hfails ha => hfails.unrequested ha⟩

theorem klipper_started_safely_on_host :
    ((∃ ev ∈ batchExecution.1, act .default ev.1 = .start) ∧
      batchExecution.1.countP (fun ev => isApproval ev.1) = 3 ∧
      batchExecution.1.countP (fun ev => act .default ev.1 = .build) = 4) ∧
    (∀ pre ev post, batchExecution.1 = pre ++ ev :: post → act .default ev.1 = .start →
      ∀ x call y, pre = x ++ call :: y → (act .default call.1).disrupts = true →
        Settles Unit (hostRun batchTargets) x call y) ∧
    ∀ name mcu pending flash error,
      FlashFails Unit (hostRun batchTargets) name mcu pending flash error →
        error.allowsKlipperRestore = true → ∀ call ∈ flash, entersBootloader call.1 = false :=
  ⟨by decide +kernel, klipper_started_safely runs_batchExecution⟩

end Aldis.UpdateRun

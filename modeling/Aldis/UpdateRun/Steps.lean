import Aldis.UpdateRun.Parts

/-!
# The steps of one update

From an approved MCU on a printer that was found idle, the coordinator's flashes keep the
discipline of a run: Klipper is observed inactive before the first build or flash call.
-/

namespace Aldis

open Interaction World Text Octets

namespace Observed

variable {S ε ε' α β : Type} {W : World HostAnswer S} {s : S}

/-- A postcondition on the cell for each way an operation may end. -/
def Ends (P T : Option Bool → S → Prop) (result : Observed ε α) : S → Prop :=
  Outcome (fun _ => P result.1) (fun _ => T result.1) result.2

theorem ensures_andThen {x : HostProgram (Observed ε α)} {f : α → HostAttempt ε β}
    {P T : Option Bool → S → Prop} {Q : Observed ε β → S → Prop}
    (h : W.Ensures x s (Ends P T))
    (hok : ∀ first a s', P first s' → W.EnsuresOr (f a) s'
      (fun b s'' => Q (first, .ok b) s'') fun e s'' => Q (first, .error e) s'')
    (herror : ∀ first e s', T first s' → Q (first, .error e) s') :
    W.Ensures (andThen x f) s Q := by
  refine h.bind fun result s' hP => ?_
  obtain ⟨first, e | a⟩ := result
  · exact herror first e s' hP
  · refine Ensures.bind (hok first a s' hP) fun r s'' hr => ?_
    cases r with
    | ok b => exact hr
    | error e => exact hr

theorem ensures_adapt {wrap : ε → ε'} {x : HostProgram (Observed ε α)}
    {Q : Observed ε' α → S → Prop} :
    W.Ensures (adapt wrap x) s Q ↔
      W.Ensures x s fun result s' => Q (result.1, result.2.mapError wrap) s' := by
  unfold adapt
  rw [ensures_bind]
  exact Iff.rfl

end Observed

namespace UpdateRun

variable {α ε : Type} {unit : KlipperUnit} {past : List Event}

section Ledger

theorem next_quiet {call : HostCall} (h : quiet call = true) (l : Ledger)
    (answer : HostAnswer call) : l.next unit ⟨call, answer⟩ = l := by
  cases call with
  | hook call =>
      cases call with
      | stepStarted step => cases step <;> first | rfl | cases h
      | stepSucceeded step => rfl
      | progress name progress => rfl
      | failed message => rfl
      | flashed name kconfig bytes => rfl
      | approve name current next => cases h
  | mcu call => rfl
  | file call => rfl
  | attempts timeout pollInterval => rfl
  | parallelJobs => rfl
  | run runner command => cases h
  | flash call => cases h
  | downloadText tag name => cases h
  | downloadBytes tag name => cases h
  | flashFailed error => rfl

theorem act_quiet {call : HostCall} (h : quiet call = true) : act unit call = .other := by
  cases call <;> first | rfl | cases h

theorem permitted_other {call : HostCall} (h : act unit call = .other) :
    Permitted unit past call where
  idle hd := by rw [h] at hd; cases hd
  inactive ha := by rw [h] at ha; rcases ha with ha | ha <;> cases ha
  approved ha := absurd h ha
  restored ha := by rw [h] at ha; cases ha

theorem permitted_quiet {call : HostCall} (h : quiet call = true) : Permitted unit past call :=
  permitted_other (act_quiet h)

def Unchanged (unit : KlipperUnit) (past past' : List Event) : Prop :=
  past <+: past' ∧ ledger unit past' = ledger unit past

theorem Unchanged.refl : Unchanged unit past past := ⟨List.prefix_rfl, rfl⟩

theorem Unchanged.next {past' : List Event} {ev : Event} (h : Unchanged unit past past')
    (hl : (ledger unit past').next unit ev = ledger unit past') :
    Unchanged unit past (past' ++ [ev]) := by
  refine ⟨h.1.trans (List.prefix_append _ _), ?_⟩
  rw [ledger_append, hl, h.2]

theorem Unchanged.quiet {past' : List Event} {call : HostCall} {answer : HostAnswer call}
    (h : Unchanged unit past past') (hq : quiet call = true) :
    Unchanged unit past (past' ++ [⟨call, answer⟩]) := h.next (next_quiet hq _ _)

theorem Quiet.spec {x : HostAttempt ε α} (h : Quiet x) : (discipline unit).EnsuresOr x past
    (fun _ past' => Unchanged unit past past') fun _ past' => Unchanged unit past past' := by
  refine (h.ensuresOr (I := Unchanged unit past) .refl ?_).mono (fun _ _ hQ => hQ)
    fun _ _ hR => hR.1
  intro past' call hU hsilent
  have hq := quiet_of_silent hsilent
  refine ⟨permitted_quiet hq, ?_⟩
  rintro answer _ rfl
  exact hU.quiet hq

/-- The same for a quiet attempt of which the run only sees the result. -/
theorem Quiet.spec_lift {x : HostAttempt ε α} (h : Quiet x) :
    (discipline unit).Ensures x.run past fun _ past' => Unchanged unit past past' := by
  refine Ensures.mono h.spec fun r past' hr => ?_
  cases r with
  | ok a => exact hr
  | error e => exact hr

/-- Builds, flashes and downloads leave the ledger as it is. -/
theorem next_work {call : HostCall} (h : act unit call = .build ∨ act unit call = .flash ∨
    act unit call = .download) (l : Ledger) (answer : HostAnswer call) :
    l.next unit ⟨call, answer⟩ = l := by
  cases call with
  | run runner command =>
      simp only [Ledger.next]
      rcases h with h | h | h <;> rw [h] <;> rfl
  | flash call => rfl
  | downloadText tag name => rfl
  | downloadBytes tag name => rfl
  | hook call => rcases h with h | h | h <;> cases h
  | mcu call => rfl
  | file call => rfl
  | attempts timeout pollInterval => rfl
  | parallelJobs => rfl
  | flashFailed error => rfl

end Ledger

/-- An MCU was approved and is being updated; the coordinator's cell is `first`. -/
structure Working (first : Option Bool) (l : Ledger) : Prop where
  approved : l.attempts ≠ []
  observed : l.first = first
  started : l.started = false
  declined : l.declined = false
  finishing : l.finishing = false

/-- An approved MCU, after the printer was found idle. -/
structure Ready (unit : KlipperUnit) (first : Option Bool) (past : List Event) : Prop where
  idle : FoundIdle past
  working : Working first (ledger unit past)

/-- Klipper was seen inactive for the approved MCU. -/
structure InFlash (unit : KlipperUnit) (first : Option Bool) (past : List Event) : Prop where
  ready : Ready unit first past
  inactive : (ledger unit past).inactive = true

section InFlash

variable {first : Option Bool} {past' : List Event}

theorem Ready.unchanged (h : Ready unit first past) (hU : Unchanged unit past past') :
    Ready unit first past' :=
  ⟨h.idle.mono hU.1, hU.2 ▸ h.working⟩

theorem InFlash.unchanged (h : InFlash unit first past) (hU : Unchanged unit past past') :
    InFlash unit first past' :=
  ⟨h.ready.unchanged hU, hU.2 ▸ h.inactive⟩

theorem InFlash.permitted (h : InFlash unit first past) {call : HostCall}
    (ha : act unit call = .build ∨ act unit call = .flash) : Permitted unit past call where
  idle _ := h.ready.idle
  inactive _ := ⟨h.ready.working.approved, h.inactive⟩
  approved _ := h.ready.working.declined
  restored hs := by
    rw [hs] at ha
    rcases ha with ha | ha <;> cases ha

/-- What builds or flashes stays in the flash it is part of. -/
theorem Also.spec_inFlash {P : HostCall → Prop} {R : ε → Prop} {x : HostAttempt ε α}
    (hx : Also P R x) (hP : ∀ call, P call → act unit call = .build ∨ act unit call = .flash)
    (h : InFlash unit first past) :
    (discipline unit).EnsuresOr x past (fun _ => InFlash unit first)
      fun _ => InFlash unit first := by
  refine (hx.ensuresOr (I := InFlash unit first) h ?_).mono (fun _ _ hQ => hQ)
    fun _ _ hR => hR.1
  intro past' call hI hcall
  rcases hcall with hsilent | hwork
  · have hq := quiet_of_silent hsilent
    refine ⟨permitted_quiet hq, ?_⟩
    rintro answer _ rfl
    exact hI.unchanged (Unchanged.refl.quiet hq)
  · have hact := hP call hwork
    refine ⟨hI.permitted hact, ?_⟩
    rintro answer _ rfl
    exact hI.unchanged (Unchanged.refl.next (next_work (hact.imp_right .inl) _ _))

theorem Builds.spec {x : HostAttempt ε α} (hx : Builds unit x) (h : InFlash unit first past) :
    (discipline unit).EnsuresOr x past (fun _ => InFlash unit first)
      fun _ => InFlash unit first :=
  Also.spec_inFlash hx (fun _ hb => .inl hb) h

theorem Spares.spec {x : HostAttempt ε α} (hx : Spares unit x) (h : InFlash unit first past) :
    (discipline unit).EnsuresOr x past (fun _ => InFlash unit first)
      fun _ => InFlash unit first :=
  Also.spec_inFlash hx (fun _ hf => .inr hf.1) h

/-- A flash leaves the MCU approved. -/
theorem Flashes.spec {R : ε → Prop} {x : HostAttempt ε α} (hx : Flashes unit R x)
    (h : InFlash unit first past) :
    (discipline unit).EnsuresOr x past (fun _ => Ready unit first) fun _ => Ready unit first :=
  (Also.spec_inFlash hx (fun _ hf => .inr hf) h).mono (fun _ _ hQ => hQ.ready)
    fun _ _ hR => hR.ready

end InFlash

section Service

@[simp] theorem act_query : act unit (.run .service (systemctl "is-active" unit)) = .query := by
  simp only [act, if_true]

@[simp] theorem act_stop : act unit (.run .service (systemctl "stop" unit)) = .stop := by
  have hq : systemctl "stop" unit ≠ systemctl "is-active" unit := fun h =>
    absurd (systemctl_action_injective h) (by decide)
  simp only [act, hq, if_false, if_true]

@[simp] theorem act_start : act unit (.run .service (systemctl "start" unit)) = .start := by
  have hq : systemctl "start" unit ≠ systemctl "is-active" unit := fun h =>
    absurd (systemctl_action_injective h) (by decide)
  have hs : systemctl "start" unit ≠ systemctl "stop" unit := fun h =>
    absurd (systemctl_action_injective h) (by decide)
  simp only [act, hq, hs, if_false, if_true]

/-- The events of the commands for Klipper's unit. -/
def serviceEvent (unit : KlipperUnit) (action : Str)
    (answer : Except CommandError CommandOutput) : Event :=
  ⟨.run .service (systemctl action unit), answer⟩

theorem next_query (l : Ledger) (answer : Except CommandError CommandOutput) :
    l.next unit (serviceEvent unit "is-active" answer) = l.command .query answer := by
  simp only [serviceEvent, Ledger.next, act_query]

theorem next_stop (l : Ledger) (answer : Except CommandError CommandOutput) :
    l.next unit (serviceEvent unit "stop" answer) = l.command .stop answer := by
  simp only [serviceEvent, Ledger.next, act_stop]

theorem next_start (l : Ledger) (answer : Except CommandError CommandOutput) :
    l.next unit (serviceEvent unit "start" answer) = l.command .start answer := by
  simp only [serviceEvent, Ledger.next, act_start]

theorem permitted_query (h : (ledger unit past).declined = false) :
    Permitted unit past (.run .service (systemctl "is-active" unit)) where
  idle hd := by rw [act_query] at hd; cases hd
  inactive ha := by rw [act_query] at ha; rcases ha with ha | ha <;> cases ha
  approved _ := h
  restored ha := by rw [act_query] at ha; cases ha

theorem permitted_stop (h : (ledger unit past).declined = false) (hi : FoundIdle past) :
    Permitted unit past (.run .service (systemctl "stop" unit)) where
  idle _ := hi
  inactive ha := by rw [act_stop] at ha; rcases ha with ha | ha <;> cases ha
  approved _ := h
  restored ha := by rw [act_stop] at ha; cases ha

theorem permitted_start (h : (ledger unit past).declined = false)
    (hf : (ledger unit past).finishing = true ∨ (ledger unit past).first = some true) :
    Permitted unit past (.run .service (systemctl "start" unit)) where
  idle hd := by rw [act_start] at hd; cases hd
  inactive ha := by rw [act_start] at ha; rcases ha with ha | ha <;> cases ha
  approved _ := h
  restored _ := hf

/-- One command for Klipper's unit, given what follows each answer. -/
theorem runSystemctl_spec {action : Str} {Q : CommandOutput → List Event → Prop}
    {R : ServiceError → List Event → Prop}
    (hp : Permitted unit past (.run .service (systemctl action unit)))
    (hok : ∀ output, Q output (past ++ [serviceEvent unit action (.ok output)]))
    (herror : ∀ error, R (.commandPort (systemctl action unit) error)
      (past ++ [serviceEvent unit action (.error error)])) :
    (discipline unit).EnsuresOr (KlipperService.runSystemctl unit action) past Q R := by
  unfold KlipperService.runSystemctl
  rw [ensuresOr_bind, ensuresOr_run]
  refine ⟨hp, ?_⟩
  rintro answer _ rfl
  cases answer with
  | ok output => exact hok output
  | error error => exact herror error

theorem state_spec {Q : ServiceState → List Event → Prop} {R : ServiceError → List Event → Prop}
    (hd : (ledger unit past).declined = false)
    (hok : ∀ output, Q (ServiceState.ofOutput output.stdout)
      (past ++ [serviceEvent unit "is-active" (.ok output)]))
    (herror : ∀ e error, R e (past ++ [serviceEvent unit "is-active" (.error error)])) :
    (discipline unit).EnsuresOr (KlipperService.state unit) past Q R := by
  unfold KlipperService.state
  rw [ensuresOr_bind]
  exact runSystemctl_spec (permitted_query hd) hok fun error => herror _ error

theorem runStateChange_spec {action : Str} {Q : Unit → List Event → Prop}
    {R : ServiceError → List Event → Prop}
    (hp : Permitted unit past (.run .service (systemctl action unit)))
    (hok : ∀ output, output.success = true →
      Q () (past ++ [serviceEvent unit action (.ok output)]))
    (herror : ∀ e answer, R e (past ++ [serviceEvent unit action answer])) :
    (discipline unit).EnsuresOr (KlipperService.runStateChange unit action) past Q R := by
  unfold KlipperService.runStateChange
  rw [ensuresOr_bind]
  refine runSystemctl_spec hp (fun output => ?_) fun error => herror _ _
  rw [ensuresOr_ite]
  exact ⟨hok output, fun _ => herror _ _⟩

end Service

section Stop

variable {first : Option Bool} {l : Ledger} {name : Str}

theorem Working.observe (h : Working first l) (state : ServiceState) :
    Working (first.or (some (decide (state = .active)))) (l.observe state) :=
  ⟨h.approved, by rw [← h.observed]; rfl, h.started, h.declined, h.finishing⟩

theorem Working.stop (h : Working first l) (answer : Except CommandError CommandOutput) :
    Working first (l.command .stop answer) := by
  cases answer with
  | ok output => exact ⟨h.approved, h.observed, h.started, h.declined, h.finishing⟩
  | error error => exact h

theorem Ready.stop (h : Ready unit first past) (answer : Except CommandError CommandOutput) :
    Ready unit first (past ++ [serviceEvent unit "stop" answer]) := by
  refine ⟨h.idle.mono (List.prefix_append _ _), ?_⟩
  rw [ledger_append, next_stop]
  exact h.working.stop answer

theorem Ready.observe (h : Ready unit first past) (output : CommandOutput) :
    Ready unit (first.or (some (decide (ServiceState.ofOutput output.stdout = .active))))
      (past ++ [serviceEvent unit "is-active" (.ok output)]) := by
  refine ⟨h.idle.mono (List.prefix_append _ _), ?_⟩
  rw [ledger_append, next_query]
  exact h.working.observe _

theorem Ready.unobserved (h : Ready unit first past) (error : CommandError) :
    Ready unit first (past ++ [serviceEvent unit "is-active" (.error error)]) :=
  h.unchanged (Unchanged.refl.next (next_query _ _))

theorem inactive_observe {output : CommandOutput}
    (h : ServiceState.ofOutput output.stdout = .inactive) :
    (ledger unit (past ++ [serviceEvent unit "is-active" (.ok output)])).inactive = true := by
  rw [ledger_append, next_query]
  exact decide_eq_true h

/-- What the state of the unit asks for, once it was observed; the cell is set by then. -/
theorem stopObserved_spec {coordinator : BuildCoordinator} {state : ServiceState}
    (h : Ready coordinator.unit first past) (hs : first.isSome = true)
    (hi : state = .inactive → (ledger coordinator.unit past).inactive = true) :
    (discipline coordinator.unit).EnsuresOr (coordinator.stopObserved name state) past
      (fun _ past' => InFlash coordinator.unit first past')
      fun _ past' => Ready coordinator.unit first past' := by
  have hfirst : ∀ b, first.or (some b) = first := by
    intro b
    cases first with
    | none => cases hs
    | some _ => rfl
  cases state with
  | inactive => exact ⟨h, hi rfl⟩
  | failed => exact h
  | transitioning state => exact h
  | unknown state => exact h
  | active =>
      simp only [BuildCoordinator.stopObserved, ensuresOr_bind, ensuresOr_hook,
        discipline_permits, discipline_step]
      refine ⟨permitted_quiet rfl, ?_⟩
      rintro answer _ rfl
      have hprogress : Ready coordinator.unit first
          (past ++ [⟨.hook (.progress name .stoppingKlipper), answer⟩]) :=
        h.unchanged (Unchanged.refl.quiet rfl)
      rw [ensuresOr_adapt]
      refine runStateChange_spec (permitted_stop hprogress.working.declined hprogress.idle)
        (fun output _ => ?_) fun e answer => hprogress.stop answer
      have hstop := hprogress.stop (.ok output)
      rw [ensuresOr_adapt]
      refine state_spec hstop.working.declined (fun output => ?_)
        fun e error => hstop.unobserved error
      have hobserved := hstop.observe output
      rw [hfirst] at hobserved
      cases hstate : ServiceState.ofOutput output.stdout with
      | inactive => exact ⟨hobserved, inactive_observe hstate⟩
      | active => exact hobserved
      | failed => exact hobserved
      | transitioning state => exact hobserved
      | unknown state => exact hobserved

/-- Where stopping Klipper succeeds, it was observed inactive; the cell follows the ledger. -/
theorem ensureKlipperStopped_spec {coordinator : BuildCoordinator}
    (h : Ready coordinator.unit first past) :
    (discipline coordinator.unit).Ensures (coordinator.ensureKlipperStopped name first) past
      (Observed.Ends (InFlash coordinator.unit) (Ready coordinator.unit)) := by
  unfold BuildCoordinator.ensureKlipperStopped
  have hstate : (discipline coordinator.unit).EnsuresOr (KlipperService.state coordinator.unit) past
      (fun state past' =>
        Ready coordinator.unit (first.or (some (decide (state = .active)))) past' ∧
          (state = .inactive → (ledger coordinator.unit past').inactive = true))
      fun _ past' => Ready coordinator.unit first past' :=
    state_spec h.working.declined
      (fun output => ⟨h.observe output, fun hi => inactive_observe hi⟩)
      fun e error => h.unobserved error
  refine Ensures.bind hstate fun result past' hresult => ?_
  cases result with
  | error error => exact hresult
  | ok state =>
      obtain ⟨hready, hi⟩ := hresult
      have hsome : (first.or (some (decide (state = .active)))).isSome = true := by
        cases first <;> rfl
      refine Ensures.bind (stopObserved_spec hready hsome hi) fun result past' hresult => ?_
      cases result with
      | ok _ => exact hresult
      | error error => exact hresult

end Stop

section Download

variable {first : Option Bool}

theorem permitted_download {call : HostCall} (h : act unit call = .download)
    (hd : (ledger unit past).declined = false) : Permitted unit past call where
  idle hd := by rw [h] at hd; cases hd
  inactive ha := by rw [h] at ha; rcases ha with ha | ha <;> cases ha
  approved _ := hd
  restored ha := by rw [h] at ha; cases ha

/-- Downloads leave an approved MCU as it was. -/
theorem Downloads.spec {x : HostAttempt ε α} (hx : Downloads unit x)
    (h : Ready unit first past) :
    (discipline unit).Ensures x.run past fun _ => Ready unit first := by
  have hspec : (discipline unit).EnsuresOr x past (fun _ => Ready unit first)
      fun _ => Ready unit first := by
    refine (hx.ensuresOr (I := Ready unit first) h ?_).mono (fun _ _ hQ => hQ)
      fun _ _ hR => hR.1
    intro past' call hI hcall
    rcases hcall with hsilent | hd
    · have hq := quiet_of_silent hsilent
      refine ⟨permitted_quiet hq, ?_⟩
      rintro answer _ rfl
      exact hI.unchanged (Unchanged.refl.quiet hq)
    · refine ⟨permitted_download hd hI.working.declined, ?_⟩
      rintro answer _ rfl
      exact hI.unchanged (Unchanged.refl.next (next_work (.inr (.inr hd)) _ _))
  refine Ensures.mono hspec fun r past' hr => ?_
  cases r with
  | ok a => exact hr
  | error e => exact hr

end Download

section Flash

variable {first : Option Bool} {name : Str} {coordinator : BuildCoordinator}
  {sha1 : Bytes → Bytes} {options : SystemFlashOptions} {approved : ApprovedBuild}

theorem executeWithProgress_spec (h : Ready coordinator.unit first past) :
    (discipline coordinator.unit).Ensures (coordinator.executeWithProgress name first approved) past
      (Observed.Ends (InFlash coordinator.unit) (Ready coordinator.unit)) := by
  refine Observed.ensures_andThen (ensureKlipperStopped_spec h) (fun first _ past' hstopped => ?_)
    fun first e past' hready => hready
  rw [ensuresOr_adapt]
  exact (Builds.spec buildWithProgress_builds hstopped).mono (fun _ _ hQ => hQ)
    fun _ _ hR => hR.ready

theorem buildForFlash_spec (h : Ready coordinator.unit first past) :
    (discipline coordinator.unit).Ensures (coordinator.buildForFlash name first approved) past
      (Observed.Ends (InFlash coordinator.unit) (Ready coordinator.unit)) := by
  refine Observed.ensures_andThen (P := InFlash coordinator.unit)
    (T := Ready coordinator.unit) ?_ (fun first artifact past' hbuilt => ?_)
    fun first e past' hready => hready
  · rw [Observed.ensures_adapt]
    refine (executeWithProgress_spec h).mono fun result past' hresult => ?_
    obtain ⟨first, e | artifact⟩ := result
    · exact hresult
    · exact hresult
  · simp only [ensuresOr_bind, ensuresOr_fileCall, discipline_permits, discipline_step]
    refine ⟨permitted_quiet rfl, ?_⟩
    rintro answer _ rfl
    have hread : InFlash coordinator.unit first
        (past' ++ [⟨.file (.read artifact.path), answer⟩]) :=
      hbuilt.unchanged (Unchanged.refl.quiet rfl)
    rw [ensuresOr_check]
    exact ⟨fun _ _ => hread, fun _ _ => hread.ready⟩

theorem flashPreparedSystem_spec {arch : TargetArch} {prepared : PreparedBuild}
    {firmware : Bytes} (h : InFlash unit first past) :
    (discipline unit).EnsuresOr
      (flashPreparedSystem sha1 options name arch prepared firmware) past
      (fun _ => Ready unit first) fun _ => Ready unit first := by
  unfold flashPreparedSystem
  simp only [ensuresOr_ite]
  constructor
  · intro _
    simp only [ensuresOr_bind, report, ensuresOr_hook, discipline_permits, discipline_step]
    refine ⟨permitted_quiet rfl, ?_⟩
    rintro answer _ rfl
    rw [ensuresOr_adapt]
    apply (Spares.spec install_spares (h.unchanged (Unchanged.refl.quiet rfl))).mono
    · exact fun flash past' hI => hI.ready
    · exact fun e past' hI => hI.ready
  · intro _
    split
    · exact h.ready
    · exact Flashes.spec flashSerialSystem_flashes h
    · exact Flashes.spec flashCanSystem_flashes h

theorem executeAndFlashSystem_spec (h : Ready coordinator.unit first past) :
    (discipline coordinator.unit).Ensures
      (coordinator.executeAndFlashSystem sha1 options name first approved) past
      fun result past' => Ready coordinator.unit result.1 past' := by
  refine Observed.ensures_andThen (buildForFlash_spec h) (fun first built past' hbuilt => ?_)
    fun first e past' hready => hready
  obtain ⟨prepared, artifact, firmware⟩ := built
  rw [ensuresOr_bind, ensuresOr_adapt]
  exact (flashPreparedSystem_spec hbuilt).mono (fun _ _ hQ => hQ) fun _ _ hR => hR

variable {V : Type}

theorem flashPrebuiltKatapult_spec {prepared : PreparedBuild} {firmware : Bytes}
    {start : UInt32} {links : PrebuiltLinks} (h : InFlash unit first past) :
    (discipline unit).EnsuresOr
      (flashPrebuiltKatapult sha1 options name prepared firmware start links) past
      (fun _ => Ready unit first) fun _ => Ready unit first := by
  have husb : ∀ transport route, (discipline unit).EnsuresOr (do
      let device ← usbSerialDevice transport route
      flashPrebuiltUsb sha1 options name device firmware start) past
      (fun _ => Ready unit first) fun _ => Ready unit first := by
    intro transport route
    rw [ensuresOr_bind]
    exact (Spares.spec usbSerialDevice_spares h).mono
      (fun device past' hI => Flashes.spec flashPrebuiltUsb_flashes hI)
      fun e past' hI => hI.ready
  unfold flashPrebuiltKatapult
  rcases prepared.transport with _ | device | ⟨interface, uuid⟩
  · cases links <;> exact h.ready
  · cases links with
    | usbOnly => exact husb (.serial device) .katapultUsb
    | usbOrCan => exact husb (.serial device) .katapultUsbOrCan
  · cases links with
    | usbOnly => exact husb (.can interface uuid) .katapultUsb
    | usbOrCan => exact Flashes.spec flashPrebuiltCan_flashes h

theorem flashBeacon_spec {prepared : PreparedBuild} {image : Beacon.FirmwareImage V}
    (h : InFlash unit first past) :
    (discipline unit).EnsuresOr (flashBeacon options name prepared image) past
      (fun _ => Ready unit first) fun _ => Ready unit first := by
  unfold flashBeacon
  split
  · exact h.ready
  · rw [ensuresOr_bind]
    exact (Spares.spec usbSerialDevice_spares h).mono
      (fun device past' hI => Flashes.spec flashBeaconUsb_flashes hI)
      fun e past' hI => hI.ready

theorem flashPrebuilt_spec {request : FlashRequest V} (h : Ready coordinator.unit first past) :
    (discipline coordinator.unit).Ensures
      (coordinator.flashPrebuilt sha1 options name first approved request) past
      fun result past' => Ready coordinator.unit result.1 past' := by
  simp only [BuildCoordinator.flashPrebuilt]
  split
  · exact h
  · refine Observed.ensures_andThen (P := InFlash coordinator.unit)
      (T := Ready coordinator.unit) ?_ (fun first _ past' hstopped => ?_)
      fun first e past' hready => hready
    · rw [Observed.ensures_adapt]
      refine (ensureKlipperStopped_spec h).mono fun result past' hresult => ?_
      obtain ⟨first, e | _⟩ := result
      · exact hresult
      · exact hresult
    · rw [ensuresOr_adapt]
      cases request.protocol with
      | katapult image start links => exact flashPrebuiltKatapult_spec hstopped
      | beaconDfu image => exact flashBeacon_spec hstopped

end Flash

end UpdateRun
end Aldis

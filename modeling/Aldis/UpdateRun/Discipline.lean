import Aldis.UpdateRun.Steps

/-!
# The discipline of a run

Between targets the coordinator's cell agrees with the ledger. A run that fails either restored
Klipper, or told that it may be stopped, or stopped nothing since the target it failed on was
reached.
-/

namespace Aldis.UpdateRun

open Interaction World Attempt Text Octets

section Messages

/-- The message of a failure that reports the restore that followed it, if any. -/
def Told (failure : RunFailure) (restore : Option (Except CoordinatorError Unit)) : Prop :=
  failure.message = failureMessage .update failure.detail restore

theorem failureMessage_ne_detail {operation : Operation} {detail : Str}
    {restore : Option (Except CoordinatorError Unit)} :
    failureMessage operation detail restore ≠ detail := by
  intro h
  have hlength := congrArg List.length h
  simp only [failureMessage, List.length_append] at hlength
  cases operation with
  | update =>
      have hfailed : (Operation.failed .update).length = 13 := rfl
      omega
  | flash =>
      have hfailed : (Operation.failed .flash).length = 12 := rfl
      omega

theorem Told.ne_detail {failure : RunFailure}
    {restore : Option (Except CoordinatorError Unit)} (h : Told failure restore) :
    failure.message ≠ failure.detail := by
  rw [h]
  exact failureMessage_ne_detail

/-- A message tells whether a restore was attempted. -/
theorem Told.not_both {failure : RunFailure} {result : Except CoordinatorError Unit}
    (h : Told failure none) : ¬ Told failure (some result) := by
  intro hs
  have he := h.symm.trans hs
  simp only [failureMessage] at he
  have htail := List.append_cancel_left he
  cases result with
  | ok u =>
      cases u
      exact absurd htail (by decide)
  | error error =>
      have htake := congrArg (List.take 11) htail
      simp only [List.append_assoc] at htake
      rw [List.take_append_of_le_length (by decide)] at htake
      exact absurd htake (by decide)

end Messages

variable {V : Type} [Semver V] {J : Type} [DictionaryReader J] {run : UpdateRun V}
  {unit : KlipperUnit} {past : List Event} {state : RunState}

/-- A restore issued the start command where the first state observed was active. -/
structure Restored (unit : KlipperUnit) (past : List Event) : Prop where
  started_iff : (ledger unit past).started = true ↔ (ledger unit past).first = some true
  unheld : (ledger unit past).started = true → (ledger unit past).held = false

/-- How a failure speaks of Klipper; `held` is whether it was held stopped at some earlier
point. -/
inductive Exit (unit : KlipperUnit) (held : Bool) (failure : RunFailure) (past : List Event) :
    Prop where
  | plain (hm : failure.message = failure.detail) (hh : (ledger unit past).held = held)
  | unrestored (hm : Told failure none)
  | restored (result : Except CoordinatorError Unit) (hm : Told failure (some result))
      (hs : Restored unit past)

/-- What the loop's state and the ledger agree on between two targets. -/
structure Between (unit : KlipperUnit) (state : RunState) (past : List Event) : Prop where
  observed : (ledger unit past).first = state.firstObservedActive
  started : (ledger unit past).started = false
  finishing : (ledger unit past).finishing = false
  idle : state.printerChecked = true → FoundIdle past
  unheld : state.printerChecked = false → (ledger unit past).held = false

section Failures

variable {α : Type} {detail message : Str} {mcu : Option Str} {updated : List Str} {held : Bool}

theorem failWithDetail_spec {R : RunFailure → List Event → Prop}
    (h : ∀ answer, R ⟨message, detail, mcu, updated⟩
      (past ++ [⟨.hook (.failed detail), answer⟩])) {Q : α → List Event → Prop} :
    (discipline unit).EnsuresOr (failWithDetail detail message mcu updated) past Q R := by
  unfold failWithDetail
  rw [ensuresOr_bind, ensuresOr_hook]
  refine ⟨permitted_quiet rfl, ?_⟩
  rintro answer _ rfl
  exact h answer

theorem fail_spec {past : List Event} (hh : (ledger unit past).held = held)
    {Q : α → List Event → Prop} :
    (discipline unit).EnsuresOr (fail message mcu updated) past Q (Exit unit held) := by
  refine failWithDetail_spec fun answer => .plain rfl ?_
  rw [ledger_append, next_quiet rfl]
  exact hh

theorem postFlashFailure_spec {Q : α → List Event → Prop} :
    (discipline unit).EnsuresOr (postFlashFailure detail mcu updated) past Q (Exit unit held) :=
  failWithDetail_spec fun _ => .unrestored rfl

theorem failRestored_spec {result : Except CoordinatorError Unit}
    (hs : Restored unit past) {Q : α → List Event → Prop} :
    (discipline unit).EnsuresOr
      (failWithDetail detail (failureMessage .update detail (some result)) mcu updated) past Q
      (Exit unit held) := by
  refine failWithDetail_spec fun answer => .restored result rfl ⟨?_, ?_⟩
  · rw [ledger_append, next_quiet rfl]
    exact hs.started_iff
  · rw [ledger_append, next_quiet rfl]
    exact hs.unheld

end Failures

section Restore

variable {coordinator : BuildCoordinator} {first : Option Bool}

/-- Klipper was started; `active` is whether the first observed state was active before. -/
structure Started (unit : KlipperUnit) (active : Prop) (past : List Event) : Prop where
  started : (ledger unit past).started = true
  unheld : (ledger unit past).held = false
  first : active → (ledger unit past).first = some true

theorem Started.of_start {answer : Except CommandError CommandOutput} :
    Started unit ((ledger unit past).first = some true)
      (past ++ [serviceEvent unit "start" answer]) := by
  refine ⟨?_, ?_, fun h => ?_⟩
  · rw [ledger_append, next_start]
    rfl
  · rw [ledger_append, next_start]
    rfl
  · rw [ledger_append, next_start]
    exact h

theorem Started.observe {active : Prop} (h : Started unit active past)
    (answer : Except CommandError CommandOutput) :
    Started unit active (past ++ [serviceEvent unit "is-active" answer]) := by
  cases answer with
  | error error =>
      have hl : ledger unit (past ++ [serviceEvent unit "is-active" (.error error)]) =
          ledger unit past := by rw [ledger_append, next_query]; rfl
      exact ⟨hl ▸ h.started, hl ▸ h.unheld, fun ha => hl ▸ h.first ha⟩
  | ok output =>
      have hl : ledger unit (past ++ [serviceEvent unit "is-active" (.ok output)]) =
          (ledger unit past).observe (ServiceState.ofOutput output.stdout) := by
        rw [ledger_append, next_query]
        rfl
      refine ⟨hl ▸ h.started, hl ▸ h.unheld, fun ha => ?_⟩
      rw [hl, Ledger.observe, h.first ha]
      rfl

theorem startAndVerify_spec (hd : (ledger coordinator.unit past).declined = false)
    (hf : (ledger coordinator.unit past).finishing = true ∨
      (ledger coordinator.unit past).first = some true) :
    (discipline coordinator.unit).EnsuresOr coordinator.startAndVerify past
      (fun _ => Started coordinator.unit ((ledger coordinator.unit past).first = some true))
      fun _ => Started coordinator.unit ((ledger coordinator.unit past).first = some true) := by
  unfold BuildCoordinator.startAndVerify
  rw [ensuresOr_bind, ensuresOr_adapt]
  refine runStateChange_spec (permitted_start hd hf) (fun output _ => ?_)
    fun e answer => .of_start
  have hdeclined : (ledger coordinator.unit
      (past ++ [serviceEvent coordinator.unit "start" (.ok output)])).declined = false := by
    rw [ledger_append, next_start]
    exact hd
  rw [ensuresOr_bind, ensuresOr_adapt]
  refine state_spec hdeclined (fun output => ?_) fun e error => Started.of_start.observe _
  cases ServiceState.ofOutput output.stdout with
  | active => exact Started.of_start.observe _
  | inactive => exact Started.of_start.observe _
  | failed => exact Started.of_start.observe _
  | transitioning state => exact Started.of_start.observe _
  | unknown state => exact Started.of_start.observe _

theorem restoreAfterFailure_spec (hd : (ledger coordinator.unit past).declined = false)
    (hn : (ledger coordinator.unit past).started = false)
    (hf : (ledger coordinator.unit past).first = first) :
    (discipline coordinator.unit).Ensures (coordinator.restoreAfterFailure first).run past
      fun _ => Restored coordinator.unit := by
  have hrestored : ∀ {past'}, first = some true →
      Started coordinator.unit ((ledger coordinator.unit past).first = some true) past' →
        Restored coordinator.unit past' := fun he h =>
    ⟨⟨fun _ => h.first (hf.trans he), fun _ => h.started⟩, fun _ => h.unheld⟩
  unfold BuildCoordinator.restoreAfterFailure
  split
  · rename_i hne
    refine ⟨⟨fun h => ?_, fun h => absurd (hf.symm.trans h) hne⟩, fun h => ?_⟩
    · rw [hn] at h
      cases h
    · rw [hn] at h
      cases h
  · rename_i he
    have hfirst := not_not.1 he
    refine Ensures.mono (startAndVerify_spec hd (.inr (hf.trans hfirst))) fun r past' hpost => ?_
    cases r with
    | ok _ => exact hrestored hfirst hpost
    | error e => exact hrestored hfirst hpost

end Restore

section Targets

variable {first : Option Bool} {name : Str} {mcu : Mcu} {pending : PendingBuild} {held : Bool}

/-- A marker of the loop, which every state permits. -/
theorem ensuresOr_marker {ε α : Type} {call : HookCall} {f : HookAnswer call → HostAttempt ε α}
    {Q : α → List Event → Prop} {R : ε → List Event → Prop}
    (h : ∀ answer, (discipline unit).EnsuresOr (f answer)
      (past ++ [⟨.hook call, answer⟩]) Q R) :
    (discipline unit).EnsuresOr (hook call >>= f) past Q R := by
  rw [ensuresOr_bind, ensuresOr_hook]
  refine ⟨permitted_other rfl, ?_⟩
  rintro answer _ rfl
  exact h answer

/-- An attempt of which the loop sees the result. -/
theorem Quiet.spec_bind {ε ε' α β : Type} {x : HostAttempt ε' α}
    {f : Except ε' α → HostAttempt ε β} {Q : β → List Event → Prop} {R : ε → List Event → Prop}
    (hx : Quiet x) (h : ∀ result past', Unchanged unit past past' →
      (discipline unit).EnsuresOr (f result) past' Q R) :
    (discipline unit).EnsuresOr (ExceptT.lift x.run >>= f) past Q R := by
  rw [ensuresOr_bind, ensuresOr_lift]
  exact hx.spec_lift.mono fun result past' hU => h result past' hU

theorem Ready.between (h : Ready unit first past) (updated : List Str) :
    Between unit ⟨first, updated, true⟩ past :=
  ⟨h.working.observed, h.working.started, h.working.finishing, fun _ => h.idle, nofun⟩

omit [Semver V] in
theorem concludeFlash_spec {flashed : Observed FlashCoordinatorError FlashResult}
    (h : Ready run.coordinator.unit flashed.1 past) (hc : state.printerChecked = true) :
    (discipline run.coordinator.unit).EnsuresOr (run.concludeFlash name mcu state flashed) past
      (Between run.coordinator.unit) (Exit run.coordinator.unit held) := by
  obtain ⟨first, error | flash⟩ := flashed
  · unfold concludeFlash
    rw [ensuresOr_bind, ensuresOr_perform]
    refine ⟨permitted_quiet rfl, ?_⟩
    rintro answer _ rfl
    have hw : Working first
        (ledger run.coordinator.unit (past ++ [⟨.flashFailed error, answer⟩])) :=
      (h.unchanged (Unchanged.refl.quiet rfl)).working
    by_cases ha : error.allowsKlipperRestore = true
    · rw [if_pos ha, ensuresOr_bind, ensuresOr_map, ensuresOr_lift]
      exact (restoreAfterFailure_spec hw.declined hw.started hw.observed).mono
        fun _ past' hs => failRestored_spec hs
    · rw [if_neg ha]
      exact failWithDetail_spec fun _ => .unrestored rfl
  · unfold concludeFlash
    refine ensuresOr_marker fun answer => ensuresOr_marker fun answer' => ?_
    refine Quiet.spec_bind waitForApplication_quiet fun result past' hU => ?_
    have hready : Ready run.coordinator.unit first past' :=
      (h.unchanged (.quiet (.quiet .refl (by rfl)) (by rfl))).unchanged hU
    cases result with
    | error message => exact postFlashFailure_spec
    | ok _ =>
        refine ensuresOr_marker fun answer => ?_
        obtain ⟨first', updated, checked⟩ := state
        obtain rfl : checked = true := hc
        exact (hready.unchanged (Unchanged.refl.quiet rfl)).between _

theorem flashTarget_spec
    (h : Ready run.coordinator.unit state.firstObservedActive past)
    (hc : state.printerChecked = true) :
    (discipline run.coordinator.unit).EnsuresOr (run.flashTarget J name mcu pending state) past
      (Between run.coordinator.unit) (Exit run.coordinator.unit held) := by
  unfold flashTarget
  split
  · rename_i prepare hprepare
    rw [ensuresOr_bind, ensuresOr_lift]
    apply (Downloads.spec (prepareAutomatic_downloads hprepare) h).mono
    intro result past' hready
    cases result with
    | ok request =>
        rw [ensuresOr_bind, ensuresOr_lift]
        exact (flashPrebuilt_spec hready).mono fun _ _ hflashed => concludeFlash_spec hflashed hc
    | error detail =>
        rw [ensuresOr_bind, ensuresOr_lift]
        have hw := hready.working
        exact (restoreAfterFailure_spec hw.declined hw.started hw.observed).mono
          fun _ _ hs => failRestored_spec hs
  · rw [ensuresOr_bind, ensuresOr_lift]
    refine (executeAndFlashSystem_spec h).mono fun result past' hflashed => ?_
    obtain ⟨first, completed⟩ := result
    exact concludeFlash_spec hflashed hc

/-- A printer that has to be checked, and is found idle, was found idle by then. -/
theorem checkPrinter_spec {β : Type} {f : RunState → HostAttempt RunFailure β}
    {Q : β → List Event → Prop} (hh : (ledger unit past).held = held)
    (hi : state.printerChecked = true → FoundIdle past)
    (h : ∀ past', FoundIdle past' → Unchanged unit past past' →
      (discipline unit).EnsuresOr (f { state with printerChecked := true }) past' Q
        (Exit unit held)) :
    (discipline unit).EnsuresOr (checkPrinter name state >>= f) past Q (Exit unit held) := by
  obtain ⟨first, updated, checked⟩ := state
  unfold checkPrinter
  rw [ensuresOr_bind, ensuresOr_ite]
  refine ⟨fun hc => ?_, fun hc => ?_⟩
  · obtain rfl : checked = true := hc
    exact h past (hi rfl) .refl
  · rw [ensuresOr_bind, ensuresOr_lift]
    apply (Quiet.spec_lift ensurePrinterIdle_quiet).traced.mono
    rintro result _ ⟨hU, tr, rfl, hr⟩
    cases result with
    | error message => exact fail_spec (hU.2 ▸ hh)
    | ok _ => exact h (past ++ tr) ⟨past, tr, [], by simp, hr⟩ hU

theorem updateApproved_spec (hh : (ledger run.coordinator.unit past).held = held)
    (hi : state.printerChecked = true → FoundIdle past)
    (h : Working state.firstObservedActive (ledger run.coordinator.unit past)) :
    (discipline run.coordinator.unit).EnsuresOr (run.updateApproved J name mcu state) past
      (Between run.coordinator.unit) (Exit run.coordinator.unit held) := by
  unfold updateApproved
  refine Quiet.spec_bind prepare_quiet fun prepared past' hU => ?_
  cases prepared with
  | error error => exact fail_spec (hU.2 ▸ hh)
  | ok pending =>
      refine checkPrinter_spec (hU.2 ▸ hh) (fun hc => (hi hc).mono hU.1) ?_
      intro past'' hidle hU'
      refine flashTarget_spec ⟨hidle, ?_⟩ rfl
      rw [hU'.2, hU.2]
      exact h

/-- A target that was declined, or updated, leaves the loop where the next one may begin. -/
theorem runTarget_spec (h : Between run.coordinator.unit state past) :
    (discipline run.coordinator.unit).EnsuresOr (run.runTarget J name state) past
      (Between run.coordinator.unit)
      (Exit run.coordinator.unit (ledger run.coordinator.unit past).held) := by
  unfold runTarget
  split
  · exact fail_spec rfl
  · rename_i mcu hfind
    split
    · exact fail_spec rfl
    · refine ensuresOr_marker fun answer => ?_
      have hidle : state.printerChecked = true → FoundIdle (past ++ [⟨.hook (.approve name
          (mcu.version.getD "unknown") (run.targetVersions.labelFor mcu)), answer⟩]) :=
        fun hc => (h.idle hc).mono (List.prefix_append _ _)
      cases answer with
      | false =>
          refine ⟨?_, ?_, ?_, hidle, ?_⟩
          · rw [ledger_append]
            exact h.observed
          · rw [ledger_append]
            exact h.started
          · rw [ledger_append]
            exact h.finishing
          · rw [ledger_append]
            exact h.unheld
      | true =>
          refine updateApproved_spec ?_ hidle ?_
          · rw [ledger_append]
            rfl
          · rw [ledger_append]
            exact ⟨List.cons_ne_nil _ _, h.observed, h.started, rfl, h.finishing⟩

theorem runTargets_spec (targets : List Str) (h : Between run.coordinator.unit state past) :
    (discipline run.coordinator.unit).EnsuresOr (run.runTargets J targets state) past
      (Between run.coordinator.unit) fun failure past' =>
        ∃ held, Exit run.coordinator.unit held failure past' := by
  induction targets generalizing state past with
  | nil => exact h
  | cons name rest ih =>
      unfold runTargets
      rw [ensuresOr_bind]
      exact (runTarget_spec h).mono (fun _ _ hnext => ih hnext) fun _ _ hexit => ⟨_, hexit⟩

/-- Once Klipper was started, a failure leaves it running. -/
theorem finishRun_spec {updated : List Str} :
    (discipline run.coordinator.unit).EnsuresOr (run.finishRun updated) past
      (fun _ _ => True) (Exit run.coordinator.unit false) := by
  unfold finishRun
  rw [ensuresOr_ite]
  refine ⟨fun _ => True.intro, fun _ => ensuresOr_marker fun answer => ?_⟩
  have hl : ledger run.coordinator.unit (past ++ [⟨.hook (.stepStarted .startKlipper), answer⟩]) =
      { ledger run.coordinator.unit past with declined := false, finishing := true } :=
    ledger_append _ _ _
  rw [ensuresOr_bind, ensuresOr_lift]
  have hstart : (discipline run.coordinator.unit).EnsuresOr run.coordinator.startAndVerify _ _ _ :=
    startAndVerify_spec (by rw [hl]) (by rw [hl]; exact .inl rfl)
  apply Ensures.mono hstart
  intro result past' hresult
  cases result with
  | error error => exact postFlashFailure_spec
  | ok _ =>
      refine ensuresOr_marker fun answer => ensuresOr_marker fun answer' => ?_
      refine Quiet.spec_bind waitForMcus_quiet fun result past'' hU => ?_
      cases result with
      | error message =>
          apply fail_spec
          rw [hU.2, ledger_append, next_quiet rfl, ledger_append, next_quiet rfl]
          exact hresult.unheld
      | ok _ => exact ensuresOr_marker fun _ => True.intro

theorem between_start : Between unit .start [] := by
  refine ⟨rfl, rfl, rfl, fun h => ?_, fun _ => rfl⟩
  cases h

/-- Every call of a run keeps its discipline, and a failed one has an exit. -/
theorem runUpdates_spec : (discipline run.coordinator.unit).EnsuresOr (run.runUpdates J) []
    (fun _ _ => True) fun failure past => ∃ held, Exit run.coordinator.unit held failure past := by
  unfold runUpdates
  rw [ensuresOr_bind]
  exact (runTargets_spec run.targets between_start).mono
    (fun _ _ _ => finishRun_spec.mono (fun _ _ hQ => hQ) fun _ _ hexit => ⟨_, hexit⟩)
    fun _ _ hexit => hexit

theorem between_of_runs {done : List Str} {pre : List Event}
    (hr : Runs (run.runTargets J done .start).run pre (.ok state)) :
    Between run.coordinator.unit state pre :=
  (runTargets_spec done between_start).audited hr

theorem exit_of_runs {tr : List Event} {failure : RunFailure}
    (hr : Runs (run.runUpdates J).run tr (.error failure)) :
    ∃ held, Exit run.coordinator.unit held failure tr :=
  Ensures.audited runUpdates_spec hr

theorem permitted_of_runs {tr pre post : List Event} {ev : Event}
    {result : Except RunFailure (List Str)} (hr : Runs (run.runUpdates J).run tr result)
    (he : tr = pre ++ ev :: post) : Permitted run.coordinator.unit pre ev.1 := by
  subst he
  exact Ensures.audited_permits runUpdates_spec hr

end Targets

end Aldis.UpdateRun

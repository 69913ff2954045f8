import Aldis.UpdateRun.Safety

/-!
# What a failed run says of Klipper

A run that fails while it holds Klipper stopped says so, or tried to restore it, except where
the loop ends at a target it could not look up, would not downgrade or could not prepare.
-/

namespace Aldis.UpdateRun

open Interaction World Attempt Text Octets

variable {V : Type} [Semver V]

/-- The hook approved the target `name` as the first thing in `post`. -/
def Approved (name : Str) (post : List Event) : Prop :=
  ∃ current next, post.head? = some ⟨.hook (.approve name current next), true⟩

/-- An approved target has no name, reports a Kconfig that is not accepted, or gets no directory
of the run's workspace. -/
def Unprepared (mcu : Mcu) (name : Str) (post : List Event) : Prop :=
  name = [] ∨ Kconfig.validate mcu.kconfig ≠ .ok () ∨
    ∃ path error, (⟨.file (.createDirAll path), .error error⟩ : Event) ∈ (post.drop 1).take 2

/-- A target at which the loop stops before it looks at the printer; `post` is what follows from
where the target is reached. -/
def Blocked (run : UpdateRun V) (name : Str) (post : List Event) : Prop :=
  run.inventory.find name = none ∨ ∃ mcu, run.inventory.find name = some mcu ∧
    ((Eligibility.downgradeRefusal mcu run.targetVersions).isSome = true ∨
      Approved name post ∧ Unprepared mcu name post)

section Prepare

variable {inventory : McuInventory} {workspace : RunWorkspace} {name : Str} {clean : Bool}
  {mcu : Mcu}

/-- The directories of a target are made in two calls, unless the first one fails. -/
theorem buildPaths_runs :
    recording.EnsuresOr (workspace.buildPaths name) []
      (fun _ tr => name ≠ [] ∧ ∃ path path', tr =
        [⟨.file (.createDirAll path), .ok ()⟩, ⟨.file (.createDirAll path'), .ok ()⟩])
      fun _ tr => name = [] ∨ ∃ path error,
        (⟨.file (.createDirAll path), .error error⟩ : Event) ∈ tr.take 2 := by
  unfold RunWorkspace.buildPaths
  rw [ensuresOr_ite]
  refine ⟨fun h => .inl h, fun h => ?_⟩
  simp only [ensuresOr_bind, ensuresOr_fileCall, recording_permits, recording_step, true_and]
  rintro answer _ rfl
  cases answer with
  | error error => exact .inr ⟨_, error, List.mem_cons_self⟩
  | ok u =>
      change ∀ r s', _ → _
      rintro answer _ rfl
      cases answer with
      | error error => exact .inr ⟨_, error, List.mem_cons_of_mem _ List.mem_cons_self⟩
      | ok u => exact ⟨h, _, _, rfl⟩

theorem prepare_runs (hf : inventory.find name = some mcu) :
    recording.EnsuresOr (BuildCoordinator.prepare inventory workspace name clean) []
      (fun _ tr => ∀ ev more, ¬ Unprepared mcu name (ev :: (tr ++ more)))
      fun _ tr => ∀ ev more, Unprepared mcu name (ev :: (tr ++ more)) := by
  unfold BuildCoordinator.prepare
  rw [ensuresOr_bind, ensuresOr_adapt]
  apply buildPaths_runs.mono
  · rintro paths tr ⟨hname, path, path', rfl⟩
    rw [ensuresOr_bind, ensuresOr_check]
    constructor
    · intro prepared hprepared ev more
      obtain ⟨mcu', hf', hvalid, -⟩ := prepareBuild_ok hprepared
      obtain rfl := Option.some.inj (hf.symm.trans hf')
      rintro (hn | hk | ⟨p, error, hmem⟩)
      · exact hname hn
      · exact hk hvalid
      · simp at hmem
    · intro error herror ev more
      refine .inr (.inl fun hvalid => ?_)
      simp [prepareBuild, hf, hvalid] at herror
  · rintro error tr (hn | ⟨path, error', hmem⟩) ev more
    · exact .inl hn
    · refine .inr (.inr ⟨path, error', ?_⟩)
      rw [List.drop_one, List.tail_cons, List.take_append]
      exact List.mem_append_left _ hmem

end Prepare

variable {J : Type} [DictionaryReader J] {run : UpdateRun V} {name : Str} {state : RunState}

section Told

def Reports (failure : RunFailure) : Prop := ∃ restore, Told failure restore

theorem failWithDetail_told {α : Type} {detail : Str} {mcu : Option Str} {updated : List Str}
    {restore : Option (Except CoordinatorError Unit)} :
    (failWithDetail detail (failureMessage .update detail restore) mcu updated :
      HostAttempt RunFailure α).Makes (fun _ => True) Reports :=
  .bind (makes_hook.2 True.intro) fun _ => ⟨restore, rfl⟩

theorem makes_lift_bind {ε α β : Type} {p : HostProgram α} {f : α → HostAttempt ε β}
    {R : ε → Prop} (h : ∀ a, Makes (fun _ => True) R (f a)) :
    Makes (fun _ => True) R (ExceptT.lift p >>= f) :=
  .bind ((makes_lift p).2 (ensures_confined_top (fun _ => True.intro) p ())) h

omit [Semver V] in
theorem concludeFlash_reports {mcu : Mcu}
    {flashed : Observed FlashCoordinatorError FlashResult} :
    (run.concludeFlash name mcu state flashed).Makes (fun _ => True) Reports := by
  obtain ⟨first, error | flash⟩ := flashed
  · refine .bind ((makes_perform _).2 True.intro) fun _ => ?_
    rw [makes_ite]
    refine ⟨fun _ => ?_, fun _ => failWithDetail_told⟩
    rw [← bind_pure_comp, bind_assoc]
    exact makes_lift_bind fun _ => failWithDetail_told
  · refine .bind (makes_hook.2 True.intro) fun _ => ?_
    refine .bind (makes_hook.2 True.intro) fun _ => ?_
    refine makes_lift_bind fun result => ?_
    cases result with
    | error message => exact failWithDetail_told
    | ok _ => exact .bind (makes_hook.2 True.intro) fun _ => makes_pure _

theorem flashTarget_reports {mcu : Mcu} {pending : PendingBuild} :
    (run.flashTarget J name mcu pending state).Makes (fun _ => True) Reports := by
  unfold flashTarget
  split
  · refine makes_lift_bind fun result => ?_
    cases result with
    | ok request => exact makes_lift_bind fun _ => concludeFlash_reports
    | error detail => exact makes_lift_bind fun _ => failWithDetail_told
  · exact makes_lift_bind fun _ => concludeFlash_reports

/-- Once a target was prepared, only the first look at the printer ends the loop in silence. -/
theorem checkedFlash_reports {mcu : Mcu} {pending : PendingBuild} :
    (do let state ← checkPrinter name state
        run.flashTarget J name mcu pending state).Makes (fun _ => True) fun failure =>
      Reports failure ∨ state.printerChecked = false := by
  have hcheck : (checkPrinter name state).Makes (fun _ => True) fun failure =>
      Reports failure ∨ state.printerChecked = false := by
    unfold checkPrinter
    rw [makes_ite]
    refine ⟨fun _ => makes_pure _, fun hc => makes_lift_bind fun result => ?_⟩
    cases result with
    | ok _ => exact makes_pure _
    | error message =>
        exact .bind (makes_hook.2 True.intro) fun _ => .inr (Bool.eq_false_iff.2 hc)
  exact .bind hcheck fun _ => flashTarget_reports.mono (fun _ h => h) fun _ h => .inl h

end Told

section Exits

/-- Whether a target is blocked shows in its first calls, whatever follows them. -/
def Blocks (run : UpdateRun V) (name : Str) (post : List Event) : Prop :=
  ∀ more, Blocked run name (post ++ more)

def Clears (run : UpdateRun V) (name : Str) (post : List Event) : Prop :=
  ∀ more, ¬ Blocked run name (post ++ more)

theorem Clears.append {post : List Event} (h : Clears run name post) (tr : List Event) :
    Clears run name (post ++ tr) := by
  intro more
  rw [List.append_assoc]
  exact h _

/-- A blocked target ends the loop with a plain message; any other that ends it reports what
became of Klipper, or was the first to need an idle printer. -/
inductive Stopped (run : UpdateRun V) (name : Str) (state : RunState) (failure : RunFailure)
    (post : List Event) : Prop where
  | blocked (hb : Blocks run name post) (hm : failure.message = failure.detail)
  | cleared (hc : Clears run name post)
      (hr : Reports failure ∨ state.printerChecked = false)

theorem fail_stopped {α : Type} {message : Str} {mcu : Option Str} {updated : List Str}
    {past : List Event} {Q : α → List Event → Prop}
    (hb : ∀ post, Blocks run name (past ++ post)) :
    recording.EnsuresOr (fail message mcu updated) past Q (Stopped run name state) := by
  unfold fail failWithDetail
  rw [ensuresOr_bind, ensuresOr_hook]
  refine ⟨True.intro, ?_⟩
  rintro answer _ rfl
  exact .blocked (hb _) rfl

theorem updateApproved_stopped {mcu : Mcu} {current next : Str}
    (hf : run.inventory.find name = some mcu)
    (hr : Eligibility.downgradeRefusal mcu run.targetVersions = none) :
    recording.EnsuresOr (run.updateApproved J name mcu state)
      [⟨.hook (.approve name current next), true⟩]
      (fun _ => Clears run name) (Stopped run name state) := by
  unfold updateApproved
  rw [ensuresOr_bind, ensuresOr_lift]
  apply (ensures_recording _ _).mono
  rintro prepared _ ⟨tr, rfl, hruns⟩
  have hspec := (prepare_runs hf).recorded hruns
  cases prepared with
  | error error =>
      refine fail_stopped fun post more => .inr ⟨mcu, hf, .inr ⟨⟨current, next, rfl⟩, ?_⟩⟩
      have hu := hspec ⟨.hook (.approve name current next), true⟩ (post ++ more)
      simpa only [List.append_assoc, List.cons_append, List.nil_append] using hu
  | ok pending =>
      have hclears : Clears run name ([⟨.hook (.approve name current next), true⟩] ++ tr) := by
        intro more hb
        rcases hb with hnone | ⟨mcu', hf', hd | ⟨-, hu⟩⟩
        · cases hf.symm.trans hnone
        · obtain rfl := Option.some.inj (hf.symm.trans hf')
          rw [hr] at hd
          cases hd
        · obtain rfl := Option.some.inj (hf.symm.trans hf')
          refine hspec ⟨.hook (.approve name current next), true⟩ more ?_
          simpa only [List.append_assoc, List.cons_append, List.nil_append] using hu
      refine (checkedFlash_reports.ensuresOr (I := Clears run name) hclears ?_).mono
        (fun _ _ hQ => hQ) fun _ _ hR => .cleared hR.1 hR.2
      intro past call hI _
      refine ⟨True.intro, ?_⟩
      rintro answer _ rfl
      exact hI.append _

theorem runTarget_stopped : recording.EnsuresOr (run.runTarget J name state) []
    (fun _ => Clears run name) (Stopped run name state) := by
  unfold runTarget
  split
  · rename_i hf
    exact fail_stopped fun _ _ => .inl hf
  · rename_i mcu hf
    split
    · rename_i refusal hrefusal
      exact fail_stopped fun _ _ => .inr ⟨mcu, hf, .inl (by rw [hrefusal]; rfl)⟩
    · rename_i hrefusal
      rw [ensuresOr_bind, ensuresOr_hook]
      refine ⟨True.intro, ?_⟩
      rintro answer _ rfl
      cases answer with
      | true => exact updateApproved_stopped hf hrefusal
      | false =>
          intro more hb
          rcases hb with hnone | ⟨mcu', hf', hd | ⟨⟨current, next, happroved⟩, -⟩⟩
          · cases hf.symm.trans hnone
          · obtain rfl := Option.some.inj (hf.symm.trans hf')
            rw [hrefusal] at hd
            cases hd
          · cases happroved

end Exits

section Loop

theorem runTargets_append (done rest : List Str) (state : RunState) :
    run.runTargets J (done ++ rest) state =
      run.runTargets J done state >>= run.runTargets J rest := by
  induction done generalizing state with
  | nil => exact (pure_bind _ _).symm
  | cons name done ih =>
      simp only [List.cons_append, runTargets, bind_assoc]
      exact congrArg _ (funext fun state => ih state)

/-- A loop that fails does so at one of its targets. -/
theorem runTargets_error {targets : List Str} {tr : List Event} {failure : RunFailure}
    (h : Runs (run.runTargets J targets state).run tr (.error failure)) :
    ∃ done name rest pre post state', targets = done ++ name :: rest ∧ tr = pre ++ post ∧
      Runs (run.runTargets J done state).run pre (.ok state') ∧
        Runs (run.runTarget J name state').run post (.error failure) := by
  induction targets generalizing state tr with
  | nil =>
      obtain ⟨-, he⟩ := runs_pure_iff.1 h
      cases he
  | cons name rest ih =>
      rcases runs_attempt_bind_iff.1 h with ⟨e, he, hname⟩ | ⟨state', pre, post, rfl, hname, hrest⟩
      · cases he
        exact ⟨[], name, rest, [], tr, state, rfl, rfl, .pure _, hname⟩
      · obtain ⟨done, name', rest', pre', post', state'', rfl, rfl, hdone, hfail⟩ := ih hrest
        refine ⟨name :: done, name', rest', pre ++ pre', post', state'', rfl,
          (List.append_assoc ..).symm, ?_, hfail⟩
        exact runs_attempt_bind_iff.2 (.inr ⟨state', pre, pre', rfl, hname, hdone⟩)

/-- The target `name` is reached in the run `tr` while Klipper is held stopped, and `post` is
what follows. -/
structure ReachedHeld (J : Type) [DictionaryReader J] (run : UpdateRun V) (tr : List Event)
    (name : Str) (post : List Event) : Prop where
  reached : ∃ done rest pre state, run.targets = done ++ name :: rest ∧ tr = pre ++ post ∧
    Runs (run.runTargets J done .start).run pre (.ok state) ∧
      (ledger run.coordinator.unit pre).held = true

variable {tr : List Event} {failure : RunFailure}

/-- A run that reaches a blocked target fails there, with a plain message. -/
theorem plain_of_blocked (hr : Runs (run.runUpdates J).run tr (.error failure))
    {post : List Event} (h : ReachedHeld J run tr name post) (hb : Blocked run name post) :
    failure.message = failure.detail := by
  obtain ⟨done, rest, pre, state, htargets, rfl, hdone, -⟩ := h.reached
  unfold runUpdates at hr
  rw [htargets, runTargets_append, bind_assoc] at hr
  have hrest := hr.of_attempt_prefix hdone
  rw [runTargets, bind_assoc] at hrest
  rcases runs_attempt_bind_iff.1 hrest with ⟨e, he, hname⟩ | ⟨state', p, q, rfl, hname, -⟩
  · cases he
    have hstopped := runTarget_stopped.recorded hname
    cases hstopped with
    | blocked _ hm => exact hm
    | cleared hc _ => exact absurd (by rwa [List.append_nil]) (hc [])
  · exact absurd hb (runTarget_stopped.recorded hname q)

/-- A run that fails at a target it reached with Klipper held reports it unless the target is
blocked; `held` is what the failure leaves it at. -/
theorem exit_of_failed_target {pre post : List Event} {state' : RunState}
    (hdone : Runs (run.runTargets J done .start).run pre (.ok state'))
    (hfail : Runs (run.runTarget J name state').run post (.error failure))
    (hh : (ledger run.coordinator.unit (pre ++ post)).held = true) :
    Reports failure ∨
      (ledger run.coordinator.unit pre).held = true ∧ Blocks run name post := by
  have hbetween := between_of_runs hdone
  have hexit := (runTarget_spec hbetween).audited hfail
  cases hexit with
  | unrestored hm => exact .inl ⟨none, hm⟩
  | restored result hm _ => exact .inl ⟨some result, hm⟩
  | plain hm hheld =>
      rw [hh] at hheld
      have hstopped := runTarget_stopped.recorded hfail
      cases hstopped with
      | blocked hb _ => exact .inr ⟨hheld.symm, hb⟩
      | cleared _ hr =>
          rcases hr with hr | hc
          · exact .inl hr
          · have hu := hbetween.unheld hc
            rw [← hheld] at hu
            cases hu

/-- A run that fails while it holds Klipper stopped reports what became of Klipper exactly where
no target that it reached with Klipper held is blocked; if Klipper was active at first, it says
that Klipper may still be stopped. -/
theorem held_is_reported_iff (hr : Runs (run.runUpdates J).run tr (.error failure))
    (hh : (ledger run.coordinator.unit tr).held = true) :
    ((∃ restore, Told failure restore) ↔
      ∀ name post, ReachedHeld J run tr name post → ¬ Blocked run name post) ∧
    (firstObserved run.coordinator.unit tr = some .active → (Told failure none ↔
      ∀ name post, ReachedHeld J run tr name post → ¬ Blocked run name post)) := by
  obtain ⟨held, hexit⟩ := exit_of_runs hr
  have hiff : Reports failure ↔
      ∀ name post, ReachedHeld J run tr name post → ¬ Blocked run name post := by
    constructor
    · rintro ⟨restore, htold⟩ name post hreached hb
      exact htold.ne_detail (plain_of_blocked hr hreached hb)
    · intro hclear
      rcases runs_attempt_bind_iff.1 hr with ⟨e, he, hloop⟩ | ⟨state, pre, post, rfl, hloop, hend⟩
      · cases he
        obtain ⟨done, name, rest, pre, post, state', htargets, rfl, hdone, hfail⟩ :=
          runTargets_error hloop
        rcases exit_of_failed_target hdone hfail hh with hreports | ⟨hheld, hb⟩
        · exact hreports
        · have hreached : ReachedHeld J run (pre ++ post) name post :=
            ⟨done, rest, pre, state', htargets, rfl, hdone, hheld⟩
          have hblocked := hb []
          rw [List.append_nil] at hblocked
          exact absurd hblocked (hclear name post hreached)
      · have hfinish : Exit run.coordinator.unit false failure (pre ++ post) :=
          finishRun_spec.audited hend
        cases hfinish with
        | plain _ hheld =>
            rw [hh] at hheld
            cases hheld
        | unrestored hm => exact ⟨none, hm⟩
        | restored result hm _ => exact ⟨some result, hm⟩
  refine ⟨hiff, fun hactive => ⟨fun htold => hiff.1 ⟨none, htold⟩, fun hclear => ?_⟩⟩
  obtain ⟨restore, htold⟩ := hiff.2 hclear
  cases hexit with
  | unrestored hm => exact hm
  | plain hm _ => exact absurd hm htold.ne_detail
  | restored result hm hs =>
      have hstarted := hs.started_iff.2 ((ledger_first_iff tr).2 hactive)
      have hheld := hs.unheld hstarted
      rw [hh] at hheld
      cases hheld

def shellDetail : Str :=
  "failed to prepare mcu shell for flashing: build preparation failed: refusing to build " ++
    "\"mcu shell\" from the Kconfig its firmware reports: line 1 of the MCU-reported Kconfig is " ++
    "not a plain Kconfig setting (value is not y, n, m, a number, or a safe quoted string): " ++
    "\"CONFIG_MACH_STM32=$(shell id)\""

def shellFailure : RunFailure where
  message := shellDetail
  detail := shellDetail
  mcu := some "mcu shell"
  updated := ["mcu host"]

theorem runs_shell : Runs ((hostRun ["mcu host", "mcu shell"]).runUpdates Unit).run
    (hostExecution ["mcu host", "mcu shell"]).1 (.error shellFailure) := by
  have hr := runs_hostExecution ["mcu host", "mcu shell"]
  have he : (hostExecution ["mcu host", "mcu shell"]).2 = .error shellFailure := by decide +kernel
  rwa [he] at hr

theorem shell_held :
    (ledger .default (hostExecution ["mcu host", "mcu shell"]).1).held = true := by
  decide +kernel

/-- Klipper is left stopped by this run, which says nothing of it and tries no restore. -/
theorem shell_fails_in_silence :
    ∃ tr failure, Runs ((hostRun ["mcu host", "mcu shell"]).runUpdates Unit).run tr
        (.error failure) ∧
      (ledger .default tr).held = true ∧
      contains "Klipper may still be stopped" failure.message = false ∧
      contains "failed to restore" failure.message = false ∧
      ¬ ∃ restore, Told failure restore := by
  refine ⟨_, shellFailure, runs_shell, shell_held, by decide +kernel, by decide +kernel, ?_⟩
  rintro ⟨restore, htold⟩
  exact htold.ne_detail rfl

theorem held_is_reported_iff_on_shell :
    (∃ restore, Told shellFailure restore) ↔
      ∀ name post, ReachedHeld Unit (hostRun ["mcu host", "mcu shell"])
        (hostExecution ["mcu host", "mcu shell"]).1 name post →
          ¬ Blocked (hostRun ["mcu host", "mcu shell"]) name post :=
  (held_is_reported_iff runs_shell shell_held).1

end Loop

end Aldis.UpdateRun

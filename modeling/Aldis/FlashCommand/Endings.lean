import Aldis.FlashCommand.Safety

/-!
# How the flash command ends

However the command ends, what it reports of Klipper is what it did: a Klipper that it stopped
and did not start again is named in the error, and one reported as restored was seen running or
was never stopped.
-/

namespace Aldis.Cli

open Interaction World Attempt UpdateRun Text Octets

/-- The end of a report that Klipper may have been left stopped. -/
def manualRestart : Str := ". Klipper may still be stopped; fix the issue, then restart it manually"

def Unstarted (unit : KlipperUnit) (tr : List CliEvent) : Prop :=
  ∀ ev ∈ hostEvents tr, act unit ev.1 ≠ .start

def StartAsked (unit : KlipperUnit) (tr : List CliEvent) : Prop :=
  ∃ answer, serviceEvent unit "start" answer ∈ hostEvents tr

/-- How a command that reached the flash ends, and what it has done by then. -/
inductive Ending {V : Type} (arguments : FlashArgs) (ready : ReadyFlash V) (tr : List CliEvent) :
    Except Cause Unit → Prop
  | unrestored (detail : Str) (h : Unstarted ready.coordinator.unit tr) :
      Ending arguments ready tr (.error (.leaf (failureMessage .flash detail none)))
  | untouched (detail : Str) (h : Unstarted ready.coordinator.unit tr)
      (hs : ∀ answer, serviceEvent ready.coordinator.unit "stop" answer ∉ hostEvents tr) :
      Ending arguments ready tr (.error (.leaf (failureMessage .flash detail (some (.ok ())))))
  | restored (detail : Str) (h : Spared arguments ready tr)
      (hs : lastObserved ready.coordinator.unit (hostEvents tr) = some .active) :
      Ending arguments ready tr (.error (.leaf (failureMessage .flash detail (some (.ok ())))))
  | restoreFailed (detail : Str) (error : CoordinatorError) (h : Spared arguments ready tr)
      (hs : StartAsked ready.coordinator.unit tr) :
      Ending arguments ready tr
        (.error (.leaf (failureMessage .flash detail (some (.error error)))))
  | lost (message : Str) (h : Unstarted ready.coordinator.unit tr) :
      Ending arguments ready tr
        (.error (.leaf (transferVerb ready.pending.prepared.request.kconfig ++
          " successfully but " ++ message ++ manualRestart)))
  | startFailed (error : CoordinatorError) (h : Returned arguments ready tr)
      (hs : StartAsked ready.coordinator.unit tr) :
      Ending arguments ready tr
        (.error (.leaf (transferVerb ready.pending.prepared.request.kconfig ++
          " successfully but Klipper failed to restart: " ++ errorChain error.cause)))
  | unready (message : Str) (h : Returned arguments ready tr)
      (hs : lastObserved ready.coordinator.unit (hostEvents tr) = some .active) :
      Ending arguments ready tr
        (.error (.leaf (transferVerb ready.pending.prepared.request.kconfig ++
          " successfully and Klipper started, but " ++ message)))
  | done (h : Returned arguments ready tr)
      (hs : lastObserved ready.coordinator.unit (hostEvents tr) = some .active) :
      Ending arguments ready tr (.ok ())

/-- The command's report, and that it warns of a Klipper that was left stopped. -/
structure Told {V : Type} (arguments : FlashArgs) (ready : ReadyFlash V) (tr : List CliEvent)
    (result : Except Cause Unit) : Prop where
  ending : Ending arguments ready tr result
  held : HeldStopped ready.coordinator.unit (hostEvents tr) →
    ∃ text, result = .error (.leaf (text ++ manualRestart))

section Parts

variable {ε α : Type} {unit : KlipperUnit} {tr : List CliEvent}

theorem calm_of_runs {T : ε → Prop} {x : CliAttempt ε α} {result : Except ε α}
    (hx : Makes Calm T x) (hr : Runs x.run tr result) : ∀ ev ∈ tr, Calm ev.1 :=
  (Ensures.calls hx.only hr).1

theorem runs_ui_bind_iff {call : UiCall} {f : UiAnswer call → CliAttempt ε α}
    {result : Except ε α} : Runs (ui call >>= f).run tr result ↔
      ∃ answer post, tr = ⟨.ui call, answer⟩ :: post ∧ Runs (f answer).run post result :=
  runs_perform_bind_iff

/-- A line on the terminal, and what follows it. -/
theorem runs_ui_bind {call : UiCall} {f : UiAnswer call → CliAttempt ε α} {result : Except ε α}
    (hr : Runs (ui call >>= f).run tr result) : ∃ answer pre post, tr = pre ++ post ∧
      (∀ ev ∈ pre, Calm ev.1) ∧ Runs (f answer).run post result := by
  obtain ⟨answer, post, rfl, hnext⟩ := runs_ui_bind_iff.1 hr
  exact ⟨answer, [_], post, rfl, List.forall_mem_singleton.2 rfl, hnext⟩

theorem runs_refuse {reason : Str} {result : Except Cause α}
    (hr : Runs (refuse reason : CliAttempt Cause α).run tr result) :
    (∀ ev ∈ tr, Calm ev.1) ∧ result = .error (.leaf reason) := by
  refine ⟨calm_of_runs (makes_refuse (T := fun _ => True) rfl True.intro) hr, ?_⟩
  obtain ⟨_, post, rfl, hthrow⟩ := runs_ui_bind_iff.1 hr
  exact (runs_pure_iff.1 hthrow).2

theorem runs_ui_refuse {call : UiCall} {reason : Str} {result : Except Cause α}
    (hr : Runs (ui call >>= fun _ => (refuse reason : CliAttempt Cause α)).run tr result) :
    (∀ ev ∈ tr, Calm ev.1) ∧ result = .error (.leaf reason) := by
  obtain ⟨_, pre, post, rfl, hpre, hrefuse⟩ := runs_ui_bind hr
  obtain ⟨hcalm, rfl⟩ := runs_refuse hrefuse
  exact ⟨List.forall_mem_append.2 ⟨hpre, hcalm⟩, rfl⟩

theorem runs_ui {call : UiCall} {result : Except ε (UiAnswer call)}
    (hr : Runs (ui call : CliAttempt ε (UiAnswer call)).run tr result) :
    (∀ ev ∈ tr, Calm ev.1) ∧ ∃ answer, result = .ok answer := by
  refine ⟨calm_of_runs (T := fun _ => True) (makes_ui.2 rfl) hr, ?_⟩
  obtain ⟨answer, he, -⟩ := runs_lift_iff.1 hr
  exact ⟨answer, he⟩

theorem unstarted_of_calm (h : ∀ ev ∈ tr, Calm ev.1) : Unstarted unit tr :=
  fun ev hev => (works_hostEvents (works_of_calm h) ev hev).2.2

theorem unstopped_of_calm (h : ∀ ev ∈ tr, Calm ev.1) {answer : Except CommandError CommandOutput} :
    serviceEvent unit "stop" answer ∉ hostEvents tr :=
  fun hmem => (works_hostEvents (works_of_calm h) _ hmem).2.1 act_stop

theorem Unstarted.append {tr' : List CliEvent} (h : Unstarted unit tr) (h' : Unstarted unit tr') :
    Unstarted unit (tr ++ tr') := by
  unfold Unstarted
  rw [hostEvents_append]
  exact List.forall_mem_append.2 ⟨h, h'⟩

structure Started (unit : KlipperUnit) (result : Except CoordinatorError Unit)
    (tr : List CliEvent) : Prop where
  course : ∃ answer rest, hostEvents tr = serviceEvent unit "start" answer :: rest ∧
    (∀ ev ∈ rest, act unit ev.1 ≠ .stop) ∧
      (result = .ok () → ∃ output, rest = [serviceEvent unit "is-active" (.ok output)] ∧
        ServiceState.ofOutput output.stdout = .active)

theorem started_of_runs {coordinator : BuildCoordinator} {result : Except CoordinatorError Unit}
    (hr : Runs (asHost flashHooks coordinator.startAndVerify).run tr result) :
    Started coordinator.unit result tr := by
  obtain ⟨host, hstart, ht⟩ := runs_attempt_handle_iff.1 hr
  obtain ⟨answer, rest, rfl, hactive⟩ := startAndVerify_course hstart
  have hevents := hostEvents_of_answered flashHooks_terminal ht
  refine ⟨answer, effects rest, hevents, fun ev hev => ?_, fun hok => ?_⟩
  · rcases (Ensures.calls startAndVerify_calls.only hstart).1 ev
      (List.mem_cons_of_mem _ (List.mem_of_mem_filter hev)) with he | he
    · rw [he, act_start]
      nofun
    · rw [he, act_query]
      nofun
  · obtain ⟨output, rfl, houtput⟩ := hactive hok
    exact ⟨output, rfl, houtput⟩

variable {result : Except CoordinatorError Unit} {pre post : List CliEvent}

theorem Started.unheld (h : Started unit result tr) (hp : ∀ ev ∈ post, Calm ev.1) :
    ¬ HeldStopped unit (hostEvents (pre ++ tr ++ post)) := by
  obtain ⟨answer, rest, htr, hrest, -⟩ := h.course
  rw [hostEvents_append, hostEvents_append, htr, List.append_assoc, List.cons_append]
  refine not_held_of_start (List.forall_mem_append.2 ⟨hrest, fun ev hev => ?_⟩)
  exact (works_hostEvents (works_of_calm hp) ev hev).2.1

theorem Started.asked (h : Started unit result tr) : StartAsked unit (pre ++ tr ++ post) := by
  obtain ⟨answer, rest, htr, -⟩ := h.course
  refine ⟨answer, ?_⟩
  rw [hostEvents_append, hostEvents_append, htr]
  exact List.mem_append_left _ (List.mem_append_right _ (List.mem_cons_self ..))

theorem Started.active (h : Started unit (.ok ()) tr) (hp : ∀ ev ∈ post, Calm ev.1) :
    lastObserved unit (hostEvents (pre ++ tr ++ post)) = some .active := by
  obtain ⟨answer, rest, htr, -, hactive⟩ := h.course
  obtain ⟨output, rfl, houtput⟩ := hactive rfl
  rw [hostEvents_append, lastObserved_append_works (works_of_calm hp), hostEvents_append, htr,
    ← List.singleton_append, ← List.append_assoc, lastObserved_concat, houtput]

end Parts

variable {V : Type} [Semver V] {arguments : FlashArgs} {ready : ReadyFlash V} {mcu : Mcu}
  {tr flash after : List CliEvent} {result : Except Cause Unit}

section Conclusion

/-- What follows the MCU's return, around Klipper's start. -/
theorem startAndReconnect_course {verb : Str}
    (hr : Runs (startAndReconnect ready verb).run after result) :
    ∃ pre start started post, after = pre ++ start ++ post ∧ (∀ ev ∈ pre, Calm ev.1) ∧
      Started ready.coordinator.unit started start ∧ (∀ ev ∈ post, Calm ev.1) ∧
      ((∃ error : CoordinatorError, result = .error (.leaf
          (verb ++ " successfully but Klipper failed to restart: " ++ errorChain error.cause))) ∨
        started = .ok () ∧ ((∃ message, result = .error (.leaf
          (verb ++ " successfully and Klipper started, but " ++ message))) ∨ result = .ok ())) := by
  unfold startAndReconnect at hr
  obtain ⟨_, pre, t₁, rfl, hpre, h₁⟩ := runs_ui_bind hr
  obtain ⟨started, start, t₂, rfl, hstart, h₂⟩ := runs_lift_bind_iff.1 h₁
  refine ⟨pre, start, started, t₂, (List.append_assoc ..).symm, hpre, started_of_runs hstart, ?_⟩
  cases started with
  | error error =>
      obtain ⟨hcalm, rfl⟩ := runs_ui_refuse h₂
      exact ⟨hcalm, .inl ⟨error, rfl⟩⟩
  | ok u =>
      obtain ⟨_, a, t₃, rfl, ha, h₃⟩ := runs_ui_bind h₂
      obtain ⟨_, b, t₄, rfl, hb, h₄⟩ := runs_ui_bind h₃
      obtain ⟨waited, wait, t₅, rfl, hwait, h₅⟩ := runs_lift_bind_iff.1 h₄
      have hcalm : ∀ ev ∈ wait, Calm ev.1 :=
        calm_of_runs (Quiet.calm flashHooks_terminal waitForMcus_quiet fun _ => True.intro) hwait
      have hthen : ∀ {rest : List CliEvent}, (∀ ev ∈ rest, Calm ev.1) →
          ∀ ev ∈ a ++ (b ++ (wait ++ rest)), Calm ev.1 := fun hrest =>
        List.forall_mem_append.2 ⟨ha, List.forall_mem_append.2 ⟨hb,
          List.forall_mem_append.2 ⟨hcalm, hrest⟩⟩⟩
      cases waited with
      | error message =>
          obtain ⟨hrefuse, rfl⟩ := runs_ui_refuse h₅
          exact ⟨hthen hrefuse, .inr ⟨rfl, .inl ⟨message, rfl⟩⟩⟩
      | ok u =>
          obtain ⟨_, c, t₆, rfl, hc, h₆⟩ := runs_ui_bind h₅
          obtain ⟨hend, ⟨⟨⟩, rfl⟩⟩ := runs_ui h₆
          exact ⟨hthen (List.forall_mem_append.2 ⟨hc, hend⟩), .inr ⟨rfl, .inr rfl⟩⟩

/-- After a failed flash, what is said of Klipper is what was done. -/
theorem told_of_failed {before : List CliEvent} {first : Option Bool} {error : FileFlashError}
    (hb : ∀ ev ∈ before, Calm ev.1)
    (hflash : Runs (flashSelected arguments ready) flash (first, .error error))
    (hr : Runs (concludeFlash ready mcu (first, .error error)).run after result) :
    Told arguments ready (before ++ flash ++ after) result := by
  have hflashed := flashed_of_runs hflash
  have hunstarted : Unstarted ready.coordinator.unit (before ++ flash) :=
    (unstarted_of_calm hb).append hflashed.unstarted
  obtain ⟨_, shown, t₁, rfl, hshown, h₁⟩ := runs_ui_bind hr
  by_cases hallows : error.allowsKlipperRestore = true
  · rw [if_pos hallows, bind_map_left] at h₁
    obtain ⟨restore, start, post, rfl, hrestore, hrefuse⟩ := runs_lift_bind_iff.1 h₁
    obtain ⟨hpost, rfl⟩ := runs_refuse hrefuse
    unfold BuildCoordinator.restoreAfterFailure at hrestore
    by_cases hfirst : first = some true
    · rw [if_neg (not_not.2 hfirst)] at hrestore
      have hstart := started_of_runs hrestore
      have hactive : firstObserved ready.coordinator.unit (hostEvents flash) = some .active := by
        have hobserved := hflashed.observed
        rw [hfirst] at hobserved
        obtain ⟨state, hstate, hactive⟩ := Option.map_eq_some_iff.1 hobserved.symm
        rw [hstate, of_decide_eq_true hactive]
      have hspared : Spared arguments ready (before ++ flash ++ shown ++ start ++ post) :=
        ⟨before, flash, shown ++ start ++ post, first, error, by simp only [List.append_assoc],
          hflash, hactive, hallows, hflashed.spared error rfl hallows⟩
      have he : before ++ flash ++ (shown ++ (start ++ post)) =
          before ++ flash ++ shown ++ start ++ post := by simp only [List.append_assoc]
      rw [he]
      refine ⟨?_, fun hheld => absurd hheld (hstart.unheld hpost)⟩
      cases restore with
      | error e => exact .restoreFailed _ e hspared hstart.asked
      | ok u => exact .restored _ hspared (hstart.active hpost)
    · rw [if_pos hfirst] at hrestore
      obtain ⟨rfl, rfl⟩ := runs_pure_iff.1 hrestore
      have hafter : ∀ ev ∈ shown ++ ([] ++ post), Calm ev.1 :=
        List.forall_mem_append.2 ⟨hshown, hpost⟩
      have hstop : ∀ answer, serviceEvent ready.coordinator.unit "stop" answer ∉
          hostEvents (before ++ flash ++ (shown ++ ([] ++ post))) := by
        intro answer
        rw [hostEvents_append, hostEvents_append, List.mem_append, List.mem_append]
        rintro ((hmem | hmem) | hmem)
        · exact unstopped_of_calm hb hmem
        · exact hfirst (hflashed.stopped answer hmem)
        · exact unstopped_of_calm hafter hmem
      exact ⟨.untouched _ (hunstarted.append (unstarted_of_calm hafter)) hstop,
        fun hheld => absurd hheld (not_held_of_unstopped hstop)⟩
  · rw [if_neg hallows] at h₁
    obtain ⟨hcalm, rfl⟩ := runs_refuse h₁
    exact ⟨.unrestored _ (hunstarted.append (unstarted_of_calm
      (List.forall_mem_append.2 ⟨hshown, hcalm⟩))), fun _ => ⟨_, rfl⟩⟩

/-- After a flash, what is said of Klipper is what was done. -/
theorem told_of_flashed {before : List CliEvent} {first : Option Bool} {flashed : FlashResult}
    (hb : ∀ ev ∈ before, Calm ev.1) (hmcu : ready.inventory.find ready.target = some mcu)
    (hflash : Runs (flashSelected arguments ready) flash (first, .ok flashed))
    (hr : Runs (concludeFlash ready mcu (first, .ok flashed)).run after result) :
    Told arguments ready (before ++ flash ++ after) result := by
  have hunstarted : Unstarted ready.coordinator.unit (before ++ flash) :=
    (unstarted_of_calm hb).append (flashed_of_runs hflash).unstarted
  obtain ⟨_, a, t₁, rfl, ha, h₁⟩ := runs_ui_bind hr
  obtain ⟨_, b, t₂, rfl, hb', h₂⟩ := runs_ui_bind h₁
  obtain ⟨waited, wait, t₃, rfl, hwait, h₃⟩ := runs_lift_bind_iff.1 h₂
  have hcalm : ∀ ev ∈ wait, Calm ev.1 :=
    calm_of_runs (Quiet.calm flashHooks_terminal waitForApplication_quiet fun _ => True.intro) hwait
  cases waited with
  | error message =>
      obtain ⟨hrefuse, rfl⟩ := runs_ui_refuse h₃
      have hafter : ∀ ev ∈ a ++ (b ++ (wait ++ t₃)), Calm ev.1 := by
        simp only [List.forall_mem_append]
        exact ⟨ha, hb', hcalm, hrefuse⟩
      exact ⟨.lost message (hunstarted.append (unstarted_of_calm hafter)), fun _ => ⟨_, rfl⟩⟩
  | ok u =>
      obtain ⟨_, c, t₄, rfl, -, h₄⟩ := runs_ui_bind h₃
      obtain ⟨pre, start, started, post, rfl, -, hstart, hpost, hend⟩ :=
        startAndReconnect_course h₄
      have he : before ++ flash ++ (a ++ (b ++ (wait ++ (c ++ (pre ++ start ++ post))))) =
          before ++ flash ++ (a ++ b) ++ wait ++ (c ++ pre) ++ start ++ post := by
        simp only [List.append_assoc]
      have hreturned : Returned arguments ready
          (before ++ flash ++ (a ++ b) ++ wait ++ (c ++ pre) ++ start ++ post) :=
        ⟨mcu, before, flash, a ++ b, wait, c ++ pre ++ start ++ post, first, flashed, hmcu,
          by simp only [List.append_assoc], hflash, hwait⟩
      rw [he]
      refine ⟨?_, fun hheld => absurd hheld (hstart.unheld hpost)⟩
      rcases hend with ⟨error, rfl⟩ | ⟨rfl, ⟨message, rfl⟩ | rfl⟩
      · exact .startFailed error hreturned hstart.asked
      · exact .unready message hreturned (hstart.active hpost)
      · exact .done hreturned (hstart.active hpost)

/-- What the operator agreed to either stops at the printer that is not idle, or flashes. -/
theorem flashConfirmed_told {before : List CliEvent} (hb : ∀ ev ∈ before, Calm ev.1)
    (hr : Runs (flashConfirmed arguments ready).run tr result) :
    ((∀ ev ∈ before ++ tr, Calm ev.1) ∧ ∃ cause, result = .error cause) ∨
      Told arguments ready (before ++ tr) result := by
  unfold flashConfirmed at hr
  cases hmcu : ready.inventory.find ready.target with
  | none =>
      rw [hmcu] at hr
      obtain ⟨rfl, rfl⟩ := runs_pure_iff.1 hr
      exact .inl ⟨by rwa [List.append_nil], _, rfl⟩
  | some mcu =>
      rw [hmcu] at hr
      obtain ⟨checked, idle, t₁, rfl, hidle, h₁⟩ := runs_lift_bind_iff.1 hr
      have hcalm : ∀ ev ∈ before ++ idle, Calm ev.1 := List.forall_mem_append.2 ⟨hb,
        calm_of_runs (Quiet.calm flashHooks_terminal ensurePrinterIdle_quiet fun _ => True.intro)
          hidle⟩
      rw [← List.append_assoc]
      cases checked with
      | error message =>
          obtain ⟨hrefuse, rfl⟩ := runs_refuse h₁
          exact .inl ⟨List.forall_mem_append.2 ⟨hcalm, hrefuse⟩, _, rfl⟩
      | ok u =>
          obtain ⟨⟨first, error | flashed⟩, flash, after, rfl, hflash, hconclude⟩ :=
            runs_lift_bind_iff.1 h₁
          · rw [← List.append_assoc]
            exact .inr (told_of_failed hcalm hflash hconclude)
          · rw [← List.append_assoc]
            exact .inr (told_of_flashed hcalm hmcu hflash hconclude)

end Conclusion

variable {J : Type} [DictionaryReader J]

theorem tells_of_confirmed {before : List CliEvent} (hb : ∀ ev ∈ before, Calm ev.1)
    (hp : Prepared J arguments ready (before ++ tr))
    (hr : Runs (flashConfirmed arguments ready).run tr result) :
    ((∀ ev ∈ before ++ tr, disrupts ev.1 = false) ∧
      (result = .ok () → ∃ prompt, ⟨.ui (.confirm prompt), false⟩ ∈ before ++ tr)) ∨
    ∃ ready : ReadyFlash V, Prepared J arguments ready (before ++ tr) ∧
      Told arguments ready (before ++ tr) result := by
  rcases flashConfirmed_told hb hr with ⟨hcalm, cause, rfl⟩ | htold
  · exact .inl ⟨hcalm, nofun⟩
  · exact .inr ⟨ready, hp, htold⟩

/-- A run of the command either touched nothing, and then reports success only where the operator
declined, or reached the flash of what the checks prepared, and then tells of Klipper what it
did: a Klipper left stopped is named in the error. -/
theorem flash_command_tells (hr : Runs (runFlash (V := V) J arguments).run tr result) :
    ((∀ ev ∈ tr, disrupts ev.1 = false) ∧
      (result = .ok () → ∃ prompt, ⟨.ui (.confirm prompt), false⟩ ∈ tr)) ∨
    ∃ ready : ReadyFlash V, Prepared J arguments ready tr ∧ Told arguments ready tr result := by
  obtain ⟨error, rfl, hprepare⟩ | ⟨ready, pre, post, rfl, hprepare, hrest⟩ :=
    runs_attempt_bind_iff.1 hr
  · exact .inl ⟨calm_of_runs prepareFlash_calm hprepare, nofun⟩
  · have hcalm := calm_of_runs prepareFlash_calm hprepare
    have hprepared := (prepared_of_runs hprepare).mono (List.prefix_append pre post)
    by_cases hforce : arguments.force = true
    · rw [if_pos hforce] at hrest
      exact tells_of_confirmed hcalm hprepared hrest
    · rw [if_neg hforce] at hrest
      obtain ⟨confirmed, t₁, rfl, h₁⟩ := runs_ui_bind_iff.1 hrest
      cases confirmed with
      | true =>
          rw [if_pos rfl] at h₁
          rw [List.append_cons] at hprepared ⊢
          refine tells_of_confirmed ?_ hprepared h₁
          exact List.forall_mem_append.2 ⟨hcalm, List.forall_mem_singleton.2 rfl⟩
      | false =>
          rw [if_neg Bool.false_ne_true] at h₁
          refine .inl ⟨List.forall_mem_append.2
            ⟨hcalm, List.forall_mem_cons.2 ⟨rfl, (runs_ui h₁).1⟩⟩,
            fun _ => ⟨_, List.mem_append_right _ List.mem_cons_self⟩⟩

theorem flash_command_tells_on_host : commandExecution.2.isOk = true ∧
    (((∀ ev ∈ commandExecution.1, disrupts ev.1 = false) ∧
      (commandExecution.2 = .ok () → ∃ prompt, ⟨.ui (.confirm prompt), false⟩ ∈
        commandExecution.1)) ∨
    ∃ ready : ReadyFlash Semver.Rank, Prepared Unit hostArguments ready commandExecution.1 ∧
      Told hostArguments ready commandExecution.1 commandExecution.2) :=
  ⟨by decide +kernel, flash_command_tells runs_commandExecution⟩

end Aldis.Cli

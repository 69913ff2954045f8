import Aldis.FlashCommand.Safety
import Aldis.UpdateCommand.Plan
import Aldis.UpdateRun.Started

/-!
# The update command keeps its warrant

Whatever is answered, a call that touches the printer belongs to the run of a plan that was
checked, is permitted to that run, and follows the operator's consent as it was given on the
terminal.
-/

namespace Aldis.Cli

open Interaction World Attempt UpdateRun Text Octets

variable {V : Type} [Semver V]

def offerText (run : UpdateRun V) (mcu : Mcu) (name : Str) : Str :=
  "Update " ++ name ++ " from " ++ mcu.version.getD "unknown" ++ " to " ++
    run.targetVersions.labelFor mcu

/-- The consent to an MCU as it shows on the terminal: an answered question, or the heading that
takes its place where the operator agreed to everything beforehand. -/
def consentShown (auto : Bool) (run : UpdateRun V) (mcu : Mcu) (name : Str) : CliEvent :=
  if auto then ⟨.ui (.heading (offerText run mcu name)), ()⟩
  else ⟨.ui (.confirm (offerText run mcu name ++ "?")), true⟩

/-- The consent to `name` is the last that was given, and no question was asked since. -/
def ConsentStands (auto : Bool) (run : UpdateRun V) (name : Str) (past : List CliEvent) : Prop :=
  ∃ mcu x y, run.inventory.find name = some mcu ∧
    Eligibility.downgradeRefusal mcu run.targetVersions = none ∧
      past = x ++ consentShown auto run mcu name :: y ∧
        ∀ ev ∈ y, ∀ text, ev.1 ≠ .ui (.confirm text)

variable (J : Type) [DictionaryReader J] in
/-- What a call of the command is part of: one run of updates over a plan that was checked, whose
questions were answered on the terminal, with `events` called in it before and `later` after. What
stops, builds or flashes is part of the flash of the MCU that was consented to last, and Klipper is
started only once every such flash is settled. -/
structure UpdateWarranted (arguments : UpdateArgs V) (run : UpdateRun V) (past rest : List CliEvent)
    (events : List Event) (ev : Event) (later : List Event) : Prop where
  planned : Planned arguments run past
  belongs : ∃ outcome, Runs (run.runUpdates J).run (events ++ ev :: later) outcome
  answered : ∃ checks flashing, past = checks ++ flashing ∧ (∀ e ∈ checks, disrupts e.1 = false) ∧
    Answered (onHost (updateHooks arguments.auto)) events flashing
  answers : Answered (onHost (updateHooks arguments.auto)) later rest
  permitted : Permitted run.coordinator.unit events ev.1
  settled : act run.coordinator.unit ev.1 = .start → Settled J run events
  idle : (act run.coordinator.unit ev.1).disrupts = true → FoundIdle (hostEvents past)
  begun : ∃ name ∈ run.targets, ∃ mcu, run.inventory.find name = some mcu ∧
    consentShown arguments.auto run mcu name ∈ past
  consented : act run.coordinator.unit ev.1 ≠ .query → act run.coordinator.unit ev.1 ≠ .start →
    ∃ name ∈ run.targets, ConsentStands arguments.auto run name past ∧
      FlashOf J run name events ev later

variable {arguments : UpdateArgs V} {run : UpdateRun V} {auto : Bool}

section Answers

variable {events : List Event} {tr : List CliEvent}

theorem runs_offer {mcu : Mcu} {name : Str}
    (hr : Runs (onHost (updateHooks auto) (run.offer mcu name)) tr true) :
    tr = [consentShown auto run mcu name] := by
  cases auto with
  | true =>
      obtain ⟨_, rest, rfl, hreturn⟩ := runs_call_iff.1 hr
      obtain ⟨rfl, -⟩ := runs_pure_iff.1 hreturn
      rfl
  | false => exact runs_perform_iff.1 hr

theorem runs_shows {calls : List UiCall} {u : Unit} (hr : Runs (updateHooks.shows calls) tr u) :
    ∀ ev ∈ tr, ∃ call ∈ calls, ev.1 = .ui call := by
  induction calls generalizing tr with
  | nil =>
      obtain ⟨rfl, -⟩ := runs_pure_iff.1 hr
      exact nofun
  | cons call rest ih =>
      obtain ⟨_, tr', rfl, hrest⟩ := runs_call_iff.1 hr
      rw [List.forall_mem_cons]
      refine ⟨⟨call, List.mem_cons_self, rfl⟩, fun ev hev => ?_⟩
      obtain ⟨call', hcall, he⟩ := ih hrest ev hev
      exact ⟨call', List.mem_cons_of_mem _ hcall, he⟩

/-- A hook that offers nothing only shows what it is told. -/
theorem hook_shows {call : HookCall} (h : isApproval (.hook call) = false)
    {answer : HookAnswer call} (hr : Runs (updateHooks auto call) tr answer) :
    ∀ ev ∈ tr, ∀ text, ev.1 ≠ .ui (.confirm text) := by
  have hshows : ∀ {calls u}, (∀ c ∈ calls, ∀ text, c ≠ UiCall.confirm text) →
      Runs (updateHooks.shows calls) tr u → ∀ ev ∈ tr, ∀ text, ev.1 ≠ .ui (.confirm text) := by
    intro calls u hc hr ev hev text he
    obtain ⟨call, hcall, hui⟩ := runs_shows hr ev hev
    exact hc call hcall text (CliCall.ui.inj (hui.symm.trans he))
  cases call with
  | approve name current next => cases h
  | progress name progress => cases progress <;> exact hshows (by simp) hr
  | flashed name kconfig bytes => exact hshows (by simp) hr
  | stepStarted step => cases step <;> exact hshows (by simp) hr
  | stepSucceeded step => cases step <;> exact hshows (by simp) hr
  | failed message => exact hshows (by simp) hr

theorem unasked_of_answered {call : HostCall} {answer : HostAnswer call} {pre : List CliEvent}
    (h : isApproval call = false) (hr : Runs (onHost (updateHooks auto) call) pre answer) :
    ∀ ev ∈ pre, ∀ text, ev.1 ≠ .ui (.confirm text) := by
  cases hh : isHook call with
  | true =>
      cases call with
      | hook call => exact hook_shows h hr
      | _ => cases hh
  | false =>
      obtain rfl := runs_onHost hh hr
      intro ev hev text he
      rw [List.mem_singleton.1 hev] at he
      cases he

theorem consentStands_of_agreed {name : Str} (ha : Agreed run name events)
    (ht : Answered (onHost (updateHooks auto)) events tr) : ConsentStands auto run name tr := by
  obtain ⟨mcu, x, y, hmcu, hnone, rfl, hy⟩ := ha
  obtain ⟨pre, post, rfl, -, hpost⟩ := answered_append_iff.1 ht
  obtain ⟨own, rest, rfl, hoffer, hrest⟩ := answered_cons_iff.1 hpost
  rw [runs_offer hoffer]
  refine ⟨mcu, pre, rest, hmcu, hnone, rfl, ?_⟩
  exact hrest.forall_mem (Q := fun ev => ∀ text, ev.1 ≠ .ui (.confirm text)) hy
    fun _ _ _ h hr => unasked_of_answered h hr

theorem consentShown_of_begun (hb : Begun run events)
    (ht : Answered (onHost (updateHooks auto)) events tr) :
    ∃ name ∈ run.targets, ∃ mcu, run.inventory.find name = some mcu ∧
      consentShown auto run mcu name ∈ tr := by
  obtain ⟨name, hname, x, ⟨y, rfl⟩, ha⟩ := hb
  obtain ⟨pre, post, rfl, hpre, -⟩ := answered_append_iff.1 ht
  obtain ⟨mcu, a, b, hmcu, -, rfl, -⟩ := consentStands_of_agreed ha hpre
  exact ⟨name, hname, mcu, hmcu, by simp⟩

end Answers

variable {J : Type} [DictionaryReader J] {pre post : List CliEvent} {ev : CliEvent}

/-- A call that touches the printer within a run is a call of the run. -/
theorem call_of_answered {events : List Event} {flashing rest : List CliEvent}
    (hd : disrupts ev.1 = true)
    (ht : Answered (onHost (updateHooks auto)) events (flashing ++ ev :: rest)) :
    ∃ call answer past later, ev = ⟨.host call, answer⟩ ∧ events = past ++ ⟨call, answer⟩ :: later ∧
      Answered (onHost (updateHooks auto)) past flashing ∧
        Answered (onHost (updateHooks auto)) later rest := by
  obtain ⟨past, call, answer, later, own, a, b, more, rfl, hpast, rfl, hr, rfl, hlater⟩ := ht.split
  cases hh : isHook call with
  | true =>
      cases call with
      | hook call =>
          obtain ⟨u, hu⟩ := (Ensures.calls (updateHooks_terminal call) hr).1 ev
            (List.mem_append_right _ List.mem_cons_self)
          rw [hu] at hd
          cases hd
      | _ => cases hh
  | false =>
      have he := runs_onHost hh hr
      rcases List.append_eq_singleton_iff.1 he with ⟨rfl, he⟩ | ⟨-, he⟩
      · obtain ⟨rfl, rfl⟩ := List.cons.inj he
        exact ⟨call, answer, past, later, rfl, rfl, by rwa [List.append_nil], hlater⟩
      · cases he

theorem Planned.mono {past past' : List CliEvent} (h : Planned arguments run past)
    (hp : past ⊆ past') : Planned arguments run past' := by
  obtain ⟨reported, hreported, hcheck⟩ := h.controlled
  obtain ⟨inventory, hinventory, hmcus⟩ := h.discovered
  refine ⟨hp h.locked, ⟨reported, hp hreported, hcheck⟩, ⟨inventory, hp hinventory, hmcus⟩,
    h.named, h.selected, h.ordered, ?_⟩
  intro path hpath
  obtain ⟨peers, hmem, hok⟩ := h.bridge path hpath
  exact ⟨peers, hp hmem, hok⟩

theorem act_of_disrupts {unit : KlipperUnit} {call : HostCall}
    (h : disrupts (.host call) = true) : act unit call ≠ .other := by
  cases call with
  | run runner command =>
      unfold act
      dsimp only
      split_ifs
      · nofun
      · nofun
      · nofun
      · cases runner <;> nofun
  | flash call => nofun
  | _ => cases h

/-- Of the calls that touch the printer, those that neither query nor start Klipper disrupt it. -/
theorem disrupts_of_act {unit : KlipperUnit} {call : HostCall} (h : disrupts (.host call) = true)
    (hq : act unit call ≠ .query) (hs : act unit call ≠ .start) :
    (act unit call).disrupts = true := by
  cases ha : act unit call with
  | query => exact absurd ha hq
  | start => exact absurd ha hs
  | other => exact absurd ha (act_of_disrupts h)
  | download =>
      cases call with
      | run runner command =>
          unfold act at ha
          dsimp only at ha
          split_ifs at ha
          cases runner <;> cases ha
      | flash call => cases ha
      | _ => cases h
  | _ => rfl

/-- A call of the run of a plan, on the command line. -/
theorem warranted_of_updates {checks flashing rest : List CliEvent}
    {result : Except RunFailure (List Str)} (hp : Planned arguments run checks)
    (hc : ∀ ev ∈ checks, disrupts ev.1 = false) (hd : disrupts ev.1 = true)
    (hr : Runs (asHost (updateHooks arguments.auto) (run.runUpdates J)).run
      (flashing ++ ev :: rest) result) :
    ∃ call answer events later, ev = ⟨.host call, answer⟩ ∧
      UpdateWarranted J arguments run (checks ++ flashing) rest events ⟨call, answer⟩ later := by
  obtain ⟨events, hrun, ht⟩ := runs_attempt_handle_iff.1 hr
  obtain ⟨call, answer, past, later, rfl, rfl, hpast, hlater⟩ := call_of_answered hd ht
  have hbegun := (consented_of_runs hrun rfl (act_of_disrupts hd)).1
  have hpermitted := permitted_of_runs hrun rfl
  refine ⟨call, answer, past, later, rfl, hp.mono (List.subset_append_left _ _), ⟨_, hrun⟩,
    ⟨checks, flashing, rfl, hc, hpast⟩, hlater, hpermitted,
    fun hs => (updates_settled hrun).1 past _ later rfl hs, fun hi => ?_, ?_, fun hq hs => ?_⟩
  · rw [hostEvents_append, hostEvents_of_answered updateHooks_terminal hpast]
    obtain ⟨a, tr, b, he, hidle⟩ := foundIdle_effects (hpermitted.idle hi)
    exact ⟨hostEvents checks ++ a, tr, b, by simp only [he, List.append_assoc], hidle⟩
  · obtain ⟨name, hname, mcu, hmcu, hshown⟩ := consentShown_of_begun hbegun hpast
    exact ⟨name, hname, mcu, hmcu, List.mem_append_right _ hshown⟩
  · obtain ⟨name, hname, hflash⟩ := (updates_settled hrun).2 past _ later rfl
      (disrupts_of_act hd hq hs)
    have hagreed : Agreed run name past := FlashOf.agreed hflash
    obtain ⟨mcu, x, y, hmcu, hnone, rfl, hy⟩ := consentStands_of_agreed hagreed hpast
    exact ⟨name, hname, ⟨mcu, checks ++ x, y, hmcu, hnone, (List.append_assoc ..).symm, hy⟩, hflash⟩

section Command

omit [Semver V] in
theorem runRoot_calm : Makes Calm (fun _ => True) (runRoot arguments) := by
  unfold runRoot
  cases arguments.workspace with
  | some path =>
      exact .bind ((makes_perform _).2 rfl) fun created =>
        .bind (makes_accept fun _ => True.intro) fun _ => makes_pure _
  | none =>
      exact .bind ((makes_perform _).2 rfl) fun created =>
        makes_context.2 (makes_accept fun _ => True.intro)

/-- How the command closes a run that ended with `outcome`. -/
inductive Closes (runLog : Path) :
    Except RunFailure (List Str) → List CliEvent → Except Cause Unit → Prop
  | failed (failure : RunFailure) : Closes runLog (.error failure) []
      (.error (.leaf (failure.message ++ "\nRun log: " ++ runLog)))
  | declined : Closes runLog (.ok []) [⟨.ui (.block "\nno updates confirmed\n"), ()⟩,
      ⟨.ui (.action "run completed successfully: no updates confirmed"), ()⟩] (.ok ())
  | updated {updated : List Str} (h : updated ≠ []) : Closes runLog (.ok updated)
      [⟨.ui (.heading ("Update complete: " ++ decimal updated.length ++ " " ++
        mcuCountLabel updated.length ++ " updated (run log: " ++ runLog ++ ")")), ()⟩,
        ⟨.ui (.action "run completed successfully"), ()⟩] (.ok ())

theorem Closes.calm {runLog : Path} {outcome : Except RunFailure (List Str)}
    {closing : List CliEvent} {result : Except Cause Unit}
    (h : Closes runLog outcome closing result) : ∀ ev ∈ closing, Calm ev.1 := by
  cases h with
  | failed failure => exact nofun
  | declined =>
      exact List.forall_mem_cons.2 ⟨rfl, List.forall_mem_singleton.2 rfl⟩
  | updated h => exact List.forall_mem_cons.2 ⟨rfl, List.forall_mem_singleton.2 rfl⟩

theorem withRunLog_leaf (runLog : Path) (message : Str) : withRunLog runLog (.leaf message) =
    .leaf (message ++ "\nRun log: " ++ runLog) := by
  have hjoin : List.intercalate ": ".toList [message] = message := by simp [List.intercalate]
  unfold withRunLog
  exact congrArg (fun text => Cause.leaf (text ++ "\nRun log: ".toList ++ runLog)) hjoin

theorem closes_of_reported {runLog : Path} {updated : List Str} {closing : List CliEvent}
    {result : Except Cause Unit} (hr : Runs (reportUpdated runLog updated).run closing result) :
    Closes runLog (.ok updated) closing (result.mapError (withRunLog runLog)) := by
  unfold reportUpdated at hr
  by_cases hu : updated = []
  · subst hu
    rw [if_pos rfl] at hr
    obtain ⟨_, t₁, rfl, h₁⟩ := runs_perform_bind_iff.1 hr
    obtain ⟨_, rfl, h₂⟩ := runs_lift_iff.1 h₁
    rw [runs_perform_iff.1 h₂]
    exact .declined
  · rw [if_neg hu] at hr
    obtain ⟨_, t₁, rfl, h₁⟩ := runs_perform_bind_iff.1 hr
    obtain ⟨_, rfl, h₂⟩ := runs_lift_iff.1 h₁
    rw [runs_perform_iff.1 h₂]
    exact .updated hu

/-- The command between its log's start and its end. -/
theorem runUpdate_course {workspace : RunWorkspace} {runLog : Path} {tr : List CliEvent}
    {result : Except Cause Unit}
    (hr : Runs (runUpdate J arguments workspace runLog).run tr result) :
    (∀ ev ∈ tr, Calm ev.1) ∨
    ∃ (run : UpdateRun V) (checks flashing closing : List CliEvent)
        (outcome : Except RunFailure (List Str)),
      tr = checks ++ flashing ++ closing ∧ (∀ ev ∈ checks, Calm ev.1) ∧
        Planned arguments run checks ∧
          Runs (asHost (updateHooks arguments.auto) (run.runUpdates J)).run flashing outcome ∧
            Closes runLog outcome closing (result.mapError (withRunLog runLog)) := by
  have hcalm : ∀ {tr result}, Runs (prepareUpdate arguments workspace).run tr result →
      ∀ ev ∈ tr, Calm ev.1 := fun hr => (Ensures.calls prepareUpdate_calm.only hr).1
  obtain ⟨e, -, hprepare⟩ | ⟨plan, checks, rest, rfl, hprepare, hrest⟩ :=
    runs_attempt_bind_iff.1 hr
  · exact .inl (hcalm hprepare)
  · cases plan with
    | none =>
        obtain ⟨rfl, -⟩ := runs_pure_iff.1 hrest
        rw [List.append_nil]
        exact .inl (hcalm hprepare)
    | some run =>
        refine .inr ?_
        obtain ⟨e, rfl, hrun⟩ | ⟨updated, flashing, closing, rfl, hrun, hreport⟩ :=
          runs_attempt_bind_iff.1 hrest
        · obtain ⟨outcome, he, hrun⟩ := runs_adapt_iff.1 hrun
          refine ⟨run, checks, rest, [], outcome, by simp, hcalm hprepare,
            planned_of_runs hprepare, hrun, ?_⟩
          cases outcome with
          | ok updated => cases he
          | error failure =>
              obtain rfl := Except.error.inj he
              change Closes runLog _ _ (.error (withRunLog runLog (.leaf failure.message)))
              rw [withRunLog_leaf]
              exact .failed failure
        · obtain ⟨outcome, he, hrun⟩ := runs_adapt_iff.1 hrun
          refine ⟨run, checks, flashing, closing, outcome, by simp, hcalm hprepare,
            planned_of_runs hprepare, hrun, ?_⟩
          cases outcome with
          | error failure => cases he
          | ok updated' =>
              obtain rfl := Except.ok.inj he
              exact closes_of_reported hreport

/-- A run of the command: checks that touch nothing, and then at most one run of updates, whose
questions are answered on the terminal. -/
theorem update_course {tr : List CliEvent} {result : Except Cause Unit}
    (hr : Runs (updateAndReportRunLog J arguments).run tr result) :
    (∀ ev ∈ tr, Calm ev.1) ∨
    ∃ (run : UpdateRun V) (runLog : Path) (checks flashing closing : List CliEvent)
        (outcome : Except RunFailure (List Str)),
      tr = checks ++ flashing ++ closing ∧ (∀ ev ∈ checks, Calm ev.1) ∧
        ⟨.startLogging runLog, .ok ()⟩ ∈ checks ∧ Planned arguments run checks ∧
          Runs (asHost (updateHooks arguments.auto) (run.runUpdates J)).run flashing outcome ∧
            Closes runLog outcome closing result := by
  obtain ⟨e, -, hroot⟩ | ⟨root, t₁, t₂, rfl, hroot, h₂⟩ := runs_attempt_bind_iff.1 hr
  · exact .inl (Ensures.calls runRoot_calm.only hroot).1
  · have hroot := (Ensures.calls runRoot_calm.only hroot).1
    obtain ⟨logging, t₃, rfl, h₃⟩ := runs_perform_bind_iff.1 h₂
    have haccept : Makes Calm (fun _ => True)
        (context "could not start logging" (accept logging id)) :=
      makes_context.2 (makes_accept fun _ => True.intro)
    obtain ⟨e, -, hlog⟩ | ⟨_, t₄, t₅, rfl, hlog, h₅⟩ := runs_attempt_bind_iff.1 h₃
    · exact .inl (List.forall_mem_append.2 ⟨hroot,
        List.forall_mem_cons.2 ⟨rfl, (Ensures.calls haccept.only hlog).1⟩⟩)
    · have hstart : ∀ ev ∈ t₁ ++ ⟨CliCall.startLogging (Path.join root "run.log"), logging⟩ :: t₄,
          Calm ev.1 := List.forall_mem_append.2 ⟨hroot,
        List.forall_mem_cons.2 ⟨rfl, (Ensures.calls haccept.only hlog).1⟩⟩
      obtain ⟨r, rfl, hrun⟩ := runs_adapt_iff.1 h₅
      rcases runUpdate_course hrun with
        hcalm | ⟨run, checks, flashing, closing, outcome, rfl, hchecks, hplanned, hflash, hcloses⟩
      · refine .inl ?_
        rw [← List.cons_append, ← List.append_assoc]
        exact List.forall_mem_append.2 ⟨hstart, hcalm⟩
      · refine .inr ⟨run, _, _, flashing, closing, outcome, ?_,
          List.forall_mem_append.2 ⟨hstart, hchecks⟩, ?_,
          hplanned.mono (List.subset_append_right _ _), hflash, hcloses⟩
        · simp
        · obtain ⟨-, rfl⟩ := runs_accept_ok_iff.1 (runs_context_ok_iff.1 hlog)
          exact List.mem_append_left _ (List.mem_append_right _ List.mem_cons_self)

theorem split_middle {α : Type} {a b c pre post : List α} {x : α}
    (he : a ++ b ++ c = pre ++ x :: post) (ha : x ∉ a) (hc : x ∉ c) :
    ∃ own rest, pre = a ++ own ∧ b = own ++ x :: rest ∧ post = rest ++ c := by
  induction a generalizing pre with
  | nil =>
      rcases List.append_eq_append_iff.1 he with ⟨own, rfl, hown⟩ | ⟨own, rfl, hown⟩
      · exact absurd (hown ▸ List.mem_append_right own List.mem_cons_self) hc
      · rcases List.cons_eq_append_iff.1 hown with ⟨rfl, rfl⟩ | ⟨rest, rfl, rfl⟩
        · exact absurd List.mem_cons_self hc
        · exact ⟨pre, rest, rfl, rfl, rfl⟩
  | cons y a ih =>
      cases pre with
      | nil => exact absurd ((List.cons.inj he).1 ▸ List.mem_cons_self) ha
      | cons z pre =>
          obtain ⟨rfl, hrest⟩ := List.cons.inj he
          obtain ⟨own, rest, rfl, rfl, rfl⟩ := ih hrest fun hmem => ha (List.mem_cons_of_mem _ hmem)
          exact ⟨own, rest, rfl, rfl, rfl⟩

/-- Whatever is answered, and wherever the command ends, a call that touches the printer is one of
a run whose plan was checked: it is permitted to that run, the printer was found idle, and what is
stopped, built or flashed is so in the flash of the MCU that the operator agreed to, as the last
that was offered. -/
theorem update_command_warranted {tr : List CliEvent} {result : Except Cause Unit}
    (hr : Runs (updateAndReportRunLog J arguments).run tr result) (he : tr = pre ++ ev :: post)
    (hd : disrupts ev.1 = true) :
    ∃ (run : UpdateRun V) (call : HostCall) (answer : HostAnswer call) (events later : List Event)
        (rest closing : List CliEvent), ev = ⟨.host call, answer⟩ ∧ post = rest ++ closing ∧
      (∀ e ∈ closing, disrupts e.1 = false) ∧
        UpdateWarranted J arguments run pre rest events ⟨call, answer⟩ later := by
  have hout : ∀ {tr : List CliEvent}, (∀ ev ∈ tr, Calm ev.1) → ev ∉ tr := fun hcalm hmem => by
    have hc : disrupts ev.1 = false := hcalm ev hmem
    rw [hd] at hc
    cases hc
  rcases update_course hr with hcalm |
    ⟨run, runLog, checks, flashing, closing, outcome, rfl, hchecks, -, hp, hrun, hcloses⟩
  · subst he
    exact absurd (List.mem_append_right _ List.mem_cons_self) (hout hcalm)
  · obtain ⟨own, rest, rfl, rfl, rfl⟩ := split_middle he (hout hchecks) (hout hcloses.calm)
    obtain ⟨call, answer, events, later, rfl, hwarranted⟩ := warranted_of_updates hp hchecks hd hrun
    exact ⟨run, call, answer, events, later, rest, closing, rfl, rfl, hcloses.calm, hwarranted⟩

/-- A run of the command touches nothing, or is one run of updates over what was planned: the
operator's answers are those of the terminal, the updated MCUs are those that were flashed and came
back, and the command closes with their number, or with what the run failed with and its log. -/
theorem update_command_accounts {tr : List CliEvent} {result : Except Cause Unit}
    (hr : Runs (updateAndReportRunLog J arguments).run tr result) :
    (∀ ev ∈ tr, disrupts ev.1 = false) ∨
    ∃ (run : UpdateRun V) (runLog : Path) (checks flashing closing : List CliEvent)
        (events : List Event) (outcome : Except RunFailure (List Str)),
      tr = checks ++ flashing ++ closing ∧ Planned arguments run checks ∧
        ⟨.startLogging runLog, .ok ()⟩ ∈ checks ∧ (∀ ev ∈ checks, disrupts ev.1 = false) ∧
          Answered (onHost (updateHooks arguments.auto)) events flashing ∧
            Runs (run.runUpdates J).run events outcome ∧ Accounted J run events outcome ∧
              Closes runLog outcome closing result := by
  rcases update_course hr with hcalm |
    ⟨run, runLog, checks, flashing, closing, outcome, rfl, hchecks, hlog, hp, hrun, hcloses⟩
  · exact .inl hcalm
  · obtain ⟨events, hevents, ht⟩ := runs_attempt_handle_iff.1 hrun
    exact .inr ⟨run, runLog, checks, flashing, closing, events, outcome, rfl, hp, hlog, hchecks, ht,
      hevents, (accounted_of_runs hevents).1, hcloses⟩

end Command

section Host

def currentMcu : Mcu := { hostMcu with version := some "v0.13.0-770-gce7002bed" }

def currentHost (past : List CliEvent) : (call : CliCall) → CliAnswer call
  | .discoverMcus _ => .ok ⟨[currentMcu], []⟩
  | .host (.mcu .discoverMcus) => .ok ⟨[currentMcu], []⟩
  | call => commandHost past call

def hostUpdate : UpdateArgs Semver.Rank where
  targets := []
  moonraker := "http://localhost:7125"
  config := some "/home/pi/aldis.toml"
  klipperSource := "/home/pi/klipper"
  workspace := none
  auto := false
  pull := false
  all := true
  force := false
  clean := false
  prebuilt := fun _ => ⟨none, ⟨none, []⟩, ⟨none, none, []⟩⟩
  isLoopbackUrl := fun _ => true
  unicode := true
  arch := .x86_64
  sha1 := fun _ => []
  sha256 := fun _ => []

def updateExecution : List CliEvent × Except Cause Unit :=
  (updateAndReportRunLog Unit hostUpdate).run.interact currentHost []

def cliAct : CliCall → UpdateRun.Act
  | .host call => act .default call
  | _ => .other

theorem runs_updateExecution : Runs (updateAndReportRunLog Unit hostUpdate).run
    updateExecution.1 updateExecution.2 := runs_interact_nil currentHost _

end Host

theorem update_command_warranted_on_host :
    (∃ ev ∈ updateExecution.1, ∃ call, ev.1 = .host call ∧ act .default call = .start) ∧
      (∃ ev ∈ updateExecution.1, ∃ call, ev.1 = .host call ∧ act .default call = .build) ∧
        ∀ pre ev post, updateExecution.1 = pre ++ ev :: post → disrupts ev.1 = true →
          ∃ (run : UpdateRun Semver.Rank) (call : HostCall) (answer : HostAnswer call)
              (events later : List Event) (rest closing : List CliEvent),
            ev = ⟨.host call, answer⟩ ∧ post = rest ++ closing ∧
              (∀ e ∈ closing, disrupts e.1 = false) ∧
                UpdateWarranted Unit hostUpdate run pre rest events ⟨call, answer⟩ later := by
  have hdone : ∀ a : UpdateRun.Act, a ≠ .other →
      (updateExecution.1.any fun ev => decide (cliAct ev.1 = a)) = true →
        ∃ ev ∈ updateExecution.1, ∃ call, ev.1 = .host call ∧ act .default call = a := by
    intro a ha hany
    obtain ⟨⟨call, answer⟩, hev, hs⟩ := List.any_eq_true.1 hany
    cases call with
    | host call => exact ⟨_, hev, call, rfl, of_decide_eq_true hs⟩
    | _ => exact absurd (of_decide_eq_true hs).symm ha
  refine ⟨hdone .start UpdateRun.Act.noConfusion (by decide +kernel),
    hdone .build UpdateRun.Act.noConfusion (by decide +kernel), ?_⟩
  intro pre ev post he hd
  exact update_command_warranted runs_updateExecution he hd

theorem update_command_accounts_on_host : updateExecution.2.isOk = true ∧
    ((∀ ev ∈ updateExecution.1, disrupts ev.1 = false) ∨
    ∃ (run : UpdateRun Semver.Rank) (runLog : Path) (checks flashing closing : List CliEvent)
        (events : List Event) (outcome : Except RunFailure (List Str)),
      updateExecution.1 = checks ++ flashing ++ closing ∧ Planned hostUpdate run checks ∧
        ⟨.startLogging runLog, .ok ()⟩ ∈ checks ∧ (∀ ev ∈ checks, disrupts ev.1 = false) ∧
          Answered (onHost (updateHooks hostUpdate.auto)) events flashing ∧
            Runs (run.runUpdates Unit).run events outcome ∧ Accounted Unit run events outcome ∧
              Closes runLog outcome closing updateExecution.2) :=
  ⟨by decide +kernel, update_command_accounts runs_updateExecution⟩

end Aldis.Cli

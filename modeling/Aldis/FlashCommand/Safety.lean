import Aldis.FlashCommand.Segments

/-!
# The flash command keeps its warrant

Whatever is answered, every call that touches the printer is warranted, and however the command
ends, it says what became of Klipper.
-/

namespace Aldis.Cli

open Interaction World Attempt UpdateRun Text Octets

variable {unit : KlipperUnit}

section Reading

theorem observedState_none {call : HostCall} (h : act unit call ≠ .query)
    (answer : HostAnswer call) : observedState unit ⟨call, answer⟩ = none := by
  cases call with
  | run runner command => exact observedState_of_act h answer
  | _ => rfl

/-- A backend's calls neither observe nor control Klipper's unit. -/
theorem act_of_works {call : HostCall} (h : Works unit (.host call)) :
    act unit call ≠ .query ∧ act unit call ≠ .stop ∧ act unit call ≠ .start := by
  rcases h with hc | hf
  · cases call with
    | run runner command => cases hc
    | flash call => cases hc
    | _ => exact ⟨nofun, nofun, nofun⟩
  · have hact : act unit call = .flash := of_decide_eq_true hf
    rw [hact]
    exact ⟨nofun, nofun, nofun⟩

theorem works_hostEvents {tr : List CliEvent} (h : ∀ ev ∈ tr, Works unit ev.1) :
    ∀ ev ∈ hostEvents tr,
      act unit ev.1 ≠ .query ∧ act unit ev.1 ≠ .stop ∧ act unit ev.1 ≠ .start := by
  intro ev hev
  exact act_of_works (h _ (mem_hostEvents_iff.1 hev))

theorem works_of_calm {tr : List CliEvent} (h : ∀ ev ∈ tr, Calm ev.1) :
    ∀ ev ∈ tr, Works unit ev.1 := fun ev hev => .inl (h ev hev)

theorem findSome_none {past : List Event} (h : ∀ ev ∈ past, act unit ev.1 ≠ .query) :
    past.findSome? (observedState unit) = none :=
  List.findSome?_eq_none_iff.2 fun ev hev => observedState_none (h ev hev) ev.2

/-- What a backend does adds no observation of Klipper's unit. -/
theorem firstObserved_append_works {past : List Event} {tr : List CliEvent}
    (h : ∀ ev ∈ tr, Works unit ev.1) :
    firstObserved unit (past ++ hostEvents tr) = firstObserved unit past := by
  rw [firstObserved, List.findSome?_append,
    findSome_none fun ev hev => (works_hostEvents h ev hev).1, Option.or_none]
  rfl

theorem lastObserved_append_works {past : List Event} {tr : List CliEvent}
    (h : ∀ ev ∈ tr, Works unit ev.1) :
    lastObserved unit (past ++ hostEvents tr) = lastObserved unit past := by
  rw [lastObserved, List.reverse_append, List.findSome?_append, findSome_none, Option.none_or]
  · rfl
  · exact fun ev hev => (works_hostEvents h ev (List.mem_reverse.1 hev)).1

theorem lastObserved_concat {past : List Event} {output : CommandOutput} :
    lastObserved unit (past ++ [serviceEvent unit "is-active" (.ok output)]) =
      some (ServiceState.ofOutput output.stdout) := by
  rw [lastObserved, List.reverse_append, List.reverse_singleton, List.singleton_append,
    List.findSome?_cons, observedState_query]

theorem SeenInactive.append {past : List Event} (h : SeenInactive unit past) {more : List Event}
    (hm : ∀ ev ∈ more, act unit ev.1 ≠ .start) : SeenInactive unit (past ++ more) := by
  obtain ⟨x, seen, y, rfl, hseen, hy⟩ := h
  refine ⟨x, seen, y ++ more, by simp, hseen, ?_⟩
  exact List.forall_mem_append.2 ⟨hy, hm⟩

/-- After Klipper was started, and not stopped again, it is not held. -/
theorem not_held_of_start {past past' : List Event}
    {answer : Except CommandError CommandOutput}
    (h : ∀ ev ∈ past', act unit ev.1 ≠ .stop) :
    ¬ HeldStopped unit (past ++ serviceEvent unit "start" answer :: past') := by
  rintro ⟨x, output, y, he, -, hy⟩
  rcases List.append_eq_append_iff.1 he with ⟨z, rfl, hz⟩ | ⟨z, rfl, hz⟩
  · rcases List.cons_eq_append_iff.1 hz with ⟨rfl, hz⟩ | ⟨z, rfl, rfl⟩
    · exact serviceEvent_ne (by decide) _ _ (List.cons.inj hz).1
    · exact h _ (List.mem_append_right _ List.mem_cons_self) act_stop
  · rcases List.cons_eq_append_iff.1 hz with ⟨rfl, hz⟩ | ⟨z, rfl, rfl⟩
    · exact serviceEvent_ne (by decide) _ _ (List.cons.inj hz).1.symm
    · exact hy _ (List.mem_append_right _ List.mem_cons_self) act_start

theorem not_held_of_unstopped {past : List Event}
    (h : ∀ answer, serviceEvent unit "stop" answer ∉ past) : ¬ HeldStopped unit past := by
  rintro ⟨x, output, y, rfl, -, -⟩
  exact h _ (List.mem_append_right _ List.mem_cons_self)

end Reading

variable {V : Type} {arguments : FlashArgs} {ready : ReadyFlash V}

section Selected

/-- The calls of stopping Klipper, on the command line. -/
theorem stop_confined {coordinator : BuildCoordinator} {name : Str} :
    (confined CliAnswer fun call => Calm call ∨ halts coordinator.unit call).Ensures
      ((coordinator.ensureKlipperStopped name none).handle (onHost flashHooks)) ()
      fun _ _ => True := by
  let K : HostCall → Prop := fun call => silent call = true ∨
    call = .run .service (systemctl "is-active" coordinator.unit) ∨
      call = .run .service (systemctl "stop" coordinator.unit)
  have hcommand : ∀ {action}, K (.run .service (systemctl action coordinator.unit)) →
      Makes K (fun _ => True) (KlipperService.runSystemctl coordinator.unit action) := fun h =>
    .bind (makes_run.2 h) fun _ => makes_check fun _ => True.intro
  have hstate : Makes K (fun _ => True) (KlipperService.state coordinator.unit) :=
    .bind (hcommand (.inr (.inl rfl))) fun _ => makes_pure _
  have hobserved : ∀ state, Makes K (fun _ => True) (coordinator.stopObserved name state) := by
    intro state
    cases state with
    | active =>
        refine .bind (makes_hook.2 (.inl rfl)) fun _ => ?_
        refine .bind ((makes_adapt _ _).2 (.bind (hcommand (.inr (.inr rfl))) fun output => ?_))
          fun _ => .bind ((makes_adapt _ _).2 hstate) fun state => ?_
        · simp only [makes_ite, makes_pure, makes_throw, implies_true, and_self]
        · cases state with
          | inactive => exact makes_pure _
          | _ => exact True.intro
    | inactive => exact makes_pure _
    | _ => exact True.intro
  have hstop : (confined HostAnswer K).Ensures (coordinator.ensureKlipperStopped name none) ()
      fun _ _ => True := by
    refine Ensures.bind hstate.only fun outcome _ _ => ?_
    cases outcome with
    | error error => exact True.intro
    | ok state => exact Ensures.bind (hobserved state).only fun _ _ _ => True.intro
  refine hstop.handle fun call hcall =>
    onHost_confined flashHooks_terminal (fun _ => .inl rfl) ?_ hcall
  rintro call (hs | hq | hq) _
  · exact .inl (calm_of_silent hs)
  · exact .inr (.inl (congrArg CliCall.host hq))
  · exact .inr (.inr (congrArg CliCall.host hq))

theorem unasked_of_halt {call : CliCall} (h : Calm call ∨ halts ready.coordinator.unit call) :
    requests call = false := by
  rcases h with hc | rfl | rfl
  · cases call with
    | host call =>
        cases call with
        | flash call => cases hc
        | _ => rfl
    | _ => rfl
  · rfl
  · rfl

theorem unstarted_of_halt {call : HostCall}
    (h : Calm (.host call) ∨ halts unit (.host call)) : act unit call ≠ .start := by
  rcases h with hc | hq | hq
  · exact (act_of_works (.inl hc)).2.2
  · rw [CliCall.host.inj hq, act_query]
    nofun
  · rw [CliCall.host.inj hq, act_stop]
    nofun

/-- What a flash has seen of Klipper, and what it may have left of the MCU. -/
structure Flashed (ready : ReadyFlash V) (result : Observed FileFlashError FlashResult)
    (tr : List CliEvent) : Prop where
  observed : result.1 = (firstObserved ready.coordinator.unit (hostEvents tr)).map
    fun state => decide (state = .active)
  stopped : ∀ answer, serviceEvent ready.coordinator.unit "stop" answer ∈ hostEvents tr →
    result.1 = some true
  unstarted : ∀ ev ∈ hostEvents tr, act ready.coordinator.unit ev.1 ≠ .start
  spared : ∀ error, result.2 = .error error → error.allowsKlipperRestore = true →
    ∀ ev ∈ tr, requests ev.1 = false

theorem observed_effects (past : List Event) :
    firstObserved unit (effects past) = firstObserved unit past := by
  induction past with
  | nil => rfl
  | cons ev past ih =>
      cases hh : isHook ev.1 with
      | true =>
          obtain ⟨call, answer⟩ := ev
          cases call with
          | hook call =>
              rw [effects, List.filter_cons_of_neg (by simp [isHook])]
              exact ih
          | _ => cases hh
      | false =>
          rw [effects, List.filter_cons_of_pos (by simp [hh]), firstObserved, firstObserved,
            List.findSome?_cons, List.findSome?_cons]
          cases observedState unit ev with
          | some state => rfl
          | none => exact ih

/-- Klipper was stopped first, and the backend only flashed. -/
theorem runs_stopThen {flash : CliAttempt FileFlashError FlashResult} {tr : List CliEvent}
    {result : Observed FileFlashError FlashResult}
    (hr : Runs (stopThen ready flash) tr result) :
    ∃ stop work stopped, tr = stop ++ work ∧
      Runs ((ready.coordinator.ensureKlipperStopped ready.target none).handle
        (onHost flashHooks)) stop (result.1, stopped) ∧
      ((∃ error, stopped = .error error ∧ work = [] ∧
          result.2 = .error (.coordinator (.coordinator error))) ∨
        stopped = .ok () ∧ Runs flash.run work result.2) := by
  obtain ⟨stop, ⟨first, stopped⟩, work, rfl, hstop, hwork⟩ := runs_bind_iff.1 hr
  cases stopped with
  | error error =>
      obtain ⟨rfl, rfl⟩ := runs_pure_iff.1 hwork
      exact ⟨stop, [], _, rfl, hstop, .inl ⟨error, rfl, rfl, rfl⟩⟩
  | ok u =>
      obtain ⟨pre, flashed, post, rfl, hflash, hreturn⟩ := runs_bind_iff.1 hwork
      obtain ⟨rfl, rfl⟩ := runs_pure_iff.1 hreturn
      rw [List.append_nil]
      exact ⟨stop, pre, _, rfl, hstop, .inr ⟨rfl, hflash⟩⟩

/-- What stopping Klipper has seen, on the command line. -/
theorem halted_of_handled {stop : List CliEvent} {result : Observed CoordinatorError Unit}
    (hr : Runs ((ready.coordinator.ensureKlipperStopped ready.target none).handle
      (onHost flashHooks)) stop result) :
    ∃ tr, hostEvents stop = effects tr ∧ Halted ready.coordinator.unit result tr := by
  obtain ⟨tr, htr, ht⟩ := runs_handle_iff.1 hr
  exact ⟨tr, hostEvents_of_answered flashHooks_terminal ht, halted_of_runs htr⟩

theorem flashed_of_runs {tr : List CliEvent} {result : Observed FileFlashError FlashResult}
    (hr : Runs (flashSelected arguments ready) tr result) : Flashed ready result tr := by
  rcases flashSelected_cases arguments ready with
    ⟨error, he⟩ | ⟨flash, hflash, he⟩
  · rw [he] at hr
    obtain ⟨rfl, rfl⟩ := runs_pure_iff.1 hr
    exact ⟨rfl, nofun, nofun, fun _ _ _ => nofun⟩
  · rw [he] at hr
    obtain ⟨stop, work, stopped, rfl, hstop, hwork⟩ := runs_stopThen hr
    obtain ⟨tr, htr, halted⟩ := halted_of_handled hstop
    have hw : ∀ ev ∈ work, Works ready.coordinator.unit ev.1 := by
      rcases hwork with ⟨_, -, rfl, -⟩ | ⟨-, hrun⟩
      · exact nofun
      · exact (Ensures.calls hflash.works.only hrun).1
    have hquiet : ∀ ev ∈ stop, requests ev.1 = false := by
      intro ev hev
      exact unasked_of_halt ((Ensures.calls stop_confined hstop).1 ev hev)
    refine ⟨?_, fun answer hmem => ?_, fun ev hev => ?_, fun error herror hallows => ?_⟩
    · rw [hostEvents_append, firstObserved_append_works hw, htr, observed_effects]
      exact halted.observed
    · rw [hostEvents_append] at hmem
      rcases List.mem_append.1 hmem with hmem | hmem
      · rw [htr] at hmem
        exact halted.stopped answer (List.mem_of_mem_filter hmem)
      · exact absurd act_stop (works_hostEvents hw _ hmem).2.1
    · rw [hostEvents_append] at hev
      rcases List.mem_append.1 hev with hev | hev
      · exact unstarted_of_halt ((Ensures.calls stop_confined hstop).1 _ (mem_hostEvents_iff.1 hev))
      · exact (works_hostEvents hw ev hev).2.2
    · rw [List.forall_mem_append]
      refine ⟨hquiet, ?_⟩
      rcases hwork with ⟨_, -, rfl, -⟩ | ⟨-, hrun⟩
      · exact nofun
      · rw [herror] at hrun
        rcases hflash.fails work error hrun with hs | hunasked
        · have hs : error.allowsKlipperRestore = false := hs
          rw [hallows] at hs
          cases hs
        · exact hunasked

theorem Returned.append {past more : List CliEvent} (h : Returned arguments ready past) :
    Returned arguments ready (past ++ more) := by
  obtain ⟨mcu, w, flash, x, wait, y, first, result, hmcu, rfl, hflash, hwait⟩ := h
  exact ⟨mcu, w, flash, x, wait, y ++ more, first, result, hmcu, by simp only [List.append_assoc],
    hflash, hwait⟩

theorem Spared.append {past more : List CliEvent} (h : Spared arguments ready past) :
    Spared arguments ready (past ++ more) := by
  obtain ⟨w, flash, x, first, error, rfl, hflash, hactive, hallows, hspared⟩ := h
  exact ⟨w, flash, x ++ more, first, error, by simp only [List.append_assoc], hflash, hactive,
    hallows, hspared⟩

end Selected

variable [Semver V] {J : Type} [DictionaryReader J]

section Cleared

structure Cleared (J : Type) [DictionaryReader J] (arguments : FlashArgs) (ready : ReadyFlash V)
    (past : List CliEvent) : Prop where
  prepared : Prepared J arguments ready past
  found : ∃ mcu, ready.inventory.find ready.target = some mcu
  accepted : arguments.force = true ∨ ∃ prompt, ⟨.ui (.confirm prompt), true⟩ ∈ past
  idle : FoundIdle (hostEvents past)

theorem Cleared.append {past more : List CliEvent} (h : Cleared J arguments ready past) :
    Cleared J arguments ready (past ++ more) := by
  have hp := List.prefix_append past more
  refine ⟨h.prepared.mono hp, h.found,
    h.accepted.imp id fun ⟨prompt, hmem⟩ => ⟨prompt, hp.subset hmem⟩, ?_⟩
  rw [hostEvents_append]
  exact h.idle.mono (List.prefix_append _ _)

/-- What is flashed is the file that was read and checked. -/
theorem Cleared.sendsFile {past : List CliEvent} (h : Cleared J arguments ready past) :
    SendsFile J arguments ready (flashSelected arguments ready) := by
  obtain ⟨mcu, hmcu⟩ := h.found
  unfold flashSelected
  cases hp : ready.prebuilt with
  | none => exact .file
  | some request => exact .image hmcu (by rw [h.prepared.suits mcu hmcu, hp])

theorem Cleared.warranted_halt {past : List CliEvent} (h : Cleared J arguments ready past)
    {call : CliCall} (hc : halts ready.coordinator.unit call)
    (hs : queries ready.coordinator.unit call = false → Sending J arguments ready past call) :
    Warranted J arguments past call ready := by
  refine ⟨h.prepared, h.accepted, h.idle, fun hq _ => hs hq, fun hf => ?_, fun hs => ?_⟩
  · rcases hc with rfl | rfl
    · rw [flashes, act_query] at hf
      cases hf
    · rw [flashes, act_stop] at hf
      cases hf
  · rcases hc with rfl | rfl
    · rw [starts, act_query] at hs
      cases hs
    · rw [starts, act_stop] at hs
      cases hs

theorem Cleared.warranted_flash {past : List CliEvent} (h : Cleared J arguments ready past)
    (hi : SeenInactive ready.coordinator.unit (hostEvents past)) {call : CliCall}
    (hc : flashes ready.coordinator.unit call = true) (hs : Sending J arguments ready past call) :
    Warranted J arguments past call ready := by
  refine ⟨h.prepared, h.accepted, h.idle, fun _ _ => hs, fun _ => hi, fun hs => ?_⟩
  cases call with
  | host call => exact absurd (of_decide_eq_true hs) (act_of_works (.inr hc)).2.2
  | _ => cases hs

theorem Cleared.warranted_start {past : List CliEvent} (h : Cleared J arguments ready past)
    (hm : Returned arguments ready past ∨ Spared arguments ready past) {call : CliCall}
    (hc : starts ready.coordinator.unit call = true) : Warranted J arguments past call ready := by
  refine ⟨h.prepared, h.accepted, h.idle, fun _ hs => ?_, fun hf => ?_, fun _ => hm⟩
  · rw [hc] at hs
    cases hs
  cases call with
  | host call => exact absurd (of_decide_eq_true hc) (act_of_works (.inr hf)).2.2
  | _ => cases hc

/-- Once everything is cleared, the flash is warranted throughout. -/
theorem flashSelected_warranted {past : List CliEvent} (h : Cleared J arguments ready past) :
    (warranting J arguments V).Ensures (flashSelected arguments ready) past fun result past' =>
      ∃ tr, past' = past ++ tr ∧ Runs (flashSelected arguments ready) tr result := by
  have hpermitted : (warranting J arguments V).Ensures (flashSelected arguments ready) past
      fun _ _ => True := by
    rcases flashSelected_cases arguments ready with
      ⟨error, he⟩ | ⟨flash, hflash, he⟩
    · rw [he]
      exact True.intro
    · have hsends := h.sendsFile
      rw [he] at hsends ⊢
      refine Ensures.bind (Ensures.of_confined_begins stop_confined ?_) ?_
      · intro tr call next _ hcall hb hd
        rcases hcall with hc | hc
        · rw [hc] at hd
          cases hd
        · exact ⟨ready, h.append.warranted_halt hc fun _ =>
            ⟨_, past, tr, _, hsends, rfl, hb.bind _⟩⟩
      · rintro ⟨first, stopped⟩ _ ⟨tr, rfl, hstop, -⟩
        cases stopped with
        | error error => exact True.intro
        | ok u =>
            obtain ⟨tr', htr', halted⟩ := halted_of_handled hstop
            obtain ⟨x, output, rfl, hinactive⟩ := halted.inactive rfl
            have hseen : SeenInactive ready.coordinator.unit (hostEvents (past ++ tr)) := by
              refine ⟨hostEvents past ++ effects x,
                serviceEvent ready.coordinator.unit "is-active" (.ok output), [], ?_, ?_, nofun⟩
              · rw [hostEvents_append, htr', effects, List.filter_append, List.append_assoc]
                rfl
              · rw [observedState_query, hinactive]
            refine Ensures.bind (Ensures.of_confined_begins hflash.works.only ?_) fun _ _ _ =>
              True.intro
            intro work call next hwork hcall hb hd
            rcases hcall with hc | hc
            · rw [hc] at hd
              cases hd
            · have hsending : Sending J arguments ready (past ++ tr ++ work) call :=
                ⟨_, past, tr ++ work, _, hsends, List.append_assoc .., 
                  ((Begins.of_runs hstop).bind _).trans (hb.bind _)⟩
              refine ⟨ready, h.append.append.warranted_flash ?_ hc hsending⟩
              rw [hostEvents_append]
              exact hseen.append fun ev hev => (works_hostEvents hwork ev hev).2.2
  exact hpermitted.traced.mono fun _ _ hpost => hpost.2

end Cleared

section Command

/-- What touches nothing needs no warrant. -/
theorem calm_warranted {α ε : Type} {x : CliAttempt ε α} {T : ε → Prop} (hx : Makes Calm T x)
    (past : List CliEvent) :
    (warranting J arguments V).Ensures x.run past fun result past' =>
      ∃ tr, past' = past ++ tr ∧ Runs x.run tr result := by
  refine (Ensures.of_confined_trace (C := fun past call => disrupts call = true →
    ∃ ready : ReadyFlash V, Warranted J arguments past call ready) hx.only ?_).mono ?_
  · intro tr call _ hcall hd
    have hcall : disrupts call = false := hcall
    rw [hcall] at hd
    cases hd
  · rintro result past' ⟨tr, rfl, hr, -⟩
    exact ⟨tr, rfl, hr⟩

/-- Every call of what remains is warranted. -/
abbrev Sanctioned (J : Type) [DictionaryReader J] (V : Type) [Semver V] (arguments : FlashArgs)
    {ε α : Type} (x : CliAttempt ε α) (past : List CliEvent) : Prop :=
  (warranting J arguments V).EnsuresOr x past (fun _ _ => True) fun _ _ => True

theorem Makes.sanctioned {α ε : Type} {x : CliAttempt ε α} {T : ε → Prop} (hx : Makes Calm T x)
    (past : List CliEvent) : Sanctioned J V arguments x past := by
  refine (calm_warranted hx past).mono fun result past' _ => ?_
  cases result with
  | ok a => exact True.intro
  | error e => exact True.intro

theorem refuse_sanctioned {α : Type} {reason : Str} (past : List CliEvent) :
    Sanctioned J V arguments (refuse reason : CliAttempt Cause α) past :=
  Makes.sanctioned (makes_refuse (T := fun _ => True) rfl True.intro) past

theorem sanctioned_ui_bind {ε α : Type} {call : UiCall} {f : UiAnswer call → CliAttempt ε α}
    {past : List CliEvent}
    (h : ∀ answer, Sanctioned J V arguments (f answer) (past ++ [⟨.ui call, answer⟩])) :
    Sanctioned J V arguments (ui call >>= f) past := by
  unfold Sanctioned
  rw [ensuresOr_bind]
  refine (ensuresOr_perform (CliCall.ui call) _ _ _).2 ⟨nofun, ?_⟩
  rintro answer _ rfl
  exact h answer

theorem ui_sanctioned {call : UiCall} (past : List CliEvent) :
    Sanctioned J V arguments (ui call : CliAttempt Cause (UiAnswer call)) past :=
  Makes.sanctioned (T := fun _ => True) (makes_ui.2 rfl) past

/-- A part of the run of which the command sees the result. -/
theorem sanctioned_quiet_bind {ε ε' α β : Type} {x : HostAttempt ε' α}
    {f : Except ε' α → CliAttempt ε β} {past : List CliEvent} (hx : Quiet x)
    (h : ∀ result tr, Runs (asHost flashHooks x).run tr result →
      Sanctioned J V arguments (f result) (past ++ tr)) :
    Sanctioned J V arguments (ExceptT.lift (asHost flashHooks x).run >>= f) past := by
  unfold Sanctioned
  rw [ensuresOr_bind, ensuresOr_lift]
  refine (calm_warranted (Quiet.calm flashHooks_terminal hx fun _ => True.intro) past).mono ?_
  rintro result _ ⟨tr, rfl, hr⟩
  exact h result tr hr

/-- Klipper's start, where it is warranted. -/
theorem startAndVerify_warranted {past : List CliEvent} (h : Cleared J arguments ready past)
    (hm : Returned arguments ready past ∨ Spared arguments ready past) :
    (warranting J arguments V).Ensures
      (asHost flashHooks ready.coordinator.startAndVerify).run past fun _ past' =>
        past <+: past' := by
  have hstart : Makes (fun call => Calm call ∨
      call = .host (.run .service (systemctl "is-active" ready.coordinator.unit)) ∨
        starts ready.coordinator.unit call = true) (fun _ => True)
      (asHost flashHooks ready.coordinator.startAndVerify) := by
    refine makes_asHost flashHooks_terminal startAndVerify_calls (fun _ => .inl rfl) ?_
    rintro call (rfl | rfl) _
    · exact .inr (.inr (decide_eq_true act_start))
    · exact .inr (.inl rfl)
  refine (Ensures.of_confined_trace hstart.only ?_).mono ?_
  · intro tr call _ hcall hd
    rcases hcall with hc | hc | hc
    · rw [hc] at hd
      cases hd
    · refine ⟨ready, h.append.warranted_halt (.inl hc) fun hq => ?_⟩
      rw [hc, queries, act_query] at hq
      cases hq
    · exact ⟨ready, h.append.warranted_start (hm.imp Returned.append Spared.append) hc⟩
  · rintro result past' ⟨tr, rfl, -, -⟩
    exact List.prefix_append _ _

theorem startAndReconnect_sanctioned {past : List CliEvent} {verb : Str}
    (h : Cleared J arguments ready past) (hm : Returned arguments ready past) :
    Sanctioned J V arguments (startAndReconnect ready verb) past := by
  unfold startAndReconnect
  refine sanctioned_ui_bind fun _ => ?_
  unfold Sanctioned
  rw [ensuresOr_bind, ensuresOr_lift]
  refine (startAndVerify_warranted h.append (.inl hm.append)).mono fun started past' _ => ?_
  cases started with
  | error error => exact sanctioned_ui_bind fun _ => refuse_sanctioned _
  | ok _ =>
      refine sanctioned_ui_bind fun _ => sanctioned_ui_bind fun _ => ?_
      refine sanctioned_quiet_bind waitForMcus_quiet fun waited tr _ => ?_
      cases waited with
      | error message => exact sanctioned_ui_bind fun _ => refuse_sanctioned _
      | ok _ => exact sanctioned_ui_bind fun _ => ui_sanctioned _

/-- What follows a flash is warranted by it. -/
theorem concludeFlash_sanctioned {past tr : List CliEvent} {mcu : Mcu}
    {flashed : Observed FileFlashError FlashResult} (h : Cleared J arguments ready past)
    (hmcu : ready.inventory.find ready.target = some mcu)
    (hr : Runs (flashSelected arguments ready) tr flashed) :
    Sanctioned J V arguments (concludeFlash ready mcu flashed) (past ++ tr) := by
  obtain ⟨first, error | result⟩ := flashed
  · have hflashed := flashed_of_runs hr
    refine sanctioned_ui_bind fun _ => ?_
    by_cases hallows : error.allowsKlipperRestore = true
    · rw [if_pos hallows]
      unfold Sanctioned
      rw [ensuresOr_bind, ensuresOr_map, ensuresOr_lift]
      unfold BuildCoordinator.restoreAfterFailure
      by_cases hfirst : first = some true
      · rw [if_neg (not_not.2 hfirst)]
        refine (startAndVerify_warranted h.append.append (.inr ⟨past, tr, _, first, error, rfl, hr,
          ?_, hallows, hflashed.spared error rfl hallows⟩)).mono fun _ _ _ => refuse_sanctioned _
        have hobserved := hflashed.observed
        rw [hfirst] at hobserved
        obtain ⟨state, hstate, hactive⟩ := Option.map_eq_some_iff.1 hobserved.symm
        rw [hstate, of_decide_eq_true hactive]
      · rw [if_pos hfirst]
        exact refuse_sanctioned _
    · rw [if_neg hallows]
      exact refuse_sanctioned _
  · refine sanctioned_ui_bind fun _ => sanctioned_ui_bind fun _ => ?_
    refine sanctioned_quiet_bind waitForApplication_quiet fun waited wait hwait => ?_
    cases waited with
    | error message => exact sanctioned_ui_bind fun _ => refuse_sanctioned _
    | ok _ =>
        have hreturned : ∀ shown begun, Returned arguments ready
            (past ++ tr ++ shown ++ begun ++ wait) := fun shown begun =>
          ⟨mcu, past, tr, shown ++ begun, wait, [], first, result, hmcu,
            by simp only [List.append_assoc, List.append_nil], hr, hwait⟩
        exact sanctioned_ui_bind fun _ => startAndReconnect_sanctioned
          h.append.append.append.append.append (hreturned _ _).append

theorem ensurePrinterIdle_unhooked :
    Makes (fun call => isHook call = false) (fun _ => True) ensurePrinterIdle := by
  have hcheck : Makes (fun call => isHook call = false) (fun _ => True)
      ensurePrinterIdle.checkPrintState := by
    refine .bind (makes_mcuCall.2 rfl) fun answer => ?_
    cases answer with
    | error error => exact True.intro
    | ok state => simp only [makes_ite, makes_pure, makes_throw, implies_true, and_self]
  refine .bind (makes_mcuCall.2 rfl) fun answer => ?_
  cases answer with
  | error error => exact hcheck
  | ok info =>
      rw [makes_ite]
      exact ⟨fun _ => makes_pure _, fun _ => hcheck⟩

/-- The check that the printer is idle calls no hook. -/
theorem foundIdle_effects {past : List Event} (h : FoundIdle past) :
    FoundIdle (effects past) := by
  obtain ⟨a, tr, b, rfl, hr⟩ := h
  have htr : tr.filter (fun ev => ! isHook ev.1) = tr := by
    rw [List.filter_eq_self]
    intro ev hev
    rw [(Ensures.calls ensurePrinterIdle_unhooked.only hr).1 ev hev]
    rfl
  refine ⟨effects a, tr, effects b, ?_, hr⟩
  rw [effects, List.filter_append, List.filter_append, htr]
  rfl

theorem foundIdle_of_handled {tr : List CliEvent}
    (hr : Runs (asHost flashHooks ensurePrinterIdle).run tr (.ok ())) :
    FoundIdle (hostEvents tr) := by
  obtain ⟨tr', hidle, ht⟩ := runs_attempt_handle_iff.1 hr
  rw [hostEvents_of_answered flashHooks_terminal ht]
  exact foundIdle_effects ⟨[], tr', [], by simp, hidle⟩

theorem flashConfirmed_sanctioned {past : List CliEvent} (hp : Prepared J arguments ready past)
    (ha : arguments.force = true ∨ ∃ prompt, ⟨.ui (.confirm prompt), true⟩ ∈ past) :
    Sanctioned J V arguments (flashConfirmed arguments ready) past := by
  unfold flashConfirmed
  cases hmcu : ready.inventory.find ready.target with
  | none => exact True.intro
  | some mcu =>
      refine sanctioned_quiet_bind ensurePrinterIdle_quiet fun checked idle hidle => ?_
      cases checked with
      | error message => exact refuse_sanctioned _
      | ok _ =>
          have hcleared : Cleared J arguments ready (past ++ idle) := by
            have hprefix := List.prefix_append past idle
            refine ⟨hp.mono hprefix, ⟨mcu, hmcu⟩,
              ha.imp id fun ⟨prompt, hmem⟩ => ⟨prompt, hprefix.subset hmem⟩, ?_⟩
            rw [hostEvents_append]
            obtain ⟨a, tr, b, he, hr⟩ := foundIdle_of_handled hidle
            exact ⟨hostEvents past ++ a, tr, b, by simp only [he, List.append_assoc], hr⟩
          unfold Sanctioned
          rw [ensuresOr_bind, ensuresOr_lift]
          refine (flashSelected_warranted hcleared).mono ?_
          rintro flashed _ ⟨tr, rfl, hr⟩
          exact concludeFlash_sanctioned hcleared hmcu hr

theorem runFlash_sanctioned : Sanctioned J V arguments (runFlash (V := V) J arguments) [] := by
  unfold runFlash Sanctioned
  rw [ensuresOr_bind]
  refine (calm_warranted prepareFlash_calm []).mono ?_
  rintro result past ⟨tr, he, hr⟩
  rw [List.nil_append] at he
  subst he
  cases result with
  | error error => exact True.intro
  | ok ready =>
      have hprepared := prepared_of_runs hr
      change Sanctioned J V arguments (ite _ _ _) past
      by_cases hforce : arguments.force = true
      · rw [if_pos hforce]
        exact flashConfirmed_sanctioned hprepared (.inl hforce)
      · rw [if_neg hforce]
        refine sanctioned_ui_bind fun confirmed => ?_
        cases confirmed with
        | false => exact ui_sanctioned _
        | true =>
            exact flashConfirmed_sanctioned (hprepared.mono (List.prefix_append _ _))
              (.inr ⟨_, List.mem_append_right _ (List.mem_singleton_self _)⟩)

/-- Whatever is answered, and wherever the command ends, a call that touches the printer follows
checks that passed on what is flashed, the operator's consent and an idle printer; a flash follows
Klipper being inactive, and Klipper's start the MCU's return or a failure that spared it. -/
theorem flash_command_warranted {tr pre post : List CliEvent} {ev : CliEvent}
    {result : Except Cause Unit} (hr : Runs (runFlash (V := V) J arguments).run tr result)
    (he : tr = pre ++ ev :: post) (hd : disrupts ev.1 = true) :
    ∃ ready : ReadyFlash V, Warranted J arguments pre ev.1 ready := by
  subst he
  exact Ensures.audited_permits runFlash_sanctioned hr hd

end Command

section Host

def commandHost (past : List CliEvent) : (call : CliCall) → CliAnswer call
  | .acquireLock => .ok ()
  | .klipperUnit _ => .ok none
  | .discoverMcus _ => .ok ⟨[hostMcu], []⟩
  | .probePeers _ _ => .ok []
  | .createWorkspace => .ok "/run/aldis"
  | .createWorkspaceAt _ => .ok ()
  | .startLogging _ => .ok ()
  | .stdinIsTerminal => true
  | .refreshCheckout _ => .ok "already current"
  | .checkoutRevision _ => .ok .indeterminate
  | .ui (.confirm _) => true
  | .ui (.action _) | .ui (.block _) | .ui (.begin _) | .ui (.finishSuccess _)
  | .ui .finishFailure | .ui (.heading _) | .ui .status | .ui .finishBeforeFlash
  | .ui (.unreachable _) => ()
  | .probeApplicationStart _ => .ok .notFound
  | .leaveSystem _ _ | .rebootPicoboot _ | .firmwareRestart _ => .ok ()
  | .usbDeviceDirs _ => []
  | .host (.mcu .discoverMcus) => .ok ⟨[hostMcu], []⟩
  | .host call => klipperHost (hostEvents past) call

def hostArguments : FlashArgs where
  firmware := "/home/pi/klipper.elf"
  target := "host"
  moonraker := "http://localhost:7125"
  config := some "/home/pi/aldis.toml"
  klipperSource := "/home/pi/klipper"
  force := false
  isLoopbackUrl := fun _ => true
  unicode := true
  arch := .x86_64
  sha1 := fun _ => []

def commandExecution : List CliEvent × Except Cause Unit :=
  (runFlash (V := Semver.Rank) Unit hostArguments).run.interact commandHost []

theorem runs_commandExecution : Runs (runFlash (V := Semver.Rank) Unit hostArguments).run
    commandExecution.1 commandExecution.2 := runs_interact_nil commandHost _

end Host

theorem flash_command_warranted_on_host :
    (∃ ev ∈ commandExecution.1, starts .default ev.1 = true) ∧
      ∀ pre ev post, commandExecution.1 = pre ++ ev :: post → disrupts ev.1 = true →
        ∃ ready : ReadyFlash Semver.Rank, Warranted Unit hostArguments pre ev.1 ready :=
  ⟨by decide +kernel, fun _ _ _ he hd => flash_command_warranted runs_commandExecution he hd⟩

end Aldis.Cli

import Aldis.UpdateRun.Safety

/-!
# What stopping and starting Klipper does

The traces of the coordinator's two operations on Klipper's unit, whatever the service answers.
-/

namespace Aldis

open Interaction World UpdateRun Text

variable {coordinator : BuildCoordinator} {name : Str} {unit : KlipperUnit}

/-- What stopping Klipper has seen and done; the coordinator's cell was empty before. -/
structure Halted (unit : KlipperUnit) (result : Observed CoordinatorError Unit)
    (tr : List Event) : Prop where
  inactive : result.2 = .ok () → ∃ x output,
    tr = x ++ [serviceEvent unit "is-active" (.ok output)] ∧
      ServiceState.ofOutput output.stdout = .inactive
  observed : result.1 = (firstObserved unit tr).map fun state => decide (state = .active)
  stopped : ∀ answer, serviceEvent unit "stop" answer ∈ tr → result.1 = some true

/-- A failed stop has only its observations to account for. -/
theorem Halted.of_error {first : Option Bool} {error : CoordinatorError} {tr : List Event}
    (ho : first = (firstObserved unit tr).map fun state => decide (state = .active))
    (hs : ∀ answer, serviceEvent unit "stop" answer ∈ tr → first = some true) :
    Halted unit (first, .error error) tr where
  inactive h := by cases h
  observed := ho
  stopped := hs

section Commands

@[simp] theorem observedState_query (output : CommandOutput) :
    observedState unit (serviceEvent unit "is-active" (.ok output)) =
      some (ServiceState.ofOutput output.stdout) := by
  simp only [serviceEvent, observedState, act_query, if_true]

@[simp] theorem observedState_error {action : Str} (error : CommandError) :
    observedState unit (serviceEvent unit action (.error error)) = none := rfl

theorem observedState_of_act {runner : Runner} {command : BuildCommand}
    (h : act unit (.run runner command) ≠ .query) (answer : Except CommandError CommandOutput) :
    observedState unit ⟨.run runner command, answer⟩ = none := by
  cases answer with
  | error error => rfl
  | ok output => simp only [observedState, if_neg h]

@[simp] theorem observedState_stop (answer : Except CommandError CommandOutput) :
    observedState unit (serviceEvent unit "stop" answer) = none :=
  observedState_of_act (by rw [act_stop]; nofun) answer

@[simp] theorem observedState_start (answer : Except CommandError CommandOutput) :
    observedState unit (serviceEvent unit "start" answer) = none :=
  observedState_of_act (by rw [act_start]; nofun) answer

theorem serviceEvent_ne {action action' : Str} (h : action ≠ action')
    (answer answer' : Except CommandError CommandOutput) :
    serviceEvent unit action answer ≠ serviceEvent unit action' answer' := by
  intro he
  have hcall := (Sigma.mk.inj he).1
  exact h (systemctl_action_injective (HostCall.run.inj hcall).2)

variable {past : List Event}

/-- One query, recorded. -/
theorem state_recorded {Q : ServiceState → List Event → Prop}
    {R : ServiceError → List Event → Prop}
    (hok : ∀ output, Q (ServiceState.ofOutput output.stdout)
      (past ++ [serviceEvent unit "is-active" (.ok output)]))
    (herror : ∀ e error, R e (past ++ [serviceEvent unit "is-active" (.error error)])) :
    recording.EnsuresOr (KlipperService.state unit) past Q R := by
  unfold KlipperService.state KlipperService.runSystemctl
  simp only [ensuresOr_bind, ensuresOr_run, recording_permits, recording_step, true_and]
  rintro answer _ rfl
  cases answer with
  | ok output => exact hok output
  | error error => exact herror _ error

/-- One command that changes the unit's state, recorded. -/
theorem runStateChange_recorded {action : Str} {Q : Unit → List Event → Prop}
    {R : ServiceError → List Event → Prop}
    (hok : ∀ output, output.success = true →
      Q () (past ++ [serviceEvent unit action (.ok output)]))
    (herror : ∀ e answer, R e (past ++ [serviceEvent unit action answer])) :
    recording.EnsuresOr (KlipperService.runStateChange unit action) past Q R := by
  unfold KlipperService.runStateChange KlipperService.runSystemctl
  simp only [ensuresOr_bind, ensuresOr_run, recording_permits, recording_step, true_and]
  rintro answer _ rfl
  cases answer with
  | error error => exact herror _ _
  | ok output =>
      change recording.EnsuresOr (if output.success then _ else _) _ _ _
      rw [ensuresOr_ite]
      exact ⟨hok output, fun _ => herror _ _⟩

end Commands

section Stop

theorem stopObserved_recorded {past : List Event} {state : ServiceState}
    {Q : Unit → List Event → Prop} {R : CoordinatorError → List Event → Prop}
    (hinactive : state = .inactive → Q () past)
    (hrefused : ∀ e, state ≠ .active → R e past)
    (hstop : state = .active → ∀ e asked answer, R e (past ++
      [⟨.hook (.progress name .stoppingKlipper), asked⟩,
        serviceEvent coordinator.unit "stop" answer]))
    (hseen : state = .active → ∀ asked answer seen,
      (∀ output, seen = .ok output → ServiceState.ofOutput output.stdout = .inactive → Q () (past ++
        [⟨.hook (.progress name .stoppingKlipper), asked⟩,
          serviceEvent coordinator.unit "stop" answer,
          serviceEvent coordinator.unit "is-active" seen])) ∧
      ∀ e, R e (past ++ [⟨.hook (.progress name .stoppingKlipper), asked⟩,
        serviceEvent coordinator.unit "stop" answer,
        serviceEvent coordinator.unit "is-active" seen])) :
    recording.EnsuresOr (coordinator.stopObserved name state) past Q R := by
  cases state with
  | inactive => exact hinactive rfl
  | failed => exact hrefused _ nofun
  | transitioning state => exact hrefused _ nofun
  | unknown state => exact hrefused _ nofun
  | active =>
      simp only [BuildCoordinator.stopObserved, ensuresOr_bind, ensuresOr_hook, recording_permits,
        recording_step, true_and]
      rintro asked _ rfl
      rw [ensuresOr_adapt]
      refine runStateChange_recorded (fun output _ => ?_) fun e answer => ?_
      · rw [ensuresOr_adapt]
        refine state_recorded (fun seen => ?_) fun e error => ?_
        · have hnext := hseen rfl asked (.ok output) (.ok seen)
          simp only [List.append_assoc, List.cons_append, List.nil_append]
          cases hstate : ServiceState.ofOutput seen.stdout with
          | inactive => exact hnext.1 seen rfl hstate
          | active => exact hnext.2 _
          | failed => exact hnext.2 _
          | transitioning state => exact hnext.2 _
          | unknown state => exact hnext.2 _
        · have hnext := hseen rfl asked (.ok output) (.error error)
          simp only [List.append_assoc, List.cons_append, List.nil_append]
          exact hnext.2 _
      · have hnext := hstop rfl
        simp only [List.append_assoc, List.cons_append, List.nil_append]
        exact hnext _ asked answer

/-- Whatever the service answers, stopping Klipper ends as `Halted` says. -/
theorem halted_of_runs {tr : List Event} {result : Observed CoordinatorError Unit}
    (hr : Runs (coordinator.ensureKlipperStopped name none) tr result) :
    Halted coordinator.unit result tr := by
  have hspec : recording.Ensures (coordinator.ensureKlipperStopped name none) []
      fun result tr => Halted coordinator.unit result tr := by
    unfold BuildCoordinator.ensureKlipperStopped
    have hstate : recording.EnsuresOr (KlipperService.state coordinator.unit) []
        (fun state past => ∃ output, state = ServiceState.ofOutput output.stdout ∧
          past = [serviceEvent coordinator.unit "is-active" (.ok output)])
        fun _ past => ∃ error, past = [serviceEvent coordinator.unit "is-active" (.error error)] :=
      state_recorded (fun output => ⟨output, rfl, rfl⟩) fun _ error => ⟨error, rfl⟩
    refine Ensures.bind hstate fun outcome past houtcome => ?_
    cases outcome with
    | error e =>
        obtain ⟨error, rfl⟩ := houtcome
        refine .of_error rfl fun answer hmem => ?_
        exact absurd (List.mem_singleton.1 hmem) (serviceEvent_ne (by decide) _ _)
    | ok state =>
        obtain ⟨output, rfl, rfl⟩ := houtcome
        have hfirst : ∀ rest, firstObserved coordinator.unit
            (serviceEvent coordinator.unit "is-active" (.ok output) :: rest) =
              some (ServiceState.ofOutput output.stdout) := by
          intro rest
          rw [firstObserved, List.findSome?_cons, observedState_query]
        have hnot : ∀ answer, serviceEvent coordinator.unit "stop" answer ∉
            [serviceEvent coordinator.unit "is-active" (.ok output)] := fun answer hmem =>
          serviceEvent_ne (by decide) _ _ (List.mem_singleton.1 hmem)
        have hpost : recording.EnsuresOr (coordinator.stopObserved name
            (ServiceState.ofOutput output.stdout))
            [serviceEvent coordinator.unit "is-active" (.ok output)]
            (fun _ past => Halted coordinator.unit
              (some (decide (ServiceState.ofOutput output.stdout = .active)), .ok ()) past)
            fun e past => Halted coordinator.unit
              (some (decide (ServiceState.ofOutput output.stdout = .active)), .error e) past := by
          apply stopObserved_recorded
          · intro hi
            exact ⟨fun _ => ⟨[], output, rfl, hi⟩, by rw [hfirst]; rfl,
              fun answer hmem => absurd hmem (hnot answer)⟩
          · intro e _
            exact .of_error (by rw [hfirst]; rfl) fun answer hmem => absurd hmem (hnot answer)
          · intro ha e asked answer
            exact .of_error (by rw [List.singleton_append, hfirst]; rfl) fun _ _ => by rw [ha]; rfl
          · intro ha asked answer seen
            constructor
            · rintro output' rfl hi
              refine ⟨fun _ => ⟨[serviceEvent coordinator.unit "is-active" (.ok output),
                ⟨.hook (.progress name .stoppingKlipper), asked⟩,
                serviceEvent coordinator.unit "stop" answer], output', rfl, hi⟩, ?_, ?_⟩
              · rw [List.singleton_append, hfirst]
                rfl
              · exact fun _ _ => by rw [ha]; rfl
            · intro e
              exact .of_error (by rw [List.singleton_append, hfirst]; rfl) fun _ _ => by
                rw [ha]; rfl
        refine Ensures.bind hpost fun r past hr => ?_
        cases r with
        | ok _ => exact hr
        | error e => exact hr
  exact hspec.recorded hr

end Stop

section Start

/-- Starting Klipper issues two commands only. -/
theorem startAndVerify_calls : Attempt.Makes (fun call =>
    call = .run .service (systemctl "start" coordinator.unit) ∨
      call = .run .service (systemctl "is-active" coordinator.unit)) (fun _ => True)
    coordinator.startAndVerify := by
  have hcommand : ∀ {action}, HostCall.run .service (systemctl action coordinator.unit) =
        .run .service (systemctl "start" coordinator.unit) ∨
      HostCall.run .service (systemctl action coordinator.unit) =
        .run .service (systemctl "is-active" coordinator.unit) →
      Attempt.Makes (fun call => call = .run .service (systemctl "start" coordinator.unit) ∨
        call = .run .service (systemctl "is-active" coordinator.unit)) (fun _ => True)
        (KlipperService.runSystemctl coordinator.unit action) := fun h =>
    .bind (makes_run.2 h) fun _ => makes_check fun _ => True.intro
  refine .bind ((Attempt.makes_adapt _ _).2 (.bind (hcommand (.inl rfl)) fun output => ?_))
    fun _ => ?_
  · simp only [Attempt.makes_ite, Attempt.makes_pure, Attempt.makes_throw, implies_true, and_self]
  · refine .bind ((Attempt.makes_adapt _ _).2
      (.bind (hcommand (.inr rfl)) fun _ => Attempt.makes_pure _)) fun state => ?_
    cases state with
    | active => exact Attempt.makes_pure _
    | _ => exact True.intro

/-- Starting Klipper issues the command once; it succeeds where Klipper is then seen active. -/
theorem startAndVerify_course {tr : List Event} {result : Except CoordinatorError Unit}
    (hr : Runs coordinator.startAndVerify.run tr result) :
    ∃ answer rest, tr = serviceEvent coordinator.unit "start" answer :: rest ∧
      (result = .ok () → ∃ output, rest =
        [serviceEvent coordinator.unit "is-active" (.ok output)] ∧
          ServiceState.ofOutput output.stdout = .active) := by
  have hspec : recording.EnsuresOr coordinator.startAndVerify []
      (fun _ tr => ∃ answer output, tr = [serviceEvent coordinator.unit "start" answer,
        serviceEvent coordinator.unit "is-active" (.ok output)] ∧
          ServiceState.ofOutput output.stdout = .active)
      fun _ tr => ∃ answer rest, tr = serviceEvent coordinator.unit "start" answer :: rest := by
    unfold BuildCoordinator.startAndVerify
    rw [ensuresOr_bind, ensuresOr_adapt]
    refine runStateChange_recorded (fun output _ => ?_) fun e answer => ⟨answer, [], rfl⟩
    rw [ensuresOr_bind, ensuresOr_adapt]
    refine state_recorded (fun seen => ?_) fun e error => ⟨_, _, rfl⟩
    cases hstate : ServiceState.ofOutput seen.stdout with
    | active => exact ⟨.ok output, seen, rfl, hstate⟩
    | inactive => exact ⟨_, _, rfl⟩
    | failed => exact ⟨_, _, rfl⟩
    | transitioning state => exact ⟨_, _, rfl⟩
    | unknown state => exact ⟨_, _, rfl⟩
  have hpost := Ensures.recorded hspec hr
  cases result with
  | ok _ =>
      obtain ⟨answer, output, rfl, hactive⟩ := hpost
      exact ⟨answer, _, rfl, fun _ => ⟨output, rfl, hactive⟩⟩
  | error e =>
      obtain ⟨answer, rest, rfl⟩ := hpost
      exact ⟨answer, rest, rfl, nofun⟩

end Start

end Aldis

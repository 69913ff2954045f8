import Aldis.FlashCommand.Checks
import Aldis.UpdateCommand

/-!
# What an update offers

The checks before a run touch nothing, and the run that they return offers only what was
discovered, selected, asked for and allowed beside the other printers.
-/

namespace Aldis.Cli

open Interaction World Attempt Fleet UpdateRun Text Octets

variable {V : Type} [Semver V] {arguments : UpdateArgs V} {workspace : RunWorkspace}
  {run : UpdateRun V} {tr : List CliEvent}

/-- The run's plan, and what was checked of it. -/
structure Planned (arguments : UpdateArgs V) (run : UpdateRun V) (past : List CliEvent) :
    Prop where
  locked : ⟨.acquireLock, .ok ()⟩ ∈ past
  controlled : ∃ reported, ⟨.klipperUnit arguments.moonraker, .ok reported⟩ ∈ past ∧
    checkHost arguments.isLoopbackUrl arguments.moonraker reported = .ok run.coordinator.unit
  discovered : ∃ inventory, ⟨.discoverMcus arguments.moonraker, .ok inventory⟩ ∈ past ∧
    ∀ mcu ∈ inventory.mcus, mcu ∈ run.inventory.mcus
  named : ∀ asked ∈ arguments.targets,
    ∃ mcu ∈ run.inventory.mcus, mcu.name = resolveTargetName run.inventory asked
  selected : ∀ name ∈ run.targets, ∃ mcu ∈ run.inventory.mcus, mcu.name = name ∧
    Eligibility.isSelected mcu run.targetVersions
      (selectionFor (arguments.all || arguments.force)) = true ∧
    (arguments.targets = [] ∨
      ∃ asked ∈ arguments.targets, resolveTargetName run.inventory asked = name)
  ordered : ∃ others bridges, run.targets = others ++ bridges ∧
    (∀ name ∈ others, run.inventory.isBridge name = false) ∧
      ∀ name ∈ bridges, run.inventory.isBridge name = true
  bridge : ∀ path, arguments.config = some path → ∃ peers,
    ⟨.probePeers path arguments.moonraker, .ok peers⟩ ∈ past ∧
      bridgeRefusal peers run.coordinator.unit.name run.inventory run.targets = .ok ()

section Calm

theorem updateHooks_terminal {auto : Bool} : Terminal (updateHooks auto) := by
  have hshows : ∀ calls, (confined CliAnswer fun e => ∃ u, e = .ui u).Ensures
      (updateHooks.shows calls) () fun _ _ => True := by
    intro calls
    induction calls with
    | nil => exact True.intro
    | cons call rest ih =>
        exact (ensures_confined_call _ _ _ _ _).2 ⟨⟨call, rfl⟩, fun _ => ih⟩
  intro call
  cases call with
  | approve name current next =>
      unfold updateHooks
      dsimp only
      split
      · exact (ensures_confined_call _ _ _ _ _).2 ⟨⟨_, rfl⟩, fun _ => True.intro⟩
      · exact (ensures_confined_call _ _ _ _ _).2 ⟨⟨_, rfl⟩, fun _ => True.intro⟩
  | progress name progress => cases progress <;> exact hshows _
  | flashed name kconfig bytes => exact hshows _
  | stepStarted step => cases step <;> exact hshows _
  | stepSucceeded step => cases step <;> exact hshows _
  | failed message => exact hshows _

theorem announced_calm {α : Type} {x : CliAttempt Cause α} (hx : Makes Calm (fun _ => True) x) :
    Makes Calm (fun _ => True) (announced x) := by
  refine .bind ((makes_lift _).2 hx.only) fun result => ?_
  cases result with
  | ok a => exact makes_pure a
  | error error => exact .bind (makes_ui.2 rfl) fun _ => (makes_throw _).2 True.intro

omit [Semver V] in
theorem refreshSource_calm : Makes Calm (fun _ => True) (refreshSource arguments) := by
  have hwants : Makes Calm (fun _ => True) (wantsRefresh arguments) := by
    unfold wantsRefresh
    rw [makes_ite]
    refine ⟨fun _ => makes_pure _, fun _ => .bind ((makes_perform _).2 rfl) fun interactive => ?_⟩
    rw [makes_ite]
    exact ⟨fun _ => makes_ui.2 rfl, fun _ => makes_pure _⟩
  refine .bind hwants fun wanted => ?_
  rw [makes_ite]
  refine ⟨fun _ => ?_, fun _ => makes_pure _⟩
  refine .bind (makes_ui.2 rfl) fun _ => .bind ((makes_perform _).2 rfl) fun answer => ?_
  refine .bind (makes_context.2 ?_) fun label => makes_ui.2 rfl
  exact announced_calm (makes_accept fun _ => True.intro)

theorem resolveUnreported_quiet {inventory : McuInventory} :
    Quiet (resolveUnreported inventory) :=
  .bind (resolveAll_quiet inventory.unreported) fun _ => makes_pure _

omit [Semver V] in
theorem probeDiscovered_calm {inventory : McuInventory} :
    Makes Calm (fun _ => True) (probeDiscovered arguments inventory) := by
  unfold probeDiscovered
  rw [makes_ite]
  refine ⟨fun _ => makes_pure _, fun _ => ?_⟩
  refine .bind ((makes_lift _).2 verifyHost_calm.only) fun checked => ?_
  cases checked with
  | error error => exact makes_pure _
  | ok unit =>
      refine .bind ((makes_perform _).2 rfl) fun answer => ?_
      cases answer with
      | error error => exact makes_pure _
      | ok info =>
          rw [makes_ite]
          refine ⟨fun _ => (makes_adapt _ _).2 ?_, fun _ => makes_pure _⟩
          exact Quiet.calm updateHooks_terminal resolveUnreported_quiet fun _ => True.intro

theorem showRefusals_calm {versions : TargetVersions V} {targets : List Str} (mcus : List Mcu) :
    Makes Calm (fun _ => True) (showRefusals versions targets mcus) := by
  induction mcus with
  | nil => exact makes_pure _
  | cons mcu rest ih =>
      refine .bind ?_ fun _ => ih
      unfold showRefusal
      rw [makes_ite]
      refine ⟨fun _ => ?_, fun _ => makes_pure _⟩
      cases Eligibility.downgradeRefusal mcu versions with
      | none => exact makes_pure _
      | some refusal => exact makes_ui.2 rfl

theorem planUpdate_calm {unit : KlipperUnit} {inventory : McuInventory} :
    Makes Calm (fun _ => True) (planUpdate arguments workspace unit inventory) := by
  have hunknown : ∀ unknown, Makes Calm (fun _ => True) (refuseUnknown unknown) := by
    intro unknown
    unfold refuseUnknown
    rw [makes_ite]
    exact ⟨fun _ => makes_pure _, fun _ => (makes_throw _).2 True.intro⟩
  unfold planUpdate
  dsimp only
  refine .bind (hunknown _) fun _ => .bind ((makes_perform _).2 rfl) fun revision => ?_
  refine .bind (makes_ui.2 rfl) fun _ => .bind (showRefusals_calm _) fun _ => ?_
  rw [makes_ite]
  refine ⟨fun _ => ?_, fun _ => ?_⟩
  · exact .bind (makes_ui.2 rfl) fun _ => .bind (makes_ui.2 rfl) fun _ => makes_pure _
  · exact .bind refuseBridge_calm fun _ => makes_pure _

theorem prepareUpdate_calm : Makes Calm (fun _ => True) (prepareUpdate arguments workspace) := by
  refine .bind ((makes_perform _).2 rfl) fun lock => ?_
  refine .bind (makes_context.2 (makes_accept fun _ => True.intro)) fun _ => ?_
  refine .bind (makes_ui.2 rfl) fun _ => .bind refreshSource_calm fun _ => ?_
  refine .bind (makes_context.2 ((makes_adapt _ _).2 verifyHost_calm)) fun unit => ?_
  refine .bind (makes_ui.2 rfl) fun _ => ?_
  refine .bind (makes_context.2 (announced_calm discoverMcusWithRetry_calm)) fun inventory => ?_
  exact .bind probeDiscovered_calm fun _ => planUpdate_calm

end Calm

section Planned

theorem runs_announced_ok {α : Type} {x : CliAttempt Cause α} {a : α}
    (hr : Runs (announced x).run tr (.ok a)) : Runs x.run tr (.ok a) := by
  obtain ⟨result, pre, post, rfl, hx, hrest⟩ := runs_lift_bind_iff.1 hr
  cases result with
  | ok b =>
      obtain ⟨rfl, rfl⟩ := runs_return_ok_iff.1 hrest
      rwa [List.append_nil]
  | error error =>
      obtain ⟨_, _, _, -, -, hthrow⟩ := runs_attempt_bind_ok_iff.1 hrest
      exact absurd hthrow not_runs_throw_ok

omit [Semver V] in
/-- The fallback only adds MCUs. -/
theorem probeDiscovered_ok {inventory after : McuInventory}
    (hr : Runs (probeDiscovered arguments inventory).run tr (.ok after)) :
    ∀ mcu ∈ inventory.mcus, mcu ∈ after.mcus := by
  have hsame : ∀ {tr}, Runs (Pure.pure inventory : CliAttempt Cause McuInventory).run tr
      (.ok after) → ∀ mcu ∈ inventory.mcus, mcu ∈ after.mcus := by
    intro tr hreturn
    rw [(runs_return_ok_iff.1 hreturn).2]
    exact fun _ hmcu => hmcu
  unfold probeDiscovered at hr
  split at hr
  · exact hsame hr
  · obtain ⟨checked, _, t₁, -, -, h₁⟩ := runs_lift_bind_iff.1 hr
    cases checked with
    | error error => exact hsame h₁
    | ok unit =>
        obtain ⟨answer, t₂, -, h₂⟩ := runs_perform_bind_iff.1 h₁
        cases answer with
        | error error => exact hsame h₂
        | ok info =>
            change Runs (if stopsPrints info.state then _ else _ : CliAttempt _ _).run _ _ at h₂
            split at h₂
            · obtain ⟨host, hresolve, -⟩ :=
                runs_attempt_handle_iff.1 (runs_adapt_ok_iff.1 h₂)
              obtain ⟨resolved, _, _, -, -, hreturn⟩ := runs_attempt_bind_ok_iff.1 hresolve
              rw [(runs_return_ok_iff.1 hreturn).2]
              intro mcu hmcu
              exact List.mem_mergeSort.2 (List.mem_append_left _ hmcu)
            · exact hsame h₂

theorem mem_unknownTargets {inventory : McuInventory} {targets : List Str} {name : Str}
    (hname : name ∈ targets) (hu : inventory.mcus.any (·.name == name) = false) :
    name ∈ unknownTargets inventory targets := by
  have hfold : ∀ (targets unknown : List Str), name ∈ targets ∨ name ∈ unknown →
      name ∈ targets.foldl (fun unknown name =>
        if !inventory.mcus.any (·.name == name) && !unknown.contains name then unknown ++ [name]
        else unknown) unknown := by
    intro targets
    induction targets with
    | nil => exact fun unknown h => h.resolve_left List.not_mem_nil
    | cons asked rest ih =>
        intro unknown h
        rw [List.foldl_cons]
        refine ih _ ?_
        rcases h with h | h
        · rcases List.mem_cons.1 h with rfl | hrest
          · by_cases hmem : name ∈ unknown
            · rw [hu, List.contains_iff_mem.2 hmem]
              exact .inr hmem
            · rw [hu, Bool.eq_false_iff.2 (mt List.contains_iff_mem.1 hmem)]
              exact .inr (List.mem_append_right _ (List.mem_singleton_self _))
          · exact .inl hrest
        · split
          · exact .inr (List.mem_append_left _ h)
          · exact .inr h
  exact hfold targets [] (.inl hname)

theorem named_of_known {inventory : McuInventory} {targets : List Str}
    (h : unknownTargets inventory targets = []) :
    ∀ name ∈ targets, ∃ mcu ∈ inventory.mcus, mcu.name = name := by
  intro name hname
  by_cases hu : inventory.mcus.any (·.name == name)
  · obtain ⟨mcu, hmcu, he⟩ := List.any_eq_true.1 hu
    exact ⟨mcu, hmcu, by simpa using he⟩
  · have hmem := mem_unknownTargets hname (Bool.eq_false_iff.2 hu)
    rw [h] at hmem
    exact absurd hmem List.not_mem_nil

/-- What is offered was selected, and asked for where names were given. -/
theorem offered_of_mem {inventory : McuInventory} {versions : TargetVersions V} {name : Str}
    (h : name ∈ offeredTargets arguments inventory
      (arguments.targets.map (resolveTargetName inventory)) versions) :
    ∃ mcu ∈ inventory.mcus, mcu.name = name ∧
      Eligibility.isSelected mcu versions
        (selectionFor (arguments.all || arguments.force)) = true ∧
      (arguments.targets = [] ∨
        ∃ asked ∈ arguments.targets, resolveTargetName inventory asked = name) := by
  obtain ⟨mcu, hmcu, rfl⟩ := List.mem_map.1 ((mem_flashOrder _).1 h)
  obtain ⟨hmem, hwanted⟩ := List.mem_filter.1 hmcu
  rw [Bool.and_eq_true, Bool.or_eq_true, List.isEmpty_iff, List.map_eq_nil_iff] at hwanted
  refine ⟨mcu, hmem, rfl, hwanted.2, hwanted.1.imp id fun hasked => ?_⟩
  obtain ⟨asked, hmem, he⟩ := List.mem_map.1 (List.contains_iff_mem.1 hasked)
  exact ⟨asked, hmem, he⟩

theorem planUpdate_ok {unit : KlipperUnit} {inventory : McuInventory}
    (hr : Runs (planUpdate arguments workspace unit inventory).run tr (.ok (some run))) :
    run.coordinator.unit = unit ∧ run.inventory = inventory ∧
      unknownTargets inventory (arguments.targets.map (resolveTargetName inventory)) = [] ∧
      run.targets = offeredTargets arguments inventory
        (arguments.targets.map (resolveTargetName inventory)) run.targetVersions ∧
      ∀ path, arguments.config = some path → ∃ peers,
        ⟨.probePeers path arguments.moonraker, .ok peers⟩ ∈ tr ∧
          bridgeRefusal peers unit.name inventory run.targets = .ok () := by
  unfold planUpdate at hr
  dsimp only at hr
  obtain ⟨_, t₁, t₂, rfl, hknown, h₂⟩ := runs_attempt_bind_ok_iff.1 hr
  obtain ⟨revision, t₃, rfl, h₃⟩ := runs_perform_bind_iff.1 h₂
  obtain ⟨_, t₄, t₅, rfl, -, h₅⟩ := runs_attempt_bind_ok_iff.1 h₃
  obtain ⟨_, t₆, t₇, rfl, -, h₇⟩ := runs_attempt_bind_ok_iff.1 h₅
  split at h₇
  · obtain ⟨_, _, _, -, -, h₈⟩ := runs_attempt_bind_ok_iff.1 h₇
    obtain ⟨_, _, _, -, -, h₉⟩ := runs_attempt_bind_ok_iff.1 h₈
    cases (runs_return_ok_iff.1 h₉).2
  · obtain ⟨_, t₈, t₉, rfl, hbridge, h₉⟩ := runs_attempt_bind_ok_iff.1 h₇
    obtain ⟨rfl, hrun⟩ := runs_return_ok_iff.1 h₉
    obtain rfl := Option.some.inj hrun
    refine ⟨rfl, rfl, ?_, rfl, fun path hpath => ?_⟩
    · unfold refuseUnknown at hknown
      split at hknown
      · assumption
      · exact absurd hknown not_runs_throw_ok
    · obtain ⟨peers, hmem, hok⟩ := refuseBridge_ok hbridge path hpath
      exact ⟨peers, by simp [hmem], hok⟩

/-- What the checks return is what they checked. -/
theorem planned_of_runs (hr : Runs (prepareUpdate arguments workspace).run tr (.ok (some run))) :
    Planned arguments run tr := by
  obtain ⟨lock, t₁, rfl, h₁⟩ := runs_perform_bind_iff.1 hr
  obtain ⟨_, t₂, t₃, rfl, hlock, h₃⟩ := runs_attempt_bind_ok_iff.1 h₁
  obtain ⟨rfl, rfl⟩ := runs_accept_ok_iff.1 (runs_context_ok_iff.1 hlock)
  obtain ⟨_, t₄, t₅, rfl, -, h₅⟩ := runs_attempt_bind_ok_iff.1 h₃
  obtain ⟨_, t₆, t₇, rfl, -, h₇⟩ := runs_attempt_bind_ok_iff.1 h₅
  obtain ⟨unit, t₈, t₉, rfl, hunit, h₉⟩ := runs_attempt_bind_ok_iff.1 h₇
  obtain ⟨reported, hreported, hcheck⟩ :=
    verifyHost_ok (runs_adapt_ok_iff.1 (runs_context_ok_iff.1 hunit))
  obtain ⟨_, t₁₀, t₁₁, rfl, -, h₁₁⟩ := runs_attempt_bind_ok_iff.1 h₉
  obtain ⟨found, t₁₂, t₁₃, rfl, hdiscover, h₁₃⟩ := runs_attempt_bind_ok_iff.1 h₁₁
  have hfound := discover_ok (runs_announced_ok (runs_context_ok_iff.1 hdiscover))
  obtain ⟨inventory, t₁₄, t₁₅, rfl, hprobe, h₁₅⟩ := runs_attempt_bind_ok_iff.1 h₁₃
  obtain ⟨hu, hi, hknown, htargets, hbridge⟩ := planUpdate_ok h₁₅
  refine ⟨by simp, ⟨reported, by simp [hreported], hu ▸ hcheck⟩, ⟨found, by simp [hfound], ?_⟩,
    ?_, ?_, ?_, ?_⟩
  · rw [hi]
    exact probeDiscovered_ok hprobe
  · intro asked hasked
    rw [hi]
    exact named_of_known hknown _ (List.mem_map_of_mem hasked)
  · intro name hname
    rw [hi]
    rw [htargets] at hname
    exact offered_of_mem hname
  · rw [htargets, hi, offeredTargets, flashOrder_eq]
    refine ⟨_, _, rfl, fun name hname => ?_, fun name hname => (List.mem_filter.1 hname).2⟩
    exact Bool.not_eq_eq_eq_not.1 (List.mem_filter.1 hname).2
  · intro path hpath
    obtain ⟨peers, hmem, hok⟩ := hbridge path hpath
    exact ⟨peers, by simp [hmem], hi ▸ hu ▸ hok⟩

end Planned

end Aldis.Cli

import Aldis.FlashCommand.Warrant
import Aldis.Lib.Failure

/-!
# The checks before a flash

They touch nothing, whatever is answered, and what they return is what they checked.
-/

namespace Aldis.Cli

open Interaction World Attempt Fleet UpdateRun Text Octets

variable {ε α : Type}

/-- A call that touches nothing of the printer. -/
abbrev Calm (call : CliCall) : Prop := disrupts call = false

section Calls

variable {P : CliCall → Prop} {T : ε → Prop}

@[simp] theorem makes_ui {call : UiCall} :
    Makes (α := no_index (UiAnswer call)) P T (ui call) ↔ P (.ui call) :=
  makes_perform (CliCall.ui call)

theorem makes_accept {ε' : Type} {answer : Except ε' α} {wrap : ε' → ε} (h : ∀ e, T (wrap e)) :
    Makes P T (accept answer wrap) := by
  cases answer with
  | ok a => exact True.intro
  | error e => exact h e

@[simp] theorem makes_context {T : Cause → Prop} {text : Str} {x : CliAttempt Cause α} :
    Makes P T (context text x) ↔ Makes P (fun e => T (.headline text e)) x := makes_adapt _ x

theorem makes_refuse {T : Cause → Prop} {reason : Str}
    (hP : P (.ui (.action ("error: " ++ reason)))) (hT : T (.leaf reason)) :
    Makes P T (refuse reason : CliAttempt Cause α) :=
  .bind (makes_ui.2 hP) fun _ => (makes_throw _).2 hT

theorem flashHooks_terminal : Terminal flashHooks := by
  have hshows : ∀ call, (confined CliAnswer fun e => ∃ u, e = .ui u).Ensures
      (progressWithoutBuild.shows call) () fun _ _ => True :=
    fun call => (ensures_confined_call _ _ _ _ _).2 ⟨⟨call, rfl⟩, fun _ => True.intro⟩
  intro call
  cases call with
  | progress name progress =>
      cases progress with
      | enteringBootloader => exact (hshows _).bind fun _ _ _ => hshows _
      | installing => exact (hshows _).bind fun _ _ _ => hshows _
      | _ => exact hshows _
  | _ => exact True.intro

/-- What a run calls is called on the command line, its hooks on the terminal. -/
theorem onHost_confined {hooks : (call : HookCall) → CliProgram (HookAnswer call)}
    (ht : Terminal hooks) {K : HostCall → Prop} (hui : ∀ u, P (.ui u))
    (hK : ∀ call, K call → isHook call = false → P (.host call)) {call : HostCall}
    (hcall : K call) :
    (confined CliAnswer P).Ensures (onHost hooks call) () fun _ _ => True := by
  cases hh : isHook call with
  | true =>
      cases call with
      | hook call =>
          refine (ht call).confined_mono ?_
          rintro _ ⟨u, rfl⟩
          exact hui u
      | _ => cases hh
  | false =>
      have hperform : onHost hooks call = Program.perform (A := CliAnswer) (.host call) := by
        cases call with
        | hook call => cases hh
        | _ => rfl
      rw [hperform]
      exact (ensures_confined_call _ _ _ _ _).2 ⟨hK call hcall hh, fun _ => True.intro⟩

theorem makes_asHost {hooks : (call : HookCall) → CliProgram (HookAnswer call)}
    (ht : Terminal hooks) {K : HostCall → Prop} {R : ε → Prop} {x : HostAttempt ε α}
    (hx : Makes K R x) (hui : ∀ u, P (.ui u))
    (hK : ∀ call, K call → isHook call = false → P (.host call)) :
    Makes P R (asHost hooks x) := Makes.handle hx fun _ hcall => onHost_confined ht hui hK hcall

theorem calm_of_silent {call : HostCall} (h : silent call = true) : Calm (.host call) := by
  cases call with
  | run runner command => cases h
  | flash call => cases h
  | _ => rfl

theorem Quiet.calm {hooks : (call : HookCall) → CliProgram (HookAnswer call)}
    (ht : Terminal hooks) {x : HostAttempt ε α} (hx : Quiet x) {T : ε → Prop} (hT : ∀ e, T e) :
    Makes Calm T (asHost hooks x) :=
  (makes_asHost ht hx (fun _ => rfl) fun _ hs _ => calm_of_silent hs).mono (fun _ hc => hc)
    fun e _ => hT e

end Calls

variable {V : Type} [Semver V] {J : Type} [DictionaryReader J] {arguments : FlashArgs}

section Calm

theorem verifyHost_calm {isLoopbackUrl : Str → Bool} {url : Str} :
    Makes Calm (fun _ => True) (verifyHost isLoopbackUrl url) := by
  refine .bind (makes_accept fun _ => True.intro) fun _ => ?_
  refine .bind ((makes_perform _).2 rfl) fun answer => ?_
  exact .bind (makes_accept fun _ => True.intro) fun _ => makes_accept fun _ => True.intro

theorem discoverMcusWithRetry_calm {url : Str} :
    Makes Calm (fun _ => True) (discoverMcusWithRetry url) := by
  refine .bind ((makes_perform _).2 rfl) fun n => ?_
  refine .bind (makes_retry.2 ?_ n) fun outcome => (makes_ofExcept outcome).2 fun _ _ => True.intro
  refine .bind ((makes_perform _).2 rfl) fun answer => ?_
  cases answer with
  | ok inventory => exact makes_pure _
  | error error => simp only [makes_ite, makes_throw, makes_pure, implies_true, and_self]

theorem refuseBridge_calm {config : Option Path} {url : Str} {unit : KlipperUnit}
    {inventory : McuInventory} {targets : List Str} :
    Makes Calm (fun _ => True) (refuseBridge config url unit inventory targets) := by
  unfold refuseBridge
  cases config with
  | none => exact makes_pure _
  | some path =>
      refine .bind ((makes_perform _).2 rfl) fun answer => ?_
      exact .bind (makes_accept fun _ => True.intro) fun _ => makes_accept fun _ => True.intro

theorem prepareFile_calm {inventory : McuInventory} {target : Str} {firmware : Bytes} :
    Makes Calm (fun _ => True)
      (prepareFile (V := V) J arguments inventory target firmware) := by
  unfold prepareFile
  split
  · exact makes_pure _
  · split
    · exact makes_pure _
    · exact .bind (makes_ui.2 rfl) fun _ => (makes_throw _).2 True.intro

theorem checkTarget_calm {firmware : Bytes} {unit : KlipperUnit} {inventory : McuInventory} :
    Makes Calm (fun _ => True)
      (checkTarget (V := V) J arguments firmware unit inventory) := by
  unfold checkTarget
  dsimp only
  split
  · exact makes_refuse rfl True.intro
  · refine .bind prepareFile_calm fun prebuilt => ?_
    refine .bind refuseBridge_calm fun _ => ?_
    refine .bind ((makes_perform _).2 rfl) fun root => ?_
    refine .bind (makes_context.2 (makes_accept fun _ => True.intro)) fun root => ?_
    refine .bind (makes_context.2 ((makes_adapt _ _).2 ?_)) fun pending => makes_pure _
    exact Quiet.calm flashHooks_terminal prepare_quiet fun _ => True.intro

theorem prepareFlash_calm :
    Makes Calm (fun _ => True) (prepareFlash (V := V) J arguments) := by
  refine .bind ((makes_perform _).2 rfl) fun lock => ?_
  refine .bind (makes_context.2 (makes_accept fun _ => True.intro)) fun _ => ?_
  refine .bind ((makes_perform _).2 rfl) fun file => ?_
  refine .bind (makes_context.2 (makes_accept fun _ => True.intro)) fun firmware => ?_
  refine .bind (makes_context.2 ((makes_adapt _ _).2 verifyHost_calm)) fun unit => ?_
  refine .bind (makes_ui.2 rfl) fun _ => ?_
  refine .bind (makes_context.2 discoverMcusWithRetry_calm) fun inventory => ?_
  exact checkTarget_calm

end Calm

section Prepared

variable {tr : List CliEvent}

theorem runs_accept_ok_iff {ε' : Type} {answer : Except ε' α} {wrap : ε' → ε} {a : α} :
    Runs (accept answer wrap : CliAttempt ε α).run tr (.ok a) ↔ tr = [] ∧ answer = .ok a := by
  rw [accept, runs_ofExcept_iff]
  cases answer with
  | ok a' => simp [Except.mapError, eq_comm]
  | error e => simp [Except.mapError]

theorem runs_context_ok_iff {text : Str} {x : CliAttempt Cause α} {a : α} :
    Runs (context text x).run tr (.ok a) ↔ Runs x.run tr (.ok a) := runs_adapt_ok_iff

/-- The unit is that which Moonraker reported, checked. -/
theorem verifyHost_ok {isLoopbackUrl : Str → Bool} {url : Str} {unit : KlipperUnit}
    (h : Runs (verifyHost isLoopbackUrl url).run tr (.ok unit)) :
    ∃ reported, ⟨.klipperUnit url, .ok reported⟩ ∈ tr ∧
      checkHost isLoopbackUrl url reported = .ok unit := by
  obtain ⟨_, pre, post, rfl, -, hquery⟩ := runs_attempt_bind_ok_iff.1 h
  obtain ⟨answer, post, rfl, haccept⟩ := runs_perform_bind_iff.1 hquery
  obtain ⟨reported, pre', post', rfl, hreported, hcheck⟩ := runs_attempt_bind_ok_iff.1 haccept
  obtain ⟨rfl, rfl⟩ := runs_accept_ok_iff.1 hreported
  obtain ⟨rfl, hunit⟩ := runs_accept_ok_iff.1 hcheck
  exact ⟨reported, by simp, hunit⟩

theorem discover_ok {url : Str} {inventory : McuInventory}
    (h : Runs (discoverMcusWithRetry url).run tr (.ok inventory)) :
    ⟨.discoverMcus url, .ok inventory⟩ ∈ tr := by
  have hspec : recording.EnsuresOr (discoverMcusWithRetry url) []
      (fun inventory (tr : List CliEvent) => ⟨.discoverMcus url, .ok inventory⟩ ∈ tr)
        fun _ _ => True := by
    unfold discoverMcusWithRetry
    rw [ensuresOr_bind, ensuresOr_perform]
    refine ⟨True.intro, ?_⟩
    rintro n _ rfl
    rw [ensuresOr_bind]
    refine EnsuresOr.mono (EnsuresOr.retry (I := fun _ => True) (R := fun _ _ => True)
      (Q := fun outcome tr => ∀ inventory, outcome = .ok inventory →
        ⟨.discoverMcus url, .ok inventory⟩ ∈ tr) (fun past _ => ?_) n True.intro) ?_
      fun _ _ _ => True.intro
    · rw [ensuresOr_bind, ensuresOr_perform]
      refine ⟨True.intro, ?_⟩
      rintro answer _ rfl
      cases answer with
      | ok found =>
          intro inventory he
          obtain rfl := Except.ok.inj he
          exact List.mem_append_right _ (List.mem_singleton_self _)
      | error error =>
          rw [ensuresOr_ite]
          exact ⟨fun _ => ⟨True.intro, True.intro⟩, fun _ => nofun⟩
    · intro outcome past hpast
      cases outcome with
      | ok inventory => exact hpast inventory rfl
      | error e => exact True.intro
  have hmem := Ensures.recorded hspec h
  exact hmem

theorem refuseBridge_ok {config : Option Path} {url : Str} {unit : KlipperUnit}
    {inventory : McuInventory} {targets : List Str}
    (h : Runs (refuseBridge config url unit inventory targets).run tr (.ok ())) :
    ∀ path, config = some path → ∃ peers, ⟨.probePeers path url, .ok peers⟩ ∈ tr ∧
      bridgeRefusal peers unit.name inventory targets = .ok () := by
  rintro path rfl
  obtain ⟨answer, post, rfl, haccept⟩ := runs_perform_bind_iff.1 h
  obtain ⟨peers, pre', post', rfl, hpeers, hcheck⟩ := runs_attempt_bind_ok_iff.1 haccept
  obtain ⟨rfl, rfl⟩ := runs_accept_ok_iff.1 hpeers
  obtain ⟨rfl, hbridge⟩ := runs_accept_ok_iff.1 hcheck
  exact ⟨peers, by simp, hbridge⟩

theorem prepareFile_ok {inventory : McuInventory} {target : Str} {firmware : Bytes}
    {prebuilt : Option (FlashRequest V)}
    (h : Runs (prepareFile (V := V) J arguments inventory target firmware).run tr (.ok prebuilt)) :
    ∀ mcu, inventory.find target = some mcu →
      Prebuilt.prepareExplicit J mcu arguments.firmware firmware = .ok prebuilt := by
  intro mcu hmcu
  unfold prepareFile at h
  rw [hmcu] at h
  dsimp only at h
  cases he : Prebuilt.prepareExplicit (V := V) J mcu arguments.firmware firmware with
  | ok request =>
      rw [he] at h
      rw [(runs_return_ok_iff.1 h).2]
  | error error =>
      rw [he] at h
      obtain ⟨_, _, _, -, -, h⟩ := runs_attempt_bind_ok_iff.1 h
      exact absurd h not_runs_throw_ok

theorem checkTarget_ok {firmware : Bytes} {unit : KlipperUnit} {inventory : McuInventory}
    {ready : ReadyFlash V}
    (h : Runs (checkTarget J arguments firmware unit inventory).run tr (.ok ready)) :
    ready.target = resolveTargetName inventory arguments.target ∧ ready.firmware = firmware ∧
      ready.inventory = inventory ∧ ready.coordinator.unit = unit ∧
      flashRefusal V inventory ready.target = none ∧
      (∀ mcu, inventory.find ready.target = some mcu →
        Prebuilt.prepareExplicit J mcu arguments.firmware firmware = .ok ready.prebuilt) ∧
      (∀ path, arguments.config = some path → ∃ peers,
        ⟨.probePeers path arguments.moonraker, .ok peers⟩ ∈ tr ∧
          bridgeRefusal peers unit.name inventory [ready.target] = .ok ()) ∧
      ready.pending.prepared.targetName = ready.target := by
  unfold checkTarget at h
  dsimp only at h
  split at h
  · obtain ⟨_, _, _, -, -, h⟩ := runs_attempt_bind_ok_iff.1 h
    exact absurd h not_runs_throw_ok
  · rename_i hrefusal
    obtain ⟨prebuilt, t₁, t₂, rfl, hprebuilt, h₂⟩ := runs_attempt_bind_ok_iff.1 h
    obtain ⟨_, t₃, t₄, rfl, hbridge, h₄⟩ := runs_attempt_bind_ok_iff.1 h₂
    obtain ⟨created, t₅, rfl, h₅⟩ := runs_perform_bind_iff.1 h₄
    obtain ⟨root, t₆, t₇, rfl, hroot, h₇⟩ := runs_attempt_bind_ok_iff.1 h₅
    obtain ⟨pending, t₈, t₉, rfl, hpending, h₉⟩ := runs_attempt_bind_ok_iff.1 h₇
    obtain ⟨rfl, rfl⟩ := runs_return_ok_iff.1 h₉
    refine ⟨rfl, rfl, rfl, rfl, hrefusal, prepareFile_ok hprebuilt, ?_, ?_⟩
    · intro path hpath
      obtain ⟨peers, hmem, hok⟩ := refuseBridge_ok hbridge path hpath
      exact ⟨peers, List.mem_append_right _ (List.mem_append_left _ hmem), hok⟩
    · have hpending := runs_adapt_ok_iff.1 (runs_context_ok_iff.1 hpending)
      obtain ⟨t, hprepare, -⟩ := runs_attempt_handle_iff.1 hpending
      obtain ⟨paths, _, _, -, -, hrequest⟩ := runs_attempt_bind_ok_iff.1 hprepare
      obtain ⟨prepared, _, _, -, hp, hreturn⟩ := runs_attempt_bind_ok_iff.1 hrequest
      obtain ⟨-, rfl⟩ := runs_return_ok_iff.1 hreturn
      have hprepared := (runs_ofExcept_iff.1 hp).2
      cases hb : prepareBuild inventory (resolveTargetName inventory arguments.target)
          paths.configPath paths.artifactPath false with
      | error e => rw [hb] at hprepared; cases hprepared
      | ok built =>
          rw [hb] at hprepared
          cases hprepared
          obtain ⟨mcu, -, -, rfl⟩ := prepareBuild_ok hb
          rfl

/-- What the checks return is what they checked. -/
theorem prepared_of_runs {ready : ReadyFlash V}
    (h : Runs (prepareFlash J arguments).run tr (.ok ready)) :
    Prepared J arguments ready tr := by
  obtain ⟨lock, t₁, rfl, h₁⟩ := runs_perform_bind_iff.1 h
  obtain ⟨_, t₂, t₃, rfl, hlock, h₃⟩ := runs_attempt_bind_ok_iff.1 h₁
  obtain ⟨rfl, rfl⟩ := runs_accept_ok_iff.1 (runs_context_ok_iff.1 hlock)
  obtain ⟨file, t₄, rfl, h₄⟩ := runs_perform_bind_iff.1 h₃
  obtain ⟨firmware, t₅, t₆, rfl, hfile, h₆⟩ := runs_attempt_bind_ok_iff.1 h₄
  obtain ⟨rfl, rfl⟩ := runs_accept_ok_iff.1 (runs_context_ok_iff.1 hfile)
  obtain ⟨unit, t₇, t₈, rfl, hunit, h₈⟩ := runs_attempt_bind_ok_iff.1 h₆
  obtain ⟨reported, hreported, hcheck⟩ :=
    verifyHost_ok (runs_adapt_ok_iff.1 (runs_context_ok_iff.1 hunit))
  obtain ⟨_, t₉, rfl, h₉⟩ := runs_perform_bind_iff.1 h₈
  obtain ⟨inventory, t₁₀, t₁₁, rfl, hdiscover, h₁₁⟩ := runs_attempt_bind_ok_iff.1 h₉
  have hfound := discover_ok (runs_context_ok_iff.1 hdiscover)
  obtain ⟨hn, hf, hi, hu, hrefusal, hsuits, hbridge, hp⟩ := checkTarget_ok h₁₁
  refine ⟨by simp, by simp [hf], ⟨reported, by simp [hreported], hu ▸ hcheck⟩, by simp [hi, hfound],
    hi ▸ hn, hi ▸ hrefusal, hi ▸ hf ▸ hsuits, ?_, hp⟩
  intro path hpath
  obtain ⟨peers, hmem, hok⟩ := hbridge path hpath
  exact ⟨peers, by simp [hmem], hi ▸ hu ▸ hok⟩

theorem Prepared.mono {ready : ReadyFlash V} {past past' : List CliEvent}
    (h : Prepared J arguments ready past) (hp : past <+: past') :
    Prepared J arguments ready past' := by
  obtain ⟨reported, hreported, hcheck⟩ := h.controlled
  refine ⟨hp.subset h.locked, hp.subset h.file, ⟨reported, hp.subset hreported, hcheck⟩,
    hp.subset h.discovered, h.named, h.flashable, h.suits, ?_, h.prepared⟩
  intro path hpath
  obtain ⟨peers, hmem, hok⟩ := h.bridge path hpath
  exact ⟨peers, hp.subset hmem, hok⟩

end Prepared

end Aldis.Cli

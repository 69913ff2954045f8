import Aldis.Reboot.Warrant

/-!
# Leaving a bootloader is warranted

Each part of the command is confined to the calls it makes, and what the past has shown stays
shown; so every bootloader is left by the calls of its own kind, once the operator agreed to it.
-/

namespace Aldis.Cli

open Interaction World Attempt Text Octets

variable {V : Type} [Semver V] {arguments : RebootArgs} {past : List CliEvent} {α ε : Type}

section Past

variable {bootloader : DetectedBootloader} {past' more : List CliEvent} {heading : Str}

theorem Detected.mono (h : Detected past bootloader) (hp : past ⊆ past') :
    Detected past' bootloader := by
  obtain ⟨dirs, hdirs, hmem⟩ := h.listed
  obtain ⟨identity, hidentity, hc⟩ := h.identified
  exact ⟨⟨dirs, hp hdirs, hmem⟩, ⟨identity, hp hidentity, hc⟩, hp h.serial⟩

theorem DetectedBeacon.mono {beacon : Beacon.ObservedBootloader} (h : DetectedBeacon past beacon)
    (hp : past ⊆ past') : DetectedBeacon past' beacon := by
  obtain ⟨dirs, sysfsPath, hdirs, hmem, hseen⟩ := h
  exact ⟨dirs, sysfsPath, hp hdirs, hmem, hp hseen⟩

theorem BeaconBack.extend (h : BeaconBack past) (before after : List CliEvent) :
    BeaconBack (before ++ past ++ after) := by
  obtain ⟨beacon, payload, result, tty, a, b, c, d, rfl⟩ := h
  refine ⟨beacon, payload, result, tty, before ++ a, b, c, d ++ after, ?_⟩
  simp only [List.append_assoc, List.cons_append]

theorem BeaconBack.append {after : List CliEvent} (h : BeaconBack past) :
    BeaconBack (past ++ after) := h.extend [] after

theorem BeaconBack.prepend {before : List CliEvent} (h : BeaconBack past) :
    BeaconBack (before ++ past) := by
  have hextended := h.extend before []
  rwa [List.append_nil] at hextended

theorem Leaves.mono {call : CliCall} (h : Leaves past bootloader call) (hp : past ⊆ past') :
    Leaves past' bootloader call := by
  cases h with
  | picoBoot hk => exact .picoBoot hk
  | stm32Dfu hk hprobe => exact .stm32Dfu hk (hp hprobe)
  | openKatapult hk hs => exact .openKatapult hk hs
  | katapult hk hc he => exact .katapult hk hc he
  | openSamBa hk hs => exact .openSamBa hk hs
  | samBa hk hc => exact .samBa hk hc

theorem Headed.append {shown : List CliEvent} (h : Headed heading past shown)
    (hm : ∀ ev ∈ more, isHeading ev.1 = false) : Headed heading (past ++ more) (shown ++ more) := by
  obtain ⟨⟨x, rfl⟩, hs⟩ := h
  refine ⟨⟨x, ?_⟩, List.forall_mem_append.2 ⟨hs, hm⟩⟩
  rw [List.append_assoc, List.cons_append]

theorem AgreedTo.append (h : AgreedTo arguments heading past)
    (hm : ∀ ev ∈ more, isHeading ev.1 = false) : AgreedTo arguments heading (past ++ more) := by
  obtain ⟨shown, hs, hyes⟩ := h
  refine ⟨shown ++ more, hs.append hm, hyes.imp id fun hyes => ?_⟩
  obtain ⟨text, htext⟩ := hyes
  exact ⟨text, List.mem_append_left _ htext⟩

end Past

section Looks

/-- A call that only looks and shows no device's heading. -/
def Peeks (call : CliCall) : Prop := looks call = true ∧ isHeading call = false

/-- A program whose calls are all in `P`. -/
abbrev Only (P : CliCall → Prop) (p : CliProgram α) : Prop :=
  (confined CliAnswer P).Ensures p () fun _ _ => True

/-- A program that only looks, apart from calls in `P`, and shows no device's heading. -/
abbrev Confines (P : CliCall → Prop) (p : CliProgram α) : Prop :=
  Only (fun call => Peeks call ∨ P call ∧ isHeading call = false) p

variable {P : CliCall → Prop}

theorem only_pure (a : α) : Only P (Pure.pure a : CliProgram α) := True.intro

theorem Only.bind {β : Type} {p : CliProgram α} {f : α → CliProgram β} (hp : Only P p)
    (hf : ∀ a, Only P (f a)) : Only P (p >>= f) := Ensures.bind hp fun a _ _ => hf a

theorem only_perform {call : CliCall} (h : P call) :
    Only (α := no_index (CliAnswer call)) P (Program.perform call) :=
  (ensures_confined_call _ _ _ _ _).2 ⟨h, fun _ => True.intro⟩

theorem only_ite {c : Prop} [Decidable c] {p q : CliProgram α} (hp : Only P p) (hq : Only P q) :
    Only P (if c then p else q) := by
  by_cases hc : c
  · rwa [if_pos hc]
  · rwa [if_neg hc]

theorem only_tell {call : UiCall} (h : P (.ui call)) : Only P (tell call) :=
  .bind (only_perform h) fun _ => only_pure _

/-- What looks at a device again and again makes the calls of a look. -/
theorem only_watch {look : CliProgram (Option α)}
    (hn : P (.host (.attempts WATCH_TIMEOUT WATCH_POLL_INTERVAL))) (h : Only P look) :
    Only P (watch look) := by
  unfold watch
  refine .bind (only_perform hn) fun n => .bind ?_ fun _ => only_pure _
  refine ((makes_retry (R := fun _ : Unit => True)).2 ?_ n).only
  refine Ensures.bind h fun found _ _ => ?_
  cases found with
  | none => exact True.intro
  | some a => exact True.intro

variable {sysfsPath root : Path}

theorem waitUntilAbsent_only (hn : P (.host (.attempts WATCH_TIMEOUT WATCH_POLL_INTERVAL)))
    (hp : P (.host (.file (.pathExists sysfsPath)))) : Only P (waitUntilAbsent sysfsPath) :=
  .bind (only_watch hn (.bind (only_perform hp) fun _ => only_pure _)) fun _ => only_pure _

theorem waitUntilLeft_only (hn : P (.host (.attempts WATCH_TIMEOUT WATCH_POLL_INTERVAL)))
    (hb : P (.host (.flash (.beaconBootloaderAt sysfsPath)))) : Only P (waitUntilLeft sysfsPath) :=
  .bind (only_watch hn (.bind (only_perform hb) fun _ => only_pure _)) fun _ => only_pure _

theorem applicationAt_only (hr : ∀ path, P (.host (.file (.readToString path))))
    (ht : P (.host (.flash (.usbTty sysfsPath)))) : Only P (applicationAt sysfsPath) := by
  refine .bind (only_perform (hr _)) fun vendor => .bind (only_perform (hr _)) fun product => ?_
  exact only_ite (.bind (only_perform ht) fun _ => only_pure _) (only_pure _)

theorem waitForApplicationAt_only (hn : P (.host (.attempts WATCH_TIMEOUT WATCH_POLL_INTERVAL)))
    (hr : ∀ path, P (.host (.file (.readToString path))))
    (ht : P (.host (.flash (.usbTty sysfsPath)))) : Only P (waitForApplicationAt sysfsPath) :=
  .bind (only_watch hn (.bind (applicationAt_only hr ht) fun _ => only_pure _)) fun _ => only_pure _

theorem only_scan {look : Path → CliProgram (Option α)} (h : ∀ path, Only P (look path))
    (paths : List Path) : Only P (scan look paths) := by
  induction paths with
  | nil => exact only_pure _
  | cons path rest ih => exact .bind (h path) fun _ => .bind ih fun _ => only_pure _

theorem detectBootloader_confines : Confines P (detectBootloader sysfsPath) := by
  refine .bind (only_perform (.inl ⟨rfl, rfl⟩)) fun identity => ?_
  split
  · exact only_pure _
  · exact .bind (only_perform (.inl ⟨rfl, rfl⟩)) fun _ => only_pure _

theorem detectBootloaders_confines : Confines P (detectBootloaders root) :=
  .bind (only_perform (.inl ⟨rfl, rfl⟩)) fun dirs =>
    only_scan (fun _ => detectBootloader_confines) dirs

theorem scanBeacons_confines : Confines P (scanBeacons root) :=
  .bind (only_perform (.inl ⟨rfl, rfl⟩)) fun dirs =>
    only_scan (fun _ => only_perform (.inl ⟨rfl, rfl⟩)) dirs

theorem waitForAnyBootloader_confines : Confines P (waitForAnyBootloader root) :=
  .bind (only_watch (.inl ⟨rfl, rfl⟩) (.bind detectBootloaders_confines fun _ => only_pure _))
    fun _ => only_pure _

/-- What a run calls is called on the command line; its hooks do nothing. -/
theorem only_asHost {K : HostCall → Prop} {x : HostAttempt ε α} (hx : Makes K (fun _ => True) x)
    (hK : ∀ call, K call → isHook call = false → P (.host call)) :
    Only P (asHost rebootHooks x).run := by
  refine (Makes.handle hx fun call hcall => ?_).only
  cases hh : isHook call with
  | true =>
      cases call with
      | hook call => cases call <;> exact True.intro
      | _ => cases hh
  | false =>
      have hperform : onHost rebootHooks call = Program.perform (A := CliAnswer) (.host call) := by
        cases call with
        | hook call => cases hh
        | _ => rfl
      rw [hperform]
      exact only_perform (hK call hcall hh)

end Looks

section Backends

/-- Every attempt at a command sends the same request. -/
theorem attempts_makes {command : Katapult.Command} {request : Bytes} (n : ℕ) (last : Str) :
    Makes (· = request) (fun _ => True)
      (Katapult.attempts command request n last : Katapult.Session Str Bytes) := by
  induction n generalizing last with
  | zero => exact True.intro
  | succ n ih =>
      unfold Katapult.attempts
      refine .bind ((makes_perform _).2 rfl) fun answer => ?_
      cases answer with
      | error error => exact ih _
      | ok reply =>
          dsimp only
          split
          · exact ih _
          · rw [makes_ite]
            exact ⟨fun _ => makes_pure _, fun _ => ih _⟩

theorem command_makes {command : Katapult.Command} :
    Makes (fun request => Katapult.encodeCommand command [] = .ok request) (fun _ => True)
      (Katapult.command command [] : Katapult.Session Str Bytes) := by
  unfold Katapult.command
  split
  · exact True.intro
  · rename_i request he
    exact (attempts_makes _ _).mono (fun _ hr => by rw [he, hr]) fun _ _ => True.intro

theorem leaveSerial_makes {device : Path} : Makes (fun call =>
    call = .flash (.openSerial device KATAPULT_BAUD_RATE) ∨ ∃ command request,
      (command = .connect ∨ command = .complete) ∧
        Katapult.encodeCommand command [] = .ok request ∧ call = .flash (.exchange request))
    (fun _ => True) (leaveSerial device) := by
  refine .bind ((makes_perform _).2 (.inl rfl)) fun opened => ?_
  refine .bind (makes_check fun _ => True.intro) fun _ => (makes_adapt _ _).2 ?_
  have hsession : Makes (fun request => ∃ command, (command = .connect ∨ command = .complete) ∧
      Katapult.encodeCommand command [] = .ok request) (fun _ => True)
      (do
        let _ ← Katapult.connect
        Katapult.complete : Katapult.Session Str Unit) := by
    refine .bind (.bind (command_makes.mono (fun _ he => ⟨_, .inl rfl, he⟩) fun _ _ => True.intro)
      fun response => (makes_ofExcept _).2 fun _ _ => True.intro) fun _ => ?_
    exact .bind (command_makes.mono (fun _ he => ⟨_, .inr rfl, he⟩) fun _ _ => True.intro)
      fun _ => makes_pure _
  exact hsession.translate fun request hr => .inr <| by
    obtain ⟨command, hc, he⟩ := hr
    exact ⟨command, request, hc, he, rfl⟩

theorem port_makes {call : Samba.PortCall} (h : resetsOnly call) :
    Makes resetsOnly (fun _ => True) (Samba.port call) :=
  .bind ((makes_perform _).2 h) fun _ => (makes_ofExcept _).2 fun _ _ => True.intro

theorem readExact_makes {length : ℕ} : Makes resetsOnly (fun _ => True) (Samba.readExact length) :=
  port_makes True.intro

theorem versionLine_makes (n : ℕ) (line : Bytes) :
    Makes resetsOnly (fun _ => True) (Samba.versionLine n line) := by
  induction n generalizing line with
  | zero => exact True.intro
  | succ n ih =>
      refine .bind readExact_makes fun byte => ?_
      rw [makes_ite]
      exact ⟨fun _ => makes_pure _, fun _ => ih _⟩

theorem banner_makes (skips : ℕ) : Makes resetsOnly (fun _ => True) (Samba.banner skips) := by
  induction skips with
  | zero => exact versionLine_makes _ _
  | succ skips ih =>
      refine .bind readExact_makes fun byte => ?_
      rw [makes_ite]
      exact ⟨fun _ => ih, fun _ => versionLine_makes _ _⟩

theorem trailing_makes (n : ℕ) : Makes resetsOnly (fun _ => True) (Samba.trailing n) := by
  induction n with
  | zero => exact makes_pure _
  | succ n ih =>
      refine .bind ((makes_perform (Samba.PortCall.read)).2 True.intro) fun answer => ?_
      cases answer with
      | ok u => exact ih
      | error error => cases error <;> exact True.intro

theorem handshake_makes : Makes resetsOnly (fun _ => True) Samba.handshake := by
  have hnormal : Makes resetsOnly (fun _ => True) Samba.normalMode := by
    refine .bind (port_makes (by simp [resetsOnly])) fun _ =>
      .bind (port_makes True.intro) fun _ => ?_
    refine .bind ((makes_perform (Samba.PortCall.readExact 2)).2 True.intro) fun answer => ?_
    cases answer with
    | ok bytes => exact port_makes True.intro
    | error error => cases error <;> first | exact port_makes True.intro | exact True.intro
  refine .bind hnormal fun _ => .bind (port_makes (by simp [resetsOnly])) fun _ => ?_
  exact .bind (port_makes True.intro) fun _ => .bind (banner_makes 2) fun _ => trailing_makes 2

theorem rebootIntoApplication_makes {device : Path} : Makes (fun call =>
    call = .flash (.openSambaPort device) ∨
      ∃ port, resetsOnly port ∧ call = .flash (.sambaPort port))
    (fun _ => True) (rebootIntoApplication device) := by
  refine .bind ((makes_perform _).2 (.inl rfl)) fun opened => ?_
  refine .bind (makes_check fun _ => True.intro) fun _ => (makes_adapt _ _).2 ?_
  have hreset : Makes resetsOnly (fun _ => True) (do
      Samba.handshake
      Samba.reset : Samba.Monitor Unit) := by
    refine .bind handshake_makes fun _ => ?_
    exact .bind (port_makes (by simp [resetsOnly])) fun _ => port_makes True.intro
  exact hreset.translate fun port hp => .inr ⟨port, hp, rfl⟩

end Backends

section Leave

variable {bootloader : DetectedBootloader}

/-- What a program does that is confined to calls which are sanctioned until the next device. -/
theorem Confines.sanctioned {P : CliCall → Prop} {p : CliProgram α} (hp : Confines P p)
    (hlocked : ⟨.acquireLock, .ok ()⟩ ∈ past)
    (hs : ∀ more call, (∀ ev ∈ more, isHeading ev.1 = false) → P call →
      Sanctions arguments V (past ++ more) call) :
    (rebooting arguments V).Ensures p past fun a past' =>
      ∃ tr, past' = past ++ tr ∧ Runs p tr a := by
  refine (Ensures.of_confined_trace hp (C := RebootWarranted arguments V) ?_).mono ?_
  · intro tr call htr hcall
    rcases hcall with hpeek | ⟨hcall, -⟩
    · exact .inl hpeek.1
    · have hquiet : ∀ ev ∈ tr, isHeading ev.1 = false := by
        intro ev hev
        exact (htr ev hev).elim And.right And.right
      exact .inr ⟨List.mem_append_left _ hlocked, hs tr call hquiet hcall⟩
  · rintro a _ ⟨tr, rfl, hr, -⟩
    exact ⟨tr, rfl, hr⟩

/-- A program that is confined to leaving a bootloader that was agreed to. -/
theorem Confines.leaves {shown : List CliEvent} {p : CliProgram α}
    (hp : Confines (Leaves past bootloader) p) (hlocked : ⟨.acquireLock, .ok ()⟩ ∈ past)
    (hd : Detected past bootloader) (ha : AgreedTo arguments bootloader.heading (past ++ shown)) :
    (rebooting arguments V).Ensures p (past ++ shown) fun _ past' =>
      ∃ tr, past' = past ++ tr := by
  apply (hp.sanctioned (List.mem_append_left _ hlocked) ?_).mono
  · rintro a _ ⟨tr, rfl, -⟩
    exact ⟨shown ++ tr, List.append_assoc ..⟩
  · intro more call hquiet hcall
    have hsub : past ⊆ past ++ shown ++ more :=
      List.subset_append_of_subset_left _ (List.subset_append_left _ _)
    exact .leave (hd.mono hsub) (ha.append hquiet) (hcall.mono hsub)

/-- What is called after a device was left: it is watched, and the operator is told. -/
theorem reportLeaveResult_only {P : CliCall → Prop} {result : Except Cause Unit} {sysfsPath : Path}
    (ht : ∀ text, P (.ui (.block text)))
    (hn : P (.host (.attempts WATCH_TIMEOUT WATCH_POLL_INTERVAL)))
    (hp : P (.host (.file (.pathExists sysfsPath)))) :
    Only P (reportLeaveResult result sysfsPath) := by
  have htold : ∀ {text resolved}, Only P (do
      tell (.block text)
      return resolved : CliProgram Bool) := .bind (only_tell (ht _)) fun _ => only_pure _
  cases result with
  | error error => exact htold
  | ok u => exact .bind (waitUntilAbsent_only hn hp) fun absent => only_ite htold htold

theorem reportLeaveResult_confines {P : CliCall → Prop} {result : Except Cause Unit}
    {sysfsPath : Path} : Confines P (reportLeaveResult result sysfsPath) :=
  reportLeaveResult_only (fun _ => .inl ⟨rfl, rfl⟩) (.inl ⟨rfl, rfl⟩) (.inl ⟨rfl, rfl⟩)

/-- A question about the device that was shown last, and what follows where it is answered yes. -/
theorem confirm_sanctioned {β : Type} {heading text : Str} {shown : List CliEvent}
    {yes no : CliProgram β} {Q : β → List CliEvent → Prop} (hh : Headed heading past shown)
    (hyes : ∀ asked, AgreedTo arguments heading (past ++ asked) →
      (rebooting arguments V).Ensures yes (past ++ asked) Q)
    (hno : (rebooting arguments V).Ensures no (past ++ [⟨.ui (.confirm text), false⟩]) Q) :
    (rebooting arguments V).Ensures (do
      if ← confirm arguments text then yes else no) past Q := by
  unfold confirm
  cases hy : arguments.yes with
  | true =>
      have hstart := hyes [] ⟨shown, by rwa [List.append_nil], .inl hy⟩
      rw [List.append_nil] at hstart
      exact hstart
  | false =>
      refine (ensures_call _ _ _ _).2 ⟨.inl rfl, ?_⟩
      rintro answer _ rfl
      cases answer with
      | false => exact hno
      | true =>
          refine hyes [⟨.ui (.confirm text), true⟩] ⟨shown ++ [⟨.ui (.confirm text), true⟩], ?_, ?_⟩
          · exact hh.append (List.forall_mem_singleton.2 rfl)
          · exact .inr ⟨text, List.mem_append_right _ (List.mem_singleton_self _)⟩

theorem leaveConfirmed_sanctioned {shown : List CliEvent} {sysfsPath : Path} {text : Str}
    {leave : CliAttempt Cause Unit} (hleave : Confines (Leaves past bootloader) leave.run)
    (hlocked : ⟨.acquireLock, .ok ()⟩ ∈ past) (hd : Detected past bootloader)
    (hh : Headed bootloader.heading past shown) :
    (rebooting arguments V).Ensures (leaveConfirmed arguments sysfsPath text leave) past
      fun _ past' => ∃ tr, past' = past ++ tr := by
  refine confirm_sanctioned hh (fun asked ha => ?_) ⟨_, rfl⟩
  exact Confines.leaves (.bind hleave fun _ => reportLeaveResult_confines) hlocked hd ha

theorem leaveBySerial_sanctioned {shown : List CliEvent}
    {leave : Path → HostAttempt Cause Unit}
    (hleave : ∀ device, bootloader.observed.serialDevice = some device →
      Confines (Leaves past bootloader) (asHost rebootHooks (leave device)).run)
    (hlocked : ⟨.acquireLock, .ok ()⟩ ∈ past) (hd : Detected past bootloader)
    (hh : Headed bootloader.heading past shown) :
    (rebooting arguments V).Ensures (leaveBySerial arguments bootloader.observed leave) past
      fun _ past' => ∃ tr, past' = past ++ tr := by
  unfold leaveBySerial
  cases hs : bootloader.observed.serialDevice with
  | none =>
      refine (ensures_call _ _ _ _).2 ⟨.inl rfl, ?_⟩
      rintro answer _ rfl
      exact ⟨_, rfl⟩
  | some device => exact leaveConfirmed_sanctioned (hleave device hs) hlocked hd hh

theorem leaveSerial_confines {device : Path} (hk : bootloader.kind = .katapult)
    (hs : bootloader.observed.serialDevice = some device) :
    Confines (Leaves past bootloader) (asHost rebootHooks (leaveSerial device)).run := by
  apply only_asHost leaveSerial_makes
  rintro call (rfl | ⟨command, request, hc, he, rfl⟩) _
  · exact .inr ⟨.openKatapult hk hs, rfl⟩
  · exact .inr ⟨.katapult hk hc he, rfl⟩

theorem rebootIntoApplication_confines {device : Path} (hk : bootloader.kind = .samBa)
    (hs : bootloader.observed.serialDevice = some device) :
    Confines (Leaves past bootloader) (asHost rebootHooks (rebootIntoApplication device)).run := by
  apply only_asHost rebootIntoApplication_makes
  rintro call (rfl | ⟨port, hport, rfl⟩) _
  · exact .inr ⟨.openSamBa hk hs, rfl⟩
  · exact .inr ⟨.samBa hk hport, rfl⟩

theorem leavePicoboot_confines (hk : bootloader.kind = .picoBoot) :
    Confines (Leaves past bootloader) (leavePicoboot bootloader.observed.sysfsPath).run := by
  have hleave : Makes
      (fun call => Peeks call ∨ Leaves past bootloader call ∧ isHeading call = false)
      (fun _ => True) (leavePicoboot bootloader.observed.sysfsPath) :=
    .bind ((makes_perform _).2 (.inr ⟨.picoBoot hk, rfl⟩)) fun _ => makes_accept fun _ => True.intro
  exact hleave.only

theorem leaveSystemAtPath_confines (start : UInt32) (hk : bootloader.kind = .stm32Dfu)
    (hp : ⟨.probeApplicationStart bootloader.observed.sysfsPath, .ok (.found start)⟩ ∈ past) :
    Confines (Leaves past bootloader)
      (leaveSystemAtPath bootloader.observed.sysfsPath start).run := by
  have hleave : Makes
      (fun call => Peeks call ∨ Leaves past bootloader call ∧ isHeading call = false)
      (fun _ => True) (leaveSystemAtPath bootloader.observed.sysfsPath start) :=
    .bind ((makes_perform _).2 (.inr ⟨.stm32Dfu hk hp, rfl⟩)) fun _ =>
      makes_accept fun _ => True.intro
  exact hleave.only

theorem leaveStm32Dfu_sanctioned {shown : List CliEvent} (hk : bootloader.kind = .stm32Dfu)
    (hlocked : ⟨.acquireLock, .ok ()⟩ ∈ past) (hd : Detected past bootloader)
    (hh : Headed bootloader.heading past shown) :
    (rebooting arguments V).Ensures (leaveStm32Dfu arguments bootloader.observed.sysfsPath) past
      fun _ past' => ∃ tr, past' = past ++ tr := by
  refine (ensures_call _ _ _ _).2 ⟨.inr ⟨hlocked, .probe hd hk⟩, ?_⟩
  rintro probe _ rfl
  have hsub := List.subset_append_left past [⟨CliCall.probeApplicationStart
    bootloader.observed.sysfsPath, probe⟩]
  have htold : ∀ {text}, (rebooting arguments V).Ensures (do
      tell (.block text)
      return false) (past ++ [⟨CliCall.probeApplicationStart bootloader.observed.sysfsPath, probe⟩])
      fun _ past' => ∃ tr, past' = past ++ tr := by
    intro text
    refine (ensures_call _ _ _ _).2 ⟨.inl rfl, ?_⟩
    rintro answer _ rfl
    exact ⟨_, List.append_assoc ..⟩
  cases probe with
  | error error => exact htold
  | ok result =>
      cases result with
      | notFound => exact htold
      | ambiguous candidates => exact htold
      | found start =>
          have hleave := leaveSystemAtPath_confines start hk
            (List.mem_append_right past (List.mem_singleton_self _))
          refine (leaveConfirmed_sanctioned hleave (hsub hlocked) (hd.mono hsub)
            (hh.append (List.forall_mem_singleton.2 rfl))).mono ?_
          rintro _ _ ⟨tr, rfl⟩
          exact ⟨_, List.append_assoc ..⟩

theorem leaveOne_sanctioned (hlocked : ⟨.acquireLock, .ok ()⟩ ∈ past)
    (hd : Detected past bootloader) :
    (rebooting arguments V).Ensures (leaveOne arguments bootloader) past
      fun _ past' => ∃ tr, past' = past ++ tr := by
  have hsub := List.subset_append_left past [⟨CliCall.ui (.heading bootloader.heading), ()⟩]
  have hh : Headed bootloader.heading
      (past ++ [⟨CliCall.ui (.heading bootloader.heading), ()⟩]) [] := ⟨⟨past, rfl⟩, nofun⟩
  have hshown : ∀ {next : CliProgram Bool}, (rebooting arguments V).Ensures next
        (past ++ [⟨CliCall.ui (.heading bootloader.heading), ()⟩]) (fun _ past' => ∃ tr,
          past' = past ++ [⟨CliCall.ui (.heading bootloader.heading), ()⟩] ++ tr) →
      (rebooting arguments V).Ensures (do
        tell (.heading bootloader.heading)
        next) past fun _ past' => ∃ tr, past' = past ++ tr := by
    intro next hnext
    refine (ensures_call _ _ _ _).2 ⟨.inl rfl, ?_⟩
    rintro answer _ rfl
    apply hnext.mono
    rintro _ _ ⟨tr, rfl⟩
    exact ⟨_, List.append_assoc ..⟩
  unfold leaveOne
  cases hk : bootloader.kind with
  | katapult =>
      exact hshown (leaveBySerial_sanctioned (fun _ hs => leaveSerial_confines hk hs)
        (hsub hlocked) (hd.mono hsub) hh)
  | picoBoot =>
      exact hshown (leaveConfirmed_sanctioned (leavePicoboot_confines hk) (hsub hlocked)
        (hd.mono hsub) hh)
  | stm32Dfu => exact hshown (leaveStm32Dfu_sanctioned hk (hsub hlocked) (hd.mono hsub) hh)
  | samBa =>
      exact hshown (leaveBySerial_sanctioned (fun _ hs => rebootIntoApplication_confines hk hs)
        (hsub hlocked) (hd.mono hsub) hh)

theorem leaveAll_sanctioned (bootloaders : List DetectedBootloader)
    (hlocked : ⟨.acquireLock, .ok ()⟩ ∈ past) (hd : ∀ b ∈ bootloaders, Detected past b) :
    (rebooting arguments V).Ensures (leaveAll arguments bootloaders) past
      fun _ past' => ∃ tr, past' = past ++ tr := by
  induction bootloaders generalizing past with
  | nil => exact ⟨[], (List.append_nil past).symm⟩
  | cons b rest ih =>
      rw [List.forall_mem_cons] at hd
      refine Ensures.bind (leaveOne_sanctioned hlocked hd.1) ?_
      rintro resolved _ ⟨tr, rfl⟩
      have hsub := List.subset_append_left past tr
      refine Ensures.bind (ih (hsub hlocked) fun b hb => (hd.2 b hb).mono hsub) ?_
      rintro others _ ⟨tr', rfl⟩
      exact ⟨tr ++ tr', List.append_assoc ..⟩

end Leave

end Aldis.Cli

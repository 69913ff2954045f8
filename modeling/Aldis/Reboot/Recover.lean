import Aldis.Reboot.Leave
import Aldis.Reboot.Watch

/-!
# Recovering a Beacon is warranted

A Beacon is flashed with the image its bootloader names, once the operator agreed to it, and counts
as recovered when its serial port is back; only then Klipper is restarted.
-/

namespace Aldis.Cli

open Interaction World Attempt Text Octets

variable {V : Type} {arguments : RebootArgs} {past : List CliEvent} {α ε : Type}

section Beacon

variable {request : RecoveryRequest V} {bootloader : Beacon.ObservedBootloader}
  {checkout : Option Path} {tr : List CliEvent}

def FlashesBeacon (request : RecoveryRequest V) (call : CliCall) : Prop :=
  (∃ node, call = .host (.flash (.openUsbDevice node))) ∨
    call = .host (.flash (.beaconDfu request.bootloader request.image.payload))

/-- What else is called while a Beacon is flashed. -/
def awaitsAccess : HostCall → Bool
  | .attempts _ _ | .flash (.usbDeviceNode _) => true
  | _ => false

theorem flashBeaconBootloader_makes : Makes (fun call =>
      isHook call = true ∨ awaitsAccess call = true ∨ FlashesBeacon request (.host call))
    (fun _ => True) (flashBeaconBootloader [] request.bootloader request.image) := by
  unfold flashBeaconBootloader
  refine Makes.optional True.intro (.bind ?_ fun _ => .bind ?_ fun _ => .bind ?_ fun flashed => ?_)
  · refine .bind ((makes_perform _).2 (.inr (.inl rfl))) fun node => ?_
    refine .bind (makes_check fun _ => True.intro) fun node => ?_
    refine makes_retryUntilAvailable.2 ⟨.inr (.inl rfl), ?_⟩
    refine .bind ((makes_perform _).2 (.inr (.inr (.inl ⟨node, rfl⟩)))) fun opened => ?_
    exact makes_check fun _ => True.intro
  · exact makes_hook.2 (.inl rfl)
  · exact (makes_perform _).2 (.inr (.inr (.inr rfl)))
  · exact makes_check fun _ => True.intro

/-- Flashing a Beacon calls on nothing but the Beacon. -/
theorem flashBeaconBootloader_only {P : CliCall → Prop}
    (ha : ∀ call, awaitsAccess call = true → P (.host call))
    (hf : ∀ call, FlashesBeacon request call → P call) : Only P
      (asHost rebootHooks (flashBeaconBootloader [] request.bootloader request.image)).run := by
  apply only_asHost flashBeaconBootloader_makes
  intro call hcall hh
  rcases hcall with hhook | haccess | hflash
  · rw [hh] at hhook
    cases hhook
  · exact ha call haccess
  · exact hf _ hflash

theorem rebootHooks_terminal : Terminal rebootHooks := by
  intro call
  cases call <;> exact True.intro

/-- A Beacon that was flashed was written to by the transfer which said so. -/
theorem flashBeaconBootloader_ok {result : FlashResult}
    (hr : Runs (asHost rebootHooks
      (flashBeaconBootloader [] request.bootloader request.image)).run tr (.ok result)) :
    ⟨.host (.flash (.beaconDfu request.bootloader request.image.payload)), .ok result⟩ ∈ tr := by
  obtain ⟨own, hown, hanswered⟩ := runs_attempt_handle_iff.1 hr
  have hdfu : (⟨.flash (.beaconDfu request.bootloader request.image.payload), .ok result⟩ : Event) ∈
      own := by
    unfold flashBeaconBootloader at hown
    rw [if_neg (not_not.2 request.suits)] at hown
    obtain ⟨-, waited, rest, rfl, -, hrest⟩ := runs_attempt_bind_ok_iff.1 hown
    obtain ⟨-, reported, rest', rfl, -, hrest'⟩ := runs_attempt_bind_ok_iff.1 hrest
    obtain ⟨answer, last, rfl, hlast⟩ := runs_perform_bind_iff.1 hrest'
    obtain ⟨-, he⟩ := runs_ofExcept_iff.1 hlast
    cases answer with
    | error error => cases he
    | ok flashed =>
        obtain rfl := Except.ok.inj he
        exact List.mem_append_right _ (List.mem_append_right _ List.mem_cons_self)
  have hevent : (⟨.flash (.beaconDfu request.bootloader request.image.payload), .ok result⟩ :
      Event) ∈ hostEvents tr := by
    rw [hostEvents_of_answered rebootHooks_terminal hanswered]
    exact List.mem_filter.2 ⟨hdfu, rfl⟩
  exact mem_hostEvents_iff.1 hevent

def asks : CliCall → Bool
  | .ui (.confirm _) => true
  | _ => false

/-- Calls between the turns of the devices: the lock, a scan of the bus, the heading of the next
device and Klipper's restart. -/
def delimits : CliCall → Bool
  | .acquireLock | .usbDeviceDirs _ | .ui (.heading _) | .firmwareRestart _ => true
  | _ => false

theorem isHeading_of_not_delimits {call : CliCall} (h : delimits call = false) :
    isHeading call = false := by
  cases call with
  | ui call =>
      cases call with
      | heading text => cases h
      | _ => rfl
  | _ => rfl

/-- While a Beacon is flashed and awaited, nothing is asked and its turn does not end. -/
theorem flashRecovery_only : Only (fun call => (Peeks call ∨ FlashesBeacon request call) ∧
    delimits call = false ∧ asks call = false) (flashRecovery V request) := by
  have hui : ∀ {call}, delimits (.ui call) = false → asks (.ui call) = false →
      Only (fun call => (Peeks call ∨ FlashesBeacon request call) ∧ delimits call = false ∧
        asks call = false) (tell call) := fun h ha =>
    only_tell ⟨.inl ⟨rfl, isHeading_of_not_delimits h⟩, h, ha⟩
  refine .bind (hui rfl rfl) fun _ => .bind ?_ fun flashed => ?_
  · apply flashBeaconBootloader_only
    · intro call hcall
      cases call with
      | attempts t i => exact ⟨.inl ⟨rfl, rfl⟩, rfl, rfl⟩
      | flash call =>
          cases call with
          | usbDeviceNode path => exact ⟨.inl ⟨rfl, rfl⟩, rfl, rfl⟩
          | _ => cases hcall
      | _ => cases hcall
    · intro call hcall
      refine ⟨.inr hcall, ?_⟩
      rcases hcall with ⟨node, rfl⟩ | rfl <;> exact ⟨rfl, rfl⟩
  · cases flashed with
    | error error => exact .bind (hui rfl rfl) fun _ => .bind (hui rfl rfl) fun _ => only_pure _
    | ok result =>
        refine .bind (hui rfl rfl) fun _ => ?_
        refine .bind (waitUntilLeft_only ⟨.inl ⟨rfl, rfl⟩, rfl, rfl⟩ ⟨.inl ⟨rfl, rfl⟩, rfl, rfl⟩)
          fun left => only_ite (.bind ?_ fun back => ?_) ?_
        · exact waitForApplicationAt_only ⟨.inl ⟨rfl, rfl⟩, rfl, rfl⟩
            (fun _ => ⟨.inl ⟨rfl, rfl⟩, rfl, rfl⟩) ⟨.inl ⟨rfl, rfl⟩, rfl, rfl⟩
        · exact only_ite (.bind (hui rfl rfl) fun _ => only_pure _)
            (.bind (hui rfl rfl) fun _ => only_pure _)
        · exact .bind (hui rfl rfl) fun _ => only_pure _

theorem flashRecovery_confines :
    Confines (FlashesBeacon request) (flashRecovery V request) :=
  flashRecovery_only.confined_mono fun _ h =>
    h.1.imp id fun hf => ⟨hf, isHeading_of_not_delimits h.2.1⟩

theorem runs_tell_then {call : UiCall} {f : Unit → CliProgram α} {a : α}
    (hr : Runs (tell call >>= f) tr a) :
    ∃ answer post, tr = ⟨.ui call, answer⟩ :: post ∧ Runs (f ()) post a := runs_call_iff.1 hr

theorem awaitBeacon_recovered {sysfsPath : Path} (hr : Runs (awaitBeacon sysfsPath) tr .recovered) :
    ∃ tty a b c, tr = a ++ ⟨.host (.flash (.beaconBootloaderAt sysfsPath)), none⟩ ::
      (b ++ ⟨.host (.flash (.usbTty sysfsPath)), some tty⟩ :: c) := by
  obtain ⟨watched, left, rest, rfl, hleft, hrest⟩ := runs_bind_iff.1 hr
  cases left with
  | false =>
      obtain ⟨_, told, rfl, htold⟩ := runs_tell_then hrest
      cases (runs_pure_iff.1 htold).2
  | true =>
      obtain ⟨waited, back, last, rfl, hback, hlast⟩ := runs_bind_iff.1 hrest
      cases back with
      | false =>
          obtain ⟨_, told, rfl, htold⟩ := runs_tell_then hlast
          cases (runs_pure_iff.1 htold).2
      | true =>
          obtain ⟨gone, hgone, hseen⟩ := List.any_eq_true.1 (waitUntilLeft_any hleft).symm
          obtain rfl := eq_of_leftAt hseen
          obtain ⟨port, hport, hseen⟩ := List.any_eq_true.1 (waitForApplicationAt_any hback).symm
          obtain ⟨tty, rfl⟩ := eq_of_serialAt hseen
          obtain ⟨a, b, rfl⟩ := List.append_of_mem hgone
          obtain ⟨b', c, rfl⟩ := List.append_of_mem hport
          refine ⟨tty, a, b ++ b', c ++ last, ?_⟩
          simp only [List.append_assoc, List.cons_append]

/-- A Beacon counts as recovered once it was flashed and its serial port is back. -/
theorem flashRecovery_recovered (hr : Runs (flashRecovery V request) tr .recovered) :
    BeaconBack tr := by
  obtain ⟨begun, rest, rfl, hrest⟩ := runs_tell_then hr
  obtain ⟨flashing, flashed, rest', rfl, hflash, hrest'⟩ := runs_bind_iff.1 hrest
  cases flashed with
  | error error =>
      obtain ⟨_, told, rfl, htold⟩ := runs_tell_then hrest'
      obtain ⟨_, told', rfl, htold'⟩ := runs_tell_then htold
      cases (runs_pure_iff.1 htold').2
  | ok result =>
      obtain ⟨told, last, rfl, hawait⟩ := runs_tell_then hrest'
      obtain ⟨tty, b, c, d, rfl⟩ := awaitBeacon_recovered hawait
      obtain ⟨a, a', rfl⟩ := List.append_of_mem (flashBeaconBootloader_ok hflash)
      refine ⟨request.bootloader, request.image.payload, result, tty, ⟨_, begun⟩ :: a,
        a' ++ ⟨_, told⟩ :: b, c, d, ?_⟩
      simp only [List.append_assoc, List.cons_append]

end Beacon

section Recover

variable [Semver V] {bootloader : Beacon.ObservedBootloader} {info : Except Cause HostInfo}

/-- An image is prepared for the very Beacon that was found. -/
theorem prepareBeaconRecovery_bootloader {checkout : Option Path} {request : RecoveryRequest V}
    (hp : prepareBeaconRecovery V arguments checkout bootloader = .ok request) :
    request.bootloader = bootloader := by
  unfold prepareBeaconRecovery at hp
  cases checkout with
  | none => cases hp
  | some checkout =>
      dsimp only at hp
      split at hp
      · cases hp
      · cases hi : Beacon.readImageFile (V := V) arguments.files (Beacon.imagePath checkout _) with
        | error reason =>
            rw [hi] at hp
            cases hp
        | ok image =>
            rw [hi] at hp
            change (if h : _ then Except.ok _ else _) = _ at hp
            split at hp
            · rw [← Except.ok.inj hp]
            · cases hp

/-- Recovering a Beacon which the scan has shown. -/
theorem recoverBeacon_sanctioned (hlocked : ⟨.acquireLock, .ok ()⟩ ∈ past)
    (hi : ⟨.host (.mcu .hostInfo), info⟩ ∈ past) (hd : DetectedBeacon past bootloader) :
    (rebooting arguments V).Ensures
      (recoverBeacon V arguments (recoveryCheckout arguments info) bootloader) past
      fun recovery past' => ∃ tr, past' = past ++ tr ∧ (recovery = .recovered → BeaconBack tr) := by
  refine (ensures_call _ _ _ _).2 ⟨.inl rfl, ?_⟩
  rintro answer _ rfl
  have hh : Headed (beaconHeading bootloader)
    (past ++ [⟨CliCall.ui (.heading (beaconHeading bootloader)), answer⟩]) [] :=
      ⟨⟨past, rfl⟩, nofun⟩
  cases hp : prepareBeaconRecovery V arguments (recoveryCheckout arguments info) bootloader with
  | error reason =>
      refine (ensures_call _ _ _ _).2 ⟨.inl rfl, ?_⟩
      rintro told _ rfl
      exact ⟨_, List.append_assoc .., nofun⟩
  | ok request =>
      have hb := prepareBeaconRecovery_bootloader hp
      refine confirm_sanctioned hh (fun asked ha => ?_) ⟨_, List.append_assoc .., nofun⟩
      have hsub :
        past ⊆ past ++ [⟨CliCall.ui (.heading (beaconHeading bootloader)), answer⟩] ++ asked :=
        List.subset_append_of_subset_left _ (List.subset_append_left _ _)
      apply (flashRecovery_confines.sanctioned (hsub hlocked) ?_).mono
      · rintro recovery _ ⟨tr, rfl, hr⟩
        refine ⟨[⟨CliCall.ui (.heading (beaconHeading bootloader)), answer⟩] ++ (asked ++ tr),
          ?_, ?_⟩
        · simp only [List.append_assoc]
        · rintro rfl
          exact (flashRecovery_recovered hr).prepend.prepend
      · intro more call hquiet hcall
        subst hb
        have hkept := List.subset_append_of_subset_left more hsub
        exact .recover (hd.mono hkept) (ha.append hquiet) (hkept hi) hp hcall

/-- Recovering every Beacon which the scan has shown. -/
theorem recoverAll_sanctioned (bootloaders : List Beacon.ObservedBootloader)
    (hlocked : ⟨.acquireLock, .ok ()⟩ ∈ past) (hi : ⟨.host (.mcu .hostInfo), info⟩ ∈ past)
    (hd : ∀ b ∈ bootloaders, DetectedBeacon past b) :
    (rebooting arguments V).Ensures
      (recoverAll V arguments (recoveryCheckout arguments info) bootloaders) past
      fun ended past' => ∃ tr, past' = past ++ tr ∧ (ended.1 = true → BeaconBack tr) := by
  induction bootloaders generalizing past with
  | nil => exact ⟨[], (List.append_nil past).symm, nofun⟩
  | cons b rest ih =>
      rw [List.forall_mem_cons] at hd
      refine Ensures.bind (recoverBeacon_sanctioned hlocked hi hd.1) ?_
      rintro recovery _ ⟨tr, rfl, hback⟩
      have hsub := List.subset_append_left past tr
      refine Ensures.bind (ih (hsub hlocked) (hsub hi) fun b hb => (hd.2 b hb).mono hsub) ?_
      rintro ended _ ⟨tr', rfl, hback'⟩
      refine ⟨tr ++ tr', List.append_assoc .., fun hrecovered => ?_⟩
      rcases Bool.or_eq_true_iff.1 hrecovered with h | h
      · exact (hback (of_decide_eq_true h)).append
      · exact (hback' h).prepend

/-- Klipper is restarted only where it is local, was seen not to be ready and a Beacon is back. -/
theorem restartKlipper_sanctioned (hlocked : ⟨.acquireLock, .ok ()⟩ ∈ past) (hb : BeaconBack past) :
    (rebooting arguments V).Ensures (restartKlipper arguments) past fun _ _ => True := by
  have htold : ∀ {text past'}, (rebooting arguments V).Ensures (tell (.block text)) past'
      fun _ _ => True := by
    intro text past'
    exact (ensures_call _ _ _ _).2 ⟨.inl rfl, fun _ _ _ => True.intro⟩
  unfold restartKlipper
  split
  · rename_i hlocal
    refine (ensures_call _ _ _ _).2 ⟨.inl rfl, ?_⟩
    rintro info _ rfl
    have hsub := List.subset_append_left past [⟨CliCall.host (.mcu .hostInfo), info⟩]
    cases info with
    | error error => exact htold
    | ok info =>
        change (rebooting arguments V).Ensures (if info.state = .ready then _ else _) _ _
        split
        · exact htold
        · rename_i hready
          have hrestart : ∀ {next : Except Cause Unit → CliProgram Unit} (asked : List CliEvent),
              (∀ r past', (rebooting arguments V).Ensures (next r) past' fun _ _ => True) →
              RestartAgreed arguments (past ++ [⟨.host (.mcu .hostInfo), .ok info⟩] ++ asked) →
              (rebooting arguments V).Ensures
                (Program.perform (CliCall.firmwareRestart arguments.moonraker) >>= next)
                (past ++ [⟨.host (.mcu .hostInfo), .ok info⟩] ++ asked) fun _ _ => True := by
            intro next asked hnext ha
            have hasked := List.subset_append_of_subset_left asked hsub
            refine (ensures_call _ _ _ _).2 ⟨.inr ⟨hasked hlocked, ?_⟩, fun r _ _ => hnext r _⟩
            exact .restart hlocal hb.append.append ha
          have hclosing : ∀ (r : Except Cause Unit) past', (rebooting arguments V).Ensures
              (restarted r) past' fun _ _ => True := by
            intro r past'
            cases r with
            | ok u => exact htold
            | error error => exact htold
          unfold confirm
          cases hy : arguments.yes with
          | true =>
              have hstart := hrestart [] hclosing
                ⟨past, info, hready, by rw [hy, List.append_nil]; rfl⟩
              rw [List.append_nil] at hstart
              exact hstart
          | false =>
              refine (ensures_call _ _ _ _).2 ⟨.inl rfl, ?_⟩
              rintro agreed _ rfl
              cases agreed with
              | false => exact htold
              | true =>
                  apply hrestart _ hclosing
                  refine ⟨past, info, hready, ?_⟩
                  rw [hy, List.append_assoc]
                  rfl
  · exact htold

end Recover

end Aldis.Cli

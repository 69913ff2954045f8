import Aldis.Reboot.Safety

/-!
# What the reboot command accounts for

Every bootloader that the last scan found has its turn, in order and whatever became of those
before it, and nothing is shown, left or flashed outside these turns. The exit code says whether
each was left, recovered or declined.
-/

namespace Aldis.Cli

open Interaction World Attempt Text Octets

variable {V : Type} {arguments : RebootArgs} {tr : List CliEvent} {α : Type}

section Outcome

def refuses : CliEvent → Bool
  | ⟨.ui (.confirm _), agreed⟩ => !(agreed : Bool)
  | _ => false

/-- The transfer to the Beacon succeeds. -/
def flashesAt (bootloader : Beacon.ObservedBootloader) : CliEvent → Bool
  | ⟨.host (.flash (.beaconDfu flashed _)), result⟩ =>
    decide (flashed = bootloader) && (result : Except _ FlashResult).toBool
  | _ => false

/-- What became of a bootloader, as its turn shows: it was declined, or it is gone. -/
def settled (bootloader : DetectedBootloader) (turn : List CliEvent) : Bool :=
  turn.any refuses || turn.any (goneAt bootloader.observed.sysfsPath)

/-- The Beacon was flashed, and seen out of its bootloader with its serial port. -/
def returned (bootloader : Beacon.ObservedBootloader) (turn : List CliEvent) : Bool :=
  turn.any (flashesAt bootloader) && turn.any (leftAt bootloader.sysfsPath) &&
    turn.any (serialAt bootloader.sysfsPath)

/-- A device is shown to the operator, and its turn goes on until the next. -/
def Turn (heading : Str) (turn : List CliEvent) : Prop :=
  ∃ rest, turn = ⟨.ui (.heading heading), ()⟩ :: rest ∧ ∀ ev ∈ rest, delimits ev.1 = false

/-- The scans of the bus, of which the last ended with what it found: where the first found
nothing, the command waits for a bootloader and then looks for Beacons again. -/
inductive Scanned (detected : List DetectedBootloader) (beacons : List Beacon.ObservedBootloader) :
    List CliEvent → Prop
  | first {scan scan' : List CliEvent}
      (hd : Runs (detectBootloaders USB_SYSFS_ROOT) scan detected)
      (hb : Runs (scanBeacons USB_SYSFS_ROOT) scan' beacons)
      (hn : ¬ (detected = [] ∧ beacons = [])) : Scanned detected beacons (scan ++ scan')
  | waited {scan scan' wait last scan'' : List CliEvent}
      (hd : Runs (detectBootloaders USB_SYSFS_ROOT) scan [])
      (hb : Runs (scanBeacons USB_SYSFS_ROOT) scan' [])
      (hw : Runs (waitForAnyBootloader USB_SYSFS_ROOT) (wait ++ last) detected)
      (hl : Runs (detectBootloaders USB_SYSFS_ROOT) last detected)
      (hb' : Runs (scanBeacons USB_SYSFS_ROOT) scan'' beacons) :
      Scanned detected beacons (scan ++ scan' ++ (wait ++ last) ++ scan'')

/-- What is called after the bootloaders' turns and before the Beacons'. -/
inductive Between (detected : List DetectedBootloader) (beacons : List Beacon.ObservedBootloader) :
    List CliEvent → Prop
  | nothing (hd : detected = []) (hb : beacons = []) : Between detected beacons
      [⟨.ui (.block "no bootloader detected; power-cycle the board and try again\n"), ()⟩]
  | left (hd : detected ≠ []) (hb : beacons = []) : Between detected beacons []
  | recovering (hb : beacons ≠ []) (info : Except Cause HostInfo) :
      Between detected beacons [⟨.host (.mcu .hostInfo), info⟩]

/-- The calls by which Klipper is seen to in the end. -/
def SeesTo (arguments : RebootArgs) (call : CliCall) : Prop :=
  call = .host (.mcu .hostInfo) ∨ call = .firmwareRestart arguments.moonraker ∨
    ∃ text, call = .ui (.block text) ∨ call = .ui (.confirm text)

/-- An account of a run of the command: the devices that its last scan found, the turns they had,
and what was done before, between and after these. -/
structure Account where
  detected : List DetectedBootloader
  beacons : List Beacon.ObservedBootloader
  scans : List CliEvent
  turns : List (List CliEvent)
  between : List CliEvent
  beaconTurns : List (List CliEvent)
  rest : List CliEvent

def Account.Recovered (account : Account) : Prop :=
  ∃ b turn, (b, turn) ∈ account.beacons.zip account.beaconTurns ∧ returned b turn = true

/-- Every device that the last scan found has its turn, and the exit code says what became of
them. Outside the turns the command only looks; Klipper is seen to last, and only where a Beacon
came back. -/
structure Account.Covers (arguments : RebootArgs) (account : Account) (code : ExitCode)
    (tr : List CliEvent) : Prop where
  parts : tr = ⟨.acquireLock, .ok ()⟩ :: (account.scans ++ (account.turns.flatten ++
    (account.between ++ (account.beaconTurns.flatten ++ account.rest))))
  scanned : Scanned account.detected account.beacons account.scans
  peeks : ∀ ev ∈ account.scans, Peeks ev.1
  turns : List.Forall₂ (fun b turn => Turn (DetectedBootloader.heading b) turn)
    account.detected account.turns
  between : Between account.detected account.beacons account.between
  beaconTurns : List.Forall₂ (fun b turn => Turn (beaconHeading b) turn)
    account.beacons account.beaconTurns
  code : code = .success ↔
    List.Forall₂ (fun b turn => settled b turn = true) account.detected account.turns ∧
    List.Forall₂ (fun b turn => (turn.any refuses || returned b turn) = true)
      account.beacons account.beaconTurns
  rests : ¬ account.Recovered → account.rest = []
  restarts : account.Recovered → Runs (restartKlipper arguments) account.rest ()
  seesTo : ∀ ev ∈ account.rest, SeesTo arguments ev.1

end Outcome

section Returned

variable {bootloader : Beacon.ObservedBootloader} {tr' : List CliEvent}

theorem returned_ui {call : UiCall} {answer : UiAnswer call} :
    returned bootloader (⟨.ui call, answer⟩ :: tr) = returned bootloader tr := rfl

theorem returned_append : returned bootloader (tr ++ tr') =
    ((tr.any (flashesAt bootloader) || tr'.any (flashesAt bootloader)) &&
      (tr.any (leftAt bootloader.sysfsPath) || tr'.any (leftAt bootloader.sysfsPath)) &&
        (tr.any (serialAt bootloader.sysfsPath) || tr'.any (serialAt bootloader.sysfsPath))) := by
  simp only [returned, List.any_append]

end Returned

/-- What a program that makes only calls in `P` does not tell. -/
theorem Only.not_any {P : CliCall → Prop} {g : CliEvent → Bool} {p : CliProgram α} {a : α}
    (hp : Only P p) (hr : Runs p tr a) (hg : ∀ call answer, P call → g ⟨call, answer⟩ = false) :
    tr.any g = false := by
  rw [List.any_eq_false]
  intro ev hev
  rw [hg ev.1 ev.2 ((Ensures.calls hp hr).1 ev hev)]
  exact Bool.false_ne_true

section Leave

variable {bootloader : DetectedBootloader} {sysfsPath : Path} {r : Bool}

/-- Neither said to the operator, nor a look at the bus or at what became of a device. -/
def works : CliCall → Bool
  | .ui _ | .host (.file _) | .acquireLock | .usbDeviceDirs _ | .firmwareRestart _ => false
  | .host (.flash (.beaconBootloaderAt _)) | .host (.flash (.usbTty _)) => false
  | _ => true

theorem refuses_of_works {call : CliCall} (answer : CliAnswer call) (h : works call = true) :
    refuses ⟨call, answer⟩ = false := by
  cases call with
  | ui call => cases h
  | _ => rfl

theorem goneAt_of_works {call : CliCall} (answer : CliAnswer call) (h : works call = true) :
    goneAt sysfsPath ⟨call, answer⟩ = false := by
  cases call with
  | host call =>
      cases call with
      | file call => cases h
      | _ => rfl
  | _ => rfl

theorem leftAt_of_works {call : CliCall} (answer : CliAnswer call) (h : works call = true) :
    leftAt sysfsPath ⟨call, answer⟩ = false := by
  cases call with
  | host call =>
      cases call with
      | flash call =>
          cases call with
          | beaconBootloaderAt path => cases h
          | _ => rfl
      | _ => rfl
  | _ => rfl

theorem serialAt_of_works {call : CliCall} (answer : CliAnswer call) (h : works call = true) :
    serialAt sysfsPath ⟨call, answer⟩ = false := by
  cases call with
  | host call =>
      cases call with
      | flash call =>
          cases call with
          | usbTty path => cases h
          | _ => rfl
      | _ => rfl
  | _ => rfl

theorem works_of_awaitsAccess {call : HostCall} (h : awaitsAccess call = true) :
    works (.host call) = true := by
  cases call with
  | attempts t i => rfl
  | flash call =>
      cases call with
      | usbDeviceNode path => rfl
      | _ => cases h
  | _ => cases h

theorem refuses_of_not_asks {call : CliCall} (answer : CliAnswer call) (h : asks call = false) :
    refuses ⟨call, answer⟩ = false := by
  cases call with
  | ui call =>
      cases call with
      | confirm text => cases h
      | _ => rfl
  | _ => rfl

theorem waitUntilAbsent_quiet (hr : Runs (waitUntilAbsent sysfsPath) tr r) :
    tr.any refuses = false := by
  have honly : Only (fun call => call = .host (.attempts WATCH_TIMEOUT WATCH_POLL_INTERVAL) ∨
      call = .host (.file (.pathExists sysfsPath))) (waitUntilAbsent sysfsPath) :=
    waitUntilAbsent_only (.inl rfl) (.inr rfl)
  apply honly.not_any hr
  rintro call answer (rfl | rfl) <;> rfl

theorem reportLeaveResult_any {result : Except Cause Unit}
    (hr : Runs (reportLeaveResult result sysfsPath) tr r) :
    r = tr.any (goneAt sysfsPath) ∧ tr.any refuses = false := by
  cases result with
  | error error =>
      obtain ⟨told, rest, rfl, hrest⟩ := runs_tell_then hr
      obtain ⟨rfl, rfl⟩ := runs_pure_iff.1 hrest
      exact ⟨rfl, rfl⟩
  | ok u =>
      obtain ⟨watched, absent, rest, rfl, hwatch, hrest⟩ := runs_bind_iff.1 hr
      have hgone := waitUntilAbsent_any hwatch
      have hquiet := waitUntilAbsent_quiet hwatch
      cases absent with
      | false =>
          obtain ⟨told, rest, rfl, hlast⟩ := runs_tell_then hrest
          obtain ⟨rfl, rfl⟩ := runs_pure_iff.1 hlast
          simp [← hgone, hquiet, goneAt, refuses]
      | true =>
          obtain ⟨told, rest, rfl, hlast⟩ := runs_tell_then hrest
          obtain ⟨rfl, rfl⟩ := runs_pure_iff.1 hlast
          simp [← hgone, hquiet, goneAt, refuses]

/-- How a question is answered, and what follows. -/
theorem runs_confirm {text : Str} {yes no : CliProgram α} {a : α}
    (hr : Runs (do if ← confirm arguments text then yes else no) tr a) :
    (∃ asked post, tr = asked ++ post ∧ (∀ ev ∈ asked, ev = ⟨.ui (.confirm text), true⟩) ∧
      Runs yes post a) ∨ ∃ post, tr = ⟨.ui (.confirm text), false⟩ :: post ∧ Runs no post a := by
  obtain ⟨asked, agreed, post, rfl, hconfirm, hpost⟩ := runs_bind_iff.1 hr
  unfold confirm at hconfirm
  cases hy : arguments.yes with
  | true =>
      rw [hy] at hconfirm
      obtain ⟨rfl, rfl⟩ := runs_pure_iff.1 hconfirm
      exact .inl ⟨[], post, rfl, nofun, hpost⟩
  | false =>
      rw [hy] at hconfirm
      obtain rfl := runs_perform_iff.1 hconfirm
      cases agreed with
      | false => exact .inr ⟨post, rfl, hpost⟩
      | true => exact .inl ⟨_, post, rfl, fun _ => List.mem_singleton.1, hpost⟩

theorem any_of_agreed {g : CliEvent → Bool} {asked : List CliEvent} {text : Str}
    (h : ∀ ev ∈ asked, ev = ⟨.ui (.confirm text), true⟩)
    (hg : g ⟨.ui (.confirm text), true⟩ = false) : asked.any g = false := by
  rw [List.any_eq_false]
  intro ev hev
  rw [h ev hev, hg]
  exact Bool.false_ne_true

/-- A turn that ends with `r`, as what it tells says. -/
structure Ends (sysfsPath : Path) (tr : List CliEvent) (r : Bool) : Prop where
  settles : r = (tr.any refuses || tr.any (goneAt sysfsPath))
  within : ∀ ev ∈ tr, delimits ev.1 = false

theorem not_delimits_of_works {call : CliCall} (h : works call = true) : delimits call = false := by
  cases call with
  | host call => rfl
  | probeApplicationStart path => rfl
  | leaveSystem path start => rfl
  | rebootPicoboot path => rfl
  | _ => first | rfl | cases h

theorem leaveConfirmed_ends {text : Str} {leave : CliAttempt Cause Unit}
    (hleave : Only (works · = true) leave.run)
    (hr : Runs (leaveConfirmed arguments sysfsPath text leave) tr r) : Ends sysfsPath tr r := by
  rcases runs_confirm hr with ⟨asked, post, rfl, hasked, hpost⟩ | ⟨post, rfl, hpost⟩
  · obtain ⟨own, result, rest, rfl, hown, hrest⟩ := runs_bind_iff.1 hpost
    obtain ⟨hgone, hquiet⟩ := reportLeaveResult_any hrest
    constructor
    · simp only [List.any_append, any_of_agreed (g := refuses) hasked rfl,
        any_of_agreed (g := goneAt sysfsPath) hasked rfl,
        hleave.not_any hown fun _ => refuses_of_works,
        hleave.not_any hown fun _ => goneAt_of_works, hquiet, hgone, Bool.false_or]
    · simp only [List.forall_mem_append]
      refine ⟨fun ev hev => by rw [hasked ev hev]; rfl, fun ev hev => ?_, ?_⟩
      · exact not_delimits_of_works ((Ensures.calls hleave hown).1 ev hev)
      · have honly :
          Only (fun call => delimits call = false) (reportLeaveResult result sysfsPath) :=
          reportLeaveResult_only (fun _ => rfl) rfl rfl
        exact (Ensures.calls honly hrest).1
  · obtain ⟨rfl, rfl⟩ := runs_pure_iff.1 hpost
    exact ⟨rfl, List.forall_mem_singleton.2 rfl⟩

/-- A call at the start of a turn which tells nothing. -/
theorem Ends.cons {call : CliCall} {answer : CliAnswer call} (h : Ends sysfsPath tr r)
    (hw : works call = true) : Ends sysfsPath (⟨call, answer⟩ :: tr) r := by
  constructor
  · rw [List.any_cons, List.any_cons, refuses_of_works answer hw, goneAt_of_works answer hw]
    exact h.settles
  · exact List.forall_mem_cons.2 ⟨not_delimits_of_works hw, h.within⟩

/-- A bootloader that cannot be left is not resolved. -/
theorem unresolved_ends {text : Str} (hr : Runs (do
      tell (.block text)
      return false) tr r) : Ends sysfsPath tr r := by
  obtain ⟨told, rest, rfl, hrest⟩ := runs_tell_then hr
  obtain ⟨rfl, rfl⟩ := runs_pure_iff.1 hrest
  exact ⟨rfl, List.forall_mem_singleton.2 rfl⟩

theorem leaveBySerial_ends {observed : ObservedUsbBootloader}
    {leave : Path → HostAttempt Cause Unit}
    (hleave : ∀ device, Only (works · = true) (asHost rebootHooks (leave device)).run)
    (hr : Runs (leaveBySerial arguments observed leave) tr r) : Ends observed.sysfsPath tr r := by
  unfold leaveBySerial at hr
  cases hs : observed.serialDevice with
  | none =>
      rw [hs] at hr
      exact unresolved_ends hr
  | some device =>
      rw [hs] at hr
      exact leaveConfirmed_ends (hleave device) hr

theorem leaveStm32Dfu_ends (hr : Runs (leaveStm32Dfu arguments sysfsPath) tr r) :
    Ends sysfsPath tr r := by
  obtain ⟨probe, rest, rfl, hrest⟩ := runs_perform_then_iff.1 hr
  refine Ends.cons ?_ rfl
  cases probe with
  | error error => exact unresolved_ends hrest
  | ok result =>
      cases result with
      | notFound => exact unresolved_ends hrest
      | ambiguous candidates => exact unresolved_ends hrest
      | found start =>
          refine leaveConfirmed_ends ?_ hrest
          have hmakes :
            Makes (works · = true) (fun _ => True) (leaveSystemAtPath sysfsPath start) :=
            .bind ((makes_perform _).2 rfl) fun _ => makes_accept fun _ => True.intro
          exact hmakes.only

/-- A bootloader has its own turn, and is resolved where that shows it declined or gone. -/
theorem leaveOne_turn (hr : Runs (leaveOne arguments bootloader) tr r) :
    Turn bootloader.heading tr ∧ r = settled bootloader tr := by
  obtain ⟨shown, rest, rfl, hrest⟩ := runs_tell_then hr
  have hends : Ends bootloader.observed.sysfsPath rest r := by
    cases hk : bootloader.kind with
    | katapult =>
        rw [hk] at hrest
        refine leaveBySerial_ends (fun device => only_asHost leaveSerial_makes ?_) hrest
        rintro call (rfl | ⟨command, request, -, -, rfl⟩) _ <;> rfl
    | picoBoot =>
        rw [hk] at hrest
        refine leaveConfirmed_ends ?_ hrest
        have hmakes : Makes (works · = true) (fun _ => True)
            (leavePicoboot bootloader.observed.sysfsPath) :=
          .bind ((makes_perform _).2 rfl) fun _ => makes_accept fun _ => True.intro
        exact hmakes.only
    | stm32Dfu =>
        rw [hk] at hrest
        exact leaveStm32Dfu_ends hrest
    | samBa =>
        rw [hk] at hrest
        refine leaveBySerial_ends (fun device => only_asHost rebootIntoApplication_makes ?_) hrest
        rintro call (rfl | ⟨port, -, rfl⟩) _ <;> rfl
  exact ⟨⟨rest, rfl, hends.within⟩, hends.settles⟩

/-- The bootloaders have their turns in order, and all are resolved where each of them is. -/
theorem leaveAll_turns {bootloaders : List DetectedBootloader}
    (hr : Runs (leaveAll arguments bootloaders) tr r) : ∃ turns, tr = turns.flatten ∧
      List.Forall₂ (fun b turn => Turn (DetectedBootloader.heading b) turn) bootloaders turns ∧
      (r = true ↔ List.Forall₂ (fun b turn => settled b turn = true) bootloaders turns) := by
  induction bootloaders generalizing tr r with
  | nil =>
      obtain ⟨rfl, rfl⟩ := runs_pure_iff.1 hr
      exact ⟨[], rfl, .nil, iff_of_true rfl .nil⟩
  | cons b rest ih =>
      obtain ⟨turn, resolved, tail, rfl, hturn, htail⟩ := runs_bind_iff.1 hr
      obtain ⟨others, resolved', last, rfl, hothers, hlast⟩ := runs_bind_iff.1 htail
      obtain ⟨rfl, rfl⟩ := runs_pure_iff.1 hlast
      obtain ⟨turns, rfl, hturns, hiff⟩ := ih hothers
      obtain ⟨hown, hsettled⟩ := leaveOne_turn hturn
      refine ⟨turn :: turns, by rw [List.append_nil]; rfl, .cons hown hturns, ?_⟩
      rw [List.forall₂_cons, ← hiff, ← hsettled, Bool.and_eq_true]

end Leave

section Await

variable {recovery : Recovery}

/-- A Beacon that was flashed is back where it is seen out of its bootloader with its port. -/
theorem awaitBeacon_ends {sysfsPath : Path} (hr : Runs (awaitBeacon sysfsPath) tr recovery) :
    recovery = if tr.any (leftAt sysfsPath) && tr.any (serialAt sysfsPath) then .recovered
      else .failed := by
  obtain ⟨watched, left, rest, rfl, hleft, hrest⟩ := runs_bind_iff.1 hr
  have hany := waitUntilLeft_any hleft
  have honly : Only (fun call => call = .host (.attempts WATCH_TIMEOUT WATCH_POLL_INTERVAL) ∨
      call = .host (.flash (.beaconBootloaderAt sysfsPath))) (waitUntilLeft sysfsPath) :=
    waitUntilLeft_only (.inl rfl) (.inr rfl)
  have hserial : watched.any (serialAt sysfsPath) = false := by
    apply honly.not_any hleft
    rintro call answer (rfl | rfl) <;> rfl
  cases left with
  | false =>
      obtain ⟨told, last, rfl, hlast⟩ := runs_tell_then hrest
      obtain ⟨rfl, rfl⟩ := runs_pure_iff.1 hlast
      simp [← hany, leftAt]
  | true =>
      obtain ⟨waited, back, last, rfl, hback, hlast⟩ := runs_bind_iff.1 hrest
      have hport := waitForApplicationAt_any hback
      cases back with
      | false =>
          obtain ⟨told, ended, rfl, hended⟩ := runs_tell_then hlast
          obtain ⟨rfl, rfl⟩ := runs_pure_iff.1 hended
          simp [← hany, ← hport, hserial, serialAt]
      | true =>
          obtain ⟨told, ended, rfl, hended⟩ := runs_tell_then hlast
          obtain ⟨rfl, rfl⟩ := runs_pure_iff.1 hended
          simp [← hany, ← hport]

theorem flashRecovery_ends {request : RecoveryRequest V}
    (hr : Runs (flashRecovery V request) tr recovery) : tr.any refuses = false ∧
      recovery = if returned request.bootloader tr then .recovered else .failed := by
  constructor
  · apply flashRecovery_only.not_any hr
    rintro call answer ⟨-, -, ha⟩
    exact refuses_of_not_asks answer ha
  · obtain ⟨begun, rest, rfl, hrest⟩ := runs_tell_then hr
    obtain ⟨flashing, flashed, rest', rfl, hflash, hrest'⟩ := runs_bind_iff.1 hrest
    have hworks : Only (works · = true) (asHost rebootHooks
        (flashBeaconBootloader [] request.bootloader request.image)).run := by
      apply flashBeaconBootloader_only
      · exact fun call => works_of_awaitsAccess
      · rintro call (⟨node, rfl⟩ | rfl) <;> rfl
    have hleft := hworks.not_any (g := leftAt request.bootloader.sysfsPath) hflash
      fun _ => leftAt_of_works
    cases flashed with
    | error error =>
        obtain ⟨told, last, rfl, hlast⟩ := runs_tell_then hrest'
        obtain ⟨told', ended, rfl, hended⟩ := runs_tell_then hlast
        obtain ⟨rfl, rfl⟩ := runs_pure_iff.1 hended
        have hreturned : returned request.bootloader
            (⟨_, begun⟩ :: (flashing ++ [⟨_, told⟩, ⟨_, told'⟩])) = false := by
          rw [returned_ui, returned_append, hleft]
          change (_ && false && _) = false
          rw [Bool.and_false, Bool.false_and]
        rw [hreturned]
        rfl
    | ok result =>
        obtain ⟨told, last, rfl, hlast⟩ := runs_tell_then hrest'
        have hserial := hworks.not_any (g := serialAt request.bootloader.sysfsPath) hflash
          fun _ => serialAt_of_works
        have hflashed : flashing.any (flashesAt request.bootloader) = true :=
          List.any_eq_true.2
            ⟨_, flashBeaconBootloader_ok hflash, by simp [flashesAt, Except.toBool]⟩
        have hreturned :
          returned request.bootloader (⟨_, begun⟩ :: (flashing ++ ⟨_, told⟩ :: last)) =
            (last.any (leftAt request.bootloader.sysfsPath) &&
              last.any (serialAt request.bootloader.sysfsPath)) := by
          rw [returned_ui, returned_append, hflashed, hleft, hserial]
          rfl
        rw [awaitBeacon_ends hlast, hreturned]

end Await

section Recover

variable [Semver V] {bootloader : Beacon.ObservedBootloader} {checkout : Option Path}
  {recovery : Recovery}

/-- A Beacon has its own turn, which shows whether it came back or was declined. -/
theorem recoverBeacon_turn (hr : Runs (recoverBeacon V arguments checkout bootloader) tr recovery) :
    Turn (beaconHeading bootloader) tr ∧
      (recovery = .recovered ↔ returned bootloader tr = true) ∧
      (recovery ≠ .failed ↔ (tr.any refuses || returned bootloader tr) = true) := by
  obtain ⟨shown, rest, rfl, hrest⟩ := runs_tell_then hr
  cases hp : prepareBeaconRecovery V arguments checkout bootloader with
  | error reason =>
      rw [hp] at hrest
      obtain ⟨told, last, rfl, hlast⟩ := runs_tell_then hrest
      obtain ⟨rfl, rfl⟩ := runs_pure_iff.1 hlast
      refine ⟨⟨_, rfl, List.forall_mem_singleton.2 rfl⟩, ?_, ?_⟩
      · simp [returned, flashesAt]
      · simp [returned, flashesAt, refuses]
  | ok request =>
      obtain rfl := prepareBeaconRecovery_bootloader hp
      rw [hp] at hrest
      rcases runs_confirm hrest with ⟨asked, post, rfl, hasked, hpost⟩ | ⟨post, rfl, hpost⟩
      · obtain ⟨hquiet, hrecovery⟩ := flashRecovery_ends hpost
        have hreturned : returned request.bootloader (⟨_, shown⟩ :: (asked ++ post)) =
            returned request.bootloader post := by
          rw [returned_ui, returned_append, any_of_agreed hasked rfl, any_of_agreed hasked rfl,
            any_of_agreed hasked rfl]
          rfl
        have hrefuses : (⟨_, shown⟩ :: (asked ++ post)).any refuses = false := by
          rw [List.any_cons, List.any_append, any_of_agreed hasked rfl, hquiet]
          rfl
        refine ⟨⟨_, rfl, List.forall_mem_append.2 ⟨fun ev hev => ?_, ?_⟩⟩, ?_, ?_⟩
        · rw [hasked ev hev]
          rfl
        · exact fun ev hev => ((Ensures.calls flashRecovery_only hpost).1 ev hev).2.1
        · rw [hreturned, hrecovery]
          split <;> simp_all
        · rw [hreturned, hrefuses, hrecovery]
          split <;> simp_all
      · obtain ⟨rfl, rfl⟩ := runs_pure_iff.1 hpost
        refine ⟨⟨_, rfl, List.forall_mem_singleton.2 rfl⟩, ?_, ?_⟩
        · simp [returned, flashesAt]
        · simp [refuses]

theorem recoverAll_turns {bootloaders : List Beacon.ObservedBootloader} {ended : Bool × Bool}
    (hr : Runs (recoverAll V arguments checkout bootloaders) tr ended) :
    ∃ turns, tr = turns.flatten ∧
      List.Forall₂ (fun b turn => Turn (beaconHeading b) turn) bootloaders turns ∧
      (ended.1 = true ↔ ∃ b turn, (b, turn) ∈ bootloaders.zip turns ∧ returned b turn = true) ∧
      (ended.2 = true ↔ List.Forall₂ (fun b turn => (turn.any refuses || returned b turn) = true)
        bootloaders turns) := by
  induction bootloaders generalizing tr ended with
  | nil =>
      obtain ⟨rfl, rfl⟩ := runs_pure_iff.1 hr
      exact ⟨[], rfl, .nil, by simp, iff_of_true rfl .nil⟩
  | cons b rest ih =>
      obtain ⟨turn, recovery, tail, rfl, hturn, htail⟩ := runs_bind_iff.1 hr
      obtain ⟨others, ended', last, rfl, hothers, hlast⟩ := runs_bind_iff.1 htail
      obtain ⟨rfl, rfl⟩ := runs_pure_iff.1 hlast
      obtain ⟨turns, rfl, hturns, hback, hiff⟩ := ih hothers
      obtain ⟨hown, hrecovered, hresolved⟩ := recoverBeacon_turn hturn
      refine ⟨turn :: turns, by rw [List.append_nil]; rfl, .cons hown hturns, ?_, ?_⟩
      · rw [Bool.or_eq_true, decide_eq_true_iff, hrecovered, hback, List.zip_cons_cons]
        constructor
        · rintro (h | ⟨b', turn', hmem, h⟩)
          · exact ⟨b, turn, List.mem_cons_self, h⟩
          · exact ⟨b', turn', List.mem_cons_of_mem _ hmem, h⟩
        · rintro ⟨b', turn', hmem, h⟩
          rcases List.mem_cons.1 hmem with he | hmem
          · obtain ⟨rfl, rfl⟩ := Prod.mk.inj he
            exact .inl h
          · exact .inr ⟨b', turn', hmem, h⟩
      · rw [List.forall₂_cons, ← hiff, ← hresolved, Bool.and_eq_true, decide_eq_true_iff]

theorem exitCode_eq_success {resolved : Bool} : exitCode resolved = .success ↔ resolved = true := by
  cases resolved <;> simp [exitCode]

omit [Semver V] in
theorem restartKlipper_only : Only (SeesTo arguments) (restartKlipper arguments) := by
  have htold : ∀ {text}, Only (SeesTo arguments) (tell (.block text)) := fun {text} =>
    only_tell (.inr (.inr ⟨text, .inl rfl⟩))
  refine only_ite (.bind (only_perform (.inl rfl)) fun info => ?_) htold
  cases info with
  | error error => exact htold
  | ok info =>
      have hasked : Only (SeesTo arguments) (confirm arguments RESTART_QUESTION) := by
        refine only_ite (only_pure _) (only_perform (.inr (.inr ⟨RESTART_QUESTION, .inr rfl⟩)))
      refine only_ite htold (.bind hasked fun agreed => only_ite ?_ htold)
      refine .bind (only_perform (.inr (.inl rfl))) fun result => ?_
      cases result with
      | ok u => exact htold
      | error error => exact htold

/-- What follows the bootloaders' own turns, where there is a Beacon. -/
theorem recoverBeacons_accounted {detected : List DetectedBootloader}
    {beacons : List Beacon.ObservedBootloader} {scans : List CliEvent}
    {turns : List (List CliEvent)} {resolved : Bool} {code : ExitCode} (hb : beacons ≠ [])
    (hs : Scanned detected beacons scans)
    (hp : ∀ ev ∈ scans, Peeks ev.1)
    (ht : List.Forall₂ (fun b turn => Turn (DetectedBootloader.heading b) turn) detected turns)
    (hresolved : resolved = true ↔
      List.Forall₂ (fun b turn => settled b turn = true) detected turns)
    (hr : Runs (recoverBeacons V arguments beacons resolved) tr code) :
    ∃ account : Account, account.Covers arguments code
      (⟨.acquireLock, .ok ()⟩ :: (scans ++ (turns.flatten ++ tr))) := by
  obtain ⟨info, rest, rfl, hrest⟩ := runs_perform_then_iff.1 hr
  obtain ⟨own, ended, last, rfl, hown, hlast⟩ := runs_bind_iff.1 hrest
  obtain ⟨beaconTurns, rfl, hturns, hback, hiff⟩ := recoverAll_turns hown
  obtain ⟨recovered, others⟩ := ended
  have hcode : ∀ {tr' code'}, Runs (Pure.pure (exitCode (resolved && others)) : CliProgram ExitCode)
      tr' code' → tr' = [] ∧ (code' = .success ↔
        List.Forall₂ (fun b turn => settled b turn = true) detected turns ∧
          List.Forall₂ (fun b turn => (turn.any refuses || returned b turn) = true)
            beacons beaconTurns) := by
    intro tr' code' h
    obtain ⟨rfl, rfl⟩ := runs_pure_iff.1 h
    exact ⟨rfl, by rw [exitCode_eq_success, Bool.and_eq_true_iff, hresolved, hiff]⟩
  cases recovered with
  | false =>
      obtain ⟨rfl, hcode⟩ := hcode hlast
      refine ⟨⟨detected, beacons, scans, turns, [⟨_, info⟩], beaconTurns, []⟩, rfl, hs, hp, ht,
        .recovering hb info, hturns, hcode, fun _ => rfl, fun h => ?_, List.forall_mem_nil _⟩
      exact absurd (hback.2 h) Bool.false_ne_true
  | true =>
      obtain ⟨restart, u, done, rfl, hrestart, hdone⟩ := runs_bind_iff.1 hlast
      obtain ⟨rfl, hcode⟩ := hcode hdone
      rw [List.append_nil]
      exact ⟨⟨detected, beacons, scans, turns, [⟨_, info⟩], beaconTurns, restart⟩, rfl, hs, hp, ht,
        .recovering hb info, hturns, hcode, fun h => absurd (hback.1 rfl) h, fun _ => hrestart,
        (Ensures.calls restartKlipper_only hrestart).1⟩

end Recover

section Command

variable [Semver V] {code : ExitCode} {detected : List DetectedBootloader}
  {beacons : List Beacon.ObservedBootloader}

/-- Without a Beacon nothing follows the bootloaders' turns. -/
theorem covers_of_turns {scans between : List CliEvent} {turns : List (List CliEvent)}
    (hs : Scanned detected [] scans) (hp : ∀ ev ∈ scans, Peeks ev.1)
    (ht : List.Forall₂ (fun b turn => Turn (DetectedBootloader.heading b) turn) detected turns)
    (hb : Between detected [] between)
    (hc : code = .success ↔ List.Forall₂ (fun b turn => settled b turn = true) detected turns) :
    Account.Covers arguments ⟨detected, [], scans, turns, between, [], []⟩ code
      (⟨.acquireLock, .ok ()⟩ :: (scans ++ (turns.flatten ++ between))) := by
  refine ⟨?_, hs, hp, ht, hb, .nil, hc.trans (and_iff_left .nil).symm, fun _ => rfl, ?_,
    List.forall_mem_nil _⟩
  · simp
  · rintro ⟨b, turn, hmem, -⟩
    cases hmem

theorem handleBootloaders_accounted {scans : List CliEvent} (hs : Scanned detected beacons scans)
    (hp : ∀ ev ∈ scans, Peeks ev.1)
    (hr : Runs (handleBootloaders V arguments detected beacons) tr code) :
    ∃ account : Account, account.Covers arguments code
      (⟨.acquireLock, .ok ()⟩ :: (scans ++ tr)) := by
  unfold handleBootloaders at hr
  split at hr
  · rename_i hnone
    obtain ⟨rfl, rfl⟩ := hnone
    obtain ⟨told, rest, rfl, hrest⟩ := runs_tell_then hr
    obtain ⟨rfl, rfl⟩ := runs_pure_iff.1 hrest
    exact ⟨_, covers_of_turns hs hp .nil (.nothing rfl rfl) (iff_of_true rfl .nil)⟩
  · rename_i hsome
    obtain ⟨own, resolved, rest, rfl, hown, hrest⟩ := runs_bind_iff.1 hr
    obtain ⟨turns, rfl, hturns, hiff⟩ := leaveAll_turns hown
    split at hrest
    · rename_i hb
      subst hb
      obtain ⟨rfl, rfl⟩ := runs_pure_iff.1 hrest
      refine ⟨_, covers_of_turns hs hp hturns (.left (fun hd => hsome ⟨hd, rfl⟩) rfl) ?_⟩
      rw [exitCode_eq_success, hiff]
    · rename_i hb
      exact recoverBeacons_accounted hb hs hp hturns hiff hrest

theorem Confines.peeks {p : CliProgram α} {a : α} (hp : Confines (fun _ => False) p)
    (hr : Runs p tr a) : ∀ ev ∈ tr, Peeks ev.1 :=
  fun ev hev => ((Ensures.calls hp hr).1 ev hev).resolve_right And.left

theorem rebootLocked_accounted (hr : Runs (rebootLocked V arguments) tr code) :
    ∃ account : Account, account.Covers arguments code (⟨.acquireLock, .ok ()⟩ :: tr) := by
  obtain ⟨scan, detected, rest, rfl, hscan, hrest⟩ := runs_bind_iff.1 hr
  obtain ⟨scan', beacons, rest', rfl, hscan', hrest'⟩ := runs_bind_iff.1 hrest
  have hpeeks : ∀ ev ∈ scan ++ scan', Peeks ev.1 := List.forall_mem_append.2
    ⟨detectBootloaders_confines.peeks hscan, scanBeacons_confines.peeks hscan'⟩
  split at hrest'
  · rename_i hnone
    obtain ⟨rfl, rfl⟩ := hnone
    obtain ⟨wait, found, rest₁, rfl, hwait, hrest₁⟩ := runs_bind_iff.1 hrest'
    obtain ⟨again, beacons', rest₂, rfl, hagain, hrest₂⟩ := runs_bind_iff.1 hrest₁
    have hpeeks' := List.forall_mem_append.2 ⟨List.forall_mem_append.2 ⟨hpeeks,
      waitForAnyBootloader_confines.peeks hwait⟩, scanBeacons_confines.peeks hagain⟩
    obtain ⟨pre, own, rfl, hown⟩ := runs_waitForAnyBootloader hwait
    have haccount := handleBootloaders_accounted (.waited hscan hscan' hwait hown hagain) hpeeks'
      hrest₂
    simpa only [List.append_assoc] using haccount
  · rename_i hsome
    have haccount := handleBootloaders_accounted (.first hscan hscan' hsome) hpeeks hrest'
    simpa only [List.append_assoc] using haccount

/-- Where the lock is refused the command ends at once. Otherwise it scans the bus, and every
bootloader that the last scan found has its own turn, whatever became of those before it; nothing
is shown, left or flashed outside the turns. The command ends in success exactly where each turn
shows the bootloader declined or gone, and each Beacon declined or back. -/
theorem reboot_accounts {result : Except Cause ExitCode}
    (hr : Runs (reboot V arguments).run tr result) :
    (∃ error : Cause, tr = [⟨.acquireLock, .error error⟩] ∧
      result = .error (.leaf ("could not start the reboot: " ++ error.text))) ∨
    ∃ code, result = .ok code ∧ ∃ account : Account, account.Covers arguments code tr := by
  obtain ⟨lock, rest, rfl, hrest⟩ := runs_perform_bind_iff.1 hr
  cases lock with
  | error error =>
      obtain ⟨rfl, rfl⟩ := runs_pure_iff.1 hrest
      exact .inl ⟨error, rfl, rfl⟩
  | ok u =>
      obtain ⟨code, rfl, hlocked⟩ := runs_lift_iff.1 hrest
      exact .inr ⟨code, rfl, rebootLocked_accounted hlocked⟩

theorem reboot_accounts_on_bench :
    (benchExecution.2.toOption = some .success ∧
      benchExecution.1.countP (fun ev => isHeading ev.1) = 2 ∧
        benchExecution.1.any fun ev => decide (ev.1 = .firmwareRestart benchArguments.moonraker)) ∧
    ((∃ error : Cause, benchExecution.1 = [⟨.acquireLock, .error error⟩] ∧
      benchExecution.2 = .error (.leaf ("could not start the reboot: " ++ error.text))) ∨
    ∃ code, benchExecution.2 = .ok code ∧
      ∃ account : Account, account.Covers benchArguments code benchExecution.1) :=
  ⟨by decide +kernel, reboot_accounts runs_benchExecution⟩

end Command

end Aldis.Cli

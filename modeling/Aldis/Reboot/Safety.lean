import Aldis.FlashCommand.Safety
import Aldis.Reboot.Recover

/-!
# The reboot command keeps its warrant

What the scans of the bus find was shown by them, so everything the command then does with it is
warranted.
-/

namespace Aldis.Cli

open Interaction World Attempt Text Octets

variable {V : Type} [Semver V] {arguments : RebootArgs} {past tr : List CliEvent} {α : Type}

section Detect

/-- What a scan finds was found by the look at one of the devices. -/
theorem runs_scan {look : Path → CliProgram (Option α)} {paths : List Path} {found : List α}
    {a : α} (hr : Runs (scan look paths) tr found) (ha : a ∈ found) :
    ∃ path ∈ paths, ∃ own, own ⊆ tr ∧ Runs (look path) own (some a) := by
  induction paths generalizing tr found with
  | nil =>
      obtain ⟨-, rfl⟩ := runs_pure_iff.1 hr
      cases ha
  | cons path rest ih =>
      obtain ⟨own, seen, tail, rfl, hown, htail⟩ := runs_bind_iff.1 hr
      obtain ⟨scanned, others, last, rfl, hscan, hlast⟩ := runs_bind_iff.1 htail
      obtain ⟨rfl, rfl⟩ := runs_pure_iff.1 hlast
      rcases List.mem_append.1 ha with ha | ha
      · obtain rfl := Option.mem_toList.1 ha
        exact ⟨path, List.mem_cons_self, own, List.subset_append_left _ _, hown⟩
      · obtain ⟨path', hmem, own', hsub, hown'⟩ := ih hscan ha
        refine ⟨path', List.mem_cons_of_mem _ hmem, own', ?_, hown'⟩
        rw [List.append_nil]
        exact List.subset_append_of_subset_right _ hsub

theorem detectBootloader_some {sysfsPath : Path} {bootloader : DetectedBootloader}
    (hr : Runs (detectBootloader sysfsPath) tr (some bootloader)) :
    bootloader.observed.sysfsPath = sysfsPath ∧ (∃ identity : UsbIdentity,
      ⟨.host (.flash (.usbIdentity sysfsPath)), identity⟩ ∈ tr ∧
        classifyUsbIdentity identity.usbId identity.manufacturer = some bootloader.kind) ∧
      ⟨.host (.flash (.usbTty sysfsPath)), bootloader.observed.serialDevice⟩ ∈ tr := by
  obtain ⟨identity, rest, rfl, hrest⟩ := runs_perform_then_iff.1 hr
  cases hk : classifyUsbIdentity identity.usbId identity.manufacturer with
  | none =>
      rw [hk] at hrest
      cases (runs_pure_iff.1 hrest).2
  | some kind =>
      rw [hk] at hrest
      obtain ⟨tty, last, rfl, hlast⟩ := runs_perform_then_iff.1 hrest
      obtain ⟨rfl, he⟩ := runs_pure_iff.1 hlast
      have hkind : ObservedUsbBootloader.kind
        ⟨sysfsPath, identity.usbId, identity.manufacturer, tty⟩ = some kind := hk
      rw [hkind] at he
      obtain rfl := Option.some.inj he
      exact ⟨rfl, ⟨identity, List.mem_cons_self, hk⟩, List.mem_cons_of_mem _ List.mem_cons_self⟩

theorem detectBootloaders_detected {found : List DetectedBootloader}
    (hr : Runs (detectBootloaders USB_SYSFS_ROOT) tr found) : ∀ b ∈ found, Detected tr b := by
  intro b hb
  obtain ⟨dirs, rest, rfl, hscan⟩ := runs_perform_then_iff.1 hr
  obtain ⟨path, hpath, own, hsub, hown⟩ := runs_scan hscan hb
  have hsub := List.subset_cons_of_subset ⟨.usbDeviceDirs USB_SYSFS_ROOT, dirs⟩ hsub
  obtain ⟨rfl, ⟨identity, hidentity, hk⟩, htty⟩ := detectBootloader_some hown
  exact ⟨⟨dirs, List.mem_cons_self, hpath⟩, ⟨identity, hsub hidentity, hk⟩, hsub htty⟩

theorem scanBeacons_detected {found : List Beacon.ObservedBootloader}
    (hr : Runs (scanBeacons USB_SYSFS_ROOT) tr found) : ∀ b ∈ found, DetectedBeacon tr b := by
  intro b hb
  obtain ⟨dirs, rest, rfl, hscan⟩ := runs_perform_then_iff.1 hr
  obtain ⟨path, hpath, own, hsub, hown⟩ := runs_scan hscan hb
  obtain rfl := runs_perform_iff.1 hown
  exact ⟨dirs, path, List.mem_cons_self, hpath, List.mem_cons_of_mem _ (hsub List.mem_cons_self)⟩

/-- What the wait found is what its last look at the bus found. -/
theorem runs_waitForAnyBootloader {root : Path} {found : List DetectedBootloader}
    (hr : Runs (waitForAnyBootloader root) tr found) :
    ∃ pre own, tr = pre ++ own ∧ Runs (detectBootloaders root) own found := by
  obtain ⟨watched, seen, rest, rfl, hwatch, hreturn⟩ := runs_bind_iff.1 hr
  obtain ⟨rfl, rfl⟩ := runs_pure_iff.1 hreturn
  obtain ⟨pre, own, rfl, hown⟩ := runs_watch hwatch
  obtain ⟨looked, detected, last, rfl, hlook, hlast⟩ := runs_bind_iff.1 hown
  obtain ⟨rfl, rfl⟩ := runs_pure_iff.1 hlast
  refine ⟨pre, looked, by simp only [List.append_nil], ?_⟩
  split
  · rename_i he
    exact he ▸ hlook
  · exact hlook

end Detect

section Command

/-- Looking at the bus is warranted, and keeps what it did. -/
theorem Confines.keeps {p : CliProgram α} (hp : Confines (fun _ => False) p) :
    (rebooting arguments V).Ensures p past fun a past' =>
      ∃ tr, past' = past ++ tr ∧ Runs p tr a := by
  refine (Ensures.of_confined_trace hp (C := RebootWarranted arguments V) ?_).mono ?_
  · intro tr call _ hcall
    exact .inl (hcall.resolve_right And.left).1
  · rintro a _ ⟨tr, rfl, hr, -⟩
    exact ⟨tr, rfl, hr⟩

theorem recoverBeacons_sanctioned {beacons : List Beacon.ObservedBootloader} {resolved : Bool}
    (hlocked : ⟨.acquireLock, .ok ()⟩ ∈ past) (hb : ∀ b ∈ beacons, DetectedBeacon past b) :
    (rebooting arguments V).Ensures (recoverBeacons V arguments beacons resolved) past
      fun _ _ => True := by
  have hinfo : (rebooting arguments V).Ensures (Program.perform (CliCall.host (.mcu .hostInfo)))
      past fun info past' => past' = past ++ [⟨.host (.mcu .hostInfo), info⟩] :=
    (ensures_call _ _ _ _).2 ⟨.inl rfl, fun _ _ h => h⟩
  refine Ensures.bind hinfo ?_
  rintro info _ rfl
  have hsub := List.subset_append_left past [⟨CliCall.host (.mcu .hostInfo), info⟩]
  refine Ensures.bind (recoverAll_sanctioned beacons (hsub hlocked)
    (List.mem_append_right _ (List.mem_singleton_self _)) fun b hmem => (hb b hmem).mono hsub) ?_
  rintro ⟨recovered, others⟩ _ ⟨tr, rfl, hback⟩
  cases recovered with
  | false => exact True.intro
  | true =>
      refine Ensures.bind (restartKlipper_sanctioned (List.mem_append_left _ (hsub hlocked)) ?_)
        fun _ _ _ => True.intro
      exact (hback rfl).prepend

theorem handleBootloaders_sanctioned {detected : List DetectedBootloader}
    {beacons : List Beacon.ObservedBootloader} (hlocked : ⟨.acquireLock, .ok ()⟩ ∈ past)
    (hd : ∀ b ∈ detected, Detected past b) (hb : ∀ b ∈ beacons, DetectedBeacon past b) :
    (rebooting arguments V).Ensures (handleBootloaders V arguments detected beacons) past
      fun _ _ => True := by
  unfold handleBootloaders
  split
  · exact (ensures_call _ _ _ _).2 ⟨.inl rfl, fun _ _ _ => True.intro⟩
  · refine Ensures.bind (leaveAll_sanctioned detected hlocked hd) ?_
    rintro resolved _ ⟨tr, rfl⟩
    split
    · exact True.intro
    · exact recoverBeacons_sanctioned (List.mem_append_left _ hlocked)
        fun b hmem => (hb b hmem).mono (List.subset_append_left _ _)

/-- What the scans found is handled once they are made. -/
theorem scanned_sanctioned {p : CliProgram (List DetectedBootloader)}
    {f : List DetectedBootloader → List Beacon.ObservedBootloader → CliProgram α}
    (hp : Confines (fun _ => False) p)
    (hd : ∀ tr detected, Runs p tr detected → ∀ b ∈ detected, Detected tr b)
    (hf : ∀ tr detected beacons, (∀ b ∈ detected, Detected (past ++ tr) b) →
      (∀ b ∈ beacons, DetectedBeacon (past ++ tr) b) →
        (rebooting arguments V).Ensures (f detected beacons) (past ++ tr) fun _ _ => True) :
    (rebooting arguments V).Ensures (do
      let detected ← p
      let beacons ← scanBeacons USB_SYSFS_ROOT
      f detected beacons) past fun _ _ => True := by
  refine Ensures.bind hp.keeps ?_
  rintro detected _ ⟨scan, rfl, hscan⟩
  refine Ensures.bind (scanBeacons_confines.keeps) ?_
  rintro beacons _ ⟨scan', rfl, hscan'⟩
  rw [List.append_assoc]
  apply hf
  · intro b hb
    exact (hd scan detected hscan b hb).mono
      (List.subset_append_of_subset_right _ (List.subset_append_left _ _))
  · intro b hb
    exact (scanBeacons_detected hscan' b hb).mono
      (List.subset_append_of_subset_right _ (List.subset_append_right _ _))

theorem rebootLocked_sanctioned (hlocked : ⟨.acquireLock, .ok ()⟩ ∈ past) :
    (rebooting arguments V).Ensures (rebootLocked V arguments) past fun _ _ => True := by
  apply scanned_sanctioned detectBootloaders_confines fun _ _ => detectBootloaders_detected
  intro tr detected beacons hd hb
  have hlocked : ⟨.acquireLock, .ok ()⟩ ∈ past ++ tr := List.mem_append_left _ hlocked
  split
  · apply scanned_sanctioned waitForAnyBootloader_confines
    · intro tr' found hr b hmem
      obtain ⟨pre, own, rfl, hown⟩ := runs_waitForAnyBootloader hr
      exact (detectBootloaders_detected hown b hmem).mono (List.subset_append_right _ _)
    · intro tr' found beacons' hd' hb'
      exact handleBootloaders_sanctioned (List.mem_append_left _ hlocked) hd' hb'
  · exact handleBootloaders_sanctioned hlocked hd hb

theorem reboot_sanctioned (V : Type) [Semver V] (arguments : RebootArgs) :
    (rebooting arguments V).Ensures (reboot V arguments).run [] fun _ _ => True := by
  refine (ensures_call _ _ _ _).2 ⟨.inl rfl, ?_⟩
  rintro lock _ rfl
  cases lock with
  | error error => exact True.intro
  | ok u =>
      have hlocked : (rebooting arguments V).Ensures (rebootLocked V arguments)
        [⟨.acquireLock, .ok u⟩] fun _ _ => True := rebootLocked_sanctioned List.mem_cons_self
      exact hlocked.bind fun _ _ _ => True.intro

section Bench

def benchPico : Path := "/sys/bus/usb/devices/1-1"
def benchBeacon : Path := "/sys/bus/usb/devices/1-2"

def benchImage : Bytes :=
  let body : Bytes := [66, 0x10, 0x20, 0xa1, 0xbe, 0xd8, 0x04, 0, 1, 85, 70, 68, 16]
  body ++ le32 (Beacon.dfuCrc body)

def benchFiles : HostFiles where
  home := some "/home/pi"
  isFile := fun _ => true
  isDir := fun _ => true
  read := fun _ => .ok benchImage
  readToString := fun _ => .ok []
  readDir := fun _ => none
  canonicalize := fun _ => none
  usbDevicePath := fun _ => none

def benchArguments : RebootArgs where
  yes := false
  beaconSource := none
  moonraker := "http://localhost:7125"
  isLoopbackUrl := fun _ => true
  files := benchFiles
  defaultKlipperSource := "/home/pi/klipper"

/-- A host with a Pico and a Beacon in their bootloaders; the Beacon leaves it when flashed. -/
def benchHost (past : List CliEvent) : (call : CliCall) → CliAnswer call
  | .usbDeviceDirs _ => [benchPico, benchBeacon]
  | .host (.flash (.usbIdentity path)) =>
    if path = benchPico then ⟨"2e8a:0003", "Raspberry Pi"⟩ else ⟨"04d8:bea1", "Beacon"⟩
  | .host (.flash (.beaconBootloaderAt path)) =>
    let flashed := past.any fun
      | ⟨.host (.flash (.beaconDfu _ _)), _⟩ => true
      | _ => false
    if path = benchBeacon ∧ ¬ flashed then
      some ⟨benchBeacon, Beacon.VENDOR_ID, 0xbea1, "Beacon RevH Bootloader"⟩
    else none
  | .host (.flash (.usbTty path)) => if path = benchBeacon then some "/dev/ttyACM0" else none
  | .host (.file (.pathExists _)) => false
  | .host (.file (.readToString path)) =>
    .ok (if path = Path.join benchBeacon "idVendor" then "04d8\n" else "Beacon RevH\n")
  | .host (.mcu .hostInfo) => .ok ⟨.error, [], none, none, none⟩
  | call => commandHost past call

def benchExecution : List CliEvent × Except Cause ExitCode :=
  (reboot Semver.Rank benchArguments).run.interact benchHost []

theorem runs_benchExecution : Runs (reboot Semver.Rank benchArguments).run benchExecution.1
    benchExecution.2 := runs_interact_nil benchHost _

end Bench

/-- Before the lock is held the command only looks. It then leaves only bootloaders that the scan
of the bus has shown and the operator agreed to, each by the calls of its kind; it flashes only a
Beacon found in its bootloader, with the image that names it; and it restarts Klipper only where
that is local and not ready, and a Beacon came back. -/
theorem reboot_warranted {pre post : List CliEvent} {ev : CliEvent} {result : Except Cause ExitCode}
    (hr : Runs (reboot V arguments).run (pre ++ ev :: post) result) :
    RebootWarranted arguments V pre ev.1 :=
  (reboot_sanctioned V arguments).audited_permits hr

theorem reboot_warranted_on_bench :
    (∃ ev ∈ benchExecution.1, ev.1 = .rebootPicoboot benchPico) ∧
      (∃ ev ∈ benchExecution.1, ev.1 = .firmwareRestart benchArguments.moonraker) ∧
        ∀ pre ev post, benchExecution.1 = pre ++ ev :: post →
          RebootWarranted benchArguments Semver.Rank pre ev.1 :=
  ⟨by decide +kernel, by decide +kernel, fun _ _ _ he =>
    reboot_warranted (he ▸ runs_benchExecution)⟩

end Command

end Aldis.Cli

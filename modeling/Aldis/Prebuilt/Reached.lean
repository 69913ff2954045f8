import Aldis.FreshBuild
import Aldis.Prebuilt.Resolve
import Aldis.Prebuilt.Separation

/-!
# An MCU that verified is not offered again

The check after a flash compares reported texts, the offer compares versions. They agree for every
vendor, for Cartographer because a target's version is the number its image reports.
-/

namespace Aldis

open Text Eligibility Revision

variable {V : Type} [Semver V] {mcu : Mcu} {targets : Prebuilt.Targets V}
  {versions : TargetVersions V} {running : Prebuilt.Running V}

section Vendors

/-- Recognition by vendor, with what the other vendors' checks then say. -/
theorem identify_cases (h : Prebuilt.identify mcu = some (.ok running)) :
    (∃ firmware, running = .beacon firmware ∧ Beacon.identify mcu = some firmware ∧
        Cartographer.isCartographer mcu = false ∧ Beacon.isBeacon V mcu = true) ∨
      (∃ firmware, running = .cartographer firmware ∧ Cartographer.isCartographer mcu = true ∧
        Cartographer.identifyCartographer mcu = .ok firmware) ∨
      ∃ firmware, running = .foci firmware ∧ Foci.identify mcu = .ok firmware ∧
        Cartographer.isCartographer mcu = false ∧ Beacon.isBeacon V mcu = false ∧
          Foci.isFoci mcu = true := by
  unfold Prebuilt.identify at h
  cases hb : Beacon.identify (V := V) mcu with
  | some firmware =>
      rw [hb] at h
      cases h
      have hc : Cartographer.isCartographer mcu = false :=
        Prebuilt.not_cartographer_of_names_beacon (Prebuilt.names_beacon_of_identify hb)
      exact .inl ⟨firmware, rfl, rfl, hc, Prebuilt.isBeacon_iff.2 ⟨firmware, hb⟩⟩
  | none =>
      simp only [hb, Cartographer.identify] at h
      cases hc : Cartographer.isCartographer mcu with
      | true =>
          rw [hc, if_pos rfl] at h
          cases hi : Cartographer.identifyCartographer (V := V) mcu with
          | error reason =>
              rw [hi] at h
              cases h
          | ok firmware =>
              rw [hi] at h
              cases h
              exact .inr (.inl ⟨firmware, rfl, rfl, rfl⟩)
      | false =>
          rw [hc, if_neg Bool.false_ne_true] at h
          simp only at h
          split_ifs at h with hf
          cases hi : Foci.identify (V := V) mcu with
          | error reason =>
              rw [hi] at h
              cases h
          | ok firmware =>
              rw [hi] at h
              cases h
              have hn : Beacon.isBeacon V mcu = false := by
                rw [Beacon.isBeacon, hb]
                rfl
              exact .inr (.inr ⟨firmware, rfl, rfl, rfl, hn, hf⟩)

theorem compareVersions_self (v : V) : compareVersions v v = .current := by
  simp [compareVersions]

/-- A Cartographer whose report is its target's runs the version of its target. -/
theorem version_of_reported {firmware : Cartographer.Firmware V} {target : Cartographer.Target V}
    (hi : Cartographer.identifyCartographer mcu = .ok firmware)
    (hr : Cartographer.parseVersion target.reported = some target.version)
    (hv : mcu.version = some target.reported) : firmware.version = target.version := by
  unfold Cartographer.identifyCartographer at hi
  split at hi
  · cases hi
  · simp only [hv, Option.getD_some, hr] at hi
    cases hi
    rfl

theorem compare_of_reached (hr : targets.cartographer.ReportsVersions)
    (hi : Prebuilt.identify mcu = some (.ok running))
    (h : targets.reachedBy mcu = some (some true)) :
    targets.compare running mcu.name = .current := by
  unfold Prebuilt.Targets.reachedBy at h
  rcases identify_cases hi with ⟨firmware, rfl, hb, hc, his⟩ | ⟨firmware, rfl, hc, hok⟩ |
    ⟨firmware, rfl, hok, hc, hb, hf⟩
  · rw [hc, if_neg Bool.false_ne_true, his, if_pos rfl, Option.some.injEq,
      Option.map_eq_some_iff] at h
    obtain ⟨target, ht, he⟩ := h
    rw [hb, Option.any_some, decide_eq_true_iff] at he
    simp only [Prebuilt.Targets.compare, Prebuilt.Targets.target, ht, Option.map_some, he]
    exact compareVersions_self target.version
  · rw [hc, if_pos rfl, Option.some.injEq, Option.map_eq_some_iff] at h
    obtain ⟨target, ht, he⟩ := h
    have hv : firmware.version = target.version :=
      version_of_reported hok (hr _ _ ht) (of_decide_eq_true he)
    simp only [Prebuilt.Targets.compare, Prebuilt.Targets.target, ht, Option.map_some,
      Cartographer.compare, hv]
    exact compareVersions_self target.version
  · rw [hc, if_neg Bool.false_ne_true, hb, if_neg Bool.false_ne_true, hf, if_pos rfl,
      Option.some.injEq, Option.map_eq_some_iff] at h
    obtain ⟨release, ht, he⟩ := h
    rw [hok, decide_eq_true_iff] at he
    simp only [Prebuilt.Targets.compare, Prebuilt.Targets.target, ht, Option.map_some, he]

theorem reachedBy_ne_none (h : Prebuilt.identify mcu = some (.ok running)) :
    targets.reachedBy mcu ≠ none := by
  unfold Prebuilt.Targets.reachedBy
  rcases identify_cases h with ⟨firmware, -, -, hc, his⟩ | ⟨firmware, -, hc, -⟩ |
    ⟨firmware, -, -, hc, hb, hf⟩
  · rw [hc, if_neg Bool.false_ne_true, his, if_pos rfl]
    exact Option.some_ne_none _
  · rw [hc, if_pos rfl]
    exact Option.some_ne_none _
  · rw [hc, if_neg Bool.false_ne_true, hb, if_neg Bool.false_ne_true, hf, if_pos rfl]
    exact Option.some_ne_none _

end Vendors

section Offer

theorem current_of_prebuilt (hr : versions.prebuilt.cartographer.ReportsVersions)
    (hc : classifyMcu mcu = .prebuilt running) (h : versions.reachedBy mcu = some true) :
    (assessMcu mcu versions).revision = some .current ∧ downgradeOf mcu versions = none := by
  have hi : Prebuilt.identify mcu = some (.ok running) := Prebuilt.identify_of_prebuilt hc
  have hreached : versions.prebuilt.reachedBy mcu = some (some true) := by
    unfold TargetVersions.reachedBy at h
    cases hp : versions.prebuilt.reachedBy mcu with
    | none => exact absurd hp (reachedBy_ne_none hi)
    | some reached =>
        rw [hp] at h
        exact congrArg some h
  have hcompare : versions.prebuilt.compare running mcu.name = .current :=
    compare_of_reached hr hi hreached
  constructor
  · simp only [assessMcu, hc, hcompare]
  · simp only [downgradeOf, hc, Prebuilt.Targets.downgrade, hcompare]
    rfl

theorem current_of_eligible (hc : classifyMcu (V := V) mcu = .eligible)
    (h : versions.reachedBy mcu = some true) :
    (assessMcu mcu versions).revision = some .current ∧ downgradeOf mcu versions = none := by
  unfold TargetVersions.reachedBy at h
  rw [reachedBy_of_identify_eq_none (Prebuilt.predicates_of_eligible hc).1] at h
  cases hk : versions.klipper with
  | indeterminate =>
      rw [hk] at h
      cases h
  | known selected =>
      rw [hk] at h
      cases hv : mcu.version with
      | none =>
          rw [hv] at h
          cases h
      | some running =>
          rw [hv] at h
          have hm : revisionsMatch running selected = true := Option.some.inj h
          have hcompare : compareRevisions V running selected = .current :=
            compareRevisions_of_match hm
          constructor
          · simp only [assessMcu, hc, hv, hk, hcompare]
          · simp only [downgradeOf, hc, hv, hk, hcompare]
            rfl

theorem not_selected_of_current
    (h : (assessMcu mcu versions).revision = some .current) :
    isSelected mcu versions .required = false := by
  unfold isSelected
  simp only [h]
  split_ifs
  · rfl
  · rfl

end Offer

/-- Whatever the resolvers found, an MCU that runs its target needs no update, and nothing is said
to be a downgrade of it. -/
theorem reached_not_offered_again (J : Type) [DictionaryReader J] (host : HostFiles)
    (inventory : McuInventory) (context : Prebuilt.ResolveContext V) (klipper : CheckoutRevision)
    (mcu : Mcu) (hc : classifyMcu (V := V) mcu = .eligible ∨
      ∃ running, classifyMcu (V := V) mcu = .prebuilt running)
    (h : TargetVersions.reachedBy
      ⟨klipper, Prebuilt.resolveTargets host J inventory context⟩ mcu = some true) :
    (assessMcu mcu
        ⟨klipper, Prebuilt.resolveTargets host J inventory context⟩).revision = some .current ∧
      isSelected mcu ⟨klipper, Prebuilt.resolveTargets host J inventory context⟩ .required =
        false ∧
      downgradeRefusal mcu ⟨klipper, Prebuilt.resolveTargets host J inventory context⟩ = none := by
  have hr : (Prebuilt.resolveTargets host J inventory context).cartographer.ReportsVersions :=
    Cartographer.targetsFor_reportsVersions host J inventory _ _
  have hcurrent : (assessMcu mcu
        ⟨klipper, Prebuilt.resolveTargets host J inventory context⟩).revision = some .current ∧
      downgradeOf mcu ⟨klipper, Prebuilt.resolveTargets host J inventory context⟩ = none := by
    rcases hc with hc | ⟨running, hc⟩
    · exact current_of_eligible hc h
    · exact current_of_prebuilt hr hc h
  refine ⟨hcurrent.1, not_selected_of_current hcurrent.1, ?_⟩
  rw [downgradeRefusal, hcurrent.2, Option.map_none]

def beaconMcu : Mcu where
  name := "mcu beacon"
  app := none
  version := some "Beacon 2.1.0"
  mcu := "samd51n20a"
  canbusFrequencyHz := none
  buildVersions := none
  transport := some (.serial "/dev/ttyACM0")
  kconfig := []

def beaconHost : HostFiles where
  home := some "/home/pi"
  isFile _ := false
  isDir path := path = "/home/pi/beacon_klipper/firmware"
  read path := if path = "/home/pi/beacon_klipper/firmware/revh.dfu" then .ok Prebuilt.beaconFile
    else .error "No such file or directory"
  readToString path := if path = "/sys/devices/1-1/product" then .ok "Beacon RevH\n"
    else .error "No such file or directory"
  readDir _ := none
  canonicalize _ := none
  usbDevicePath device := if device = "/dev/ttyACM0" then some "/sys/devices/1-1" else none

/-- What a run on that host is updated to. -/
def beaconVersions : TargetVersions Semver.Rank where
  klipper := .known "v0.13.0"
  prebuilt := Prebuilt.resolveTargets beaconHost Unit ⟨[beaconMcu], []⟩
    ⟨none, ⟨none, none⟩, none, none⟩

/-- A Beacon that came back with the version of its checkout's image. -/
theorem beacon_not_offered_again : beaconVersions.reachedBy beaconMcu = some true ∧
    isSelected beaconMcu beaconVersions .required = false := by
  have hc : classifyMcu (V := Semver.Rank) beaconMcu =
      .prebuilt (.beacon ⟨Semver.new 2 1 0⟩) := by decide +kernel
  have hreached : beaconVersions.reachedBy beaconMcu = some true := by decide +kernel
  have hoffer := reached_not_offered_again Unit beaconHost ⟨[beaconMcu], []⟩
    ⟨none, ⟨none, none⟩, none, none⟩ (.known "v0.13.0") beaconMcu (.inr ⟨_, hc⟩) hreached
  exact ⟨hreached, hoffer.2.1⟩

end Aldis

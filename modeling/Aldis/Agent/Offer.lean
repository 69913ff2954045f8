import Aldis.Agent.Api

/-!
# What the agent offers

The state that an entry shows is derived apart from the selection the CLI makes; both are the
same, and what is offered is no downgrade.
-/

namespace Aldis.Agent

open Text Eligibility Fleet

variable {V : Type} [Semver V] {mcu : Mcu} {versions : TargetVersions V}

section State

theorem assessPrebuilt_available_iff {firmware : Prebuilt.Running V}
    {revision : Option RevisionStatus} {targets : Prebuilt.Targets V} {running : Str} :
    (assessPrebuilt firmware revision targets mcu running).1 = .updateAvailable ↔
      revision = some .updateRequired ∧ (targets.target firmware mcu.name).isSome = true := by
  unfold assessPrebuilt
  by_cases hc : revision = some .current
  · rw [if_pos hc, hc]
    exact iff_of_false nofun fun h => by cases h.1
  · rw [if_neg hc]
    by_cases hr : revision = some .updateRequired
    · rw [and_iff_right hr]
      simp only [hr, if_true]
      cases firmware with
      | beacon firmware =>
          simp only [Prebuilt.Targets.target, Beacon.Targets.target]
          rcases targets.beacon.mcus.lookup mcu.name with _ | reason | target
          · exact iff_of_false nofun nofun
          · exact iff_of_false nofun nofun
          · exact iff_of_true rfl rfl
      | foci firmware =>
          simp only [Prebuilt.Targets.target]
          cases targets.foci with
          | none => exact iff_of_false nofun nofun
          | some release => exact iff_of_true rfl rfl
      | cartographer firmware =>
          simp only [Prebuilt.Targets.target, Cartographer.Targets.target]
          rcases targets.cartographer.mcus.lookup mcu.name with _ | reason | target
          · exact iff_of_false nofun nofun
          · exact iff_of_false nofun nofun
          · exact iff_of_true rfl rfl
    · refine iff_of_false ?_ fun h => hr h.1
      simp only [hr, if_false]
      cases firmware with
      | beacon firmware =>
          rcases targets.beacon.mcus.lookup mcu.name with _ | reason | target <;> nofun
      | foci firmware => cases targets.foci <;> nofun
      | cartographer firmware =>
          rcases targets.cartographer.mcus.lookup mcu.name with _ | reason | target <;> nofun

/-- Who needs an update would not be downgraded by it. -/
theorem downgradeOf_eq_none (h : (assessMcu mcu versions).revision = some .updateRequired) :
    downgradeOf mcu versions = none := by
  unfold downgradeOf
  unfold assessMcu at h
  cases he : classifyMcu (V := V) mcu with
  | eligible =>
      simp only [he] at h ⊢
      cases hv : mcu.version with
      | none => rfl
      | some running =>
          cases hk : versions.klipper with
          | indeterminate => rfl
          | known selected =>
              simp only [hv, hk, Option.some.injEq] at h
              simp only [h]
              rfl
  | prebuilt running =>
      simp only [he, Option.some.injEq] at h ⊢
      unfold Prebuilt.Targets.downgrade
      rw [h]
      rfl
  | externallyManaged name => rfl
  | unsupported reason => rfl
  | unsupportedMcu family => rfl

def updatable (versions : TargetVersions V) (mcu : Mcu) : Eligibility V → Bool
  | .eligible => true
  | .prebuilt running => (versions.prebuilt.target running mcu.name).isSome
  | _ => false

theorem isSelected_required_iff : isSelected mcu versions .required = true ↔
    updatable versions mcu (classifyMcu mcu) = true ∧
      (assessMcu mcu versions).revision = some .updateRequired := by
  change (if !updatable versions mcu (classifyMcu mcu) || (downgradeOf mcu versions).isSome
    then false else decide ((assessMcu mcu versions).revision = some .updateRequired)) = true ↔ _
  constructor
  · intro h
    split_ifs at h with hn
    rw [Bool.or_eq_true, not_or, Bool.not_eq_true', Bool.not_eq_false] at hn
    exact ⟨hn.1, of_decide_eq_true h⟩
  · rintro ⟨hu, hr⟩
    rw [hu, downgradeOf_eq_none hr, if_neg (by decide), hr]
    rfl

/-- An entry shows that an update is available for exactly the MCUs the CLI selects. -/
theorem assessState_available_iff {label : Str} :
    (assessState mcu versions label).1 = .updateAvailable ↔
      isSelected mcu versions .required = true := by
  rw [isSelected_required_iff]
  have he : (assessMcu mcu versions).eligibility = classifyMcu mcu := rfl
  rw [← he]
  unfold assessState
  generalize assessMcu mcu versions = status
  obtain ⟨eligibility, revision⟩ := status
  by_cases hn : revision = some .newer
  · subst hn
    refine iff_of_false ?_ fun h => by cases h.2
    cases eligibility <;> nofun
  · cases eligibility with
    | eligible =>
        rcases revision with _ | _ | _ | _ | _
        · exact iff_of_false nofun fun h => by cases h.2
        · exact iff_of_false nofun fun h => by cases h.2
        · exact iff_of_true rfl ⟨rfl, rfl⟩
        · exact absurd rfl hn
        · exact iff_of_false nofun fun h => by cases h.2
    | prebuilt firmware =>
        have hp : (assessPrebuilt firmware revision versions.prebuilt mcu
            (mcu.version.getD "unknown")).1 = .updateAvailable ↔
              (versions.prebuilt.target firmware mcu.name).isSome = true ∧
                revision = some .updateRequired := assessPrebuilt_available_iff.trans and_comm
        rcases revision with _ | _ | _ | _ | _
        · exact hp
        · exact hp
        · exact hp
        · exact absurd rfl hn
        · exact hp
    | externallyManaged name =>
        refine iff_of_false ?_ fun h => by cases h.1
        rcases revision with _ | _ | _ | _ | _ <;> nofun
    | unsupported reason =>
        refine iff_of_false ?_ fun h => by cases h.1
        rcases revision with _ | _ | _ | _ | _ <;> cases reason <;> nofun
    | unsupportedMcu family =>
        refine iff_of_false ?_ fun h => by cases h.1
        rcases revision with _ | _ | _ | _ | _ <;> nofun

end State

section Entries

variable {snapshot : Snapshot V} {inventory : McuInventory}

omit [Semver V] in
theorem bridgeRefusal_eq_none_iff : snapshot.bridgeRefusal inventory mcu = none ↔
    (isUsbCanBridge mcu = true → checkBridge inventory [mcu.name] snapshot.peers = .ok ()) := by
  unfold Snapshot.bridgeRefusal
  by_cases hb : isUsbCanBridge mcu = true
  · rw [if_pos hb]
    cases checkBridge inventory [mcu.name] snapshot.peers with
    | ok _ => exact iff_of_true rfl fun _ => rfl
    | error reason => exact iff_of_false nofun fun h => by cases h hb
  · rw [if_neg hb]
    exact iff_of_true rfl fun h => absurd h hb

/-- When the entry of an MCU offers an update. -/
theorem mcuEntry_offers_iff : (snapshot.mcuEntry inventory mcu).offersUpdate = true ↔
    blocker snapshot.host = none ∧ isSelected mcu snapshot.targetVersions .required = true ∧
      (isUsbCanBridge mcu = true →
        checkBridge inventory [mcu.name] snapshot.peers = .ok ()) := by
  have hstate : (assessState mcu snapshot.targetVersions
      (snapshot.host.info.softwareVersion.getD "unknown")).1 = .updateAvailable ↔
        isSelected mcu snapshot.targetVersions .required = true := assessState_available_iff
  rw [← hstate, ← bridgeRefusal_eq_none_iff]
  unfold Snapshot.mcuEntry
  generalize assessState mcu snapshot.targetVersions
    (snapshot.host.info.softwareVersion.getD "unknown") = assessed
  obtain ⟨state, message⟩ := assessed
  by_cases h : state = .updateAvailable ∧ blocker snapshot.host = none
  · simp only [h, and_self, if_true, true_and]
    cases snapshot.bridgeRefusal inventory mcu with
    | some reason => exact iff_of_false nofun nofun
    | none => exact iff_of_true rfl rfl
  · simp only [h, if_false]
    exact iff_of_false nofun fun ⟨hb, hs, _⟩ => h ⟨hs, hb⟩

omit [Semver V] in
theorem runVersions_eq {versions : TargetVersions V} (h : runVersions snapshot = some versions) :
    versions = snapshot.targetVersions := by
  unfold runVersions at h
  split at h
  · rename_i version _ _ hversion
    obtain rfl := Option.some.inj h
    simp only [Snapshot.targetVersions, hversion]
  · cases h

structure Offered (snapshot : Snapshot V) (inventory : McuInventory) (mcu : Mcu)
    (entry : McuEntry) : Prop where
  name : entry.name = displayName mcu.name
  offers : entry.offersUpdate = true ↔
    blocker snapshot.host = none ∧ isSelected mcu snapshot.targetVersions .required = true ∧
      (isUsbCanBridge mcu = true → checkBridge inventory [mcu.name] snapshot.peers = .ok ())
  kept : entry.offersUpdate = true →
    ∀ versions, runVersions snapshot = some versions → downgradeRefusal mcu versions = none

theorem mcuEntry_offered : Offered snapshot inventory mcu (snapshot.mcuEntry inventory mcu) := by
  refine ⟨?_, mcuEntry_offers_iff, ?_⟩
  · unfold Snapshot.mcuEntry
    rfl
  · intro h versions hv
    obtain rfl := runVersions_eq hv
    obtain ⟨-, hs, -⟩ := mcuEntry_offers_iff.1 h
    obtain ⟨-, hr⟩ := isSelected_required_iff.1 hs
    rw [downgradeRefusal, downgradeOf_eq_none hr]
    rfl

/-- The status has one entry for each reported MCU, in their order, which offers an update
exactly where the CLI would select the MCU, nothing blocks it and no bridge gate holds it back;
the run that follows does not refuse it as a downgrade. The other entries offer nothing. -/
theorem offers_what_cli_selects (snapshot : Snapshot V) :
    ∃ reported unreported, (assess snapshot).mcus = reported ++ unreported ∧
      (∀ entry ∈ unreported, entry.offersUpdate = false) ∧
      (∀ inventory, snapshot.inventory = some inventory →
        List.Forall₂ (Offered snapshot inventory) inventory.mcus reported) ∧
      (snapshot.inventory = none → reported = []) := by
  change ∃ reported unreported, snapshot.mcuEntries = reported ++ unreported ∧ _
  unfold Snapshot.mcuEntries
  cases hi : snapshot.inventory with
  | none => exact ⟨[], [], rfl, fun _ h => absurd h List.not_mem_nil, nofun, fun _ => rfl⟩
  | some inventory =>
      refine ⟨_, _, rfl, ?_, ?_, nofun⟩
      · intro entry hentry
        obtain ⟨unreported, -, rfl⟩ := List.mem_map.1 hentry
        rfl
      · intro inventory' hi'
        obtain rfl := Option.some.inj hi'
        rw [List.forall₂_map_right_iff, List.forall₂_same]
        intro mcu _
        exact mcuEntry_offered

end Entries

end Aldis.Agent

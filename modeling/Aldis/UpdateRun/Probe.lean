import Aldis.UpdateRun.Wait

/-!
# Probing unreported MCUs

What identifying the MCUs that Klipper did not report makes of an inventory: each of them is
either moved among the reported ones or stays, and none is lost or asked twice.
-/

namespace Aldis.UpdateRun

open Interaction World Text

/-- An unreported MCU with what its prober answered, where it was asked. -/
structure Probe where
  entry : UnreportedMcu
  answer : Option (Except IdentifyError IdentifyData)

/-- The serial device of an MCU other than the host's own. -/
def probedDevice (entry : UnreportedMcu) : Option Str :=
  match entry.transport with
  | some (.serial device) => if device = HOST_MCU_SERIAL_PATH then none else some device
  | _ => none

theorem probedDevice_eq_some_iff {entry : UnreportedMcu} {device : Str} :
    probedDevice entry = some device ↔
      entry.transport = some (.serial device) ∧ device ≠ HOST_MCU_SERIAL_PATH := by
  obtain ⟨name, transport, reason⟩ := entry
  cases transport with
  | none => exact iff_of_false (by simp [probedDevice]) (by simp)
  | some transport =>
      cases transport with
      | can interface uuid => exact iff_of_false (by simp [probedDevice]) (by simp)
      | serial port =>
          simp only [probedDevice, Option.ite_none_left_eq_some, Option.some.injEq,
            McuTransport.serial.injEq]
          constructor
          · rintro ⟨hhost, rfl⟩
            exact ⟨rfl, hhost⟩
          · rintro ⟨rfl, hhost⟩
            exact ⟨hhost, rfl⟩

namespace Probe

def trace (p : Probe) : List Event :=
  match probedDevice p.entry, p.answer with
  | some device, some answer => [⟨.mcu (.identify device), answer⟩]
  | _, _ => []

def identified (p : Probe) : Option Mcu :=
  match p.answer with
  | some (.ok data) => some ⟨p.entry.name, data.app, some data.version, data.mcu,
      data.canbusFrequencyHz, data.buildVersions, p.entry.transport, data.kconfig⟩
  | _ => none

/-- The entry of an MCU that did not answer or was not asked. -/
def remaining (p : Probe) : Option UnreportedMcu :=
  match p.answer with
  | none => some p.entry
  | some (.ok _) => none
  | some (.error .portUnavailable) => some { p.entry with reason := .notIdentified }
  | some (.error .unidentified) => some { p.entry with reason := .notResponding }

/-- Exactly the serial MCUs other than the host's are asked. -/
def Due (p : Probe) : Prop := p.answer.isSome ↔ (probedDevice p.entry).isSome

variable {p : Probe}

/-- An MCU is either moved under its name or left under it. -/
theorem name_cases (p : Probe) :
    (∃ mcu, p.identified = some mcu ∧ p.remaining = none ∧ mcu.name = p.entry.name) ∨
    ∃ entry, p.identified = none ∧ p.remaining = some entry ∧ entry.name = p.entry.name := by
  obtain ⟨entry, answer⟩ := p
  cases answer with
  | none => exact .inr ⟨_, rfl, rfl, rfl⟩
  | some answer =>
      cases answer with
      | ok data => exact .inl ⟨_, rfl, rfl, rfl⟩
      | error e =>
          cases e with
          | portUnavailable => exact .inr ⟨_, rfl, rfl, rfl⟩
          | unidentified => exact .inr ⟨_, rfl, rfl, rfl⟩

/-- Only an MCU that was asked and answered is moved. -/
theorem Due.identified_eq_some_iff (h : p.Due) {mcu : Mcu} :
    p.identified = some mcu ↔ ∃ device data, p.entry.transport = some (.serial device) ∧
      device ≠ HOST_MCU_SERIAL_PATH ∧ p.answer = some (.ok data) ∧
      mcu = ⟨p.entry.name, data.app, some data.version, data.mcu, data.canbusFrequencyHz,
        data.buildVersions, p.entry.transport, data.kconfig⟩ := by
  constructor
  · intro hi
    obtain ⟨data, ha, rfl⟩ : ∃ data, p.answer = some (.ok data) ∧
        (⟨p.entry.name, data.app, some data.version, data.mcu, data.canbusFrequencyHz,
          data.buildVersions, p.entry.transport, data.kconfig⟩ : Mcu) = mcu := by
      unfold identified at hi
      split at hi
      · exact ⟨_, ‹_›, Option.some.inj hi⟩
      · cases hi
    obtain ⟨device, hd⟩ := Option.isSome_iff_exists.1 (h.1 (by rw [ha]; rfl))
    obtain ⟨ht, hhost⟩ := probedDevice_eq_some_iff.1 hd
    exact ⟨device, data, ht, hhost, ha, rfl⟩
  · rintro ⟨device, data, -, -, ha, rfl⟩
    rw [identified, ha]

/-- An MCU that is not to be asked keeps its entry, with the reason it had. -/
theorem Due.remaining_of_unasked (h : p.Due) (hd : probedDevice p.entry = none) :
    p.answer = none ∧ p.remaining = some p.entry := by
  have ha : p.answer = none := by
    by_contra hne
    have hasked := h.1 (Option.isSome_iff_ne_none.2 hne)
    rw [hd] at hasked
    cases hasked
  exact ⟨ha, by rw [remaining, ha]⟩

theorem names_perm (probes : List Probe) :
    ((probes.filterMap identified).map Mcu.name ++
      (probes.filterMap remaining).map UnreportedMcu.name).Perm
      (probes.map fun p => p.entry.name) := by
  induction probes with
  | nil => exact .refl _
  | cons p probes ih =>
      rcases p.name_cases with ⟨mcu, hi, hr, hn⟩ | ⟨entry, hi, hr, hn⟩
      · rw [List.filterMap_cons_some hi, List.filterMap_cons_none hr, List.map_cons, List.map_cons,
          hn, List.cons_append]
        exact ih.cons _
      · rw [List.filterMap_cons_none hi, List.filterMap_cons_some hr, List.map_cons, List.map_cons,
          hn]
        exact List.perm_middle.trans (ih.cons _)

end Probe

/-- The inventory `before` once the MCUs that it left unreported were probed. -/
structure Resolved (before : McuInventory) (probes : List Probe) (tr : List Event)
    (after : McuInventory) : Prop where
  entries : probes.map (·.entry) = before.unreported
  due : ∀ p ∈ probes, p.Due
  trace : tr = probes.flatMap Probe.trace
  mcus : after.mcus.Perm (before.mcus ++ probes.filterMap Probe.identified)
  unreported : after.unreported.Perm (probes.filterMap Probe.remaining)
  mcusSorted : after.mcus.Pairwise fun a b => precedes a.name b.name = true
  unreportedSorted : after.unreported.Pairwise fun a b => precedes a.name b.name = true

def inventoryNames (inventory : McuInventory) : List Str :=
  inventory.mcus.map Mcu.name ++ inventory.unreported.map UnreportedMcu.name

theorem Resolved.names {before after : McuInventory} {probes : List Probe} {tr : List Event}
    (h : Resolved before probes tr after) :
    (inventoryNames after).Perm (inventoryNames before) := by
  have hm := h.mcus.map Mcu.name
  have hu := h.unreported.map UnreportedMcu.name
  have hentries : probes.map (fun p => p.entry.name) =
      before.unreported.map UnreportedMcu.name := by
    rw [← h.entries, List.map_map]
    rfl
  rw [List.map_append] at hm
  apply (hm.append hu).trans
  rw [List.append_assoc, inventoryNames, ← hentries]
  exact (Probe.names_perm probes).append_left _

section Runs

variable {past : List Event}

theorem resolveOne_probes (entry : UnreportedMcu) :
    recording.EnsuresOr (resolveOne entry) past (fun r past' => ∃ p : Probe, p.entry = entry ∧
      p.Due ∧ past' = past ++ p.trace ∧ r.getLeft? = p.identified ∧ r.getRight? = p.remaining)
      fun _ _ => False := by
  have hunasked : probedDevice entry = none → ∃ p : Probe, p.entry = entry ∧ p.Due ∧
      past = past ++ p.trace ∧ (Sum.inr entry : Mcu ⊕ UnreportedMcu).getLeft? = p.identified ∧
      (Sum.inr entry : Mcu ⊕ UnreportedMcu).getRight? = p.remaining := by
    intro hd
    refine ⟨⟨entry, none⟩, rfl, ?_, ?_, rfl, rfl⟩
    · rw [Probe.Due, hd]
      exact Iff.rfl
    · rw [Probe.trace, hd]
      exact (List.append_nil past).symm
  obtain ⟨name, transport, reason⟩ := entry
  cases transport with
  | none => exact hunasked rfl
  | some transport =>
      cases transport with
      | can interface uuid => exact hunasked rfl
      | serial device =>
          unfold resolveOne
          by_cases hhost : device = HOST_MCU_SERIAL_PATH
          · simp only [if_pos hhost]
            exact hunasked (if_pos hhost)
          · have hdevice : probedDevice ⟨name, some (.serial device), reason⟩ = some device :=
              if_neg hhost
            simp only [if_neg hhost]
            rw [ensuresOr_bind, ensuresOr_mcuCall]
            refine ⟨True.intro, ?_⟩
            rintro answer _ rfl
            have htrace : past ++ [⟨.mcu (.identify device), answer⟩] = past ++
                (⟨⟨name, some (.serial device), reason⟩, some answer⟩ : Probe).trace := by
              rw [Probe.trace, hdevice]
            have hdue : (⟨⟨name, some (.serial device), reason⟩, some answer⟩ : Probe).Due := by
              rw [Probe.Due, hdevice]
              exact Iff.rfl
            cases answer with
            | ok data => exact ⟨_, rfl, hdue, htrace, rfl, rfl⟩
            | error e =>
                cases e with
                | portUnavailable => exact ⟨_, rfl, hdue, htrace, rfl, rfl⟩
                | unidentified => exact ⟨_, rfl, hdue, htrace, rfl, rfl⟩

theorem resolveAll_probes (entries : List UnreportedMcu) :
    recording.EnsuresOr (resolveAll entries) past (fun resolved past' => ∃ probes : List Probe,
      probes.map (·.entry) = entries ∧ (∀ p ∈ probes, p.Due) ∧
      past' = past ++ probes.flatMap Probe.trace ∧
      resolved.filterMap Sum.getLeft? = probes.filterMap Probe.identified ∧
      resolved.filterMap Sum.getRight? = probes.filterMap Probe.remaining)
      fun _ _ => False := by
  induction entries generalizing past with
  | nil =>
      refine ⟨[], rfl, ?_, (List.append_nil past).symm, rfl, rfl⟩
      intro p hp
      exact absurd hp List.not_mem_nil
  | cons entry entries ih =>
      apply (resolveOne_probes entry).bind
      rintro r _ ⟨p, rfl, hdue, rfl, hl, hr⟩
      apply ih.bind
      rintro resolved _ ⟨probes, rfl, hdues, rfl, hls, hrs⟩
      refine ⟨p :: probes, rfl, List.forall_mem_cons.2 ⟨hdue, hdues⟩, ?_, ?_, ?_⟩
      · rw [List.flatMap_cons, List.append_assoc]
      · rw [List.filterMap_cons, List.filterMap_cons, hl, hls]
      · rw [List.filterMap_cons, List.filterMap_cons, hr, hrs]

theorem resolveUnreported_resolves (inventory : McuInventory) :
    recording.EnsuresOr (resolveUnreported inventory) past (fun after past' =>
      ∃ probes tr, past' = past ++ tr ∧ Resolved inventory probes tr after) fun _ _ => False := by
  apply (resolveAll_probes inventory.unreported).bind
  rintro resolved _ ⟨probes, hentries, hdue, rfl, hl, hr⟩
  refine ⟨probes, _, rfl, hentries, hdue, rfl, ?_, ?_, ?_, ?_⟩
  · rw [← hl]
    exact List.mergeSort_perm _ _
  · rw [← hr]
    exact List.mergeSort_perm _ _
  · exact pairwise_sortedBy Mcu.name _
  · exact pairwise_sortedBy UnreportedMcu.name _

/-- Probing during a run leaves the inventory alone, or Klippy is in an error state. -/
theorem probeUnreported_resolves (inventory : McuInventory) :
    recording.EnsuresOr (probeUnreported inventory) [] (fun after tr =>
      (after = inventory ∧ ∀ ev ∈ tr, ev.1 = .mcu .hostInfo) ∨
      ∃ info probes rest, tr = ⟨.mcu .hostInfo, .ok info⟩ :: rest ∧
        stopsPrints info.state = true ∧ Resolved inventory probes rest after)
      fun _ _ => False := by
  unfold probeUnreported
  by_cases hnone : inventory.unreported = []
  · rw [if_pos hnone]
    exact .inl ⟨rfl, fun _ h => absurd h List.not_mem_nil⟩
  · rw [if_neg hnone, ensuresOr_bind, ensuresOr_mcuCall]
    refine ⟨True.intro, ?_⟩
    rintro answer _ rfl
    have hasked : ∀ ev ∈ ([⟨.mcu .hostInfo, answer⟩] : List Event), ev.1 = .mcu .hostInfo := by
      intro ev hev
      rw [List.mem_singleton.1 hev]
    cases answer with
    | error e => exact .inl ⟨rfl, hasked⟩
    | ok info =>
        by_cases hstop : stopsPrints info.state = true
        · simp only [if_pos hstop]
          apply (resolveUnreported_resolves inventory).mono
          · rintro after _ ⟨probes, tr, rfl, hresolved⟩
            exact .inr ⟨info, probes, tr, rfl, hstop, hresolved⟩
          · exact fun _ _ h => h
        · simp only [if_neg hstop]
          exact .inl ⟨rfl, hasked⟩

/-- What is ensured of a program that cannot fail holds of its run in any surroundings. -/
theorem interact_ok {α : Type} {x : HostAttempt Str α} {Q : α → List Event → Prop}
    (h : recording.EnsuresOr x [] Q fun _ _ => False)
    (env : List Event → (call : HostCall) → HostAnswer call) :
    ∃ tr a, x.run.interact env [] = (tr, .ok a) ∧ Q a tr := by
  have hq := Ensures.recorded h (runs_interact_nil env x.run)
  cases hr : x.run.interact env [] with
  | mk tr r =>
      rw [hr] at hq
      cases r with
      | ok a => exact ⟨tr, a, rfl, hq⟩
      | error e => exact absurd hq id

end Runs

/-- Whatever a prober answers, no MCU is lost: the ones it identified are moved among the reported
ones, which stay as they are, and each that is to be asked is asked once. -/
theorem probing_conserves (inventory : McuInventory)
    (env : List Event → (call : HostCall) → HostAnswer call) :
    (∃ tr after probes, (resolveUnreported inventory).run.interact env [] = (tr, .ok after) ∧
      Resolved inventory probes tr after ∧
      (inventoryNames after).Perm (inventoryNames inventory) ∧
      ∀ p ∈ probes,
        (∀ mcu, p.identified = some mcu ↔ ∃ device data,
          p.entry.transport = some (.serial device) ∧ device ≠ HOST_MCU_SERIAL_PATH ∧
          p.answer = some (.ok data) ∧
          mcu = ⟨p.entry.name, data.app, some data.version, data.mcu, data.canbusFrequencyHz,
            data.buildVersions, p.entry.transport, data.kconfig⟩) ∧
        (probedDevice p.entry = none → p.answer = none ∧ p.remaining = some p.entry)) ∧
    ∃ tr after, (probeUnreported inventory).run.interact env [] = (tr, .ok after) ∧
      ((after = inventory ∧ ∀ ev ∈ tr, ev.1 = .mcu .hostInfo) ∨
      ∃ info probes rest, tr = ⟨.mcu .hostInfo, .ok info⟩ :: rest ∧
        stopsPrints info.state = true ∧ Resolved inventory probes rest after) := by
  constructor
  · obtain ⟨tr, after, hr, probes, _, rfl, hresolved⟩ :=
      interact_ok (resolveUnreported_resolves inventory) env
    refine ⟨tr, after, probes, hr, hresolved, hresolved.names, ?_⟩
    intro p hp
    have hdue := hresolved.due p hp
    exact ⟨fun mcu => hdue.identified_eq_some_iff, hdue.remaining_of_unasked⟩
  · exact interact_ok (probeUnreported_resolves inventory) env

end Aldis.UpdateRun

import Aldis.Agent.Api
import Aldis.Lib.Distinct

/-!
# Which MCUs an accepted request updates

A request names MCUs by what they are shown as, and a run flashes Klipper objects. The way
between the two goes through names that need not be distinct, so the run updates the MCUs that
were asked for only where those names tell the MCUs apart.
-/

namespace Aldis.Agent

open Text Distinct

def REJECTED : ℤ := -32000
def INVALID_PARAMS : ℤ := -32602

inductive UpdateRequest where
  | mcus (mcus : List Str)
  | all (all : Bool)
  deriving DecidableEq

structure NotUpdatable where
  name : Str
  state : McuState
  message : Str
  deriving DecidableEq

inductive ErrorData where
  | null
  | blocker (blocker : Blocker)
  | mcu (name : Str)
  | mcus (mcus : List NotUpdatable)
  deriving DecidableEq

structure ApiError where
  code : ℤ
  reason : Str
  message : Str
  data : ErrorData
  deriving DecidableEq

def ApiError.rejected (reason message : Str) : ApiError := ⟨REJECTED, reason, message, .null⟩

/-- The first entry for each requested name, compared without regard to case. -/
def requestedEntries (entries : List McuEntry) : List Str → Except ApiError (List McuEntry)
  | [] => .ok []
  | name :: rest =>
    match entries.find? (fun entry => eqIgnoreAsciiCase entry.name name) with
    | none => .error ⟨REJECTED, "unknown_mcu", "no MCU named " ++ quoted name, .mcu name⟩
    | some entry => (requestedEntries entries rest).map (entry :: ·)

def selectEntries (body : StatusBody) : UpdateRequest → Except ApiError (List McuEntry)
  | .all true => .ok (body.mcus.filter (·.offersUpdate))
  | .all false => .error ⟨INVALID_PARAMS, "invalid_request",
      "expected \x7b\"all\": true\x7d or \x7b\"mcus\": [...]\x7d", .null⟩
  | .mcus names => match requestedEntries body.mcus names with
    | .error error => .error error
    | .ok entries =>
      let blocked := entries.filter (fun entry => !entry.offersUpdate)
      if blocked = [] then .ok entries
      else .error ⟨REJECTED, "not_updatable", "some requested MCUs cannot be updated",
        .mcus (blocked.map (fun entry => ⟨entry.name, entry.state, entry.message⟩))⟩

def McuInventory.shown (inventory : McuInventory) (name : Str) : Option Str :=
  (inventory.mcus.find? (fun mcu => displayName mcu.name = name)).map (·.name)

/-- The objects of the selected entries; one that was named twice is flashed only once. -/
def targetObjects (inventory : McuInventory) (entries : List McuEntry) : List Str :=
  firsts toAsciiLowercase []
    (entries.filterMap (fun entry => McuInventory.shown inventory entry.name))

variable {V : Type} [Semver V]

def selectTargets (snapshot : Snapshot V) (request : UpdateRequest) :
    Except ApiError (List Str) :=
  let body := assess snapshot
  match body.blocker with
  | some blocker => .error ⟨REJECTED, "blocked", blocker.message, .blocker blocker⟩
  | none => match snapshot.inventory with
    | none => .error (.rejected "unavailable" "could not discover MCUs from Moonraker")
    | some inventory => match selectEntries body request with
      | .error error => .error error
      | .ok entries =>
        if entries = [] then .error (.rejected "nothing_to_update" "no MCU needs an update")
        else .ok (flashOrder inventory (targetObjects inventory entries))

section Asked

def McuInventory.objects (inventory : McuInventory) : List Str :=
  inventory.mcus.map (·.name) ++ inventory.unreported.map (·.name)

def offering (snapshot : Snapshot V) (inventory : McuInventory) : List Mcu :=
  inventory.mcus.filter (fun mcu => (snapshot.mcuEntry inventory mcu).offersUpdate)

/-- `object` is the MCU that `name` asks for: the one shown as exactly `name` when there is one,
and otherwise one that is shown so but for case. -/
structure AskedBy (inventory : McuInventory) (name object : Str) : Prop where
  reported : object ∈ inventory.mcus.map (·.name)
  shown : displayName object = name ∨
    (∀ other ∈ McuInventory.objects inventory, displayName other ≠ name) ∧
      eqIgnoreAsciiCase (displayName object) name = true

def Asked (snapshot : Snapshot V) (inventory : McuInventory) :
    UpdateRequest → List Str → Prop
  | .all _, objects => objects = (offering snapshot inventory).map (·.name)
  | .mcus names, objects => List.Forall₂ (AskedBy inventory) names objects

/-- The targets are the objects that were asked for, each once, bridges after all others. -/
def UpdatesAsked (snapshot : Snapshot V) (inventory : McuInventory) (request : UpdateRequest)
    (targets : List Str) : Prop :=
  ∃ objects, Asked snapshot inventory request objects ∧
    targets = (firsts id [] objects).filter (fun name => !inventory.isBridge name) ++
      (firsts id [] objects).filter inventory.isBridge

def firstMatch (inventory : McuInventory) (name : Str) : Option Str :=
  (McuInventory.objects inventory).find? (fun object => eqIgnoreAsciiCase (displayName object) name)

/-- The names by which MCUs are matched tell apart those that are asked for: each MCU that offers
an update is the first that is shown under its name, and no two of them differ only in case; the
first MCU that a requested name matches is shown as exactly that name if one is, and no two such
MCUs differ only in case. -/
def ToldApart (snapshot : Snapshot V) (inventory : McuInventory) : UpdateRequest → Prop
  | .all _ =>
    (∀ mcu ∈ offering snapshot inventory,
      McuInventory.shown inventory (displayName mcu.name) = some mcu.name) ∧
    ∀ a ∈ offering snapshot inventory, ∀ b ∈ offering snapshot inventory,
      toAsciiLowercase a.name = toAsciiLowercase b.name → a.name = b.name
  | .mcus names =>
    (∀ name ∈ names, (∃ object ∈ McuInventory.objects inventory, displayName object = name) →
      ∀ object, firstMatch inventory name = some object → displayName object = name) ∧
    ∀ name ∈ names, ∀ name' ∈ names, ∀ object object', firstMatch inventory name = some object →
      firstMatch inventory name' = some object' →
        toAsciiLowercase object = toAsciiLowercase object' → object = object'

end Asked

section Shown

variable {inventory : McuInventory} {snapshot : Snapshot V} {mcu : Mcu} {name object : Str}

/-- What is shown under a name is a reported MCU that is shown so. -/
theorem displayName_of_shown (h : McuInventory.shown inventory name = some object) :
    displayName object = name := by
  obtain ⟨other, hfind, rfl⟩ := Option.map_eq_some_iff.1 h
  simpa using List.find?_some hfind

theorem mcuEntry_name : (snapshot.mcuEntry inventory mcu).name = displayName mcu.name := by
  unfold Snapshot.mcuEntry
  rfl

theorem mcus_assess (h : snapshot.inventory = some inventory) : (assess snapshot).mcus =
    inventory.mcus.map (snapshot.mcuEntry inventory) ++
      inventory.unreported.map Snapshot.unreportedEntry := by
  change snapshot.mcuEntries = _
  rw [Snapshot.mcuEntries, h]

theorem firstMatch_congr {name' : Str} (h : toAsciiLowercase name = toAsciiLowercase name') :
    firstMatch inventory name = firstMatch inventory name' := by
  unfold firstMatch eqIgnoreAsciiCase
  rw [h]

theorem lowercase_of_firstMatch (h : firstMatch inventory name = some object) :
    toAsciiLowercase (displayName object) = toAsciiLowercase name :=
  beq_iff_eq.1 (List.find?_some (p := fun object => eqIgnoreAsciiCase (displayName object) name) h)

end Shown

section All

variable {inventory : McuInventory} {snapshot : Snapshot V} {request : UpdateRequest}
  {targets : List Str}

theorem selectTargets_eq_ok (hi : snapshot.inventory = some inventory)
    (h : selectTargets snapshot request = .ok targets) :
    ∃ entries, selectEntries (assess snapshot) request = .ok entries ∧
      targets = flashOrder inventory (targetObjects inventory entries) := by
  unfold selectTargets at h
  rw [hi] at h
  cases hb : (assess snapshot).blocker with
  | some blocker =>
      simp only [hb] at h
      cases h
  | none =>
      simp only [hb] at h
      cases he : selectEntries (assess snapshot) request with
      | error error =>
          simp only [he] at h
          cases h
      | ok entries =>
          simp only [he] at h
          split_ifs at h with hn
          exact ⟨entries, rfl, (Except.ok.inj h).symm⟩

/-- The entries that offer an update are those of the reported MCUs that do. -/
theorem filter_offersUpdate (hi : snapshot.inventory = some inventory) :
    (assess snapshot).mcus.filter (·.offersUpdate) =
      (offering snapshot inventory).map (snapshot.mcuEntry inventory) := by
  have hnone : (inventory.unreported.map Snapshot.unreportedEntry).filter (·.offersUpdate) =
      [] := by
    rw [List.filter_eq_nil_iff]
    intro entry hentry
    obtain ⟨unreported, -, rfl⟩ := List.mem_map.1 hentry
    exact Bool.false_ne_true
  rw [mcus_assess hi, List.filter_append, hnone, List.append_nil, List.filter_map]
  rfl

def shownOffering (snapshot : Snapshot V) (inventory : McuInventory) : List Str :=
  (offering snapshot inventory).filterMap
    (fun mcu => McuInventory.shown inventory (displayName mcu.name))

theorem targets_all {all : Bool} (hi : snapshot.inventory = some inventory)
    (h : selectTargets snapshot (.all all) = .ok targets) :
    targets = flashOrder inventory (firsts toAsciiLowercase [] (shownOffering snapshot inventory))
    := by
  obtain ⟨entries, he, rfl⟩ := selectTargets_eq_ok hi h
  cases all with
  | false => cases he
  | true =>
      obtain rfl := Except.ok.inj he
      rw [filter_offersUpdate hi, targetObjects, List.filterMap_map]
      simp only [Function.comp_def, mcuEntry_name]
      rfl

/-- An accepted request for all MCUs updates those that offer an update if and only if the names
tell them apart. -/
theorem updatesAsked_all_iff {all : Bool} (hi : snapshot.inventory = some inventory)
    (h : selectTargets snapshot (.all all) = .ok targets) :
    UpdatesAsked snapshot inventory (.all all) targets ↔
      ToldApart snapshot inventory (.all all) := by
  obtain rfl := targets_all hi h
  constructor
  · intro hu
    obtain ⟨objects, hasked, heq⟩ := hu
    have hobjects : objects = (offering snapshot inventory).map (·.name) := hasked
    have hkept : ∀ mcu ∈ offering snapshot inventory,
        mcu.name ∈ firsts toAsciiLowercase [] (shownOffering snapshot inventory) := by
      intro mcu hmcu
      rw [← mem_flashOrder inventory, heq, ← flashOrder_eq, mem_flashOrder inventory,
        mem_firsts_id, hobjects]
      exact List.mem_map_of_mem hmcu
    constructor
    · intro mcu hmcu
      have hmem := (firsts_sublist _ _ _).subset (hkept mcu hmcu)
      obtain ⟨other, -, hshown⟩ := List.mem_filterMap.1 hmem
      rw [displayName_of_shown hshown]
      exact hshown
    · intro a ha b hb hab
      exact eq_of_firsts (hkept a ha) (hkept b hb) hab
  · intro htold
    obtain ⟨hshown, hcase⟩ := htold
    have hown : shownOffering snapshot inventory = (offering snapshot inventory).map (·.name) := by
      unfold shownOffering
      rw [← List.filterMap_eq_map]
      exact List.filterMap_congr hshown
    have hkeys : firsts toAsciiLowercase [] (shownOffering snapshot inventory) =
        firsts id [] (shownOffering snapshot inventory) := by
      apply firsts_congr []
      rw [List.nil_append, hown]
      intro x hx y hy
      obtain ⟨a, ha, rfl⟩ := List.mem_map.1 hx
      obtain ⟨b, hb, rfl⟩ := List.mem_map.1 hy
      exact ⟨hcase a ha b hb, congrArg toAsciiLowercase⟩
    have hasked : Asked snapshot inventory (.all all)
        ((offering snapshot inventory).map (·.name)) := rfl
    refine ⟨_, hasked, ?_⟩
    rw [hkeys, hown, flashOrder_eq]

end All

section Named

variable {inventory : McuInventory} {snapshot : Snapshot V} {targets names objects : List Str}
  {entries : List McuEntry} {name object : Str}

theorem requestedEntries_eq_ok {all : List McuEntry}
    (h : requestedEntries all names = .ok entries) :
    List.Forall₂ (fun name entry =>
      all.find? (fun entry => eqIgnoreAsciiCase entry.name name) = some entry) names entries := by
  induction names generalizing entries with
  | nil =>
      obtain rfl := Except.ok.inj h
      exact .nil
  | cons name rest ih =>
      rw [requestedEntries] at h
      cases hf : all.find? (fun entry => eqIgnoreAsciiCase entry.name name) with
      | none =>
          simp only [hf] at h
          cases h
      | some entry =>
          simp only [hf] at h
          cases hr : requestedEntries all rest with
          | error error =>
              rw [hr] at h
              cases h
          | ok others =>
              rw [hr] at h
              obtain rfl := Except.ok.inj h
              exact .cons hf (ih hr)

/-- An entry that a name matches and that offers an update is that of the first object the name
matches, which is also the first that is shown under the entry's name. -/
theorem firstMatch_of_entry {entry : McuEntry} (hi : snapshot.inventory = some inventory)
    (hf : (assess snapshot).mcus.find? (fun entry => eqIgnoreAsciiCase entry.name name) =
      some entry)
    (ho : entry.offersUpdate = true) : ∃ object ∈ inventory.mcus.map (·.name),
      firstMatch inventory name = some object ∧
        McuInventory.shown inventory entry.name = some object := by
  rw [mcus_assess hi, List.find?_append, List.find?_map] at hf
  cases hr : inventory.mcus.find? (fun mcu => eqIgnoreAsciiCase (displayName mcu.name) name) with
  | none =>
      have hr' : (inventory.mcus.find? ((fun entry => eqIgnoreAsciiCase entry.name name) ∘
          snapshot.mcuEntry inventory)) = none := by
        simp only [Function.comp_def, mcuEntry_name]
        exact hr
      rw [hr', Option.map_none, Option.none_or] at hf
      obtain ⟨unreported, -, rfl⟩ := List.mem_map.1 (List.mem_of_find?_eq_some hf)
      cases ho
  | some mcu =>
      have hr' : (inventory.mcus.find? ((fun entry => eqIgnoreAsciiCase entry.name name) ∘
          snapshot.mcuEntry inventory)) = some mcu := by
        simp only [Function.comp_def, mcuEntry_name]
        exact hr
      rw [hr', Option.map_some, Option.some_or] at hf
      obtain rfl := Option.some.inj hf
      have hmem := List.mem_of_find?_eq_some hr
      have hmatch : eqIgnoreAsciiCase (displayName mcu.name) name = true := by
        simpa using List.find?_some hr
      refine ⟨mcu.name, List.mem_map_of_mem hmem, ?_, ?_⟩
      · rw [firstMatch, McuInventory.objects, List.find?_append, List.find?_map]
        simp only [Function.comp_def, hr]
        rfl
      · rw [mcuEntry_name, McuInventory.shown, find?_of_imp hr (decide_eq_true rfl)]
        · rfl
        · intro other hother
          rw [of_decide_eq_true hother]
          exact hmatch

/-- The objects of accepted names are those that the names match first. -/
theorem objects_of_names (hi : snapshot.inventory = some inventory)
    (h : List.Forall₂ (fun name entry =>
      (assess snapshot).mcus.find? (fun entry => eqIgnoreAsciiCase entry.name name) = some entry)
        names entries) (ho : ∀ entry ∈ entries, entry.offersUpdate = true) :
    ∃ objects, entries.filterMap (fun entry => McuInventory.shown inventory entry.name) = objects ∧
      List.Forall₂ (fun name object => object ∈ inventory.mcus.map (·.name) ∧
        firstMatch inventory name = some object) names objects := by
  induction h with
  | nil => exact ⟨[], rfl, .nil⟩
  | @cons name entry names entries hf _ ih =>
      obtain ⟨objects, hobjects, hrest⟩ := ih fun entry he => ho entry (List.mem_cons_of_mem _ he)
      obtain ⟨object, hmem, hfirst, hshown⟩ :=
        firstMatch_of_entry hi hf (ho entry List.mem_cons_self)
      refine ⟨object :: objects, ?_, .cons ⟨hmem, hfirst⟩ hrest⟩
      rw [List.filterMap_cons, hobjects, hshown]

theorem targets_mcus (hi : snapshot.inventory = some inventory)
    (h : selectTargets snapshot (.mcus names) = .ok targets) :
    ∃ objects, targets = flashOrder inventory (firsts toAsciiLowercase [] objects) ∧
      List.Forall₂ (fun name object => object ∈ inventory.mcus.map (·.name) ∧
        firstMatch inventory name = some object) names objects := by
  obtain ⟨entries, he, rfl⟩ := selectTargets_eq_ok hi h
  rw [selectEntries] at he
  cases hr : requestedEntries (assess snapshot).mcus names with
  | error error =>
      simp only [hr] at he
      cases he
  | ok found =>
      simp only [hr] at he
      split_ifs at he with hb
      obtain rfl := Except.ok.inj he
      have ho : ∀ entry ∈ found, entry.offersUpdate = true := by
        intro entry hentry
        have hnot := List.filter_eq_nil_iff.1 hb entry hentry
        rw [Bool.not_eq_true', Bool.not_eq_false] at hnot
        exact hnot
      obtain ⟨objects, hobjects, hall⟩ := objects_of_names hi (requestedEntries_eq_ok hr) ho
      refine ⟨objects, ?_, hall⟩
      rw [targetObjects, hobjects]

theorem lowercase_of_askedBy (h : AskedBy inventory name object) :
    toAsciiLowercase (displayName object) = toAsciiLowercase name := by
  rcases h.shown with hexact | ⟨-, hmatch⟩
  · rw [hexact]
  · exact beq_iff_eq.1 hmatch

/-- An accepted request for named MCUs updates those that are meant if and only if the names tell
them apart. -/
theorem updatesAsked_mcus_iff (hi : snapshot.inventory = some inventory)
    (h : selectTargets snapshot (.mcus names) = .ok targets) :
    UpdatesAsked snapshot inventory (.mcus names) targets ↔
      ToldApart snapshot inventory (.mcus names) := by
  obtain ⟨found, rfl, hfound⟩ := targets_mcus hi h
  constructor
  · intro hu
    obtain ⟨objects, hasked, heq⟩ := hu
    have hasked : List.Forall₂ (AskedBy inventory) names objects := hasked
    -- Whatever a name asks for is updated, so some name finds it, and its own does then as well.
    have hkept : ∀ name ∈ names, ∃ object ∈ firsts toAsciiLowercase [] found,
        AskedBy inventory name object ∧ firstMatch inventory name = some object := by
      intro name hname
      obtain ⟨object, hobject, hby⟩ := exists_of_forall₂ hasked hname
      have hmem : object ∈ firsts toAsciiLowercase [] found := by
        rw [← mem_flashOrder inventory, heq, ← flashOrder_eq, mem_flashOrder inventory,
          mem_firsts_id]
        exact hobject
      obtain ⟨other, -, -, hother⟩ :=
        exists_of_forall₂ hfound.flip ((firsts_sublist _ _ _).subset hmem)
      refine ⟨object, hmem, hby, ?_⟩
      rw [← hother]
      apply firstMatch_congr
      rw [← lowercase_of_askedBy hby, lowercase_of_firstMatch hother]
    constructor
    · intro name hname hexact object hobject
      obtain ⟨asked, -, hby, hfirst⟩ := hkept name hname
      obtain rfl := Option.some.inj (hfirst.symm.trans hobject)
      rcases hby.shown with hshown | ⟨hnone, -⟩
      · exact hshown
      · obtain ⟨other, hother, heq⟩ := hexact
        exact absurd heq (hnone other hother)
    · intro name hname name' hname' a b ha hb hab
      obtain ⟨object, hmem, -, hfirst⟩ := hkept name hname
      obtain ⟨object', hmem', -, hfirst'⟩ := hkept name' hname'
      obtain rfl := Option.some.inj (hfirst.symm.trans ha)
      obtain rfl := Option.some.inj (hfirst'.symm.trans hb)
      exact eq_of_firsts hmem hmem' hab
  · intro htold
    obtain ⟨hexact, hcase⟩ := htold
    have hasked : List.Forall₂ (AskedBy inventory) names found := by
      have hnames : ∀ name ∈ names, ∀ object, firstMatch inventory name = some object →
          (∃ other ∈ McuInventory.objects inventory, displayName other = name) →
            displayName object = name :=
        fun name hname object hobject hother => hexact name hname hother object hobject
      clear hexact hcase h
      induction hfound with
      | nil => exact .nil
      | @cons name object names found hfirst _ ih =>
          refine .cons ⟨hfirst.1, ?_⟩ (ih fun name hname =>
            hnames name (List.mem_cons_of_mem _ hname))
          by_cases hother : ∃ other ∈ McuInventory.objects inventory, displayName other = name
          · exact .inl (hnames name List.mem_cons_self object hfirst.2 hother)
          · refine .inr ⟨fun other ho heq => hother ⟨other, ho, heq⟩, ?_⟩
            exact beq_iff_eq.2 (lowercase_of_firstMatch hfirst.2)
    have hkeys : firsts toAsciiLowercase [] found = firsts id [] found := by
      apply firsts_congr []
      rw [List.nil_append]
      intro a ha b hb
      obtain ⟨name, hname, -, hfirst⟩ := exists_of_forall₂ hfound.flip ha
      obtain ⟨name', hname', -, hfirst'⟩ := exists_of_forall₂ hfound.flip hb
      exact ⟨hcase name hname name' hname' a b hfirst hfirst', congrArg toAsciiLowercase⟩
    refine ⟨found, hasked, ?_⟩
    rw [hkeys, flashOrder_eq]

end Named

variable {snapshot : Snapshot V} {inventory : McuInventory} {request : UpdateRequest}
  {targets : List Str}

/-- An accepted request updates exactly the MCUs it asks for if and only if the names by which
they are matched tell them apart. -/
theorem updatesAsked_iff (hi : snapshot.inventory = some inventory)
    (h : selectTargets snapshot request = .ok targets) :
    UpdatesAsked snapshot inventory request targets ↔ ToldApart snapshot inventory request := by
  cases request with
  | all all => exact updatesAsked_all_iff hi h
  | mcus names => exact updatesAsked_mcus_iff hi h

section Twins

def twin (name : Str) : Mcu where
  name := name
  app := some "Klipper"
  version := some "v0.13.0-800-g0123456a"
  mcu := "stm32g0b1xx"
  canbusFrequencyHz := some 1000000
  buildVersions := none
  transport := some (.can "can0" 17)
  kconfig := "CONFIG_MACH_STM32=y\n"

/-- Two boards whose names differ only in case. -/
def twinInventory : McuInventory := ⟨[twin "mcu EBB", twin "mcu ebb"], []⟩

def twinSnapshot : Snapshot Semver.Rank where
  host := {
    urlIsLocal := true
    klipperUnit := some "klipper"
    info := ⟨.ready, "Printer is ready", some "v0.13.0-900-gabcdef01", some "/home/pi/klipper",
      none⟩
    checkoutVersion := some (.known "v0.13.0-900-gabcdef01")
    printState := some .standby
    configError := false }
  inventory := some twinInventory
  peers := []
  prebuilt := ⟨none, ⟨none, []⟩, ⟨none, none, []⟩⟩

theorem selectTargets_twin : selectTargets twinSnapshot (.mcus ["EBB"]) = .ok ["mcu EBB"] := by
  decide +kernel

theorem updatesAsked_iff_of_twins :
    selectTargets twinSnapshot (.mcus ["EBB"]) = .ok ["mcu EBB"] ∧
      (UpdatesAsked twinSnapshot twinInventory (.mcus ["EBB"]) ["mcu EBB"] ↔
        ToldApart twinSnapshot twinInventory (.mcus ["EBB"])) :=
  ⟨selectTargets_twin, updatesAsked_iff rfl selectTargets_twin⟩

/-- Both boards offer an update, but a request for all updates only the first. -/
theorem second_twin_left_out :
    twinSnapshot.inventory = some twinInventory ∧
      (∀ mcu ∈ twinInventory.mcus, (twinSnapshot.mcuEntry twinInventory mcu).offersUpdate = true) ∧
      selectTargets twinSnapshot (.all true) = .ok ["mcu EBB"] ∧
      ¬ UpdatesAsked twinSnapshot twinInventory (.all true) ["mcu EBB"] := by
  have h : selectTargets twinSnapshot (.all true) = .ok ["mcu EBB"] := by decide +kernel
  refine ⟨rfl, by decide +kernel, h, ?_⟩
  rw [updatesAsked_all_iff rfl h]
  intro htold
  have hmem : ∀ name ∈ ["mcu EBB", "mcu ebb"],
      twin (String.toList name) ∈ offering twinSnapshot twinInventory := by decide +kernel
  have hname := htold.2 _ (hmem "mcu EBB" (by decide)) _ (hmem "mcu ebb" (by decide))
    (by decide +kernel)
  exact absurd hname (by decide +kernel)

end Twins

end Aldis.Agent

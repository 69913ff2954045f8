import Aldis.Beacon
import Aldis.Lib.Hex
import Aldis.Lib.Program
import Aldis.Lib.SortedMap

/-!
# The inventory read from an objects query

Moonraker answers with the status of every MCU object and with the settings of Klipper's
configuration. An MCU's transport stands in the settings section of its name, where names are
compared ignoring case, or for a Beacon in the section its MCU object is named after.
-/

namespace Aldis.Moonraker

open Text Interaction

/-- A constant an MCU reports. Only texts and unsigned numbers are told apart. -/
inductive Value where
  | string (s : Str)
  | unsigned (n : ℕ)
  | other
  deriving DecidableEq

namespace Value

def asStr : Value → Option Str
  | string s => some s
  | unsigned _ | other => none

def asU64 : Value → Option ℕ
  | unsigned n => some n
  | string _ | other => none

end Value

structure McuSettings where
  serial : Option Str
  canbusUuid : Option Str
  canbusInterface : Option Str
  deriving DecidableEq

structure McuStatus where
  app : Option Str
  mcuVersion : Option Str
  mcuBuildVersions : Option Str
  mcuConstants : OrderedMap Str Value
  mcuKconfig : Option Str
  settings : Option (OrderedMap Str McuSettings)

structure ObjectQueryResponse where
  status : OrderedMap Str McuStatus

inductive MoonrakerError where
  | json
  | invalidResponse (message : Str)
  deriving DecidableEq

def MoonrakerError.display : MoonrakerError → Str
  | json => "Moonraker returned invalid JSON"
  | invalidResponse message => "Moonraker response is invalid: " ++ message

/-- Drops every leading `0x`. -/
def trimStartMatches0x : Str → Str
  | '0' :: 'x' :: rest => trimStartMatches0x rest
  | s => s

def parseTransport (name : Str) (settings : McuSettings) :
    Except MoonrakerError (Option McuTransport) :=
  match settings.canbusUuid with
  | none => .ok (settings.serial.map .serial)
  | some canbusUuid =>
    let interface := settings.canbusInterface.getD "can0"
    if interface = [] then
      .error (.invalidResponse
        ("MCU object " ++ quoted name ++ " configures an empty canbus_interface"))
    else
      match Hex.parse (2 ^ 64) (trimStartMatches0x canbusUuid) with
      | none => .error (.invalidResponse
          ("MCU object " ++ quoted name ++ " configures an invalid canbus_uuid"))
      | some uuid =>
        if 0xffff_ffff_ffff < uuid then
          .error (.invalidResponse
            ("MCU object " ++ quoted name ++ " configures a canbus_uuid larger than six bytes"))
        else .ok (some (.can interface uuid))

/-- Configured names are in lower case, an MCU object keeps the case it was declared in. -/
def findSection (settings : OrderedMap Str McuSettings) (wanted : Str) :
    Option (Str × McuSettings) :=
  settings.entries.find? fun entry => eqIgnoreAsciiCase entry.1 wanted

def configuredBy (settings : OrderedMap Str McuSettings) (name : Str) :
    Option (Str × McuSettings) :=
  match findSection settings name with
  | some found => some found
  | none => (Beacon.configSection name).bind (findSection settings)

def transportOf (settings : OrderedMap Str McuSettings) (name : Str) :
    Except MoonrakerError (Option McuTransport) :=
  match configuredBy settings name with
  | none => .ok none
  | some found => parseTransport name found.2

def parseObject (settings : OrderedMap Str McuSettings) (name : Str) (status : McuStatus) :
    Except MoonrakerError (Mcu ⊕ UnreportedMcu) := do
  let transport ← transportOf settings name
  if status.mcuVersion.isNone && status.mcuConstants.entries.isEmpty then
    return .inr { name, transport, reason := .notIdentified }
  match (status.mcuConstants.get "MCU").bind Value.asStr with
  | none => throw (.invalidResponse
      ("MCU object " ++ quoted name ++ " does not expose mcu_constants.MCU"))
  | some mcu =>
    return .inl
      { name
        app := status.app
        version := status.mcuVersion
        mcu
        canbusFrequencyHz := (status.mcuConstants.get "CANBUS_FREQUENCY").bind Value.asU64
        buildVersions := status.mcuBuildVersions
        transport
        kconfig := status.mcuKconfig.getD [] }

def addParsed (inventory : McuInventory) : Mcu ⊕ UnreportedMcu → McuInventory
  | .inl mcu => { inventory with mcus := inventory.mcus ++ [mcu] }
  | .inr entry => { inventory with unreported := inventory.unreported ++ [entry] }

def parseStep (settings : OrderedMap Str McuSettings) (inventory : McuInventory)
    (object : Str × McuStatus) : Except MoonrakerError McuInventory :=
  if object.1 = "configfile" then .ok inventory
  else (parseObject settings object.1 object.2).map (addParsed inventory)

namespace ObjectQueryResponse

def settings (response : ObjectQueryResponse) : OrderedMap Str McuSettings :=
  ((response.status.get "configfile").bind McuStatus.settings).getD .empty

def objects (response : ObjectQueryResponse) : List (Str × McuStatus) :=
  response.status.entries.filter (·.1 ≠ "configfile")

end ObjectQueryResponse

def parseInventory (fromStr : Str → Except MoonrakerError ObjectQueryResponse) (text : Str) :
    Except MoonrakerError McuInventory := do
  let response ← fromStr text
  let inventory ← response.status.entries.foldlM (parseStep response.settings) ⟨[], []⟩
  if inventory.mcus.isEmpty && inventory.unreported.isEmpty then
    throw (.invalidResponse "query returned no MCU objects")
  return inventory

section Sections

variable {settings : OrderedMap Str McuSettings} {name wanted : Str} {found : Str × McuSettings}

/-- The first section, in the order of names, whose name is `wanted` ignoring case. -/
def FirstNamed (settings : OrderedMap Str McuSettings) (wanted : Str)
    (found : Str × McuSettings) : Prop :=
  found ∈ settings.entries ∧ eqIgnoreAsciiCase found.1 wanted = true ∧
    ∀ other ∈ settings.entries, eqIgnoreAsciiCase other.1 wanted = true → found.1 ≤ other.1

/-- The section whose name is `wanted`, or else the one whose name is its lower case. -/
def ExactlyNamed (settings : OrderedMap Str McuSettings) (wanted : Str)
    (found : Str × McuSettings) : Prop :=
  found ∈ settings.entries ∧ (found.1 = wanted ∨
    found.1 = toAsciiLowercase wanted ∧ ∀ other ∈ settings.entries, other.1 ≠ wanted)

/-- The section an MCU object belongs to, where `Finds` says which section a name stands for. -/
inductive PairedBy (Finds : Str → Str × McuSettings → Prop) (name : Str) :
    Option (Str × McuSettings) → Prop
  | own {found : Str × McuSettings} (h : Finds name found) : PairedBy Finds name (some found)
  | beacon {wanted : Str} {found : Str × McuSettings} (hn : ∀ other, ¬ Finds name other)
      (hb : Beacon.configSection name = some wanted) (h : Finds wanted found) :
      PairedBy Finds name (some found)
  | none (hn : ∀ other, ¬ Finds name other)
      (hb : ∀ wanted, Beacon.configSection name = some wanted → ∀ other, ¬ Finds wanted other) :
      PairedBy Finds name none

inductive Describes : Option (Str × McuSettings) → Option McuTransport → Prop
  | nowhere : Describes none none
  | serial {found : Str × McuSettings} (h : found.2.canbusUuid = none) :
      Describes (some found) (found.2.serial.map .serial)
  | can {found : Str × McuSettings} {text interface : Str} {uuid : ℕ}
      (h : found.2.canbusUuid = some text)
      (hi : found.2.canbusInterface.getD "can0" = interface) (hn : interface ≠ [])
      (hu : Hex.parse (2 ^ 48) (trimStartMatches0x text) = some uuid) :
      Describes (some found) (some (.can interface uuid))

theorem findSection_eq_some_iff :
    findSection settings wanted = some found ↔ FirstNamed settings wanted found :=
  OrderedMap.find_eq_some_iff

theorem findSection_eq_none_iff :
    findSection settings wanted = none ↔ ∀ other, ¬ FirstNamed settings wanted other := by
  rw [← Option.not_isSome_iff_eq_none, Option.isSome_iff_exists, not_exists]
  simp only [findSection_eq_some_iff]

theorem configuredBy_pairedBy (settings : OrderedMap Str McuSettings) (name : Str) :
    PairedBy (FirstNamed settings) name (configuredBy settings name) := by
  unfold configuredBy
  cases hown : findSection settings name with
  | some found => exact .own (findSection_eq_some_iff.1 hown)
  | none =>
      have hn := findSection_eq_none_iff.1 hown
      cases hb : Beacon.configSection name with
      | none =>
          apply PairedBy.none hn
          intro wanted hw
          rw [hb] at hw
          cases hw
      | some wanted =>
          dsimp only [Option.bind_some]
          cases hf : findSection settings wanted with
          | some found => exact .beacon hn hb (findSection_eq_some_iff.1 hf)
          | none =>
              apply PairedBy.none hn
              intro wanted' hw
              obtain rfl := Option.some.inj (hb.symm.trans hw)
              exact findSection_eq_none_iff.1 hf

theorem parseTransport_describes {transport : Option McuTransport}
    (h : parseTransport name found.2 = .ok transport) : Describes (some found) transport := by
  unfold parseTransport at h
  cases huuid : found.2.canbusUuid with
  | none =>
      rw [huuid] at h
      cases h
      exact .serial huuid
  | some text =>
      rw [huuid] at h
      dsimp only at h
      split_ifs at h with hinterface
      cases hparse : Hex.parse (2 ^ 64) (trimStartMatches0x text) with
      | none =>
          rw [hparse] at h
          cases h
      | some uuid =>
          rw [hparse] at h
          dsimp only at h
          split_ifs at h with hlarge
          cases h
          exact .can huuid rfl hinterface (Hex.parse_of_lt hparse (by omega))

theorem transportOf_describes {transport : Option McuTransport}
    (h : transportOf settings name = .ok transport) :
    Describes (configuredBy settings name) transport := by
  unfold transportOf at h
  cases hfound : configuredBy settings name with
  | none =>
      rw [hfound] at h
      cases h
      exact .nowhere
  | some found =>
      rw [hfound] at h
      exact parseTransport_describes h

/-- Sections named in lower case are found by the lower case of the name looked for. -/
theorem firstNamed_iff_exactlyNamed
    (hlower : ∀ entry ∈ settings.entries, toAsciiLowercase entry.1 = entry.1) :
    FirstNamed settings wanted found ↔ ExactlyNamed settings wanted found := by
  have hsame {other : Str × McuSettings} (ho : other ∈ settings.entries) :
      eqIgnoreAsciiCase other.1 wanted = true ↔ other.1 = toAsciiLowercase wanted := by
    rw [eqIgnoreAsciiCase_iff, hlower other ho]
  constructor
  · rintro ⟨hm, he, -⟩
    refine ⟨hm, ?_⟩
    rw [or_iff_not_imp_left]
    intro hne
    refine ⟨(hsame hm).1 he, ?_⟩
    intro other ho hw
    apply hne
    rw [(hsame hm).1 he, ← hw, hlower other ho]
  · rintro ⟨hm, he⟩
    have hl : found.1 = toAsciiLowercase wanted := by
      rcases he with hw | ⟨hl, -⟩
      · rw [← hw, hlower found hm]
      · exact hl
    refine ⟨hm, (hsame hm).2 hl, ?_⟩
    intro other ho hother
    rw [hl, (hsame ho).1 hother]

/-- The object `name` is a Beacon's whose section has the name `other` ignoring case. -/
def NamesSection (name other : Str) : Prop :=
  ∃ wanted, Beacon.configSection name = some wanted ∧ eqIgnoreAsciiCase wanted other = true

/-- The names under which a section can be found for an object. -/
theorem PairedBy.named (h : PairedBy (FirstNamed settings) name (some found)) :
    eqIgnoreAsciiCase found.1 name = true ∨ NamesSection name found.1 := by
  cases h with
  | own h => exact .inl h.2.1
  | beacon hn hb h =>
      refine .inr ⟨_, hb, ?_⟩
      rw [eqIgnoreAsciiCase_iff]
      exact (eqIgnoreAsciiCase_iff.1 h.2.1).symm

theorem name_of_configSection (h : Beacon.configSection name = some wanted) :
    name = "mcu " ++ wanted := by
  unfold Beacon.configSection at h
  rw [Option.filter_eq_some_iff] at h
  exact stripPrefix_eq_some_iff.1 h.1

/-- Two objects that share a section have one name ignoring case, or one of them is the Beacon
whose section the other is named like. -/
theorem PairedBy.same {name' : Str} (h : PairedBy (FirstNamed settings) name (some found))
    (h' : PairedBy (FirstNamed settings) name' (some found)) :
    eqIgnoreAsciiCase name name' = true ∨ NamesSection name name' ∨ NamesSection name' name := by
  simp only [NamesSection, eqIgnoreAsciiCase_iff]
  rcases h.named with hn | ⟨wanted, hb, hw⟩
  · rw [eqIgnoreAsciiCase_iff] at hn
    rcases h'.named with hn' | ⟨wanted', hb', hw'⟩
    · rw [eqIgnoreAsciiCase_iff] at hn'
      exact .inl (hn.symm.trans hn')
    · rw [eqIgnoreAsciiCase_iff] at hw'
      exact .inr (.inr ⟨wanted', hb', hw'.trans hn⟩)
  · rw [eqIgnoreAsciiCase_iff] at hw
    rcases h'.named with hn' | ⟨wanted', hb', hw'⟩
    · rw [eqIgnoreAsciiCase_iff] at hn'
      exact .inr (.inl ⟨wanted, hb, hw.trans hn'⟩)
    · rw [eqIgnoreAsciiCase_iff] at hw'
      rw [name_of_configSection hb, name_of_configSection hb']
      refine .inl ?_
      rw [toAsciiLowercase, toAsciiLowercase, List.map_append, List.map_append]
      exact congrArg _ (hw.trans hw'.symm)

end Sections

section Runs

variable {fromStr : Str → Except MoonrakerError ObjectQueryResponse} {text : Str}
  {settings : OrderedMap Str McuSettings} {objects : List (Str × McuStatus)}
  {inventory : McuInventory}

def transports (inventory : McuInventory) : List (Str × Option McuTransport) :=
  inventory.mcus.map (fun mcu => (mcu.name, mcu.transport)) ++
    inventory.unreported.map fun entry => (entry.name, entry.transport)

theorem parseObject_transport {name : Str} {status : McuStatus} {parsed : Mcu ⊕ UnreportedMcu}
    (h : parseObject settings name status = .ok parsed) : ∃ transport,
      transportOf settings name = .ok transport ∧ ∀ inventory,
        (transports (addParsed inventory parsed)).Perm
          (transports inventory ++ [(name, transport)]) := by
  unfold parseObject at h
  cases ht : transportOf settings name with
  | error e =>
      rw [ht] at h
      cases h
  | ok transport =>
      rw [ht] at h
      refine ⟨transport, rfl, ?_⟩
      intro inventory
      change ite _ _ _ = _ at h
      split_ifs at h
      · cases h
        simp only [addParsed, transports, List.map_append, List.append_assoc]
        exact List.Perm.refl _
      · cases hm : (status.mcuConstants.get "MCU").bind Value.asStr with
        | none =>
            rw [hm] at h
            cases h
        | some mcu =>
            rw [hm] at h
            cases h
            simp only [addParsed, transports, List.map_append, List.append_assoc]
            exact (List.perm_append_comm).append_left _

/-- What the loop has read so far: the MCU objects seen, each with its transport. -/
theorem foldlM_parseStep (h : objects.foldlM (parseStep settings) ⟨[], []⟩ = .ok inventory) :
    ∃ found : List (Str × Option McuTransport), (transports inventory).Perm found ∧
      found.map Prod.fst =
        (objects.filter fun object => object.1 ≠ ("configfile" : Str)).map Prod.fst ∧
      ∀ entry ∈ found, transportOf settings entry.1 = .ok entry.2 := by
  induction objects using List.reverseRecOn generalizing inventory with
  | nil =>
      cases h
      exact ⟨[], .refl _, rfl, fun entry he => absurd he List.not_mem_nil⟩
  | append_singleton objects object ih =>
      obtain ⟨before, hbefore, hstep⟩ := foldlM_concat_eq_ok_iff.1 h
      obtain ⟨found, hperm, hkeys, hfound⟩ := ih hbefore
      unfold parseStep at hstep
      rw [List.filter_append, List.map_append, ← hkeys]
      by_cases hc : object.1 = ("configfile" : Str)
      · rw [if_pos hc] at hstep
        cases hstep
        refine ⟨found, hperm, ?_, hfound⟩
        have hskip : [object].filter (fun object => object.1 ≠ ("configfile" : Str)) = [] := by
          apply List.filter_cons_of_neg
          rw [decide_eq_true_iff, not_not]
          exact hc
        rw [hskip, List.map_nil, List.append_nil]
      · rw [if_neg hc] at hstep
        cases hparsed : parseObject settings object.1 object.2 with
        | error e =>
            rw [hparsed] at hstep
            cases hstep
        | ok parsed =>
            rw [hparsed] at hstep
            cases hstep
            obtain ⟨transport, ht, hadd⟩ := parseObject_transport hparsed
            refine ⟨found ++ [(object.1, transport)], (hadd before).trans (hperm.append_right _),
              ?_, ?_⟩
            · have hkeep : [object].filter (fun object => object.1 ≠ ("configfile" : Str)) =
                  [object] := List.filter_cons_of_pos (decide_eq_true hc)
              rw [hkeep, List.map_append]
              exact rfl
            · rw [List.forall_mem_append]
              exact ⟨hfound, List.forall_mem_singleton.2 ht⟩

/-- Each MCU object of a response stands once in the inventory, with the transport that its own
settings section describes. -/
structure WellPaired (response : ObjectQueryResponse) (inventory : McuInventory) : Prop where
  names : ((transports inventory).map Prod.fst).Perm (response.objects.map Prod.fst)
  nodup : ((transports inventory).map Prod.fst).Nodup
  paired : ∀ entry ∈ transports inventory, ∃ found,
    PairedBy (FirstNamed response.settings) entry.1 found ∧ Describes found entry.2

theorem wellPaired_of_foldlM {response : ObjectQueryResponse}
    (h : response.status.entries.foldlM (parseStep response.settings) ⟨[], []⟩ = .ok inventory) :
    WellPaired response inventory := by
  obtain ⟨found, hperm, hkeys, hfound⟩ := foldlM_parseStep h
  have hnames := hperm.map Prod.fst
  rw [hkeys] at hnames
  refine ⟨hnames, ?_, ?_⟩
  · apply hnames.nodup_iff.2
    exact response.status.keys_nodup.sublist (List.filter_sublist.map _)
  · intro entry he
    exact ⟨_, configuredBy_pairedBy _ _, transportOf_describes (hfound entry (hperm.mem_iff.1 he))⟩

theorem parseInventory_eq_ok (h : parseInventory fromStr text = .ok inventory) :
    ∃ response, fromStr text = .ok response ∧
      response.status.entries.foldlM (parseStep response.settings) ⟨[], []⟩ = .ok inventory := by
  unfold parseInventory at h
  cases hr : fromStr text with
  | error e =>
      rw [hr] at h
      cases h
  | ok response =>
      rw [hr] at h
      refine ⟨response, rfl, ?_⟩
      change (response.status.entries.foldlM (parseStep response.settings) ⟨[], []⟩ >>= _) = _ at h
      cases hf : response.status.entries.foldlM (parseStep response.settings) ⟨[], []⟩ with
      | error e =>
          rw [hf] at h
          cases h
      | ok inventory' =>
          rw [hf] at h
          change ite _ _ _ = _ at h
          split_ifs at h
          · cases h
          · exact h

/-- An accepted response gives every MCU the transport of its own section. Where section names
are in lower case that is the section named exactly, or else the one named in lower case; and a
section is shared only by objects with one name ignoring case, or with a Beacon that it names. -/
theorem parseInventory_wellPaired (h : parseInventory fromStr text = .ok inventory) :
    ∃ response, fromStr text = .ok response ∧ WellPaired response inventory ∧
      ((∀ entry ∈ response.settings.entries, toAsciiLowercase entry.1 = entry.1) →
        ∀ wanted found, FirstNamed response.settings wanted found ↔
          ExactlyNamed response.settings wanted found) ∧
      ∀ name name' found, PairedBy (FirstNamed response.settings) name (some found) →
        PairedBy (FirstNamed response.settings) name' (some found) →
          eqIgnoreAsciiCase name name' = true ∨ NamesSection name name' ∨
            NamesSection name' name := by
  obtain ⟨response, hr, hf⟩ := parseInventory_eq_ok h
  refine ⟨response, hr, wellPaired_of_foldlM hf, ?_, ?_⟩
  · intro hlower wanted found
    exact firstNamed_iff_exactlyNamed hlower
  · intro name name' found hname hname'
    exact hname.same hname'

/-- The settings have two sections whose names differ in case only, and the later one has the name
of the MCU object. -/
def nearText : Str :=
  "\x7b\"result\":\x7b\"status\":\x7b\"configfile\":\x7b\"settings\":\x7b" ++
    "\"MCU a\":\x7b\"serial\":\"/dev/x\"\x7d,\"mcu a\":\x7b\"serial\":\"/dev/y\"\x7d" ++
    "\x7d\x7d,\"mcu a\":\x7b\x7d\x7d\x7d\x7d"

def nearSections : List (Str × McuSettings) :=
  [("MCU a", ⟨some "/dev/x", none, none⟩), ("mcu a", ⟨some "/dev/y", none, none⟩)]

theorem nearSections_sorted : nearSections.Pairwise fun a b => a.1 < b.1 := by decide

def nearObjects : List (Str × McuStatus) :=
  [("configfile", ⟨none, none, none, .empty, none, some ⟨nearSections, nearSections_sorted⟩⟩),
    ("mcu a", ⟨none, none, none, .empty, none, none⟩)]

theorem nearObjects_sorted : nearObjects.Pairwise fun a b => a.1 < b.1 := by
  rw [nearObjects, List.pairwise_pair]
  decide

def nearResponse : ObjectQueryResponse := ⟨⟨nearObjects, nearObjects_sorted⟩⟩

def nearFromStr (text : Str) : Except MoonrakerError ObjectQueryResponse :=
  if text = nearText then .ok nearResponse else .error .json

def nearInventory : McuInventory :=
  ⟨[], [⟨"mcu a", some (.serial "/dev/x"), .notIdentified⟩]⟩

theorem parseInventory_near :
    parseInventory nearFromStr nearText = .ok nearInventory := by
  decide +kernel

theorem parseInventory_wellPaired_near :
    ∃ response, nearFromStr nearText = .ok response ∧
      WellPaired response nearInventory ∧
      ((∀ entry ∈ response.settings.entries, toAsciiLowercase entry.1 = entry.1) →
        ∀ wanted found, FirstNamed response.settings wanted found ↔
          ExactlyNamed response.settings wanted found) ∧
      ∀ name name' found, PairedBy (FirstNamed response.settings) name (some found) →
        PairedBy (FirstNamed response.settings) name' (some found) →
          eqIgnoreAsciiCase name name' = true ∨ NamesSection name name' ∨
            NamesSection name' name :=
  parseInventory_wellPaired parseInventory_near

/-- A section in capitals is taken although there is one with the name of the object. -/
theorem not_paired_exactly :
    ¬ ∀ (fromStr : Str → Except MoonrakerError ObjectQueryResponse) (text : Str)
      (inventory : McuInventory), parseInventory fromStr text = .ok inventory →
        ∃ response, fromStr text = .ok response ∧ ∀ entry ∈ transports inventory, ∃ found,
          PairedBy (ExactlyNamed response.settings) entry.1 found ∧ Describes found entry.2 := by
  intro h
  obtain ⟨response, hr, hpaired⟩ := h _ _ _ parseInventory_near
  rw [nearFromStr, if_pos rfl] at hr
  cases hr
  obtain ⟨found, hfound, hd⟩ := hpaired ("mcu a", some (.serial "/dev/x")) (by decide)
  have hexact : ExactlyNamed nearResponse.settings "mcu a" ("mcu a", ⟨some "/dev/y", none, none⟩) :=
    ⟨by decide, .inl rfl⟩
  cases hfound with
  | @own found h =>
      have hname : found.1 = ("mcu a" : Str) := by
        rcases h.2 with hn | ⟨-, hn⟩
        · exact hn
        · exact absurd rfl (hn _ hexact.1)
      have hmem : found ∈ nearSections := h.1
      rcases List.mem_pair.1 hmem with rfl | rfl
      · exact absurd hname (by decide)
      · generalize hs : (some (.serial "/dev/x") : Option McuTransport) = transport at hd
        cases hd with
        | serial _ => exact absurd hs (by decide)
        | can huuid _ _ _ => cases huuid
  | beacon hn hb h => exact hn _ hexact
  | none hn hb => exact hn _ hexact

end Runs

end Aldis.Moonraker

import Aldis.FlashOrder
import Aldis.Lib.Program

/-!
# The only rule between printers

A USB-CAN bridge is flashed only while every other printer on its CAN bus is idle.
-/

namespace Aldis.Fleet

open Interaction Text

/-- What is known about another printer on this host; `none` means it could not be
established. -/
structure PeerState where
  name : Str
  url : Str
  unit : Option Str
  klippy : Option KlippyState
  printState : Option PrintState
  inventory : Option McuInventory
  deriving DecidableEq

/-- The distinct texts of a list in their order, as a `BTreeSet` holds them. -/
def sortedSet (texts : List Str) : List Str := (texts.mergeSort precedes).dedup

theorem mem_sortedSet {texts : List Str} {s : Str} : s ∈ sortedSet texts ↔ s ∈ texts := by
  rw [sortedSet, List.mem_dedup, List.mem_mergeSort]

/-- The CAN interfaces a bridge flash cuts off; a bridge reached over USB serial has no knowable
one, so every bus counts. -/
inductive Bus where
  | interfaces (interfaces : List Str)
  | unknown
  deriving DecidableEq

def McuTransport.interface : McuTransport → Option Str
  | .can interface _ => some interface
  | .serial _ => none

def canInterface (transport : Option McuTransport) : Option Str :=
  transport.bind McuTransport.interface

def targetedBridges (inventory : McuInventory) (targets : List Str) : List Mcu :=
  inventory.mcus.filter (fun mcu => targets.contains mcu.name && isUsbCanBridge mcu)

/-- The bus affected by flashing `targets`, or `none` when none of them is a bridge. -/
def bridgeBus (inventory : McuInventory) (targets : List Str) : Option Bus :=
  let bridges := targetedBridges inventory targets
  if bridges = [] then none
  else if bridges.any (fun mcu => (canInterface mcu.transport).isNone) then some .unknown
  else some (.interfaces (sortedSet (bridges.filterMap (fun mcu => canInterface mcu.transport))))

def peerInterfaces (inventory : McuInventory) : List Str :=
  sortedSet ((inventory.mcus.map (·.transport) ++ inventory.unreported.map (·.transport)).filterMap
    canInterface)

/-- The first of the interfaces a peer uses that `bus` includes. -/
def sharedInterface (bus : Bus) (used : List Str) : Option Str :=
  match bus with
  | .unknown => used.head?
  | .interfaces bridge => used.find? (bridge.contains ·)

def checkRunning (bus : Bus) (peer : PeerState) (klippy : KlippyState) : Except Str Unit :=
  match peer.inventory with
  | none => .error ("cannot flash: " ++ peer.name ++ " has not reported its MCUs")
  | some inventory => match sharedInterface bus (peerInterfaces inventory) with
    | none => .ok ()
    | some interface =>
      if klippy = .error ∨ klippy = .shutdown ∨ peer.printState.any PrintState.isIdle then .ok ()
      else .error ("cannot flash: " ++ peer.name ++ " is " ++
        (peer.printState.map PrintState.display).getD "not confirmed idle" ++ " on " ++ interface)

/-- Whether a peer allows a flash that cuts off `bus`; the error says why not. -/
def checkPeer (bus : Bus) (peer : PeerState) : Except Str Unit :=
  match peer.klippy with
  | none => .error ("cannot flash: " ++ peer.name ++
      " cannot be checked (its Moonraker is unreachable)")
  | some .disconnected => .ok ()
  | some .startup => .error ("cannot flash: " ++ peer.name ++ " is starting up")
  | some klippy => checkRunning bus peer klippy

/-- Whether flashing `targets` is allowed given the other printers; the first peer that does not
allow it is named. -/
def checkBridge (inventory : McuInventory) (targets : List Str) (peers : List PeerState) :
    Except Str Unit :=
  match bridgeBus inventory targets with
  | none => .ok ()
  | some bus => peers.forM (checkPeer bus)

/-- Drops the peer that is this printer and repeats of one unit; peers with an unknown unit are
kept. -/
def peersExcluding (ownUnit : Str) (peers : List PeerState) : List PeerState :=
  go [] peers
where
  go (seen : List Str) : List PeerState → List PeerState
    | [] => []
    | peer :: rest => match peer.unit with
      | none => peer :: go seen rest
      | some unit =>
        if unit = ownUnit ∨ unit ∈ seen then go seen rest else peer :: go (unit :: seen) rest

/-- The gate of the CLI, which checks the whole batch against the printers it could name. -/
def bridgeRefusal (probed : List PeerState) (ownUnit : Str) (inventory : McuInventory)
    (targets : List Str) : Except Str Unit :=
  if probed = [] then .ok ()
  else (checkBridge inventory targets (peersExcluding ownUnit probed)).mapError
    ("refusing to flash: " ++ ·)

section Gate

variable {inventory : McuInventory} {targets : List Str} {peers : List PeerState}

/-- The interfaces that flashing the bridges among `targets` may cut off: every one where a
bridge is not configured over CAN. -/
def CutsOff (inventory : McuInventory) (targets : List Str) (interface : Str) : Prop :=
  ∃ bridge ∈ targetedBridges inventory targets,
    canInterface bridge.transport = none ∨ canInterface bridge.transport = some interface

/-- A CAN interface that one of the MCUs of `inventory` is configured on, reported or not. -/
def UsesInterface (inventory : McuInventory) (interface : Str) : Prop :=
  (∃ mcu ∈ inventory.mcus, canInterface mcu.transport = some interface) ∨
    ∃ mcu ∈ inventory.unreported, canInterface mcu.transport = some interface

/-- A peer whose buses may be cut off: its Klipper does not run, or what it uses is known and it
is idle if that is cut off. -/
def Allows (cut : Str → Prop) (peer : PeerState) : Prop :=
  peer.klippy = some .disconnected ∨
    ∃ klippy used, peer.klippy = some klippy ∧ klippy ≠ .startup ∧ peer.inventory = some used ∧
      ((∃ interface, UsesInterface used interface ∧ cut interface) →
        klippy = .error ∨ klippy = .shutdown ∨
          ∃ state, peer.printState = some state ∧ state.isIdle = true)

theorem mem_peerInterfaces {interface : Str} :
    interface ∈ peerInterfaces inventory ↔ UsesInterface inventory interface := by
  unfold peerInterfaces UsesInterface
  rw [mem_sortedSet, List.mem_filterMap]
  constructor
  · rintro ⟨transport, hmem, hi⟩
    rcases List.mem_append.1 hmem with h | h
    · obtain ⟨mcu, hmcu, rfl⟩ := List.mem_map.1 h
      exact .inl ⟨mcu, hmcu, hi⟩
    · obtain ⟨mcu, hmcu, rfl⟩ := List.mem_map.1 h
      exact .inr ⟨mcu, hmcu, hi⟩
  · rintro (⟨mcu, hmcu, hi⟩ | ⟨mcu, hmcu, hi⟩)
    · exact ⟨mcu.transport, List.mem_append_left _ (List.mem_map_of_mem hmcu), hi⟩
    · exact ⟨mcu.transport, List.mem_append_right _ (List.mem_map_of_mem hmcu), hi⟩

def Bus.Covers : Bus → Str → Prop
  | unknown, _ => True
  | interfaces bridge, interface => interface ∈ bridge

theorem bridgeBus_eq_none_iff :
    bridgeBus inventory targets = none ↔ targetedBridges inventory targets = [] := by
  unfold bridgeBus
  constructor
  · intro h
    by_contra hn
    rw [if_neg hn] at h
    split_ifs at h
  · intro h
    rw [if_pos h]

theorem bridgeBus_covers {bus : Bus} (h : bridgeBus inventory targets = some bus)
    (interface : Str) : bus.Covers interface ↔ CutsOff inventory targets interface := by
  have hn : targetedBridges inventory targets ≠ [] := by
    intro hn
    rw [bridgeBus_eq_none_iff.2 hn] at h
    cases h
  unfold bridgeBus at h
  rw [if_neg hn] at h
  unfold CutsOff
  by_cases hu : ((targetedBridges inventory targets).any
      (fun mcu => (canInterface mcu.transport).isNone)) = true
  · rw [if_pos hu] at h
    obtain rfl := Option.some.inj h
    obtain ⟨bridge, hb, hi⟩ := List.any_eq_true.1 hu
    exact iff_of_true True.intro ⟨bridge, hb, .inl (Option.isNone_iff_eq_none.1 hi)⟩
  · rw [if_neg hu] at h
    obtain rfl := Option.some.inj h
    change interface ∈ sortedSet _ ↔ _
    rw [mem_sortedSet, List.mem_filterMap]
    constructor
    · rintro ⟨bridge, hb, hi⟩
      exact ⟨bridge, hb, .inr hi⟩
    · rintro ⟨bridge, hb, hi | hi⟩
      · exact absurd (List.any_eq_true.2 ⟨bridge, hb, Option.isNone_iff_eq_none.2 hi⟩) hu
      · exact ⟨bridge, hb, hi⟩

theorem sharedInterface_eq_none_iff {bus : Bus} {used : List Str} :
    sharedInterface bus used = none ↔ ∀ interface ∈ used, ¬ bus.Covers interface := by
  cases bus with
  | unknown =>
      cases used with
      | nil => exact ⟨fun _ _ h => absurd h List.not_mem_nil, fun _ => rfl⟩
      | cons interface rest =>
          exact ⟨nofun, fun h => absurd True.intro (h interface List.mem_cons_self)⟩
  | interfaces bridge =>
      change used.find? (bridge.contains ·) = none ↔ _
      rw [List.find?_eq_none]
      simp only [List.contains_iff_mem, Bus.Covers]

theorem checkRunning_ok_iff {bus : Bus} {peer : PeerState} {klippy : KlippyState} :
    checkRunning bus peer klippy = .ok () ↔ ∃ used, peer.inventory = some used ∧
      ((∃ interface, UsesInterface used interface ∧ bus.Covers interface) →
        klippy = .error ∨ klippy = .shutdown ∨
          ∃ state, peer.printState = some state ∧ state.isIdle = true) := by
  unfold checkRunning
  cases peer.inventory with
  | none => exact ⟨nofun, fun ⟨_, h, _⟩ => by cases h⟩
  | some used =>
      dsimp only
      cases hshared : sharedInterface bus (peerInterfaces used) with
      | none =>
          rw [sharedInterface_eq_none_iff] at hshared
          refine iff_of_true rfl ⟨used, rfl, ?_⟩
          rintro ⟨interface, hu, hc⟩
          exact absurd hc (hshared interface (mem_peerInterfaces.2 hu))
      | some interface =>
          have hcut : ∃ interface, UsesInterface used interface ∧ bus.Covers interface := by
            by_contra hn
            have hnone : sharedInterface bus (peerInterfaces used) = none :=
              sharedInterface_eq_none_iff.2 fun i hi hc => hn ⟨i, mem_peerInterfaces.1 hi, hc⟩
            rw [hshared] at hnone
            cases hnone
          have hidle : peer.printState.any PrintState.isIdle = true ↔
              ∃ state, peer.printState = some state ∧ state.isIdle = true := by
            cases peer.printState with
            | none => exact ⟨nofun, fun ⟨_, h, _⟩ => by cases h⟩
            | some state =>
                exact ⟨fun h => ⟨state, rfl, h⟩, fun ⟨_, h, hi⟩ => Option.some.inj h ▸ hi⟩
          constructor
          · intro h
            dsimp only at h
            split_ifs at h with hi
            exact ⟨used, rfl, fun _ => hi.imp_right (Or.imp_right hidle.1)⟩
          · rintro ⟨used', hused, hi⟩
            obtain rfl := Option.some.inj hused
            exact if_pos ((hi hcut).imp_right (Or.imp_right hidle.2))

theorem checkPeer_ok_iff {bus : Bus} {peer : PeerState} :
    checkPeer bus peer = .ok () ↔ Allows bus.Covers peer := by
  have hrunning : ∀ klippy, peer.klippy = some klippy → klippy ≠ .disconnected →
      klippy ≠ .startup → (checkRunning bus peer klippy = .ok () ↔ Allows bus.Covers peer) := by
    intro klippy hk hd hs
    rw [checkRunning_ok_iff]
    constructor
    · rintro ⟨used, hu, hi⟩
      exact .inr ⟨klippy, used, hk, hs, hu, hi⟩
    · rintro (h | ⟨klippy', used, hk', -, hu, hi⟩)
      · exact absurd (Option.some.inj (hk.symm.trans h)) hd
      · obtain rfl := Option.some.inj (hk.symm.trans hk')
        exact ⟨used, hu, hi⟩
  unfold checkPeer
  cases hk : peer.klippy with
  | none =>
      refine iff_of_false nofun ?_
      rintro (h | ⟨klippy, used, h, -⟩)
      · cases hk.symm.trans h
      · cases hk.symm.trans h
  | some klippy =>
      cases klippy with
      | disconnected => exact iff_of_true rfl (.inl hk)
      | startup =>
          refine iff_of_false nofun ?_
          rintro (h | ⟨klippy, used, h, hs, -⟩)
          · cases hk.symm.trans h
          · exact hs (Option.some.inj (h.symm.trans hk))
      | ready => exact hrunning .ready hk nofun nofun
      | error => exact hrunning .error hk nofun nofun
      | shutdown => exact hrunning .shutdown hk nofun nofun

theorem Allows.congr {cut cut' : Str → Prop} (h : ∀ interface, cut interface ↔ cut' interface)
    (peer : PeerState) : Allows cut peer ↔ Allows cut' peer := by
  rw [show cut = cut' from funext fun interface => propext (h interface)]

/-- The whole gate: no bridge is flashed, or every peer allows it. -/
theorem checkBridge_ok_iff : checkBridge inventory targets peers = .ok () ↔
    targetedBridges inventory targets = [] ∨
      ∀ peer ∈ peers, Allows (CutsOff inventory targets) peer := by
  unfold checkBridge
  cases hb : bridgeBus inventory targets with
  | none => exact iff_of_true rfl (.inl (bridgeBus_eq_none_iff.1 hb))
  | some bus =>
      have hn : targetedBridges inventory targets ≠ [] := by
        intro hn
        rw [bridgeBus_eq_none_iff.2 hn] at hb
        cases hb
      dsimp only
      rw [forM_ok_iff, or_iff_right hn]
      refine forall₂_congr fun peer _ => ?_
      rw [checkPeer_ok_iff]
      exact Allows.congr (bridgeBus_covers hb) peer

theorem mem_targetedBridges {mcu : Mcu} : mcu ∈ targetedBridges inventory targets ↔
    mcu ∈ inventory.mcus ∧ mcu.name ∈ targets ∧ isUsbCanBridge mcu = true := by
  rw [targetedBridges, List.mem_filter, Bool.and_eq_true, List.contains_iff_mem]

theorem mem_targetedBridges_single {mcu : Mcu} : mcu ∈ targetedBridges inventory targets ↔
    ∃ target ∈ targets, mcu ∈ targetedBridges inventory [target] := by
  simp only [mem_targetedBridges, List.mem_singleton]
  constructor
  · rintro ⟨hm, hn, hb⟩
    exact ⟨mcu.name, hn, hm, rfl, hb⟩
  · rintro ⟨target, ht, hm, rfl, hb⟩
    exact ⟨hm, ht, hb⟩

/-- The bus of a batch is the union of the buses of its targets. -/
theorem cutsOff_iff_single {interface : Str} : CutsOff inventory targets interface ↔
    ∃ target ∈ targets, CutsOff inventory [target] interface := by
  constructor
  · rintro ⟨bridge, hb, hi⟩
    obtain ⟨target, ht, hb⟩ := mem_targetedBridges_single.1 hb
    exact ⟨target, ht, bridge, hb, hi⟩
  · rintro ⟨target, ht, bridge, hb, hi⟩
    exact ⟨bridge, mem_targetedBridges_single.2 ⟨target, ht, hb⟩, hi⟩

theorem Allows.mono {cut cut' : Str → Prop} {peer : PeerState} (h : Allows cut peer)
    (hc : ∀ interface, cut' interface → cut interface) : Allows cut' peer := by
  rcases h with h | ⟨klippy, used, hk, hs, hu, hi⟩
  · exact .inl h
  · refine .inr ⟨klippy, used, hk, hs, hu, ?_⟩
    rintro ⟨interface, hused, hcut⟩
    exact hi ⟨interface, hused, hc interface hcut⟩

/-- A peer that allows each of several cuts allows all of them together. -/
theorem Allows.union {items : List Str} {cut : Str → Str → Prop} {peer : PeerState}
    (hne : items ≠ []) (h : ∀ a ∈ items, Allows (cut a) peer) :
    Allows (fun interface => ∃ a ∈ items, cut a interface) peer := by
  by_cases hd : peer.klippy = some .disconnected
  · exact .inl hd
  · obtain ⟨a, ha⟩ := List.exists_mem_of_ne_nil _ hne
    obtain ⟨klippy, used, hk, hs, hu, -⟩ := (h a ha).resolve_left hd
    refine .inr ⟨klippy, used, hk, hs, hu, ?_⟩
    rintro ⟨interface, hused, b, hb, hcut⟩
    obtain ⟨klippy', used', hk', -, hu', hi⟩ := (h b hb).resolve_left hd
    obtain rfl := Option.some.inj (hk.symm.trans hk')
    obtain rfl := Option.some.inj (hu.symm.trans hu')
    exact hi ⟨interface, hused, hcut⟩

theorem checkBridge_ok_iff_single : checkBridge inventory targets peers = .ok () ↔
    ∀ target ∈ targets, checkBridge inventory [target] peers = .ok () := by
  simp only [checkBridge_ok_iff]
  constructor
  · rintro (hn | h) target ht
    · refine .inl (List.eq_nil_iff_forall_not_mem.2 fun mcu hm => ?_)
      have hmem := mem_targetedBridges_single.2 ⟨target, ht, hm⟩
      rw [hn] at hmem
      exact List.not_mem_nil hmem
    · refine .inr fun peer hp => (h peer hp).mono fun interface hc => ?_
      exact cutsOff_iff_single.2 ⟨target, ht, hc⟩
  · intro h
    by_cases hn : targetedBridges inventory targets = []
    · exact .inl hn
    · -- only the targets that are bridges cut anything off
      refine .inr fun peer hp => ?_
      have hbridges : ∀ target ∈ targets.filter (targetedBridges inventory [·] ≠ []),
          Allows (CutsOff inventory [target]) peer := by
        intro target ht
        obtain ⟨ht, hne⟩ := List.mem_filter.1 ht
        exact ((h target ht).resolve_left (of_decide_eq_true hne)) peer hp
      have hne : targets.filter (targetedBridges inventory [·] ≠ []) ≠ [] := by
        obtain ⟨mcu, hm⟩ := List.exists_mem_of_ne_nil _ hn
        obtain ⟨target, ht, hm⟩ := mem_targetedBridges_single.1 hm
        exact List.ne_nil_of_mem (List.mem_filter.2 ⟨ht, decide_eq_true (List.ne_nil_of_mem hm)⟩)
      refine (Allows.union hne hbridges).mono fun interface hc => ?_
      obtain ⟨target, ht, bridge, hb, hi⟩ := cutsOff_iff_single.1 hc
      exact ⟨target, List.mem_filter.2 ⟨ht, decide_eq_true (List.ne_nil_of_mem hb)⟩, bridge, hb, hi⟩

theorem checkBridge_perm {targets' : List Str} {peers' : List PeerState}
    (ht : targets.Perm targets') (hp : peers.Perm peers') :
    checkBridge inventory targets peers = .ok () ↔
      checkBridge inventory targets' peers' = .ok () := by
  have hbridges : targetedBridges inventory targets = targetedBridges inventory targets' := by
    unfold targetedBridges
    refine List.filter_congr fun mcu _ => ?_
    rw [Bool.eq_iff_iff, Bool.and_eq_true, Bool.and_eq_true, List.contains_iff_mem,
      List.contains_iff_mem, ht.mem_iff]
  have hcut : CutsOff inventory targets = CutsOff inventory targets' := by
    unfold CutsOff
    rw [hbridges]
  rw [checkBridge_ok_iff, checkBridge_ok_iff, hbridges, hcut]
  simp only [hp.mem_iff]

theorem peersExcluding_nil (ownUnit : Str) : peersExcluding ownUnit [] = [] := rfl

/-- The gate of a batch is the gates of its targets together, so the agent and the CLI agree; it
knows no order, and it lets a bridge be flashed only where every peer is known to be idle or not
on its bus. -/
theorem bridge_gating (inventory : McuInventory) (targets : List Str) (peers : List PeerState) :
    (checkBridge inventory targets peers = .ok () ↔
      ∀ target ∈ targets, checkBridge inventory [target] peers = .ok ()) ∧
    (∀ probed ownUnit, bridgeRefusal probed ownUnit inventory targets = .ok () ↔
      ∀ target ∈ targets,
        checkBridge inventory [target] (peersExcluding ownUnit probed) = .ok ()) ∧
    (∀ targets' peers', targets.Perm targets' → peers.Perm peers' →
      (checkBridge inventory targets peers = .ok () ↔
        checkBridge inventory targets' peers' = .ok ())) ∧
    (checkBridge inventory targets peers = .ok () →
      (∃ mcu ∈ inventory.mcus, mcu.name ∈ targets ∧ isUsbCanBridge mcu = true) →
      ∀ peer ∈ peers, peer.klippy = some .disconnected ∨
        ∃ klippy used, peer.klippy = some klippy ∧ klippy ≠ .startup ∧
          peer.inventory = some used ∧
          ((∃ interface, UsesInterface used interface ∧ CutsOff inventory targets interface) →
            klippy = .error ∨ klippy = .shutdown ∨
              ∃ state, peer.printState = some state ∧ state.isIdle = true)) := by
  refine ⟨checkBridge_ok_iff_single, ?_, fun _ _ => checkBridge_perm, ?_⟩
  · intro probed ownUnit
    rw [← checkBridge_ok_iff_single]
    unfold bridgeRefusal
    by_cases hp : probed = []
    · rw [if_pos hp, hp, peersExcluding_nil, checkBridge_ok_iff]
      exact iff_of_true rfl (.inr fun _ h => absurd h List.not_mem_nil)
    · rw [if_neg hp]
      cases checkBridge inventory targets (peersExcluding ownUnit probed) with
      | ok _ => exact Iff.rfl
      | error message => exact iff_of_false nofun nofun
  · rintro h ⟨mcu, hm, ht, hb⟩ peer hp
    have hne := List.ne_nil_of_mem (mem_targetedBridges.2 ⟨hm, ht, hb⟩)
    exact (checkBridge_ok_iff.1 h).resolve_left hne peer hp

end Gate

end Aldis.Fleet

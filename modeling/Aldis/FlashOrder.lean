import Aldis.Flash.System

/-!
# The order in which selected MCUs are flashed

Flashing a USB-to-CAN bridge resets its CAN interface, so bridges come last.
-/

namespace Aldis

open Text

def isUsbCanBridge (mcu : Mcu) : Bool := kconfigSelectsUsbCanBridge mcu.kconfig

def McuInventory.isBridge (inventory : McuInventory) (name : Str) : Bool :=
  (inventory.find name).any isUsbCanBridge

/-- Bridges last, everything else in its given order. -/
def flashOrder (inventory : McuInventory) (targets : List Str) : List Str :=
  let (bridges, others) := targets.partition inventory.isBridge
  others ++ bridges

theorem flashOrder_eq (inventory : McuInventory) (targets : List Str) :
    flashOrder inventory targets =
      targets.filter (fun name => !inventory.isBridge name) ++
        targets.filter inventory.isBridge := by
  unfold flashOrder
  rw [List.partition_eq_filter_filter]
  rfl

theorem mem_flashOrder (inventory : McuInventory) {targets : List Str} {name : Str} :
    name ∈ flashOrder inventory targets ↔ name ∈ targets := by
  rw [flashOrder_eq, List.mem_append, List.mem_filter, List.mem_filter, ← and_or_left]
  apply and_iff_left
  cases inventory.isBridge name with
  | true => exact .inr rfl
  | false => exact .inl rfl

end Aldis

import Aldis.Eligibility

/-!
# MCUs still to report their target

Which of the updated MCUs an inventory does not show at their target version.
-/

namespace Aldis.UpdateRun

open Text

variable {V : Type} [Semver V]

/-- Why `name` is still waited for: it is not reported, or reports another version. -/
def pendingMcu (inventory : McuInventory) (versions : TargetVersions V) (name : Str) :
    Option Str :=
  match inventory.find name with
  | none => some (name ++ " (not reported by Moonraker)")
  | some mcu =>
    if versions.reachedBy mcu = some false then
      some (name ++ " (reports " ++ mcu.version.getD "unknown" ++ ")")
    else none

def pendingMcus (inventory : McuInventory) (selected : List Str) (versions : TargetVersions V) :
    List Str :=
  selected.filterMap (pendingMcu inventory versions)

/-- A dropped MCU is reported, and not at another version than its target. -/
theorem pendingMcu_eq_none_iff {inventory : McuInventory} {versions : TargetVersions V}
    {name : Str} : pendingMcu inventory versions name = none ↔
      ∃ mcu, inventory.find name = some mcu ∧ versions.reachedBy mcu ≠ some false := by
  unfold pendingMcu
  cases inventory.find name with
  | none => simp
  | some mcu =>
    by_cases h : versions.reachedBy mcu = some false
    · simp [h]
    · simp [h]

end Aldis.UpdateRun

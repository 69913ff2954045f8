import Aldis.Reboot
import Aldis.Lib.Failure

/-!
# Watching a device

A device is looked at again and again until it is gone, has left its bootloader or is back with its
serial port. The watch succeeds exactly if one of its looks saw that.
-/

namespace Aldis.Cli

open Interaction World Attempt Text Octets

def goneAt (sysfsPath : Path) : CliEvent → Bool
  | ⟨.host (.file (.pathExists path)), present⟩ => decide (path = sysfsPath) && !(present : Bool)
  | _ => false

/-- No bootloader of a Beacon is seen at the device. -/
def leftAt (sysfsPath : Path) : CliEvent → Bool
  | ⟨.host (.flash (.beaconBootloaderAt path)), found⟩ =>
    decide (path = sysfsPath) && (found : Option Beacon.ObservedBootloader).isNone
  | _ => false

def serialAt (sysfsPath : Path) : CliEvent → Bool
  | ⟨.host (.flash (.usbTty path)), tty⟩ =>
    decide (path = sysfsPath) && (tty : Option Path).isSome
  | _ => false

section Watch

variable {tr : List CliEvent} {α : Type} {g : CliEvent → Bool}

/-- What is found by looking again and again was found by the last look. -/
theorem runs_watch {look : CliProgram (Option α)} {found : Option α}
    (hr : Runs (watch look) tr found) : ∃ pre own, tr = pre ++ own ∧ Runs look own found := by
  obtain ⟨n, rest, rfl, hrest⟩ := runs_perform_then_iff.1 hr
  obtain ⟨looked, result, last, rfl, hretry, hreturn⟩ := runs_bind_iff.1 hrest
  obtain ⟨rfl, rfl⟩ := runs_pure_iff.1 hreturn
  obtain ⟨pre, own, rfl, hown⟩ := runs_retry_last hretry
  obtain ⟨seen, found, last, rfl, hlook, hlast⟩ := runs_bind_iff.1 hown
  cases found with
  | none =>
      obtain ⟨rfl, rfl⟩ := runs_pure_iff.1 hlast
      exact ⟨⟨_, n⟩ :: pre, seen, by simp, hlook⟩
  | some a =>
      obtain ⟨rfl, rfl⟩ := runs_pure_iff.1 hlast
      exact ⟨⟨_, n⟩ :: pre, seen, by simp, hlook⟩

/-- What each look tells by an event, a watch tells by it. -/
theorem runs_watch_any {look : CliProgram (Option α)} {found : Option α}
    (hn : ∀ n, g ⟨.host (.attempts WATCH_TIMEOUT WATCH_POLL_INTERVAL), n⟩ = false)
    (hlook : ∀ own seen, Runs look own seen → seen.isSome = own.any g)
    (hr : Runs (watch look) tr found) : found.isSome = tr.any g := by
  cases found with
  | some a =>
      obtain ⟨pre, own, rfl, hown⟩ := runs_watch hr
      rw [List.any_append, ← hlook own _ hown]
      exact (Bool.or_true _).symm
  | none =>
      symm
      rw [Option.isSome_none, List.any_eq_false]
      obtain ⟨n, rest, rfl, hrest⟩ := runs_perform_then_iff.1 hr
      obtain ⟨looked, result, last, rfl, hretry, hreturn⟩ := runs_bind_iff.1 hrest
      obtain ⟨rfl, he⟩ := runs_pure_iff.1 hreturn
      cases result with
      | ok a => cases he
      | error u =>
          rw [List.append_nil]
          intro ev hev
          rcases List.mem_cons.1 hev with rfl | hev
          · rw [hn]
            exact Bool.false_ne_true
          · obtain ⟨own, u', hmem, hown⟩ := runs_retry_error hretry ev hev
            obtain ⟨seen, found, last, rfl, hseen, hlast⟩ := runs_bind_iff.1 hown
            cases found with
            | some a => cases (runs_pure_iff.1 hlast).2
            | none =>
                obtain ⟨rfl, -⟩ := runs_pure_iff.1 hlast
                rw [List.append_nil] at hmem
                exact List.any_eq_false.1 (hlook seen none hseen).symm ev hmem

/-- Whether a watch found something. -/
theorem runs_found_any {look : CliProgram (Option Unit)} {r : Bool}
    (hn : ∀ n, g ⟨.host (.attempts WATCH_TIMEOUT WATCH_POLL_INTERVAL), n⟩ = false)
    (hlook : ∀ own seen, Runs look own seen → seen.isSome = own.any g)
    (hr : Runs (do return (← watch look).isSome) tr r) : r = tr.any g := by
  obtain ⟨watched, found, rest, rfl, hwatch, hreturn⟩ := runs_bind_iff.1 hr
  obtain ⟨rfl, rfl⟩ := runs_pure_iff.1 hreturn
  rw [List.append_nil]
  exact runs_watch_any hn hlook hwatch

variable {sysfsPath : Path} {r : Bool}

theorem waitUntilAbsent_any (hr : Runs (waitUntilAbsent sysfsPath) tr r) :
    r = tr.any (goneAt sysfsPath) := by
  apply runs_found_any (fun _ => rfl) _ hr
  intro own seen hown
  obtain ⟨present, last, rfl, hlast⟩ := runs_perform_then_iff.1 hown
  obtain ⟨rfl, rfl⟩ := runs_pure_iff.1 hlast
  cases present <;> simp [goneAt]

theorem waitUntilLeft_any (hr : Runs (waitUntilLeft sysfsPath) tr r) :
    r = tr.any (leftAt sysfsPath) := by
  apply runs_found_any (fun _ => rfl) _ hr
  intro own seen hown
  obtain ⟨bootloader, last, rfl, hlast⟩ := runs_perform_then_iff.1 hown
  obtain ⟨rfl, rfl⟩ := runs_pure_iff.1 hlast
  cases bootloader <;> simp [leftAt]

theorem applicationAt_any (hr : Runs (applicationAt sysfsPath) tr r) :
    r = tr.any (serialAt sysfsPath) := by
  obtain ⟨vendor, rest, rfl, hrest⟩ := runs_perform_then_iff.1 hr
  obtain ⟨product, rest', rfl, hrest'⟩ := runs_perform_then_iff.1 hrest
  dsimp only at hrest'
  split at hrest'
  · obtain ⟨tty, last, rfl, hlast⟩ := runs_perform_then_iff.1 hrest'
    obtain ⟨rfl, rfl⟩ := runs_pure_iff.1 hlast
    simp [serialAt]
  · obtain ⟨rfl, rfl⟩ := runs_pure_iff.1 hrest'
    rfl

theorem waitForApplicationAt_any (hr : Runs (waitForApplicationAt sysfsPath) tr r) :
    r = tr.any (serialAt sysfsPath) := by
  apply runs_found_any (fun _ => rfl) _ hr
  intro own seen hown
  obtain ⟨looked, running, last, rfl, hlook, hlast⟩ := runs_bind_iff.1 hown
  obtain ⟨rfl, rfl⟩ := runs_pure_iff.1 hlast
  rw [List.append_nil, ← applicationAt_any hlook]
  cases running <;> rfl

theorem eq_of_leftAt {ev : CliEvent} (h : leftAt sysfsPath ev = true) :
    ev = ⟨.host (.flash (.beaconBootloaderAt sysfsPath)), none⟩ := by
  unfold leftAt at h
  split at h
  · rename_i path found
    obtain ⟨hpath, hfound⟩ := Bool.and_eq_true_iff.1 h
    obtain rfl := of_decide_eq_true hpath
    rw [Option.isNone_iff_eq_none.1 hfound]
  · cases h

theorem eq_of_serialAt {ev : CliEvent} (h : serialAt sysfsPath ev = true) :
    ∃ tty, ev = ⟨.host (.flash (.usbTty sysfsPath)), some tty⟩ := by
  unfold serialAt at h
  split at h
  · rename_i path found
    obtain ⟨hpath, hfound⟩ := Bool.and_eq_true_iff.1 h
    obtain rfl := of_decide_eq_true hpath
    obtain ⟨tty, htty⟩ := Option.isSome_iff_exists.1 hfound
    exact ⟨tty, by rw [htty]⟩
  · cases h

end Watch

end Aldis.Cli

import Aldis.Lib.Octets
import Aldis.Lib.Text

/-!
# SAM-BA commands

The monitor's ASCII commands as the adapter writes them, and as the monitor reads them.
-/

namespace Aldis.Samba

open Octets Text

def ascii (s : Str) : Bytes := s.map fun c => UInt8.ofNat c.toNat

inductive MonitorCommand where
  | normal
  | version
  | readWord (address : ℕ)
  | writeWord (address value : ℕ)
  | stage (address length : ℕ)
  | copyFrom (address : ℕ)
  | copy (address length : ℕ)
  | checksum (address length : ℕ)
  deriving DecidableEq

namespace MonitorCommand

def encode : MonitorCommand → Bytes
  | normal => ascii "N#"
  | version => ascii "V#"
  | readWord address => ascii "w" ++ upperHex08 address ++ ascii ",4#"
  | writeWord address value => ascii "W" ++ upperHex08 address ++ ascii "," ++
      upperHex08 value ++ ascii "#"
  | stage address length => ascii "S" ++ upperHex08 address ++ ascii "," ++
      upperHex08 length ++ ascii "#"
  | copyFrom address => ascii "Y" ++ upperHex08 address ++ ascii ",0#"
  | copy address length => ascii "Y" ++ upperHex08 address ++ ascii "," ++
      upperHex08 length ++ ascii "#"
  | checksum address length => ascii "Z" ++ upperHex08 address ++ ascii "," ++
      upperHex08 length ++ ascii "#"

def ofArguments (letter : UInt8) (first second : Bytes) : Option MonitorCommand :=
  if letter = 0x4E then some normal
  else if letter = 0x56 then some version
  else if letter = 0x77 then some (readWord (hexValue first))
  else if letter = 0x57 then some (writeWord (hexValue first) (hexValue second))
  else if letter = 0x53 then some (stage (hexValue first) (hexValue second))
  else if letter = 0x59 then
    if second = [0x30] then some (copyFrom (hexValue first))
    else some (copy (hexValue first) (hexValue second))
  else if letter = 0x5A then some (checksum (hexValue first) (hexValue second))
  else none

def parse : Bytes → Option MonitorCommand
  | [] => none
  | letter :: rest =>
    let first := rest.takeWhile (· ≠ 0x2C)
    let second := (rest.drop (first.length + 1)).takeWhile (· ≠ 0x23)
    (ofArguments letter first second).filter (fun command => command.encode = letter :: rest)

theorem takeWhile_upperHex08 (n : ℕ) {b : UInt8} (hb : nibble b = none) (rest : Bytes) :
    (upperHex08 n ++ b :: rest).takeWhile (· ≠ b) = upperHex08 n := by
  have hall : ∀ c ∈ upperHex08 n, decide (c ≠ b) = true := by
    intro c hc
    refine decide_eq_true fun h => ?_
    have hsome := mem_upperHex08 hc
    rw [h, hb] at hsome
    cases hsome
  rw [List.takeWhile_append_of_pos hall, List.takeWhile_cons_of_neg (by simp), List.append_nil]

theorem upperHex08_ne_zero (n : ℕ) : upperHex08 n ≠ [0x30] := by
  intro h
  have hlen := congrArg List.length h
  simp only [upperHex08, List.length_append, List.length_replicate, List.length_map,
    List.length_reverse] at hlen
  change _ = 1 at hlen
  omega

/-- A command with two arguments is read back with both. -/
theorem arguments_upperHex08 (first second : ℕ) :
    (upperHex08 first ++ 0x2C :: (upperHex08 second ++ [0x23])).takeWhile (· ≠ 0x2C) =
        upperHex08 first ∧
      ((upperHex08 first ++ 0x2C :: (upperHex08 second ++ [0x23])).drop
        ((upperHex08 first).length + 1)).takeWhile (· ≠ 0x23) = upperHex08 second := by
  refine ⟨takeWhile_upperHex08 first rfl _, ?_⟩
  rw [List.drop_append, List.drop_of_length_le (by omega), List.nil_append,
    Nat.add_sub_cancel_left]
  exact takeWhile_upperHex08 second rfl []

/-- The monitor reads the command that was written. -/
theorem parse_encode (command : MonitorCommand) : parse command.encode = some command := by
  have hparse : ∀ letter rest, command.encode = letter :: rest →
      ofArguments letter (rest.takeWhile (· ≠ 0x2C))
        ((rest.drop ((rest.takeWhile (· ≠ 0x2C)).length + 1)).takeWhile (· ≠ 0x23)) =
          some command → parse command.encode = some command := by
    intro letter rest he ho
    rw [he, parse]
    simp only [ho, Option.filter_some, he, decide_true, if_true]
  cases command with
  | normal => exact rfl
  | version => exact rfl
  | readWord address =>
    apply hparse 0x77 (upperHex08 address ++ 0x2C :: [0x34, 0x23])
    · simp [encode, ascii]
    · rw [takeWhile_upperHex08 address rfl]
      simp [ofArguments, hexValue_upperHex08]
  | writeWord address value =>
    obtain ⟨hfirst, hsecond⟩ := arguments_upperHex08 address value
    apply hparse 0x57 (upperHex08 address ++ 0x2C :: (upperHex08 value ++ [0x23]))
    · simp [encode, ascii]
    · rw [hfirst, hsecond]
      simp [ofArguments, hexValue_upperHex08]
  | stage address length =>
    obtain ⟨hfirst, hsecond⟩ := arguments_upperHex08 address length
    apply hparse 0x53 (upperHex08 address ++ 0x2C :: (upperHex08 length ++ [0x23]))
    · simp [encode, ascii]
    · rw [hfirst, hsecond]
      simp [ofArguments, hexValue_upperHex08]
  | copyFrom address =>
    apply hparse 0x59 (upperHex08 address ++ 0x2C :: [0x30, 0x23])
    · simp [encode, ascii]
    · rw [takeWhile_upperHex08 address rfl, List.drop_append,
        List.drop_of_length_le (by omega), List.nil_append, Nat.add_sub_cancel_left]
      simp [ofArguments, hexValue_upperHex08]
  | copy address length =>
    obtain ⟨hfirst, hsecond⟩ := arguments_upperHex08 address length
    apply hparse 0x59 (upperHex08 address ++ 0x2C :: (upperHex08 length ++ [0x23]))
    · simp [encode, ascii]
    · rw [hfirst, hsecond]
      simp [ofArguments, hexValue_upperHex08, upperHex08_ne_zero]
  | checksum address length =>
    obtain ⟨hfirst, hsecond⟩ := arguments_upperHex08 address length
    apply hparse 0x5A (upperHex08 address ++ 0x2C :: (upperHex08 length ++ [0x23]))
    · simp [encode, ascii]
    · rw [hfirst, hsecond]
      simp [ofArguments, hexValue_upperHex08]

end MonitorCommand
end Aldis.Samba

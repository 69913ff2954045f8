import Aldis.Lib.Octets
import Aldis.Lib.Text

/-!
# Bytes in hexadecimal

Digits as characters, and texts whose characters taken two at a time each spell a byte.
-/

namespace Hex

open Text Octets

def digit (c : Char) : Option ℕ :=
  if 48 ≤ c.toNat ∧ c.toNat ≤ 57 then some (c.toNat - 48)
  else if 65 ≤ c.toNat ∧ c.toNat ≤ 70 then some (c.toNat - 55)
  else if 97 ≤ c.toNat ∧ c.toNat ≤ 102 then some (c.toNat - 87)
  else none

/-- Parses a number below `bound`, which may stand behind a `+`. -/
def parse (bound : ℕ) (s : Str) : Option ℕ :=
  let digits := if s.head? = some '+' then s.tail else s
  if digits = [] then none
  else ((digits.mapM digit).map fun values => values.foldl (16 * · + ·) 0).filter (· < bound)

/-- The pairs of characters a text consists of, each with the byte it stands for. -/
def Spells (accepts : Char × Char → UInt8 → Prop) (text : Str) (bytes : Bytes) : Prop :=
  ∃ pairs : List (Char × Char), text = pairs.flatMap (fun p => [p.1, p.2]) ∧
    List.Forall₂ accepts pairs bytes

/-- Two digits, the higher one first. -/
def IsPair (p : Char × Char) (b : UInt8) : Prop :=
  ∃ high low, digit p.1 = some high ∧ digit p.2 = some low ∧ b.toNat = 16 * high + low

variable {c : Char} {n : ℕ} {b : UInt8} {text : Str}

theorem lt_of_digit_eq_some (h : digit c = some n) : n < 16 ∧ c.toNat < 128 := by
  unfold digit at h
  split_ifs at h
  all_goals
    obtain rfl := Option.some.inj h
    omega

theorem parse_of_lt {bound bound' n : ℕ} {s : Str} (h : parse bound s = some n)
    (hn : n < bound') : parse bound' s = some n := by
  unfold parse at h ⊢
  dsimp only at h ⊢
  generalize (if s.head? = some '+' then s.tail else s) = digits at h ⊢
  by_cases hd : digits = []
  · rw [if_pos hd] at h
    cases h
  · rw [if_neg hd] at h ⊢
    rw [Option.filter_eq_some_iff] at h ⊢
    exact ⟨h.1, decide_eq_true hn⟩

theorem digit_digitChar (h : n < 16) : digit (Nat.digitChar n) = some n := by
  interval_cases n <;> rfl

theorem nibble_of_ascii (h : c.toNat < 128) : nibble (UInt8.ofNat c.toNat) = digit c := by
  have hc : (UInt8.ofNat c.toNat).toNat = c.toNat := UInt8.toNat_ofNat_of_lt' (by
    change c.toNat < 256
    omega)
  unfold nibble digit
  simp only [UInt8.le_iff_toNat_le, hc]
  exact rfl

/-- A byte is written as its two digits. -/
theorem leftpad_hex (b : UInt8) : List.leftpad 2 '0' (hex b.toNat) =
    [Nat.digitChar (b.toNat / 16), Nat.digitChar (b.toNat % 16)] := by
  have hb := b.toNat_lt
  rcases Nat.lt_or_ge b.toNat 16 with hlt | hge
  · rw [hex, Nat.toDigits_of_lt_base hlt, Nat.div_eq_of_lt hlt, Nat.mod_eq_of_lt hlt]
    exact rfl
  · have hhigh : b.toNat / 16 < 16 := by omega
    rw [hex, Nat.toDigits_of_base_le (by omega) hge, Nat.toDigits_of_lt_base hhigh]
    exact rfl

theorem isPair_digits (b : UInt8) :
    IsPair (Nat.digitChar (b.toNat / 16), Nat.digitChar (b.toNat % 16)) b := by
  have hb := b.toNat_lt
  refine ⟨b.toNat / 16, b.toNat % 16, digit_digitChar ?_, digit_digitChar ?_, ?_⟩
  all_goals omega

theorem spells_hex (bytes : Bytes) :
    Spells IsPair (bytes.flatMap fun b => List.leftpad 2 '0' (hex b.toNat)) bytes := by
  refine ⟨bytes.map fun b => (Nat.digitChar (b.toNat / 16), Nat.digitChar (b.toNat % 16)), ?_, ?_⟩
  · rw [List.flatMap_map]
    exact congrArg (bytes.flatMap ·) (funext leftpad_hex)
  · rw [List.forall₂_map_left_iff, List.forall₂_same]
    intro b _
    exact isPair_digits b

theorem Spells.length {accepts : Char × Char → UInt8 → Prop} {bytes : Bytes}
    (h : Spells accepts text bytes) : text.length = 2 * bytes.length := by
  obtain ⟨pairs, rfl, hp⟩ := h
  rw [← hp.length_eq]
  clear hp
  induction pairs with
  | nil => rfl
  | cons p pairs ih =>
    rw [List.flatMap_cons, List.length_append, ih]
    simp only [List.length_cons, List.length_nil]
    omega

/-- A text of an even length consists of pairs. -/
theorem exists_pairs (h : text.length = 2 * n) :
    ∃ pairs : List (Char × Char), text = pairs.flatMap fun p => [p.1, p.2] := by
  induction n generalizing text with
  | zero => exact ⟨[], List.length_eq_zero_iff.1 h⟩
  | succ n ih =>
    cases text with
    | nil => cases h
    | cons c text =>
      cases text with
      | nil =>
        rw [List.length_singleton] at h
        omega
      | cons d text =>
        have hrest : text.length = 2 * n := by
          rw [List.length_cons, List.length_cons] at h
          omega
        obtain ⟨pairs, rfl⟩ := ih hrest
        exact ⟨(c, d) :: pairs, rfl⟩

end Hex

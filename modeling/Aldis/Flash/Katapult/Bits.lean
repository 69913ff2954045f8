import Aldis.Lib.Octets
import Aldis.Lib.Register

/-!
# The bits of a message

What an error pattern makes of the bytes it is laid over, bit by bit, and what the difference of
two messages leaves in a linear register.
-/

namespace Aldis.Katapult

open Octets Register

def byteBits (b : UInt8) : List Bool := (List.range 8).map b.toBitVec.getLsbD

/-- The bits of some bytes, the least significant one of each byte first. -/
def bits (bytes : Bytes) : List Bool := bytes.flatMap byteBits

/-- Flips the bits of a frame that are set in an error pattern. -/
def corrupt (frame pattern : Bytes) : Bytes := List.zipWith (· ^^^ ·) frame pattern

/-- The number of bits that a pattern flips. -/
def flips (pattern : Bytes) : ℕ := (bits pattern).count true

variable {w : ℕ} {poly : BitVec w}

section Register

theorem word_byteBits (b : UInt8) : (word (byteBits b) : BitVec w) = b.toBitVec.setWidth w := by
  apply BitVec.eq_of_getLsbD_eq
  intro i hi
  rw [getLsbD_word hi, BitVec.getLsbD_setWidth, byteBits]
  by_cases hlow : i < 8
  · rw [List.getD_eq_getElem _ _ (by simpa using hlow)]
    simp [hi]
  · rw [List.getD_eq_default _ _ (by simpa using hlow), BitVec.getLsbD_of_ge _ i (by omega)]
    simp

theorem run_byteBits (hw : 8 ≤ w) (s : BitVec w) (b : UInt8) :
    run poly s (byteBits b) = (step poly)^[8] (s ^^^ b.toBitVec.setWidth w) := by
  have hlen : (byteBits b).length = 8 := by simp [byteBits]
  rw [run_eq_iterate_step (by rw [hlen]; exact hw), hlen, word_byteBits]

theorem bits_append (as bs : Bytes) : bits (as ++ bs) = bits as ++ bits bs := List.flatMap_append

theorem byteBits_eq {b : UInt8} {f : ℕ → Bool} (h : ∀ i < 8, b.toBitVec.getLsbD i = f i) :
    byteBits b = (List.range 8).map f := by
  apply List.map_congr_left
  intro i hi
  exact h i (List.mem_range.1 hi)

theorem bits_le16 (n : UInt16) : bits (le16 n) = (List.range 16).map n.toBitVec.getLsbD := by
  have hrange : List.range 16 = List.range 8 ++ (List.range 8).map (8 + ·) := rfl
  have hlow : byteBits n.toUInt8 = (List.range 8).map n.toBitVec.getLsbD :=
    byteBits_eq fun i hi => by simp [hi]
  have hhigh : byteBits (n >>> 8).toUInt8 =
      (List.range 8).map fun i => n.toBitVec.getLsbD (8 + i) :=
    byteBits_eq fun i hi => by simp [hi]
  rw [hrange, List.map_append, List.map_map, ← hlow]
  change byteBits n.toUInt8 ++ (byteBits (n >>> 8).toUInt8 ++ []) = _
  rw [hhigh, List.append_nil]
  rfl

theorem bits_le32 (n : UInt32) : bits (le32 n) = (List.range 32).map n.toBitVec.getLsbD := by
  have hrange : List.range 32 = List.range 8 ++ ((List.range 8).map (8 + ·) ++
      ((List.range 8).map (16 + ·) ++ (List.range 8).map (24 + ·))) := rfl
  have h0 : byteBits n.toUInt8 = (List.range 8).map n.toBitVec.getLsbD :=
    byteBits_eq fun i hi => by simp [hi]
  have h1 : byteBits (n >>> 8).toUInt8 = (List.range 8).map fun i => n.toBitVec.getLsbD (8 + i) :=
    byteBits_eq fun i hi => by simp [hi]
  have h2 : byteBits (n >>> 16).toUInt8 =
      (List.range 8).map fun i => n.toBitVec.getLsbD (16 + i) :=
    byteBits_eq fun i hi => by simp [hi]
  have h3 : byteBits (n >>> 24).toUInt8 =
      (List.range 8).map fun i => n.toBitVec.getLsbD (24 + i) :=
    byteBits_eq fun i hi => by simp [hi]
  rw [hrange, List.map_append, List.map_append, List.map_append, List.map_map, List.map_map,
    List.map_map, ← h0]
  change byteBits n.toUInt8 ++ (byteBits (n >>> 8).toUInt8 ++ (byteBits (n >>> 16).toUInt8 ++
    (byteBits (n >>> 24).toUInt8 ++ []))) = _
  rw [h1, h2, h3, List.append_nil]
  rfl

end Register

section Difference

theorem byteBits_xor (a b : UInt8) :
    byteBits (a ^^^ b) = List.zipWith (· ^^ ·) (byteBits a) (byteBits b) := by
  simp [byteBits, List.zipWith_map]

theorem bits_corrupt {as bs : Bytes} (h : as.length = bs.length) :
    bits (corrupt as bs) = List.zipWith (· ^^ ·) (bits as) (bits bs) := by
  induction as generalizing bs with
  | nil => rfl
  | cons a as ih =>
      cases bs with
      | nil => cases h
      | cons b bs =>
          have hlen : (byteBits a).length = (byteBits b).length := by simp [byteBits]
          change byteBits (a ^^^ b) ++ bits (corrupt as bs) = List.zipWith (· ^^ ·)
            (byteBits a ++ bits as) (byteBits b ++ bits bs)
          rw [List.zipWith_append hlen, byteBits_xor, ih (Nat.succ.inj h)]

theorem corrupt_corrupt {frame pattern : Bytes} (h : pattern.length = frame.length) :
    corrupt frame (corrupt frame pattern) = pattern := by
  induction frame generalizing pattern with
  | nil => exact (List.eq_nil_of_length_eq_zero h).symm
  | cons a frame ih =>
      cases pattern with
      | nil => cases h
      | cons b pattern =>
          change (a ^^^ (a ^^^ b)) :: corrupt frame (corrupt frame pattern) = b :: pattern
          rw [ih (Nat.succ.inj h), ← UInt8.xor_assoc, UInt8.xor_self, UInt8.zero_xor]

theorem corrupt_length {frame pattern : Bytes} (h : pattern.length = frame.length) :
    (corrupt frame pattern).length = frame.length := by
  rw [corrupt, List.length_zipWith, h, Nat.min_self]

theorem corrupt_append {as bs cs ds : Bytes} (h : as.length = cs.length) :
    corrupt (as ++ bs) (cs ++ ds) = corrupt as cs ++ corrupt bs ds :=
  List.zipWith_append h

theorem corrupt_self (bytes : Bytes) : corrupt bytes bytes = List.replicate bytes.length 0 := by
  induction bytes with
  | nil => rfl
  | cons b bytes ih =>
      change (b ^^^ b) :: corrupt bytes bytes = 0 :: List.replicate bytes.length 0
      rw [ih, UInt8.xor_self]

theorem bits_length (bytes : Bytes) : (bits bytes).length = 8 * bytes.length := by
  induction bytes with
  | nil => rfl
  | cons b bytes ih =>
      change (byteBits b ++ bits bytes).length = 8 * (bytes.length + 1)
      have hlen : (byteBits b).length = 8 := by simp [byteBits]
      rw [List.length_append, ih, hlen]
      omega

theorem bits_replicate (n : ℕ) : bits (List.replicate n 0) = List.replicate (8 * n) false := by
  induction n with
  | zero => rfl
  | succ n ih =>
      change byteBits 0 ++ bits (List.replicate n 0) = _
      have hzero : byteBits 0 = List.replicate 8 false := by decide
      rw [ih, hzero, ← List.replicate_add]
      congr 1
      omega

theorem flips_corrupt_self (bytes : Bytes) : flips (corrupt bytes bytes) = 0 := by
  rw [flips, corrupt_self, bits_replicate, List.count_replicate]
  exact if_neg (by decide)

/-- Bytes that agree leave a cleared register clear. -/
theorem run_corrupt_self (bytes : Bytes) :
    run poly 0#w (bits (corrupt bytes bytes)) = 0#w := by
  rw [corrupt_self, bits_replicate, run_replicate_false, iterate_step_zero]

/-- A byte whose bits are all clear is zero. -/
theorem eq_zero_of_byteBits {b : UInt8} (h : true ∉ byteBits b) : b = 0 := by
  apply UInt8.eq_of_toBitVec_eq
  apply BitVec.eq_of_getLsbD_eq
  intro i hi
  change b.toBitVec.getLsbD i = (0#8).getLsbD i
  rw [BitVec.getLsbD_zero]
  apply Bool.eq_false_of_not_eq_true
  intro hbit
  apply h
  rw [byteBits, List.mem_map]
  exact ⟨i, List.mem_range.2 hi, hbit⟩

/-- Frames of one length that differ, differ in some bit. -/
theorem mem_bits_corrupt {as bs : Bytes} (hl : as.length = bs.length) (hne : as ≠ bs) :
    true ∈ bits (corrupt as bs) := by
  induction as generalizing bs with
  | nil => exact absurd (List.eq_nil_of_length_eq_zero hl.symm).symm hne
  | cons a as ih =>
      cases bs with
      | nil => cases hl
      | cons b bs =>
          change true ∈ byteBits (a ^^^ b) ++ bits (corrupt as bs)
          by_cases hb : true ∈ byteBits (a ^^^ b)
          · exact List.mem_append_left _ hb
          · have hab : a = b := UInt8.xor_eq_zero_iff.1 (eq_zero_of_byteBits hb)
            apply List.mem_append_right
            apply ih (Nat.succ.inj hl)
            rintro rfl
            exact hne (by rw [hab])

/-- Bytes that each leave the register clear do so in their difference. -/
theorem run_corrupt_clear {s : BitVec w} {as bs : Bytes} (hl : as.length = bs.length)
    (ha : run poly s (bits as) = 0#w) (hb : run poly s (bits bs) = 0#w) :
    run poly 0#w (bits (corrupt as bs)) = 0#w := by
  have hbits : (bits as).length = (bits bs).length := by rw [bits_length, bits_length, hl]
  calc run poly 0#w (bits (corrupt as bs))
      = run poly (s ^^^ s) (List.zipWith (· ^^ ·) (bits as) (bits bs)) := by
        rw [BitVec.xor_self, bits_corrupt hl]
    _ = run poly s (bits as) ^^^ run poly s (bits bs) := run_xor hbits
    _ = 0#w := by rw [ha, hb, BitVec.xor_self]

end Difference

end Aldis.Katapult

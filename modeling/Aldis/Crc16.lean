import Aldis.Flash.Katapult.Checksum
import Aldis.Identify.Frame

/-!
# The CRC of both protocols

Klipper's message blocks and Katapult's frames carry the same CRC, which each module computes with
shortcuts of its own. It is the reflected CRC that shifts one bit at a time.
-/

namespace Aldis.Crc16

open Octets Register Katapult

/-- One bit leaves the register; a set one adds the polynomial. -/
def shift (crc : UInt16) : UInt16 :=
  if crc &&& 1 = 1 then (crc >>> 1) ^^^ 0x8408 else crc >>> 1

def takeIn (crc : UInt16) (byte : UInt8) : UInt16 := shift^[8] (crc ^^^ byte.toUInt16)

/-- The reflected CRC with polynomial 0x8408 and initial value 0xffff, bit by bit. -/
def reflected (bytes : Bytes) : UInt16 := bytes.foldl takeIn 0xffff

section Step

theorem toBitVec_shift (crc : UInt16) : (shift crc).toBitVec = step POLYNOMIAL crc.toBitVec := by
  have hlow : crc &&& 1 = 1 ↔ crc.toBitVec.getLsbD 0 = true := by
    rw [← UInt16.toBitVec_inj]
    change crc.toBitVec &&& 1#16 = 1#16 ↔ _
    rw [BitVec.and_one_eq_setWidth_ofBool_getLsbD]
    cases crc.toBitVec.getLsbD 0 with
    | false => decide
    | true => decide
  unfold shift step
  by_cases h : crc &&& 1 = 1
  · rw [if_pos h, if_pos (hlow.1 h)]
    exact rfl
  · rw [if_neg h, if_neg (mt hlow.2 h), BitVec.xor_zero]
    exact rfl

/-- Eight shifts take in the eight bits of a byte. -/
theorem toBitVec_takeIn (crc : UInt16) (b : UInt8) :
    (takeIn crc b).toBitVec = run POLYNOMIAL crc.toBitVec (byteBits b) := by
  have hshift : Function.Semiconj UInt16.toBitVec shift (step POLYNOMIAL) := toBitVec_shift
  rw [run_byteBits (by decide), takeIn, hshift.iterate_right 8]
  exact rfl

theorem takeIn_eq_crcStep (crc : UInt16) (b : UInt8) : takeIn crc b = Katapult.crcStep crc b := by
  rw [← UInt16.toBitVec_inj, toBitVec_takeIn, crcStep_eq_run]

/-- Mixing the low half of a byte into its high half leaves the byte no wider. -/
theorem toUInt16_mixed : ∀ data : UInt8, (data ^^^ ((data &&& 0x0f) <<< 4)).toUInt16 =
    data.toUInt16 ^^^ ((data.toUInt16 &&& 0x0f) <<< 4) := by
  decide +kernel

/-- Computing in bytes or in words makes no difference. -/
theorem crcStep_eq_crcStep (crc : UInt16) (b : UInt8) :
    Identify.crcStep crc b = Katapult.crcStep crc b := by
  have hdata : (b ^^^ (crc &&& 0xff).toUInt8).toUInt16 = b.toUInt16 ^^^ (crc &&& 0xff) := by
    rw [← UInt16.toBitVec_inj]
    change (b.toBitVec ^^^ (crc.toBitVec &&& 0xff#16).setWidth 8).setWidth 16 =
      b.toBitVec.setWidth 16 ^^^ (crc.toBitVec &&& 0xff#16)
    apply BitVec.eq_of_getLsbD_eq
    intro i hi
    simp only [BitVec.getLsbD_setWidth, BitVec.getLsbD_xor, BitVec.getLsbD_and,
      getLsbD_octet i hi]
    by_cases h : i < 8
    · simp [h, hi]
    · simp [h, hi, BitVec.getLsbD_of_ge b.toBitVec i (by omega)]
  unfold Identify.crcStep Katapult.crcStep
  dsimp only
  rw [toUInt16_mixed, hdata]

end Step

/-- Both implementations compute the reflected CRC. -/
theorem crc16_standard (bytes : Bytes) :
    Identify.crc16Ccitt bytes = Katapult.crc16Ccitt bytes ∧
      Katapult.crc16Ccitt bytes = reflected bytes := by
  have hidentify : Identify.crcStep = Katapult.crcStep := by
    funext crc b
    exact crcStep_eq_crcStep crc b
  have hreflected : takeIn = Katapult.crcStep := by
    funext crc b
    exact takeIn_eq_crcStep crc b
  constructor
  · rw [Identify.crc16Ccitt, Katapult.crc16Ccitt, hidentify]
  · rw [reflected, Katapult.crc16Ccitt, hreflected]

end Aldis.Crc16

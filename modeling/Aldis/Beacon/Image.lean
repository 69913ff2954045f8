import Aldis.Beacon
import Aldis.Flash.Katapult.Bits

/-!
# DFU images of a Beacon

What a DFU suffix says is read back, and since an accepted file leaves the register of its CRC
clear, a short burst of errors anywhere in it is detected.
-/

namespace Aldis.Beacon

open Octets Katapult Register

/-- The polynomial of CRC-32, the highest power last. -/
def DFU_POLYNOMIAL : BitVec 32 := 0xedb88320#32

/-- A payload with the suffix that the DFU standard gives it. Fields of a later version of the
standard stand at the suffix's beginning. -/
def suffixed (payload fields : Bytes) (version productId dfu : UInt16) : Bytes :=
  let checked := payload ++ (fields ++ le16 version ++ le16 productId ++ le16 VENDOR_ID ++
    le16 dfu ++ SUFFIX_SIGNATURE ++ [UInt8.ofNat (SUFFIX_LENGTH + fields.length)])
  checked ++ le32 (dfuCrc checked)

section Register

theorem dfuCrcStep_eq_step (crc : UInt32) :
    (dfuCrcStep crc).toBitVec = step DFU_POLYNOMIAL crc.toBitVec := by
  have hlow : crc &&& 1 = 1 ↔ crc.toBitVec.getLsbD 0 = true := by
    rw [← UInt32.toBitVec_inj, UInt32.toBitVec_and]
    change crc.toBitVec &&& 1#32 = 1#32 ↔ _
    rw [BitVec.and_one_eq_setWidth_ofBool_getLsbD]
    cases crc.toBitVec.getLsbD 0 <;> decide
  unfold dfuCrcStep step
  by_cases h : crc &&& 1 = 1
  · rw [if_pos h, if_pos (hlow.1 h)]
    simp [DFU_POLYNOMIAL]
  · rw [if_neg h, if_neg (mt hlow.2 h)]
    simp

theorem iterate_dfuCrcStep (n : ℕ) (crc : UInt32) :
    (dfuCrcStep^[n] crc).toBitVec = (step DFU_POLYNOMIAL)^[n] crc.toBitVec := by
  induction n generalizing crc with
  | zero => rfl
  | succ n ih =>
      rw [Function.iterate_succ_apply, ih, dfuCrcStep_eq_step, Function.iterate_succ_apply]

/-- The CRC of some bytes is what they leave in the register. -/
theorem dfuCrc_eq_run (bytes : Bytes) :
    (dfuCrc bytes).toBitVec = run DFU_POLYNOMIAL 0xffffffff#32 (bits bytes) := by
  have hall : ∀ crc : UInt32,
      (bytes.foldl (fun crc byte => dfuCrcStep^[8] (crc ^^^ byte.toUInt32)) crc).toBitVec =
        run DFU_POLYNOMIAL crc.toBitVec (bits bytes) := by
    induction bytes with
    | nil => exact fun _ => rfl
    | cons b bytes ih =>
        intro crc
        have hbits : bits (b :: bytes) = byteBits b ++ bits bytes := rfl
        rw [List.foldl_cons, ih, iterate_dfuCrcStep, hbits, run_append, run_byteBits (by decide)]
        exact rfl
  exact hall 0xFFFFFFFF

/-- A file that ends with the CRC of what precedes it leaves the register clear. -/
theorem run_checked (checked : Bytes) :
    run DFU_POLYNOMIAL 0xffffffff#32 (bits (checked ++ le32 (dfuCrc checked))) = 0#32 := by
  rw [bits_append, run_append, ← dfuCrc_eq_run, bits_le32, run_getLsbD]

end Register

section Parse

variable {V : Type} [Semver V] {file pattern : Bytes} {image : FirmwareImage V}

/-- An accepted file ends with the CRC of what precedes it. -/
theorem exists_checked (h : parseImage file = .ok image) :
    ∃ checked, file = checked ++ le32 (dfuCrc checked) := by
  unfold parseImage at h
  dsimp only at h
  split_ifs at h with hshort hsig hlen hcrc hvendor hempty
  have hlong : 16 ≤ file.length := Nat.not_lt.1 hshort
  rw [not_not, List.drop_drop] at hcrc
  have hlast : file.length - SUFFIX_LENGTH + 12 = file.length - 4 := by
    change file.length - 16 + 12 = _
    omega
  rw [hlast] at hcrc
  refine ⟨file.take (file.length - 4), ?_⟩
  have hfour : (file.drop (file.length - 4)).length = 4 := by
    rw [List.length_drop]
    omega
  obtain ⟨a, b, c, d, htail⟩ := List.length_eq_four.1 hfour
  rw [hcrc, htail, le32_fromLe32, ← htail, List.take_append_drop]

theorem run_of_parseImage (h : parseImage file = .ok image) :
    run DFU_POLYNOMIAL 0xffffffff#32 (bits file) = 0#32 := by
  obtain ⟨checked, rfl⟩ := exists_checked h
  exact run_checked checked

theorem parseImage_suffixed {payload fields : Bytes} (version productId dfu : UInt16)
    (hne : payload ≠ []) (hl : SUFFIX_LENGTH + fields.length < 256) :
    parseImage (suffixed payload fields version productId dfu) =
      .ok (⟨payload, VENDOR_ID, productId, versionFromBcd version⟩ : FirmwareImage V) := by
  let tail := le16 version ++ le16 productId ++ le16 VENDOR_ID ++ le16 dfu ++ SUFFIX_SIGNATURE ++
    [UInt8.ofNat (SUFFIX_LENGTH + fields.length)]
  let checked := payload ++ (fields ++ tail)
  have hfile : suffixed payload fields version productId dfu =
      checked ++ le32 (dfuCrc checked) := by
    simp only [suffixed, checked, tail, List.append_assoc]
  have hsplit : checked ++ le32 (dfuCrc checked) =
      (payload ++ fields) ++ (tail ++ le32 (dfuCrc checked)) := by
    simp only [checked, List.append_assoc]
  have htail : (tail ++ le32 (dfuCrc checked)).length = SUFFIX_LENGTH := rfl
  have hlen : (checked ++ le32 (dfuCrc checked)).length =
      payload.length + fields.length + SUFFIX_LENGTH := by
    rw [hsplit, List.length_append, List.length_append, htail]
  have hsuffix : (checked ++ le32 (dfuCrc checked)).drop
      ((checked ++ le32 (dfuCrc checked)).length - SUFFIX_LENGTH) =
      tail ++ le32 (dfuCrc checked) := by
    rw [hlen, Nat.add_sub_cancel, hsplit, ← List.length_append, List.drop_left]
  have hchecked : (checked ++ le32 (dfuCrc checked)).take
      ((checked ++ le32 (dfuCrc checked)).length - 4) = checked := by
    rw [List.length_append, le32_length, Nat.add_sub_cancel, List.take_left]
  have hbyte : (UInt8.ofNat (SUFFIX_LENGTH + fields.length)).toNat =
      SUFFIX_LENGTH + fields.length := UInt8.toNat_ofNat_of_lt' hl
  have hpayload : (checked ++ le32 (dfuCrc checked)).take
      ((checked ++ le32 (dfuCrc checked)).length - (SUFFIX_LENGTH + fields.length)) = payload := by
    have hcount : payload.length + fields.length + SUFFIX_LENGTH -
        (SUFFIX_LENGTH + fields.length) = payload.length := by omega
    rw [hlen, hcount]
    simp only [checked, List.append_assoc, List.take_left]
  have hcrc : fromLe32 ((tail ++ le32 (dfuCrc checked)).drop 12) = dfuCrc checked :=
    fromLe32_le32 (dfuCrc checked) []
  have hvendor : fromLe16 ((tail ++ le32 (dfuCrc checked)).drop 4) = VENDOR_ID :=
    fromLe16_le16 VENDOR_ID _
  have hproduct : fromLe16 ((tail ++ le32 (dfuCrc checked)).drop 2) = productId :=
    fromLe16_le16 productId _
  have hversion : fromLe16 ((tail ++ le32 (dfuCrc checked)).drop 0) = version :=
    fromLe16_le16 version _
  have hstored : (tail ++ le32 (dfuCrc checked)).getD 11 0 =
      UInt8.ofNat (SUFFIX_LENGTH + fields.length) := rfl
  have hsignature : ((tail ++ le32 (dfuCrc checked)).drop 8).take 3 = SUFFIX_SIGNATURE := rfl
  have hlong : ¬ (checked ++ le32 (dfuCrc checked)).length < SUFFIX_LENGTH := by omega
  have hfits : ¬ (SUFFIX_LENGTH + fields.length < SUFFIX_LENGTH ∨
      (checked ++ le32 (dfuCrc checked)).length < SUFFIX_LENGTH + fields.length) := by omega
  rw [hfile]
  clear_value checked tail
  unfold parseImage
  simp only [hsuffix, hchecked, hcrc, hvendor, hproduct, hversion, hstored, hbyte, hpayload,
    hsignature, if_neg hlong, if_neg hfits, ne_eq, not_true_eq_false, if_false, hne]

/-- Two accepted files of one length differ by no short burst. -/
theorem not_burst_of_accepted {other : Bytes} {image' : FirmwareImage V}
    (h : parseImage file = .ok image) (ho : parseImage other = .ok image')
    (hl : file.length = other.length) (hne : file ≠ other) :
    ¬ Burst 32 (bits (corrupt file other)) := by
  have hclear := run_corrupt_clear hl (run_of_parseImage h) (run_of_parseImage ho)
  exact Register.not_burst (by decide) hclear (mem_bits_corrupt hl hne)

end Parse

/-- A payload is read back from behind its suffix, and a burst of up to 32 flipped bits anywhere
in an accepted file, even where its suffix says how long it is, makes the file one that is
rejected. -/
theorem image_exact_and_damage_detected (V : Type) [Semver V] :
    (∀ (payload fields : Bytes) (version productId dfu : UInt16), payload ≠ [] →
      SUFFIX_LENGTH + fields.length < 256 →
      parseImage (suffixed payload fields version productId dfu) =
        .ok (⟨payload, VENDOR_ID, productId, versionFromBcd version⟩ : FirmwareImage V)) ∧
    ∀ (file pattern : Bytes) (image : FirmwareImage V), parseImage file = .ok image →
      pattern.length = file.length → 1 ≤ flips pattern → Burst 32 (bits pattern) →
      ∃ e, parseImage (V := V) (corrupt file pattern) = .error e := by
  constructor
  · intro payload fields version productId dfu hne hl
    exact parseImage_suffixed version productId dfu hne hl
  · intro file pattern image h hl hflip hburst
    cases ho : parseImage (V := V) (corrupt file pattern) with
    | error e => exact ⟨e, rfl⟩
    | ok image' =>
        exfalso
        have hsame : corrupt file (corrupt file pattern) = pattern := corrupt_corrupt hl
        have hlen : file.length = (corrupt file pattern).length := (corrupt_length hl).symm
        have hne : file ≠ corrupt file pattern := by
          intro heq
          have hnone : flips (corrupt file file) = 0 := flips_corrupt_self file
          rw [← heq] at hsame
          rw [hsame] at hnone
          omega
        have hwindow := not_burst_of_accepted h ho hlen hne
        rw [hsame] at hwindow
        exact hwindow hburst

end Aldis.Beacon

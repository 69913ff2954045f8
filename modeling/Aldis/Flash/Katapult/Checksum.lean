import Aldis.Flash.Katapult.Grammar
import Aldis.Flash.Katapult.Bits

/-!
# What the CRC of a Katapult reply detects

The CRC step is eight steps of a linear register, and a reply leaves that register clear. So the
difference of two accepted replies of one length is an undetected input of the register, which
bounds from below how far apart they are.
-/

namespace Aldis.Katapult

open Octets Register

/-- x¹⁶ + x¹² + x⁵ + 1, the highest power last. -/
def POLYNOMIAL : BitVec 16 := 0x8408#16

section Register

theorem or_shifted_eq_xor (x y : BitVec 16) :
    (x <<< 8) ||| (y >>> 8) = (x <<< 8) ^^^ (y >>> 8) := by
  apply BitVec.eq_of_getLsbD_eq
  intro i hi
  rw [BitVec.getLsbD_or, BitVec.getLsbD_xor, BitVec.getLsbD_shiftLeft, BitVec.getLsbD_ushiftRight]
  by_cases hlow : i < 8
  · simp [hlow]
  · rw [BitVec.getLsbD_of_ge y (8 + i) (by omega)]
    simp

/-- What the octet that leaves the register adds to the rest of it. -/
def crcTable (data : BitVec 16) : BitVec 16 :=
  let data := data ^^^ ((data &&& 0x0f#16) <<< 4)
  (data <<< 8) ^^^ (data >>> 4) ^^^ (data <<< 3)

theorem crcStep_eq_table (crc : UInt16) (b : UInt8) : (crcStep crc b).toBitVec =
    crcTable (b.toBitVec.setWidth 16 ^^^ (crc.toBitVec &&& 0xff#16)) ^^^ (crc.toBitVec >>> 8) := by
  let data := b.toBitVec.setWidth 16 ^^^ (crc.toBitVec &&& 0xff#16)
  let mixed := data ^^^ ((data &&& 0x0f#16) <<< 4)
  change ((mixed <<< 8) ||| (crc.toBitVec >>> 8)) ^^^ (mixed >>> 4) ^^^ (mixed <<< 3) =
    (mixed <<< 8) ^^^ (mixed >>> 4) ^^^ (mixed <<< 3) ^^^ (crc.toBitVec >>> 8)
  rw [or_shifted_eq_xor]
  ac_rfl

theorem crcTable_eq_steps :
    ∀ n < 256, crcTable (BitVec.ofNat 16 n) = (step POLYNOMIAL)^[8] (BitVec.ofNat 16 n) := by
  decide +kernel

theorem getLsbD_octet : ∀ i < 16, (0xff#16).getLsbD i = decide (i < 8) := by
  decide

theorem octet_rest (x : BitVec 16) : x ^^^ (x &&& 0xff#16) = x >>> 8 <<< 8 := by
  apply BitVec.eq_of_getLsbD_eq
  intro i hi
  rw [BitVec.getLsbD_xor, BitVec.getLsbD_and, getLsbD_octet i hi, BitVec.getLsbD_shiftLeft,
    BitVec.getLsbD_ushiftRight]
  by_cases hlow : i < 8
  · simp [hlow]
  · have hindex : 8 + (i - 8) = i := by omega
    simp [hi, hlow, hindex]

theorem octet_split (x : BitVec 16) : x = (x &&& 0xff#16) ^^^ (x >>> 8 <<< 8) := by
  rw [← octet_rest, BitVec.xor_comm x, ← BitVec.xor_assoc, BitVec.xor_self, BitVec.zero_xor]

theorem iterate_step_high (x : BitVec 16) : (step POLYNOMIAL)^[8] (x >>> 8 <<< 8) = x >>> 8 := by
  rw [iterate_step_of_low fun i hi => by simp [BitVec.getLsbD_shiftLeft, hi]]
  apply BitVec.eq_of_getLsbD_eq
  intro i hi
  rw [BitVec.getLsbD_ushiftRight, BitVec.getLsbD_shiftLeft, Nat.add_sub_cancel_left,
    BitVec.getLsbD_ushiftRight]
  by_cases htop : 8 + i < 16
  · simp [htop]
  · rw [BitVec.getLsbD_of_ge x (8 + i) (by omega), Bool.and_false]

/-- The low octet of a register is what its table turns it into, eight steps later. -/
theorem iterate_step_octet (x : BitVec 16) :
    (step POLYNOMIAL)^[8] x = crcTable (x &&& 0xff#16) ^^^ (x >>> 8) := by
  have hlow : crcTable (x &&& 0xff#16) = (step POLYNOMIAL)^[8] (x &&& 0xff#16) := by
    have hlt : (x &&& 0xff#16).toNat < 256 := by
      rw [BitVec.toNat_and]
      exact Nat.and_lt_two_pow _ (by decide : (0xff#16).toNat < 2 ^ 8)
    have htable := crcTable_eq_steps _ hlt
    rwa [BitVec.ofNat_toNat, BitVec.setWidth_eq] at htable
  calc (step POLYNOMIAL)^[8] x
      = (step POLYNOMIAL)^[8] ((x &&& 0xff#16) ^^^ (x >>> 8 <<< 8)) := by rw [← octet_split]
    _ = (step POLYNOMIAL)^[8] (x &&& 0xff#16) ^^^ (step POLYNOMIAL)^[8] (x >>> 8 <<< 8) :=
        iterate_step_xor 8 _ _
    _ = crcTable (x &&& 0xff#16) ^^^ (x >>> 8) := by rw [hlow, iterate_step_high]

/-- One step of the CRC takes in the eight bits of a byte. -/
theorem crcStep_eq_run (crc : UInt16) (b : UInt8) :
    (crcStep crc b).toBitVec = run POLYNOMIAL crc.toBitVec (byteBits b) := by
  have hlow : (crc.toBitVec ^^^ b.toBitVec.setWidth 16) &&& 0xff#16 =
      b.toBitVec.setWidth 16 ^^^ (crc.toBitVec &&& 0xff#16) := by
    apply BitVec.eq_of_getLsbD_eq
    intro i hi
    simp only [BitVec.getLsbD_and, BitVec.getLsbD_xor, BitVec.getLsbD_setWidth,
      getLsbD_octet i hi]
    by_cases h : i < 8
    · simp [h, hi, Bool.xor_comm]
    · simp [h, BitVec.getLsbD_of_ge b.toBitVec i (by omega)]
  have hhigh : (crc.toBitVec ^^^ b.toBitVec.setWidth 16) >>> 8 = crc.toBitVec >>> 8 := by
    apply BitVec.eq_of_getLsbD_eq
    intro i _
    simp
  rw [crcStep_eq_table, run_byteBits (by decide), iterate_step_octet, hlow, hhigh]

theorem crc_eq_run (crc : UInt16) (bytes : Bytes) :
    (bytes.foldl crcStep crc).toBitVec = run POLYNOMIAL crc.toBitVec (bits bytes) := by
  induction bytes generalizing crc with
  | nil => rfl
  | cons b bytes ih =>
      change (bytes.foldl crcStep (crcStep crc b)).toBitVec =
        run POLYNOMIAL crc.toBitVec (byteBits b ++ bits bytes)
      rw [ih, crcStep_eq_run, run_append]

/-- What precedes the trailer of a frame leaves the register clear. -/
theorem run_checked (body : Bytes) :
    run POLYNOMIAL 0xffff#16 (bits (body ++ le16 (crc16Ccitt body))) = 0#16 := by
  have hcrc : run POLYNOMIAL 0xffff#16 (bits body) = (crc16Ccitt body).toBitVec :=
    (crc_eq_run 0xffff body).symm
  rw [bits_append, run_append, hcrc, bits_le16, run_getLsbD]

end Register

section Difference

/-- An accepted frame, up to what every one of them shares. -/
theorem exists_checked {frame : Bytes} {response : Response}
    (h : decodeResponse frame = .ok response) :
    ∃ body, frame = HEADER ++ ((body ++ le16 (crc16Ccitt body)) ++ TRAILER) ∧
      frame.length ≤ MAX_RESPONSE_FRAME_BYTES := by
  obtain ⟨⟨_, hl⟩, rfl⟩ := eq_reply_of_decodeResponse h
  refine ⟨ACK_SUCCESS :: UInt8.ofNat ((le32 response.command ++ response.data).length / 4) ::
    (le32 response.command ++ response.data), ?_, ?_⟩
  · simp only [reply, Katapult.frame, List.append_assoc]
  · have hl' : response.data.length + 4 ≤ 1020 := hl
    rw [reply, frame_eq]
    change _ ≤ 1028
    simp only [List.length_cons, List.length_append, le32_length, List.length_nil]
    omega

/-- The difference of two accepted replies of one length is not detected. -/
theorem run_difference {frame other : Bytes} {response response' : Response}
    (h : decodeResponse frame = .ok response) (ho : decodeResponse other = .ok response')
    (hl : frame.length = other.length) :
    run POLYNOMIAL 0#16 (bits (corrupt frame other)) = 0#16 := by
  obtain ⟨body, rfl, _⟩ := exists_checked h
  obtain ⟨body', rfl, _⟩ := exists_checked ho
  have hchecked : (body ++ le16 (crc16Ccitt body)).length =
      (body' ++ le16 (crc16Ccitt body')).length := by
    simpa only [List.length_append, Nat.add_left_cancel_iff, Nat.add_right_cancel_iff] using hl
  rw [corrupt_append rfl, corrupt_append hchecked, bits_append, bits_append, run_append,
    run_append, run_corrupt_self,
    run_corrupt_clear hchecked (run_checked body) (run_checked body'), run_corrupt_self]

end Difference

section Detection

/-- The polynomial detects in the longest frame what it detects at all. -/
theorem detecting : Detecting POLYNOMIAL (8 * MAX_RESPONSE_FRAME_BYTES) where
  msb := by decide
  odd := by decide +kernel
  unreturned d hd hn := by
    have hclear : staysClear POLYNOMIAL 8224 1#16 = true := by decide +kernel
    have hn' : d < 8224 := hn
    exact ne_one_of_staysClear hclear hd hn'.le

variable {frame other : Bytes} {response response' : Response}

theorem four_le_flips (h : decodeResponse frame = .ok response)
    (ho : decodeResponse other = .ok response') (hl : frame.length = other.length)
    (hne : frame ≠ other) : 4 ≤ flips (corrupt frame other) := by
  obtain ⟨_, _, hmax⟩ := exists_checked h
  have hlen : (bits (corrupt frame other)).length ≤ 8 * MAX_RESPONSE_FRAME_BYTES := by
    rw [bits_length, corrupt_length hl.symm]
    omega
  exact detecting.four_le_count (by decide) hlen (run_difference h ho hl) (mem_bits_corrupt hl hne)

theorem not_burst (h : decodeResponse frame = .ok response)
    (ho : decodeResponse other = .ok response') (hl : frame.length = other.length)
    (hne : frame ≠ other) : ¬ Burst 16 (bits (corrupt frame other)) :=
  Register.not_burst detecting.msb (run_difference h ho hl) (mem_bits_corrupt hl hne)

/-- An error pattern that flips one to three bits, or some bits of a window of sixteen, makes an
accepted frame one that is rejected. Two accepted frames of one length differ in four bits. -/
theorem corrupted_reply_rejected :
    (∀ (frame pattern : Bytes) (response : Response), decodeResponse frame = .ok response →
      pattern.length = frame.length →
      (1 ≤ flips pattern ∧ flips pattern ≤ 3) ∨
        (1 ≤ flips pattern ∧ Burst 16 (bits pattern)) →
      ∃ e, decodeResponse (corrupt frame pattern) = .error e) ∧
    ∀ (frame other : Bytes) (response response' : Response),
      decodeResponse frame = .ok response → decodeResponse other = .ok response' →
      frame.length = other.length → frame ≠ other → 4 ≤ flips (corrupt frame other) := by
  constructor
  · intro frame pattern response h hl hflips
    cases ho : decodeResponse (corrupt frame pattern) with
    | error e => exact ⟨e, rfl⟩
    | ok response' =>
        exfalso
        have hsame : corrupt frame (corrupt frame pattern) = pattern := corrupt_corrupt hl
        have hlen : frame.length = (corrupt frame pattern).length := (corrupt_length hl).symm
        have hflip : 1 ≤ flips pattern := by
          obtain ⟨hsome, _⟩ | ⟨hsome, _⟩ := hflips
          · exact hsome
          · exact hsome
        have hne : frame ≠ corrupt frame pattern := by
          intro heq
          have hzero : flips (corrupt frame frame) = 0 := flips_corrupt_self frame
          rw [← heq] at hsame
          rw [← hsame] at hflip
          omega
        have hmany := four_le_flips h ho hlen hne
        have hburst := not_burst h ho hlen hne
        rw [hsame] at hmany hburst
        obtain ⟨_, hfew⟩ | ⟨_, hwindow⟩ := hflips
        · omega
        · exact hburst hwindow
  · intro frame other response response' h ho hl hne
    exact four_le_flips h ho hl hne

def threeBits : Bytes := [0, 0, 0, 4, 0, 0, 0, 0, 0, 0, 0, 0, 0, 128, 0, 0, 1, 0, 0, 0]

theorem flipped_reply_rejected :
    decodeResponse (reply 0x15 [0, 0, 0, 0, 0, 1, 0, 0]) = .ok ⟨0x15, [0, 0, 0, 0, 0, 1, 0, 0]⟩ ∧
      ∃ e, decodeResponse (corrupt (reply 0x15 [0, 0, 0, 0, 0, 1, 0, 0]) threeBits) = .error e := by
  have hreply : decodeResponse (reply 0x15 [0, 0, 0, 0, 0, 1, 0, 0]) =
    .ok ⟨0x15, [0, 0, 0, 0, 0, 1, 0, 0]⟩ := by decide +kernel
  have hlen : threeBits.length = (reply 0x15 [0, 0, 0, 0, 0, 1, 0, 0]).length := by decide +kernel
  have hflips : 1 ≤ flips threeBits ∧ flips threeBits ≤ 3 := by decide +kernel
  exact ⟨hreply, corrupted_reply_rejected.1 _ _ _ hreply hlen (.inl hflips)⟩

end Detection

end Aldis.Katapult

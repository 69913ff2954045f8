import Aldis.Lib.Octets
import Aldis.Lib.Scanner
import Mathlib.Data.FinEnum
import Mathlib.Data.List.GetD

/-!
# Klipper's message blocks

Variable-length integers, the blocks that carry messages, and the decoder that finds blocks in a
stream of bytes.
-/

namespace Aldis.Identify

open Octets Scanner

def MESSAGE_MIN : ℕ := 5
def MESSAGE_MAX : ℕ := 64
def MESSAGE_DEST : UInt8 := 0x10
def MESSAGE_SEQ_MASK : UInt8 := 0x0f
def MESSAGE_SYNC : UInt8 := 0x7e
def IDENTIFY_RESPONSE_ID : UInt32 := 0
def IDENTIFY_ID : UInt32 := 1
def IDENTIFY_CHUNK : UInt8 := 40

def crcStep (crc : UInt16) (byte : UInt8) : UInt16 :=
  let data := byte ^^^ (crc &&& 0xff).toUInt8
  let data := data ^^^ ((data &&& 0x0f) <<< 4)
  let data := data.toUInt16
  ((data <<< 8) ||| (crc >>> 8)) ^^^ (data >>> 4) ^^^ (data <<< 3)

def crc16Ccitt (buffer : Bytes) : UInt16 := buffer.foldl crcStep 0xffff

def be16 (n : UInt16) : Bytes := [(n >>> 8).toUInt8, n.toUInt8]

def fromBe16 (high low : UInt8) : UInt16 := (high.toUInt16 <<< 8) ||| low.toUInt16

/-! ### Integers -/

/-- One byte of an integer that goes on after it. -/
def vlqDigit (value : UInt32) (shift : UInt32) : UInt8 :=
  ((value >>> shift) &&& 0x7f).toUInt8 ||| 0x80

/-- Klipper's variable-length integer encoding, unsigned values only. -/
def encodeVlq (value : UInt32) : Bytes :=
  (if value ≥ 0xc000000 then [vlqDigit value 28] else []) ++
    (if value ≥ 0x180000 then [vlqDigit value 21] else []) ++
    (if value ≥ 0x3000 then [vlqDigit value 14] else []) ++
    (if value ≥ 0x60 then [vlqDigit value 7] else []) ++ [(value &&& 0x7f).toUInt8]

def decodeVlqRest (value : UInt32) (byte : UInt8) : Bytes → Option (UInt32 × Bytes)
  | [] => if byte &&& 0x80 = 0 then some (value, []) else none
  | next :: rest =>
    if byte &&& 0x80 = 0 then some (value, next :: rest)
    else decodeVlqRest ((value <<< 7) ||| (next &&& 0x7f).toUInt32) next rest

def decodeVlq : Bytes → Option (UInt32 × Bytes)
  | [] => none
  | byte :: rest =>
    let value := (byte &&& 0x7f).toUInt32
    decodeVlqRest (if byte &&& 0x60 = 0x60 then value ||| ~~~ 0x1f else value) byte rest

/-! ### Frames -/

def encodeFrame (seq : UInt8) (payload : Bytes) : Bytes :=
  let frame := [UInt8.ofNat (payload.length + MESSAGE_MIN),
    MESSAGE_DEST ||| (seq &&& MESSAGE_SEQ_MASK)] ++ payload
  frame ++ be16 (crc16Ccitt frame) ++ [MESSAGE_SYNC]

def identifyRequest (seq : UInt8) (offset : UInt32) (count : UInt8) : Bytes :=
  encodeFrame seq (encodeVlq IDENTIFY_ID ++ encodeVlq offset ++ encodeVlq count.toUInt32)

/-- One validated message block: the raw sequence byte, and a payload that is empty for an
ACK or NAK. -/
structure Frame where
  seq : UInt8
  payload : Bytes
  deriving DecidableEq

def block (buffer : Bytes) : Verdict Frame :=
  match buffer with
  | [] => .wait
  | first :: _ =>
    let len := first.toNat
    if ¬ (MESSAGE_MIN ≤ len ∧ len ≤ MESSAGE_MAX) then .skip
    else if buffer.length < len then .wait
    else
      let block := buffer.take len
      let crc := fromBe16 (block.getD (len - 3) 0) (block.getD (len - 2) 0)
      let valid := block.getD (len - 1) 0 = MESSAGE_SYNC ∧
        block.getD 1 0 &&& ~~~ MESSAGE_SEQ_MASK = MESSAGE_DEST ∧
        crc16Ccitt (block.take (len - 3)) = crc
      if ¬ valid then .skip
      else .found ⟨block.getD 1 0, (block.take (len - 3)).drop 2⟩ len

/-- The next frame of the decoder's buffer, discarding bytes until a valid block starts. -/
def nextFrame (buffer : Bytes) : Option Frame × Bytes := next block buffer

def parseIdentifyResponse (payload : Bytes) : Option (UInt32 × Bytes) := do
  let (id, rest) ← decodeVlq payload
  if id ≠ IDENTIFY_RESPONSE_ID then none
  else
    let (offset, rest) ← decodeVlq rest
    match rest with
    | [] => none
    | len :: rest => if len.toNat ≤ rest.length then some (offset, rest.take len.toNat) else none

/-! ### Round trips -/

theorem fromBe16_be16 (n : UInt16) : fromBe16 (n >>> 8).toUInt8 n.toUInt8 = n := by
  rw [fromBe16, UInt16.or_comm]
  exact low_or_high n

theorem toNat_shift_or {a b : UInt32} (hb : b.toNat < 128) :
    ((a <<< 7) ||| b).toNat = a.toNat * 128 % 2 ^ 32 + b.toNat := by
  have h7 : (7 : UInt32).toNat % 32 = 7 := rfl
  have hmod : a.toNat * 2 ^ 7 % 2 ^ 32 = 2 ^ 7 * (a.toNat % 2 ^ 25) := by omega
  rw [UInt32.toNat_or, UInt32.toNat_shiftLeft, h7, Nat.shiftLeft_eq, hmod,
    ← Nat.two_pow_add_eq_or_of_lt hb]
  omega

theorem toNat_digit (value shift : UInt32) :
    ((value >>> shift) &&& 0x7f).toNat = value.toNat / 2 ^ (shift.toNat % 32) % 128 := by
  rw [UInt32.toNat_and, UInt32.toNat_shiftRight, Nat.shiftRight_eq_div_pow]
  exact Nat.and_two_pow_sub_one_eq_mod _ 7

theorem continued_byte : ∀ a : UInt8, a < 0x80 →
    (a ||| 0x80) &&& 0x80 ≠ 0 ∧ (a ||| 0x80) &&& 0x7f = a := by
  decide +kernel

theorem last_byte : ∀ a : UInt8, a < 0x80 → a &&& 0x80 = 0 ∧ a &&& 0x7f = a := by
  decide +kernel

theorem unsigned_byte : ∀ a : UInt8, a < 0x60 →
    a &&& 0x60 ≠ 0x60 ∧ (a ||| 0x80) &&& 0x60 ≠ 0x60 := by
  decide +kernel

/-- Seven bits of an integer. -/
def digit (value shift : UInt32) : UInt32 := (value >>> shift) &&& 0x7f

theorem digit_lt (value shift : UInt32) : (digit value shift).toNat < 128 := by
  rw [digit, toNat_digit]
  exact Nat.mod_lt _ (by decide)

theorem low_lt (value : UInt32) : (value &&& 0x7f).toNat < 128 := by
  rw [UInt32.toNat_and]
  exact Nat.lt_of_le_of_lt Nat.and_le_right (by decide)

theorem toNat_lt_of_not_ge {v k : UInt32} (h : ¬ v ≥ k) : v.toNat < k.toNat := by
  rw [ge_iff_le, UInt32.le_iff_toNat_le, not_le] at h
  exact h

theorem toUInt8_lt {value : UInt32} {bound : UInt8} (h : value.toNat < bound.toNat) :
    value.toUInt8 < bound := by
  have hsize := bound.toNat_lt
  rw [UInt8.lt_iff_toNat_lt, UInt32.toNat_toUInt8, Nat.mod_eq_of_lt (by omega)]
  exact h

theorem toUInt32_toUInt8 {value : UInt32} (h : value.toNat < 128) :
    value.toUInt8.toUInt32 = value := by
  rw [← UInt32.toNat_inj, UInt8.toNat_toUInt32, UInt32.toNat_toUInt8, Nat.mod_eq_of_lt (by omega)]

theorem rest_digit {value v s s' : UInt32} {rest : Bytes} :
    decodeVlqRest value (vlqDigit v s) (vlqDigit v s' :: rest) =
      decodeVlqRest ((value <<< 7) ||| digit v s') (vlqDigit v s') rest := by
  obtain ⟨hmore, -⟩ := continued_byte (digit v s).toUInt8 (toUInt8_lt (digit_lt v s))
  obtain ⟨-, hvalue⟩ := continued_byte (digit v s').toUInt8 (toUInt8_lt (digit_lt v s'))
  have hnext : (vlqDigit v s' &&& 0x7f).toUInt32 = digit v s' := by
    change (((digit v s').toUInt8 ||| 0x80) &&& 0x7f).toUInt32 = digit v s'
    rw [hvalue, toUInt32_toUInt8 (digit_lt v s')]
  rw [decodeVlqRest, if_neg (show ¬ vlqDigit v s &&& 0x80 = 0 from hmore), hnext]

theorem rest_last {value v s : UInt32} {rest : Bytes} :
    decodeVlqRest value (vlqDigit v s) ((v &&& 0x7f).toUInt8 :: rest) =
      some ((value <<< 7) ||| (v &&& 0x7f), rest) := by
  obtain ⟨hmore, -⟩ := continued_byte (digit v s).toUInt8 (toUInt8_lt (digit_lt v s))
  obtain ⟨hend, hvalue⟩ := last_byte (v &&& 0x7f).toUInt8 (toUInt8_lt (low_lt v))
  rw [decodeVlqRest, if_neg (show ¬ vlqDigit v s &&& 0x80 = 0 from hmore), hvalue,
    toUInt32_toUInt8 (low_lt v)]
  cases rest with
  | nil => rw [decodeVlqRest, if_pos hend]
  | cons next rest => rw [decodeVlqRest, if_pos hend]

theorem decodeVlq_digit {v s : UInt32} {rest : Bytes} (h : (digit v s).toNat < 0x60) :
    decodeVlq (vlqDigit v s :: rest) = decodeVlqRest (digit v s) (vlqDigit v s) rest := by
  obtain ⟨-, hvalue⟩ := continued_byte (digit v s).toUInt8 (toUInt8_lt (digit_lt v s))
  obtain ⟨-, hsign⟩ := unsigned_byte (digit v s).toUInt8 (toUInt8_lt h)
  have hfirst : (vlqDigit v s &&& 0x7f).toUInt32 = digit v s := by
    change (((digit v s).toUInt8 ||| 0x80) &&& 0x7f).toUInt32 = digit v s
    rw [hvalue, toUInt32_toUInt8 (digit_lt v s)]
  rw [decodeVlq, if_neg (show ¬ vlqDigit v s &&& 0x60 = 0x60 from hsign), hfirst]

/-- An unsigned integer is read back. -/
theorem decodeVlq_encodeVlq (v : UInt32) (rest : Bytes) :
    decodeVlq (encodeVlq v ++ rest) = some (v, rest) := by
  have hv := v.toNat_lt
  have h7 : (digit v 7).toNat = v.toNat / 2 ^ 7 % 128 := toNat_digit v 7
  have h14 : (digit v 14).toNat = v.toNat / 2 ^ 14 % 128 := toNat_digit v 14
  have h21 : (digit v 21).toNat = v.toNat / 2 ^ 21 % 128 := toNat_digit v 21
  have h28 : (digit v 28).toNat = v.toNat / 2 ^ 28 % 128 := toNat_digit v 28
  have h0 : (v &&& 0x7f).toNat = v.toNat % 128 := by
    rw [UInt32.toNat_and]
    exact Nat.and_two_pow_sub_one_eq_mod _ 7
  unfold encodeVlq
  -- The thresholds are those below which the first digit cannot be taken for a sign.
  by_cases hb : v ≥ 0x60
  · rw [if_pos hb]
    by_cases hc : v ≥ 0x3000
    · rw [if_pos hc]
      by_cases hd : v ≥ 0x180000
      · rw [if_pos hd]
        by_cases he : v ≥ 0xc000000
        · rw [if_pos he]
          have hfirst : (digit v 28).toNat < 0x60 := by omega
          have hlast : (((digit v 28 <<< 7 ||| digit v 21) <<< 7 ||| digit v 14) <<< 7 |||
              digit v 7) <<< 7 ||| (v &&& 0x7f) = v := by
            rw [← UInt32.toNat_inj, toNat_shift_or (low_lt v), toNat_shift_or (digit_lt v 7),
              toNat_shift_or (digit_lt v 14), toNat_shift_or (digit_lt v 21), h28, h21, h14, h7, h0]
            omega
          simp only [List.cons_append, List.nil_append]
          rw [decodeVlq_digit hfirst, rest_digit, rest_digit, rest_digit, rest_last, hlast]
        · rw [if_neg he]
          have hsmall : v.toNat < 0xc000000 := toNat_lt_of_not_ge he
          have hfirst : (digit v 21).toNat < 0x60 := by omega
          have hlast : ((digit v 21 <<< 7 ||| digit v 14) <<< 7 ||| digit v 7) <<< 7 |||
              (v &&& 0x7f) = v := by
            rw [← UInt32.toNat_inj, toNat_shift_or (low_lt v), toNat_shift_or (digit_lt v 7),
              toNat_shift_or (digit_lt v 14), h21, h14, h7, h0]
            omega
          simp only [List.cons_append, List.nil_append]
          rw [decodeVlq_digit hfirst, rest_digit, rest_digit, rest_last, hlast]
      · rw [if_neg hd]
        have hsmall : v.toNat < 0x180000 := toNat_lt_of_not_ge hd
        have he : ¬ v ≥ 0xc000000 := fun he =>
          hd (UInt32.le_trans (by decide) he)
        have hfirst : (digit v 14).toNat < 0x60 := by omega
        have hlast : (digit v 14 <<< 7 ||| digit v 7) <<< 7 ||| (v &&& 0x7f) = v := by
          rw [← UInt32.toNat_inj, toNat_shift_or (low_lt v), toNat_shift_or (digit_lt v 7), h14, h7,
            h0]
          omega
        rw [if_neg he]
        simp only [List.cons_append, List.nil_append]
        rw [decodeVlq_digit hfirst, rest_digit, rest_last, hlast]
    · rw [if_neg hc]
      have hsmall : v.toNat < 0x3000 := toNat_lt_of_not_ge hc
      have hd : ¬ v ≥ 0x180000 := fun hd => hc (UInt32.le_trans (by decide) hd)
      have he : ¬ v ≥ 0xc000000 := fun he => hc (UInt32.le_trans (by decide) he)
      have hfirst : (digit v 7).toNat < 0x60 := by omega
      have hlast : digit v 7 <<< 7 ||| (v &&& 0x7f) = v := by
        rw [← UInt32.toNat_inj, toNat_shift_or (low_lt v), h7, h0]
        omega
      rw [if_neg hd, if_neg he]
      simp only [List.cons_append, List.nil_append]
      rw [decodeVlq_digit hfirst, rest_last, hlast]
  · have hsmall : v.toNat < 0x60 := toNat_lt_of_not_ge hb
    have hc : ¬ v ≥ 0x3000 := fun hc => hb (UInt32.le_trans (by decide) hc)
    have hd : ¬ v ≥ 0x180000 := fun hd => hb (UInt32.le_trans (by decide) hd)
    have he : ¬ v ≥ 0xc000000 := fun he => hb (UInt32.le_trans (by decide) he)
    have hlow : v &&& 0x7f = v := by
      rw [← UInt32.toNat_inj, h0]
      omega
    have hbyte : v.toUInt8 < 0x60 := toUInt8_lt hsmall
    obtain ⟨hend, hvalue⟩ := last_byte v.toUInt8 (toUInt8_lt (lt_trans hsmall (by decide)))
    obtain ⟨hsign, -⟩ := unsigned_byte v.toUInt8 hbyte
    rw [if_neg hb, if_neg hc, if_neg hd, if_neg he, hlow]
    simp only [List.nil_append, List.cons_append]
    rw [decodeVlq, if_neg hsign, hvalue, toUInt32_toUInt8 (by omega)]
    cases rest with
    | nil => rw [decodeVlqRest, if_pos hend]
    | cons next rest => rw [decodeVlqRest, if_pos hend]

theorem encodeVlq_length_le (v : UInt32) : (encodeVlq v).length ≤ 5 := by
  have hif : ∀ (p : Prop) [Decidable p] (b : UInt8), (if p then [b] else []).length ≤ 1 := by
    intro p _ b
    split
    · exact le_rfl
    · exact Nat.zero_le _
  unfold encodeVlq
  rw [List.length_append, List.length_append, List.length_append, List.length_append,
    List.length_singleton]
  have h28 := hif (v ≥ 0xc000000) (vlqDigit v 28)
  have h21 := hif (v ≥ 0x180000) (vlqDigit v 21)
  have h14 := hif (v ≥ 0x3000) (vlqDigit v 14)
  have h7 := hif (v ≥ 0x60) (vlqDigit v 7)
  omega

/-- What the decoder makes of a buffer that starts with as many bytes as its first one says. -/
theorem block_of_complete {first : UInt8} {xs : Bytes} (hmin : MESSAGE_MIN ≤ first.toNat)
    (hmax : first.toNat ≤ MESSAGE_MAX) (hlen : first.toNat ≤ (first :: xs).length) (ys : Bytes) :
    block (first :: xs ++ ys) = block (first :: xs) := by
  have htake : (first :: (xs ++ ys)).take first.toNat = (first :: xs).take first.toNat := by
    rw [← List.cons_append, List.take_append_of_le_length hlen]
  have hlen' : first.toNat ≤ (first :: (xs ++ ys)).length := by
    rw [← List.cons_append, List.length_append]
    omega
  rw [List.cons_append, block, block]
  simp only [htake, not_lt.2 hlen, not_lt.2 hlen', hmin, hmax, and_self, not_true_eq_false,
    if_false]

theorem block_of_short {first : UInt8} {xs : Bytes} (hmin : MESSAGE_MIN ≤ first.toNat)
    (hmax : first.toNat ≤ MESSAGE_MAX) (hlen : (first :: xs).length < first.toNat) :
    block (first :: xs) = .wait := by
  rw [block]
  simp only [hmin, hmax, hlen, and_self, not_true_eq_false, if_false, if_true]

theorem block_of_size {first : UInt8} (xs : Bytes)
    (hsize : ¬ (MESSAGE_MIN ≤ first.toNat ∧ first.toNat ≤ MESSAGE_MAX)) :
    block (first :: xs) = .skip := by
  rw [block]
  simp only [hsize, not_false_eq_true, if_true]

theorem size_of_found {first : UInt8} {xs : Bytes} {frame : Frame} {size : ℕ}
    (h : block (first :: xs) = .found frame size) : size = first.toNat := by
  rw [block] at h
  simp only [] at h
  split_ifs at h
  exact (Verdict.found.inj h).2.symm

theorem steady_block : Steady block := by
  constructor
  · intro xs ys h
    cases xs with
    | nil => cases h
    | cons first xs =>
        by_cases hsize : MESSAGE_MIN ≤ first.toNat ∧ first.toNat ≤ MESSAGE_MAX
        · by_cases hlen : (first :: xs).length < first.toNat
          · rw [block_of_short hsize.1 hsize.2 hlen] at h
            cases h
          · rw [block_of_complete hsize.1 hsize.2 (not_lt.1 hlen), h]
        · rw [List.cons_append, block_of_size _ hsize]
  · intro xs ys frame size h
    cases xs with
    | nil => cases h
    | cons first xs =>
        by_cases hsize : MESSAGE_MIN ≤ first.toNat ∧ first.toNat ≤ MESSAGE_MAX
        · by_cases hlen : (first :: xs).length < first.toNat
          · rw [block_of_short hsize.1 hsize.2 hlen] at h
            cases h
          · rw [block_of_complete hsize.1 hsize.2 (not_lt.1 hlen), size_of_found h]
            rw [size_of_found h] at h
            exact ⟨not_lt.1 hlen, h⟩
        · rw [block_of_size _ hsize] at h
          cases h

theorem destination : ∀ seq : UInt8,
    (MESSAGE_DEST ||| (seq &&& MESSAGE_SEQ_MASK)) &&& ~~~ MESSAGE_SEQ_MASK = MESSAGE_DEST := by
  decide +kernel

/-- An encoded frame is a block wherever a buffer starts with it. -/
theorem block_encodeFrame (seq : UInt8) {payload : Bytes} (rest : Bytes)
    (h : payload.length + MESSAGE_MIN ≤ MESSAGE_MAX) :
    block (encodeFrame seq payload ++ rest) =
      .found ⟨MESSAGE_DEST ||| (seq &&& MESSAGE_SEQ_MASK), payload⟩
        (encodeFrame seq payload).length := by
  have hmin : MESSAGE_MIN = 5 := rfl
  have hmax : MESSAGE_MAX = 64 := rfl
  let first := UInt8.ofNat (payload.length + MESSAGE_MIN)
  let dest := MESSAGE_DEST ||| (seq &&& MESSAGE_SEQ_MASK)
  let crc := crc16Ccitt (first :: dest :: payload)
  have hfirst : first.toNat = payload.length + 5 := by
    change (UInt8.ofNat (payload.length + MESSAGE_MIN)).toNat = _
    rw [UInt8.toNat_ofNat', Nat.mod_eq_of_lt (by omega), hmin]
  have hframe : encodeFrame seq payload = (first :: dest :: payload) ++
      [(crc >>> 8).toUInt8, crc.toUInt8, MESSAGE_SYNC] := by
    unfold encodeFrame
    rw [List.append_assoc]
    rfl
  let front := first :: dest :: payload
  have hfront : front.length = payload.length + 2 := rfl
  have hlen : first.toNat = (encodeFrame seq payload).length := by
    rw [hframe, hfirst, List.length_append]
    rfl
  have hget : ∀ k, (front ++ [(crc >>> 8).toUInt8, crc.toUInt8, MESSAGE_SYNC]).getD
      (front.length + k) 0 = [(crc >>> 8).toUInt8, crc.toUInt8, MESSAGE_SYNC].getD k 0 := by
    intro k
    rw [List.getD_append_right _ _ _ _ (Nat.le_add_right _ k), Nat.add_sub_cancel_left]
  have hblock : block (encodeFrame seq payload) = .found ⟨dest, payload⟩ first.toNat := by
    have htake : (encodeFrame seq payload).take first.toNat = encodeFrame seq payload := by
      rw [hlen, List.take_length]
    have hhigh : (encodeFrame seq payload).getD (first.toNat - 3) 0 = (crc >>> 8).toUInt8 := by
      rw [hframe, show first.toNat - 3 = front.length + 0 by omega, hget]
      rfl
    have hlow : (encodeFrame seq payload).getD (first.toNat - 2) 0 = crc.toUInt8 := by
      rw [hframe, show first.toNat - 2 = front.length + 1 by omega, hget]
      rfl
    have hsync : (encodeFrame seq payload).getD (first.toNat - 1) 0 = MESSAGE_SYNC := by
      rw [hframe, show first.toNat - 1 = front.length + 2 by omega, hget]
      rfl
    have hdest : (encodeFrame seq payload).getD 1 0 = dest := by
      rw [hframe]
      rfl
    have hbody : (encodeFrame seq payload).take (first.toNat - 3) = front := by
      rw [hframe, show first.toNat - 3 = front.length by omega, List.take_left]
    have hcons : encodeFrame seq payload = first :: (encodeFrame seq payload).tail := by
      rw [hframe]
      rfl
    have hvalid : (encodeFrame seq payload).getD (first.toNat - 1) 0 = MESSAGE_SYNC ∧
        (encodeFrame seq payload).getD 1 0 &&& ~~~ MESSAGE_SEQ_MASK = MESSAGE_DEST ∧
        crc16Ccitt ((encodeFrame seq payload).take (first.toNat - 3)) =
          fromBe16 ((encodeFrame seq payload).getD (first.toNat - 3) 0)
            ((encodeFrame seq payload).getD (first.toNat - 2) 0) := by
      rw [hsync, hdest, hbody, hhigh, hlow, fromBe16_be16]
      exact ⟨rfl, destination seq, rfl⟩
    rw [hcons, block, ← hcons]
    simp only [htake]
    rw [if_neg (not_not.2 ⟨by omega, by omega⟩), if_neg (by omega), if_neg (not_not.2 hvalid),
      hdest, hbody]
    rfl
  rw [← hlen]
  exact (steady_block.found _ rest _ _ hblock).2

/-- An encoded frame is found wherever a buffer starts with it. -/
theorem nextFrame_encodeFrame (seq : UInt8) {payload : Bytes} (rest : Bytes)
    (h : payload.length + MESSAGE_MIN ≤ MESSAGE_MAX) :
    nextFrame (encodeFrame seq payload ++ rest) =
      (some ⟨MESSAGE_DEST ||| (seq &&& MESSAGE_SEQ_MASK), payload⟩, rest) := by
  obtain ⟨b, bs, hbs⟩ : ∃ b bs, encodeFrame seq payload ++ rest = b :: bs := ⟨_, _, rfl⟩
  have hblock := block_encodeFrame seq rest h
  rw [hbs] at hblock
  rw [nextFrame, hbs, next]
  simp only [hblock]
  rw [← hbs, List.drop_left]

theorem encodeFrame_length (seq : UInt8) (payload : Bytes) :
    (encodeFrame seq payload).length = payload.length + MESSAGE_MIN := by
  unfold encodeFrame be16
  rw [List.length_append, List.length_append, List.length_append]
  change 2 + payload.length + 2 + 1 = payload.length + 5
  omega

theorem payload_inj {seq seq' : UInt8} {payload payload' : Bytes}
    (h : encodeFrame seq payload = encodeFrame seq' payload')
    (hlen : payload.length + MESSAGE_MIN ≤ MESSAGE_MAX)
    (hlen' : payload'.length + MESSAGE_MIN ≤ MESSAGE_MAX) : payload = payload' := by
  have hnext := nextFrame_encodeFrame seq [] hlen
  rw [h, nextFrame_encodeFrame seq' [] hlen'] at hnext
  obtain ⟨hframe, -⟩ := Prod.mk.inj hnext
  exact (Frame.mk.inj (Option.some.inj hframe)).2.symm

theorem request_length_le (offset : UInt32) (count : UInt8) :
    (encodeVlq IDENTIFY_ID ++ encodeVlq offset ++ encodeVlq count.toUInt32).length + MESSAGE_MIN ≤
      MESSAGE_MAX := by
  have hmin : MESSAGE_MIN = 5 := rfl
  have hmax : MESSAGE_MAX = 64 := rfl
  have hid := encodeVlq_length_le IDENTIFY_ID
  have hoffset := encodeVlq_length_le offset
  have hcount := encodeVlq_length_le count.toUInt32
  rw [List.length_append, List.length_append]
  omega

/-- A request tells its offset and its count. -/
theorem identifyRequest_inj {seq seq' count count' : UInt8} {offset offset' : UInt32}
    (h : identifyRequest seq offset count = identifyRequest seq' offset' count') :
    offset = offset' ∧ count = count' := by
  have hpayload := payload_inj h (request_length_le offset count) (request_length_le offset' count')
  rw [List.append_assoc, List.append_assoc] at hpayload
  have hvalues := congrArg decodeVlq (List.append_cancel_left hpayload)
  rw [decodeVlq_encodeVlq, decodeVlq_encodeVlq, Option.some.injEq, Prod.mk.injEq] at hvalues
  obtain ⟨hoffset, hrest⟩ := hvalues
  have hcounts := congrArg (fun bytes => decodeVlq (bytes ++ [])) hrest
  simp only [decodeVlq_encodeVlq, Option.some.injEq, Prod.mk.injEq, and_true] at hcounts
  refine ⟨hoffset, ?_⟩
  rw [← UInt8.toNat_inj]
  have hnat := congrArg UInt32.toNat hcounts
  rw [UInt8.toNat_toUInt32, UInt8.toNat_toUInt32] at hnat
  exact hnat

end Aldis.Identify

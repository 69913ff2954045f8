import Aldis.Identify.Channel

/-!
# Integers at a position of a buffer

Integers are read one after another by a position that each of them moves behind itself. Reading
at a position is reading the bytes from there on, so what is written in a row is read in a row.
-/

namespace Aldis.Identify

open Octets

def decodeVlqLoop (buf : Bytes) (value : UInt32) (byte : UInt8) (pos : ℕ) : Option (UInt32 × ℕ) :=
  if byte &&& 0x80 = 0 then some (value, pos)
  else match h : buf[pos]? with
    | none => none
    | some next =>
      have : pos < buf.length := (List.getElem?_eq_some_iff.1 h).1
      decodeVlqLoop buf ((value <<< 7) ||| (next &&& 0x7f).toUInt32) next (pos + 1)
termination_by buf.length - pos

/-- Decodes the integer at `pos`, and says which position it ends at. -/
def decodeVlqAt (buf : Bytes) (pos : ℕ) : Option (UInt32 × ℕ) := do
  let byte ← buf[pos]?
  let value := (byte &&& 0x7f).toUInt32
  decodeVlqLoop buf (if byte &&& 0x60 = 0x60 then value ||| ~~~ 0x1f else value) byte (pos + 1)

def decodeVlqs (buf : Bytes) : ℕ → ℕ → Option (List UInt32 × ℕ)
  | 0, pos => some ([], pos)
  | count + 1, pos => do
    let (value, pos) ← decodeVlqAt buf pos
    let (values, pos) ← decodeVlqs buf count pos
    some (value :: values, pos)

def parseIdentifyResponseAt (payload : Bytes) : Option (UInt32 × Bytes) := do
  let (id, pos) ← decodeVlqAt payload 0
  if id ≠ IDENTIFY_RESPONSE_ID then none
  else
    let (offset, pos) ← decodeVlqAt payload pos
    let len := (← payload[pos]?).toNat
    if pos + 1 + len ≤ payload.length then some (offset, (payload.drop (pos + 1)).take len)
    else none

section Position

variable {front rest : Bytes} {value : UInt32} {byte next : UInt8}

/-- The byte at the position behind `front`. -/
theorem getElem?_front : (front ++ byte :: rest)[front.length]? = some byte := by
  rw [List.getElem?_append_right le_rfl, Nat.sub_self]
  exact rfl

theorem length_front (front : Bytes) (byte : UInt8) :
    front.length + 1 = (front ++ [byte]).length := by
  rw [List.length_append, List.length_singleton]

/-- The position that leaves `rest`. -/
theorem length_sub_rest (front read rest : Bytes) :
    (front ++ (read ++ rest)).length - rest.length = (front ++ read).length := by
  rw [← List.append_assoc, List.length_append, Nat.add_sub_cancel]

theorem decodeVlqLoop_last {buf : Bytes} {pos : ℕ} (h : byte &&& 0x80 = 0) :
    decodeVlqLoop buf value byte pos = some (value, pos) := by
  rw [decodeVlqLoop, if_pos h]

theorem decodeVlqLoop_next {buf : Bytes} {pos : ℕ} (hb : ¬ byte &&& 0x80 = 0)
    (h : buf[pos]? = some next) : decodeVlqLoop buf value byte pos =
      decodeVlqLoop buf ((value <<< 7) ||| (next &&& 0x7f).toUInt32) next (pos + 1) := by
  rw [decodeVlqLoop, if_neg hb]
  split
  · rename_i hnone
    rw [hnone] at h
    cases h
  · rename_i found hsome
    obtain rfl : found = next := Option.some.inj (hsome.symm.trans h)
    exact rfl

theorem decodeVlqLoop_end {buf : Bytes} {pos : ℕ} (hb : ¬ byte &&& 0x80 = 0)
    (h : buf[pos]? = none) : decodeVlqLoop buf value byte pos = none := by
  rw [decodeVlqLoop, if_neg hb]
  split
  · rfl
  · rename_i found hsome
    rw [hsome] at h
    cases h

/-- The position is where what the bytes leave behind begins. -/
theorem decodeVlqLoop_append : decodeVlqLoop (front ++ rest) value byte front.length =
    (decodeVlqRest value byte rest).map fun p => (p.1, (front ++ rest).length - p.2.length) := by
  induction rest generalizing front value byte with
  | nil =>
      rw [decodeVlqRest, List.append_nil]
      by_cases hb : byte &&& 0x80 = 0
      · rw [decodeVlqLoop_last hb, if_pos hb]
        exact rfl
      · rw [decodeVlqLoop_end hb (List.getElem?_eq_none le_rfl), if_neg hb]
        exact rfl
  | cons next rest ih =>
      rw [decodeVlqRest]
      by_cases hb : byte &&& 0x80 = 0
      · rw [decodeVlqLoop_last hb, if_pos hb, Option.map_some, List.length_append,
          Nat.add_sub_cancel]
      · rw [decodeVlqLoop_next hb getElem?_front, if_neg hb, List.append_cons, length_front, ih]

theorem decodeVlqAt_append : decodeVlqAt (front ++ rest) front.length =
    (decodeVlq rest).map fun p => (p.1, (front ++ rest).length - p.2.length) := by
  unfold decodeVlqAt
  cases rest with
  | nil =>
      rw [List.append_nil, List.getElem?_eq_none le_rfl]
      exact rfl
  | cons byte rest =>
      rw [getElem?_front, Option.bind_eq_bind, Option.bind_some, length_front front byte,
        List.append_cons, decodeVlqLoop_append]
      exact rfl

/-- An integer is read back at the position where it was written. -/
theorem decodeVlqAt_encodeVlq (front : Bytes) (v : UInt32) (rest : Bytes) :
    decodeVlqAt (front ++ encodeVlq v ++ rest) front.length =
      some (v, (front ++ encodeVlq v).length) := by
  rw [List.append_assoc, decodeVlqAt_append, decodeVlq_encodeVlq, Option.map_some,
    length_sub_rest]

theorem decodeVlqs_flatMap (front : Bytes) (values : List UInt32) (trailing : Bytes) :
    decodeVlqs (front ++ values.flatMap encodeVlq ++ trailing) values.length front.length =
      some (values, (front ++ values.flatMap encodeVlq).length) := by
  induction values generalizing front with
  | nil =>
      rw [List.flatMap_nil, List.append_nil]
      exact rfl
  | cons v values ih =>
      have hbytes : front ++ (v :: values).flatMap encodeVlq =
          front ++ encodeVlq v ++ values.flatMap encodeVlq := by
        rw [List.flatMap_cons, List.append_assoc]
      have hfirst := decodeVlqAt_encodeVlq front v (values.flatMap encodeVlq ++ trailing)
      rw [← List.append_assoc] at hfirst
      rw [hbytes, List.length_cons, decodeVlqs, hfirst, Option.bind_eq_bind, Option.bind_some]
      dsimp only
      rw [ih]
      exact rfl

end Position

section Messages

theorem decodeVlqRest_suffix {value v : UInt32} {byte : UInt8} {bytes rest : Bytes}
    (h : decodeVlqRest value byte bytes = some (v, rest)) : rest <:+ bytes := by
  induction bytes generalizing value byte with
  | nil =>
      rw [decodeVlqRest] at h
      split_ifs at h
      cases h
      exact List.suffix_refl []
  | cons next bytes ih =>
      rw [decodeVlqRest] at h
      split_ifs at h
      · cases h
        exact List.suffix_refl _
      · exact (ih h).trans (List.suffix_cons next bytes)

theorem decodeVlq_suffix {v : UInt32} {bytes rest : Bytes} (h : decodeVlq bytes = some (v, rest)) :
    rest <:+ bytes := by
  cases bytes with
  | nil => cases h
  | cons byte bytes => exact (decodeVlqRest_suffix h).trans (List.suffix_cons byte bytes)

/-- Where an integer ends, when it is read at a position. -/
theorem decodeVlqAt_eq_some {front bytes : Bytes} {v : UInt32} {rest : Bytes}
    (h : decodeVlq bytes = some (v, rest)) : ∃ read, bytes = read ++ rest ∧
      decodeVlqAt (front ++ bytes) front.length = some (v, (front ++ read).length) := by
  obtain ⟨read, rfl⟩ := decodeVlq_suffix h
  refine ⟨read, rfl, ?_⟩
  rw [decodeVlqAt_append, h, Option.map_some, length_sub_rest]

theorem decodeVlqAt_eq_none {front bytes : Bytes} (h : decodeVlq bytes = none) :
    decodeVlqAt (front ++ bytes) front.length = none := by
  rw [decodeVlqAt_append, h, Option.map_none]

/-- Parsing by positions is parsing the bytes that are left. -/
theorem parseIdentifyResponseAt_eq (payload : Bytes) :
    parseIdentifyResponseAt payload = parseIdentifyResponse payload := by
  unfold parseIdentifyResponseAt parseIdentifyResponse
  cases hid : decodeVlq payload with
  | none =>
      have hnone : decodeVlqAt payload 0 = none := @decodeVlqAt_eq_none [] payload hid
      rw [hnone]
      exact rfl
  | some p =>
      obtain ⟨id, rest⟩ := p
      obtain ⟨read, rfl, hread⟩ := @decodeVlqAt_eq_some [] payload id rest hid
      rw [List.nil_append, List.nil_append, List.length_nil] at hread
      rw [hread]
      simp only [Option.bind_eq_bind, Option.bind_some]
      by_cases hother : id ≠ IDENTIFY_RESPONSE_ID
      · rw [if_pos hother, if_pos hother]
      · rw [if_neg hother, if_neg hother]
        cases hoffset : decodeVlq rest with
        | none =>
            rw [decodeVlqAt_eq_none hoffset]
            exact rfl
        | some q =>
            obtain ⟨offset, tail⟩ := q
            obtain ⟨more, rfl, hmore⟩ := @decodeVlqAt_eq_some read rest offset tail hoffset
            rw [hmore, ← List.append_assoc]
            simp only [Option.bind_some]
            generalize read ++ more = front
            cases tail with
            | nil =>
                rw [List.append_nil, List.getElem?_eq_none le_rfl]
                exact rfl
            | cons len data =>
                have hdata : (front ++ len :: data).drop (front.length + 1) = data := by
                  rw [← List.drop_drop, List.drop_left]
                  exact rfl
                have hfits : front.length + 1 + len.toNat ≤ (front ++ len :: data).length ↔
                    len.toNat ≤ data.length := by
                  rw [List.length_append, List.length_cons]
                  omega
                rw [getElem?_front, hdata]
                simp only [Option.bind_some, hfits]

/-- The integers of a request, as its payload. -/
theorem identifyRequest_payload (offset : UInt32) (count : UInt8) :
    encodeVlq IDENTIFY_ID ++ encodeVlq offset ++ encodeVlq count.toUInt32 =
      [IDENTIFY_ID, offset, count.toUInt32].flatMap encodeVlq := by
  simp only [List.flatMap_cons, List.flatMap_nil, List.append_nil, List.append_assoc]

/-- Integers written in a row are read in a row, up to where the bytes behind them begin. So a
request is read back from its frame, and so is a response from its payload. -/
theorem vlq_round_trips :
    (∀ (values : List UInt32) (trailing : Bytes),
      decodeVlqs (values.flatMap encodeVlq ++ trailing) values.length 0 =
        some (values, (values.flatMap encodeVlq).length)) ∧
    (∀ (seq : UInt8) (offset : UInt32) (count : UInt8) (rest : Bytes), ∃ payload,
      nextFrame (identifyRequest seq offset count ++ rest) =
        (some ⟨MESSAGE_DEST ||| (seq &&& MESSAGE_SEQ_MASK), payload⟩, rest) ∧
      decodeVlqs payload 3 0 =
        some ([IDENTIFY_ID, offset, count.toUInt32], payload.length)) ∧
    ∀ (offset : UInt32) (data trailing : Bytes), data.length < 256 →
      parseIdentifyResponseAt (identifyResponse offset data ++ trailing) = some (offset, data) := by
  refine ⟨fun values trailing => decodeVlqs_flatMap [] values trailing, ?_, ?_⟩
  · intro seq offset count rest
    refine ⟨_, nextFrame_encodeFrame seq rest (request_length_le offset count), ?_⟩
    rw [identifyRequest_payload]
    have hvalues := decodeVlqs_flatMap [] [IDENTIFY_ID, offset, count.toUInt32] []
    rw [List.append_nil] at hvalues
    exact hvalues
  · intro offset data trailing hlen
    rw [parseIdentifyResponseAt_eq, parse_identifyResponse offset trailing hlen]

end Messages

end Aldis.Identify

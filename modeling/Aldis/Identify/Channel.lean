import Aldis.Identify.Exchange

/-!
# The port between the exchange and an MCU

What an MCU with a given dictionary may have sent, and the ports that carry it.
-/

namespace Aldis.Identify

open Octets Scanner Machine Text

def written (tr : List (Move Exchange Event)) : List Bytes :=
  tr.filterMap fun m => match m.event with
    | .wrote bytes _ => some bytes
    | _ => none

def received (tr : List (Move Exchange Event)) : Bytes :=
  tr.flatMap fun m => match m.event with
    | .read (.ok bytes) => bytes
    | _ => []

/-- The payload that answers a request for `offset`. -/
def identifyResponse (offset : UInt32) (chunk : Bytes) : Bytes :=
  encodeVlq IDENTIFY_RESPONSE_ID ++ encodeVlq offset ++ UInt8.ofNat chunk.length :: chunk

/-- What may arrive from an MCU with this dictionary that was sent these requests: the answer to
one of them, an ACK or NAK, or a message of another kind. -/
inductive Sent (dict : Bytes) (requests : List Bytes) (frame : Frame) : Prop
  -- A block may hold further messages after the answer.
  | response (seq count : UInt8) (offset : UInt32) (more : Bytes)
      (hrequest : identifyRequest seq offset count ∈ requests)
      (hpayload : frame.payload =
        identifyResponse offset ((dict.drop offset.toNat).take count.toNat) ++ more)
  | ack (hpayload : frame.payload = [])
  | other (hother : ∀ rest, decodeVlq frame.payload ≠ some (IDENTIFY_RESPONSE_ID, rest))

/-- The port delivers, in any order and number, frames that the MCU has sent by then, and between
them only bytes from which the decoder forms no frame. -/
def Channel (dict : Bytes) (tr : List (Move Exchange Event)) : Prop :=
  ∀ pre, pre <+: tr → ∀ frame, Formed block (received pre) frame → Sent dict (written pre) frame

section Answers

variable {dict : Bytes} {requests : List Bytes} {frame : Frame} {offset : UInt32} {chunk : Bytes}

theorem parse_identifyResponse (offset : UInt32) (more : Bytes) (h : chunk.length < 256) :
    parseIdentifyResponse (identifyResponse offset chunk ++ more) = some (offset, chunk) := by
  have hlen : (UInt8.ofNat chunk.length).toNat = chunk.length := by
    rw [UInt8.toNat_ofNat', Nat.mod_eq_of_lt h]
  have hle : chunk.length ≤ (chunk ++ more).length := by
    rw [List.length_append]
    exact Nat.le_add_right _ _
  unfold identifyResponse parseIdentifyResponse
  rw [List.append_assoc, List.append_assoc, decodeVlq_encodeVlq]
  simp only [Option.bind_eq_bind, Option.bind_some, ne_eq, not_true_eq_false, if_false,
    decodeVlq_encodeVlq, List.cons_append, hlen, hle, if_true, List.take_left]

theorem exists_of_parse {payload : Bytes} {found : UInt32 × Bytes}
    (h : parseIdentifyResponse payload = some found) :
    ∃ rest, decodeVlq payload = some (IDENTIFY_RESPONSE_ID, rest) := by
  unfold parseIdentifyResponse at h
  cases hdecode : decodeVlq payload with
  | none =>
      rw [hdecode] at h
      cases h
  | some answer =>
      obtain ⟨id, rest⟩ := answer
      by_cases hid : id = IDENTIFY_RESPONSE_ID
      · rw [hid]
        exact ⟨rest, rfl⟩
      · rw [hdecode] at h
        simp only [Option.bind_eq_bind, Option.bind_some, ne_eq, hid, not_false_eq_true,
          if_true] at h
        cases h

/-- An accepted chunk is the piece of the dictionary that some request asked for. -/
theorem Sent.chunk_eq (h : Sent dict requests frame)
    (hrequests : ∀ bytes ∈ requests, bytes = [MESSAGE_SYNC] ∨
      ∃ seq offset, bytes = identifyRequest seq offset IDENTIFY_CHUNK)
    (hparse : parseIdentifyResponse frame.payload = some (offset, chunk)) :
    chunk = (dict.drop offset.toNat).take IDENTIFY_CHUNK.toNat := by
  cases h with
  | response seq count asked more hrequest hpayload =>
      have hcount : count = IDENTIFY_CHUNK := by
        rcases hrequests _ hrequest with hsync | ⟨seq', offset', heq⟩
        · have hlen := congrArg List.length hsync
          rw [identifyRequest, encodeFrame_length, List.length_singleton] at hlen
          exact absurd (Nat.succ.inj hlen) (Nat.succ_ne_zero _)
        · exact (identifyRequest_inj heq).2
      have hlen : ((dict.drop asked.toNat).take count.toNat).length < 256 := by
        have hcount := count.toNat_lt
        rw [List.length_take]
        omega
      rw [hpayload, parse_identifyResponse asked more hlen] at hparse
      obtain ⟨rfl, rfl⟩ := Prod.mk.inj (Option.some.inj hparse)
      rw [hcount]
  | ack hpayload =>
      rw [hpayload] at hparse
      cases hparse
  | other hother =>
      obtain ⟨rest, hid⟩ := exists_of_parse hparse
      exact absurd hid (hother rest)

end Answers

section Runs

variable {tr : List (Move Exchange Event)} {m : Move Exchange Event} {dict : Bytes}

theorem received_snoc {m : Move Exchange Event} :
    received (tr ++ [m]) = received tr ++ received [m] := List.flatMap_append

theorem written_snoc {m : Move Exchange Event} :
    written (tr ++ [m]) = written tr ++ written [m] := List.filterMap_append

theorem Channel.of_snoc {m : Move Exchange Event} (h : Channel dict (tr ++ [m])) :
    Channel dict tr :=
  fun pre hpre => h pre (hpre.trans (List.prefix_append tr [m]))

/-- The ports that lose nothing but whole frames: what arrives is any of the frames that the MCU
has sent by then, each any number of times. -/
inductive Delivers (dict : Bytes) : List (Move Exchange Event) → Prop
  | start : Delivers dict []
  | quiet {tr : List (Move Exchange Event)} {m : Move Exchange Event} (h : Delivers dict tr)
      (hm : received [m] = []) : Delivers dict (tr ++ [m])
  | frame {tr : List (Move Exchange Event)} {m : Move Exchange Event} (h : Delivers dict tr)
      (seq : UInt8) (payload : Bytes) (hlen : payload.length + MESSAGE_MIN ≤ MESSAGE_MAX)
      (hm : received [m] = encodeFrame seq payload)
      (hsent : Sent dict (written tr) ⟨MESSAGE_DEST ||| (seq &&& MESSAGE_SEQ_MASK), payload⟩) :
      Delivers dict (tr ++ [m])

theorem Sent.mono {requests requests' : List Bytes} {frame : Frame} (h : Sent dict requests frame)
    (hsub : requests ⊆ requests') : Sent dict requests' frame := by
  cases h with
  | response seq count offset more hrequest hpayload =>
      exact .response seq count offset more (hsub hrequest) hpayload
  | ack hpayload => exact .ack hpayload
  | other hother => exact .other hother

theorem written_subset : written tr ⊆ written (tr ++ [m]) := by
  intro bytes hbytes
  rw [written_snoc]
  exact List.mem_append_left _ hbytes

/-- A stream of whole frames has these frames and, after them, those of what follows. -/
theorem Delivers.formed (h : Delivers dict tr) (more : Bytes) {frame : Frame}
    (hf : Formed block (received tr ++ more) frame) :
    Sent dict (written tr) frame ∨ Formed block more frame := by
  induction h generalizing more with
  | start => exact .inr hf
  | quiet h hm ih =>
      rw [received_snoc, hm, List.append_nil] at hf
      rcases ih more hf with hsent | hf
      · exact .inl (hsent.mono written_subset)
      · exact .inr hf
  | frame h seq payload hlen hm hsent ih =>
      rw [received_snoc, hm, List.append_assoc] at hf
      rcases ih _ hf with hearlier | hf
      · exact .inl (hearlier.mono written_subset)
      · rw [formed_iff (nextFrame_encodeFrame seq more hlen)] at hf
        rcases hf with rfl | hf
        · exact .inl (hsent.mono written_subset)
        · exact .inr hf

theorem Delivers.sent (h : Delivers dict tr) {frame : Frame}
    (hf : Formed block (received tr) frame) : Sent dict (written tr) frame := by
  rw [← List.append_nil (received tr)] at hf
  rcases h.formed [] hf with hsent | hf
  · exact hsent
  · exact absurd hf not_formed_nil

/-- Such a port is one of those that the exchange has to cope with. -/
theorem Delivers.channel (h : Delivers dict tr) : Channel dict tr := by
  intro pre hpre frame hf
  have hwhole : Delivers dict pre := by
    induction h with
    | start =>
        rw [List.prefix_nil.1 hpre]
        exact .start
    | quiet h hm ih =>
        rcases List.prefix_concat_iff.1 hpre with heq | hshort
        · rw [heq]
          exact .quiet h hm
        · exact ih hshort
    | frame h seq payload hlen hm hsent ih =>
        rcases List.prefix_concat_iff.1 hpre with heq | hshort
        · rw [heq]
          exact .frame h seq payload hlen hm hsent
        · exact ih hshort
  exact hwhole.sent hf

end Runs

end Aldis.Identify

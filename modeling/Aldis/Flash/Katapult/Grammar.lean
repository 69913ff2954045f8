import Aldis.Flash.Katapult.Frame

/-!
# The grammar of Katapult frames

A request and a reply have one layout, led by the command byte or by the status. A reply is
accepted exactly when it has that layout with the successful status, and then there is no other
frame for what it says.
-/

namespace Aldis.Katapult

open Octets

/-- The layout of a frame: `lead` is a command byte or a status. -/
def frame (lead : UInt8) (payload : Bytes) : Bytes :=
  let body := lead :: UInt8.ofNat (payload.length / 4) :: payload
  HEADER ++ body ++ le16 (crc16Ccitt body) ++ TRAILER

def reply (command : UInt32) (data : Bytes) : Bytes := frame ACK_SUCCESS (le32 command ++ data)

/-- Data that a reply can carry beside the command word. -/
def Carried (data : Bytes) : Prop := data.length % 4 = 0 ∧ data.length + 4 ≤ MAX_PAYLOAD_BYTES

section Layout

variable {payload : Bytes} {h₀ h₁ lead count c₀ c₁ t₀ t₁ : UInt8}

theorem decodeResponse_layout (hc : payload.length = count.toNat * 4) :
    decodeResponse (h₀ :: h₁ :: lead :: count :: (payload ++ [c₀, c₁, t₀, t₁])) =
      if [h₀, h₁] ≠ HEADER then .error .invalidResponseHeader
      else if [t₀, t₁] ≠ TRAILER then .error .invalidResponseTrailer
      else if fromLe16 [c₀, c₁] ≠ crc16Ccitt (lead :: count :: payload) then
        .error (.responseCrcMismatch (crc16Ccitt (lead :: count :: payload)) (fromLe16 [c₀, c₁]))
      else if lead ≠ ACK_SUCCESS then .error (.responseRejected lead)
      else if payload.length < 4 then .error .responseMissingCommand
      else .ok ⟨fromLe32 payload, payload.drop 4⟩ := by
  have hbound := count.toNat_lt
  generalize hb : h₀ :: h₁ :: lead :: count :: (payload ++ [c₀, c₁, t₀, t₁]) = bytes
  have hlen : bytes.length = payload.length + 8 := by
    rw [← hb]
    simp
  have hmin : ¬ bytes.length < MIN_FRAME_LENGTH := by
    rw [hlen]
    change ¬ payload.length + 8 < 8
    omega
  have hmax : ¬ MAX_RESPONSE_FRAME_BYTES < bytes.length := by
    rw [hlen]
    change ¬ 1028 < payload.length + 8
    omega
  have hexact : ¬ bytes.length ≠ MIN_FRAME_LENGTH + (bytes.getD 3 0).toNat * 4 := by
    rw [hlen, ← hb]
    change ¬ payload.length + 8 ≠ 8 + count.toNat * 4
    omega
  have htrailer : bytes.drop (bytes.length - 2) = [t₀, t₁] := by
    have hsplit : bytes = (h₀ :: h₁ :: lead :: count :: (payload ++ [c₀, c₁])) ++ [t₀, t₁] := by
      rw [← hb]
      simp
    rw [hlen, hsplit]
    exact List.drop_left' (by simp)
  have hcrc : fromLe16 (bytes.drop (bytes.length - 4)) = fromLe16 [c₀, c₁] := by
    have hsplit : bytes = (h₀ :: h₁ :: lead :: count :: payload) ++ [c₀, c₁, t₀, t₁] := hb.symm
    have hdrop : bytes.drop (bytes.length - 4) = [c₀, c₁, t₀, t₁] := by
      rw [hlen, hsplit]
      exact List.drop_left' (by simp)
    rw [hdrop]
    exact rfl
  have hbody : (bytes.drop 2).take (bytes.length - 6) = lead :: count :: payload := by
    have hdrop : bytes.drop 2 = (lead :: count :: payload) ++ [c₀, c₁, t₀, t₁] := by
      rw [← hb]
      exact rfl
    rw [hlen, hdrop]
    exact List.take_left' (by simp)
  have hpayload : (bytes.drop 4).take ((bytes.getD 3 0).toNat * 4) = payload := by
    rw [← hb]
    exact List.take_left' hc
  have hcount : (bytes.getD 3 0).toNat * 4 = payload.length := by
    rw [← hb]
    exact hc.symm
  have hhead : bytes.take 2 = [h₀, h₁] := by
    rw [← hb]
    exact rfl
  have hlead : bytes.getD 2 0 = lead := by
    rw [← hb]
    exact rfl
  unfold decodeResponse
  rw [if_neg hmin, if_neg hmax, hhead, htrailer]
  dsimp only
  rw [if_neg hexact, hcrc, hbody, hlead, hpayload, hcount]

/-- A byte string as long as its word count says has the layout of a frame. -/
theorem exists_layout {bytes : Bytes} (hmin : MIN_FRAME_LENGTH ≤ bytes.length)
    (he : bytes.length = MIN_FRAME_LENGTH + (bytes.getD 3 0).toNat * 4) :
    ∃ h₀ h₁ lead count payload c₀ c₁ t₀ t₁,
      bytes = h₀ :: h₁ :: lead :: count :: (payload ++ [c₀, c₁, t₀, t₁]) ∧
      payload.length = count.toNat * 4 := by
  have hmin' : 8 ≤ bytes.length := hmin
  match bytes, hmin' with
  | h₀ :: h₁ :: lead :: count :: rest, _ =>
      have hrest : rest.length = count.toNat * 4 + 4 := by
        have he' : rest.length + 4 = 8 + count.toNat * 4 := he
        omega
      have htail : (rest.drop (count.toNat * 4)).length = 4 := by
        rw [List.length_drop]
        omega
      match ht : rest.drop (count.toNat * 4), htail with
      | [c₀, c₁, t₀, t₁], _ =>
          refine ⟨h₀, h₁, lead, count, rest.take (count.toNat * 4), c₀, c₁, t₀, t₁, ?_, ?_⟩
          · rw [← ht, List.take_append_drop]
          · rw [List.length_take]
            omega

end Layout

theorem le32_fromLe32_append {payload : Bytes} (h : 4 ≤ payload.length) :
    le32 (fromLe32 payload) ++ payload.drop 4 = payload := by
  match payload, h with
  | a :: b :: c :: d :: rest, _ =>
      rw [le32_fromLe32]
      exact rfl

theorem frame_eq (lead : UInt8) (payload : Bytes) : frame lead payload =
    0x01 :: 0x88 :: lead :: UInt8.ofNat (payload.length / 4) :: (payload ++
      [(crc16Ccitt (lead :: UInt8.ofNat (payload.length / 4) :: payload)).toUInt8,
        (crc16Ccitt (lead :: UInt8.ofNat (payload.length / 4) :: payload) >>> 8).toUInt8,
        0x99, 0x03]) := by
  simp [frame, HEADER, TRAILER, le16]

theorem toNat_wordCount {payload : Bytes} (ha : payload.length % 4 = 0)
    (hl : payload.length ≤ MAX_PAYLOAD_BYTES) :
    payload.length = (UInt8.ofNat (payload.length / 4)).toNat * 4 := by
  have hl' : payload.length ≤ 1020 := hl
  rw [UInt8.toNat_ofNat']
  omega

/-- A frame is judged by its lead alone. -/
theorem decodeResponse_frame (lead : UInt8) {payload : Bytes} (ha : payload.length % 4 = 0)
    (hl : payload.length ≤ MAX_PAYLOAD_BYTES) : decodeResponse (frame lead payload) =
      if lead ≠ ACK_SUCCESS then .error (.responseRejected lead)
      else if payload.length < 4 then .error .responseMissingCommand
      else .ok ⟨fromLe32 payload, payload.drop 4⟩ := by
  have hcrc := fromLe16_le16 (crc16Ccitt (lead :: UInt8.ofNat (payload.length / 4) :: payload)) []
  rw [List.append_nil, le16] at hcrc
  rw [frame_eq, decodeResponse_layout (toNat_wordCount ha hl), hcrc]
  simp [HEADER, TRAILER]

theorem decodeResponse_reply (command : UInt32) {data : Bytes} (h : Carried data) :
    decodeResponse (reply command data) = .ok ⟨command, data⟩ := by
  have hlen : (le32 command ++ data).length = data.length + 4 := by
    rw [List.length_append, le32_length, Nat.add_comm]
  have ha : (le32 command ++ data).length % 4 = 0 := by
    rw [hlen]
    have ha' := h.1
    omega
  rw [reply, decodeResponse_frame ACK_SUCCESS ha (hlen ▸ h.2), if_neg (by simp), hlen,
    if_neg (by omega), fromLe32_le32]
  exact rfl

theorem eq_reply_of_decodeResponse {bytes : Bytes} {response : Response}
    (h : decodeResponse bytes = .ok response) :
    Carried response.data ∧ bytes = reply response.command response.data := by
  have hshape : MIN_FRAME_LENGTH ≤ bytes.length ∧
      bytes.length = MIN_FRAME_LENGTH + (bytes.getD 3 0).toNat * 4 := by
    unfold decodeResponse at h
    dsimp only at h
    split_ifs at h with hmin hmax hhead htrail hexact
    exact ⟨not_lt.1 hmin, not_not.1 hexact⟩
  obtain ⟨h₀, h₁, lead, count, payload, c₀, c₁, t₀, t₁, rfl, hc⟩ := exists_layout hshape.1 hshape.2
  rw [decodeResponse_layout hc] at h
  split_ifs at h with hhead htrail hcrc hlead hsome
  obtain rfl := Except.ok.inj h
  simp only [HEADER, TRAILER, ne_eq, not_not, List.cons.injEq, and_true] at hhead htrail hcrc hlead
  obtain ⟨rfl, rfl⟩ := hhead
  obtain ⟨rfl, rfl⟩ := htrail
  subst lead
  have hbound := count.toNat_lt
  have hcount : UInt8.ofNat (payload.length / 4) = count := by
    have hdiv : payload.length / 4 = count.toNat := by omega
    rw [hdiv, UInt8.ofNat_toNat]
  have hbytes : [c₀, c₁] = le16 (crc16Ccitt (ACK_SUCCESS :: count :: payload)) := by
    rw [← hcrc, le16_fromLe16]
  refine ⟨⟨?_, ?_⟩, ?_⟩
  · rw [List.length_drop]
    omega
  · rw [List.length_drop]
    change _ ≤ 1020
    omega
  · rw [reply, le32_fromLe32_append (not_lt.1 hsome), frame_eq, hcount]
    rw [le16, List.cons.injEq, List.cons.injEq] at hbytes
    rw [← hbytes.1, ← hbytes.2.1]

/-- The accepted byte strings are the replies, each for what it says. -/
theorem decodeResponse_eq_ok_iff {bytes : Bytes} {response : Response} :
    decodeResponse bytes = .ok response ↔
      Carried response.data ∧ bytes = reply response.command response.data := by
  constructor
  · exact eq_reply_of_decodeResponse
  · rintro ⟨hc, rfl⟩
    exact decodeResponse_reply response.command hc

theorem Command.code_ne_ack (command : Command) : command.code ≠ ACK_SUCCESS := by
  cases command <;> decide

theorem encodeCommand_eq_frame (command : Command) {payload : Bytes}
    (ha : payload.length % 4 = 0) (hl : payload.length ≤ MAX_PAYLOAD_BYTES) :
    encodeCommand command payload = .ok (frame command.code payload) := by
  rw [encodeCommand, if_neg (not_not.2 ha), if_neg (not_lt.2 hl)]
  exact rfl

/-- For every command word and all data that fits there is exactly one accepted byte string, every
other one is rejected, and requests have the same layout but are never accepted. -/
theorem decodeResponse_exact :
    (∀ (command : UInt32) (data : Bytes), data.length % 4 = 0 → data.length ≤ 1016 →
      ∀ bytes, decodeResponse bytes = .ok ⟨command, data⟩ ↔ bytes = reply command data) ∧
    (∀ bytes : Bytes, (∀ command data, data.length % 4 = 0 → data.length ≤ 1016 →
      bytes ≠ reply command data) → ∃ e, decodeResponse bytes = .error e) ∧
    (∀ (command : Command) (payload : Bytes), payload.length % 4 = 0 →
      payload.length ≤ MAX_PAYLOAD_BYTES →
      encodeCommand command payload = .ok (frame command.code payload)) ∧
    ∀ (command : Command) (payload request : Bytes), encodeCommand command payload = .ok request →
      ∃ e, decodeResponse request = .error e := by
  refine ⟨?_, ?_, fun command payload ha hl => encodeCommand_eq_frame command ha hl, ?_⟩
  · intro command data ha hl bytes
    have hc : Carried data := ⟨ha, by change data.length + 4 ≤ 1020; omega⟩
    rw [decodeResponse_eq_ok_iff]
    exact and_iff_right hc
  · intro bytes h
    cases hd : decodeResponse bytes with
    | error e => exact ⟨e, rfl⟩
    | ok response =>
        obtain ⟨⟨ha, hl⟩, rfl⟩ := eq_reply_of_decodeResponse hd
        have hl' : response.data.length + 4 ≤ 1020 := hl
        exact absurd rfl (h response.command response.data ha (by omega))
  · intro command payload request h
    have hfits : payload.length % 4 = 0 ∧ payload.length ≤ MAX_PAYLOAD_BYTES := by
      unfold encodeCommand at h
      split_ifs at h with ha hl
      exact ⟨not_not.1 ha, not_lt.1 hl⟩
    rw [encodeCommand_eq_frame command hfits.1 hfits.2] at h
    obtain rfl := Except.ok.inj h
    rw [decodeResponse_frame command.code hfits.1 hfits.2, if_pos command.code_ne_ack]
    exact ⟨_, rfl⟩

end Aldis.Katapult

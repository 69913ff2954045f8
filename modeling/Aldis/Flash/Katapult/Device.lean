import Aldis.Flash.Katapult.Grammar
import Aldis.Flash.Katapult.Session

/-!
# A Katapult device

The other side of a session, as far as an upload depends on it: a memory that `SEND_BLOCK`
writes and `REQUEST_BLOCK` reads, and replies that echo the command and its address.
-/

namespace Aldis.Katapult

open Octets Text

abbrev Memory := ℕ → UInt8

/-- A received request is handled by a valid reply that echoes the command. -/
structure Handled (blockSize : ℕ) (memory : Memory) (command : Command) (payload reply : Bytes)
    (memory' : Memory) : Prop where
  replied : ∃ response, decodeResponse reply = .ok response ∧
    response.command = command.code.toUInt32 ∧
    (command = .sendBlock → response.data.take 4 = payload.take 4) ∧
    (command = .requestBlock → response.data =
      payload.take 4 ++ content memory (fromLe32 payload).toNat blockSize)
  written : memory' = if command = .sendBlock then
    write memory (fromLe32 payload).toNat (payload.drop 4) else memory

def encodeResponse (command : Command) (data : Bytes) : Bytes :=
  let body := ACK_SUCCESS :: UInt8.ofNat (data.length / 4 + 1) ::
    (le32 command.code.toUInt32 ++ data)
  HEADER ++ body ++ le16 (crc16Ccitt body) ++ TRAILER

theorem encodeResponse_eq_reply (command : Command) (data : Bytes) :
    encodeResponse command data = reply command.code.toUInt32 data := by
  have hcount : (le32 command.code.toUInt32 ++ data).length / 4 = data.length / 4 + 1 := by
    rw [List.length_append, le32_length]
    omega
  rw [encodeResponse, reply, frame, hcount]

/-- What a valid frame says is what was put into it. -/
theorem decodeResponse_encodeResponse {command : Command} {data : Bytes}
    (ha : data.length % 4 = 0) (hl : data.length + 4 ≤ MAX_PAYLOAD_BYTES) :
    decodeResponse (encodeResponse command data) = .ok ⟨command.code.toUInt32, data⟩ := by
  rw [encodeResponse_eq_reply]
  exact decodeResponse_reply _ ⟨ha, hl⟩

structure Device where
  applicationStart : UInt32
  blockSize : ℕ
  uuid : Bytes
  memory : Memory

namespace Device

def replyData (device : Device) (payload : Bytes) : Command → Bytes
  | .connect => le32 1 ++ le32 device.applicationStart ++ le32 (UInt32.ofNat device.blockSize)
  | .sendBlock => payload.take 4
  | .sendEof => le32 0
  | .requestBlock =>
    payload.take 4 ++ content device.memory (fromLe32 payload).toNat device.blockSize
  | .complete => []
  | .getCanbusId => device.uuid

def handle (device : Device) (command : Command) (payload : Bytes) : Device :=
  if command = .sendBlock then
    { device with memory := write device.memory (fromLe32 payload).toNat (payload.drop 4) }
  else device

/-- The device after a request, and its reply; what it cannot answer in a frame it ignores. -/
def receive (device : Device) (request : Bytes) : Option (Device × Bytes) :=
  match parseRequest request with
  | none => none
  | some (command, payload) =>
    if (device.replyData payload command).length % 4 = 0 ∧
        (device.replyData payload command).length + 4 ≤ MAX_PAYLOAD_BYTES then
      some (device.handle command payload,
        encodeResponse command (device.replyData payload command))
    else none

theorem receive_handled {device device' : Device} {request reply : Bytes}
    (h : device.receive request = some (device', reply)) :
    ∃ command payload, parseRequest request = some (command, payload) ∧
      Handled device.blockSize device.memory command payload reply device'.memory := by
  unfold receive at h
  cases hp : parseRequest request with
  | none => simp [hp] at h
  | some parsed =>
    obtain ⟨command, payload⟩ := parsed
    simp only [hp] at h
    split_ifs at h with hfits
    obtain ⟨rfl, rfl⟩ := Prod.mk.inj (Option.some.inj h)
    refine ⟨command, payload, rfl, ⟨_, decodeResponse_encodeResponse hfits.1 hfits.2, rfl, ?_, ?_⟩,
      ?_⟩
    · rintro rfl
      simp [replyData]
    · rintro rfl
      exact rfl
    · unfold handle
      split_ifs with hc
      · exact rfl
      · exact rfl

theorem receive_blockSize {device device' : Device} {request reply : Bytes}
    (h : device.receive request = some (device', reply)) :
    device'.blockSize = device.blockSize := by
  unfold receive at h
  split at h
  · cases h
  · split_ifs at h
    obtain ⟨rfl, -⟩ := Prod.mk.inj (Option.some.inj h)
    unfold handle
    split_ifs
    · exact rfl
    · exact rfl

section Direct

variable {ε : Type}

def after (device : Device) (past : List (Sigma (Exchange ε))) : Device :=
  past.foldl (fun device ev => ((device.receive ev.1).map Prod.fst).getD device) device

/-- A transport that delivers every request and every reply at once. -/
def direct (device : Device) (silence : ε) (past : List (Sigma (Exchange ε))) (request : Bytes) :
    Exchange ε request :=
  match (device.after past).receive request with
  | some (_, reply) => .ok reply
  | none => .error silence

theorem after_append (device : Device) (past : List (Sigma (Exchange ε)))
    (ev : Sigma (Exchange ε)) : device.after (past ++ [ev]) =
      (((device.after past).receive ev.1).map Prod.fst).getD (device.after past) := by
  simp [after]

theorem after_blockSize (device : Device) (past : List (Sigma (Exchange ε))) :
    (device.after past).blockSize = device.blockSize := by
  induction past using List.reverseRecOn with
  | nil => exact rfl
  | append_singleton past ev ih =>
    rw [after_append]
    cases hr : (device.after past).receive ev.1 with
    | none => exact ih
    | some result => exact (receive_blockSize hr).trans ih

end Direct
end Device

def smallDevice : Device := ⟨0x08002000, 64, [0, 0, 0, 0, 0, 1, 0, 0], fun _ => 0⟩

instance : Debug Unit := ⟨fun _ => "()"⟩

end Aldis.Katapult

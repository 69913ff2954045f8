import Aldis.Flash.Katapult.Assembler
import Aldis.Flash.Katapult.Grammar
import Aldis.Lib.Program

/-!
# Katapult over CAN and over serial

Requests are sent in pieces and replies reassembled from what the reads return. The clock and the
other side decide each turn of a receive loop: whether the deadline has passed, and what the read
returns. A loop whose turns are used up is still waiting.
-/

namespace Aldis.Katapult

open Octets Windows

structure Turn (ε χ : Type) where
  expired : Bool
  read : Except ε χ

def Turn.reading {ε χ : Type} (x : χ) : Turn ε χ := ⟨false, .ok x⟩

variable {ε : Type}

namespace Can

def KATAPULT_NODE_ID : ℕ := 129
def KATAPULT_REQUEST_ID : ℕ := KATAPULT_NODE_ID * 2 + 0x100
def KATAPULT_RESPONSE_ID : ℕ := KATAPULT_REQUEST_ID + 1
def CLASSIC_CAN_MAX_DATA : ℕ := 8

structure CanFrame where
  id : ℕ
  data : Bytes
  standard : id ≤ 0x7ff
  classic : data.length ≤ CLASSIC_CAN_MAX_DATA

def fragmentRequest (request : Bytes) : List CanFrame :=
  (chunks CLASSIC_CAN_MAX_DATA request).attach.map fun chunk =>
    ⟨KATAPULT_REQUEST_ID, chunk.1, by decide, mem_chunks_length chunk.2⟩

inductive CanTransportError (ε : Type) where
  | io (error : ε)
  | responseTooLarge (length : ℕ)
  | responseLengthExceeded (expected actual : ℕ)
  | timeout

def CanTransportError.ofAssembly : AssemblyError → CanTransportError ε
  | .tooLarge length => responseTooLarge length
  | .lengthExceeded expected actual => responseLengthExceeded expected actual

def receive : ResponseAssembler → List (Turn ε CanFrame) →
    Option (Except (CanTransportError ε) Bytes)
  | _, [] => none
  | assembler, turn :: rest =>
    if turn.expired then some (.error .timeout)
    else match turn.read with
      | .error error => some (.error (.io error))
      | .ok frame =>
        if frame.id ≠ KATAPULT_RESPONSE_ID then receive assembler rest
        else match assembler.push frame.data with
          | (_, .ok (some response)) => some (.ok response)
          | (assembler, .ok none) => receive assembler rest
          | (_, .error error) => some (.error (.ofAssembly error))

def exchange (write : CanFrame → Except ε Unit) (request : Bytes) (turns : List (Turn ε CanFrame)) :
    Option (Except (CanTransportError ε) Bytes) :=
  match (fragmentRequest request).forM write with
  | .error error => some (.error (.io error))
  | .ok () => receive .new turns

section Receive

variable {assembler later : ResponseAssembler} {frame : CanFrame} {rest : List (Turn ε CanFrame)}

theorem receive_other (hid : frame.id ≠ KATAPULT_RESPONSE_ID) :
    receive assembler (Turn.reading frame :: rest) = receive assembler rest := by
  change (if frame.id ≠ KATAPULT_RESPONSE_ID then receive assembler rest else _) = _
  rw [if_pos hid]

theorem receive_waits (hid : frame.id = KATAPULT_RESPONSE_ID)
    (hp : assembler.push frame.data = (later, .ok none)) :
    receive assembler (Turn.reading frame :: rest) = receive later rest := by
  change (if frame.id ≠ KATAPULT_RESPONSE_ID then receive assembler rest else _) = _
  rw [if_neg (not_not.2 hid), hp]

theorem receive_completes {response : Bytes} (hid : frame.id = KATAPULT_RESPONSE_ID)
    (hp : assembler.push frame.data = (later, .ok (some response))) :
    receive assembler (Turn.reading frame :: rest) = some (.ok response) := by
  change (if frame.id ≠ KATAPULT_RESPONSE_ID then receive assembler rest else _) = _
  rw [if_neg (not_not.2 hid), hp]

end Receive

def replyData (frames : List CanFrame) : List Bytes :=
  (frames.filter fun frame => frame.id = KATAPULT_RESPONSE_ID).map CanFrame.data

theorem fragmentRequest_flatten (request : Bytes) :
    ((fragmentRequest request).map CanFrame.data).flatten = request := by
  rw [fragmentRequest, List.map_map]
  change ((chunks CLASSIC_CAN_MAX_DATA request).attach.map Subtype.val).flatten = request
  rw [List.attach_map_subtype_val]
  exact flatten_chunks (by decide) request

theorem fragmentRequest_id {request : Bytes} {frame : CanFrame}
    (h : frame ∈ fragmentRequest request) : frame.id = KATAPULT_REQUEST_ID := by
  obtain ⟨chunk, -, rfl⟩ := List.mem_map.1 h
  exact rfl

end Can

namespace Serial

inductive SerialTransportError (ε : Type) where
  | io (error : ε)
  | responseTooLarge (length : ℕ)
  | responseLengthExceeded (expected actual : ℕ)
  | timeout
  | disconnected

def SerialTransportError.ofAssembly : AssemblyError → SerialTransportError ε
  | .tooLarge length => responseTooLarge length
  | .lengthExceeded expected actual => responseLengthExceeded expected actual

def receive : ResponseAssembler → List (Turn ε Bytes) →
    Option (Except (SerialTransportError ε) Bytes)
  | _, [] => none
  | assembler, turn :: rest =>
    if turn.expired then some (.error .timeout)
    else match turn.read with
      | .error error => some (.error (.io error))
      | .ok chunk =>
        if chunk = [] then some (.error .disconnected)
        else match assembler.push chunk with
          | (_, .ok (some response)) => some (.ok response)
          | (assembler, .ok none) => receive assembler rest
          | (_, .error error) => some (.error (.ofAssembly error))

def exchange (write : Bytes → Except ε Unit) (request : Bytes) (turns : List (Turn ε Bytes)) :
    Option (Except (SerialTransportError ε) Bytes) :=
  match write request with
  | .error error => some (.error (.io error))
  | .ok () => receive .new turns

section Receive

variable {assembler later : ResponseAssembler} {chunk : Bytes} {rest : List (Turn ε Bytes)}

theorem receive_waits (hne : chunk ≠ []) (hp : assembler.push chunk = (later, .ok none)) :
    receive assembler (Turn.reading chunk :: rest) = receive later rest := by
  change (if chunk = [] then _ else _) = _
  rw [if_neg hne, hp]

theorem receive_completes {response : Bytes} (hne : chunk ≠ [])
    (hp : assembler.push chunk = (later, .ok (some response))) :
    receive assembler (Turn.reading chunk :: rest) = some (.ok response) := by
  change (if chunk = [] then _ else _) = _
  rw [if_neg hne, hp]

end Receive

end Serial

section Delivered

variable {junk frame received : Bytes}

/-- Frames with other identifiers change nothing; the last answering one completes the reply. -/
theorem Delivery.receiveCan (h : Delivery junk frame) {frames : List Can.CanFrame}
    {last : Can.CanFrame} (later : List (Turn ε Can.CanFrame))
    (hid : last.id = Can.KATAPULT_RESPONSE_ID) (hl : last.data ≠ [])
    (hc : received ++ (Can.replyData (frames ++ [last])).flatten = junk ++ frame) :
    Can.receive ⟨held junk received⟩ ((frames ++ [last]).map Turn.reading ++ later) =
      some (.ok frame) := by
  induction frames generalizing received with
  | nil =>
      have hlast : received ++ last.data = junk ++ frame := by
        simpa [Can.replyData, hid] using hc
      exact Can.receive_completes hid (h.push_last hlast)
  | cons first frames ih =>
      by_cases hfirst : first.id = Can.KATAPULT_RESPONSE_ID
      · have hrest : received ++ first.data ++ (Can.replyData (frames ++ [last])).flatten =
            junk ++ frame := by
          rw [← hc]
          simp [Can.replyData, hfirst]
        have hlast : last.data ∈ Can.replyData (frames ++ [last]) := by
          simp [Can.replyData, hid]
        have hpush := h.push_more hlast hl hrest
        rw [List.cons_append, List.map_cons, List.cons_append, Can.receive_waits hfirst hpush]
        exact ih hrest
      · have hrest : received ++ (Can.replyData (frames ++ [last])).flatten = junk ++ frame := by
          rw [← hc]
          simp [Can.replyData, hfirst]
        rw [List.cons_append, List.map_cons, List.cons_append, Can.receive_other hfirst]
        exact ih hrest

theorem Delivery.receiveSerial (h : Delivery junk frame) {chunks : List Bytes} {last : Bytes}
    (later : List (Turn ε Bytes)) (hl : ∀ chunk ∈ chunks ++ [last], chunk ≠ [])
    (hc : received ++ (chunks ++ [last]).flatten = junk ++ frame) :
    Serial.receive ⟨held junk received⟩ ((chunks ++ [last]).map Turn.reading ++ later) =
      some (.ok frame) := by
  have hlne : last ≠ [] := hl last (by simp)
  induction chunks generalizing received with
  | nil =>
      have hlast : received ++ last = junk ++ frame := by simpa using hc
      exact Serial.receive_completes hlne (h.push_last hlast)
  | cons chunk chunks ih =>
      have hne : chunk ≠ [] := hl chunk (by simp)
      have hrest : received ++ chunk ++ (chunks ++ [last]).flatten = junk ++ frame := by
        rw [← hc]
        simp
      have hpush := h.push_more (List.mem_append_right chunks List.mem_cons_self) hlne hrest
      rw [List.cons_append, List.map_cons, List.cons_append, Serial.receive_waits hne hpush]
      exact ih (fun c hm => hl c (List.mem_cons_of_mem _ hm)) hrest

/-- However a delivery is cut into chunks, the assembler yields nothing until the last one and then
exactly the frame, as does an exchange over either transport, and the fragments of a request make up
the request. -/
theorem reassembly_exact (ε : Type) (h : Delivery junk frame) :
    (∀ (chunks : List Bytes) (last : Bytes), last ≠ [] →
      (chunks ++ [last]).flatten = junk ++ frame →
      ResponseAssembler.new.pushAll (chunks ++ [last]) =
        chunks.map (fun _ => .ok none) ++ [.ok (some frame)]) ∧
    (∀ (write : Can.CanFrame → Except ε Unit) (request : Bytes) (frames : List Can.CanFrame)
      (last : Can.CanFrame) (later : List (Turn ε Can.CanFrame)),
      (∀ fragment ∈ Can.fragmentRequest request, write fragment = .ok ()) →
      last.id = Can.KATAPULT_RESPONSE_ID → last.data ≠ [] →
      (Can.replyData (frames ++ [last])).flatten = junk ++ frame →
      Can.exchange write request ((frames ++ [last]).map Turn.reading ++ later) =
        some (.ok frame)) ∧
    (∀ (write : Bytes → Except ε Unit) (request : Bytes) (chunks : List Bytes) (last : Bytes)
      (later : List (Turn ε Bytes)), write request = .ok () →
      (∀ chunk ∈ chunks ++ [last], chunk ≠ []) →
      (chunks ++ [last]).flatten = junk ++ frame →
      Serial.exchange write request ((chunks ++ [last]).map Turn.reading ++ later) =
        some (.ok frame)) ∧
    ∀ request : Bytes, ((Can.fragmentRequest request).map Can.CanFrame.data).flatten = request ∧
      ∀ fragment ∈ Can.fragmentRequest request, fragment.id = Can.KATAPULT_REQUEST_ID := by
  refine ⟨?_, ?_, ?_, fun request => ⟨Can.fragmentRequest_flatten request,
    fun _ hf => Can.fragmentRequest_id hf⟩⟩
  · intro chunks last hl hc
    exact @Delivery.pushAll junk frame [] h chunks last hl hc
  · intro write request frames last later hw hid hl hc
    rw [Can.exchange, Interaction.forM_ok_iff.2 hw]
    exact @Delivery.receiveCan ε junk frame [] h frames last later hid hl hc
  · intro write request chunks last later hw hl hc
    rw [Serial.exchange, hw]
    exact @Delivery.receiveSerial ε junk frame [] h chunks last later hl hc

end Delivered

/-- A reply behind a lone header byte, cut inside its header. -/
theorem reassembly_exact_after_header_byte :
    ResponseAssembler.new.pushAll [[0x55, 0x01, 0x01], (reply 0x13 []).drop 1] =
      [.ok none, .ok (some (reply 0x13 []))] := by
  have h : Delivery [0x55, 0x01] (reply 0x13 []) := by
    refine ⟨by unfold Occurs; decide, ?_, by decide⟩
    unfold Occurs
    decide
  exact (reassembly_exact Unit h).1 [[0x55, 0x01, 0x01]] ((reply 0x13 []).drop 1)
    (by decide) (by decide)

end Aldis.Katapult

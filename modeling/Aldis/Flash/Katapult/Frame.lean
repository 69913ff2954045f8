import Aldis.Lib.Octets
import Aldis.Lib.Text

/-!
# Katapult frames

Encoding of requests and decoding of replies. Both directions share the header, the word count,
the CRC and the trailer; a reply has the status in place of the command byte.
-/

namespace Aldis.Katapult

open Octets Text

def HEADER : Bytes := [0x01, 0x88]
def TRAILER : Bytes := [0x99, 0x03]
def MAX_PAYLOAD_BYTES : ℕ := 255 * 4
def MIN_FRAME_LENGTH : ℕ := 8
def MAX_RESPONSE_FRAME_BYTES : ℕ := MIN_FRAME_LENGTH + MAX_PAYLOAD_BYTES
def ACK_SUCCESS : UInt8 := 0xa0

inductive Command where
  | connect
  | sendBlock
  | sendEof
  | requestBlock
  | complete
  | getCanbusId
  deriving DecidableEq

namespace Command

def code : Command → UInt8
  | connect => 0x11
  | sendBlock => 0x12
  | sendEof => 0x13
  | requestBlock => 0x14
  | complete => 0x15
  | getCanbusId => 0x16

def debug : Command → Str
  | connect => "Connect"
  | sendBlock => "SendBlock"
  | sendEof => "SendEof"
  | requestBlock => "RequestBlock"
  | complete => "Complete"
  | getCanbusId => "GetCanbusId"

def ofCode (byte : UInt8) : Option Command :=
  [connect, sendBlock, sendEof, requestBlock, complete, getCanbusId].find? (·.code = byte)

@[simp] theorem ofCode_code (command : Command) : ofCode command.code = some command := by
  cases command <;> rfl

end Command

inductive FrameError where
  | payloadNotWordAligned (length : ℕ)
  | payloadTooLarge (length : ℕ)
  | responseTooShort (length : ℕ)
  | responseTooLarge (length : ℕ)
  | invalidResponseHeader
  | invalidResponseTrailer
  | responseLengthMismatch (expected actual : ℕ)
  | responseCrcMismatch (expected actual : UInt16)
  | responseRejected (status : UInt8)
  | responseMissingCommand
  deriving DecidableEq

/-- The error as `{:?}` writes it. -/
def FrameError.debug : FrameError → Str
  | payloadNotWordAligned length =>
    "PayloadNotWordAligned \x7b length: " ++ decimal length ++ " \x7d"
  | payloadTooLarge length => "PayloadTooLarge \x7b length: " ++ decimal length ++ " \x7d"
  | responseTooShort length => "ResponseTooShort \x7b length: " ++ decimal length ++ " \x7d"
  | responseTooLarge length => "ResponseTooLarge \x7b length: " ++ decimal length ++ " \x7d"
  | invalidResponseHeader => "InvalidResponseHeader"
  | invalidResponseTrailer => "InvalidResponseTrailer"
  | responseLengthMismatch expected actual => "ResponseLengthMismatch \x7b expected: " ++
      decimal expected ++ ", actual: " ++ decimal actual ++ " \x7d"
  | responseCrcMismatch expected actual => "ResponseCrcMismatch \x7b expected: " ++
      decimal expected.toNat ++ ", actual: " ++ decimal actual.toNat ++ " \x7d"
  | responseRejected status => "ResponseRejected \x7b status: " ++ decimal status.toNat ++ " \x7d"
  | responseMissingCommand => "ResponseMissingCommand"

def FrameError.display : FrameError → Str
  | payloadNotWordAligned length => "payload of " ++ decimal length ++
      " bytes is not a multiple of the 4-byte Katapult word size"
  | payloadTooLarge length => "payload of " ++ decimal length ++
      " bytes exceeds Katapult's maximum of " ++ decimal MAX_PAYLOAD_BYTES ++
      " bytes (one-byte word count)"
  | responseTooShort length => "response frame of " ++ decimal length ++
      " bytes is shorter than the minimum " ++ decimal MIN_FRAME_LENGTH ++ " bytes"
  | responseTooLarge length => "response frame of " ++ decimal length ++
      " bytes exceeds the maximum " ++ decimal MAX_RESPONSE_FRAME_BYTES ++ " bytes"
  | invalidResponseHeader => "response frame does not start with Katapult's header bytes"
  | invalidResponseTrailer => "response frame does not end with Katapult's trailer bytes"
  | responseLengthMismatch expected actual => "response frame length " ++ decimal actual ++
      " does not match the " ++ decimal expected ++
      " bytes implied by its declared payload size"
  | responseCrcMismatch expected actual => "response CRC " ++ hex0x 4 actual.toNat ++
      " does not match the expected " ++ hex0x 4 expected.toNat
  | responseRejected status =>
    "Katapult rejected the request with status " ++ hex0x 2 status.toNat
  | responseMissingCommand =>
    "successful response payload is too short to contain the echoed command word"

def crcStep (crc : UInt16) (byte : UInt8) : UInt16 :=
  let data := byte.toUInt16 ^^^ (crc &&& 0xff)
  let data := data ^^^ ((data &&& 0x0f) <<< 4)
  ((data <<< 8) ||| (crc >>> 8)) ^^^ (data >>> 4) ^^^ (data <<< 3)

def crc16Ccitt (buffer : Bytes) : UInt16 := buffer.foldl crcStep 0xffff

def encodeCommand (command : Command) (payload : Bytes) : Except FrameError Bytes :=
  if payload.length % 4 ≠ 0 then .error (.payloadNotWordAligned payload.length)
  else if MAX_PAYLOAD_BYTES < payload.length then .error (.payloadTooLarge payload.length)
  else
    let body := command.code :: UInt8.ofNat (payload.length / 4) :: payload
    .ok (HEADER ++ body ++ le16 (crc16Ccitt body) ++ TRAILER)

structure Response where
  command : UInt32
  data : Bytes
  deriving DecidableEq

def decodeResponse (frame : Bytes) : Except FrameError Response :=
  if frame.length < MIN_FRAME_LENGTH then .error (.responseTooShort frame.length)
  else if MAX_RESPONSE_FRAME_BYTES < frame.length then .error (.responseTooLarge frame.length)
  else if frame.take 2 ≠ HEADER then .error .invalidResponseHeader
  else if frame.drop (frame.length - 2) ≠ TRAILER then .error .invalidResponseTrailer
  else
    let payloadLength := (frame.getD 3 0).toNat * 4
    let expectedLength := MIN_FRAME_LENGTH + payloadLength
    if frame.length ≠ expectedLength then
      .error (.responseLengthMismatch expectedLength frame.length)
    else
      let actualCrc := fromLe16 (frame.drop (frame.length - 4))
      let expectedCrc := crc16Ccitt ((frame.drop 2).take (frame.length - 6))
      if actualCrc ≠ expectedCrc then .error (.responseCrcMismatch expectedCrc actualCrc)
      else if frame.getD 2 0 ≠ ACK_SUCCESS then .error (.responseRejected (frame.getD 2 0))
      else if payloadLength < 4 then .error .responseMissingCommand
      else
        let payload := (frame.drop 4).take payloadLength
        .ok ⟨fromLe32 payload, payload.drop 4⟩

/-- A request as its receiver reads it: the command and the payload. -/
def parseRequest (request : Bytes) : Option (Command × Bytes) := do
  let command ← Command.ofCode (← request[2]?)
  some (command, (request.drop 4).take (request.length - 8))

theorem parseRequest_of_encodeCommand {command : Command} {payload request : Bytes}
    (h : encodeCommand command payload = .ok request) :
    parseRequest request = some (command, payload) := by
  unfold encodeCommand at h
  split_ifs at h
  obtain rfl := Except.ok.inj h
  simp [parseRequest, HEADER, TRAILER, le16]

end Aldis.Katapult

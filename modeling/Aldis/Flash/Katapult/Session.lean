import Aldis.Flash.Katapult.Frame
import Aldis.Host.Cause
import Aldis.Lib.Program

/-!
# The Katapult session

Commands with bounded retries over any sequential transport, and the upload with its readback.
A transport answers a complete request with a complete reply or an error of its own.
-/

namespace Aldis.Katapult

open Interaction Octets Text

def MAX_ATTEMPTS : ℕ := 5
def BLOCK_ATTEMPTS : ℕ := 3

/-- Errors that `{:?}` can write. -/
class Debug (ε : Type) where
  debug : ε → Str

abbrev Exchange (ε : Type) : Bytes → Type := fun _ => Except ε Bytes

inductive TargetError where
  | unsupportedBlockSize (blockSize : UInt32)
  deriving DecidableEq

inductive SessionError where
  | encode (error : FrameError)
  | target (error : TargetError)
  | retriesExhausted (command : Command) (lastFailure : Str)
  | responseDataTooShort (command : Command) (expected actual : ℕ)
  | responseDataLengthMismatch (command : Command) (expected actual : ℕ)
  | addressMismatch (command : Command) (expected actual : UInt32)
  | addressOverflow
  | checksumMismatch
  | canbusUuidMismatch (expected actual : ℕ)
  deriving DecidableEq

def TargetError.display : TargetError → Str
  | unsupportedBlockSize blockSize =>
    "unsupported Katapult block size: " ++ decimal blockSize.toNat

def SessionError.cause : SessionError → Cause
  | encode error => .headline "could not encode request frame" (.leaf error.display)
  | target error => .headline "unsupported target geometry" (.leaf error.display)
  | retriesExhausted command lastFailure => .leaf
      ("no valid response to " ++ command.debug ++ " after retrying: " ++ lastFailure)
  | responseDataTooShort command expected actual => .leaf
      (command.debug ++ " response too short: expected at least " ++ decimal expected ++
        " bytes, got " ++ decimal actual)
  | responseDataLengthMismatch command expected actual => .leaf
      (command.debug ++ " response length mismatch: expected " ++ decimal expected ++
        " bytes, got " ++ decimal actual)
  | addressMismatch command expected actual => .leaf
      (command.debug ++ " acknowledged address " ++ hex0x 1 actual.toNat ++ ", expected " ++
        hex0x 1 expected.toNat)
  | addressOverflow => .leaf "firmware block address exceeds a 32-bit application address"
  | checksumMismatch => .leaf "readback SHA-1 does not match the transmitted padded data"
  | canbusUuidMismatch expected actual => .leaf
      ("Katapult CAN UUID " ++ hex0x 1 actual ++ " does not match configured UUID " ++
        hex0x 1 expected)

def SUPPORTED_BLOCK_SIZES : List ℕ := [64, 128, 256, 512]

/-- The geometry reported by `CONNECT`; only supported block sizes occur. -/
structure KatapultTarget where
  applicationStart : UInt32
  blockSize : ℕ
  supported : blockSize ∈ SUPPORTED_BLOCK_SIZES
  deriving DecidableEq

def KatapultTarget.new (applicationStart blockSize : UInt32) : Except TargetError KatapultTarget :=
  if h : blockSize.toNat ∈ SUPPORTED_BLOCK_SIZES then
    .ok ⟨applicationStart, blockSize.toNat, h⟩
  else .error (.unsupportedBlockSize blockSize)

structure UploadResult where
  pagesWritten : UInt32
  paddedBytes : ℕ
  deriving DecidableEq

structure KatapultConnection where
  protocolVersion : Bytes
  target : KatapultTarget
  deriving DecidableEq

/-- Session code over a transport whose errors are `ε`. -/
abbrev Session (ε : Type) := Attempt (Exchange ε) SessionError

/-- `KatapultTarget::new` on the last two words of a `CONNECT` reply. -/
def connection (response : Bytes) : Except SessionError KatapultConnection :=
  if response.length < 12 then .error (.responseDataTooShort .connect 12 response.length)
  else match KatapultTarget.new (fromLe32 (response.drop 4)) (fromLe32 (response.drop 8)) with
    | .ok target => .ok ⟨response.take 4, target⟩
    | .error error => .error (.target error)

/-- The big-endian UUID in the first six bytes of a reply. -/
def canbusUuid (response : Bytes) : Except SessionError ℕ :=
  if response.length < 6 then .error (.responseDataTooShort .getCanbusId 6 response.length)
  else .ok ((response.take 6).foldl (fun uuid byte => uuid * 256 + byte.toNat) 0)

def blockAddress (target : KatapultTarget) (index : ℕ) : Except SessionError UInt32 :=
  if index * target.blockSize < 2 ^ 32 then
    match checkedAdd target.applicationStart (UInt32.ofNat (index * target.blockSize)) with
    | some address => .ok address
    | none => .error .addressOverflow
  else .error .addressOverflow

def paddedBlock (chunk : Bytes) (blockSize : ℕ) : Bytes :=
  chunk ++ List.replicate (blockSize - chunk.length) 0xff

def responseU32 (command : Command) (response : Bytes) : Except SessionError UInt32 :=
  if response.length < 4 then .error (.responseDataTooShort command 4 response.length)
  else .ok (fromLe32 response)

section Session

variable {ε : Type} [Debug ε]

def attempts (command : Command) (request : Bytes) : ℕ → Str → Session ε Bytes
  | 0, lastFailure => throw (.retriesExhausted command lastFailure)
  | remaining + 1, _ => do
    match ← Attempt.perform request with
    | .error error =>
      attempts command request remaining ("transport error: " ++ Debug.debug error)
    | .ok reply => match decodeResponse reply with
      | .error error =>
        attempts command request remaining ("invalid response: " ++ error.debug)
      | .ok response =>
        if response.command = command.code.toUInt32 then return response.data
        else attempts command request remaining ("expected command " ++ command.debug ++
          ", got 0x" ++ hex response.command.toNat)

def command (command : Command) (payload : Bytes) : Session ε Bytes :=
  match encodeCommand command payload with
  | .error error => throw (.encode error)
  | .ok request => attempts command request MAX_ATTEMPTS "no response received"

def connect : Session ε KatapultConnection := do
  Attempt.ofExcept (connection (← command .connect []))

def verifyCanbusUuid (expected : ℕ) : Session ε Unit := do
  let actual ← Attempt.ofExcept (canbusUuid (← command .getCanbusId []))
  if actual = expected then return ()
  else throw (.canbusUuidMismatch expected actual)

def complete : Session ε Unit := do
  let _ ← command .complete []

def writeBlockAttempts (address : UInt32) (block : Bytes) : ℕ → UInt32 → Session ε Unit
  | 0, actual => throw (.addressMismatch .sendBlock address actual)
  | remaining + 1, _ => do
    let response ← command .sendBlock (le32 address ++ block)
    let actual ← Attempt.ofExcept (responseU32 .sendBlock response)
    if actual = address then return ()
    else writeBlockAttempts address block remaining actual

def writeBlock (address : UInt32) (block : Bytes) : Session ε Unit :=
  writeBlockAttempts address block BLOCK_ATTEMPTS 0

def readBlockAttempts (address : UInt32) (blockSize : ℕ) : ℕ → UInt32 → Session ε Bytes
  | 0, actual => throw (.addressMismatch .requestBlock address actual)
  | remaining + 1, _ => do
    let response ← command .requestBlock (le32 address)
    if response.length ≠ 4 + blockSize then
      throw (.responseDataLengthMismatch .requestBlock (4 + blockSize) response.length)
    let actual ← Attempt.ofExcept (responseU32 .requestBlock response)
    if actual = address then return response.drop 4
    else readBlockAttempts address blockSize remaining actual

def readBlock (address : UInt32) (blockSize : ℕ) : Session ε Bytes :=
  readBlockAttempts address blockSize BLOCK_ATTEMPTS 0

/-- Writes the chunks from block `index` on; returns everything hashed so far. -/
def writeBlocks (target : KatapultTarget) : ℕ → Bytes → List Bytes → Session ε Bytes
  | _, written, [] => return written
  | index, written, chunk :: rest => do
    let address ← Attempt.ofExcept (blockAddress target index)
    let block := paddedBlock chunk target.blockSize
    writeBlock address block
    writeBlocks target (index + 1) (written ++ block) rest

/-- Reads back the blocks of `indices`; returns everything hashed so far. -/
def readBlocks (target : KatapultTarget) : Bytes → List ℕ → Session ε Bytes
  | verified, [] => return verified
  | verified, index :: rest => do
    let address ← Attempt.ofExcept (blockAddress target index)
    let block ← readBlock address target.blockSize
    readBlocks target (verified ++ block) rest

variable (sha1 : Bytes → Bytes)

def upload (firmware : Bytes) (target : KatapultTarget) : Session ε UploadResult := do
  let blockCount := divCeil firmware.length target.blockSize
  let written ← writeBlocks target 0 [] (chunks target.blockSize firmware)
  let pagesWritten ← Attempt.ofExcept (responseU32 .sendEof (← command .sendEof []))
  let verified ← readBlocks target [] (List.range blockCount)
  if sha1 written ≠ sha1 verified then throw .checksumMismatch
  return ⟨pagesWritten, blockCount * target.blockSize⟩

end Session

theorem blockAddress_eq_ok {target : KatapultTarget} {index : ℕ} {address : UInt32}
    (h : blockAddress target index = .ok address) :
    address.toNat = target.applicationStart.toNat + index * target.blockSize := by
  unfold blockAddress checkedAdd at h
  split_ifs at h with hb hc
  · obtain rfl := Except.ok.inj h
    rw [UInt32.toNat_ofNat_of_lt' hb] at hc
    rw [UInt32.toNat_add, UInt32.toNat_ofNat_of_lt' hb, Nat.mod_eq_of_lt hc]

theorem KatapultTarget.blockSize_pos (target : KatapultTarget) : 0 < target.blockSize := by
  have h := target.supported
  simp only [SUPPORTED_BLOCK_SIZES, List.mem_cons, List.not_mem_nil, or_false] at h
  omega

def paddedFirmware (blockSize : ℕ) (firmware : Bytes) : Bytes :=
  (chunks blockSize firmware).flatMap (paddedBlock · blockSize)

theorem flatMap_paddedBlock (blockSize : ℕ) {count : ℕ} {firmware : Bytes}
    (h : firmware.length ≤ count * blockSize) :
    (List.range count).flatMap (fun i => paddedBlock (chunk blockSize i firmware) blockSize) =
      firmware ++ List.replicate (count * blockSize - firmware.length) 0xff := by
  induction count generalizing firmware with
  | zero =>
    have hnil : firmware = [] := List.length_eq_zero_iff.1 (by omega)
    simp [hnil]
  | succ count ih =>
    have hmul : (count + 1) * blockSize = count * blockSize + blockSize := Nat.succ_mul _ _
    have hrest : (firmware.drop blockSize).length ≤ count * blockSize := by
      rw [List.length_drop]
      omega
    have hlater : (List.range count).flatMap
        (fun i => paddedBlock (chunk blockSize (i + 1) firmware) blockSize) =
        firmware.drop blockSize ++
          List.replicate (count * blockSize - (firmware.drop blockSize).length) 0xff := by
      rw [← ih hrest]
      simp only [chunk_succ]
    rw [List.range_succ_eq_map, List.flatMap_cons, List.flatMap_map, hlater]
    have hfirst : chunk blockSize 0 firmware = firmware.take blockSize := by simp [chunk]
    rw [hfirst, paddedBlock, List.length_take, List.length_drop]
    by_cases hs : firmware.length ≤ blockSize
    · rw [List.take_of_length_le hs, List.drop_of_length_le hs, List.nil_append,
        List.append_assoc, List.replicate_append_replicate]
      congr 2
      omega
    · have hfull : blockSize - min blockSize firmware.length = 0 := by omega
      rw [hfull, List.replicate_zero, List.append_nil, ← List.append_assoc,
        List.take_append_drop]
      congr 2
      omega

/-- The data of a valid reply that echoes the command. -/
def accepted {ε : Type} (command : Command) : Except ε Bytes → Option Bytes
  | .error _ => none
  | .ok reply => match decodeResponse reply with
    | .error _ => none
    | .ok response =>
      if response.command = command.code.toUInt32 then some response.data else none

section Rules

open World

variable {ε S : Type} [Debug ε] {W : World (Exchange ε) S} {c : Command} {payload : Bytes}
  {I : S → Prop} {Q : Bytes → S → Prop} {R : SessionError → S → Prop}

/-- An invariant that permits the request and survives every answer that is not accepted holds
until a reply is, or until the attempts are used up. -/
theorem attempts_ensures {request : Bytes} (hp : ∀ s, I s → W.permits s request)
    (hf : ∀ s answer s', I s → W.step s request answer s' → accepted c answer = none → I s')
    (ha : ∀ s answer s' data, I s → W.step s request answer s' →
      accepted c answer = some data → Q data s')
    (hr : ∀ s last, I s → R (.retriesExhausted c last) s) (n : ℕ) (last : Str) (s : S)
    (hs : I s) : W.EnsuresOr (attempts c request n last) s Q R := by
  induction n generalizing last s with
  | zero => exact hr s last hs
  | succ n ih =>
    rw [attempts, ensuresOr_bind, ensuresOr_perform]
    refine ⟨hp s hs, fun answer s' ht => ?_⟩
    cases answer with
    | error e => exact ih _ s' (hf s _ s' hs ht rfl)
    | ok reply =>
      dsimp only
      cases hd : decodeResponse reply with
      | error e => exact ih _ s' (hf s _ s' hs ht (by simp [accepted, hd]))
      | ok response =>
        dsimp only
        by_cases hc : response.command = c.code.toUInt32
        · rw [if_pos hc]
          exact ha s _ s' response.data hs ht (by simp [accepted, hd, hc])
        · rw [if_neg hc]
          exact ih _ s' (hf s _ s' hs ht (by simp [accepted, hd, hc]))

theorem command_ensures (hp : ∀ s request, I s → encodeCommand c payload = .ok request →
      W.permits s request)
    (hf : ∀ s request answer s', I s → encodeCommand c payload = .ok request →
      W.step s request answer s' → accepted c answer = none → I s')
    (ha : ∀ s request answer s' data, I s → encodeCommand c payload = .ok request →
      W.step s request answer s' → accepted c answer = some data → Q data s')
    (he : ∀ s e, I s → (∀ expected actual, e ≠ .canbusUuidMismatch expected actual) → R e s)
    (s : S) (hs : I s) : W.EnsuresOr (command c payload) s Q R := by
  unfold command
  cases h : encodeCommand c payload with
  | error e => exact he s (.encode e) hs (by simp)
  | ok request =>
    exact attempts_ensures (fun s hs => hp s request hs h) (fun s a s' hs => hf s request a s' hs h)
      (fun s a s' data hs => ha s request a s' data hs h)
      (fun s last hs => he s _ hs (by simp)) _ _ s hs

end Rules
end Aldis.Katapult

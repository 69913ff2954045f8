import Aldis.Flash.Result
import Aldis.Flash.Samba.Command
import Aldis.Flash.Samba.Parts
import Aldis.Host.Cause
import Aldis.Lib.Program

/-!
# The SAM-BA backend

Flashes a SAMD21 through its monitor: identifies the chip, checks its protection and its size,
stages and copies the firmware chunk by chunk, and resets it only after every checksum matched.
-/

namespace Aldis.Samba

open Interaction Octets Text

def DSU_DEVICE_ID : UInt32 := 0x41002018
def NVMCTRL_PARAM : UInt32 := 0x41004008
def NVM_USER_ROW : UInt32 := 0x00804000
def AIRCR : UInt32 := 0xE000ED0C
def AIRCR_SYSRESETREQ : UInt32 := 0x05FA0004
def SAMD21_DEVICE_ID_MASK : UInt32 := 0xFFFF0000
def SAMD21_DEVICE_ID : UInt32 := 0x10010000
def STAGING_ADDRESS : UInt32 := 0x20004000
def CHUNK_SIZE : ℕ := 0x1000
def CRC_REPLY_LEN : ℕ := 12
def MAX_VERSION_LINE : ℕ := 128

def COPY_ACK : Bytes := [0x59, 0x0A, 0x0D]

/-- Where the application lives in flash. -/
structure SambaTarget where
  applicationStart : UInt32
  deriving DecidableEq

inductive IoErrorKind where
  | timedOut
  | unexpectedEof
  | other (description : Str)
  deriving DecidableEq

inductive SambaError where
  | noBootloaderOffset
  | insufficientRam (part : Str)
  | bootloaderSizeMismatch (applicationStart protectedSize : UInt32)
  | io (error : IoErrorKind)
  | unexpectedReply (command : Char) (reply : Bytes)
  | unsupportedChip (deviceId : UInt32)
  | emptyFirmware
  | firmwareTooLarge (finish flashSize : ℕ)
  | verificationMismatch (address : UInt32)
  deriving DecidableEq

def IoErrorKind.cause : IoErrorKind → Cause
  | timedOut => .leaf "Operation timed out"
  | unexpectedEof => .leaf "failed to fill whole buffer"
  | other description => .leaf description

def SambaError.cause : SambaError → Cause
  | noBootloaderOffset => .leaf
      "the firmware is built without a bootloader offset, so it would overwrite the bootloader"
  | insufficientRam part => .leaf
      ("the " ++ part ++ " has too little RAM to stage firmware through the SAM-BA bootloader; " ++
        "only the 32 KiB SAMD21x18 parts have enough")
  | bootloaderSizeMismatch applicationStart protectedSize => .leaf
      ("the firmware starts at " ++ hex0x 1 applicationStart.toNat ++
        " but the bootloader protects the first " ++ hex0x 1 protectedSize.toNat ++
        " bytes of flash; rebuild with the matching bootloader offset")
  | io error => .headline
      ("serial communication with the SAM-BA bootloader failed: " ++ error.cause.text) error.cause
  | unexpectedReply command reply => .leaf
      ("the SAM-BA bootloader replied " ++ "[" ++
        List.intercalate (", " : Str) (reply.map fun b => decimal b.toNat) ++ "]" ++ " to a '" ++
        [command] ++ "' command")
  | unsupportedChip deviceId => .leaf
      ("the chip behind the SAM-BA bootloader (device ID " ++ hex0x 8 deviceId.toNat ++
        ") is not a SAMD21")
  | emptyFirmware => .leaf "the firmware image is empty"
  | firmwareTooLarge finish flashSize => .leaf
      ("the firmware needs flash up to " ++ hex0x 1 finish ++ " but the chip's flash ends at " ++
        hex0x 1 flashSize)
  | verificationMismatch address => .leaf
      ("flash verification failed for the block at " ++ hex0x 1 address.toNat)

/-- The SAMD21 part a Kconfig selects; the bare family symbol is not a part. -/
def samd21Part (kconfig : Str) : Option Str :=
  (((lines kconfig).map trim).filterMap
    (fun line => (stripPrefix "CONFIG_MACH_" line).bind (stripSuffix "=y"))).find?
      fun family => len "SAMD21" < len family && "SAMD21".toList.isPrefixOf family

/-- The application address of a SAMD21 Kconfig, where the 8 KiB offset is the default. -/
def targetFromKconfig (kconfig : Str) : Except SambaError SambaTarget :=
  if hasLine kconfig "CONFIG_SAMD_FLASH_START_0000=y" then .error .noBootloaderOffset
  else match (samd21Part kconfig).filter (fun part => ! isFlashablePart part) with
    | some part => .error (.insufficientRam part)
    | none =>
      if hasLine kconfig "CONFIG_SAMD_FLASH_START_4000=y" then .ok ⟨0x4000⟩
      else .ok ⟨0x2000⟩

inductive PortCall where
  | writeAll (bytes : Bytes)
  | flush
  | readExact (length : ℕ)
  | read
  | discardInput
  deriving DecidableEq

/-- Nothing is known of the bytes that come back but how many were asked for. -/
abbrev PortValue : PortCall → Type
  | .readExact length => {bytes : Bytes // bytes.length = length}
  | _ => Unit

abbrev PortAnswer (call : PortCall) : Type := Except IoErrorKind (PortValue call)

abbrev Monitor := Attempt PortAnswer SambaError

def port (call : PortCall) : Monitor (PortValue call) := do
  Attempt.ofExcept ((← Attempt.perform call).mapError .io)

def writeAll (bytes : Bytes) : Monitor Unit := port (.writeAll bytes)

def flush : Monitor Unit := port .flush

def discardInput : Monitor Unit := port .discardInput

def readExact (length : ℕ) : Monitor {bytes : Bytes // bytes.length = length} :=
  port (.readExact length)

/-- A monitor already in binary mode does not answer `N#` again. -/
def normalMode : Monitor Unit := do
  writeAll (MonitorCommand.encode .normal)
  flush
  match (← Attempt.perform (.readExact 2) : Except IoErrorKind _) with
  | .ok _ | .error .timedOut | .error .unexpectedEof => discardInput
  | .error error => throw (.io error)

/-- The rest of the version line, of which `remaining` more bytes are accepted. -/
def versionLine : ℕ → Bytes → Monitor Bytes
  | 0, line => throw (.unexpectedReply 'V' line)
  | remaining + 1, line => do
    let byte := (← readExact 1).1.headD 0
    if byte = 0x0A then return line
    else versionLine remaining (line ++ [byte])

/-- The version line after at most `skips` bytes that still look like the reply to `N#`. -/
def banner : ℕ → Monitor Bytes
  | 0 => versionLine (MAX_VERSION_LINE + 1) []
  | skips + 1 => do
    let byte := (← readExact 1).1.headD 0
    if byte = 0x0A ∨ byte = 0x0D ∨ byte = 0 then banner skips
    else versionLine MAX_VERSION_LINE [byte]

/-- Reads what may follow the line; a timeout ends it. -/
def trailing : ℕ → Monitor Unit
  | 0 => return ()
  | remaining + 1 => do
    match (← Attempt.perform .read : Except IoErrorKind _) with
    | .ok _ => trailing remaining
    | .error .timedOut => return ()
    | .error error => throw (.io error)

def handshake : Monitor Unit := do
  normalMode
  writeAll (MonitorCommand.encode .version)
  flush
  let _ ← banner 2
  trailing 2

def readWord (address : UInt32) : Monitor UInt32 := do
  writeAll (MonitorCommand.encode (.readWord address.toNat))
  return fromLe32 (← readExact 4).1

def writeWord (address value : UInt32) : Monitor Unit :=
  writeAll (MonitorCommand.encode (.writeWord address.toNat value.toNat))

def stage (bytes : Bytes) : Monitor Unit := do
  writeAll (MonitorCommand.encode (.stage STAGING_ADDRESS.toNat bytes.length))
  writeAll bytes

def expectCopyAck : Monitor Unit := do
  let reply := (← readExact 3).1
  if reply = COPY_ACK then return ()
  else throw (.unexpectedReply 'Y' reply)

def writeFlash (address : UInt32) (length : ℕ) : Monitor Unit := do
  writeAll (MonitorCommand.encode (.copyFrom STAGING_ADDRESS.toNat))
  expectCopyAck
  writeAll (MonitorCommand.encode (.copy address.toNat length))
  expectCopyAck

/-- `u32::from_str_radix` with radix 16, which accepts a leading `+`. -/
def fromStrRadix16 (bytes : Bytes) : Option ℕ :=
  let digits := if bytes.head? = some 0x2B then bytes.tail else bytes
  if digits ≠ [] ∧ digits.all (fun b => (nibble b).isSome) ∧ hexValue digits < 2 ^ 32 then
    some (hexValue digits)
  else none

/-- The checksum in a reply to `Z`; bytes that are no UTF-8 are no digits either. -/
def checksumReply (reply : Bytes) : Option UInt16 :=
  if reply.getD 0 0 = 0x5A ∧ reply.getD 9 0 = 0x23 then
    ((fromStrRadix16 ((reply.drop 1).take 8)).filter (· < 2 ^ 16)).map UInt16.ofNat
  else none

def checksum (address : UInt32) (length : ℕ) : Monitor UInt16 := do
  writeAll (MonitorCommand.encode (.checksum address.toNat length))
  let reply := (← readExact CRC_REPLY_LEN).1
  match checksumReply reply with
  | some crc => return crc
  | none => throw (.unexpectedReply 'Z' reply)

def flashSizeOf (param : UInt32) : ℕ :=
  (param &&& 0xFFFF).toNat * (8 <<< ((param >>> 16) &&& 0x7).toNat)

def flashSize : Monitor ℕ := do
  return flashSizeOf (← readWord NVMCTRL_PARAM)

def protectedSizeOf (userRow : UInt32) : Option UInt32 :=
  if userRow &&& 0x7 ≠ 0x7 then some (0x8000 >>> (userRow &&& 0x7)) else none

def protectedBootloaderSize : Monitor (Option UInt32) := do
  return protectedSizeOf (← readWord NVM_USER_ROW)

def reset : Monitor Unit := do
  writeWord AIRCR AIRCR_SYSRESETREQ
  flush

def crcBit (crc : UInt16) : UInt16 :=
  if crc &&& 0x8000 ≠ 0 then (crc <<< 1) ^^^ 0x1021 else crc <<< 1

def crcByte (crc : UInt16) (byte : UInt8) : UInt16 :=
  Nat.repeat crcBit 8 (crc ^^^ (byte.toUInt16 <<< (8 : UInt16)))

/-- CRC-16/XMODEM, the checksum the monitor's `Z` command computes. -/
def crc16Xmodem (bytes : Bytes) : UInt16 := bytes.foldl crcByte 0

def paddedBytes (firmware : Bytes) : ℕ := divCeil firmware.length CHUNK_SIZE * CHUNK_SIZE

/-- `start + (index * CHUNK_SIZE) as u32`, as the release build computes it. -/
def chunkAddress (start : UInt32) (index : ℕ) : UInt32 :=
  start + UInt32.ofNat (index * CHUNK_SIZE)

def checkPart (start : UInt32) (firmware : Bytes) : Monitor Unit := do
  let deviceId ← readWord DSU_DEVICE_ID
  if deviceId &&& SAMD21_DEVICE_ID_MASK ≠ SAMD21_DEVICE_ID then
    throw (.unsupportedChip deviceId)
  let protectedSize ← protectedBootloaderSize
  if let some protectedSize := protectedSize.filter (fun size => size ≠ start) then
    throw (.bootloaderSizeMismatch start protectedSize)
  let flashSize ← flashSize
  if flashSize < start.toNat + paddedBytes firmware then
    throw (.firmwareTooLarge (start.toNat + paddedBytes firmware) flashSize)

def writeChunks (start : UInt32) : ℕ → List Bytes → Monitor Unit
  | _, [] => return ()
  | index, chunk :: rest => do
    stage (resize CHUNK_SIZE 0xFF chunk)
    writeFlash (chunkAddress start index) CHUNK_SIZE
    writeChunks start (index + 1) rest

def verifyChunks (start : UInt32) : ℕ → List Bytes → Monitor Unit
  | _, [] => return ()
  | index, chunk :: rest => do
    let crc ← checksum (chunkAddress start index) chunk.length
    if crc ≠ crc16Xmodem chunk then throw (.verificationMismatch (chunkAddress start index))
    verifyChunks start (index + 1) rest

def flash (target : SambaTarget) (firmware : Bytes) : Monitor FlashResult := do
  if firmware = [] then throw .emptyFirmware
  handshake
  checkPart target.applicationStart firmware
  writeChunks target.applicationStart 0 (chunks CHUNK_SIZE firmware)
  verifyChunks target.applicationStart 0 (chunks CHUNK_SIZE firmware)
  reset
  return ⟨none, paddedBytes firmware⟩

end Aldis.Samba

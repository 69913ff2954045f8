import Aldis.Lib.Octets
import Aldis.Moonraker
import Aldis.Revision

/-!
# Beacon firmware

How a Beacon names itself, the DFU image it takes from the user's checkout, and what each
Beacon of an inventory is updated to.
-/

namespace Aldis.Beacon

open Text Octets

def VENDOR_ID : UInt16 := 0x04d8
def NAME : Str := "Beacon"

variable {V : Type} [Semver V]

/-- One of the three plain numbers of a version, which must fit a byte. -/
def parsePart (part : Str) : Option ℕ :=
  if part = [] ∨ ¬ part.all isAsciiDigit then none else parseUnsigned (2 ^ 8) part

def parseReported (version : Str) : Option V :=
  match splitWhitespace version with
  | [word, number] =>
    if eqIgnoreAsciiCase word NAME then
      match number.splitOn '.' with
      | [major, minor, patch] => do
        some (Semver.new (← parsePart major) (← parsePart minor) (← parsePart patch))
      | _ => none
    else none
  | _ => none

/-- Decodes a DFU suffix's version: `0x2010` is 2.1.0 and `0x2100` is 2.10.0. -/
def versionFromBcd (bcd : UInt16) : V :=
  let low := bcd.toNat % 256
  let high := bcd.toNat / 256
  Semver.new (high / 16) (high % 16 * 10 + low / 16) (low % 16)

def reported (version : V) : Str := NAME ++ " " ++ Semver.display version

structure Firmware (V : Type) where
  version : V
  deriving DecidableEq

/-- The running Beacon `mcu` reports, or `none` when it is not one that can be compared. -/
def identify (mcu : Mcu) : Option (Firmware V) :=
  if mcu.appName.all (eqIgnoreAsciiCase · NAME) then
    (mcu.version.bind parseReported).map Firmware.mk
  else none

variable (V) in
def isBeacon (mcu : Mcu) : Bool := (identify (V := V) mcu).isSome

/-- Whether `mcu` names itself Beacon, including with a version that cannot be compared. -/
def namesItselfBeacon (mcu : Mcu) : Bool :=
  mcu.appName.all (eqIgnoreAsciiCase · NAME) && mcu.versionName.any (eqIgnoreAsciiCase · NAME)

/-- The settings section that configures the Beacon whose MCU object is `object`. -/
def configSection (object : Str) : Option Str :=
  (stripPrefix "mcu " object).filter fun name =>
    name = ("beacon" : Str) || ("beacon sensor " : Str).isPrefixOf name

def SUFFIX_LENGTH : ℕ := 16
def SUFFIX_SIGNATURE : Bytes := [0x55, 0x46, 0x44]

structure FirmwareImage (V : Type) where
  payload : Bytes
  vendorId : UInt16
  productId : UInt16
  version : V
  deriving DecidableEq

def usbId (vendorId productId : UInt16) : Str :=
  List.leftpad 4 '0' (hex vendorId.toNat) ++ ":" ++ List.leftpad 4 '0' (hex productId.toNat)

def FirmwareImage.usbId (image : FirmwareImage V) : Str :=
  Beacon.usbId image.vendorId image.productId

inductive ImageError where
  | tooShort
  | noSuffix
  | checksumMismatch
  | wrongVendor (vendorId : UInt16)
  | empty
  deriving DecidableEq

def ImageError.display : ImageError → Str
  | tooShort => "it is too short to be a DFU file"
  | noSuffix => "it has no DFU suffix"
  | checksumMismatch => "its DFU suffix checksum does not match its contents"
  | wrongVendor vendorId => "its DFU suffix names USB vendor " ++
      List.leftpad 4 '0' (hex vendorId.toNat) ++ ", not Beacon's " ++
      List.leftpad 4 '0' (hex VENDOR_ID.toNat)
  | empty => "it holds no firmware"

def dfuCrcStep (crc : UInt32) : UInt32 :=
  if crc &&& 1 = 1 then (crc >>> 1) ^^^ 0xedb88320 else crc >>> 1

/-- CRC-32 without its final inversion. -/
def dfuCrc (bytes : Bytes) : UInt32 :=
  bytes.foldl (fun crc byte => dfuCrcStep^[8] (crc ^^^ byte.toUInt32)) 0xFFFFFFFF

/-- Parses a raw payload followed by a DFU suffix whose CRC and vendor must match. -/
def parseImage (file : Bytes) : Except ImageError (FirmwareImage V) :=
  if file.length < SUFFIX_LENGTH then .error .tooShort
  else
    let suffix := file.drop (file.length - SUFFIX_LENGTH)
    let word := fun offset => fromLe16 (suffix.drop offset)
    if (suffix.drop 8).take 3 ≠ SUFFIX_SIGNATURE then .error .noSuffix
    else
      let length := (suffix.getD 11 0).toNat
      if length < SUFFIX_LENGTH ∨ file.length < length then .error .noSuffix
      else if dfuCrc (file.take (file.length - 4)) ≠ fromLe32 (suffix.drop 12) then
        .error .checksumMismatch
      else if word 4 ≠ VENDOR_ID then .error (.wrongVendor (word 4))
      else
        let payload := file.take (file.length - length)
        if payload = [] then .error .empty
        else .ok ⟨payload, word 4, word 2, versionFromBcd (word 0)⟩

structure Target (V : Type) where
  revision : Str
  path : Str
  version : V
  deriving DecidableEq

inductive Unavailable where
  | noCheckout
  | notConfigured
  | notUsb (transport : Str)
  | noProduct (device : Str)
  | unknownRevision (product : Str)
  | unreadable (path reason : Str)
  | invalidImage (path : Str) (reason : ImageError)
  | wrongBootloader (path image bootloader : Str)
  deriving DecidableEq

def Unavailable.display : Unavailable → Str
  | noCheckout => "no beacon_klipper checkout was found"
  | notConfigured => "its serial port is not configured"
  | notUsb transport =>
    "Beacon firmware is flashed over USB only, and it is configured on " ++ transport
  | noProduct device => "could not read the USB product name of " ++ device
  | unknownRevision product =>
    "its USB product name " ++ quoted product ++ " names no Beacon revision"
  | unreadable path reason => "could not read " ++ path ++ ": " ++ reason
  | invalidImage path reason =>
    path ++ " is not a Beacon firmware image: " ++ reason.display
  | wrongBootloader path image bootloader =>
    path ++ " is for bootloader " ++ image ++ ", not " ++ bootloader

/-- The checkout the images come from and, for each Beacon MCU object, its image or why there
is none. -/
structure Targets (V : Type) where
  checkout : Option Str
  mcus : List (Str × Except Unavailable (Target V))

def Targets.target (targets : Targets V) (name : Str) : Option (Target V) :=
  match targets.mcus.lookup name with
  | some (.ok target) => some target
  | _ => none

end Aldis.Beacon

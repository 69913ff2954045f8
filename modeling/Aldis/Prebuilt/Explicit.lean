import Aldis.Flash.Request

/-!
# A file the user names

`aldis flash <mcu> <file>` checks the file against the MCU. Prebuilt firmware never falls through
to the ordinary flash.
-/

namespace Aldis.Prebuilt

open Text Octets

inductive ExplicitError where
  | notBeaconImage (error : Beacon.ImageError)
  | cartographer (reason : Str)
  | unknownFociBoard (mcu : Str)
  deriving DecidableEq

def ExplicitError.display : ExplicitError → Str
  | notBeaconImage error => error.display
  | cartographer reason => reason
  | unknownFociBoard mcu => "FOCI publishes no builds for " ++ mcu ++
      " boards, so aldis cannot tell where its firmware must start"

variable {V : Type} [Semver V] (J : Type) [DictionaryReader J]

/-- The FOCI part of `prepareExplicit`: the board must be known. -/
def prepareFociFile (mcu : Mcu) (bytes : Bytes) : Except ExplicitError (FlashRequest V) :=
  match Foci.Board.fromMcu mcu.mcu with
  | none => .error (.unknownFociBoard mcu.mcu)
  | some board => .ok (.katapult .foci mcu bytes board.applicationStart .usbOnly)

/-- The Cartographer part of `prepareExplicit`: the image must suit the running probe. -/
def prepareCartographerFile (mcu : Mcu) (file : Path) (bytes : Bytes)
    (running : Cartographer.Firmware V) : Except ExplicitError (FlashRequest V) :=
  match Cartographer.checkImage J bytes running with
  | .error reason => .error (.cartographer (file ++ " does not suit it: " ++ reason.display))
  | .ok _ => .ok (.katapult .cartographer mcu bytes Cartographer.APPLICATION_START .usbOrCan)

/-- The request to flash `bytes`, read from `file`, to `mcu`; `none` when `mcu` is not prebuilt
firmware, so that any file may go through the ordinary flash. -/
def prepareExplicit (mcu : Mcu) (file : Path) (bytes : Bytes) :
    Except ExplicitError (Option (FlashRequest V)) :=
  -- A Beacon whose version cannot be compared still takes only a Beacon image.
  if Beacon.namesItselfBeacon mcu then
    match Beacon.parseImage bytes with
    | .error error => .error (.notBeaconImage error)
    | .ok image => .ok (some (.beacon mcu image))
  else match Cartographer.identify (V := V) mcu with
    | some (.error reason) => .error (.cartographer reason.display)
    | some (.ok running) => (prepareCartographerFile J mcu file bytes running).map some
    | none =>
      if Foci.isFoci mcu then (prepareFociFile mcu bytes).map some
      else .ok none

end Aldis.Prebuilt

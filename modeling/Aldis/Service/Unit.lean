import Aldis.Lib.Text

/-!
# Klipper's systemd unit

The validated unit name every service command is built from.
-/

namespace Aldis

open Text

def DEFAULT_KLIPPER_UNIT : Str := "klipper"
def MAX_UNIT_LEN : ℕ := 64

namespace KlipperUnit

def isUnitChar (c : Char) : Bool :=
  isAsciiAlphanumeric c || c == '_' || c == '.' || c == '-' || c == '@'

/-- `klipper` followed by `[A-Za-z0-9_.@-]`, at most 64 bytes. -/
def isValid (name : Str) : Bool :=
  len name ≤ MAX_UNIT_LEN && match stripPrefix DEFAULT_KLIPPER_UNIT name with
    | some rest => rest.all isUnitChar
    | none => false

end KlipperUnit

/-- A validated Klipper systemd unit name. -/
structure KlipperUnit where
  name : Str
  valid : KlipperUnit.isValid name = true

namespace KlipperUnit

def parse (name : Str) : Option KlipperUnit :=
  if h : isValid name = true then some ⟨name, h⟩ else none

def default : KlipperUnit := ⟨DEFAULT_KLIPPER_UNIT, by decide⟩

end KlipperUnit
end Aldis

import Aldis.Lib.Text

/-!
# SAMD21 parts

The Kconfig family names of the parts whose RAM holds the staging buffer.
-/

namespace Aldis.Samba

open Text

def STAGING_RAM_VARIANT : Str := "18"

def isFlashablePart (family : Str) : Bool :=
  match stripPrefix "SAMD21" family with
  | some variant => len variant == 3 && STAGING_RAM_VARIANT.isSuffixOf variant
  | none => false

end Aldis.Samba

import Mathlib.Tactic

/-!
# The result of a flash
-/

namespace Aldis

/-- What the bootloader reported, and the bytes transferred after its padding. -/
structure FlashResult where
  reportedPages : Option UInt32
  paddedBytes : ℕ
  deriving DecidableEq

end Aldis

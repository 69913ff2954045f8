import Aldis.Lib.Make

/-!
# Validation of a reported Kconfig

The embedded Kconfig comes from the firmware that runs on a board, and Klipper's Makefile
includes it, so only the line shapes that Klipper's own Kconfig writes are admitted.
-/

namespace Aldis.Kconfig

open Text

def MAX_BYTES : ℕ := 256 * 1024
def MAX_LINE_LEN : ℕ := 1024
def MAX_DISPLAY_LEN : ℕ := 80

inductive InvalidKconfig where
  | tooLarge (bytes : ℕ)
  | line (line : ℕ) (reason text : Str)
  deriving DecidableEq

def InvalidKconfig.display : InvalidKconfig → Str
  | tooLarge bytes => "the MCU-reported Kconfig is " ++ decimal bytes ++
      " bytes, larger than the " ++ decimal MAX_BYTES ++ " aldis accepts"
  | line number reason text => "line " ++ decimal number ++
      " of the MCU-reported Kconfig is not a plain Kconfig setting (" ++ reason ++ "): " ++
      quoted text

def takeBytes : ℕ → Str → Str
  | _, [] => []
  | limit, c :: s => if c.utf8Size ≤ limit then c :: takeBytes (limit - c.utf8Size) s else []

def truncated (line : Str) : Str :=
  if len line ≤ MAX_DISPLAY_LEN then line else takeBytes MAX_DISPLAY_LEN line ++ "..."

def isPrintable (c : Char) : Bool := 0x20 ≤ c.toNat && c.toNat ≤ 0x7e

/-- The text between the double quotes of a quoted value. -/
def unquoted (value : Str) : Option Str := (stripPrefix "\"" value).bind (stripSuffix "\"")

def isDirectoryChar (c : Char) : Bool := isAsciiAlphanumeric c || c == '_' || c == '-'

def isBoardDirectory (value : Str) : Bool :=
  match unquoted value with
  | some directory => directory ≠ [] && directory.all isDirectoryChar
  | none => false

def isSymbolChar (c : Char) : Bool := isAsciiAlphanumeric c || c == '_'

def isSymbol (name : Str) : Bool :=
  match stripPrefix "CONFIG_" name with
  | some rest => rest ≠ [] && rest.all isSymbolChar
  | none => false

def isNumber (value : Str) : Bool :=
  match stripPrefix "0x" value with
  | some hex => hex ≠ [] && hex.all isAsciiHexdigit
  | none =>
    let digits := (stripPrefix "-" value).getD value
    digits ≠ [] && digits.all isAsciiDigit

def isStringChar (c : Char) : Bool :=
  isAsciiAlphanumeric c || c ∈ (" !#%'()+,-./:=@[]_" : Str)

def isQuotedString (value : Str) : Bool :=
  match unquoted value with
  | some inner => !contains ".." inner && inner.all isStringChar
  | none => false

def isValue (value : Str) : Bool :=
  (["y", "n", "m"] : List Str).contains value || isNumber value || isQuotedString value

def checkLine (line : Str) : Except Str Unit :=
  if MAX_LINE_LEN < len line then .error "longer than 1024 characters"
  else if ¬ line.all isPrintable then .error "contains a control or non-ASCII character"
  else if trim line = [] then .ok ()
  else if line.head? = some '#' then
    -- A comment ending in a backslash continues onto the next line in make.
    if '\\' ∈ line then .error "comment contains a backslash" else .ok ()
  else match splitOnce "=" line with
    | none => .error "missing '='"
    | some (name, value) =>
      if ¬ isSymbol name then .error "not a CONFIG_ symbol assignment"
      else if ¬ isValue value then
        .error "value is not y, n, m, a number, or a safe quoted string"
      else if name = "CONFIG_BOARD_DIRECTORY" ∧ ¬ isBoardDirectory value then
        .error "CONFIG_BOARD_DIRECTORY is not a quoted single directory name"
      else .ok ()

def checkLines : ℕ → List Str → Except InvalidKconfig Unit
  | _, [] => .ok ()
  | index, line :: rest => match checkLine line with
    | .ok () => checkLines (index + 1) rest
    | .error reason => .error (.line (index + 1) reason (truncated line))

/-- Checks that every line is blank, a comment, or a `CONFIG_` symbol with a plain value. -/
def validate (kconfig : Str) : Except InvalidKconfig Unit :=
  if MAX_BYTES < len kconfig then .error (.tooLarge (len kconfig))
  else checkLines 0 (kconfig.splitOn '\n')

end Aldis.Kconfig

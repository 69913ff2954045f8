import Aldis.Lib.Text

/-!
# Errors and their sources

What an error shows: its own text and the texts along its `source()` chain.
-/

namespace Aldis

open Text

/-- The text of an error and those of its sources, outermost first. -/
structure Cause where
  text : Str
  sources : List Str
  deriving DecidableEq

namespace Cause

def leaf (text : Str) : Cause := ⟨text, []⟩

def headline (text : Str) (source : Cause) : Cause := ⟨text, source.text :: source.sources⟩

end Cause

/-- Renders an error with its sources, colon-separated; a text already rendered is not
repeated. -/
def errorChain (error : Cause) : Str :=
  error.sources.foldl
    (fun message text => if contains text message then message else message ++ ": " ++ text)
    error.text

/-- A failed file operation; only `NotFound` is told apart. -/
structure IoError where
  notFound : Bool
  cause : Cause
  deriving DecidableEq

end Aldis

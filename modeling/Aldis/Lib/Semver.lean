import Aldis.Lib.Text
import Mathlib.Data.Prod.Lex

/-!
# The interface of the `semver` crate

The crate is not part of the source, so the model takes its version type as a parameter.
`LawfulSemver` is the precedence its documentation promises for the two kinds of version the
model builds: a plain release, and the pre-release `dev.<n>` of one.
-/

open Text

/-- Versions as the crate provides them, ordered by precedence. -/
class Semver (V : Type) extends LinearOrder V where
  new : ℕ → ℕ → ℕ → V
  /-- `Prerelease::new`, stored as the version's `pre`. -/
  withPre : V → Str → Option V
  parse : Str → Option V
  display : V → Str

namespace Semver

variable {V : Type} [Semver V]

/-- Release numbers, then the pre-release number; a version without one comes last. -/
abbrev Rank := ℕ ×ₗ ℕ ×ₗ ℕ ×ₗ WithTop ℕ

def rank (major minor patch : ℕ) (pre : WithTop ℕ) : Rank :=
  toLex (major, toLex (minor, toLex (patch, pre)))

def devLabel (n : ℕ) : Str := "dev." ++ decimal n

inductive Built : V → Rank → Prop
  | new {a b c : ℕ} (ha : a < 2 ^ 64) (hb : b < 2 ^ 64) (hc : c < 2 ^ 64) :
      Built (Semver.new a b c) (rank a b c ⊤)
  | dev {a b c n : ℕ} {v : V} (ha : a < 2 ^ 64) (hb : b < 2 ^ 64) (hc : c < 2 ^ 64)
      (hn : n < 2 ^ 64) (h : withPre (Semver.new a b c) (devLabel n) = some v) :
      Built v (rank a b c n)

end Semver

open Semver in
class LawfulSemver (V : Type) [Semver V] : Prop where
  withPre_devLabel : ∀ (v : V) (n : ℕ), (withPre v (devLabel n)).isSome
  lt_iff_of_built : ∀ {v w : V} {r q : Rank}, Built v r → Built w q → (v < w ↔ r < q)

namespace Semver

def Rank.release (v : Rank) : ℕ × ℕ × ℕ :=
  ((ofLex v).1, (ofLex (ofLex v).2).1, (ofLex (ofLex (ofLex v).2).2).1)

/-- A version's release and its pre-release, without the build metadata. -/
def Rank.parts (s : Str) : Str × Option Str :=
  let version := (s.splitOn '+').headD []
  match splitOnce "-" version with
  | some (release, pre) => (release, some pre)
  | none => (version, none)

def Rank.parsePre : Option Str → Option (WithTop ℕ)
  | none => some ⊤
  | some label => ((stripPrefix "dev." label).bind parseU64).map fun n => n

/-- The plain releases and `dev.<n>` pre-releases, represented by their ranks. -/
instance : Semver Rank where
  new a b c := rank a b c ⊤
  withPre v label :=
    let (a, b, c) := Rank.release v
    some (rank a b c (digitsValue (label.drop 4)))
  parse s :=
    let (release, pre) := Rank.parts s
    match release.splitOn '.' with
    | [a, b, c] => do
      some (rank (← parseU64 a) (← parseU64 b) (← parseU64 c) (← Rank.parsePre pre))
    | _ => none
  display v :=
    let (a, b, c) := Rank.release v
    decimal a ++ "." ++ decimal b ++ "." ++ decimal c

theorem built_rank {v r : Rank} (h : Built v r) : v = r := by
  cases h with
  | new => rfl
  | @dev a b c n _ _ _ _ _ h =>
    have hn : digitsValue ((devLabel n).drop 4) = n := digitsValue_decimal n
    have hv : rank a b c (digitsValue ((devLabel n).drop 4)) = v := Option.some.inj h
    rw [← hv, hn]

instance : LawfulSemver Rank where
  withPre_devLabel _ _ := rfl
  lt_iff_of_built hv hw := by rw [built_rank hv, built_rank hw]

end Semver

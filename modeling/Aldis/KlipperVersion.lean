import Aldis.RevisionOrder

/-!
# Versions and positions

`klipperVersion` keeps the order of positions, and its one addition stays inside `u64`, except
after the last patch number there is.
-/

namespace Aldis.Revision

open Text Semver

/-- The `u64` additions that `klipperVersion` performs on a revision, by their operands. -/
def additions (revision : Str) : List (ℕ × ℕ) :=
  Option.toList do
    let revision ← stripPrefix "v" revision
    let segments := splitn 3 '-' revision
    let core ← segments[0]?
    let commits ← parseU64 (segments[1]?.getD "0")
    let parts := splitn 3 '.' core
    let _ ← parseU64 (← parts[0]?)
    let _ ← parseU64 (← parts[1]?)
    let patch ← parseU64 (← parts[2]?)
    if commits = 0 then none else some (patch, 1)

def Overflows (revision : Str) : Prop := ∃ a b, (a, b) ∈ additions revision ∧ 2 ^ 64 ≤ a + b

/-- The revision has commits after patch number `u64::MAX`. -/
def FollowsLastPatch (revision : Str) : Prop := ∃ m, numbers revision = some m ∧ m.Wraps

/-- Of one minor release, both revisions follow the last patch number or neither does. -/
def FollowAlike (running selected : Str) : Prop :=
  ∀ m k, numbers running = some m → numbers selected = some k → m.major = k.major →
    m.minor = k.minor → (m.Wraps ↔ k.Wraps)

/-- The versions of two revisions, when both parse, are ordered as their positions. -/
def OrderEmbedded (V : Type) [Semver V] (running selected : Str) : Prop :=
  ∀ (v w : V) (p q : Position), klipperVersion V running = some v →
    klipperVersion V selected = some w → position running = some p →
    position selected = some q → (v < w ↔ p < q) ∧ (v = w ↔ p = q)

theorem additions_eq (revision : Str) : additions revision =
    ((numbers revision).bind fun m =>
      if m.commits = 0 then none else some (m.patch, 1)).toList := by
  unfold additions numbers segmentNumbers coreNumbers
  simp only [Option.bind_eq_bind, Option.bind_assoc, Option.bind_some]

theorem overflows_iff (revision : Str) : Overflows revision ↔ FollowsLastPatch revision := by
  unfold Overflows FollowsLastPatch
  rw [additions_eq]
  cases hm : numbers revision with
  | none => simp
  | some m =>
      have hb : m.patch < 2 ^ 64 := (numbers_bounded hm).2.2.1
      by_cases h0 : m.commits = 0
      · simp [h0, Numbers.Wraps]
      · simp only [Option.bind_some, h0, if_false, Option.toList_some, List.mem_singleton,
          Prod.mk.injEq, Option.some.injEq, Numbers.Wraps]
        constructor
        · rintro ⟨_, _, ⟨rfl, rfl⟩, ho⟩
          exact ⟨m, rfl, by omega, by omega⟩
        · rintro ⟨k, rfl, hp, -⟩
          exact ⟨m.patch, 1, ⟨rfl, rfl⟩, by omega⟩

theorem Numbers.position_injective {m k : Numbers} (h : m.position = k.position) : m = k := by
  obtain ⟨a, b, c, n⟩ := m
  obtain ⟨a', b', c', n'⟩ := k
  simpa [Numbers.position, Position.mk] using h

/-- After the last patch number, a version comes before every other of its minor release. -/
theorem Numbers.position_lt_of_wraps {m k : Numbers} (hk : k.Bounded)
    (ha : m.major = k.major) (hb : m.minor = k.minor) (hw : m.Wraps) (hn : ¬ k.Wraps) :
    k.position < m.position := by
  obtain ⟨a, b, c, n⟩ := m
  obtain ⟨a', b', c', n'⟩ := k
  obtain ⟨-, -, hc, -⟩ := hk
  apply Position.mk_lt_mk.2
  simp only [Numbers.Wraps] at ha hb hw hn hc ⊢
  omega

theorem Numbers.rank_lt_rank_iff {m k : Numbers} (hm : m.Bounded) (hk : k.Bounded)
    (h : m.major = k.major → m.minor = k.minor → (m.Wraps ↔ k.Wraps)) :
    m.rank < k.rank ↔ m.position < k.position := by
  rcases lt_trichotomy m.position k.position with hlt | heq | hgt
  · have hr := (Numbers.rank_lt_iff hk hm hlt).2
      fun ⟨ha, hb, hw, hn⟩ => hn ((h ha.symm hb.symm).2 hw)
    exact iff_of_true hr hlt
  · obtain rfl := Numbers.position_injective heq
    simp
  · have hr := (Numbers.rank_lt_iff hm hk hgt).2 fun ⟨ha, hb, hw, hn⟩ => hn ((h ha hb).1 hw)
    exact iff_of_false hr.asymm hgt.asymm

section Versions

variable {V : Type} [Semver V] [LawfulSemver V]

/-- The order of two versions is the order of their positions, unless exactly one of the two
follows the last patch number of a minor release they share. -/
theorem orderEmbedded_iff (running selected : Str) :
    OrderEmbedded V running selected ↔ FollowAlike running selected := by
  constructor
  · intro h m k hm hk ha hb
    have hp : position running = some m.position := by rw [position, hm]; rfl
    have hq : position selected = some k.position := by rw [position, hk]; rfl
    obtain ⟨v, hv⟩ := Option.isSome_iff_exists.1
      ((klipperVersion_isSome_iff (V := V) running).2 (by rw [hp]; rfl))
    obtain ⟨w, hw⟩ := Option.isSome_iff_exists.1
      ((klipperVersion_isSome_iff (V := V) selected).2 (by rw [hq]; rfl))
    have hlt := (h v w _ _ hv hw hp hq).1
    have heq := (h v w _ _ hv hw hp hq).2
    by_contra hne
    rcases (by tauto : m.Wraps ∧ ¬ k.Wraps ∨ k.Wraps ∧ ¬ m.Wraps) with ⟨hx, hn⟩ | ⟨hx, hn⟩
    · have hpos := Numbers.position_lt_of_wraps (numbers_bounded hk) ha hb hx hn
      have hnot : ¬ w < v := by
        rw [klipperVersion_lt_iff hk hm hw hv,
          Numbers.rank_lt_iff (numbers_bounded hm) (numbers_bounded hk) hpos]
        exact not_not.2 ⟨ha, hb, hx, hn⟩
      rcases lt_trichotomy v w with hvw | hvw | hvw
      · exact hpos.asymm (hlt.1 hvw)
      · exact hpos.ne (heq.1 hvw).symm
      · exact hnot hvw
    · have hpos := Numbers.position_lt_of_wraps (numbers_bounded hm) ha.symm hb.symm hx hn
      have hnot : ¬ v < w := by
        rw [klipperVersion_lt_iff hm hk hv hw,
          Numbers.rank_lt_iff (numbers_bounded hk) (numbers_bounded hm) hpos]
        exact not_not.2 ⟨ha.symm, hb.symm, hx, hn⟩
      exact hnot (hlt.2 hpos)
  · intro h v w p q hv hw hp hq
    obtain ⟨m, hm, rfl⟩ := Option.map_eq_some_iff.1 hp
    obtain ⟨k, hk, rfl⟩ := Option.map_eq_some_iff.1 hq
    have hlt : v < w ↔ m.position < k.position := (klipperVersion_lt_iff hm hk hv hw).trans
      (Numbers.rank_lt_rank_iff (numbers_bounded hm) (numbers_bounded hk) (h m k hm hk))
    have hgt : w < v ↔ k.position < m.position := (klipperVersion_lt_iff hk hm hw hv).trans
      (Numbers.rank_lt_rank_iff (numbers_bounded hk) (numbers_bounded hm)
        fun ha hb => (h m k hm hk ha.symm hb.symm).symm)
    refine ⟨hlt, ?_⟩
    rw [le_antisymm_iff, le_antisymm_iff, ← not_lt, ← not_lt, ← not_lt, ← not_lt, hlt, hgt]

/-- Two versions are ordered as their positions without any overflow exactly when neither revision
follows the last patch number; the order alone also survives when both do. -/
theorem klipperVersion_embeds_iff (running selected : Str) :
    (OrderEmbedded V running selected ∧ ¬ Overflows running ∧ ¬ Overflows selected ↔
        ¬ FollowsLastPatch running ∧ ¬ FollowsLastPatch selected) ∧
      (OrderEmbedded V running selected ↔ FollowAlike running selected) := by
  refine ⟨?_, orderEmbedded_iff running selected⟩
  rw [orderEmbedded_iff, overflows_iff, overflows_iff]
  refine and_iff_right_of_imp fun ⟨hr, hs⟩ m k hm hk _ _ => ?_
  exact iff_of_false (fun hw => hr ⟨m, hm, hw⟩) fun hw => hs ⟨k, hk, hw⟩

end Versions

theorem klipperVersion_embeds_released :
    OrderEmbedded Semver.Rank "v0.13.0" "v0.13.0-756-g2d7717e3" ∧
      ¬ Overflows "v0.13.0" ∧ ¬ Overflows "v0.13.0-756-g2d7717e3" := by
  refine (klipperVersion_embeds_iff (V := Semver.Rank) _ _).1.2 ⟨?_, ?_⟩
  · rintro ⟨m, hm, hw, -⟩
    have hm' : numbers "v0.13.0" = some ⟨0, 13, 0, 0⟩ := by decide
    obtain rfl := Option.some.inj (hm'.symm.trans hm)
    exact absurd hw (by decide)
  · rintro ⟨m, hm, hw, -⟩
    have hm' : numbers "v0.13.0-756-g2d7717e3" = some ⟨0, 13, 0, 756⟩ := by decide
    obtain rfl := Option.some.inj (hm'.symm.trans hm)
    exact absurd hw (by decide)

/-- A commit after the last patch number parses to a version before its own tag. -/
theorem klipperVersion_past_last_patch :
    ¬ OrderEmbedded Semver.Rank "v0.13.18446744073709551615"
        "v0.13.18446744073709551615-1-g2d7717e3" ∧
      Overflows "v0.13.18446744073709551615-1-g2d7717e3" := by
  constructor
  · intro h
    have hlt := (h _ _ (.mk 0 13 18446744073709551615 0) (.mk 0 13 18446744073709551615 1)
      (by rfl) (by rfl) (by rfl) (by rfl)).1
    exact absurd (hlt.2 (by decide)) (by decide)
  · exact ⟨18446744073709551615, 1, by decide, by norm_num⟩

end Aldis.Revision

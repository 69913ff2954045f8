import Aldis.Agent.Blocker
import Aldis.Downgrade
import Aldis.UpdateRun.Pending

/-!
# Matching revisions and the commits they name

A `git describe` output names its commit by a hash of any length, so two of them name the same
commit when one extends the other by hash digits only. `revisionsMatch` accepts every extension.
-/

namespace Aldis

open Text Revision

def IsCount (s : Str) : Prop := s ≠ [] ∧ s.all isAsciiDigit = true
def IsHash (s : Str) : Prop := s ≠ [] ∧ s.all isAsciiHexdigit = true

/-- The outputs of `git describe --tags --long --always`: a tag, the commits past it and an
abbreviated hash, or the hash alone. -/
inductive Describes : Str → Option (Str × Str) → Str → Prop
  | tagged {tag count hash : Str} (hc : IsCount count) (hh : IsHash hash) :
      Describes (tag ++ '-' :: (count ++ '-' :: 'g' :: hash)) (some (tag, count)) hash
  | bare {hash : Str} (hh : IsHash hash) : Describes hash none hash

/-- Two bases name one commit: they are equal, or they have the same tag and count and their
hashes differ only in length. -/
def SameCommit (a b : Str) : Prop :=
  a = b ∨ ∃ line ha hb, Describes a line ha ∧ Describes b line hb ∧ (ha <+: hb ∨ hb <+: ha)

theorem SameCommit.symm {a b : Str} (h : SameCommit a b) : SameCommit b a := by
  rcases h with rfl | ⟨line, ha, hb, h₁, h₂, hp⟩
  · exact .inl rfl
  · exact .inr ⟨line, hb, ha, h₂, h₁, hp.symm⟩

theorem IsHash.append {hash rest : Str} (h : IsHash hash) (hr : rest.all isAsciiHexdigit = true) :
    IsHash (hash ++ rest) := by
  refine ⟨by simp [h.1], ?_⟩
  rw [List.all_append, h.2, hr]
  rfl

theorem Describes.append {base hash rest : Str} {line : Option (Str × Str)}
    (h : Describes base line hash) (hr : rest.all isAsciiHexdigit = true) :
    Describes (base ++ rest) line (hash ++ rest) := by
  cases h with
  | bare hh => exact .bare (hh.append hr)
  | @tagged tag count hash hc hh =>
    have he : tag ++ '-' :: (count ++ '-' :: 'g' :: hash) ++ rest =
        tag ++ '-' :: (count ++ '-' :: 'g' :: (hash ++ rest)) := by simp
    rw [he]
    exact .tagged hc (hh.append hr)

theorem Describes.isHash {base hash : Str} {line : Option (Str × Str)}
    (h : Describes base line hash) : IsHash hash := by
  cases h with
  | bare hh => exact hh
  | tagged _ hh => exact hh

theorem Describes.rest_of_append {base hash hash' rest : Str} {line : Option (Str × Str)}
    (h : Describes base line hash) (h' : Describes (base ++ rest) line hash') :
    hash' = hash ++ rest := by
  cases h with
  | bare =>
    generalize base ++ rest = s at h' ⊢
    cases h'
    rfl
  | @tagged tag count hash =>
    generalize he : tag ++ '-' :: (count ++ '-' :: 'g' :: hash) ++ rest = s at h'
    cases h'
    simpa using he.symm

/-- An extension names the same commit exactly when it adds hash digits to a `git describe`
output. -/
theorem sameCommit_append_iff {base rest : Str} (hr : rest ≠ []) :
    SameCommit base (base ++ rest) ↔
      (∃ line hash, Describes base line hash) ∧ rest.all isAsciiHexdigit = true := by
  constructor
  · rintro (h | ⟨line, hash, hash', h, h', -⟩)
    · exact absurd (by simpa using h) hr
    · have he := h.rest_of_append h'
      have hall := h'.isHash.2
      rw [he, List.all_append, Bool.and_eq_true] at hall
      exact ⟨⟨line, hash, h⟩, hall.2⟩
  · rintro ⟨⟨line, hash, h⟩, hall⟩
    exact .inr ⟨line, hash, hash ++ rest, h, h.append hall, .inl (List.prefix_append _ _)⟩

/-- Whatever `longer` adds to `base` is hash digits of a `git describe` output. -/
def AddsHashDigits (base longer : Str) : Prop :=
  ∀ rest, rest ≠ [] → longer = base ++ rest →
    (∃ line hash, Describes base line hash) ∧ rest.all isAsciiHexdigit = true

/-- The dirty states differ, or neither base adds anything but hash digits to the other. -/
def DiffersInHashOnly (running selected : Str) : Prop :=
  (splitDirtySuffix running).2 = (splitDirtySuffix selected).2 →
    AddsHashDigits (splitDirtySuffix running).1 (splitDirtySuffix selected).1 ∧
      AddsHashDigits (splitDirtySuffix selected).1 (splitDirtySuffix running).1

def NameSameCommit (running selected : Str) : Prop :=
  SameCommit (splitDirtySuffix running).1 (splitDirtySuffix selected).1

theorem prefix_sameCommit_iff (base longer : Str) :
    (base <+: longer → SameCommit base longer) ↔ AddsHashDigits base longer := by
  constructor
  · rintro h rest hr rfl
    exact (sameCommit_append_iff hr).1 (h (List.prefix_append _ _))
  · rintro h ⟨rest, rfl⟩
    by_cases hr : rest = []
    · exact .inl (by simp [hr])
    · exact (sameCommit_append_iff hr).2 (h rest hr rfl)

theorem revisionsMatch_sound_iff (running selected : Str) :
    (revisionsMatch running selected = true → NameSameCommit running selected) ↔
      DiffersInHashOnly running selected := by
  rw [revisionsMatch_iff, DiffersInHashOnly, ← prefix_sameCommit_iff, ← prefix_sameCommit_iff,
    and_imp]
  refine forall_congr' fun _ => ?_
  rw [or_imp]
  exact and_congr_right fun _ =>
    ⟨fun h hp => (h hp).symm, fun h hp => (h hp).symm⟩

section Verification

variable {V : Type} [Semver V]

theorem reachedBy_of_identify_eq_none {targets : Prebuilt.Targets V} {mcu : Mcu}
    (h : Prebuilt.identify (V := V) mcu = none) : targets.reachedBy mcu = none := by
  unfold Prebuilt.identify at h
  unfold Prebuilt.Targets.reachedBy Beacon.isBeacon
  cases hb : Beacon.identify (V := V) mcu with
  | some firmware => simp [hb] at h
  | none =>
    by_cases hc : Cartographer.isCartographer mcu = true
    · simp only [hb, Cartographer.identify, hc, if_true] at h
      split at h <;> simp_all
    · by_cases hf : Foci.isFoci mcu = true
      · simp only [hb, Cartographer.identify, hc, hf, if_true] at h
        cases hi : Foci.identify (V := V) mcu <;> simp [hi] at h
      · simp [hc, hf]

/-- With a known checkout, an MCU that is no vendor's is dropped only when it reports a matching
revision. -/
theorem pendingMcu_eq_none_of_known {inventory : McuInventory} {versions : TargetVersions V}
    {name selected : Str} {mcu : Mcu} (hs : versions.klipper = .known selected)
    (hf : inventory.find name = some mcu) (hi : Prebuilt.identify (V := V) mcu = none)
    (h : UpdateRun.pendingMcu inventory versions name = none) :
    ∃ running, mcu.version = some running ∧ revisionsMatch running selected = true := by
  obtain ⟨mcu', hf', hr⟩ := UpdateRun.pendingMcu_eq_none_iff.1 h
  obtain rfl := Option.some.inj (hf.symm.trans hf')
  unfold TargetVersions.reachedBy at hr
  rw [reachedBy_of_identify_eq_none hi, hs] at hr
  cases hv : mcu.version with
  | none => simp [hv] at hr
  | some running => exact ⟨running, rfl, by simpa [hv] using hr⟩

end Verification

/-- What is trusted of a match between `running` and `selected`: that it means the same commit,
for the match itself, for an updated MCU that is no longer waited for, and for the agent's
restart check. -/
structure MatchTrusted (running selected : Str) : Prop where
  revisions : revisionsMatch running selected = true → NameSameCommit running selected
  verified : ∀ {V : Type} [Semver V] (inventory : McuInventory) (versions : TargetVersions V)
    (name : Str) (mcu : Mcu), versions.klipper = .known selected →
    inventory.find name = some mcu → Prebuilt.identify (V := V) mcu = none →
    (mcu.version = some running ∨ mcu.version = none) →
    UpdateRun.pendingMcu inventory versions name = none →
    mcu.version = some running ∧ NameSameCommit running selected
  lifted : ∀ host : Agent.HostSnapshot, host.checkoutVersion = some (.known selected) →
    host.info.softwareVersion.getD "unknown" = running → Agent.RestartLifted host →
    NameSameCommit running selected

/-- A match is rightly trusted exactly when the two revisions, unless their dirty states differ,
differ in nothing but digits of the hash. -/
theorem match_trusted_iff (running selected : Str) :
    MatchTrusted running selected ↔ DiffersInHashOnly running selected := by
  rw [← revisionsMatch_sound_iff]
  refine ⟨MatchTrusted.revisions, fun h => ⟨h, ?_, ?_⟩⟩
  · intro V _ inventory versions name mcu hs hf hi hr hp
    obtain ⟨version, hv, hm⟩ := pendingMcu_eq_none_of_known hs hf hi hp
    rcases hr with hr | hr
    · obtain rfl := Option.some.inj (hv.symm.trans hr)
      exact ⟨hv, h hm⟩
    · rw [hr] at hv
      cases hv
  · intro host hc hr hl
    obtain ⟨checkout, hk, hm⟩ :=
      (Agent.restartBlocker_eq_none_iff host).1 (Agent.restartBlocker_of_lifted hl)
    obtain rfl : selected = checkout := by simpa [hc] using hk
    exact h (hr ▸ hm)

/-- A release matches the later releases whose patch number begins with its own. -/
theorem release_matches_later_release :
    revisionsMatch "v0.13.10" "v0.13.1" = true ∧ ¬ NameSameCommit "v0.13.10" "v0.13.1" := by
  refine ⟨by decide, fun h => ?_⟩
  have hs : SameCommit "v0.13.1" ("v0.13.1" ++ "0") := SameCommit.symm h
  obtain ⟨⟨line, hash, hd⟩, -⟩ := (sameCommit_append_iff (by decide)).1 hs
  generalize he : ("v0.13.1" : Str) = s at hd
  cases hd with
  | bare hh =>
    rw [← he] at hh
    exact absurd hh.2 (by decide)
  | tagged =>
    exact absurd (show '-' ∈ ("v0.13.1" : Str) by rw [he]; simp) (by decide)

end Aldis

import Aldis.Eligibility
import Aldis.RevisionOrder

/-!
# Downgrades of Klipper MCUs

When an MCU that runs a later position than its checkout is kept from an update. The prefix
comparison comes first, so a checkout whose base begins the running one counts as the same
commit however far behind it is.
-/

namespace Aldis

open Text Revision Eligibility

theorem stripDirtyBuildSuffix_eq_some {r base : Str} (h : stripDirtyBuildSuffix r = some base) :
    ∃ rest, r = base ++ '-' :: 'd' :: rest := by
  obtain ⟨⟨b, rest⟩, hs, h⟩ := Option.bind_eq_some_iff.1 h
  obtain ⟨⟨timestamp, hostname⟩, _, h⟩ := Option.bind_eq_some_iff.1 h
  dsimp only at h
  split_ifs at h
  obtain rfl := Option.some.inj h
  exact ⟨"irty-" ++ rest, by rw [splitOnce_eq_some hs]; simp⟩

/-- A revision is its base, or its base followed by a dirty marker. -/
theorem splitDirtySuffix_append (r : Str) :
    (splitDirtySuffix r).1 = r ∨ ∃ rest, r = (splitDirtySuffix r).1 ++ '-' :: 'd' :: rest := by
  unfold splitDirtySuffix
  cases hb : stripDirtyBuildSuffix r with
  | some base => exact .inr (stripDirtyBuildSuffix_eq_some hb)
  | none =>
    cases hd : stripSuffix "-dirty" r with
    | some base => exact .inr ⟨"irty", stripSuffix_eq_some_iff.1 hd⟩
    | none => exact .inl rfl

theorem position_base {r : Str} {p : Position} (h : position r = some p) :
    position (splitDirtySuffix r).1 = some p := by
  rcases splitDirtySuffix_append r with he | ⟨rest, he⟩
  · rw [he, h]
  · obtain ⟨m, hm, rfl⟩ := Option.map_eq_some_iff.1 h
    rw [he] at hm
    rw [position, numbers_of_append_dirty hm]
    rfl

theorem revisionsMatch_iff (running selected : Str) :
    revisionsMatch running selected = true ↔
      (splitDirtySuffix running).2 = (splitDirtySuffix selected).2 ∧
        ((splitDirtySuffix running).1 <+: (splitDirtySuffix selected).1 ∨
          (splitDirtySuffix selected).1 <+: (splitDirtySuffix running).1) := by
  unfold revisionsMatch
  generalize splitDirtySuffix running = r
  generalize splitDirtySuffix selected = s
  obtain ⟨rb, rd⟩ := r
  obtain ⟨sb, sd⟩ := s
  by_cases hd : rd = sd
  · by_cases hl : len rb ≤ len sb
    · simp only [hd, ne_eq, not_true_eq_false, if_false, hl, if_true, List.isPrefixOf_iff_prefix,
        true_and]
      refine ⟨.inl, fun h => h.elim id fun hp => ?_⟩
      rw [eq_of_prefix_of_len_le hp hl]
    · simp only [hd, ne_eq, not_true_eq_false, if_false, hl, List.isPrefixOf_iff_prefix, true_and]
      refine ⟨.inr, fun h => h.elim (fun hp => ?_) id⟩
      exact absurd (len_le_len hp) hl
  · simp only [ne_eq, hd, not_false_eq_true, if_true, Bool.false_eq_true, false_and]

/-- The selected base begins the running one, with the same dirty state. -/
def BeginsWithBase (running selected : Str) : Prop :=
  (splitDirtySuffix running).2 = (splitDirtySuffix selected).2 ∧
    (splitDirtySuffix selected).1 <+: (splitDirtySuffix running).1

/-- The running commits follow the last patch number of the minor release both revisions are of,
and the selected ones do not. -/
def WrapsBelow (running selected : Str) : Prop :=
  ∃ m k, numbers running = some m ∧ numbers selected = some k ∧ m.major = k.major ∧
    m.minor = k.minor ∧ m.Wraps ∧ ¬ k.Wraps

variable {V : Type} [Semver V] [LawfulSemver V]

theorem revisionsMatch_iff_of_newer {running selected : Str} (h : Newer running selected) :
    revisionsMatch running selected = true ↔ BeginsWithBase running selected := by
  obtain ⟨p, q, hp, hq, hlt⟩ := h
  rw [revisionsMatch_iff, BeginsWithBase]
  refine and_congr_right fun _ => or_iff_right fun hpre => ?_
  obtain ⟨t, ht⟩ := hpre
  have hbase := position_base hq
  rw [← ht] at hbase
  exact absurd (position_append_le (position_base hp) hbase) (not_le.2 hlt)

theorem klipperVersion_lt_iff_of_newer {running selected : Str} {v w : V}
    (h : Newer running selected) (hv : klipperVersion V running = some v)
    (hw : klipperVersion V selected = some w) : w < v ↔ ¬ WrapsBelow running selected := by
  obtain ⟨p, q, hp, hq, hlt⟩ := h
  obtain ⟨m, hm, rfl⟩ := Option.map_eq_some_iff.1 hp
  obtain ⟨k, hk, rfl⟩ := Option.map_eq_some_iff.1 hq
  rw [klipperVersion_lt_iff hk hm hw hv,
    Numbers.rank_lt_iff (numbers_bounded hm) (numbers_bounded hk) hlt]
  simp [WrapsBelow, hm, hk]

theorem compareVersions_eq_newer_iff {T : Type} [LinearOrder T] {v w : T} :
    compareVersions v w = .newer ↔ w < v := by
  unfold compareVersions
  split_ifs with h₁ h₂
  · simp [h₁.le]
  · simp [h₂]
  · simp [lt_of_le_of_ne (not_lt.1 h₁) (Ne.symm h₂)]

/-- A revision past its checkout's compares as newer, unless the checkout's base begins it or its
version wraps. -/
theorem compareRevisions_eq_newer_iff {running selected : Str} (h : Newer running selected) :
    compareRevisions V running selected = .newer ↔
      ¬ BeginsWithBase running selected ∧ ¬ WrapsBelow running selected := by
  obtain ⟨p, q, hp, hq, -⟩ := id h
  obtain ⟨v, hv⟩ := Option.isSome_iff_exists.1
    ((klipperVersion_isSome_iff (V := V) running).2 (by rw [hp]; rfl))
  obtain ⟨w, hw⟩ := Option.isSome_iff_exists.1
    ((klipperVersion_isSome_iff (V := V) selected).2 (by rw [hq]; rfl))
  rw [← revisionsMatch_iff_of_newer h, ← klipperVersion_lt_iff_of_newer h hv hw,
    ← compareVersions_eq_newer_iff, compareRevisions, hv, hw]
  cases hm : revisionsMatch running selected with
  | true => simp
  | false =>
    simp only [Bool.false_eq_true, if_false, not_false_eq_true, true_and]
    cases hc : compareVersions v w <;> simp

section Eligible

variable {mcu : Mcu} {versions : TargetVersions V} {running selected : Str}

omit [LawfulSemver V] in
theorem downgradeOf_eligible (he : classifyMcu (V := V) mcu = .eligible)
    (hr : mcu.version = some running) (hs : versions.klipper = .known selected) :
    (downgradeOf mcu versions).isSome ↔ compareRevisions V running selected = .newer := by
  unfold downgradeOf
  rw [he, hr, hs]
  dsimp only
  split_ifs with h <;> simp [h]

omit [LawfulSemver V] in
theorem isSelected_of_downgradeOf (h : (downgradeOf mcu versions).isSome)
    (selection : UpdateSelection) : isSelected mcu versions selection = false := by
  unfold isSelected
  simp [h]

/-- No selection offers an eligible MCU that runs a later position than its checkout, and an
update of it is refused, exactly when neither the prefix comparison nor the wrapped patch number
hides the difference. -/
theorem downgrade_prevented_iff (he : classifyMcu (V := V) mcu = .eligible)
    (hr : mcu.version = some running) (hs : versions.klipper = .known selected)
    (hn : Newer running selected) :
    ((∀ selection, isSelected mcu versions selection = false) ∧
        (downgradeRefusal mcu versions).isSome) ↔
      ¬ BeginsWithBase running selected ∧ ¬ WrapsBelow running selected := by
  rw [← compareRevisions_eq_newer_iff (V := V) hn, ← downgradeOf_eligible he hr hs,
    downgradeRefusal, Option.isSome_map]
  refine ⟨And.right, fun h => ⟨isSelected_of_downgradeOf h, h⟩⟩

end Eligible

def stm32Mcu (version : Str) : Mcu where
  name := "mcu"
  app := some "Klipper"
  version := some version
  mcu := "stm32f446xx"
  canbusFrequencyHz := none
  buildVersions := none
  transport := some (.serial "/dev/ttyACM0")
  kconfig := "CONFIG_MACH_STM32=y"

def checkoutAt (revision : Str) : TargetVersions Semver.Rank where
  klipper := .known revision
  prebuilt := ⟨none, ⟨none, []⟩, ⟨none, none, []⟩⟩

theorem downgrade_prevented_after_release :
    Newer "v0.13.1-4-g2d7717e3" "v0.13.0" ∧
      (∀ selection, isSelected (stm32Mcu "v0.13.1-4-g2d7717e3") (checkoutAt "v0.13.0")
        selection = false) ∧
      (downgradeRefusal (stm32Mcu "v0.13.1-4-g2d7717e3") (checkoutAt "v0.13.0")).isSome := by
  have hn : Newer "v0.13.1-4-g2d7717e3" "v0.13.0" :=
    ⟨.mk 0 13 1 4, .mk 0 13 0 0, by decide, by decide, by decide⟩
  have he : classifyMcu (V := Semver.Rank) (stm32Mcu "v0.13.1-4-g2d7717e3") = .eligible := by
    decide
  refine ⟨hn, (downgrade_prevented_iff he rfl rfl hn).2 ⟨by unfold BeginsWithBase; decide, ?_⟩⟩
  rintro ⟨m, k, hm, hk, _, _, hw, _⟩
  have hm' : numbers "v0.13.1-4-g2d7717e3" = some ⟨0, 13, 1, 4⟩ := by decide
  rw [hm'] at hm
  obtain rfl := Option.some.inj hm
  exact absurd hw.1 (by norm_num)

/-- A checkout at a release is offered to an MCU that runs commits past it. -/
theorem downgrade_offered_past_release :
    classifyMcu (V := Semver.Rank) (stm32Mcu "v0.13.0-756-g2d7717e3") = .eligible ∧
      Newer "v0.13.0-756-g2d7717e3" "v0.13.0" ∧
      isSelected (stm32Mcu "v0.13.0-756-g2d7717e3") (checkoutAt "v0.13.0") .all = true ∧
      downgradeRefusal (stm32Mcu "v0.13.0-756-g2d7717e3") (checkoutAt "v0.13.0") = none := by
  refine ⟨by decide, ⟨.mk 0 13 0 756, .mk 0 13 0 0, by decide, by decide, by decide⟩, by decide,
    by decide⟩

end Aldis

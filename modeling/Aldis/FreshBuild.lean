import Aldis.CommitMatch

/-!
# Firmware built from the checkout

A checkout is described by `git describe`, with `-dirty` when it has local changes; Klipper's
build script adds the time and the host to a dirty description. Firmware reports what its build
embedded, so both sides name one commit with hashes of any length, and a match tells whether
both or neither are dirty.
-/

namespace Aldis

open Text Revision

/-- `time.strftime("%Y%m%d_%H%M%S")`. -/
inductive IsTimestamp : Str → Prop
  | mk {date time : Str} (hd : date.length = 8) (ht : time.length = 6)
      (hdate : date.all isAsciiDigit = true) (htime : time.all isAsciiDigit = true) :
      IsTimestamp (date ++ '_' :: time)

/-- The reports of one base: the base itself, the base of a dirty checkout, and what a dirty build
embeds. The flag tells whether the report is dirty. -/
inductive Reports (base : Str) : Bool → Str → Prop
  | clean : Reports base false base
  | dirty : Reports base true (base ++ "-dirty")
  | build {timestamp hostname : Str} (ht : IsTimestamp timestamp) (hh : hostname ≠ []) :
      Reports base true (base ++ "-dirty-" ++ timestamp ++ "-" ++ hostname)

/-- No tag of a description contains `-dirty`. -/
def CleanTag (line : Option (Str × Str)) : Prop :=
  ∀ tag count, line = some (tag, count) → ¬ "-dirty".toList <:+: tag

theorem utf8_of_digits {s : Str} (h : s.all isAsciiDigit = true) :
    utf8 s = s.map (fun c => c.val.toUInt8) ∧ (utf8 s).all byteIsAsciiDigit = true := by
  induction s with
  | nil => exact ⟨rfl, rfl⟩
  | cons c s ih =>
      obtain ⟨hc, hs⟩ : isAsciiDigit c = true ∧ s.all isAsciiDigit = true := by
        simpa only [List.all_cons, Bool.and_eq_true] using h
      obtain ⟨he, hd⟩ := ih hs
      have hrange : 48 ≤ c.toNat ∧ c.toNat ≤ 57 := by simpa [isAsciiDigit] using hc
      have hval : c.val.toNat = c.toNat := rfl
      have hsize : c.utf8Size = 1 := by
        rw [Char.utf8Size_eq_one_iff, UInt32.le_iff_toNat_le, hval]
        exact hrange.2.trans (by decide)
      have hbyte : byteIsAsciiDigit c.val.toUInt8 = true := by
        have hn : c.val.toUInt8.toNat = c.toNat := by
          rw [UInt32.toNat_toUInt8, hval]
          omega
        simp only [byteIsAsciiDigit, Bool.and_eq_true, decide_eq_true_eq, UInt8.le_iff_toNat_le, hn]
        exact hrange
      have hcons : utf8 (c :: s) = c.val.toUInt8 :: utf8 s := by
        simp only [utf8, List.flatMap_cons, String.utf8EncodeChar_eq_singleton hsize,
          List.singleton_append]
      rw [hcons]
      exact ⟨by rw [he, List.map_cons], by rw [List.all_cons, hbyte, hd, Bool.and_self]⟩

theorem isKlipperBuildTimestamp_of_isTimestamp {s : Str} (h : IsTimestamp s) :
    isKlipperBuildTimestamp s = true := by
  cases h with
  | @mk date time hd ht hdate htime =>
      obtain ⟨hde, hdd⟩ := utf8_of_digits hdate
      obtain ⟨hte, htd⟩ := utf8_of_digits htime
      have hdl : (utf8 date).length = 8 := by rw [hde, List.length_map, hd]
      have htl : (utf8 time).length = 6 := by rw [hte, List.length_map, ht]
      have hs : utf8 (date ++ '_' :: time) = utf8 date ++ 95 :: utf8 time := by
        rw [utf8_append]
        exact rfl
      have hget : (utf8 date ++ 95 :: utf8 time)[8]? = some 95 := by
        rw [← hdl]
        simp
      have hdrop : (utf8 date ++ 95 :: utf8 time).drop 9 = utf8 time := by
        rw [List.append_cons]
        exact List.drop_left' (by simp [hdl])
      simp only [isKlipperBuildTimestamp, hs, hget, hdrop, List.take_left' hdl, hdd, htd,
        List.length_append, List.length_cons, hdl, htl, BEq.rfl, Bool.and_self]

theorem not_mem_of_digits {c : Char} {s : Str} (h : s.all isAsciiDigit = true)
    (hc : isAsciiDigit c = false) : c ∉ s := by
  intro hm
  rw [List.all_eq_true.1 h c hm] at hc
  cases hc

theorem not_mem_of_isTimestamp {s : Str} (h : IsTimestamp s) : '-' ∉ s := by
  cases h with
  | mk _ _ hdate htime =>
      have hd := not_mem_of_digits (c := '-') hdate (by decide)
      have ht := not_mem_of_digits (c := '-') htime (by decide)
      simp [hd, ht]

theorem not_mem_of_isHash {hash : Str} (h : IsHash hash) : '-' ∉ hash := by
  intro hm
  exact absurd (List.all_eq_true.1 h.2 _ hm) (by decide)

/-- A description contains `-dirty` only within its tag. -/
theorem Describes.not_dirty {base hash : Str} {line : Option (Str × Str)}
    (h : Describes base line hash) (hl : CleanTag line) : ¬ '-' :: "dirty".toList <:+: base := by
  rintro ⟨s, t, hst⟩
  cases h with
  | bare hh =>
      exact not_mem_of_isHash hh (by rw [← hst]; simp)
  | @tagged tag count hash hc hh =>
      have hcount : '-' ∉ count := not_mem_of_digits hc.2 (by decide)
      have hhash : '-' ∉ 'g' :: hash := by simp [not_mem_of_isHash hh]
      have hstart : ∀ r, "dirty".toList ++ t ≠ count ++ r := by
        intro r hr
        cases count with
        | nil => exact hc.1 rfl
        | cons d count =>
            have hd : 'd' = d := (List.cons.inj hr).1
            exact absurd (List.all_eq_true.1 hc.2 d (by simp)) (by rw [← hd]; decide)
      have he : s ++ '-' :: ("dirty".toList ++ t) =
          tag ++ '-' :: (count ++ '-' :: 'g' :: hash) := by
        rw [← hst]
        simp
      rcases List.append_eq_append_iff.1 he with ⟨r, rfl, hr⟩ | ⟨r, rfl, hr⟩
      · by_cases hn : r = []
        · subst r
          exact hstart _ (List.cons.inj hr).2
        · have hp : '-' :: "dirty".toList <+: r :=
            prefix_of_enclosed_prefix (by decide) hn ⟨t, hr⟩
          exact hl _ _ rfl (hp.isInfix.trans (List.suffix_append s r).isInfix)
      · cases r with
        | nil => exact hstart _ (List.cons.inj hr).2.symm
        | cons d r =>
            have hr' : r ++ '-' :: ("dirty".toList ++ t) = count ++ '-' :: 'g' :: hash :=
              (List.cons.inj hr).2.symm
            rcases append_cons_eq_append_cons hcount hr' with ⟨-, hg⟩ | ⟨u, -, hg⟩
            · exact absurd (List.cons.inj hg).1 (by decide)
            · exact hhash (by rw [hg]; simp)

section Split

variable {base hash : Str} {line : Option (Str × Str)}

theorem splitDirtySuffix_of_reports {dirty : Bool} {report : Str} (h : Describes base line hash)
    (hl : CleanTag line) (hr : Reports base dirty report) :
    splitDirtySuffix report = (base, dirty) := by
  have hnot := h.not_dirty hl
  have hq : '-' ∉ "dirty".toList := by decide
  cases hr with
  | clean =>
      have hs : splitOnce "-dirty-" base = none := by
        rw [splitOnce_eq_none_iff]
        exact fun hp => hnot (List.IsInfix.trans ⟨[], ['-'], rfl⟩ hp)
      have he : stripSuffix "-dirty" base = none := by
        rw [Option.eq_none_iff_forall_not_mem]
        intro b hb
        exact hnot ⟨b, [], by rw [stripSuffix_eq_some_iff.1 hb]; simp⟩
      simp only [splitDirtySuffix, stripDirtyBuildSuffix, hs, he, Option.bind_eq_bind,
        Option.bind_none]
  | dirty =>
      have hs : splitOnce "-dirty-" (base ++ "-dirty") = none :=
        splitOnce_enclosed_eq_none hq hnot
      have he : stripSuffix "-dirty" (base ++ "-dirty") = some base :=
        stripSuffix_eq_some_iff.2 rfl
      simp only [splitDirtySuffix, stripDirtyBuildSuffix, hs, he, Option.bind_eq_bind,
        Option.bind_none]
  | @build timestamp hostname ht hh =>
      have hs : splitOnce "-dirty-" (base ++ ("-dirty-" ++ (timestamp ++ '-' :: hostname))) =
          some (base, timestamp ++ '-' :: hostname) := splitOnce_enclosed hq hnot
      have hs' : splitOnce "-" (timestamp ++ '-' :: hostname) = some (timestamp, hostname) :=
        splitOnce_char_eq_some_iff.2 ⟨rfl, not_mem_of_isTimestamp ht⟩
      have he : base ++ "-dirty-" ++ timestamp ++ "-" ++ hostname =
          base ++ ("-dirty-" ++ (timestamp ++ '-' :: hostname)) := by simp
      rw [he]
      simp only [splitDirtySuffix, stripDirtyBuildSuffix, hs, hs', Option.bind_eq_bind,
        Option.bind_some, isKlipperBuildTimestamp_of_isTimestamp ht, ne_eq, hh, not_false_eq_true,
        and_self, if_true]

theorem Describes.cut {base' hash' : Str} (h : Describes base line hash)
    (h' : Describes base' line hash') (hp : hash <+: hash') : base <+: base' := by
  cases h with
  | bare =>
      cases h'
      exact hp
  | tagged =>
      cases h'
      simpa using hp

end Split

/-- Two descriptions of one commit, whose hashes may be abbreviated differently. -/
def SameDescription (base base' : Str) : Prop :=
  ∃ line hash hash', CleanTag line ∧ Describes base line hash ∧ Describes base' line hash' ∧
    (hash <+: hash' ∨ hash' <+: hash)

/-- Reports of one commit match exactly when both or neither are dirty. -/
theorem revisionsMatch_iff_of_reports {base base' running selected : Str} {dirty dirty' : Bool}
    (h : SameDescription base base') (hr : Reports base dirty running)
    (hs : Reports base' dirty' selected) :
    revisionsMatch running selected = true ↔ dirty = dirty' := by
  obtain ⟨line, hash, hash', hl, hd, hd', hp⟩ := h
  rw [revisionsMatch_iff, splitDirtySuffix_of_reports hd hl hr,
    splitDirtySuffix_of_reports hd' hl hs]
  exact and_iff_left (hp.imp (hd.cut hd') (hd'.cut hd))

variable {V : Type} [Semver V]

theorem compareRevisions_of_match {running selected : Str}
    (h : revisionsMatch running selected = true) :
    compareRevisions V running selected = .current := by
  rw [compareRevisions, if_pos h]

theorem reachedBy_of_match {mcu : Mcu} {versions : TargetVersions V} {running selected : Str}
    (hv : mcu.version = some running) (hs : versions.klipper = .known selected)
    (hi : Prebuilt.identify (V := V) mcu = none) (h : revisionsMatch running selected = true) :
    versions.reachedBy mcu = some true := by
  unfold TargetVersions.reachedBy
  rw [reachedBy_of_identify_eq_none hi, hs, hv]
  exact congrArg some h

/-- Firmware that reports a build of the selected commit, with hashes of any length and the dirty
state of the checkout, is recognized as current; in the other dirty state it never matches. -/
theorem fresh_build_recognized {base base' : Str} (h : SameDescription base base') :
    (∀ dirty running selected, Reports base dirty running → Reports base' dirty selected →
      revisionsMatch running selected = true ∧ compareRevisions V running selected = .current ∧
      ∀ (mcu : Mcu) (versions : TargetVersions V), mcu.version = some running →
        versions.klipper = .known selected → Prebuilt.identify (V := V) mcu = none →
        versions.reachedBy mcu = some true) ∧
    (∀ dirty running selected, Reports base dirty running → Reports base' (!dirty) selected →
      revisionsMatch running selected = false) := by
  constructor
  · intro dirty running selected hr hs
    have hm := (revisionsMatch_iff_of_reports h hr hs).2 rfl
    exact ⟨hm, compareRevisions_of_match hm,
      fun mcu versions hv hk hi => reachedBy_of_match hv hk hi hm⟩
  · intro dirty running selected hr hs
    rw [Bool.eq_false_iff, ne_eq, revisionsMatch_iff_of_reports h hr hs]
    cases dirty <;> decide

/-- A dirty build on a host whose name looks like the marker, with a longer hash than the
checkout's. -/
theorem fresh_build_recognized_on_host :
    revisionsMatch "v0.13.0-756-g2d7717e3a-dirty-20260102_030405-my-dirty-20260101_000000-host"
        "v0.13.0-756-g2d7717e3-dirty" = true ∧
      (checkoutAt "v0.13.0-756-g2d7717e3-dirty").reachedBy (stm32Mcu
        "v0.13.0-756-g2d7717e3a-dirty-20260102_030405-my-dirty-20260101_000000-host") =
          some true := by
  have hc : IsCount "756" := ⟨by decide, by decide⟩
  have hh : IsHash "2d7717e3" := ⟨by decide, by decide⟩
  have hd : Describes "v0.13.0-756-g2d7717e3a" (some ("v0.13.0", "756")) "2d7717e3a" :=
    @Describes.tagged "v0.13.0" "756" "2d7717e3a" hc (@IsHash.append "2d7717e3" "a" hh rfl)
  have hd' : Describes "v0.13.0-756-g2d7717e3" (some ("v0.13.0", "756")) "2d7717e3" :=
    @Describes.tagged "v0.13.0" "756" "2d7717e3" hc hh
  have hl : CleanTag (some ("v0.13.0", "756")) := by
    rintro tag count he
    obtain ⟨rfl, -⟩ := Prod.mk.inj (Option.some.inj he)
    decide
  have hs : SameDescription "v0.13.0-756-g2d7717e3a" "v0.13.0-756-g2d7717e3" :=
    ⟨_, _, _, hl, hd, hd', .inr (by decide)⟩
  have ht : IsTimestamp "20260102_030405" :=
    @IsTimestamp.mk "20260102" "030405" rfl rfl (by decide) (by decide)
  have hr : Reports "v0.13.0-756-g2d7717e3a" true
      "v0.13.0-756-g2d7717e3a-dirty-20260102_030405-my-dirty-20260101_000000-host" :=
    @Reports.build _ _ "my-dirty-20260101_000000-host" ht (by decide)
  obtain ⟨hm, -, hreached⟩ := (fresh_build_recognized (V := Semver.Rank) hs).1 true _ _ hr .dirty
  exact ⟨hm, hreached _ _ rfl rfl (by decide)⟩

end Aldis

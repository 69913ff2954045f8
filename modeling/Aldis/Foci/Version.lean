import Aldis.Foci

/-!
# Reading FOCI's own versions

A hyphen separates the fields of a version and may stand inside its package version, so the commit
count is tried at every position. Only the last of them is followed by a `g` field.
-/

namespace Aldis.Foci

open Text

/-- A label that a version carries behind `mark`, where there is one. -/
def labelled (mark : Char) (label : Str) : Str := if label = [] then [] else [mark] ++ label

def packageText (major minor patch : ℕ) (pre build : Str) : Str :=
  decimal major ++ "." ++ decimal minor ++ "." ++ decimal patch ++ labelled '-' pre ++
    labelled '+' build

/-- How FOCI's `build.rs` assembles the version of a build. -/
def versionText (package : Str) (commits : ℕ) (hash : Str) (dirty : Bool) : Str :=
  ['v'] ++ package ++ "-" ++ decimal commits ++ "-g" ++ hash ++
    if dirty then "-dirty".toList else []

/-- No field of a text starts as a commit field does. -/
def CommitFree (s : Str) : Prop := ∀ field ∈ s.splitOn '-', field.head? ≠ some 'g'

namespace CommitFree

variable {s t : Str}

theorem of_not_mem (hs : '-' ∉ s) (hg : s.head? ≠ some 'g') : CommitFree s := by
  intro field hf
  rw [List.splitOn_eq_singleton hs] at hf
  rwa [List.mem_singleton.1 hf]

theorem append (hs : CommitFree s) (ht : CommitFree t) : CommitFree (s ++ t) := by
  obtain ⟨xs, a, hxs⟩ := (List.eq_nil_or_concat' (s.splitOn '-')).resolve_left
    (List.splitOn_ne_nil '-' s)
  obtain ⟨b, ys, hys⟩ := List.exists_cons_of_ne_nil (List.splitOn_ne_nil '-' t)
  intro field hf
  rw [splitOn_append hxs hys] at hf
  rcases List.mem_append.1 hf with hf | hf
  · exact hs field (by rw [hxs]; exact List.mem_append_left _ hf)
  · rcases List.mem_cons.1 hf with rfl | hf
    · have ha : a.head? ≠ some 'g' := hs a (by rw [hxs]; simp)
      cases a with
      | nil => exact ht b (by rw [hys]; simp)
      | cons c a => exact ha
    · exact ht field (by rw [hys]; exact List.mem_cons_of_mem b hf)

theorem decimal (n : ℕ) : CommitFree (decimal n) := by
  apply of_not_mem
  · intro h
    exact absurd (isAsciiDigit_of_mem_decimal h) (by decide)
  · intro h
    exact absurd (isAsciiDigit_of_mem_decimal (List.mem_of_mem_head? h)) (by decide)

theorem labelled {mark : Char} (hm : CommitFree [mark]) (hs : CommitFree s) :
    CommitFree (labelled mark s) := by
  unfold Foci.labelled
  split_ifs
  · exact of_not_mem List.not_mem_nil (by decide)
  · exact hm.append hs

theorem packageText (major minor patch : ℕ) {pre build : Str} (hp : CommitFree pre)
    (hb : CommitFree build) : CommitFree (packageText major minor patch pre build) := by
  have hdot : CommitFree ['.'] := of_not_mem (by decide) (by decide)
  have hplus : CommitFree ['+'] := of_not_mem (by decide) (by decide)
  have hhyphen : CommitFree ['-'] := by
    intro field hf hg
    have hnil : field = [] := by
      change field ∈ [[], []] at hf
      simpa using hf
    rw [hnil] at hg
    cases hg
  have hnumbers := (((decimal major).append hdot).append (decimal minor)).append hdot
  exact ((hnumbers.append (decimal patch)).append (hhyphen.labelled hp)).append
    (hplus.labelled hb)

end CommitFree

namespace Version

variable {V : Type} [Semver V] {package : Str} {commits : ℕ} {hash : Str} {dirty : Bool}
  {v : Version V}

/-- What `parse` makes of a commit count in the field `index`. -/
def parseAt (fields : List Str) (dirty : Bool) (index : ℕ) : Option (Version V) := do
  let commits ← fields[index]?
  if commits = [] ∨ ¬ commits.all isAsciiDigit then none
  else
    let hash ← stripPrefix "g" (← fields[index + 1]?)
    if hash = [] then none
    else
      let package ← Semver.parse (List.intercalate ['-'] (fields.take index))
      let commits ← parseUnsigned (2 ^ 32) commits
      some ⟨package, commits, dirty⟩

theorem parseAt_eq_some_iff {fields : List Str} {index : ℕ} :
    parseAt fields dirty index = some v ↔ ∃ count hash package commits,
      fields[index]? = some count ∧ count ≠ [] ∧ count.all isAsciiDigit = true ∧
      fields[index + 1]? = some ('g' :: hash) ∧ hash ≠ [] ∧
      Semver.parse (List.intercalate ['-'] (fields.take index)) = some package ∧
      parseUnsigned (2 ^ 32) count = some commits ∧ v = ⟨package, commits, dirty⟩ := by
  simp only [parseAt, Option.bind_eq_bind, Option.bind_eq_some_iff]
  constructor
  · rintro ⟨count, hc, h⟩
    split_ifs at h with hd
    obtain ⟨field, hf, h⟩ := Option.bind_eq_some_iff.1 h
    obtain ⟨hash, hs, h⟩ := Option.bind_eq_some_iff.1 h
    split_ifs at h with hh
    obtain ⟨package, hp, h⟩ := Option.bind_eq_some_iff.1 h
    obtain ⟨commits, hn, h⟩ := Option.bind_eq_some_iff.1 h
    rw [not_or, not_not] at hd
    rw [stripPrefix_eq_some_iff.1 hs] at hf
    exact ⟨count, hash, package, commits, hc, hd.1, hd.2, hf, hh, hp, hn, (Option.some.inj h).symm⟩
  · rintro ⟨count, hash, package, commits, hc, hne, hd, hf, hh, hp, hn, rfl⟩
    refine ⟨count, hc, ?_⟩
    rw [if_neg (by simp [hne, hd])]
    refine Option.bind_eq_some_iff.2 ⟨_, hf, Option.bind_eq_some_iff.2 ⟨hash, ?_, ?_⟩⟩
    · exact stripPrefix_eq_some_iff.2 rfl
    · rw [if_neg hh, hp, Option.bind_some, hn, Option.bind_some]

/-- The fields of a version that ends with its commit field. -/
theorem splitOn_base (package : Str) (commits : ℕ) {hash : Str} (hh : '-' ∉ hash) :
    (package ++ "-" ++ decimal commits ++ "-g" ++ hash).splitOn '-' =
      package.splitOn '-' ++ [decimal commits, 'g' :: hash] := by
  have hcount : '-' ∉ decimal commits := fun h =>
    absurd (isAsciiDigit_of_mem_decimal h) (by decide)
  have htext : package ++ "-" ++ decimal commits ++ "-g" ++ hash =
      package ++ '-' :: (decimal commits ++ '-' :: 'g' :: hash) := by
    rw [List.append_assoc, List.append_assoc, List.append_assoc]
    exact rfl
  have hcommit : '-' ∉ 'g' :: hash := by simpa using hh
  rw [htext, List.splitOn_append_cons_self, List.splitOn_append_cons_self_of_not_mem hcount,
    List.splitOn_eq_singleton hcommit]

/-- No position before that of the commit count is followed by a commit field. -/
theorem parseAt_eq_none {index : ℕ} (hf : CommitFree package)
    (hi : index < (package.splitOn '-').length) :
    parseAt (V := V) (package.splitOn '-' ++ [decimal commits, 'g' :: hash]) dirty index =
      none := by
  rw [Option.eq_none_iff_forall_ne_some]
  intro v hv
  obtain ⟨_, hash', _, _, _, _, _, hg, -⟩ := parseAt_eq_some_iff.1 hv
  rcases Nat.lt_or_ge (index + 1) (package.splitOn '-').length with hlt | hge
  · rw [List.getElem?_append_left hlt] at hg
    exact hf _ (List.mem_of_getElem? hg) rfl
  · have hlast : index + 1 - (package.splitOn '-').length = 0 := by omega
    rw [List.getElem?_append_right hge, hlast] at hg
    have hcount : decimal commits = 'g' :: hash' := Option.some.inj hg
    have hm : 'g' ∈ decimal commits := by
      rw [hcount]
      exact List.mem_cons_self
    exact absurd (isAsciiDigit_of_mem_decimal hm) (by decide)

/-- The commit count is read where it stands. -/
theorem parseAt_count {p : V} (hp : Semver.parse package = some p) (hc : commits < 2 ^ 32)
    (hne : hash ≠ []) :
    parseAt (package.splitOn '-' ++ [decimal commits, 'g' :: hash]) dirty
      (package.splitOn '-').length = some ⟨p, commits, dirty⟩ := by
  rw [parseAt_eq_some_iff]
  refine ⟨decimal commits, hash, p, commits, ?_, decimal_ne_nil commits, ?_, ?_, hne, ?_, ?_, rfl⟩
  · rw [List.getElem?_append_right le_rfl, Nat.sub_self]
    rfl
  · exact List.all_eq_true.2 fun c => isAsciiDigit_of_mem_decimal
  · rw [List.getElem?_append_right (Nat.le_add_right _ 1), Nat.add_sub_cancel_left]
    rfl
  · rw [List.take_left, List.intercalate_splitOn, hp]
  · exact parseUnsigned_decimal hc

theorem findSome_parseAt {p : V} (dirty : Bool) (hf : CommitFree package)
    (hp : Semver.parse package = some p) (hc : commits < 2 ^ 32) (hne : hash ≠ []) :
    (List.range' 1 (package.splitOn '-').length).findSome?
      (parseAt (package.splitOn '-' ++ [decimal commits, 'g' :: hash]) dirty) =
      some ⟨p, commits, dirty⟩ := by
  obtain ⟨k, hk⟩ := Nat.exists_eq_succ_of_ne_zero
    (mt List.length_eq_zero_iff.1 (List.splitOn_ne_nil '-' package))
  have hbefore : (List.range' 1 k).findSome?
      (parseAt (V := V) (package.splitOn '-' ++ [decimal commits, 'g' :: hash]) dirty) = none := by
    rw [List.findSome?_eq_none_iff]
    intro index hi
    apply parseAt_eq_none hf
    have := List.mem_range'_1.1 hi
    omega
  have hat : 1 + k = (package.splitOn '-').length := by omega
  rw [hk, Nat.succ_eq_add_one, List.range'_1_concat, List.findSome?_append, hbefore, hat,
    Option.none_or, List.findSome?_singleton]
  exact parseAt_count hp hc hne

/-- Only a dirty build's version ends with the mark of one. -/
theorem stripSuffix_dirty (base : Str) (hne : hash ≠ [])
    (hh : ∀ c ∈ hash, isAsciiHexdigit c = true) :
    stripSuffix "-dirty" (base ++ hash) = none := by
  rw [Option.eq_none_iff_forall_ne_some]
  intro t ht
  have hlast := congrArg List.getLast? (stripSuffix_eq_some_iff.1 ht)
  rw [List.getLast?_append_of_ne_nil _ hne, List.getLast?_append_of_ne_nil _ (by decide)] at hlast
  have hy : 'y' ∈ hash := List.mem_of_getLast? hlast
  exact absurd (hh _ hy) (by decide)

/-- A version that FOCI's build wrote is read back. -/
theorem parse_versionText {p : V} (hf : CommitFree package) (hp : Semver.parse package = some p)
    (hc : commits < 2 ^ 32) (hne : hash ≠ []) (hh : ∀ c ∈ hash, isAsciiHexdigit c = true) :
    parse (versionText package commits hash dirty) = some ⟨p, commits, dirty⟩ := by
  have hhyphen : '-' ∉ hash := fun h => absurd (hh _ h) (by decide)
  have hfind := findSome_parseAt dirty hf hp hc hne
  have hlen : (package.splitOn '-' ++ [decimal commits, 'g' :: hash]).length - 1 - 1 =
      (package.splitOn '-').length := by
    rw [List.length_append]
    rfl
  have hv : stripPrefix "v" (versionText package commits hash dirty) =
      some (package ++ "-" ++ decimal commits ++ "-g" ++ hash ++
        if dirty then "-dirty".toList else []) := by
    rw [stripPrefix_eq_some_iff]
    exact rfl
  rw [← splitOn_base package commits hhyphen] at hfind hlen
  rw [← hlen] at hfind
  cases dirty with
  | true =>
      have hs : stripSuffix "-dirty"
          (package ++ "-" ++ decimal commits ++ "-g" ++ hash ++ "-dirty".toList) =
          some (package ++ "-" ++ decimal commits ++ "-g" ++ hash) :=
        stripSuffix_eq_some_iff.2 rfl
      unfold parse
      rw [hv, Option.bind_eq_bind, Option.bind_some, if_pos rfl, hs]
      exact hfind
  | false =>
      have hs := stripSuffix_dirty (package ++ "-" ++ decimal commits ++ "-g") hne hh
      unfold parse
      rw [hv, Option.bind_eq_bind, Option.bind_some, if_neg Bool.false_ne_true, List.append_nil, hs]
      exact hfind

end Version

/-- Only a clean build of exactly the release's commit that is older is told to update. -/
theorem compare_eq_updateRequired_iff {V : Type} [Semver V] {running : Version V}
    {release : Release V} : compare running release = .updateRequired ↔
      running.package < release.version ∧ running.commits = 0 ∧ running.dirty = false := by
  have hbuild : running.isReleaseBuild = true ↔ running.commits = 0 ∧ running.dirty = false := by
    simp [Version.isReleaseBuild]
  unfold compare
  rcases lt_trichotomy running.package release.version with hlt | heq | hgt
  · rw [if_neg hlt.asymm, if_neg hlt.ne, ← hbuild]
    split_ifs with hr
    · exact iff_of_true rfl ⟨hlt, hr⟩
    · exact iff_of_false (by decide) fun h => hr h.2
  · rw [if_neg (by rw [heq]; exact lt_irrefl _), if_pos heq]
    split_ifs
    all_goals exact iff_of_false (by decide) fun h => h.1.ne heq
  · rw [if_pos hgt]
    exact iff_of_false (by decide) fun h => h.1.asymm hgt

/-- Whatever the pre-release and the build metadata contain, unless a field of theirs looks like a
commit's, a version is read back as FOCI's build wrote it. -/
theorem parse_inverts_versionText {V : Type} [Semver V] {major minor patch commits : ℕ}
    {pre build hash : Str} {package : V} (dirty : Bool)
    (hp : Semver.parse (packageText major minor patch pre build) = some package)
    (hpre : CommitFree pre) (hbuild : CommitFree build) (hc : commits < 2 ^ 32) (hne : hash ≠ [])
    (hh : ∀ c ∈ hash, isAsciiHexdigit c = true) :
    Version.parse (versionText (packageText major minor patch pre build) commits hash dirty) =
      some ⟨package, commits, dirty⟩ ∧
    ∀ release : Release V, compare ⟨package, commits, dirty⟩ release = .updateRequired ↔
      package < release.version ∧ commits = 0 ∧ dirty = false :=
  ⟨Version.parse_versionText (.packageText major minor patch hpre hbuild) hp hc hne hh,
    fun _ => compare_eq_updateRequired_iff⟩

theorem parse_inverts_versionText_release :
    Version.parse (versionText (packageText 0 4 0 "dev.3" "exp-sha") 2 "0fb68e1b" true) =
      some ⟨Semver.rank 0 4 0 3, 2, true⟩ ∧
    ∀ release : Release Semver.Rank,
      compare ⟨Semver.rank 0 4 0 3, 2, true⟩ release = .updateRequired ↔
        Semver.rank 0 4 0 3 < release.version ∧ 2 = 0 ∧ true = false := by
  have hpre : CommitFree "dev.3" := .of_not_mem (by decide) (by decide)
  have hbuild : CommitFree "exp-sha" := by
    unfold CommitFree
    decide
  exact parse_inverts_versionText true (by decide) hpre hbuild (by decide) (by decide)
    (List.all_eq_true.1 rfl)

end Aldis.Foci

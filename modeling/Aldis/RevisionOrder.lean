import Aldis.Revision

/-!
# The position of a revision

A revision that parses has a position: its release numbers, then the commits past them. The
versions `klipperVersion` builds order like positions, except where the next patch number
wraps. A base that begins like another is at or after it.
-/

namespace Aldis.Revision

open Text Semver

abbrev Position := ℕ ×ₗ ℕ ×ₗ ℕ ×ₗ ℕ

def Position.mk (major minor patch commits : ℕ) : Position :=
  toLex (major, toLex (minor, toLex (patch, commits)))

theorem Position.mk_le_mk {a b c n a' b' c' n' : ℕ} :
    Position.mk a b c n ≤ Position.mk a' b' c' n' ↔
      a < a' ∨ a = a' ∧ (b < b' ∨ b = b' ∧ (c < c' ∨ c = c' ∧ n ≤ n')) := by
  simp only [Position.mk, Prod.Lex.toLex_le_toLex]

theorem Position.mk_lt_mk {a b c n a' b' c' n' : ℕ} :
    Position.mk a b c n < Position.mk a' b' c' n' ↔
      a < a' ∨ a = a' ∧ (b < b' ∨ b = b' ∧ (c < c' ∨ c = c' ∧ n < n')) := by
  simp only [Position.mk, Prod.Lex.toLex_lt_toLex]

structure Numbers where
  major : ℕ
  minor : ℕ
  patch : ℕ
  commits : ℕ
  deriving DecidableEq

namespace Numbers

variable (m : Numbers)

def position : Position := Position.mk m.major m.minor m.patch m.commits

def Bounded : Prop :=
  m.major < 2 ^ 64 ∧ m.minor < 2 ^ 64 ∧ m.patch < 2 ^ 64 ∧ m.commits < 2 ^ 64

/-- The commits follow the last patch number, so that the version's patch is zero. -/
def Wraps : Prop := m.patch = 2 ^ 64 - 1 ∧ 0 < m.commits

def rank : Rank :=
  if m.commits = 0 then Semver.rank m.major m.minor m.patch ⊤
  else Semver.rank m.major m.minor ((m.patch + 1) % 2 ^ 64) m.commits

def version (V : Type) [Semver V] : Option V :=
  if m.commits = 0 then some (Semver.new m.major m.minor m.patch)
  else Semver.withPre (Semver.new m.major m.minor ((m.patch + 1) % 2 ^ 64)) (devLabel m.commits)

end Numbers

def coreNumbers (core : Str) : Option (ℕ × ℕ × ℕ) := do
  let parts := splitn 3 '.' core
  let major ← parseU64 (← parts[0]?)
  let minor ← parseU64 (← parts[1]?)
  let patch ← parseU64 (← parts[2]?)
  some (major, minor, patch)

def segmentNumbers (segments : List Str) : Option Numbers := do
  let core ← segments[0]?
  let commits ← parseU64 (segments[1]?.getD "0")
  let (major, minor, patch) ← coreNumbers core
  some ⟨major, minor, patch, commits⟩

def numbers (revision : Str) : Option Numbers :=
  (stripPrefix "v" revision).bind (fun revision => segmentNumbers (splitn 3 '-' revision))

def position (revision : Str) : Option Position := (numbers revision).map Numbers.position

/-- Both revisions have a position, and the first is past the second. -/
def Newer (running selected : Str) : Prop :=
  ∃ p q, position running = some p ∧ position selected = some q ∧ q < p

theorem klipperVersion_eq (V : Type) [Semver V] (revision : Str) :
    klipperVersion V revision = (numbers revision).bind (Numbers.version · V) := by
  unfold klipperVersion numbers segmentNumbers coreNumbers Numbers.version devLabel
  simp only [Option.bind_eq_bind, Option.bind_assoc, Option.bind_some]

theorem coreNumbers_eq_some_iff {core : Str} {a b c : ℕ} :
    coreNumbers core = some (a, b, c) ↔ ∃ x y z, core = x ++ '.' :: (y ++ '.' :: z) ∧
      '.' ∉ x ∧ '.' ∉ y ∧ parseU64 x = some a ∧ parseU64 y = some b ∧ parseU64 z = some c := by
  constructor
  · intro h
    unfold coreNumbers at h
    cases h₁ : splitOnce ['.'] core with
    | none => simp [splitn, h₁] at h
    | some xr =>
      obtain ⟨x, r⟩ := xr
      cases h₂ : splitOnce ['.'] r with
      | none => simp [splitn, h₁, h₂] at h
      | some yz =>
        obtain ⟨y, z⟩ := yz
        obtain ⟨rfl, hx⟩ := splitOnce_char_eq_some_iff.1 h₁
        obtain ⟨rfl, hy⟩ := splitOnce_char_eq_some_iff.1 h₂
        refine ⟨x, y, z, rfl, hx, hy, ?_⟩
        simpa [splitn, h₁, h₂, Option.bind_eq_some_iff] using h
  · rintro ⟨x, y, z, rfl, hx, hy, ha, hb, hc⟩
    have h₁ : splitOnce ['.'] (x ++ '.' :: (y ++ '.' :: z)) = some (x, y ++ '.' :: z) :=
      splitOnce_char_eq_some_iff.2 ⟨rfl, hx⟩
    have h₂ : splitOnce ['.'] (y ++ '.' :: z) = some (y, z) :=
      splitOnce_char_eq_some_iff.2 ⟨rfl, hy⟩
    simp [coreNumbers, splitn, h₁, h₂, ha, hb, hc]

/-- What may follow the release numbers: nothing, or commits and then possibly a hash. -/
inductive CommitsPart : Str → ℕ → Prop
  | none : CommitsPart [] 0
  | commits {c : Str} {n : ℕ} (hc : '-' ∉ c) (hn : parseU64 c = some n) :
      CommitsPart ('-' :: c) n
  | hash {c h : Str} {n : ℕ} (hc : '-' ∉ c) (hn : parseU64 c = some n) :
      CommitsPart ('-' :: (c ++ '-' :: h)) n

theorem numbers_eq_some_iff {revision : Str} {m : Numbers} :
    numbers revision = some m ↔ ∃ core tail, revision = 'v' :: (core ++ tail) ∧ '-' ∉ core ∧
      coreNumbers core = some (m.major, m.minor, m.patch) ∧ CommitsPart tail m.commits := by
  have hv : ∀ s : Str, stripPrefix "v" revision = some s ↔ revision = 'v' :: s :=
    fun s => stripPrefix_eq_some_iff
  constructor
  · intro h
    obtain ⟨s, hs, hn⟩ := Option.bind_eq_some_iff.1 h
    obtain rfl := (hv s).1 hs
    cases h₁ : splitOnce ['-'] s with
    | none =>
      have h0 : parseU64 ['0'] = some 0 := by decide
      obtain ⟨a, b, c, hr, rfl⟩ : ∃ a b c, coreNumbers s = some (a, b, c) ∧ ⟨a, b, c, 0⟩ = m := by
        simpa [segmentNumbers, splitn, h₁, h0, Option.bind_eq_some_iff] using hn
      exact ⟨s, [], by simp, splitOnce_char_eq_none_iff.1 h₁, hr, .none⟩
    | some p =>
      obtain ⟨core, t⟩ := p
      obtain ⟨rfl, hc⟩ := splitOnce_char_eq_some_iff.1 h₁
      cases h₂ : splitOnce ['-'] t with
      | none =>
        obtain ⟨n, hm, a, b, c, hr, rfl⟩ : ∃ n, parseU64 t = some n ∧
            ∃ a b c, coreNumbers core = some (a, b, c) ∧ ⟨a, b, c, n⟩ = m := by
          simpa [segmentNumbers, splitn, h₁, h₂, Option.bind_eq_some_iff] using hn
        exact ⟨core, '-' :: t, rfl, hc, hr, .commits (splitOnce_char_eq_none_iff.1 h₂) hm⟩
      | some q =>
        obtain ⟨c, hash⟩ := q
        obtain ⟨rfl, hc'⟩ := splitOnce_char_eq_some_iff.1 h₂
        obtain ⟨n, hm, _, _, _, hr, rfl⟩ : ∃ n, parseU64 c = some n ∧
            ∃ x y z, coreNumbers core = some (x, y, z) ∧ ⟨x, y, z, n⟩ = m := by
          simpa [segmentNumbers, splitn, h₁, h₂, Option.bind_eq_some_iff] using hn
        exact ⟨core, '-' :: (c ++ '-' :: hash), rfl, hc, hr, .hash hc' hm⟩
  · rintro ⟨core, tail, rfl, hc, hr, ht⟩
    rw [numbers, (hv _).2 rfl, Option.bind_some]
    obtain ⟨a, b, c, n⟩ := m
    cases ht with
    | none =>
      have h₁ : splitOnce ['-'] core = none := splitOnce_char_eq_none_iff.2 hc
      have h0 : parseU64 ['0'] = some 0 := by decide
      simp [segmentNumbers, splitn, h₁, h0, hr]
    | @commits c _ hc' hm =>
      have h₁ : splitOnce ['-'] (core ++ '-' :: c) = some (core, c) :=
        splitOnce_char_eq_some_iff.2 ⟨rfl, hc⟩
      have h₂ : splitOnce ['-'] c = none := splitOnce_char_eq_none_iff.2 hc'
      simp [segmentNumbers, splitn, h₁, h₂, hm, hr]
    | @hash c h _ hc' hm =>
      have h₁ : splitOnce ['-'] (core ++ '-' :: (c ++ '-' :: h)) = some (core, c ++ '-' :: h) :=
        splitOnce_char_eq_some_iff.2 ⟨rfl, hc⟩
      have h₂ : splitOnce ['-'] (c ++ '-' :: h) = some (c, h) :=
        splitOnce_char_eq_some_iff.2 ⟨rfl, hc'⟩
      simp [segmentNumbers, splitn, h₁, h₂, hm, hr]

/-- A dirty marker adds nothing to a revision's numbers. -/
theorem numbers_of_append_dirty {base rest : Str} {m : Numbers}
    (h : numbers (base ++ '-' :: 'd' :: rest) = some m) : numbers base = some m := by
  obtain ⟨core, tail, he, hc, hr, ht⟩ := numbers_eq_some_iff.1 h
  have hcore : '-' ∉ 'v' :: core := by simp [hc]
  have hdigit : ∀ {c : Str} {m : ℕ}, parseU64 ('d' :: c) = some m → False := fun hp =>
    not_mem_of_parseUnsigned hp (by decide) (by decide) (List.mem_cons_self ..)
  have hbase : ∀ {c s : Str}, '-' :: (c ++ s) = tail → '-' ∉ c → parseU64 c = some m.commits →
      ∃ r, base = 'v' :: core ++ '-' :: r ∧ c ++ s = r ++ '-' :: 'd' :: rest := by
    intro c s hs hc' hm
    have he' : base ++ '-' :: 'd' :: rest = 'v' :: core ++ '-' :: (c ++ s) := by
      rw [he, ← hs]; simp
    rcases append_cons_eq_append_cons hcore he' with ⟨_, hd⟩ | hr'
    · cases c with
      | nil => simp [parseU64, parseUnsigned, stripPrefix] at hm
      | cons d c => rw [← (List.cons.inj hd).1] at hm; exact (hdigit hm).elim
    · exact hr'
  obtain ⟨x, y, z, n⟩ := m
  cases ht with
  | none =>
    rw [List.append_nil] at he
    exact absurd (by rw [← he]; simp) hcore
  | @commits c _ hc' hm =>
    obtain ⟨s, _, hs⟩ := hbase (s := []) (by simp) hc' hm
    exact absurd (by simpa using congrArg ('-' ∈ ·) hs) hc'
  | @hash c h _ hc' hm =>
    obtain ⟨s, rfl, hs⟩ := hbase rfl hc' hm
    rcases append_cons_eq_append_cons hc' hs.symm with ⟨rfl, _⟩ | ⟨s', rfl, _⟩
    · exact numbers_eq_some_iff.2 ⟨core, '-' :: s, by simp, hc, hr, .commits hc' hm⟩
    · exact numbers_eq_some_iff.2 ⟨core, '-' :: (c ++ '-' :: s'), by simp, hc, hr, .hash hc' hm⟩

theorem coreNumbers_append_le {core t : Str} {a b c a' b' c' : ℕ}
    (h : coreNumbers core = some (a, b, c)) (h' : coreNumbers (core ++ t) = some (a', b', c')) :
    a' = a ∧ b' = b ∧ c ≤ c' := by
  obtain ⟨x, y, z, rfl, hx, hy, ha, hb, hc⟩ := coreNumbers_eq_some_iff.1 h
  obtain ⟨x', y', z', he, hx', hy', ha', hb', hc'⟩ := coreNumbers_eq_some_iff.1 h'
  have hs : splitOnce ['.'] (x' ++ '.' :: (y' ++ '.' :: z')) = some (x, y ++ '.' :: (z ++ t)) :=
    splitOnce_char_eq_some_iff.2 ⟨by rw [← he]; simp, hx⟩
  rw [splitOnce_char_eq_some_iff.2 ⟨rfl, hx'⟩] at hs
  obtain ⟨rfl, hy₂⟩ := Prod.mk.inj (Option.some.inj hs)
  have hs' : splitOnce ['.'] (y' ++ '.' :: z') = some (y, z ++ t) :=
    splitOnce_char_eq_some_iff.2 ⟨hy₂, hy⟩
  rw [splitOnce_char_eq_some_iff.2 ⟨rfl, hy'⟩] at hs'
  obtain ⟨rfl, rfl⟩ := Prod.mk.inj (Option.some.inj hs')
  exact ⟨Option.some.inj (ha'.symm.trans ha), Option.some.inj (hb'.symm.trans hb),
    parseUnsigned_mono hc hc'⟩

theorem CommitsPart.head {tail : Str} {n : ℕ} (h : CommitsPart tail n) (hne : tail ≠ []) :
    ∃ s, tail = '-' :: s := by
  cases h with
  | none => exact absurd rfl hne
  | commits => exact ⟨_, rfl⟩
  | hash => exact ⟨_, rfl⟩

theorem CommitsPart.append_le {tail t : Str} {n m : ℕ} (hne : tail ≠ [])
    (h : CommitsPart tail n) (h' : CommitsPart (tail ++ t) m) : n ≤ m := by
  have hcut : ∀ {c s : Str} {k : ℕ}, '-' ∉ c → parseU64 c = some k → ∀ {c' s' : Str} {k' : ℕ},
      '-' ∉ c' → parseU64 c' = some k' → c ++ '-' :: s = c' ++ '-' :: s' → k = k' := by
    intro c s k hc hk c' s' k' hc' hk' he
    have hs := splitOnce_char_eq_some_iff.2 ⟨he, hc'⟩
    rw [splitOnce_char_eq_some_iff.2 ⟨rfl, hc⟩] at hs
    obtain ⟨rfl, _⟩ := Prod.mk.inj (Option.some.inj hs)
    exact Option.some.inj (hk.symm.trans hk')
  have hlong : ∀ {c s c' : Str}, '-' ∉ c' → c ++ '-' :: s ≠ c' := by
    intro c s c' hc' he
    exact hc' (by rw [← he]; simp)
  cases h with
  | none => exact absurd rfl hne
  | @commits c _ hc hk =>
    generalize hs : '-' :: c ++ t = s at h'
    cases h' with
    | none => simp at hs
    | @commits c' _ hc' hk' =>
      obtain rfl := (List.cons.inj hs).2
      exact parseUnsigned_mono hk hk'
    | @hash c' s' _ hc' hk' =>
      have he : c ++ t = c' ++ '-' :: s' := (List.cons.inj hs).2
      rcases List.append_eq_append_iff.1 he with ⟨r, rfl, _⟩ | ⟨r, hr, hr'⟩
      · exact parseUnsigned_mono hk hk'
      · cases r with
        | nil => exact (Option.some.inj (hk.symm.trans (by simpa [hr] using hk'))).le
        | cons d r =>
          exact absurd (by rw [hr, (List.cons.inj hr').1]; simp) hc
  | @hash c s _ hc hk =>
    generalize hs : '-' :: (c ++ '-' :: s) ++ t = s₂ at h'
    cases h' with
    | none => simp at hs
    | @commits c' _ hc' hk' =>
      have he : c ++ '-' :: (s ++ t) = c' := by simpa using hs
      exact absurd he (hlong hc')
    | @hash c' s' _ hc' hk' =>
      have he : c ++ '-' :: (s ++ t) = c' ++ '-' :: s' := by simpa using hs
      exact (hcut hc hk hc' hk' he).le

/-- A revision that begins like another is at the same position or past it. -/
theorem position_append_le {s t : Str} {p q : Position} (h : position s = some p)
    (h' : position (s ++ t) = some q) : p ≤ q := by
  obtain ⟨⟨a, b, c, n⟩, hn, rfl⟩ := Option.map_eq_some_iff.1 h
  obtain ⟨⟨a', b', c', m⟩, hm, rfl⟩ := Option.map_eq_some_iff.1 h'
  obtain ⟨core, tail, rfl, hc, hr, ht⟩ := numbers_eq_some_iff.1 hn
  obtain ⟨core', tail', he, hc', hr', ht'⟩ := numbers_eq_some_iff.1 hm
  have he' : core ++ (tail ++ t) = core' ++ tail' := by simpa using he
  by_cases hne : tail = []
  · subst tail
    have h0 : n = 0 := by cases ht; rfl
    obtain ⟨r, rfl⟩ : ∃ r, core' = core ++ r := by
      rcases List.append_eq_append_iff.1 he' with ⟨r, hr₁, _⟩ | ⟨r, hr₁, hr₂⟩
      · exact ⟨r, hr₁⟩
      · cases r with
        | nil => exact ⟨[], by simpa using hr₁.symm⟩
        | cons d r =>
          obtain ⟨s, hs⟩ := ht'.head (by rw [hr₂]; simp)
          have hd : d = '-' := (List.cons.inj (hr₂.symm.trans hs)).1
          exact absurd (by rw [hr₁, hd]; simp) hc
    obtain ⟨ha, hb, hle⟩ := coreNumbers_append_le hr hr'
    apply Position.mk_le_mk.2
    dsimp only at ha hb hle ⊢
    omega
  · obtain ⟨s, rfl⟩ := ht.head hne
    have htail : tail' ≠ [] := by
      intro h0
      rw [h0, List.append_nil] at he'
      exact hc' (by rw [← he']; simp)
    obtain ⟨s', rfl⟩ := ht'.head htail
    have hs := splitOnce_char_eq_some_iff.2 ⟨he'.symm, hc⟩
    rw [splitOnce_char_eq_some_iff.2 ⟨rfl, hc'⟩] at hs
    obtain ⟨rfl, rfl⟩ := Prod.mk.inj (Option.some.inj hs)
    have hle : n ≤ m := ht.append_le hne ht'
    obtain ⟨ha, hb, hpatch⟩ : a = a' ∧ b = b' ∧ c = c' := by simpa [hr] using hr'
    apply Position.mk_le_mk.2
    dsimp only
    omega

theorem numbers_bounded {revision : Str} {m : Numbers} (h : numbers revision = some m) :
    m.Bounded := by
  obtain ⟨a, b, c, n⟩ := m
  obtain ⟨core, tail, rfl, _, hr, ht⟩ := numbers_eq_some_iff.1 h
  obtain ⟨x, y, z, rfl, _, _, ha, hb, hc⟩ := coreNumbers_eq_some_iff.1 hr
  have hn : n < 2 ^ 64 := by
    cases ht with
    | none => norm_num
    | commits _ hn => exact parseUnsigned_lt hn
    | hash _ hn => exact parseUnsigned_lt hn
  exact ⟨parseUnsigned_lt ha, parseUnsigned_lt hb, parseUnsigned_lt hc, hn⟩

section Versions

variable {V : Type} [Semver V]

theorem Numbers.built_version {m : Numbers} {v : V} (hm : m.Bounded)
    (h : m.version V = some v) : Built v m.rank := by
  obtain ⟨ha, hb, hc, hn⟩ := hm
  unfold Numbers.version at h
  unfold Numbers.rank
  split_ifs at h ⊢ with h0
  · obtain rfl := Option.some.inj h
    exact .new ha hb hc
  · exact .dev ha hb (Nat.mod_lt _ (by norm_num)) hn h

variable [LawfulSemver V]

/-- Exactly the revisions with a position have a version. -/
theorem klipperVersion_isSome_iff (revision : Str) :
    (klipperVersion V revision).isSome ↔ (position revision).isSome := by
  rw [klipperVersion_eq, position, Option.isSome_map]
  cases numbers revision with
  | none => rfl
  | some m =>
    simp only [Option.bind_some, Option.isSome_some, iff_true, Numbers.version]
    split_ifs
    · rfl
    · exact LawfulSemver.withPre_devLabel _ _

theorem klipperVersion_lt_iff {r s : Str} {m k : Numbers} {v w : V} (hm : numbers r = some m)
    (hk : numbers s = some k) (hv : klipperVersion V r = some v)
    (hw : klipperVersion V s = some w) : v < w ↔ m.rank < k.rank := by
  rw [klipperVersion_eq, hm, Option.bind_some] at hv
  rw [klipperVersion_eq, hk, Option.bind_some] at hw
  exact LawfulSemver.lt_iff_of_built (Numbers.built_version (numbers_bounded hm) hv)
    (Numbers.built_version (numbers_bounded hk) hw)

end Versions

theorem rank_lt_rank {a b c a' b' c' : ℕ} {n n' : WithTop ℕ} :
    Semver.rank a b c n < Semver.rank a' b' c' n' ↔
      a < a' ∨ a = a' ∧ (b < b' ∨ b = b' ∧ (c < c' ∨ c = c' ∧ n < n')) := by
  simp only [Semver.rank, Prod.Lex.toLex_lt_toLex]

theorem succ_patch_mod {c : ℕ} (hc : c < 2 ^ 64) :
    (c + 1) % 2 ^ 64 = if c = 2 ^ 64 - 1 then 0 else c + 1 := by
  split_ifs with h
  · subst h; norm_num
  · exact Nat.mod_eq_of_lt (by omega)

/-- Positions in order have versions in order, unless the later one wraps to an earlier patch
of the same minor release. -/
theorem Numbers.rank_lt_iff {m k : Numbers} (hm : m.Bounded) (hk : k.Bounded)
    (h : k.position < m.position) :
    k.rank < m.rank ↔ ¬ (m.major = k.major ∧ m.minor = k.minor ∧ m.Wraps ∧ ¬ k.Wraps) := by
  obtain ⟨a, b, c, n⟩ := m
  obtain ⟨a', b', c', n'⟩ := k
  obtain ⟨_, _, hc, _⟩ := hm
  obtain ⟨_, _, hc', _⟩ := hk
  replace h := Position.mk_lt_mk.1 h
  dsimp only at hc hc' h
  simp only [Numbers.rank, Numbers.Wraps, succ_patch_mod hc, succ_patch_mod hc']
  by_cases hn : n = 0 <;> by_cases hn' : n' = 0 <;> by_cases hm : c = 2 ^ 64 - 1 <;>
    by_cases hk : c' = 2 ^ 64 - 1
  all_goals
    simp only [hn, hn', hm, hk, if_true, if_false, rank_lt_rank, lt_irrefl, and_false, or_false,
      WithTop.natCast_lt_top, Nat.cast_lt, not_top_lt, and_true, true_and, false_and, false_or,
      not_false_eq_true, Nat.not_lt_zero, iff_true] at h ⊢
    omega

end Aldis.Revision

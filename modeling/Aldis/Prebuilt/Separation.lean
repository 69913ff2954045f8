import Aldis.Prebuilt.Vendor

/-!
# Vendor MCUs and Klipper MCUs

An MCU that names itself a vendor's is never built from the checkout and never takes just any
file; an MCU that is built from the checkout takes no vendor's image.
-/

namespace Aldis.Prebuilt

open Text Octets Eligibility

variable {V : Type} [Semver V] {mcu : Mcu}

section Words

theorem head_splitWhitespace_cons {c : Char} {s : Str} (hc : isWhitespace c = false) :
    ∃ word, (splitWhitespace (c :: s)).head? = some (c :: word) := by
  unfold splitWhitespace
  rw [List.splitOnP_cons_eq_if_modifyHead, if_neg (by rw [hc]; exact Bool.false_ne_true)]
  cases hs : s.splitOnP isWhitespace with
  | nil => exact absurd hs (List.splitOnP_ne_nil _ _)
  | cons word rest => exact ⟨word, rfl⟩

/-- A `git describe` version starts with a `v`, so its first word is no vendor's name. -/
theorem not_names_beacon_of_gitDescribe {version : Str}
    (h : looksLikeGitDescribe version = true) :
    ((splitWhitespace version).head?.any (eqIgnoreAsciiCase · Beacon.NAME)) = false := by
  match version, h with
  | c :: d :: s, h =>
    change ((c == 'v' || c == 'V') && isAsciiDigit d) = true at h
    rw [Bool.and_eq_true, Bool.or_eq_true, beq_iff_eq, beq_iff_eq] at h
    rcases h.1 with rfl | rfl
    · obtain ⟨word, hword⟩ := head_splitWhitespace_cons (s := d :: s)
        (show isWhitespace 'v' = false by decide)
      rw [hword]
      rfl
    · obtain ⟨word, hword⟩ := head_splitWhitespace_cons (s := d :: s)
        (show isWhitespace 'V' = false by decide)
      rw [hword]
      rfl

end Words

section Classification

theorem identify_isSome_of_foci (hf : Foci.isFoci mcu = true) :
    (identify (V := V) mcu).isSome = true := by
  unfold identify
  cases Beacon.identify (V := V) mcu with
  | some firmware => rfl
  | none =>
      cases Cartographer.identify (V := V) mcu with
      | some result => cases result <;> rfl
      | none =>
          simp only [hf, if_true]
          cases Foci.identify (V := V) mcu <;> rfl

theorem identify_isSome_of_cartographer (hc : Cartographer.isCartographer mcu = true) :
    (identify (V := V) mcu).isSome = true := by
  have hv := vendorOf_cartographer (V := V) hc
  unfold vendorOf at hv
  rw [← Option.isSome_map, hv]
  rfl

/-- What an MCU that no vendor's firmware was recognized on is classified as, when it names
itself Beacon. -/
theorem classifyMcu_of_names_beacon (hi : identify (V := V) mcu = none)
    (hnames : Beacon.namesItselfBeacon mcu = true) :
    ∃ name, classifyMcu (V := V) mcu = .externallyManaged name := by
  unfold Beacon.namesItselfBeacon at hnames
  rw [Bool.and_eq_true] at hnames
  obtain ⟨happ, hname⟩ := hnames
  unfold classifyMcu
  rw [hi]
  cases ha : mcu.appName with
  | some app =>
      rw [ha] at happ
      have hklipper : eqIgnoreAsciiCase app "klipper" = false := by
        rw [Bool.eq_false_iff]
        intro hk
        exact absurd (eqIgnoreAsciiCase_trans happ hk) (by decide)
      have hkalico : eqIgnoreAsciiCase app "kalico" = false := by
        rw [Bool.eq_false_iff]
        intro hk
        exact absurd (eqIgnoreAsciiCase_trans happ hk) (by decide)
      refine ⟨app, ?_⟩
      simp only [hklipper, hkalico, Bool.false_eq_true, if_false]
  | none =>
      cases hv : mcu.version with
      | none =>
          unfold Mcu.versionName at hname
          rw [hv] at hname
          cases hname
      | some version =>
          have hw : mcu.versionName = (splitWhitespace version).head? := by
            rw [Mcu.versionName, hv, Option.bind_some]
          rw [hw] at hname
          cases hhead : (splitWhitespace version).head? with
          | none =>
              rw [hhead] at hname
              cases hname
          | some name =>
              have hdescribe : looksLikeGitDescribe version = false := by
                rw [Bool.eq_false_iff]
                intro h
                rw [not_names_beacon_of_gitDescribe h] at hname
                cases hname
              refine ⟨name, ?_⟩
              simp only [classifyUnidentified, hv, hw, hhead, hdescribe, Bool.false_eq_true,
                if_false]

/-- Nothing of a vendor's can be said of an MCU that is built from the checkout. -/
theorem predicates_of_eligible (h : classifyMcu (V := V) mcu = .eligible) :
    identify (V := V) mcu = none ∧ Foci.isFoci mcu = false ∧
      Cartographer.isCartographer mcu = false ∧ Beacon.namesItselfBeacon mcu = false := by
  have hi : identify (V := V) mcu = none := by
    cases hi : identify (V := V) mcu with
    | none => rfl
    | some result =>
        unfold classifyMcu at h
        rw [hi] at h
        cases result <;> cases h
  refine ⟨hi, ?_, ?_, ?_⟩
  · rw [Bool.eq_false_iff]
    intro hf
    have hsome := identify_isSome_of_foci (V := V) hf
    rw [hi] at hsome
    cases hsome
  · rw [Bool.eq_false_iff]
    intro hc
    have hsome := identify_isSome_of_cartographer (V := V) hc
    rw [hi] at hsome
    cases hsome
  · rw [Bool.eq_false_iff]
    intro hnames
    obtain ⟨name, hname⟩ := classifyMcu_of_names_beacon hi hnames
    rw [h] at hname
    cases hname

omit [Semver V] in
theorem classifyByEmbeddedConfig_ne_prebuilt (running : Running V) :
    classifyByEmbeddedConfig mcu ≠ .prebuilt running := by
  unfold classifyByEmbeddedConfig
  intro h
  split_ifs at h
  cases hs : familySupport mcu.kconfig with
  | flashable => rw [hs] at h; cases h
  | unflashable family => rw [hs] at h; cases h
  | unstated => rw [hs] at h; cases h

omit [Semver V] in
theorem classifyUnidentified_ne_prebuilt (running : Running V) :
    classifyUnidentified mcu ≠ .prebuilt running := by
  unfold classifyUnidentified
  intro h
  split at h
  · split_ifs at h
    exact classifyByEmbeddedConfig_ne_prebuilt running h
  · exact classifyByEmbeddedConfig_ne_prebuilt running h

theorem classifyKnownFirmware_ne_prebuilt (firmware : FirmwareKind) (minimum : Str)
    (running : Running V) : classifyKnownFirmware mcu firmware minimum ≠ .prebuilt running := by
  unfold classifyKnownFirmware
  intro h
  split at h
  · split_ifs at h
    exact classifyByEmbeddedConfig_ne_prebuilt running h
  · exact classifyByEmbeddedConfig_ne_prebuilt running h

theorem identify_of_prebuilt {running : Running V} (h : classifyMcu mcu = .prebuilt running) :
    identify mcu = some (.ok running) := by
  unfold classifyMcu at h
  cases hi : identify (V := V) mcu with
  | some result =>
      rw [hi] at h
      cases result with
      | error reason => cases h
      | ok firmware =>
          cases h
          rfl
  | none =>
      rw [hi] at h
      cases ha : mcu.appName with
      | none =>
          rw [ha] at h
          exact absurd h (classifyUnidentified_ne_prebuilt running)
      | some app =>
          simp only [ha] at h
          split_ifs at h
          · exact absurd h (classifyKnownFirmware_ne_prebuilt _ _ running)
          · exact absurd h (classifyKnownFirmware_ne_prebuilt _ _ running)

/-- A selected MCU is built from the checkout, or runs a vendor's firmware with a target. -/
theorem target_of_isSelected {versions : TargetVersions V} {selection : UpdateSelection}
    (hn : classifyMcu (V := V) mcu ≠ .eligible) (h : isSelected mcu versions selection = true) :
    ∃ running, identify (V := V) mcu = some (.ok running) ∧
      (versions.prebuilt.target running mcu.name).isSome = true := by
  unfold isSelected at h
  cases he : classifyMcu (V := V) mcu with
  | eligible => exact absurd he hn
  | prebuilt running =>
      refine ⟨running, identify_of_prebuilt he, ?_⟩
      simp only [assessMcu, he] at h
      cases ht : versions.prebuilt.target running mcu.name with
      | some target => rfl
      | none =>
          rw [ht] at h
          cases h
  | externallyManaged name =>
      simp only [assessMcu, he] at h
      cases h
  | unsupported reason =>
      simp only [assessMcu, he] at h
      cases h
  | unsupportedMcu family =>
      simp only [assessMcu, he] at h
      cases h

end Classification

section Files

variable {J : Type} [DictionaryReader J]

/-- No file goes through the ordinary flash to an MCU that one of the predicates holds for. -/
theorem explicit_ne_none (h : Foci.isFoci mcu = true ∨ Cartographer.isCartographer mcu = true ∨
    Beacon.namesItselfBeacon mcu = true) (file : Path) (bytes : Bytes) :
    prepareExplicit (V := V) J mcu file bytes ≠ .ok none := by
  intro hp
  cases hnames : Beacon.namesItselfBeacon mcu with
  | true =>
      have hv := explicit_of_names_beacon hnames file bytes hp
      cases hv
  | false =>
      simp only [prepareExplicit, hnames, Bool.false_eq_true, if_false] at hp
      cases hc : Cartographer.identify (V := V) mcu with
      | some result =>
          rw [hc] at hp
          cases result with
          | error reason => cases hp
          | ok running =>
              change (prepareCartographerFile J mcu file bytes running).map some = .ok none at hp
              cases hr : prepareCartographerFile J mcu file bytes running with
              | error error => rw [hr] at hp; cases hp
              | ok request => rw [hr] at hp; cases hp
      | none =>
          have hcart : Cartographer.isCartographer mcu = false := by
            rw [Bool.eq_false_iff]
            intro hcart
            rw [Cartographer.identify, if_pos hcart] at hc
            cases hc
          have hf : Foci.isFoci mcu = true := by
            rcases h with hf | h | h
            · exact hf
            · rw [hcart] at h
              cases h
            · rw [hnames] at h
              cases h
          rw [hc] at hp
          simp only [hf, if_true] at hp
          cases hr : prepareFociFile (V := V) mcu bytes with
          | error error => rw [hr] at hp; cases hp
          | ok request => rw [hr] at hp; cases hp

end Files

/-- Who names itself a vendor's is not built from the checkout, is selected only when its
firmware and a target of that vendor are known, and takes no file unchecked; who is built from
the checkout takes no vendor's image. -/
theorem vendor_and_klipper_apart (V J : Type) [Semver V] [DictionaryReader J] (mcu : Mcu) :
    (Foci.isFoci mcu = true ∨ Cartographer.isCartographer mcu = true ∨
        Beacon.namesItselfBeacon mcu = true →
      classifyMcu (V := V) mcu ≠ .eligible ∧
      (∀ (versions : TargetVersions V) (selection : UpdateSelection),
        isSelected mcu versions selection = true →
          ∃ running, identify (V := V) mcu = some (.ok running) ∧
            (versions.prebuilt.target running mcu.name).isSome = true) ∧
      ∀ (file : Path) (bytes : Bytes), prepareExplicit (V := V) J mcu file bytes ≠ .ok none) ∧
    (classifyMcu (V := V) mcu = .eligible →
      (∀ (sha256 : Bytes → Bytes) (versions : TargetVersions V) (pending : PendingBuild),
        prepareAutomatic J sha256 versions pending mcu = none) ∧
      ∀ (file : Path) (bytes : Bytes), prepareExplicit (V := V) J mcu file bytes = .ok none) := by
  constructor
  · intro h
    have hn : classifyMcu (V := V) mcu ≠ .eligible := by
      intro he
      obtain ⟨-, hf, hc, hnames⟩ := predicates_of_eligible he
      rw [hf, hc, hnames] at h
      rcases h with h | h | h <;> cases h
    exact ⟨hn, fun versions selection => target_of_isSelected hn, explicit_ne_none h⟩
  · intro he
    obtain ⟨hi, hf, hc, hnames⟩ := predicates_of_eligible he
    refine ⟨?_, explicit_eq_none hf hnames hc⟩
    intro sha256 versions pending
    simp only [prepareAutomatic, hi]

end Aldis.Prebuilt

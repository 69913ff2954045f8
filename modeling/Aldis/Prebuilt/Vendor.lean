import Aldis.Prebuilt.Assessed
import Aldis.Prebuilt.Explicit

/-!
# Which vendor's firmware an MCU runs

The three vendors' predicates, how they exclude each other, and where the paths that judge an
MCU's vendor agree: recognition, the label at approval, the check after a flash, and the two
ways to prepare an image.
-/

namespace Aldis.Prebuilt

open Interaction World Text Octets

variable {V : Type} [Semver V] {mcu : Mcu}

def Unsupported.vendor : Unsupported → Vendor
  | foci _ => .foci
  | cartographer _ => .cartographer

variable (V) in
def vendorOf (mcu : Mcu) : Option Vendor :=
  (identify (V := V) mcu).map fun
    | .ok running => running.vendor
    | .error reason => reason.vendor

namespace Targets

variable (targets : Targets V)

def shown (vendor : Vendor) (name : Str) : Str :=
  match vendor with
  | .foci => (targets.foci.map (·.tag)).getD "unknown"
  | .beacon =>
    ((targets.beacon.target name).map (fun t => Beacon.reported t.version)).getD "unknown"
  | .cartographer => ((targets.cartographer.target name).map (·.reported)).getD "unknown"

def checked (vendor : Vendor) (mcu : Mcu) : Option Bool :=
  match vendor with
  | .foci => targets.foci.map (fun release => match Foci.identify mcu with
      | .ok firmware => decide (Foci.compare firmware.version release = .current)
      | .error _ => false)
  | .beacon => (targets.beacon.target mcu.name).map (fun target =>
      (Beacon.identify mcu).any (fun firmware => decide (firmware.version = target.version)))
  | .cartographer => (targets.cartographer.target mcu.name).map
      (fun target => decide (mcu.version = some target.reported))

end Targets

section Predicates

theorem eqIgnoreAsciiCase_trans {s t u : Str} (ht : eqIgnoreAsciiCase s t = true)
    (hu : eqIgnoreAsciiCase s u = true) : toAsciiLowercase t = toAsciiLowercase u := by
  rw [eqIgnoreAsciiCase_iff] at ht hu
  exact ht.symm.trans hu

/-- Beacon and Cartographer are told apart by one word, which is either one's name. -/
theorem not_cartographer_of_names_beacon (h : Beacon.namesItselfBeacon mcu = true) :
    Cartographer.isCartographer mcu = false := by
  rw [Bool.eq_false_iff]
  intro hc
  unfold Beacon.namesItselfBeacon at h
  rw [Bool.and_eq_true] at h
  obtain ⟨happ, hname⟩ := h
  unfold Cartographer.isCartographer Cartographer.namesItselfCartographer at hc
  have hname_eq : (mcu.app.map trim).filter (· ≠ []) = mcu.appName := rfl
  rw [hname_eq] at hc
  cases ha : mcu.appName with
  | some app =>
      rw [ha] at happ hc
      exact absurd (eqIgnoreAsciiCase_trans happ hc) (by decide)
  | none =>
      rw [ha] at hc
      cases hv : mcu.version with
      | none =>
          unfold Mcu.versionName at hname
          rw [hv] at hname
          cases hname
      | some version =>
          unfold Mcu.versionName at hname
          rw [hv, Option.bind_some] at hname
          rw [hv, Option.getD_some] at hc
          cases hw : (splitWhitespace version).head? with
          | none =>
              rw [hw] at hname
              cases hname
          | some word =>
              rw [hw] at hname hc
              exact absurd (eqIgnoreAsciiCase_trans hname hc) (by decide)

/-- A Beacon that can be compared names itself Beacon. -/
theorem names_beacon_of_identify {firmware : Beacon.Firmware V}
    (h : Beacon.identify mcu = some firmware) : Beacon.namesItselfBeacon mcu = true := by
  unfold Beacon.identify at h
  split_ifs at h with happ
  cases hv : mcu.version with
  | none =>
      rw [hv] at h
      cases h
  | some version =>
      rw [hv, Option.bind_some] at h
      cases hp : Beacon.parseReported (V := V) version with
      | none =>
          rw [hp] at h
          cases h
      | some parsed =>
          unfold Beacon.namesItselfBeacon Mcu.versionName
          rw [happ, hv, Option.bind_some, Bool.true_and]
          unfold Beacon.parseReported at hp
          split at hp
          · rename_i word number hwords
            split_ifs at hp with hword
            rw [hwords]
            exact hword
          · cases hp

theorem isBeacon_iff : Beacon.isBeacon V mcu = true ↔
    ∃ firmware, Beacon.identify (V := V) mcu = some firmware := by
  unfold Beacon.isBeacon
  exact Option.isSome_iff_exists

theorem not_isBeacon (h : Beacon.namesItselfBeacon mcu = false) :
    Beacon.isBeacon V mcu = false := by
  rw [Bool.eq_false_iff]
  intro hb
  obtain ⟨firmware, hfirmware⟩ := isBeacon_iff.1 hb
  rw [names_beacon_of_identify hfirmware] at h
  cases h

theorem identify_eq_none (h : Beacon.isBeacon V mcu = false) :
    Beacon.identify (V := V) mcu = none := by
  rw [Beacon.isBeacon, Option.isSome_eq_false_iff, Option.isNone_iff_eq_none] at h
  exact h

theorem not_names_beacon_of_cartographer (h : Cartographer.isCartographer mcu = true) :
    Beacon.namesItselfBeacon mcu = false := by
  rw [Bool.eq_false_iff]
  intro hnames
  have hc := not_cartographer_of_names_beacon hnames
  rw [h] at hc
  cases hc

end Predicates

section Recognition

theorem vendorOf_beacon (h : Beacon.isBeacon V mcu = true) : vendorOf V mcu = some .beacon := by
  obtain ⟨firmware, hb⟩ := isBeacon_iff.1 h
  simp only [vendorOf, identify, hb, Option.map_some, Running.vendor]

theorem vendorOf_cartographer (h : Cartographer.isCartographer mcu = true) :
    vendorOf V mcu = some .cartographer := by
  have hb : Beacon.identify (V := V) mcu = none :=
    identify_eq_none (not_isBeacon (not_names_beacon_of_cartographer h))
  simp only [vendorOf, identify, hb, Cartographer.identify, h, if_true]
  cases Cartographer.identifyCartographer (V := V) mcu with
  | ok firmware => rfl
  | error reason => rfl

theorem vendorOf_foci (hf : Foci.isFoci mcu = true) (hb : Beacon.isBeacon V mcu = false)
    (hc : Cartographer.isCartographer mcu = false) : vendorOf V mcu = some .foci := by
  have hnone : Beacon.identify (V := V) mcu = none := identify_eq_none hb
  simp only [vendorOf, identify, hnone, Cartographer.identify, hc, hf, if_true,
    Bool.false_eq_true, if_false]
  cases Foci.identify (V := V) mcu with
  | ok firmware => rfl
  | error reason => rfl

theorem vendorOf_eq_none (hf : Foci.isFoci mcu = false) (hb : Beacon.isBeacon V mcu = false)
    (hc : Cartographer.isCartographer mcu = false) : identify (V := V) mcu = none := by
  have hnone : Beacon.identify (V := V) mcu = none := identify_eq_none hb
  simp only [identify, hnone, Cartographer.identify, hc, hf, Bool.false_eq_true, if_false]

end Recognition

section Agreement

variable (J : Type) [DictionaryReader J] (sha256 : Bytes → Bytes)

/-- A request holds the image of the version that `label` shows: for FOCI the asset published
under that tag, for a Beacon an image of that version, for a Cartographer one that says so. -/
inductive ShownImage (mcu : Mcu) (tr : List Event) : Str → FlashRequest V → Prop
  | foci {release : Foci.Release V} {board : Foci.Board} {flavor : Foci.Flavor} {image : Bytes}
      (hp : Foci.Published sha256 release.tag (release.assetName board flavor) image tr) :
      ShownImage mcu tr release.tag (.katapult .foci mcu image board.applicationStart .usbOnly)
  | beacon (image : Beacon.FirmwareImage V) :
      ShownImage mcu tr (Beacon.reported image.version) (.beacon mcu image)
  | cartographer {image : Bytes} {identity : Cartographer.ImageIdentity}
      (hi : Cartographer.imageIdentity J image = some identity) :
      ShownImage mcu tr identity.version
        (.katapult .cartographer mcu image Cartographer.APPLICATION_START .usbOrCan)

/-- Every path judges `mcu` to run firmware of `vendor`, whatever the targets and the files. -/
structure Agrees (mcu : Mcu) (vendor : Vendor) : Prop where
  label (targets : Targets V) : targets.labelFor mcu = some (targets.shown vendor mcu.name)
  reached (targets : Targets V) : targets.reachedBy mcu = some (targets.checked vendor mcu)
  automatic (versions : TargetVersions V) (pending : PendingBuild) :
    ∃ prepare, prepareAutomatic J sha256 versions pending mcu = some prepare ∧
      ∀ tr request, Runs prepare.run tr (.ok request) → request.vendor = vendor ∧
        ShownImage J sha256 mcu tr (versions.labelFor mcu) request
  explicit (file : Path) (bytes : Bytes) : ∀ result : Option (FlashRequest V),
    prepareExplicit J mcu file bytes = .ok result → result.map (·.vendor) = some vendor

variable (V) in
/-- No path takes `mcu` for prebuilt firmware, except that a Beacon whose version cannot be
compared still takes no other file than a Beacon image. -/
structure NoVendor (mcu : Mcu) : Prop where
  label (targets : Targets V) : targets.labelFor mcu = none
  reached (targets : Targets V) : targets.reachedBy mcu = none
  automatic (versions : TargetVersions V) (pending : PendingBuild) :
    prepareAutomatic J sha256 versions pending mcu = none
  explicit (file : Path) (bytes : Bytes) : ∀ result : Option (FlashRequest V),
    prepareExplicit J mcu file bytes = .ok result →
      result.map (·.vendor) = if Beacon.namesItselfBeacon mcu then some .beacon else none

variable {J sha256}

/-- What an attempt returns that ends by wrapping what another one returned. -/
theorem runs_wrapped {ε α β : Type} {x : HostAttempt ε α} {f : α → β} {tr : List Event} {b : β}
    (h : Runs (do let a ← x; return f a : HostAttempt ε β).run tr (.ok b)) :
    ∃ a, b = f a ∧ Runs x.run tr (.ok a) := by
  rcases runs_attempt_bind_iff.1 h with ⟨e, he, -⟩ | ⟨a, pre, post, rfl, hx, hf⟩
  · cases he
  · obtain ⟨rfl, hb⟩ := runs_pure_iff.1 hf
    exact ⟨a, Except.ok.inj hb, by rwa [List.append_nil]⟩

theorem labelFor_of_shown {versions : TargetVersions V} {vendor : Vendor}
    (h : ∀ targets : Targets V, targets.labelFor mcu = some (targets.shown vendor mcu.name)) :
    versions.labelFor mcu = versions.prebuilt.shown vendor mcu.name := by
  rw [TargetVersions.labelFor, h versions.prebuilt, Option.getD_some]

theorem automatic_agrees {vendor : Vendor} (hv : vendorOf V mcu = some vendor)
    (hl : ∀ targets : Targets V, targets.labelFor mcu = some (targets.shown vendor mcu.name))
    (versions : TargetVersions V) (pending : PendingBuild) :
    ∃ prepare, prepareAutomatic J sha256 versions pending mcu = some prepare ∧
      ∀ tr request, Runs prepare.run tr (.ok request) → request.vendor = vendor ∧
        ShownImage J sha256 mcu tr (versions.labelFor mcu) request := by
  rw [labelFor_of_shown hl]
  unfold vendorOf at hv
  unfold prepareAutomatic
  cases hi : identify (V := V) mcu with
  | none =>
      rw [hi] at hv
      cases hv
  | some result =>
      rw [hi, Option.map_some, Option.some.injEq] at hv
      subst hv
      rcases result with reason | running
      · refine ⟨_, rfl, fun tr request hr => ?_⟩
        obtain ⟨-, he⟩ := runs_pure_iff.1 hr
        cases he
      · cases running with
        | foci firmware =>
            refine ⟨_, rfl, fun tr request hr => ?_⟩
            obtain ⟨image, rfl, hx⟩ := runs_wrapped hr
            obtain ⟨release, hrelease, hp⟩ := downloadFociFirmware_assessed.recorded hx
            refine ⟨rfl, ?_⟩
            simp only [Running.vendor, Targets.shown, hrelease, Option.map_some, Option.getD_some]
            exact .foci hp
        | beacon firmware =>
            refine ⟨_, rfl, fun tr request hr => ?_⟩
            obtain ⟨image, rfl, hx⟩ := runs_wrapped hr
            obtain ⟨target, file, ht, -, -, hversion⟩ := readBeaconImage_assessed.recorded hx
            refine ⟨rfl, ?_⟩
            simp only [Running.vendor, Targets.shown, ht, Option.map_some, Option.getD_some,
              ← hversion]
            exact .beacon image
        | cartographer firmware =>
            refine ⟨_, rfl, fun tr request hr => ?_⟩
            obtain ⟨image, rfl, hx⟩ := runs_wrapped hr
            obtain ⟨target, identity, ht, -, hc, hversion⟩ :=
              (readCartographerImage_assessed J).recorded hx
            refine ⟨rfl, ?_⟩
            simp only [Running.vendor, Targets.shown, ht, Option.map_some, Option.getD_some,
              ← hversion]
            exact .cartographer (checkImage_ok hc).1

/-- A FOCI MCU that also names itself another vendor's: older hosts pass no `app` on, and then
FOCI is told by its build versions alone. -/
def Overlaps (mcu : Mcu) : Prop :=
  Foci.isFoci mcu = true ∧
    (Beacon.namesItselfBeacon mcu = true ∨ Cartographer.isCartographer mcu = true)

/-- Who names itself Beacon takes only a Beacon image. -/
theorem explicit_of_names_beacon (hnames : Beacon.namesItselfBeacon mcu = true) (file : Path)
    (bytes : Bytes) {result : Option (FlashRequest V)}
    (h : prepareExplicit J mcu file bytes = .ok result) :
    result.map (·.vendor) = some .beacon := by
  simp only [prepareExplicit, hnames, if_true] at h
  cases hp : Beacon.parseImage (V := V) bytes with
  | error error =>
      rw [hp] at h
      cases h
  | ok image =>
      rw [hp] at h
      cases h
      rfl

/-- Who no vendor's predicate holds for takes any file, through the ordinary flash. -/
theorem explicit_eq_none (hf : Foci.isFoci mcu = false)
    (hnames : Beacon.namesItselfBeacon mcu = false)
    (hc : Cartographer.isCartographer mcu = false) (file : Path) (bytes : Bytes) :
    prepareExplicit (V := V) J mcu file bytes = .ok none := by
  simp only [prepareExplicit, hnames, Cartographer.identify, hc, hf, Bool.false_eq_true, if_false]

theorem agrees_beacon (h : Beacon.isBeacon V mcu = true) (hn : ¬ Overlaps mcu) :
    Agrees (V := V) J sha256 mcu .beacon := by
  obtain ⟨firmware, hb⟩ := isBeacon_iff.1 h
  have hnames := names_beacon_of_identify hb
  have hc := not_cartographer_of_names_beacon hnames
  have hf : Foci.isFoci mcu = false := by
    rw [Bool.eq_false_iff]
    exact fun hf => hn ⟨hf, .inl hnames⟩
  have hlabel : ∀ targets : Targets V,
      targets.labelFor mcu = some (targets.shown .beacon mcu.name) := by
    intro targets
    simp only [Targets.labelFor, hf, h, Bool.false_eq_true, if_false, if_true, Targets.shown]
  refine ⟨hlabel, ?_, automatic_agrees (vendorOf_beacon h) hlabel,
    fun file bytes result => explicit_of_names_beacon hnames file bytes⟩
  intro targets
  simp only [Targets.reachedBy, hc, h, Bool.false_eq_true, if_false, if_true, Targets.checked]

theorem agrees_cartographer (h : Cartographer.isCartographer mcu = true) (hn : ¬ Overlaps mcu) :
    Agrees (V := V) J sha256 mcu .cartographer := by
  have hnames := not_names_beacon_of_cartographer h
  have hb : Beacon.isBeacon V mcu = false := not_isBeacon hnames
  have hf : Foci.isFoci mcu = false := by
    rw [Bool.eq_false_iff]
    exact fun hf => hn ⟨hf, .inr h⟩
  have hlabel : ∀ targets : Targets V,
      targets.labelFor mcu = some (targets.shown .cartographer mcu.name) := by
    intro targets
    simp only [Targets.labelFor, hf, hb, h, Bool.false_eq_true, if_false, if_true, Targets.shown]
  refine ⟨hlabel, ?_, automatic_agrees (vendorOf_cartographer h) hlabel, ?_⟩
  · intro targets
    simp only [Targets.reachedBy, h, if_true, Targets.checked]
  · intro file bytes result hresult
    simp only [prepareExplicit, hnames, Cartographer.identify, h, Bool.false_eq_true, if_false,
      if_true] at hresult
    cases hi : Cartographer.identifyCartographer (V := V) mcu with
    | error reason =>
        rw [hi] at hresult
        cases hresult
    | ok running =>
        rw [hi] at hresult
        change (prepareCartographerFile J mcu file bytes running).map some = .ok result at hresult
        unfold prepareCartographerFile at hresult
        cases hc : Cartographer.checkImage J bytes running with
        | error reason =>
            rw [hc] at hresult
            cases hresult
        | ok identity =>
            rw [hc] at hresult
            cases hresult
            rfl

theorem labelFor_foci (h : Foci.isFoci mcu = true) (targets : Targets V) :
    targets.labelFor mcu = some (targets.shown .foci mcu.name) := by
  simp only [Targets.labelFor, h, if_true, Targets.shown]

theorem agrees_foci (h : Foci.isFoci mcu = true) (hn : ¬ Overlaps mcu) :
    Agrees (V := V) J sha256 mcu .foci := by
  have hnames : Beacon.namesItselfBeacon mcu = false := by
    rw [Bool.eq_false_iff]
    exact fun hnames => hn ⟨h, .inl hnames⟩
  have hc : Cartographer.isCartographer mcu = false := by
    rw [Bool.eq_false_iff]
    exact fun hc => hn ⟨h, .inr hc⟩
  have hb : Beacon.isBeacon V mcu = false := not_isBeacon hnames
  have hlabel : ∀ targets : Targets V,
      targets.labelFor mcu = some (targets.shown .foci mcu.name) := labelFor_foci h
  refine ⟨hlabel, ?_, automatic_agrees (vendorOf_foci h hb hc) hlabel, ?_⟩
  · intro targets
    unfold Targets.reachedBy
    rw [if_neg (Bool.eq_false_iff.1 hc), if_neg (Bool.eq_false_iff.1 hb), if_pos h]
    rfl
  · intro file bytes result hresult
    simp only [prepareExplicit, hnames, Cartographer.identify, hc, h, Bool.false_eq_true,
      if_false, if_true, prepareFociFile] at hresult
    cases hboard : Foci.Board.fromMcu mcu.mcu with
    | none =>
        rw [hboard] at hresult
        cases hresult
    | some board =>
        rw [hboard] at hresult
        cases hresult
        rfl

theorem noVendor (hf : Foci.isFoci mcu = false) (hb : Beacon.isBeacon V mcu = false)
    (hc : Cartographer.isCartographer mcu = false) : NoVendor V J sha256 mcu := by
  refine ⟨?_, ?_, ?_, ?_⟩
  · intro targets
    simp only [Targets.labelFor, hf, hb, hc, Bool.false_eq_true, if_false]
  · intro targets
    simp only [Targets.reachedBy, hf, hb, hc, Bool.false_eq_true, if_false]
  · intro versions pending
    simp only [prepareAutomatic, vendorOf_eq_none hf hb hc]
  · intro file bytes result hresult
    cases hnames : Beacon.namesItselfBeacon mcu with
    | true =>
        rw [if_pos rfl]
        exact explicit_of_names_beacon hnames file bytes hresult
    | false =>
        rw [explicit_eq_none hf hnames hc] at hresult
        cases hresult
        rfl

/-- What the paths do for `mcu` follows from the vendor that is recognized, if any. -/
def FollowsRecognition (V J : Type) [Semver V] [DictionaryReader J] (sha256 : Bytes → Bytes)
    (mcu : Mcu) : Prop :=
  (∀ vendor, vendorOf V mcu = some vendor → Agrees (V := V) J sha256 mcu vendor) ∧
    (vendorOf V mcu = none → NoVendor V J sha256 mcu)

def beaconFile : Bytes :=
  [0x00, 0x10, 0x20, 0x0e, 0x00, 0xd8, 0x04, 0x00, 0x01, 0x55, 0x46, 0x44, 0x10, 0x68, 0x1f, 0x77,
    0x79]

theorem parseImage_beaconFile : ∃ image, Beacon.parseImage (V := V) beaconFile = .ok image := by
  have hlength : ¬ beaconFile.length < Beacon.SUFFIX_LENGTH := by decide
  have hsignature : ¬ ((beaconFile.drop (beaconFile.length - Beacon.SUFFIX_LENGTH)).drop 8).take 3
      ≠ Beacon.SUFFIX_SIGNATURE := by decide
  have hsuffix : ¬ ((beaconFile.drop (beaconFile.length - Beacon.SUFFIX_LENGTH)).getD 11 0).toNat
        < Beacon.SUFFIX_LENGTH ∧
      ¬ beaconFile.length <
        ((beaconFile.drop (beaconFile.length - Beacon.SUFFIX_LENGTH)).getD 11 0).toNat := by decide
  have hcrc : ¬ Beacon.dfuCrc (beaconFile.take (beaconFile.length - 4)) ≠
      fromLe32 ((beaconFile.drop (beaconFile.length - Beacon.SUFFIX_LENGTH)).drop 12) := by
    decide +kernel
  have hvendor : ¬ fromLe16 ((beaconFile.drop (beaconFile.length - Beacon.SUFFIX_LENGTH)).drop 4) ≠
      Beacon.VENDOR_ID := by decide
  have hpayload : ¬ beaconFile.take (beaconFile.length -
      ((beaconFile.drop (beaconFile.length - Beacon.SUFFIX_LENGTH)).getD 11 0).toNat) = [] := by
    decide
  unfold Beacon.parseImage
  rw [if_neg hlength, if_neg hsignature, if_neg (not_or.2 hsuffix), if_neg hcrc, if_neg hvendor,
    if_neg hpayload]
  exact ⟨_, rfl⟩

theorem followsRecognition_of_not_overlaps (hn : ¬ Overlaps mcu) :
    FollowsRecognition V J sha256 mcu := by
  by_cases hb : Beacon.isBeacon V mcu = true
  · have hv := vendorOf_beacon hb
    refine ⟨fun vendor h => ?_, fun h => ?_⟩
    · obtain rfl := Option.some.inj (hv.symm.trans h)
      exact agrees_beacon hb hn
    · cases hv.symm.trans h
  · rw [Bool.not_eq_true] at hb
    by_cases hc : Cartographer.isCartographer mcu = true
    · have hv := vendorOf_cartographer (V := V) hc
      refine ⟨fun vendor h => ?_, fun h => ?_⟩
      · obtain rfl := Option.some.inj (hv.symm.trans h)
        exact agrees_cartographer hc hn
      · cases hv.symm.trans h
    · rw [Bool.not_eq_true] at hc
      by_cases hf : Foci.isFoci mcu = true
      · have hv := vendorOf_foci hf hb hc
        refine ⟨fun vendor h => ?_, fun h => ?_⟩
        · obtain rfl := Option.some.inj (hv.symm.trans h)
          exact agrees_foci hf hn
        · cases hv.symm.trans h
      · rw [Bool.not_eq_true] at hf
        refine ⟨fun vendor h => ?_, fun _ => noVendor hf hb hc⟩
        rw [vendorOf, vendorOf_eq_none hf hb hc] at h
        cases h

/-- Where FOCI's build versions meet another vendor's name, the label shows FOCI's release and
recognition does not, or a Beacon image is taken where FOCI was recognized. -/
theorem not_followsRecognition_of_overlaps (h : Overlaps mcu) :
    ¬ FollowsRecognition V J sha256 mcu := by
  rintro ⟨hagrees, -⟩
  obtain ⟨hf, hother⟩ := h
  have hfoci : ∀ vendor, vendorOf V mcu = some vendor → vendor = .foci := by
    intro vendor hv
    have hlabel := (hagrees vendor hv).label
      ⟨some ⟨"v0.4.1", Semver.new 0 4 1⟩, ⟨none, []⟩, ⟨none, none, []⟩⟩
    rw [labelFor_foci hf, Option.some_inj] at hlabel
    cases vendor with
    | foci => rfl
    | beacon =>
        change ("v0.4.1" : Str) = "unknown" at hlabel
        exact absurd hlabel (by decide)
    | cartographer =>
        change ("v0.4.1" : Str) = "unknown" at hlabel
        exact absurd hlabel (by decide)
  by_cases hb : Beacon.isBeacon V mcu = true
  · cases hfoci _ (vendorOf_beacon hb)
  · rw [Bool.not_eq_true] at hb
    by_cases hc : Cartographer.isCartographer mcu = true
    · cases hfoci _ (vendorOf_cartographer (V := V) hc)
    · have hnames := hother.resolve_right hc
      rw [Bool.not_eq_true] at hc
      obtain ⟨image, himage⟩ := parseImage_beaconFile (V := V)
      have hexplicit := (hagrees .foci (vendorOf_foci hf hb hc)).explicit [] beaconFile
        (some (.beacon mcu image))
      have hbeacon : prepareExplicit J mcu [] beaconFile = .ok (some (.beacon mcu image)) := by
        simp only [prepareExplicit, hnames, if_true, himage]
      cases hexplicit hbeacon

/-- All paths follow the vendor that is recognized, unless an MCU without an `app` reports
FOCI's build versions and names itself Beacon or Cartographer. -/
theorem followsRecognition_iff (V J : Type) [Semver V] [DictionaryReader J]
    (sha256 : Bytes → Bytes) (mcu : Mcu) :
    FollowsRecognition V J sha256 mcu ↔ ¬ Overlaps mcu :=
  ⟨fun h ho => not_followsRecognition_of_overlaps ho h, followsRecognition_of_not_overlaps⟩

/-- A Beacon that passes no `app` on and whose build versions read as FOCI's do. -/
def overlappingMcu : Mcu where
  name := "mcu beacon"
  app := none
  version := some "Beacon 2.1.0"
  mcu := "rp2040"
  canbusFrequencyHz := none
  buildVersions := some "rust=1.90 features=none board=1"
  transport := some (.serial "/dev/ttyACM0")
  kconfig := []

theorem overlaps_overlappingMcu : Overlaps overlappingMcu := by
  constructor
  · decide
  · left
    decide

/-- The prompt shows FOCI's release to a Beacon, whose own image is what gets flashed. -/
theorem overlappingMcu_shown_as_foci :
    vendorOf Semver.Rank overlappingMcu = some .beacon ∧
      (∀ targets : Targets Semver.Rank, targets.labelFor overlappingMcu =
        some (targets.shown .foci overlappingMcu.name)) ∧
      ¬ FollowsRecognition Semver.Rank Unit (fun _ => []) overlappingMcu := by
  refine ⟨vendorOf_beacon (by decide), ?_, not_followsRecognition_of_overlaps
    overlaps_overlappingMcu⟩
  have hf : Foci.isFoci overlappingMcu = true := by decide
  exact labelFor_foci hf

end Agreement

end Aldis.Prebuilt

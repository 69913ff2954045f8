import Aldis.Cartographer.Selection
import Aldis.Prebuilt.Prepare

/-!
# What is flashed is what was assessed

A request that was prepared holds an image read or downloaded in that very execution and checked
against the running MCU and the approved target, and it is refused for any other MCU.
-/

namespace Aldis.Prebuilt

open Interaction World Text Octets

variable {V : Type} [Semver V] (J : Type) [DictionaryReader J] (sha256 : Bytes → Bytes)

/-- The checks that the image of a request passed, one way for each vendor. -/
inductive Assessed (versions : TargetVersions V) (mcu : Mcu) (tr : List Event) :
    FlashRequest V → Prop
  | foci {board : Foci.Board} {flavor : Foci.Flavor} {release : Foci.Release V} {image : Bytes}
      (hb : Foci.Board.fromMcu mcu.mcu = some board)
      (hf : mcu.buildVersions.map Foci.Flavor.fromBuildVersions = some (.ok flavor))
      (hr : versions.prebuilt.foci = some release)
      (hp : Foci.Published sha256 release.tag (release.assetName board flavor) image tr) :
      Assessed versions mcu tr
        (.katapult .foci mcu image board.applicationStart .usbOnly)
  | beacon {target : Beacon.Target V} {file : Bytes} {image : Beacon.FirmwareImage V}
      (ht : versions.prebuilt.beacon.target mcu.name = some target)
      (hr : (⟨.file (.read target.path), .ok file⟩ : Event) ∈ tr)
      (hp : Beacon.parseImage file = .ok image) (hv : image.version = target.version) :
      Assessed versions mcu tr (.beacon mcu image)
  | cartographer {target : Cartographer.Target V} {image : Bytes}
      {firmware : Cartographer.Firmware V} {identity : Cartographer.ImageIdentity}
      (ht : versions.prebuilt.cartographer.target mcu.name = some target)
      (hr : (⟨.file (.read target.path), .ok image⟩ : Event) ∈ tr)
      (hf : identify mcu = some (.ok (.cartographer firmware)))
      (hc : Cartographer.checkImage J image firmware = .ok identity)
      (hi : Cartographer.imageIdentity J image = some identity)
      (hn : Cartographer.namesItselfCartographer identity.app identity.version = true)
      (hm : identity.mcu = mcu.mcu) (hl : identity.canFrequency = mcu.canbusFrequencyHz)
      (hs : Cartographer.APPLICATION_START ∈ Stm32.plausibleApplicationStarts image)
      (hv : identity.version = target.reported) :
      Assessed versions mcu tr
        (.katapult .cartographer mcu image Cartographer.APPLICATION_START .usbOrCan)

omit [Semver V] in
theorem checkImage_ok {J : Type} [DictionaryReader J] {image : Bytes}
    {running : Cartographer.Firmware V} {identity : Cartographer.ImageIdentity}
    (h : Cartographer.checkImage J image running = .ok identity) :
    Cartographer.imageIdentity J image = some identity ∧
      Cartographer.namesItselfCartographer identity.app identity.version = true ∧
      identity.mcu = running.mcu ∧ identity.canFrequency = running.canFrequency ∧
      Cartographer.APPLICATION_START ∈ Stm32.plausibleApplicationStarts image := by
  unfold Cartographer.checkImage at h
  cases hi : Cartographer.imageIdentity J image with
  | none => simp [hi] at h
  | some found =>
    simp only [hi] at h
    split_ifs at h with hn hm hl hs
    obtain rfl := Except.ok.inj h
    exact ⟨rfl, hn, not_not.1 hm, not_not.1 hl, hs⟩

theorem identify_cartographer {mcu : Mcu} {firmware : Cartographer.Firmware V}
    (h : identify mcu = some (.ok (.cartographer firmware))) :
    firmware.mcu = mcu.mcu ∧ firmware.canFrequency = mcu.canbusFrequencyHz := by
  unfold identify at h
  cases hb : Beacon.identify (V := V) mcu with
  | some running => simp [hb] at h
  | none =>
    cases hc : Cartographer.identify (V := V) mcu with
    | none =>
      simp only [hb, hc] at h
      split_ifs at h
      cases hf : Foci.identify (V := V) mcu with
      | ok running => simp [hf] at h
      | error reason => simp [hf] at h
    | some result =>
      cases result with
      | error reason => simp [hb, hc] at h
      | ok running =>
        simp only [hb, hc, Option.some.injEq, Except.ok.injEq, Running.cartographer.injEq] at h
        subst h
        unfold Cartographer.identify Cartographer.identifyCartographer at hc
        split_ifs at hc
        cases hg : Cartographer.Generation.fromMcu mcu.mcu with
        | none => simp [hg] at hc
        | some generation =>
          simp only [hg, Option.some.injEq] at hc
          split at hc
          · cases hc
          · obtain rfl := Except.ok.inj hc
            exact ⟨rfl, rfl⟩

theorem identify_foci {mcu : Mcu} {firmware : Foci.Firmware V}
    (h : identify mcu = some (.ok (.foci firmware))) :
    Foci.Board.fromMcu mcu.mcu = some firmware.board ∧
      mcu.buildVersions.map Foci.Flavor.fromBuildVersions = some (.ok firmware.flavor) := by
  have hf : Foci.identify (V := V) mcu = .ok firmware := by
    unfold identify at h
    split at h
    · cases h
    · split at h
      · cases h
      · cases h
      · split_ifs at h
        split at h
        · rename_i found hfound
          obtain rfl := Running.foci.inj (Except.ok.inj (Option.some.inj h))
          exact hfound
        · cases h
  unfold Foci.identify at hf
  cases hb : Foci.Board.fromMcu mcu.mcu with
  | none => simp [hb, bind, Except.bind] at hf
  | some board =>
    cases hv : mcu.buildVersions with
    | none => simp [hb, hv, bind, Except.bind] at hf
    | some versions =>
      cases hl : Foci.Flavor.fromBuildVersions versions with
      | error reason => simp [hb, hv, hl, bind, Except.bind] at hf
      | ok flavor =>
        cases hp : Foci.Version.parse (V := V) (mcu.version.getD []) with
        | none => simp [hb, hv, hl, hp, bind, Except.bind] at hf
        | some version =>
          simp only [hb, hv, hl, hp, bind, Except.bind, pure, Except.pure, Except.ok.injEq] at hf
          subst hf
          exact ⟨rfl, by simp [hl]⟩

section Acquired

variable {sha256} {versions : TargetVersions V} {pending : PendingBuild} {name : Str}
  {past : List Event}

theorem downloadFirmware_published {tag asset : Str} :
    recording.EnsuresOr (Foci.downloadFirmware sha256 tag asset) past
      (fun image tr => Foci.Published sha256 tag asset image tr) (fun _ _ => True) := by
  unfold Foci.downloadFirmware
  simp only [ensuresOr_bind, ensuresOr_perform, ensuresOr_check, recording_permits,
    recording_step, true_and, implies_true, and_true, forall_eq]
  intro checksumAnswer checksum hc imageAnswer image hi
  subst hc hi
  rw [ensuresOr_ofExcept]
  cases hv : Foci.verifyFirmware sha256 asset checksum image with
  | error error => exact True.intro
  | ok u => exact ⟨by simp, checksum, by simp, Foci.verifyFirmware_ok hv⟩

theorem Published.mono {tag asset : Str} {image : Bytes} {tr tr' : List Event}
    (h : Foci.Published sha256 tag asset image tr) (hs : tr ⊆ tr') :
    Foci.Published sha256 tag asset image tr' := by
  obtain ⟨checksum, hc, hd⟩ := h.digest
  exact ⟨hs h.downloaded, checksum, hs hc, hd⟩

theorem downloadFociFirmware_assessed {firmware : Foci.Firmware V} :
    recording.EnsuresOr (downloadFociFirmware sha256 versions pending name firmware) past
      (fun image tr => ∃ release, versions.prebuilt.foci = some release ∧
        Foci.Published sha256 release.tag
          (release.assetName firmware.board firmware.flavor) image tr) (fun _ _ => True) := by
  unfold downloadFociFirmware keepCopy
  simp only [ensuresOr_bind, ensuresOr_require, ensuresOr_hook, ensuresOr_adapt,
    ensuresOr_fileCall, ensuresOr_pure, recording_permits, recording_step, true_and,
    implies_true, and_true, forall_eq]
  intro release hr _
  refine downloadFirmware_published.mono (fun image tr hp => ?_) fun _ _ _ => True.intro
  intro _ _
  exact ⟨release, hr, Published.mono hp (by simp)⟩

theorem readBeaconImage_assessed :
    recording.EnsuresOr (readBeaconImage versions pending name) past
      (fun image tr => ∃ target file, versions.prebuilt.beacon.target name = some target ∧
        (⟨.file (.read target.path), .ok file⟩ : Event) ∈ tr ∧
        Beacon.parseImage file = .ok image ∧ image.version = target.version)
      (fun _ _ => True) := by
  unfold readBeaconImage readImage
  simp only [ensuresOr_bind, ensuresOr_require, ensuresOr_hook, ensuresOr_adapt, ensuresOr_check,
    ensuresOr_fileCall, ensuresOr_ite, ensuresOr_throw, recording_permits, recording_step,
    true_and, implies_true, and_true, forall_eq, ne_eq, not_not]
  intro target ht _ answer file hf image hp hv _
  subst hf
  cases Path.fileName target.path with
  | none =>
    simp only [ensuresOr_pure]
    exact ⟨target, file, ht, by simp, hp, hv⟩
  | some fileName =>
    simp only [ensuresOr_bind, ensuresOr_fileCall, ensuresOr_pure, recording_permits,
      recording_step, true_and, forall_eq]
    intro _
    exact ⟨target, file, ht, by simp, hp, hv⟩

omit [Semver V] in
theorem readCartographerImage_assessed {firmware : Cartographer.Firmware V} :
    recording.EnsuresOr (readCartographerImage J versions pending name firmware) past
      (fun image tr => ∃ target identity,
        versions.prebuilt.cartographer.target name = some target ∧
        (⟨.file (.read target.path), .ok image⟩ : Event) ∈ tr ∧
        Cartographer.checkImage J image firmware = .ok identity ∧
        identity.version = target.reported) (fun _ _ => True) := by
  unfold readCartographerImage keepCopy
  simp only [ensuresOr_bind, ensuresOr_require, ensuresOr_hook, ensuresOr_check,
    ensuresOr_fileCall, ensuresOr_ite, ensuresOr_throw, recording_permits, recording_step,
    true_and, implies_true, and_true, forall_eq, ne_eq, not_not]
  intro target ht _ answer image hi identity hc hv _
  subst hi
  cases Path.fileName target.path with
  | none =>
    simp only [ensuresOr_pure]
    exact ⟨target, identity, ht, by simp, hc, hv⟩
  | some fileName =>
    simp only [ensuresOr_bind, ensuresOr_fileCall, ensuresOr_pure, recording_permits,
      recording_step, true_and, forall_eq]
    intro _
    exact ⟨target, identity, ht, by simp, hc, hv⟩

end Acquired

variable {sha256} {J} {versions : TargetVersions V} {pending : PendingBuild} {mcu : Mcu}
  {prepared : HostAttempt Str (FlashRequest V)}

theorem prepareAutomatic_assessed
    (h : prepareAutomatic J sha256 versions pending mcu = some prepared) :
    recording.EnsuresOr prepared []
      (fun request tr => Assessed J sha256 versions mcu tr request ∧
        request.destination = .of mcu) (fun _ _ => True) := by
  unfold prepareAutomatic at h
  cases hi : identify (V := V) mcu with
  | none => simp [hi] at h
  | some result =>
    rcases result with reason | running
    · simp only [hi, Option.some.injEq] at h
      subst h
      exact True.intro
    · cases running with
      | foci firmware =>
        simp only [hi, Option.some.injEq] at h
        subst h
        obtain ⟨hb, hf⟩ := identify_foci hi
        simp only [ensuresOr_bind, ensuresOr_pure]
        refine downloadFociFirmware_assessed.mono ?_ fun _ _ _ => True.intro
        rintro image tr ⟨release, hr, hp⟩
        exact ⟨.foci hb hf hr hp, rfl⟩
      | beacon firmware =>
        simp only [hi, Option.some.injEq] at h
        subst h
        simp only [ensuresOr_bind, ensuresOr_pure]
        refine readBeaconImage_assessed.mono ?_ fun _ _ _ => True.intro
        rintro image tr ⟨target, file, ht, hr, hp, hv⟩
        exact ⟨.beacon ht hr hp hv, rfl⟩
      | cartographer firmware =>
        simp only [hi, Option.some.injEq] at h
        subst h
        obtain ⟨hm, hl⟩ := identify_cartographer hi
        simp only [ensuresOr_bind, ensuresOr_pure]
        refine (readCartographerImage_assessed J).mono ?_ fun _ _ _ => True.intro
        rintro image tr ⟨target, identity, ht, hr, hc, hv⟩
        obtain ⟨hid, hnames, hmcu, hlink, hstart⟩ := checkImage_ok hc
        exact ⟨.cartographer ht hr hi hc hid hnames (hmcu.trans hm) (hlink.trans hl) hstart hv,
          rfl⟩

omit [Semver V] in
/-- A request for another MCU than the approved one is refused before the first call. -/
theorem flashPrebuilt_refused {coordinator : BuildCoordinator} {sha1 : Bytes → Bytes}
    {options : SystemFlashOptions} {name : Str} {first : Option Bool} {approved : ApprovedBuild}
    {request : FlashRequest V} {tr : List Event}
    {result : Observed FlashCoordinatorError FlashResult}
    (hn : request.destination.is approved.pending.prepared = false)
    (h : Runs (coordinator.flashPrebuilt sha1 options name first approved request) tr result) :
    tr = [] ∧ result = (first, .error (.coordinator (.requestForAnotherMcu
      request.destination.name approved.pending.prepared.targetName))) := by
  unfold BuildCoordinator.flashPrebuilt at h
  simp only [hn, Bool.false_eq_true, not_false_eq_true, if_true] at h
  exact runs_pure_iff.1 h

/-- A prepared request is for the assessed image and that very MCU; with an approval of any
other MCU its flash fails before any call. -/
theorem flashed_is_assessed {tr : List Event} {request : FlashRequest V}
    (hp : prepareAutomatic J sha256 versions pending mcu = some prepared)
    (hr : Runs prepared.run tr (.ok request)) :
    Assessed J sha256 versions mcu tr request ∧ request.destination = .of mcu ∧
      ∀ (coordinator : BuildCoordinator) (sha1 : Bytes → Bytes) (options : SystemFlashOptions)
        (name : Str) (first : Option Bool) (approved : PreparedBuild) (tr' : List Event)
        (result : Observed FlashCoordinatorError FlashResult),
        approved.targetName ≠ mcu.name ∨ approved.mcu ≠ mcu.mcu ∨
          approved.transport ≠ mcu.transport →
        Runs (coordinator.flashPrebuilt sha1 options name first ⟨⟨approved⟩⟩ request) tr' result →
        tr' = [] ∧ result = (first, .error (.coordinator
          (.requestForAnotherMcu mcu.name approved.targetName))) := by
  obtain ⟨hassessed, hdestination⟩ := (prepareAutomatic_assessed hp).recorded hr
  refine ⟨hassessed, hdestination, ?_⟩
  intro coordinator sha1 options name first approved tr' result hdiffers hruns
  have hn : request.destination.is (ApprovedBuild.mk ⟨approved⟩).pending.prepared = false := by
    rw [Bool.eq_false_iff, Ne, Destination.is_iff, hdestination]
    intro he
    obtain ⟨hname, hmodel, htransport⟩ := Destination.mk.inj he
    rcases hdiffers with h | h | h
    · exact h hname.symm
    · exact h hmodel.symm
    · exact h htransport.symm
  have hrefused := flashPrebuilt_refused hn hruns
  rw [hdestination] at hrefused
  exact hrefused

/-- No dictionaries are read for a FOCI image. -/
instance : DictionaryReader Unit := ⟨fun _ _ => none, fun _ => none, fun _ _ => none,
  fun _ _ => none⟩

section Probe

open Cartographer (ProbeDictionary probeImage)

def probeMcu : Mcu where
  name := "mcu cartographer"
  app := some "Cartographer"
  version := some "Cartographer 5.0.0"
  mcu := "stm32g431xx"
  canbusFrequencyHz := none
  buildVersions := none
  transport := some (.serial "/dev/ttyACM0")
  kconfig := []

def probeVersions : TargetVersions Semver.Rank where
  klipper := .indeterminate
  prebuilt := ⟨none, ⟨none, []⟩,
    ⟨some "/home/pi", none, [("mcu cartographer", .ok Cartographer.newestTarget)]⟩⟩

/-- A host on which every file is the image of the newest release. -/
def probeHost (_ : List Event) : (call : HostCall) → HostAnswer call
  | .file (.read _) => .ok (probeImage "Cartographer 6.0.0")
  | call => idleHost call

def probePending : PendingBuild :=
  ⟨⟨"mcu cartographer", "stm32g431xx", some (.serial "/dev/ttyACM0"),
    ⟨[], "/run/targets/6d/.config", "/run/artifacts/6d/klipper", false⟩⟩⟩

def probeRequest : FlashRequest Semver.Rank :=
  .katapult .cartographer probeMcu (probeImage "Cartographer 6.0.0") 0x08002000 .usbOrCan

def probePreparation : HostAttempt Str (FlashRequest Semver.Rank) :=
  (prepareAutomatic ProbeDictionary (fun _ => []) probeVersions probePending probeMcu).getD
    (throw [])

theorem runs_probePreparation : Runs probePreparation.run
    (probePreparation.run.interact probeHost []).1 (.ok probeRequest) := by
  have hr := runs_interact_nil probeHost probePreparation.run
  have he : (probePreparation.run.interact probeHost []).2 = .ok probeRequest := by
    decide +kernel
  rwa [he] at hr

end Probe

theorem probe_flashed_is_assessed :
    Assessed Cartographer.ProbeDictionary (fun _ => []) probeVersions probeMcu
        (probePreparation.run.interact probeHost []).1 probeRequest ∧
      probeRequest.destination = .of probeMcu ∧
      ∀ (coordinator : BuildCoordinator) (sha1 : Bytes → Bytes) (options : SystemFlashOptions)
        (name : Str) (first : Option Bool) (tr : List Event)
        (result : Observed FlashCoordinatorError FlashResult),
        Runs (coordinator.flashPrebuilt sha1 options name first
          ⟨⟨{ probePending.prepared with targetName := "mcu other" }⟩⟩ probeRequest) tr result →
        tr = [] ∧ result = (first, .error (.coordinator
          (.requestForAnotherMcu "mcu cartographer" "mcu other"))) := by
  have hp : prepareAutomatic Cartographer.ProbeDictionary (fun _ => []) probeVersions
      probePending probeMcu = some probePreparation := rfl
  obtain ⟨hassessed, hdestination, hrefused⟩ := flashed_is_assessed hp runs_probePreparation
  refine ⟨hassessed, hdestination, ?_⟩
  intro coordinator sha1 options name first tr result hr
  exact hrefused coordinator sha1 options name first _ tr result (.inl (by decide)) hr

end Aldis.Prebuilt

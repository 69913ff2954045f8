import Aldis.UpdateRun.Ledger

/-!
# The calls of each part of a run

Most parts make calls that leave the ledger as it is. A build makes build commands besides,
preparing prebuilt firmware makes downloads, and a flash makes the calls of its backend. A flash
that has asked an MCU to enter its bootloader fails with no error that allows a restore.
-/

namespace Aldis.UpdateRun

open Interaction World Attempt Text Octets

/-- A call that leaves every ledger as it is. -/
def quiet : HostCall → Bool
  | .hook (.approve _ _ _) | .hook (.stepStarted .startKlipper) => false
  | .hook _ | .mcu _ | .file _ | .attempts _ _ | .parallelJobs | .flashFailed _ => true
  | _ => false

variable {α ε : Type} {unit : KlipperUnit} {P : HostCall → Prop} {R : ε → Prop}

/-- A call of which the caller of the run only learns the progress. -/
def silent : HostCall → Bool
  | .hook (.progress _ _) => true
  | .mcu _ | .file _ | .attempts _ _ | .parallelJobs => true
  | _ => false

theorem quiet_of_silent {call : HostCall} (h : silent call = true) : quiet call = true := by
  cases call with
  | hook call =>
      cases call with
      | progress name progress => rfl
      | approve name current next => cases h
      | flashed name kconfig bytes => cases h
      | stepStarted step => cases h
      | stepSucceeded step => cases h
      | failed message => cases h
  | mcu call => rfl
  | file call => rfl
  | attempts timeout pollInterval => rfl
  | parallelJobs => rfl
  | run runner command => cases h
  | flash call => cases h
  | downloadText tag name => cases h
  | downloadBytes tag name => cases h
  | flashFailed error => cases h

@[simp] theorem silent_progress {name : Str} {progress : UpdateProgress} :
    silent (.hook (.progress name progress)) = true := rfl

@[simp] theorem silent_mcu {call : McuCall} : silent (.mcu call) = true := rfl

@[simp] theorem silent_file {call : FileCall} : silent (.file call) = true := rfl

@[simp] theorem silent_attempts {timeout pollInterval : ℕ} :
    silent (.attempts timeout pollInterval) = true := rfl

@[simp] theorem silent_parallelJobs : silent .parallelJobs = true := rfl

/-- An attempt that makes silent calls, and calls in `P`, and fails only within `R`. -/
abbrev Also (P : HostCall → Prop) (R : ε → Prop) (x : HostAttempt ε α) : Prop :=
  x.Makes (fun call => silent call = true ∨ P call) R

section Quiet

/-- An attempt that makes silent calls only. -/
abbrev Quiet (x : HostAttempt ε α) : Prop :=
  x.Makes (fun call => silent call = true) fun _ => True

theorem buildPaths_quiet {workspace : RunWorkspace} {name : Str} :
    Quiet (workspace.buildPaths name) := by
  unfold RunWorkspace.buildPaths
  simp only [makes_ite, makes_throw_bind, implies_true, true_and]
  intro _
  refine .bind (by simp) fun _ => ?_
  refine .bind (makes_check fun _ => True.intro) fun _ => ?_
  refine .bind (by simp) fun _ => ?_
  exact .bind (makes_check fun _ => True.intro) fun _ => by simp

theorem prepare_quiet {inventory : McuInventory} {workspace : RunWorkspace} {name : Str}
    {clean : Bool} : Quiet (BuildCoordinator.prepare inventory workspace name clean) := by
  unfold BuildCoordinator.prepare
  refine .bind ((makes_adapt _ _).2 buildPaths_quiet) fun _ => ?_
  exact .bind (makes_check fun _ => True.intro) fun _ => by simp

theorem ensurePrinterIdle_quiet : Quiet ensurePrinterIdle := by
  have hcheck : Quiet ensurePrinterIdle.checkPrintState := by
    refine .bind (by simp) fun answer => ?_
    cases answer with
    | error error => simp only [makes_throw]
    | ok state => simp only [makes_ite, makes_pure, makes_throw, implies_true, and_self]
  refine .bind (by simp) fun answer => ?_
  cases answer with
  | error error => exact hcheck
  | ok info => simp [hcheck]

theorem waitForApplication_quiet {mcu : Mcu} : Quiet (waitForApplication mcu) := by
  unfold waitForApplication
  cases applicationDevice mcu with
  | none => simp
  | some device =>
      simp only [makes_retryUntilAvailable, silent_attempts, true_and]
      exact .bind (by simp) fun _ => by simp

theorem resolveOne_quiet {unreported : UnreportedMcu} : Quiet (resolveOne unreported) := by
  unfold resolveOne
  split
  · simp only [makes_ite, makes_pure, implies_true, true_and]
    intro _
    refine .bind (by simp) fun answer => ?_
    rcases answer with (_ | _) | data <;> simp
  · simp

theorem resolveAll_quiet (unreported : List UnreportedMcu) : Quiet (resolveAll unreported) := by
  induction unreported with
  | nil => simp [resolveAll]
  | cons first rest ih =>
      exact .bind resolveOne_quiet fun _ => .bind ih fun _ => by simp

theorem probeUnreported_quiet {inventory : McuInventory} : Quiet (probeUnreported inventory) := by
  unfold probeUnreported
  simp only [makes_ite, makes_pure, implies_true, true_and]
  intro _
  refine .bind (by simp) fun answer => ?_
  cases answer with
  | error error => simp
  | ok info =>
      have hresolve : Quiet (resolveUnreported inventory) :=
        .bind (resolveAll_quiet inventory.unreported) fun _ => by simp
      simp [hresolve]

variable {V : Type} [Semver V]

theorem waitForMcus_quiet {selected : List Str} {versions : TargetVersions V} :
    Quiet (waitForMcus selected versions) := by
  have hready : Quiet (mcusReady selected versions) := by
    refine .bind (by simp) fun answer => ?_
    cases answer with
    | error error => simp
    | ok inventory =>
        refine .bind probeUnreported_quiet fun inventory => ?_
        split <;> simp
  simp only [waitForMcus, makes_adapt, makes_retryUntilAvailable, silent_attempts,
    true_and]
  exact hready

end Quiet

section Firmware

variable {V : Type} [Semver V] {J : Type} [DictionaryReader J] {sha256 : Bytes → Bytes}
  {versions : TargetVersions V} {pending : PendingBuild} {name : Str}

/-- An attempt that downloads, besides its quiet calls. -/
abbrev Downloads (unit : KlipperUnit) (x : HostAttempt ε α) : Prop :=
  Also (fun call => act unit call = .download) (fun _ => True) x

theorem keepCopy_downloads {fileName : Str} {image : Bytes} :
    Downloads unit (Prebuilt.keepCopy pending fileName image) :=
  .bind (by simp) fun _ => by simp

theorem downloadFirmware_downloads {tag asset : Str} :
    Downloads unit (Foci.downloadFirmware sha256 tag asset) := by
  refine .bind ((makes_perform _).2 (.inr rfl)) fun _ => ?_
  refine .bind (makes_check fun _ => True.intro) fun _ => ?_
  refine .bind ((makes_perform _).2 (.inr rfl)) fun _ => ?_
  refine .bind (makes_check fun _ => True.intro) fun _ => ?_
  exact .bind (by simp) fun _ => by simp

theorem downloadFociFirmware_downloads {firmware : Foci.Firmware V} :
    Downloads unit (Prebuilt.downloadFociFirmware sha256 versions pending name firmware) := by
  refine .bind (makes_require True.intro) fun release => ?_
  refine .bind (by simp) fun _ => ?_
  refine .bind ((makes_adapt _ _).2 downloadFirmware_downloads) fun image => ?_
  refine .bind (by simp) fun _ => ?_
  exact .bind keepCopy_downloads fun _ => by simp

theorem readBeaconImage_downloads :
    Downloads unit (Prebuilt.readBeaconImage versions pending name) := by
  have hread : ∀ path, Downloads unit (Prebuilt.readImage (V := V) path) := fun path =>
    .bind (by simp) fun _ => .bind (makes_check fun _ => True.intro) fun _ =>
      makes_check fun _ => True.intro
  refine .bind (makes_require True.intro) fun target => ?_
  refine .bind (by simp) fun _ => ?_
  refine .bind ((makes_adapt _ _).2 (hread target.path)) fun image => ?_
  simp only [makes_ite, makes_throw_bind, implies_true, true_and]
  intro _
  refine .bind (by simp) fun _ => ?_
  split
  · exact .bind (by simp) fun _ => by simp
  · simp

omit [Semver V] in
theorem readCartographerImage_downloads {firmware : Cartographer.Firmware V} :
    Downloads unit (Prebuilt.readCartographerImage J versions pending name firmware) := by
  refine .bind (makes_require True.intro) fun target => ?_
  refine .bind (by simp) fun _ => ?_
  refine .bind (by simp) fun _ => ?_
  refine .bind (makes_check fun _ => True.intro) fun image => ?_
  refine .bind (makes_check fun _ => True.intro) fun identity => ?_
  simp only [makes_ite, makes_throw_bind, implies_true, true_and]
  intro _
  refine .bind (by simp) fun _ => ?_
  split
  · exact .bind keepCopy_downloads fun _ => by simp
  · simp

theorem prepareAutomatic_downloads {mcu : Mcu} {prepare : HostAttempt Str (FlashRequest V)}
    (h : Prebuilt.prepareAutomatic J sha256 versions pending mcu = some prepare) :
    Downloads unit prepare := by
  unfold Prebuilt.prepareAutomatic at h
  split at h
  · cases h
  · cases h
    exact .bind downloadFociFirmware_downloads fun _ => by simp
  · cases h
    exact .bind readCartographerImage_downloads fun _ => by simp
  · cases h
    exact .bind readBeaconImage_downloads fun _ => by simp
  · cases h
    simp only [makes_throw]

end Firmware

section Build

/-- An attempt that runs build commands, besides its quiet calls. -/
abbrev Builds (unit : KlipperUnit) (x : HostAttempt ε α) : Prop :=
  Also (fun call => act unit call = .build) (fun _ => True) x

theorem act_make {arguments : List Str} {dir : Path} :
    act unit (.run .build ⟨"make", arguments, some dir, none⟩) = .build := by
  have hne : ∀ action,
      (⟨"make", arguments, some dir, none⟩ : BuildCommand) ≠ systemctl action unit := by
    intro action h
    cases congrArg BuildCommand.currentDir h
  simp only [act, hne, if_false]

theorem runMake_builds {builder : KlipperBuilder} {arguments : List Str} :
    Builds unit (builder.runMake arguments) := by
  refine .bind (makes_run.2 (.inr act_make)) fun _ => ?_
  refine .bind (makes_check fun _ => True.intro) fun output => ?_
  simp only [makes_ite, makes_pure, makes_throw, implies_true, and_self]

theorem writeFile_builds {path : Path} {content : Bytes} {wrap : Cause → ε} :
    Builds unit (writeFile path content wrap) :=
  .bind (by simp) fun _ => makes_check fun _ => True.intro

theorem writeIfChanged_builds {path : Path} {content : Str} {wrap : Cause → ε} :
    Builds unit (writeIfChanged path content wrap) := by
  refine .bind (by simp) fun answer => ?_
  cases answer with
  | ok existing =>
      simp only [makes_ite, makes_pure, implies_true, true_and]
      exact fun _ => writeFile_builds
  | error error => exact writeFile_builds

theorem createDirAll_builds {path : Path} {wrap : Cause → ε} :
    Builds unit (createDirAll path wrap) :=
  .bind (by simp) fun _ => makes_check fun _ => True.intro

theorem removeIfPresent_builds {path : Path} {wrap : Cause → ε} :
    Builds unit (removeIfPresent path wrap) := by
  refine .bind (by simp) fun answer => ?_
  cases answer with
  | ok _ => simp
  | error error => simp

theorem copyArtifact_builds {builder : KlipperBuilder} {request : BuildRequest} {parent : Path}
    {kconfig : Str} : Builds unit (builder.copyArtifact request parent kconfig) := by
  refine .bind createDirAll_builds fun _ => ?_
  refine .bind (by simp) fun _ => ?_
  refine .bind (makes_check fun _ => True.intro) fun _ => ?_
  refine .bind (by simp) fun _ => ?_
  exact .bind (makes_check fun _ => True.intro) fun _ => by simp

theorem buildWithProgress_builds {builder : KlipperBuilder} {request : BuildRequest}
    {name : Str} : Builds unit (builder.buildWithProgress request
      fun stage => Program.perform (HostCall.hook (.progress name (buildProgress stage)))) := by
  have hprogress : ∀ stage, Builds (ε := BuildError) unit (ExceptT.lift
      (Program.perform (HostCall.hook (.progress name (buildProgress stage))))) := fun stage =>
    ⟨.inl rfl, fun _ _ _ => True.intro⟩
  refine .bind (makes_check fun _ => True.intro) fun _ => ?_
  refine .bind (makes_require True.intro) fun _ => ?_
  refine .bind (makes_require True.intro) fun parent => ?_
  refine .bind createDirAll_builds fun _ => ?_
  refine .bind writeFile_builds fun _ => ?_
  refine .bind writeIfChanged_builds fun _ => ?_
  refine .bind (makes_require True.intro) fun argument => ?_
  refine .optional runMake_builds ?_
  refine .bind (hprogress .configuring) fun _ => ?_
  refine .bind runMake_builds fun _ => ?_
  refine .bind (by simp) fun _ => ?_
  refine .bind (makes_check fun _ => True.intro) fun expanded => ?_
  refine .bind writeFile_builds fun _ => ?_
  refine .bind (hprogress .compiling) fun _ => ?_
  refine .bind removeIfPresent_builds fun _ => ?_
  refine .bind ((makes_perform _).2 (.inl rfl)) fun _ => ?_
  exact .bind runMake_builds fun _ => copyArtifact_builds

end Build

section Flash

variable {options : SystemFlashOptions} {name : Str} {sha1 : Bytes → Bytes}

/-- An attempt that makes calls of a flash, besides its quiet calls. -/
abbrev Flashes (unit : KlipperUnit) (R : ε → Prop) (x : HostAttempt ε α) : Prop :=
  Also (fun call => act unit call = .flash) R x

/-- The errors of a flash after which Klipper is not restored. -/
def Unrestorable (error : SystemFlashError) : Prop :=
  (FlashCoordinatorError.flash error).allowsKlipperRestore = false

theorem flashCall_flashes {call : FlashCall} :
    Makes (α := no_index (FlashAnswer call))
      (fun call => silent call = true ∨ act unit call = .flash) R (flashCall call) :=
  makes_flashCall.2 (.inr rfl)

theorem report_flashes {progress : SystemFlashProgress} :
    Flashes unit R (report name progress) := makes_hook.2 (.inl rfl)

theorem overTransport_flashes {x : Attempt (Katapult.Exchange Str) ε α} (hR : ∀ e, R e) :
    Flashes unit R (overTransport x) := makes_translate (fun _ => .inr rfl) hR x

theorem overSambaPort_flashes {x : Attempt Samba.PortAnswer ε α} (hR : ∀ e, R e) :
    Flashes unit R (overSambaPort x) := makes_translate (fun _ => .inr rfl) hR x

theorem openSerialWhenReady_flashes {device : Path} {baudRate : ℕ} {wrap : Cause → ε}
    (hR : ∀ e, R (wrap e)) :
    Flashes unit R (openSerialWhenReady options device baudRate wrap) :=
  makes_retryUntilAvailable.2 ⟨.inl rfl, .bind flashCall_flashes fun _ => makes_check hR⟩

theorem observeUsbBootloader_flashes {usbPath : Path} {initial : UsbIdentity}
    {R : UsbIdentity → Prop} (hR : ∀ e, R e) :
    Flashes unit R (observeUsbBootloader usbPath initial) := by
  refine .bind flashCall_flashes fun identity => ?_
  simp only [makes_ite, makes_throw]
  refine ⟨fun _ => ?_, fun _ => hR identity⟩
  exact .bind flashCall_flashes fun tty => makes_require (hR identity)

theorem observeAnyUsbBootloaderAtPath_flashes {usbPath : Path} {initial : UsbIdentity}
    {R : UsbBootloaderError → Prop} (hR : ∀ e, R e) :
    Flashes unit R (observeAnyUsbBootloaderAtPath options usbPath initial) :=
  (makes_adapt _ _).2 (makes_retryUntilAvailable.2
    ⟨.inl rfl, observeUsbBootloader_flashes fun _ => hR _⟩)

theorem requestAndObserveAnyUsbBootloader_flashes {device : Path}
    {R : UsbBootloaderError → Prop} (hR : ∀ e, R e) :
    Flashes unit R (requestAndObserveAnyUsbBootloader options device) := by
  refine .bind flashCall_flashes fun _ => ?_
  refine .bind (makes_require (hR _)) fun usbPath => ?_
  refine .bind flashCall_flashes fun initial => ?_
  refine .bind flashCall_flashes fun reset => ?_
  exact (makes_adapt _ _).2 (makes_retryUntilAvailable.2
    ⟨.inl rfl, observeUsbBootloader_flashes fun _ => hR _⟩)

theorem requestAndObserveBeaconBootloader_flashes {device : Path}
    {R : Beacon.BeaconDfuError → Prop} (hR : ∀ e, R e) :
    Flashes unit R (requestAndObserveBeaconBootloader options device) := by
  refine .bind flashCall_flashes fun _ => ?_
  refine .bind (makes_require (hR _)) fun usbPath => ?_
  refine .bind flashCall_flashes fun reset => ?_
  refine makes_retryUntilAvailable.2 ⟨.inl rfl, ?_⟩
  exact .bind flashCall_flashes fun _ => makes_require (hR _)

theorem waitForUsbDeviceAccess_flashes {sysfsPath : Path} :
    Flashes unit Unrestorable (waitForUsbDeviceAccess sysfsPath) := by
  refine .bind flashCall_flashes fun _ => ?_
  refine .bind (makes_check fun _ => rfl) fun deviceNode => ?_
  refine makes_retryUntilAvailable.2 ⟨.inl rfl, ?_⟩
  exact .bind flashCall_flashes fun _ => makes_check fun _ => rfl

theorem requestCanBootloader_flashes {uuid : ℕ} {R : CanBootstrapError → Prop}
    (hR : ∀ e, R e) : Flashes unit R (requestCanBootloader uuid) := by
  unfold requestCanBootloader
  simp only [makes_ite, makes_throw_bind]
  refine ⟨fun _ => hR _, fun _ => ?_⟩
  exact .bind flashCall_flashes fun _ => makes_check fun _ => hR _

theorem selectObserved_flashes {observed : ObservedUsbBootloader} {transport : Str} :
    Flashes unit Unrestorable (selectObserved observed transport) := by
  unfold selectObserved
  cases observed.kind with
  | none =>
      refine .bind flashCall_flashes fun snapshot => makes_check ?_
      exact fun _ => rfl
  | some kind =>
      refine .bind (makes_pure _) fun snapshot => makes_check ?_
      exact fun _ => rfl

theorem resolveSerialRoute_flashes {observed : ObservedUsbBootloader} {kconfig transport : Str} :
    Flashes unit Unrestorable (resolveSerialRoute observed kconfig transport) := by
  refine .bind selectObserved_flashes fun selected => ?_
  cases selected with
  | katapult _ serialDevice => exact makes_pure _
  | stm32Dfu sysfsPath => exact .bind (makes_check fun _ => rfl) fun _ => makes_pure _
  | picoBoot sysfsPath => exact makes_pure _
  | samBa _ serialDevice => exact .bind (makes_check fun _ => rfl) fun _ => makes_pure _

theorem katapultRoute_flashes {observed : ObservedUsbBootloader} {transport : Str} :
    Flashes unit Unrestorable (katapultRoute observed transport) := by
  refine .bind selectObserved_flashes fun selected => ?_
  cases selected with
  | katapult _ serialDevice => exact makes_pure _
  | stm32Dfu sysfsPath => exact rfl
  | picoBoot sysfsPath => exact rfl
  | samBa _ serialDevice => exact rfl

theorem flashKatapultSerial_flashes {serialDevice : Path} {firmware : Bytes}
    {start : Option UInt32} : Flashes unit Unrestorable
      (flashKatapultSerial sha1 options name serialDevice firmware start) := by
  refine .bind report_flashes fun _ => ?_
  refine .bind (openSerialWhenReady_flashes fun _ => rfl) fun _ => ?_
  exact (makes_adapt _ _).2 (overTransport_flashes fun _ => rfl)

theorem dispatchSerialRoute_flashes {route : SerialFlashRoute} {firmware : Bytes} :
    Flashes unit Unrestorable (dispatchSerialRoute sha1 options name route firmware) := by
  cases route with
  | katapult serialDevice => exact flashKatapultSerial_flashes
  | stm32Dfu sysfsPath start =>
      refine .bind waitForUsbDeviceAccess_flashes fun _ => ?_
      refine .bind report_flashes fun _ => ?_
      exact .bind flashCall_flashes fun _ => makes_check fun _ => rfl
  | picoBoot sysfsPath =>
      refine .bind waitForUsbDeviceAccess_flashes fun _ => ?_
      refine .bind report_flashes fun _ => ?_
      exact .bind flashCall_flashes fun _ => makes_check fun _ => rfl
  | samBa serialDevice target =>
      refine .bind report_flashes fun _ => ?_
      refine .bind (makes_retryUntilAvailable.2 ⟨.inl rfl, ?_⟩) fun _ => ?_
      · exact .bind flashCall_flashes fun _ => makes_check fun _ => rfl
      · exact (makes_adapt _ _).2 (overSambaPort_flashes fun _ => rfl)

theorem flashObservedUsb_flashes {observed : ObservedUsbBootloader} {kconfig transport : Str}
    {firmware : Bytes} : Flashes unit Unrestorable
      (flashObservedUsb sha1 options name observed kconfig firmware transport) :=
  .bind report_flashes fun _ => .bind resolveSerialRoute_flashes fun _ =>
    dispatchSerialRoute_flashes

theorem flashUartKatapult_flashes {serialDevice : Path} {kconfig : Str} {firmware : Bytes} :
    Flashes unit Unrestorable
      (flashUartKatapult sha1 options name serialDevice kconfig firmware) := by
  refine .bind report_flashes fun _ => ?_
  refine .bind flashCall_flashes fun _ => ?_
  refine .bind (makes_check fun _ => rfl) fun _ => ?_
  refine .bind (openSerialWhenReady_flashes fun _ => rfl) fun _ => ?_
  refine .bind ((makes_adapt _ _).2 (overTransport_flashes fun _ => rfl)) fun _ => ?_
  refine .bind report_flashes fun _ => ?_
  refine .bind report_flashes fun _ => ?_
  exact (makes_adapt _ _).2 (overTransport_flashes fun _ => rfl)

theorem flashSerialSystem_flashes {device : Path} {kconfig : Str} {firmware : Bytes} :
    Flashes unit Unrestorable (flashSerialSystem sha1 options name device kconfig firmware) := by
  refine .bind flashCall_flashes fun uart => ?_
  simp only [makes_ite]
  refine ⟨fun _ => flashUartKatapult_flashes, fun _ => ?_⟩
  refine .bind report_flashes fun _ => ?_
  refine .bind ((makes_adapt _ _).2 ?_) fun _ => flashObservedUsb_flashes
  exact requestAndObserveAnyUsbBootloader_flashes fun _ => rfl

theorem flashCanNode_flashes {uuid : ℕ} {firmware : Bytes} {start : Option UInt32} :
    Flashes unit Unrestorable (flashCanNode sha1 name uuid firmware start) := by
  have hconnect : Flashes unit (fun e => Unrestorable (.can e)) (connectCan uuid) :=
    .bind flashCall_flashes fun _ => .bind (makes_check fun _ => rfl) fun _ => makes_pure _
  refine .bind ((makes_adapt _ _).2 hconnect) fun adapter => ?_
  refine .bind report_flashes fun _ => ?_
  refine .bind report_flashes fun _ => ?_
  exact (makes_adapt _ _).2 (overTransport_flashes fun _ => rfl)

theorem flashCanSystem_flashes {interface : Str} {uuid : ℕ} {kconfig : Str} {firmware : Bytes} :
    Flashes unit Unrestorable
      (flashCanSystem sha1 options name interface uuid kconfig firmware) := by
  refine .bind report_flashes fun _ => ?_
  simp only [makes_ite]
  constructor
  · intro _
    refine .bind flashCall_flashes fun _ => ?_
    refine .bind (makes_check fun _ => rfl) fun usbPath => ?_
    refine .bind flashCall_flashes fun initial => ?_
    refine .bind flashCall_flashes fun _ => ?_
    refine .bind (makes_check fun _ => rfl) fun _ => ?_
    refine .bind ((makes_adapt _ _).2 (requestCanBootloader_flashes fun _ => rfl)) fun _ => ?_
    refine .bind ((makes_adapt _ _).2 ?_) fun _ => flashObservedUsb_flashes
    exact observeAnyUsbBootloaderAtPath_flashes fun _ => rfl
  · intro _
    refine .bind flashCall_flashes fun _ => ?_
    refine .bind (makes_check fun _ => rfl) fun _ => ?_
    refine .bind ((makes_adapt _ _).2 (requestCanBootloader_flashes fun _ => rfl)) fun _ => ?_
    exact flashCanNode_flashes

theorem flashPrebuiltCan_flashes {interface : Str} {uuid : ℕ} {firmware : Bytes}
    {start : UInt32} : Flashes unit Unrestorable
      (flashPrebuiltCan sha1 name interface uuid firmware start) := by
  refine .bind report_flashes fun _ => ?_
  refine .bind flashCall_flashes fun _ => ?_
  refine .bind (makes_check fun _ => rfl) fun _ => ?_
  refine .bind ((makes_adapt _ _).2 (requestCanBootloader_flashes fun _ => rfl)) fun _ => ?_
  exact flashCanNode_flashes

theorem flashPrebuiltUsb_flashes {device : Path} {firmware : Bytes} {start : UInt32} :
    Flashes unit Unrestorable (flashPrebuiltUsb sha1 options name device firmware start) := by
  refine .bind report_flashes fun _ => ?_
  refine .bind ((makes_adapt _ _).2
    (requestAndObserveAnyUsbBootloader_flashes fun _ => rfl)) fun _ => ?_
  refine .bind report_flashes fun _ => ?_
  exact .bind katapultRoute_flashes fun _ => flashKatapultSerial_flashes

theorem flashBeaconUsb_flashes {V : Type} {device : Path} {image : Beacon.FirmwareImage V} :
    Flashes unit Unrestorable (flashBeaconUsb options name device image) := by
  refine .bind report_flashes fun _ => ?_
  refine .bind ((makes_adapt _ _).2
    (requestAndObserveBeaconBootloader_flashes fun _ => rfl)) fun bootloader => ?_
  refine .bind report_flashes fun _ => ?_
  unfold flashBeaconBootloader
  simp only [makes_ite, makes_throw_bind]
  refine ⟨fun _ => rfl, fun _ => ?_⟩
  refine .bind waitForUsbDeviceAccess_flashes fun _ => ?_
  refine .bind report_flashes fun _ => ?_
  exact .bind flashCall_flashes fun _ => makes_check fun _ => rfl

end Flash

section Unrequested

/-- An attempt that asks no MCU to enter its bootloader. -/
abbrev Spares (unit : KlipperUnit) (x : HostAttempt ε α) : Prop :=
  Also (fun call => act unit call = .flash ∧ entersBootloader call = false) (fun _ => True) x

theorem usbSerialDevice_spares {transport : McuTransport} {route : PrebuiltRoute} :
    Spares unit (usbSerialDevice transport route) := by
  cases transport with
  | can interface uuid => exact True.intro
  | serial device =>
      refine .bind (makes_flashCall.2 (.inr ⟨rfl, rfl⟩)) fun _ => ?_
      simp only [makes_ite, makes_pure, makes_throw, implies_true, and_self]

theorem act_sudo {arguments : List Str} {stdin : Option Bytes}
    (h : ∀ action ∈ (["is-active", "stop", "start"] : List Str),
      BuildCommand.sudo arguments stdin ≠ systemctl action unit) :
    act unit (.run .service (.sudo arguments stdin)) = .flash := by
  simp only [act, h "is-active" (by simp), h "stop" (by simp), h "start" (by simp), if_false]

theorem install_spares {arch : TargetArch} {unitFile : Path} {firmware : Bytes} :
    Spares unit (HostMcuInstaller.install arch unitFile firmware) := by
  have hstep : ∀ {step command}, act unit (.run .service command) = .flash →
      Spares unit (HostMcuInstaller.step step command) := by
    intro step command hact
    refine .bind (makes_run.2 (.inr ⟨hact, rfl⟩)) fun _ => ?_
    refine .bind (makes_check fun _ => True.intro) fun output => ?_
    simp only [makes_ite, makes_pure, makes_throw, implies_true, and_self]
  have hinstall : act unit (.run .service (.sudo INSTALL_COMMAND (some firmware))) = .flash := by
    refine act_sudo fun action _ h => ?_
    cases congrArg BuildCommand.stdin h
  have hsync : act unit (.run .service syncCommand) = .flash := by
    have hne : ∀ action, syncCommand ≠ systemctl action unit := by
      intro action h
      cases congrArg BuildCommand.arguments h
    simp only [act, hne, if_false]
  have hrestart : act unit (.run .service (.sudo RESTART_COMMAND none)) = .flash := by
    refine act_sudo fun action hmem h => ?_
    have harguments := congrArg BuildCommand.arguments h
    simp only [systemctl, BuildCommand.sudo, RESTART_COMMAND, List.cons.injEq] at harguments
    obtain ⟨-, -, rfl, -⟩ := harguments
    exact absurd hmem (by decide)
  unfold HostMcuInstaller.install
  simp only [makes_ite, makes_throw_bind, implies_true, true_and]
  intro _
  refine .bind (by simp) fun present => ?_
  simp only [makes_ite, makes_throw_bind, implies_true, true_and]
  intro _
  refine .bind (hstep hinstall) fun _ => ?_
  refine .bind (hstep hsync) fun _ => ?_
  exact .bind (hstep hrestart) fun _ => makes_pure _

end Unrequested

end Aldis.UpdateRun

import Aldis.FlashCommand.Checks

/-!
# The parts of a flash

Stopping Klipper, and the backend that flashes: which calls each makes, and that a backend that
has asked the MCU to enter its bootloader fails with no error that allows Klipper's restore.
-/

namespace Aldis.Cli

open Interaction World Attempt UpdateRun Text Octets

variable {ε α : Type} {unit : KlipperUnit}

def halts (unit : KlipperUnit) (call : CliCall) : Prop :=
  call = .host (.run .service (systemctl "is-active" unit)) ∨
    call = .host (.run .service (systemctl "stop" unit))

abbrev Works (unit : KlipperUnit) (call : CliCall) : Prop := Calm call ∨ flashes unit call = true

/-- An attempt that flashes, and fails only within `R`. -/
abbrev Flashing (unit : KlipperUnit) (R : ε → Prop) (x : CliAttempt ε α) : Prop :=
  Makes (Works unit) R x

/-- An error after which Klipper is not restored. -/
abbrev Stranded (error : FileFlashError) : Prop := error.allowsKlipperRestore = false

abbrev Unasked (call : CliCall) : Prop := requests call = false

section Backend

variable {R : ε → Prop}

theorem flashing_asHost {x : HostAttempt ε α} (hx : Flashes unit R x) :
    Flashing unit R (asHost flashHooks x) := by
  refine makes_asHost flashHooks_terminal hx (fun _ => .inl rfl) fun call hcall _ => ?_
  rcases hcall with hs | hf
  · exact .inl (calm_of_silent hs)
  · exact .inr (decide_eq_true hf)

theorem flashing_system {x : HostAttempt SystemFlashError α} (hx : Flashes unit Unrestorable x) :
    Flashing unit (fun error => Stranded (.file error)) (system flashHooks x) :=
  (makes_adapt _ _).2 (flashing_asHost hx)

/-- What spares the MCU asks for no bootloader on the command line either. -/
theorem onHost_unasked {call : HostCall}
    (h : silent call = true ∨ act unit call = .flash ∧ entersBootloader call = false) :
    (confined CliAnswer Unasked).Ensures (onHost flashHooks call) () fun _ _ => True := by
  refine onHost_confined flashHooks_terminal (K := fun call => silent call = true ∨
    act unit call = .flash ∧ entersBootloader call = false) (fun _ => rfl) ?_ h
  rintro call (hs | hf) _
  · cases call with
    | flash call => cases hs
    | _ => rfl
  · exact hf.2

theorem unasked_asHost {x : HostAttempt ε α} (hx : Spares unit x) :
    Makes Unasked (fun _ => True) (asHost flashHooks x) :=
  hx.handle fun _ hcall => onHost_unasked hcall

theorem flashing_of_spares {x : HostAttempt ε α} (hx : Spares unit x) :
    Flashes unit (fun _ => True) x :=
  hx.mono (fun _ hc => hc.imp id And.left) fun _ _ => True.intro

theorem onTarget_flashing {call : TargetCall} :
    (confined CliAnswer (Works unit)).Ensures (onTarget flashHooks call) () fun _ _ => True := by
  cases call with
  | waitForAccess sysfsPath =>
      exact (flashing_asHost waitForUsbDeviceAccess_flashes).only
  | probeApplicationStart sysfsPath =>
      exact (ensures_confined_call _ _ _ _ _).2 ⟨.inr rfl, fun _ => True.intro⟩
  | leaveSystem sysfsPath applicationStart =>
      exact (ensures_confined_call _ _ _ _ _).2 ⟨.inr rfl, fun _ => True.intro⟩

theorem placeFirmwareFile_errors {sysfsPath : Path} {kconfig : Str} {firmware : Bytes}
    {force : Bool} {firmwareOffset : UInt32} {installed : Option UInt32} :
    Makes (fun _ => True) (fun error => Stranded (.file error))
      (placeFirmwareFile sysfsPath kconfig firmware force firmwareOffset installed) := by
  unfold placeFirmwareFile
  dsimp only
  split
  · exact makes_pure _
  · split
    · exact makes_pure _
    · rw [makes_ite]
      refine ⟨fun _ => .bind ((makes_perform _).2 True.intro) fun answer => ?_,
        fun _ => makes_pure _⟩
      cases answer with
      | ok u => exact .bind (makes_pure _) fun _ => (makes_throw _).2 rfl
      | error e => exact rfl

theorem probeTarget_errors {sysfsPath : Path} {kconfig : Str} {firmware : Bytes} {force : Bool}
    {firmwareOffset : UInt32} : Makes (fun _ => True) (fun error => Stranded (.file error))
      (do
        let probe ← Aldis.accept (← Attempt.perform (TargetCall.probeApplicationStart sysfsPath))
          .stm32Probe
        let installed ← Aldis.accept (installedApplicationStart probe force)
          fun candidates => .stm32AmbiguousApplication candidates firmwareOffset
        placeFirmwareFile sysfsPath kconfig firmware force firmwareOffset installed) := by
  refine .bind ((makes_perform _).2 True.intro) fun answer => ?_
  cases answer with
  | error e => exact rfl
  | ok probe =>
      refine .bind (makes_pure _) fun probe => ?_
      cases installedApplicationStart probe force with
      | error candidates => exact rfl
      | ok installed => exact .bind (makes_pure _) fun _ => placeFirmwareFile_errors

/-- A file's target is decided on the device that is flashed. -/
theorem resolveTarget_flashing {sysfsPath : Path} {kconfig : Str} {firmware : Bytes}
    {force : Bool} : Flashing unit (fun error => Stranded (.file error))
      ((resolveStm32FirmwareFileTarget sysfsPath kconfig firmware force).handle
        (onTarget flashHooks)) := by
  unfold resolveStm32FirmwareFileTarget
  cases expectedApplicationStart firmware with
  | none => exact rfl
  | some firmwareOffset =>
      have haccess : (confined CliAnswer (Works unit)).Ensures
          (onTarget flashHooks (.waitForAccess sysfsPath)) ()
          (Outcome (fun _ _ => True) fun e _ => Unrestorable e) :=
        flashing_asHost waitForUsbDeviceAccess_flashes
      refine haccess.bind fun answer _ hanswer => ?_
      cases answer with
      | error e => exact hanswer
      | ok u => exact probeTarget_errors.handle fun _ _ => onTarget_flashing

theorem resolveFileRoute_flashing {observed : ObservedUsbBootloader} {kconfig transport : Str}
    {firmware : Bytes} {force : Bool} : Flashing unit (fun error => Stranded (.file error))
      (resolveFileRoute flashHooks observed kconfig transport firmware force) := by
  refine .bind (flashing_system selectObserved_flashes) fun selected => ?_
  cases selected with
  | katapult sysfsPath serialDevice => exact makes_pure _
  | stm32Dfu sysfsPath => exact .bind resolveTarget_flashing fun _ => makes_pure _
  | picoBoot sysfsPath => exact makes_pure _
  | samBa sysfsPath serialDevice => exact .bind (makes_accept fun _ => rfl) fun _ => makes_pure _

variable {sha1 : Bytes → Bytes} {options : SystemFlashOptions} {name : Str}

theorem flashFileUsb_flashing {device : Path} {kconfig : Str} {firmware : Bytes} {force : Bool} :
    Flashing unit (fun error => Stranded (.file error))
      (flashFileUsb flashHooks sha1 options name device kconfig firmware force) := by
  refine .bind (flashing_system report_flashes) fun _ => ?_
  refine .bind (flashing_system ((makes_adapt _ _).2
    (requestAndObserveAnyUsbBootloader_flashes fun _ => rfl))) fun observed => ?_
  refine .bind (flashing_system report_flashes) fun _ => ?_
  refine .bind resolveFileRoute_flashing fun route => ?_
  exact flashing_system dispatchSerialRoute_flashes

theorem flashFileSerial_flashing {device : Path} {kconfig : Str} {firmware : Bytes}
    {force : Bool} : Flashing unit (fun error => Stranded (.file error))
      (flashFileSerial flashHooks sha1 options name device kconfig firmware force) := by
  refine .bind (flashing_system flashCall_flashes) fun uart => ?_
  rw [makes_ite]
  exact ⟨fun _ => flashing_system flashUartKatapult_flashes, fun _ => flashFileUsb_flashing⟩

theorem installLinuxHost_spares {arch : TargetArch} {firmware : Bytes} :
    Spares unit (installLinuxHost options name arch firmware) :=
  .bind (makes_hook.2 (.inl rfl)) fun _ => (makes_adapt _ _).2 install_spares

end Backend

/-- A backend: it flashes, and an error that allows Klipper's restore came before the MCU was
asked to enter its bootloader. -/
structure Backend (unit : KlipperUnit) (flash : CliAttempt FileFlashError FlashResult) : Prop where
  works : Makes (Works unit) (fun _ => True) flash
  fails : FailsWithin Unasked Stranded flash

theorem Backend.of_flashing {flash : CliAttempt FileFlashError FlashResult}
    (h : Flashing unit Stranded flash) : Backend unit flash :=
  ⟨h.mono (fun _ hc => hc) fun _ _ => True.intro, h.failsWithin_errors⟩

section Selected

variable {sha1 : Bytes → Bytes} {options : SystemFlashOptions} {name : Str}

theorem flashPreparedFirmwareFile_backend {arch : TargetArch} {prepared : PreparedBuild}
    {firmware : Bytes} {force : Bool} : Backend unit (ExceptT.adapt .file
      (flashPreparedFirmwareFile flashHooks sha1 options name arch prepared firmware force)) := by
  unfold flashPreparedFirmwareFile
  dsimp only
  split
  · have hspares : Spares unit (installLinuxHost options name arch firmware) :=
      installLinuxHost_spares
    refine ⟨(makes_adapt _ _).2 ?_, .adapt (.adapt ?_)⟩
    · exact (makes_adapt _ _).2 (flashing_asHost (flashing_of_spares hspares))
    · exact (unasked_asHost hspares).failsWithin
  · split
    · exact .of_flashing rfl
    · exact .of_flashing ((makes_adapt _ _).2 flashFileSerial_flashing)
    · exact .of_flashing ((makes_adapt _ _).2 (flashing_system flashCanSystem_flashes))

theorem backend_of_flashes {x : HostAttempt SystemFlashError FlashResult}
    (hx : Flashes unit Unrestorable x) : Backend unit
      (ExceptT.adapt (fun error => .coordinator (.flash error)) (asHost flashHooks x)) :=
  .of_flashing ((makes_adapt _ _).2 (flashing_asHost hx))

/-- A link is refused before anything is asked of the MCU on it. -/
theorem backend_of_link {transport : McuTransport} {route : PrebuiltRoute}
    {f : Path → HostAttempt SystemFlashError FlashResult}
    (hf : ∀ device, Flashes unit Unrestorable (f device)) : Backend unit
      (ExceptT.adapt (fun error => .coordinator (.flash error))
        (asHost flashHooks (usbSerialDevice transport route >>= f))) := by
  have hworks : Flashes unit (fun _ => True) (usbSerialDevice transport route >>= f) :=
    .bind (flashing_of_spares usbSerialDevice_spares) fun device =>
      (hf device).mono (fun _ hc => hc) fun _ _ => True.intro
  refine ⟨(makes_adapt _ _).2 (flashing_asHost hworks), .adapt ?_⟩
  refine FailsWithin.handle (FailsWithin.bind usbSerialDevice_spares fun device => ?_)
    fun _ hcall => onHost_unasked (hcall : _ ∨ act unit _ = .flash ∧ _)
  exact (hf device).failsWithin_errors

variable {V : Type}

/-- Prebuilt firmware is sent as its request says. -/
theorem flashByProtocol_backend {prepared : PreparedBuild} {protocol : Protocol V} :
    Backend unit (ExceptT.adapt (fun error => .coordinator (.flash error))
      (asHost flashHooks
        (BuildCoordinator.flashByProtocol sha1 options name prepared protocol))) := by
  cases protocol with
  | katapult image start links =>
      change Backend unit (ExceptT.adapt _ (asHost flashHooks
        (flashPrebuiltKatapult sha1 options name prepared image start links)))
      unfold flashPrebuiltKatapult
      rcases prepared.transport with _ | device | ⟨interface, uuid⟩
      · cases links <;> exact backend_of_flashes rfl
      · cases links with
        | usbOnly => exact backend_of_link fun _ => flashPrebuiltUsb_flashes
        | usbOrCan => exact backend_of_link fun _ => flashPrebuiltUsb_flashes
      · cases links with
        | usbOnly => exact backend_of_link fun _ => flashPrebuiltUsb_flashes
        | usbOrCan => exact backend_of_flashes flashPrebuiltCan_flashes
  | beaconDfu image =>
      change Backend unit (ExceptT.adapt _ (asHost flashHooks
        (flashBeacon options name prepared image)))
      unfold flashBeacon
      cases prepared.transport with
      | none => exact backend_of_flashes rfl
      | some transport => exact backend_of_link fun _ => flashBeaconUsb_flashes

variable {arguments : FlashArgs} {ready : ReadyFlash V}

/-- Whatever is flashed, Klipper is stopped first; a request for another MCU does nothing. -/
theorem flashSelected_cases (arguments : FlashArgs) (ready : ReadyFlash V) :
    (∃ error : CoordinatorError,
      flashSelected arguments ready = .pure (none, .error (.coordinator (.coordinator error)))) ∨
    ∃ flash, Backend ready.coordinator.unit flash ∧
      flashSelected arguments ready = stopThen ready flash := by
  unfold flashSelected
  cases ready.prebuilt with
  | none => exact .inr ⟨_, flashPreparedFirmwareFile_backend, rfl⟩
  | some request =>
      dsimp only
      unfold BuildCoordinator.flashPrebuilt
      dsimp only
      split
      · exact .inl ⟨_, rfl⟩
      · have hbackend : Backend ready.coordinator.unit
            (ExceptT.adapt (fun error => .coordinator (.flash error)) (asHost flashHooks
              (BuildCoordinator.flashByProtocol arguments.sha1 standardFlashOptions ready.target
                ready.pending.approve.pending.prepared request.protocol))) :=
          flashByProtocol_backend
        refine .inr ⟨_, hbackend, ?_⟩
        unfold Observed.andThen Observed.adapt stopThen
        simp only [Program.handle_bind, bind_assoc]
        refine bind_congr fun stopped => ?_
        obtain ⟨first, error | u⟩ := stopped
        · rfl
        · change (Program.handle (onHost flashHooks) ((_ >>= fun r => Program.pure _) >>= _)
            >>= _) = (_ >>= fun r => Program.pure _) >>= _
          simp only [Program.handle_bind, bind_assoc]
          refine bind_congr fun flashed => ?_
          cases flashed with
          | ok result => rfl
          | error error => rfl

end Selected


end Aldis.Cli

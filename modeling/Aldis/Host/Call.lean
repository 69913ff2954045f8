import Aldis.Coordinator.Error
import Aldis.Lib.Calls

/-!
# What a run asks of its surroundings

One set of calls for everything outside a run: its caller's hooks, commands, Moonraker, files,
downloads, the clock, and the devices that are flashed. Nothing is assumed of the answers.
-/

namespace Aldis

open Interaction Text Octets

inductive SystemFlashProgress where
  | enteringBootloader
  | bootloaderReady
  | flashing
  | installing
  deriving DecidableEq

inductive UpdateProgress where
  | stoppingKlipper
  | downloadingFirmware
  | firmwareDownloaded
  | readingFirmware
  | firmwareRead
  | configuringFirmware
  | compilingFirmware
  | enteringBootloader
  | bootloaderReady
  | startingFlash
  | installing
  deriving DecidableEq

def updateProgress : SystemFlashProgress → UpdateProgress
  | .enteringBootloader => .enteringBootloader
  | .bootloaderReady => .bootloaderReady
  | .flashing => .startingFlash
  | .installing => .installing

def buildProgress : BuildProgress → UpdateProgress
  | .configuring => .configuringFirmware
  | .compiling => .compilingFirmware

/-- A labelled step after a flash. -/
inductive RunStep where
  | waitForApplication
  | startKlipper
  | reconnect
  deriving DecidableEq

inductive HookCall where
  | approve (name current next : Str)
  | progress (name : Str) (progress : UpdateProgress)
  | flashed (name kconfig : Str) (paddedBytes : ℕ)
  | stepStarted (step : RunStep)
  | stepSucceeded (step : RunStep)
  | failed (message : Str)
  deriving DecidableEq

abbrev HookAnswer : HookCall → Type
  | .approve _ _ _ => Bool
  | _ => Unit

/-- The fields of an MCU's data dictionary that an inventory entry is made from. -/
structure IdentifyData where
  app : Option Str
  version : Str
  mcu : Str
  canbusFrequencyHz : Option ℕ
  buildVersions : Option Str
  kconfig : Str
  deriving DecidableEq

/-- Whether an MCU's port could not be opened, or it could not be identified over it. -/
inductive IdentifyError where
  | portUnavailable
  | unidentified
  deriving DecidableEq

inductive McuCall where
  | hostInfo
  | printState
  | discoverMcus
  | identify (device : Str)
  deriving DecidableEq

abbrev McuAnswer : McuCall → Type
  | .hostInfo => Except Cause HostInfo
  | .printState => Except Cause PrintState
  | .discoverMcus => Except Cause McuInventory
  | .identify _ => Except IdentifyError IdentifyData

inductive FileCall where
  | createDirAll (path : Path)
  | write (path : Path) (content : Bytes)
  | readToString (path : Path)
  | read (path : Path)
  | removeFile (path : Path)
  | copy (source destination : Path)
  | fileLength (path : Path)
  | pathExists (path : Path)
  deriving DecidableEq

abbrev FileAnswer : FileCall → Type
  | .readToString _ => Except IoError Str
  | .read _ => Except IoError Bytes
  | .fileLength _ => Except IoError ℕ
  | .pathExists _ => Bool
  | _ => Except IoError Unit

inductive FlashCall where
  | isTtyWithoutUsbDevice (device : Path)
  | usbDevicePath (device : Path)
  | usbIdentity (usbPath : Path)
  | usbTty (usbPath : Path)
  | usbTopologySnapshot (usbPath : Path)
  | usbDevicePathForCanInterface (interface : Str)
  | beaconBootloaderAt (usbPath : Path)
  | requestUsbBootloader (device : Path)
  | requestSerialBootloader (device : Path) (baudRate : ℕ)
  | requestCanBootloader (uuid : ℕ)
  | assignNode (uuid : ℕ)
  | openSerial (device : Path) (baudRate : ℕ)
  | openSambaPort (device : Path)
  | openCan (interface : Str)
  | usbDeviceNode (sysfsPath : Path)
  | openUsbDevice (deviceNode : Path)
  | exchange (request : Bytes)
  | sambaPort (call : Samba.PortCall)
  | stm32Dfu (sysfsPath : Path) (applicationStart : UInt32) (firmware : Bytes)
  | picoBoot (sysfsPath : Path) (firmware : Bytes)
  | beaconDfu (bootloader : Beacon.ObservedBootloader) (payload : Bytes)
  deriving DecidableEq

/-- A failed exchange shows what its transport's error prints with `{:?}`. -/
abbrev FlashAnswer : FlashCall → Type
  | .isTtyWithoutUsbDevice _ => Bool
  | .usbDevicePath _ => Option Path
  | .usbIdentity _ => UsbIdentity
  | .usbTty _ => Option Path
  | .usbTopologySnapshot _ => UsbTopologySnapshot
  | .usbDevicePathForCanInterface _ => Except Cause Path
  | .beaconBootloaderAt _ => Option Beacon.ObservedBootloader
  | .usbDeviceNode _ => Except Cause Path
  | .exchange _ => Except Str Bytes
  | .sambaPort call => Samba.PortAnswer call
  | .stm32Dfu _ _ _ => Except Cause FlashResult
  | .picoBoot _ _ => Except Cause FlashResult
  | .beaconDfu _ _ => Except Cause FlashResult
  | _ => Except Cause Unit

instance : Katapult.Debug Str := ⟨id⟩

/-- The request that a running firmware enter its bootloader, over whichever link. -/
def FlashCall.entersBootloader : FlashCall → Bool
  | requestUsbBootloader _ | requestSerialBootloader _ _ | requestCanBootloader _ => true
  | _ => false

/-- `flashFailed` is the debug event of that name, and `attempts` how often an operation that
keeps failing is repeated before its deadline. -/
inductive HostCall where
  | hook (call : HookCall)
  | run (runner : Runner) (command : BuildCommand)
  | mcu (call : McuCall)
  | file (call : FileCall)
  | flash (call : FlashCall)
  | downloadText (tag name : Str)
  | downloadBytes (tag name : Str)
  | attempts (timeout pollInterval : ℕ)
  | parallelJobs
  | flashFailed (error : FlashCoordinatorError)
  deriving DecidableEq

abbrev HostAnswer : HostCall → Type
  | .hook call => HookAnswer call
  | .run _ _ => Except CommandError CommandOutput
  | .mcu call => McuAnswer call
  | .file call => FileAnswer call
  | .flash call => FlashAnswer call
  | .downloadText _ _ => Except Cause Str
  | .downloadBytes _ _ => Except Cause Bytes
  | .attempts _ _ => ℕ
  | .parallelJobs => ℕ+
  | .flashFailed _ => Unit

abbrev Event := Sigma HostAnswer

abbrev HostProgram := Program HostAnswer

abbrev HostAttempt := Attempt HostAnswer

section Calls

variable {ε : Type}

def hook (call : HookCall) : HostAttempt ε (HookAnswer call) := Attempt.perform (HostCall.hook call)

def run (runner : Runner) (command : BuildCommand) :
    HostAttempt ε (Except CommandError CommandOutput) :=
  Attempt.perform (HostCall.run runner command)

def mcuCall (call : McuCall) : HostAttempt ε (McuAnswer call) := Attempt.perform (HostCall.mcu call)

def fileCall (call : FileCall) : HostAttempt ε (FileAnswer call) :=
  Attempt.perform (HostCall.file call)

def flashCall (call : FlashCall) : HostAttempt ε (FlashAnswer call) :=
  Attempt.perform (HostCall.flash call)

def check {α ε' : Type} (answer : Except ε' α) (wrap : ε' → ε) : HostAttempt ε α :=
  Attempt.ofExcept (answer.mapError wrap)

def require {α : Type} (value : Option α) (error : ε) : HostAttempt ε α :=
  match value with
  | some a => pure a
  | none => throw error

def retryUntilAvailable {α : Type} (timeout pollInterval : ℕ) (x : HostAttempt ε α) :
    HostAttempt ε α := do
  let n ← Attempt.perform (HostCall.attempts timeout pollInterval)
  x.retry n

end Calls

def idleHost : (call : HostCall) → HostAnswer call
  | .hook (.approve _ _ _) => true
  | .hook (.progress _ _) | .hook (.flashed _ _ _) | .hook (.stepStarted _)
  | .hook (.stepSucceeded _) | .hook (.failed _) => ()
  | .run _ _ => .ok ⟨true, [], []⟩
  | .mcu .hostInfo => .ok ⟨.ready, [], none, none, none⟩
  | .mcu .printState => .ok .standby
  | .mcu .discoverMcus => .ok ⟨[], []⟩
  | .mcu (.identify _) => .error .unidentified
  | .file (.readToString _) | .file (.read _) => .ok []
  | .file (.fileLength _) => .ok 0
  | .file (.pathExists _) => true
  | .file (.createDirAll _) | .file (.write _ _) | .file (.removeFile _) | .file (.copy _ _) =>
    .ok ()
  | .flash (.isTtyWithoutUsbDevice _) => false
  | .flash (.usbDevicePath _) | .flash (.usbTty _) | .flash (.beaconBootloaderAt _) => none
  | .flash (.usbIdentity _) => ⟨[], []⟩
  | .flash (.usbTopologySnapshot _) => ⟨[], [], [], [], []⟩
  | .flash (.usbDevicePathForCanInterface _) | .flash (.usbDeviceNode _) => .ok []
  | .flash (.requestUsbBootloader _) | .flash (.requestSerialBootloader _ _)
  | .flash (.requestCanBootloader _) | .flash (.assignNode _) | .flash (.openSerial _ _)
  | .flash (.openSambaPort _) | .flash (.openCan _) | .flash (.openUsbDevice _) => .ok ()
  | .flash (.exchange _) => .error []
  | .flash (.sambaPort _) => .error .timedOut
  | .flash (.stm32Dfu _ _ _) | .flash (.picoBoot _ _) | .flash (.beaconDfu _ _) => .ok ⟨none, 0⟩
  | .downloadText _ _ | .downloadBytes _ _ => .ok []
  | .attempts _ _ => 0
  | .parallelJobs => 1
  | .flashFailed _ => ()

section Rules

variable {ε α S : Type} {W : World HostAnswer S} {s : S}

@[simp] theorem ensuresOr_hook {call : HookCall} {Q : HookAnswer call → S → Prop}
    {R : ε → S → Prop} : World.EnsuresOr (α := no_index (HookAnswer call)) W (hook call) s Q R ↔
      W.permits s (.hook call) ∧ ∀ r s', W.step s (.hook call) r s' → Q r s' := Iff.rfl

@[simp] theorem ensuresOr_run {runner : Runner} {command : BuildCommand}
    {Q : Except CommandError CommandOutput → S → Prop} {R : ε → S → Prop} :
    W.EnsuresOr (run runner command) s Q R ↔ W.permits s (.run runner command) ∧
      ∀ r s', W.step s (.run runner command) r s' → Q r s' := Iff.rfl

@[simp] theorem ensuresOr_mcuCall {call : McuCall} {Q : McuAnswer call → S → Prop}
    {R : ε → S → Prop} : World.EnsuresOr (α := no_index (McuAnswer call)) W (mcuCall call) s Q R ↔
      W.permits s (.mcu call) ∧ ∀ r s', W.step s (.mcu call) r s' → Q r s' := Iff.rfl

@[simp] theorem ensuresOr_fileCall {call : FileCall} {Q : FileAnswer call → S → Prop}
    {R : ε → S → Prop} : World.EnsuresOr (α := no_index (FileAnswer call)) W (fileCall call) s Q R ↔
      W.permits s (.file call) ∧ ∀ r s', W.step s (.file call) r s' → Q r s' := Iff.rfl

@[simp] theorem ensuresOr_flashCall {call : FlashCall} {Q : FlashAnswer call → S → Prop}
    {R : ε → S → Prop} :
    World.EnsuresOr (α := no_index (FlashAnswer call)) W (flashCall call) s Q R ↔
      W.permits s (.flash call) ∧ ∀ r s', W.step s (.flash call) r s' → Q r s' := Iff.rfl

@[simp] theorem ensuresOr_check {ε' : Type} {answer : Except ε' α} {wrap : ε' → ε}
    {Q : α → S → Prop} {R : ε → S → Prop} : W.EnsuresOr (check answer wrap) s Q R ↔
      (∀ a, answer = .ok a → Q a s) ∧ ∀ e, answer = .error e → R (wrap e) s := by
  cases answer with
  | ok a => exact ⟨fun h => ⟨fun _ he => Except.ok.inj he ▸ h, nofun⟩, fun h => h.1 a rfl⟩
  | error e => exact ⟨fun h => ⟨nofun, fun _ he => Except.error.inj he ▸ h⟩, fun h => h.2 e rfl⟩

@[simp] theorem ensuresOr_require {value : Option α} {error : ε} {Q : α → S → Prop}
    {R : ε → S → Prop} : W.EnsuresOr (require value error) s Q R ↔
      (∀ a, value = some a → Q a s) ∧ (value = none → R error s) := by
  cases value with
  | none => exact ⟨fun h => ⟨nofun, fun _ => h⟩, fun h => h.2 rfl⟩
  | some a => exact ⟨fun h => ⟨fun _ he => Option.some.inj he ▸ h, nofun⟩, fun h => h.1 a rfl⟩

end Rules

section Makes

open Attempt

variable {ε α : Type} {P : HostCall → Prop} {T : ε → Prop}

@[simp] theorem makes_hook {call : HookCall} :
    Makes (α := no_index (HookAnswer call)) P T (hook call) ↔ P (.hook call) :=
  makes_perform (HostCall.hook call)

@[simp] theorem makes_run {runner : Runner} {command : BuildCommand} :
    Makes P T (run runner command) ↔ P (.run runner command) :=
  makes_perform (HostCall.run runner command)

@[simp] theorem makes_mcuCall {call : McuCall} :
    Makes (α := no_index (McuAnswer call)) P T (mcuCall call) ↔ P (.mcu call) :=
  makes_perform (HostCall.mcu call)

@[simp] theorem makes_fileCall {call : FileCall} :
    Makes (α := no_index (FileAnswer call)) P T (fileCall call) ↔ P (.file call) :=
  makes_perform (HostCall.file call)

@[simp] theorem makes_flashCall {call : FlashCall} :
    Makes (α := no_index (FlashAnswer call)) P T (flashCall call) ↔ P (.flash call) :=
  makes_perform (HostCall.flash call)

theorem makes_check {ε' : Type} {answer : Except ε' α} {wrap : ε' → ε} (h : ∀ e, T (wrap e)) :
    Makes P T (check answer wrap) := by
  cases answer with
  | ok a => exact True.intro
  | error e => exact h e

theorem makes_require {value : Option α} {error : ε} (h : T error) :
    Makes P T (require value error) := by
  cases value with
  | none => exact h
  | some a => exact True.intro

@[simp] theorem makes_retryUntilAvailable {timeout pollInterval : ℕ} {x : HostAttempt ε α} :
    Makes P T (retryUntilAvailable timeout pollInterval x) ↔
      P (.attempts timeout pollInterval) ∧ Makes P T x := by
  unfold retryUntilAvailable Makes
  rw [World.ensuresOr_bind, World.ensuresOr_confined_perform]
  exact and_congr_right fun _ => makes_retry

end Makes
end Aldis
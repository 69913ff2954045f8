import Aldis.Flash.System

/-!
# Where an explicit STM32 file is written

An explicit file comes with no configuration of its own. Where it belongs is judged from its
vector table, from the application the device already holds, and from the MCU's Kconfig.
-/

namespace Aldis

open Interaction Text Octets Stm32

inductive ApplicationProbeResult where
  | found (applicationStart : UInt32)
  | notFound
  | ambiguous (candidates : List UInt32)
  deriving DecidableEq

/-- The largest candidate start at or below an image's reset vector. -/
def expectedApplicationStart (firmware : Bytes) : Option UInt32 :=
  if firmware.length < 8 then none
  else
    let resetVector := fromLe32 ((firmware.drop 4).take 4)
    if isPlausibleVectorTable (fromLe32 (firmware.take 4)) resetVector then
      (candidateApplicationStarts.filter (· ≤ resetVector)).max?
    else none

/-- The plausible start the device has an application at, otherwise the one its Kconfig names. -/
def selectApplicationStart (plausibleStarts : List UInt32) (installed configured : Option UInt32) :
    Option UInt32 :=
  (installed.toList ++ configured.toList).find? (plausibleStarts.contains ·)

/-- The start of the application the device runs; several that look like one are refused, unless
forced. -/
def installedApplicationStart (probe : ApplicationProbeResult) (force : Bool) :
    Except (List UInt32) (Option UInt32) :=
  match probe with
  | .found applicationStart => .ok (some applicationStart)
  | .notFound => .ok none
  | .ambiguous candidates => if force then .ok none else .error candidates

inductive TargetCall where
  | waitForAccess (sysfsPath : Path)
  | probeApplicationStart (sysfsPath : Path)
  | leaveSystem (sysfsPath : Path) (applicationStart : UInt32)
  deriving DecidableEq

abbrev TargetAnswer : TargetCall → Type
  | .waitForAccess _ => Except SystemFlashError Unit
  | .probeApplicationStart _ => Except Stm32DfuError ApplicationProbeResult
  | .leaveSystem _ _ => Except Stm32DfuError Unit

inductive FirmwareFileError where
  | system (error : SystemFlashError)
  | unrecognizedFirmwareTarget
  | stm32Probe (error : Stm32DfuError)
  | stm32TargetMismatch (firmwareOffset deviceOffset : UInt32)
  | stm32MismatchRecovery (error : Stm32DfuError)
  | stm32AmbiguousApplication (candidates : List UInt32) (firmwareOffset : UInt32)
  deriving DecidableEq

abbrev TargetAttempt := Attempt TargetAnswer FirmwareFileError

def accept {ε α : Type} (answer : Except ε α) (wrap : ε → FirmwareFileError) : TargetAttempt α :=
  Attempt.ofExcept (answer.mapError wrap)

/-- The last step of `resolveStm32FirmwareFileTarget`, once it is known what the device runs. -/
def placeFirmwareFile (sysfsPath : Path) (kconfig : Str) (firmware : Bytes) (force : Bool)
    (firmwareOffset : UInt32) (installed : Option UInt32) : TargetAttempt UInt32 :=
  let configured := (stm32TargetFromKconfig kconfig).toOption
  match selectApplicationStart (plausibleApplicationStarts firmware) installed configured with
  | some applicationStart => return applicationStart
  | none => match installed with
    | none => return firmwareOffset
    | some deviceOffset =>
      if deviceOffset ≠ firmwareOffset ∧ ¬ force then do
        accept (← Attempt.perform (TargetCall.leaveSystem sysfsPath deviceOffset))
          .stm32MismatchRecovery
        throw (.stm32TargetMismatch firmwareOffset deviceOffset)
      else return firmwareOffset

def resolveStm32FirmwareFileTarget (sysfsPath : Path) (kconfig : Str) (firmware : Bytes)
    (force : Bool) : TargetAttempt UInt32 :=
  match expectedApplicationStart firmware with
  | none => throw .unrecognizedFirmwareTarget
  | some firmwareOffset => do
    accept (← Attempt.perform (TargetCall.waitForAccess sysfsPath)) .system
    let probe ← accept (← Attempt.perform (TargetCall.probeApplicationStart sysfsPath)) .stm32Probe
    let installed ← accept (installedApplicationStart probe force)
      fun candidates => .stm32AmbiguousApplication candidates firmwareOffset
    placeFirmwareFile sysfsPath kconfig firmware force firmwareOffset installed

section Selection

variable {plausibleStarts : List UInt32} {installed configured : Option UInt32} {start : UInt32}

theorem mem_of_selectApplicationStart
    (h : selectApplicationStart plausibleStarts installed configured = some start) :
    start ∈ plausibleStarts :=
  List.contains_iff_mem.1 (List.find?_some h)

theorem selectApplicationStart_eq_none_iff :
    selectApplicationStart plausibleStarts installed configured = none ↔
      (∀ start, installed = some start → start ∉ plausibleStarts) ∧
        ∀ start, configured = some start → start ∉ plausibleStarts := by
  unfold selectApplicationStart
  simp only [List.find?_eq_none, List.mem_append, Option.mem_toList, List.contains_iff_mem]
  constructor
  · intro h
    exact ⟨fun start hs => h start (.inl hs), fun start hs => h start (.inr hs)⟩
  · rintro ⟨hi, hc⟩ start (hs | hs)
    · exact hi start hs
    · exact hc start hs

end Selection

section Runs

variable {sysfsPath : Path} {kconfig : Str} {firmware : Bytes} {force : Bool}
  {tr : List (Sigma TargetAnswer)} {start : UInt32}

theorem runs_accept_bind_iff {ε α β : Type} {answer : Except ε α} {wrap : ε → FirmwareFileError}
    {f : α → TargetAttempt β} {b : β} :
    Runs (accept answer wrap >>= f).run tr (.ok b) ↔
      ∃ a, answer = .ok a ∧ Runs (f a).run tr (.ok b) := by
  cases answer with
  | error e =>
      constructor
      · intro h
        cases (runs_pure_iff.1 h).2
      · rintro ⟨a, he, -⟩
        cases he
  | ok a =>
      constructor
      · exact fun h => ⟨a, rfl, h⟩
      · rintro ⟨a', he, h⟩
        cases he
        exact h

theorem runs_return_iff {a b : UInt32} :
    Runs (Pure.pure a : TargetAttempt UInt32).run tr (.ok b) ↔ tr = [] ∧ b = a :=
  runs_pure_iff.trans (and_congr_right fun _ => by rw [Except.ok.injEq])

/-- What a file's target is once it is known what the device runs. -/
def Decided (kconfig : Str) (firmware : Bytes) (force : Bool) (firmwareOffset : UInt32)
    (installed : Option UInt32) (start : UInt32) : Prop :=
  let selected := selectApplicationStart (plausibleApplicationStarts firmware) installed
    (stm32TargetFromKconfig kconfig).toOption
  selected = some start ∨ selected = none ∧ start = firmwareOffset ∧
    (installed = none ∨ installed = some firmwareOffset ∨ force = true)

theorem runs_place_iff {firmwareOffset : UInt32} {installed : Option UInt32} :
    Runs (placeFirmwareFile sysfsPath kconfig firmware force firmwareOffset installed).run tr
        (.ok start) ↔
      tr = [] ∧ Decided kconfig firmware force firmwareOffset installed start := by
  unfold placeFirmwareFile Decided
  dsimp only
  cases hs : selectApplicationStart (plausibleApplicationStarts firmware) installed
      (stm32TargetFromKconfig kconfig).toOption with
  | some applicationStart =>
      simp only [runs_return_iff, Option.some.injEq, reduceCtorEq, false_and, or_false]
      exact and_congr_right fun _ => eq_comm
  | none =>
      cases installed with
      | none => simp only [runs_return_iff, reduceCtorEq, true_and, true_or, and_true, false_or]
      | some deviceOffset =>
          by_cases hm : deviceOffset ≠ firmwareOffset ∧ ¬ force = true
          · simp only [if_pos hm, runs_perform_bind_iff, runs_accept_bind_iff]
            constructor
            · rintro ⟨_, _, -, _, -, h⟩
              cases (runs_pure_iff.1 h).2
            · rintro ⟨-, h⟩
              simp_all
          · simp only [if_neg hm, runs_return_iff]
            rw [not_and_or, not_not, not_not] at hm
            simp only [reduceCtorEq, false_or, true_and, Option.some.injEq, hm, and_true]

/-- A run that ends with a target, and how the target was decided. -/
theorem runs_resolve_ok_iff :
    Runs (resolveStm32FirmwareFileTarget sysfsPath kconfig firmware force).run tr (.ok start) ↔
      ∃ firmwareOffset probe installed, expectedApplicationStart firmware = some firmwareOffset ∧
        tr = [⟨.waitForAccess sysfsPath, .ok ()⟩,
          ⟨.probeApplicationStart sysfsPath, .ok probe⟩] ∧
        installedApplicationStart probe force = .ok installed ∧
        Decided kconfig firmware force firmwareOffset installed start := by
  unfold resolveStm32FirmwareFileTarget
  cases he : expectedApplicationStart firmware with
  | none =>
      constructor
      · intro h
        cases (runs_pure_iff.1 h).2
      · rintro ⟨_, _, _, he, -⟩
        cases he
  | some firmwareOffset =>
      simp only [runs_perform_bind_iff, runs_accept_bind_iff, runs_place_iff]
      constructor
      · rintro ⟨_, _, rfl, _, rfl, _, _, rfl, probe, rfl, installed, hi, rfl, hd⟩
        exact ⟨firmwareOffset, probe, installed, rfl, rfl, hi, hd⟩
      · rintro ⟨_, probe, installed, hf, rfl, hi, hd⟩
        cases hf
        exact ⟨_, _, rfl, _, rfl, _, _, rfl, probe, rfl, installed, hi, rfl, hd⟩

end Runs

/-- What keeps a file from being written where it cannot run: the start its reset vector falls in
is one of its own, the MCU's Kconfig names one of its own, or the device holds an application
elsewhere, or several. -/
def PlacedByVectors (kconfig : Str) (firmware : Bytes) (probe : ApplicationProbeResult) : Prop :=
  (∀ firmwareOffset, expectedApplicationStart firmware = some firmwareOffset →
      firmwareOffset ∈ plausibleApplicationStarts firmware) ∨
    (∃ start, stm32TargetFromKconfig kconfig = .ok start ∧
      start ∈ plausibleApplicationStarts firmware) ∨
    (∃ candidates, probe = .ambiguous candidates) ∨
    ∃ deviceOffset, probe = .found deviceOffset ∧
      expectedApplicationStart firmware ≠ some deviceOffset

section Placement

variable {kconfig : Str} {firmware : Bytes} {probe : ApplicationProbeResult}
  {firmwareOffset start : UInt32} {installed : Option UInt32}

theorem mem_of_placedByVectors (h : PlacedByVectors kconfig firmware probe)
    (he : expectedApplicationStart firmware = some firmwareOffset)
    (hi : installedApplicationStart probe false = .ok installed)
    (hd : Decided kconfig firmware false firmwareOffset installed start) :
    start ∈ plausibleApplicationStarts firmware := by
  rcases hd with hs | ⟨hnone, rfl, hfallback⟩
  · exact mem_of_selectApplicationStart hs
  · obtain ⟨-, hconfigured⟩ := selectApplicationStart_eq_none_iff.1 hnone
    rcases h with hoffset | ⟨named, hk, hmem⟩ | ⟨candidates, rfl⟩ | ⟨deviceOffset, rfl, hne⟩
    · exact hoffset start he
    · exact absurd hmem (hconfigured named (by rw [hk]; rfl))
    · cases hi
    · cases hi
      rcases hfallback with hf | hf | hf
      · cases hf
      · exact absurd (he.trans hf.symm) hne
      · cases hf

/-- Where none of the conditions holds, the fallback is reached and is wrong. -/
theorem decided_of_not_placedByVectors (h : ¬ PlacedByVectors kconfig firmware probe) :
    ∃ firmwareOffset installed, expectedApplicationStart firmware = some firmwareOffset ∧
      installedApplicationStart probe false = .ok installed ∧
      Decided kconfig firmware false firmwareOffset installed firmwareOffset ∧
      firmwareOffset ∉ plausibleApplicationStarts firmware := by
  unfold PlacedByVectors at h
  simp only [not_or, not_forall, not_exists, not_and, ne_eq, not_not] at h
  obtain ⟨⟨firmwareOffset, he, hmem⟩, hconfigured, hsingle, hfound⟩ := h
  have hc : ∀ start, (stm32TargetFromKconfig kconfig).toOption = some start →
      start ∉ plausibleApplicationStarts firmware := by
    intro start hs
    apply hconfigured start
    cases hk : stm32TargetFromKconfig kconfig with
    | error e => rw [hk] at hs; cases hs
    | ok named => rw [hk] at hs; cases hs; rfl
  cases probe with
  | ambiguous candidates => exact absurd rfl (hsingle candidates)
  | notFound =>
      refine ⟨firmwareOffset, none, he, rfl, .inr ⟨?_, rfl, .inl rfl⟩, hmem⟩
      exact selectApplicationStart_eq_none_iff.2 ⟨nofun, hc⟩
  | found deviceOffset =>
      obtain rfl : firmwareOffset = deviceOffset :=
        Option.some.inj (he.symm.trans (hfound deviceOffset rfl))
      refine ⟨firmwareOffset, some firmwareOffset, he, rfl, .inr ⟨?_, rfl, .inr (.inl rfl)⟩, hmem⟩
      refine selectApplicationStart_eq_none_iff.2 ⟨?_, hc⟩
      rintro start ⟨⟩
      exact hmem

end Placement

/-- Unforced, a file is only ever written where its core vectors say it can run exactly when the
fallback to its reset vector is right or not reached. -/
theorem file_written_where_it_runs_iff (sysfsPath : Path) (kconfig : Str) (firmware : Bytes)
    (probe : ApplicationProbeResult) :
    (∀ tr start, Runs (resolveStm32FirmwareFileTarget sysfsPath kconfig firmware false).run tr
        (.ok start) → ⟨.probeApplicationStart sysfsPath, .ok probe⟩ ∈ tr →
          start ∈ plausibleApplicationStarts firmware) ↔
      PlacedByVectors kconfig firmware probe := by
  constructor
  · intro h
    by_contra hn
    obtain ⟨firmwareOffset, installed, he, hi, hd, hmem⟩ := decided_of_not_placedByVectors hn
    apply hmem
    apply h _ _ (runs_resolve_ok_iff.2 ⟨firmwareOffset, probe, installed, he, rfl, hi, hd⟩)
    exact List.mem_cons_of_mem _ List.mem_cons_self
  · intro h tr start hr hmem
    obtain ⟨firmwareOffset, probe', installed, he, rfl, hi, hd⟩ := runs_resolve_ok_iff.1 hr
    have hprobe : probe = probe' := by
      simp only [List.mem_cons, List.not_mem_nil, or_false] at hmem
      rcases hmem with hmem | hmem
      · cases hmem
      · cases hmem
        rfl
    rw [hprobe] at h
    exact mem_of_placedByVectors h he hi hd

/-- An image linked to start at 0x08020000, with one handler near its base and its startup code
513 bytes above it. -/
def farStartup : Bytes :=
  le32 0x20001000 ++ le32 0x08020201 ++ le32 0x08020101 ++ List.replicate 512 0xaa

/-- A blank device configured for the base of flash: the file is written 512 bytes above the one
start it can run at. -/
theorem far_startup_misplaced : plausibleApplicationStarts farStartup = [0x08020000] ∧
    ∃ tr, ⟨.probeApplicationStart "/sys/devices/1-1", .ok .notFound⟩ ∈ tr ∧
      Runs (resolveStm32FirmwareFileTarget "/sys/devices/1-1" "CONFIG_STM32_FLASH_START_0000=y"
        farStartup false).run tr (.ok 0x08020200) := by
  have hp : plausibleApplicationStarts farStartup = [0x08020000] := by decide +kernel
  have he : expectedApplicationStart farStartup = some 0x08020200 := by decide +kernel
  have hk : stm32TargetFromKconfig "CONFIG_STM32_FLASH_START_0000=y" = .ok 0x08000000 := by
    decide +kernel
  refine ⟨hp, [⟨.waitForAccess "/sys/devices/1-1", .ok ()⟩,
    ⟨.probeApplicationStart "/sys/devices/1-1", .ok .notFound⟩],
    List.mem_cons_of_mem _ List.mem_cons_self, ?_⟩
  refine runs_resolve_ok_iff.2 ⟨0x08020200, .notFound, none, he, rfl, rfl, .inr ⟨?_, rfl, .inl rfl⟩⟩
  rw [hp, hk]
  decide

end Aldis

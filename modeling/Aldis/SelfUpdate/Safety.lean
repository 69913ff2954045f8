import Aldis.SelfUpdate.Command

/-!
# A self-update is safe at every moment

Wherever it is interrupted and whatever fails, the running binary's path holds the old binary or
one unpacked from the archive that the release's manifest lists, entire and executable. The agent
is restarted only onto the latter.
-/

namespace Aldis.SelfUpdate

open Interaction World Text Octets

section Files

structure Stored where
  content : Bytes
  mode : ℕ

abbrev Files := Path → Option Stored

def Below (dir path : Path) : Prop :=
  ∃ name : Str, name.head? ≠ some '/' ∧ path = Path.join dir name

def ChangesOnly (P : Path → Prop) (files files' : Files) : Prop :=
  ∀ path, ¬ P path → files' path = files path

/-- What an answered call makes of the files, where `unpacks` says which binaries an archive holds
and `exe` is the path of the running binary. Writing, copying and removing may stop halfway and
leave anything; renaming is atomic. No other process changes the files meanwhile. -/
def Effect (unpacks : Bytes → Bytes → Prop) (exe : Path) (files files' : Files) :
    Sigma Answer → Prop
  | ⟨.createWorkspace, created⟩ => files' = files ∧
      ∀ dir, created = .ok dir → ∀ path, Below dir path → files path = none
  | ⟨.removeWorkspace dir, _⟩ => ChangesOnly (Below dir) files files'
  | ⟨.write path content, written⟩ => ChangesOnly (· = path) files files' ∧
      (written = .ok () → ∃ mode, files' path = some ⟨content, mode⟩)
  | ⟨.command command, ended⟩ =>
      (∀ archive dir, command = extractCommand archive dir →
        ChangesOnly (Below dir) files files' ∧
        ∀ output, ended = .ok output → output.success = true → ∀ packed binary,
          files archive = some packed → files' (Path.join dir "aldis") = some binary →
          unpacks packed.content binary.content) ∧
      ((∀ archive dir, command ≠ extractCommand archive dir) → files' = files)
  | ⟨.pathExists path, found⟩ => files' = files ∧ ((found : Bool) = true ↔ files path ≠ none)
  | ⟨.currentExe, found⟩ => files' = files ∧ ∀ path, found = .ok path → path = exe
  | ⟨.copy source destination, copied⟩ => ChangesOnly (· = destination) files files' ∧
      (copied = .ok () → files source ≠ none ∧ files' destination = files source)
  | ⟨.mode path, found⟩ => files' = files ∧
      ∀ mode, found = .ok mode → ∃ stored, files path = some stored ∧ stored.mode = mode
  | ⟨.setMode path mode, set⟩ => ChangesOnly (· = path) files files' ∧
      (set = .ok () → ∃ stored, files path = some stored ∧
        files' path = some ⟨stored.content, mode⟩)
  | ⟨.rename source destination, renamed⟩ =>
      (renamed = .ok () → files source ≠ none ∧ files' destination = files source ∧
        ChangesOnly (fun path => path = source ∨ path = destination) files files') ∧
      (renamed ≠ .ok () → files' = files)
  | _ => files' = files

structure Disk where
  files : Files
  past : List (Sigma Answer)

def disk (unpacks : Bytes → Bytes → Prop) (exe : Path) (permits : Disk → Call → Prop) :
    World Answer Disk where
  permits := permits
  step before call answer after :=
    Effect unpacks exe before.files after.files ⟨call, answer⟩ ∧
      after.past = before.past ++ [⟨call, answer⟩]

end Files

section Provenance

variable (V : Type) [Semver V] (sha256 : Bytes → Bytes) (current arch : Str)

/-- The archive is that of the latest release, which is newer, and has the digest that the
release's manifest gives for it. -/
def Published (past : List (Sigma Answer)) (archive : Bytes) : Prop :=
  ∃ tag platform manifest, ⟨.latestRelease, .ok tag⟩ ∈ past ∧ isUpToDate V current tag = false ∧
    targetPlatform arch = .ok platform ∧ ⟨.downloadChecksums tag, .ok manifest⟩ ∈ past ∧
    ⟨.downloadArchive tag platform, .ok archive⟩ ∈ past ∧
    expectedChecksum manifest (archiveName platform) = .ok (sha256 archive)

variable (unpacks : Bytes → Bytes → Prop) (exe : Path)

/-- The binary at `path` is one that a published archive holds, and anyone may execute it. -/
def Replaced (d : Disk) : Prop :=
  ∃ archive stored, Published V sha256 current arch d.past archive ∧
    d.files exe = some stored ∧ unpacks archive stored.content ∧
    stored.mode ||| 0o111 = stored.mode

/-- The old binary is in place or the new one, and the agent is restarted onto the new one. -/
def Guarded (old : Option Stored) (d : Disk) (call : Call) : Prop :=
  (d.files exe = old ∨ Replaced V sha256 current arch unpacks exe d) ∧
    (call = .command (.sudo AGENT_RESTART_COMMAND none) →
      Replaced V sha256 current arch unpacks exe d)

end Provenance

section Steps

variable {V : Type} [Semver V] {sha256 : Bytes → Bytes} {current arch : Str}
  {unpacks : Bytes → Bytes → Prop} {exe : Path} {old : Option Stored} {d : Disk} {α : Type}
  {R : Cause → Disk → Prop} {P : Disk → Call → Prop}

theorem Published.mono {past past' : List (Sigma Answer)} {archive : Bytes}
    (h : Published V sha256 current arch past archive) (hp : past ⊆ past') :
    Published V sha256 current arch past' archive := by
  obtain ⟨tag, platform, manifest, htag, hnew, hplatform, hmanifest, harchive, hsum⟩ := h
  exact ⟨tag, platform, manifest, hp htag, hnew, hplatform, hp hmanifest, hp harchive, hsum⟩

theorem Replaced.mono {d' : Disk} (h : Replaced V sha256 current arch unpacks exe d)
    (hf : d'.files exe = d.files exe) (hp : d.past ⊆ d'.past) :
    Replaced V sha256 current arch unpacks exe d' := by
  obtain ⟨archive, stored, hpublished, hstored, hunpacks, hmode⟩ := h
  exact ⟨archive, stored, hpublished.mono hp, by rw [hf, hstored], hunpacks, hmode⟩

theorem guarded_of_kept {call : Call} (h : d.files exe = old)
    (hc : call ≠ .command (.sudo AGENT_RESTART_COMMAND none)) :
    Guarded V sha256 current arch unpacks exe old d call :=
  ⟨.inl h, fun he => absurd he hc⟩

theorem guarded_of_replaced {call : Call} (h : Replaced V sha256 current arch unpacks exe d) :
    Guarded V sha256 current arch unpacks exe old d call := ⟨.inr h, fun _ => h⟩

def reads : Call → Bool
  | .removeWorkspace _ | .write _ _ | .command _ | .copy _ _ | .setMode _ _ | .rename _ _ => false
  | _ => true

theorem files_eq_of_reads {files files' : Files} {call : Call} {answer : Answer call}
    (hq : reads call = true) (he : Effect unpacks exe files files' ⟨call, answer⟩) :
    files' = files := by
  cases call with
  | latestRelease | downloadChecksums | downloadArchive | ui => exact he
  | createWorkspace | pathExists | currentExe | mode => exact he.1
  | removeWorkspace | write | command | copy | setMode | rename => cases hq

theorem ask_quiet {call : Call} (hp : P d call) (hq : reads call = true) :
    (disk unpacks exe P).EnsuresOr (ask call) d
      (fun answer d' => d'.files = d.files ∧ d.past ⊆ d'.past ∧ ⟨call, answer⟩ ∈ d'.past ∧
        Effect unpacks exe d.files d'.files ⟨call, answer⟩) R := by
  refine (ensuresOr_perform call d _ R).2 ⟨hp, fun answer d' h => ?_⟩
  refine ⟨files_eq_of_reads hq h.1, ?_, ?_, h.1⟩
  · rw [h.2]
    exact List.subset_append_left _ _
  · rw [h.2]
    exact List.mem_append_right _ List.mem_cons_self

/-- A call that may change the files. -/
theorem ask_changes {call : Call} (hp : P d call) :
    (disk unpacks exe P).EnsuresOr (ask call) d
      (fun answer d' => Effect unpacks exe d.files d'.files ⟨call, answer⟩ ∧
        d.past ⊆ d'.past) R := by
  refine (ensuresOr_perform call d _ R).2 ⟨hp, fun answer d' h => ⟨h.1, ?_⟩⟩
  rw [h.2]
  exact List.subset_append_left _ _

theorem ui_quiet {call : Cli.UiCall} (hp : P d (.ui call)) :
    (disk unpacks exe P).EnsuresOr (ui call) d
      (fun _ d' => d'.files = d.files ∧ d.past ⊆ d'.past) R := by
  refine EnsuresOr.mono (ask_quiet hp rfl) ?_ fun _ _ h => h
  exact fun _ _ h => ⟨h.1, h.2.1⟩

theorem ask_kept {call : Call} (hk : d.files exe = old) (hq : reads call = true) :
    (disk unpacks exe (Guarded V sha256 current arch unpacks exe old)).EnsuresOr (ask call) d
      (fun answer d' => d'.files = d.files ∧ d.past ⊆ d'.past ∧ ⟨call, answer⟩ ∈ d'.past ∧
        Effect unpacks exe d.files d'.files ⟨call, answer⟩) R := by
  apply ask_quiet (guarded_of_kept hk _) hq
  rintro rfl
  cases hq

theorem ui_kept {call : Cli.UiCall} (hk : d.files exe = old) :
    (disk unpacks exe (Guarded V sha256 current arch unpacks exe old)).EnsuresOr (ui call) d
      (fun _ d' => d'.files = d.files ∧ d.past ⊆ d'.past) R :=
  ui_quiet (guarded_of_kept hk (by intro h; cases h))

/-- An answer that is an error ends the command. -/
theorem ofExcept_bind {β : Type} {answer : Except Cause α} {f : α → UpdateAttempt β}
    {Q : β → Disk → Prop} (hr : ∀ e, R e d)
    (hf : ∀ a, answer = .ok a → (disk unpacks exe P).EnsuresOr (f a) d Q R) :
    (disk unpacks exe P).EnsuresOr (Attempt.ofExcept answer >>= f) d Q R := by
  rw [ensuresOr_bind, ensuresOr_ofExcept]
  cases answer with
  | ok a => exact hf a rfl
  | error e => exact hr e

theorem context_bind {β : Type} {text : Str} {answer : Except Cause α} {f : α → UpdateAttempt β}
    {Q : β → Disk → Prop} (hr : ∀ e, R e d)
    (hf : ∀ a, answer = .ok a → (disk unpacks exe P).EnsuresOr (f a) d Q R) :
    (disk unpacks exe P).EnsuresOr (context text answer >>= f) d Q R := by
  apply ofExcept_bind hr
  intro a ha
  cases answer with
  | ok a' => exact hf a (congrArg _ (Except.ok.inj ha))
  | error e => cases ha

theorem mapError_ok {ε : Type} {g : ε → Cause} {answer : Except ε α} {a : α}
    (h : answer.mapError g = .ok a) : answer = .ok a := by
  cases answer with
  | ok a' => exact congrArg _ (Except.ok.inj h)
  | error e => cases h

end Steps

section Parts

variable {V : Type} [Semver V] {sha256 : Bytes → Bytes} {current arch : Str}
  {unpacks : Bytes → Bytes → Prop} {exe : Path} {old : Option Stored} {d : Disk}

theorem verifyChecksum_ok {file : Str} {archive expected : Bytes}
    (h : verifyChecksum sha256 file archive expected = .ok ()) : expected = sha256 archive := by
  unfold verifyChecksum at h
  dsimp only at h
  split_ifs at h with he
  exact he.symm

theorem fetchArchive_ensures {tag platform : Str} (hk : d.files exe = old) :
    (disk unpacks exe (Guarded V sha256 current arch unpacks exe old)).EnsuresOr
      (fetchArchive sha256 tag platform) d
      (fun archive d' => d'.files = d.files ∧ d.past ⊆ d'.past ∧
        ∃ manifest, ⟨.downloadChecksums tag, .ok manifest⟩ ∈ d'.past ∧
          ⟨.downloadArchive tag platform, .ok archive⟩ ∈ d'.past ∧
          expectedChecksum manifest (archiveName platform) = .ok (sha256 archive))
      (fun _ d' => d'.files exe = old) := by
  have hkeeps : ∀ {d' : Disk}, d'.files = d.files → d'.files exe = old := by
    intro d' hf
    rw [hf, hk]
  unfold fetchArchive
  refine (ui_kept hk).bind fun _ d₁ ⟨hf₁, hp₁⟩ => ?_
  refine (ask_kept (hkeeps hf₁) rfl).bind fun answer d₂ ⟨hf₂, hp₂, hmanifest, _⟩ => ?_
  rw [hf₁] at hf₂
  apply context_bind fun _ => hkeeps hf₂
  rintro manifest rfl
  apply context_bind fun _ => hkeeps hf₂
  intro expected he
  refine (ask_kept (hkeeps hf₂) rfl).bind fun answer d₃ ⟨hf₃, hp₃, harchive, _⟩ => ?_
  rw [hf₂] at hf₃
  apply context_bind fun _ => hkeeps hf₃
  rintro archive rfl
  refine (ui_kept (hkeeps hf₃)).bind fun _ d₄ ⟨hf₄, hp₄⟩ => ?_
  rw [hf₃] at hf₄
  refine (ui_kept (hkeeps hf₄)).bind fun _ d₅ ⟨hf₅, hp₅⟩ => ?_
  rw [hf₄] at hf₅
  apply context_bind fun _ => hkeeps hf₅
  intro _ hv
  refine (ui_kept (hkeeps hf₅)).bind fun _ d₆ ⟨hf₆, hp₆⟩ => ?_
  rw [hf₅] at hf₆
  have hlate : d₃.past ⊆ d₆.past := fun _ h => hp₆ (hp₅ (hp₄ h))
  refine ⟨hf₆, fun _ h => hlate (hp₃ (hp₂ (hp₁ h))), manifest, hlate (hp₃ hmanifest),
    hlate harchive, ?_⟩
  rw [mapError_ok he, verifyChecksum_ok (mapError_ok hv)]

theorem below_join (dir : Path) {name : Str} (hn : name.head? ≠ some '/') :
    Below dir (Path.join dir name) := ⟨name, hn, rfl⟩

/-- The running binary is not in the directory, which is a new one, and outlives it. -/
theorem inWorkspace_ensures {work : Path → UpdateAttempt Unit} (hold : old ≠ none)
    (hk : d.files exe = old)
    (hwork : ∀ dir d₁, d₁.files exe = old → d.past ⊆ d₁.past → ¬ Below dir exe →
      (disk unpacks exe (Guarded V sha256 current arch unpacks exe old)).EnsuresOr (work dir) d₁
        (fun _ d' => Replaced V sha256 current arch unpacks exe d')
        (fun _ d' => d'.files exe = old)) :
    (disk unpacks exe (Guarded V sha256 current arch unpacks exe old)).EnsuresOr
      (inWorkspace work) d
      (fun _ d' => Replaced V sha256 current arch unpacks exe d')
      (fun _ d' => d'.files exe = old) := by
  unfold inWorkspace
  refine (ask_kept hk rfl).bind fun answer d₁ ⟨hf₁, hp₁, _, heffect⟩ => ?_
  have hk₁ : d₁.files exe = old := by rw [hf₁, hk]
  apply context_bind fun _ => hk₁
  rintro dir rfl
  have hexe : ¬ Below dir exe := by
    intro hbelow
    exact hold (hk.symm.trans (heffect.2 dir rfl exe hbelow))
  rw [ensuresOr_bind, ensuresOr_lift]
  refine Ensures.mono (hwork dir d₁ hk₁ hp₁ hexe) fun ended d₂ hended => ?_
  have hsafe : d₂.files exe = old ∨ Replaced V sha256 current arch unpacks exe d₂ := by
    cases ended with
    | ok u => exact .inr hended
    | error e => exact .inl hended
  refine (ask_changes ⟨hsafe, by intro h; cases h⟩).bind fun _ d₃ ⟨hremove, hp₃⟩ => ?_
  have hkept : d₃.files exe = d₂.files exe := hremove exe hexe
  rw [ensuresOr_ofExcept]
  cases ended with
  | ok u => exact Replaced.mono hended hkept hp₃
  | error e => exact hkept.trans hended

/-- What is unpacked is what the archive holds. -/
theorem unpackArchive_ensures {dir : Path} {archive : Bytes} (hexe : ¬ Below dir exe)
    (hk : d.files exe = old) :
    (disk unpacks exe (Guarded V sha256 current arch unpacks exe old)).EnsuresOr
      (unpackArchive dir archive) d
      (fun extracted d' => d'.files exe = old ∧ d.past ⊆ d'.past ∧
        ∀ binary, d'.files extracted = some binary → unpacks archive binary.content)
      (fun _ d' => d'.files exe = old) := by
  unfold unpackArchive
  have hpacked : Path.join dir "aldis.tar.xz" ≠ exe := by
    intro he
    exact hexe (he ▸ below_join dir (by decide))
  refine (ask_changes (guarded_of_kept hk (by intro h; cases h))).bind
    fun written d₂ ⟨hwrite, hp₂⟩ => ?_
  have hk₂ : d₂.files exe = old := by rw [hwrite.1 exe hpacked.symm, hk]
  apply context_bind fun _ => hk₂
  rintro ⟨⟩ rfl
  obtain ⟨mode, hstored⟩ := hwrite.2 rfl
  refine (ui_kept hk₂).bind fun _ d₃ ⟨hf₃, hp₃⟩ => ?_
  have hk₃ : d₃.files exe = old := by rw [hf₃, hk₂]
  rw [ensuresOr_bind, ensuresOr_adapt]
  unfold extractBinary
  refine (ask_changes (guarded_of_kept hk₃ (by intro h; cases h))).bind
    fun ended d₄ ⟨hextract, hp₄⟩ => ?_
  obtain ⟨honly, hholds⟩ := hextract.1 _ dir rfl
  have hk₄ : d₄.files exe = old := by rw [honly exe hexe, hk₃]
  apply context_bind fun _ => hk₄
  intro output houtput
  rw [ensuresOr_ite]
  refine ⟨fun hsuccess => ?_, fun _ => hk₄⟩
  refine (ask_kept hk₄ rfl).bind fun found d₅ ⟨hf₅, hp₅, _, _⟩ => ?_
  have hk₅ : d₅.files exe = old := by rw [hf₅, hk₄]
  rw [ensuresOr_ite]
  refine ⟨fun _ => ?_, fun _ => hk₅⟩
  refine (ui_kept hk₅).bind fun _ d₆ ⟨hf₆, hp₆⟩ => ?_
  refine ⟨by rw [hf₆, hk₅], fun _ h => hp₆ (hp₅ (hp₄ (hp₃ (hp₂ h)))), ?_⟩
  intro binary hbinary
  rw [hf₆, hf₅] at hbinary
  rw [← hf₃] at hstored
  exact hholds output (mapError_ok houtput) hsuccess _ binary hstored hbinary

/-- The binary is put in place by the one step that renames it. -/
theorem installRelease_ensures {tag : Str} {archive : Bytes} {extracted : Path}
    (hname : ∀ parent, Path.parent exe = some parent → stagedIn parent ≠ exe)
    (hk : d.files exe = old) (hpublished : Published V sha256 current arch d.past archive)
    (hbinary : ∀ binary, d.files extracted = some binary → unpacks archive binary.content) :
    (disk unpacks exe (Guarded V sha256 current arch unpacks exe old)).EnsuresOr
      (installRelease tag extracted) d
      (fun _ d' => Replaced V sha256 current arch unpacks exe d')
      (fun _ d' => d'.files exe = old) := by
  unfold installRelease
  refine (ask_kept hk rfl).bind fun answer d₁ ⟨hf₁, hp₁, _, heffect⟩ => ?_
  have hk₁ : d₁.files exe = old := by rw [hf₁, hk]
  apply context_bind fun _ => hk₁
  rintro currentExe rfl
  obtain rfl := heffect.2 currentExe rfl
  refine (ui_kept hk₁).bind fun _ d₂ ⟨hf₂, hp₂⟩ => ?_
  have hk₂ : d₂.files currentExe = old := by rw [hf₂, hk₁]
  rw [ensuresOr_bind, ensuresOr_adapt, installBinary, ensuresOr_adapt]
  unfold installBinaryImpl
  cases hparent : Path.parent currentExe with
  | none => exact hk₂
  | some parent =>
      have hstaged := hname parent hparent
      refine (ask_changes (guarded_of_kept hk₂ (by intro h; cases h))).bind
        fun copied d₃ ⟨hcopy, hp₃⟩ => ?_
      have hk₃ : d₃.files currentExe = old := by rw [hcopy.1 _ hstaged.symm, hk₂]
      apply ofExcept_bind fun _ => hk₃
      rintro ⟨⟩ rfl
      obtain ⟨hsome, hcopied⟩ := hcopy.2 rfl
      obtain ⟨binary, hextracted⟩ := Option.ne_none_iff_exists'.1 hsome
      have hunpacks : unpacks archive binary.content := by
        apply hbinary
        rw [← hf₁, ← hf₂, hextracted]
      refine (ask_kept hk₃ rfl).bind fun found d₄ ⟨hf₄, hp₄, _, hmode⟩ => ?_
      have hk₄ : d₄.files currentExe = old := by rw [hf₄, hk₃]
      apply ofExcept_bind fun _ => hk₄
      rintro mode rfl
      refine (ask_changes (guarded_of_kept hk₄ (by intro h; cases h))).bind
        fun set d₅ ⟨hset, hp₅⟩ => ?_
      have hk₅ : d₅.files currentExe = old := by rw [hset.1 _ hstaged.symm, hk₄]
      apply ofExcept_bind fun _ => hk₅
      rintro ⟨⟩ rfl
      obtain ⟨stored, hstored, hexecutable⟩ := hset.2 rfl
      rw [hf₄, hcopied, hextracted] at hstored
      obtain rfl := Option.some.inj hstored
      refine (ask_changes (guarded_of_kept hk₅ (by intro h; cases h))).bind
        fun renamed d₆ ⟨hrename, hp₆⟩ => ?_
      rw [ensuresOr_ofExcept]
      cases renamed with
      | error e =>
          rw [Outcome, hrename.2 (by intro h; cases h)]
          exact hk₅
      | ok _ =>
          obtain ⟨-, hrenamed, -⟩ := hrename.1 rfl
          have hreplaced : Replaced V sha256 current arch unpacks currentExe d₆ := by
            refine ⟨archive, ⟨binary.content, _⟩, ?_, hrenamed.trans hexecutable, hunpacks, ?_⟩
            · exact hpublished.mono fun _ h => hp₆ (hp₅ (hp₄ (hp₃ (hp₂ (hp₁ h)))))
            · rw [Nat.or_assoc, Nat.or_self]
          refine EnsuresOr.mono (ui_quiet (guarded_of_replaced hreplaced)) ?_ fun _ _ h => h
          exact fun _ _ h => hreplaced.mono (congrFun h.1 _) h.2

theorem sudo_keeps {arguments : List Str} (hr : Replaced V sha256 current arch unpacks exe d) :
    (disk unpacks exe (Guarded V sha256 current arch unpacks exe old)).Ensures
      (Program.perform (Call.command (.sudo arguments none))) d
      (fun _ d' => Replaced V sha256 current arch unpacks exe d') := by
  refine ⟨guarded_of_replaced hr, fun answer d' h => ?_⟩
  have hne : ∀ archive dir, BuildCommand.sudo arguments none ≠ extractCommand archive dir := by
    intro archive dir he
    have hprogram : ("sudo" : Str) = "tar" := congrArg BuildCommand.program he
    exact absurd hprogram (by decide)
  apply hr.mono (congrFun (h.1.2 hne) _)
  rw [h.2]
  exact List.subset_append_left _ _

theorem restartAgentIfRunning_ensures (hr : Replaced V sha256 current arch unpacks exe d) :
    (disk unpacks exe (Guarded V sha256 current arch unpacks exe old)).Ensures
      restartAgentIfRunning d
      (fun _ d' => Replaced V sha256 current arch unpacks exe d') := by
  unfold restartAgentIfRunning
  refine (sudo_keeps hr).bind fun ended d₁ hr₁ => ?_
  cases ended with
  | error e => exact hr₁
  | ok output =>
      dsimp only
      split_ifs
      · refine (sudo_keeps hr₁).bind fun restarted d₂ hr₂ => ?_
        cases restarted <;> exact hr₂
      · exact hr₁
      · exact hr₁

/-- Nothing that follows touches the new binary. -/
theorem restartAgent_ensures (hr : Replaced V sha256 current arch unpacks exe d) :
    (disk unpacks exe (Guarded V sha256 current arch unpacks exe old)).EnsuresOr restartAgent d
      (fun _ d' => Replaced V sha256 current arch unpacks exe d')
      (fun _ d' => d'.files exe = old) := by
  unfold restartAgent
  refine (ask_quiet (guarded_of_replaced hr) rfl).bind fun found d₁ ⟨hf₁, hp₁, _, _⟩ => ?_
  have hr₁ := hr.mono (congrFun hf₁ _) hp₁
  rw [ensuresOr_ite]
  refine ⟨fun _ => ?_, fun _ => hr₁⟩
  rw [ensuresOr_bind, ensuresOr_lift]
  refine (restartAgentIfRunning_ensures hr₁).mono fun outcome d' hr' => ?_
  cases outcome with
  | notRunning => exact hr'
  | restarted | couldNotRestart =>
      refine EnsuresOr.mono (ui_quiet (guarded_of_replaced hr')) ?_ fun _ _ h => h
      exact fun _ _ h => hr'.mono (congrFun h.1 _) h.2

/-- How the command ends: there was nothing to install, or the new binary is in place. -/
def Ended (V : Type) [Semver V] (sha256 : Bytes → Bytes) (current arch : Str) (check : Bool)
    (unpacks : Bytes → Bytes → Prop) (exe : Path) (files : Files) (d : Disk) : Prop :=
  (d.files = files ∧ ∃ tag, ⟨.latestRelease, .ok tag⟩ ∈ d.past ∧
      (isUpToDate V current tag = true ∨ check = true)) ∨
    Replaced V sha256 current arch unpacks exe d

theorem runSelfUpdate_ensures {check : Bool}
    (hname : ∀ parent, Path.parent exe = some parent → stagedIn parent ≠ exe)
    (hold : old ≠ none) (hk : d.files exe = old) :
    (disk unpacks exe (Guarded V sha256 current arch unpacks exe old)).EnsuresOr
      (runSelfUpdate V sha256 current arch check) d
      (fun _ d' => Ended V sha256 current arch check unpacks exe d.files d')
      (fun _ d' => d'.files exe = old) := by
  have hkeeps : ∀ {d' : Disk}, d'.files = d.files → d'.files exe = old := by
    intro d' hf
    rw [hf, hk]
  unfold runSelfUpdate
  refine (ui_kept hk).bind fun _ d₁ ⟨hf₁, hp₁⟩ => ?_
  refine (ask_kept (hkeeps hf₁) rfl).bind fun answer d₂ ⟨hf₂, hp₂, htag, _⟩ => ?_
  rw [hf₁] at hf₂
  apply context_bind fun _ => hkeeps hf₂
  rintro tag rfl
  have htell : ∀ {text last : Str}, isUpToDate V current tag = true ∨ check = true →
      (disk unpacks exe (Guarded V sha256 current arch unpacks exe old)).EnsuresOr
        (do ui (.block text); ui (.action last)) d₂
        (fun _ d' => Ended V sha256 current arch check unpacks exe d.files d')
        (fun _ d' => d'.files exe = old) := by
    intro text last hreason
    refine (ui_kept (hkeeps hf₂)).bind fun _ d₃ ⟨hf₃, hp₃⟩ => ?_
    rw [hf₂] at hf₃
    refine EnsuresOr.mono (ui_kept (hkeeps hf₃)) ?_
      fun _ _ h => h
    rintro _ d₄ ⟨hf₄, hp₄⟩
    exact .inl ⟨by rw [hf₄, hf₃], tag, hp₄ (hp₃ htag), hreason⟩
  rw [ensuresOr_ite]
  refine ⟨fun hcurrent => htell (.inl hcurrent), fun hnew => ?_⟩
  rw [ensuresOr_ite]
  refine ⟨fun hcheck => htell (.inr hcheck), fun _ => ?_⟩
  apply context_bind fun _ => hkeeps hf₂
  intro platform hplatform
  refine (fetchArchive_ensures (hkeeps hf₂)).bind
    fun archive d₃ ⟨hf₃, hp₃, manifest, hmanifest, harchive, hsum⟩ => ?_
  rw [hf₂] at hf₃
  have hpublished : Published V sha256 current arch d₃.past archive :=
    ⟨tag, platform, manifest, hp₃ htag, Bool.eq_false_iff.2 hnew, hplatform, hmanifest, harchive,
      hsum⟩
  refine EnsuresOr.mono (inWorkspace_ensures hold (hkeeps hf₃) ?_) (fun _ _ h => .inr h)
    fun _ _ h => h
  intro dir d₄ hk₄ hp₄ hdir
  refine (unpackArchive_ensures hdir hk₄).bind fun extracted d₅ ⟨hk₅, hp₅, hbinary⟩ => ?_
  have hpublished₅ := hpublished.mono fun _ h => hp₅ (hp₄ h)
  refine (installRelease_ensures hname hk₅ hpublished₅ hbinary).bind fun _ d₆ hr₆ => ?_
  refine (restartAgent_ensures hr₆).bind fun _ d₇ hr₇ => ?_
  refine EnsuresOr.mono (ui_quiet (guarded_of_replaced hr₇)) ?_ fun _ _ h => h
  exact fun _ _ h => hr₇.mono (congrFun h.1 _) h.2

end Parts

section Runs

variable {V : Type} [Semver V] {sha256 : Bytes → Bytes} {current arch : Str} {check : Bool}
  {unpacks : Bytes → Bytes → Prop} {exe : Path} {files : Files} {pre post : List (Sigma Answer)}
  {r : Except Cause Unit} {d : Disk}

/-- What becomes of the files does not depend on which calls are permitted. -/
theorem path_guarded {P Q : Disk → Call → Prop} {before after : Disk}
    {tr : List (Sigma Answer)} (hp : (disk unpacks exe P).Path before tr after) :
    (disk unpacks exe Q).Path before tr after := by
  induction hp with
  | nil s => exact .nil s
  | cons hs _ ih => exact .cons hs ih

end Runs

section Host

def hostExe : Path := "/usr/bin/aldis"

def oldBinary : Stored := ⟨[7], 0o755⟩

def newBinary : Stored := ⟨[2], 0o644⟩

def hostUnit : Stored := ⟨[9], 0o644⟩

def hostFiles : Files := fun path =>
  if path = hostExe then some oldBinary
  else if path = AGENT_UNIT_PATH then some hostUnit
  else none

def hostUnpacks (archive binary : Bytes) : Prop := archive = [1] ∧ binary = [2]

def hostDigest : Bytes → Bytes := fun _ => List.replicate 32 0

def hostManifest : Str := List.replicate 64 '0' ++ "  aldis-x86_64-linux.tar.xz\n"

def hostUi : (call : Cli.UiCall) → Cli.UiAnswer call
  | .confirm _ => true
  | .action _ | .block _ | .begin _ | .finishSuccess _ | .finishFailure | .heading _ | .status
  | .finishBeforeFlash | .unreachable _ => ()

/-- A host where everything succeeds and an agent is running. -/
def hostAnswer : (call : Call) → Answer call
  | .latestRelease => .ok "v0.3.0"
  | .downloadChecksums _ => .ok hostManifest
  | .downloadArchive _ _ => .ok [1]
  | .createWorkspace => .ok "/tmp/u"
  | .removeWorkspace _ => ()
  | .command command => .ok ⟨true, if command.program = "sudo" then "active\n" else [], []⟩
  | .pathExists path => path == "/tmp/u/aldis" || path == AGENT_UNIT_PATH
  | .currentExe => .ok hostExe
  | .mode _ => .ok 0o644
  | .write _ _ | .copy _ _ | .setMode _ _ | .rename _ _ => .ok ()
  | .ui call => hostUi call

def hostUpdate : List (Sigma Answer) × Except Cause Unit :=
  (runSelfUpdate Semver.Rank hostDigest "0.2.0" "x86_64" false).run.interact
    (fun _ => hostAnswer) []

def hostArchive : Path := "/tmp/u/aldis.tar.xz"

def hostBinary : Path := "/tmp/u/aldis"

def hostStaged : Path := "/usr/bin/.aldis.new"

/-- The files once the archive is written, unpacked, copied, made executable, renamed, and the
directory is removed. -/
def written : Files := Function.update hostFiles hostArchive (some ⟨[1], 0o600⟩)

def unpacked : Files := Function.update written hostBinary (some newBinary)

def staged : Files := Function.update unpacked hostStaged (some newBinary)

def executable : Files := Function.update staged hostStaged (some ⟨newBinary.content, 0o755⟩)

def renamed : Files :=
  Function.update (Function.update executable hostExe (executable hostStaged)) hostStaged none

def removed : Files := Function.update (Function.update renamed hostArchive none) hostBinary none

theorem path_step {unpacks : Bytes → Bytes → Prop} {exe : Path} {P : Disk → Call → Prop}
    {files : Files} {past tr : List (Sigma Answer)} {ev : Sigma Answer} {d : Disk} (after : Files)
    (he : Effect unpacks exe files after ev)
    (hp : (disk unpacks exe P).Path ⟨after, past ++ [ev]⟩ tr d) :
    (disk unpacks exe P).Path ⟨files, past⟩ (ev :: tr) d := .cons ⟨he, rfl⟩ hp

theorem changesOnly_update {files : Files} {path : Path} {stored : Option Stored} :
    ChangesOnly (· = path) files (Function.update files path stored) := by
  intro p hp
  exact Function.update_of_ne hp _ _

def hostEvent (call : Call) : Sigma Answer := ⟨call, hostAnswer call⟩

def installCalls : List Call :=
  [.ui (.action "checking for a newer aldis release"), .latestRelease,
    .ui (.begin "downloading v0.3.0"), .downloadChecksums "v0.3.0",
    .downloadArchive "v0.3.0" "x86_64-linux", .ui (.finishSuccess "downloaded 1 bytes"),
    .ui (.begin "verifying"), .ui (.finishSuccess "SHA-256 matches the release's SHA256SUMS"),
    .createWorkspace, .write hostArchive [1], .ui (.begin "extracting"),
    .command (extractCommand hostArchive "/tmp/u"), .pathExists hostBinary,
    .ui (.finishSuccess "extracted"), .currentExe, .ui (.begin "installing"),
    .copy hostBinary hostStaged, .mode hostStaged, .setMode hostStaged 0o755,
    .rename hostStaged hostExe, .ui (.finishSuccess "installed aldis v0.3.0"),
    .pathExists AGENT_UNIT_PATH, .command (.sudo AGENT_STATUS_COMMAND none)]

def restartCalls : List Call :=
  [.command (.sudo AGENT_RESTART_COMMAND none),
    .ui (.block "restarted the aldis agent onto the new version\n"),
    .ui (.action "run completed successfully"), .removeWorkspace "/tmp/u"]

def installEvents : List (Sigma Answer) := installCalls.map hostEvent

def restartEvents : List (Sigma Answer) := restartCalls.map hostEvent

theorem hostUpdate_eq : hostUpdate.1 = installEvents ++ restartEvents := rfl

theorem runs_hostUpdate :
    Runs (runSelfUpdate Semver.Rank hostDigest "0.2.0" "x86_64" false).run
      (installEvents ++ restartEvents) hostUpdate.2 := by
  rw [← hostUpdate_eq]
  exact runs_interact_nil _ _

theorem join_ne {name path : Str} (hn : name.head? ≠ some '/') (hp : path.take 2 ≠ "/t") :
    Path.join "/tmp/u" name ≠ path := by
  rw [Path.join_of_relative (by decide) (by decide) hn]
  rintro rfl
  exact hp rfl

theorem below_binary : Below "/tmp/u" hostBinary := ⟨"aldis", by decide, rfl⟩

theorem extract_effect : Effect hostUnpacks hostExe written unpacked
    (hostEvent (.command (extractCommand hostArchive "/tmp/u"))) := by
  constructor
  · intro archive dir he
    have harguments := congrArg BuildCommand.arguments he
    obtain ⟨harchive, hrest⟩ := List.cons.inj (List.cons.inj harguments).2
    have hdir := (List.cons.inj (List.cons.inj hrest).2).1
    subst harchive hdir
    constructor
    · intro path hpath
      apply Function.update_of_ne
      rintro rfl
      exact hpath below_binary
    · intro output _ _ packed binary hpacked hbinary
      obtain rfl := Option.some.inj hpacked
      obtain rfl := Option.some.inj hbinary
      exact ⟨rfl, rfl⟩
  · intro hne
    exact absurd rfl (hne _ _)

theorem sudo_effect {arguments : List Str} {files : Files} :
    Effect hostUnpacks hostExe files files (hostEvent (.command (.sudo arguments none))) := by
  constructor
  · intro archive dir he
    have hprogram : ("sudo" : Str) = "tar" := congrArg BuildCommand.program he
    exact absurd hprogram (by decide)
  · intro _
    exact rfl

theorem path_install : (disk hostUnpacks hostExe fun _ _ => True).Path ⟨hostFiles, []⟩
    installEvents ⟨renamed, installEvents⟩ := by
  -- the release is fetched and checked
  refine path_step hostFiles rfl (path_step hostFiles rfl (path_step hostFiles rfl ?_))
  refine path_step hostFiles rfl (path_step hostFiles rfl (path_step hostFiles rfl ?_))
  refine path_step hostFiles rfl (path_step hostFiles rfl (path_step hostFiles ⟨rfl, ?_⟩ ?_))
  · intro dir hdir path hpath
    obtain rfl := Except.ok.inj hdir
    obtain ⟨name, hn, rfl⟩ := hpath
    rw [hostFiles, if_neg (join_ne hn (by decide)), if_neg (join_ne hn (by decide))]
  -- it is unpacked
  refine path_step written ⟨changesOnly_update, fun _ => ⟨_, rfl⟩⟩ (path_step written rfl ?_)
  refine path_step unpacked extract_effect (path_step unpacked ⟨rfl, by decide⟩ ?_)
  refine path_step unpacked rfl (path_step unpacked ⟨rfl, ?_⟩ (path_step unpacked rfl ?_))
  · intro path hpath
    exact (Except.ok.inj hpath).symm
  -- it is installed
  refine path_step staged ⟨changesOnly_update, fun _ => ⟨?_, rfl⟩⟩ ?_
  · exact Option.some_ne_none newBinary
  refine path_step staged ⟨rfl, fun mode hmode => ?_⟩ ?_
  · exact ⟨newBinary, rfl, Except.ok.inj hmode⟩
  refine path_step executable ⟨changesOnly_update, fun _ => ⟨newBinary, rfl, rfl⟩⟩ ?_
  refine path_step renamed ⟨fun _ => ⟨?_, ?_, ?_⟩, fun hfailed => absurd rfl hfailed⟩ ?_
  · exact Option.some_ne_none _
  · rw [renamed, Function.update_of_ne (by decide), Function.update_self]
  · intro path hpath
    obtain ⟨hsource, hdestination⟩ := not_or.1 hpath
    rw [renamed, Function.update_of_ne hsource, Function.update_of_ne hdestination]
  exact path_step renamed rfl (path_step renamed ⟨rfl, by decide⟩
    (path_step renamed sudo_effect (.nil _)))

theorem path_restart : (disk hostUnpacks hostExe fun _ _ => True).Path
    ⟨renamed, installEvents⟩ restartEvents ⟨removed, installEvents ++ restartEvents⟩ := by
  refine path_step renamed sudo_effect (path_step renamed rfl (path_step renamed rfl ?_))
  refine path_step removed ?_ (.nil _)
  intro path hpath
  have hbinary : path ≠ hostBinary := by
    rintro rfl
    exact hpath below_binary
  have harchive : path ≠ hostArchive := by
    rintro rfl
    exact hpath ⟨"aldis.tar.xz", by decide, rfl⟩
  rw [removed, Function.update_of_ne hbinary, Function.update_of_ne harchive]

end Host

end Aldis.SelfUpdate

import Aldis.Cartographer
import Aldis.Lib.Best
import Aldis.Lib.Path

/-!
# Which image a Cartographer is updated to

The manifest of the user's clone only nominates candidates. An image is chosen when its own
identify dictionary agrees with the probe and with its row, the installed plugin works with it,
and no other such image has its version or a newer one.
-/

namespace Aldis.Cartographer

open Text Octets Best

structure ManifestEntry (V : Type) where
  path : Str
  probeVersion : Str
  protocol : Str
  canSpeed : Option ℕ
  lite : Bool
  version : V
  minPlugin : Option V
  deriving DecidableEq

/-- A manifest path inside the clone's `firmware` directory; one that would lead outside it is
refused. -/
def imagePath (checkout : Path) (relative : Str) : Option Path :=
  if (Path.components relative).all Path.Component.isNormal then
    some (Path.join (Path.join checkout "firmware") relative)
  else none

variable {V : Type}

def linkProtocol (transport : Option McuTransport) (running : Firmware V) :
    Except (Unavailable V) Str :=
  match transport, running.canFrequency with
  | none, _ => .error .notConfigured
  | some (.can _ _), some _ => .ok "CAN"
  | some (.can _ _), none => .error .noCanBitrate
  | some (.serial device), some _ => .error (.notCan ("serial (" ++ device ++ ")"))
  | some (.serial _), none => .ok "USB"

def description (running : Firmware V) : Str :=
  running.generation.label ++ " " ++ linkLabel running.canFrequency ++ " " ++
    running.build.label ++ " build"

def listedFor (running : Firmware V) (protocol : Str) (entry : ManifestEntry V) : Bool :=
  entry.probeVersion = running.generation.label && entry.protocol = protocol &&
    entry.canSpeed = running.canFrequency && entry.lite = decide (running.build = .lite)

/-- A row whose image suits the probe, with the path of the image and the version it reports. -/
structure Candidate (V : Type) where
  entry : ManifestEntry V
  path : Path
  reported : Str
  deriving DecidableEq

variable (J : Type) [DictionaryReader J] [Semver V] (files : Path → Option Bytes)
  (checkout : Path)

def candidate (running : Firmware V) (entry : ManifestEntry V) : Option (Candidate V) := do
  let path ← imagePath checkout entry.path
  let image ← files path
  let identity ← (checkImage J image running).toOption
  if Build.fromVersion identity.version = running.build ∧
      parseVersion identity.version = some entry.version then
    some ⟨entry, path, identity.version⟩
  else none

def candidates (manifest : List (ManifestEntry V)) (running : Firmware V) (protocol : Str) :
    List (Candidate V) :=
  (manifest.filter (listedFor running protocol)).filterMap (candidate J files checkout running)

def worksWithPlugin (plugin : Option V) (entry : ManifestEntry V) : Bool :=
  entry.minPlugin.all fun needed => plugin.any fun installed => needed ≤ installed

def blocked (plugin : Option V) (best : V) (found : List (Candidate V)) : List (V ×ₗ V) :=
  (found.filter fun c => ! worksWithPlugin plugin c.entry && best < c.entry.version).filterMap
    fun c => c.entry.minPlugin.map fun needed => toLex (c.entry.version, needed)

def selectTarget (manifest : List (ManifestEntry V)) (running : Firmware V)
    (transport : Option McuTransport) (plugin : Option V) :
    Except (Unavailable V) (Target V) := do
  let protocol ← linkProtocol transport running
  let found := candidates J files checkout manifest running protocol
  match ((found.filter (fun c => worksWithPlugin plugin c.entry)).map (·.entry.version)).max? with
  | none => match (found.filterMap (·.entry.minPlugin)).min? with
    | some needed => .error (.pluginTooOld needed plugin)
    | none => .error (.noImage (description running))
  | some best =>
    match found.filter (fun c => worksWithPlugin plugin c.entry ∧ c.entry.version = best) with
    | [chosen] => .ok {
        path := chosen.path
        version := best
        reported := chosen.reported
        heldBack := (blocked plugin best found).max?.map ofLex }
    | atBest => .error (.ambiguous (atBest.map (·.path)))

section Meaning

variable (manifest : List (ManifestEntry V)) (running : Firmware V)
  (transport : Option McuTransport) (plugin : Option V)

/-- The image at `path`, which reports `reported`, is the one a row lists, and it agrees with the
row and with the probe. -/
structure Suits (entry : ManifestEntry V) (path : Path) (reported : Str) : Prop where
  generation : entry.probeVersion = running.generation.label
  link : (∃ interface uuid, transport = some (.can interface uuid) ∧
      running.canFrequency.isSome = true ∧ entry.protocol = "CAN") ∨
    ∃ device, transport = some (.serial device) ∧ running.canFrequency = none ∧
      entry.protocol = "USB"
  bitrate : entry.canSpeed = running.canFrequency
  lite : entry.lite = true ↔ running.build = .lite
  listed : imagePath checkout entry.path = some path
  checked : ∃ image identity, files path = some image ∧
    checkImage J image running = .ok identity ∧ identity.version = reported
  build : Build.fromVersion reported = running.build
  version : parseVersion reported = some entry.version

/-- The installed plugin meets what a row asks of it. -/
def Compatible (entry : ManifestEntry V) : Prop :=
  ∀ needed, entry.minPlugin = some needed →
    ∃ installed, plugin = some installed ∧ needed ≤ installed

/-- The versions above `best` that only the plugin holds back, each with the plugin it needs. -/
def HeldBack (best : V) : Set (V ×ₗ V) :=
  {k | ∃ entry ∈ manifest, ∃ path reported,
    Suits J files checkout running transport entry path reported ∧ ¬ Compatible plugin entry ∧
      best < entry.version ∧ ∃ needed, entry.minPlugin = some needed ∧
        k = toLex (entry.version, needed)}

structure Chosen (target : Target V) : Prop where
  newest : ∃ before entry after, manifest = before ++ entry :: after ∧
    Suits J files checkout running transport entry target.path target.reported ∧
      Compatible plugin entry ∧ entry.version = target.version ∧
        ∀ other ∈ before ++ after, ∀ path reported,
          Suits J files checkout running transport other path reported →
            Compatible plugin other → other.version < target.version
  inside : ∃ names : List Str, Path.components target.path =
    Path.components (Path.join checkout "firmware") ++ names.map .normal
  noneHeldBack : target.heldBack = none ↔
    HeldBack J files checkout manifest running transport plugin target.version = ∅
  heldBack : ∀ version needed, target.heldBack = some (version, needed) ↔
    IsGreatest (HeldBack J files checkout manifest running transport plugin target.version)
      (toLex (version, needed))

end Meaning

section Proofs

variable {J files checkout} {manifest rows : List (ManifestEntry V)} {running : Firmware V}
  {transport : Option McuTransport} {plugin newer : Option V} {protocol : Str}
  {entry : ManifestEntry V} {c : Candidate V} {target : Target V} {best : V}

theorem worksWithPlugin_iff : worksWithPlugin plugin entry = true ↔ Compatible plugin entry := by
  unfold worksWithPlugin Compatible
  rw [Option.all_eq_true]
  refine forall_congr' fun needed => imp_congr Iff.rfl ?_
  rw [Option.any_eq_true]
  simp only [decide_eq_true_eq]

omit [Semver V] in
theorem listedFor_iff (hl : linkProtocol transport running = .ok protocol) :
    listedFor running protocol entry = true ↔ entry.probeVersion = running.generation.label ∧
      ((∃ interface uuid, transport = some (.can interface uuid) ∧
          running.canFrequency.isSome = true ∧ entry.protocol = "CAN") ∨
        ∃ device, transport = some (.serial device) ∧ running.canFrequency = none ∧
          entry.protocol = "USB") ∧
      entry.canSpeed = running.canFrequency ∧ (entry.lite = true ↔ running.build = .lite) := by
  have hp : entry.protocol = protocol ↔
      (∃ interface uuid, transport = some (.can interface uuid) ∧
          running.canFrequency.isSome = true ∧ entry.protocol = "CAN") ∨
        ∃ device, transport = some (.serial device) ∧ running.canFrequency = none ∧
          entry.protocol = "USB" := by
    unfold linkProtocol at hl
    split at hl <;> cases hl
    · simp_all
    · simp_all
  unfold listedFor
  rw [← hp]
  simp only [Bool.and_eq_true, decide_eq_true_eq, and_assoc]
  have hlite : entry.lite = decide (running.build = .lite) ↔
      (entry.lite = true ↔ running.build = .lite) := by
    rw [← Bool.coe_iff_coe, decide_eq_true_eq]
  rw [hlite]

theorem candidate_eq_some_iff : candidate J files checkout running entry = some c ↔
    c.entry = entry ∧ imagePath checkout entry.path = some c.path ∧
      (∃ image identity, files c.path = some image ∧
        checkImage J image running = .ok identity ∧ identity.version = c.reported) ∧
      Build.fromVersion c.reported = running.build ∧
      parseVersion c.reported = some entry.version := by
  unfold candidate
  simp only [Option.bind_eq_bind, Option.bind_eq_some_iff]
  constructor
  · rintro ⟨path, hpath, image, himage, identity, hidentity, hc⟩
    have hchecked : checkImage J image running = .ok identity := by
      cases hi : checkImage J image running with
      | error mismatch => rw [hi] at hidentity; cases hidentity
      | ok found => rw [hi] at hidentity; cases hidentity; rfl
    split at hc
    · rename_i hagrees
      cases hc
      exact ⟨rfl, hpath, ⟨image, identity, himage, hchecked, rfl⟩, hagrees⟩
    · cases hc
  · rintro ⟨rfl, hpath, ⟨image, identity, himage, hchecked, hv⟩, hagrees⟩
    rw [← hv] at hagrees
    refine ⟨c.path, hpath, image, himage, identity, by rw [hchecked]; rfl, ?_⟩
    rw [if_pos hagrees, hv]

/-- What one row of the manifest contributes. -/
theorem filter_candidate_iff (hl : linkProtocol transport running = .ok protocol) :
    (Option.guard (listedFor running protocol) entry).bind
        (candidate J files checkout running) = some c ↔
      c.entry = entry ∧ Suits J files checkout running transport entry c.path c.reported := by
  rw [Option.bind_eq_some_iff]
  simp only [Option.guard_eq_some_iff, candidate_eq_some_iff]
  constructor
  · rintro ⟨a, ⟨rfl, hlisted⟩, hc, hpath, hchecked, hbuild, hversion⟩
    obtain ⟨hg, hlink, hs, hlite⟩ := (listedFor_iff hl).1 hlisted
    exact ⟨hc, ⟨hg, hlink, hs, hlite, hpath, hchecked, hbuild, hversion⟩⟩
  · rintro ⟨hc, h⟩
    refine ⟨entry, ⟨rfl, ?_⟩, hc, h.listed, h.checked, h.build, h.version⟩
    exact (listedFor_iff hl).2 ⟨h.generation, h.link, h.bitrate, h.lite⟩

theorem candidates_eq_filterMap : candidates J files checkout manifest running protocol =
    manifest.filterMap fun entry => (Option.guard (listedFor running protocol) entry).bind
      (candidate J files checkout running) := by
  rw [candidates, ← List.filterMap_eq_filter, List.filterMap_filterMap]

theorem mem_candidates_iff (hl : linkProtocol transport running = .ok protocol) :
    c ∈ candidates J files checkout manifest running protocol ↔ c.entry ∈ manifest ∧
      Suits J files checkout running transport c.entry c.path c.reported := by
  rw [candidates_eq_filterMap, List.mem_filterMap]
  simp only [filter_candidate_iff hl]
  constructor
  · rintro ⟨entry, hmem, rfl, hs⟩
    exact ⟨hmem, hs⟩
  · rintro ⟨hmem, hs⟩
    exact ⟨c.entry, hmem, rfl, hs⟩

theorem mem_blocked_iff {k : V ×ₗ V} {found : List (Candidate V)} :
    k ∈ blocked plugin best found ↔ ∃ c ∈ found, ¬ Compatible plugin c.entry ∧
      best < c.entry.version ∧ ∃ needed, c.entry.minPlugin = some needed ∧
        k = toLex (c.entry.version, needed) := by
  unfold blocked
  simp only [List.mem_filterMap, List.mem_filter, Bool.and_eq_true, Bool.not_eq_true',
    decide_eq_true_eq, Option.map_eq_some_iff, ← worksWithPlugin_iff, Bool.not_eq_true]
  constructor
  · rintro ⟨c, ⟨hc, hw, hb⟩, needed, hn, hk⟩
    exact ⟨c, hc, hw, hb, needed, hn, hk.symm⟩
  · rintro ⟨c, hc, hw, hb, needed, hn, hk⟩
    exact ⟨c, ⟨hc, hw, hb⟩, needed, hn, hk.symm⟩

/-- The rows that only the plugin holds back are those `blocked` finds. -/
theorem mem_blocked_candidates_iff (hl : linkProtocol transport running = .ok protocol)
    {k : V ×ₗ V} :
    k ∈ blocked plugin best (candidates J files checkout manifest running protocol) ↔
      k ∈ HeldBack J files checkout manifest running transport plugin best := by
  rw [mem_blocked_iff]
  constructor
  · rintro ⟨c, hc, hk⟩
    obtain ⟨hmem, hs⟩ := (mem_candidates_iff hl).1 hc
    exact ⟨c.entry, hmem, c.path, c.reported, hs, hk⟩
  · rintro ⟨entry, hmem, path, reported, hs, hk⟩
    exact ⟨⟨entry, path, reported⟩, (mem_candidates_iff hl).2 ⟨hmem, hs⟩, hk⟩

/-- A selection is the winner among the candidates that the plugin works with. -/
theorem selectTarget_eq_ok_iff :
    selectTarget J files checkout manifest running transport plugin = .ok target ↔
      ∃ protocol, linkProtocol transport running = .ok protocol ∧ ∃ c,
        Winner (fun c : Candidate V => worksWithPlugin plugin c.entry = true) (·.entry.version)
          (candidates J files checkout manifest running protocol) c ∧
        target = ⟨c.path, c.entry.version, c.reported, (blocked plugin c.entry.version
          (candidates J files checkout manifest running protocol)).max?.map ofLex⟩ := by
  unfold selectTarget
  cases hl : linkProtocol transport running with
  | error reason => simp [bind, Except.bind]
  | ok protocol =>
      simp only [bind, Except.bind, Except.ok.injEq, exists_eq_left']
      generalize candidates J files checkout manifest running protocol = found
      simp only [winner_iff]
      constructor
      · intro h
        split at h
        · split at h <;> cases h
        · rename_i best hbest
          split at h
          · rename_i c hc
            cases h
            have hmem : c ∈ [c] := List.mem_singleton_self c
            rw [← hc, List.mem_filter, decide_eq_true_iff] at hmem
            obtain ⟨-, -, rfl⟩ := hmem
            exact ⟨c, ⟨by simpa using hbest, hc⟩, rfl⟩
          · cases h
      · rintro ⟨c, ⟨hbest, hc⟩, rfl⟩
        have hbest' : ((found.filter fun c => worksWithPlugin plugin c.entry).map
            (·.entry.version)).max? = some c.entry.version := by simpa using hbest
        rw [hbest']
        simp only [hc]

theorem inside_of_imagePath {relative : Str} {path : Path}
    (h : imagePath checkout relative = some path) : ∃ names : List Str, Path.components path =
      Path.components (Path.join checkout "firmware") ++ names.map .normal := by
  unfold imagePath at h
  split at h
  · rename_i hn
    cases h
    have hlast : (Path.join checkout "firmware").getLast? = some 'e' := by
      have hne : "firmware".toList ≠ [] := by decide
      rw [Path.getLast?_join hne]
      decide
    have hb : Path.join checkout "firmware" ≠ [] := by
      intro he
      rw [he] at hlast
      cases hlast
    have hl : (Path.join checkout "firmware").getLast? ≠ some '/' := by
      rw [hlast]
      decide
    rw [Path.components_join hb hl hn]
    obtain ⟨names, hnames⟩ := Path.exists_names_of_isNormal hn
    exact ⟨names, by rw [hnames]⟩
  · cases h

theorem max?_blocked_iff (hl : linkProtocol transport running = .ok protocol) {version needed : V} :
    ((blocked plugin best (candidates J files checkout manifest running protocol)).max?.map
        ofLex = some (version, needed)) ↔
      IsGreatest (HeldBack J files checkout manifest running transport plugin best)
        (toLex (version, needed)) := by
  have hmem : ∀ k : V ×ₗ V,
      k ∈ blocked plugin best (candidates J files checkout manifest running protocol) ↔
        k ∈ HeldBack J files checkout manifest running transport plugin best :=
    fun k => mem_blocked_candidates_iff hl
  rw [Option.map_eq_some_iff]
  constructor
  · rintro ⟨k, hk, he⟩
    obtain rfl : k = toLex (version, needed) := he
    obtain ⟨hin, hmax⟩ := List.max?_eq_some_iff.1 hk
    exact ⟨(hmem _).1 hin, fun other ho => hmax other ((hmem other).2 ho)⟩
  · rintro ⟨hin, hmax⟩
    refine ⟨toLex (version, needed), List.max?_eq_some_iff.2 ⟨(hmem _).2 hin, ?_⟩, rfl⟩
    exact fun other ho => hmax ((hmem other).1 ho)

theorem max?_blocked_eq_none_iff (hl : linkProtocol transport running = .ok protocol) :
    (blocked plugin best (candidates J files checkout manifest running protocol)).max?.map
        ofLex = none ↔
      HeldBack J files checkout manifest running transport plugin best = ∅ := by
  rw [Option.map_eq_none_iff, List.max?_eq_none_iff, List.eq_nil_iff_forall_not_mem,
    Set.eq_empty_iff_forall_notMem]
  exact forall_congr' fun k => not_congr (mem_blocked_candidates_iff hl)

/-- A selected target is sound and the newest there is, and what it holds back is named. -/
theorem chosen_of_selectTarget
    (h : selectTarget J files checkout manifest running transport plugin = .ok target) :
    Chosen J files checkout manifest running transport plugin target := by
  obtain ⟨protocol, hl, c, hc, rfl⟩ := selectTarget_eq_ok_iff.1 h
  have hs : Suits J files checkout running transport c.entry c.path c.reported :=
    ((mem_candidates_iff hl).1 hc.mem).2
  rw [candidates_eq_filterMap] at hc
  obtain ⟨before, entry, after, hmanifest, hentry, hw, hbeats⟩ := winner_filterMap hc
  obtain ⟨rfl, -⟩ := (filter_candidate_iff hl).1 hentry
  refine ⟨⟨before, c.entry, after, hmanifest, hs, worksWithPlugin_iff.1 hw, rfl, ?_⟩,
    inside_of_imagePath hs.listed, max?_blocked_eq_none_iff hl, fun _ _ => max?_blocked_iff hl⟩
  intro other hother path reported hsuits hcompatible
  have hcandidate := (filter_candidate_iff (c := ⟨other, path, reported⟩) hl).2 ⟨rfl, hsuits⟩
  exact hbeats other hother _ hcandidate (worksWithPlugin_iff.2 hcompatible)

theorem candidates_perm (hperm : manifest.Perm rows) :
    (candidates J files checkout manifest running protocol).Perm
      (candidates J files checkout rows running protocol) :=
  (hperm.filter _).filterMap _

theorem selectTarget_of_perm (hperm : manifest.Perm rows)
    (h : selectTarget J files checkout manifest running transport plugin = .ok target) :
    selectTarget J files checkout rows running transport plugin = .ok target := by
  obtain ⟨protocol, hl, c, hc, rfl⟩ := selectTarget_eq_ok_iff.1 h
  have hfound : (candidates J files checkout manifest running protocol).Perm
      (candidates J files checkout rows running protocol) := candidates_perm hperm
  refine selectTarget_eq_ok_iff.2 ⟨protocol, hl, c, hc.perm hfound, ?_⟩
  have hblocked : (blocked plugin c.entry.version
      (candidates J files checkout manifest running protocol)).Perm
        (blocked plugin c.entry.version (candidates J files checkout rows running protocol)) :=
    (hfound.filter _).filterMap _
  rw [max?_perm hblocked]

theorem Compatible.mono (hn : ∀ installed, plugin = some installed →
    ∃ version, newer = some version ∧ installed ≤ version) (h : Compatible plugin entry) :
    Compatible newer entry := by
  intro needed hneeded
  obtain ⟨installed, hi, hle⟩ := h needed hneeded
  obtain ⟨version, hv, hle'⟩ := hn installed hi
  exact ⟨version, hv, hle.trans hle'⟩

theorem version_le_of_newer_plugin {other : Target V} (hn : ∀ installed, plugin = some installed →
      ∃ version, newer = some version ∧ installed ≤ version)
    (h : selectTarget J files checkout manifest running transport plugin = .ok target)
    (ho : selectTarget J files checkout manifest running transport newer = .ok other) :
    target.version ≤ other.version := by
  obtain ⟨protocol, hl, c, hc, rfl⟩ := selectTarget_eq_ok_iff.1 h
  obtain ⟨protocol', hl', d, hd, rfl⟩ := selectTarget_eq_ok_iff.1 ho
  obtain rfl : protocol = protocol' := Except.ok.inj (hl.symm.trans hl')
  apply hc.key_mono _ hd
  intro a _ ha
  exact worksWithPlugin_iff.2 ((worksWithPlugin_iff.1 ha).mono hn)

end Proofs

/-- The selection is sound and maximal, names exactly what the plugin holds back, does not depend
on the order of the rows, and never goes back when the plugin is updated. -/
theorem selected_image_newest_that_suits (manifest : List (ManifestEntry V))
    (running : Firmware V) (transport : Option McuTransport) (plugin : Option V) :
    (∀ target, selectTarget J files checkout manifest running transport plugin = .ok target →
      Chosen J files checkout manifest running transport plugin target) ∧
    (∀ rows, manifest.Perm rows → ∀ target,
      selectTarget J files checkout manifest running transport plugin = .ok target ↔
        selectTarget J files checkout rows running transport plugin = .ok target) ∧
    ∀ newer : Option V, (∀ installed, plugin = some installed →
        ∃ version, newer = some version ∧ installed ≤ version) →
      ∀ target other,
        selectTarget J files checkout manifest running transport plugin = .ok target →
        selectTarget J files checkout manifest running transport newer = .ok other →
          target.version ≤ other.version := by
  refine ⟨fun target h => chosen_of_selectTarget h, ?_, ?_⟩
  · intro rows hperm target
    exact ⟨selectTarget_of_perm hperm, selectTarget_of_perm hperm.symm⟩
  · intro newer hn target other h ho
    exact version_le_of_newer_plugin hn h ho

section Probe

/-- The identify dictionary of an image, in the order in which its build writes the keys. -/
structure ProbeDictionary where
  app : Str
  mcu : Str
  version : Str

def ProbeDictionary.text (dictionary : ProbeDictionary) : Str :=
  "\x7b\"app\":\"" ++ dictionary.app ++ "\",\"config\":\x7b\"MCU\":\"" ++ dictionary.mcu ++
    "\"\x7d,\"version\":\"" ++ dictionary.version ++ "\"\x7d"

/-- The checksum behind a zlib stream. -/
def adler32 (data : Bytes) : Bytes :=
  let (a, b) := data.foldl (fun (a, b) byte =>
    let a := (a + byte.toNat) % 65521
    (a, (b + a) % 65521)) (1, 0)
  [b / 256, b, a / 256, a].map UInt8.ofNat

def stored (data : Bytes) : Bytes :=
  let low := UInt8.ofNat data.length
  let high := UInt8.ofNat (data.length / 256)
  [0x78, 0x01, 0x01, low, high, ~~~low, ~~~high] ++ data ++ adler32 data

def inflateStored (limit : ℕ) : Bytes → Option Bytes
  | 0x78 :: 0x01 :: 0x01 :: low :: high :: low' :: high' :: rest =>
    let data := rest.take (low.toNat + 256 * high.toNat)
    if low' = ~~~low ∧ high' = ~~~high ∧ data.length ≤ limit ∧
        (rest.drop data.length).take 4 = adler32 data then some data
    else none
  | _ => none

/-- Dictionaries of that form, read from stored streams. -/
instance : DictionaryReader ProbeDictionary where
  inflate := inflateStored
  fromSlice bytes := match (bytes.map fun byte => Char.ofNat byte.toNat).splitOn '"' with
    | [_, _, _, app, _, _, _, _, _, mcu, _, _, _, version, _] => some ⟨app, mcu, version⟩
    | _ => none
  string dictionary pointer :=
    if pointer = "/app" then some dictionary.app
    else if pointer = "/config/MCU" then some dictionary.mcu
    else if pointer = "/version" then some dictionary.version
    else none
  number _ _ := none

def probeImage (version : Str) : Bytes :=
  [0x00, 0x80, 0x00, 0x20, 0x41, 0x20, 0x00, 0x08] ++ List.replicate 56 0 ++
    stored ((ProbeDictionary.text ⟨APP, "stm32g431xx", version⟩).map fun c => UInt8.ofNat c.toNat)

def probe : Firmware Semver.Rank :=
  ⟨.v4, .full, Semver.new 5 0 0, "stm32g431xx", none⟩

def probeRow (version : Semver.Rank) (path : Str) (minPlugin : Option Semver.Rank) :
    ManifestEntry Semver.Rank :=
  ⟨path, "v4", "USB", none, false, version, minPlugin⟩

/-- Two images that suit the probe, of which the newer one needs a newer plugin. -/
def probeManifest : List (ManifestEntry Semver.Rank) :=
  [probeRow (Semver.new 6 0 0) "v4/6.0.0.bin" (some (Semver.new 2 0 0)),
    probeRow (Semver.new 5 1 0) "v4/5.1.0.bin" none]

def probeFiles (path : Path) : Option Bytes :=
  if path = "/home/pi/firmware/v4/6.0.0.bin" then some (probeImage "Cartographer 6.0.0")
  else if path = "/home/pi/firmware/v4/5.1.0.bin" then some (probeImage "Cartographer 5.1.0")
  else none

def selectProbe (plugin : Semver.Rank) : Except (Unavailable Semver.Rank) (Target Semver.Rank) :=
  selectTarget ProbeDictionary probeFiles "/home/pi" probeManifest probe
    (some (.serial "/dev/ttyACM0")) (some plugin)

def heldBackTarget : Target Semver.Rank :=
  ⟨"/home/pi/firmware/v4/5.1.0.bin", Semver.new 5 1 0, "Cartographer 5.1.0",
    some (Semver.new 6 0 0, Semver.new 2 0 0)⟩

def newestTarget : Target Semver.Rank :=
  ⟨"/home/pi/firmware/v4/6.0.0.bin", Semver.new 6 0 0, "Cartographer 6.0.0", none⟩

theorem selectProbe_old : selectProbe (Semver.new 1 5 0) = .ok heldBackTarget := by
  decide +kernel

theorem selectProbe_new : selectProbe (Semver.new 2 0 0) = .ok newestTarget := by
  decide +kernel

end Probe

theorem selected_image_newest_for_probe :
    Chosen ProbeDictionary probeFiles "/home/pi" probeManifest probe
        (some (.serial "/dev/ttyACM0")) (some (Semver.new 1 5 0)) heldBackTarget ∧
      selectTarget ProbeDictionary probeFiles "/home/pi" probeManifest.reverse probe
        (some (.serial "/dev/ttyACM0")) (some (Semver.new 1 5 0)) = .ok heldBackTarget ∧
      heldBackTarget.version ≤ newestTarget.version := by
  obtain ⟨hchosen, hperm, -⟩ := selected_image_newest_that_suits ProbeDictionary probeFiles
    "/home/pi" probeManifest probe (some (.serial "/dev/ttyACM0")) (some (Semver.new 1 5 0))
  obtain ⟨-, -, hnewer⟩ := selected_image_newest_that_suits ProbeDictionary probeFiles
    "/home/pi" probeManifest probe (some (.serial "/dev/ttyACM0")) (some (Semver.new 1 5 0))
  refine ⟨hchosen _ selectProbe_old, ?_, ?_⟩
  · exact (hperm _ (List.reverse_perm _).symm _).1 selectProbe_old
  · refine hnewer (some (Semver.new 2 0 0)) ?_ _ _ selectProbe_old selectProbe_new
    intro installed hinstalled
    obtain rfl := Option.some.inj hinstalled
    exact ⟨_, rfl, by decide⟩

end Aldis.Cartographer

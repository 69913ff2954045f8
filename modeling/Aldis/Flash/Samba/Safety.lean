import Aldis.Flash.Samba.Adapter

/-!
# The order of SAM-BA commands

What the commands and replies so far have established, whatever comes back from the port, and
which command may follow. Nothing is written before the part is checked, every copy lies in the
application area, and the part is only reset once every checksum matched.
-/

namespace Aldis.Samba

open Interaction World Octets Text

structure Progress where
  pending : Option MonitorCommand
  /-- Bytes of a stage command that are still to come. -/
  raw : ℕ
  staged : Bytes
  deviceId : Option UInt32
  userRow : Option UInt32
  param : Option UInt32
  /-- The flash ranges copied to, each with its length. -/
  written : List (ℕ × ℕ)
  /-- Chunks whose checksum matched. -/
  verified : ℕ

def chunkCount (firmware : Bytes) : ℕ := divCeil firmware.length CHUNK_SIZE

namespace Progress

def start : Progress := ⟨none, 0, [], none, none, none, [], 0⟩

def sent (p : Progress) (command : MonitorCommand) : Progress :=
  match command with
  | .stage _ length => { p with pending := some command, raw := length, staged := [] }
  | .copy address length =>
    { p with pending := some command, written := p.written ++ [(address, length)] }
  | _ => { p with pending := some command }

/-- After a stage command the monitor takes bytes as data; otherwise it reads a command. -/
def wrote (p : Progress) (bytes : Bytes) : Progress :=
  if p.raw ≠ 0 then { p with raw := p.raw - bytes.length, staged := p.staged ++ bytes }
  else match MonitorCommand.parse bytes with
    | some command => p.sent command
    | none => p

def answered (firmware : Bytes) (p : Progress) (bytes : Bytes) : Progress :=
  match p.pending with
  | some (.readWord address) =>
    if address = DSU_DEVICE_ID.toNat then { p with deviceId := some (fromLe32 bytes) }
    else if address = NVM_USER_ROW.toNat then { p with userRow := some (fromLe32 bytes) }
    else if address = NVMCTRL_PARAM.toNat then { p with param := some (fromLe32 bytes) }
    else p
  | some (.checksum _ _) =>
    if checksumReply bytes = some (crc16Xmodem (chunk CHUNK_SIZE p.verified firmware)) then
      { p with verified := p.verified + 1 }
    else p
  | _ => p

def next (firmware : Bytes) (p : Progress) : Sigma PortAnswer → Progress
  | ⟨.writeAll bytes, _⟩ => p.wrote bytes
  | ⟨.readExact _, .ok bytes⟩ => answered firmware p bytes.1
  | _ => p

end Progress

section Commands

variable (target : SambaTarget) (firmware : Bytes)

/-- The chip, its protection and its size have been read and fit the firmware. -/
structure Checked (p : Progress) : Prop where
  chip : ∃ deviceId, p.deviceId = some deviceId ∧
    deviceId &&& SAMD21_DEVICE_ID_MASK = SAMD21_DEVICE_ID
  protection : ∃ userRow, p.userRow = some userRow ∧
    ∀ size, protectedSizeOf userRow = some size → size = target.applicationStart
  size : ∃ param, p.param = some param ∧
    target.applicationStart.toNat + paddedBytes firmware ≤ flashSizeOf param

/-- A flash range of the application area whose addresses do not wrap. -/
def InApplication (p : Progress) (address length : ℕ) : Prop :=
  target.applicationStart.toNat ≤ address ∧ address + length < 2 ^ 32 ∧
    ∃ param, p.param = some param ∧ address + length ≤ flashSizeOf param

def MaySend (p : Progress) : MonitorCommand → Prop
  | .normal | .version | .readWord _ => True
  | .stage address length => Checked target firmware p ∧
      address = STAGING_ADDRESS.toNat ∧ length = CHUNK_SIZE
  | .copyFrom address => Checked target firmware p ∧ address = STAGING_ADDRESS.toNat
  | .copy address length => Checked target firmware p ∧ InApplication target p address length ∧
      p.written.length < chunkCount firmware ∧
      p.staged = resize CHUNK_SIZE 0xFF (chunk CHUNK_SIZE p.written.length firmware) ∧
      address = target.applicationStart.toNat + p.written.length * CHUNK_SIZE ∧
      length = CHUNK_SIZE
  | .checksum address length => p.written.length = chunkCount firmware ∧
      address = target.applicationStart.toNat + p.verified * CHUNK_SIZE ∧
      length = (chunk CHUNK_SIZE p.verified firmware).length
  | .writeWord address value => address = AIRCR.toNat ∧ value = AIRCR_SYSRESETREQ.toNat ∧
      p.written.length = chunkCount firmware ∧ p.verified = chunkCount firmware

/-- Bytes may be written if they are staged data or read as a command that may follow. -/
def Allowed (p : Progress) (call : PortCall) : Prop :=
  ∀ bytes, call = .writeAll bytes → if p.raw ≠ 0 then bytes.length ≤ p.raw else
    ∃ command, MonitorCommand.parse bytes = some command ∧ MaySend target firmware p command

/-- The copied ranges are the first blocks of the padded firmware, one after the other. -/
def Tiled (p : Progress) : Prop :=
  p.written = (List.range p.written.length).map
      (fun i => (target.applicationStart.toNat + i * CHUNK_SIZE, CHUNK_SIZE)) ∧
    p.written.length ≤ chunkCount firmware

end Commands

theorem flashSizeOf_lt (param : UInt32) : flashSizeOf param < 2 ^ 32 := by
  have hpages : (param &&& 0xFFFF).toNat ≤ 0xFFFF := by
    rw [UInt32.toNat_and]
    exact Nat.and_le_right
  have hshift : ((param >>> 16) &&& 0x7).toNat ≤ 7 := by
    rw [UInt32.toNat_and]
    exact Nat.and_le_right
  have hsize : 8 <<< ((param >>> 16) &&& 0x7).toNat ≤ 1024 := by
    rw [Nat.shiftLeft_eq]
    have hpow := Nat.pow_le_pow_right (n := 2) (by norm_num) hshift
    omega
  have hmul := Nat.mul_le_mul hpages hsize
  unfold flashSizeOf
  omega

/-- A chunk that ends within the checked range has an address that does not wrap. -/
theorem chunkAddress_toNat {start : UInt32} {index : ℕ}
    (h : start.toNat + index * CHUNK_SIZE < 2 ^ 32) :
    (chunkAddress start index).toNat = start.toNat + index * CHUNK_SIZE := by
  have hi : index * CHUNK_SIZE < 2 ^ 32 := by omega
  rw [chunkAddress, UInt32.toNat_add, UInt32.toNat_ofNat_of_lt' hi, Nat.mod_eq_of_lt h]

namespace Progress

variable {target : SambaTarget} {firmware : Bytes} {p q : Progress}

theorem wrote_encode (h : p.raw = 0) (command : MonitorCommand) :
    p.wrote command.encode = p.sent command := by
  rw [wrote, if_neg (not_not.2 h), MonitorCommand.parse_encode]

theorem answered_written (bytes : Bytes) :
    (answered firmware p bytes).written = p.written := by
  unfold answered
  split
  · split_ifs <;> exact rfl
  · split_ifs <;> exact rfl
  · exact rfl

/-- A permitted call keeps the ranges tiled. -/
theorem tiled_next {ev : Sigma PortAnswer} (h : Tiled target firmware p)
    (ha : Allowed target firmware p ev.1) : Tiled target firmware (next firmware p ev) := by
  obtain ⟨call, answer⟩ := ev
  cases call with
  | writeAll bytes =>
    have hwrite := ha bytes rfl
    change Tiled target firmware (p.wrote bytes)
    unfold wrote
    by_cases hr : p.raw ≠ 0
    · rw [if_pos hr]
      exact h
    · rw [if_neg hr] at hwrite ⊢
      obtain ⟨command, hp, hmay⟩ := hwrite
      rw [hp]
      cases command with
      | copy address length =>
        obtain ⟨-, -, hlt, -, haddress, hlength⟩ := hmay
        change Tiled target firmware { p with
          pending := _
          written := p.written ++ [(address, length)] }
        refine ⟨?_, ?_⟩
        · rw [List.length_append, List.length_singleton, List.range_succ, List.map_append,
            ← h.1, List.map_singleton, haddress, hlength]
        · rw [List.length_append, List.length_singleton]
          exact hlt
      | _ => exact h
  | readExact length =>
    cases answer with
    | ok bytes =>
      change Tiled target firmware (answered firmware p bytes.1)
      unfold Tiled
      rw [answered_written]
      exact h
    | error e => exact h
  | flush => exact h
  | read => exact h
  | discardInput => exact h

theorem tiled_start : Tiled target firmware start := ⟨rfl, Nat.zero_le _⟩

theorem tiled_foldl {tr : List (Sigma PortAnswer)}
    (h : ∀ pre ev post, tr = pre ++ ev :: post →
      Allowed target firmware (pre.foldl (next firmware) start) ev.1) :
    Tiled target firmware (tr.foldl (next firmware) start) := by
  induction tr using List.reverseRecOn with
  | nil => exact tiled_start
  | append_singleton tr ev ih =>
    rw [List.foldl_append, List.foldl_cons, List.foldl_nil]
    refine tiled_next (ih fun pre ev' post he => ?_) (h tr ev [] rfl)
    exact h pre ev' (post ++ [ev]) (by rw [he, List.append_assoc, List.cons_append])

end Progress
section Flash

variable {target : SambaTarget} {firmware : Bytes} {p : Progress} {α : Type}

variable (target firmware) in
abbrev monitored : World PortAnswer Progress :=
  tracking (Progress.next firmware) (Allowed target firmware)

variable (target firmware) in
/-- All calls are allowed, and what is returned holds within `Q`. -/
abbrev Keeps (x : Monitor α) (p : Progress) (Q : α → Progress → Prop) : Prop :=
  (monitored target firmware).EnsuresOr x p Q (fun _ _ => True)

theorem port_ensures {call : PortCall} {Q : PortValue call → Progress → Prop}
    (ha : Allowed target firmware p call) (hq : ∀ v, Q v (p.next firmware ⟨call, .ok v⟩)) :
    Keeps target firmware (port call) p Q := by
  unfold Keeps port
  rw [ensuresOr_bind, ensuresOr_perform]
  refine ⟨ha, fun answer s hs => ?_⟩
  rw [ensuresOr_ofExcept]
  cases answer with
  | ok v =>
    have hs : s = p.next firmware ⟨call, .ok v⟩ := hs
    rw [hs]
    exact hq v
  | error e => exact trivial

theorem writeAll_ensures {command : MonitorCommand} {Q : Unit → Progress → Prop}
    (hr : p.raw = 0) (hm : MaySend target firmware p command) (hq : Q () (p.sent command)) :
    Keeps target firmware (writeAll command.encode) p Q := by
  refine port_ensures ?_ fun _ => ?_
  · rintro bytes ⟨⟩
    rw [if_neg (not_not.2 hr)]
    exact ⟨command, MonitorCommand.parse_encode command, hm⟩
  · change Q () (p.wrote command.encode)
    rw [Progress.wrote_encode hr]
    exact hq

theorem flush_ensures {Q : Unit → Progress → Prop} (hq : Q () p) :
    Keeps target firmware flush p Q :=
  port_ensures (fun _ h => nomatch h) fun _ => hq

theorem readExact_ensures {length : ℕ} {Q : {bytes : Bytes // bytes.length = length} →
    Progress → Prop} (hq : ∀ bytes, Q bytes (Progress.answered firmware p bytes.1)) :
    Keeps target firmware (readExact length) p Q :=
  port_ensures (fun _ h => nomatch h) hq

theorem normalMode_ensures (hr : p.raw = 0) :
    Keeps target firmware normalMode p (fun _ q => q = { p with pending := some .normal }) := by
  unfold Keeps normalMode
  rw [ensuresOr_bind]
  refine writeAll_ensures hr trivial ?_
  rw [ensuresOr_bind]
  apply flush_ensures
  rw [ensuresOr_bind, ensuresOr_perform]
  refine ⟨fun _ h => (nomatch h), fun answer s hs => ?_⟩
  have hs : s = { p with pending := some .normal } := by
    cases answer with
    | ok bytes => exact hs
    | error e => exact hs
  rw [hs]
  split
  · exact port_ensures (fun _ h => nomatch h) fun _ => rfl
  · exact port_ensures (fun _ h => nomatch h) fun _ => rfl
  · exact port_ensures (fun _ h => nomatch h) fun _ => rfl
  · exact trivial

/-- Reading the version line establishes nothing. -/
theorem versionLine_ensures (hp : p.pending = some .version) (n : ℕ) (line : Bytes) :
    Keeps target firmware (versionLine n line) p (fun _ q => q = p) := by
  have hread : ∀ bytes, Progress.answered firmware p bytes = p := by
    intro bytes
    rw [Progress.answered, hp]
  induction n generalizing line with
  | zero => exact trivial
  | succ n ih =>
    unfold Keeps versionLine
    rw [ensuresOr_bind]
    refine readExact_ensures fun bytes => ?_
    rw [hread]
    dsimp only
    split_ifs
    · exact rfl
    · exact ih _

theorem banner_ensures (hp : p.pending = some .version) (skips : ℕ) :
    Keeps target firmware (banner skips) p (fun _ q => q = p) := by
  have hread : ∀ bytes, Progress.answered firmware p bytes = p := by
    intro bytes
    rw [Progress.answered, hp]
  induction skips with
  | zero => exact versionLine_ensures hp _ _
  | succ skips ih =>
    unfold Keeps banner
    rw [ensuresOr_bind]
    refine readExact_ensures fun bytes => ?_
    rw [hread]
    dsimp only
    split_ifs
    · exact ih
    · exact versionLine_ensures hp _ _

theorem trailing_ensures (n : ℕ) : Keeps target firmware (trailing n) p (fun _ q => q = p) := by
  induction n with
  | zero => exact rfl
  | succ n ih =>
    unfold Keeps trailing
    rw [ensuresOr_bind, ensuresOr_perform]
    refine ⟨fun _ h => (nomatch h), fun answer s hs => ?_⟩
    have hs : s = p := hs
    rw [hs]
    split
    · exact ih
    · exact rfl
    · exact trivial

theorem handshake_ensures (hr : p.raw = 0) :
    Keeps target firmware handshake p (fun _ q => q = { p with pending := some .version }) := by
  unfold Keeps handshake
  rw [ensuresOr_bind]
  refine (normalMode_ensures hr).mono ?_ fun _ _ h => h
  rintro _ q rfl
  rw [ensuresOr_bind]
  refine writeAll_ensures hr trivial ?_
  rw [ensuresOr_bind]
  apply flush_ensures
  rw [ensuresOr_bind]
  refine (banner_ensures rfl 2).mono ?_ fun _ _ h => h
  rintro _ q rfl
  exact trailing_ensures 2

theorem readWord_ensures {address : UInt32} {Q : UInt32 → Progress → Prop} (hr : p.raw = 0)
    (hq : ∀ bytes, Q (fromLe32 bytes)
      (Progress.answered firmware { p with pending := some (.readWord address.toNat) } bytes)) :
    Keeps target firmware (readWord address) p Q := by
  unfold Keeps readWord
  rw [ensuresOr_bind]
  refine writeAll_ensures hr trivial ?_
  rw [ensuresOr_bind]
  exact readExact_ensures fun bytes => hq bytes.1

/-- What passes the checks is checked, and nothing has been written. -/
theorem checkPart_ensures (hr : p.raw = 0) (hw : p.written = []) (hv : p.verified = 0) :
    Keeps target firmware (checkPart target.applicationStart firmware) p
      (fun _ q => Checked target firmware q ∧ q.raw = 0 ∧ q.written = [] ∧ q.verified = 0) := by
  unfold Keeps checkPart
  rw [ensuresOr_bind]
  refine readWord_ensures hr fun id => ?_
  by_cases hid : fromLe32 id &&& SAMD21_DEVICE_ID_MASK ≠ SAMD21_DEVICE_ID
  · rw [if_pos hid]
    exact trivial
  rw [if_neg hid]
  change World.EnsuresOr _ (protectedBootloaderSize >>= _) _ _ _
  rw [ensuresOr_bind, protectedBootloaderSize, ensuresOr_bind]
  refine readWord_ensures hr fun row => ?_
  rw [ensuresOr_pure]
  cases hrow : (protectedSizeOf (fromLe32 row)).filter
      (fun size => size ≠ target.applicationStart) with
  | some size => exact trivial
  | none =>
    change World.EnsuresOr _ (flashSize >>= _) _ _ _
    rw [ensuresOr_bind, flashSize, ensuresOr_bind]
    refine readWord_ensures hr fun param => ?_
    rw [ensuresOr_pure]
    by_cases hsize : flashSizeOf (fromLe32 param) <
        target.applicationStart.toNat + paddedBytes firmware
    · rw [if_pos hsize]
      exact trivial
    · rw [if_neg hsize]
      refine ⟨⟨⟨fromLe32 id, rfl, not_not.1 hid⟩, ⟨fromLe32 row, rfl, fun size h => ?_⟩,
        ⟨fromLe32 param, rfl, not_lt.1 hsize⟩⟩, hr, hw, hv⟩
      by_contra hne
      rw [h, Option.filter_some, if_pos (by simpa using hne)] at hrow
      cases hrow

/-- Between two chunks: the part is checked, `written` chunks are copied and none is verified. -/
structure Copied (target : SambaTarget) (firmware : Bytes) (written : ℕ) (p : Progress) :
    Prop where
  checked : Checked target firmware p
  raw : p.raw = 0
  written : p.written.length = written
  verified : p.verified = 0

theorem stage_ensures {index : ℕ} {chunk : Bytes} (h : Copied target firmware index p) :
    Keeps target firmware (stage (resize CHUNK_SIZE 0xFF chunk)) p
      (fun _ q => Copied target firmware index q ∧ q.staged = resize CHUNK_SIZE 0xFF chunk) := by
  have hlen : (resize CHUNK_SIZE 0xFF chunk).length = CHUNK_SIZE := resize_length _ _ _
  unfold Keeps stage
  rw [ensuresOr_bind, hlen]
  refine writeAll_ensures h.raw ⟨h.checked, rfl, rfl⟩ (port_ensures ?_ fun _ => ?_)
  · rintro bytes ⟨⟩
    exact hlen.le
  · change Copied target firmware index (Progress.wrote _ _) ∧ _
    simp only [Progress.sent, Progress.wrote, hlen, List.nil_append]
    rw [if_pos (by decide), Nat.sub_self]
    exact ⟨⟨⟨h.checked.chip, h.checked.protection, h.checked.size⟩, rfl, h.written, h.verified⟩,
      rfl⟩

/-- The staged chunk is copied right behind the ones before it. -/
theorem writeFlash_ensures {index : ℕ} (h : Copied target firmware index p)
    (hs : p.staged = resize CHUNK_SIZE 0xFF (chunk CHUNK_SIZE index firmware))
    (hi : index < chunkCount firmware) :
    Keeps target firmware (writeFlash (chunkAddress target.applicationStart index) CHUNK_SIZE) p
      (fun _ q => Copied target firmware (index + 1) q) := by
  obtain ⟨param, hparam, hsize⟩ := h.checked.size
  have hflash := flashSizeOf_lt param
  have hend : index * CHUNK_SIZE + CHUNK_SIZE ≤ paddedBytes firmware := by
    rw [← Nat.succ_mul]
    exact Nat.mul_le_mul_right _ hi
  have haddress : (chunkAddress target.applicationStart index).toNat =
      target.applicationStart.toNat + index * CHUNK_SIZE := chunkAddress_toNat (by omega)
  have hack : ∀ {p : Progress} {Q : Unit → Progress → Prop},
      (∀ bytes, Progress.answered firmware p bytes = p) → Q () p →
        Keeps target firmware expectCopyAck p Q := by
    intro p Q ha hq
    unfold Keeps expectCopyAck
    rw [ensuresOr_bind]
    refine readExact_ensures fun bytes => ?_
    rw [ha]
    dsimp only
    split_ifs
    · exact hq
    · exact trivial
  unfold Keeps writeFlash
  rw [ensuresOr_bind]
  refine writeAll_ensures h.raw ⟨h.checked, rfl⟩ ?_
  rw [ensuresOr_bind]
  refine hack (fun _ => rfl) ?_
  rw [ensuresOr_bind]
  refine writeAll_ensures h.raw ?_ (hack (fun _ => rfl) ?_)
  · refine ⟨⟨h.checked.chip, h.checked.protection, h.checked.size⟩,
      ⟨?_, ?_, param, hparam, ?_⟩, ?_, ?_, ?_, rfl⟩
    · rw [haddress]
      exact Nat.le_add_right _ _
    · omega
    · omega
    · exact h.written ▸ hi
    · exact h.written ▸ hs
    · exact haddress.trans (congrArg
        (fun i => target.applicationStart.toNat + i * CHUNK_SIZE) h.written.symm)
  · refine ⟨⟨h.checked.chip, h.checked.protection, h.checked.size⟩, h.raw, ?_, h.verified⟩
    change (p.written ++ [_]).length = index + 1
    rw [List.length_append, List.length_singleton, h.written]

theorem writeChunks_ensures (k index : ℕ) (h : Copied target firmware index p)
    (hk : index + k = chunkCount firmware) :
    Keeps target firmware (writeChunks target.applicationStart index
      ((List.range' index k).map (fun i => chunk CHUNK_SIZE i firmware))) p
      (fun _ q => Copied target firmware (index + k) q) := by
  induction k generalizing index p with
  | zero => exact h
  | succ k ih =>
    rw [List.range'_succ, List.map_cons]
    unfold Keeps writeChunks
    rw [ensuresOr_bind]
    refine (stage_ensures h).mono ?_ fun _ _ h => h
    intro _ q hq
    rw [ensuresOr_bind]
    refine (writeFlash_ensures hq.1 hq.2 (by omega)).mono ?_ fun _ _ h => h
    intro _ q hq
    refine (ih (index + 1) hq (by omega)).mono ?_ fun _ _ h => h
    intro _ q hq
    rwa [Nat.add_right_comm] at hq

/-- All chunks are copied and `verified` checksums matched. -/
structure Matched (firmware : Bytes) (verified : ℕ) (p : Progress) : Prop where
  raw : p.raw = 0
  written : p.written.length = chunkCount firmware
  verified : p.verified = verified

theorem checksum_ensures {index : ℕ} (h : Matched firmware index p)
    (ha : (chunkAddress target.applicationStart index).toNat =
      target.applicationStart.toNat + index * CHUNK_SIZE) :
    Keeps target firmware (checksum (chunkAddress target.applicationStart index)
      (chunk CHUNK_SIZE index firmware).length) p
      (fun crc q => crc = crc16Xmodem (chunk CHUNK_SIZE index firmware) →
        Matched firmware (index + 1) q) := by
  unfold Keeps checksum
  rw [ensuresOr_bind]
  have hmay : MaySend target firmware p (.checksum
      (chunkAddress target.applicationStart index).toNat
      (chunk CHUNK_SIZE index firmware).length) := by
    refine ⟨h.written, ha.trans ?_, ?_⟩
    · exact congrArg (fun i => target.applicationStart.toNat + i * CHUNK_SIZE) h.verified.symm
    · exact congrArg (fun i => (chunk CHUNK_SIZE i firmware).length) h.verified.symm
  apply writeAll_ensures h.raw hmay
  rw [ensuresOr_bind]
  refine readExact_ensures fun bytes => ?_
  dsimp only
  cases hr : checksumReply bytes.1 with
  | none => exact trivial
  | some crc =>
    dsimp only
    rw [ensuresOr_pure]
    intro hc
    have hv : (p.sent (.checksum (chunkAddress target.applicationStart index).toNat
        (chunk CHUNK_SIZE index firmware).length)).verified = index := h.verified
    rw [Progress.answered]
    change Matched firmware (index + 1) (if _ then _ else _)
    rw [hv, hr, hc, if_pos rfl]
    exact ⟨h.raw, h.written, rfl⟩

theorem verifyChunks_ensures (k index : ℕ) (h : Matched firmware index p)
    (hk : index + k = chunkCount firmware)
    (hsize : target.applicationStart.toNat + paddedBytes firmware < 2 ^ 32) :
    Keeps target firmware (verifyChunks target.applicationStart index
      ((List.range' index k).map (fun i => chunk CHUNK_SIZE i firmware))) p
      (fun _ q => Matched firmware (index + k) q) := by
  induction k generalizing index p with
  | zero => exact h
  | succ k ih =>
    have hi : index ≤ chunkCount firmware := by omega
    have hend : index * CHUNK_SIZE ≤ paddedBytes firmware := Nat.mul_le_mul_right _ hi
    rw [List.range'_succ, List.map_cons]
    unfold Keeps verifyChunks
    rw [ensuresOr_bind]
    refine (checksum_ensures h (chunkAddress_toNat (by omega))).mono ?_ fun _ _ h => h
    intro crc q hq
    by_cases hc : crc ≠ crc16Xmodem (chunk CHUNK_SIZE index firmware)
    · rw [if_pos hc]
      exact trivial
    · rw [if_neg hc]
      refine (ih (index + 1) (hq (not_not.1 hc)) (by omega)).mono ?_ fun _ _ h => h
      intro _ q hq
      rwa [Nat.add_right_comm] at hq

/-- A flash makes only allowed calls, and succeeds only with every chunk copied and verified. -/
theorem flash_ensures : Keeps target firmware (flash target firmware) .start
    (fun _ q => q.written.length = chunkCount firmware ∧ q.verified = chunkCount firmware ∧
      q.pending = some (.writeWord AIRCR.toNat AIRCR_SYSRESETREQ.toNat)) := by
  unfold Keeps flash
  by_cases hf : firmware = []
  · rw [if_pos hf]
    exact trivial
  rw [if_neg hf]
  change World.EnsuresOr _ (handshake >>= _) _ _ _
  rw [ensuresOr_bind]
  refine (handshake_ensures rfl).mono ?_ fun _ _ h => h
  rintro _ p rfl
  rw [ensuresOr_bind]
  refine (checkPart_ensures rfl rfl rfl).mono ?_ fun _ _ h => h
  rintro _ p ⟨hchecked, hraw, hwritten, hverified⟩
  have hcopied : Copied target firmware 0 p := ⟨hchecked, hraw, by rw [hwritten]; rfl, hverified⟩
  rw [ensuresOr_bind, chunks, List.range_eq_range']
  refine (writeChunks_ensures _ 0 hcopied (Nat.zero_add _)).mono ?_ fun _ _ h => h
  intro _ q hq
  obtain ⟨param, -, hsize⟩ := hq.checked.size
  have hflash := flashSizeOf_lt param
  rw [Nat.zero_add] at hq
  rw [ensuresOr_bind]
  refine (verifyChunks_ensures _ 0 ⟨hq.raw, hq.written, hq.verified⟩ (Nat.zero_add _)
    (by omega)).mono ?_ fun _ _ h => h
  intro _ q hq
  rw [Nat.zero_add] at hq
  rw [ensuresOr_bind, reset, writeWord, ensuresOr_bind]
  refine writeAll_ensures hq.raw ⟨rfl, rfl, hq.written, hq.verified⟩ (flush_ensures ?_)
  exact ⟨hq.written, hq.verified, rfl⟩

variable {tr : List (Sigma PortAnswer)} {result : Except SambaError FlashResult}

/-- Whatever the port sends back, every command may follow the ones before it, the copied ranges
tile the padded firmware, and success means that all of it was copied, verified and reset. -/
theorem flash_commands_allowed (h : Runs (flash target firmware).run tr result) :
    (∀ pre ev post, tr = pre ++ ev :: post →
      Allowed target firmware (pre.foldl (Progress.next firmware) .start) ev.1) ∧
    Tiled target firmware (tr.foldl (Progress.next firmware) .start) ∧
    ∀ flashed, result = .ok flashed →
      (tr.foldl (Progress.next firmware) .start).written.length = chunkCount firmware ∧
      (tr.foldl (Progress.next firmware) .start).verified = chunkCount firmware ∧
      (tr.foldl (Progress.next firmware) .start).pending =
        some (.writeWord AIRCR.toNat AIRCR_SYSRESETREQ.toNat) := by
  have hflash : (monitored target firmware).Ensures (flash target firmware).run .start
      (Outcome _ fun _ _ => True) := flash_ensures
  have hallowed : ∀ pre ev post, tr = pre ++ ev :: post →
      Allowed target firmware (pre.foldl (Progress.next firmware) .start) ev.1 := by
    rintro pre ev post rfl
    exact hflash.trace_permits h
  refine ⟨hallowed, Progress.tiled_foldl hallowed, ?_⟩
  rintro flashed rfl
  exact hflash.trace h

end Flash

def smallReply : Option MonitorCommand → Bytes
  | some (.readWord address) =>
    if address = DSU_DEVICE_ID.toNat then le32 0x10010305
    else if address = NVM_USER_ROW.toNat then le32 0xFFFFFFFF
    else le32 0x00031000
  | some (.copyFrom _) | some (.copy _ _) => COPY_ACK
  | some (.checksum _ _) => ascii "Z00006131#\n\r"
  | _ => [0x0A]

def smallMonitor (past : List (Sigma PortAnswer)) (call : PortCall) : PortAnswer call :=
  match call with
  | .readExact length => .ok
    ⟨resize length 0 (smallReply (past.foldl (Progress.next [1, 2, 3]) .start).pending),
      resize_length _ _ _⟩
  | .read => .error .timedOut
  | .writeAll _ | .flush | .discardInput => .ok ()

def smallFlash : List (Sigma PortAnswer) × Except SambaError FlashResult :=
  (flash ⟨0x2000⟩ [1, 2, 3]).run.interact smallMonitor []

theorem smallFlash_runs :
    Runs (flash ⟨0x2000⟩ [1, 2, 3]).run smallFlash.1 (.ok ⟨none, 0x1000⟩) := by
  have hresult : smallFlash.2 = .ok ⟨none, 0x1000⟩ := by decide +kernel
  rw [← hresult]
  exact runs_interact_nil _ _

theorem small_flash_verified :
    (smallFlash.1.foldl (Progress.next [1, 2, 3]) .start).verified = chunkCount [1, 2, 3] :=
  ((flash_commands_allowed smallFlash_runs).2.2 _ rfl).2.1

end Aldis.Samba

import Aldis.Flash.Katapult.Device
import Aldis.Lib.Calls

/-!
# Uploads past the address space

The address of a block is only checked when the block is written. The first block is at the
application start, whose address always fits, so an upload that runs past the address space has
written everything before the end of it.
-/

namespace Aldis.Katapult

open Interaction Attempt Octets Text

section Addresses

variable {target : KatapultTarget} {index : ℕ}

theorem blockAddress_eq_ok_iff {address : UInt32} : blockAddress target index = .ok address ↔
    address.toNat = target.applicationStart.toNat + index * target.blockSize := by
  constructor
  · exact blockAddress_eq_ok
  · intro h
    have hb : index * target.blockSize < 2 ^ 32 := by
      have ha := address.toNat_lt
      omega
    have hsum : target.applicationStart.toNat + index * target.blockSize < 2 ^ 32 :=
      h ▸ address.toNat_lt
    have hadd : target.applicationStart + UInt32.ofNat (index * target.blockSize) = address := by
      apply UInt32.toNat.inj
      rw [UInt32.toNat_add, UInt32.toNat_ofNat_of_lt' hb, h, Nat.mod_eq_of_lt hsum]
    simp only [blockAddress, hb, if_true, checkedAdd, UInt32.toNat_ofNat_of_lt' hb, hsum, hadd]

theorem blockAddress_eq_error (h : ∀ address, blockAddress target index ≠ .ok address) :
    blockAddress target index = .error .addressOverflow := by
  unfold blockAddress at h ⊢
  split_ifs with hb
  · simp only [hb, if_true] at h
    cases hc : checkedAdd target.applicationStart (UInt32.ofNat (index * target.blockSize)) with
    | some address =>
        rw [hc] at h
        exact absurd rfl (h address)
    | none => rfl
  · rfl

theorem exists_blockAddress_iff : (∃ address, blockAddress target index = .ok address) ↔
    target.applicationStart.toNat + index * target.blockSize < 2 ^ 32 := by
  constructor
  · rintro ⟨address, h⟩
    rw [← blockAddress_eq_ok h]
    exact address.toNat_lt
  · intro h
    refine ⟨UInt32.ofNat (target.applicationStart.toNat + index * target.blockSize), ?_⟩
    rw [blockAddress_eq_ok_iff, UInt32.toNat_ofNat_of_lt' h]

end Addresses

/-- The last block of the firmware starts inside the address space. -/
def Fits (target : KatapultTarget) (firmware : Bytes) : Prop :=
  target.applicationStart.toNat +
    (divCeil firmware.length target.blockSize - 1) * target.blockSize < 2 ^ 32

theorem fits_nil (target : KatapultTarget) : Fits target [] := by
  have hb := target.blockSize_pos
  have h0 : divCeil 0 target.blockSize = 0 := Nat.div_eq_of_lt (by omega)
  rw [Fits, List.length_nil, h0, Nat.zero_sub, Nat.zero_mul]
  exact target.applicationStart.toNat_lt

theorem Fits.blockAddress {target : KatapultTarget} {firmware : Bytes} (h : Fits target firmware)
    {index : ℕ} (hi : index < divCeil firmware.length target.blockSize) :
    ∃ address, blockAddress target index = .ok address := by
  rw [exists_blockAddress_iff]
  have hle : index * target.blockSize ≤
      (divCeil firmware.length target.blockSize - 1) * target.blockSize :=
    Nat.mul_le_mul_right _ (by omega)
  unfold Fits at h
  omega

section Safe

variable {ε α : Type} [Debug ε]

abbrev NeverOverflows (x : Session ε α) : Prop :=
  Makes (fun _ => True) (fun e => e ≠ .addressOverflow) x

theorem attempts_neverOverflows (c : Command) (request : Bytes) (n : ℕ) (last : Str) :
    NeverOverflows (attempts (ε := ε) c request n last) := by
  induction n generalizing last with
  | zero => exact (makes_throw _).2 (by simp)
  | succ n ih =>
      rw [attempts]
      refine Makes.bind (by simp) fun answer => ?_
      cases answer with
      | error e => exact ih _
      | ok reply =>
          dsimp only
          cases decodeResponse reply with
          | error e => exact ih _
          | ok response => exact (makes_ite _ _ _).2 ⟨fun _ => makes_pure _, fun _ => ih _⟩

theorem command_neverOverflows (c : Command) (payload : Bytes) :
    NeverOverflows (command (ε := ε) c payload) := by
  unfold command
  cases encodeCommand c payload with
  | error e => exact (makes_throw _).2 (by simp)
  | ok request => exact attempts_neverOverflows _ _ _ _

omit [Debug ε] in
theorem responseU32_neverOverflows (c : Command) (response : Bytes) :
    NeverOverflows (Attempt.ofExcept (responseU32 c response) : Session ε UInt32) := by
  refine (makes_ofExcept _).2 fun e he => ?_
  unfold responseU32 at he
  split_ifs at he
  rw [← Except.error.inj he]
  simp

theorem writeBlockAttempts_neverOverflows (address : UInt32) (block : Bytes) (n : ℕ)
    (actual : UInt32) : NeverOverflows (writeBlockAttempts (ε := ε) address block n actual) := by
  induction n generalizing actual with
  | zero => exact (makes_throw _).2 (by simp)
  | succ n ih =>
      rw [writeBlockAttempts]
      refine (command_neverOverflows _ _).bind fun response => ?_
      refine (responseU32_neverOverflows _ _).bind fun actual => ?_
      exact (makes_ite _ _ _).2 ⟨fun _ => makes_pure _, fun _ => ih _⟩

theorem readBlockAttempts_neverOverflows (address : UInt32) (blockSize n : ℕ) (actual : UInt32) :
    NeverOverflows (readBlockAttempts (ε := ε) address blockSize n actual) := by
  induction n generalizing actual with
  | zero => exact (makes_throw _).2 (by simp)
  | succ n ih =>
      rw [readBlockAttempts]
      refine (command_neverOverflows _ _).bind fun response => ?_
      refine (makes_ite _ _ _).2 ⟨fun _ => by simp, fun _ => ?_⟩
      refine (responseU32_neverOverflows _ _).bind fun actual => ?_
      exact (makes_ite _ _ _).2 ⟨fun _ => makes_pure _, fun _ => ih _⟩

omit [Debug ε] in
theorem blockAddress_neverOverflows {target : KatapultTarget} {index : ℕ}
    (h : ∃ address, blockAddress target index = .ok address) :
    NeverOverflows (Attempt.ofExcept (blockAddress target index) : Session ε UInt32) := by
  obtain ⟨address, ha⟩ := h
  rw [ha]
  exact (makes_ofExcept _).2 fun e he => by cases he

theorem writeBlocks_neverOverflows {target : KatapultTarget} (index : ℕ) (written : Bytes)
    (blocks : List Bytes)
    (h : ∀ i < blocks.length, ∃ address, blockAddress target (index + i) = .ok address) :
    NeverOverflows (writeBlocks (ε := ε) target index written blocks) := by
  induction blocks generalizing index written with
  | nil => exact makes_pure _
  | cons block rest ih =>
      rw [writeBlocks]
      refine (blockAddress_neverOverflows (h 0 (by simp))).bind fun address => ?_
      refine (writeBlockAttempts_neverOverflows _ _ _ _).bind fun _ => ?_
      apply ih
      intro i hi
      have hlater := h (i + 1) (by rw [List.length_cons]; omega)
      rwa [Nat.add_comm i, ← Nat.add_assoc] at hlater

theorem readBlocks_neverOverflows {target : KatapultTarget} (verified : Bytes) (indices : List ℕ)
    (h : ∀ i ∈ indices, ∃ address, blockAddress target i = .ok address) :
    NeverOverflows (readBlocks (ε := ε) target verified indices) := by
  induction indices generalizing verified with
  | nil => exact makes_pure _
  | cons index rest ih =>
      rw [readBlocks]
      refine (blockAddress_neverOverflows (h index (by simp))).bind fun address => ?_
      refine (readBlockAttempts_neverOverflows _ _ _ _).bind fun block => ?_
      exact ih _ fun i hi => h i (List.mem_cons_of_mem _ hi)

theorem upload_neverOverflows (sha1 : Bytes → Bytes) {target : KatapultTarget} {firmware : Bytes}
    (h : Fits target firmware) : NeverOverflows (upload (ε := ε) sha1 firmware target) := by
  rw [upload]
  have hwrite : ∀ i < (chunks target.blockSize firmware).length,
      ∃ address, blockAddress target (0 + i) = .ok address := by
    intro i hi
    rw [Nat.zero_add]
    exact h.blockAddress (by rwa [chunks_length] at hi)
  refine (writeBlocks_neverOverflows _ _ _ hwrite).bind fun written => ?_
  refine (command_neverOverflows _ _).bind fun response => ?_
  refine (responseU32_neverOverflows _ _).bind fun pages => ?_
  have hread : ∀ i ∈ List.range (divCeil firmware.length target.blockSize),
      ∃ address, blockAddress target i = .ok address :=
    fun i hi => h.blockAddress (List.mem_range.1 hi)
  refine (readBlocks_neverOverflows _ _ hread).bind fun verified => ?_
  exact (makes_ite _ _ _).2 ⟨fun _ => by simp, fun _ => makes_pure _⟩

end Safe

def IsSendBlock (request : Bytes) : Prop :=
  ∃ payload, parseRequest request = some (.sendBlock, payload)

section Written

variable {ε : Type} [Debug ε] {target : KatapultTarget} {firmware : Bytes}
  {tr : List (Sigma (Exchange ε))}

theorem encodeCommand_block (c : Command) (address : UInt32) {block : Bytes}
    (hb : block.length = target.blockSize) :
    ∃ request, encodeCommand c (le32 address ++ block) = .ok request := by
  have hs := target.supported
  simp only [SUPPORTED_BLOCK_SIZES, List.mem_cons, List.not_mem_nil, or_false] at hs
  have hl : (le32 address ++ block).length = 4 + target.blockSize := by
    rw [List.length_append, le32_length, hb]
  have haligned : ¬ (le32 address ++ block).length % 4 ≠ 0 := by
    rw [hl]
    omega
  have hmax : ¬ MAX_PAYLOAD_BYTES < (le32 address ++ block).length := by
    rw [hl]
    change ¬ 1020 < _
    omega
  unfold encodeCommand
  rw [if_neg haligned, if_neg hmax]
  exact ⟨_, rfl⟩

theorem paddedBlock_length {block : Bytes} {size : ℕ} (h : block.length ≤ size) :
    (paddedBlock block size).length = size := by
  rw [paddedBlock, List.length_append, List.length_replicate]
  omega

/-- A command ends at the first reply that is valid and echoes it. -/
theorem command_acknowledged {c : Command} {payload request data : Bytes}
    (he : encodeCommand c payload = .ok request) (ha : data.length % 4 = 0)
    (hl : data.length + 4 ≤ MAX_PAYLOAD_BYTES) :
    Runs (command (ε := ε) c payload).run [⟨request, .ok (encodeResponse c data)⟩] (.ok data) := by
  rw [command, he]
  change Runs (attempts c request MAX_ATTEMPTS _).run _ _
  rw [MAX_ATTEMPTS, attempts, runs_perform_bind_iff]
  refine ⟨.ok (encodeResponse c data), [], rfl, ?_⟩
  dsimp only
  rw [decodeResponse_encodeResponse ha hl]
  dsimp only
  rw [if_pos rfl]
  exact .pure _

theorem writeBlock_acknowledged (address : UInt32) {block : Bytes}
    (hb : block.length = target.blockSize) :
    ∃ ev : Sigma (Exchange ε), Runs (writeBlock address block).run [ev] (.ok ()) := by
  obtain ⟨request, he⟩ : ∃ request,
      encodeCommand .sendBlock (le32 address ++ block) = .ok request :=
    encodeCommand_block .sendBlock address hb
  refine ⟨⟨request, .ok (encodeResponse .sendBlock (le32 address))⟩, ?_⟩
  have hcommand : Runs (command (ε := ε) .sendBlock (le32 address ++ block)).run
      [⟨request, .ok (encodeResponse .sendBlock (le32 address))⟩] (.ok (le32 address)) := by
    apply command_acknowledged he
    · rw [le32_length]
    · rw [le32_length]
      decide
  rw [writeBlock, BLOCK_ATTEMPTS, writeBlockAttempts, runs_attempt_bind_iff]
  refine .inr ⟨le32 address, _, [], (List.append_nil _).symm, hcommand, ?_⟩
  have hecho : responseU32 .sendBlock (le32 address) = .ok address := by
    rw [responseU32, if_neg (by simp)]
    exact congrArg Except.ok (by simpa using fromLe32_le32 address [])
  rw [hecho, runs_attempt_bind_iff]
  refine .inr ⟨address, [], [], rfl, .pure _, ?_⟩
  rw [if_pos rfl]
  exact .pure _

/-- A device that acknowledges every block lets the upload run into the overflow. -/
theorem writeBlocks_overflow (index : ℕ) (written : Bytes) (blocks : List Bytes)
    (hb : ∀ block ∈ blocks, block.length ≤ target.blockSize)
    (h : ∃ i < blocks.length, ∀ address, blockAddress target (index + i) ≠ .ok address) :
    ∃ tr : List (Sigma (Exchange ε)),
      Runs (writeBlocks target index written blocks).run tr (.error .addressOverflow) := by
  induction blocks generalizing index written with
  | nil =>
      obtain ⟨i, hi, -⟩ := h
      exact absurd hi (Nat.not_lt_zero i)
  | cons block rest ih =>
      rw [writeBlocks]
      by_cases ha : ∃ address, blockAddress target index = .ok address
      · obtain ⟨address, ha⟩ := ha
        obtain ⟨i, hi, hover⟩ := h
        obtain ⟨j, rfl⟩ : ∃ j, i = j + 1 := by
          cases i with
          | zero => exact absurd ha (hover address)
          | succ j => exact ⟨j, rfl⟩
        have hlen := paddedBlock_length (hb block (by simp))
        obtain ⟨ev, hev⟩ := writeBlock_acknowledged (ε := ε) address hlen
        obtain ⟨tr, htr⟩ := ih (index + 1) (written ++ paddedBlock block target.blockSize)
          (fun block hm => hb block (List.mem_cons_of_mem _ hm))
          ⟨j, by simpa using hi, by rwa [Nat.add_assoc, Nat.add_comm 1]⟩
        refine ⟨ev :: tr, runs_attempt_bind_iff.2 (.inr ⟨address, [], _, rfl, ?_, ?_⟩)⟩
        · rw [ha]
          exact .pure _
        · exact runs_attempt_bind_iff.2 (.inr ⟨(), [ev], tr, rfl, hev, htr⟩)
      · have herror : blockAddress target index = .error .addressOverflow :=
          blockAddress_eq_error fun address ha' => ha ⟨address, ha'⟩
        refine ⟨[], runs_attempt_bind_iff.2 (.inl ⟨_, rfl, ?_⟩)⟩
        rw [herror]
        exact .pure _

theorem command_sends {c : Command} {payload request : Bytes} {r : Except SessionError Bytes}
    (he : encodeCommand c payload = .ok request) (h : Runs (command c payload).run tr r) :
    ∃ answer post, tr = ⟨request, answer⟩ :: post := by
  rw [command, he] at h
  change Runs (attempts c request MAX_ATTEMPTS _).run _ _ at h
  rw [MAX_ATTEMPTS, attempts, runs_perform_bind_iff] at h
  obtain ⟨answer, post, rfl, -⟩ := h
  exact ⟨answer, post, rfl⟩

/-- The first block is sent before anything else can fail. -/
theorem writeBlocks_sends {written block : Bytes} {rest : List Bytes}
    {r : Except SessionError Bytes} (hb : block.length ≤ target.blockSize)
    (h : Runs (writeBlocks target 0 written (block :: rest)).run tr r) :
    ∃ ev ∈ tr, IsSendBlock ev.1 := by
  have hfirst : ∃ address, blockAddress target 0 = .ok address := by
    rw [exists_blockAddress_iff, Nat.zero_mul]
    exact target.applicationStart.toNat_lt
  obtain ⟨address, ha⟩ := hfirst
  obtain ⟨request, he⟩ : ∃ request, encodeCommand .sendBlock
      (le32 address ++ paddedBlock block target.blockSize) = .ok request :=
    encodeCommand_block .sendBlock address (paddedBlock_length hb)
  have hcommand : ∀ {tr : List (Sigma (Exchange ε))} {r}, Runs (command .sendBlock
      (le32 address ++ paddedBlock block target.blockSize)).run tr r →
      ∃ ev ∈ tr, IsSendBlock ev.1 := by
    intro tr r h
    obtain ⟨answer, post, rfl⟩ := command_sends he h
    exact ⟨_, List.mem_cons_self, _, parseRequest_of_encodeCommand he⟩
  have hwrite : ∀ {tr : List (Sigma (Exchange ε))} {r},
      Runs (writeBlock address (paddedBlock block target.blockSize)).run tr r →
      ∃ ev ∈ tr, IsSendBlock ev.1 := by
    intro tr r h
    rw [writeBlock, BLOCK_ATTEMPTS, writeBlockAttempts] at h
    rcases runs_attempt_bind_iff.1 h with ⟨e, -, he'⟩ | ⟨_, pre, post, rfl, hc, -⟩
    · exact hcommand he'
    · obtain ⟨ev, hev, hs⟩ := hcommand hc
      exact ⟨ev, List.mem_append_left _ hev, hs⟩
  rw [writeBlocks, ha] at h
  rcases runs_attempt_bind_iff.1 h with ⟨e, -, he'⟩ | ⟨address', pre, post, rfl, hp, hrest⟩
  · cases (runs_pure_iff.1 he').2
  · obtain rfl : address' = address := Except.ok.inj (runs_pure_iff.1 hp).2
    rcases runs_attempt_bind_iff.1 hrest with ⟨e, -, he'⟩ | ⟨_, pre', post', rfl, hw, -⟩
    · obtain ⟨ev, hev, hs⟩ := hwrite he'
      exact ⟨ev, List.mem_append_right _ hev, hs⟩
    · obtain ⟨ev, hev, hs⟩ := hwrite hw
      exact ⟨ev, List.mem_append_right _ (List.mem_append_left _ hev), hs⟩

variable {sha1 : Bytes → Bytes}

theorem upload_sends {r : Except SessionError UploadResult} (hf : firmware ≠ [])
    (h : Runs (upload sha1 firmware target).run tr r) : ∃ ev ∈ tr, IsSendBlock ev.1 := by
  cases hc : chunks target.blockSize firmware with
  | nil =>
      have hn := chunks_length target.blockSize firmware
      have hle := divCeil_mul_le target.blockSize_pos firmware.length
      rw [hc, List.length_nil] at hn
      rw [← hn, Nat.zero_mul, Nat.le_zero, List.length_eq_zero_iff] at hle
      exact absurd hle hf
  | cons block rest =>
      have hb : block.length ≤ target.blockSize := mem_chunks_length (by rw [hc]; simp)
      rw [upload, hc] at h
      rcases runs_attempt_bind_iff.1 h with ⟨e, -, he⟩ | ⟨_, pre, post, rfl, hw, -⟩
      · exact writeBlocks_sends hb he
      · obtain ⟨ev, hev, hs⟩ := writeBlocks_sends hb hw
        exact ⟨ev, List.mem_append_left _ hev, hs⟩

theorem upload_overflows (h : ¬ Fits target firmware) :
    ∃ tr : List (Sigma (Exchange ε)),
      Runs (upload sha1 firmware target).run tr (.error .addressOverflow) := by
  have hcount : 0 < divCeil firmware.length target.blockSize := by
    have hle := divCeil_mul_le target.blockSize_pos firmware.length
    by_contra h0
    rw [Nat.eq_zero_of_not_pos h0, Nat.zero_mul, Nat.le_zero, List.length_eq_zero_iff] at hle
    exact h (hle ▸ fits_nil target)
  have hlast : ∃ i < (chunks target.blockSize firmware).length,
      ∀ address, blockAddress target (0 + i) ≠ .ok address := by
    refine ⟨divCeil firmware.length target.blockSize - 1, ?_, fun address ha => h ?_⟩
    · rw [chunks_length]
      omega
    · exact exists_blockAddress_iff.1 ⟨address, by rwa [Nat.zero_add] at ha⟩
  obtain ⟨tr, htr⟩ := writeBlocks_overflow (ε := ε) 0 [] _ (fun _ => mem_chunks_length) hlast
  rw [upload]
  exact ⟨tr, runs_attempt_bind_iff.2 (.inl ⟨_, rfl, htr⟩)⟩

/-- No upload that fails with an address overflow has sent a block exactly when the last block
starts inside the address space, and then no upload fails that way. -/
theorem overflow_writes_nothing_iff (ε : Type) [Debug ε] (sha1 : Bytes → Bytes)
    (target : KatapultTarget) (firmware : Bytes) :
    (∀ tr : List (Sigma (Exchange ε)),
        Runs (upload sha1 firmware target).run tr (.error .addressOverflow) →
        ∀ ev ∈ tr, ¬ IsSendBlock ev.1) ↔ Fits target firmware := by
  constructor
  · intro h
    by_contra hn
    obtain ⟨tr, htr⟩ : ∃ tr : List (Sigma (Exchange ε)),
        Runs (upload sha1 firmware target).run tr (.error .addressOverflow) :=
      upload_overflows hn
    have hf : firmware ≠ [] := by
      rintro rfl
      exact hn (fits_nil target)
    obtain ⟨ev, hev, hs⟩ := upload_sends hf htr
    exact h tr htr ev hev hs
  · intro h tr htr
    have hnever := ((upload_neverOverflows (ε := ε) sha1 h).calls htr).2
    exact absurd rfl hnever

end Written

def topDevice : Device := { smallDevice with applicationStart := 0xFFFFFFC0 }

theorem smallest_supported : 64 ∈ SUPPORTED_BLOCK_SIZES := List.mem_cons_self

def overflowingUpload : List (Sigma (Exchange Unit)) × Except SessionError UploadResult :=
  (upload id (List.replicate 65 0) ⟨0xFFFFFFC0, 64, smallest_supported⟩).run.interact
    (topDevice.direct ()) []

/-- The first of the two blocks is written before the second one overflows. -/
theorem overflow_after_write : ¬ ∀ tr : List (Sigma (Exchange Unit)),
    Runs (upload id (List.replicate 65 0) ⟨0xFFFFFFC0, 64, by decide⟩).run tr
      (.error .addressOverflow) → ∀ ev ∈ tr, ¬ IsSendBlock ev.1 := by
  intro h
  have hresult : overflowingUpload.2 = .error .addressOverflow := by decide +kernel
  have hruns := runs_interact_nil (topDevice.direct ())
    (upload id (List.replicate 65 0) ⟨0xFFFFFFC0, 64, by decide⟩).run
  have hwrite : ∃ ev ∈ overflowingUpload.1,
      (parseRequest ev.1).map Prod.fst = some .sendBlock := by decide +kernel
  obtain ⟨ev, hev, hs⟩ := hwrite
  obtain ⟨⟨c, payload⟩, hp, rfl⟩ := Option.map_eq_some_iff.1 hs
  exact h _ (hresult ▸ hruns) ev hev ⟨payload, hp⟩

end Aldis.Katapult

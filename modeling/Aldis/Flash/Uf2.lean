import Aldis.Lib.Octets
import Aldis.Lib.Program

/-!
# UF2 images of the RP2040

Klipper's artifact for PicoBoot: numbered blocks of 512 bytes, each with one page of the flash and
the address it belongs to. Decoding puts the pages together and refuses all but one contiguous
image of the main flash.
-/

namespace Aldis.PicoBoot

open Interaction Octets

structure Uf2Image where
  address : UInt32
  bytes : Bytes
  deriving DecidableEq

inductive Uf2Error where
  | invalidLength
  | invalidBlock
  | nonContiguous
  deriving DecidableEq

def BLOCK_SIZE : ℕ := 512
def MAGIC_START_0 : UInt32 := 0x0a324655
def MAGIC_START_1 : UInt32 := 0x9e5d5157
def MAGIC_END : UInt32 := 0x0ab16f30
def FLAG_FAMILY_ID_PRESENT : UInt32 := 0x00002000
def RP2040_FAMILY_ID : UInt32 := 0xe48bff56
def PAGE_SIZE : ℕ := 256
def FLASH_START : UInt32 := 0x10000000

def word (block : Bytes) (offset : ℕ) : UInt32 := fromLe32 (block.drop offset)

def payload (block : Bytes) (size : ℕ) : Bytes := (block.drop 32).take size

abbrev Decoding := Option UInt32 × Bytes

/-- One turn of the loop of `decode_uf2`, whose sum of addresses wraps. -/
def decodeBlock (blockCount : ℕ) (decoding : Decoding) (entry : Bytes × ℕ) :
    Except Uf2Error Decoding :=
  let (start, image) := decoding
  let (block, index) := entry
  let address := word block 12
  let payloadSize := (word block 16).toNat
  if word block 0 ≠ MAGIC_START_0 ∨ word block 4 ≠ MAGIC_START_1 ∨ word block 508 ≠ MAGIC_END ∨
      word block 8 &&& FLAG_FAMILY_ID_PRESENT = 0 ∨ word block 28 ≠ RP2040_FAMILY_ID ∨
      payloadSize ≠ PAGE_SIZE ∨ word block 20 ≠ UInt32.ofNat index ∨
      word block 24 ≠ UInt32.ofNat blockCount ∨ address < FLASH_START ∨
      address % UInt32.ofNat PAGE_SIZE ≠ 0 then
    .error .invalidBlock
  else match start with
    | some firstAddress =>
      if address ≠ firstAddress + UInt32.ofNat image.length then .error .nonContiguous
      else .ok (start, image ++ payload block payloadSize)
    | none => .ok (some address, image ++ payload block payloadSize)

def decodeUf2 (firmware : Bytes) : Except Uf2Error Uf2Image :=
  if firmware = [] ∨ firmware.length % BLOCK_SIZE ≠ 0 then .error .invalidLength
  else do
    let blocks := chunks BLOCK_SIZE firmware
    let (start, image) ← blocks.zipIdx.foldlM (decodeBlock blocks.length) (none, [])
    match start with
    | some address => .ok ⟨address, image⟩
    -- The first block sets it, and there is one.
    | none => .error .invalidLength

/-- Block `index` of `count`, with the page at `address`. -/
structure IsBlock (block : Bytes) (index : ℕ) (count : UInt32) (address : ℕ) : Prop where
  magicStart0 : word block 0 = MAGIC_START_0
  magicStart1 : word block 4 = MAGIC_START_1
  magicEnd : word block 508 = MAGIC_END
  familyPresent : word block 8 &&& FLAG_FAMILY_ID_PRESENT ≠ 0
  family : word block 28 = RP2040_FAMILY_ID
  payloadSize : (word block 16).toNat = PAGE_SIZE
  index : (word block 20).toNat = index
  count : word block 24 = count
  address : (word block 12).toNat = address

/-- The blocks at the beginning of an image that starts at `base`. -/
structure Blocks (blocks : List Bytes) (count : UInt32) (base : UInt32) : Prop where
  start : FLASH_START ≤ base
  aligned : base.toNat % PAGE_SIZE = 0
  block : ∀ i block, blocks[i]? = some block →
    IsBlock block i count (base.toNat + PAGE_SIZE * i)

section Step

variable {blocks : List Bytes} {block image : Bytes} {index n : ℕ} {base : UInt32}
  {start : Option UInt32} {s : Decoding}

theorem aligned_iff (address : UInt32) :
    address % UInt32.ofNat PAGE_SIZE = 0 ↔ address.toNat % PAGE_SIZE = 0 := by
  rw [← UInt32.toNat_inj, UInt32.toNat_mod]
  exact Iff.rfl

/-- A turn accepts a well-formed block of the main flash whose page continues the image. -/
theorem decodeBlock_eq_ok_iff : decodeBlock n (start, image) (block, index) = .ok s ↔
    IsBlock block (word block 20).toNat (UInt32.ofNat n) (word block 12).toNat ∧
    word block 20 = UInt32.ofNat index ∧ FLASH_START ≤ word block 12 ∧
    (word block 12).toNat % PAGE_SIZE = 0 ∧
    (∀ base, start = some base → word block 12 = base + UInt32.ofNat image.length) ∧
    s = (some (start.getD (word block 12)), image ++ payload block PAGE_SIZE) := by
  unfold decodeBlock
  dsimp only
  constructor
  · intro h
    split_ifs at h with hbad
    simp only [not_or, ne_eq, not_not, UInt32.not_lt] at hbad
    obtain ⟨h0, h4, h508, hflag, h28, hsize, hindex, hcount, hstart, hpage⟩ := hbad
    rw [hsize] at h
    have hblock : IsBlock block (word block 20).toNat (UInt32.ofNat n) (word block 12).toNat :=
      ⟨h0, h4, h508, hflag, h28, hsize, rfl, hcount, rfl⟩
    cases start with
    | none =>
        obtain rfl := Except.ok.inj h
        exact ⟨hblock, hindex, hstart, (aligned_iff _).1 hpage,
          fun _ hb => (Option.some_ne_none _ hb.symm).elim, rfl⟩
    | some first =>
        dsimp only at h
        split_ifs at h with hnext
        obtain rfl := Except.ok.inj h
        refine ⟨hblock, hindex, hstart, (aligned_iff _).1 hpage, ?_, rfl⟩
        intro base hb
        obtain rfl := Option.some.inj hb
        exact not_not.1 hnext
  · rintro ⟨hblock, hindex, hstart, hpage, hnext, rfl⟩
    rw [if_neg, hblock.payloadSize]
    · cases start with
      | none => rfl
      | some first =>
          dsimp only
          rw [if_neg (not_not.2 (hnext first rfl))]
          rfl
    · simp only [not_or, ne_eq, not_not, UInt32.not_lt]
      exact ⟨hblock.magicStart0, hblock.magicStart1, hblock.magicEnd, hblock.familyPresent,
        hblock.family, hblock.payloadSize, hindex, hblock.count, hstart, (aligned_iff _).2 hpage⟩

/-- An address that stays in the flash did not wrap. -/
theorem toNat_next (ha : base.toNat % PAGE_SIZE = 0)
    (hlast : index = 0 ∨ base.toNat + PAGE_SIZE * (index - 1) < 2 ^ 32)
    (hn : FLASH_START ≤ base + UInt32.ofNat (PAGE_SIZE * index)) :
    (base + UInt32.ofNat (PAGE_SIZE * index)).toNat = base.toNat + PAGE_SIZE * index := by
  have hb := base.toNat_lt
  rw [UInt32.le_iff_toNat_le] at hn
  rw [UInt32.toNat_add, UInt32.toNat_ofNat'] at hn ⊢
  change 0x10000000 ≤ _ at hn
  unfold PAGE_SIZE at *
  omega

theorem blocks_concat_iff {count : UInt32} : Blocks (blocks ++ [block]) count base ↔
    Blocks blocks count base ∧
    IsBlock block blocks.length count (base.toNat + PAGE_SIZE * blocks.length) := by
  constructor
  · intro h
    refine ⟨⟨h.start, h.aligned, ?_⟩, h.block _ _ List.getElem?_concat_length⟩
    intro i b hb
    have hi := (List.getElem?_eq_some_iff.1 hb).1
    exact h.block i b (by rw [List.getElem?_append_left hi, hb])
  · rintro ⟨h, hlast⟩
    refine ⟨h.start, h.aligned, ?_⟩
    intro i b hb
    rcases Nat.lt_or_ge i blocks.length with hi | hi
    · exact h.block i b (by rwa [List.getElem?_append_left hi] at hb)
    · have hlen := (List.getElem?_eq_some_iff.1 hb).1
      obtain rfl : i = blocks.length := by
        rw [List.length_append, List.length_singleton] at hlen
        omega
      rw [List.getElem?_concat_length] at hb
      rwa [← Option.some.inj hb]

theorem Blocks.lt_size (h : Blocks blocks (UInt32.ofNat n) base) (hl : index < blocks.length) :
    base.toNat + PAGE_SIZE * index < 2 ^ 32 := by
  have hblock := h.block index _ (List.getElem?_eq_getElem hl)
  rw [← hblock.address]
  exact UInt32.toNat_lt _

theorem Blocks.length_lt (h : Blocks blocks (UInt32.ofNat n) base) : blocks.length < 2 ^ 32 := by
  by_contra hlen
  have hlt : base.toNat + PAGE_SIZE * (blocks.length - 1) < 2 ^ 32 := h.lt_size (by omega)
  unfold PAGE_SIZE at hlt
  omega

theorem flatMap_payload_length {blocks : List Bytes}
    (h : ∀ block ∈ blocks, block.length = BLOCK_SIZE) :
    (blocks.flatMap fun block => payload block PAGE_SIZE).length = PAGE_SIZE * blocks.length := by
  induction blocks with
  | nil => rfl
  | cons block blocks ih =>
      obtain ⟨hb, hbs⟩ := List.forall_mem_cons.1 h
      rw [List.flatMap_cons, List.length_append, ih hbs, payload, List.length_take,
        List.length_drop, hb, List.length_cons]
      unfold BLOCK_SIZE PAGE_SIZE
      omega

/-- A block that continues an image is accepted. -/
theorem accepts_block
    (h : IsBlock block index (UInt32.ofNat n) (base.toNat + PAGE_SIZE * index))
    (hs : FLASH_START ≤ base) (ha : base.toNat % PAGE_SIZE = 0)
    (hlen : image.length = PAGE_SIZE * index) (hfirst : start = none → index = 0)
    (hstart : ∀ first, start = some first → first = base) :
    decodeBlock n (start, image) (block, index) =
      .ok (some base, image ++ payload block PAGE_SIZE) := by
  have haddress : word block 12 = base + UInt32.ofNat (PAGE_SIZE * index) := by
    rw [← UInt32.toNat_inj, h.address, UInt32.toNat_add, UInt32.toNat_ofNat']
    have hlt := UInt32.toNat_lt (word block 12)
    rw [h.address] at hlt
    omega
  rw [decodeBlock_eq_ok_iff]
  refine ⟨?_, ?_, ?_, ?_, ?_, ?_⟩
  · rw [h.index, h.address]
    exact h
  · rw [← h.index, UInt32.ofNat_toNat]
  · rw [UInt32.le_iff_toNat_le] at hs ⊢
    rw [h.address]
    omega
  · rw [h.address]
    unfold PAGE_SIZE at *
    omega
  · intro first hf
    rw [hstart first hf, hlen, haddress]
  · cases start with
    | none =>
        rw [Option.getD_none, haddress, hfirst rfl]
        simp
    | some first => rw [Option.getD_some, hstart first rfl]

/-- The loop accepts exactly the blocks of one contiguous image. -/
theorem decodeBlocks_eq_ok_iff (hl : ∀ block ∈ blocks, block.length = BLOCK_SIZE) :
    blocks.zipIdx.foldlM (decodeBlock n) (none, []) = .ok s ↔
      (blocks = [] ∧ s = (none, [])) ∨ (blocks ≠ [] ∧ ∃ base,
        Blocks blocks (UInt32.ofNat n) base ∧
        s = (some base, blocks.flatMap fun block => payload block PAGE_SIZE)) := by
  induction blocks using List.reverseRecOn generalizing s with
  | nil =>
      change Except.ok (none, []) = Except.ok s ↔ _
      rw [Except.ok.injEq, eq_comm]
      simp
  | append_singleton blocks block ih =>
      have hbefore : ∀ b ∈ blocks, b.length = BLOCK_SIZE := fun b hb => hl b (by simp [hb])
      have hlen := flatMap_payload_length hbefore
      rw [List.zipIdx_append, Nat.zero_add, List.zipIdx_singleton, foldlM_concat_eq_ok_iff]
      constructor
      · rintro ⟨s₁, h₁, h₂⟩
        refine .inr ⟨List.concat_ne_nil block blocks, ?_⟩
        rcases (ih hbefore).1 h₁ with ⟨rfl, rfl⟩ | ⟨hne, base, hblocks, rfl⟩
        · obtain ⟨hblock, hindex, hstart, hpage, -, rfl⟩ := decodeBlock_eq_ok_iff.1 h₂
          refine ⟨word block 12, blocks_concat_iff.2 ⟨⟨hstart, hpage, ?_⟩, ?_⟩, ?_⟩
          · intro i b hb
            cases hb
          · rw [hindex] at hblock
            exact hblock
          · simp
        · obtain ⟨hblock, hindex, hstart, hpage, hnext, rfl⟩ := decodeBlock_eq_ok_iff.1 h₂
          refine ⟨base, blocks_concat_iff.2 ⟨hblocks, ?_⟩, by simp⟩
          rw [hnext base rfl, hlen] at hstart
          have hlast : base.toNat + PAGE_SIZE * (blocks.length - 1) < 2 ^ 32 :=
            hblocks.lt_size (Nat.sub_one_lt (mt List.length_eq_zero_iff.1 hne))
          have hnumber := hblocks.length_lt
          rw [hindex, UInt32.toNat_ofNat_of_lt' hnumber, hnext base rfl, hlen,
            toNat_next hblocks.aligned (.inr hlast) hstart] at hblock
          exact hblock
      · rintro (⟨hnil, -⟩ | ⟨-, base, hblocks, rfl⟩)
        · exact absurd hnil (List.concat_ne_nil block blocks)
        obtain ⟨hfirst, hblock⟩ := blocks_concat_iff.1 hblocks
        cases blocks with
        | nil =>
            refine ⟨(none, []), (ih hbefore).2 (.inl ⟨rfl, rfl⟩), ?_⟩
            have hnone : ([] : Bytes).length = PAGE_SIZE * ([] : List Bytes).length := rfl
            rw [accepts_block hblock hblocks.start hblocks.aligned hnone (fun _ => rfl)
              fun _ hf => (Option.some_ne_none _ hf.symm).elim]
            simp
        | cons b bs =>
            refine ⟨_, (ih hbefore).2 (.inr ⟨List.cons_ne_nil b bs, base, hfirst, rfl⟩), ?_⟩
            rw [accepts_block hblock hblocks.start hblocks.aligned hlen
              (fun hf => (Option.some_ne_none _ hf).elim) fun _ hf => (Option.some.inj hf).symm]
            simp

end Step

/-- A firmware that is one contiguous image: the blocks it consists of, from the image's address
on, and the pages in them. -/
structure IsImage (firmware : Bytes) (image : Uf2Image) (blocks : List Bytes) : Prop where
  blocks_ne_nil : blocks ≠ []
  firmware : firmware = blocks.flatten
  length : ∀ block ∈ blocks, block.length = BLOCK_SIZE
  number_lt : blocks.length < 2 ^ 32
  contiguous : Blocks blocks (UInt32.ofNat blocks.length) image.address
  bytes : image.bytes = blocks.flatMap fun block => payload block PAGE_SIZE

section Image

variable {firmware : Bytes} {image : Uf2Image} {blocks : List Bytes}

theorem IsImage.chunks_eq (h : IsImage firmware image blocks) :
    chunks BLOCK_SIZE firmware = blocks := by
  rw [h.firmware, chunks_flatten (by decide : 0 < BLOCK_SIZE) h.length]

theorem IsImage.firmware_length (h : IsImage firmware image blocks) :
    firmware.length = blocks.length * BLOCK_SIZE := by
  rw [h.firmware, length_flatten h.length]

theorem IsImage.bytes_length (h : IsImage firmware image blocks) :
    image.bytes.length = PAGE_SIZE * blocks.length := by
  rw [h.bytes, flatMap_payload_length h.length]

end Image

theorem decodeUf2_eq_ok_iff {firmware : Bytes} {image : Uf2Image} :
    decodeUf2 firmware = .ok image ↔ ∃ blocks, IsImage firmware image blocks := by
  have hsize : 0 < BLOCK_SIZE := by decide
  unfold decodeUf2
  constructor
  · intro h
    split_ifs at h with hempty
    rw [not_or, not_not] at hempty
    dsimp only at h
    have hflat := flatten_chunks hsize firmware
    have hl : ∀ block ∈ chunks BLOCK_SIZE firmware, block.length = BLOCK_SIZE :=
      fun block => length_of_mem_chunks hsize hempty.2
    refine ⟨chunks BLOCK_SIZE firmware, ?_⟩
    cases hr : (chunks BLOCK_SIZE firmware).zipIdx.foldlM
        (decodeBlock (chunks BLOCK_SIZE firmware).length) (none, []) with
    | error e =>
        rw [hr] at h
        cases h
    | ok s =>
        rw [hr] at h
        rcases (decodeBlocks_eq_ok_iff hl).1 hr with ⟨hnil, -⟩ | ⟨hne, base, hblocks, rfl⟩
        · rw [hnil] at hflat
          exact absurd hflat.symm hempty.1
        · obtain rfl := Except.ok.inj h
          exact ⟨hne, hflat.symm, hl, hblocks.length_lt, hblocks, rfl⟩
  · rintro ⟨blocks, h⟩
    obtain ⟨address, bytes⟩ := image
    have hpos := List.length_pos_of_ne_nil h.blocks_ne_nil
    have hempty : ¬ (firmware = [] ∨ firmware.length % BLOCK_SIZE ≠ 0) := by
      rw [not_or, not_not, ← List.length_eq_zero_iff, h.firmware_length, Nat.mul_mod_left]
      exact ⟨(Nat.mul_pos hpos hsize).ne', rfl⟩
    have hrun := (decodeBlocks_eq_ok_iff (n := blocks.length) h.length).2
      (.inr ⟨h.blocks_ne_nil, address, h.contiguous, rfl⟩)
    have hbytes : bytes = blocks.flatMap fun block => payload block PAGE_SIZE := h.bytes
    rw [if_neg hempty, h.chunks_eq]
    dsimp only
    rw [hrun, hbytes]
    rfl

section Encode

/-- A block as it is written. Its padding is the writer's choice, as are the other flags. -/
def encodeBlock (flags : UInt32) (padding : Bytes) (index count : ℕ) (address : UInt32)
    (page : Bytes) : Bytes :=
  [MAGIC_START_0, MAGIC_START_1, flags, address, UInt32.ofNat PAGE_SIZE, UInt32.ofNat index,
    UInt32.ofNat count, RP2040_FAMILY_ID].flatMap le32 ++ page ++ padding ++ le32 MAGIC_END

def encodeUf2 (flags : UInt32) (padding : ℕ → Bytes) (image : Uf2Image) : Bytes :=
  let pages := chunks PAGE_SIZE image.bytes
  (pages.mapIdx fun index page => encodeBlock flags (padding index) index pages.length
    (image.address + UInt32.ofNat (PAGE_SIZE * index)) page).flatten

variable {flags : UInt32} {padding page : Bytes} {index count : ℕ} {address : UInt32}

theorem word_of_words {words : List UInt32} {i : ℕ} {w : UInt32} (h : words[i]? = some w)
    (rest : Bytes) : word (words.flatMap le32 ++ rest) (4 * i) = w := by
  induction words generalizing i with
  | nil => cases h
  | cons v words ih =>
      rw [List.flatMap_cons, List.append_assoc]
      cases i with
      | zero =>
          obtain rfl := Option.some.inj h
          exact fromLe32_le32 v _
      | succ i =>
          have hi : words[i]? = some w := h
          have hdrop : (le32 v ++ (words.flatMap le32 ++ rest)).drop (4 * (i + 1)) =
              (words.flatMap le32 ++ rest).drop (4 * i) := by
            rw [Nat.mul_succ, Nat.add_comm, ← List.drop_drop]
            rfl
          rw [word, hdrop]
          exact ih hi

theorem encodeBlock_length (hpage : page.length = PAGE_SIZE) (hpad : padding.length = 220) :
    (encodeBlock flags padding index count address page).length = BLOCK_SIZE := by
  rw [encodeBlock, List.length_append, List.length_append, List.length_append, hpage, hpad]
  rfl

theorem payload_encodeBlock (hpage : page.length = PAGE_SIZE) :
    payload (encodeBlock flags padding index count address page) PAGE_SIZE = page := by
  rw [payload, encodeBlock, List.append_assoc, List.append_assoc]
  change List.take PAGE_SIZE (page ++ (padding ++ le32 MAGIC_END)) = page
  rw [← hpage, List.take_left]

theorem isBlock_encodeBlock (hflags : flags &&& FLAG_FAMILY_ID_PRESENT ≠ 0)
    (hpage : page.length = PAGE_SIZE) (hpad : padding.length = 220) (hi : index < 2 ^ 32) :
    IsBlock (encodeBlock flags padding index count address page) index (UInt32.ofNat count)
      address.toNat := by
  have hword {i : ℕ} {w : UInt32} (h : [MAGIC_START_0, MAGIC_START_1, flags, address,
      UInt32.ofNat PAGE_SIZE, UInt32.ofNat index, UInt32.ofNat count, RP2040_FAMILY_ID][i]? =
        some w) : word (encodeBlock flags padding index count address page) (4 * i) = w := by
    rw [encodeBlock, List.append_assoc, List.append_assoc]
    exact word_of_words h _
  have hend : word (encodeBlock flags padding index count address page) 508 = MAGIC_END := by
    rw [word, encodeBlock, List.drop_left', ← List.append_nil (le32 MAGIC_END), fromLe32_le32]
    rw [List.length_append, List.length_append, hpage, hpad]
    rfl
  refine ⟨hword (i := 0) rfl, hword (i := 1) rfl, hend, ?_, hword (i := 7) rfl, ?_, ?_,
    hword (i := 6) rfl, ?_⟩
  · rw [show 8 = 4 * 2 from rfl, hword (i := 2) rfl]
    exact hflags
  · rw [show 16 = 4 * 4 from rfl, hword (i := 4) rfl]
    rfl
  · rw [show 20 = 4 * 5 from rfl, hword (i := 5) rfl, UInt32.toNat_ofNat_of_lt' hi]
  · rw [show 12 = 4 * 3 from rfl, hword (i := 3) rfl]

/-- Any pages from any page of the flash on are an image once they are encoded. -/
theorem isImage_encodeUf2 {padding : ℕ → Bytes} {image : Uf2Image}
    (hflags : flags &&& FLAG_FAMILY_ID_PRESENT ≠ 0) (hpad : ∀ i, (padding i).length = 220)
    (hs : FLASH_START ≤ image.address) (ha : image.address.toNat % PAGE_SIZE = 0)
    (hne : image.bytes ≠ []) (hl : image.bytes.length % PAGE_SIZE = 0)
    (hfit : image.address.toNat + image.bytes.length ≤ 2 ^ 32) :
    ∃ blocks, IsImage (encodeUf2 flags padding image) image blocks := by
  have hsize : 0 < PAGE_SIZE := by decide
  have hflat := flatten_chunks hsize image.bytes
  have hpages : ∀ page ∈ chunks PAGE_SIZE image.bytes, page.length = PAGE_SIZE :=
    fun page => length_of_mem_chunks hsize hl
  have hcount : (chunks PAGE_SIZE image.bytes).length * PAGE_SIZE = image.bytes.length := by
    rw [← length_flatten hpages, hflat]
  have hsome : chunks PAGE_SIZE image.bytes ≠ [] := by
    intro hnil
    rw [hnil] at hflat
    exact hne hflat.symm
  rw [← hcount] at hfit
  change _ + _ * 256 ≤ 2 ^ 32 at hfit
  refine ⟨_, ?_, rfl, ?_, ?_, ⟨hs, ha, ?_⟩, ?_⟩
  · exact List.mapIdx_ne_nil_iff.2 hsome
  · intro block hb
    obtain ⟨i, hi, rfl⟩ := List.mem_mapIdx.1 hb
    exact encodeBlock_length (hpages _ (List.getElem_mem hi)) (hpad i)
  · rw [List.length_mapIdx]
    omega
  · intro i block hb
    rw [List.getElem?_mapIdx] at hb
    obtain ⟨page, hp, rfl⟩ := Option.map_eq_some_iff.1 hb
    have hi := (List.getElem?_eq_some_iff.1 hp).1
    have hbefore : image.address.toNat + PAGE_SIZE * i < 2 ^ 32 := by
      change _ + 256 * i < 2 ^ 32
      omega
    have haddress : (image.address + UInt32.ofNat (PAGE_SIZE * i)).toNat =
        image.address.toNat + PAGE_SIZE * i := by
      rw [UInt32.toNat_add, UInt32.toNat_ofNat']
      omega
    have hindex : i < 2 ^ 32 := by omega
    rw [List.length_mapIdx, ← haddress]
    exact isBlock_encodeBlock hflags (hpages page (List.mem_of_getElem? hp)) (hpad i) hindex
  · have hpayload : ((chunks PAGE_SIZE image.bytes).mapIdx fun index page => encodeBlock flags
        (padding index) index (chunks PAGE_SIZE image.bytes).length
        (image.address + UInt32.ofNat (PAGE_SIZE * index)) page).map (payload · PAGE_SIZE) =
        chunks PAGE_SIZE image.bytes := by
      apply List.ext_getElem?
      intro i
      rw [List.getElem?_map, List.getElem?_mapIdx]
      cases hp : (chunks PAGE_SIZE image.bytes)[i]? with
      | none => rfl
      | some page =>
          rw [Option.map_some, Option.map_some,
            payload_encodeBlock (hpages page (List.mem_of_getElem? hp))]
    rw [List.flatMap_def, hpayload, hflat]

end Encode

/-- Decoding accepts exactly the contiguous images of the main flash, as what they are; any page
or more of it is decoded as it was encoded. -/
theorem decodeUf2_exact :
    (∀ (firmware : Bytes) (image : Uf2Image),
      decodeUf2 firmware = .ok image ↔ ∃ blocks, IsImage firmware image blocks) ∧
    ∀ (flags : UInt32) (padding : ℕ → Bytes) (image : Uf2Image),
      flags &&& FLAG_FAMILY_ID_PRESENT ≠ 0 → (∀ i, (padding i).length = 220) →
      FLASH_START ≤ image.address → image.address.toNat % PAGE_SIZE = 0 →
      image.bytes ≠ [] → image.bytes.length % PAGE_SIZE = 0 →
      image.address.toNat + image.bytes.length ≤ 2 ^ 32 →
      decodeUf2 (encodeUf2 flags padding image) = .ok image := by
  refine ⟨fun _ _ => decodeUf2_eq_ok_iff, ?_⟩
  intro flags padding image hflags hpad hs ha hne hl hfit
  exact decodeUf2_eq_ok_iff.2 (isImage_encodeUf2 hflags hpad hs ha hne hl hfit)

end Aldis.PicoBoot

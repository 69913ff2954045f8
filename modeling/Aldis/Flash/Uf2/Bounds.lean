import Aldis.Flash.Uf2

/-!
# The arithmetic of a UF2 image

Decoding narrows the number of a block, the count of blocks and the length of the image so far to
32 bits, and adds that length to the address the image starts at. This is exact unless an image
reaches the end of the address space and goes on, or has more blocks than 32 bits can count. An
accepted image does neither, and the length of its erase is exact as well.
-/

namespace Aldis.PicoBoot

open Interaction Octets

/-- What a turn of the loop narrows and adds, in its order and without the wrap. -/
def arithmetic (blockCount : ℕ) (decoding : Decoding) (entry : Bytes × ℕ) : List ℕ :=
  let (start, image) := decoding
  let (block, index) := entry
  let address := word block 12
  let payloadSize := (word block 16).toNat
  if word block 0 ≠ MAGIC_START_0 ∨ word block 4 ≠ MAGIC_START_1 ∨ word block 508 ≠ MAGIC_END ∨
      word block 8 &&& FLAG_FAMILY_ID_PRESENT = 0 ∨ word block 28 ≠ RP2040_FAMILY_ID ∨
      payloadSize ≠ PAGE_SIZE then []
  else index :: if word block 20 ≠ UInt32.ofNat index then []
    else blockCount :: if word block 24 ≠ UInt32.ofNat blockCount ∨ address < FLASH_START ∨
        address % UInt32.ofNat PAGE_SIZE ≠ 0 then []
      else match start with
        | some firstAddress =>
          [image.length, firstAddress.toNat + (UInt32.ofNat image.length).toNat]
        | none => []

/-- What `decode_uf2` narrows and adds until it returns. -/
def decodeArithmetic (firmware : Bytes) : List ℕ :=
  if firmware = [] ∨ firmware.length % BLOCK_SIZE ≠ 0 then []
  else
    let blocks := chunks BLOCK_SIZE firmware
    foldlTrace (decodeBlock blocks.length) (arithmetic blocks.length) (none, []) blocks.zipIdx

def eraseLength (sectorSize : UInt32) (image : Uf2Image) : UInt32 :=
  UInt32.ofNat (divCeil (UInt32.ofNat image.bytes.length).toNat sectorSize.toNat) * sectorSize

/-- The blocks of an image whose last page is the last one of the address space. -/
def EndsAtTop (blocks : List Bytes) (count : UInt32) : Prop :=
  ∃ base, Blocks blocks count base ∧ base.toNat + PAGE_SIZE * blocks.length = 2 ^ 32

/-- The blocks can be counted in 32 bits, unless the first of them is malformed, and no block of
the main flash continues an image that ends at the top of the address space. -/
structure Fits (blocks : List Bytes) : Prop where
  count : blocks.length < 2 ^ 32 ∨
    ∀ block count address, blocks[0]? = some block → ¬ IsBlock block 0 count address
  next : ∀ k block address, EndsAtTop (blocks.take k) (UInt32.ofNat blocks.length) →
    blocks[k]? = some block → IsBlock block k (UInt32.ofNat blocks.length) address →
    FLASH_START.toNat ≤ address → address % PAGE_SIZE ≠ 0

theorem EndsAtTop.ne_nil {blocks : List Bytes} {count : UInt32} (h : EndsAtTop blocks count) :
    blocks ≠ [] := by
  obtain ⟨base, -, htop⟩ := h
  rintro rfl
  exact base.toNat_lt.ne htop

section Step

variable {blocks : List Bytes} {block image : Bytes} {index n v : ℕ} {base : UInt32}
  {start : Option UInt32}

theorem isBlock_iff {count : UInt32} {address : ℕ} : IsBlock block index count address ↔
    IsBlock block (word block 20).toNat (word block 24) (word block 12).toNat ∧
    (word block 20).toNat = index ∧ word block 24 = count ∧ (word block 12).toNat = address := by
  constructor
  · intro h
    rw [h.index, h.count, h.address]
    exact ⟨h, rfl, rfl, rfl⟩
  · rintro ⟨h, rfl, rfl, rfl⟩
    exact h

theorem IsBlock.number {count : UInt32} {address : ℕ} (h : IsBlock block index count address) :
    word block 20 = UInt32.ofNat index := by
  rw [← h.index, UInt32.ofNat_toNat]

/-- The checks of a block for itself. -/
theorem checked_iff : IsBlock block (word block 20).toNat (word block 24) (word block 12).toNat ↔
    ¬ (word block 0 ≠ MAGIC_START_0 ∨ word block 4 ≠ MAGIC_START_1 ∨
      word block 508 ≠ MAGIC_END ∨ word block 8 &&& FLAG_FAMILY_ID_PRESENT = 0 ∨
      word block 28 ≠ RP2040_FAMILY_ID ∨ (word block 16).toNat ≠ PAGE_SIZE) := by
  simp only [not_or, ne_eq, not_not]
  constructor
  · intro h
    exact ⟨h.magicStart0, h.magicStart1, h.magicEnd, h.familyPresent, h.family, h.payloadSize⟩
  · rintro ⟨h0, h4, h508, hflag, h28, hsize⟩
    exact ⟨h0, h4, h508, hflag, h28, hsize, rfl, rfl, rfl⟩

/-- How far a turn comes, by the block it is about. -/
theorem mem_arithmetic_iff : v ∈ arithmetic n (start, image) (block, index) ↔
    IsBlock block (word block 20).toNat (word block 24) (word block 12).toNat ∧
    (v = index ∨ word block 20 = UInt32.ofNat index ∧
      (v = n ∨ word block 24 = UInt32.ofNat n ∧ FLASH_START ≤ word block 12 ∧
        (word block 12).toNat % PAGE_SIZE = 0 ∧ ∃ first, start = some first ∧
        (v = image.length ∨ v = first.toNat + (UInt32.ofNat image.length).toNat))) := by
  unfold arithmetic
  dsimp only
  rw [List.mem_ite_nil_left, ← checked_iff, List.mem_cons, List.mem_ite_nil_left, not_not,
    List.mem_cons, List.mem_ite_nil_left, not_or, not_or, not_not, UInt32.not_lt, not_not,
    aligned_iff]
  cases start with
  | none => simp only [List.not_mem_nil, reduceCtorEq, false_and, exists_false, and_false]
  | some first =>
      simp only [List.mem_cons, List.not_mem_nil, or_false, Option.some.injEq, exists_eq_left',
        and_assoc]

/-- A run of blocks ends in the address space or right behind it. -/
theorem Blocks.end_le (h : Blocks blocks (UInt32.ofNat n) base) (hne : blocks ≠ []) :
    base.toNat + PAGE_SIZE * blocks.length ≤ 2 ^ 32 := by
  have hpos := List.length_pos_of_ne_nil hne
  have hlast : base.toNat + PAGE_SIZE * (blocks.length - 1) < 2 ^ 32 := h.lt_size (by omega)
  have ha := h.aligned
  unfold PAGE_SIZE at *
  omega

theorem Blocks.size_lt (h : Blocks blocks (UInt32.ofNat n) base) :
    PAGE_SIZE * blocks.length < 2 ^ 32 := by
  by_cases hne : blocks = []
  · rw [hne]
    decide
  · have hend := h.end_le hne
    have hs : 0x10000000 ≤ base.toNat := UInt32.le_iff_toNat_le.1 h.start
    omega

theorem Fits.count_lt {count : UInt32} {address : ℕ} (h : Fits blocks)
    (hb : blocks[0]? = some block) (hblock : IsBlock block 0 count address) :
    blocks.length < 2 ^ 32 := by
  rcases h.count with hn | hn
  · exact hn
  · exact absurd hblock (hn block count address hb)

theorem pages_length (hl : ∀ block ∈ blocks, block.length = BLOCK_SIZE) {k : ℕ}
    (hb : blocks[k]? = some block) : (blocks.take k).length = k ∧
      ((blocks.take k).flatMap fun block => payload block PAGE_SIZE).length = PAGE_SIZE * k := by
  have hk : (blocks.take k).length = k :=
    List.length_take_of_le (List.getElem?_eq_some_iff.1 hb).1.le
  refine ⟨hk, ?_⟩
  rw [flatMap_payload_length fun b hb => hl b (List.mem_of_mem_take hb), hk]

/-- The sum of a turn is where the image so far ends. -/
theorem sum_eq_end {k : ℕ} (h : Blocks (blocks.take k) (UInt32.ofNat n) base)
    (hk : (blocks.take k).length = k) :
    base.toNat + (UInt32.ofNat (PAGE_SIZE * k)).toNat =
      base.toNat + PAGE_SIZE * (blocks.take k).length := by
  have hlt := h.size_lt
  rw [hk] at hlt ⊢
  rw [UInt32.toNat_ofNat_of_lt' hlt]

/-- A loop without a wrap runs over blocks that fit. -/
theorem fits_of_decoding (hl : ∀ block ∈ blocks, block.length = BLOCK_SIZE)
    (h : ∀ v ∈ foldlTrace (decodeBlock blocks.length) (arithmetic blocks.length) (none, [])
      blocks.zipIdx, v < 2 ^ 32) : Fits blocks := by
  refine ⟨?_, ?_⟩
  · by_contra hcount
    simp only [not_or, not_forall, not_not] at hcount
    obtain ⟨hn, block, count, address, hb, hblock⟩ := hcount
    have hmem : blocks.length ∈ arithmetic blocks.length (none, []) (block, 0) :=
      mem_arithmetic_iff.2 ⟨(isBlock_iff.1 hblock).1, .inr ⟨hblock.number, .inl rfl⟩⟩
    exact hn (h _ (mem_foldlTrace_zipIdx_iff.2 ⟨0, block, (none, []), hb, rfl, hmem⟩))
  · intro k block address htop hb hblock hstart hpage
    have hne := htop.ne_nil
    obtain ⟨base, hblocks, htop⟩ := htop
    obtain ⟨hk, hpages⟩ := pages_length hl hb
    have hs := (decodeBlocks_eq_ok_iff (n := blocks.length)
      fun b hb => hl b (List.mem_of_mem_take hb)).2 (.inr ⟨hne, base, hblocks, rfl⟩)
    rw [← hblock.address] at hstart hpage
    have hmem := mem_foldlTrace_zipIdx_iff.2 ⟨k, block, _, hb, hs, mem_arithmetic_iff.2
      ⟨(isBlock_iff.1 hblock).1, .inr ⟨hblock.number, .inr ⟨hblock.count,
        UInt32.le_iff_toNat_le.2 hstart, hpage, base, rfl, .inr rfl⟩⟩⟩⟩
    have hlt := h _ hmem
    rw [hpages, sum_eq_end hblocks hk, htop] at hlt
    exact lt_irrefl _ hlt

/-- The first turn only counts. -/
theorem Fits.first_turn (h : Fits blocks) (hb : blocks[0]? = some block)
    (hv : v ∈ arithmetic blocks.length (none, image) (block, 0)) : v < 2 ^ 32 := by
  obtain ⟨hblock, rfl | ⟨h20, rfl | ⟨-, -, -, first, hf, -⟩⟩⟩ := mem_arithmetic_iff.1 hv
  · decide
  · rw [h20] at hblock
    exact h.count_lt hb hblock
  · cases hf

/-- A turn behind an image so far adds up to where that image ends. -/
theorem Fits.next_turn (h : Fits blocks) {k : ℕ} (hb : blocks[k]? = some block)
    (hne : blocks.take k ≠ []) (hblocks : Blocks (blocks.take k) (UInt32.ofNat blocks.length) base)
    (hk : (blocks.take k).length = k) (hpages : image.length = PAGE_SIZE * k)
    (hv : v ∈ arithmetic blocks.length (some base, image) (block, k)) : v < 2 ^ 32 := by
  have hnumber : k < 2 ^ 32 := hk ▸ hblocks.length_lt
  obtain ⟨hblock, rfl | ⟨h20, rfl | ⟨h24, hstart, hpage, first, hf, hv⟩⟩⟩ :=
    mem_arithmetic_iff.1 hv
  · exact hnumber
  · obtain ⟨first, hf⟩ : ∃ first, (blocks.take k)[0]? = some first :=
      ⟨_, List.getElem?_eq_getElem (List.length_pos_of_ne_nil hne)⟩
    have hb0 : blocks[0]? = some first := by
      rw [List.getElem?_take] at hf
      split_ifs at hf
      exact hf
    exact h.count_lt hb0 (hblocks.block 0 first hf)
  · obtain rfl := Option.some.inj hf
    rw [hpages] at hv
    rcases hv with rfl | rfl
    · exact hk ▸ hblocks.size_lt
    · rw [sum_eq_end hblocks hk]
      refine lt_of_le_of_ne (hblocks.end_le hne) fun htop => ?_
      have h20' : (word block 20).toNat = k := by
        rw [h20, UInt32.toNat_ofNat_of_lt' hnumber]
      exact h.next k block _ ⟨base, hblocks, htop⟩ hb
        (isBlock_iff.2 ⟨hblock, h20', h24, rfl⟩) (UInt32.le_iff_toNat_le.1 hstart) hpage

theorem decoding_fits_iff (hl : ∀ block ∈ blocks, block.length = BLOCK_SIZE) :
    (∀ v ∈ foldlTrace (decodeBlock blocks.length) (arithmetic blocks.length) (none, [])
      blocks.zipIdx, v < 2 ^ 32) ↔ Fits blocks := by
  refine ⟨fits_of_decoding hl, ?_⟩
  intro h v hv
  obtain ⟨k, block, s, hb, hs, hv⟩ := mem_foldlTrace_zipIdx_iff.1 hv
  obtain ⟨hk, hpages⟩ := pages_length hl hb
  have hbefore : ∀ b ∈ blocks.take k, b.length = BLOCK_SIZE :=
    fun b hb => hl b (List.mem_of_mem_take hb)
  rcases (decodeBlocks_eq_ok_iff hbefore).1 hs with ⟨hnil, rfl⟩ | ⟨hne, base, hblocks, rfl⟩
  · rw [hnil] at hk
    obtain rfl : 0 = k := hk
    exact h.first_turn hb hv
  · exact h.next_turn hb hne hblocks hk hpages hv

end Step

section Image

variable {firmware : Bytes} {image : Uf2Image} {blocks : List Bytes} {sectorSize : UInt32}

theorem IsImage.end_le (h : IsImage firmware image blocks) :
    image.address.toNat + image.bytes.length ≤ 2 ^ 32 := by
  rw [h.bytes_length]
  exact h.contiguous.end_le h.blocks_ne_nil

/-- Nothing of an accepted image comes after the end of the address space. -/
theorem IsImage.fits (h : IsImage firmware image blocks) : Fits blocks := by
  refine ⟨.inl h.number_lt, ?_⟩
  rintro k block address htop hb hblock - -
  have hk := (pages_length h.length hb).1
  have hpos : 0 < k := by
    rw [← hk]
    exact List.length_pos_of_ne_nil htop.ne_nil
  obtain ⟨base, hblocks, htop⟩ := htop
  have hzero : (blocks.take k)[0]? = blocks[0]? := by
    rw [List.getElem?_take, if_pos hpos]
  have hfirst : blocks[0]? = some _ :=
    List.getElem?_eq_getElem (List.length_pos_of_ne_nil h.blocks_ne_nil)
  have hbase : base = image.address := by
    rw [← UInt32.toNat_inj]
    have h₁ := (hblocks.block 0 _ (hzero.trans hfirst)).address
    have h₂ := (h.contiguous.block 0 _ hfirst).address
    omega
  have hlt := h.contiguous.lt_size (List.getElem?_eq_some_iff.1 hb).1
  rw [← hbase, ← hk] at hlt
  exact hlt.ne htop

/-- An erase of whole sectors is no longer than the flash that starts at `FLASH_START`. -/
theorem IsImage.eraseLength_eq (h : IsImage firmware image blocks) (hpos : 0 < sectorSize)
    (hs : sectorSize ≤ FLASH_START) : (eraseLength sectorSize image).toNat =
      divCeil image.bytes.length sectorSize.toNat * sectorSize.toNat := by
  have hend := h.end_le
  have hstart : 0x10000000 ≤ image.address.toNat := UInt32.le_iff_toNat_le.1 h.contiguous.start
  have hsector : sectorSize.toNat ≤ 0x10000000 := UInt32.le_iff_toNat_le.1 hs
  have hpos' : 0 < sectorSize.toNat := UInt32.lt_iff_toNat_lt.1 hpos
  have hround : divCeil image.bytes.length sectorSize.toNat * sectorSize.toNat ≤
      image.bytes.length + sectorSize.toNat - 1 := Nat.div_mul_le_self _ _
  have hproduct : divCeil image.bytes.length sectorSize.toNat * sectorSize.toNat < 2 ^ 32 := by
    omega
  have hlength : image.bytes.length < 2 ^ 32 := by omega
  have hsectors := (Nat.le_mul_of_pos_right _ hpos').trans_lt hproduct
  rw [eraseLength, UInt32.toNat_mul, UInt32.toNat_ofNat_of_lt' hlength,
    UInt32.toNat_ofNat_of_lt' hsectors, Nat.mod_eq_of_lt hproduct]

theorem decodeArithmetic_fits_iff : (∀ v ∈ decodeArithmetic firmware, v < 2 ^ 32) ↔
    (firmware.length % BLOCK_SIZE = 0 → Fits (chunks BLOCK_SIZE firmware)) := by
  unfold decodeArithmetic
  by_cases hmod : firmware.length % BLOCK_SIZE = 0
  · have hl : ∀ block ∈ chunks BLOCK_SIZE firmware, block.length = BLOCK_SIZE :=
      fun block => length_of_mem_chunks (by decide) hmod
    rw [← decoding_fits_iff hl]
    by_cases hnil : firmware = []
    · subst hnil
      exact iff_of_true nofun fun _ => nofun
    · rw [if_neg (not_or.2 ⟨hnil, not_not.2 hmod⟩)]
      exact ⟨fun h _ => h, fun h => h hmod⟩
  · rw [if_pos (.inr hmod)]
    exact iff_of_true nofun fun h => absurd h hmod

theorem endsAtTop_iff (hmod : firmware.length % BLOCK_SIZE = 0) :
    EndsAtTop (chunks BLOCK_SIZE firmware) (UInt32.ofNat (chunks BLOCK_SIZE firmware).length) ↔
      ∃ image, decodeUf2 firmware = .ok image ∧
        image.address.toNat + image.bytes.length = 2 ^ 32 := by
  have hl : ∀ block ∈ chunks BLOCK_SIZE firmware, block.length = BLOCK_SIZE :=
    fun block => length_of_mem_chunks (by decide) hmod
  constructor
  · intro h
    have hne := h.ne_nil
    obtain ⟨base, hblocks, htop⟩ := h
    have himage : IsImage firmware
        ⟨base, (chunks BLOCK_SIZE firmware).flatMap fun block => payload block PAGE_SIZE⟩
        (chunks BLOCK_SIZE firmware) :=
      ⟨hne, (flatten_chunks (by decide) firmware).symm, hl, hblocks.length_lt, hblocks, rfl⟩
    refine ⟨_, decodeUf2_eq_ok_iff.2 ⟨_, himage⟩, ?_⟩
    rw [himage.bytes_length]
    exact htop
  · rintro ⟨image, h, htop⟩
    obtain ⟨blocks, himage⟩ := decodeUf2_eq_ok_iff.1 h
    rw [himage.bytes_length] at htop
    rw [himage.chunks_eq]
    exact ⟨image.address, himage.contiguous, htop⟩

end Image

/-- Neither the decoding nor the erase wraps, and the end of what is written is an address. -/
structure NeverWraps (sectorSize : UInt32) (firmware : Bytes) : Prop where
  decoding : ∀ v ∈ decodeArithmetic firmware, v < 2 ^ 32
  erase : ∀ image, decodeUf2 firmware = .ok image → (eraseLength sectorSize image).toNat =
    divCeil image.bytes.length sectorSize.toNat * sectorSize.toNat
  finish : ∀ image, decodeUf2 firmware = .ok image →
    image.address.toNat + image.bytes.length < 2 ^ 32

/-- The decoding wraps where an image that ends at the top of the address space goes on, or where
its blocks are too many to count. That of an accepted image does not, and its last byte has an
address. -/
theorem neverWraps_iff (sectorSize : UInt32) (hpos : 0 < sectorSize)
    (hs : sectorSize ≤ FLASH_START) (firmware : Bytes) :
    (NeverWraps sectorSize firmware ↔ (firmware.length % BLOCK_SIZE = 0 →
      Fits (chunks BLOCK_SIZE firmware) ∧ ¬ EndsAtTop (chunks BLOCK_SIZE firmware)
        (UInt32.ofNat (chunks BLOCK_SIZE firmware).length))) ∧
    ((∀ v ∈ decodeArithmetic firmware, v < 2 ^ 32) ↔
      (firmware.length % BLOCK_SIZE = 0 → Fits (chunks BLOCK_SIZE firmware))) ∧
    ∀ image, decodeUf2 firmware = .ok image →
      (∀ v ∈ decodeArithmetic firmware, v < 2 ^ 32) ∧
      (eraseLength sectorSize image).toNat =
        divCeil image.bytes.length sectorSize.toNat * sectorSize.toNat ∧
      image.address.toNat + image.bytes.length ≤ 2 ^ 32 := by
  have haccepted : ∀ image, decodeUf2 firmware = .ok image →
      (∀ v ∈ decodeArithmetic firmware, v < 2 ^ 32) ∧
      (eraseLength sectorSize image).toNat =
        divCeil image.bytes.length sectorSize.toNat * sectorSize.toNat ∧
      image.address.toNat + image.bytes.length ≤ 2 ^ 32 := by
    intro image h
    obtain ⟨blocks, himage⟩ := decodeUf2_eq_ok_iff.1 h
    refine ⟨decodeArithmetic_fits_iff.2 fun _ => ?_, himage.eraseLength_eq hpos hs, himage.end_le⟩
    rw [himage.chunks_eq]
    exact himage.fits
  refine ⟨?_, decodeArithmetic_fits_iff, haccepted⟩
  constructor
  · intro h hmod
    refine ⟨decodeArithmetic_fits_iff.1 h.decoding hmod, ?_⟩
    rw [endsAtTop_iff hmod]
    rintro ⟨image, himage, htop⟩
    exact (h.finish image himage).ne htop
  · intro h
    refine ⟨decodeArithmetic_fits_iff.2 fun hmod => (h hmod).1, ?_, ?_⟩
    · intro image himage
      exact (haccepted image himage).2.1
    · intro image himage
      obtain ⟨blocks, hblocks⟩ := decodeUf2_eq_ok_iff.1 himage
      have hmod : firmware.length % BLOCK_SIZE = 0 := by
        rw [hblocks.firmware_length, Nat.mul_mod_left]
      refine lt_of_le_of_ne (haccepted image himage).2.2 fun htop => ?_
      exact (h hmod).2 ((endsAtTop_iff hmod).2 ⟨image, himage, htop⟩)

def blankBlock (index count : ℕ) (address : UInt32) : Bytes :=
  encodeBlock FLAG_FAMILY_ID_PRESENT (List.replicate 220 0) index count address
    (List.replicate PAGE_SIZE 0)

/-- The last page of the address space is decoded and erased without a wrap. -/
theorem neverWraps_iff_last_page :
    (∀ v ∈ decodeArithmetic (blankBlock 0 1 0xffffff00), v < 2 ^ 32) ∧
    (eraseLength 4096 ⟨0xffffff00, List.replicate PAGE_SIZE 0⟩).toNat = 4096 := by
  have hdecoded : decodeUf2 (blankBlock 0 1 0xffffff00) =
      .ok ⟨0xffffff00, List.replicate PAGE_SIZE 0⟩ := by
    decide +kernel
  obtain ⟨-, -, h⟩ := neverWraps_iff 4096 (by decide) (by decide) (blankBlock 0 1 0xffffff00)
  obtain ⟨hfits, herase, -⟩ := h _ hdecoded
  exact ⟨hfits, herase.trans (by decide +kernel)⟩

/-- Its first block is the last page of the address space, and there is a second one. -/
def overrun : Bytes := blankBlock 0 2 0xffffff00 ++ blankBlock 1 2 0x10000000

theorem overrun_wraps : 2 ^ 32 ∈ decodeArithmetic overrun ∧ ¬ NeverWraps 4096 overrun := by
  have hmem : 2 ^ 32 ∈ decodeArithmetic overrun := by decide +kernel
  exact ⟨hmem, fun h => lt_irrefl _ (h.decoding _ hmem)⟩

end Aldis.PicoBoot

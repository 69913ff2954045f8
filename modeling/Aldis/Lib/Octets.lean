import Mathlib.Tactic

/-!
# Byte strings

Little-endian words, chunking and checked 32-bit arithmetic.
-/

namespace Octets

abbrev Bytes := List UInt8

def le32 (n : UInt32) : Bytes :=
  [n.toUInt8, (n >>> 8).toUInt8, (n >>> 16).toUInt8, (n >>> 24).toUInt8]

def fromLe32 (bytes : Bytes) : UInt32 :=
  (bytes.getD 0 0).toUInt32 ||| ((bytes.getD 1 0).toUInt32 <<< 8) |||
    ((bytes.getD 2 0).toUInt32 <<< 16) ||| ((bytes.getD 3 0).toUInt32 <<< 24)

def le16 (n : UInt16) : Bytes := [n.toUInt8, (n >>> 8).toUInt8]

def fromLe16 (bytes : Bytes) : UInt16 :=
  (bytes.getD 0 0).toUInt16 ||| ((bytes.getD 1 0).toUInt16 <<< 8)

/-! ### Hexadecimal -/

def hexByte (d : ℕ) : UInt8 := UInt8.ofNat (if d < 10 then 48 + d else 55 + d)

/-- Uppercase hexadecimal padded to eight digits, as `{:08X}` writes it. -/
def upperHex08 (n : ℕ) : Bytes :=
  List.replicate (8 - (Nat.digits 16 n).length) 48 ++ (Nat.digits 16 n).reverse.map hexByte

/-- The value of a hexadecimal digit of either case. -/
def nibble (b : UInt8) : Option ℕ :=
  if 48 ≤ b ∧ b ≤ 57 then some (b.toNat - 48)
  else if 65 ≤ b ∧ b ≤ 70 then some (b.toNat - 55)
  else if 97 ≤ b ∧ b ≤ 102 then some (b.toNat - 87)
  else none

/-- The value of the digits; other bytes count as zero. -/
def hexValue (bytes : Bytes) : ℕ := bytes.foldl (fun v b => 16 * v + (nibble b).getD 0) 0

theorem nibble_hexByte {d : ℕ} (h : d < 16) : nibble (hexByte d) = some d := by
  interval_cases d <;> rfl

theorem hexByte_digit {d : ℕ} (h : d < 16) : (nibble (hexByte d)).isSome := by
  rw [nibble_hexByte h]
  exact rfl

theorem hexValue_upperHex08 (n : ℕ) : hexValue (upperHex08 n) = n := by
  have hzeros : ∀ k, (List.replicate k (48 : UInt8)).foldl
      (fun v b => 16 * v + (nibble b).getD 0) 0 = 0 := by
    intro k
    induction k with
    | zero => exact rfl
    | succ k ih => exact ih
  have hdigits : ∀ l : List ℕ, (∀ d ∈ l, d < 16) → (l.reverse.map hexByte).foldl
      (fun v b => 16 * v + (nibble b).getD 0) 0 = Nat.ofDigits 16 l := by
    intro l hl
    induction l with
    | nil => exact rfl
    | cons d l ih =>
      have hd := hl d List.mem_cons_self
      rw [List.reverse_cons, List.map_append, List.foldl_append,
        ih fun d h => hl d (List.mem_cons_of_mem _ h), List.map_singleton, List.foldl_cons,
        List.foldl_nil, nibble_hexByte hd, Nat.ofDigits_cons]
      simp [Nat.add_comm]
  rw [hexValue, upperHex08, List.foldl_append, hzeros,
    hdigits _ fun d h => Nat.digits_lt_base (by norm_num) h, Nat.ofDigits_digits]

theorem mem_upperHex08 {n : ℕ} {b : UInt8} (h : b ∈ upperHex08 n) : (nibble b).isSome := by
  rcases List.mem_append.1 h with h | h
  · rw [List.eq_of_mem_replicate h]
    exact rfl
  · obtain ⟨d, hd, rfl⟩ := List.mem_map.1 h
    exact hexByte_digit (Nat.digits_lt_base (by norm_num) (List.mem_reverse.1 hd))

/-! ### Pieces -/

def divCeil (n d : ℕ) : ℕ := (n + d - 1) / d

def chunk {α : Type} (size index : ℕ) (l : List α) : List α := (l.drop (index * size)).take size

/-- Consecutive pieces of `size` elements, the last one possibly shorter. -/
def chunks {α : Type} (size : ℕ) (l : List α) : List (List α) :=
  (List.range (divCeil l.length size)).map (fun index => chunk size index l)

/-- `Vec::resize`: cut or filled up to `size`. -/
def resize (size : ℕ) (fill : UInt8) (bytes : Bytes) : Bytes :=
  bytes.take size ++ List.replicate (size - bytes.length) fill

def checkedAdd (a b : UInt32) : Option UInt32 :=
  if a.toNat + b.toNat < 2 ^ 32 then some (a + b) else none

def saturatingAdd (a b : UInt32) : UInt32 :=
  if a.toNat + b.toNat < 2 ^ 32 then a + b else 0xFFFFFFFF

/-- The word written little-endian at the front of a byte string is read back. -/
theorem fromLe32_le32 (n : UInt32) (rest : Bytes) : fromLe32 (le32 n ++ rest) = n := by
  simp only [fromLe32, le32, List.cons_append, List.nil_append, List.getD_cons_zero,
    List.getD_cons_succ]
  rw [← UInt32.toBitVec_inj]
  apply BitVec.eq_of_getLsbD_eq
  intro i hi
  simp only [UInt32.toBitVec_or, UInt8.toBitVec_toUInt32, UInt32.toBitVec_toUInt8,
    UInt32.toBitVec_shiftLeft, UInt32.toBitVec_shiftRight, BitVec.getLsbD_or,
    BitVec.getLsbD_setWidth]
  rcases (by omega : i < 8 ∨ (8 ≤ i ∧ i < 16) ∨ (16 ≤ i ∧ i < 24) ∨ (24 ≤ i ∧ i < 32)) with
    h | ⟨h, h'⟩ | ⟨h, h'⟩ | ⟨h, h'⟩
  · have h₁ : i < 16 := by omega
    have h₂ : i < 24 := by omega
    simp [h, h₁, h₂, hi]
  · have h₁ : ¬ i < 8 := by omega
    have h₂ : i < 24 := by omega
    have h₃ : i - 8 < 32 := by omega
    have h₄ : i - 8 < 8 := by omega
    have he : 8 + (i - 8) = i := by omega
    simp [h', h₁, h₂, h₃, h₄, he, hi]
  · have h₁ : ¬ i < 8 := by omega
    have h₂ : ¬ i < 16 := by omega
    have h₃ : i - 16 < 32 := by omega
    have h₄ : i - 16 < 8 := by omega
    have h₅ : ¬ i - 8 < 8 := by omega
    have he : 16 + (i - 16) = i := by omega
    simp [h', h₁, h₂, h₃, h₄, h₅, he, hi]
  · have h₁ : ¬ i < 8 := by omega
    have h₂ : ¬ i < 16 := by omega
    have h₃ : ¬ i < 24 := by omega
    have h₄ : i - 24 < 8 := by omega
    have h₅ : ¬ i - 8 < 8 := by omega
    have h₆ : ¬ i - 16 < 8 := by omega
    have h₇ : i - 24 < 32 := by omega
    have he : 24 + (i - 24) = i := by omega
    simp [h₁, h₂, h₃, h₄, h₅, h₆, h₇, he, hi]

@[simp] theorem le32_length (n : UInt32) : (le32 n).length = 4 := rfl

/-- A 16-bit integer is its two bytes. -/
theorem low_or_high (n : UInt16) :
    n.toUInt8.toUInt16 ||| ((n >>> 8).toUInt8.toUInt16 <<< 8) = n := by
  rw [← UInt16.toBitVec_inj]
  apply BitVec.eq_of_getLsbD_eq
  intro i hi
  simp only [UInt16.toBitVec_or, UInt8.toBitVec_toUInt16, UInt16.toBitVec_toUInt8,
    UInt16.toBitVec_shiftLeft, UInt16.toBitVec_shiftRight, BitVec.getLsbD_or,
    BitVec.getLsbD_setWidth]
  by_cases h : i < 8
  · simp [h, hi]
  · have h₁ : i - 8 < 8 := by omega
    have he : 8 + (i - 8) = i := by omega
    simp [h, h₁, he, hi]

theorem fromLe16_le16 (n : UInt16) (rest : Bytes) : fromLe16 (le16 n ++ rest) = n := by
  simp only [fromLe16, le16, List.cons_append, List.nil_append, List.getD_cons_zero,
    List.getD_cons_succ]
  exact low_or_high n

theorem toUInt8_fromLe16 (a b : UInt8) (rest : Bytes) :
    (fromLe16 (a :: b :: rest)).toUInt8 = a ∧ (fromLe16 (a :: b :: rest) >>> 8).toUInt8 = b := by
  simp only [fromLe16, List.getD_cons_zero, List.getD_cons_succ, ← UInt8.toBitVec_inj]
  constructor
  · ext i hi
    simp
  · ext i hi
    have h₁ : 8 + i < 16 := by omega
    simp [h₁, BitVec.getLsbD_eq_getElem hi]

theorem le16_fromLe16 (a b : UInt8) (rest : Bytes) :
    le16 (fromLe16 (a :: b :: rest)) = [a, b] := by
  rw [le16, (toUInt8_fromLe16 a b rest).1, (toUInt8_fromLe16 a b rest).2]

theorem le32_fromLe32 (a b c d : UInt8) (rest : Bytes) :
    le32 (fromLe32 (a :: b :: c :: d :: rest)) = [a, b, c, d] := by
  simp only [le32, fromLe32, List.getD_cons_zero, List.getD_cons_succ, List.cons.injEq, and_true,
    ← UInt8.toBitVec_inj]
  refine ⟨?_, ?_, ?_, ?_⟩
  · ext i hi
    simp
  · ext i hi
    have h₁ : 8 + i < 32 := by omega
    have h₂ : 8 + i < 16 := by omega
    have h₃ : 8 + i < 24 := by omega
    simp [hi, h₁, h₂, h₃]
  · ext i hi
    have h₁ : 16 + i < 32 := by omega
    have h₃ : 16 + i < 24 := by omega
    have h₄ : 16 + i - 8 = 8 + i := by omega
    have ha : a.toBitVec.getLsbD (16 + i) = false := BitVec.getLsbD_of_ge _ _ (by omega)
    simp [h₁, h₃, h₄, ha, BitVec.getLsbD_eq_getElem hi]
  · ext i hi
    have h₁ : 24 + i < 32 := by omega
    have h₄ : 24 + i - 8 = 16 + i := by omega
    have h₅ : 24 + i - 16 = 8 + i := by omega
    have ha : a.toBitVec.getLsbD (24 + i) = false := BitVec.getLsbD_of_ge _ _ (by omega)
    have hb : b.toBitVec.getLsbD (16 + i) = false := BitVec.getLsbD_of_ge _ _ (by omega)
    simp [h₁, h₄, h₅, ha, hb, BitVec.getLsbD_eq_getElem hi]

/-! ### Memory -/

def content (memory : ℕ → UInt8) (start length : ℕ) : Bytes :=
  (List.range length).map (fun i => memory (start + i))

def write (memory : ℕ → UInt8) (start : ℕ) (bytes : Bytes) : ℕ → UInt8 := fun i =>
  if start ≤ i then bytes.getD (i - start) (memory i) else memory i

@[simp] theorem content_zero (memory : ℕ → UInt8) (start : ℕ) : content memory start 0 = [] := rfl

theorem content_add (memory : ℕ → UInt8) (start m n : ℕ) :
    content memory start (m + n) = content memory start m ++ content memory (start + m) n := by
  simp only [content, List.range_add, List.map_append, List.map_map]
  congr 1
  apply List.map_congr_left
  intro i _
  simp only [Function.comp_apply, Nat.add_assoc]

@[simp] theorem content_length (memory : ℕ → UInt8) (start length : ℕ) :
    (content memory start length).length = length := by
  simp [content]

/-- Consecutive pieces of one size make up the whole range. -/
theorem flatMap_content (memory : ℕ → UInt8) (start size count : ℕ) :
    (List.range count).flatMap (fun i => content memory (start + i * size) size) =
      content memory start (count * size) := by
  induction count with
  | zero => simp
  | succ count ih =>
    rw [List.range_succ, List.flatMap_append, ih, Nat.succ_mul, content_add]
    simp

theorem divCeil_mul_le {size : ℕ} (h : 0 < size) (n : ℕ) : n ≤ divCeil n size * size := by
  unfold divCeil
  have hdiv := Nat.div_add_mod (n + size - 1) size
  have hmod := Nat.mod_lt (n + size - 1) h
  rw [Nat.mul_comm]
  omega

@[simp] theorem resize_length (size : ℕ) (fill : UInt8) (bytes : Bytes) :
    (resize size fill bytes).length = size := by
  simp only [resize, List.length_append, List.length_take, List.length_replicate]
  omega

theorem chunk_succ {α : Type} (size index : ℕ) (l : List α) :
    chunk size (index + 1) l = chunk size index (l.drop size) := by
  simp only [chunk, List.drop_drop]
  rw [Nat.succ_mul, Nat.add_comm]

theorem mem_chunks_length {α : Type} {size : ℕ} {l piece : List α} (h : piece ∈ chunks size l) :
    piece.length ≤ size := by
  obtain ⟨index, -, rfl⟩ := List.mem_map.1 h
  rw [chunk, List.length_take]
  exact Nat.min_le_left _ _

theorem chunks_length {α : Type} (size : ℕ) (l : List α) :
    (chunks size l).length = divCeil l.length size := by
  simp [chunks]

/-- The pieces of a list make up the list. -/
theorem flatten_chunks {α : Type} {size : ℕ} (h : 0 < size) (l : List α) :
    (chunks size l).flatten = l := by
  have hall : ∀ (count : ℕ) (l : List α), l.length ≤ count * size →
      ((List.range count).map (fun index => chunk size index l)).flatten = l := by
    intro count
    induction count with
    | zero =>
      intro l hl
      rw [List.length_eq_zero_iff.1 (by omega : l.length = 0)]
      exact rfl
    | succ count ih =>
      intro l hl
      have hrest : (l.drop size).length ≤ count * size := by
        rw [Nat.succ_mul] at hl
        rw [List.length_drop]
        omega
      have hfirst : chunk size 0 l = l.take size := by simp [chunk]
      rw [List.range_succ_eq_map, List.map_cons, List.map_map, List.flatten_cons, hfirst]
      simp only [Function.comp_def, chunk_succ]
      rw [ih _ hrest, List.take_append_drop]
  exact hall _ l (divCeil_mul_le h l.length)

theorem chunks_append {α : Type} {size : ℕ} (h : 0 < size) {b : List α} (hb : b.length = size)
    (l : List α) : chunks size (b ++ l) = b :: chunks size l := by
  have hcount : divCeil (b ++ l).length size = divCeil l.length size + 1 := by
    have hlen : (b ++ l).length + size - 1 = l.length + size - 1 + size := by
      rw [List.length_append]
      omega
    rw [divCeil, divCeil, hlen, Nat.add_div_right _ h]
  rw [chunks, hcount, List.range_succ_eq_map, List.map_cons, List.map_map, chunks]
  congr 1
  · rw [chunk, Nat.zero_mul, List.drop_zero, ← hb, List.take_left]
  · apply List.map_congr_left
    intro i _
    rw [Function.comp_apply, Nat.succ_eq_add_one, chunk_succ, ← hb, List.drop_left]

/-- Pieces of one size are found again in their concatenation. -/
theorem chunks_flatten {α : Type} {size : ℕ} (h : 0 < size) {pieces : List (List α)}
    (hp : ∀ piece ∈ pieces, piece.length = size) : chunks size pieces.flatten = pieces := by
  induction pieces with
  | nil =>
    have hnone : divCeil 0 size = 0 := Nat.div_eq_of_lt (by omega)
    rw [List.flatten_nil, chunks, List.length_nil, hnone]
    exact rfl
  | cons piece pieces ih =>
    obtain ⟨hpiece, hpieces⟩ := List.forall_mem_cons.1 hp
    rw [List.flatten_cons, chunks_append h hpiece, ih hpieces]

theorem length_flatten {α : Type} {size : ℕ} {pieces : List (List α)}
    (hp : ∀ piece ∈ pieces, piece.length = size) :
    pieces.flatten.length = pieces.length * size := by
  have hall : pieces.map List.length = List.replicate (pieces.map List.length).length size :=
    List.eq_replicate_of_mem (List.forall_mem_map.2 hp)
  rw [List.length_flatten, hall, List.sum_replicate, List.length_map, smul_eq_mul]

/-- A list of a multiple of `size` elements has no shorter piece. -/
theorem length_of_mem_chunks {α : Type} {size : ℕ} (h : 0 < size) {l piece : List α}
    (hl : l.length % size = 0) (hp : piece ∈ chunks size l) : piece.length = size := by
  obtain ⟨index, hi, rfl⟩ := List.mem_map.1 hp
  have hcount : divCeil l.length size * size = l.length := by
    obtain ⟨k, hk⟩ := Nat.dvd_of_mod_eq_zero hl
    have hdiv : (size * k + (size - 1)) / size = k := by
      rw [Nat.mul_add_div h, Nat.div_eq_of_lt (by omega), Nat.add_zero]
    rw [divCeil, hk, Nat.add_sub_assoc h, hdiv, Nat.mul_comm]
  have hle : (index + 1) * size ≤ divCeil l.length size * size :=
    Nat.mul_le_mul_right size (List.mem_range.1 hi)
  rw [Nat.succ_mul] at hle
  rw [chunk, List.length_take, List.length_drop]
  omega

end Octets

import Aldis.Lib.Hex
import Aldis.Prebuilt.Release

/-!
# Checksums of releases

Which digests are read from a manifest: those of 64 hexadecimal digits, and those in which the
standard library takes a `+` for a digit.
-/

namespace Aldis.SelfUpdate

open Text Octets Hex

/-- A `+` and the digit behind it, which the standard library reads as a number too. -/
def IsSigned (p : Char × Char) (b : UInt8) : Prop := p.1 = '+' ∧ digit p.2 = some b.toNat

section Decode

variable {field : Str} {digest : Bytes} {p : Char × Char} {b : UInt8}

theorem hexPair_eq_some_iff (h₁ : p.1.toNat < 128) (h₂ : p.2.toNat < 128) :
    hexPair [UInt8.ofNat p.1.toNat, UInt8.ofNat p.2.toNat] = some b ↔
      IsPair p b ∨ IsSigned p b := by
  have hvalue {n : ℕ} (hn : n < 256) : some (UInt8.ofNat n) = some b ↔ b.toNat = n := by
    rw [Option.some.injEq, ← UInt8.toNat_inj, UInt8.toNat_ofNat_of_lt' hn, eq_comm]
  unfold hexPair
  by_cases hplus : p.1 = '+'
  · have hhead : ([UInt8.ofNat p.1.toNat, UInt8.ofNat p.2.toNat] : Bytes).head? = some 0x2B := by
      rw [hplus]
      exact rfl
    have hpair : ¬ IsPair p b := by
      rintro ⟨high, low, hh, -⟩
      rw [hplus] at hh
      cases hh
    rw [or_iff_right hpair, IsSigned]
    simp only [if_pos hhead, List.tail_cons, hexValue, List.foldl_cons, List.foldl_nil,
      List.all_cons, List.all_nil, nibble_of_ascii h₂]
    cases hd : digit p.2 with
    | none => simp
    | some low =>
        have hlow := (lt_of_digit_eq_some hd).1
        rw [if_pos ⟨List.cons_ne_nil _ _, rfl⟩, Option.getD_some, hvalue (by omega),
          Option.some.injEq, Nat.mul_zero, Nat.zero_add, and_iff_right hplus, eq_comm]
  · have hhead : ([UInt8.ofNat p.1.toNat, UInt8.ofNat p.2.toNat] : Bytes).head? ≠ some 0x2B := by
      intro hh
      have hn := congrArg UInt8.toNat (Option.some.inj hh)
      rw [UInt8.toNat_ofNat_of_lt' (by change _ < 256; omega)] at hn
      exact hplus (Char.toNat_inj.1 hn)
    rw [or_iff_left fun h => hplus h.1, IsPair]
    simp only [if_neg hhead, hexValue, List.foldl_cons, List.foldl_nil,
      List.all_cons, List.all_nil, nibble_of_ascii h₁, nibble_of_ascii h₂]
    cases hd₁ : digit p.1 with
    | none => simp
    | some high =>
        cases hd₂ : digit p.2 with
        | none => simp
        | some low =>
            have hhigh := (lt_of_digit_eq_some hd₁).1
            have hlow := (lt_of_digit_eq_some hd₂).1
            rw [if_pos ⟨List.cons_ne_nil _ _, rfl⟩, Option.getD_some, Option.getD_some,
              hvalue (by omega), Nat.mul_zero, Nat.zero_add]
            simp

theorem mapM_eq_some_iff {α β : Type} {f : α → Option β} {items : List α} {results : List β} :
    items.mapM f = some results ↔ List.Forall₂ (fun a r => f a = some r) items results := by
  induction items generalizing results with
  | nil =>
      rw [List.mapM_nil, List.forall₂_nil_left_iff, eq_comm]
      exact Option.some_inj
  | cons a items ih =>
      rw [List.mapM_cons, List.forall₂_cons_left_iff]
      simp only [Option.bind_eq_bind, Option.bind_eq_some_iff, Option.pure_def, Option.some.injEq,
        ih]
      constructor
      · rintro ⟨r, hr, rest, hrest, rfl⟩
        exact ⟨r, rest, hr, hrest, rfl⟩
      · rintro ⟨r, rest, hr, hrest, rfl⟩
        exact ⟨r, hr, rest, hrest, rfl⟩

theorem forall_of_forall₂ {α β : Type} {P : α → Prop} {R : α → β → Prop} {items : List α}
    {results : List β} (h : List.Forall₂ R items results) (hP : ∀ a b, R a b → P a) :
    ∀ a ∈ items, P a :=
  ((List.forall₂_and_left items results).1 (h.imp fun a b hr => ⟨hP a b hr, hr⟩)).1

theorem exists_forall₂ {α β : Type} {R : α → β → Prop} {items : List α}
    (h : ∀ a ∈ items, ∃ b, R a b) : ∃ results, List.Forall₂ R items results := by
  induction items with
  | nil => exact ⟨[], .nil⟩
  | cons a items ih =>
      obtain ⟨⟨b, hb⟩, hrest⟩ := List.forall_mem_cons.1 h
      obtain ⟨results, hr⟩ := ih hrest
      exact ⟨b :: results, .cons hb hr⟩

theorem lt_of_nibble_isSome {x : UInt8} (h : (nibble x).isSome = true) : x.toNat < 128 := by
  unfold nibble at h
  simp only [UInt8.le_iff_toNat_le] at h
  split_ifs at h with h₁ h₂ h₃
  · exact lt_of_le_of_lt h₁.2 (by decide)
  · exact lt_of_le_of_lt h₂.2 (by decide)
  · exact lt_of_le_of_lt h₃.2 (by decide)
  · cases h

theorem lt_of_hexPair_eq_some {bytes : Bytes} (h : hexPair bytes = some b) :
    ∀ x ∈ bytes, x.toNat < 128 := by
  unfold hexPair at h
  have hdigits {l : Bytes} (hl : l.all (fun x => (nibble x).isSome) = true) :
      ∀ x ∈ l, x.toNat < 128 := fun x hx => lt_of_nibble_isSome (List.all_eq_true.1 hl x hx)
  by_cases hplus : bytes.head? = some 0x2B
  · simp only [if_pos hplus] at h
    split_ifs at h with hd
    cases bytes with
    | nil => cases hplus
    | cons x bytes =>
        obtain rfl := Option.some.inj hplus
        exact List.forall_mem_cons.2 ⟨by decide, hdigits hd.2⟩
  · simp only [if_neg hplus] at h
    split_ifs at h with hd
    exact hdigits hd.2

/-- Pairs of ASCII characters are decoded one by one. -/
theorem mapM_hexPair_eq_some_iff {pairs : List (Char × Char)}
    (hp : ∀ p ∈ pairs, p.1.toNat < 128 ∧ p.2.toNat < 128) :
    (chunks 2 (utf8 (pairs.flatMap fun p => [p.1, p.2]))).mapM hexPair = some digest ↔
      List.Forall₂ (fun p b => IsPair p b ∨ IsSigned p b) pairs digest := by
  have hbytes : utf8 (pairs.flatMap fun p => [p.1, p.2]) =
      (pairs.map fun p => [UInt8.ofNat p.1.toNat, UInt8.ofNat p.2.toNat]).flatten := by
    rw [utf8_of_ascii, List.map_flatMap, List.flatMap_def]
    · exact rfl
    · intro c hc
      obtain ⟨p, hm, hc⟩ := List.mem_flatMap.1 hc
      obtain rfl | rfl : c = p.1 ∨ c = p.2 := by simpa using hc
      · exact (hp p hm).1
      · exact (hp p hm).2
  have htwo : ∀ piece ∈ pairs.map fun p => [UInt8.ofNat p.1.toNat, UInt8.ofNat p.2.toNat],
      piece.length = 2 := by
    intro piece hm
    obtain ⟨p, -, rfl⟩ := List.mem_map.1 hm
    exact rfl
  rw [hbytes, chunks_flatten (by omega) htwo, mapM_eq_some_iff, List.forall₂_map_left_iff]
  have hcongr {R S : Char × Char → UInt8 → Prop}
      (hRS : ∀ p b, p.1.toNat < 128 ∧ p.2.toNat < 128 → R p b → S p b)
      (hR : List.Forall₂ R pairs digest) : List.Forall₂ S pairs digest :=
    ((List.forall₂_and_left pairs digest).2 ⟨hp, hR⟩).imp fun p b h => hRS p b h.1 h.2
  exact ⟨hcongr fun p b h => (hexPair_eq_some_iff h.1 h.2).1,
    hcongr fun p b h => (hexPair_eq_some_iff h.1 h.2).2⟩

/-- A field is decoded when it is 64 characters of which each pair is two digits, or a `+` and a
digit. -/
theorem decodeHex_eq_some_iff : decodeHex field = some digest ↔
    digest.length = 32 ∧ Spells (fun p b => IsPair p b ∨ IsSigned p b) field digest := by
  unfold decodeHex
  constructor
  · intro h
    split_ifs at h with hlen
    rw [not_not] at hlen
    have hsmall := forall_of_forall₂ (mapM_eq_some_iff.1 h) fun _ _ => lt_of_hexPair_eq_some
    have hascii : ∀ c ∈ field, c.toNat < 128 := by
      apply ascii_of_utf8
      intro x hx
      have hflat : (chunks 2 (utf8 field)).flatten = utf8 field := flatten_chunks (by omega) _
      rw [← hflat] at hx
      obtain ⟨piece, hpiece, hx⟩ := List.mem_flatten.1 hx
      exact hsmall piece hpiece x hx
    have hfield : field.length = 2 * 32 := by
      rw [len, utf8_of_ascii hascii, List.length_map] at hlen
      exact hlen
    obtain ⟨pairs, rfl⟩ := exists_pairs hfield
    have hspells : Spells (fun p b => IsPair p b ∨ IsSigned p b)
        (pairs.flatMap fun p => [p.1, p.2]) digest := by
      refine ⟨pairs, rfl, (mapM_hexPair_eq_some_iff ?_).1 h⟩
      intro p hp
      exact ⟨hascii _ (List.mem_flatMap.2 ⟨p, hp, by simp⟩),
        hascii _ (List.mem_flatMap.2 ⟨p, hp, by simp⟩)⟩
    have hlength := hspells.length
    exact ⟨by omega, hspells⟩
  · rintro ⟨hl, hspells⟩
    have hlength := hspells.length
    obtain ⟨pairs, rfl, hp⟩ := hspells
    have hascii : ∀ p ∈ pairs, p.1.toNat < 128 ∧ p.2.toNat < 128 := by
      refine forall_of_forall₂ hp ?_
      rintro p b (⟨high, low, hhigh, hlow, -⟩ | ⟨hplus, hlow⟩)
      · exact ⟨(lt_of_digit_eq_some hhigh).2, (lt_of_digit_eq_some hlow).2⟩
      · rw [hplus]
        exact ⟨by decide, (lt_of_digit_eq_some hlow).2⟩
    rw [if_neg, mapM_hexPair_eq_some_iff hascii]
    · exact hp
    · rw [not_not, len, utf8_of_ascii, List.length_map, hlength, hl]
      intro c hc
      obtain ⟨p, hm, hc⟩ := List.mem_flatMap.1 hc
      obtain rfl | rfl : c = p.1 ∨ c = p.2 := by simpa using hc
      · exact (hascii p hm).1
      · exact (hascii p hm).2

theorem ne_plus_of_isPair (h : IsPair p b) : p.1 ≠ '+' := by
  obtain ⟨high, low, hh, -⟩ := h
  intro hplus
  rw [hplus] at hh
  cases hh

/-- A field is 64 hexadecimal digits, which spell the bytes. -/
def IsDigest (field : Str) (digest : Bytes) : Prop :=
  digest.length = 32 ∧ Spells IsPair field digest

/-- A field is 64 characters in pairs of two digits or of a `+` and a digit, and has a `+`. -/
def HasSign (field : Str) : Prop :=
  ∃ pairs : List (Char × Char), pairs.length = 32 ∧ field = pairs.flatMap (fun p => [p.1, p.2]) ∧
    (∀ p ∈ pairs, ((digit p.1).isSome = true ∨ p.1 = '+') ∧ (digit p.2).isSome = true) ∧
    ∃ p ∈ pairs, p.1 = '+'

theorem decodeHex_of_isDigest (h : IsDigest field digest) : decodeHex field = some digest := by
  obtain ⟨hl, pairs, hf, hp⟩ := h
  exact decodeHex_eq_some_iff.2 ⟨hl, pairs, hf, hp.imp fun _ _ h => .inl h⟩

theorem exists_byte {p : Char × Char}
    (h : ((digit p.1).isSome = true ∨ p.1 = '+') ∧ (digit p.2).isSome = true) :
    ∃ b, IsPair p b ∨ IsSigned p b := by
  obtain ⟨hfirst, hsecond⟩ := h
  obtain ⟨low, hlow⟩ := Option.isSome_iff_exists.1 hsecond
  have hl := (lt_of_digit_eq_some hlow).1
  rcases hfirst with hfirst | hplus
  · obtain ⟨high, hhigh⟩ := Option.isSome_iff_exists.1 hfirst
    have hh := (lt_of_digit_eq_some hhigh).1
    have hv : (UInt8.ofNat (16 * high + low)).toNat = 16 * high + low :=
      UInt8.toNat_ofNat_of_lt' (by change _ < 256; omega)
    exact ⟨UInt8.ofNat (16 * high + low), .inl ⟨high, low, hhigh, hlow, hv⟩⟩
  · have hv : (UInt8.ofNat low).toNat = low := UInt8.toNat_ofNat_of_lt' (by change _ < 256; omega)
    exact ⟨UInt8.ofNat low, .inr ⟨hplus, by rw [hv, hlow]⟩⟩

/-- The pairs of a text are determined by it. -/
theorem pairs_injective {ps qs : List (Char × Char)}
    (h : (ps.flatMap fun p => [p.1, p.2]) = qs.flatMap fun p => [p.1, p.2]) : ps = qs := by
  induction ps generalizing qs with
  | nil =>
      cases qs with
      | nil => rfl
      | cons q qs => cases h
  | cons p ps ih =>
      cases qs with
      | nil => cases h
      | cons q qs =>
          simp only [List.flatMap_cons, List.cons_append, List.nil_append, List.cons.injEq] at h
          obtain ⟨h₁, h₂, hrest⟩ := h
          rw [ih hrest, Prod.ext h₁ h₂]

/-- What is decoded although it is no digest has a sign. -/
theorem hasSign_iff : HasSign field ↔
    ∃ digest, decodeHex field = some digest ∧ ¬ IsDigest field digest := by
  constructor
  · rintro ⟨pairs, hl, rfl, hp, p, hmem, hplus⟩
    obtain ⟨digest, hd⟩ := exists_forall₂ fun p hm => exists_byte (hp p hm)
    refine ⟨digest, decodeHex_eq_some_iff.2 ⟨by rw [← hd.length_eq, hl], pairs, rfl, hd⟩, ?_⟩
    rintro ⟨-, pairs', heq, hpairs⟩
    obtain rfl := pairs_injective heq
    exact forall_of_forall₂ hpairs (fun _ _ => ne_plus_of_isPair) p hmem hplus
  · rintro ⟨digest, hd, hnot⟩
    obtain ⟨hl, pairs, rfl, hp⟩ := decodeHex_eq_some_iff.1 hd
    refine ⟨pairs, hp.length_eq.trans hl, rfl, ?_, ?_⟩
    · refine forall_of_forall₂ hp ?_
      rintro p b (⟨high, low, hhigh, hlow, -⟩ | ⟨hplus, hlow⟩)
      · exact ⟨.inl (by rw [hhigh]; rfl), by rw [hlow]; rfl⟩
      · exact ⟨.inr hplus, by rw [hlow]; rfl⟩
    · by_contra hnone
      have hdigits : ∀ p ∈ pairs, p.1 ≠ '+' := fun p hm hplus => hnone ⟨p, hm, hplus⟩
      have hall := (List.forall₂_and_left pairs digest).2 ⟨hdigits, hp⟩
      exact hnot ⟨hl, pairs, rfl, hall.imp fun p b h => h.2.resolve_right fun hs => h.1 hs.1⟩

/-- Every digest is decoded as it was encoded. -/
theorem decodeHex_encodeHex (h : digest.length = 32) :
    decodeHex (encodeHex digest) = some digest :=
  decodeHex_of_isDigest ⟨h, spells_hex digest⟩

end Decode

section Checksum

variable {manifest fileName : Str} {digest : Bytes}

theorem expectedChecksum_eq_ok_iff : expectedChecksum manifest fileName = .ok digest ↔
    ∃ entry, entryFor manifest fileName = some entry ∧ decodeHex entry.1 = some digest := by
  unfold expectedChecksum
  cases entryFor manifest fileName with
  | none => simp
  | some entry => cases hd : decodeHex entry.1 <;> simp [hd]

end Checksum

/-- Exactly the digests of a manifest are read from it, the first entry's for each file. -/
structure ParsesExactly (manifest fileName : Str) : Prop where
  ok_iff : ∀ digest, expectedChecksum manifest fileName = .ok digest ↔
    ∃ entry, entryFor manifest fileName = some entry ∧ IsDigest entry.1 digest
  invalid : ∀ entry, entryFor manifest fileName = some entry →
    (∀ digest, ¬ IsDigest entry.1 digest) →
      expectedChecksum manifest fileName = .error (.checksumInvalid fileName)

/-- A field of thirty-two times `+f` is read as the digest of thirty-two times `0f`. -/
theorem not_parsesExactly_signed : ¬ ParsesExactly
    "+f+f+f+f+f+f+f+f+f+f+f+f+f+f+f+f+f+f+f+f+f+f+f+f+f+f+f+f+f+f+f+f  aldis-x86_64-linux.tar.xz\n"
    "aldis-x86_64-linux.tar.xz" := by
  intro h
  have hok := (h.ok_iff (List.replicate 32 15)).1 (by decide +kernel)
  obtain ⟨entry, he, -, pairs, hf, hp⟩ := hok
  have hentry : entry.1 = (List.replicate 32 ['+', 'f']).flatten := by
    have hfirst := Option.some.inj (he.symm.trans (by decide +kernel : entryFor _ _ = some
      ((List.replicate 32 ['+', 'f']).flatten, " aldis-x86_64-linux.tar.xz".toList)))
    rw [hfirst]
  rw [hentry] at hf
  obtain rfl : List.replicate 32 ('+', 'f') = pairs := pairs_injective hf
  exact forall_of_forall₂ hp (fun _ _ => ne_plus_of_isPair) ('+', 'f') (by simp) rfl

/-- Digests are parsed exactly unless the file's first entry has a sign among its digits. What is
encoded is decoded, and a FOCI image is only accepted with the digest of its entry. -/
theorem parsesExactly_iff (sha256 : Bytes → Bytes) (manifest fileName : Str) :
    (ParsesExactly manifest fileName ↔
      ∀ entry, entryFor manifest fileName = some entry → ¬ HasSign entry.1) ∧
    (∀ digest : Bytes, digest.length = 32 → decodeHex (encodeHex digest) = some digest) ∧
    ∀ firmware, Foci.verifyFirmware sha256 fileName manifest firmware = .ok () →
      expectedChecksum manifest fileName = .ok (sha256 firmware) := by
  refine ⟨?_, fun _ => decodeHex_encodeHex, ?_⟩
  · constructor
    · intro h entry he hs
      obtain ⟨digest, hd, hnot⟩ := hasSign_iff.1 hs
      obtain ⟨entry', he', hdigest⟩ :=
        (h.ok_iff digest).1 (expectedChecksum_eq_ok_iff.2 ⟨entry, he, hd⟩)
      obtain rfl := Option.some.inj (he.symm.trans he')
      exact hnot hdigest
    · intro h
      have hexact : ∀ entry, entryFor manifest fileName = some entry → ∀ digest,
          decodeHex entry.1 = some digest → IsDigest entry.1 digest := by
        intro entry he digest hd
        by_contra hnot
        exact h entry he (hasSign_iff.2 ⟨digest, hd, hnot⟩)
      constructor
      · intro digest
        rw [expectedChecksum_eq_ok_iff]
        constructor
        · rintro ⟨entry, he, hd⟩
          exact ⟨entry, he, hexact entry he digest hd⟩
        · rintro ⟨entry, he, hd⟩
          exact ⟨entry, he, decodeHex_of_isDigest hd⟩
      · intro entry he hno
        unfold expectedChecksum
        simp only [he]
        cases hd : decodeHex entry.1 with
        | none => rfl
        | some digest => exact absurd (hexact entry he digest hd) (hno digest)
  · intro firmware h
    exact Foci.verifyFirmware_ok h

end Aldis.SelfUpdate

import Aldis.Identify.Frame

/-!
# Frames in a noisy stream

The decoder looks at one position after the other and jumps over the blocks it accepts. Noise can
only cost a frame by holding the beginning of a block that is valid and reaches into the frame,
and where the reads cut the stream does not matter at all.
-/

namespace Aldis.Identify

open Octets Scanner

/-- Some position inside the first `length` bytes starts a valid block that reaches beyond them. -/
def Overlapped (length : ℕ) (stream : Bytes) : Prop :=
  ∃ i < length, ∃ frame size, block (stream.drop i) = .found frame size ∧ length < i + size

theorem block_ne_wait {buffer : Bytes} (h : MESSAGE_MAX ≤ buffer.length) :
    block buffer ≠ .wait := by
  have hmax : MESSAGE_MAX = 64 := rfl
  cases buffer with
  | nil => exact absurd h (by decide)
  | cons first rest =>
      by_cases hsize : MESSAGE_MIN ≤ first.toNat ∧ first.toNat ≤ MESSAGE_MAX
      · rw [block]
        dsimp only
        rw [if_neg (not_not.2 hsize), if_neg (by omega)]
        intro hwait
        split_ifs at hwait
      · rw [block_of_size rest hsize]
        intro hwait
        cases hwait

theorem size_pos {buffer : Bytes} {frame : Frame} {size : ℕ}
    (h : block buffer = .found frame size) : 0 < size := by
  have hmin : MESSAGE_MIN = 5 := rfl
  cases buffer with
  | nil => cases h
  | cons first rest =>
      rw [size_of_found h]
      by_contra h0
      rw [block_of_size rest (by omega)] at h
      cases h

/-- Behind any noise, an encoded frame is emitted at its position, unless the noise starts a valid
block that reaches into it; and the decoder's loop ends on every buffer. -/
theorem frame_found_after_noise :
    (∀ (noise more : Bytes) (seq : UInt8) (payload : Bytes), payload.length ≤ 59 →
      64 ≤ more.length →
      (∃ frames, Drains block 0 (noise ++ encodeFrame seq payload ++ more) frames) ∧
      (∀ frames, Drains block 0 (noise ++ encodeFrame seq payload ++ more) frames →
        Emits block (noise ++ encodeFrame seq payload ++ more) (frames.map Prod.snd)) ∧
      (Overlapped noise.length (noise ++ encodeFrame seq payload ++ more) ∨
        ∀ frames, Drains block 0 (noise ++ encodeFrame seq payload ++ more) frames →
          (noise.length, ⟨MESSAGE_DEST ||| (seq &&& MESSAGE_SEQ_MASK), payload⟩) ∈ frames)) ∧
    ∀ (buffer : Bytes) (turns : ℕ), buffer.length < turns →
      loop block turns buffer = some (nextFrame buffer) := by
  refine ⟨?_, fun buffer turns h => loop_eq_next h⟩
  intro noise more seq payload hp hm
  refine ⟨exists_drains (fun _ _ _ => size_pos) 0 _, fun _ hd => hd.emits,
    or_iff_not_imp_left.2 ?_⟩
  intro hover frames hd
  rw [List.append_assoc] at hd hover
  have hpassed : Passed block noise (encodeFrame seq payload ++ more) := by
    constructor
    · intro i hi
      apply block_ne_wait
      rw [List.length_drop, List.length_append, List.length_append]
      change 64 ≤ _
      omega
    · intro i hi frame size hl
      by_contra hlt
      exact hover ⟨i, hi, frame, size, hl, not_le.1 hlt⟩
  obtain ⟨earlier, later, rfl, hlater⟩ := Drains.resume (fun _ _ _ => size_pos) hpassed hd
  -- The scan has reached the frame itself, which is the next one taken off.
  have hblock := @block_encodeFrame seq payload more (by change _ + 5 ≤ 64; omega)
  obtain ⟨first, bytes, hb⟩ : ∃ first bytes, encodeFrame seq payload ++ more = first :: bytes :=
    ⟨_, _, rfl⟩
  rw [hb] at hblock hlater
  obtain ⟨rest, rfl, -⟩ := Drains.of_found hblock hlater
  rw [Nat.zero_add]
  exact List.mem_append_right _ List.mem_cons_self

/-- However a stream is split into pushes, draining the decoder after each of them ends, emits the
frames and leaves the remainder that draining it after one push of the whole stream does. -/
theorem frames_whatever_the_reads (pushes : List Bytes) :
    (∃ frames rest, Fed block [] pushes frames rest) ∧
    (∀ frames rest, Fed block [] pushes frames rest ↔ Fed block [] [pushes.flatten] frames rest) ∧
    ∀ frames rest frames' rest', Fed block [] pushes frames rest →
      Fed block [] pushes frames' rest' → frames = frames' ∧ rest = rest' := by
  have hpos : ∀ (buffer : Bytes) (frame : Frame) (size : ℕ),
      block buffer = .found frame size → 0 < size := fun _ _ _ => size_pos
  have hiff : ∀ (pushes : List Bytes) frames rest,
      Fed block [] pushes frames rest ↔ Drained block pushes.flatten frames rest :=
    fun _ _ _ => fed_iff_drained steady_block hpos
  refine ⟨exists_fed hpos [] pushes, ?_, ?_⟩
  · intro frames rest
    rw [hiff, hiff, List.flatten_singleton]
  · intro frames rest frames' rest' h h'
    exact ((hiff pushes frames rest).1 h).unique ((hiff pushes frames' rest').1 h')

theorem frame_across_reads : Fed block [] [[7, 17, 1], [2, 177], [131, 126]]
    [⟨17, [1, 2]⟩] [] := by
  have hnext : next block [7, 17, 1, 2, 177, 131, 126] = (some ⟨17, [1, 2]⟩, []) := by
    decide +kernel
  have hempty : next block [] = (none, []) := rfl
  have hone : Fed block [] [[7, 17, 1, 2, 177, 131, 126]] ([⟨17, [1, 2]⟩] ++ []) [] :=
    .push (.take hnext (.stop hempty)) .done
  exact ((frames_whatever_the_reads _).2.1 _ _).2 hone

end Aldis.Identify

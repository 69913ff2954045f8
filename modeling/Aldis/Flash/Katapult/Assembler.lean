import Aldis.Flash.Katapult.Frame
import Aldis.Lib.Windows
import Mathlib.Data.List.GetD

/-!
# Reassembly of Katapult replies

A reply arrives in chunks, behind whatever a request that timed out left on the line. The
assembler drops everything before the first header, and its buffer is at all times the part of
the received bytes that may still belong to the reply.
-/

namespace Aldis.Katapult

open Octets Windows

inductive AssemblyError where
  | tooLarge (length : ℕ)
  | lengthExceeded (expected actual : ℕ)
  deriving DecidableEq

structure ResponseAssembler where
  buffer : Bytes
  deriving DecidableEq

/-- Drops what precedes the header. Without one, only a last byte that may begin it is kept. -/
def discardUntilHeader (buffer : Bytes) : Bytes :=
  match position HEADER buffer with
  | some start => buffer.drop start
  | none =>
    let keep := if buffer.getLast? = HEADER.head? then 1 else 0
    buffer.drop (buffer.length - keep)

namespace ResponseAssembler

def new : ResponseAssembler := ⟨[]⟩

def push (assembler : ResponseAssembler) (chunk : Bytes) :
    ResponseAssembler × Except AssemblyError (Option Bytes) :=
  let buffer := discardUntilHeader (assembler.buffer ++ chunk)
  if MAX_RESPONSE_FRAME_BYTES < buffer.length then (⟨buffer⟩, .error (.tooLarge buffer.length))
  else if buffer.length < 4 then (⟨buffer⟩, .ok none)
  else
    let expected := MIN_FRAME_LENGTH + (buffer.getD 3 0).toNat * 4
    if buffer.length < expected then (⟨buffer⟩, .ok none)
    else if buffer.length = expected then (⟨[]⟩, .ok (some buffer))
    else (⟨buffer⟩, .error (.lengthExceeded expected buffer.length))

def pushAll : ResponseAssembler → List Bytes → List (Except AssemblyError (Option Bytes))
  | _, [] => []
  | assembler, chunk :: rest =>
    (assembler.push chunk).2 :: (assembler.push chunk).1.pushAll rest

end ResponseAssembler

/-- A frame whose length byte agrees with its length, behind bytes in which no header begins. -/
structure Delivery (junk frame : Bytes) : Prop where
  first : Occurs HEADER (junk ++ frame) junk.length
  before : ∀ i < junk.length, ¬ Occurs HEADER (junk ++ frame) i
  length : frame.length = MIN_FRAME_LENGTH + (frame.getD 3 0).toNat * 4

/-- What the assembler holds after `received`: the received part of the frame, or a last byte that
may begin a header. -/
def held (junk received : Bytes) : Bytes :=
  if junk.length + 2 ≤ received.length then received.drop junk.length
  else if received.getLast? = HEADER.head? then [0x01]
  else []

section Reassembly

variable {junk frame received chunk : Bytes}

/-- The buffer is what was received from some position on, which is not past the frame's start. -/
theorem Delivery.held_eq_drop (h : Delivery junk frame) (hp : received <+: junk ++ frame) :
    ∃ start, start ≤ junk.length ∧ start ≤ received.length ∧
      held junk received = received.drop start := by
  by_cases hl : junk.length + 2 ≤ received.length
  · exact ⟨junk.length, le_rfl, by omega, if_pos hl⟩
  · unfold held
    rw [if_neg hl]
    by_cases hlast : received.getLast? = HEADER.head?
    · rw [if_pos hlast]
      obtain ⟨init, rfl⟩ := List.getLast?_eq_some_iff.1 hlast
      refine ⟨init.length, ?_, by simp, by simp⟩
      rw [List.length_append, List.length_singleton] at hl
      omega
    · rw [if_neg hlast]
      by_cases hle : received.length ≤ junk.length
      · exact ⟨received.length, hle, le_rfl, by simp⟩
      · -- One byte of the frame has arrived, and it is the first byte of the header.
        exfalso
        apply hlast
        obtain ⟨rest, hrest⟩ := hp
        have hone : received.length = junk.length + 1 := by omega
        have hget : received.getLast? = (junk ++ frame)[junk.length]? := by
          rw [List.getLast?_eq_getElem?, hone, ← hrest, Nat.add_sub_cancel,
            List.getElem?_append_left (by omega)]
        have hfirst : (junk ++ frame)[junk.length]? = HEADER.head? := by
          obtain ⟨tail, ht⟩ := h.first
          rw [← Nat.add_zero junk.length, ← List.getElem?_drop, ← ht]
          exact rfl
        rw [hget, hfirst]

theorem drop_unless_header (buffer : Bytes) :
    buffer.drop (buffer.length - if buffer.getLast? = HEADER.head? then 1 else 0) =
      if buffer.getLast? = HEADER.head? then [0x01] else [] := by
  by_cases hlast : buffer.getLast? = HEADER.head?
  · obtain ⟨init, rfl⟩ := List.getLast?_eq_some_iff.1 hlast
    rw [if_pos hlast, if_pos hlast, List.length_append, List.length_singleton,
      Nat.add_sub_cancel]
    exact List.drop_left
  · rw [if_neg hlast, if_neg hlast, Nat.sub_zero, List.drop_length]

/-- Searching the buffer and the next chunk for a header leaves what is to be held of both. -/
theorem Delivery.discard (h : Delivery junk frame) (hp : received ++ chunk <+: junk ++ frame) :
    discardUntilHeader (held junk received ++ chunk) = held junk (received ++ chunk) := by
  have hne : HEADER ≠ [] := by decide
  obtain ⟨start, hs, hsr, heq⟩ := h.held_eq_drop ((List.prefix_append _ _).trans hp)
  obtain ⟨rest, hrest⟩ := id hp
  have hbuffer : held junk received ++ chunk = (received ++ chunk).drop start := by
    rw [heq, List.drop_append_of_le_length hsr]
  have hocc : ∀ {i}, Occurs HEADER ((received ++ chunk).drop start) i →
      Occurs HEADER (junk ++ frame) (start + i) := by
    intro i hi
    rw [← hrest]
    exact (occurs_drop.1 hi).append (by have := (occurs_drop.1 hi).le hne; omega)
  by_cases hl : junk.length + 2 ≤ (received ++ chunk).length
  · have hpos : position HEADER ((received ++ chunk).drop start) = some (junk.length - start) := by
      rw [position_eq_some_iff hne]
      constructor
      · rw [occurs_drop, Nat.add_sub_cancel' hs]
        have hfirst := h.first
        rw [← hrest] at hfirst
        exact hfirst.of_append hl
      · intro j hj ho
        exact h.before (start + j) (by omega) (hocc ho)
    rw [hbuffer, discardUntilHeader, hpos]
    dsimp only
    rw [List.drop_drop, Nat.add_sub_cancel' hs, held, if_pos hl]
  · have hpos : position HEADER ((received ++ chunk).drop start) = none := by
      rw [position_eq_none_iff hne]
      intro i ho
      have hle := ho.le hne
      have hbound : ¬ start + i < junk.length := fun hlt => h.before _ hlt (hocc ho)
      rw [List.length_drop] at hle
      change i + 2 ≤ _ at hle
      omega
    rw [discardUntilHeader, hbuffer, hpos]
    dsimp only
    rw [drop_unless_header, held, if_neg hl, List.getLast?_drop]
    by_cases hlt : (received ++ chunk).length ≤ start
    · -- Nothing was held and nothing is added.
      have hlen := @List.length_append _ received chunk
      obtain rfl : chunk = [] := List.length_eq_zero_iff.1 (by omega)
      rw [List.append_nil] at hlt hl ⊢
      have hempty : held junk received = [] := by
        rw [heq, List.drop_eq_nil_iff]
        exact hlt
      have hlast : received.getLast? ≠ HEADER.head? := by
        intro hlast
        rw [held, if_neg hl, if_pos hlast] at hempty
        cases hempty
      rw [if_pos hlt, if_neg hlast]
      exact rfl
    · rw [if_neg hlt]

/-- A chunk that completes the frame yields it; every other one yields nothing. -/
theorem Delivery.push (h : Delivery junk frame) (hp : received ++ chunk <+: junk ++ frame) :
    ResponseAssembler.push ⟨held junk received⟩ chunk =
      if received ++ chunk = junk ++ frame then (⟨[]⟩, .ok (some frame))
      else (⟨held junk (received ++ chunk)⟩, .ok none) := by
  obtain ⟨rest, hrest⟩ := id hp
  have htotal : (received ++ chunk).length + rest.length = junk.length + frame.length := by
    rw [← List.length_append, hrest, List.length_append]
  have hbound := (frame.getD 3 0).toNat_lt
  have hframe := h.length
  have hmin : MIN_FRAME_LENGTH = 8 := rfl
  have hall : received ++ chunk = junk ++ frame ↔ rest.length = 0 := by
    rw [List.length_eq_zero_iff, ← hrest, List.self_eq_append_right]
  unfold ResponseAssembler.push
  rw [h.discard hp]
  simp only [hall]
  by_cases hl : junk.length + 2 ≤ (received ++ chunk).length
  · have hheld : held junk (received ++ chunk) = (received ++ chunk).drop junk.length := if_pos hl
    have hpre : held junk (received ++ chunk) ++ rest = frame := by
      have hdrop := congrArg (List.drop junk.length) hrest
      rw [List.drop_left, List.drop_append_of_le_length (by omega)] at hdrop
      rw [hheld, hdrop]
    have hlen : (held junk (received ++ chunk)).length + rest.length = frame.length := by
      rw [← List.length_append, hpre]
    have hmax : ¬ MAX_RESPONSE_FRAME_BYTES < (held junk (received ++ chunk)).length := by
      change ¬ 1028 < _
      omega
    rw [if_neg hmax]
    by_cases hfour : (held junk (received ++ chunk)).length < 4
    · rw [if_pos hfour, if_neg (by omega)]
    · have hcount : (held junk (received ++ chunk)).getD 3 0 = frame.getD 3 0 := by
        rw [← hpre, List.getD_append _ _ _ _ (by omega)]
      rw [if_neg hfour, hcount]
      by_cases hdone : rest.length = 0
      · obtain rfl := List.length_eq_zero_iff.1 hdone
        rw [List.append_nil] at hpre
        rw [if_neg (by omega), if_pos (by omega), if_pos hdone, hpre]
      · rw [if_pos (by omega), if_neg hdone]
  · have hshort : (held junk (received ++ chunk)).length < 4 := by
      rw [held, if_neg hl]
      split_ifs
      · decide
      · decide
    have hmax : ¬ MAX_RESPONSE_FRAME_BYTES < (held junk (received ++ chunk)).length := by
      change ¬ 1028 < _
      omega
    rw [if_neg hmax, if_pos hshort, if_neg (by omega)]

theorem Delivery.push_last (h : Delivery junk frame) (hc : received ++ chunk = junk ++ frame) :
    ResponseAssembler.push ⟨held junk received⟩ chunk = (⟨[]⟩, .ok (some frame)) := by
  have hp : received ++ chunk <+: junk ++ frame := by rw [hc]
  rw [h.push hp, if_pos hc]

/-- A chunk with bytes of the frame still to come yields nothing. -/
theorem Delivery.push_more (h : Delivery junk frame) {more : List Bytes} {last : Bytes}
    (hm : last ∈ more) (hl : last ≠ [])
    (hc : received ++ chunk ++ more.flatten = junk ++ frame) :
    ResponseAssembler.push ⟨held junk received⟩ chunk =
      (⟨held junk (received ++ chunk)⟩, .ok none) := by
  have hp : received ++ chunk <+: junk ++ frame := ⟨_, hc⟩
  have hne : received ++ chunk ≠ junk ++ frame := by
    intro he
    rw [he, List.append_right_eq_self, List.flatten_eq_nil_iff] at hc
    exact hl (hc last hm)
  rw [h.push hp, if_neg hne]

/-- Every chunk but the last of a delivery yields nothing, and the last one the frame. -/
theorem Delivery.pushAll (h : Delivery junk frame) {chunks : List Bytes} {last : Bytes}
    (hl : last ≠ []) (hc : received ++ (chunks ++ [last]).flatten = junk ++ frame) :
    ResponseAssembler.pushAll ⟨held junk received⟩ (chunks ++ [last]) =
      chunks.map (fun _ => .ok none) ++ [.ok (some frame)] := by
  induction chunks generalizing received with
  | nil =>
      have hlast : received ++ last = junk ++ frame := by simpa using hc
      simp only [List.nil_append, List.map_nil, ResponseAssembler.pushAll]
      rw [h.push_last hlast]
  | cons chunk chunks ih =>
      have hrest : received ++ chunk ++ (chunks ++ [last]).flatten = junk ++ frame := by
        rw [← hc]
        simp
      have hpush := h.push_more (List.mem_append_right chunks List.mem_cons_self) hl hrest
      simp only [List.cons_append, List.map_cons, ResponseAssembler.pushAll, hpush]
      rw [ih hrest]

end Reassembly

end Aldis.Katapult

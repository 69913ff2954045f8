import Mathlib.Data.List.GetD
import Mathlib.Data.ZMod.Basic
import Mathlib.Tactic

/-!
# Linear feedback shift registers

A register takes in one bit a step, shifts towards its lowest bit, and adds its polynomial when a
set bit leaves. It is linear, so what two inputs leave in it differs by what their difference
leaves in a cleared one. A difference that leaves nothing is undetected; those of odd weight, of
two bits close together, and of one short burst never are.
-/

namespace Register

variable {w : ℕ} (poly : BitVec w)

def step (s : BitVec w) : BitVec w := (s >>> 1) ^^^ if s.getLsbD 0 then poly else 0#w

def bit (b : Bool) : BitVec w := if b then 1#w else 0#w

def feed (s : BitVec w) (b : Bool) : BitVec w := step poly (s ^^^ bit b)

def run (s : BitVec w) (bits : List Bool) : BitVec w := bits.foldl (feed poly) s

/-- The word with the given bits, the first one lowest. -/
def word : List Bool → BitVec w
  | [] => 0#w
  | b :: bits => bit b ^^^ (word bits <<< 1)

variable {poly} {s t : BitVec w} {b : Bool} {bits : List Bool}

section Linear

theorem step_xor (s t : BitVec w) : step poly (s ^^^ t) = step poly s ^^^ step poly t := by
  unfold step
  rw [BitVec.ushiftRight_xor_distrib, BitVec.getLsbD_xor]
  have hpoly : (if s.getLsbD 0 ^^ t.getLsbD 0 then poly else 0#w) =
      (if s.getLsbD 0 then poly else 0#w) ^^^ if t.getLsbD 0 then poly else 0#w := by
    cases s.getLsbD 0 <;> cases t.getLsbD 0 <;> simp
  rw [hpoly]
  ac_rfl

theorem step_zero : step poly 0#w = 0#w := by
  simp [step]

theorem iterate_step_xor (n : ℕ) (s t : BitVec w) :
    (step poly)^[n] (s ^^^ t) = (step poly)^[n] s ^^^ (step poly)^[n] t := by
  induction n generalizing s t with
  | zero => rfl
  | succ n ih => rw [Function.iterate_succ_apply, step_xor, ih]; rfl

theorem iterate_step_zero (n : ℕ) : (step poly)^[n] 0#w = 0#w :=
  Function.iterate_fixed step_zero n

theorem bit_xor (a b : Bool) : (bit (a ^^ b) : BitVec w) = bit a ^^^ bit b := by
  cases a <;> cases b <;> simp [bit]

/-- Two inputs of one length leave what their difference leaves in a cleared register. -/
theorem run_xor {as bs : List Bool} (h : as.length = bs.length) :
    run poly (s ^^^ t) (List.zipWith (· ^^ ·) as bs) = run poly s as ^^^ run poly t bs := by
  induction as generalizing bs s t with
  | nil =>
      obtain rfl := List.eq_nil_of_length_eq_zero h.symm
      rfl
  | cons a as ih =>
      cases bs with
      | nil => cases h
      | cons b bs =>
          have hfeed : feed poly (s ^^^ t) (a ^^ b) = feed poly s a ^^^ feed poly t b := by
            rw [feed, feed, feed, ← step_xor, bit_xor]
            congr 1
            ac_rfl
          change run poly (feed poly (s ^^^ t) (a ^^ b)) (List.zipWith (· ^^ ·) as bs) = _
          rw [hfeed, ih (Nat.succ.inj h)]
          rfl

theorem run_append (s : BitVec w) (as bs : List Bool) :
    run poly s (as ++ bs) = run poly (run poly s as) bs := List.foldl_append

theorem run_replicate_false (s : BitVec w) (n : ℕ) :
    run poly s (List.replicate n false) = (step poly)^[n] s := by
  induction n generalizing s with
  | zero => rfl
  | succ n ih =>
      have hfeed : feed poly s false = step poly s := by simp [feed, bit]
      change run poly (feed poly s false) (List.replicate n false) = _
      rw [hfeed, ih, Function.iterate_succ_apply]

/-- While clear bits leave it, a register only moves down. -/
theorem iterate_step_of_low {n : ℕ} (h : ∀ i < n, s.getLsbD i = false) :
    (step poly)^[n] s = s >>> n := by
  induction n with
  | zero => simp
  | succ n ih =>
      have hlow : (s >>> n).getLsbD 0 = false := by
        rw [BitVec.getLsbD_ushiftRight]
        exact h n (by omega)
      rw [Function.iterate_succ_apply', ih fun i hi => h i (by omega), step, hlow,
        if_neg Bool.false_ne_true, BitVec.xor_zero, BitVec.shiftRight_add]

end Linear

section Injective

/-- A register whose polynomial has its highest bit never loses what it holds. -/
theorem eq_zero_of_step (hp : poly.msb = true) (h : step poly s = 0#w) : s = 0#w := by
  unfold step at h
  cases hs : s.getLsbD 0 with
  | true =>
      rw [hs, if_pos rfl] at h
      have hm := congrArg BitVec.msb h
      simp [hp] at hm
  | false =>
      rw [hs, if_neg Bool.false_ne_true, BitVec.xor_zero] at h
      apply BitVec.eq_of_getLsbD_eq
      intro i _
      rw [BitVec.getLsbD_zero]
      cases i with
      | zero => exact hs
      | succ i =>
          have hi : (s >>> 1).getLsbD i = (0#w).getLsbD i := by rw [h]
          rw [BitVec.getLsbD_ushiftRight, BitVec.getLsbD_zero, Nat.add_comm] at hi
          exact hi

theorem eq_zero_of_iterate_step (hp : poly.msb = true) {n : ℕ} (h : (step poly)^[n] s = 0#w) :
    s = 0#w := by
  induction n generalizing s with
  | zero => exact h
  | succ n ih =>
      rw [Function.iterate_succ_apply] at h
      exact eq_zero_of_step hp (ih h)

end Injective

section Word

theorem getLsbD_word {i : ℕ} (h : i < w) :
    (word bits : BitVec w).getLsbD i = bits.getD i false := by
  induction bits generalizing i with
  | nil => simp [word]
  | cons b bits ih =>
      rw [word, BitVec.getLsbD_xor, BitVec.getLsbD_shiftLeft]
      cases i with
      | zero => cases b <;> simp [bit, h]
      | succ i =>
          have hbit : (bit b : BitVec w).getLsbD (i + 1) = false := by
            cases b <;> simp [bit]
          rw [hbit, Nat.add_sub_cancel, ih (by omega)]
          simp [h]

/-- Bits that are shifted in below the register's width only move down. -/
theorem step_word_shiftLeft (h : bits.length < w) :
    step poly (word bits <<< 1 : BitVec w) = word bits := by
  unfold step
  have hlow : (word bits <<< 1 : BitVec w).getLsbD 0 = false := by simp
  rw [hlow, if_neg Bool.false_ne_true, BitVec.xor_zero]
  apply BitVec.eq_of_getLsbD_eq
  intro i hi
  rw [BitVec.getLsbD_ushiftRight, BitVec.getLsbD_shiftLeft]
  by_cases hlast : 1 + i < w
  · simp [hlast]
  · rw [getLsbD_word hi, List.getD_eq_default _ _ (by omega)]
    simp [hlast]

/-- A short input acts as if it had been added to the register at once. -/
theorem run_eq_iterate_step (h : bits.length ≤ w) (s : BitVec w) :
    run poly s bits = (step poly)^[bits.length] (s ^^^ word bits) := by
  induction bits generalizing s with
  | nil => simp [run, word]
  | cons b bits ih =>
      have hlen : bits.length < w := h
      change run poly (feed poly s b) bits = _
      rw [ih hlen.le, List.length_cons, Function.iterate_succ_apply, word, ← BitVec.xor_assoc,
        step_xor, step_word_shiftLeft hlen]
      rfl

/-- A register that takes in its own contents is cleared. -/
theorem run_word (h : bits.length ≤ w) : run poly (word bits) bits = 0#w := by
  rw [run_eq_iterate_step h, BitVec.xor_self, iterate_step_zero]

theorem word_getLsbD (s : BitVec w) : word ((List.range w).map s.getLsbD) = s := by
  apply BitVec.eq_of_getLsbD_eq
  intro i hi
  rw [getLsbD_word hi, List.getD_eq_getElem _ _ (by simpa using hi)]
  simp

theorem run_getLsbD (s : BitVec w) : run poly s ((List.range w).map s.getLsbD) = 0#w := by
  have hrun : run poly (word ((List.range w).map s.getLsbD)) ((List.range w).map s.getLsbD) =
      0#w := run_word (by simp)
  rwa [word_getLsbD] at hrun

theorem eq_false_of_word (hw : (word bits : BitVec w) = 0#w) (hl : bits.length ≤ w) :
    ∀ b ∈ bits, b = false := by
  intro b hb
  obtain ⟨i, hi, rfl⟩ := List.mem_iff_getElem.1 hb
  have hget : (word bits : BitVec w).getLsbD i = bits.getD i false := getLsbD_word (by omega)
  rw [hw, BitVec.getLsbD_zero, List.getD_eq_getElem _ _ hi] at hget
  exact hget.symm

end Word

section Parity

def parity (s : BitVec w) : ZMod 2 := ∑ i ∈ Finset.range w, ((s.getLsbD i).toNat : ZMod 2)

theorem toNat_xor (a b : Bool) : ((a ^^ b).toNat : ZMod 2) = a.toNat + b.toNat := by
  cases a <;> cases b <;> decide

theorem parity_xor (s t : BitVec w) : parity (s ^^^ t) = parity s + parity t := by
  simp only [parity, BitVec.getLsbD_xor, toNat_xor, Finset.sum_add_distrib]

theorem parity_shiftRight (s : BitVec w) :
    parity (s >>> 1) + ((s.getLsbD 0).toNat : ZMod 2) = parity s := by
  have hall : ∑ i ∈ Finset.range (w + 1), ((s.getLsbD i).toNat : ZMod 2) = parity s := by
    rw [Finset.sum_range_succ, BitVec.getLsbD_of_ge s w le_rfl, parity]
    simp
  rw [← hall, Finset.sum_range_succ', parity]
  simp only [BitVec.getLsbD_ushiftRight, Nat.add_comm 1]

/-- A polynomial of odd weight keeps the parity of the register. -/
theorem parity_step (hp : parity poly = 1) (s : BitVec w) : parity (step poly s) = parity s := by
  rw [step, parity_xor, ← parity_shiftRight s]
  cases s.getLsbD 0 with
  | true => rw [if_pos rfl, hp]; rfl
  | false => simp [parity]

theorem parity_bit (hw : 0 < w) (b : Bool) : parity (bit b : BitVec w) = b.toNat := by
  cases b with
  | false => simp [parity, bit]
  | true =>
      rw [parity, Finset.sum_eq_single_of_mem 0 (Finset.mem_range.2 hw)]
      · simp [bit, hw]
      · intro i _ hi
        simp [bit, hi]

theorem parity_run (hp : parity poly = 1) (hw : 0 < w) (s : BitVec w) (bits : List Bool) :
    parity (run poly s bits) = parity s + (bits.count true : ZMod 2) := by
  induction bits generalizing s with
  | nil => simp [run]
  | cons b bits ih =>
      change parity (run poly (feed poly s b) bits) = _
      rw [ih, feed, parity_step hp, parity_xor, parity_bit hw]
      cases b with
      | false => simp
      | true =>
          rw [List.count_cons_self, Bool.toNat_true]
          push_cast
          ring

end Parity

section Detection

variable (poly) in
/-- What a polynomial must satisfy for inputs of up to `n` bits: it has its highest bit and an odd
weight, and no single bit comes back to itself. -/
structure Detecting (n : ℕ) : Prop where
  msb : poly.msb = true
  odd : parity poly = 1
  unreturned : ∀ d, 0 < d → d < n → (step poly)^[d] 1#w ≠ 1#w

variable (poly) in
/-- Whether a register that starts at `s` stays clear of a single bit for `n` steps. -/
def staysClear : ℕ → BitVec w → Bool
  | 0, _ => true
  | n + 1, s => if step poly s = 1#w then false else staysClear n (step poly s)

theorem ne_one_of_staysClear {n d : ℕ} (h : staysClear poly n s = true) (hd : 0 < d)
    (hn : d ≤ n) : (step poly)^[d] s ≠ 1#w := by
  induction n generalizing s d with
  | zero => omega
  | succ n ih =>
      rw [staysClear] at h
      split_ifs at h with hs
      obtain ⟨d, rfl⟩ : ∃ k, d = k + 1 := ⟨d - 1, by omega⟩
      rw [Function.iterate_succ_apply]
      cases d with
      | zero => exact hs
      | succ d => exact ih h d.succ_pos (by omega)

theorem eq_replicate_false (h : true ∉ bits) : bits = List.replicate bits.length false := by
  apply List.eq_replicate_of_mem
  intro b hb
  cases b with
  | false => rfl
  | true => exact absurd hb h

theorem exists_first (h : true ∈ bits) :
    ∃ n rest, bits = List.replicate n false ++ true :: rest := by
  obtain ⟨before, rest, rfl, hb⟩ := List.eq_append_cons_of_mem h
  exact ⟨before.length, rest, by rw [← eq_replicate_false hb]⟩

theorem count_first (n : ℕ) (rest : List Bool) :
    (List.replicate n false ++ true :: rest).count true = rest.count true + 1 := by
  rw [List.count_append, List.count_replicate, List.count_cons_self]
  simp

theorem run_first (s : BitVec w) (n : ℕ) (rest : List Bool) :
    run poly s (List.replicate n false ++ true :: rest) =
      run poly (step poly ((step poly)^[n] s ^^^ 1#w)) rest := by
  rw [run_append, run_replicate_false]
  rfl

/-- Two bits are undetected only if one of them comes back to itself. -/
theorem returns_of_pair (hp : poly.msb = true) (hr : run poly 0#w bits = 0#w)
    (hc : bits.count true = 2) :
    ∃ d, 0 < d ∧ d < bits.length ∧ (step poly)^[d] 1#w = 1#w := by
  obtain ⟨i, rest, rfl⟩ := exists_first (List.count_pos_iff.1 (by omega : 0 < bits.count true))
  rw [count_first] at hc
  obtain ⟨j, rest, rfl⟩ := exists_first (List.count_pos_iff.1 (by omega : 0 < rest.count true))
  rw [count_first] at hc
  have hlast : true ∉ rest := List.count_eq_zero.1 (by omega)
  rw [run_first, run_first, iterate_step_zero, BitVec.zero_xor, eq_replicate_false hlast,
    run_replicate_false] at hr
  have hx : (step poly)^[j] (step poly 1#w) ^^^ 1#w = 0#w :=
    eq_zero_of_step hp (eq_zero_of_iterate_step hp hr)
  refine ⟨j + 1, j.succ_pos, ?_, ?_⟩
  · simp only [List.length_append, List.length_replicate, List.length_cons]
    omega
  · rw [Function.iterate_succ_apply]
    exact BitVec.xor_eq_zero_iff.1 hx

/-- An undetected input that is not clear has at least four set bits. -/
theorem Detecting.four_le_count {n : ℕ} (h : Detecting poly n) (hw : 0 < w)
    (hl : bits.length ≤ n) (hr : run poly 0#w bits = 0#w) (hne : true ∈ bits) :
    4 ≤ bits.count true := by
  have hparity := parity_run h.odd hw 0#w bits
  have hzero : parity 0#w = 0 := by simp [parity]
  rw [hr, hzero, zero_add] at hparity
  have heven : Even (bits.count true) := (ZMod.natCast_eq_zero_iff_even).1 hparity.symm
  have hpos : 0 < bits.count true := List.count_pos_iff.2 hne
  have hpair : bits.count true ≠ 2 := by
    intro hc
    obtain ⟨d, hd, hlt, hone⟩ := returns_of_pair h.msb hr hc
    exact h.unreturned d hd (by omega) hone
  obtain ⟨k, hk⟩ := heven
  omega

/-- The set bits of an input stand within `n` consecutive places. -/
def Burst (n : ℕ) (bits : List Bool) : Prop :=
  ∃ i, ∀ k, bits[k]? = some true → i ≤ k ∧ k < i + n

/-- A burst no longer than the register is never undetected. -/
theorem not_burst (hp : poly.msb = true) (hr : run poly 0#w bits = 0#w) (hne : true ∈ bits) :
    ¬ Burst w bits := by
  rintro ⟨i, hwindow⟩
  have hbefore : true ∉ bits.take i := by
    intro hmem
    obtain ⟨k, hk⟩ := List.mem_iff_getElem?.1 hmem
    rw [List.getElem?_take] at hk
    split_ifs at hk with hlt
    have hin := hwindow k hk
    omega
  have hafter : true ∉ (bits.drop i).drop w := by
    intro hmem
    obtain ⟨k, hk⟩ := List.mem_iff_getElem?.1 hmem
    rw [List.getElem?_drop, List.getElem?_drop] at hk
    have hin := hwindow _ hk
    omega
  have hsplit : bits = bits.take i ++ ((bits.drop i).take w ++ (bits.drop i).drop w) := by
    rw [List.take_append_drop, List.take_append_drop]
  rw [hsplit, run_append, run_append, eq_replicate_false hbefore, eq_replicate_false hafter,
    run_replicate_false, run_replicate_false, iterate_step_zero] at hr
  have hmiddle : run poly 0#w ((bits.drop i).take w) = 0#w := eq_zero_of_iterate_step hp hr
  have hlen : ((bits.drop i).take w).length ≤ w := List.length_take_le w _
  rw [run_eq_iterate_step hlen, BitVec.zero_xor] at hmiddle
  have hclear := eq_false_of_word (eq_zero_of_iterate_step hp hmiddle) hlen
  rw [hsplit, List.mem_append, List.mem_append] at hne
  rcases hne with hne | hne | hne
  · exact hbefore hne
  · exact Bool.false_ne_true (hclear true hne).symm
  · exact hafter hne

end Detection

end Register

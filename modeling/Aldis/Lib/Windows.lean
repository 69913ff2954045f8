import Mathlib.Tactic

/-!
# Windows of a list

The slices of one length, and the first of them that equals a pattern. A pattern occurs at a
position when it begins the rest of the list there.
-/

namespace Windows

variable {α : Type} {pat l l' : List α} {i j : ℕ}

/-- `slice::windows`: the slices of `size` consecutive elements. -/
def windows (size : ℕ) (l : List α) : List (List α) :=
  (List.range (l.length + 1 - size)).map fun i => (l.drop i).take size

def Occurs (pat l : List α) (i : ℕ) : Prop := pat <+: l.drop i

theorem Occurs.le (h : Occurs pat l i) (hne : pat ≠ []) : i + pat.length ≤ l.length := by
  have hl := h.length_le
  have hpos := List.length_pos_of_ne_nil hne
  rw [List.length_drop] at hl
  omega

theorem occurs_drop : Occurs pat (l.drop j) i ↔ Occurs pat l (j + i) := by
  rw [Occurs, Occurs, List.drop_drop]

theorem Occurs.append (h : Occurs pat l i) (hi : i ≤ l.length) : Occurs pat (l ++ l') i := by
  rw [Occurs, List.drop_append_of_le_length hi]
  exact h.trans (List.prefix_append _ _)

/-- What occurs in a list and fits into its beginning occurs there. -/
theorem Occurs.of_append (h : Occurs pat (l ++ l') i) (hi : i + pat.length ≤ l.length) :
    Occurs pat l i := by
  rw [Occurs, List.drop_append_of_le_length (by omega)] at h
  apply List.prefix_of_prefix_length_le h (List.prefix_append _ _)
  rw [List.length_drop]
  omega

variable [BEq α] [LawfulBEq α]

def position (pat l : List α) : Option ℕ := (windows pat.length l).findIdx? (· == pat)

theorem position_eq_none_iff (hne : pat ≠ []) : position pat l = none ↔ ∀ i, ¬ Occurs pat l i := by
  unfold position windows
  rw [List.findIdx?_eq_none_iff]
  constructor
  · intro h i ho
    have hle := ho.le hne
    have hmem : (l.drop i).take pat.length ∈
        (List.range (l.length + 1 - pat.length)).map fun i => (l.drop i).take pat.length :=
      List.mem_map.2 ⟨i, List.mem_range.2 (by omega), rfl⟩
    have hfalse := h _ hmem
    rw [← List.prefix_iff_eq_take.1 ho, BEq.rfl] at hfalse
    cases hfalse
  · intro h window hw
    obtain ⟨i, -, rfl⟩ := List.mem_map.1 hw
    rw [beq_eq_false_iff_ne]
    intro he
    exact h i (he ▸ List.take_prefix _ _)

theorem position_eq_some_iff (hne : pat ≠ []) :
    position pat l = some i ↔ Occurs pat l i ∧ ∀ j < i, ¬ Occurs pat l j := by
  unfold position windows
  rw [List.findIdx?_eq_some_iff_getElem]
  simp only [List.length_map, List.length_range, List.getElem_map, List.getElem_range,
    beq_iff_eq]
  constructor
  · rintro ⟨hi, he, hbefore⟩
    refine ⟨he ▸ List.take_prefix _ _, fun j hj ho => ?_⟩
    exact hbefore j hj (List.prefix_iff_eq_take.1 ho).symm
  · rintro ⟨ho, hbefore⟩
    have hle := ho.le hne
    refine ⟨by omega, (List.prefix_iff_eq_take.1 ho).symm, fun j hj he => ?_⟩
    exact hbefore j hj (he ▸ List.take_prefix _ _)

end Windows

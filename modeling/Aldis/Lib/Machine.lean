import Mathlib.Tactic

/-!
# Runs of a machine

A machine is a relation between a state, an event and the next state. A run is recorded with the
state that each event happened in, so that what is said of a run can refer to both. What one step
preserves holds along every run, of the run's events and of the state it reaches.
-/

namespace Machine

variable {S E : Type}

structure Move (S E : Type) where
  before : S
  event : E

/-- The runs of a machine from its initial state, with their moves and the state they reach. -/
inductive Run (step : S → E → S → Prop) (init : S) : List (Move S E) → S → Prop
  | start : Run step init [] init
  | next {tr : List (Move S E)} {s s' : S} {e : E} (hr : Run step init tr s)
      (hs : step s e s') : Run step init (tr ++ [⟨s, e⟩]) s'

variable {step : S → E → S → Prop} {init : S}

namespace Run

variable {tr pre : List (Move S E)} {s : S} {m : Move S E} {P : List (Move S E) → S → Prop}

/-- What holds at first and is preserved by every step holds along every run. -/
theorem invariant (hr : Run step init tr s) (hinit : P [] init)
    (hstep : ∀ tr s e s', Run step init tr s → P tr s → step s e s' → P (tr ++ [⟨s, e⟩]) s') :
    P tr s := by
  induction hr with
  | start => exact hinit
  | next hr hs ih => exact hstep _ _ _ _ hr ih hs

/-- An invariant that needs an assumption on the moves, which the shorter runs share. -/
theorem invariant_of {C : List (Move S E) → Prop} (hr : Run step init tr s) (hc : C tr)
    (hpre : ∀ tr m, C (tr ++ [m]) → C tr) (hinit : P [] init)
    (hstep : ∀ tr s e s', Run step init tr s → C (tr ++ [⟨s, e⟩]) → P tr s → step s e s' →
      P (tr ++ [⟨s, e⟩]) s') : P tr s := by
  induction hr with
  | start => exact hinit
  | next hr hs ih => exact hstep _ _ _ _ hr hc (ih (hpre _ _ hc)) hs

/-- The start of a run is a run, to the state that its last move happened in. -/
theorem of_append (hr : Run step init tr s) (hpre : pre ++ [m] <+: tr) :
    Run step init pre m.before ∧ ∃ s', step m.before m.event s' ∧
      Run step init (pre ++ [m]) s' := by
  induction hr with
  | start =>
      have hlen := hpre.length_le
      rw [List.length_append, List.length_nil] at hlen
      exact absurd hlen (Nat.not_succ_le_zero _)
  | @next tr s s' e hr hs ih =>
      rcases List.prefix_concat_iff.1 hpre with heq | hshort
      · obtain ⟨rfl, hm⟩ := List.append_inj' heq rfl
        obtain rfl := List.singleton_injective hm
        exact ⟨hr, s', hs, .next hr hs⟩
      · exact ih hshort

end Run

theorem exists_prefix_of_mem {tr : List (Move S E)} {m : Move S E} (h : m ∈ tr) :
    ∃ pre, pre ++ [m] <+: tr := by
  obtain ⟨pre, post, rfl⟩ := List.append_of_mem h
  refine ⟨pre, post, ?_⟩
  rw [List.append_assoc, List.singleton_append]

end Machine

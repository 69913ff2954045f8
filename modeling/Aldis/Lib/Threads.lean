import Aldis.Lib.Machine

/-!
# Threads over a shared state

Threads take turns: a step lets one of them perform an atomic action, which may read and change
the shared state and moves that thread on. What is said about single threads or pairs of them
carries over to the whole system, and so does the exclusion by a lock.
-/

namespace Threads

variable {A T P E : Type} [DecidableEq T]

/-- A shared state, and where each thread is. -/
structure System (A T P : Type) where
  shared : A
  threads : T → P

inductive Step (act : A → P → E → A → P → Prop) : System A T P → T × E → System A T P → Prop
  | act {s : System A T P} {t : T} {e : E} {shared : A} {next : P}
      (h : act s.shared (s.threads t) e shared next) :
      Step act s (t, e) ⟨shared, Function.update s.threads t next⟩

variable {act : A → P → E → A → P → Prop} {s s' : System A T P} {t u : T} {e : E}

theorem step_iff : Step act s (t, e) s' ↔
    act s.shared (s.threads t) e s'.shared (s'.threads t) ∧ ∀ u, u ≠ t → s'.threads u = s.threads u
    := by
  constructor
  · intro h
    cases h with
    | act h =>
        refine ⟨?_, fun u hu => Function.update_of_ne hu _ _⟩
        simp only [Function.update_self]
        exact h
  · intro h
    obtain ⟨hact, hother⟩ := h
    have heq : s' = ⟨s'.shared, Function.update s.threads t (s'.threads t)⟩ := by
      obtain ⟨shared, threads⟩ := s'
      congr 1
      funext u
      by_cases hu : u = t
      · rw [hu, Function.update_self]
      · rw [Function.update_of_ne hu]
        exact hother u hu
    rw [heq]
    exact .act hact

/-- What an action leaves as it was of its own thread, it leaves as it was of every thread. -/
theorem Step.same {β : Type} (f : P → β) (h : Step act s (t, e) s')
    (hf : f (s'.threads t) = f (s.threads t)) : ∀ u, f (s'.threads u) = f (s.threads u) := by
  obtain ⟨-, hother⟩ := step_iff.1 h
  intro u
  by_cases hut : u = t
  · rw [hut]
    exact hf
  · rw [hother u hut]

section Exclusion

variable {holds : P → Prop} {locked : A → Prop}

/-- What an action has to do with a lock: it leaves it alone, takes it while it is free, or gives
it back. -/
inductive Locking (holds : P → Prop) (locked : A → Prop) (a : A) (p : P) (a' : A) (p' : P) : Prop
  | kept (hp : holds p' → holds p) (ha : locked a → locked a')
  | taken (ha : ¬ locked a) (ha' : locked a')
  | released (hp : holds p) (hp' : ¬ holds p')

/-- A thread that holds the lock finds it locked, and is alone to hold it. -/
structure Exclusive (holds : P → Prop) (locked : A → Prop) (s : System A T P) : Prop where
  locked : ∀ t, holds (s.threads t) → locked s.shared
  alone : ∀ t u, holds (s.threads t) → holds (s.threads u) → t = u

theorem Exclusive.step (hx : Exclusive holds locked s) (h : Step act s (t, e) s')
    (hl : Locking holds locked s.shared (s.threads t) s'.shared (s'.threads t)) :
    Exclusive holds locked s' := by
  obtain ⟨-, hother⟩ := step_iff.1 h
  cases hl with
  | kept hp ha =>
      have hback : ∀ u, holds (s'.threads u) → holds (s.threads u) := by
        intro u hu
        by_cases hut : u = t
        · rw [hut] at hu ⊢
          exact hp hu
        · rw [hother u hut] at hu
          exact hu
      exact ⟨fun u hu => ha (hx.locked u (hback u hu)),
        fun u v hu hv => hx.alone u v (hback u hu) (hback v hv)⟩
  | taken ha ha' =>
      have honly : ∀ u, holds (s'.threads u) → u = t := by
        intro u hu
        by_contra hut
        rw [hother u hut] at hu
        exact ha (hx.locked u hu)
      exact ⟨fun _ _ => ha', fun u v hu hv => (honly u hu).trans (honly v hv).symm⟩
  | released hp hp' =>
      have hnone : ∀ u, ¬ holds (s'.threads u) := by
        intro u hu
        by_cases hut : u = t
        · rw [hut] at hu
          exact hp' hu
        · rw [hother u hut] at hu
          exact hut (hx.alone u t hu hp)
      exact ⟨fun u hu => absurd hu (hnone u), fun u _ hu => absurd hu (hnone u)⟩

end Exclusion

end Threads

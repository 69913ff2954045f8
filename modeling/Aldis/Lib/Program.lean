import Mathlib.Tactic

/-!
# Programs that call their surroundings

A program either returns or makes one call and continues with whatever answer comes
back. `Runs` lists the completed executions of a program as traces of answered calls, with
no restriction on the answers. A `World` restricts them: it says which calls its states
permit and how an answered call moves the state. `World.Ensures` is the weakest
precondition of a program in a world, and `Ensures.run` and `Ensures.permits` carry it to
every trace the world admits. `World.EnsuresOr` is the same for programs that may stop with an
error, with a postcondition for each way to end.
-/

namespace Interaction

variable {E : Type} {A : E → Type} {S α β γ ε ε' : Type}

/-- A program over the calls `E`, where `e` is answered by a value of `A e`. -/
inductive Program (A : E → Type) (α : Type) where
  | pure (a : α)
  | call (e : E) (next : A e → Program A α)

namespace Program

protected def bind : Program A α → (α → Program A β) → Program A β
  | .pure a, f => f a
  | .call e next, f => .call e (fun r => (next r).bind f)

instance : Monad (Program A) where
  pure := .pure
  bind := Program.bind

def perform (e : E) : Program A (A e) := .call e .pure

@[simp] theorem pure_eq (a : α) : (Pure.pure a : Program A α) = .pure a := rfl

@[simp] theorem pure_bind' (a : α) (f : α → Program A β) : (Program.pure a >>= f) = f a := rfl

@[simp] theorem call_bind (e : E) (next : A e → Program A α) (f : α → Program A β) :
    (Program.call e next >>= f) = .call e (fun r => next r >>= f) := rfl

@[simp] theorem perform_bind (e : E) (f : A e → Program A β) :
    (perform e >>= f) = .call e f := rfl

theorem bind_pure' (p : Program A α) : (p >>= Program.pure) = p := by
  induction p with
  | pure a => rfl
  | call e next ih => simp only [call_bind, ih]

theorem bind_assoc' (p : Program A α) (f : α → Program A β) (g : β → Program A γ) :
    ((p >>= f) >>= g) = (p >>= fun a => f a >>= g) := by
  induction p with
  | pure a => rfl
  | call e next ih => simp only [call_bind, ih]

instance : LawfulMonad (Program A) :=
  LawfulMonad.mk' (Program A) bind_pure' (fun _ _ => rfl) bind_assoc'

/-- The execution in which `env` answers every call, knowing the calls before it. -/
def interact (env : List (Sigma A) → (e : E) → A e) :
    Program A α → List (Sigma A) → List (Sigma A) × α
  | .pure a, past => (past, a)
  | .call e next, past => interact env (next (env past e)) (past ++ [⟨e, env past e⟩])

end Program

open Program

abbrev Attempt (A : E → Type) (ε α : Type) := ExceptT ε (Program A) α

namespace Attempt

def perform (e : E) : Attempt A ε (A e) := ExceptT.lift (Program.perform e)

def ofExcept (r : Except ε α) : Attempt A ε α := ExceptT.mk (.pure r)

end Attempt

/-- A completed execution: the calls made, each with its answer, and the value returned. -/
inductive Runs : Program A α → List (Sigma A) → α → Prop
  | pure (a : α) : Runs (.pure a) [] a
  | call {e : E} {next : A e → Program A α} {r : A e} {tr : List (Sigma A)} {a : α}
      (h : Runs (next r) tr a) : Runs (.call e next) (⟨e, r⟩ :: tr) a

theorem runs_pure_iff {a b : α} {tr : List (Sigma A)} :
    Runs (.pure a : Program A α) tr b ↔ tr = [] ∧ b = a := by
  constructor
  · intro h; cases h; exact ⟨rfl, rfl⟩
  · rintro ⟨rfl, rfl⟩; exact .pure b

theorem runs_call_iff {e : E} {next : A e → Program A α} {tr : List (Sigma A)} {b : α} :
    Runs (.call e next) tr b ↔ ∃ r tr', tr = ⟨e, r⟩ :: tr' ∧ Runs (next r) tr' b := by
  constructor
  · intro h; cases h with | call h => exact ⟨_, _, rfl, h⟩
  · rintro ⟨r, tr', rfl, h⟩; exact .call h

/-- The executions of a sequence are those of its first part followed by those of its second. -/
theorem runs_bind_iff {p : Program A α} {f : α → Program A β} {tr : List (Sigma A)} {b : β} :
    Runs (p >>= f) tr b ↔ ∃ tr₁ a tr₂, tr = tr₁ ++ tr₂ ∧ Runs p tr₁ a ∧ Runs (f a) tr₂ b := by
  induction p generalizing tr with
  | pure a =>
    simp only [pure_bind', runs_pure_iff]
    constructor
    · intro h; exact ⟨[], a, tr, rfl, ⟨rfl, rfl⟩, h⟩
    · rintro ⟨_, _, tr₂, rfl, ⟨rfl, rfl⟩, h⟩; exact h
  | call e next ih =>
    simp only [call_bind, runs_call_iff, ih]
    constructor
    · rintro ⟨r, _, rfl, tr₁, a, tr₂, rfl, h₁, h₂⟩
      exact ⟨⟨e, r⟩ :: tr₁, a, tr₂, rfl, ⟨r, tr₁, rfl, h₁⟩, h₂⟩
    · rintro ⟨_, a, tr₂, rfl, ⟨r, tr₁, rfl, h₁⟩, h₂⟩
      exact ⟨r, tr₁ ++ tr₂, rfl, tr₁, a, tr₂, rfl, h₁, h₂⟩

theorem runs_interact (env : List (Sigma A) → (e : E) → A e) (p : Program A α)
    (past : List (Sigma A)) :
    ∃ tr, (p.interact env past).1 = past ++ tr ∧ Runs p tr (p.interact env past).2 := by
  induction p generalizing past with
  | pure a => exact ⟨[], by simp [interact], .pure a⟩
  | call e next ih =>
    obtain ⟨tr, ht, hr⟩ := ih (env past e) (past ++ [⟨e, env past e⟩])
    exact ⟨⟨e, env past e⟩ :: tr, by simp [interact, ht], .call hr⟩

theorem runs_interact_nil (env : List (Sigma A) → (e : E) → A e) (p : Program A α) :
    Runs p (p.interact env []).1 (p.interact env []).2 := by
  obtain ⟨tr, ht, hr⟩ := runs_interact env p []
  simpa only [ht, List.nil_append] using hr

/-- A sequence of checks passes exactly when each of them does. -/
theorem forM_ok_iff {α ε : Type} {f : α → Except ε Unit} {items : List α} :
    items.forM f = .ok () ↔ ∀ a ∈ items, f a = .ok () := by
  induction items with
  | nil => exact ⟨fun _ _ h => absurd h List.not_mem_nil, fun _ => rfl⟩
  | cons a items ih =>
    change (f a >>= fun _ => items.forM f) = .ok () ↔ _
    rw [List.forall_mem_cons, ← ih]
    cases f a with
    | error e => exact ⟨nofun, fun h => by cases h.1⟩
    | ok _ => exact ⟨fun h => ⟨rfl, h⟩, fun h => h.2⟩

/-- The last turn of a loop that may stop with an error. -/
theorem foldlM_concat_eq_ok_iff {α β ε : Type} {f : β → α → Except ε β} {items : List α} {a : α}
    {b c : β} : (items ++ [a]).foldlM f b = .ok c ↔
      ∃ b', items.foldlM f b = .ok b' ∧ f b' a = .ok c := by
  rw [List.foldlM_append]
  cases items.foldlM f b with
  | error e => exact iff_of_false (by simp [bind, Except.bind]) (by simp)
  | ok b' =>
      change (f b' a >>= Except.ok) = .ok c ↔ ∃ b'', Except.ok b' = Except.ok b'' ∧ f b'' a = .ok c
      simp only [Except.ok.injEq, exists_eq_left']
      cases f b' a <;> simp [bind, Except.bind]

section Turns

variable {α β γ ε : Type} {f : β → α → Except ε β} {g : β → α → List γ}

/-- What the turns of a loop yield, up to the one that stops it with an error. -/
def foldlTrace (f : β → α → Except ε β) (g : β → α → List γ) : β → List α → List γ
  | _, [] => []
  | b, a :: items => g b a ++
      match f b a with
      | .ok b' => foldlTrace f g b' items
      | .error _ => []

theorem mem_foldlTrace_iff {items : List α} {b : β} {c : γ} : c ∈ foldlTrace f g b items ↔
    ∃ k a b', items[k]? = some a ∧ (items.take k).foldlM f b = .ok b' ∧ c ∈ g b' a := by
  induction items generalizing b with
  | nil => simp [foldlTrace]
  | cons a items ih =>
      rw [foldlTrace, List.mem_append]
      constructor
      · rintro (h | h)
        · exact ⟨0, a, b, rfl, rfl, h⟩
        · cases hf : f b a with
          | error e =>
              rw [hf] at h
              cases h
          | ok b' =>
              rw [hf] at h
              obtain ⟨k, a', b'', ha, hr, hc⟩ := ih.1 h
              refine ⟨k + 1, a', b'', ha, ?_, hc⟩
              rw [List.take_succ_cons, List.foldlM_cons, hf]
              exact hr
      · rintro ⟨k, a', b'', ha, hr, hc⟩
        cases k with
        | zero =>
            obtain rfl := Option.some.inj ha
            obtain rfl := Except.ok.inj hr
            exact .inl hc
        | succ k =>
            rw [List.take_succ_cons, List.foldlM_cons] at hr
            cases hf : f b a with
            | error e =>
                rw [hf] at hr
                cases hr
            | ok b' =>
                rw [hf] at hr
                exact .inr (ih.2 ⟨k, a', b'', ha, hr, hc⟩)

theorem take_zipIdx (items : List α) (k : ℕ) : items.zipIdx.take k = (items.take k).zipIdx := by
  apply List.ext_getElem?
  intro i
  rw [List.getElem?_take, List.getElem?_zipIdx, List.getElem?_zipIdx, List.getElem?_take]
  split_ifs with h
  · rfl
  · rfl

/-- In a loop over numbered items, each turn starts from the items before its own. -/
theorem mem_foldlTrace_zipIdx_iff {items : List α} {f : β → α × ℕ → Except ε β}
    {g : β → α × ℕ → List γ} {b : β} {c : γ} : c ∈ foldlTrace f g b items.zipIdx ↔
      ∃ k a b', items[k]? = some a ∧ (items.take k).zipIdx.foldlM f b = .ok b' ∧
        c ∈ g b' (a, k) := by
  rw [mem_foldlTrace_iff]
  constructor
  · rintro ⟨k, entry, b', hk, hr, hc⟩
    rw [List.getElem?_zipIdx] at hk
    obtain ⟨a, ha, rfl⟩ := Option.map_eq_some_iff.1 hk
    rw [take_zipIdx] at hr
    rw [Nat.zero_add] at hc
    exact ⟨k, a, b', ha, hr, hc⟩
  · rintro ⟨k, a, b', ha, hr, hc⟩
    refine ⟨k, (a, k), b', ?_, ?_, hc⟩
    · rw [List.getElem?_zipIdx, ha, Option.map_some, Nat.zero_add]
    · rw [take_zipIdx]
      exact hr

end Turns

/-- What a state lets a program call, and where an answered call may lead. -/
structure World (A : E → Type) (S : Type) where
  permits : S → E → Prop
  step : S → (e : E) → A e → S → Prop

namespace World

variable (W : World A S)

inductive Path : S → List (Sigma A) → S → Prop
  | nil (s : S) : Path s [] s
  | cons {s s' s'' : S} {e : E} {r : A e} {tr : List (Sigma A)}
      (h : W.step s e r s') (t : Path s' tr s'') : Path s (⟨e, r⟩ :: tr) s''

variable {W} in
theorem Path.append {s s' s'' : S} {tr tr' : List (Sigma A)} (h : W.Path s tr s')
    (h' : W.Path s' tr' s'') : W.Path s (tr ++ tr') s'' := by
  induction h with
  | nil s => exact h'
  | cons hs _ ih => exact .cons hs (ih h')

/-- An environment whose answers follow the world leads along a path of it. -/
theorem path_interact {env : List (Sigma A) → (e : E) → A e} {state : List (Sigma A) → S}
    (h : ∀ past e, W.step (state past) e (env past e) (state (past ++ [⟨e, env past e⟩])))
    (p : Program A α) (past : List (Sigma A)) :
    ∃ tr, (p.interact env past).1 = past ++ tr ∧
      W.Path (state past) tr (state (p.interact env past).1) := by
  induction p generalizing past with
  | pure a => exact ⟨[], by simp [interact], .nil _⟩
  | call e next ih =>
    obtain ⟨tr, ht, hpath⟩ := ih (env past e) (past ++ [⟨e, env past e⟩])
    exact ⟨⟨e, env past e⟩ :: tr, by simp [interact, ht], .cons (h past e) hpath⟩

theorem path_interact_nil {env : List (Sigma A) → (e : E) → A e} {state : List (Sigma A) → S}
    (h : ∀ past e, W.step (state past) e (env past e) (state (past ++ [⟨e, env past e⟩])))
    (p : Program A α) :
    W.Path (state []) (p.interact env []).1 (state (p.interact env []).1) := by
  obtain ⟨tr, ht, hpath⟩ := path_interact W h p []
  rw [List.nil_append] at ht
  rw [ht] at hpath ⊢
  exact hpath

/-- Started in `s`, the program makes only permitted calls and returns within `Q`. -/
def Ensures : Program A α → S → (α → S → Prop) → Prop
  | .pure a, s, Q => Q a s
  | .call e next, s, Q => W.permits s e ∧ ∀ r s', W.step s e r s' → Ensures (next r) s' Q

variable {W}

@[simp] theorem ensures_pure (a : α) (s : S) (Q : α → S → Prop) :
    W.Ensures (.pure a) s Q ↔ Q a s := Iff.rfl

@[simp] theorem ensures_call (e : E) (next : A e → Program A α) (s : S) (Q : α → S → Prop) :
    W.Ensures (.call e next) s Q ↔
      W.permits s e ∧ ∀ r s', W.step s e r s' → W.Ensures (next r) s' Q := Iff.rfl

@[simp] theorem ensures_bind (p : Program A α) (f : α → Program A β) (s : S)
    (Q : β → S → Prop) :
    W.Ensures (p >>= f) s Q ↔ W.Ensures p s (fun a s' => W.Ensures (f a) s' Q) := by
  induction p generalizing s with
  | pure a => rfl
  | call e next ih => simp only [call_bind, ensures_call, ih]

theorem Ensures.mono {p : Program A α} {s : S} {P Q : α → S → Prop}
    (h : W.Ensures p s P) (hPQ : ∀ a s', P a s' → Q a s') : W.Ensures p s Q := by
  induction p generalizing s with
  | pure a => exact hPQ a s h
  | call e next ih => exact ⟨h.1, fun r s' hs => ih r (h.2 r s' hs)⟩

theorem Ensures.bind {p : Program A α} {f : α → Program A β} {s : S} {P : α → S → Prop}
    {Q : β → S → Prop} (h : W.Ensures p s P) (hf : ∀ a s', P a s' → W.Ensures (f a) s' Q) :
    W.Ensures (p >>= f) s Q :=
  (ensures_bind p f s Q).2 (h.mono hf)

/-- What a program ensures holds at the end of each of its executions in the world. -/
theorem Ensures.run {p : Program A α} {s s' : S} {Q : α → S → Prop} {tr : List (Sigma A)} {a : α}
    (h : W.Ensures p s Q) (hr : Runs p tr a) (hp : W.Path s tr s') : Q a s' := by
  induction hr generalizing s with
  | pure a => cases hp; exact h
  | call hr ih =>
    cases hp with
    | cons hs ht => exact ih (h.2 _ _ hs) ht

/-- Every call of every execution is permitted in the state it is made in. -/
theorem Ensures.permits {p : Program A α} {s s' : S} {Q : α → S → Prop}
    {pre post : List (Sigma A)} {ev : Sigma A} {a : α}
    (h : W.Ensures p s Q) (hr : Runs p (pre ++ ev :: post) a) (hp : W.Path s pre s') :
    W.permits s' ev.1 := by
  induction pre generalizing p s with
  | nil =>
    cases hp
    cases hr with
    | call hr => exact h.1
  | cons e pre ih =>
    cases hr with
    | call hr =>
      cases hp with
      | cons hs ht => exact ih (h.2 _ _ hs) hr ht

/-- A postcondition for each way an attempt may end. -/
def Outcome (Q : α → S → Prop) (R : ε → S → Prop) : Except ε α → S → Prop
  | .ok a, s => Q a s
  | .error e, s => R e s

variable (W) in
/-- Started in `s`, the attempt makes only permitted calls and returns within `Q` or fails
within `R`. -/
def EnsuresOr (x : Attempt A ε α) (s : S) (Q : α → S → Prop) (R : ε → S → Prop) : Prop :=
  W.Ensures x.run s (Outcome Q R)

theorem ensuresOr_iff (x : Attempt A ε α) (s : S) (Q : α → S → Prop) (R : ε → S → Prop) :
    W.EnsuresOr x s Q R ↔ W.Ensures x.run s (Outcome Q R) := Iff.rfl

@[simp] theorem ensuresOr_pure (a : α) (s : S) (Q : α → S → Prop) (R : ε → S → Prop) :
    W.EnsuresOr (Pure.pure a : Attempt A ε α) s Q R ↔ Q a s := Iff.rfl

@[simp] theorem ensuresOr_throw (e : ε) (s : S) (Q : α → S → Prop) (R : ε → S → Prop) :
    W.EnsuresOr (throw e : Attempt A ε α) s Q R ↔ R e s := Iff.rfl

@[simp] theorem ensuresOr_ofExcept (r : Except ε α) (s : S) (Q : α → S → Prop)
    (R : ε → S → Prop) :
    W.EnsuresOr (Attempt.ofExcept r : Attempt A ε α) s Q R ↔ Outcome Q R r s := Iff.rfl

@[simp] theorem ensuresOr_perform (e : E) (s : S) (Q : A e → S → Prop) (R : ε → S → Prop) :
    W.EnsuresOr (Attempt.perform e) s Q R ↔
      W.permits s e ∧ ∀ r s', W.step s e r s' → Q r s' := Iff.rfl

@[simp] theorem ensuresOr_lift (p : Program A α) (s : S) (Q : α → S → Prop) (R : ε → S → Prop) :
    W.EnsuresOr (ExceptT.lift p : Attempt A ε α) s Q R ↔ W.Ensures p s Q := by
  rw [ensuresOr_iff]
  change W.Ensures (p >>= fun a => Program.pure (Except.ok a)) s _ ↔ _
  rw [ensures_bind]
  exact Iff.rfl

@[simp] theorem ensuresOr_adapt (f : ε → ε') (x : Attempt A ε α) (s : S) (Q : α → S → Prop)
    (R : ε' → S → Prop) :
    W.EnsuresOr (ExceptT.adapt f x) s Q R ↔ W.EnsuresOr x s Q (fun e s' => R (f e) s') := by
  rw [ensuresOr_iff, ensuresOr_iff]
  change W.Ensures (x.run >>= fun r => Program.pure (r.mapError f)) s _ ↔ _
  rw [ensures_bind]
  have hpost : ∀ (r : Except ε α) s', Outcome Q R (r.mapError f) s' ↔
      Outcome Q (fun e s' => R (f e) s') r s' := by
    intro r s'
    cases r with
    | ok a => exact Iff.rfl
    | error e => exact Iff.rfl
  exact ⟨fun h => h.mono fun r s' => (hpost r s').1, fun h => h.mono fun r s' => (hpost r s').2⟩

@[simp] theorem ensuresOr_bind (x : Attempt A ε α) (f : α → Attempt A ε β) (s : S)
    (Q : β → S → Prop) (R : ε → S → Prop) :
    W.EnsuresOr (x >>= f) s Q R ↔ W.EnsuresOr x s (fun a s' => W.EnsuresOr (f a) s' Q R) R := by
  change W.Ensures (x.run >>= _) s _ ↔ _
  rw [ensures_bind, ensuresOr_iff]
  have hpost : ∀ r s', W.Ensures (ExceptT.bindCont f r) s' (Outcome Q R) ↔
      Outcome (fun a s' => W.EnsuresOr (f a) s' Q R) R r s' := by
    intro r s'
    cases r with
    | ok a => exact Iff.rfl
    | error e => exact Iff.rfl
  exact ⟨fun h => h.mono fun r s' => (hpost r s').1, fun h => h.mono fun r s' => (hpost r s').2⟩

@[simp] theorem ensuresOr_map (f : α → β) (x : Attempt A ε α) (s : S) (Q : β → S → Prop)
    (R : ε → S → Prop) :
    W.EnsuresOr (f <$> x) s Q R ↔ W.EnsuresOr x s (fun a s' => Q (f a) s') R := by
  rw [← bind_pure_comp, ensuresOr_bind]
  exact Iff.rfl

@[simp] theorem ensuresOr_ite (c : Prop) [Decidable c] (x y : Attempt A ε α) (s : S)
    (Q : α → S → Prop) (R : ε → S → Prop) :
    W.EnsuresOr (if c then x else y) s Q R ↔
      (c → W.EnsuresOr x s Q R) ∧ (¬ c → W.EnsuresOr y s Q R) := by
  by_cases h : c
  · simp [h]
  · simp [h]

theorem EnsuresOr.mono {x : Attempt A ε α} {s : S} {P Q : α → S → Prop} {R T : ε → S → Prop}
    (h : W.EnsuresOr x s P R) (hPQ : ∀ a s', P a s' → Q a s') (hRT : ∀ e s', R e s' → T e s') :
    W.EnsuresOr x s Q T := by
  refine Ensures.mono h fun r s' hr => ?_
  cases r with
  | ok a => exact hPQ a s' hr
  | error e => exact hRT e s' hr

theorem EnsuresOr.bind {x : Attempt A ε α} {f : α → Attempt A ε β} {s : S} {P : α → S → Prop}
    {Q : β → S → Prop} {R : ε → S → Prop} (h : W.EnsuresOr x s P R)
    (hf : ∀ a s', P a s' → W.EnsuresOr (f a) s' Q R) : W.EnsuresOr (x >>= f) s Q R :=
  (ensuresOr_bind x f s Q R).2 (h.mono hf fun _ _ he => he)

/-- The world that follows a trace with a ghost state, whatever the answers. -/
def tracking (next : S → Sigma A → S) (permits : S → E → Prop) : World A S where
  permits := permits
  step s e r s' := s' = next s ⟨e, r⟩

theorem path_tracking (next : S → Sigma A → S) (permits : S → E → Prop) (s : S)
    (tr : List (Sigma A)) : (tracking next permits).Path s tr (tr.foldl next s) := by
  induction tr generalizing s with
  | nil => exact .nil s
  | cons ev tr ih => exact .cons rfl (ih (next s ev))

@[simp] theorem ensures_tracking_call (next : S → Sigma A → S) (permits : S → E → Prop) (e : E)
    (k : A e → Program A α) (s : S) (Q : α → S → Prop) :
    (tracking next permits).Ensures (.call e k) s Q ↔
      permits s e ∧ ∀ r, (tracking next permits).Ensures (k r) (next s ⟨e, r⟩) Q := by
  simp [tracking]

@[simp] theorem tracking_permits (next : S → Sigma A → S) (permits : S → E → Prop) (s : S)
    (e : E) : (tracking next permits).permits s e ↔ permits s e := Iff.rfl

@[simp] theorem tracking_step (next : S → Sigma A → S) (permits : S → E → Prop) (s s' : S)
    (e : E) (r : A e) : (tracking next permits).step s e r s' ↔ s' = next s ⟨e, r⟩ := Iff.rfl

theorem Ensures.trace {next : S → Sigma A → S} {permits : S → E → Prop} {p : Program A α} {s : S}
    {Q : α → S → Prop} {tr : List (Sigma A)} {a : α}
    (h : (tracking next permits).Ensures p s Q) (hr : Runs p tr a) : Q a (tr.foldl next s) :=
  h.run hr (path_tracking next permits s tr)

theorem Ensures.trace_permits {next : S → Sigma A → S} {permits : S → E → Prop}
    {p : Program A α} {s : S} {Q : α → S → Prop} {pre post : List (Sigma A)} {ev : Sigma A} {a : α}
    (h : (tracking next permits).Ensures p s Q) (hr : Runs p (pre ++ ev :: post) a) :
    permits (pre.foldl next s) ev.1 :=
  h.permits hr (path_tracking next permits s pre)

/-- The world that remembers the whole trace and permits calls by what it has seen. -/
def auditing (permits : List (Sigma A) → E → Prop) : World A (List (Sigma A)) :=
  tracking (fun past ev => past ++ [ev]) permits

@[simp] theorem auditing_permits (P : List (Sigma A) → E → Prop) (past : List (Sigma A)) (e : E) :
    (auditing P).permits past e ↔ P past e := Iff.rfl

@[simp] theorem auditing_step (P : List (Sigma A) → E → Prop) (past past' : List (Sigma A))
    (e : E) (r : A e) : (auditing P).step past e r past' ↔ past' = past ++ [⟨e, r⟩] := Iff.rfl

theorem foldl_record (past tr : List (Sigma A)) :
    tr.foldl (fun past ev => past ++ [ev]) past = past ++ tr := by
  induction tr generalizing past with
  | nil => exact past.append_nil.symm
  | cons ev tr ih => rw [List.foldl_cons, ih, List.append_assoc, List.singleton_append]

theorem Ensures.audited {P : List (Sigma A) → E → Prop} {p : Program A α}
    {Q : α → List (Sigma A) → Prop} {past tr : List (Sigma A)} {a : α}
    (h : (auditing P).Ensures p past Q) (hr : Runs p tr a) : Q a (past ++ tr) := by
  have hQ := h.trace hr
  rwa [foldl_record] at hQ

theorem Ensures.audited_permits {P : List (Sigma A) → E → Prop} {p : Program A α}
    {Q : α → List (Sigma A) → Prop} {past pre post : List (Sigma A)} {ev : Sigma A} {a : α}
    (h : (auditing P).Ensures p past Q) (hr : Runs p (pre ++ ev :: post) a) :
    P (past ++ pre) ev.1 := by
  have hP := h.trace_permits hr
  rwa [foldl_record] at hP

/-- What is ensured holds together with what was done. -/
theorem Ensures.traced {P : List (Sigma A) → E → Prop} {p : Program A α} {past : List (Sigma A)}
    {Q : α → List (Sigma A) → Prop} (h : (auditing P).Ensures p past Q) :
    (auditing P).Ensures p past fun a past' =>
      Q a past' ∧ ∃ tr, past' = past ++ tr ∧ Runs p tr a := by
  induction p generalizing past with
  | pure a => exact ⟨h, [], (past.append_nil).symm, .pure a⟩
  | call e next ih =>
    refine ⟨h.1, ?_⟩
    rintro r _ rfl
    apply (ih r (h.2 r _ rfl)).mono
    rintro a past' ⟨hQ, tr, rfl, hr⟩
    exact ⟨hQ, ⟨e, r⟩ :: tr, by simp, .call hr⟩

/-- The world that remembers the whole trace and permits every call. -/
def recording : World A (List (Sigma A)) := auditing fun _ _ => True

@[simp] theorem recording_permits (past : List (Sigma A)) (e : E) :
    (recording (A := A)).permits past e ↔ True := Iff.rfl

@[simp] theorem recording_step (past past' : List (Sigma A)) (e : E) (r : A e) :
    (recording (A := A)).step past e r past' ↔ past' = past ++ [⟨e, r⟩] := Iff.rfl

/-- The recorded trace is that of an execution. -/
theorem ensures_recording (p : Program A α) (past : List (Sigma A)) :
    recording.Ensures p past fun a past' => ∃ tr, past' = past ++ tr ∧ Runs p tr a := by
  have htop : recording.Ensures p past fun _ _ => True := by
    induction p generalizing past with
    | pure a => exact True.intro
    | call e next ih => exact ⟨True.intro, fun r s' _ => ih r s'⟩
  exact htop.traced.mono fun _ _ h => h.2

theorem Ensures.recorded {p : Program A α} {Q : α → List (Sigma A) → Prop} {tr : List (Sigma A)}
    {a : α} (h : recording.Ensures p [] Q) (hr : Runs p tr a) : Q a tr :=
  h.audited hr

end World
end Interaction

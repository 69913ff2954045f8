import Aldis.Lib.Program

/-!
# Which calls a program makes

A program confined to a set of calls keeps every invariant that those calls keep, whatever
world it runs in. Confinement is itself an instance of `World.Ensures`, so its rules are those
of any world. Programs over one set of calls can be translated to another, and attempts can be
repeated.
-/

namespace Interaction

open Program

variable {E E' : Type} {A : E → Type} {A' : E' → Type} {S α β ε ε' : Type}

namespace World

def confined (A : E → Type) (P : E → Prop) : World A Unit where
  permits _ e := P e
  step _ _ _ _ := True

@[simp] theorem confined_permits (P : E → Prop) (u : Unit) (e : E) :
    (confined A P).permits u e ↔ P e := Iff.rfl

@[simp] theorem confined_step (P : E → Prop) (u u' : Unit) (e : E) (r : A e) :
    (confined A P).step u e r u' ↔ True := Iff.rfl

@[simp] theorem ensures_confined_call (P : E → Prop) (e : E) (k : A e → Program A α) (u : Unit)
    (Q : α → Unit → Prop) :
    (confined A P).Ensures (.call e k) u Q ↔ P e ∧ ∀ r, (confined A P).Ensures (k r) () Q :=
  and_congr_right fun _ => ⟨fun h r => h r () True.intro, fun h r _ _ => h r⟩

@[simp] theorem ensuresOr_confined_perform (P : E → Prop) (e : E) (u : Unit)
    (Q : A e → Unit → Prop) (R : ε → Unit → Prop) :
    (confined A P).EnsuresOr (Attempt.perform e) u Q R ↔ P e ∧ ∀ r, Q r () :=
  and_congr_right fun _ => ⟨fun h r => h r () True.intro, fun h r _ _ => h r⟩

/-- A confined program preserves whatever its calls preserve. -/
theorem Ensures.of_confined {W : World A S} {P : E → Prop} {I : S → Prop} {p : Program A α}
    {Q : α → Unit → Prop} (h : (confined A P).Ensures p () Q) {s : S} (hs : I s)
    (hI : ∀ s e, I s → P e → W.permits s e ∧ ∀ r s', W.step s e r s' → I s') :
    W.Ensures p s (fun a s' => I s' ∧ Q a ()) := by
  induction p generalizing s with
  | pure a => exact ⟨hs, h⟩
  | call e next ih =>
    rw [ensures_confined_call] at h
    obtain ⟨hp, hstep⟩ := hI s e hs h.1
    exact ⟨hp, fun r s' hr => ih r (h.2 r) (hstep r s' hr)⟩

theorem EnsuresOr.of_confined {W : World A S} {P : E → Prop} {I : S → Prop} {x : Attempt A ε α}
    {Q : α → Unit → Prop} {R : ε → Unit → Prop} (h : (confined A P).EnsuresOr x () Q R) {s : S}
    (hs : I s) (hI : ∀ s e, I s → P e → W.permits s e ∧ ∀ r s', W.step s e r s' → I s') :
    W.EnsuresOr x s (fun a s' => I s' ∧ Q a ()) (fun e s' => I s' ∧ R e ()) := by
  refine (Ensures.of_confined (W := W) h hs hI).mono fun r s' hr => ?_
  cases r with
  | ok a => exact hr
  | error e => exact hr

theorem Ensures.confined_mono {P P' : E → Prop} {p : Program A α} {u : Unit}
    {Q : α → Unit → Prop} (h : (confined A P).Ensures p u Q) (hP : ∀ e, P e → P' e) :
    (confined A P').Ensures p u Q := by
  induction p with
  | pure a => exact h
  | call e next ih =>
    rw [ensures_confined_call] at h ⊢
    exact ⟨hP e h.1, fun r => ih r (h.2 r)⟩

theorem ensures_confined_top {P : E → Prop} (hP : ∀ e, P e) (p : Program A α) (u : Unit) :
    (confined A P).Ensures p u fun _ _ => True := by
  induction p with
  | pure a => exact True.intro
  | call e next ih => exact (ensures_confined_call P e next u _).2 ⟨hP e, fun r => ih r⟩

/-- Only permitted calls occur in the executions of a confined program. -/
theorem Ensures.calls {P : E → Prop} {p : Program A α} {Q : α → Unit → Prop}
    {tr : List (Sigma A)} {a : α} (h : (confined A P).Ensures p () Q) (hr : Runs p tr a) :
    (∀ ev ∈ tr, P ev.1) ∧ Q a () := by
  induction hr with
  | pure a => exact ⟨fun ev hev => absurd hev List.not_mem_nil, h⟩
  | @call e next r tr a hr ih =>
    rw [ensures_confined_call] at h
    obtain ⟨hcalls, hQ⟩ := ih (h.2 r)
    refine ⟨fun ev hev => ?_, hQ⟩
    rcases List.mem_cons.1 hev with rfl | hev
    · exact h.1
    · exact hcalls ev hev

end World

namespace Program

def translate (on : E → E') (back : ∀ e, A' (on e) → A e) : Program A α → Program A' α
  | .pure a => .pure a
  | .call e next => .call (on e) fun r => (next (back e r)).translate on back

theorem ensures_translate {on : E → E'} {back : ∀ e, A' (on e) → A e} {P : E' → Prop}
    (hP : ∀ e, P (on e)) (p : Program A α) :
    (World.confined A' P).Ensures (p.translate on back) () fun _ _ => True := by
  induction p with
  | pure a => exact True.intro
  | call e next ih =>
    simp only [translate, World.ensures_confined_call]
    exact ⟨hP e, fun r => ih (back e r)⟩

end Program

namespace Attempt

def translate (on : E → E') (back : ∀ e, A' (on e) → A e) (x : Attempt A ε α) :
    Attempt A' ε α :=
  ExceptT.mk (x.run.translate on back)

def retry (x : Attempt A ε α) : ℕ → Attempt A ε α
  | 0 => x
  | n + 1 => ExceptT.mk (do
    match ← x.run with
    | .ok a => Program.pure (.ok a)
    | .error _ => (retry x n).run)

end Attempt

namespace World

variable {W : World A S}

theorem EnsuresOr.retry {x : Attempt A ε α} {Q : α → S → Prop} {R : ε → S → Prop} {I : S → Prop}
    (h : ∀ s, I s → W.EnsuresOr x s Q (fun e s' => I s' ∧ R e s')) (n : ℕ) {s : S} (hs : I s) :
    W.EnsuresOr (x.retry n) s Q (fun e s' => I s' ∧ R e s') := by
  induction n generalizing s with
  | zero => exact h s hs
  | succ n ih =>
    change W.Ensures (x.run >>= _) s _
    rw [ensures_bind]
    refine Ensures.mono (h s hs) fun r s' hr => ?_
    cases r with
    | ok a => exact hr
    | error e => exact ih hr.1

end World

namespace Attempt

open World

variable {P : E → Prop} {R T : ε → Prop}

/-- Whatever the answers, `x` makes only calls in `P` and fails only within `R`. -/
def Makes (P : E → Prop) (R : ε → Prop) (x : Attempt A ε α) : Prop :=
  (confined A P).EnsuresOr x () (fun _ _ => True) fun e _ => R e

@[simp] theorem makes_pure (a : α) : Makes P R (Pure.pure a : Attempt A ε α) := True.intro

@[simp] theorem makes_throw (e : ε) : Makes P R (throw e : Attempt A ε α) ↔ R e := Iff.rfl

@[simp] theorem makes_throw_bind (e : ε) (f : α → Attempt A ε β) :
    Makes P R ((throw e : Attempt A ε α) >>= f) ↔ R e := Iff.rfl

@[simp] theorem makes_perform (e : E) : Makes P R (perform e : Attempt A ε (A e)) ↔ P e := by
  simp [Makes]

@[simp] theorem makes_lift (p : Program A α) :
    Makes P R (ExceptT.lift p : Attempt A ε α) ↔ (confined A P).Ensures p () fun _ _ => True :=
  ensuresOr_lift p () _ _

@[simp] theorem makes_adapt (f : ε' → ε) (x : Attempt A ε' α) :
    Makes P R (ExceptT.adapt f x) ↔ Makes P (fun e => R (f e)) x :=
  ensuresOr_adapt f x () _ _

@[simp] theorem makes_ofExcept (r : Except ε α) :
    Makes P R (ofExcept r : Attempt A ε α) ↔ ∀ e, r = .error e → R e := by
  cases r with
  | ok a => exact ⟨fun _ => nofun, fun _ => True.intro⟩
  | error e => exact ⟨fun h _ he => Except.error.inj he ▸ h, fun h => h e rfl⟩

@[simp] theorem makes_ite (c : Prop) [Decidable c] (x y : Attempt A ε α) :
    Makes P R (if c then x else y) ↔ (c → Makes P R x) ∧ (¬ c → Makes P R y) :=
  ensuresOr_ite c x y () _ _

theorem Makes.bind {x : Attempt A ε α} {f : α → Attempt A ε β} (h : Makes P R x)
    (hf : ∀ a, Makes P R (f a)) : Makes P R (x >>= f) :=
  EnsuresOr.bind h fun a _ _ => hf a

/-- A step that is made only where it is wanted. -/
theorem Makes.optional {c : Prop} [Decidable c] {x : Attempt A ε α} {rest : Attempt A ε β}
    (h : Makes P R x) (hr : Makes P R rest) :
    Makes P R (if c then x >>= fun _ => rest else rest) :=
  (makes_ite c _ _).2 ⟨fun _ => h.bind fun _ => hr, fun _ => hr⟩

theorem Makes.mono {P' : E → Prop} {x : Attempt A ε α} (h : Makes P R x) (hP : ∀ e, P e → P' e)
    (hR : ∀ e, R e → T e) : Makes P' T x :=
  EnsuresOr.mono (Ensures.confined_mono h hP) (fun _ _ hQ => hQ) fun e _ he => hR e he

@[simp] theorem makes_retry {x : Attempt A ε α} :
    (∀ n, Makes P R (x.retry n)) ↔ Makes P R x := by
  constructor
  · intro h
    exact h 0
  · intro h n
    refine (EnsuresOr.retry (I := fun _ => True) (fun _ _ => ?_) n True.intro).mono
      (fun _ _ hQ => hQ) fun _ _ hR => hR.2
    exact EnsuresOr.mono h (fun _ _ hQ => hQ) fun _ _ hR => ⟨True.intro, hR⟩

theorem makes_translate {on : E' → E} {back : ∀ e, A (on e) → A' e} (hP : ∀ e, P (on e))
    (hR : ∀ e, R e) (x : Attempt A' ε α) : Makes P R (x.translate on back) := by
  refine (ensures_translate hP x.run).mono fun r _ _ => ?_
  cases r with
  | ok a => exact True.intro
  | error e => exact hR e

/-- What such an attempt leaves of an invariant that its calls keep. -/
theorem Makes.ensuresOr {W : World A S} {I : S → Prop} {x : Attempt A ε α} (h : Makes P R x)
    {s : S} (hs : I s)
    (hI : ∀ s e, I s → P e → W.permits s e ∧ ∀ r s', W.step s e r s' → I s') :
    W.EnsuresOr x s (fun _ s' => I s') fun e s' => I s' ∧ R e :=
  (EnsuresOr.of_confined h hs hI).mono (fun _ _ hQ => hQ.1) fun _ _ hR => hR

end Attempt

/-- What is left of a program once it made the calls of a trace. -/
inductive Begins : Program A α → List (Sigma A) → Program A α → Prop
  | start (p : Program A α) : Begins p [] p
  | call {e : E} {next : A e → Program A α} {r : A e} {past : List (Sigma A)} {q : Program A α}
      (h : Begins (next r) past q) : Begins (.call e next) (⟨e, r⟩ :: past) q

namespace Begins

variable {p : Program A α} {past : List (Sigma A)}

theorem concat {e : E} {next : A e → Program A α} (h : Begins p past (.call e next)) (r : A e) :
    Begins p (past ++ [⟨e, r⟩]) (next r) := by
  generalize hq : Program.call e next = q at h
  induction h with
  | start p =>
      subst hq
      exact .call (.start _)
  | call h ih => exact .call (ih hq)

/-- An execution that begins with the trace. -/
theorem runs {q : Program A α} {post : List (Sigma A)} {a : α} (h : Begins p past q)
    (hr : Runs q post a) : Runs p (past ++ post) a := by
  induction h with
  | start p => exact hr
  | call h ih => exact .call (ih hr)

theorem of_runs {a : α} (h : Runs p past a) : Begins p past (.pure a) := by
  induction h with
  | pure a => exact .start _
  | call h ih => exact .call ih

theorem trans {q q' : Program A α} {past' : List (Sigma A)} (h : Begins p past q)
    (h' : Begins q past' q') : Begins p (past ++ past') q' := by
  induction h with
  | start p => exact h'
  | call h ih => exact .call (ih h')

theorem bind {q : Program A α} (h : Begins p past q) (f : α → Program A β) :
    Begins (p >>= f) past (q >>= f) := by
  induction h with
  | start p => exact .start _
  | call h ih => exact .call ih

end Begins

/-- Along one trace, the first part of a sequence can be completed in one way only. -/
theorem Runs.eq_of_prefix {p : Program A α} {pre tr : List (Sigma A)} {a b : α}
    (ha : Runs p pre a) (hb : Runs p tr b) (hp : pre <+: tr) : pre = tr ∧ a = b := by
  induction ha generalizing tr b with
  | pure a =>
    obtain ⟨rfl, rfl⟩ := runs_pure_iff.1 hb
    exact ⟨rfl, rfl⟩
  | @call e next r pre a ha ih =>
    obtain ⟨r', tr', rfl, hb'⟩ := runs_call_iff.1 hb
    obtain ⟨he, hp'⟩ := List.cons_prefix_cons.1 hp
    obtain rfl := eq_of_heq (Sigma.mk.inj he).2
    obtain ⟨rfl, rfl⟩ := ih hb' hp'
    exact ⟨rfl, rfl⟩

theorem Runs.eq_of_prefixes {p : Program A α} {pre pre' tr : List (Sigma A)} {a b : α}
    (ha : Runs p pre a) (hb : Runs p pre' b) (hp : pre <+: tr) (hp' : pre' <+: tr) :
    pre = pre' ∧ a = b := by
  rcases List.prefix_or_prefix_of_prefix hp hp' with h | h
  · exact ha.eq_of_prefix hb h
  · obtain ⟨hpre, hab⟩ := hb.eq_of_prefix ha h
    exact ⟨hpre.symm, hab.symm⟩

/-- What an execution of a sequence does after an execution of its first part. -/
theorem Runs.of_bind_prefix {p : Program A α} {f : α → Program A β} {pre post : List (Sigma A)}
    {a : α} {b : β} (h : Runs (p >>= f) (pre ++ post) b) (ha : Runs p pre a) :
    Runs (f a) post b := by
  obtain ⟨tr₁, a', tr₂, he, h₁, h₂⟩ := runs_bind_iff.1 h
  obtain ⟨rfl, rfl⟩ := ha.eq_of_prefixes h₁ ⟨post, rfl⟩ ⟨tr₂, he.symm⟩
  rw [List.append_cancel_left he]
  exact h₂

/-- An attempt followed by another fails with it or goes on from what it returns. -/
theorem runs_attempt_bind_iff {x : Attempt A ε α} {f : α → Attempt A ε β}
    {tr : List (Sigma A)} {r : Except ε β} : Runs (x >>= f).run tr r ↔
      (∃ e, r = .error e ∧ Runs x.run tr (.error e)) ∨
        ∃ a pre post, tr = pre ++ post ∧ Runs x.run pre (.ok a) ∧ Runs (f a).run post r := by
  change Runs (x.run >>= ExceptT.bindCont f) tr r ↔ _
  rw [runs_bind_iff]
  constructor
  · rintro ⟨pre, e | a, post, rfl, hx, hf⟩
    · obtain ⟨rfl, rfl⟩ := runs_pure_iff.1 hf
      exact .inl ⟨e, rfl, by rwa [List.append_nil]⟩
    · exact .inr ⟨a, pre, post, rfl, hx, hf⟩
  · rintro (⟨e, rfl, hx⟩ | ⟨a, pre, post, rfl, hx, hf⟩)
    · exact ⟨tr, .error e, [], (List.append_nil tr).symm, hx, .pure _⟩
    · exact ⟨pre, .ok a, post, rfl, hx, hf⟩

theorem runs_lift_iff {p : Program A α} {tr : List (Sigma A)} {r : Except ε α} :
    Runs (ExceptT.lift p : Attempt A ε α).run tr r ↔ ∃ a, r = .ok a ∧ Runs p tr a := by
  change Runs (p >>= fun a => Program.pure (.ok a)) tr r ↔ _
  rw [runs_bind_iff]
  constructor
  · rintro ⟨pre, a, post, rfl, hp, hr⟩
    obtain ⟨rfl, rfl⟩ := runs_pure_iff.1 hr
    exact ⟨a, rfl, by rwa [List.append_nil]⟩
  · rintro ⟨a, rfl, hp⟩
    exact ⟨tr, a, [], (List.append_nil tr).symm, hp, .pure _⟩

/-- A program that an attempt starts with, whose result it goes on from. -/
theorem runs_lift_bind_iff {p : Program A α} {f : α → Attempt A ε β} {tr : List (Sigma A)}
    {r : Except ε β} : Runs (ExceptT.lift p >>= f).run tr r ↔
      ∃ a pre post, tr = pre ++ post ∧ Runs p pre a ∧ Runs (f a).run post r := by
  rw [runs_attempt_bind_iff]
  constructor
  · rintro (⟨e, -, he⟩ | ⟨a, pre, post, rfl, hp, hf⟩)
    · obtain ⟨a, ha, -⟩ := runs_lift_iff.1 he
      cases ha
    · obtain ⟨a', ha, hp'⟩ := runs_lift_iff.1 hp
      obtain rfl := Except.ok.inj ha
      exact ⟨a, pre, post, rfl, hp', hf⟩
  · rintro ⟨a, pre, post, rfl, hp, hf⟩
    exact .inr ⟨a, pre, post, rfl, runs_lift_iff.2 ⟨a, rfl, hp⟩, hf⟩

theorem runs_perform_bind_iff {e : E} {f : A e → Attempt A ε β} {tr : List (Sigma A)}
    {r : Except ε β} : Runs (Attempt.perform e >>= f).run tr r ↔
      ∃ answer post, tr = ⟨e, answer⟩ :: post ∧ Runs (f answer).run post r := runs_call_iff

theorem Runs.of_attempt_prefix {x : Attempt A ε α} {f : α → Attempt A ε β}
    {pre post : List (Sigma A)} {a : α} {r : Except ε β}
    (h : Runs (x >>= f).run (pre ++ post) r) (ha : Runs x.run pre (.ok a)) :
    Runs (f a).run post r :=
  Runs.of_bind_prefix (f := ExceptT.bindCont f) h ha

end Interaction

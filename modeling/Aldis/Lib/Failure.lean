import Aldis.Lib.Handler

/-!
# How an attempt fails

An attempt that has made a call outside some set may fail in fewer ways than one that has not:
what it began decides what its caller may still do.
-/

namespace Interaction

open World

variable {E E' : Type} {A : E → Type} {A' : E' → Type} {S α β ε ε' : Type}

namespace World

/-- A confined program is permitted wherever the calls are that it is about to make. -/
theorem Ensures.of_confined_begins {C : List (Sigma A) → E → Prop} {P : E → Prop}
    {p : Program A α} (hp : (confined A P).Ensures p () fun _ _ => True) {past : List (Sigma A)}
    (h : ∀ tr e next, (∀ ev ∈ tr, P ev.1) → P e → Begins p tr (.call e next) → C (past ++ tr) e) :
    (auditing C).Ensures p past fun a past' =>
      ∃ tr, past' = past ++ tr ∧ Runs p tr a ∧ ∀ ev ∈ tr, P ev.1 := by
  have hrest : ∀ (q : Program A α) (tr : List (Sigma A)), Begins p tr q →
      (confined A P).Ensures q () (fun _ _ => True) → (∀ ev ∈ tr, P ev.1) →
        (auditing C).Ensures q (past ++ tr) fun a past' =>
          ∃ tr, past' = past ++ tr ∧ Runs p tr a ∧ ∀ ev ∈ tr, P ev.1 := by
    intro q
    induction q with
    | pure a =>
        intro tr hb _ hP
        refine ⟨tr, rfl, ?_, hP⟩
        simpa only [List.append_nil] using hb.runs (.pure a)
    | call e next ih =>
        intro tr hb hq hP
        rw [ensures_confined_call] at hq
        refine ⟨h tr e next hP hq.1 hb, ?_⟩
        rintro r _ rfl
        change (auditing C).Ensures (next r) (past ++ tr ++ [⟨e, r⟩]) _
        rw [List.append_assoc]
        refine ih r (tr ++ [⟨e, r⟩]) (hb.concat r) (hq.2 r) ?_
        rw [List.forall_mem_append, List.forall_mem_singleton]
        exact ⟨hP, hq.1⟩
  have hall := hrest p [] (.start p) hp nofun
  rwa [List.append_nil] at hall

/-- A confined program is permitted wherever its calls are, after calls of its own only. -/
theorem Ensures.of_confined_trace {C : List (Sigma A) → E → Prop} {P : E → Prop}
    {p : Program A α} (hp : (confined A P).Ensures p () fun _ _ => True) {past : List (Sigma A)}
    (h : ∀ tr e, (∀ ev ∈ tr, P ev.1) → P e → C (past ++ tr) e) :
    (auditing C).Ensures p past fun a past' =>
      ∃ tr, past' = past ++ tr ∧ Runs p tr a ∧ ∀ ev ∈ tr, P ev.1 :=
  hp.of_confined_begins fun tr e _ hP he _ => h tr e hP he

/-- A confined program whose calls are answered by confined programs. -/
theorem Ensures.handle {P : E → Prop} {P' : E' → Prop} {h : (e : E) → Program A' (A e)}
    {p : Program A α} {Q : α → Unit → Prop} (hp : (confined A P).Ensures p () Q)
    (hP : ∀ e, P e → (confined A' P').Ensures (h e) () fun _ _ => True) :
    (confined A' P').Ensures (p.handle h) () Q := by
  induction p with
  | pure a => exact hp
  | call e next ih =>
      rw [ensures_confined_call] at hp
      exact (hP e hp.1).bind fun r _ _ => ih r (hp.2 r)

end World

theorem runs_adapt_iff {g : ε → ε'} {x : Attempt A ε α} {tr : List (Sigma A)}
    {result : Except ε' α} :
    Runs (ExceptT.adapt g x : Attempt A ε' α).run tr result ↔
      ∃ r, result = r.mapError g ∧ Runs x.run tr r := by
  change Runs (x.run >>= fun r => Program.pure (r.mapError g)) tr result ↔ _
  rw [runs_bind_iff]
  constructor
  · rintro ⟨pre, r, post, rfl, hx, hp⟩
    obtain ⟨rfl, rfl⟩ := runs_pure_iff.1 hp
    exact ⟨r, rfl, by rwa [List.append_nil]⟩
  · rintro ⟨r, rfl, hx⟩
    exact ⟨tr, r, [], (List.append_nil tr).symm, hx, .pure _⟩

namespace Attempt

variable {P : E → Prop} {R : ε → Prop}

theorem Makes.only {x : Attempt A ε α} {T : ε → Prop} (h : Makes P T x) :
    (confined A P).Ensures x.run () fun _ _ => True :=
  World.Ensures.mono h fun _ _ _ => True.intro

/-- Answering the calls of an attempt makes the calls of the answers. -/
theorem Makes.handle {P' : E' → Prop} {h : (e : E) → Program A' (A e)} {x : Attempt A ε α}
    (hx : Makes P R x)
    (hP : ∀ e, P e → (confined A' P').Ensures (h e) () fun _ _ => True) :
    Makes P' R (x.handle h) := World.Ensures.handle hx hP

/-- A translated attempt makes the translations of the calls of the attempt. -/
theorem Makes.translate {P' : E' → Prop} {on : E → E'} {back : ∀ e, A' (on e) → A e}
    {x : Attempt A ε α} (hx : Makes P R x) (hP : ∀ e, P e → P' (on e)) :
    Makes P' R (x.translate on back) := by
  have htranslate : ∀ {p : Program A (Except ε α)} {Q : Except ε α → Unit → Prop},
      (confined A P).Ensures p () Q → (confined A' P').Ensures (p.translate on back) () Q := by
    intro p Q h
    induction p with
    | pure a => exact h
    | call e next ih =>
        rw [ensures_confined_call] at h
        exact (ensures_confined_call _ _ _ _ _).2 ⟨hP e h.1, fun r => ih _ (h.2 _)⟩
  exact htranslate hx

/-- An attempt that fails within `R`, unless it made only calls in `P`. -/
def FailsWithin (P : E → Prop) (R : ε → Prop) (x : Attempt A ε α) : Prop :=
  ∀ tr e, Runs x.run tr (.error e) → R e ∨ ∀ ev ∈ tr, P ev.1

theorem Makes.failsWithin {T : ε → Prop} {x : Attempt A ε α} (h : Makes P T x) :
    FailsWithin P R x := by
  intro tr e hr
  exact .inr (World.Ensures.calls h.only hr).1

theorem Makes.failsWithin_errors {P' : E → Prop} {x : Attempt A ε α} (h : Makes P' R x) :
    FailsWithin P R x := by
  intro tr e hr
  exact .inl (World.Ensures.calls h hr).2

/-- What begins with calls in `P` fails as the rest of it does. -/
theorem FailsWithin.bind {T : ε → Prop} {x : Attempt A ε α} {f : α → Attempt A ε β}
    (hx : Makes P T x) (hf : ∀ a, FailsWithin P R (f a)) : FailsWithin P R (x >>= f) := by
  intro tr e hr
  rcases runs_attempt_bind_iff.1 hr with ⟨e', he, hx'⟩ | ⟨a, pre, post, rfl, hx', hf'⟩
  · exact .inr (World.Ensures.calls hx.only hx').1
  · rcases hf a post e hf' with hR | hP
    · exact .inl hR
    · exact .inr (List.forall_mem_append.2 ⟨(World.Ensures.calls hx.only hx').1, hP⟩)

theorem FailsWithin.ite {c : Prop} [Decidable c] {x y : Attempt A ε α} (hx : FailsWithin P R x)
    (hy : FailsWithin P R y) : FailsWithin P R (if c then x else y) := by
  by_cases hc : c
  · rwa [if_pos hc]
  · rwa [if_neg hc]

theorem FailsWithin.adapt {f : ε' → ε} {x : Attempt A ε' α}
    (h : FailsWithin P (fun e => R (f e)) x) :
    FailsWithin P R (ExceptT.adapt f x : Attempt A ε α) := by
  intro tr e hr
  obtain ⟨r, he, hx⟩ := runs_adapt_iff.1 hr
  cases r with
  | ok a => cases he
  | error e' =>
      obtain rfl := Except.error.inj he
      exact h tr e' hx

theorem FailsWithin.handle {P' : E' → Prop} {h : (e : E) → Program A' (A e)} {x : Attempt A ε α}
    (hx : FailsWithin P R x)
    (hP : ∀ e, P e → (confined A' P').Ensures (h e) () fun _ _ => True) :
    FailsWithin P' R (x.handle h) := by
  intro tr' e hr
  obtain ⟨tr, htr, ht⟩ := runs_attempt_handle_iff.1 hr
  rcases hx tr e htr with hR | hcalls
  · exact .inl hR
  · refine .inr (ht.forall_mem (Q := fun ev => P' ev.1) hcalls fun e r pre he hpre => ?_)
    exact (World.Ensures.calls (hP e he) hpre).1

/-- Everything that was done in vain was done by an attempt that failed. -/
theorem runs_retry_error {x : Attempt A ε α} {n : ℕ} {tr : List (Sigma A)} {e : ε}
    (hr : Runs (x.retry n).run tr (.error e)) :
    ∀ ev ∈ tr, ∃ own e', ev ∈ own ∧ Runs x.run own (.error e') := by
  intro ev hev
  induction n generalizing tr with
  | zero => exact ⟨tr, e, hev, hr⟩
  | succ n ih =>
      obtain ⟨first, result, rest, rfl, hx, hrest⟩ := runs_bind_iff.1 hr
      cases result with
      | ok a => cases (runs_pure_iff.1 hrest).2
      | error e' =>
          rcases List.mem_append.1 hev with hev | hev
          · exact ⟨first, e', hev, hx⟩
          · exact ih hrest hev

/-- The last time that an attempt was made again ended as the whole did. -/
theorem runs_retry_last {x : Attempt A ε α} {n : ℕ} {tr : List (Sigma A)} {r : Except ε α}
    (hr : Runs (x.retry n).run tr r) : ∃ pre own, tr = pre ++ own ∧ Runs x.run own r := by
  induction n generalizing tr with
  | zero => exact ⟨[], tr, rfl, hr⟩
  | succ n ih =>
      obtain ⟨first, result, rest, rfl, hx, hrest⟩ := runs_bind_iff.1 hr
      cases result with
      | ok a =>
          obtain ⟨rfl, rfl⟩ := runs_pure_iff.1 hrest
          exact ⟨[], first, List.append_nil first, hx⟩
      | error e =>
          obtain ⟨pre, own, rfl, hown⟩ := ih hrest
          exact ⟨first ++ pre, own, (List.append_assoc ..).symm, hown⟩

end Attempt

section Outcomes

variable {tr : List (Sigma A)}

theorem runs_attempt_bind_ok_iff {x : Attempt A ε α} {f : α → Attempt A ε β} {b : β} :
    Runs (x >>= f).run tr (.ok b) ↔ ∃ a pre post, tr = pre ++ post ∧
      Runs x.run pre (.ok a) ∧ Runs (f a).run post (.ok b) := by
  rw [runs_attempt_bind_iff]
  constructor
  · rintro (⟨e, he, -⟩ | h)
    · cases he
    · exact h
  · exact .inr

theorem runs_adapt_ok_iff {f : ε' → ε} {x : Attempt A ε' α} {a : α} :
    Runs (ExceptT.adapt f x : Attempt A ε α).run tr (.ok a) ↔ Runs x.run tr (.ok a) := by
  rw [runs_adapt_iff]
  constructor
  · rintro ⟨r, he, hx⟩
    cases r with
    | ok a' => rwa [Except.ok.inj he]
    | error e => cases he
  · exact fun hx => ⟨.ok a, rfl, hx⟩

theorem runs_ofExcept_iff {r r' : Except ε α} :
    Runs (Attempt.ofExcept r : Attempt A ε α).run tr r' ↔ tr = [] ∧ r' = r := runs_pure_iff

theorem runs_return_ok_iff {a b : α} :
    Runs (Pure.pure a : Attempt A ε α).run tr (.ok b) ↔ tr = [] ∧ b = a :=
  runs_pure_iff.trans (and_congr_right fun _ => by rw [Except.ok.injEq])

theorem not_runs_throw_ok {e : ε} {a : α} :
    ¬ Runs (throw e : Attempt A ε α).run tr (.ok a) := by
  intro h
  cases (runs_pure_iff.1 h).2

end Outcomes

namespace Program

theorem handle_bind {h : (e : E) → Program A' (A e)} (p : Program A α) (f : α → Program A β) :
    (p >>= f).handle h = p.handle h >>= fun a => (f a).handle h := by
  induction p with
  | pure a => rfl
  | call e next ih =>
      simp only [call_bind, handle, ih]
      exact (bind_assoc' (h e) _ _).symm

end Program
end Interaction

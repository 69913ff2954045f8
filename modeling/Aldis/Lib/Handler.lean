import Aldis.Lib.Calls

/-!
# Handlers

A handler answers each call of a program by a program over other calls. The executions of the
handled program are those of the program, with what each answer took in place of its call.
-/

namespace Interaction

open Program

variable {E E' : Type} {A : E → Type} {A' : E' → Type} {α β ε : Type}

namespace Program

/-- Answers every call by the program that `h` has for it. -/
def handle (h : (e : E) → Program A' (A e)) : Program A α → Program A' α
  | .pure a => .pure a
  | .call e next => h e >>= fun r => (next r).handle h

end Program

namespace Attempt

def handle (h : (e : E) → Program A' (A e)) (x : Attempt A ε α) : Attempt A' ε α :=
  ExceptT.mk (x.run.handle h)

end Attempt

/-- What answering the calls of a trace took. -/
inductive Answered (h : (e : E) → Program A' (A e)) : List (Sigma A) → List (Sigma A') → Prop
  | nil : Answered h [] []
  | cons {e : E} {r : A e} {tr : List (Sigma A)} {pre post : List (Sigma A')}
      (hr : Runs (h e) pre r) (ht : Answered h tr post) : Answered h (⟨e, r⟩ :: tr) (pre ++ post)

theorem runs_perform_iff {e : E} {tr : List (Sigma A)} {a : A e} :
    Runs (perform e) tr a ↔ tr = [⟨e, a⟩] := by
  rw [perform, runs_call_iff]
  constructor
  · rintro ⟨r, tr', rfl, hr⟩
    obtain ⟨rfl, rfl⟩ := runs_pure_iff.1 hr
    rfl
  · rintro rfl
    exact ⟨a, [], rfl, .pure a⟩

/-- The executions of a program that starts with a call. -/
theorem runs_perform_then_iff {e : E} {f : A e → Program A α} {tr : List (Sigma A)} {a : α} :
    Runs (perform e >>= f) tr a ↔
      ∃ answer post, tr = ⟨e, answer⟩ :: post ∧ Runs (f answer) post a := runs_call_iff

variable {h : (e : E) → Program A' (A e)}

/-- The executions of a handled program. -/
theorem runs_handle_iff {p : Program A α} {tr' : List (Sigma A')} {a : α} :
    Runs (p.handle h) tr' a ↔ ∃ tr, Runs p tr a ∧ Answered h tr tr' := by
  induction p generalizing tr' with
  | pure b =>
      rw [handle, runs_pure_iff]
      constructor
      · rintro ⟨rfl, rfl⟩
        exact ⟨[], .pure a, .nil⟩
      · rintro ⟨tr, hr, ht⟩
        obtain ⟨rfl, rfl⟩ := runs_pure_iff.1 hr
        cases ht
        exact ⟨rfl, rfl⟩
  | call e next ih =>
      rw [handle, runs_bind_iff]
      constructor
      · rintro ⟨pre, r, post, rfl, hr, hnext⟩
        obtain ⟨tr, htr, ht⟩ := (ih r).1 hnext
        exact ⟨⟨e, r⟩ :: tr, .call htr, .cons hr ht⟩
      · rintro ⟨tr, hr, ht⟩
        obtain ⟨r, tr, rfl, hnext⟩ := runs_call_iff.1 hr
        cases ht with
        | @cons _ _ _ pre post hr ht => exact ⟨pre, r, post, rfl, hr, (ih r).2 ⟨tr, hnext, ht⟩⟩

theorem runs_attempt_handle_iff {x : Attempt A ε α} {tr' : List (Sigma A')} {r : Except ε α} :
    Runs (x.handle h).run tr' r ↔ ∃ tr, Runs x.run tr r ∧ Answered h tr tr' := runs_handle_iff

/-- Where each call is answered by calls of which `f` keeps what it keeps of the call. -/
theorem Answered.filterMap_eq {γ : Type} {f : Sigma A → Option γ} {f' : Sigma A' → Option γ}
    {tr : List (Sigma A)} {tr' : List (Sigma A')} (ht : Answered h tr tr')
    (hf : ∀ e r pre, Runs (h e) pre r → pre.filterMap f' = (f ⟨e, r⟩).toList) :
    tr'.filterMap f' = tr.filterMap f := by
  induction ht with
  | nil => rfl
  | @cons e r tr pre post hr ht ih =>
      rw [List.filterMap_append, ih, hf e r pre hr, List.filterMap_cons]
      cases f ⟨e, r⟩ with
      | none => rfl
      | some c => rfl

/-- What holds of every call that an answer takes holds of every call of the handled program. -/
theorem Answered.forall_mem {P : Sigma A → Prop} {Q : Sigma A' → Prop} {tr : List (Sigma A)}
    {tr' : List (Sigma A')} (ht : Answered h tr tr') (hP : ∀ ev ∈ tr, P ev)
    (hf : ∀ e r pre, P ⟨e, r⟩ → Runs (h e) pre r → ∀ ev ∈ pre, Q ev) : ∀ ev ∈ tr', Q ev := by
  induction ht with
  | nil => exact fun ev hev => absurd hev List.not_mem_nil
  | @cons e r tr pre post hr ht ih =>
      rw [List.forall_mem_append]
      exact ⟨hf e r pre (hP _ List.mem_cons_self) hr,
        ih fun ev hev => hP ev (List.mem_cons_of_mem _ hev)⟩

theorem answered_cons_iff {ev : Sigma A} {tr : List (Sigma A)} {tr' : List (Sigma A')} :
    Answered h (ev :: tr) tr' ↔
      ∃ pre post, tr' = pre ++ post ∧ Runs (h ev.1) pre ev.2 ∧ Answered h tr post := by
  constructor
  · intro ht
    cases ht with
    | @cons e r tr pre post hr ht => exact ⟨pre, post, rfl, hr, ht⟩
  · rintro ⟨pre, post, rfl, hr, ht⟩
    exact .cons hr ht

theorem answered_append_iff {past rest : List (Sigma A)} {tr' : List (Sigma A')} :
    Answered h (past ++ rest) tr' ↔
      ∃ pre post, tr' = pre ++ post ∧ Answered h past pre ∧ Answered h rest post := by
  induction past generalizing tr' with
  | nil =>
      constructor
      · intro ht
        exact ⟨[], tr', rfl, .nil, ht⟩
      · rintro ⟨pre, post, rfl, hpre, ht⟩
        cases hpre
        exact ht
  | cons ev past ih =>
      rw [List.cons_append, answered_cons_iff]
      constructor
      · rintro ⟨own, rest', rfl, hr, ht⟩
        obtain ⟨pre, post, rfl, hpre, hpost⟩ := ih.1 ht
        exact ⟨own ++ pre, post, (List.append_assoc ..).symm, answered_cons_iff.2
          ⟨own, pre, rfl, hr, hpre⟩, hpost⟩
      · rintro ⟨pre, post, rfl, hpre, hpost⟩
        obtain ⟨own, pre, rfl, hr, hpre⟩ := answered_cons_iff.1 hpre
        exact ⟨own, pre ++ post, List.append_assoc .., hr, ih.2 ⟨pre, post, rfl, hpre, hpost⟩⟩

/-- The call whose answer took a call of the handled program, and what was answered before and
after it. -/
theorem Answered.split {tr : List (Sigma A)} {pre' post' : List (Sigma A')} {ev' : Sigma A'}
    (ht : Answered h tr (pre' ++ ev' :: post')) : ∃ pre e r post past pre₀ post₀ future,
      tr = pre ++ ⟨e, r⟩ :: post ∧ Answered h pre past ∧ pre' = past ++ pre₀ ∧
        Runs (h e) (pre₀ ++ ev' :: post₀) r ∧ post' = post₀ ++ future ∧ Answered h post future := by
  generalize he : pre' ++ ev' :: post' = all at ht
  induction ht generalizing pre' with
  | nil => exact absurd he (by simp)
  | @cons e r tr own rest hr ht ih =>
      have hlater : ∀ {z}, pre' = own ++ z → rest = z ++ ev' :: post' →
          ∃ pre e' r' post past pre₀ post₀ future, ⟨e, r⟩ :: tr = pre ++ ⟨e', r'⟩ :: post ∧
            Answered h pre past ∧ pre' = past ++ pre₀ ∧ Runs (h e') (pre₀ ++ ev' :: post₀) r' ∧
              post' = post₀ ++ future ∧ Answered h post future := by
        rintro z rfl hrest
        obtain ⟨pre, e', r', post, past, pre₀, post₀, future, rfl, hpast, rfl, hr', hpost⟩ :=
          ih hrest.symm
        exact ⟨⟨e, r⟩ :: pre, e', r', post, own ++ past, pre₀, post₀, future, rfl, .cons hr hpast,
          (List.append_assoc ..).symm, hr', hpost⟩
      rcases List.append_eq_append_iff.1 he with ⟨z, rfl, hz⟩ | ⟨z, rfl, hz⟩
      · rcases List.cons_eq_append_iff.1 hz with ⟨rfl, hrest⟩ | ⟨z', rfl, hpost⟩
        · exact hlater (z := []) (by simp) hrest
        · exact ⟨[], e, r, tr, [], pre', z', rest, rfl, .nil, rfl, hr, hpost, ht⟩
      · exact hlater rfl hz

end Interaction

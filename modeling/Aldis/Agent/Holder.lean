import Aldis.Agent.Course

/-!
# Who is recorded as the lock's holder

The lock is given back before the guard of its claim is dropped, and the guard clears the record
whoever wrote it. So the record names the holder of the lock as long as no guard is dropped after
another instance has claimed the lock.
-/

namespace Aldis.Agent

open Text Threads Machine

variable {I T V : Type} [DecidableEq I] [DecidableEq T] [Semver V] {name : I → Str}
  {tr : Trace I T V} {s s' : System (Shared I) T (Thread I V)} {t : T} {e : Event I V}

def Thread.guard : Thread I V → Option I
  | .claimed i _ => some i
  | .checked i _ => some i
  | .selected i _ _ => some i
  | .rejected i _ => some i
  | .worker job .spawned => some job.i
  | .worker job (.running _ _ _) => some job.i
  | .worker job (.returned _) => some job.i
  | _ => none

/-- The thread holds the lock for an instance that has claimed it. -/
structure Thread.Claims (p : Thread I V) (i : I) : Prop where
  holdsLock : p.holdsLock = true
  guard : p.guard = some i

/-- The accepted update of every named instance that holds the lock is recorded as its holder. -/
def HolderNamed (name : I → Str) (s : System (Shared I) T (Thread I V)) : Prop :=
  ∀ t job stage, s.threads t = .worker job stage → (s.threads t).holdsLock = true →
    name job.i ≠ [] → s.shared.holder = some (name job.i)

/-- The same of every update that has claimed the lock, be it accepted in the end or rejected. -/
def ClaimNamed (name : I → Str) (s : System (Shared I) T (Thread I V)) : Prop :=
  ∀ t i, (s.threads t).Claims i → name i ≠ [] → s.shared.holder = some (name i)

/-- The step drops no guard of a named instance while another thread holds the lock for a named
instance. -/
def DropsAlone (name : I → Str) (m : Move (System (Shared I) T (Thread I V)) (T × Event I V)) :
    Prop :=
  ∀ i, m.event.2 = .dropped i → name i ≠ [] →
    ∀ u j, u ≠ m.event.1 → (m.before.threads u).Claims j → name j = []

section Step

omit [DecidableEq T] [DecidableEq I] [Semver V] in
/-- An accepted update that holds the lock has claimed it. -/
theorem ClaimNamed.holderNamed (h : ClaimNamed name s) : HolderNamed name s := by
  intro t job stage hp hl hn
  refine h t job.i ⟨hl, ?_⟩ hn
  rw [hp] at hl ⊢
  cases stage with
  | spawned => rfl
  | running hooks unsent holds => rfl
  | returned result => rfl
  | _ => cases hl

inductive Holding (name : I → Str) (σ : Shared I) (p : Thread I V) (e : Event I V) (σ' : Shared I)
    (p' : Thread I V) : Prop
  | kept (hs : σ'.holder = σ.holder) (he : ∀ i, e ≠ .dropped i)
      (hc : ∀ i, p'.Claims i → p.Claims i)
  | claimed (i : I) (hp : p.holdsLock = true) (hs : σ' = σ.claim (name i))
      (he : ∀ i, e ≠ .dropped i) (hc : p'.guard = some i)
  | dropped (i : I) (hs : σ' = σ.drop (name i)) (he : e = .dropped i) (hc : p'.guard = none)

theorem Act.holding {σ σ' : Shared I} {p p' : Thread I V} (h : Act name σ p e σ' p') :
    Holding name σ p e σ' p' := by
  cases h with
  | status => exact .kept rfl nofun fun _ hc => hc
  | lockOutside hl => exact .kept rfl nofun fun _ hc => by cases hc.guard
  | unlockOutside => exact .kept rfl nofun fun _ hc => by cases hc.guard
  | ask => exact .kept rfl nofun fun _ hc => by cases hc.guard
  | unavailable => exact .kept rfl nofun fun _ hc => by cases hc.guard
  | refuse hl => exact .kept rfl nofun fun _ hc => by cases hc.guard
  | busy => exact .kept rfl nofun fun _ hc => by cases hc.guard
  | lock hl => exact .kept rfl nofun fun _ hc => by cases hc.guard
  | @claim i request => exact .claimed i rfl rfl nofun rfl
  | stillRunning hrun => exact .kept rfl nofun fun _ hc => ⟨rfl, hc.guard⟩
  | check hrun => exact .kept rfl nofun fun _ hc => ⟨rfl, hc.guard⟩
  | reject hsel => exact .kept rfl nofun fun _ hc => ⟨rfl, hc.guard⟩
  | select hsel => exact .kept rfl nofun fun _ hc => ⟨rfl, hc.guard⟩
  | @dropRejected i error => exact .dropped i rfl rfl rfl
  | unlockRejected => exact .kept rfl nofun fun _ hc => by cases hc.guard
  | accept => exact .kept rfl nofun fun _ hc => ⟨rfl, hc.guard⟩
  | discover => exact .kept rfl nofun fun _ hc => ⟨rfl, hc.guard⟩
  | hook => exact .kept rfl nofun fun _ hc => ⟨hc.holdsLock, hc.guard⟩
  | send => exact .kept rfl nofun fun _ hc => ⟨hc.holdsLock, hc.guard⟩
  | unlock => exact .kept rfl nofun fun _ hc => by cases hc.holdsLock
  | «return» => exact .kept rfl nofun fun _ hc => by cases hc.holdsLock
  | @drop job result => exact .dropped job.i rfl rfl rfl
  | complete => exact .kept rfl nofun fun _ hc => by cases hc.guard
  | deliver => exact .kept rfl nofun fun _ hc => by cases hc.guard
  | finish => exact .kept rfl nofun fun _ hc => by cases hc.guard

omit [DecidableEq I] in
theorem holder_claim {σ : Shared I} {n : Str} (hn : n ≠ []) : (σ.claim n).holder = some n := by
  rw [Shared.claim, if_neg hn]

omit [DecidableEq I] in
theorem holder_drop {σ : Shared I} {n : Str} (hn : n ≠ []) : (σ.drop n).holder = none := by
  rw [Shared.drop, if_neg hn]

theorem ClaimNamed.step (hc : ClaimNamed name s) (ht : Turns s) (h : Step (Act name) s (t, e) s')
    (hd : DropsAlone name ⟨s, (t, e)⟩) : ClaimNamed name s' := by
  obtain ⟨hact, hother⟩ := step_iff.1 h
  intro u j hu hn
  cases hact.holding with
  | kept hs he hback =>
      rw [hs]
      by_cases hut : u = t
      · rw [hut] at hu
        exact hc t j (hback j hu) hn
      · rw [hother u hut] at hu
        exact hc u j hu hn
  | claimed i hp hs he hg =>
      by_cases hut : u = t
      · rw [hut] at hu
        obtain rfl := Option.some.inj (hg.symm.trans hu.guard)
        rw [hs]
        exact holder_claim hn
      · -- Whoever else had claimed the lock would hold it together with this thread.
        rw [hother u hut] at hu
        exact absurd (ht.exclusive.alone u t hu.holdsLock hp) hut
  | dropped i hs he hg =>
      by_cases hut : u = t
      · rw [hut] at hu
        cases hg.symm.trans hu.guard
      · rw [hother u hut] at hu
        by_cases hni : name i = []
        · rw [hs, Shared.drop, if_pos hni]
          exact hc u j hu hn
        · exact absurd (hd i he hni u j hut hu) hn

/-- A guard that is dropped while another named instance holds the lock clears its name. -/
theorem dropsAlone_of_claimNamed (h : Step (Act name) s (t, e) s') (hc : ClaimNamed name s') :
    DropsAlone name ⟨s, (t, e)⟩ := by
  obtain ⟨hact, hother⟩ := step_iff.1 h
  intro i he hn u j hut hu
  by_contra hnj
  have hnamed := hc u j (by rw [hother u hut]; exact hu) hnj
  cases hact.holding with
  | kept hs he' hback => exact he' i he
  | claimed i' hp hs he' hg => exact he' i he
  | dropped i' hs he' hg =>
      obtain rfl := Event.dropped.inj (he'.symm.trans he)
      rw [hs, holder_drop hn] at hnamed
      cases hnamed

end Step

section Runs

theorem claimNamed_of_dropsAlone (hr : Runs name tr s) (hd : ∀ m ∈ tr, DropsAlone name m) :
    (∀ m ∈ tr, ClaimNamed name m.before) ∧ ClaimNamed name s := by
  refine hr.invariant_of (C := fun tr => ∀ m ∈ tr, DropsAlone name m)
    (P := fun tr s => (∀ m ∈ tr, ClaimNamed name m.before) ∧ ClaimNamed name s) hd ?_ ?_ ?_
  · intro tr m h m' hm'
    exact h m' (List.mem_append_left _ hm')
  · refine ⟨fun m hm => absurd hm List.not_mem_nil, fun t i hc => ?_⟩
    cases hc.guard
  · intro tr s e s' hr hd ih hs
    obtain ⟨hbefore, hnow⟩ := ih
    constructor
    · intro m hm
      rcases List.mem_append.1 hm with hold | hlast
      · exact hbefore m hold
      · rw [List.mem_singleton.1 hlast]
        exact hnow
    · exact hnow.step (turns_of_runs hr) hs (hd _ (List.mem_append_right _ List.mem_cons_self))

theorem dropsAlone_of_claimNamed_runs (hr : Runs name tr s)
    (hb : ∀ m ∈ tr, ClaimNamed name m.before) (hs : ClaimNamed name s) :
    ∀ m ∈ tr, DropsAlone name m := by
  induction hr with
  | start => exact fun m hm => absurd hm List.not_mem_nil
  | @next tr s s' e hr hstep ih =>
      intro m hm
      have hlast := hb ⟨s, e⟩ (List.mem_append_right _ List.mem_cons_self)
      rcases List.mem_append.1 hm with hold | hnew
      · exact ih (fun m hm => hb m (List.mem_append_left _ hm)) hlast m hold
      · rw [List.mem_singleton.1 hnew]
        exact dropsAlone_of_claimNamed hstep hs

omit [DecidableEq T] in
theorem error_of_refused {σ σ' : Shared I} {p p' : Thread I V} {i j : I} {error : ApiError}
    (h : Act name σ p (.answered j error) σ' p') (hp : p = .refused i) : error = busy σ.holder := by
  subst hp
  cases h with
  | busy => rfl

/-- In a run in which every guard is dropped while no other instance holds the lock it has claimed,
whoever holds the lock is recorded, and whoever is rejected meanwhile is told so; and those are the
only runs in which every claim of the lock stays recorded. -/
theorem holder_named_of_dropsAlone (hr : Runs name tr s) :
    ((∀ m ∈ tr, DropsAlone name m) →
      (∀ m ∈ tr, HolderNamed name m.before) ∧ HolderNamed name s ∧
      ∀ m ∈ tr, ∀ i j error, m.before.threads m.event.1 = .refused i →
        m.event.2 = .answered j error → ∀ u job stage, m.before.threads u = .worker job stage →
          (m.before.threads u).holdsLock = true → name job.i ≠ [] →
            error = busy (some (name job.i))) ∧
    ((∀ m ∈ tr, DropsAlone name m) ↔
      (∀ m ∈ tr, ClaimNamed name m.before) ∧ ClaimNamed name s) := by
  refine ⟨?_, fun hd => claimNamed_of_dropsAlone hr hd,
    fun hc => dropsAlone_of_claimNamed_runs hr hc.1 hc.2⟩
  intro hd
  obtain ⟨hbefore, hnow⟩ := claimNamed_of_dropsAlone hr hd
  refine ⟨fun m hm => (hbefore m hm).holderNamed, hnow.holderNamed, ?_⟩
  intro m hm i j error hp he u job stage hu hl hn
  obtain ⟨pre, hpre⟩ := exists_prefix_of_mem hm
  obtain ⟨-, s', hstep, -⟩ := hr.of_append hpre
  obtain ⟨hact, -⟩ := (step_iff (t := m.event.1) (e := m.event.2)).1 hstep
  rw [he] at hact
  rw [error_of_refused hact hp, (hbefore m hm).holderNamed u job stage hu hl hn]

theorem holder_named_in_course :
    ∃ (tr : Trace Bool ℕ Semver.Rank) (s : System (Shared Bool) ℕ (Thread Bool Semver.Rank)),
      (Runs printers tr s ∧ accepted tr ≠ [] ∧ .dropped false ∈ events tr) ∧
      (∀ m ∈ tr, HolderNamed printers m.before) ∧ HolderNamed printers s ∧
      ∀ m ∈ tr, ∀ i j error, m.before.threads m.event.1 = .refused i →
        m.event.2 = .answered j error → ∀ u job stage, m.before.threads u = .worker job stage →
          (m.before.threads u).holdsLock = true → printers job.i ≠ [] →
            error = busy (some (printers job.i)) := by
  obtain ⟨tr, hooks, hr, he⟩ := ebb_unlocked
  have hreturned := hr.act (t := 0) rfl
    (.return : Act printers _ _ (.returned _ _ (.ok ["mcu EBB"])) _ _)
  have hdropped := hreturned.act (t := 0) rfl .drop
  have hold : ∀ e ∈ ebbEvents, ∀ i, e ≠ .dropped i := by
    rintro e hmem i rfl
    simp only [ebbEvents, List.mem_cons, reduceCtorEq, List.not_mem_nil, or_self] at hmem
  refine ⟨_, _, ⟨hdropped, ?_, ?_⟩, (holder_named_of_dropsAlone hdropped).1 ?_⟩
  · unfold accepted
    rw [events_append, events_append, he]
    exact List.cons_ne_nil _ _
  · rw [events_append]
    exact List.mem_append_right _ List.mem_cons_self
  · simp only [List.forall_mem_append, List.forall_mem_singleton]
    refine ⟨⟨fun m hm i hi => ?_, fun i hi => nomatch hi⟩, fun i hi _ u j hu hc => ?_⟩
    · have hmem : m.event.2 ∈ ebbEvents := by
        rw [← he]
        exact List.mem_map_of_mem hm
      exact absurd hi (hold _ hmem i)
    · simp only [Function.update_of_ne hu] at hc
      exact absurd hc.holdsLock Bool.false_ne_true

/-- The first instance's worker drops its guard after the second instance's update was accepted. -/
theorem second_holder_cleared :
    ∃ (tr : Trace Bool ℕ Semver.Rank) (s : System (Shared Bool) ℕ (Thread Bool Semver.Rank)),
      Runs printers tr s ∧ DistinctIds tr ∧ ¬ HolderNamed printers s := by
  obtain ⟨tr, hooks, hr, he⟩ := ebb_unlocked
  have hreturned := hr.act (t := 0) rfl
    (.return : Act printers _ _ (.returned _ _ (.ok ["mcu EBB"])) _ _)
  have hsel : selectTargets (ebbJob true "1760000000500").snapshot (.mcus ["EBB"]) =
    .ok (ebbJob true "1760000000500").targets := selectTargets_twin
  obtain ⟨tr', hr', he'⟩ := hreturned.begin (t := 1) rfl rfl rfl hsel
  have hdropped := hr'.act (t := 0) rfl .drop
  refine ⟨_, _, hdropped, ?_, ?_⟩
  · unfold DistinctIds accepted
    rw [events_append, he', events_append, he]
    have hids : List.Nodup [("1760000000000" : Str), "1760000000500"] := by decide
    exact hids
  · intro hnamed
    have hholder := hnamed 1 (ebbJob true "1760000000500") .spawned rfl rfl (by decide)
    cases hholder

end Runs

end Aldis.Agent

import Aldis.Foci
import Aldis.Lib.Machine
import Aldis.Lib.Program

/-!
# The cache of the latest FOCI release

GitHub is asked again only once the last answer is due for renewal, which a failed lookup is
sooner than a release. A release that was found is kept until another one is.
-/

namespace Aldis.Foci

open Interaction

/-- Instants and durations count nanoseconds. -/
def RELEASE_REUSE : ℕ := 60 * 60 * 10 ^ 9
def LOOKUP_RETRY : ℕ := 5 * 60 * 10 ^ 9

structure CachedLookup (V : Type) where
  «at» : ℕ
  release : Option (Release V)
  failed : Bool

structure ReleaseCache (V : Type) where
  last : Option (CachedLookup V)

variable {V ε : Type}

inductive LookupCall where
  | latestRelease

abbrev LookupAnswer (V ε : Type) : LookupCall → Type
  | .latestRelease => Except ε (Release V)

namespace ReleaseCache

def empty : ReleaseCache V := ⟨none⟩

def reuse (failed : Bool) : ℕ := if failed then LOOKUP_RETRY else RELEASE_REUSE

/-- The cache after a lookup at `now` was answered. -/
def renewed (cache : ReleaseCache V) (now : ℕ) : Except ε (Release V) → CachedLookup V
  | .ok release => ⟨now, some release, false⟩
  | .error _ => ⟨now, cache.last.bind (·.release), true⟩

def renew (cache : ReleaseCache V) (now : ℕ) :
    Program (LookupAnswer V ε) (ReleaseCache V × Option (Release V)) := do
  let answer ← Program.perform LookupCall.latestRelease
  let last := cache.renewed now answer
  return (⟨some last⟩, last.release)

/-- The release that was last found, after asking again only where that is due at `now`. -/
def get (cache : ReleaseCache V) (now : ℕ) :
    Program (LookupAnswer V ε) (ReleaseCache V × Option (Release V)) :=
  match cache.last with
  | some last =>
    if now - last.at < reuse last.failed then return (cache, last.release) else cache.renew now
  | none => cache.renew now

end ReleaseCache

structure CacheCall (V ε : Type) where
  now : ℕ
  lookup : Option (Except ε (Release V))
  release : Option (Release V)

def CacheCall.trace (c : CacheCall V ε) : List (Sigma (LookupAnswer V ε)) :=
  c.lookup.toList.map fun answer => ⟨.latestRelease, answer⟩

def CacheCall.Step (cache : ReleaseCache V) (c : CacheCall V ε) (cache' : ReleaseCache V) : Prop :=
  Runs (cache.get c.now) c.trace (cache', c.release)

abbrev CacheTrace (V ε : Type) := List (Machine.Move (ReleaseCache V) (CacheCall V ε))

abbrev CacheRuns (tr : CacheTrace V ε) (cache : ReleaseCache V) : Prop :=
  Machine.Run CacheCall.Step .empty tr cache

def lookups (tr : CacheTrace V ε) : List (ℕ × Except ε (Release V)) :=
  tr.filterMap fun m => m.event.lookup.map (m.event.now, ·)

/-- The release of the most recent lookup that succeeded. -/
def latest (tr : CacheTrace V ε) : Option (Release V) :=
  ((lookups tr).filterMap (·.2.toOption)).getLast?

def failed (answer : Except ε (Release V)) : Bool := answer.toOption.isNone

/-- The second of two lookups is not made before the first is due for renewal. -/
def Apart (first second : ℕ × Except ε (Release V)) : Prop :=
  first.1 + ReleaseCache.reuse (failed first.2) ≤ second.1

section Step

variable {cache cache' : ReleaseCache V} {c : CacheCall V ε}

/-- A call answers from the cache where the last answer is not due yet, and asks otherwise. -/
theorem step_cases (h : c.Step cache cache') :
    (∃ last, cache.last = some last ∧ c.now < last.at + ReleaseCache.reuse last.failed ∧
      c.lookup = none ∧ cache' = cache ∧ c.release = last.release) ∨
    ∃ answer, c.lookup = some answer ∧ cache' = ⟨some (cache.renewed c.now answer)⟩ ∧
      c.release = (cache.renewed c.now answer).release ∧
      ∀ last, cache.last = some last → last.at + ReleaseCache.reuse last.failed ≤ c.now := by
  have hrenew : Runs (cache.renew c.now) c.trace (cache', c.release) →
      ∃ answer, c.lookup = some answer ∧ cache' = ⟨some (cache.renewed c.now answer)⟩ ∧
        c.release = (cache.renewed c.now answer).release := by
    intro hr
    obtain ⟨answer, rest, htrace, hr⟩ := runs_call_iff.1 hr
    obtain ⟨rfl, hpair⟩ := runs_pure_iff.1 hr
    obtain ⟨hcache, hrelease⟩ := Prod.mk.inj hpair
    cases hl : c.lookup with
    | none =>
        rw [CacheCall.trace, hl] at htrace
        cases htrace
    | some answer' =>
        rw [CacheCall.trace, hl] at htrace
        cases htrace
        exact ⟨answer, rfl, hcache, hrelease⟩
  unfold CacheCall.Step ReleaseCache.get at h
  cases hl : cache.last with
  | none =>
      simp only [hl] at h
      obtain ⟨answer, hask, hcache, hrelease⟩ := hrenew h
      exact .inr ⟨answer, hask, hcache, hrelease, fun last hlast => by cases hlast⟩
  | some last =>
      simp only [hl] at h
      have hpos : 0 < ReleaseCache.reuse last.failed := by
        cases last.failed <;> decide
      by_cases hfresh : c.now - last.at < ReleaseCache.reuse last.failed
      · rw [if_pos hfresh] at h
        obtain ⟨htrace, hpair⟩ := runs_pure_iff.1 h
        obtain ⟨hcache, hrelease⟩ := Prod.mk.inj hpair
        refine .inl ⟨last, rfl, by omega, ?_, hcache, hrelease⟩
        cases hask : c.lookup with
        | none => rfl
        | some answer =>
            rw [CacheCall.trace, hask] at htrace
            cases htrace
      · rw [if_neg hfresh] at h
        obtain ⟨answer, hask, hcache, hrelease⟩ := hrenew h
        refine .inr ⟨answer, hask, hcache, hrelease, ?_⟩
        intro last' hlast
        obtain rfl := Option.some.inj hlast
        omega

end Step

section History

variable {tr pre : CacheTrace V ε} {cache cache' : ReleaseCache V} {c : CacheCall V ε}
  {m : Machine.Move (ReleaseCache V) (CacheCall V ε)}

theorem lookups_of_none (h : c.lookup = none) : lookups (tr ++ [⟨cache, c⟩]) = lookups tr := by
  rw [lookups, List.filterMap_append, List.filterMap_cons_none (by rw [h]; rfl),
    List.filterMap_nil, List.append_nil]
  exact rfl

theorem lookups_of_some {answer : Except ε (Release V)} (h : c.lookup = some answer) :
    lookups (tr ++ [⟨cache, c⟩]) = lookups tr ++ [(c.now, answer)] := by
  rw [lookups, List.filterMap_append]
  congr 1
  rw [List.filterMap_cons_some (by rw [h]; rfl), List.filterMap_nil]

theorem latest_of_none (h : c.lookup = none) : latest (tr ++ [⟨cache, c⟩]) = latest tr := by
  rw [latest, lookups_of_none h, latest]

theorem latest_of_ok {release : Release V} (h : c.lookup = some (.ok release)) :
    latest (tr ++ [⟨cache, c⟩]) = some release := by
  rw [latest, lookups_of_some h, List.filterMap_append]
  exact List.getLast?_concat

theorem latest_of_error {e : ε} (h : c.lookup = some (.error e)) :
    latest (tr ++ [⟨cache, c⟩]) = latest tr := by
  rw [latest, lookups_of_some h, List.filterMap_append, latest]
  exact congrArg List.getLast? (List.append_nil _)

/-- The cache holds what the last lookup was and the release of the last that succeeded. -/
structure Reflects (tr : CacheTrace V ε) (cache : ReleaseCache V) : Prop where
  last : cache.last.map (fun last => (last.at, last.failed)) =
    (lookups tr).getLast?.map fun lookup => (lookup.1, failed lookup.2)
  release : cache.last.bind (·.release) = latest tr
  apart : (lookups tr).IsChain Apart

theorem Reflects.step (hr : Reflects tr cache) (h : c.Step cache cache') :
    Reflects (tr ++ [⟨cache, c⟩]) cache' ∧ c.release = latest (tr ++ [⟨cache, c⟩]) := by
  rcases step_cases h with
    ⟨last, hlast, -, hask, rfl, hrelease⟩ | ⟨answer, hask, rfl, hrelease, hdue⟩
  · have hlatest := hr.release
    rw [hlast] at hlatest
    refine ⟨⟨?_, ?_, ?_⟩, ?_⟩
    · rw [lookups_of_none hask]
      exact hr.last
    · rw [latest_of_none hask]
      exact hr.release
    · rw [lookups_of_none hask]
      exact hr.apart
    · rw [latest_of_none hask, hrelease]
      exact hlatest
  · have hlatest : (cache.renewed c.now answer).release = latest (tr ++ [⟨cache, c⟩]) := by
      cases answer with
      | ok release => rw [latest_of_ok hask]; rfl
      | error e => rw [latest_of_error hask, ← hr.release]; rfl
    refine ⟨⟨?_, hlatest, ?_⟩, hrelease.trans hlatest⟩
    · rw [lookups_of_some hask, List.getLast?_concat]
      cases answer with
      | ok release => rfl
      | error e => rfl
    · rw [lookups_of_some hask, List.isChain_append]
      refine ⟨hr.apart, List.isChain_singleton _, ?_⟩
      intro first hfirst second hsecond
      have hlast := hr.last
      rw [Option.mem_def.1 hfirst] at hlast
      obtain ⟨last, hcached, hpair⟩ := Option.map_eq_some_iff.1 hlast
      obtain ⟨hat, hfailed⟩ := Prod.mk.inj hpair
      have hle := hdue last hcached
      rw [hat, hfailed] at hle
      obtain rfl := Option.some.inj hsecond
      exact hle

/-- A call that asks nothing comes before the last lookup is due for renewal. -/
theorem Reflects.fresh (hr : Reflects tr cache) (h : c.Step cache cache')
    (hn : c.lookup = none) : ∃ last, (lookups tr).getLast? = some last ∧
      c.now < last.1 + ReleaseCache.reuse (failed last.2) := by
  rcases step_cases h with ⟨cached, hcached, hfresh, -⟩ | ⟨answer, hask, -⟩
  · have hlast := hr.last
    rw [hcached] at hlast
    obtain ⟨last, hlookup, hpair⟩ := Option.map_eq_some_iff.1 hlast.symm
    obtain ⟨hat, hfailed⟩ := Prod.mk.inj hpair
    refine ⟨last, hlookup, ?_⟩
    rw [hat, hfailed]
    exact hfresh
  · rw [hn] at hask
    cases hask

theorem reflects_of_runs (hr : CacheRuns tr cache) : Reflects tr cache := by
  apply hr.invariant
  · exact ⟨rfl, rfl, List.isChain_nil⟩
  · intro tr cache c cache' _ h hs
    exact (h.step hs).1

/-- A call can be made at any time, and asks at most what `answer` answers. -/
theorem exists_call (cache : ReleaseCache V) (now : ℕ) (answer : Except ε (Release V)) :
    ∃ (c : CacheCall V ε) (cache' : ReleaseCache V), c.Step cache cache' ∧ c.now = now ∧
      ∀ lookup, c.lookup = some lookup → lookup = answer := by
  have hrenew : Runs (cache.renew now) [⟨.latestRelease, answer⟩]
      (⟨some (cache.renewed now answer)⟩, (cache.renewed now answer).release) :=
    .call (.pure _)
  have hasked : Runs (cache.get now) [⟨.latestRelease, answer⟩]
        (⟨some (cache.renewed now answer)⟩, (cache.renewed now answer).release) ∨
      ∃ last : CachedLookup V, Runs (cache.get (ε := ε) now) [] (cache, last.release) := by
    unfold ReleaseCache.get
    cases hl : cache.last with
    | none => exact .inl hrenew
    | some last =>
        by_cases hfresh : now - last.at < ReleaseCache.reuse last.failed
        · right
          simp only [if_pos hfresh]
          exact ⟨last, .pure _⟩
        · left
          simp only [if_neg hfresh]
          exact hrenew
  rcases hasked with h | ⟨last, h⟩
  · refine ⟨⟨now, some answer, _⟩, _, h, rfl, ?_⟩
    intro lookup hl
    exact (Option.some.inj hl).symm
  · refine ⟨⟨now, none, _⟩, _, h, rfl, ?_⟩
    intro lookup hl
    cases hl

/-- Every sequence of calls, with what their lookups are answered, is that of a run. -/
theorem exists_run (script : List (ℕ × Except ε (Release V))) :
    ∃ (tr : CacheTrace V ε) (cache : ReleaseCache V), CacheRuns tr cache ∧
      List.Forall₂ (fun m entry => m.event.now = entry.1 ∧
        ∀ lookup, m.event.lookup = some lookup → lookup = entry.2) tr script := by
  induction script using List.reverseRecOn with
  | nil => exact ⟨[], .empty, .start, .nil⟩
  | append_singleton script entry ih =>
      obtain ⟨tr, cache, hr, hall⟩ := ih
      obtain ⟨c, cache', hs, hnow, hlookup⟩ := exists_call cache entry.1 entry.2
      refine ⟨tr ++ [⟨cache, c⟩], cache', hr.next hs, ?_⟩
      exact List.rel_append hall (.cons ⟨hnow, hlookup⟩ .nil)

theorem apart_of_ok {first second : ℕ × Except ε (Release V)} {release : Release V}
    (h : Apart first second) (hf : first.2 = .ok release) :
    first.1 + RELEASE_REUSE ≤ second.1 := by
  have hreuse : ReleaseCache.reuse (failed first.2) = RELEASE_REUSE := by
    rw [hf]
    exact if_neg Bool.false_ne_true
  rw [← hreuse]
  exact h

theorem apart_of_error {first second : ℕ × Except ε (Release V)} {e : ε}
    (h : Apart first second) (hf : first.2 = .error e) :
    first.1 + LOOKUP_RETRY ≤ second.1 := by
  have hreuse : ReleaseCache.reuse (failed first.2) = LOOKUP_RETRY := by
    rw [hf]
    exact if_pos rfl
  rw [← hreuse]
  exact h

end History

/-- Whenever a cache is asked, it returns the release of the most recent successful lookup, which
a failed lookup neither discards nor changes, it makes no lookup before the one before it is due for
renewal, and it makes one once that is due. -/
theorem release_kept_and_requests_bounded (V ε : Type) :
    (∀ script : List (ℕ × Except ε (Release V)), ∃ (tr : CacheTrace V ε) (cache : ReleaseCache V),
      CacheRuns tr cache ∧ List.Forall₂ (fun m entry => m.event.now = entry.1 ∧
        ∀ lookup, m.event.lookup = some lookup → lookup = entry.2) tr script) ∧
    ∀ (tr : CacheTrace V ε) (cache : ReleaseCache V), CacheRuns tr cache →
      (∀ pre m, pre ++ [m] <+: tr → m.event.release = latest (pre ++ [m])) ∧
      (∀ pre m e, pre ++ [m] <+: tr → m.event.lookup = some (.error e) →
        m.event.release = latest pre) ∧
      (∀ before first second after, lookups tr = before ++ first :: second :: after →
        (∀ release, first.2 = .ok release → first.1 + RELEASE_REUSE ≤ second.1) ∧
        ∀ e, first.2 = .error e → first.1 + LOOKUP_RETRY ≤ second.1) ∧
      ∀ pre m, pre ++ [m] <+: tr → m.event.lookup = none → ∃ last,
        (lookups pre).getLast? = some last ∧
          m.event.now < last.1 + ReleaseCache.reuse (failed last.2) := by
  refine ⟨exists_run, ?_⟩
  intro tr cache hr
  have hreturned : ∀ pre m, pre ++ [m] <+: tr → m.event.release = latest (pre ++ [m]) := by
    intro pre m hpre
    obtain ⟨hrun, cache', hs, -⟩ := hr.of_append hpre
    exact ((reflects_of_runs hrun).step hs).2
  refine ⟨hreturned, ?_, ?_, ?_⟩
  · intro pre m e hpre he
    rw [hreturned pre m hpre]
    exact latest_of_error he
  · intro before first second after hl
    have hchain := (reflects_of_runs hr).apart
    rw [hl, List.isChain_append_cons_cons] at hchain
    exact ⟨fun _ hf => apart_of_ok hchain.2.1 hf, fun _ hf => apart_of_error hchain.2.1 hf⟩
  · intro pre m hpre hn
    obtain ⟨hrun, cache', hs, -⟩ := hr.of_append hpre
    exact (reflects_of_runs hrun).fresh hs hn

def keptRelease : Release Semver.Rank := ⟨"v0.4.2", Semver.rank 0 4 2 ⊤⟩

/-- A release that is found, and returned from the cache a minute later. -/
theorem release_reused : ∃ (tr : CacheTrace Semver.Rank Unit) (cache : ReleaseCache Semver.Rank),
    (CacheRuns tr cache ∧ lookups tr = [(0, .ok keptRelease)] ∧
      tr.map (·.event.release) = [some keptRelease, some keptRelease]) ∧
    ∀ pre m, pre ++ [m] <+: tr → m.event.release = latest (pre ++ [m]) := by
  have hfirst : (⟨0, some (.ok keptRelease), some keptRelease⟩ : CacheCall Semver.Rank Unit).Step
    .empty ⟨some ⟨0, some keptRelease, false⟩⟩ := .call (.pure _)
  have hsecond : (⟨60 * 10 ^ 9, none, some keptRelease⟩ : CacheCall Semver.Rank Unit).Step
    ⟨some ⟨0, some keptRelease, false⟩⟩ ⟨some ⟨0, some keptRelease, false⟩⟩ := .pure _
  have hr := (Machine.Run.start.next hfirst).next hsecond
  exact ⟨_, _, ⟨hr, rfl, rfl⟩, ((release_kept_and_requests_bounded Semver.Rank Unit).2 _ _ hr).1⟩

end Aldis.Foci

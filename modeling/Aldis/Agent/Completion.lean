import Aldis.Agent.Records

/-!
# When completion becomes visible

A worker records the payload that completes its run, sends it, and only then marks the run as
finished, each in a critical section of its own. What a status or an update request makes of a run
that has completed depends on whether it comes in between.
-/

namespace Aldis.Agent

open Text Threads Machine

variable {I T V : Type}

/-- A payload that completes the run is its result and its end, and a finished run has one. -/
structure Consistent (run : RunBody) : Prop where
  complete : ∀ m ∈ run.messages, m.complete = true →
    run.state = .finished ∧ m.result = run.result
  finished : run.state = .finished → ∃ last, run.messages.getLast? = some last ∧
    last.complete = true ∧ last.result = run.result ∧ run.result.isSome = true

/-- The completing payload has been recorded, and the run is not marked as finished. -/
def Stage.Between : Stage → Prop
  | .completing _ _ => True
  | .delivered _ => True
  | _ => False

def Delivers (m : Move (System (Shared I) T (Thread I V)) (T × Event I V)) (runId : Str) : Prop :=
  ∃ i message, m.event.2 = .sent i message ∧ message.complete = true ∧ message.runId = runId

/-- The thread asked for its update after the run `runId` had delivered its completing payload. -/
def AskedAfter (tr : Trace I T V) (t : T) (runId : Str) : Prop :=
  ∃ earlier m later, tr = earlier ++ m :: later ∧
    (∃ i request, m.event = (t, .asked i request)) ∧ ∃ d ∈ earlier, Delivers d runId

/-- Completion is visible atomically: each status is consistent, and no request that was sent after
a run's completing payload was delivered is rejected because of that run, be it for its record or
for the lock. -/
structure Atomic (tr : Trace I T V) : Prop where
  status : ∀ m ∈ tr, ∀ i body run, m.event.2 = .status i body → body.run = some run →
    Consistent run
  record : ∀ pre m, pre ++ [m] <+: tr → ∀ i runId, m.event.2 = .stillRunning i runId →
    ¬ AskedAfter pre m.event.1 runId
  lock : ∀ pre m, pre ++ [m] <+: tr → ∀ i, m.event.2 = .refused i → ∀ u job stage,
    m.before.threads u = .worker job stage → (m.before.threads u).holdsLock = true →
      ¬ AskedAfter pre m.event.1 job.runId

/-- No status falls between the recording of a run's completing payload and its marking as
finished, and no request looks at the record in between if it was sent after the delivery. -/
structure SeesAround (tr : Trace I T V) : Prop where
  status : ∀ m ∈ tr, ∀ i body, m.event.2 = .status i body → ∀ u job stage,
    m.before.threads u = .worker job stage → job.i = i → ¬ stage.Between
  record : ∀ pre m, pre ++ [m] <+: tr →
    ∀ i request, m.before.threads m.event.1 = .claimed i request →
    ∀ u job stage, m.before.threads u = .worker job stage → job.i = i →
      ¬ AskedAfter pre m.event.1 job.runId

section Status

variable [Semver V] {state : ServiceState} {run : RunBody}

theorem status_run {snapshot : Snapshot V} : (state.status snapshot).run = state.run := by
  unfold ServiceState.status
  split
  · rename_i run body hrun hbody
    split_ifs
    · exact hrun.symm
    · exact hrun.symm
  · rfl

theorem Completes.consistent {result : RunResultBody} (h : Completes run.messages result)
    (hs : run.state = .finished) (hr : run.result = some result) : Consistent run := by
  obtain ⟨before, last, hmessages, hbefore, hlast, hresult⟩ := h
  constructor
  · intro m hm hc
    rw [hmessages] at hm
    rcases List.mem_append.1 hm with hold | hnew
    · rw [hbefore m hold] at hc
      cases hc
    · rw [List.mem_singleton.1 hnew, hr]
      exact ⟨hs, hresult⟩
  · intro _
    refine ⟨last, ?_, hlast, hresult.trans hr.symm, ?_⟩
    · rw [hmessages, List.getLast?_append]
      rfl
    · rw [hr]
      rfl

theorem Completes.exists_complete {messages : List UpdateResponse} {result : RunResultBody}
    (h : Completes messages result) : ∃ m ∈ messages, m.complete = true := by
  obtain ⟨before, last, hmessages, -, hlast, -⟩ := h
  refine ⟨last, ?_, hlast⟩
  rw [hmessages]
  exact List.mem_append_right _ List.mem_cons_self

variable [DecidableEq I] [DecidableEq T] {s : System (Shared I) T (Thread I V)} {i : I}

omit [Semver V] [DecidableEq I] [DecidableEq T] in
/-- A record is inconsistent exactly while a worker of its instance is between. -/
theorem Turns.consistent_iff (ht : Turns s) (hrun : (s.shared.services i).run = some run) :
    Consistent run ↔
      ∀ u job stage, s.threads u = .worker job stage → job.i = i → ¬ stage.Between := by
  constructor
  · intro hc u job stage hu hi hbetween
    obtain ⟨run', hw⟩ := ht.working u job stage hu
    rw [hi] at hw
    obtain rfl := Option.some.inj (hw.recorded.symm.trans hrun)
    have hcomplete : ∃ m ∈ run'.messages, m.complete = true := by
      cases stage with
      | completing message result => exact Completes.exists_complete hw.fits
      | delivered result => exact Completes.exists_complete hw.fits
      | _ => exact hbetween.elim
    obtain ⟨m, hm, hmc⟩ := hcomplete
    have hfinished := (hc.complete m hm hmc).1
    rw [hw.running] at hfinished
    cases hfinished
  · intro hnone
    rcases ht.rest i run hrun with ⟨hr, u, job, hu, hi⟩ | ⟨hs, result, hr, hcompletes⟩
    · obtain ⟨stage, hstage⟩ := job_eq_some_iff.1 hu
      obtain ⟨run', hw⟩ := ht.working u job stage hstage
      rw [hi] at hw
      obtain rfl := Option.some.inj (hw.recorded.symm.trans hrun)
      have hincomplete : ∀ m ∈ run'.messages, m.complete = false := by
        have hbetween := hnone u job stage hstage hi
        cases stage with
        | running hooks unsent holds => exact hw.fits.2
        | completing message result => exact (hbetween True.intro).elim
        | delivered result => exact (hbetween True.intro).elim
        | _ => exact hw.fits
      constructor
      · intro m hm hmc
        rw [hincomplete m hm] at hmc
        cases hmc
      · intro hfin
        rw [hr] at hfin
        cases hfin
    · exact hcompletes.consistent hs hr

end Status

section Deliveries

variable [Semver V] [DecidableEq I] [DecidableEq T] {name : I → Str} {σ σ' : Shared I}
  {p p' : Thread I V} {e : Event I V} {s s' : System (Shared I) T (Thread I V)} {t : T}
  {tr : Trace I T V}

def Stage.Outgoing (job : Job I V) : Stage → Prop
  | .running hooks unsent _ => hooks.runId = job.runId ∧
      ∀ message, unsent = some message → message.complete = false
  | .completing message _ => message.complete = true ∧ message.runId = job.runId
  | _ => True

theorem Act.outgoing {job : Job I V} {stage' : Stage}
    (h : Act name σ p e σ' (.worker job stage')) :
    (e = .accepted job ∧ stage' = .spawned) ∨ ∃ stage, p = .worker job stage ∧
      (∀ result, stage ≠ .delivered result) ∧ (stage.Outgoing job → stage'.Outgoing job) := by
  cases h with
  | accept => exact .inl ⟨rfl, rfl⟩
  | discover =>
      refine .inr ⟨_, rfl, nofun, fun _ => ⟨rfl, ?_⟩⟩
      intro message hm
      obtain rfl := Option.some.inj hm
      rfl
  | @hook _ hooks holds hook =>
      have htells := hooks.call_tells hook
      refine .inr ⟨_, rfl, nofun, fun ho => ⟨htells.hooks.trans ho.1, ?_⟩⟩
      intro message hm
      obtain rfl := Option.some.inj hm
      exact htells.complete
  | send => exact .inr ⟨_, rfl, nofun, fun ho => ⟨ho.1, nofun⟩⟩
  | unlock => exact .inr ⟨_, rfl, nofun, fun ho => ⟨ho.1, nofun⟩⟩
  | «return» => exact .inr ⟨_, rfl, nofun, fun _ => True.intro⟩
  | drop => exact .inr ⟨_, rfl, nofun, fun _ => True.intro⟩
  | complete => exact .inr ⟨_, rfl, nofun, fun _ => ⟨rfl, rfl⟩⟩
  | deliver => exact .inr ⟨_, rfl, nofun, fun _ => True.intro⟩

theorem Act.sent {i : I} {message : UpdateResponse} (h : Act name σ p (.sent i message) σ' p') :
    (∃ job hooks holds, p = .worker job (.running hooks (some message) holds)) ∨
      ∃ job result, p = .worker job (.completing message result) ∧
        p' = .worker job (.delivered result) := by
  cases h with
  | send => exact .inl ⟨_, _, _, rfl⟩
  | deliver => exact .inr ⟨_, _, rfl, rfl⟩

/-- Whoever has delivered the payload that completes a run has only to mark it as finished. -/
structure Deliveries (tr : Trace I T V) (s : System (Shared I) T (Thread I V)) : Prop where
  outgoing : ∀ t job stage, s.threads t = .worker job stage → stage.Outgoing job
  accepted : ∀ d ∈ tr, ∀ runId, Delivers d runId → ∃ job ∈ accepted tr, job.runId = runId
  delivered : ∀ d ∈ tr, ∀ runId, Delivers d runId → ∀ t job stage,
    s.threads t = .worker job stage → job.runId = runId → ∃ result, stage = .delivered result

theorem Deliveries.step (hv : Deliveries tr s) (ht : Turns s) (hc : Chronicle tr s)
    (hd : DistinctIds (tr ++ [⟨s, (t, e)⟩])) (h : Step (Act name) s (t, e) s') :
    Deliveries (tr ++ [⟨s, (t, e)⟩]) s' := by
  obtain ⟨hact, hother⟩ := step_iff.1 h
  have hlast : ∀ runId, Delivers ⟨s, (t, e)⟩ runId → ∃ job message result,
      s.threads t = .worker job (.completing message result) ∧
        s'.threads t = .worker job (.delivered result) ∧ job.runId = runId := by
    intro runId hdel
    obtain ⟨i, message, he, hcomplete, hid⟩ := hdel
    have he : e = .sent i message := he
    rw [he] at hact
    rcases hact.sent with ⟨job, hooks, holds, hp⟩ | ⟨job, result, hp, hp'⟩
    · have hunsent := (hv.outgoing t job _ hp).2 message rfl
      rw [hcomplete] at hunsent
      cases hunsent
    · exact ⟨job, message, result, hp, hp', ((hv.outgoing t job _ hp).2).symm.trans hid⟩
  refine ⟨?_, ?_, ?_⟩
  · intro u job stage hu
    by_cases hut : u = t
    · rw [hut] at hu
      rw [hu] at hact
      rcases hact.outgoing with ⟨-, rfl⟩ | ⟨stage', hp, -, hout⟩
      · exact True.intro
      · exact hout (hv.outgoing t job stage' hp)
    · rw [hother u hut] at hu
      exact hv.outgoing u job stage hu
  · intro d hmem runId hdel
    rcases List.mem_append.1 hmem with hold | hnew
    · obtain ⟨job, hjob, hid⟩ := hv.accepted d hold runId hdel
      exact ⟨job, accepted_subset hjob, hid⟩
    · rw [List.mem_singleton.1 hnew] at hdel
      obtain ⟨job, message, result, hp, -, hid⟩ := hlast runId hdel
      exact ⟨job, accepted_subset (hc.accepted_of_worker t job (by rw [hp]; rfl)), hid⟩
  · intro d hmem runId hdel u job stage hu hid
    rcases List.mem_append.1 hmem with hold | hnew
    · by_cases hut : u = t
      · rw [hut] at hu
        rw [hu] at hact
        rcases hact.outgoing with ⟨he, -⟩ | ⟨stage', hp, hnot, -⟩
        · -- The run that was completed has another id than the one that is accepted now.
          obtain ⟨job', hjob', hid'⟩ := hv.accepted d hold runId hdel
          subst he
          exact absurd (hid'.trans hid.symm) (runId_not_mem hd rfl job' hjob')
        · obtain ⟨result, hstage⟩ := hv.delivered d hold runId hdel t job stage' hp hid
          exact absurd hstage (hnot result)
      · rw [hother u hut] at hu
        exact hv.delivered d hold runId hdel u job stage hu hid
    · rw [List.mem_singleton.1 hnew] at hdel
      obtain ⟨job', message, result, hp, hp', hid'⟩ := hlast runId hdel
      by_cases hut : u = t
      · rw [hut, hp'] at hu
        cases hu
        exact ⟨result, rfl⟩
      · rw [hother u hut] at hu
        have hjob := hc.accepted_of_worker u job (by rw [hu]; rfl)
        have hjob' := hc.accepted_of_worker t job' (by rw [hp]; rfl)
        have heq : job = job' :=
          eq_of_runId (distinctIds_of_append hd) hjob hjob' (hid.trans hid'.symm)
        subst heq
        exact absurd (ht.single u t job job (by rw [hu]; rfl) (by rw [hp]; rfl) rfl) hut

theorem deliveries_of_runs (hr : Runs name tr s) (hd : DistinctIds tr) : Deliveries tr s := by
  refine hr.invariant_of (C := DistinctIds) (P := Deliveries) hd
    (fun _ _ => distinctIds_of_append) ⟨?_, ?_, ?_⟩ ?_
  · intro t job stage h
    cases h
  · exact fun d hd => absurd hd List.not_mem_nil
  · exact fun d hd => absurd hd List.not_mem_nil
  · intro tr s e s' hr hd hv hs
    exact hv.step (turns_of_runs hr) (chronicle_of_runs hr (distinctIds_of_append hd)) hd hs

theorem Act.status_inv {i : I} {body : StatusBody} (h : Act name σ p (.status i body) σ' p') :
    ∃ snapshot : Snapshot V, body = (σ.services i).status snapshot := by
  cases h with
  | status => exact ⟨_, rfl⟩

omit [DecidableEq T] in
theorem Act.claimed_inv {i : I} {request : UpdateRequest} (h : Act name σ p e σ' p')
    (hp : p = .claimed i request) :
    (∃ runId, e = .stillRunning i runId ∧ (σ.services i).running = some runId) ∨
      (σ.services i).running = none := by
  subst hp
  cases h with
  | stillRunning hrun => exact .inl ⟨_, rfl, hrun⟩
  | check hrun => exact .inr hrun

theorem Act.stillRunning_inv {i : I} {runId : Str}
    (h : Act name σ p (.stillRunning i runId) σ' p') :
    (∃ request, p = .claimed i request) ∧ (σ.services i).running = some runId := by
  cases h with
  | stillRunning hrun => exact ⟨⟨_, rfl⟩, hrun⟩

omit [DecidableEq I] [DecidableEq T] [Semver V] in
/-- The run that is recorded as running is that of the instance's worker. -/
theorem Turns.running_eq_some_iff (ht : Turns s) {i : I} {runId : Str} :
    (s.shared.services i).running = some runId ↔
      ∃ u job stage, s.threads u = .worker job stage ∧ job.i = i ∧ job.runId = runId := by
  constructor
  · intro h
    obtain ⟨run, hrun, hid⟩ := Option.map_eq_some_iff.1 h
    obtain ⟨hrec, hrunning⟩ := Option.filter_eq_some_iff.1 hrun
    rcases ht.rest i run hrec with ⟨-, u, job, hu, hi⟩ | ⟨hfin, -⟩
    · obtain ⟨stage, hstage⟩ := job_eq_some_iff.1 hu
      obtain ⟨run', hw⟩ := ht.working u job stage hstage
      rw [hi] at hw
      obtain rfl := Option.some.inj (hw.recorded.symm.trans hrec)
      exact ⟨u, job, stage, hstage, hi, hw.runId.symm.trans hid⟩
    · rw [of_decide_eq_true hrunning] at hfin
      cases hfin
  · intro h
    obtain ⟨u, job, stage, hstage, hi, hid⟩ := h
    obtain ⟨run, hw⟩ := ht.working u job stage hstage
    rw [hi] at hw
    rw [ServiceState.running, hw.recorded, Option.filter_some, if_pos (decide_eq_true hw.running),
      Option.map_some, hw.runId, hid]

omit [DecidableEq I] [DecidableEq T] [Semver V] in
theorem Turns.observed_iff (ht : Turns s) {i : I} :
    (∀ run, (s.shared.services i).run = some run → Consistent run) ↔
      ∀ u job stage, s.threads u = .worker job stage → job.i = i → ¬ stage.Between := by
  cases hrun : (s.shared.services i).run with
  | none =>
      refine iff_of_true nofun fun u job stage hu hi => ?_
      obtain ⟨run, hw⟩ := ht.working u job stage hu
      have hrec := hw.recorded
      rw [hi, hrun] at hrec
      cases hrec
  | some run =>
      rw [← ht.consistent_iff hrun]
      constructor
      · exact fun h => h run rfl
      · intro h run' heq
        obtain rfl := Option.some.inj heq
        exact h

omit [DecidableEq I] [DecidableEq T] [Semver V] in
/-- No thread holds the lock for a run that has delivered its completing payload. -/
theorem Deliveries.not_askedAfter (hv : Deliveries tr s) {u : T} {job : Job I V} {stage : Stage}
    (hu : s.threads u = .worker job stage) (hl : (s.threads u).holdsLock = true) :
    ¬ AskedAfter tr t job.runId := by
  intro hasked
  obtain ⟨earlier, m, later, htr, -, d, hd, hdel⟩ := hasked
  have hmem : d ∈ tr := by
    rw [htr]
    exact List.mem_append_left _ hd
  obtain ⟨result, rfl⟩ := hv.delivered d hmem job.runId hdel u job stage hu rfl
  rw [hu] at hl
  cases hl

omit [DecidableEq I] [DecidableEq T] [Semver V] in
/-- Nobody asks after a delivery in a trace in which only the first event asks. -/
theorem not_askedAfter_of_first {e : Event I V} {es : List (Event I V)} {t : T} {runId : Str}
    (he : events tr = e :: es) (hn : ∀ i request, .asked i request ∉ es) (hp : pre <+: tr) :
    ¬ AskedAfter pre t runId := by
  rintro ⟨earlier, m, later, rfl, ⟨i, request, hm⟩, d, hd, -⟩
  obtain ⟨rest, rfl⟩ := hp
  obtain ⟨first, earlier, rfl⟩ := List.exists_cons_of_ne_nil (List.ne_nil_of_mem hd)
  obtain ⟨-, rfl⟩ := List.cons.inj he
  refine hn i request (List.mem_map.2 ⟨m, by simp, ?_⟩)
  rw [hm]

/-- Completion is visible atomically in exactly the runs in which no status falls between the
recording of a completing payload and the marking of its run as finished, and no request that was
sent after the delivery looks at the record before the marking. -/
theorem atomic_iff_seesAround (hr : Runs name tr s) (hd : DistinctIds tr) :
    Atomic tr ↔ SeesAround tr := by
  have hreached : ∀ pre m, pre ++ [m] <+: tr → Turns m.before ∧ ∃ σ' p',
      Act name m.before.shared (m.before.threads m.event.1) m.event.2 σ' p' := by
    intro pre m hpre
    obtain ⟨hrun, s', hstep, -⟩ := hr.of_append hpre
    obtain ⟨hact, -⟩ := (step_iff (t := m.event.1) (e := m.event.2)).1 hstep
    exact ⟨turns_of_runs hrun, _, _, hact⟩
  have hrun_eq : ∀ m ∈ tr, ∀ i body, m.event.2 = .status i body →
      Turns m.before ∧ body.run = (m.before.shared.services i).run := by
    intro m hm i body he
    obtain ⟨pre, hpre⟩ := exists_prefix_of_mem hm
    obtain ⟨ht, σ', p', hact⟩ := hreached pre m hpre
    rw [he] at hact
    obtain ⟨snapshot, rfl⟩ := hact.status_inv
    exact ⟨ht, status_run⟩
  constructor
  · intro ha
    constructor
    · intro m hm i body he
      obtain ⟨ht, hbody⟩ := hrun_eq m hm i body he
      refine ht.observed_iff.1 fun run hrun => ?_
      exact ha.status m hm i body run he (hbody.trans hrun)
    · intro pre m hpre i request hp u job stage hu hi
      obtain ⟨ht, σ', p', hact⟩ := hreached pre m hpre
      have hrunning := ht.running_eq_some_iff.2 ⟨u, job, stage, hu, hi, rfl⟩
      rcases hact.claimed_inv hp with ⟨runId, he, hid⟩ | hidle
      · obtain rfl := Option.some.inj (hid.symm.trans hrunning)
        exact ha.record pre m hpre i _ he
      · rw [hidle] at hrunning
        cases hrunning
  · intro hsees
    refine ⟨?_, ?_, ?_⟩
    · intro m hm i body run he hbody
      obtain ⟨ht, hrun⟩ := hrun_eq m hm i body he
      exact ht.observed_iff.2 (hsees.status m hm i body he) run (hrun.symm.trans hbody)
    · intro pre m hpre i runId he
      obtain ⟨ht, σ', p', hact⟩ := hreached pre m hpre
      rw [he] at hact
      obtain ⟨⟨request, hp⟩, hrunning⟩ := hact.stillRunning_inv
      obtain ⟨u, job, stage, hu, hi, rfl⟩ := ht.running_eq_some_iff.1 hrunning
      exact hsees.record pre m hpre i request hp u job stage hu hi
    · intro pre m hpre i _ u job stage hu hl
      obtain ⟨hrun, -⟩ := hr.of_append hpre
      have hv := deliveries_of_runs hrun (distinctIds_of_shorter hd hpre)
      exact hv.not_askedAfter hu hl

theorem atomic_in_course :
    ∃ (tr : Trace Bool ℕ Semver.Rank) (s : System (Shared Bool) ℕ (Thread Bool Semver.Rank)),
      Runs printers tr s ∧ DistinctIds tr ∧ (∃ m ∈ tr, Delivers m "1760000000000") ∧
        (∃ m ∈ tr, ∃ body, m.event.2 = .status false body) ∧ Atomic tr := by
  obtain ⟨tr, σ, hr, he⟩ := ebb_ended
  have hstatus := hr.act (t := 1) rfl
    (.status : Act printers _ _ (.status false ((σ.services false).status twinSnapshot)) _ _)
  have hdelivered : Event.sent false ebbDone ∈ events tr := by
    rw [he]
    exact List.mem_append_right _ (by simp [ebbEnding])
  obtain ⟨d, hd, hsent⟩ := List.mem_map.1 hdelivered
  have hids : DistinctIds (tr ++ [⟨⟨σ, fun _ => .idle⟩,
      (1, .status false ((σ.services false).status twinSnapshot))⟩]) := by
    unfold DistinctIds accepted
    rw [events_append, he]
    exact List.nodup_singleton _
  refine ⟨_, _, hstatus, hids, ⟨d, List.mem_append_left _ hd, false, ebbDone, hsent, rfl, rfl⟩,
    ⟨_, List.mem_append_right _ List.mem_cons_self, _, rfl⟩,
    (atomic_iff_seesAround hstatus hids).2 ⟨?_, ?_⟩⟩
  · intro m hm i body hbody u job stage hu
    rcases List.mem_append.1 hm with hold | hnew
    · have hmem : Event.status i body ∈ ebbEvents ++ ebbEnding := by
        rw [← he, ← hbody]
        exact List.mem_map_of_mem hold
      simp only [ebbEvents, ebbEnding, List.cons_append, List.nil_append, List.mem_cons,
        reduceCtorEq, List.not_mem_nil, or_self] at hmem
    · rw [List.mem_singleton.1 hnew] at hu
      cases hu
  · intro pre m hpre i request _ u job stage _ _
    refine not_askedAfter_of_first (events_append.trans (congrArg (· ++ _) he)) ?_
      ((List.prefix_append pre [m]).trans hpre)
    intro i request hmem
    simp only [List.append_eq, ebbEnding, List.cons_append, List.nil_append, List.mem_cons,
      reduceCtorEq, List.not_mem_nil, or_self] at hmem

/-- A status that comes right after the completing payload shows it in a run that is running. -/
theorem completion_seen_early :
    ∃ (tr : Trace Bool ℕ Semver.Rank) (s : System (Shared Bool) ℕ (Thread Bool Semver.Rank)),
      Runs printers tr s ∧ DistinctIds tr ∧ ¬ Atomic tr := by
  obtain ⟨tr, hooks, hr, he⟩ := ebb_unlocked
  obtain ⟨tr', hr', he'⟩ := hr.completed (t := 0) rfl (.ok ["mcu EBB"])
    "/home/pi/printer_data/logs/aldis-1760000000000.log" (some true) .ready
  have hstatus := hr'.act (t := 1) rfl
    (.status : Act printers _ _ (.status false (ServiceState.status _ twinSnapshot)) _ _)
  refine ⟨_, _, hstatus, ?_, ?_⟩
  · unfold DistinctIds accepted
    rw [events_append, he', he]
    exact List.nodup_singleton _
  · intro hatomic
    have hseen := hatomic.status _ (List.mem_append_right _ List.mem_cons_self) false _ _ rfl
      (status_run.trans rfl)
    have hnone := ((turns_of_runs hr').consistent_iff (i := false) rfl).1 hseen
    exact hnone 0 (ebbJob false "1760000000000") _ rfl rfl True.intro

end Deliveries

end Aldis.Agent

import Aldis.Agent.Course
import Mathlib.Data.List.DropRight

/-!
# A run's record is its own

What the records hold is compared with what has happened: which messages each run emitted, and
what its backend returned.
-/

namespace Aldis.Agent

open Text Threads Machine

variable {I T V : Type}

section Emissions

def emissions (tr : Trace I T V) : List UpdateResponse := (events tr).filterMap Event.emission

def emitted (runId : Str) (tr : Trace I T V) : List UpdateResponse :=
  (emissions tr).filter (fun message => message.runId = runId)

def ResultOf (tr : Trace I T V) (i : I) (runId : Str) (body : RunResultBody) : Prop :=
  ∃ job ∈ accepted tr, job.i = i ∧ job.runId = runId ∧ ∃ result klippyState klipperLeftStopped,
    Event.returned i runId result ∈ events tr ∧
      body = result.body job.targets klippyState klipperLeftStopped

variable {tr : Trace I T V} {m : Move (System (Shared I) T (Thread I V)) (T × Event I V)}
  {runId : Str} {message : UpdateResponse}

theorem emissions_of_none (h : m.event.2.emission = none) : emissions (tr ++ [m]) = emissions tr :=
  filterMap_events_of_none h

theorem emissions_of_some (h : m.event.2.emission = some message) :
    emissions (tr ++ [m]) = emissions tr ++ [message] :=
  filterMap_events_of_some h

theorem emitted_of_none (h : m.event.2.emission = none) :
    emitted runId (tr ++ [m]) = emitted runId tr := by
  rw [emitted, emissions_of_none h]
  rfl

theorem emitted_of_eq (h : m.event.2.emission = some message) (hid : message.runId = runId) :
    emitted runId (tr ++ [m]) = emitted runId tr ++ [message] := by
  have hkept : [message].filter (fun message => message.runId = runId) = [message] := by
    simp only [List.filter_cons, hid, decide_true, if_true, List.filter_nil]
  rw [emitted, emissions_of_some h, List.filter_append, hkept]
  rfl

theorem emitted_of_ne (h : m.event.2.emission = some message) (hid : message.runId ≠ runId) :
    emitted runId (tr ++ [m]) = emitted runId tr := by
  have hgone : [message].filter (fun message => message.runId = runId) = [] := by
    simp only [List.filter_cons, hid, decide_false, Bool.false_eq_true, if_false, List.filter_nil]
  rw [emitted, emissions_of_some h, List.filter_append, hgone, List.append_nil]
  rfl

theorem resultOf_append {i : I} {body : RunResultBody} (h : ResultOf tr i runId body) :
    ResultOf (tr ++ [m]) i runId body := by
  obtain ⟨job, hjob, hi, hid, result, klippyState, left, hreturned, hbody⟩ := h
  refine ⟨job, accepted_subset hjob, hi, hid, result, klippyState, left, ?_, hbody⟩
  rw [events_append]
  exact List.mem_append_left _ hreturned

end Emissions

theorem drop_one_rtake {α : Type} (n : ℕ) (all : List α) :
    (if (all.rtake (n + 1)).length ≥ n + 1 then (all.rtake (n + 1)).drop 1 else all.rtake (n + 1)) =
      all.rtake n := by
  unfold List.rtake
  rw [List.length_drop, List.drop_drop]
  by_cases hlong : all.length ≥ n + 1
  · have hstart : all.length - (n + 1) + 1 = all.length - n := by omega
    rw [if_pos (by omega), hstart]
  · have hstart : all.length - (n + 1) = all.length - n := by omega
    rw [if_neg (by omega), hstart]

/-- A capped record keeps the last messages of a longer list. -/
theorem pushCapped_rtake {run : RunBody} {message : UpdateResponse} {all : List UpdateResponse}
    (h : run.messages = all.rtake MESSAGE_CAP) :
    (pushCapped run message).messages = (all ++ [message]).rtake MESSAGE_CAP := by
  have hleft : (pushCapped run message).messages =
      (if run.messages.length ≥ MESSAGE_CAP then run.messages.drop 1 else run.messages) ++
        [message] := rfl
  have hcap : MESSAGE_CAP = 499 + 1 := rfl
  rw [hleft, h, hcap, List.rtake_concat_succ, drop_one_rtake]

section Chronicle

variable [DecidableEq I] [DecidableEq T] [Semver V] {name : I → Str}
  {σ σ' : Shared I} {e : Event I V} {s s' : System (Shared I) T (Thread I V)} {t : T}
  {tr : Trace I T V}

def Stage.Told (job : Job I V) (past : List (Event I V)) : Stage → Prop
  | .returned result => .returned job.i job.runId result ∈ past
  | .reporting result => .returned job.i job.runId result ∈ past
  | .completing _ body => ∃ result klippyState klipperLeftStopped,
      .returned job.i job.runId result ∈ past ∧
        body = result.body job.targets klippyState klipperLeftStopped
  | .delivered body => ∃ result klippyState klipperLeftStopped,
      .returned job.i job.runId result ∈ past ∧
        body = result.body job.targets klippyState klipperLeftStopped
  | _ => True

omit [DecidableEq I] [Semver V] in
theorem Stage.Told.append {job : Job I V} {past : List (Event I V)} {stage : Stage}
    (h : stage.Told job past) : stage.Told job (past ++ [e]) := by
  cases stage with
  | spawned => exact h
  | running hooks unsent holds => exact h
  | returned result => exact List.mem_append_left _ h
  | reporting result => exact List.mem_append_left _ h
  | completing message body =>
      obtain ⟨result, klippyState, left, hmem, hbody⟩ := h
      exact ⟨result, klippyState, left, List.mem_append_left _ hmem, hbody⟩
  | delivered body =>
      obtain ⟨result, klippyState, left, hmem, hbody⟩ := h
      exact ⟨result, klippyState, left, List.mem_append_left _ hmem, hbody⟩

theorem Act.told {job job' : Job I V} {stage stage' : Stage} {past : List (Event I V)}
    (h : Act name σ (.worker job stage) e σ' (.worker job' stage')) (ht : stage.Told job past) :
    stage'.Told job' (past ++ [e]) := by
  cases h with
  | discover => exact True.intro
  | hook => exact True.intro
  | send => exact True.intro
  | unlock => exact True.intro
  | «return» => exact List.mem_append_right _ List.mem_cons_self
  | drop => exact List.mem_append_left _ ht
  | complete => exact ⟨_, _, _, List.mem_append_left _ ht, rfl⟩
  | @deliver _ _ result =>
      have ht : Stage.Told job past (.delivered result) := ht
      exact ht.append

structure Chronicle (tr : Trace I T V) (s : System (Shared I) T (Thread I V)) : Prop where
  accepted_of_worker : ∀ t job, (s.threads t).job = some job → job ∈ accepted tr
  worker_of_unfinished : ∀ job, Unfinished tr job → ∃ t, (s.threads t).job = some job
  accepted_of_record : ∀ i run, (s.shared.services i).run = some run →
    ∃ job ∈ accepted tr, job.i = i ∧ job.runId = run.runId
  accepted_of_emission : ∀ message ∈ emissions tr, ∃ job ∈ accepted tr, job.runId = message.runId
  messages : ∀ i run, (s.shared.services i).run = some run →
    run.messages = (emitted run.runId tr).rtake MESSAGE_CAP
  told : ∀ t job stage, s.threads t = .worker job stage → stage.Told job (events tr)
  result : ∀ i run body, (s.shared.services i).run = some run → run.result = some body →
    ResultOf tr i run.runId body

omit [DecidableEq I] [DecidableEq T] [Semver V] in
theorem chronicle_initial : Chronicle [] (initial I T V) := by
  refine ⟨fun _ _ h => ?_, fun _ h => ?_, fun _ _ h => ?_, fun _ h => ?_, fun _ _ h => ?_,
    fun _ _ _ h => ?_, fun _ _ _ h => ?_⟩
  · cases h
  · cases h.accepted
  · cases h
  · cases h
  · cases h
  · cases h
  · cases h

/-- A step that leaves the records alone. -/
theorem Chronicle.step_silent (hc : Chronicle tr s) (h : Step (Act name) s (t, e) s')
    (he : e.Silent) (hs : s'.shared.services = s.shared.services)
    (hj : (s'.threads t).job = (s.threads t).job)
    (ht : ∀ job stage, s'.threads t = .worker job stage →
      ∃ stage', s.threads t = .worker job stage') : Chronicle (tr ++ [⟨s, (t, e)⟩]) s' := by
  obtain ⟨hact, hother⟩ := step_iff.1 h
  have hjobs : ∀ u, (s'.threads u).job = (s.threads u).job := h.same Thread.job hj
  have haccepted : accepted (tr ++ [⟨s, (t, e)⟩]) = accepted tr := accepted_of_none he.acceptance
  have hfinished : finished (tr ++ [⟨s, (t, e)⟩]) = finished tr := finished_of_none he.completion
  refine ⟨?_, ?_, ?_, ?_, ?_, ?_, ?_⟩
  · intro u job hu
    rw [hjobs u] at hu
    rw [haccepted]
    exact hc.accepted_of_worker u job hu
  · intro job hu
    obtain ⟨hacc, hun⟩ := hu
    rw [haccepted] at hacc
    rw [hfinished] at hun
    obtain ⟨u, hu⟩ := hc.worker_of_unfinished job ⟨hacc, hun⟩
    exact ⟨u, by rw [hjobs u, hu]⟩
  · intro i run hrun
    rw [hs] at hrun
    rw [haccepted]
    exact hc.accepted_of_record i run hrun
  · intro message hm
    rw [emissions_of_none he.emission] at hm
    rw [haccepted]
    exact hc.accepted_of_emission message hm
  · intro i run hrun
    rw [hs] at hrun
    rw [emitted_of_none he.emission]
    exact hc.messages i run hrun
  · intro u job stage hu
    rw [events_append]
    by_cases hut : u = t
    · rw [hut] at hu
      obtain ⟨stage', hstage'⟩ := ht job stage hu
      rw [hstage', hu] at hact
      exact hact.told (hc.told t job stage' hstage')
    · rw [hother u hut] at hu
      exact (hc.told u job stage hu).append
  · intro i run body hrun hbody
    rw [hs] at hrun
    exact resultOf_append (hc.result i run body hrun hbody)

omit [DecidableEq T] [Semver V] in
/-- The records after one of them has been written over. -/
theorem record_of_written {j : I} {f : ServiceState → ServiceState} {written : RunBody}
    (hs : s'.shared = s.shared.update j f)
    (hf : (f (s.shared.services j)).run = some written) (i : I) (run : RunBody)
    (hrun : (s'.shared.services i).run = some run) :
    (i = j ∧ run = written) ∨ (i ≠ j ∧ (s.shared.services i).run = some run) := by
  rcases record_update hs hrun with ⟨rfl, hrun⟩ | hold
  · rw [hf] at hrun
    exact .inl ⟨rfl, (Option.some.inj hrun).symm⟩
  · exact .inr hold

omit [DecidableEq I] [DecidableEq T] [Semver V] in
/-- A record that was written over is still that of an accepted run. -/
theorem Chronicle.accepted_of_written {job : Job I V} {written : RunBody} (hc : Chronicle tr s)
    (hmem : job ∈ accepted tr) (hid : written.runId = job.runId)
    (hrecord : ∀ i run, (s'.shared.services i).run = some run →
      (i = job.i ∧ run = written) ∨ (i ≠ job.i ∧ (s.shared.services i).run = some run))
    (i : I) (run : RunBody) (hrun : (s'.shared.services i).run = some run) :
    ∃ a ∈ accepted tr, a.i = i ∧ a.runId = run.runId := by
  rcases hrecord i run hrun with ⟨hi, rfl⟩ | ⟨-, hrun⟩
  · exact ⟨job, hmem, hi.symm, hid.symm⟩
  · exact hc.accepted_of_record i run hrun

theorem Chronicle.step_accepted {job : Job I V} (hc : Chronicle tr s)
    (hd : DistinctIds (tr ++ [⟨s, (t, e)⟩])) (h : Step (Act name) s (t, e) s')
    (hp : s.threads t = .selected job.i job.snapshot job.targets) (he : e = .accepted job)
    (hp' : s'.threads t = .worker job .spawned)
    (hs : s'.shared = s.shared.update job.i fun _ => .accept job.runId (assess job.snapshot)) :
    Chronicle (tr ++ [⟨s, (t, e)⟩]) s' := by
  obtain ⟨-, hother⟩ := step_iff.1 h
  subst he
  have haccepted : accepted (tr ++ [⟨s, (t, .accepted job)⟩]) = accepted tr ++ [job] :=
    accepted_of_some rfl
  have hnew : job ∈ accepted (tr ++ [⟨s, (t, .accepted job)⟩]) := by
    rw [haccepted]
    exact List.mem_append_right _ List.mem_cons_self
  have hrecord : ∀ i run, (s'.shared.services i).run = some run →
      (i = job.i ∧ run = ⟨job.runId, .running, [], none⟩) ∨
        (i ≠ job.i ∧ (s.shared.services i).run = some run) := record_of_written hs rfl
  have hne : ∀ u a, (s.threads u).job = some a → u ≠ t := by
    intro u a hu hut
    rw [hut, hp] at hu
    cases hu
  refine ⟨?_, ?_, ?_, ?_, ?_, ?_, ?_⟩
  · intro u a hu
    by_cases hut : u = t
    · rw [hut, hp'] at hu
      obtain rfl := Option.some.inj hu
      exact hnew
    · rw [hother u hut] at hu
      exact accepted_subset (hc.accepted_of_worker u a hu)
  · intro a ha
    obtain ⟨hacc, hun⟩ := ha
    rw [haccepted] at hacc
    rw [finished_of_none rfl] at hun
    rcases List.mem_append.1 hacc with hold | hlast
    · obtain ⟨u, hu⟩ := hc.worker_of_unfinished a ⟨hold, hun⟩
      exact ⟨u, by rw [hother u (hne u a hu), hu]⟩
    · obtain rfl := List.mem_singleton.1 hlast
      exact ⟨t, by rw [hp']; rfl⟩
  · intro i run hrun
    rcases hrecord i run hrun with ⟨hi, rfl⟩ | ⟨-, hrun⟩
    · exact ⟨job, hnew, hi.symm, rfl⟩
    · obtain ⟨a, ha, heq⟩ := hc.accepted_of_record i run hrun
      exact ⟨a, accepted_subset ha, heq⟩
  · intro message hm
    rw [emissions_of_none rfl] at hm
    obtain ⟨a, ha, heq⟩ := hc.accepted_of_emission message hm
    exact ⟨a, accepted_subset ha, heq⟩
  · intro i run hrun
    rw [emitted_of_none rfl]
    rcases hrecord i run hrun with ⟨-, rfl⟩ | ⟨-, hrun⟩
    · -- The id is new, so nothing has been emitted under it.
      have hnone : emitted job.runId tr = [] := by
        refine List.filter_eq_nil_iff.2 fun message hm hid => ?_
        obtain ⟨a, ha, heq⟩ := hc.accepted_of_emission message hm
        exact runId_not_mem hd rfl a ha (heq.trans (of_decide_eq_true hid))
      rw [hnone]
      rfl
    · exact hc.messages i run hrun
  · intro u a stage hu
    rw [events_append]
    by_cases hut : u = t
    · rw [hut, hp'] at hu
      cases hu
      exact True.intro
    · rw [hother u hut] at hu
      exact (hc.told u a stage hu).append
  · intro i run body hrun hbody
    rcases hrecord i run hrun with ⟨-, rfl⟩ | ⟨-, hrun⟩
    · cases hbody
    · exact resultOf_append (hc.result i run body hrun hbody)

theorem Chronicle.step_pushed {job : Job I V} {stage stage' : Stage} {message : UpdateResponse}
    (hc : Chronicle tr s) (ht : Turns s) (hd : DistinctIds tr) (h : Step (Act name) s (t, e) s')
    (hp : s.threads t = .worker job stage) (he : e = .pushed job.i message)
    (hp' : s'.threads t = .worker job stage')
    (hs : s'.shared = s.shared.update job.i (·.push message)) (hid : message.runId = job.runId) :
    Chronicle (tr ++ [⟨s, (t, e)⟩]) s' := by
  obtain ⟨hact, hother⟩ := step_iff.1 h
  subst he
  have hjob : (s.threads t).job = some job := by rw [hp]; rfl
  have hmem := hc.accepted_of_worker t job hjob
  have haccepted : accepted (tr ++ [⟨s, (t, .pushed job.i message)⟩]) = accepted tr :=
    accepted_of_none rfl
  have hjobs : ∀ u, (s'.threads u).job = (s.threads u).job :=
    h.same Thread.job (by rw [hp, hp']; rfl)
  obtain ⟨run₀, hw⟩ := ht.working t job stage hp
  have hrecord : ∀ i run, (s'.shared.services i).run = some run →
      (i = job.i ∧ run = pushCapped run₀ message) ∨
        (i ≠ job.i ∧ (s.shared.services i).run = some run) := by
    apply record_of_written hs
    rw [ServiceState.push, hw.recorded]
    exact rfl
  refine ⟨?_, ?_, ?_, ?_, ?_, ?_, ?_⟩
  · intro u a hu
    rw [hjobs u] at hu
    rw [haccepted]
    exact hc.accepted_of_worker u a hu
  · intro a ha
    obtain ⟨hacc, hun⟩ := ha
    rw [haccepted] at hacc
    rw [finished_of_none rfl] at hun
    obtain ⟨u, hu⟩ := hc.worker_of_unfinished a ⟨hacc, hun⟩
    exact ⟨u, by rw [hjobs u, hu]⟩
  · intro i run hrun
    rw [haccepted]
    have hid₀ : (pushCapped run₀ message).runId = job.runId := hw.runId
    exact hc.accepted_of_written hmem hid₀ hrecord i run hrun
  · intro m hm
    rw [emissions_of_some rfl] at hm
    rw [haccepted]
    rcases List.mem_append.1 hm with hold | hlast
    · exact hc.accepted_of_emission m hold
    · rw [List.mem_singleton.1 hlast]
      exact ⟨job, hmem, hid.symm⟩
  · intro i run hrun
    rcases hrecord i run hrun with ⟨-, rfl⟩ | ⟨hi, hrun⟩
    · have hemitted : emitted (pushCapped run₀ message).runId
          (tr ++ [⟨s, (t, .pushed job.i message)⟩]) = emitted run₀.runId tr ++ [message] :=
        emitted_of_eq rfl (hid.trans hw.runId.symm)
      rw [hemitted]
      exact pushCapped_rtake (hc.messages job.i run₀ hw.recorded)
    · obtain ⟨a, ha, hai, haid⟩ := hc.accepted_of_record i run hrun
      have hne : message.runId ≠ run.runId := by
        intro heq
        have haj : a = job := eq_of_runId hd ha hmem (haid.trans (heq.symm.trans hid))
        rw [haj] at hai
        exact hi hai.symm
      rw [emitted_of_ne rfl hne]
      exact hc.messages i run hrun
  · intro u a stage'' hu
    rw [events_append]
    by_cases hut : u = t
    · rw [hut] at hu
      have heq := hp'.symm.trans hu
      cases heq
      rw [hp, hp'] at hact
      exact hact.told (hc.told t job stage hp)
    · rw [hother u hut] at hu
      exact (hc.told u a stage'' hu).append
  · intro i run body hrun hbody
    rcases hrecord i run hrun with ⟨-, rfl⟩ | ⟨-, hrun⟩
    · have hbody : run₀.result = some body := hbody
      rw [hw.result] at hbody
      cases hbody
    · exact resultOf_append (hc.result i run body hrun hbody)

theorem Chronicle.step_finished {job : Job I V} {result : RunResultBody} (hc : Chronicle tr s)
    (ht : Turns s) (h : Step (Act name) s (t, e) s')
    (hp : s.threads t = .worker job (.delivered result)) (he : e = .finished job.i job.runId)
    (hp' : s'.threads t = .idle) (hs : s'.shared = s.shared.update job.i (·.finish result)) :
    Chronicle (tr ++ [⟨s, (t, e)⟩]) s' := by
  obtain ⟨-, hother⟩ := step_iff.1 h
  subst he
  have hjob : (s.threads t).job = some job := by rw [hp]; rfl
  have hmem := hc.accepted_of_worker t job hjob
  have haccepted : accepted (tr ++ [⟨s, (t, .finished job.i job.runId)⟩]) = accepted tr :=
    accepted_of_none rfl
  have hfinished : finished (tr ++ [⟨s, (t, .finished job.i job.runId)⟩]) =
      finished tr ++ [(job.i, job.runId)] := finished_of_some rfl
  obtain ⟨run₀, hw⟩ := ht.working t job _ hp
  have hrecord : ∀ i run, (s'.shared.services i).run = some run →
      (i = job.i ∧ run = { run₀ with state := .finished, result := some result }) ∨
        (i ≠ job.i ∧ (s.shared.services i).run = some run) := by
    apply record_of_written hs
    rw [ServiceState.finish, hw.recorded]
    exact rfl
  have hne : ∀ u a, (s'.threads u).job = some a → u ≠ t := by
    intro u a hu hut
    rw [hut, hp'] at hu
    cases hu
  refine ⟨?_, ?_, ?_, ?_, ?_, ?_, ?_⟩
  · intro u a hu
    rw [hother u (hne u a hu)] at hu
    rw [haccepted]
    exact hc.accepted_of_worker u a hu
  · intro a ha
    obtain ⟨hacc, hun⟩ := ha
    rw [haccepted] at hacc
    rw [hfinished, List.mem_append, not_or] at hun
    obtain ⟨u, hu⟩ := hc.worker_of_unfinished a ⟨hacc, hun.1⟩
    refine ⟨u, ?_⟩
    rw [hother u]
    · exact hu
    · intro hut
      rw [hut, hjob] at hu
      obtain rfl := Option.some.inj hu
      exact hun.2 List.mem_cons_self
  · intro i run hrun
    rw [haccepted]
    have hid₀ : (⟨run₀.runId, .finished, run₀.messages, some result⟩ : RunBody).runId =
        job.runId := hw.runId
    exact hc.accepted_of_written hmem hid₀ hrecord i run hrun
  · intro m hm
    rw [emissions_of_none rfl] at hm
    rw [haccepted]
    exact hc.accepted_of_emission m hm
  · intro i run hrun
    rw [emitted_of_none rfl]
    rcases hrecord i run hrun with ⟨-, rfl⟩ | ⟨-, hrun⟩
    · exact hc.messages job.i run₀ hw.recorded
    · exact hc.messages i run hrun
  · intro u a stage hu
    rw [events_append]
    rw [hother u (hne u a (job_eq_some_iff.2 ⟨stage, hu⟩))] at hu
    exact (hc.told u a stage hu).append
  · intro i run body hrun hbody
    rcases hrecord i run hrun with ⟨hi, rfl⟩ | ⟨-, hrun⟩
    · obtain rfl := Option.some.inj hbody
      obtain ⟨returned, klippyState, left, hreturned, heq⟩ := hc.told t job _ hp
      refine resultOf_append
        ⟨job, hmem, hi.symm, hw.runId.symm, returned, klippyState, left, ?_, heq⟩
      rw [hi]
      have hid : run₀.runId = job.runId := hw.runId
      rw [hid]
      exact hreturned
    · exact resultOf_append (hc.result i run body hrun hbody)

theorem Chronicle.step (hc : Chronicle tr s) (ht : Turns s)
    (hd : DistinctIds (tr ++ [⟨s, (t, e)⟩])) (h : Step (Act name) s (t, e) s') :
    Chronicle (tr ++ [⟨s, (t, e)⟩]) s' := by
  obtain ⟨hact, -⟩ := step_iff.1 h
  cases hact.effect with
  | request hs he hj hj' ha =>
      refine hc.step_silent h he hs (hj'.trans hj.symm) fun job stage hstage => ?_
      rw [hstage] at hj'
      cases hj'
  | accepted job hp he hp' hs => exact hc.step_accepted hd h hp he hp' hs
  | worked job stage stage' hp he hp' hs hf =>
      refine hc.step_silent h he hs (by rw [hp, hp']; rfl) fun job' stage'' hstage => ?_
      have heq := hp'.symm.trans hstage
      cases heq
      exact ⟨stage, hp⟩
  | pushed job stage stage' message hp he hp' hs hf =>
      obtain ⟨run, hw⟩ := ht.working t job stage hp
      exact hc.step_pushed ht (distinctIds_of_append hd) h hp he hp' hs (hf run hw.fits).1
  | finished job result hp he hp' hs => exact hc.step_finished ht h hp he hp' hs

theorem chronicle_of_runs (hr : Runs name tr s) (hd : DistinctIds tr) : Chronicle tr s :=
  hr.invariant_of (C := DistinctIds) hd (fun _ _ => distinctIds_of_append) chronicle_initial
    fun _ _ _ _ hr hd hc hs => hc.step (turns_of_runs hr) hd hs

/-- At most one update of each instance is unfinished and at most one thread of the host is inside
the locked section, the record of an unfinished run is in place, and each record has the last
messages that its run emitted and no result but that of its run. -/
theorem one_run_at_a_time (hr : Runs name tr s) (hd : DistinctIds tr) :
    (∀ job job', Unfinished tr job → Unfinished tr job' → job.i = job'.i → job = job') ∧
    (∀ t u, (s.threads t).holdsLock = true → (s.threads u).holdsLock = true → t = u) ∧
    (∀ job, Unfinished tr job → ∃ run, (s.shared.services job.i).run = some run ∧
      run.runId = job.runId ∧ run.state = .running ∧ run.result = none) ∧
    (∀ i run, (s.shared.services i).run = some run →
      run.messages = (emitted run.runId tr).rtake MESSAGE_CAP ∧
      ∀ body, run.result = some body → ResultOf tr i run.runId body) := by
  have ht := turns_of_runs hr
  have hc := chronicle_of_runs hr hd
  refine ⟨?_, ht.exclusive.alone, ?_, ?_⟩
  · intro job job' hjob hjob' hi
    obtain ⟨t, htj⟩ := hc.worker_of_unfinished job hjob
    obtain ⟨u, huj⟩ := hc.worker_of_unfinished job' hjob'
    obtain rfl := ht.single t u job job' htj huj hi
    exact Option.some.inj (htj.symm.trans huj)
  · intro job hjob
    obtain ⟨t, htj⟩ := hc.worker_of_unfinished job hjob
    obtain ⟨stage, hstage⟩ := job_eq_some_iff.1 htj
    obtain ⟨run, hw⟩ := ht.working t job stage hstage
    exact ⟨run, hw.recorded, hw.runId, hw.running, hw.result⟩
  · intro i run hrun
    exact ⟨hc.messages i run hrun, fun body hbody => hc.result i run body hrun hbody⟩

theorem one_run_at_a_time_in_course :
    ∃ (tr : Trace Bool ℕ Semver.Rank) (s : System (Shared Bool) ℕ (Thread Bool Semver.Rank)),
      (Runs printers tr s ∧ DistinctIds tr ∧ accepted tr =
        [ebbJob false "1760000000000", ebbJob true "1760000000500"] ∧
        (s.threads 1).holdsLock = true) ∧
      (∀ job job', Unfinished tr job → Unfinished tr job' → job.i = job'.i → job = job') ∧
      (∀ t u, (s.threads t).holdsLock = true → (s.threads u).holdsLock = true → t = u) ∧
      (∀ job, Unfinished tr job → ∃ run, (s.shared.services job.i).run = some run ∧
        run.runId = job.runId ∧ run.state = .running ∧ run.result = none) ∧
      ∀ i run, (s.shared.services i).run = some run →
        run.messages = (emitted run.runId tr).rtake MESSAGE_CAP ∧
          ∀ body, run.result = some body → ResultOf tr i run.runId body := by
  obtain ⟨tr, hooks, hr, he⟩ := ebb_unlocked
  have hreturned := hr.act (t := 0) rfl
    (.return : Act printers _ _ (.returned _ _ (.ok ["mcu EBB"])) _ _)
  have hsel : selectTargets (ebbJob true "1760000000500").snapshot (.mcus ["EBB"]) =
    .ok (ebbJob true "1760000000500").targets := selectTargets_twin
  obtain ⟨tr', hr', he'⟩ := hreturned.begin (t := 1) rfl rfl rfl hsel
  have ha : accepted tr' = [ebbJob false "1760000000000", ebbJob true "1760000000500"] := by
    rw [accepted, he', events_append, he]
    rfl
  have hd : DistinctIds tr' := by
    unfold DistinctIds
    rw [ha]
    have hids : List.Nodup [("1760000000000" : Str), "1760000000500"] := by decide
    exact hids
  exact ⟨tr', _, ⟨hr', hd, ha, rfl⟩, one_run_at_a_time hr' hd⟩

end Chronicle

end Aldis.Agent

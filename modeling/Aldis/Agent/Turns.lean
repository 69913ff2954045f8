import Aldis.Agent.Service

/-!
# Updates take turns

The update lock is given back before a run is recorded as finished, so it does not by itself keep
the updates of one instance apart. What does is that a request looks at the record while it holds
the lock: a record that is running has a worker, and a request that has passed the check finds no
worker of its instance until it becomes the next one.
-/

namespace Aldis.Agent

open Text Threads Machine

variable {I T V : Type} [DecidableEq I] [DecidableEq T] [Semver V] {name : I → Str}

namespace Thread

def holdsLock : Thread I V → Bool
  | .outside => true
  | .locked _ _ => true
  | .claimed _ _ => true
  | .checked _ _ => true
  | .selected _ _ _ => true
  | .rejected _ _ => true
  | .unclaimed _ _ => true
  | .worker _ .spawned => true
  | .worker _ (.running _ _ holds) => holds
  | _ => false

def job : Thread I V → Option (Job I V)
  | .worker job _ => some job
  | _ => none

def admitted : Thread I V → Option I
  | .checked i _ => some i
  | .selected i _ _ => some i
  | _ => none

end Thread

namespace Event

def emission : Event I V → Option UpdateResponse
  | .pushed _ message => some message
  | _ => none

def acceptance : Event I V → Option (Job I V)
  | .accepted job => some job
  | _ => none

def completion : Event I V → Option (I × Str)
  | .finished i runId => some (i, runId)
  | _ => none

structure Silent (e : Event I V) : Prop where
  emission : e.emission = none
  acceptance : e.acceptance = none
  completion : e.completion = none

end Event

/-- The last of the messages completes the run with this result, and no other does. -/
def Completes (messages : List UpdateResponse) (result : RunResultBody) : Prop :=
  ∃ before last, messages = before ++ [last] ∧ (∀ m ∈ before, m.complete = false) ∧
    last.complete = true ∧ last.result = some result

def Stage.Fits (job : Job I V) (messages : List UpdateResponse) : Stage → Prop
  | .running hooks _ _ => hooks.runId = job.runId ∧ ∀ m ∈ messages, m.complete = false
  | .completing _ result => Completes messages result
  | .delivered result => Completes messages result
  | _ => ∀ m ∈ messages, m.complete = false

structure Working (job : Job I V) (stage : Stage) (state : ServiceState) (run : RunBody) :
    Prop where
  recorded : state.run = some run
  runId : run.runId = job.runId
  running : run.state = .running
  result : run.result = none
  fits : stage.Fits job run.messages

section Push

variable {run : RunBody} {message : UpdateResponse} {result : RunResultBody}

theorem mem_pushCapped {m : UpdateResponse} (h : m ∈ (pushCapped run message).messages) :
    m ∈ run.messages ∨ m = message := by
  have h : m ∈ (if run.messages.length ≥ MESSAGE_CAP then run.messages.drop 1 else run.messages) ++
    [message] := h
  rcases List.mem_append.1 h with hm | hm
  · left
    split_ifs at hm with hcap
    · exact List.mem_of_mem_drop hm
    · exact hm
  · exact .inr (List.mem_singleton.1 hm)

theorem incomplete_pushCapped (h : ∀ m ∈ run.messages, m.complete = false)
    (hm : message.complete = false) :
    ∀ m ∈ (pushCapped run message).messages, m.complete = false := by
  intro m hmem
  rcases mem_pushCapped hmem with hold | rfl
  · exact h m hold
  · exact hm

theorem completes_pushCapped (h : ∀ m ∈ run.messages, m.complete = false)
    (hc : message.complete = true) (hr : message.result = some result) :
    Completes (pushCapped run message).messages result := by
  refine ⟨_, message, rfl, ?_, hc, hr⟩
  intro m hm
  apply h m
  split_ifs at hm with hcap
  · exact List.mem_of_mem_drop hm
  · exact hm

end Push

section Act

variable {σ σ' : Shared I} {p p' : Thread I V} {e : Event I V}

omit [DecidableEq I] in
theorem locked_claim {n : Str} : (σ.claim n).locked = σ.locked := by
  unfold Shared.claim
  split_ifs
  · rfl
  · rfl

omit [DecidableEq I] in
theorem locked_drop {n : Str} : (σ.drop n).locked = σ.locked := by
  unfold Shared.drop
  split_ifs
  · rfl
  · rfl

omit [DecidableEq I] in
theorem services_claim {n : Str} : (σ.claim n).services = σ.services := by
  unfold Shared.claim
  split_ifs
  · rfl
  · rfl

omit [DecidableEq I] in
theorem services_drop {n : Str} : (σ.drop n).services = σ.services := by
  unfold Shared.drop
  split_ifs
  · rfl
  · rfl

theorem services_update (i : I) (f : ServiceState → ServiceState) :
    (σ.update i f).services i = f (σ.services i) := Function.update_self i _ _

theorem services_update_of_ne {i j : I} (f : ServiceState → ServiceState) (h : j ≠ i) :
    (σ.update i f).services j = σ.services j := Function.update_of_ne h _ _

/-- After an update of one instance, a record is what the update left there, or it is another
instance's and as it was. -/
theorem record_update {i j : I} {f : ServiceState → ServiceState} {run : RunBody}
    (hs : σ' = σ.update i f) (hrun : (σ'.services j).run = some run) :
    (j = i ∧ (f (σ.services i)).run = some run) ∨ (j ≠ i ∧ (σ.services j).run = some run) := by
  rw [hs] at hrun
  by_cases hj : j = i
  · rw [hj, services_update] at hrun
    exact .inl ⟨hj, hrun⟩
  · rw [services_update_of_ne f hj] at hrun
    exact .inr ⟨hj, hrun⟩

/-- What an action does to the lock. -/
theorem Act.locking (h : Act name σ p e σ' p') :
    Locking (fun p : Thread I V => p.holdsLock = true) (fun σ : Shared I => σ.locked = true)
      σ p σ' p' := by
  cases h with
  | status => exact .kept id id
  | lockOutside hl => exact .taken (by rw [hl]; exact Bool.false_ne_true) rfl
  | unlockOutside => exact .released rfl Bool.false_ne_true
  | ask => exact .kept id id
  | unavailable => exact .kept id id
  | refuse hl => exact .kept id id
  | busy => exact .kept id id
  | lock hl => exact .taken (by rw [hl]; exact Bool.false_ne_true) rfl
  | claim => exact .kept id (by rw [locked_claim]; exact id)
  | stillRunning hrun => exact .kept id id
  | check hrun => exact .kept id id
  | reject hsel => exact .kept id id
  | select hsel => exact .kept id id
  | dropRejected => exact .kept id (by rw [locked_drop]; exact id)
  | unlockRejected => exact .released rfl Bool.false_ne_true
  | accept => exact .kept id id
  | discover => exact .kept id id
  | hook => exact .kept id id
  | send => exact .kept id id
  | unlock => exact .released rfl Bool.false_ne_true
  | «return» => exact .kept id id
  | drop => exact .kept id (by rw [locked_drop]; exact id)
  | complete => exact .kept id id
  | deliver => exact .kept id id
  | finish => exact .kept id id

inductive Effect (σ : Shared I) (p : Thread I V) (e : Event I V) (σ' : Shared I)
    (p' : Thread I V) : Prop
  /-- A step of no worker, which may find the record of an instance idle. -/
  | request (hs : σ'.services = σ.services) (he : e.Silent) (hj : p.job = none)
      (hj' : p'.job = none)
      (ha : ∀ i, p'.admitted = some i →
        p.admitted = some i ∨ (p.holdsLock = true ∧ (σ.services i).running = none))
  | accepted (job : Job I V) (hp : p = .selected job.i job.snapshot job.targets)
      (he : e = .accepted job) (hp' : p' = .worker job .spawned)
      (hs : σ' = σ.update job.i fun _ => .accept job.runId (assess job.snapshot))
  | worked (job : Job I V) (stage stage' : Stage) (hp : p = .worker job stage) (he : e.Silent)
      (hp' : p' = .worker job stage') (hs : σ'.services = σ.services)
      (hf : ∀ messages, stage.Fits job messages → stage'.Fits job messages)
  | pushed (job : Job I V) (stage stage' : Stage) (message : UpdateResponse)
      (hp : p = .worker job stage) (he : e = .pushed job.i message)
      (hp' : p' = .worker job stage') (hs : σ' = σ.update job.i (·.push message))
      (hf : ∀ run : RunBody, stage.Fits job run.messages →
        message.runId = job.runId ∧ stage'.Fits job (pushCapped run message).messages)
  | finished (job : Job I V) (result : RunResultBody) (hp : p = .worker job (.delivered result))
      (he : e = .finished job.i job.runId) (hp' : p' = .idle)
      (hs : σ' = σ.update job.i (·.finish result))

theorem Act.effect (h : Act name σ p e σ' p') : Effect σ p e σ' p' := by
  cases h with
  | status => exact .request rfl ⟨rfl, rfl, rfl⟩ rfl rfl nofun
  | lockOutside hl => exact .request rfl ⟨rfl, rfl, rfl⟩ rfl rfl nofun
  | unlockOutside => exact .request rfl ⟨rfl, rfl, rfl⟩ rfl rfl nofun
  | ask => exact .request rfl ⟨rfl, rfl, rfl⟩ rfl rfl nofun
  | unavailable => exact .request rfl ⟨rfl, rfl, rfl⟩ rfl rfl nofun
  | refuse hl => exact .request rfl ⟨rfl, rfl, rfl⟩ rfl rfl nofun
  | busy => exact .request rfl ⟨rfl, rfl, rfl⟩ rfl rfl nofun
  | lock hl => exact .request rfl ⟨rfl, rfl, rfl⟩ rfl rfl nofun
  | claim => exact .request services_claim ⟨rfl, rfl, rfl⟩ rfl rfl nofun
  | stillRunning hrun => exact .request rfl ⟨rfl, rfl, rfl⟩ rfl rfl nofun
  | check hrun =>
      refine .request rfl ⟨rfl, rfl, rfl⟩ rfl rfl ?_
      intro i hi
      obtain rfl := Option.some.inj hi
      exact .inr ⟨rfl, hrun⟩
  | reject hsel => exact .request rfl ⟨rfl, rfl, rfl⟩ rfl rfl nofun
  | select hsel => exact .request rfl ⟨rfl, rfl, rfl⟩ rfl rfl fun i hi => .inl hi
  | dropRejected => exact .request services_drop ⟨rfl, rfl, rfl⟩ rfl rfl nofun
  | unlockRejected => exact .request rfl ⟨rfl, rfl, rfl⟩ rfl rfl nofun
  | @accept job => exact .accepted job rfl rfl rfl rfl
  | @discover job =>
      refine .pushed job _ _ job.discover rfl rfl rfl rfl ?_
      intro run hf
      exact ⟨rfl, rfl, incomplete_pushCapped hf rfl⟩
  | @hook job hooks holds hook =>
      refine .pushed job _ _ (hooks.call hook).2 rfl rfl rfl rfl ?_
      intro run hf
      obtain ⟨hid, hf⟩ := hf
      have htells := hooks.call_tells hook
      exact ⟨htells.message.trans hid, htells.hooks.trans hid,
        incomplete_pushCapped hf htells.complete⟩
  | @send job => exact .worked job _ _ rfl ⟨rfl, rfl, rfl⟩ rfl rfl fun _ hf => hf
  | @unlock job => exact .worked job _ _ rfl ⟨rfl, rfl, rfl⟩ rfl rfl fun _ hf => hf
  | @«return» job => exact .worked job _ _ rfl ⟨rfl, rfl, rfl⟩ rfl rfl fun _ hf => hf.2
  | @drop job => exact .worked job _ _ rfl ⟨rfl, rfl, rfl⟩ rfl services_drop fun _ hf => hf
  | @complete job result log active klippy =>
      refine .pushed job _ _ (job.done result log active klippy) rfl rfl rfl rfl ?_
      intro run hf
      exact ⟨rfl, completes_pushCapped hf rfl rfl⟩
  | @deliver job => exact .worked job _ _ rfl ⟨rfl, rfl, rfl⟩ rfl rfl fun _ hf => hf
  | @finish job result => exact .finished job result rfl rfl rfl rfl

end Act

section Turns

structure Turns (s : System (Shared I) T (Thread I V)) : Prop where
  exclusive : Exclusive (fun p : Thread I V => p.holdsLock = true)
    (fun σ : Shared I => σ.locked = true) s
  working : ∀ t job stage, s.threads t = .worker job stage →
    ∃ run, Working job stage (s.shared.services job.i) run
  single : ∀ t u job job', (s.threads t).job = some job → (s.threads u).job = some job' →
    job.i = job'.i → t = u
  vacant : ∀ t u i job, (s.threads t).admitted = some i → (s.threads u).job = some job → job.i ≠ i
  rest : ∀ i run, (s.shared.services i).run = some run →
    (run.state = .running ∧ ∃ t job, (s.threads t).job = some job ∧ job.i = i) ∨
      (run.state = .finished ∧ ∃ result, run.result = some result ∧ Completes run.messages result)

def initial (I T V : Type) : System (Shared I) T (Thread I V) :=
  ⟨⟨false, none, fun _ => ⟨none, none⟩⟩, fun _ => .idle⟩

variable {s s' : System (Shared I) T (Thread I V)} {t : T} {e : Event I V} {p : Thread I V}
  {job : Job I V} {stage : Stage} {i : I}

omit [DecidableEq I] [DecidableEq T] [Semver V] in
theorem job_eq_some_iff : p.job = some job ↔ ∃ stage, p = .worker job stage := by
  constructor
  · intro h
    cases p with
    | worker job' stage =>
        obtain rfl := Option.some.inj h
        exact ⟨stage, rfl⟩
    | _ => cases h
  · intro h
    obtain ⟨stage, rfl⟩ := h
    rfl

omit [DecidableEq I] [Semver V] in
theorem holdsLock_of_admitted (h : p.admitted = some i) : p.holdsLock = true := by
  cases p with
  | checked => rfl
  | selected => rfl
  | _ => cases h

omit [DecidableEq I] [DecidableEq T] [Semver V] in
theorem turns_initial : Turns (initial I T V) := by
  refine ⟨⟨fun _ h => ?_, fun _ _ h => ?_⟩, fun _ _ _ h => ?_, fun _ _ _ _ h => ?_,
    fun _ _ _ _ h => ?_, fun _ _ h => ?_⟩
  all_goals cases h

omit [DecidableEq I] [DecidableEq T] [Semver V] in
/-- A record that is not running has no worker. -/
theorem Turns.ne_of_running_eq_none (ht : Turns s) (hi : (s.shared.services i).running = none)
    {u : T} (hu : (s.threads u).job = some job) : job.i ≠ i := by
  intro heq
  obtain ⟨stage, hstage⟩ := job_eq_some_iff.1 hu
  obtain ⟨run, hw⟩ := ht.working u job stage hstage
  rw [heq] at hw
  rw [ServiceState.running, hw.recorded, Option.filter_some,
    if_pos (decide_eq_true hw.running)] at hi
  cases hi

omit [DecidableEq I] [DecidableEq T] [Semver V] in
/-- A record that a step leaves alone is still in order if its worker is still there. -/
theorem Turns.rest_of_kept {run : RunBody} (ht : Turns s)
    (hrun : (s.shared.services i).run = some run)
    (hkept : ∀ u a, (s.threads u).job = some a → a.i = i → (s'.threads u).job = some a) :
    (run.state = .running ∧ ∃ u a, (s'.threads u).job = some a ∧ a.i = i) ∨
      (run.state = .finished ∧
        ∃ result, run.result = some result ∧ Completes run.messages result) := by
  rcases ht.rest i run hrun with ⟨hr, u, a, hu, ha⟩ | hfin
  · exact .inl ⟨hr, u, a, hkept u a hu ha, ha⟩
  · exact .inr hfin

theorem Turns.step_request (ht : Turns s) (h : Step (Act name) s (t, e) s')
    (hs : s'.shared.services = s.shared.services) (hj : (s.threads t).job = none)
    (hj' : (s'.threads t).job = none)
    (ha : ∀ i, (s'.threads t).admitted = some i → (s.threads t).admitted = some i ∨
      ((s.threads t).holdsLock = true ∧ (s.shared.services i).running = none)) : Turns s' := by
  obtain ⟨hact, hother⟩ := step_iff.1 h
  have hback : ∀ u job, (s'.threads u).job = some job → s'.threads u = s.threads u := by
    intro u job hu
    by_cases hut : u = t
    · rw [hut, hj'] at hu
      cases hu
    · exact hother u hut
  have hforth : ∀ u job, (s.threads u).job = some job → s'.threads u = s.threads u := by
    intro u job hu
    by_cases hut : u = t
    · rw [hut, hj] at hu
      cases hu
    · exact hother u hut
  refine ⟨ht.exclusive.step h hact.locking, ?_, ?_, ?_, ?_⟩
  · intro u job stage hu
    rw [hback u job (job_eq_some_iff.2 ⟨stage, hu⟩)] at hu
    rw [hs]
    exact ht.working u job stage hu
  · intro u v job job' hu hv hi
    have hu' := hback u job hu
    have hv' := hback v job' hv
    rw [hu'] at hu
    rw [hv'] at hv
    exact ht.single u v job job' hu hv hi
  · intro u v i job hu hv
    have hv' := hback v job hv
    rw [hv'] at hv
    by_cases hut : u = t
    · rw [hut] at hu
      rcases ha i hu with hold | ⟨-, hidle⟩
      · exact ht.vacant t v i job hold hv
      · exact ht.ne_of_running_eq_none hidle hv
    · rw [hother u hut] at hu
      exact ht.vacant u v i job hu hv
  · intro i run hrun
    rw [hs] at hrun
    apply ht.rest_of_kept hrun
    intro u job hu _
    rw [hforth u job hu]
    exact hu

theorem Turns.step_accepted (ht : Turns s) (h : Step (Act name) s (t, e) s')
    (hp : s.threads t = .selected job.i job.snapshot job.targets)
    (hp' : s'.threads t = .worker job .spawned)
    (hs : s'.shared = s.shared.update job.i fun _ => .accept job.runId (assess job.snapshot)) :
    Turns s' := by
  obtain ⟨hact, hother⟩ := step_iff.1 h
  have hadm : (s.threads t).admitted = some job.i := by rw [hp]; rfl
  have hjob : (s.threads t).job = none := by rw [hp]; rfl
  have hjob' : (s'.threads t).job = some job := by rw [hp']; rfl
  have hne : ∀ u job', (s.threads u).job = some job' → job'.i ≠ job.i :=
    fun u job' hu => ht.vacant t u job.i job' hadm hu
  refine ⟨ht.exclusive.step h hact.locking, ?_, ?_, ?_, ?_⟩
  · intro u job' stage hu
    by_cases hut : u = t
    · rw [hut, hp'] at hu
      cases hu
      rw [hs, services_update]
      exact ⟨_, rfl, rfl, rfl, rfl, fun m hm => absurd hm List.not_mem_nil⟩
    · rw [hother u hut] at hu
      rw [hs, services_update_of_ne _ (hne u job' (job_eq_some_iff.2 ⟨stage, hu⟩))]
      exact ht.working u job' stage hu
  · intro u v a b hu hv hi
    by_cases hut : u = t
    · by_cases hvt : v = t
      · rw [hut, hvt]
      · rw [hut, hjob'] at hu
        rw [hother v hvt] at hv
        obtain rfl := Option.some.inj hu
        exact absurd hi.symm (hne v b hv)
    · rw [hother u hut] at hu
      by_cases hvt : v = t
      · rw [hvt, hjob'] at hv
        obtain rfl := Option.some.inj hv
        exact absurd hi (hne u a hu)
      · rw [hother v hvt] at hv
        exact ht.single u v a b hu hv hi
  · intro u v i a hu hv
    -- No other request has passed the check, since it would hold the lock as well.
    have hut : u ≠ t := by
      intro hut
      rw [hut, hp'] at hu
      cases hu
    rw [hother u hut] at hu
    have hlock := holdsLock_of_admitted hu
    exact absurd (ht.exclusive.alone u t hlock (holdsLock_of_admitted hadm)) hut
  · intro i run hrun
    rcases record_update hs hrun with ⟨hi, hrun⟩ | ⟨-, hrun⟩
    · obtain rfl := Option.some.inj hrun
      exact .inl ⟨rfl, t, job, hjob', hi.symm⟩
    · apply ht.rest_of_kept hrun
      intro u a hu _
      rw [hother u]
      · exact hu
      · intro hut
        rw [hut, hjob] at hu
        cases hu

theorem Turns.step_worker {stage' : Stage} (ht : Turns s) (h : Step (Act name) s (t, e) s')
    (hp : s.threads t = .worker job stage) (hp' : s'.threads t = .worker job stage')
    (hservices : ∀ j, j ≠ job.i → s'.shared.services j = s.shared.services j)
    (hown : ∀ run, Working job stage (s.shared.services job.i) run →
      ∃ run', Working job stage' (s'.shared.services job.i) run') : Turns s' := by
  obtain ⟨hact, hother⟩ := step_iff.1 h
  have hjob : (s.threads t).job = some job := by rw [hp]; rfl
  have hjobs : ∀ u, (s'.threads u).job = (s.threads u).job :=
    h.same Thread.job (by rw [hp, hp']; rfl)
  have hadmitted : ∀ u, (s'.threads u).admitted = (s.threads u).admitted :=
    h.same Thread.admitted (by rw [hp, hp']; rfl)
  refine ⟨ht.exclusive.step h hact.locking, ?_, ?_, ?_, ?_⟩
  · intro u a stage'' hu
    by_cases hut : u = t
    · rw [hut, hp'] at hu
      cases hu
      obtain ⟨run, hw⟩ := ht.working t job stage hp
      exact hown run hw
    · rw [hother u hut] at hu
      have ha : a.i ≠ job.i := fun hi =>
        hut (ht.single u t a job (job_eq_some_iff.2 ⟨stage'', hu⟩) hjob hi)
      rw [hservices a.i ha]
      exact ht.working u a stage'' hu
  · intro u v a b hu hv
    rw [hjobs u] at hu
    rw [hjobs v] at hv
    exact ht.single u v a b hu hv
  · intro u v i a hu hv
    rw [hadmitted u] at hu
    rw [hjobs v] at hv
    exact ht.vacant u v i a hu hv
  · intro i run hrun
    by_cases hi : i = job.i
    · obtain ⟨run₀, hw₀⟩ := ht.working t job stage hp
      obtain ⟨run', hw⟩ := hown run₀ hw₀
      rw [hi, hw.recorded] at hrun
      obtain rfl := Option.some.inj hrun
      exact .inl ⟨hw.running, t, job, by rw [hjobs t, hjob], hi.symm⟩
    · rw [hservices i hi] at hrun
      apply ht.rest_of_kept hrun
      intro u a hu _
      rw [hjobs u, hu]

theorem Turns.step_finished {result : RunResultBody} (ht : Turns s)
    (h : Step (Act name) s (t, e) s') (hp : s.threads t = .worker job (.delivered result))
    (hp' : s'.threads t = .idle) (hs : s'.shared = s.shared.update job.i (·.finish result)) :
    Turns s' := by
  obtain ⟨hact, hother⟩ := step_iff.1 h
  have hjob : (s.threads t).job = some job := by rw [hp]; rfl
  have hne : ∀ u a, (s'.threads u).job = some a → u ≠ t := by
    intro u a hu hut
    rw [hut, hp'] at hu
    cases hu
  refine ⟨ht.exclusive.step h hact.locking, ?_, ?_, ?_, ?_⟩
  · intro u a stage hu
    have hut := hne u a (job_eq_some_iff.2 ⟨stage, hu⟩)
    rw [hother u hut] at hu
    have ha : a.i ≠ job.i := fun hi =>
      hut (ht.single u t a job (job_eq_some_iff.2 ⟨stage, hu⟩) hjob hi)
    rw [hs, services_update_of_ne _ ha]
    exact ht.working u a stage hu
  · intro u v a b hu hv
    have hut := hne u a hu
    have hvt := hne v b hv
    rw [hother u hut] at hu
    rw [hother v hvt] at hv
    exact ht.single u v a b hu hv
  · intro u v i a hu hv
    have hvt := hne v a hv
    have hut : u ≠ t := by
      intro hut
      rw [hut, hp'] at hu
      cases hu
    rw [hother u hut] at hu
    rw [hother v hvt] at hv
    exact ht.vacant u v i a hu hv
  · intro i run hrun
    rcases record_update hs hrun with ⟨-, hrun⟩ | ⟨hi, hrun⟩
    · obtain ⟨run₀, hw⟩ := ht.working t job _ hp
      rw [ServiceState.finish, hw.recorded] at hrun
      obtain rfl := Option.some.inj hrun
      exact .inr ⟨rfl, result, rfl, hw.fits⟩
    · apply ht.rest_of_kept hrun
      intro u a hu ha
      rw [hother u]
      · exact hu
      · intro hut
        rw [hut, hjob] at hu
        obtain rfl := Option.some.inj hu
        exact hi ha.symm

theorem Turns.step (ht : Turns s) (h : Step (Act name) s (t, e) s') : Turns s' := by
  obtain ⟨hact, -⟩ := step_iff.1 h
  cases hact.effect with
  | request hs he hj hj' ha => exact ht.step_request h hs hj hj' ha
  | accepted job hp he hp' hs => exact ht.step_accepted h hp hp' hs
  | worked job stage stage' hp he hp' hs hf =>
      refine ht.step_worker h hp hp' (fun j _ => by rw [hs]) fun run hw => ⟨run, ?_⟩
      rw [hs]
      exact ⟨hw.recorded, hw.runId, hw.running, hw.result, hf _ hw.fits⟩
  | pushed job stage stage' message hp he hp' hs hf =>
      refine ht.step_worker h hp hp' (fun j hj => ?_) fun run hw => ⟨pushCapped run message, ?_⟩
      · rw [hs]
        exact services_update_of_ne _ hj
      · rw [hs, services_update]
        refine ⟨?_, hw.runId, hw.running, hw.result, (hf run hw.fits).2⟩
        rw [ServiceState.push, hw.recorded]
        rfl
  | finished job result hp he hp' hs => exact ht.step_finished h hp hp' hs

abbrev Trace (I T V : Type) := List (Move (System (Shared I) T (Thread I V)) (T × Event I V))

abbrev Runs (name : I → Str) (tr : Trace I T V) (s : System (Shared I) T (Thread I V)) : Prop :=
  Run (Step (Act name)) (initial I T V) tr s

theorem turns_of_runs {tr : Trace I T V} (hr : Runs name tr s) : Turns s :=
  hr.invariant (P := fun _ s => Turns s) turns_initial fun _ _ _ _ _ ht hs => ht.step hs

end Turns

end Aldis.Agent

import Aldis.Agent.Trace

/-!
# The course of an update

An update can be accepted whenever the lock is free and the instance's record is not running, and
its worker can then go all the way to the end, whatever the other threads have done.
-/

namespace Aldis.Agent

open Text Threads Machine

variable {I T V : Type} [DecidableEq I] [DecidableEq T] [Semver V] {name : I → Str}
  {tr : Trace I T V} {s : System (Shared I) T (Thread I V)} {t : T}

theorem Runs.act {p p' : Thread I V} {e : Event I V} {σ' : Shared I} (hr : Runs name tr s)
    (hp : s.threads t = p) (ha : Act name s.shared p e σ' p') :
    Runs name (tr ++ [⟨s, (t, e)⟩]) ⟨σ', Function.update s.threads t p'⟩ := by
  rw [← hp] at ha
  exact hr.next (.act ha)

/-- What the hosts share once an instance has claimed the lock and its update has been accepted. -/
def Shared.accepting (σ : Shared I) (name : I → Str) (job : Job I V) : Shared I :=
  Shared.update (Shared.claim { σ with locked := true } (name job.i)) job.i
    fun _ => .accept job.runId (assess job.snapshot)

theorem Runs.begin {request : UpdateRequest} {job : Job I V} (hr : Runs name tr s)
    (hp : s.threads t = .idle) (hl : s.shared.locked = false)
    (hrun : (s.shared.services job.i).running = none)
    (hsel : selectTargets job.snapshot request = .ok job.targets) :
    ∃ tr', Runs name tr' ⟨s.shared.accepting name job,
        Function.update s.threads t (.worker job .spawned)⟩ ∧
      events tr' = events tr ++ [.asked job.i request, .locked job.i, .claimed job.i,
        .checked job.i, .selected job.i, .accepted job] := by
  have hasked := hr.act hp (.ask : Act name s.shared _ (.asked job.i request) _ _)
  have hlocked := hasked.act (Function.update_self t _ _) (.lock hl)
  have hclaimed := hlocked.act (Function.update_self t _ _) .claim
  have hidle : ((Shared.claim { s.shared with locked := true } (name job.i)).services
      job.i).running = none := by
    rw [services_claim]
    exact hrun
  have hchecked := hclaimed.act (Function.update_self t _ _) (.check hidle)
  have hselected := hchecked.act (Function.update_self t _ _) (.select hsel)
  have haccepted := hselected.act (Function.update_self t _ _) .accept
  simp only [Function.update_idem] at haccepted
  refine ⟨_, haccepted, ?_⟩
  simp only [events, List.map_append, List.map_cons, List.map_nil, List.append_assoc,
    List.cons_append, List.nil_append]

/-- A worker announces its update, and its backend gives the lock back. -/
theorem Runs.unlocked {job : Job I V} (hr : Runs name tr s)
    (hp : s.threads t = .worker job .spawned) : ∃ tr' hooks,
      Runs name tr' ⟨{ s.shared.update job.i (·.push job.discover) with locked := false },
        Function.update s.threads t (.worker job (.running hooks none false))⟩ ∧
      events tr' = events tr ++
        [.pushed job.i job.discover, .sent job.i job.discover, .unlocked job.i] := by
  have hpushed := hr.act hp .discover
  have hsent := hpushed.act (Function.update_self t _ _) .send
  have hunlocked := hsent.act (Function.update_self t _ _) .unlock
  simp only [Function.update_idem] at hunlocked
  refine ⟨_, _, hunlocked, ?_⟩
  simp only [events, List.map_append, List.map_cons, List.map_nil, List.append_assoc,
    List.cons_append, List.nil_append]

/-- Once the backend has returned, the worker records the payload that completes the run. -/
theorem Runs.completed {job : Job I V} {hooks : AgentHooks} (hr : Runs name tr s)
    (hp : s.threads t = .worker job (.running hooks none false)) (result : RunResult) (log : Str)
    (active : Option Bool) (klippy : KlippyState) : ∃ tr',
      Runs name tr' ⟨(s.shared.drop (name job.i)).update job.i
          (·.push (job.done result log active klippy)),
        Function.update s.threads t (.worker job (.completing (job.done result log active klippy)
          (result.body job.targets klippy (active = some false))))⟩ ∧
      events tr' = events tr ++ [.returned job.i job.runId result, .dropped job.i,
        .pushed job.i (job.done result log active klippy)] := by
  have hreturned := hr.act hp
    (.return : Act name s.shared _ (.returned job.i job.runId result) _ _)
  have hdropped := hreturned.act (Function.update_self t _ _) .drop
  have hcompleted := hdropped.act (Function.update_self t _ _)
    (.complete : Act name _ _ (.pushed job.i (job.done result log active klippy)) _ _)
  simp only [Function.update_idem] at hcompleted
  refine ⟨_, hcompleted, ?_⟩
  simp only [events, List.map_append, List.map_cons, List.map_nil, List.append_assoc,
    List.cons_append, List.nil_append]

/-- The worker delivers the payload that completes its run, and marks the run as finished. -/
theorem Runs.ended {job : Job I V} {message : UpdateResponse} {result : RunResultBody}
    (hr : Runs name tr s) (hp : s.threads t = .worker job (.completing message result)) : ∃ tr',
      Runs name tr' ⟨s.shared.update job.i (·.finish result), Function.update s.threads t .idle⟩ ∧
      events tr' = events tr ++ [.sent job.i message, .finished job.i job.runId] := by
  have hdelivered := hr.act hp .deliver
  have hfinished := hdelivered.act (Function.update_self t _ _) .finish
  simp only [Function.update_idem] at hfinished
  refine ⟨_, hfinished, ?_⟩
  simp only [events, List.map_append, List.map_cons, List.map_nil, List.append_assoc,
    List.cons_append, List.nil_append]

section Printers

def printers : Bool → Str
  | false => "klipper"
  | true => "klipper-2"

def ebbJob (i : Bool) (runId : Str) : Job Bool Semver.Rank :=
  ⟨i, runId, twinSnapshot, ["mcu EBB"]⟩

/-- What is shared after the first instance's update has given the lock back. -/
def ebbShared : Shared Bool :=
  let job := ebbJob false "1760000000000"
  { (((initial Bool ℕ Semver.Rank).shared.accepting printers job).update job.i
      (·.push job.discover)) with locked := false }

def ebbEvents : List (Event Bool Semver.Rank) :=
  let job := ebbJob false "1760000000000"
  [.asked false (.mcus ["EBB"]), .locked false, .claimed false, .checked false, .selected false,
    .accepted job, .pushed false job.discover, .sent false job.discover, .unlocked false]

/-- The first instance's update has given the lock back, and its guard is still to be dropped. -/
theorem ebb_unlocked : ∃ (tr : Trace Bool ℕ Semver.Rank) (hooks : AgentHooks),
    Runs printers tr ⟨ebbShared, Function.update (fun _ => .idle) 0
      (.worker (ebbJob false "1760000000000") (.running hooks none false))⟩ ∧
      events tr = ebbEvents := by
  have hstart : Runs printers [] (initial Bool ℕ Semver.Rank) := .start
  have hsel : selectTargets (ebbJob false "1760000000000").snapshot (.mcus ["EBB"]) =
    .ok (ebbJob false "1760000000000").targets := selectTargets_twin
  obtain ⟨tr, hr, ha⟩ := hstart.begin (t := 0) rfl rfl rfl hsel
  obtain ⟨tr', hooks, hr', ha'⟩ := hr.unlocked (Function.update_self 0 _ _)
  simp only [Function.update_idem] at hr'
  refine ⟨tr', hooks, hr', ?_⟩
  rw [ha', ha]
  rfl

/-- The payload that completes the first instance's update. -/
def ebbDone : UpdateResponse :=
  (ebbJob false "1760000000000").done (.ok ["mcu EBB"])
    "/home/pi/printer_data/logs/aldis-1760000000000.log" (some true) .ready

def ebbEnding : List (Event Bool Semver.Rank) :=
  [.returned false "1760000000000" (.ok ["mcu EBB"]), .dropped false, .pushed false ebbDone,
    .sent false ebbDone, .finished false "1760000000000"]

/-- The first instance's update goes all the way to its end. -/
theorem ebb_ended : ∃ (tr : Trace Bool ℕ Semver.Rank) (σ : Shared Bool),
    Runs printers tr ⟨σ, fun _ => .idle⟩ ∧ events tr = ebbEvents ++ ebbEnding := by
  obtain ⟨tr, hooks, hr, he⟩ := ebb_unlocked
  obtain ⟨tr', hr', he'⟩ := hr.completed (t := 0) rfl (.ok ["mcu EBB"])
    "/home/pi/printer_data/logs/aldis-1760000000000.log" (some true) .ready
  obtain ⟨tr'', hr'', he''⟩ := hr'.ended (Function.update_self 0 _ _)
  simp only [Function.update_idem] at hr''
  have hidle : Function.update (fun _ => .idle) 0 .idle =
    (fun _ => .idle : ℕ → Thread Bool Semver.Rank) := Function.update_eq_self 0 _
  rw [hidle] at hr''
  refine ⟨tr'', _, hr'', ?_⟩
  rw [he'', he', he]
  rfl

end Printers

end Aldis.Agent

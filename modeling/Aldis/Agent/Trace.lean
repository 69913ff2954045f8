import Aldis.Agent.Turns

/-!
# What has happened in a run

The updates that were accepted and finished in a run of the host, each with its own run id.
-/

namespace Aldis.Agent

open Text Threads Machine

variable {I T V : Type}

def events (tr : Trace I T V) : List (Event I V) := tr.map (·.event.2)

def accepted (tr : Trace I T V) : List (Job I V) := (events tr).filterMap Event.acceptance

def finished (tr : Trace I T V) : List (I × Str) := (events tr).filterMap Event.completion

def DistinctIds (tr : Trace I T V) : Prop := ((accepted tr).map (·.runId)).Nodup

structure Unfinished (tr : Trace I T V) (job : Job I V) : Prop where
  accepted : job ∈ accepted tr
  unfinished : (job.i, job.runId) ∉ finished tr

variable {tr : Trace I T V} {m : Move (System (Shared I) T (Thread I V)) (T × Event I V)}
  {job : Job I V} {runId : Str}

theorem events_append : events (tr ++ [m]) = events tr ++ [m.event.2] := by
  rw [events, List.map_append]
  rfl

theorem filterMap_events_of_none {β : Type} {f : Event I V → Option β} (h : f m.event.2 = none) :
    (events (tr ++ [m])).filterMap f = (events tr).filterMap f := by
  rw [events_append, List.filterMap_append, List.filterMap_cons_none h, List.filterMap_nil,
    List.append_nil]

theorem filterMap_events_of_some {β : Type} {f : Event I V → Option β} {b : β}
    (h : f m.event.2 = some b) :
    (events (tr ++ [m])).filterMap f = (events tr).filterMap f ++ [b] := by
  rw [events_append, List.filterMap_append, List.filterMap_cons_some h, List.filterMap_nil]

theorem accepted_of_none (h : m.event.2.acceptance = none) : accepted (tr ++ [m]) = accepted tr :=
  filterMap_events_of_none h

theorem accepted_of_some (h : m.event.2.acceptance = some job) :
    accepted (tr ++ [m]) = accepted tr ++ [job] :=
  filterMap_events_of_some h

theorem finished_of_none (h : m.event.2.completion = none) : finished (tr ++ [m]) = finished tr :=
  filterMap_events_of_none h

theorem finished_of_some {i : I} (h : m.event.2.completion = some (i, runId)) :
    finished (tr ++ [m]) = finished tr ++ [(i, runId)] :=
  filterMap_events_of_some h

theorem accepted_subset (h : job ∈ accepted tr) : job ∈ accepted (tr ++ [m]) := by
  rw [accepted, events_append, List.filterMap_append]
  exact List.mem_append_left _ h

theorem distinctIds_of_append (h : DistinctIds (tr ++ [m])) : DistinctIds tr := by
  unfold DistinctIds accepted at h ⊢
  rw [events_append, List.filterMap_append, List.map_append] at h
  exact h.of_append_left

theorem distinctIds_of_shorter {pre : Trace I T V} (h : DistinctIds tr) (hpre : pre ++ [m] <+: tr) :
    DistinctIds pre := by
  obtain ⟨rest, rfl⟩ := hpre
  unfold DistinctIds accepted events at h ⊢
  rw [List.append_assoc, List.map_append, List.filterMap_append, List.map_append] at h
  exact h.of_append_left

/-- Accepted updates with one run id are one. -/
theorem eq_of_runId {job' : Job I V} (hd : DistinctIds tr) (h : job ∈ accepted tr)
    (h' : job' ∈ accepted tr) (hid : job.runId = job'.runId) : job = job' :=
  List.inj_on_of_nodup_map hd h h' hid

theorem runId_not_mem (hd : DistinctIds (tr ++ [m])) (hm : m.event.2.acceptance = some job) :
    ∀ job' ∈ accepted tr, job'.runId ≠ job.runId := by
  intro job' hjob' hid
  unfold DistinctIds at hd
  rw [accepted_of_some hm, List.map_append, List.nodup_append] at hd
  exact hd.2.2 _ (List.mem_map_of_mem hjob') _ List.mem_cons_self hid

end Aldis.Agent

import Aldis.Lock
import Aldis.FlashCommand.Safety
import Aldis.UpdateCommand.Safety
import Aldis.Reboot.Safety

/-!
# Commands exclude each other

No two processes hold one file locked, and as long as nobody removes the file at the path of the
lock, every process opens the same one. So what one command does to the printer, it does while no
other process holds the lock, and another command touches the printer only once it has ended.
-/

namespace Aldis.Cli

open Interaction Threads Machine Text

variable {T : Type} [DecidableEq T] {files files' : LockFiles} {p p' : Process} {action : Action}
  {s s' : System LockFiles T Process} {t u : T} {inode : Inode}

section Locks

/-- What a system call of an attempt does, and what it leads to. -/
theorem Stage.step_cases {stage : Stage} {refused : Option Cause}
    {outcome : Stage ⊕ Except LockError Inode} (h : stage.step files refused = (files', outcome)) :
    (files'.locked = files.locked ∧ (files'.entry = files.entry ∨ files.entry = none) ∧
      ((∃ error, outcome = .inr (.error error)) ∨ ∃ next, outcome = .inl next ∧
        ∀ i ∈ next.opened, i ∈ stage.opened ∨ files'.entry = some i)) ∨
    ∃ i, stage = .locking i ∧ files.locked i = false ∧ outcome = .inr (.ok i) ∧
      files' = { files with locked := Function.update files.locked i true } := by
  cases stage with
  | opening =>
      cases refused with
      | some source =>
          obtain ⟨rfl, rfl⟩ := Prod.mk.inj h
          exact .inl ⟨rfl, .inl rfl, .inl ⟨_, rfl⟩⟩
      | none =>
          cases he : files.entry with
          | none =>
              simp only [Stage.step, he] at h
              obtain ⟨rfl, rfl⟩ := Prod.mk.inj h
              exact .inl ⟨rfl, .inl he, .inr ⟨_, rfl, nofun⟩⟩
          | some i =>
              simp only [Stage.step, he] at h
              obtain ⟨rfl, rfl⟩ := Prod.mk.inj h
              refine .inl ⟨rfl, .inl he, .inr ⟨_, rfl, fun j hj => .inr ?_⟩⟩
              rw [he, List.mem_singleton.1 hj]
  | creating =>
      cases refused with
      | some source =>
          obtain ⟨rfl, rfl⟩ := Prod.mk.inj h
          exact .inl ⟨rfl, .inl rfl, .inl ⟨_, rfl⟩⟩
      | none =>
          cases he : files.entry with
          | none =>
              simp only [Stage.step, he] at h
              obtain ⟨rfl, rfl⟩ := Prod.mk.inj h
              refine .inl ⟨rfl, .inr rfl, .inr ⟨_, rfl, fun j hj => .inr ?_⟩⟩
              rw [List.mem_singleton.1 hj]
          | some i =>
              simp only [Stage.step, he] at h
              obtain ⟨rfl, rfl⟩ := Prod.mk.inj h
              refine .inl ⟨rfl, .inl he, .inr ⟨_, rfl, fun j hj => .inr ?_⟩⟩
              rw [he, List.mem_singleton.1 hj]
  | permitting i =>
      cases refused with
      | some source =>
          obtain ⟨rfl, rfl⟩ := Prod.mk.inj h
          exact .inl ⟨rfl, .inl rfl, .inl ⟨_, rfl⟩⟩
      | none =>
          obtain ⟨rfl, rfl⟩ := Prod.mk.inj h
          exact .inl ⟨rfl, .inl rfl, .inr ⟨_, rfl, fun j hj => .inl hj⟩⟩
  | locking i =>
      cases refused with
      | some source =>
          obtain ⟨rfl, rfl⟩ := Prod.mk.inj h
          exact .inl ⟨rfl, .inl rfl, .inl ⟨_, rfl⟩⟩
      | none =>
          cases hl : files.locked i with
          | true =>
              simp only [Stage.step, hl, if_true] at h
              obtain ⟨rfl, rfl⟩ := Prod.mk.inj h
              exact .inl ⟨rfl, .inl rfl, .inl ⟨_, rfl⟩⟩
          | false =>
              simp only [Stage.step, hl, Bool.false_eq_true, if_false] at h
              obtain ⟨rfl, rfl⟩ := Prod.mk.inj h
              exact .inr ⟨i, rfl, hl, rfl, rfl⟩

theorem LockFiles.locked_release {held : List Inode} (hl : files.locked inode = true)
    (hi : inode ∉ held) : (files.release held).locked inode = true := by
  simp [LockFiles.release, hl, hi]

/-- Every action leaves the lock of a file alone, takes it while it is free, or gives it back. -/
theorem Act.locking (h : Act files p action files' p') (inode : Inode) :
    Locking (fun p : Process => inode ∈ p.held) (fun files : LockFiles => files.locked inode = true)
      files p files' p' := by
  have hrelease : ∀ {q : Process} {held : List Inode}, q.held = held →
      Locking (fun p : Process => inode ∈ p.held)
        (fun files : LockFiles => files.locked inode = true) files q (files.release held)
          .finished := by
    intro q held hq
    by_cases hi : inode ∈ held
    · exact .released (hq ▸ hi) List.not_mem_nil
    · exact .kept (fun hover => absurd hover List.not_mem_nil)
        fun hl => LockFiles.locked_release hl hi
  cases h with
  | call answer h => exact .kept id id
  | acquire => exact .kept id id
  | goOn h =>
      rcases Stage.step_cases h with ⟨hl, -, -⟩ | ⟨i, -, -, he, -⟩
      · exact .kept id fun ha => hl ▸ ha
      · cases he
  | @grant _ _ _ _ _ granted h =>
      rcases Stage.step_cases h with ⟨-, -, ⟨error, he⟩ | ⟨next, he, -⟩⟩ | ⟨i, rfl, hl, he, rfl⟩
      · cases he
      · cases he
      · obtain rfl := Except.ok.inj (Sum.inr.inj he)
        by_cases hi : inode = granted
        · subst hi
          refine .taken (by simp [hl]) ?_
          exact Function.update_self ..
        · refine .kept (fun hmem => (List.mem_cons.1 hmem).resolve_left hi) fun ha => ?_
          exact (Function.update_of_ne hi ..).trans ha
  | refuse h =>
      rcases Stage.step_cases h with ⟨hl, -, -⟩ | ⟨i, -, -, he, -⟩
      · exact .kept id fun ha => hl ▸ ha
      · cases he
  | finish => exact hrelease rfl
  | kill => exact hrelease rfl
  | remove => exact .kept id id

/-- What is at the path of the lock stays there, and every file that is opened was found there. -/
theorem Act.entry (h : Act files p action files' p') (hr : action ≠ .removed) :
    (files'.entry = files.entry ∨ files.entry = none) ∧
      ∀ i ∈ p'.opened, i ∈ p.opened ∨ files'.entry = some i := by
  cases h with
  | call answer h => exact ⟨.inl rfl, fun _ => .inl⟩
  | acquire => exact ⟨.inl rfl, fun _ => .inl⟩
  | goOn h =>
      rcases Stage.step_cases h with ⟨-, he, ⟨error, ho⟩ | ⟨next, ho, hn⟩⟩ | ⟨i, -, -, ho, -⟩
      · cases ho
      · obtain rfl := Sum.inl.inj ho
        refine ⟨he, fun i hi => ?_⟩
        rcases List.mem_append.1 hi with hi | hi
        · exact (hn i hi).imp_left (List.mem_append_left _)
        · exact .inl (List.mem_append_right _ hi)
      · cases ho
  | grant h =>
      rcases Stage.step_cases h with ⟨-, -, ⟨error, ho⟩ | ⟨next, ho, -⟩⟩ | ⟨i, rfl, -, ho, rfl⟩
      · cases ho
      · cases ho
      · obtain rfl := Except.ok.inj (Sum.inr.inj ho)
        exact ⟨.inl rfl, fun _ => .inl⟩
  | refuse h =>
      rcases Stage.step_cases h with ⟨-, he, -⟩ | ⟨i, -, -, ho, -⟩
      · exact ⟨he, fun i hi => .inl (List.mem_append_right _ hi)⟩
      · cases ho
  | finish => exact ⟨.inl rfl, nofun⟩
  | kill => exact ⟨.inl rfl, nofun⟩
  | remove => exact absurd rfl hr

/-- A file that is locked is held by the process, or by another one as before. -/
theorem Act.owner (h : Act files p action files' p') (hl : files'.locked inode = true) :
    inode ∈ p'.held ∨ files.locked inode = true ∧ inode ∉ p.held := by
  have hkept : ∀ {q : Process}, files'.locked = files.locked → (inode ∈ p.held → inode ∈ q.held) →
      inode ∈ q.held ∨ files.locked inode = true ∧ inode ∉ p.held := by
    intro q he hq
    by_cases hi : inode ∈ p.held
    · exact .inl (hq hi)
    · exact .inr ⟨he ▸ hl, hi⟩
  have hreleased : ∀ {held : List Inode}, (files.release held).locked inode = true →
      files.locked inode = true ∧ inode ∉ held := by
    intro held h
    simpa [LockFiles.release] using h
  cases h with
  | call answer h => exact hkept rfl id
  | acquire => exact hkept rfl id
  | goOn h =>
      rcases Stage.step_cases h with ⟨he, -, -⟩ | ⟨i, -, -, ho, -⟩
      · exact hkept he id
      · cases ho
  | @grant _ _ _ held _ granted h =>
      rcases Stage.step_cases h with ⟨he, -, -⟩ | ⟨i, rfl, -, ho, rfl⟩
      · exact hkept he (List.mem_cons_of_mem _)
      · obtain rfl := Except.ok.inj (Sum.inr.inj ho)
        by_cases hi : inode = granted
        · exact .inl (hi ▸ List.mem_cons_self)
        · have hl : Function.update files.locked granted true inode = true := hl
          rw [Function.update_of_ne hi] at hl
          by_cases hheld : inode ∈ held
          · exact .inl (List.mem_cons_of_mem _ hheld)
          · exact .inr ⟨hl, hheld⟩
  | refuse h =>
      rcases Stage.step_cases h with ⟨he, -, -⟩ | ⟨i, -, -, ho, -⟩
      · exact hkept he id
      · cases ho
  | finish => exact .inr (hreleased hl)
  | kill => exact .inr (hreleased hl)
  | remove => exact hkept rfl id

theorem Act.held (h : Act files p action files' p') (hp : p.held ≠ []) (he : action ≠ .ended)
    (hk : action ≠ .killed) : p'.held ≠ [] := by
  cases h with
  | grant h => exact List.cons_ne_nil _ _
  | finish => exact absurd rfl he
  | kill => exact absurd rfl hk
  | _ => exact hp

end Locks

section System

abbrev Processes (T : Type) := System LockFiles T Process

/-- Every lock file that a process has open is the one at the path of the lock. -/
def OneFile (s : Processes T) : Prop :=
  ∀ t, ∀ inode ∈ (s.threads t).opened, s.shared.entry = some inode

/-- No file is held locked twice. -/
def Separate (s : Processes T) : Prop :=
  ∀ inode, Exclusive (fun p : Process => inode ∈ p.held)
    (fun files : LockFiles => files.locked inode = true) s

theorem Separate.step (hs : Separate s) (h : Step Act s (t, action) s') : Separate s' :=
  fun inode => (hs inode).step h ((step_iff.1 h).1.locking inode)

theorem OneFile.step (ho : OneFile s) (h : Step Act s (t, action) s') (hr : action ≠ .removed) :
    OneFile s' := by
  obtain ⟨hact, hother⟩ := step_iff.1 h
  obtain ⟨hentry, hopened⟩ := hact.entry hr
  have hkept : ∀ {u i}, i ∈ (s.threads u).opened → s'.shared.entry = some i := by
    intro u i hi
    rcases hentry with he | he
    · rw [he, ho u i hi]
    · rw [ho u i hi] at he
      cases he
  intro u i hi
  by_cases hut : u = t
  · subst hut
    exact (hopened i hi).elim hkept id
  · rw [hother u hut] at hi
    exact hkept hi

theorem opened_of_held (h : inode ∈ p.held) : inode ∈ p.opened := by
  cases p with
  | running program held => exact h
  | acquiring stage next held => exact List.mem_append_right _ h
  | finished => exact h

/-- Every locked file is held by a process. -/
def Owned (s : Processes T) : Prop :=
  ∀ inode, s.shared.locked inode = true → ∃ t, inode ∈ (s.threads t).held

theorem Owned.step (ho : Owned s) (h : Step Act s (t, action) s') : Owned s' := by
  obtain ⟨hact, hother⟩ := step_iff.1 h
  intro i hl
  rcases hact.owner hl with hi | ⟨hl, hi⟩
  · exact ⟨t, hi⟩
  · obtain ⟨u, hu⟩ := ho i hl
    refine ⟨u, ?_⟩
    rwa [hother u fun he => hi (he ▸ hu)]

omit [DecidableEq T] in
/-- With one file at the path of the lock, at most one process holds it. -/
theorem holder_unique (hs : Separate s) (ho : OneFile s) (ht : (s.threads t).held ≠ [])
    (hu : (s.threads u).held ≠ []) : t = u := by
  obtain ⟨i, hi⟩ := List.exists_mem_of_ne_nil _ ht
  obtain ⟨j, hj⟩ := List.exists_mem_of_ne_nil _ hu
  have he := (ho t i (opened_of_held hi)).symm.trans (ho u j (opened_of_held hj))
  obtain rfl := Option.some.inj he
  exact (hs i).alone t u hi hj

/-- A process holds what it holds until it ends or is killed. -/
theorem held_step (h : Step Act s (t, action) s') (hu : (s.threads u).held ≠ [])
    (he : t = u → action ≠ .ended ∧ action ≠ .killed) : (s'.threads u).held ≠ [] := by
  obtain ⟨hact, hother⟩ := step_iff.1 h
  by_cases hut : u = t
  · subst hut
    exact hact.held hu (he rfl).1 (he rfl).2
  · rw [hother u hut]
    exact hu

end System

section Programs

/-- Whatever is answered, the program makes no call in `D` before it holds the lock. -/
def Guarded (D : CliCall → Bool) (p : CliProgram Unit) : Prop :=
  ∀ pre ev post, Runs p (pre ++ ev :: post) () → D ev.1 = true → ⟨.acquireLock, .ok ()⟩ ∈ pre

/-- Where a process is in its program: it holds the lock once it was granted. -/
inductive Follows (program : CliProgram Unit) : Process → Prop
  | running {past : List CliEvent} {q : CliProgram Unit} {held : List Inode}
      (h : Begins program past q) (hl : ⟨.acquireLock, .ok ()⟩ ∈ past → held ≠ []) :
      Follows program (.running q held)
  | acquiring {past : List CliEvent} {stage : Stage} {next : Except Cause Unit → CliProgram Unit}
      {held : List Inode} (h : Begins program past (.call .acquireLock next))
      (hl : ⟨.acquireLock, .ok ()⟩ ∈ past → held ≠ []) :
      Follows program (.acquiring stage next held)
  | finished : Follows program .finished

theorem Follows.act {program : CliProgram Unit} (hf : Follows program p)
    (h : Act files p action files' p') : Follows program p' := by
  cases h with
  | call answer h =>
      cases hf with
      | running hb hl =>
          refine .running (hb.concat answer) fun hmem => hl ?_
          rcases List.mem_append.1 hmem with hmem | hmem
          · exact hmem
          · cases List.mem_singleton.1 hmem
            exact absurd rfl h
  | acquire =>
      cases hf with
      | running hb hl => exact .acquiring hb hl
  | goOn h =>
      cases hf with
      | acquiring hb hl => exact .acquiring hb hl
  | grant h =>
      cases hf with
      | acquiring hb hl => exact .running (hb.concat _) fun _ => List.cons_ne_nil _ _
  | refuse h =>
      cases hf with
      | acquiring hb hl =>
          refine .running (hb.concat _) fun hmem => hl ?_
          rcases List.mem_append.1 hmem with hmem | hmem
          · exact hmem
          · cases List.mem_singleton.1 hmem
  | finish => exact .finished
  | kill => exact .finished
  | remove => exact hf

/-- A guarded process that makes a call in `D` holds a lock file. -/
theorem Follows.holds {D : CliCall → Bool} {program : CliProgram Unit} {ev : CliEvent}
    (hf : Follows program p) (hg : Guarded D program) (h : Act files p (.called ev) files' p')
    (hd : D ev.1 = true) : p.held ≠ [] := by
  cases h with
  | @call _ next _ answer hne =>
      cases hf with
      | running hb hl =>
          have hrest := runs_interact_nil commandHost (next answer)
          exact hl (hg _ _ _ (hb.runs (.call hrest)) hd)

def discard {ε α : Type} (x : CliAttempt ε α) : CliProgram Unit := do
  let _ ← x.run
  return ()

theorem runs_discard {ε α : Type} {x : CliAttempt ε α} {tr : List CliEvent}
    (hr : Runs (discard x) tr ()) : ∃ result, Runs x.run tr result := by
  obtain ⟨own, result, rest, rfl, hown, hrest⟩ := runs_bind_iff.1 hr
  obtain ⟨rfl, -⟩ := runs_pure_iff.1 hrest
  rw [List.append_nil]
  exact ⟨result, hown⟩

end Programs

section Commands

variable {V : Type} [Semver V] (J : Type) [DictionaryReader J]

theorem update_guarded (arguments : UpdateArgs V) :
    Guarded disrupts (discard (updateAndReportRunLog J arguments)) := by
  intro pre ev post hr hd
  obtain ⟨result, hr⟩ := runs_discard hr
  have hout : ∀ {tr : List CliEvent}, (∀ ev ∈ tr, Calm ev.1) → ev ∉ tr := by
    intro tr hcalm hmem
    have hc : disrupts ev.1 = false := hcalm ev hmem
    rw [hd] at hc
    cases hc
  rcases update_course hr with hcalm |
    ⟨run, runLog, checks, flashing, closing, outcome, he, hchecks, -, hp, -, hcloses⟩
  · exact absurd (List.mem_append_right _ List.mem_cons_self) (hout hcalm)
  · obtain ⟨own, rest, rfl, -⟩ := split_middle he.symm (hout hchecks) (hout hcloses.calm)
    exact List.mem_append_left _ hp.locked

theorem flash_guarded (V : Type) [Semver V] (arguments : FlashArgs) :
    Guarded disrupts (discard (runFlash (V := V) J arguments)) := by
  intro pre ev post hr hd
  obtain ⟨result, hr⟩ := runs_discard hr
  obtain ⟨ready, hw⟩ := World.Ensures.audited_permits (runFlash_sanctioned (V := V)) hr hd
  exact hw.prepared.locked

theorem reboot_guarded (V : Type) [Semver V] (arguments : RebootArgs) :
    Guarded disrupts (discard (reboot V arguments)) := by
  intro pre ev post hr hd
  obtain ⟨result, hr⟩ := runs_discard hr
  obtain ⟨lock, rest, he, hrest⟩ := runs_perform_bind_iff.1 hr
  cases pre with
  | nil =>
      obtain ⟨rfl, -⟩ := List.cons.inj he
      cases hd
  | cons first pre =>
      obtain ⟨rfl, rfl⟩ := List.cons.inj he
      cases lock with
      | error error =>
          obtain ⟨hnil, -⟩ := runs_pure_iff.1 hrest
          exact absurd hnil (by simp)
      | ok u => exact List.mem_cons_self

inductive Command (V : Type) where
  | update (arguments : UpdateArgs V)
  | flash (arguments : FlashArgs)
  | reboot (arguments : RebootArgs)

def Command.program : Command V → CliProgram Unit
  | .update arguments => discard (updateAndReportRunLog J arguments)
  | .flash arguments => discard (runFlash (V := V) J arguments)
  | .reboot arguments => discard (Cli.reboot V arguments)

/-- No command touches the printer before it holds the lock. -/
theorem Command.guarded (command : Command V) : Guarded disrupts (command.program J) := by
  cases command with
  | update arguments => exact update_guarded J arguments
  | flash arguments => exact flash_guarded J V arguments
  | reboot arguments => exact reboot_guarded V arguments

def started (commands : T → Command V) (files : LockFiles) : Processes T :=
  ⟨files, fun t => .running ((commands t).program J) []⟩

/-- The runs of the commands, with their processes' actions in any order. -/
abbrev CommandsRun (commands : T → Command V) (files : LockFiles) :
    List (Move (Processes T) (T × Action)) → Processes T → Prop :=
  Run (Step Act) (started J commands files)

variable {J} {commands : T → Command V} {tr : List (Move (Processes T) (T × Action))}

theorem separate_of_run (hr : CommandsRun J commands files tr s) : Separate s := by
  refine hr.invariant (P := fun _ => Separate) ?_ fun _ s e s' _ hs h => hs.step h
  exact fun inode =>
    ⟨fun t ht => absurd ht List.not_mem_nil, fun t u ht => absurd ht List.not_mem_nil⟩

theorem oneFile_of_run (hr : CommandsRun J commands files tr s)
    (hk : ∀ m ∈ tr, m.event.2 ≠ .removed) : OneFile s := by
  refine hr.invariant_of (P := fun _ => OneFile) (C := fun tr => ∀ m ∈ tr, m.event.2 ≠ .removed)
    hk ?_ ?_ ?_
  · exact fun tr m h x hx => h x (List.mem_append_left _ hx)
  · exact fun t inode h => absurd h List.not_mem_nil
  · intro tr s e s' _ hk ho h
    exact ho.step h (hk _ (List.mem_append_right _ (List.mem_singleton_self _)))

theorem follows_of_run (hr : CommandsRun J commands files tr s) (t : T) :
    Follows ((commands t).program J) (s.threads t) := by
  refine hr.invariant (P := fun _ s => ∀ t, Follows ((commands t).program J) (s.threads t)) ?_ ?_ t
  · exact fun t => .running (.start _) nofun
  · intro tr s e s' _ hf h u
    obtain ⟨hact, hother⟩ := step_iff.1 h
    by_cases hu : u = e.1
    · subst hu
      exact (hf _).act hact
    · rw [hother u hu]
      exact hf u

theorem owned_of_run (hfree : ∀ inode, files.locked inode = false)
    (hr : CommandsRun J commands files tr s) : Owned s := by
  refine hr.invariant (P := fun _ => Owned) ?_ fun _ s e s' _ ho h => ho.step h
  intro inode hl
  rw [started, hfree] at hl
  cases hl

/-- A process that held a lock file has it still, or has ended since. -/
theorem held_or_ended (hr : CommandsRun J commands files tr s)
    {a b : List (Move (Processes T) (T × Action))} {m : Move (Processes T) (T × Action)}
    (htr : tr = a ++ m :: b) (hm : (m.before.threads t).held ≠ []) :
    (∃ x ∈ m :: b, x.event = (t, .ended) ∨ x.event = (t, .killed)) ∨ (s.threads t).held ≠ [] := by
  refine hr.invariant (P := fun tr s => ∀ a m b, tr = a ++ m :: b → (m.before.threads t).held ≠ [] →
    (∃ x ∈ m :: b, x.event = (t, .ended) ∨ x.event = (t, .killed)) ∨ (s.threads t).held ≠ []) ?_ ?_
    a m b htr hm
  · intro a m b h
    exact absurd h (by simp)
  · intro tr s e s' _ ih h a m b htr hm
    have hstep : (s.threads t).held ≠ [] →
        (e = (t, .ended) ∨ e = (t, .killed)) ∨ (s'.threads t).held ≠ [] := by
      intro hheld
      by_cases he : e = (t, .ended) ∨ e = (t, .killed)
      · exact .inl he
      · refine .inr (held_step h hheld fun hut => ?_)
        rw [not_or] at he
        exact ⟨fun hact => he.1 (Prod.ext hut hact), fun hact => he.2 (Prod.ext hut hact)⟩
    rcases List.eq_nil_or_concat b with rfl | ⟨b, x, rfl⟩
    · obtain ⟨rfl, hx⟩ := List.append_inj' htr rfl
      obtain rfl := List.singleton_injective hx
      exact (hstep hm).imp_left fun he => ⟨_, List.mem_cons_self, he⟩
    · rw [List.concat_eq_append, ← List.cons_append, ← List.append_assoc] at htr
      obtain ⟨rfl, hx⟩ := List.append_inj' htr rfl
      obtain rfl := List.singleton_injective hx
      rw [List.concat_eq_append]
      rcases ih a m b rfl hm with ⟨y, hy, he⟩ | hheld
      · exact .inl ⟨y, List.mem_append_left [_] hy, he⟩
      · exact (hstep hheld).imp_left fun he =>
          ⟨_, List.mem_append_right (m :: b) (List.mem_singleton_self _), he⟩

/-- A command that touches the printer holds the lock. -/
theorem holds_of_disrupts (hr : CommandsRun J commands files tr s) {ev : CliEvent}
    (h : Step Act s (t, .called ev) s') (hd : disrupts ev.1 = true) : (s.threads t).held ≠ [] :=
  (follows_of_run hr t).holds ((commands t).guarded J) (step_iff.1 h).1 hd

/-- Whatever the commands' order of steps, and wherever any of them is killed: as long as nobody
removes the lock file, a command touches the printer only once every other command that did so
before has ended. -/
theorem commands_exclude (hr : CommandsRun J commands files tr s)
    {a b c : List (Move (Processes T) (T × Action))} {m m' : Move (Processes T) (T × Action)}
    {ev ev' : CliEvent} (htr : tr = a ++ m :: (b ++ m' :: c)) (hm : m.event = (t, .called ev))
    (hm' : m'.event = (u, .called ev')) (hd : disrupts ev.1 = true) (hd' : disrupts ev'.1 = true)
    (hne : t ≠ u) : (∃ x ∈ a ++ m :: b, x.event.2 = .removed) ∨
      ∃ x ∈ b, x.event = (t, .ended) ∨ x.event = (t, .killed) := by
  have hprefix : a ++ [m] <+: tr := ⟨b ++ m' :: c, by simp [htr]⟩
  have hprefix' : (a ++ m :: b) ++ [m'] <+: tr := ⟨c, by simp [htr]⟩
  obtain ⟨hfirst, s₁, hstep, -⟩ := hr.of_append hprefix
  obtain ⟨hlater, s₂, hstep', -⟩ := hr.of_append hprefix'
  by_cases hk : ∃ x ∈ a ++ m :: b, x.event.2 = .removed
  · exact .inl hk
  · refine .inr ?_
    rw [hm] at hstep
    rw [hm'] at hstep'
    have hholds := holds_of_disrupts hfirst hstep hd
    have hholds' := holds_of_disrupts hlater hstep' hd'
    have hone := oneFile_of_run hlater fun x hx he => hk ⟨x, hx, he⟩
    rcases held_or_ended hlater rfl hholds with ⟨x, hx, he⟩ | hheld
    · rcases List.mem_cons.1 hx with rfl | hx
      · rw [hm] at he
        rcases he with he | he <;> cases (Prod.mk.inj he).2
      · exact ⟨x, hx, he⟩
    · exact absurd (holder_unique (separate_of_run hlater) hone hheld hholds') hne

section Race

/-- Two reboots look for the lock file before either has created it. Both then create and open it,
and the one that locks it is killed while it works. -/
def raceTurns : List (Bool × Bool) :=
  [(false, false), (true, false), (false, false), (true, false), (false, false), (false, false),
    (false, false), (true, false), (true, false), (false, false), (false, false), (false, true),
    (true, false), (true, false), (true, false)]

def raceFiles : LockFiles := ⟨none, 0, fun _ => false⟩

def raceCommands (_ : Bool) : Command Semver.Rank := .reboot benchArguments

def race (turns : ℕ) : List (Move (Processes Bool) (Bool × Action)) × Processes Bool :=
  schedule (benchHost []) (started Unit raceCommands raceFiles) (raceTurns.take turns)

theorem runs_race (turns : ℕ) :
    CommandsRun Unit raceCommands raceFiles (race turns).1 (race turns).2 :=
  run_schedule (benchHost []) (raceTurns.take turns) .start

end Race

theorem commands_exclude_in_race : ∃ a m b m' c, (race 15).1 = a ++ m :: (b ++ m' :: c) ∧
    m.event.1 = false ∧ m'.event.1 = true ∧ ((∃ x ∈ a ++ m :: b, x.event.2 = .removed) ∨
      ∃ x ∈ b, x.event = (false, .ended) ∨ x.event = (false, .killed)) :=
  ⟨[_, _, _, _, _, _, _, _, _, _], _, [_, _, _], _, [], rfl, rfl, rfl,
    commands_exclude (runs_race 15) rfl rfl rfl rfl rfl Bool.false_ne_true⟩

/-- The lock is refused exactly while a process holds the file, and where nobody removes that file
it is granted exactly while no process holds any: a process that was killed never keeps it. -/
theorem lock_refused_iff (hfree : ∀ inode, files.locked inode = false)
    (hr : CommandsRun J commands files tr s) {next : Except Cause Unit → CliProgram Unit}
    {held : List Inode} (ht : s.threads t = .acquiring (.locking inode) next held) :
    (((Stage.locking inode).step s.shared none).2 = .inr (.error .busy) ↔
      ∃ u, inode ∈ (s.threads u).held) ∧
    ((∀ m ∈ tr, m.event.2 ≠ .removed) →
      (((Stage.locking inode).step s.shared none).2 = .inr (.ok inode) ↔
        ∀ u, (s.threads u).held = [])) := by
  have hlocked : s.shared.locked inode = true ↔ ∃ u, inode ∈ (s.threads u).held :=
    ⟨owned_of_run hfree hr inode, fun ⟨u, hu⟩ => (separate_of_run hr inode).locked u hu⟩
  constructor
  · rw [← hlocked]
    cases hl : s.shared.locked inode <;> simp [Stage.step, hl]
  · intro hk
    have hone := oneFile_of_run hr hk
    have hentry : s.shared.entry = some inode := by
      apply hone t
      rw [ht]
      exact List.mem_cons_self
    have hnone : (∀ u, (s.threads u).held = []) ↔ s.shared.locked inode = false := by
      rw [← Bool.not_eq_true, hlocked, not_exists]
      constructor
      · intro h u hu
        rw [h u] at hu
        cases hu
      · intro h u
        rw [List.eq_nil_iff_forall_not_mem]
        intro i hi
        have he := (hone u i (opened_of_held hi)).symm.trans hentry
        exact h u (Option.some.inj he ▸ hi)
    rw [hnone]
    cases hl : s.shared.locked inode <;> simp [Stage.step, hl]

theorem lock_refused_iff_in_race : 0 ∈ ((race 9).2.threads false).held ∧
    (((Stage.locking 0).step (race 9).2.shared none).2 = .inr (.error .busy) ↔
      ∃ u, 0 ∈ ((race 9).2.threads u).held) ∧
    ((∀ m ∈ (race 9).1, m.event.2 ≠ .removed) →
      (((Stage.locking 0).step (race 9).2.shared none).2 = .inr (.ok 0) ↔
        ∀ u, ((race 9).2.threads u).held = [])) :=
  ⟨List.mem_cons_self, lock_refused_iff (t := true) (fun _ => rfl) (runs_race 9) rfl⟩

end Commands

end Aldis.Cli

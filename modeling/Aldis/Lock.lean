import Aldis.Cli.Call
import Aldis.Lib.Threads

/-!
# The host-wide lock

Every operation that flashes firmware or touches a bootloader first locks one file, without
waiting. Taking the lock is a sequence of system calls, between which other processes make theirs;
the system gives the lock back when its holder ends, however it ends.
-/

namespace Aldis.Cli

open Interaction Text

def LOCK_PATH : Path := "/tmp/aldis.lock"

inductive LockError where
  | busy
  | io (path : Path) (source : Cause)
  deriving DecidableEq

def LockError.cause : LockError → Cause
  | .busy => .leaf "another aldis update, flash, or reboot is already running"
  | .io path source => .headline ("could not open the update lock at " ++ path) source

abbrev Inode := ℕ

/-- The file that is found at the path of the lock, the one that would be created next, and the
files that are locked. -/
structure LockFiles where
  entry : Option Inode
  next : Inode
  locked : Inode → Bool

/-- The locks of a process are given back when its files are closed. -/
def LockFiles.release (files : LockFiles) (held : List Inode) : LockFiles :=
  { files with locked := fun inode => files.locked inode && !held.contains inode }

inductive Stage where
  | opening
  | creating
  | permitting (inode : Inode)
  | locking (inode : Inode)
  deriving DecidableEq

/-- One system call of `UpdateLock::try_acquire`, which the system may refuse. -/
def Stage.step (files : LockFiles) (refused : Option Cause) :
    Stage → LockFiles × (Stage ⊕ Except LockError Inode)
  | .opening => match refused, files.entry with
    | some source, _ => (files, .inr (.error (.io LOCK_PATH source)))
    | none, some inode => (files, .inl (.locking inode))
    | none, none => (files, .inl .creating)
  | .creating => match refused, files.entry with
    | some source, _ => (files, .inr (.error (.io LOCK_PATH source)))
    -- Another process has created the file since it was looked for.
    | none, some inode => (files, .inl (.permitting inode))
    | none, none =>
      ({ files with entry := some files.next, next := files.next + 1 },
        .inl (.permitting files.next))
  | .permitting inode => match refused with
    | some source => (files, .inr (.error (.io LOCK_PATH source)))
    | none => (files, .inl (.locking inode))
  | .locking inode => match refused with
    | some source => (files, .inr (.error (.io LOCK_PATH source)))
    | none =>
      if files.locked inode then (files, .inr (.error .busy))
      else ({ files with locked := Function.update files.locked inode true }, .inr (.ok inode))

inductive Process where
  | running (program : CliProgram Unit) (held : List Inode)
  | acquiring (stage : Stage) (next : Except Cause Unit → CliProgram Unit) (held : List Inode)
  | finished

def Process.held : Process → List Inode
  | .running _ held => held
  | .acquiring _ _ held => held
  | .finished => []

def Stage.opened : Stage → List Inode
  | .opening | .creating => []
  | .permitting inode | .locking inode => [inode]

/-- The lock files that a process has open: those it holds locked, and one it is about to lock. -/
def Process.opened : Process → List Inode
  | .acquiring stage _ held => stage.opened ++ held
  | p => p.held

/-- What a process does or suffers. `removed` is the lock file being removed from its path, by
whomever. -/
inductive Action where
  | called (ev : CliEvent)
  | acquires
  | system (refused : Option Cause)
  | ended
  | killed
  | removed

/-- One action of a process. Calls other than for the lock are answered by anything. -/
inductive Act : LockFiles → Process → Action → LockFiles → Process → Prop
  | call {files : LockFiles} {call : CliCall} {next : CliAnswer call → CliProgram Unit}
      {held : List Inode} (answer : CliAnswer call) (h : call ≠ .acquireLock) :
      Act files (.running (.call call next) held) (.called ⟨call, answer⟩) files
        (.running (next answer) held)
  | acquire {files : LockFiles} {next : Except Cause Unit → CliProgram Unit} {held : List Inode} :
      Act files (.running (.call .acquireLock next) held) .acquires files
        (.acquiring .opening next held)
  | goOn {files files' : LockFiles} {stage stage' : Stage}
      {next : Except Cause Unit → CliProgram Unit} {held : List Inode} {refused : Option Cause}
      (h : stage.step files refused = (files', .inl stage')) :
      Act files (.acquiring stage next held) (.system refused) files' (.acquiring stage' next held)
  | grant {files files' : LockFiles} {stage : Stage} {next : Except Cause Unit → CliProgram Unit}
      {held : List Inode} {refused : Option Cause} {inode : Inode}
      (h : stage.step files refused = (files', .inr (.ok inode))) :
      Act files (.acquiring stage next held) (.system refused) files'
        (.running (next (.ok ())) (inode :: held))
  | refuse {files files' : LockFiles} {stage : Stage} {next : Except Cause Unit → CliProgram Unit}
      {held : List Inode} {refused : Option Cause} {error : LockError}
      (h : stage.step files refused = (files', .inr (.error error))) :
      Act files (.acquiring stage next held) (.system refused) files'
        (.running (next (.error error.cause)) held)
  | finish {files : LockFiles} {held : List Inode} :
      Act files (.running (.pure ()) held) .ended (files.release held) .finished
  | kill {files : LockFiles} {p : Process} : Act files p .killed (files.release p.held) .finished
  | remove {files : LockFiles} {p : Process} : Act files p .removed { files with entry := none } p

section Execution

/-- What a process does next where the system refuses nothing and calls are answered by `answers`;
one that is finished is killed to no effect. -/
def Process.next (answers : (call : CliCall) → CliAnswer call) (files : LockFiles) :
    Process → Action × LockFiles × Process
  | .running (.pure ()) held => (.ended, files.release held, .finished)
  | .running (.call .acquireLock next) held => (.acquires, files, .acquiring .opening next held)
  | .running (.call call next) held =>
    (.called ⟨call, answers call⟩, files, .running (next (answers call)) held)
  | .acquiring stage next held => match stage.step files none with
    | (files, .inl stage) => (.system none, files, .acquiring stage next held)
    | (files, .inr (.ok inode)) => (.system none, files, .running (next (.ok ())) (inode :: held))
    | (files, .inr (.error error)) =>
      (.system none, files, .running (next (.error error.cause)) held)
  | .finished => (.killed, files.release [], .finished)

theorem Process.act_next (answers : (call : CliCall) → CliAnswer call) (files : LockFiles)
    (p : Process) :
    Act files p (p.next answers files).1 (p.next answers files).2.1 (p.next answers files).2.2 := by
  cases p with
  | finished => exact .kill
  | running program held =>
      cases program with
      | pure u => exact .finish
      | call call next =>
          cases call with
          | acquireLock => exact .acquire
          | _ => exact .call _ nofun
  | acquiring stage next held =>
      rcases h : stage.step files none with ⟨files', stage' | error | inode⟩
      · simp only [Process.next, h]
        exact .goOn h
      · simp only [Process.next, h]
        exact .refuse h
      · simp only [Process.next, h]
        exact .grant h

variable {T : Type} [DecidableEq T]

open Threads Machine

/-- The moves of processes that take turns, or are killed, in a given order. -/
def schedule (answers : (call : CliCall) → CliAnswer call) :
    System LockFiles T Process → List (T × Bool) →
      List (Move (System LockFiles T Process) (T × Action)) × System LockFiles T Process
  | s, [] => ([], s)
  | s, (t, kill) :: rest =>
    let (action, files, p) :=
      if kill then (.killed, s.shared.release (s.threads t).held, .finished)
      else (s.threads t).next answers s.shared
    let (moves, last) := schedule answers ⟨files, Function.update s.threads t p⟩ rest
    (⟨s, (t, action)⟩ :: moves, last)

theorem run_schedule (answers : (call : CliCall) → CliAnswer call) (turns : List (T × Bool))
    {init s : System LockFiles T Process}
    {tr : List (Move (System LockFiles T Process) (T × Action))} (hr : Run (Step Act) init tr s) :
    Run (Step Act) init (tr ++ (schedule answers s turns).1) (schedule answers s turns).2 := by
  induction turns generalizing tr s with
  | nil =>
      rw [schedule, List.append_nil]
      exact hr
  | cons turn rest ih =>
      obtain ⟨t, kill⟩ := turn
      have hact : ∀ {action files p}, Act s.shared (s.threads t) action files p →
          Run (Step Act) init
            (tr ++ ⟨s, (t, action)⟩ ::
              (schedule answers ⟨files, Function.update s.threads t p⟩ rest).1)
            (schedule answers ⟨files, Function.update s.threads t p⟩ rest).2 := by
        intro action files p h
        rw [List.append_cons]
        exact ih (.next hr (.act h))
      cases kill with
      | true => exact hact .kill
      | false => exact hact (Process.act_next answers _ _)

end Execution

end Aldis.Cli

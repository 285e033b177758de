import KernelLink.Error
import KernelLink.Plan
/-!
# Plans of process control

What the manager of a process is asked to do, in order, when the process is to leave. The plans are
trees over the commands of a manager: they say what is asked and nothing of what is answered, so a
statement about a plan holds for every manager and every process.

Main definitions:
* `Outcome`, `Status`, `Waited`: what termination and waiting give.
* `Command`, `Routine`: what is asked, and plans over it.
* `terminateTree`, `terminateCompletely`, `waitForExit`, `release`, `shutDown`: the plans.
-/
namespace KernelLink.Control

/-- The number of a process. -/
abbrev Pid := Nat

/-- What an attempt to terminate a process gives. -/
inductive Outcome where
  /-- The process was terminated, or told to. -/
  | success
  /-- There is no such process. -/
  | notFound
  /-- The operating system refused. -/
  | denied
  /-- It took too long. -/
  | timedOut
  /-- Anything else. -/
  | failed (text : String)
  deriving Repr, DecidableEq

/-- How a process ended. -/
inductive Status where
  /-- It ended with a code. -/
  | code (n : Nat)
  /-- A signal ended it. -/
  | signal (n : Nat)
  /-- It ended, and nothing more is known. -/
  | terminated
  deriving Repr, DecidableEq

/-- What waiting for a process gives. -/
inductive Waited where
  /-- The process ended. -/
  | left (status : Status)
  /-- Waiting failed. -/
  | failed (cause : Chain)
  /-- The time was over first. -/
  | timedOut
  deriving Repr, DecidableEq

/-- What can be asked of the manager of a process. -/
inductive Command where
  /-- The number of the process, unless it has been reaped. -/
  | currentPid
  /-- All descendants of a process, a process after its own descendants. -/
  | findDescendants (pid : Pid)
  /-- Ask the process to leave. -/
  | requestStop
  /-- Wait for it to leave, for a limited time or without a limit. -/
  | wait (limit : Option Nat)
  /-- Kill it. -/
  | forceKill
  /-- Stop one process by its number. -/
  | stopPid (pid : Pid)
  /-- Release what the manager holds. -/
  | cleanup
  deriving Repr, DecidableEq

/-- The kind of answer to a command. -/
abbrev Command.Answer : Command → Type
  | .currentPid => Option Pid
  | .findDescendants _ => Except Chain (List Pid)
  | .requestStop | .forceKill | .stopPid _ => Outcome
  | .wait _ => Waited
  | .cleanup => Except Chain Unit

/-- A plan over the commands of a manager. -/
abbrev Routine (α : Type) := Plan Command.Answer α

/-- Someone who carries the commands out. -/
abbrev Manager (σ : Type) := Plan.Agent Command.Answer σ

/-- Stops each process in the list, in order, whatever the earlier attempts gave. -/
def sweep : List Pid → Routine Unit
  | [] => .done ()
  | pid :: pids => .ask (.stopPid pid) fun _ => sweep pids

/-- Terminates a process and all its descendants, the descendants first. Nothing is signalled if
they cannot be enumerated. -/
def terminateTree (root : Pid) : Routine Outcome :=
  .ask (.findDescendants root) fun
    | .error cause => .done (.failed ("Failed to enumerate children: " ++ cause.outer))
    | .ok descendants => (sweep descendants).bind fun _ => .ask (.stopPid root) .done

/-- Deals with the process itself: asks it to leave, gives it the grace, and kills it unless it is
not there or waiting ends within the grace. -/
def stopRoot (grace : Nat) : Routine Outcome :=
  .ask .requestStop fun
    | .notFound => .done .notFound
    | .success =>
      .ask (.wait (some grace)) fun
        | .timedOut => .ask .forceKill .done
        | .left _ | .failed _ => .done .success
    | .denied | .timedOut | .failed _ => .ask .forceKill .done

/-- Terminates a process for good. Its descendants are enumerated before it goes away, since they
are handed to another parent then, and are stopped after it. A failed enumeration counts as none. -/
def terminateCompletely (grace : Nat) : Routine Outcome :=
  .ask .currentPid fun
    | none => .done .notFound
    | some pid =>
      .ask (.findDescendants pid) fun found =>
        let descendants :=
          match found with
          | .ok pids => pids
          | .error _ => []
        (stopRoot grace).bind fun outcome => (sweep descendants).bind fun _ => .done outcome

/-- The failure of waiting that took too long. -/
def exitTimeout : Chain := Chain.single "Timeout waiting for process exit"

/-- Waits for a process to leave. -/
def waitForExit (limit : Option Nat) : Routine (Except Chain Status) :=
  .ask (.wait limit) fun
    | .left status => .done (.ok status)
    | .failed cause => .done (.error cause)
    | .timedOut => .done (.error exitTimeout)

/-- Releases what the manager holds. -/
def release : Routine (Except LinkError Unit) :=
  .ask .cleanup fun
    | .ok () => .done (.ok ())
    | .error cause => .done (.error (.other cause))

/-- Ends a kernel that has been told to leave: waits for the grace, terminates it if that did not
end with its exit, and releases what the manager holds. -/
def shutDown (grace : Nat) : Routine (Except LinkError Unit) :=
  (waitForExit (some grace)).bind fun
    | .ok _ => release
    | .error _ => (terminateCompletely grace).bind fun _ => release

end KernelLink.Control

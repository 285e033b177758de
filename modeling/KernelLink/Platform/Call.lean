import KernelLink.Platform.Descendants
import KernelLink.Machine.Signal
/-!
# What the managers of processes ask of a system

The managers of the two platforms do their work through a few calls. They are plans over these
calls, so they can be carried out on any system that answers them.

Main definitions:
* `Delivered`, `Call`: what is asked, and what sending a signal gives.
* `Steps`: plans over calls.
* `Manager`: how a platform does what a manager is asked to do.
* `findDescendants`: the search in the system's process table.
-/
namespace KernelLink.Platform

open Control (Pid Outcome Waited)
open Machine (Signal)

/-- What sending a signal gives. -/
inductive Delivered where
  /-- It was sent. -/
  | sent
  /-- There is nobody to send it to. -/
  | nobody
  /-- It is not permitted. -/
  | denied
  /-- Anything else. -/
  | refused (text : String)
  deriving Repr, DecidableEq

/-- What is asked of a system. -/
inductive Call where
  /-- The number of the process that was created, unless it has been reaped. -/
  | handle
  /-- Send a signal to a process. -/
  | signal (pid : Pid) (signal : Signal)
  /-- Send a signal to a group of processes. -/
  | signalGroup (group : Pid) (signal : Signal)
  /-- Is there a process with this number? -/
  | isThere (pid : Pid)
  /-- Let time pass. -/
  | sleep (ms : Nat)
  /-- Look at the clock, which counts milliseconds. -/
  | now
  /-- The process table, unless someone failed while looking at it. -/
  | table
  /-- Search on without end. -/
  | searchOn
  /-- Wait for the process that was created, for a limited time or without a limit, and reap it. -/
  | wait (limit : Option Nat)
  /-- Kill the process that was created, and reap it. -/
  | slay
  /-- Run the system's program that ends processes, and wait for its exit code. -/
  | runKiller (args : List String)
  deriving Repr, DecidableEq

/-- The kind of answer to a call. -/
abbrev Call.Answer : Call → Type
  | .handle => Option Pid
  | .signal .. | .signalGroup .. => Delivered
  | .isThere _ => Bool
  | .sleep _ | .slay => Unit
  | .now => Nat
  | .table => Option Table
  | .searchOn => Empty
  | .wait _ => Waited
  | .runKiller _ => Except StreamFault Nat

/-- A plan over calls. -/
abbrev Steps (α : Type) := Plan Call.Answer α

/-- One call. -/
def call (c : Call) : Steps c.Answer := .ask c .done

/-- How a platform does what a manager is asked to do. -/
structure Manager where
  /-- The name of the platform. -/
  name : String
  /-- What a command is done with. -/
  carryOut : (c : Control.Command) → Steps c.Answer
  /-- Terminating a process with all its descendants. -/
  terminateTree : Pid → Steps Outcome

/-- A routine on a platform. -/
def Manager.onPlatform {α : Type} (m : Manager) (routine : Control.Routine α) : Steps α :=
  routine.refine m.carryOut

/-- The failure of a look at the process table after someone failed while looking at it. -/
def poisoned : Chain := Chain.single "process table lock poisoned"

/-- The descendants of a process in the process table. A process that is not among its own ancestors
has at most as many generations below it as there are processes, so a search that goes deeper never
ends. -/
def findDescendants (pid : Pid) : Steps (Except Chain (List Pid)) :=
  .ask .table fun
    | none => .done (.error poisoned)
    | some table =>
      match table.descendants (table.length + 1) pid with
      | some pids => .done (.ok pids)
      | none => .ask .searchOn nofun

end KernelLink.Platform

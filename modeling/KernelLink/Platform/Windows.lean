import KernelLink.Platform.Call
/-!
# Processes and a program that ends them

On this platform processes are ended by a program of the system, which is told the number of a
process, whether the processes below it are meant as well, and whether to use force. All that its
exit code tells is whether it did what it was told.

Main definitions:
* `killerArgs`, `runKiller`: the program.
* `manager`.
-/
namespace KernelLink.Platform.Windows

open Control (Pid Outcome)

/-- The arguments of the program that ends processes. -/
def killerArgs (pid : Pid) (force tree : Bool) : List String :=
  ["/PID", toString pid] ++ (if tree then ["/T"] else []) ++ (if force then ["/F"] else [])

/-- What the end of the program means for the process. Only the exit code 0 is success, and
everything else counts as a process that is not there. -/
def outcomeOf (what : String) : Except StreamFault Nat → Outcome
  | .ok code => if code = 0 then .success else .notFound
  | .error fault => .failed (what ++ ": " ++ fault.message)

/-- Runs the program that ends processes. -/
def runKiller (what : String) (pid : Pid) (force tree : Bool) : Steps Outcome :=
  .ask (.runKiller (killerArgs pid force tree)) fun ended => .done (outcomeOf what ended)

/-- Asks the process and those below it to leave. -/
def requestStop : Steps Outcome :=
  .ask .handle fun
    | none => .done .notFound
    | some pid => runKiller "Graceful termination failed" pid false true

/-- Kills the process and those below it, and reaps the process. -/
def forceKill : Steps Outcome :=
  .ask .handle fun
    | none => .done .notFound
    | some pid =>
      (runKiller "Force kill failed" pid true true).bind fun outcome =>
        .ask .slay fun _ => .done outcome

/-- Stops a single process. -/
def stopPid (pid : Pid) : Steps Outcome := runKiller "taskkill failed" pid true false

/-- Terminates a process with all its descendants. -/
def terminateTree (pid : Pid) : Steps Outcome := runKiller "Tree termination failed" pid true true

/-- What a command is done with. -/
def carryOut : (c : Control.Command) → Steps c.Answer
  | .currentPid => call .handle
  | .findDescendants pid => findDescendants pid
  | .requestStop => requestStop
  | .wait limit => call (.wait limit)
  | .forceKill => forceKill
  | .stopPid pid => stopPid pid
  | .cleanup => .done (.ok ())

/-- The manager of processes of this platform. -/
def manager : Manager := ⟨"Windows", carryOut, terminateTree⟩

end KernelLink.Platform.Windows

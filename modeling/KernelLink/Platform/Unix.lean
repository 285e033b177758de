import KernelLink.Platform.Call
/-!
# Processes and their groups

On this platform a kernel leads a group of its own, and signals go to the whole group. A single
process is asked to leave first; whether it has gone is looked at again and again, and it is killed
when its grace is over.

Main definitions:
* `signalTo`: a signal to a group.
* `stopPid`, `watch`: a single process.
* `manager`.
-/
namespace KernelLink.Platform.Unix

open Control (Pid Outcome)
open Machine (Signal)

/-- The name of a signal in messages. -/
def signalName (s : Signal) : String :=
  if s = Signal.terminate then "SIGTERM" else if s = Signal.kill then "SIGKILL" else toString s

/-- What sending a signal means for the process. -/
def outcomeOf (s : Signal) : Delivered → Outcome
  | .sent => .success
  | .nobody => .notFound
  | .denied => .denied
  | .refused text => .failed (signalName s ++ " failed: " ++ text)

/-- Signals the group that a process leads, or the process alone if it leads none. -/
def signalTo (pid : Pid) (s : Signal) : Steps Outcome :=
  .ask (.signalGroup pid s) fun
    | .nobody => .ask (.signal pid s) fun delivered => .done (outcomeOf s delivered)
    | delivered => .done (outcomeOf s delivered)

/-- Asks the process to leave. -/
def requestStop : Steps Outcome :=
  .ask .handle fun
    | none => .done .notFound
    | some pid => signalTo pid Signal.terminate

/-- Kills the process and reaps it. -/
def forceKill : Steps Outcome :=
  .ask .handle fun
    | none => .done .notFound
    | some pid => (signalTo pid Signal.kill).bind fun outcome => .ask .slay fun _ => .done outcome

/-- How long a single process gets to leave, in milliseconds. -/
def singleGrace : Nat := 500

/-- The interval at which it is looked whether it has gone, in milliseconds. -/
def pollInterval : Nat := 25

/-- Kills a single process that may have gone just now. -/
def killNow (pid : Pid) : Steps Outcome :=
  .ask (.signal pid Signal.kill) fun
    | .sent | .nobody => .done .success
    | .denied => .done (.failed "SIGKILL failed: EPERM: Operation not permitted")
    | .refused text => .done (.failed ("SIGKILL failed: " ++ text))

/-- Looks at intervals whether a process has gone, as long as the deadline has not come, and kills
it then. Sleeping takes its time, so the deadline comes before the looks run out. -/
def watch (pid : Pid) (deadline : Nat) : (looks : Nat) → Steps Outcome
  | 0 => killNow pid
  | looks + 1 =>
    .ask .now fun (now : Nat) =>
      if now < deadline then
        .ask (.isThere pid) fun
          | false => .done .success
          | true => .ask (.sleep pollInterval) fun _ => watch pid deadline looks
      else killNow pid

/-- Stops a single process. -/
def stopPid (pid : Pid) : Steps Outcome :=
  .ask (.signal pid Signal.terminate) fun
    | .sent =>
      .ask .now fun (now : Nat) => watch pid (now + singleGrace) (singleGrace / pollInterval + 1)
    | delivered => .done (outcomeOf Signal.terminate delivered)

/-- What a command is done with. -/
def carryOut : (c : Control.Command) → Steps c.Answer
  | .currentPid => call .handle
  | .findDescendants pid => findDescendants pid
  | .requestStop => requestStop
  | .wait limit => call (.wait limit)
  | .forceKill => forceKill
  | .stopPid pid => stopPid pid
  | .cleanup => .done (.ok ())

/-- The manager of processes of this platform. -/
def manager : Manager :=
  ⟨"Unix", carryOut, fun pid => (Control.terminateTree pid).refine carryOut⟩

end KernelLink.Platform.Unix

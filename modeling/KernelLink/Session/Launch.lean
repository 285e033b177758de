import KernelLink.Session.Handshake
import KernelLink.Launch.Config
/-!
# Launching a kernel

The plan of a launch: check the configuration, put the artifact where the kernel finds it, start the
process, and await its greeting. What was acquired on the way is given back when the launch fails:
the background reader is stopped if it was started, the process is killed if it was created, and the
file of an embedded artifact is removed. A successful launch removes that file as well, since the
kernel has loaded it when it greets.

Main definitions:
* `Launch.Command`: what a launch asks of its surroundings.
* `Launch.Staged`, `Launch.stage`: an artifact where the kernel finds it.
* `launch`: the plan.
-/
namespace KernelLink.Session

namespace Launch

/-- What a launch asks. -/
inductive Command where
  /-- See whether there is anything at a path. -/
  | look (path : List UInt8)
  /-- Make a new file whose name ends in `suffix`. -/
  | createFile (suffix : String)
  /-- Write to the file that was made. -/
  | writeFile (path bytes : List UInt8)
  /-- Create the process. -/
  | spawn (program : String) (args : List String) (directory : Option String)
      (env : List (String × String))
  /-- Take the pipes of the process and start the background reader. -/
  | openPipes
  /-- Await the greeting. -/
  | greet
  /-- Stop the background reader. -/
  | stopCapture
  /-- Kill the process. -/
  | forceKill
  /-- Remove the file that was made. -/
  | removeFile (path : List UInt8)
  deriving Repr, DecidableEq

/-- The kind of answer to a command. -/
abbrev Command.Answer : Command → Type
  | .look _ | .writeFile .. => Except StreamFault Unit
  | .createFile _ => Except StreamFault (List UInt8)
  | .spawn .. => Except Chain Unit
  | .openPipes => Bool
  | .greet => Except LinkError Hello
  | .stopCapture | .removeFile _ => Unit
  | .forceKill => Control.Outcome

/-- A plan over these commands. -/
abbrev Steps (α : Type) := Plan Command.Answer α

/-! ## The artifact -/

/-- An artifact where the kernel finds it. -/
inductive Staged where
  /-- A file made for this launch. -/
  | temporary (path : List UInt8)
  /-- A file that was there before. -/
  | existing (path : List UInt8)
  deriving Repr, DecidableEq

namespace Staged

/-- Where the kernel finds it. -/
def path : Staged → List UInt8
  | .temporary path | .existing path => path

/-- Removes a file made for this launch, and no other. -/
def release : Staged → Steps Unit
  | .temporary path => .ask (.removeFile path) .done
  | .existing _ => .done ()

end Staged

/-- Puts an artifact where the kernel finds it. A new file that cannot be written is removed. -/
def stage : Artifact → Steps (Except LinkError Staged)
  | .path path =>
    .ask (.look path) fun
      | .error fault => .done (.error (.artifact fault))
      | .ok () => .done (.ok (.existing path))
  | .embedded bytes suffix =>
    .ask (.createFile suffix) fun
      | .error fault => .done (.error (.artifact fault))
      | .ok path =>
        .ask (.writeFile path bytes) fun
          | .error fault => .ask (.removeFile path) fun () => .done (.error (.artifact fault))
          | .ok () => .done (.ok (.temporary path))

/-! ## The process -/

/-- Takes the pipes and awaits the greeting. The background reader stops if none comes. -/
def handshake : Steps (Except LinkError Hello) :=
  .ask .openPipes fun
    | false => .done (.error (.spawn "kernel process has no stdio pipes"))
    | true =>
      .ask .greet fun
        | .error e => .ask .stopCapture fun () => .done (.error e)
        | .ok hello => .done (.ok hello)

/-- The command that creates the process for an artifact at a path. -/
def spawning (c : LaunchConfig) (path : List UInt8) : Command :=
  .spawn c.program (c.launchArgs path) c.workingDirectory c.env

/-- Creates the process and awaits its greeting. A process that does not greet is killed. -/
def start (c : LaunchConfig) (path : List UInt8) : Steps (Except LinkError Hello) :=
  .ask (spawning c path) fun
    | .error cause => .done (.error (.spawn cause.joined))
    | .ok () =>
      handshake.bind fun
        | .error e => .ask .forceKill fun _ => .done (.error e)
        | .ok hello => .done (.ok hello)

end Launch

/-- The plan of a launch. -/
def launch (c : LaunchConfig) : Launch.Steps (Except LinkError Hello) :=
  match c.validate with
  | .error e => .done (.error e)
  | .ok () =>
    (Launch.stage c.artifact).bind fun
      | .error e => .done (.error e)
      | .ok staged =>
        (Launch.start c staged.path).bind fun result => staged.release.bind fun () => .done result

end KernelLink.Session

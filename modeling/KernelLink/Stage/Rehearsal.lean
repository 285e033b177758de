import KernelLink.Session.Engine
import KernelLink.Host.Standard
/-!
# A rehearsed kernel

A kernel that plays a script over its pipes, and a manager of its process that answers as it is
told. Everything that the manager is asked is noted. With them every course of a conversation can be
played out: replies in time or late, error output, silence, an early exit, a process that will not
leave.

A rehearsal goes through steps. A step asks for one thing and waits for it, or begins it in the
background, or waits for something that was begun. Whatever is begun in the background gets a short
pause in which everyone else goes on; some pauses make a millisecond.

Main definitions:
* `Step`, `pausesPerMillisecond`: a step, and how pauses count.
* `Action`, `Directions`: what the kernel plays and what the manager answers.
* `Note`: what was noted.
* `Rehearsal`, `Rehearsal.backend`: the kernel's side of a link.
-/
namespace KernelLink.Stage

open Session (Wires Backend)
open Control (Pid Outcome)
open Host (Files)

/-! ## Steps -/

/-- A step that asks for things of some kind. -/
inductive Step (α : Type) where
  /-- Asks and waits. -/
  | wait (ask : α)
  /-- Asks in the background, under a name. -/
  | start (name : String) (ask : α)
  /-- Waits for what was asked under a name. -/
  | join (name : String)
  deriving Repr, DecidableEq

/-- How many pauses make a millisecond. -/
def pausesPerMillisecond : Nat := 6

/-! ## What is rehearsed -/

/-- What a scripted kernel does. -/
inductive Action where
  /-- Write to the output. -/
  | out (bytes : List UInt8)
  /-- Write to the error output. -/
  | err (bytes : List UInt8)
  /-- Do nothing for a while. -/
  | sleep (ms : Nat)
  /-- Read a line. -/
  | read
  /-- Close the input. -/
  | closeIn
  /-- Close the output. -/
  | closeOut
  /-- Close the error output. -/
  | closeErr
  /-- Exit. -/
  | exit
  deriving Repr, DecidableEq

/-- What the manager answers, and how the process takes to its end. -/
structure Directions where
  /-- The process cannot be created. -/
  spawnError : Option Chain
  /-- The process comes without pipes. -/
  noPipes : Bool
  /-- The kernel stays when its input ends. -/
  ignoreEnd : Bool
  /-- Cleaning up fails. -/
  cleanupError : Option Chain
  /-- The artifact is removed as soon as the process is created. -/
  unlinkArtifact : Bool
  /-- How long after a request to stop the process exits. -/
  exitAfterStop : Option Nat
  /-- Waiting for the process fails. -/
  waitError : Option Chain
  /-- The answer to a request to stop. -/
  graceful : Outcome
  /-- The answer to a request to kill. -/
  force : Outcome
  /-- The descendants of the process. -/
  children : Except Chain (List Pid)
  /-- The answers to requests to stop one process; `success` where nothing is said. -/
  outcomes : List (Pid × Outcome)

/-- What is noted. -/
inductive Note where
  /-- A process was created. -/
  | spawn
  /-- The process was waited for. -/
  | wait
  /-- The process was killed. -/
  | kill
  /-- The descendants of a process were asked for. -/
  | findDescendants (pid : Pid)
  /-- The process was asked to stop. -/
  | requestStop
  /-- The process was to be killed. -/
  | forceKill
  /-- One process was to be stopped. -/
  | stopPid (pid : Pid)
  /-- The manager was told to clean up. -/
  | cleanup
  deriving Repr, DecidableEq

/-- What the manager was given when the process was created. -/
structure Spawned where
  /-- The program. -/
  program : String
  /-- Its arguments. -/
  args : List String
  /-- The contents of the file that the last argument names. -/
  artifact : Option (List UInt8)
  /-- The directory. -/
  directory : Option String
  /-- The environment. -/
  env : List (String × String)
  deriving Repr, DecidableEq

/-- A rehearsed kernel. -/
structure Rehearsal where
  /-- What the manager answers. -/
  directions : Directions
  /-- The number of the process until it is reaped. -/
  pid : Option Pid
  /-- Has the process ended? -/
  ended : Bool
  /-- The instants at which it will end by itself. -/
  exitAt : List Nat
  /-- What is still to be played. -/
  script : List Action
  /-- What is being written, and whether to the error output. -/
  emitting : Option (Bool × List UInt8)
  /-- When the kernel goes on. -/
  wakeAt : Option Nat
  /-- Has the kernel closed its input itself? -/
  inputClosed : Bool
  /-- The beginning of a line that has been read. -/
  lineStart : List UInt8
  /-- The lines read so far, the last one first. -/
  received : List (List UInt8)
  /-- What was noted, the last note first. -/
  notes : List Note
  /-- The file system. -/
  files : Files
  /-- What the manager was given. -/
  spawned : Option Spawned

namespace Rehearsal

/-- Before anything has happened. -/
def new (directions : Directions) (pid : Option Pid) (script : List Action) (files : Files) :
    Rehearsal where
  directions := directions
  pid := pid
  ended := false
  exitAt := []
  script := script
  emitting := none
  wakeAt := none
  inputClosed := false
  lineStart := []
  received := []
  notes := []
  files := files
  spawned := none

/-- A process that plays nothing and only exits, at the first of some instants. -/
def idle (directions : Directions) (pid : Option Pid) (exits : List Nat) : Rehearsal :=
  { new directions pid [] .standard with exitAt := exits, inputClosed := true }

/-- Notes something. -/
def note (r : Rehearsal) (n : Note) : Rehearsal := { r with notes := n :: r.notes }

/-! ## The kernel -/

/-- The process ends and all its pipes with it. -/
def finish (w : Wires) (r : Rehearsal) : Wires × Rehearsal := (w.hangUp, { r with ended := true })

/-- What reading from the input gives. -/
inductive Taken where
  /-- A line was read. -/
  | line (w : Wires) (r : Rehearsal)
  /-- Part of a line was read. -/
  | part (w : Wires) (r : Rehearsal)
  /-- There is nothing to read yet. -/
  | nothing
  /-- There is no more input. -/
  | ended

/-- Reads from the input. -/
def takeLine (w : Wires) (r : Rehearsal) : Taken :=
  if r.inputClosed then .ended
  else
    match w.input.bytes.span (· != 10) with
    | (line, nl :: rest) =>
      .line { w with input := { w.input with bytes := rest } }
        { r with lineStart := [], received := (r.lineStart ++ line ++ [nl]) :: r.received }
    | ([], []) =>
      if w.input.writing then .nothing
      else if r.lineStart.isEmpty then .ended
      else .line w { r with lineStart := [], received := r.lineStart :: r.received }
    | (part, []) =>
      .part { w with input := { w.input with bytes := [] } }
        { r with lineStart := r.lineStart ++ part }

/-- Writes as much as fits of what is being written. What nobody reads is lost. -/
def emit (w : Wires) (r : Rehearsal) (toErrors : Bool) (bytes : List UInt8) :
    Option (Wires × Rehearsal) :=
  let pipe := if toErrors then w.errors else w.output
  if bytes.isEmpty || !pipe.reading || !pipe.writing then some (w, { r with emitting := none })
  else if pipe.room = 0 then none
  else
    let pipe' := pipe.put (bytes.take pipe.room)
    let w := if toErrors then { w with errors := pipe' } else { w with output := pipe' }
    some (w, { r with emitting := some (toErrors, bytes.drop pipe.room) })

/-- The script is over. The kernel reads on until its input ends and exits then, unless it is to
stay or has closed its input itself. -/
def epilogue (w : Wires) (r : Rehearsal) : Option (Wires × Rehearsal) :=
  if r.inputClosed then none
  else
    match takeLine w r with
    | .line w r | .part w r => some (w, r)
    | .nothing => none
    | .ended => if r.directions.ignoreEnd then none else some (finish w r)

/-- The next action of the script. -/
def perform (w : Wires) (r : Rehearsal) : List Action → Option (Wires × Rehearsal)
  | [] => epilogue w r
  | .out bytes :: rest => some (w, { r with script := rest, emitting := some (false, bytes) })
  | .err bytes :: rest => some (w, { r with script := rest, emitting := some (true, bytes) })
  | .sleep ms :: rest => some (w, { r with script := rest, wakeAt := some (w.now + ms) })
  | .read :: rest =>
    match takeLine w r with
    | .line w r => some (w, { r with script := rest })
    | .part w r => some (w, r)
    | .nothing => none
    | .ended => some (w, { r with script := [] })
  | .closeIn :: rest =>
    some ({ w with input := w.input.closeReading }, { r with script := rest, inputClosed := true })
  | .closeOut :: rest =>
    some ({ w with output := w.output.closeWriting }, { r with script := rest })
  | .closeErr :: rest =>
    some ({ w with errors := w.errors.closeWriting }, { r with script := rest })
  | .exit :: _ => some (finish w r)

/-- The next thing that the kernel does. -/
def act (w : Wires) (r : Rehearsal) : Option (Wires × Rehearsal) :=
  if r.ended then none
  else if r.exitAt.any (· ≤ w.now) then some (finish w r)
  else
    match r.emitting, r.wakeAt with
    | some (toErrors, bytes), _ => emit w r toErrors bytes
    | none, some t => if t ≤ w.now then some (w, { r with wakeAt := none }) else none
    | none, none => perform w r r.script

/-- The instants at which the kernel goes on. -/
def dues (r : Rehearsal) : List Nat := if r.ended then [] else r.wakeAt.toList ++ r.exitAt

/-! ## The manager -/

/-- Begins a command. -/
def start (now : Nat) (c : Control.Command) (s : Wires × Rehearsal) : Wires × Rehearsal :=
  let (w, r) := s
  match c with
  | .currentPid => (w, r)
  | .findDescendants pid => (w, r.note (.findDescendants pid))
  | .requestStop =>
    let r := r.note .requestStop
    (w, { r with exitAt := r.exitAt ++ (r.directions.exitAfterStop.map (now + ·)).toList })
  | .wait _ => (w, r.note .wait)
  | .forceKill => finish w { (r.note .forceKill).note .kill with pid := none }
  | .stopPid pid => (w, r.note (.stopPid pid))
  | .cleanup => (w, r.note .cleanup)

/-- The answer to a command. -/
def look (since now : Nat) (c : Control.Command) (s : Wires × Rehearsal) :
    Option c.Answer × Wires × Rehearsal :=
  let (w, r) := s
  match c with
  | .currentPid => (some r.pid, w, r)
  | .findDescendants _ => (some r.directions.children, w, r)
  | .requestStop => (some r.directions.graceful, w, r)
  | .wait limit =>
    match r.directions.waitError with
    | some cause => (some (.failed cause), w, r)
    | none =>
      if r.ended then (some (.left .terminated), w, { r with pid := none })
      else if limit.any (since + · ≤ now) then (some .timedOut, w, r)
      else (none, w, r)
  | .forceKill => (some r.directions.force, w, r)
  | .stopPid pid => (some ((r.directions.outcomes.lookup pid).getD .success), w, r)
  | .cleanup =>
    match r.directions.cleanupError with
    | some cause => (some (.error cause), w, r)
    | none => (some (.ok ()), w, r)

/-- The instants at which the answer to a command may come. -/
def commandDues (since _now : Nat) : Control.Command → List Nat
  | .wait (some limit) => [since + limit]
  | _ => []

/-! ## The surroundings of a launch -/

/-- Makes a new file. -/
def createFile (suffix : String) (r : Rehearsal) : Except StreamFault (List UInt8) × Rehearsal :=
  match r.files.create suffix with
  | .ok (path, files) => (.ok path, { r with files := files })
  | .error fault => (.error fault, r)

/-- Writes to a file. -/
def writeFile (path bytes : List UInt8) (r : Rehearsal) : Except StreamFault Unit × Rehearsal :=
  (.ok (), { r with files := r.files.append path bytes })

/-- Creates the process. -/
def spawn (_now : Nat) (program : String) (args : List String) (directory : Option String)
    (env : List (String × String)) (r : Rehearsal) : Except Chain Unit × Rehearsal :=
  let r := r.note .spawn
  let path := Text.Utf8.bytes (args.getLast?.getD "")
  let spawned : Spawned := ⟨program, args, r.files.contents? path, directory, env⟩
  let files := if r.directions.unlinkArtifact then r.files.remove path else r.files
  let r := { r with files := files, spawned := some spawned }
  match r.directions.spawnError with
  | some cause => (.error cause, r)
  | none => (.ok (), r)

/-- The kernel's side of a link. -/
def backend : Backend Rehearsal where
  act := act
  manager := ⟨start, look⟩
  dues := dues
  commandDues := commandDues
  look := fun path r => (r.files.look path).map fun _ => ()
  createFile := createFile
  writeFile := writeFile
  spawn := spawn
  hasPipes := fun r => !r.directions.noPipes
  removeFile := fun path r => { r with files := r.files.remove path }
  isRunning := fun r => !r.ended

end Rehearsal
end KernelLink.Stage

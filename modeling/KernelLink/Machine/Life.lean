import KernelLink.Machine.Basic
import KernelLink.Session.Wires
/-!
# The end of processes

How a process ends, what a signal does to it, and what becomes of its streams and its children.

Main definitions:
* `World.finish`: a process ends.
* `World.deliver`, `World.deliverGroup`: a signal comes.
* `World.close`: the ends of pipes that nobody holds are closed.
* `Reading`, `World.pipeOf?`, `World.putPipe`: streams and the pipes behind them.
-/
namespace KernelLink.Machine

open Control (Pid Status)
open Host (Pipe)
open Session (Wires)

namespace World

/-- Hands the children of a process to the first process, which asks at once for those that have
ended. -/
def orphan (m : World) (parent : Pid) : World :=
  { m with
    procs := (m.procs.filter fun p => !(p.parent == parent && p.status.isSome)).map fun p =>
      if p.parent == parent then { p with parent := firstPid } else p }

/-- A process ends. It stays in the table until its parent asks for it. -/
def finish (m : World) (pid : Pid) (status : Status) : World :=
  let m := m.update pid fun p =>
    { p with status := some status, effects := [], wakeAt := none, work := .nothing }
  let m := m.orphan pid
  match m.find? pid with
  | some p => if p.parent == firstPid then m.remove pid else m
  | none => m

/-- Does a shell have arrangements for a signal? -/
def catches (p : Proc) (s : Signal) : Bool :=
  match p.work with
  | .shell shell => (shell.traps.lookup s).isSome
  | _ => false

/-- A signal comes to a process that is there; it may have ended already. -/
def receive (m : World) (p : Proc) (s : Signal) : World :=
  if p.status.isSome then m
  else if s == Signal.kill then m.finish p.pid (.signal s)
  else if p.ignored.contains s then m
  else if catches p s then
    m.updateShell p.pid fun shell => { shell with caught := shell.caught ++ [s] }
  else if Signal.endsProcess s then m.finish p.pid (.signal s)
  else m

/-- Sends a signal to a process; `false` if there is none. -/
def deliver (m : World) (pid : Pid) (s : Signal) : Bool × World :=
  match m.find? pid with
  | none => (false, m)
  | some p => (true, m.receive p s)

/-- Sends a signal to all processes of a group; `false` if there are none. -/
def deliverGroup (m : World) (group : Pid) (s : Signal) : Bool × World :=
  let members := m.procs.filter (·.group == group)
  (!members.isEmpty, members.foldl (fun m p => m.receive p s) m)

/-! ## Streams -/

/-- The pipe behind a stream. -/
def pipeOf? (w : Wires) (m : World) : Stream → Option Pipe
  | .input => some w.input
  | .output => some w.output
  | .errors => some w.errors
  | .pipe n => m.pipe? n
  | .nothing | .closed | .file _ => none

/-- Puts back the pipe behind a stream. -/
def putPipe (w : Wires) (m : World) (stream : Stream) (pipe : Pipe) : Wires × World :=
  match stream with
  | .input => ({ w with input := pipe }, m)
  | .output => ({ w with output := pipe }, m)
  | .errors => ({ w with errors := pipe }, m)
  | .pipe n => (w, m.setPipe n pipe)
  | .nothing | .closed | .file _ => (w, m)

/-- Closes the ends of a pipe inside the machine that nobody holds. -/
def closePipe (m : World) (n : Nat) (pipe : Pipe) : Pipe :=
  let pipe := if m.procs.any (·.writesTo n) then pipe else pipe.closeWriting
  if m.procs.any (·.readsFrom n) then pipe else pipe.closeReading

/-- Closes the ends of pipes that nobody holds. -/
def close (w : Wires) (m : World) : Wires × World :=
  let held (stream : Stream) : Bool := m.procs.any (·.holds stream)
  let w := if held .input then w else { w with input := w.input.closeReading }
  let w := if held .output then w else { w with output := w.output.closeWriting }
  let w := if held .errors then w else { w with errors := w.errors.closeWriting }
  (w, { m with pipes := m.pipes.map fun entry => (entry.1, m.closePipe entry.1 entry.2) })

/-- What becomes of bytes that are written. -/
inductive Written where
  /-- These are still to be written. -/
  | left (bytes : List UInt8) (w : Wires) (m : World)
  /-- They have to wait. -/
  | full
  /-- Nobody reads them. -/
  | broken

/-- Writes as much as can be written now. -/
def write (w : Wires) (m : World) (stream : Stream) (bytes : List UInt8) : Written :=
  match stream with
  | .file path => .left [] w { m with files := m.files.append path bytes }
  | stream =>
    match pipeOf? w m stream with
    | none => .left [] w m
    | some pipe =>
      if bytes.isEmpty then .left [] w m
      else if !pipe.reading then .broken
      else if pipe.room = 0 then .full
      else
        let (w, m) := putPipe w m stream (pipe.put (bytes.take pipe.room))
        .left (bytes.drop pipe.room) w m

/-- What reading gives. -/
inductive Taken where
  /-- Some bytes. -/
  | data (bytes : List UInt8) (w : Wires) (m : World)
  /-- Nothing yet. -/
  | nothing
  /-- There is no more. -/
  | ended

/-- Reads what is there. -/
def read (w : Wires) (m : World) (stream : Stream) : Taken :=
  match pipeOf? w m stream with
  | none => .ended
  | some pipe =>
    if !pipe.bytes.isEmpty then
      let (w, m) := putPipe w m stream { pipe with bytes := [] }
      .data pipe.bytes w m
    else if pipe.writing then .nothing
    else .ended

/-- Reads up to the end of a line, or as much of one as is there. -/
def readLine (w : Wires) (m : World) (stream : Stream) : Taken :=
  match read w m stream with
  | .data bytes w m =>
    match bytes.span (· != 10) with
    | (line, nl :: rest) =>
      match pipeOf? w m stream with
      | some pipe =>
        let (w, m) := putPipe w m stream { pipe with bytes := rest }
        .data (line ++ [nl]) w m
      | none => .data bytes w m
    | _ => .data bytes w m
  | other => other

end World
end KernelLink.Machine

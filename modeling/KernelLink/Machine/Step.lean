import KernelLink.Machine.ShellStep
/-!
# One step of a machine

What one process does next, if it can do anything at this instant: something that it was about to
do, or the next thing in its work. A process that waits for time, for bytes or for another process
does nothing.

Main definitions:
* `World.step`: the next thing that a process does.
* `World.act`: the first process that can do something does it.
-/
namespace KernelLink.Machine

open Control (Pid)
open Session (Wires)

/-- What a process does that writes where nobody reads. -/
def World.brokenPipe (m : World) (p : Proc) (toErrors : Bool) : World :=
  match p.work with
  | .kernel .. =>
    let effects : List Effect :=
      if toErrors then [.exit Mock.brokenOff]
      else
        [.complain ("Error: Os \x7b code: 32, kind: BrokenPipe, message: \"Broken pipe\" \x7d"),
          .exit 1]
    m.update p.pid fun q => { q with effects := effects, work := .nothing }
  | _ =>
    if p.ignored.contains Signal.brokenPipe then
      m.update p.pid fun q => { q with effects := q.effects.drop 1 }
    else m.receive p Signal.brokenPipe

/-- The next thing that a process does. -/
def World.step (w : Wires) (m : World) (p : Proc) : Option (Wires × World) :=
  if p.status.isSome then none
  else
    match p.effects with
    | .write toErrors bytes :: rest =>
      let stream := if toErrors then p.streams.errors else p.streams.output
      match m.write w stream bytes with
      | .left [] w m => some (w, m.update p.pid fun q => { q with effects := rest })
      | .left bytes w m =>
        some (w, m.update p.pid fun q => { q with effects := .write toErrors bytes :: rest })
      | .full => none
      | .broken => some (w, m.brokenPipe p toErrors)
    | .sleep ms :: rest =>
      match p.wakeAt with
      | none => some (w, m.update p.pid fun q => { q with wakeAt := some (w.now + ms) })
      | some t =>
        if t ≤ w.now then
          some (w, m.update p.pid fun q => { q with wakeAt := none, effects := rest })
        else none
    | .copy :: rest =>
      match m.read w p.streams.input with
      | .data bytes w m =>
        some (w, m.update p.pid fun q => { q with effects := .write false bytes :: .copy :: rest })
      | .nothing => none
      | .ended => some (w, m.update p.pid fun q => { q with effects := rest })
    | .exit code :: _ => some (w, m.finish p.pid (.code code))
    | [] =>
      match p.work with
      | .nothing => some (w, m.finish p.pid (.code 0))
      | .kernel artifact store =>
        let serve (line : Host.Delivery) (w : Wires) (m : World) : Wires × World :=
          let (effects, store) := Mock.onLine (m.files.holds artifact) store line
          let effects := effects.map Effect.ofKernel
          (w, m.update p.pid fun q => { q with effects := effects, work := .kernel artifact store })
        match World.pipeOf? w m p.streams.input with
        | none => some (serve .ended w m)
        | some pipe =>
          match pipe.nextLine? with
          | none => pipe.fill?.map fun pipe => World.putPipe w m p.streams.input pipe
          | some (line, pipe) =>
            let (w, m) := World.putPipe w m p.streams.input pipe
            some (serve line w m)
      | .shell s => m.shellStep w p s

/-- The first process that can do something does it. -/
def World.actFirst (w : Wires) (m : World) : List Proc → Option (Wires × World)
  | [] => none
  | p :: rest =>
    match m.step w p with
    | some (w, m) => some (m.close w)
    | none => m.actFirst w rest

/-- Some process does something. -/
def World.act (w : Wires) (m : World) : Option (Wires × World) := m.actFirst w m.procs

/-- The instants at which processes go on. -/
def World.dues (m : World) : List Nat := m.procs.filterMap (·.wakeAt)

end KernelLink.Machine

import KernelLink.Session.Client
import KernelLink.Stage.Rehearsal
/-!
# Rehearsing a whole conversation

A play is a launch with a rehearsed kernel, followed by steps.

Main definitions:
* `Ask`: what a step asks for.
* `Answer`, `Taken`: what a step gives, when, and what was noted meanwhile.
* `Play.launch`, `Play.steps`: the rehearsal.
-/
namespace KernelLink.Stage

open Session (Client Scene Hello)

/-- What a step asks for. -/
inductive Ask where
  /-- A call whose reply is read as what the operation promises. -/
  | call (request : Request)
  /-- A request whose payload is left as it is. -/
  | request (request : Request)
  /-- A request that cannot be read. Nothing is done. -/
  | malformed (cause : Json.ReadError)
  /-- Closing. -/
  | close
  /-- Time. -/
  | sleep (ms : Nat)
  /-- Is the kernel running? -/
  | isRunning
  /-- How many lines has the kernel read? -/
  | received
  /-- What is known of the kernel. -/
  | info
  deriving Repr, DecidableEq

/-- What a step gives. -/
inductive Answer where
  /-- Nothing. -/
  | nothing
  /-- A reply. -/
  | replied (result : Except LinkError Reply)
  /-- A payload. -/
  | payload (result : Session.Result)
  /-- The request cannot be read. -/
  | malformed (cause : Json.ReadError)
  /-- The link is closed. -/
  | closed (result : Except LinkError Unit)
  /-- Whether the kernel is running. -/
  | running (yes : Bool)
  /-- How many lines the kernel has read. -/
  | received (count : Nat)
  /-- What is known of the kernel. -/
  | info (hello : Hello) (pid : Option Control.Pid)
  /-- It will never be finished. -/
  | never

/-- Something that was asked for. -/
inductive Job where
  /-- A call. -/
  | call (task : Nat) (api : Api)
  /-- A request. -/
  | request (task : Nat)
  /-- Closing. -/
  | close (task : Nat)
  /-- Time. -/
  | timer (endsAt : Nat)
  /-- It was answered at once. -/
  | answered (answer : Answer)

/-- A step's answer, how long it took, and what was noted meanwhile. -/
structure Taken where
  /-- The answer. -/
  answer : Answer
  /-- How long it took. -/
  ms : Nat
  /-- What was noted. -/
  notes : List Note

/-- A rehearsal after the launch, and what is under way in the background. -/
structure Play where
  /-- The launched link. -/
  client : Client Rehearsal
  /-- What was asked in the background. -/
  jobs : List (String × Job)
  /-- How many pauses there were since the clock last moved. -/
  pauses : Nat

namespace Play

/-- The pauses that a launch is worth. -/
def pausesOfLaunch : Nat := 3

/-- A pause: everything that can be done is done, and the clock moves if it is time. -/
def pause (p : Play) : Play :=
  let p := { p with client := p.client.settle Rehearsal.backend, pauses := p.pauses + 1 }
  if p.pauses < pausesPerMillisecond then p else { p with client := p.client.skip 1, pauses := 0 }

/-- Something is asked for. -/
def begin (c : Client Rehearsal) : Ask → Client Rehearsal × Job
  | .call r => let (c, id) := c.beginCall r; (c, .call id r.api)
  | .request r => let (c, id) := c.beginCall r; (c, .request id)
  | .malformed cause => (c, .answered (.malformed cause))
  | .close => let (c, id) := c.beginClose; (c, .close id)
  | .sleep ms => (c, .timer (c.now + ms))
  | .isRunning => (c, .answered (.running (c.isRunning Rehearsal.backend)))
  | .received => (c, .answered (.received c.scene.side.received.length))
  | .info => (c, .answered (.info c.hello c.pid))

/-- The answer to something that was asked for, once there is one. -/
def answer? (c : Client Rehearsal) : Job → Option Answer
  | .call id api => (c.scene.world.callResult? id).map fun r => .replied (Reply.ofResult api r)
  | .request id => (c.scene.world.callResult? id).map .payload
  | .close id => (c.scene.world.closeResult? id).map .closed
  | .timer endsAt => if endsAt ≤ c.now then some .nothing else none
  | .answered answer => some answer

/-- Waits for the answer. -/
def await (c : Client Rehearsal) (job : Job) : Answer × Client Rehearsal :=
  let c :=
    match job with
    | .call id _ | .request id | .close id => c.await Rehearsal.backend id
    | .timer endsAt => c.sleep Rehearsal.backend (endsAt - c.now)
    | .answered _ => c
  ((answer? c job).getD .never, c)

/-- Takes a step. -/
def step (p : Play) (s : Step Ask) : Play × Taken :=
  let before := p.client.scene.side.notes.length
  let began := p.client.now
  let (p, answer) : Play × Answer :=
    match s with
    | .wait ask =>
      let (client, job) := begin p.client ask
      let (answer, client) := await client job
      ({ p with client := client }, answer)
    | .start name ask =>
      let (client, job) := begin p.client ask
      (pause { p with client := client, jobs := (name, job) :: p.jobs }, .nothing)
    | .join name =>
      match p.jobs.lookup name with
      | none => (p, .never)
      | some job =>
        let (answer, client) := await p.client job
        ({ p with client := client }, answer)
  let p := if began < p.client.now then { p with pauses := 0 } else p
  let notes := p.client.scene.side.notes
  (p, ⟨answer, p.client.now - began, (notes.take (notes.length - before)).reverse⟩)

/-- Takes steps. -/
def steps (p : Play) : List (Step Ask) → Play × List Taken
  | [] => (p, [])
  | s :: rest =>
    let (p, taken) := p.step s
    let (p, others) := p.steps rest
    (p, taken :: others)

end Play

/-- What became of a rehearsal. -/
structure Performed where
  /-- How the launch ended. -/
  launched : Except LinkError Unit
  /-- How long it took. -/
  ms : Nat
  /-- What was noted meanwhile. -/
  notes : List Note
  /-- The rehearsal right after the launch. -/
  atLaunch : Rehearsal
  /-- What the steps gave. -/
  steps : List Taken
  /-- The rehearsal at the end. -/
  atEnd : Rehearsal

/-- Rehearses a launch and steps. -/
def perform (c : LaunchConfig) (r : Rehearsal) (steps : List (Step Ask)) : Performed :=
  let (launched, wires, side) := Client.launch? Rehearsal.backend c 0 r
  let notes := side.notes.reverse
  match launched with
  | .error e => ⟨.error e, wires.now, notes, side, [], side⟩
  | .ok client =>
    let pauses := if wires.now = 0 then Play.pausesOfLaunch else 0
    let (play, taken) := Play.steps ⟨client, [], pauses⟩ steps
    ⟨.ok (), wires.now, notes, side, taken, play.client.scene.side⟩

end KernelLink.Stage

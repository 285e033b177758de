import KernelLink.Shared.Kernel
import KernelLink.Stage.Rehearsal
/-!
# Rehearsing a shared kernel

A shared kernel whose start and whose replies follow a script, played out in virtual time: code
takes no time, everything that can be done at an instant is done then, in the order in which the
operations began, and the clock moves straight to the next instant at which something comes.

Main definitions:
* `Sharing.Script`: how the kernel starts, replies and closes.
* `Sharing.Scene`: the sharing, the clock, and what is on its way.
* `Sharing.Scene.step`: one step of a rehearsal.
-/
namespace KernelLink.Stage.Sharing

open Shared (World Deed Event)

/-- How the kernel starts and closes. -/
structure Script where
  /-- How long a start takes. -/
  startDelay : Nat
  /-- The start fails. -/
  startError : Option LinkError
  /-- The version of the kernel. -/
  version : String
  /-- Closing fails. -/
  closeError : Option LinkError

/-- A reply, with the time that it takes. -/
structure Cue where
  /-- How long it takes. -/
  delay : Nat
  /-- The reply. -/
  result : Except LinkError Json

/-- What a step asks for. -/
inductive Ask where
  /-- An operation. -/
  | deed (deed : Deed)
  /-- A request that cannot be read. Nothing is done. -/
  | malformed (cause : Json.ReadError)
  /-- Time. -/
  | sleep (ms : Nat)
  /-- Is a kernel there? -/
  | isStarted

/-- What a step gives. -/
inductive Answer where
  /-- Nothing. -/
  | nothing
  /-- The result of an operation. -/
  | result (result : Shared.Result)
  /-- The request cannot be read. -/
  | malformed (cause : Json.ReadError)
  /-- Whether a kernel is there. -/
  | started (yes : Bool)
  /-- It will never be finished. -/
  | never

/-- Something that was asked for. -/
inductive Job where
  /-- An operation. -/
  | task (id : Nat)
  /-- Time. -/
  | timer (endsAt : Nat)
  /-- It was answered at once. -/
  | answered (answer : Answer)

/-- Something on its way to an operation. -/
structure Coming where
  /-- When it comes. -/
  instant : Nat
  /-- The operation. -/
  id : Nat
  /-- What comes. -/
  event : Event

/-- The sharing in time. -/
structure Scene where
  /-- The script. -/
  script : Script
  /-- The clock. -/
  now : Nat
  /-- The sharing. -/
  world : World
  /-- The replies still to be given. -/
  cues : List Cue
  /-- What is on its way. -/
  coming : List Coming
  /-- What was asked in the background. -/
  jobs : List (String × Job)
  /-- The number of the next operation. -/
  next : Nat
  /-- How many pauses there were since the clock last moved. -/
  pauses : Nat

namespace Scene

/-- Before anything has happened. -/
def new (script : Script) (cues : List Cue) : Scene := ⟨script, 0, .new, cues, [], [], 0, 0⟩

/-- With something on its way. -/
def expect (s : Scene) (delay id : Nat) (event : Event) : Scene :=
  { s with coming := s.coming ++ [⟨s.now + delay, id, event⟩] }

/-- The surroundings react to the stage that an operation has reached. -/
def react (s : Scene) (id : Nat) : Scene :=
  match s.world.task? id with
  | some ⟨_, .starting⟩ =>
    let result : Except LinkError String :=
      match s.script.startError with
      | some e => .error e
      | none => .ok s.script.version
    s.expect s.script.startDelay id (.started id result)
  | some ⟨_, .asking _⟩ =>
    match s.cues with
    | [] => s.expect 0 id (.replied id (.error .noResponse))
    | cue :: cues => { s with cues := cues }.expect cue.delay id (.replied id cue.result)
  | some ⟨_, .closing _⟩ =>
    let result : Except LinkError Unit :=
      match s.script.closeError with
      | some e => .error e
      | none => .ok ()
    s.expect 0 id (.ended id result)
  | _ => s

/-- One operation does one thing: it takes what has come for it, or is polled. -/
def advance (s : Scene) (id : Nat) : Option Scene :=
  match s.coming.find? fun c => c.id == id && c.instant ≤ s.now with
  | some c =>
    some { s with
      world := s.world.apply c.event
      coming := s.coming.filter fun other => !(other.id == id) }
  | none => (s.world.poll id).map fun w => { s with world := w }.react id

/-- The first operation that can do something does it. -/
def advanceFirst (s : Scene) : List Nat → Option Scene
  | [] => none
  | id :: ids => (s.advance id).or (s.advanceFirst ids)

/-- How many things are done at one instant, or how often the clock is moved, before the rehearsal
is given up. -/
def patience : Nat := 100000

/-- Everything that can be done at this instant is done. -/
def settle : (fuel : Nat) → Scene → Scene
  | 0, s => s
  | fuel + 1, s =>
    match s.advanceFirst (s.world.tasks.map (·.1)) with
    | some s => settle fuel s
    | none => s

/-- The next instant at which something comes, or the given one if it is earlier. -/
def due (s : Scene) (other : Option Nat) : Option Nat :=
  ((other.toList ++ s.coming.map (·.instant)).filter (s.now < ·)).min?

/-- Plays on until an operation is finished. -/
def playUntil (id : Nat) : (fuel : Nat) → Scene → Scene
  | 0, s => s
  | fuel + 1, s =>
    let s := s.settle patience
    if (s.world.result? id).isSome then s
    else
      match s.due none with
      | some t => playUntil id fuel { s with now := t }
      | none => s

/-- Lets time pass up to an instant. What is due then is still to be done. -/
def playTo (target : Nat) : (fuel : Nat) → Scene → Scene
  | 0, s => s
  | fuel + 1, s =>
    if target ≤ s.now then s
    else
      let s := s.settle patience
      match s.due (some target) with
      | some t => playTo target fuel { s with now := t }
      | none => s

/-- Something is asked for. -/
def begin (s : Scene) : Ask → Scene × Job
  | .deed deed => ({ s with world := s.world.begin s.next deed, next := s.next + 1 }, .task s.next)
  | .malformed cause => (s, .answered (.malformed cause))
  | .sleep ms => (s, .timer (s.now + ms))
  | .isStarted => (s, .answered (.started s.world.isStarted))

/-- Waits for the answer. -/
def await (s : Scene) : Job → Answer × Scene
  | .task id =>
    let s := playUntil id patience s
    (((s.world.result? id).map .result).getD .never, s)
  | .timer endsAt => (.nothing, playTo endsAt patience s)
  | .answered answer => (answer, s)

/-- A pause: everything that can be done is done, and the clock moves if it is time. -/
def pause (s : Scene) : Scene :=
  let s := { s.settle patience with pauses := s.pauses + 1 }
  if s.pauses < pausesPerMillisecond then s else { s with now := s.now + 1, pauses := 0 }

/-- Takes a step; gives the answer and how long it took. -/
def step (s : Scene) (step : Step Ask) : Scene × Answer × Nat :=
  let began := s.now
  let (s, answer) : Scene × Answer :=
    match step with
    | .wait ask =>
      let (s, job) := s.begin ask
      let (answer, s) := s.await job
      (s, answer)
    | .start name ask =>
      let (s, job) := s.begin ask
      (pause { s with jobs := (name, job) :: s.jobs }, .nothing)
    | .join name =>
      match s.jobs.lookup name with
      | none => (s, .never)
      | some job =>
        let (answer, s) := s.await job
        (s, answer)
  ({ s with pauses := if began < s.now then 0 else s.pauses }, answer, s.now - began)

end Scene
end KernelLink.Stage.Sharing

import KernelLink.Session.Launch
/-!
# Playing a conversation out in virtual time

The machines of the link say what can happen; here one schedule is chosen. Code takes no time: at
every instant everything that can be done is done, the kernel's side first, then the background
reader, then the tasks in the order in which they began. Only then does the clock move, straight to
the next instant at which something is due.

The other side of a link, a kernel with the manager of its process, is a `Backend`. The engine knows
nothing else of it, so that a kernel that plays a script and one that is a program among others are
played out alike.

Main definitions:
* `Backend`: the other side.
* `Scene`, `Scene.settle`, `Scene.runUntil`: a link with its other side in time.
* `runPlan`: a plan of process control in time.
* `runLaunch`: a launch in time.
-/
namespace KernelLink.Session

open Control (Routine)
open Plan (nextDue patience)

/-- The other side of a link: a kernel and the manager of its process. -/
structure Backend (σ : Type) where
  /-- The next thing that the kernel does at this instant. -/
  act : Wires → σ → Option (Wires × σ)
  /-- The manager of the process. -/
  manager : Control.Manager (Wires × σ)
  /-- The instants at which the kernel may go on. -/
  dues : σ → List Nat
  /-- The instants at which the answer to a command begun at `since` may come. -/
  commandDues : (since now : Nat) → Control.Command → List Nat
  /-- Is there anything at a path? -/
  look : (path : List UInt8) → σ → Except StreamFault Unit
  /-- Makes a new file whose name ends in `suffix`. -/
  createFile : (suffix : String) → σ → Except StreamFault (List UInt8) × σ
  /-- Writes to a file. -/
  writeFile : (path bytes : List UInt8) → σ → Except StreamFault Unit × σ
  /-- Creates the process. -/
  spawn : (now : Nat) → (program : String) → (args : List String) → (directory : Option String) →
    (env : List (String × String)) → σ → Except Chain Unit × σ
  /-- Does the process come with its pipes? -/
  hasPipes : σ → Bool
  /-- Removes a file. -/
  removeFile : (path : List UInt8) → σ → σ
  /-- Is the process running? -/
  isRunning : σ → Bool

variable {σ : Type}

/-- The kernel's side and the background reader do one thing. -/
def actOnce (b : Backend σ) (s : Wires × σ) : Option (Wires × σ) :=
  match b.act s.1 s.2 with
  | some s => some s
  | none => s.1.captureStep.map fun w => (w, s.2)

/-- The kernel's side and the background reader do all they can. -/
def actAll (b : Backend σ) : (fuel : Nat) → Wires × σ → Wires × σ
  | 0, s => s
  | fuel + 1, s =>
    match actOnce b s with
    | some s => actAll b fuel s
    | none => s

/-- Moves the clock. -/
def moveTo (now : Nat) (w : Wires) : Wires := { w with now := now }

/-! ## Plans of process control -/

/-- How plans of process control are carried out in time. -/
def clockwork (b : Backend σ) : Plan.Clockwork Control.Command.Answer (Wires × σ) where
  agent := b.manager
  settle := actAll b patience
  now := fun s => s.1.now
  moveTo := fun t s => (moveTo t s.1, s.2)
  dues := fun since c s => b.commandDues since s.1.now c ++ b.dues s.2

/-- Carries a plan out in time. -/
def runPlan {α : Type} (b : Backend σ) (plan : Routine α) (s : Wires × σ) : Option α × Wires × σ :=
  plan.runIn (clockwork b) s

/-! ## Launching -/

/-- The instants at which the waiting for a greeting may go on. -/
def greetingDues : Handshake.Stage → List Nat
  | .listening deadline => [deadline]
  | .leaving deadline endsAt => [deadline, endsAt]
  | .finished _ => []

/-- Waits for the greeting. -/
def greet (b : Backend σ) (timing : Timing) :
    (fuel : Nat) → Handshake.Stage → Wires × σ → Except LinkError Hello × Wires × σ
  | 0, _, s => (.error (Handshake.tooLate timing), s)
  | fuel + 1, stage, s =>
    let s := actAll b patience s
    match stage with
    | .finished result => (result, s)
    | stage =>
      match Handshake.poll timing s.1 stage with
      | some (stage, w) => greet b timing fuel stage (w, s.2)
      | none =>
        match nextDue s.1.now (greetingDues stage ++ b.dues s.2) with
        | some t => greet b timing fuel stage (moveTo t s.1, s.2)
        | none => (.error (Handshake.tooLate timing), s)

/-- What one command of a launch does. -/
def answerLaunch (b : Backend σ) (timing : Timing) (c : Launch.Command) (s : Wires × σ) :
    c.Answer × Wires × σ :=
  match c with
  | .look path => (b.look path s.2, s)
  | .createFile suffix =>
    let (path, side) := b.createFile suffix s.2
    (path, s.1, side)
  | .writeFile path bytes =>
    let (result, side) := b.writeFile path bytes s.2
    (result, s.1, side)
  | .spawn program args directory env =>
    let (result, side) := b.spawn s.1.now program args directory env s.2
    (result, s.1, side)
  | .openPipes => (b.hasPipes s.2, s)
  | .greet => greet b timing patience (Handshake.begin timing s.1) s
  | .stopCapture => ((), s.1.abortCapture, s.2)
  | .forceKill =>
    match runPlan b (.ask .forceKill .done) s with
    | (some outcome, s) => (outcome, s)
    | (none, s) => (.timedOut, s)
  | .removeFile path => ((), s.1, b.removeFile path s.2)

/-- Carries a launch out. -/
def runLaunch {α : Type} (b : Backend σ) (timing : Timing) :
    Launch.Steps α → Wires × σ → α × Wires × σ
  | .done a, s => (a, s)
  | .ask c next, s =>
    let (answer, s) := answerLaunch b timing c s
    runLaunch b timing (next answer) s

/-! ## A link and its other side -/

/-- A link, its other side, and since when the manager has been busy with what a closing asked. -/
structure Scene (σ : Type) where
  /-- The link. -/
  world : World
  /-- The other side. -/
  side : σ
  /-- When the command under way was begun. -/
  busySince : Option Nat

namespace Scene

/-- The scene with other wires and another side. -/
def withSides (s : Scene σ) (p : Wires × σ) : Scene σ :=
  { s with world := { s.world with wires := p.1 }, side := p.2 }

/-- The manager goes on with what a closing asked: it begins the command, or looks at it. -/
def manage (b : Backend σ) (s : Scene σ) (id : Nat) (c : Control.Command) : Option (Scene σ) :=
  let now := s.world.wires.now
  match s.busySince with
  | none =>
    some { s.withSides (b.manager.start now c (s.world.wires, s.side)) with busySince := some now }
  | some since =>
    match b.manager.look since now c (s.world.wires, s.side) with
    | (some answer, sides) =>
      let s := s.withSides sides
      (s.world.answer id ⟨c, answer⟩).map fun w => { s with world := w, busySince := none }
    | (none, _) => none

/-- One task does one thing. -/
def pollTask (b : Backend σ) (s : Scene σ) (id : Nat) : Option (Scene σ) :=
  match s.world.task? id with
  | some (.close (.stopping (.ask c _))) => s.manage b id c
  | _ => ((s.world.giveUp id).or (s.world.poll id)).map fun w => { s with world := w }

/-- One task does all that it can do without waiting. -/
def advance (b : Backend σ) (id : Nat) : (fuel : Nat) → Scene σ → Scene σ
  | 0, s => s
  | fuel + 1, s =>
    match s.pollTask b id with
    | some s => advance b id fuel s
    | none => s

/-- The first task that can do something does it. -/
def pollFirst (b : Backend σ) (s : Scene σ) : List Nat → Option (Scene σ)
  | [] => none
  | id :: ids => (s.pollTask b id).or (pollFirst b s ids)

/-- One thing is done. -/
def once (b : Backend σ) (s : Scene σ) : Option (Scene σ) :=
  match actOnce b (s.world.wires, s.side) with
  | some sides => some (s.withSides sides)
  | none => s.pollFirst b (s.world.tasks.map (·.1))

/-- Everything that can be done at this instant is done. -/
def settle (b : Backend σ) : (fuel : Nat) → Scene σ → Scene σ
  | 0, s => s
  | fuel + 1, s =>
    match s.once b with
    | some s => settle b fuel s
    | none => s

/-- The instants at which a call may go on. -/
def stageDues : Stage → List Nat
  | .discarding deadline => [deadline]
  | .awaiting deadline none => [deadline]
  | .awaiting deadline (some graceAt) => [deadline, graceAt]
  | .leaving endsAt => [endsAt]
  | .queued | .writing _ | .finished _ => []

/-- The instants at which a task may go on. -/
def taskDues (b : Backend σ) (s : Scene σ) : Task → List Nat
  | .call _ stage => stageDues stage
  | .close (.stopping (.ask c _)) =>
    match s.busySince with
    | some since => b.commandDues since s.world.wires.now c
    | none => []
  | .close _ => []

/-- The next instant at which anything may go on. -/
def due (b : Backend σ) (s : Scene σ) (others : List Nat) : Option Nat :=
  nextDue s.world.wires.now
    (others ++ b.dues s.side ++ s.world.tasks.flatMap fun entry => s.taskDues b entry.2)

/-- Plays until `isOver`, which is looked at whenever all is done that can be done at an instant.
The clock also stops at the instants in `others`. -/
def runUntil (b : Backend σ) (others : List Nat) (isOver : Scene σ → Bool) :
    (fuel : Nat) → Scene σ → Scene σ
  | 0, s => s
  | fuel + 1, s =>
    let s := s.settle b patience
    if isOver s then s
    else
      match s.due b others with
      | some t => runUntil b others isOver fuel (s.withSides (moveTo t s.world.wires, s.side))
      | none => s

end Scene
end KernelLink.Session

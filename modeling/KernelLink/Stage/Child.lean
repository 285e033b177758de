import KernelLink.Machine.Creator
import KernelLink.Platform.Unix
import KernelLink.Platform.Windows
/-!
# A process and its creator

A process of a machine, with its pipes in the hands of its creator, who goes through steps: writing,
reading, waiting, and whatever the manager of a platform can do.

Main definitions:
* `Child.Ask`, `Child.Answer`: the steps and what they give.
* `Child`, `Child.create`, `Child.step`: the process and one step.
-/
namespace KernelLink.Stage

open Control (Pid Outcome Status)
open Host (Pipe)
open Machine (World)
open Plan (patience)
open Session (Wires)

namespace Child

/-- What a step asks for. -/
inductive Ask where
  /-- Take the pipes. -/
  | takePipes
  /-- Write to the process. -/
  | write (bytes : List UInt8)
  /-- Close its input. -/
  | closeInput
  /-- Read a line of its output. -/
  | readLine
  /-- Read all of its error output. -/
  | readErrors
  /-- Does the process have a number? -/
  | pid
  /-- Is it running? -/
  | isRunning
  /-- How did it end, if it has? -/
  | tryWait
  /-- Wait for its end, for a limited time or without a limit. -/
  | wait (limit : Option Nat)
  /-- Kill it. -/
  | kill
  /-- Ask it to leave. -/
  | requestStop
  /-- Have its platform kill it. -/
  | forceKill
  /-- Terminate it for good. -/
  | completely (grace : Nat)
  /-- How many descendants does it have? -/
  | descendants
  /-- Stop its first descendant. -/
  | stopDescendant
  /-- Stop a process by its number. -/
  | stopPid (pid : Pid)
  /-- Terminate a process with all its descendants, the process itself unless another one is
  named. -/
  | tree (pid : Option Pid)
  /-- The name of the platform. -/
  | platform
  /-- Release what the manager holds. -/
  | cleanup
  /-- How was the program called that ends processes? -/
  | killings

/-- What a step gives. -/
inductive Answer where
  /-- Nothing. -/
  | nothing
  /-- Yes or no. -/
  | truth (yes : Bool)
  /-- Some bytes. -/
  | bytes (bytes : List UInt8)
  /-- How the process ended, if it has. -/
  | status (status : Option Status)
  /-- How the process ended, or that waiting failed. -/
  | waited (result : Except Chain Status)
  /-- What termination gave. -/
  | outcome (outcome : Outcome)
  /-- A number. -/
  | count (n : Nat)
  /-- A text. -/
  | text (s : String)
  /-- How a program was called, and by which process it was meant. -/
  | killings (calls : List (List String)) (root : Option Pid)
  /-- It never ends. -/
  | never

end Child

/-- A process of a machine with its creator. -/
structure Child where
  /-- The platform. -/
  platform : Platform.Manager
  /-- The pipes. -/
  wires : Wires
  /-- The machine. -/
  machine : World
  /-- Has the creator its ends of the pipes in hand? -/
  hasPipes : Bool
  /-- Is its end of the input open? -/
  inputOpen : Bool

namespace Child

/-- Creates the process. Nobody reads its error output in the background. -/
def create (platform : Platform.Manager) (machine : World) (program : String) (args : List String)
    (directory : Option String) (env : List (String × String)) : Except Chain Child :=
  match machine.spawn program args directory env with
  | (.error cause, _) => .error cause
  | (.ok (), machine) =>
    let wires := { Wires.new 0 1 with capture := .ended }
    .ok ⟨platform, wires, machine, false, false⟩

/-- The pipes and the machine. -/
def sides (c : Child) : Wires × World := (c.wires, c.machine)

/-- With other pipes and another machine. -/
def withSides (c : Child) (s : Wires × World) : Child := { c with wires := s.1, machine := s.2 }

/-- Everything that the processes can do at this instant. -/
def settle (c : Child) : Child := c.withSides (Machine.settle patience c.sides)

/-- Carries a plan out. -/
def run {α : Type} (c : Child) (plan : Platform.Steps α) (encode : α → Answer) : Child × Answer :=
  let (result, sides) := plan.runIn Machine.clockwork c.sides
  (c.withSides sides, (result.map encode).getD .never)

/-- Carries a routine out on the platform. -/
def routine {α : Type} (c : Child) (r : Control.Routine α) (encode : α → Answer) : Child × Answer :=
  c.run (c.platform.onPlatform r) encode

/-- Lets time pass until `isReady`. -/
def waitUntil (isReady : Child → Bool) : (fuel : Nat) → Child → Option Child
  | 0, _ => none
  | fuel + 1, c =>
    let c := c.settle
    if isReady c then some c
    else
      match Plan.nextDue c.wires.now c.machine.dues with
      | some t => waitUntil isReady fuel (c.withSides (Session.moveTo t c.wires, c.machine))
      | none => none

/-- Writes bytes; `false` if nobody reads them. -/
def write : (fuel : Nat) → List UInt8 → Child → Option Bool × Child
  | 0, _, c => (none, c)
  | fuel + 1, bytes, c =>
    let c := c.settle
    let input := c.wires.input
    if !(c.hasPipes && c.inputOpen && input.reading) then (some false, c)
    else
      let c := { c with wires := { c.wires with input := input.put (bytes.take input.room) } }
      let rest := bytes.drop input.room
      if rest.isEmpty then (some true, c)
      else
        match waitUntil (fun c => 0 < c.wires.input.room || !c.wires.input.reading) patience c with
        | some c => write fuel rest c
        | none => (none, c)

/-- Has a pipe bytes, or no more to come? -/
def hasNews (p : Pipe) : Bool := !p.bytes.isEmpty || !p.writing

/-- Reads a line of the output, with its line end. -/
def readLine : (fuel : Nat) → Child → Option (List UInt8) × Child
  | 0, c => (none, c)
  | fuel + 1, c =>
    let c := c.settle
    let keep (output : Pipe) : Child := { c with wires := { c.wires with output := output } }
    match c.wires.output.takeLine?, c.wires.output.fill? with
    | some (line, output), _ => (some line, keep output)
    | none, some output => readLine fuel (keep output)
    | none, none =>
      match waitUntil (fun c => hasNews c.wires.output) patience c with
      | some c => readLine fuel c
      | none => (none, c)

/-- Reads the error output to its end; `taken` was read before. -/
def readErrors : (fuel : Nat) → (taken : List UInt8) → Child → Option (List UInt8) × Child
  | 0, _, c => (none, c)
  | fuel + 1, taken, c =>
    match waitUntil (fun c => hasNews c.wires.errors) patience c with
    | none => (none, c)
    | some c =>
      let errors := c.wires.errors
      if errors.bytes.isEmpty then (some taken, c)
      else
        let wires := { c.wires with errors := { errors with bytes := [] } }
        readErrors fuel (taken ++ errors.bytes) { c with wires := wires }

/-- An outcome that is found by a plan. -/
def outcome (o : Outcome) : Answer := .outcome o

/-- The first descendant is stopped, if there is one. -/
def stopFirst : Control.Routine (Option Outcome) :=
  .ask .currentPid fun
    | none => .done none
    | some pid =>
      .ask (.findDescendants pid) fun
        | .ok (first :: _) => .ask (.stopPid first) fun outcome => .done (some outcome)
        | _ => .done none

/-- How many descendants there are. -/
def countDescendants : Control.Routine Nat :=
  .ask .currentPid fun
    | none => .done 0
    | some pid =>
      .ask (.findDescendants pid) fun
        | .ok pids => .done pids.length
        | .error _ => .done 0

/-- Takes a step. -/
def step (c : Child) : Ask → Child × Answer
  | .takePipes =>
    let (taken, machine) := c.machine.takePipes
    let c := { c with machine := machine }
    if taken then ({ c with hasPipes := true, inputOpen := true }, .truth true)
    else (c, .truth false)
  | .write bytes =>
    let (result, c) := write patience bytes c
    (c, (result.map .truth).getD .never)
  | .closeInput =>
    if c.inputOpen then
      let wires := { c.wires with input := c.wires.input.closeWriting }
      ({ c with inputOpen := false, wires := wires }, .nothing)
    else (c, .nothing)
  | .readLine =>
    if c.hasPipes then
      let (line, c) := readLine patience c
      (c, (line.map .bytes).getD .never)
    else (c, .bytes [])
  | .readErrors =>
    if c.hasPipes then
      let (bytes, c) := readErrors patience [] c
      (c, (bytes.map .bytes).getD .never)
    else (c, .bytes [])
  | .pid => (c, .truth c.machine.handlePid?.isSome)
  | .isRunning => (c, .truth c.machine.handlePid?.isSome)
  | .tryWait =>
    let c := c.settle
    let (status, machine) := c.machine.reapHandle
    ({ c with machine := machine }, .status status)
  | .wait limit => c.routine (Control.waitForExit limit) .waited
  | .kill => c.run (Platform.call .slay) fun _ => .nothing
  | .requestStop => c.routine (.ask .requestStop .done) outcome
  | .forceKill => c.routine (.ask .forceKill .done) outcome
  | .completely grace => c.routine (Control.terminateCompletely grace) outcome
  | .descendants => c.settle.routine countDescendants .count
  | .stopDescendant =>
    c.settle.routine stopFirst fun
      | some o => .outcome o
      | none => .nothing
  | .stopPid pid => c.run (c.platform.carryOut (.stopPid pid)) outcome
  | .tree (some pid) => c.run (c.platform.terminateTree pid) outcome
  | .tree none =>
    match c.machine.handlePid? with
    | some pid => c.run (c.platform.terminateTree pid) outcome
    | none => (c, .outcome .notFound)
  | .platform => (c, .text c.platform.name)
  | .cleanup => (c, .nothing)
  | .killings => (c, .killings c.machine.killings.reverse (c.machine.handle.map (·.pid)))

end Child
end KernelLink.Stage

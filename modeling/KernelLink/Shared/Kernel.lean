import KernelLink.Wire.Envelope
/-!
# One kernel for many callers

A kernel that is started by whoever needs it first. Everyone else waits for the same start and gets
the same kernel, or the same failure; nothing is tried twice. Closing before the first use takes the
place of the start, so that no kernel is ever started.

The sharing is a machine of small steps, and every step is one of the `Event`s: an operation begins,
an operation is polled, or the surroundings answer one that waits for them. `World.apply` is total;
an event that is not possible changes nothing. A run is a list of events, so a statement about all
runs is one about all interleavings.

Main definitions:
* `Cell`: what is known of the kernel.
* `Deed`, `Stage`, `Task`: the operations and how far one has got.
* `World`, `World.poll`: the state and one poll of an operation.
* `Event`, `World.apply`, `World.run`.
-/
namespace KernelLink.Shared

/-- A started kernel, told apart by the number of its start. -/
structure Started where
  /-- Which start it came from. -/
  number : Nat
  /-- The version that it greeted with. -/
  version : String
  deriving Repr, DecidableEq

/-- A started kernel, or why there is none. -/
abbrev Slot := Except LinkError Started

/-- What is known of the kernel. -/
inductive Cell where
  /-- Nobody has needed it. -/
  | empty
  /-- An operation is starting it. -/
  | starting (id : Nat)
  /-- It is there, or never will be. -/
  | settled (slot : Slot)

/-- An operation. -/
inductive Deed where
  /-- Start the kernel now. -/
  | start
  /-- Its version. -/
  | version
  /-- A call. -/
  | call (request : Request)
  /-- Close. -/
  | close
  deriving Repr, DecidableEq

/-- What an operation gives. -/
inductive Gift where
  /-- Nothing. -/
  | nothing
  /-- The version. -/
  | version (text : String)
  /-- A reply. -/
  | reply (reply : Reply)
  deriving Repr, DecidableEq

/-- The result of an operation. -/
abbrev Result := Except LinkError Gift

/-- How far an operation has got. -/
inductive Stage where
  /-- It has not looked at anything. -/
  | fresh
  /-- It wants the kernel. -/
  | wanting
  /-- It is starting the kernel. -/
  | starting
  /-- It has sent a request to a kernel and waits for the reply. -/
  | asking (kernel : Started)
  /-- It has told a kernel to close and waits for the end. -/
  | closing (kernel : Started)
  /-- It has a result. -/
  | finished (result : Result)

/-- An operation and how far it has got. -/
structure Task where
  /-- The operation. -/
  deed : Deed
  /-- How far it has got. -/
  stage : Stage

/-- The state of the sharing. -/
structure World where
  /-- Has a closing begun? -/
  closed : Bool
  /-- What is known of the kernel. -/
  cell : Cell
  /-- How often a kernel was started. -/
  starts : Nat
  /-- The requests sent, in order, each with the number of the kernel. -/
  asked : List (Nat × Request)
  /-- The kernels that were told to close, in order. -/
  closings : List Nat
  /-- All operations, by the numbers that whoever begins them chooses. -/
  tasks : List (Nat × Task)

namespace World

/-- Before anything has happened. -/
def new : World := ⟨false, .empty, 0, [], [], []⟩

/-- The operation with a number. -/
def task? (w : World) (id : Nat) : Option Task := w.tasks.lookup id

/-- Puts an operation at another stage. -/
def goOn (w : World) (id : Nat) (stage : Stage) : World :=
  { w with
    tasks := w.tasks.map fun entry =>
      if entry.1 = id then (id, { entry.2 with stage := stage }) else entry }

/-- An operation is finished. -/
def finish (w : World) (id : Nat) (result : Result) : World := w.goOn id (.finished result)

/-- The error of an operation that finds no kernel. -/
def failure : LinkError → LinkError
  | .closed => .closed
  | cause => .initialization cause

/-- An operation gets what is known of the kernel. -/
def receive (w : World) (id : Nat) (deed : Deed) (slot : Slot) : World :=
  match deed, slot with
  | .close, .error _ => w.finish id (.ok .nothing)
  | .close, .ok kernel =>
    { w with closings := w.closings ++ [kernel.number] }.goOn id (.closing kernel)
  | _, .error cause => w.finish id (.error (failure cause))
  | .start, .ok _ => w.finish id (.ok .nothing)
  | .version, .ok kernel => w.finish id (.ok (.version kernel.version))
  | .call r, .ok kernel =>
    { w with asked := w.asked ++ [(kernel.number, r)] }.goOn id (.asking kernel)

/-- One poll of an operation that has not looked at anything. -/
def look (w : World) (id : Nat) : Deed → World
  | .close => { w with closed := true }.goOn id .wanting
  | _ => if w.closed then w.finish id (.error .closed) else w.goOn id .wanting

/-- One poll of an operation that wants the kernel; `none` while another one is starting it. The
first one starts it, or settles that there will be none. -/
def want (w : World) (id : Nat) (deed : Deed) : Option World :=
  match w.cell, deed with
  | .settled slot, deed => some (w.receive id deed slot)
  | .starting _, _ => none
  | .empty, .close => some { w with cell := .settled (.error .closed) }
  | .empty, _ =>
    some ({ w with cell := .starting id, starts := w.starts + 1 }.goOn id .starting)

/-- One poll of an operation; `none` if it has to wait on. -/
def poll (w : World) (id : Nat) : Option World :=
  match w.task? id with
  | some ⟨deed, .fresh⟩ => some (w.look id deed)
  | some ⟨deed, .wanting⟩ => w.want id deed
  | _ => none

/-- An operation begins. -/
def begin (w : World) (id : Nat) (deed : Deed) : World :=
  { w with tasks := w.tasks ++ [(id, ⟨deed, .fresh⟩)] }

/-- The start of the kernel ends, with its version or with a failure. -/
def started (w : World) (id : Nat) (result : Except LinkError String) : Option World :=
  match w.cell with
  | .starting starter =>
    if starter = id then
      let slot : Slot := result.map fun version => ⟨w.starts, version⟩
      some ({ w with cell := .settled slot }.goOn id .wanting)
    else none
  | _ => none

/-- The kernel replies to the request of an operation. -/
def replied (w : World) (id : Nat) (result : Except LinkError Json) : Option World :=
  match w.task? id with
  | some ⟨.call r, .asking _⟩ => some (w.finish id ((Reply.ofResult r.api result).map .reply))
  | _ => none

/-- The kernel that an operation told to close has closed. -/
def ended (w : World) (id : Nat) (result : Except LinkError Unit) : Option World :=
  match w.task? id with
  | some ⟨_, .closing _⟩ => some (w.finish id (result.map fun _ => .nothing))
  | _ => none

/-- The result of an operation that is finished. -/
def result? (w : World) (id : Nat) : Option Result :=
  match w.task? id with
  | some ⟨_, .finished result⟩ => some result
  | _ => none

/-- Is a kernel there? -/
def isStarted (w : World) : Bool :=
  match w.cell with
  | .settled (.ok _) => true
  | _ => false

end World

/-! ## Runs -/

/-- What can happen. -/
inductive Event where
  /-- An operation begins. -/
  | begin (id : Nat) (deed : Deed)
  /-- An operation is polled. -/
  | poll (id : Nat)
  /-- The start of the kernel ends. -/
  | started (id : Nat) (result : Except LinkError String)
  /-- The kernel replies. -/
  | replied (id : Nat) (result : Except LinkError Json)
  /-- The kernel has closed. -/
  | ended (id : Nat) (result : Except LinkError Unit)

namespace World

/-- What an event does. An event that is not possible changes nothing. -/
def apply (w : World) : Event → World
  | .begin id deed => if (w.task? id).isSome then w else w.begin id deed
  | .poll id => (w.poll id).getD w
  | .started id result => (w.started id result).getD w
  | .replied id result => (w.replied id result).getD w
  | .ended id result => (w.ended id result).getD w

/-- A run. -/
def run (w : World) (events : List Event) : World := events.foldl apply w

end World
end KernelLink.Shared

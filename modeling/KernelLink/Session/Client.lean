import KernelLink.Session.Engine
/-!
# A launched link, used by one caller after another

A client is a link that has been greeted, in time, with what is known of its kernel. Its operations
begin a task of the link and play the conversation out until the task is finished.

Main definitions:
* `Client`, `Client.launch?`: a launched link.
* `Client.begin`, `Client.finished`: a task and its result.
* `Client.request`, `Client.call`, `Client.close`: one operation played out to its end.
-/
namespace KernelLink.Session

open Plan (patience)

variable {σ : Type}

/-- A launched link. -/
structure Client (σ : Type) where
  /-- The link and its other side, in time. -/
  scene : Scene σ
  /-- The greeting of the kernel. -/
  hello : Hello
  /-- The number of its process when it was created. -/
  pid : Option Control.Pid
  /-- The number of the next task. -/
  next : Nat

namespace Client

/-- Launches a kernel. The sides are given back as well, since a failed launch leaves traces
there. -/
def launch? (b : Backend σ) (c : LaunchConfig) (now : Nat) (side : σ) :
    Except LinkError (Client σ) × Wires × σ :=
  let wires := Wires.new now c.timing.maxStderrBytes
  let (result, wires, side) := runLaunch b c.timing (launch c) (wires, side)
  match result with
  | .error e => (.error e, wires, side)
  | .ok hello =>
    let now := wires.now
    let pid :=
      (b.manager.look now now .currentPid (b.manager.start now .currentPid (wires, side))).1.join
    (.ok ⟨⟨World.new c.timing wires, side, none⟩, hello, pid, 0⟩, wires, side)

/-- The clock. -/
def now (c : Client σ) : Nat := c.scene.world.wires.now

/-- A task begins. -/
def begin (c : Client σ) (f : World → Nat → World) : Client σ × Nat :=
  ({ c with scene := { c.scene with world := f c.scene.world c.next }, next := c.next + 1 }, c.next)

/-- A call begins. -/
def beginCall (c : Client σ) (r : Request) : Client σ × Nat :=
  c.begin fun w id => w.beginCall id (Text.Utf8.bytes r.line)

/-- A closing begins. -/
def beginClose (c : Client σ) : Client σ × Nat := c.begin World.beginClose

/-- Is a task finished? -/
def finished (id : Nat) (s : Scene σ) : Bool :=
  (s.world.callResult? id).isSome || (s.world.closeResult? id).isSome

/-- Plays on until a task is finished. The task comes first: what it can do without waiting is done
before anything else. -/
def await (b : Backend σ) (id : Nat) (c : Client σ) : Client σ :=
  let s := c.scene.advance b id patience
  { c with scene := if finished id s then s else s.runUntil b [] (finished id) patience }

/-- Does everything that can be done at this instant. -/
def settle (b : Backend σ) (c : Client σ) : Client σ :=
  { c with scene := c.scene.settle b patience }

/-- Moves the clock. -/
def skip (ms : Nat) (c : Client σ) : Client σ :=
  let w := c.scene.world.wires
  { c with scene := c.scene.withSides (moveTo (w.now + ms) w, c.scene.side) }

/-- Lets time pass. What is due at the last instant is still to be done then. -/
def sleep (b : Backend σ) (ms : Nat) (c : Client σ) : Client σ :=
  let target := c.now + ms
  let rec go : Nat → Scene σ → Scene σ
    | 0, s => s
    | fuel + 1, s =>
      let s := s.settle b patience
      match s.due b [target] with
      | none => s
      | some t =>
        let s := s.withSides (moveTo t s.world.wires, s.side)
        if target ≤ t then s else go fuel s
  if ms = 0 then c else { c with scene := go patience c.scene }

/-- An untyped request. -/
def request (b : Backend σ) (r : Request) (c : Client σ) : Option Result × Client σ :=
  let (c, id) := c.beginCall r
  let c := c.await b id
  (c.scene.world.callResult? id, c)

/-- A typed call. -/
def call (b : Backend σ) (r : Request) (c : Client σ) :
    Option (Except LinkError Reply) × Client σ :=
  let (result, c) := c.request b r
  (result.map (Reply.ofResult r.api), c)

/-- Closing. -/
def close (b : Backend σ) (c : Client σ) : Option (Except LinkError Unit) × Client σ :=
  let (c, id) := c.beginClose
  let c := c.await b id
  (c.scene.world.closeResult? id, c)

/-- Is the kernel running, as far as the link is concerned? -/
def isRunning (b : Backend σ) (c : Client σ) : Bool :=
  !c.scene.world.closed && c.scene.world.hasProcess && b.isRunning c.scene.side

end Client
end KernelLink.Session

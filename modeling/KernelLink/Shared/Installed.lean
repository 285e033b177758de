import KernelLink.Launch.Config
import KernelLink.Shared.Kernel
/-!
# The one shared kernel of a program

One place for one shared kernel. Whoever installs first wins; everyone who comes later, also in the
middle of an installation, gets what the first one installed, and what the others had prepared is
never used. Preparing a candidate may fail, since it needs threads of its own; such a caller has
installed nothing.

As with one shared kernel, every step is one of the `Event`s, so a statement about all runs is one
about all interleavings. A caller that has got the kernel operates it through the events of
`Shared.World`.

Main definitions:
* `Candidate`: a shared kernel with its configuration.
* `Wish`, `Progress`: what callers want and how far one has got.
* `Place`, `Place.apply`, `Place.run`: the place and its runs.
-/
namespace KernelLink.Shared

/-- A shared kernel with its configuration. -/
structure Candidate where
  /-- How it is launched. -/
  config : LaunchConfig
  /-- What became of it. -/
  world : World

/-- What a caller wants. -/
inductive Wish where
  /-- Install a kernel, or get the one that is installed. -/
  | install (config : LaunchConfig)
  /-- Get the kernel that is installed, if there is one. -/
  | look
  /-- Get the kernel that is installed, or an error. -/
  | demand

/-- How far a caller has got. Kernels are known by their places among the candidates. -/
inductive Progress where
  /-- It has not looked. -/
  | fresh
  /-- It found nothing, and has prepared a candidate. -/
  | prepared (candidate : Nat)
  /-- It has got a kernel. -/
  | got (candidate : Nat)
  /-- There is none. -/
  | nothing
  /-- There is none, and that is an error, or none could be prepared. -/
  | failed (cause : LinkError)
  deriving Repr, DecidableEq

/-- A caller. -/
structure Caller where
  /-- What it wants. -/
  wish : Wish
  /-- How far it has got. -/
  progress : Progress

/-- The place for one shared kernel. -/
structure Place where
  /-- The kernel that is installed. -/
  installed : Option Nat
  /-- All kernels that were ever prepared. -/
  candidates : List Candidate
  /-- All callers, by the numbers that whoever begins them chooses. -/
  callers : List (Nat × Caller)

/-- What can happen. -/
inductive PlaceEvent where
  /-- A caller begins. -/
  | begin (id : Nat) (wish : Wish)
  /-- A caller does the next thing. -/
  | poll (id : Nat)
  /-- A caller finds nothing, and cannot prepare a candidate. -/
  | lack (id : Nat) (fault : StreamFault)
  /-- Something happens to the kernel that a caller has got. -/
  | operate (id : Nat) (event : Event)

/-- The error of a caller that demands a kernel where none is installed. -/
def notInstalled : LinkError := .configuration "global kernel runtime is not initialized"

namespace Place

/-- Nothing is installed. -/
def new : Place := ⟨none, [], []⟩

/-- The caller with a number. -/
def caller? (p : Place) (id : Nat) : Option Caller := p.callers.lookup id

/-- A caller gets on. -/
def goOn (p : Place) (id : Nat) (progress : Progress) : Place :=
  { p with
    callers := p.callers.map fun entry =>
      if entry.1 = id then (id, { entry.2 with progress := progress }) else entry }

/-- What a caller finds that has not looked. -/
def look (p : Place) (id : Nat) (wish : Wish) : Place :=
  match p.installed, wish with
  | some candidate, _ => p.goOn id (.got candidate)
  | none, .look => p.goOn id .nothing
  | none, .demand => p.goOn id (.failed notInstalled)
  | none, .install config =>
    let candidate : Candidate := ⟨config, .new⟩
    { p with candidates := p.candidates ++ [candidate] }.goOn id (.prepared p.candidates.length)

/-- A caller installs its candidate, or gets what was installed before. -/
def install (p : Place) (id candidate : Nat) : Place :=
  let installed := p.installed.getD candidate
  { p with installed := some installed }.goOn id (.got installed)

/-- The next thing that a caller does. -/
def poll (p : Place) (id : Nat) : Place :=
  match p.caller? id with
  | some ⟨wish, .fresh⟩ => p.look id wish
  | some ⟨_, .prepared candidate⟩ => p.install id candidate
  | _ => p

/-- A caller that wants to install a kernel and finds none lacks what a candidate needs. -/
def lack (p : Place) (id : Nat) (fault : StreamFault) : Place :=
  match p.installed, p.caller? id with
  | none, some ⟨.install _, .fresh⟩ => p.goOn id (.failed (.stream fault))
  | _, _ => p

/-- Something happens to a kernel. -/
def operate (p : Place) (candidate : Nat) (event : Event) : Place :=
  { p with
    candidates := p.candidates.modify candidate fun c => { c with world := c.world.apply event } }

/-- What an event does. An event that is not possible changes nothing. -/
def apply (p : Place) : PlaceEvent → Place
  | .begin id wish =>
    if (p.caller? id).isSome then p else { p with callers := p.callers ++ [(id, ⟨wish, .fresh⟩)] }
  | .poll id => p.poll id
  | .lack id fault => p.lack id fault
  | .operate id event =>
    match p.caller? id with
    | some ⟨_, .got candidate⟩ => p.operate candidate event
    | _ => p

/-- A run. -/
def run (p : Place) (events : List PlaceEvent) : Place := events.foldl apply p

/-- A caller comes and goes on until it has what it wanted. -/
def visit (p : Place) (wish : Wish) : Option Progress × Place :=
  let id := p.callers.length
  let p := p.run [.begin id wish, .poll id, .poll id]
  ((p.caller? id).map (·.progress), p)

end Place
end KernelLink.Shared

import KernelLink.Session.Client
import KernelLink.Shared.Kernel
/-!
# A shared kernel used by one caller after another

The sharing with a real kernel behind it, which is launched when the sharing starts it. Each
operation is played out to its end before the next one begins.

Main definitions:
* `Series`: the sharing, its configuration and its kernel.
* `Series.perform`, `Series.sleep`: an operation, and time.
-/
namespace KernelLink.Shared

open Session (Backend Client)

variable {σ : Type}

/-- The kernel behind a sharing. -/
inductive Kernel (σ : Type) where
  /-- It is not running, and this is the other side without it. -/
  | absent (now : Nat) (side : σ)
  /-- It is running, or was. -/
  | present (client : Client σ)

/-- A sharing whose operations come one after another. -/
structure Series (σ : Type) where
  /-- How the kernel is launched. -/
  config : LaunchConfig
  /-- The sharing. -/
  world : World
  /-- The kernel. -/
  kernel : Kernel σ
  /-- The number of the next operation. -/
  next : Nat

namespace Series

/-- Before anything has happened. -/
def new (config : LaunchConfig) (side : σ) : Series σ := ⟨config, .new, .absent 0 side, 0⟩

/-- Something happens to the sharing. -/
def apply (s : Series σ) (event : Event) : Series σ := { s with world := s.world.apply event }

/-- The kernel is launched for an operation. -/
def launch (b : Backend σ) (s : Series σ) (id : Nat) : Series σ :=
  match s.kernel with
  | .present _ => s
  | .absent now side =>
    match Client.launch? b s.config now side with
    | (.ok client, _, _) =>
      { s with kernel := .present client }.apply (.started id (.ok client.hello.version))
    | (.error e, wires, side) =>
      { s with kernel := .absent wires.now side }.apply (.started id (.error e))

/-- The kernel is asked for an operation. -/
def request (b : Backend σ) (s : Series σ) (id : Nat) (r : Request) : Series σ :=
  match s.kernel with
  | .absent .. => s
  | .present client =>
    let (result, client) := client.request b r
    { s with kernel := .present client }.apply (.replied id (result.getD (.error .noResponse)))

/-- The kernel is closed for an operation. -/
def close (b : Backend σ) (s : Series σ) (id : Nat) : Series σ :=
  match s.kernel with
  | .absent .. => s
  | .present client =>
    let (result, client) := client.close b
    { s with kernel := .present client }.apply (.ended id (result.getD (.ok ())))

/-- An operation goes on, or its surroundings do what it waits for. -/
def goOn (b : Backend σ) (s : Series σ) (id : Nat) : Series σ :=
  match s.world.task? id with
  | some ⟨_, .starting⟩ => s.launch b id
  | some ⟨.call r, .asking _⟩ => s.request b id r
  | some ⟨_, .closing _⟩ => s.close b id
  | _ => s.apply (.poll id)

/-- How many steps an operation takes at most. -/
def steps : Nat := 8

/-- Performs an operation; `none` if it never ends. -/
def perform (b : Backend σ) (deed : Deed) (s : Series σ) : Option Result × Series σ :=
  let id := s.next
  let s := { s with next := id + 1 }.apply (.begin id deed)
  let s := (List.range steps).foldl (fun s _ => s.goOn b id) s
  (s.world.result? id, s)

/-- Lets time pass. -/
def sleep (b : Backend σ) (ms : Nat) (s : Series σ) : Series σ :=
  match s.kernel with
  | .absent now side => { s with kernel := .absent (now + ms) side }
  | .present client => { s with kernel := .present (client.sleep b ms) }

end Series
end KernelLink.Shared

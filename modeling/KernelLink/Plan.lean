/-!
# Plans

A plan asks one command at a time and goes on according to the answer. It is a tree, so everything
that may ever be asked is in it; whoever carries out the commands decides the answers and how long
they take.

Main definitions:
* `Plan`: a plan over commands whose answers have a kind each.
* `Plan.bind`, `Plan.refine`: one plan after another, and a plan in other terms.
* `Plan.Runs`: the relation between a plan, the answers it got, and its result.
* `Plan.Progress`, `Plan.carry`: a plan being carried out by someone who answers at once or later.
* `Plan.Clockwork`, `Plan.runIn`: the same in time.
-/
namespace KernelLink

/-- A plan: finished with a result, or asking a command and going on with the answer. -/
inductive Plan {C : Type} (Answer : C → Type) (α : Type) where
  /-- Finished. -/
  | done (result : α)
  /-- Asks, and goes on. -/
  | ask (command : C) (next : Answer command → Plan Answer α)

namespace Plan

variable {C : Type} {Answer : C → Type} {α β σ : Type}

/-- A plan followed by another one that knows its result. -/
def bind : Plan Answer α → (α → Plan Answer β) → Plan Answer β
  | .done a, f => f a
  | .ask c next, f => .ask c fun answer => (next answer).bind f

/-- A plan with each command carried out by a plan over other commands. -/
def refine {C' : Type} {Answer' : C' → Type} (f : (c : C) → Plan Answer' (Answer c)) :
    Plan Answer α → Plan Answer' α
  | .done a => .done a
  | .ask c next => (f c).bind fun answer => (next answer).refine f

/-- A command with its answer. -/
structure Exchange (Answer : C → Type) where
  /-- What was asked. -/
  command : C
  /-- What was answered. -/
  answer : Answer command

/-- The relation `Runs p es a`: when the commands of `p` get the answers in `es`, these are all it
asks, and its result is `a`. -/
inductive Runs : Plan Answer α → List (Exchange Answer) → α → Prop where
  /-- A finished plan asks nothing. -/
  | done (a : α) : Runs (.done a) [] a
  /-- A plan that asks goes on with the answer. -/
  | ask {c : C} {next : Answer c → Plan Answer α} {answer : Answer c}
      {es : List (Exchange Answer)} {a : α} (rest : Runs (next answer) es a) :
      Runs (.ask c next) (⟨c, answer⟩ :: es) a

/-! ## Carrying a plan out -/

/-- Someone who carries out commands on a state. A command is begun, and then looked at again and
again until it has an answer. -/
structure Agent {C : Type} (Answer : C → Type) (σ : Type) where
  /-- Begins a command. -/
  start : (now : Nat) → (c : C) → σ → σ
  /-- The answer to a command that was begun at the instant `since`, if it has one yet. -/
  look : (since now : Nat) → (c : C) → σ → Option (Answer c) × σ

/-- How far a plan has been carried out. -/
inductive Progress {C : Type} (Answer : C → Type) (α : Type) where
  /-- It is finished. -/
  | finished (result : α)
  /-- A command has been under way since an instant. -/
  | under (since : Nat) (command : C) (next : Answer command → Plan Answer α)

/-- Carries a plan out as far as it goes without waiting. -/
def carry (agent : Agent Answer σ) (now : Nat) : Plan Answer α → σ → Progress Answer α × σ
  | .done a, s => (.finished a, s)
  | .ask c next, s =>
    match agent.look now now c (agent.start now c s) with
    | (some answer, s) => carry agent now (next answer) s
    | (none, s) => (.under now c next, s)

/-- Looks at the command that is under way; `true` if that led on. -/
def Progress.poll (agent : Agent Answer σ) (now : Nat) :
    Progress Answer α → σ → Progress Answer α × σ × Bool
  | .finished a, s => (.finished a, s, false)
  | .under since c next, s =>
    match agent.look since now c s with
    | (some answer, s) =>
      let (progress, s) := carry agent now (next answer) s
      (progress, s, true)
    | (none, s) => (.under since c next, s, false)

/-- Someone who carries out plans in time: everything that can happen at an instant happens then,
and the clock moves straight to the next instant at which something is due. -/
structure Clockwork {C : Type} (Answer : C → Type) (σ : Type) where
  /-- Who carries out the commands. -/
  agent : Agent Answer σ
  /-- Everything that can happen at this instant happens. -/
  settle : σ → σ
  /-- The clock. -/
  now : σ → Nat
  /-- Moves the clock. -/
  moveTo : Nat → σ → σ
  /-- The instants at which a command begun at `since` may be answered or anything else may
  happen. -/
  dues : (since : Nat) → C → σ → List Nat

/-- The least instant after `now`. -/
def nextDue (now : Nat) (dues : List Nat) : Option Nat := (dues.filter (now < ·)).min?

/-- Carries a plan on until it is finished or can never be. -/
def continueIn (k : Clockwork Answer σ) : (fuel : Nat) → Progress Answer α → σ → Option α × σ
  | 0, _, s => (none, s)
  | fuel + 1, progress, s =>
    let s := k.settle s
    match progress.poll k.agent (k.now s) s with
    | (.finished a, s, _) => (some a, s)
    | (.under since c next, s, true) => continueIn k fuel (.under since c next) s
    | (.under since c next, s, false) =>
      match nextDue (k.now s) (k.dues since c s) with
      | some t => continueIn k fuel (.under since c next) (k.moveTo t s)
      | none => (none, s)

/-- How often the clock is moved before a plan is given up. No plan that ends comes near it. -/
def patience : Nat := 1000000

/-- Carries a plan out in time. -/
def runIn (k : Clockwork Answer σ) (plan : Plan Answer α) (s : σ) : Option α × σ :=
  match plan.carry k.agent (k.now s) s with
  | (.finished a, s) => (some a, s)
  | (progress, s) => continueIn k patience progress s

/-- The result of a plan that is finished. -/
def Progress.result? : Progress Answer α → Option α
  | .finished a => some a
  | .under .. => none

end Plan
end KernelLink

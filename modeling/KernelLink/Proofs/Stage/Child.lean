import KernelLink.Proofs.Machine.Site
import KernelLink.Stage.Child
/-!
# What becomes of the machine of a child

A creator does nothing to the machine of its child but what a machine can go through, and so do the
managers of both platforms for it. The processes of the machine stay in order: whatever was done
before, a search for descendants finds each of them once, and a number that was given out is never
given out again.

Main results:
* `Child.orderly_create`: the machine on which a child has been created.
* `Child.step_leads`, `Child.orderly_steps`: every step, and any number of them.
-/
namespace KernelLink.Stage.Child

open Host (Pipe)
open Machine (World)
open Plan (patience)
open Session (Wires)

variable {c c' : Child}

/-- A child that has been created lives on a machine that is in order. -/
theorem orderly_create {platform : Platform.Manager} {machine : World} {program : String}
    {args : List String} {directory : Option String} {env : List (String × String)}
    (hm : machine.family.Orderly)
    (h : create platform machine program args directory env = .ok c) :
    c.machine.family.Orderly := by
  have hspawned := machine.spawn_becomes program args directory env
  unfold create at h
  generalize machine.spawn program args directory env = spawned at h hspawned
  obtain ⟨result, machine'⟩ := spawned
  cases result with
  | error cause => exact nomatch h
  | ok _ =>
    cases h
    exact hspawned.orderly hm

theorem settle_leads (c : Child) : c.machine.Leads c.settle.machine :=
  fun hc => Machine.settle_becomes hc patience

/-- Carrying out a plan of the platform does what its calls do. -/
theorem run_leads {α : Type} (c : Child) (plan : Platform.Steps α) (encode : α → Answer) :
    c.machine.Leads (c.run plan encode).1.machine :=
  fun hc => (Machine.clockwork_keeps hc).runIn plan (.refl _)

/-- Time passes, and the processes do what they can at each instant: by induction on how often the
clock may still be moved. -/
theorem waitUntil_leads {isReady : Child → Bool} {fuel : Nat}
    (h : c.waitUntil isReady fuel = some c') : c.machine.Leads c'.machine := by
  induction fuel generalizing c with
  | zero => exact nomatch h
  | succ fuel ih =>
    have hsettled := settle_leads c
    unfold waitUntil at h
    generalize c.settle = s at h hsettled
    dsimp only at h
    split at h
    · cases h
      exact hsettled
    · split at h
      · next t _ =>
        have hlater : (s.withSides (Session.moveTo t s.wires, s.machine)).machine.Leads
            c'.machine := ih h
        exact hsettled.trans hlater
      · exact nomatch h

/-- Writing puts bytes into the pipe and waits for room: by induction on how often it may wait. -/
theorem write_leads (fuel : Nat) (bytes : List UInt8) (c : Child) :
    c.machine.Leads (write fuel bytes c).2.machine := by
  induction fuel generalizing bytes c with
  | zero => exact .refl _
  | succ fuel ih =>
    have hsettled := settle_leads c
    unfold write
    generalize c.settle = s at hsettled
    dsimp only
    split
    · exact hsettled
    · split
      · exact hsettled
      · split
        · next waited hwait =>
          have hwaited := waitUntil_leads hwait
          exact (hsettled.trans hwaited).trans (ih _ waited)
        · exact hsettled

/-- Reading a line takes it from the pipe, or waits for more of it. -/
theorem readLine_leads (fuel : Nat) (c : Child) :
    c.machine.Leads (readLine fuel c).2.machine := by
  induction fuel generalizing c with
  | zero => exact .refl _
  | succ fuel ih =>
    have hsettled := settle_leads c
    unfold readLine
    generalize c.settle = s at hsettled
    dsimp only
    split
    · exact hsettled
    · next output _ _ =>
      exact hsettled.trans (ih { s with wires := { s.wires with output := output } })
    · split
      · next waited hwait => exact (hsettled.trans (waitUntil_leads hwait)).trans (ih waited)
      · exact hsettled

theorem readErrors_leads (fuel : Nat) (taken : List UInt8) (c : Child) :
    c.machine.Leads (readErrors fuel taken c).2.machine := by
  induction fuel generalizing taken c with
  | zero => exact .refl _
  | succ fuel ih =>
    unfold readErrors
    split
    · exact .refl _
    · next waited hwait =>
      have hwaited := waitUntil_leads hwait
      -- what was read is taken from the pipe, which leaves the machine as it is
      have hread : ∀ wires : Wires, waited.machine.Leads
          (readErrors fuel (taken ++ waited.wires.errors.bytes)
            { waited with wires := wires }).2.machine :=
        fun wires => ih _ { waited with wires := wires }
      dsimp only
      split
      · exact hwaited
      · exact hwaited.trans (hread _)

/-- Whatever a step is, what it does to the machine is what a machine can go through. -/
theorem step_leads (c : Child) (ask : Ask) : c.machine.Leads (c.step ask).1.machine := by
  cases ask with
  | takePipes =>
    have hsame := c.machine.family_takePipes
    intro _
    unfold step
    dsimp only
    split <;> exact hsame.symm ▸ .refl _
  -- asking is of four kinds: the machine goes on by itself, a routine is carried out on it, both,
  -- or nothing is done to it
  | write bytes => exact write_leads patience bytes c
  | closeInput =>
    unfold step
    dsimp only
    split <;> exact .refl _
  | readLine =>
    unfold step
    dsimp only
    split
    · exact readLine_leads patience c
    · exact .refl _
  | readErrors =>
    unfold step
    dsimp only
    split
    · exact readErrors_leads patience [] c
    · exact .refl _
  | tryWait => exact (settle_leads c).trans fun _ => World.reapHandle_becomes _
  | wait | kill | requestStop | forceKill | completely | stopPid => exact run_leads c _ _
  | descendants | stopDescendant => exact (settle_leads c).trans (run_leads c.settle _ _)
  | tree pid =>
    cases pid with
    | some pid => exact run_leads c _ _
    | none =>
      unfold step
      dsimp only
      split
      · exact run_leads c _ _
      · exact .refl _
  | pid | isRunning | platform | cleanup | killings => exact .refl _

/-- So a machine that is in order stays so through any number of steps. -/
theorem orderly_steps (hc : c.machine.family.Orderly) (asks : List Ask) :
    (asks.foldl (fun c ask => (c.step ask).1) c).machine.family.Orderly := by
  induction asks generalizing c with
  | nil => exact hc
  | cons ask rest ih => exact ih ((step_leads c ask).orderly hc)

end KernelLink.Stage.Child

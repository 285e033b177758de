import KernelLink.Control.Routine
import KernelLink.Proofs.Plan.Runs
/-!
# What a kernel's end looks like

The exchanges of the plan that ends a kernel have one of two forms, by what the wait for its exit
gave.

Main definition:
* `Control.ShutsDown`: the exchanges of a kernel's end.

Main result:
* `Control.runs_shutDown`: the exchanges of the plan that ends a kernel.
-/
namespace KernelLink.Control

variable {grace : Nat} {es : List (Plan.Exchange Command.Answer)} {result : Except LinkError Unit}

theorem answerable (c : Command) : Nonempty c.Answer := by
  cases c with
  | currentPid => exact ⟨(none : Option Pid)⟩
  | findDescendants pid => exact ⟨(.ok [] : Except Chain (List Pid))⟩
  | requestStop | forceKill | stopPid => exact ⟨Outcome.success⟩
  | wait limit => exact ⟨Waited.timedOut⟩
  | cleanup => exact ⟨(.ok () : Except Chain Unit)⟩

/-- What a closing returns, by what releasing gave. -/
def released : Except Chain Unit → Except LinkError Unit
  | .ok () => .ok ()
  | .error cause => .error (.other cause)

/-- The exchanges of a kernel's end, and what comes of it. The exit is waited for once, the kernel
is terminated exactly if that did not end with its exit, and then what the manager holds is
released. -/
inductive ShutsDown (grace : Nat) :
    List (Plan.Exchange Command.Answer) → Except LinkError Unit → Prop where
  /-- It left within the grace. -/
  | left {waits : List (Plan.Exchange Command.Answer)} {status : Status}
      (waited : (waitForExit (some grace)).Runs waits (.ok status)) (cleaned : Except Chain Unit) :
      ShutsDown grace (waits ++ [⟨.cleanup, cleaned⟩]) (released cleaned)
  /-- It did not, or waiting failed. -/
  | stayed {waits ends : List (Plan.Exchange Command.Answer)} {cause : Chain} {outcome : Outcome}
      (waited : (waitForExit (some grace)).Runs waits (.error cause))
      (terminated : (terminateCompletely grace).Runs ends outcome)
      (cleaned : Except Chain Unit) :
      ShutsDown grace (waits ++ (ends ++ [⟨.cleanup, cleaned⟩])) (released cleaned)

/-- Releasing what is left asks for the cleanup, and a failure of that is told but changes nothing
else. -/
theorem runs_release :
    release.Runs es result ↔
      ∃ cleaned : Except Chain Unit, es = [⟨.cleanup, cleaned⟩] ∧ result = released cleaned := by
  unfold release
  rw [Plan.runs_ask]
  constructor
  · rintro ⟨cleaned, rest, rfl, hr⟩
    cases cleaned with
    | ok _ =>
      obtain ⟨rfl, rfl⟩ := Plan.runs_done.mp hr
      exact ⟨.ok (), rfl, rfl⟩
    | error cause =>
      obtain ⟨rfl, rfl⟩ := Plan.runs_done.mp hr
      exact ⟨.error cause, rfl, rfl⟩
  · rintro ⟨cleaned, rfl, rfl⟩
    refine ⟨cleaned, [], rfl, ?_⟩
    cases cleaned with
    | ok _ => exact .done _
    | error cause => exact .done _

/-- The plan that ends a kernel has the exchanges of a kernel's end. -/
theorem runs_shutDown : (shutDown grace).Runs es result ↔ ShutsDown grace es result := by
  unfold shutDown
  rw [Plan.runs_bind]
  constructor
  · rintro ⟨waits, waited, rest, rfl, hw, hr⟩
    cases waited with
    | ok status =>
      obtain ⟨cleaned, rfl, rfl⟩ := runs_release.mp hr
      exact .left hw cleaned
    | error cause =>
      obtain ⟨ends, outcome, last, rfl, ht, hl⟩ := Plan.runs_bind.mp hr
      obtain ⟨cleaned, rfl, rfl⟩ := runs_release.mp hl
      exact .stayed hw ht cleaned
  · intro h
    cases h with
    | left waited cleaned =>
      exact ⟨_, _, _, rfl, waited, runs_release.mpr ⟨cleaned, rfl, rfl⟩⟩
    | stayed waited terminated cleaned =>
      refine ⟨_, _, _, rfl, waited, Plan.runs_bind.mpr ⟨_, _, _, rfl, terminated, ?_⟩⟩
      exact runs_release.mpr ⟨cleaned, rfl, rfl⟩

end KernelLink.Control

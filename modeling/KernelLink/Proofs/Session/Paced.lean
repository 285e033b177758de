import KernelLink.Proofs.Session.Instants
/-!
# Time that passes only while there is nothing to do

The events of a run say when time passes, and nothing keeps time from passing while a task could go
on. How long something takes can be said only of runs in which it does not: whoever is waited for
does all that can be done at an instant before the clock moves on.

Main definitions:
* `Event.span`: how long an event takes.
* `Paced`: time passes only as long as there is nothing to do.

Main results:
* `paced_append`, `paced_concat`: runs one after the other.
* `World.now_apply`: only the passing of time moves the clock.
-/
namespace KernelLink.Session

/-- How long an event takes. -/
def Event.span : Event → Nat
  | .pass ms => ms
  | _ => 0

section

variable {σ : Type} (step : σ → Event → σ) (idle : σ → Bool)

/-- Time passes only as long as there is nothing to do: at every instant before the end of an event
the state is idle. -/
def Paced : σ → List Event → Prop
  | _, [] => True
  | s, e :: events =>
    (∀ k < e.span, idle (step s (.pass k)) = true) ∧ Paced (step s e) events

instance decidablePaced : ∀ (s : σ) (events : List Event), Decidable (Paced step idle s events)
  | _, [] => isTrue trivial
  | s, e :: events =>
    have := decidablePaced (step s e) events
    inferInstanceAs (Decidable (_ ∧ _))

variable {step idle}

/-- Events are paced if the first are and, from where these led, the others are. -/
theorem paced_append {s : σ} {past events : List Event} :
    Paced step idle s (past ++ events) ↔
      Paced step idle s past ∧ Paced step idle (past.foldl step s) events := by
  induction past generalizing s with
  | nil => exact ⟨fun h => ⟨trivial, h⟩, And.right⟩
  | cons e past ih =>
    show _ ∧ Paced step idle (step s e) (past ++ events) ↔ _
    rw [ih, ← and_assoc]
    rfl

/-- One more event is paced if nobody has anything to do at any moment while it takes place. -/
theorem paced_concat {s : σ} {past : List Event} {e : Event} :
    Paced step idle s (past ++ [e]) ↔
      Paced step idle s past ∧ ∀ k < e.span, idle (step (past.foldl step s) (.pass k)) = true := by
  rw [paced_append]
  exact and_congr_right fun _ => and_iff_left trivial

/-- Events that take no time are paced, as there is no moment in between. -/
theorem paced_of_instants {s : σ} {events : List Event} (h : ∀ e ∈ events, e.span = 0) :
    Paced step idle s events := by
  induction events generalizing s with
  | nil => trivial
  | cons e events ih =>
    obtain ⟨he, hrest⟩ := List.forall_mem_cons.mp h
    exact ⟨fun k hk => absurd (he ▸ hk) (Nat.not_lt_zero k), ih hrest⟩

/-- At an event that takes no time nothing has to be idle. -/
theorem Paced.instant {s : σ} {e : Event} {events : List Event} (he : e.span = 0)
    (h : Paced step idle (step s e) events) : Paced step idle s (e :: events) :=
  ⟨fun k hk => absurd (he ▸ hk) (Nat.not_lt_zero k), h⟩

end

namespace World

theorem CloseStep.now {w w' : World} {id : Nat} {stage stage' : CloseStage}
    (h : CloseStep w id stage stage' w') : w'.wires.now = w.wires.now := by
  cases h <;> rfl

theorem now_poll {w w' : World} {id : Nat} (h : w.poll id = some w') :
    w'.wires.now = w.wires.now := by
  cases poll_polled h with
  | call task step => exact step.now
  | close task step => exact step.now

/-- Only the passing of time moves the clock, and it does so by as much as has passed. -/
theorem now_apply (w : World) (e : Event) : (w.apply e).wires.now = w.wires.now + e.span := by
  cases e with
  | pass ms => rfl
  | kernelWrites | kernelReports =>
    unfold apply onWires
    dsimp only
    split <;> rfl
  | capture => exact (captureStep_leaves w.wires).1
  | poll id =>
    show ((w.poll id).getD w).wires.now = w.wires.now
    cases h : w.poll id with
    | none => rfl
    | some w' => exact now_poll h
  | call | close | giveUp | abandon | answer =>
    rw [wires_apply rfl]
    rfl
  | _ => rfl

end World
end KernelLink.Session

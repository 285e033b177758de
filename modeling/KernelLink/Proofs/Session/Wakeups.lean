import KernelLink.Proofs.Session.Turns
/-!
# No wake-up is lost

While a call waits and no grace runs, it looks at error output only when a wake-up is stored. The
reader stores one after each chunk, and the call uses one up only when it sees what there is. So
error output that the call has not seen has its wake-up stored or about to be stored.

Main definitions:
* `Stage.unarmed`: the stages of a call that has begun and for which no grace runs.
* `World.Wakeful`: the invariant.

Main result:
* `World.Wakeful.run`: it holds along every run.
-/
namespace KernelLink.Session

/-- Has the call begun, and does no grace run for it? -/
def Stage.unarmed : Stage → Bool
  | .writing _ | .awaiting _ none => true
  | .queued | .discarding _ | .awaiting _ (some _) | .leaving _ | .finished _ => false

theorem Stage.inTurn_of_unarmed {stage : Stage} (h : stage.unarmed = true) :
    stage.inTurn = true := by
  cases stage with
  | writing rest => rfl
  | awaiting deadline graceEnd => rfl
  | queued => exact absurd h Bool.false_ne_true
  | discarding deadline => exact absurd h Bool.false_ne_true
  | leaving endsAt => exact absurd h Bool.false_ne_true
  | finished result => exact absurd h Bool.false_ne_true

namespace World

variable {w w' : World} {id : Nat} {line : List UInt8} {before after : Stage} {deeds : List Deed}

/-- A wake-up is stored, or the reader has added bytes and is about to store one. -/
def WakeDue (v : Wires) : Prop := v.buffer.permit = true ∨ v.capture = .owing

/-- Error output that is there while no grace runs has its wake-up. -/
def Wakeful (w : World) : Prop :=
  ∀ {id line stage}, w.task? id = some (.call line stage) → stage.unarmed = true →
    w.wires.buffer.bytes ≠ [] → WakeDue w.wires

theorem Wakeful.new (timing : Timing) (wires : Wires) : (World.new timing wires).Wakeful :=
  fun h => absurd h (by simp [World.new, task?])

/-- A poll that leaves a call without a grace leaves no error output, or leaves it and its wake-up
as they were. -/
theorem CallStep.wakes (h : CallStep w id line before after w' deeds)
    (hs : after.unarmed = true) :
    w'.wires.buffer.bytes = [] ∨ before.unarmed = true ∧ w'.wires.buffer = w.wires.buffer ∧
      w'.wires.capture = w.wires.capture := by
  cases h with
  | enterReady next phase => exact Or.inl rfl
  | discard going read inked => exact Or.inl rfl
  | disarm quiet due blank => exact Or.inl rfl
  | stale quiet permit empty => exact Or.inl (List.isEmpty_iff.mp empty)
  | skip waits going read blank => exact Or.inr ⟨hs, rfl, rfl⟩
  | fill waits going none some => exact Or.inr ⟨hs, rfl, rfl⟩
  | written => exact Or.inr ⟨rfl, rfl, rfl⟩
  | put more writing reading room => exact Or.inr ⟨rfl, rfl, rfl⟩
  | _ => exact absurd hs Bool.false_ne_true

/-- The reader stores a wake-up after each chunk, and what it adds to the buffer it adds as a chunk.
-/
theorem WireStep.wakes {v v' : Wires} (h : WireStep v v' deeds)
    (hv : v.buffer.bytes ≠ [] → WakeDue v) (hb : v'.buffer.bytes ≠ []) : WakeDue v' := by
  cases h with
  | chunk reading some => exact Or.inr rfl
  | wake owing => exact Or.inl rfl
  | rest reading none ended => exact Or.inl rfl
  | _ => exact hv hb

/-- Every event keeps the wake-ups: the call in its turn either has not looked yet or is woken for
what came in behind its look. -/
theorem Wakeful.step {e : Event} (hk : w.Wakeful) (hw : w.Orderly) (h : EventStep w e w' deeds) :
    w'.Wakeful := by
  intro i l stage ht hs hb
  have hturn := Stage.inTurn_of_unarmed hs
  rcases h.poll_or_calm hw with ⟨id, line, before, after, -, task, poll⟩ | calm
  · -- a call that is in its turn after a poll was the one that was polled
    obtain rfl := poll.only_after hw task ht hturn
    replace ht := call_inj (poll.self task) ht
    rw [← ht.2] at hs
    rcases poll.wakes hs with hnone | ⟨hbefore, hbuffer, hcapture⟩
    · exact absurd hnone hb
    · rw [hbuffer] at hb
      unfold WakeDue
      rw [hbuffer, hcapture]
      exact hk task hbefore hb
  · exact calm.wires.wakes (fun hold => hk (calm.inTurn ht hturn) hs hold) hb

/-- Along every run error output that is there while no grace runs has its wake-up. -/
theorem Wakeful.run (hk : w.Wakeful) (hw : w.Orderly) (events : List Event) :
    (w.run events).Wakeful := by
  induction events using List.reverseRecOn with
  | nil => exact hk
  | append_singleton past e ih =>
    rw [run_concat]
    exact Wakeful.step ih (hw.run past) (apply_cases _ e)

end World
end KernelLink.Session

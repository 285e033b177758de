import KernelLink.Proofs.Session.Turns
import KernelLink.Proofs.Stderr.Newest
/-!
# The buffer of captured error output

The buffer takes what the background reader captures, and keeps the newest of it. Calls only empty
it: at the beginning of a request, at the end of a grace and with a result.

Main definitions:
* `World.capturedSince`: what was captured since a poll of a call.
* `Stage.listens`: the stages in which a call may turn to the buffer for its result.

Main results:
* `World.CallStep.buffer`, `World.WireStep.buffer`: what happens to the buffer.
* `World.Orderly.fits_run`: it stays within its limit.
* `World.CallStep.unanswered`: when a call looks at it for its result.
-/
namespace KernelLink.Session

open Stderr (Buffer)

/-- Does a call in this stage wait for its reply, or for the last words of the kernel? -/
def Stage.listens : Stage → Bool
  | .awaiting _ _ | .leaving _ => true
  | .queued | .discarding _ | .writing _ | .finished _ => false

theorem Stage.inTurn_of_listens (stage : Stage) (h : stage.listens = true) :
    stage.inTurn = true := by
  cases stage with
  | awaiting deadline graceEnd => rfl
  | leaving endsAt => rfl
  | queued => exact absurd h Bool.false_ne_true
  | discarding deadline => exact absurd h Bool.false_ne_true
  | writing rest => exact absurd h Bool.false_ne_true
  | finished result => exact absurd h Bool.false_ne_true

namespace World

variable {w w' : World} {id : Nat} {line : List UInt8} {before after : Stage} {deeds : List Deed}

/-- What was captured since a poll of a call. -/
def capturedSince (w : World) (past mid : List Event) (id : Nat) : List UInt8 :=
  Log.captured ((w.run past).log (.poll id :: mid))

/-- A poll of a call captures nothing; only the reader of error output does. -/
theorem CallStep.captured (h : CallStep w id line before after w' deeds) :
    Log.captured deeds = [] := by
  cases h <;> rfl

/-- A poll leaves the captured bytes as they are, or empties the buffer: at the beginning of a
request, at the end of a grace or with a result. -/
theorem CallStep.buffer (h : CallStep w id line before after w' deeds) :
    w'.wires.buffer.limit = w.wires.buffer.limit ∧
      (w'.wires.buffer.bytes = w.wires.buffer.bytes ∧ .began id ∉ deeds ∧
          (after.sends = true → before.sends = true) ∨
        w'.wires.buffer.bytes = [] ∧
          (.began id ∈ deeds ∨ before.sends = true ∨ after.inTurn = false)) := by
  cases h with
  | enterReady next phase => exact ⟨rfl, Or.inr ⟨rfl, Or.inl (by simp)⟩⟩
  | discard going read inked => exact ⟨rfl, Or.inr ⟨rfl, Or.inl (by simp)⟩⟩
  | disarm quiet due blank => exact ⟨rfl, Or.inr ⟨rfl, Or.inr (Or.inl rfl)⟩⟩
  | report quiet due inked => exact ⟨rfl, Or.inr ⟨rfl, Or.inr (Or.inr rfl)⟩⟩
  | leave due => exact ⟨rfl, Or.inr ⟨rfl, Or.inr (Or.inr rfl)⟩⟩
  | skip waits going read blank => exact ⟨rfl, Or.inl ⟨rfl, by simp, fun h => h⟩⟩
  | fill waits going none some => exact ⟨rfl, Or.inl ⟨rfl, by simp, fun h => h⟩⟩
  | written | put | stale | arm => exact ⟨rfl, Or.inl ⟨rfl, by simp, fun _ => rfl⟩⟩
  | _ => exact ⟨rfl, Or.inl ⟨rfl, by simp, fun h => absurd h Bool.false_ne_true⟩⟩

/-- Besides that, the buffer only takes what is captured, and keeps the newest of it. -/
theorem WireStep.buffer {v v' : Wires} (h : WireStep v v' deeds) :
    v'.buffer.limit = v.buffer.limit ∧
      (v'.buffer.bytes = v.buffer.bytes ∧ Log.captured deeds = [] ∨
        v'.buffer.bytes = Buffer.newest v.buffer.limit (v.buffer.bytes ++ Log.captured deeds)) := by
  cases h with
  | chunk reading some =>
    refine ⟨rfl, Or.inr ?_⟩
    simp [Log.captured, Buffer.extend]
  | _ => exact ⟨rfl, Or.inl ⟨rfl, rfl⟩⟩

/-- Every event keeps the buffer within its limit: it is left alone, emptied, or given more and cut.
-/
theorem EventStep.fits {e : Event} (h : EventStep w e w' deeds) (hw : w.Orderly)
    (hf : w.wires.buffer.Fits) : w'.wires.buffer.Fits := by
  unfold Buffer.Fits at *
  rcases h.poll_or_calm hw with ⟨i, l, before, after, -, task, poll⟩ | calm
  · obtain ⟨hl, ⟨hb, -⟩ | ⟨hb, -⟩⟩ := poll.buffer
    · rw [hl, hb]
      exact hf
    · rw [hb]
      exact Nat.zero_le _
  · obtain ⟨hl, ⟨hb, -⟩ | hb⟩ := calm.wires.buffer
    · rw [hl, hb]
      exact hf
    · rw [hl, hb, Buffer.length_newest]
      exact Nat.min_le_left _ _

theorem Orderly.fits_run (hw : w.Orderly) (hf : w.wires.buffer.Fits) (events : List Event) :
    (w.run events).wires.buffer.Fits := by
  induction events using List.reverseRecOn with
  | nil => exact hf
  | append_singleton past e ih =>
    rw [run_concat]
    exact (apply_cases _ e).fits (hw.run past) ih

/-! ## Calls that get no line -/

/-- A call that reports error output, or that there was no response, has run out of time, has come
to the end of its grace, or leaves. -/
theorem CallStep.unanswered {result : Result}
    (h : CallStep w id line before (.finished result) w' deeds)
    (hr : result = .error .noResponse ∨ ∃ text, result = .error (.kernelStderr text)) :
    (∃ deadline graceEnd, before = .awaiting deadline graceEnd ∧ result = .error .noResponse ∧
      deadline ≤ w.wires.now ∧ (∀ graceAt, graceEnd = some graceAt → w.wires.now < graceAt) ∧
      (graceEnd = none → w.wires.buffer.permit = false)) ∨
    (∃ deadline graceAt, before = .awaiting deadline (some graceAt) ∧ graceAt ≤ w.wires.now ∧
      result = .error (.kernelStderr w.wires.buffer.text)) ∨
    ∃ endsAt, before = .leaving endsAt ∧ result = lastWords w.wires.buffer.text := by
  cases h with
  | @overdue deadline graceEnd quiet due running unwoken =>
    exact Or.inl ⟨deadline, graceEnd, rfl, rfl, due, running, unwoken⟩
  | @report deadline graceAt quiet due inked =>
    exact Or.inr (Or.inl ⟨deadline, graceAt, rfl, due, rfl⟩)
  | @leave endsAt due => exact Or.inr (Or.inr ⟨endsAt, rfl, rfl⟩)
  | enterRefused next refusal =>
    rcases Phase.refusal_eq_some.mp refusal with ⟨why, -, rfl⟩ | ⟨-, rfl⟩
    · exact absurd hr (by simp)
    · exact absurd hr (by simp)
  | @reply _ _ _ _ envelope going read inked decoded =>
    cases envelope with
    | ok payload => exact absurd hr (by simp [Envelope.payload])
    | bare payload => exact absurd hr (by simp [Envelope.payload])
    | fault message stack => exact absurd hr (by simp [Envelope.payload])
  | skip waits | fill waits => exact absurd waits Bool.false_ne_true
  | _ => exact absurd hr (by simp)

/-- What a call reports as error output is the text of what the buffer keeps. -/
theorem CallStep.stderr {text : String}
    (h : CallStep w id line before (.finished (.error (.kernelStderr text))) w' deeds) :
    text = w.wires.buffer.text := by
  rcases h.unanswered (Or.inr ⟨text, rfl⟩) with ⟨d, g, -, hn, -⟩ | ⟨d, g, -, -, hs⟩ | ⟨t, -, hs⟩
  · exact absurd hn (by simp)
  · exact LinkError.kernelStderr.inj (Except.error.inj hs)
  · unfold lastWords at hs
    split at hs
    · exact absurd hs (by simp)
    · exact LinkError.kernelStderr.inj (Except.error.inj hs)

/-- Such a call has waited for its reply, or for the last words of the kernel. -/
theorem CallStep.listened {result : Result}
    (h : CallStep w id line before (.finished result) w' deeds)
    (hr : result = .error .noResponse ∨ ∃ text, result = .error (.kernelStderr text)) :
    before.listens = true := by
  rcases h.unanswered hr with ⟨d, g, rfl, -⟩ | ⟨d, g, rfl, -⟩ | ⟨t, rfl, -⟩ <;> rfl

end World
end KernelLink.Session

import KernelLink.Proofs.Session.Turns
/-!
# A conversation that admits no calls

Once a conversation is poisoned or its kernel is gone, all that calls can still do is to find that
they come too late, or, for the one that noticed that the kernel is gone, to report its last words.
Nothing is written, no line is taken, every result is an error, and the phase changes at most once
more, when a poisoned conversation is closed.

Main results:
* `World.CallStep.refused`: what one poll of a call can still do.
* `World.phase_run`: the phase stays, or the kernel is gone.
* `World.log_refused`, `World.fails_refused`: what a run still shows, and what its results are.
-/
namespace KernelLink.Session

/-- In a stage of its turn, but for the last, a call keeps the conversation one that admits
calls. -/
theorem Stage.refusal_of_fits {stage : Stage} {phase : Phase} (hfit : stage.Fits phase)
    (h : stage.waits = true ∨ stage.sends = true) : phase.refusal = none := by
  cases stage with
  | discarding deadline => rw [show phase = .replyOutstanding from hfit]; rfl
  | writing rest => rw [show phase = .ready from hfit]; rfl
  | awaiting deadline graceEnd => rw [show phase = .ready from hfit]; rfl
  | queued => exact absurd h (by simp [waits, sends])
  | leaving endsAt => exact absurd h (by simp [waits, sends])
  | finished result => exact absurd h (by simp [waits, sends])

namespace World

variable {w w' : World} {id : Nat} {line : List UInt8} {before after : Stage} {deeds : List Deed}
  {err : LinkError}

/-! ## One event -/

/-- All that a poll can do is to tell a call that it comes too late, or to end the wait for the last
words of the kernel. -/
theorem CallStep.refused (h : CallStep w id line before after w' deeds)
    (hfit : before.Fits w.phase) (hp : w.phase.refusal = some err) :
    before = .queued ∧ after = .finished (.error err) ∧ deeds = [.entered id] ∧
        w' = (w.acquire id).finish id line (.error err) ∨
      (∃ endsAt, before = .leaving endsAt) ∧
        after = .finished (lastWords w.wires.buffer.text) ∧ deeds = [] ∧
        w' = { w with wires := w.wires.clearErrors }.finish id line
          (lastWords w.wires.buffer.text) := by
  -- a call in any other stage of its turn would make the phase one that admits calls
  have hno : ¬ (before.waits = true ∨ before.sends = true) := by
    intro hb
    rw [Stage.refusal_of_fits hfit hb] at hp
    exact absurd hp (by simp)
  cases h with
  | enterReady next phase =>
    rw [phase] at hp
    exact absurd hp (by simp [Phase.refusal])
  | enterLate next phase =>
    rw [phase] at hp
    exact absurd hp (by simp [Phase.refusal])
  | @enterRefused e next refusal =>
    obtain rfl : err = e := Option.some.inj (hp.symm.trans refusal)
    exact .inl ⟨rfl, rfl, rfl, rfl⟩
  | cancel waits | skip waits | fail waits | gone waits | fill waits =>
    exact absurd (Or.inl waits) hno
  | leave due => exact .inr ⟨⟨_, rfl⟩, rfl, rfl, rfl⟩
  | _ => exact absurd (by simp [Stage.waits, Stage.sends]) hno

/-- The phase stays, or a closing whose turn has come ends the conversation. -/
theorem EventStep.phase_refused {e : Event} (h : EventStep w e w' deeds) (hw : w.Orderly)
    (hp : w.phase.refusal = some err) :
    w'.phase = w.phase ∨ w'.phase = .exited ∧ ∃ id, w.task? id = some (.close .queued) := by
  cases h with
  | step task poll =>
    rcases poll.refused (hw.fits task) hp with ⟨-, -, -, rfl⟩ | ⟨-, -, -, rfl⟩
    · exact .inl rfl
    · exact .inl rfl
  | exit task next => exact .inr ⟨rfl, _, task⟩
  | aside e aside => exact .inl aside.phase
  | _ => exact .inl rfl

/-- Calls do nothing but find that it is too late: in a phase that refuses, the rules that touch the
wires do not apply. -/
theorem EventStep.shows_refused {e : Event} {d : Deed} (h : EventStep w e w' deeds)
    (hw : w.Orderly) (hp : w.phase.refusal = some err) (hd : d ∈ deeds) :
    d.ofCall = false ∨ ∃ id, d = .entered id := by
  rcases h.poll_or_calm hw with ⟨id, line, before, after, -, task, poll⟩ | calm
  · rcases poll.refused (hw.fits task) hp with ⟨-, -, rfl, -⟩ | ⟨-, -, rfl, -⟩
    · exact .inr ⟨id, List.mem_singleton.mp hd⟩
    · exact absurd hd (by simp)
  · exact .inl (calm.log d hd)

/-- New results are errors, as the calls that are still given one are those that were refused or
cancelled. -/
theorem EventStep.result_refused {e : Event} {result : Result} (h : EventStep w e w' deeds)
    (hw : w.Orderly) (hp : w.phase.refusal = some err) (hn : w.callResult? id = none)
    (hr : w'.callResult? id = some result) : ∃ e, result = .error e := by
  rcases h.callResult?_new hn hr with rfl | ⟨line, before, task, poll⟩
  · exact ⟨_, rfl⟩
  · rcases poll.refused (hw.fits task) hp with ⟨-, he, -, -⟩ | ⟨-, he, -, -⟩
    · exact ⟨_, Stage.finished.inj he⟩
    · exact ⟨_, Stage.finished.inj he⟩

/-! ## A run -/

theorem refusal_of_phase (hp : w.phase.refusal = some err)
    (h : w'.phase = w.phase ∨ w'.phase = .exited) : ∃ e, w'.phase.refusal = some e := by
  rcases h with hsame | hexited
  · exact ⟨err, hsame ▸ hp⟩
  · exact ⟨.closed, by rw [hexited]; rfl⟩

/-- The phase stays, or the kernel is gone: these are the only ways on from a phase that admits no
calls. -/
theorem phase_run (hw : w.Orderly) (hp : w.phase.refusal = some err) (more : List Event) :
    (w.run more).phase = w.phase ∨ (w.run more).phase = .exited := by
  induction more using List.reverseRecOn with
  | nil => exact .inl rfl
  | append_singleton past e ih =>
    rw [run_concat]
    obtain ⟨err', hp'⟩ := refusal_of_phase hp ih
    rcases (apply_cases (w.run past) e).phase_refused (hw.run past) hp' with hsame | ⟨hexited, -⟩
    · rw [hsame]
      exact ih
    · exact .inr hexited

/-- The conversation goes on admitting no calls, for both of these phases refuse. -/
theorem refusal_run (hw : w.Orderly) (hp : w.phase.refusal = some err) (more : List Event) :
    ∃ e, (w.run more).phase.refusal = some e :=
  refusal_of_phase hp (phase_run hw hp more)

/-- All that a run still shows of calls is that they find that it is too late. -/
theorem log_refused (hw : w.Orderly) (hp : w.phase.refusal = some err) (more : List Event)
    {d : Deed} (hd : d ∈ w.log more) : d.ofCall = false ∨ ∃ id, d = .entered id := by
  induction more using List.reverseRecOn with
  | nil => exact absurd hd (by simp [World.log])
  | append_singleton past e ih =>
    rw [log_concat, List.mem_append] at hd
    rcases hd with hd | hd
    · exact ih hd
    · obtain ⟨err', hp'⟩ := refusal_run hw hp past
      exact (apply_cases (w.run past) e).shows_refused (hw.run past) hp' hd

/-- All results that a run still gives to calls are errors; by induction from its last event, in
which either the result was there before or it is new. -/
theorem fails_refused (hw : w.Orderly) (hp : w.phase.refusal = some err) (more : List Event)
    {result : Result} (hn : w.callResult? id = none)
    (hr : (w.run more).callResult? id = some result) : ∃ e, result = .error e := by
  induction more using List.reverseRecOn generalizing result with
  | nil =>
    rw [show (w.run []).callResult? id = none from hn] at hr
    exact absurd hr.symm (Option.some_ne_none result)
  | append_singleton past e ih =>
    -- the result is new with this event, or it is there since an earlier one
    rw [run_concat] at hr
    have hstep := apply_cases (w.run past) e
    cases hpast : (w.run past).callResult? id with
    | none =>
      obtain ⟨err', hp'⟩ := refusal_run hw hp past
      exact hstep.result_refused (hw.run past) hp' hpast hr
    | some r =>
      obtain ⟨l, ht⟩ := callResult?_eq_some.mp hr
      rw [hstep.callResult?_of hpast (ne_abandon ht)] at hr
      exact ih (Option.some.inj hr ▸ hpast)

end World
end KernelLink.Session

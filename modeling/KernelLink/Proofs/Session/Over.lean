import KernelLink.Proofs.Session.Refusing
/-!
# When a conversation is over

Once the phase admits no calls and nobody is in its turn, nothing brings the conversation back: no
call begins, none writes, and each call that still gets a result gets an error, at the latest when
its turn comes.

Main definitions:
* `World.Over`: the conversation is over.
* `World.Sealed`: what that means for all that may still happen.

Main results:
* `World.Over.step`: no event brings the conversation back.
* `World.Over.sealed`: a conversation that is over is sealed.
-/
namespace KernelLink.Session.World

variable {w w' : World} {id : Nat} {line : List UInt8} {before after : Stage} {deeds : List Deed}

/-- The phase admits no calls, and no call is in its turn. -/
structure Over (w : World) : Prop where
  /-- The phase admits no calls. -/
  phase : ∃ e, w.phase.refusal = some e
  /-- No call is in its turn. -/
  calls : ∀ {id line stage}, w.task? id = some (.call line stage) → stage.inTurn = false

/-- Whatever happens from now on, no call begins to write or writes, and every call that gets a
result gets an error, at the latest when its turn comes. -/
structure Sealed (w : World) : Prop where
  /-- No call begins. -/
  begins : ∀ more id, .began id ∉ w.log more
  /-- No call writes. -/
  writes : ∀ more id bytes, .wrote id bytes ∉ w.log more
  /-- Results are errors. -/
  fails : ∀ more id result, w.callResult? id = none → (w.run more).callResult? id = some result →
    ∃ e, result = .error e
  /-- A call whose turn has come fails when it is polled. -/
  turn : ∀ more id line, (w.run more).task? id = some (.call line .queued) →
    (w.run more).isNext id = true →
    ∃ e, ((w.run more).apply (.poll id)).callResult? id = some (.error e)

/-- A phase that admits no calls, and nobody's turn: then no call is in its turn either. -/
theorem Over.of_free (hw : w.Orderly) (hh : w.holder = none) {e : LinkError}
    (hp : w.phase.refusal = some e) : w.Over where
  phase := ⟨e, hp⟩
  calls {id line stage} ht := by
    by_contra hb
    rw [Bool.not_eq_false] at hb
    rw [hw.turn ht hb] at hh
    exact absurd hh (Option.some_ne_none id)

/-- All that a poll can do is to tell a call whose turn has come that it is too late. -/
theorem Over.call (ho : w.Over) (ht : w.task? id = some (.call line before))
    (h : CallStep w id line before after w' deeds) :
    deeds = [.entered id] ∧ w'.phase = w.phase ∧ ∃ e, after = .finished (.error e) := by
  obtain ⟨e, hp⟩ := ho.phase
  have hb := ho.calls ht
  rcases h.refused (Stage.fits_of_not_inTurn _ hb) hp with ⟨-, rfl, rfl, rfl⟩ | ⟨⟨endsAt, rfl⟩, -⟩
  · exact ⟨rfl, rfl, e, rfl⟩
  · exact absurd hb.symm Bool.false_ne_true

theorem Over.step {e : Event} (ho : w.Over) (hw : w.Orderly) (h : EventStep w e w' deeds) :
    w'.Over := by
  obtain ⟨err, hp⟩ := ho.phase
  rcases h.poll_or_calm hw with ⟨id, line, before, after, -, task, poll⟩ | calm
  · obtain ⟨-, hphase, e', rfl⟩ := ho.call task poll
    exact Over.of_free (hw.call task poll) (poll.turn hw task) (hphase ▸ hp)
  · refine ⟨?_, fun {i l s} ht => ?_⟩
    · rcases calm.phase with hphase | ⟨hphase, -⟩
      · exact ⟨err, hphase ▸ hp⟩
      · exact ⟨.closed, by rw [hphase]; rfl⟩
    · by_contra hb
      rw [Bool.not_eq_false] at hb
      rw [ho.calls (calm.inTurn ht hb)] at hb
      exact Bool.false_ne_true hb

theorem Over.run (ho : w.Over) (hw : w.Orderly) (more : List Event) : (w.run more).Over := by
  induction more using List.reverseRecOn with
  | nil => exact ho
  | append_singleton past e ih =>
    rw [run_concat]
    exact ih.step (hw.run past) (apply_cases _ e)

/-- A call whose turn has come fails when it is polled, since the phase is what it looks at first.
-/
theorem Over.turn (ho : w.Over) (ht : w.task? id = some (.call line .queued))
    (hn : w.isNext id = true) :
    ∃ e, (w.apply (.poll id)).callResult? id = some (.error e) := by
  have hcall : w.pollCall id line .queued = some (w.enter id line) := if_pos hn
  obtain ⟨after, deeds, hs⟩ := pollCall_cases hcall
  obtain ⟨-, -, e, rfl⟩ := ho.call ht hs
  rw [apply_poll ((poll_eq ht).trans hcall)]
  exact ⟨e, callResult?_eq_some.mpr ⟨line, hs.self ht⟩⟩

/-- A conversation that is over is sealed: no call begins any more, and what is given out are
errors. -/
theorem Over.sealed (ho : w.Over) (hw : w.Orderly) : w.Sealed where
  begins more id hd := by
    obtain ⟨e, hp⟩ := ho.phase
    rcases log_refused hw hp more hd with hc | ⟨i, he⟩
    · exact Bool.false_ne_true hc.symm
    · exact Deed.noConfusion he
  writes more id bytes hd := by
    obtain ⟨e, hp⟩ := ho.phase
    rcases log_refused hw hp more hd with hc | ⟨i, he⟩
    · exact Bool.false_ne_true hc.symm
    · exact Deed.noConfusion he
  fails more id result hn hr := by
    obtain ⟨e, hp⟩ := ho.phase
    exact fails_refused hw hp more hn hr
  turn more id line ht hn := (ho.run hw more).turn ht hn

end KernelLink.Session.World

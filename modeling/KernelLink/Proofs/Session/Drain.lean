import KernelLink.Proofs.Session.Over
import KernelLink.Proofs.Session.Queue
/-!
# Nobody waits for ever on a conversation that admits no calls

When a conversation admits no calls, polls alone empty the queue: whoever is at its head is told
that it comes too late, or is a closing that takes its turn. Before that, at most one call has to be
waited for, which has noticed that the kernel is gone and waits a limited time for its last words.

Main results:
* `World.Over.drains`: polls empty the queue.
* `World.drains`: some time and some polls do.
-/
namespace KernelLink.Session.World

variable {w w' : World} {id : Nat} {line : List UInt8} {before after : Stage} {deeds : List Deed}
  {err : LinkError}

theorem Over.holder (ho : w.Over) (hw : w.Orderly) : w.holder = none := by
  cases hh : w.holder with
  | none => rfl
  | some id =>
    obtain ⟨line, stage, ht, hturn⟩ := hw.held hh
    rw [ho.calls ht] at hturn
    exact absurd hturn Bool.false_ne_true

/-- A call whose turn has come leaves the queue when it is polled. -/
theorem pops_call (ht : w.task? id = some (.call line .queued)) (hn : w.isNext id = true) :
    (w.apply (.poll id)).queue = w.queue.filter (· ≠ id) := by
  have hcall : w.pollCall id line .queued = some (w.enter id line) := if_pos hn
  obtain ⟨after, deeds, hs⟩ := pollCall_cases hcall
  rw [apply_poll ((poll_eq ht).trans hcall)]
  rcases hs.queue with hqueue | ⟨-, hne⟩
  · exact hqueue
  · exact absurd rfl hne

/-- Whoever is at the head of the queue is in it no more when it has been polled. -/
theorem Over.pops (ho : w.Over) (hw : w.Orderly) (h : w.Tidy) {rest : List Nat}
    (hq : w.queue = id :: rest) :
    (w.apply (.poll id)).queue = w.queue.filter (· ≠ id) := by
  have hnext : w.isNext id = true := by
    unfold isNext
    rw [ho.holder hw, hq]
    simp
  obtain ⟨t, ht, hwaits⟩ := (h.queue id).mp (by rw [hq]; exact List.mem_cons_self)
  cases t with
  | call line stage =>
    obtain rfl := Task.queued_of_waits hwaits
    exact pops_call ht hnext
  | close stage =>
    cases stage with
    | queued =>
      have hpoll : w.poll id = some ((w.exit.setTask id (.close .taking)).release id) := by
        unfold World.poll
        rw [ht]
        exact if_pos hnext
      rw [apply_poll hpoll]
      rfl
    | _ => exact absurd hwaits (by simp [Task.waitsForTurn])

/-- Polls empty the queue: each call that comes to its turn finds that all is over and leaves. -/
theorem Over.drains (ho : w.Over) (hw : w.Orderly) (h : w.Tidy) :
    ∃ ids : List Nat, (w.run (ids.map .poll)).queue = [] := by
  -- with every poll of its head the queue gets shorter
  induction hn : w.queue.length using Nat.strong_induction_on generalizing w with
  | _ n ih =>
    cases hq : w.queue with
    | nil => exact ⟨[], hq⟩
    | cons id rest =>
      have hpop := ho.pops hw h hq
      have hshorter : (w.apply (.poll id)).queue.length < n := by
        rw [hpop, ← hn]
        exact List.length_filter_lt_length_iff_exists.mpr ⟨id, by simp [hq], by simp⟩
      have hstep := apply_cases w (.poll id)
      obtain ⟨ids, hids⟩ := ih _ hshorter (ho.step hw hstep) (hw.step hstep) (h.step hw _) rfl
      exact ⟨id :: ids, hids⟩

/-- A call that waits for the last words of the kernel waits no longer than the grace. -/
theorem leaves (hw : w.Orderly) (hp : w.phase.refusal = some err) {endsAt : Nat}
    (ht : w.task? id = some (.call line (.leaving endsAt))) (hdue : endsAt ≤ w.wires.now) :
    (w.apply (.poll id)).Over := by
  obtain ⟨w', hcall⟩ : ∃ w', w.pollCall id line (.leaving endsAt) = some w' :=
    ⟨_, if_pos hdue⟩
  obtain ⟨after, deeds, hs⟩ := pollCall_cases hcall
  rw [apply_poll ((poll_eq ht).trans hcall)]
  rcases hs.refused (hw.fits ht) hp with ⟨hq, -⟩ | ⟨-, rfl, -, hleft⟩
  · exact absurd hq (by simp)
  · have hphase : w'.phase.refusal = some err := by
      rw [hleft]
      exact hp
    exact Over.of_free (hw.call ht hs) (hs.turn hw ht) hphase

/-- Some time and some polls empty the queue, and then nobody is in its turn. -/
theorem drains (hw : w.Orderly) (h : w.Tidy) (hp : w.phase.refusal = some err) :
    ∃ (ms : Nat) (ids : List Nat), (w.run (.pass ms :: ids.map .poll)).queue = [] ∧
      (w.run (.pass ms :: ids.map .poll)).Over := by
  -- from a moment on at which nobody is in its turn, polls of the heads are enough
  have hrest : ∀ (ms : Nat) (first : List Nat), (w.run (.pass ms :: first.map .poll)).Over →
      ∃ (ms : Nat) (ids : List Nat), (w.run (.pass ms :: ids.map .poll)).queue = [] ∧
        (w.run (.pass ms :: ids.map .poll)).Over := by
    intro ms first ho
    have hv := hw.run (.pass ms :: first.map .poll)
    obtain ⟨ids, hids⟩ := ho.drains hv (h.run hw _)
    have happend : w.run (.pass ms :: (first ++ ids).map .poll) =
        (w.run (.pass ms :: first.map .poll)).run (ids.map .poll) := by
      rw [← run_append, List.cons_append, List.map_append]
    refine ⟨ms, first ++ ids, ?_, ?_⟩
    · rw [happend]
      exact hids
    · rw [happend]
      exact ho.run hv _
  have hpass : ∀ ms, (w.run [.pass ms]).phase.refusal = some err := fun _ => hp
  cases hh : w.holder with
  | none => exact hrest 0 [] (Over.of_free (hw.run [.pass 0]) hh (hpass 0))
  | some id =>
    obtain ⟨line, stage, ht, hturn⟩ := hw.held hh
    have hfit := hw.fits ht
    obtain ⟨endsAt, rfl⟩ : ∃ endsAt, stage = .leaving endsAt := by
      cases stage with
      | leaving endsAt => exact ⟨endsAt, rfl⟩
      | queued => exact absurd hturn (by simp [Stage.inTurn])
      | finished result => exact absurd hturn (by simp [Stage.inTurn])
      | discarding deadline =>
        rw [Stage.refusal_of_fits hfit (.inl rfl)] at hp
        exact absurd hp (by simp)
      | writing rest =>
        rw [Stage.refusal_of_fits hfit (.inr rfl)] at hp
        exact absurd hp (by simp)
      | awaiting deadline graceEnd =>
        rw [Stage.refusal_of_fits hfit (.inl rfl)] at hp
        exact absurd hp (by simp)
    have hdue : endsAt ≤ (w.run [.pass endsAt]).wires.now := Nat.le_add_left _ _
    exact hrest endsAt [id] (leaves (hw.run [.pass endsAt]) (hpass endsAt) ht hdue)

end KernelLink.Session.World

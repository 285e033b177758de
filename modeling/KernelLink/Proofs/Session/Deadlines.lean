import KernelLink.Proofs.Session.Paced
import KernelLink.Proofs.Session.Returning
import Mathlib.Data.Nat.Find
/-!
# How long a call may take

A call whose turn has come waits for a late reply, for its own reply, and for the last words of a
kernel that is gone, and each wait has an end that is fixed when it begins. So the time that a call
takes is bounded by the limits alone, whatever the kernel does: each stage knows by when the call
will be done, no poll puts that off, and the clock does not pass the end of a wait before the call
was polled. Writing has no time limit; it is taken to need no time.

Main definitions:
* `allowance`: how long a call may take, by the phase that it finds.
* `Stage.waitsUntil`, `Stage.doneBy`: the end of a wait, and of the whole turn.
* `Stage.effort`: how much there is to do for a call.
* `World.idle`, `World.Tended`: time passes only while a call has nothing to do.
* `World.InBounds`: what is said of every call whose turn comes.

Main results:
* `World.CallStep.timely`, `World.timely_pass`: neither polls nor time put off the end of a turn.
* `World.CallStep.steady`: a wait that has begun keeps its end.
* `World.CallStep.less`: after every poll there is less to do.
* `World.in_bounds`: every call is done within its allowance.
-/
namespace KernelLink.Session

open Host (Pipe Delivery)

/-- How long a call may take once its turn has come, by the phase that it finds. -/
def allowance (timing : Timing) : Phase → Nat
  | .ready => timing.responseTimeout + timing.stderrGrace
  | .replyOutstanding => 2 * timing.responseTimeout + timing.stderrGrace
  | .poisoned _ | .exited => 0

/-- Is this a poll of the task, time, or the kernel taking its input? -/
def Event.serves (id : Nat) : Event → Bool
  | .pass _ | .kernelTakes _ => true
  | .poll i => i == id
  | _ => false

/-! ## Stages in time -/

/-- Until when a call in this stage waits. -/
def Stage.waitsUntil : Stage → Option Nat
  | .discarding deadline | .awaiting deadline _ => some deadline
  | .leaving endsAt => some endsAt
  | .queued | .writing _ | .finished _ => none

/-- How many kinds of stages may be left to a call in its turn. -/
def Stage.ahead : Stage → Nat
  | .discarding _ => 4
  | .writing _ => 3
  | .awaiting _ _ => 2
  | .leaving _ => 1
  | .queued | .finished _ => 0

/-- By when a call in this stage is done, if the clock stands at `now` and writing takes no time. -/
def Stage.doneBy (timing : Timing) (now : Nat) : Stage → Nat
  | .discarding deadline => deadline + (timing.responseTimeout + timing.stderrGrace)
  | .writing _ => now + (timing.responseTimeout + timing.stderrGrace)
  | .awaiting deadline _ => deadline + timing.stderrGrace
  | .leaving endsAt => endsAt
  | .queued | .finished _ => now

/-- How much of what has come was not looked at. -/
def Wires.backlog (v : Wires) : Nat :=
  v.output.held.length + 2 * v.output.bytes.length + 2 * v.buffer.permit.toNat

/-- How much there is to do for a call in this stage, if nothing more comes. -/
def Stage.effort (v : Wires) (line : List UInt8) : Stage → Nat
  | .discarding _ => v.backlog + line.length + 4
  | .writing rest => v.backlog + rest.length + 3
  | .awaiting _ graceEnd => v.backlog + graceEnd.isSome.toNat + 2
  | .leaving _ => 1
  | .queued | .finished _ => 0

/-- The wait of the call has not ended unnoticed, and the call is done by `bound`. -/
structure Stage.Timely (timing : Timing) (bound now : Nat) (stage : Stage) : Prop where
  /-- The clock has not passed the end of the wait. -/
  waits : ∀ t, stage.waitsUntil = some t → now ≤ t
  /-- It is done in time. -/
  done : stage.doneBy timing now ≤ bound

variable {timing : Timing} {bound now : Nat}

/-- A call that is timely has not outlived its bound, whatever stage it is in. -/
theorem Stage.Timely.now_le {stage : Stage} (h : stage.Timely timing bound now) : now ≤ bound := by
  obtain ⟨hwaits, hdone⟩ := h
  cases stage with
  | discarding deadline | awaiting deadline _ =>
    have hnow := hwaits deadline rfl
    simp only [doneBy] at hdone
    omega
  | leaving endsAt => exact Nat.le_trans (hwaits endsAt rfl) hdone
  | writing rest => exact Nat.le_trans (Nat.le_add_right _ _) hdone
  | queued | finished => exact hdone

/-- A wait that begins now has not ended. -/
theorem Stage.Timely.begin {stage : Stage} {t : Nat} (hs : stage.waitsUntil = some t)
    (ht : now ≤ t) (hdone : stage.doneBy timing now ≤ bound) : stage.Timely timing bound now :=
  ⟨fun _ h => Option.some.inj (hs.symm.trans h) ▸ ht, hdone⟩

namespace World

variable {w w' : World} {id : Nat} {line : List UInt8} {before after stage : Stage}
  {deeds : List Deed} {e : Event} {mid : List Event}

/-! ## Polls -/

/-- No poll of a call in its turn puts off when it is done. -/
theorem CallStep.timely (h : CallStep w id line before after w' deeds)
    (hb : before.inTurn = true) (ha : after.inTurn = true)
    (ht : before.Timely w.timing bound w.wires.now) :
    after.Timely w.timing bound w.wires.now := by
  have hbefore := ht.waits
  have hdone := ht.done
  cases h with
  | skip | fill | stale => exact ht
  | put => exact ⟨fun t hs => (nomatch hs), hdone⟩
  | arm | disarm => exact ⟨hbefore, hdone⟩
  | gone waits =>
    refine .begin rfl (Nat.le_add_right _ _) ?_
    cases before with
    | discarding deadline | awaiting deadline =>
      -- the grace begins no later than the wait would have ended
      have hnow := hbefore deadline rfl
      simp only [Stage.doneBy] at hdone ⊢
      omega
    | _ => exact absurd waits Bool.false_ne_true
  | @discard deadline =>
    have hnow := hbefore deadline rfl
    refine ⟨fun t hs => (nomatch hs), ?_⟩
    simp only [Stage.doneBy] at hdone ⊢
    omega
  | written | broken =>
    refine .begin rfl (Nat.le_add_right _ _) ?_
    simp only [Stage.doneBy] at hdone ⊢
    omega
  | enterReady | enterLate | enterRefused => exact absurd hb Bool.false_ne_true
  | _ => exact absurd ha Bool.false_ne_true

/-- A call whose turn comes has its whole allowance. -/
theorem CallStep.timely_of_queued (h : CallStep w id line .queued after w' deeds)
    (ha : after.inTurn = true) :
    after.Timely w.timing (w.wires.now + allowance w.timing w.phase) w.wires.now := by
  cases h with
  | enterReady next phase =>
    rw [phase]
    exact ⟨fun t hs => (nomatch hs), Nat.le_refl _⟩
  | enterLate next phase =>
    rw [phase]
    refine .begin rfl (Nat.le_add_right _ _) ?_
    simp only [Stage.doneBy, allowance]
    omega
  | enterRefused => exact absurd ha Bool.false_ne_true
  | cancel waits | skip waits | fail waits | gone waits | fill waits =>
    exact absurd waits Bool.false_ne_true

/-- A call in its turn goes from stage to stage in their order, and as long as it stays in one, the
end of its wait stays the same. -/
theorem CallStep.steady (h : CallStep w id line before after w' deeds) (hb : before.inTurn = true) :
    after.ahead < before.ahead ∨
      after.ahead = before.ahead ∧ after.waitsUntil = before.waitsUntil := by
  have hwaits : before.waits = true → 1 < before.ahead := by
    intro hw
    cases before with
    | discarding => exact Nat.lt_of_sub_eq_succ rfl
    | awaiting => exact Nat.lt_of_sub_eq_succ rfl
    | _ => exact absurd hw Bool.false_ne_true
  cases h with
  | skip | fill | stale | put | arm | disarm => exact Or.inr ⟨rfl, rfl⟩
  | cancel waits | fail waits => exact Or.inl (Nat.lt_of_succ_lt (hwaits waits))
  | gone waits => exact Or.inl (hwaits waits)
  | enterReady | enterLate | enterRefused => exact absurd hb Bool.false_ne_true
  | _ => exact Or.inl (by simp [Stage.ahead])

/-! ## Time -/

/-- A call that waits can go on when its wait ends: in each stage the deadline is the last thing
that its poll looks at, so one of the branches before it is taken, or that one. -/
theorem pollCall_of_due {t : Nat} (hs : stage.waitsUntil = some t) (ht : t ≤ w.wires.now) :
    w.pollCall id line stage ≠ none := by
  cases stage with
  | discarding deadline =>
    obtain rfl := Option.some.inj hs
    unfold pollCall pollDiscarding
    dsimp only
    split
    · simp
    · split
      · split <;> simp
      · simp
      · simp
      · split <;> simp
  | awaiting deadline graceEnd =>
    obtain rfl := Option.some.inj hs
    -- with the deadline due, the timers end the call, be it by a grace that has ended as well
    have htimers : w.pollTimers id line deadline graceEnd ≠ none := by
      unfold pollTimers
      dsimp only
      rw [if_pos ht]
      cases graceEnd with
      | none => simp
      | some graceAt =>
        dsimp only
        split
        · split <;> simp
        · simp
    unfold pollCall pollAwaiting
    dsimp only
    split
    · simp
    · split
      · split <;> simp
      · simp
      · simp
      · split
        · simp
        · unfold pollQuiet
          dsimp only
          split
          · split <;> simp
          · exact htimers
  | leaving endsAt =>
    obtain rfl := Option.some.inj hs
    unfold pollCall pollLeaving
    dsimp only
    rw [if_pos ht]
    simp
  | _ => exact nomatch hs

/-- Does the call write? -/
def writes (w : World) (id : Nat) : Bool :=
  match w.task? id with
  | some (.call _ (.writing _)) => true
  | _ => false

/-- The call has nothing to do, and it does not write. -/
def idle (id : Nat) (w : World) : Bool := (w.poll id).isNone && !w.writes id

/-- A call has nothing to do exactly if its poll makes no progress and it is not waiting for room in
the pipe. -/
theorem idle_iff (ht : w.task? id = some (.call line stage)) :
    w.idle id = true ↔ w.pollCall id line stage = none ∧ ∀ rest, stage ≠ .writing rest := by
  unfold idle writes
  rw [poll_eq ht, ht, Bool.and_eq_true, Option.isNone_iff_eq_none]
  refine and_congr_right fun _ => ?_
  cases stage <;> simp

/-- Time that passes while a call has nothing to do does not put off when it is done, and it does
not go past the end of the wait. -/
theorem timely_pass (h : stage.Timely w.timing bound w.wires.now)
    (ht : w.task? id = some (.call line stage)) (hs : stage.inTurn = true)
    (hidle : ∀ k < e.span, (w.apply (.pass k)).idle id = true) :
    stage.Timely w.timing bound (w.wires.now + e.span) := by
  cases hspan : e.span with
  | zero => exact h
  | succ k =>
    -- at the last instant but one the call has nothing to do, so its wait does not end by then
    have hk : (w.apply (.pass k)).task? id = some (.call line stage) := ht
    obtain ⟨hnone, hwrites⟩ := (idle_iff hk).mp (hidle k (by omega))
    refine ⟨fun t hu => ?_, ?_⟩
    · by_contra hlate
      have hdue : t ≤ (w.apply (.pass k)).wires.now := by
        show t ≤ w.wires.now + k
        omega
      exact pollCall_of_due hu hdue hnone
    · have hdone := h.done
      cases stage with
      | writing rest => exact absurd rfl (hwrites rest)
      | queued | finished => exact absurd hs Bool.false_ne_true
      | _ => exact hdone

/-! ## A turn -/

/-- The turn of a call begins with the next poll; its caller stays, and time passes only while the
call has nothing to do. -/
structure Tended (w : World) (id : Nat) (mid : List Event) : Prop where
  /-- Its caller stays. -/
  kept : .abandon id ∉ mid
  /-- Time passes only while it has nothing to do. -/
  paced : Paced apply (idle id) (w.apply (.poll id)) mid

theorem Tended.of_append {more : List Event} (h : w.Tended id (mid ++ more)) : w.Tended id mid :=
  ⟨fun hm => h.kept (List.mem_append_left more hm), (paced_append.mp h.paced).1⟩

/-- Until a call in its turn has a result, its turn is timely. -/
theorem Orderly.timely_run (hw : w.Orderly) (ht : w.task? id = some (.call line stage))
    (hs : stage.inTurn = true) (hstart : stage.Timely w.timing bound w.wires.now)
    (hkept : .abandon id ∉ mid) (hpaced : Paced apply (idle id) w mid) :
    (∃ result, (w.run mid).callResult? id = some result) ∨
    ∃ line stage, (w.run mid).task? id = some (.call line stage) ∧ stage.inTurn = true ∧
      stage.Timely w.timing bound (w.run mid).wires.now := by
  -- the induction goes along the turn: a poll of the call, an event that leaves it alone, and the
  -- beginning
  have hturn := hw.along (P := fun past => Paced apply (idle id) w past →
    ∀ l s, (w.run past).task? id = some (.call l s) →
      s.Timely w.timing bound (w.run past).wires.now) ht hs ?_ ?_ ?_ mid hkept
  · rcases hturn with hresult | ⟨⟨l, s, hl, hturn⟩, hP⟩
    · exact Or.inl hresult
    · exact Or.inr ⟨l, s, hl, hturn, hP hpaced l s hl⟩
  · intro _ l s hl
    obtain ⟨-, rfl⟩ := call_inj ht hl
    exact hstart
  · intro past e l before after hP htask hb poll ha hpast l' s hl
    rw [run_concat] at hl ⊢
    obtain ⟨-, rfl⟩ := call_inj (poll.self htask) hl
    have hnow := hP (paced_concat.mp hpast).1 l before htask
    rw [← hw.timing_run past] at hnow ⊢
    rw [poll.now]
    exact poll.timely hb ha hnow
  · intro past e l s hP htask hb calm hsame hpast l' s' hl
    rw [run_concat] at hl ⊢
    obtain ⟨-, rfl⟩ := call_inj hsame hl
    obtain ⟨hbefore, hidle⟩ := paced_concat.mp hpast
    have hnow := hP hbefore l s htask
    rw [← hw.timing_run past] at hnow ⊢
    rw [now_apply]
    exact timely_pass hnow htask hb hidle

/-- The same from the beginning of the turn on: the poll that begins it leaves a call that waits,
writes or is done, and each of these is tended by what remains of the run. -/
theorem Tended.timely (h : w.Tended id mid) (hw : w.Orderly) (hin : w.Enters id) :
    (∃ result, (w.run (.poll id :: mid)).callResult? id = some result) ∨
    ∃ line stage, (w.run (.poll id :: mid)).task? id = some (.call line stage) ∧
      stage.inTurn = true ∧
      stage.Timely w.timing (w.wires.now + allowance w.timing w.phase)
        (w.run (.poll id :: mid)).wires.now := by
  obtain ⟨line, after, ht, hpoll⟩ := hin.poll hw
  have hself := hpoll.self ht
  have hv : (w.apply (.poll id)).Orderly := hw.step (apply_cases w _)
  rcases hpoll.goes with hafter | ⟨result, rfl⟩
  · have hstart : after.Timely (w.apply (.poll id)).timing
        (w.wires.now + allowance w.timing w.phase) (w.apply (.poll id)).wires.now := by
      rw [hpoll.timing, hpoll.now]
      exact hpoll.timely_of_queued hafter
    have hrun := hv.timely_run hself hafter hstart h.kept h.paced
    rw [hpoll.timing] at hrun
    exact hrun
  · have hr := callResult?_eq_some.mpr ⟨line, hself⟩
    exact Or.inl ⟨result, callResult?_run hr mid h.kept⟩

theorem callResult?_of_inTurn (ht : w.task? id = some (.call line stage))
    (hs : stage.inTurn = true) : w.callResult? id = none := by
  cases hr : w.callResult? id with
  | none => rfl
  | some result =>
    obtain ⟨l, hl⟩ := callResult?_eq_some.mp hr
    obtain ⟨-, rfl⟩ := call_inj ht hl
    exact absurd hs Bool.false_ne_true

/-- As long as the call has no result, its allowance is not used up. -/
theorem Tended.waits (h : w.Tended id mid) (hw : w.Orderly) (hin : w.Enters id)
    (hn : (w.run (.poll id :: mid)).callResult? id = none) :
    (w.run (.poll id :: mid)).wires.now ≤ w.wires.now + allowance w.timing w.phase := by
  rcases h.timely hw hin with ⟨result, hr⟩ | ⟨l, s, -, -, htimely⟩
  · rw [hn] at hr
    exact nomatch hr
  · exact htimely.now_le

/-- A result that the call has was there before its allowance was used up. -/
theorem Tended.returns (h : w.Tended id mid) (hw : w.Orderly) (hin : w.Enters id)
    {result : Result} (hr : (w.run (.poll id :: mid)).callResult? id = some result) :
    ∃ early, early <+: mid ∧ (w.run (.poll id :: early)).callResult? id = some result ∧
      (w.run (.poll id :: early)).wires.now ≤ w.wires.now + allowance w.timing w.phase := by
  induction mid using List.reverseRecOn with
  | nil =>
    refine ⟨[], List.prefix_rfl, hr, ?_⟩
    show (w.apply (.poll id)).wires.now ≤ _
    rw [now_apply]
    exact Nat.le_add_right _ _
  | append_singleton past e ih =>
    have hpast := h.of_append
    cases hn : (w.run (.poll id :: past)).callResult? id with
    | none =>
      -- the event that gives a result takes no time
      refine ⟨past ++ [e], List.prefix_rfl, hr, ?_⟩
      have hinstant : e.span = 0 := by
        cases e with
        | pass ms =>
          rw [← List.cons_append, run_concat] at hr
          have hsame : (w.run (.poll id :: past)).callResult? id = some result := hr
          rw [hn] at hsame
          exact nomatch hsame
        | _ => rfl
      rw [← List.cons_append, run_concat, now_apply, hinstant]
      exact hpast.waits hw hin hn
    | some r =>
      have hkept : e ≠ .abandon id := by
        rintro rfl
        exact h.kept (by simp)
      have hstays := (apply_cases (w.run (.poll id :: past)) e).callResult?_of hn hkept
      rw [← run_concat, List.cons_append, hr] at hstays
      obtain rfl := Option.some.inj hstays
      obtain ⟨early, hearly, hrest⟩ := ih hpast hn
      exact ⟨early, hearly.trans (List.prefix_append past [e]), hrest⟩

/-- While a call is in its turn, a wait that has begun keeps its end. -/
theorem Orderly.keeps_deadline (hw : w.Orderly) (ht : w.task? id = some (.call line stage))
    (hs : stage.inTurn = true) {more : List Event} (hkept : .abandon id ∉ more) {l : List UInt8}
    {s : Stage} (hl : (w.run more).task? id = some (.call l s)) (hturn : s.inTurn = true)
    (hsame : s.ahead = stage.ahead) : s.waitsUntil = stage.waitsUntil := by
  -- the stages lie one behind the other, and a call that is as far as before has the same deadline
  have hruns := hw.along (P := fun past => ∀ l s, (w.run past).task? id = some (.call l s) →
    s.ahead < stage.ahead ∨ s.ahead = stage.ahead ∧ s.waitsUntil = stage.waitsUntil)
    ht hs ?_ ?_ ?_ more hkept
  · rcases hruns with ⟨result, hr⟩ | ⟨-, hP⟩
    · rw [callResult?_of_inTurn hl hturn] at hr
      exact nomatch hr
    · exact ((hP l s hl).resolve_left (by omega)).2
  · intro l s hl
    obtain ⟨-, rfl⟩ := call_inj ht hl
    exact Or.inr ⟨rfl, rfl⟩
  · intro past e l before after hP ht' hb poll ha l' s' hs'
    rw [run_concat] at hs'
    obtain ⟨-, rfl⟩ := call_inj (poll.self ht') hs'
    rcases hP l before ht', poll.steady hb with ⟨hless | ⟨heq, huntil⟩, hless' | ⟨heq', huntil'⟩⟩
    · exact Or.inl (hless'.trans hless)
    · exact Or.inl (heq' ▸ hless)
    · exact Or.inl (heq ▸ hless')
    · exact Or.inr ⟨heq'.trans heq, huntil'.trans huntil⟩
  · intro past e l s hP ht' hb calm hstays l' s' hs'
    rw [run_concat] at hs'
    obtain ⟨-, rfl⟩ := call_inj hstays hs'
    exact hP l s ht'

/-! ## The end of a turn -/

/-- What is read makes what a call may still have to do less. -/
theorem effort_lt_of_waits {v v' : Wires} (hs : stage.waits = true) (h : v'.backlog < v.backlog) :
    stage.effort v' line < stage.effort v line := by
  cases stage with
  | discarding | awaiting =>
    simp only [Stage.effort]
    omega
  | _ => exact absurd hs Bool.false_ne_true

theorem one_lt_effort_of_waits {v : Wires} (hs : stage.waits = true) :
    1 < stage.effort v line := by
  cases stage with
  | discarding | awaiting =>
    simp only [Stage.effort]
    omega
  | _ => exact absurd hs Bool.false_ne_true

/-- Reading makes the backlog smaller, since bytes that are on their way count twice. -/
theorem backlog_withOutput {q : Pipe}
    (h : q.held.length + 2 * q.bytes.length <
      w.wires.output.held.length + 2 * w.wires.output.bytes.length) :
    (w.withOutput q).wires.backlog < w.wires.backlog := Nat.add_lt_add_right h _

/-- After every poll of a call in its turn there is less to do. -/
theorem CallStep.less (h : CallStep w id line before after w' deeds) (hb : before.inTurn = true) :
    after.effort w'.wires line < before.effort w.wires line := by
  cases h with
  | skip waits going read =>
    exact effort_lt_of_waits waits (backlog_withOutput (Pipe.nextLine?_less read (by simp)))
  | fill waits going none some =>
    exact effort_lt_of_waits waits (backlog_withOutput (Pipe.fill?_less some))
  | gone waits => exact one_lt_effort_of_waits waits
  | cancel waits | fail waits => exact Nat.lt_of_succ_lt (one_lt_effort_of_waits waits)
  | @discard deadline text output going read =>
    have hless := backlog_withOutput (Pipe.nextLine?_less read (by simp))
    -- the line that is discarded makes up for the stage that begins
    show (w.withOutput output).wires.backlog + line.length + 3 < w.wires.backlog + line.length + 4
    omega
  | @put rest more writing reading room =>
    have hlength := List.length_pos_iff.mpr more
    show w.wires.backlog + (rest.drop w.wires.input.room).length + 3 <
      w.wires.backlog + rest.length + 3
    rw [List.length_drop]
    omega
  | stale quiet permit | arm quiet permit =>
    simp only [Stage.effort, Wires.backlog, goOn, setTask, Stderr.Buffer.poll, permit]
    simp
  | disarm =>
    simp only [Stage.effort, Wires.backlog, goOn, setTask, Wires.clearErrors, Stderr.Buffer.clear]
    simp
  | enterReady | enterLate | enterRefused => exact absurd hb Bool.false_ne_true
  | written =>
    show w.wires.backlog + 0 + 2 < w.wires.backlog + 0 + 3
    omega
  | _ => simp [Stage.effort]

/-- A call that waits goes on at some instant, and until then it has nothing to do. -/
theorem goes_on_of_wait {t : Nat} (ht : w.task? id = some (.call line stage))
    (hs : stage.waitsUntil = some t) :
    ∃ ms w', (∀ k < ms, (w.apply (.pass k)).idle id = true) ∧
      (w.apply (.pass ms)).pollCall id line stage = some w' := by
  have hends : ∃ ms, ((w.apply (.pass ms)).pollCall id line stage).isSome = true := by
    have hdue : t ≤ (w.apply (.pass t)).wires.now := Nat.le_add_left _ _
    exact ⟨t, Option.isSome_iff_ne_none.mpr (pollCall_of_due hs hdue)⟩
  -- the first such instant: before it there is nothing to do
  obtain ⟨w', hw'⟩ := Option.isSome_iff_exists.mp (Nat.find_spec hends)
  refine ⟨Nat.find hends, w', fun k hk => ?_, hw'⟩
  have htask : (w.apply (.pass k)).task? id = some (.call line stage) := ht
  refine (idle_iff htask).mpr ⟨?_, ?_⟩
  · exact Option.not_isSome_iff_eq_none.mp (Nat.find_min hends hk)
  · rintro rest rfl
    exact nomatch hs

/-- A call in its turn goes on some time, and until then it has nothing to do. -/
theorem goes_on (ht : w.task? id = some (.call line stage)) (hs : stage.inTurn = true) :
    ∃ e w', e.serves id = true ∧ (∀ k < e.span, (w.apply (.pass k)).idle id = true) ∧
      (w.apply e).task? id = some (.call line stage) ∧
      stage.effort (w.apply e).wires line = stage.effort w.wires line ∧
      (w.apply e).pollCall id line stage = some w' := by
  cases hu : stage.waitsUntil with
  | some t =>
    obtain ⟨ms, w', hidle, hpoll⟩ := goes_on_of_wait ht hu
    exact ⟨.pass ms, w', rfl, hidle, ht, rfl, hpoll⟩
  | none =>
    cases stage with
    | writing rest =>
      obtain ⟨w', hpoll⟩ := goes_on_of_writing w id line rest
      exact ⟨.kernelTakes _, w', rfl, fun k hk => absurd hk (Nat.not_lt_zero k), ht, rfl, hpoll⟩
    | queued | finished => exact absurd hs Bool.false_ne_true
    | _ => exact nomatch hu

/-- A call in its turn comes to a result, if the kernel takes its input. -/
theorem comes_to_result (ht : w.task? id = some (.call line stage)) (hs : stage.inTurn = true) :
    ∃ more result, (∀ e ∈ more, e.serves id = true) ∧ Paced apply (idle id) w more ∧
      (w.run more).callResult? id = some result := by
  induction hn : stage.effort w.wires line using Nat.strong_induction_on generalizing w stage with
  | _ n ih =>
    obtain ⟨e, w', hserves, hidle, ht', hsame, hcall⟩ := goes_on ht hs
    obtain ⟨after, deeds, hstep⟩ := pollCall_cases hcall
    have hpoll : (w.apply e).apply (.poll id) = w' := apply_poll ((poll_eq ht').trans hcall)
    have hself := hstep.self ht'
    -- two events lead to a state with less to do, or to the result
    have hfirst : ∀ more, (∀ e ∈ more, e.serves id = true) → Paced apply (idle id) w' more →
        (∀ x ∈ e :: .poll id :: more, x.serves id = true) ∧
          Paced apply (idle id) w (e :: .poll id :: more) ∧
          w.run (e :: .poll id :: more) = w'.run more := by
      intro more hmore hpaced
      rw [← hpoll] at hpaced ⊢
      refine ⟨?_, ⟨hidle, hpaced.instant rfl⟩, rfl⟩
      intro x hx
      rcases List.mem_cons.mp hx with rfl | hx
      · exact hserves
      · rcases List.mem_cons.mp hx with rfl | hx
        · exact beq_self_eq_true id
        · exact hmore x hx
    rcases hstep.goes with hafter | ⟨result, rfl⟩
    · have hless := hstep.less hs
      rw [hsame, hn] at hless
      obtain ⟨more, result, hmore, hpaced, hr⟩ := ih _ hless hself hafter rfl
      obtain ⟨hkind, hall, hrun⟩ := hfirst more hmore hpaced
      exact ⟨_, result, hkind, hall, hrun ▸ hr⟩
    · obtain ⟨hkind, hall, hrun⟩ := hfirst [] (fun _ h => absurd h List.not_mem_nil) trivial
      exact ⟨_, result, hkind, hall, hrun ▸ callResult?_eq_some.mpr ⟨line, hself⟩⟩

/-- A call that is tended comes to a result, if the kernel takes its input. -/
theorem Tended.ends (h : w.Tended id mid) (hw : w.Orderly) (hin : w.Enters id) :
    ∃ more result, (∀ e ∈ more, e.serves id = true) ∧ w.Tended id (mid ++ more) ∧
      (w.run (.poll id :: (mid ++ more))).callResult? id = some result := by
  rcases h.timely hw hin with ⟨result, hr⟩ | ⟨line, stage, ht, hs, -⟩
  · refine ⟨[], result, by simp, ?_, ?_⟩
    · rw [List.append_nil]
      exact h
    · rw [List.append_nil]
      exact hr
  · obtain ⟨more, result, hmore, hpaced, hr⟩ := comes_to_result ht hs
    refine ⟨more, result, hmore, ⟨fun hm => ?_, paced_append.mpr ⟨h.paced, hpaced⟩⟩, ?_⟩
    · rcases List.mem_append.mp hm with hm | hm
      · exact h.kept hm
      · exact absurd (hmore _ hm) Bool.false_ne_true
    · rw [← List.cons_append, run_append]
      exact hr

/-- A phase that admits no calls gives the call its result at once. -/
theorem Enters.refused (hin : w.Enters id) (hw : w.Orderly) {err : LinkError}
    (hp : w.phase.refusal = some err) :
    (w.apply (.poll id)).callResult? id = some (.error err) := by
  obtain ⟨line, after, ht, hpoll⟩ := hin.poll hw
  have hself := hpoll.self ht
  generalize w.apply (.poll id) = w' at hpoll hself ⊢
  generalize w.deeds (.poll id) = deeds at hpoll
  cases hpoll with
  | enterReady next phase | enterLate next phase =>
    rw [phase] at hp
    exact nomatch hp
  | enterRefused next refusal =>
    obtain rfl := Option.some.inj (refusal.symm.trans hp)
    exact callResult?_eq_some.mpr ⟨line, hself⟩
  | cancel waits | skip waits | fail waits | gone waits | fill waits =>
    exact absurd waits Bool.false_ne_true

/-! ## Every turn -/

/-- The turn of a call begins with its next poll. As long as the call is tended, it is done within
its allowance. -/
structure InBounds (w : World) (id : Nat) : Prop where
  /-- As long as it has no result, its allowance is not used up. -/
  waits : ∀ mid, w.Tended id mid → (w.run (.poll id :: mid)).callResult? id = none →
    (w.run (.poll id :: mid)).wires.now ≤ w.wires.now + allowance w.timing w.phase
  /-- A result that it has was there before its allowance was used up. -/
  returns : ∀ mid result, w.Tended id mid →
    (w.run (.poll id :: mid)).callResult? id = some result →
    ∃ early, early <+: mid ∧ (w.run (.poll id :: early)).callResult? id = some result ∧
      (w.run (.poll id :: early)).wires.now ≤ w.wires.now + allowance w.timing w.phase
  /-- It comes to a result with nothing but time and its polls, if the kernel takes its input. -/
  ends : ∀ mid, w.Tended id mid → ∃ more result, (∀ e ∈ more, e.serves id = true) ∧
    w.Tended id (mid ++ more) ∧ (w.run (.poll id :: (mid ++ more))).callResult? id = some result
  /-- Whatever happens, a wait that has begun keeps its end. -/
  steady : ∀ mid more line stage line' stage', .abandon id ∉ mid ++ more →
    (w.run (.poll id :: mid)).task? id = some (.call line stage) → stage.inTurn = true →
    (w.run (.poll id :: (mid ++ more))).task? id = some (.call line' stage') →
    stage'.inTurn = true → stage'.ahead = stage.ahead → stage'.waitsUntil = stage.waitsUntil
  /-- It is refused at once by a phase that admits no calls. -/
  refused : ∀ err, w.phase.refusal = some err →
    (w.apply (.poll id)).callResult? id = some (.error err)

/-- In every run, whatever it was before, every call whose turn comes is done within its
allowance. -/
theorem in_bounds (timing : Timing) (wires : Wires) (past : List Event) (id : Nat)
    (h : ((World.new timing wires).run past).Enters id) :
    ((World.new timing wires).run past).InBounds id := by
  have hw := (Orderly.new timing wires).run past
  refine ⟨fun mid hs hn => hs.waits hw h hn, fun mid result hs hr => hs.returns hw h hr,
    fun mid hs => hs.ends hw h, ?_, fun err hp => h.refused hw hp⟩
  intro mid more line stage line' stage' hkept ht hs ht' hs' hsame
  have hv := (hw.run (.poll id :: mid))
  rw [← List.cons_append, run_append] at ht'
  exact hv.keeps_deadline ht hs (fun hm => hkept (List.mem_append_right mid hm)) ht' hs' hsame

/-! ## A turn that uses up its allowance -/

/-- A call fails with error output, and another one begins. -/
def lateStart : List Event :=
  [.call 0 [10], .poll 0, .poll 0, .poll 0, .kernelReports [97], .capture, .capture, .poll 0,
    .pass 3, .poll 0, .call 1 [10]]

/-- The late reply comes at the last moment. Then there is blank error output, and again at the last
moment the kernel is gone. -/
def lateTurn : List Event :=
  [.kernelWrites [10], .poll 1, .poll 1, .pass 5, .kernelWrites [123, 125, 10], .poll 1, .poll 1,
    .poll 1, .poll 1, .kernelReports [32], .capture, .capture, .poll 1, .pass 3, .poll 1, .pass 2,
    .kernelClosesOutput, .poll 1, .pass 3]

/-- The call waits for the late reply, for its own, and for the last words of the kernel, all three
as long as it may, and then it is done. -/
theorem in_bounds_of_late_turn :
    ((World.new ⟨1, 5, 3, 1, 9⟩ (.new 0 9)).run lateStart).Enters 1 ∧
    ((World.new ⟨1, 5, 3, 1, 9⟩ (.new 0 9)).run lateStart).Tended 1 lateTurn ∧
    ((World.new ⟨1, 5, 3, 1, 9⟩ (.new 0 9)).run (lateStart ++ .poll 1 :: lateTurn)).wires.now =
      ((World.new ⟨1, 5, 3, 1, 9⟩ (.new 0 9)).run lateStart).wires.now + (2 * 5 + 3) ∧
    ∃ more result, (∀ e ∈ more, e.serves 1 = true) ∧
      ((World.new ⟨1, 5, 3, 1, 9⟩ (.new 0 9)).run lateStart).Tended 1 (lateTurn ++ more) ∧
      (((World.new ⟨1, 5, 3, 1, 9⟩ (.new 0 9)).run lateStart).run
        (.poll 1 :: (lateTurn ++ more))).callResult? 1 = some result := by
  have henters : ((World.new ⟨1, 5, 3, 1, 9⟩ (.new 0 9)).run lateStart).Enters 1 := by
    unfold Enters
    decide +kernel
  have htended : ((World.new ⟨1, 5, 3, 1, 9⟩ (.new 0 9)).run lateStart).Tended 1 lateTurn :=
    ⟨by simp [lateTurn], by decide +kernel⟩
  exact ⟨henters, htended, by decide +kernel, (in_bounds _ _ _ _ henters).ends _ htended⟩

end World
end KernelLink.Session

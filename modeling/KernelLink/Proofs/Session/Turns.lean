import KernelLink.Proofs.Session.Events
import Mathlib.Data.List.Induction
/-!
# One call at a time

Any number of calls may wait, but only the one whose turn it is reads or writes, and how far it has
got fits the phase of the conversation: it waits for a late reply only while one is outstanding, it
writes and waits for its own reply only while none was, and it leaves only when the kernel is gone.
This holds after every event whatsoever, callers that go away included.

Main definitions:
* `Stage.Fits`: the phases in which a call can be in a stage.
* `Stage.sends`: the stages of a call whose reply is due.
* `World.Orderly`: the invariant.
* `World.Calm`: what may happen besides the polls of calls.

Main results:
* `World.CallStep.turn`, `World.CallStep.fits`: where a poll leaves the turn and the phase.
* `World.Orderly.step`, `World.Orderly.run`: every event keeps the invariant.
* `World.EventStep.poll_or_calm`: an event is the poll of a call, or calls go on undisturbed.
* `World.Orderly.poll_of_deed`: whatever a call does, it does at a poll.
-/
namespace KernelLink.Session

/-- The phases in which a call can be in a stage. -/
def Stage.Fits : Stage → Phase → Prop
  | .queued, _ | .finished _, _ => True
  | .discarding _, phase => phase = .replyOutstanding
  | .writing _, phase | .awaiting _ _, phase => phase = .ready
  | .leaving _, phase => phase = .exited

/-- Does a call in this stage write, or wait for the reply to what it wrote? -/
def Stage.sends : Stage → Bool
  | .writing _ | .awaiting _ _ => true
  | .queued | .discarding _ | .leaving _ | .finished _ => false

theorem Stage.fits_of_not_inTurn {stage : Stage} (phase : Phase) (h : stage.inTurn = false) :
    stage.Fits phase := by
  cases stage with
  | queued => trivial
  | finished result => trivial
  | discarding deadline => exact absurd h.symm Bool.false_ne_true
  | writing rest => exact absurd h.symm Bool.false_ne_true
  | awaiting deadline graceEnd => exact absurd h.symm Bool.false_ne_true
  | leaving endsAt => exact absurd h.symm Bool.false_ne_true

theorem Stage.inTurn_of_waits {stage : Stage} (h : stage.waits = true) : stage.inTurn = true := by
  cases stage with
  | discarding deadline => rfl
  | awaiting deadline graceEnd => rfl
  | queued => exact absurd h Bool.false_ne_true
  | writing rest => exact absurd h Bool.false_ne_true
  | leaving endsAt => exact absurd h Bool.false_ne_true
  | finished result => exact absurd h Bool.false_ne_true

theorem Stage.inTurn_of_sends {stage : Stage} (h : stage.sends = true) : stage.inTurn = true := by
  cases stage with
  | writing rest => rfl
  | awaiting deadline graceEnd => rfl
  | queued => exact absurd h Bool.false_ne_true
  | discarding deadline => exact absurd h Bool.false_ne_true
  | leaving endsAt => exact absurd h Bool.false_ne_true
  | finished result => exact absurd h Bool.false_ne_true

namespace World

variable {w w' : World} {id : Nat} {line : List UInt8} {before after : Stage} {deeds : List Deed}

/-- The holder is the only call in its turn, and the stages of all calls fit the phase. -/
structure Orderly (w : World) : Prop where
  /-- A call in its turn is the holder. -/
  turn : ∀ {id line stage}, w.task? id = some (.call line stage) → stage.inTurn = true →
    w.holder = some id
  /-- The holder is a call in its turn. -/
  held : ∀ {id}, w.holder = some id →
    ∃ line stage, w.task? id = some (.call line stage) ∧ stage.inTurn = true
  /-- The stage of a call fits the phase. -/
  fits : ∀ {id line stage}, w.task? id = some (.call line stage) → stage.Fits w.phase

theorem Orderly.new (timing : Timing) (wires : Wires) : (World.new timing wires).Orderly where
  turn h := absurd h (by simp [World.new, task?])
  held h := absurd h (by simp [World.new])
  fits h := absurd h (by simp [World.new, task?])

/-! ## The polls of a call -/

theorem holder_of_isNext (h : w.isNext id = true) : w.holder = none := by
  unfold isNext at h
  rw [Bool.and_eq_true] at h
  exact Option.isNone_iff_eq_none.mp h.1

/-- Whoever is polled to some effect has its turn or gets it. -/
theorem CallStep.holder (h : CallStep w id line before after w' deeds) (hw : w.Orderly)
    (ht : w.task? id = some (.call line before)) : w.holder = none ∨ w.holder = some id := by
  by_cases hb : before.inTurn = true
  · exact Or.inr (hw.turn ht hb)
  · -- out of its turn a call is queued, and a poll moves it only if nobody else has the turn
    cases h with
    | enterReady next => exact Or.inl (holder_of_isNext next)
    | enterLate next => exact Or.inl (holder_of_isNext next)
    | enterRefused next => exact Or.inl (holder_of_isNext next)
    | cancel waits | skip waits | fail waits | gone waits | fill waits =>
      exact absurd (Stage.inTurn_of_waits waits) hb
    | _ => exact absurd rfl hb

/-- Only the call whose turn it is, or one that waits for it, is polled to any effect. -/
theorem CallStep.only (h : CallStep w id line before after w' deeds) (hw : w.Orderly)
    (ht : w.task? id = some (.call line before)) {i : Nat} {l : List UInt8} {stage : Stage}
    (hi : w.task? i = some (.call l stage)) (hs : stage.inTurn = true) : i = id := by
  have hheld := hw.turn hi hs
  rcases h.holder hw ht with hn | hn
  · rw [hn] at hheld
    exact absurd hheld.symm (Option.some_ne_none i)
  · rw [hn, Option.some.injEq] at hheld
    exact hheld.symm

/-- After a poll no other call is in its turn, since none was before it. -/
theorem CallStep.only_after (h : CallStep w id line before after w' deeds) (hw : w.Orderly)
    (ht : w.task? id = some (.call line before)) {i : Nat} {l : List UInt8} {stage : Stage}
    (hi : w'.task? i = some (.call l stage)) (hs : stage.inTurn = true) : i = id := by
  by_contra hne
  rw [h.others hne] at hi
  exact hne (h.only hw ht hi hs)

/-- A call keeps its turn until it is finished, and lets go of it in the step that finishes it. -/
theorem CallStep.turn (h : CallStep w id line before after w' deeds) (hw : w.Orderly)
    (ht : w.task? id = some (.call line before)) :
    w'.holder = if after.inTurn then some id else none := by
  -- a call that goes on holds what it held; one that is finished has let go of it
  have hold : before.inTurn = true → w.holder = some id := hw.turn ht
  have hfree : w.holder = some id → (if w.holder = some id then none else w.holder) = none :=
    fun h => if_pos h
  cases h with
  | enterReady next phase => rfl
  | enterLate next phase => rfl
  | enterRefused next refusal => exact if_pos rfl
  | cancel waits told => exact hfree (hold (Stage.inTurn_of_waits waits))
  | skip waits going read blank =>
    rw [Stage.inTurn_of_waits waits]
    exact hold (Stage.inTurn_of_waits waits)
  | fail waits going read => exact hfree (hold (Stage.inTurn_of_waits waits))
  | gone waits going read => exact hold (Stage.inTurn_of_waits waits)
  | fill waits going none some =>
    rw [Stage.inTurn_of_waits waits]
    exact hold (Stage.inTurn_of_waits waits)
  | discard going read inked => exact hold rfl
  | missing quiet due => exact hfree (hold rfl)
  | written => exact hold rfl
  | broken more shut => exact hold rfl
  | put more writing reading room => exact hold rfl
  | reply going read inked decoded => exact hfree (hold rfl)
  | garbled going read inked undecoded => exact hfree (hold rfl)
  | stale quiet permit empty => exact hold rfl
  | arm quiet permit filled => exact hold rfl
  | disarm quiet due blank => exact hold rfl
  | report quiet due inked => exact hfree (hold rfl)
  | overdue quiet due running unwoken => exact hfree (hold rfl)
  | leave due => exact hfree (hold rfl)

/-- The stage after fits the phase after, as every rule changes the two together. -/
theorem CallStep.fits (h : CallStep w id line before after w' deeds) (hw : w.Orderly)
    (ht : w.task? id = some (.call line before)) : after.Fits w'.phase := by
  have hfit : before.Fits w.phase := hw.fits ht
  cases h with
  | enterReady next phase => exact phase
  | enterLate next phase => exact phase
  | skip waits going read blank => exact hfit
  | gone waits going read => exact rfl
  | fill waits going none some => exact hfit
  | discard going read inked => exact rfl
  | written => exact hfit
  | broken more shut => exact rfl
  | put more writing reading room => exact hfit
  | stale quiet permit empty => exact hfit
  | arm quiet permit filled => exact hfit
  | disarm quiet due blank => exact hfit
  | _ => exact True.intro

/-! ## Every event -/

/-- A poll of a call keeps the order: its own stage agrees with the turn by `CallStep.turn`, and the
others are not in theirs. -/
theorem Orderly.call (hw : w.Orderly) (ht : w.task? id = some (.call line before))
    (h : CallStep w id line before after w' deeds) : w'.Orderly := by
  -- the other calls stay where they are, and that is not in their turn
  have hother : ∀ {i line stage}, i ≠ id → w.task? i = some (.call line stage) →
      stage.inTurn = false := by
    intro i l stage hi hti
    by_contra hb
    rw [Bool.not_eq_false] at hb
    exact hi (h.only hw ht hti hb)
  refine ⟨fun {i l stage} hti hb => ?_, fun {i} hheld => ?_, fun {i l stage} hti => ?_⟩
  · by_cases hi : i = id
    · subst hi
      replace hti := call_inj (h.self ht) hti
      rw [h.turn hw ht, hti.2, if_pos hb]
    · rw [h.others hi] at hti
      rw [hother hi hti] at hb
      exact absurd hb Bool.false_ne_true
  · rw [h.turn hw ht] at hheld
    by_cases hb : after.inTurn = true
    · rw [if_pos hb, Option.some.injEq] at hheld
      subst hheld
      exact ⟨line, after, h.self ht, hb⟩
    · rw [if_neg hb] at hheld
      exact absurd hheld (by simp)
  · by_cases hi : i = id
    · subst hi
      replace hti := call_inj (h.self ht) hti
      rw [← hti.2]
      exact h.fits hw ht
    · rw [h.others hi] at hti
      exact Stage.fits_of_not_inTurn _ (hother hi hti)

/-- What leaves the turn and the phase as they are keeps the order, if it changes only calls that
are not in their turn. -/
theorem Orderly.of_calls (hw : w.Orderly) (hholder : w'.holder = w.holder)
    (hphase : w'.phase = w.phase)
    (hcalls : ∀ {i line stage}, w'.task? i = some (.call line stage) →
      stage.inTurn = false ∨ w.task? i = some (.call line stage))
    (hback : ∀ {i line stage}, w.task? i = some (.call line stage) → stage.inTurn = true →
      w'.task? i = some (.call line stage)) : w'.Orderly := by
  refine ⟨fun {i l stage} hti hb => ?_, fun {i} hheld => ?_, fun {i l stage} hti => ?_⟩
  · rcases hcalls hti with hn | hs
    · rw [hn] at hb
      exact absurd hb Bool.false_ne_true
    · rw [hholder]
      exact hw.turn hs hb
  · rw [hholder] at hheld
    obtain ⟨l, stage, hti, hb⟩ := hw.held hheld
    exact ⟨l, stage, hback hti hb, hb⟩
  · rcases hcalls hti with hn | hs
    · exact Stage.fits_of_not_inTurn _ hn
    · rw [hphase]
      exact hw.fits hs

/-- What leaves the calls, the turn and the phase as they are keeps the order. -/
theorem Orderly.of_same (hw : w.Orderly) (htasks : w'.tasks = w.tasks)
    (hholder : w'.holder = w.holder) (hphase : w'.phase = w.phase) : w'.Orderly := by
  have hsame : ∀ i, w'.task? i = w.task? i := by
    intro i
    unfold task?
    rw [htasks]
  exact hw.of_calls hholder hphase (fun {i _ _} h => Or.inr (hsame i ▸ h))
    (fun {i _ _} h _ => (hsame i).symm ▸ h)

/-- A call that is put where it is not in its turn is none of those in their turn. -/
theorem inTurn_of_placed {stage : Stage} (hs : stage.inTurn = false)
    (htask : ∀ i, w'.task? i = if i = id then some (.call line stage) else w.task? i) {i : Nat}
    {l : List UInt8} {s : Stage} (ht : w'.task? i = some (.call l s)) (hb : s.inTurn = true) :
    w.task? i = some (.call l s) := by
  rw [htask] at ht
  by_cases hi : i = id
  · rw [if_pos hi, Option.some.injEq, Task.call.injEq] at ht
    rw [← ht.2, hs] at hb
    exact absurd hb Bool.false_ne_true
  · rw [if_neg hi] at ht
    exact ht

/-- Putting a call that was not in its turn where it is not in its turn keeps the order. -/
theorem Orderly.place (hw : w.Orderly) (hholder : w'.holder = w.holder)
    (hphase : w'.phase = w.phase) {stage : Stage} (hs : stage.inTurn = false)
    (hid : ∀ {l s}, w.task? id = some (.call l s) → s.inTurn = false)
    (htask : ∀ i, w'.task? i = if i = id then some (.call line stage) else w.task? i) :
    w'.Orderly := by
  refine hw.of_calls hholder hphase (fun {i l s} hti => ?_) (fun {i l s} hti hb => ?_)
  · cases hb : s.inTurn with
    | false => exact Or.inl rfl
    | true => exact Or.inr (inTurn_of_placed hs htask hti hb)
  · rw [htask]
    by_cases hi : i = id
    · rw [hi] at hti
      rw [hid hti] at hb
      exact absurd hb Bool.false_ne_true
    · rw [if_neg hi]
      exact hti

theorem not_inTurn_of_none (h : w.task? id = none) {l : List UInt8} {s : Stage}
    (ht : w.task? id = some (.call l s)) : s.inTurn = false := by
  rw [h] at ht
  exact absurd ht (by simp)

theorem not_inTurn_of_queued (h : w.task? id = some (.call line .queued)) {l : List UInt8}
    {s : Stage} (ht : w.task? id = some (.call l s)) : s.inTurn = false := by
  replace ht := call_inj h ht
  rw [← ht.2]
  rfl

/-- A call that waits for its turn does not have it, since whoever holds it is in a stage of his
turn. -/
theorem Orderly.not_holder (hw : w.Orderly) (ht : w.task? id = some (.call line .queued)) :
    w.holder ≠ some id := by
  intro hheld
  obtain ⟨l, stage, hti, hb⟩ := hw.held hheld
  rw [not_inTurn_of_queued ht hti] at hb
  exact absurd hb Bool.false_ne_true

/-- A call that finishes is found with its result, and every other task as it was. -/
theorem task?_finish (ht : w.task? id = some (.call line before)) (result : Result) (i : Nat) :
    (w.finish id line result).task? i =
      if i = id then some (.call line (.finished result)) else w.task? i := by
  have hset : (w.finish id line result).task? i = _ := task?_setTask w id i _
  rw [hset]
  by_cases hi : i = id
  · rw [if_pos hi, if_pos hi, hi, ht]
    rfl
  · rw [if_neg hi, if_neg hi]

/-- Whoever goes away gives back the turn if it was theirs; the stages of the others stay and fit as
before. -/
theorem Orderly.abandon (hw : w.Orderly) (id : Nat) : (w.abandon id).Orderly := by
  have hholder : (w.abandon id).holder = if w.holder = some id then none else w.holder := rfl
  refine ⟨fun {i l stage} hti hb => ?_, fun {i} hheld => ?_, fun {i l stage} hti => ?_⟩
  · rw [task?_abandon] at hti
    -- the one who went away is no task any more
    by_cases hi : i = id
    · rw [if_pos hi] at hti
      exact absurd hti (by simp)
    · rw [if_neg hi] at hti
      have hheld := hw.turn hti hb
      rw [hholder, hheld, if_neg (by simpa using hi)]
  · rw [hholder] at hheld
    by_cases hi : w.holder = some id
    · rw [if_pos hi] at hheld
      exact absurd hheld (by simp)
    · rw [if_neg hi] at hheld
      obtain ⟨l, stage, hti, hb⟩ := hw.held hheld
      refine ⟨l, stage, ?_, hb⟩
      rw [task?_abandon, if_neg (fun e : i = id => hi (e ▸ hheld))]
      exact hti
  · rw [task?_abandon] at hti
    by_cases hi : i = id
    · rw [if_pos hi] at hti
      exact absurd hti (by simp)
    · rw [if_neg hi] at hti
      exact hw.fits hti

/-- A closing takes its turn only when no call has one, so there is none to fall out with the new
phase. -/
theorem Orderly.exit (hw : w.Orderly) {stage : CloseStage}
    (ht : w.task? id = some (.close stage)) (hn : w.isNext id = true) :
    ((w.exit.setTask id (.close .taking)).release id).Orderly := by
  have hnone := holder_of_isNext hn
  have hholder : ((w.exit.setTask id (.close .taking)).release id).holder = none := by
    show (if w.holder = some id then none else w.holder) = none
    rw [hnone]
    rfl
  -- so the phase may change under all calls: none of them is in a stage that asks for one
  have hcalls : ∀ {i l s}, ((w.exit.setTask id (.close .taking)).release id).task? i =
      some (.call l s) → s.inTurn = false := by
    intro i l s hti
    have hti' := (calls_setTask ht i l s).mp hti
    by_contra hb
    rw [Bool.not_eq_false] at hb
    rw [hw.turn hti' hb] at hnone
    exact absurd hnone (by simp)
  refine ⟨fun {i l stage} hti hb => ?_, fun {i} hheld => ?_, fun {i l stage} hti => ?_⟩
  · rw [hcalls hti] at hb
    exact absurd hb Bool.false_ne_true
  · rw [hholder] at hheld
    exact absurd hheld (by simp)
  · exact Stage.fits_of_not_inTurn _ (hcalls hti)

/-- Every event keeps the order: a poll of a call by its rule, and everything else because it leaves
calls alone. -/
theorem Orderly.step {e : Event} (hw : w.Orderly) (h : EventStep w e w' deeds) : w'.Orderly := by
  cases h with
  | wires e wires => exact hw.of_same rfl rfl rfl
  | call id line fresh going =>
    have hs : Stage.queued.inTurn = false := rfl
    exact hw.place rfl rfl hs (not_inTurn_of_none fresh) fun i => task?_enqueue w id i _ fresh
  | refuse id line fresh closed =>
    exact hw.place rfl rfl rfl (not_inTurn_of_none fresh) fun i => task?_addTask w id i _ fresh
  | step task poll => exact hw.call task poll
  | giveUp task told =>
    exact hw.place (if_neg (hw.not_holder task)) rfl rfl (not_inTurn_of_queued task)
      (task?_finish task _)
  | abandon id => exact hw.abandon id
  | exit task next => exact hw.exit task next
  | aside e aside =>
    exact hw.of_calls aside.holder aside.phase (fun h => Or.inr ((aside.calls _ _ _).mp h))
      (fun h _ => (aside.calls _ _ _).mpr h)

/-- The order holds along every run, by induction on the events from the end. -/
theorem Orderly.run (hw : w.Orderly) (events : List Event) : (w.run events).Orderly := by
  induction events using List.reverseRecOn with
  | nil => exact hw
  | append_singleton past e ih =>
    rw [run_concat]
    exact ih.step (apply_cases _ e)

/-! ## Besides the polls of calls -/

/-- An event that is no poll of a call: it does not end the conversation during anybody's turn, and
it moves no call in its turn, though the caller of one may go away. -/
structure Calm (w : World) (e : Event) (w' : World) (deeds : List Deed) : Prop where
  /-- Only the wires may show anything. -/
  wires : WireStep w.wires w'.wires deeds
  /-- The time limits stay. -/
  timing : w'.timing = w.timing
  /-- What was told stays told. -/
  cancelled : w.cancelled = true → w'.cancelled = true
  /-- The phase stays, or a closing ends the conversation. -/
  phase : w'.phase = w.phase ∨ w'.phase = .exited ∧ w.holder = none
  /-- The turn ends only with its caller. -/
  holder : w'.holder = w.holder ∨ ∃ i, e = .abandon i ∧ w.holder = some i ∧ w'.holder = none
  /-- A call that is in its turn was there before. -/
  inTurn : ∀ {i line stage}, w'.task? i = some (.call line stage) → stage.inTurn = true →
    w.task? i = some (.call line stage)

/-- No call does anything, so the log has nothing of a call. -/
theorem Calm.log {e : Event} (h : Calm w e w' deeds) : ∀ d ∈ deeds, d.ofCall = false := h.wires.log

/-- The poll of a call that follows `CallStep`, or an event during which no call does anything. -/
theorem EventStep.poll_or_calm {e : Event} (h : EventStep w e w' deeds) (hw : w.Orderly) :
    (∃ id line before after, e = .poll id ∧ w.task? id = some (.call line before) ∧
      CallStep w id line before after w' deeds) ∨ Calm w e w' deeds := by
  cases h with
  | wires e wires =>
    exact Or.inr ⟨wires, rfl, fun h => h, Or.inl rfl, Or.inl rfl, fun h _ => h⟩
  | call id line fresh going =>
    have hs : Stage.queued.inTurn = false := rfl
    exact Or.inr ⟨.same, rfl, fun h => h, Or.inl rfl, Or.inl rfl,
      inTurn_of_placed hs fun i => task?_enqueue w id i _ fresh⟩
  | refuse id line fresh closed =>
    exact Or.inr ⟨.same, rfl, fun h => h, Or.inl rfl, Or.inl rfl,
      inTurn_of_placed rfl fun i => task?_addTask w id i _ fresh⟩
  | step task poll => exact Or.inl ⟨_, _, _, _, rfl, task, poll⟩
  | giveUp task told =>
    exact Or.inr ⟨.same, rfl, fun h => h, Or.inl rfl, Or.inl (if_neg (hw.not_holder task)),
      inTurn_of_placed rfl (task?_finish task _)⟩
  | abandon id =>
    refine Or.inr ⟨.same, rfl, fun h => h, Or.inl rfl, ?_, fun {i l s} ht hs => ?_⟩
    · -- the caller who goes away may have had the turn, which is then nobody's
      by_cases hi : w.holder = some id
      · exact Or.inr ⟨id, rfl, hi, if_pos hi⟩
      · exact Or.inl (if_neg hi)
    · rw [task?_abandon] at ht
      by_cases hi : i = id
      · rw [if_pos hi] at ht
        exact absurd ht (by simp)
      · rw [if_neg hi] at ht
        exact ht
  | @exit id task next =>
    have hfree := holder_of_isNext next
    refine Or.inr ⟨.endInput, rfl, fun h => h, Or.inr ⟨rfl, hfree⟩, Or.inl ?_,
      fun {i l s} ht hs => (calls_setTask task i l s).mp ht⟩
    show (if w.holder = some id then none else w.holder) = w.holder
    rw [hfree]
    rfl
  | aside e aside =>
    exact Or.inr ⟨aside.wires ▸ .same, aside.timing, aside.cancelled, Or.inl aside.phase,
      Or.inl aside.holder, fun {i l s} ht _ => (aside.calls i l s).mp ht⟩

/-- A call that is in its turn stays where it is, unless its caller goes away. -/
theorem Calm.stays {e : Event} {i : Nat} {stage : Stage} (h : Calm w e w' deeds) (hw : w.Orderly)
    (hw' : w'.Orderly) (ht : w.task? i = some (.call line stage)) (hs : stage.inTurn = true)
    (ha : e ≠ .abandon i) : w'.task? i = some (.call line stage) := by
  have hheld := hw.turn ht hs
  have hkept : w'.holder = some i := by
    rcases h.holder with hsame | ⟨j, he, hj, -⟩
    · rw [hsame, hheld]
    · rw [hheld, Option.some.injEq] at hj
      exact absurd (hj ▸ he) ha
  obtain ⟨l, s, ht', hs'⟩ := hw'.held hkept
  obtain ⟨rfl, rfl⟩ := call_inj ht (h.inTurn ht' hs')
  exact ht'

/-- A poll at which a call does something follows `CallStep`, since what else a poll can do leaves
no deed of a call. -/
theorem Orderly.poll_of_deed (hw : w.Orderly) {deed : Deed} (hm : deed ∈ w.deeds (.poll id))
    (hcall : deed.ofCall = true) :
    ∃ line before after, w.task? id = some (.call line before) ∧
      CallStep w id line before after (w.apply (.poll id)) (w.deeds (.poll id)) := by
  rcases (apply_cases w (.poll id)).poll_or_calm hw with
    ⟨i, line, before, after, he, task, poll⟩ | calm
  · obtain rfl := Event.poll.inj he
    exact ⟨line, before, after, task, poll⟩
  · rw [calm.log deed hm] at hcall
    exact absurd hcall Bool.false_ne_true

/-! ## What stays along a run -/

theorem CallStep.timing (h : CallStep w id line before after w' deeds) : w'.timing = w.timing := by
  cases h <;> rfl

theorem CallStep.closed (h : CallStep w id line before after w' deeds) :
    w'.closed = w.closed ∧ w'.cancelled = w.cancelled := by
  cases h <;> exact ⟨rfl, rfl⟩

/-- The time limits stay along every run, whatever happens in it; by induction from the last event.
-/
theorem Orderly.timing_run (hw : w.Orderly) (events : List Event) :
    (w.run events).timing = w.timing := by
  induction events using List.reverseRecOn with
  | nil => rfl
  | append_singleton past e ih =>
    rw [run_concat, ← ih]
    rcases (apply_cases (w.run past) e).poll_or_calm (hw.run past) with
      ⟨i, l, before, after, -, -, poll⟩ | calm
    · exact poll.timing
    · exact calm.timing

/-- Who has been told to stop stays told, since no rule takes the mark back. -/
theorem cancelled_run (hw : w.Orderly) (hc : w.cancelled = true) (more : List Event) :
    (w.run more).cancelled = true := by
  induction more using List.reverseRecOn with
  | nil => exact hc
  | append_singleton past e ih =>
    rw [run_concat]
    rcases (apply_cases (w.run past) e).poll_or_calm (hw.run past) with
      ⟨i, l, before, after, -, -, poll⟩ | calm
    · rw [poll.closed.2]
      exact ih
    · exact calm.cancelled ih

end World
end KernelLink.Session

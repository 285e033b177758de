import KernelLink.Proofs.Control.ShutDown
import KernelLink.Proofs.Session.Dead
/-!
# One closing does it all

However many closings begin, the first is the only one that ever talks to the manager of the
process: it waits for its turn, ends the conversation, takes the process and carries out the plan
that ends a kernel. All others are finished when they begin.

Main definitions:
* `World.exchanges`: what the manager was asked in a run, by whom, and what it answered.
* `World.ClosingStep`: what an event means to closings, one rule for each way it can go.
* `World.Underway`: how far the closing of a link has got.

Main results:
* `World.closing_cases`: whatever happens to closings follows one of the rules.
* `World.first_closing`: a link that was closed has a first closing.
* `World.underway_run`: after it the invariant holds along every run.
-/
namespace KernelLink.Session

open Control (Routine Command shutDown)

/-- An answer of the manager, with what was asked. -/
abbrev Exchange := Plan.Exchange Command.Answer

/-- Has the closing ended the conversation? -/
def CloseStage.past : CloseStage → Bool
  | .taking | .stopping _ | .finished _ => true
  | .marked | .queued => false

namespace World

/-! ## What the manager is asked -/

/-- The exchange with the manager that an event is, and whose it is. -/
def exchanged (w : World) : Event → List (Nat × Exchange)
  | .answer id exchange => if (w.answer id exchange).isSome then [(id, exchange)] else []
  | _ => []

/-- The exchanges with the manager in a run. -/
def exchanges (w : World) : List Event → List (Nat × Exchange)
  | [] => []
  | e :: events => w.exchanged e ++ (w.apply e).exchanges events

/-- What closings ask in a run in two parts: the later exchanges come behind the earlier ones.
Induction on the earlier events. -/
theorem exchanges_append (w : World) (past events : List Event) :
    w.exchanges (past ++ events) = w.exchanges past ++ (w.run past).exchanges events := by
  induction past generalizing w with
  | nil => rfl
  | cons e past ih =>
    rw [List.cons_append, exchanges, exchanges, ih, List.append_assoc]
    rfl

theorem exchanges_concat (w : World) (past : List Event) (e : Event) :
    w.exchanges (past ++ [e]) = w.exchanges past ++ (w.run past).exchanged e := by
  rw [exchanges_append]
  congr 1
  exact List.append_nil _

variable {w w' : World} {id : Nat} {before after stage : CloseStage} {e : Event}
  {xs : List (Nat × Exchange)}

/-! ## The rules -/

/-- No closing has begun, gone on or gone away. -/
structure SameClosings (w w' : World) : Prop where
  closings : ∀ i stage, w'.task? i = some (.close stage) ↔ w.task? i = some (.close stage)
  process : w'.hasProcess = w.hasProcess
  closed : w'.closed = w.closed

/-- What one event means to closings: `ClosingStep w e w' xs` leads from `w` to `w'`. -/
inductive ClosingStep (w : World) : Event → World → List (Nat × Exchange) → Prop where
  /-- Nothing. -/
  | same (e : Event) {w' : World} (same : SameClosings w w') : ClosingStep w e w' []
  /-- The first closing begins. -/
  | first (id : Nat) (fresh : w.task? id = none) (going : w.closed = false) :
      ClosingStep w (.close id) ({ w with closed := true }.addTask id (.close .marked)) []
  /-- Another closing begins. -/
  | late (id : Nat) (fresh : w.task? id = none) (closed : w.closed = true) :
      ClosingStep w (.close id) (w.addTask id (.close (.finished (.ok ())))) []
  /-- A closing is polled. -/
  | poll {id : Nat} {before after : CloseStage} {w' : World}
      (task : w.task? id = some (.close before)) (step : CloseStep w id before after w') :
      ClosingStep w (.poll id) w' []
  /-- A closing gets an answer. -/
  | answer {id : Nat} {c : Command} {next : c.Answer → Routine (Except LinkError Unit)}
      (answer : c.Answer) (task : w.task? id = some (.close (.stopping (.ask c next)))) :
      ClosingStep w (.answer id ⟨c, answer⟩) (w.setTask id (.close (.stopping (next answer))))
        [(id, ⟨c, answer⟩)]
  /-- A caller goes away. -/
  | abandon (id : Nat) : ClosingStep w (.abandon id) (w.abandon id) []

/-! ## Every event follows a rule -/

theorem SameClosings.refl (w : World) : SameClosings w w := ⟨fun _ _ => Iff.rfl, rfl, rfl⟩

/-- A task that is not a closing is put in the place of nothing or of a task that is none. -/
theorem SameClosings.of_task {t : Task}
    (htask : ∀ i, w'.task? i = if i = id then some t else w.task? i)
    (hnew : ∀ stage, t ≠ .close stage) (hold : ∀ stage, w.task? id ≠ some (.close stage))
    (hprocess : w'.hasProcess = w.hasProcess) (hclosed : w'.closed = w.closed) :
    SameClosings w w' := by
  refine ⟨fun i stage => ?_, hprocess, hclosed⟩
  rw [htask]
  by_cases hi : i = id
  · rw [if_pos hi, hi]
    refine iff_of_false ?_ (hold stage)
    intro h
    exact hnew stage (Option.some.inj h)
  · rw [if_neg hi]

theorem not_close_of_call {line : List UInt8} {s : Stage} (h : w.task? id = some (.call line s))
    (stage : CloseStage) : w.task? id ≠ some (.close stage) := by
  rw [h]
  simp

theorem not_close_of_none (h : w.task? id = none) (stage : CloseStage) :
    w.task? id ≠ some (.close stage) := by
  rw [h]
  simp

theorem CallStep.process {line : List UInt8} {s s' : Stage} {deeds : List Deed}
    (h : CallStep w id line s s' w' deeds) : w'.hasProcess = w.hasProcess := by
  cases h <;> rfl

theorem CallStep.sameClosings {line : List UInt8} {s s' : Stage} {deeds : List Deed}
    (h : CallStep w id line s s' w' deeds) (ht : w.task? id = some (.call line s)) :
    SameClosings w w' := by
  refine .of_task (t := .call line s') (fun i => ?_) (by simp) (not_close_of_call ht) h.process
    h.closed.1
  by_cases hi : i = id
  · rw [if_pos hi, hi, h.self ht]
  · rw [if_neg hi, h.others hi]

/-- A poll asks nothing: a closing that has a plan goes on when it is answered, not when it is
polled. -/
theorem closing_poll (w : World) (id : Nat) : ClosingStep w (.poll id) (w.apply (.poll id)) [] := by
  cases hp : w.poll id with
  | none =>
    rw [apply_poll_none hp]
    exact .same _ (.refl w)
  | some w' =>
    rw [apply_poll hp]
    cases poll_polled hp with
    | call task step => exact .same _ (step.sameClosings task)
    | close task step => exact .poll task step

/-- A closing that has asked something goes on with the answer to just that. -/
theorem answer_stopping {c : Command} {next : c.Answer → Routine (Except LinkError Unit)}
    (ht : w.task? id = some (.close (.stopping (.ask c next)))) (answer : c.Answer) :
    w.answer id ⟨c, answer⟩ = some (w.setTask id (.close (.stopping (next answer)))) := by
  unfold World.answer
  rw [ht]
  exact dif_pos rfl

/-- An answer follows one of the rules as well: it is taken by a closing that has asked for it, and
otherwise changes nothing. -/
theorem closing_answer (w : World) (id : Nat) (exchange : Exchange) :
    ClosingStep w (.answer id exchange) (w.apply (.answer id exchange))
      (w.exchanged (.answer id exchange)) := by
  cases hp : w.answer id exchange with
  | none =>
    have hidle : w.apply (.answer id exchange) = w := by
      show (w.answer id exchange).getD w = w
      rw [hp]
      rfl
    have hnothing : w.exchanged (.answer id exchange) = [] := by
      simp [exchanged, hp]
    rw [hidle, hnothing]
    exact .same _ (.refl w)
  | some w' =>
    have hgoes : w.apply (.answer id exchange) = w' := by
      show (w.answer id exchange).getD w = w'
      rw [hp]
      rfl
    have hshown : w.exchanged (.answer id exchange) = [(id, exchange)] := by
      simp [exchanged, hp]
    rw [hgoes, hshown]
    -- an answer is accepted only if it answers what the closing asks
    obtain ⟨command, answer⟩ := exchange
    have hp' := hp
    unfold World.answer at hp
    split at hp
    · next c next ht =>
      by_cases he : command = c
      · subst he
        rw [answer_stopping ht answer, Option.some.injEq] at hp'
        subst hp'
        exact .answer answer ht
      · rw [dif_neg he] at hp
        exact nomatch hp
    · exact nomatch hp

/-- Whatever happens to closings follows one of the rules. Most events touch no closing at all;
polls, answers and new closings have their own cases. -/
theorem closing_cases (w : World) (e : Event) : ClosingStep w e (w.apply e) (w.exchanged e) := by
  cases e with
  | pass | kernelWrites | kernelReports | kernelTakes | kernelClosesInput | kernelClosesOutput
  | kernelClosesErrors | capture => exact .same _ ⟨fun _ _ => Iff.rfl, rfl, rfl⟩
  | call id line =>
    unfold apply beginCall
    dsimp only
    cases ht : w.task? id with
    | some t => exact .same _ (.refl w)
    | none =>
      by_cases hc : w.closed = true
      · -- a call that is turned away or put into the queue is no closing
        rw [if_pos hc]
        exact .same _ (.of_task (fun i => task?_addTask w id i _ ht) (by simp)
          (not_close_of_none ht) rfl rfl)
      · rw [if_neg hc]
        exact .same _ (.of_task (fun i => task?_enqueue w id i _ ht) (by simp)
          (not_close_of_none ht) rfl rfl)
  | close id =>
    unfold apply beginClose
    dsimp only
    cases ht : w.task? id with
    | some t => exact .same _ (.refl w)
    | none =>
      by_cases hc : w.closed = true
      · rw [if_pos hc]
        exact .late id ht hc
      · rw [if_neg hc]
        exact .first id ht (by simpa using hc)
  | poll id => exact closing_poll w id
  | giveUp id =>
    unfold apply giveUp
    dsimp only
    split
    · next line ht =>
      by_cases hc : w.cancelled = true
      · rw [if_pos hc]
        exact .same _ (.of_task (task?_finish ht _) (by simp) (not_close_of_call ht) rfl rfl)
      · rw [if_neg hc]
        exact .same _ (.refl w)
    · exact .same _ (.refl w)
  | abandon id => exact .abandon id
  | answer id exchange => exact closing_answer w id exchange

/-! ## The first closing -/

/-- A link is as closed as it was, or its first closing begins. -/
theorem ClosingStep.closed (h : ClosingStep w e w' xs) :
    w'.closed = w.closed ∨
      w'.closed = true ∧ w.closed = false ∧ ∃ id, e = .close id ∧ w.task? id = none := by
  cases h with
  | same e same => exact .inl same.closed
  | first id fresh going => exact .inr ⟨rfl, going, id, rfl, fresh⟩
  | late | answer | abandon => exact .inl rfl
  | poll task step => exact .inl step.closed

/-- While a link is not closed nobody talks to the manager, and the process stays. -/
theorem ClosingStep.going (h : ClosingStep w e w' xs) (ht : w.Tidy) (hc : w.closed = false) :
    w'.hasProcess = w.hasProcess ∧ xs = [] := by
  have hnone : ∀ {i stage}, w.task? i ≠ some (.close stage) := fun {i stage} =>
    ht.closings hc i stage
  cases h with
  | same e same => exact ⟨same.process, rfl⟩
  | first | late | abandon => exact ⟨rfl, rfl⟩
  | poll task | answer answer task => exact absurd task hnone

/-- As long as no closing has begun nothing is asked and the process stays. Induction on the events,
the last one at a time. -/
theorem going_run (hw : w.Orderly) (ht : w.Tidy) (events : List Event)
    (hc : (w.run events).closed = false) :
    (w.run events).hasProcess = w.hasProcess ∧ w.exchanges events = [] := by
  induction events using List.reverseRecOn with
  | nil => exact ⟨rfl, rfl⟩
  | append_singleton past e ih =>
    rw [run_concat] at hc ⊢
    have hstep := closing_cases (w.run past) e
    have hgoing : (w.run past).closed = false := by
      rcases hstep.closed with hsame | ⟨hclosed, -⟩
      · rw [← hsame, hc]
      · rw [hclosed] at hc
        exact nomatch hc
    obtain ⟨hprocess, hnothing⟩ := hstep.going (ht.run hw past) hgoing
    obtain ⟨hkept, hquiet⟩ := ih hgoing
    refine ⟨hprocess.trans hkept, ?_⟩
    rw [exchanges_concat, hquiet, hnothing]
    rfl

/-- A link that was closed has a first closing, the event at which it was not closed yet. Induction
from the end. -/
theorem first_closing (ho : w.closed = false) (events : List Event)
    (hc : (w.run events).closed = true) :
    ∃ past id more, events = past ++ .close id :: more ∧ (w.run past).closed = false ∧
      (w.run past).task? id = none := by
  induction events using List.reverseRecOn with
  | nil =>
    rw [show (w.run []).closed = false from ho] at hc
    exact nomatch hc
  | append_singleton past e ih =>
    rw [run_concat] at hc
    rcases (closing_cases (w.run past) e).closed with hsame | ⟨-, hgoing, id, rfl, hfresh⟩
    · obtain ⟨before, id, more, rfl, hgoing, hfresh⟩ := ih (hsame ▸ hc)
      exact ⟨before, id, more ++ [e], by simp, hgoing, hfresh⟩
    · exact ⟨past, id, [], rfl, hgoing, hfresh⟩

/-! ## How far it gets -/

/-- A closing in this stage has exchanged this much with the manager. -/
def Got (w : World) (es : List Exchange) : CloseStage → Prop
  | .marked | .queued | .taking => w.hasProcess = true ∧ es = []
  | .stopping rest => (shutDown w.timing.shutdownGrace).Leads es rest
  | .finished result => (shutDown w.timing.shutdownGrace).Runs es result

/-- How far a closing has got is always a way into the plan that ends a kernel: before it has the
process it has asked nothing, and then what it asked leads to what is left. -/
theorem Got.leads {es : List Exchange} (h : w.Got es stage) :
    ∃ rest, (shutDown w.timing.shutdownGrace).Leads es rest := by
  cases stage with
  | marked | queued | taking =>
    obtain ⟨-, rfl⟩ := h
    exact ⟨_, .refl _⟩
  | stopping rest => exact ⟨rest, h⟩
  | finished result => exact ⟨.done result, h.leads⟩

/-- What a closing has got depends on the process and the time limits only. -/
theorem Got.of_same {es : List Exchange} (h : w.Got es stage)
    (hprocess : w'.hasProcess = w.hasProcess) (htiming : w'.timing = w.timing) :
    w'.Got es stage := by
  cases stage with
  | marked | queued | taking => exact ⟨hprocess ▸ h.1, h.2⟩
  | stopping rest =>
    show (shutDown w'.timing.shutdownGrace).Leads es rest
    rw [htiming]
    exact h
  | finished result =>
    show (shutDown w'.timing.shutdownGrace).Runs es result
    rw [htiming]
    exact h

/-- What is so when the first closing is in this stage, and `es` was exchanged with the manager. -/
structure Reached (w : World) (es : List Exchange) (stage : CloseStage) : Prop where
  /-- The exchanges are those of the plan that ends a kernel, as far as it was carried out. -/
  got : w.Got es stage
  /-- The tasks that wait have been told. -/
  told : stage ≠ .marked → w.cancelled = true
  /-- The conversation is over. -/
  ended : stage.past = true → w.phase = .exited

/-- What was told stays told, and a conversation that is over stays over; the limits stay. -/
structure Onward (w w' : World) : Prop where
  timing : w'.timing = w.timing
  cancelled : w.cancelled = true → w'.cancelled = true
  exited : w.phase = .exited → w'.phase = .exited

/-- Whatever happens, the time limits stay, a cancellation stays, and a link that has ended has
ended. -/
theorem onward (hw : w.Orderly) (e : Event) : Onward w (w.apply e) := by
  have hstep := apply_cases w e
  refine ⟨hw.timing_run [e], fun hc => ?_, fun hp => ?_⟩
  · rcases hstep.poll_or_calm hw with ⟨i, line, before, after, -, task, poll⟩ | calm
    · rw [poll.closed.2, hc]
    · exact calm.cancelled hc
  · have hrefused : w.phase.refusal = some .closed := by
      rw [hp]
      rfl
    rcases hstep.phase_refused hw hrefused with hsame | ⟨hexited, -⟩
    · rw [hsame, hp]
    · exact hexited

/-- So what a closing has reached stays when others do something, as long as they leave the process.
-/
theorem Reached.of_same {es : List Exchange} (h : w.Reached es stage)
    (hprocess : w'.hasProcess = w.hasProcess) (ho : Onward w w') : w'.Reached es stage :=
  ⟨h.got.of_same hprocess ho.timing, fun hs => ho.cancelled (h.told hs),
    fun hs => ho.exited (h.ended hs)⟩

/-- A poll of the first closing gets it further, through telling everybody, taking its turn and
taking the process. -/
theorem CloseStep.reached {es : List Exchange} (h : CloseStep w id before after w')
    (hr : w.Reached es before) : w'.Reached es after := by
  obtain ⟨hgot, htold, hended⟩ := hr
  cases h with
  | tell => exact ⟨hgot, fun _ => rfl, fun hs => nomatch hs⟩
  | exit next => exact ⟨hgot, fun _ => htold (by simp), fun _ => rfl⟩
  | take process =>
    -- here the plan begins, and so far nothing was exchanged
    obtain ⟨-, rfl⟩ := hgot
    exact ⟨.refl _, fun _ => htold (by simp), fun _ => hended rfl⟩
  | without process =>
    -- nobody else has taken the process
    rw [hgot.1] at process
    exact nomatch process
  | finish result => exact ⟨hgot.done, fun _ => htold (by simp), fun _ => hended rfl⟩

/-- How far the closing of a link has got: `who` is its first closing, unless its caller went away,
and `es` what was exchanged with the manager. -/
structure Underway (who : Option Nat) (es : List Exchange) (w : World) : Prop where
  closed : w.closed = true
  /-- All other closings are finished. -/
  others : ∀ i stage, who ≠ some i → w.task? i = some (.close stage) → stage = .finished (.ok ())
  /-- Where the first one is. -/
  own : ∀ id, who = some id → ∃ stage, w.task? id = some (.close stage) ∧ w.Reached es stage
  /-- The exchanges are those of the plan that ends a kernel, as far as it was carried out. -/
  follows : ∃ rest, (shutDown w.timing.shutdownGrace).Leads es rest

/-- The first closing goes on, and the others stay where they are. -/
theorem Underway.goes {es es' : List Exchange} (hu : Underway (some id) es w)
    (hclosed : w'.closed = w.closed)
    (htask : ∀ i, w'.task? i = if i = id then some (.close after) else w.task? i)
    (hreached : w'.Reached es' after) : Underway (some id) es' w' := by
  refine ⟨hclosed.trans hu.closed, fun i stage hi ht => ?_, fun j hj => ?_, hreached.got.leads⟩
  · have hne : i ≠ id := fun h => hi (congrArg some h.symm)
    rw [htask, if_neg hne] at ht
    exact hu.others i stage hi ht
  · obtain rfl := Option.some.inj hj
    exact ⟨after, by rw [htask, if_pos rfl], hreached⟩

/-- A closing that is not finished is the first one, since all others have ended at once. -/
theorem Underway.who {who : Option Nat} {es : List Exchange} (hu : Underway who es w)
    (ht : w.task? id = some (.close stage)) (hs : stage ≠ .finished (.ok ())) : who = some id := by
  by_contra hne
  exact hs (hu.others id stage hne ht)

/-- The first closing goes on, and nobody else talks to the manager. -/
theorem Underway.step {who : Option Nat} {es : List Exchange} (hu : Underway who es w)
    (h : ClosingStep w e w' xs) (ho : Onward w w')
    (hstays : ∀ id, who = some id → e ≠ .abandon id) :
    Underway who (es ++ xs.map (·.2)) w' ∧ ∀ x ∈ xs, who = some x.1 := by
  have hfollows : ∃ rest, (shutDown w'.timing.shutdownGrace).Leads es rest := by
    rw [ho.timing]
    exact hu.follows
  cases h with
  | same e same =>
    rw [List.map_nil, List.append_nil]
    refine ⟨⟨same.closed.trans hu.closed, fun i stage hi ht => ?_, fun id hid => ?_, hfollows⟩,
      by simp⟩
    · exact hu.others i stage hi ((same.closings i stage).mp ht)
    · obtain ⟨stage, ht, hreached⟩ := hu.own id hid
      exact ⟨stage, (same.closings id stage).mpr ht, hreached.of_same same.process ho⟩
  | first id fresh going =>
    rw [hu.closed] at going
    exact nomatch going
  | late id fresh closed =>
    rw [List.map_nil, List.append_nil]
    refine ⟨⟨hu.closed, fun i stage hi ht => ?_, fun j hj => ?_, hfollows⟩, by simp⟩
    · rw [task?_addTask w id i _ fresh] at ht
      by_cases hne : i = id
      · rw [if_pos hne, Option.some.injEq, Task.close.injEq] at ht
        exact ht.symm
      · rw [if_neg hne] at ht
        exact hu.others i stage hi ht
    · obtain ⟨stage, ht, hreached⟩ := hu.own j hj
      have hne : j ≠ id := by
        rintro rfl
        rw [fresh] at ht
        exact nomatch ht
      exact ⟨stage, by rw [task?_addTask w id j _ fresh, if_neg hne, ht],
        hreached.of_same rfl ho⟩
  | @poll id before after w' task step =>
    -- a closing that is polled to some effect is not finished, so it is the first one
    obtain rfl := hu.who task (by rintro rfl; cases step)
    obtain ⟨stage, ht, hreached⟩ := hu.own id rfl
    obtain rfl : stage = before := Task.close.inj (Option.some.inj (ht.symm.trans task))
    rw [List.map_nil, List.append_nil]
    exact ⟨hu.goes step.closed (step.task? task) (step.reached hreached), by simp⟩
  | @answer id c next answer task =>
    obtain rfl := hu.who task (by simp)
    obtain ⟨stage, ht, hreached⟩ := hu.own id rfl
    obtain rfl : stage = .stopping (.ask c next) :=
      Task.close.inj (Option.some.inj (ht.symm.trans task))
    have hreached' : (w.setTask id (.close (.stopping (next answer)))).Reached
        (es ++ [⟨c, answer⟩]) (.stopping (next answer)) :=
      ⟨hreached.got.answered answer, fun _ => hreached.told (by simp), fun _ => hreached.ended rfl⟩
    refine ⟨hu.goes rfl (fun i => ?_) hreached', by simp⟩
    rw [task?_setTask]
    by_cases hi : i = id
    · rw [if_pos hi, if_pos hi, hi, task]
      rfl
    · rw [if_neg hi, if_neg hi]
  | abandon id =>
    rw [List.map_nil, List.append_nil]
    refine ⟨⟨hu.closed, fun i stage hi ht => ?_, fun j hj => ?_, hfollows⟩, by simp⟩
    · rw [task?_abandon] at ht
      by_cases hne : i = id
      · rw [if_pos hne] at ht
        exact nomatch ht
      · rw [if_neg hne] at ht
        exact hu.others i stage hi ht
    · obtain ⟨stage, ht, hreached⟩ := hu.own j hj
      have hne : j ≠ id := by
        rintro rfl
        exact hstays j hj rfl
      exact ⟨stage, by rw [task?_abandon, if_neg hne, ht], hreached.of_same rfl ho⟩

/-- The caller of the first closing goes away; what it has asked so far stays, and nobody asks for
more. -/
theorem Underway.abandon {es : List Exchange} (hu : Underway (some id) es w) :
    Underway none es (w.abandon id) := by
  refine ⟨hu.closed, fun i stage _ ht => ?_, fun _ h => (nomatch h), hu.follows⟩
  rw [task?_abandon] at ht
  by_cases hi : i = id
  · rw [if_pos hi] at ht
    exact nomatch ht
  · rw [if_neg hi] at ht
    exact hu.others i stage (fun h => hi (Option.some.inj h).symm) ht

/-- The first closing begins, with the process still there and nothing asked. -/
theorem Underway.begin (ht : w.Tidy) (hc : w.closed = false) (hp : w.hasProcess = true)
    (hn : w.task? id = none) : Underway (some id) [] (w.apply (.close id)) := by
  have happly : w.apply (.close id) = { w with closed := true }.addTask id (.close .marked) := by
    simp [apply, hn, beginClose, hc]
  have htask : ∀ i, (w.apply (.close id)).task? i =
      if i = id then some (.close .marked) else w.task? i := by
    intro i
    rw [happly]
    exact task?_addTask { w with closed := true } id i _ hn
  refine ⟨by rw [happly]; rfl, fun i stage hi hs => ?_, fun j hj => ?_, _, .refl _⟩
  · rw [htask, if_neg (fun h => hi (congrArg some h.symm))] at hs
    exact absurd hs (ht.closings hc i stage)
  · obtain rfl := Option.some.inj hj
    refine ⟨.marked, by rw [htask, if_pos rfl], ⟨?_, rfl⟩, fun h => absurd rfl h,
      fun h => by cases h⟩
    rw [happly]
    exact hp

/-- After the first closing has begun it goes on until its caller goes away, and nobody else talks
to the manager. -/
theorem underway_run (hu : Underway (some id) [] w) (hw : w.Orderly) (more : List Event) :
    ∃ who, Underway who ((w.exchanges more).map (·.2)) (w.run more) ∧
      (who = some id ∨ who = none ∧ .abandon id ∈ more) ∧ ∀ x ∈ w.exchanges more, x.1 = id := by
  -- on the run so far: `who` changes once, when the caller of the first closing goes away
  induction more using List.reverseRecOn with
  | nil => exact ⟨some id, hu, .inl rfl, by simp [exchanges]⟩
  | append_singleton past e ih =>
    obtain ⟨who, ih, hwho, hwhose⟩ := ih
    by_cases hgoes : who = some id ∧ e = .abandon id
    · obtain ⟨rfl, rfl⟩ := hgoes
      have hsilent : w.exchanges (past ++ [.abandon id]) = w.exchanges past := by
        rw [exchanges_concat]
        exact List.append_nil _
      rw [run_concat, hsilent]
      exact ⟨none, ih.abandon, .inr ⟨rfl, by simp⟩, hwhose⟩
    · have hstays : ∀ j, who = some j → e ≠ .abandon j := by
        rintro j rfl rfl
        rcases hwho with hj | ⟨hj, -⟩
        · obtain rfl := Option.some.inj hj
          exact hgoes ⟨rfl, rfl⟩
        · exact nomatch hj
      obtain ⟨hstep, hmine⟩ :=
        ih.step (closing_cases (w.run past) e) (onward (hw.run past) e) hstays
      rw [run_concat, exchanges_concat, List.map_append]
      refine ⟨who, hstep, hwho.imp_right fun h => ⟨h.1, List.mem_append_left _ h.2⟩, ?_⟩
      intro x hx
      rcases List.mem_append.mp hx with hx | hx
      · exact hwhose x hx
      · rcases hwho with hj | ⟨hj, -⟩
        · exact Option.some.inj ((hmine x hx).symm.trans hj)
        · exact nomatch (hmine x hx).symm.trans hj

end World
end KernelLink.Session

import KernelLink.Proofs.Session.Closing
/-!
# A closing returns

Once the tasks that wait have been told, a closing that waits for its turn gets it: whoever has the
turn stops at the next poll, or has written its line after a few, or waits a limited time for the
last words of the kernel; and whoever stands before the closing in the queue takes its turn and
stops like that. Then the closing needs nobody but the manager. A call that writes needs the kernel
to take its input; nothing else is needed of the kernel.

Main definitions:
* `Event.onward`: time, the kernel taking its input, polls and answers of the manager.
* `World.Waiting`: the first closing waits for its turn.
* `World.Full`: a call writes, and there is no room.

Main results:
* `World.Waiting.frees`: whoever has the turn gives it back.
* `World.Waiting.gets_turn`: the closing gets its turn.
* `World.Underway.returns`: the first closing can always return.
-/
namespace KernelLink.Session

open Control (Routine Command shutDown answerable)
open Host (Pipe)

/-- Does this need nobody who calls, and no output of the kernel? -/
def Event.onward : Event → Bool
  | .pass _ | .kernelTakes _ | .poll _ | .answer _ _ => true
  | _ => false

/-- Is this time, the kernel taking its input, or a poll of another task? -/
def Event.besides (id : Nat) : Event → Bool
  | .pass _ | .kernelTakes _ => true
  | .poll i => i ≠ id
  | _ => false

theorem Event.onward_of_besides {id : Nat} {e : Event} (h : e.besides id = true) :
    e.onward = true := by
  cases e with
  | pass | kernelTakes | poll | answer => rfl
  | _ => exact h

/-- How many polls a call may need until it stops or looks at whether it was told to. -/
def Stage.rank : Stage → Nat
  | .writing rest => rest.length + 1
  | _ => 0

namespace World

variable {w w' : World} {id i : Nat} {line : List UInt8} {before after stage : Stage}
  {deeds : List Deed}

/-! ## The turn of another -/

/-- The tasks that wait have been told, the closing `id` waits for its turn, nobody has taken the
process, and all other closings are finished. -/
structure Waiting (w : World) (id : Nat) : Prop where
  orderly : w.Orderly
  tidy : w.Tidy
  told : w.cancelled = true
  task : w.task? id = some (.close .queued)
  process : w.hasProcess = true
  others : ∀ i stage, i ≠ id → w.task? i = some (.close stage) → stage = .finished (.ok ())

/-- What leaves the closings where they are leaves it waiting, as long as the process is not touched
either. -/
theorem Waiting.kept (h : w.Waiting id) {e : Event} (hsame : SameClosings w (w.apply e)) :
    (w.apply e).Waiting id :=
  ⟨h.orderly.step (apply_cases w e), h.tidy.step h.orderly e,
    (onward h.orderly e).cancelled h.told, (hsame.closings id _).mpr h.task,
    hsame.process.trans h.process,
    fun i stage hi ht => h.others i stage hi ((hsame.closings i stage).mp ht)⟩

/-- A closing that waits for its turn goes on waiting while others do something. -/
theorem Waiting.step (h : w.Waiting id) {e : Event} (he : e.besides id = true) :
    (w.apply e).Waiting id := by
  refine h.kept ?_
  have hstep := closing_cases w e
  generalize w.apply e = w', w.exchanged e = xs at hstep
  cases hstep with
  | same e same => exact same
  | poll task step =>
    -- another closing is finished, and a poll of it has no effect
    have hne : _ ≠ id := of_decide_eq_true he
    obtain rfl := h.others _ _ hne task
    exact nomatch step
  | _ => exact absurd he Bool.false_ne_true

/-- However much the others do. Induction on the events from the end. -/
theorem Waiting.run (h : w.Waiting id) (events : List Event)
    (he : ∀ e ∈ events, e.besides id = true) : (w.run events).Waiting id := by
  induction events using List.reverseRecOn with
  | nil => exact h
  | append_singleton past e ih =>
    rw [run_concat]
    exact (ih fun e' h' => he e' (List.mem_append_left _ h')).step (he e (by simp))

/-- A call that was told to stop reads nothing, and if it waits, it is cut short. -/
theorem CallStep.told (h : CallStep w i line before after w' deeds) (hc : w.cancelled = true) :
    w'.wires.output = w.wires.output ∧ (∀ j l, .took j l ∉ deeds) ∧
      (before.waits = true → after = .finished (.error .cancelled)) := by
  -- the rules by which calls read, or find that there is nothing to read, ask first
  have hno : ∀ {P : Prop}, w.cancelled = false → P := by
    intro P hgoing
    rw [hc] at hgoing
    exact nomatch hgoing
  cases h with
  | cancel => exact ⟨rfl, by simp, fun _ => rfl⟩
  | skip waits going | fail waits going | gone waits going | fill waits going => exact hno going
  | discard going | reply going | garbled going => exact hno going
  | missing quiet | stale quiet | arm quiet | disarm quiet | report quiet | overdue quiet =>
    exact hno quiet.going
  | _ => exact ⟨rfl, by simp, fun hwaits => absurd hwaits Bool.false_ne_true⟩

/-- A call in its turn that was told to stop stops when it is polled, or gets nearer to that. -/
theorem CallStep.nearer (h : CallStep w i line before after w' deeds) (hc : w.cancelled = true)
    (hs : before.inTurn = true) : after.inTurn = false ∨ after.rank < before.rank := by
  by_cases hwaits : before.waits = true
  · obtain ⟨-, -, hcut⟩ := h.told hc
    rw [hcut hwaits]
    exact .inl rfl
  · cases h with
    | enterReady | enterLate | enterRefused => exact absurd hs Bool.false_ne_true
    | cancel waits | skip waits | fail waits | gone waits | fill waits => exact absurd waits hwaits
    | leave => exact .inl rfl
    | written => exact .inr (Nat.zero_lt_succ _)
    | broken => exact .inr (Nat.zero_lt_succ _)
    | @put rest more writing reading room =>
      have hlength : 0 < rest.length := List.length_pos_iff.mpr more
      refine .inr ?_
      show (rest.drop w.wires.input.room).length + 1 < rest.length + 1
      rw [List.length_drop]
      omega
    | _ => exact absurd rfl hwaits

/-- The call writes, and there is no room for any of what is left of its line. -/
def Full (w : World) : Stage → Prop
  | .writing rest =>
    rest ≠ [] ∧ (w.wires.input.writing && w.wires.input.reading) = true ∧ w.wires.input.room = 0
  | _ => False

/-- A call that writes makes no progress exactly if the pipe to the kernel is full. -/
theorem pollWriting_eq_none {rest : List UInt8} :
    w.pollWriting id line rest = none ↔ w.Full (.writing rest) := by
  unfold pollWriting Full
  dsimp only
  by_cases hr : rest = []
  · simp [hr]
  · by_cases ho : (w.wires.input.writing && w.wires.input.reading) = true
    · by_cases hroom : w.wires.input.room = 0
      · simp [hr, ho, hroom]
      · simp [hr, ho, hroom]
    · simp [hr, ho]

/-- A call that writes goes on when the kernel has taken its input: an empty pipe has room. -/
theorem goes_on_of_writing (w : World) (id : Nat) (line rest : List UInt8) :
    ∃ w', (w.apply (.kernelTakes w.wires.input.bytes.length)).pollCall id line (.writing rest) =
      some w' := by
  have hempty : (w.apply (.kernelTakes w.wires.input.bytes.length)).wires.input.bytes = [] :=
    List.drop_length
  refine Option.ne_none_iff_exists'.mp fun hnone => ?_
  obtain ⟨-, -, hroom⟩ := pollWriting_eq_none.mp hnone
  rw [Pipe.room_of_empty hempty] at hroom
  exact absurd hroom (Nat.ne_of_gt (Pipe.capacity_pos _))

/-- A call in its turn that was told to stop can be polled to some effect after some time, unless
it has no room to write. -/
theorem polls_unless_full (hc : w.cancelled = true) (hs : stage.inTurn = true)
    (hroom : ¬ w.Full stage) (i : Nat) (line : List UInt8) :
    ∃ ms w', (w.apply (.pass ms)).pollCall i line stage = some w' := by
  cases stage with
  | queued | finished result => exact absurd hs Bool.false_ne_true
  | discarding deadline => exact ⟨0, _, if_pos hc⟩
  | awaiting deadline graceEnd => exact ⟨0, _, if_pos hc⟩
  | leaving endsAt =>
    have hdue : endsAt ≤ (w.apply (.pass endsAt)).wires.now := Nat.le_add_left _ _
    exact ⟨endsAt, _, if_pos hdue⟩
  | writing rest =>
    have hnone : (w.apply (.pass 0)).pollWriting i line rest ≠ none := by
      rw [Ne, pollWriting_eq_none]
      exact hroom
    obtain ⟨w', hw'⟩ := Option.ne_none_iff_exists'.mp hnone
    exact ⟨0, w', hw'⟩

/-- A call in its turn that was told to stop can be polled to some effect, if time passes or the
kernel takes its input. -/
theorem polls (hc : w.cancelled = true) (hs : stage.inTurn = true) (i : Nat) (line : List UInt8)
    (id : Nat) :
    ∃ e w', e.besides id = true ∧ (w.apply e).tasks = w.tasks ∧ (w.apply e).queue = w.queue ∧
      (w.apply e).pollCall i line stage = some w' := by
  by_cases hfull : w.Full stage
  · cases stage with
    | writing rest =>
      obtain ⟨w', hw'⟩ := goes_on_of_writing w i line rest
      exact ⟨.kernelTakes w.wires.input.bytes.length, w', rfl, rfl, rfl, hw'⟩
    | _ => exact hfull.elim
  · obtain ⟨ms, w', hw'⟩ := polls_unless_full hc hs hfull i line
    exact ⟨.pass ms, w', rfl, rfl, rfl, hw'⟩

/-- Whoever has the turn gives it back, if events of some kind can always get it to where a poll has
an effect. -/
theorem Waiting.frees_by {kind : Event → Bool} {P : World → Stage → Prop}
    (hkind : ∀ e, kind e = true → e.besides id = true) (hpoll : kind (.poll i) = true)
    (hgoes : ∀ {w : World} {stage : Stage}, w.Waiting id → P w stage → stage.inTurn = true →
      ∃ e w', kind e = true ∧ (w.apply e).tasks = w.tasks ∧ (w.apply e).queue = w.queue ∧
        (w.apply e).pollCall i line stage = some w' ∧
        ∀ after deeds, CallStep (w.apply e) i line stage after w' deeds → P w' after)
    (h : w.Waiting id) (ht : w.task? i = some (.call line stage)) (hs : stage.inTurn = true)
    (hP : P w stage) :
    ∃ events : List Event, (∀ e ∈ events, kind e = true) ∧ (w.run events).holder = none ∧
      (w.run events).queue.length ≤ w.queue.length := by
  -- with every poll the call stops or gets nearer to that
  induction hn : stage.rank using Nat.strong_induction_on generalizing w stage with
  | _ n ih =>
    obtain ⟨e, w', he, htasks, hqueue, hcall, hkept⟩ := hgoes h hP hs
    have hv := h.step (hkind e he)
    have ht' : (w.apply e).task? i = some (.call line stage) := by
      rw [← ht, task?, task?, htasks]
    have hpolled : (w.apply e).apply (.poll i) = w' := apply_poll ((poll_eq ht').trans hcall)
    obtain ⟨after, deeds, hstep⟩ := pollCall_cases hcall
    have hshorter : w'.queue.length ≤ w.queue.length := by
      rw [← hqueue]
      rcases hstep.queue with hq | ⟨hq, -⟩
      · rw [hq]
        exact List.length_filter_le _ _
      · rw [hq]
    cases hturn : after.inTurn with
    | false =>
      refine ⟨[e, .poll i], by simp [he, hpoll], ?_, ?_⟩
      · show ((w.apply e).apply (.poll i)).holder = none
        rw [hpolled, hstep.turn hv.orderly ht', hturn]
        rfl
      · show ((w.apply e).apply (.poll i)).queue.length ≤ _
        rw [hpolled]
        exact hshorter
    | true =>
      have hnearer : after.rank < n := by
        rw [← hn]
        refine (hstep.nearer hv.told hs).resolve_left fun hdone => ?_
        rw [hturn] at hdone
        cases hdone
      have hw' : w'.Waiting id := hpolled ▸ hv.step (hkind _ hpoll)
      obtain ⟨events, hevents, hfree, hlength⟩ :=
        ih _ hnearer hw' (hstep.self ht') hturn (hkept after deeds hstep) rfl
      have hrun : w.run (e :: .poll i :: events) = w'.run events := by
        show ((w.apply e).apply (.poll i)).run events = _
        rw [hpolled]
      refine ⟨e :: .poll i :: events, ?_, ?_, ?_⟩
      · simp only [List.mem_cons, forall_eq_or_imp]
        exact ⟨he, hpoll, hevents⟩
      · rw [hrun]
        exact hfree
      · rw [hrun]
        exact hlength.trans hshorter

/-- The closing is not the one whose turn it is. -/
theorem Waiting.besides (h : w.Waiting id) (ht : w.task? i = some (.call line stage)) :
    (Event.poll i).besides id = true := by
  refine decide_eq_true ?_
  rintro rfl
  rw [h.task] at ht
  exact nomatch ht

/-- Whoever has the turn gives it back, if the kernel takes its input. -/
theorem Waiting.frees (h : w.Waiting id) (ht : w.task? i = some (.call line stage))
    (hs : stage.inTurn = true) :
    ∃ events : List Event, (∀ e ∈ events, e.besides id = true) ∧ (w.run events).holder = none ∧
      (w.run events).queue.length ≤ w.queue.length := by
  refine Waiting.frees_by (P := fun _ _ => True) (fun _ he => he) (h.besides ht)
    (fun {v s} hv _ hs => ?_) h ht hs trivial
  obtain ⟨e, w', he, htasks, hqueue, hcall⟩ := polls hv.told hs i line id
  exact ⟨e, w', he, htasks, hqueue, hcall, fun _ _ _ => trivial⟩

/-- Whoever is at the head of the queue leaves it when it is polled, since it has been told to stop.
-/
theorem Waiting.pops (h : w.Waiting id) (hnext : w.isNext i = true) (hi : i ≠ id) :
    (w.apply (.poll i)).queue = w.queue.filter (· ≠ i) := by
  have hmem : i ∈ w.queue := by
    unfold isNext at hnext
    rw [Bool.and_eq_true, beq_iff_eq] at hnext
    exact List.mem_of_mem_head? hnext.2
  obtain ⟨t, ht, hwaits⟩ := (h.tidy.queue i).mp hmem
  cases t with
  | call line stage =>
    obtain rfl := Task.queued_of_waits hwaits
    exact pops_call ht hnext
  | close stage =>
    obtain rfl := h.others i stage hi ht
    exact absurd hwaits Bool.false_ne_true

/-- The closing gets its turn. One after the other, those before it in the queue go away, since all
were told to stop; the induction is on how many there are. -/
theorem Waiting.gets_turn (h : w.Waiting id) :
    ∃ events : List Event, (∀ e ∈ events, e.besides id = true) ∧
      (w.run events).isNext id = true := by
  -- whoever stands at the head of the queue instead leaves it
  induction hn : w.queue.length using Nat.strong_induction_on generalizing w with
  | _ n ih =>
    obtain ⟨first, hfirst, hfree, hlength⟩ : ∃ first : List Event,
        (∀ e ∈ first, e.besides id = true) ∧ (w.run first).holder = none ∧
          (w.run first).queue.length ≤ w.queue.length := by
      cases hh : w.holder with
      | none => exact ⟨[], by simp, hh, Nat.le_refl _⟩
      | some i =>
        obtain ⟨line, stage, ht, hs⟩ := h.orderly.held hh
        exact h.frees ht hs
    have hv := h.run first hfirst
    generalize hw' : w.run first = v at hfree hlength hv
    have hmem : id ∈ v.queue := (hv.tidy.queue id).mpr ⟨_, hv.task, rfl⟩
    cases hq : v.queue with
    | nil =>
      rw [hq] at hmem
      exact nomatch hmem
    | cons i rest =>
      have hhead : v.isNext i = true := by
        unfold isNext
        rw [hfree, hq]
        simp
      by_cases hi : i = id
      · refine ⟨first, hfirst, ?_⟩
        rw [hw', ← hi]
        exact hhead
      · have hbesides : (Event.poll i).besides id = true := decide_eq_true hi
        have hshorter : (v.apply (.poll i)).queue.length < n := by
          rw [hv.pops hhead hi, ← hn]
          refine Nat.lt_of_lt_of_le ?_ hlength
          exact List.length_filter_lt_length_iff_exists.mpr ⟨i, by simp [hq], by simp⟩
        obtain ⟨events, hevents, hnext⟩ := ih _ hshorter (hv.step hbesides) rfl
        refine ⟨first ++ .poll i :: events, ?_, ?_⟩
        · simp only [List.mem_append, List.mem_cons]
          rintro e (he | rfl | he)
          · exact hfirst e he
          · exact hbesides
          · exact hevents e he
        · rw [run_append, hw']
          exact hnext

/-! ## The closing itself -/

/-- The answers of the manager lead a closing through its plan, exchange by exchange along the run
of it. -/
theorem answers_run {plan : Routine (Except LinkError Unit)} {es : List Exchange}
    {result : Except LinkError Unit} (hr : plan.Runs es result)
    (ht : w.task? id = some (.close (.stopping plan))) :
    (w.run (es.map (.answer id))).task? id = some (.close (.stopping (.done result))) := by
  induction hr generalizing w with
  | done result => exact ht
  | @ask c next answer es result rest ih =>
    have happly : w.apply (.answer id ⟨c, answer⟩) =
        w.setTask id (.close (.stopping (next answer))) := by
      show (w.answer id ⟨c, answer⟩).getD w = _
      rw [answer_stopping ht answer]
      rfl
    have ht' : (w.apply (.answer id ⟨c, answer⟩)).task? id =
        some (.close (.stopping (next answer))) := by
      rw [happly, task?_setTask, if_pos rfl, ht]
      rfl
    exact ih ht'

/-- The closing may return, and nothing but events of this kind is needed for it. -/
def ReturnsBy (kind : Event → Bool) (w : World) (id : Nat) : Prop :=
  ∃ more result, (∀ e ∈ more, kind e = true) ∧ (w.run more).closeResult? id = some result

/-- The closing may return, with nobody's help but the manager's and, if a call writes, the
kernel's. -/
def MayReturn (w : World) (id : Nat) : Prop :=
  ∃ more result, (∀ e ∈ more, Event.onward e = true) ∧ (w.run more).closeResult? id = some result

section

variable {kind : Event → Bool} (hpoll : kind (.poll id) = true)
  (hanswer : ∀ exchange, kind (.answer id exchange) = true)

/-- If a closing returns after some events it returns, provided that these are of the kind that may
be asked for. -/
theorem ReturnsBy.of_run (events : List Event) (he : ∀ e ∈ events, kind e = true)
    (h : (w.run events).ReturnsBy kind id) : w.ReturnsBy kind id := by
  obtain ⟨more, result, hmore, hr⟩ := h
  rw [← run_append] at hr
  refine ⟨events ++ more, result, fun e hmem => ?_, hr⟩
  rcases List.mem_append.mp hmem with hmem | hmem
  · exact he e hmem
  · exact hmore e hmem

include hpoll

/-- A closing returns if it does so after one more poll of its own. -/
theorem ReturnsBy.of_poll {stage stage' : CloseStage} (ht : w.task? id = some (.close stage))
    (hp : w.pollClose id stage = some w') (hs : CloseStep w id stage stage' w')
    (h : w'.task? id = some (.close stage') → w'.ReturnsBy kind id) : w.ReturnsBy kind id := by
  have hpolled : w.poll id = some w' := by
    unfold World.poll
    rw [ht]
    exact hp
  have hrun : w.run [.poll id] = w' := apply_poll hpolled
  have ht' : w'.task? id = some (.close stage') := by
    rw [hs.task? ht, if_pos rfl]
  refine ReturnsBy.of_run [.poll id] (by simp [hpoll]) ?_
  rw [hrun]
  exact h ht'

theorem returns_done {result : Except LinkError Unit}
    (ht : w.task? id = some (.close (.stopping (.done result)))) : w.ReturnsBy kind id := by
  refine .of_poll hpoll ht rfl (.finish result) fun ht' => ?_
  have hr : (w.setTask id (.close (.finished result))).closeResult? id = some result := by
    unfold closeResult?
    rw [ht']
  exact ⟨[], result, by simp, hr⟩

include hanswer

/-- Whatever is left of its plan, the manager can answer it, and every plan ends. -/
theorem returns_stopping {plan : Routine (Except LinkError Unit)}
    (ht : w.task? id = some (.close (.stopping plan))) : w.ReturnsBy kind id := by
  obtain ⟨es, result, hr⟩ := plan.ends answerable
  refine ReturnsBy.of_run (es.map (.answer id)) ?_ (returns_done hpoll (answers_run hr ht))
  intro e he
  obtain ⟨x, -, rfl⟩ := List.mem_map.mp he
  exact hanswer x

/-- A closing that takes the process runs the plan that ends it, and that comes to an end with any
answers. -/
theorem returns_taking (hp : w.hasProcess = true) (ht : w.task? id = some (.close .taking)) :
    w.ReturnsBy kind id :=
  .of_poll hpoll ht (if_pos hp) (.take hp) (returns_stopping hpoll hanswer)

/-- A closing whose turn has come returns: it takes the process and ends it. -/
theorem Waiting.returns_next (h : w.Waiting id) (hnext : w.isNext id = true) :
    w.ReturnsBy kind id :=
  .of_poll hpoll h.task (if_pos hnext) (.exit hnext) (returns_taking hpoll hanswer h.process)

end

/-- So a closing that waits may return in any case, first by getting its turn. -/
theorem returns_queued (h : w.Waiting id) : w.MayReturn id := by
  obtain ⟨events, hevents, hnext⟩ := h.gets_turn
  exact ReturnsBy.of_run events (fun e he => Event.onward_of_besides (hevents e he))
    ((h.run events hevents).returns_next rfl (fun _ => rfl) hnext)

/-- While a closing is under way and in the queue, it waits, and no other closing does. -/
theorem Underway.waiting {es : List Exchange} (hu : Underway (some id) es w) (hw : w.Orderly)
    (htidy : w.Tidy) (ht : w.task? id = some (.close .queued)) : w.Waiting id := by
  obtain ⟨stage, hs, hreached⟩ := hu.own id rfl
  obtain rfl : stage = .queued := Task.close.inj (Option.some.inj (hs.symm.trans ht))
  exact ⟨hw, htidy, hreached.told (by simp), ht, hreached.got.1,
    fun i stage hi => hu.others i stage fun h => hi (Option.some.inj h).symm⟩

/-- The first closing can always return, unless its caller goes away: from each of its stages there
are events that bring it on, the last of them the answers to its plan. -/
theorem Underway.returns {es : List Exchange} (hu : Underway (some id) es w) (hw : w.Orderly)
    (htidy : w.Tidy) : w.MayReturn id := by
  obtain ⟨stage, ht, hreached⟩ := hu.own id rfl
  show w.ReturnsBy Event.onward id
  cases stage with
  | marked =>
    refine ReturnsBy.of_poll rfl ht rfl .tell fun ht' => ?_
    have hpoll : w.poll id = w.pollClose id .marked := by
      unfold World.poll
      rw [ht]
    have hstep := closing_cases w (.poll id)
    have horderly := hw.step (apply_cases w (.poll id))
    have htidy' := htidy.step hw (.poll id)
    have honward := onward hw (.poll id)
    rw [apply_poll hpoll] at hstep horderly htidy' honward
    -- having told the calls to stop, it stands in the queue behind at most the one that has the
    -- turn
    have hu' := (hu.step hstep honward (fun _ _ => by simp)).1
    exact returns_queued (hu'.waiting horderly htidy' ht')
  | queued => exact returns_queued (hu.waiting hw htidy ht)
  | taking => exact returns_taking rfl (fun _ => rfl) hreached.got.1 ht
  | stopping plan => exact returns_stopping rfl (fun _ => rfl) ht
  | finished result =>
    refine ⟨[], result, by simp, ?_⟩
    show w.closeResult? id = some result
    unfold closeResult?
    rw [ht]

end World
end KernelLink.Session

import KernelLink.Proofs.Session.Returning
/-!
# A full pipe

Once the tasks that wait have been told, whoever has the turn can go on without the kernel: it is
cut short when it is polled, or waits for a time only. There is one exception. A call that writes
looks at nothing but the room in the kernel's input. If what is left of its line does not fit in,
and the kernel keeps its input open without taking from it, the call keeps its turn, and a closing
that waits for the turn neither ends the conversation nor talks to the manager of the process.

Main definitions:
* `Event.unaided`: everything but what the kernel does, as long as no caller goes away.
* `World.Clogged`: what is left of a line does not fit into the kernel's input.
* `World.Unblocks`: when a closing gets its turn without the kernel.

Main results:
* `World.Clogged.run`: without the kernel a link stays clogged, and its process stays.
* `World.Waiting.returns_unaided`: if it is not clogged, the closing can return without the kernel.
* `World.unblocks`: `Unblocks` holds of every run.
-/
namespace KernelLink.Session

open Host (Pipe)

/-- Is this no deed of the kernel, and does no caller go away? -/
def Event.unaided : Event → Bool
  | .kernelWrites _ | .kernelReports _ | .kernelTakes _ | .kernelClosesInput | .kernelClosesOutput
  | .kernelClosesErrors | .abandon _ => false
  | .pass _ | .capture | .call _ _ | .close _ | .poll _ | .giveUp _ | .answer _ _ => true

theorem room_put (p : Pipe) (bytes : List UInt8) : (p.put bytes).room = p.room - bytes.length := by
  show p.capacity - (p.bytes ++ bytes).length = p.capacity - p.bytes.length - bytes.length
  rw [List.length_append, Nat.sub_add_eq]

namespace World

variable {w w' : World} {id i : Nat} {line : List UInt8} {before after stage : Stage}
  {deeds : List Deed} {who : Option Nat} {es : List Exchange}

/-! ## A line that does not fit -/

/-- The call writes, and what is left of its line does not fit into the kernel's input, of which
both ends are open. -/
def Jams (w : World) : Stage → Prop
  | .writing rest =>
    (w.wires.input.writing && w.wires.input.reading) = true ∧ w.wires.input.room < rest.length
  | _ => False

/-- What is left of somebody's line does not fit into the kernel's input. -/
def Clogged (w : World) : Prop :=
  ∃ id line stage, w.task? id = some (.call line stage) ∧ w.Jams stage

/-- A full pipe holds up a call that has something left to write, since that is more than fits. -/
theorem Full.jams (h : w.Full stage) : w.Jams stage := by
  cases stage with
  | writing rest =>
    obtain ⟨hmore, hopen, hroom⟩ := h
    refine ⟨hopen, ?_⟩
    rw [hroom]
    exact List.length_pos_iff.mpr hmore
  | _ => exact h.elim

/-- A call that is held up in this way is in its turn, so all others wait behind it. -/
theorem Jams.inTurn (h : w.Jams stage) : stage.inTurn = true := by
  cases stage with
  | writing rest => rfl
  | _ => exact h.elim

/-- Whether a call is held up depends on the input of the kernel alone. -/
theorem Jams.of_input (h : w.Jams stage) (hinput : w'.wires.input = w.wires.input) :
    w'.Jams stage := by
  cases stage with
  | writing rest =>
    unfold Jams
    rw [hinput]
    exact h
  | _ => exact h.elim

/-- A line that does not fit is not written to its end by polls alone. -/
theorem CallStep.jams (h : CallStep w id line before after w' deeds) (hj : w.Jams before) :
    w'.Jams after := by
  cases h with
  | written => exact absurd hj.2 (Nat.not_lt_zero _)
  | broken more shut => exact absurd hj.1 shut
  | @put rest more writing reading room =>
    obtain ⟨hopen, hlong⟩ := hj
    refine ⟨hopen, ?_⟩
    -- the poll takes all the room there was, and something of the line is left
    show (w.wires.input.put (rest.take w.wires.input.room)).room <
      (rest.drop w.wires.input.room).length
    rw [room_put, List.length_take, List.length_drop]
    omega
  | cancel waits | skip waits | fail waits | gone waits | fill waits =>
    cases before with
    | writing rest => exact absurd waits Bool.false_ne_true
    | _ => exact hj.elim
  | _ => exact hj.elim

/-- A line that fits goes on to fit, and no other line is begun once the tasks that wait have been
told. -/
theorem CallStep.fits_on (h : CallStep w id line before after w' deeds) (hc : w.cancelled = true)
    (hs : before.inTurn = true) (hj : ¬ w.Jams before) : ¬ w'.Jams after := by
  intro hjams
  by_cases hwaits : before.waits = true
  · obtain ⟨-, -, hcut⟩ := h.told hc
    rw [hcut hwaits] at hjams
    exact hjams
  · cases h with
    | enterReady | enterLate | enterRefused => exact absurd hs Bool.false_ne_true
    | @put rest more writing reading room =>
      -- what fits is written at once
      have hfit : rest.length ≤ w.wires.input.room := by
        by_contra hlong
        rw [Nat.not_le] at hlong
        exact hj ⟨by rw [writing, reading]; rfl, hlong⟩
      obtain ⟨-, hlong⟩ := hjams
      rw [List.drop_eq_nil_of_le hfit] at hlong
      exact absurd hlong (Nat.not_lt_zero _)
    | cancel waits | skip waits | fail waits | gone waits | fill waits => exact hwaits waits
    | written | broken | leave => exact hjams
    | _ => exact hwaits rfl

/-! ## Without the kernel -/

/-- During a turn nobody but the kernel and the call itself touches the kernel's input. -/
theorem input_unaided (hw : w.Orderly) (ht : w.task? i = some (.call line stage))
    (hs : stage.inTurn = true) {e : Event} (he : e.unaided = true) (hi : e ≠ .poll i) :
    (w.apply e).wires.input = w.wires.input := by
  -- only a poll can write, and a poll of anybody else finds the turn taken
  cases e with
  | pass => rfl
  | capture => exact (captureStep_leaves w.wires).2.1
  | call | close | giveUp | abandon | answer => rw [wires_apply rfl]
  | poll j =>
    cases hp : w.poll j with
    | none => rw [apply_poll_none hp]
    | some w' =>
      rw [apply_poll hp]
      cases poll_polled hp with
      | call task step =>
        obtain rfl := step.only hw task ht hs
        exact absurd rfl hi
      | close task step =>
        cases step with
        | exit next =>
          -- no closing has its turn while somebody else has it
          have hfree := holder_of_isNext next
          rw [hw.turn ht hs] at hfree
          exact nomatch hfree
        | _ => rfl
  | _ => exact absurd he Bool.false_ne_true

/-- As long as the kernel reads nothing the call stays held up: its own polls may only fill the pipe
further, and nobody else writes. -/
theorem Clogged.step (h : w.Clogged) (hw : w.Orderly) {e : Event} (he : e.unaided = true) :
    (w.apply e).Clogged := by
  obtain ⟨id, line, stage, ht, hj⟩ := h
  -- its own poll writes less than what is left, and nothing else touches the pipe
  by_cases hi : e = .poll id
  · subst hi
    cases hp : w.poll id with
    | none =>
      rw [apply_poll_none hp]
      exact ⟨id, line, stage, ht, hj⟩
    | some w' =>
      rw [apply_poll hp]
      rw [poll_eq ht] at hp
      obtain ⟨after, deeds, step⟩ := pollCall_cases hp
      exact ⟨id, line, after, step.self ht, step.jams hj⟩
  · have hinput := input_unaided hw ht hj.inTurn he hi
    have hstays : e ≠ .abandon id := by
      rintro rfl
      exact Bool.false_ne_true he
    rcases (apply_cases w e).call_goes ht hstays with hs | ⟨after, hs, step⟩ | ⟨rfl, -⟩
    · exact ⟨id, line, stage, hs, hj.of_input hinput⟩
    · exact ⟨id, line, after, hs, step.jams hj⟩
    · exact hj.elim

/-- While a call is held up the link is ready, since it is in the middle of its request. -/
theorem Clogged.ready (h : w.Clogged) (hw : w.Orderly) : w.phase = .ready := by
  obtain ⟨id, line, stage, ht, hj⟩ := h
  cases stage with
  | writing rest => exact hw.fits ht
  | _ => exact hj.elim

/-- A closing that is not finished waits for its turn if the conversation has not ended. -/
theorem Underway.not_past {c : CloseStage} (hu : Underway who es w) (hp : w.phase ≠ .exited)
    (ht : w.task? id = some (.close c)) (hc : c ≠ .finished (.ok ())) : c.past = false := by
  obtain ⟨c', ht', hreached⟩ := hu.own id (hu.who ht hc)
  obtain rfl : c' = c := Task.close.inj (Option.some.inj (ht'.symm.trans ht))
  by_contra hpast
  rw [Bool.not_eq_false] at hpast
  exact hp (hreached.ended hpast)

/-- In a clogged link nobody talks to the manager, since a closing does so only once it has had its
turn, and the turn is the writer's. -/
theorem Clogged.exchanged (h : w.Clogged) (hw : w.Orderly) (hu : Underway who es w) (e : Event) :
    w.exchanged e = [] := by
  have hstep := closing_cases w e
  generalize w.apply e = w', w.exchanged e = xs at hstep
  cases hstep with
  | answer answer task =>
    -- only a closing that has had its turn asks, and then the conversation has ended
    have hpast := hu.not_past (by simp [h.ready hw]) task (by simp)
    exact nomatch hpast
  | _ => rfl

/-- Without the kernel a clogged link stays clogged, no closing gets its turn, and the process is
left alone. -/
theorem Clogged.run (h : w.Clogged) (hw : w.Orderly) (hu : Underway who es w) (more : List Event)
    (hmore : ∀ e ∈ more, e.unaided = true) :
    (w.run more).Clogged ∧ Underway who es (w.run more) ∧ w.exchanges more = [] := by
  induction more using List.reverseRecOn with
  | nil => exact ⟨h, hu, rfl⟩
  | append_singleton past e ih =>
    have he : e.unaided = true := hmore e (by simp)
    obtain ⟨hclogged, hunder, hquiet⟩ := ih fun e' h' => hmore e' (List.mem_append_left _ h')
    have hv := hw.run past
    have hsilent := hclogged.exchanged hv hunder e
    have hstays : ∀ j, who = some j → e ≠ .abandon j := by
      rintro j - rfl
      exact Bool.false_ne_true he
    obtain ⟨hunder', -⟩ := hunder.step (closing_cases _ e) (onward hv e) hstays
    rw [hsilent, List.map_nil, List.append_nil] at hunder'
    rw [run_concat, exchanges_concat, hquiet, hsilent]
    exact ⟨hclogged.step hv he, hunder', rfl⟩

/-! ## The closing gets its turn -/

/-- Calls that give up do not help a closing that waits: the turn is not theirs. -/
theorem Waiting.giveUp (h : w.Waiting id) (i : Nat) : (w.apply (.giveUp i)).Waiting id := by
  have hstep := closing_cases w (.giveUp i)
  refine h.kept ?_
  generalize w.apply (.giveUp i) = w', w.exchanged (.giveUp i) = xs at hstep
  cases hstep with
  | same e same => exact same

/-- Whoever has the turn gives it back without the kernel, if its line fits. -/
theorem Waiting.frees_unaided (h : w.Waiting id) (ht : w.task? i = some (.call line stage))
    (hs : stage.inTurn = true) (hj : ¬ w.Jams stage) :
    ∃ events : List Event, (∀ e ∈ events, (e.besides id && e.unaided) = true) ∧
      (w.run events).holder = none ∧ (w.run events).queue.length ≤ w.queue.length := by
  refine Waiting.frees_by (P := fun v s => ¬ v.Jams s) (fun e he => ?_) ?_
    (fun {v s} hv hj hs => ?_) h ht hs hj
  · rw [Bool.and_eq_true] at he
    exact he.1
  · rw [h.besides ht]
    rfl
  · have hroom : ¬ v.Full s := fun hfull => hj hfull.jams
    obtain ⟨ms, v', hcall⟩ := polls_unless_full hv.told hs hroom i line
    refine ⟨.pass ms, v', rfl, rfl, rfl, hcall, fun after deeds step => ?_⟩
    exact step.fits_on hv.told hs fun hjams => hj (hjams.of_input rfl)

/-- When nobody has the turn and all before it give up, the closing is next. -/
theorem Waiting.clears (h : w.Waiting id) (hfree : w.holder = none) :
    ∃ ids : List Nat, (w.run (ids.map .giveUp)).Waiting id ∧
      (w.run (ids.map .giveUp)).isNext id = true := by
  -- on how many stand in the queue: whoever is at its head gives up
  induction hn : w.queue.length using Nat.strong_induction_on generalizing w with
  | _ n ih =>
    have hmem : id ∈ w.queue := (h.tidy.queue id).mpr ⟨_, h.task, rfl⟩
    cases hq : w.queue with
    | nil =>
      rw [hq] at hmem
      exact nomatch hmem
    | cons i rest =>
      by_cases hi : i = id
      · refine ⟨[], h, ?_⟩
        show w.isNext id = true
        unfold isNext
        rw [hfree, hq, hi]
        simp
      · obtain ⟨t, ht, hwaits⟩ := (h.tidy.queue i).mp (by rw [hq]; exact List.mem_cons_self)
        cases t with
        | close c =>
          obtain rfl := h.others i c hi ht
          exact absurd hwaits Bool.false_ne_true
        | call line s =>
          obtain rfl := Task.queued_of_waits hwaits
          have hgives : w.apply (.giveUp i) = w.finish i line (.error .closed) := by
            show (w.giveUp i).getD w = _
            unfold World.giveUp
            rw [ht, h.told]
            rfl
          have hfree' : (w.apply (.giveUp i)).holder = none := by
            rw [hgives]
            show (if w.holder = some i then none else w.holder) = none
            rw [hfree]
            rfl
          have hshorter : (w.apply (.giveUp i)).queue.length < n := by
            rw [hgives, ← hn]
            show (w.queue.filter (· ≠ i)).length < w.queue.length
            exact List.length_filter_lt_length_iff_exists.mpr ⟨i, by simp [hq], by simp⟩
          obtain ⟨ids, hids⟩ := ih _ hshorter (h.giveUp i) hfree' rfl
          exact ⟨i :: ids, hids⟩

/-- A closing that waits for its turn can return without the kernel, if the link is not clogged. -/
theorem Waiting.returns_unaided (h : w.Waiting id) (hj : ¬ w.Clogged) :
    w.ReturnsBy Event.unaided id := by
  obtain ⟨first, hfirst, hfree⟩ : ∃ first : List Event,
      (∀ e ∈ first, (e.besides id && e.unaided) = true) ∧ (w.run first).holder = none := by
    cases hh : w.holder with
    | none => exact ⟨[], by simp, hh⟩
    | some i =>
      -- whoever has the turn is no writer without room, so it gives the turn back
      obtain ⟨line, stage, ht, hs⟩ := h.orderly.held hh
      have hline : ¬ w.Jams stage := fun hjams => hj ⟨i, line, stage, ht, hjams⟩
      obtain ⟨events, hevents, hfree, -⟩ := h.frees_unaided ht hs hline
      exact ⟨events, hevents, hfree⟩
  simp only [Bool.and_eq_true] at hfirst
  obtain ⟨ids, hwaiting, hnext⟩ :=
    (h.run first fun e he => (hfirst e he).1).clears hfree
  refine .of_run first (fun e he => (hfirst e he).2) (.of_run (ids.map .giveUp) (fun e he => ?_) ?_)
  · obtain ⟨i, -, rfl⟩ := List.mem_map.mp he
    rfl
  · exact hwaiting.returns_next rfl (fun _ => rfl) hnext

/-! ## All of it -/

/-- Where the closing of a link that was closed has got to. -/
theorem underway_of_closed {start : World} (hw : start.Orderly) (htidy : start.Tidy)
    (hprocess : start.hasProcess = true) (hopen : start.closed = false) (events : List Event)
    (hc : (start.run events).closed = true) : ∃ who es, Underway who es (start.run events) := by
  obtain ⟨past, id, more, rfl, hgoing, hfresh⟩ := first_closing hopen events hc
  have hthere := (going_run hw htidy past hgoing).1.trans hprocess
  have hu := Underway.begin (htidy.run hw past) hgoing hthere hfresh
  rw [← run_concat] at hu
  obtain ⟨who, hmore, -⟩ := underway_run hu (hw.run _) more
  rw [← run_append, List.append_assoc] at hmore
  exact ⟨who, _, hmore⟩

/-- When a closing gets its turn without the kernel, once the tasks that wait have been told. -/
structure Unblocks (w : World) : Prop where
  /-- Whoever has the turn can go on after some time, unless it has no room to write. -/
  goes : ∀ id line stage, w.task? id = some (.call line stage) → stage.inTurn = true →
    ((∃ ms, ((w.apply (.pass ms)).poll id).isSome = true) ↔ ¬ w.Full stage)
  /-- If it has none, the link is clogged. -/
  clogs : ∀ id line stage, w.task? id = some (.call line stage) → w.Full stage → w.Clogged
  /-- A clogged link stays clogged, and its process is left alone. -/
  stays : w.Clogged → ∀ more, (∀ e ∈ more, e.unaided = true) →
    (w.run more).Clogged ∧ w.exchanges more = []
  /-- A closing that waits for its turn can return if, and only if, the link is not clogged. -/
  returns : ∀ id, w.task? id = some (.close .queued) →
    (w.ReturnsBy Event.unaided id ↔ ¬ w.Clogged)

/-- Once everybody was told to stop, the call in its turn can go on at some moment exactly if it is
not held up by a full pipe. All other stages look at the cancellation first. -/
theorem goes_iff (hc : w.cancelled = true) (ht : w.task? id = some (.call line stage))
    (hs : stage.inTurn = true) :
    (∃ ms, ((w.apply (.pass ms)).poll id).isSome = true) ↔ ¬ w.Full stage := by
  have hpoll : ∀ ms, (w.apply (.pass ms)).poll id = (w.apply (.pass ms)).pollCall id line stage :=
    fun ms => poll_eq ht
  constructor
  · rintro ⟨ms, hsome⟩ hfull
    rw [hpoll] at hsome
    cases stage with
    | writing rest =>
      have hnone : (w.apply (.pass ms)).pollCall id line (.writing rest) = none :=
        pollWriting_eq_none.mpr hfull
      rw [hnone] at hsome
      exact nomatch hsome
    | _ => exact hfull.elim
  · intro hroom
    obtain ⟨ms, w', hcall⟩ := polls_unless_full hc hs hroom id line
    refine ⟨ms, ?_⟩
    rw [hpoll, hcall]
    rfl

/-- All that unblocking means, of a world in which a closing has cancelled what waits. -/
theorem Underway.unblocked (hu : Underway who es w) (hw : w.Orderly) (htidy : w.Tidy)
    (hc : w.cancelled = true) : w.Unblocks where
  goes _ _ _ ht hs := goes_iff hc ht hs
  clogs id line stage ht hfull := ⟨id, line, stage, ht, hfull.jams⟩
  stays h more hmore := by
    obtain ⟨hclogged, -, hquiet⟩ := h.run hw hu more hmore
    exact ⟨hclogged, hquiet⟩
  returns id ht := by
    obtain rfl := hu.who ht fun h => nomatch h
    constructor
    · rintro ⟨more, result, hmore, hr⟩ hclogged
      -- it is still the first closing, so if it had returned the conversation would have ended
      obtain ⟨hclogged', hu', -⟩ := hclogged.run hw hu more hmore
      obtain ⟨c, hs, hreached⟩ := hu'.own id rfl
      unfold closeResult? at hr
      rw [hs] at hr
      cases c with
      | finished r =>
        have hended := hreached.ended rfl
        rw [hclogged'.ready (hw.run more)] at hended
        exact nomatch hended
      | _ => exact nomatch hr
    · exact (hu.waiting hw htidy ht).returns_unaided

/-- However a link has been used: once the tasks that wait have been told, a closing gets its turn
without the kernel exactly if no call is stuck with a line that does not fit into the pipe. -/
theorem unblocks (timing : Timing) (wires : Wires) (hopen : wires.input.writing = true)
    (events : List Event) (hc : ((World.new timing wires).run events).cancelled = true) :
    ((World.new timing wires).run events).Unblocks := by
  have hw := Orderly.new timing wires
  have htidy := Tidy.new timing hopen
  have hclosed : ((World.new timing wires).run events).closed = true := by
    by_contra hno
    rw [Bool.not_eq_true] at hno
    rw [(htidy.run hw events).going hno] at hc
    exact nomatch hc
  obtain ⟨who, es, hu⟩ := underway_of_closed hw htidy rfl rfl events hclosed
  exact hu.unblocked (hw.run events) (htidy.run hw events) hc

/-- A call waits for its reply, another has begun behind it, and the kernel takes nothing. -/
def patientRun : List Event :=
  [.call 0 [10], .poll 0, .poll 0, .poll 0, .call 2 [10], .close 1, .poll 1]

theorem unblocks_patientRun :
    (Wires.new 0 9).input.writing = true ∧
      ((World.new ⟨1, 1, 0, 1, 9⟩ (.new 0 9)).run patientRun).cancelled = true ∧
      ((World.new ⟨1, 1, 0, 1, 9⟩ (.new 0 9)).run patientRun).holder = some 0 ∧
      ((World.new ⟨1, 1, 0, 1, 9⟩ (.new 0 9)).run patientRun).Unblocks :=
  ⟨rfl, by decide +kernel, by decide +kernel,
    unblocks ⟨1, 1, 0, 1, 9⟩ (.new 0 9) rfl patientRun (by decide +kernel)⟩

/-- A call writes, and the kernel takes nothing; meanwhile a closing begins. -/
def clogRun (line : List UInt8) : List Event :=
  [.call 0 line, .poll 0, .poll 0, .close 1, .poll 1]

/-- If the line is longer than a fresh pipe, however much that holds, the call is left without
room. -/
theorem full_clogRun (timing : Timing) {wires : Wires} (hempty : wires.input.bytes = [])
    (hwriting : wires.input.writing = true) (hreading : wires.input.reading = true)
    (hlong : wires.input.capacity < line.length) :
    let w := (World.new timing wires).run (clogRun line)
    w.cancelled = true ∧ w.holder = some 0 ∧ w.task? 1 = some (.close .queued) ∧
      ∃ stage, w.task? 0 = some (.call line stage) ∧ w.Full stage := by
  -- only the second poll of the call depends on the line: it fills the pipe
  have hput : ∀ {v : World}, v.wires.input = wires.input → v.pollWriting 0 line line = some
      ((v.onWires fun u =>
        { u with input := u.input.put (line.take wires.input.capacity) }).goOn 0 line
          (.writing (line.drop wires.input.capacity))) := by
    intro v hv
    have hroom : v.wires.input.room = wires.input.capacity := by
      rw [hv]
      exact Pipe.room_of_empty hempty
    have hopen : (v.wires.input.writing && v.wires.input.reading) = true := by
      rw [hv, hwriting, hreading]
      rfl
    have hmore : line.isEmpty = false := by
      rw [List.isEmpty_eq_false_iff]
      exact List.ne_nil_of_length_pos (Nat.zero_lt_of_lt hlong)
    unfold pollWriting
    dsimp only
    rw [hopen, hroom, if_neg (by simp [hmore]), if_neg (by simp),
      if_neg (Nat.ne_of_gt wires.input.capacity_pos)]
    rfl
  have hsecond : ((World.new timing wires).run [.call 0 line, .poll 0]).poll 0 = _ :=
    hput rfl
  intro w
  have hw : w = (((World.new timing wires).run [.call 0 line, .poll 0]).apply
      (.poll 0)).run [.close 1, .poll 1] :=
    run_append _ [.call 0 line, .poll 0] [.poll 0, .close 1, .poll 1]
  rw [apply_poll hsecond] at hw
  rw [hw]
  refine ⟨rfl, rfl, rfl, .writing (line.drop wires.input.capacity), rfl, ?_, ?_, ?_⟩
  · rw [Ne, List.drop_eq_nil_iff, Nat.not_le]
    exact hlong
  · show (wires.input.writing && wires.input.reading) = true
    rw [hwriting, hreading]
    rfl
  · show (wires.input.put (line.take wires.input.capacity)).room = 0
    rw [room_put, Pipe.room_of_empty hempty, List.length_take, Nat.min_eq_left (Nat.le_of_lt hlong),
      Nat.sub_self]

/-- Then neither time nor anything else that the kernel does not do lets the call go on or the
closing return. -/
theorem blocked_clogRun (timing : Timing) {wires : Wires} (hempty : wires.input.bytes = [])
    (hwriting : wires.input.writing = true) (hreading : wires.input.reading = true)
    (hlong : wires.input.capacity < line.length) :
    let w := (World.new timing wires).run (clogRun line)
    w.cancelled = true ∧ w.holder = some 0 ∧ (∀ ms, (w.apply (.pass ms)).poll 0 = none) ∧
      w.task? 1 = some (.close .queued) ∧ ¬ w.ReturnsBy Event.unaided 1 := by
  intro w
  have hw := Orderly.new timing wires
  have htidy : (World.new timing wires).Tidy := Tidy.new _ hwriting
  obtain ⟨hc, hheld, hclose, stage, hcall, hfull⟩ :=
    full_clogRun timing hempty hwriting hreading hlong
  have hclosed : w.closed = true := (htidy.run hw _).closed hclose
  obtain ⟨who, es, hu⟩ := underway_of_closed hw htidy rfl rfl _ hclosed
  have hunblocks : w.Unblocks := hu.unblocked (hw.run _) (htidy.run hw _) hc
  refine ⟨hc, hheld, fun ms => ?_, hclose, ?_⟩
  · by_contra hgoes
    rw [← Ne, Option.ne_none_iff_isSome] at hgoes
    exact (hunblocks.goes 0 _ stage hcall hfull.jams.inTurn).mp ⟨ms, hgoes⟩ hfull
  · intro hreturns
    exact (hunblocks.returns 1 hclose).mp hreturns ⟨0, _, stage, hcall, hfull.jams⟩

/-- So it is with a pipe of the usual size and a line that is one byte longer. -/
theorem long_line_blocks_close :
    let w := (World.new ⟨1, 1, 0, 1, 9⟩ (.new 0 9)).run
      (clogRun (List.replicate (Pipe.new.capacity + 1) 32))
    w.cancelled = true ∧ w.holder = some 0 ∧ (∀ ms, (w.apply (.pass ms)).poll 0 = none) ∧
      w.task? 1 = some (.close .queued) ∧ ¬ w.ReturnsBy Event.unaided 1 := by
  have hlong : Pipe.new.capacity <
      (List.replicate (Pipe.new.capacity + 1) (32 : UInt8)).length := by
    rw [List.length_replicate]
    exact Nat.lt_succ_self _
  exact blocked_clogRun ⟨1, 1, 0, 1, 9⟩ rfl rfl rfl hlong

end World
end KernelLink.Session

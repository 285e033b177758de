import KernelLink.Proofs.Session.Returning
/-!
# Closing against calls

A link may be closed by any number of closings while any number of calls are under way, at whatever
points they are. The first closing does all that there is to do, once; the others return at once.
From the moment at which it tells the tasks that wait, nothing that the kernel writes is read any
more, and a call that waits for its reply or for a late one is cut short. Calls that begin after it
are refused. Once it has ended the conversation, nobody writes to the kernel any more.

Main definitions:
* `World.CutShort`: what calls may still do once they have been told to stop.
* `World.Shut`: what is so once the conversation has been ended by a closing.
* `World.ShutBy`: what becomes of a link that a closing has begun to close.
* `World.ClosesOnce`: how a link is closed.

Main result:
* `World.closes_once`: `ClosesOnce` holds of every run.
-/
namespace KernelLink.Session.World

open Control (ShutsDown shutDown answerable runs_shutDown)

variable {w w' : World} {id : Nat} {line : List UInt8} {before after : Stage} {deeds : List Deed}
  {e : Event}

/-! ## Once the tasks that wait have been told -/

/-- What calls may still do once they have been told to stop. -/
structure CutShort (w : World) (more : List Event) : Prop where
  /-- No call takes a line. -/
  takes : ∀ id line, .took id line ∉ w.log more
  /-- No poll takes anything out of the kernel's output, not even a blank line. -/
  output : ∀ id, ((w.run more).apply (.poll id)).wires.output = (w.run more).wires.output
  /-- A call that waits for its reply, or for a late one, is cut short when it is polled. -/
  stops : ∀ id line stage, (w.run more).task? id = some (.call line stage) →
    stage.waits = true →
    ((w.run more).apply (.poll id)).callResult? id = some (.error .cancelled)
  /-- Nothing else becomes of one that waits now. -/
  waits : ∀ id line stage, w.task? id = some (.call line stage) → stage.waits = true →
    .abandon id ∉ more →
    (w.run more).task? id = some (.call line stage) ∨
      (w.run more).callResult? id = some (.error .cancelled)

/-- Once everybody was told to stop, no line is taken any more. Induction on the events; a call that
still waits stops with its next poll and takes nothing. -/
theorem told_takes (hw : w.Orderly) (hc : w.cancelled = true) (more : List Event) (i : Nat)
    (l : Host.Delivery) : .took i l ∉ w.log more := by
  induction more using List.reverseRecOn with
  | nil => exact List.not_mem_nil
  | append_singleton past e ih =>
    rw [log_concat, List.mem_append, not_or]
    refine ⟨ih, fun hd => ?_⟩
    rcases (apply_cases (w.run past) e).poll_or_calm (hw.run past) with
      ⟨j, line, before, after, -, task, poll⟩ | calm
    · exact (poll.told (cancelled_run hw hc past)).2.1 i l hd
    · exact nomatch (calm.log _ hd).symm

theorem told_output (hc : w.cancelled = true) (id : Nat) :
    (w.apply (.poll id)).wires.output = w.wires.output := by
  cases hp : w.poll id with
  | none => rw [apply_poll_none hp]
  | some w' =>
    rw [apply_poll hp]
    cases poll_polled hp with
    | call task step => exact (step.told hc).1
    | close task step => exact step.untouched.1

/-- A call that waits is cancelled by its next poll, whatever stands ready for it. -/
theorem told_stops (hc : w.cancelled = true) (ht : w.task? id = some (.call line before))
    (hwaits : before.waits = true) :
    (w.apply (.poll id)).callResult? id = some (.error .cancelled) := by
  have hpoll : w.pollCall id line before = some (w.cancel id line) := by
    cases before with
    | discarding deadline => exact if_pos hc
    | awaiting deadline graceEnd => exact if_pos hc
    | _ => exact absurd hwaits Bool.false_ne_true
  rw [apply_poll ((poll_eq ht).trans hpoll)]
  refine callResult?_eq_some.mpr ⟨line, ?_⟩
  obtain ⟨after, deeds, step⟩ := pollCall_cases hpoll
  rw [step.self ht, (step.told hc).2.2 hwaits]

/-- Until that poll it stays where it is, unless its caller goes away; so it ends as cancelled or
not at all. -/
theorem told_waits (hw : w.Orderly) (hc : w.cancelled = true)
    (ht : w.task? id = some (.call line before)) (hwaits : before.waits = true)
    (more : List Event) (hk : .abandon id ∉ more) :
    (w.run more).task? id = some (.call line before) ∨
      (w.run more).callResult? id = some (.error .cancelled) := by
  induction more using List.reverseRecOn with
  | nil => exact .inl ht
  | append_singleton past e ih =>
    rw [List.mem_append, not_or, List.mem_singleton] at hk
    have hstep := apply_cases (w.run past) e
    rw [run_concat]
    rcases ih hk.1 with hs | hr
    · rcases hstep.call_goes hs (Ne.symm hk.2) with hs' | ⟨after, hs', poll⟩ | ⟨rfl, -⟩
      · exact .inl hs'
      · obtain rfl := (poll.told (cancelled_run hw hc past)).2.2 hwaits
        exact .inr (callResult?_eq_some.mpr ⟨line, hs'⟩)
      · exact absurd hwaits Bool.false_ne_true
    · exact .inr (hstep.callResult?_of hr (Ne.symm hk.2))

/-- All that a cancellation does to the calls, from the four lemmas before. -/
theorem cutShort (hw : w.Orderly) (hc : w.cancelled = true) (more : List Event) :
    w.CutShort more where
  takes := told_takes hw hc more
  output := told_output (cancelled_run hw hc more)
  stops _ _ _ := told_stops (cancelled_run hw hc more)
  waits _ _ _ ht hwaits := told_waits hw hc ht hwaits more

/-! ## Once the conversation has been ended -/

/-- The kernel is gone as far as calls are concerned, and its input has ended; nobody has begun to
write since, and nobody has written. -/
structure Shut (w : World) (later : List Event) : Prop where
  phase : (w.run later).phase = .exited
  input : (w.run later).wires.input.writing = false
  begins : ∀ id, .began id ∉ w.log later
  writes : ∀ id bytes, .wrote id bytes ∉ w.log later

/-- All that holds once the link has ended: nothing begins, nothing is written, and every later call
is refused. -/
theorem shut (hw : w.Orderly) (ht : w.Tidy) (hp : w.phase = .exited) (later : List Event) :
    w.Shut later := by
  have hrefused : w.phase.refusal = some .closed := by
    rw [hp]
    rfl
  have hphase : (w.run later).phase = .exited :=
    (phase_kept hw ht hrefused later (.inl rfl)).trans hp
  refine ⟨hphase, (ht.run hw later).input.mpr hphase, fun id hd => ?_, fun id bytes hd => ?_⟩
  · rcases log_refused hw hrefused later hd with hno | ⟨i, he⟩
    · exact nomatch hno.symm
    · exact nomatch he
  · exact (silent_refused hw hrefused later id).1 bytes hd

/-! ## All of it -/

/-- What has become of a link that the closing `id` had begun to close at `w`, after `more`. -/
structure ShutBy (w : World) (id : Nat) (more : List Event) : Prop where
  /-- Nobody else has talked to the manager. -/
  asks : ∀ x ∈ w.exchanges more, x.1 = id
  /-- What was said is the beginning of a kernel's end. -/
  follows : ∃ rest result,
    ShutsDown w.timing.shutdownGrace ((w.exchanges more).map (·.2) ++ rest) result
  /-- If the closing has returned, it is all of it. -/
  performs : .abandon id ∉ more → ∀ result, (w.run more).closeResult? id = some result →
    ShutsDown w.timing.shutdownGrace ((w.exchanges more).map (·.2)) result
  /-- It can always return. -/
  returns : .abandon id ∉ more → (w.run more).MayReturn id
  /-- All other closings are finished, and have nothing to report. -/
  others : ∀ i stage, i ≠ id → (w.run more).task? i = some (.close stage) →
    stage = .finished (.ok ())
  /-- One that begins now is so at once, and does nothing else. -/
  late : ∀ i, (w.run more).task? i = none →
    (w.run more).apply (.close i) = (w.run more).addTask i (.close (.finished (.ok ())))
  /-- The first poll of the closing tells the tasks that wait. -/
  tells : .abandon id ∉ more → ∀ stage, (w.run more).task? id = some (.close stage) →
    stage ≠ .marked → (w.run more).cancelled = true
  /-- When its turn is over the conversation has ended for good. -/
  ends : .abandon id ∉ more → ∀ stage, (w.run more).task? id = some (.close stage) →
    stage.past = true → ∀ later, (w.run more).Shut later

/-- What the one closing that ends the kernel asks is the plan that ends a kernel, or the beginning
of it if its caller goes away or the run stops before. The induction over the run is that of
`underway_run`. -/
theorem Underway.shutBy (hu : Underway (some id) [] w) (hw : w.Orderly) (ht : w.Tidy)
    (more : List Event) : w.ShutBy id more := by
  obtain ⟨who, hmore, hwho, hasks⟩ := underway_run hu hw more
  have htiming : (w.run more).timing = w.timing := hw.timing_run more
  -- the closing is where it has got to, unless its caller went away
  have hown : .abandon id ∉ more →
      Underway (some id) ((w.exchanges more).map (·.2)) (w.run more) := by
    intro hk
    rcases hwho with rfl | ⟨-, hgone⟩
    · exact hmore
    · exact absurd hgone hk
  have hreached : .abandon id ∉ more → ∀ stage, (w.run more).task? id = some (.close stage) →
      (w.run more).Reached ((w.exchanges more).map (·.2)) stage := by
    intro hk stage hs
    obtain ⟨stage', hs', hreached⟩ := (hown hk).own id rfl
    obtain rfl : stage' = stage := Task.close.inj (Option.some.inj (hs'.symm.trans hs))
    exact hreached
  refine ⟨hasks, ?_, fun hk result hr => ?_, fun hk => ?_, fun i stage hi hs => ?_, fun i hn => ?_,
    fun hk stage hs => (hreached hk stage hs).told, fun hk stage hs hpast => ?_⟩
  · -- what is left of the plan could be carried out
    obtain ⟨rest, hleads⟩ := hmore.follows
    obtain ⟨es, result, hr⟩ := rest.ends answerable
    rw [htiming] at hleads
    exact ⟨es, result, runs_shutDown.mp (hleads.runs hr)⟩
  · have hs : (w.run more).task? id = some (.close (.finished result)) := by
      unfold closeResult? at hr
      split at hr
      · next r hs =>
        rw [hs, Option.some.inj hr]
      · exact nomatch hr
    have hruns : (shutDown (w.run more).timing.shutdownGrace).Runs _ result :=
      (hreached hk _ hs).got
    rw [htiming] at hruns
    exact runs_shutDown.mp hruns
  · exact (hown hk).returns (hw.run more) (ht.run hw more)
  · refine hmore.others i stage (fun h => ?_) hs
    rcases hwho with rfl | ⟨rfl, -⟩
    · exact hi (Option.some.inj h).symm
    · exact nomatch h
  · simp [apply, hn, beginClose, hmore.closed]
  · exact shut (hw.run more) (ht.run hw more) ((hreached hk stage hs).ended hpast)

/-- How a link is closed, in the run `events` from `start`. -/
structure ClosesOnce (start : World) (events : List Event) : Prop where
  /-- As long as it is not closed the process is there, and nobody has talked to the manager. -/
  going : (start.run events).closed = false →
    (start.run events).hasProcess = true ∧ start.exchanges events = []
  /-- If it is closed, there is a first closing, before which nobody has talked to the manager. -/
  first : (start.run events).closed = true →
    ∃ past id more, events = past ++ .close id :: more ∧
      (start.run past).closed = false ∧ (start.run past).task? id = none ∧
      start.exchanges past = [] ∧ ((start.run past).apply (.close id)).ShutBy id more
  /-- Once the tasks that wait have been told, nothing is read. -/
  told : (start.run events).cancelled = true → ∀ more, (start.run events).CutShort more
  /-- A call that begins after a closing fails at once, and nothing else becomes of it. -/
  refuses : (start.run events).closed = true → ∀ id line more,
    (start.run events).task? id = none → .abandon id ∉ more →
    (((start.run events).apply (.call id line)).run more).callResult? id = some (.error .closed)

/-- Whatever happens to a link: its first closing does all that there is to do, once, and the others
nothing; from then on calls read nothing, get no reply, and in the end write nothing. -/
theorem closes_once (timing : Timing) (wires : Wires) (hopen : wires.input.writing = true)
    (events : List Event) : (World.new timing wires).ClosesOnce events := by
  have hw := Orderly.new timing wires
  have ht := Tidy.new timing hopen
  refine ⟨going_run hw ht events, fun hc => ?_, cutShort (hw.run events),
    fun hc id line more hn hk => ?_⟩
  · obtain ⟨past, id, more, hevents, hgoing, hfresh⟩ := first_closing rfl events hc
    obtain ⟨hprocess, hquiet⟩ := going_run hw ht past hgoing
    have hu := Underway.begin (ht.run hw past) hgoing hprocess hfresh
    have hbegun : ((World.new timing wires).run past).apply (.close id) =
        (World.new timing wires).run (past ++ [.close id]) := (run_concat _ _ _).symm
    refine ⟨past, id, more, hevents, hgoing, hfresh, hquiet, hu.shutBy ?_ ?_ more⟩
    · rw [hbegun]
      exact hw.run _
    · rw [hbegun]
      exact ht.run hw _
  · exact callResult?_run (apply_call_closed hc hn line) more hk

/-- A call waits for its reply when the link is closed, twice; the kernel does not leave within the
grace, and its process cannot be found either. Another call begins too late. -/
def shutRun : List Event :=
  [.call 0 [10], .poll 0, .poll 0, .poll 0, .close 1, .close 2, .poll 1, .call 3 [10], .poll 0,
    .poll 1, .poll 1, .answer 1 ⟨.wait (some 1), .timedOut⟩,
    .answer 1 ⟨.currentPid, (none : Option Nat)⟩,
    .answer 1 ⟨.cleanup, (.ok () : Except Chain Unit)⟩, .poll 1]

/-- A run in which a call waits while two closings begin: it is cancelled, the first closing ends
the kernel, and the second has nothing to do. -/
theorem closes_once_waiting :
    (Wires.new 0 9).input.writing = true ∧
      (World.new ⟨1, 1, 0, 1, 9⟩ (.new 0 9)).ClosesOnce shutRun ∧
      ((World.new ⟨1, 1, 0, 1, 9⟩ (.new 0 9)).run shutRun).callResult? 0 =
        some (.error .cancelled) ∧
      ((World.new ⟨1, 1, 0, 1, 9⟩ (.new 0 9)).run shutRun).closeResult? 1 = some (.ok ()) ∧
      ((World.new ⟨1, 1, 0, 1, 9⟩ (.new 0 9)).run shutRun).closeResult? 2 = some (.ok ()) ∧
      ((World.new ⟨1, 1, 0, 1, 9⟩ (.new 0 9)).run shutRun).callResult? 3 =
        some (.error .closed) ∧
      ((World.new ⟨1, 1, 0, 1, 9⟩ (.new 0 9)).exchanges shutRun).map (·.1) = [1, 1, 1] :=
  ⟨rfl, closes_once ⟨1, 1, 0, 1, 9⟩ (.new 0 9) rfl shutRun, by decide +kernel, by decide +kernel,
    by decide +kernel, by decide +kernel, by decide +kernel⟩

end KernelLink.Session.World

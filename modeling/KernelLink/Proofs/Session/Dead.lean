import KernelLink.Proofs.Session.Drain
/-!
# A conversation that has ended stays ended

There are several ways for a call to find out that the conversation cannot go on, and each of them
leaves a state in which no later call gets through: it is told that the link is closed, or why the
conversation was given up, and it neither writes nor takes a line. A conversation that was given up
can only be closed, and one whose kernel is gone stays that way.

Main definitions:
* `isDeadly`: the results after which no call gets through.
* `World.Dead`: no call that begins from now on gets through.
* `World.Lifeless`: what that means for all that may still happen.
* `World.Endings`: how the conversation of a link ends.

Main results:
* `World.Dead.lifeless`: no later call gets through.
* `World.CallStep.deadly`: the results that say so leave such a state.
* `World.endings_are_final`: `Endings` holds at every moment of every run.
-/
namespace KernelLink.Session

/-- Is this the result of a call after which no call gets through? -/
def isDeadly : Result → Bool
  | .error (.poisoned _) | .error .closed | .error .noResponse | .error (.stream _)
  | .error .cancelled => true
  | _ => false

/-- Whose deed it is. -/
def Deed.actor? : Deed → Option Nat
  | .spoke _ | .heard _ | .captured _ => none
  | .entered id | .took id _ | .began id | .wrote id _ | .waited id => some id

namespace World

variable {w w' : World} {id : Nat} {line : List UInt8} {before after : Stage} {deeds : List Deed}
  {err : LinkError}

/-! ## Once a closing has begun -/

theorem EventStep.closed_mono {e : Event} (h : EventStep w e w' deeds) (hc : w.closed = true) :
    w'.closed = true := by
  cases h with
  | step task poll => rw [poll.closed.1, hc]
  | aside e aside => exact aside.closed hc
  | _ => exact hc

/-- Once a closing has begun, no run takes that back. Induction on the events from the end. -/
theorem closed_run (hc : w.closed = true) (more : List Event) : (w.run more).closed = true := by
  induction more using List.reverseRecOn with
  | nil => exact hc
  | append_singleton past e ih =>
    rw [run_concat]
    exact (apply_cases _ e).closed_mono ih

/-- Every call that begins is told at once that the link is closed. -/
theorem apply_call_closed (hc : w.closed = true) (hn : w.task? id = none) (line : List UInt8) :
    (w.apply (.call id line)).callResult? id = some (.error .closed) := by
  have happly : w.apply (.call id line) =
      w.addTask id (.call line (.finished (.error .closed))) := by
    simp [apply, hn, beginCall, hc]
  rw [happly]
  refine callResult?_eq_some.mpr ⟨line, ?_⟩
  rw [task?_addTask w id id _ hn, if_pos rfl]

/-- All that a call that began after a closing can be is refused. -/
theorem shut_run (hc : w.closed = true) (hn : w.task? id = none) (more : List Event) :
    ∀ {line stage}, (w.run more).task? id = some (.call line stage) →
      stage = .finished (.error .closed) := by
  induction more using List.reverseRecOn with
  | nil =>
    intro line stage ht
    rw [show (w.run []).task? id = none from hn] at ht
    exact absurd ht.symm (Option.some_ne_none _)
  | append_singleton past e ih =>
    intro line stage ht
    rw [run_concat] at ht
    rcases (apply_cases (w.run past) e).call_cases ht with
      hs | ⟨-, -, ⟨hopen, -⟩ | ⟨-, hs⟩⟩ | ⟨before, hs, poll⟩ | ⟨-, -, hs⟩
    · exact ih hs
    · rw [closed_run hc past] at hopen
      exact absurd hopen.symm Bool.false_ne_true
    · exact hs
    · obtain rfl := ih hs
      exact absurd poll.not_finished not_false
    · exact hs

/-! ## Once the phase admits no calls -/

/-- A conversation that was given up, and not closed since, is as it was. -/
theorem phase_kept (hw : w.Orderly) (ht : w.Tidy) (hp : w.phase.refusal = some err)
    (more : List Event) (hc : err = .closed ∨ (w.run more).closed = false) :
    (w.run more).phase = w.phase := by
  induction more using List.reverseRecOn with
  | nil => rfl
  | append_singleton past e ih =>
    have hstep := apply_cases (w.run past) e
    rw [run_concat] at hc ⊢
    have hc' : err = .closed ∨ (w.run past).closed = false := by
      refine hc.imp_right fun hopen => ?_
      by_contra hpast
      rw [Bool.not_eq_false] at hpast
      rw [hstep.closed_mono hpast] at hopen
      exact Bool.false_ne_true hopen.symm
    have hpast := ih hc'
    rcases hstep.phase_refused (hw.run past) (by rw [hpast]; exact hp) with hsame | ⟨hexit, i, hi⟩
    · rw [hsame, hpast]
    · rcases hc' with rfl | hopen
      · rcases Phase.refusal_eq_some.mp hp with ⟨why, -, hwhy⟩ | ⟨hphase, -⟩
        · exact absurd hwhy (by simp)
        · rw [hexit, hphase]
      · exact absurd hi ((ht.run hw past).closings hopen i _)

/-- All that a call that begins now can be is waiting, or failed for that reason, if it is not told
that the link is closed. -/
theorem told_run (hw : w.Orderly) (ht : w.Tidy) (hp : w.phase.refusal = some err)
    (hn : w.task? id = none) (more : List Event)
    (hc : err = .closed ∨ (w.run more).closed = false) :
    ∀ {line stage}, (w.run more).task? id = some (.call line stage) →
      stage = .queued ∨ stage = .finished (.error err) := by
  induction more using List.reverseRecOn with
  | nil =>
    intro line stage hi
    rw [show (w.run []).task? id = none from hn] at hi
    exact absurd hi.symm (Option.some_ne_none _)
  | append_singleton past e ih =>
    intro line stage hi
    have hstep := apply_cases (w.run past) e
    rw [run_concat] at hc hi
    -- no closing by the end means no closing before, so the induction applies to what went before
    have hc' : err = .closed ∨ (w.run past).closed = false := by
      refine hc.imp_right fun hopen => ?_
      by_contra hpast
      rw [Bool.not_eq_false] at hpast
      rw [hstep.closed_mono hpast] at hopen
      exact Bool.false_ne_true hopen.symm
    have hpast : (w.run past).phase.refusal = some err := by
      -- the phase does not change, so the reason is the same for every call that comes too late
      rw [phase_kept hw ht hp past hc']
      exact hp
    rcases hstep.call_cases hi with
      hs | ⟨-, -, ⟨-, hs⟩ | ⟨hclosed, hs⟩⟩ | ⟨before, hs, poll⟩ | ⟨-, htold, hs⟩
    · exact ih hc' hs
    · exact .inl hs
    · rcases hc' with rfl | hopen
      · exact .inr hs
      · rw [hopen] at hclosed
        exact absurd hclosed Bool.false_ne_true
    · rcases ih hc' hs with rfl | rfl
      · rcases poll.refused ((hw.run past).fits hs) hpast with ⟨-, rfl, -⟩ | ⟨⟨endsAt, hq⟩, -⟩
        · exact .inr rfl
        · exact absurd hq (by simp)
      · exact absurd poll.not_finished not_false
    · rcases hc' with rfl | hopen
      · exact .inr hs
      · rw [(ht.run hw past).going hopen] at htold
        exact absurd htold Bool.false_ne_true

/-! ## No later call gets through -/

/-- No call that begins from now on gets through: a closing has begun, or the phase admits no
calls. -/
def Dead (w : World) : Prop := w.closed = true ∨ ∃ e, w.phase.refusal = some e

/-- A poll of the task takes nothing out of the kernel's output, not even a blank line, and puts
nothing into its input. -/
structure Untouched (w : World) (id : Nat) : Prop where
  /-- Nothing is taken. -/
  output : (w.apply (.poll id)).wires.output = w.wires.output
  /-- Nothing is written. -/
  input : (w.apply (.poll id)).wires.input.bytes = w.wires.input.bytes

/-- What may still happen to calls that begin from now on. -/
structure Lifeless (w : World) : Prop where
  /-- It stays that way. -/
  stays : ∀ more, (w.run more).Dead
  /-- They do not write. -/
  writes : ∀ more id bytes, w.task? id = none → .wrote id bytes ∉ w.log more
  /-- They take no line. -/
  takes : ∀ more id line, w.task? id = none → .took id line ∉ w.log more
  /-- They leave the kernel's output and input alone altogether. -/
  untouched : ∀ more id, w.task? id = none → (w.run more).Untouched id
  /-- They fail. -/
  fails : ∀ more id result, w.task? id = none → (w.run more).callResult? id = some result →
    ∃ e, result = .error e
  /-- They do get a result: one that has begun and is not given up by its caller has one after some
  time and some polls, whatever has happened since. -/
  returns : ∀ id line more, w.task? id = none → .abandon id ∉ more →
    ∃ (ms : Nat) (ids : List Nat) (e : LinkError),
      ((w.run (.call id line :: more)).run (.pass ms :: ids.map .poll)).callResult? id =
        some (.error e)

/-- A step of a closing neither reads from the kernel nor writes to it. -/
theorem CloseStep.untouched {stage stage' : CloseStage} (h : CloseStep w id stage stage' w') :
    w'.wires.output = w.wires.output ∧ w'.wires.input.bytes = w.wires.input.bytes := by
  cases h <;> exact ⟨rfl, rfl⟩

/-- Whether a poll touches the pipes is a matter of the rules for calls. -/
theorem untouched_of_calls
    (h : ∀ {line before after w' deeds}, w.task? id = some (.call line before) →
      CallStep w id line before after w' deeds →
      w'.wires.output = w.wires.output ∧ w'.wires.input.bytes = w.wires.input.bytes) :
    w.Untouched id := by
  cases hp : w.poll id with
  | none =>
    have hidle := apply_poll_none hp
    exact ⟨by rw [hidle], by rw [hidle]⟩
  | some w' =>
    have hboth : w'.wires.output = w.wires.output ∧
        w'.wires.input.bytes = w.wires.input.bytes := by
      cases poll_polled hp with
      | call task step => exact h task step
      | close task step => exact step.untouched
    exact ⟨by rw [apply_poll hp, hboth.1], by rw [apply_poll hp, hboth.2]⟩

/-- In a conversation that admits no calls, nobody touches the pipes. -/
theorem untouched_refused (hw : w.Orderly) (hp : w.phase.refusal = some err) (id : Nat) :
    w.Untouched id := by
  refine untouched_of_calls fun {line before after w' deeds} task poll => ?_
  rcases poll.refused (hw.fits task) hp with ⟨-, -, -, rfl⟩ | ⟨-, -, -, rfl⟩
  · exact ⟨rfl, rfl⟩
  · exact ⟨rfl, rfl⟩

/-- A call that began after a closing does not touch them either. -/
theorem untouched_shut (hc : w.closed = true) (hn : w.task? id = none) (more : List Event) :
    (w.run more).Untouched id := by
  refine untouched_of_calls fun {line before after w' deeds} task poll => ?_
  obtain rfl := shut_run hc hn more task
  exact absurd poll.not_finished not_false

/-- What a poll of a call shows is its own deed. -/
theorem CallStep.actor (h : CallStep w id line before after w' deeds) :
    ∀ d ∈ deeds, d.actor? = some id := by
  cases h <;> simp [Deed.actor?]

/-- A call that began after a closing shows nothing. -/
theorem log_shut (hw : w.Orderly) (hc : w.closed = true) (hn : w.task? id = none)
    (more : List Event) {d : Deed} (hd : d ∈ w.log more) (hcall : d.ofCall = true) :
    d.actor? ≠ some id := by
  intro hactor
  induction more using List.reverseRecOn with
  | nil => exact absurd hd (by simp [World.log])
  | append_singleton past e ih =>
    rw [log_concat, List.mem_append] at hd
    rcases hd with hd | hd
    · exact ih hd
    rcases (apply_cases (w.run past) e).poll_or_calm (hw.run past) with
      ⟨i, line, before, after, -, task, poll⟩ | calm
    · -- the poll is one of the call itself, which has its result already
      have hi := poll.actor d hd
      rw [hactor, Option.some.injEq] at hi
      subst hi
      obtain rfl := shut_run hc hn past task
      exact poll.not_finished
    · rw [calm.log d hd] at hcall
      exact Bool.false_ne_true hcall

/-- A call that waits for its turn in a conversation that admits no calls waits on or fails. -/
theorem waits_run (hw : w.Orderly) (hp : w.phase.refusal = some err)
    (hq : (∃ line, w.task? id = some (.call line .queued)) ∨
      ∃ e, w.callResult? id = some (.error e))
    (more : List Event) (hk : .abandon id ∉ more) :
    (∃ line, (w.run more).task? id = some (.call line .queued)) ∨
      ∃ e, (w.run more).callResult? id = some (.error e) := by
  induction more using List.reverseRecOn with
  | nil => exact hq
  | append_singleton past e ih =>
    rw [List.mem_append, not_or, List.mem_singleton] at hk
    have hstep := apply_cases (w.run past) e
    rw [run_concat]
    rcases ih hk.1 with ⟨line, ht⟩ | ⟨e', hr⟩
    · obtain ⟨err', hp'⟩ := refusal_run hw hp past
      rcases hstep.call_goes ht (Ne.symm hk.2) with hs | ⟨after, hs, poll⟩ | ⟨-, hs⟩
      · exact .inl ⟨line, hs⟩
      · rcases poll.refused ((hw.run past).fits ht) hp' with ⟨-, rfl, -⟩ | ⟨⟨endsAt, hq⟩, -⟩
        · exact .inr ⟨err', callResult?_eq_some.mpr ⟨line, hs⟩⟩
        · exact absurd hq (by simp)
      · exact .inr ⟨_, callResult?_eq_some.mpr ⟨line, hs⟩⟩
    · exact .inr ⟨e', hstep.callResult?_of hr (Ne.symm hk.2)⟩

/-- Such a call fails after some time and some polls. -/
theorem fails_soon (hw : w.Orderly) (ht : w.Tidy) (hp : w.phase.refusal = some err)
    (hq : (∃ line, w.task? id = some (.call line .queued)) ∨
      ∃ e, w.callResult? id = some (.error e)) :
    ∃ (ms : Nat) (ids : List Nat) (e : LinkError),
      (w.run (.pass ms :: ids.map .poll)).callResult? id = some (.error e) := by
  obtain ⟨ms, ids, hempty, -⟩ := drains hw ht hp
  have hkept : Event.abandon id ∉ Event.pass ms :: ids.map .poll := by simp
  rcases waits_run hw hp hq _ hkept with ⟨line, hi⟩ | ⟨e, hr⟩
  · -- it would still be in the queue, which is empty
    have hmem := ((ht.run hw _).queue id).mpr ⟨_, hi, rfl⟩
    rw [hempty] at hmem
    exact absurd hmem (by simp)
  · exact ⟨ms, ids, e, hr⟩

/-- In a conversation that admits no calls, nobody writes or takes a line. -/
theorem silent_refused (hw : w.Orderly) (hp : w.phase.refusal = some err) (more : List Event)
    (id : Nat) :
    (∀ bytes, .wrote id bytes ∉ w.log more) ∧ ∀ line, .took id line ∉ w.log more := by
  refine ⟨fun bytes hd => ?_, fun line hd => ?_⟩
  · rcases log_refused hw hp more hd with hno | ⟨i, he⟩
    · exact Bool.false_ne_true hno.symm
    · exact Deed.noConfusion he
  · rcases log_refused hw hp more hd with hno | ⟨i, he⟩
    · exact Bool.false_ne_true hno.symm
    · exact Deed.noConfusion he

theorem Dead.run (h : w.Dead) (hw : w.Orderly) (more : List Event) : (w.run more).Dead := by
  rcases h with hc | ⟨err, hp⟩
  · exact .inl (closed_run hc more)
  · exact .inr (refusal_run hw hp more)

/-- No later call gets through: it takes no line, writes nothing, and fails. -/
theorem Dead.lifeless (h : w.Dead) (hw : w.Orderly) (ht : w.Tidy) : w.Lifeless where
  stays more := h.run hw more
  writes more id bytes hn hd := by
    rcases h with hc | ⟨err, hp⟩
    · exact log_shut hw hc hn more hd rfl rfl
    · exact (silent_refused hw hp more id).1 bytes hd
  takes more id line hn hd := by
    rcases h with hc | ⟨err, hp⟩
    · exact log_shut hw hc hn more hd rfl rfl
    · exact (silent_refused hw hp more id).2 line hd
  untouched more id hn := by
    rcases h with hc | ⟨err, hp⟩
    · exact untouched_shut hc hn more
    · obtain ⟨err', hp'⟩ := refusal_run hw hp more
      exact untouched_refused (hw.run more) hp' id
  fails more id result hn hr := by
    rcases h with hc | ⟨err, hp⟩
    · obtain ⟨line, hi⟩ := callResult?_eq_some.mp hr
      exact ⟨.closed, Stage.finished.inj (shut_run hc hn more hi)⟩
    · refine fails_refused hw hp more ?_ hr
      unfold callResult?
      rw [hn]
  returns id line more hn hk := by
    have hstep := apply_cases w (.call id line)
    have hw' := hw.step hstep
    show ∃ (ms : Nat) (ids : List Nat) (e : LinkError),
      (((w.apply (.call id line)).run more).run (.pass ms :: ids.map .poll)).callResult? id =
        some (.error e)
    -- it fails at once if a closing has begun, and else is queued, where it comes to its turn
    by_cases hc : w.closed = true
    · have hr := callResult?_run (apply_call_closed hc hn line) more hk
      exact ⟨0, [], .closed, callResult?_run hr _ (by simp)⟩
    · rcases h with hc' | ⟨err, hp⟩
      · exact absurd hc' hc
      have happly : w.apply (.call id line) =
          { w with queue := w.queue ++ [id] }.addTask id (.call line .queued) := by
        simp [apply, hn, beginCall, hc]
      have hp' : (w.apply (.call id line)).phase.refusal = some err := by
        rw [happly]
        exact hp
      have hq : (w.apply (.call id line)).task? id = some (.call line .queued) := by
        rw [happly, task?_enqueue w id id _ hn, if_pos rfl]
      obtain ⟨err', hp''⟩ := refusal_run hw' hp' more
      exact fails_soon (hw'.run more) ((ht.step hw _).run hw' more) hp''
        (waits_run hw' hp' (.inl ⟨line, hq⟩) more hk)

/-! ## How a conversation ends -/

/-- Results that say that the conversation is at its end leave it there. -/
theorem CallStep.deadly {result : Result}
    (h : CallStep w id line before (.finished result) w' deeds) (hfit : before.Fits w.phase)
    (hd : isDeadly result = true ∨ ∃ endsAt, before = .leaving endsAt) :
    ∃ e, w'.phase.refusal = some e := by
  cases h with
  | enterRefused next refusal => exact ⟨_, refusal⟩
  | cancel | fail | missing | garbled | overdue => exact ⟨_, rfl⟩
  | skip waits | fill waits => exact absurd waits Bool.false_ne_true
  | @reply deadline graceEnd text output envelope going read inked decoded =>
    rcases hd with hd | ⟨endsAt, hb⟩
    · cases envelope <;> exact absurd hd (by simp [Envelope.payload, isDeadly])
    · exact absurd hb (by simp)
  | report =>
    rcases hd with hd | ⟨endsAt, hb⟩
    · exact absurd hd (by simp [isDeadly])
    · exact absurd hb (by simp)
  | leave =>
    have hexited : w.phase = .exited := hfit
    exact ⟨.closed, by
      show w.phase.refusal = _
      rw [hexited]
      rfl⟩

/-- A call that gets such a result leaves a state in which no later call gets through. -/
theorem dead_of_deadly {e : Event} {result : Result} (hw : w.Orderly) (ht : w.Tidy)
    (hn : w.callResult? id = none) (hr : (w.apply e).callResult? id = some result)
    (hd : isDeadly result = true ∨
      ∃ line endsAt, w.task? id = some (.call line (.leaving endsAt))) :
    (w.apply e).Dead := by
  have hstep := apply_cases w e
  obtain ⟨line, hi⟩ := callResult?_eq_some.mp hr
  rcases hstep.call_cases hi with
    hs | ⟨-, -, ⟨-, hs⟩ | ⟨hclosed, -⟩⟩ | ⟨before, hs, poll⟩ | ⟨-, htold, -⟩
  · rw [callResult?_eq_some.mpr ⟨line, hs⟩] at hn
    exact absurd hn (by simp)
  · exact absurd hs (by simp)
  · exact .inl (hstep.closed_mono hclosed)
  · refine .inr (poll.deadly (hw.fits hs) (hd.imp_right ?_))
    rintro ⟨l, endsAt, hleaving⟩
    exact ⟨endsAt, (call_inj hs hleaving).2⟩
  · refine .inl (hstep.closed_mono ?_)
    by_contra hopen
    rw [Bool.not_eq_true] at hopen
    rw [ht.going hopen] at htold
    exact Bool.false_ne_true htold

/-- How the conversation of a link ends, as seen from some moment. -/
structure Endings (w : World) : Prop where
  /-- A conversation that was given up stays that way, for the same reason, or the kernel is
  gone. -/
  poisoned : ∀ why more, w.phase = .poisoned why →
    (w.run more).phase = .poisoned why ∨ (w.run more).phase = .exited
  /-- A kernel that is gone stays gone. -/
  exited : ∀ more, w.phase = .exited → (w.run more).phase = .exited
  /-- The kernel's input has ended exactly if the kernel is gone. -/
  input : w.wires.input.writing = false ↔ w.phase = .exited
  /-- So a call that writes has an input to write to. -/
  writing : ∀ id line rest, w.task? id = some (.call line (.writing rest)) →
    w.wires.input.writing = true
  /-- After a call has been told that the conversation is at its end, or has noticed that the kernel
  is gone and reported its last words, no later call gets through. -/
  deadly : ∀ e id result, w.callResult? id = none → (w.apply e).callResult? id = some result →
    (isDeadly result = true ∨ ∃ line endsAt, w.task? id = some (.call line (.leaving endsAt))) →
    (w.apply e).Lifeless
  /-- While the phase admits no calls, no call at all writes, takes a line or succeeds any more. -/
  refusing : (∃ e, w.phase.refusal = some e) → ∀ more id,
    (∀ bytes, .wrote id bytes ∉ w.log more) ∧ (∀ line, .took id line ∉ w.log more) ∧
      (w.run more).Untouched id ∧ ∀ result, w.callResult? id = none →
        (w.run more).callResult? id = some result → ∃ e, result = .error e
  /-- A call that begins after the conversation was given up, and gets its result before a closing
  begins, is told why it was given up. -/
  why : ∀ why more id result, w.phase = .poisoned why → w.task? id = none →
    (w.run more).callResult? id = some result → (w.run more).closed = false →
    result = .error (.poisoned why.reason)
  /-- A call that begins after the kernel was found gone or a closing has begun is told that the
  link is closed. -/
  closed : ∀ more id result, w.phase = .exited ∨ w.closed = true → w.task? id = none →
    (w.run more).callResult? id = some result → result = .error .closed

/-- A conversation that has ended stays ended: whatever calls, closings and callers that go away
there are, and whatever the kernel does. -/
theorem endings_are_final (timing : Timing) (wires : Wires) (hopen : wires.input.writing = true)
    (events : List Event) : ((World.new timing wires).run events).Endings := by
  have hw : ((World.new timing wires).run events).Orderly := (Orderly.new timing wires).run events
  have ht : ((World.new timing wires).run events).Tidy :=
    (Tidy.new timing hopen).run (Orderly.new timing wires) events
  -- from here on only the two invariants of the run are used, not how it came about
  generalize (World.new timing wires).run events = w at hw ht
  refine ⟨?poisoned, ?exited, ht.input, ?writing, ?deadly, ?refusing, ?why, ?closed⟩
  case poisoned =>
    intro why more hphase
    have hp : w.phase.refusal = some (.poisoned why.reason) := by rw [hphase]; rfl
    rw [← hphase]
    exact phase_run hw hp more
  case exited =>
    intro more hphase
    have hp : w.phase.refusal = some .closed := by rw [hphase]; rfl
    rw [phase_kept hw ht hp more (.inl rfl), hphase]
  case writing =>
    intro id line rest hi
    have hready : w.phase = .ready := hw.fits hi
    -- a call writes only in the phase in which the input is still open
    by_contra hshut
    rw [Bool.not_eq_true, ht.input, hready] at hshut
    exact Phase.noConfusion hshut
  case deadly =>
    intro e id result hn hr hd
    exact (dead_of_deadly hw ht hn hr hd).lifeless (hw.step (apply_cases w e)) (ht.step hw e)
  case refusing =>
    rintro ⟨err, hp⟩ more id
    obtain ⟨hwrites, htakes⟩ := silent_refused hw hp more id
    refine ⟨hwrites, htakes, ?_, fun result hn hr => ?_⟩
    · obtain ⟨err', hp'⟩ := refusal_run hw hp more
      exact untouched_refused (hw.run more) hp' id
    · exact fails_refused hw hp more hn hr
  case why =>
    intro why more id result hphase hn hr hgoing
    have hp : w.phase.refusal = some (.poisoned why.reason) := by rw [hphase]; rfl
    obtain ⟨line, hi⟩ := callResult?_eq_some.mp hr
    rcases told_run hw ht hp hn more (.inr hgoing) hi with hs | hs
    · exact absurd hs (by simp)
    · exact Stage.finished.inj hs
  case closed =>
    intro more id result hc hn hr
    obtain ⟨line, hi⟩ := callResult?_eq_some.mp hr
    rcases hc with hphase | hclosed
    · have hp : w.phase.refusal = some .closed := by rw [hphase]; rfl
      rcases told_run hw ht hp hn more (.inl rfl) hi with hs | hs
      · exact absurd hs (by simp)
      · exact Stage.finished.inj hs
    · exact Stage.finished.inj (shut_run hclosed hn more hi)

/-- A call takes a line of garbage for its reply. -/
def garbledRun : List Event :=
  [.call 0 [10], .poll 0, .poll 0, .poll 0, .kernelWrites (Text.Utf8.bytes "garbage\n"), .poll 0,
    .poll 0]

/-- The garbage ends the conversation, and that is final. -/
theorem garbage_is_final :
    ((World.new ⟨1, 1, 0, 1, 9⟩ (.new 0 9)).run garbledRun).phase =
        .poisoned (.unparseable "garbage") ∧
      ((World.new ⟨1, 1, 0, 1, 9⟩ (.new 0 9)).run garbledRun).Endings :=
  ⟨by decide +kernel, endings_are_final ⟨1, 1, 0, 1, 9⟩ (.new 0 9) rfl garbledRun⟩

end World
end KernelLink.Session

import KernelLink.Proofs.Host.WholeLines
import KernelLink.Proofs.Session.Instants
import KernelLink.Proofs.Session.Pairing
/-!
# A reply in time wins

A call that waits looks at the kernel's output before it looks at anything else but closing, however
often error output, blank lines and ends of graces make it look again. So what it returns depends on
nothing but when the first line came that is not blank: if that was before the deadline and less
than a grace after the first error output, the call returns what it makes of the line. And a call
reports error output of a kernel that has not hung up only when a grace has passed since the first
of it, and no line has come.

Main definitions:
* `World.Exchange`: a call writes all of its line, and then waits.
* `World.InTime`: the first line that is not blank comes in time.
* `World.Unanswered`: what holds until the call has a result.
* `World.Outcome`: how it comes to its result.
* `World.Prompt`: a line in time wins, and error output is reported only behind a whole grace.

Main results:
* `World.Exchange.outcome`: every result of the call is one of the outcomes.
* `World.reply_wins`: in every run every exchange is prompt.
* `World.unreadable_line_wins`: a line in time that is no text.
-/
namespace KernelLink.Session.World

open Host (Delivery Pipe)

variable {w w' : World} {id : Nat} {line : List UInt8} {before after stage : Stage}
  {deeds : List Deed} {e : Event} {past write wait : List Event} {d : Delivery}

/-! ## Writing and waiting -/

/-- The state in which a call has written: it began with a poll in the state `w`, and `write` is
what has happened since. -/
def afterWriting (w : World) (id : Nat) (write : List Event) : World := w.run (.poll id :: write)

/-- The state in which it waits: it began to wait with one more poll, and `wait` is what has
happened since. -/
def afterWaiting (w : World) (id : Nat) (write wait : List Event) : World :=
  (w.afterWriting id write).run (.poll id :: wait)

/-- A call writes all of its line, and then waits. -/
structure Exchange (w : World) (id : Nat) (write wait : List Event) : Prop where
  /-- With its next poll it begins to write. -/
  begins : w.Reaches Stage.sends id
  /-- It has written all of its line. -/
  written : ∃ line, (w.afterWriting id write).task? id = some (.call line (.writing []))
  /-- Its caller stays. -/
  stays : .abandon id ∉ write ++ .poll id :: wait

/-- Behind `early` the line `d` has come, the first since the call has written that is not blank;
that is before the deadline, and less than a grace after the first error output, if there was
any. -/
structure InTime (w : World) (id : Nat) (write early : List Event) (d : Delivery) : Prop where
  /-- It is the first line. -/
  first : ((w.afterWriting id write).kernelLines (.poll id :: early)).head? = some d
  /-- The deadline has not passed. -/
  deadline : (w.afterWaiting id write early).wires.now <
    (w.afterWriting id write).wires.now + w.timing.responseTimeout
  /-- No grace can have passed. -/
  grace : ∀ t, w.firstCapture (.poll id :: write ++ .poll id :: early) = some t →
    (w.afterWaiting id write early).wires.now < t + w.timing.stderrGrace

/-- The events of an exchange, cut where the call has written its request. -/
theorem run_exchange (w : World) (id : Nat) (write wait : List Event) :
    w.run (.poll id :: write ++ .poll id :: wait) = w.afterWaiting id write wait :=
  w.run_append (.poll id :: write) (.poll id :: wait)

theorem afterWaiting_append (w : World) (id : Nat) (write wait more : List Event) :
    w.afterWaiting id write (wait ++ more) = (w.afterWaiting id write wait).run more :=
  (w.afterWriting id write).run_append (.poll id :: wait) more

/-- One more event of the waiting; the inductions below add events at this end. -/
theorem afterWaiting_concat (w : World) (id : Nat) (write wait : List Event) (e : Event) :
    w.afterWaiting id write (wait ++ [e]) = (w.afterWaiting id write wait).apply e :=
  w.afterWaiting_append id write wait [e]

/-- An exchange whose waiting is cut short is one, since its caller was there all the time. -/
theorem Exchange.of_append {more : List Event} (h : w.Exchange id write (wait ++ more)) :
    w.Exchange id write wait := by
  refine ⟨h.begins, h.written, fun hm => h.stays ?_⟩
  rw [← List.cons_append, ← List.append_assoc]
  exact List.mem_append_left more hm

theorem Exchange.keeps (h : w.Exchange id write wait) : .abandon id ∉ wait :=
  fun hm => h.stays (List.mem_append_right write (List.mem_cons_of_mem _ hm))

/-- With the poll behind its last byte the call begins to wait. -/
theorem Exchange.waits (h : w.Exchange id write wait) : (w.afterWriting id write).Waits id := by
  obtain ⟨line, ht⟩ := h.written
  generalize hdeadline : (w.afterWriting id write).wires.now +
    (w.afterWriting id write).timing.responseTimeout = deadline
  have hpoll : (w.afterWriting id write).poll id =
      some ((w.afterWriting id write).goOn id line (.awaiting deadline none)) := by
    rw [poll_eq ht, ← hdeadline]
    rfl
  refine ⟨line, .writing [], .awaiting deadline none, ht, rfl, ?_, rfl⟩
  rw [apply_poll hpoll, ← hdeadline]
  exact CallStep.written.self ht

/-- A call that has nothing left to write takes no line and begins to wait. -/
theorem CallStep.writes_nothing (h : CallStep w id line (.writing []) after w' deeds) :
    Log.taken deeds = [] ∧ ∃ deadline, after = .awaiting deadline none := by
  cases h with
  | written => exact ⟨rfl, _, rfl⟩
  | broken more | put more => exact absurd rfl more
  | cancel waits | skip waits | fail waits | gone waits | fill waits =>
    exact absurd waits Bool.false_ne_true

/-! ## The lines of a kernel -/

/-- A kernel that has closed its output says no more: the two events by which it could say something
ask for an open one. -/
theorem WireStep.shut {v v' : Wires} (h : WireStep v v' deeds) (hv : v.output.writing = false) :
    v'.output = v.output ∧ Log.spoken deeds = [] := by
  cases h with
  | speak bytes writing =>
    rw [hv] at writing
    exact absurd writing Bool.false_ne_true
  | shutOutput =>
    refine ⟨?_, rfl⟩
    show v.output.closeWriting = v.output
    rw [Pipe.closeWriting, ← hv]
  | _ => exact ⟨rfl, rfl⟩

/-- Once the kernel has stopped writing it says nothing more. Both are said at once, since the
second needs the first before every event. -/
theorem Orderly.shut_run (hw : w.Orderly) (h : w.wires.output.writing = false)
    (events : List Event) :
    (w.run events).wires.output.writing = false ∧ Log.spoken (w.log events) = [] := by
  -- no event opens the output again, and with the output closed no event speaks
  induction events using List.reverseRecOn with
  | nil => exact ⟨h, rfl⟩
  | append_singleton past e ih =>
    obtain ⟨hshut, hspoken⟩ := ih
    rw [run_concat, log_concat, Log.spoken_append, hspoken, List.nil_append]
    rcases (apply_cases (w.run past) e).poll_or_calm (hw.run past) with
      ⟨i, l, before, after, -, -, poll⟩ | calm
    · exact ⟨poll.writing.trans hshut, poll.spoken⟩
    · obtain ⟨hsame, hnone⟩ := calm.wires.shut hshut
      rw [hsame]
      exact ⟨hshut, hnone⟩

/-- What a kernel has said stays said: more events only add lines at the end. -/
theorem Orderly.kernelLines_grow (hw : w.Orderly) (events more : List Event) :
    w.kernelLines events <+: w.kernelLines (events ++ more) := by
  unfold kernelLines
  rw [log_append, Log.spoken_append, run_append, ← List.append_assoc]
  refine Host.textLines_grow _ fun hended => ?_
  have hshut : (w.run events).wires.output.writing = false := by simpa using hended
  obtain ⟨hstill, hspoken⟩ := (hw.run events).shut_run hshut more
  exact ⟨hspoken, by rw [hstill]; rfl⟩

/-! ## Until the call has a result -/

/-- Since the state `w` nothing has been made of the kernel's output, and the call waits for its
reply, or for the last words of a kernel that will say no more. -/
structure Unanswered (w : World) (id : Nat) (events : List Event) : Prop where
  /-- The call waits. -/
  stage : ∀ {line stage}, (w.run events).task? id = some (.call line stage) →
    stage.listens = true
  /-- The account of the output. -/
  output : (w.run events).wires.output.Accounts
    (w.wires.output.held ++ w.wires.output.bytes ++ Log.spoken (w.log events))
    ((Log.taken (w.log events)).map Prod.snd)
  /-- No line was taken. -/
  taken : Log.taken (w.log events) = []
  /-- A kernel that is gone will say no more. -/
  left : ∀ {line endsAt}, (w.run events).task? id = some (.call line (.leaving endsAt)) →
    (w.run events).wires.output.writing = false ∧ (w.run events).wires.output.held = [] ∧
      (w.run events).wires.output.bytes = []

/-- A poll of a call that waits and goes on takes no line, and it leaves only at the end of the
output. -/
theorem CallStep.waitsOn (h : CallStep w id line before after w' deeds)
    (hb : before.listens = true) (ha : after.inTurn = true) :
    Log.taken deeds = [] ∧ ∀ endsAt, after = .leaving endsAt →
      w'.wires.output.writing = false ∧ w'.wires.output.held = [] ∧
        w'.wires.output.bytes = [] := by
  cases h with
  | gone waits going read => exact ⟨rfl, fun _ _ => Pipe.textLines_of_ended read⟩
  | skip waits | fill waits =>
    refine ⟨rfl, fun endsAt hleft => ?_⟩
    rw [hleft] at waits
    exact absurd waits Bool.false_ne_true
  | stale | arm | disarm => exact ⟨rfl, fun _ hleft => Stage.noConfusion hleft⟩
  | enterReady | enterLate | discard | written | broken | put =>
    exact absurd hb Bool.false_ne_true
  | _ => exact absurd ha Bool.false_ne_true

/-- A poll after which the call is still in its turn has taken no line, so what is unanswered stays
so. -/
theorem Unanswered.poll (h : w.Unanswered id past)
    (ht : (w.run past).task? id = some (.call line before))
    (hpoll : CallStep (w.run past) id line before after ((w.run past).apply e)
      ((w.run past).deeds e)) (ha : after.inTurn = true) : w.Unanswered id (past ++ [e]) := by
  have hself := hpoll.self ht
  -- had the poll taken a line, the call would not go on
  obtain ⟨htaken, hleft⟩ := hpoll.waitsOn (h.stage ht) ha
  refine ⟨fun {l s} hs => ?_, accounts_run w (past ++ [e]), ?_, fun {l endsAt} hs => ?_⟩
  · rw [run_concat] at hs
    obtain ⟨-, rfl⟩ := call_inj hself hs
    exact (hpoll.listens (h.stage ht) ha).1
  · rw [log_concat, Log.taken_append, h.taken, htaken]
    rfl
  · rw [run_concat] at hs ⊢
    exact hleft endsAt (call_inj hself hs).2

/-- What the others do takes no line either, and the output keeps its account. -/
theorem Unanswered.calm (h : w.Unanswered id past)
    (ht : (w.run past).task? id = some (.call line stage))
    (hcalm : Calm (w.run past) e ((w.run past).apply e) ((w.run past).deeds e))
    (hsame : ((w.run past).apply e).task? id = some (.call line stage)) :
    w.Unanswered id (past ++ [e]) := by
  -- the task is found in the same stage, so each part carries over
  refine ⟨fun {l s} hs => ?_, accounts_run w (past ++ [e]), ?_, fun {l endsAt} hs => ?_⟩
  · rw [run_concat] at hs
    obtain ⟨-, rfl⟩ := call_inj hsame hs
    exact h.stage ht
  · rw [log_concat, Log.taken_append, h.taken, Log.taken_of_calm hcalm.log]
    rfl
  · rw [run_concat] at hs ⊢
    obtain ⟨-, rfl⟩ := call_inj hsame hs
    -- nobody else reads, and a kernel that is gone adds nothing
    obtain ⟨hshut, hempty⟩ := h.left ht
    rw [(hcalm.wires.shut hshut).1]
    exact ⟨hshut, hempty⟩

/-- From the poll with which a call that has written begins to wait. -/
theorem Exchange.unanswered (h : w.Exchange id write wait) (hw : w.Orderly)
    (hn : (w.afterWaiting id write wait).callResult? id = none) :
    (w.afterWriting id write).Unanswered id (.poll id :: wait) ∧
      ∃ line stage, (w.afterWaiting id write wait).task? id = some (.call line stage) ∧
        stage.inTurn = true := by
  have hv : (w.afterWriting id write).Orderly := hw.run _
  obtain ⟨line, before, after, ht, hb, ha, hpoll⟩ := h.waits.poll Stage.inTurn_of_listens
  have hself := hpoll.self ht
  have hturn := Stage.inTurn_of_listens after ha
  -- the first poll finds the call with nothing left to write
  obtain ⟨l, hwritten⟩ := h.written
  obtain ⟨-, rfl⟩ := call_inj hwritten ht
  have hfirst : (w.afterWriting id write).Unanswered id [.poll id] := by
    have hlog : (w.afterWriting id write).log [.poll id] =
        (w.afterWriting id write).deeds (.poll id) := List.append_nil _
    refine ⟨fun {l s} hs => ?_, accounts_run _ [.poll id], ?_, fun {l endsAt} hs => ?_⟩
    · obtain ⟨-, rfl⟩ := call_inj hself hs
      exact ha
    · rw [hlog]
      exact hpoll.writes_nothing.1
    · obtain ⟨-, rfl⟩ := call_inj hself hs
      obtain ⟨-, deadline, hwaits⟩ := hpoll.writes_nothing
      exact Stage.noConfusion hwaits
  have hnow : ((w.afterWriting id write).apply (.poll id)).Orderly :=
    hv.step (apply_cases (w.afterWriting id write) _)
  rcases hnow.along
    (P := fun past => (w.afterWriting id write).Unanswered id (.poll id :: past)) hself hturn hfirst
    (fun hpast task _ poll ha => hpast.poll task poll ha)
    (fun hpast task _ calm hsame => hpast.calm task calm hsame) wait h.keeps with
    ⟨result, hr⟩ | ⟨hwaits, hpast⟩
  · rw [show (w.afterWaiting id write wait).callResult? id = some result from hr] at hn
    exact absurd hn (Option.some_ne_none result)
  · exact ⟨hpast, hwaits⟩

/-- As long as nothing was made of the output, all lines are still in the pipe. -/
theorem Unanswered.lines (h : w.Unanswered id past) :
    w.kernelLines past = Host.textLines (!(w.run past).wires.output.writing)
      ((w.run past).wires.output.held ++ (w.run past).wires.output.bytes) := by
  have hlines := h.output.textLines_eq
  rw [h.taken] at hlines
  exact hlines

/-- The line that a call takes which has taken none is the first that the kernel has said. -/
theorem Unanswered.first {q : Pipe} (h : w.Unanswered id past)
    (hread : (w.run past).wires.output.nextLine? = some (d, q)) (hinked : d.isBlank = false) :
    (w.kernelLines past).head? = some d := by
  have hnext := h.output.next_eq hread hinked
  rw [h.taken] at hnext
  rw [List.head?_eq_getElem?]
  exact hnext

/-- A call that finds nothing to read has been sent no line. -/
theorem Unanswered.quiet (h : w.Unanswered id past) (hquiet : (w.run past).Quiet) :
    (w.run past).wires.output.writing = true ∧ w.kernelLines past = [] := by
  rw [h.lines]
  exact Pipe.textLines_of_nothing hquiet.line hquiet.fill

/-! ## How a call comes to its result -/

/-- How a call that has written comes to its result behind `wait`. -/
inductive Outcome (w : World) (id : Nat) (write wait : List Event) : Result → Prop where
  /-- Something is made of the first line. -/
  | replied {d : Delivery}
      (first : ((w.afterWriting id write).kernelLines (.poll id :: wait)).head? = some d) :
      Outcome w id write wait (replyTo d)
  /-- The call has been told to stop. -/
  | told (told : (w.afterWaiting id write wait).cancelled = true) :
      Outcome w id write wait (.error .cancelled)
  /-- A grace has passed since error output was captured, and no line has come. -/
  | reported {t : Nat} (text : String)
      (none : (w.afterWriting id write).kernelLines (.poll id :: wait) = [])
      (captured : w.firstCapture (.poll id :: write ++ .poll id :: wait) = some t)
      (passed : t + w.timing.stderrGrace ≤ (w.afterWaiting id write wait).wires.now) :
      Outcome w id write wait (.error (.kernelStderr text))
  /-- The deadline has passed, and no line has come. -/
  | overdue (none : (w.afterWriting id write).kernelLines (.poll id :: wait) = [])
      (passed : (w.afterWriting id write).wires.now + w.timing.responseTimeout ≤
        (w.afterWaiting id write wait).wires.now) :
      Outcome w id write wait (.error .noResponse)
  /-- The kernel has closed its output, and no line has come. -/
  | left (text : String) (none : (w.afterWriting id write).kernelLines (.poll id :: wait) = [])
      (shut : (w.afterWaiting id write wait).wires.output.writing = false) :
      Outcome w id write wait (lastWords text)

/-- Every result of a call that has written is one of the outcomes. -/
theorem Exchange.outcome {result : Result} (h : w.Exchange id write wait) (hw : w.Orderly)
    (hn : (w.afterWaiting id write wait).callResult? id = none)
    (hr : (w.afterWaiting id write (wait ++ [e])).callResult? id = some result) :
    w.Outcome id write wait result := by
  have hv : (w.afterWriting id write).Orderly := hw.run _
  have htiming : (w.afterWriting id write).timing = w.timing := hw.timing_run _
  obtain ⟨hunanswered, line, stage, ht, hturn⟩ := h.unanswered hw hn
  have hlistening := h.waits.listening hv wait h.keeps hn
  have hdated := h.begins.dated hw (write ++ .poll id :: wait) h.stays (by
    show (w.run (.poll id :: write ++ .poll id :: wait)).callResult? id = none
    rw [run_exchange]
    exact hn)
  rw [afterWaiting_concat] at hr
  obtain ⟨l, hresult⟩ := callResult?_eq_some.mp hr
  -- a result comes with a poll of the call itself, so by one of the rules for a poll
  rcases (apply_cases (w.afterWaiting id write wait) e).call_goes ht (ne_abandon hresult) with
    hsame | ⟨after, hself, hpoll⟩ | ⟨hqueued, -⟩
  · obtain ⟨-, rfl⟩ := call_inj hsame hresult
    exact absurd hturn Bool.false_ne_true
  · obtain ⟨-, rfl⟩ := call_inj hself hresult
    have hlistens := hunanswered.stage ht
    generalize (w.afterWaiting id write wait).apply e = w' at hpoll
    generalize (w.afterWaiting id write wait).deeds e = deeds at hpoll
    cases hpoll with
    | cancel waits told => exact .told told
    | fail waits going read => exact .replied (hunanswered.first read rfl)
    | reply going read inked decoded =>
      rw [← replyTo_of_ok decoded]
      exact .replied (hunanswered.first read inked)
    | garbled going read inked undecoded =>
      rw [← replyTo_of_error undecoded]
      exact .replied (hunanswered.first read inked)
    | @report deadline graceAt quiet due inked =>
      have hstage : (w.run (.poll id :: write ++ .poll id :: wait)).task? id =
          some (.call line (.awaiting deadline (some graceAt))) := by
        rw [run_exchange]
        exact ht
      -- the end of the grace is no earlier than a grace after the first capture
      obtain ⟨t, hfirst, hle⟩ := hdated.grace hstage rfl
      exact .reported _ (hunanswered.quiet quiet).2 hfirst (Nat.le_trans hle due)
    | overdue quiet due running unwoken =>
      have hdeadline := hlistening.deadline ht rfl
      rw [hdeadline, htiming] at due
      exact .overdue (hunanswered.quiet quiet).2 due
    | leave due =>
      obtain ⟨hshut, hheld, hbytes⟩ := hunanswered.left ht
      refine .left _ ?_ hshut
      rw [hunanswered.lines, hshut, hheld, hbytes]
      rfl
    | skip waits | fill waits => exact absurd waits Bool.false_ne_true
    | enterRefused | missing => exact absurd hlistens Bool.false_ne_true
  · rw [hqueued] at hturn
    exact absurd hturn Bool.false_ne_true

/-- A call that has a result came to it at some event. -/
theorem Exchange.ended {result : Result} (h : w.Exchange id write wait)
    (hr : (w.afterWaiting id write wait).callResult? id = some result) :
    ∃ more e rest, wait = more ++ e :: rest ∧
      (w.afterWaiting id write more).callResult? id = none ∧
      (w.afterWaiting id write (more ++ [e])).callResult? id = some result := by
  induction wait using List.reverseRecOn with
  | nil =>
    obtain ⟨line, before, after, -, -, ht, hlistens⟩ := h.waits
    obtain ⟨l, hresult⟩ := callResult?_eq_some.mp hr
    obtain ⟨-, rfl⟩ := call_inj ht hresult
    exact absurd hlistens Bool.false_ne_true
  | append_singleton past e ih =>
    cases hp : (w.afterWaiting id write past).callResult? id with
    | none => exact ⟨past, e, [], rfl, hp, hr⟩
    | some r =>
      have hkeeps : e ≠ .abandon id := by
        rintro rfl
        exact h.stays (by simp)
      have hstep := apply_cases (w.afterWaiting id write past) e
      rw [afterWaiting_concat, hstep.callResult?_of hp hkeeps, ← hp] at hr
      obtain ⟨more, e', rest, rfl, hended⟩ := ih h.of_append hr
      exact ⟨more, e', rest ++ [e], by simp, hended⟩

/-! ## A line in time -/

/-- So what the kernel has said by some moment of the waiting is a front of what it has said in the
end. -/
theorem lines_grow (hw : w.Orderly) {early : List Event} (hpre : early <+: wait) :
    (w.afterWriting id write).kernelLines (.poll id :: early) <+:
      (w.afterWriting id write).kernelLines (.poll id :: wait) := by
  obtain ⟨more, rfl⟩ := hpre
  have hv : (w.afterWriting id write).Orderly := hw.run _
  exact hv.kernelLines_grow (.poll id :: early) more

theorem now_grows (hw : w.Orderly) {early : List Event} (hpre : early <+: wait) :
    (w.afterWaiting id write early).wires.now ≤ (w.afterWaiting id write wait).wires.now := by
  obtain ⟨more, rfl⟩ := hpre
  have hv : (w.afterWaiting id write early).Orderly := (hw.run _).run _
  rw [afterWaiting_append]
  exact hv.now_run more

/-- The first of some things is the first of all that begins with them. -/
theorem head?_of_prefix {α : Type} {as bs : List α} {a : α} (h : as <+: bs)
    (ha : as.head? = some a) : bs.head? = some a := by
  obtain ⟨more, rfl⟩ := h
  rw [List.head?_append, ha]
  rfl

/-- A line that came in time is the first of all lines, also when more were heard later. -/
theorem InTime.head {early : List Event} (h : w.InTime id write early d) (hw : w.Orderly)
    (hpre : early <+: wait) :
    ((w.afterWriting id write).kernelLines (.poll id :: wait)).head? = some d :=
  head?_of_prefix (lines_grow hw hpre) h.first

/-- As long as a call has been sent no line, a line in time is still to come, and neither the
deadline nor a grace can have passed; and a kernel that has closed its output sends no line. -/
theorem InTime.open {early more : List Event} (h : w.InTime id write early d) (hw : w.Orderly)
    (hearly : early <+: wait) (hmore : more <+: wait)
    (hnone : (w.afterWriting id write).kernelLines (.poll id :: more) = []) :
    (w.afterWaiting id write more).wires.now <
        (w.afterWriting id write).wires.now + w.timing.responseTimeout ∧
      (∀ t, w.firstCapture (.poll id :: write ++ .poll id :: more) = some t →
        (w.afterWaiting id write more).wires.now < t + w.timing.stderrGrace) ∧
      (w.afterWaiting id write more).wires.output.writing = true := by
  rcases List.prefix_or_prefix_of_prefix hearly hmore with hbefore | hafter
  · -- the line had come already
    have hhead := h.head hw hbefore
    rw [hnone] at hhead
    exact absurd hhead.symm (Option.some_ne_none d)
  have hnow : (w.afterWaiting id write more).wires.now ≤
      (w.afterWaiting id write early).wires.now := now_grows hw hafter
  obtain ⟨later, rfl⟩ := hafter
  refine ⟨Nat.lt_of_le_of_lt hnow h.deadline, fun t ht => ?_, ?_⟩
  · have hfirst := firstCapture_append ht later
    rw [List.append_assoc] at hfirst
    exact Nat.lt_of_le_of_lt hnow (h.grace t hfirst)
  · by_contra hopen
    have hshut : ((w.afterWriting id write).run (.poll id :: more)).wires.output.writing = false :=
      Bool.eq_false_of_not_eq_true hopen
    have hv : (w.afterWriting id write).Orderly := hw.run _
    obtain ⟨hstill, hspoken⟩ := (hv.run (.poll id :: more)).shut_run hshut later
    -- nothing is said behind the end, so the lines are those of before
    have hsame : (w.afterWriting id write).kernelLines (.poll id :: (more ++ later)) =
        (w.afterWriting id write).kernelLines (.poll id :: more) := by
      unfold kernelLines
      rw [← List.cons_append, log_append, Log.spoken_append, run_append, hspoken, hstill, hshut,
        List.append_nil]
    have hfirst := h.first
    rw [hsame, hnone] at hfirst
    exact absurd hfirst.symm (Option.some_ne_none d)

/-- A call returns nothing but what it makes of a line in time. -/
theorem InTime.result {early : List Event} {result : Result} (h : w.InTime id write early d)
    (hw : w.Orderly) (hx : w.Exchange id write wait) (hearly : early <+: wait)
    (hgoing : (w.afterWaiting id write wait).cancelled = false)
    (hr : (w.afterWaiting id write wait).callResult? id = some result) : result = replyTo d := by
  obtain ⟨more, e, rest, rfl, hn, hended⟩ := hx.ended hr
  have hmore : more <+: more ++ e :: rest := List.prefix_append _ _
  -- of all the ways to end, a reply that came in time rules out every one but itself
  cases hx.of_append.outcome hw hn hended with
  | replied first =>
    have hboth := head?_of_prefix (lines_grow hw hmore) first
    rw [h.head hw hearly] at hboth
    rw [Option.some.inj hboth]
  | told told =>
    have hv : (w.afterWaiting id write more).Orderly := (hw.run _).run _
    rw [afterWaiting_append, cancelled_run hv told] at hgoing
    exact absurd hgoing.symm Bool.false_ne_true
  | reported text none captured passed =>
    have hlt := (h.open hw hearly hmore none).2.1 _ captured
    omega
  | overdue none passed =>
    have hlt := (h.open hw hearly hmore none).1
    omega
  | left text none shut =>
    rw [(h.open hw hearly hmore none).2.2] at shut
    exact absurd shut.symm Bool.false_ne_true

/-- A call that has been sent a line has what it makes of the first, as soon as it is polled often
enough. -/
theorem Exchange.replies (h : w.Exchange id write wait) (hw : w.Orderly)
    (hgoing : (w.afterWaiting id write wait).cancelled = false)
    (hn : (w.afterWaiting id write wait).callResult? id = none)
    (hd : ((w.afterWriting id write).kernelLines (.poll id :: wait)).head? = some d) :
    ∃ polls, ((w.afterWaiting id write wait).run (List.replicate polls (.poll id))).callResult? id =
      some (replyTo d) := by
  obtain ⟨hunanswered, line, stage, ht, hturn⟩ := h.unanswered hw hn
  have hlistens := hunanswered.stage ht
  have hlines := hunanswered.lines
  obtain ⟨ds, hds⟩ : ∃ ds, (w.afterWriting id write).kernelLines (.poll id :: wait) = d :: ds := by
    cases hk : (w.afterWriting id write).kernelLines (.poll id :: wait) with
    | nil =>
      rw [hk] at hd
      exact absurd hd.symm (Option.some_ne_none d)
    | cons x ds =>
      rw [hk] at hd
      exact ⟨ds, by rw [Option.some.inj hd]⟩
  rw [hds] at hlines
  cases stage with
  | awaiting deadline graceEnd =>
    -- polls pass over what is blank until the line is the next
    obtain ⟨n, hwaits, htook⟩ := reaches_line ht rfl hgoing hlines.symm
    have hv : (w.afterWaiting id write wait).Orderly := (hw.run _).run _
    refine ⟨n + 1, ?_⟩
    rw [List.replicate_succ', run_concat]
    exact (hv.run _).takes_reply hwaits htook
  | leaving endsAt =>
    obtain ⟨hshut, hheld, hbytes⟩ := hunanswered.left ht
    rw [hshut, hheld, hbytes] at hlines
    exact absurd hlines (List.cons_ne_nil d ds)
  | _ => exact absurd hlistens Bool.false_ne_true

/-! ## Every exchange -/

/-- A line in time wins over error output and over all delay, and error output is reported only
behind a whole grace. -/
structure Prompt (w : World) (id : Nat) (write wait : List Event) : Prop where
  /-- Unless the call has been told to stop, it returns nothing but what it makes of a line in
  time. -/
  result : ∀ early d result, early <+: wait → w.InTime id write early d →
    (w.afterWaiting id write wait).cancelled = false →
    (w.afterWaiting id write wait).callResult? id = some result → result = replyTo d
  /-- And it returns that, as soon as it is polled often enough. -/
  returns : ∀ early d, early <+: wait → w.InTime id write early d →
    (w.afterWaiting id write wait).cancelled = false →
    ∃ polls, ((w.afterWaiting id write wait).run (List.replicate polls (.poll id))).callResult? id =
      some (replyTo d)
  /-- It reports the error output of a kernel that has not closed its output only if no line has
  come, and a grace has passed since the first error output. -/
  reports : ∀ more e text, more ++ [e] <+: wait →
    (w.afterWaiting id write more).callResult? id = none →
    (w.afterWaiting id write (more ++ [e])).callResult? id = some (.error (.kernelStderr text)) →
    (w.afterWaiting id write more).wires.output.writing = true →
    (w.afterWriting id write).kernelLines (.poll id :: more) = [] ∧
      ∃ t, w.firstCapture (.poll id :: write ++ .poll id :: more) = some t ∧
        t + w.timing.stderrGrace ≤ (w.afterWaiting id write more).wires.now

/-- A call that reports error output while the kernel still writes was not answered, and error
output was captured one grace before. This is the case in which the grace has run out. -/
theorem Exchange.reports (h : w.Exchange id write wait) (hw : w.Orderly) {text : String}
    (hn : (w.afterWaiting id write wait).callResult? id = none)
    (hr : (w.afterWaiting id write (wait ++ [e])).callResult? id =
      some (.error (.kernelStderr text)))
    (hopen : (w.afterWaiting id write wait).wires.output.writing = true) :
    (w.afterWriting id write).kernelLines (.poll id :: wait) = [] ∧
      ∃ t, w.firstCapture (.poll id :: write ++ .poll id :: wait) = some t ∧
        t + w.timing.stderrGrace ≤ (w.afterWaiting id write wait).wires.now := by
  generalize hresult : Except.error (LinkError.kernelStderr text) = result at hr
  cases h.outcome hw hn hr with
  | replied first => exact absurd hresult.symm (replyTo_ne_kernelStderr _ text)
  | told told => exact LinkError.noConfusion (Except.error.inj hresult)
  | reported text none captured passed => exact ⟨none, _, captured, passed⟩
  | overdue none passed => exact LinkError.noConfusion (Except.error.inj hresult)
  | left text none shut =>
    rw [hopen] at shut
    exact absurd shut.symm Bool.false_ne_true

/-- In every run, whatever it was before, every call that writes all of its line and waits is
prompt. -/
theorem reply_wins (timing : Timing) (wires : Wires) (past : List Event) (id : Nat)
    (write wait : List Event)
    (h : ((World.new timing wires).run past).Exchange id write wait) :
    ((World.new timing wires).run past).Prompt id write wait := by
  have hw := (Orderly.new timing wires).run past
  refine ⟨?_, ?_, ?_⟩
  · intro early d result hearly hin hgoing hr
    exact hin.result hw h hearly hgoing hr
  · intro early d hearly hin hgoing
    cases hr : (((World.new timing wires).run past).afterWaiting id write wait).callResult? id with
    | none => exact h.replies hw hgoing hr (hin.head hw hearly)
    | some result =>
      refine ⟨0, ?_⟩
      rw [← hin.result hw h hearly hgoing hr]
      exact hr
  · intro more e text hmore hn hr hopen
    obtain ⟨rest, rfl⟩ := hmore
    exact h.of_append.of_append.reports hw hn hr hopen

/-! ## Two exchanges -/

/-- A stale wake-up is stored, there is error output and a blank line, and the reply comes in two
pieces, all within a grace. -/
def noise : List Event :=
  [.poll 0, .kernelReports [97], .capture, .capture, .poll 0, .kernelWrites [10], .poll 0, .poll 0,
    .pass 2, .kernelWrites [123], .poll 0, .kernelWrites [125, 10]]

/-- The wires of a new process, but for a wake-up that nobody has used up. -/
def staleWires : Wires := { Wires.new 0 9 with buffer := ⟨9, [], true⟩ }

/-- A call that is polled again only when the grace and the deadline have passed still returns its
reply. -/
theorem reply_wins_over_noise :
    ((World.new ⟨1, 5, 3, 1, 9⟩ staleWires).run [.call 0 [10]]).Exchange 0 [.poll 0]
      (noise ++ [.pass 9]) ∧
    ((World.new ⟨1, 5, 3, 1, 9⟩ staleWires).run [.call 0 [10]]).InTime 0 [.poll 0] noise
      (.line "{}") ∧
    ∃ polls, ((((World.new ⟨1, 5, 3, 1, 9⟩ staleWires).run [.call 0 [10]]).afterWaiting 0 [.poll 0]
      (noise ++ [.pass 9])).run (List.replicate polls (.poll 0))).callResult? 0 =
        some (replyTo (.line "{}")) := by
  have hexchange : ((World.new ⟨1, 5, 3, 1, 9⟩ staleWires).run [.call 0 [10]]).Exchange 0 [.poll 0]
      (noise ++ [.pass 9]) :=
    ⟨⟨[10], .queued, .writing [10], rfl, rfl, rfl, rfl⟩, ⟨[10], rfl⟩, by simp [noise]⟩
  have hin : ((World.new ⟨1, 5, 3, 1, 9⟩ staleWires).run [.call 0 [10]]).InTime 0 [.poll 0] noise
      (.line "{}") := by
    refine ⟨by decide +kernel, by decide +kernel, fun t ht => ?_⟩
    have hfirst : ((World.new ⟨1, 5, 3, 1, 9⟩ staleWires).run [.call 0 [10]]).firstCapture
        ([.poll 0, .poll 0, .poll 0] ++ noise) = some 0 := by decide +kernel
    obtain rfl := Option.some.inj (ht.symm.trans hfirst)
    decide +kernel
  have hprompt := reply_wins _ _ _ _ _ _ hexchange
  exact ⟨hexchange, hin, hprompt.returns noise _ (List.prefix_append _ _) hin (by decide +kernel)⟩

/-- A line in time that is no text, and so no document either. -/
def unreadableReply : List Event := [.kernelWrites [255, 10], .poll 0, .poll 0]

/-- Nothing but that line comes, and it comes in time, but the call does not say that it could not
be parsed: it returns the failure to read it. -/
theorem unreadable_line_wins :
    ((World.new ⟨1, 5, 3, 1, 9⟩ (.new 0 9)).run [.call 0 [10]]).Exchange 0 [.poll 0]
      unreadableReply ∧
    (∃ fault, ((World.new ⟨1, 5, 3, 1, 9⟩ (.new 0 9)).run [.call 0 [10]]).InTime 0 [.poll 0]
      [.kernelWrites [255, 10]] (.unreadable fault)) ∧
    (((World.new ⟨1, 5, 3, 1, 9⟩ (.new 0 9)).run [.call 0 [10]]).afterWaiting 0 [.poll 0]
      unreadableReply).cancelled = false ∧
    ∃ result, (((World.new ⟨1, 5, 3, 1, 9⟩ (.new 0 9)).run [.call 0 [10]]).afterWaiting 0 [.poll 0]
      unreadableReply).callResult? 0 = some result ∧ isReply result = false ∧
      ∀ reason, result ≠ .error (.poisoned reason) := by
  refine ⟨⟨⟨[10], .queued, .writing [10], rfl, rfl, rfl, rfl⟩, ⟨[10], rfl⟩,
    by simp [unreadableReply]⟩, ⟨_, rfl, by decide +kernel, fun t ht => nomatch ht⟩, rfl,
    _, rfl, rfl, fun reason => by simp⟩

end KernelLink.Session.World

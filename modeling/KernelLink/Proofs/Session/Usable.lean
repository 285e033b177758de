import KernelLink.Proofs.Session.Dead
/-!
# A conversation that can go on

As long as no closing has begun and the phase admits calls, a later call can still succeed, if the
kernel takes requests, can answer them, and has written nothing that was not read: the others go
away, the call takes its turn, the kernel makes up for the late reply if one is outstanding, takes
the line and answers.

Main definitions:
* `World.Attentive`: the kernel takes requests, can answer, and owes no reading.
* `World.alone`: a call that is the only task, in its turn.

Main results:
* `World.awaiting_succeeds`, `World.writing_succeeds`, `World.discarding_succeeds`: such a call can
  succeed from each of these stages.
* `World.usable`: a later call can still succeed.
-/
namespace KernelLink.Session.World

open Host (Pipe)

variable {w : World} {id : Nat} {line : List UInt8} {stage : Stage}

/-- The kernel takes requests, can answer them, and has written nothing that was not read. -/
structure Attentive (w : World) : Prop where
  /-- The kernel reads its input. -/
  reading : w.wires.input.reading = true
  /-- The kernel can write to its output. -/
  writing : w.wires.output.writing = true
  /-- Nothing was taken over that was not used. -/
  held : w.wires.output.held = []
  /-- Nothing was written that was not taken over. -/
  bytes : w.wires.output.bytes = []

/-- A line that the kernel may answer with. -/
def plainReply : List UInt8 := Text.Utf8.bytes "null\n"

/-- It is read as the empty value, so any call that takes it succeeds. -/
theorem plainReply_reads :
    Pipe.deliver (Pipe.withoutEnd plainReply) = .line "null" ∧
      Text.isBlankText "null" = false ∧ Envelope.decodeLine "null" = .ok (.bare .null) := by
  decide +kernel

/-! ## A call on its own -/

/-- A call is the only task, and in its turn. -/
def alone (w : World) (id : Nat) (line : List UInt8) (stage : Stage) : World :=
  { w with holder := some id, queue := [], tasks := [(id, .call line stage)] }

theorem task?_alone (w : World) (id : Nat) (line : List UInt8) (stage : Stage) :
    (w.alone id line stage).task? id = some (.call line stage) := by
  simp [task?, alone]

theorem poll_alone (w : World) (id : Nat) (line : List UInt8) (stage : Stage) :
    (w.alone id line stage).poll id = (w.alone id line stage).pollCall id line stage :=
  poll_eq (task?_alone w id line stage)

/-- The only task going on is the only task in its next stage. -/
theorem goOn_alone (w : World) (id : Nat) (line : List UInt8) (stage after : Stage) :
    (w.alone id line stage).goOn id line after = w.alone id line after := by
  simp [alone, goOn, setTask]

theorem callResult?_finish_alone (w : World) (id : Nat) (line : List UInt8) (stage : Stage)
    (result : Result) :
    ((w.alone id line stage).finish id line result).callResult? id = some result := by
  refine callResult?_eq_some.mpr ⟨line, ?_⟩
  unfold finish
  rw [goOn_alone]
  exact task?_alone w id line _

/-! ## The kernel's reply -/

/-- A written reply is taken over in one piece, since the pipe was empty. -/
theorem fill_reply {p : Pipe} (hheld : p.held = []) (hbytes : p.bytes = [])
    (hwriting : p.writing = true) :
    (p.put plainReply).nextLine? = none ∧
      (p.put plainReply).fill? = some { p with held := plainReply } := by
  obtain ⟨bytes, held, writing, reading⟩ := p
  obtain rfl : held = [] := hheld
  obtain rfl : bytes = [] := hbytes
  obtain rfl : writing = true := hwriting
  exact ⟨rfl, rfl⟩

/-- Then it is read, and the pipe is empty again. -/
theorem read_reply {p : Pipe} (hheld : p.held = []) :
    ({ p with held := plainReply } : Pipe).nextLine? = some (.line "null", p) := by
  obtain ⟨bytes, held, writing, reading⟩ := p
  obtain rfl : held = [] := hheld
  show some (Pipe.deliver (Pipe.withoutEnd plainReply), _) = _
  rw [plainReply_reads.1]
  rfl

/-- The kernel writes a reply, and a call that waits takes it over. -/
theorem alone_fills (ha : w.Attentive) (hgoing : w.cancelled = false)
    (hwaits : stage.waits = true) :
    (w.alone id line stage).run [.kernelWrites plainReply, .poll id] =
      (w.withOutput { w.wires.output with held := plainReply }).alone id line stage := by
  obtain ⟨hnone, hfill⟩ := fill_reply ha.held ha.bytes ha.writing
  have hwrites : (w.alone id line stage).apply (.kernelWrites plainReply) =
      (w.withOutput (w.wires.output.put plainReply)).alone id line stage := by
    have hwriting : (w.alone id line stage).wires.output.writing = true := ha.writing
    simp only [apply, onWires, hwriting, if_true]
    rfl
  have hpoll : ((w.withOutput (w.wires.output.put plainReply)).alone id line stage).poll id =
      some ((w.withOutput { w.wires.output with held := plainReply }).alone id line stage) := by
    rw [poll_alone]
    exact pollCall_fill hwaits hgoing hnone hfill
  show ((w.alone id line stage).apply (.kernelWrites plainReply)).apply (.poll id) = _
  rw [hwrites, apply_poll hpoll]

/-! ## From each stage to the result -/

/-- The call may still succeed. -/
def MaySucceed (w : World) (id : Nat) : Prop :=
  ∃ more payload, (w.run more).callResult? id = some (.ok payload)

theorem MaySucceed.of_run {events : List Event} (h : (w.run events).MaySucceed id) :
    w.MaySucceed id := by
  obtain ⟨more, payload, hr⟩ := h
  rw [← run_append] at hr
  exact ⟨events ++ more, payload, hr⟩

/-- A call that waits for its reply gets one: the kernel writes it, one poll reads the line and the
next gives the result. -/
theorem awaiting_succeeds {deadline : Nat} {graceEnd : Option Nat} (ha : w.Attentive)
    (hgoing : w.cancelled = false) :
    (w.alone id line (.awaiting deadline graceEnd)).MaySucceed id := by
  refine ⟨[.kernelWrites plainReply, .poll id, .poll id], .null, ?_⟩
  -- the kernel says a plain reply, which makes a whole line at once
  have hread := read_reply (p := w.wires.output) ha.held
  obtain ⟨-, hinked, hdecoded⟩ := plainReply_reads
  show (((w.alone id line (.awaiting deadline graceEnd)).run
    [.kernelWrites plainReply, .poll id]).apply (.poll id)).callResult? id = _
  rw [alone_fills ha hgoing rfl]
  generalize hv : w.withOutput { w.wires.output with held := plainReply } = v
  have hpoll : (v.alone id line (.awaiting deadline graceEnd)).poll id =
      some (((v.withOutput w.wires.output).alone id line (.awaiting deadline graceEnd)).finish id
        line (.ok .null)) := by
    have hgoing' : (v.alone id line (.awaiting deadline graceEnd)).cancelled = false := by
      rw [← hv]
      exact hgoing
    have hread' : (v.alone id line (.awaiting deadline graceEnd)).wires.output.nextLine? =
        some (.line "null", w.wires.output) := by
      rw [← hv]
      exact hread
    rw [poll_alone]
    simp only [pollCall, pollAwaiting, hgoing', hread', hinked, accept, hdecoded,
      Bool.false_eq_true, if_false]
    rfl
  rw [apply_poll hpoll]
  exact callResult?_finish_alone _ id line _ _

/-- With other bytes in the kernel's input. -/
def withInput (w : World) (bytes : List UInt8) : World :=
  { w with wires := { w.wires with input := { w.wires.input with bytes := bytes } } }

/-- Where the pipe to the kernel is empty and holds the request, it is written in one piece. -/
theorem pollWriting_fits (hempty : w.wires.input.bytes = [])
    (hopen : (w.wires.input.writing && w.wires.input.reading) = true) (hline : line ≠ [])
    (hsize : line.length ≤ w.wires.input.capacity) :
    w.pollWriting id line line = some ((w.withInput line).goOn id line (.writing [])) := by
  have hroom : w.wires.input.room = w.wires.input.capacity := Pipe.room_of_empty hempty
  have hinked : line.isEmpty = false := by simpa using hline
  have hput : w.wires.input.put line = { w.wires.input with bytes := line } := by
    unfold Pipe.put
    rw [hempty]
    rfl
  simp only [pollWriting, hinked, hroom, Bool.false_eq_true, if_false]
  rw [if_neg (not_not_intro hopen), if_neg (Nat.ne_of_gt w.wires.input.capacity_pos),
    List.take_of_length_le hsize,
    List.drop_of_length_le hsize, hput]
  rfl

/-- A call whose line fits into the empty pipe writes it, when the kernel has taken the rest. -/
theorem writing_succeeds (ha : w.Attentive) (hgoing : w.cancelled = false)
    (hinput : w.wires.input.writing = true) (hline : line ≠ [])
    (hsize : line.length ≤ w.wires.input.capacity) :
    (w.alone id line (.writing line)).MaySucceed id := by
  -- the kernel takes all that is in the pipe, so there is room for the line at once
  have htakes : (w.alone id line (.writing line)).apply
      (.kernelTakes w.wires.input.bytes.length) =
      (w.withInput []).alone id line (.writing line) := by
    have hdrop : (w.alone id line (.writing line)).wires.input.bytes.drop
        w.wires.input.bytes.length = [] := List.drop_length
    simp only [apply, onWires, hdrop]
    rfl
  have hputs : ((w.withInput []).alone id line (.writing line)).poll id =
      some ((w.withInput line).alone id line (.writing [])) := by
    have hopen : (((w.withInput []).alone id line (.writing line)).wires.input.writing &&
        ((w.withInput []).alone id line (.writing line)).wires.input.reading) = true := by
      show (w.wires.input.writing && w.wires.input.reading) = true
      rw [hinput, ha.reading]
      rfl
    rw [poll_alone, pollCall, pollWriting_fits rfl hopen hline hsize]
    exact congrArg some (goOn_alone (w.withInput line) id line _ _)
  have hwaits : ((w.withInput line).alone id line (.writing [])).poll id =
      some ((w.withInput line).alone id line
        (.awaiting (w.wires.now + w.timing.responseTimeout) none)) := by
    rw [poll_alone]
    exact congrArg some (goOn_alone _ id line _ _)
  have hlater : ((w.alone id line (.writing line)).run
      [.kernelTakes w.wires.input.bytes.length, .poll id, .poll id]).MaySucceed id := by
    show ((((w.alone id line (.writing line)).apply _).apply (.poll id)).apply
      (.poll id)).MaySucceed id
    rw [htakes, apply_poll hputs, apply_poll hwaits]
    exact awaiting_succeeds ⟨ha.reading, ha.writing, ha.held, ha.bytes⟩ hgoing
  exact hlater.of_run

/-- The conversation after a late reply was passed over. -/
def realigned (w : World) : World := { w with phase := .ready, wires := w.wires.clearErrors }

/-- A call that waits for a late reply passes over it, and then writes. -/
theorem discarding_succeeds {deadline : Nat} (ha : w.Attentive) (hgoing : w.cancelled = false)
    (hinput : w.wires.input.writing = true) (hline : line ≠ [])
    (hsize : line.length ≤ w.wires.input.capacity) :
    (w.alone id line (.discarding deadline)).MaySucceed id := by
  obtain ⟨-, hinked, -⟩ := plainReply_reads
  have hfills : (w.alone id line (.discarding deadline)).run
      [.kernelWrites plainReply, .poll id] =
      (w.withOutput { w.wires.output with held := plainReply }).alone id line
        (.discarding deadline) := alone_fills ha hgoing rfl
  have hdiscards : ((w.withOutput { w.wires.output with held := plainReply }).alone id line
      (.discarding deadline)).poll id = some (w.realigned.alone id line (.writing line)) := by
    have hgoing' : ((w.withOutput { w.wires.output with held := plainReply }).alone id line
        (.discarding deadline)).cancelled = false := hgoing
    have hread : ((w.withOutput { w.wires.output with held := plainReply }).alone id line
        (.discarding deadline)).wires.output.nextLine? = some (.line "null", w.wires.output) :=
      read_reply ha.held
    rw [poll_alone]
    simp only [pollCall, pollDiscarding, hgoing', hread, hinked, Bool.false_eq_true, if_false]
    exact congrArg some (goOn_alone w.realigned id line _ _)
  have hlater : ((w.alone id line (.discarding deadline)).run
      [.kernelWrites plainReply, .poll id, .poll id]).MaySucceed id := by
    show (((w.alone id line (.discarding deadline)).run
      [.kernelWrites plainReply, .poll id]).apply (.poll id)).MaySucceed id
    rw [hfills, apply_poll hdiscards]
    exact writing_succeeds (w := w.realigned) ⟨ha.reading, ha.writing, ha.held, ha.bytes⟩ hgoing
      hinput hline hsize
  exact hlater.of_run

/-! ## A later call -/

/-- When nobody else is there, a call that begins may still succeed. -/
theorem begins_succeeds (ha : w.Attentive) (hopen : w.closed = false) (hgoing : w.cancelled = false)
    (hp : w.phase.refusal = none) (hinput : w.wires.input.writing = true) (htasks : w.tasks = [])
    (hqueue : w.queue = []) (hholder : w.holder = none) (id : Nat) (hline : line ≠ [])
    (hsize : line.length ≤ w.wires.input.capacity) :
    (w.apply (.call id line)).MaySucceed id := by
  -- with no other task there is nobody to wait for: the first poll has the turn
  have hbegins : w.apply (.call id line) =
      { w with queue := [id], tasks := [(id, .call line .queued)] } := by
    simp [apply, task?, htasks, beginCall, hopen, addTask, hqueue]
  have hpoll : (w.apply (.call id line)).poll id =
      some ((w.apply (.call id line)).enter id line) := by
    rw [hbegins]
    simp [poll, task?, pollCall, isNext, hholder]
  have hacquires : (w.apply (.call id line)).acquire id = w.alone id line .queued := by
    rw [hbegins]
    simp [acquire, alone]
  have hlater : ((w.apply (.call id line)).run [.poll id]).MaySucceed id := by
    show ((w.apply (.call id line)).apply (.poll id)).MaySucceed id
    rw [apply_poll hpoll, enter, hacquires]
    cases hphase : w.phase with
    | poisoned why | exited =>
      rw [hphase] at hp
      cases hp
    | ready =>
      have hphase' : (w.alone id line .queued).phase = .ready := hphase
      have hwrites : (w.alone id line .queued).beginWriting id line =
          { w with wires := w.wires.clearErrors }.alone id line (.writing line) :=
        goOn_alone { w with wires := w.wires.clearErrors } id line _ _
      simp only [hphase', hwrites]
      exact writing_succeeds (w := { w with wires := w.wires.clearErrors })
        ⟨ha.reading, ha.writing, ha.held, ha.bytes⟩ hgoing hinput hline hsize
    | replyOutstanding =>
      have hphase' : (w.alone id line .queued).phase = .replyOutstanding := hphase
      simp only [hphase', goOn_alone]
      exact discarding_succeeds ha hgoing hinput hline hsize
  exact hlater.of_run

/-- When callers go away, the rest of the conversation stays as it is. -/
theorem abandon_all (w : World) (ids : List Nat) :
    let v := w.run (ids.map .abandon)
    v.wires = w.wires ∧ v.phase = w.phase ∧ v.closed = w.closed ∧
      v.tasks = w.tasks.filter fun t => t.1 ∉ ids := by
  induction ids generalizing w with
  | nil => exact ⟨rfl, rfl, rfl, (List.filter_eq_self.mpr fun _ _ => rfl).symm⟩
  | cons id ids ih =>
    obtain ⟨hwires, hphase, hclosed, htasks⟩ := ih (w.abandon id)
    refine ⟨hwires, hphase, hclosed, ?_⟩
    show ((w.abandon id).run (ids.map .abandon)).tasks = _
    rw [htasks]
    simp [abandon, List.filter_filter, Bool.and_comm]

/-- As long as a conversation has not ended, a later call may still succeed, if the kernel answers:
whatever its line is, as long as it fits into the pipe. -/
theorem usable (hw : w.Orderly) (ht : w.Tidy) (hd : ¬ w.Dead) (ha : w.Attentive)
    (hline : line ≠ []) (hsize : line.length ≤ w.wires.input.capacity) (id : Nat) :
    ∃ past, (w.run past).task? id = none ∧
      ((w.run past).apply (.call id line)).MaySucceed id := by
  have hopen : w.closed = false := by
    by_contra hc
    exact hd (.inl (by simpa using hc))
  have hp : w.phase.refusal = none := by
    by_contra hp
    exact hd (.inr (Option.ne_none_iff_exists'.mp hp))
  -- all others go away, so nobody is in the queue or in its turn
  obtain ⟨hwires, hphase, hclosed, htasks⟩ := w.abandon_all (w.tasks.map (·.1))
  refine ⟨(w.tasks.map (·.1)).map .abandon, ?_⟩
  have hw' := hw.run ((w.tasks.map (·.1)).map .abandon)
  have ht' := ht.run hw ((w.tasks.map (·.1)).map .abandon)
  generalize w.run ((w.tasks.map (·.1)).map .abandon) = v at *
  have hempty : v.tasks = [] := by
    rw [htasks, List.filter_eq_nil_iff]
    intro t hmem
    simpa using ⟨t.2, hmem⟩
  have hnone : ∀ i, v.task? i = none := fun i => by simp [task?, hempty]
  have hqueue : v.queue = [] := by
    refine List.eq_nil_iff_forall_not_mem.mpr fun i hi => ?_
    obtain ⟨t, htask, -⟩ := (ht'.queue i).mp hi
    rw [hnone] at htask
    cases htask
  have hholder : v.holder = none := by
    cases hh : v.holder with
    | none => rfl
    | some i =>
      obtain ⟨l, stage, htask, -⟩ := hw'.held hh
      rw [hnone] at htask
      cases htask
  have hinput : v.wires.input.writing = true := by
    by_contra hshut
    rw [Bool.not_eq_true, ht'.input, hphase] at hshut
    rw [hshut] at hp
    cases hp
  have ha' : v.Attentive := by
    refine ⟨?_, ?_, ?_, ?_⟩
    · rw [hwires]
      exact ha.reading
    · rw [hwires]
      exact ha.writing
    · rw [hwires]
      exact ha.held
    · rw [hwires]
      exact ha.bytes
  rw [hopen] at hclosed
  rw [← hphase] at hp
  rw [← hwires] at hsize
  exact ⟨hnone id, begins_succeeds ha' hclosed (ht'.going hclosed) hp hinput hempty hqueue hholder
    id hline hsize⟩

end KernelLink.Session.World

import KernelLink.Proofs.Session.Refusing
/-!
# Who waits, and what closing has touched

The queue holds exactly the tasks that wait for their turn; as long as no closing has begun, there
is no closing at all and nobody has been told to stop; and the kernel's input has ended exactly when
the conversation has. All of this holds after every event.

Main definitions:
* `Task.waitsForTurn`: the tasks that wait for their turn.
* `World.Tidy`: the invariant.

Main results:
* `World.Tidy.step`, `World.Tidy.run`: every event keeps it.
-/
namespace KernelLink.Session

/-- Does the task wait for its turn? -/
def Task.waitsForTurn : Task → Bool
  | .call _ .queued | .close .queued => true
  | _ => false

/-- A call waits for its turn only as long as it is queued. -/
theorem Task.waitsForTurn_call {line : List UInt8} {stage : Stage} (h : stage ≠ .queued) :
    (Task.call line stage).waitsForTurn = false := by
  cases stage with
  | queued => exact absurd rfl h
  | _ => rfl

theorem Task.queued_of_waits {line : List UInt8} {stage : Stage}
    (h : (Task.call line stage).waitsForTurn = true) : stage = .queued := by
  by_contra hne
  rw [Task.waitsForTurn_call hne] at h
  exact Bool.false_ne_true h

namespace World

variable {w w' : World} {id : Nat} {line : List UInt8} {before after : Stage} {deeds : List Deed}

/-- What the queue, the closings and the kernel's input have to do with the tasks and the phase. -/
structure Tidy (w : World) : Prop where
  /-- The queue holds the tasks that wait for their turn. -/
  queue : ∀ i, i ∈ w.queue ↔ ∃ t, w.task? i = some t ∧ t.waitsForTurn = true
  /-- Without a closing nobody has been told to stop. -/
  going : w.closed = false → w.cancelled = false
  /-- Without a closing that has begun there is none. -/
  closings : w.closed = false → ∀ i stage, w.task? i ≠ some (.close stage)
  /-- The kernel's input has ended if the conversation has. -/
  input : w.wires.input.writing = false ↔ w.phase = .exited

theorem Tidy.new (timing : Timing) {wires : Wires} (h : wires.input.writing = true) :
    (World.new timing wires).Tidy where
  queue i := by simp [World.new, task?]
  going _ := rfl
  closings _ i stage := by simp [World.new, task?]
  input := by simp [World.new, h]

/-- What leaves the tasks, the queue and the closings alone, and the kernel's input and the phase in
step. -/
theorem Tidy.of_same (h : w.Tidy) (htasks : w'.tasks = w.tasks) (hqueue : w'.queue = w.queue)
    (hclosed : w'.closed = w.closed) (hcancelled : w'.cancelled = w.cancelled)
    (hinput : w'.wires.input.writing = false ↔ w'.phase = .exited) : w'.Tidy := by
  have hsame : ∀ i, w'.task? i = w.task? i := fun i => by rw [task?, task?, htasks]
  refine ⟨fun i => ?_, fun hc => ?_, fun hc i stage => ?_, hinput⟩
  · rw [hqueue, hsame]
    exact h.queue i
  · rw [hclosed] at hc
    rw [hcancelled]
    exact h.going hc
  · rw [hclosed] at hc
    rw [hsame]
    exact h.closings hc i stage

/-- One task begins, goes on or goes away, and only it gets into the queue or out of it. -/
theorem Tidy.of_task (h : w.Tidy) (id : Nat) (t : Option Task)
    (htask : ∀ i, w'.task? i = if i = id then t else w.task? i)
    (hothers : ∀ i, i ≠ id → (i ∈ w'.queue ↔ i ∈ w.queue))
    (hself : id ∈ w'.queue ↔ ∃ u, t = some u ∧ u.waitsForTurn = true)
    (hgoing : w'.closed = false →
      w.closed = false ∧ w'.cancelled = w.cancelled ∧ ∀ stage, t ≠ some (.close stage))
    (hinput : w'.wires.input.writing = false ↔ w'.phase = .exited) : w'.Tidy := by
  refine ⟨fun i => ?_, fun hc => ?_, fun hc i stage => ?_, hinput⟩
  · rw [htask]
    by_cases hi : i = id
    · rw [if_pos hi, hi]
      exact hself
    · rw [if_neg hi, hothers i hi]
      exact h.queue i
  · obtain ⟨hc, hcancelled, -⟩ := hgoing hc
    rw [hcancelled]
    exact h.going hc
  · obtain ⟨hc, -, ht⟩ := hgoing hc
    rw [htask]
    by_cases hi : i = id
    · rw [if_pos hi]
      exact ht stage
    · rw [if_neg hi]
      exact h.closings hc i stage

/-! ## The polls of a call -/

/-- A poll takes a queued call out of the queue and leaves the rest of the queue alone. -/
theorem CallStep.queue (h : CallStep w id line before after w' deeds) :
    w'.queue = w.queue.filter (· ≠ id) ∨ w'.queue = w.queue ∧ before ≠ .queued := by
  cases h with
  | enterReady | enterLate => exact .inl rfl
  | enterRefused =>
    refine .inl ?_
    show (w.queue.filter (· ≠ id)).filter (· ≠ id) = _
    rw [List.filter_filter]
    congr 1
    funext i
    exact Bool.and_self _
  | cancel | fail | missing | reply | garbled | report | overdue | leave => exact .inl rfl
  | skip waits | gone waits | fill waits =>
    refine .inr ⟨rfl, ?_⟩
    rintro rfl
    exact Bool.false_ne_true waits
  | _ => exact .inr ⟨rfl, by simp⟩

theorem CallStep.not_queued (h : CallStep w id line before after w' deeds) : after ≠ .queued := by
  rintro rfl
  cases h with
  | skip waits | fill waits => exact Bool.false_ne_true waits

/-- The kernel's input ends with the conversation, and not before: a call shuts it where it finds
the kernel gone and nowhere else. -/
theorem CallStep.input (h : CallStep w id line before after w' deeds) (hfit : before.Fits w.phase)
    (hin : w.wires.input.writing = false ↔ w.phase = .exited) :
    w'.wires.input.writing = false ↔ w'.phase = .exited := by
  -- in a stage of its turn, but for the last, a call has an input to write to
  have hopen : before.waits = true ∨ before.sends = true → ¬ w.wires.input.writing = false := by
    intro hb hshut
    have hp := Stage.refusal_of_fits hfit hb
    rw [hin.mp hshut] at hp
    exact absurd hp (by simp [Phase.refusal])
  cases h with
  | cancel waits | fail waits => exact iff_of_false (hopen (.inl waits)) (by simp [World.cancel,
      World.streamFailed, finish, release, goOn, setTask, poison])
  | gone | broken => exact iff_of_true rfl rfl
  | discard => exact iff_of_false (hopen (.inl rfl)) (by simp [beginWriting, goOn, setTask])
  | missing | garbled | overdue =>
    exact iff_of_false (hopen (.inl rfl)) (by simp [finish, release, goOn, setTask, poison])
  | report => exact iff_of_false (hopen (.inl rfl)) (by simp [finish, release, goOn, setTask])
  | _ => exact hin

/-- A call that gets further leaves the queue if it was in it, and closings where they are. -/
theorem Tidy.call (h : w.Tidy) (hw : w.Orderly) (ht : w.task? id = some (.call line before))
    (step : CallStep w id line before after w' deeds) : w'.Tidy := by
  obtain ⟨hclosed, hcancelled⟩ := step.closed
  -- a call that is polled to some effect is in the queue no more
  have hout : id ∉ w'.queue := by
    rcases step.queue with hq | ⟨hq, hb⟩
    · rw [hq]
      simp
    · rw [hq, h.queue]
      rintro ⟨t, hs, hwaits⟩
      rw [ht, Option.some.injEq] at hs
      rw [← hs, Task.waitsForTurn_call hb] at hwaits
      exact Bool.false_ne_true hwaits
  -- what remains: the other tasks, the rest of the queue, the call itself, and an open link
  refine h.of_task id (some (.call line after)) (fun i => ?_) (fun i hi => ?_) ?_ (fun hc => ?_)
    (step.input (hw.fits ht) h.input)
  · by_cases hi : i = id
    · rw [if_pos hi, hi]
      exact step.self ht
    · rw [if_neg hi]
      exact step.others hi
  · rcases step.queue with hq | ⟨hq, -⟩
    · rw [hq]
      simp [hi]
    · rw [hq]
  · refine iff_of_false hout ?_
    rintro ⟨u, hu, hwaits⟩
    rw [Option.some.injEq] at hu
    rw [← hu, Task.waitsForTurn_call step.not_queued] at hwaits
    exact Bool.false_ne_true hwaits
  · rw [hclosed] at hc
    exact ⟨hc, hcancelled, by simp⟩

/-! ## Closings -/

/-- A closing that goes on shows that one has begun, for the mark is set when the first begins and
never taken back. -/
theorem Tidy.closed (h : w.Tidy) {stage : CloseStage} (ht : w.task? id = some (.close stage)) :
    w.closed = true := by
  by_contra hc
  rw [Bool.not_eq_true] at hc
  exact h.closings hc id stage ht

/-- A closing goes on: only the queue may change, and only for it. -/
theorem Tidy.closing (h : w.Tidy) {stage : CloseStage} (stage' : CloseStage)
    (ht : w.task? id = some (.close stage))
    (htask : w'.tasks = (w.setTask id (.close stage')).tasks) (hclosed : w'.closed = w.closed)
    (hothers : ∀ i, i ≠ id → (i ∈ w'.queue ↔ i ∈ w.queue))
    (hself : id ∈ w'.queue ↔ (Task.close stage').waitsForTurn = true)
    (hinput : w'.wires.input.writing = false ↔ w'.phase = .exited) : w'.Tidy := by
  refine h.of_task id (some (.close stage')) (fun i => ?_) hothers ?_ (fun hc => ?_) hinput
  · have hset : w'.task? i = (w.setTask id (.close stage')).task? i := by rw [task?, task?, htask]
    rw [hset, task?_setTask]
    by_cases hi : i = id
    · rw [if_pos hi, if_pos hi, hi, ht]
      rfl
    · rw [if_neg hi, if_neg hi]
  · rw [hself]
    simp
  · rw [hclosed, h.closed ht] at hc
    exact absurd hc.symm Bool.false_ne_true

/-- A closing that is not in the queue goes on out of it. -/
theorem Tidy.closing_out (h : w.Tidy) {stage : CloseStage} (stage' : CloseStage)
    (ht : w.task? id = some (.close stage)) (hs : (Task.close stage).waitsForTurn = false)
    (hs' : (Task.close stage').waitsForTurn = false)
    (htask : w'.tasks = (w.setTask id (.close stage')).tasks) (hclosed : w'.closed = w.closed)
    (hqueue : w'.queue = w.queue)
    (hinput : w'.wires.input.writing = false ↔ w'.phase = .exited) : w'.Tidy := by
  refine h.closing stage' ht htask hclosed (fun i _ => by rw [hqueue]) ?_ hinput
  rw [hqueue, h.queue]
  refine iff_of_false ?_ (by simp [hs'])
  rintro ⟨u, hu, hwaits⟩
  rw [ht, Option.some.injEq] at hu
  rw [← hu, hs] at hwaits
  exact Bool.false_ne_true hwaits

/-- A closing that is polled tells everybody, takes its turn or has ended; each of these keeps the
queue and what is known of closings. -/
theorem Tidy.pollClose (h : w.Tidy) {stage stage' : CloseStage}
    (ht : w.task? id = some (.close stage)) (step : CloseStep w id stage stage' w') : w'.Tidy := by
  cases step with
  | tell =>
    exact h.closing .queued ht rfl rfl (fun i hi => by simp [setTask, hi])
      (by simp [setTask, Task.waitsForTurn]) h.input
  | exit next =>
    exact h.closing .taking ht rfl rfl (fun i hi => by simp [release, setTask, World.exit, hi])
      (by simp [release, Task.waitsForTurn]) (iff_of_true rfl rfl)
  | take | without | finish => exact h.closing_out _ ht rfl rfl rfl rfl rfl h.input

/-! ## Every event -/

/-- What changes only the wires, and does not end the kernel's input. -/
theorem Tidy.onWires (h : w.Tidy) (f : Wires → Wires)
    (hf : (f w.wires).input.writing = w.wires.input.writing) : (w.onWires f).Tidy := by
  refine h.of_same rfl rfl rfl rfl ?_
  show (f w.wires).input.writing = false ↔ _
  rw [hf]
  exact h.input

/-- A new call queues up, unless the link is closed; then it has ended at once. -/
theorem Tidy.beginCall (h : w.Tidy) (fresh : w.task? id = none) (line : List UInt8) :
    (w.beginCall id line).Tidy := by
  unfold World.beginCall
  by_cases hc : w.closed = true
  · rw [if_pos hc]
    refine h.of_task id _ (fun i => task?_addTask w id i _ fresh) (fun i _ => Iff.rfl) ?_
      (fun hg => absurd hc (by simpa [addTask] using hg)) h.input
    show id ∈ w.queue ↔ _
    rw [h.queue, fresh]
    simp [Task.waitsForTurn]
  · rw [if_neg hc]
    refine h.of_task id _ (fun i => task?_enqueue w id i _ fresh) (fun i hi => ?_) ?_
      (fun hg => ⟨hg, rfl, by simp⟩) h.input
    · simp [addTask, hi]
    · simp [addTask, Task.waitsForTurn]

theorem Tidy.beginClose (h : w.Tidy) (fresh : w.task? id = none) : (w.beginClose id).Tidy := by
  have hnot : id ∉ w.queue := by
    rw [h.queue, fresh]
    simp
  unfold World.beginClose
  by_cases hc : w.closed = true
  · rw [if_pos hc]
    refine h.of_task id _ (fun i => task?_addTask w id i _ fresh) (fun i _ => Iff.rfl) ?_
      (fun hg => absurd hc (by simpa [addTask] using hg)) h.input
    exact iff_of_false hnot (by simp [Task.waitsForTurn])
  · rw [if_neg hc]
    refine h.of_task id _ (fun i => task?_addTask { w with closed := true } id i _ fresh)
      (fun i _ => Iff.rfl) ?_ (fun hg => absurd hg (by simp [addTask])) h.input
    exact iff_of_false hnot (by simp [Task.waitsForTurn])

theorem Tidy.poll (h : w.Tidy) (hw : w.Orderly) (hp : w.poll id = some w') : w'.Tidy := by
  cases poll_polled hp with
  | call task step => exact h.call hw task step
  | close task step => exact h.pollClose task step

/-- A call that gives up waiting for its turn, since the link is closed, leaves the queue. -/
theorem Tidy.giveUp (h : w.Tidy) (hp : w.giveUp id = some w') : w'.Tidy := by
  unfold World.giveUp at hp
  split at hp
  · next line ht =>
    by_cases hc : w.cancelled = true
    · rw [if_pos hc, Option.some.injEq] at hp
      subst hp
      refine h.of_task id _ (task?_finish ht _) (fun i hi => ?_) ?_ (fun hg => ?_) h.input
      · simp [finish, release, goOn, setTask, hi]
      · simp [finish, release, Task.waitsForTurn]
      · exact ⟨hg, rfl, by simp⟩
    · rw [if_neg hc] at hp
      exact absurd hp (by simp)
  · exact absurd hp (by simp)

theorem Tidy.abandon (h : w.Tidy) (id : Nat) : (w.abandon id).Tidy := by
  refine h.of_task id none (task?_abandon w id) (fun i hi => ?_) ?_ (fun hg => ?_) h.input
  · simp [World.abandon, release, hi]
  · simp [World.abandon, release]
  · exact ⟨hg, rfl, by simp⟩

/-- An answer is for a closing in its turn, which is not in the queue. -/
theorem Tidy.answer (h : w.Tidy) {exchange : Plan.Exchange Control.Command.Answer}
    (hp : w.answer id exchange = some w') : w'.Tidy := by
  unfold World.answer at hp
  split at hp
  · next c next ht =>
    by_cases he : exchange.command = c
    · rw [dif_pos he, Option.some.injEq] at hp
      subst hp
      exact h.closing_out (.stopping _) ht rfl rfl rfl rfl rfl h.input
    · rw [dif_neg he] at hp
      exact absurd hp (by simp)
  · exact absurd hp (by simp)

/-- Every event keeps it, whatever its kind; only those of a closing and of the kernel's process
have something to show. -/
theorem Tidy.step (h : w.Tidy) (hw : w.Orderly) (e : Event) : (w.apply e).Tidy := by
  cases e with
  | pass ms => exact h.onWires (fun v => { v with now := v.now + ms }) rfl
  | kernelWrites bytes =>
    refine h.onWires
      (fun v => if v.output.writing then { v with output := v.output.put bytes } else v) ?_
    split <;> rfl
  | kernelReports bytes =>
    refine h.onWires
      (fun v => if v.errors.writing then { v with errors := v.errors.put bytes } else v) ?_
    split <;> rfl
  | kernelTakes count =>
    exact h.onWires
      (fun v => { v with input := { v.input with bytes := v.input.bytes.drop count } }) rfl
  | kernelClosesInput => exact h.onWires (fun v => { v with input := v.input.closeReading }) rfl
  | kernelClosesOutput => exact h.onWires (fun v => { v with output := v.output.closeWriting }) rfl
  | kernelClosesErrors => exact h.onWires (fun v => { v with errors := v.errors.closeWriting }) rfl
  | capture =>
    refine h.onWires (fun v => v.captureStep.getD v) ?_
    -- the reader of the error output does not touch the input
    rw [(captureStep_leaves w.wires).2.1]
  | call id line =>
    unfold apply
    dsimp only
    cases ht : w.task? id with
    | some t => exact h
    | none => exact h.beginCall ht line
  | close id =>
    unfold apply
    dsimp only
    cases ht : w.task? id with
    | some t => exact h
    | none => exact h.beginClose ht
  | poll id =>
    unfold apply
    dsimp only
    cases hp : w.poll id with
    | none => exact h
    | some w' => exact h.poll hw hp
  | giveUp id =>
    unfold apply
    dsimp only
    cases hp : w.giveUp id with
    | none => exact h
    | some w' => exact h.giveUp hp
  | abandon id => exact h.abandon id
  | answer id exchange =>
    unfold apply
    dsimp only
    cases hp : w.answer id exchange with
    | none => exact h
    | some w' => exact h.answer hp

/-- So it holds along every run, by induction on the events from the end. -/
theorem Tidy.run (h : w.Tidy) (hw : w.Orderly) (events : List Event) : (w.run events).Tidy := by
  induction events using List.reverseRecOn with
  | nil => exact h
  | append_singleton past e ih =>
    rw [run_concat]
    exact ih.step (hw.run past) e

end World
end KernelLink.Session
